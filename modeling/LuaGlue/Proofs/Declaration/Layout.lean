import LuaGlue.Declaration
import LuaGlue.Proofs.Text.Runs
import Mathlib.Tactic.SplitIfs

/-!
# Lines that declare a member

A line has a layout exactly if it can be taken apart by the rules of a declaration, and it can be
taken apart in one way only: no word begins with white space, none goes on behind white space, and
the closing parenthesis is the last one before a line feed.
-/

namespace LuaGlue

namespace Text

theorem isBlank_eq_false_of_isWord {c : Char} (h : isWord c = true) : isBlank c = false := by
  rw [← Bool.not_eq_true]
  intro hblank
  rw [isWord_eq_false_of_isBlank hblank] at h
  cases h

end Text

namespace Declaration

open Text

theorem beforeLast?_eq_some_iff {c : Char} {cs before : List Char} :
    beforeLast? c cs = some before ↔ ∃ after, c ∉ after ∧ cs = before ++ c :: after := by
  unfold beforeLast?
  constructor
  · intro h
    have hsplit := List.takeWhile_append_dropWhile (p := (· != c)) (l := cs.reverse)
    have hfirst := List.head?_dropWhile_not (· != c) cs.reverse
    split at h
    · cases h
    · next d front hdrop =>
      cases h
      rw [hdrop] at hsplit hfirst
      have hd : d = c := by simpa using hfirst
      rw [hd] at hsplit
      refine ⟨(cs.reverse.takeWhile (· != c)).reverse, ?_, ?_⟩
      · intro hmem
        have hother := List.mem_takeWhile_imp (List.mem_reverse.1 hmem)
        simp at hother
      · calc cs = (cs.reverse.takeWhile (· != c) ++ c :: front).reverse := by
              rw [hsplit, List.reverse_reverse]
          _ = front.reverse ++ c :: (cs.reverse.takeWhile (· != c)).reverse := by simp
  · rintro ⟨after, hafter, rfl⟩
    have hrun : ∀ d ∈ after.reverse, (d != c) = true := by
      intro d hd
      rw [bne_iff_ne]
      intro hsame
      exact hafter (hsame ▸ List.mem_reverse.1 hd)
    have hstop : ∀ d ∈ (c :: before.reverse).head?, (d != c) = false := by
      rintro d ⟨⟩
      exact bne_self_eq_false c
    have hdrop : (before ++ c :: after).reverse.dropWhile (· != c) = c :: before.reverse := by
      rw [List.reverse_append, List.reverse_cons, List.append_assoc, List.singleton_append,
        dropWhile_run hrun hstop]
    rw [hdrop]
    simp

/-! ## The parts of a line, each with what follows it -/

namespace Layout

variable (l : Layout)

def fromArguments : List Char := l.arguments ++ ')' :: l.rest

def fromSpace : List Char := l.space ++ '(' :: l.fromArguments

def fromName : List Char := l.name ++ l.fromSpace

def fromGap : List Char := l.gap ++ l.fromName

def fromType : List Char := l.returnType ++ l.fromGap

theorem line_eq : l.line = l.lead ++ l.fromType := by
  simp [line, fromType, fromGap, fromName, fromSpace, fromArguments]

end Layout

namespace Layout.WellFormed

variable {l : Layout} (h : l.WellFormed)

include h

theorem fromType_starts : ∀ c ∈ l.fromType.head?, isBlank c = false :=
  head?_run h.returnType_nonempty fun c hc => isBlank_eq_false_of_isWord (h.returnType_word c hc)

theorem fromGap_starts : ∀ c ∈ l.fromGap.head?, isWord c = false :=
  head?_run h.gap_nonempty fun c hc => isWord_eq_false_of_isBlank (h.gap_blank c hc)

theorem fromName_starts : ∀ c ∈ l.fromName.head?, isBlank c = false :=
  head?_run h.name_nonempty fun c hc => isBlank_eq_false_of_isWord (h.name_word c hc)

theorem fromSpace_starts : ∀ c ∈ l.fromSpace.head?, isWord c = false := by
  unfold Layout.fromSpace
  cases hspace : l.space with
  | nil =>
    rintro c ⟨⟩
    decide
  | cons c rest =>
    apply head?_run (List.cons_ne_nil c rest)
    intro d hd
    rw [← hspace] at hd
    exact isWord_eq_false_of_isBlank (h.space_blank d hd)

theorem arguments_found :
    beforeLast? ')' (l.fromArguments.takeWhile (· != '\n')) = some l.arguments := by
  refine beforeLast?_eq_some_iff.2 ⟨l.rest.takeWhile (· != '\n'), h.rest_closed, ?_⟩
  have hline : ∀ c ∈ l.arguments, (c != '\n') = true := by
    intro c hc
    rw [bne_iff_ne]
    intro hfeed
    exact h.arguments_line (hfeed ▸ hc)
  rw [Layout.fromArguments, List.takeWhile_append_of_pos hline, List.takeWhile_cons]
  rfl

theorem layout?_line : layout? l.line = some l := by
  have hparenthesis : ∀ c ∈ ('(' :: l.fromArguments).head?, isBlank c = false := by
    rintro c ⟨⟩
    decide
  have hlead := takeWhile_run h.lead_blank h.fromType_starts
  have hfromType := dropWhile_run h.lead_blank h.fromType_starts
  have hreturnType : l.fromType.takeWhile isWord = l.returnType :=
    takeWhile_run h.returnType_word h.fromGap_starts
  have hfromGap : l.fromType.dropWhile isWord = l.fromGap :=
    dropWhile_run h.returnType_word h.fromGap_starts
  have hgap : l.fromGap.takeWhile isBlank = l.gap := takeWhile_run h.gap_blank h.fromName_starts
  have hfromName : l.fromGap.dropWhile isBlank = l.fromName :=
    dropWhile_run h.gap_blank h.fromName_starts
  have hname : l.fromName.takeWhile isWord = l.name := takeWhile_run h.name_word h.fromSpace_starts
  have hfromSpace : l.fromName.dropWhile isWord = l.fromSpace :=
    dropWhile_run h.name_word h.fromSpace_starts
  have hspace : l.fromSpace.takeWhile isBlank = l.space := takeWhile_run h.space_blank hparenthesis
  have hbehind : l.fromSpace.dropWhile isBlank = '(' :: l.fromArguments :=
    dropWhile_run h.space_blank hparenthesis
  have hrest : l.fromArguments.drop (l.arguments.length + 1) = l.rest := by
    simp [Layout.fromArguments, List.drop_append]
  unfold layout?
  rw [l.line_eq]
  simp only [hlead, hfromType, hreturnType, hfromGap, hgap, hfromName, hname, hfromSpace, hspace,
    hbehind, h.arguments_found, hrest]
  rw [if_neg]
  simp [h.returnType_nonempty, h.gap_nonempty, h.name_nonempty]

end Layout.WellFormed

/-- The arguments that are found end at the last closing parenthesis of their line. -/
theorem arguments_split {cs arguments : List Char}
    (h : beforeLast? ')' (cs.takeWhile (· != '\n')) = some arguments) :
    cs = arguments ++ ')' :: cs.drop (arguments.length + 1) ∧ '\n' ∉ arguments ∧
      ')' ∉ (cs.drop (arguments.length + 1)).takeWhile (· != '\n') := by
  obtain ⟨after, hafter, hline⟩ := beforeLast?_eq_some_iff.1 h
  have hone : ∀ c ∈ arguments ++ ')' :: after, (c != '\n') = true := by
    rw [← hline]
    exact fun c hc => List.mem_takeWhile_imp (p := (· != '\n')) hc
  have hsplit : cs = arguments ++ ')' :: (after ++ cs.dropWhile (· != '\n')) := by
    have hcs := (List.takeWhile_append_dropWhile (p := (· != '\n')) (l := cs)).symm
    rwa [hline, List.append_assoc, List.cons_append] at hcs
  have hrest : (arguments ++ ')' :: (after ++ cs.dropWhile (· != '\n'))).drop
      (arguments.length + 1) = after ++ cs.dropWhile (· != '\n') := by
    simp [List.drop_append]
  rw [← hsplit] at hrest
  have hstop : ∀ c ∈ (cs.dropWhile (· != '\n')).head?, (c != '\n') = false := by
    intro c hc
    have hfirst := List.head?_dropWhile_not (· != '\n') cs
    rwa [hc] at hfirst
  rw [hrest]
  refine ⟨hsplit, fun hfeed => ?_, ?_⟩
  · have hother := hone '\n' (List.mem_append_left _ hfeed)
    simp at hother
  · rw [takeWhile_run (fun c hc => hone c (by simp [hc])) hstop]
    exact hafter

theorem wellFormed_of_layout? {line : List Char} {l : Layout} (h : layout? line = some l) :
    l.WellFormed ∧ l.line = line := by
  unfold layout? at h
  simp only at h
  split_ifs at h with hempty
  simp only [Bool.or_eq_true, List.isEmpty_iff, not_or] at hempty
  obtain ⟨⟨htype, hgap⟩, hname⟩ := hempty
  split at h
  · next fromArguments hbehind =>
    split at h
    · cases h
    · next arguments hfound =>
      cases h
      obtain ⟨hsplit, hone, hclosed⟩ := arguments_split hfound
      refine ⟨⟨?_, htype, ?_, hgap, ?_, hname, ?_, ?_, hone, hclosed⟩, ?_⟩
      case refine_6 =>
        rw [Layout.line_eq]
        unfold Layout.fromType Layout.fromGap Layout.fromName Layout.fromSpace Layout.fromArguments
        simp only
        rw [← hsplit, ← hbehind]
        simp only [List.takeWhile_append_dropWhile]
      all_goals exact fun c hc => List.mem_takeWhile_imp hc
  · cases h

/-- The layouts of a line are those that follow the rules and make the line. -/
theorem layout?_eq_some_iff {line : List Char} {l : Layout} :
    layout? line = some l ↔ l.WellFormed ∧ l.line = line := by
  constructor
  · exact wellFormed_of_layout?
  · rintro ⟨h, rfl⟩
    exact h.layout?_line

end Declaration

end LuaGlue

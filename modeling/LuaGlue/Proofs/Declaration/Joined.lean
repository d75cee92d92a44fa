import LuaGlue.Proofs.Declaration.Layout
import LuaGlue.Proofs.Text.Lines

/-!
# Declarations of joined texts

Text behind a declaration changes nothing as long as it closes no parenthesis, so it does not matter
whether a carriage return ends a line or belongs to it. Texts that are joined by line feeds declare
what each of them declares, one after the other.
-/

namespace LuaGlue.Declaration

open Text

namespace Layout

def withRest (l : Layout) (rest : List Char) : Layout := { l with rest }

theorem line_withRest_append (l : Layout) (tail : List Char) :
    (l.withRest (l.rest ++ tail)).line = l.line ++ tail := by
  simp [line, withRest]

theorem WellFormed.withRest {l : Layout} (h : l.WellFormed) {rest : List Char}
    (hclosed : ')' ∉ rest.takeWhile (· != '\n')) : (l.withRest rest).WellFormed :=
  { h with rest_closed := hclosed }

theorem WellFormed.append {l : Layout} (h : l.WellFormed) {tail : List Char} (hopen : ')' ∉ tail) :
    (l.withRest (l.rest ++ tail)).WellFormed := by
  refine h.withRest fun hmem => ?_
  rw [List.takeWhile_append] at hmem
  split_ifs at hmem with hwhole
  · rcases List.mem_append.1 hmem with hrest | htail
    · apply h.rest_closed
      rwa [(List.takeWhile_prefix _).eq_of_length hwhole]
    · exact hopen ((List.takeWhile_sublist _).subset htail)
  · exact h.rest_closed hmem

/-- The parenthesis that closes the arguments stands in the line, and what closes none behind it. -/
theorem WellFormed.of_append {l : Layout} (h : l.WellFormed) {line tail : List Char}
    (hopen : ')' ∉ tail) (hline : l.line = line ++ tail) :
    ∃ rest, (l.withRest rest).WellFormed ∧ (l.withRest rest).line = line := by
  let front := l.lead ++ l.returnType ++ l.gap ++ l.name ++ l.space ++ '(' :: l.arguments
  have hfront : front ++ ')' :: l.rest = line ++ tail := hline
  rcases List.append_eq_append_iff.1 hfront with ⟨back, rfl, hback⟩ | ⟨back, -, rfl⟩
  · cases back with
    | nil =>
      rw [List.nil_append] at hback
      exact absurd (hback ▸ List.mem_cons_self) hopen
    | cons c rest =>
      obtain ⟨rfl, hrest⟩ := List.cons_eq_cons.1 hback
      refine ⟨rest, h.withRest fun hmem => h.rest_closed ?_, rfl⟩
      rw [show l.rest = rest ++ tail from hrest, List.takeWhile_append]
      split_ifs
      · exact List.mem_append_left _ ((List.takeWhile_sublist _).subset hmem)
      · exact hmem
  · exact absurd (List.mem_append_right back List.mem_cons_self) hopen

end Layout

theorem readChars?_append {line tail : List Char} (hopen : ')' ∉ tail) :
    readChars? (line ++ tail) = readChars? line := by
  unfold readChars?
  cases hline : layout? line with
  | some l =>
    obtain ⟨hform, rfl⟩ := layout?_eq_some_iff.1 hline
    have hwhole : layout? (l.line ++ tail) = some (l.withRest (l.rest ++ tail)) :=
      layout?_eq_some_iff.2 ⟨hform.append hopen, l.line_withRest_append tail⟩
    rw [hwhole]
    rfl
  | none =>
    cases hwhole : layout? (line ++ tail) with
    | none => rfl
    | some l =>
      obtain ⟨hform, hsame⟩ := layout?_eq_some_iff.1 hwhole
      obtain ⟨rest, hpart⟩ := hform.of_append hopen hsame
      rw [layout?_eq_some_iff.2 hpart] at hline
      cases hline

theorem readChars?_chopReturn (line : List Char) :
    readChars? (chopReturn line) = readChars? line := by
  by_cases hreturn : line.getLast? = some '\r'
  · have hopen : ')' ∉ ['\r'] := by decide
    rw [eq_concat_return hreturn, chopReturn_concat_return, readChars?_append hopen]
  · rw [chopReturn_eq_self_iff.2 hreturn]

/-! ## Texts -/

/-- What ends a line and whether the last line is empty does not matter. -/
theorem readAll_eq (text : String) :
    readAll text = (text.toList.splitOn '\n').filterMap readChars? := by
  have hnothing : readChars? [] = none := rfl
  have hchopped : readChars? ∘ chopReturn = readChars? := funext readChars?_chopReturn
  have hlast : ∀ last : List Char,
      ([last].filter fun last => !last.isEmpty).filterMap readChars? =
        [last].filterMap readChars? := by
    intro last
    cases last with
    | nil => simp [hnothing]
    | cons c rest => rfl
  unfold readAll lines
  rcases List.eq_nil_or_concat (text.toList.splitOn '\n') with hnone | ⟨pieces, last, hpieces⟩
  · exact absurd hnone (List.splitOn_ne_nil '\n' text.toList)
  · rw [hpieces, List.concat_eq_append]
    simp only [List.dropLast_concat, List.getLast?_concat, Option.toList_some]
    rw [List.filterMap_append, List.filterMap_map, hchopped, hlast, List.filterMap_append]

theorem readAll_intercalate (texts : List String) :
    readAll ("\n".intercalate texts) = texts.flatMap readAll := by
  induction texts with
  | nil => rfl
  | cons text rest ih =>
    cases rest with
    | nil => rw [String.intercalate_singleton, List.flatMap_singleton]
    | cons next rest =>
      have hchars : ("\n".intercalate (text :: next :: rest)).toList =
          text.toList ++ '\n' :: ("\n".intercalate (next :: rest)).toList := by
        rw [String.toList_intercalate, String.toList_intercalate, List.map_cons, List.map_cons,
          List.intercalate_cons_cons]
        simp
      rw [List.flatMap_cons, ← ih, readAll_eq, hchars, List.splitOn_append_cons_self,
        List.filterMap_append, readAll_eq, readAll_eq]

theorem readAll_append_return (text : String) : readAll (text ++ "\r") = readAll text := by
  have hchars : (text ++ "\r").toList = text.toList ++ ['\r'] := String.toList_append
  obtain ⟨front, last, htext, hreturn⟩ := splitOn_concat (by decide : '\r' ≠ '\n') text.toList
  have hlast : readChars? (last ++ ['\r']) = readChars? last := readChars?_append (by decide)
  rw [readAll_eq, readAll_eq, hchars, htext, hreturn, List.filterMap_append,
    List.filterMap_append, List.filterMap_cons, List.filterMap_cons, hlast]

inductive LineBreak where
  | feed
  | returnFeed
  deriving DecidableEq, Repr

def LineBreak.text : LineBreak → String
  | .feed => "\n"
  | .returnFeed => "\r\n"

theorem readAll_cut (front back : String) (lineBreak : LineBreak) :
    readAll (front ++ lineBreak.text ++ back) = readAll front ++ readAll back := by
  have hfeed : ∀ front : String,
      readAll (front ++ "\n" ++ back) = readAll front ++ readAll back := by
    intro front
    have hjoined := readAll_intercalate [front, back]
    rwa [String.intercalate_cons_cons, String.intercalate_singleton, List.flatMap_cons,
      List.flatMap_singleton] at hjoined
  cases lineBreak with
  | feed => exact hfeed front
  | returnFeed =>
    have hbreak : front ++ LineBreak.returnFeed.text ++ back = front ++ "\r" ++ "\n" ++ back := by
      rw [← String.toList_inj]
      simp [LineBreak.text]
    rw [hbreak, hfeed, readAll_append_return]

end LuaGlue.Declaration

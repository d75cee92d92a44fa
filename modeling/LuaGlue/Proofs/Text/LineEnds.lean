import LuaGlue.Proofs.Text.Lines
import LuaGlue.Proofs.Text.Runs
import LuaGlue.Proofs.Text.Utf8
import Mathlib.Logic.Relation

/-!
# Other line ends

Two lists are the same but for carriage returns if one becomes the other by dropping and adding
carriage returns in front of line feeds, one at a time. This is the same for the bytes of a text as
for its characters. A function that takes no notice of one carriage return at the end of a line
finds the same in all lines of both.
-/

namespace LuaGlue.Text

section Lists

variable {α β γ : Type} {ret feed : α} {ret' feed' : β} {xs ys : List α}

inductive DropsReturn (ret feed : α) : List α → List α → Prop
  | drop (front rest : List α) :
      DropsReturn ret feed (front ++ ret :: feed :: rest) (front ++ feed :: rest)

/-- The lists differ only in carriage returns in front of line feeds. -/
def SameButReturns (ret feed : α) : List α → List α → Prop :=
  Relation.EqvGen (DropsReturn ret feed)

def returnFeeds [DecidableEq α] (ret feed : α) (xs : List α) : List α :=
  xs.flatMap fun x => if x = feed then [ret, feed] else [x]

namespace SameButReturns

/-- What does not show one carriage return does not show any. -/
theorem eq_of_drop {f : List α → γ}
    (hf : ∀ front rest, f (front ++ ret :: feed :: rest) = f (front ++ feed :: rest))
    (h : SameButReturns ret feed xs ys) : f xs = f ys := by
  induction h with
  | rel xs ys hdrop =>
    obtain ⟨front, rest⟩ := hdrop
    exact hf front rest
  | refl xs => rfl
  | symm xs ys _ ih => exact ih.symm
  | trans xs ys zs _ _ ih ih' => exact ih.trans ih'

theorem map_of_drop {f : List α → List β}
    (hf : ∀ front rest,
      DropsReturn ret' feed' (f (front ++ ret :: feed :: rest)) (f (front ++ feed :: rest)))
    (h : SameButReturns ret feed xs ys) : SameButReturns ret' feed' (f xs) (f ys) := by
  induction h with
  | rel xs ys hdrop =>
    obtain ⟨front, rest⟩ := hdrop
    exact .rel _ _ (hf front rest)
  | refl xs => exact .refl _
  | symm xs ys _ ih => exact .symm _ _ ih
  | trans xs ys zs _ _ ih ih' => exact .trans _ _ _ ih ih'

theorem cons (x : α) (h : SameButReturns ret feed xs ys) :
    SameButReturns ret feed (x :: xs) (x :: ys) :=
  h.map_of_drop fun front rest => .drop (x :: front) rest

end SameButReturns

theorem sameButReturns_returnFeeds [DecidableEq α] (ret feed : α) (xs : List α) :
    SameButReturns ret feed (returnFeeds ret feed xs) xs := by
  induction xs with
  | nil => exact .refl _
  | cons x xs ih =>
    unfold returnFeeds at ih ⊢
    rw [List.flatMap_cons]
    split_ifs with hfeed
    · rw [hfeed]
      exact .trans _ _ _ (.rel _ _ (.drop [] _)) (ih.cons feed)
    · exact ih.cons x

/-- What starts a list shows in front of the first element that it does not have. -/
theorem prefix_append_cons_iff {lead front rest : List α} {x : α} (hx : x ∉ lead) :
    lead <+: front ++ x :: rest ↔ lead <+: front := by
  induction front generalizing lead with
  | nil =>
    cases lead with
    | nil => simp
    | cons first lead =>
      have hfirst : first ≠ x := fun hsame => hx (hsame ▸ List.mem_cons_self)
      simp [List.cons_prefix_cons, hfirst]
  | cons y front ih =>
    cases lead with
    | nil => simp
    | cons first lead =>
      rw [List.cons_append, List.cons_prefix_cons, List.cons_prefix_cons,
        ih fun hmem => hx (List.mem_cons_of_mem first hmem)]

end Lists

theorem afterLead?_append_cons {lead : List Char} {c : Char} (hc : c ∉ lead)
    (front rest : List Char) :
    afterLead? lead (front ++ c :: rest) = (afterLead? lead front).map (· ++ c :: rest) := by
  unfold afterLead?
  simp only [List.isPrefixOf_iff_prefix, prefix_append_cons_iff hc]
  split_ifs with hlead
  · obtain ⟨back, rfl⟩ := hlead
    simp
  · rfl

/-! ## Bytes and their text -/

def SameBytesButReturns (content content' : ByteArray) : Prop :=
  SameButReturns 13 10 content.data.toList content'.data.toList

def SameTextButReturns (text text' : String) : Prop :=
  SameButReturns '\r' '\n' text.toList text'.toList

def withReturns (text : String) : String := String.ofList (returnFeeds '\r' '\n' text.toList)

theorem sameTextButReturns_withReturns (text : String) :
    SameTextButReturns (withReturns text) text := by
  unfold SameTextButReturns withReturns
  rw [String.toList_ofList]
  exact sameButReturns_returnFeeds '\r' '\n' text.toList

theorem SameTextButReturns.toUTF8 {text text' : String} (h : SameTextButReturns text text') :
    SameBytesButReturns text.toUTF8 text'.toUTF8 := by
  unfold SameBytesButReturns
  rw [toUTF8_toList, toUTF8_toList]
  refine SameButReturns.map_of_drop (fun front rest => ?_) h
  rw [utf8Bytes_append, utf8Bytes_append]
  exact .drop (utf8Bytes front) (utf8Bytes rest)

theorem utf8Bytes_eq_returnFeed_iff {cs : List Char} {front rest : List UInt8} :
    utf8Bytes cs = front ++ 13 :: 10 :: rest ↔
      ∃ before after, cs = before ++ '\r' :: '\n' :: after ∧ utf8Bytes before = front ∧
        utf8Bytes after = rest := by
  constructor
  · intro h
    obtain ⟨before, back, rfl, hbefore, hback⟩ :=
      (utf8Bytes_eq_append_cons_iff (by decide) front (10 :: rest)).1 h
    obtain ⟨none, after, rfl, hnone, hafter⟩ :=
      (utf8Bytes_eq_append_cons_iff (by decide) [] rest).1 hback
    rw [utf8Bytes_eq_nil hnone]
    exact ⟨before, after, rfl, hbefore, hafter⟩
  · rintro ⟨before, after, rfl, rfl, rfl⟩
    rw [utf8Bytes_append]
    rfl

/-- Bytes do not become well formed by a carriage return in front of a line feed. -/
theorem ofUtf8?_returnFeed_eq_none {front rest : List UInt8}
    (h : ofUtf8? ⟨(front ++ 10 :: rest).toArray⟩ = none) :
    ofUtf8? ⟨(front ++ 13 :: 10 :: rest).toArray⟩ = none := by
  cases hwhole : ofUtf8? ⟨(front ++ 13 :: 10 :: rest).toArray⟩ with
  | none => rfl
  | some text =>
    obtain ⟨before, after, -, hbefore, hafter⟩ :=
      utf8Bytes_eq_returnFeed_iff.1 (ofUtf8?_eq_some_iff.1 hwhole)
    have hsome : ofUtf8? ⟨(front ++ 10 :: rest).toArray⟩ =
        some (String.ofList (before ++ '\n' :: after)) := by
      rw [ofUtf8?_eq_some_iff, String.toList_ofList]
      exact (utf8Bytes_eq_append_cons_iff (by decide) front rest).2
        ⟨before, after, rfl, hbefore, hafter⟩
    rw [h] at hsome
    cases hsome

theorem utf8Parts_returnFeed (front rest : List UInt8) :
    utf8Parts .start (front ++ 13 :: 10 :: rest) =
      utf8Parts .start front ++ some '\r' :: some '\n' :: utf8Parts .start rest := by
  have hfeed : utf8Parts .start (10 :: rest) = some '\n' :: utf8Parts .start rest :=
    utf8Parts_append_ascii (by decide) [] rest
  rw [utf8Parts_append_ascii (by decide), hfeed]
  rfl

/-- A carriage return that is dropped from bytes is dropped from their text, and from nothing else
of it. -/
theorem decode_drop (front rest : List UInt8) :
    (decode ⟨(front ++ 13 :: 10 :: rest).toArray⟩).replaced =
        (decode ⟨(front ++ 10 :: rest).toArray⟩).replaced ∧
      DropsReturn '\r' '\n' (decode ⟨(front ++ 13 :: 10 :: rest).toArray⟩).text.toList
        (decode ⟨(front ++ 10 :: rest).toArray⟩).text.toList := by
  unfold decode
  cases hless : ofUtf8? ⟨(front ++ 10 :: rest).toArray⟩ with
  | some text =>
    obtain ⟨before, after, htext, hbefore, hafter⟩ :=
      (utf8Bytes_eq_append_cons_iff (by decide) front rest).1 (ofUtf8?_eq_some_iff.1 hless)
    have hwhole : ofUtf8? ⟨(front ++ 13 :: 10 :: rest).toArray⟩ =
        some (String.ofList (before ++ '\r' :: '\n' :: after)) := by
      rw [ofUtf8?_eq_some_iff, String.toList_ofList]
      exact utf8Bytes_eq_returnFeed_iff.2 ⟨before, after, rfl, hbefore, hafter⟩
    rw [hwhole]
    simp only [String.toList_ofList, htext]
    exact ⟨trivial, .drop before after⟩
  | none =>
    rw [ofUtf8?_returnFeed_eq_none hless]
    simp only [String.toList_ofList, utf8Parts_returnFeed]
    rw [utf8Parts_append_ascii (by decide), List.map_append, List.map_append]
    exact ⟨trivial, .drop _ _⟩

section Contents

variable {content content' : ByteArray} (h : SameBytesButReturns content content')

include h

theorem decode_text_sameButReturns :
    SameTextButReturns (decode content).text (decode content').text :=
  SameButReturns.map_of_drop (f := fun bytes => (decode ⟨bytes.toArray⟩).text.toList)
    (fun front rest => (decode_drop front rest).2) h

theorem decode_replaced_sameButReturns : (decode content).replaced = (decode content').replaced :=
  SameButReturns.eq_of_drop (f := fun bytes => (decode ⟨bytes.toArray⟩).replaced)
    (fun front rest => (decode_drop front rest).1) h

end Contents

/-! ## Lines -/

theorem cutLine_append_feed {first : List Char} (hfirst : '\n' ∉ first) (rest : List Char) :
    cutLine (first ++ '\n' :: rest) = (first, rest) := by
  have hrun : ∀ c ∈ first, (c != '\n') = true := by
    intro c hc
    rw [bne_iff_ne]
    exact fun hfeed => hfirst (hfeed ▸ hc)
  have hstop : ∀ c ∈ ('\n' :: rest).head?, (c != '\n') = false := by
    rintro c ⟨⟩
    rfl
  unfold cutLine
  rw [takeWhile_run hrun hstop, dropWhile_run hrun hstop]
  rfl

theorem cutLine_of_not_mem {cs : List Char} (h : '\n' ∉ cs) : cutLine cs = (cs, []) := by
  have hrun : ∀ c ∈ cs, (c != '\n') = true := by
    intro c hc
    rw [bne_iff_ne]
    exact fun hfeed => h (hfeed ▸ hc)
  rw [cutLine, List.takeWhile_eq_self_iff.2 hrun, List.dropWhile_eq_nil_iff.2 hrun, List.drop_nil]

/-- What takes no notice of one carriage return at the end of a line takes none of the line ends of
a text. -/
theorem map_lines_drop {β : Type} {f : List Char → β} (hf : ∀ line, f (line ++ ['\r']) = f line)
    (front rest : List Char) :
    (lines (front ++ '\r' :: '\n' :: rest)).map f = (lines (front ++ '\n' :: rest)).map f := by
  obtain ⟨pieces, last, hfront, hreturn⟩ := splitOn_concat (by decide : '\r' ≠ '\n') front
  have hchop : f (chopReturn last) = f last := by
    by_cases hlast : last.getLast? = some '\r'
    · rw [eq_concat_return hlast, chopReturn_concat_return, hf]
    · rw [chopReturn_eq_self_iff.2 hlast]
  have hback : front ++ '\r' :: '\n' :: rest = front ++ ['\r'] ++ '\n' :: rest := by simp
  rw [hback, lines_append_feed, lines_append_feed, hfront, hreturn]
  simp [chopReturn_concat_return, hchop]

theorem map_lines_sameButReturns {β : Type} {f : List Char → β}
    (hf : ∀ line, f (line ++ ['\r']) = f line) {cs cs' : List Char}
    (h : SameButReturns '\r' '\n' cs cs') : (lines cs).map f = (lines cs').map f :=
  h.eq_of_drop (f := fun cs => (lines cs).map f) (map_lines_drop hf)

end LuaGlue.Text

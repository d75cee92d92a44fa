import LuaGlue.Proofs.Declaration.Joined
import LuaGlue.Proofs.Declaration.Pattern

/-!
# Text behind a declaration

Text behind a declaration is ignored as long as it holds no closing parenthesis. Otherwise the
arguments go on to the last closing parenthesis of the line, and what is declared is another member.
-/

namespace LuaGlue.Declaration

open Text

/-- All characters of an argument list but commas and white space stand in its types. -/
theorem count_splitArgChars {c : Char} (hcomma : c ≠ ',') (hblank : isBlank c = false)
    (raw : List Char) : (splitArgChars raw).flatten.count c = raw.count c := by
  have htrimmed : ∀ pieces : List (List Char),
      (pieces.map trimChars).flatten.count c = pieces.flatten.count c := by
    intro pieces
    simp only [List.count_flatten, List.map_map, Function.comp_def, count_trimChars hblank]
  rw [splitArgChars, List.flatten_filter_not_isEmpty, htrimmed, count_splitOn hcomma]

/-- Argument lists with a different number of closing parentheses have different types. -/
theorem count_eq_of_splitArgs_eq {raw raw' : List Char}
    (h : splitArgs (String.ofList raw) = splitArgs (String.ofList raw')) :
    raw.count ')' = raw'.count ')' := by
  have hcount : ∀ raw, (splitArgChars raw).flatten.count ')' = raw.count ')' :=
    count_splitArgChars (by decide) (by decide)
  unfold splitArgs at h
  rw [String.toList_ofList, String.toList_ofList] at h
  have htypes := List.map_injective_iff.2 (fun _ _ => String.ofList_inj.1) h
  rw [← hcount raw, htypes, hcount]

namespace Layout

/-- The layout of a line that goes on, the arguments ending at a closing parenthesis behind it. -/
def prolonged (l : Layout) (before after : List Char) : Layout :=
  { l with arguments := l.arguments ++ ')' :: l.rest ++ before, rest := after }

/-- The arguments go on to the last closing parenthesis. -/
theorem Splits.prolonged {l : Layout} {line tail : String} (h : l.Splits line)
    (hrest : '\n' ∉ l.rest) (htail : '\n' ∉ tail.toList) {before after : List Char}
    (hsplit : tail.toList = before ++ ')' :: after) (hafter : ')' ∉ after) :
    (l.prolonged before after).Splits (line ++ tail) := by
  obtain ⟨hform, hline⟩ := h
  refine ⟨{ hform with arguments_line := ?_, rest_closed := ?_ }, ?_⟩
  · have hone : '\n' ≠ ')' := by decide
    rw [hsplit, List.mem_append, not_or] at htail
    simp [Layout.prolonged, hform.arguments_line, hone, hrest, htail.1]
  · exact fun hmem => hafter ((List.takeWhile_sublist _).subset hmem)
  · rw [String.toList_append, ← hline, hsplit]
    simp [Layout.prolonged, Layout.line]

end Layout

/-- What a line declares alone and with a text behind it: the same, unless the text holds a closing
parenthesis. -/
structure Trailed (l : Layout) (line tail : String) : Prop where
  alone : read? line = some ⟨String.ofList l.returnType, String.ofList l.name,
    splitArgs (String.ofList l.arguments)⟩
  same_iff : read? (line ++ tail) = read? line ↔ ')' ∉ tail.toList
  /-- Up to its last closing parenthesis the text counts as a part of the arguments. -/
  prolonged : ∀ before after, tail.toList = before ++ ')' :: after → ')' ∉ after →
    read? (line ++ tail) = some ⟨String.ofList l.returnType, String.ofList l.name,
      splitArgs (String.ofList (l.arguments ++ ')' :: l.rest ++ before))⟩

theorem read?_trailed {l : Layout} {line tail : String} (h : l.Splits line) (hrest : '\n' ∉ l.rest)
    (htail : '\n' ∉ tail.toList) : Trailed l line tail where
  alone := h.read?_eq
  same_iff := by
    constructor
    · intro hsame
      -- a member with longer arguments has types with more closing parentheses
      rw [← beforeLast?_eq_none_iff, Option.eq_none_iff_forall_ne_some]
      intro before hlast
      obtain ⟨after, hafter, hsplit⟩ := beforeLast?_eq_some_iff.1 hlast
      rw [(h.prolonged hrest htail hsplit hafter).read?_eq, h.read?_eq] at hsame
      have hcount := count_eq_of_splitArgs_eq (Member.mk.inj (Option.some.inj hsame)).2.2
      rw [Layout.prolonged, List.count_append, List.count_append, List.count_cons_self] at hcount
      omega
    · intro hopen
      rw [read?, read?, String.toList_append]
      exact readChars?_append hopen
  prolonged _ _ hsplit hafter := (h.prolonged hrest htail hsplit hafter).read?_eq

def setter : Layout where
  lead := []
  returnType := "void".toList
  gap := [' ']
  name := "set_name".toList
  space := []
  arguments := "String".toList
  rest := []

theorem setter_splits : setter.Splits "void set_name(String)" := by
  have hblank : setter.gap.all isBlank = true := by decide
  have htype : setter.returnType.all isWord = true := by decide
  have hname : setter.name.all isWord = true := by decide
  refine ⟨{
    lead_blank := nofun
    returnType_nonempty := by decide
    returnType_word := List.all_eq_true.1 htype
    gap_nonempty := by decide
    gap_blank := List.all_eq_true.1 hblank
    name_nonempty := by decide
    name_word := List.all_eq_true.1 hname
    space_blank := nofun
    arguments_line := by decide
    rest_closed := by decide }, by decide⟩

theorem setter_trailed :
    setter.Splits "void set_name(String)" ∧ '\n' ∉ setter.rest ∧
      '\n' ∉ "; // setter (deprecated)".toList ∧
      Trailed setter "void set_name(String)" "; // setter (deprecated)" := by
  have hrest : '\n' ∉ setter.rest := by decide
  have htail : '\n' ∉ "; // setter (deprecated)".toList := by decide
  exact ⟨setter_splits, hrest, htail, read?_trailed setter_splits hrest htail⟩

/-- A comment behind a declaration becomes a part of its argument. -/
theorem commentedSetter_differs :
    setter.Splits "void set_name(String)" ∧
      read? "void set_name(String)" = some ⟨"void", "set_name", ["String"]⟩ ∧
      read? ("void set_name(String)" ++ "; // setter (deprecated)") =
        some ⟨"void", "set_name", ["String); // setter (deprecated"]⟩ ∧
      read? ("void set_name(String)" ++ "; // setter (deprecated)") ≠
        read? "void set_name(String)" := by
  have halone : read? "void set_name(String)" = some ⟨"void", "set_name", ["String"]⟩ := by
    decide +kernel
  have hcommented : read? ("void set_name(String)" ++ "; // setter (deprecated)") =
      some ⟨"void", "set_name", ["String); // setter (deprecated"]⟩ := by
    decide +kernel
  refine ⟨setter_splits, halone, hcommented, ?_⟩
  rw [halone, hcommented]
  decide

end LuaGlue.Declaration

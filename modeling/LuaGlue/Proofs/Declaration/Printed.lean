import LuaGlue.Proofs.Declaration.Pattern
import LuaGlue.Proofs.Text.Lines

/-!
# Members that can be declared

A member is declared by some line exactly if its names are words and each of its argument types
could stand between two commas, with nothing to trim. Such a member is declared by the line that is
printed for it.
-/

namespace LuaGlue

open Text

structure Declaration.IsArgType (type : List Char) : Prop where
  nonempty : type ≠ []
  whole : ',' ∉ type
  one : '\n' ∉ type
  trimmed : IsTrimmed type

structure Member.Declarable (m : Member) : Prop where
  returnType_nonempty : m.returnType ≠ ""
  returnType_word : ∀ c ∈ m.returnType.toList, isWord c = true
  name_nonempty : m.name ≠ ""
  name_word : ∀ c ∈ m.name.toList, isWord c = true
  argTypes : ∀ type ∈ m.argTypes, Declaration.IsArgType type.toList

namespace Declaration

/-! ## Argument lists -/

theorem splitArgChars_append_comma (front rest : List Char) :
    splitArgChars (front ++ ',' :: rest) = splitArgChars front ++ splitArgChars rest := by
  unfold splitArgChars
  rw [List.splitOn_append_cons_self, List.map_append, List.filter_append]

theorem splitArgChars_cons_blank {c : Char} (hc : isBlank c = true) (cs : List Char) :
    splitArgChars (c :: cs) = splitArgChars cs := by
  have hcomma : c ≠ ',' := by
    rintro rfl
    exact absurd hc (by decide)
  have htrim : ∀ piece, trimChars (c :: piece) = trimChars piece := fun piece => by
    rw [trimChars, List.dropWhile_cons_of_pos hc, trimChars]
  obtain ⟨piece, pieces, hpieces⟩ := List.exists_cons_of_ne_nil (List.splitOn_ne_nil ',' cs)
  unfold splitArgChars
  rw [List.splitOn_cons_eq_if_modifyHead, if_neg (by simp [hcomma]), hpieces, List.modifyHead_cons,
    List.map_cons, htrim, List.map_cons]

theorem IsArgType.splitArgChars_eq {type : List Char} (h : IsArgType type) :
    splitArgChars type = [type] := by
  unfold splitArgChars
  rw [List.splitOn_eq_singleton h.whole, List.map_singleton, trimChars_eq_self_iff.2 h.trimmed,
    List.filter_cons_of_pos (by simp [h.nonempty]), List.filter_nil]

def joined (types : List (List Char)) : List Char := [',', ' '].intercalate types

theorem joined_cons_cons (type next : List Char) (types : List (List Char)) :
    joined (type :: next :: types) = type ++ ',' :: ' ' :: joined (next :: types) := by
  rw [joined, List.intercalate_cons_cons, List.append_assoc]
  rfl

theorem splitArgChars_joined {types : List (List Char)} (h : ∀ type ∈ types, IsArgType type) :
    splitArgChars (joined types) = types := by
  induction types with
  | nil => rfl
  | cons type rest ih =>
    obtain ⟨htype, hrest⟩ := List.forall_mem_cons.1 h
    cases rest with
    | nil =>
      rw [joined, List.intercalate_singleton]
      exact htype.splitArgChars_eq
    | cons next others =>
      rw [joined_cons_cons, splitArgChars_append_comma, splitArgChars_cons_blank (by decide),
        ih hrest, htype.splitArgChars_eq, List.singleton_append]

theorem not_mem_joined {types : List (List Char)} (h : ∀ type ∈ types, IsArgType type) :
    '\n' ∉ joined types := by
  induction types with
  | nil => exact List.not_mem_nil
  | cons type rest ih =>
    obtain ⟨htype, hrest⟩ := List.forall_mem_cons.1 h
    cases rest with
    | nil =>
      rw [joined, List.intercalate_singleton]
      exact htype.one
    | cons next others =>
      rw [joined_cons_cons]
      simp [htype.one, ih hrest]

theorem isArgType_of_mem_splitArgChars {raw type : List Char} (hraw : '\n' ∉ raw)
    (h : type ∈ splitArgChars raw) : IsArgType type := by
  obtain ⟨hmem, hnonempty⟩ := List.mem_filter.1 h
  obtain ⟨piece, hpiece, rfl⟩ := List.mem_map.1 hmem
  have hkept := (trimChars_sublist piece).subset
  have hone : '\n' ∉ piece := fun hfeed => by
    have hflat : '\n' ∈ (raw.splitOn ',').flatten := List.mem_flatten.2 ⟨piece, hpiece, hfeed⟩
    rw [← List.count_pos_iff, count_splitOn (by decide), List.count_pos_iff] at hflat
    exact hraw hflat
  exact {
    nonempty := by simpa using hnonempty
    whole := fun hcomma => not_mem_of_mem_splitOn piece hpiece (hkept hcomma)
    one := fun hfeed => hone (hkept hfeed)
    trimmed := isTrimmed_trimChars piece }

/-! ## What lines declare -/

theorem Layout.WellFormed.declarable {l : Layout} (h : l.WellFormed) : l.member.Declarable where
  returnType_nonempty := by simpa [Layout.member] using h.returnType_nonempty
  returnType_word := by simpa [Layout.member] using h.returnType_word
  name_nonempty := by simpa [Layout.member] using h.name_nonempty
  name_word := by simpa [Layout.member] using h.name_word
  argTypes := by
    rw [Layout.member, List.forall_mem_map]
    intro type htype
    rw [String.toList_ofList]
    exact isArgType_of_mem_splitArgChars h.arguments_line htype

theorem declarable_of_read? {line : String} {m : Member} (h : read? line = some m) :
    m.Declarable := by
  obtain ⟨l, hl, rfl⟩ := Option.map_eq_some_iff.1 h
  exact (wellFormed_of_layout? hl).1.declarable

def Layout.ofMember (m : Member) : Layout where
  lead := []
  returnType := m.returnType.toList
  gap := [' ']
  name := m.name.toList
  space := []
  arguments := joined (m.argTypes.map String.toList)
  rest := []

theorem line_ofMember (m : Member) : (Layout.ofMember m).line = (print m).toList := by
  simp [Layout.line, Layout.ofMember, print, joined]

end Declaration

namespace Member.Declarable

open Declaration

variable {m : Member} (h : m.Declarable)

include h

theorem isArgType_of_mem : ∀ type ∈ m.argTypes.map String.toList, IsArgType type := by
  rw [List.forall_mem_map]
  exact h.argTypes

theorem splits_print : (Layout.ofMember m).Splits (print m) := by
  refine ⟨{
    lead_blank := nofun
    returnType_nonempty := by simpa [Layout.ofMember] using h.returnType_nonempty
    returnType_word := h.returnType_word
    gap_nonempty := List.cons_ne_nil _ _
    gap_blank := ?_
    name_nonempty := by simpa [Layout.ofMember] using h.name_nonempty
    name_word := h.name_word
    space_blank := nofun
    arguments_line := not_mem_joined h.isArgType_of_mem
    rest_closed := List.not_mem_nil }, line_ofMember m⟩
  rw [Layout.ofMember, List.forall_mem_singleton]
  decide

theorem read?_print : read? (print m) = some m := by
  rw [h.splits_print.read?_eq, splitArgs, String.toList_ofList, Layout.ofMember,
    splitArgChars_joined h.isArgType_of_mem, String.ofList_toList, String.ofList_toList,
    List.map_map]
  simp

theorem one_line : '\n' ∉ (print m).toList := by
  have hword : ∀ {cs : List Char}, (∀ c ∈ cs, isWord c = true) → '\n' ∉ cs := fun hcs hfeed =>
    absurd (hcs _ hfeed) (by decide)
  rw [← line_ofMember]
  simp [Layout.line, Layout.ofMember, hword h.returnType_word, hword h.name_word,
    not_mem_joined h.isArgType_of_mem]

end Member.Declarable

namespace Declaration

/-- Characters that could end a literal, a block or a statement of the code that a name stands in. -/
def breaking : List Char := ['"', '\'', '\\', '\n', '{', '}', '(', ')', ';', ',']

theorem not_mem_of_mem_breaking {word : String} (hword : ∀ c ∈ word.toList, isWord c = true) :
    ∀ c ∈ breaking, c ∉ word.toList := by
  have hbreaking : breaking.all (fun c => !isWord c) = true := by decide
  intro c hc hmem
  have hother := List.all_eq_true.1 hbreaking c hc
  rw [hword c hmem] at hother
  cases hother

/-- The members that lines declare are those that can be declared; each of them is read back from
the one line that is printed for it, so that printing what was read and reading it again changes
nothing; and nothing in their names breaks the code that they stand in. -/
theorem declarable_iff (m : Member) :
    ((∃ line, read? line = some m) ↔ m.Declarable) ∧
      (read? (print m) = some m ↔ m.Declarable) ∧
      (∀ line, read? line = some m →
        read? (print m) = read? line ∧ '\n' ∉ (print m).toList ∧
          ∀ c ∈ breaking, c ∉ m.returnType.toList ∧ c ∉ m.name.toList) := by
  refine ⟨⟨?_, fun h => ⟨print m, h.read?_print⟩⟩, ⟨declarable_of_read?, fun h => h.read?_print⟩,
    fun line hline => ?_⟩
  · rintro ⟨line, hline⟩
    exact declarable_of_read? hline
  · have h := declarable_of_read? hline
    rw [h.read?_print, hline]
    exact ⟨rfl, h.one_line, fun c hc => ⟨not_mem_of_mem_breaking h.returnType_word c hc,
      not_mem_of_mem_breaking h.name_word c hc⟩⟩

end Declaration

end LuaGlue

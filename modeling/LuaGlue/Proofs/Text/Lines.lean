import LuaGlue.Text.Lines
import Mathlib.Data.List.Basic
import Mathlib.Tactic.SplitIfs

/-!
# Texts made of lines

A text in which every line ends in a line feed is read back as its lines, less one carriage return
at the end of each. The lines are the same ones if none of them ends in a carriage return.
-/

namespace LuaGlue.Text

/-- One line, whose last character is not taken for a part of the line end. -/
structure IsLine (cs : List Char) : Prop where
  one : '\n' ∉ cs
  unreturned : cs.getLast? ≠ some '\r'

theorem chopReturn_eq_self_iff {line : List Char} :
    chopReturn line = line ↔ line.getLast? ≠ some '\r' := by
  unfold chopReturn
  split_ifs with h
  · have hne : line ≠ [] := by
      rintro rfl
      cases h
    have hlength := List.length_pos_iff.2 hne
    refine ⟨fun hsame => ?_, fun hreturn => absurd h hreturn⟩
    have hshorter := congrArg List.length hsame
    rw [List.length_dropLast] at hshorter
    omega
  · exact ⟨fun _ => h, fun _ => rfl⟩

theorem chopReturn_concat_return (line : List Char) : chopReturn (line ++ ['\r']) = line := by
  unfold chopReturn
  rw [List.getLast?_concat, if_pos rfl, List.dropLast_concat]

theorem eq_concat_return {line : List Char} (h : line.getLast? = some '\r') :
    line = chopReturn line ++ ['\r'] := by
  obtain ⟨body, rfl⟩ := List.getLast?_eq_some_iff.1 h
  rw [chopReturn_concat_return]

theorem chopReturn_append {lead : List Char} (h : lead.getLast? ≠ some '\r') (cs : List Char) :
    chopReturn (lead ++ cs) = lead ++ chopReturn cs := by
  by_cases hreturn : cs.getLast? = some '\r'
  · obtain ⟨body, rfl⟩ := List.getLast?_eq_some_iff.1 hreturn
    rw [chopReturn_concat_return, ← List.append_assoc, chopReturn_concat_return]
  · have hwhole : (lead ++ cs).getLast? ≠ some '\r' := by
      rw [List.getLast?_append]
      cases hlast : cs.getLast? with
      | none => exact h
      | some c => rwa [hlast] at hreturn
    rw [chopReturn_eq_self_iff.2 hreturn, chopReturn_eq_self_iff.2 hwhole]

theorem length_splitOn (c : Char) (cs : List Char) :
    (cs.splitOn c).length = cs.count c + 1 := by
  induction cs with
  | nil => rfl
  | cons first rest ih =>
    rw [List.splitOn_cons_eq_if_modifyHead, List.count_cons]
    split_ifs with h
    · rw [List.length_cons, ih]
    · rw [List.length_modifyHead, ih]

/-- A character behind a text stands in its last piece. -/
theorem splitOn_concat {sep c : Char} (hc : c ≠ sep) (cs : List Char) :
    ∃ front last, cs.splitOn sep = front ++ [last] ∧
      (cs ++ [c]).splitOn sep = front ++ [last ++ [c]] := by
  induction cs with
  | nil => exact ⟨[], [], rfl, List.splitOn_eq_singleton (by simpa using hc.symm)⟩
  | cons first rest ih =>
    obtain ⟨front, last, hrest, hconcat⟩ := ih
    rw [List.cons_append, List.splitOn_cons_eq_if_modifyHead, List.splitOn_cons_eq_if_modifyHead,
      hrest, hconcat]
    split_ifs with hsep
    · exact ⟨[] :: front, last, rfl, rfl⟩
    · cases front with
      | nil => exact ⟨[], first :: last, rfl, rfl⟩
      | cons piece front => exact ⟨(first :: piece) :: front, last, rfl, rfl⟩

/-- A text is one piece, or a piece and a separator in front of a text. -/
@[elab_as_elim]
theorem splitOn_induction (sep : Char) {motive : List Char → Prop}
    (last : ∀ piece, sep ∉ piece → motive piece)
    (cons : ∀ first rest, sep ∉ first → motive rest → motive (first ++ sep :: rest))
    (cs : List Char) : motive cs := by
  by_cases hsep : sep ∈ cs
  · obtain ⟨first, rest, hcs, hfirst⟩ := List.eq_append_cons_of_mem hsep
    have hshorter : rest.length < cs.length := by
      rw [hcs, List.length_append, List.length_cons]
      omega
    rw [hcs]
    exact cons first rest hfirst (splitOn_induction sep last cons rest)
  · exact last cs hsep
termination_by cs.length

theorem not_mem_of_mem_splitOn {sep : Char} {cs : List Char} :
    ∀ piece ∈ cs.splitOn sep, sep ∉ piece := by
  induction cs using splitOn_induction sep with
  | last piece hpiece =>
    rw [List.splitOn_eq_singleton hpiece, List.forall_mem_singleton]
    exact hpiece
  | cons first rest hfirst ih =>
    rw [List.splitOn_append_cons_self_of_not_mem hfirst, List.forall_mem_cons]
    exact ⟨hfirst, ih⟩

theorem count_splitOn {sep c : Char} (hc : c ≠ sep) (cs : List Char) :
    (cs.splitOn sep).flatten.count c = cs.count c := by
  induction cs using splitOn_induction sep with
  | last piece hpiece => rw [List.splitOn_eq_singleton hpiece, List.flatten_singleton]
  | cons first rest hfirst ih =>
    rw [List.splitOn_append_cons_self_of_not_mem hfirst, List.flatten_cons, List.count_append, ih,
      List.count_append, List.count_cons_of_ne hc.symm]

theorem chopReturn_sublist (line : List Char) : (chopReturn line).Sublist line := by
  unfold chopReturn
  split_ifs
  · exact List.dropLast_sublist line
  · exact List.Sublist.refl line

theorem not_mem_of_mem_lines {cs line : List Char} (h : line ∈ lines cs) : '\n' ∉ line := by
  rcases List.mem_append.1 h with hfront | hlast
  · obtain ⟨piece, hpiece, rfl⟩ := List.mem_map.1 hfront
    have hone := not_mem_of_mem_splitOn piece ((List.dropLast_sublist _).subset hpiece)
    exact fun hfeed => hone ((chopReturn_sublist piece).subset hfeed)
  · have hpiece := Option.mem_toList.1 (List.mem_filter.1 hlast).1
    exact not_mem_of_mem_splitOn line (List.mem_of_getLast? hpiece)

theorem splitOn_terminated {ls : List (List Char)} (h : ∀ line ∈ ls, '\n' ∉ line) :
    (ls.flatMap fun line => line ++ ['\n']).splitOn '\n' = ls ++ [[]] := by
  induction ls with
  | nil => rfl
  | cons line rest ih =>
    obtain ⟨hline, hrest⟩ := List.forall_mem_cons.1 h
    rw [List.flatMap_cons, List.append_assoc, List.singleton_append,
      List.splitOn_append_cons_self, List.splitOn_eq_singleton hline, ih hrest]
    rfl

theorem lines_terminated {ls : List (List Char)} (h : ∀ line ∈ ls, '\n' ∉ line) :
    lines (ls.flatMap fun line => line ++ ['\n']) = ls.map chopReturn := by
  unfold lines
  rw [splitOn_terminated h]
  simp

theorem lines_of_isLine {ls : List (List Char)} (h : ∀ line ∈ ls, IsLine line) :
    lines (ls.flatMap fun line => line ++ ['\n']) = ls := by
  have hkept : ls.map chopReturn = ls.map id := by
    apply List.map_congr_left
    intro line hline
    exact chopReturn_eq_self_iff.2 (h line hline).unreturned
  rw [lines_terminated fun line hline => (h line hline).one, hkept, List.map_id]

theorem lines_append_feed (front rest : List Char) :
    lines (front ++ '\n' :: rest) = (front.splitOn '\n').map chopReturn ++ lines rest := by
  have hne : rest.splitOn '\n' ≠ [] := List.splitOn_ne_nil _ _
  simp only [lines]
  rw [List.splitOn_append_cons_self, List.dropLast_append_of_ne_nil hne, List.map_append,
    List.append_assoc, List.getLast?_append_of_ne_nil _ hne]

theorem lines_nil : lines [] = [] := rfl

theorem lines_concat_feed (cs : List Char) :
    lines (cs ++ ['\n']) = (cs.splitOn '\n').map chopReturn := by
  rw [lines_append_feed, lines_nil, List.append_nil]

theorem count_flatten_chopReturn_le (c : Char) (ls : List (List Char)) :
    (ls.map chopReturn).flatten.count c ≤ ls.flatten.count c := by
  induction ls with
  | nil => exact Nat.le_refl _
  | cons line rest ih =>
    have hline := (chopReturn_sublist line).count_le c
    rw [List.map_cons, List.flatten_cons, List.flatten_cons, List.count_append, List.count_append]
    omega

theorem count_lines_le {c : Char} (hc : c ≠ '\n') (cs : List Char) :
    (lines cs).flatten.count c ≤ cs.count c := by
  obtain ⟨front, last, hpieces⟩ : ∃ front last, cs.splitOn '\n' = front ++ [last] :=
    ⟨_, _, (List.dropLast_append_getLast (List.splitOn_ne_nil _ _)).symm⟩
  have hcount := count_splitOn hc cs
  have hfront := count_flatten_chopReturn_le c front
  have hlast : ([last].filter fun last => !last.isEmpty).flatten.count c ≤ last.count c := by
    cases last <;> simp
  rw [hpieces, List.flatten_append, List.count_append, List.flatten_singleton] at hcount
  rw [lines, hpieces]
  simp only [List.dropLast_concat, List.getLast?_concat, Option.toList_some, List.flatten_append,
    List.count_append]
  omega

theorem length_lines_terminated (ls : List (List Char)) :
    (lines (ls.flatMap fun line => line ++ ['\n'])).length =
      (ls.flatMap fun line => line ++ ['\n']).count '\n' := by
  rcases List.eq_nil_or_concat ls with rfl | ⟨rest, line, rfl⟩
  · rfl
  · have htext : (rest ++ [line]).flatMap (fun line => line ++ ['\n']) =
        (rest.flatMap fun line => line ++ ['\n']) ++ line ++ ['\n'] := by
      rw [List.flatMap_append, List.flatMap_singleton, List.append_assoc]
    rw [List.concat_eq_append, htext, lines_concat_feed, List.length_map, length_splitOn,
      List.count_append, List.count_append, List.count_append, List.count_singleton_self]

theorem length_le_count_feeds (ls : List (List Char)) :
    ls.length ≤ (ls.flatMap fun line => line ++ ['\n']).count '\n' := by
  induction ls with
  | nil => exact Nat.zero_le _
  | cons line rest ih =>
    rw [List.flatMap_cons, List.count_append, List.count_append, List.count_singleton_self,
      List.length_cons]
    omega

/-- A text that has no more lines than were written has no line feed within them. -/
theorem not_mem_of_length_lines {ls : List (List Char)}
    (h : (lines (ls.flatMap fun line => line ++ ['\n'])).length = ls.length) :
    ∀ line ∈ ls, '\n' ∉ line := by
  rw [length_lines_terminated] at h
  induction ls with
  | nil => nofun
  | cons line rest ih =>
    have hrest := length_le_count_feeds rest
    rw [List.flatMap_cons, List.count_append, List.count_append, List.count_singleton_self,
      List.length_cons] at h
    have hline : line.count '\n' = 0 := by omega
    rw [List.forall_mem_cons]
    exact ⟨List.count_eq_zero.1 hline, ih (by omega)⟩

theorem IsLine.append {lead cs : List Char} (hlead : IsLine lead) (hcs : IsLine cs) :
    IsLine (lead ++ cs) := by
  refine ⟨?_, ?_⟩
  · rw [List.mem_append, not_or]
    exact ⟨hlead.one, hcs.one⟩
  · rw [List.getLast?_append]
    cases hlast : cs.getLast? with
    | none => exact hlead.unreturned
    | some c =>
      have hreturn := hcs.unreturned
      rwa [hlast] at hreturn

theorem isLine_of_forall {cs : List Char} (h : ∀ c ∈ cs, c ≠ '\n' ∧ c ≠ '\r') : IsLine cs :=
  ⟨fun hfeed => (h '\n' hfeed).1 rfl,
    fun hreturn => (h '\r' (List.mem_of_getLast? hreturn)).2 rfl⟩

/-! ## Lines as texts -/

def unlines (ls : List String) : String := String.join (ls.map (· ++ "\n"))

theorem unlines_append (ls ls' : List String) :
    unlines (ls ++ ls') = unlines ls ++ unlines ls' := by
  rw [unlines, List.map_append, String.join_append, unlines, unlines]

theorem unlines_cons (line : String) (ls : List String) :
    unlines (line :: ls) = line ++ "\n" ++ unlines ls := by
  rw [unlines, List.map_cons, String.join_cons, unlines]

theorem unlines_toList (ls : List String) :
    (unlines ls).toList = (ls.map String.toList).flatMap fun line => line ++ ['\n'] := by
  induction ls with
  | nil => rfl
  | cons line rest ih =>
    rw [unlines_cons, String.toList_append, String.toList_append, ih]
    rfl

theorem not_mem_unlines {c : Char} (hc : c ≠ '\n') {ls : List String}
    (h : ∀ line ∈ ls, c ∉ line.toList) : c ∉ (unlines ls).toList := by
  rw [unlines_toList, List.flatMap_map, List.mem_flatMap]
  rintro ⟨line, hline, hmem⟩
  rcases List.mem_append.1 hmem with hmem | hmem
  · exact h line hline hmem
  · exact hc (List.mem_singleton.1 hmem)

theorem unlines_inj {ls ls' : List String} (h : ∀ line ∈ ls, '\n' ∉ line.toList)
    (h' : ∀ line ∈ ls', '\n' ∉ line.toList) (hsame : unlines ls = unlines ls') : ls = ls' := by
  have hpieces := congrArg (fun text => text.toList.splitOn '\n') hsame
  simp only [unlines_toList] at hpieces
  rw [splitOn_terminated (List.forall_mem_map.2 h), splitOn_terminated (List.forall_mem_map.2 h')]
    at hpieces
  exact List.map_injective_iff.2 (fun _ _ => String.toList_inj.1)
    (List.append_cancel_right hpieces)

theorem lines_unlines_append {ls : List String} (h : ∀ line ∈ ls, IsLine line.toList)
    (rest : List Char) :
    lines ((unlines ls).toList ++ rest) = ls.map String.toList ++ lines rest := by
  induction ls with
  | nil => rfl
  | cons line others ih =>
    obtain ⟨hline, hothers⟩ := List.forall_mem_cons.1 h
    have hchars : (unlines (line :: others)).toList ++ rest =
        line.toList ++ '\n' :: ((unlines others).toList ++ rest) := by
      simp [unlines_cons]
    rw [hchars, lines_append_feed, List.splitOn_eq_singleton hline.one, List.map_singleton,
      chopReturn_eq_self_iff.2 hline.unreturned, ih hothers]
    rfl

end LuaGlue.Text

import LuaGlue.Path
import LuaGlue.Proofs.Text.Lines

/-!
# Paths and their parts

A path is its start and its parts, put together again. Paths that denote the same hold the same
characters, apart from slashes and dots. To see a path from one folder and the outcome from another
is to see it once, from the first folder as the other one sees it.
-/

namespace LuaGlue.Path

theorem sameAs_refl (p : Path) : p.sameAs p = true :=
  beq_self_eq_true p.components

theorem allSame_refl (paths : List Path) : allSame paths paths = true := by
  induction paths with
  | nil => rfl
  | cons path rest ih => rw [allSame, sameAs_refl, ih, Bool.and_self]

theorem length_eq_of_allSame {ps qs : List Path} (h : allSame ps qs = true) :
    ps.length = qs.length := by
  induction ps generalizing qs with
  | nil =>
    cases qs with
    | nil => rfl
    | cons q qs => cases h
  | cons p ps ih =>
    cases qs with
    | nil => cases h
    | cons q qs =>
      rw [allSame, Bool.and_eq_true] at h
      rw [List.length_cons, List.length_cons, ih h.2]

theorem allSame_map_iff {paths : List Path} {f : Path → Path} :
    allSame (paths.map f) paths = true ↔ ∀ path ∈ paths, (f path).sameAs path = true := by
  induction paths with
  | nil => simp [allSame]
  | cons path rest ih => rw [List.map_cons, allSame, Bool.and_eq_true, ih, List.forall_mem_cons]

theorem text_eq_intercalate (p : Path) :
    p.text.toList = ['/'].intercalate (p.text.toList.splitOn '/') :=
  (List.intercalate_splitOn '/').symm

theorem ofParts_split (p : Path) : ofParts p.split.1 p.split.2 = p := by
  have htext := p.text_eq_intercalate
  have hne := List.splitOn_ne_nil '/' p.text.toList
  obtain ⟨text⟩ := p
  unfold split
  split
  · next hnone => exact absurd hnone hne
  · next part parts hpieces =>
    rw [hpieces, List.intercalate_cons_cons, List.nil_append, List.singleton_append] at htext
    change (⟨String.ofList ('/' :: ['/'].intercalate (part :: parts))⟩ : Path) = ⟨text⟩
    rw [← htext, String.ofList_toList]
  · next parts hpieces =>
    rw [hpieces] at htext
    cases parts with
    | nil =>
      rw [List.intercalate_singleton] at htext
      rw [← String.ofList_toList (s := text), htext]
      rfl
    | cons part parts =>
      rw [List.intercalate_cons_cons] at htext
      change (⟨String.ofList ('.' :: '/' :: ['/'].intercalate (part :: parts))⟩ : Path) = ⟨text⟩
      rw [← String.ofList_toList (s := text), htext]
      rfl
  · change (⟨String.ofList (['/'].intercalate (text.toList.splitOn '/'))⟩ : Path) = ⟨text⟩
    rw [← htext, String.ofList_toList]

/-! ## Paths seen from folders -/

theorem isAbsolute_iff {p : Path} : p.isAbsolute = true ↔ p.text.toList.head? = some '/' :=
  beq_iff_eq

theorem join_of_isAbsolute (p : Path) {q : Path} (h : q.isAbsolute = true) : p.join q = q :=
  if_pos h

/-- The slash that is put behind a text before a name follows, if one is needed. -/
def slashAfter (text : List Char) : List Char :=
  if text.getLast? = none ∨ text.getLast? = some '/' then [] else ['/']

theorem toList_join (p : Path) {q : Path} (h : q.isAbsolute = false) :
    (p.join q).text.toList =
      p.text.toList ++ (slashAfter p.text.toList ++ q.text.toList) := by
  have hempty : p.text.isEmpty = true ↔ p.text.toList.getLast? = none := by
    rw [String.isEmpty_iff, List.getLast?_eq_none_iff, String.toList_eq_nil_iff]
  have hbare : (p.text.isEmpty || p.text.toList.getLast? == some '/') = true ↔
      p.text.toList.getLast? = none ∨ p.text.toList.getLast? = some '/' := by
    rw [Bool.or_eq_true, hempty, beq_iff_eq]
  unfold join slashAfter
  rw [if_neg (by simp [h])]
  by_cases hslash : p.text.toList.getLast? = none ∨ p.text.toList.getLast? = some '/'
  · rw [if_pos (hbare.2 hslash), if_pos hslash, String.toList_append, List.nil_append]
  · rw [if_neg (hbare.not.2 hslash), if_neg hslash, String.toList_append, String.toList_append,
      List.append_assoc]
    rfl

theorem append_slashAfter (text : List Char) :
    text ++ slashAfter text = [] ∨ ∃ above, text ++ slashAfter text = above ++ ['/'] := by
  unfold slashAfter
  split_ifs with hslash
  · rw [List.append_nil, ← List.getLast?_eq_none_iff]
    exact hslash.imp_right List.getLast?_eq_some_iff.1
  · exact Or.inr ⟨text, rfl⟩

/-- Behind a text and its slash, a text needs the slash that it needs alone, also if it is empty. -/
theorem slashAfter_append (front back : List Char) :
    slashAfter (front ++ (slashAfter front ++ back)) = slashAfter back := by
  rw [← List.append_assoc]
  cases back with
  | nil =>
    rw [List.append_nil]
    rcases append_slashAfter front with hempty | ⟨above, habove⟩
    · rw [hempty]
    · rw [habove, slashAfter, List.getLast?_concat]
      rfl
  | cons c rest =>
    rw [slashAfter, List.getLast?_append_of_ne_nil _ (List.cons_ne_nil c rest), slashAfter]

theorem isAbsolute_join {p : Path} (hp : p.isAbsolute = true) (q : Path) :
    (p.join q).isAbsolute = true := by
  cases hq : q.isAbsolute with
  | true => rwa [join_of_isAbsolute p hq]
  | false =>
    rw [isAbsolute_iff, toList_join p hq, List.head?_append, isAbsolute_iff.1 hp, Option.some_or]

theorem isAbsolute_join_eq_false {p q : Path} (hp : p.isAbsolute = false)
    (hq : q.isAbsolute = false) : (p.join q).isAbsolute = false := by
  unfold isAbsolute at *
  rw [toList_join p hq]
  cases htext : p.text.toList with
  | nil => exact hq
  | cons c rest =>
    rw [htext] at hp
    exact hp

theorem join_assoc (outer base p : Path) :
    outer.join (base.join p) = (outer.join base).join p := by
  cases hp : p.isAbsolute with
  | true => rw [join_of_isAbsolute base hp, join_of_isAbsolute _ hp, join_of_isAbsolute _ hp]
  | false =>
    cases hbase : base.isAbsolute with
    | true =>
      rw [join_of_isAbsolute outer hbase, join_of_isAbsolute outer (isAbsolute_join hbase p)]
    | false =>
      have htext : (outer.join (base.join p)).text.toList =
          ((outer.join base).join p).text.toList := by
        rw [toList_join outer (isAbsolute_join_eq_false hbase hp), toList_join base hp,
          toList_join _ hp, toList_join outer hbase, slashAfter_append]
        simp only [List.append_assoc]
      exact congrArg Path.mk (String.toList_inj.1 htext)

/-- An empty path in a folder is the folder with a slash behind it. -/
example : (⟨"out"⟩ : Path).join ((⟨"gen"⟩ : Path).join ⟨""⟩) = ⟨"out/gen/"⟩ := by decide +kernel

/-! ## File names -/

structure IsFileName (name : String) : Prop where
  nonempty : name ≠ ""
  flat : '/' ∉ name.toList
  not_here : name ≠ "."
  not_parent : name ≠ ".."

theorem IsFileName.isIdle_eq_false {name : String} (h : IsFileName name) :
    isIdle name.toList = false := by
  have hempty : name.toList ≠ [] := fun hnil => h.nonempty (String.toList_inj.1 hnil)
  have hhere : name.toList ≠ ['.'] := fun hdot => h.not_here (String.toList_inj.1 hdot)
  simp [isIdle, hempty, hhere]

theorem getLast?_split {p : Path} {front : List (List Char)} {last : List Char}
    (hparts : p.text.toList.splitOn '/' = front ++ [last]) (hidle : isIdle last = false) :
    p.split.2.getLast? = some last := by
  have hlast : (p.text.toList.splitOn '/').getLast? = some last := by
    rw [hparts, List.getLast?_concat]
  unfold split
  split
  · next hnone =>
    rw [hnone] at hlast
    cases hlast
  · next part parts hpieces => rwa [hpieces, List.getLast?_cons_cons] at hlast
  · next parts hpieces =>
    rw [hpieces] at hlast
    cases parts with
    | nil =>
      cases hlast
      cases hidle
    | cons part parts => rwa [List.getLast?_cons_cons] at hlast
  · exact hlast

theorem fileName_of_parts {p : Path} {name : String} (hname : IsFileName name)
    (front : List (List Char))
    (hparts : p.text.toList.splitOn '/' = front ++ [name.toList]) : p.fileName = name := by
  have hparent : name.toList ≠ ['.', '.'] := fun hup => hname.not_parent (String.toList_inj.1 hup)
  have hcomponent : component? name.toList = some (.name name) := by
    unfold component?
    rw [if_neg (by simp [hname.isIdle_eq_false]), if_neg hparent, String.ofList_toList]
  obtain ⟨before, hsplit⟩ :=
    List.getLast?_eq_some_iff.1 (getLast?_split hparts hname.isIdle_eq_false)
  unfold fileName fileName? components
  rw [hsplit, List.filterMap_append, List.filterMap_cons, hcomponent, ← List.append_assoc,
    List.filterMap_nil, List.getLast?_concat]
  rfl

theorem fileName_join (folder : Path) {name : String} (hname : IsFileName name) :
    (folder.join ⟨name⟩).fileName = name := by
  have hrelative : (⟨name⟩ : Path).isAbsolute = false := by
    rw [isAbsolute, beq_eq_false_iff_ne]
    exact fun hhead => hname.flat (List.mem_of_head? hhead)
  have hflat : name.toList.splitOn '/' = [name.toList] := List.splitOn_eq_singleton hname.flat
  rcases append_slashAfter folder.text.toList with hempty | ⟨above, habove⟩
  · apply fileName_of_parts hname []
    rw [toList_join folder hrelative, ← List.append_assoc, hempty, List.nil_append, hflat,
      List.nil_append]
  · apply fileName_of_parts hname (above.splitOn '/')
    rw [toList_join folder hrelative, ← List.append_assoc, habove, List.append_assoc,
      List.singleton_append, List.splitOn_append_cons_self, hflat]

/-! ## The characters of a path -/

section Count

variable {c : Char}

/-- The characters of a component. Those of the start and of two dots do not count. -/
def Component.chars : Component → List Char
  | .name text => text.toList
  | _ => []

/-- The slash of the root and the first dot are all that the start takes from the parts. -/
theorem count_split (hdot : c ≠ '.') (p : Path) :
    p.split.2.flatten.count c = (p.text.toList.splitOn '/').flatten.count c := by
  unfold split
  split
  · next hpieces => rw [hpieces]
  · next hpieces =>
    rw [hpieces]
    simp
  · next hpieces =>
    rw [hpieces]
    simp [hdot.symm]
  · rfl

theorem count_component? (hdot : c ≠ '.') (part : List Char) :
    ((component? part).toList.flatMap Component.chars).count c = part.count c := by
  unfold component?
  split_ifs with hidle hup
  · rw [isIdle, Bool.or_eq_true, beq_iff_eq, beq_iff_eq] at hidle
    rcases hidle with rfl | rfl <;> simp [hdot.symm]
  · rw [hup]
    simp [Component.chars, hdot.symm]
  · simp [Component.chars]

theorem count_filterMap_component? (hdot : c ≠ '.') (parts : List (List Char)) :
    ((parts.filterMap component?).flatMap Component.chars).count c = parts.flatten.count c := by
  induction parts with
  | nil => rfl
  | cons part rest ih =>
    have hpart := count_component? hdot part
    rw [List.flatten_cons, List.count_append, ← hpart, ← ih, List.filterMap_cons]
    cases component? part with
    | none => simp
    | some component => simp

/-- All characters of a path but slashes and dots stand in its components. -/
theorem count_components (hslash : c ≠ '/') (hdot : c ≠ '.') (p : Path) :
    (p.components.flatMap Component.chars).count c = p.text.toList.count c := by
  have hstart : p.split.1.components.flatMap Component.chars = [] := by
    cases p.split.1 <;> rfl
  rw [components, List.flatMap_append, hstart, List.nil_append, count_filterMap_component? hdot,
    count_split hdot, Text.count_splitOn hslash]

/-- Paths that denote the same hold every character equally often, unless it is a slash or a dot. -/
theorem count_eq_of_sameAs (hslash : c ≠ '/') (hdot : c ≠ '.') {p q : Path}
    (h : p.sameAs q = true) : p.text.toList.count c = q.text.toList.count c := by
  rw [← count_components hslash hdot, ← count_components hslash hdot, beq_iff_eq.1 h]

end Count

end LuaGlue.Path

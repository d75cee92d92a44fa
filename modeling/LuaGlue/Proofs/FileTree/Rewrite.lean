import LuaGlue.Proofs.FileTree.Change
import LuaGlue.Proofs.Path

/-!
# Writing a file again

The way to a file that can be read leads through folders only, and the folder that holds it is a
front part of its path. So nothing has to be made to write the file again, and nothing can go wrong.
-/

namespace LuaGlue

namespace Path

def IsFront (q p : Path) : Prop := ∃ rest, p.text.toList = q.text.toList ++ '/' :: rest

theorem intercalate_append {front back : List (List Char)} (hfront : front ≠ [])
    (hback : back ≠ []) :
    ['/'].intercalate (front ++ back) =
      ['/'].intercalate front ++ '/' :: ['/'].intercalate back := by
  induction front with
  | nil => exact absurd rfl hfront
  | cons part front ih =>
    cases front with
    | nil =>
      rw [List.singleton_append, List.intercalate_cons_of_ne_nil hback, List.intercalate_singleton,
        List.append_assoc, List.singleton_append]
    | cons next front =>
      rw [List.cons_append, List.cons_append, List.intercalate_cons_cons,
        List.intercalate_cons_cons, ← List.cons_append, ih (List.cons_ne_nil _ _)]
      simp only [List.append_assoc]

theorem isFront_ofParts {start : Start} {front back : List (List Char)} (hfront : front ≠ [])
    (hback : back ≠ []) : IsFront (ofParts start front) (ofParts start (front ++ back)) := by
  refine ⟨['/'].intercalate back, ?_⟩
  have hbody := intercalate_append hfront hback
  have hwhole : front ++ back ≠ [] := by simp [hfront]
  unfold ofParts
  cases start <;> simp [hbody, hfront, hwhole]

/-- Of the paths above parts, those that are not the root are front parts of every path that goes on
behind these parts. -/
theorem front_of_mem_lineageOf {start : Start} {reversed back : List (List Char)} {q : Path}
    (hback : back ≠ []) (h : q ∈ lineageOf start reversed) :
    q = ⟨""⟩ ∨ q = ⟨"/"⟩ ∨ q.IsFront (ofParts start (reversed.reverse ++ back)) := by
  -- a part that is left off at the end comes to stand in front of what goes on behind
  induction reversed generalizing back with
  | nil =>
    cases start with
    | root => exact Or.inr (Or.inl (List.mem_singleton.1 h))
    | relative => exact Or.inl (List.mem_singleton.1 h)
    | here =>
      rw [lineageOf, List.mem_cons, List.mem_singleton] at h
      rcases h with rfl | rfl
      · refine Or.inr (Or.inr ⟨['/'].intercalate back, ?_⟩)
        simp [ofParts, hback]
      · exact Or.inl rfl
  | cons part parts ih =>
    have hmore : part :: back ≠ [] := List.cons_ne_nil _ _
    have hparts : (part :: parts).reverse ++ back = parts.reverse ++ part :: back := by simp
    rw [lineageOf] at h
    rw [hparts]
    split_ifs at h
    · exact ih hmore h
    · rcases List.mem_cons.1 h with rfl | habove
      · rw [← hparts]
        exact Or.inr (Or.inr (isFront_ofParts (by simp) hback))
      · exact ih hmore habove

theorem front_of_mem_tail_lineageOf {start : Start} {reversed : List (List Char)} {q : Path}
    (h : q ∈ (lineageOf start reversed).tail) (back : List (List Char)) :
    q = ⟨""⟩ ∨ q = ⟨"/"⟩ ∨ q.IsFront (ofParts start (reversed.reverse ++ back)) := by
  induction reversed generalizing back with
  | nil =>
    cases start with
    | root => cases h
    | relative => cases h
    | here => exact Or.inl (List.mem_singleton.1 h)
  | cons part parts ih =>
    have hparts : (part :: parts).reverse ++ back = parts.reverse ++ part :: back := by simp
    rw [lineageOf] at h
    rw [hparts]
    split_ifs at h
    · exact ih h _
    · exact front_of_mem_lineageOf (List.cons_ne_nil _ _) h

/-- A path goes on behind its parent, unless that is empty or the root. -/
theorem front_of_parent? {p above : Path} (h : p.parent? = some above) :
    above = ⟨""⟩ ∨ above = ⟨"/"⟩ ∨ above.IsFront p := by
  have hmem : above ∈ (lineageOf p.split.1 p.split.2.reverse).tail := by
    apply List.mem_of_getElem? (i := 0)
    rw [List.getElem?_tail]
    exact h
  have hfront := front_of_mem_tail_lineageOf hmem []
  rwa [List.append_nil, List.reverse_reverse, ofParts_split] at hfront

end Path

namespace FileTree

/-! ## Front parts -/

theorem walk_append (t : FileTree) (location : Location) (front back : List String) :
    t.walk location (front ++ back) =
      (t.walk location front).bind fun reached => t.walk reached back := by
  induction front generalizing location with
  | nil => rfl
  | cons part front ih =>
    rw [List.cons_append, walk, walk]
    split
    · rfl
    · rfl
    · split_ifs
      · exact ih _
      · exact ih _
      · rfl
      · exact ih _

theorem folder_of_walk_cons {t : FileTree} {location reached : Location} {part : String}
    {parts : List String} (h : t.walk location (part :: parts) = .ok reached) :
    t.entry? location = some .folder := by
  rw [walk] at h
  split at h
  · cases h
  · cases h
  · assumption

theorem follow_front {t : FileTree} {p q : Path} {location : Location} (hfront : q.IsFront p)
    (hnonempty : q.text.toList ≠ []) (h : t.follow p = .ok location) :
    ∃ reached, t.follow q = .ok reached ∧ t.entry? reached = some .folder := by
  obtain ⟨rest, htext⟩ := hfront
  have habs : q.isAbsolute = p.isAbsolute := by
    obtain ⟨c, cs, hcons⟩ := List.exists_cons_of_ne_nil hnonempty
    unfold Path.isAbsolute
    rw [htext, hcons]
    rfl
  obtain ⟨part, parts, hrest⟩ := List.exists_cons_of_ne_nil (List.splitOn_ne_nil '/' rest)
  unfold follow at h ⊢
  rw [habs]
  dsimp only at h ⊢
  rw [htext, List.splitOn_append_cons_self, List.map_append, walk_append, hrest] at h
  cases hwalk : t.walk (if p.isAbsolute = true then [] else t.workFolder)
      ((q.text.toList.splitOn '/').map String.ofList) with
  | error fault =>
    rw [hwalk] at h
    cases h
  | ok reached =>
    rw [hwalk] at h
    exact ⟨reached, rfl, folder_of_walk_cons h⟩

theorem textFault?_front {p q : Path} (hfront : q.IsFront p) (hnonempty : q.text ≠ "")
    (h : textFault? p = none) : textFault? q = none := by
  obtain ⟨rest, htext⟩ := hfront
  have hwhole : p.text = q.text ++ String.ofList ('/' :: rest) := by
    rw [← String.toList_inj, htext, String.toList_append, String.toList_ofList]
  have hsize : q.text.utf8ByteSize ≤ p.text.utf8ByteSize := by
    rw [hwhole, String.utf8ByteSize_append]
    exact Nat.le_add_right _ _
  unfold textFault? at h ⊢
  split_ifs at h with hzero hempty hlong
  have hzero' : '\x00' ∉ q.text.toList := by
    intro hmem
    apply hzero
    rw [htext]
    exact List.mem_append_left _ hmem
  rw [if_neg hzero', if_neg (by simpa using hnonempty), if_neg (by omega)]

theorem isFront_bare {p q : Path} (hfront : q.IsFront p) : (bare q).IsFront p := by
  obtain ⟨rest, htext⟩ := hfront
  obtain ⟨n, hbare⟩ := toList_bare q
  rw [hbare] at htext
  cases n with
  | zero => exact ⟨rest, by rw [htext, List.replicate_zero, List.append_nil]⟩
  | succ n =>
    refine ⟨List.replicate n '/' ++ '/' :: rest, ?_⟩
    rw [htext, List.replicate_succ, List.append_assoc, List.cons_append]

/-! ## The folder that holds a file -/

structure HasFolder (t : FileTree) (p : Path) : Prop where
  taken : t.makeFolder p = .error .taken
  isFolder : t.isFolder p = true

theorem hasFolder_root (t : FileTree) : t.HasFolder ⟨"/"⟩ :=
  ⟨rfl, rfl⟩

theorem hasFolder_front {t : FileTree} {p q : Path} {location : Location} (hfront : q.IsFront p)
    (hnonempty : q.text ≠ "") (h : t.locate p = .ok location) : t.HasFolder q := by
  unfold locate at h
  split at h
  · cases h
  · next hfault =>
    have hchars : q.text.toList ≠ [] := fun hnil => hnonempty (String.toList_inj.1 hnil)
    have htext := textFault?_front hfront hnonempty hfault
    obtain ⟨reached, hfollow, hfolder⟩ := follow_front hfront hchars h
    obtain ⟨reached', hfollow', hfolder'⟩ :=
      follow_front (isFront_bare hfront) (bare_nonempty hnonempty) h
    constructor
    · simp only [makeFolder, htext, hfollow', hfolder']
    · simp [isFolder, at?, locate, htext, hfollow, hfolder]

theorem HasFolder.makeFolders_eq {t : FileTree} {p : Path} (h : t.HasFolder p) :
    t.makeFolders p = (t, none) := by
  unfold makeFolders Path.ancestors
  by_cases hempty : p.text = ""
  · obtain rfl : p = ⟨""⟩ := congrArg Path.mk hempty
    rfl
  · rw [List.filter_cons_of_pos (by simpa using hempty), makeFoldersOf, h.taken]
    simp [h.isFolder]

theorem makeFolders_parent {t : FileTree} {p above : Path} {location : Location}
    (hparent : p.parent? = some above) (h : t.locate p = .ok location) :
    t.makeFolders above = (t, none) := by
  by_cases hempty : above = ⟨""⟩
  · rw [hempty]
    rfl
  · have hnonempty : above.text ≠ "" := fun htext => hempty (congrArg Path.mk htext)
    rcases Path.front_of_parent? hparent with hnone | rfl | hfront
    · exact absurd hnone hempty
    · exact t.hasFolder_root.makeFolders_eq
    · exact (hasFolder_front hfront hnonempty h).makeFolders_eq

/-- A file that can be read can be written, and nothing else changes. -/
theorem save_of_read {t : FileTree} {p : Path} {content : ByteArray}
    (h : t.read p = .ok content) (new : ByteArray) :
    t.save p new = (t.insert (t.place p) (.file new), none) := by
  obtain ⟨hlocate, hentry⟩ := read_eq_ok_iff.1 h
  have hfree : t.entry? (t.place p) ≠ some .folder := by
    rw [hentry]
    exact nofun
  have hwrite : t.write p new = .ok (t.insert (t.place p) (.file new)) :=
    write_eq_ok_iff.2 ⟨hlocate, hfree, rfl⟩
  have hwritten : t.writeOrLose p new = (t.insert (t.place p) (.file new), none) := by
    rw [writeOrLose, hwrite]
  unfold save
  cases hparent : p.parent? with
  | none => exact hwritten
  | some above =>
    dsimp only
    rw [makeFolders_parent hparent hlocate]
    exact hwritten

end FileTree

end LuaGlue

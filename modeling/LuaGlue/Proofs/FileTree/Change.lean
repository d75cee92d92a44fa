import LuaGlue.Proofs.FileTree.Place

/-!
# What saving a file changes

A change of a tree is described by the places of the files that it may write and of the folders that
it may make. Saving a file makes missing folders above it and, if it succeeds, writes the file,
which can then be read back; all else stays as it was.
-/

namespace LuaGlue.FileTree

def foldersAbove (p : Path) : List Path := (p.parent?.map Path.ancestors).getD []

/-- The second tree is the first one with at most the given files written and at most the given
folders made where nothing stood. -/
structure Change (files folders : List Location) (t t' : FileTree) : Prop where
  workFolder : t'.workFolder = t.workFolder
  entry : ∀ location,
    t'.entry? location = t.entry? location ∨
    (location ∈ folders ∧ t.entry? location = none ∧ t'.entry? location = some .folder) ∨
    (location ∈ files ∧ t.entry? location ≠ some .folder ∧
      ∃ content, t'.entry? location = some (.file content))

namespace Change

variable {files files' folders folders' : List Location} {t t' t'' : FileTree}

theorem refl (t : FileTree) : Change files folders t t :=
  ⟨rfl, fun _ => Or.inl rfl⟩

theorem mono (h : Change files folders t t') (hfiles : files ⊆ files')
    (hfolders : folders ⊆ folders') : Change files' folders' t t' := by
  refine ⟨h.workFolder, fun location => ?_⟩
  rcases h.entry location with same | ⟨hmem, made⟩ | ⟨hmem, written⟩
  · exact Or.inl same
  · exact Or.inr (Or.inl ⟨hfolders hmem, made⟩)
  · exact Or.inr (Or.inr ⟨hfiles hmem, written⟩)

theorem folder (h : Change files folders t t') {location : Location}
    (hfolder : t.entry? location = some .folder) : t'.entry? location = some .folder := by
  rcases h.entry location with same | ⟨-, missing, -⟩ | ⟨-, notFolder, -⟩
  · rw [same, hfolder]
  · rw [hfolder] at missing
    cases missing
  · exact absurd hfolder notFolder

theorem file (h : Change files folders t t') {location : Location} {content : ByteArray}
    (hfiles : location ∉ files) (hfile : t.entry? location = some (.file content)) :
    t'.entry? location = some (.file content) := by
  rcases h.entry location with same | ⟨-, missing, -⟩ | ⟨hmem, -⟩
  · rw [same, hfile]
  · rw [hfile] at missing
    cases missing
  · exact absurd hmem hfiles

theorem trans (h : Change files folders t t') (h' : Change files folders t' t'') :
    Change files folders t t'' := by
  refine ⟨h'.workFolder.trans h.workFolder, fun location => ?_⟩
  rcases h'.entry location with same | ⟨hmem, missing, made⟩ | ⟨hmem, notFolder, written⟩
  · rw [same]
    exact h.entry location
  · rcases h.entry location with before | ⟨-, -, before⟩ | ⟨-, -, content, before⟩
    · exact Or.inr (Or.inl ⟨hmem, before ▸ missing, made⟩)
    · rw [before] at missing
      cases missing
    · rw [before] at missing
      cases missing
  · refine Or.inr (Or.inr ⟨hmem, fun hfolder => ?_, written⟩)
    exact notFolder (h.folder hfolder)

theorem place_eq (h : Change files folders t t') (p : Path) : t'.place p = t.place p :=
  place_congr h.workFolder p

theorem walk_eq_ok (h : Change files folders t t') {location reached : Location}
    {parts : List String} (hwalk : t.walk location parts = .ok reached) :
    t'.walk location parts = .ok reached := by
  induction parts generalizing location with
  | nil => exact hwalk
  | cons part parts ih =>
    rw [walk] at hwalk ⊢
    split at hwalk
    · cases hwalk
    · cases hwalk
    · next hfolder =>
      rw [h.folder hfolder]
      split_ifs at hwalk ⊢ with idle up long
      · exact ih hwalk
      · exact ih hwalk
      · exact ih hwalk

theorem locate_eq_ok (h : Change files folders t t') {p : Path} {location : Location}
    (hlocate : t.locate p = .ok location) : t'.locate p = .ok location := by
  unfold locate follow at hlocate ⊢
  cases hfault : textFault? p with
  | some fault =>
    rw [hfault] at hlocate
    cases hlocate
  | none =>
    rw [hfault] at hlocate
    rw [h.workFolder]
    exact h.walk_eq_ok hlocate

end Change

/-! ## Single steps -/

theorem read_eq_ok_iff {t : FileTree} {p : Path} {content : ByteArray} :
    t.read p = .ok content ↔
      t.locate p = .ok (t.place p) ∧ t.entry? (t.place p) = some (.file content) := by
  unfold read
  cases hlocate : t.locate p with
  | error fault => simp
  | ok location =>
    obtain rfl := FileTree.locate_eq_ok hlocate
    cases hentry : t.entry? (t.place p) with
    | none => simp [hentry]
    | some e => cases e <;> simp [hentry]

theorem Change.read_eq_ok {files folders : List Location} {t t' : FileTree}
    (h : Change files folders t t') {p : Path} {content : ByteArray}
    (hplace : t.place p ∉ files) (hread : t.read p = .ok content) : t'.read p = .ok content := by
  rw [read_eq_ok_iff] at hread ⊢
  rw [h.place_eq]
  exact ⟨h.locate_eq_ok hread.1, h.file hplace hread.2⟩

theorem insert_apply {t : FileTree} {location : Location} (hne : location ≠ []) (e : Entry)
    (other : Location) :
    entry? (t.insert location e) other = if other = location then some e else t.entry? other := by
  unfold entry? insert
  by_cases hroot : other = []
  · rw [if_pos hroot, if_pos hroot, if_neg]
    rw [hroot]
    exact hne.symm
  · rw [if_neg hroot, if_neg hroot, OrderedMap.get?_put]

private theorem ne_root_of_not_folder {t : FileTree} {location : Location}
    (h : t.entry? location ≠ some .folder) : location ≠ [] := by
  rintro rfl
  exact h rfl

theorem change_insert_file {t : FileTree} {location : Location} {content : ByteArray}
    (hfree : t.entry? location ≠ some .folder) :
    Change [location] [] t (t.insert location (.file content)) := by
  refine ⟨rfl, fun other => ?_⟩
  rw [insert_apply (ne_root_of_not_folder hfree)]
  by_cases hother : other = location
  · rw [if_pos hother, hother]
    exact Or.inr (Or.inr ⟨by simp, hfree, content, rfl⟩)
  · rw [if_neg hother]
    exact Or.inl rfl

theorem change_insert_folder {t : FileTree} {location : Location}
    (hmissing : t.entry? location = none) :
    Change [] [location] t (t.insert location .folder) := by
  have hfree : t.entry? location ≠ some .folder := by
    rw [hmissing]
    exact nofun
  refine ⟨rfl, fun other => ?_⟩
  rw [insert_apply (ne_root_of_not_folder hfree)]
  by_cases hother : other = location
  · rw [if_pos hother, hother]
    exact Or.inr (Or.inl ⟨by simp, hmissing, rfl⟩)
  · rw [if_neg hother]
    exact Or.inl rfl

theorem write_eq_ok_iff {t t' : FileTree} {p : Path} {content : ByteArray} :
    t.write p content = .ok t' ↔
      t.locate p = .ok (t.place p) ∧ t.entry? (t.place p) ≠ some .folder ∧
        t' = t.insert (t.place p) (.file content) := by
  unfold write
  cases hlocate : t.locate p with
  | error fault => simp
  | ok location =>
    obtain rfl := FileTree.locate_eq_ok hlocate
    cases hentry : t.entry? (t.place p) with
    | none => simp [hentry, eq_comm]
    | some e => cases e <;> simp [hentry, eq_comm]

theorem write_eq_ok {t t' : FileTree} {p : Path} {content : ByteArray}
    (h : t.write p content = .ok t') :
    Change [t.place p] [] t t' ∧ t'.read p = .ok content := by
  obtain ⟨hlocate, hfree, rfl⟩ := write_eq_ok_iff.1 h
  have hchange : Change [t.place p] [] t (t.insert (t.place p) (.file content)) :=
    change_insert_file hfree
  refine ⟨hchange, read_eq_ok_iff.2 ?_⟩
  rw [hchange.place_eq]
  refine ⟨hchange.locate_eq_ok hlocate, ?_⟩
  rw [insert_apply (ne_root_of_not_folder hfree), if_pos rfl]

theorem makeFolder_eq_ok {t t' : FileTree} {p : Path} (h : t.makeFolder p = .ok t') :
    Change [] [t.place p] t t' := by
  unfold makeFolder at h
  split at h
  · cases h
  · split at h
    · cases h
    · next location hfollow =>
      have hplace : location = t.place p := by
        rw [follow_eq_ok hfollow, place_bare]
      split at h
      · cases h
      · next hmissing =>
        cases h
        rw [← hplace]
        exact change_insert_folder hmissing

/-! ## Folders and files -/

/-- Making folders makes some of them, whether or not it succeeds. -/
theorem makeFoldersOf_change (t : FileTree) (ps : List Path) :
    Change [] (ps.map t.place) t (t.makeFoldersOf ps).1 := by
  induction ps with
  | nil => exact Change.refl t
  | cons p above ih =>
    have habove : Change [] ((p :: above).map t.place) t (t.makeFoldersOf above).1 :=
      ih.mono (List.Subset.refl _) (by simp)
    rw [makeFoldersOf]
    split
    · next made hmade =>
      exact (makeFolder_eq_ok hmade).mono (List.Subset.refl _) (by simp)
    · split
      · next made fault hmade =>
        rwa [hmade] at habove
      · next made hmade =>
        rw [hmade] at habove
        split
        · next all hall =>
          have hlast := makeFolder_eq_ok hall
          rw [habove.place_eq] at hlast
          exact habove.trans (hlast.mono (List.Subset.refl _) (by simp))
        · exact habove
    · exact Change.refl t

theorem writeOrLose_cases (t : FileTree) (p : Path) (content : ByteArray) :
    (∃ written, t.write p content = .ok written ∧ t.writeOrLose p content = (written, none)) ∨
      ∃ lost, t.writeOrLose p content = (t, some lost) := by
  unfold writeOrLose
  cases t.write p content with
  | ok written => exact Or.inl ⟨written, rfl, rfl⟩
  | error fault => exact Or.inr ⟨p, rfl⟩

theorem save_cases (t : FileTree) (p : Path) (content : ByteArray) :
    ∃ made, Change [] ((foldersAbove p).map t.place) t made ∧
      ((∃ written, made.write p content = .ok written ∧ t.save p content = (written, none)) ∨
        ∃ lost, t.save p content = (made, some lost)) := by
  unfold save foldersAbove
  cases p.parent? with
  | none => exact ⟨t, Change.refl t, writeOrLose_cases t p content⟩
  | some above =>
    have hmake := makeFoldersOf_change t above.ancestors
    change ∃ made, Change [] (above.ancestors.map t.place) t made ∧ _
    simp only [makeFolders]
    cases hmade : t.makeFoldersOf above.ancestors with
    | mk made fault? =>
      rw [hmade] at hmake
      refine ⟨made, hmake, ?_⟩
      cases fault? with
      | none => exact writeOrLose_cases made p content
      | some fault => exact Or.inr ⟨above, rfl⟩

/-- A saved file can be read back, and nothing else changed but missing folders above it. -/
theorem save_eq_none {t : FileTree} {p : Path} {content : ByteArray}
    (h : (t.save p content).2 = none) :
    Change [t.place p] ((foldersAbove p).map t.place) t (t.save p content).1 ∧
      (t.save p content).1.read p = .ok content := by
  obtain ⟨made, hmade, ⟨written, hwrite, hsave⟩ | ⟨lost, hsave⟩⟩ := save_cases t p content
  · obtain ⟨hlast, hread⟩ := write_eq_ok hwrite
    rw [hmade.place_eq] at hlast
    rw [hsave]
    refine ⟨(hmade.mono (by simp) (List.Subset.refl _)).trans ?_, hread⟩
    exact hlast.mono (List.Subset.refl _) (by simp)
  · rw [hsave] at h
    cases h

theorem writeOrLose_eq_some {t : FileTree} {p lost : Path} {content : ByteArray}
    (h : (t.writeOrLose p content).2 = some lost) : lost = p := by
  unfold writeOrLose at h
  cases hwrite : t.write p content with
  | ok written =>
    rw [hwrite] at h
    cases h
  | error fault =>
    rw [hwrite] at h
    exact (Option.some.inj h).symm

/-- What saving loses is the file or the folder that holds it, and then no file is written. -/
theorem save_eq_some {t : FileTree} {p lost : Path} {content : ByteArray}
    (h : (t.save p content).2 = some lost) :
    (lost = p ∨ p.parent? = some lost) ∧
      Change [] ((foldersAbove p).map t.place) t (t.save p content).1 := by
  refine ⟨?_, ?_⟩
  · unfold save at h
    cases hparent : p.parent? with
    | none =>
      rw [hparent] at h
      exact Or.inl (writeOrLose_eq_some h)
    | some above =>
      rw [hparent] at h
      dsimp only at h
      split at h
      · exact Or.inl (writeOrLose_eq_some h)
      · exact Or.inr h
  · obtain ⟨made, hmade, ⟨written, hwrite, hsave⟩ | ⟨lost', hsave⟩⟩ := save_cases t p content
    · rw [hsave] at h
      cases h
    · rw [hsave]
      exact hmade

/-! ## The contents of files -/

def fileAt? (t : FileTree) (location : Location) : Option ByteArray :=
  match t.entry? location with
  | some (.file content) => some content
  | _ => none

/-- All files but the given ones hold what they held, and no others have come or gone. -/
def KeepsFiles (others : List Location) (t t' : FileTree) : Prop :=
  ∀ location, location ∉ others → t'.fileAt? location = t.fileAt? location

theorem Change.keepsFiles {files folders : List Location} {t t' : FileTree}
    (h : Change files folders t t') : KeepsFiles files t t' := by
  intro location hlocation
  unfold fileAt?
  rcases h.entry location with same | ⟨-, missing, made⟩ | ⟨hmem, -⟩
  · rw [same]
  · rw [missing, made]
  · exact absurd hmem hlocation

end LuaGlue.FileTree

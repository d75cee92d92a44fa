import LuaGlue.Proofs.FileTree.Alike

/-!
# Saving other contents

Whether a file can be saved, and which folders are made for it, does not depend on what is saved.
Trees in which the same files were saved differ at most in the bytes of these files.
-/

namespace LuaGlue.FileTree

structure DifferAt (files : List Location) (t t' : FileTree) : Prop where
  workFolder : t'.workFolder = t.workFolder
  entry : ∀ location, t'.entry? location = t.entry? location ∨
    (location ∈ files ∧ (t.fileAt? location).isSome ∧ (t'.fileAt? location).isSome)

theorem fileAt?_of_entry? {t : FileTree} {location : Location} {content : ByteArray}
    (h : t.entry? location = some (.file content)) : t.fileAt? location = some content := by
  rw [fileAt?, h]

namespace DifferAt

variable {files files' : List Location} {t t' t'' : FileTree}

theorem refl (t : FileTree) : DifferAt files t t := ⟨rfl, fun _ => Or.inl rfl⟩

theorem mono (h : DifferAt files t t') (hfiles : files ⊆ files') : DifferAt files' t t' := by
  refine ⟨h.workFolder, fun location => ?_⟩
  rcases h.entry location with same | ⟨hmem, hboth⟩
  · exact Or.inl same
  · exact Or.inr ⟨hfiles hmem, hboth⟩

theorem symm (h : DifferAt files t t') : DifferAt files t' t := by
  refine ⟨h.workFolder.symm, fun location => ?_⟩
  rcases h.entry location with same | ⟨hmem, hfile, hfile'⟩
  · exact Or.inl same.symm
  · exact Or.inr ⟨hmem, hfile', hfile⟩

theorem trans (h : DifferAt files t t') (h' : DifferAt files t' t'') : DifferAt files t t'' := by
  refine ⟨h'.workFolder.trans h.workFolder, fun location => ?_⟩
  rcases h'.entry location with same' | ⟨hmem, hfile', hfile''⟩
  · rcases h.entry location with same | ⟨hmem, hfile, hfile'⟩
    · exact Or.inl (same'.trans same)
    · refine Or.inr ⟨hmem, hfile, ?_⟩
      rwa [fileAt?, same']
  · rcases h.entry location with same | ⟨-, hfile, -⟩
    · refine Or.inr ⟨hmem, ?_, hfile''⟩
      rwa [fileAt?, ← same]
    · exact Or.inr ⟨hmem, hfile, hfile''⟩

theorem of_alike {location : Location} (h : AlikeBut location t t') :
    DifferAt [location] t t' := by
  refine ⟨h.workFolder, fun other => ?_⟩
  by_cases hother : other = location
  · obtain ⟨content, hfile⟩ := h.before
    obtain ⟨content', hfile'⟩ := h.after
    rw [hother, fileAt?_of_entry? hfile, fileAt?_of_entry? hfile']
    exact Or.inr ⟨List.mem_singleton_self location, rfl, rfl⟩
  · exact Or.inl (h.entry_eq other hother)

end DifferAt

/-! ## One file saved in two ways -/

/-- Either a file was saved in both trees, or the same was lost and the trees are one. -/
inductive SavedAlike (location : Location) :
    FileTree × Option Path → FileTree × Option Path → Prop
  | saved {t t' : FileTree} (alike : AlikeBut location t t') :
      SavedAlike location (t, none) (t', none)
  | lost (t : FileTree) (path : Path) : SavedAlike location (t, some path) (t, some path)

theorem alikeBut_insert {t : FileTree} {location : Location} (h : t.entry? location ≠ some .folder)
    (content content' : ByteArray) :
    AlikeBut location (t.insert location (.file content))
      (t.insert location (.file content')) := by
  have hroot : location ≠ [] := by
    rintro rfl
    exact h rfl
  refine ⟨rfl, fun other hother => ?_, ⟨content, ?_⟩, ⟨content', ?_⟩⟩
  · rw [insert_apply hroot, insert_apply hroot, if_neg hother, if_neg hother]
  · rw [insert_apply hroot, if_pos rfl]
  · rw [insert_apply hroot, if_pos rfl]

theorem writeOrLose_alike (t : FileTree) (p : Path) (content content' : ByteArray) :
    SavedAlike (t.place p) (t.writeOrLose p content) (t.writeOrLose p content') := by
  by_cases hfree : t.locate p = .ok (t.place p) ∧ t.entry? (t.place p) ≠ some .folder
  · have hsaved : ∀ content,
        t.writeOrLose p content = (t.insert (t.place p) (.file content), none) := by
      intro content
      rw [writeOrLose, write_eq_ok_iff.2 ⟨hfree.1, hfree.2, rfl⟩]
    rw [hsaved, hsaved]
    exact .saved (alikeBut_insert hfree.2 content content')
  · have hlost : ∀ content, t.writeOrLose p content = (t, some p) := by
      intro content
      rcases writeOrLose_cases t p content with ⟨written, h, -⟩ | ⟨lost, h⟩
      · obtain ⟨hlocate, hentry, -⟩ := write_eq_ok_iff.1 h
        exact absurd ⟨hlocate, hentry⟩ hfree
      · rw [h, writeOrLose_eq_some (congrArg Prod.snd h)]
    rw [hlost, hlost]
    exact .lost t p

theorem save_alike (t : FileTree) (p : Path) (content content' : ByteArray) :
    SavedAlike (t.place p) (t.save p content) (t.save p content') := by
  unfold save
  cases p.parent? with
  | none => exact writeOrLose_alike t p content content'
  | some above =>
    -- the folders are made before the content counts, so both go on from the same tree
    have hmake := makeFoldersOf_change t above.ancestors
    dsimp only [makeFolders]
    generalize t.makeFoldersOf above.ancestors = made at hmake ⊢
    obtain ⟨made, fault?⟩ := made
    cases fault? with
    | none =>
      dsimp only at hmake ⊢
      rw [← hmake.place_eq]
      exact writeOrLose_alike made p content content'
    | some fault => exact .lost made above

end LuaGlue.FileTree

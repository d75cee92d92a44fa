import LuaGlue.Proofs.FileTree.Rewrite
import LuaGlue.Proofs.Job

/-!
# Trees that differ in one file

Two trees are alike but for the bytes of one file. Then a path leads to the same place in both or
fails for the same reason, and all other files read the same. A job that does not read the one file
does the same on both trees and leaves them alike again.
-/

namespace LuaGlue

namespace FileTree

/-- A file stands at a location in both trees, and all else is the same. -/
structure AlikeBut (location : Location) (t t' : FileTree) : Prop where
  workFolder : t'.workFolder = t.workFolder
  entry_eq : ∀ other, other ≠ location → t'.entry? other = t.entry? other
  before : ∃ content, t.entry? location = some (.file content)
  after : ∃ content, t'.entry? location = some (.file content)

namespace AlikeBut

variable {location : Location} {t t' t'' : FileTree}

theorem symm (h : AlikeBut location t t') : AlikeBut location t' t :=
  ⟨h.workFolder.symm, fun other hother => (h.entry_eq other hother).symm, h.after, h.before⟩

theorem trans (h : AlikeBut location t t') (h' : AlikeBut location t' t'') :
    AlikeBut location t t'' :=
  ⟨h'.workFolder.trans h.workFolder,
    fun other hother => (h'.entry_eq other hother).trans (h.entry_eq other hother),
    h.before, h'.after⟩

theorem place_eq (h : AlikeBut location t t') (p : Path) : t'.place p = t.place p :=
  place_congr h.workFolder p

theorem entry_cases (h : AlikeBut location t t') (other : Location) :
    t'.entry? other = t.entry? other ∨
      (∃ content, t.entry? other = some (.file content)) ∧
        ∃ content, t'.entry? other = some (.file content) := by
  by_cases hother : other = location
  · rw [hother]
    exact Or.inr ⟨h.before, h.after⟩
  · exact Or.inl (h.entry_eq other hother)

theorem walk_eq (h : AlikeBut location t t') (start : Location) (parts : List String) :
    t'.walk start parts = t.walk start parts := by
  induction parts generalizing start with
  | nil => rfl
  | cons part parts ih =>
    rw [walk, walk]
    rcases h.entry_cases start with same | ⟨⟨content, hfile⟩, content', hfile'⟩
    · rw [same, ih, ih, ih]
    · rw [hfile, hfile']

theorem follow_eq (h : AlikeBut location t t') (p : Path) : t'.follow p = t.follow p := by
  unfold follow
  rw [h.workFolder, h.walk_eq]

theorem locate_eq (h : AlikeBut location t t') (p : Path) : t'.locate p = t.locate p := by
  unfold locate
  rw [h.follow_eq]

theorem isFolder_eq (h : AlikeBut location t t') (p : Path) : t'.isFolder p = t.isFolder p := by
  unfold isFolder at?
  rw [h.locate_eq]
  cases t.locate p with
  | error fault => rfl
  | ok reached =>
    rcases h.entry_cases reached with same | ⟨⟨content, hfile⟩, content', hfile'⟩
    · simp only [same]
    · simp [hfile, hfile']

theorem read_eq (h : AlikeBut location t t') {p : Path} (hplace : t.place p ≠ location) :
    t'.read p = t.read p := by
  unfold read
  rw [h.locate_eq]
  cases hlocate : t.locate p with
  | error fault => rfl
  | ok reached =>
    rw [← FileTree.locate_eq_ok hlocate] at hplace
    simp only [h.entry_eq reached hplace]

/-- Only its bytes can differ, not whether a file can be read. -/
theorem read_cases (h : AlikeBut location t t') (p : Path) :
    t'.read p = t.read p ∨
      (∃ content, t.read p = .ok content) ∧ ∃ content, t'.read p = .ok content := by
  unfold read
  rw [h.locate_eq]
  cases t.locate p with
  | error fault => exact Or.inl rfl
  | ok reached =>
    rcases h.entry_cases reached with same | ⟨⟨content, hfile⟩, content', hfile'⟩
    · exact Or.inl (by simp only [same])
    · exact Or.inr ⟨⟨content, by simp only [hfile]⟩, content', by simp only [hfile']⟩

theorem read_eq_ok (h : AlikeBut location t t') {p : Path} {content : ByteArray}
    (hread : t.read p = .ok content) : ∃ content', t'.read p = .ok content' := by
  rcases h.read_cases p with same | ⟨-, hread'⟩
  · exact ⟨content, same.trans hread⟩
  · exact hread'

/-! ## Changes of both trees -/

theorem insert (h : AlikeBut location t t') {place : Location} {e : Entry} (hroot : place ≠ [])
    (hfile : place = location → ∃ content, e = .file content) :
    AlikeBut location (t.insert place e) (t'.insert place e) := by
  refine ⟨h.workFolder, fun other hother => ?_, ?_, ?_⟩
  · rw [insert_apply hroot, insert_apply hroot, h.entry_eq other hother]
  all_goals
    rw [insert_apply hroot]
    split_ifs with hplace
  · obtain ⟨content, rfl⟩ := hfile hplace.symm
    exact ⟨content, rfl⟩
  · exact h.before
  · obtain ⟨content, rfl⟩ := hfile hplace.symm
    exact ⟨content, rfl⟩
  · exact h.after

inductive Outcome (location : Location) : Except Fault FileTree → Except Fault FileTree → Prop
  | ok {t t' : FileTree} (alike : AlikeBut location t t') : Outcome location (.ok t) (.ok t')
  | error (fault : Fault) : Outcome location (.error fault) (.error fault)

theorem write (h : AlikeBut location t t') (p : Path) (content : ByteArray) :
    Outcome location (t.write p content) (t'.write p content) := by
  unfold FileTree.write
  rw [h.locate_eq]
  cases t.locate p with
  | error fault => exact .error fault
  | ok reached =>
    have hinsert : reached ≠ [] → Outcome location (.ok (t.insert reached (.file content)))
        (.ok (t'.insert reached (.file content))) := fun hroot =>
      .ok (h.insert hroot fun _ => ⟨content, rfl⟩)
    by_cases hroot : reached = []
    · rw [hroot]
      exact .error .isFolder
    · rcases h.entry_cases reached with same | ⟨⟨old, hfile⟩, old', hfile'⟩
      · simp only [same]
        split
        · exact .error .isFolder
        · exact hinsert hroot
      · simp only [hfile, hfile']
        exact hinsert hroot

theorem makeFolder (h : AlikeBut location t t') (p : Path) :
    Outcome location (t.makeFolder p) (t'.makeFolder p) := by
  unfold FileTree.makeFolder
  rw [h.follow_eq]
  cases textFault? p with
  | some fault => exact .error fault
  | none =>
    dsimp only
    cases t.follow (bare p) with
    | error fault => exact .error fault
    | ok reached =>
      rcases h.entry_cases reached with same | ⟨⟨old, hfile⟩, old', hfile'⟩
      · simp only [same]
        cases hentry : t.entry? reached with
        | some e => exact .error .taken
        | none =>
          have hroot : reached ≠ [] := by
            rintro rfl
            cases hentry
          have hother : reached ≠ location := by
            rintro rfl
            obtain ⟨content, hfile⟩ := h.before
            rw [hentry] at hfile
            cases hfile
          exact .ok (h.insert hroot fun hplace => absurd hplace hother)
      · simp only [hfile, hfile']
        exact .error .taken

theorem makeFoldersOf (h : AlikeBut location t t') (ps : List Path) :
    (t'.makeFoldersOf ps).2 = (t.makeFoldersOf ps).2 ∧
      AlikeBut location (t.makeFoldersOf ps).1 (t'.makeFoldersOf ps).1 := by
  induction ps with
  | nil => exact ⟨rfl, h⟩
  | cons p above ih =>
    rw [FileTree.makeFoldersOf, FileTree.makeFoldersOf]
    have hmake := h.makeFolder p
    generalize t.makeFolder p = r at hmake ⊢
    generalize t'.makeFolder p = r' at hmake ⊢
    cases hmake with
    | ok alike => exact ⟨rfl, alike⟩
    | error fault =>
      cases fault with
      | missing =>
        -- the folders above are made, and then the folder itself once more
        generalize t.makeFoldersOf above = made at ih ⊢
        generalize t'.makeFoldersOf above = made' at ih ⊢
        obtain ⟨made, fault?⟩ := made
        obtain ⟨made', fault?'⟩ := made'
        obtain ⟨rfl, hmade⟩ := ih
        cases fault?' with
        | some fault => exact ⟨rfl, hmade⟩
        | none =>
          have hlast := hmade.makeFolder p
          dsimp only
          generalize made.makeFolder p = r at hlast ⊢
          generalize made'.makeFolder p = r' at hlast ⊢
          cases hlast with
          | ok alike => exact ⟨rfl, alike⟩
          | error fault => exact ⟨by simp only [hmade.isFolder_eq], hmade⟩
      | _ => exact ⟨by simp only [h.isFolder_eq], h⟩

theorem writeOrLose (h : AlikeBut location t t') (p : Path) (content : ByteArray) :
    (t'.writeOrLose p content).2 = (t.writeOrLose p content).2 ∧
      AlikeBut location (t.writeOrLose p content).1 (t'.writeOrLose p content).1 := by
  have hwrite := h.write p content
  unfold FileTree.writeOrLose
  generalize t.write p content = r at hwrite ⊢
  generalize t'.write p content = r' at hwrite ⊢
  cases hwrite with
  | ok alike => exact ⟨rfl, alike⟩
  | error fault => exact ⟨rfl, h⟩

theorem save (h : AlikeBut location t t') (p : Path) (content : ByteArray) :
    (t'.save p content).2 = (t.save p content).2 ∧
      AlikeBut location (t.save p content).1 (t'.save p content).1 := by
  unfold FileTree.save
  cases p.parent? with
  | none => exact h.writeOrLose p content
  | some above =>
    have hmake := h.makeFoldersOf above.ancestors
    dsimp only [FileTree.makeFolders]
    generalize t.makeFoldersOf above.ancestors = made at hmake ⊢
    generalize t'.makeFoldersOf above.ancestors = made' at hmake ⊢
    obtain ⟨made, fault?⟩ := made
    obtain ⟨made', fault?'⟩ := made'
    obtain ⟨rfl, hmade⟩ := hmake
    cases fault?' with
    | none => exact hmade.writeOrLose p content
    | some fault => exact ⟨rfl, hmade⟩

theorem of_insert {place : Location} {old new : ByteArray}
    (hplace : t.entry? place = some (.file old)) (hsame : place ≠ location → new = old)
    (hfile : ∃ content, t.entry? location = some (.file content)) :
    AlikeBut location t (t.insert place (.file new)) := by
  have hroot : place ≠ [] := by
    rintro rfl
    cases hplace
  refine ⟨rfl, fun other hother => ?_, hfile, ?_⟩
  · rw [insert_apply hroot]
    split_ifs with hwritten
    · rw [hwritten] at hother ⊢
      rw [hsame hother, hplace]
    · rfl
  · rw [insert_apply hroot]
    split_ifs
    · exact ⟨new, rfl⟩
    · exact hfile

end AlikeBut

theorem workFolder_save (t : FileTree) (p : Path) (content : ByteArray) :
    (t.save p content).1.workFolder = t.workFolder := by
  cases h : (t.save p content).2 with
  | none => exact (save_eq_none h).1.workFolder
  | some lost => exact (save_eq_some h).2.workFolder

end FileTree

namespace Job

open FileTree (AlikeBut)

variable {ε α β : Type}

/-- All paths that a job reads, whatever it finds there, have a property. -/
def ReadsAt (P : Path → Prop) : Job ε α → Prop
  | .done _ => True
  | .fail _ => True
  | .read path next => P path ∧ ∀ found, (next found).ReadsAt P
  | .save _ _ next => ∀ lost, (next lost).ReadsAt P
  | .report _ next => next.ReadsAt P
  | .print _ _ next => next.ReadsAt P

theorem workFolder_run (x : Job ε α) (t : FileTree) : (x.run t).tree.workFolder = t.workFolder := by
  induction x generalizing t with
  | done value => rfl
  | fail failure => rfl
  | read path next ih => exact ih _ t
  | save path content next ih =>
    rw [run, ih]
    exact t.workFolder_save path content
  | report event next ih => exact ih t
  | print stream text next ih => cases stream <;> exact ih t

structure RunsAlike (location : Location) (r r' : Run ε α) : Prop where
  result : r'.result = r.result
  log : r'.log = r.log
  output : r'.output = r.output
  errors : r'.errors = r.errors
  tree : AlikeBut location r.tree r'.tree

/-- A job that reads only other files does the same on trees that are alike but for one. -/
theorem run_alike {x : Job ε α} {P : Path → Prop} {location : Location} {t t' : FileTree}
    (hreads : x.ReadsAt P) (alike : AlikeBut location t t')
    (apart : ∀ path, P path → t.place path ≠ location) :
    RunsAlike location (x.run t) (x.run t') := by
  induction x generalizing t t' with
  | done value => exact ⟨rfl, rfl, rfl, rfl, alike⟩
  | fail failure => exact ⟨rfl, rfl, rfl, rfl, alike⟩
  | read path next ih =>
    rw [run, run, alike.read_eq (apart path hreads.1)]
    exact ih _ (hreads.2 _) alike apart
  | save path content next ih =>
    obtain ⟨hlost, hsaved⟩ := alike.save path content
    rw [run, run, hlost]
    apply ih _ (hreads _) hsaved
    intro other hother
    rw [FileTree.place_congr (t.workFolder_save path content)]
    exact apart other hother
  | report event next ih =>
    have hnext := ih hreads alike apart
    exact { hnext with log := congrArg (event :: ·) hnext.log }
  | print stream text next ih =>
    have hnext := ih hreads alike apart
    cases stream with
    | output => exact { hnext with output := congrArg (text ++ ·) hnext.output }
    | errors => exact { hnext with errors := congrArg (text ++ ·) hnext.errors }

end Job

end LuaGlue

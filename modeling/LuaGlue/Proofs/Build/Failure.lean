import LuaGlue.Build.BundleBuild
import LuaGlue.Proofs.Build.Staleness

/-!
# What a failed build leaves

Everything is read and made before the first file is written, so a build that fails for another
reason than a file that cannot be written leaves the tree as it was. If the header cannot be
written, folders may have been made, but every file holds what it held. The marker is written last:
if it cannot be written, the new header stays.
-/

namespace LuaGlue

open FileTree

/-- The failure to write a file, or to make the folder that holds it. -/
inductive Failure.OfWriting (path : Path) : Failure → Prop
  | file : OfWriting path (.unwritable path)
  | folder {above : Path} (holds : path.parent? = some above) : OfWriting path (.unwritable above)

theorem Build.saveText_fails {path : Path} {text : String} {t t' : FileTree} {failure : Failure}
    (h : (saveText path text).Fails t failure t') :
    failure.OfWriting path ∧ Change [] ((foldersAbove path).map t.place) t t' := by
  obtain ⟨hresult, rfl⟩ := h
  unfold saveText at hresult ⊢
  rw [Job.run] at hresult ⊢
  cases hlost : (t.save path text.toUTF8).2 with
  | none =>
    simp only [hlost] at hresult
    cases hresult
  | some lost =>
    simp only [hlost] at hresult ⊢
    cases hresult
    obtain ⟨rfl | hparent, hchange⟩ := save_eq_some hlost
    · exact ⟨.file, hchange⟩
    · exact ⟨.folder hparent, hchange⟩

namespace HeaderBuild

/-- Writing fails at the header, and then no file is written, or at the marker, and then the header
is. -/
theorem write_fails {t t' : FileTree} {headerPath : Path} {markerPath? : Option Path} {p : Product}
    {failure : Failure} (h : (write headerPath markerPath? p).Fails t failure t') :
    (failure.OfWriting headerPath ∧ Change [] ((foldersAbove headerPath).map t.place) t t') ∨
      ∃ markerPath, markerPath? = some markerPath ∧ failure.OfWriting markerPath ∧
        Change [t.place headerPath]
          ((foldersAbove headerPath ++ foldersAbove markerPath).map t.place) t t' ∧
        t'.read headerPath = .ok p.header.text.toUTF8 := by
  rcases Job.fails_bind_iff.1 h with hheader | ⟨⟨⟩, between, hheader, hrest⟩
  · exact Or.inl (Build.saveText_fails hheader)
  · obtain ⟨hchange, hread⟩ := saveText_ends hheader
    rcases Job.fails_bind_iff.1 hrest with hnote | ⟨⟨⟩, between', hnote, hmarker⟩
    · cases hnote.1
    · obtain rfl : between' = between := hnote.2.symm
      cases markerPath? with
      | none => exact absurd hmarker Job.not_fails_done
      | some markerPath =>
        obtain ⟨hfailure, hchange'⟩ := Build.saveText_fails hmarker
        simp only [funext hchange.place_eq] at hchange'
        refine Or.inr ⟨markerPath, rfl, hfailure, ?_, hchange'.read_eq_ok List.not_mem_nil hread⟩
        exact (hchange.mono (by simp) (by simp)).trans (hchange'.mono (by simp) (by simp))

/-- A build that fails has written nothing, or fails while it writes what it made. -/
theorem build_fails {b : HeaderBuild} {t t' : FileTree} {failure : Failure}
    (h : b.build.Fails t failure t') :
    t' = t ∨ ∃ headerPath p, b.headerPath? = some headerPath ∧ b.generate.Ends t p t ∧
      (write headerPath b.markerPath? p).Fails t failure t' := by
  unfold build at h
  cases hheader : b.headerPath? with
  | none =>
    rw [hheader] at h
    exact Or.inl (Job.fails_fail_iff.1 h).2.symm
  | some headerPath =>
    rw [hheader] at h
    rcases Job.fails_bind_iff.1 h with hgenerate | ⟨p, between, hgenerate, hrest⟩
    · rw [← hgenerate.2, generate_tree]
      exact Or.inl rfl
    obtain ⟨rfl, -⟩ := generate_ends hgenerate
    have hreads := readOnly_isUpToDate headerPath b.markerPath? p
    rcases Job.fails_bind_iff.1 hrest with hlook | ⟨upToDate, between', hlook, hrest'⟩
    · exact Or.inl (hreads.tree_eq_of_fails hlook)
    obtain rfl := hreads.tree_eq_of_ends hlook
    rcases Job.fails_bind_iff.1 hrest' with hsettle | ⟨⟨⟩, between'', hsettle, hconclude⟩
    · cases upToDate with
      | true => cases hsettle.1
      | false => exact Or.inr ⟨headerPath, p, rfl, hgenerate, hsettle⟩
    · have hresult := hconclude.1
      rw [run_conclude] at hresult
      cases hresult

theorem build_fails_unwritten {b : HeaderBuild} {t t' : FileTree} {failure : Failure}
    (h : b.build.Fails t failure t') : t' = t ∨ ∃ path, failure.OfWriting path := by
  rcases build_fails h with hsame | ⟨headerPath, p, -, -, hwrite⟩
  · exact Or.inl hsame
  · rcases write_fails hwrite with ⟨hfailure, -⟩ | ⟨markerPath, -, hfailure, -⟩
    · exact Or.inr ⟨headerPath, hfailure⟩
    · exact Or.inr ⟨markerPath, hfailure⟩

/-- After a failed build every file holds what it held, unless the build could not write its marker.
Then the new header stays, and only the header is another one. -/
theorem build_error_keepsFiles (b : HeaderBuild) (t : FileTree) (failure : Failure)
    (error : (b.build.run t).result = .error failure) :
    KeepsFiles [] t (b.build.run t).tree ∨
      ∃ headerPath markerPath p, b.headerPath? = some headerPath ∧ b.markerPath? = some markerPath ∧
        b.generate.Ends t p t ∧ failure.OfWriting markerPath ∧
        (b.build.run t).tree.read headerPath = .ok p.header.text.toUTF8 ∧
        KeepsFiles [t.place headerPath] t (b.build.run t).tree := by
  rcases build_fails ⟨error, rfl⟩ with hsame | ⟨headerPath, p, hheader, hgenerate, hwrite⟩
  · rw [hsame]
    exact Or.inl fun location _ => rfl
  · rcases write_fails hwrite with ⟨-, hchange⟩ | ⟨markerPath, hmarker, hfailure, hchange, hread⟩
    · exact Or.inl hchange.keepsFiles
    · exact Or.inr ⟨headerPath, markerPath, p, hheader, hmarker, hgenerate, hfailure, hread,
        hchange.keepsFiles⟩

def sourceTree : FileTree where
  workFolder := ["work"]
  entries := [(["work"], .folder), (["work", "Foo.h"], .file "int get(int)\n".toUTF8)]

/-- A build that takes the folder of its header for its marker. -/
def folderMarked : HeaderBuild :=
  { standard with
    sources := [⟨"Foo.h"⟩]
    headerPath? := some ⟨"gen/lua.h"⟩
    markerPath? := some ⟨"gen"⟩ }

theorem folderMarked_error_keepsFiles :
    (folderMarked.build.run sourceTree).result = .error (.unwritable ⟨"gen"⟩) ∧
      KeepsFiles [sourceTree.place ⟨"gen/lua.h"⟩] sourceTree
        (folderMarked.build.run sourceTree).tree := by
  have hfails : folderMarked.build.Fails sourceTree (.unwritable ⟨"gen"⟩) _ :=
    Job.fails_of_map (f := fun _ => ()) (by decide +kernel)
  have herror := hfails.1
  refine ⟨herror, ?_⟩
  rcases build_error_keepsFiles folderMarked sourceTree _ herror with
    hkept | ⟨headerPath, -, -, hheader, -, -, -, -, hkept⟩
  · exact fun location _ => hkept location List.not_mem_nil
  · cases hheader
    exact hkept

/-- There was no header before the build, and there is one after it failed. -/
theorem folderMarked_leaves_header :
    (folderMarked.build.run sourceTree).result.isOk = false ∧
      sourceTree.fileAt? (sourceTree.place ⟨"gen/lua.h"⟩) = none ∧
      ((folderMarked.build.run sourceTree).tree.fileAt?
        (sourceTree.place ⟨"gen/lua.h"⟩)).isSome = true := by
  decide +kernel

end HeaderBuild

namespace BundleBuild

theorem readOnly_load (sources : List Path) : (load sources).ReadOnly := by
  induction sources with
  | nil => trivial
  | cons source rest ih =>
    have hsource : (Build.readBytes source).ReadOnly := by
      rintro (fault | content) <;> trivial
    exact hsource.bind fun content => ih.bind fun resources => trivial

theorem readOnly_generate (b : BundleBuild) : b.generate.ReadOnly := by
  have hnotes : ∀ events, (Job.notes events : Job Failure Unit).ReadOnly := by
    intro events
    induction events with
    | nil => trivial
    | cons event rest ih => exact ih
  exact (readOnly_load b.sources).bind fun resources =>
    (hnotes (b.kind.warnings resources)).bind fun _ => trivial

/-- A bundle that cannot be built has changed nothing, or its header cannot be written. -/
theorem build_fails_unwritten {b : BundleBuild} {t t' : FileTree} {failure : Failure}
    (h : b.build.Fails t failure t') : t' = t ∨ ∃ path, failure.OfWriting path := by
  unfold build at h
  cases houtput : b.output? with
  | none =>
    rw [houtput] at h
    exact Or.inl (Job.fails_fail_iff.1 h).2.symm
  | some output =>
    rw [houtput] at h
    rcases Job.fails_bind_iff.1 h with hgenerate | ⟨header, between, hgenerate, hrest⟩
    · exact Or.inl (b.readOnly_generate.tree_eq_of_fails hgenerate)
    rcases Job.fails_bind_iff.1 hrest with hsave | ⟨⟨⟩, saved, -, hreport⟩
    · exact Or.inr ⟨output, (Build.saveText_fails hsave).1⟩
    -- what is left reports and prints, and cannot fail
    rcases Job.fails_bind_iff.1 hreport with hnote | ⟨⟨⟩, noted, -, hprint⟩
    · cases hnote.1
    · by_cases hprints : b.printsRerun = true
      · rw [if_pos hprints] at hprint
        rcases Job.fails_bind_iff.1 hprint with hrerun | ⟨⟨⟩, printed, -, hreturn⟩
        · have hresult := hrerun.1
          rw [HeaderBuild.run_printRerun] at hresult
          cases hresult
        · exact absurd hreturn Job.not_fails_done
      · rw [if_neg hprints] at hprint
        exact absurd hprint Job.not_fails_done

end BundleBuild

end LuaGlue

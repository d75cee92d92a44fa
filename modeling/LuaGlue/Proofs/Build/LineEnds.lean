import LuaGlue.Build.BundleBuild
import LuaGlue.Proofs.Build.Generation
import LuaGlue.Proofs.Bundle.LineEnds
import LuaGlue.Proofs.Declaration.Joined

/-!
# Sources with other line ends

Declarations, templates and licenses are read line by line, and none of their readers takes notice
of a carriage return in front of a line feed. So what is generated from files stays the same, byte
by byte, if carriage returns are added to them or dropped in front of line feeds, in well-formed
text or between other bytes. Only codes embed their files as they stand.
-/

namespace LuaGlue

open Text

theorem Declaration.readAll_sameButReturns {text text' : String}
    (h : SameTextButReturns text text') : readAll text = readAll text' := by
  have hdrop : ∀ front rest : List Char,
      readAll (String.ofList (front ++ '\r' :: '\n' :: rest)) =
        readAll (String.ofList (front ++ '\n' :: rest)) := by
    intro front rest
    have hcut : ∀ lineBreak : LineBreak,
        readAll (String.ofList (front ++ (lineBreak.text.toList ++ rest))) =
          readAll (String.ofList front) ++ readAll (String.ofList rest) := fun lineBreak => by
      rw [← readAll_cut _ _ lineBreak, String.ofList_append, String.ofList_append,
        String.ofList_toList, String.append_assoc]
    exact (hcut .returnFeed).trans (hcut .feed).symm
  have hchars := h.eq_of_drop (f := fun cs => readAll (String.ofList cs)) hdrop
  simpa only [String.ofList_toList] using hchars

namespace FileTree

/-- Both reads fail for the same reason, or find bytes that differ only in carriage returns in front
of line feeds. -/
inductive ReadsAlike : Except Fault ByteArray → Except Fault ByteArray → Prop
  | ok {content content' : ByteArray} (same : SameBytesButReturns content content') :
      ReadsAlike (.ok content) (.ok content')
  | error (fault : Fault) : ReadsAlike (.error fault) (.error fault)

theorem ReadsAlike.symm {found found' : Except Fault ByteArray} (h : ReadsAlike found found') :
    ReadsAlike found' found := by
  cases h with
  | ok same => exact .ok (.symm _ _ same)
  | error fault => exact .error fault

theorem ReadsAlike.of_returnFeeds {found found' : Except Fault ByteArray}
    (h : found'.map (fun content => content.data.toList) =
      found.map fun content => returnFeeds 13 10 content.data.toList) :
    ReadsAlike found found' := by
  cases found with
  | error fault =>
    cases found' with
    | error fault' =>
      obtain rfl := Except.error.inj h
      exact .error fault'
    | ok content' => cases h
  | ok content =>
    cases found' with
    | error fault' => cases h
    | ok content' =>
      have hbytes : content'.data.toList = returnFeeds 13 10 content.data.toList :=
        Except.ok.inj h
      have hsame := sameButReturns_returnFeeds 13 10 content.data.toList
      rw [← hbytes] at hsame
      exact .ok (.symm _ _ hsame)

end FileTree

open FileTree (ReadsAlike)

/-! ## Binding headers -/

namespace HeaderBuild

theorem declared_of_readsAlike (source : Path) {found found' : Except FileTree.Fault ByteArray}
    (h : ReadsAlike found found') : declared source found' = declared source found := by
  cases h with
  | error fault => rfl
  | ok same =>
    unfold declared
    simp only [ofUtf8?_eq_decode, decode_replaced_sameButReturns same]
    split_ifs
    · rfl
    · exact congrArg Except.ok
        (Declaration.readAll_sameButReturns (decode_text_sameButReturns same)).symm

theorem generate_run_of_readsAlike {b : HeaderBuild} {t t' : FileTree}
    (h : ∀ source ∈ b.sources, ReadsAlike (t.read source) (t'.read source)) :
    b.generate.run t' = { b.generate.run t with tree := t' } :=
  generate_run_of_declared fun source hsource => declared_of_readsAlike source (h source hsource)

end HeaderBuild

/-! ## Tables -/

namespace BundleBuild

inductive LoadsAlike (t t' : FileTree) :
    Run Failure (List Resource) → Run Failure (List Resource) → Prop
  | ok {resources resources' : List Resource}
      (same : List.Forall₂ Resource.SameButReturns resources resources') :
      LoadsAlike t t' ⟨.ok resources, t, [], "", ""⟩ ⟨.ok resources', t', [], "", ""⟩
  | error (failure : Failure) :
      LoadsAlike t t' ⟨.error failure, t, [], "", ""⟩ ⟨.error failure, t', [], "", ""⟩

theorem load_cons_run (source : Path) (rest : List Path) (t : FileTree) :
    (load (source :: rest)).run t =
      match t.read source with
      | .ok content =>
        ((load rest).bind fun resources => .done (.ofBytes source content :: resources)).run t
      | .error fault => (Job.fail (Build.readFailure source fault)).run t := by
  rw [load, Build.readBytes, Job.bind, Job.run]
  cases t.read source <;> rfl

theorem loadsAlike {t t' : FileTree} {sources : List Path}
    (h : ∀ source ∈ sources, ReadsAlike (t.read source) (t'.read source)) :
    LoadsAlike t t' ((load sources).run t) ((load sources).run t') := by
  induction sources with
  | nil => exact .ok .nil
  | cons source rest ih =>
    obtain ⟨hsource, hrest⟩ := List.forall_mem_cons.1 h
    have hload := ih hrest
    rw [load_cons_run, load_cons_run]
    generalize t.read source = found at hsource ⊢
    generalize t'.read source = found' at hsource ⊢
    cases hsource with
    | error fault => exact .error _
    | ok same =>
      simp only [Job.run_bind]
      generalize (load rest).run t = run at hload ⊢
      generalize (load rest).run t' = run' at hload ⊢
      cases hload with
      | error failure => exact .error failure
      | ok others => exact .ok (.cons (.ofBytes source same) others)

theorem generate_run_of_readsAlike {b : BundleBuild} (hkind : b.kind ≠ .codes) {t t' : FileTree}
    (h : ∀ source ∈ b.sources, ReadsAlike (t.read source) (t'.read source)) :
    b.generate.run t' = { b.generate.run t with tree := t' } := by
  have hload := loadsAlike h
  unfold generate
  simp only [Job.bind_eq_bind, Job.run_bind]
  generalize (load b.sources).run t = run at hload ⊢
  generalize (load b.sources).run t' = run' at hload ⊢
  cases hload with
  | error failure => rfl
  | ok same =>
    simp [Bundle.warnings_sameButReturns same, Bundle.render_sameButReturns hkind same]

end BundleBuild

/-! ## All that is generated from texts -/

namespace Build

structure ReadSame (text text' : String) : Prop where
  members : Declaration.readAll text = Declaration.readAll text'
  template : ∀ path, Template.ofResource ⟨path, text.toUTF8⟩ =
    Template.ofResource ⟨path, text'.toUTF8⟩
  license : ∀ path, License.ofResource ⟨path, text.toUTF8⟩ =
    License.ofResource ⟨path, text'.toUTF8⟩

theorem readSame_of_sameButReturns {text text' : String} (h : SameTextButReturns text text') :
    ReadSame text text' := by
  have hresources : ∀ path,
      Resource.SameButReturns ⟨path, text.toUTF8⟩ ⟨path, text'.toUTF8⟩ :=
    fun path => ⟨rfl, h.toUTF8⟩
  exact ⟨Declaration.readAll_sameButReturns h,
    fun path => Template.ofResource_sameButReturns (hresources path),
    fun path => License.ofResource_sameButReturns (hresources path)⟩

/-- What is generated from sources is the same on two trees: the header of a binding build, whatever
its options are, and the header of a bundle that is not one of codes. Failures, events and printed
texts are the same, too. -/
structure GeneratesSame (sources : List Path) (t t' : FileTree) : Prop where
  header : ∀ b : HeaderBuild, b.sources = sources →
    b.generate.run t' = { b.generate.run t with tree := t' }
  table : ∀ b : BundleBuild, b.sources = sources → b.kind ≠ .codes →
    b.generate.run t' = { b.generate.run t with tree := t' }

/-- Carriage returns in front of line feeds do not show in what is read from a text, nor in what is
generated from files. -/
theorem lineEnds_unseen :
    (∀ text, ReadSame (withReturns text) text) ∧
      ∀ (sources : List Path) (t t' : FileTree),
        (∀ source ∈ sources, ReadsAlike (t.read source) (t'.read source)) →
          GeneratesSame sources t t' := by
  refine ⟨fun text => readSame_of_sameButReturns (sameTextButReturns_withReturns text), ?_⟩
  intro sources t t' halike
  refine ⟨?_, ?_⟩
  · rintro b rfl
    exact HeaderBuild.generate_run_of_readsAlike halike
  · rintro b rfl hkind
    exact BundleBuild.generate_run_of_readsAlike hkind halike

/-- A file in which carriage returns stand in front of some line feeds and at the end, and one that
is not well-formed, in which they stand in front of all. -/
def mixedTree : FileTree where
  workFolder := ["work"]
  entries := [
    (["work"], .folder),
    (["work", "Foo.h"], .file "int get(int)\nbool ok()\r\nvoid set(int)\r".toUTF8),
    (["work", "LICENSE"], .file ⟨#[104, 13, 10, 0xC3, 13, 10, 13, 10, 0xE2, 0x82]⟩)]

/-- The first file with one more carriage return in front of every line feed, and the second one
with one less. -/
def convertedTree : FileTree where
  workFolder := ["work"]
  entries := [
    (["work"], .folder),
    (["work", "Foo.h"], .file "int get(int)\r\nbool ok()\r\r\nvoid set(int)\r".toUTF8),
    (["work", "LICENSE"], .file ⟨#[104, 10, 0xC3, 10, 10, 0xE2, 0x82]⟩)]

def bothSources : List Path := [⟨"Foo.h"⟩, ⟨"LICENSE"⟩]

theorem mixedTree_lineEnds_unseen :
    (∀ source ∈ bothSources, ReadsAlike (mixedTree.read source) (convertedTree.read source)) ∧
      mixedTree.read ⟨"Foo.h"⟩ ≠ convertedTree.read ⟨"Foo.h"⟩ ∧
      mixedTree.read ⟨"LICENSE"⟩ ≠ convertedTree.read ⟨"LICENSE"⟩ ∧
      ((BundleBuild.load bothSources).run mixedTree).result.isOk = true ∧
      GeneratesSame bothSources mixedTree convertedTree := by
  have hdeclarations : ReadsAlike (mixedTree.read ⟨"Foo.h"⟩) (convertedTree.read ⟨"Foo.h"⟩) :=
    .of_returnFeeds (by decide +kernel)
  have hlicense : ReadsAlike (mixedTree.read ⟨"LICENSE"⟩) (convertedTree.read ⟨"LICENSE"⟩) :=
    .symm (.of_returnFeeds (by decide +kernel))
  have halike : ∀ source ∈ bothSources,
      ReadsAlike (mixedTree.read source) (convertedTree.read source) := by
    unfold bothSources
    rw [List.forall_mem_cons, List.forall_mem_singleton]
    exact ⟨hdeclarations, hlicense⟩
  exact ⟨halike, by decide +kernel, by decide +kernel, by decide +kernel,
    lineEnds_unseen.2 bothSources mixedTree convertedTree halike⟩

end Build

end LuaGlue

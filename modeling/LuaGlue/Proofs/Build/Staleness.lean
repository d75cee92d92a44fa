import LuaGlue.Proofs.Build.Generation
import LuaGlue.Proofs.FileTree.Change

/-!
# No stale header

A build that ends well leaves the header that it made, and a marker that says so, whatever the tree
held before. It keeps its hands off the tree exactly if both were there already. The fingerprint may
be any function of the text: the header is compared as a whole.
-/

namespace LuaGlue.HeaderBuild

open FileTree

def outputs (b : HeaderBuild) : List Path := b.headerPath?.toList ++ b.markerPath?.toList

def markerAt? (t : FileTree) (path : Path) : Option Marker :=
  (Build.textAt? t path).bind Marker.read?

/-- A marker that says the same as the marker of a product stands at a path. -/
def SaysSame (t : FileTree) (path : Path) (p : Product) : Prop :=
  ∃ old, markerAt? t path = some old ∧ old.sameAs p.marker = true

def Settled (t : FileTree) (headerPath : Path) (markerPath? : Option Path) (p : Product) : Prop :=
  ∃ markerPath, markerPath? = some markerPath ∧ SaysSame t markerPath p ∧
    t.read headerPath = .ok p.header.text.toUTF8

/-! ## Looking at the old files -/

theorem readOnly_readMarker (path : Path) : (readMarker path).ReadOnly := by
  rintro (fault | content)
  · cases fault <;> trivial
  · dsimp only
    split <;> trivial

theorem readOnly_holdsText (path : Path) (text : String) : (holdsText path text).ReadOnly := by
  rintro (fault | content) <;> trivial

theorem readOnly_isUpToDate (headerPath : Path) (markerPath? : Option Path) (p : Product) :
    (isUpToDate headerPath markerPath? p).ReadOnly := by
  cases markerPath? with
  | none => trivial
  | some markerPath =>
    apply (readOnly_readMarker markerPath).bind
    intro previous
    split
    · exact readOnly_holdsText headerPath p.header.text
    · trivial

theorem readMarker_ends {t t' : FileTree} {path : Path} {found : Option Marker}
    (h : (readMarker path).Ends t found t') : found = markerAt? t path := by
  have hresult := h.1
  unfold readMarker at hresult
  unfold markerAt? Build.textAt?
  rw [Job.run] at hresult
  cases hread : t.read path with
  | error fault =>
    rw [hread] at hresult
    cases fault <;> cases hresult
    rfl
  | ok content =>
    rw [hread] at hresult
    dsimp only at hresult ⊢
    cases htext : Text.ofUtf8? content with
    | none =>
      rw [htext] at hresult
      cases hresult
    | some text =>
      rw [htext] at hresult
      cases hresult
      rfl

theorem holdsText_ends {t t' : FileTree} {path : Path} {text : String} {found : Bool}
    (h : (holdsText path text).Ends t found t') :
    found = true ↔ t.read path = .ok text.toUTF8 := by
  have hresult := h.1
  unfold holdsText at hresult
  rw [Job.run] at hresult
  cases hread : t.read path with
  | error fault =>
    rw [hread] at hresult
    cases hresult
    simp
  | ok content =>
    rw [hread] at hresult
    cases hresult
    simp

/-- What the look at the old files tells, if it does not fail. -/
theorem isUpToDate_ends {t t' : FileTree} {headerPath : Path} {markerPath? : Option Path}
    {p : Product} {upToDate : Bool}
    (h : (isUpToDate headerPath markerPath? p).Ends t upToDate t') :
    upToDate = true ↔ Settled t headerPath markerPath? p := by
  unfold Settled SaysSame
  cases markerPath? with
  | none =>
    obtain ⟨rfl, -⟩ := Job.ends_done_iff.1 h
    simp
  | some markerPath =>
    obtain ⟨previous, between, hmarker, hlook⟩ := Job.ends_bind_iff.1 h
    obtain rfl := (readOnly_readMarker markerPath).tree_eq_of_ends hmarker
    obtain rfl := readMarker_ends hmarker
    split at hlook
    · next hsame =>
      rw [holdsText_ends hlook]
      rw [Option.any_eq_true] at hsame
      simp [hsame]
    · next hother =>
      obtain ⟨rfl, -⟩ := Job.ends_done_iff.1 hlook
      rw [Option.any_eq_true] at hother
      simp [hother]

/-! ## Writing the new ones -/

theorem saveText_ends {t t' : FileTree} {path : Path} {text : String}
    (h : (Build.saveText path text).Ends t () t') :
    Change [t.place path] ((foldersAbove path).map t.place) t t' ∧
      t'.read path = .ok text.toUTF8 := by
  obtain ⟨hresult, rfl⟩ := h
  unfold Build.saveText at hresult ⊢
  rw [Job.run] at hresult ⊢
  cases hlost : (t.save path text.toUTF8).2 with
  | none => exact save_eq_none hlost
  | some lost =>
    simp only [hlost] at hresult
    cases hresult

/-- Header and marker can be read back after they are written, if they are two files. -/
theorem write_ends {t t' : FileTree} {headerPath : Path} {markerPath? : Option Path} {p : Product}
    (apart : ∀ markerPath, markerPath? = some markerPath → t.place headerPath ≠ t.place markerPath)
    (h : (write headerPath markerPath? p).Ends t () t') :
    Change ((headerPath :: markerPath?.toList).map t.place)
        (((headerPath :: markerPath?.toList).flatMap foldersAbove).map t.place) t t' ∧
      t'.read headerPath = .ok p.header.text.toUTF8 ∧
      ∀ markerPath, markerPath? = some markerPath →
        t'.read markerPath = .ok p.marker.render.toUTF8 := by
  obtain ⟨⟨⟩, between, hheader, hrest⟩ := Job.ends_bind_iff.1 h
  obtain ⟨⟨⟩, between', hnote, hmarker⟩ := Job.ends_bind_iff.1 hrest
  obtain rfl : between' = between := hnote.2.symm
  obtain ⟨hchange, hread⟩ := saveText_ends hheader
  cases markerPath? with
  | none =>
    obtain ⟨-, rfl⟩ := Job.ends_done_iff.1 hmarker
    exact ⟨by simpa using hchange, hread, nofun⟩
  | some markerPath =>
    obtain ⟨hchange', hread'⟩ := saveText_ends hmarker
    rw [hchange.place_eq] at hchange'
    simp only [funext hchange.place_eq] at hchange'
    have hplace : between'.place headerPath ∉ [t.place markerPath] := by
      rw [hchange.place_eq, List.mem_singleton]
      exact apart markerPath rfl
    refine ⟨?_, hchange'.read_eq_ok hplace hread, ?_⟩
    · exact (hchange.mono (by simp) (by simp)).trans (hchange'.mono (by simp) (by simp))
    · rintro path ⟨⟩
      exact hread'

/-! ## The whole build -/

def directive (source : Path) : String := "cargo:rerun-if-changed=" ++ source.text ++ "\n"

def directives (b : HeaderBuild) : String :=
  if b.printsRerun then String.join (b.sources.map directive) else ""

theorem run_printRerun (sources : List Path) (t : FileTree) :
    (Build.printRerun sources).run t =
      ⟨.ok (), t, [], String.join (sources.map directive), ""⟩ := by
  induction sources with
  | nil => rfl
  | cons source rest ih =>
    rw [Build.printRerun, Job.run, ih, List.map_cons, String.join_cons]
    rfl

theorem run_conclude (b : HeaderBuild) (p : Product) (upToDate : Bool) (t : FileTree) :
    (b.conclude p upToDate).run t =
      ⟨.ok { p with headerWritten := !upToDate }, t, [], b.directives, ""⟩ := by
  unfold conclude directives
  by_cases hprints : b.printsRerun = true
  · rw [if_pos hprints, if_pos hprints, Job.bind_eq_bind, Job.run_bind, run_printRerun]
    simp
  · rw [if_neg hprints, if_neg hprints]
    rfl

theorem conclude_ends_iff {b : HeaderBuild} {t t' : FileTree} {p final : Product}
    {upToDate : Bool} :
    (b.conclude p upToDate).Ends t final t' ↔
      final = { p with headerWritten := !upToDate } ∧ t' = t := by
  unfold Job.Ends
  rw [run_conclude, Except.ok.injEq]
  exact and_congr eq_comm eq_comm

theorem generate_ends {b : HeaderBuild} {t t' : FileTree} {p : Product}
    (h : b.generate.Ends t p t') : t' = t ∧ p.headerWritten = false := by
  obtain ⟨c, -, rfl⟩ := generate_eq_productFor h
  refine ⟨?_, rfl⟩
  rw [← h.2, generate_tree]

theorem build_ends_iff {b : HeaderBuild} {t t' : FileTree} {p : Product} :
    b.build.Ends t p t' ↔
      ∃ headerPath product upToDate, b.headerPath? = some headerPath ∧
        b.generate.Ends t product t ∧
        (isUpToDate headerPath b.markerPath? product).Ends t upToDate t ∧
        (settle headerPath b.markerPath? product upToDate).Ends t () t' ∧
        p = { product with headerWritten := !upToDate } := by
  unfold build
  cases hheader : b.headerPath? with
  | none =>
    constructor
    · intro h
      cases h.1
    · rintro ⟨headerPath, product, upToDate, ⟨⟩, -⟩
  | some headerPath =>
    simp only [Job.bind_eq_bind]
    constructor
    · intro h
      obtain ⟨product, between, hgenerate, h⟩ := Job.ends_bind_iff.1 h
      obtain ⟨upToDate, between', hlook, h⟩ := Job.ends_bind_iff.1 h
      obtain ⟨⟨⟩, between'', hsettle, hconclude⟩ := Job.ends_bind_iff.1 h
      obtain ⟨rfl, -⟩ := generate_ends hgenerate
      obtain rfl := (readOnly_isUpToDate headerPath b.markerPath? product).tree_eq_of_ends hlook
      obtain ⟨rfl, rfl⟩ := conclude_ends_iff.1 hconclude
      exact ⟨headerPath, product, upToDate, rfl, hgenerate, hlook, hsettle, rfl⟩
    · rintro ⟨headerPath', product, upToDate, ⟨⟩, hgenerate, hlook, hsettle, rfl⟩
      refine Job.ends_bind_iff.2 ⟨product, t, hgenerate, ?_⟩
      refine Job.ends_bind_iff.2 ⟨upToDate, t, hlook, ?_⟩
      exact Job.ends_bind_iff.2 ⟨(), t', hsettle, conclude_ends_iff.2 ⟨rfl, rfl⟩⟩

/-- A build that ends well generates, looks at the old files and settles them. -/
theorem build_ends {b : HeaderBuild} {t t' : FileTree} {p : Product} (h : b.build.Ends t p t') :
    ∃ headerPath upToDate, b.headerPath? = some headerPath ∧ p.headerWritten = !upToDate ∧
      b.generate.Ends t { p with headerWritten := false } t ∧
      (upToDate = true ↔ Settled t headerPath b.markerPath? p) ∧
      (settle headerPath b.markerPath? p upToDate).Ends t () t' := by
  obtain ⟨headerPath, product, upToDate, hheader, hgenerate, hlook, hsettle, rfl⟩ :=
    build_ends_iff.1 h
  refine ⟨headerPath, upToDate, hheader, rfl, ?_, isUpToDate_ends hlook, hsettle⟩
  rw [← (generate_ends hgenerate).2]
  exact hgenerate

structure LeavesFresh (b : HeaderBuild) (t t' : FileTree) (p : Product) (headerPath : Path) :
    Prop where
  /-- The product is the one that generating gives on the tree before the build. -/
  generated : b.generate.Ends t { p with headerWritten := false } t
  header : t'.read headerPath = .ok p.header.text.toUTF8
  marker : ∀ markerPath, b.markerPath? = some markerPath →
    t'.read markerPath = .ok p.marker.render.toUTF8 ∨ SaysSame t' markerPath p
  /-- Only the two files were written, and only missing folders above them were made. -/
  change : Change (b.outputs.map t.place) ((b.outputs.flatMap foldersAbove).map t.place) t t'
  unwritten_iff : p.headerWritten = false ↔ Settled t headerPath b.markerPath? p
  untouched : p.headerWritten = false → t' = t

/-- Whatever stands in the tree, a build that ends well leaves no stale header, if header and marker
are two files. -/
theorem build_leaves_fresh (b : HeaderBuild) (t t' : FileTree) (p : Product)
    (apart : ∀ headerPath markerPath, b.headerPath? = some headerPath →
      b.markerPath? = some markerPath → t.place headerPath ≠ t.place markerPath)
    (ends : b.build.Ends t p t') :
    ∃ headerPath, b.headerPath? = some headerPath ∧ b.LeavesFresh t t' p headerPath := by
  obtain ⟨headerPath, upToDate, hheader, hwritten, hgenerate, hsettled, hsettle⟩ :=
    build_ends ends
  have houtputs : b.outputs = headerPath :: b.markerPath?.toList := by
    unfold outputs
    rw [hheader]
    rfl
  refine ⟨headerPath, hheader, ?_⟩
  cases upToDate with
  | true =>
    obtain rfl : t = t' := hsettle.2
    obtain ⟨markerPath, hmarker, hsame, hread⟩ := hsettled.1 rfl
    refine ⟨hgenerate, hread, ?_, Change.refl t, ?_, fun _ => rfl⟩
    · intro path hpath
      rw [hmarker] at hpath
      cases hpath
      exact Or.inr hsame
    · simpa [hwritten] using hsettled
  | false =>
    obtain ⟨hchange, hread, hmarker⟩ :=
      write_ends (fun markerPath => apart headerPath markerPath hheader) hsettle
    refine ⟨hgenerate, hread, fun path hpath => Or.inl (hmarker path hpath), ?_, ?_, ?_⟩
    · rw [houtputs]
      exact hchange
    · simpa [hwritten] using hsettled
    · simp [hwritten]

/-- A tree whose header was edited after the build that left the marker. -/
def editedTree : FileTree where
  workFolder := ["work"]
  entries := [
    (["work"], .folder),
    (["work", "Foo.h"], .file "int get(int)\n".toUTF8),
    (["work", "gen"], .folder),
    (["work", "gen", "lua.h"], .file "edited".toUTF8),
    (["work", "gen", "lua.stamp"], .file (Marker.render ⟨"5f2b", [⟨"Foo.h"⟩]⟩).toUTF8)]

def blindBuild : HeaderBuild :=
  { standard with
    sources := [⟨"Foo.h"⟩]
    headerPath? := some ⟨"gen/lua.h"⟩
    markerPath? := some ⟨"gen//lua.stamp"⟩
    fingerprint := fun _ => "5f2b" }

/-- The marker says the same as the new one, and still the edited header is written anew. -/
theorem blindBuild_leaves_fresh :
    ∃ p t', blindBuild.build.Ends editedTree p t' ∧ p.headerWritten = true ∧
      editedTree.place ⟨"gen/lua.h"⟩ ≠ editedTree.place ⟨"gen//lua.stamp"⟩ ∧
      blindBuild.LeavesFresh editedTree t' p ⟨"gen/lua.h"⟩ := by
  have hplaces : editedTree.place ⟨"gen/lua.h"⟩ ≠ editedTree.place ⟨"gen//lua.stamp"⟩ := by
    decide +kernel
  have hwritten : ((blindBuild.build.run editedTree).result.toOption.map (·.headerWritten)) =
      some true := by
    decide +kernel
  cases hresult : (blindBuild.build.run editedTree).result with
  | error failure =>
    rw [hresult] at hwritten
    cases hwritten
  | ok p =>
    rw [hresult] at hwritten
    obtain ⟨headerPath, hheader, hfresh⟩ :=
      build_leaves_fresh blindBuild editedTree _ p
        (by rintro headerPath markerPath ⟨⟩ ⟨⟩; exact hplaces) ⟨hresult, rfl⟩
    cases hheader
    exact ⟨p, _, ⟨hresult, rfl⟩, Option.some.inj hwritten, hplaces, hfresh⟩

end LuaGlue.HeaderBuild

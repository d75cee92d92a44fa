import LuaGlue.Proofs.Build.Staleness
import LuaGlue.Proofs.Marker

/-!
# Building again

A build that ends well leaves everything settled: the header can be read back, and so can the marker
if the paths of the sources are lines. The sources still hold what they held, so a second build at
once makes the same product, finds it up to date and keeps its hands off the tree.
-/

namespace LuaGlue

namespace HeaderBuild

open FileTree

/-- Header, marker and sources are pairwise different files. Sources may repeat. -/
structure FilesApart (b : HeaderBuild) (t : FileTree) (headerPath markerPath : Path) : Prop where
  outputs : t.place headerPath ≠ t.place markerPath
  header : ∀ source ∈ b.sources, t.place source ≠ t.place headerPath
  marker : ∀ source ∈ b.sources, t.place source ≠ t.place markerPath

/-! ## The first build leaves everything settled -/

theorem saysSame_of_read {t : FileTree} {path : Path} {p : Product} (hform : p.marker.WellFormed)
    (hread : t.read path = .ok p.marker.render.toUTF8) : SaysSame t path p := by
  refine ⟨p.marker, ?_, p.marker.sameAs_refl⟩
  unfold markerAt? Build.textAt?
  rw [hread]
  change (Text.ofUtf8? p.marker.render.toUTF8).bind Marker.read? = some p.marker
  rw [Text.ofUtf8?_toUTF8, Option.bind_some, hform.read?_render]

/-- Whether it writes or not, settling changes at most the two files and folders above them, and
leaves them settled. -/
theorem settle_ends {t t' : FileTree} {headerPath markerPath : Path} {p : Product}
    {upToDate : Bool} (hform : p.marker.WellFormed)
    (apart : t.place headerPath ≠ t.place markerPath)
    (hlook : upToDate = true → Settled t headerPath (some markerPath) p)
    (h : (settle headerPath (some markerPath) p upToDate).Ends t () t') :
    (∃ folders, Change [t.place headerPath, t.place markerPath] folders t t') ∧
      Settled t' headerPath (some markerPath) p := by
  cases upToDate with
  | true =>
    obtain rfl : t = t' := h.2
    exact ⟨⟨[], Change.refl t⟩, hlook rfl⟩
  | false =>
    have apart' : ∀ path, some markerPath = some path → t.place headerPath ≠ t.place path := by
      rintro path ⟨⟩
      exact apart
    change (write headerPath (some markerPath) p).Ends t () t' at h
    obtain ⟨hchange, hheader, hmarker⟩ := write_ends apart' h
    have hsame := saysSame_of_read hform (hmarker markerPath rfl)
    exact ⟨⟨_, hchange⟩, markerPath, rfl, hsame, hheader⟩

/-! ## The second build finds it so -/

theorem readMarker_of_markerAt? {t : FileTree} {path : Path} {m : Marker}
    (h : markerAt? t path = some m) : (readMarker path).Ends t (some m) t := by
  refine ⟨?_, (readOnly_readMarker path).tree_run t⟩
  obtain ⟨text, htext, hmarker⟩ := Option.bind_eq_some_iff.1 h
  obtain ⟨content, hread, hcontent⟩ := Build.textAt?_eq_some_iff.1 htext
  unfold readMarker
  rw [Job.run, hread]
  dsimp only
  rw [hcontent, ← hmarker]
  rfl

theorem holdsText_of_read {t : FileTree} {path : Path} {text : String}
    (h : t.read path = .ok text.toUTF8) : (holdsText path text).Ends t true t := by
  refine ⟨?_, (readOnly_holdsText path text).tree_run t⟩
  unfold holdsText
  rw [Job.run, h]
  simp

theorem isUpToDate_of_settled {t : FileTree} {headerPath : Path} {markerPath? : Option Path}
    {p : Product} (h : Settled t headerPath markerPath? p) :
    (isUpToDate headerPath markerPath? p).Ends t true t := by
  obtain ⟨markerPath, rfl, ⟨old, hold, hsame⟩, hread⟩ := h
  have hany : (some old).any (fun m => m.sameAs p.marker) = true := hsame
  unfold isUpToDate
  refine Job.ends_bind_iff.2 ⟨some old, t, readMarker_of_markerAt? hold, ?_⟩
  rw [if_pos hany]
  exact holdsText_of_read hread

theorem generate_reads {b : HeaderBuild} {t t' : FileTree} {p : Product}
    (h : b.generate.Ends t p t') {source : Path} (hsource : source ∈ b.sources) :
    ∃ content, t.read source = .ok content := by
  obtain ⟨c, hscan, -⟩ := generate_eq_productFor h
  have hends : (scan b.sources).Ends t c t := ⟨hscan, (readOnly_scan b.sources).tree_run t⟩
  obtain ⟨text, htext⟩ := Option.isSome_iff_exists.1 ((scan_ends_iff.1 hends).1 source hsource)
  obtain ⟨content, hread, -⟩ := Build.textAt?_eq_some_iff.1 htext
  exact ⟨content, hread⟩

theorem generate_marker {b : HeaderBuild} {t t' : FileTree} {p : Product}
    (h : b.generate.Ends t p t') : p.marker = ⟨b.fingerprint p.header.text, b.sources⟩ := by
  obtain ⟨c, -, rfl⟩ := generate_eq_productFor h
  rfl

/-- A change that leaves the sources alone does not change what is generated. -/
theorem generate_ends_of_change {b : HeaderBuild} {t t' : FileTree} {p : Product}
    {files folders : List Location} (hchange : Change files folders t t')
    (apart : ∀ source ∈ b.sources, t.place source ∉ files) (h : b.generate.Ends t p t) :
    b.generate.Ends t' p t' := by
  have hreads : ∀ source ∈ b.sources, t'.read source = t.read source := by
    intro source hsource
    obtain ⟨content, hread⟩ := generate_reads h hsource
    rw [hread, hchange.read_eq_ok (apart source hsource) hread]
  rw [Job.Ends, generate_run_congr hreads]
  exact ⟨h.1, rfl⟩

/-! ## What is printed -/

theorem silent_readMarker (path : Path) : (readMarker path).Silent := by
  intro t
  unfold readMarker
  rw [Job.run]
  rcases t.read path with fault | content
  · cases fault <;> rfl
  · cases htext : Text.ofUtf8? content <;> simp [htext]

theorem silent_holdsText (path : Path) (text : String) : (holdsText path text).Silent := by
  intro t
  unfold holdsText
  rw [Job.run]
  cases t.read path <;> rfl

theorem silent_isUpToDate (headerPath : Path) (markerPath? : Option Path) (p : Product) :
    (isUpToDate headerPath markerPath? p).Silent := by
  cases markerPath? with
  | none => exact fun t => rfl
  | some markerPath =>
    apply (silent_readMarker markerPath).bind
    intro previous
    split
    · exact silent_holdsText headerPath p.header.text
    · exact fun t => rfl

theorem silent_saveText (path : Path) (text : String) : (Build.saveText path text).Silent := by
  intro t
  unfold Build.saveText
  rw [Job.run]
  cases (t.save path text.toUTF8).2 <;> simp

theorem silent_settle (headerPath : Path) (markerPath? : Option Path) (p : Product)
    (upToDate : Bool) : (settle headerPath markerPath? p upToDate).Silent := by
  cases upToDate with
  | true => exact fun t => rfl
  | false =>
    apply (silent_saveText headerPath p.header.text).bind
    intro _
    apply Job.Silent.bind (fun t => rfl)
    intro _
    cases markerPath? with
    | none => exact fun t => rfl
    | some markerPath => exact silent_saveText markerPath p.marker.render

theorem output_build {b : HeaderBuild} {t t' : FileTree} {p : Product} (h : b.build.Ends t p t') :
    (b.build.run t).output = b.directives := by
  obtain ⟨headerPath, product, upToDate, hheader, hgenerate, hlook, hsettle, -⟩ :=
    build_ends_iff.1 h
  unfold build
  rw [hheader]
  simp only [Job.bind_eq_bind]
  rw [Job.output_bind_of_ends hgenerate, Job.output_bind_of_ends hlook,
    Job.output_bind_of_ends hsettle, silent_generate, silent_isUpToDate, silent_settle,
    run_conclude]
  simp

/-- A build that is run again at once makes the same product, prints the same, and finds everything
up to date, so that no byte of the tree changes. -/
theorem build_again (b : HeaderBuild) (t t' : FileTree) (p : Product) (headerPath markerPath : Path)
    (header : b.headerPath? = some headerPath) (marker : b.markerPath? = some markerPath)
    (fingerprint : b.fingerprint = Sha256.fingerprint)
    (apart : b.FilesApart t headerPath markerPath)
    (lines : ∀ source ∈ b.sources, Text.IsLine source.text.toList)
    (ends : b.build.Ends t p t') :
    b.build.Ends t' { p with headerWritten := false } t' ∧
      (b.build.run t').output = (b.build.run t).output := by
  obtain ⟨headerPath', product, upToDate, hheader, hgenerate, hlook, hsettle, rfl⟩ :=
    build_ends_iff.1 ends
  obtain rfl : headerPath = headerPath' := Option.some.inj (header.symm.trans hheader)
  rw [marker] at hlook hsettle
  have hform : product.marker.WellFormed := by
    rw [generate_marker hgenerate, fingerprint]
    exact Marker.wellFormed_fingerprint product.header.text lines
  obtain ⟨⟨folders, hchange⟩, hsettled⟩ :=
    settle_ends hform apart.outputs (isUpToDate_ends hlook).1 hsettle
  have hgenerate' : b.generate.Ends t' product t' := by
    apply generate_ends_of_change hchange _ hgenerate
    intro source hsource
    simpa using ⟨apart.header source hsource, apart.marker source hsource⟩
  have again : b.build.Ends t' { product with headerWritten := false } t' := by
    refine build_ends_iff.2 ⟨headerPath, product, true, header, hgenerate', ?_, ⟨rfl, rfl⟩, rfl⟩
    rw [marker]
    exact isUpToDate_of_settled hsettled
  exact ⟨again, (output_build again).trans (output_build ends).symm⟩

/-- A build of one file, given three times under two names. -/
def repeatingBuild : HeaderBuild :=
  { standard with
    sources := [⟨"Foo.h"⟩, ⟨".//Foo.h"⟩, ⟨"Foo.h"⟩]
    headerPath? := some ⟨"gen/lua.h"⟩
    markerPath? := some ⟨"out/lua.stamp"⟩
    printsRerun := true }

/-- The first build replaces the edited header, the second one writes nothing. -/
theorem repeatingBuild_again :
    ∃ p t', repeatingBuild.FilesApart editedTree ⟨"gen/lua.h"⟩ ⟨"out/lua.stamp"⟩ ∧
      (∀ source ∈ repeatingBuild.sources, Text.IsLine source.text.toList) ∧
      repeatingBuild.build.Ends editedTree p t' ∧ p.headerWritten = true ∧
      repeatingBuild.build.Ends t' { p with headerWritten := false } t' ∧
      (repeatingBuild.build.run t').output = (repeatingBuild.build.run editedTree).output := by
  have hapart : repeatingBuild.FilesApart editedTree ⟨"gen/lua.h"⟩ ⟨"out/lua.stamp"⟩ :=
    ⟨by decide +kernel, by decide +kernel, by decide +kernel⟩
  have hlines : ∀ source ∈ repeatingBuild.sources, Text.IsLine source.text.toList := by
    intro source hsource
    have hone : ∀ source ∈ repeatingBuild.sources, '\n' ∉ source.text.toList := by decide
    have hend : ∀ source ∈ repeatingBuild.sources, source.text.toList.getLast? ≠ some '\r' := by
      decide
    exact ⟨hone source hsource, hend source hsource⟩
  have hresult : (repeatingBuild.build.run editedTree).result.map (·.headerWritten) =
      .ok true := by
    decide +kernel
  obtain ⟨p, hends, hwritten⟩ := Job.exists_ends_of_map hresult
  have hagain := build_again repeatingBuild editedTree _ p ⟨"gen/lua.h"⟩ ⟨"out/lua.stamp"⟩ rfl rfl
    rfl hapart hlines hends
  exact ⟨p, _, hapart, hlines, hends, hwritten, hagain⟩

end HeaderBuild

end LuaGlue

import LuaGlue.Proofs.Build.Failure
import LuaGlue.Proofs.FileTree.Alike

/-!
# What an old marker decides

A build looks at the marker that an earlier build left, and every text there counts for as much as
no marker: it decides only whether the files are written again. Bytes that are no text stop the
build.
-/

namespace LuaGlue.HeaderBuild

open FileTree

/-- A file at a path holds bytes that are no text. -/
def Garbled (t : FileTree) (path : Path) : Prop :=
  (t.read path).isOk = true ∧ Build.textAt? t path = none

instance (t : FileTree) (path : Path) : Decidable (Garbled t path) :=
  inferInstanceAs (Decidable (_ ∧ _))

def MarkerFails (t : FileTree) (path : Path) : Prop :=
  (readMarker path).Fails t (.unreadable path) t

/-! ## Reading the old marker -/

theorem readMarker_cases (t : FileTree) (path : Path) :
    MarkerFails t path ∨ ∃ found, (readMarker path).Ends t found t := by
  have htree := (readOnly_readMarker path).tree_run t
  unfold MarkerFails Job.Fails Job.Ends
  simp only [htree, and_true]
  unfold readMarker
  rw [Job.run]
  cases t.read path with
  | error fault =>
    cases fault with
    | missing => exact Or.inr ⟨none, rfl⟩
    | _ => exact Or.inl rfl
  | ok content =>
    dsimp only
    cases Text.ofUtf8? content with
    | none => exact Or.inl rfl
    | some text => exact Or.inr ⟨Marker.read? text, rfl⟩

theorem markerFails_iff_garbled {t : FileTree} {path : Path} {content : ByteArray}
    (h : t.read path = .ok content) : MarkerFails t path ↔ Garbled t path := by
  have htree := (readOnly_readMarker path).tree_run t
  unfold MarkerFails Job.Fails Garbled Build.textAt?
  rw [htree, readMarker, Job.run, h]
  cases htext : Text.ofUtf8? content <;> simp [htext, Except.isOk, Except.toBool]

theorem markerFails_iff_of_alike {location : Location} {t t' : FileTree}
    (alike : AlikeBut location t t') (path : Path) :
    (MarkerFails t path ↔ MarkerFails t' path) ↔ (Garbled t path ↔ Garbled t' path) := by
  rcases alike.read_cases path with same | ⟨⟨content, hread⟩, content', hread'⟩
  · have hfails : MarkerFails t path ↔ MarkerFails t' path := by
      have htree := (readOnly_readMarker path).tree_run
      unfold MarkerFails Job.Fails
      rw [htree, htree, readMarker, Job.run, Job.run, same]
      cases t.read path with
      | error fault => cases fault <;> simp
      | ok content => cases htext : Text.ofUtf8? content <;> simp [htext]
    have hgarbled : Garbled t path ↔ Garbled t' path := by
      unfold Garbled Build.textAt?
      rw [same]
    exact iff_of_true hfails hgarbled
  · rw [markerFails_iff_garbled hread, markerFails_iff_garbled hread']

theorem isUpToDate_of_not_markerFails {t : FileTree} {path : Path} (h : ¬MarkerFails t path)
    (headerPath : Path) (p : Product) :
    ∃ upToDate, (isUpToDate headerPath (some path) p).Ends t upToDate t := by
  obtain ⟨found, hfound⟩ := (readMarker_cases t path).resolve_left h
  have hlook : ∃ upToDate, Job.Ends (if found.any fun m => m.sameAs p.marker then
      holdsText headerPath p.header.text else return false) t upToDate t := by
    split
    · have htree := (readOnly_holdsText headerPath p.header.text).tree_run t
      unfold Job.Ends
      rw [htree, holdsText, Job.run]
      cases t.read headerPath with
      | error fault => exact ⟨false, rfl, rfl⟩
      | ok content => exact ⟨_, rfl, rfl⟩
    · exact ⟨false, rfl, rfl⟩
  obtain ⟨upToDate, hends⟩ := hlook
  exact ⟨upToDate, Job.ends_bind_iff.2 ⟨found, t, hfound, hends⟩⟩

/-! ## Settling -/

theorem readsAt_settle (P : Path → Prop) (headerPath : Path) (markerPath? : Option Path)
    (p : Product) (upToDate : Bool) : (settle headerPath markerPath? p upToDate).ReadsAt P := by
  cases upToDate with
  | true => trivial
  | false =>
    rintro (lost | above)
    · cases markerPath? with
      | none => trivial
      | some markerPath =>
        rintro (lost | above)
        · trivial
        · trivial
    · trivial

theorem saveText_onto {t : FileTree} {path : Path} {old : ByteArray} (h : t.read path = .ok old)
    (text : String) :
    (Build.saveText path text).Ends t () (t.insert (t.place path) (.file text.toUTF8)) := by
  unfold Job.Ends Build.saveText
  rw [Job.run, save_of_read h]
  exact ⟨rfl, rfl⟩

/-- Over a marker and a header that is there already both can be written again, and then only the
marker is another one. -/
theorem write_onto {t : FileTree} {headerPath markerPath : Path} {p : Product} {old : ByteArray}
    (hheader : t.read headerPath = .ok p.header.text.toUTF8)
    (hmarker : t.read markerPath = .ok old) :
    ∃ t', (write headerPath (some markerPath) p).Ends t () t' ∧
      AlikeBut (t.place markerPath) t t' := by
  let written := t.insert (t.place headerPath) (.file p.header.text.toUTF8)
  let marked := written.insert (t.place markerPath) (.file p.marker.render.toUTF8)
  have hsave : (Build.saveText headerPath p.header.text).Ends t () written :=
    saveText_onto hheader _
  have hwritten : AlikeBut (t.place markerPath) t written :=
    .of_insert (read_eq_ok_iff.1 hheader).2 (fun _ => rfl) ⟨old, (read_eq_ok_iff.1 hmarker).2⟩
  obtain ⟨old', hmarker'⟩ := hwritten.read_eq_ok hmarker
  have hsave' := saveText_onto hmarker' p.marker.render
  have hentry := (read_eq_ok_iff.1 hmarker').2
  rw [hwritten.place_eq] at hsave' hentry
  have hmarked : AlikeBut (t.place markerPath) written marked :=
    .of_insert hentry (fun hother => absurd rfl hother) hwritten.after
  refine ⟨marked, ?_, hwritten.trans hmarked⟩
  refine Job.ends_bind_iff.2 ⟨(), written, hsave, ?_⟩
  exact Job.ends_bind_iff.2 ⟨(), written, ⟨rfl, rfl⟩, hsave'⟩

theorem write_onto_settled {t t' : FileTree} {headerPath markerPath : Path} {p : Product}
    (alike : AlikeBut (t.place markerPath) t t')
    (apart : t.place headerPath ≠ t.place markerPath)
    (hsettled : Settled t headerPath (some markerPath) p) :
    ∃ t'', (write headerPath (some markerPath) p).Ends t' () t'' ∧
      AlikeBut (t.place markerPath) t t'' := by
  obtain ⟨path, hpath, ⟨m, hmarker, -⟩, hheader⟩ := hsettled
  obtain rfl := Option.some.inj hpath
  obtain ⟨text, htext, -⟩ := Option.bind_eq_some_iff.1 hmarker
  obtain ⟨content, hread, -⟩ := Build.textAt?_eq_some_iff.1 htext
  have hheader' := (alike.read_eq apart).trans hheader
  obtain ⟨old, hread'⟩ := alike.read_eq_ok hread
  obtain ⟨t'', hends, halike⟩ := write_onto hheader' hread'
  rw [alike.place_eq] at halike
  exact ⟨t'', hends, alike.trans halike⟩

/-- Settling ends in the same way whether or not one of the trees was found to be up to date. -/
theorem settle_alike {t t' : FileTree} {headerPath markerPath : Path} {p : Product}
    {upToDate upToDate' : Bool} (alike : AlikeBut (t.place markerPath) t t')
    (apart : t.place headerPath ≠ t.place markerPath)
    (hlook : upToDate = true → Settled t headerPath (some markerPath) p)
    (hlook' : upToDate' = true → Settled t' headerPath (some markerPath) p) :
    ((settle headerPath (some markerPath) p upToDate').run t').result =
        ((settle headerPath (some markerPath) p upToDate).run t).result ∧
      AlikeBut (t.place markerPath)
        ((settle headerPath (some markerPath) p upToDate).run t).tree
        ((settle headerPath (some markerPath) p upToDate').run t').tree := by
  have hsame : ∀ upToDate, _ := fun upToDate =>
    Job.run_alike (readsAt_settle (fun _ => False) headerPath (some markerPath) p upToDate) alike
      nofun
  -- what was found up to date on one tree only is written on the other one over the same header
  cases upToDate with
  | true =>
    cases upToDate' with
    | true => exact ⟨rfl, alike⟩
    | false =>
      obtain ⟨t'', hends, halike⟩ := write_onto_settled alike apart (hlook rfl)
      obtain ⟨hresult, rfl⟩ := hends
      exact ⟨hresult, halike⟩
  | false =>
    cases upToDate' with
    | true =>
      have apart' : t'.place headerPath ≠ t'.place markerPath := by
        rwa [alike.place_eq, alike.place_eq]
      have alike' : AlikeBut (t'.place markerPath) t' t := by
        rw [alike.place_eq]
        exact alike.symm
      obtain ⟨t'', hends, halike⟩ := write_onto_settled alike' apart' (hlook' rfl)
      obtain ⟨hresult, rfl⟩ := hends
      rw [alike.place_eq] at halike
      exact ⟨hresult.symm, halike.symm⟩
    | false => exact ⟨(hsame false).result, (hsame false).tree⟩

/-! ## The whole build -/

/-- The product apart from the note whether its header was written. -/
def Product.unwritten (p : Product) : Product := { p with headerWritten := false }

/-- Two builds end with the same product or the same failure and leave the same header, and their
trees differ at most in the bytes of one file. -/
structure EndAlike (b : HeaderBuild) (location : Location) (r r' : Run Failure Product) : Prop where
  result : r'.result.map Product.unwritten = r.result.map Product.unwritten
  header : ∀ headerPath, b.headerPath? = some headerPath →
    r'.tree.read headerPath = r.tree.read headerPath
  tree : AlikeBut location r.tree r'.tree

theorem build_run_of_look {b : HeaderBuild} {t : FileTree} {headerPath : Path} {p : Product}
    {upToDate : Bool} (header : b.headerPath? = some headerPath) (hgenerate : b.generate.Ends t p t)
    (hlook : (isUpToDate headerPath b.markerPath? p).Ends t upToDate t) :
    (b.build.run t).result =
        ((settle headerPath b.markerPath? p upToDate).run t).result.map
          (fun _ => { p with headerWritten := !upToDate }) ∧
      (b.build.run t).tree = ((settle headerPath b.markerPath? p upToDate).run t).tree := by
  unfold build
  rw [header]
  dsimp only
  simp only [Job.bind_eq_bind]
  rw [Job.run_bind, hgenerate.1, hgenerate.2]
  dsimp only
  rw [Job.run_bind, hlook.1, hlook.2]
  dsimp only
  rw [Job.run_bind]
  cases ((settle headerPath b.markerPath? p upToDate).run t).result with
  | error failure => exact ⟨rfl, rfl⟩
  | ok value =>
    dsimp only
    rw [run_conclude]
    exact ⟨rfl, rfl⟩

theorem build_fails_of_markerFails {b : HeaderBuild} {t : FileTree} {headerPath markerPath : Path}
    {p : Product} (header : b.headerPath? = some headerPath)
    (marker : b.markerPath? = some markerPath) (hgenerate : b.generate.Ends t p t)
    (h : MarkerFails t markerPath) : b.build.Fails t (.unreadable markerPath) t := by
  have hlook : (isUpToDate headerPath b.markerPath? p).Fails t (.unreadable markerPath) t := by
    rw [marker]
    exact Job.fails_bind_iff.2 (Or.inl h)
  unfold build
  rw [header]
  refine Job.fails_bind_iff.2 (Or.inr ⟨p, t, hgenerate, ?_⟩)
  exact Job.fails_bind_iff.2 (Or.inl hlook)

namespace EndAlike

variable {b : HeaderBuild} {location : Location}

theorem symm {r r' : Run Failure Product} (h : b.EndAlike location r r') :
    b.EndAlike location r' r :=
  ⟨h.result.symm, fun headerPath hheader => (h.header headerPath hheader).symm, h.tree.symm⟩

/-- The header is not the one file, so it is left the same. -/
theorem of_runs {t t' : FileTree}
    (apart : ∀ headerPath, b.headerPath? = some headerPath → t.place headerPath ≠ location)
    (result : (b.build.run t').result.map Product.unwritten =
      (b.build.run t).result.map Product.unwritten)
    (tree : AlikeBut location (b.build.run t).tree (b.build.run t').tree) :
    b.EndAlike location (b.build.run t) (b.build.run t') := by
  refine ⟨result, fun headerPath hheader => tree.read_eq ?_, tree⟩
  rw [place_congr (b.build.workFolder_run t)]
  exact apart headerPath hheader

theorem of_fails {t t' : FileTree} {failure : Failure}
    (apart : ∀ headerPath, b.headerPath? = some headerPath → t.place headerPath ≠ location)
    (alike : AlikeBut location t t') (hfails : b.build.Fails t failure t)
    (hfails' : b.build.Fails t' failure t') :
    b.EndAlike location (b.build.run t) (b.build.run t') := by
  refine of_runs apart ?_ ?_
  · rw [hfails.1, hfails'.1]
  · rw [hfails.2, hfails'.2]
    exact alike

end EndAlike

section

variable {b : HeaderBuild} {t t' : FileTree} {headerPath markerPath : Path} {p : Product}

theorem endAlike_of_not_markerFails (header : b.headerPath? = some headerPath)
    (marker : b.markerPath? = some markerPath) (alike : AlikeBut (t.place markerPath) t t')
    (apart : t.place headerPath ≠ t.place markerPath) (hgenerate : b.generate.Ends t p t)
    (hgenerate' : b.generate.Ends t' p t') (h : ¬MarkerFails t markerPath)
    (h' : ¬MarkerFails t' markerPath) :
    b.EndAlike (t.place markerPath) (b.build.run t) (b.build.run t') := by
  obtain ⟨upToDate, hlook⟩ := isUpToDate_of_not_markerFails h headerPath p
  obtain ⟨upToDate', hlook'⟩ := isUpToDate_of_not_markerFails h' headerPath p
  obtain ⟨hresult, htree⟩ :=
    settle_alike alike apart (isUpToDate_ends hlook).1 (isUpToDate_ends hlook').1
  rw [← marker] at hlook hlook' hresult htree
  obtain ⟨hbuild, hleft⟩ := build_run_of_look header hgenerate hlook
  obtain ⟨hbuild', hleft'⟩ := build_run_of_look header hgenerate' hlook'
  refine .of_runs ?_ ?_ ?_
  · intro path hpath
    obtain rfl := Option.some.inj (header.symm.trans hpath)
    exact apart
  · rw [hbuild, hbuild', hresult]
    cases ((settle headerPath b.markerPath? p upToDate).run t).result <;> rfl
  · rw [hleft, hleft']
    exact htree

/-- Where the look at the marker does not fail, the build does not fail for the reason for which it
fails otherwise. -/
theorem not_fails_unreadable (header : b.headerPath? = some headerPath)
    (marker : b.markerPath? = some markerPath) (hgenerate : b.generate.Ends t p t)
    (h : ¬MarkerFails t markerPath) (path : Path) :
    (b.build.run t).result ≠ .error (.unreadable path) := by
  intro hresult
  obtain ⟨upToDate, hlook⟩ := isUpToDate_of_not_markerFails h headerPath p
  rw [← marker] at hlook
  rw [(build_run_of_look header hgenerate hlook).1] at hresult
  cases upToDate with
  | true => cases hresult
  | false =>
    have hwrite : (write headerPath b.markerPath? p).Fails t (.unreadable path) _ :=
      Job.fails_of_map hresult
    rcases write_fails hwrite with ⟨hfailure, -⟩ | ⟨lost, -, hfailure, -⟩
    · cases hfailure
    · cases hfailure

theorem not_endAlike_of_markerFails (header : b.headerPath? = some headerPath)
    (marker : b.markerPath? = some markerPath) {location : Location}
    (hgenerate : b.generate.Ends t p t) (hgenerate' : b.generate.Ends t' p t')
    (h : MarkerFails t markerPath) (h' : ¬MarkerFails t' markerPath) :
    ¬b.EndAlike location (b.build.run t) (b.build.run t') := by
  intro halike
  have hresult := halike.result
  rw [(build_fails_of_markerFails header marker hgenerate h).1] at hresult
  obtain ⟨hfails, -⟩ := Job.fails_of_map hresult
  exact not_fails_unreadable header marker hgenerate' h' markerPath hfails

end

/-- Two trees that differ in the bytes of an old marker give the same product or the same failure
and the same header, unless these bytes are no text in exactly one of them and the build gets as far
as to read them. -/
theorem build_endAlike_iff (b : HeaderBuild) (t t' : FileTree) (markerPath : Path)
    (marker : b.markerPath? = some markerPath) (alike : AlikeBut (t.place markerPath) t t')
    (sources : ∀ source ∈ b.sources, t.place source ≠ t.place markerPath)
    (header : ∀ headerPath, b.headerPath? = some headerPath →
      t.place headerPath ≠ t.place markerPath) :
    b.EndAlike (t.place markerPath) (b.build.run t) (b.build.run t') ↔
      (b.headerPath? ≠ none → (b.generate.run t).result.isOk = true →
        (Garbled t markerPath ↔ Garbled t' markerPath)) := by
  have hrun : b.generate.run t' = { b.generate.run t with tree := t' } :=
    generate_run_congr fun source hsource => alike.read_eq (sources source hsource)
  cases hheader : b.headerPath? with
  | none =>
    have hfails : ∀ t, b.build.Fails t (.outputNotSet .bindingHeader) t := by
      intro t
      unfold build
      rw [hheader]
      exact ⟨rfl, rfl⟩
    exact iff_of_true (.of_fails header alike (hfails t) (hfails t')) fun hnone => absurd rfl hnone
  | some headerPath =>
    have hsome : b.headerPath? ≠ none := by
      rw [hheader]
      exact nofun
    cases hresult : (b.generate.run t).result with
    | error failure =>
      have hresult' : (b.generate.run t').result = .error failure := by
        rw [hrun, hresult]
      obtain ⟨htree, hfailure⟩ := build_of_generate_error hresult
      obtain ⟨htree', hfailure'⟩ := build_of_generate_error hresult'
      refine iff_of_true ?_ fun _ => nofun
      exact .of_fails header alike ⟨hfailure hsome, htree⟩ ⟨hfailure' hsome, htree'⟩
    | ok p =>
      have hgenerate : b.generate.Ends t p t := ⟨hresult, generate_tree b t⟩
      have hgenerate' : b.generate.Ends t' p t' := by
        rw [Job.Ends, hrun]
        exact ⟨hresult, rfl⟩
      have hreaches : (some headerPath ≠ none → (Except.ok p : Except Failure Product).isOk = true →
          (Garbled t markerPath ↔ Garbled t' markerPath)) ↔
          (MarkerFails t markerPath ↔ MarkerFails t' markerPath) := by
        rw [markerFails_iff_of_alike alike]
        exact ⟨fun h => h nofun rfl, fun h _ _ => h⟩
      rw [hreaches]
      -- the look at the marker fails on both trees, on one of them, or on neither
      by_cases h : MarkerFails t markerPath
      · by_cases h' : MarkerFails t' markerPath
        · have hfails := build_fails_of_markerFails hheader marker hgenerate h
          have hfails' := build_fails_of_markerFails hheader marker hgenerate' h'
          exact iff_of_true (.of_fails header alike hfails hfails') (iff_of_true h h')
        · refine iff_of_false ?_ fun hiff => h' (hiff.1 h)
          exact not_endAlike_of_markerFails hheader marker hgenerate hgenerate' h h'
      · by_cases h' : MarkerFails t' markerPath
        · refine iff_of_false (fun halike => ?_) fun hiff => h (hiff.2 h')
          exact not_endAlike_of_markerFails hheader marker hgenerate' hgenerate h' h halike.symm
        · refine iff_of_true ?_ (iff_of_false h h')
          exact endAlike_of_not_markerFails hheader marker alike (header headerPath hheader)
            hgenerate hgenerate' h h'

def madeText (t : FileTree) : String :=
  match (blindBuild.generate.run t).result with
  | .ok p => p.header.text
  | .error _ => ""

def markedTree (mark : ByteArray) : FileTree where
  workFolder := ["work"]
  entries := [
    (["work"], .folder),
    (["work", "Foo.h"], .file "int get(int)\n".toUTF8),
    (["work", "gen"], .folder),
    (["work", "gen", "lua.h"], .file (madeText editedTree).toUTF8),
    (["work", "gen", "lua.stamp"], .file mark)]

theorem markedTree_alike (mark mark' : ByteArray) :
    AlikeBut ((markedTree mark).place ⟨"gen//lua.stamp"⟩) (markedTree mark)
      (markedTree mark') := by
  have hplace : editedTree.place ⟨"gen//lua.stamp"⟩ = ["work", "gen", "lua.stamp"] := by
    decide +kernel
  have hfolder : (markedTree mark).workFolder = editedTree.workFolder := rfl
  rw [place_congr hfolder, hplace]
  have hinsert : markedTree mark' =
      (markedTree mark).insert ["work", "gen", "lua.stamp"] (.file mark') := rfl
  rw [hinsert]
  exact .of_insert rfl (fun hother => absurd rfl hother) ⟨mark, rfl⟩

def ownMark : ByteArray := (Marker.render ⟨"5f2b", [⟨"Foo.h"⟩]⟩).toUTF8

def foreignMark : ByteArray := "#pragma once\n".toUTF8

/-- The header is there already: the build ends alike over its own marker and over a text that is no
marker. -/
theorem blindBuild_endAlike :
    AlikeBut ((markedTree ownMark).place ⟨"gen//lua.stamp"⟩) (markedTree ownMark)
        (markedTree foreignMark) ∧
      (∀ source ∈ blindBuild.sources,
        (markedTree ownMark).place source ≠ (markedTree ownMark).place ⟨"gen//lua.stamp"⟩) ∧
      (∀ headerPath, blindBuild.headerPath? = some headerPath →
        (markedTree ownMark).place headerPath ≠
          (markedTree ownMark).place ⟨"gen//lua.stamp"⟩) ∧
      blindBuild.EndAlike ((markedTree ownMark).place ⟨"gen//lua.stamp"⟩)
        (blindBuild.build.run (markedTree ownMark))
        (blindBuild.build.run (markedTree foreignMark)) := by
  have halike := markedTree_alike ownMark foreignMark
  have hsources : ∀ source ∈ blindBuild.sources,
      (markedTree ownMark).place source ≠ (markedTree ownMark).place ⟨"gen//lua.stamp"⟩ := by
    decide +kernel
  have hheader : ∀ headerPath, blindBuild.headerPath? = some headerPath →
      (markedTree ownMark).place headerPath ≠ (markedTree ownMark).place ⟨"gen//lua.stamp"⟩ := by
    rintro headerPath ⟨⟩
    decide +kernel
  have hgarbled : ¬Garbled (markedTree ownMark) ⟨"gen//lua.stamp"⟩ := by decide +kernel
  have hgarbled' : ¬Garbled (markedTree foreignMark) ⟨"gen//lua.stamp"⟩ := by decide +kernel
  have hends := build_endAlike_iff blindBuild (markedTree ownMark) (markedTree foreignMark)
    ⟨"gen//lua.stamp"⟩ rfl halike hsources hheader
  exact ⟨halike, hsources, hheader, hends.2 fun _ _ => iff_of_false hgarbled hgarbled'⟩

def stampedBuild : HeaderBuild :=
  { standard with
    sources := [⟨"Foo.h"⟩]
    headerPath? := some ⟨"gen/lua.h"⟩
    markerPath? := some ⟨"gen/lua.stamp"⟩ }

/-- The trees differ in the marker, and a single byte that is no text stops the build. -/
theorem stampedBuild_fails_garbled :
    AlikeBut ((markedTree foreignMark).place ⟨"gen/lua.stamp"⟩) (markedTree foreignMark)
        (markedTree ⟨#[0xff]⟩) ∧
      (∀ source ∈ stampedBuild.sources,
        (markedTree foreignMark).place source ≠
          (markedTree foreignMark).place ⟨"gen/lua.stamp"⟩) ∧
      (markedTree foreignMark).place ⟨"gen/lua.h"⟩ ≠
        (markedTree foreignMark).place ⟨"gen/lua.stamp"⟩ ∧
      (stampedBuild.build.run (markedTree foreignMark)).result.map (fun _ => ()) = .ok () ∧
      (stampedBuild.build.run (markedTree ⟨#[0xff]⟩)).result.map (fun _ => ()) =
        .error (.unreadable ⟨"gen/lua.stamp"⟩) := by
  have hplace : (markedTree foreignMark).place ⟨"gen/lua.stamp"⟩ =
      (markedTree foreignMark).place ⟨"gen//lua.stamp"⟩ := by
    decide +kernel
  have halike := markedTree_alike foreignMark ⟨#[0xff]⟩
  rw [← hplace] at halike
  exact ⟨halike, by decide +kernel, by decide +kernel, by decide +kernel, by decide +kernel⟩

end LuaGlue.HeaderBuild

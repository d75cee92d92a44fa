import LuaGlue.Build.HeaderBuild
import LuaGlue.Proofs.Catalog.Log
import LuaGlue.Proofs.Job

/-!
# Scanning declaration files

A scan only reads. It ends well exactly if every source holds a text, and then its catalog has one
type for each name, in the order in which the sources first lead to it, with the members that the
sources of the name declare.
-/

namespace LuaGlue

namespace Build

def textAt? (t : FileTree) (path : Path) : Option String :=
  match t.read path with
  | .ok content => Text.ofUtf8? content
  | .error _ => none

theorem textAt?_eq_some_iff {t : FileTree} {path : Path} {text : String} :
    textAt? t path = some text ↔
      ∃ content, t.read path = .ok content ∧ Text.ofUtf8? content = some text := by
  unfold textAt?
  cases t.read path with
  | error fault => simp
  | ok content => simp

theorem readOnly_readText (path : Path) : (readText path).ReadOnly := by
  rintro (fault | content)
  · trivial
  · dsimp only
    split <;> trivial

theorem silent_readText (path : Path) : (readText path).Silent := by
  intro t
  unfold readText
  rw [Job.run]
  cases t.read path with
  | error fault => rfl
  | ok content => cases htext : Text.ofUtf8? content <;> simp [htext]

theorem readText_ends_iff {t t' : FileTree} {path : Path} {text : String} :
    (readText path).Ends t text t' ↔ textAt? t path = some text ∧ t' = t := by
  have htree := (readOnly_readText path).tree_run t
  unfold Job.Ends
  rw [htree, eq_comm (a := t)]
  refine and_congr_left fun _ => ?_
  unfold readText textAt?
  rw [Job.run]
  cases hread : t.read path with
  | error fault => simp
  | ok content => cases htext : Text.ofUtf8? content <;> simp [htext]

end Build

namespace HeaderBuild

open Catalog (Operation ofLog)

def declaredIn (t : FileTree) (source : Path) : List Member :=
  Declaration.readAll ((Build.textAt? t source).getD "")

def sourcesFor (sources : List Path) (name : String) : List Path :=
  sources.filter fun source => typeName source = name

def declaredTypes (t : FileTree) (sources : List Path) : List HostType :=
  (sources.map typeName).eraseDups.map fun name =>
    ⟨name, sourcesFor sources name, (sourcesFor sources name).flatMap (declaredIn t)⟩

def operationFor (t : FileTree) (source : Path) : Operation :=
  .addSource (typeName source) source (declaredIn t source)

@[simp] theorem name_operationFor (t : FileTree) (source : Path) :
    (operationFor t source).name = typeName source := rfl

theorem readOnly_scanInto (c : Catalog) (sources : List Path) :
    (scanInto c sources).ReadOnly := by
  induction sources generalizing c with
  | nil => trivial
  | cons source rest ih => exact (Build.readOnly_readText source).bind fun text => ih _

theorem readOnly_scan (sources : List Path) : (scan sources).ReadOnly :=
  readOnly_scanInto .empty sources

/-- The members that what is found at a source declares, or why it holds no text. -/
def declared (source : Path) : Except FileTree.Fault ByteArray → Except Failure (List Member)
  | .ok content =>
    match Text.ofUtf8? content with
    | some text => .ok (Declaration.readAll text)
    | none => .error (.unreadable source)
  | .error fault => .error (Build.readFailure source fault)

theorem scanInto_cons_run (c : Catalog) (source : Path) (rest : List Path) (t : FileTree) :
    (scanInto c (source :: rest)).run t =
      match declared source (t.read source) with
      | .ok members =>
        (Job.report (scanned source (typeName source) members)
          (scanInto (c.addSource (typeName source) source members) rest)).run t
      | .error failure => (Job.fail failure : Job Failure Catalog).run t := by
  rw [scanInto, Build.readText, Job.bind, Job.run]
  unfold declared
  cases t.read source with
  | error fault => rfl
  | ok content => cases htext : Text.ofUtf8? content <;> simp [htext, Job.bind]

theorem scanInto_run_of_declared {t t' : FileTree} {c : Catalog} {sources : List Path}
    (h : ∀ source ∈ sources,
      declared source (t'.read source) = declared source (t.read source)) :
    (scanInto c sources).run t' = { (scanInto c sources).run t with tree := t' } := by
  induction sources generalizing c with
  | nil => rfl
  | cons source rest ih =>
    obtain ⟨hsource, hrest⟩ := List.forall_mem_cons.1 h
    rw [scanInto_cons_run, scanInto_cons_run, hsource]
    cases declared source (t.read source) with
    | error failure => rfl
    | ok members => simp only [Job.run, ih hrest]

theorem silent_scanInto (c : Catalog) (sources : List Path) : (scanInto c sources).Silent := by
  induction sources generalizing c with
  | nil => exact fun t => rfl
  | cons source rest ih => exact (Build.silent_readText source).bind fun text => ih _

theorem scanInto_ends_iff {t t' : FileTree} {c final : Catalog} {sources : List Path} :
    (scanInto c sources).Ends t final t' ↔
      (∀ source ∈ sources, (Build.textAt? t source).isSome) ∧
        final = (sources.map (operationFor t)).foldl Operation.apply c ∧ t' = t := by
  induction sources generalizing c with
  | nil =>
    rw [scanInto, Job.ends_done_iff]
    constructor
    · rintro ⟨rfl, rfl⟩
      exact ⟨nofun, rfl, rfl⟩
    · rintro ⟨-, rfl, rfl⟩
      exact ⟨rfl, rfl⟩
  | cons source rest ih =>
    rw [scanInto, Job.ends_bind_iff, List.forall_mem_cons, List.map_cons, List.foldl_cons]
    constructor
    · rintro ⟨text, between, htext, hrest⟩
      obtain ⟨htext, rfl⟩ := Build.readText_ends_iff.1 htext
      obtain ⟨hreadable, hfinal, htree⟩ := ih.1 hrest
      refine ⟨⟨by rw [htext]; rfl, hreadable⟩, ?_, htree⟩
      rw [hfinal, operationFor, declaredIn, htext]
      rfl
    · rintro ⟨⟨hsource, hreadable⟩, hfinal, htree⟩
      obtain ⟨text, htext⟩ := Option.isSome_iff_exists.1 hsource
      refine ⟨text, t, Build.readText_ends_iff.2 ⟨htext, rfl⟩, ih.2 ⟨hreadable, ?_, htree⟩⟩
      rw [hfinal, operationFor, declaredIn, htext]
      rfl

theorem collected_operationFor (t : FileTree) (sources : List Path) (name : String) :
    Catalog.collected (sources.map (operationFor t)) name =
      ⟨name, sourcesFor sources name, (sourcesFor sources name).flatMap (declaredIn t)⟩ := by
  have hown : (sources.map (operationFor t)).filter (fun op => op.name = name) =
      (sourcesFor sources name).map (operationFor t) := by
    rw [List.filter_map, sourcesFor]
    apply congrArg (List.map (operationFor t))
    apply List.filter_congr
    intro source hsource
    rw [Function.comp_apply, name_operationFor]
  have hsources : ((sourcesFor sources name).map (operationFor t)).flatMap Operation.sources =
      sourcesFor sources name := by
    rw [List.flatMap_map]
    exact List.flatMap_singleton' _
  unfold Catalog.collected Catalog.sourcesOf Catalog.membersOf
  rw [hown, hsources, List.flatMap_map]
  rfl

theorem types_ofLog_operationFor (t : FileTree) (sources : List Path) :
    (ofLog (sources.map (operationFor t))).types = declaredTypes t sources := by
  have hnames : (sources.map (operationFor t)).map Operation.name = sources.map typeName := by
    rw [List.map_map]
    simp only [Function.comp_def, name_operationFor]
  rw [Catalog.types_ofLog, Catalog.mentioned, hnames]
  apply List.map_congr_left
  intro name hname
  exact collected_operationFor t sources name

/-- A scan ends well exactly if every source holds a text, and collects what they declare. -/
theorem scan_ends_iff {t t' : FileTree} {c : Catalog} {sources : List Path} :
    (scan sources).Ends t c t' ↔
      (∀ source ∈ sources, (Build.textAt? t source).isSome) ∧
        c = ofLog (sources.map (operationFor t)) ∧ t' = t :=
  scanInto_ends_iff

theorem types_of_scan {t : FileTree} {sources : List Path} {c : Catalog}
    (h : ((scan sources).run t).result = .ok c) : c.types = declaredTypes t sources := by
  obtain ⟨-, rfl, -⟩ := scan_ends_iff.1 ⟨h, (readOnly_scan sources).tree_run t⟩
  exact types_ofLog_operationFor t sources

end HeaderBuild

end LuaGlue

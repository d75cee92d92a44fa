import LuaGlue.CommandLine
import LuaGlue.Proofs.Build.Failure

/-!
# What a failed command leaves

Arguments and configuration are read before anything is made, and everything that one build needs is
read and made before its first file is written. So a command line that fails for another reason than
a file that cannot be written leaves the tree as it was. Only the command for all sections writes
between two builds: it leaves what the sections before the failing one made.
-/

namespace LuaGlue

theorem Config.readOnly_load (path : Path) : (load path).ReadOnly := by
  refine (Build.readOnly_readText path).bind fun text => ?_
  cases hread : read? text (path.parent?.getD ⟨""⟩) with
  | none => trivial
  | some config => trivial

namespace CommandLine

inductive Error.OfWriting : Error → Prop
  | intro (activity? : Option Activity) (path : Path) :
      OfWriting (.failed activity? (.unwritable path))

section FailsClean

variable {α β : Type}

/-- A job that leaves the tree as it was when it fails, unless it fails to write a file. -/
def FailsClean (job : Job Error α) : Prop :=
  ∀ (t t' : FileTree) (e : Error), job.Fails t e t' → t' = t ∨ e.OfWriting

theorem failsClean_of_readOnly {job : Job Error α} (h : job.ReadOnly) : FailsClean job :=
  fun _ _ _ hfails => Or.inl (h.tree_eq_of_fails hfails)

theorem FailsClean.after_readOnly {x : Job Error α} {f : α → Job Error β} (hx : x.ReadOnly)
    (hf : ∀ value, FailsClean (f value)) : FailsClean (x.bind f) := by
  intro t t' e h
  rcases Job.fails_bind_iff.1 h with hfails | ⟨value, between, hends, hfails⟩
  · exact failsClean_of_readOnly hx t t' e hfails
  · obtain rfl := hx.tree_eq_of_ends hends
    exact hf value _ t' e hfails

theorem FailsClean.bind_of_not_fails {x : Job Error α} {f : α → Job Error β} (hx : FailsClean x)
    (hf : ∀ value {t t' : FileTree} {e : Error}, ¬(f value).Fails t e t') :
    FailsClean (x.bind f) := by
  intro t t' e h
  exact hx t t' e (Job.fails_of_fails_bind (fun value _ => hf value) h)

theorem failsClean_during {job : Job Failure α} (activity : Activity)
    (h : ∀ {t t' : FileTree} {failure : Failure}, job.Fails t failure t' →
      t' = t ∨ ∃ path, failure.OfWriting path) :
    FailsClean (during activity job) := by
  intro t t' e hfails
  obtain ⟨failure, hjob, rfl⟩ := Job.fails_mapFailure_iff.1 hfails
  rcases h hjob with hsame | ⟨path, hwriting⟩
  · exact Or.inl hsame
  · cases hwriting with
    | file => exact Or.inr (.intro _ path)
    | @folder above _ => exact Or.inr (.intro _ above)

end FailsClean

theorem readOnly_require {α : Type} (value : Except Failure α) : (require value).ReadOnly := by
  cases value <;> trivial

theorem readOnly_loadConfig (path? : Option Path) : (loadConfig path?).ReadOnly := by
  cases path? with
  | none => trivial
  | some path => exact (Config.readOnly_load path).mapFailure _

theorem readOnly_printTypes (sources : List Path) : (printTypes sources).ReadOnly :=
  ((HeaderBuild.readOnly_scan sources).mapFailure _).bind fun _ => trivial

theorem failsClean_makeBindings (config : Config) (strict : Bool) (header marker : Path)
    (sources : List Path) : FailsClean (makeBindings config strict header marker sources) :=
  FailsClean.after_readOnly (readOnly_require config.conversions) fun _ =>
    (failsClean_during _ HeaderBuild.build_fails_unwritten).bind_of_not_fails fun _ =>
      Job.not_fails_notes

theorem failsClean_makeBundle (b : BundleBuild) : FailsClean (makeBundle b) :=
  (failsClean_during _ BundleBuild.build_fails_unwritten).bind_of_not_fails fun _ =>
    Job.not_fails_done

/-! ### All sections -/

def makeHeader (b : HeaderBuild) : Job Error Unit :=
  (during .makeBindings b.build).bind fun _ => .done ()

theorem failsClean_makeHeader (b : HeaderBuild) : FailsClean (makeHeader b) :=
  (failsClean_during _ HeaderBuild.build_fails_unwritten).bind_of_not_fails fun _ =>
    Job.not_fails_done

def bundleJobs (kind : Bundle) (part? : Option BundleConfig) : List (Job Error Unit) :=
  part?.toList.map fun part => makeBundle ⟨kind, part.sources, some part.output, false⟩

/-- The jobs for the sections of a configuration, in order; the build of its header is given. -/
def sectionJobs (config : Config) (strict : Bool) (headerBuild? : Option HeaderBuild) :
    List (Job Error Unit) :=
  headerBuild?.toList.map (fun b => makeHeader { b with strict }) ++
    (bundleJobs .templates config.templates? ++ bundleJobs .codes config.codes? ++
      bundleJobs .licenses config.licenses?)

theorem failsClean_of_mem_bundleJobs {kind : Bundle} {part? : Option BundleConfig}
    {job : Job Error Unit} (h : job ∈ bundleJobs kind part?) : FailsClean job := by
  obtain ⟨part, -, rfl⟩ := List.mem_map.1 h
  exact failsClean_makeBundle _

theorem failsClean_of_mem_sectionJobs {config : Config} {strict : Bool}
    {headerBuild? : Option HeaderBuild} {job : Job Error Unit}
    (h : job ∈ sectionJobs config strict headerBuild?) : FailsClean job := by
  simp only [sectionJobs, List.mem_append] at h
  rcases h with hheader | (htemplates | hcodes) | hlicenses
  · obtain ⟨b, -, rfl⟩ := List.mem_map.1 hheader
    exact failsClean_makeHeader _
  · exact failsClean_of_mem_bundleJobs htemplates
  · exact failsClean_of_mem_bundleJobs hcodes
  · exact failsClean_of_mem_bundleJobs hlicenses

theorem inOrder_map_makeBundle (builds : List BundleBuild) :
    Job.inOrder (builds.map makeBundle) = makeBundles builds := by
  induction builds with
  | nil => rfl
  | cons b rest ih => rw [List.map_cons, Job.inOrder, ih, makeBundles]

theorem sectionJobs_eq (config : Config) (strict : Bool) (headerBuild? : Option HeaderBuild) :
    sectionJobs config strict headerBuild? =
      headerBuild?.toList.map (fun b => makeHeader { b with strict }) ++
        config.bundleBuilds.map makeBundle := by
  simp [sectionJobs, bundleJobs, Config.bundleBuilds, Function.comp_def]

def remark (config : Config) (headerBuild? : Option HeaderBuild) : Job Error Unit :=
  if headerBuild?.isNone && config.bundleBuilds.isEmpty then
    Job.note .warn "Config has no [bindings], [templates], [codes] or [licenses] section"
  else .done ()

theorem not_fails_remark {config : Config} {headerBuild? : Option HeaderBuild} {e : Error}
    {t t' : FileTree} : ¬(remark config headerBuild?).Fails t e t' := by
  unfold remark
  intro h
  split at h
  · cases h.1
  · exact Job.not_fails_done h

theorem makeAll_eq (config : Config) (strict : Bool) :
    makeAll config strict =
      (require config.headerBuild?).bind fun headerBuild? =>
        (Job.inOrder (sectionJobs config strict headerBuild?)).bind fun _ =>
          remark config headerBuild? := by
  unfold makeAll
  congr 1
  funext headerBuild?
  rw [sectionJobs_eq]
  cases headerBuild? with
  | none =>
    rw [Option.toList_none, List.map_nil, List.nil_append, inOrder_map_makeBundle]
    rfl
  | some b =>
    rw [Option.toList_some, List.map_singleton, List.singleton_append, Job.inOrder,
      inOrder_map_makeBundle, makeHeader, Job.bind_assoc, Job.bind_assoc]
    rfl

/-- How the command for all sections stops with an error, and the tree that it leaves. -/
inductive AllStops (options : Options) (t : FileTree) (e : Error) : FileTree → Prop
  | unloaded (h : ((loadConfig options.config?).run t).result = .error e) :
      AllStops options t e t
  | unnamed (h : options.config? = none) (he : e = .allWithoutConfig) : AllStops options t e t
  | unconverted {config : Config} {failure : Failure}
      (loaded : (loadConfig options.config?).Ends t config t)
      (h : config.headerBuild? = .error failure) (he : e = .failed none failure) :
      AllStops options t e t
  /-- The sections before the failing one are complete, and the failing one changes nothing. -/
  | atSection {config : Config} {headerBuild? : Option HeaderBuild}
      {earlier later : List (Job Error Unit)} {job : Job Error Unit} {t' : FileTree}
      (loaded : (loadConfig options.config?).Ends t config t)
      (converted : config.headerBuild? = .ok headerBuild?)
      (split : sectionJobs config (options.strict || config.strict) headerBuild? =
        earlier ++ job :: later)
      (complete : Job.EndInOrder earlier t t') (fails : job.Fails t' e t') :
      AllStops options t e t'

theorem makeAll_fails {options : Options} {config : Config} {t t' : FileTree} {e : Error}
    (loaded : (loadConfig options.config?).Ends t config t)
    (h : (makeAll config (options.strict || config.strict)).Fails t e t') :
    AllStops options t e t' ∨ e.OfWriting := by
  rw [makeAll_eq] at h
  cases hconverted : config.headerBuild? with
  | error failure =>
    rw [hconverted] at h
    obtain ⟨rfl, rfl⟩ := Job.fails_fail_iff.1 h
    exact Or.inl (.unconverted loaded hconverted rfl)
  | ok headerBuild? =>
    rw [hconverted] at h
    have hjobs := Job.fails_of_fails_bind (fun _ _ => not_fails_remark) h
    obtain ⟨earlier, job, later, between, hsplit, hcomplete, hjob⟩ := Job.inOrder_fails hjobs
    have hmem : job ∈ sectionJobs config (options.strict || config.strict) headerBuild? := by
      rw [hsplit]
      exact List.mem_append_right earlier List.mem_cons_self
    rcases failsClean_of_mem_sectionJobs hmem between t' e hjob with rfl | hwriting
    · exact Or.inl (.atSection loaded hconverted hsplit hcomplete hjob)
    · exact Or.inr hwriting

theorem carryOut_all_fails {options : Options} {t t' : FileTree} {e : Error}
    (hcommand : options.command = .all) (h : (carryOut options).Fails t e t') :
    AllStops options t e t' ∨ e.OfWriting := by
  have hreads := readOnly_loadConfig options.config?
  unfold carryOut at h
  rw [hcommand] at h
  rcases Job.fails_bind_iff.1 h with hload | ⟨config, between, hload, hmake⟩
  · obtain rfl := hreads.tree_eq_of_fails hload
    exact Or.inl (.unloaded hload.1)
  · obtain rfl := hreads.tree_eq_of_ends hload
    cases hnamed : options.config? with
    | none =>
      rw [hnamed] at hmake
      obtain ⟨rfl, rfl⟩ := Job.fails_fail_iff.1 hmake
      exact Or.inl (.unnamed hnamed rfl)
    | some path =>
      simp only [hnamed] at hmake
      exact makeAll_fails hload hmake

theorem failsClean_carryOut {options : Options} (hcommand : options.command ≠ .all) :
    FailsClean (carryOut options) := by
  unfold carryOut
  refine FailsClean.after_readOnly (readOnly_loadConfig options.config?) fun config => ?_
  cases hoptions : options.command with
  | bindings header marker sources => exact failsClean_makeBindings _ _ _ _ _
  | bundle kind output sources => exact failsClean_makeBundle _
  | all => exact absurd hoptions hcommand
  | parse sources => exact failsClean_of_readOnly (readOnly_printTypes sources)
  | help => exact failsClean_of_readOnly trivial

inductive Printing : Command → Prop
  | parse (sources : List Path) : Printing (.parse sources)
  | help : Printing .help

theorem readOnly_carryOut {options : Options} (h : Printing options.command) :
    (carryOut options).ReadOnly := by
  unfold carryOut
  refine (readOnly_loadConfig options.config?).bind fun config => ?_
  cases hoptions : options.command with
  | parse sources => exact readOnly_printTypes sources
  | help => trivial
  | bindings | bundle | all =>
    rw [hoptions] at h
    cases h

/-- A command line leaves the tree as it was, or, if it asks for all sections, as the sections
before the failing one made it. -/
structure LeavesNoTrace (arguments : List String) (t : FileTree) : Prop where
  usage : ∀ e, Options.read arguments = .error e → ((run arguments).run t).tree = t
  printing : ∀ options, Options.read arguments = .ok options → Printing options.command →
    ((run arguments).run t).tree = t
  single : ∀ options e, Options.read arguments = .ok options → options.command ≠ .all →
    ((run arguments).run t).result = .error e → ¬e.OfWriting → ((run arguments).run t).tree = t
  all : ∀ options e, Options.read arguments = .ok options → options.command = .all →
    ((run arguments).run t).result = .error e → ¬e.OfWriting →
      AllStops options t e ((run arguments).run t).tree

theorem run_leavesNoTrace (arguments : List String) (t : FileTree) :
    LeavesNoTrace arguments t := by
  have hrun : ∀ {options}, Options.read arguments = .ok options →
      run arguments = carryOut options := by
    intro options hread
    rw [run, hread]
  refine ⟨?_, ?_, ?_, ?_⟩
  · intro e hread
    rw [run, hread]
    rfl
  · intro options hread hprinting
    rw [hrun hread]
    exact (readOnly_carryOut hprinting).tree_run t
  · intro options e hread hcommand herror hwriting
    rw [hrun hread] at herror ⊢
    exact (failsClean_carryOut hcommand t _ e ⟨herror, rfl⟩).resolve_right hwriting
  · intro options e hread hcommand herror hwriting
    rw [hrun hread] at herror ⊢
    exact (carryOut_all_fails hcommand ⟨herror, rfl⟩).resolve_right hwriting

/-- A source of the codes is missing, so the templates stay and no licenses are made. -/
example :
    let t : FileTree := ⟨["work"], [(["work"], .folder), (["work", "Foo.lua"], .file "x".toUTF8)]⟩
    let config : Config := { Config.empty with
      templates? := some ⟨[⟨"Foo.lua"⟩], ⟨"t.h"⟩⟩
      codes? := some ⟨[⟨"Foo.lua"⟩, ⟨"Bar.lua"⟩], ⟨"c.h"⟩⟩
      licenses? := some ⟨[⟨"Foo.lua"⟩], ⟨"l.h"⟩⟩ }
    let after := (makeAll config false).run t
    after.result = .error (.failed (some (.makeBundle .codes)) (.sourceNotFound ⟨"Bar.lua"⟩)) ∧
      after.tree.entries.keys = [["work"], ["work", "Foo.lua"], ["work", "t.h"]] := by
  decide +kernel

end CommandLine

end LuaGlue

import LuaGlue.Proofs.Build.Style
import LuaGlue.Proofs.CommandLine
import LuaGlue.Proofs.CommandLine.Options

/-!
# Two commands for one header

A configuration whose only section is that of a binding header can be carried out as a whole, or its
header can be built by naming its files. Both end well or fail for the same reason, and they leave
the same tree as long as the section asks for no style of its own: the command that names the files
does not ask the section, and builds in the standard style.
-/

namespace LuaGlue

open FileTree

def HeaderConfig.style (part : HeaderConfig) : HeaderStyle where
  guardName := part.guardName?.getD HeaderStyle.standard.guardName
  includedFile := part.includedFile?.getD HeaderStyle.standard.includedFile

def HeaderConfig.build (part : HeaderConfig) (conversions : Conversions) (strict : Bool) :
    HeaderBuild :=
  { HeaderBuild.standard with
    sources := part.sources
    headerPath? := some part.header
    markerPath? := part.marker?
    conversions
    style := part.style
    strict }

/-- A configuration that has a section for a binding header with sources and a marker, and no
other. -/
structure Config.OnlyBindings (config : Config) (part : HeaderConfig) (marker : Path) : Prop where
  bindings : config.bindings? = some part
  sources : part.sources ≠ []
  marker : part.marker? = some marker
  templates : config.templates? = none
  codes : config.codes? = none
  licenses : config.licenses? = none

theorem Config.OnlyBindings.headerBuild?_eq {config : Config} {part : HeaderConfig} {marker : Path}
    (only : config.OnlyBindings part marker) :
    config.headerBuild? = config.conversions.map fun conversions =>
      some (part.build conversions config.strict) := by
  unfold headerBuild?
  rw [only.bindings]
  dsimp only
  cases config.conversions <;> rfl

namespace CommandLine

/-! ## The arguments -/

def flagWords (path : String) (strict : Bool) : List String :=
  "--config" :: path :: if strict then ["--strict"] else []

def allWords (path : String) (strict : Bool) : List String := flagWords path strict ++ ["all"]

def bindingsWords (path : String) (strict : Bool) (part : HeaderConfig) (marker : Path) :
    List String :=
  flagWords path strict ++
    "bindings" :: part.header.text :: marker.text :: part.sources.map Path.text

theorem read_flagWords (path : String) (strict : Bool) (words : List String) :
    Options.read (flagWords path strict ++ words) =
      Options.readAfter (some ⟨path⟩) strict words := by
  cases strict with
  | false => exact Options.read_allWords_append [.config false path] words
  | true => exact Options.read_allWords_append [.config false path, .strict] words

theorem read_allWords (path : String) (strict : Bool) :
    Options.read (allWords path strict) = .ok ⟨some ⟨path⟩, strict, .all⟩ := by
  rw [allWords, read_flagWords]
  rfl

theorem read_bindingsWords (path : String) (strict : Bool) {part : HeaderConfig}
    (h : part.sources ≠ []) (marker : Path) :
    Options.read (bindingsWords path strict part marker) =
      .ok ⟨some ⟨path⟩, strict, .bindings part.header marker part.sources⟩ := by
  obtain ⟨source, sources, hsources⟩ := List.exists_cons_of_ne_nil h
  have htexts : (sources.map Path.text).map Path.mk = sources := by
    rw [List.map_map]
    exact List.map_id sources
  have hkind : Bundle.ofLabel? "bindings" = none := rfl
  rw [bindingsWords, read_flagWords, hsources, Options.readAfter_command _ _ (by decide)]
  simp [Command.ofWords, hkind, htexts, Except.map]

/-! ## The jobs -/

section

variable {path : String} {strict : Bool} {t : FileTree} {config : Config} {part : HeaderConfig}
  {marker : Path}

theorem run_allWords (strict : Bool) (loads : (Config.load ⟨path⟩).Ends t config t) :
    ((run (allWords path strict)).run t).result =
        ((makeAll config (strict || config.strict)).run t).result ∧
      ((run (allWords path strict)).run t).tree =
        ((makeAll config (strict || config.strict)).run t).tree := by
  rw [run, read_allWords]
  exact Job.run_bind_of_ends (loads.mapFailure _)

theorem run_bindingsWords (strict : Bool) (marker : Path)
    (loads : (Config.load ⟨path⟩).Ends t config t) (sources : part.sources ≠ []) :
    ((run (bindingsWords path strict part marker)).run t).result =
        ((makeBindings config (strict || config.strict) part.header marker part.sources).run
          t).result ∧
      ((run (bindingsWords path strict part marker)).run t).tree =
        ((makeBindings config (strict || config.strict) part.header marker part.sources).run
          t).tree := by
  rw [run, read_bindingsWords path strict sources]
  exact Job.run_bind_of_ends (loads.mapFailure _)

/-- A job that makes one header, and then does not fail and writes nothing. -/
def Makes (job : Job Error Unit) (b : HeaderBuild) : Prop :=
  ∃ f : HeaderBuild.Product → Job Error Unit, job = (during .makeBindings b.build).bind f ∧
    ∀ p left, (f p).Ends left () left

theorem Makes.run_eq {job : Job Error Unit} {b : HeaderBuild} (h : Makes job b) (t : FileTree) :
    (job.run t).result =
        ((b.build.run t).result.mapError (Error.failed (some .makeBindings))).map (fun _ => ()) ∧
      (job.run t).tree = (b.build.run t).tree := by
  obtain ⟨f, rfl, hf⟩ := h
  cases hresult : (b.build.run t).result with
  | error failure =>
    have hfails : (during .makeBindings b.build).Fails t (.failed (some .makeBindings) failure)
        (b.build.run t).tree :=
      Job.fails_mapFailure_iff.2 ⟨failure, ⟨hresult, rfl⟩, rfl⟩
    exact Job.fails_bind_iff.2 (Or.inl hfails)
  | ok p =>
    have hends : b.build.Ends t p (b.build.run t).tree := ⟨hresult, rfl⟩
    exact Job.ends_bind_iff.2 ⟨p, _, hends.mapFailure _, hf p _⟩

theorem Makes.failsClean {job : Job Error Unit} {b : HeaderBuild} (h : Makes job b) :
    FailsClean job := by
  obtain ⟨f, rfl, hf⟩ := h
  refine (failsClean_during _ HeaderBuild.build_fails_unwritten).bind_of_not_fails ?_
  intro p left left' e hfails
  cases (hf p left).1.symm.trans hfails.1

theorem makes_makeBindings {conversions : Conversions} (only : config.OnlyBindings part marker)
    (hconversions : config.conversions = .ok conversions) :
    Makes (makeBindings config strict part.header marker part.sources)
      ((part.build conversions strict).withStyle .standard) := by
  refine ⟨fun p => Job.notes (summary p.header), ?_, fun p left => ?_⟩
  · unfold makeBindings HeaderConfig.build
    rw [hconversions, only.marker]
    rfl
  · unfold Job.Ends
    rw [Job.run_notes]
    exact ⟨rfl, rfl⟩

theorem makes_makeAll {conversions : Conversions} (only : config.OnlyBindings part marker)
    (hconversions : config.conversions = .ok conversions) :
    Makes (makeAll config strict) (part.build conversions strict) := by
  have hjobs : sectionJobs config strict (some (part.build conversions config.strict)) =
      [makeHeader (part.build conversions strict)] := by
    unfold sectionJobs bundleJobs
    rw [only.templates, only.codes, only.licenses]
    rfl
  rw [makeAll_eq, only.headerBuild?_eq, hconversions]
  change Makes ((Job.inOrder (sectionJobs config strict _)).bind _) _
  rw [hjobs, Job.inOrder, makeHeader, Job.bind_assoc, Job.bind_assoc]
  exact ⟨_, rfl, fun p left => ⟨rfl, rfl⟩⟩

end

/-! ## Both commands -/

/-- How the command that names the files of a section of the given style ends beside the command
for all sections. -/
structure EndsLike (style : HeaderStyle) (header marker : Location) (all single : Run Error Unit) :
    Prop where
  result : single.result = all.result
  tree : DifferAt [header, marker] all.tree single.tree
  same_of_standard : style = .standard → single.tree = all.tree
  same_of_error : ∀ e, all.result = .error e → ¬e.OfWriting → single.tree = all.tree
  standard_of_same : all.result = .ok () → header ≠ marker → single.tree = all.tree →
    style = .standard

/-- Only the ends of the runs and the trees that they leave count. -/
theorem EndsLike.of_same {style : HeaderStyle} {header marker : Location}
    {all all' single single' : Run Error Unit} (h : EndsLike style header marker all single)
    (hall : all'.result = all.result ∧ all'.tree = all.tree)
    (hsingle : single'.result = single.result ∧ single'.tree = single.tree) :
    EndsLike style header marker all' single' := by
  constructor
  all_goals simp only [hall, hsingle]
  exacts [h.result, h.tree, h.same_of_standard, h.same_of_error, h.standard_of_same]

theorem endsLike_of_fails {style : HeaderStyle} {header marker : Location}
    {all single : Job Error Unit} {t t' : FileTree} {e : Error} (hall : all.Fails t e t')
    (hsingle : single.Fails t e t') :
    EndsLike style header marker (all.run t) (single.run t) := by
  have hsame : (single.run t).tree = (all.run t).tree := hsingle.2.trans hall.2.symm
  refine ⟨hsingle.1.trans hall.1.symm, ?_, fun _ => hsame, fun _ _ _ => hsame, fun hok => ?_⟩
  · rw [hsame]
    exact .refl _
  · rw [hall.1] at hok
    cases hok

theorem result_eq_of_map_unit {α β : Type} {result : Except Failure α} {result' : Except Failure β}
    (h : result'.map (fun _ => ()) = result.map fun _ => ()) (f : Failure → Error) :
    (result'.mapError f).map (fun _ => ()) = (result.mapError f).map fun _ => () := by
  cases result <;> cases result' <;> cases h <;> rfl

theorem ends_of_result {result : Except Failure HeaderBuild.Product} {f : Failure → Error}
    (h : (result.mapError f).map (fun _ => ()) = .ok ()) : ∃ p, result = .ok p := by
  cases result with
  | error failure => cases h
  | ok p => exact ⟨p, rfl⟩

theorem makes_endsLike {all single : Job Error Unit} {b : HeaderBuild} {header marker : Path}
    (hheader : b.headerPath? = some header) (hmarker : b.markerPath? = some marker)
    (hall : Makes all b) (hsingle : Makes single (b.withStyle .standard)) (t : FileTree) :
    EndsLike b.style (t.place header) (t.place marker) (all.run t) (single.run t) := by
  obtain ⟨hresult, htree⟩ := hall.run_eq t
  obtain ⟨hresult', htree'⟩ := hsingle.run_eq t
  have htogether := b.build_withStyle .standard t
  have hsame : (single.run t).result = (all.run t).result := by
    rw [hresult, hresult']
    exact result_eq_of_map_unit htogether.result _
  refine ⟨hsame, ?_, ?_, ?_, ?_⟩
  · have houtputs : b.outputs.map t.place = [t.place header, t.place marker] := by
      unfold HeaderBuild.outputs
      rw [hheader, hmarker]
      rfl
    rw [htree, htree', ← houtputs]
    exact htogether.tree
  · intro hstyle
    rw [htree, htree', HeaderBuild.withStyle, ← hstyle]
  · intro e herror hwriting
    have hkept := (hall.failsClean t _ e ⟨herror, rfl⟩).resolve_right hwriting
    have hkept' := (hsingle.failsClean t _ e ⟨hsame.trans herror, rfl⟩).resolve_right hwriting
    rw [hkept, hkept']
  · intro hok apart hleft
    obtain ⟨p, hp⟩ := ends_of_result (hresult.symm.trans hok)
    obtain ⟨p', hp'⟩ := ends_of_result (hresult'.symm.trans (hsame.trans hok))
    have hapart : ∀ path, b.markerPath? = some path → t.place header ≠ t.place path := by
      intro path hpath
      obtain rfl := Option.some.inj (hmarker.symm.trans hpath)
      exact apart
    refine HeaderBuild.style_eq_of_same_tree HeaderStyle.oneLine_standard hheader hapart
      ⟨hp, rfl⟩ ⟨hp', ?_⟩
    rw [← htree', hleft, htree]

/-- Whatever the tree holds, to name the files of the only section ends like to ask for all
sections, but that it asks for no style. -/
theorem bindings_endsLike_all (path : String) (strict : Bool) (t : FileTree) (config : Config)
    (part : HeaderConfig) (marker : Path) (loads : (Config.load ⟨path⟩).Ends t config t)
    (only : config.OnlyBindings part marker) :
    EndsLike part.style (t.place part.header) (t.place marker)
      ((run (allWords path strict)).run t)
      ((run (bindingsWords path strict part marker)).run t) := by
  refine EndsLike.of_same ?_ (run_allWords strict loads)
    (run_bindingsWords strict marker loads only.sources)
  cases hconversions : config.conversions with
  | error failure =>
    -- a template without its placeholder stops both before a source is read
    have hall : (makeAll config (strict || config.strict)).Fails t (.failed none failure) t := by
      rw [makeAll_eq, only.headerBuild?_eq, hconversions]
      exact ⟨rfl, rfl⟩
    have hsingle : (makeBindings config (strict || config.strict) part.header marker
        part.sources).Fails t (.failed none failure) t := by
      unfold makeBindings
      rw [hconversions]
      exact ⟨rfl, rfl⟩
    exact endsLike_of_fails hall hsingle
  | ok conversions =>
    exact makes_endsLike (b := part.build conversions (strict || config.strict)) rfl only.marker
      (makes_makeAll only hconversions) (makes_makeBindings only hconversions) t

def styledTree : FileTree where
  workFolder := ["work"]
  entries := [
    (["work"], .folder),
    (["work", "Foo.h"], .file "int get(int)\n".toUTF8),
    (["work", "weld.toml"], .file ("[bindings]\nsources = [\"Foo.h\"]\nheader = \"lua.h\"\n" ++
      "marker = \"lua.stamp\"\ninclude = \"api.h\"\n").toUTF8)]

def styledPart : HeaderConfig :=
  ⟨[⟨"Foo.h"⟩], ⟨"lua.h"⟩, some ⟨"lua.stamp"⟩, some "api.h", none⟩

def styledConfig : Config := { Config.empty with bindings? := some styledPart }

theorem styledConfig_loads : (Config.load ⟨"weld.toml"⟩).Ends styledTree styledConfig styledTree :=
  ⟨by decide +kernel, (Config.readOnly_load _).tree_run styledTree⟩

theorem styledConfig_onlyBindings : styledConfig.OnlyBindings styledPart ⟨"lua.stamp"⟩ :=
  ⟨rfl, by decide, rfl, rfl, rfl, rfl⟩

theorem styledConfig_endsLike_all :
    (Config.load ⟨"weld.toml"⟩).Ends styledTree styledConfig styledTree ∧
      styledConfig.OnlyBindings styledPart ⟨"lua.stamp"⟩ ∧
      EndsLike styledPart.style (styledTree.place ⟨"lua.h"⟩) (styledTree.place ⟨"lua.stamp"⟩)
        ((run (allWords "weld.toml" false)).run styledTree)
        ((run (bindingsWords "weld.toml" false styledPart ⟨"lua.stamp"⟩)).run styledTree) :=
  ⟨styledConfig_loads, styledConfig_onlyBindings,
    bindings_endsLike_all "weld.toml" false styledTree styledConfig styledPart ⟨"lua.stamp"⟩
      styledConfig_loads styledConfig_onlyBindings⟩

/-- Both commands end well, and only one of the headers includes the file that the section names. -/
theorem styledConfig_ends_otherwise :
    (Config.load ⟨"weld.toml"⟩).Ends styledTree styledConfig styledTree ∧
      styledConfig.OnlyBindings styledPart ⟨"lua.stamp"⟩ ∧
      ((run (allWords "weld.toml" false)).run styledTree).result = .ok () ∧
      ((run (bindingsWords "weld.toml" false styledPart ⟨"lua.stamp"⟩)).run styledTree).result =
        .ok () ∧
      ((run (bindingsWords "weld.toml" false styledPart ⟨"lua.stamp"⟩)).run styledTree).tree ≠
        ((run (allWords "weld.toml" false)).run styledTree).tree := by
  obtain ⟨hall, hallTree⟩ := run_allWords false styledConfig_loads
  obtain ⟨hsingle, hsingleTree⟩ := run_bindingsWords false ⟨"lua.stamp"⟩ styledConfig_loads
    styledConfig_onlyBindings.sources
  rw [hall, hsingle, hallTree, hsingleTree]
  refine ⟨styledConfig_loads, styledConfig_onlyBindings, by decide +kernel, by decide +kernel, ?_⟩
  intro hsame
  have hread := congrArg (fun t => t.read ⟨"lua.h"⟩) hsame
  revert hread
  decide +kernel

end CommandLine

end LuaGlue

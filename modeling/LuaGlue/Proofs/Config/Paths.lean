import LuaGlue.Config
import LuaGlue.Proofs.Path

/-!
# The paths of a configuration

A configuration is determined by the paths at its keys and by its settings, which are no paths. To
see it from a folder is to see each of its paths from there and to leave the settings: no path is
left out, and whatever holds of seeing one path from a folder holds of the configuration.
-/

namespace LuaGlue.Config

inductive Part where
  | bindings
  | bundle (kind : Bundle)
  deriving DecidableEq, Repr

inductive PathKey where
  | source (part : Part) (index : Nat)
  | output (part : Part)
  | marker
  deriving DecidableEq, Repr

structure Settings where
  strict : Bool
  includedFile? : Option String
  guardName? : Option String
  extract : OrderedMap String String
  push : OrderedMap String String
  deriving DecidableEq, Repr

variable (c : Config)

def bundle? : Bundle → Option BundleConfig
  | .templates => c.templates?
  | .codes => c.codes?
  | .licenses => c.licenses?

def sources? : Part → Option (List Path)
  | .bindings => c.bindings?.map HeaderConfig.sources
  | .bundle kind => (c.bundle? kind).map BundleConfig.sources

def output? : Part → Option Path
  | .bindings => c.bindings?.map HeaderConfig.header
  | .bundle kind => (c.bundle? kind).map BundleConfig.output

def path? : PathKey → Option Path
  | .source part index => (c.sources? part).bind fun sources => sources[index]?
  | .output part => c.output? part
  | .marker => c.bindings?.bind HeaderConfig.marker?

def settings : Settings where
  strict := c.strict
  includedFile? := c.bindings?.bind HeaderConfig.includedFile?
  guardName? := c.bindings?.bind HeaderConfig.guardName?
  extract := c.extract
  push := c.push

/-! ## Paths and settings determine a configuration -/

theorem isSome_sources? (part : Part) : (c.sources? part).isSome = (c.output? part).isSome := by
  cases part <;> rw [sources?, output?, Option.isSome_map, Option.isSome_map]

theorem bundle?_eq (kind : Bundle) :
    c.bundle? kind = (c.sources? (.bundle kind)).bind fun sources =>
      (c.output? (.bundle kind)).map (BundleConfig.mk sources) := by
  rw [sources?, output?]
  cases c.bundle? kind <;> rfl

theorem bindings?_eq :
    c.bindings? = (c.sources? .bindings).bind fun sources => (c.output? .bindings).map fun header =>
      ⟨sources, header, c.path? .marker, c.settings.includedFile?, c.settings.guardName?⟩ := by
  rw [sources?, output?, path?, settings]
  cases c.bindings? <;> rfl

section Determined

variable {c} {c' : Config}

/-- Where the list of sources ends there is no path, and without the part there is no header. -/
theorem sources?_eq_of_path?_eq (hpaths : ∀ key, c.path? key = c'.path? key) (part : Part) :
    c.sources? part = c'.sources? part := by
  have hpresent : (c.sources? part).isSome = (c'.sources? part).isSome := by
    rw [isSome_sources?, isSome_sources?]
    exact congrArg Option.isSome (hpaths (.output part))
  have hitems (index : Nat) : ((c.sources? part).bind fun sources => sources[index]?) =
      (c'.sources? part).bind fun sources => sources[index]? :=
    hpaths (.source part index)
  cases hs : c.sources? part with
  | none =>
    rw [hs, Option.isSome_none] at hpresent
    exact (Option.not_isSome_iff_eq_none.1 (Bool.eq_false_iff.1 hpresent.symm)).symm
  | some sources =>
    rw [hs, Option.isSome_some] at hpresent
    obtain ⟨sources', hs'⟩ := Option.isSome_iff_exists.1 hpresent.symm
    rw [hs, hs'] at hitems
    rw [hs']
    exact congrArg some (List.ext_getElem? hitems)

theorem eq_of_path?_eq (hpaths : ∀ key, c.path? key = c'.path? key)
    (hsettings : c.settings = c'.settings) : c = c' := by
  have houtput (part : Part) : c.output? part = c'.output? part := hpaths (.output part)
  have hbindings : c.bindings? = c'.bindings? := by
    rw [bindings?_eq, bindings?_eq, sources?_eq_of_path?_eq hpaths, houtput, hpaths, hsettings]
  have hbundle (kind : Bundle) : c.bundle? kind = c'.bundle? kind := by
    rw [bundle?_eq, bundle?_eq, sources?_eq_of_path?_eq hpaths, houtput]
  have hstrict := congrArg Settings.strict hsettings
  have hextract := congrArg Settings.extract hsettings
  have hpush := congrArg Settings.push hsettings
  have htemplates := hbundle .templates
  have hcodes := hbundle .codes
  have hlicenses := hbundle .licenses
  cases c
  cases c'
  cases hbindings
  cases hstrict
  cases hextract
  cases hpush
  cases htemplates
  cases hcodes
  cases hlicenses
  rfl

end Determined

/-! ## A configuration seen from a folder -/

variable (base : Path)

theorem settings_resolve : (c.resolve base).settings = c.settings := by
  unfold settings resolve
  cases c.bindings? <;> rfl

theorem bundle?_resolve (kind : Bundle) :
    (c.resolve base).bundle? kind = (c.bundle? kind).map (BundleConfig.resolve base) := by
  cases kind <;> rfl

theorem sources?_resolve (part : Part) :
    (c.resolve base).sources? part = (c.sources? part).map (List.map base.join) := by
  cases part with
  | bindings =>
    rw [sources?, sources?, resolve]
    cases c.bindings? <;> rfl
  | bundle kind =>
    rw [sources?, sources?, bundle?_resolve]
    cases c.bundle? kind <;> rfl

theorem output?_resolve (part : Part) :
    (c.resolve base).output? part = (c.output? part).map base.join := by
  cases part with
  | bindings =>
    rw [output?, output?, resolve]
    cases c.bindings? <;> rfl
  | bundle kind =>
    rw [output?, output?, bundle?_resolve]
    cases c.bundle? kind <;> rfl

theorem path?_resolve (key : PathKey) :
    (c.resolve base).path? key = (c.path? key).map base.join := by
  cases key with
  | source part index =>
    rw [path?, path?, sources?_resolve]
    cases c.sources? part with
    | none => rfl
    | some sources => exact List.getElem?_map ..
  | output part => exact output?_resolve c base part
  | marker =>
    rw [path?, path?, resolve]
    cases c.bindings? <;> rfl

/-- The configuration seen from a folder is the only one with the same settings in which each path
is seen from there. -/
theorem eq_resolve_iff (c' : Config) :
    c' = c.resolve base ↔
      c'.settings = c.settings ∧ ∀ key, c'.path? key = (c.path? key).map base.join := by
  constructor
  · rintro rfl
    exact ⟨settings_resolve c base, path?_resolve c base⟩
  · rintro ⟨hsettings, hpaths⟩
    refine eq_of_path?_eq (fun key => ?_) ?_
    · rw [hpaths, path?_resolve]
    · rw [hsettings, settings_resolve]

/-- To see a configuration from one folder and the outcome from another is to see it once. -/
theorem resolve_resolve (outer : Path) :
    (c.resolve base).resolve outer = c.resolve (outer.join base) := by
  refine eq_of_path?_eq (fun key => ?_) ?_
  · rw [path?_resolve, path?_resolve, path?_resolve, Option.map_map]
    exact congrArg (c.path? key).map (funext fun p => Path.join_assoc outer base p)
  · rw [settings_resolve, settings_resolve, settings_resolve]

theorem read?_map_resolve (text : String) (outer : Path) :
    (read? text base).map (resolve outer) = read? text (outer.join base) := by
  unfold read?
  cases Toml.Reader.document? text with
  | none => rfl
  | some entries =>
    cases hconfig : ofToml? entries with
    | none => simp [hconfig]
    | some c => simp [hconfig, resolve_resolve]

/-- What it means for a configuration to be seen from a folder. -/
structure SeenFrom : Prop where
  eq_iff : ∀ c', c' = c.resolve base ↔
    c'.settings = c.settings ∧ ∀ key, c'.path? key = (c.path? key).map base.join
  counts : ∀ part, ((c.resolve base).sources? part).map List.length =
    (c.sources? part).map List.length
  kept : ∀ key path, c.path? key = some path → path.isAbsolute = true →
    (c.resolve base).path? key = some path
  absolute : base.isAbsolute = true →
    ∀ key, ∀ path ∈ (c.resolve base).path? key, path.isAbsolute = true
  settled : base.isAbsolute = true → ∀ other, (c.resolve base).resolve other = c.resolve base
  again : ∀ outer, (c.resolve base).resolve outer = c.resolve (outer.join base)

/-- To see configurations from a folder reaches all their paths and nothing else, and two folders
act like one, also for the configuration that a text holds. -/
theorem resolve_reachesPaths (base : Path) :
    (∀ c : Config, SeenFrom c base) ∧
      ∀ text outer, (read? text base).map (resolve outer) = read? text (outer.join base) := by
  refine ⟨fun c => ?_, read?_map_resolve base⟩
  refine ⟨eq_resolve_iff c base, fun part => ?_, fun key path hpath habsolute => ?_,
    fun hbase key path hpath => ?_, fun hbase other => ?_, resolve_resolve c base⟩
  · rw [sources?_resolve, Option.map_map]
    exact congrArg (c.sources? part).map (funext fun _ => List.length_map _)
  · rw [path?_resolve, hpath, Option.map_some, Path.join_of_isAbsolute base habsolute]
  · rw [path?_resolve] at hpath
    obtain ⟨given, -, rfl⟩ := Option.map_eq_some_iff.1 hpath
    exact Path.isAbsolute_join hbase given
  · rw [resolve_resolve, Path.join_of_isAbsolute other hbase]

end LuaGlue.Config

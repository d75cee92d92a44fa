import LuaGlue.Build.BundleBuild
import LuaGlue.Build.HeaderBuild
import LuaGlue.Toml.Reader

/-!
# Configurations

A configuration file names the headers to build, their sources, and conversions beside those of the
Godot primitive types. Its relative paths are seen from the folder that holds the file.
-/

namespace LuaGlue

structure HeaderConfig where
  sources : List Path
  header : Path
  marker? : Option Path
  includedFile? : Option String
  guardName? : Option String
  deriving DecidableEq, Repr

structure BundleConfig where
  sources : List Path
  output : Path
  deriving DecidableEq, Repr

structure Config where
  strict : Bool
  bindings? : Option HeaderConfig
  extract : OrderedMap String String
  push : OrderedMap String String
  templates? : Option BundleConfig
  codes? : Option BundleConfig
  licenses? : Option BundleConfig
  deriving DecidableEq, Repr

namespace Toml

def text? : Toml → Option String
  | .string text => some text
  | _ => none

def path? (value : Toml) : Option Path := value.text?.map Path.mk

def boolean? : Toml → Option Bool
  | .boolean value => some value
  | _ => none

def paths? : Toml → Option (List Path)
  | .array items => items.mapM path?
  | _ => none

/-- The key under which a date or time stands where a table is asked for. -/
def momentKey : String := "$__toml_private_datetime"

def texts? : Toml → Option (OrderedMap String String)
  | .table _ entries => entries.mapM fun (key, value) => value.text?.map fun text => (key, text)
  | .moment text => some [(momentKey, text)]
  | _ => none

/-- The values of a table at the given keys; there must be no other key. An array gives its items to
the keys in order. -/
def record? (keys : List String) : Toml → Option (List (Option Toml))
  | .table _ entries =>
    if entries.all fun entry => keys.contains entry.1 then
      some (keys.map fun key => OrderedMap.get? entries key)
    else none
  | .array items => some (keys.mapIdx fun index _ => items[index]?)
  | .tableArray tables => some (keys.mapIdx fun index _ => tables[index]?.map (.table .header))
  | _ => none

def optional? {α : Type} (read? : Toml → Option α) : Option Toml → Option (Option α)
  | none => some none
  | some value => (read? value).map some

end Toml

namespace HeaderConfig

def ofToml? (value : Toml) : Option HeaderConfig := do
  match ← value.record? ["sources", "header", "marker", "include", "guard"] with
  | [some sources, some header, marker?, includedFile?, guardName?] =>
    return {
      sources := ← sources.paths?
      header := ← header.path?
      marker? := ← Toml.optional? Toml.path? marker?
      includedFile? := ← Toml.optional? Toml.text? includedFile?
      guardName? := ← Toml.optional? Toml.text? guardName? }
  | _ => none

def resolve (base : Path) (c : HeaderConfig) : HeaderConfig :=
  { c with
    sources := c.sources.map base.join
    header := base.join c.header
    marker? := c.marker?.map base.join }

end HeaderConfig

namespace BundleConfig

def ofToml? (value : Toml) : Option BundleConfig := do
  match ← value.record? ["sources", "output"] with
  | [some sources, some output] => return ⟨← sources.paths?, ← output.path?⟩
  | _ => none

def resolve (base : Path) (c : BundleConfig) : BundleConfig :=
  ⟨c.sources.map base.join, base.join c.output⟩

end BundleConfig

namespace Config

def empty : Config where
  strict := false
  bindings? := none
  extract := []
  push := []
  templates? := none
  codes? := none
  licenses? := none

def ofToml? (entries : Toml.Entries) : Option Config := do
  let keys := ["strict", "bindings", "extract", "push", "templates", "codes", "licenses"]
  match ← (Toml.table .header entries).record? keys with
  | [strict?, bindings?, extract?, push?, templates?, codes?, licenses?] =>
    return {
      strict := (← Toml.optional? Toml.boolean? strict?).getD false
      bindings? := ← Toml.optional? HeaderConfig.ofToml? bindings?
      extract := (← Toml.optional? Toml.texts? extract?).getD []
      push := (← Toml.optional? Toml.texts? push?).getD []
      templates? := ← Toml.optional? BundleConfig.ofToml? templates?
      codes? := ← Toml.optional? BundleConfig.ofToml? codes?
      licenses? := ← Toml.optional? BundleConfig.ofToml? licenses? }
  | _ => none

def resolve (base : Path) (c : Config) : Config :=
  { c with
    bindings? := c.bindings?.map (HeaderConfig.resolve base)
    templates? := c.templates?.map (BundleConfig.resolve base)
    codes? := c.codes?.map (BundleConfig.resolve base)
    licenses? := c.licenses?.map (BundleConfig.resolve base) }

def read? (text : String) (base : Path) : Option Config := do
  let entries ← Toml.Reader.document? text
  let config ← ofToml? entries
  return config.resolve base

def load (path : Path) : Job Failure Config := do
  let text ← Build.readText path
  match read? text (path.parent?.getD ⟨""⟩) with
  | some config => return config
  | none => .fail (.malformedConfig path)

def conversions (c : Config) : Except Failure Conversions := do
  let extracting ← Conversions.godot.addAll .extract c.extract
  extracting.addAll .push c.push

def headerBuild? (c : Config) : Except Failure (Option HeaderBuild) :=
  match c.bindings? with
  | none => .ok none
  | some bindings =>
    match c.conversions with
    | .error failure => .error failure
    | .ok conversions => .ok (some { HeaderBuild.standard with
        sources := bindings.sources
        headerPath? := some bindings.header
        markerPath? := bindings.marker?
        conversions
        style := {
          guardName := bindings.guardName?.getD HeaderStyle.standard.guardName
          includedFile := bindings.includedFile?.getD HeaderStyle.standard.includedFile }
        strict := c.strict })

def bundleBuilds (c : Config) : List BundleBuild :=
  let build := fun (kind : Bundle) (part? : Option BundleConfig) =>
    part?.toList.map fun s => BundleBuild.mk kind s.sources (some s.output) false
  build .templates c.templates? ++ build .codes c.codes? ++ build .licenses c.licenses?

end Config

end LuaGlue

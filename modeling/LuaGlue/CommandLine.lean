import LuaGlue.CommandLine.Options
import LuaGlue.Config
import LuaGlue.Json.Codec

/-!
# The command line

Arguments are read, the configuration is loaded, and the command is carried out. An error that ends
a command says first, if that is known, what was being done.
-/

namespace LuaGlue

namespace CommandLine

def helpLines : List String := [
  "lua-weld [--config <weld.toml>] [--strict] <command> [args]",
  "",
  "Commands:",
  "  bindings <header> <marker> <sources...>  Generate the Lua binding header",
  "  templates <output> <sources...>          Embed script templates",
  "  codes <output> <sources...>              Embed raw script code strings",
  "  licenses <output> <sources...>           Embed third-party license texts",
  "  all                                      Run every section of the config file",
  "  parse <sources...>                       Print extracted signatures as JSON",
  "",
  "Options:",
  "  --config, -c <path>  Load marshaling overrides and sections from weld.toml",
  "  --strict             Fail on argument or return types with no marshaling",
  "",
  "Set LUA_WELD_LOG to control log output (default: info)"]

def helpText : String := String.join (helpLines.map (· ++ "\n"))

inductive Activity where
  | loadConfig (path : Path)
  | makeBindings
  | makeBundle (kind : Bundle)
  deriving DecidableEq, Repr

def Activity.message : Activity → String
  | .loadConfig path => "Failed to load config " ++ path.text
  | .makeBindings => "Failed to generate Lua bindings"
  | .makeBundle kind => "Failed to generate " ++ kind.label ++ " bundle"

inductive Error where
  | usage (e : UsageError)
  | allWithoutConfig
  | failed (activity? : Option Activity) (failure : Failure)
  deriving DecidableEq, Repr

def Error.message : Error → String
  | .usage e => e.message
  | .allWithoutConfig => "all requires --config <weld.toml>"
  | .failed none failure => failure.message
  | .failed (some activity) failure => activity.message ++ ": " ++ failure.message

def during {α : Type} (activity : Activity) (job : Job Failure α) : Job Error α :=
  job.mapFailure (.failed (some activity))

def require {α : Type} : Except Failure α → Job Error α
  | .ok value => .done value
  | .error failure => .fail (.failed none failure)

def loadConfig : Option Path → Job Error Config
  | some path => during (.loadConfig path) (Config.load path)
  | none => .done .empty

def summary (header : Header) : List Event :=
  let counts := header.wrapperCounts.map fun (name, count) =>
    Event.mk .info (name ++ ": " ++ toString count ++ " wrapper(s)")
  let gaps := header.gaps.length
  if gaps = 0 then counts
  else counts ++ [⟨.warn, toString gaps ++ " member(s) degraded; see warnings above"⟩]

def makeBindings (config : Config) (strict : Bool) (header marker : Path) (sources : List Path) :
    Job Error Unit := do
  let conversions ← require config.conversions
  let b : HeaderBuild := { HeaderBuild.standard with
    sources
    headerPath? := some header
    markerPath? := some marker
    conversions
    strict }
  let product ← during .makeBindings b.build
  Job.notes (summary product.header)

def makeBundle (b : BundleBuild) : Job Error Unit :=
  (during (.makeBundle b.kind) b.build).bind fun _ => .done ()

def makeBundles : List BundleBuild → Job Error Unit
  | [] => .done ()
  | b :: rest => (makeBundle b).bind fun _ => makeBundles rest

def makeAll (config : Config) (strict : Bool) : Job Error Unit := do
  let headerBuild? ← require config.headerBuild?
  match headerBuild? with
  | none => pure ()
  | some b =>
    let _ ← during .makeBindings { b with strict }.build
  makeBundles config.bundleBuilds
  if headerBuild?.isNone && config.bundleBuilds.isEmpty then
    Job.note .warn "Config has no [bindings], [templates], [codes] or [licenses] section"

def printTypes (sources : List Path) : Job Error Unit := do
  let catalog ← (HeaderBuild.scan sources).mapFailure (.failed none)
  Job.say .output ((Json.array (catalog.types.map HostType.toJson)).pretty ++ "\n")

def carryOut (options : Options) : Job Error Unit := do
  let config ← loadConfig options.config?
  let strict := options.strict || config.strict
  match options.command with
  | .bindings header marker sources => makeBindings config strict header marker sources
  | .bundle kind output sources => makeBundle ⟨kind, sources, some output, false⟩
  | .all => if options.config?.isNone then .fail .allWithoutConfig else makeAll config strict
  | .parse sources => printTypes sources
  | .help => Job.say .errors helpText

def run (arguments : List String) : Job Error Unit :=
  match Options.read arguments with
  | .ok options => carryOut options
  | .error e => .fail (.usage e)

end CommandLine

end LuaGlue

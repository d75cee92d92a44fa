import LuaGlue.Bundle
import LuaGlue.Path

/-!
# Options

The command and the flags that the arguments of a command line ask for. Flags stand before the
command; everything after it belongs to the command.
-/

namespace LuaGlue

inductive Command where
  | bindings (header marker : Path) (sources : List Path)
  | bundle (kind : Bundle) (output : Path) (sources : List Path)
  | all
  | parse (sources : List Path)
  | help
  deriving DecidableEq, Repr

structure Options where
  config? : Option Path
  strict : Bool
  command : Command
  deriving DecidableEq, Repr

inductive UsageError where
  | configWithoutValue
  | unknownFlag (flag : String)
  | unknownCommand (name : String)
  | bindingsWithoutOutputs
  | bindingsWithoutSources
  | bundleWithoutOutput (kind : Bundle)
  | allWithArguments
  | parseWithoutSources
  deriving DecidableEq, Repr

def UsageError.message : UsageError → String
  | .configWithoutValue => "--config requires a value"
  | .unknownFlag flag => "Unknown flag: " ++ flag
  | .unknownCommand name => "Unknown command: " ++ name
  | .bindingsWithoutOutputs => "Usage: lua-weld bindings <header> <marker> <sources...>"
  | .bindingsWithoutSources => "bindings requires at least one declaration file"
  | .bundleWithoutOutput kind => "Usage: lua-weld " ++ kind.label ++ " <output> <sources...>"
  | .allWithArguments => "all takes no arguments; sections come from --config"
  | .parseWithoutSources => "Usage: lua-weld parse <sources...>"

def Command.ofBundle (kind : Bundle) : List Path → Except UsageError Command
  | [] => .error (.bundleWithoutOutput kind)
  | output :: sources => .ok (.bundle kind output sources)

def Command.ofWords (name : String) (arguments : List Path) : Except UsageError Command :=
  match Bundle.ofLabel? name with
  | some kind => ofBundle kind arguments
  | none =>
    match name, arguments with
    | "bindings", header :: marker :: source :: sources =>
      .ok (.bindings header marker (source :: sources))
    | "bindings", [_, _] => .error .bindingsWithoutSources
    | "bindings", _ => .error .bindingsWithoutOutputs
    | "all", [] => .ok .all
    | "all", _ => .error .allWithArguments
    | "parse", [] => .error .parseWithoutSources
    | "parse", sources => .ok (.parse sources)
    | "help", _ => .ok .help
    | _, _ => .error (.unknownCommand name)

namespace Options

/-- The options that arguments add to the flags read so far. -/
def readAfter (config? : Option Path) (strict : Bool) : List String → Except UsageError Options
  | [] => .ok ⟨config?, strict, .help⟩
  | word :: words =>
    if word = "--config" ∨ word = "-c" then
      match words with
      | [] => .error .configWithoutValue
      | value :: rest => readAfter (some ⟨value⟩) strict rest
    else if word = "--strict" then readAfter config? true words
    else if word = "--help" ∨ word = "-h" then .ok ⟨config?, strict, .help⟩
    else if word.toList.head? = some '-' then .error (.unknownFlag word)
    else
      match Command.ofWords word (words.map Path.mk) with
      | .ok command => .ok ⟨config?, strict, command⟩
      | .error e => .error e

def read (arguments : List String) : Except UsageError Options := readAfter none false arguments

end Options

end LuaGlue

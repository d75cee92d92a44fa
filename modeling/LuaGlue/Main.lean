import LuaGlue.CommandLine

/-!
# The program

A job is performed on the files of the machine. Events go to the error stream, from the level on
that the environment asks for.
-/

namespace LuaGlue

namespace Level

def label : Level → String
  | .debug => "DEBUG"
  | .info => "INFO"
  | .warn => "WARN"

def shownFor : Option String → List Level
  | some "trace" | some "debug" => [.debug, .info, .warn]
  | some "warn" => [.warn]
  | some "error" | some "off" => []
  | _ => [.info, .warn]

end Level

namespace Job

def readMachine (path : Path) : IO (Except FileTree.Fault ByteArray) := do
  try
    let content ← IO.FS.readBinFile path.text
    return .ok content
  catch
    | .noFileOrDirectory .. => return .error .missing
    | _ => return .error .refused

/-- Write a file of the machine, with the folders above it; the result is the path that could not be
made or written, if any. -/
def saveMachine (path : Path) (content : ByteArray) : IO (Option Path) := do
  let write : IO (Option Path) := do
    try
      IO.FS.writeBinFile path.text content
      return none
    catch _ => return some path
  match path.parent? with
  | none => write
  | some above =>
    if above.text.isEmpty then write
    else
      try
        IO.FS.createDirAll above.text
        write
      catch _ => return some above

def perform {ε α : Type} (shown : List Level) : Job ε α → IO (Except ε α)
  | .done value => return .ok value
  | .fail failure => return .error failure
  | .read path next => do
    let found ← readMachine path
    (next found).perform shown
  | .save path content next => do
    let lost ← saveMachine path content
    (next lost).perform shown
  | .report event next => do
    if shown.contains event.level then IO.eprintln (event.level.label ++ " " ++ event.message)
    next.perform shown
  | .print .output text next => do
    IO.print text
    next.perform shown
  | .print .errors text next => do
    IO.eprint text
    next.perform shown

end Job

end LuaGlue

def main (arguments : List String) : IO UInt32 := do
  let shown := LuaGlue.Level.shownFor (← IO.getEnv "LUA_WELD_LOG")
  match ← (LuaGlue.CommandLine.run arguments).perform shown with
  | .ok _ => return 0
  | .error e =>
    IO.eprintln ("error: " ++ e.message)
    return 1

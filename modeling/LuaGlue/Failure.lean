import LuaGlue.Conversion
import LuaGlue.Job
import LuaGlue.Text.Utf8

/-!
# Failures

The conditions that end a build, their messages, and how a build reads and writes its files. Types
without a conversion are no failure unless a build is strict.
-/

namespace LuaGlue

inductive Output where
  | bindingHeader
  | bundle
  deriving DecidableEq, Repr

def Output.label : Output → String
  | .bindingHeader => "binding header"
  | .bundle => "bundle output"

/-- The place of a declaration that a strict build rejects. -/
inductive Position where
  | argument (index : Nat)
  | returnValue
  | declaredFinalizer
  deriving DecidableEq, Repr

def Position.label : Position → String
  | .argument index => "argument " ++ toString index
  | .returnValue => "return value"
  | .declaredFinalizer => "declared finalizer"

inductive Failure where
  /-- A file that cannot be read for another reason than that it is missing. -/
  | unreadable (path : Path)
  | unwritable (path : Path)
  | sourceNotFound (path : Path)
  | outputNotSet (output : Output)
  | malformedConfig (path : Path)
  | variableNotSet (name : String)
  | missingPlaceholder (direction : Direction) (typeName : String)
  | unsupported (owner member typeName : String) (position : Position)
  deriving DecidableEq, Repr

namespace Failure

def message : Failure → String
  | .unreadable path => "IO error on " ++ path.text
  | .unwritable path => "IO error on " ++ path.text
  | .sourceNotFound path => "Source not found: " ++ path.text
  | .outputNotSet output => "Output path not set: " ++ output.label
  | .malformedConfig path => "Configuration error in " ++ path.text
  | .variableNotSet name => "Environment variable not set: " ++ name
  | .missingPlaceholder direction typeName =>
    "Invalid " ++ direction.label ++ " template for `" ++ typeName ++ "`: expected a `" ++
      direction.placeholder ++ "` placeholder"
  | .unsupported owner member typeName position =>
    "Unsupported type `" ++ typeName ++ "` in " ++ owner ++ "::" ++ member ++ " (" ++
      position.label ++ ")"

end Failure

namespace Conversions

def add (cs : Conversions) (direction : Direction) (typeName template : String) :
    Except Failure Conversions :=
  match cs.add? direction typeName template with
  | some added => .ok added
  | none => .error (.missingPlaceholder direction typeName)

def addAll (cs : Conversions) (direction : Direction) :
    List (String × String) → Except Failure Conversions
  | [] => .ok cs
  | (typeName, template) :: rest =>
    match cs.add direction typeName template with
    | .ok added => added.addAll direction rest
    | .error failure => .error failure

end Conversions

namespace Build

def readFailure (path : Path) : FileTree.Fault → Failure
  | .missing => .sourceNotFound path
  | _ => .unreadable path

def readBytes (path : Path) : Job Failure ByteArray :=
  .read path fun
    | .ok content => .done content
    | .error fault => .fail (readFailure path fault)

def readText (path : Path) : Job Failure String :=
  .read path fun
    | .ok content =>
      match Text.ofUtf8? content with
      | some text => .done text
      | none => .fail (.unreadable path)
    | .error fault => .fail (readFailure path fault)

def saveText (path : Path) (text : String) : Job Failure Unit :=
  .save path text.toUTF8 fun
    | none => .done ()
    | some lost => .fail (.unwritable lost)

/-- Print the directives by which a build is run again when a source changes. -/
def printRerun : List Path → Job Failure Unit
  | [] => .done ()
  | source :: rest =>
    .print .output ("cargo:rerun-if-changed=" ++ source.text ++ "\n") (printRerun rest)

end Build

end LuaGlue

import LuaGlue.Bundle
import LuaGlue.Failure

/-!
# Building a bundle

Resources are loaded in order, embedded in a header, and the header is written.
-/

namespace LuaGlue

structure BundleBuild where
  kind : Bundle
  sources : List Path
  output? : Option Path
  printsRerun : Bool
  deriving DecidableEq, Repr

namespace BundleBuild

def load : List Path → Job Failure (List Resource)
  | [] => .done []
  | source :: rest =>
    (Build.readBytes source).bind fun content =>
      (load rest).bind fun resources => .done (.ofBytes source content :: resources)

def generate (b : BundleBuild) : Job Failure String := do
  let resources ← load b.sources
  Job.notes (b.kind.warnings resources)
  return b.kind.render resources

/-- Make the header of a bundle and write it; the path is that of the header. -/
def build (b : BundleBuild) : Job Failure Path := do
  match b.output? with
  | none => .fail (.outputNotSet .bundle)
  | some output =>
    let header ← b.generate
    Build.saveText output header
    Job.note .info
      ("Bundled " ++ toString b.sources.length ++ " file(s) into " ++ output.text)
    if b.printsRerun then Build.printRerun b.sources
    return output

end BundleBuild

end LuaGlue

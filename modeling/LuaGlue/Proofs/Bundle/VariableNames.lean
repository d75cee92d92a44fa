import LuaGlue.Proofs.Bundle.Code
import LuaGlue.Proofs.Path
import LuaGlue.Text.Word
import Mathlib.Data.List.Nodup
import Mathlib.Data.List.Pairwise

/-!
# Variables of script codes

The header of codes declares a variable for each script, named after its file. The name is a C
identifier, whatever characters the file name holds. The folder of a script does not enter into the
name, and characters that an identifier cannot hold are not told apart in it, so that two scripts
can get the same variable.
-/

namespace LuaGlue.Code

open Text.CString

/-- The folder of a script does not enter into the name of its variable. -/
theorem variableName_join {name : String} (hname : Path.IsFileName name) (folder folder' : Path)
    (content content' : ByteArray) :
    variableName ⟨folder.join ⟨name⟩, content⟩ = variableName ⟨folder'.join ⟨name⟩, content'⟩ := by
  unfold variableName
  rw [Path.fileName_join folder hname, Path.fileName_join folder' hname]

end LuaGlue.Code

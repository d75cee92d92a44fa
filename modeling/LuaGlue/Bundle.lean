import LuaGlue.Bundle.License
import LuaGlue.Bundle.Template

/-!
# Bundles

A bundle embeds resources in a header, as script templates, as script codes or as licenses. The
header of codes has one string constant for each script, with an escape for every byte of it.
-/

namespace LuaGlue

namespace Code

def variableName (r : Resource) : String := "code_" ++ Text.CString.identifier r.path.fileName

def declaration (r : Resource) : String :=
  "\n// " ++ r.path.text ++ "\nconst char* " ++ variableName r ++ " = \"" ++
    Text.CString.escapeBytes r.content ++ "\";\n"

def table (resources : List Resource) : String :=
  banner ++ "\n#ifndef _LUA_CODES_GEN_H\n#define _LUA_CODES_GEN_H\n" ++
    String.join (resources.map declaration) ++ "\n#endif\n"

end Code

inductive Bundle where
  | templates
  | codes
  | licenses
  deriving DecidableEq, Repr

namespace Bundle

def label : Bundle → String
  | .templates => "templates"
  | .codes => "codes"
  | .licenses => "licenses"

def ofLabel? (label : String) : Option Bundle :=
  [.templates, .codes, .licenses].find? fun b => b.label == label

def render (b : Bundle) (resources : List Resource) : String :=
  match b with
  | .templates => Template.table (resources.map Template.ofResource)
  | .codes => Code.table resources
  | .licenses => License.table .standard (resources.map License.ofResource)

/-- The warnings of embedding resources: only codes are embedded without reading their text. -/
def warnings (b : Bundle) (resources : List Resource) : List Event :=
  match b with
  | .codes => []
  | _ => resources.flatMap Resource.warnings

end Bundle

end LuaGlue

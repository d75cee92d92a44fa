import LuaGlue.Wrapper

/-!
# Registration

The function that puts the wrappers of a type into its method table, and the function that hands the
registration functions of all types to the script language.
-/

namespace LuaGlue

/-- The registration function of a type: the members it registers with their functions, in order. -/
structure Registration where
  typeName : String
  entries : List (String × String)
  deriving DecidableEq, Repr

namespace Registration

def nameOf (typeName : String) : String := "register_godot_" ++ typeName

def ofWrappers (typeName : String) (wrappers : List Wrapper) : Registration :=
  ⟨typeName, wrappers.map fun w => (w.member, w.functionName)⟩

def line (entry : String × String) : String :=
  "    luatable_rawset(L, -1, \"" ++ entry.1 ++ "\", &" ++ entry.2 ++ ");\n"

def text (r : Registration) : String :=
  "static void " ++ nameOf r.typeName ++ r"(lua_State *L) {
" ++ String.join (r.entries.map line) ++ r"}
"

end Registration

namespace Umbrella

def functionName : String := "register_godot_userdata_types"

def line (typeName : String) : String :=
  "    LuaScriptLanguage::add_register(\"" ++ typeName ++ "\", &" ++ Registration.nameOf typeName ++
    ");\n"

def text (typeNames : List String) : String :=
  "// register for all types.\nextern void " ++ functionName ++ r"(lua_State *L) {
" ++ String.join (typeNames.map line) ++ r"}
"

end Umbrella

end LuaGlue

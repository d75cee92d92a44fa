import LuaGlue.Bundle.Resource
import LuaGlue.Text.CString

/-!
# Script templates

The table of script templates. A template belongs to the folder it lies in, is named like its file,
and may start with a line of description behind two dashes.
-/

namespace LuaGlue

structure Template where
  folder : String
  name : String
  description : String
  body : String
  deriving DecidableEq, Repr

namespace Template

/-- The description in the first line of a text, if two dashes start it, and the text without that
line; else no description and the whole text. -/
def splitDescription (text : String) : String × String :=
  let (first, rest) := Text.cutLine text.toList
  match Text.afterLead? ['-', '-'] first with
  | some description => (String.ofList (Text.trimChars description), String.ofList rest)
  | none => ("", text)

/-- The characters that are dropped at the end of a line of a body. -/
def isLineEnd (c : Char) : Bool := c == ' ' || c == '\r' || c == '\n' || c == '\t'

/-- The lines of a text without what is dropped at their ends, each with a line feed. -/
def bodyOf (text : String) : String :=
  String.ofList ((Text.lines text.toList).flatMap fun line =>
    Text.dropEndWhile isLineEnd line ++ ['\n'])

def ofResource (r : Resource) : Template :=
  let (description, rest) := splitDescription r.text
  { folder := r.path.folderName, name := r.path.stem, description, body := bodyOf rest }

def field (literal : String) : String := "String(\"" ++ literal ++ "\")"

def row (t : Template) : String :=
  r"    { " ++ field (Text.CString.escape t.folder) ++ ", " ++
    field (Text.CString.escape t.name) ++ ", " ++
    field (Text.CString.escape t.description) ++ ", " ++
    field (Text.CString.escapeLineFeeds (Text.CString.escape t.body)) ++ r" }," ++ "\n"

def prologue (size : Nat) : String :=
  banner ++ "\n\n#ifndef _LUACODE_TEMPLATES_H\n#define _LUACODE_TEMPLATES_H\n\n" ++
    "#include \"core/object/object.h\"\n#include \"core/object/script_language.h\"\n\n" ++
    "static const int LUA_TEMPLATES_ARRAY_SIZE = " ++ toString size ++ ";\n" ++
    r"static const struct ScriptLanguage::ScriptTemplate LUA_TEMPLATES[] = {" ++ "\n"

def epilogue : String :=
  r"    { String(), String(), String(), String() },
};

#endif
"

def table (templates : List Template) : String :=
  prologue templates.length ++ String.join (templates.map row) ++ epilogue

end Template

end LuaGlue

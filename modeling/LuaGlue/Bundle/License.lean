import LuaGlue.Bundle.Resource
import LuaGlue.Text.CString

/-!
# Licenses

The table of third-party licenses. The first line of a license file is a homepage. The others are
folded into one text: a blank line is a paragraph break, and every other line is followed by a
space.
-/

namespace LuaGlue

/-- A license: its name, a homepage, and its lines without the white space at their ends. -/
structure License where
  name : String
  homepage : String
  lines : List String
  deriving DecidableEq, Repr

namespace License

def ofResource (r : Resource) : License :=
  let lines := (Text.lines r.text.toList).map fun line => String.ofList (Text.trimEndChars line)
  { name := r.path.stem, homepage := lines.headD "", lines := lines.drop 1 }

def folded (l : License) : String :=
  String.join (l.lines.map fun line => if line.isEmpty then "\n\n" else line ++ " ")

def literal (l : License) : String :=
  String.join (l.lines.map fun line =>
    if line.isEmpty then "\\n\\n" else Text.CString.escape line ++ " ")

def row (l : License) : String :=
  r#"    { ""# ++ Text.CString.escape l.name ++ "\", \"" ++ Text.CString.escape l.homepage ++
    "\", \"" ++ l.literal ++ r#"", },"# ++ "\n"

structure TableNames where
  structName : String
  tableName : String
  deriving DecidableEq, Repr

def TableNames.standard : TableNames := ⟨"SpikeLicenseInfo", "SPIKE_LICENSE"⟩

def prologue (names : TableNames) : String :=
  banner ++ "\n\n#pragma once\n\nstruct " ++ names.structName ++ r" {
	const char* name;
	const char* homepage;
	const char* license;
};

static const struct " ++ names.structName ++ " " ++ names.tableName ++ r"[] = {" ++ "\n"

def epilogue : String := r"    { nullptr, nullptr, nullptr },
};
"

def table (names : TableNames) (licenses : List License) : String :=
  prologue names ++ String.join (licenses.map row) ++ epilogue

end License

end LuaGlue

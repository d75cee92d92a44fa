import LuaGlue.Path
import LuaGlue.Text.CString
import LuaGlue.Text.Lines

/-!
# Markers

A marker file stands beside a binding header and records the fingerprint of its text and the
declaration files it was made from. Reading a marker back gives the marker that was written if its
fingerprint is one line without white space at its ends and its paths are lines too.
-/

namespace LuaGlue

structure Marker where
  fingerprint : String
  sources : List Path
  deriving DecidableEq, Repr

namespace Marker

def render (m : Marker) : String :=
  banner ++ "\n// " ++ m.fingerprint ++ "\n" ++
    String.join (m.sources.map fun source => "//" ++ source.text ++ "\n")

def readSources? : List (List Char) → Option (List Path)
  | [] => some []
  | line :: rest => do
    let path ← Text.afterLead? ['/', '/'] line
    return ⟨String.ofList path⟩ :: (← readSources? rest)

def read? (text : String) : Option Marker :=
  match Text.lines text.toList with
  | first :: second :: rest => do
    guard (first = banner.toList)
    let fingerprint := Text.trimChars (← Text.afterLead? ['/', '/', ' '] second)
    guard (!fingerprint.isEmpty)
    return ⟨String.ofList fingerprint, ← readSources? rest⟩
  | _ => none

def sameAs (m n : Marker) : Bool :=
  m.fingerprint == n.fingerprint && Path.allSame m.sources n.sources

end Marker

end LuaGlue

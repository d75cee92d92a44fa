import LuaGlue.Catalog
import LuaGlue.Registration
import LuaGlue.Text.CString

/-!
# Binding headers

The header with the wrappers and the registration functions of all types of a catalog: a prologue, a
section for each type, and the function that registers them all.
-/

namespace LuaGlue

structure HeaderStyle where
  guardName : String
  includedFile : String
  deriving DecidableEq, Repr

def HeaderStyle.standard : HeaderStyle := ⟨"_WRAP_FOR_LUA_GEN_H", "../godot_lua_convert_api.h"⟩

/-- The part of a header for one type. -/
structure Section where
  typeName : String
  wrappers : List Wrapper
  deriving DecidableEq, Repr

namespace Section

def ofType (cs : Conversions) (t : HostType) : Section :=
  ⟨t.name, Wrapper.allOf cs t.name t.members⟩

def registration (s : Section) : Registration := .ofWrappers s.typeName s.wrappers

def gaps (s : Section) : List Gap := s.wrappers.flatMap (·.gaps)

def text (s : Section) : String :=
  "/*\n * Generated members of: " ++ s.typeName ++ "\n */\n" ++
    String.join (s.wrappers.map Wrapper.text) ++ s.registration.text ++ "\n"

end Section

structure Header where
  style : HeaderStyle
  sections : List Section
  deriving DecidableEq, Repr

namespace Header

def ofCatalog (cs : Conversions) (style : HeaderStyle) (c : Catalog) : Header :=
  ⟨style, c.types.map (Section.ofType cs)⟩

/-- Make the sections of host types in order, reporting the gaps of each wrapper when it is made. -/
def emitSections {ε : Type} (cs : Conversions) : List HostType → Job ε (List Section)
  | [] => .done []
  | t :: rest =>
    (Wrapper.emitAll cs t.name t.members).bind fun wrappers =>
      (emitSections cs rest).bind fun sections => .done (⟨t.name, wrappers⟩ :: sections)

def emit {ε : Type} (cs : Conversions) (style : HeaderStyle) (c : Catalog) : Job ε Header :=
  (emitSections cs c.types).bind fun sections => .done ⟨style, sections⟩

def prologue (style : HeaderStyle) : String :=
  banner ++ "\n#ifndef " ++ style.guardName ++ "\n#define " ++ style.guardName ++
    "\n#include \"" ++ style.includedFile ++ "\"\n\n"

def typeNames (h : Header) : List String := h.sections.map (·.typeName)

def text (h : Header) : String :=
  prologue h.style ++ String.join (h.sections.map Section.text) ++ Umbrella.text h.typeNames ++
    "\n#endif\n"

def wrapperCounts (h : Header) : List (String × Nat) :=
  h.sections.map fun s => (s.typeName, s.wrappers.length)

def gaps (h : Header) : List Gap := h.sections.flatMap Section.gaps

def functionNames (h : Header) : List String :=
  (h.sections.flatMap fun s =>
    s.wrappers.map (·.functionName) ++ [Registration.nameOf s.typeName]) ++
      [Umbrella.functionName]

end Header

end LuaGlue

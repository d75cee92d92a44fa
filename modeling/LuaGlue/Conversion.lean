import LuaGlue.OrderedMap
import LuaGlue.Text.Placeholder

/-!
# Conversions

Templates of code that move a value between the host and Lua: *extract* templates read the Lua value
of a stack slot as a host value, *push* templates push a host value on the Lua stack. A table maps
type names to templates in the order in which the names were first added.
-/

namespace LuaGlue

/-- The direction of a conversion: from Lua to the host, or from the host to Lua. -/
inductive Direction where
  | extract
  | push
  deriving DecidableEq, Repr

namespace Direction

def placeholder : Direction → String
  | .extract => "{slot}"
  | .push => "{value}"

def label : Direction → String
  | .extract => "extract"
  | .push => "push"

end Direction

structure Conversion where
  typeName : String
  direction : Direction
  template : String
  deriving DecidableEq, Repr

namespace Conversion

def make? (direction : Direction) (typeName template : String) : Option Conversion :=
  if Text.holds template direction.placeholder then some ⟨typeName, direction, template⟩ else none

def renderExtract (c : Conversion) (slot : Nat) : String :=
  Text.fill c.template (Direction.placeholder .extract) (toString slot)

def renderPush (c : Conversion) (value : String) : String :=
  Text.fill c.template (Direction.placeholder .push) value

end Conversion

/-- Conversions by type name, in the order in which the names were first added. -/
structure ConversionTable where
  entries : OrderedMap String Conversion
  deriving DecidableEq, Repr

namespace ConversionTable

def empty : ConversionTable := ⟨[]⟩

/-- The table with the conversion of its type replaced, or added at the end. -/
def insert (t : ConversionTable) (c : Conversion) : ConversionTable :=
  ⟨t.entries.put c.typeName c⟩

def get? (t : ConversionTable) (typeName : String) : Option Conversion := t.entries.get? typeName

def size (t : ConversionTable) : Nat := t.entries.length

def typeNames (t : ConversionTable) : List String := t.entries.keys

theorem get?_eq_none_iff {t : ConversionTable} {typeName : String} :
    t.get? typeName = none ↔ typeName ∉ t.typeNames :=
  OrderedMap.get?_eq_none_iff

def ofList (direction : Direction) (templates : List (String × String)) : ConversionTable :=
  templates.foldl (fun t entry => t.insert ⟨entry.1, direction, entry.2⟩) empty

end ConversionTable

structure Conversions where
  extract : ConversionTable
  push : ConversionTable
  deriving DecidableEq, Repr

namespace Conversions

def empty : Conversions := ⟨.empty, .empty⟩

def godot : Conversions where
  extract := .ofList .extract [
    ("int", "luaL_optinteger(L, {slot}, 0)"),
    ("bool", "lua_toboolean(L, {slot})"),
    ("float", "luaL_optnumber(L, {slot}, 0)"),
    ("double", "luaL_optnumber(L, {slot}, 0)"),
    ("real_t", "luaL_optnumber(L, {slot}, 0)"),
    ("String", "String::utf8(luaL_optstring(L, {slot}, \"\"))"),
    ("StringName", "StringName(String::utf8(luaL_optstring(L, {slot}, \"\")))")]
  push := .ofList .push [
    ("int", "lua_pushinteger(L, {value})"),
    ("bool", "lua_pushboolean(L, {value})"),
    ("float", "lua_pushnumber(L, {value})"),
    ("double", "lua_pushnumber(L, {value})"),
    ("real_t", "lua_pushnumber(L, {value})"),
    ("String", "lua_pushstring(L, GD_UTF8_STR({value}))"),
    ("StringName", "lua_pushstring(L, GD_UTF8_NAME({value}))")]

def table (cs : Conversions) : Direction → ConversionTable
  | .extract => cs.extract
  | .push => cs.push

/-- The conversions with one more; `none` if the template lacks its placeholder. -/
def add? (cs : Conversions) (direction : Direction) (typeName template : String) :
    Option Conversions := do
  let c ← Conversion.make? direction typeName template
  match direction with
  | .extract => return { cs with extract := cs.extract.insert c }
  | .push => return { cs with push := cs.push.insert c }

end Conversions

end LuaGlue

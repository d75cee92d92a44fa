import LuaGlue.Bundle
import LuaGlue.Catalog
import LuaGlue.Conversion
import LuaGlue.Json

/-!
# The data model as JSON

Members, host types, catalogs and conversions as JSON values, and back. A record is read from an
object that has each of its fields once, whatever other fields there are, or from an array of its
fields in order. In a map, a repeated key keeps its first place and takes its last value.
-/

namespace LuaGlue.Json

def field? (fields : List (Option (List Char) × Json)) (name : String) : Option Json :=
  match fields.filter fun f => f.1 == some name.toList with
  | [(_, value)] => some value
  | _ => none

/-- The fields of a record, in the order of the names. -/
def record? (names : List String) : Json → Option (List Json)
  | .array items => if items.length = names.length then some items else none
  | .object fields =>
    if fields.all fun f => f.1.isSome then names.mapM (field? fields) else none
  | _ => none

def text? : Json → Option String
  | .string (some text) => some (String.ofList text)
  | _ => none

def list? {α : Type} (item? : Json → Option α) : Json → Option (List α)
  | .array items => items.mapM item?
  | _ => none

def map? {α : Type} (value? : Json → Option α) : Json → Option (OrderedMap String α)
  | .object fields =>
    fields.foldlM (fun entries f => do
      let name ← f.1
      let value ← value? f.2
      return OrderedMap.put (String.ofList name) value entries) []
  | _ => none

/-- The word of an enumeration: a string, or an object whose only field has the value null. -/
def word? : Json → Option String
  | .object [(some word, .null)] => some (String.ofList word)
  | j => j.text?

def ofMap {α : Type} (ofValue : α → Json) (m : OrderedMap String α) : Json :=
  ofFields (m.map fun entry => (entry.1, ofValue entry.2))

end LuaGlue.Json

namespace LuaGlue

namespace Path

def toJson (p : Path) : Json := .ofString p.text

def ofJson? (j : Json) : Option Path := j.text?.map Path.mk

end Path

namespace Member

def toJson (m : Member) : Json :=
  .ofFields [("return_type", .ofString m.returnType), ("name", .ofString m.name),
    ("arg_types", .array (m.argTypes.map .ofString))]

def ofJson? (j : Json) : Option Member := do
  match ← j.record? ["return_type", "name", "arg_types"] with
  | [returnType, name, argTypes] =>
    return ⟨← returnType.text?, ← name.text?, ← argTypes.list? Json.text?⟩
  | _ => none

end Member

namespace HostType

def toJson (t : HostType) : Json :=
  .ofFields [("type_name", .ofString t.name), ("sources", .array (t.sources.map Path.toJson)),
    ("members", .array (t.members.map Member.toJson))]

def ofJson? (j : Json) : Option HostType := do
  match ← j.record? ["type_name", "sources", "members"] with
  | [name, sources, members] =>
    return ⟨← name.text?, ← sources.list? Path.ofJson?, ← members.list? Member.ofJson?⟩
  | _ => none

end HostType

namespace Catalog

def toJson (c : Catalog) : Json := .ofFields [("types", .ofMap HostType.toJson c.entries)]

def ofJson? (j : Json) : Option Catalog := do
  match ← j.record? ["types"] with
  | [types] => return ⟨← types.map? HostType.ofJson?⟩
  | _ => none

end Catalog

namespace Direction

def word : Direction → String
  | .extract => "Extract"
  | .push => "Push"

def toJson (d : Direction) : Json := .ofString d.word

def ofJson? (j : Json) : Option Direction := do
  let word ← j.word?
  [.extract, .push].find? fun d => Direction.word d == word

end Direction

namespace Conversion

def toJson (c : Conversion) : Json :=
  .ofFields [("type_name", .ofString c.typeName), ("kind", c.direction.toJson),
    ("template", .ofString c.template)]

/-- The conversion that JSON stands for. Its template need not hold a placeholder. -/
def ofJson? (j : Json) : Option Conversion := do
  match ← j.record? ["type_name", "kind", "template"] with
  | [typeName, direction, template] =>
    return ⟨← typeName.text?, ← Direction.ofJson? direction, ← template.text?⟩
  | _ => none

end Conversion

namespace ConversionTable

def toJson (t : ConversionTable) : Json :=
  .ofFields [("entries", .ofMap Conversion.toJson t.entries)]

def ofJson? (j : Json) : Option ConversionTable := do
  match ← j.record? ["entries"] with
  | [entries] => return ⟨← entries.map? Conversion.ofJson?⟩
  | _ => none

end ConversionTable

namespace Conversions

def toJson (cs : Conversions) : Json :=
  .ofFields [("extract", cs.extract.toJson), ("push", cs.push.toJson)]

def ofJson? (j : Json) : Option Conversions := do
  match ← j.record? ["extract", "push"] with
  | [extract, push] =>
    return ⟨← ConversionTable.ofJson? extract, ← ConversionTable.ofJson? push⟩
  | _ => none

end Conversions

namespace Bundle

def toJson (b : Bundle) : Json := .ofString b.label

def ofJson? (j : Json) : Option Bundle := do ofLabel? (← j.word?)

end Bundle

end LuaGlue

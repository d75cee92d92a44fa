import LuaGlue.Text.Hex

/-!
# JSON

JSON values and their texts, compact and indented. An object keeps its fields in order, repeated
ones included, and a number keeps its digits. A string is the text that its literal denotes, or none
if the literal holds half of a surrogate pair: such a literal is well formed, but denotes no text.
-/

namespace LuaGlue

inductive Json where
  | null
  | bool (value : Bool)
  | number (literal : List Char)
  | string (text? : Option (List Char))
  | array (items : List Json)
  | object (fields : List (Option (List Char) × Json))
  deriving Inhabited

namespace Json

def ofString (s : String) : Json := .string (some s.toList)

def ofFields (fields : List (String × Json)) : Json :=
  .object (fields.map fun (name, value) => (some name.toList, value))

/-- The characters of a character in a literal. Only the quote, the backslash and the controls below
the space are escaped. -/
def escapeChar (c : Char) : List Char :=
  if c = '"' then ['\\', '"']
  else if c = '\\' then ['\\', '\\']
  else if c = '\x08' then ['\\', 'b']
  else if c = '\x0c' then ['\\', 'f']
  else if c = '\n' then ['\\', 'n']
  else if c = '\r' then ['\\', 'r']
  else if c = '\t' then ['\\', 't']
  else if c.toNat < 0x20 then ['\\', 'u'] ++ Text.hexDigits 4 c.toNat
  else [c]

def literal (text : List Char) : List Char := '"' :: text.flatMap escapeChar ++ ['"']

/-- The literal of a string. One that denotes no text is written as half of a surrogate pair. -/
def literalOf : Option (List Char) → List Char
  | some text => literal text
  | none => ['"', '\\', 'u', 'd', '8', '0', '0', '"']

mutual

def compactChars : Json → List Char
  | .null => ['n', 'u', 'l', 'l']
  | .bool true => ['t', 'r', 'u', 'e']
  | .bool false => ['f', 'a', 'l', 's', 'e']
  | .number digits => digits
  | .string text? => literalOf text?
  | .array items => '[' :: compactItems items ++ [']']
  | .object fields => '{' :: compactFields fields ++ ['}']

def compactItems : List Json → List Char
  | [] => []
  | [item] => compactChars item
  | item :: rest => compactChars item ++ ',' :: compactItems rest

def compactFields : List (Option (List Char) × Json) → List Char
  | [] => []
  | [(name, value)] => literalOf name ++ ':' :: compactChars value
  | (name, value) :: rest =>
    literalOf name ++ ':' :: compactChars value ++ ',' :: compactFields rest

end

def compact (j : Json) : String := String.ofList j.compactChars

def newLine (depth : Nat) : List Char := '\n' :: List.replicate (2 * depth) ' '

mutual

def prettyChars (depth : Nat) : Json → List Char
  | .array [] => ['[', ']']
  | .object [] => ['{', '}']
  | .array items => '[' :: prettyItems (depth + 1) items ++ newLine depth ++ [']']
  | .object fields => '{' :: prettyFields (depth + 1) fields ++ newLine depth ++ ['}']
  | .null => compactChars .null
  | .bool value => compactChars (.bool value)
  | .number digits => digits
  | .string text? => literalOf text?

def prettyItems (depth : Nat) : List Json → List Char
  | [] => []
  | [item] => newLine depth ++ prettyChars depth item
  | item :: rest => newLine depth ++ prettyChars depth item ++ ',' :: prettyItems depth rest

def prettyFields (depth : Nat) : List (Option (List Char) × Json) → List Char
  | [] => []
  | [(name, value)] => newLine depth ++ literalOf name ++ ':' :: ' ' :: prettyChars depth value
  | (name, value) :: rest =>
    newLine depth ++ literalOf name ++ ':' :: ' ' :: prettyChars depth value ++
      ',' :: prettyFields depth rest

end

def pretty (j : Json) : String := String.ofList (j.prettyChars 0)

end Json

end LuaGlue

import LuaGlue.Json

/-!
# Reading JSON

The value that a text holds. The text is one value with white space around it: objects, arrays,
strings, numbers and the three words, with no comma too many and no control character in a string.
-/

namespace LuaGlue.Json

def isSpace (c : Char) : Bool := c == ' ' || c == '\n' || c == '\r' || c == '\t'

def skipSpace (cs : List Char) : List Char := cs.dropWhile isSpace

def pairChar (high low : Nat) : Char :=
  Char.ofNat (0x10000 + 0x400 * (high - 0xD800) + (low - 0xDC00))

def isHighUnit (unit : Nat) : Bool := 0xD800 ≤ unit && unit < 0xDC00

def isLowUnit (unit : Nat) : Bool := 0xDC00 ≤ unit && unit < 0xE000

def shortEscape? (c : Char) : Option Char :=
  match c with
  | '"' => some '"'
  | '\\' => some '\\'
  | '/' => some '/'
  | 'b' => some '\x08'
  | 'f' => some '\x0c'
  | 'n' => some '\n'
  | 'r' => some '\r'
  | 't' => some '\t'
  | _ => none

/-- A part of a string literal: a character, or half of a surrogate pair. -/
inductive LiteralPart where
  | char (c : Char)
  | high (unit : Nat)
  | low (unit : Nat)

def LiteralPart.ofUnit (unit : Nat) : LiteralPart :=
  if isHighUnit unit then .high unit else if isLowUnit unit then .low unit
  else .char (Char.ofNat unit)

/-- The parts of a literal, read from behind its opening quote, and what follows it. -/
def readLiteral? : List Char → Option (List LiteralPart × List Char)
  | [] => none
  | '"' :: rest => some ([], rest)
  | '\\' :: 'u' :: a :: b :: c :: d :: rest => do
    let unit ← Text.hexNumber? [a, b, c, d]
    let (parts, after) ← readLiteral? rest
    return (.ofUnit unit :: parts, after)
  | '\\' :: c :: rest => do
    let c ← shortEscape? c
    let (parts, after) ← readLiteral? rest
    return (.char c :: parts, after)
  | c :: rest =>
    if c = '\\' ∨ c.toNat < 0x20 then none
    else do
      let (parts, after) ← readLiteral? rest
      return (.char c :: parts, after)

/-- The text of the parts of a literal; none if a half of a surrogate pair stands alone. -/
def textOf? : List LiteralPart → Option (List Char)
  | [] => some []
  | .char c :: rest => (textOf? rest).map (c :: ·)
  | .high high :: .low low :: rest => (textOf? rest).map (pairChar high low :: ·)
  | _ :: _ => none

def readDigits? (cs : List Char) : Option (List Char × List Char) :=
  let digits := cs.takeWhile Char.isDigit
  if digits.isEmpty then none else some (digits, cs.dropWhile Char.isDigit)

def readFraction? : List Char → Option (List Char × List Char)
  | '.' :: rest => do
    let (digits, after) ← readDigits? rest
    return ('.' :: digits, after)
  | rest => some ([], rest)

def readExponent? : List Char → Option (List Char × List Char)
  | [] => some ([], [])
  | e :: rest =>
    if e = 'e' ∨ e = 'E' then
      match rest with
      | '+' :: digits => do
        let (digits, after) ← readDigits? digits
        return (e :: '+' :: digits, after)
      | '-' :: digits => do
        let (digits, after) ← readDigits? digits
        return (e :: '-' :: digits, after)
      | digits => do
        let (digits, after) ← readDigits? digits
        return (e :: digits, after)
    else some ([], e :: rest)

/-- The number without a sign at the start of a list. A zero is followed by no other digit. -/
def readUnsigned? (cs : List Char) : Option (List Char × List Char) := do
  let (whole, rest) ← readDigits? cs
  guard (whole.head? ≠ some '0' ∨ whole.length = 1)
  let (fraction, rest) ← readFraction? rest
  let (exponent, rest) ← readExponent? rest
  return (whole ++ fraction ++ exponent, rest)

def readNumber? : List Char → Option (List Char × List Char)
  | '-' :: rest => do
    let (digits, after) ← readUnsigned? rest
    return ('-' :: digits, after)
  | rest => readUnsigned? rest

mutual

def readValue? : Nat → List Char → Option (Json × List Char)
  | 0, _ => none
  | fuel + 1, cs =>
    match skipSpace cs with
    | 'n' :: 'u' :: 'l' :: 'l' :: rest => some (.null, rest)
    | 't' :: 'r' :: 'u' :: 'e' :: rest => some (.bool true, rest)
    | 'f' :: 'a' :: 'l' :: 's' :: 'e' :: rest => some (.bool false, rest)
    | '"' :: rest => do
      let (parts, after) ← readLiteral? rest
      return (.string (textOf? parts), after)
    | '[' :: rest =>
      match skipSpace rest with
      | ']' :: after => some (.array [], after)
      | rest => do
        let (items, after) ← readItems? fuel rest
        return (.array items, after)
    | '{' :: rest =>
      match skipSpace rest with
      | '}' :: after => some (.object [], after)
      | rest => do
        let (fields, after) ← readFields? fuel rest
        return (.object fields, after)
    | rest => do
      let (digits, after) ← readNumber? rest
      return (.number digits, after)

/-- The values up to the end of an array, of which there is one. -/
def readItems? : Nat → List Char → Option (List Json × List Char)
  | 0, _ => none
  | fuel + 1, cs => do
    let (item, rest) ← readValue? fuel cs
    match skipSpace rest with
    | ']' :: after => return ([item], after)
    | ',' :: rest =>
      let (items, after) ← readItems? fuel rest
      return (item :: items, after)
    | _ => none

def readFields? : Nat → List Char → Option (List (Option (List Char) × Json) × List Char)
  | 0, _ => none
  | fuel + 1, cs =>
    match skipSpace cs with
    | '"' :: rest => do
      let (parts, rest) ← readLiteral? rest
      match skipSpace rest with
      | ':' :: rest =>
        let (value, rest) ← readValue? fuel rest
        match skipSpace rest with
        | '}' :: after => return ([(textOf? parts, value)], after)
        | ',' :: rest =>
          let (fields, after) ← readFields? fuel rest
          return ((textOf? parts, value) :: fields, after)
        | _ => none
      | _ => none
    | _ => none

end

/-- The value that a list of characters holds. The text of a value has a character for every level
of fuel that reading it takes, so the length of the list is enough. -/
def readChars? (cs : List Char) : Option Json := do
  let (value, rest) ← readValue? (cs.length + 1) cs
  guard (skipSpace rest).isEmpty
  return value

def read? (text : String) : Option Json := readChars? text.toList

end LuaGlue.Json

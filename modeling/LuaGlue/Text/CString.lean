import LuaGlue.Text.Hex

/-!
# C text

The comment in front of generated files, identifiers, and text and bytes as the inside of a
double-quoted string literal, with what a C compiler reads from such a literal.
-/

namespace LuaGlue

def banner : String := "/* THIS FILE IS GENERATED DO NOT EDIT */"

end LuaGlue

namespace LuaGlue.Text.CString

def escapeChars (cs : List Char) : List Char :=
  cs.flatMap fun c => if c = '\\' ∨ c = '"' then ['\\', c] else [c]

def escape (s : String) : String := String.ofList (escapeChars s.toList)

def escapeLineFeeds (s : String) : String :=
  String.ofList (s.toList.flatMap fun c => if c = '\n' then ['\\', 'n'] else [c])

def escapeBytes (bytes : ByteArray) : String :=
  String.ofList (bytes.data.toList.flatMap fun b => ['\\', 'x'] ++ hexDigits 2 b.toNat)

def identifier (name : String) : String :=
  String.ofList (name.toList.map fun c => if c.isAlphanum then c else '_')

/-- What one part of a literal stands for: a character, or the number of a hexadecimal escape. -/
inductive Element where
  | char (c : Char)
  | code (value : Nat)
  deriving DecidableEq, Repr

def isHexDigit (c : Char) : Bool := (hexValue? c).isSome

def escaped? : Char → Option Char
  | 'n' => some '\n'
  | 'r' => some '\r'
  | '\\' => some '\\'
  | '"' => some '"'
  | _ => none

/-- What a literal stands for and what follows it, read from behind its opening quote. A
hexadecimal escape takes as many digits as follow. A line feed or a carriage return ends the line,
which leaves the literal open, and of the other escapes only those of the backslash, the quote and
the two line ends are read. -/
def read? : List Char → Option (List Element × List Char)
  | [] => none
  | '"' :: rest => some ([], rest)
  | '\n' :: _ => none
  | '\r' :: _ => none
  | '\\' :: 'x' :: rest =>
    let digits := rest.takeWhile isHexDigit
    if digits.isEmpty then none
    else do
      let value ← hexNumber? digits
      let (elements, after) ← read? (rest.dropWhile isHexDigit)
      return (.code value :: elements, after)
  | '\\' :: letter :: rest => do
    let c ← escaped? letter
    let (elements, after) ← read? rest
    return (.char c :: elements, after)
  | '\\' :: [] => none
  | c :: rest => do
    let (elements, after) ← read? rest
    return (.char c :: elements, after)
termination_by cs => cs.length
decreasing_by
  all_goals simp_wf
  all_goals have := (List.dropWhile_sublist isHexDigit (l := rest)).length_le
  all_goals omega

end LuaGlue.Text.CString

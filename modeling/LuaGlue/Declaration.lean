import LuaGlue.Member
import LuaGlue.Text.Lines
import LuaGlue.Text.Word

/-!
# Declarations

A line of declaration text declares a member if it reads: white space, a word, white space, a word,
white space, an opening parenthesis, the arguments, a closing parenthesis. The closing parenthesis
is the last one before the first line feed behind the opening one; what follows it is ignored. All
other lines declare nothing.
-/

namespace LuaGlue.Declaration

open LuaGlue.Text

/-- The types of an argument list: its pieces between commas, trimmed, without the empty ones. -/
def splitArgChars (raw : List Char) : List (List Char) :=
  ((raw.splitOn ',').map trimChars).filter fun piece => !piece.isEmpty

def splitArgs (raw : String) : List String := (splitArgChars raw.toList).map String.ofList

def beforeLast? (c : Char) (cs : List Char) : Option (List Char) :=
  match cs.reverse.dropWhile (· != c) with
  | [] => none
  | _ :: before => some before.reverse

/-- A line taken apart: white space, return type, white space, name, white space, the arguments
between their parentheses, and the rest. -/
structure Layout where
  lead : List Char
  returnType : List Char
  gap : List Char
  name : List Char
  space : List Char
  arguments : List Char
  rest : List Char
  deriving DecidableEq, Repr

namespace Layout

def line (l : Layout) : List Char :=
  l.lead ++ l.returnType ++ l.gap ++ l.name ++ l.space ++ '(' :: l.arguments ++ ')' :: l.rest

def member (l : Layout) : Member where
  returnType := String.ofList l.returnType
  name := String.ofList l.name
  argTypes := (splitArgChars l.arguments).map String.ofList

/-- The rules of a declaration: each part holds only characters of its class, the words and the
white space between them are not empty, the arguments stand on one line, and no closing parenthesis
follows on that line. -/
structure WellFormed (l : Layout) : Prop where
  lead_blank : ∀ c ∈ l.lead, isBlank c = true
  returnType_nonempty : l.returnType ≠ []
  returnType_word : ∀ c ∈ l.returnType, isWord c = true
  gap_nonempty : l.gap ≠ []
  gap_blank : ∀ c ∈ l.gap, isBlank c = true
  name_nonempty : l.name ≠ []
  name_word : ∀ c ∈ l.name, isWord c = true
  space_blank : ∀ c ∈ l.space, isBlank c = true
  arguments_line : '\n' ∉ l.arguments
  rest_closed : ')' ∉ l.rest.takeWhile (· != '\n')

end Layout

def layout? (line : List Char) : Option Layout :=
  let fromType := line.dropWhile isBlank
  let fromGap := fromType.dropWhile isWord
  let fromName := fromGap.dropWhile isBlank
  let fromSpace := fromName.dropWhile isWord
  let returnType := fromType.takeWhile isWord
  let gap := fromGap.takeWhile isBlank
  let name := fromName.takeWhile isWord
  if returnType.isEmpty || gap.isEmpty || name.isEmpty then none
  else
    match fromSpace.dropWhile isBlank with
    | '(' :: fromArguments =>
      match beforeLast? ')' (fromArguments.takeWhile (· != '\n')) with
      | none => none
      | some arguments => some {
          lead := line.takeWhile isBlank
          returnType, gap, name
          space := fromSpace.takeWhile isBlank
          arguments
          rest := fromArguments.drop (arguments.length + 1) }
    | _ => none

def readChars? (line : List Char) : Option Member := (layout? line).map Layout.member

def read? (line : String) : Option Member := readChars? line.toList

def readAll (text : String) : List Member := (lines text.toList).filterMap readChars?

def print (m : Member) : String :=
  m.returnType ++ " " ++ m.name ++ "(" ++ ", ".intercalate m.argTypes ++ ")"

def typeName (fileName : String) : String := String.ofList (fileName.toList.takeWhile (· != '.'))

end LuaGlue.Declaration

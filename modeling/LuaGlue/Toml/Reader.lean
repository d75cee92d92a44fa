import LuaGlue.Toml.Scalar

/-!
# Reading TOML

The table that a TOML 1.0 document holds. A byte-order mark may start it.
-/

namespace LuaGlue.Toml.Reader

def isSpace (c : Char) : Bool := c == ' ' || c == '\t'

def skipSpace (cs : List Char) : List Char := cs.dropWhile isSpace

/-- A character that text may hold as it stands: no control but the tab. -/
def isPlain (c : Char) : Bool := c == '\t' || (0x20 ≤ c.toNat && c.toNat ≠ 0x7F)

/-- The list without white space, line ends and comments at its start. The flag tells whether the
list starts within a comment. -/
def skipLayout : Bool → List Char → List Char
  | _, [] => []
  | _, '\n' :: rest => skipLayout false rest
  | _, '\r' :: '\n' :: rest => skipLayout false rest
  | true, c :: rest => if isPlain c then skipLayout true rest else c :: rest
  | false, c :: rest =>
    if isSpace c then skipLayout false rest
    else if c = '#' then skipLayout true rest
    else c :: rest

/-- What follows the line, which may hold only white space and a comment. -/
def lineEnd? (cs : List Char) : Option (List Char) :=
  let rest :=
    match skipSpace cs with
    | '#' :: comment => comment.dropWhile isPlain
    | rest => rest
  match rest with
  | [] => some []
  | '\n' :: after => some after
  | '\r' :: '\n' :: after => some after
  | _ => none

def scalar? (code : Nat) : Option Char :=
  if code < 0xD800 ∨ (0xDFFF < code ∧ code < 0x110000) then some (Char.ofNat code) else none

def shortEscape? (c : Char) : Option Char :=
  match c with
  | 'b' => some '\x08'
  | 't' => some '\t'
  | 'n' => some '\n'
  | 'f' => some '\x0c'
  | 'r' => some '\r'
  | '"' => some '"'
  | '\\' => some '\\'
  | _ => none

def push (c : Char) (read : Option (List Char × List Char)) : Option (List Char × List Char) :=
  read.map fun (text, after) => (c :: text, after)

/-- The text of a string with escapes, read from behind its opening quote, and what follows it. -/
def basic? : List Char → Option (List Char × List Char)
  | [] => none
  | '"' :: rest => some ([], rest)
  | '\\' :: 'u' :: a :: b :: c :: d :: rest => do
    push (← scalar? (← Text.hexNumber? [a, b, c, d])) (basic? rest)
  | '\\' :: 'U' :: a :: b :: c :: d :: e :: f :: g :: h :: rest => do
    push (← scalar? (← Text.hexNumber? [a, b, c, d, e, f, g, h])) (basic? rest)
  | '\\' :: c :: rest => do push (← shortEscape? c) (basic? rest)
  | c :: rest => if isPlain c && c != '\\' then push c (basic? rest) else none

/-- The text of a string of several lines with escapes, read from behind its opening quotes, and
what follows it. After a backslash at the end of a line, white space and line ends are dropped; the
flag tells whether that is going on. -/
def basicLines? : Bool → List Char → Option (List Char × List Char)
  | _, [] => none
  | _, '"' :: '"' :: '"' :: '"' :: '"' :: rest => some (['"', '"'], rest)
  | _, '"' :: '"' :: '"' :: '"' :: rest => some (['"'], rest)
  | _, '"' :: '"' :: '"' :: rest => some ([], rest)
  | dropping, '\n' :: rest =>
    if dropping then basicLines? true rest else push '\n' (basicLines? false rest)
  | dropping, '\r' :: '\n' :: rest =>
    if dropping then basicLines? true rest else push '\n' (basicLines? false rest)
  | _, '\\' :: 'u' :: a :: b :: c :: d :: rest => do
    push (← scalar? (← Text.hexNumber? [a, b, c, d])) (basicLines? false rest)
  | _, '\\' :: 'U' :: a :: b :: c :: d :: e :: f :: g :: h :: rest => do
    push (← scalar? (← Text.hexNumber? [a, b, c, d, e, f, g, h])) (basicLines? false rest)
  | dropping, c :: rest =>
    if isSpace c && dropping then basicLines? true rest
    else if c = '\\' then
      match rest with
      | [] => none
      | e :: after =>
        match skipSpace (e :: after) with
        | '\n' :: _ => basicLines? true (e :: after)
        | '\r' :: '\n' :: _ => basicLines? true (e :: after)
        | _ => do push (← shortEscape? e) (basicLines? false after)
    else if isPlain c then push c (basicLines? false rest)
    else none

def literal? : List Char → Option (List Char × List Char)
  | [] => none
  | '\'' :: rest => some ([], rest)
  | c :: rest => if isPlain c then push c (literal? rest) else none

def literalLines? : List Char → Option (List Char × List Char)
  | [] => none
  | '\'' :: '\'' :: '\'' :: '\'' :: '\'' :: rest => some (['\'', '\''], rest)
  | '\'' :: '\'' :: '\'' :: '\'' :: rest => some (['\''], rest)
  | '\'' :: '\'' :: '\'' :: rest => some ([], rest)
  | '\n' :: rest => push '\n' (literalLines? rest)
  | '\r' :: '\n' :: rest => push '\n' (literalLines? rest)
  | c :: rest => if isPlain c then push c (literalLines? rest) else none

def dropLineEnd : List Char → List Char
  | '\n' :: rest => rest
  | '\r' :: '\n' :: rest => rest
  | rest => rest

def string? : List Char → Option (List Char × List Char)
  | '"' :: '"' :: '"' :: rest => basicLines? false (dropLineEnd rest)
  | '"' :: rest => basic? rest
  | '\'' :: '\'' :: '\'' :: rest => literalLines? (dropLineEnd rest)
  | '\'' :: rest => literal? rest
  | _ => none

def isBareKeyChar (c : Char) : Bool := c.isAlphanum || c == '-' || c == '_'

def keyPart? : List Char → Option (String × List Char)
  | '"' :: rest => (basic? rest).map fun (text, after) => (String.ofList text, after)
  | '\'' :: rest => (literal? rest).map fun (text, after) => (String.ofList text, after)
  | cs =>
    let name := cs.takeWhile isBareKeyChar
    if name.isEmpty then none else some (String.ofList name, cs.dropWhile isBareKeyChar)

/-- The parts of the key at the start of a list, at most a given number of them with dots between
them, and what follows. White space may stand around the parts. -/
def keyParts? : Nat → List Char → Option (List String × List Char)
  | 0, _ => none
  | room + 1, cs => do
    let (part, rest) ← keyPart? (skipSpace cs)
    match skipSpace rest with
    | '.' :: rest =>
      let (parts, after) ← keyParts? room rest
      return (part :: parts, after)
    | after => return ([part], after)

/-- How many parts a key may have, and how many arrays and inline tables may stand within each
other. -/
def depthLimit : Nat := 79

def key? (cs : List Char) : Option (List String × List Char) := keyParts? depthLimit cs

mutual

/-- The value at the start of a list, and what follows it. There may be `room` arrays and inline
tables within each other. -/
def value? : Nat → Nat → List Char → Option (Toml × List Char)
  | 0, _, _ => none
  | fuel + 1, room, cs =>
    match cs with
    | '[' :: rest => do
      guard (room ≠ 0)
      let (items, after) ← items? fuel (room - 1) (skipLayout false rest)
      return (.array items, after)
    | '{' :: rest => do
      guard (room ≠ 0)
      match skipSpace rest with
      | '}' :: after => return (.table .inline [], after)
      | rest =>
        let (entries, after) ← entries? fuel (room - 1) [] rest
        return (.table .inline entries, after)
    | '"' :: _ => (string? cs).map fun (text, after) => (.string (String.ofList text), after)
    | '\'' :: _ => (string? cs).map fun (text, after) => (.string (String.ofList text), after)
    | _ => Scalar.read? cs

/-- The values up to the end of an array. A comma may follow the last one. -/
def items? : Nat → Nat → List Char → Option (List Toml × List Char)
  | 0, _, _ => none
  | _ + 1, _, ']' :: after => some ([], after)
  | fuel + 1, room, cs => do
    let (item, rest) ← value? fuel room cs
    match skipLayout false rest with
    | ']' :: after => return ([item], after)
    | ',' :: rest =>
      let (items, after) ← items? fuel room (skipLayout false rest)
      return (item :: items, after)
    | _ => none

/-- The entries up to the end of an inline table, added to those before them. No comma follows the
last one, and no line end stands between them. -/
def entries? : Nat → Nat → Entries → List Char → Option (Entries × List Char)
  | 0, _, _, _ => none
  | fuel + 1, room, before, cs => do
    let (path, rest) ← key? cs
    match rest with
    | '=' :: rest =>
      let (value, rest) ← value? fuel room (skipSpace rest)
      let entries ← assign? path value before
      match skipSpace rest with
      | '}' :: after => return (entries, after)
      | ',' :: rest => entries? fuel room entries rest
      | _ => none
    | _ => none

end

/-- The table of the lines of a document below a header, added to the table before them. -/
def lines? : Nat → List String → Entries → List Char → Option Entries
  | 0, _, _, _ => none
  | fuel + 1, header, entries, cs =>
    match skipLayout false cs with
    | [] => some entries
    | '[' :: '[' :: rest => do
      let (path, rest) ← key? rest
      match rest with
      | ']' :: ']' :: rest => lines? fuel path (← openElement? path entries) (← lineEnd? rest)
      | _ => none
    | '[' :: rest => do
      let (path, rest) ← key? rest
      match rest with
      | ']' :: rest => lines? fuel path (← openTable? path entries) (← lineEnd? rest)
      | _ => none
    | cs => do
      let (path, rest) ← key? cs
      match rest with
      | '=' :: rest =>
        let (value, rest) ← value? (rest.length + 1) depthLimit (skipSpace rest)
        lines? fuel header (← assignUnder? header path value entries) (← lineEnd? rest)
      | _ => none

/-- The table of a document. Every line and every value takes a character, so the length of the text
is enough fuel. -/
def document? (text : String) : Option Entries :=
  let cs :=
    match text.toList with
    | '\uFEFF' :: rest => rest
    | cs => cs
  lines? (cs.length + 1) [] [] cs

end LuaGlue.Toml.Reader

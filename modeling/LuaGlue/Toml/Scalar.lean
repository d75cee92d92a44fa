import LuaGlue.Text.Hex
import LuaGlue.Toml

/-!
# Unquoted TOML values

The words true and false, numbers, and dates and times. An unquoted value is a run of letters,
digits and a few signs; a date and a time may also stand with a space between them.
-/

namespace LuaGlue.Toml.Scalar

def isScalarChar (c : Char) : Bool :=
  c.isAlphanum || c == '+' || c == '-' || c == '_' || c == '.' || c == ':'

/-- The rest of a run of digits, with single underscores between them dropped, and what follows. -/
def digitsAfter (isDigit : Char → Bool) : List Char → List Char × List Char
  | [] => ([], [])
  | [c] => if isDigit c then ([c], []) else ([], [c])
  | c :: d :: rest =>
    if isDigit c then
      let (digits, after) := digitsAfter isDigit (d :: rest)
      (c :: digits, after)
    else if c = '_' ∧ isDigit d then
      let (digits, after) := digitsAfter isDigit rest
      (d :: digits, after)
    else ([], c :: d :: rest)

def digits? (isDigit : Char → Bool) : List Char → Option (List Char × List Char)
  | [] => none
  | c :: rest =>
    if isDigit c then
      let (digits, after) := digitsAfter isDigit rest
      some (c :: digits, after)
    else none

def dropSign : List Char → List Char
  | '+' :: rest => rest
  | '-' :: rest => rest
  | rest => rest

def valueOf (base : Nat) (digits : List Char) : Nat :=
  digits.foldl (fun value c => base * value + (Text.hexValue? c).getD 0) 0

/-- A decimal: its digits, read as a whole number, times a power of ten. -/
structure Decimal where
  digits : List Char
  exponent : Int

namespace Decimal

/-- Half-way between the largest number of sixty-four bits and the power of two above it. From here
on, rounding gives infinity. -/
def limit : Nat := Nat.pow 2 1024 - Nat.pow 2 970

def limitLength : Nat := 309

/-- Whether a decimal reaches the limit. Unless it has as many digits before its point as the limit,
their number decides. -/
def isTooLarge (d : Decimal) : Bool :=
  let significant := d.digits.dropWhile (· == '0')
  let length : Int := significant.length + d.exponent
  if significant.isEmpty || length < limitLength then false
  else if length > limitLength then true
  else
    limit * Nat.pow 10 (-d.exponent).toNat ≤ valueOf 10 significant * Nat.pow 10 d.exponent.toNat

end Decimal

/-- The exponent that is all of a list; an empty list has the exponent zero. -/
def exponent? : List Char → Option Int
  | [] => some 0
  | c :: rest => do
    guard (c = 'e' ∨ c = 'E')
    let (digits, after) ← digits? Char.isDigit (dropSign rest)
    guard after.isEmpty
    let size : Int := valueOf 10 digits
    return if rest.head? = some '-' then -size else size

/-- The whole part of a number without a sign, which has no zero before another digit, and what
follows. -/
def whole? (cs : List Char) : Option (List Char × List Char) := do
  let (digits, rest) ← digits? Char.isDigit cs
  guard (digits.head? ≠ some '0' ∨ digits.length = 1)
  return (digits, rest)

/-- The number without a sign, but with a fraction or an exponent, that is all of a list. -/
def decimal? (cs : List Char) : Option Decimal := do
  let (whole, rest) ← whole? cs
  match rest with
  | [] => none
  | '.' :: rest =>
    let (fraction, rest) ← digits? Char.isDigit rest
    return ⟨whole ++ fraction, (← exponent? rest) - fraction.length⟩
  | rest => return ⟨whole, ← exponent? rest⟩

/-- Whether a list is a number with a fraction or an exponent, or one of the words for infinity and
for no number. Without a minus sign, the number must not be too large. -/
def isFloat (cs : List Char) : Bool :=
  let unsigned := dropSign cs
  unsigned == ['i', 'n', 'f'] || unsigned == ['n', 'a', 'n'] ||
    (decimal? unsigned).any fun d => cs.head? == some '-' || !d.isTooLarge

def isInteger (cs : List Char) : Bool :=
  let based := fun (base : Nat) (rest : List Char) =>
    let isDigit := fun c => (Text.hexValue? c).any (· < base)
    (digits? isDigit rest).any fun (digits, after) =>
      after.isEmpty && valueOf base digits < Nat.pow 2 63
  match cs with
  | '0' :: 'x' :: rest => based 16 rest
  | '0' :: 'o' :: rest => based 8 rest
  | '0' :: 'b' :: rest => based 2 rest
  | _ =>
    (whole? (dropSign cs)).any fun (digits, after) =>
      let limit := if cs.head? = some '-' then Nat.pow 2 63 else Nat.pow 2 63 - 1
      after.isEmpty && valueOf 10 digits ≤ limit

def twoDigits? (low high : Nat) : List Char → Option (List Char × List Char)
  | a :: b :: rest =>
    let value := valueOf 10 [a, b]
    if a.isDigit && b.isDigit && low ≤ value && value ≤ high then some ([a, b], rest) else none
  | _ => none

def daysIn (year month : Nat) : Nat :=
  if month = 2 then
    if (year % 4 = 0 ∧ year % 100 ≠ 0) ∨ year % 400 = 0 then 29 else 28
  else if month = 4 ∨ month = 6 ∨ month = 9 ∨ month = 11 then 30
  else 31

def date? : List Char → Option (List Char × List Char)
  | a :: b :: c :: d :: '-' :: rest => do
    guard ([a, b, c, d].all Char.isDigit)
    let (month, rest) ← twoDigits? 1 12 rest
    match rest with
    | '-' :: rest =>
      let (day, rest) ← twoDigits? 1 (daysIn (valueOf 10 [a, b, c, d]) (valueOf 10 month)) rest
      return ([a, b, c, d] ++ '-' :: month ++ '-' :: day, rest)
    | _ => none
  | _ => none

/-- The fraction of a second: at most nine digits count, and zeros at the end do not. -/
def fraction (digits : List Char) : List Char :=
  let counted := ((digits.take 9).reverse.dropWhile (· == '0')).reverse
  if counted.isEmpty then [] else '.' :: counted

def time? (cs : List Char) : Option (List Char × List Char) := do
  let (hour, rest) ← twoDigits? 0 23 cs
  match rest with
  | ':' :: rest =>
    let (minute, rest) ← twoDigits? 0 59 rest
    match rest with
    | ':' :: rest =>
      let (second, rest) ← twoDigits? 0 60 rest
      let whole := hour ++ ':' :: minute ++ ':' :: second
      match rest with
      | '.' :: rest =>
        let digits := rest.takeWhile Char.isDigit
        guard (!digits.isEmpty)
        return (whole ++ fraction digits, rest.dropWhile Char.isDigit)
      | rest => return (whole, rest)
    | _ => none
  | _ => none

/-- The offset that is all of a list; a list without one has none. An offset of nothing is written
with a plus. -/
def offset? : List Char → Option (List Char)
  | [] => some []
  | ['Z'] => some ['Z']
  | ['z'] => some ['Z']
  | sign :: rest => do
    guard (sign = '+' ∨ sign = '-')
    let (hour, rest) ← twoDigits? 0 23 rest
    match rest with
    | ':' :: rest =>
      let (minute, rest) ← twoDigits? 0 59 rest
      guard rest.isEmpty
      let isZero := (hour ++ minute).all (· == '0')
      return (if isZero then '+' else sign) :: hour ++ ':' :: minute
    | _ => none

def moment? (cs : List Char) : Option (List Char) :=
  match date? cs with
  | some (date, []) => some date
  | some (date, separator :: rest) => do
    guard (separator = 'T' ∨ separator = 't' ∨ separator = ' ')
    let (time, rest) ← time? rest
    let offset ← offset? rest
    return date ++ 'T' :: time ++ offset
  | none => do
    let (time, rest) ← time? cs
    guard rest.isEmpty
    return time

def ofChars? (cs : List Char) : Option Toml :=
  if cs = ['t', 'r', 'u', 'e'] then some (.boolean true)
  else if cs = ['f', 'a', 'l', 's', 'e'] then some (.boolean false)
  else if isInteger cs || isFloat cs then some (.number (String.ofList cs))
  else (moment? cs).map fun text => .moment (String.ofList text)

def read? (cs : List Char) : Option (Toml × List Char) :=
  let first := cs.takeWhile isScalarChar
  let rest := cs.dropWhile isScalarChar
  let alone := (ofChars? first).map fun value => (value, rest)
  match rest with
  | ' ' :: after =>
    let second := after.takeWhile isScalarChar
    match (date? first), moment? (first ++ ' ' :: second) with
    | some (_, []), some both =>
      some (.moment (String.ofList both), after.dropWhile isScalarChar)
    | _, _ => alone
  | _ => alone

end LuaGlue.Toml.Scalar

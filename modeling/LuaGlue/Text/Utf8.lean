/-!
# Reading UTF-8

Bytes as text. Well-formed UTF-8 is read as it stands. Otherwise every maximal ill-formed part, a
sequence that starts as a character and breaks off, or a byte that starts none, is read as one
replacement character.
-/

namespace LuaGlue.Text

def ofUtf8? (bytes : ByteArray) : Option String := String.fromUTF8? bytes

/-- What the next byte may be: the start of a character, or one more byte of a character of which
`pending` bytes are missing, the next between `low` and `high`, with `code` read so far. -/
inductive Utf8State where
  | start
  | inside (pending : Nat) (low high : UInt8) (code : Nat)

/-- The state after a byte that starts a character, and what the byte yields by itself: a character,
or `none` if it starts no character. -/
def Utf8State.enter (b : UInt8) : List (Option Char) × Utf8State :=
  if b < 0x80 then ([some (Char.ofNat b.toNat)], .start)
  else if b < 0xC2 then ([none], .start)
  else if b < 0xE0 then ([], .inside 1 0x80 0xBF (b.toNat % 32))
  else if b < 0xF0 then
    let low := if b = 0xE0 then 0xA0 else 0x80
    let high := if b = 0xED then 0x9F else 0xBF
    ([], .inside 2 low high (b.toNat % 16))
  else if b < 0xF5 then
    let low := if b = 0xF0 then 0x90 else 0x80
    let high := if b = 0xF4 then 0x8F else 0xBF
    ([], .inside 3 low high (b.toNat % 8))
  else ([none], .start)

/-- The characters of the bytes from a state on, `none` for each ill-formed part. -/
def utf8Parts : Utf8State → List UInt8 → List (Option Char)
  | .start, [] => []
  | .inside .., [] => [none]
  | .start, b :: rest =>
    let entered := Utf8State.enter b
    entered.1 ++ utf8Parts entered.2 rest
  | .inside pending low high code, b :: rest =>
    if low ≤ b ∧ b ≤ high then
      let code := 64 * code + b.toNat % 64
      if pending ≤ 1 then some (Char.ofNat code) :: utf8Parts .start rest
      else utf8Parts (.inside (pending - 1) 0x80 0xBF code) rest
    else
      let entered := Utf8State.enter b
      none :: (entered.1 ++ utf8Parts entered.2 rest)

/-- The text of bytes, and whether ill-formed parts of them were replaced. -/
structure Decoded where
  text : String
  replaced : Bool
  deriving DecidableEq, Repr

def decode (bytes : ByteArray) : Decoded :=
  match ofUtf8? bytes with
  | some text => ⟨text, false⟩
  | none =>
    let characters := (utf8Parts .start bytes.data.toList).map fun part => part.getD '\uFFFD'
    ⟨String.ofList characters, true⟩

@[simp] theorem ofUtf8?_toUTF8 (s : String) : ofUtf8? s.toUTF8 = some s := by
  have valid : s.toUTF8.IsValidUTF8 := s.isValidUTF8
  simp only [ofUtf8?, String.fromUTF8?, valid, dite_true]
  rfl

@[simp] theorem decode_toUTF8 (s : String) : decode s.toUTF8 = ⟨s, false⟩ := by
  unfold decode
  rw [ofUtf8?_toUTF8]

end LuaGlue.Text

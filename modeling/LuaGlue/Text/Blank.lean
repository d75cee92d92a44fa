/-!
# White space

The characters with the Unicode property White_Space, and trimming by them or by another class of
characters. The functions work on `List Char`; the ones on `String` are their images.
-/

namespace LuaGlue.Text

/-- The code points with the Unicode property White_Space. -/
def blankCodes : List Nat :=
  [0x09, 0x0A, 0x0B, 0x0C, 0x0D, 0x20, 0x85, 0xA0, 0x1680,
   0x2000, 0x2001, 0x2002, 0x2003, 0x2004, 0x2005, 0x2006, 0x2007, 0x2008, 0x2009, 0x200A,
   0x2028, 0x2029, 0x202F, 0x205F, 0x3000]

def isBlank (c : Char) : Bool := blankCodes.contains c.toNat

def dropEndWhile (p : Char → Bool) (cs : List Char) : List Char :=
  (cs.reverse.dropWhile p).reverse

def trimEndChars (cs : List Char) : List Char := dropEndWhile isBlank cs

def trimChars (cs : List Char) : List Char := trimEndChars (cs.dropWhile isBlank)

def trim (s : String) : String := String.ofList (trimChars s.toList)

@[simp] theorem trim_toList (s : String) : (trim s).toList = trimChars s.toList := by
  simp [trim]

end LuaGlue.Text

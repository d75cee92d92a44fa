import LuaGlue.Job
import LuaGlue.Text.Lines
import LuaGlue.Text.Utf8

/-!
# Resources

A file that a bundle embeds: its path and its bytes without a byte-order mark. Its text is read as
UTF-8, with replacement characters for what is not well formed.
-/

namespace LuaGlue

structure Resource where
  path : Path
  content : ByteArray
  deriving DecidableEq

namespace Resource

def byteOrderMark : List UInt8 := [0xEF, 0xBB, 0xBF]

def dropMark (bytes : ByteArray) : ByteArray :=
  if byteOrderMark.isPrefixOf bytes.data.toList then
    ⟨(bytes.data.toList.drop byteOrderMark.length).toArray⟩
  else bytes

def ofBytes (path : Path) (bytes : ByteArray) : Resource := ⟨path, dropMark bytes⟩

def text (r : Resource) : String := (Text.decode r.content).text

def warnings (r : Resource) : List Event :=
  if (Text.decode r.content).replaced then
    [⟨.warn, r.path.text ++ " is not valid UTF-8, invalid sequences replaced"⟩]
  else []

end Resource

end LuaGlue

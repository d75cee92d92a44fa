/-!
# Members

A member function of a host type, as far as its declaration tells: return type, name and argument
types. Type names are texts, compared as they stand.
-/

namespace LuaGlue

structure Member where
  returnType : String
  name : String
  argTypes : List String
  deriving DecidableEq, Repr, Inhabited

namespace Member

def voidType : String := "void"

/-- The name of the member that turns a value into a text. -/
def tostringName : String := "__tostring"

/-- The name of the member that runs when a value is collected. -/
def finalizerName : String := "__gc"

def isVoid (m : Member) : Bool := m.returnType == voidType

def isTostring (m : Member) : Bool := m.name == tostringName

def isFinalizer (m : Member) : Bool := m.name == finalizerName

end Member

end LuaGlue

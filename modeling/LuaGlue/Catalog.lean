import LuaGlue.Declaration
import LuaGlue.OrderedMap
import LuaGlue.Path

/-!
# Host types and catalogs

A host type collects the members that its declaration files contribute. A catalog holds host types
by name, in the order in which the names were first mentioned.
-/

namespace LuaGlue

/-- A host type: its declaration files and its members, each in the order given. -/
structure HostType where
  name : String
  sources : List Path
  members : List Member
  deriving DecidableEq, Repr, Inhabited

namespace HostType

def named (name : String) : HostType := ⟨name, [], []⟩

def extend (t : HostType) (sources : List Path) (members : List Member) : HostType :=
  { t with sources := t.sources ++ sources, members := t.members ++ members }

end HostType

/-- Host types by name, in the order in which the names were first mentioned. -/
structure Catalog where
  entries : OrderedMap String HostType
  deriving DecidableEq, Repr

namespace Catalog

def empty : Catalog := ⟨[]⟩

/-- The catalog with sources and members added to the type of a name, which is added first if it is
new. -/
def extend (c : Catalog) (name : String) (sources : List Path) (members : List Member) : Catalog :=
  ⟨c.entries.alter name fun t? => (t?.getD (.named name)).extend sources members⟩

/-- The catalog with a name mentioned and, if given, a member added to its type. -/
def mention (c : Catalog) (name : String) (member : Option Member) : Catalog :=
  c.extend name [] member.toList

def addSource (c : Catalog) (name : String) (source : Path) (members : List Member) : Catalog :=
  c.extend name [source] members

def insert (c : Catalog) (t : HostType) : Catalog := c.extend t.name t.sources t.members

def get? (c : Catalog) (name : String) : Option HostType := c.entries.get? name

def size (c : Catalog) : Nat := c.entries.length

def isEmpty (c : Catalog) : Bool := c.entries.isEmpty

def types (c : Catalog) : List HostType := c.entries.map (·.2)

def ofList (types : List HostType) : Catalog := types.foldl insert empty

end Catalog

end LuaGlue

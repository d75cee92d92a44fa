import LuaGlue.OrderedMap
import LuaGlue.Path

/-!
# File trees

The files and folders that a build reads and writes, as a value. A path is looked up part by part
from the root or from the working folder: every part but the last must lead to a folder, an idle
part stays, two dots go up, and a slash at the end asks for a folder.
-/

namespace LuaGlue

/-- Files are compared byte by byte. Other libraries decide this in their own ways. -/
instance (priority := 2000) decidableEqBytes : DecidableEq ByteArray := ByteArray.decEq

/-- A place in the tree: the names that lead to it from the root. -/
abbrev Location := List String

namespace FileTree

inductive Entry where
  | file (content : ByteArray)
  | folder
  deriving DecidableEq

inductive Fault where
  | missing
  | notFolder
  | isFolder
  | taken
  | nameTooLong
  | invalidName
  /-- Any other reason that a machine may have; a file tree has none. -/
  | refused
  deriving DecidableEq, Repr

end FileTree

/-- The entries of the tree below its root, and the folder where relative paths start. -/
structure FileTree where
  workFolder : Location
  entries : OrderedMap Location FileTree.Entry
  deriving DecidableEq

namespace FileTree

def empty : FileTree := ⟨["work"], [(["work"], .folder)]⟩

/-- What stands at a location; the root is a folder. -/
def entry? (t : FileTree) (location : Location) : Option Entry :=
  if location = [] then some .folder else t.entries.get? location

def insert (t : FileTree) (location : Location) (e : Entry) : FileTree :=
  { t with entries := t.entries.put location e }

/-- The bytes of the longest name that a folder can hold. -/
def nameLimit : Nat := 255

/-- The bytes from which on a path is too long. -/
def pathLimit : Nat := 4096

/-- The location reached from a folder by the parts of a path. The last part need not exist. -/
def walk (t : FileTree) : Location → List String → Except Fault Location
  | location, [] => .ok location
  | location, part :: parts =>
    match t.entry? location with
    | none => .error .missing
    | some (.file _) => .error .notFolder
    | some .folder =>
      if part = "" ∨ part = "." then t.walk location parts
      else if part = ".." then t.walk location.dropLast parts
      else if part.utf8ByteSize > nameLimit then .error .nameTooLong
      else t.walk (location ++ [part]) parts

def textFault? (p : Path) : Option Fault :=
  if '\x00' ∈ p.text.toList then some .invalidName
  else if p.text.isEmpty then some .missing
  else if p.text.utf8ByteSize ≥ pathLimit then some .nameTooLong
  else none

def follow (t : FileTree) (p : Path) : Except Fault Location :=
  let start := if p.isAbsolute then [] else t.workFolder
  t.walk start ((p.text.toList.splitOn '/').map String.ofList)

def locate (t : FileTree) (p : Path) : Except Fault Location :=
  match textFault? p with
  | some fault => .error fault
  | none => t.follow p

def at? (t : FileTree) (p : Path) : Option Entry :=
  match t.locate p with
  | .ok location => t.entry? location
  | .error _ => none

def isFolder (t : FileTree) (p : Path) : Bool := t.at? p = some .folder

def read (t : FileTree) (p : Path) : Except Fault ByteArray :=
  match t.locate p with
  | .error fault => .error fault
  | .ok location =>
    match t.entry? location with
    | none => .error .missing
    | some .folder => .error .isFolder
    | some (.file content) => .ok content

def write (t : FileTree) (p : Path) (content : ByteArray) : Except Fault FileTree :=
  match t.locate p with
  | .error fault => .error fault
  | .ok location =>
    match t.entry? location with
    | some .folder => .error .isFolder
    | _ => .ok (t.insert location (.file content))

/-- The path without the slashes at its end, unless it holds nothing else. -/
def bare (p : Path) : Path :=
  let stripped := (p.text.toList.reverse.dropWhile (· == '/')).reverse
  if stripped.isEmpty then p else ⟨String.ofList stripped⟩

def makeFolder (t : FileTree) (p : Path) : Except Fault FileTree :=
  match textFault? p with
  | some fault => .error fault
  | none =>
    match t.follow (bare p) with
    | .error fault => .error fault
    | .ok location =>
      match t.entry? location with
      | some _ => .error .taken
      | none => .ok (t.insert location .folder)

/-- The tree with the first of the given folders, which stand from the inside out, and with those of
the others that it needs; and the fault that stopped this, if any. -/
def makeFoldersOf (t : FileTree) : List Path → FileTree × Option Fault
  | [] => (t, none)
  | p :: above =>
    match t.makeFolder p with
    | .ok made => (made, none)
    | .error .missing =>
      match t.makeFoldersOf above with
      | (made, some fault) => (made, some fault)
      | (made, none) =>
        match made.makeFolder p with
        | .ok all => (all, none)
        | .error fault => (made, if made.isFolder p then none else some fault)
    | .error fault => (t, if t.isFolder p then none else some fault)

def makeFolders (t : FileTree) (p : Path) : FileTree × Option Fault := t.makeFoldersOf p.ancestors

/-- The tree with the file at a path written, or the tree as it is and the path. -/
def writeOrLose (t : FileTree) (p : Path) (content : ByteArray) : FileTree × Option Path :=
  match t.write p content with
  | .ok written => (written, none)
  | .error _ => (t, some p)

/-- The tree with the file at a path written and with the missing folders above it; and the path
that could not be made or written, if any. -/
def save (t : FileTree) (p : Path) (content : ByteArray) : FileTree × Option Path :=
  match p.parent? with
  | none => t.writeOrLose p content
  | some above =>
    match t.makeFolders above with
    | (made, none) => made.writeOrLose p content
    | (made, some _) => (made, some above)

def without (t : FileTree) (location : Location) : FileTree :=
  { t with entries := t.entries.filter fun entry => entry.1 ≠ location }

def emptied (t : FileTree) (location : Location) : FileTree :=
  { t with entries := t.entries.filter fun entry =>
      !location.isPrefixOf entry.1 || entry.1 == location }

def endsInDots (p : Path) : Bool :=
  let last := ((bare p).text.toList.splitOn '/').getLast?.getD []
  Path.isIdle last || last == ['.', '.']

/-- The tree without the file or folder at a path, and whether that is done. A folder is emptied
first and then looked up again. If the way to it led through the folder itself, nothing is found and
nothing more is done; and a folder cannot be removed by a path that ends in dots. -/
def remove (t : FileTree) (p : Path) : FileTree × Bool :=
  match t.locate p with
  | .error _ => (t, false)
  | .ok location =>
    match t.entry? location with
    | none => (t, false)
    | some (.file _) => (t.without location, true)
    | some .folder =>
      let rest := t.emptied location
      match rest.locate p with
      | .error _ => (rest, true)
      | .ok _ => if endsInDots p then (rest, false) else (rest.without location, true)

/-- The files and folders below the working folder, relative to it, folders with a slash at the
end, in ascending order. -/
def listing (t : FileTree) : List String :=
  let names := t.entries.filterMap fun (location, e) =>
    if t.workFolder.isPrefixOf location && location != t.workFolder then
      let name := "/".intercalate (location.drop t.workFolder.length)
      some (if e = .folder then name ++ "/" else name)
    else none
  names.mergeSort fun a b => !(b < a)

end FileTree

end LuaGlue

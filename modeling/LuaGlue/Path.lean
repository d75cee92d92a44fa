/-!
# Paths

File paths as text, kept as they were given. Repeated slashes, slashes at the end and dots that are
not first carry no meaning: two paths denote the same when their components are equal.
-/

namespace LuaGlue

structure Path where
  text : String
  deriving DecidableEq, Repr, Inhabited

namespace Path

inductive Component where
  | root
  | here
  | parent
  | name (name : String)
  deriving DecidableEq, Repr

/-- Where a path starts: at the root, at a dot that is its first part, or at the working
directory. -/
inductive Start where
  | root
  | here
  | relative
  deriving DecidableEq, Repr

/-- The start of a path and its parts between slashes. The slash of the root and the first dot
belong to the start. -/
def split (p : Path) : Start × List (List Char) :=
  match p.text.toList.splitOn '/' with
  | [] => (.relative, [])
  | [] :: part :: parts => (.root, part :: parts)
  | ['.'] :: parts => (.here, parts)
  | parts => (.relative, parts)

def ofParts (start : Start) (parts : List (List Char)) : Path :=
  let body := List.intercalate ['/'] parts
  match start with
  | .root => ⟨String.ofList ('/' :: body)⟩
  | .here => if parts.isEmpty then ⟨"."⟩ else ⟨String.ofList ('.' :: '/' :: body)⟩
  | .relative => ⟨String.ofList body⟩

def isIdle (part : List Char) : Bool := part == [] || part == ['.']

def component? (part : List Char) : Option Component :=
  if isIdle part then none
  else if part = ['.', '.'] then some .parent
  else some (.name (String.ofList part))

def Start.components : Start → List Component
  | .root => [.root]
  | .here => [.here]
  | .relative => []

def components (p : Path) : List Component :=
  p.split.1.components ++ p.split.2.filterMap component?

def sameAs (p q : Path) : Bool := p.components == q.components

def allSame : List Path → List Path → Bool
  | [], [] => true
  | p :: ps, q :: qs => p.sameAs q && allSame ps qs
  | _, _ => false

def isAbsolute (p : Path) : Bool := p.text.toList.head? == some '/'

/-- The path `q` seen from `p`: `q` itself if it is absolute, else `q` behind `p`, with one slash
between them if `p` is not empty and ends in none. -/
def join (p q : Path) : Path :=
  if q.isAbsolute then q
  else if p.text.isEmpty || p.text.toList.getLast? == some '/' then ⟨p.text ++ q.text⟩
  else ⟨p.text ++ "/" ++ q.text⟩

def fileName? (p : Path) : Option String :=
  match p.components.getLast? with
  | some (.name name) => some name
  | _ => none

/-- The paths above the parts, which are given last to first, down to the start. -/
def lineageOf (start : Start) : List (List Char) → List Path
  | [] =>
    match start with
    | .root => [⟨"/"⟩]
    | .here => [⟨"."⟩, ⟨""⟩]
    | .relative => [⟨""⟩]
  | part :: parts =>
    if isIdle part then lineageOf start parts
    else ofParts start (part :: parts).reverse :: lineageOf start parts

/-- The path without idle parts at its end, its parent, the parent of that, and so on. -/
def lineage (p : Path) : List Path := lineageOf p.split.1 p.split.2.reverse

def parent? (p : Path) : Option Path := p.lineage[1]?

/-- The path and the directories above it, from the inside out, without the empty path. -/
def ancestors (p : Path) : List Path := (p :: p.lineage.drop 1).filter fun q => !q.text.isEmpty

/-- The file name without its last extension. A dot that is first starts no extension. -/
def stem (p : Path) : String :=
  match p.fileName? with
  | none => ""
  | some name =>
    let reversed := name.toList.reverse
    let base := (reversed.dropWhile (· != '.')).drop 1
    if base.isEmpty then name else String.ofList base.reverse

def folderName (p : Path) : String := (p.parent?.bind fileName?).getD ""

def fileName (p : Path) : String := p.fileName?.getD ""

end Path

end LuaGlue

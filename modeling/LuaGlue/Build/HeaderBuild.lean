import LuaGlue.Failure
import LuaGlue.Header
import LuaGlue.Marker
import LuaGlue.Sha256

/-!
# Building a binding header

Declaration files are scanned into a catalog, the header of the catalog is made, and header and
marker are written, unless the old marker says the same as the new one and the old header is the new
one.
-/

namespace LuaGlue

structure HeaderBuild where
  sources : List Path
  headerPath? : Option Path
  markerPath? : Option Path
  conversions : Conversions
  style : HeaderStyle
  strict : Bool
  printsRerun : Bool
  fingerprint : String → String

namespace HeaderBuild

/-- The build without sources and paths, for the Godot conversions. -/
def standard : HeaderBuild where
  sources := []
  headerPath? := none
  markerPath? := none
  conversions := .godot
  style := .standard
  strict := false
  printsRerun := false
  fingerprint := Sha256.fingerprint

def folderVariable : String := "OUT_DIR"

/-- The build with the usual files in the folder of generated files, which an environment variable
must hold. -/
def inFolder (b : HeaderBuild) (folder? : Option String) : Except Failure HeaderBuild :=
  match folder? with
  | none => .error (.variableNotSet folderVariable)
  | some folder => .ok { b with
      headerPath? := some (Path.join ⟨folder⟩ ⟨"wrap_for_lua.gen.h"⟩)
      markerPath? := some (Path.join ⟨folder⟩ ⟨"wrap_for_lua.gen.stamp"⟩) }

/-- What a build made, and whether it wrote the header. -/
structure Product where
  header : Header
  marker : Marker
  headerWritten : Bool

def scanned (source : Path) (name : String) (members : List Member) : Event :=
  ⟨.debug, "Scanned " ++ source.text ++ " for " ++ name ++ ": " ++ toString members.length ++
    " member(s)"⟩

def typeName (source : Path) : String := Declaration.typeName source.fileName

def scanInto (c : Catalog) : List Path → Job Failure Catalog
  | [] => .done c
  | source :: rest =>
    (Build.readText source).bind fun text =>
      let name := typeName source
      let members := Declaration.readAll text
      .report (scanned source name members) (scanInto (c.addSource name source members) rest)

def scan (sources : List Path) : Job Failure Catalog := scanInto .empty sources

def generated (p : Product) : Event :=
  ⟨.debug, "Generated bindings for " ++ toString p.header.sections.length ++
    " type(s), fingerprint " ++ p.marker.fingerprint⟩

def productOf (b : HeaderBuild) (header : Header) : Product :=
  ⟨header, ⟨b.fingerprint header.text, b.sources⟩, false⟩

/-- The gap for which a strict build fails. -/
def obstacle? (b : HeaderBuild) (p : Product) : Option Gap :=
  if b.strict then p.header.gaps.head? else none

def generate (b : HeaderBuild) : Job Failure Product := do
  let catalog ← scan b.sources
  let header ← Header.emit b.conversions b.style catalog
  let product := b.productOf header
  match b.obstacle? product with
  | some gap => .fail gap.failure
  | none => .report (generated product) (.done product)

/-- Read the marker of an earlier build. A missing file and a file that holds no marker count as no
marker. -/
def readMarker (path : Path) : Job Failure (Option Marker) :=
  .read path fun
    | .ok content =>
      match Text.ofUtf8? content with
      | some text => .done (Marker.read? text)
      | none => .fail (.unreadable path)
    | .error .missing => .done none
    | .error _ => .fail (.unreadable path)

def holdsText (path : Path) (text : String) : Job Failure Bool :=
  .read path fun
    | .ok content => .done (content = text.toUTF8)
    | .error _ => .done false

/-- Whether the marker of an earlier build says the same as that of a product, and its header is
that of the product. -/
def isUpToDate (headerPath : Path) (markerPath? : Option Path) (p : Product) :
    Job Failure Bool := do
  match markerPath? with
  | none => return false
  | some markerPath =>
    let previous ← readMarker markerPath
    if previous.any fun m => m.sameAs p.marker then holdsText headerPath p.header.text
    else return false

def write (headerPath : Path) (markerPath? : Option Path) (p : Product) : Job Failure Unit := do
  Build.saveText headerPath p.header.text
  Job.note .info ("Wrote Lua bindings: " ++ headerPath.text)
  match markerPath? with
  | none => return ()
  | some markerPath => Build.saveText markerPath p.marker.render

def settle (headerPath : Path) (markerPath? : Option Path) (p : Product) (upToDate : Bool) :
    Job Failure Unit :=
  if upToDate then Job.note .info ("Lua bindings up to date: " ++ headerPath.text)
  else write headerPath markerPath? p

def conclude (b : HeaderBuild) (p : Product) (upToDate : Bool) : Job Failure Product := do
  if b.printsRerun then Build.printRerun b.sources
  return { p with headerWritten := !upToDate }

def build (b : HeaderBuild) : Job Failure Product := do
  match b.headerPath? with
  | none => .fail (.outputNotSet .bindingHeader)
  | some headerPath =>
    let product ← b.generate
    let upToDate ← isUpToDate headerPath b.markerPath? product
    settle headerPath b.markerPath? product upToDate
    b.conclude product upToDate

end HeaderBuild

end LuaGlue

import LuaGlue.OrderedMap

/-!
# TOML values

The values of a TOML document. A table remembers how it came about, because that decides how the
rest of the document may add to it: a table under a header or an inline table is complete, a table
that only a longer header implies may still get a header of its own, and a table that dotted keys
made grows by dotted keys alone.
-/

namespace LuaGlue

inductive TableOrigin where
  | header
  | implied
  | dotted
  | inline
  deriving DecidableEq, Repr

/-- A TOML value. Numbers keep their digits and dates their usual form. -/
inductive Toml where
  | string (text : String)
  | number (digits : String)
  | boolean (value : Bool)
  | moment (text : String)
  | array (items : List Toml)
  | tableArray (tables : List (List (String × Toml)))
  | table (origin : TableOrigin) (entries : List (String × Toml))
  deriving Inhabited

namespace Toml

abbrev Entries := OrderedMap String Toml

/-- The entries with the value of a key made from its old value, if that can be. -/
def alter? (key : String) (f : Option Toml → Option Toml) : Entries → Option Entries
  | [] => (f none).map fun value => [(key, value)]
  | entry :: rest =>
    if entry.1 = key then (f (some entry.2)).map fun value => (key, value) :: rest
    else (alter? key f rest).map (entry :: ·)

def alterLast? (f : Entries → Option Entries) : List Entries → Option (List Entries)
  | [] => none
  | [last] => (f last).map fun entries => [entries]
  | first :: rest => (alterLast? f rest).map (first :: ·)

/-- The entries with a value at a dotted key. The key must be new, and so must be the tables on the
way to it, unless dotted keys made them or, before the last of them, a longer header implies them.
-/
def assign? : List String → Toml → Entries → Option Entries
  | [], _, _ => none
  | [key], value, entries => alter? key (fun old => if old.isSome then none else some value) entries
  | key :: path, value, entries =>
    alter? key (fun
      | none => (assign? path value []).map (.table .dotted)
      | some (.table .dotted inner) => (assign? path value inner).map (.table .dotted)
      | some (.table .implied inner) =>
        if path.length < 2 then none else (assign? path value inner).map (.table .implied)
      | some _ => none) entries

/-- The entries with the tables on the way to a header, of which the last is changed. -/
def descend? (f : String → Entries → Option Entries) : List String → Entries → Option Entries
  | [], _ => none
  | [key], entries => f key entries
  | key :: path, entries =>
    alter? key (fun
      | none => (descend? f path []).map (.table .implied)
      | some (.table .inline _) => none
      | some (.table origin inner) => (descend? f path inner).map (.table origin)
      | some (.tableArray tables) => (alterLast? (descend? f path) tables).map .tableArray
      | some _ => none) entries

def openTable? (path : List String) (entries : Entries) : Option Entries :=
  descend? (fun key => alter? key fun
    | none => some (.table .header [])
    | some (.table .implied inner) => some (.table .header inner)
    | some _ => none) path entries

def openElement? (path : List String) (entries : Entries) : Option Entries :=
  descend? (fun key => alter? key fun
    | none => some (.tableArray [[]])
    | some (.tableArray tables) => some (.tableArray (tables ++ [[]]))
    | some _ => none) path entries

def assignUnder? (header path : List String) (value : Toml) (entries : Entries) : Option Entries :=
  if header.isEmpty then assign? path value entries
  else
    descend? (fun key => alter? key fun
      | some (.table origin inner) => (assign? path value inner).map (.table origin)
      | some (.tableArray tables) => (alterLast? (assign? path value) tables).map .tableArray
      | _ => none) header entries

end Toml

end LuaGlue

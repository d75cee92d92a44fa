/-!
# Ordered maps

Maps from keys to values that keep the order in which their keys were first added, as lists of
entries.
-/

namespace LuaGlue

/-- The entries of a map, in the order in which their keys were first added. -/
abbrev OrderedMap (κ ν : Type) := List (κ × ν)

namespace OrderedMap

variable {κ ν : Type} [DecidableEq κ]

def keys (m : OrderedMap κ ν) : List κ := m.map (·.1)

def get? : OrderedMap κ ν → κ → Option ν
  | [], _ => none
  | entry :: rest, key => if entry.1 = key then some entry.2 else get? rest key

/-- The map with the value of a key made from its old value. A new key comes last. -/
def alter (key : κ) (f : Option ν → ν) : OrderedMap κ ν → OrderedMap κ ν
  | [] => [(key, f none)]
  | entry :: rest =>
    if entry.1 = key then (key, f (some entry.2)) :: rest else entry :: alter key f rest

def put (key : κ) (value : ν) (m : OrderedMap κ ν) : OrderedMap κ ν := alter key (fun _ => value) m

theorem get?_alter (key other : κ) (f : Option ν → ν) (m : OrderedMap κ ν) :
    (alter key f m).get? other = if other = key then some (f (m.get? key)) else m.get? other := by
  induction m with
  | nil => by_cases h : key = other <;> simp [alter, get?, h, eq_comm]
  | cons entry rest ih =>
    by_cases here : entry.1 = key
    · by_cases h : key = other <;> simp [alter, get?, here, h, eq_comm]
    · by_cases h : entry.1 = other
      · have : other ≠ key := h ▸ here
        simp [alter, get?, h, this]
      · simp [alter, get?, here, h, ih]

theorem get?_put (key other : κ) (value : ν) (m : OrderedMap κ ν) :
    (m.put key value).get? other = if other = key then some value else m.get? other :=
  get?_alter key other _ m

theorem keys_alter (key : κ) (f : Option ν → ν) (m : OrderedMap κ ν) :
    (alter key f m).keys = if key ∈ m.keys then m.keys else m.keys ++ [key] := by
  induction m with
  | nil => simp [alter, keys]
  | cons entry rest ih =>
    simp only [keys] at ih
    by_cases here : entry.1 = key
    · simp [alter, keys, here]
    · by_cases later : key ∈ rest.map (·.1) <;> simp_all [alter, keys, Ne.symm here]

theorem get?_eq_none_iff {m : OrderedMap κ ν} {key : κ} : m.get? key = none ↔ key ∉ m.keys := by
  induction m with
  | nil => simp [get?, keys]
  | cons entry rest ih =>
    by_cases here : entry.1 = key
    · simp [get?, keys, here]
    · simp_all [get?, keys, Ne.symm here]

end OrderedMap

end LuaGlue

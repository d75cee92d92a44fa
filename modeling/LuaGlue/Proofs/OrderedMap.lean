import LuaGlue.OrderedMap
import Mathlib.Data.List.Induction
import Mathlib.Data.List.Nodup

/-!
# Ordered maps, entry by entry

Maps whose entries come from a list of distinct keys, what a map holds after a value is put into it,
and lists in which each element keeps only its first place.
-/

namespace LuaGlue

section

variable {α : Type} [DecidableEq α]

theorem eraseDups_concat (xs : List α) (x : α) :
    (xs ++ [x]).eraseDups = if x ∈ xs.eraseDups then xs.eraseDups else xs.eraseDups ++ [x] := by
  rw [List.eraseDups_append]
  by_cases h : x ∈ xs
  · have hnone : [x].removeAll xs = [] := by
      rw [List.removeAll, List.filter_singleton, List.elem_eq_mem, decide_eq_true h]
      rfl
    rw [if_pos (List.mem_eraseDups.2 h), hnone, List.eraseDups_nil, List.append_nil]
  · have hone : [x].removeAll xs = [x] := by
      rw [List.removeAll, List.filter_singleton, List.elem_eq_mem, decide_eq_false h]
      rfl
    rw [if_neg (mt List.mem_eraseDups.1 h), hone]
    rfl

theorem nodup_eraseDups (xs : List α) : xs.eraseDups.Nodup := by
  induction xs using List.reverseRecOn with
  | nil => exact List.nodup_nil
  | append_singleton xs x ih =>
    rw [eraseDups_concat]
    split_ifs with h
    · exact ih
    · rw [← List.concat_eq_append]
      exact ih.concat h

end

namespace OrderedMap

variable {κ ν : Type} [DecidableEq κ]

theorem alter_map_of_mem {keys : List κ} (nodup : keys.Nodup) (value : κ → ν) {key : κ}
    (f : Option ν → ν) (h : key ∈ keys) :
    alter key f (keys.map fun k => (k, value k)) =
      keys.map fun k => (k, if k = key then f (some (value k)) else value k) := by
  induction keys with
  | nil => cases h
  | cons first rest ih =>
    obtain ⟨hfirst, hrest⟩ := List.nodup_cons.1 nodup
    rw [List.map_cons, alter, List.map_cons]
    by_cases here : first = key
    · rw [if_pos here, if_pos here, here]
      congr 1
      apply List.map_congr_left
      intro k hk
      rw [if_neg]
      rintro rfl
      exact hfirst (here ▸ hk)
    · have later : key ∈ rest := (List.mem_cons.1 h).resolve_left (Ne.symm here)
      rw [if_neg here, if_neg here, ih hrest later]

theorem alter_map_of_not_mem {keys : List κ} (value : κ → ν) {key : κ} (f : Option ν → ν)
    (h : key ∉ keys) :
    alter key f (keys.map fun k => (k, value k)) =
      (keys.map fun k => (k, value k)) ++ [(key, f none)] := by
  induction keys with
  | nil => rfl
  | cons first rest ih =>
    rw [List.mem_cons, not_or] at h
    rw [List.map_cons, alter, if_neg (Ne.symm h.1), ih h.2]
    rfl

theorem get?_map_of_mem {keys : List κ} (value : κ → ν) {key : κ} (h : key ∈ keys) :
    get? (keys.map fun k => (k, value k)) key = some (value key) := by
  induction keys with
  | nil => cases h
  | cons first rest ih =>
    rw [List.map_cons, get?]
    by_cases here : first = key
    · rw [if_pos here, here]
    · rw [if_neg here, ih ((List.mem_cons.1 h).resolve_left (Ne.symm here))]

theorem mem_put {m : OrderedMap κ ν} {key : κ} {value : ν} {entry : κ × ν}
    (h : entry ∈ m.put key value) : entry = (key, value) ∨ entry ∈ m := by
  induction m with
  | nil => exact Or.inl (List.mem_singleton.1 h)
  | cons first rest ih =>
    rw [put, alter] at h
    split_ifs at h
    · exact (List.mem_cons.1 h).imp_right (List.mem_cons_of_mem first)
    · rcases List.mem_cons.1 h with rfl | hrest
      · exact Or.inr List.mem_cons_self
      · exact (ih hrest).imp_right (List.mem_cons_of_mem first)

theorem mem_of_get? {m : OrderedMap κ ν} {key : κ} {value : ν} (h : m.get? key = some value) :
    (key, value) ∈ m := by
  induction m with
  | nil => cases h
  | cons first rest ih =>
    rw [get?] at h
    split_ifs at h with here
    · cases h
      exact here ▸ List.mem_cons_self
    · exact List.mem_cons_of_mem first (ih h)

theorem keys_put (m : OrderedMap κ ν) (key : κ) (value : ν) :
    (m.put key value).keys = if key ∈ m.keys then m.keys else m.keys ++ [key] :=
  keys_alter key _ m

theorem nodup_keys_put {m : OrderedMap κ ν} (h : m.keys.Nodup) (key : κ) (value : ν) :
    (m.put key value).keys.Nodup := by
  rw [keys_put]
  split_ifs with hold
  · exact h
  · rw [← List.concat_eq_append]
    exact h.concat hold

theorem put_of_not_mem {m : OrderedMap κ ν} {key : κ} (h : key ∉ m.keys) (value : ν) :
    m.put key value = m ++ [(key, value)] := by
  induction m with
  | nil => rfl
  | cons first rest ih =>
    rw [keys, List.map_cons, List.mem_cons, not_or] at h
    rw [put, alter, if_neg (Ne.symm h.1)]
    exact congrArg (first :: ·) (ih h.2)

end OrderedMap

end LuaGlue

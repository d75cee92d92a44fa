import LuaGlue.FileTree
import Mathlib.Data.List.TakeWhile
import Mathlib.Tactic.SplitIfs

/-!
# The places of paths

No entry of a tree refers to another place, so a path names the same location in every tree with the
same working folder; what stands in the tree decides only whether the path can be followed there.
-/

namespace LuaGlue.FileTree

def descend (location : Location) (part : String) : Location :=
  if part = "" ∨ part = "." then location
  else if part = ".." then location.dropLast
  else location ++ [part]

/-- The location that a path names, whether or not it can be followed. -/
def place (t : FileTree) (p : Path) : Location :=
  let start := if p.isAbsolute then [] else t.workFolder
  ((p.text.toList.splitOn '/').map String.ofList).foldl descend start

theorem walk_eq_ok {t : FileTree} {location reached : Location} {parts : List String}
    (h : t.walk location parts = .ok reached) : reached = parts.foldl descend location := by
  induction parts generalizing location with
  | nil =>
    rw [walk] at h
    cases h
    rfl
  | cons part parts ih =>
    rw [walk] at h
    rw [List.foldl_cons, descend]
    split at h
    · cases h
    · cases h
    · split_ifs at h ⊢ with idle up long
      · exact ih h
      · exact ih h
      · exact ih h

theorem follow_eq_ok {t : FileTree} {p : Path} {location : Location}
    (h : t.follow p = .ok location) : location = t.place p :=
  walk_eq_ok h

theorem locate_eq_ok {t : FileTree} {p : Path} {location : Location}
    (h : t.locate p = .ok location) : location = t.place p := by
  unfold locate at h
  split at h
  · cases h
  · exact follow_eq_ok h

theorem place_congr {t t' : FileTree} (h : t'.workFolder = t.workFolder) (p : Path) :
    t'.place p = t.place p := by
  unfold place
  rw [h]

/-! ## Slashes at the end -/

private theorem foldl_descend_slashes (cs : List Char) (n : Nat) (start : Location) :
    (((cs ++ List.replicate n '/').splitOn '/').map String.ofList).foldl descend start =
      ((cs.splitOn '/').map String.ofList).foldl descend start := by
  induction n with
  | zero => rw [List.replicate_zero, List.append_nil]
  | succ n ih =>
    rw [List.replicate_succ', ← List.append_assoc, List.splitOn_append_cons_self]
    rw [List.map_append, List.foldl_append, ih]
    rfl

theorem toList_bare (p : Path) :
    ∃ n, p.text.toList = (bare p).text.toList ++ List.replicate n '/' := by
  unfold bare
  let stripped := (p.text.toList.reverse.dropWhile (· == '/')).reverse
  let slashes := (p.text.toList.reverse.takeWhile (· == '/')).reverse
  have hsplit : p.text.toList = stripped ++ slashes := by
    rw [← List.reverse_append, List.takeWhile_append_dropWhile, List.reverse_reverse]
  have hslashes : slashes = List.replicate slashes.length '/' := by
    apply List.eq_replicate_of_mem
    intro c hc
    have := List.mem_takeWhile_imp (List.mem_reverse.1 hc)
    simpa using this
  change ∃ n, _ = (if stripped.isEmpty then p else ⟨String.ofList stripped⟩ : Path).text.toList ++ _
  split_ifs with hempty
  · exact ⟨0, (List.append_nil _).symm⟩
  · refine ⟨slashes.length, ?_⟩
    rw [String.toList_ofList, ← hslashes]
    exact hsplit

theorem bare_nonempty {p : Path} (h : p.text ≠ "") : (bare p).text.toList ≠ [] := by
  unfold bare
  dsimp only
  split_ifs with hempty
  · exact fun hnil => h (String.toList_inj.1 hnil)
  · rw [String.toList_ofList]
    simpa using hempty

theorem place_bare (t : FileTree) (p : Path) : t.place (bare p) = t.place p := by
  obtain ⟨n, htext⟩ := toList_bare p
  have habs : (bare p).isAbsolute = p.isAbsolute := by
    by_cases hempty : p.text = ""
    · obtain rfl : p = ⟨""⟩ := congrArg Path.mk hempty
      rfl
    · obtain ⟨c, rest, hcons⟩ := List.exists_cons_of_ne_nil (bare_nonempty hempty)
      unfold Path.isAbsolute
      rw [htext, hcons]
      rfl
  unfold place
  rw [habs, htext, foldl_descend_slashes]

end LuaGlue.FileTree

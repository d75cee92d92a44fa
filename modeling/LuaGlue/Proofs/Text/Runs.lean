import LuaGlue.Text.Blank
import Mathlib.Data.List.TakeWhile

/-!
# Runs of a class of characters

A run goes as far as what follows it does not belong to the class. At the end of a text a run is
dropped as a whole, whatever stands before it, and then there is nothing left to drop.
-/

namespace LuaGlue.Text

variable {p : Char → Bool} {run rest : List Char}

theorem takeWhile_run (hrun : ∀ c ∈ run, p c = true) (hstop : ∀ c ∈ rest.head?, p c = false) :
    (run ++ rest).takeWhile p = run := by
  rw [List.takeWhile_append_of_pos hrun]
  cases rest with
  | nil => rw [List.takeWhile_nil, List.append_nil]
  | cons c rest =>
    rw [List.takeWhile_cons, hstop c rfl, if_neg Bool.false_ne_true, List.append_nil]

theorem dropWhile_run (hrun : ∀ c ∈ run, p c = true) (hstop : ∀ c ∈ rest.head?, p c = false) :
    (run ++ rest).dropWhile p = rest := by
  rw [List.dropWhile_append_of_pos hrun]
  cases rest with
  | nil => rfl
  | cons c rest => rw [List.dropWhile_cons, hstop c rfl, if_neg Bool.false_ne_true]

/-- What follows a run that is not empty begins with it. -/
theorem head?_run {q : Char → Bool} (hne : run ≠ []) (hrun : ∀ c ∈ run, q c = false) :
    ∀ c ∈ (run ++ rest).head?, q c = false := by
  obtain ⟨first, others, rfl⟩ := List.exists_cons_of_ne_nil hne
  rintro c ⟨⟩
  exact hrun first List.mem_cons_self

theorem dropEndWhile_concat {p : Char → Bool} {c : Char} (hc : p c = true) (cs : List Char) :
    dropEndWhile p (cs ++ [c]) = dropEndWhile p cs := by
  unfold dropEndWhile
  rw [List.reverse_concat, List.dropWhile_cons_of_pos hc]

theorem trimChars_concat {c : Char} (hc : isBlank c = true) (cs : List Char) :
    trimChars (cs ++ [c]) = trimChars cs := by
  unfold trimChars trimEndChars
  rw [List.dropWhile_append]
  split_ifs with hnone
  · rw [List.isEmpty_iff.1 hnone, List.dropWhile_cons_of_pos hc]
    rfl
  · exact dropEndWhile_concat hc _

theorem dropEndWhile_sublist (p : Char → Bool) (cs : List Char) :
    (dropEndWhile p cs).Sublist cs := by
  have hdropped := (List.dropWhile_sublist p (l := cs.reverse)).reverse
  rwa [List.reverse_reverse] at hdropped

theorem count_dropWhile {c : Char} (hc : p c = false) (cs : List Char) :
    (cs.dropWhile p).count c = cs.count c := by
  have htaken : (cs.takeWhile p).count c = 0 := by
    rw [List.count_eq_zero]
    intro hmem
    rw [List.mem_takeWhile_imp hmem] at hc
    cases hc
  have hsplit := congrArg (List.count c) (List.takeWhile_append_dropWhile (p := p) (l := cs))
  rwa [List.count_append, htaken, Nat.zero_add] at hsplit

theorem count_trimChars {c : Char} (hc : isBlank c = false) (cs : List Char) :
    (trimChars cs).count c = cs.count c := by
  unfold trimChars trimEndChars dropEndWhile
  rw [List.count_reverse, count_dropWhile hc, List.count_reverse, count_dropWhile hc]

theorem trimChars_sublist (cs : List Char) : (trimChars cs).Sublist cs :=
  (dropEndWhile_sublist isBlank _).trans (List.dropWhile_sublist isBlank)

/-! ## Nothing to drop -/

theorem getLast?_dropEndWhile {cs : List Char} {c : Char}
    (h : (dropEndWhile p cs).getLast? = some c) : p c = false := by
  rw [dropEndWhile, List.getLast?_reverse] at h
  have hfirst := List.head?_dropWhile_not p cs.reverse
  rwa [h] at hfirst

theorem exists_eq_dropEndWhile_append (p : Char → Bool) (cs : List Char) :
    ∃ run, cs = dropEndWhile p cs ++ run ∧ ∀ c ∈ run, p c = true := by
  refine ⟨(cs.reverse.takeWhile p).reverse, ?_, fun c hc => ?_⟩
  · rw [dropEndWhile, ← List.reverse_append, List.takeWhile_append_dropWhile, List.reverse_reverse]
  · exact List.mem_takeWhile_imp (List.mem_reverse.1 hc)

theorem dropWhile_eq_self {cs : List Char} (h : ∀ c ∈ cs.head?, p c = false) :
    cs.dropWhile p = cs := by
  cases cs with
  | nil => rfl
  | cons c rest => rw [List.dropWhile_cons, h c rfl, if_neg Bool.false_ne_true]

theorem dropEndWhile_eq_self {cs : List Char} (h : ∀ c ∈ cs.getLast?, p c = false) :
    dropEndWhile p cs = cs := by
  rw [← List.head?_reverse] at h
  rw [dropEndWhile, dropWhile_eq_self h, List.reverse_reverse]

structure IsTrimmed (cs : List Char) : Prop where
  head : ∀ c ∈ cs.head?, isBlank c = false
  last : ∀ c ∈ cs.getLast?, isBlank c = false

/-- A trimmed text begins as the text does behind its first white space. -/
theorem head?_trimChars {cs : List Char} {c : Char} (h : (trimChars cs).head? = some c) :
    (cs.dropWhile isBlank).head? = some c := by
  have hfront : trimChars cs <+: cs.dropWhile isBlank := by
    rw [trimChars, trimEndChars, dropEndWhile]
    have hsuffix : (cs.dropWhile isBlank).reverse.dropWhile isBlank <:+ _ := List.dropWhile_suffix _
    simpa using List.reverse_prefix.2 hsuffix
  obtain ⟨rest, hrest⟩ := hfront
  rw [← hrest, List.head?_append, h]
  rfl

theorem isTrimmed_trimChars (cs : List Char) : IsTrimmed (trimChars cs) where
  head c hc := by
    have hfirst := List.head?_dropWhile_not isBlank cs
    rwa [head?_trimChars hc] at hfirst
  last _ := getLast?_dropEndWhile

theorem trimChars_eq_self_iff {cs : List Char} : trimChars cs = cs ↔ IsTrimmed cs := by
  constructor
  · intro h
    rw [← h]
    exact isTrimmed_trimChars cs
  · intro h
    rw [trimChars, dropWhile_eq_self h.head, trimEndChars, dropEndWhile_eq_self h.last]

theorem trimChars_eq_self {cs : List Char} (h : ∀ c ∈ cs, isBlank c = false) :
    trimChars cs = cs :=
  trimChars_eq_self_iff.2
    ⟨fun c hc => h c (List.mem_of_mem_head? hc), fun c hc => h c (List.mem_of_mem_getLast? hc)⟩

end LuaGlue.Text

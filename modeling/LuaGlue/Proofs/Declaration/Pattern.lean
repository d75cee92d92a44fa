import LuaGlue.Proofs.Declaration.Layout

/-!
# Declarations as a pattern

A pattern is matched step by step from the start of a line. A run takes as many characters of its
class as it can, and gives them back one by one as long as the steps behind it find no match. In the
pattern of a declaration every run but one is followed by a step that no character of the run can
begin, so it never gives anything back; the run of the arguments goes back to the last closing
parenthesis. What the pattern captures is what the layout of the line holds.
-/

namespace LuaGlue.Declaration

open Text

/-! ## Matching -/

/-- One character of a class, or a run of them that has a least length and may be captured. -/
inductive Step where
  | one (p : Char → Bool)
  | run (p : Char → Bool) (least : Nat) (captured : Bool)

/-- What `f` gives for the greatest number up to a bound for which it gives anything. -/
def greatest? {α : Type} (f : Nat → Option α) : Nat → Option α
  | 0 => f 0
  | n + 1 => (f (n + 1)).or (greatest? f n)

/-- The captures of the first match at the start of a list, longer runs being tried first. -/
def captures? : List Step → List Char → Option (List (List Char))
  | [], _ => some []
  | .one _ :: _, [] => none
  | .one p :: steps, c :: rest => if p c then captures? steps rest else none
  | .run p least captured :: steps, cs =>
    greatest? (fun count =>
      if count < least then none
      else (captures? steps (cs.drop count)).map fun found =>
        if captured then cs.take count :: found else found) (cs.takeWhile p).length

section

variable {α : Type} {f : Nat → Option α} {n : Nat}

theorem greatest?_eq_none (h : ∀ k ≤ n, f k = none) : greatest? f n = none := by
  induction n with
  | zero => exact h 0 (Nat.le_refl 0)
  | succ n ih =>
    rw [greatest?, h _ (Nat.le_refl _), Option.none_or]
    exact ih fun k hk => h k (Nat.le_succ_of_le hk)

theorem greatest?_eq {k : Nat} (hk : k ≤ n) (h : ∀ j, k < j → j ≤ n → f j = none)
    (hsome : (f k).isSome) : greatest? f n = f k := by
  induction n with
  | zero =>
    obtain rfl : k = 0 := by omega
    rfl
  | succ n ih =>
    rw [greatest?]
    by_cases hlast : k = n + 1
    · rw [← hlast, Option.or_of_isSome hsome]
    · rw [h (n + 1) (by omega) (Nat.le_refl _), Option.none_or]
      exact ih (by omega) fun j hj hjn => h j hj (by omega)

/-- If only the greatest number can give anything, it decides. -/
theorem greatest?_eq_last (h : ∀ k < n, f k = none) : greatest? f n = f n := by
  by_cases hlast : (f n).isSome
  · exact greatest?_eq (Nat.le_refl n) (fun j hj hjn => by omega) hlast
  · rw [Option.not_isSome_iff_eq_none] at hlast
    rw [hlast]
    apply greatest?_eq_none
    intro k hk
    rcases Nat.lt_or_eq_of_le hk with hless | rfl
    · exact h k hless
    · exact hlast

end

/-! ## Runs that give nothing back -/

def Rejects (steps : List Step) (p : Char → Bool) : Prop :=
  ∀ c rest, p c = true → captures? steps (c :: rest) = none

theorem captures?_run {steps : List Step} {p : Char → Bool} (h : Rejects steps p) (least : Nat)
    (captured : Bool) (cs : List Char) :
    captures? (.run p least captured :: steps) cs =
      if (cs.takeWhile p).length < least then none
      else (captures? steps (cs.dropWhile p)).map fun found =>
        if captured then cs.takeWhile p :: found else found := by
  have hprefix := List.takeWhile_prefix p (l := cs)
  have hdrop : cs.drop (cs.takeWhile p).length = cs.dropWhile p :=
    List.append_cancel_left
      (List.prefix_iff_eq_append.1 hprefix |>.trans List.takeWhile_append_dropWhile.symm)
  have htake : cs.take (cs.takeWhile p).length = cs.takeWhile p :=
    (List.prefix_iff_eq_take.1 hprefix).symm
  rw [captures?, greatest?_eq_last]
  · rw [hdrop, htake]
  · intro count hcount
    -- the character behind a shorter run is one of the run
    have hlength : count < cs.length := Nat.lt_of_lt_of_le hcount hprefix.length_le
    have hnext : p cs[count] = true := by
      rw [← hprefix.getElem hcount]
      exact List.mem_takeWhile_imp (List.getElem_mem hcount)
    rw [List.drop_eq_getElem_cons hlength, h _ _ hnext, Option.map_none, ite_self]

theorem rejects_one {p q : Char → Bool} (h : ∀ c, p c = true → q c = false) (steps : List Step) :
    Rejects (.one q :: steps) p := by
  intro c rest hc
  rw [captures?, h c hc, if_neg Bool.false_ne_true]

theorem rejects_run {p q : Char → Bool} (h : ∀ c, p c = true → q c = false) (least : Nat)
    (captured : Bool) (steps : List Step) : Rejects (.run q (least + 1) captured :: steps) p := by
  intro c rest hc
  rw [captures?, List.takeWhile_cons, h c hc, if_neg Bool.false_ne_true]
  rfl

theorem Rejects.run {p q : Char → Bool} {steps : List Step} (hsteps : Rejects steps p)
    (h : ∀ c, p c = true → q c = false) (captured : Bool) :
    Rejects (.run q 0 captured :: steps) p := by
  intro c rest hc
  rw [captures?, List.takeWhile_cons, h c hc, if_neg Bool.false_ne_true]
  exact congrArg (Option.map _) (hsteps c rest hc)

/-! ## The pattern of a declaration -/

def argumentSteps : List Step :=
  [.one (· == '('), .run (· != '\n') 0 true, .one (· == ')')]

def spaceSteps : List Step := .run isBlank 0 false :: argumentSteps

def nameSteps : List Step := .run isWord 1 true :: spaceSteps

def gapSteps : List Step := .run isBlank 1 false :: nameSteps

def typeSteps : List Step := .run isWord 1 true :: gapSteps

def pattern : List Step := .run isBlank 0 false :: typeSteps

theorem beforeLast?_eq_none_iff {c : Char} {cs : List Char} :
    beforeLast? c cs = none ↔ c ∉ cs := by
  constructor
  · intro hnone hmem
    obtain ⟨after, before, hcs, hafter⟩ := List.eq_append_cons_of_mem (List.mem_reverse.2 hmem)
    have hsplit : cs = before.reverse ++ c :: after.reverse := by
      rw [← List.reverse_reverse cs, hcs]
      simp
    have hsome := beforeLast?_eq_some_iff.2 ⟨_, fun h => hafter (List.mem_reverse.1 h), hsplit⟩
    rw [hnone] at hsome
    cases (show none = some before.reverse from hsome)
  · intro hmem
    cases hfound : beforeLast? c cs with
    | none => rfl
    | some before =>
      obtain ⟨after, -, rfl⟩ := beforeLast?_eq_some_iff.1 hfound
      exact absurd (List.mem_append_right before List.mem_cons_self) hmem

/-- How far a run of the line goes is decided by what stands behind it. -/
theorem captures?_closing (cs : List Char) :
    captures? [.run (· != '\n') 0 true, .one (· == ')')] cs =
      greatest? (fun count => if cs[count]? = some ')' then some [cs.take count] else none)
        (cs.takeWhile (· != '\n')).length := by
  rw [captures?]
  congr 1
  funext count
  rw [← List.head?_drop]
  cases cs.drop count with
  | nil => rfl
  | cons c rest =>
    by_cases hc : c = ')'
    · simp [captures?, hc]
    · simp [captures?, hc]

/-- The run of the arguments goes back to the last closing parenthesis of its line. -/
theorem captures?_arguments (cs : List Char) :
    captures? [.run (· != '\n') 0 true, .one (· == ')')] cs =
      (beforeLast? ')' (cs.takeWhile (· != '\n'))).map fun arguments => [arguments] := by
  have hcs := List.takeWhile_append_dropWhile (p := (· != '\n')) (l := cs)
  have hstop := List.head?_dropWhile_not (· != '\n') cs
  rw [captures?_closing]
  generalize cs.takeWhile (· != '\n') = line at *
  generalize cs.dropWhile (· != '\n') = back at *
  subst hcs
  have hat : ∀ count ≤ line.length, (line ++ back)[count]? = some ')' →
      ')' ∈ line.drop count := by
    intro count hcount hclosing
    rcases Nat.lt_or_eq_of_le hcount with hless | rfl
    · rw [List.getElem?_append_left hless] at hclosing
      exact List.mem_of_mem_head? (by rw [List.head?_drop, hclosing]; rfl)
    · rw [List.getElem?_append_right (Nat.le_refl _), Nat.sub_self, ← List.head?_eq_getElem?]
        at hclosing
      simp [hclosing] at hstop
  cases hlast : beforeLast? ')' line with
  | none =>
    have hopen := beforeLast?_eq_none_iff.1 hlast
    exact greatest?_eq_none fun count hcount =>
      if_neg fun hclosing => hopen (List.mem_of_mem_drop (hat count hcount hclosing))
  | some before =>
    obtain ⟨after, hafter, rfl⟩ := beforeLast?_eq_some_iff.1 hlast
    have hclosing : ((before ++ ')' :: after) ++ back)[before.length]? = some ')' := by simp
    have hbehind : ∀ count, before.length < count → count ≤ (before ++ ')' :: after).length →
        ((before ++ ')' :: after) ++ back)[count]? ≠ some ')' := by
      intro count hless hcount hother
      have hmem := hat count hcount hother
      obtain ⟨extra, rfl⟩ := Nat.exists_eq_add_of_lt hless
      rw [Nat.add_assoc, List.drop_length_add_append, List.drop_succ_cons] at hmem
      exact hafter (List.mem_of_mem_drop hmem)
    rw [greatest?_eq (k := before.length) (by simp) fun count hless hcount =>
      if_neg (hbehind count hless hcount), if_pos hclosing]
    · simp
    · rw [if_pos hclosing]
      rfl

theorem captures?_argumentSteps (rest : List Char) :
    captures? argumentSteps ('(' :: rest) =
      (beforeLast? ')' (rest.takeWhile (· != '\n'))).map fun arguments => [arguments] := by
  rw [argumentSteps, captures?, if_pos (beq_self_eq_true _)]
  exact captures?_arguments rest

theorem captures?_argumentSteps_eq_none {cs : List Char} (h : ∀ rest, cs ≠ '(' :: rest) :
    captures? argumentSteps cs = none := by
  cases cs with
  | nil => rfl
  | cons c rest =>
    have hc : (c == '(') = false := beq_eq_false_iff_ne.2 fun hc => h rest (by rw [hc])
    rw [argumentSteps, captures?, hc, if_neg Bool.false_ne_true]

/-! ## What the pattern captures -/

theorem rejects_typeSteps : Rejects typeSteps isBlank :=
  rejects_run (fun _ => isWord_eq_false_of_isBlank) 0 true gapSteps

theorem rejects_gapSteps : Rejects gapSteps isWord :=
  rejects_run (fun _ => isBlank_eq_false_of_isWord) 0 false nameSteps

theorem rejects_nameSteps : Rejects nameSteps isBlank :=
  rejects_run (fun _ => isWord_eq_false_of_isBlank) 0 true spaceSteps

theorem rejects_spaceSteps : Rejects spaceSteps isWord := by
  refine Rejects.run (rejects_one (fun c hc => ?_) _) (fun _ => isBlank_eq_false_of_isWord) false
  rw [beq_eq_false_iff_ne]
  rintro rfl
  exact absurd hc (by decide)

theorem rejects_argumentSteps : Rejects argumentSteps isBlank := by
  refine rejects_one (fun c hc => ?_) _
  rw [beq_eq_false_iff_ne]
  rintro rfl
  exact absurd hc (by decide)

theorem captures?_pattern (line : List Char) :
    captures? pattern line = (layout? line).map fun l => [l.returnType, l.name, l.arguments] := by
  rw [pattern, captures?_run rejects_typeSteps, typeSteps, captures?_run rejects_gapSteps, gapSteps,
    captures?_run rejects_nameSteps, nameSteps, captures?_run rejects_spaceSteps, spaceSteps,
    captures?_run rejects_argumentSteps]
  unfold layout?
  simp only [Nat.not_lt_zero, if_false, if_true, Bool.false_eq_true, Nat.lt_one_iff,
    List.length_eq_zero_iff, Option.map_id']
  generalize line.dropWhile isBlank = fromType
  generalize fromType.dropWhile isWord = fromGap
  generalize fromGap.dropWhile isBlank = fromName
  generalize fromName.dropWhile isWord = fromSpace
  generalize fromSpace.dropWhile isBlank = behind
  by_cases htype : fromType.takeWhile isWord = []
  · simp [htype]
  by_cases hgap : fromGap.takeWhile isBlank = []
  · simp [hgap]
  by_cases hname : fromName.takeWhile isWord = []
  · simp [hname]
  have hwords : ((fromType.takeWhile isWord).isEmpty || (fromGap.takeWhile isBlank).isEmpty ||
      (fromName.takeWhile isWord).isEmpty) = false := by
    simp [htype, hgap, hname]
  rw [if_neg htype, if_neg hgap, if_neg hname, hwords, if_neg Bool.false_ne_true]
  split
  · next fromArguments =>
    rw [captures?_argumentSteps]
    cases beforeLast? ')' (fromArguments.takeWhile (· != '\n')) with
    | none => rfl
    | some arguments => rfl
  · next hother =>
    rw [captures?_argumentSteps_eq_none hother]
    rfl

def memberOf? : List (List Char) → Option Member
  | [returnType, name, arguments] => some {
      returnType := String.ofList returnType
      name := String.ofList name
      argTypes := splitArgs (String.ofList arguments) }
  | _ => none

theorem read?_eq_captures? (line : String) :
    read? line = (captures? pattern line.toList).bind memberOf? := by
  rw [captures?_pattern, Option.bind_map, read?, readChars?]
  cases layout? line.toList with
  | none => rfl
  | some l => simp [memberOf?, Layout.member, splitArgs]

/-! ## The grammar of a declaration -/

/-- The parts follow the rules of a declaration, and put together they are the line. -/
def Layout.Splits (l : Layout) (line : String) : Prop := l.WellFormed ∧ l.line = line.toList

theorem layout?_eq_some_iff_splits {line : String} {l : Layout} :
    layout? line.toList = some l ↔ l.Splits line :=
  layout?_eq_some_iff

theorem Layout.Splits.read?_eq {l : Layout} {line : String} (h : l.Splits line) :
    read? line = some ⟨String.ofList l.returnType, String.ofList l.name,
      splitArgs (String.ofList l.arguments)⟩ := by
  rw [read?, readChars?, layout?_eq_some_iff_splits.2 h, Option.map_some, Layout.member, splitArgs,
    String.toList_ofList]

/-- A line declares a member exactly if it can be split, it can be split in one way only, and the
pattern captures what the parts hold. -/
theorem read?_grammar (line : String) :
    read? line = (captures? pattern line.toList).bind memberOf? ∧
      (∀ m : Member, read? line = some m ↔ ∃ l : Layout, l.Splits line ∧
        m = { returnType := String.ofList l.returnType
              name := String.ofList l.name
              argTypes := splitArgs (String.ofList l.arguments) }) ∧
      (∀ l l' : Layout, l.Splits line → l'.Splits line → l = l') ∧
      (read? line = none ↔ ∀ l : Layout, ¬l.Splits line) := by
  have hmember : ∀ l : Layout, l.member =
      { returnType := String.ofList l.returnType
        name := String.ofList l.name
        argTypes := splitArgs (String.ofList l.arguments) } := by
    intro l
    simp [Layout.member, splitArgs]
  refine ⟨read?_eq_captures? line, fun m => ?_, fun l l' hl hl' => ?_, ?_⟩
  · rw [read?, readChars?, Option.map_eq_some_iff]
    simp only [layout?_eq_some_iff_splits, hmember, eq_comm (a := m)]
  · rw [← layout?_eq_some_iff_splits] at hl hl'
    exact Option.some_inj.1 (hl.symm.trans hl')
  · rw [read?, readChars?, Option.map_eq_none_iff, Option.eq_none_iff_forall_ne_some]
    simp only [ne_eq, layout?_eq_some_iff_splits]

/-- The arguments go on to the last closing parenthesis of their line. -/
example : read? "int f(a (b), c) const) // d" = some ⟨"int", "f", ["a (b)", "c) const"]⟩ := by
  decide +kernel

end LuaGlue.Declaration

import LuaGlue.Proofs.Text.Part
import LuaGlue.Text.Placeholder
import Mathlib.Data.List.Count

/-!
# Templates that hold a placeholder

A placeholder is found in a template exactly if it stands there. What fills a template replaces its
placeholders from left to right, and nothing else is changed. Unless the value can be mistaken for a
piece of the placeholder, none is left then; and two values give two texts.
-/

namespace LuaGlue.Text

theorem occursIn_iff_isInfix {pattern cs : List Char} :
    occursIn pattern cs = true ↔ pattern <:+: cs := by
  induction cs with
  | nil => rw [occursIn, List.isEmpty_iff, List.infix_nil]
  | cons c rest ih =>
    rw [occursIn, Bool.or_eq_true, List.isPrefixOf_iff_prefix, ih, List.infix_cons_iff]

theorem standsIn_iff_isInfix {part text : String} :
    StandsIn part text ↔ part.toList <:+: text.toList := by
  constructor
  · rintro ⟨before, after, rfl⟩
    exact ⟨before.toList, after.toList, by simp⟩
  · rintro ⟨before, after, h⟩
    refine ⟨String.ofList before, String.ofList after, ?_⟩
    rw [← String.toList_inj, ← h]
    simp

theorem holds_iff {template placeholder : String} :
    holds template placeholder = true ↔ StandsIn placeholder template := by
  rw [holds, occursIn_iff_isInfix, standsIn_iff_isInfix]

instance (part text : String) : Decidable (StandsIn part text) := decidable_of_iff _ holds_iff

/-! ## Replacing -/

/-- A text is a template with every placeholder replaced by a value, from left to right and without
overlap. -/
inductive Replaces (placeholder value : List Char) : List Char → List Char → Prop
  | nil : Replaces placeholder value [] []
  | hole {template text : List Char} (behind : Replaces placeholder value template text) :
      Replaces placeholder value (placeholder ++ template) (value ++ text)
  | char {c : Char} {template text : List Char} (absent : ¬placeholder <+: c :: template)
      (behind : Replaces placeholder value template text) :
      Replaces placeholder value (c :: template) (c :: text)

section Replace

variable {placeholder value : List Char}

theorem piecesFrom_eq_pieces (skip : Nat) (template : List Char) :
    piecesFrom placeholder skip template = pieces placeholder (template.drop skip) := by
  induction template generalizing skip with
  | nil => cases skip <;> rfl
  | cons c rest ih =>
    cases skip with
    | zero => rfl
    | succ skip => exact ih skip

theorem fillChars_hole (nonempty : placeholder ≠ []) (template : List Char) :
    fillChars placeholder value (placeholder ++ template) =
      value ++ fillChars placeholder value template := by
  obtain ⟨c, rest, rfl⟩ := List.exists_cons_of_ne_nil nonempty
  have hhere : (c :: rest).isPrefixOf (c :: (rest ++ template)) = true :=
    List.isPrefixOf_iff_prefix.2 (List.prefix_append (c :: rest) template)
  unfold fillChars pieces
  rw [List.cons_append, piecesFrom, if_pos hhere, List.flatMap_cons, piecesFrom_eq_pieces,
    List.length_cons, Nat.add_sub_cancel, List.drop_left]
  rfl

theorem fillChars_char {c : Char} {template : List Char} (h : ¬placeholder <+: c :: template) :
    fillChars placeholder value (c :: template) = c :: fillChars placeholder value template := by
  unfold fillChars pieces
  rw [piecesFrom, if_neg (mt List.isPrefixOf_iff_prefix.1 h)]
  rfl

theorem replaces_fillChars (nonempty : placeholder ≠ []) (template : List Char) :
    Replaces placeholder value template (fillChars placeholder value template) := by
  induction hlength : template.length using Nat.strongRecOn generalizing template with
  | ind n ih =>
    subst hlength
    cases template with
    | nil => exact .nil
    | cons c rest =>
      by_cases h : placeholder <+: c :: rest
      · obtain ⟨template, hsplit⟩ := h
        have hpositive := List.length_pos_iff.2 nonempty
        rw [← hsplit, fillChars_hole nonempty]
        refine .hole (ih template.length ?_ template rfl)
        rw [← hsplit, List.length_append]
        omega
      · rw [fillChars_char h]
        exact .char h (ih rest.length (Nat.lt_succ_self _) rest rfl)

/-- Filling a template replaces its placeholders, and nothing else does. -/
theorem replaces_iff (nonempty : placeholder ≠ []) {template text : List Char} :
    Replaces placeholder value template text ↔ text = fillChars placeholder value template := by
  constructor
  · intro h
    induction h with
    | nil => rfl
    | hole _ ih => rw [fillChars_hole nonempty, ← ih]
    | char hother _ ih => rw [fillChars_char hother, ← ih]
  · rintro rfl
    exact replaces_fillChars nonempty template

theorem Replaces.eq_of_absent {template text : List Char}
    (h : Replaces placeholder value template text) (hlacks : ¬placeholder <:+: template) :
    text = template := by
  induction h with
  | nil => rfl
  | hole => exact absurd (List.prefix_append _ _).isInfix hlacks
  | char _ _ ih => rw [ih (mt List.infix_cons hlacks)]

end Replace

/-! ## What stands in the filled text -/

def BeginsOutside (cs other : List Char) : Prop := ∃ c rest, cs = c :: rest ∧ c ∉ other

section Leaves

variable {placeholder value template text : List Char}

theorem BeginsOutside.ne_nil {cs other : List Char} (h : BeginsOutside cs other) : cs ≠ [] := by
  obtain ⟨c, rest, rfl, -⟩ := h
  exact List.cons_ne_nil c rest

theorem BeginsOutside.not_isInfix {cs other : List Char} (h : BeginsOutside cs other) :
    ¬cs <:+: other := by
  obtain ⟨c, rest, rfl, hother⟩ := h
  exact fun hin => hother (hin.subset List.mem_cons_self)

/-- A pattern that cannot begin in the front of a text stands as a whole behind it. -/
theorem BeginsOutside.isInfix_of_append {pattern before behind : List Char}
    (hpattern : BeginsOutside pattern before) (h : pattern <:+: before ++ behind) :
    pattern <:+: behind := by
  obtain hbefore | hbehind | ⟨left, right, hleft, -, hsplit, hsuffix, -⟩ :=
    List.infix_append_iff_ne_nil.1 h
  · exact absurd hbefore hpattern.not_isInfix
  · exact hbehind
  · obtain ⟨c, rest, rfl, hc⟩ := hpattern
    obtain ⟨first, others, rfl⟩ := List.exists_cons_of_ne_nil hleft
    obtain ⟨rfl, -⟩ := List.cons.inj hsplit
    exact absurd (hsuffix.subset List.mem_cons_self) hc

theorem Replaces.value_isInfix (h : Replaces placeholder value template text)
    (nonempty : placeholder ≠ []) (hholds : placeholder <:+: template) : value <:+: text := by
  induction h with
  | nil => exact absurd (List.infix_nil.1 hholds) nonempty
  | hole => exact (List.prefix_append _ _).isInfix
  | char absent _ ih =>
    exact List.infix_cons (ih ((List.infix_cons_iff.1 hholds).resolve_left absent))

/-- What the filled text begins with, if no value can begin in it, the template begins with. -/
theorem Replaces.prefix_template (h : Replaces placeholder value template text)
    {front : List Char} (hvalue : BeginsOutside value front) (hfront : front <+: text) :
    front <+: template := by
  induction h generalizing front with
  | nil => exact hfront
  | hole =>
    obtain ⟨first, rest, rfl, hfirst⟩ := hvalue
    cases front with
    | nil => exact List.nil_prefix
    | cons c others =>
      obtain ⟨rfl, -⟩ := List.cons_prefix_cons.1 hfront
      exact absurd List.mem_cons_self hfirst
  | char _ _ ih =>
    cases front with
    | nil => exact List.nil_prefix
    | cons c others =>
      obtain ⟨rfl, hothers⟩ := List.cons_prefix_cons.1 hfront
      obtain ⟨first, rest, hsplit, hfirst⟩ := hvalue
      have hrest : BeginsOutside value others :=
        ⟨first, rest, hsplit, fun hmem => hfirst (List.mem_cons_of_mem c hmem)⟩
      exact List.cons_prefix_cons.2 ⟨rfl, ih hrest hothers⟩

/-- No placeholder is left, and none comes into being across the ends of a value. -/
theorem Replaces.not_isInfix (h : Replaces placeholder value template text)
    (hvalue : BeginsOutside value placeholder) (hplaceholder : BeginsOutside placeholder value) :
    ¬placeholder <:+: text := by
  induction h with
  | nil => exact fun hnil => hplaceholder.ne_nil (List.infix_nil.1 hnil)
  | hole _ ih => exact fun hin => ih (hplaceholder.isInfix_of_append hin)
  | char absent behind ih =>
    rw [List.infix_cons_iff, not_or]
    -- a placeholder here would have been one of the template
    exact ⟨fun hfront => absent ((Replaces.char absent behind).prefix_template hvalue hfront), ih⟩

end Leaves

/-! ## Values told apart -/

theorem length_flatMap_fill (parts : List Piece) (value : List Char) :
    (parts.flatMap (Piece.fill value)).length =
      (parts.flatMap (Piece.fill [])).length + parts.count .hole * value.length := by
  induction parts with
  | nil => simp
  | cons part rest ih =>
    rw [List.flatMap_cons, List.length_append, ih, List.flatMap_cons, List.length_append]
    cases part with
    | char c =>
      have hother : Piece.char c ≠ .hole := nofun
      rw [List.count_cons_of_ne hother]
      simp only [Piece.fill]
      omega
    | hole =>
      rw [List.count_cons_self, Nat.succ_mul]
      simp only [Piece.fill, List.length_nil]
      omega

theorem flatMap_fill_injective {parts : List Piece} (hhole : .hole ∈ parts) :
    Function.Injective fun value => parts.flatMap (Piece.fill value) := by
  intro value other h
  -- the values are equally long, so that their first places in the texts match
  have hlength : value.length = other.length := by
    have hlengths := congrArg List.length h
    rw [length_flatMap_fill parts value, length_flatMap_fill parts other,
      Nat.add_left_cancel_iff] at hlengths
    exact Nat.eq_of_mul_eq_mul_left (List.count_pos_iff.2 hhole) hlengths
  induction parts with
  | nil => cases hhole
  | cons part rest ih =>
    simp only [List.flatMap_cons] at h
    cases part with
    | hole => exact (List.append_inj h hlength).1
    | char c =>
      have hrest : Piece.hole ∈ rest := (List.mem_cons.1 hhole).resolve_left nofun
      exact ih hrest (List.append_inj h rfl).2

/-! ## Texts -/

def Filled (template placeholder value text : String) : Prop :=
  Replaces placeholder.toList value.toList template.toList text.toList

theorem filled_fill {placeholder : String} (nonempty : placeholder ≠ "") (template value : String) :
    Filled template placeholder value (fill template placeholder value) := by
  have hchars : placeholder.toList ≠ [] := fun hnil => nonempty (String.toList_inj.1 hnil)
  rw [Filled, replaces_iff hchars, fill, String.toList_ofList]

/-- A text is a template with the value in place of every placeholder, of which none is left, and
the value stands in it. -/
structure Expands (template placeholder value text : String) : Prop where
  filled : Filled template placeholder value text
  value_standsIn : StandsIn value text
  complete : ¬StandsIn placeholder text

theorem expands_fill {template placeholder value : String} (hholds : StandsIn placeholder template)
    (hvalue : BeginsOutside value.toList placeholder.toList)
    (hplaceholder : BeginsOutside placeholder.toList value.toList) :
    Expands template placeholder value (fill template placeholder value) := by
  have nonempty : placeholder.toList ≠ [] := hplaceholder.ne_nil
  have hfilled : Filled template placeholder value (fill template placeholder value) :=
    filled_fill (mt String.toList_eq_nil_iff.2 nonempty) template value
  refine ⟨hfilled, ?_, ?_⟩
  · rw [standsIn_iff_isInfix]
    exact hfilled.value_isInfix nonempty (standsIn_iff_isInfix.1 hholds)
  · rw [standsIn_iff_isInfix]
    exact hfilled.not_isInfix hvalue hplaceholder

theorem fill_injective {template placeholder : String} (nonempty : placeholder ≠ "")
    (hholds : StandsIn placeholder template) : Function.Injective (fill template placeholder) := by
  intro value other h
  have hchars : placeholder.toList ≠ [] := mt String.toList_eq_nil_iff.1 nonempty
  have hhole : .hole ∈ pieces placeholder.toList template.toList := by
    rw [hole_mem_pieces_iff hchars, occursIn_iff_isInfix, ← standsIn_iff_isInfix]
    exact hholds
  exact String.toList_inj.1 (flatMap_fill_injective hhole (String.ofList_inj.1 h))

theorem fill_of_not_standsIn {template placeholder : String} (nonempty : placeholder ≠ "")
    (hlacks : ¬StandsIn placeholder template) (value : String) :
    fill template placeholder value = template := by
  rw [← String.toList_inj]
  exact (filled_fill nonempty template value).eq_of_absent (mt standsIn_iff_isInfix.2 hlacks)

end LuaGlue.Text

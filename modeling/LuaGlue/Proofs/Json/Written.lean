import LuaGlue.Json.Reader
import LuaGlue.Proofs.Text.Digits
import LuaGlue.Proofs.Text.Runs
import Mathlib.Data.List.DropRight

/-!
# Written JSON

A value whose strings are texts can be written in many ways, which differ only in their white space.
Each of them is read as the value, whatever comes behind it.
-/

namespace LuaGlue.Json

/-! ## Literals -/

theorem readLiteral?_hex {unit : Nat} (h : unit < 0x20) (rest : List Char) :
    readLiteral? (['\\', 'u'] ++ Text.hexDigits 4 unit ++ rest) =
      (readLiteral? rest).map fun found => (.char (Char.ofNat unit) :: found.1, found.2) := by
  have hsmall : unit < 16 ^ 4 := by omega
  have hnumber := Text.hexNumber?_hexDigits_of_lt hsmall
  have hunit : LiteralPart.ofUnit unit = .char (Char.ofNat unit) := by
    have hhigh : isHighUnit unit = false := by
      simp [isHighUnit]
      omega
    have hlow : isLowUnit unit = false := by
      simp [isLowUnit]
      omega
    rw [LiteralPart.ofUnit, hhigh, hlow]
    rfl
  obtain ⟨a, b, c, d, hdigits⟩ : ∃ a b c d, Text.hexDigits 4 unit = [a, b, c, d] :=
    ⟨_, _, _, _, rfl⟩
  rw [hdigits] at hnumber ⊢
  simp only [List.cons_append, List.nil_append]
  rw [readLiteral?, hnumber]
  cases readLiteral? rest <;> simp [hunit]

theorem readLiteral?_short {e c : Char} (h : shortEscape? e = some c) (hother : e ≠ 'u')
    (rest : List Char) :
    readLiteral? ('\\' :: e :: rest) =
      (readLiteral? rest).map fun found => (.char c :: found.1, found.2) := by
  rw [readLiteral?, h]
  · cases readLiteral? rest <;> rfl
  · rintro a b c d rest' rfl
    exact absurd rfl hother

theorem readLiteral?_plain {c : Char} (hquote : c ≠ '"') (hbackslash : c ≠ '\\')
    (hcontrol : ¬c.toNat < 0x20) (rest : List Char) :
    readLiteral? (c :: rest) =
      (readLiteral? rest).map fun found => (.char c :: found.1, found.2) := by
  rw [readLiteral?, if_neg (by simp [hbackslash, hcontrol])]
  · cases readLiteral? rest <;> rfl
  · exact fun hc => absurd hc hquote
  · intro a b c d rest' hc
    exact absurd hc hbackslash
  · intro c' rest' hc
    exact absurd hc hbackslash

theorem readLiteral?_escapeChar (c : Char) (rest : List Char) :
    readLiteral? (escapeChar c ++ rest) =
      (readLiteral? rest).map fun found => (.char c :: found.1, found.2) := by
  have hshort : ∀ e, shortEscape? e = some c → e ≠ 'u' →
      readLiteral? (['\\', e] ++ rest) =
        (readLiteral? rest).map fun found => (.char c :: found.1, found.2) :=
    fun e he hother => readLiteral?_short he hother rest
  unfold escapeChar
  by_cases hquote : c = '"'
  · rw [if_pos hquote]
    exact hshort _ (by rw [hquote]; rfl) (by decide)
  rw [if_neg hquote]
  by_cases hbackslash : c = '\\'
  · rw [if_pos hbackslash]
    exact hshort _ (by rw [hbackslash]; rfl) (by decide)
  rw [if_neg hbackslash]
  by_cases hb : c = '\x08'
  · rw [if_pos hb]
    exact hshort _ (by rw [hb]; rfl) (by decide)
  rw [if_neg hb]
  by_cases hf : c = '\x0c'
  · rw [if_pos hf]
    exact hshort _ (by rw [hf]; rfl) (by decide)
  rw [if_neg hf]
  by_cases hn : c = '\n'
  · rw [if_pos hn]
    exact hshort _ (by rw [hn]; rfl) (by decide)
  rw [if_neg hn]
  by_cases hr : c = '\r'
  · rw [if_pos hr]
    exact hshort _ (by rw [hr]; rfl) (by decide)
  rw [if_neg hr]
  by_cases ht : c = '\t'
  · rw [if_pos ht]
    exact hshort _ (by rw [ht]; rfl) (by decide)
  rw [if_neg ht]
  by_cases hcontrol : c.toNat < 0x20
  · rw [if_pos hcontrol, readLiteral?_hex hcontrol, Char.ofNat_toNat]
  · rw [if_neg hcontrol]
    exact readLiteral?_plain hquote hbackslash hcontrol rest

theorem readLiteral?_literal (text rest : List Char) :
    readLiteral? (text.flatMap escapeChar ++ '"' :: rest) = some (text.map .char, rest) := by
  induction text with
  | nil => rw [List.flatMap_nil, List.nil_append, readLiteral?]; rfl
  | cons c text ih =>
    rw [List.flatMap_cons, List.append_assoc, readLiteral?_escapeChar, ih]
    rfl

theorem textOf?_chars (text : List Char) : textOf? (text.map .char) = some text := by
  induction text with
  | nil => rfl
  | cons c text ih =>
    rw [List.map_cons, textOf?, ih]
    rfl

/-! ## Values -/

def IsSpace (cs : List Char) : Prop := ∀ c ∈ cs, isSpace c = true

mutual

/-- The ways to write a value whose strings are texts. -/
inductive Written : Json → List Char → Prop
  | string (text : List Char) : Written (.string (some text)) (literal text)
  | emptyArray {space : List Char} (hspace : IsSpace space) :
      Written (.array []) ('[' :: (space ++ [']']))
  | array {items : List Json} {cs : List Char} (hitems : WrittenItems items cs) :
      Written (.array items) ('[' :: cs)
  | emptyObject {space : List Char} (hspace : IsSpace space) :
      Written (.object []) ('{' :: (space ++ ['}']))
  | object {fields : List (Option (List Char) × Json)} {cs : List Char}
      (hfields : WrittenFields fields cs) : Written (.object fields) ('{' :: cs)

inductive WrittenItems : List Json → List Char → Prop
  | last {before cs after : List Char} {item : Json} (hbefore : IsSpace before)
      (hitem : Written item cs) (hafter : IsSpace after) :
      WrittenItems [item] (before ++ (cs ++ (after ++ [']'])))
  | next {before cs after rest : List Char} {item : Json} {items : List Json}
      (hbefore : IsSpace before) (hitem : Written item cs) (hafter : IsSpace after)
      (hitems : WrittenItems items rest) :
      WrittenItems (item :: items) (before ++ (cs ++ (after ++ ',' :: rest)))

inductive WrittenFields : List (Option (List Char) × Json) → List Char → Prop
  | last {before between cs after : List Char} {value : Json} (hbefore : IsSpace before)
      (name : List Char) (hbetween : IsSpace between) (hvalue : Written value cs)
      (hafter : IsSpace after) :
      WrittenFields [(some name, value)]
        (before ++ (literal name ++ ':' :: (between ++ (cs ++ (after ++ ['}'])))))
  | next {before between cs after rest : List Char} {value : Json}
      {fields : List (Option (List Char) × Json)} (hbefore : IsSpace before) (name : List Char)
      (hbetween : IsSpace between) (hvalue : Written value cs) (hafter : IsSpace after)
      (hfields : WrittenFields fields rest) :
      WrittenFields ((some name, value) :: fields)
        (before ++ (literal name ++ ':' :: (between ++ (cs ++ (after ++ ',' :: rest)))))

end

/-! ## Reading -/

theorem skipSpace_append {space : List Char} (hspace : IsSpace space) {rest : List Char}
    (hrest : ∀ c ∈ rest.head?, isSpace c = false) : skipSpace (space ++ rest) = rest :=
  Text.dropWhile_run hspace hrest

theorem skipSpace_skipSpace (cs : List Char) : skipSpace (skipSpace cs) = skipSpace cs :=
  List.dropWhile_idempotent isSpace cs

theorem readValue?_skipSpace (fuel : Nat) (cs : List Char) :
    readValue? fuel (skipSpace cs) = readValue? fuel cs := by
  cases fuel with
  | zero => rfl
  | succ fuel => rw [readValue?, readValue?, skipSpace_skipSpace]

theorem readItems?_skipSpace (fuel : Nat) (cs : List Char) :
    readItems? fuel (skipSpace cs) = readItems? fuel cs := by
  cases fuel with
  | zero => rfl
  | succ fuel => rw [readItems?, readItems?, readValue?_skipSpace]

theorem readFields?_skipSpace (fuel : Nat) (cs : List Char) :
    readFields? fuel (skipSpace cs) = readFields? fuel cs := by
  cases fuel with
  | zero => rfl
  | succ fuel => rw [readFields?, readFields?, skipSpace_skipSpace]

theorem readValue?_quote (fuel : Nat) (text rest : List Char) :
    readValue? (fuel + 1) (literal text ++ rest) = some (.string (some text), rest) := by
  have hread := readLiteral?_literal text rest
  have hliteral : literal text ++ rest = '"' :: (text.flatMap escapeChar ++ '"' :: rest) := by
    simp [literal]
  rw [hliteral, readValue?]
  change (readLiteral? _).bind _ = _
  rw [hread]
  change some (Json.string (textOf? (text.map .char)), rest) = _
  rw [textOf?_chars]

theorem readValue?_emptyArray {cs after : List Char} (h : skipSpace cs = ']' :: after)
    (fuel : Nat) : readValue? (fuel + 1) ('[' :: cs) = some (.array [], after) := by
  have hskip : skipSpace ('[' :: cs) = '[' :: cs := rfl
  rw [readValue?, hskip]
  simp only [h]

theorem readValue?_items {cs : List Char} (h : ∀ after, skipSpace cs ≠ ']' :: after) (fuel : Nat) :
    readValue? (fuel + 1) ('[' :: cs) =
      (readItems? fuel cs).map fun found => (.array found.1, found.2) := by
  have hskip : skipSpace ('[' :: cs) = '[' :: cs := rfl
  rw [readValue?, hskip, ← readItems?_skipSpace]
  simp only
  cases readItems? fuel (skipSpace cs) <;> rfl

theorem readValue?_emptyObject {cs after : List Char} (h : skipSpace cs = '}' :: after)
    (fuel : Nat) : readValue? (fuel + 1) ('{' :: cs) = some (.object [], after) := by
  have hskip : skipSpace ('{' :: cs) = '{' :: cs := rfl
  rw [readValue?, hskip]
  simp only [h]

theorem readValue?_fields {cs : List Char} (h : ∀ after, skipSpace cs ≠ '}' :: after)
    (fuel : Nat) :
    readValue? (fuel + 1) ('{' :: cs) =
      (readFields? fuel cs).map fun found => (.object found.1, found.2) := by
  have hskip : skipSpace ('{' :: cs) = '{' :: cs := rfl
  rw [readValue?, hskip, ← readFields?_skipSpace]
  simp only
  cases readFields? fuel (skipSpace cs) <;> rfl

theorem Written.head {j : Json} {cs : List Char} (h : Written j cs) :
    ∃ c rest, cs = c :: rest ∧ isSpace c = false ∧ c ≠ ']' := by
  cases h with
  | string text => exact ⟨'"', _, rfl, rfl, by decide⟩
  | emptyArray => exact ⟨'[', _, rfl, rfl, by decide⟩
  | array => exact ⟨'[', _, rfl, rfl, by decide⟩
  | emptyObject => exact ⟨'{', _, rfl, rfl, by decide⟩
  | object => exact ⟨'{', _, rfl, rfl, by decide⟩

theorem Written.skipSpace_eq {j : Json} {cs : List Char} (h : Written j cs) {space : List Char}
    (hspace : IsSpace space) (rest : List Char) :
    skipSpace (space ++ (cs ++ rest)) = cs ++ rest := by
  obtain ⟨c, cs, rfl, hc, -⟩ := h.head
  refine skipSpace_append hspace ?_
  rintro d ⟨⟩
  exact hc

theorem Written.readValue?_space {j : Json} {cs : List Char} (h : Written j cs)
    {space : List Char} (hspace : IsSpace space) (fuel : Nat) (rest : List Char) :
    readValue? fuel (space ++ (cs ++ rest)) = readValue? fuel (cs ++ rest) := by
  rw [← readValue?_skipSpace, h.skipSpace_eq hspace]

theorem skipSpace_mark {space : List Char} (hspace : IsSpace space) {mark : Char}
    (hmark : isSpace mark = false) (rest : List Char) :
    skipSpace (space ++ mark :: rest) = mark :: rest := by
  refine skipSpace_append hspace ?_
  rintro c ⟨⟩
  exact hmark

theorem WrittenItems.open {items : List Json} {cs : List Char} (h : WrittenItems items cs)
    (rest after : List Char) : skipSpace (cs ++ rest) ≠ ']' :: after := by
  have hitem : ∀ {j : Json} {before cs : List Char}, Written j cs → IsSpace before →
      ∀ tail, skipSpace (before ++ (cs ++ tail)) ≠ ']' :: after := by
    intro j before cs hj hbefore tail hclosed
    rw [hj.skipSpace_eq hbefore] at hclosed
    obtain ⟨c, cs, rfl, -, hc⟩ := hj.head
    exact hc (List.cons.inj hclosed).1
  cases h with
  | last hbefore hj hafter =>
    rw [List.append_assoc, List.append_assoc]
    exact hitem hj hbefore _
  | next hbefore hj hafter hitems =>
    rw [List.append_assoc, List.append_assoc]
    exact hitem hj hbefore _

theorem WrittenFields.open {fields : List (Option (List Char) × Json)} {cs : List Char}
    (h : WrittenFields fields cs) (rest after : List Char) :
    skipSpace (cs ++ rest) ≠ '}' :: after := by
  have hname : ∀ {before name : List Char}, IsSpace before →
      ∀ tail, skipSpace (before ++ (literal name ++ tail)) ≠ '}' :: after := by
    intro before name hbefore tail hclosed
    rw [(Written.string name).skipSpace_eq hbefore] at hclosed
    cases hclosed
  cases h with
  | last hbefore name hbetween hvalue hafter =>
    rw [List.append_assoc, List.append_assoc]
    exact hname hbefore _
  | next hbefore name hbetween hvalue hafter hfields =>
    rw [List.append_assoc, List.append_assoc]
    exact hname hbefore _

/-! ### One step of a list -/

theorem readItems?_last {fuel : Nat} {cs rest after : List Char} {item : Json}
    (hitem : readValue? fuel cs = some (item, rest)) (hrest : skipSpace rest = ']' :: after) :
    readItems? (fuel + 1) cs = some ([item], after) := by
  rw [readItems?, hitem]
  simp [hrest]

theorem readItems?_next {fuel : Nat} {cs rest others after : List Char} {item : Json}
    {items : List Json} (hitem : readValue? fuel cs = some (item, rest))
    (hrest : skipSpace rest = ',' :: others)
    (hitems : readItems? fuel others = some (items, after)) :
    readItems? (fuel + 1) cs = some (item :: items, after) := by
  rw [readItems?, hitem]
  simp [hrest, hitems]

theorem skipSpace_name {before : List Char} (hbefore : IsSpace before) (name cs : List Char) :
    skipSpace (before ++ (literal name ++ ':' :: cs)) =
      '"' :: (name.flatMap escapeChar ++ '"' :: ':' :: cs) := by
  rw [(Written.string name).skipSpace_eq hbefore]
  simp [literal]

theorem skipSpace_colon (cs : List Char) : skipSpace (':' :: cs) = ':' :: cs := rfl

theorem readFields?_last {fuel : Nat} {before cs rest after : List Char} {value : Json}
    (hbefore : IsSpace before) (name : List Char) (hvalue : readValue? fuel cs = some (value, rest))
    (hrest : skipSpace rest = '}' :: after) :
    readFields? (fuel + 1) (before ++ (literal name ++ ':' :: cs)) =
      some ([(some name, value)], after) := by
  rw [readFields?, skipSpace_name hbefore]
  simp [readLiteral?_literal, skipSpace_colon, hvalue, hrest, textOf?_chars]

theorem readFields?_next {fuel : Nat} {before cs rest others after : List Char} {value : Json}
    {fields : List (Option (List Char) × Json)} (hbefore : IsSpace before) (name : List Char)
    (hvalue : readValue? fuel cs = some (value, rest)) (hrest : skipSpace rest = ',' :: others)
    (hfields : readFields? fuel others = some (fields, after)) :
    readFields? (fuel + 1) (before ++ (literal name ++ ':' :: cs)) =
      some ((some name, value) :: fields, after) := by
  rw [readFields?, skipSpace_name hbefore]
  simp [readLiteral?_literal, skipSpace_colon, hvalue, hrest, hfields, textOf?_chars]

/-! ### Whole values -/

mutual

/-- A written value is read as the value, whatever comes behind it. -/
theorem Written.reads {j : Json} {cs : List Char} (h : Written j cs) {fuel : Nat}
    (hfuel : cs.length ≤ fuel) (rest : List Char) :
    readValue? fuel (cs ++ rest) = some (j, rest) := by
  -- a value takes at least one character, so the length leaves fuel for each level below it
  obtain ⟨fuel, rfl⟩ : ∃ less, fuel = less + 1 := by
    obtain ⟨c, cs, rfl, -, -⟩ := h.head
    exact Nat.exists_eq_succ_of_ne_zero (by simp at hfuel; omega)
  cases h with
  | string text => exact readValue?_quote fuel text rest
  | emptyArray hspace =>
    rw [List.cons_append, List.append_assoc]
    exact readValue?_emptyArray (skipSpace_mark hspace rfl rest) fuel
  | array hitems =>
    have hread := hitems.reads (Nat.le_of_succ_le_succ hfuel) rest
    rw [List.cons_append, readValue?_items (hitems.open rest), hread]
    rfl
  | emptyObject hspace =>
    rw [List.cons_append, List.append_assoc]
    exact readValue?_emptyObject (skipSpace_mark hspace rfl rest) fuel
  | object hfields =>
    have hread := hfields.reads (Nat.le_of_succ_le_succ hfuel) rest
    rw [List.cons_append, readValue?_fields (hfields.open rest), hread]
    rfl

theorem WrittenItems.reads {items : List Json} {cs : List Char} (h : WrittenItems items cs)
    {fuel : Nat} (hfuel : cs.length ≤ fuel) (rest : List Char) :
    readItems? fuel (cs ++ rest) = some (items, rest) := by
  cases h with
  | @last before cs after item hbefore hitem hafter =>
    simp only [List.length_append, List.length_cons] at hfuel
    obtain ⟨fuel, rfl⟩ : ∃ less, fuel = less + 1 := Nat.exists_eq_succ_of_ne_zero (by omega)
    have hlength : cs.length ≤ fuel := by omega
    have hread := hitem.reads hlength (after ++ ']' :: rest)
    rw [← hitem.readValue?_space hbefore] at hread
    simp only [List.append_assoc]
    exact readItems?_last hread (skipSpace_mark hafter rfl rest)
  | @next before cs after others item items hbefore hitem hafter hitems =>
    simp only [List.length_append, List.length_cons] at hfuel
    obtain ⟨fuel, rfl⟩ : ∃ less, fuel = less + 1 := Nat.exists_eq_succ_of_ne_zero (by omega)
    have hlengths : cs.length ≤ fuel ∧ others.length ≤ fuel := by omega
    have hread := hitem.reads hlengths.1 (after ++ ',' :: (others ++ rest))
    have hothers := hitems.reads hlengths.2 rest
    rw [← hitem.readValue?_space hbefore] at hread
    simp only [List.append_assoc, List.cons_append]
    exact readItems?_next hread (skipSpace_mark hafter rfl _) hothers

theorem WrittenFields.reads {fields : List (Option (List Char) × Json)} {cs : List Char}
    (h : WrittenFields fields cs) {fuel : Nat} (hfuel : cs.length ≤ fuel) (rest : List Char) :
    readFields? fuel (cs ++ rest) = some (fields, rest) := by
  cases h with
  | @last before between cs after value hbefore name hbetween hvalue hafter =>
    simp only [List.length_append, List.length_cons] at hfuel
    obtain ⟨fuel, rfl⟩ : ∃ less, fuel = less + 1 := Nat.exists_eq_succ_of_ne_zero (by omega)
    have hlength : cs.length ≤ fuel := by omega
    have hread := hvalue.reads hlength (after ++ '}' :: rest)
    rw [← hvalue.readValue?_space hbetween] at hread
    simp only [List.append_assoc, List.cons_append]
    exact readFields?_last hbefore name hread (skipSpace_mark hafter rfl rest)
  | @next before between cs after others value fields hbefore name hbetween hvalue hafter
      hfields =>
    simp only [List.length_append, List.length_cons] at hfuel
    obtain ⟨fuel, rfl⟩ : ∃ less, fuel = less + 1 := Nat.exists_eq_succ_of_ne_zero (by omega)
    have hlengths : cs.length ≤ fuel ∧ others.length ≤ fuel := by omega
    have hread := hvalue.reads hlengths.1 (after ++ ',' :: (others ++ rest))
    have hothers := hfields.reads hlengths.2 rest
    rw [← hvalue.readValue?_space hbetween] at hread
    simp only [List.append_assoc, List.cons_append]
    exact readFields?_next hbefore name hread (skipSpace_mark hafter rfl _) hothers

end

theorem Written.read? {j : Json} {cs : List Char} (h : Written j cs) {text : String}
    {before after : List Char} (hbefore : IsSpace before) (hafter : IsSpace after)
    (htext : text.toList = before ++ (cs ++ after)) : Json.read? text = some j := by
  have hlength : cs.length ≤ text.toList.length + 1 := by
    simp only [htext, List.length_append]
    omega
  have hread := h.reads hlength after
  have hend : skipSpace after = [] := List.dropWhile_eq_nil_iff.2 hafter
  rw [← h.readValue?_space hbefore, ← htext] at hread
  unfold Json.read? readChars?
  rw [hread, Option.bind_eq_bind, Option.bind_some]
  dsimp only
  rw [hend]
  rfl

end LuaGlue.Json

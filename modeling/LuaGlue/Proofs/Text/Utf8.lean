import LuaGlue.Text.Utf8
import Mathlib.Tactic.SplitIfs

/-!
# Bytes of one-byte characters

A byte below 0x80 is a character by itself, wherever it stands. It never is a part of a longer
character, so a text is well formed if what stands before and behind such a byte is, and the parts
of ill-formed bytes end before it.
-/

namespace LuaGlue.Text

def IsAscii (b : UInt8) : Prop := b < 0x80

instance (b : UInt8) : Decidable (IsAscii b) := inferInstanceAs (Decidable (b < 0x80))

def asciiChar (b : UInt8) : Char := Char.ofNat b.toNat

/-! ## Well-formed bytes -/

def utf8Bytes (cs : List Char) : List UInt8 := cs.flatMap String.utf8EncodeChar

theorem utf8Bytes_append (cs cs' : List Char) :
    utf8Bytes (cs ++ cs') = utf8Bytes cs ++ utf8Bytes cs' := List.flatMap_append

theorem utf8Bytes_cons (c : Char) (cs : List Char) :
    utf8Bytes (c :: cs) = String.utf8EncodeChar c ++ utf8Bytes cs := List.flatMap_cons

theorem toUTF8_toList (text : String) : text.toUTF8.data.toList = utf8Bytes text.toList := by
  rw [String.toUTF8_eq_toByteArray, ← String.utf8Encode_toList, List.utf8Encode,
    List.data_toByteArray]
  rfl

theorem ofUtf8?_eq_some_iff {bytes : ByteArray} {text : String} :
    ofUtf8? bytes = some text ↔ utf8Bytes text.toList = bytes.data.toList := by
  constructor
  · intro h
    have htext : text.toUTF8 = bytes := by
      unfold ofUtf8? String.fromUTF8? at h
      split_ifs at h with hvalid
      cases h
      rfl
    rw [← htext, toUTF8_toList]
  · intro h
    have htext : bytes = text.toUTF8 := by
      apply ByteArray.ext
      rw [← Array.toList_inj, toUTF8_toList, h]
    rw [htext, ofUtf8?_toUTF8]

theorem ofUtf8?_eq_decode (bytes : ByteArray) :
    ofUtf8? bytes = if (decode bytes).replaced then none else some (decode bytes).text := by
  unfold decode
  cases ofUtf8? bytes <;> rfl

theorem utf8EncodeChar_asciiChar {b : UInt8} (h : IsAscii b) :
    String.utf8EncodeChar (asciiChar b) = [b] := by
  have hb : b.toNat < 128 := UInt8.lt_iff_toNat_lt.1 h
  have hchar : (asciiChar b).val.toNat = b.toNat := by
    have hvalid : b.toNat.isValidChar := Or.inl (by omega)
    unfold asciiChar Char.ofNat
    rw [dif_pos hvalid]
    rfl
  unfold String.utf8EncodeChar
  simp only [hchar]
  rw [if_pos (by omega), UInt8.ofNat_toNat]

theorem eq_asciiChar_of_mem {b : UInt8} (h : IsAscii b) {c : Char}
    (hmem : b ∈ String.utf8EncodeChar c) : c = asciiChar b := by
  have hb : b.toNat < 128 := UInt8.lt_iff_toNat_lt.1 h
  unfold String.utf8EncodeChar at hmem
  simp only at hmem
  split_ifs at hmem with hone htwo hthree
  · obtain rfl := List.mem_singleton.1 hmem
    have hcode : (UInt8.ofNat c.val.toNat).toNat = c.toNat := by
      rw [UInt8.toNat_ofNat', Nat.mod_eq_of_lt (by omega)]
      rfl
    rw [asciiChar, hcode, Char.ofNat_toNat]
  all_goals
    simp only [List.mem_cons, List.not_mem_nil, or_false, ← UInt8.toNat_inj,
      UInt8.toNat_ofNat'] at hmem
    omega

/-- Such a byte in the bytes of a text is a character of it, and cuts the text in two. -/
theorem utf8Bytes_eq_append_cons_iff {b : UInt8} (h : IsAscii b) {cs : List Char}
    (front rest : List UInt8) :
    utf8Bytes cs = front ++ b :: rest ↔
      ∃ before after, cs = before ++ asciiChar b :: after ∧ utf8Bytes before = front ∧
        utf8Bytes after = rest := by
  constructor
  · intro hbytes
    induction cs generalizing front with
    | nil =>
      have hlength := congrArg List.length hbytes
      simp [utf8Bytes] at hlength
    | cons c cs ih =>
      rw [utf8Bytes_cons] at hbytes
      rcases List.append_eq_append_iff.1 hbytes with ⟨more, hfront, hmore⟩ | ⟨more, hc, hmore⟩
      · obtain ⟨before, after, rfl, rfl, rfl⟩ := ih more hmore
        exact ⟨c :: before, after, rfl, by rw [hfront, utf8Bytes_cons], rfl⟩
      · cases more with
        | nil =>
          -- the byte stands behind the first character
          obtain ⟨before, after, rfl, hbefore, rfl⟩ := ih [] hmore.symm
          refine ⟨c :: before, after, rfl, ?_, rfl⟩
          rw [utf8Bytes_cons, hbefore, hc, List.append_nil, List.append_nil]
        | cons first more =>
          obtain ⟨rfl, hrest⟩ := List.cons.inj hmore
          obtain rfl := eq_asciiChar_of_mem h (by rw [hc]; simp)
          rw [utf8EncodeChar_asciiChar h, List.singleton_eq_append_iff] at hc
          rcases hc with ⟨rfl, hmore⟩ | ⟨-, hmore⟩
          · rw [(List.cons.inj hmore).2] at hrest
            exact ⟨[], cs, rfl, rfl, hrest.symm⟩
          · cases hmore
  · rintro ⟨before, after, rfl, rfl, rfl⟩
    rw [utf8Bytes_append, utf8Bytes_cons, utf8EncodeChar_asciiChar h]
    rfl

theorem utf8Bytes_eq_nil {cs : List Char} (h : utf8Bytes cs = []) : cs = [] := by
  cases cs with
  | nil => rfl
  | cons c cs =>
    rw [utf8Bytes_cons, List.append_eq_nil_iff] at h
    exact absurd h.1 String.utf8EncodeChar_ne_nil

/-! ## Ill-formed bytes -/

namespace Utf8State

/-- The next byte of a longer character is none of those bytes. -/
def Apart : Utf8State → Prop
  | .start => True
  | .inside _ low _ _ => 0x80 ≤ low

def atEnd : Utf8State → List (Option Char)
  | .start => []
  | .inside .. => [none]

def step : Utf8State → UInt8 → List (Option Char) × Utf8State
  | .start, b => enter b
  | .inside pending low high code, b =>
    if low ≤ b ∧ b ≤ high then
      let code := 64 * code + b.toNat % 64
      if pending ≤ 1 then ([some (Char.ofNat code)], .start)
      else ([], .inside (pending - 1) 0x80 0xBF code)
    else (none :: (enter b).1, (enter b).2)

theorem apart_start : start.Apart := trivial

theorem apart_enter (b : UInt8) : (enter b).2.Apart := by
  unfold enter
  split_ifs <;> simp only [Apart] <;> decide

theorem apart_step {st : Utf8State} (b : UInt8) : (st.step b).2.Apart := by
  cases st with
  | start => exact apart_enter b
  | inside pending low high code =>
    rw [step]
    split_ifs
    · trivial
    · exact UInt8.le_refl 0x80
    · exact apart_enter b

theorem step_ascii {st : Utf8State} (hst : st.Apart) {b : UInt8} (h : IsAscii b) :
    st.step b = (st.atEnd ++ [some (asciiChar b)], .start) := by
  have henter : enter b = ([some (asciiChar b)], .start) := by
    rw [enter, if_pos (show b < 0x80 from h)]
    rfl
  cases st with
  | start => exact henter
  | inside pending low high code =>
    have hlow : ¬(low ≤ b ∧ b ≤ high) := by
      rintro ⟨hlow, -⟩
      exact UInt8.lt_irrefl _ (UInt8.lt_of_lt_of_le h (UInt8.le_trans hst hlow))
    rw [step, if_neg hlow, henter]
    rfl

end Utf8State

theorem utf8Parts_nil (st : Utf8State) : utf8Parts st [] = st.atEnd := by
  cases st <;> rw [utf8Parts] <;> rfl

theorem utf8Parts_cons (st : Utf8State) (b : UInt8) (rest : List UInt8) :
    utf8Parts st (b :: rest) = (st.step b).1 ++ utf8Parts (st.step b).2 rest := by
  cases st with
  | start =>
    rw [utf8Parts]
    rfl
  | inside pending low high code =>
    rw [utf8Parts, Utf8State.step]
    split_ifs <;> rfl

theorem utf8Parts_append_of_apart {st : Utf8State} (hst : st.Apart) {b : UInt8} (h : IsAscii b)
    (front rest : List UInt8) :
    utf8Parts st (front ++ b :: rest) =
      utf8Parts st front ++ some (asciiChar b) :: utf8Parts .start rest := by
  induction front generalizing st with
  | nil =>
    rw [List.nil_append, utf8Parts_cons, Utf8State.step_ascii hst h, utf8Parts_nil,
      List.append_assoc, List.singleton_append]
  | cons first front ih =>
    rw [List.cons_append, utf8Parts_cons, utf8Parts_cons, ih (Utf8State.apart_step first),
      List.append_assoc]

/-- What stands before such a byte and what stands behind it are read each by itself. -/
theorem utf8Parts_append_ascii {b : UInt8} (h : IsAscii b) (front rest : List UInt8) :
    utf8Parts .start (front ++ b :: rest) =
      utf8Parts .start front ++ some (asciiChar b) :: utf8Parts .start rest :=
  utf8Parts_append_of_apart Utf8State.apart_start h front rest

end LuaGlue.Text

import LuaGlue.Proofs.Text.Digits
import LuaGlue.Proofs.Text.Runs
import LuaGlue.Proofs.Text.SourceLines
import LuaGlue.Text.CString
import Mathlib.Data.List.Basic

/-!
# Reading literals

What a C compiler reads from a literal is put together from what it reads from the parts of the
literal, and an escaped text is read back as the text. A hexadecimal escape takes all the digits
behind it, so the escapes of bytes are read back because each is followed by a backslash or by the
quote that ends the literal. A line is read literal by literal. A line holds all the backslashes that
it takes to write what is read from it.
-/

namespace LuaGlue.Text.CString

/-! ## Parts of a literal -/

/-- Characters within a literal stand for elements, whatever comes behind them. -/
def Spells (written : List Char) (elements : List Element) : Prop :=
  ∀ rest, read? (written ++ rest) =
    (read? rest).map fun found => (elements ++ found.1, found.2)

def elementsOf (cs : List Char) : List Element := cs.map Element.char

theorem Spells.nil : Spells [] [] := by
  intro rest
  cases h : read? rest with
  | none => simp [h]
  | some found => simp [h]

theorem Spells.append {written written' : List Char} {elements elements' : List Element}
    (h : Spells written elements) (h' : Spells written' elements') :
    Spells (written ++ written') (elements ++ elements') := by
  intro rest
  rw [List.append_assoc, h, h', Option.map_map]
  congr 1
  funext found
  simp

theorem spells_flatMap {α : Type} {xs : List α} {write : α → List Char}
    {meaning : α → List Element} (h : ∀ x ∈ xs, Spells (write x) (meaning x)) :
    Spells (xs.flatMap write) (xs.flatMap meaning) := by
  induction xs with
  | nil => exact Spells.nil
  | cons x rest ih =>
    obtain ⟨hfirst, hrest⟩ := List.forall_mem_cons.1 h
    exact hfirst.append (ih hrest)

theorem spells_chars {write : Char → List Char} {cs : List Char}
    (h : ∀ c ∈ cs, Spells (write c) [.char c]) : Spells (cs.flatMap write) (elementsOf cs) := by
  rw [elementsOf, List.map_eq_flatMap]
  exact spells_flatMap h

theorem escaped?_cases {letter c : Char} (h : escaped? letter = some c) :
    letter = 'n' ∧ c = '\n' ∨ letter = 'r' ∧ c = '\r' ∨ letter = '\\' ∧ c = '\\' ∨
      letter = '"' ∧ c = '"' := by
  unfold escaped? at h
  split at h <;> cases h <;> simp

theorem spells_escaped {letter c : Char} (h : escaped? letter = some c) :
    Spells ['\\', letter] [.char c] := by
  intro rest
  have hletter : letter ≠ 'x' := by
    rcases escaped?_cases h with ⟨rfl, -⟩ | ⟨rfl, -⟩ | ⟨rfl, -⟩ | ⟨rfl, -⟩ <;> decide
  rw [List.cons_append, List.singleton_append, read?, h]
  · cases read? rest <;> rfl
  · exact hletter

theorem escaped?_self {c : Char} (h : c = '\\' ∨ c = '"') : escaped? c = some c := by
  rcases h with rfl | rfl <;> decide

theorem spells_plain {c : Char} (hquote : c ≠ '"') (hfeed : c ≠ '\n') (hreturn : c ≠ '\r')
    (hescape : c ≠ '\\') : Spells [c] [.char c] := by
  intro rest
  rw [List.singleton_append, read?]
  · cases read? rest <;> rfl
  · exact hquote
  · exact hfeed
  · exact hreturn
  · exact fun _ h => absurd h hescape
  · exact fun _ _ h => absurd h hescape
  · exact fun h => absurd h hescape

/-- Characters are all that a literal holds, up to the quote that ends it. -/
def Fills (written : List Char) (elements : List Element) : Prop :=
  ∀ after, read? (written ++ '"' :: after) = some (elements, after)

theorem read?_quote (after : List Char) : read? ('"' :: after) = some ([], after) := by
  rw [read?]

theorem Spells.fills {written : List Char} {elements : List Element}
    (h : Spells written elements) : Fills written elements := by
  intro after
  rw [h, read?_quote]
  simp

/-! ## Texts -/

theorem spells_escape {c : Char} (hfeed : c ≠ '\n') (hreturn : c ≠ '\r') :
    Spells (if c = '\\' ∨ c = '"' then ['\\', c] else [c]) [.char c] := by
  by_cases hescaped : c = '\\' ∨ c = '"'
  · rw [if_pos hescaped]
    exact spells_escaped (escaped?_self hescaped)
  · rw [if_neg hescaped]
    rw [not_or] at hescaped
    exact spells_plain hescaped.2 hfeed hreturn hescaped.1

theorem spells_escapeChars {cs : List Char} (h : Unbroken cs) :
    Spells (escapeChars cs) (elementsOf cs) :=
  spells_chars fun c hc => spells_escape (unbroken_iff_forall.1 h c hc).1
    (unbroken_iff_forall.1 h c hc).2

def escapeChar (c : Char) : List Char := if c = '\n' then ['\\', 'n'] else escapeChars [c]

def escapeAllChars (cs : List Char) : List Char := cs.flatMap escapeChar

theorem escapeAllChars_append (cs cs' : List Char) :
    escapeAllChars (cs ++ cs') = escapeAllChars cs ++ escapeAllChars cs' :=
  List.flatMap_append

theorem escapeChars_eq_flatMap (cs : List Char) :
    escapeChars cs = cs.flatMap fun c => escapeChars [c] := by
  simp [escapeChars]

theorem escapeChars_eq_escapeAllChars {cs : List Char} (h : '\n' ∉ cs) :
    escapeChars cs = escapeAllChars cs := by
  have hescape : ∀ c ∈ cs, escapeChars [c] = escapeChar c := by
    intro c hc
    have hfeed : c ≠ '\n' := by
      rintro rfl
      exact h hc
    rw [escapeChar, if_neg hfeed]
  rw [escapeChars_eq_flatMap, escapeAllChars, List.flatMap_def, List.flatMap_def,
    List.map_congr_left hescape]

theorem escape_toList {s : String} (h : '\n' ∉ s.toList) :
    (escape s).toList = escapeAllChars s.toList := by
  rw [escape, String.toList_ofList, escapeChars_eq_escapeAllChars h]

/-- No backslash of the first pass is taken apart by the second one. -/
theorem escapeLineFeeds_escape_toList (s : String) :
    (escapeLineFeeds (escape s)).toList = escapeAllChars s.toList := by
  have hpiece : ∀ c : Char,
      (escapeChars [c]).flatMap (fun d => if d = '\n' then ['\\', 'n'] else [d]) =
        escapeChar c := by
    intro c
    unfold escapeChar
    by_cases hfeed : c = '\n'
    · rw [hfeed]
      rfl
    · by_cases hescaped : c = '\\' ∨ c = '"' <;> simp [escapeChars, hfeed, hescaped]
  rw [escapeLineFeeds, String.toList_ofList, escape, String.toList_ofList, escapeChars_eq_flatMap,
    List.flatMap_assoc, escapeAllChars]
  exact congrArg (fun write => s.toList.flatMap write) (funext hpiece)

theorem spells_escapeAllChars {cs : List Char} (h : '\r' ∉ cs) :
    Spells (escapeAllChars cs) (elementsOf cs) := by
  apply spells_chars
  intro c hc
  unfold escapeChar
  by_cases hfeed : c = '\n'
  · rw [if_pos hfeed, hfeed]
    exact spells_escaped (by decide)
  · rw [if_neg hfeed]
    have hreturn : c ≠ '\r' := fun hreturn => h (hreturn ▸ hc)
    exact spells_escapeChars ⟨by simpa using Ne.symm hfeed, by simpa using Ne.symm hreturn⟩

/-! ## Escapes told apart -/

theorem escapeChar_cases (c : Char) :
    (escapeChar c = [c] ∧ c ≠ '\\' ∧ c ≠ '"') ∨
      ∃ letter, escapeChar c = ['\\', letter] ∧ c = if letter = 'n' then '\n' else letter := by
  unfold escapeChar escapeChars
  by_cases hfeed : c = '\n'
  · exact .inr ⟨'n', by rw [if_pos hfeed], hfeed⟩
  · by_cases hescaped : c = '\\' ∨ c = '"'
    · have hletter : c ≠ 'n' := by rcases hescaped with rfl | rfl <;> decide
      exact .inr ⟨c, by simp [hfeed, hescaped], (if_neg hletter).symm⟩
    · rw [not_or] at hescaped
      exact .inl ⟨by simp [hfeed, hescaped], hescaped⟩

/-- Escapes of characters are told apart from what follows them. -/
theorem escapeChar_append_inj {c c' : Char} {rest rest' : List Char}
    (h : escapeChar c ++ rest = escapeChar c' ++ rest') : c = c' ∧ rest = rest' := by
  obtain ⟨hc, hplain, -⟩ | ⟨letter, hc, hletter⟩ := escapeChar_cases c <;>
    obtain ⟨hc', hplain', -⟩ | ⟨letter', hc', hletter'⟩ := escapeChar_cases c' <;>
    rw [hc, hc'] at h <;>
    simp only [List.cons_append, List.nil_append, List.cons.injEq] at h
  · exact h
  · exact absurd h.1 hplain
  · exact absurd h.1.symm hplain'
  · exact ⟨by rw [hletter, hletter', h.2.1], h.2.2⟩

theorem escapeChar_append_ne_quote (c : Char) (rest after : List Char) :
    escapeChar c ++ rest ≠ '"' :: after := by
  intro h
  obtain ⟨hc, -, hquote⟩ | ⟨letter, hc, -⟩ := escapeChar_cases c <;> rw [hc] at h
  · exact hquote (List.cons.inj h).1
  · exact absurd (List.cons.inj h).1 (by decide)

theorem not_mem_escapeAllChars (cs : List Char) : '\n' ∉ escapeAllChars cs := by
  rw [escapeAllChars, List.mem_flatMap]
  rintro ⟨c, -, hfeed⟩
  by_cases hc : c = '\n'
  · rw [escapeChar, if_pos hc] at hfeed
    exact absurd hfeed (by decide)
  · by_cases hescaped : c = '\\' ∨ c = '"' <;>
      simp [escapeChar, escapeChars, hc, Ne.symm hc, hescaped] at hfeed

/-- An escaped text ends at the quote behind it, whatever the text holds. -/
theorem escapeAllChars_append_quote_inj {cs cs' after after' : List Char}
    (h : escapeAllChars cs ++ '"' :: after = escapeAllChars cs' ++ '"' :: after') :
    cs = cs' ∧ after = after' := by
  induction cs generalizing cs' with
  | nil =>
    cases cs' with
    | nil => exact ⟨rfl, (List.cons.inj h).2⟩
    | cons c' rest' =>
      rw [escapeAllChars, escapeAllChars, List.flatMap_cons, List.append_assoc] at h
      exact absurd h.symm (escapeChar_append_ne_quote c' _ _)
  | cons c rest ih =>
    cases cs' with
    | nil =>
      rw [escapeAllChars, escapeAllChars, List.flatMap_cons, List.append_assoc] at h
      exact absurd h (escapeChar_append_ne_quote c _ _)
    | cons c' rest' =>
      rw [escapeAllChars, escapeAllChars, List.flatMap_cons, List.flatMap_cons, List.append_assoc,
        List.append_assoc] at h
      obtain ⟨rfl, hrest⟩ := escapeChar_append_inj h
      obtain ⟨rfl, hafter⟩ := ih hrest
      exact ⟨rfl, hafter⟩

/-! ## Bytes -/

inductive IsByteEscape : List Char → Prop
  | digits (high low : Char) (hhigh : isHexDigit high = true) (hlow : isHexDigit low = true) :
      IsByteEscape ['\\', 'x', high, low]

def byteEscape (b : UInt8) : List Char := ['\\', 'x'] ++ hexDigits 2 b.toNat

theorem escapeBytes_toList (bytes : ByteArray) :
    (escapeBytes bytes).toList = bytes.data.toList.flatMap byteEscape := by
  rw [escapeBytes, String.toList_ofList]
  rfl

theorem hexDigits_two (b : UInt8) :
    hexDigits 2 b.toNat = [hexDigit (b.toNat / 16), hexDigit (b.toNat % 16)] := by
  have hbyte : b.toNat < 256 := b.toNat_lt
  have hhigh : b.toNat / 16 % 16 = b.toNat / 16 := Nat.mod_eq_of_lt (by omega)
  simp [hexDigits, hhigh]

theorem isHexDigit_hexDigit {n : Nat} (h : n < 16) : isHexDigit (hexDigit n) = true := by
  rw [isHexDigit, hexValue?_hexDigit h]
  rfl

theorem isByteEscape_byteEscape (b : UInt8) : IsByteEscape (byteEscape b) := by
  have hbyte : b.toNat < 256 := b.toNat_lt
  rw [byteEscape, hexDigits_two]
  exact .digits _ _ (isHexDigit_hexDigit (by omega)) (isHexDigit_hexDigit (by omega))

/-- The escape of a byte takes its own two digits only, if no digit follows. -/
theorem read?_byteEscape (b : UInt8) {rest : List Char}
    (hstop : ∀ c ∈ rest.head?, isHexDigit c = false) :
    read? (byteEscape b ++ rest) =
      (read? rest).map fun found => (.code b.toNat :: found.1, found.2) := by
  have hdigits : ∀ c ∈ hexDigits 2 b.toNat, isHexDigit c = true := by
    have hbyte : b.toNat < 256 := b.toNat_lt
    rw [hexDigits_two]
    simp only [List.mem_cons, List.not_mem_nil, or_false, forall_eq_or_imp, forall_eq]
    exact ⟨isHexDigit_hexDigit (by omega), isHexDigit_hexDigit (by omega)⟩
  have hnonempty : (hexDigits 2 b.toNat).isEmpty = false := by
    rw [hexDigits_two]
    rfl
  have hnumber : hexNumber? (hexDigits 2 b.toNat) = some b.toNat :=
    hexNumber?_hexDigits_of_lt b.toNat_lt
  have htaken := takeWhile_run hdigits hstop
  have hleft := dropWhile_run hdigits hstop
  rw [byteEscape, List.append_assoc, List.cons_append, List.singleton_append, read?, htaken, hleft,
    hnonempty, hnumber]
  cases read? rest <;> rfl

theorem fills_byteEscapes (bytes : List UInt8) :
    Fills (bytes.flatMap byteEscape) (bytes.map fun b => .code b.toNat) := by
  intro after
  induction bytes with
  | nil => rw [List.flatMap_nil, List.nil_append, read?_quote, List.map_nil]
  | cons b rest ih =>
    -- What follows an escape is the backslash of the next one or the quote.
    have hstop : ∀ c ∈ (rest.flatMap byteEscape ++ '"' :: after).head?, isHexDigit c = false := by
      cases rest with
      | nil =>
        rintro c ⟨⟩
        decide
      | cons next rest =>
        rintro c ⟨⟩
        decide
    rw [List.flatMap_cons, List.append_assoc, read?_byteEscape b hstop, ih]
    rfl

/-! ## Lines -/

/-- What is read begins with the inside of a literal on one line, and goes on behind its quote. -/
def Encloses (cs after : List Char) : Prop :=
  ∃ inside, Unbroken inside ∧ cs = inside ++ '"' :: after

theorem Encloses.append {cs after : List Char} (h : Encloses cs after) {lead : List Char}
    (hlead : Unbroken lead) : Encloses (lead ++ cs) after := by
  obtain ⟨inside, hinside, rfl⟩ := h
  exact ⟨lead ++ inside, hlead.append hinside, (List.append_assoc _ _ _).symm⟩

/-- What was read with a first element was read behind it. -/
theorem read?_of_cons {first : Element} {elements : List Element} {rest after : List Char}
    (h : (do
      let (others, after) ← read? rest
      return (first :: others, after)) = some (elements, after)) :
    ∃ others, read? rest = some (others, after) ∧ elements = first :: others := by
  obtain ⟨⟨others, remaining⟩, hread, hsame⟩ := Option.bind_eq_some_iff.1 h
  cases hsame
  exact ⟨others, hread, rfl⟩

theorem unbroken_of_escaped? {letter c : Char} (h : escaped? letter = some c) :
    Unbroken ['\\', letter] := by
  rcases escaped?_cases h with ⟨rfl, -⟩ | ⟨rfl, -⟩ | ⟨rfl, -⟩ | ⟨rfl, -⟩ <;> decide

theorem encloses_of_read? {cs after : List Char} {elements : List Element}
    (h : read? cs = some (elements, after)) : Encloses cs after := by
  fun_induction read? cs generalizing elements after with
  | case1 => cases h
  | case2 rest =>
    cases h
    exact ⟨[], .nil, rfl⟩
  | case3 => cases h
  | case4 => cases h
  | case5 => cases h
  | case6 rest =>
    rename_i ih
    obtain ⟨value, -, hread⟩ := Option.bind_eq_some_iff.1 h
    obtain ⟨others, hothers, -⟩ := read?_of_cons hread
    have hdigits : Unbroken ('\\' :: 'x' :: rest.takeWhile isHexDigit) := by
      rw [unbroken_iff_forall, List.forall_mem_cons, List.forall_mem_cons]
      refine ⟨by decide, by decide, fun c hc => ?_⟩
      have hdigit : isHexDigit c = true := List.mem_takeWhile_imp hc
      constructor <;> rintro rfl <;> exact absurd hdigit (by decide)
    have hwhole := (ih hothers).append hdigits
    rwa [List.cons_append, List.cons_append, List.takeWhile_append_dropWhile] at hwhole
  | case7 letter rest =>
    rename_i ih
    obtain ⟨c, hc, hread⟩ := Option.bind_eq_some_iff.1 h
    obtain ⟨others, hothers, -⟩ := read?_of_cons hread
    exact (ih hothers).append (unbroken_of_escaped? hc)
  | case8 => cases h
  | case9 c rest =>
    rename_i hfeed hreturn _ _ _ ih
    obtain ⟨others, hothers, -⟩ := read?_of_cons h
    have hfirst : Unbroken [c] := unbroken_iff_forall.2 (by simpa using ⟨hfeed, hreturn⟩)
    exact (ih hothers).append hfirst

theorem length_of_read? {cs after : List Char} {elements : List Element}
    (h : read? cs = some (elements, after)) : after.length < cs.length := by
  obtain ⟨inside, -, rfl⟩ := encloses_of_read? h
  rw [List.length_append, List.length_cons]
  omega

theorem Fills.unbroken {written : List Char} {elements : List Element}
    (h : Fills written elements) : Unbroken written := by
  obtain ⟨inside, hinside, hsame⟩ := encloses_of_read? (h [])
  rwa [List.append_cancel_right hsame]

/-- What the literals of a line stand for, in order; `none` if one of them is not read. -/
def literals? (line : List Char) : Option (List (List Element)) :=
  match line with
  | [] => some []
  | '"' :: inside =>
    match _h : read? inside with
    | none => none
    | some (elements, after) => (literals? after).map (elements :: ·)
  | _ :: rest => literals? rest
termination_by line.length
decreasing_by
  · have hshorter := length_of_read? _h
    simp only [List.length_cons]
    omega
  · simp only [List.length_cons]
    omega

def Carries (part : List Char) (found : List (List Element)) : Prop :=
  ∀ rest, literals? (part ++ rest) = (literals? rest).map (found ++ ·)

theorem carries_plain {part : List Char} (h : '"' ∉ part) : Carries part [] := by
  intro rest
  induction part with
  | nil => cases hrest : literals? rest <;> simp [hrest]
  | cons c others ih =>
    rw [List.mem_cons, not_or] at h
    rw [List.cons_append, literals?]
    · exact ih h.2
    · exact fun hquote => h.1 hquote.symm

theorem Fills.carries {written : List Char} {elements : List Element}
    (h : Fills written elements) : Carries ('"' :: (written ++ ['"'])) [elements] := by
  intro rest
  have hread : read? (written ++ ['"'] ++ rest) = some (elements, rest) := by
    rw [List.append_assoc]
    exact h rest
  rw [List.cons_append, literals?]
  split
  · next hnone =>
    rw [hread] at hnone
    cases hnone
  · next found after hsome =>
    rw [hread] at hsome
    cases hsome
    rfl

theorem Carries.append {part part' : List Char} {found found' : List (List Element)}
    (h : Carries part found) (h' : Carries part' found') :
    Carries (part ++ part') (found ++ found') := by
  intro rest
  rw [List.append_assoc, h, h', Option.map_map]
  congr 1
  funext others
  simp

structure Segment (part : List Char) (found : List (List Element)) : Prop where
  unbroken : Unbroken part
  carries : Carries part found

/-- A character that opens no literal, ends no line and escapes nothing. -/
def isPlain (c : Char) : Bool := c != '"' && c != '\n' && c != '\r' && c != '\\'

theorem isPlain_of_isAlphanum {c : Char} (h : c.isAlphanum = true) : isPlain c = true := by
  simp only [isPlain, Bool.and_eq_true, bne_iff_ne]
  refine ⟨⟨⟨?_, ?_⟩, ?_⟩, ?_⟩ <;> rintro rfl <;> exact absurd h (by decide)

def IsPlain (part : List Char) : Prop := ∀ c ∈ part, isPlain c = true

theorem isPlain_of_all {part : List Char} (h : part.all isPlain = true) : IsPlain part :=
  List.all_eq_true.1 h

theorem IsPlain.append {part part' : List Char} (h : IsPlain part) (h' : IsPlain part') :
    IsPlain (part ++ part') :=
  List.forall_mem_append.2 ⟨h, h'⟩

theorem IsPlain.not_mem {part : List Char} (h : IsPlain part) {c : Char}
    (hc : isPlain c = false) : c ∉ part := by
  intro hmem
  rw [h c hmem] at hc
  cases hc

theorem IsPlain.isSourceLine {part : List Char} (h : IsPlain part) : IsSourceLine part where
  one := h.not_mem (by decide)
  unreturned := h.not_mem (by decide)
  whole := by
    rw [isContinued, beq_eq_false_iff_ne]
    intro hlast
    have hmem := (dropEndWhile_sublist isGap part).subset (List.mem_of_getLast? hlast)
    exact h.not_mem (by decide) hmem

theorem IsPlain.segment {part : List Char} (h : IsPlain part) : Segment part [] :=
  ⟨h.isSourceLine.toUnbroken, carries_plain (h.not_mem (by decide))⟩

theorem Segment.append {part part' : List Char} {found found' : List (List Element)}
    (h : Segment part found) (h' : Segment part' found') :
    Segment (part ++ part') (found ++ found') :=
  ⟨h.unbroken.append h'.unbroken, h.carries.append h'.carries⟩

theorem Segment.literals?_eq {line : List Char} {found : List (List Element)}
    (h : Segment line found) : literals? line = some found := by
  have hline := h.carries []
  rw [List.append_nil, literals?] at hline
  simpa using hline

theorem Fills.segment {written : List Char} {elements : List Element}
    (h : Fills written elements) : Segment ('"' :: (written ++ ['"'])) [elements] := by
  have hquote : Unbroken ['"'] := by decide
  exact ⟨hquote.append (h.unbroken.append hquote), h.carries⟩

def Holds (line : List Char) (texts : List String) : Prop :=
  literals? line = some (texts.map fun text => elementsOf text.toList)

theorem elementsOf_injective : Function.Injective fun text : String => elementsOf text.toList := by
  intro text text' h
  have hchars : text.toList = text'.toList :=
    List.map_injective_iff.2 (fun _ _ hsame => Element.char.inj hsame) h
  exact String.toList_inj.1 hchars

theorem Holds.unique {line : List Char} {texts texts' : List String} (h : Holds line texts)
    (h' : Holds line texts') : texts = texts' := by
  unfold Holds at h h'
  rw [h] at h'
  exact List.map_injective_iff.2 elementsOf_injective (Option.some.inj h')

/-! ## Backslashes -/

/-- The backslashes that it takes to write an element. -/
def Element.backslashes : Element → Nat
  | .char '\\' => 2
  | .char '"' => 1
  | .char '\n' => 1
  | .char '\r' => 1
  | .char _ => 0
  | .code _ => 1

def backslashesOf : List Element → Nat
  | [] => 0
  | first :: others => first.backslashes + backslashesOf others

theorem backslashes_le_of_escaped? {letter c : Char} (h : escaped? letter = some c) :
    (Element.char c).backslashes ≤ ['\\', letter].count '\\' := by
  rcases escaped?_cases h with ⟨rfl, rfl⟩ | ⟨rfl, rfl⟩ | ⟨rfl, rfl⟩ | ⟨rfl, rfl⟩ <;> decide

theorem backslashes_plain {c : Char} (hquote : c ≠ '"') (hfeed : c ≠ '\n') (hreturn : c ≠ '\r')
    (hescape : c ≠ '\\') : (Element.char c).backslashes = 0 := by
  unfold Element.backslashes
  split <;> simp_all

theorem backslashesOf_cons (first : Element) (others : List Element) :
    backslashesOf (first :: others) = first.backslashes + backslashesOf others := rfl

theorem backslashesOf_append (elements others : List Element) :
    backslashesOf (elements ++ others) = backslashesOf elements + backslashesOf others := by
  induction elements with
  | nil => exact (Nat.zero_add _).symm
  | cons first rest ih =>
    rw [List.cons_append, backslashesOf_cons, backslashesOf_cons, ih, Nat.add_assoc]

/-- No element is read from fewer backslashes than it takes to write it. -/
theorem backslashesOf_le_of_read? {cs after : List Char} {elements : List Element}
    (h : read? cs = some (elements, after)) :
    backslashesOf elements + after.count '\\' ≤ cs.count '\\' := by
  fun_induction read? cs generalizing elements after with
  | case1 => cases h
  | case2 rest =>
    cases h
    exact (List.sublist_cons_self _ _).count_le _ |>.trans' (Nat.zero_add _).le
  | case3 => cases h
  | case4 => cases h
  | case5 => cases h
  | case6 rest =>
    rename_i ih
    obtain ⟨value, -, hread⟩ := Option.bind_eq_some_iff.1 h
    obtain ⟨others, hothers, rfl⟩ := read?_of_cons hread
    have hrest := (List.dropWhile_sublist isHexDigit (l := rest)).count_le '\\'
    have hbehind := ih hothers
    have hcode : (Element.code value).backslashes = 1 := rfl
    rw [backslashesOf_cons, hcode, List.count_cons_self, List.count_cons_of_ne (by decide)]
    omega
  | case7 letter rest =>
    rename_i ih
    obtain ⟨c, hc, hread⟩ := Option.bind_eq_some_iff.1 h
    obtain ⟨others, hothers, rfl⟩ := read?_of_cons hread
    have hfirst := backslashes_le_of_escaped? hc
    have hbehind := ih hothers
    have hwhole : ('\\' :: letter :: rest).count '\\' =
        ['\\', letter].count '\\' + rest.count '\\' := by
      rw [← List.count_append, List.cons_append, List.singleton_append]
    rw [backslashesOf_cons, hwhole]
    omega
  | case8 => cases h
  | case9 c rest =>
    rename_i hquote hfeed hreturn _ hpair hlone ih
    obtain ⟨others, hothers, rfl⟩ := read?_of_cons h
    have hescape : c ≠ '\\' := by
      cases rest with
      | nil => exact fun hc => hlone hc rfl
      | cons next rest => exact fun hc => hpair next rest hc rfl
    rw [backslashesOf_cons, backslashes_plain hquote hfeed hreturn hescape,
      List.count_cons_of_ne hescape, Nat.zero_add]
    exact ih hothers

theorem backslashesOf_le_of_literals? {line : List Char} {found : List (List Element)}
    (h : literals? line = some found) :
    backslashesOf found.flatten ≤ line.count '\\' := by
  fun_induction literals? line generalizing found with
  | case1 =>
    cases h
    exact Nat.zero_le _
  | case2 => cases h
  | case3 inside elements after hread ih =>
    obtain ⟨others, hothers, rfl⟩ := Option.map_eq_some_iff.1 h
    have hfirst := backslashesOf_le_of_read? hread
    have hbehind := ih hothers
    rw [List.flatten_cons, backslashesOf_append, List.count_cons_of_ne (by decide)]
    omega
  | case4 first rest _ ih =>
    have hcount := (List.sublist_cons_self first rest).count_le '\\'
    exact (ih h).trans hcount

theorem count_escapeChar (c : Char) :
    (escapeChar c).count '\\' + [c].count '\r' = (Element.char c).backslashes := by
  by_cases hspecial : c ∈ ['\\', '"', '\n', '\r']
  · simp only [List.mem_cons, List.not_mem_nil, or_false] at hspecial
    rcases hspecial with rfl | rfl | rfl | rfl <;> decide
  · simp only [List.mem_cons, List.not_mem_nil, or_false, not_or] at hspecial
    obtain ⟨hescape, hquote, hfeed, hreturn⟩ := hspecial
    rw [backslashes_plain hquote hfeed hreturn hescape]
    simp [escapeChar, escapeChars, hescape, hquote, hfeed, hreturn]

theorem Holds.backslashes_le {line : List Char} {texts : List String} (h : Holds line texts) :
    backslashesOf (elementsOf (texts.flatMap String.toList)) ≤ line.count '\\' := by
  have hread := backslashesOf_le_of_literals? h
  rwa [← List.flatMap_def, elementsOf, List.map_flatMap] at *

/-- Escaping writes a backslash for each that an element takes, but none for carriage returns. -/
theorem count_escapeAllChars (cs : List Char) :
    (escapeAllChars cs).count '\\' + cs.count '\r' = backslashesOf (elementsOf cs) := by
  induction cs with
  | nil => rfl
  | cons c rest ih =>
    have hfirst := count_escapeChar c
    rw [← List.singleton_append, List.count_append, escapeAllChars, List.flatMap_append,
      List.flatMap_singleton, List.count_append, elementsOf, List.map_append, List.map_singleton,
      List.singleton_append, backslashesOf_cons]
    rw [escapeAllChars, elementsOf] at ih
    omega

end LuaGlue.Text.CString

import LuaGlue.Proofs.Text.CString
import Mathlib.Data.List.Forall2

/-!
# Tables of literals

A table in a header has one line for each row and ends with a row without texts. Read line by line
and literal by literal, it gives back the texts of its rows, if and only if none of them holds a
carriage return. The backslashes tell that no reading mends the others: a carriage return takes one
to be read, and none is written for it.
-/

namespace LuaGlue.Text.CString

/-- Lines are a table of texts: one line for each row, in order, whose literals stand for the texts
of the row, then the one row that ends the table, and the lines behind it. -/
def TableOf (final : String) (back : List String) (rows : List (List String))
    (ls : List (List Char)) : Prop :=
  ∃ front : List (List Char), ls = front ++ (final :: back).map String.toList ∧
    List.Forall₂ (fun line texts => line ≠ final.toList ∧ Holds line texts) front rows

theorem TableOf.backslashes_le {final : String} {back : List String} {rows : List (List String)}
    {ls : List (List Char)} (h : TableOf final back rows ls) :
    backslashesOf (elementsOf (rows.flatten.flatMap String.toList)) ≤ ls.flatten.count '\\' := by
  obtain ⟨front, rfl, hrows⟩ := h
  rw [List.flatten_append, List.count_append]
  apply Nat.le_add_right_of_le
  induction hrows with
  | nil => exact Nat.zero_le _
  | cons hrow _ ih =>
    have hline := hrow.2.backslashes_le
    rw [List.flatten_cons, List.flatMap_append, elementsOf, List.map_append, backslashesOf_append,
      List.flatten_cons, List.count_append]
    exact Nat.add_le_add hline ih

/-! ## Rows -/

/-- Each text escaped between quotes, behind its lead, and then the closing text. -/
def rowChars (closing : String) : List String → List String → List Char
  | lead :: leads, text :: texts =>
    lead.toList ++ '"' :: (escapeAllChars text.toList ++ '"' :: rowChars closing leads texts)
  | _, _ => closing.toList

section Rows

variable {closing : String} {leads texts : List String}

theorem segment_rowChars (hclosing : IsPlain closing.toList)
    (hleads : ∀ lead ∈ leads, IsPlain lead.toList) (hlength : leads.length = texts.length)
    (hreturns : ∀ text ∈ texts, '\r' ∉ text.toList) :
    Segment (rowChars closing leads texts) (texts.map fun text => elementsOf text.toList) := by
  induction leads generalizing texts with
  | nil =>
    rw [List.length_eq_zero_iff.1 hlength.symm]
    exact hclosing.segment
  | cons lead leads ih =>
    cases texts with
    | nil => cases hlength
    | cons text texts =>
      obtain ⟨hlead, hleads⟩ := List.forall_mem_cons.1 hleads
      obtain ⟨hreturn, hreturns⟩ := List.forall_mem_cons.1 hreturns
      have hliteral := (spells_escapeAllChars hreturn).fills.segment
      have hrow := (hlead.segment.append hliteral).append
        (ih hleads (Nat.succ.inj hlength) hreturns)
      simpa [rowChars] using hrow

theorem isContinued_rowChars (hclosing : IsPlain closing.toList) (leads texts : List String) :
    isContinued (rowChars closing leads texts) = false := by
  fun_induction rowChars closing leads texts with
  | case1 lead leads text texts ih =>
    have hchars : lead.toList ++ '"' :: (escapeAllChars text.toList ++
        '"' :: rowChars closing leads texts) =
          (lead.toList ++ '"' :: escapeAllChars text.toList) ++
            '"' :: rowChars closing leads texts := by
      simp
    have hquote : ('"' :: rowChars closing leads texts).any (fun c => !isGap c) = true := by
      rw [List.any_cons]
      rfl
    rw [hchars, isContinued_append_right hquote, ← List.singleton_append,
      isContinued_append (by decide), ih]
  | case2 => exact hclosing.isSourceLine.whole

theorem not_mem_rowChars (hclosing : IsPlain closing.toList)
    (hleads : ∀ lead ∈ leads, IsPlain lead.toList) (texts : List String) :
    '\n' ∉ rowChars closing leads texts := by
  fun_induction rowChars closing leads texts with
  | case1 lead leads text texts ih =>
    obtain ⟨hlead, hleads⟩ := List.forall_mem_cons.1 hleads
    simp only [List.mem_append, List.mem_cons, not_or]
    exact ⟨hlead.not_mem (by decide), by decide, not_mem_escapeAllChars _, by decide, ih hleads⟩
  | case2 => exact hclosing.not_mem (by decide)

/-- All backslashes of a row stand in its texts. -/
theorem count_rowChars (hclosing : IsPlain closing.toList)
    (hleads : ∀ lead ∈ leads, IsPlain lead.toList) (hlength : leads.length = texts.length) :
    (rowChars closing leads texts).count '\\' =
      (escapeAllChars (texts.flatMap String.toList)).count '\\' := by
  have hplain : ∀ text : String, IsPlain text.toList → text.toList.count '\\' = 0 :=
    fun _ h => List.count_eq_zero.2 (h.not_mem (by decide))
  induction leads generalizing texts with
  | nil =>
    rw [List.length_eq_zero_iff.1 hlength.symm]
    exact hplain closing hclosing
  | cons lead leads ih =>
    cases texts with
    | nil => cases hlength
    | cons text texts =>
      obtain ⟨hlead, hleads⟩ := List.forall_mem_cons.1 hleads
      have hquote : '"' ≠ '\\' := by decide
      rw [rowChars, List.flatMap_cons, escapeAllChars_append, List.count_append, List.count_append,
        List.count_cons_of_ne hquote, List.count_append, List.count_cons_of_ne hquote,
        hplain lead hlead, Nat.zero_add, ih hleads (Nat.succ.inj hlength)]

/-- The texts of a row end at their quotes, whatever characters they hold. -/
theorem rowChars_inj {texts' : List String} (hlength : leads.length = texts.length)
    (hlength' : leads.length = texts'.length)
    (h : rowChars closing leads texts = rowChars closing leads texts') : texts = texts' := by
  induction leads generalizing texts texts' with
  | nil => rw [List.length_eq_zero_iff.1 hlength.symm, List.length_eq_zero_iff.1 hlength'.symm]
  | cons lead leads ih =>
    cases texts with
    | nil => cases hlength
    | cons text texts =>
      cases texts' with
      | nil => cases hlength'
      | cons text' texts' =>
        have hbehind := (List.cons.inj (List.append_cancel_left h)).2
        obtain ⟨htext, hrest⟩ := escapeAllChars_append_quote_inj hbehind
        rw [String.toList_inj.1 htext, ih (Nat.succ.inj hlength) (Nat.succ.inj hlength') hrest]

end Rows

/-! ## Tables -/

/-- How a table is written: the plain texts in front of the literals of a row and behind them, the
row that ends the table, and the lines behind that. -/
structure TableShape where
  leads : List String
  closing : String
  final : String
  back : List String
  leads_ne_nil : leads ≠ []
  plainRow : ∀ text ∈ closing :: leads, text.toList.all isPlain = true
  plainEnd : ∀ line ∈ final :: back, line.toList.all isPlain = true

namespace TableShape

def line (s : TableShape) (texts : List String) : String :=
  String.ofList (rowChars s.closing s.leads texts)

def lines (s : TableShape) (rows : List (List String)) : List String :=
  rows.map s.line ++ s.final :: s.back

def Fits (s : TableShape) (rows : List (List String)) : Prop :=
  ∀ texts ∈ rows, s.leads.length = texts.length

variable {s : TableShape} {texts : List String} {rows rows' : List (List String)}

theorem line_toList (s : TableShape) (texts : List String) :
    (s.line texts).toList = rowChars s.closing s.leads texts := String.toList_ofList

theorem isPlain_closing (s : TableShape) : IsPlain s.closing.toList :=
  isPlain_of_all (s.plainRow _ List.mem_cons_self)

theorem isPlain_lead (s : TableShape) : ∀ lead ∈ s.leads, IsPlain lead.toList :=
  fun lead hlead => isPlain_of_all (s.plainRow lead (List.mem_cons_of_mem _ hlead))

theorem isPlain_end (s : TableShape) : ∀ line ∈ s.final :: s.back, IsPlain line.toList :=
  fun line hline => isPlain_of_all (s.plainEnd line hline)

theorem segment_line (hlength : s.leads.length = texts.length)
    (hreturns : ∀ text ∈ texts, '\r' ∉ text.toList) :
    Segment (s.line texts).toList (texts.map fun text => elementsOf text.toList) := by
  rw [line_toList]
  exact segment_rowChars s.isPlain_closing s.isPlain_lead hlength hreturns

theorem tableOf_lines (hfits : s.Fits rows)
    (hreturns : ∀ texts ∈ rows, ∀ text ∈ texts, '\r' ∉ text.toList) :
    TableOf s.final s.back rows (sourceLines (unlines (s.lines rows)).toList) := by
  have hrow : ∀ texts ∈ rows, Holds (s.line texts).toList texts := fun texts htexts =>
    (segment_line (hfits texts htexts) (hreturns texts htexts)).literals?_eq
  have hlines : ∀ line ∈ s.lines rows, IsSourceLine line.toList := by
    rw [lines, List.forall_mem_append, List.forall_mem_map]
    refine ⟨fun texts htexts => ⟨?_, ?_⟩, fun line hline => (s.isPlain_end line hline).isSourceLine⟩
    · exact (segment_line (hfits texts htexts) (hreturns texts htexts)).unbroken
    · rw [line_toList]
      exact isContinued_rowChars s.isPlain_closing _ _
  have hfinal : Holds s.final.toList [] :=
    (s.isPlain_end _ List.mem_cons_self).segment.literals?_eq
  refine ⟨(rows.map s.line).map String.toList, ?_, ?_⟩
  · rw [sourceLines_unlines hlines, lines, List.map_append]
  · rw [List.map_map, List.forall₂_map_left_iff, List.forall₂_same]
    intro texts htexts
    refine ⟨fun hsame => ?_, hrow texts htexts⟩
    have hholds := hrow texts htexts
    rw [Function.comp_apply] at hsame
    rw [hsame] at hholds
    have hlength := hfits texts htexts
    rw [hholds.unique hfinal] at hlength
    exact s.leads_ne_nil (List.length_eq_zero_iff.1 hlength)

theorem count_lines (hfits : s.Fits rows) :
    (unlines (s.lines rows)).toList.count '\\' =
      (escapeAllChars (rows.flatten.flatMap String.toList)).count '\\' := by
  have hend : '\\' ∉ (unlines (s.final :: s.back)).toList :=
    not_mem_unlines (by decide) fun line hline => (s.isPlain_end line hline).not_mem (by decide)
  rw [lines, unlines_append, String.toList_append, List.count_append, List.count_eq_zero.2 hend,
    Nat.add_zero]
  induction rows with
  | nil => rfl
  | cons texts rest ih =>
    obtain ⟨hlength, hfits⟩ := List.forall_mem_cons.1 hfits
    have hrow := count_rowChars s.isPlain_closing s.isPlain_lead hlength
    have hfeed : "\n".toList.count '\\' = 0 := rfl
    rw [List.map_cons, unlines_cons, String.toList_append, String.toList_append, line_toList,
      List.count_append, List.count_append, hrow, ih hfits, hfeed, Nat.add_zero, List.flatten_cons,
      List.flatMap_append, escapeAllChars_append, List.count_append]

/-- A table is read back if and only if none of its texts holds a carriage return. -/
theorem tableOf_iff (hfits : s.Fits rows) :
    TableOf s.final s.back rows (sourceLines (unlines (s.lines rows)).toList) ↔
      ∀ texts ∈ rows, ∀ text ∈ texts, '\r' ∉ text.toList := by
  refine ⟨fun htable => ?_, tableOf_lines hfits⟩
  have hread := htable.backslashes_le
  have hlines := count_sourceLines_le (by decide : '\\' ≠ '\n') (unlines (s.lines rows)).toList
  have hwritten := count_escapeAllChars (rows.flatten.flatMap String.toList)
  rw [count_lines hfits] at hlines
  have hnone : (rows.flatten.flatMap String.toList).count '\r' = 0 := by omega
  intro texts htexts text htext hreturn
  apply List.count_eq_zero.1 hnone
  rw [List.mem_flatMap]
  exact ⟨text, List.mem_flatten.2 ⟨texts, htexts, htext⟩, hreturn⟩

theorem map_line_inj (hfits : s.Fits rows) (hfits' : s.Fits rows')
    (h : rows.map s.line = rows'.map s.line) : rows = rows' := by
  induction rows generalizing rows' with
  | nil => exact (List.map_eq_nil_iff.1 h.symm).symm
  | cons texts rest ih =>
    cases rows' with
    | nil => cases h
    | cons texts' rest' =>
      obtain ⟨hlength, hfits⟩ := List.forall_mem_cons.1 hfits
      obtain ⟨hlength', hfits'⟩ := List.forall_mem_cons.1 hfits'
      obtain ⟨hline, hrest⟩ := List.cons.inj h
      have hchars := congrArg String.toList hline
      rw [line_toList, line_toList] at hchars
      rw [rowChars_inj hlength hlength' hchars, ih hfits hfits' hrest]

theorem not_mem_lines (s : TableShape) (rows : List (List String)) :
    ∀ line ∈ s.lines rows, '\n' ∉ line.toList := by
  rw [lines, List.forall_mem_append, List.forall_mem_map]
  refine ⟨fun texts _ => ?_, fun line hline => (s.isPlain_end line hline).isSourceLine.one⟩
  rw [line_toList]
  exact not_mem_rowChars s.isPlain_closing s.isPlain_lead texts

end TableShape

end LuaGlue.Text.CString

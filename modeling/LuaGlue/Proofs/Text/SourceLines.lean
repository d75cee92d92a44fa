import LuaGlue.Proofs.Text.Lines
import LuaGlue.Proofs.Text.Runs

/-!
# Source lines

A C compiler ends a line at a carriage return too, whether or not a line feed follows, and joins a
line that ends in a backslash with the next one. As in GCC and Clang, blanks behind the backslash do
not matter; trigraphs are not read. A text without carriage returns and such lines is read as its
lines.
-/

namespace LuaGlue.Text

/-- The text with a line feed for every line end. -/
def unifyEnds : List Char → List Char
  | [] => []
  | '\r' :: '\n' :: rest => '\n' :: unifyEnds rest
  | '\r' :: rest => '\n' :: unifyEnds rest
  | c :: rest => c :: unifyEnds rest

def isGap (c : Char) : Bool := c == ' ' || c == '\t' || c == '\x0b' || c == '\x0c'

/-- The last character of the line is a backslash, gaps aside. -/
def isContinued (line : List Char) : Bool := (dropEndWhile isGap line).getLast? == some '\\'

def continuedFront (line : List Char) : List Char := (dropEndWhile isGap line).dropLast

def joinContinued : List (List Char) → List (List Char)
  | [] => []
  | line :: rest =>
    if isContinued line then
      match joinContinued rest with
      | [] => [continuedFront line]
      | next :: others => (continuedFront line ++ next) :: others
    else line :: joinContinued rest

/-- The lines that a C compiler reads. -/
def sourceLines (cs : List Char) : List (List Char) := joinContinued (lines (unifyEnds cs))

theorem unifyEnds_append {cs : List Char} (h : '\r' ∉ cs) (rest : List Char) :
    unifyEnds (cs ++ rest) = cs ++ unifyEnds rest := by
  induction cs with
  | nil => rfl
  | cons c others ih =>
    rw [List.mem_cons, not_or] at h
    have hreturn : c ≠ '\r' := Ne.symm h.1
    rw [List.cons_append, unifyEnds, ih h.2, List.cons_append]
    · exact fun _ hc => absurd hc hreturn
    · exact hreturn

theorem count_unifyEnds_le {c : Char} (hc : c ≠ '\n') (cs : List Char) :
    (unifyEnds cs).count c ≤ cs.count c := by
  fun_induction unifyEnds cs with
  | case1 => exact Nat.le_refl _
  | case2 rest ih =>
    have hbehind : rest.count c ≤ ('\r' :: rest).count c := List.count_le_count_cons
    rw [List.count_cons_of_ne hc.symm, List.count_cons, List.count_cons_of_ne hc.symm]
    omega
  | case3 rest _ ih =>
    rw [List.count_cons_of_ne hc.symm, List.count_cons]
    omega
  | case4 first rest _ _ ih =>
    rw [List.count_cons, List.count_cons]
    omega

/-! ## Continued lines -/

theorem isContinued_eq_find? (line : List Char) :
    isContinued line = ((line.reverse.find? fun c => !isGap c) == some '\\') := by
  rw [isContinued, dropEndWhile, List.getLast?_reverse, List.find?_not_eq_head?_dropWhile]

theorem isContinued_append {line : List Char} (h : isContinued line = false) (cs : List Char) :
    isContinued (line ++ cs) = isContinued cs := by
  rw [isContinued_eq_find?] at h ⊢
  rw [isContinued_eq_find?, List.reverse_append, List.find?_append]
  cases cs.reverse.find? fun c => !isGap c with
  | none => rw [Option.none_or, h]; rfl
  | some c => rfl

/-- Whether a line is continued is seen from its end, unless there are gaps only. -/
theorem isContinued_append_right {cs : List Char} (h : cs.any (fun c => !isGap c) = true)
    (line : List Char) : isContinued (line ++ cs) = isContinued cs := by
  rw [isContinued_eq_find?, isContinued_eq_find?, List.reverse_append, List.find?_append]
  cases hlast : cs.reverse.find? fun c => !isGap c with
  | none =>
    obtain ⟨c, hc, hsolid⟩ := List.any_eq_true.1 h
    exact absurd hsolid (List.find?_eq_none.1 hlast c (List.mem_reverse.2 hc))
  | some c => rfl

theorem exists_eq_continuedFront_append {line : List Char} (h : isContinued line = true) :
    ∃ gaps, line = continuedFront line ++ '\\' :: gaps := by
  obtain ⟨gaps, hline, -⟩ := exists_eq_dropEndWhile_append isGap line
  obtain ⟨front, hfront⟩ := List.getLast?_eq_some_iff.1 (beq_iff_eq.1 h)
  refine ⟨gaps, ?_⟩
  rw [continuedFront, hfront, List.dropLast_concat, List.append_cons, ← hfront]
  exact hline

theorem joinContinued_cons {line : List Char} (h : isContinued line = false)
    (ls : List (List Char)) : joinContinued (line :: ls) = line :: joinContinued ls := by
  rw [joinContinued, h, if_neg Bool.false_ne_true]

/-- A line is swallowed by a continued one in front of it. -/
theorem joinContinued_cons_cons {line next : List Char} (h : isContinued line = true)
    (hnext : isContinued next = false) (ls : List (List Char)) :
    joinContinued (line :: next :: ls) = (continuedFront line ++ next) :: joinContinued ls := by
  rw [joinContinued, if_pos h, joinContinued_cons hnext]

theorem joinContinued_append {front : List (List Char)}
    (h : ∀ line ∈ front, isContinued line = false) (ls : List (List Char)) :
    joinContinued (front ++ ls) = front ++ joinContinued ls := by
  induction front with
  | nil => rfl
  | cons line rest ih =>
    obtain ⟨hline, hrest⟩ := List.forall_mem_cons.1 h
    rw [List.cons_append, joinContinued_cons hline, ih hrest, List.cons_append]

theorem continuedFront_sublist (line : List Char) : (continuedFront line).Sublist line :=
  (List.dropLast_sublist _).trans (dropEndWhile_sublist isGap line)

theorem count_joinContinued_le (c : Char) (ls : List (List Char)) :
    (joinContinued ls).flatten.count c ≤ ls.flatten.count c := by
  induction ls with
  | nil => exact Nat.le_refl _
  | cons line rest ih =>
    have hfront := (continuedFront_sublist line).count_le c
    rw [List.flatten_cons, List.count_append]
    cases hline : isContinued line with
    | false =>
      rw [joinContinued_cons hline, List.flatten_cons, List.count_append]
      omega
    | true =>
      rw [joinContinued, if_pos hline]
      cases hrest : joinContinued rest with
      | nil =>
        rw [List.flatten_singleton]
        omega
      | cons next others =>
        rw [hrest, List.flatten_cons, List.count_append] at ih
        rw [List.flatten_cons, List.count_append, List.count_append]
        omega

/-- Reading lines adds no character but line feeds. -/
theorem count_sourceLines_le {c : Char} (hc : c ≠ '\n') (cs : List Char) :
    (sourceLines cs).flatten.count c ≤ cs.count c :=
  calc (sourceLines cs).flatten.count c
      ≤ (lines (unifyEnds cs)).flatten.count c := count_joinContinued_le c _
    _ ≤ (unifyEnds cs).count c := count_lines_le hc _
    _ ≤ cs.count c := count_unifyEnds_le hc cs

/-! ## Texts made of lines -/

structure Unbroken (cs : List Char) : Prop where
  one : '\n' ∉ cs
  unreturned : '\r' ∉ cs

theorem Unbroken.nil : Unbroken [] := ⟨List.not_mem_nil, List.not_mem_nil⟩

theorem Unbroken.append {cs cs' : List Char} (h : Unbroken cs) (h' : Unbroken cs') :
    Unbroken (cs ++ cs') := by
  constructor <;> rw [List.mem_append, not_or]
  · exact ⟨h.one, h'.one⟩
  · exact ⟨h.unreturned, h'.unreturned⟩

theorem unbroken_iff_forall {cs : List Char} : Unbroken cs ↔ ∀ c ∈ cs, c ≠ '\n' ∧ c ≠ '\r' :=
  ⟨fun h _ hc => ⟨fun hfeed => h.one (hfeed ▸ hc), fun hreturn => h.unreturned (hreturn ▸ hc)⟩,
    fun h => ⟨fun hfeed => (h _ hfeed).1 rfl, fun hreturn => (h _ hreturn).2 rfl⟩⟩

instance (cs : List Char) : Decidable (Unbroken cs) :=
  decidable_of_iff ('\n' ∉ cs ∧ '\r' ∉ cs) ⟨fun h => ⟨h.1, h.2⟩, fun h => ⟨h.one, h.unreturned⟩⟩

/-- A line that a C compiler reads by itself. -/
structure IsSourceLine (cs : List Char) : Prop extends Unbroken cs where
  whole : isContinued cs = false

instance (cs : List Char) : Decidable (IsSourceLine cs) :=
  decidable_of_iff (Unbroken cs ∧ isContinued cs = false)
    ⟨fun h => ⟨h.1, h.2⟩, fun h => ⟨h.toUnbroken, h.whole⟩⟩

theorem Unbroken.isLine {cs : List Char} (h : Unbroken cs) : IsLine cs :=
  isLine_of_forall (unbroken_iff_forall.1 h)

/-- Lines that may be continued are joined, but not broken. -/
theorem sourceLines_unlines_append {ls : List String} (h : ∀ line ∈ ls, Unbroken line.toList)
    (rest : List Char) :
    sourceLines ((unlines ls).toList ++ rest) =
      joinContinued (ls.map String.toList ++ lines (unifyEnds rest)) := by
  have hreturn : '\r' ∉ (unlines ls).toList :=
    not_mem_unlines (by decide) fun line hline => (h line hline).unreturned
  rw [sourceLines, unifyEnds_append hreturn,
    lines_unlines_append fun line hline => (h line hline).isLine]

theorem sourceLines_unlines_of_unbroken {ls : List String}
    (h : ∀ line ∈ ls, Unbroken line.toList) :
    sourceLines (unlines ls).toList = joinContinued (ls.map String.toList) := by
  have hlines := sourceLines_unlines_append h []
  rwa [List.append_nil, unifyEnds, lines_nil, List.append_nil] at hlines

/-- Lines that are read by themselves are read in front of any text. -/
theorem sourceLines_whole_append {ls : List String}
    (h : ∀ line ∈ ls, IsSourceLine line.toList) (rest : List Char) :
    sourceLines ((unlines ls).toList ++ rest) = ls.map String.toList ++ sourceLines rest := by
  have hwhole : ∀ line ∈ ls.map String.toList, isContinued line = false :=
    List.forall_mem_map.2 fun line hline => (h line hline).whole
  rw [sourceLines_unlines_append fun line hline => (h line hline).toUnbroken,
    joinContinued_append hwhole, sourceLines]

theorem sourceLines_unlines {ls : List String} (h : ∀ line ∈ ls, IsSourceLine line.toList) :
    sourceLines (unlines ls).toList = ls.map String.toList := by
  have hlines := sourceLines_whole_append h []
  rwa [List.append_nil, show sourceLines [] = [] from rfl, List.append_nil] at hlines

end LuaGlue.Text

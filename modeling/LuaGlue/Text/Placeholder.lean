/-!
# Placeholders

A template text cut at every occurrence of a placeholder, from left to right and without overlap,
and the text that results when the occurrences are filled.
-/

namespace LuaGlue.Text

/-- A part of a template: a character that stands for itself, or an occurrence of the placeholder.
-/
inductive Piece where
  | char (c : Char)
  | hole
  deriving DecidableEq, Repr

def occursIn (pattern : List Char) : List Char → Bool
  | [] => pattern.isEmpty
  | c :: rest => pattern.isPrefixOf (c :: rest) || occursIn pattern rest

/-- The pieces of a template whose first `skip` characters belong to the placeholder before them. -/
def piecesFrom (placeholder : List Char) : Nat → List Char → List Piece
  | _, [] => []
  | skip + 1, _ :: rest => piecesFrom placeholder skip rest
  | 0, c :: rest =>
    if placeholder.isPrefixOf (c :: rest) then
      .hole :: piecesFrom placeholder (placeholder.length - 1) rest
    else .char c :: piecesFrom placeholder 0 rest

def pieces (placeholder template : List Char) : List Piece := piecesFrom placeholder 0 template

def Piece.fill (value : List Char) : Piece → List Char
  | .char c => [c]
  | .hole => value

def fillChars (placeholder value template : List Char) : List Char :=
  (pieces placeholder template).flatMap (Piece.fill value)

def holds (template placeholder : String) : Bool := occursIn placeholder.toList template.toList

def fill (template placeholder value : String) : String :=
  String.ofList (fillChars placeholder.toList value.toList template.toList)

private theorem hole_mem_of_occursIn {placeholder : List Char} (nonempty : placeholder ≠ [])
    {template : List Char} (h : occursIn placeholder template = true) :
    .hole ∈ piecesFrom placeholder 0 template := by
  induction template with
  | nil => simp_all [occursIn]
  | cons c rest ih =>
    simp only [occursIn, Bool.or_eq_true] at h
    by_cases here : placeholder.isPrefixOf (c :: rest) = true
    · simp [piecesFrom, here]
    · simp only [piecesFrom, here]
      simpa using ih (h.resolve_left here)

private theorem occursIn_of_hole_mem {placeholder : List Char} {skip : Nat} {template : List Char}
    (h : .hole ∈ piecesFrom placeholder skip template) : occursIn placeholder template = true := by
  induction template generalizing skip with
  | nil => cases skip <;> simp [piecesFrom] at h
  | cons c rest ih =>
    cases skip with
    | succ skip => simp [occursIn, ih (by simpa [piecesFrom] using h)]
    | zero =>
      by_cases here : placeholder.isPrefixOf (c :: rest) = true
      · simp [occursIn, here]
      · have : .hole ∈ piecesFrom placeholder 0 rest := by simpa [piecesFrom, here] using h
        simp [occursIn, ih this]

theorem hole_mem_pieces_iff {placeholder template : List Char} (nonempty : placeholder ≠ []) :
    .hole ∈ pieces placeholder template ↔ occursIn placeholder template = true :=
  ⟨occursIn_of_hole_mem, hole_mem_of_occursIn nonempty⟩

end LuaGlue.Text

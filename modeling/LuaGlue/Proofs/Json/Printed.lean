import LuaGlue.Proofs.Json.Written

/-!
# Printed JSON

The compact text and the indented one are ways to write a value, so both are read back, also with
white space behind them.
-/

namespace LuaGlue.Json

/-- The strings of the value are texts, and it holds nothing else but arrays and objects. -/
inductive Textual : Json → Prop
  | string (text : List Char) : Textual (.string (some text))
  | array {items : List Json} (hitems : ∀ item ∈ items, Textual item) : Textual (.array items)
  | object {fields : List (List Char × Json)} (hvalues : ∀ field ∈ fields, Textual field.2) :
      Textual (.object (fields.map fun field => (some field.1, field.2)))

theorem isSpace_nil : IsSpace [] := nofun

theorem isSpace_newLine (depth : Nat) : IsSpace (newLine depth) := by
  intro c hc
  rcases List.mem_cons.1 hc with rfl | hc
  · rfl
  · rw [List.eq_of_mem_replicate hc]
    rfl

theorem writtenItems_compact {items : List Json} (hne : items ≠ [])
    (h : ∀ item ∈ items, Written item (compactChars item)) :
    WrittenItems items (compactItems items ++ [']']) := by
  induction items with
  | nil => exact absurd rfl hne
  | cons item rest ih =>
    have hitem := h item List.mem_cons_self
    cases rest with
    | nil => exact .last isSpace_nil hitem isSpace_nil
    | cons next rest =>
      have hrest := ih (List.cons_ne_nil _ _) fun other hother =>
        h other (List.mem_cons_of_mem item hother)
      rw [compactItems, List.append_assoc, List.cons_append]
      · exact .next isSpace_nil hitem isSpace_nil hrest
      · exact List.cons_ne_nil _ _

theorem writtenFields_compact {fields : List (List Char × Json)} (hne : fields ≠ [])
    (h : ∀ field ∈ fields, Written field.2 (compactChars field.2)) :
    WrittenFields (fields.map fun field => (some field.1, field.2))
      (compactFields (fields.map fun field => (some field.1, field.2)) ++ ['}']) := by
  induction fields with
  | nil => exact absurd rfl hne
  | cons field rest ih =>
    have hvalue := h field List.mem_cons_self
    cases rest with
    | nil =>
      rw [List.map_singleton, compactFields, List.append_assoc, List.cons_append]
      exact .last isSpace_nil field.1 isSpace_nil hvalue isSpace_nil
    | cons next rest =>
      have hrest := ih (List.cons_ne_nil _ _) fun other hother =>
        h other (List.mem_cons_of_mem field hother)
      rw [List.map_cons, compactFields]
      · simp only [List.append_assoc, List.cons_append]
        exact .next isSpace_nil field.1 isSpace_nil hvalue isSpace_nil hrest
      · exact List.cons_ne_nil _ _

theorem Textual.written_compact {j : Json} (h : Textual j) : Written j (compactChars j) := by
  induction h with
  | string text => exact .string text
  | @array items hitems ih =>
    rw [compactChars, List.cons_append]
    by_cases hne : items = []
    · rw [hne]
      exact .emptyArray isSpace_nil
    · exact .array (writtenItems_compact hne ih)
  | @object fields hvalues ih =>
    rw [compactChars, List.cons_append]
    by_cases hne : fields = []
    · rw [hne]
      exact .emptyObject isSpace_nil
    · exact .object (writtenFields_compact hne ih)

theorem writtenItems_pretty {items : List Json} (depth : Nat) (hne : items ≠ [])
    (h : ∀ item ∈ items, Written item (prettyChars (depth + 1) item)) :
    WrittenItems items (prettyItems (depth + 1) items ++ (newLine depth ++ [']'])) := by
  induction items with
  | nil => exact absurd rfl hne
  | cons item rest ih =>
    have hitem := h item List.mem_cons_self
    cases rest with
    | nil =>
      rw [prettyItems, List.append_assoc]
      exact .last (isSpace_newLine _) hitem (isSpace_newLine _)
    | cons next rest =>
      have hrest := ih (List.cons_ne_nil _ _) fun other hother =>
        h other (List.mem_cons_of_mem item hother)
      rw [prettyItems]
      · simp only [List.append_assoc, List.cons_append]
        exact .next (isSpace_newLine _) hitem isSpace_nil hrest
      · exact List.cons_ne_nil _ _

theorem writtenFields_pretty {fields : List (List Char × Json)} (depth : Nat) (hne : fields ≠ [])
    (h : ∀ field ∈ fields, Written field.2 (prettyChars (depth + 1) field.2)) :
    WrittenFields (fields.map fun field => (some field.1, field.2))
      (prettyFields (depth + 1) (fields.map fun field => (some field.1, field.2)) ++
        (newLine depth ++ ['}'])) := by
  have hblank : IsSpace [' '] := by
    rintro c ⟨⟩
    · rfl
    · contradiction
  induction fields with
  | nil => exact absurd rfl hne
  | cons field rest ih =>
    have hvalue := h field List.mem_cons_self
    cases rest with
    | nil =>
      rw [List.map_singleton, prettyFields]
      simp only [List.append_assoc, List.cons_append]
      exact .last (isSpace_newLine _) field.1 hblank hvalue (isSpace_newLine _)
    | cons next rest =>
      have hrest := ih (List.cons_ne_nil _ _) fun other hother =>
        h other (List.mem_cons_of_mem field hother)
      rw [List.map_cons, prettyFields]
      · simp only [List.append_assoc, List.cons_append]
        exact .next (isSpace_newLine _) field.1 hblank hvalue isSpace_nil hrest
      · exact List.cons_ne_nil _ _

theorem Textual.written_pretty {j : Json} (h : Textual j) (depth : Nat) :
    Written j (prettyChars depth j) := by
  induction h generalizing depth with
  | string text => exact .string text
  | @array items hitems ih =>
    by_cases hne : items = []
    · rw [hne, prettyChars]
      exact .emptyArray isSpace_nil
    · rw [prettyChars, List.append_assoc, List.cons_append]
      · exact .array (writtenItems_pretty depth hne fun item hitem => ih item hitem (depth + 1))
      · exact hne
  | @object fields hvalues ih =>
    by_cases hne : fields = []
    · rw [hne, List.map_nil, prettyChars]
      exact .emptyObject isSpace_nil
    · rw [prettyChars, List.append_assoc, List.cons_append]
      · exact .object (writtenFields_pretty depth hne fun field hfield =>
          ih field hfield (depth + 1))
      · simpa using hne

/-- What is printed is read back, compact or indented and followed by white space. -/
theorem Textual.read?_compact {j : Json} (h : Textual j) : Json.read? j.compact = some j :=
  h.written_compact.read? isSpace_nil isSpace_nil (by simp [compact])

theorem Textual.read?_pretty {j : Json} (h : Textual j) (after : String)
    (hafter : IsSpace after.toList) : Json.read? (j.pretty ++ after) = some j :=
  (h.written_pretty 0).read? isSpace_nil hafter (by simp [pretty])

end LuaGlue.Json

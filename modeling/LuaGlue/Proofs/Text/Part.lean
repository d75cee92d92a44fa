/-!
# Parts of a text

A text stands in another one, or before another one in a third.
-/

namespace LuaGlue

/-- One text stands in a text, and the other one somewhere behind it. -/
def StandsBefore (text earlier later : String) : Prop :=
  ∃ before between after, text = before ++ earlier ++ between ++ later ++ after

def StandsIn (part text : String) : Prop := ∃ before after, text = before ++ part ++ after

theorem StandsIn.refl (text : String) : StandsIn text text :=
  ⟨"", "", by simp⟩

theorem StandsIn.trans {part text whole : String} (h : StandsIn part text)
    (h' : StandsIn text whole) : StandsIn part whole := by
  obtain ⟨before, after, rfl⟩ := h
  obtain ⟨before', after', rfl⟩ := h'
  exact ⟨before' ++ before, after ++ after', by simp only [String.append_assoc]⟩

theorem standsIn_append_left {part text : String} (h : StandsIn part text) (rest : String) :
    StandsIn part (text ++ rest) := by
  obtain ⟨before, after, rfl⟩ := h
  exact ⟨before, after ++ rest, by simp only [String.append_assoc]⟩

theorem standsIn_append_right {part text : String} (h : StandsIn part text) (rest : String) :
    StandsIn part (rest ++ text) := by
  obtain ⟨before, after, rfl⟩ := h
  exact ⟨rest ++ before, after, by simp only [String.append_assoc]⟩

theorem standsIn_join {α : Type} {xs : List α} {x : α} (f : α → String) (h : x ∈ xs) :
    StandsIn (f x) (String.join (xs.map f)) := by
  obtain ⟨before, after, rfl⟩ := List.append_of_mem h
  refine ⟨String.join (before.map f), String.join (after.map f), ?_⟩
  rw [List.map_append, List.map_cons, String.join_append, String.join_cons, String.append_assoc]

theorem standsBefore_append {earlier later text text' : String} (h : StandsIn earlier text)
    (h' : StandsIn later text') : StandsBefore (text ++ text') earlier later := by
  obtain ⟨before, after, rfl⟩ := h
  obtain ⟨before', after', rfl⟩ := h'
  exact ⟨before, after ++ before', after', by simp only [String.append_assoc]⟩

theorem StandsBefore.of_standsIn {earlier later text whole : String}
    (h : StandsBefore text earlier later) (h' : StandsIn text whole) :
    StandsBefore whole earlier later := by
  obtain ⟨before, between, after, rfl⟩ := h
  obtain ⟨before', after', rfl⟩ := h'
  exact ⟨before' ++ before, between, after ++ after', by simp only [String.append_assoc]⟩

theorem StandsBefore.append {earlier later text : String} (h : StandsBefore text earlier later)
    (rest : String) : StandsBefore (text ++ rest) earlier later :=
  h.of_standsIn (standsIn_append_left (StandsIn.refl text) rest)

end LuaGlue

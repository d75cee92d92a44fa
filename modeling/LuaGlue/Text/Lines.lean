import LuaGlue.Text.Blank

/-!
# Lines

Text as a list of lines. A line feed ends a line, one carriage return directly before it belongs to
the line end, and what follows the last line feed is a line only if it is not empty.
-/

namespace LuaGlue.Text

def chopReturn (line : List Char) : List Char :=
  if line.getLast? = some '\r' then line.dropLast else line

def lines (cs : List Char) : List (List Char) :=
  let pieces := cs.splitOn '\n'
  pieces.dropLast.map chopReturn ++ pieces.getLast?.toList.filter fun last => !last.isEmpty

def cutLine (cs : List Char) : List Char × List Char :=
  (cs.takeWhile (· != '\n'), (cs.dropWhile (· != '\n')).drop 1)

/-- The rest of a list that starts with `lead`. -/
def afterLead? (lead cs : List Char) : Option (List Char) :=
  if lead.isPrefixOf cs then some (cs.drop lead.length) else none

theorem afterLead?_eq_some_iff {lead cs rest : List Char} :
    afterLead? lead cs = some rest ↔ cs = lead ++ rest := by
  unfold afterLead?
  constructor
  · intro h
    split at h
    · next isLead =>
      obtain ⟨tail, rfl⟩ := List.isPrefixOf_iff_prefix.1 isLead
      simp_all
    · simp at h
  · rintro rfl
    simp [List.isPrefixOf_iff_prefix]

end LuaGlue.Text

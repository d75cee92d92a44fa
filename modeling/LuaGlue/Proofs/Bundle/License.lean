import LuaGlue.Bundle
import LuaGlue.Proofs.Bundle.Table

/-!
# The table of licenses is read back

Behind the line that opens the table of licenses, each resource has one row, and the literals of the
row stand for the name of the resource, the first line of its text, and the other lines folded. No
quote, backslash or line feed of a license ends a literal or a row. A carriage return is not
escaped, so it does.
-/

namespace LuaGlue.License

open Text Text.CString

/-! ## What a license says -/

/-- What a line adds to a folded text: two line feeds if it is blank, else itself without the white
space at its end, and a space. -/
def foldLine (line : List Char) : List Char :=
  match trimEndChars line with
  | [] => ['\n', '\n']
  | c :: kept => c :: kept ++ [' ']

/-- What a row says of a resource: its name, the first line of its text without the white space at
its end, and the other lines folded. -/
def statedIn (r : Resource) : List String :=
  [r.path.stem,
    String.ofList (trimEndChars ((Text.lines r.text.toList).headD [])),
    String.ofList (((Text.lines r.text.toList).drop 1).flatMap foldLine)]

def fields (l : License) : List String := [l.name, l.homepage, l.folded]

theorem foldLine_eq (line : List Char) :
    (if (String.ofList (trimEndChars line)).isEmpty then "\n\n"
      else String.ofList (trimEndChars line) ++ " ") = String.ofList (foldLine line) := by
  unfold foldLine
  cases trimEndChars line with
  | nil => rfl
  | cons c kept =>
    have hnonempty : (String.ofList (c :: kept)).isEmpty = false := by simp
    rw [hnonempty, if_neg Bool.false_ne_true, String.ofList_append]

theorem fields_ofResource (r : Resource) : fields (ofResource r) = statedIn r := by
  have hhomepage : (ofResource r).homepage =
      String.ofList (trimEndChars ((Text.lines r.text.toList).headD [])) := by
    unfold ofResource
    cases Text.lines r.text.toList <;> rfl
  have hfolded : (ofResource r).folded =
      String.ofList (((Text.lines r.text.toList).drop 1).flatMap foldLine) := by
    unfold folded ofResource
    simp only [← List.map_drop, List.map_map, Function.comp_def, foldLine_eq]
    rw [← String.toList_inj, String.toList_join, String.toList_ofList, List.flatMap_map]
    simp only [String.toList_ofList]
  rw [fields, statedIn, hhomepage, hfolded]
  rfl

/-! ## The lines of a table -/

def shape : TableShape where
  leads := [r"    { ", ", ", ", "]
  closing := r", },"
  final := "    { nullptr, nullptr, nullptr },"
  back := [r"};"]
  leads_ne_nil := List.cons_ne_nil _ _
  plainRow := by decide +kernel
  plainEnd := by decide +kernel

theorem epilogue_eq : epilogue = unlines (shape.final :: shape.back) := by
  decide +kernel

/-- A license that stands in one row: the texts that it is made of have one line each. -/
structure RowWise (l : License) : Prop where
  name : '\n' ∉ l.name.toList
  homepage : '\n' ∉ l.homepage.toList
  lines : ∀ line ∈ l.lines, '\n' ∉ line.toList

/-- The breaks between paragraphs are the only line feeds of a folded text. -/
theorem RowWise.literal_toList {l : License} (h : l.RowWise) :
    l.literal.toList = escapeAllChars l.folded.toList := by
  have hline : ∀ line ∈ l.lines,
      (if line.isEmpty then "\\n\\n" else escape line ++ " ").toList =
        escapeAllChars (if line.isEmpty then "\n\n" else line ++ " ").toList := by
    intro line hmem
    by_cases hempty : line.isEmpty
    · rw [if_pos hempty, if_pos hempty]
      rfl
    · rw [if_neg hempty, if_neg hempty, String.toList_append, String.toList_append,
        escape_toList (h.lines line hmem), escapeAllChars_append]
      rfl
  rw [literal, folded, String.toList_join, String.toList_join, List.flatMap_map, List.flatMap_map,
    escapeAllChars, List.flatMap_assoc, List.flatMap_def, List.flatMap_def]
  exact congrArg List.flatten (List.map_congr_left hline)

theorem RowWise.row_eq {l : License} (h : l.RowWise) : row l = shape.line l.fields ++ "\n" := by
  rw [← String.toList_inj, String.toList_append, TableShape.line_toList]
  delta row
  simp [shape, fields, rowChars, h.literal_toList, escape_toList h.name, escape_toList h.homepage]

theorem join_rows {ls : List License} (h : ∀ l ∈ ls, l.RowWise) :
    String.join (ls.map row) ++ epilogue = unlines (shape.lines (ls.map fields)) := by
  rw [TableShape.lines, unlines_append, ← epilogue_eq, unlines, List.map_map, List.map_map]
  exact congrArg (String.join · ++ epilogue) (List.map_congr_left fun l hl => (h l hl).row_eq)

theorem rowWise_ofResource {r : Resource} (h : '\n' ∉ r.path.stem.toList) :
    (ofResource r).RowWise := by
  have htrimmed : ∀ line ∈ Text.lines r.text.toList,
      '\n' ∉ (String.ofList (trimEndChars line)).toList := by
    intro line hline hfeed
    rw [String.toList_ofList] at hfeed
    exact not_mem_of_mem_lines hline ((dropEndWhile_sublist isBlank line).subset hfeed)
  refine ⟨h, ?_, ?_⟩
  · unfold ofResource
    cases hlines : Text.lines r.text.toList with
    | nil => exact List.not_mem_nil
    | cons first rest => exact htrimmed first (hlines ▸ List.mem_cons_self)
  · intro line hline
    have hmem := List.mem_of_mem_drop hline
    obtain ⟨whole, hwhole, rfl⟩ := List.mem_map.1 hmem
    exact htrimmed whole hwhole

theorem table_ofResource (names : TableNames) {resources : List Resource}
    (named : ∀ r ∈ resources, '\n' ∉ r.path.stem.toList) :
    table names (resources.map ofResource) =
      prologue names ++ unlines (shape.lines (resources.map statedIn)) := by
  have hfields : (resources.map ofResource).map fields = resources.map statedIn := by
    rw [List.map_map]
    exact List.map_congr_left fun r _ => fields_ofResource r
  rw [table, String.append_assoc,
    join_rows (List.forall_mem_map.2 fun r hr => rowWise_ofResource (named r hr)), hfields]

theorem fits_statedIn (resources : List Resource) : shape.Fits (resources.map statedIn) := by
  refine List.forall_mem_map.2 fun r _ => ?_
  rw [statedIn, shape, List.length_cons, List.length_cons, List.length_cons, List.length_nil]
  rfl

/-- Behind the opening line, the header of resources is a table of what they say, if and only if
none of it holds a carriage return. -/
theorem table_readsBack (names : TableNames) (resources : List Resource)
    (named : ∀ r ∈ resources, '\n' ∉ r.path.stem.toList) :
    ∃ rows, table names (resources.map ofResource) = prologue names ++ rows ∧
      (TableOf shape.final shape.back (resources.map statedIn) (sourceLines rows.toList) ↔
        ∀ r ∈ resources, ∀ text ∈ statedIn r, '\r' ∉ text.toList) :=
  ⟨_, table_ofResource names named,
    (TableShape.tableOf_iff (fits_statedIn resources)).trans List.forall_mem_map⟩

/-- A license whose lines end in quotes, backslashes and carriage returns, one with nothing but a
homepage, and an empty one. -/
def escapedLicenses : List Resource :=
  [⟨⟨"licenses/a\"b.txt"⟩, "https://x\\ \r\nsays \"no\"\\\n \t\r\nlast\r".toUTF8⟩,
    ⟨⟨"zlib.txt"⟩, "https://zlib.net".toUTF8⟩, ⟨⟨"none"⟩, ⟨#[]⟩⟩]

def bracedNames : TableNames := ⟨"S", r#"x[] = { "
"#⟩

theorem escapedLicenses_readBack :
    (∀ r ∈ escapedLicenses, '\n' ∉ r.path.stem.toList) ∧
      (∀ r ∈ escapedLicenses, ∀ text ∈ statedIn r, '\r' ∉ text.toList) ∧
      escapedLicenses.map statedIn =
        [["a\"b", "https://x\\", "says \"no\"\\ \n\nlast "], ["zlib", "https://zlib.net", ""],
          ["none", "", ""]] ∧
      ∃ rows, table bracedNames (escapedLicenses.map ofResource) = prologue bracedNames ++ rows ∧
        (TableOf shape.final shape.back (escapedLicenses.map statedIn) (sourceLines rows.toList) ↔
          ∀ r ∈ escapedLicenses, ∀ text ∈ statedIn r, '\r' ∉ text.toList) := by
  have hnamed : ∀ r ∈ escapedLicenses, '\n' ∉ r.path.stem.toList := by decide +kernel
  exact ⟨hnamed, by decide +kernel, by decide +kernel,
    table_readsBack bracedNames escapedLicenses hnamed⟩

def returnedLicenses : List Resource :=
  [⟨⟨"zlib.txt"⟩, "https://zlib.net\nline one\rline two\n".toUTF8⟩]

/-- The carriage return within the line leaves its literal open, and its row is none. -/
theorem returnedLicenses_misread :
    (∀ r ∈ returnedLicenses, '\n' ∉ r.path.stem.toList) ∧
      returnedLicenses.map statedIn = [["zlib", "https://zlib.net", "line one\rline two "]] ∧
      ∃ rows, table .standard (returnedLicenses.map ofResource) = prologue .standard ++ rows ∧
        ¬TableOf shape.final shape.back (returnedLicenses.map statedIn)
          (sourceLines rows.toList) := by
  have hnamed : ∀ r ∈ returnedLicenses, '\n' ∉ r.path.stem.toList := by decide +kernel
  have hstated : returnedLicenses.map statedIn =
      [["zlib", "https://zlib.net", "line one\rline two "]] := by
    decide +kernel
  have hreturn : '\r' ∈ "line one\rline two ".toList := by decide +kernel
  refine ⟨hnamed, hstated, _, table_ofResource .standard hnamed, fun htable => ?_⟩
  have hnone := (TableShape.tableOf_iff (fits_statedIn returnedLicenses)).1 htable
  rw [hstated] at hnone
  exact hnone _ List.mem_cons_self _ (by decide) hreturn

end LuaGlue.License

import LuaGlue.Bundle
import LuaGlue.Proofs.Bundle.Table
import LuaGlue.Proofs.Text.Digits

/-!
# The table of templates is read back

A header of templates, read line by line and each line literal by literal, gives back its templates:
the size that it declares is their number, between the line that opens the table and the row that
ends it there is one line for each of them, and the literals of the line stand for its folder, name,
description and body. A carriage return is not escaped, so the row of a template that holds one is
no line. Different templates have different headers all the same.
-/

namespace LuaGlue.Template

open Text Text.CString

def fields (t : Template) : List String := [t.folder, t.name, t.description, t.body]

theorem fields_injective : Function.Injective fields := by
  rintro ⟨folder, name, description, body⟩ ⟨folder', name', description', body'⟩ h
  simp only [fields, List.cons.injEq, and_true] at h
  obtain ⟨rfl, rfl, rfl, rfl⟩ := h
  rfl

/-! ## The lines of a header -/

def frontLines : List String :=
  [banner, "", "#ifndef _LUACODE_TEMPLATES_H", "#define _LUACODE_TEMPLATES_H", "",
    "#include \"core/object/object.h\"", "#include \"core/object/script_language.h\"", ""]

def sizeLine (size : Nat) : String :=
  "static const int LUA_TEMPLATES_ARRAY_SIZE = " ++ toString size ++ ";"

def tableLine : String :=
  r"static const struct ScriptLanguage::ScriptTemplate LUA_TEMPLATES[] = {"

def openingLines (size : Nat) : List String := frontLines ++ [sizeLine size, tableLine]

def shape : TableShape where
  leads := [r"    { String(", "), String(", "), String(", "), String("]
  closing := r") },"
  final := "    { String(), String(), String(), String() },"
  back := [r"};", "", "#endif"]
  leads_ne_nil := List.cons_ne_nil _ _
  plainRow := by decide +kernel
  plainEnd := by decide +kernel

theorem append_line (front text size last : String) :
    front ++ text ++ size ++ ";\n" ++ last = front ++ (text ++ size ++ ";" ++ "\n" ++ last) := by
  have hend : ";" ++ ("\n" ++ last) = ";\n" ++ last := by
    rw [← String.append_assoc]
    rfl
  simp only [String.append_assoc, hend]

theorem prologue_eq (size : Nat) :
    prologue size = unlines (openingLines size) := by
  have hfront : unlines frontLines =
      banner ++ "\n\n#ifndef _LUACODE_TEMPLATES_H\n#define _LUACODE_TEMPLATES_H\n\n" ++
        "#include \"core/object/object.h\"\n#include \"core/object/script_language.h\"\n\n" := by
    decide +kernel
  have htable : unlines [tableLine] = tableLine ++ "\n" := by decide +kernel
  have hprologue : prologue size =
      unlines frontLines ++ "static const int LUA_TEMPLATES_ARRAY_SIZE = " ++ toString size ++
        ";\n" ++ unlines [tableLine] := by
    rw [hfront, htable, ← String.append_assoc]
    rfl
  rw [hprologue, append_line, openingLines, unlines_append, unlines_cons]
  rfl

theorem epilogue_eq : epilogue = unlines (shape.final :: shape.back) := by
  decide +kernel

theorem isSourceLine_sizeLine (size : Nat) : IsSourceLine (sizeLine size).toList := by
  have hlead : IsPlain "static const int LUA_TEMPLATES_ARRAY_SIZE = ".toList :=
    isPlain_of_all (by decide +kernel)
  have hdigits : IsPlain (toString size).toList := by
    intro c hc
    exact isPlain_of_isAlphanum (by simp [Char.isAlphanum, isDigit_of_mem_toString hc])
  have hend : IsPlain ";".toList := isPlain_of_all (by decide)
  have hline := (hlead.append hdigits).append hend
  rw [← String.toList_append, ← String.toList_append] at hline
  exact hline.isSourceLine

theorem isSourceLine_openingLines (size : Nat) :
    ∀ line ∈ openingLines size, IsSourceLine line.toList := by
  have hfront : ∀ line ∈ frontLines, IsSourceLine line.toList := by decide +kernel
  have htable : IsSourceLine tableLine.toList := by decide +kernel
  unfold openingLines
  rw [List.forall_mem_append, List.forall_mem_cons, List.forall_mem_singleton]
  exact ⟨hfront, isSourceLine_sizeLine size, htable⟩

/-! ## The rows of a header -/

structure RowWise (t : Template) : Prop where
  folder : '\n' ∉ t.folder.toList
  name : '\n' ∉ t.name.toList
  description : '\n' ∉ t.description.toList

theorem field_toList (literal : String) :
    (field literal).toList = "String(".toList ++ '"' :: (literal.toList ++ '"' :: ")".toList) := by
  simp [field]

theorem RowWise.row_eq {t : Template} (h : t.RowWise) : row t = shape.line t.fields ++ "\n" := by
  have hlead : r"    { String(".toList = r"    { ".toList ++ "String(".toList := by decide +kernel
  have hcomma : "), String(".toList = ")".toList ++ (", ".toList ++ "String(".toList) := by
    decide +kernel
  have hclosing : r") },".toList = ")".toList ++ r" },".toList := by decide +kernel
  rw [← String.toList_inj, String.toList_append, TableShape.line_toList]
  delta row
  simp only [shape, fields, rowChars, String.toList_append, field_toList, hlead, hcomma, hclosing,
    escapeLineFeeds_escape_toList, escape_toList h.folder, escape_toList h.name,
    escape_toList h.description, List.append_assoc, List.cons_append]

theorem table_eq {ts : List Template} (h : ∀ t ∈ ts, t.RowWise) :
    table ts = unlines (openingLines ts.length ++ shape.lines (ts.map fields)) := by
  have hrows : String.join (ts.map row) = unlines ((ts.map fields).map shape.line) := by
    rw [unlines, List.map_map, List.map_map]
    exact congrArg String.join (List.map_congr_left fun t ht => (h t ht).row_eq)
  rw [unlines_append, TableShape.lines, unlines_append, ← prologue_eq, ← epilogue_eq, ← hrows]
  exact String.append_assoc

theorem fits_fields (ts : List Template) : shape.Fits (ts.map fields) :=
  List.forall_mem_map.2 fun _ _ => rfl

theorem not_mem_description (text : String) : '\n' ∉ (splitDescription text).1.toList := by
  unfold splitDescription
  dsimp only
  split
  · next description hfirst =>
    rw [String.toList_ofList]
    intro hfeed
    have hline : '\n' ∈ (cutLine text.toList).1 := by
      rw [afterLead?_eq_some_iff.1 hfirst]
      exact List.mem_append_right _ ((trimChars_sublist description).subset hfeed)
    exact absurd (List.mem_takeWhile_imp hline) (by decide)
  · exact List.not_mem_nil

def Named (r : Resource) : Prop := '\n' ∉ r.path.folderName.toList ∧ '\n' ∉ r.path.stem.toList

instance (r : Resource) : Decidable (Named r) := inferInstanceAs (Decidable (_ ∧ _))

theorem rowWise_ofResource {r : Resource} (h : Named r) : (ofResource r).RowWise :=
  ⟨h.1, h.2, not_mem_description r.text⟩

/-! ## The header read back -/

/-- A header lists templates: it declares their number and has a table of their texts. -/
def Lists (header : String) (ts : List Template) : Prop :=
  ∃ rows, sourceLines header.toList = (openingLines ts.length).map String.toList ++ rows ∧
    TableOf shape.final shape.back (ts.map fields) rows

theorem lists_table_iff {ts : List Template} (h : ∀ t ∈ ts, t.RowWise) :
    Lists (table ts) ts ↔ ∀ t ∈ ts, ∀ text ∈ t.fields, '\r' ∉ text.toList := by
  have hlines : sourceLines (table ts).toList = (openingLines ts.length).map String.toList ++
      sourceLines (unlines (shape.lines (ts.map fields))).toList := by
    rw [table_eq h, unlines_append, String.toList_append,
      sourceLines_whole_append (isSourceLine_openingLines ts.length)]
  have hiff := (TableShape.tableOf_iff (fits_fields ts)).trans List.forall_mem_map
  rw [← hiff, Lists, hlines]
  constructor
  · rintro ⟨rows, hsame, hrows⟩
    rwa [List.append_cancel_left hsame]
  · exact fun hrows => ⟨_, rfl, hrows⟩

theorem table_inj {ts ts' : List Template} (h : ∀ t ∈ ts, t.RowWise) (h' : ∀ t ∈ ts', t.RowWise)
    (hsame : table ts = table ts') : ts = ts' := by
  have hone : ∀ us : List Template, ∀ line ∈ openingLines us.length ++ shape.lines (us.map fields),
      '\n' ∉ line.toList := by
    intro us
    rw [List.forall_mem_append]
    exact ⟨fun line hline => (isSourceLine_openingLines _ line hline).one,
      shape.not_mem_lines (us.map fields)⟩
  rw [table_eq h, table_eq h'] at hsame
  have hlines := unlines_inj (hone ts) (hone ts') hsame
  have hlength : (openingLines ts.length).length = (openingLines ts'.length).length := by
    simp [openingLines]
  have hrows := List.append_cancel_right (List.append_inj hlines hlength).2
  have hfields := TableShape.map_line_inj (fits_fields ts) (fits_fields ts') hrows
  exact List.map_injective_iff.2 fields_injective hfields

/-! ## The header of resources -/

theorem forall_ofResource_rowWise {rs : List Resource} (h : ∀ r ∈ rs, Named r) :
    ∀ t ∈ rs.map ofResource, t.RowWise :=
  List.forall_mem_map.2 fun r hr => rowWise_ofResource (h r hr)

/-- The header of resources lists their templates if and only if none of these holds a carriage
return, and in either case no other resources have the same header unless their templates are the
same. -/
theorem render_readsBack (resources : List Resource) (named : ∀ r ∈ resources, Named r) :
    (Lists (Bundle.templates.render resources) (resources.map ofResource) ↔
        ∀ r ∈ resources, ∀ text ∈ (ofResource r).fields, '\r' ∉ text.toList) ∧
      ∀ others : List Resource, (∀ r ∈ others, Named r) →
        Bundle.templates.render others = Bundle.templates.render resources →
        others.map ofResource = resources.map ofResource :=
  ⟨(lists_table_iff (forall_ofResource_rowWise named)).trans List.forall_mem_map,
    fun _ named' hsame =>
      table_inj (forall_ofResource_rowWise named') (forall_ofResource_rowWise named) hsame⟩

/-- A template with quotes and backslashes in each of its texts, and one that is no UTF-8 and ends
in a backslash. -/
def escapedResources : List Resource :=
  [⟨⟨"templates/No\"de/a\\.b.lua"⟩, "--  says \"hi\\n\" \r\nx = \"\\\\\" \r\n\n\ty\r".toUTF8⟩,
    ⟨⟨"bare"⟩, ⟨#[0x2D, 0x2D, 0xFF, 0x0A, 0x5C]⟩⟩]

def escapedTemplates : List Template :=
  [⟨"No\"de", "a\\.b", "says \"hi\\n\"", "x = \"\\\\\"\n\n\ty\n"⟩,
    ⟨"", "bare", "\uFFFD", "\\\n"⟩]

theorem escapedResources_readBack :
    (∀ r ∈ escapedResources, Named r) ∧
      (∀ r ∈ escapedResources, ∀ text ∈ (ofResource r).fields, '\r' ∉ text.toList) ∧
      escapedResources.map ofResource = escapedTemplates ∧
      (Lists (Bundle.templates.render escapedResources) (escapedResources.map ofResource) ↔
        ∀ r ∈ escapedResources, ∀ text ∈ (ofResource r).fields, '\r' ∉ text.toList) ∧
      ∀ others : List Resource, (∀ r ∈ others, Named r) →
        Bundle.templates.render others = Bundle.templates.render escapedResources →
        others.map ofResource = escapedResources.map ofResource := by
  have hnamed : ∀ r ∈ escapedResources, Named r := by decide +kernel
  exact ⟨hnamed, by decide +kernel, by decide +kernel, render_readsBack escapedResources hnamed⟩

def returnedResources : List Resource := [⟨⟨"Node/a.lua"⟩, "x\ry\n".toUTF8⟩]

/-- The carriage return within the line leaves its literal open, and its row is none. -/
theorem returnedResources_unlisted :
    (∀ r ∈ returnedResources, Named r) ∧
      returnedResources.map ofResource = [⟨"Node", "a", "", "x\ry\n"⟩] ∧
      ¬Lists (Bundle.templates.render returnedResources)
        (returnedResources.map ofResource) := by
  have hnamed : ∀ r ∈ returnedResources, Named r := by decide +kernel
  have htemplates : returnedResources.map ofResource = [⟨"Node", "a", "", "x\ry\n"⟩] := by
    decide +kernel
  have hreturn : '\r' ∈ "x\ry\n".toList := by decide
  refine ⟨hnamed, htemplates, fun hlists => ?_⟩
  have hnone := (lists_table_iff (forall_ofResource_rowWise hnamed)).1 hlists
  rw [htemplates] at hnone
  exact hnone _ List.mem_cons_self _ (by decide) hreturn

end LuaGlue.Template

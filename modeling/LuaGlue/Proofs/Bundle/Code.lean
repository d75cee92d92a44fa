import LuaGlue.Bundle
import LuaGlue.Proofs.Text.CString
import Mathlib.Data.List.Forall2

/-!
# Codes are read back

The header of codes has one declaration for each resource, on a line of its own. Its literal is made
of escapes of two digits only, one for each byte of the resource, and is read back as these bytes.
Above it stands a comment with the path of the resource, and a path that ends in a backslash goes on
into the declaration, which is lost in the comment.
-/

namespace LuaGlue.Code

open Text Text.CString

/-- The bytes of a file without the byte-order mark that they may begin with. -/
def unmarked : List UInt8 → List UInt8
  | 0xEF :: 0xBB :: 0xBF :: rest => rest
  | bytes => bytes

def declares (line : List Char) : Bool := "const char*".toList.isPrefixOf line

/-- The lines by which a header declares constants, as a C compiler reads it. -/
def declarations (header : String) : List (List Char) :=
  (sourceLines header.toList).filter declares

/-- The comment with a path ends on its line. -/
def endsOnLine (path : Path) : Bool := !isContinued path.text.toList

/-- A line declares the constant of a path: its literal is made of one escape for each byte, and
reading the literal yields the bytes. -/
structure Embeds (line : List Char) (name : String) (bytes : List UInt8) : Prop where
  escapes : ∃ escapes : List (List Char), (∀ escape ∈ escapes, IsByteEscape escape) ∧
    escapes.length = bytes.length ∧
    line = ("const char* " ++ name ++ " = \"").toList ++ escapes.flatten ++ "\";".toList
  literal : literals? line = some [bytes.map fun b => .code b.toNat]

theorem content_ofBytes (path : Path) (bytes : ByteArray) :
    (Resource.ofBytes path bytes).content.data.toList = unmarked bytes.data.toList := by
  unfold Resource.ofBytes Resource.dropMark unmarked
  split
  · next hmarked =>
    obtain ⟨rest, hrest⟩ := List.isPrefixOf_iff_prefix.1 hmarked
    rw [← hrest]
    rfl
  · next hplain =>
    split
    · next rest hrest =>
      rw [hrest] at hplain
      exact absurd rfl hplain
    · rfl

/-! ## The lines of a header -/

def declarationLine (r : Resource) : String :=
  "const char* " ++ variableName r ++ " = \"" ++ escapeBytes r.content ++ "\";"

def linesOf (r : Resource) : List String := ["", "// " ++ r.path.text, declarationLine r]

def openingLines : List String :=
  [banner, "#ifndef _LUA_CODES_GEN_H", "#define _LUA_CODES_GEN_H"]

def closingLines : List String := ["", "#endif"]

theorem declaration_eq (r : Resource) : declaration r = unlines (linesOf r) := by
  rw [← String.toList_inj]
  delta declaration linesOf declarationLine
  simp [unlines_toList]

theorem table_eq (rs : List Resource) :
    table rs = unlines (openingLines ++ (rs.flatMap linesOf ++ closingLines)) := by
  have hopening : unlines openingLines =
      banner ++ "\n#ifndef _LUA_CODES_GEN_H\n#define _LUA_CODES_GEN_H\n" := by
    decide +kernel
  have hclosing : unlines closingLines = "\n#endif\n" := by decide +kernel
  have hresources : unlines (rs.flatMap linesOf) = String.join (rs.map declaration) := by
    induction rs with
    | nil => rfl
    | cons r rest ih =>
      rw [List.flatMap_cons, unlines_append, ih, List.map_cons, String.join_cons]
      exact congrArg (· ++ String.join (rest.map declaration)) (declaration_eq r).symm
  rw [unlines_append, unlines_append, hopening, hclosing, hresources]
  exact String.append_assoc

/-! ## Declarations -/

theorem isPlain_identifier (name : String) : IsPlain (identifier name).toList := by
  have hplain : ∀ c : Char, isPlain (if c.isAlphanum then c else '_') = true := by
    intro c
    by_cases halphanum : c.isAlphanum
    · rw [if_pos halphanum]
      exact isPlain_of_isAlphanum halphanum
    · rw [if_neg halphanum]
      decide
  rw [identifier, String.toList_ofList]
  exact List.forall_mem_map.2 fun c _ => hplain c

theorem isPlain_declarationLead (r : Resource) :
    IsPlain ("const char* " ++ variableName r ++ " = ").toList := by
  have htype : IsPlain "const char* ".toList := isPlain_of_all (by decide)
  have hstart : IsPlain "code_".toList := isPlain_of_all (by decide)
  have hequals : IsPlain " = ".toList := isPlain_of_all (by decide)
  rw [variableName, String.toList_append, String.toList_append, String.toList_append]
  exact (htype.append (hstart.append (isPlain_identifier _))).append hequals

theorem declarationLine_toList (r : Resource) :
    (declarationLine r).toList = ("const char* " ++ variableName r ++ " = \"").toList ++
      (escapeBytes r.content).toList ++ "\";".toList := by
  delta declarationLine
  rw [String.toList_append, String.toList_append]

theorem segment_declarationLine (r : Resource) :
    Segment (declarationLine r).toList [r.content.data.toList.map fun b => .code b.toNat] := by
  have hfills : Fills (escapeBytes r.content).toList
      (r.content.data.toList.map fun b => .code b.toNat) := by
    rw [escapeBytes_toList]
    exact fills_byteEscapes r.content.data.toList
  have hchars : (declarationLine r).toList = ("const char* " ++ variableName r ++ " = ").toList ++
      '"' :: ((escapeBytes r.content).toList ++ ['"']) ++ [';'] := by
    delta declarationLine
    simp
  have hend : IsPlain [';'] := isPlain_of_all (by decide)
  rw [hchars]
  exact ((isPlain_declarationLead r).segment.append hfills.segment).append hend.segment

theorem embeds_declarationLine (r : Resource) :
    Embeds (declarationLine r).toList (variableName r) r.content.data.toList := by
  refine ⟨⟨r.content.data.toList.map byteEscape, ?_, List.length_map _, ?_⟩,
    (segment_declarationLine r).literals?_eq⟩
  · rw [List.forall_mem_map]
    exact fun b _ => isByteEscape_byteEscape b
  · have hliteral : (r.content.data.toList.map byteEscape).flatten =
        (escapeBytes r.content).toList := by
      rw [escapeBytes_toList, List.flatMap_def]
    rw [hliteral, declarationLine_toList]

theorem isSourceLine_declarationLine (r : Resource) :
    IsSourceLine (declarationLine r).toList := by
  refine ⟨(segment_declarationLine r).unbroken, ?_⟩
  rw [declarationLine_toList]
  exact isContinued_append_right (by decide) _

theorem declares_declarationLine (r : Resource) : declares (declarationLine r).toList = true := by
  rw [declarationLine_toList, String.toList_append, String.toList_append]
  rfl

/-- What a continued comment swallows declares nothing. -/
theorem declares_continuedComment {comment : List Char}
    (h : isContinued ('/' :: '/' :: ' ' :: comment) = true) (next : List Char) :
    declares (continuedFront ('/' :: '/' :: ' ' :: comment) ++ next) = false := by
  obtain ⟨gaps, hcomment⟩ := exists_eq_continuedFront_append h
  cases hfront : continuedFront ('/' :: '/' :: ' ' :: comment) with
  | nil =>
    rw [hfront] at hcomment
    cases hcomment
  | cons first rest =>
    rw [hfront] at hcomment
    obtain ⟨rfl, -⟩ := List.cons.inj hcomment
    rfl

theorem declarations_linesOf (r : Resource) (ls : List (List Char)) :
    (joinContinued ((linesOf r).map String.toList ++ ls)).filter declares =
      (if endsOnLine r.path then [(declarationLine r).toList] else []) ++
        (joinContinued ls).filter declares := by
  have hcomment : ("// " ++ r.path.text).toList = '/' :: '/' :: ' ' :: r.path.text.toList :=
    String.toList_append
  have hlead : isContinued ['/', '/', ' '] = false := by decide
  have hcontinued : isContinued ('/' :: '/' :: ' ' :: r.path.text.toList) =
      isContinued r.path.text.toList := isContinued_append hlead _
  have hwhole := (isSourceLine_declarationLine r).whole
  rw [linesOf, List.map_cons, List.map_cons, List.map_cons, List.map_nil, List.cons_append,
    List.cons_append, List.cons_append, List.nil_append, hcomment,
    joinContinued_cons (by decide : isContinued "".toList = false),
    List.filter_cons_of_neg (by decide), endsOnLine, ← hcontinued]
  cases hpath : isContinued ('/' :: '/' :: ' ' :: r.path.text.toList) with
  | false =>
    rw [joinContinued_cons hpath, joinContinued_cons hwhole,
      List.filter_cons_of_neg Bool.false_ne_true,
      List.filter_cons_of_pos (declares_declarationLine r)]
    rfl
  | true =>
    have hswallowed := declares_continuedComment hpath (declarationLine r).toList
    rw [joinContinued_cons_cons hpath hwhole,
      List.filter_cons_of_neg (by rw [hswallowed]; exact Bool.false_ne_true)]
    rfl

theorem unbroken_linesOf {r : Resource} (named : Unbroken r.path.text.toList) :
    ∀ line ∈ linesOf r, Unbroken line.toList := by
  have hcomment : Unbroken ("// " ++ r.path.text).toList := by
    rw [String.toList_append]
    exact Unbroken.append (by decide) named
  rw [linesOf, List.forall_mem_cons, List.forall_mem_cons, List.forall_mem_singleton]
  exact ⟨.nil, hcomment, (isSourceLine_declarationLine r).toUnbroken⟩

theorem declarations_resources (rs : List Resource) :
    (joinContinued ((rs.flatMap linesOf ++ closingLines).map String.toList)).filter declares =
      (rs.filter fun r => endsOnLine r.path).map fun r => (declarationLine r).toList := by
  induction rs with
  | nil => decide +kernel
  | cons r rest ih =>
    rw [List.flatMap_cons, List.append_assoc, List.map_append, declarations_linesOf, ih,
      List.filter_cons]
    cases endsOnLine r.path <;> rfl

theorem declarations_table {rs : List Resource}
    (named : ∀ r ∈ rs, Unbroken r.path.text.toList) :
    declarations (table rs) =
      (rs.filter fun r => endsOnLine r.path).map fun r => (declarationLine r).toList := by
  have hopening : ∀ line ∈ openingLines, IsSourceLine line.toList := by decide +kernel
  have hwhole : ∀ line ∈ openingLines.map String.toList, isContinued line = false :=
    List.forall_mem_map.2 fun line hline => (hopening line hline).whole
  have hfront : (openingLines.map String.toList).filter declares = [] := by decide +kernel
  have hunbroken : ∀ line ∈ openingLines ++ (rs.flatMap linesOf ++ closingLines),
      Unbroken line.toList := by
    rw [List.forall_mem_append, List.forall_mem_append, List.forall_mem_flatMap]
    exact ⟨fun line hline => (hopening line hline).toUnbroken,
      fun r hr => unbroken_linesOf (named r hr), by decide +kernel⟩
  rw [declarations, table_eq, sourceLines_unlines_of_unbroken hunbroken, List.map_append,
    joinContinued_append hwhole, List.filter_append, hfront, declarations_resources,
    List.nil_append]

/-- A header embeds files: it has one declaration for each of them, in order, and no other ones. -/
def EmbedsAll (header : String) (files : List (Path × ByteArray)) : Prop :=
  List.Forall₂
    (fun line file => Embeds line (variableName (.ofBytes file.1 file.2))
      (unmarked file.2.data.toList))
    (declarations header) files

/-- The header of files embeds those whose comments end on their lines, so it embeds all of them if
and only if no path goes on into the declaration below it. -/
theorem render_embeds (files : List (Path × ByteArray))
    (named : ∀ file ∈ files, Unbroken file.1.text.toList) :
    let header := Bundle.codes.render (files.map fun file => .ofBytes file.1 file.2)
    EmbedsAll header (files.filter fun file => endsOnLine file.1) ∧
      (EmbedsAll header files ↔ ∀ file ∈ files, endsOnLine file.1 = true) := by
  intro header
  have hdeclarations : declarations header = (files.filter fun file => endsOnLine file.1).map
      fun file => (declarationLine (.ofBytes file.1 file.2)).toList := by
    have hnamed : ∀ r ∈ files.map fun file => Resource.ofBytes file.1 file.2,
        Unbroken r.path.text.toList := List.forall_mem_map.2 named
    have hrender : header = table (files.map fun file => .ofBytes file.1 file.2) := rfl
    rw [hrender, declarations_table hnamed, List.filter_map, List.map_map]
    rfl
  have hkept : EmbedsAll header (files.filter fun file => endsOnLine file.1) := by
    rw [EmbedsAll, hdeclarations, List.forall₂_map_left_iff, List.forall₂_same]
    intro file _
    rw [← content_ofBytes file.1]
    exact embeds_declarationLine (.ofBytes file.1 file.2)
  refine ⟨hkept, fun hall => ?_, fun hends => ?_⟩
  · have hlength := hkept.length_eq.symm.trans hall.length_eq
    exact List.length_filter_eq_length_iff.1 hlength
  · rwa [List.filter_eq_self.2 hends] at hkept

/-- Files of the same name, one with two byte-order marks and with bytes that are hexadecimal digits
behind an escape, the other one empty, and a file whose path ends in a backslash and a blank. -/
def markedFiles : List (Path × ByteArray) :=
  [(⟨"lua/in\"it.lua"⟩, ⟨#[0xEF, 0xBB, 0xBF, 0xEF, 0xBB, 0xBF, 0x01, 0x61, 0x22, 0x0A, 0x5C]⟩),
    (⟨"lua\\ "⟩, ⟨#[0x78]⟩), (⟨"in\"it.lua"⟩, ⟨#[]⟩)]

theorem markedFiles_embedded :
    (∀ file ∈ markedFiles, Unbroken file.1.text.toList) ∧
      (markedFiles.filter fun file => endsOnLine file.1).map
          (fun file => unmarked file.2.data.toList) =
        [[0xEF, 0xBB, 0xBF, 0x01, 0x61, 0x22, 0x0A, 0x5C], []] ∧
      let header := Bundle.codes.render (markedFiles.map fun file => .ofBytes file.1 file.2)
      EmbedsAll header (markedFiles.filter fun file => endsOnLine file.1) ∧
        (EmbedsAll header markedFiles ↔ ∀ file ∈ markedFiles, endsOnLine file.1 = true) := by
  have hnamed : ∀ file ∈ markedFiles, Unbroken file.1.text.toList := by decide +kernel
  exact ⟨hnamed, by decide +kernel, render_embeds markedFiles hnamed⟩

/-- A path that ends in a backslash: its declaration stands in the comment above it. -/
theorem continuedPath_lost :
    let files : List (Path × ByteArray) := [(⟨"a\\"⟩, "x".toUTF8)]
    let header := Bundle.codes.render (files.map fun file => .ofBytes file.1 file.2)
    (∀ file ∈ files, Unbroken file.1.text.toList) ∧ declarations header = [] ∧
      ¬EmbedsAll header files := by
  intro files header
  have hnamed : ∀ file ∈ files, Unbroken file.1.text.toList := by decide +kernel
  have hnone : declarations header = [] :=
    (declarations_table (List.forall_mem_map.2 hnamed)).trans (by decide +kernel)
  refine ⟨hnamed, hnone, fun hall => ?_⟩
  have hlength := hall.length_eq
  rw [hnone] at hlength
  cases hlength

end LuaGlue.Code

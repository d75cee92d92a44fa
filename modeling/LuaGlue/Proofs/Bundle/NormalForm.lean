import LuaGlue.Proofs.Bundle.LineEnds
import LuaGlue.Proofs.Bundle.Template

/-!
# Templates as their own sources

A template can be written as a resource again, its description behind two dashes and its body below.
The template of that resource is the same one: a description has nothing left to trim, and the lines
of a body are those of its text without what is dropped at their ends.
-/

namespace LuaGlue.Template

open Text

/-! ## Descriptions -/

/-- How a text begins: with a line of description behind two dashes, or with no description. -/
inductive Opening : List Char → List Char → List Char → Prop where
  | described (description rest : List Char) (one : '\n' ∉ description) :
    Opening ('-' :: '-' :: description ++ '\n' :: rest) description rest
  | only (description : List Char) (one : '\n' ∉ description) :
    Opening ('-' :: '-' :: description) description []
  | plain (text : List Char) (bare : ¬['-', '-'] <+: text) : Opening text [] text

theorem exists_opening (text : List Char) : ∃ description rest, Opening text description rest := by
  by_cases hlead : ['-', '-'] <+: text
  · obtain ⟨behind, rfl⟩ := hlead
    by_cases hfeed : '\n' ∈ behind
    · obtain ⟨description, rest, rfl, hone⟩ := List.eq_append_cons_of_mem hfeed
      exact ⟨description, rest, .described description rest hone⟩
    · exact ⟨behind, [], .only behind hfeed⟩
  · exact ⟨[], text, .plain text hlead⟩

theorem Opening.one {text description rest : List Char} (h : Opening text description rest) :
    '\n' ∉ description := by
  cases h with
  | described _ _ one => exact one
  | only _ one => exact one
  | plain _ _ => exact List.not_mem_nil

theorem Opening.splitDescription_eq {text : String} {description rest : List Char}
    (h : Opening text.toList description rest) :
    splitDescription text = (String.ofList (trimChars description), String.ofList rest) := by
  have hdashes : ∀ {cs : List Char}, '\n' ∉ cs → '\n' ∉ '-' :: '-' :: cs := fun hcs => by
    simpa using hcs
  have hbehind : ∀ cs : List Char, afterLead? ['-', '-'] ('-' :: '-' :: cs) = some cs := fun cs =>
    afterLead?_eq_some_iff.2 rfl
  unfold splitDescription
  generalize htext : text.toList = cs at h
  cases h with
  | described _ _ one =>
    rw [cutLine_append_feed (hdashes one)]
    dsimp only
    rw [hbehind]
  | only _ one =>
    rw [cutLine_of_not_mem (hdashes one)]
    dsimp only
    rw [hbehind]
  | plain _ bare =>
    -- dashes in front of the first line would stand in front of the text
    have hnone : afterLead? ['-', '-'] (cutLine rest).1 = none := by
      rw [Option.eq_none_iff_forall_ne_some]
      intro behind hlead
      exact bare (List.IsPrefix.trans ⟨behind, (afterLead?_eq_some_iff.1 hlead).symm⟩
        (List.takeWhile_prefix _))
    dsimp only
    rw [hnone, ← htext, String.ofList_toList]
    rfl

/-! ## Bodies -/

structure Stripped (line kept : List Char) : Prop where
  dropped : ∃ tail, line = kept ++ tail ∧ ∀ c ∈ tail, isLineEnd c = true
  ended : ∀ c ∈ kept.getLast?, isLineEnd c = false

theorem stripped_dropEndWhile (line : List Char) : Stripped line (dropEndWhile isLineEnd line) :=
  ⟨exists_eq_dropEndWhile_append isLineEnd line, fun _ => getLast?_dropEndWhile⟩

structure IsBodyLine (line : List Char) : Prop where
  one : '\n' ∉ line
  ended : ∀ c ∈ line.getLast?, isLineEnd c = false

theorem IsBodyLine.isLine {line : List Char} (h : IsBodyLine line) : IsLine line :=
  ⟨h.one, fun hreturn => absurd (h.ended _ hreturn) (by decide)⟩

def terminated (ls : List (List Char)) : List Char := ls.flatMap fun line => line ++ ['\n']

def bodyLines (text : List Char) : List (List Char) := (lines text).map (dropEndWhile isLineEnd)

theorem bodyOf_toList (text : String) :
    (bodyOf text).toList = terminated (bodyLines text.toList) := by
  rw [bodyOf, String.toList_ofList, bodyLines, terminated, List.flatMap_map]

theorem isBodyLine_of_mem_bodyLines {text : List Char} :
    ∀ line ∈ bodyLines text, IsBodyLine line := by
  unfold bodyLines
  rw [List.forall_mem_map]
  exact fun line hline =>
    ⟨fun hfeed => not_mem_of_mem_lines hline ((dropEndWhile_sublist isLineEnd line).subset hfeed),
      fun _ => getLast?_dropEndWhile⟩

theorem forall₂_bodyLines (text : List Char) :
    List.Forall₂ Stripped (lines text) (bodyLines text) := by
  rw [bodyLines, List.forall₂_map_right_iff]
  exact List.forall₂_same.2 fun line _ => stripped_dropEndWhile line

theorem bodyLines_terminated {ls : List (List Char)} (h : ∀ line ∈ ls, IsBodyLine line) :
    bodyLines (terminated ls) = ls := by
  have hkept : ∀ line ∈ ls, dropEndWhile isLineEnd line = id line := fun line hline =>
    dropEndWhile_eq_self (h line hline).ended
  rw [bodyLines, terminated, lines_of_isLine fun line hline => (h line hline).isLine,
    List.map_congr_left hkept, List.map_id]

/-- A body made of such lines is the body of itself. -/
theorem bodyOf_eq_self {body : String} {ls : List (List Char)} (hbody : body.toList = terminated ls)
    (h : ∀ line ∈ ls, IsBodyLine line) : bodyOf body = body := by
  rw [← String.toList_inj, bodyOf_toList, hbody, bodyLines_terminated h]

/-! ## Templates -/

def source (t : Template) : String := "-- " ++ t.description ++ "\n" ++ t.body

theorem opening_source {t : Template} (h : '\n' ∉ t.description.toList) :
    Opening t.source.toList (' ' :: t.description.toList) t.body.toList := by
  have hsource : t.source.toList =
      '-' :: '-' :: (' ' :: t.description.toList) ++ '\n' :: t.body.toList := by
    simp [source]
  rw [hsource]
  exact .described _ _ (by simpa using h)

/-- A text that starts with a dash starts with no byte-order mark. -/
theorem text_ofBytes_source (path : Path) (t : Template) :
    (Resource.ofBytes path t.source.toUTF8).text = t.source := by
  have hsource : t.source.toList =
      '-' :: ("- ".toList ++ t.description.toList ++ '\n' :: t.body.toList) := by
    simp [source]
  have hmark : Resource.byteOrderMark.isPrefixOf t.source.toUTF8.data.toList = false := by
    rw [toUTF8_toList, hsource, utf8Bytes_cons]
    rfl
  rw [Resource.ofBytes, Resource.dropMark, hmark, if_neg Bool.false_ne_true, Resource.text,
    decode_toUTF8]

/-- A template with nothing to trim in its description and nothing to drop in its body. -/
structure Normal (t : Template) : Prop where
  description_one : '\n' ∉ t.description.toList
  description_trimmed : IsTrimmed t.description.toList
  body : ∃ ls, t.body.toList = terminated ls ∧ ∀ line ∈ ls, IsBodyLine line

theorem Normal.parts_source {t : Template} (h : t.Normal) :
    parts t.source = (t.description, t.body) := by
  obtain ⟨ls, hbody, hlines⟩ := h.body
  have hblank : isBlank ' ' = true := by decide
  have htrimmed : trimChars (' ' :: t.description.toList) = t.description.toList := by
    rw [trimChars, List.dropWhile_cons_of_pos hblank]
    exact trimChars_eq_self_iff.2 h.description_trimmed
  rw [parts, (opening_source h.description_one).splitDescription_eq, htrimmed,
    String.ofList_toList, String.ofList_toList, bodyOf_eq_self hbody hlines]

/-- What a template takes from a text that begins as said: the description, trimmed, and the lines
of the rest, none of them lost and none added. -/
structure Takes (t : Template) (description rest : List Char) : Prop where
  description : t.description.toList = trimChars description
  body : ∃ kept, t.body.toList = terminated kept ∧ List.Forall₂ Stripped (lines rest) kept

section

variable {r : Resource} {description rest : List Char}
  (h : Opening r.text.toList description rest)

include h

theorem Opening.takes : (ofResource r).Takes description rest := by
  rw [ofResource_eq, parts, h.splitDescription_eq]
  refine ⟨String.toList_ofList, bodyLines rest, ?_, forall₂_bodyLines rest⟩
  rw [bodyOf_toList, String.toList_ofList]

theorem Opening.normal : (ofResource r).Normal := by
  rw [ofResource_eq, parts, h.splitDescription_eq]
  refine ⟨?_, ?_, bodyLines rest, ?_, isBodyLine_of_mem_bodyLines⟩
  · rw [String.toList_ofList]
    exact fun hfeed => h.one ((trimChars_sublist description).subset hfeed)
  · rw [String.toList_ofList]
    exact isTrimmed_trimChars description
  · rw [bodyOf_toList, String.toList_ofList]

end

/-- The text of the template of a resource, at the path of the resource, has the same template; and
that template is trimmed and holds every line of the resource behind its description. -/
theorem ofResource_source (r : Resource) :
    ofResource (.ofBytes r.path (ofResource r).source.toUTF8) = ofResource r ∧
      (ofResource r).Normal ∧
      ∃ description rest, Opening r.text.toList description rest ∧
        (ofResource r).Takes description rest := by
  obtain ⟨description, rest, hopening⟩ := exists_opening r.text.toList
  have hnormal := hopening.normal
  refine ⟨?_, hnormal, description, rest, hopening, hopening.takes⟩
  rw [ofResource_eq, text_ofBytes_source, hnormal.parts_source]
  rfl

end LuaGlue.Template

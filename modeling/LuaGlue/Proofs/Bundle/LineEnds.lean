import LuaGlue.Bundle
import LuaGlue.Proofs.Text.LineEnds
import Mathlib.Data.List.Forall2

/-!
# Resources with other line ends

A description, the lines of a body and those of a license are read without the white space at their
ends, and a carriage return is white space. So templates and licenses, and the tables of them, are
the same for resources that differ only in carriage returns in front of line feeds. Codes differ:
they embed every byte.
-/

namespace LuaGlue

open Text

namespace Resource

structure SameButReturns (r r' : Resource) : Prop where
  path : r.path = r'.path
  content : SameBytesButReturns r.content r'.content

variable {path : Path} {content content' : ByteArray} {r r' : Resource}

theorem dropMark_sameButReturns (h : SameBytesButReturns content content') :
    SameBytesButReturns (dropMark content) (dropMark content') := by
  apply SameButReturns.map_of_drop (f := fun bytes => (dropMark ⟨bytes.toArray⟩).data.toList) _ h
  intro front rest
  have hreturn : (13 : UInt8) ∉ byteOrderMark := by decide
  have hfeed : (10 : UInt8) ∉ byteOrderMark := by decide
  simp only [dropMark, List.isPrefixOf_iff_prefix, prefix_append_cons_iff hreturn,
    prefix_append_cons_iff hfeed]
  split_ifs with hmark
  · obtain ⟨back, rfl⟩ := hmark
    simp only [List.append_assoc, List.drop_left]
    exact .drop back rest
  · exact .drop front rest

theorem SameButReturns.ofBytes (path : Path) (h : SameBytesButReturns content content') :
    SameButReturns (ofBytes path content) (ofBytes path content') :=
  ⟨rfl, dropMark_sameButReturns h⟩

theorem SameButReturns.text (h : SameButReturns r r') : SameTextButReturns r.text r'.text :=
  decode_text_sameButReturns h.content

theorem SameButReturns.warnings (h : SameButReturns r r') : r.warnings = r'.warnings := by
  unfold Resource.warnings
  rw [decode_replaced_sameButReturns h.content, h.path]

end Resource

namespace Template

theorem bodyOf_drop (front rest : List Char) :
    bodyOf (String.ofList (front ++ '\r' :: '\n' :: rest)) =
      bodyOf (String.ofList (front ++ '\n' :: rest)) := by
  have hline : ∀ line : List Char, dropEndWhile isLineEnd (line ++ ['\r']) ++ ['\n'] =
      dropEndWhile isLineEnd line ++ ['\n'] := fun line => by
    rw [dropEndWhile_concat (by decide)]
  unfold bodyOf
  rw [String.toList_ofList, String.toList_ofList, List.flatMap_def, map_lines_drop hline,
    List.flatMap_def]

def parts (text : String) : String × String :=
  ((splitDescription text).1, bodyOf (splitDescription text).2)

theorem parts_drop (front rest : List Char) :
    parts (String.ofList (front ++ '\r' :: '\n' :: rest)) =
      parts (String.ofList (front ++ '\n' :: rest)) := by
  unfold parts splitDescription
  rw [String.toList_ofList, String.toList_ofList]
  by_cases hfeed : '\n' ∈ front
  · -- the first lines are the same
    obtain ⟨first, others, rfl, hfirst⟩ := List.eq_append_cons_of_mem hfeed
    simp only [List.append_assoc, List.cons_append, cutLine_append_feed hfirst]
    cases afterLead? ['-', '-'] first with
    | none =>
      have hbody := bodyOf_drop (first ++ '\n' :: others) rest
      simp only [List.append_assoc, List.cons_append] at hbody
      exact congrArg (Prod.mk "") hbody
    | some description => exact congrArg (Prod.mk _) (bodyOf_drop others rest)
  · have hback : front ++ '\r' :: '\n' :: rest = front ++ ['\r'] ++ '\n' :: rest := by simp
    have hfirst : '\n' ∉ front ++ ['\r'] := by simpa using hfeed
    have hlead : afterLead? ['-', '-'] (front ++ ['\r']) =
        (afterLead? ['-', '-'] front).map (· ++ ['\r']) :=
      afterLead?_append_cons (by decide) front []
    rw [cutLine_append_feed hfeed, hback, cutLine_append_feed hfirst]
    simp only [hlead]
    cases afterLead? ['-', '-'] front with
    | none =>
      rw [← hback]
      exact congrArg (Prod.mk "") (bodyOf_drop front rest)
    | some description =>
      simp only [Option.map_some, trimChars_concat (by decide : isBlank '\r' = true)]

theorem ofResource_eq (r : Resource) :
    ofResource r = ⟨r.path.folderName, r.path.stem, (parts r.text).1, (parts r.text).2⟩ := by
  unfold ofResource parts
  generalize splitDescription r.text = split
  rfl

theorem ofResource_sameButReturns {r r' : Resource} (h : r.SameButReturns r') :
    ofResource r = ofResource r' := by
  have hparts : parts r.text = parts r'.text := by
    have hchars := h.text.eq_of_drop (f := fun cs => parts (String.ofList cs)) parts_drop
    simpa only [String.ofList_toList] using hchars
  rw [ofResource_eq, ofResource_eq, hparts, h.path]

end Template

theorem License.ofResource_sameButReturns {r r' : Resource} (h : r.SameButReturns r') :
    License.ofResource r = License.ofResource r' := by
  have hline : ∀ line : List Char, String.ofList (trimEndChars (line ++ ['\r'])) =
      String.ofList (trimEndChars line) := fun line => by
    unfold trimEndChars
    rw [dropEndWhile_concat (by decide)]
  unfold License.ofResource
  rw [map_lines_sameButReturns hline h.text, h.path]

theorem map_eq_of_forall₂ {α β : Type} {R : α → α → Prop} (f : α → β)
    (hf : ∀ {x y}, R x y → f x = f y) {xs ys : List α} (h : List.Forall₂ R xs ys) :
    xs.map f = ys.map f := by
  induction h with
  | nil => rfl
  | cons hxy _ ih => rw [List.map_cons, List.map_cons, hf hxy, ih]

namespace Bundle

variable {kind : Bundle} {resources resources' : List Resource}

theorem render_sameButReturns (hkind : kind ≠ .codes)
    (h : List.Forall₂ Resource.SameButReturns resources resources') :
    kind.render resources = kind.render resources' := by
  cases kind with
  | templates =>
    exact congrArg Template.table
      (map_eq_of_forall₂ Template.ofResource Template.ofResource_sameButReturns h)
  | codes => exact absurd rfl hkind
  | licenses =>
    exact congrArg (License.table .standard)
      (map_eq_of_forall₂ License.ofResource License.ofResource_sameButReturns h)

theorem warnings_sameButReturns
    (h : List.Forall₂ Resource.SameButReturns resources resources') :
    kind.warnings resources = kind.warnings resources' := by
  have hwarnings := map_eq_of_forall₂ Resource.warnings Resource.SameButReturns.warnings h
  cases kind with
  | codes => rfl
  | _ =>
    unfold warnings
    rw [List.flatMap_def, hwarnings, List.flatMap_def]

end Bundle

end LuaGlue

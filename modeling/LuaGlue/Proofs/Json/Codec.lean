import LuaGlue.Json.Codec
import LuaGlue.Proofs.Json.Printed
import LuaGlue.Proofs.OrderedMap

/-!
# The data model is read back

What stands for a value of the data model as JSON is decoded as the value: a record by the names of
its fields, which are different, and a map entry by entry, so that its order is kept if its keys are
different. As these JSON values hold nothing but texts, arrays and objects, the value can be read
back from its text.
-/

namespace LuaGlue

namespace Json

structure ReadsBack {α : Type} (toJson : α → Json) (ofJson? : Json → Option α) (value : α) :
    Prop where
  compact : (Json.read? (toJson value).compact).bind ofJson? = some value
  pretty : (Json.read? (toJson value).pretty).bind ofJson? = some value

theorem Textual.readsBack {α : Type} {toJson : α → Json} {ofJson? : Json → Option α} {value : α}
    (h : (toJson value).Textual) (hdecoded : ofJson? (toJson value) = some value) :
    ReadsBack toJson ofJson? value := by
  refine ⟨?_, ?_⟩
  · rw [h.read?_compact, Option.bind_some, hdecoded]
  · have hread := h.read?_pretty "" nofun
    rw [String.append_empty] at hread
    rw [hread, Option.bind_some, hdecoded]

/-! ## Texts, lists and records -/

theorem text?_ofString (s : String) : (ofString s).text? = some s := by
  rw [ofString, text?, String.ofList_toList]

theorem textual_ofString (s : String) : (ofString s).Textual := .string s.toList

theorem mapM_eq_some {α β : Type} {f : α → Option β} {g : α → β} {xs : List α}
    (h : ∀ x ∈ xs, f x = some (g x)) : xs.mapM f = some (xs.map g) := by
  induction xs with
  | nil => rfl
  | cons x xs ih =>
    rw [List.mapM_cons, h x List.mem_cons_self,
      ih fun other hother => h other (List.mem_cons_of_mem x hother)]
    rfl

section

variable {α : Type} {toJson : α → Json} {ofJson? : Json → Option α}

theorem list?_array (xs : List α) (h : ∀ x ∈ xs, ofJson? (toJson x) = some x) :
    (array (xs.map toJson)).list? ofJson? = some xs := by
  have hdecoded := mapM_eq_some (f := ofJson? ∘ toJson) (g := id) h
  rw [list?, List.mapM_map, hdecoded, List.map_id]

theorem textual_array (xs : List α) (h : ∀ x ∈ xs, (toJson x).Textual) :
    (array (xs.map toJson)).Textual := by
  refine .array fun item hitem => ?_
  obtain ⟨x, hx, rfl⟩ := List.mem_map.1 hitem
  exact h x hx

end

def namedField (field : String × Json) : Option (List Char) × Json := (some field.1.toList, field.2)

theorem namedField_matches {field other : String × Json} :
    ((namedField field).1 == some other.1.toList) = true ↔ field.1 = other.1 := by
  rw [namedField, beq_iff_eq, Option.some_inj, String.toList_inj]

theorem field?_of_mem {fields : List (String × Json)} (distinct : (fields.map (·.1)).Nodup)
    {field : String × Json} (h : field ∈ fields) :
    field? (fields.map namedField) field.1 = some field.2 := by
  have honly : (fields.map namedField).filter (fun f => f.1 == some field.1.toList) =
      [namedField field] := by
    induction fields with
    | nil => cases h
    | cons first rest ih =>
      rw [List.map_cons, List.nodup_cons] at distinct
      rw [List.map_cons]
      rcases List.mem_cons.1 h with rfl | hrest
      · rw [List.filter_cons, if_pos (namedField_matches.2 rfl), List.filter_eq_nil_iff.2]
        intro f hf hsame
        obtain ⟨other, hother, rfl⟩ := List.mem_map.1 hf
        exact distinct.1 (namedField_matches.1 hsame ▸ List.mem_map_of_mem hother)
      · rw [List.filter_cons, if_neg, ih distinct.2 hrest]
        intro hsame
        exact distinct.1 (namedField_matches.1 hsame ▸ List.mem_map_of_mem hrest)
  rw [field?, honly]
  rfl

theorem ofFields_eq (fields : List (String × Json)) :
    ofFields fields = .object (fields.map namedField) := rfl

theorem record?_ofFields {fields : List (String × Json)} (distinct : (fields.map (·.1)).Nodup) :
    (ofFields fields).record? (fields.map (·.1)) = some (fields.map (·.2)) := by
  rw [ofFields_eq, record?, if_pos, List.mapM_map]
  · exact mapM_eq_some fun field hfield => field?_of_mem distinct hfield
  · simp [namedField]

theorem textual_ofFields {fields : List (String × Json)} (h : ∀ field ∈ fields, field.2.Textual) :
    (ofFields fields).Textual := by
  have hfields : ofFields fields = .object ((fields.map fun field =>
      (field.1.toList, field.2)).map fun field => (some field.1, field.2)) := by
    rw [List.map_map]
    rfl
  rw [hfields]
  refine .object fun field hfield => ?_
  obtain ⟨field, hmem, rfl⟩ := List.mem_map.1 hfield
  exact h field hmem

/-! ## Maps -/

section

variable {α : Type} {toJson : α → Json} {ofJson? : Json → Option α} {m : OrderedMap String α}

theorem map?_ofMap (distinct : m.keys.Nodup)
    (h : ∀ entry ∈ m, ofJson? (toJson entry.2) = some entry.2) :
    (ofMap toJson m).map? ofJson? = some m := by
  -- the entries that are done hold none of the keys to come, so each put goes to the end
  have hentries : ∀ (rest done : OrderedMap String α), (done ++ rest).keys.Nodup →
      (∀ entry ∈ rest, ofJson? (toJson entry.2) = some entry.2) →
      ((rest.map fun entry => (entry.1, toJson entry.2)).map namedField).foldlM
        (fun entries f => do
          let name ← f.1
          let value ← ofJson? f.2
          return OrderedMap.put (String.ofList name) value entries) done = some (done ++ rest) := by
    intro rest
    induction rest with
    | nil => simp
    | cons entry rest ih =>
      intro done hdistinct hdecoded
      have hnew : entry.1 ∉ OrderedMap.keys done := by
        rw [OrderedMap.keys, List.map_append, List.nodup_append] at hdistinct
        exact fun hold => hdistinct.2.2 _ hold _ List.mem_cons_self rfl
      have hsplit : done ++ entry :: rest = (done ++ [entry]) ++ rest := by simp
      rw [hsplit] at hdistinct ⊢
      rw [← ih (done ++ [entry]) hdistinct fun other hother =>
        hdecoded other (List.mem_cons_of_mem entry hother)]
      simp only [List.map_cons, List.foldlM_cons, namedField, hdecoded entry List.mem_cons_self,
        String.ofList_toList, Option.bind_eq_bind, Option.bind_some, Option.pure_def,
        OrderedMap.put_of_not_mem hnew]
  exact hentries m [] distinct h

theorem textual_ofMap (h : ∀ entry ∈ m, (toJson entry.2).Textual) : (ofMap toJson m).Textual := by
  refine textual_ofFields fun field hfield => ?_
  obtain ⟨entry, hentry, rfl⟩ := List.mem_map.1 hfield
  exact h entry hentry

end

end Json

open Json

/-! ## The data model -/

namespace Member

theorem ofJson?_toJson (m : Member) : ofJson? m.toJson = some m := by
  have hrecord : m.toJson.record? ["return_type", "name", "arg_types"] =
      some [.ofString m.returnType, .ofString m.name, .array (m.argTypes.map .ofString)] :=
    record?_ofFields (by simp)
  have htypes := list?_array m.argTypes fun s _ => text?_ofString s
  simp [ofJson?, hrecord, text?_ofString, htypes]

theorem textual_toJson (m : Member) : m.toJson.Textual := by
  have htypes := textual_array m.argTypes fun s _ => textual_ofString s
  refine textual_ofFields ?_
  simpa using ⟨textual_ofString m.returnType, textual_ofString m.name, htypes⟩

end Member

namespace Path

theorem ofJson?_toJson (p : Path) : ofJson? p.toJson = some p := by
  rw [toJson, ofJson?, text?_ofString, Option.map_some]

theorem textual_toJson (p : Path) : p.toJson.Textual := textual_ofString p.text

end Path

namespace HostType

theorem ofJson?_toJson (t : HostType) : ofJson? t.toJson = some t := by
  have hrecord : t.toJson.record? ["type_name", "sources", "members"] =
      some [.ofString t.name, .array (t.sources.map Path.toJson),
        .array (t.members.map Member.toJson)] :=
    record?_ofFields (by simp)
  have hsources := list?_array t.sources fun p _ => p.ofJson?_toJson
  have hmembers := list?_array t.members fun m _ => m.ofJson?_toJson
  simp [ofJson?, hrecord, text?_ofString, hsources, hmembers]

theorem textual_toJson (t : HostType) : t.toJson.Textual := by
  have hsources := textual_array t.sources fun p _ => p.textual_toJson
  have hmembers := textual_array t.members fun m _ => m.textual_toJson
  refine textual_ofFields ?_
  simpa using ⟨textual_ofString t.name, hsources, hmembers⟩

end HostType

namespace Catalog

theorem ofJson?_toJson {c : Catalog} (distinct : c.entries.keys.Nodup) :
    ofJson? c.toJson = some c := by
  have hrecord : c.toJson.record? ["types"] = some [.ofMap HostType.toJson c.entries] :=
    record?_ofFields (by simp)
  have htypes := map?_ofMap distinct fun entry _ => entry.2.ofJson?_toJson
  simp [ofJson?, hrecord, htypes]

theorem textual_toJson (c : Catalog) : c.toJson.Textual := by
  refine textual_ofFields ?_
  simpa using textual_ofMap (m := c.entries) fun entry _ => entry.2.textual_toJson

end Catalog

namespace Direction

theorem ofJson?_toJson (d : Direction) : ofJson? d.toJson = some d := by
  cases d <;> rfl

end Direction

namespace Conversion

theorem ofJson?_toJson (c : Conversion) : ofJson? c.toJson = some c := by
  have hrecord : c.toJson.record? ["type_name", "kind", "template"] =
      some [.ofString c.typeName, c.direction.toJson, .ofString c.template] :=
    record?_ofFields (by simp)
  simp [ofJson?, hrecord, text?_ofString, Direction.ofJson?_toJson]

theorem textual_toJson (c : Conversion) : c.toJson.Textual := by
  refine textual_ofFields ?_
  simpa using ⟨textual_ofString c.typeName, textual_ofString c.direction.word,
    textual_ofString c.template⟩

end Conversion

namespace ConversionTable

theorem ofJson?_toJson {t : ConversionTable} (distinct : t.entries.keys.Nodup) :
    ofJson? t.toJson = some t := by
  have hrecord : t.toJson.record? ["entries"] = some [.ofMap Conversion.toJson t.entries] :=
    record?_ofFields (by simp)
  have hentries := map?_ofMap distinct fun entry _ => entry.2.ofJson?_toJson
  simp [ofJson?, hrecord, hentries]

theorem textual_toJson (t : ConversionTable) : t.toJson.Textual := by
  refine textual_ofFields ?_
  simpa using textual_ofMap (m := t.entries) fun entry _ => entry.2.textual_toJson

end ConversionTable

namespace Conversions

theorem ofJson?_toJson {cs : Conversions} (hextract : cs.extract.entries.keys.Nodup)
    (hpush : cs.push.entries.keys.Nodup) : ofJson? cs.toJson = some cs := by
  have hrecord : cs.toJson.record? ["extract", "push"] =
      some [cs.extract.toJson, cs.push.toJson] :=
    record?_ofFields (by simp)
  simp [ofJson?, hrecord, ConversionTable.ofJson?_toJson hextract,
    ConversionTable.ofJson?_toJson hpush]

theorem textual_toJson (cs : Conversions) : cs.toJson.Textual := by
  refine textual_ofFields ?_
  simpa using ⟨cs.extract.textual_toJson, cs.push.textual_toJson⟩

end Conversions

end LuaGlue

import LuaGlue.Proofs.Conversion
import LuaGlue.Proofs.Header.Marshaling

/-!
# Templates filled with slots and values

A template that is accepted holds its placeholder. So the code that reads a slot has the decimal of
the slot in it and no placeholder is left, as in what pushes a result; and another slot has another
code, also if its decimal has another length. In a wrapper the slots tell apart the arguments that
one template reads. Two templates may meet in one code, with a slot where the other has a text.
-/

namespace LuaGlue

open Text

/-! ## Slots and results -/

theorem Text.beginsOutside_toString {other : List Char} (h : other.any Char.isDigit = false)
    (n : Nat) : BeginsOutside (toString n).toList other := by
  obtain ⟨c, rest, hsplit⟩ := List.exists_cons_of_ne_nil (toList_toString_ne_nil n)
  have hdigit : c.isDigit = true := isDigit_of_mem_toString (hsplit ▸ List.mem_cons_self)
  exact ⟨c, rest, hsplit, fun hmem => List.any_eq_false.1 h c hmem hdigit⟩

namespace Conversion

variable {direction : Direction} {typeName template : String}

theorem make?_eq_some_iff {c : Conversion} :
    make? direction typeName template = some c ↔
      c = ⟨typeName, direction, template⟩ ∧ StandsIn direction.placeholder template := by
  unfold make?
  rw [← holds_iff]
  split_ifs with h
  · simp only [Option.some.injEq, h, and_true, eq_comm]
  · simp only [h, and_false, reduceCtorEq]

variable (c : Conversion)

theorem expands_renderExtract (hholds : StandsIn "{slot}" c.template) (slot : Nat) :
    Expands c.template "{slot}" (toString slot) (c.renderExtract slot) := by
  apply expands_fill hholds
  · exact beginsOutside_toString (by decide) slot
  · exact ⟨'{', _, rfl, not_mem_toString (by decide) slot⟩

/-- Placeholders within braces, side by side, and one that is cut off. -/
example :
    (⟨"Foo", .extract, r"{{slot}}{slot}{slot"⟩ : Conversion).renderExtract 12 =
      r"{12}12{slot" := by
  decide +kernel

theorem expands_renderPush (hholds : StandsIn "{value}" c.template) :
    Expands c.template "{value}" "ret" (c.renderPush "ret") :=
  expands_fill hholds ⟨'r', _, rfl, by decide⟩ ⟨'{', _, rfl, by decide⟩

/-- The templates that hold the placeholder tell slots apart, and no others do. -/
theorem renderExtract_injective_iff :
    Function.Injective c.renderExtract ↔ StandsIn "{slot}" c.template := by
  have nonempty : "{slot}" ≠ "" := by decide
  constructor
  · intro h
    by_contra hlacks
    have hsame : c.renderExtract 0 = c.renderExtract 1 :=
      (fill_of_not_standsIn nonempty hlacks _).trans (fill_of_not_standsIn nonempty hlacks _).symm
    exact absurd (h hsame) (by decide)
  · exact fun hholds slot slot' h => toString_inj.1 (fill_injective nonempty hholds h)

end Conversion

/-! ## The arguments of a wrapper -/

theorem ConversionTable.WellFormed.standsIn_template {direction : Direction} {t : ConversionTable}
    (h : t.WellFormed direction) {typeName : String} {c : Conversion}
    (hget : t.get? typeName = some c) : StandsIn direction.placeholder c.template := by
  have hentry := OrderedMap.mem_of_get? hget
  have hholds := h.holdsPlaceholder _ hentry
  rwa [Conversion.HoldsPlaceholder, h.own_direction _ hentry] at hholds

namespace Member

/-- The conversion that reads a declared argument, if its type can be read. -/
def reader? (cs : Conversions) (m : Member) (index : Nat) : Option Conversion :=
  m.argTypes[index]?.bind cs.extract.get?

theorem mem_readings_iff {cs : Conversions} {m : Member} {index : Nat} {code : String} :
    (index, code) ∈ m.readings cs ↔
      ∃ c, m.reader? cs index = some c ∧ c.renderExtract (index + 2) = code := by
  unfold readings reader?
  rw [List.mem_filterMap]
  constructor
  · rintro ⟨⟨type, place⟩, hargument, hreading⟩
    obtain ⟨c, hc, hpair⟩ := Option.map_eq_some_iff.1 hreading
    obtain ⟨rfl, rfl⟩ := Prod.mk.inj hpair
    rw [List.mk_mem_zipIdx_iff_getElem?] at hargument
    exact ⟨c, by rw [hargument, Option.bind_some, hc], rfl⟩
  · rintro ⟨c, hc, rfl⟩
    obtain ⟨type, htype, hget⟩ := Option.bind_eq_some_iff.1 hc
    refine ⟨(type, index), List.mk_mem_zipIdx_iff_getElem?.2 htype, ?_⟩
    rw [reading?, hget, Option.map_some]

end Member

namespace Wrapper

variable (cs : Conversions) (owner : String) (m : Member)

theorem bindArgument_mem_ofMember_iff {index : Nat} {code : String} :
    .bindArgument index code ∈ (ofMember cs owner m).statements ↔
      (index, code) ∈ m.readings cs := by
  have hending : .bindArgument index code ∉
      (endingOf cs owner m (ofMember cs owner m).callArguments).statements := by
    intro hmem
    have hnone := (endingOf_fits cs owner m (ofMember cs owner m).callArguments).bindings
    exact absurd (List.filterMap_eq_nil_iff.1 hnone _ hmem) nofun
  rw [statements_ofMember]
  simp only [List.mem_append, List.mem_singleton, List.mem_map, reduceCtorEq, false_or, or_false,
    hending]
  constructor
  · rintro ⟨reading, hmem, hsame⟩
    obtain ⟨rfl, rfl⟩ := Statement.bindArgument.inj hsame
    exact hmem
  · exact fun hmem => ⟨(index, code), hmem, rfl⟩

/-- Arguments at different positions are bound to different codes. -/
def SeparatesArguments : Prop :=
  ∀ index index' code, .bindArgument index code ∈ (ofMember cs owner m).statements →
    .bindArgument index' code ∈ (ofMember cs owner m).statements → index = index'

/-- Arguments at different positions are bound to different codes, if one template reads them. -/
def SeparatesWithinTemplates : Prop :=
  ∀ index index' code, .bindArgument index code ∈ (ofMember cs owner m).statements →
    .bindArgument index' code ∈ (ofMember cs owner m).statements →
      (m.reader? cs index).map Conversion.template = (m.reader? cs index').map Conversion.template →
        index = index'

theorem separatesWithinTemplates_of_wellFormed (h : cs.extract.WellFormed .extract) :
    SeparatesWithinTemplates cs owner m := by
  intro index index' code hbound hbound' htemplate
  rw [bindArgument_mem_ofMember_iff, Member.mem_readings_iff] at hbound hbound'
  obtain ⟨c, hc, hcode⟩ := hbound
  obtain ⟨c', hc', hcode'⟩ := hbound'
  rw [hc, hc', Option.map_some, Option.map_some, Option.some_inj] at htemplate
  have hother : c'.renderExtract (index' + 2) = c.renderExtract (index' + 2) := by
    unfold Conversion.renderExtract
    rw [htemplate]
  have hslots : c.renderExtract (index + 2) = c.renderExtract (index' + 2) := by
    rw [hcode, ← hcode', hother]
  obtain ⟨type, -, hget⟩ := Option.bind_eq_some_iff.1 hc
  have hinjective := c.renderExtract_injective_iff.2 (h.standsIn_template hget)
  exact Nat.add_right_cancel (hinjective hslots)

end Wrapper

/-! ## Accepted templates -/

namespace Conversion

/-- An accepted template is expanded as a whole, in any slot and for a result, and in two slots it
gives two codes; so it tells apart the arguments that it reads in a wrapper, whatever conversions
were added. -/
theorem accepted_expands :
    (∀ typeName template c, make? .extract typeName template = some c →
      (∀ slot, Expands template "{slot}" (toString slot) (c.renderExtract slot)) ∧
        ∀ slot slot', slot ≠ slot' → c.renderExtract slot ≠ c.renderExtract slot') ∧
    (∀ typeName template c, make? .push typeName template = some c →
      Expands template "{value}" "ret" (c.renderPush "ret")) ∧
    ∀ (base : Conversions.Base) (wanted : List Conversion) (owner : String) (m : Member),
      Wrapper.SeparatesWithinTemplates (base.conversions.attemptAll wanted) owner m := by
  refine ⟨fun typeName template c hmake => ?_, fun typeName template c hmake => ?_,
    fun base wanted owner m => ?_⟩
  · obtain ⟨rfl, hholds⟩ := make?_eq_some_iff.1 hmake
    have hinjective := (renderExtract_injective_iff ⟨typeName, .extract, template⟩).2 hholds
    exact ⟨expands_renderExtract ⟨typeName, .extract, template⟩ hholds,
      fun slot slot' hslots => hinjective.ne hslots⟩
  · obtain ⟨rfl, hholds⟩ := make?_eq_some_iff.1 hmake
    exact expands_renderPush ⟨typeName, .push, template⟩ hholds
  · have htable := (Conversions.holdsLastWrites base wanted .extract).wellFormed
    exact Wrapper.separatesWithinTemplates_of_wellFormed _ owner m htable

def nestedReader : Conversion := ⟨"Vector2", .extract, "f({sl{slot}ot})"⟩

def bracedPusher : Conversion := ⟨"Vector2", .push, "f({{value}})"⟩

def moverStatements : List Statement :=
  (Wrapper.ofMember (Conversions.godot.attemptAll [nestedReader]) "Foo"
    ⟨"void", "move", ["Vector2", "int", "Vector2"]⟩).statements

theorem nestedReader_expands :
    make? .extract "Vector2" nestedReader.template = some nestedReader ∧
      Expands nestedReader.template "{slot}" "10" (nestedReader.renderExtract 10) ∧
      nestedReader.renderExtract 9 ≠ nestedReader.renderExtract 10 ∧
      make? .push "Vector2" bracedPusher.template = some bracedPusher ∧
      Expands bracedPusher.template "{value}" "ret" (bracedPusher.renderPush "ret") ∧
      .bindArgument 0 "f({sl2ot})" ∈ moverStatements ∧
      .bindArgument 2 "f({sl2ot})" ∉ moverStatements := by
  have hextract : make? .extract "Vector2" nestedReader.template = some nestedReader := by
    decide +kernel
  have hpush : make? .push "Vector2" bracedPusher.template = some bracedPusher := by decide +kernel
  have hfirst : .bindArgument 0 "f({sl2ot})" ∈ moverStatements := by decide +kernel
  obtain ⟨hslots, hapart⟩ := accepted_expands.1 _ _ _ hextract
  refine ⟨hextract, hslots 10, hapart 9 10 (by decide), hpush, accepted_expands.2.1 _ _ _ hpush,
    hfirst, fun hlast => ?_⟩
  have hsame := accepted_expands.2.2 .godot [nestedReader] "Foo" _ 0 2 _ hfirst hlast
    (by decide +kernel)
  exact absurd hsame (by decide)

/-- Two templates that meet in one code, with the slot of the other one written out. -/
def meetingReaders : List Conversion :=
  [⟨"X", .extract, "f({slot}, 3)"⟩, ⟨"Y", .extract, "f(2, {slot})"⟩]

/-- Arguments that two accepted templates read in different slots can have one code. -/
theorem meetingReaders_unseparated :
    (∀ c ∈ meetingReaders, make? .extract c.typeName c.template = some c) ∧
      ¬Wrapper.SeparatesArguments (Conversions.empty.attemptAll meetingReaders) "Foo"
        ⟨"void", "move", ["X", "Y"]⟩ := by
  refine ⟨by decide +kernel, fun hseparates => ?_⟩
  have hsame := hseparates 0 1 "f(2, 3)" (by decide +kernel) (by decide +kernel)
  exact absurd hsame (by decide)

end Conversion

end LuaGlue

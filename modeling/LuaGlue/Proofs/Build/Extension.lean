import LuaGlue.Proofs.Build.Strict
import LuaGlue.Proofs.Conversion
import LuaGlue.Proofs.Header.Marshaling
import Mathlib.Data.List.Flatten

/-!
# More conversions

Conversions that keep the templates of all types that are converted already only improve a header:
gaps go away and none comes, calls get more arguments and lose none, and what is registered stays.
Wrappers that need none of the new conversions stay as they are, and so does the header of a strict
build that succeeds.
-/

namespace LuaGlue

/-! ## Tables that agree with a smaller one -/

def ConversionTable.ExtendedBy (t t' : ConversionTable) : Prop :=
  ∀ type c, t.get? type = some c → ∃ c', t'.get? type = some c' ∧ c'.template = c.template

namespace ConversionTable

variable {t t' : ConversionTable}

theorem ExtendedBy.refl (t : ConversionTable) : t.ExtendedBy t :=
  fun _ c h => ⟨c, h, rfl⟩

theorem extendedBy_insert {c : Conversion} (hnew : c.typeName ∉ t.typeNames) :
    t.ExtendedBy (t.insert c) := by
  intro type old hold
  have hother : type ≠ c.typeName := by
    rintro rfl
    rw [get?_eq_none_iff.2 hnew] at hold
    cases hold
  refine ⟨old, ?_, rfl⟩
  rw [get?_insert, if_neg hother, hold]

theorem mem_typeNames_iff {type : String} : type ∈ t.typeNames ↔ ∃ c, t.get? type = some c := by
  rw [← Option.isSome_iff_exists, ← Option.ne_none_iff_isSome, ne_eq, get?_eq_none_iff, not_not]

theorem ExtendedBy.mem_typeNames (h : t.ExtendedBy t') {type : String}
    (hmem : type ∈ t.typeNames) : type ∈ t'.typeNames := by
  obtain ⟨c, hc⟩ := mem_typeNames_iff.1 hmem
  obtain ⟨c', hc', -⟩ := h type c hc
  exact mem_typeNames_iff.2 ⟨c', hc'⟩

/-- A type that is not new has the same template in both tables, or none. -/
theorem ExtendedBy.get?_cases (h : t.ExtendedBy t') {type : String}
    (hold : type ∈ t'.typeNames → type ∈ t.typeNames) :
    (∃ c c', t.get? type = some c ∧ t'.get? type = some c' ∧ c'.template = c.template) ∨
      (t.get? type = none ∧ t'.get? type = none) := by
  cases hget : t.get? type with
  | some c =>
    obtain ⟨c', hc', htemplate⟩ := h type c hget
    exact Or.inl ⟨c, c', rfl, hc', htemplate⟩
  | none =>
    have hmissing := mt hold (get?_eq_none_iff.1 hget)
    exact Or.inr ⟨rfl, get?_eq_none_iff.2 hmissing⟩

end ConversionTable

structure Conversions.ExtendedBy (cs cs' : Conversions) : Prop where
  extract : cs.extract.ExtendedBy cs'.extract
  push : cs.push.ExtendedBy cs'.push

/-- None of the types that a member mentions got a conversion that it did not have. -/
structure Member.Untouched (cs cs' : Conversions) (m : Member) : Prop where
  arguments : ∀ type ∈ m.argTypes, type ∈ cs'.extract.typeNames → type ∈ cs.extract.typeNames
  result : m.returnType ∈ cs'.push.typeNames → m.returnType ∈ cs.push.typeNames

structure Wrapper.ImprovedBy (w w' : Wrapper) : Prop where
  callArguments : w.callArguments.Sublist w'.callArguments
  bindings : (w.statements.filterMap Statement.binding?).Sublist
    (w'.statements.filterMap Statement.binding?)

namespace Conversions.ExtendedBy

variable {cs cs' : Conversions} (h : cs.ExtendedBy cs')

include h

/-! ## Gaps -/

theorem omissions_sublist (owner : String) (m : Member) :
    (m.omissions cs' owner).Sublist (m.omissions cs owner) := by
  refine List.Sublist.flatMap_right _ fun argument _ => ?_
  unfold Member.omission
  by_cases hmem : argument.1 ∈ cs.extract.typeNames
  · rw [if_pos hmem, if_pos (h.extract.mem_typeNames hmem)]
  · rw [if_neg hmem]
    split_ifs
    · exact List.nil_sublist _
    · exact List.Sublist.refl _

theorem opaqueReturns_sublist (owner : String) (m : Member) :
    (m.opaqueReturns cs' owner).Sublist (m.opaqueReturns cs owner) := by
  unfold Member.opaqueReturns
  by_cases hneeds : m.name = "__tostring" ∨ m.returnType = "void" ∨
      m.returnType ∈ cs.push.typeNames
  · rw [if_pos hneeds, if_pos (hneeds.imp id (Or.imp id h.push.mem_typeNames))]
  · rw [if_neg hneeds]
    split_ifs
    · exact List.nil_sublist _
    · exact List.Sublist.refl _

theorem lacks_sublist (c : Catalog) : (c.lacks cs').Sublist (c.lacks cs) := by
  refine List.Sublist.flatMap_right _ fun type _ => ?_
  refine List.Sublist.append (List.Sublist.flatMap_right _ fun m _ => ?_) (List.Sublist.refl _)
  unfold Member.lacks
  split_ifs
  · exact List.Sublist.refl _
  · exact (h.omissions_sublist type.name m).append (h.opaqueReturns_sublist type.name m)

theorem mapped {m : Member} (hmapped : m.Mapped cs) : m.Mapped cs' :=
  ⟨fun type htype => h.extract.mem_typeNames (hmapped.1 type htype),
    fun hvalue hname => h.push.mem_typeNames (hmapped.2 hvalue hname)⟩

/-! ## Wrappers -/

theorem reading?_eq_some {argument : String × Nat} {reading : Nat × String}
    (hreading : Member.reading? cs argument = some reading) :
    Member.reading? cs' argument = some reading := by
  obtain ⟨c, hc, rfl⟩ := Option.map_eq_some_iff.1 hreading
  obtain ⟨c', hc', htemplate⟩ := h.extract argument.1 c hc
  rw [Member.reading?, hc', Option.map_some, Conversion.renderExtract, htemplate]
  rfl

/-- More arguments are read, and those that were read before are read as before. -/
theorem readings_sublist (m : Member) : (m.readings cs).Sublist (m.readings cs') := by
  unfold Member.readings
  rw [List.filterMap_eq_flatMap_toList, List.filterMap_eq_flatMap_toList]
  refine List.Sublist.flatMap_right _ fun argument _ => ?_
  cases hreading : Member.reading? cs argument with
  | none => exact List.nil_sublist _
  | some reading => rw [h.reading?_eq_some hreading]

theorem argumentsOf_eq {m : Member}
    (hold : ∀ type ∈ m.argTypes, type ∈ cs'.extract.typeNames → type ∈ cs.extract.typeNames) :
    Wrapper.argumentsOf cs' m = Wrapper.argumentsOf cs m := by
  unfold Wrapper.argumentsOf
  refine List.map_congr_left fun ⟨type, index⟩ hargument => ?_
  have htype : type ∈ m.argTypes := (List.mem_zipIdx' hargument).2 ▸ List.getElem_mem _
  rcases h.extract.get?_cases (hold type htype) with ⟨c, c', hc, hc', htemplate⟩ | ⟨hc, hc'⟩
  · simp only [hc, hc', Option.map_some, Conversion.renderExtract, htemplate]
  · simp only [hc, hc']

/-- A member that returns nothing or the text of its value needs no conversion for its result. -/
theorem endingOf_eq {m : Member} (hold : m.name ≠ "__tostring" → m.returnType ≠ "void" →
      m.returnType ∈ cs'.push.typeNames → m.returnType ∈ cs.push.typeNames)
    (owner : String) (locals : List String) :
    Wrapper.endingOf cs' owner m locals = Wrapper.endingOf cs owner m locals := by
  unfold Wrapper.endingOf
  by_cases htext : m.isTostring = true
  · rw [if_pos htext, if_pos htext]
  by_cases hvoid : m.isVoid = true
  · rw [if_neg htext, if_neg htext, if_pos hvoid, if_pos hvoid]
  rw [if_neg htext, if_neg htext, if_neg hvoid, if_neg hvoid]
  have hresult := hold (mt beq_iff_eq.2 htext) (mt beq_iff_eq.2 hvoid)
  rcases h.push.get?_cases hresult with ⟨c, c', hc, hc', htemplate⟩ | ⟨hc, hc'⟩
  · simp only [hc, hc', Conversion.renderPush, htemplate]
  · simp only [hc, hc']

theorem ofMember_eq {m : Member}
    (harguments : ∀ type ∈ m.argTypes,
      type ∈ cs'.extract.typeNames → type ∈ cs.extract.typeNames)
    (hresult : m.name ≠ "__tostring" → m.returnType ≠ "void" →
      m.returnType ∈ cs'.push.typeNames → m.returnType ∈ cs.push.typeNames) (owner : String) :
    Wrapper.ofMember cs' owner m = Wrapper.ofMember cs owner m := by
  simp only [Wrapper.ofMember, h.argumentsOf_eq harguments, h.endingOf_eq hresult]

/-- A member that is mapped already keeps its wrapper. -/
theorem ofMember_eq_of_mapped {m : Member} (hmapped : m.Mapped cs) (owner : String) :
    Wrapper.ofMember cs' owner m = Wrapper.ofMember cs owner m :=
  h.ofMember_eq (fun type htype _ => hmapped.1 type htype)
    (fun hname hvalue _ => hmapped.2 hvalue hname) owner

theorem ofMember_improvedBy (owner : String) (m : Member) :
    (Wrapper.ofMember cs owner m).ImprovedBy (Wrapper.ofMember cs' owner m) := by
  have hbindings := (h.readings_sublist m).map Member.binding
  constructor
  · rw [Wrapper.callArguments_ofMember, Wrapper.callArguments_ofMember, ← Member.names_bindings,
      ← Member.names_bindings]
    exact hbindings.map _
  · rw [Wrapper.bindings_ofMember, Wrapper.bindings_ofMember]
    exact hbindings

end Conversions.ExtendedBy

/-! ## Headers -/

theorem Wrapper.map_allOf_congr {β : Type} {cs cs' : Conversions} {owner : String}
    {members : List Member} (f : Wrapper → β)
    (h : ∀ m ∈ members, f (ofMember cs' owner m) = f (ofMember cs owner m)) :
    (allOf cs' owner members).map f = (allOf cs owner members).map f := by
  unfold allOf
  rw [List.map_append, List.map_append, List.map_map, List.map_map]
  congr 1
  exact List.map_congr_left fun m hm => h m (List.mem_of_mem_filter hm)

structure Header.ImprovedBy (h h' : Header) : Prop where
  gaps : h'.gaps.Sublist h.gaps
  wrapperCounts : h'.wrapperCounts = h.wrapperCounts
  registrations : h'.sections.map (·.registration.text) = h.sections.map (·.registration.text)
  umbrella : Umbrella.text h'.typeNames = Umbrella.text h.typeNames

namespace Header

variable {cs cs' : Conversions}

theorem map_sections_congr {β : Type} {style : HeaderStyle} {c : Catalog} (f : Section → β)
    (h : ∀ type ∈ c.types, f (Section.ofType cs' type) = f (Section.ofType cs type)) :
    (ofCatalog cs' style c).sections.map f = (ofCatalog cs style c).sections.map f := by
  unfold ofCatalog
  rw [List.map_map, List.map_map]
  exact List.map_congr_left h

theorem ofCatalog_improvedBy (h : cs.ExtendedBy cs') (style : HeaderStyle) (c : Catalog) :
    (ofCatalog cs style c).ImprovedBy (ofCatalog cs' style c) := by
  have hentries : ∀ type : HostType,
      (Section.ofType cs' type).wrappers.map (fun w => (w.member, w.functionName)) =
        (Section.ofType cs type).wrappers.map fun w => (w.member, w.functionName) :=
    fun type => Wrapper.map_allOf_congr _ fun _ _ => rfl
  refine ⟨?_, map_sections_congr _ fun type _ => ?_, map_sections_congr _ fun type _ => ?_,
    congrArg Umbrella.text (map_sections_congr _ fun type _ => rfl)⟩
  · rw [gaps_ofCatalog, gaps_ofCatalog]
    exact h.lacks_sublist c
  · have hlength := congrArg List.length (hentries type)
    rw [List.length_map, List.length_map] at hlength
    exact congrArg (Prod.mk type.name) hlength
  · exact congrArg (fun entries => (Registration.mk type.name entries).text) (hentries type)

theorem section_eq_of_mapped (h : cs.ExtendedBy cs') {type : HostType} (hmapped : type.Mapped cs) :
    Section.ofType cs' type = Section.ofType cs type := by
  have hwrappers : (Wrapper.allOf cs' type.name type.members).map id =
      (Wrapper.allOf cs type.name type.members).map id :=
    Wrapper.map_allOf_congr id fun m hm => h.ofMember_eq_of_mapped (hmapped m hm).2 type.name
  rw [List.map_id, List.map_id] at hwrappers
  exact congrArg (Section.mk type.name) hwrappers

/-- The header of a catalog that is mapped already stays as it is. -/
theorem ofCatalog_eq_of_mapped (h : cs.ExtendedBy cs') {c : Catalog}
    (hmapped : ∀ type ∈ c.types, type.Mapped cs) (style : HeaderStyle) :
    ofCatalog cs' style c = ofCatalog cs style c :=
  congrArg (Header.mk style)
    (List.map_congr_left fun type htype => section_eq_of_mapped h (hmapped type htype))

end Header

/-! ## Builds -/

namespace HeaderBuild

def withConversions (b : HeaderBuild) (cs : Conversions) : HeaderBuild :=
  { b with conversions := cs }

theorem generate_strictly_eq_ok_iff {b : HeaderBuild} {t : FileTree} {p : Product} :
    (b.strictly.generate.run t).result = .ok p ↔
      ∃ c, ((scan b.sources).run t).result = .ok c ∧
        (∀ type ∈ c.types, type.Mapped b.conversions) ∧ b.productFor c = p := by
  cases hscan : ((scan b.sources).run t).result with
  | error failure =>
    rw [generate_run_of_error (b := b.strictly) hscan]
    exact ⟨nofun, fun ⟨_, hc, _⟩ => nomatch hc⟩
  | ok c =>
    have hmapped : Gap.firstFailure? (c.lacks b.conversions) = none ↔
        ∀ type ∈ c.types, type.Mapped b.conversions := by
      rw [Gap.firstFailure?_eq_none_iff, Catalog.lacks_eq_nil_iff]
    simp only [generate_strictly_of_scan hscan, Except.ok.injEq, exists_eq_left', ← hmapped]
    cases Gap.firstFailure? (c.lacks b.conversions) <;> simp

/-- A strict build that succeeds makes the same with more conversions. -/
theorem generate_strictly_extended {cs cs' : Conversions} (h : cs.ExtendedBy cs')
    {b : HeaderBuild} {t : FileTree} {p : Product}
    (hp : ((b.withConversions cs).strictly.generate.run t).result = .ok p) :
    ((b.withConversions cs').strictly.generate.run t).result = .ok p := by
  obtain ⟨c, hscan, hmapped, rfl⟩ := generate_strictly_eq_ok_iff.1 hp
  have hheader := Header.ofCatalog_eq_of_mapped h hmapped b.style
  refine generate_strictly_eq_ok_iff.2 ⟨c, hscan, ?_, ?_⟩
  · exact fun type htype m hm => ⟨(hmapped type htype m hm).1, h.mapped (hmapped type htype m hm).2⟩
  · exact congrArg b.productOf hheader

end HeaderBuild

namespace Conversions

structure Improves (cs cs' : Conversions) : Prop where
  header : ∀ (style : HeaderStyle) (c : Catalog) (t : FileTree), ∃ h h',
    (Header.emit cs style c : Job Failure Header).Ends t h t ∧
      (Header.emit cs' style c : Job Failure Header).Ends t h' t ∧ h.ImprovedBy h'
  wrapper : ∀ (owner : String) (m : Member),
    (Wrapper.ofMember cs owner m).ImprovedBy (Wrapper.ofMember cs' owner m)
  unchanged : ∀ (owner : String) (m : Member), m.Untouched cs cs' →
    Wrapper.ofMember cs' owner m = Wrapper.ofMember cs owner m
  strict : ∀ (b : HeaderBuild) (t : FileTree) (p : HeaderBuild.Product),
    ((b.withConversions cs).strictly.generate.run t).result = .ok p →
      ((b.withConversions cs').strictly.generate.run t).result = .ok p

/-- Conversions that keep all templates improve on those that they extend. -/
theorem ExtendedBy.improves {cs cs' : Conversions} (h : cs.ExtendedBy cs') : cs.Improves cs' where
  header style c t := by
    have hends : ∀ cs : Conversions,
        (Header.emit cs style c : Job Failure Header).Ends t (Header.ofCatalog cs style c) t := by
      intro cs
      rw [Job.Ends, Header.run_emit]
      exact ⟨rfl, rfl⟩
    exact ⟨_, _, hends cs, hends cs', Header.ofCatalog_improvedBy h style c⟩
  wrapper := h.ofMember_improvedBy
  unchanged owner _ huntouched :=
    h.ofMember_eq huntouched.arguments (fun _ _ => huntouched.result) owner
  strict _ _ _ := HeaderBuild.generate_strictly_extended h

def readingVectors : Conversions where
  extract := godot.extract.insert ⟨"Vector2", .extract, "lua_to_godot_vector2(L, {slot})"⟩
  push := godot.push

theorem godot_extendedBy_readingVectors : godot.ExtendedBy readingVectors :=
  ⟨ConversionTable.extendedBy_insert (by decide), ConversionTable.ExtendedBy.refl _⟩

theorem readingVectors_improves : godot.ExtendedBy readingVectors ∧ godot.Improves readingVectors :=
  ⟨godot_extendedBy_readingVectors, godot_extendedBy_readingVectors.improves⟩

/-- The first of two arguments gets a conversion, and the second keeps its local. -/
example :
    let m : Member := ⟨"void", "draw_text", ["Vector2", "String"]⟩
    (Wrapper.ofMember godot "Canvas" m).callArguments = ["arg1"] ∧
      (Wrapper.ofMember readingVectors "Canvas" m).callArguments = ["arg0", "arg1"] := by
  decide +kernel

end Conversions

end LuaGlue

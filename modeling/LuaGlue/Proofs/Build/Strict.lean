import LuaGlue.Proofs.Build.Generation
import LuaGlue.Proofs.Header.Gaps

/-!
# Strict builds

A strict build ends like a permissive one if everything that the sources declare has a conversion.
Otherwise it fails with the first offence: types in the order of the catalog, members in the order
of their declaration, arguments before the result, and a declared finalizer only after the other
members of its type.
-/

namespace LuaGlue

namespace Member

/-- Every argument of a member can be read, and its result, if it has one that needs a conversion,
can be pushed. -/
def Mapped (cs : Conversions) (m : Member) : Prop :=
  (∀ type ∈ m.argTypes, type ∈ cs.extract.typeNames) ∧
    (m.returnType ≠ "void" → m.name ≠ "__tostring" → m.returnType ∈ cs.push.typeNames)

/-- The first offence in a member that is called. -/
inductive FirstOffence (cs : Conversions) (owner : String) (m : Member) : Failure → Prop
  | argument {earlier later : List String} {type : String}
      (split : m.argTypes = earlier ++ type :: later)
      (mapped : ∀ other ∈ earlier, other ∈ cs.extract.typeNames)
      (unmapped : type ∉ cs.extract.typeNames) :
      FirstOffence cs owner m (.unsupported owner m.name type (.argument earlier.length))
  | result (mapped : ∀ type ∈ m.argTypes, type ∈ cs.extract.typeNames)
      (value : m.returnType ≠ "void") (converted : m.name ≠ "__tostring")
      (unmapped : m.returnType ∉ cs.push.typeNames) :
      FirstOffence cs owner m (.unsupported owner m.name m.returnType .returnValue)

end Member

namespace HostType

def Mapped (cs : Conversions) (t : HostType) : Prop :=
  ∀ m ∈ t.members, m.name ≠ "__gc" ∧ m.Mapped cs

/-- The first offence in a type. Declared finalizers are passed over until all other members are
found to be mapped. -/
inductive FirstOffence (cs : Conversions) (t : HostType) : Failure → Prop
  | member {earlier later : List Member} {m : Member} {failure : Failure}
      (split : t.members = earlier ++ m :: later)
      (mapped : ∀ other ∈ earlier, other.name ≠ "__gc" → other.Mapped cs)
      (called : m.name ≠ "__gc") (offence : m.FirstOffence cs t.name failure) :
      FirstOffence cs t failure
  | finalizer (mapped : ∀ m ∈ t.members, m.name ≠ "__gc" → m.Mapped cs)
      (declared : ∃ m ∈ t.members, m.name = "__gc") :
      FirstOffence cs t (.unsupported t.name "__gc" t.name .declaredFinalizer)

def FirstOffenceIn (cs : Conversions) (types : List HostType) (failure : Failure) : Prop :=
  ∃ earlier t later, types = earlier ++ t :: later ∧ (∀ other ∈ earlier, other.Mapped cs) ∧
    t.FirstOffence cs failure

end HostType

/-! ## The first gap is the first offence -/

def Gap.firstFailure? (gaps : List Gap) : Option Failure := gaps.head?.map Gap.failure

namespace Gap

theorem firstFailure?_append (gaps more : List Gap) :
    firstFailure? (gaps ++ more) = (firstFailure? gaps).or (firstFailure? more) := by
  unfold firstFailure?
  rw [List.head?_append, Option.map_or]

theorem firstFailure?_eq_none_iff {gaps : List Gap} : firstFailure? gaps = none ↔ gaps = [] := by
  unfold firstFailure?
  rw [Option.map_eq_none_iff, List.head?_eq_none_iff]

/-- The first gap of a concatenation is the first of the first part that has any. -/
theorem firstFailure?_flatMap_eq_some_iff {α : Type} {parts : List α} {gaps : α → List Gap}
    {failure : Failure} :
    firstFailure? (parts.flatMap gaps) = some failure ↔
      ∃ earlier part later, parts = earlier ++ part :: later ∧
        (∀ other ∈ earlier, gaps other = []) ∧ firstFailure? (gaps part) = some failure := by
  have hparts : firstFailure? (parts.flatMap gaps) =
      parts.findSome? fun part => firstFailure? (gaps part) := by
    unfold firstFailure?
    rw [List.head?_flatMap, List.map_findSome?]
    rfl
  rw [hparts, List.findSome?_eq_some_iff]
  simp only [firstFailure?_eq_none_iff]
  constructor
  · rintro ⟨earlier, part, later, hsplit, hfirst, hnone⟩
    exact ⟨earlier, part, later, hsplit, hnone, hfirst⟩
  · rintro ⟨earlier, part, later, hsplit, hnone, hfirst⟩
    exact ⟨earlier, part, later, hsplit, hfirst, hnone⟩

end Gap

namespace Member

theorem omission_eq_nil_iff {cs : Conversions} {owner : String} {m : Member}
    {argument : String × Nat} :
    m.omission cs owner argument = [] ↔ argument.1 ∈ cs.extract.typeNames := by
  unfold omission
  split_ifs with h
  · exact ⟨fun _ => h, fun _ => rfl⟩
  · exact ⟨nofun, fun hmapped => absurd hmapped h⟩

/-- Where the arguments stand does not matter for whether they can be read. -/
theorem forall_omission_eq_nil_iff {cs : Conversions} {owner : String} {m : Member}
    {types : List String} :
    (∀ argument ∈ types.zipIdx, m.omission cs owner argument = []) ↔
      ∀ type ∈ types, type ∈ cs.extract.typeNames := by
  have hmap := List.forall_mem_map (f := Prod.fst) (l := types.zipIdx)
    (P := fun type => type ∈ cs.extract.typeNames)
  rw [List.zipIdx_map_fst] at hmap
  simp only [omission_eq_nil_iff]
  exact hmap.symm

theorem omissions_eq_nil_iff {cs : Conversions} {owner : String} {m : Member} :
    m.omissions cs owner = [] ↔ ∀ type ∈ m.argTypes, type ∈ cs.extract.typeNames := by
  unfold omissions
  rw [List.flatMap_eq_nil_iff, forall_omission_eq_nil_iff]

theorem firstFailure?_omission_eq_some_iff {cs : Conversions} {owner : String} {m : Member}
    {argument : String × Nat} {failure : Failure} :
    Gap.firstFailure? (m.omission cs owner argument) = some failure ↔
      argument.1 ∉ cs.extract.typeNames ∧
        failure = .unsupported owner m.name argument.1 (.argument argument.2) := by
  unfold omission
  split_ifs with h
  · exact ⟨nofun, fun hunmapped => absurd h hunmapped.1⟩
  · exact ⟨fun hfirst => ⟨h, (Option.some.inj hfirst).symm⟩, fun hfailure => by rw [hfailure.2]; rfl⟩

theorem firstFailure?_omissions_eq_some_iff {cs : Conversions} {owner : String} {m : Member}
    {failure : Failure} :
    Gap.firstFailure? (m.omissions cs owner) = some failure ↔
      ∃ earlier type later, m.argTypes = earlier ++ type :: later ∧
        (∀ other ∈ earlier, other ∈ cs.extract.typeNames) ∧ type ∉ cs.extract.typeNames ∧
        failure = .unsupported owner m.name type (.argument earlier.length) := by
  unfold omissions
  rw [Gap.firstFailure?_flatMap_eq_some_iff]
  simp only [firstFailure?_omission_eq_some_iff]
  constructor
  · -- a split of the numbered arguments is one of the arguments, and its first part gives the index
    rintro ⟨before, ⟨type, index⟩, after, hsplit, hnone, hunmapped, hfailure⟩
    obtain ⟨earlier, rest, hrest, rfl, hafter⟩ := List.zipIdx_eq_append_iff.1 hsplit
    obtain ⟨first, later, rfl, hfirst, -⟩ := List.zipIdx_eq_cons_iff.1 hafter.symm
    obtain ⟨rfl, rfl⟩ := Prod.mk.inj hfirst
    rw [Nat.zero_add] at hfailure
    exact ⟨earlier, type, later, hrest, forall_omission_eq_nil_iff.1 hnone, hunmapped, hfailure⟩
  · rintro ⟨earlier, type, later, hsplit, hmapped, hunmapped, hfailure⟩
    refine ⟨earlier.zipIdx, (type, earlier.length), later.zipIdx (earlier.length + 1), ?_,
      forall_omission_eq_nil_iff.2 hmapped, hunmapped, hfailure⟩
    rw [hsplit, List.zipIdx_append, List.zipIdx_cons, Nat.zero_add]

theorem opaqueReturns_eq_nil_iff {cs : Conversions} {owner : String} {m : Member} :
    m.opaqueReturns cs owner = [] ↔
      (m.returnType ≠ "void" → m.name ≠ "__tostring" → m.returnType ∈ cs.push.typeNames) := by
  unfold opaqueReturns
  split_ifs with h
  · refine ⟨fun _ hvalue hconverted => ?_, fun _ => rfl⟩
    exact (h.resolve_left hconverted).resolve_left hvalue
  · rw [not_or, not_or] at h
    exact ⟨nofun, fun hmapped => absurd (hmapped h.2.1 h.1) h.2.2⟩

theorem lacks_eq_nil_iff {cs : Conversions} {owner : String} {m : Member} :
    m.lacks cs owner = [] ↔ (m.name ≠ "__gc" → m.Mapped cs) := by
  unfold lacks Mapped
  split_ifs with h
  · exact ⟨fun _ hcalled => absurd h hcalled, fun _ => rfl⟩
  · rw [List.append_eq_nil_iff, omissions_eq_nil_iff, opaqueReturns_eq_nil_iff]
    exact ⟨fun hmapped _ => hmapped, fun hmapped => hmapped h⟩

theorem firstFailure?_lacks_eq_some_iff {cs : Conversions} {owner : String} {m : Member}
    {failure : Failure} :
    Gap.firstFailure? (m.lacks cs owner) = some failure ↔
      m.name ≠ "__gc" ∧ m.FirstOffence cs owner failure := by
  unfold lacks
  split_ifs with hfinalizer
  · exact ⟨nofun, fun h => absurd hfinalizer h.1⟩
  · rw [Gap.firstFailure?_append, Option.or_eq_some_iff, Gap.firstFailure?_eq_none_iff,
      omissions_eq_nil_iff, firstFailure?_omissions_eq_some_iff]
    constructor
    · rintro (⟨earlier, type, later, hsplit, hmapped, hunmapped, rfl⟩ | ⟨hmapped, hresult⟩)
      · exact ⟨hfinalizer, .argument hsplit hmapped hunmapped⟩
      · unfold opaqueReturns at hresult
        split_ifs at hresult with h
        · cases hresult
        · rw [not_or, not_or] at h
          cases hresult
          exact ⟨hfinalizer, .result hmapped h.2.1 h.1 h.2.2⟩
    · rintro ⟨-, hoffence⟩
      cases hoffence with
      | argument hsplit hmapped hunmapped =>
        exact Or.inl ⟨_, _, _, hsplit, hmapped, hunmapped, rfl⟩
      | result hmapped hvalue hconverted hunmapped =>
        refine Or.inr ⟨hmapped, ?_⟩
        rw [opaqueReturns, if_neg (by simp [hvalue, hconverted, hunmapped])]
        rfl

end Member

namespace HostType

theorem lacks_eq_nil_iff {cs : Conversions} {t : HostType} : t.lacks cs = [] ↔ t.Mapped cs := by
  unfold lacks Mapped
  rw [List.append_eq_nil_iff, List.flatMap_eq_nil_iff]
  simp only [Member.lacks_eq_nil_iff]
  constructor
  · rintro ⟨hmapped, hdeclared⟩ m hm
    have hcalled : m.name ≠ "__gc" := by
      intro hname
      rw [if_pos ⟨m, hm, hname⟩] at hdeclared
      cases hdeclared
    exact ⟨hcalled, hmapped m hm hcalled⟩
  · intro h
    refine ⟨fun m hm _ => (h m hm).2, if_neg ?_⟩
    rintro ⟨m, hm, hname⟩
    exact (h m hm).1 hname

theorem firstFailure?_lacks_eq_some_iff {cs : Conversions} {t : HostType} {failure : Failure} :
    Gap.firstFailure? (t.lacks cs) = some failure ↔ t.FirstOffence cs failure := by
  unfold lacks
  rw [Gap.firstFailure?_append, Option.or_eq_some_iff, Gap.firstFailure?_eq_none_iff,
    Gap.firstFailure?_flatMap_eq_some_iff, List.flatMap_eq_nil_iff]
  simp only [Member.lacks_eq_nil_iff, Member.firstFailure?_lacks_eq_some_iff]
  constructor
  · rintro (⟨earlier, m, later, hsplit, hmapped, hcalled, hoffence⟩ | ⟨hmapped, hlast⟩)
    · exact .member hsplit hmapped hcalled hoffence
    · split_ifs at hlast with hdeclared
      · cases hlast
        exact .finalizer hmapped hdeclared
      · cases hlast
  · intro hoffence
    cases hoffence with
    | member hsplit hmapped hcalled hoffence =>
      exact Or.inl ⟨_, _, _, hsplit, hmapped, hcalled, hoffence⟩
    | finalizer hmapped hdeclared =>
      refine Or.inr ⟨hmapped, ?_⟩
      rw [if_pos hdeclared]
      rfl

end HostType

namespace Catalog

theorem lacks_eq_nil_iff {cs : Conversions} {c : Catalog} :
    c.lacks cs = [] ↔ ∀ t ∈ c.types, t.Mapped cs := by
  unfold lacks
  rw [List.flatMap_eq_nil_iff]
  simp only [HostType.lacks_eq_nil_iff]

theorem firstFailure?_lacks_eq_some_iff {cs : Conversions} {c : Catalog} {failure : Failure} :
    Gap.firstFailure? (c.lacks cs) = some failure ↔
      HostType.FirstOffenceIn cs c.types failure := by
  unfold lacks HostType.FirstOffenceIn
  rw [Gap.firstFailure?_flatMap_eq_some_iff]
  simp only [HostType.lacks_eq_nil_iff, HostType.firstFailure?_lacks_eq_some_iff]

end Catalog

namespace HeaderBuild

def strictly (b : HeaderBuild) : HeaderBuild := { b with strict := true }

def permissively (b : HeaderBuild) : HeaderBuild := { b with strict := false }

theorem verdict_permissively (b : HeaderBuild) (c : Catalog) :
    b.permissively.verdict c = .ok (b.productFor c) := rfl

theorem verdict_strictly (b : HeaderBuild) (c : Catalog) :
    b.strictly.verdict c =
      match Gap.firstFailure? (c.lacks b.conversions) with
      | some failure => .error failure
      | none => .ok (b.productFor c) := by
  have hobstacle : b.strictly.obstacle? (b.strictly.productFor c) =
      (c.lacks b.conversions).head? := by
    rw [← Header.gaps_ofCatalog b.conversions b.style c]
    rfl
  unfold verdict Gap.firstFailure?
  rw [hobstacle]
  cases (c.lacks b.conversions).head? <;> rfl

theorem generate_strictly_of_scan {b : HeaderBuild} {t : FileTree} {c : Catalog}
    (h : ((scan b.sources).run t).result = .ok c) :
    (b.strictly.generate.run t).result =
      match Gap.firstFailure? (c.lacks b.conversions) with
      | some failure => .error failure
      | none => .ok (b.productFor c) := by
  rw [← verdict_strictly, generate_result]
  change ((scan b.sources).run t).result.bind _ = _
  rw [h]
  rfl

theorem generate_permissively_of_scan {b : HeaderBuild} {t : FileTree} {c : Catalog}
    (h : ((scan b.sources).run t).result = .ok c) :
    (b.permissively.generate.run t).result = .ok (b.productFor c) := by
  rw [← verdict_permissively, generate_result]
  change ((scan b.sources).run t).result.bind _ = _
  rw [h]
  rfl

def DeclaresMapped (b : HeaderBuild) (t : FileTree) : Prop :=
  ∀ type ∈ declaredTypes t b.sources, type.Mapped b.conversions

/-- A strict build ends like the permissive one, but for the first offence. -/
structure StrictRefines (b : HeaderBuild) (t : FileTree) : Prop where
  ok_iff : ∀ p, (b.strictly.generate.run t).result = .ok p ↔
    (b.permissively.generate.run t).result = .ok p ∧ b.DeclaresMapped t
  same_error : ∀ failure, (b.permissively.generate.run t).result = .error failure →
    (b.strictly.generate.run t).result = .error failure
  /-- There is one first offence, and the strict build fails with it. -/
  first_offence : ∀ p, (b.permissively.generate.run t).result = .ok p → ¬b.DeclaresMapped t →
    ∃ failure, (b.strictly.generate.run t).result = .error failure ∧
      ∀ other, HostType.FirstOffenceIn b.conversions (declaredTypes t b.sources) other ↔
        other = failure
  untouched : ∀ failure, (b.strictly.generate.run t).result = .error failure →
    (b.strictly.build.run t).tree = t ∧
      (b.headerPath? ≠ none → (b.strictly.build.run t).result = .error failure)

/-- Whatever the sources hold, a strict build is the permissive one with the first offence as its
failure. -/
theorem strict_refines (b : HeaderBuild) (t : FileTree) : b.StrictRefines t := by
  have huntouched := fun failure
      (h : (b.strictly.generate.run t).result = .error failure) => build_of_generate_error h
  cases hscan : ((scan b.sources).run t).result with
  | error failure =>
    -- nothing is generated, so strictness is never asked for
    have hstrict : (b.strictly.generate.run t).result = .error failure := by
      rw [generate_run_of_error (b := b.strictly) hscan]
    have hpermissive : (b.permissively.generate.run t).result = .error failure := by
      rw [generate_run_of_error (b := b.permissively) hscan]
    refine ⟨?_, ?_, ?_, huntouched⟩
    · intro p
      rw [hstrict, hpermissive]
      exact ⟨nofun, nofun⟩
    · intro other h
      rw [hstrict, ← hpermissive, h]
    · intro p h
      rw [hpermissive] at h
      cases h
  | ok c =>
    have htypes := types_of_scan hscan
    have hstrict := generate_strictly_of_scan hscan
    have hpermissive := generate_permissively_of_scan hscan
    have hmapped : Gap.firstFailure? (c.lacks b.conversions) = none ↔ b.DeclaresMapped t := by
      rw [Gap.firstFailure?_eq_none_iff, Catalog.lacks_eq_nil_iff, htypes]
      rfl
    -- the permissive build succeeds, and only the first gap tells the strict one from it
    refine ⟨?_, ?_, ?_, huntouched⟩
    · intro p
      rw [hstrict, hpermissive, ← hmapped]
      cases Gap.firstFailure? (c.lacks b.conversions) with
      | none => simp
      | some failure => simp
    · intro failure h
      rw [hpermissive] at h
      cases h
    · intro p h hunmapped
      rw [← hmapped] at hunmapped
      obtain ⟨failure, hfailure⟩ := Option.ne_none_iff_exists'.1 hunmapped
      refine ⟨failure, by rw [hstrict, hfailure], fun other => ?_⟩
      rw [← htypes, ← Catalog.firstFailure?_lacks_eq_some_iff, hfailure, Option.some_inj]
      exact eq_comm

/-- A declared finalizer is passed over for a later member, and its index is the declared one. -/
example :
    let t : FileTree := ⟨["work"], [(["work"], .folder),
      (["work", "Foo.h"], .file "void __gc()\nint take(int, Vector3)\n".toUTF8)]⟩
    let b : HeaderBuild := { standard with sources := [⟨"Foo.h"⟩] }
    (b.strictly.generate.run t).result.map (fun _ => ()) =
      .error (.unsupported "Foo" "take" "Vector3" (.argument 1)) := by
  decide +kernel

end HeaderBuild

end LuaGlue

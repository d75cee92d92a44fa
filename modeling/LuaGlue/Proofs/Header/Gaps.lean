import LuaGlue.Proofs.Header.Emission
import Mathlib.Data.List.Basic

/-!
# The gaps of a header

What a catalog lacks under given conversions, said without the wrappers: every argument type without
an extract template and every return type without a push template, in the order of the declarations,
and for each type its declared finalizers last. The gaps of the header are exactly these, and so are
the warnings while it is made.
-/

namespace LuaGlue

namespace Member

def omission (cs : Conversions) (owner : String) (m : Member) (argument : String × Nat) :
    List Gap :=
  if argument.1 ∈ cs.extract.typeNames then []
  else [.omittedArgument owner m.name argument.2 argument.1]

def omissions (cs : Conversions) (owner : String) (m : Member) : List Gap :=
  m.argTypes.zipIdx.flatMap (m.omission cs owner)

/-- The result that cannot be pushed. A member that returns nothing has none, and the text of a
value needs no conversion. -/
def opaqueReturns (cs : Conversions) (owner : String) (m : Member) : List Gap :=
  if m.name = "__tostring" ∨ m.returnType = "void" ∨ m.returnType ∈ cs.push.typeNames then []
  else [.opaqueReturn owner m.name m.returnType]

/-- What a member lacks. A declared finalizer is not called and lacks nothing. -/
def lacks (cs : Conversions) (owner : String) (m : Member) : List Gap :=
  if m.name = "__gc" then [] else m.omissions cs owner ++ m.opaqueReturns cs owner

end Member

/-- What a type lacks: what its members lack, and at the end its declared finalizer, if any. -/
def HostType.lacks (cs : Conversions) (t : HostType) : List Gap :=
  t.members.flatMap (Member.lacks cs t.name) ++
    if ∃ m ∈ t.members, m.name = "__gc" then [.declaredFinalizer t.name] else []

def Catalog.lacks (cs : Conversions) (c : Catalog) : List Gap := c.types.flatMap (HostType.lacks cs)

namespace Wrapper

theorem gap?_argument (cs : Conversions) (owner : String) (m : Member) (type : String)
    (index : Nat) :
    (Argument.gap? owner m.name
        ⟨index, type, (cs.extract.get? type).map (·.renderExtract (Argument.slotOf index))⟩).toList =
      m.omission cs owner (type, index) := by
  have hnone : (cs.extract.get? type).isNone = true ↔ type ∉ cs.extract.typeNames := by
    rw [Option.isNone_iff_eq_none]
    exact ConversionTable.get?_eq_none_iff
  unfold Argument.gap? Member.omission
  rw [Option.isNone_map]
  by_cases h : type ∈ cs.extract.typeNames
  · rw [if_pos h, if_neg fun hmissing => hnone.1 hmissing h]
    rfl
  · rw [if_neg h, if_pos (hnone.2 h)]
    rfl

theorem gap?_endingOf (cs : Conversions) (owner : String) (m : Member) (locals : List String) :
    (endingOf cs owner m locals).gap?.toList = m.opaqueReturns cs owner := by
  have htostring : m.isTostring = true ↔ m.name = "__tostring" := beq_iff_eq
  have hvoid : m.isVoid = true ↔ m.returnType = "void" := beq_iff_eq
  unfold endingOf Member.opaqueReturns
  by_cases htext : m.name = "__tostring"
  · rw [if_pos (htostring.2 htext), if_pos (Or.inl htext)]
    rfl
  · rw [if_neg (mt htostring.1 htext)]
    by_cases hnothing : m.returnType = "void"
    · rw [if_pos (hvoid.2 hnothing), if_pos (Or.inr (Or.inl hnothing))]
      rfl
    · rw [if_neg (mt hvoid.1 hnothing)]
      cases hpush : cs.push.get? m.returnType with
      | none =>
        have hmissing := ConversionTable.get?_eq_none_iff.1 hpush
        rw [if_neg (by simp [htext, hnothing, hmissing])]
        rfl
      | some conversion =>
        have hmem : m.returnType ∈ cs.push.typeNames := by
          by_contra hmissing
          rw [ConversionTable.get?_eq_none_iff.2 hmissing] at hpush
          cases hpush
        rw [if_pos (Or.inr (Or.inr hmem))]
        rfl

theorem gaps_ofMember (cs : Conversions) (owner : String) (m : Member) :
    (ofMember cs owner m).gaps = m.omissions cs owner ++ m.opaqueReturns cs owner := by
  have hgaps : (argumentsOf cs m).filterMap (Argument.gap? owner m.name) =
      m.omissions cs owner := by
    rw [argumentsOf, List.filterMap_map, List.filterMap_eq_flatMap_toList]
    congr 1
    funext ⟨type, index⟩
    exact gap?_argument cs owner m type index
  change (argumentsOf cs m).filterMap _ ++ (endingOf cs owner m _).gap?.toList = _
  rw [hgaps, gap?_endingOf]

theorem gaps_allOf (cs : Conversions) (t : HostType) :
    (allOf cs t.name t.members).flatMap (·.gaps) = t.lacks cs := by
  have hmembers : ((t.members.filter fun m => !m.isFinalizer).map (ofMember cs t.name)).flatMap
      (·.gaps) = t.members.flatMap (Member.lacks cs t.name) := by
    induction t.members with
    | nil => rfl
    | cons m rest ih =>
      have hfinalizer : m.isFinalizer = true ↔ m.name = "__gc" := beq_iff_eq
      rw [List.flatMap_cons, Member.lacks]
      by_cases h : m.name = "__gc"
      · rw [if_pos h, List.filter_cons_of_neg (by simp [hfinalizer.2 h]), ih]
        rfl
      · rw [if_neg h, List.filter_cons_of_pos (by simp [mt hfinalizer.1 h]), List.map_cons,
          List.flatMap_cons, gaps_ofMember, ih]
  have hlast : (lastOf t.name (t.members.any Member.isFinalizer)).gaps =
      if ∃ m ∈ t.members, m.name = "__gc" then [.declaredFinalizer t.name] else [] := by
    unfold lastOf
    simp [List.any_eq_true, Member.isFinalizer, Member.finalizerName]
  unfold allOf HostType.lacks
  rw [List.flatMap_append, hmembers, List.flatMap_singleton, hlast]

end Wrapper

namespace Header

theorem gaps_ofCatalog (cs : Conversions) (style : HeaderStyle) (c : Catalog) :
    (ofCatalog cs style c).gaps = c.lacks cs := by
  change (c.types.map (Section.ofType cs)).flatMap Section.gaps = c.types.flatMap (HostType.lacks cs)
  rw [List.flatMap_map]
  congr 1
  funext t
  exact Wrapper.gaps_allOf cs t

/-- The gaps of the header are what the catalog lacks, and the warnings while it is made are their
messages, one for one and in the same order. -/
theorem emit_gaps_eq_lacks (cs : Conversions) (style : HeaderStyle) (c : Catalog) (t : FileTree) :
    ∃ h, (emit cs style c : Job Failure Header).run t =
        ⟨.ok h, t, (c.lacks cs).map fun gap => ⟨.warn, gap.message⟩, "", ""⟩ ∧
      h.gaps = c.lacks cs := by
  refine ⟨ofCatalog cs style c, ?_, gaps_ofCatalog cs style c⟩
  rw [run_emit, gaps_ofCatalog]
  rfl

end Header

end LuaGlue

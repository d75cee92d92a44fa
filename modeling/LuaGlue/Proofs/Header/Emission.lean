import LuaGlue.Header

/-!
# Making a header

Wrappers are made one after the other, and the gaps of each are reported when it is made. What comes
out is the header of the catalog, and what was reported are its gaps, in order.
-/

namespace LuaGlue

variable {ε : Type}

namespace Wrapper

theorem run_report (w : Wrapper) (t : FileTree) :
    (w.report : Job ε Wrapper).run t = ⟨.ok w, t, w.gaps.map Gap.event, "", ""⟩ := by
  rw [report, Job.run_bind, Job.run_notes]
  simp

def ofMembers (cs : Conversions) (owner : String) (members : List Member) : List Wrapper :=
  (members.filter fun m => !m.isFinalizer).map (ofMember cs owner)

theorem run_emitMembers (cs : Conversions) (owner : String) (members : List Member)
    (t : FileTree) :
    (emitMembers cs owner members : Job ε (List Wrapper)).run t =
      ⟨.ok (ofMembers cs owner members), t,
        ((ofMembers cs owner members).flatMap (·.gaps)).map Gap.event, "", ""⟩ := by
  induction members with
  | nil => rfl
  | cons m rest ih =>
    rw [emitMembers]
    by_cases hfinalizer : m.isFinalizer = true
    · rw [if_pos hfinalizer, ih]
      simp [ofMembers, hfinalizer]
    · rw [if_neg hfinalizer, Job.run_bind, run_report]
      simp [Job.run_bind, ih, ofMembers, hfinalizer]

theorem run_emitAll (cs : Conversions) (owner : String) (members : List Member) (t : FileTree) :
    (emitAll cs owner members : Job ε (List Wrapper)).run t =
      ⟨.ok (allOf cs owner members), t,
        ((allOf cs owner members).flatMap (·.gaps)).map Gap.event, "", ""⟩ := by
  rw [emitAll, Job.run_bind, run_emitMembers]
  simp [Job.run_bind, run_report, allOf, ofMembers]

end Wrapper

namespace Header

theorem run_emitSections (cs : Conversions) (types : List HostType) (t : FileTree) :
    (emitSections cs types : Job ε (List Section)).run t =
      ⟨.ok (types.map (Section.ofType cs)), t,
        ((types.map (Section.ofType cs)).flatMap Section.gaps).map Gap.event, "", ""⟩ := by
  induction types with
  | nil => rfl
  | cons type rest ih =>
    rw [emitSections, Job.run_bind, Wrapper.run_emitAll]
    simp [Job.run_bind, ih, Section.ofType, Section.gaps]

theorem run_emit (cs : Conversions) (style : HeaderStyle) (c : Catalog) (t : FileTree) :
    (emit cs style c : Job ε Header).run t =
      ⟨.ok (ofCatalog cs style c), t, (ofCatalog cs style c).gaps.map Gap.event, "", ""⟩ := by
  rw [emit, Job.run_bind, run_emitSections]
  simp [ofCatalog, gaps]

end Header

end LuaGlue

import LuaGlue.Proofs.Header.Registration
import Mathlib.Data.List.Nodup
import Mathlib.Data.List.Pairwise

/-!
# Names of generated functions

A wrapper is named after its type and its member with an underscore between them, and a registration
function after its type. If no type lists a member twice, two functions of a header have the same
name exactly if two types with a member each lead to the same name, or if a type is named like the
rest of the umbrella.
-/

namespace LuaGlue

/-! ## The three families of names -/

theorem Wrapper.nameOf_eq_iff {owner member owner' member' : String} :
    nameOf owner member = nameOf owner' member' ↔
      owner ++ "_" ++ member = owner' ++ "_" ++ member' := by
  unfold nameOf
  rw [String.append_assoc, String.append_assoc, String.append_assoc, String.append_assoc,
    String.append_assoc, String.append_assoc, String.append_right_inj]

theorem Wrapper.nameOf_inj {owner member member' : String} :
    nameOf owner member = nameOf owner member' ↔ member = member' := by
  rw [nameOf_eq_iff, String.append_right_inj]

theorem Registration.nameOf_inj {name name' : String} :
    nameOf name = nameOf name' ↔ name = name' := by
  unfold nameOf
  rw [String.append_right_inj]

theorem Registration.nameOf_eq_umbrella_iff {name : String} :
    nameOf name = Umbrella.functionName ↔ name = "userdata_types" := by
  have humbrella : Umbrella.functionName = nameOf "userdata_types" := by decide
  rw [humbrella, nameOf_inj]

/-- The first letter tells wrappers from registration functions and from the umbrella. -/
theorem Wrapper.nameOf_ne_registration (owner member name : String) :
    nameOf owner member ≠ Registration.nameOf name := by
  intro h
  unfold nameOf Registration.nameOf at h
  have hwrapper : "godot_".toList.head? = some 'g' := by decide
  have hregistration : "register_godot_".toList.head? = some 'r' := by decide
  have hfirst := congrArg (fun s : String => s.toList.head?) h
  simp only [String.toList_append, List.head?_append, hwrapper, hregistration,
    Option.some_or] at hfirst
  exact absurd hfirst (by decide)

theorem Wrapper.nameOf_ne_umbrella (owner member : String) :
    nameOf owner member ≠ Umbrella.functionName := by
  have humbrella : Umbrella.functionName = Registration.nameOf "userdata_types" := by decide
  rw [humbrella]
  exact nameOf_ne_registration owner member "userdata_types"

/-! ## The functions of one type -/

namespace HostType

/-- The members of a type that get a wrapper: those declared, but the finalizer once and last. -/
def wrapped (t : HostType) : List String :=
  (t.members.map (·.name)).filter (· ≠ "__gc") ++ ["__gc"]

def functionNames (t : HostType) : List String :=
  t.wrapped.map (Wrapper.nameOf t.name) ++ [Registration.nameOf t.name]

variable {t u : HostType}

theorem nodup_wrapped (h : (t.members.map (·.name)).Nodup) : t.wrapped.Nodup := by
  unfold wrapped
  rw [List.nodup_append]
  refine ⟨h.filter _, List.nodup_singleton _, fun name hname last hlast => ?_⟩
  rw [List.mem_singleton.1 hlast]
  simpa using (List.mem_filter.1 hname).2

theorem nodup_functionNames (h : (t.members.map (·.name)).Nodup) : t.functionNames.Nodup := by
  unfold functionNames
  rw [List.nodup_append]
  refine ⟨?_, List.nodup_singleton _, fun name hname last hlast => ?_⟩
  · exact (nodup_wrapped h).map fun member member' => Wrapper.nameOf_inj.1
  · obtain ⟨member, -, rfl⟩ := List.mem_map.1 hname
    rw [List.mem_singleton.1 hlast]
    exact Wrapper.nameOf_ne_registration t.name member t.name

theorem umbrella_mem_functionNames_iff :
    Umbrella.functionName ∈ t.functionNames ↔ t.name = "userdata_types" := by
  unfold functionNames
  rw [List.mem_append, List.mem_singleton, eq_comm (a := Umbrella.functionName),
    Registration.nameOf_eq_umbrella_iff]
  refine or_iff_right ?_
  intro hmem
  obtain ⟨member, -, hname⟩ := List.mem_map.1 hmem
  exact Wrapper.nameOf_ne_umbrella t.name member hname

/-- Some member of one type and some member of the other lead to the same name. -/
def Clash (t u : HostType) : Prop :=
  ∃ m ∈ t.wrapped, ∃ n ∈ u.wrapped, t.name ++ "_" ++ m = u.name ++ "_" ++ n

theorem disjoint_functionNames_iff (hname : t.name ≠ u.name) :
    t.functionNames.Disjoint u.functionNames ↔ ¬t.Clash u := by
  rw [List.disjoint_left]
  constructor
  · rintro hdisjoint ⟨m, hm, n, hn, hsame⟩
    apply hdisjoint (a := Wrapper.nameOf t.name m)
    · exact List.mem_append_left _ (List.mem_map_of_mem hm)
    · rw [Wrapper.nameOf_eq_iff.2 hsame]
      exact List.mem_append_left _ (List.mem_map_of_mem hn)
  · intro hclash function ht hu
    unfold functionNames at ht hu
    rw [List.mem_append, List.mem_singleton, List.mem_map] at ht hu
    rcases ht with ⟨m, hm, rfl⟩ | rfl <;> rcases hu with ⟨n, hn, hsame⟩ | hsame
    · exact hclash ⟨m, hm, n, hn, Wrapper.nameOf_eq_iff.1 hsame.symm⟩
    · exact Wrapper.nameOf_ne_registration t.name m u.name hsame
    · exact Wrapper.nameOf_ne_registration u.name n t.name hsame
    · exact hname (Registration.nameOf_inj.1 hsame)

/-- Two types clash only if one name goes on with an underscore where the other one ends. -/
theorem Clash.continues (h : t.Clash u) (hname : t.name ≠ u.name) :
    (t.name ++ "_").toList <+: u.name.toList ∨ (u.name ++ "_").toList <+: t.name.toList := by
  obtain ⟨m, -, n, -, hsame⟩ := h
  have hlists := congrArg String.toList hsame
  simp only [String.toList_append] at hlists ⊢
  -- both names, and both names with the underscore, are prefixes of the common name
  have ht : t.name.toList ++ "_".toList <+: t.name.toList ++ "_".toList ++ m.toList :=
    List.prefix_append _ _
  have hu : u.name.toList ++ "_".toList <+: t.name.toList ++ "_".toList ++ m.toList :=
    hlists ▸ List.prefix_append _ _
  have ht' := (List.prefix_append t.name.toList "_".toList).trans ht
  have hu' := (List.prefix_append u.name.toList "_".toList).trans hu
  have hlength : ∀ cs : List Char, (cs ++ "_".toList).length = cs.length + 1 := by
    intro cs
    simp
  rcases Nat.lt_trichotomy t.name.toList.length u.name.toList.length with hlt | heq | hgt
  · refine Or.inl (List.prefix_of_prefix_length_le ht hu' ?_)
    rw [hlength]
    omega
  · have hcommon := List.prefix_of_prefix_length_le ht' hu' (Nat.le_of_eq heq)
    exact absurd (String.toList_inj.1 (hcommon.eq_of_length heq)) hname
  · refine Or.inr (List.prefix_of_prefix_length_le hu ht' ?_)
    rw [hlength]
    omega

end HostType

/-! ## The functions of a header -/

def Catalog.Unambiguous (c : Catalog) : Prop :=
  ∀ t ∈ c.types, ∀ u ∈ c.types, t.name ≠ u.name → ¬t.Clash u

namespace Catalog

variable {c : Catalog}

theorem pairwise_disjoint_iff (names : (c.types.map (·.name)).Nodup) :
    c.types.Pairwise (Function.onFun List.Disjoint HostType.functionNames) ↔ c.Unambiguous := by
  have hsymm : Std.Symm (Function.onFun List.Disjoint HostType.functionNames) :=
    ⟨fun t u h name hu ht => h ht hu⟩
  constructor
  · intro h t ht u hu hname
    have hne : t ≠ u := fun hsame => hname (hsame ▸ rfl)
    exact (HostType.disjoint_functionNames_iff hname).1 (h.forall ht hu hne)
  · intro h
    apply names.of_map.pairwise_of_forall_ne
    intro t ht u hu hne
    have hname : t.name ≠ u.name := fun hsame => hne (List.inj_on_of_nodup_map names ht hu hsame)
    exact (HostType.disjoint_functionNames_iff hname).2 (h t ht u hu hname)

theorem ne_umbrella_iff :
    (∀ function ∈ c.types.flatMap HostType.functionNames, function ≠ Umbrella.functionName) ↔
      ∀ t ∈ c.types, t.name ≠ "userdata_types" := by
  constructor
  · intro h t ht hname
    have hmem := HostType.umbrella_mem_functionNames_iff.2 hname
    exact h _ (List.mem_flatMap.2 ⟨t, ht, hmem⟩) rfl
  · rintro h function hmem rfl
    obtain ⟨t, ht, hown⟩ := List.mem_flatMap.1 hmem
    exact h t ht (HostType.umbrella_mem_functionNames_iff.1 hown)

theorem unambiguous_of_not_continued
    (h : ∀ t ∈ c.types, ∀ u ∈ c.types, ¬(t.name ++ "_").toList <+: u.name.toList) :
    c.Unambiguous := by
  intro t ht u hu hname hclash
  rcases hclash.continues hname with htu | hut
  · exact h t ht u hu htu
  · exact h u hu t ht hut

end Catalog

namespace Header

def signature (function : String) : String := function ++ r"(lua_State *L) {
"

theorem standsIn_opening (returnType function : String) :
    StandsIn (signature function) (opening returnType function) := by
  refine ⟨"static " ++ returnType ++ " ", "", ?_⟩
  unfold opening signature
  simp only [String.append_assoc, String.append_empty]

theorem standsIn_umbrella (names : List String) :
    StandsIn (signature Umbrella.functionName) (Umbrella.text names) := by
  refine ⟨"// register for all types.\nextern void ",
    String.join (names.map Umbrella.line) ++ r"}
", ?_⟩
  unfold Umbrella.text signature
  simp only [String.append_assoc]

theorem standsIn_section {s : Section} {function : String}
    (h : function ∈ s.wrappers.map (·.functionName) ++ [Registration.nameOf s.typeName]) :
    StandsIn (signature function) s.text := by
  rw [List.mem_append, List.mem_singleton, List.mem_map] at h
  unfold Section.text
  rcases h with ⟨w, hw, rfl⟩ | rfl
  · have hwrapper := (standsIn_opening "int" w.functionName).trans (text_opening w)
    have hall := hwrapper.trans (standsIn_join Wrapper.text hw)
    exact standsIn_append_left (standsIn_append_left (standsIn_append_right hall _) _) _
  · have hopening : StandsIn (opening "void" (Registration.nameOf s.typeName)) s.registration.text :=
      standsIn_append_left (standsIn_append_left (StandsIn.refl _) _) _
    have hregistration := (standsIn_opening "void" _).trans hopening
    exact standsIn_append_left (standsIn_append_right hregistration _) _

theorem standsIn_text_of_mem_functionNames {h : Header} {function : String}
    (hfunction : function ∈ h.functionNames) : StandsIn (signature function) h.text := by
  unfold functionNames at hfunction
  rw [List.mem_append, List.mem_singleton, List.mem_flatMap] at hfunction
  unfold text
  rcases hfunction with ⟨s, hs, hown⟩ | rfl
  · have hsection := (standsIn_section hown).trans (standsIn_join Section.text hs)
    exact standsIn_append_left (standsIn_append_left (standsIn_append_right hsection _) _) _
  · exact standsIn_append_left (standsIn_append_right (standsIn_umbrella h.typeNames) _) _

theorem functionNames_allOf (cs : Conversions) (t : HostType) :
    (Wrapper.allOf cs t.name t.members).map (·.functionName) =
      t.wrapped.map (Wrapper.nameOf t.name) := by
  rw [map_allOf cs t (·.functionName) fun _ => rfl]
  unfold wrappersOf HostType.wrapped
  rw [List.map_append, List.map_append, List.map_map, List.filter_map, List.map_map]
  rfl

theorem functionNames_ofCatalog (cs : Conversions) (style : HeaderStyle) (c : Catalog) :
    (ofCatalog cs style c).functionNames =
      c.types.flatMap HostType.functionNames ++ [Umbrella.functionName] := by
  unfold functionNames ofCatalog
  rw [List.flatMap_map]
  congr 2
  funext t
  exact congrArg (· ++ [Registration.nameOf t.name]) (functionNames_allOf cs t)

/-- If names of types are distinct and no type lists a member twice, then no function is defined
twice exactly if no two types clash and none is named like the rest of the umbrella. -/
theorem functionNames_nodup_iff (cs : Conversions) (style : HeaderStyle) (c : Catalog)
    (names : (c.types.map (·.name)).Nodup)
    (members : ∀ t ∈ c.types, (t.members.map (·.name)).Nodup) :
    (ofCatalog cs style c).functionNames.Nodup ↔
      c.Unambiguous ∧ ∀ t ∈ c.types, t.name ≠ "userdata_types" := by
  have hown : ∀ t ∈ c.types, t.functionNames.Nodup :=
    fun t ht => HostType.nodup_functionNames (members t ht)
  rw [functionNames_ofCatalog, List.nodup_append, List.nodup_flatMap,
    Catalog.pairwise_disjoint_iff names]
  simp only [List.mem_singleton, forall_eq, Catalog.ne_umbrella_iff]
  exact ⟨fun h => ⟨h.1.2, h.2.2⟩, fun h => ⟨⟨hown, h.1⟩, List.nodup_singleton _, h.2⟩⟩

def underscored : Catalog := .ofList [
  ⟨"Node_2D", [], [⟨"void", "__gc", []⟩, ⟨"int", "z_index", []⟩]⟩,
  ⟨"Node", [], [⟨"int", "z_index", []⟩, ⟨"void", "queue_free", []⟩]⟩]

theorem underscored_functionNames_nodup :
    (underscored.types.map (·.name)).Nodup ∧
      (∀ t ∈ underscored.types, (t.members.map (·.name)).Nodup) ∧
      (ofCatalog .godot .standard underscored).functionNames.Nodup := by
  have hnames : (underscored.types.map (·.name)).Nodup := by decide
  have hmembers : ∀ t ∈ underscored.types, (t.members.map (·.name)).Nodup := by decide
  have hunambiguous : underscored.Unambiguous := by
    unfold Catalog.Unambiguous HostType.Clash
    decide
  exact ⟨hnames, hmembers,
    (functionNames_nodup_iff .godot .standard underscored hnames hmembers).2
      ⟨hunambiguous, by decide⟩⟩

/-- Two types, one of which is named like the other one and the start of its member. -/
def clashing : Catalog := .ofList [
  ⟨"Foo", [], [⟨"void", "bar_baz", []⟩]⟩,
  ⟨"Foo_bar", [], [⟨"void", "baz", []⟩]⟩]

/-- Distinct names of types and of the members of each type do not make the functions distinct. -/
theorem clashing_functionNames_not_nodup :
    (clashing.types.map (·.name)).Nodup ∧
      (∀ t ∈ clashing.types, (t.members.map (·.name)).Nodup) ∧
      ¬(ofCatalog .godot .standard clashing).functionNames.Nodup := by
  decide

end Header

end LuaGlue

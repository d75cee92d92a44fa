import LuaGlue.Proofs.Catalog.Log
import LuaGlue.Proofs.Header.Emission
import LuaGlue.Proofs.Job
import LuaGlue.Proofs.Text.Part

/-!
# Everything in a header is registered

The text of the header of a catalog, taken from the log that filled the catalog: a section for each
name in the order of first mention, in which every wrapper is defined and then registered, and the
umbrella, which registers every type. A name is defined before a line refers to it.
-/

namespace LuaGlue

namespace Header

open Catalog

def opening (returnType function : String) : String :=
  "static " ++ returnType ++ " " ++ function ++ r"(lua_State *L) {
"

def wrappersOf (cs : Conversions) (t : HostType) : List Wrapper :=
  (t.members.filter fun m => m.name ≠ "__gc").map (Wrapper.ofMember cs t.name) ++
    [Wrapper.finalizer t.name]

def rawsetLine (w : Wrapper) : String :=
  "    luatable_rawset(L, -1, \"" ++ w.member ++ "\", &" ++ w.functionName ++ ");\n"

def registerName (name : String) : String := "register_godot_" ++ name

def addLine (name : String) : String :=
  "    LuaScriptLanguage::add_register(\"" ++ name ++ "\", &" ++ registerName name ++ ");\n"

def sectionText (cs : Conversions) (t : HostType) : String :=
  "/*\n * Generated members of: " ++ t.name ++ "\n */\n" ++
    String.join ((wrappersOf cs t).map Wrapper.text) ++
    (opening "void" (registerName t.name) ++
      String.join ((wrappersOf cs t).map rawsetLine) ++ r"}
") ++ "\n"

def umbrellaText (names : List String) : String :=
  r"// register for all types.
extern void register_godot_userdata_types(lua_State *L) {
" ++ String.join (names.map addLine) ++ r"}
"

/-- A text registers, for the given log, every wrapper and every type once, each after its
definition. -/
structure RegistersAll (cs : Conversions) (style : HeaderStyle) (log : List Operation)
    (text : String) : Prop where
  text_eq : text = prologue style ++
    String.join ((mentioned log).map fun name => sectionText cs (collected log name)) ++
    umbrellaText (mentioned log) ++ "\n#endif\n"
  names_nodup : (mentioned log).Nodup
  wrapper_defined : ∀ name ∈ mentioned log, ∀ w ∈ wrappersOf cs (collected log name),
    StandsBefore text (opening "int" w.functionName) (rawsetLine w)
  type_defined : ∀ name ∈ mentioned log,
    StandsBefore text (opening "void" (registerName name)) (addLine name)
  /-- Every type registers its finalizer once, after all other members. -/
  finalizer_last : ∀ name ∈ mentioned log, ∃ others,
    (wrappersOf cs (collected log name)).map (fun w => (w.member, w.functionName)) =
        others ++ [("__gc", "godot_" ++ name ++ "___gc")] ∧
      ∀ entry ∈ others, entry.1 ≠ "__gc"

/-! ## The sections -/

/-- What does not look at gaps does not tell the wrappers of a type from those that are made. -/
theorem map_allOf {β : Type} (cs : Conversions) (t : HostType) (f : Wrapper → β)
    (hlast : ∀ declared, f (Wrapper.lastOf t.name declared) = f (Wrapper.finalizer t.name)) :
    (Wrapper.allOf cs t.name t.members).map f = (wrappersOf cs t).map f := by
  have hfilter : (t.members.filter fun m => !m.isFinalizer) =
      t.members.filter fun m => m.name ≠ "__gc" := by
    apply List.filter_congr
    intro m hm
    rw [Member.isFinalizer, Member.finalizerName, beq_eq_decide, ← decide_not]
  unfold Wrapper.allOf wrappersOf
  rw [List.map_append, List.map_append, hfilter, List.map_singleton, List.map_singleton, hlast]

theorem text_ofType (cs : Conversions) (t : HostType) :
    (Section.ofType cs t).text = sectionText cs t := by
  have htext := map_allOf cs t Wrapper.text fun _ => rfl
  have hentries := map_allOf cs t rawsetLine fun _ => rfl
  unfold Section.text sectionText Section.registration Registration.text
  rw [← htext, ← hentries]
  simp only [Section.ofType, Registration.ofWrappers, List.map_map]
  rfl

theorem text_ofLog (cs : Conversions) (style : HeaderStyle) (log : List Operation) :
    (ofCatalog cs style (.ofLog log)).text = prologue style ++
      String.join ((mentioned log).map fun name => sectionText cs (collected log name)) ++
      umbrellaText (mentioned log) ++ "\n#endif\n" := by
  have hnames : (ofCatalog cs style (.ofLog log)).typeNames = mentioned log := by
    unfold typeNames ofCatalog
    rw [types_ofLog, List.map_map, List.map_map]
    exact List.map_id _
  have hsections : (ofCatalog cs style (.ofLog log)).sections.map Section.text =
      (mentioned log).map fun name => sectionText cs (collected log name) := by
    unfold ofCatalog
    rw [types_ofLog, List.map_map, List.map_map]
    apply List.map_congr_left
    intro name hname
    exact text_ofType cs (collected log name)
  unfold text
  rw [hnames, hsections]
  rfl

/-! ## Definitions before uses -/

theorem text_opening (w : Wrapper) : StandsIn (opening "int" w.functionName) w.text := by
  refine ⟨"", String.join (w.statements.map Statement.line) ++ r"}
", ?_⟩
  rw [String.empty_append, ← String.append_assoc]
  rfl

theorem sectionText_wrapper {cs : Conversions} {t : HostType} {w : Wrapper}
    (h : w ∈ wrappersOf cs t) :
    StandsBefore (sectionText cs t) (opening "int" w.functionName) (rawsetLine w) := by
  have hopening : StandsIn (opening "int" w.functionName)
      (String.join ((wrappersOf cs t).map Wrapper.text)) :=
    (text_opening w).trans (standsIn_join Wrapper.text h)
  have hline := standsIn_join rawsetLine h
  unfold sectionText
  apply StandsBefore.append
  apply standsBefore_append (standsIn_append_right hopening _)
  exact standsIn_append_left (standsIn_append_right hline _) _

theorem sectionText_opening (cs : Conversions) (t : HostType) :
    StandsIn (opening "void" (registerName t.name)) (sectionText cs t) := by
  unfold sectionText
  apply standsIn_append_left
  apply standsIn_append_right
  apply standsIn_append_left
  exact standsIn_append_left (StandsIn.refl _) _

theorem umbrellaText_line {names : List String} {name : String} (h : name ∈ names) :
    StandsIn (addLine name) (umbrellaText names) := by
  apply standsIn_append_left
  exact standsIn_append_right (standsIn_join addLine h) _

theorem wrappersOf_entries (cs : Conversions) (t : HostType) :
    ∃ others, (wrappersOf cs t).map (fun w => (w.member, w.functionName)) =
        others ++ [("__gc", "godot_" ++ t.name ++ "___gc")] ∧
      ∀ entry ∈ others, entry.1 ≠ "__gc" := by
  have hfinalizer : (Wrapper.finalizer t.name).functionName = "godot_" ++ t.name ++ "___gc" := by
    change "godot_" ++ t.name ++ "_" ++ "__gc" = _
    rw [String.append_assoc]
    rfl
  unfold wrappersOf
  rw [List.map_append, List.map_map, List.map_singleton, hfinalizer]
  refine ⟨_, rfl, ?_⟩
  intro entry hentry
  obtain ⟨m, hm, rfl⟩ := List.mem_map.1 hentry
  have hname : m.name ≠ "__gc" := by simpa using (List.mem_filter.1 hm).2
  exact hname

theorem ofLog_registersAll (cs : Conversions) (style : HeaderStyle) (log : List Operation) :
    RegistersAll cs style log (ofCatalog cs style (.ofLog log)).text := by
  have htext := text_ofLog cs style log
  refine ⟨htext, nodup_mentioned log, ?_, ?_, fun name _ => wrappersOf_entries cs _⟩
  · intro name hname w hw
    rw [htext]
    apply (sectionText_wrapper hw).of_standsIn
    have hsection := standsIn_join (fun name => sectionText cs (collected log name)) hname
    exact standsIn_append_left (standsIn_append_left (standsIn_append_right hsection _) _) _
  · intro name hname
    have hopening : StandsIn (opening "void" (registerName name)) (String.join
        ((mentioned log).map fun name => sectionText cs (collected log name))) :=
      (sectionText_opening cs (collected log name)).trans
        (standsIn_join (fun name => sectionText cs (collected log name)) hname)
    rw [htext]
    apply StandsBefore.append
    exact standsBefore_append (standsIn_append_right hopening _) (umbrellaText_line hname)

/-- Making the header of a catalog always succeeds, and the header registers everything, whatever
operations filled the catalog. -/
theorem emit_registersAll (cs : Conversions) (style : HeaderStyle) (log : List Operation)
    (t : FileTree) :
    ∃ h, (emit cs style (.ofLog log) : Job Failure Header).Ends t h t ∧
      RegistersAll cs style log h.text := by
  refine ⟨ofCatalog cs style (.ofLog log), ?_, ofLog_registersAll cs style log⟩
  rw [Job.Ends, run_emit]
  exact ⟨rfl, rfl⟩

end Header

end LuaGlue

import LuaGlue.Proofs.Header.Gaps
import LuaGlue.Proofs.Text.Digits
import LuaGlue.Proofs.Text.Placeholder
import Mathlib.Data.List.Forall2
import Mathlib.Data.List.Nodup

/-!
# Arguments and results of a wrapper

A wrapper binds a local for each declared argument that can be read, in order and before anything
uses it. Name and slot of the local come from the declared index, so that arguments which cannot be
read keep their slots. Then it calls its member with exactly these locals, and pushes what it
returns to Lua in one statement.
-/

namespace LuaGlue

/-! ## What statements bind and use -/

namespace Statement

def binding? : Statement → Option (String × String)
  | .bindArgument index code => some ("arg" ++ toString index, code)
  | _ => none

def bound? : Statement → Option String
  | .receive _ => some "self"
  | .bindArgument index _ => some ("arg" ++ toString index)
  | .callForResult _ _ => some "ret"
  | _ => none

/-- The locals that a statement uses. The code that a template gives is opaque: what reads an
argument uses the stack alone, and what pushes uses the result. -/
def uses : Statement → List String
  | .call _ arguments => "self" :: arguments
  | .callForResult _ arguments => "self" :: arguments
  | .pushText _ _ => ["self"]
  | .pushResult _ => ["ret"]
  | .pushHandle _ => ["ret"]
  | _ => []

def hostCall? : Statement → Option (String × List String)
  | .call member arguments => some (member, arguments)
  | .callForResult member arguments => some (member, arguments)
  | _ => none

def pushes : Statement → Bool
  | .pushText _ _ => true
  | .pushResult _ => true
  | .pushHandle _ => true
  | _ => false

/-- Each statement uses only locals that are known or bound by a statement before it. -/
def InScope : List String → List Statement → Prop
  | _, [] => True
  | known, s :: rest => (∀ name ∈ s.uses, name ∈ known) ∧ InScope (known ++ s.bound?.toList) rest

theorem inScope_append {known : List String} {statements more : List Statement} :
    InScope known (statements ++ more) ↔
      InScope known statements ∧ InScope (known ++ statements.filterMap bound?) more := by
  induction statements generalizing known with
  | nil => simp [InScope]
  | cons s rest ih =>
    have hbound : (s :: rest).filterMap bound? = s.bound?.toList ++ rest.filterMap bound? := by
      rw [List.filterMap_cons]
      cases s.bound? <;> rfl
    rw [List.cons_append, InScope, InScope, ih, hbound, and_assoc, List.append_assoc]

end Statement

def Gap.isOmission : Gap → Bool
  | .omittedArgument _ _ _ _ => true
  | _ => false

/-! ## The arguments that can be read -/

namespace Member

def readable (cs : Conversions) (m : Member) : List (String × Nat) :=
  m.argTypes.zipIdx.filter fun argument => argument.1 ∈ cs.extract.typeNames

/-- A readable argument is bound to the template of its type with the slot of its index in it. Slot
1 holds the receiver. -/
structure Reads (cs : Conversions) (argument : String × Nat) (binding : String × String) :
    Prop where
  name : binding.1 = "arg" ++ toString argument.2
  code : ∃ c, cs.extract.get? argument.1 = some c ∧
    Text.Filled c.template "{slot}" (toString (argument.2 + 2)) binding.2

def reading? (cs : Conversions) (argument : String × Nat) : Option (Nat × String) :=
  (cs.extract.get? argument.1).map fun c => (argument.2, c.renderExtract (argument.2 + 2))

def readings (cs : Conversions) (m : Member) : List (Nat × String) :=
  m.argTypes.zipIdx.filterMap (reading? cs)

def binding (reading : Nat × String) : String × String :=
  ("arg" ++ toString reading.1, reading.2)

variable {cs : Conversions}

theorem reading?_of_mem {argument : String × Nat} (h : argument.1 ∈ cs.extract.typeNames) :
    ∃ reading, reading? cs argument = some reading ∧ Reads cs argument (binding reading) := by
  cases hget : cs.extract.get? argument.1 with
  | none => exact absurd h (ConversionTable.get?_eq_none_iff.1 hget)
  | some c =>
    refine ⟨(argument.2, c.renderExtract (argument.2 + 2)), ?_, rfl, c, hget, ?_⟩
    · rw [reading?, hget, Option.map_some]
    · exact Text.filled_fill (by decide) c.template (toString (argument.2 + 2))

theorem reading?_of_not_mem {argument : String × Nat} (h : argument.1 ∉ cs.extract.typeNames) :
    reading? cs argument = none := by
  rw [reading?, ConversionTable.get?_eq_none_iff.2 h, Option.map_none]

theorem forall₂_reads (arguments : List (String × Nat)) :
    List.Forall₂ (Reads cs) (arguments.filter fun argument => argument.1 ∈ cs.extract.typeNames)
      ((arguments.filterMap (reading? cs)).map binding) := by
  induction arguments with
  | nil => exact .nil
  | cons argument rest ih =>
    by_cases h : argument.1 ∈ cs.extract.typeNames
    · obtain ⟨reading, hreading, hreads⟩ := reading?_of_mem h
      rw [List.filter_cons_of_pos (by simpa using h), List.filterMap_cons_some hreading]
      exact .cons hreads ih
    · rw [List.filter_cons_of_neg (by simpa using h),
        List.filterMap_cons_none (reading?_of_not_mem h)]
      exact ih

theorem length_filterMap_reading?_add (owner : String) (m : Member)
    (arguments : List (String × Nat)) :
    (arguments.filterMap (reading? cs)).length +
      (arguments.flatMap (m.omission cs owner)).length = arguments.length := by
  induction arguments with
  | nil => rfl
  | cons argument rest ih =>
    rw [List.flatMap_cons, List.length_append, List.length_cons, ← ih, omission]
    by_cases h : argument.1 ∈ cs.extract.typeNames
    · obtain ⟨reading, hreading, -⟩ := reading?_of_mem h
      rw [List.filterMap_cons_some hreading, if_pos h, List.length_cons, List.length_nil]
      omega
    · rw [List.filterMap_cons_none (reading?_of_not_mem h), if_neg h, List.length_singleton]
      omega

theorem argumentName_inj {index index' : Nat}
    (h : "arg" ++ toString index = "arg" ++ toString index') : index = index' := by
  rwa [String.append_right_inj, Text.toString_inj] at h

/-- The first letter tells the locals of arguments from those of the receiver and of the result. -/
theorem argumentName_ne (index : Nat) {name : String} (h : name.toList.head? ≠ some 'a') :
    name ≠ "arg" ++ toString index := by
  rintro rfl
  rw [String.toList_append] at h
  exact h rfl

theorem names_bindings (m : Member) :
    ((m.readings cs).map binding).map (·.1) =
      (m.readable cs).map fun argument => "arg" ++ toString argument.2 := by
  have hreads : List.Forall₂ (Reads cs) (m.readable cs) ((m.readings cs).map binding) :=
    forall₂_reads m.argTypes.zipIdx
  rw [← List.forall₂_eq_eq_eq, List.forall₂_map_left_iff, List.forall₂_map_right_iff]
  exact (hreads.imp fun _ _ h => h.name).flip

theorem nodup_names (m : Member) :
    ((m.readable cs).map fun argument => "arg" ++ toString argument.2).Nodup := by
  have hindices : ((m.readable cs).map (·.2)).Nodup := by
    apply List.Nodup.sublist (List.filter_sublist.map _)
    rw [List.zipIdx_map_snd]
    exact List.nodup_range'
  have hnames := List.Nodup.map (fun _ _ => argumentName_inj) hindices
  rwa [List.map_map] at hnames

theorem nodup_locals (m : Member) {results : List String} (h : results.Sublist ["ret"]) :
    ("self" :: (m.readable cs).map (fun argument => "arg" ++ toString argument.2) ++
      results).Nodup := by
  have hother : ∀ name : String, name.toList.head? ≠ some 'a' →
      name ∉ (m.readable cs).map fun argument => "arg" ++ toString argument.2 := by
    intro name hname hmem
    obtain ⟨argument, -, hargument⟩ := List.mem_map.1 hmem
    exact argumentName_ne argument.2 hname hargument.symm
  rw [List.cons_append, List.nodup_cons, List.nodup_append, List.mem_append, not_or]
  refine ⟨⟨hother "self" (by decide), fun hself => ?_⟩, nodup_names m,
    h.nodup (List.nodup_singleton _), fun name hname result hresult => ?_⟩
  · exact absurd (List.mem_singleton.1 (h.subset hself)) (by decide)
  · rintro rfl
    rw [List.mem_singleton.1 (h.subset hresult)] at hname
    exact hother "ret" (by decide) hname

end Member

/-! ## The result -/

namespace Wrapper

/-- What a wrapper does behind its arguments: the code of its statements, and the number of values
that it pushes. The text of a value is pushed whatever the member returns. -/
inductive Closes (cs : Conversions) (owner : String) (m : Member) (call : String) :
    List String → Nat → Prop
  | text (name : m.name = "__tostring") :
      Closes cs owner m call ["lua_pushfstring(L, \"[" ++ owner ++
        " %s]\", GD_STR_NAME_DATA(self->operator " ++ m.returnType ++ "()))"] 1
  | nothing (name : m.name ≠ "__tostring") (void : m.returnType = "void") :
      Closes cs owner m call [call] 0
  | result (name : m.name ≠ "__tostring") (value : m.returnType ≠ "void") {c : Conversion}
      {code : String} (mapped : cs.push.get? m.returnType = some c)
      (filled : Text.Filled c.template "{value}" "ret" code) :
      Closes cs owner m call ["auto ret = " ++ call, code] 1
  | handle (name : m.name ≠ "__tostring") (value : m.returnType ≠ "void")
      (unmapped : m.returnType ∉ cs.push.typeNames) :
      Closes cs owner m call ["auto ret = " ++ call,
        "LuaScriptLanguage::push_userdata(L, \"" ++ m.returnType ++ "\", ret)"] 1

def callCode (member : String) (locals : List String) : String :=
  "self->" ++ member ++ "(" ++ ", ".intercalate locals ++ ")"

structure Ending.Fits (cs : Conversions) (owner : String) (m : Member) (locals : List String)
    (e : Ending) : Prop where
  closes : Closes cs owner m (callCode m.name locals) (e.statements.map Statement.code) e.pushed
  bindings : e.statements.filterMap Statement.binding? = []
  bound : (e.statements.filterMap Statement.bound?).Sublist ["ret"]
  inScope : ∀ known, "self" ∈ known → locals ⊆ known → Statement.InScope known e.statements
  hostCalls : m.name ≠ "__tostring" →
    e.statements.filterMap Statement.hostCall? = [(m.name, locals)]
  pushed : e.pushed =
    if m.name = "__tostring" then 1 else if m.returnType = "void" then 0 else 1
  pushes : e.statements.countP Statement.pushes = e.pushed

theorem code_callForResult (member : String) (locals : List String) :
    (Statement.callForResult member locals).code = "auto ret = " ++ callCode member locals := by
  have hlead : "auto " ++ Statement.resultName ++ " = self->" = "auto ret = " ++ "self->" := by
    decide
  unfold Statement.code callCode
  rw [hlead]
  simp only [String.append_assoc]

theorem code_pushHandle (typeName : String) :
    (Statement.pushHandle typeName).code =
      "LuaScriptLanguage::push_userdata(L, \"" ++ typeName ++ "\", ret)" := by
  have hend : "\", " ++ (Statement.resultName ++ ")") = "\", ret)" := by decide
  unfold Statement.code
  simp only [String.append_assoc]
  rw [hend]

theorem inScope_callForResult {known locals : List String} {member : String} {push : Statement}
    (hself : "self" ∈ known) (hlocals : locals ⊆ known) (hpush : push.uses = ["ret"]) :
    Statement.InScope known [.callForResult member locals, push] := by
  refine ⟨?_, ?_, trivial⟩
  · rw [Statement.uses, List.forall_mem_cons]
    exact ⟨hself, hlocals⟩
  · rw [hpush, List.forall_mem_singleton]
    exact List.mem_append_right known (List.mem_singleton_self "ret")

theorem endingOf_fits (cs : Conversions) (owner : String) (m : Member) (locals : List String) :
    (endingOf cs owner m locals).Fits cs owner m locals := by
  have htostring : m.isTostring = true ↔ m.name = "__tostring" := beq_iff_eq
  have hvoid : m.isVoid = true ↔ m.returnType = "void" := beq_iff_eq
  unfold endingOf
  by_cases htext : m.name = "__tostring"
  · rw [if_pos (htostring.2 htext)]
    refine ⟨.text htext, rfl, List.nil_sublist _, ?_, fun hname => absurd htext hname, ?_, rfl⟩
    · intro known hself _
      exact ⟨List.forall_mem_singleton.2 hself, trivial⟩
    · rw [if_pos htext]
  rw [if_neg (mt htostring.1 htext)]
  by_cases hnothing : m.returnType = "void"
  · rw [if_pos (hvoid.2 hnothing)]
    refine ⟨.nothing htext hnothing, rfl, List.nil_sublist _, ?_, fun _ => rfl, ?_, rfl⟩
    · intro known hself hlocals
      exact ⟨List.forall_mem_cons.2 ⟨hself, hlocals⟩, trivial⟩
    · rw [if_neg htext, if_pos hnothing]
  rw [if_neg (mt hvoid.1 hnothing)]
  have hpushed :
      1 = if m.name = "__tostring" then 1 else if m.returnType = "void" then 0 else 1 := by
    rw [if_neg htext, if_neg hnothing]
  cases hpush : cs.push.get? m.returnType with
  | some c =>
    refine ⟨?_, rfl, List.Sublist.refl _, ?_, fun _ => rfl, hpushed, rfl⟩
    · have hfilled := Text.filled_fill (by decide : "{value}" ≠ "") c.template "ret"
      simp only [List.map_cons, List.map_nil, code_callForResult]
      exact .result htext hnothing hpush hfilled
    · exact fun known hself hlocals => inScope_callForResult hself hlocals rfl
  | none =>
    refine ⟨?_, rfl, List.Sublist.refl _, ?_, fun _ => rfl, hpushed, rfl⟩
    · simp only [List.map_cons, List.map_nil, code_callForResult, code_pushHandle]
      exact .handle htext hnothing (ConversionTable.get?_eq_none_iff.1 hpush)
    · exact fun known hself hlocals => inScope_callForResult hself hlocals rfl

/-! ## The whole wrapper -/

/-- A wrapper of a member, with the locals of its arguments and their codes, and the code behind
them. -/
structure Marshals (cs : Conversions) (owner : String) (m : Member) (w : Wrapper)
    (bindings : List (String × String)) (closing : List String) : Prop where
  text : w.text = "static int godot_" ++ owner ++ "_" ++ m.name ++ r"(lua_State *L) {
" ++ String.join (w.statements.map fun s => "    " ++ s.code ++ ";\n") ++ r"}
"
  codes : w.statements.map Statement.code =
    ["auto self = TO_USERDATA(" ++ owner ++ ", 1)"] ++
      bindings.map (fun binding => "auto " ++ binding.1 ++ " = " ++ binding.2) ++ closing ++
        ["return " ++ toString w.pushed]
  /-- The arguments that can be read are bound in order, each to what reads its slot. -/
  reads : List.Forall₂ (Member.Reads cs) (m.readable cs) bindings
  bindings : w.statements.filterMap Statement.binding? = bindings
  bound_once : (w.statements.filterMap Statement.bound?).Nodup
  bound_first : Statement.InScope [] w.statements
  callArguments : w.callArguments =
    (m.readable cs).map fun argument => "arg" ++ toString argument.2
  arity : w.callArguments.length + w.gaps.countP Gap.isOmission = m.argTypes.length
  closes : Closes cs owner m (callCode m.name w.callArguments) closing w.pushed
  hostCalls : m.name ≠ "__tostring" →
    w.statements.filterMap Statement.hostCall? = [(m.name, w.callArguments)]
  pushed : w.pushed =
    if m.name = "__tostring" then 1 else if m.returnType = "void" then 0 else 1
  pushes : w.statements.countP Statement.pushes = w.pushed

variable (cs : Conversions) (owner : String) (m : Member)

def bindingOf (reading : Nat × String) : Statement := .bindArgument reading.1 reading.2

theorem statements_argumentsOf :
    (argumentsOf cs m).filterMap Argument.statement? = (m.readings cs).map bindingOf := by
  unfold argumentsOf Member.readings
  rw [List.filterMap_map, List.map_filterMap]
  congr 1
  funext ⟨type, index⟩
  simp only [Function.comp_apply, Argument.statement?, Member.reading?, Option.map_map]
  rfl

theorem locals_argumentsOf :
    (argumentsOf cs m).filterMap Argument.local? =
      (m.readable cs).map fun argument => "arg" ++ toString argument.2 := by
  rw [← Member.names_bindings]
  unfold argumentsOf Member.readings
  rw [List.filterMap_map, List.map_filterMap, List.map_filterMap]
  congr 1
  funext ⟨type, index⟩
  simp only [Function.comp_apply, Argument.local?, Member.reading?, Option.map_map]
  rfl

theorem statements_ofMember :
    (ofMember cs owner m).statements = [.receive owner] ++ (m.readings cs).map bindingOf ++
      (endingOf cs owner m (ofMember cs owner m).callArguments).statements ++
        [.finish (ofMember cs owner m).pushed] := by
  rw [← statements_argumentsOf]
  rfl

/-- What a view shows of a wrapper: what it shows of the receiver, of the arguments, of the ending
and of the return. -/
theorem filterMap_statements {β : Type} (f : Statement → Option β) :
    (ofMember cs owner m).statements.filterMap f =
      (f (.receive owner)).toList ++
        (m.readings cs).filterMap (fun reading => f (bindingOf reading)) ++
        (endingOf cs owner m (ofMember cs owner m).callArguments).statements.filterMap f ++
          (f (.finish (ofMember cs owner m).pushed)).toList := by
  have hone : ∀ s, [s].filterMap f = (f s).toList := by
    intro s
    rw [List.filterMap_cons]
    cases f s <;> rfl
  rw [statements_ofMember, List.filterMap_append, List.filterMap_append, List.filterMap_append,
    List.filterMap_map, hone, hone]
  rfl

theorem inScope_bindings (known : List String) (readings : List (Nat × String)) :
    Statement.InScope known (readings.map bindingOf) := by
  induction readings generalizing known with
  | nil => trivial
  | cons reading rest ih => exact ⟨nofun, ih _⟩

theorem bindings_ofMember :
    (ofMember cs owner m).statements.filterMap Statement.binding? =
      (m.readings cs).map Member.binding := by
  have hending := (endingOf_fits cs owner m (ofMember cs owner m).callArguments).bindings
  rw [filterMap_statements, hending]
  change [] ++ (m.readings cs).filterMap (fun reading => some (Member.binding reading)) ++ [] ++
    [] = _
  rw [List.append_nil, List.append_nil, List.nil_append, List.filterMap_eq_map']

theorem bound_ofMember :
    (ofMember cs owner m).statements.filterMap Statement.bound? =
      "self" :: (m.readable cs).map (fun argument => "arg" ++ toString argument.2) ++
        (endingOf cs owner m (ofMember cs owner m).callArguments).statements.filterMap
          Statement.bound? := by
  rw [filterMap_statements, ← Member.names_bindings, List.map_map]
  change ["self"] ++ (m.readings cs).filterMap (fun reading => some (Member.binding reading).1) ++
    _ ++ [] = _
  rw [List.append_nil, List.filterMap_eq_map']
  rfl

theorem callArguments_ofMember :
    (ofMember cs owner m).callArguments =
      (m.readable cs).map fun argument => "arg" ++ toString argument.2 :=
  locals_argumentsOf cs m

theorem inScope_ofMember : Statement.InScope [] (ofMember cs owner m).statements := by
  have hfront : ([Statement.receive owner] ++ (m.readings cs).map bindingOf).filterMap
      Statement.bound? = "self" :: (ofMember cs owner m).callArguments := by
    rw [callArguments_ofMember, ← Member.names_bindings, List.map_map, List.filterMap_append,
      List.filterMap_map]
    change ["self"] ++ (m.readings cs).filterMap (fun reading => some (Member.binding reading).1) =
      _
    rw [List.filterMap_eq_map']
    rfl
  rw [statements_ofMember]
  simp only [Statement.inScope_append, hfront]
  refine ⟨⟨⟨⟨nofun, trivial⟩, inScope_bindings _ _⟩, ?_⟩, nofun, trivial⟩
  apply (endingOf_fits cs owner m _).inScope
  · exact List.mem_cons_self
  · exact List.subset_cons_self _ _

theorem codes_ofMember :
    (ofMember cs owner m).statements.map Statement.code =
      ["auto self = TO_USERDATA(" ++ owner ++ ", 1)"] ++
        ((m.readings cs).map Member.binding).map (fun binding =>
          "auto " ++ binding.1 ++ " = " ++ binding.2) ++
        (endingOf cs owner m (ofMember cs owner m).callArguments).statements.map Statement.code ++
          ["return " ++ toString (ofMember cs owner m).pushed] := by
  rw [statements_ofMember, List.map_append, List.map_append, List.map_append, List.map_map,
    List.map_map]
  rfl

theorem text_ofMember :
    (ofMember cs owner m).text =
      "static int godot_" ++ owner ++ "_" ++ m.name ++ r"(lua_State *L) {
" ++ String.join ((ofMember cs owner m).statements.map fun s => "    " ++ s.code ++ ";\n") ++ r"}
" := by
  have hlead : "static int godot_" = "static int " ++ "godot_" := by decide
  have hname : (ofMember cs owner m).functionName = "godot_" ++ owner ++ "_" ++ m.name := rfl
  unfold text
  rw [hname, hlead]
  simp only [String.append_assoc]
  rfl

theorem arity_ofMember :
    (ofMember cs owner m).callArguments.length +
      (ofMember cs owner m).gaps.countP Gap.isOmission = m.argTypes.length := by
  have homissions :
      (m.omissions cs owner).countP Gap.isOmission = (m.omissions cs owner).length := by
    rw [List.countP_eq_length]
    intro gap hgap
    obtain ⟨argument, -, hargument⟩ := List.mem_flatMap.1 hgap
    unfold Member.omission at hargument
    split_ifs at hargument
    · cases hargument
    · rw [List.mem_singleton.1 hargument]
      rfl
  have hreturns : (m.opaqueReturns cs owner).countP Gap.isOmission = 0 := by
    unfold Member.opaqueReturns
    split_ifs <;> rfl
  have hlength : (m.readings cs).length + (m.omissions cs owner).length =
      m.argTypes.zipIdx.length := Member.length_filterMap_reading?_add owner m _
  rw [gaps_ofMember, List.countP_append, homissions, hreturns, Nat.add_zero,
    callArguments_ofMember, ← Member.names_bindings, List.length_map, List.length_map]
  rwa [List.length_zipIdx] at hlength

theorem ofMember_marshals : ∃ bindings closing,
    Marshals cs owner m (ofMember cs owner m) bindings closing := by
  have hfits := endingOf_fits cs owner m (ofMember cs owner m).callArguments
  refine ⟨(m.readings cs).map Member.binding,
    (endingOf cs owner m (ofMember cs owner m).callArguments).statements.map Statement.code,
    text_ofMember cs owner m, codes_ofMember cs owner m, Member.forall₂_reads _,
    bindings_ofMember cs owner m, ?_, inScope_ofMember cs owner m,
    callArguments_ofMember cs owner m, arity_ofMember cs owner m, hfits.closes, ?_, hfits.pushed,
    ?_⟩
  · rw [bound_ofMember]
    exact Member.nodup_locals m hfits.bound
  · intro hname
    have hnone : (m.readings cs).filterMap
        (fun reading => Statement.hostCall? (bindingOf reading)) = [] :=
      List.filterMap_eq_nil_iff.2 fun _ _ => rfl
    rw [filterMap_statements, hfits.hostCalls hname, hnone]
    rfl
  · have hnone : ((m.readings cs).map bindingOf).countP Statement.pushes = 0 := by
      rw [List.countP_eq_zero, List.forall_mem_map]
      exact fun _ _ => Bool.false_ne_true
    rw [statements_ofMember, List.countP_append, List.countP_append, List.countP_append, hnone,
      hfits.pushes]
    change 0 + 0 + (ofMember cs owner m).pushed + 0 = _
    omega

/-- An argument that is left out keeps its index and its slot. -/
example :
    (ofMember .godot "Foo" ⟨"Vector3", "move", ["Vector2", "int"]⟩).text =
      r#"static int godot_Foo_move(lua_State *L) {
    auto self = TO_USERDATA(Foo, 1);
    auto arg1 = luaL_optinteger(L, 3, 0);
    auto ret = self->move(arg1);
    LuaScriptLanguage::push_userdata(L, "Vector3", ret);
    return 1;
}
"# := by
  decide +kernel

end Wrapper

end LuaGlue

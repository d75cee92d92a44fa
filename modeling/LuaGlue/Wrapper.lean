import LuaGlue.Failure
import LuaGlue.Job
import LuaGlue.Member

/-!
# Wrappers

The C function that makes a member of a host type callable from Lua. Its receiver stands in stack
slot 1 and the declared argument `i`, counted from 0, in slot `i + 2`. An argument whose type has no
conversion is left out of the call, and a result whose type has none is pushed as a handle; both are
recorded as gaps. A wrapper is kept as a list of statements until its text is asked for.
-/

namespace LuaGlue

/-- Where the generated code does less than the declarations say. -/
inductive Gap where
  /-- An argument whose type has no extraction template, so that the call leaves it out. -/
  | omittedArgument (owner member : String) (index : Nat) (typeName : String)
  /-- A result whose type has no push template, so that it is pushed as a handle. -/
  | opaqueReturn (owner member typeName : String)
  /-- A declared finalizer, which gives way to the generated one. -/
  | declaredFinalizer (owner : String)
  deriving DecidableEq, Repr

namespace Gap

def typeName : Gap → String
  | .omittedArgument _ _ _ typeName => typeName
  | .opaqueReturn _ _ typeName => typeName
  | .declaredFinalizer owner => owner

def message : Gap → String
  | .omittedArgument owner member index typeName =>
    owner ++ "::" ++ member ++ ": argument " ++ toString index ++ " of type `" ++ typeName ++
      "` has no extraction template, omitted from call"
  | .opaqueReturn owner member typeName =>
    owner ++ "::" ++ member ++ ": return type `" ++ typeName ++
      "` has no push template, pushing as userdata"
  | .declaredFinalizer owner =>
    owner ++ ": declared " ++ Member.finalizerName ++
      " ignored, the finalizer is always synthesized"

def event (g : Gap) : Event := ⟨.warn, g.message⟩

def failure : Gap → Failure
  | .omittedArgument owner member index typeName =>
    .unsupported owner member typeName (.argument index)
  | .opaqueReturn owner member typeName => .unsupported owner member typeName .returnValue
  | .declaredFinalizer owner =>
    .unsupported owner Member.finalizerName owner .declaredFinalizer

end Gap

inductive Statement where
  | receive (owner : String)
  /-- Bind the local of a declared argument to the code that reads it. -/
  | bindArgument (index : Nat) (code : String)
  | call (member : String) (arguments : List String)
  | callForResult (member : String) (arguments : List String)
  | pushText (owner returnType : String)
  | pushResult (code : String)
  | pushHandle (typeName : String)
  | destroy (owner : String)
  | finish (pushed : Nat)
  deriving DecidableEq, Repr

namespace Statement

def argumentName (index : Nat) : String := "arg" ++ toString index

def resultName : String := "ret"

def code : Statement → String
  | .receive owner => "auto self = TO_USERDATA(" ++ owner ++ ", 1)"
  | .bindArgument index code => "auto " ++ argumentName index ++ " = " ++ code
  | .call member arguments => "self->" ++ member ++ "(" ++ ", ".intercalate arguments ++ ")"
  | .callForResult member arguments =>
    "auto " ++ resultName ++ " = self->" ++ member ++ "(" ++ ", ".intercalate arguments ++ ")"
  | .pushText owner returnType =>
    "lua_pushfstring(L, \"[" ++ owner ++ " %s]\", GD_STR_NAME_DATA(self->operator " ++
      returnType ++ "()))"
  | .pushResult code => code
  | .pushHandle typeName =>
    "LuaScriptLanguage::push_userdata(L, \"" ++ typeName ++ "\", " ++ resultName ++ ")"
  | .destroy owner => "TO_USERDATA(" ++ owner ++ ", 1)->~" ++ owner ++ "()"
  | .finish pushed => "return " ++ toString pushed

def line (s : Statement) : String := "    " ++ s.code ++ ";\n"

end Statement

/-- A generated function, the key under which its type registers it, the number of values that it
returns to Lua, the locals that it passes to the member, and its gaps. -/
structure Wrapper where
  member : String
  functionName : String
  pushed : Nat
  callArguments : List String
  statements : List Statement
  gaps : List Gap
  deriving DecidableEq, Repr

namespace Wrapper

def nameOf (owner member : String) : String := "godot_" ++ owner ++ "_" ++ member

def text (w : Wrapper) : String :=
  "static int " ++ w.functionName ++ r"(lua_State *L) {
" ++ String.join (w.statements.map Statement.line) ++ r"}
"

/-- What becomes of a declared argument: the code that reads it, or none. -/
structure Argument where
  index : Nat
  typeName : String
  code? : Option String
  deriving DecidableEq, Repr

def Argument.slotOf (index : Nat) : Nat := index + 2

def argumentsOf (cs : Conversions) (m : Member) : List Argument :=
  m.argTypes.zipIdx.map fun (typeName, index) => {
    index, typeName
    code? := (cs.extract.get? typeName).map (·.renderExtract (Argument.slotOf index)) }

def Argument.statement? (a : Argument) : Option Statement :=
  a.code?.map (Statement.bindArgument a.index)

def Argument.local? (a : Argument) : Option String :=
  a.code?.map fun _ => Statement.argumentName a.index

def Argument.gap? (owner member : String) (a : Argument) : Option Gap :=
  if a.code?.isNone then some (.omittedArgument owner member a.index a.typeName) else none

/-- What a wrapper does after its arguments are bound: its statements, the number of values it
pushes, and its gap, if any. -/
structure Ending where
  statements : List Statement
  pushed : Nat
  gap? : Option Gap
  deriving DecidableEq, Repr

def endingOf (cs : Conversions) (owner : String) (m : Member) (locals : List String) : Ending :=
  if m.isTostring then ⟨[.pushText owner m.returnType], 1, none⟩
  else if m.isVoid then ⟨[.call m.name locals], 0, none⟩
  else
    let call := Statement.callForResult m.name locals
    match cs.push.get? m.returnType with
    | some conversion =>
      ⟨[call, .pushResult (conversion.renderPush Statement.resultName)], 1, none⟩
    | none =>
      ⟨[call, .pushHandle m.returnType], 1, some (.opaqueReturn owner m.name m.returnType)⟩

def ofMember (cs : Conversions) (owner : String) (m : Member) : Wrapper :=
  let arguments := argumentsOf cs m
  let locals := arguments.filterMap Argument.local?
  let ending := endingOf cs owner m locals
  { member := m.name
    functionName := nameOf owner m.name
    pushed := ending.pushed
    callArguments := locals
    statements := .receive owner :: arguments.filterMap Argument.statement? ++ ending.statements ++
      [.finish ending.pushed]
    gaps := arguments.filterMap (Argument.gap? owner m.name) ++ ending.gap?.toList }

def finalizer (owner : String) : Wrapper where
  member := Member.finalizerName
  functionName := nameOf owner Member.finalizerName
  pushed := 0
  callArguments := []
  statements := [.destroy owner, .finish 0]
  gaps := []

/-- The finalizer of a type, which records whether it replaces a declared one. -/
def lastOf (owner : String) (declared : Bool) : Wrapper :=
  { finalizer owner with gaps := if declared then [.declaredFinalizer owner] else [] }

/-- The wrappers of a type with the given members: those of its members but declared finalizers, in
order, and the finalizer, which records that it replaces declared ones. -/
def allOf (cs : Conversions) (owner : String) (members : List Member) : List Wrapper :=
  (members.filter fun m => !m.isFinalizer).map (ofMember cs owner) ++
    [lastOf owner (members.any Member.isFinalizer)]

variable {ε : Type}

def report (w : Wrapper) : Job ε Wrapper :=
  (Job.notes (w.gaps.map Gap.event)).bind fun _ => .done w

/-- Make the wrappers of members in order. A declared finalizer gets none. -/
def emitMembers (cs : Conversions) (owner : String) : List Member → Job ε (List Wrapper)
  | [] => .done []
  | m :: rest =>
    if m.isFinalizer then emitMembers cs owner rest
    else
      (ofMember cs owner m).report.bind fun w =>
        (emitMembers cs owner rest).bind fun ws => .done (w :: ws)

def emitAll (cs : Conversions) (owner : String) (members : List Member) : Job ε (List Wrapper) :=
  (emitMembers cs owner members).bind fun ws =>
    (lastOf owner (members.any Member.isFinalizer)).report.bind fun last => .done (ws ++ [last])

end Wrapper

end LuaGlue

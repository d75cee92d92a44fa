import LuaGlue.FileTree

/-!
# Jobs

A job reads and writes files, reports events, prints, and ends with a value or a failure. It is a
value itself: it can be run on a file tree, where everything it does can be seen, or performed on
the files of a machine.
-/

namespace LuaGlue

inductive Level where
  | debug
  | info
  | warn
  deriving DecidableEq, Repr

structure Event where
  level : Level
  message : String
  deriving DecidableEq, Repr

inductive Stream where
  | output
  | errors
  deriving DecidableEq, Repr

/-- A job that ends with a value of type `α` or a failure of type `ε`. -/
inductive Job (ε α : Type) where
  | done (value : α)
  | fail (failure : ε)
  /-- Read a file and go on with its content. -/
  | read (path : Path) (next : Except FileTree.Fault ByteArray → Job ε α)
  /-- Write a file, with the folders above it, and go on with the path that could not be made or
  written, if any. -/
  | save (path : Path) (content : ByteArray) (next : Option Path → Job ε α)
  | report (event : Event) (next : Job ε α)
  | print (stream : Stream) (text : String) (next : Job ε α)

/-- What a job did on a file tree: its end, the tree it left, the events it reported and the texts
it printed. -/
structure Run (ε α : Type) where
  result : Except ε α
  tree : FileTree
  log : List Event
  output : String
  errors : String

namespace Job

variable {ε δ α β : Type}

def bind : Job ε α → (α → Job ε β) → Job ε β
  | .done value, f => f value
  | .fail failure, _ => .fail failure
  | .read path next, f => .read path fun found => (next found).bind f
  | .save path content next, f => .save path content fun lost => (next lost).bind f
  | .report event next, f => .report event (next.bind f)
  | .print stream text next, f => .print stream text (next.bind f)

instance : Monad (Job ε) where
  pure := .done
  bind := bind

def mapFailure (f : ε → δ) : Job ε α → Job δ α
  | .done value => .done value
  | .fail failure => .fail (f failure)
  | .read path next => .read path fun found => (next found).mapFailure f
  | .save path content next => .save path content fun lost => (next lost).mapFailure f
  | .report event next => .report event (next.mapFailure f)
  | .print stream text next => .print stream text (next.mapFailure f)

def note (level : Level) (message : String) : Job ε Unit := .report ⟨level, message⟩ (.done ())

def notes : List Event → Job ε Unit
  | [] => .done ()
  | event :: rest => .report event (notes rest)

def say (stream : Stream) (text : String) : Job ε Unit := .print stream text (.done ())

def run : Job ε α → FileTree → Run ε α
  | .done value, t => ⟨.ok value, t, [], "", ""⟩
  | .fail failure, t => ⟨.error failure, t, [], "", ""⟩
  | .read path next, t => (next (t.read path)).run t
  | .save path content next, t =>
    let saved := t.save path content
    (next saved.2).run saved.1
  | .report event next, t =>
    let after := next.run t
    { after with log := event :: after.log }
  | .print stream text next, t =>
    let after := next.run t
    match stream with
    | .output => { after with output := text ++ after.output }
    | .errors => { after with errors := text ++ after.errors }

@[simp] theorem run_done (value : α) (t : FileTree) :
    (done value : Job ε α).run t = ⟨.ok value, t, [], "", ""⟩ := rfl

@[simp] theorem run_fail (failure : ε) (t : FileTree) :
    (fail failure : Job ε α).run t = ⟨.error failure, t, [], "", ""⟩ := rfl

@[simp] theorem bind_eq_bind (x : Job ε α) (f : α → Job ε β) : x >>= f = x.bind f := rfl

@[simp] theorem pure_eq_done (value : α) : (pure value : Job ε α) = .done value := rfl

@[simp] theorem run_note (level : Level) (message : String) (t : FileTree) :
    (note level message : Job ε Unit).run t = ⟨.ok (), t, [⟨level, message⟩], "", ""⟩ := rfl

@[simp] theorem run_notes (events : List Event) (t : FileTree) :
    (notes events : Job ε Unit).run t = ⟨.ok (), t, events, "", ""⟩ := by
  induction events with
  | nil => rfl
  | cons event rest ih => rw [notes, run, ih]

/-- A job bound to another runs like the first one and then, if that ends with a value, like the
second one on the tree that the first one left. -/
theorem run_bind (x : Job ε α) (f : α → Job ε β) (t : FileTree) :
    (x.bind f).run t =
      match (x.run t).result with
      | .error failure =>
        ⟨.error failure, (x.run t).tree, (x.run t).log, (x.run t).output, (x.run t).errors⟩
      | .ok value =>
        let after := (f value).run (x.run t).tree
        ⟨after.result, after.tree, (x.run t).log ++ after.log, (x.run t).output ++ after.output,
          (x.run t).errors ++ after.errors⟩ := by
  induction x generalizing t with
  | done value => simp [bind, run]
  | fail failure => simp [bind, run]
  | read path next ih => simpa [bind, run] using ih (t.read path) t
  | save path content next ih => simpa [bind, run] using ih (t.save path content).2 _
  | report event next ih =>
    simp only [bind, run, ih t]
    cases (next.run t).result <;> simp
  | print stream text next ih =>
    simp only [bind, run, ih t]
    cases stream <;> cases (next.run t).result <;> simp [String.append_assoc]

end Job

end LuaGlue

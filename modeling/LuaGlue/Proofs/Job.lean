import LuaGlue.Job

/-!
# How jobs end

`Ends` relates the tree before a job, its value and the tree after it; a job bound to another ends
well exactly if both do. `Fails` relates the tree before a job, its failure and the tree after it; a
job bound to another fails exactly if the first one does, or the second one where the first one
ended. Of a list of jobs in order, the first one that fails is where it fails, on the tree that
those before it left. A job that writes no file leaves every tree as it was, however it ends, and a
job of silent parts prints nothing.
-/

namespace LuaGlue.Job

variable {ε δ α β γ : Type}

/-- The job ends on the first tree with a value, and leaves the second tree. -/
def Ends (x : Job ε α) (t : FileTree) (value : α) (t' : FileTree) : Prop :=
  (x.run t).result = .ok value ∧ (x.run t).tree = t'

theorem ends_done_iff {value final : α} {t t' : FileTree} :
    (done value : Job ε α).Ends t final t' ↔ value = final ∧ t = t' := by
  simp [Ends]

theorem ends_bind_iff {x : Job ε α} {f : α → Job ε β} {t t' : FileTree} {final : β} :
    (x.bind f).Ends t final t' ↔
      ∃ value between, x.Ends t value between ∧ (f value).Ends between final t' := by
  unfold Ends
  rw [run_bind]
  cases h : (x.run t).result with
  | error failure => simp
  | ok value =>
    constructor
    · intro hf
      exact ⟨value, _, ⟨rfl, rfl⟩, hf⟩
    · rintro ⟨value', between, ⟨hvalue, rfl⟩, hf⟩
      cases hvalue
      exact hf

theorem exists_ends_of_map {x : Job ε α} {t : FileTree} {f : α → β} {part : β}
    (h : (x.run t).result.map f = .ok part) :
    ∃ value, x.Ends t value (x.run t).tree ∧ f value = part := by
  cases hresult : (x.run t).result with
  | error failure =>
    rw [hresult] at h
    cases h
  | ok value =>
    rw [hresult] at h
    cases h
    exact ⟨value, ⟨hresult, rfl⟩, rfl⟩

theorem output_bind_of_ends {x : Job ε α} {f : α → Job ε β} {t between : FileTree} {value : α}
    (h : x.Ends t value between) :
    ((x.bind f).run t).output = (x.run t).output ++ ((f value).run between).output := by
  obtain ⟨hresult, rfl⟩ := h
  rw [run_bind, hresult]

theorem run_bind_of_error {x : Job ε α} {f : α → Job ε β} {t : FileTree} {failure : ε}
    (h : (x.run t).result = .error failure) :
    ((x.bind f).run t).result = .error failure ∧ ((x.bind f).run t).tree = (x.run t).tree := by
  rw [run_bind, h]
  exact ⟨rfl, rfl⟩

theorem run_bind_of_ends {x : Job ε α} {f : α → Job ε β} {t between : FileTree} {value : α}
    (h : x.Ends t value between) :
    ((x.bind f).run t).result = ((f value).run between).result ∧
      ((x.bind f).run t).tree = ((f value).run between).tree := by
  obtain ⟨hresult, rfl⟩ := h
  rw [run_bind, hresult]
  exact ⟨rfl, rfl⟩

def Fails (x : Job ε α) (t : FileTree) (failure : ε) (t' : FileTree) : Prop :=
  (x.run t).result = .error failure ∧ (x.run t).tree = t'

theorem fails_of_map {x : Job ε α} {t : FileTree} {f : α → β} {failure : ε}
    (h : (x.run t).result.map f = .error failure) : x.Fails t failure (x.run t).tree := by
  cases hresult : (x.run t).result with
  | error other =>
    rw [hresult] at h
    cases h
    exact ⟨hresult, rfl⟩
  | ok value =>
    rw [hresult] at h
    cases h

theorem not_fails_done {value : α} {failure : ε} {t t' : FileTree} :
    ¬(done value : Job ε α).Fails t failure t' := by
  intro h
  cases h.1

theorem not_fails_notes {events : List Event} {failure : ε} {t t' : FileTree} :
    ¬(notes events : Job ε Unit).Fails t failure t' := by
  intro h
  have hresult := h.1
  rw [run_notes] at hresult
  cases hresult

theorem fails_fail_iff {failure final : ε} {t t' : FileTree} :
    (fail failure : Job ε α).Fails t final t' ↔ failure = final ∧ t = t' := by
  simp [Fails]

theorem fails_bind_iff {x : Job ε α} {f : α → Job ε β} {t t' : FileTree} {failure : ε} :
    (x.bind f).Fails t failure t' ↔
      x.Fails t failure t' ∨
        ∃ value between, x.Ends t value between ∧ (f value).Fails between failure t' := by
  unfold Fails Ends
  rw [run_bind]
  cases h : (x.run t).result with
  | error other => simp
  | ok value =>
    constructor
    · intro hf
      exact Or.inr ⟨value, _, ⟨rfl, rfl⟩, hf⟩
    · rintro (⟨⟨⟩, -⟩ | ⟨value', between, ⟨hvalue, rfl⟩, hf⟩)
      cases hvalue
      exact hf

theorem fails_of_fails_bind {x : Job ε α} {f : α → Job ε β} {t t' : FileTree} {failure : ε}
    (hf : ∀ value between, ¬(f value).Fails between failure t')
    (h : (x.bind f).Fails t failure t') : x.Fails t failure t' := by
  rcases fails_bind_iff.1 h with hx | ⟨value, between, -, hlast⟩
  · exact hx
  · exact absurd hlast (hf value between)

theorem run_mapFailure (f : ε → δ) (x : Job ε α) (t : FileTree) :
    (x.mapFailure f).run t =
      ⟨(x.run t).result.mapError f, (x.run t).tree, (x.run t).log, (x.run t).output,
        (x.run t).errors⟩ := by
  induction x generalizing t with
  | done value => rfl
  | fail failure => rfl
  | read path next ih => exact ih _ t
  | save path content next ih => exact ih _ _
  | report event next ih => simp only [mapFailure, run, ih t]
  | print stream text next ih =>
    simp only [mapFailure, run, ih t]
    cases stream <;> rfl

theorem Ends.mapFailure {x : Job ε α} {t t' : FileTree} {value : α} (h : x.Ends t value t')
    (f : ε → δ) : (x.mapFailure f).Ends t value t' := by
  obtain ⟨hresult, rfl⟩ := h
  rw [Ends, run_mapFailure, hresult]
  exact ⟨rfl, rfl⟩

theorem fails_mapFailure_iff {f : ε → δ} {x : Job ε α} {t t' : FileTree} {final : δ} :
    (x.mapFailure f).Fails t final t' ↔ ∃ failure, x.Fails t failure t' ∧ f failure = final := by
  unfold Fails
  rw [run_mapFailure]
  cases (x.run t).result with
  | ok value =>
    constructor
    · rintro ⟨⟨⟩, -⟩
    · rintro ⟨failure, ⟨⟨⟩, -⟩, -⟩
  | error failure =>
    constructor
    · rintro ⟨⟨⟩, htree⟩
      exact ⟨failure, ⟨rfl, htree⟩, rfl⟩
    · rintro ⟨failure', ⟨⟨⟩, htree⟩, rfl⟩
      exact ⟨rfl, htree⟩

theorem bind_assoc (x : Job ε α) (f : α → Job ε β) (g : β → Job ε γ) :
    (x.bind f).bind g = x.bind fun value => (f value).bind g := by
  induction x with
  | done value => rfl
  | fail failure => rfl
  | read path next ih => simp only [bind, ih]
  | save path content next ih => simp only [bind, ih]
  | report event next ih => simp only [bind, ih]
  | print stream text next ih => simp only [bind, ih]

def inOrder : List (Job ε Unit) → Job ε Unit
  | [] => .done ()
  | job :: rest => job.bind fun _ => inOrder rest

/-- All jobs end, each on the tree that the one before it left. -/
inductive EndInOrder : List (Job ε Unit) → FileTree → FileTree → Prop
  | nil {t : FileTree} : EndInOrder [] t t
  | cons {job : Job ε Unit} {rest : List (Job ε Unit)} {t between t' : FileTree}
      (first : job.Ends t () between) (others : EndInOrder rest between t') :
      EndInOrder (job :: rest) t t'

theorem inOrder_fails {jobs : List (Job ε Unit)} {t t' : FileTree} {failure : ε}
    (h : (inOrder jobs).Fails t failure t') :
    ∃ earlier job later between, jobs = earlier ++ job :: later ∧ EndInOrder earlier t between ∧
      job.Fails between failure t' := by
  induction jobs generalizing t with
  | nil => exact absurd h not_fails_done
  | cons job rest ih =>
    rcases fails_bind_iff.1 h with hjob | ⟨⟨⟩, between, hjob, hrest⟩
    · exact ⟨[], job, rest, t, rfl, .nil, hjob⟩
    · obtain ⟨earlier, job', later, between', rfl, hearlier, hjob'⟩ := ih hrest
      exact ⟨job :: earlier, job', later, between', rfl, .cons hjob hearlier, hjob'⟩

/-- A job that writes no file, whatever it reads. -/
def ReadOnly : Job ε α → Prop
  | .done _ => True
  | .fail _ => True
  | .read _ next => ∀ found, (next found).ReadOnly
  | .save _ _ _ => False
  | .report _ next => next.ReadOnly
  | .print _ _ next => next.ReadOnly

namespace ReadOnly

theorem tree_run {x : Job ε α} (h : x.ReadOnly) (t : FileTree) : (x.run t).tree = t := by
  induction x with
  | done value => rfl
  | fail failure => rfl
  | read path next ih => exact ih _ (h _)
  | save path content next ih => exact h.elim
  | report event next ih => exact ih h
  | print stream text next ih => cases stream <;> exact ih h

theorem tree_eq_of_ends {x : Job ε α} (h : x.ReadOnly) {t t' : FileTree} {value : α}
    (ends : x.Ends t value t') : t' = t := by
  rw [← ends.2, h.tree_run]

theorem tree_eq_of_fails {x : Job ε α} (h : x.ReadOnly) {t t' : FileTree} {failure : ε}
    (fails : x.Fails t failure t') : t' = t := by
  rw [← fails.2, h.tree_run]

theorem bind {x : Job ε α} {f : α → Job ε β} (hx : x.ReadOnly) (hf : ∀ value, (f value).ReadOnly) :
    (x.bind f).ReadOnly := by
  induction x with
  | done value => exact hf value
  | fail failure => trivial
  | read path next ih => exact fun found => ih found (hx found)
  | save path content next ih => exact hx.elim
  | report event next ih => exact ih hx
  | print stream text next ih => exact ih hx

theorem mapFailure {x : Job ε α} (h : x.ReadOnly) (f : ε → δ) : (x.mapFailure f).ReadOnly := by
  induction x with
  | done value => trivial
  | fail failure => trivial
  | read path next ih => exact fun found => ih found (h found)
  | save path content next ih => exact h.elim
  | report event next ih => exact ih h
  | print stream text next ih => exact ih h

end ReadOnly

def Silent (x : Job ε α) : Prop := ∀ t, (x.run t).output = ""

theorem Silent.bind {x : Job ε α} {f : α → Job ε β} (hx : x.Silent)
    (hf : ∀ value, (f value).Silent) : (x.bind f).Silent := by
  intro t
  rw [run_bind]
  cases (x.run t).result with
  | error failure => exact hx t
  | ok value =>
    change (x.run t).output ++ ((f value).run (x.run t).tree).output = ""
    rw [hx t, hf value, String.empty_append]

theorem Silent.mapFailure {x : Job ε α} (h : x.Silent) (f : ε → δ) : (x.mapFailure f).Silent := by
  intro t
  rw [run_mapFailure]
  exact h t

end LuaGlue.Job

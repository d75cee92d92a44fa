import LuaGlue.Proofs.Build.Scan
import LuaGlue.Proofs.Header.Emission

/-!
# Generating a header without writing it

Scanning and generating write no file. What generating ends with is decided by the catalog that the
scan ends with: its product, or the failure of its first gap if the build is strict.
-/

namespace LuaGlue.HeaderBuild

def productFor (b : HeaderBuild) (c : Catalog) : Product :=
  b.productOf (Header.ofCatalog b.conversions b.style c)

/-- What generating ends with when the scan ends with a catalog. -/
def verdict (b : HeaderBuild) (c : Catalog) : Except Failure Product :=
  match b.obstacle? (b.productFor c) with
  | some gap => .error gap.failure
  | none => .ok (b.productFor c)

theorem generate_run_of_ok {b : HeaderBuild} {t : FileTree} {c : Catalog}
    (h : ((scan b.sources).run t).result = .ok c) :
    b.generate.run t =
      ⟨b.verdict c, t,
        ((scan b.sources).run t).log ++ ((b.productFor c).header.gaps.map Gap.event ++
          if (b.obstacle? (b.productFor c)).isSome then [] else [generated (b.productFor c)]),
        ((scan b.sources).run t).output, ((scan b.sources).run t).errors⟩ := by
  have htree := (readOnly_scan b.sources).tree_run t
  unfold generate
  simp only [Job.bind_eq_bind]
  rw [Job.run_bind, h, htree]
  simp only [Job.run_bind, Header.run_emit]
  change _ = (⟨b.verdict c, t, _, _, _⟩ : Run Failure Product)
  unfold verdict productFor
  cases b.obstacle? (b.productOf (Header.ofCatalog b.conversions b.style c)) with
  | some gap => simp [productOf]
  | none => simp [Job.run, productOf]

theorem generate_run_of_error {b : HeaderBuild} {t : FileTree} {failure : Failure}
    (h : ((scan b.sources).run t).result = .error failure) :
    b.generate.run t =
      ⟨.error failure, t, ((scan b.sources).run t).log, ((scan b.sources).run t).output,
        ((scan b.sources).run t).errors⟩ := by
  have htree := (readOnly_scan b.sources).tree_run t
  unfold generate
  simp only [Job.bind_eq_bind]
  rw [Job.run_bind, h, htree]

theorem generate_tree (b : HeaderBuild) (t : FileTree) : (b.generate.run t).tree = t := by
  cases h : ((scan b.sources).run t).result with
  | ok c => rw [generate_run_of_ok h]
  | error failure => rw [generate_run_of_error h]

theorem silent_generate (b : HeaderBuild) : b.generate.Silent := by
  intro t
  have hscan : ((scan b.sources).run t).output = "" := silent_scanInto .empty b.sources t
  cases h : ((scan b.sources).run t).result with
  | ok c => rw [generate_run_of_ok h, hscan]
  | error failure => rw [generate_run_of_error h, hscan]

theorem generate_run_of_declared {b : HeaderBuild} {t t' : FileTree}
    (h : ∀ source ∈ b.sources,
      declared source (t'.read source) = declared source (t.read source)) :
    b.generate.run t' = { b.generate.run t with tree := t' } := by
  have hscan : (scan b.sources).run t' = { (scan b.sources).run t with tree := t' } :=
    scanInto_run_of_declared h
  have hsame : ((scan b.sources).run t').result = ((scan b.sources).run t).result := by
    rw [hscan]
  cases hresult : ((scan b.sources).run t).result with
  | ok c => rw [generate_run_of_ok (hsame.trans hresult), generate_run_of_ok hresult, hscan]
  | error failure =>
    rw [generate_run_of_error (hsame.trans hresult), generate_run_of_error hresult, hscan]

theorem generate_run_congr {b : HeaderBuild} {t t' : FileTree}
    (h : ∀ source ∈ b.sources, t'.read source = t.read source) :
    b.generate.run t' = { b.generate.run t with tree := t' } :=
  generate_run_of_declared fun source hsource => congrArg (declared source) (h source hsource)

/-- Generating ends with the failure of the scan or with the verdict on its catalog. -/
theorem generate_result (b : HeaderBuild) (t : FileTree) :
    (b.generate.run t).result = ((scan b.sources).run t).result.bind b.verdict := by
  cases h : ((scan b.sources).run t).result with
  | ok c =>
    rw [generate_run_of_ok h]
    rfl
  | error failure =>
    rw [generate_run_of_error h]
    rfl

theorem verdict_eq_ok {b : HeaderBuild} {c : Catalog} {p : Product} (h : b.verdict c = .ok p) :
    p = b.productFor c := by
  unfold verdict at h
  split at h
  · cases h
  · exact (Except.ok.inj h).symm

theorem generate_eq_productFor {b : HeaderBuild} {t t' : FileTree} {p : Product}
    (h : b.generate.Ends t p t') :
    ∃ c, ((scan b.sources).run t).result = .ok c ∧ p = b.productFor c := by
  have hresult := h.1
  rw [generate_result] at hresult
  cases hscan : ((scan b.sources).run t).result with
  | error failure =>
    rw [hscan] at hresult
    cases hresult
  | ok c =>
    rw [hscan] at hresult
    exact ⟨c, rfl, verdict_eq_ok hresult⟩

/-- A build whose generation fails has written nothing, and fails for the same reason if it has a
header to write. -/
theorem build_of_generate_error {b : HeaderBuild} {t : FileTree} {failure : Failure}
    (h : (b.generate.run t).result = .error failure) :
    (b.build.run t).tree = t ∧
      (b.headerPath? ≠ none → (b.build.run t).result = .error failure) := by
  unfold build
  cases hheader : b.headerPath? with
  | none => exact ⟨rfl, fun hsome => absurd rfl hsome⟩
  | some headerPath =>
    simp only [Job.bind_eq_bind]
    refine ⟨?_, fun _ => (Job.run_bind_of_error h).1⟩
    rw [(Job.run_bind_of_error h).2, generate_tree]

end LuaGlue.HeaderBuild

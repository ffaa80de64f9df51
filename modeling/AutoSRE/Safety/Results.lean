import AutoSRE.Safety.Outcomes

/-!
# What a call of the safe executor returns

Without a cancellation `execute` returns a result exactly when the policy permits the action
(`execute_returns_iff`); otherwise it raises. A result that is executed without an error
(`Succeeded`) was dispatched, carries the output of the tool, and its `verified` is what the
verifier said (`Verdict`). A verifier that returns `False` leaves the error at `None`, unless the
rollback that follows fails (`RollbackFails`).
-/

namespace AutoSRE
namespace Safety

open AutoSRE.Core Lib Py Tools

namespace SafeExecutor

variable {x : SafeExecutor} {h : Handlers} {incidentId : Option String} {action : ProposedAction}

/-! ## When a result is returned -/

theorem afterHook_error {α : Type} {e : ExecError} {a : α} :
    x.afterHook h (.error e) ≠ .ok a := by
  unfold afterHook
  split <;> simp

/-- A permitted action reaches the snapshot. -/
theorem execute_permitted {d : PolicyDecision} (hd : x.Permitted action d) :
    x.execute h incidentId action = x.capture h incidentId { action, decision := d } := by
  obtain ⟨tool, registered, proposed, d₀, htool, hreg, hprop, hcl, rfl⟩ := hd.decided
  unfold execute
  simp only [htool, hreg, hprop, hcl]
  unfold gate
  simp only [hd.allowed, hd.noApproval, Bool.not_true, Bool.false_eq_true, if_false]

/-- Only a permitted action gets a result. -/
theorem permitted_of_ok {r : ExecutionResult} (ho : (x.execute h incidentId action).out = .ok r) :
    ∃ d, x.Permitted action d := by
  rcases execute_cases (x := x) (h := h) incidentId action with
    ⟨_, _, _, _, _, -, -, heq⟩ | ⟨exc, -, heq⟩ | ⟨d, hd, -⟩
  · rw [heq] at ho
    exact absurd ho afterHook_error
  · rw [heq] at ho
    cases ho
  · exact ⟨d, hd⟩

theorem snapshotFailed_returns (hu : h.Uncancelled) (r : ExecutionResult) (exc : PyExc) :
    (x.snapshotFailed h incidentId r exc).out =
      .ok { r with status := .snapshotFailed, error := some exc } := by
  rw [snapshotFailed, auditAndReturn_eq, afterHook_of_uncancelled hu.hook]

variable (x h incidentId) in
/-- The stage after the gate returns. -/
theorem capture_returns (hu : h.Uncancelled) {r : ExecutionResult} (hr : Fresh r) :
    ∃ r', (x.capture h incidentId r).out = .ok r' := by
  have hdispatch : ∀ snapshot, ∃ r',
      (x.dispatch h incidentId { r with snapshot }).out = .ok r' := fun snapshot => by
    obtain ⟨⟨r', ho, -⟩, -⟩ := dispatch_concludes (x := x) incidentId hu
      (r := { r with snapshot }) ⟨hr.verified, hr.rolledBack, hr.error⟩
    exact ⟨r', ho⟩
  unfold capture
  split
  · rw [Traced.emit_bind]
    cases ho : h.snapshot with
    | cancelled => exact absurd ho hu.snapshot
    | raised exc => exact ⟨_, snapshotFailed_returns hu r exc⟩
    | returned v =>
      cases v with
      | obj snapshot => exact hdispatch (some snapshot)
      | _ => exact ⟨_, snapshotFailed_returns hu r _⟩
  · exact hdispatch r.snapshot

variable (x incidentId) in
/-- A call that is not cancelled returns exactly when the policy permits the action. -/
theorem execute_returns_iff (hu : h.Uncancelled) (action : ProposedAction) :
    (∃ r, (x.execute h incidentId action).out = .ok r) ↔ ∃ d, x.Permitted action d := by
  constructor
  · rintro ⟨r, ho⟩
    exact permitted_of_ok ho
  · rintro ⟨d, hd⟩
    rw [execute_permitted hd]
    exact capture_returns x h incidentId hu ⟨rfl, rfl, rfl⟩

/-- What a call returns fits the status table. -/
theorem execute_consistent (hu : h.Uncancelled) {r : ExecutionResult}
    (ho : (x.execute h none action).out = .ok r) : r.Consistent := by
  have hdispatch : ∀ d snapshot, (x.dispatch h none { action, decision := d, snapshot }).out =
      .ok r → r.Consistent := fun d snapshot hd => by
    obtain ⟨⟨r', ho', hc, -⟩, -⟩ := dispatch_concludes (x := x) none hu
      (r := { action, decision := d, snapshot }) ⟨rfl, rfl, rfl⟩
    obtain rfl : r' = r := Except.ok.inj (ho'.symm.trans hd)
    exact hc
  have hx := execute_exit (x := x) (h := h) none action
  generalize x.execute h none action = y at hx ho
  cases hx with
  | refused _ _ _ _ _ _ _ => exact absurd ho afterHook_error
  | escaped _ _ => cases ho
  | snapshotCancelled hc => exact absurd hc hu.snapshot
  | snapshotFailed d exc _ =>
    rw [Traced.emit_bind] at ho
    obtain rfl := Except.ok.inj ((snapshotFailed_returns hu _ exc).symm.trans ho)
    constructor <;> simp
  | dispatched d _ _ => exact hdispatch d none ho
  | captured d snapshot _ _ _ => exact hdispatch d (some snapshot) (by rwa [Traced.emit_bind] at ho)

/-- A result that is verified has no error. -/
theorem executed_of_verified {r : ExecutionResult} (hr : r.Consistent)
    (hv : r.verified = some true) : r.executed = true ∧ r.error = none := by
  have hst := hr.passed.mp hv
  constructor
  · cases he : r.executed with
    | true => rfl
    | false =>
      have := hr.notExecuted.mp he
      simp [hst] at this
  · have := hr.clean (.inr hst)
    simpa using this

/-! ## Results without an error -/

variable (x h)

/-- The rollback handler of the tool is called for a captured snapshot, and fails. -/
def RollbackFails (toolName : String) : Prop :=
  toolName ∈ x.snapshots ∧ toolName ∈ x.rollbacks ∧ ∀ b, h.rollback ≠ .returned (.bool b)

/-- What the verifier of the tool says, for a result without an error. -/
inductive Verdict (toolName : String) : Option Bool → Prop
  | unverified : toolName ∉ x.verifiers → Verdict toolName none
  | passed : toolName ∈ x.verifiers → h.verify = .returned (.bool true) →
      Verdict toolName (some true)
  | rejected : toolName ∈ x.verifiers → h.verify = .returned (.bool false) →
      ¬ x.RollbackFails h toolName → Verdict toolName (some false)

/-- What holds of a result that is executed without an error. -/
structure Succeeded (action : ProposedAction) (r : ExecutionResult) : Prop where
  dispatched : ∃ d, .dispatch action.toolName action.toolArgs d ∈ (x.execute h none action).log
  output : ∃ out, x.registry.execute action.toolName action.toolArgs h.tool =
    .returned (.obj out) ∧ r.output = some out
  verdict : x.Verdict h action.toolName r.verified

variable {x h}

theorem maybeRollback_failed {r : ExecutionResult} (hr : x.RollsBack r)
    (hu : h.rollback ≠ .cancelled) (hf : ∀ b, h.rollback ≠ .returned (.bool b)) :
    ∃ exc, (x.maybeRollback h r).out = .ok (rollbackFailed r exc) := by
  unfold maybeRollback
  rw [if_neg (by simp [hr.1]), if_pos hr.2, Traced.emit_bind]
  cases ho : h.rollback with
  | cancelled => exact absurd ho hu
  | raised exc => exact ⟨exc, rfl⟩
  | returned v =>
    cases v with
    | bool b => exact absurd ho (hf b)
    | _ => exact ⟨_, rfl⟩

/-- A result that is rolled back keeps its error; without one, no rollback failed. -/
theorem rollBackAndReturn_ok (hu : h.Uncancelled) {r r' : ExecutionResult}
    (ho : (x.rollBackAndReturn h incidentId r).out = .ok r') :
    SameButRollback r r' ∧
      (r'.error = none → x.RollsBack r → ∃ b, h.rollback = .returned (.bool b)) := by
  obtain ⟨r₁, hs, -, he⟩ := rollBackAndReturn_eq (x := x) (r := r) incidentId fun _ => hu.rollback
  rw [he, afterHook_of_uncancelled hu.hook] at ho
  obtain rfl : r₁ = r' := Except.ok.inj ho
  refine ⟨hs, fun herr hr => Classical.byContradiction fun hf => ?_⟩
  rw [not_exists] at hf
  obtain ⟨exc, hroll⟩ := maybeRollback_failed hr hu.rollback hf
  have hout := congrArg Traced.out he
  unfold rollBackAndReturn at hout
  rw [Traced.bind_of_ok hroll, auditAndReturn_eq] at hout
  simp only [afterHook_of_uncancelled hu.hook, Except.ok.injEq] at hout
  -- The failed rollback left an error.
  rw [← hout] at herr
  simp [rollbackFailed] at herr

theorem verificationFailed_error (hu : h.Uncancelled) {r r' : ExecutionResult} {exc : PyExc}
    (ho : (x.verificationFailed h incidentId r (some exc)).out = .ok r') : r'.error ≠ none := by
  obtain ⟨hs, -⟩ := rollBackAndReturn_ok hu ho
  rw [hs.error rfl]
  simp

theorem verify_succeeded (hu : h.Uncancelled) {r r' : ExecutionResult} (hv : r.verified = none)
    (hrb : r.rolledBack = false)
    (hsnap : r.snapshot.isSome = true ↔ r.action.toolName ∈ x.snapshots)
    (ho : (x.verify h incidentId r).out = .ok r') (herr : r'.error = none) :
    r'.output = r.output ∧ x.Verdict h r.action.toolName r'.verified := by
  unfold verify at ho
  split at ho
  · rename_i hm
    rw [Traced.emit_bind] at ho
    cases hv' : h.verify with
    | cancelled => exact absurd hv' hu.verify
    | raised exc =>
      simp only [hv'] at ho
      exact absurd herr (verificationFailed_error hu ho)
    | returned v =>
      simp only [hv'] at ho
      cases v with
      | bool b =>
        cases b with
        | true =>
          simp only [auditAndReturn_eq, afterHook_of_uncancelled hu.hook, Except.ok.injEq] at ho
          subst ho
          exact ⟨rfl, .passed hm hv'⟩
        | false =>
          obtain ⟨hs, hroll⟩ := rollBackAndReturn_ok hu ho
          refine ⟨hs.output, ?_⟩
          rw [hs.verified]
          refine .rejected hm hv' fun hf => ?_
          obtain ⟨b, hb⟩ := hroll herr ⟨hrb, hf.2.1, hsnap.mpr hf.1⟩
          exact hf.2.2 b hb
      | _ => exact absurd herr (verificationFailed_error hu ho)
  · rename_i hm
    simp only [auditAndReturn_eq, afterHook_of_uncancelled hu.hook, Except.ok.injEq] at ho
    subst ho
    exact ⟨rfl, hv ▸ .unverified hm⟩

/-- What follows the dispatch, when it ends without an error. -/
theorem awaitRegistry_succeeded (hu : h.Uncancelled) {r r' : ExecutionResult} (hr : Fresh r)
    (hsnap : r.snapshot.isSome = true ↔ r.action.toolName ∈ x.snapshots)
    (ho : (x.awaitRegistry h incidentId r).out = .ok r') (herr : r'.error = none) :
    (∃ out, x.registry.execute r.action.toolName r.action.toolArgs h.tool = .returned (.obj out) ∧
      r'.output = some out) ∧ x.Verdict h r.action.toolName r'.verified := by
  have hfail : ∀ exc, (x.dispatchFailed h incidentId r exc).out ≠ .ok r' := fun exc hf => by
    obtain ⟨hs, -⟩ := rollBackAndReturn_ok hu hf
    have := hs.error rfl
    rw [herr] at this
    cases this
  unfold awaitRegistry at ho
  split at ho
  · rename_i out hout
    obtain ⟨hoeq, hverdict⟩ := verify_succeeded
      (r := { r with output := some out, status := .succeeded }) hu hr.verified hr.rolledBack hsnap
      ho herr
    exact ⟨⟨out, hout, hoeq⟩, hverdict⟩
  · exact absurd ho (hfail _)
  · exact absurd ho (hfail _)
  · rename_i hc
    exact absurd (ToolRegistry.execute_cancelled hc) hu.tool

/-- A dispatched result without an error. -/
theorem dispatch_succeeded (hu : h.Uncancelled) {d : PolicyDecision} {snapshot : Option PyDict}
    {r : ExecutionResult} (hsnap : snapshot.isSome = true ↔ action.toolName ∈ x.snapshots)
    (ho : (x.dispatch h none { action, decision := d, snapshot }).out = .ok r)
    (herr : r.error = none)
    (hlog : .dispatch action.toolName action.toolArgs d ∈ (x.execute h none action).log) :
    Succeeded x h action r := by
  unfold dispatch at ho
  rw [Traced.emit_bind] at ho
  obtain ⟨hout, hverdict⟩ := awaitRegistry_succeeded
    (r := { action, decision := d, snapshot, executed := true, executedAt := some h.utcNow })
    hu ⟨rfl, rfl, rfl⟩ hsnap ho herr
  exact ⟨⟨d, hlog⟩, hout, hverdict⟩

/-- A result that is executed without an error. -/
theorem execute_succeeded (hu : h.Uncancelled) {r : ExecutionResult}
    (ho : (x.execute h none action).out = .ok r) (hex : r.executed = true)
    (herr : r.error = none) : Succeeded x h action r := by
  have hx := execute_exit (x := x) (h := h) none action
  have hsucc : ∀ d snapshot, (snapshot.isSome = true ↔ action.toolName ∈ x.snapshots) →
      (x.dispatch h none { action, decision := d, snapshot }).out = .ok r →
      .dispatch action.toolName action.toolArgs d ∈ (x.execute h none action).log →
      Succeeded x h action r := fun d snapshot hs ho hm => dispatch_succeeded hu hs ho herr hm
  generalize x.execute h none action = y at hx ho hsucc
  cases hx with
  | refused _ _ _ _ _ _ _ => exact absurd ho afterHook_error
  | escaped _ _ => cases ho
  | snapshotCancelled hc => exact absurd hc hu.snapshot
  | snapshotFailed d exc _ =>
    rw [Traced.emit_bind] at ho
    obtain rfl := Except.ok.inj ((snapshotFailed_returns hu _ exc).symm.trans ho)
    cases hex
  | dispatched d hd hs => exact hsucc d none (by simp [hs]) ho List.mem_cons_self
  | captured d snapshot hd hs _ =>
    rw [Traced.emit_bind] at ho
    exact hsucc d (some snapshot) (by simp [hs]) ho (List.mem_cons_of_mem _ List.mem_cons_self)

end SafeExecutor

end Safety
end AutoSRE

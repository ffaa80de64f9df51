import AutoSRE.Safety.Exits

/-!
# Outcome consistency and cancellation of the safe executor

- **The status table** (`StatusTable`). Which `executed`, `verified`, error and `rolled_back` go
  with a status, as the executor documents it. A rollback keeps the table (`Consistent.rollback`).
- **After the dispatch** (`dispatch_concludes`). Without a cancellation a dispatch returns a result
  that fits the table and is audited once; its calls are the verifier and then the rollback, each
  at most once.
- **One call of `execute`** (`execute_outcome_consistent_iff`). A call without a cancellation is
  `OutcomeConsistent`, unless an exception of a policy matcher leaves it without an audit record.
- **Cancellation** (`cancelled_after_dispatch_iff`). When a cancellation hits the registry call,
  the verifier or a rollback, the pre-state is rolled back and the action audited exactly unless
  it hits the verifier or the rollback itself.
-/

namespace AutoSRE
namespace Safety

open AutoSRE.Core Lib Py Tools

/-- The documented meaning of a status. -/
structure StatusTable (status : ExecutionStatus) (executed : Bool) (verified : Option Bool)
    (hasError rolledBack : Bool) : Prop where
  notExecuted : executed = false ↔
    status ∈ [.rejected, .approvalRequired, .notDispatched, .snapshotFailed]
  passed : verified = some true ↔ status = .verified
  notPassed : verified = some false ↔ status = .verificationFailed
  failure : status = .failed → hasError = true
  clean : status = .succeeded ∨ status = .verified → hasError = false
  undone : rolledBack = true → status = .failed ∨ status = .verificationFailed

/-- The result fits the status table. -/
def ExecutionResult.Consistent (r : ExecutionResult) : Prop :=
  StatusTable r.status r.executed r.verified r.error.isSome r.rolledBack

/-- The audited tuple fits the status table. -/
def AuditRecord.Consistent (r : AuditRecord) : Prop :=
  StatusTable r.status r.executed r.verified r.errorClass.isSome r.rolledBack

def ExecEvent.isDispatch : ExecEvent → Bool
  | .dispatch .. => true
  | _ => false

def ExecEvent.isRollback : ExecEvent → Bool
  | .rollbackCall => true
  | _ => false

/-- No awaited call is cancelled. -/
structure Handlers.Uncancelled (h : Handlers) : Prop where
  snapshot : h.snapshot ≠ .cancelled
  tool : h.tool ≠ .cancelled
  verify : h.verify ≠ .cancelled
  rollback : h.rollback ≠ .cancelled
  hook : h.hook ≠ .cancelled

theorem quietHandlers_uncancelled : quietHandlers.Uncancelled := by
  constructor <;> simp [quietHandlers]

namespace SafeExecutor

variable {x : SafeExecutor} {h : Handlers} {incidentId : Option String}

theorem record_consistent {r : ExecutionResult} (hr : r.Consistent) :
    (x.record h incidentId r).Consistent := by
  unfold AuditRecord.Consistent record
  rw [Option.isSome_map]
  exact hr

/-- What a rollback writes does not matter to a failed result. -/
theorem Consistent.rollback {r r' : ExecutionResult} (hs : SameButRollback r r')
    (hr : r.Consistent) (hf : r.status = .failed ∨ r.status = .verificationFailed) :
    r'.Consistent where
  notExecuted := by rw [hs.executed, hs.status]; exact hr.notExecuted
  passed := by rw [hs.verified, hs.status]; exact hr.passed
  notPassed := by rw [hs.verified, hs.status]; exact hr.notPassed
  failure hst := by
    have := hr.failure (hs.status ▸ hst)
    rwa [hs.error this]
  clean hst := by
    rw [hs.status] at hst
    rcases hf with hf | hf <;> simp [hf] at hst
  undone _ := by rwa [hs.status]

/-! ## After the dispatch -/

variable (x h incidentId)

/-- The stage returns a consistent result and audits it once; its calls are a part of `cs`, and it
rolls back only a captured snapshot. -/
structure Concludes (r : ExecutionResult) (cs : List ExecEvent) (log : List ExecEvent)
    (out : Except ExecError ExecutionResult) : Prop where
  result : ∃ r', out = .ok r' ∧ r'.Consistent ∧ audits log = x.hooked (x.record h incidentId r')
  calls : (calls log).Sublist cs
  captured : .rollbackCall ∈ log → r.snapshot.isSome = true

variable {x h incidentId}

theorem rollBackAndReturn_concludes (hu : h.Uncancelled) {r : ExecutionResult}
    (hr : r.Consistent) (hf : r.status = .failed ∨ r.status = .verificationFailed) :
    (x.rollBackAndReturn h incidentId r).Sat (Concludes x h incidentId r [.rollbackCall]) := by
  obtain ⟨r', hs, -, he⟩ := rollBackAndReturn_eq (x := x) (r := r) incidentId
    fun _ => hu.rollback
  rw [he, afterHook_of_uncancelled hu.hook]
  by_cases hb : x.RollsBack r
  · rw [if_pos hb]
    refine ⟨⟨r', rfl, Consistent.rollback hs hr hf, ?_⟩, ?_, fun _ => hb.2.2⟩
    · simp [audits_cons_call (e := .rollbackCall) rfl]
    · simp [calls_cons_call (e := .rollbackCall) rfl]
  · rw [if_neg hb]
    refine ⟨⟨r', rfl, Consistent.rollback hs hr hf, by simp⟩, by simp, fun hm => ?_⟩
    simp at hm

theorem auditAndReturn_concludes (hu : h.Uncancelled) {r : ExecutionResult} (hr : r.Consistent) :
    (x.auditAndReturn h incidentId r).Sat (Concludes x h incidentId r []) := by
  rw [auditAndReturn_eq, afterHook_of_uncancelled hu.hook]
  exact ⟨⟨r, rfl, hr, by simp⟩, by simp, fun hm => by simp at hm⟩

/-- A call before a stage. -/
theorem Concludes.call {r r' : ExecutionResult} {cs : List ExecEvent} {e : ExecEvent}
    {y : Exec ExecutionResult} (hy : y.Sat (Concludes x h incidentId r' cs))
    (he : e.audit? = none := by rfl) (hne : e ≠ .rollbackCall := by simp)
    (hr : r'.snapshot = r.snapshot := by rfl) :
    (Traced.emit e >>= fun _ => y).Sat (Concludes x h incidentId r (e :: cs)) := by
  obtain ⟨⟨r₁, ho, hc, ha⟩, hcalls, hcap⟩ := hy
  refine ⟨⟨r₁, ho, hc, ?_⟩, ?_, fun hm => ?_⟩
  · rw [Traced.emit_bind, audits_cons_call he, ha]
  · rw [Traced.emit_bind, calls_cons_call he]
    exact hcalls.cons_cons e
  · rw [Traced.emit_bind] at hm
    rw [← hr]
    exact hcap ((List.mem_cons.mp hm).resolve_left hne.symm)

theorem Concludes.weaken {r r' : ExecutionResult} {cs cs' : List ExecEvent}
    {y : Exec ExecutionResult} (hy : y.Sat (Concludes x h incidentId r' cs))
    (hcs : cs.Sublist cs' := by simp) (hr : r'.snapshot = r.snapshot := by rfl) :
    y.Sat (Concludes x h incidentId r cs') :=
  ⟨hy.result, hy.calls.trans hcs, fun hm => hr ▸ hy.captured hm⟩

variable (incidentId) in
theorem verificationFailed_concludes (hu : h.Uncancelled) {r : ExecutionResult}
    (hex : r.executed = true) (hrb : r.rolledBack = false) (error : Option PyExc) :
    (x.verificationFailed h incidentId r error).Sat
      (Concludes x h incidentId r [.rollbackCall]) := by
  have hc : ({ r with verified := some false, status := .verificationFailed, error } :
      ExecutionResult).Consistent := by
    constructor <;> simp [hex, hrb]
  exact Concludes.weaken (rollBackAndReturn_concludes hu hc (.inr rfl))

theorem verify_concludes (hu : h.Uncancelled) {r : ExecutionResult} (hr : r.Consistent)
    (hst : r.status = .succeeded) (hrb : r.rolledBack = false) (hex : r.executed = true) :
    (x.verify h incidentId r).Sat
      (Concludes x h incidentId r [.verifyCall, .rollbackCall]) := by
  have hfail := verificationFailed_concludes (x := x) incidentId hu hex hrb
  unfold verify
  split
  · cases ho : h.verify with
    | cancelled => exact absurd ho hu.verify
    | raised exc => exact Concludes.call (hfail _)
    | returned v =>
      cases v with
      | bool b =>
        cases b with
        | true =>
          have hc : ({ r with
              verified := some true, status := .verified, durationMs := some h.durationMs } :
              ExecutionResult).Consistent := by
            have herr := hr.clean (.inl hst)
            constructor <;> simp_all
          exact Concludes.call
            (Concludes.weaken (auditAndReturn_concludes hu hc))
        | false => exact Concludes.call (hfail _)
      | _ => exact Concludes.call (hfail _)
  · have hc : ({ r with durationMs := some h.durationMs } : ExecutionResult).Consistent := hr
    exact Concludes.weaken (auditAndReturn_concludes hu hc)

/-- A result before the dispatch. -/
structure Fresh (r : ExecutionResult) : Prop where
  verified : r.verified = none
  rolledBack : r.rolledBack = false
  error : r.error = none

theorem dispatchFailed_concludes (hu : h.Uncancelled) {r : ExecutionResult} (hr : Fresh r)
    (hex : r.executed = true) (exc : PyExc) :
    (x.dispatchFailed h incidentId r exc).Sat
      (Concludes x h incidentId r [.rollbackCall]) := by
  have hc : ({ r with status := .failed, error := some exc } : ExecutionResult).Consistent := by
    constructor <;> simp [hex, hr.verified, hr.rolledBack]
  exact Concludes.weaken (rollBackAndReturn_concludes hu hc (.inl rfl))

theorem awaitRegistry_concludes (hu : h.Uncancelled) {r : ExecutionResult} (hr : Fresh r)
    (hex : r.executed = true) :
    (x.awaitRegistry h incidentId r).Sat
      (Concludes x h incidentId r [.verifyCall, .rollbackCall]) := by
  have hfail : ∀ exc, (x.dispatchFailed h incidentId r exc).Sat
      (Concludes x h incidentId r [.verifyCall, .rollbackCall]) := fun exc =>
    Concludes.weaken (dispatchFailed_concludes hu hr hex exc)
  unfold awaitRegistry
  split
  · rename_i out _
    have hc : ({ r with output := some out, status := .succeeded } :
        ExecutionResult).Consistent := by
      constructor <;> simp [hex, hr.verified, hr.rolledBack, hr.error]
    exact Concludes.weaken (verify_concludes hu hc rfl hr.rolledBack hex)
  · exact hfail _
  · exact hfail _
  · rename_i hc
    exact absurd (ToolRegistry.execute_cancelled hc) hu.tool

variable (incidentId) in
theorem dispatch_concludes (hu : h.Uncancelled) {r : ExecutionResult} (hr : Fresh r) :
    (x.dispatch h incidentId r).Sat (Concludes x h incidentId r
      [.dispatch r.action.toolName r.action.toolArgs r.decision, .verifyCall, .rollbackCall]) :=
  Concludes.call
    (awaitRegistry_concludes hu ⟨hr.verified, hr.rolledBack, hr.error⟩ rfl)

/-! ## One call of `execute` -/

theorem countP_calls {p : ExecEvent → Bool} (hp : ∀ r, p (.audit r) = false)
    (log : List ExecEvent) : (calls log).countP p = log.countP p := by
  induction log with
  | nil => rfl
  | cons e log ih =>
    cases e with
    | audit r => rw [calls_cons_audit, ih, List.countP_cons_of_neg (by simp [hp r])]
    | _ => rw [calls_cons_call rfl, List.countP_cons, List.countP_cons, ih]

variable (x h)

/-- What one `execute` logs: the audit records, the dispatch and the rollback. -/
structure OutcomeConsistent (action : ProposedAction) (log : List ExecEvent) : Prop where
  auditedOnce : x.auditHook = true → ∃ rec, audits log = [rec]
  audited : ∀ rec ∈ audits log, rec.Consistent
  dispatchedOnce : log.countP ExecEvent.isDispatch ≤ 1
  /-- A dispatch is of the action, under an allowing decision that needs no approval, and after a
  snapshot handler returned a `dict`. -/
  dispatched : ∀ pre post name args d, log = pre ++ .dispatch name args d :: post →
    name = action.toolName ∧ args = action.toolArgs ∧ x.Permitted action d ∧
      (action.toolName ∈ x.snapshots →
        .snapshotCall ∈ pre ∧ ∃ s, h.snapshot = .returned (.obj s))
  rolledBackOnce : log.countP ExecEvent.isRollback ≤ 1
  /-- A rollback is after a dispatch and of a captured snapshot. -/
  rolledBack : ∀ pre post, log = pre ++ .rollbackCall :: post →
    (∃ name args d, .dispatch name args d ∈ pre) ∧ action.toolName ∈ x.snapshots ∧
      ∃ s, h.snapshot = .returned (.obj s)

variable {x h}

/-- An attempt that ends before the dispatch. -/
theorem outcomeConsistent_undispatched {action : ProposedAction} {rec : AuditRecord}
    (hrec : rec.Consistent) (pre : List ExecEvent) (hpre : pre = [] ∨ pre = [.snapshotCall]) :
    OutcomeConsistent x h action (pre ++ (x.hooked rec).map .audit) := by
  have haudits : audits (pre ++ (x.hooked rec).map .audit) = x.hooked rec := by
    rcases hpre with rfl | rfl
    · simp
    · simp [audits_cons_call (e := .snapshotCall) rfl]
  have hcalls : (calls (pre ++ (x.hooked rec).map .audit)).Sublist [.snapshotCall] := by
    rcases hpre with rfl | rfl
    · simp
    · simp [calls_cons_call (e := .snapshotCall) rfl]
  have hnot : ∀ {e}, e.audit? = none → e ≠ .snapshotCall →
      e ∉ pre ++ (x.hooked rec).map .audit := fun he hne hm => by
    have := hcalls.subset ((mem_calls he).mpr hm)
    exact hne (List.mem_singleton.mp this)
  refine ⟨fun hk => ⟨rec, ?_⟩, fun r hr => ?_, ?_, ?_, ?_, ?_⟩
  · rw [haudits, hooked, if_pos hk]
  · rw [haudits, hooked] at hr
    split at hr
    · exact List.mem_singleton.mp hr ▸ hrec
    · cases hr
  · rw [← countP_calls fun _ => rfl]
    exact Nat.le_trans (hcalls.countP_le) (by simp [ExecEvent.isDispatch])
  · intro p q name args d he
    exact absurd (he ▸ by simp) (hnot (e := .dispatch name args d) rfl (by simp))
  · rw [← countP_calls fun _ => rfl]
    exact Nat.le_trans (hcalls.countP_le) (by simp [ExecEvent.isRollback])
  · intro p q he
    exact absurd (he ▸ by simp) (hnot (e := .rollbackCall) rfl (by simp))

/-- An attempt that dispatches, after the calls `pre`. -/
theorem outcomeConsistent_dispatched {action : ProposedAction} {d : PolicyDecision}
    (hu : h.Uncancelled) (hd : x.Permitted action d) {snapshot : Option PyDict}
    {pre : List ExecEvent}
    (hpre : pre = [] ∧ action.toolName ∉ x.snapshots ∧ snapshot = none ∨
      pre = [.snapshotCall] ∧ action.toolName ∈ x.snapshots ∧
        ∃ s, h.snapshot = .returned (.obj s)) :
    OutcomeConsistent x h action
      (pre ++ (x.dispatch h incidentId { action, decision := d, snapshot }).log) := by
  have hcon := dispatch_concludes (x := x) incidentId hu
    (r := { action, decision := d, snapshot }) ⟨rfl, rfl, rfl⟩
  obtain ⟨⟨r', -, hc, ha⟩, hcalls, hcap⟩ := hcon
  -- The log starts with `pre` and the dispatch.
  have hlog : (x.dispatch h incidentId { action, decision := d, snapshot }).log =
      .dispatch action.toolName action.toolArgs d ::
        (x.awaitRegistry h incidentId
          { action, decision := d, snapshot, executed := true,
            executedAt := some h.utcNow }).log := rfl
  generalize (x.dispatch h incidentId { action, decision := d, snapshot }).log = log at *
  have hpreA : audits pre = [] := by
    rcases hpre with ⟨rfl, -⟩ | ⟨rfl, -⟩ <;> rfl
  have hpreC : (calls pre).Sublist [.snapshotCall] := by
    rcases hpre with ⟨rfl, -⟩ | ⟨rfl, -⟩
    · simp
    · exact List.Sublist.refl _
  have hall : (calls (pre ++ log)).Sublist
      [.snapshotCall, .dispatch action.toolName action.toolArgs d, .verifyCall, .rollbackCall] := by
    rw [calls_append]
    exact hpreC.append hcalls
  refine ⟨fun hk => ⟨x.record h incidentId r', ?_⟩, fun r hr => ?_, ?_, ?_, ?_, ?_⟩
  · rw [audits_append, hpreA, ha, hooked, if_pos hk, List.nil_append]
  · rw [audits_append, hpreA, ha, hooked, List.nil_append] at hr
    split at hr
    · exact List.mem_singleton.mp hr ▸ record_consistent hc
    · cases hr
  · rw [← countP_calls fun _ => rfl]
    exact Nat.le_trans hall.countP_le (by simp [List.countP_cons, ExecEvent.isDispatch])
  · intro p q name args d' he
    have hm : .dispatch name args d' ∈ calls (pre ++ log) :=
      (mem_calls rfl).mpr (he ▸ by simp)
    have := hall.subset hm
    simp only [List.mem_cons, reduceCtorEq, ExecEvent.dispatch.injEq, false_or, or_false,
      List.not_mem_nil] at this
    obtain ⟨rfl, rfl, rfl⟩ := this
    refine ⟨rfl, rfl, hd, fun hs => ?_⟩
    rcases hpre with ⟨-, hn, -⟩ | ⟨rfl, -, hsnap⟩
    · exact absurd hs hn
    · refine ⟨?_, hsnap⟩
      cases p with
      | nil => simp at he
      | cons e p => simp only [List.cons_append, List.cons.injEq] at he; simp [← he.1]
  · rw [← countP_calls fun _ => rfl]
    exact Nat.le_trans hall.countP_le (by simp [List.countP_cons, ExecEvent.isRollback])
  · intro p q he
    -- The rollback is not the first event of `log`, nor in `pre`.
    rcases hpre with ⟨rfl, -, rfl⟩ | ⟨rfl, hs, hsnap⟩
    · have hm : .rollbackCall ∈ log := by
        rw [List.nil_append] at he
        simp [he]
      exact absurd (hcap hm) (by simp)
    · refine ⟨⟨action.toolName, action.toolArgs, d, ?_⟩, hs, hsnap⟩
      rw [hlog] at he
      cases p with
      | nil => simp at he
      | cons e p =>
        cases p with
        | nil => simp at he
        | cons e' p =>
          simp only [List.cons_append, List.nil_append, List.cons.injEq] at he
          simp [← he.2.1]

/-- Without an audit hook, an attempt that logs nothing is consistent. -/
theorem outcomeConsistent_nil {action : ProposedAction} (hk : x.auditHook ≠ true) :
    OutcomeConsistent x h action [] where
  auditedOnce hook := absurd hook hk
  audited rec hrec := absurd hrec List.not_mem_nil
  dispatchedOnce := Nat.zero_le 1
  dispatched pre post name args d he := absurd he (by simp)
  rolledBackOnce := Nat.zero_le 1
  rolledBack pre post he := absurd he (by simp)

/-- A call of `execute` without a cancellation is audited exactly once, dispatches and rolls back
at most once and only when it may, and what it audits fits the status table, if and only if no
matcher of the policy raises or there is no audit hook. -/
theorem execute_outcome_consistent_iff (hu : h.Uncancelled) (action : ProposedAction) :
    OutcomeConsistent x h action (x.execute h incidentId action).log ↔
      (x.auditHook = true → ¬ ∃ exc, x.MatcherEscapes action exc) := by
  constructor
  · rintro hcon hk ⟨exc, hexc⟩
    obtain ⟨rec, hrec⟩ := hcon.auditedOnce hk
    rw [execute_of_escapes hexc] at hrec
    cases hrec
  intro hno
  have hx := execute_exit (x := x) (h := h) incidentId action
  generalize x.execute h incidentId action = y at hx
  cases hx with
  | escaped exc hexc => exact outcomeConsistent_nil fun hk => hno hk ⟨exc, hexc⟩
  | refused tier reason status error e hst _ =>
    refine outcomeConsistent_undispatched ?_ [] (.inl rfl)
    simp only [List.mem_cons, List.not_mem_nil, or_false] at hst
    rcases hst with rfl | rfl | rfl <;> constructor <;> simp [refusalRecord]
  | snapshotCancelled hc => exact absurd hc hu.snapshot
  | snapshotFailed d exc _ =>
    rw [snapshotFailed, auditAndReturn_eq, Traced.emit_bind]
    refine outcomeConsistent_undispatched ?_ [.snapshotCall] (.inr rfl)
    constructor <;> simp [record]
  | dispatched d hd hs => exact outcomeConsistent_dispatched hu hd (.inl ⟨rfl, hs, rfl⟩)
  | captured d snapshot hd hs ho =>
    exact outcomeConsistent_dispatched hu hd (.inr ⟨rfl, hs, snapshot, ho⟩)

/-- The matchers of the default rules do not raise. -/
theorem execute_outcome_consistent_restart :
    OutcomeConsistent restartExecutor quietHandlers restartAction
      (restartExecutor.execute quietHandlers none restartAction).log := by
  refine (execute_outcome_consistent_iff quietHandlers_uncancelled restartAction).mpr ?_
  rintro - ⟨exc, hexc⟩
  obtain ⟨pre, r, post, hrules, -, hraises⟩ := hexc.raises
  have hrule : r ∈ restartExecutor.policy.rules :=
    hrules ▸ List.mem_append_right pre List.mem_cons_self
  have htotal : ∀ r ∈ defaultRules, ∃ b,
      r.applies restartAction.toolName restartAction.toolArgs = .ok b := by
    simp [defaultRules, Rule.applies, Matcher.total, restartAction]
  obtain ⟨b, hb⟩ := htotal r hrule
  cases hb.symm.trans hraises

/-- `lambda args: isinstance(args["replicas"], int) and args["replicas"] > 3`. -/
def isLargeScale : Matcher := fun args =>
  match PyDict.get? args "replicas" with
  | none => .error (.raised (.exception "KeyError" "'replicas'"))
  | some (.int n) => .ok (decide (3 < n))
  | some _ => .ok false

theorem anyTool_ne : "*" ≠ "" := by decide

/-- The rule that a large scale needs an approval, whatever the tool. -/
def largeScaleRule : Rule where
  tool := "*"
  matcher := some isLargeScale
  tier := .reversibleHigh
  reason := none
  tool_ne := anyTool_ne

/-- An executor whose policy has the rule only. -/
def largeScaleExecutor : SafeExecutor :=
  { restartExecutor with policy := { PolicyEngine.default with rules := [largeScaleRule] } }

/-- The exception of a matcher leaves `execute` without an audit record. -/
theorem matcher_escapes_unaudited :
    ¬ ∀ (x : SafeExecutor) (h : Handlers) (incidentId : Option String) (action : ProposedAction),
      h.Uncancelled → OutcomeConsistent x h action (x.execute h incidentId action).log := by
  intro hall
  obtain ⟨rec, hrec⟩ := (hall largeScaleExecutor quietHandlers none restartAction
    quietHandlers_uncancelled).auditedOnce rfl
  have hlog : (largeScaleExecutor.execute quietHandlers none restartAction).log = [] := rfl
  rw [hlog] at hrec
  cases hrec

/-! ## Cancellation -/

variable (x h)

/-- The rollback handler is called for a dispatched action that did not succeed. -/
def HasRollback (action : ProposedAction) : Prop :=
  action.toolName ∈ x.rollbacks ∧ action.toolName ∈ x.snapshots

/-- A cancellation hits the registry call of the action. -/
def RegistryCancelled (action : ProposedAction) : Prop :=
  x.registry.execute action.toolName action.toolArgs h.tool = .cancelled

/-- A cancellation hits the verifier of the action. -/
def VerifierCancelled (action : ProposedAction) : Prop :=
  (∃ out, x.registry.execute action.toolName action.toolArgs h.tool = .returned (.obj out)) ∧
    action.toolName ∈ x.verifiers ∧ h.verify = .cancelled

/-- A cancellation hits an await after the action was marked as dispatched: the registry call, the
verifier, or a rollback that was started. -/
structure CancelledAfterDispatch (action : ProposedAction) (log : List ExecEvent) : Prop where
  dispatched : ∃ name args d, .dispatch name args d ∈ log
  cancelled : x.RegistryCancelled h action ∨ (.verifyCall ∈ log ∧ h.verify = .cancelled) ∨
    (.rollbackCall ∈ log ∧ h.rollback = .cancelled)

/-- The pre-state was rolled back if it can be, and the dispatched action was audited once. -/
structure CleanedUp (action : ProposedAction) (log : List ExecEvent) : Prop where
  rolledBack : x.HasRollback action → .rollbackCall ∈ log
  audited : x.auditHook = true → ∃ rec, audits log = [rec] ∧ rec.executed = true

variable {x h}

variable (incidentId) in
/-- `rollBackAndReturn` calls the handler, and audits the result unless the handler is
cancelled. -/
theorem rollBackAndReturn_log (r : ExecutionResult) :
    (.rollbackCall ∈ (x.rollBackAndReturn h incidentId r).log ↔ x.RollsBack r) ∧
    .verifyCall ∉ (x.rollBackAndReturn h incidentId r).log ∧
    (x.RollsBack r ∧ h.rollback = .cancelled →
      audits (x.rollBackAndReturn h incidentId r).log = []) ∧
    (¬ (x.RollsBack r ∧ h.rollback = .cancelled) → x.auditHook = true →
      ∃ rec, audits (x.rollBackAndReturn h incidentId r).log = [rec] ∧
        rec.executed = r.executed) := by
  have hnot : ∀ {rec e}, e.audit? = none → e ∉ (x.hooked rec).map ExecEvent.audit := by
    intro rec e he hm
    obtain ⟨rec', -, rfl⟩ := List.mem_map.mp hm
    cases he
  by_cases hc : x.RollsBack r ∧ h.rollback = .cancelled
  · rw [rollBackAndReturn_cancelled hc.1 hc.2]
    exact ⟨by simp [hc.1], by simp, fun _ => rfl, fun hn => absurd hc hn⟩
  · obtain ⟨r', hs, -, he⟩ := rollBackAndReturn_eq incidentId
      fun hr ho => hc ⟨hr, ho⟩
    rw [he]
    refine ⟨?_, ?_, fun h' => absurd h' hc, fun _ hk => ⟨x.record h incidentId r', ?_, hs.executed⟩⟩
    · by_cases hr : x.RollsBack r
      · simp [hr]
      · simp [hr, hnot (e := .rollbackCall) rfl]
    · by_cases hr : x.RollsBack r
      · simp [hr, hnot (e := .verifyCall) rfl]
      · simp [hr, hnot (e := .verifyCall) rfl]
    · by_cases hr : x.RollsBack r
      · simp [hr, audits_cons_call (e := .rollbackCall) rfl, hooked, hk]
      · simp [hr, hooked, hk]

/-- `r'` has the action, the snapshot and the flags of `r`. -/
structure SameDispatch (r r' : ExecutionResult) : Prop where
  action : r'.action = r.action
  snapshot : r'.snapshot = r.snapshot
  rolledBack : r'.rolledBack = r.rolledBack
  executed : r'.executed = r.executed

variable (x h incidentId)

/-- What is logged after the dispatch, by how the registry and the verifier end. -/
inductive AwaitExit (r : ExecutionResult) : List ExecEvent → Prop
  | registryCancelled (r' : ExecutionResult) : x.RegistryCancelled h r.action →
      SameDispatch r r' → AwaitExit r (x.rollBackAndReturn h incidentId r').log
  | failed (r' : ExecutionResult) : ¬ x.RegistryCancelled h r.action →
      ¬ x.VerifierCancelled h r.action → SameDispatch r r' →
      AwaitExit r (x.rollBackAndReturn h incidentId r').log
  | verifierCancelled : ¬ x.RegistryCancelled h r.action → x.VerifierCancelled h r.action →
      AwaitExit r [.verifyCall]
  | notVerified (r' : ExecutionResult) : ¬ x.RegistryCancelled h r.action →
      h.verify ≠ .cancelled → SameDispatch r r' →
      AwaitExit r (.verifyCall :: (x.rollBackAndReturn h incidentId r').log)
  | succeeded (pre : List ExecEvent) (rec : AuditRecord) : ¬ x.RegistryCancelled h r.action →
      pre = [] ∨ (pre = [.verifyCall] ∧ h.verify ≠ .cancelled) →
      AwaitExit r (pre ++ (x.hooked rec).map .audit)

variable {x h incidentId}

theorem dispatchCancelled_log (r : ExecutionResult) :
    (x.dispatchCancelled h incidentId r).log = (x.rollBackAndReturn h incidentId
      { r with status := .failed, error := some cancelledError, cancelled := true }).log := by
  unfold dispatchCancelled
  cases ho : (x.rollBackAndReturn h incidentId
      { r with status := .failed, error := some cancelledError, cancelled := true }).out with
  | ok r' => rw [Traced.bind_of_ok ho, Traced.raise_log, List.append_nil]
  | error e => rw [Traced.bind_of_error ho]

theorem verify_awaitExit {r r' : ExecutionResult} {out : PyDict} (hs : SameDispatch r r')
    (hr : x.registry.execute r.action.toolName r.action.toolArgs h.tool = .returned (.obj out)) :
    AwaitExit x h incidentId r (x.verify h incidentId r').log := by
  have hnc : ¬ x.RegistryCancelled h r.action := fun hc => by
    unfold RegistryCancelled at hc
    rw [hr] at hc
    cases hc
  have hfail : ∀ error, h.verify ≠ .cancelled → AwaitExit x h incidentId r
      (.verifyCall :: (x.verificationFailed h incidentId r' error).log) := fun error hv =>
    .notVerified _ hnc hv ⟨hs.action, hs.snapshot, hs.rolledBack, hs.executed⟩
  unfold verify
  rw [hs.action]
  by_cases hm : r.action.toolName ∈ x.verifiers
  · rw [if_pos hm, Traced.emit_bind]
    cases ho : h.verify with
    | cancelled => exact .verifierCancelled hnc ⟨⟨out, hr⟩, hm, ho⟩
    | raised exc => exact hfail _ (by simp [ho])
    | returned v =>
      cases v with
      | bool b =>
        cases b with
        | true =>
          simp only [auditAndReturn_eq]
          exact .succeeded [.verifyCall] _ hnc (.inr ⟨rfl, by simp [ho]⟩)
        | false => exact hfail _ (by simp [ho])
      | _ => exact hfail _ (by simp [ho])
  · rw [if_neg hm, auditAndReturn_eq]
    exact .succeeded [] _ hnc (.inl rfl)

variable (incidentId) in
theorem awaitRegistry_awaitExit (r : ExecutionResult) :
    AwaitExit x h incidentId r (x.awaitRegistry h incidentId r).log := by
  have hfail : ∀ exc, ¬ x.RegistryCancelled h r.action → ¬ x.VerifierCancelled h r.action →
      AwaitExit x h incidentId r (x.dispatchFailed h incidentId r exc).log := fun exc hn hv =>
    .failed _ hn hv ⟨rfl, rfl, rfl, rfl⟩
  unfold awaitRegistry
  split
  · rename_i out ho
    exact verify_awaitExit ⟨rfl, rfl, rfl, rfl⟩ ho
  · rename_i v hv ho
    refine hfail _ (fun hc => ?_) fun ⟨⟨out, hd⟩, _⟩ => ?_
    · exact absurd (ho.symm.trans hc) (by simp)
    · exact hv out (by simpa using ho.symm.trans hd)
  · rename_i exc ho
    refine hfail _ (fun hc => ?_) fun ⟨⟨out, hd⟩, _⟩ => ?_
    · exact absurd (ho.symm.trans hc) (by simp)
    · exact absurd (ho.symm.trans hd) (by simp)
  · rename_i ho
    rw [dispatchCancelled_log]
    exact .registryCancelled _ ho ⟨rfl, rfl, rfl, rfl⟩

/-- After the dispatch nothing more is dispatched. -/
theorem awaitExit_no_dispatch {r : ExecutionResult} {L : List ExecEvent}
    (hexit : AwaitExit x h incidentId r L) {name : String} {args : PyDict} {d : PolicyDecision} :
    .dispatch name args d ∉ L := by
  have hroll : ∀ r', .dispatch name args d ∉ (x.rollBackAndReturn h incidentId r').log := by
    intro r'
    by_cases hc : x.RollsBack r' ∧ h.rollback = .cancelled
    · simp [rollBackAndReturn_cancelled hc.1 hc.2]
    · obtain ⟨r₁, -, -, he⟩ := rollBackAndReturn_eq incidentId
        fun hr ho => hc ⟨hr, ho⟩
      rw [he]
      by_cases hr : x.RollsBack r'
      · simp [hr, hooked]
      · simp [hr, hooked]
  cases hexit with
  | registryCancelled r' _ _ => exact hroll r'
  | failed r' _ _ _ => exact hroll r'
  | verifierCancelled _ _ => simp
  | notVerified r' _ _ _ => simpa using hroll r'
  | succeeded pre rec _ hpre => rcases hpre with rfl | ⟨rfl, -⟩ <;> simp [hooked]

/-- A log with a dispatch is what the dispatch of the action logs after the calls `pre`. -/
theorem execute_log_of_dispatch {action : ProposedAction} {name : String} {args : PyDict}
    {d : PolicyDecision} (hm : .dispatch name args d ∈ (x.execute h incidentId action).log) :
    ∃ pre r, (x.execute h incidentId action).log =
        pre ++ .dispatch action.toolName action.toolArgs r.decision ::
          (x.awaitRegistry h incidentId r).log ∧
      (pre = [] ∨ pre = [.snapshotCall]) ∧ x.Permitted action r.decision ∧ r.action = action ∧
      (r.snapshot.isSome = true ↔ action.toolName ∈ x.snapshots) ∧ r.rolledBack = false ∧
      r.executed = true := by
  have hx := execute_exit (x := x) (h := h) incidentId action
  generalize x.execute h incidentId action = y at hx hm ⊢
  have hhook : ∀ {rec}, .dispatch name args d ∉ (x.hooked rec).map ExecEvent.audit := by
    intro rec hm
    obtain ⟨rec', -, he⟩ := List.mem_map.mp hm
    cases he
  cases hx with
  | refused tier reason status error e _ _ => exact absurd hm hhook
  | escaped _ _ => cases hm
  | snapshotCancelled _ => simp at hm
  | snapshotFailed d' exc _ =>
    rw [snapshotFailed, auditAndReturn_eq, Traced.emit_bind] at hm
    exact absurd ((List.mem_cons.mp hm).resolve_left (by simp)) hhook
  | dispatched d' hd hs =>
    exact ⟨[], { action, decision := d', executed := true, executedAt := some h.utcNow }, rfl,
      .inl rfl, hd, rfl, by simp [hs], rfl, rfl⟩
  | captured d' snapshot hd hs ho =>
    exact ⟨[.snapshotCall],
      { action, decision := d', snapshot := some snapshot, executed := true
        executedAt := some h.utcNow },
      rfl, .inr rfl, hd, rfl, by simp [hs], rfl, rfl⟩

/-- A dispatch is of the action, under a permitted decision. -/
theorem permitted_of_dispatch {action : ProposedAction} {name : String} {args : PyDict}
    {d : PolicyDecision} (hm : .dispatch name args d ∈ (x.execute h incidentId action).log) :
    name = action.toolName ∧ args = action.toolArgs ∧ x.Permitted action d := by
  obtain ⟨pre, r, hlog, hpre, hd, -⟩ := execute_log_of_dispatch hm
  have hnot : ∀ {e : ExecEvent}, e ∈ (x.awaitRegistry h incidentId r).log →
      e ≠ .dispatch name args d := fun hm' he =>
    awaitExit_no_dispatch (awaitRegistry_awaitExit _ r) (he ▸ hm')
  rw [hlog] at hm
  have hhead : ExecEvent.dispatch name args d =
      .dispatch action.toolName action.toolArgs r.decision := by
    rcases hpre with rfl | rfl
    · exact (List.mem_cons.mp hm).resolve_right fun hm' => hnot hm' rfl
    · exact (List.mem_cons.mp ((List.mem_cons.mp hm).resolve_left (by simp))).resolve_right
        fun hm' => hnot hm' rfl
  cases hhead
  exact ⟨rfl, rfl, hd⟩

/-- `cancelled_after_dispatch_iff`, for what is logged after the dispatch. -/
theorem awaitExit_cleanedUp_iff {r : ExecutionResult} {L : List ExecEvent}
    (hexit : AwaitExit x h incidentId r L)
    (hrolls : ∀ r', SameDispatch r r' → (x.RollsBack r' ↔ x.HasRollback r.action))
    (hex : r.executed = true)
    (hcan : x.RegistryCancelled h r.action ∨ (.verifyCall ∈ L ∧ h.verify = .cancelled) ∨
      (.rollbackCall ∈ L ∧ h.rollback = .cancelled)) :
    CleanedUp x r.action L ↔
      (x.auditHook = true → x.RegistryCancelled h r.action ∧
        ¬ (x.HasRollback r.action ∧ h.rollback = .cancelled)) ∧
      ¬ (x.VerifierCancelled h r.action ∧ x.HasRollback r.action) := by
  have hdict : x.RegistryCancelled h r.action → ¬ x.VerifierCancelled h r.action := by
    rintro hreg ⟨⟨out, ho⟩, -⟩
    exact absurd (hreg.symm.trans ho) (by simp)
  cases hexit with
  | registryCancelled r' hreg hs =>
    obtain ⟨hroll, -, hnone, hone⟩ := rollBackAndReturn_log (h := h) incidentId r'
    rw [hrolls r' hs] at hroll hnone hone
    constructor
    · intro hclean
      refine ⟨fun hk => ⟨hreg, fun hc => ?_⟩, fun hv => hdict hreg hv.1⟩
      obtain ⟨rec, ha, -⟩ := hclean.audited hk
      rw [hnone hc] at ha
      cases ha
    · rintro ⟨hk, -⟩
      refine ⟨hroll.mpr, fun hook => ?_⟩
      obtain ⟨rec, ha, he⟩ := hone (hk hook).2 hook
      exact ⟨rec, ha, he.trans (hs.executed.trans hex)⟩
  | failed r' hreg hv hs =>
    -- Only the rollback can be cancelled here, and then nothing is audited.
    obtain ⟨hroll, hver, hnone, -⟩ := rollBackAndReturn_log (h := h) incidentId r'
    rw [hrolls r' hs] at hroll hnone
    have hrc : x.HasRollback r.action ∧ h.rollback = .cancelled := by
      rcases hcan with hc | ⟨hm, -⟩ | ⟨hm, hc⟩
      · exact absurd hc hreg
      · exact absurd hm hver
      · exact ⟨hroll.mp hm, hc⟩
    constructor
    · intro hclean
      refine ⟨fun hk => ?_, fun hc => hv hc.1⟩
      obtain ⟨rec, ha, -⟩ := hclean.audited hk
      rw [hnone hrc] at ha
      cases ha
    · rintro ⟨hk, -⟩
      exact ⟨hroll.mpr, fun hook => absurd (hk hook).1 hreg⟩
  | verifierCancelled hreg hv =>
    constructor
    · intro hclean
      refine ⟨fun hk => ?_, fun hc => ?_⟩
      · obtain ⟨rec, ha, -⟩ := hclean.audited hk
        cases ha
      · simpa using hclean.rolledBack hc.2
    · rintro ⟨hk, hn⟩
      exact ⟨fun hr => absurd ⟨hv, hr⟩ hn, fun hook => absurd (hk hook).1 hreg⟩
  | notVerified r' hreg hv hs =>
    obtain ⟨hroll, -, hnone, -⟩ := rollBackAndReturn_log (h := h) incidentId r'
    rw [hrolls r' hs] at hroll hnone
    have hmem : .rollbackCall ∈ (.verifyCall :: (x.rollBackAndReturn h incidentId r').log) ↔
        x.HasRollback r.action := by
      rw [← hroll]
      simp
    have hrc : x.HasRollback r.action ∧ h.rollback = .cancelled := by
      rcases hcan with hc | ⟨-, hc⟩ | ⟨hm, hc⟩
      · exact absurd hc hreg
      · exact absurd hc hv
      · exact ⟨hmem.mp hm, hc⟩
    constructor
    · intro hclean
      refine ⟨fun hk => ?_, fun hc => hv hc.1.2.2⟩
      obtain ⟨rec, ha, -⟩ := hclean.audited hk
      rw [audits_cons_call rfl, hnone hrc] at ha
      cases ha
    · rintro ⟨hk, -⟩
      exact ⟨hmem.mpr, fun hook => absurd (hk hook).1 hreg⟩
  | succeeded pre rec hreg hpre =>
    -- Nothing that was awaited here is cancelled.
    exfalso
    have hhook : ∀ {e : ExecEvent}, e.audit? = none → e ∈ pre ++ (x.hooked rec).map .audit →
        e ∈ pre := by
      intro e he hm
      refine (List.mem_append.mp hm).resolve_right fun hm => ?_
      obtain ⟨rec', -, rfl⟩ := List.mem_map.mp hm
      cases he
    rcases hcan with hc | ⟨hm, hc⟩ | ⟨hm, hc⟩
    · exact hreg hc
    · rcases hpre with rfl | ⟨rfl, hv⟩
      · exact absurd (hhook rfl hm) (by simp)
      · exact hv hc
    · rcases hpre with rfl | ⟨rfl, hv⟩
      · exact absurd (hhook rfl hm) (by simp)
      · exact absurd (hhook rfl hm) (by simp)

/-- When a cancellation hits an await after the dispatch, the executor cleans up exactly if it hits
neither the verifier of an action with a rollback nor, for the audit, anything but the registry
call. -/
theorem cancelled_after_dispatch_iff {action : ProposedAction}
    (hc : CancelledAfterDispatch x h action (x.execute h incidentId action).log) :
    CleanedUp x action (x.execute h incidentId action).log ↔
      (x.auditHook = true → x.RegistryCancelled h action ∧
        ¬ (x.HasRollback action ∧ h.rollback = .cancelled)) ∧
      ¬ (x.VerifierCancelled h action ∧ x.HasRollback action) := by
  obtain ⟨⟨name, args, d, hm⟩, hcan⟩ := hc
  obtain ⟨pre, r, hlog, hpre, -, hact, hsnap, hrb, hex⟩ := execute_log_of_dispatch hm
  rw [hlog] at hcan ⊢
  subst hact
  have hexit := awaitRegistry_awaitExit (x := x) (h := h) incidentId r
  generalize (x.awaitRegistry h incidentId r).log = L at hexit hcan ⊢
  have hrolls : ∀ r', SameDispatch r r' → (x.RollsBack r' ↔ x.HasRollback r.action) := by
    intro r' hs
    unfold RollsBack HasRollback
    rw [hs.rolledBack, hs.action, hs.snapshot, hrb, hsnap]
    simp
  -- The events up to the dispatch are no part of the conditions.
  have haudits : audits (pre ++ .dispatch r.action.toolName r.action.toolArgs r.decision :: L) =
      audits L := by
    rcases hpre with rfl | rfl <;> rfl
  have hmem : ∀ {e : ExecEvent}, e.isDispatch = false → e ≠ .snapshotCall →
      (e ∈ pre ++ .dispatch r.action.toolName r.action.toolArgs r.decision :: L ↔ e ∈ L) := by
    intro e he hs
    have hd : e ≠ .dispatch r.action.toolName r.action.toolArgs r.decision := by
      rintro rfl
      cases he
    rcases hpre with rfl | rfl <;> simp [hd, hs]
  rw [hmem rfl (by simp), hmem rfl (by simp)] at hcan
  rw [← awaitExit_cleanedUp_iff hexit hrolls hex hcan]
  constructor
  · exact fun hc => ⟨fun hr => (hmem rfl (by simp)).mp (hc.rolledBack hr), haudits ▸ hc.audited⟩
  · exact fun hc => ⟨fun hr => (hmem rfl (by simp)).mpr (hc.rolledBack hr), haudits ▸ hc.audited⟩

/-- A cancelled verifier leaves a captured snapshot without a rollback, and no audit record. -/
theorem verifier_cancellation_escapes :
    ¬ ∀ (x : SafeExecutor) (h : Handlers) (incidentId : Option String) (action : ProposedAction),
      CancelledAfterDispatch x h action (x.execute h incidentId action).log →
        CleanedUp x action (x.execute h incidentId action).log := by
  intro hall
  have hlog : ∃ args d, (restartExecutor.execute { quietHandlers with verify := .cancelled } none
      restartAction).log = [.snapshotCall, .dispatch "restart_deployment" args d, .verifyCall] :=
    ⟨_, _, rfl⟩
  obtain ⟨args, d, hlog⟩ := hlog
  have hclean := hall restartExecutor { quietHandlers with verify := .cancelled } none
    restartAction (hlog ▸ ⟨⟨_, _, d, by simp; exact ⟨rfl, rfl⟩⟩, .inr (.inl ⟨by simp, rfl⟩)⟩)
  have := hclean.rolledBack ⟨by decide, by decide⟩
  simp [hlog] at this

theorem cancelled_after_dispatch_iff_restart :
    let h := { quietHandlers with tool := .cancelled }
    CleanedUp restartExecutor restartAction (restartExecutor.execute h none restartAction).log ↔
      (restartExecutor.auditHook = true → restartExecutor.RegistryCancelled h restartAction ∧
        ¬ (restartExecutor.HasRollback restartAction ∧ h.rollback = .cancelled)) ∧
      ¬ (restartExecutor.VerifierCancelled h restartAction ∧
        restartExecutor.HasRollback restartAction) :=
  cancelled_after_dispatch_iff ⟨⟨_, _, _, List.mem_cons_of_mem _ List.mem_cons_self⟩, .inl rfl⟩

end SafeExecutor

end Safety
end AutoSRE

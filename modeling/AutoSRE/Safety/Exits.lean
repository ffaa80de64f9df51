import AutoSRE.Safety.Executor

/-!
# The exits of the safe executor

What one `execute` logs and how it ends, for every choice of the environment.

- **Audit records.** `SafeExecutor.record` is the record of a result; a stage that concludes logs
  it exactly when there is an audit hook (`auditAndReturn_eq`), also when the hook is cancelled.
- **Rollback.** `maybeRollback` calls the handler exactly when `RollsBack` holds, and changes only
  `rolledBack` and `error` (`SameButRollback`).
- **Exits** (`Exit`, `execute_exit`). `execute` is refused before any call, left by what a matcher
  of the policy raises (`MatcherEscapes`), fails to capture the pre-state, or dispatches under a
  permitted decision (`Permitted`); a log with a dispatch is the log of `dispatch`, after the
  snapshot call if there is a snapshot handler (`execute_log_of_dispatch`).
-/

namespace AutoSRE
namespace Safety

open AutoSRE.Core Lib Py Tools

/-- The audit record of an event. -/
def ExecEvent.audit? : ExecEvent → Option AuditRecord
  | .audit r => some r
  | _ => none

/-- The call of an event. -/
def ExecEvent.call? : ExecEvent → Option ExecEvent
  | .audit _ => none
  | e => some e

/-- The audit records of a log. -/
def audits (log : List ExecEvent) : List AuditRecord := log.filterMap ExecEvent.audit?

/-- The calls of a log: all but the audit records. -/
def calls (log : List ExecEvent) : List ExecEvent := log.filterMap ExecEvent.call?

@[simp] theorem audits_nil : audits [] = [] := rfl

@[simp] theorem calls_nil : calls [] = [] := rfl

@[simp] theorem audits_append (a b : List ExecEvent) : audits (a ++ b) = audits a ++ audits b :=
  List.filterMap_append

@[simp] theorem calls_append (a b : List ExecEvent) : calls (a ++ b) = calls a ++ calls b :=
  List.filterMap_append

@[simp] theorem audits_cons_audit (r : AuditRecord) (l : List ExecEvent) :
    audits (.audit r :: l) = r :: audits l := rfl

@[simp] theorem calls_cons_audit (r : AuditRecord) (l : List ExecEvent) :
    calls (.audit r :: l) = calls l := rfl

theorem audits_cons_call {e : ExecEvent} (h : e.audit? = none) (l : List ExecEvent) :
    audits (e :: l) = audits l := by
  simp [audits, h]

theorem calls_cons_call {e : ExecEvent} (h : e.audit? = none) (l : List ExecEvent) :
    calls (e :: l) = e :: calls l := by
  cases e <;> first | rfl | cases h

theorem mem_calls {e : ExecEvent} {log : List ExecEvent} (he : e.audit? = none) :
    e ∈ calls log ↔ e ∈ log := by
  simp only [calls, List.mem_filterMap]
  constructor
  · rintro ⟨e', hm, h⟩
    cases e' <;> cases h <;> exact hm
  · intro hm
    exact ⟨e, hm, by cases e <;> first | rfl | cases he⟩

namespace SafeExecutor

variable (x : SafeExecutor) (h : Handlers) (incidentId : Option String)

/-- The records that a stage logs for a record. -/
def hooked (r : AuditRecord) : List AuditRecord := if x.auditHook then [r] else []

/-- The audit record of a result. -/
def record (r : ExecutionResult) : AuditRecord :=
  { ts := h.utcNow, incidentId, toolName := r.action.toolName
    toolArgsHash := x.hashArgs r.action.toolArgs, riskTier := r.decision.riskTier.value
    policyReason := r.decision.reason, status := r.status, executed := r.executed
    verified := r.verified, rolledBack := r.rolledBack, durationMs := r.durationMs
    errorClass := r.error.map PyExc.className }

/-- The audit record of a refusal. -/
def refusalRecord (action : ProposedAction) (riskTier : RiskTier) (reason : String)
    (status : ExecutionStatus) (error : Option PyExc) : AuditRecord :=
  { ts := h.utcNow, incidentId, toolName := action.toolName
    toolArgsHash := x.hashArgs action.toolArgs, riskTier := riskTier.value
    policyReason := reason, status, executed := false, verified := none, rolledBack := false
    durationMs := none, errorClass := error.map PyExc.className }

/-- The end of a stage that logs an audit record and then ends with `o`. -/
def afterHook {α : Type} (o : Except ExecError α) : Except ExecError α :=
  match x.auditHook, h.hook with
  | true, .cancelled => .error .cancelled
  | _, _ => o

variable {x h incidentId}

theorem afterHook_of_uncancelled {α : Type} {o : Except ExecError α}
    (hk : h.hook ≠ .cancelled) : x.afterHook h o = o := by
  unfold afterHook
  split
  · rename_i hc
    exact absurd hc hk
  · rfl

theorem auditRefusal_then (action : ProposedAction) (riskTier : RiskTier) (reason : String)
    (status : ExecutionStatus) (error : Option PyExc) (e : ExecError) :
    ((x.auditRefusal h incidentId action riskTier reason status error >>= fun _ =>
        Traced.raise e : Exec ExecutionResult)) =
      ⟨(x.hooked (x.refusalRecord h incidentId action riskTier reason status error)).map .audit,
        x.afterHook h (.error e)⟩ := by
  unfold auditRefusal safeAudit hooked afterHook
  cases x.auditHook with
  | false => rfl
  | true => cases h.hook <;> rfl

theorem auditAndReturn_eq (r : ExecutionResult) :
    x.auditAndReturn h incidentId r =
      ⟨(x.hooked (x.record h incidentId r)).map .audit, x.afterHook h (.ok r)⟩ := by
  unfold auditAndReturn auditResult safeAudit hooked afterHook
  cases x.auditHook with
  | false => rfl
  | true => cases h.hook <;> rfl

@[simp] theorem audits_hooked (r : AuditRecord) :
    audits ((x.hooked r).map .audit) = x.hooked r := by
  unfold hooked
  split <;> rfl

@[simp] theorem calls_hooked (r : AuditRecord) : calls ((x.hooked r).map .audit) = [] := by
  unfold hooked
  split <;> rfl

/-! ## Rollback -/

variable (x)

/-- The rollback handler is called for the result. -/
def RollsBack (r : ExecutionResult) : Prop :=
  r.rolledBack = false ∧ r.action.toolName ∈ x.rollbacks ∧ r.snapshot.isSome = true

instance (r : ExecutionResult) : Decidable (x.RollsBack r) := by
  unfold RollsBack
  exact inferInstance

variable {x}

/-- `r'` differs from `r` at most in what a rollback writes. -/
structure SameButRollback (r r' : ExecutionResult) : Prop where
  action : r'.action = r.action
  decision : r'.decision = r.decision
  status : r'.status = r.status
  executed : r'.executed = r.executed
  verified : r'.verified = r.verified
  output : r'.output = r.output
  executedAt : r'.executedAt = r.executedAt
  /-- An error is kept. -/
  error : r.error.isSome = true → r'.error = r.error

theorem SameButRollback.refl (r : ExecutionResult) : SameButRollback r r :=
  ⟨rfl, rfl, rfl, rfl, rfl, rfl, rfl, fun _ => rfl⟩

theorem sameButRollback_failed (r : ExecutionResult) (exc : PyExc) :
    SameButRollback r (rollbackFailed r exc) where
  action := rfl
  decision := rfl
  status := rfl
  executed := rfl
  verified := rfl
  output := rfl
  executedAt := rfl
  error he := by
    obtain ⟨e, he⟩ := Option.isSome_iff_exists.mp he
    simp [rollbackFailed, he]

theorem maybeRollback_skip {r : ExecutionResult} (hr : ¬ x.RollsBack r) :
    x.maybeRollback h r = pure r := by
  unfold maybeRollback
  by_cases hb : r.rolledBack = true
  · rw [if_pos hb]
  · rw [if_neg hb, if_neg fun hc => hr ⟨by simpa using hb, hc.1, hc.2⟩]

theorem maybeRollback_cancelled {r : ExecutionResult} (hr : x.RollsBack r)
    (hc : h.rollback = .cancelled) :
    x.maybeRollback h r = ⟨[.rollbackCall], .error .cancelled⟩ := by
  unfold maybeRollback
  rw [if_neg (by simp [hr.1]), if_pos hr.2, hc]
  rfl

theorem maybeRollback_called {r : ExecutionResult} (hr : x.RollsBack r)
    (hc : h.rollback ≠ .cancelled) :
    ∃ r', x.maybeRollback h r = ⟨[.rollbackCall], .ok r'⟩ ∧ SameButRollback r r' := by
  unfold maybeRollback
  rw [if_neg (by simp [hr.1]), if_pos hr.2]
  cases ho : h.rollback with
  | cancelled => exact absurd ho hc
  | raised exc => exact ⟨_, rfl, sameButRollback_failed r exc⟩
  | returned v =>
    cases v with
    | bool b => exact ⟨_, rfl, rfl, rfl, rfl, rfl, rfl, rfl, rfl, fun _ => rfl⟩
    | _ => exact ⟨_, rfl, sameButRollback_failed r _⟩

/-- A rollback that is cancelled leaves without an audit record. -/
theorem rollBackAndReturn_cancelled {r : ExecutionResult} (hr : x.RollsBack r)
    (hc : h.rollback = .cancelled) :
    x.rollBackAndReturn h incidentId r = ⟨[.rollbackCall], .error .cancelled⟩ := by
  unfold rollBackAndReturn
  rw [maybeRollback_cancelled hr hc]
  rfl

variable (incidentId) in
/-- Otherwise the result is audited and returned, after the rollback call if there is one. -/
theorem rollBackAndReturn_eq {r : ExecutionResult}
    (hc : x.RollsBack r → h.rollback ≠ .cancelled) :
    ∃ r', SameButRollback r r' ∧ (¬ x.RollsBack r → r'.rolledBack = r.rolledBack) ∧
      x.rollBackAndReturn h incidentId r =
        ⟨(if x.RollsBack r then [.rollbackCall] else []) ++
          (x.hooked (x.record h incidentId r')).map .audit, x.afterHook h (.ok r')⟩ := by
  unfold rollBackAndReturn
  by_cases hr : x.RollsBack r
  · obtain ⟨r', he, hs⟩ := maybeRollback_called hr (hc hr)
    refine ⟨{ r' with durationMs := some h.durationMs },
      ⟨hs.action, hs.decision, hs.status, hs.executed, hs.verified, hs.output, hs.executedAt,
        hs.error⟩, fun hn => absurd hr hn, ?_⟩
    rw [he, if_pos hr, Traced.bind_of_ok rfl, auditAndReturn_eq]
  · refine ⟨{ r with durationMs := some h.durationMs },
      ⟨rfl, rfl, rfl, rfl, rfl, rfl, rfl, fun _ => rfl⟩, fun _ => rfl, ?_⟩
    rw [maybeRollback_skip hr, if_neg hr, Traced.pure_bind, auditAndReturn_eq]
    rfl

/-! ## The exits of `execute` -/

variable (x)

/-- `d` is the decision that the policy and the proposal's approval flag give an action, and it
lets the action run. -/
structure Permitted (action : ProposedAction) (d : PolicyDecision) : Prop where
  decided : ∃ tool registeredTier proposedTier d₀,
    x.registry.get action.toolName = .ok tool ∧
    RiskTier.ofInt? tool.riskTier = some registeredTier ∧
    RiskTier.ofInt? action.riskTier = some proposedTier ∧
    x.policy.classify action.toolName action.toolArgs
      (.int (registeredTier.max proposedTier).value) = .ok d₀ ∧
    d = reconcileApproval action d₀
  allowed : d.allowed = true
  noApproval : d.requiresApproval = false

/-- The action comes to the rules of the policy, and a matcher that is asked raises `exc`, which is
no rejection. -/
structure MatcherEscapes (action : ProposedAction) (exc : PyExc) : Prop where
  /-- The tool is registered, and both tiers are valid. -/
  reconciled : ∃ tool, x.registry.get action.toolName = .ok tool ∧
    (RiskTier.ofInt? tool.riskTier).isSome = true ∧ (RiskTier.ofInt? action.riskTier).isSome = true
  named : action.toolName ≠ ""
  /-- The checks before the rules pass. -/
  checked : x.policy.reject? action.toolName action.toolArgs = none
  raises : x.policy.MatcherRaises action.toolName action.toolArgs exc

variable (h incidentId)

/-- The ways `execute` goes. -/
inductive Exit (action : ProposedAction) : Exec ExecutionResult → Prop
  /-- Refused, before any call. -/
  | refused (riskTier : RiskTier) (reason : String) (status : ExecutionStatus)
      (error : Option PyExc) (e : ExecError) :
      status ∈ [.rejected, .approvalRequired, .notDispatched] → e ≠ .cancelled →
      Exit action
        ⟨(x.hooked (x.refusalRecord h incidentId action riskTier reason status error)).map .audit,
          x.afterHook h (.error e)⟩
  /-- Left before any call, and not audited. -/
  | escaped (exc : PyExc) : x.MatcherEscapes action exc → Exit action ⟨[], .error (.raised exc)⟩
  | snapshotCancelled : h.snapshot = .cancelled →
      Exit action ⟨[.snapshotCall], .error .cancelled⟩
  | snapshotFailed (d : PolicyDecision) (exc : PyExc) : h.snapshot ≠ .cancelled →
      Exit action (Traced.emit .snapshotCall >>= fun _ =>
        x.snapshotFailed h incidentId { action, decision := d } exc)
  | dispatched (d : PolicyDecision) : x.Permitted action d → action.toolName ∉ x.snapshots →
      Exit action (x.dispatch h incidentId { action, decision := d })
  | captured (d : PolicyDecision) (snapshot : PyDict) : x.Permitted action d →
      action.toolName ∈ x.snapshots → h.snapshot = .returned (.obj snapshot) →
      Exit action (Traced.emit .snapshotCall >>= fun _ =>
        x.dispatch h incidentId { action, decision := d, snapshot := some snapshot })

variable {x h incidentId}

theorem capture_exit {action : ProposedAction} {d : PolicyDecision} (hd : x.Permitted action d) :
    Exit x h incidentId action (x.capture h incidentId { action, decision := d }) := by
  unfold capture
  by_cases hs : action.toolName ∈ x.snapshots
  · rw [if_pos hs]
    cases ho : h.snapshot with
    | cancelled => exact .snapshotCancelled ho
    | raised exc => exact .snapshotFailed d exc (by simp [ho])
    | returned v =>
      cases v with
      | obj snapshot => exact .captured d snapshot hd hs ho
      | _ => exact .snapshotFailed d _ (by simp [ho])
  · rw [if_neg hs]
    exact .dispatched d hd hs

variable (incidentId) in
/-- `execute` refuses the action before any call, is left by an exception of a matcher, or captures
the pre-state of a permitted action. -/
theorem execute_cases (action : ProposedAction) :
    (∃ riskTier reason status error e,
      status ∈ [ExecutionStatus.rejected, .approvalRequired, .notDispatched] ∧
      e ≠ ExecError.cancelled ∧ x.execute h incidentId action =
        ⟨(x.hooked (x.refusalRecord h incidentId action riskTier reason status error)).map .audit,
          x.afterHook h (.error e)⟩) ∨
    (∃ exc, x.MatcherEscapes action exc ∧
      x.execute h incidentId action = ⟨[], .error (.raised exc)⟩) ∨
    ∃ d, x.Permitted action d ∧
      x.execute h incidentId action = x.capture h incidentId { action, decision := d } := by
  unfold execute
  split
  · rw [auditRefusal_then]
    exact .inl ⟨_, _, _, _, _, by simp, by simp, rfl⟩
  · rename_i tool htool
    split
    · rename_i registeredTier proposedTier hreg hprop
      split
      · rename_i exc hexc
        obtain ⟨hname, hreject, hraises⟩ := PolicyEngine.classify_raised_iff.mp hexc
        exact .inr (.inl ⟨exc,
          ⟨⟨tool, htool, by simp [hreg], by simp [hprop]⟩, hname, hreject, hraises⟩, rfl⟩)
      · rw [auditRefusal_then]
        exact .inl ⟨_, _, _, _, _, by simp, by simp, rfl⟩
      · rename_i d₀ hd₀
        unfold gate
        cases ha : (reconcileApproval action d₀).allowed with
        | false =>
          simp only [Bool.not_false, if_true]
          rw [auditRefusal_then]
          exact .inl ⟨_, _, _, _, _, by simp, by simp, rfl⟩
        | true =>
          cases hq : (reconcileApproval action d₀).requiresApproval with
          | true =>
            simp only [Bool.not_true, Bool.false_eq_true, if_false, if_true]
            rw [auditRefusal_then]
            exact .inl ⟨_, _, _, _, _, by simp, by simp, rfl⟩
          | false =>
            simp only [Bool.not_true, Bool.false_eq_true, if_false]
            exact .inr <| .inr ⟨_,
              ⟨⟨tool, registeredTier, proposedTier, d₀, htool, hreg, hprop, hd₀, rfl⟩, ha, hq⟩, rfl⟩
    · rw [auditRefusal_then]
      exact .inl ⟨_, _, _, _, _, by simp, by simp, rfl⟩

/-- What a matcher raises leaves `execute`, without a record. -/
theorem execute_of_escapes {action : ProposedAction} {exc : PyExc}
    (he : x.MatcherEscapes action exc) :
    x.execute h incidentId action = ⟨[], .error (.raised exc)⟩ := by
  obtain ⟨tool, htool, hreg, hprop⟩ := he.reconciled
  obtain ⟨registeredTier, hreg⟩ := Option.isSome_iff_exists.mp hreg
  obtain ⟨proposedTier, hprop⟩ := Option.isSome_iff_exists.mp hprop
  have hclassify : x.policy.classify action.toolName action.toolArgs
      (.int (registeredTier.max proposedTier).value) = .error (.raised exc) :=
    PolicyEngine.classify_raised_iff.mpr ⟨he.named, he.checked, he.raises⟩
  unfold execute
  simp only [htool, hreg, hprop, hclassify]
  rfl

variable (incidentId) in
/-- `execute` goes one of the ways of `Exit`. -/
theorem execute_exit (action : ProposedAction) :
    Exit x h incidentId action (x.execute h incidentId action) := by
  rcases execute_cases (x := x) (h := h) incidentId action with
    ⟨riskTier, reason, status, error, e, hs, he, heq⟩ | ⟨exc, hexc, heq⟩ | ⟨d, hd, heq⟩
  · rw [heq]
    exact .refused riskTier reason status error e hs he
  · rw [heq]
    exact .escaped exc hexc
  · rw [heq]
    exact capture_exit hd

end SafeExecutor

/-! ## A sample executor -/

/-- Handlers that all succeed. -/
def quietHandlers : Handlers where
  snapshot := .returned (.obj [])
  tool := .returned (.obj [("ok", .bool true)])
  verify := .returned (.bool true)
  rollback := .returned (.bool true)
  hook := .returned .null
  utcNow := "2026-01-01T00:00:00Z"
  durationMs := 0

/-- An executor of one tool that has every handler, with the default policy. -/
def sampleExecutor (tool : Tool) : SafeExecutor where
  registry := { tools := [tool], nodup := by simp }
  policy := .default
  snapshots := [tool.name]
  verifiers := [tool.name]
  rollbacks := [tool.name]
  auditHook := true
  hashArgs _ := ""

/-- A proposal to restart a deployment. -/
def restartAction : ProposedAction where
  toolName := "restart_deployment"
  toolArgs := [("namespace", .str "rivulet"), ("name", .str "api-gateway")]
  riskTier := 1
  rationale := ""
  requiresApproval := false
  tier_nonneg := by decide
  tier_le := by decide

/-- The executor of the tool that `restartAction` proposes. -/
def restartExecutor : SafeExecutor := sampleExecutor (dummyTool "restart_deployment" 1)

end Safety
end AutoSRE

import AutoSRE.Core.State
import AutoSRE.Lib.Traced
import AutoSRE.Safety.Policy
import AutoSRE.Tools.Registry

/-!
# The safe executor (`safety/executor.py`)

`SafeExecutor.execute` is a computation (`Exec`) that logs what the properties of the executor are
about: each awaited handler (`snapshotCall`, `dispatch`, `verifyCall`, `rollbackCall`) and each
audit record given to the audit hook. How each awaited call ends is a choice of the environment
(`Handlers`): a value, an exception (a timeout is the exception `TimeoutError`), or the
cancellation of the task. The exceptions that leave `execute` are `ExecError`.

The stages are the source's steps: `execute` looks the tool up, reconciles the tiers and
classifies; `gate` is steps 5 and 6; `capture` is step 7, `dispatch` step 8, `verify` step 9.
A path that ends with `_maybe_rollback`, the duration, the audit record and `return result` is
`rollBackAndReturn`.
-/

namespace AutoSRE
namespace Safety

open AutoSRE.Core Lib Py Tools

/-- `ExecutionStatus`. -/
inductive ExecutionStatus where
  | rejected
  | approvalRequired
  | notDispatched
  | snapshotFailed
  | succeeded
  | verified
  | verificationFailed
  | failed
  deriving DecidableEq, Repr

/-- Outcome of one safe execution attempt. -/
structure ExecutionResult where
  action : ProposedAction
  decision : PolicyDecision
  status : ExecutionStatus := .notDispatched
  executed : Bool := false
  verified : Option Bool := none
  rolledBack : Bool := false
  cancelled : Bool := false
  error : Option PyExc := none
  output : Option PyDict := none
  snapshot : Option PyDict := none
  executedAt : Option String := none
  durationMs : Option Int := none

/-- One audit-log entry for a single `execute` call. -/
structure AuditRecord where
  ts : String
  incidentId : Option String
  toolName : String
  toolArgsHash : String
  riskTier : Int
  policyReason : String
  status : ExecutionStatus
  executed : Bool
  verified : Option Bool
  rolledBack : Bool
  durationMs : Option Int
  errorClass : Option String

/-- What `execute` does at its awaits. -/
inductive ExecEvent where
  /-- The audit hook is called with a record. -/
  | audit (r : AuditRecord)
  | snapshotCall
  /-- The registry is called, under a decision. -/
  | dispatch (toolName : String) (args : PyDict) (decision : PolicyDecision)
  | verifyCall
  | rollbackCall

/-- The exceptions that leave `execute`. -/
inductive ExecError where
  | policyRejection (d : PolicyDecision)
  | needsApproval (d : PolicyDecision) (action : ProposedAction)
  /-- An exception of a policy matcher, which `execute` does not catch. -/
  | raised (exc : PyExc)
  /-- `asyncio.CancelledError`. -/
  | cancelled

/-- How the awaited calls of one `execute` end, and what its clocks read. -/
structure Handlers where
  snapshot : Outcome
  /-- The handler of the dispatched tool. -/
  tool : Outcome
  verify : Outcome
  rollback : Outcome
  hook : Outcome
  utcNow : String
  durationMs : Int

/-- A constructed `SafeExecutor`: the tools that have a snapshot, a verifier and a rollback
handler, and whether there is an audit hook. `hashArgs` is the digest of the arguments. -/
structure SafeExecutor where
  registry : ToolRegistry
  policy : PolicyEngine
  snapshots : List String
  verifiers : List String
  rollbacks : List String
  auditHook : Bool
  hashArgs : PyDict → String

/-- The computations of the executor. -/
abbrev Exec := Traced ExecError ExecEvent

/-- Step 4: the proposal's approval flag is reconciled with the policy decision. -/
def reconcileApproval (action : ProposedAction) (d : PolicyDecision) : PolicyDecision :=
  if action.requiresApproval && !d.requiresApproval then
    { d with
      requiresApproval := true
      reason := d.reason ++ "; proposal explicitly requires approval" }
  else if !action.requiresApproval && d.requiresApproval then
    { d with
      requiresApproval := false
      reason := d.reason ++ "; approval previously obtained by graph" }
  else d

/-- `asyncio.CancelledError("execution cancelled")`, as the error of a result. -/
def cancelledError : PyExc := .exception "CancelledError" "execution cancelled"

/-- A `PolicyRejectionError`, as the error of an audit record. -/
def policyRejectionError (d : PolicyDecision) : PyExc :=
  .exception "PolicyRejectionError" d.reason

namespace SafeExecutor

variable (x : SafeExecutor) (h : Handlers) (incidentId : Option String)

/-- `_safe_audit`: what the hook raises is swallowed, its cancellation is not. -/
def safeAudit (toolName : String) (args : PyDict) (riskTier : Int) (policyReason : String)
    (status : ExecutionStatus) (executed : Bool) (verified : Option Bool) (rolledBack : Bool)
    (durationMs : Option Int) (error : Option PyExc) : Exec Unit :=
  if x.auditHook then do
    Traced.emit (.audit
      { ts := h.utcNow, incidentId, toolName, toolArgsHash := x.hashArgs args, riskTier
        policyReason, status, executed, verified, rolledBack, durationMs
        errorClass := error.map PyExc.className })
    match h.hook with
    | .cancelled => Traced.raise .cancelled
    | _ => pure ()
  else pure ()

/-- The audit record of an attempt that ends before a result exists or is dispatched. -/
def auditRefusal (action : ProposedAction) (riskTier : RiskTier) (reason : String)
    (status : ExecutionStatus) (error : Option PyExc) : Exec Unit :=
  x.safeAudit h incidentId action.toolName action.toolArgs riskTier.value reason status false none
    false none error

/-- `_audit_result`. -/
def auditResult (r : ExecutionResult) : Exec Unit :=
  x.safeAudit h incidentId r.action.toolName r.action.toolArgs r.decision.riskTier.value
    r.decision.reason r.status r.executed r.verified r.rolledBack r.durationMs r.error

/-- The audit record, and `return result`. -/
def auditAndReturn (r : ExecutionResult) : Exec ExecutionResult := do
  x.auditResult h incidentId r
  pure r

/-- The error of a failed rollback is kept when there is none yet. -/
def rollbackFailed (r : ExecutionResult) (exc : PyExc) : ExecutionResult :=
  { r with rolledBack := false, error := r.error.or (some exc) }

/-- `_maybe_rollback`. -/
def maybeRollback (r : ExecutionResult) : Exec ExecutionResult :=
  if r.rolledBack then pure r
  else if r.action.toolName ∈ x.rollbacks ∧ r.snapshot.isSome then do
    Traced.emit .rollbackCall
    match h.rollback with
    | .cancelled => Traced.raise .cancelled
    | .raised exc => pure (rollbackFailed r exc)
    | .returned (.bool b) => pure { r with rolledBack := b }
    | .returned _ => pure (rollbackFailed r (.typeError "rollback handler must return bool"))
  else pure r

/-- `_maybe_rollback`, the duration, the audit record, and `return result`. -/
def rollBackAndReturn (r : ExecutionResult) : Exec ExecutionResult := do
  let r ← x.maybeRollback h r
  x.auditAndReturn h incidentId { r with durationMs := some h.durationMs }

/-- A verification that did not pass. -/
def verificationFailed (r : ExecutionResult) (error : Option PyExc) : Exec ExecutionResult :=
  x.rollBackAndReturn h incidentId
    { r with verified := some false, status := .verificationFailed, error }

/-- Step 9. -/
def verify (r : ExecutionResult) : Exec ExecutionResult :=
  if r.action.toolName ∈ x.verifiers then do
    Traced.emit .verifyCall
    match h.verify with
    | .cancelled => Traced.raise .cancelled
    | .raised exc => x.verificationFailed h incidentId r (some exc)
    | .returned (.bool true) =>
      x.auditAndReturn h incidentId
        { r with verified := some true, status := .verified, durationMs := some h.durationMs }
    | .returned (.bool false) => x.verificationFailed h incidentId r r.error
    | .returned _ =>
      x.verificationFailed h incidentId r (some (.typeError "verifier must return bool"))
  else x.auditAndReturn h incidentId { r with durationMs := some h.durationMs }

/-- A dispatched call that did not complete. -/
def dispatchFailed (r : ExecutionResult) (exc : PyExc) : Exec ExecutionResult :=
  x.rollBackAndReturn h incidentId { r with status := .failed, error := some exc }

/-- A dispatched call that is cancelled: the rollback, the audit record, and `raise`. -/
def dispatchCancelled (r : ExecutionResult) : Exec ExecutionResult := do
  let _ ← x.rollBackAndReturn h incidentId
    { r with status := .failed, error := some cancelledError, cancelled := true }
  Traced.raise .cancelled

/-- The await of the registry in step 8, and what follows it. -/
def awaitRegistry (r : ExecutionResult) : Exec ExecutionResult :=
  match x.registry.execute r.action.toolName r.action.toolArgs h.tool with
  | .returned (.obj out) =>
    x.verify h incidentId { r with output := some out, status := .succeeded }
  | .returned _ =>
    x.dispatchFailed h incidentId r (.typeError "tool registry must return a dict output")
  | .raised exc => x.dispatchFailed h incidentId r exc
  | .cancelled => x.dispatchCancelled h incidentId r

/-- Step 8: the result is marked as dispatched before the await. -/
def dispatch (r : ExecutionResult) : Exec ExecutionResult := do
  Traced.emit (.dispatch r.action.toolName r.action.toolArgs r.decision)
  x.awaitRegistry h incidentId { r with executed := true, executedAt := some h.utcNow }

/-- A snapshot that could not be captured. -/
def snapshotFailed (r : ExecutionResult) (exc : PyExc) : Exec ExecutionResult :=
  x.auditAndReturn h incidentId { r with status := .snapshotFailed, error := some exc }

/-- Step 7. -/
def capture (r : ExecutionResult) : Exec ExecutionResult :=
  if r.action.toolName ∈ x.snapshots then do
    Traced.emit .snapshotCall
    match h.snapshot with
    | .cancelled => Traced.raise .cancelled
    | .raised exc => x.snapshotFailed h incidentId r exc
    | .returned (.obj snapshot) => x.dispatch h incidentId { r with snapshot := some snapshot }
    | .returned _ =>
      x.snapshotFailed h incidentId r (.typeError "snapshot handler must return a dict")
  else x.dispatch h incidentId r

/-- Steps 5 and 6: a decision that is not allowed, and the approval gate. -/
def gate (action : ProposedAction) (d : PolicyDecision) : Exec ExecutionResult :=
  if !d.allowed then do
    x.auditRefusal h incidentId action d.riskTier d.reason .rejected none
    Traced.raise (.policyRejection d)
  else if d.requiresApproval then do
    x.auditRefusal h incidentId action d.riskTier d.reason .approvalRequired none
    Traced.raise (.needsApproval d action)
  else x.capture h incidentId { action, decision := d }

/-- `execute`. -/
def execute (action : ProposedAction) : Exec ExecutionResult :=
  match x.registry.get action.toolName with
  | .error exc => do
    x.auditRefusal h incidentId action .prohibited
      ("tool '" ++ action.toolName ++ "' is not registered") .notDispatched (some exc)
    Traced.raise (.policyRejection (rejection
      ("tool '" ++ action.toolName ++ "' is not registered and cannot be executed")))
  | .ok tool =>
    match RiskTier.ofInt? tool.riskTier, RiskTier.ofInt? action.riskTier with
    | some registeredTier, some proposedTier =>
      match x.policy.classify action.toolName action.toolArgs
          (.int (registeredTier.max proposedTier).value) with
      | .error (.raised exc) => Traced.raise (.raised exc)
      | .error (.rejected d) => do
        x.auditRefusal h incidentId action d.riskTier d.reason .rejected
          (some (policyRejectionError d))
        Traced.raise (.policyRejection d)
      | .ok d => x.gate h incidentId action (reconcileApproval action d)
    | _, _ => do
      x.auditRefusal h incidentId action .prohibited "invalid risk tier metadata" .notDispatched
        (some (.valueError "not a valid RiskTier"))
      Traced.raise (.policyRejection (rejection
        ("invalid risk tier metadata for tool '" ++ action.toolName ++ "'")))

end SafeExecutor

end Safety
end AutoSRE

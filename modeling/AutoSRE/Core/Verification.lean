import AutoSRE.Core.Ending

/-!
# Resolved and verified

`execute_node` counts a call as a success when it was executed without an error. A verifier that
returns `False` leaves no error, and the tool's own `verification_passed` is not read; but
`complete_node` takes every success for a resolution.

- **The verifier** (`resolved_verified`). An incident that ends resolved has an action that
  succeeded and whose verification did not fail, when no verifier returns `False`
  (`VerifiersPass`); otherwise see `rejected_action_resolves`.
- **The tool's report** (`reports_honoured`). An action whose output reports a failed verification
  resolves nothing, when its verifier then fails (`ReportsHeeded`); otherwise see
  `reported_failure_resolves`.
-/

namespace AutoSRE
namespace Core

open Lib Py Safety Tools

variable {ctx : GraphContext} {n : Nat} {es : List Event} {t : Thread}

/-! ## The record of a call -/

/-- A recorded success is an execution without an error. -/
theorem executedAction_success {env : NodeEnv} {p : Proposal} {action : ProposedAction}
    {r : ExecutionResult} (ho : (ctx.executor.execute env.handlers none action).out = .ok r)
    (hs : (executedAction env p r).success = true) :
    ctx.executor.Succeeded env.handlers action r := by
  simp only [executedAction, Bool.and_eq_true, Option.isNone_iff_eq_none] at hs
  exact SafeExecutor.execute_succeeded env.uncancelled ho hs.1 hs.2

/-- A recorded action that passed its verification is a success. -/
theorem executedAction_passed {env : NodeEnv} {p : Proposal} {action : ProposedAction}
    {r : ExecutionResult} (ho : (ctx.executor.execute env.handlers none action).out = .ok r)
    (hv : (executedAction env p r).verificationPassed = some true) :
    (executedAction env p r).success = true := by
  have hc := SafeExecutor.execute_consistent env.uncancelled ho
  obtain ⟨hex, herr⟩ := SafeExecutor.executed_of_verified hc hv
  simp [executedAction, hex, herr]

/-- What holds of every action that a run may record holds of the recorded ones. -/
theorem recorded_inv {C : Thread → Label → Prop} {P : List Event → ExecutedAction → Prop}
    (hmono : ∀ es fs r, P es r → P (es ++ fs) r)
    (hcall : ∀ es t env p ps action r, C t (.run env) → t.next = .node .execute →
      t.values.proposedActions = p :: ps → actionOf t.values p = .ok action →
      (ctx.executor.execute env.handlers none action).out = .ok r →
      P (es ++ .node .execute :: .executorCall action ::
        (ctx.executor.execute env.handlers none action).log.map .executor)
        (executedAction env p r))
    (hr : (graph ctx).Run C n es t) : ∀ r ∈ t.values.executedActions, P es r := by
  refine hr.inv (I := fun es t => ∀ r ∈ t.values.executedActions, P es r) (fun s hi r hm => ?_)
    fun n es s a s' fs _ hi hc hs r hm => ?_
  · obtain ⟨metadata, budget, now, hv, -⟩ := hi
    rw [hv] at hm
    cases hm
  · cases step_record hs with
    | kept _ he _ | raised _ _ _ _ _ _ _ _ _ _ _ he _ => exact hmono _ _ _ (hi r (he ▸ hm))
    | returned env p ps action r' ha hn hp _ hact ho he _ =>
      rw [he] at hm
      rcases List.mem_append.mp hm with hm | hm
      · exact hmono _ _ _ (hi r hm)
      · obtain rfl := List.mem_singleton.mp hm
        exact hcall es s env p ps action r' (ha ▸ hc) hn hp hact ho

/-! ## The verifier -/

/-- When `execute_node` begins, the verifier of the proposed tool does not return `False`, or the
rollback after it fails. -/
def VerifiersPass (ctx : GraphContext) (t : Thread) (a : Label) : Prop :=
  ∀ env p ps, a = .run env → t.next = .node .execute → t.values.proposedActions = p :: ps →
    p.toolName ∈ ctx.executor.verifiers → env.handlers.verify = .returned (.bool false) →
    ctx.executor.RollbackFails env.handlers p.toolName

/-- The action was dispatched without an error, and its verification did not fail. -/
structure VerifiedSuccess (es : List Event) (r : ExecutedAction) : Prop where
  success : r.success = true
  dispatched : ∃ d, .executor (.dispatch r.toolName r.toolArgs d) ∈ es
  verification : r.verificationPassed ≠ some false

/-- When no verifier returns `False`, a recorded success is verified. -/
theorem success_verified (hr : (graph ctx).Run (VerifiersPass ctx) n es t) :
    ∀ r ∈ t.values.executedActions, r.success = true → VerifiedSuccess es r := by
  refine recorded_inv (P := fun es r => r.success = true → VerifiedSuccess es r)
    (fun es fs r hr hs => ?_) (fun es t env p ps action r hc hn hp hact ho hs => ?_) hr
  · obtain ⟨-, ⟨d, hd⟩, hv⟩ := hr hs
    exact ⟨hs, ⟨d, List.mem_append_left _ hd⟩, hv⟩
  · obtain ⟨hname, hargs, -⟩ := ProposedAction.make_ok hact
    obtain ⟨⟨d, hd⟩, -, hverdict⟩ := executedAction_success ho hs
    refine ⟨hs, ⟨d, ?_⟩, fun hv => ?_⟩
    · rw [hname, hargs] at hd
      exact List.mem_append_right _ (by simpa [executedAction] using hd)
    · -- The only verdict that fails is the one the condition excludes.
      have hv : r.verified = some false := hv
      rw [hv] at hverdict
      cases hverdict with
      | rejected hm hver hroll =>
        rw [hname] at hm hroll
        exact hroll (hc env p ps rfl hn hp hm hver)

/-- An incident that ends resolved has an action that was dispatched without an error and whose
verification did not fail, when no verifier returns `False`. -/
theorem resolved_verified (hr : (graph ctx).Run (VerifiersPass ctx) n es t) (hd : t.next = .done)
    (hst : t.values.status = .resolved) :
    ∃ r ∈ t.values.executedActions, VerifiedSuccess es r := by
  rcases done_cases hr hd with ⟨-, r, hm, hs⟩ | ⟨hst', -⟩ | ⟨hst', -⟩
  · exact ⟨r, hm, success_verified hr r hm hs⟩
  · rw [hst] at hst'
    cases hst'
  · rw [hst] at hst'
    cases hst'

/-- A restart that is verified. -/
theorem resolved_verified_restart :
    ∃ n es t, (graph restartContext).Run (VerifiersPass restartContext) n es t ∧
      t.next = .done ∧ t.values.status = .resolved ∧
      ∃ r ∈ t.values.executedActions, VerifiedSuccess es r := by
  have hexec : ((graph restartContext).exec sampleThread
      (List.replicate 7 (.run (restartEnv [])))).any (endsAs .resolved) = true := by
    decide +kernel
  have hpass : ∀ t, ∀ a ∈ List.replicate 7 (Label.run (restartEnv [])),
      VerifiersPass restartContext t a := by
    intro t a ha env p ps he _ _ _ hv
    obtain rfl : restartEnv [] = env := by simpa [List.eq_of_mem_replicate ha] using he
    cases hv
  obtain ⟨t, es, hr, hc⟩ := Sys.exists_run_of_exec sampleThread_initial hpass hexec
  obtain ⟨hd, hst⟩ := of_endsAs hc
  exact ⟨_, es, t, hr, hd, hst, resolved_verified hr hd hst⟩

/-- A restart whose verification fails still resolves the incident. -/
theorem rejected_action_resolves :
    ¬ ∀ (ctx : GraphContext) (n : Nat) (es : List Event) (t : Thread),
      (graph ctx).Run Sys.anyStep n es t → t.next = .done → t.values.status = .resolved →
      ∃ r ∈ t.values.executedActions, VerifiedSuccess es r := by
  intro hall
  have hexec : ((graph restartContext).exec sampleThread (List.replicate 8
      (.run (unverifiedEnv (sampleAnswer "restart_deployment" 1))))).any
      (fun r => endsAs .resolved r &&
        r.1.values.executedActions.all fun a => a.verificationPassed == some false) = true := by
    decide +kernel
  obtain ⟨t, es, hr, hc⟩ := Sys.exists_any_run sampleThread_initial hexec
  simp only [Bool.and_eq_true, List.all_eq_true, beq_iff_eq] at hc
  obtain ⟨hd, hst⟩ := of_endsAs hc.1
  obtain ⟨r, hm, hv⟩ := hall _ _ es t hr hd hst
  exact hv.verification (hc.2 r hm)

/-! ## The tool's report -/

/-- The output says that the problem is still there. -/
def reportsFailure (output : PyDict) : Bool :=
  match PyDict.get? output "verification_passed" with
  | some (.bool false) => true
  | _ => false

/-- The verifier of the tool fails after the call: it raises, it returns no `bool`, or the rollback
after its `False` fails. -/
structure VerifierFails (x : SafeExecutor) (h : Handlers) (toolName : String) : Prop where
  verified : toolName ∈ x.verifiers
  notPassed : h.verify ≠ .returned (.bool true)
  rollback : h.verify = .returned (.bool false) → x.RollbackFails h toolName

/-- When a call of the executor would get an output that reports a failure, the verifier fails. -/
def ReportsHeeded (ctx : GraphContext) (t : Thread) (a : Label) : Prop :=
  ∀ env p ps output, a = .run env → t.next = .node .execute → t.values.proposedActions = p :: ps →
    ctx.executor.registry.execute p.toolName p.toolArgs env.handlers.tool =
      .returned (.obj output) → reportsFailure output = true →
    VerifierFails ctx.executor env.handlers p.toolName

/-- What a recorded action that reports a failure is like. -/
structure ReportHeeded (r : ExecutedAction) : Prop where
  notSuccess : reportsFailure r.result = true → r.success = false
  notPassed : reportsFailure r.result = true → r.verificationPassed ≠ some true

theorem report_heeded (hr : (graph ctx).Run (ReportsHeeded ctx) n es t) :
    ∀ r ∈ t.values.executedActions, ReportHeeded r := by
  refine recorded_inv (P := fun _ r => ReportHeeded r) (fun _ _ _ h => h)
    (fun es t env p ps action r hc hn hp hact ho => ?_) hr
  have hfail : reportsFailure (executedAction env p r).result = true →
      (executedAction env p r).success = false := by
    intro hrep
    cases hs : (executedAction env p r).success with
    | false => rfl
    | true =>
      obtain ⟨hname, hargs, -⟩ := ProposedAction.make_ok hact
      obtain ⟨-, ⟨output, hout, hres⟩, hverdict⟩ := executedAction_success ho hs
      have hrep : reportsFailure output = true := by simpa [executedAction, hres] using hrep
      rw [hname, hargs] at hout
      obtain ⟨hm, hnp, hroll⟩ := hc env p ps output rfl hn hp hout hrep
      rw [hname] at hverdict
      generalize r.verified = v at hverdict
      cases hverdict with
      | unverified hnot => exact absurd hm hnot
      | passed _ hv => exact absurd hv hnp
      | rejected _ hv hnr => exact absurd (hroll hv) hnr
  refine ⟨hfail, fun hrep hv => ?_⟩
  rw [executedAction_passed ho hv] at hfail
  cases hfail hrep

/-- An action whose output reports a failure resolves nothing. -/
structure HonoursReports (ctx : GraphContext) (t : Thread) : Prop where
  /-- `verify_node` proposes again or fails. -/
  verify : t.next = .node .verify → ∀ last, t.values.executedActions.getLast? = some last →
    reportsFailure last.result = true → ∀ a t' fs, (graph ctx).step t a = some (t', fs) →
      t'.next = .node .propose ∨ (t'.next = .node .complete ∧ t'.values.status = .failed)
  /-- The run ends failed, or resolved by an action that does not report a failure. -/
  complete : t.next = .done → ∀ last, t.values.executedActions.getLast? = some last →
    reportsFailure last.result = true → t.values.status = .failed ∨
      (t.values.status = .resolved ∧
        ∃ r ∈ t.values.executedActions, r.success = true ∧ reportsFailure r.result = false)

/-- An output that reports a failure is honoured when the verifier of the tool then fails. -/
theorem reports_honoured (hr : (graph ctx).Run (ReportsHeeded ctx) n es t) :
    HonoursReports ctx t := by
  have hheeded := report_heeded hr
  constructor
  · intro hn last hl hrep a t' fs hs
    have hlast := hheeded last (List.mem_of_getLast? hl)
    have hnot : last.verified = false := by
      have hp := hlast.notPassed hrep
      simp [ExecutedAction.verified, hp, hlast.notSuccess hrep]
    obtain ⟨env, run, -, hx, hstep⟩ := step_exit hs hn
    obtain ⟨rfl, -⟩ := Prod.mk.inj hstep
    cases hx with
    | nothing he => simp [he] at hl
    | resolved last' hl' hv =>
      obtain rfl : last = last' := by simpa [hl] using hl'
      rw [hnot] at hv
      cases hv
    | failed _ _ _ _ => exact .inr ⟨rfl, rfl⟩
    | retry _ _ _ _ => exact .inl rfl
  · intro hd last hl hrep
    rcases done_cases hr hd with ⟨hst, r, hm, hs⟩ | ⟨-, hnil⟩ | ⟨hst, -⟩
    · refine .inr ⟨hst, r, hm, hs, ?_⟩
      cases hrep' : reportsFailure r.result with
      | false => rfl
      | true =>
        rw [(hheeded r hm).notSuccess hrep'] at hs
        cases hs
    · simp [hnil] at hl
    · exact .inl hst

/-! ### The sample incident -/

/-- An environment in which the tool reports a failure, and the verifier ends with `verify`. -/
def reportingEnv (verify : Outcome) (hv : verify ≠ .cancelled) : NodeEnv :=
  { restartEnv [] with
    handlers :=
      { quietHandlers with
        tool := .returned (.obj [("verification_passed", .bool false)]), verify }
    uncancelled := by constructor <;> simp [quietHandlers, hv] }

/-- A verifier that times out. -/
def timeoutEnv : NodeEnv := reportingEnv (.raised .timeoutError) (by simp)

/-- The last recorded action reports a failure. -/
def lastReports (t : Thread) : Bool :=
  t.values.executedActions.getLast?.any fun r => reportsFailure r.result

theorem of_lastReports (h : lastReports t = true) :
    ∃ last, t.values.executedActions.getLast? = some last ∧ reportsFailure last.result = true :=
  (Option.any_eq_true _ _).mp h

/-- A restart that reports a failure, and whose verifier times out. -/
theorem reports_honoured_restart :
    ∃ n es t, (graph restartContext).Run (ReportsHeeded restartContext) n es t ∧
      t.next = .done ∧ t.values.status = .failed ∧ lastReports t = true ∧
      HonoursReports restartContext t := by
  have hexec : ((graph restartContext).exec sampleThread
      (List.replicate 8 (.run timeoutEnv))).any
      (fun r => endsAs .failed r && lastReports r.1) = true := by
    decide +kernel
  have hheeded : ∀ t, ∀ a ∈ List.replicate 8 (Label.run timeoutEnv),
      ReportsHeeded restartContext t a := by
    intro t a ha env p ps output he _ _ hout _
    obtain rfl : timeoutEnv = env := by simpa [List.eq_of_mem_replicate ha] using he
    refine ⟨?_, by simp [timeoutEnv, reportingEnv], fun hv => ?_⟩
    · -- The registry has no other tool.
      obtain ⟨tool, hget⟩ := ToolRegistry.execute_returned hout
      obtain ⟨hm, hname⟩ := ToolRegistry.get_ok hget
      obtain rfl : tool = restartTool := List.mem_singleton.mp hm
      exact List.mem_singleton.mpr hname.symm
    · simp [timeoutEnv, reportingEnv] at hv
  obtain ⟨t, es, hr, hc⟩ := Sys.exists_run_of_exec sampleThread_initial hheeded hexec
  rw [Bool.and_eq_true] at hc
  obtain ⟨hd, hst⟩ := of_endsAs hc.1
  exact ⟨_, es, t, hr, hd, hst, hc.2, reports_honoured hr⟩

/-- An executor without handlers, as the application builds it. -/
def unhandledContext : GraphContext :=
  { restartContext with
    executor :=
      { restartContext.executor with
        snapshots := [], verifiers := [], rollbacks := [], auditHook := false } }

/-- Without a verifier the report of the tool is not read: the incident is resolved. -/
theorem reported_failure_resolves :
    ¬ ∀ (ctx : GraphContext) (n : Nat) (es : List Event) (t : Thread),
      (graph ctx).Run Sys.anyStep n es t → HonoursReports ctx t := by
  intro hall
  have hexec : ((graph unhandledContext).exec sampleThread
      (List.replicate 7 (.run timeoutEnv))).any (fun r => endsAs .resolved r &&
        r.1.values.executedActions.all (fun a => reportsFailure a.result) &&
          lastReports r.1) = true := by
    decide +kernel
  obtain ⟨t, es, hr, hc⟩ := Sys.exists_any_run sampleThread_initial hexec
  simp only [Bool.and_eq_true, List.all_eq_true] at hc
  obtain ⟨hd, hst⟩ := of_endsAs hc.1.1
  obtain ⟨last, hl, hrep⟩ := of_lastReports hc.2
  rcases (hall _ _ es t hr).complete hd last hl hrep with hf | ⟨-, r, hm, -, hnot⟩
  · exact absurd (hst.symm.trans hf) (by simp)
  · exact absurd ((hc.1.2 r hm).symm.trans hnot) (by simp)

end Core
end AutoSRE

import AutoSRE.Core.Escape
import AutoSRE.Core.Frame
import AutoSRE.Safety.Results

/-!
# How an incident ends

`complete_node` derives the final status from the recorded actions (`status_of_done`), and what
raised is not recorded (`recorded_iff_permitted`). So an incident all of whose calls the policy
refuses ends as `no_action`, although the executor was called (`refused_call_no_action`). The status
is right exactly when the policy permits one of the calls, if there are any (`classified_iff`).
-/

namespace AutoSRE
namespace Core

open Lib Py Safety Tools

variable {ctx : GraphContext} {C : Thread → Label → Prop} {n : Nat} {es : List Event} {t : Thread}

/-! ## The end of a run -/

/-- The status of a run that is done is the derived one. -/
theorem status_of_done (hr : (graph ctx).Run C n es t) :
    t.next = .done → t.values.status = finalStatus t.values := by
  refine of_done (I := fun _ t => t.values.status = finalStatus t.values)
    (fun es s s' fs env resume metrics hstep => ?_) hr
  obtain ⟨_, _, _, _, _, he⟩ := completeNode_eq env s.values metrics
  change (s', fs) = afterNode _ _ _ (completeNode env metrics s.values) at hstep
  rw [he] at hstep
  obtain ⟨rfl, -⟩ := Prod.mk.inj hstep
  rfl

/-- A run that is done is not running any more. -/
theorem not_running (hr : (graph ctx).Run C n es t) (hd : t.next = .done) :
    t.values.status ≠ .running := by
  rcases sound_run hr with ⟨exc, hc⟩ | hs
  · rw [hd] at hc
    cases hc
  · have := hs.next
    rwa [hd] at this

/-- The status of a run that is done, by its recorded actions. -/
theorem done_cases (hr : (graph ctx).Run C n es t) (hd : t.next = .done) :
    (t.values.status = .resolved ∧ ∃ r ∈ t.values.executedActions, r.success = true) ∨
    (t.values.status = .noAction ∧ t.values.executedActions = []) ∨
    (t.values.status = .failed ∧ t.values.executedActions ≠ [] ∧
      ∀ r ∈ t.values.executedActions, r.success = false) := by
  have hst := status_of_done hr hd
  have hrun := not_running hr hd
  unfold finalStatus at hst
  split at hst
  · exact absurd hst hrun
  · split at hst
    · rename_i hany
      exact .inl ⟨hst, List.any_eq_true.mp hany⟩
    · rename_i hany
      have hall : ∀ r ∈ t.values.executedActions, r.success = false := by simpa using hany
      split at hst
      · rename_i he
        exact .inr (.inl ⟨hst, List.isEmpty_iff.mp he⟩)
      · rename_i he
        exact .inr (.inr ⟨hst, fun hnil => he (List.isEmpty_iff.mpr hnil), hall⟩)

/-! ## The calls of the executor -/

/-- The executor is called for an action that the policy permits. -/
def PermittedCall (ctx : GraphContext) (es : List Event) : Prop :=
  ∃ action d, .executorCall action ∈ es ∧ ctx.executor.Permitted action d

/-- Only the call of a step is a call in what it logs. -/
theorem call_of_mem {action action' : ProposedAction} {log : List ExecEvent}
    (h : .executorCall action' ∈
      (.node .execute :: .executorCall action :: log.map .executor : List Event)) :
    action' = action := by
  simpa using h

/-- An action is recorded exactly when the policy permits a call. -/
theorem recorded_iff_permitted (hr : (graph ctx).Run C n es t) :
    t.values.executedActions ≠ [] ↔ PermittedCall ctx es := by
  refine hr.inv (I := fun es t => t.values.executedActions ≠ [] ↔ PermittedCall ctx es)
    (fun s hi => ?_) fun n es s a s' fs _ hi _ hs => ?_
  · obtain ⟨metadata, budget, now, hv, -⟩ := hi
    rw [hv]
    simp [PermittedCall, createInitialState]
  · -- A call that is not permitted changes neither side.
    have hkept : (∀ action d, .executorCall action ∈ fs → ¬ ctx.executor.Permitted action d) →
        (PermittedCall ctx (es ++ fs) ↔ PermittedCall ctx es) := by
      intro hnot
      constructor
      · rintro ⟨action, d, hm, hd⟩
        exact ⟨action, d, (List.mem_append.mp hm).resolve_right fun hm => hnot action d hm hd, hd⟩
      · rintro ⟨action, d, hm, hd⟩
        exact ⟨action, d, List.mem_append_left _ hm, hd⟩
    cases step_record hs with
    | kept hno he _ => rw [he, hi, hkept fun action _ hm => absurd hm (hno action)]
    | returned env p ps action r _ _ _ _ _ ho he _ =>
      obtain ⟨d, hd⟩ := SafeExecutor.permitted_of_ok ho
      rw [he]
      exact ⟨fun _ => ⟨action, d, by simp, hd⟩, fun _ => by simp⟩
    | raised env p ps action e _ _ _ _ _ ho he _ =>
      rw [he, hi, hkept]
      intro action' d hm hd
      obtain rfl := call_of_mem hm
      obtain ⟨r, hok⟩ := (SafeExecutor.execute_returns_iff ctx.executor none env.uncancelled
        action').mpr ⟨d, hd⟩
      rw [ho] at hok
      cases hok

/-- The final status tells whether the executor was called, and whether a call succeeded. -/
structure Classified (es : List Event) (t : Thread) : Prop where
  final : t.values.status ≠ .running
  noAction : t.values.status = .noAction → ∀ action, .executorCall action ∉ es
  failed : (∃ action, .executorCall action ∈ es) →
    (∀ r ∈ t.values.executedActions, r.success = false) → t.values.status = .failed

/-- The final status is right exactly when the policy permits one of the calls, if there are
any. -/
theorem classified_iff (hr : (graph ctx).Run C n es t) (hd : t.next = .done) :
    Classified es t ↔ ((∃ action, .executorCall action ∈ es) → PermittedCall ctx es) := by
  rw [← recorded_iff_permitted hr]
  constructor
  · rintro hc ⟨action, hm⟩ hnil
    rcases done_cases hr hd with ⟨-, r, hrm, -⟩ | ⟨hst, -⟩ | ⟨-, hne, -⟩
    · simp [hnil] at hrm
    · exact hc.noAction hst action hm
    · exact hne hnil
  · intro hcalls
    refine ⟨not_running hr hd, fun hst action hm => ?_, fun hcall hall => ?_⟩
    · rcases done_cases hr hd with ⟨hst', -⟩ | ⟨-, hnil⟩ | ⟨hst', -⟩
      · rw [hst] at hst'
        cases hst'
      · exact hcalls ⟨action, hm⟩ hnil
      · rw [hst] at hst'
        cases hst'
    · rcases done_cases hr hd with ⟨-, r, hrm, hs⟩ | ⟨-, hnil⟩ | ⟨hst, -⟩
      · rw [hall r hrm] at hs
        cases hs
      · exact absurd hnil (hcalls hcall)
      · exact hst

/-! ### The sample incident -/

/-- The run has ended with the status. -/
def endsAs (status : Status) (r : Thread × List Event) : Bool :=
  match r.1.next with
  | .done => r.1.values.status == status
  | _ => false

theorem of_endsAs {status : Status} {r : Thread × List Event} (h : endsAs status r = true) :
    r.1.next = .done ∧ r.1.values.status = status := by
  unfold endsAs at h
  split at h
  · rename_i hn
    exact ⟨hn, by simpa using h⟩
  · cases h

/-- The event is a call of the executor. -/
def Event.isCall : Event → Bool
  | .executorCall _ => true
  | _ => false

theorem exists_call {es : List Event} (h : es.any Event.isCall = true) :
    ∃ action, .executorCall action ∈ es := by
  obtain ⟨e, hm, he⟩ := List.any_eq_true.mp h
  cases e with
  | executorCall action => exact ⟨action, hm⟩
  | _ => cases he

/-- A tool that runs without an approval. -/
def restartTool : Tool := sampleTool "restart_deployment" 1

/-- A context with `restart_deployment`, at tier 1. -/
def restartContext : GraphContext := sampleContext restartTool

/-- An environment that proposes a restart with the given arguments. -/
def restartEnv (args : PyDict) : NodeEnv := sampleEnv (sampleAnswer "restart_deployment" 1 args)

/-- An incident whose call the policy permits. -/
theorem classified_iff_restart :
    ∃ n es t, (graph restartContext).Run Sys.anyStep n es t ∧ t.next = .done ∧
      (∃ action, .executorCall action ∈ es) ∧
      (Classified es t ↔
        ((∃ action, .executorCall action ∈ es) → PermittedCall restartContext es)) := by
  have hexec : ((graph restartContext).exec sampleThread
      (List.replicate 7 (.run (restartEnv [])))).any
      (fun r => endsAs .resolved r && r.2.any Event.isCall) = true := by
    decide +kernel
  obtain ⟨t, es, hr, hc⟩ := Sys.exists_any_run sampleThread_initial hexec
  rw [Bool.and_eq_true] at hc
  exact ⟨_, es, t, hr, (of_endsAs hc.1).1, exists_call hc.2, classified_iff hr (of_endsAs hc.1).1⟩

/-- A wildcard in the arguments makes the policy refuse the call; the incident ends as
`no_action`. -/
theorem refused_call_no_action :
    ¬ ∀ (ctx : GraphContext) (n : Nat) (es : List Event) (t : Thread),
      (graph ctx).Run Sys.anyStep n es t → t.next = .done → Classified es t := by
  intro hall
  have hexec : ((graph restartContext).exec sampleThread
      (List.replicate 7 (.run (restartEnv [("name", .str "*")])))).any
      (fun r => endsAs .noAction r && r.2.any Event.isCall) = true := by
    decide +kernel
  obtain ⟨t, es, hr, hc⟩ := Sys.exists_any_run sampleThread_initial hexec
  rw [Bool.and_eq_true] at hc
  obtain ⟨hd, hst⟩ := of_endsAs hc.1
  obtain ⟨action, hm⟩ := exists_call hc.2
  exact (hall _ _ es t hr hd).noAction hst action hm

end Core
end AutoSRE

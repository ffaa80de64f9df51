import AutoSRE.Core.RouterCalls

/-!
# The protocol of the router

- **The log** (`logOf`). The gates that were asked and the physical calls that were made.
- **Attempts and visits** (`Attempted`, `Visited`). What the calls on one model, and the passes over
  the models, can be; every run of the program is such (`attemptLoop_runs`, `candidateLoop_runs`).
- **The protocol** (`Protocol`). What follows for the models tried, the number of the calls, the
  result and the count. All but the class of the exception holds of every run (`Dispatch`); that
  class does if no call of the run has a backoff that raises (`call_protocol_iff`).
- **Fixed answers** (`FixedAnswers`). When the answers do not depend on when they are asked for, the
  program is `callModels` of `Core.Router` (`callRotation_fixed`).
-/

namespace AutoSRE
namespace Core

open Py Lib

/-! ## The log -/

/-- A gate that was asked, or a physical call that was made. -/
inductive Logged where
  | quota (model : String) (found : Bool)
  | circuit (model : String) (found : Bool)
  | physical (model : String) (attempt : Nat) (e : CallEnd)

/-- What is logged of a call of the program. -/
def logged : (c : RouterCall) × c.Reply → Option Logged
  | ⟨.isModelAtQuota model, found⟩ => some (.quota model found)
  | ⟨.isOpen model, found⟩ => some (.circuit model found)
  | ⟨.acompletion model attempt, e⟩ => some (.physical model attempt e)
  | _ => none

/-- The gates and the physical calls of a run, in order. -/
def logOf (calls : List ((c : RouterCall) × c.Reply)) : List Logged := calls.filterMap logged

section logOf

variable (model : String) (calls : List ((c : RouterCall) × c.Reply))

@[simp] theorem logOf_nil : logOf [] = [] := rfl

@[simp] theorem logOf_quota (found : Bool) :
    logOf (⟨.isModelAtQuota model, found⟩ :: calls) = .quota model found :: logOf calls := rfl

@[simp] theorem logOf_circuit (found : Bool) :
    logOf (⟨.isOpen model, found⟩ :: calls) = .circuit model found :: logOf calls := rfl

@[simp] theorem logOf_physical (attempt : Nat) (e : CallEnd) :
    logOf (⟨.acompletion model attempt, e⟩ :: calls) =
      .physical model attempt e :: logOf calls := rfl

@[simp] theorem logOf_recordFailure (u : Unit) :
    logOf (⟨.recordFailure model, u⟩ :: calls) = logOf calls := rfl

@[simp] theorem logOf_recordSuccess (u : Unit) :
    logOf (⟨.recordSuccess model, u⟩ :: calls) = logOf calls := rfl

@[simp] theorem logOf_incrementModelUsage (u : Unit) :
    logOf (⟨.incrementModelUsage model, u⟩ :: calls) = logOf calls := rfl

@[simp] theorem logOf_random (attempt : Nat) (u : Set.Icc (0 : Rat) 1) :
    logOf (⟨.random model attempt, u⟩ :: calls) = logOf calls := rfl

@[simp] theorem logOf_sleep (seconds : PyFloat) (u : Unit) :
    logOf (⟨.sleep seconds, u⟩ :: calls) = logOf calls := rfl

theorem logOf_append (rest : List ((c : RouterCall) × c.Reply)) :
    logOf (calls ++ rest) = logOf calls ++ logOf rest := List.filterMap_append

end logOf

/-- From `m` to `m'` the run metrics count `k` calls more, all of them within the budget. -/
structure CallsCounted (cfg : DispatchConfig) (k : Nat) (m m' : Option RouterMetrics) : Prop where
  count : m'.map RouterMetrics.llmCallCount = m.map fun m => m.llmCallCount + k
  within : ∀ n, m.map RouterMetrics.llmCallCount = some n → 0 < k →
    n + k ≤ cfg.maxLlmCallsPerIncident

section counted

variable {cfg : DispatchConfig} {k k' : Nat} {m m' m'' : Option RouterMetrics}

theorem CallsCounted.refl (m : Option RouterMetrics) : CallsCounted cfg 0 m m :=
  ⟨rfl, fun _ _ h => absurd h (Nat.lt_irrefl 0)⟩

theorem CallsCounted.trans (h : CallsCounted cfg k m m') (h' : CallsCounted cfg k' m' m'') :
    CallsCounted cfg (k + k') m m'' := by
  cases m with
  | none =>
    have hm' : m' = none := by simpa using h.count
    subst hm'
    exact ⟨h'.count, fun _ h => absurd h (Option.some_ne_none _).symm⟩
  | some x =>
    have hcount : m'.map RouterMetrics.llmCallCount = some (x.llmCallCount + k) := h.count
    cases m' with
    | none => cases hcount
    | some y =>
      simp only [Option.map_some, Option.some.injEq] at hcount
      refine ⟨?_, fun n hn hpos => ?_⟩
      · rw [h'.count]
        simp only [Option.map_some, hcount, Nat.add_assoc]
      · simp only [Option.map_some, Option.some.injEq] at hn
        subst hn
        rcases Nat.eq_zero_or_pos k' with rfl | hk'
        · exact h.within _ rfl (by omega)
        · have hle := h'.within _ rfl hk'
          omega

/-- A physical call that the budget allows, whatever is recorded besides. -/
theorem CallsCounted.one {f : RouterMetrics → RouterMetrics}
    (hf : ∀ x, (f x).llmCallCount = x.llmCallCount + 1) (h : spent cfg m = false) :
    CallsCounted cfg 1 m (m.map f) := by
  cases m with
  | none => exact ⟨rfl, fun _ h => absurd h (Option.some_ne_none _).symm⟩
  | some x =>
    refine ⟨by simp [hf], fun n hn _ => ?_⟩
    simp only [Option.map_some, Option.some.injEq] at hn
    simp only [spent, decide_eq_false_iff_not] at h
    omega

end counted

/-- An error after which the next model is tried. -/
def FastFails (e : ProviderError) : Prop :=
  classifyLlmError e.toLlmError = .quotaExhausted ∨
    classifyLlmError e.toLlmError = .capacityExhausted

/-- An error that is given up on. -/
def Refused (e : ProviderError) : Prop :=
  classifyLlmError e.toLlmError = .authentication ∨
    classifyLlmError e.toLlmError = .validation

/-- A transient error whose `Retry-After` is an integer too large for a float. -/
def CallEnd.Overflows : CallEnd → Prop
  | .response _ _ => False
  | .error e _ => classifyLlmError e.toLlmError = .transient ∧
      ¬ Backoff.HeaderConverts e.toRaisedError

/-- A physical call with a retry left, whose backoff raises. -/
def Logged.Overflows (cfg : DispatchConfig) : Logged → Prop
  | .physical _ attempt e => attempt < cfg.maxRetries ∧ e.Overflows
  | _ => False

/-- The exception that `float` raises for an integer that is too large. -/
def IsOverflow (outcome : Except PyExc (LlmResponse × String)) : Prop :=
  ∃ message, outcome = .error (.overflowError message)

/-- How at most `bound` calls on one model can end, with the run metrics `m'` after them. -/
inductive Attempted (cfg : DispatchConfig) (candidate : String) (m' : Option RouterMetrics) :
    Nat → List CallEnd → CandidateStop → Prop where
  | noBudget {bound : Nat} {message : String} (h : spent cfg m' = true) :
    Attempted cfg candidate m' bound [] (.finished (.error (budgetError message)))
  | returned {bound : Nat} (r : LlmResponse) (latency : PyFloat) :
    Attempted cfg candidate m' (bound + 1) [.response r latency]
      (.finished (.ok (r, candidate)))
  | refused {bound : Nat} {message : String} {e : ProviderError} (latency : PyFloat)
    (h : Refused e) : Attempted cfg candidate m' (bound + 1) [.error e latency]
      (.finished (.error (budgetError message)))
  | rotated {bound : Nat} {e : ProviderError} (latency : PyFloat)
    (h : FastFails e ∨ bound = 0 ∧ classifyLlmError e.toLlmError = .transient) :
    Attempted cfg candidate m' (bound + 1) [.error e latency] (.rotate e)
  | crashed {bound : Nat} {message : String} {e : ProviderError} (latency : PyFloat)
    (h : (CallEnd.error e latency).Overflows) :
    Attempted cfg candidate m' (bound + 2) [.error e latency]
      (.finished (.error (.overflowError message)))
  | retried {bound : Nat} {e : ProviderError} {ends : List CallEnd} {stop : CandidateStop}
    (latency : PyFloat) (h : classifyLlmError e.toLlmError = .transient)
    (hc : Backoff.HeaderConverts e.toRaisedError)
    (hs : Attempted cfg candidate m' bound ends stop) :
    Attempted cfg candidate m' (bound + 1) (.error e latency :: ends) stop

/-- What the loop over the attempts does in any run. -/
theorem attemptLoop_runs {cfg : DispatchConfig} {candidate : String} {left attempt : Nat}
    {m m' : Option RouterMetrics} {calls : List ((c : RouterCall) × c.Reply)}
    {stop : CandidateStop}
    (h : (attemptLoop cfg candidate left attempt m).Runs calls (stop, m')) :
    ∃ ends, logOf calls = (ends.zipIdx attempt).map (fun p => .physical candidate p.2 p.1) ∧
      Attempted cfg candidate m' (left + 1) ends stop ∧ CallsCounted cfg ends.length m m' := by
  induction left using Nat.strongRecOn generalizing attempt m calls with
  | ind left ih =>
  unfold attemptLoop at h
  split at h
  · rename_i hspent
    obtain ⟨rfl, he⟩ := h
    cases he
    exact ⟨[], rfl, .noBudget hspent, .refl _⟩
  rename_i hspent
  have hspent : spent cfg m = false := by simpa using hspent
  obtain ⟨e, rest, rfl, h⟩ := h
  cases e with
  | response r latency =>
    obtain ⟨_, _, rfl, _, _, rfl, rfl, he⟩ := h
    cases he
    exact ⟨[.response r latency], by simp, .returned r latency, .one (fun _ => rfl) hspent⟩
  | error e latency =>
    simp only at h
    split at h
    -- A quota or a capacity error: the next model is tried.
    iterate 2
      rename_i hclass
      obtain ⟨_, _, rfl, _, _, rfl, rfl, he⟩ := h
      cases he
      have hfast : FastFails e := by simp [FastFails, hclass]
      refine ⟨[.error e latency], by simp, .rotated latency (.inl hfast), ?_⟩
      rw [Option.map_map]
      exact .one (fun _ => rfl) hspent
    iterate 2
      rename_i hclass
      obtain ⟨rfl, he⟩ := h
      cases he
      exact ⟨[.error e latency], by simp, .refused latency (by simp [Refused, hclass]),
        .one (fun _ => rfl) hspent⟩
    · rename_i hclass
      obtain ⟨_, rest, rfl, h⟩ := h
      cases left with
      | zero =>
        obtain ⟨_, _, rfl, rfl, he⟩ := h
        cases he
        exact ⟨[.error e latency], by simp, .rotated latency (.inr ⟨rfl, hclass⟩),
          .one (fun _ => rfl) hspent⟩
      | succ left =>
        obtain ⟨u, rest, rfl, h⟩ := h
        cases hbackoff : Backoff.computeBackoff cfg attempt e.toRaisedError u with
        | error exc =>
          simp only [hbackoff] at h
          obtain ⟨rfl, he⟩ := h
          cases he
          obtain ⟨hheader, message, rfl⟩ := Backoff.computeBackoff_error hbackoff
          exact ⟨[.error e latency], by simp, .crashed latency ⟨hclass, hheader⟩,
            .one (fun _ => rfl) hspent⟩
        | ok seconds =>
          simp only [hbackoff] at h
          have hheader := Backoff.computeBackoff_ok hbackoff
          obtain ⟨_, rest, rfl, h⟩ := h
          obtain ⟨ends, hlog, hends, hcount⟩ := ih left (Nat.lt_succ_self left) h
          refine ⟨.error e latency :: ends, ?_, .retried latency hclass hheader hends, ?_⟩
          · simp [hlog]
          · rw [Option.map_map] at hcount
            rw [List.length_cons, Nat.add_comm]
            exact (CallsCounted.one (fun _ => rfl) hspent).trans hcount

/-- The pass over one model: what the gates said, and how the calls on it ended. -/
structure Visit where
  model : String
  atQuota : Bool
  isOpen : Bool
  ends : List CallEnd

namespace Visit

/-- One of the gates is closed; the circuit is not asked when the quota is spent. -/
def skipped (v : Visit) : Bool := v.atQuota || v.isOpen

/-- What is logged of a visit. -/
def log (v : Visit) : List Logged :=
  .quota v.model v.atQuota ::
    (if v.atQuota then [] else [.circuit v.model v.isOpen]) ++
      v.ends.zipIdx.map fun p => .physical v.model p.2 p.1

/-- The physical calls of a visit. -/
def physical (v : Visit) : List (String × CallEnd) := v.ends.map fun e => (v.model, e)

end Visit

/-- The passes over the models `models` that a call can make, and how it ends, with the run metrics
`m'` at its end. -/
inductive Visited (cfg : DispatchConfig) (m' : Option RouterMetrics) :
    List String → List Visit → Except PyExc (LlmResponse × String) → Prop where
  | none {message : String} : Visited cfg m' [] [] (.error (budgetError message))
  | skip {models : List String} (v : Visit) {vs : List Visit}
    {outcome : Except PyExc (LlmResponse × String)} (hv : v.skipped = true) (he : v.ends = [])
    (h : Visited cfg m' models vs outcome) : Visited cfg m' (v.model :: models) (v :: vs) outcome
  | finish {models : List String} (v : Visit) {outcome : Except PyExc (LlmResponse × String)}
    (hv : v.skipped = false)
    (h : Attempted cfg v.model m' (cfg.maxRetries + 1) v.ends (.finished outcome)) :
    Visited cfg m' (v.model :: models) [v] outcome
  | rotate {models : List String} (v : Visit) {vs : List Visit} {e : ProviderError}
    {outcome : Except PyExc (LlmResponse × String)} {m : Option RouterMetrics}
    (hv : v.skipped = false)
    (he : Attempted cfg v.model m (cfg.maxRetries + 1) v.ends (.rotate e))
    (h : Visited cfg m' models vs outcome) : Visited cfg m' (v.model :: models) (v :: vs) outcome

/-- The physical calls of some visits, each with its model. -/
def physicalCalls (vs : List Visit) : List (String × CallEnd) := vs.flatMap Visit.physical

theorem length_physicalCalls_cons (v : Visit) (vs : List Visit) :
    (physicalCalls (v :: vs)).length = v.ends.length + (physicalCalls vs).length := by
  simp [physicalCalls, Visit.physical]

theorem exhausted_eq (last : Option ProviderError) (skipped : List String) :
    ∃ message, exhausted last skipped = budgetError message := by
  unfold exhausted
  split
  · exact ⟨_, rfl⟩
  · split <;> exact ⟨_, rfl⟩

/-- What the loop over the models does in any run. -/
theorem candidateLoop_runs {cfg : DispatchConfig} {models : List String}
    {m m' : Option RouterMetrics} {last : Option ProviderError} {skipped : List String}
    {calls : List ((c : RouterCall) × c.Reply)}
    {outcome : Except PyExc (LlmResponse × String)}
    (h : (candidateLoop cfg models m last skipped).Runs calls (outcome, m')) :
    ∃ visits, logOf calls = visits.flatMap Visit.log ∧ Visited cfg m' models visits outcome ∧
      CallsCounted cfg (physicalCalls visits).length m m' := by
  induction models generalizing m last skipped calls with
  | nil =>
    obtain ⟨rfl, he⟩ := h
    cases he
    obtain ⟨message, hm⟩ := exhausted_eq last skipped
    exact ⟨[], rfl, hm ▸ .none, .refl _⟩
  | cons candidate models ih =>
    obtain ⟨atQuota, rest, rfl, h⟩ := h
    cases atQuota with
    | true =>
      obtain ⟨visits, hlog, hvisited, hcount⟩ := ih h
      refine ⟨⟨candidate, true, false, []⟩ :: visits, ?_, .skip ⟨_, _, _, _⟩ rfl rfl hvisited, ?_⟩
      · simp [hlog, Visit.log]
      · rwa [length_physicalCalls_cons, List.length_nil, Nat.zero_add]
    | false =>
      obtain ⟨isOpen, rest, rfl, h⟩ := h
      cases isOpen with
      | true =>
        obtain ⟨visits, hlog, hvisited, hcount⟩ := ih h
        refine ⟨⟨candidate, false, true, []⟩ :: visits, ?_,
          .skip ⟨_, _, _, _⟩ rfl rfl hvisited, ?_⟩
        · simp [hlog, Visit.log]
        · rwa [length_physicalCalls_cons, List.length_nil, Nat.zero_add]
      | false =>
        obtain ⟨first, rest, ⟨stop, m₁⟩, rfl, hfirst, hrest⟩ := Prog.runs_bind.mp h
        obtain ⟨ends, hlog, hends, hcount⟩ := attemptLoop_runs hfirst
        cases stop with
        | finished o =>
          obtain ⟨rfl, he⟩ := hrest
          cases he
          refine ⟨[⟨candidate, false, false, ends⟩], ?_, .finish ⟨_, _, _, _⟩ rfl hends, ?_⟩
          · simp [hlog, Visit.log]
          · rwa [length_physicalCalls_cons]
        | rotate e =>
          obtain ⟨visits, hlog', hvisited, hcount'⟩ := ih hrest
          refine ⟨⟨candidate, false, false, ends⟩ :: visits, ?_,
            .rotate ⟨_, _, _, _⟩ rfl hends hvisited, ?_⟩
          · simp [hlog, hlog', logOf_append, Visit.log]
          · rw [length_physicalCalls_cons]
            exact hcount.trans hcount'

/-! ## The protocol -/

section attempted

variable {cfg : DispatchConfig} {candidate : String} {m' : Option RouterMetrics} {bound : Nat}
  {ends : List CallEnd} {stop : CandidateStop}

theorem Attempted.length_le (h : Attempted cfg candidate m' bound ends stop) :
    ends.length ≤ bound := by
  induction h with
  | noBudget _ => exact Nat.zero_le _
  | returned | refused | rotated | crashed => exact Nat.succ_le_succ (Nat.zero_le _)
  | retried _ _ _ _ ih => exact Nat.succ_le_succ ih

/-- A model is called again only after a transient error. -/
theorem Attempted.transient (h : Attempted cfg candidate m' bound ends stop) :
    ∀ x ∈ ends.dropLast, ∃ e latency, x = .error e latency ∧
      classifyLlmError e.toLlmError = .transient := by
  induction h with
  | noBudget _ | returned | refused | rotated | crashed =>
    exact fun _ h => absurd h List.not_mem_nil
  | @retried _ e ends _ latency htransient _ _ ih =>
    intro x hx
    cases ends with
    | nil => cases hx
    | cons y ends =>
      rw [List.dropLast_cons_of_ne_nil (List.cons_ne_nil y ends)] at hx
      rcases List.mem_cons.mp hx with rfl | hx
      · exact ⟨e, latency, rfl, htransient⟩
      · exact ih x hx

theorem not_refused_of_transient {e : ProviderError}
    (h : classifyLlmError e.toLlmError = .transient) : ¬ Refused e := by
  simp [Refused, h]

theorem not_transient_of_fastFails {e : ProviderError} (h : FastFails e) :
    classifyLlmError e.toLlmError ≠ .transient := by
  rcases h with h | h <;> simp [h]

theorem not_refused_of_fastFails {e : ProviderError} (h : FastFails e) : ¬ Refused e := by
  rcases h with h | h <;> simp [Refused, h]

/-- The next model is tried after errors that are not given up on. -/
theorem Attempted.rotate {e : ProviderError}
    (h : Attempted cfg candidate m' bound ends (.rotate e)) :
    ∀ x ∈ ends, ∃ e latency, x = .error e latency ∧ ¬ Refused e := by
  generalize hs : CandidateStop.rotate e = stop at h
  induction h with
  | noBudget _ | returned | refused | crashed => cases hs
  | @rotated _ e latency hstop =>
    intro x hx
    refine ⟨e, latency, List.mem_singleton.mp hx, ?_⟩
    rcases hstop with hfast | ⟨-, htransient⟩
    · exact not_refused_of_fastFails hfast
    · exact not_refused_of_transient htransient
  | @retried _ e ends _ latency htransient _ _ ih =>
    intro x hx
    rcases List.mem_cons.mp hx with rfl | hx
    · exact ⟨e, latency, rfl, not_refused_of_transient htransient⟩
    · exact ih hs x hx

/-- A response is the last of the calls on the model that gave it. -/
theorem Attempted.ok {r : LlmResponse} {name : String}
    (h : Attempted cfg candidate m' bound ends (.finished (.ok (r, name)))) :
    name = candidate ∧ ∃ latency, ends.getLast? = some (.response r latency) := by
  generalize hs : CandidateStop.finished (.ok (r, name)) = stop at h
  induction h with
  | noBudget _ | refused | rotated | crashed => cases hs
  | returned r latency =>
    cases hs
    exact ⟨rfl, latency, rfl⟩
  | retried _ _ _ _ ih =>
    obtain ⟨hname, latency, hlast⟩ := ih hs
    exact ⟨hname, latency, by rw [List.getLast?_cons, hlast]; rfl⟩

/-- Without a call on the model the budget was spent. -/
theorem Attempted.nil (h : Attempted cfg candidate m' bound [] stop) : spent cfg m' = true := by
  cases h with
  | noBudget h => exact h

theorem Attempted.error {exc : PyExc}
    (h : Attempted cfg candidate m' bound ends (.finished (.error exc)))
    (ho : ¬ IsOverflow (.error exc)) :
    (∃ message, exc = budgetError message) ∧
      (spent cfg m' = true ∨ ∃ e latency, ends.getLast? = some (.error e latency) ∧ Refused e) := by
  generalize hs : CandidateStop.finished (.error exc) = stop at h
  induction h with
  | returned | rotated => cases hs
  | noBudget h =>
    cases hs
    exact ⟨⟨_, rfl⟩, .inl h⟩
  | @refused _ _ e latency h =>
    cases hs
    exact ⟨⟨_, rfl⟩, .inr ⟨e, latency, rfl, h⟩⟩
  | crashed latency h =>
    cases hs
    exact absurd ⟨_, rfl⟩ ho
  | retried _ _ _ _ ih =>
    obtain ⟨hm, hspent | ⟨e, latency, hlast, he⟩⟩ := ih hs
    · exact ⟨hm, .inl hspent⟩
    · exact ⟨hm, .inr ⟨e, latency, by rw [List.getLast?_cons, hlast]; rfl, he⟩⟩

/-- The attempts end with an overflow exactly when the backoff of one with a retry left raises. -/
theorem Attempted.overflows (h : Attempted cfg candidate m' bound ends stop) {attempt : Nat}
    (hbound : attempt + bound = cfg.maxRetries + 1) :
    (∃ p ∈ ends.zipIdx attempt, p.2 < cfg.maxRetries ∧ p.1.Overflows) ↔
      ∃ outcome, stop = .finished outcome ∧ IsOverflow outcome := by
  induction h generalizing attempt with
  | noBudget _ => simp [IsOverflow, budgetError]
  | returned r latency => simp [IsOverflow, CallEnd.Overflows]
  | @refused _ _ e latency h =>
    have hrefused : ¬ (CallEnd.error e latency).Overflows :=
      fun ho => not_refused_of_transient ho.1 h
    simp [IsOverflow, budgetError, hrefused]
  | @rotated _ e latency h =>
    have hlast : ¬ (attempt < cfg.maxRetries ∧ (CallEnd.error e latency).Overflows) := by
      rintro ⟨hlt, ho⟩
      rcases h with hfast | ⟨rfl, -⟩
      · exact not_transient_of_fastFails hfast ho.1
      · omega
    simpa using hlast
  | crashed latency h =>
    simp only [List.zipIdx_singleton, List.mem_singleton, exists_eq_left, h, and_true]
    exact iff_of_true (by omega) ⟨_, rfl, _, rfl⟩
  | @retried _ e ends _ latency _ hheader _ ih =>
    have hfirst : ¬ (CallEnd.error e latency).Overflows := fun ho => ho.2 hheader
    simp only [List.zipIdx_cons, List.exists_mem_cons_iff, hfirst, and_false, false_or]
    exact ih (by omega)

end attempted

/-- What holds of `_call` for the rotation `models`, however it ends: of its visits, its outcome,
and the run metrics before and after it. -/
structure Dispatch (cfg : DispatchConfig) (models : List String) (m m' : Option RouterMetrics)
    (visits : List Visit) (outcome : Except PyExc (LlmResponse × String)) : Prop where
  /-- The models are those of the rotation, in its order. -/
  order : visits.map Visit.model <+: models
  nodup : (visits.map Visit.model).Nodup
  /-- A model is skipped exactly when one of its gates is closed. -/
  skips : ∀ v ∈ visits, v.skipped = true → v.ends = []
  tries : ∀ v ∈ visits, v.skipped = false → v.ends ≠ [] ∨ spent cfg m' = true
  attempts : ∀ v ∈ visits, v.ends.length ≤ cfg.maxRetries + 1
  /-- A quota or capacity error is the last of the calls on a model. -/
  fastFail : ∀ v ∈ visits, ∀ e latency rest,
    v.ends = .error e latency :: rest → FastFails e → rest = []
  /-- No call is made after a response, or after an error that is given up on. -/
  earlier : ∀ x ∈ (physicalCalls visits).dropLast, ∃ e latency,
    x.2 = .error e latency ∧ ¬ Refused e
  returned : ∀ r name, outcome = .ok (r, name) →
    ∃ latency, (physicalCalls visits).getLast? = some (name, .response r latency)
  /-- Every physical call is counted, and made within the budget. -/
  counted : CallsCounted cfg (physicalCalls visits).length m m'

/-- The protocol of `_call`. -/
structure Protocol (cfg : DispatchConfig) (models : List String) (m m' : Option RouterMetrics)
    (visits : List Visit) (outcome : Except PyExc (LlmResponse × String)) : Prop
    extends Dispatch cfg models m m' visits outcome where
  /-- No model is left out, unless the call ended before. -/
  complete : visits.map Visit.model = models ∨ (∃ r, outcome = .ok r) ∨ spent cfg m' = true ∨
    ∃ name e latency, (physicalCalls visits).getLast? = some (name, .error e latency) ∧ Refused e
  raised : ∀ exc, outcome = .error exc → ∃ message, exc = budgetError message

section visited

variable {cfg : DispatchConfig} {m' : Option RouterMetrics} {models : List String}
  {vs : List Visit} {outcome : Except PyExc (LlmResponse × String)}

theorem Visited.prefix (h : Visited cfg m' models vs outcome) :
    vs.map Visit.model <+: models := by
  induction h with
  | none => exact List.prefix_rfl
  | skip v _ _ _ ih | rotate v _ _ _ ih => exact List.cons_prefix_cons.mpr ⟨rfl, ih⟩
  | finish v _ _ => exact ⟨_, rfl⟩

/-- What holds of every visit. -/
theorem Visited.forall {P : Visit → Prop} (h : Visited cfg m' models vs outcome)
    (hskip : ∀ v, v.skipped = true → v.ends = [] → P v)
    (hcalls : ∀ v m stop, v.skipped = false →
      Attempted cfg v.model m (cfg.maxRetries + 1) v.ends stop →
      (m = m' ∨ ∃ e, stop = .rotate e) → P v) : ∀ v ∈ vs, P v := by
  induction h with
  | none => exact fun _ h => absurd h List.not_mem_nil
  | skip v hv he _ ih => exact List.forall_mem_cons.mpr ⟨hskip v hv he, ih⟩
  | finish v hv h =>
    exact List.forall_mem_cons.mpr
      ⟨hcalls v _ _ hv h (.inl rfl), fun _ h => absurd h List.not_mem_nil⟩
  | rotate v hv he _ ih =>
    exact List.forall_mem_cons.mpr ⟨hcalls v _ _ hv he (.inr ⟨_, rfl⟩), ih⟩

theorem Attempted.ne_nil_of_rotate {candidate : String} {bound : Nat} {ends : List CallEnd}
    {e : ProviderError} (h : Attempted cfg candidate m' bound ends (.rotate e)) : ends ≠ [] := by
  cases h <;> exact List.cons_ne_nil _ _

theorem Visited.skips (h : Visited cfg m' models vs outcome) :
    ∀ v ∈ vs, v.skipped = true → v.ends = [] := by
  refine h.forall (fun v _ he _ => he) fun v m stop hs _ _ hskip => ?_
  rw [hs] at hskip
  cases hskip

/-- A model whose gates are open is called, unless the budget is spent. -/
theorem Visited.tries (h : Visited cfg m' models vs outcome) :
    ∀ v ∈ vs, v.skipped = false → v.ends ≠ [] ∨ spent cfg m' = true := by
  refine h.forall (fun v hs _ hskip => ?_) fun v m stop _ ha hstop _ => ?_
  · rw [hs] at hskip
    cases hskip
  · by_cases he : v.ends = []
    · rw [he] at ha
      rcases hstop with rfl | ⟨e, rfl⟩
      · exact .inr ha.nil
      · exact absurd rfl ha.ne_nil_of_rotate
    · exact .inl he

theorem Visited.attempts (h : Visited cfg m' models vs outcome) :
    ∀ v ∈ vs, v.ends.length ≤ cfg.maxRetries + 1 :=
  h.forall (fun _ _ he => he ▸ Nat.zero_le _) fun _ _ _ _ ha _ => ha.length_le

/-- After a quota or capacity error the model is not called again. -/
theorem Visited.fastFail (h : Visited cfg m' models vs outcome) :
    ∀ v ∈ vs, ∀ e latency rest, v.ends = .error e latency :: rest → FastFails e → rest = [] := by
  refine h.forall (fun v _ he e latency rest hends _ => ?_)
    fun v m stop _ ha _ e latency rest hends hfast => ?_
  · rw [he] at hends
    cases hends
  · rw [hends] at ha
    cases rest with
    | nil => rfl
    | cons y rest =>
      obtain ⟨e', latency', he, ht⟩ := ha.transient _ List.mem_cons_self
      cases he
      rcases hfast with hc | hc <;> rw [ht] at hc <;> cases hc

/-- An error is given up on only as the last of all calls. -/
theorem Visited.earlier (h : Visited cfg m' models vs outcome) :
    ∀ x ∈ (physicalCalls vs).dropLast, ∃ e latency, x.2 = .error e latency ∧ ¬ Refused e := by
  induction h with
  | none => exact fun _ h => absurd h List.not_mem_nil
  | @skip models v vs _ _ he _ ih =>
    have hphys : physicalCalls (v :: vs) = physicalCalls vs := by
      simp [physicalCalls, Visit.physical, he]
    rwa [hphys]
  | finish v _ hs =>
    intro x hx
    have hphys : (physicalCalls [v]).dropLast = v.ends.dropLast.map fun e => (v.model, e) := by
      simp [physicalCalls, Visit.physical, List.map_dropLast]
    rw [hphys] at hx
    obtain ⟨y, hy, rfl⟩ := List.mem_map.mp hx
    obtain ⟨e, latency, rfl, ht⟩ := hs.transient y hy
    exact ⟨e, latency, rfl, not_refused_of_transient ht⟩
  | @rotate models v vs _ _ _ _ he _ ih =>
    intro x hx
    have hmem : x ∈ v.physical ∨ x ∈ (physicalCalls vs).dropLast := by
      have hphys : physicalCalls (v :: vs) = v.physical ++ physicalCalls vs := rfl
      rw [hphys, List.dropLast_append] at hx
      split at hx
      · exact .inl ((List.dropLast_sublist _).subset hx)
      · exact List.mem_append.mp hx
    rcases hmem with hmem | hmem
    · obtain ⟨y, hy, rfl⟩ := List.mem_map.mp hmem
      exact he.rotate y hy
    · exact ih x hmem

theorem getLast?_physicalCalls_cons {x : String × CallEnd} (v : Visit)
    (h : (physicalCalls vs).getLast? = some x) : (physicalCalls (v :: vs)).getLast? = some x := by
  have hphys : physicalCalls (v :: vs) = v.physical ++ physicalCalls vs := rfl
  rw [hphys, List.getLast?_append, h, Option.some_or]

theorem getLast?_physicalCalls_single {v : Visit} {e : CallEnd}
    (h : v.ends.getLast? = some e) : (physicalCalls [v]).getLast? = some (v.model, e) := by
  simp [physicalCalls, Visit.physical, List.getLast?_map, h]

/-- A response is that of the last physical call. -/
theorem Visited.returned (h : Visited cfg m' models vs outcome) {r : LlmResponse} {name : String}
    (ho : outcome = .ok (r, name)) :
    ∃ latency, (physicalCalls vs).getLast? = some (name, .response r latency) := by
  induction h with
  | none => cases ho
  | skip v _ _ _ ih | rotate v _ _ _ ih =>
    obtain ⟨latency, hlast⟩ := ih ho
    exact ⟨latency, getLast?_physicalCalls_cons v hlast⟩
  | finish v _ h =>
    subst ho
    obtain ⟨rfl, latency, hlast⟩ := h.ok
    exact ⟨latency, getLast?_physicalCalls_single hlast⟩

/-- What the last physical call tells about how the call ends, if not with an overflow. -/
theorem Visited.last (h : Visited cfg m' models vs outcome) (ho : ¬ IsOverflow outcome) :
    (∀ exc, outcome = .error exc → ∃ message, exc = budgetError message) ∧
    (vs.map Visit.model = models ∨ (∃ r, outcome = .ok r) ∨ spent cfg m' = true ∨
      ∃ name e latency, (physicalCalls vs).getLast? = some (name, .error e latency) ∧
        Refused e) := by
  induction h with
  | none => exact ⟨fun exc he => ⟨_, (Except.error.inj he).symm⟩, .inl rfl⟩
  | skip v _ _ _ ih | rotate v _ _ _ ih =>
    obtain ⟨herror, hcomplete⟩ := ih ho
    refine ⟨herror, ?_⟩
    obtain hall | hok | hs | ⟨name, e, latency, hlast, he⟩ := hcomplete
    · exact .inl (congrArg (v.model :: ·) hall)
    · exact .inr (.inl hok)
    · exact .inr (.inr (.inl hs))
    · exact .inr (.inr (.inr ⟨name, e, latency, getLast?_physicalCalls_cons v hlast, he⟩))
  | @finish models v outcome _ h =>
    cases outcome with
    | ok r => exact ⟨fun exc he => (by cases he), .inr (.inl ⟨r, rfl⟩)⟩
    | error exc =>
      obtain ⟨hm, hend⟩ := h.error ho
      refine ⟨fun exc' he => Except.error.inj he ▸ hm, .inr (.inr ?_)⟩
      obtain hs | ⟨e, latency, hlast, he⟩ := hend
      · exact .inl hs
      · exact .inr ⟨v.model, e, latency, getLast?_physicalCalls_single hlast, he⟩

theorem Visit.overflows_iff {v : Visit} :
    (∃ x ∈ v.log, x.Overflows cfg) ↔
      ∃ p ∈ v.ends.zipIdx, p.2 < cfg.maxRetries ∧ p.1.Overflows := by
  have hgates : ∀ x ∈ (if v.atQuota then [] else [Logged.circuit v.model v.isOpen]),
      ¬ x.Overflows cfg := by
    split <;> simp [Logged.Overflows]
  constructor
  · rintro ⟨x, hx, ho⟩
    rcases List.mem_cons.mp hx with rfl | hx
    · exact ho.elim
    rcases List.mem_append.mp hx with hx | hx
    · exact absurd ho (hgates x hx)
    obtain ⟨p, hp, rfl⟩ := List.mem_map.mp hx
    exact ⟨p, hp, ho⟩
  · rintro ⟨p, hp, ho⟩
    exact ⟨.physical v.model p.2 p.1, List.mem_cons_of_mem _
      (List.mem_append_right _ (List.mem_map_of_mem hp)), ho⟩

/-- The call ends with an overflow exactly when a backoff of one of its calls raises. -/
theorem Visited.overflows (h : Visited cfg m' models vs outcome) :
    (∃ x ∈ vs.flatMap Visit.log, x.Overflows cfg) ↔ IsOverflow outcome := by
  have hcons : ∀ v vs, (∃ x ∈ (v :: vs).flatMap Visit.log, x.Overflows cfg) ↔
      (∃ x ∈ v.log, x.Overflows cfg) ∨ ∃ x ∈ vs.flatMap Visit.log, x.Overflows cfg := by
    intro v vs
    simp only [List.flatMap_cons, List.mem_append, or_and_right, exists_or]
  induction h with
  | none => simp [IsOverflow, budgetError]
  | skip v _ he _ ih =>
    have hskip : ¬ ∃ x ∈ v.log, x.Overflows cfg := by
      rw [Visit.overflows_iff, he]
      simp
    rw [hcons, or_iff_right hskip]
    exact ih
  | finish v _ h =>
    rw [hcons, Visit.overflows_iff, h.overflows (Nat.zero_add _)]
    simp
  | rotate v _ he _ ih =>
    have hrotate : ¬ ∃ x ∈ v.log, x.Overflows cfg := by
      rw [Visit.overflows_iff, he.overflows (Nat.zero_add _)]
      simp
    rw [hcons, or_iff_right hrotate]
    exact ih

end visited

/-- The models of a rotation are distinct. -/
theorem orderedModels_nodup (seen models : List String) :
    (orderedModels seen models).Nodup ∧ ∀ x ∈ orderedModels seen models, x ∉ seen := by
  induction models generalizing seen with
  | nil => exact ⟨List.nodup_nil, fun _ h => absurd h List.not_mem_nil⟩
  | cons model models ih =>
    unfold orderedModels
    split
    · exact ih seen
    · rename_i hne
      obtain ⟨hnodup, hseen⟩ := ih (model :: seen)
      refine ⟨List.nodup_cons.mpr ⟨fun hm => hseen model hm List.mem_cons_self, hnodup⟩, ?_⟩
      intro x hx
      rcases List.mem_cons.mp hx with rfl | hx
      · exact fun hm => hne (.inr hm)
      · exact fun hm => hseen x hx (List.mem_cons_of_mem model hm)

theorem buildModelRotation_nodup (cfg : RouterConfig) (model : String) :
    (buildModelRotation cfg model).Nodup := by
  unfold buildModelRotation
  exact (orderedModels_nodup [] _).1

/-- The visits of a run of `_call`, and when it ends with an overflow. -/
theorem callRotation_visits {cfg : DispatchConfig} {models : List String} (hmodels : models.Nodup)
    {m : Option RouterMetrics} {calls : List ((c : RouterCall) × c.Reply)}
    {result : Except PyExc (LlmResponse × String) × Option RouterMetrics}
    (h : (callRotation cfg models m).Runs calls result) :
    (∃ visits, logOf calls = visits.flatMap Visit.log ∧
      Dispatch cfg models m result.2 visits result.1 ∧
      (¬ IsOverflow result.1 → Protocol cfg models m result.2 visits result.1)) ∧
    ((∃ x ∈ logOf calls, x.Overflows cfg) ↔ IsOverflow result.1) := by
  obtain ⟨outcome, m'⟩ := result
  have hvisits : ∃ visits, logOf calls = visits.flatMap Visit.log ∧
      Visited cfg m' models visits outcome ∧
      CallsCounted cfg (physicalCalls visits).length m m' := by
    cases models with
    | nil =>
      obtain ⟨rfl, he⟩ := h
      cases he
      exact ⟨[], rfl, .none, .refl _⟩
    | cons candidate models => exact candidateLoop_runs h
  obtain ⟨visits, hlog, hv, hcounted⟩ := hvisits
  have hdispatch : Dispatch cfg models m m' visits outcome :=
    { order := hv.prefix
      nodup := hmodels.sublist hv.prefix.sublist
      skips := hv.skips
      tries := hv.tries
      attempts := hv.attempts
      fastFail := hv.fastFail
      earlier := hv.earlier
      returned := fun r name => hv.returned
      counted := hcounted }
  refine ⟨⟨visits, hlog, hdispatch, fun ho => ?_⟩, hlog ▸ hv.overflows⟩
  obtain ⟨herror, hcomplete⟩ := hv.last ho
  exact { hdispatch with complete := hcomplete, raised := herror }

/-- An overflow is not the exception of the protocol. -/
theorem Protocol.not_isOverflow {cfg : DispatchConfig} {models : List String}
    {m m' : Option RouterMetrics} {visits : List Visit}
    {outcome : Except PyExc (LlmResponse × String)}
    (h : Protocol cfg models m m' visits outcome) : ¬ IsOverflow outcome := by
  rintro ⟨message, rfl⟩
  obtain ⟨message', he⟩ := h.raised _ rfl
  cases he

/-- Every run tries and counts as the protocol says; it keeps to the whole protocol if and only if
no backoff of a call with a retry left raises. -/
theorem callRotation_runs {cfg : DispatchConfig} {models : List String} (hmodels : models.Nodup)
    {m : Option RouterMetrics} {calls : List ((c : RouterCall) × c.Reply)}
    {result : Except PyExc (LlmResponse × String) × Option RouterMetrics}
    (h : (callRotation cfg models m).Runs calls result) :
    (∃ visits, logOf calls = visits.flatMap Visit.log ∧
      Dispatch cfg models m result.2 visits result.1) ∧
    ((∃ visits, logOf calls = visits.flatMap Visit.log ∧
        Protocol cfg models m result.2 visits result.1) ↔
      ∀ x ∈ logOf calls, ¬ x.Overflows cfg) := by
  obtain ⟨⟨visits, hlog, hdispatch, hprotocol⟩, hoverflow⟩ := callRotation_visits hmodels h
  refine ⟨⟨visits, hlog, hdispatch⟩, ?_, fun hno => ⟨visits, hlog, hprotocol ?_⟩⟩
  · rintro ⟨visits', -, hprotocol'⟩ x hx ho
    exact hprotocol'.not_isOverflow (hoverflow.mp ⟨x, hx, ho⟩)
  · intro ho
    obtain ⟨x, hx, hxo⟩ := hoverflow.mpr ho
    exact hno x hx hxo

/-- The protocol in the router, for a rotation without repetitions. -/
theorem callRotation_eval (cfg : DispatchConfig) {models : List String} (hmodels : models.Nodup)
    (m : Option RouterMetrics) (w : RouterWorld) :
    let run := Prog.eval (RouterWorld.perform cfg) (callRotation cfg models m) w
    (∃ visits, logOf run.calls = visits.flatMap Visit.log ∧
      Dispatch cfg models m run.result.2 visits run.result.1) ∧
    ((∃ visits, logOf run.calls = visits.flatMap Visit.log ∧
        Protocol cfg models m run.result.2 visits run.result.1) ↔
      ∀ x ∈ logOf run.calls, ¬ x.Overflows cfg) :=
  callRotation_runs hmodels (Prog.eval_runs (RouterWorld.perform cfg) _ w)

/-- Whatever the configuration, the shared state, the provider and the other requests, `_call` tries
and counts as the protocol says; and it keeps to the whole protocol if and only if no backoff of a
call with a retry left raises. -/
theorem call_protocol_iff (cfg : DispatchConfig) (model : String) (m : Option RouterMetrics)
    (w : RouterWorld) :
    (∃ visits, logOf (routerRun cfg model m w).calls = visits.flatMap Visit.log ∧
      Dispatch cfg (buildModelRotation cfg.toRouterConfig model) m
        (routerRun cfg model m w).result.2 visits (routerRun cfg model m w).result.1) ∧
    ((∃ visits, logOf (routerRun cfg model m w).calls = visits.flatMap Visit.log ∧
        Protocol cfg (buildModelRotation cfg.toRouterConfig model) m
          (routerRun cfg model m w).result.2 visits (routerRun cfg model m w).result.1) ↔
      ∀ x ∈ logOf (routerRun cfg model m w).calls, ¬ x.Overflows cfg) := by
  have hnodup := buildModelRotation_nodup cfg.toRouterConfig model
  unfold routerRun call
  exact callRotation_eval cfg hnodup m w

/-! ### A header that is too large -/

/-- A rate limit whose `Retry-After` is an integer too large for a float. -/
def hugeLimit : ProviderError where
  statusCode := some 429
  headers := some fun name => if name = "retry-after" then .int (10 ^ 400) else .null

/-- A router that is not used yet, whose provider answers with `hugeLimit`. -/
def hugeWorld : RouterWorld where
  state := ⟨[], .zero, []⟩
  choices _ :=
    { others := id, now := .zero, callEnd := .error hugeLimit .zero, random := ⟨0, by norm_num⟩ }

theorem huge_overflow :
    (routerRun Backoff.defaultRouter "fast" none hugeWorld).result.1.map (fun _ => ()) =
      .error (.overflowError "int too large to convert to float") := by decide +kernel

/-- The exception of the header leaves `_call`. -/
theorem huge_retry_after_escapes :
    ¬ ∀ (cfg : DispatchConfig) (model : String) (m : Option RouterMetrics) (w : RouterWorld),
      ∃ visits, logOf (routerRun cfg model m w).calls = visits.flatMap Visit.log ∧
        Protocol cfg (buildModelRotation cfg.toRouterConfig model) m
          (routerRun cfg model m w).result.2 visits (routerRun cfg model m w).result.1 := by
  intro h
  obtain ⟨visits, -, hprotocol⟩ := h Backoff.defaultRouter "fast" none hugeWorld
  have hresult := huge_overflow
  generalize (routerRun Backoff.defaultRouter "fast" none hugeWorld).result = result at *
  obtain ⟨outcome | outcome, m'⟩ := result
  · cases hresult
    exact hprotocol.not_isOverflow ⟨_, rfl⟩
  · cases hresult

/-! ## Fixed answers -/

/-- Answers that do not depend on when they are asked for. -/
structure FixedAnswers where
  atQuota : String → Bool
  circuitOpen : String → Bool
  callEnd : String → Nat → CallEnd
  random : String → Nat → Set.Icc (0 : Rat) 1

namespace FixedAnswers

variable (a : FixedAnswers) (cfg : DispatchConfig)

/-- The reply to a call of the program. -/
def answer (c : RouterCall) (u : Unit) : c.Reply × Unit :=
  match c with
  | .isModelAtQuota model => (a.atQuota model, u)
  | .isOpen model => (a.circuitOpen model, u)
  | .acompletion model attempt => (a.callEnd model attempt, u)
  | .random model attempt => (a.random model attempt, u)
  | .recordFailure _ | .recordSuccess _ | .incrementModelUsage _ | .sleep _ => ((), u)

/-- The sleep after a failed attempt. -/
def backoff (model : String) (attempt : Nat) (e : ProviderError) : Except PyExc PyFloat :=
  (Backoff.computeBackoff cfg attempt e.toRaisedError (a.random model attempt)).map .ofRat

/-- The answers as the environment of `callModels`. -/
def env : RouterEnv where
  atQuota := a.atQuota
  circuitOpen := a.circuitOpen
  attempt model attempt :=
    match a.callEnd model attempt with
    | .response r _ => .response r
    | .error e latency => .error e.toLlmError latency (a.backoff cfg model attempt e)

end FixedAnswers

/-- The names of the models that were called. -/
def calledModels (log : List Logged) : List String :=
  log.filterMap fun
    | .physical model _ _ => some model
    | _ => none

theorem calledModels_quota (model : String) (found : Bool) (log : List Logged) :
    calledModels (.quota model found :: log) = calledModels log := rfl

theorem calledModels_circuit (model : String) (found : Bool) (log : List Logged) :
    calledModels (.circuit model found :: log) = calledModels log := rfl

theorem calledModels_append (log log' : List Logged) :
    calledModels (log ++ log') = calledModels log ++ calledModels log' := List.filterMap_append

/-- A stop of the program and one of `attemptCalls` are the same. -/
inductive SameStop : CandidateStop → CandidateEnd → Prop where
  | returned (r : LlmResponse) (name : String) :
    SameStop (.finished (.ok (r, name))) (.returned { r with modelUsed := name })
  | raised (message : String) : SameStop (.finished (.error (budgetError message))) .raised
  | failed (exc : PyExc) : SameStop (.finished (.error exc)) (.failed exc)
  | rotate (e : ProviderError) : SameStop (.rotate e) .rotate

/-- The program has called the models that `st` adds to `st₀`, and counts as `st` does. -/
structure SameCalls (st₀ st : CallState) (log : List Logged) (m : Option RouterMetrics) :
    Prop where
  calls : st.calls = st₀.calls ++ calledModels log
  count : st.llmCallCount = m.map RouterMetrics.llmCallCount

section fixed

variable {a : FixedAnswers} {cfg : DispatchConfig}

theorem budgetSpent_eq {st : CallState} {m : Option RouterMetrics}
    (h : st.llmCallCount = m.map RouterMetrics.llmCallCount) :
    budgetSpent cfg.toRouterConfig st = spent cfg m := by
  unfold budgetSpent spent
  rw [h]
  cases m <;> rfl

theorem count_acompletion {st : CallState} {m : Option RouterMetrics} (candidate : String)
    {f : RouterMetrics → RouterMetrics} (hf : ∀ x, (f x).llmCallCount = x.llmCallCount + 1)
    (h : st.llmCallCount = m.map RouterMetrics.llmCallCount) :
    (st.acompletion candidate).llmCallCount = (m.map f).map RouterMetrics.llmCallCount := by
  have hcount : (st.acompletion candidate).llmCallCount = st.llmCallCount.map (· + 1) := rfl
  rw [hcount, h]
  cases m with
  | none => rfl
  | some x => simp [hf]

theorem count_recordBackoff {st : CallState} {m : Option RouterMetrics} (seconds : PyFloat)
    (h : st.llmCallCount = m.map RouterMetrics.llmCallCount) :
    (st.recordBackoff seconds).llmCallCount =
      (m.map (·.recordBackoff seconds)).map RouterMetrics.llmCallCount := by
  have hcount : (st.recordBackoff seconds).llmCallCount = st.llmCallCount := rfl
  rw [hcount, h]
  cases m <;> rfl

/-- With fixed answers the loop over the attempts is `attemptCalls`. -/
theorem attemptLoop_fixed (a : FixedAnswers) (cfg : DispatchConfig) (candidate : String)
    {left attempt : Nat} {m : Option RouterMetrics} {st : CallState}
    (hst : st.llmCallCount = m.map RouterMetrics.llmCallCount) :
    SameStop (Prog.eval a.answer (attemptLoop cfg candidate left attempt m) ()).result.1
      (attemptCalls cfg.toRouterConfig (a.env cfg) candidate (left + 1) attempt st).1 ∧
    SameCalls st (attemptCalls cfg.toRouterConfig (a.env cfg) candidate (left + 1) attempt st).2
      (logOf (Prog.eval a.answer (attemptLoop cfg candidate left attempt m) ()).calls)
      (Prog.eval a.answer (attemptLoop cfg candidate left attempt m) ()).result.2 := by
  induction left using Nat.strongRecOn generalizing attempt m st with
  | ind left ih =>
  rw [attemptLoop, attemptCalls, budgetSpent_eq hst]
  by_cases hspent : spent cfg m = true
  · simp only [hspent, if_true, Prog.eval]
    exact ⟨.raised _, ⟨by simp [calledModels], hst⟩⟩
  simp only [hspent, Bool.false_eq_true, if_false, Prog.eval_call, FixedAnswers.answer]
  cases hend : a.callEnd candidate attempt with
  | response r latency =>
    have hattempt : (a.env cfg).attempt candidate attempt = .response r := by
      simp only [FixedAnswers.env, hend]
    rw [hattempt]
    exact ⟨.returned r candidate, ⟨rfl, count_acompletion candidate (fun _ => rfl) hst⟩⟩
  | error e latency =>
    have hattempt : (a.env cfg).attempt candidate attempt =
        .error e.toLlmError latency (a.backoff cfg candidate attempt e) := by
      simp only [FixedAnswers.env, hend]
    simp only [hattempt]
    cases hclass : classifyLlmError e.toLlmError with
    | quotaExhausted | capacityExhausted =>
      exact ⟨.rotate e, ⟨rfl, count_recordBackoff latency
        (count_acompletion candidate (fun _ => rfl) hst)⟩⟩
    | authentication | validation =>
      exact ⟨.raised _, ⟨rfl, count_acompletion candidate (fun _ => rfl) hst⟩⟩
    | transient =>
      cases left with
      | zero => exact ⟨.rotate e, ⟨rfl, count_acompletion candidate (fun _ => rfl) hst⟩⟩
      | succ left =>
        have hcount := count_acompletion candidate
          (f := fun m => m.recordLlmCall.recordLlmFailure latency) (fun _ => rfl) hst
        cases hbackoff : Backoff.computeBackoff cfg attempt e.toRaisedError
            (a.random candidate attempt) with
        | error exc =>
          simp only [hbackoff, Prog.eval_call, FixedAnswers.answer, if_false,
            Nat.add_one_ne_zero, FixedAnswers.backoff, Except.map]
          exact ⟨.failed exc, ⟨rfl, hcount⟩⟩
        | ok seconds =>
          obtain ⟨hstop, hcalls, hmetrics⟩ :=
            ih left (Nat.lt_succ_self left) (count_recordBackoff (.ofRat seconds) hcount)
          simp only [hbackoff, Prog.eval_call, FixedAnswers.answer, if_false,
            Nat.add_one_ne_zero, FixedAnswers.backoff, Except.map]
          exact ⟨hstop, ⟨hcalls.trans (List.append_assoc st.calls [candidate] _), hmetrics⟩⟩

/-- An outcome of the program and one of `callModels` are the same. -/
inductive SameOutcome : Except PyExc (LlmResponse × String) → LlmOutcome → Prop where
  | response (r : LlmResponse) (name : String) :
    SameOutcome (.ok (r, name)) (.response { r with modelUsed := name })
  | budgetExhausted (message : String) :
    SameOutcome (.error (budgetError message)) .budgetExhausted
  | failed (exc : PyExc) : SameOutcome (.error exc) (.failed exc)

/-- With fixed answers the loop over the models is `callModels`. -/
theorem candidateLoop_fixed {models : List String} {m : Option RouterMetrics} {st : CallState}
    {last : Option ProviderError} {skipped : List String}
    (hst : st.llmCallCount = m.map RouterMetrics.llmCallCount) :
    SameOutcome (Prog.eval a.answer (candidateLoop cfg models m last skipped) ()).result.1
      (callModels cfg.toRouterConfig (a.env cfg) models st).1 ∧
    SameCalls st (callModels cfg.toRouterConfig (a.env cfg) models st).2
      (logOf (Prog.eval a.answer (candidateLoop cfg models m last skipped) ()).calls)
      (Prog.eval a.answer (candidateLoop cfg models m last skipped) ()).result.2 := by
  induction models generalizing m st last skipped with
  | nil =>
    obtain ⟨message, hm⟩ := exhausted_eq last skipped
    rw [candidateLoop, callModels, hm]
    exact ⟨.budgetExhausted message, ⟨(List.append_nil _).symm, hst⟩⟩
  | cons candidate models ih =>
    rw [candidateLoop, callModels, Prog.eval_call]
    cases hquota : a.atQuota candidate with
    | true =>
      have hskip : skips (a.env cfg) candidate = true := by
        simp only [skips, FixedAnswers.env, hquota, Bool.true_or]
      simp only [FixedAnswers.answer, hquota, hskip, if_true]
      exact ⟨(ih hst).1, ⟨(ih hst).2.calls, (ih hst).2.count⟩⟩
    | false =>
      cases hopen : a.circuitOpen candidate with
      | true =>
        have hskip : skips (a.env cfg) candidate = true := by
          simp only [skips, FixedAnswers.env, hopen, Bool.or_true]
        simp only [FixedAnswers.answer, hquota, hopen, hskip, if_true, Bool.false_eq_true,
          if_false, Prog.eval_call]
        exact ⟨(ih hst).1, ⟨(ih hst).2.calls, (ih hst).2.count⟩⟩
      | false =>
        have hskip : skips (a.env cfg) candidate = false := by
          simp only [skips, FixedAnswers.env, hquota, hopen, Bool.or_false]
        simp only [FixedAnswers.answer, hquota, hopen, hskip, Bool.false_eq_true, if_false,
          Prog.eval_call, Prog.eval_bind]
        obtain ⟨hstop, hcalls, hmetrics⟩ := attemptLoop_fixed a cfg candidate hst
        generalize Prog.eval a.answer (attemptLoop cfg candidate cfg.maxRetries 0 m) () = o at *
        generalize attemptCalls cfg.toRouterConfig (a.env cfg) candidate (cfg.maxRetries + 1) 0 st =
          r at *
        obtain ⟨⟨stop, m₁⟩, u, calls⟩ := o
        obtain ⟨stop', st₁⟩ := r
        cases hstop with
        | returned r name =>
          refine ⟨.response r name, ⟨?_, hmetrics⟩⟩
          simp only [Prog.eval, List.append_nil]
          exact hcalls
        | raised message =>
          refine ⟨.budgetExhausted message, ⟨?_, hmetrics⟩⟩
          simp only [Prog.eval, List.append_nil]
          exact hcalls
        | failed exc =>
          refine ⟨.failed exc, ⟨?_, hmetrics⟩⟩
          simp only [Prog.eval, List.append_nil]
          exact hcalls
        | rotate e =>
          refine ⟨(ih hmetrics).1, ⟨?_, (ih hmetrics).2.count⟩⟩
          simp only [logOf_quota, logOf_circuit, logOf_append, calledModels_quota,
            calledModels_circuit, calledModels_append]
          rw [← List.append_assoc, ← hcalls]
          exact (ih hmetrics).2.calls

/-- With fixed answers `_call` is `callModels`: the same outcome, the same calls, the same count. -/
theorem callRotation_fixed (a : FixedAnswers) (cfg : DispatchConfig) (models : List String)
    {m : Option RouterMetrics} {st : CallState}
    (hst : st.llmCallCount = m.map RouterMetrics.llmCallCount) :
    SameOutcome (Prog.eval a.answer (callRotation cfg models m) ()).result.1
      (callModels cfg.toRouterConfig (a.env cfg) models st).1 ∧
    SameCalls st (callModels cfg.toRouterConfig (a.env cfg) models st).2
      (logOf (Prog.eval a.answer (callRotation cfg models m) ()).calls)
      (Prog.eval a.answer (callRotation cfg models m) ()).result.2 := by
  cases models with
  | nil => exact ⟨.budgetExhausted _, ⟨(List.append_nil _).symm, hst⟩⟩
  | cons candidate models => exact candidateLoop_fixed hst

end fixed

end Core
end AutoSRE

import AutoSRE.Core.Backoff
import AutoSRE.Lib.Prog

/-!
# The calls of the router (`core/router.py`)

`Core.Router` has the calls of one request as a function of fixed answers. Here `_call` is the
program of what it asks and does, one await or access to shared state after the other.

- **The program** (`call`). Its replies are the gates, how each physical call ends, and the random
  numbers; the run metrics belong to the request alone.
- **Backoffs** (`Backoff.computeBackoff`). One that raises ends the request with its exception.
- **The shared state** (`RouterState`). The daily quotas and the circuit breaker. Between two calls
  of the program other requests may change it in any way (`perform`).
-/

namespace AutoSRE
namespace Core

open Py Lib

/-! ## The run metrics -/

/-- The run metrics, with the counters of the router. -/
structure RouterMetrics extends RunMetrics where
  llmCallCount : Nat := 0
  llmConsecutiveFailures : Nat := 0

namespace RouterMetrics

/-- `record_llm_call`. -/
def recordLlmCall (m : RouterMetrics) : RouterMetrics :=
  { m with llmCallCount := m.llmCallCount + 1 }

/-- `record_llm_success` and `record_llm_latency`. -/
def recordLlmSuccess (m : RouterMetrics) (latency : PyFloat) : RouterMetrics :=
  { m with llmConsecutiveFailures := 0, toRunMetrics := m.toRunMetrics.recordLlmLatency latency }

/-- `record_llm_failure` and `record_llm_latency`. -/
def recordLlmFailure (m : RouterMetrics) (latency : PyFloat) : RouterMetrics :=
  { m with llmConsecutiveFailures := m.llmConsecutiveFailures + 1
           toRunMetrics := m.toRunMetrics.recordLlmLatency latency }

/-- `record_backoff`. -/
def recordBackoff (m : RouterMetrics) (seconds : PyFloat) : RouterMetrics :=
  { m with toRunMetrics := m.toRunMetrics.recordBackoff seconds }

end RouterMetrics

/-! ## The program -/

/-- What is read of an exception of the provider. -/
structure ProviderError extends LlmError, Backoff.RaisedError

/-- How a physical call ends, with its latency. -/
inductive CallEnd where
  | response (r : LlmResponse) (latency : PyFloat)
  | error (e : ProviderError) (latency : PyFloat)

/-- What `_call` asks and does. -/
inductive RouterCall where
  | isModelAtQuota (model : String)
  | isOpen (model : String)
  | acompletion (model : String) (attempt : Nat)
  | recordFailure (model : String)
  | recordSuccess (model : String)
  | incrementModelUsage (model : String)
  /-- `random.random()`, for the jitter. -/
  | random (model : String) (attempt : Nat)
  | sleep (seconds : PyFloat)

/-- The replies. -/
abbrev RouterCall.Reply : RouterCall → Type
  | .isModelAtQuota _ | .isOpen _ => Bool
  | .acompletion _ _ => CallEnd
  | .random _ _ => Set.Icc (0 : Rat) 1
  | _ => Unit

/-- A program of the router. -/
abbrev RouterProg := Prog RouterCall.Reply

/-- `LLMBudgetExhaustedError(message)`. -/
def budgetError (message : String) : PyExc := .exception "LLMBudgetExhaustedError" message

/-- `LLMErrorCategory.value`. -/
def LlmErrorCategory.value : LlmErrorCategory → String
  | .quotaExhausted => "quota_exhausted"
  | .capacityExhausted => "capacity_exhausted"
  | .transient => "transient"
  | .authentication => "authentication"
  | .validation => "validation"

section program

variable (cfg : DispatchConfig)

/-- The incident has no physical call left. -/
def spent (metrics : Option RouterMetrics) : Bool :=
  match metrics with
  | some m => decide (cfg.maxLlmCallsPerIncident ≤ m.llmCallCount)
  | none => false

/-- The error of an incident without calls left. -/
def spentError (metrics : Option RouterMetrics) : PyExc :=
  budgetError ("Incident budget exhausted: exceeded LLM call budget (" ++
    toString ((metrics.map RouterMetrics.llmCallCount).getD 0) ++ "/" ++
    toString cfg.maxLlmCallsPerIncident ++ "). quota exhausted across all candidates.")

/-- How the attempts on one model end. -/
inductive CandidateStop where
  | finished (outcome : Except PyExc (LlmResponse × String))
  /-- The next model is tried; the last error is kept. -/
  | rotate (last : ProviderError)

/-- The loop over the attempts on one model; after this one `left` are left. -/
def attemptLoop (candidate : String) (left attempt : Nat) (metrics : Option RouterMetrics) :
    RouterProg (CandidateStop × Option RouterMetrics) :=
  if spent cfg metrics then .ret (.finished (.error (spentError cfg metrics)), metrics)
  else
    .call (.acompletion candidate attempt) fun
    | .response r latency =>
      .call (.recordSuccess candidate) fun _ =>
      .call (.incrementModelUsage candidate) fun _ =>
      .ret (.finished (.ok (r, candidate)),
        metrics.map fun m => m.recordLlmCall.recordLlmSuccess latency)
    | .error e latency =>
      let failed := metrics.map fun m => m.recordLlmCall.recordLlmFailure latency
      match classifyLlmError e.toLlmError with
      | .quotaExhausted | .capacityExhausted =>
        .call (.recordFailure candidate) fun _ =>
        .call (.incrementModelUsage candidate) fun _ =>
        .ret (.rotate e, failed.map (·.recordBackoff latency))
      | .authentication | .validation =>
        .ret (.finished (.error (budgetError ("LLM " ++
          (classifyLlmError e.toLlmError).value ++ " error on " ++ candidate ++ ": " ++ e.text ++
          ". budget exhausted, quota exhausted."))), failed)
      | .transient =>
        .call (.recordFailure candidate) fun _ =>
        match left with
        | 0 => .call (.incrementModelUsage candidate) fun _ => .ret (.rotate e, failed)
        | left + 1 =>
          -- The number is drawn also when the header raises, which then does not use it.
          .call (.random candidate attempt) fun u =>
          match Backoff.computeBackoff cfg attempt e.toRaisedError u with
          | .error exc => .ret (.finished (.error exc), failed)
          | .ok seconds =>
            .call (.sleep (.ofRat seconds)) fun _ =>
            attemptLoop candidate left (attempt + 1) (failed.map (·.recordBackoff (.ofRat seconds)))

/-- The end of a call for which no model is left. -/
def exhausted (last : Option ProviderError) (skipped : List String) : PyExc :=
  match last with
  | some e =>
    budgetError ("All configured LLM models failed: budget exhausted and quota exhausted across " ++
      "all candidates. Last error: " ++ e.text)
  | none =>
    if skipped = [] then
      budgetError
        "No LLM model was available for the request: budget exhausted, quota exhausted"
    else
      budgetError ("All configured LLM models are at their local daily quotas (quota exhausted) " ++
        "or circuit-broken: " ++ ", ".intercalate skipped ++
        ". budget exhausted — no models available.")

/-- The loop over the models. -/
def candidateLoop : List String → Option RouterMetrics → Option ProviderError → List String →
    RouterProg (Except PyExc (LlmResponse × String) × Option RouterMetrics)
  | [], metrics, last, skipped => .ret (.error (exhausted last skipped), metrics)
  | candidate :: models, metrics, last, skipped =>
    .call (.isModelAtQuota candidate) fun atQuota =>
    if atQuota then candidateLoop models metrics last (skipped ++ [candidate])
    else
      .call (.isOpen candidate) fun isOpen =>
      if isOpen then candidateLoop models metrics last (skipped ++ [candidate])
      else
        attemptLoop cfg candidate cfg.maxRetries 0 metrics >>= fun
        | (.finished outcome, metrics) => .ret (outcome, metrics)
        | (.rotate e, metrics) => candidateLoop models metrics (some e) skipped

/-- `_call`, with the rotation of its models. -/
def callRotation (models : List String) (metrics : Option RouterMetrics) :
    RouterProg (Except PyExc (LlmResponse × String) × Option RouterMetrics) :=
  match models with
  | [] => .ret (.error (budgetError
      "No LLM models configured: budget exhausted, quota exhausted"), metrics)
  | models => candidateLoop cfg models metrics none []

/-- `_call`. -/
def call (model : String) (metrics : Option RouterMetrics) :
    RouterProg (Except PyExc (LlmResponse × String) × Option RouterMetrics) :=
  callRotation cfg (buildModelRotation cfg.toRouterConfig model) metrics

end program

/-! ## The shared state -/

/-- A `dict` entry is set. -/
def setEntry {α : Type} (k : String) (a : α) (d : List (String × α)) : List (String × α) :=
  (k, a) :: d.filter fun p => p.1 != k

/-- What the requests share: the daily quotas, and the failures of the circuit breaker. -/
structure RouterState where
  modelUsage : List (String × Nat)
  modelUsageResetTime : PyFloat
  failures : List (String × List PyFloat)

namespace RouterState

variable (cfg : DispatchConfig) (now : PyFloat) (st : RouterState) (model : String)

/-- `_check_and_reset_daily_quotas`. -/
def checkAndResetDailyQuotas : RouterState :=
  if PyFloat.le (.finite 86400) (now.sub st.modelUsageResetTime) then
    { st with modelUsage := [], modelUsageResetTime := now }
  else st

/-- `_is_model_at_quota`. -/
def isModelAtQuota : Bool × RouterState :=
  let st := st.checkAndResetDailyQuotas now
  (decide ((cfg.modelQuotas.lookup model).getD 100 ≤ (st.modelUsage.lookup model).getD 0), st)

/-- `_increment_model_usage`. -/
def incrementModelUsage : RouterState :=
  let st := st.checkAndResetDailyQuotas now
  { st with
    modelUsage := setEntry model ((st.modelUsage.lookup model).getD 0 + 1) st.modelUsage }

/-- `_prune`. -/
def prune : RouterState :=
  match st.failures.lookup model with
  | none => st
  | some times =>
    let kept := times.filter fun t => PyFloat.le (now.sub (.finite cfg.circuitBreakerTimeout)) t
    { st with
      failures :=
        if kept = [] then st.failures.filter fun p => p.1 != model
        else setEntry model kept st.failures }

/-- `circuit_breaker.is_open`. -/
def isOpen : Bool × RouterState :=
  if cfg.circuitBreakerEnabled then
    let st := st.prune cfg now model
    (decide (cfg.circuitBreakerThreshold ≤ ((st.failures.lookup model).getD []).length), st)
  else (false, st)

/-- `circuit_breaker.record_failure`. -/
def recordFailure : RouterState :=
  if cfg.circuitBreakerEnabled then
    { st with
      failures := setEntry model ((st.failures.lookup model).getD [] ++ [now]) st.failures }
  else st

/-- `circuit_breaker.record_success`. -/
def recordSuccess : RouterState :=
  if cfg.circuitBreakerEnabled then
    { st with failures := st.failures.filter fun p => p.1 != model }
  else st

end RouterState

/-- What the environment chooses at a call of the program: what the other requests have done to the
shared state since the last one, the clock, how a physical call ends, and the random number. -/
structure RouterChoice where
  others : RouterState → RouterState
  now : PyFloat
  callEnd : CallEnd
  random : Set.Icc (0 : Rat) 1

/-- The shared state, and the choices to come. -/
structure RouterWorld where
  state : RouterState
  choices : Nat → RouterChoice

namespace RouterWorld

/-- A call has left the shared state `st`. -/
def next (w : RouterWorld) (st : RouterState) : RouterWorld where
  state := st
  choices n := w.choices (n + 1)

/-- A call of the program in the router. -/
def perform (cfg : DispatchConfig) (c : RouterCall) (w : RouterWorld) : c.Reply × RouterWorld :=
  let ch := w.choices 0
  let st := ch.others w.state
  match c with
  | .isModelAtQuota model =>
    let r := st.isModelAtQuota cfg ch.now model
    (r.1, w.next r.2)
  | .isOpen model =>
    let r := st.isOpen cfg ch.now model
    (r.1, w.next r.2)
  | .acompletion _ _ => (ch.callEnd, w.next st)
  | .recordFailure model => ((), w.next (st.recordFailure cfg ch.now model))
  | .recordSuccess model => ((), w.next (st.recordSuccess cfg model))
  | .incrementModelUsage model => ((), w.next (st.incrementModelUsage ch.now model))
  | .random _ _ => (ch.random, w.next st)
  | .sleep _ => ((), w.next st)

end RouterWorld

/-- `_call` in the router. -/
def routerRun (cfg : DispatchConfig) (model : String) (m : Option RouterMetrics)
    (w : RouterWorld) : Prog.Outcome RouterCall.Reply RouterWorld
      (Except PyExc (LlmResponse × String) × Option RouterMetrics) :=
  Prog.eval (RouterWorld.perform cfg) (call cfg model m) w

end Core
end AutoSRE

import AutoSRE.Core.Graph

/-!
# The router of the language model (`core/router.py`)

- **Errors** (`LlmErrorCategory`, `classifyLlmError`). What decides whether a failed call is
  retried, goes to the next model, or is given up.
- **Models** (`buildModelRotation`). The resolved primary model and the fallback models.
- **Calls** (`callModels`, which is `_call`). The physical calls of one request, up to the budget of
  the incident when the request has run metrics. How a call ends, and what the daily quotas and the
  circuit breaker say (other incidents share them), is a choice of the environment (`RouterEnv`).
- **Bounds** (`Within`). A request with run metrics counts its physical calls and keeps within the
  budget; any request makes at most `max_retries + 1` of them on each model that is not skipped.
-/

namespace AutoSRE
namespace Core

open Py

/-! ## Errors -/

/-- `LLMErrorCategory`. -/
inductive LlmErrorCategory where
  | quotaExhausted
  | capacityExhausted
  | transient
  | authentication
  | validation
  deriving DecidableEq, Repr

/-- What the classification reads of an error: its status code, and whether its text matches one of
the configured patterns. -/
structure LlmError where
  statusCode : Option Int := none
  matchesAuth : Bool := false
  matchesQuota : Bool := false
  matchesCapacity : Bool := false

/-- `classify_llm_error`. -/
def classifyLlmError (e : LlmError) : LlmErrorCategory :=
  if e.statusCode = some 401 then .authentication
  else if e.statusCode = some 403 ∧ e.matchesAuth then .authentication
  else if e.statusCode = some 429 ∧ e.matchesQuota then .quotaExhausted
  else if e.statusCode = some 503 ∧ e.matchesCapacity then .capacityExhausted
  else if e.statusCode = some 400 ∨ e.statusCode = some 404 then .validation
  else .transient

/-! ## Models -/

/-- The configuration of `TokenVelocityRouter`. -/
structure RouterConfig where
  fastModel : String
  slowModel : String
  fallbackModels : List String := []
  maxRetries : Nat := 3
  maxLlmCallsPerIncident : Nat := 15
  fast_ne : fastModel ≠ ""
  slow_ne : slowModel ≠ ""
  budget_pos : 0 < maxLlmCallsPerIncident

/-- `DEFAULT_MODEL_QUOTAS`. -/
def defaultModelQuotas : List (String × Nat) :=
  [("gemini/gemini-3.8-flash", 20), ("gemini/gemini-3.7-flash", 20),
    ("gemini/gemini-3.6-flash", 20), ("gemini/gemini-3.5-flash", 100),
    ("gemini/gemini-3.5-flash-lite", 500), ("gemini/gemini-2.0-flash", 1500),
    ("gemini/gemini-1.5-flash", 1500), ("gemini/gemini-1.5-pro", 50)]

/-- The configuration of `TokenVelocityRouter`, with its quotas, backoffs and circuit breaker. -/
structure DispatchConfig extends RouterConfig where
  modelQuotas : List (String × Nat) := defaultModelQuotas
  initialBackoff : Rat := 1
  maxBackoff : Rat := 30
  absoluteBackoffCap : Rat := 30
  circuitBreakerEnabled : Bool := true
  circuitBreakerThreshold : Nat := 5
  circuitBreakerTimeout : Rat := 60
  /-- `LLMConfig.max_retries`; no backoff of so many attempts overflows. -/
  retries_le : maxRetries ≤ 20

/-- `str.lower`, as far as it decides the equality with an ASCII word: the Kelvin sign is the only
other character whose lower case is an ASCII letter. -/
def lowerWord (s : String) : String :=
  String.ofList (s.toList.map fun c => if c.toNat = 0x212a then 'k' else c.toLower)

/-- `model_map`. -/
def modelMap (cfg : RouterConfig) : List (String × String) :=
  [("coordinator", cfg.fastModel), ("auto", cfg.fastModel), ("fast", cfg.fastModel),
    ("worker", cfg.slowModel), ("slow", cfg.slowModel)]

/-- `_resolve_model`. -/
def resolveModel (cfg : RouterConfig) (model : String) : String :=
  ((modelMap cfg).lookup (lowerWord (strip model))).getD (strip model)

/-- The models that are not empty, each at its first place. -/
def orderedModels (seen : List String) : List String → List String
  | [] => []
  | model :: models =>
    if model = "" ∨ model ∈ seen then orderedModels seen models
    else model :: orderedModels (model :: seen) models

/-- `_get_configured_fallback_models`. -/
def configuredFallbackModels (cfg : RouterConfig) : List String :=
  orderedModels [] (cfg.fallbackModels.map (resolveModel cfg))

/-- `_build_model_rotation`. -/
def buildModelRotation (cfg : RouterConfig) (primaryModel : String) : List String :=
  orderedModels [] (resolveModel cfg primaryModel :: configuredFallbackModels cfg)

/-! ## Calls -/

/-- How a physical call ends. -/
inductive Attempt where
  | response (r : LlmResponse)
  /-- An error, the latency of the call, and what `_compute_backoff` gives or raises. -/
  | error (e : LlmError) (latency : PyFloat) (backoff : Except PyExc PyFloat)

/-- What the environment chooses for one request. -/
structure RouterEnv where
  /-- `_is_model_at_quota`. -/
  atQuota : String → Bool := fun _ => false
  /-- `circuit_breaker.is_open`. -/
  circuitOpen : String → Bool := fun _ => false
  /-- The end of a physical call, by its model and the number of the attempt. -/
  attempt : String → Nat → Attempt

/-- The progress of a request: `llm_call_count`, if there are run metrics; the models of the
physical calls; and the recorded backoffs. -/
structure CallState where
  llmCallCount : Option Nat
  calls : List String := []
  backoffs : List PyFloat := []

/-- A physical call is counted and made. -/
def CallState.acompletion (st : CallState) (model : String) : CallState :=
  { st with llmCallCount := st.llmCallCount.map (· + 1), calls := st.calls ++ [model] }

/-- `record_backoff`. -/
def CallState.recordBackoff (st : CallState) (seconds : PyFloat) : CallState :=
  { st with backoffs := st.backoffs ++ [seconds] }

/-- How the attempts on one model end. -/
inductive CandidateEnd where
  | returned (r : LlmResponse)
  /-- `LLMBudgetExhaustedError`. -/
  | raised
  /-- An exception of `_compute_backoff`. -/
  | failed (exc : PyExc)
  /-- The next model is tried. -/
  | rotate

section calls

variable (cfg : RouterConfig) (env : RouterEnv)

/-- The incident has no physical call left. -/
def budgetSpent (st : CallState) : Bool :=
  match st.llmCallCount with
  | some n => decide (cfg.maxLlmCallsPerIncident ≤ n)
  | none => false

/-- The loop over the attempts on one model, `left` of which are left. -/
def attemptCalls (candidate : String) : Nat → Nat → CallState → CandidateEnd × CallState
  | 0, _, st => (.rotate, st)
  | left + 1, attempt, st =>
    if budgetSpent cfg st then (.raised, st)
    else
      let st := st.acompletion candidate
      match env.attempt candidate attempt with
      | .response r => (.returned { r with modelUsed := candidate }, st)
      | .error e latency backoff =>
        match classifyLlmError e with
        | .quotaExhausted | .capacityExhausted => (.rotate, st.recordBackoff latency)
        | .authentication | .validation => (.raised, st)
        | .transient =>
          if left = 0 then (.rotate, st)
          else
            match backoff with
            | .error exc => (.failed exc, st)
            | .ok seconds => attemptCalls candidate left (attempt + 1) (st.recordBackoff seconds)

/-- The model is skipped. -/
def skips (model : String) : Bool := env.atQuota model || env.circuitOpen model

/-- The loop over the models. -/
def callModels : List String → CallState → LlmOutcome × CallState
  | [], st => (.budgetExhausted, st)
  | candidate :: models, st =>
    if skips env candidate then callModels models st
    else
      match attemptCalls cfg env candidate (cfg.maxRetries + 1) 0 st with
      | (.returned r, st) => (.response r, st)
      | (.raised, st) => (.budgetExhausted, st)
      | (.failed exc, st) => (.failed exc, st)
      | (.rotate, st) => callModels models st

/-! ## Bounds -/

/-- From `st` to `st'` at most `bound` physical calls are made; they are counted if there are run
metrics, and then the budget is kept. -/
structure Within (bound : Nat) (st st' : CallState) : Prop where
  made : ∃ models, st'.calls = st.calls ++ models ∧ models.length ≤ bound ∧
    st'.llmCallCount = st.llmCallCount.map (· + models.length)
  budget : ∀ n n', st.llmCallCount = some n → n ≤ cfg.maxLlmCallsPerIncident →
    st'.llmCallCount = some n' → n' ≤ cfg.maxLlmCallsPerIncident

variable {cfg env} {b b' : Nat} {st st₁ st₂ : CallState}

theorem Within.refl (st : CallState) : Within cfg 0 st st := by
  refine ⟨⟨[], by simp, Nat.le_refl 0, by simp⟩, fun n n' hn hle hn' => ?_⟩
  obtain rfl := Option.some.inj (hn.symm.trans hn')
  exact hle

theorem Within.mono (h : Within cfg b st st₁) (hb : b ≤ b') : Within cfg b' st st₁ := by
  obtain ⟨⟨models, hcalls, hlen, hcount⟩, hbudget⟩ := h
  exact ⟨⟨models, hcalls, by omega, hcount⟩, hbudget⟩

theorem Within.trans (h : Within cfg b st st₁) (h' : Within cfg b' st₁ st₂) :
    Within cfg (b + b') st st₂ := by
  obtain ⟨⟨models, hcalls, hlen, hcount⟩, hbudget⟩ := h
  obtain ⟨⟨models', hcalls', hlen', hcount'⟩, hbudget'⟩ := h'
  refine ⟨⟨models ++ models', ?_, ?_, ?_⟩, fun n n' hn hle hn' => ?_⟩
  · rw [hcalls', hcalls, List.append_assoc]
  · rw [List.length_append]
    omega
  · rw [hcount', hcount, Option.map_map, List.length_append]
    congr 1
    funext n
    simp only [Function.comp_apply]
    omega
  · rw [hn, Option.map_some] at hcount
    exact hbudget' _ n' hcount (hbudget n _ hn hle hcount) hn'

theorem Within.recordBackoff (h : Within cfg b st st₁) (seconds : PyFloat) :
    Within cfg b st (st₁.recordBackoff seconds) :=
  ⟨h.made, h.budget⟩

/-- A physical call that the budget allows. -/
theorem within_acompletion (candidate : String) (h : budgetSpent cfg st = false) :
    Within cfg 1 st (st.acompletion candidate) := by
  refine ⟨⟨[candidate], rfl, Nat.le_refl 1, rfl⟩, fun n n' hn _ hn' => ?_⟩
  simp only [budgetSpent, hn, decide_eq_false_iff_not] at h
  simp only [CallState.acompletion, hn, Option.map_some, Option.some.injEq] at hn'
  omega

variable (cfg env) in
theorem attemptCalls_within (candidate : String) (left attempt : Nat) (st : CallState) :
    Within cfg left st (attemptCalls cfg env candidate left attempt st).2 := by
  induction left generalizing attempt st with
  | zero => exact .refl st
  | succ left ih =>
    unfold attemptCalls
    split
    · exact (Within.refl st).mono (Nat.zero_le _)
    · rename_i hb
      have hcall : Within cfg 1 st (st.acompletion candidate) :=
        within_acompletion candidate (by simpa using hb)
      have hone : Within cfg (left + 1) st (st.acompletion candidate) := hcall.mono (by omega)
      simp only
      split
      · exact hone
      · split
        · exact hone.recordBackoff _
        · exact hone.recordBackoff _
        · exact hone
        · exact hone
        · split
          · exact hone
          · split
            · exact hone
            · rw [Nat.add_comm left 1]
              exact (hcall.recordBackoff _).trans (ih _ _)

variable (cfg env) in
/-- The physical calls of a request. -/
theorem callModels_within (models : List String) (st : CallState) :
    Within cfg (models.countP (fun m => !skips env m) * (cfg.maxRetries + 1)) st
      (callModels cfg env models st).2 := by
  induction models generalizing st with
  | nil => exact (Within.refl st).mono (Nat.zero_le _)
  | cons candidate models ih =>
    unfold callModels
    split
    · rename_i hs
      simpa [hs] using ih st
    · rename_i hs
      have hone := attemptCalls_within cfg env candidate (cfg.maxRetries + 1) 0 st
      have hcount : (candidate :: models).countP (fun m => !skips env m) * (cfg.maxRetries + 1) =
          (cfg.maxRetries + 1) + models.countP (fun m => !skips env m) * (cfg.maxRetries + 1) := by
        rw [List.countP_cons_of_pos (by simpa using hs), Nat.add_mul, Nat.one_mul, Nat.add_comm]
      rw [hcount]
      split
      -- The request ends here, in three ways, or goes on with the other models.
      iterate 3
        rename_i he
        rw [he] at hone
        exact hone.mono (by omega)
      · rename_i he
        rw [he] at hone
        exact hone.trans (ih _)

end calls

end Core
end AutoSRE

import AutoSRE.Core.Exits

/-!
# Token accounting (`_accumulate_usage`)

- **Receipts** (`Receipt`). What a call of the language model costs: the counts that the provider
  reports, else the estimate from the messages, and the model that served it.
- **The books** (`books`). The graph with the receipts of its calls, which the code does not keep.
  `Booked` says that the usage of the state has the totals of the receipts.
- **Nodes** (`runNode_usage`). A node that uses the answer it asks for adds its receipt to the
  usage; a node that does not ask leaves the counts as they are.
- **Runs** (`usage_accounted`). The books are right as long as every answer is used. A node that
  drops an answer counts the estimate in its place (`dropped_answer_unbooked`).
-/

namespace AutoSRE
namespace Core

open Lib Py Safety Tools

/-! ## Receipts -/

/-- The counts of a call, and the model that served it, if it returned a response that names one. -/
structure Receipt where
  prompt : Int
  completion : Int
  model : Option String

/-- The estimate from the number of characters of the messages. -/
def estimateTokens (promptChars : Nat) : Int × Int :=
  let p : Int := Max.max 1 ((promptChars / 4 : Nat) : Int)
  (p, Max.max 1 (p / 10))

/-- The counts that a provider reports; the estimate when it reports none. -/
def LlmUsage.billed (promptChars : Nat) : LlmUsage → Int × Int
  | .counts p c => if p = 0 ∧ c = 0 then estimateTokens promptChars else (p, c)
  | .missing | .malformed _ => estimateTokens promptChars

/-- The receipt of a call. -/
def LlmCall.receipt (call : LlmCall) : Receipt :=
  match call.outcome with
  | .response r =>
    let counts := r.usage.billed call.promptChars
    { prompt := counts.1
      completion := counts.2
      model := if r.trackedModel = "" then none else some r.trackedModel }
  | .budgetExhausted | .failed _ =>
    let counts := estimateTokens call.promptChars
    { prompt := counts.1, completion := counts.2, model := none }

/-- The tokens of a call. -/
def Receipt.tokens (r : Receipt) : Int := r.prompt + r.completion

/-- A total over receipts. -/
def totalOf (f : Receipt → Int) : List Receipt → Int
  | [] => 0
  | r :: rs => f r + totalOf f rs

/-- The receipts of the responses that a model served. -/
def servedBy (m : String) (rs : List Receipt) : List Receipt :=
  rs.filter fun r => r.model == some m

/-- The entry of a model; `none` when the dictionary has none. -/
def usageOf (m : String) : List (String × ModelUsage) → Option ModelUsage
  | [] => none
  | (k, u) :: rest => if k = m then some u else usageOf m rest

/-- The usage that receipts give a model: none when it served no response. -/
def servedUsage (m : String) (rs : List Receipt) : Option ModelUsage :=
  match servedBy m rs with
  | [] => none
  | served => some { calls := served.length, tokens := totalOf Receipt.tokens served }

/-- The usage has the totals of the receipts, and for each model those of the responses that it
served. -/
structure Booked (u : Usage) (rs : List Receipt) : Prop where
  prompt : u.promptTokens = totalOf Receipt.prompt rs
  completion : u.completionTokens = totalOf Receipt.completion rs
  models : ∀ m, usageOf m u.modelUsage = servedUsage m rs

/-- The usage after a receipt. -/
def addReceipt (ctx : GraphContext) (u : Usage) (r : Receipt) : Usage :=
  addUsage ctx u r.prompt r.completion (r.model.getD "")

@[simp] theorem totalOf_append (f : Receipt → Int) (rs ts : List Receipt) :
    totalOf f (rs ++ ts) = totalOf f rs + totalOf f ts := by
  induction rs with
  | nil => simp [totalOf]
  | cons r rs ih =>
    simp only [List.cons_append, totalOf, ih]
    omega

theorem usageOf_trackModel (tokens : Int) (model m : String) (us : List (String × ModelUsage)) :
    usageOf m (trackModel tokens model us) =
      if model = m then
        some ((usageOf m us).elim { calls := 1, tokens }
          fun u => { calls := u.calls + 1, tokens := u.tokens + tokens })
      else usageOf m us := by
  induction us with
  | nil => simp [trackModel, usageOf]
  | cons e us ih =>
    obtain ⟨k, u⟩ := e
    simp only [trackModel]
    by_cases hk : k = model
    · subst hk
      by_cases hm : k = m <;> simp [usageOf, hm]
    · rw [if_neg hk]
      by_cases hm : k = m
      · subst hm
        simp [usageOf, Ne.symm hk]
      · simp [usageOf, hm, ih]

/-- The receipts of a model after one more call. -/
theorem servedUsage_append (m : String) (rs : List Receipt) (r : Receipt) :
    servedUsage m (rs ++ [r]) =
      if r.model = some m then
        some ((servedUsage m rs).elim { calls := 1, tokens := r.tokens }
          fun u => { calls := u.calls + 1, tokens := u.tokens + r.tokens })
      else servedUsage m rs := by
  have happ : servedBy m (rs ++ [r]) =
      servedBy m rs ++ if r.model = some m then [r] else [] := by
    by_cases hr : r.model = some m <;> simp [servedBy, List.filter_append, hr]
  unfold servedUsage
  rw [happ]
  by_cases hr : r.model = some m
  · cases hs : servedBy m rs with
    | nil => simp [hr, totalOf]
    | cons t ts =>
      simp only [hr, if_true, List.cons_append, Option.elim_some, List.length_cons,
        List.length_append, List.length_nil, totalOf, totalOf_append, Option.some.injEq,
        ModelUsage.mk.injEq]
      omega
  · simp [hr]

/-- A receipt that is added to the usage keeps the books right. -/
theorem Booked.add {ctx : GraphContext} {u : Usage} {rs : List Receipt} (h : Booked u rs)
    {r : Receipt} (hm : r.model ≠ some "") : Booked (addReceipt ctx u r) (rs ++ [r]) := by
  refine ⟨?_, ?_, fun m => ?_⟩
  · simp [addReceipt, addUsage, totalOf, h.prompt]
  · simp [addReceipt, addUsage, totalOf, h.completion]
  · rw [servedUsage_append, ← h.models m]
    simp only [addReceipt, addUsage]
    cases hr : r.model with
    | none => simp
    | some model =>
      have hne : model ≠ "" := fun he => hm (by rw [hr, he])
      simp only [Option.getD_some, if_neg hne, usageOf_trackModel, Option.some.injEq]
      rfl

theorem receipt_model (call : LlmCall) : call.receipt.model ≠ some "" := by
  unfold LlmCall.receipt
  split
  · simp only
    split
    · simp
    · rename_i hne
      simpa using hne
  · simp
  · simp

/-! ## The books -/

/-- A thread, and the receipts of the calls that its run made. -/
structure Account where
  thread : Thread
  receipts : List Receipt

/-- The receipts of what a step logs. -/
def receiptsOf (env : NodeEnv) (es : List Event) : List Receipt :=
  es.filterMap fun
    | .llmCall .. => some env.llm.receipt
    | _ => none

/-- The environment of a step. -/
def Label.env : Label → NodeEnv
  | .run env => env
  | .resume _ env _ => env

/-- The graph with the receipts of its runs. -/
def books (ctx : GraphContext) : Sys Account Label Event where
  init a := a.thread.Initial ∧ a.receipts = []
  step a label :=
    (stepThread ctx a.thread label).map fun r =>
      ({ thread := r.1, receipts := a.receipts ++ receiptsOf label.env r.2 }, r.2)

/-! ## The condition -/

section condition

variable (ctx : GraphContext)

/-- The node asks the language model. -/
def asks (s : AgentState) : Phase → Bool
  | .triage => !noActionCategory (triageCategory s.incidentMetadata)
  | .investigate => !(readOnlyTools ctx).isEmpty && (toolSchemas (readOnlyTools ctx)).isOk
  | .hypothesize =>
    match topConfidence s.hypotheses with
    | .ok current => !s.hypotheses.isEmpty && !ctx.confidenceFastPath.le current &&
        decide (0 < s.iterationBudget)
    | .error _ => false
  | .propose =>
    match topConfidence s.hypotheses, proposeCategory s.incidentMetadata with
    | .ok _, .ok category => decide (s.actionAttempts < ctx.maxActionAttempts) &&
        !s.hypotheses.isEmpty && !noActionCategory category &&
        (toolSchemas (eligibleTools ctx)).isOk
    | _, _ => false
  | _ => false

/-- The counts of a response can be read. -/
def LlmUsage.countable : LlmUsage → Bool
  | .malformed _ => false
  | _ => true

/-- The hypotheses of an answer can be refined and compared. -/
def refines (s : AgentState) (parsed : PyDict) : Bool :=
  match refine s.hypotheses parsed with
  | .ok hypotheses => (topConfidence hypotheses).isOk
  | .error _ => false

/-- The node uses the response: its content is an answer, its usage can be counted, and the checks
of the `try` block pass. -/
def usesResponse (s : AgentState) (r : LlmResponse) (p : Phase) : Bool :=
  r.usage.countable &&
    match p with
    | .triage => (parseJsonResponse "triage" true r.payload).isOk
    | .investigate => (parseJsonResponse "investigate" false r.payload).isOk
    | .hypothesize =>
      match parseJsonResponse "hypothesize" true r.payload with
      | .ok parsed => refines s parsed
      | .error _ => false
    | .propose =>
      match parseJsonResponse "propose" false r.payload, topConfidence s.hypotheses,
          proposeCategory s.incidentMetadata with
      | .ok parsed, .ok confidence, .ok category =>
        !dropped ctx confidence category (coerceToolName (PyDict.get? parsed "tool_name"))
      | _, _, _ => false
    | _ => true

/-- A node that asks and gets a response uses it. -/
def usesAnswer (s : AgentState) (env : NodeEnv) (p : Phase) : Bool :=
  match env.llm.outcome with
  | .response r => !asks ctx s p || usesResponse ctx s r p
  | _ => true

/-- The responses that the nodes get are used. -/
def AnswersUsed (a : Account) (label : Label) : Prop :=
  ∀ env p, label = .run env → a.thread.next = .node p → usesAnswer ctx a.thread.values env p = true

end condition

/-! ## The usage after an answer -/

section answers

variable {ctx : GraphContext} {env : NodeEnv} {s : AgentState} {p : Phase}

theorem accumulateNoResponse_some (u : Usage) (n : Nat) :
    accumulateNoResponse ctx u (some n) =
      addUsage ctx u (estimateTokens n).1 (estimateTokens n).2 "" := rfl

/-- Without a response the estimate is the receipt. -/
theorem accumulateNoResponse_receipt (u : Usage) (h : ∀ r, env.llm.outcome ≠ .response r) :
    accumulateNoResponse ctx u (some env.llm.promptChars) = addReceipt ctx u env.llm.receipt := by
  rw [accumulateNoResponse_some]
  unfold addReceipt LlmCall.receipt
  cases ho : env.llm.outcome with
  | response r => exact absurd ho (h r)
  | budgetExhausted => rfl
  | failed exc => rfl

/-- A response whose counts can be read adds its receipt. -/
theorem accumulateUsage_receipt (u : Usage) {r : LlmResponse} (ho : env.llm.outcome = .response r)
    (hr : r.usage.countable = true) :
    accumulateUsage ctx u r env.llm.promptChars = .ok (addReceipt ctx u env.llm.receipt) := by
  have hmodel : (if r.trackedModel = "" then none else some r.trackedModel).getD "" =
      r.trackedModel := by
    split
    · rename_i he
      exact he.symm
    · rfl
  have hcounts : countTokens r.usage (some env.llm.promptChars) =
      .ok (r.usage.billed env.llm.promptChars) := by
    cases hu : r.usage with
    | missing => rfl
    | counts p c => rfl
    | malformed exc => simp [hu, LlmUsage.countable] at hr
  simp only [accumulateUsage, hcounts, addReceipt, LlmCall.receipt, ho, hmodel]

theorem accumulateUsage_malformed (ctx : GraphContext) (u : Usage) (n : Nat) {r : LlmResponse}
    (hr : r.usage.countable = false) : ∃ exc, accumulateUsage ctx u r n = .error exc := by
  unfold accumulateUsage
  cases hu : r.usage with
  | missing => simp [hu, LlmUsage.countable] at hr
  | counts p c => simp [hu, LlmUsage.countable] at hr
  | malformed exc => exact ⟨exc, rfl⟩

variable (ctx env s p)

/-- How a `try` block ends: `usage` is what it returns, `left` what a failed block leaves. -/
inductive TryExit {ε α : Type} (usage : α → Usage) (left : ε → Usage) : Except ε α → Prop
  /-- The response is used. -/
  | used (r : LlmResponse) (a : α) : env.llm.outcome = .response r →
      usesResponse ctx s r p = true → usage a = addReceipt ctx s.usage env.llm.receipt →
      TryExit usage left (.ok a)
  /-- There is no response. -/
  | noResponse (e : ε) : (∀ r, env.llm.outcome ≠ .response r) → left e = s.usage →
      TryExit usage left (.error e)
  /-- The response is dropped. -/
  | dropped (r : LlmResponse) (e : ε) : env.llm.outcome = .response r →
      usesResponse ctx s r p = false → (left e).tokensUsed = s.usage.tokensUsed →
      (left e).promptTokens = s.usage.promptTokens →
      (left e).completionTokens = s.usage.completionTokens → TryExit usage left (.error e)

/-- What a node that asks does to the usage: it adds the receipt of the call, or the estimate in
place of the counts of a response that it drops. -/
inductive AnswerCounted (u : Usage) : Prop
  | booked : usesAnswer ctx s env p = true → u = addReceipt ctx s.usage env.llm.receipt →
      AnswerCounted u
  | estimated : usesAnswer ctx s env p = false →
      u.tokensUsed = s.usage.tokensUsed + (estimateTokens env.llm.promptChars).1 +
        (estimateTokens env.llm.promptChars).2 →
      u.promptTokens = s.usage.promptTokens + (estimateTokens env.llm.promptChars).1 →
      u.completionTokens = s.usage.completionTokens + (estimateTokens env.llm.promptChars).2 →
      AnswerCounted u

variable {ctx env s p}

theorem usesAnswer_response {r : LlmResponse} (ha : asks ctx s p = true)
    (ho : env.llm.outcome = .response r) : usesAnswer ctx s env p = usesResponse ctx s r p := by
  simp [usesAnswer, ho, ha]

theorem usesAnswer_noResponse (ho : ∀ r, env.llm.outcome ≠ .response r) :
    usesAnswer ctx s env p = true := by
  unfold usesAnswer
  split
  · rename_i r hr
    exact absurd hr (ho r)
  · rfl

/-- The usage of a `try` block that succeeds. -/
theorem TryExit.ok {ε α : Type} {usage : α → Usage} {left : ε → Usage} {a : α}
    (h : TryExit ctx env s p usage left (.ok a)) (ha : asks ctx s p = true) :
    AnswerCounted ctx env s p (usage a) := by
  cases h with
  | used r _ ho hu he => exact .booked ((usesAnswer_response ha ho).trans hu) he

/-- The usage after the handler of a `try` block that fails. -/
theorem TryExit.error {ε α : Type} {usage : α → Usage} {left : ε → Usage} {e : ε}
    (h : TryExit ctx env s p usage left (.error e)) (ha : asks ctx s p = true) :
    AnswerCounted ctx env s p (accumulateNoResponse ctx (left e) (some env.llm.promptChars)) := by
  cases h with
  | noResponse _ ho hl =>
    exact .booked (usesAnswer_noResponse ho) (by rw [hl, accumulateNoResponse_receipt _ ho])
  | dropped r _ ho hu ht hp hc =>
    refine .estimated ((usesAnswer_response ha ho).trans hu) ?_ ?_ ?_
    · simp [accumulateNoResponse_some, addUsage, ht]
    · simp [accumulateNoResponse_some, addUsage, hp]
    · simp [accumulateNoResponse_some, addUsage, hc]

end answers

/-! ## The `try` blocks -/

@[simp] theorem isOk_ok {ε α : Type} (a : α) : (Except.ok a : Except ε α).isOk = true := rfl

@[simp] theorem isOk_error {ε α : Type} (e : ε) : (Except.error e : Except ε α).isOk = false := rfl

section blocks

variable (ctx : GraphContext) (env : NodeEnv) (s : AgentState)

/-- How the reading of an answer ends. -/
inductive ParsedExit (stage : String) (allowArray : Bool) :
    Except PyExc (LlmResponse × PyDict) → Prop
  | answer (r : LlmResponse) (parsed : PyDict) : env.llm.outcome = .response r →
      parseJsonResponse stage allowArray r.payload = .ok parsed →
      ParsedExit stage allowArray (.ok (r, parsed))
  | unreadable (r : LlmResponse) (e exc : PyExc) : env.llm.outcome = .response r →
      parseJsonResponse stage allowArray r.payload = .error e →
      ParsedExit stage allowArray (.error exc)
  | noResponse (exc : PyExc) : (∀ r, env.llm.outcome ≠ .response r) →
      ParsedExit stage allowArray (.error exc)

theorem parsed_exit (stage : String) (allowArray : Bool) :
    ParsedExit env stage allowArray (env.llm.outcome.parsed stage allowArray) := by
  cases ho : env.llm.outcome with
  | response r =>
    cases hp : parseJsonResponse stage allowArray r.payload with
    | ok parsed => simpa [LlmOutcome.parsed, hp, Except.map] using ParsedExit.answer r parsed ho hp
    | error e => simpa [LlmOutcome.parsed, hp, Except.map] using ParsedExit.unreadable r e e ho hp
  | budgetExhausted => exact .noResponse _ (by simp [ho])
  | failed exc => exact .noResponse _ (by simp [ho])

/-- A block that ends with the accumulation of the usage. -/
theorem accumulated_exit {p : Phase} {α : Type} {usage : α → Usage} {r : LlmResponse}
    {out : Except PyExc α} (ho : env.llm.outcome = .response r)
    (hused : usesResponse ctx s r p = r.usage.countable)
    (hok : ∀ u, accumulateUsage ctx s.usage r env.llm.promptChars = .ok u →
      ∃ a, out = .ok a ∧ usage a = u)
    (herror : ∀ exc, accumulateUsage ctx s.usage r env.llm.promptChars = .error exc →
      out = .error exc) : TryExit ctx env s p usage (fun _ => s.usage) out := by
  cases hc : r.usage.countable with
  | true =>
    obtain ⟨a, rfl, ha⟩ := hok _ (accumulateUsage_receipt s.usage ho hc)
    exact .used r a ho (hused.trans hc) ha
  | false =>
    obtain ⟨exc, he⟩ := accumulateUsage_malformed ctx s.usage env.llm.promptChars hc
    rw [herror exc he]
    exact .dropped r exc ho (hused.trans hc) rfl rfl rfl

theorem triageAnswer_exit :
    TryExit ctx env s .triage Prod.snd (fun _ => s.usage) (triageAnswer ctx env s) := by
  unfold triageAnswer
  have hx := parsed_exit env "triage" true
  generalize env.llm.outcome.parsed "triage" true = out at hx
  cases hx with
  | noResponse exc ho => exact .noResponse exc ho rfl
  | unreadable r e exc ho hp => exact .dropped r exc ho (by simp [usesResponse, hp]) rfl rfl rfl
  | answer r parsed ho hp =>
    apply accumulated_exit ctx env s ho
    · simp [usesResponse, hp]
    · intro u h
      simp only [h]
      exact ⟨_, rfl, rfl⟩
    · intro exc h
      simp only [h]

theorem investigateAnswer_exit :
    TryExit ctx env s .investigate Prod.snd (fun _ => s.usage) (investigateAnswer ctx env s) := by
  unfold investigateAnswer
  have hx := parsed_exit env "investigate" false
  generalize env.llm.outcome.parsed "investigate" false = out at hx
  cases hx with
  | noResponse exc ho => exact .noResponse exc ho rfl
  | unreadable r e exc ho hp => exact .dropped r exc ho (by simp [usesResponse, hp]) rfl rfl rfl
  | answer r parsed ho hp =>
    apply accumulated_exit ctx env s ho
    · simp [usesResponse, hp]
    · intro u h
      simp only [h]
      exact ⟨_, rfl, rfl⟩
    · intro exc h
      simp only [h]

theorem hypothesizeAnswer_exit :
    TryExit ctx env s .hypothesize Refinement.usage (fun _ => s.usage)
      (hypothesizeAnswer ctx env s) := by
  unfold hypothesizeAnswer
  have hx := parsed_exit env "hypothesize" true
  generalize env.llm.outcome.parsed "hypothesize" true = out at hx
  cases hx with
  | noResponse exc ho => exact .noResponse exc ho rfl
  | unreadable r e exc ho hp => exact .dropped r exc ho (by simp [usesResponse, hp]) rfl rfl rfl
  | answer r parsed ho hp =>
    simp only
    cases hr : refine s.hypotheses parsed with
    | error exc => exact .dropped r exc ho (by simp [usesResponse, hp, refines, hr]) rfl rfl rfl
    | ok hypotheses =>
      simp only
      cases ht : topConfidence hypotheses with
      | error exc =>
        exact .dropped r exc ho (by simp [usesResponse, hp, refines, hr, ht]) rfl rfl rfl
      | ok confidence =>
        apply accumulated_exit ctx env s ho
        · simp [usesResponse, hp, refines, hr, ht]
        · intro u h
          simp only [h]
          exact ⟨_, rfl, rfl⟩
        · intro exc h
          simp only [h]

theorem proposeAnswer_exit {confidence : PyFloat} {category : String}
    (ht : topConfidence s.hypotheses = .ok confidence)
    (hcat : proposeCategory s.incidentMetadata = .ok category) :
    TryExit ctx env s .propose Selection.usage id
      (proposeAnswer ctx env s confidence category) := by
  unfold proposeAnswer
  have hx := parsed_exit env "propose" false
  generalize env.llm.outcome.parsed "propose" false = out at hx
  cases hx with
  | noResponse exc ho => exact .noResponse _ ho rfl
  | unreadable r e exc ho hp => exact .dropped r _ ho (by simp [usesResponse, hp]) rfl rfl rfl
  | answer r parsed ho hp =>
    simp only
    cases hc : r.usage.countable with
    | false =>
      obtain ⟨exc, he⟩ := accumulateUsage_malformed ctx s.usage env.llm.promptChars hc
      rw [he]
      exact .dropped r _ ho (by simp [usesResponse, hc]) rfl rfl rfl
    | true =>
      rw [accumulateUsage_receipt s.usage ho hc]
      simp only
      split
      · rename_i hd
        simp only [llmSelection] at hd
        exact .dropped r _ ho (by simp [usesResponse, hp, ht, hcat, hd]) rfl rfl rfl
      · rename_i hd
        simp only [llmSelection, Bool.not_eq_true] at hd
        exact .used r _ ho (by simp [usesResponse, hc, hp, ht, hcat, hd]) rfl

/-! ## The nodes -/

/-- The counts are the same. -/
structure SameCounts (u u' : Usage) : Prop where
  tokensUsed : u'.tokensUsed = u.tokensUsed
  prompt : u'.promptTokens = u.promptTokens
  completion : u'.completionTokens = u.completionTokens
  models : u'.modelUsage = u.modelUsage

/-- What a node does to the usage, and the receipts of what it logs. -/
inductive UsageWay (p : Phase) (run : Node AgentState) : Prop
  | quiet : asks ctx s p = false → receiptsOf env run.log = [] →
      (∀ s', run.out = .ok s' → SameCounts s.usage s'.usage) → UsageWay p run
  | asked : asks ctx s p = true → receiptsOf env run.log = [env.llm.receipt] →
      (∀ s', run.out = .ok s' → AnswerCounted ctx env s p s'.usage) → UsageWay p run

theorem SameCounts.refl (u : Usage) : SameCounts u u := ⟨rfl, rfl, rfl, rfl⟩

/-- Nothing is counted without a response and messages. -/
theorem sameCounts_none (u : Usage) : SameCounts u (accumulateNoResponse ctx u none) :=
  ⟨by simp [accumulateNoResponse, countTokens, addUsage],
    by simp [accumulateNoResponse, countTokens, addUsage],
    by simp [accumulateNoResponse, countTokens, addUsage], rfl⟩

/-- A node that does not ask and returns an update. -/
theorem UsageWay.pure {p : Phase} {s' : AgentState} (ha : asks ctx s p = false)
    (hs : SameCounts s.usage s'.usage) : UsageWay ctx env s p (pure s') :=
  .quiet ha rfl fun _ h => by cases h; exact hs

theorem triageNode_usage : UsageWay ctx env s .triage (triageNode ctx env s) := by
  unfold triageNode logLlmCall
  simp only
  split
  · rename_i hn
    exact .pure ctx env s (by simp [asks, hn]) (sameCounts_none ctx s.usage)
  · rename_i hn
    have ha : asks ctx s .triage = true := by simpa [asks] using hn
    rw [Traced.emit_bind]
    have hx := triageAnswer_exit ctx env s
    generalize triageAnswer ctx env s = out at hx
    cases out with
    | ok r =>
      refine .asked ha rfl fun s' h => ?_
      cases h
      exact hx.ok ha
    | error exc =>
      refine .asked ha (by simp [receiptsOf]) fun s' h => ?_
      simp only at h
      cases h
      exact hx.error ha

theorem selectCalls_usage (ha : asks ctx s .investigate = true) :
    AnswerCounted ctx env s .investigate (selectCalls ctx env s).2 := by
  unfold selectCalls
  have hx := investigateAnswer_exit ctx env s
  generalize investigateAnswer ctx env s = out at hx
  cases out with
  | ok r => exact hx.ok ha
  | error exc => exact hx.error ha

/-- The loop over the tool calls does not call the language model. -/
theorem executeCalls_receipts (metadata : PyDict) (calls : List Json) :
    receiptsOf env (executeCalls ctx env metadata calls).log = [] := by
  have hx := executeCalls_exit ctx env metadata calls
  generalize executeCalls ctx env metadata calls = run at hx
  cases hx <;> rfl

theorem investigateNode_usage : UsageWay ctx env s .investigate (investigateNode ctx env s) := by
  unfold investigateNode logLlmCall
  simp only
  split
  · rename_i he
    exact .pure ctx env s (by simp [asks, he]) (.refl _)
  · rename_i he
    cases hs : toolSchemas (readOnlyTools ctx) with
    | error exc => exact .quiet (by simp [asks, hs]) rfl fun s' h => by cases h
    | ok schemas =>
      have ha : asks ctx s .investigate = true := by simpa [asks, hs] using he
      have hc := selectCalls_usage ctx env s ha
      have hr := executeCalls_receipts ctx env s.incidentMetadata (selectCalls ctx env s).1
      rw [orRaise_ok_bind, Traced.emit_bind]
      generalize executeCalls ctx env s.incidentMetadata (selectCalls ctx env s).1 = run at hr
      cases ho : run.out with
      | error e =>
        rw [Traced.bind_of_error ho]
        exact .asked ha (by simpa [receiptsOf] using hr) fun s' h => by cases h
      | ok results =>
        rw [Traced.bind_of_ok ho]
        cases hev : appendAllEvidence results s.hypotheses with
        | error exc =>
          exact .asked ha (by simpa [receiptsOf] using hr) fun s' h => by cases h
        | ok hypotheses =>
          refine .asked ha (by simpa [receiptsOf] using hr) fun s' h => ?_
          cases h
          exact hc

theorem hypothesizeNode_usage :
    UsageWay ctx env s .hypothesize (hypothesizeNode ctx env s) := by
  unfold hypothesizeNode logLlmCall
  split
  · rename_i he
    refine .pure ctx env s ?_ (sameCounts_none ctx s.usage)
    simp only [asks]
    split <;> simp [he]
  · rename_i he
    cases ht : topConfidence s.hypotheses with
    | error exc => exact .quiet (by simp [asks, ht]) rfl fun s' h => by cases h
    | ok current =>
      rw [orRaise_ok_bind]
      split
      · rename_i hskip
        refine .pure ctx env s ?_ (.refl _)
        simp only [Bool.or_eq_true, decide_eq_true_eq] at hskip
        rcases hskip with hskip | hskip
        · simp [asks, ht, hskip]
        · simp [asks, ht, Int.not_lt.mpr hskip]
      · rename_i hgo
        have ha : asks ctx s .hypothesize = true := by
          simp only [Bool.or_eq_true, decide_eq_true_eq, not_or, Bool.not_eq_true] at hgo
          simp only [asks, ht, hgo.1, Bool.not_false, Bool.and_true, Bool.and_eq_true,
            decide_eq_true_eq]
          exact ⟨by simpa using he, by omega⟩
        rw [Traced.emit_bind]
        have hx := hypothesizeAnswer_exit ctx env s
        generalize hypothesizeAnswer ctx env s = out at hx
        cases out with
        | ok r =>
          refine .asked ha rfl fun s' h => ?_
          cases h
          exact hx.ok ha
        | error exc =>
          refine .asked ha rfl fun s' h => ?_
          cases h
          exact hx.error ha

/-- The usage of a selection, or the usage when there is none. -/
def selectedUsage : Except Usage Selection → Usage
  | .ok sel => sel.usage
  | .error usage => usage

theorem fallbackSelection_usage {metadata : PyDict} {category cause : String}
    {best : Option PyDict} {usage : Usage} {sel : Selection}
    (h : fallbackSelection metadata category cause best usage = some sel) : sel.usage = usage := by
  unfold fallbackSelection at h
  split at h
  · cases h
  · split at h
    · cases h
    · cases h
      rfl

theorem resolveNone_usage {category : String} {best : Option PyDict} {sel sel' : Selection}
    (h : resolveNone s category best sel = some sel') : sel'.usage = sel.usage := by
  unfold resolveNone at h
  split at h
  · exact fallbackSelection_usage h
  · exact fallbackSelection_usage h
  · cases h
    rfl

theorem selectAction_usage {confidence : PyFloat} {category : String} (best : Option PyDict)
    (ht : topConfidence s.hypotheses = .ok confidence)
    (hcat : proposeCategory s.incidentMetadata = .ok category)
    (ha : asks ctx s .propose = true) :
    AnswerCounted ctx env s .propose
      (selectedUsage (selectAction ctx env s confidence category best)) := by
  have hx := proposeAnswer_exit ctx env s ht hcat
  unfold selectAction
  generalize proposeAnswer ctx env s confidence category = out at hx
  -- What is left of a selection that names no tool has its usage.
  have hres : ∀ sel sel' : Selection, resolveNone s category best sel = some sel' →
      AnswerCounted ctx env s .propose sel.usage → AnswerCounted ctx env s .propose sel'.usage := by
    intro sel sel' hr hc
    rwa [resolveNone_usage s hr]
  cases out with
  | ok sel =>
    have hc : AnswerCounted ctx env s .propose sel.usage := hx.ok ha
    simp only
    cases hr : resolveNone s category best sel with
    | none => exact hc
    | some sel' => exact hres sel sel' hr hc
  | error usage =>
    have hc : AnswerCounted ctx env s .propose
        (accumulateNoResponse ctx usage (some env.llm.promptChars)) := hx.error ha
    simp only
    cases hf : fallbackSelection s.incidentMetadata category
        "LLM unavailable or low confidence" best
        (accumulateNoResponse ctx usage (some env.llm.promptChars)) with
    | none => exact hc
    | some sel =>
      have hc' : AnswerCounted ctx env s .propose sel.usage := by rwa [fallbackSelection_usage hf]
      simp only
      cases hr : resolveNone s category best sel with
      | none => exact hc'
      | some sel' => exact hres sel sel' hr hc'

/-- The checks keep the usage of the selection, and log no call of the language model. -/
theorem checkSelection_usage (sel : Selection) (name : String) :
    receiptsOf env (checkSelection ctx s sel name).log = [] ∧
      ∃ s', (checkSelection ctx s sel name).out = .ok s' ∧ s'.usage = sel.usage := by
  unfold checkSelection noProposal
  simp only
  split
  · exact ⟨rfl, _, rfl, rfl⟩
  · split
    · exact ⟨rfl, _, rfl, rfl⟩
    · split
      · exact ⟨rfl, _, rfl, rfl⟩
      · exact ⟨rfl, _, rfl, rfl⟩

theorem proposeNode_usage : UsageWay ctx env s .propose (proposeNode ctx env s) := by
  unfold proposeNode logLlmCall
  -- A node that does not get as far as the call.
  have hquiet : ∀ b : Bool, (∀ confidence category, topConfidence s.hypotheses = .ok confidence →
      proposeCategory s.incidentMetadata = .ok category →
      (decide (s.actionAttempts < ctx.maxActionAttempts) && !s.hypotheses.isEmpty &&
        !noActionCategory category && (toolSchemas (eligibleTools ctx)).isOk) = b) → b = false →
      asks ctx s .propose = false := by
    rintro b hb rfl
    unfold asks
    simp only
    split
    · rename_i ht hcat
      exact hb _ _ ht hcat
    · rfl
  split
  · rename_i hcap
    refine .pure ctx env s (hquiet _ (fun _ _ _ _ => ?_) rfl) (.refl _)
    simp [Int.not_lt.mpr hcap]
  · rename_i hcap
    split
    · rename_i he
      exact .pure ctx env s (hquiet _ (fun _ _ _ _ => by simp [he]) rfl) (.refl _)
    · rename_i he
      cases ht : topConfidence s.hypotheses with
      | error exc =>
        exact .quiet (hquiet _ (fun _ _ h _ => by cases ht.symm.trans h) rfl) rfl
          fun s' h => by cases h
      | ok confidence =>
        rw [orRaise_ok_bind]
        cases hcat : proposeCategory s.incidentMetadata with
        | error exc =>
          exact .quiet (hquiet _ (fun _ _ _ h => by cases hcat.symm.trans h) rfl) rfl
            fun s' h => by cases h
        | ok category =>
          rw [orRaise_ok_bind]
          split
          · rename_i hn
            refine .pure ctx env s (hquiet _ (fun _ _ _ h => ?_) rfl) (sameCounts_none ctx s.usage)
            cases hcat.symm.trans h
            simp [hn]
          · rename_i hn
            cases hs : toolSchemas (eligibleTools ctx) with
            | error exc =>
              exact .quiet (hquiet _ (fun _ _ _ _ => by simp [hs]) rfl) rfl fun s' h => by cases h
            | ok schemas =>
              have ha : asks ctx s .propose = true := by
                simp only [asks, ht, hcat, hs, isOk_ok, Bool.and_true, Bool.and_eq_true,
                  decide_eq_true_eq]
                exact ⟨⟨by omega, by simpa using he⟩, by simpa using hn⟩
              have hc := selectAction_usage ctx env s (topHypothesis s.hypotheses) ht hcat ha
              rw [orRaise_ok_bind, Traced.emit_bind]
              generalize selectAction ctx env s confidence category
                (topHypothesis s.hypotheses) = out at hc
              cases out with
              | error usage => exact .asked ha rfl fun s' h => by cases h; exact hc
              | ok sel =>
                cases hname : sel.toolName with
                | none =>
                  simp only [hname]
                  exact .asked ha rfl fun s' h => by cases h; exact hc
                | some name =>
                  simp only [hname]
                  obtain ⟨hlog, s₁, hout, hu⟩ := checkSelection_usage ctx env s sel name
                  refine .asked ha (by simpa [receiptsOf] using hlog) fun s' h => ?_
                  cases hout.symm.trans h
                  rw [hu]
                  exact hc

/-- A node that asks adds its receipt, or the estimate in its place; any other node leaves the
counts as they are. -/
theorem runNode_usage (resume : Option Json) (metrics : Option RunMetrics) (p : Phase) :
    UsageWay ctx env s p (runNode ctx env resume metrics p s) := by
  have hx := runNode_exit ctx env s resume metrics p
  cases p with
  | triage => exact triageNode_usage ctx env s
  | investigate => exact investigateNode_usage ctx env s
  | hypothesize => exact hypothesizeNode_usage ctx env s
  | propose => exact proposeNode_usage ctx env s
  | approve =>
    simp only [NodeExit] at hx
    generalize runNode ctx env resume metrics .approve s = run at hx
    cases hx with
    | interrupted _ _ _ _ _ _ _ _ => exact .quiet rfl rfl fun s' h => by cases h
    | _ => exact .quiet rfl rfl fun s' h => by cases h; exact .refl _
  | execute =>
    simp only [NodeExit] at hx
    generalize runNode ctx env resume metrics .execute s = run at hx
    have hlog : ∀ (action : ProposedAction) (es : List ExecEvent),
        receiptsOf env (.executorCall action :: es.map .executor) = [] := by
      intro action es
      rw [receiptsOf, List.filterMap_cons, List.filterMap_map]
      exact List.filterMap_eq_nil_iff.mpr fun e _ => rfl
    cases hx with
    | refused _ => exact .quiet rfl rfl fun s' h => by cases h; exact .refl _
    | invalid _ _ _ _ _ _ => exact .quiet rfl rfl fun s' h => by cases h
    | returned _ _ action _ _ _ _ _ _ =>
      exact .quiet rfl (hlog action _) fun s' h => by cases h; exact .refl _
    | raised _ _ action _ _ _ _ _ _ =>
      exact .quiet rfl (hlog action _) fun s' h => by cases h; exact .refl _
  | verify =>
    simp only [NodeExit] at hx
    generalize runNode ctx env resume metrics .verify s = run at hx
    cases hx <;> exact .quiet rfl rfl fun s' h => by cases h; exact .refl _
  | complete =>
    obtain ⟨_, _, _, _, _, he⟩ := completeNode_eq env s metrics
    simp only [NodeExit] at hx
    rw [hx, he]
    exact .quiet rfl rfl fun s' h => by cases h; exact .refl _

end blocks

/-! ## Runs -/

section runs

variable {ctx : GraphContext}

/-- `tokens_used` is the sum of the other two counts. -/
def Balanced (u : Usage) : Prop := u.tokensUsed = u.promptTokens + u.completionTokens

theorem SameCounts.balanced {u u' : Usage} (h : SameCounts u u') (hu : Balanced u) :
    Balanced u' := by
  unfold Balanced at *
  rw [h.tokensUsed, h.prompt, h.completion, hu]

theorem SameCounts.booked {u u' : Usage} {rs : List Receipt} (h : SameCounts u u')
    (hu : Booked u rs) : Booked u' rs :=
  ⟨h.prompt.trans hu.prompt, h.completion.trans hu.completion,
    fun m => by rw [h.models, hu.models]⟩

theorem AnswerCounted.balanced {env : NodeEnv} {s : AgentState} {p : Phase} {u : Usage}
    (h : AnswerCounted ctx env s p u) (hs : Balanced s.usage) : Balanced u := by
  unfold Balanced at *
  cases h with
  | booked _ he =>
    rw [he]
    simp only [addReceipt, addUsage]
    omega
  | estimated _ ht hp hc => omega

/-- What is left of a step of the graph: its node, and what the thread was before. -/
theorem books_step {a a' : Account} {label : Label} {fs : List Event}
    (h : (books ctx).step a label = some (a', fs)) :
    ∃ p resume metrics, (label = .run label.env ∧ a.thread.next = .node p ∨
        p = .approve ∧ a.thread.next = .paused) ∧
      a'.thread = (afterNode p a.thread.values metrics
        (runNode ctx label.env resume metrics p a.thread.values)).1 ∧
      a'.receipts = a.receipts ++ receiptsOf label.env
        (runNode ctx label.env resume metrics p a.thread.values).log := by
  simp only [books, Option.map_eq_some_iff] at h
  obtain ⟨r, hr, he⟩ := h
  cases he
  cases label with
  | run env =>
    simp only [stepThread] at hr
    split at hr
    · rename_i p hp
      cases hr
      exact ⟨p, none, a.thread.metrics, .inl ⟨rfl, hp⟩, rfl, rfl⟩
    · cases hr
  | resume decision env metrics =>
    simp only [stepThread] at hr
    split at hr
    · rename_i hp
      cases hr
      exact ⟨.approve, some decision, metrics, .inr ⟨rfl, hp⟩, rfl, rfl⟩
    · cases hr

/-- Only `approve_node` interrupts a run. -/
theorem interrupted_approve {env : NodeEnv} {s : AgentState} {resume : Option Json}
    {metrics : Option RunMetrics} {p : Phase} {payload : InterruptPayload}
    (h : (runNode ctx env resume metrics p s).out = .error (.interrupted payload)) :
    p = .approve := by
  have hx := runNode_exit ctx env s resume metrics p
  generalize runNode ctx env resume metrics p s = run at hx h
  cases p with
  | approve => rfl
  | triage => cases hx <;> cases h
  | investigate => cases hx <;> cases h
  | hypothesize => cases hx <;> cases h
  | propose => cases hx <;> cases h
  | execute => cases hx <;> cases h
  | verify => cases hx <;> cases h
  | complete =>
    obtain ⟨_, _, _, _, _, he⟩ := completeNode_eq env s metrics
    rw [hx, he] at h
    cases h

/-- A node that returns makes its update; a node that raises or interrupts makes none. -/
theorem afterNode_values (p : Phase) (s : AgentState) (metrics : Option RunMetrics)
    (run : Node AgentState) :
    (∃ s', run.out = .ok s' ∧ (afterNode p s metrics run).1.values = s') ∨
      (afterNode p s metrics run).1.values = s ∧
        ((∃ exc, (afterNode p s metrics run).1.next = .crashed exc) ∨
          ∃ payload, run.out = .error (.interrupted payload)) := by
  unfold afterNode
  cases ho : run.out with
  | ok s' => exact .inl ⟨s', rfl, rfl⟩
  | error e =>
    cases e with
    | raised exc => exact .inr ⟨rfl, .inl ⟨exc, rfl⟩⟩
    | interrupted payload => exact .inr ⟨rfl, .inr ⟨payload, rfl⟩⟩

/-- A step keeps the counts balanced. -/
theorem step_balanced {a a' : Account} {label : Label} {fs : List Event}
    (h : (books ctx).step a label = some (a', fs)) (ha : Balanced a.thread.values.usage) :
    Balanced a'.thread.values.usage := by
  obtain ⟨p, resume, metrics, -, ht, -⟩ := books_step h
  rw [ht]
  rcases afterNode_values p a.thread.values metrics
      (runNode ctx label.env resume metrics p a.thread.values) with ⟨s', ho, hv⟩ | ⟨hv, -⟩
  · rw [hv]
    cases runNode_usage ctx label.env a.thread.values resume metrics p with
    | quiet _ _ hs => exact (hs s' ho).balanced ha
    | asked _ _ hs => exact (hs s' ho).balanced ha
  · rw [hv]
    exact ha

/-- A step that uses the answer it gets keeps the books right, unless an exception escapes. -/
theorem step_booked {a a' : Account} {label : Label} {fs : List Event}
    (h : (books ctx).step a label = some (a', fs)) (hu : AnswersUsed ctx a label)
    (ha : Booked a.thread.values.usage a.receipts)
    (hn : ∀ exc, a'.thread.next ≠ .crashed exc) :
    Booked a'.thread.values.usage a'.receipts := by
  obtain ⟨p, resume, metrics, hp, ht, hr⟩ := books_step h
  rw [ht] at hn
  rw [ht, hr]
  have hway := runNode_usage ctx label.env a.thread.values resume metrics p
  rcases afterNode_values p a.thread.values metrics
      (runNode ctx label.env resume metrics p a.thread.values) with ⟨s', ho, hv⟩ | ⟨hv, hend⟩
  · rw [hv]
    cases hway with
    | quiet _ hlog hs =>
      rw [hlog, List.append_nil]
      exact (hs s' ho).booked ha
    | asked hasks hlog hs =>
      rw [hlog]
      have huse : usesAnswer ctx a.thread.values label.env p = true := by
        rcases hp with ⟨hl, hp⟩ | ⟨rfl, -⟩
        · exact hu label.env p hl hp
        · cases hasks
      cases hs s' ho with
      | booked _ he =>
        rw [he]
        exact ha.add (receipt_model _)
      | estimated hno _ _ _ => cases huse.symm.trans hno
  · rw [hv]
    rcases hend with ⟨exc, hc⟩ | ⟨payload, ho⟩
    · exact absurd hc (hn exc)
    · obtain rfl := interrupted_approve ho
      cases hway with
      | quiet _ hlog _ =>
        rw [hlog, List.append_nil]
        exact ha
      | asked hasks _ _ => cases hasks

/-- A run starts without usage and without receipts. -/
theorem books_init {a : Account} (h : (books ctx).init a) :
    Balanced a.thread.values.usage ∧ Booked a.thread.values.usage a.receipts := by
  obtain ⟨⟨metadata, budget, now, hv, -⟩, hr⟩ := h
  rw [hv, hr]
  exact ⟨rfl, rfl, rfl, fun _ => rfl⟩

theorem run_balanced {n : Nat} {es : List Event} {a : Account}
    (hr : (books ctx).Run Sys.anyStep n es a) : Balanced a.thread.values.usage :=
  hr.stateInv (I := fun a => Balanced a.thread.values.usage) (fun _ hi => (books_init hi).1)
    fun _ _ _ _ ha _ hs => step_balanced hs ha

theorem run_booked {n : Nat} {es : List Event} {a : Account}
    (hr : (books ctx).Run (AnswersUsed ctx) n es a) :
    (∀ exc, a.thread.next ≠ .crashed exc) → Booked a.thread.values.usage a.receipts :=
  hr.stateInv (I := fun a => (∀ exc, a.thread.next ≠ .crashed exc) →
      Booked a.thread.values.usage a.receipts)
    (fun _ hi _ => (books_init hi).2) fun a label a' fs ih hu hs hn => by
      refine step_booked hs hu (ih fun exc hc => ?_) hn
      obtain ⟨p, _, _, hp, -⟩ := books_step hs
      rcases hp with ⟨-, hp⟩ | ⟨-, hp⟩ <;> cases hc.symm.trans hp

/-- An environment in which every response reports 100 and 20 tokens and gives one hypothesis, with
the given confidence. -/
def billedEnv (confidence : PyFloat) : NodeEnv :=
  { sampleEnv .null with
    llm :=
      { outcome := .response
          { modelUsed := "model", model := "model", usage := .counts 100 20
            payload := some (.obj
              [("hypotheses", .arr [.obj [("id", .str "H1"), ("description", .str "full"),
                ("confidence", .float confidence)]]), ("tool_name", .str "none")]) } } }

/-- The sample thread, without receipts. -/
def sampleAccount : Account where
  thread := sampleThread
  receipts := []

theorem sampleAccount_initial : (books (sampleContext flushAllTool)).init sampleAccount :=
  ⟨sampleThread_initial, rfl⟩

/-- The response of a step is used, as a check. -/
def usedCheck (ctx : GraphContext) (a : Account) : Label → Bool
  | .run env =>
    match a.thread.next with
    | .node p => usesAnswer ctx a.thread.values env p
    | _ => true
  | .resume .. => true

theorem answersUsed_of_check (a : Account) (label : Label) (h : usedCheck ctx a label = true) :
    AnswersUsed ctx a label := by
  rintro env p rfl hp
  simpa [usedCheck, hp] using h

end runs

end Core
end AutoSRE

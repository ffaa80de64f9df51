import AutoSRE.Core.Ending

/-!
# Phases and edges

Every node writes the phase that comes next, and the edges of the graph decide again. Most edges
read the phase. The edge of `execute_node` is fixed, and the router of `hypothesize_node` compares
the counters and the confidence with thresholds of its own: a failed execution goes to `verify_node`
although it writes the phase `propose` (`failed_execution_verified`). A step follows the phase
exactly when the confidence, the stagnation and the budget are on the same side of both kinds of
thresholds (`follows_iff`), and so does every run of such steps (`follows_phase`).
-/

namespace AutoSRE
namespace Core

open Lib Py Safety Tools

/-- The node that is executed next is the one that the phase names. -/
def FollowsPhase (t : Thread) : Prop := ∀ p, t.next = .node p → t.values.currentPhase = p

/-- The router of `hypothesize_node` goes on to `propose_node`. -/
def routerProposes (s : AgentState) (confidence : PyFloat) (stagnationCount : Int) : Bool :=
  routeAfterHypothesize { s with lastTopConfidence := confidence, stagnationCount } == .propose

/-- The budget is spent; the router reads a budget of 0 as 3. -/
def BudgetSpent (s : AgentState) : Prop :=
  (if s.iterationBudget = 0 then 3 else s.iterationBudget) ≤ s.iterationCount

/-- The confidence that the router proposes with. -/
def AtLeastHalf (c : PyFloat) : Prop := (PyFloat.finite (mkRat 1 2)).le c = true

theorem routerProposes_iff (s : AgentState) (confidence : PyFloat) (stagnationCount : Int) :
    routerProposes s confidence stagnationCount = true ↔
      BudgetSpent s ∨ 2 ≤ stagnationCount ∨ AtLeastHalf confidence := by
  simp only [routerProposes, routeAfterHypothesize, BudgetSpent, AtLeastHalf, beq_iff_eq]
  generalize (if s.iterationBudget = 0 then (3 : Int) else s.iterationBudget) = budget
  by_cases hb : budget ≤ s.iterationCount
  · simp [hb]
  by_cases hs : 2 ≤ stagnationCount
  · simp [hs]
  by_cases hc : (PyFloat.finite (mkRat 1 2)).le confidence = true <;> simp [hb, hs, hc]

section condition

variable (ctx : GraphContext) (env : NodeEnv) (s : AgentState)

/-- The answer can be used, and `c` is the confidence of the top hypothesis that it leaves. -/
def AnswerConfidence (c : PyFloat) : Prop :=
  ∃ r parsed hypotheses usage, env.llm.outcome.parsed "hypothesize" true = .ok (r, parsed) ∧
    refine s.hypotheses parsed = .ok hypotheses ∧ topConfidence hypotheses = .ok c ∧
    accumulateUsage ctx s.usage r env.llm.promptChars = .ok usage

/-- `hypothesize_node` asks: the confidence that it reads is below the fast path, and the budget is
positive. -/
def AsksModel : Prop :=
  ∃ current, topConfidence s.hypotheses = .ok current ∧
    ctx.confidenceFastPath.le current = false ∧ 0 < s.iterationBudget

/-- The confidence, the stagnation and the budget are above a threshold of the configuration and
above one of the router, or above none of them. -/
def SameSide (c : PyFloat) (stagnation : Int) : Prop :=
  ((ctx.confidenceFastPath.le c = true ∨ ctx.stagnationLimit ≤ stagnation) ∧
      (BudgetSpent s ∨ 2 ≤ stagnation ∨ AtLeastHalf c)) ∨
    (ctx.confidenceFastPath.le c = false ∧ stagnation < ctx.stagnationLimit ∧
      ¬ BudgetSpent s ∧ stagnation < 2 ∧ ¬ AtLeastHalf c)

/-- The thresholds of `hypothesize_node` and of its router give the same. -/
structure HypothesizeAgrees : Prop where
  nonempty : s.hypotheses ≠ []
  /-- Without an answer that can be used, a threshold of the router is met. -/
  kept : ∀ current, topConfidence s.hypotheses = .ok current →
    (ctx.confidenceFastPath.le current = true ∨ s.iterationBudget ≤ 0 ∨
      ∀ c, ¬ AnswerConfidence ctx env s c) →
    BudgetSpent s ∨ 2 ≤ s.stagnationCount ∨ AtLeastHalf current
  /-- An answer that improves the confidence ends the stagnation. -/
  improved : ∀ c, AsksModel ctx s → AnswerConfidence ctx env s c →
    ctx.minConfidenceImprovement.le (c.sub s.lastTopConfidence) = true → SameSide ctx s c 0
  /-- Another one is one more round of it. -/
  stagnant : ∀ c, AsksModel ctx s → AnswerConfidence ctx env s c →
    ctx.minConfidenceImprovement.le (c.sub s.lastTopConfidence) = false →
    SameSide ctx s c (s.stagnationCount + 1)

/-- `execute_node` calls the executor, and the call succeeds. -/
structure ExecuteSucceeds : Prop where
  calls : s.proposedActions ≠ [] ∧ s.actionAttempts < ctx.maxActionAttempts ∧
    ctx.sreContext = true
  succeeds : ∀ p ps action, s.proposedActions = p :: ps → actionOf s p = .ok action →
    ∃ r, (ctx.executor.execute env.handlers none action).out = .ok r ∧ r.executed = true ∧
      r.error = none

/-- The phase that the node writes is where its edge goes. -/
structure PhaseAgrees (t : Thread) (a : Label) : Prop where
  hypothesize : ∀ env, a = .run env → t.next = .node .hypothesize →
    HypothesizeAgrees ctx env t.values
  execute : ∀ env, a = .run env → t.next = .node .execute → ExecuteSucceeds ctx env t.values

end condition

variable {ctx : GraphContext} {env : NodeEnv} {t t' : Thread} {a : Label} {fs : List Event}

/-! ## The nodes whose edges read the phase -/

/-- A node other than the two goes where its phase says. -/
theorem routeAfter_phase {resume : Option Json} {metrics : Option RunMetrics} {p : Phase}
    {s s' : AgentState} (hh : p ≠ .hypothesize) (he : p ≠ .execute)
    (h : (runNode ctx env resume metrics p s).out = .ok s') {q : Phase}
    (hq : routeAfter p s' = .node q) : s'.currentPhase = q := by
  have hx := runNode_exit ctx env s resume metrics p
  generalize runNode ctx env resume metrics p s = run at hx h
  cases p with
  | hypothesize => exact absurd rfl hh
  | execute => exact absurd rfl he
  | triage => cases hx <;> cases h <;> cases hq <;> rfl
  | investigate => cases hx <;> cases h <;> cases hq <;> rfl
  | propose =>
    cases hx with
    | proposed confidence category sel name p _ _ _ _ _ _ _ _ _ =>
      cases h
      simp only [routeAfter, routeAfterApproval] at hq ⊢
      cases hr : p.requiresApproval <;> simp only [hr] at hq ⊢ <;> cases hq <;> rfl
    | _ => cases h <;> cases hq <;> rfl
  | approve => cases hx <;> cases h <;> cases hq <;> rfl
  | verify => cases hx <;> cases h <;> cases hq <;> rfl
  | complete => cases hq

/-! ## The other two nodes -/

theorem routerProposes_eq (s : AgentState) (confidence : PyFloat) (stagnationCount : Int)
    (hypotheses : List PyDict) (phase : Phase) (usage : Usage) :
    routeAfterHypothesize { s with
      hypotheses, currentPhase := phase, lastTopConfidence := confidence, stagnationCount, usage } =
      if routerProposes s confidence stagnationCount then .propose else .investigate := by
  have h : ∀ s' : AgentState, routeAfterHypothesize s' =
      if routeAfterHypothesize s' == .propose then .propose else .investigate := by
    intro s'
    rcases routeAfterHypothesize_cases s' with hr | ⟨hr, -⟩ <;> rw [hr] <;> rfl
  exact h _

/-- The phase is decided by `b` and the edge by `b'`. -/
theorem follows_of_branch {p q : Phase} (hpq : p ≠ q) {b c : Bool}
    (hn : t.next = .node (if c then p else q))
    (hphase : t.values.currentPhase = if b then p else q) : FollowsPhase t ↔ b = c := by
  constructor
  · intro h
    have heq := h _ hn
    rw [hphase] at heq
    cases b <;> cases c <;> first | rfl | exact absurd heq hpq | exact absurd heq hpq.symm
  · rintro rfl r hr
    rw [hn] at hr
    rw [hphase]
    exact Next.node.inj hr

section answer

variable {s : AgentState} {r : Refinement}

/-- A refinement has the confidence of the answer, and counts the rounds without an improvement. -/
theorem hypothesizeAnswer_ok (h : hypothesizeAnswer ctx env s = .ok r) :
    AnswerConfidence ctx env s r.confidence ∧ r.stagnationCount =
      if ctx.minConfidenceImprovement.le (r.confidence.sub s.lastTopConfidence) then 0
      else s.stagnationCount + 1 := by
  unfold hypothesizeAnswer at h
  split at h
  · cases h
  · rename_i response parsed hp
    split at h
    · cases h
    · rename_i hypotheses hr
      split at h
      · cases h
      · rename_i confidence hc
        simp only at h
        split at h
        · cases h
        · rename_i usage hu
          obtain rfl := Except.ok.inj h
          exact ⟨⟨response, parsed, hypotheses, usage, hp, hr, hc, hu⟩, rfl⟩

/-- An answer that can be used gives a refinement. -/
theorem AnswerConfidence.refines {c : PyFloat} (h : AnswerConfidence ctx env s c) :
    ∃ r, hypothesizeAnswer ctx env s = .ok r ∧ r.confidence = c := by
  obtain ⟨response, parsed, hypotheses, usage, hp, hr, hc, hu⟩ := h
  simp only [hypothesizeAnswer, hp, hr, hc, hu]
  exact ⟨_, rfl, rfl⟩

theorem AnswerConfidence.eq {c : PyFloat} (h : AnswerConfidence ctx env s c)
    (hr : hypothesizeAnswer ctx env s = .ok r) : c = r.confidence := by
  obtain ⟨r', hr', rfl⟩ := h.refines
  rw [Except.ok.inj (hr.symm.trans hr')]

theorem not_answerConfidence {exc : PyExc} (h : hypothesizeAnswer ctx env s = .error exc)
    (c : PyFloat) : ¬ AnswerConfidence ctx env s c := by
  intro ha
  obtain ⟨r, hr, -⟩ := ha.refines
  rw [h] at hr
  cases hr

/-- Both decisions on a confidence and a stagnation are the same. -/
theorem sameSide_iff (c : PyFloat) (stagnation : Int) : SameSide ctx s c stagnation ↔
    (ctx.confidenceFastPath.le c || decide (ctx.stagnationLimit ≤ stagnation)) =
      routerProposes s c stagnation := by
  have hconfigured : (ctx.confidenceFastPath.le c || decide (ctx.stagnationLimit ≤ stagnation)) =
      true ↔ ctx.confidenceFastPath.le c = true ∨ ctx.stagnationLimit ≤ stagnation := by simp
  rw [Bool.eq_iff_iff, hconfigured, routerProposes_iff, SameSide, ← Bool.not_eq_true,
    ← Int.not_le, ← Int.not_le]
  grind

/-- When the node asks and the answer can be used, it is the thresholds for the answer that have to
agree. -/
theorem hypothesizeAgrees_iff_of_answer (hne : s.hypotheses ≠ []) (hask : AsksModel ctx s)
    (hr : hypothesizeAnswer ctx env s = .ok r) :
    HypothesizeAgrees ctx env s ↔ SameSide ctx s r.confidence r.stagnationCount := by
  obtain ⟨ha, hstagnation⟩ := hypothesizeAnswer_ok hr
  rw [hstagnation]
  constructor
  · intro hag
    cases hi : ctx.minConfidenceImprovement.le (r.confidence.sub s.lastTopConfidence) with
    | true => exact hag.improved r.confidence hask ha hi
    | false => exact hag.stagnant r.confidence hask ha hi
  · intro hside
    obtain ⟨current, hcur, hlow, hb⟩ := hask
    refine ⟨hne, fun c hc hwhy => ?_, fun c _ hc hi => ?_, fun c _ hc hi => ?_⟩
    · obtain rfl := Except.ok.inj (hcur.symm.trans hc)
      rcases hwhy with hf | hb' | hnone
      · rw [hlow] at hf
        cases hf
      · omega
      · exact absurd ha (hnone _)
    · obtain rfl := hc.eq hr
      rwa [hi] at hside
    · obtain rfl := hc.eq hr
      rwa [hi] at hside

/-- When the node keeps its hypotheses, it is the threshold for the confidence that it reads that
has to be met. -/
theorem hypothesizeAgrees_iff_of_kept {current : PyFloat} (hne : s.hypotheses ≠ [])
    (hcur : topConfidence s.hypotheses = .ok current)
    (hwhy : ctx.confidenceFastPath.le current = true ∨ s.iterationBudget ≤ 0 ∨
      ∃ exc, hypothesizeAnswer ctx env s = .error exc) :
    HypothesizeAgrees ctx env s ↔ routerProposes s current s.stagnationCount = true := by
  rw [routerProposes_iff]
  have hno : ∀ c, AsksModel ctx s → ¬ AnswerConfidence ctx env s c := by
    rintro c ⟨current', hcur', hlow, hb⟩
    obtain rfl := Except.ok.inj (hcur.symm.trans hcur')
    rcases hwhy with hf | hb' | ⟨exc, he⟩
    · rw [hlow] at hf
      cases hf
    · omega
    · exact not_answerConfidence he c
  constructor
  · intro hag
    refine hag.kept current hcur (hwhy.imp_right (Or.imp_right ?_))
    rintro ⟨exc, he⟩ c
    exact not_answerConfidence he c
  · intro hthreshold
    refine ⟨hne, fun c hc _ => ?_, fun c hask hc => absurd hc (hno c hask),
      fun c hask hc => absurd hc (hno c hask)⟩
    exact Except.ok.inj (hcur.symm.trans hc) ▸ hthreshold

end answer

/-- `hypothesize_node` goes where its phase says exactly when its router decides the same. -/
theorem hypothesize_follows_iff (hn : t.next = .node .hypothesize)
    (h : (graph ctx).step t (.run env) = some (t', fs)) (hc : ¬ Crashed t') :
    FollowsPhase t' ↔ HypothesizeAgrees ctx env t.values := by
  obtain ⟨env', run, ha, hw, hstep⟩ := step_exit h hn
  obtain rfl := Label.run.inj ha
  obtain ⟨rfl, -⟩ := Prod.mk.inj hstep
  -- The phase is `propose`, with the confidence that was read.
  have hkept : ∀ (current : PyFloat) (usage : Usage), t.values.hypotheses ≠ [] →
      topConfidence t.values.hypotheses = .ok current →
      (ctx.confidenceFastPath.le current = true ∨ t.values.iterationBudget ≤ 0 ∨
        ∃ exc, hypothesizeAnswer ctx env t.values = .error exc) →
      ∀ t' : Thread, t'.next = .node (routeAfterHypothesize { t.values with
          currentPhase := .propose, lastTopConfidence := current, usage }) →
        t'.values.currentPhase = .propose →
        (FollowsPhase t' ↔ HypothesizeAgrees ctx env t.values) := by
    intro current usage hne hcur hwhy t' hn' hphase
    rw [hypothesizeAgrees_iff_of_kept hne hcur hwhy]
    exact (follows_of_branch (p := .propose) (q := .investigate) (b := true) (by decide)
      (hn'.trans (congrArg Next.node (routerProposes_eq t.values current
        t.values.stagnationCount t.values.hypotheses .propose usage))) hphase).trans eq_comm
  cases hw with
  | noHypotheses usage he =>
    constructor
    · intro hf
      have := hf _ rfl
      rcases routeAfterHypothesize_cases { t.values with
        currentPhase := .complete, status := .failed, usage } with hr | ⟨hr, -⟩ <;>
      · simp only [settle, routeAfter] at this
        rw [hr] at this
        cases this
    · intro hag
      exact absurd he hag.nonempty
  | confidence exc _ => exact absurd ⟨exc, rfl⟩ hc
  | skipped current hne hcur hwhy =>
    exact hkept current t.values.usage hne hcur (hwhy.imp_right .inl) _ rfl rfl
  | dropped current exc usage hne hcur _ _ he =>
    exact hkept current usage hne hcur (.inr (.inr ⟨exc, he⟩)) _ rfl rfl
  | refined current r hne hcur hlow hb hok =>
    rw [hypothesizeAgrees_iff_of_answer hne ⟨current, hcur, hlow, hb⟩ hok, sameSide_iff]
    exact follows_of_branch (p := .propose) (q := .investigate) (by decide)
      (congrArg Next.node (routerProposes_eq t.values r.confidence r.stagnationCount r.hypotheses _
        r.usage)) rfl

/-- `execute_node` goes where its phase says exactly when it calls the executor with success. -/
theorem execute_follows_iff (hn : t.next = .node .execute)
    (h : (graph ctx).step t (.run env) = some (t', fs)) (hc : ¬ Crashed t') :
    FollowsPhase t' ↔ ExecuteSucceeds ctx env t.values := by
  obtain ⟨env', run, ha, hx, hstep⟩ := step_exit h hn
  obtain rfl := Label.run.inj ha
  obtain ⟨rfl, -⟩ := Prod.mk.inj hstep
  cases hx with
  | refused hr =>
    constructor
    · intro hf
      cases hf .verify rfl
    · intro hs
      obtain ⟨hne, hlt, hsre⟩ := hs.calls
      rcases hr with hnil | hle | hno
      · exact absurd hnil hne
      · omega
      · rw [hsre] at hno
        cases hno
  | invalid _ _ exc _ _ _ => exact absurd ⟨exc, rfl⟩ hc
  | returned p ps action r hp hlt hsre hact ho =>
    refine (follows_of_branch (p := .verify) (q := .propose) (b := (executedAction env p r).success)
      (c := true) (by decide) rfl rfl).trans ?_
    constructor
    · intro hsucc
      simp only [executedAction, Bool.and_eq_true, Option.isNone_iff_eq_none] at hsucc
      refine ⟨⟨by simp [hp], hlt, hsre⟩, fun p' ps' action' hp' hact' => ?_⟩
      obtain ⟨rfl, rfl⟩ := List.cons.inj (hp.symm.trans hp')
      obtain rfl := Except.ok.inj (hact.symm.trans hact')
      exact ⟨r, ho, hsucc⟩
    · intro hs
      obtain ⟨r', hok, hexec, herr⟩ := hs.succeeds p ps action hp hact
      obtain rfl := Except.ok.inj (ho.symm.trans hok)
      simp [executedAction, hexec, herr]
  | raised p ps action e hp _ _ hact ho =>
    constructor
    · intro hf
      cases hf .verify rfl
    · intro hs
      obtain ⟨r, hok, -⟩ := hs.succeeds p ps action hp hact
      rw [ho] at hok
      cases hok

/-! ## Runs -/

/-- A step that does not crash follows the phase exactly when the phase and the edge agree. -/
theorem follows_iff (h : (graph ctx).step t a = some (t', fs)) (hc : ¬ Crashed t') :
    FollowsPhase t' ↔ PhaseAgrees ctx t a := by
  obtain ⟨p, env, resume, metrics, hstep, hnext⟩ := step_cases h
  by_cases hh : t.next = .node .hypothesize
  · obtain ⟨env, rfl, -⟩ := step_node h hh
    rw [hypothesize_follows_iff hh h hc]
    refine ⟨fun hag => ⟨fun env' ha _ => ?_, fun _ _ he => ?_⟩,
      fun hag => hag.hypothesize env rfl hh⟩
    · exact Label.run.inj ha ▸ hag
    · rw [hh] at he
      cases he
  by_cases he : t.next = .node .execute
  · obtain ⟨env, rfl, -⟩ := step_node h he
    rw [execute_follows_iff he h hc]
    refine ⟨fun hag => ⟨fun _ _ hh => ?_, fun env' ha _ => ?_⟩, fun hag => hag.execute env rfl he⟩
    · rw [he] at hh
      cases hh
    · exact Label.run.inj ha ▸ hag
  · refine ⟨fun _ => ⟨fun _ _ hn => absurd hn hh, fun _ _ hn => absurd hn he⟩, fun _ q hq => ?_⟩
    have hph : p ≠ .hypothesize := by
      rintro rfl
      rcases hnext with ⟨hn, -⟩ | ⟨-, hn, -⟩
      · exact hh hn
      · cases hn
    have hpe : p ≠ .execute := by
      rintro rfl
      rcases hnext with ⟨hn, -⟩ | ⟨-, hn, -⟩
      · exact he hn
      · cases hn
    obtain ⟨rfl, -⟩ := Prod.mk.inj hstep
    simp only [settle] at hq ⊢
    split at hq
    · rename_i s' ho
      exact routeAfter_phase hph hpe ho hq
    · cases hq
    · cases hq

/-- Every state of a run follows the phase, when the phase and the edge agree at every step. -/
theorem follows_phase {n : Nat} {es : List Event}
    (hr : (graph ctx).Run (PhaseAgrees ctx) n es t) : FollowsPhase t := by
  refine hr.stateInv (I := FollowsPhase) (fun s hi => ?_) fun s a s' fs _ hc hs => ?_
  · obtain ⟨metadata, budget, now, -, hn⟩ := hi
    intro p hp
    exact Next.node.inj (hn.symm.trans hp)
  · by_cases hcr : Crashed s'
    · exact fun p hp => absurd hcr (not_crashed_node hp)
    · exact (follows_iff hs hcr).mpr hc

/-! ### The sample incidents -/

/-- The step leads to a thread that follows its phase. -/
def checkFollows (ctx : GraphContext) (t : Thread) (a : Label) : Bool :=
  ((graph ctx).step t a).any fun q =>
    match q.1.next with
    | .node p => q.1.values.currentPhase == p
    | .crashed _ => false
    | _ => true

theorem phaseAgrees_of_check (t : Thread) (a : Label) (h : checkFollows ctx t a = true) :
    PhaseAgrees ctx t a := by
  obtain ⟨⟨t', fs⟩, hs, hc⟩ := (Option.any_eq_true _ _).mp h
  refine (follows_iff hs ?_).mp fun p hp => ?_
  · rintro ⟨exc, hn⟩
    simp [hn] at hc
  · simpa [hp] using hc

/-- An incident that is resolved. -/
theorem follows_phase_restart :
    ∃ n es t, (graph restartContext).Run (PhaseAgrees restartContext) n es t ∧
      (t.next = .done ∧ t.values.status = .resolved) ∧ FollowsPhase t := by
  have hexec : (((graph restartContext).restrict (checkFollows restartContext)).exec sampleThread
      (List.replicate 7 (.run (restartEnv [])))).any (endsAs .resolved) = true := by
    decide +kernel
  obtain ⟨t, es, hr, hc⟩ := Sys.exists_checked_run phaseAgrees_of_check sampleThread_initial hexec
  exact ⟨_, es, t, hr, of_endsAs hc, follows_phase hr⟩

/-- The next node is not the one that the phase names. -/
def strays (t : Thread) : Bool :=
  match t.next with
  | .node p => t.values.currentPhase != p
  | _ => false

theorem not_follows_of_strays (h : strays t = true) : ¬ FollowsPhase t := by
  intro hf
  unfold strays at h
  split at h
  · rename_i p hn
    simp [hf p hn] at h
  · cases h

/-- A call that the policy refuses is verified, although `execute_node` writes `propose`. -/
theorem failed_execution_verified :
    ¬ ∀ (ctx : GraphContext) (n : Nat) (es : List Event) (t : Thread),
      (graph ctx).Run Sys.anyStep n es t → FollowsPhase t := by
  intro hall
  have hexec : ((graph restartContext).exec sampleThread
      (List.replicate 5 (.run (restartEnv [("name", .str "*")])))).any
      (fun r => strays r.1) = true := by
    decide +kernel
  obtain ⟨t, es, hr, hc⟩ := Sys.exists_any_run sampleThread_initial hexec
  exact not_follows_of_strays hc (hall _ _ es t hr)

end Core
end AutoSRE

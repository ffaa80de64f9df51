import AutoSRE.Core.Termination

/-!
# The number of investigations

`investigate_node` counts an iteration and takes one off the budget, and the router of
`hypothesize_node` compares the two, with a budget of 0 read as 3. With a budget of 2 or more the
count meets the budget half way. A budget of 1 is spent by the first investigation, and is then 3:
the node goes on to `propose_node`, but the router goes back unless the confidence is 0.5 or more
(`spent_budget_renewed`). Otherwise the budget bounds the investigations (`investigations_le`).
-/

namespace AutoSRE
namespace Core

open Lib Py Safety Tools

/-- The executions of a node. -/
def executions (p : Phase) (es : List Event) : Nat := es.countP fun e => e.execution? == some p

variable (ctx : GraphContext)

/-- The initial budget is 2 or more, or `hypothesize_node` reads a confidence of 0.5 or more. -/
def BudgetLasts (t : Thread) (_ : Label) : Prop :=
  2 ≤ ctx.initialIterationBudget ∨ (t.next = .node .hypothesize →
    ∀ confidence, topConfidence t.values.hypotheses = .ok confidence →
      (PyFloat.finite (mkRat 1 2)).le confidence = true)

/-- What the investigations have used up. -/
structure Investigated (es : List Event) (t : Thread) : Prop where
  start : t.next = .node .triage → executions .investigate es = 0
  count : t.next ≠ .node .triage → ¬ Crashed t →
    t.values.iterationCount = executions .investigate es
  budget : t.next ≠ .node .triage → ¬ Crashed t →
    t.values.iterationBudget = max 0 (ctx.initialIterationBudget - executions .investigate es)
  /-- Another investigation is in the budget. -/
  next : t.next = .node .investigate → executions .investigate es = 0 ∨
    2 * (executions .investigate es : Int) < ctx.initialIterationBudget
  /-- The last investigation was in the budget. -/
  last : t.next = .node .hypothesize → executions .investigate es = 1 ∨
    2 * (executions .investigate es : Int) < ctx.initialIterationBudget + 2
  le : (executions .investigate es : Int) ≤ ctx.initialIterationBudget

variable {ctx} {C : Thread → Label → Prop} {n : Nat} {es fs : List Event} {t t' : Thread}
  {a : Label}

/-! ## The steps -/

/-- A step executes one node. -/
theorem step_executions (h : (graph ctx).step t a = some (t', fs)) :
    ∃ p, Enters t p ∧ Frame p t.values t'.values ∧
      ∀ q, executions q fs = if p = q then 1 else 0 := by
  obtain ⟨p, rest, hp, rfl, hrest, hframe⟩ := step_frame h
  refine ⟨p, hp, hframe, fun q => ?_⟩
  have hzero : executions q rest = 0 :=
    List.countP_eq_zero.mpr fun e hm he => by simp [(hrest e hm).2] at he
  unfold executions at hzero ⊢
  rw [List.countP_cons, hzero]
  simp [Event.execution?]

/-- What an investigation uses up. -/
theorem investigate_step (h : (graph ctx).step t a = some (t', fs))
    (hn : t.next = .node .investigate) :
    Crashed t' ∨ (t'.next = .node .hypothesize ∧
      t'.values.iterationCount = t.values.iterationCount + 1 ∧
      t'.values.iterationBudget = max 0 (t.values.iterationBudget - 1)) := by
  obtain ⟨env, run, -, hx, hstep⟩ := step_exit h hn
  obtain ⟨rfl, -⟩ := Prod.mk.inj hstep
  cases hx with
  | noTools _ | gathered _ _ _ _ _ _ => exact .inr ⟨rfl, rfl, rfl⟩
  | schema exc _ | unhashable _ exc _ _ _ | evidence _ _ exc _ _ => exact .inl ⟨exc, rfl⟩

/-- With a spent budget `hypothesize_node` keeps the confidence that it reads. -/
theorem hypothesize_step (h : (graph ctx).step t a = some (t', fs))
    (hn : t.next = .node .hypothesize) :
    Crashed t' ∨ (t'.next = .node (routeAfterHypothesize t'.values) ∧
      (t.values.iterationBudget ≤ 0 →
        t.values.hypotheses = [] ∨
          topConfidence t.values.hypotheses = .ok t'.values.lastTopConfidence)) := by
  obtain ⟨env, run, -, hw, hstep⟩ := step_exit h hn
  obtain ⟨rfl, -⟩ := Prod.mk.inj hstep
  cases hw with
  | noHypotheses _ he => exact .inr ⟨rfl, fun _ => .inl he⟩
  | confidence exc _ => exact .inl ⟨exc, rfl⟩
  | skipped current _ hc _ => exact .inr ⟨rfl, fun _ => .inr hc⟩
  | dropped _ _ _ _ _ _ hb _ | refined _ _ _ _ _ hb _ =>
    exact .inr ⟨rfl, fun hle => absurd hle (by omega)⟩

/-- Only two nodes lead to an investigation, and only an investigation to `hypothesize_node`. -/
theorem search_next (h : (graph ctx).step t a = some (t', fs)) {p : Phase} (hp : Enters t p) :
    (t'.next = .node .investigate → p = .triage ∨ p = .hypothesize) ∧
      (t'.next = .node .hypothesize → p = .investigate) := by
  obtain ⟨q, hq, hedge⟩ := step_edge h
  obtain rfl := hp.eq hq
  constructor
  · intro hn
    have hmem := hedge _ hn
    cases p <;> simp [successors] at hmem ⊢
  · intro hn
    have hmem := hedge _ hn
    cases p <;> simp [successors] at hmem ⊢

/-- A confidence of 0.5 or more ends the investigations. -/
theorem routeAfterHypothesize_confident {s : AgentState}
    (h : (PyFloat.finite (mkRat 1 2)).le s.lastTopConfidence = true) :
    routeAfterHypothesize s = .propose := by
  simp [routeAfterHypothesize, h]

/-- A step under the condition keeps the investigations in the budget. -/
theorem investigated_step (hB : 1 ≤ ctx.initialIterationBudget) (hi : Investigated ctx es t)
    (hc : BudgetLasts ctx t a) (h : (graph ctx).step t a = some (t', fs)) :
    Investigated ctx (es ++ fs) t' := by
  have hlive := not_crashed_of_step h
  have htriage := next_ne_triage h
  obtain ⟨p, hp, hframe, hexec⟩ := step_executions h
  obtain ⟨hinv, hhyp⟩ := search_next h hp
  have happ : executions .investigate (es ++ fs) =
      executions .investigate es + if p = .investigate then 1 else 0 := by
    rw [← hexec .investigate]
    exact List.countP_append
  have hle := hi.le
  by_cases hpi : p = .investigate
  · subst hpi
    have hn : t.next = .node .investigate := hp.resolve_right nofun
    have hcount := hi.count (by rw [hn]; nofun) hlive
    have hbud := hi.budget (by rw [hn]; nofun) hlive
    have hone : executions .investigate (es ++ fs) = executions .investigate es + 1 := by
      simpa using happ
    have hnext := hi.next hn
    refine ⟨fun ht => absurd ht htriage, fun _ hl => ?_, fun _ hl => ?_, fun ht => ?_,
      fun _ => ?_, by omega⟩
    · obtain ⟨-, hcount', -⟩ := (investigate_step h hn).resolve_left hl
      omega
    · obtain ⟨-, -, hbud'⟩ := (investigate_step h hn).resolve_left hl
      omega
    · rcases hinv ht with h | h <;> cases h
    · omega
  · have hsame : executions .investigate (es ++ fs) = executions .investigate es := by
      simpa [hpi] using happ
    have hnohyp : t'.next ≠ .node .hypothesize := fun ht => hpi (hhyp ht)
    by_cases hpt : p = .triage
    · subst hpt
      have hn : t.next = .node .triage := hp.resolve_right nofun
      have hstart := hi.start hn
      obtain ⟨-, hcount, hbud⟩ := triage_step h hn
      refine ⟨fun ht => absurd ht htriage, fun _ _ => ?_, fun _ _ => ?_, fun _ => .inl ?_,
        fun ht => absurd ht hnohyp, hsame ▸ hle⟩ <;> omega
    · have hnt : t.next ≠ .node .triage := fun hn => hpt (hp.eq (.inl hn))
      have hcount := hi.count hnt hlive
      have hbud := hi.budget hnt hlive
      have hcount' := hframe.count hpt hpi
      have hbud' := hframe.budget hpt hpi
      refine ⟨fun ht => absurd ht htriage, fun _ _ => by omega, fun _ _ => by omega,
        fun ht => ?_, fun ht => absurd ht hnohyp, hsame ▸ hle⟩
      -- `hypothesize_node` goes back.
      obtain rfl := (hinv ht).resolve_left hpt
      have hn : t.next = .node .hypothesize := hp.resolve_right nofun
      have hlast := hi.last hn
      rcases hypothesize_step h hn with hcr | ⟨hr, hread⟩
      · exact absurd ht fun ht => not_crashed_node ht hcr
      · have hback : routeAfterHypothesize t'.values = .investigate :=
          Next.node.inj (hr.symm.trans ht)
        rcases routeAfterHypothesize_cases t'.values with hr' | ⟨-, hmore⟩
        · rw [hback] at hr'
          cases hr'
        · by_cases hspent : t.values.iterationBudget ≤ 0
          · -- The budget is spent, so it was 1.
            have hconf := (hc.resolve_left (by omega)) hn
            have hle : (PyFloat.finite (mkRat 1 2)).le t'.values.lastTopConfidence = true := by
              rcases hread hspent with hnil | hok
              · exact absurd (hconf .zero (by rw [hnil]; rfl)) (by decide)
              · exact hconf _ hok
            rw [routeAfterHypothesize_confident hle] at hback
            cases hback
          · omega

/-- The initial budget bounds the investigations of a run, when it is 2 or more or the confidence is
high. -/
theorem investigations_le (hB : 1 ≤ ctx.initialIterationBudget)
    (hr : (graph ctx).Run (BudgetLasts ctx) n es t) :
    (executions .investigate es : Int) ≤ ctx.initialIterationBudget := by
  have hi : Investigated ctx es t := by
    refine hr.inv (I := Investigated ctx) (fun s hi => ?_) fun _ _ _ _ _ _ _ hi hc hs =>
      investigated_step hB hi hc hs
    have hn := initial_next hi
    have hzero : executions .investigate [] = 0 := rfl
    refine ⟨fun _ => rfl, fun ht => absurd hn ht, fun ht => absurd hn ht, fun _ => .inl rfl,
      fun ht => ?_, by omega⟩
    rw [hn] at ht
    cases ht
  exact hi.le

/-! ## The sample incidents -/

/-- A context with a budget of 1. -/
def singleContext : GraphContext := { flushContext with initialIterationBudget := 1 }

/-- `BudgetLasts`, as a check. -/
def checkConfident (t : Thread) (_ : Label) : Bool :=
  match t.next, topConfidence t.values.hypotheses with
  | .node .hypothesize, .ok confidence => (PyFloat.finite (mkRat 1 2)).le confidence
  | _, _ => true

theorem budgetLasts_of_check (t : Thread) (a : Label) (h : checkConfident t a = true) :
    BudgetLasts singleContext t a := by
  refine .inr fun hn confidence hc => ?_
  rwa [checkConfident, hn, hc] at h

/-- An incident with a hypothesis of high confidence. -/
theorem investigations_le_confident :
    ∃ n es t, 1 ≤ singleContext.initialIterationBudget ∧
      (graph singleContext).Run (BudgetLasts singleContext) n es t ∧
      executions .investigate es = 1 ∧
      (executions .investigate es : Int) ≤ singleContext.initialIterationBudget := by
  have hexec : (((graph singleContext).restrict checkConfident).exec sampleThread
      (List.replicate 4 (.run (sampleEnv (sampleAnswer "flush_all" 2))))).any
      (fun r => executions .investigate r.2 == 1) = true := by
    decide +kernel
  obtain ⟨t, es, hr, hc⟩ := Sys.exists_checked_run budgetLasts_of_check sampleThread_initial hexec
  exact ⟨_, es, t, by decide, hr, by simpa using hc, investigations_le (by decide) hr⟩

/-- With a budget of 1 and the fallback hypothesis there is a second investigation. -/
theorem spent_budget_renewed :
    ¬ ∀ (ctx : GraphContext) (n : Nat) (es : List Event) (t : Thread),
      1 ≤ ctx.initialIterationBudget → (graph ctx).Run Sys.anyStep n es t →
      (executions .investigate es : Int) ≤ ctx.initialIterationBudget := by
  intro hall
  have hexec : ((graph singleContext).exec sampleThread
      (List.replicate 4 (.run (sampleEnv .null)))).any
      (fun r => executions .investigate r.2 == 2) = true := by
    decide +kernel
  obtain ⟨t, es, hr, hc⟩ := Sys.exists_any_run sampleThread_initial hexec
  have htwo : executions .investigate es = 2 := by simpa using hc
  have hle := hall _ _ es t (by decide) hr
  rw [htwo] at hle
  exact absurd hle (by decide)

end Core
end AutoSRE

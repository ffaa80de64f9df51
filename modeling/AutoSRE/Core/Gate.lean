import AutoSRE.Core.Approval

/-!
# The approval gate over whole runs

The tier that decides whether `propose_node` asks for approval is the one that the language model
declares, or the one of the template. When every proposal of a call in a set `G` declares at least
tier 2 (`TiersDeclared`), every dispatch of such a call follows a grant (`dispatch_granted`).

A call is `Gated` when its tool is registered at tier 2 or more and no policy rule puts the call
lower. A gated call is dispatched without an approval (`undeclared_tier_dispatched`), unless the
proposals of gated calls declare their tiers (`DeclaresTiers`, `gated_dispatch_granted`).
-/

namespace AutoSRE
namespace Core

open Lib Py Safety Tools

/-- The tool is registered at tier 2 or more, and the policy does not put the call lower. -/
def Gated (x : SafeExecutor) (name : String) (args : PyDict) : Prop :=
  ∃ tool registered tier, x.registry.get name = .ok tool ∧
    RiskTier.ofInt? tool.riskTier = some registered ∧ 2 ≤ registered.value ∧
    x.policy.tierOf name args registered = .ok tier ∧ 2 ≤ tier.value

variable {ctx : GraphContext}

/-! ## What the selections propose -/

section condition

variable (ctx : GraphContext) (env : NodeEnv) (s : AgentState) (confidence : PyFloat)
  (category : String)

/-- The language model gives an object that names a tool, and `propose_node` uses it. -/
structure Answered (parsed : PyDict) (name : String) : Prop where
  response : ∃ r usage, env.llm.outcome.parsed "propose" false = .ok (r, parsed) ∧
    accumulateUsage ctx s.usage r env.llm.promptChars = .ok usage
  named : coerceToolName (PyDict.get? parsed "tool_name") = some name
  kept : dropped ctx confidence category (some name) = false
  ne_none : name ≠ "none"

variable (G : String → PyDict → Prop)

/-- What is proposed for a call in `G` declares a tier of 2 or more. -/
structure TierDeclared : Prop where
  answer : ∀ parsed name, Answered ctx env s confidence category parsed name →
    G name (clampNamespace (answerArgs (some name) parsed)
      (proposeNamespace s.incidentMetadata) name) →
    2 ≤ parseRiskTier (PyDict.get? parsed "risk_tier")
  template : (¬ ∃ parsed name, Answered ctx env s confidence category parsed name) →
    ∀ fb, fallbackActions category = some fb →
      G fb.toolName (clampNamespace (buildFallbackArgs fb s.incidentMetadata)
        (proposeNamespace s.incidentMetadata) fb.toolName) → 2 ≤ fb.riskTier

/-- Until there is a grant, every execution of `propose_node` declares the tiers of the calls in
`G`. -/
def TiersDeclared (t : Thread) (a : Label) : Prop :=
  ∀ env confidence category, a = .run env → t.next = .node .propose →
    t.values.approvalGranted ≠ some true →
    topConfidence t.values.hypotheses = .ok confidence →
    proposeCategory t.values.incidentMetadata = .ok category →
    TierDeclared ctx env t.values confidence category G

/-- Until there is a grant, every execution of `propose_node` declares the tiers of gated calls. -/
def DeclaresTiers (t : Thread) (a : Label) : Prop := TiersDeclared ctx (Gated ctx.executor) t a

variable {G}

variable {ctx env s confidence category}

theorem proposeAnswer_of_answered {parsed : PyDict} {name : String}
    (h : Answered ctx env s confidence category parsed name) :
    ∃ sel, proposeAnswer ctx env s confidence category = .ok sel ∧ ¬ sel.NamesNone := by
  obtain ⟨r, usage, hp, hu⟩ := h.response
  refine ⟨llmSelection parsed usage, ?_, ?_⟩
  · simp [proposeAnswer, hp, hu, llmSelection, h.named, h.kept]
  · simp [Selection.NamesNone, llmSelection, h.named, h.ne_none]

theorem answered_of_proposeAnswer {sel : Selection} {name : String}
    (h : proposeAnswer ctx env s confidence category = .ok sel) (hn : ¬ sel.NamesNone)
    (hname : sel.toolName = some name) :
    ∃ parsed, Answered ctx env s confidence category parsed name ∧
      sel.toolArgs = answerArgs (some name) parsed ∧
      sel.riskTier = parseRiskTier (PyDict.get? parsed "risk_tier") := by
  unfold proposeAnswer at h
  split at h
  · cases h
  · rename_i r parsed hp
    split at h
    · cases h
    · rename_i usage hu
      simp only at h
      split at h
      · cases h
      · rename_i hd
        cases h
        have hname' : coerceToolName (PyDict.get? parsed "tool_name") = some name := hname
        refine ⟨parsed, ⟨⟨r, usage, hp, hu⟩, hname', ?_, ?_⟩, ?_, rfl⟩
        · rw [hname] at hd
          simpa using hd
        · rintro rfl
          exact hn (.inr hname)
        · show answerArgs (coerceToolName _) parsed = _
          rw [hname']

/-- A selection under the condition declares the tier of a call in `G`. -/
theorem Selected.declares (hc : TierDeclared ctx env s confidence category G) {sel : Selection}
    (h : Selected ctx env s confidence category sel) {name : String}
    (hname : sel.toolName = some name)
    (hg : G name (clampNamespace sel.toolArgs (proposeNamespace s.incidentMetadata) name)) :
    2 ≤ sel.riskTier := by
  cases h with
  | answer ha hn =>
    obtain ⟨parsed, han, hargs, htier⟩ := answered_of_proposeAnswer ha hn hname
    rw [htier]
    exact hc.answer parsed name han (hargs ▸ hg)
  | template cause usage hfail hf =>
    obtain ⟨fb, hfb, -, -, hn, hargs, htier⟩ := fallbackSelection_some hf
    obtain rfl : fb.toolName = name := by simpa [hn] using hname
    rw [htier]
    refine hc.template ?_ fb hfb (hargs ▸ hg)
    rintro ⟨parsed, name', han⟩
    obtain ⟨sel₀, hs, hne⟩ := proposeAnswer_of_answered han
    exact hne (hfail sel₀ hs)

end condition

/-! ## The gate -/

variable {G : String → PyDict → Prop}

/-- The proposals of calls in `G` declare at least tier 2, or there was a grant. -/
def Declared (G : String → PyDict → Prop) (es : List Event) : Prop :=
  ∀ p, .proposed p ∈ es → G p.toolName p.toolArgs → 2 ≤ p.riskTier ∨ Granted es

theorem Declared.append {es fs : List Event} (h : Declared G es)
    (hf : ∀ p, .proposed p ∈ fs → G p.toolName p.toolArgs → 2 ≤ p.riskTier ∨ Granted es) :
    Declared G (es ++ fs) := by
  intro p hp hg
  rcases List.mem_append.mp hp with hm | hm
  · exact (h p hm hg).imp_right fun hgr => hgr.append fs
  · exact (hf p hm hg).imp_right fun hgr => hgr.append fs

/-- A step under the condition keeps the proposals declared. -/
theorem declared_step {es fs : List Event} {t t' : Thread} {a : Label} (hd : Declared G es)
    (hi : ProposalInv ctx False es t) (hc : TiersDeclared ctx G t a)
    (h : GateStep ctx t a fs t') : Declared G (es ++ fs) := by
  refine hd.append fun q hq hg => ?_
  cases h with
  | proposed env confidence category sel name p ha ht _ hconf hcat hsel hname hp =>
    obtain rfl : q = p := by simpa [llmEvent] using hq
    by_cases hgr : t.values.approvalGranted = some true
    · exact .inr (hi.granted hgr)
    · rw [hp] at hg ⊢
      exact .inl (hsel.declares (hc env confidence category ha ht hgr hconf hcat) hname hg)
  | ended _ hquiet => exact absurd hq (hquiet.no_proposal q)
  | searched _ _ hquiet => exact absurd hq (hquiet.no_proposal q)
  | _ => simp at hq

theorem declared_run {n : Nat} {es : List Event} {t : Thread}
    (hr : (graph ctx).Run (TiersDeclared ctx G) n es t) : Declared G es :=
  hr.inv (I := fun es _ => Declared G es) (fun _ _ _ hp => by simp at hp)
    fun _ _ _ _ _ _ hr hi hc hs => declared_step hi (proposalInv hr) hc (step_gate hs)

/-- Every dispatch of a call in `G` follows a grant, when the proposals of these calls declare at
least tier 2. -/
theorem dispatch_granted {n : Nat} {es : List Event} {t : Thread}
    (hr : (graph ctx).Run (TiersDeclared ctx G) n es t) {pre post : List Event} {name : String}
    {args : PyDict} {d : PolicyDecision}
    (he : es = pre ++ .executor (.dispatch name args d) :: post) (hg : G name args) :
    Granted pre := by
  obtain ⟨n₁, es₁, t₁, a, t₂, fs, fs₁, fs₂, hr₁, -, hs, hfs, rfl⟩ := hr.split he
  refine Granted.append ?_ fs₁
  have hm : .executor (.dispatch name args d) ∈ fs := by simp [hfs]
  obtain ⟨p, ps, hn, hp, hname, hargs⟩ := dispatch_step hs hm
  -- The action is the pending proposal, so its tier is declared.
  have hi := proposalInv hr₁
  obtain ⟨q, mid, hq⟩ := hi.executing (by rw [hn]; rfl)
  obtain ⟨b, hb, -⟩ := hq.proposed
  obtain ⟨rfl, -⟩ : { q with requiresApproval := b } = p ∧ [] = ps := by simpa [hb] using hp
  rw [hname, hargs] at hg
  rcases declared_run hr₁ q hq.pending.mem hg with htier | hgr
  · exact hi.granted (hq.granted (by simp [hq.required, htier]))
  · exact hgr

/-! ### The sample incident -/

/-- A context with `flush_all`, at tier 2. -/
def flushContext : GraphContext := sampleContext flushAllTool

/-- No rule of the default policy puts a `flush_all` of tier 2 lower. -/
theorem flushAll_gated (args : PyDict) :
    Gated flushContext.executor "flush_all" args := by
  -- Only the rule for system namespaces can apply.
  by_cases hns : isSystemNamespace args = true
  · have htier : PolicyEngine.default.tierOf "flush_all" args .reversibleHigh =
        .ok .prohibited := by
      simp [PolicyEngine.tierOf, PolicyEngine.firstMatch, PolicyEngine.default, defaultRules,
        PolicyEngine.firstOf, Rule.applies, Matcher.total, hns, Except.map]
    exact ⟨flushAllTool, .reversibleHigh, .prohibited, rfl, rfl, by decide, htier, by decide⟩
  · have htier : PolicyEngine.default.tierOf "flush_all" args .reversibleHigh =
        .ok .reversibleHigh := by
      simp [PolicyEngine.tierOf, PolicyEngine.firstMatch, PolicyEngine.default, defaultRules,
        PolicyEngine.firstOf, Rule.applies, Matcher.total, hns, Except.map]
    exact ⟨flushAllTool, .reversibleHigh, .reversibleHigh, rfl, rfl, by decide, htier, by decide⟩

/-- The log dispatches a tool at a position. -/
def dispatchesAt (k : Nat) (toolName : String) (es : List Event) : Bool :=
  match es[k]? with
  | some (.executor (.dispatch name _ _)) => name == toolName
  | _ => false

theorem split_of_dispatchesAt {k : Nat} {toolName : String} {es : List Event}
    (h : dispatchesAt k toolName es = true) :
    ∃ args d, es = es.take k ++ .executor (.dispatch toolName args d) :: es.drop (k + 1) := by
  unfold dispatchesAt at h
  split at h
  · rename_i name args d hk
    obtain rfl : name = toolName := by simpa using h
    exact ⟨args, d, Sys.split_of_getElem? hk⟩
  · cases h

/-- Answers that propose a `flush_all` at tier 2 declare the tiers of all calls of registered tools,
when there is no other tool. -/
theorem sampleAnswer_declared (hreg : ctx.registry.tools = [flushAllTool])
    (hG : ∀ name args, G name args → ∃ tool, ctx.registry.get name = .ok tool) {t : Thread}
    {a : Label} (ha : a = .run (sampleEnv (sampleAnswer "flush_all" 2)) ∨
      ∃ decision env metrics, a = .resume decision env metrics) : TiersDeclared ctx G t a := by
  rintro env confidence category rfl - - - -
  obtain he : env = sampleEnv (sampleAnswer "flush_all" 2) := by simpa using ha
  subst he
  constructor
  · intro parsed name han _
    obtain ⟨r, usage, hp, -⟩ := han.response
    obtain ⟨-, rfl⟩ : r = _ ∧ _ = parsed := by
      simpa [sampleEnv, sampleAnswer, LlmOutcome.parsed, parseJsonResponse, eq_comm,
        Except.map] using hp
    decide
  · rintro - fb hfb hg
    -- The only registered tool is `flush_all`, and its templates are at tier 2.
    obtain ⟨tool, hget⟩ := hG _ _ hg
    obtain ⟨hm, hname⟩ := ToolRegistry.get_ok hget
    rw [hreg] at hm
    obtain rfl : tool = flushAllTool := List.mem_singleton.mp hm
    have hall : ∀ p ∈ fallbackTable, p.2.toolName = "flush_all" → 2 ≤ p.2.riskTier := by
      simp [fallbackTable, reasonOnly]
    exact hall _ (mem_fallbackTable hfb) hname.symm

/-- The steps of an incident whose proposal at tier 2 is approved. -/
def flushLabels : List Label :=
  List.replicate 6 (.run (sampleEnv (sampleAnswer "flush_all" 2))) ++
    [.resume (.bool true) (sampleEnv .null) none,
      .run (sampleEnv (sampleAnswer "flush_all" 2))]

theorem flushLabels_cases {a : Label} (ha : a ∈ flushLabels) :
    a = .run (sampleEnv (sampleAnswer "flush_all" 2)) ∨
      ∃ decision env metrics, a = .resume decision env metrics := by
  simp only [flushLabels, List.mem_append, List.mem_replicate, List.mem_cons, List.not_mem_nil,
    or_false] at ha
  rcases ha with ⟨-, h⟩ | h | h
  · exact .inl h
  · exact .inr ⟨_, _, _, h⟩
  · exact .inl h

/-- The steps of an incident whose first action is approved and fails, and that then proposes and
executes a second one. -/
def retryLabels (first failing second executing : NodeEnv) : List Label :=
  List.replicate 6 (.run first) ++
    [.resume (.bool true) (sampleEnv .null) none, .run failing, .run (sampleEnv .null)] ++
    List.replicate 2 (.run second) ++ [.run executing]

/-- Every dispatch of a gated call follows a grant, when the proposals of gated calls declare at
least tier 2. -/
theorem gated_dispatch_granted {n : Nat} {es : List Event} {t : Thread}
    (hr : (graph ctx).Run (DeclaresTiers ctx) n es t) {pre post : List Event} {name : String}
    {args : PyDict} {d : PolicyDecision}
    (he : es = pre ++ .executor (.dispatch name args d) :: post)
    (hg : Gated ctx.executor name args) : Granted pre :=
  dispatch_granted hr he hg

theorem gated_dispatch_granted_flushAll :
    ∃ n es t pre post args d,
      (graph flushContext).Run (DeclaresTiers flushContext) n es t ∧
        es = pre ++ .executor (.dispatch "flush_all" args d) :: post ∧ Granted pre := by
  have hexec : ((graph flushContext).exec sampleThread flushLabels).any (fun r =>
      dispatchesAt 16 "flush_all" r.2) = true := by
    decide +kernel
  have hdecl : ∀ t, ∀ a ∈ flushLabels, DeclaresTiers flushContext t a := by
    intro t a ha
    refine sampleAnswer_declared rfl ?_ (flushLabels_cases ha)
    rintro name args ⟨tool, registered, tier, hget, -⟩
    exact ⟨tool, hget⟩
  obtain ⟨t, es, hr, hc⟩ := Sys.exists_run_of_exec sampleThread_initial hdecl hexec
  obtain ⟨args, d, hes⟩ := split_of_dispatchesAt hc
  exact ⟨_, es, t, _, _, args, d, hr, hes, gated_dispatch_granted hr hes (flushAll_gated args)⟩

/-- The event is an interrupt. -/
def Event.isInterrupt : Event → Bool
  | .interrupt _ => true
  | _ => false

/-- A `flush_all` that is registered at tier 2 and that the language model declares at tier 1 is
dispatched without an interrupt. -/
theorem undeclared_tier_dispatched :
    ¬ ∀ (ctx : GraphContext) (n : Nat) (es : List Event) (t : Thread) (pre post : List Event)
      (name : String) (args : PyDict) (d : PolicyDecision),
      ctx.executor.policy.maxAutonomous = .reversibleLow → (graph ctx).Run Sys.anyStep n es t →
      es = pre ++ .executor (.dispatch name args d) :: post → Gated ctx.executor name args →
      Granted pre := by
  intro hall
  have hexec : ((graph flushContext).exec sampleThread
      (List.replicate 6 (.run (sampleEnv (sampleAnswer "flush_all" 1))))).any (fun r =>
        dispatchesAt 10 "flush_all" r.2 && !r.2.any Event.isInterrupt) = true := by
    decide +kernel
  obtain ⟨t, es, hr, hc⟩ := Sys.exists_any_run sampleThread_initial hexec
  simp only [Bool.and_eq_true, Bool.not_eq_true', List.any_eq_false] at hc
  obtain ⟨args, d, hes⟩ := split_of_dispatchesAt hc.1
  obtain ⟨payload, hg⟩ := hall _ _ es t _ _ _ args d rfl hr hes (flushAll_gated args)
  exact hc.2 _ (List.mem_of_mem_take hg.interrupt) rfl

end Core
end AutoSRE

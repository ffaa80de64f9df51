import AutoSRE.Core.Ending

/-!
# Repeated actions

`propose_node` refuses an action that is recorded already: by name if the tool is in
`MUTATING_TOOLS`, otherwise by name and arguments. The set is not derived from the registry, and
`flush_all` is not in it: it is dispatched again under another reason (`drifted_action_repeated`).
When the selections that repeat a recorded tool are refused (`RepeatsRefused`), no tool that can
change something is dispatched again once it is recorded (`no_repeat`).
-/

namespace AutoSRE
namespace Core

open Lib Py Safety Tools

/-- The tool is registered at tier 1 or more. -/
def Changes (r : ToolRegistry) (name : String) : Prop :=
  ∃ tool, r.get name = .ok tool ∧ 1 ≤ tool.riskTier

/-- An execution of the tool is recorded. -/
def Recorded (name : String) (s : AgentState) : Prop :=
  ∃ r ∈ s.executedActions, r.toolName = name

variable (ctx : GraphContext)

/-- A selected tool that can change something and that is recorded is in `MUTATING_TOOLS`, or has
the arguments of a recorded call. -/
def RepeatsRefused (t : Thread) (a : Label) : Prop :=
  ∀ env confidence category sel name, a = .run env → t.next = .node .propose →
    topConfidence t.values.hypotheses = .ok confidence →
    proposeCategory t.values.incidentMetadata = .ok category →
    Selected ctx env t.values confidence category sel → sel.toolName = some name →
    Changes ctx.registry name → Recorded name t.values →
    name ∈ mutatingTools ∨ ∃ r ∈ t.values.executedActions, r.toolName = name ∧
      Json.pyEq (.obj r.toolArgs) (.obj sel.toolArgs) = true

/-- A step of the thread dispatches no tool that can change something and that is recorded. -/
def NoRepeat (t : Thread) : Prop :=
  ∀ a t' fs name args d, (graph ctx).step t a = some (t', fs) →
    .executor (.dispatch name args d) ∈ fs → Changes ctx.registry name →
    ¬ Recorded name t.values

/-- The proposals that are approved or executed next are of no tool that can change something and
that is recorded. -/
def FreshProposals (t : Thread) : Prop :=
  t.next.place = .approving ∨ t.next.place = .executing →
    ∀ p ∈ t.values.proposedActions, Changes ctx.registry p.toolName →
      ¬ Recorded p.toolName t.values

variable {ctx} {t t' : Thread} {a : Label} {fs : List Event}

/-- What the duplicate check lets pass. -/
theorem not_executed {name : String} {args : PyDict} {executed : List ExecutedAction}
    (hne : name ≠ "") (h : isActionAlreadyExecuted name args executed = false) :
    ∀ r ∈ executed, r.toolName = name →
      name ∉ mutatingTools ∧ Json.pyEq (.obj r.toolArgs) (.obj args) = false := by
  intro r hm hr
  simp only [isActionAlreadyExecuted, if_neg hne, List.any_eq_false, Bool.and_eq_true, beq_iff_eq,
    Bool.or_eq_true, decide_eq_true_eq, not_and, not_or, Bool.not_eq_true] at h
  exact h r hm hr

theorem changes_ne {r : ToolRegistry} {name : String} (h : Changes r name) : name ≠ "" := by
  obtain ⟨tool, hget, -⟩ := h
  obtain ⟨-, rfl⟩ := ToolRegistry.get_ok hget
  rintro he
  have := tool.name_ok
  simp [toolNameOk, he] at this

/-- A step under the condition keeps the proposals fresh. -/
theorem freshProposals_step (hf : FreshProposals ctx t) (hc : RepeatsRefused ctx t a)
    (h : (graph ctx).step t a = some (t', fs)) : FreshProposals ctx t' := by
  obtain ⟨q, rest, hq, -, -, hframe⟩ := step_frame h
  -- A step that does not execute keeps the record.
  have hrecord : q ≠ .execute → ∀ name, Recorded name t'.values → Recorded name t.values := by
    intro hqe name hrec
    unfold Recorded at hrec ⊢
    rwa [hframe.executed hqe] at hrec
  intro hp p hm hch hrec
  rcases pending_step h hp with ⟨p', hpm, hprop⟩ | ⟨hplace, hnames⟩
  · obtain ⟨env, confidence, category, sel, name, ha, hn, hconf, hcat, hsel, hname, rfl, hdup⟩ :=
      proposed_step h hpm
    rw [hprop] at hm
    obtain rfl := List.mem_singleton.mp hm
    change Changes ctx.registry name at hch
    have hqe : q ≠ .execute := by
      rintro rfl
      rcases hq with hq | ⟨hq, -⟩ <;> rw [hn] at hq <;> cases hq
    obtain ⟨r, hrm, hr⟩ := hrecord hqe name hrec
    rcases hc env confidence category sel name ha hn hconf hcat hsel hname hch ⟨r, hrm, hr⟩ with
      hmut | ⟨r', hrm', hr', heq⟩
    · exact (not_executed (changes_ne hch) hdup r hrm hr).1 hmut
    · rw [(not_executed (changes_ne hch) hdup r' hrm' hr').2] at heq
      cases heq
  · have hqe : q ≠ .execute := by
      rintro rfl
      rcases hq with hn | ⟨-, hn⟩
      · rw [hn] at hplace
        cases hplace
      · cases hn
    obtain ⟨p', hm', hname, -⟩ := hnames p hm
    exact hf (.inl hplace) p' hm' (hname ▸ hch) (hname ▸ hrecord hqe p.toolName hrec)

/-- No tool that can change something is dispatched again once it is recorded, when the selections
that repeat it are refused. -/
theorem no_repeat {n : Nat} {es : List Event}
    (hr : (graph ctx).Run (RepeatsRefused ctx) n es t) : NoRepeat ctx t := by
  have hfresh : FreshProposals ctx t := by
    refine hr.stateInv (I := FreshProposals ctx) (fun s hi => ?_)
      fun s a s' fs hf hc hs => freshProposals_step hf hc hs
    rintro (hp | hp) <;> rw [initial_place hi] at hp <;> cases hp
  intro a t' fs name args d hs hm hch
  obtain ⟨p, ps, hn, hp, rfl, -⟩ := dispatch_step hs hm
  exact hfresh (.inr (by rw [hn]; rfl)) p (by rw [hp]; exact List.mem_cons_self) hch

/-! ## The sample incidents -/

/-- Every tool of the context is in `MUTATING_TOOLS`. -/
theorem restartContext_refuses (t : Thread) (a : Label) : RepeatsRefused restartContext t a := by
  rintro env confidence category sel name - - - - - - ⟨tool, hget, -⟩ -
  obtain ⟨hm, rfl⟩ := ToolRegistry.get_ok hget
  obtain rfl : tool = restartTool := List.mem_singleton.mp hm
  exact .inl (by decide)

/-- The tool is recorded. -/
def records (name : String) (t : Thread) : Bool :=
  t.values.executedActions.any fun r => r.toolName == name

theorem recorded_of_records {name : String} (h : records name t = true) :
    Recorded name t.values := by
  obtain ⟨r, hm, hr⟩ := List.any_eq_true.mp h
  exact ⟨r, hm, by simpa using hr⟩

/-- A restart that is recorded and not verified. -/
theorem no_repeat_restart :
    ∃ n es t, (graph restartContext).Run (RepeatsRefused restartContext) n es t ∧
      t.next.place = .searching ∧ Recorded "restart_deployment" t.values ∧
      NoRepeat restartContext t := by
  have hexec : ((graph restartContext).exec sampleThread (List.replicate 6
      (.run (unverifiedEnv (sampleAnswer "restart_deployment" 1))))).any
      (fun r => decide (r.1.next.place = .searching) && records "restart_deployment" r.1) =
        true := by
    decide +kernel
  obtain ⟨t, es, hr, hc⟩ := Sys.exists_run_of_exec sampleThread_initial
    (fun t a _ => restartContext_refuses t a) hexec
  simp only [Bool.and_eq_true, decide_eq_true_eq] at hc
  exact ⟨_, es, t, hr, hc.1, recorded_of_records hc.2, no_repeat hr⟩

/-- An environment that proposes a `flush_all` for a reason. -/
def flushEnv (reason : String) : NodeEnv :=
  sampleEnv (sampleAnswer "flush_all" 2 [("reason", .str reason)])

/-- The steps of an incident whose first `flush_all` is approved and not verified, and whose second
has another reason. -/
def driftLabels : List Label :=
  List.replicate 6 (.run (flushEnv "eviction storm")) ++
    [.resume (.bool true) (sampleEnv .null) none, .run (unverifiedEnv .null),
      .run (sampleEnv .null)] ++
    List.replicate 2 (.run (flushEnv "memory pressure"))

/-- The event dispatches the tool. -/
def Event.dispatches (name : String) : Event → Bool
  | .executor (.dispatch toolName _ _) => toolName == name
  | _ => false

theorem exists_dispatch {name : String} {es : List Event}
    (h : es.any (Event.dispatches name) = true) :
    ∃ args d, .executor (.dispatch name args d) ∈ es := by
  obtain ⟨e, hm, he⟩ := List.any_eq_true.mp h
  unfold Event.dispatches at he
  split at he
  · rename_i toolName args d
    obtain rfl : toolName = name := by simpa using he
    exact ⟨args, d, hm⟩
  · cases he

/-- The next step dispatches the tool. -/
def dispatchesNext (ctx : GraphContext) (name : String) (env : NodeEnv) (t : Thread) : Bool :=
  ((graph ctx).step t (.run env)).any fun q => q.2.any (Event.dispatches name)

/-- A `flush_all` with another reason is dispatched again. -/
theorem drifted_action_repeated :
    ¬ ∀ (ctx : GraphContext) (n : Nat) (es : List Event) (t : Thread),
      (graph ctx).Run Sys.anyStep n es t → NoRepeat ctx t := by
  intro hall
  have hexec : ((graph flushContext).exec sampleThread driftLabels).any (fun r =>
      records "flush_all" r.1 &&
        dispatchesNext flushContext "flush_all" (sampleEnv .null) r.1) = true := by
    decide +kernel
  obtain ⟨t, es, hr, hc⟩ := Sys.exists_any_run sampleThread_initial hexec
  rw [Bool.and_eq_true] at hc
  obtain ⟨⟨t', fs⟩, hs, hdisp⟩ := (Option.any_eq_true _ _).mp hc.2
  obtain ⟨args, d, hm⟩ := exists_dispatch hdisp
  exact hall _ _ es t hr _ t' fs _ args d hs hm ⟨flushAllTool, rfl, by decide⟩
    (recorded_of_records hc.1)

end Core
end AutoSRE

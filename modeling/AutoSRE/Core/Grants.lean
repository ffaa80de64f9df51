import AutoSRE.Core.Gate

/-!
# One grant for each proposal

`approval_granted` is never reset, and `approve_node` lets a proposal pass when it finds a grant. So
the grant of a failed proposal also passes the next one (`stale_grant_reused`). When `approve_node`
never finds a grant (`FreshApproval`), every proposal that requires approval is executed only
after an interrupt of its own (`fresh_approval_single_use`).
-/

namespace AutoSRE
namespace Core

open Lib Py Safety Tools

variable {ctx : GraphContext}

/-- The action has a lower tier than the proposal, or loses its flag. -/
def Lowered (p : Proposal) (a : ProposedAction) : Prop :=
  a.riskTier < p.riskTier ∨ (p.requiresApproval = true ∧ a.requiresApproval = false)

/-- An approval is good for one proposal only. -/
structure SingleUse (es : List Event) : Prop where
  /-- The next call after a proposal that requires approval follows an approval of the proposal. -/
  required : ∀ pre p mid a post, es = pre ++ .proposed p :: (mid ++ .executorCall a :: post) →
    (∀ b, .executorCall b ∉ mid) → p.requiresApproval = true → ApprovedIn p mid
  /-- A call is of the last proposal, and lowers it only when it was approved since. -/
  lowered : ∀ pre a post, es = pre ++ .executorCall a :: post →
    ∃ pre' p mid, pre = pre' ++ .proposed p :: mid ∧ Quiet mid ∧ a.toolName = p.toolName ∧
      a.toolArgs = p.toolArgs ∧ (Lowered p a → ApprovedIn p mid)

/-- A call of the executor is of the pending proposal. -/
theorem call_pending {n : Nat} {es pre post : List Event} {t : Thread} {a : ProposedAction}
    (hr : (graph ctx).Run FreshApproval n es t) (he : es = pre ++ .executorCall a :: post) :
    ∃ p mid, ctx.sreContext = true ∧ Pending ctx pre p mid ∧ a.toolName = p.toolName ∧
      a.toolArgs = p.toolArgs ∧ (Lowered p a → p.requiresApproval = true) ∧
      (p.requiresApproval = true → ApprovedIn p mid) := by
  obtain ⟨_, es₁, t₁, l, t₂, fs, fs₁, fs₂, hr₁, -, hs, hfs, rfl⟩ := hr.split he
  obtain ⟨env, q, qs, action, hn, hq, hsre, hact, rfl⟩ :=
    executor_step hs (e := .executorCall a) (by simp [hfs]) (fun _ h => h) nofun
  -- The call is the second event of its step.
  obtain ⟨rfl, rfl⟩ : fs₁ = [.node .execute] ∧ action = a := by
    match fs₁, hfs with
    | [], h => simp at h
    | [e], h =>
      simp only [List.cons_append, List.nil_append, List.cons.injEq, Event.executorCall.injEq] at h
      exact ⟨by rw [h.1], h.2.1⟩
    | e :: e' :: rest, h =>
      simp only [List.cons_append, List.cons.injEq] at h
      have hm : .executorCall a ∈ (ctx.executor.execute env.handlers none action).log.map
          Event.executor := by rw [h.2.2]; simp
      simp at hm
  have hi := proposalInv_fresh hr₁
  obtain ⟨p, mid, hp⟩ := hi.executing (by rw [hn]; rfl)
  obtain ⟨b, hb, -⟩ := hp.proposed
  obtain ⟨hname, hargs, htier, hflag⟩ := ProposedAction.make_ok hact
  obtain ⟨rfl, -⟩ : { p with requiresApproval := b } = q ∧ [] = qs := by simpa [hb] using hq
  refine ⟨p, _, hsre, hp.pending.append (quiet_singleton rfl), hname, hargs, ?_,
    fun hreq => (hp.approved trivial hreq).append _⟩
  rintro (hlow | ⟨hreq, -⟩)
  · -- Without a grant the tier is the proposal's, with one it is 1.
    have hreq := hp.required
    by_cases hg : t₁.values.approvalGranted = some true
    · simp only [hg, BEq.rfl, if_true] at htier
      simp [hreq]
      omega
    · simp only [beq_eq_false_iff_ne.mpr hg] at htier
      simp [htier] at hlow
  · exact hreq

/-- When `approve_node` never finds a grant, an approval is good for one proposal only. -/
theorem fresh_approval_single_use {n : Nat} {es : List Event} {t : Thread}
    (hr : (graph ctx).Run FreshApproval n es t) : SingleUse es := by
  constructor
  · intro pre q mid' a post he hc hreq
    obtain ⟨p, mid, hsre, hp, -, -, -, happ⟩ :=
      call_pending hr (he.trans (List.append_assoc pre (.proposed q :: mid') _).symm)
    obtain ⟨rfl, rfl⟩ := hp.eq hsre rfl hc
    exact happ hreq
  · intro pre a post he
    obtain ⟨p, mid, -, hp, hname, hargs, hlow, happ⟩ := call_pending hr he
    obtain ⟨⟨pre', hpre, -⟩, hq⟩ := hp
    exact ⟨pre', p, mid, hpre, hq, hname, hargs, fun h => happ (hlow h)⟩

/-- `FreshApproval`, as a check. -/
def checkFresh (t : Thread) (_ : Label) : Bool :=
  match t.next with
  | .node .approve | .paused => t.values.approvalGranted != some true
  | _ => true

theorem freshApproval_of_check (t : Thread) (a : Label) (h : checkFresh t a = true) :
    FreshApproval t a := by
  intro hn hg
  rcases hn with hn | ⟨hn, -⟩ <;> simp [checkFresh, hn, hg] at h

/-- An incident with an approved proposal. -/
theorem fresh_approval_single_use_flushAll :
    ∃ n es t args d, (graph flushContext).Run FreshApproval n es t ∧
      .executor (.dispatch "flush_all" args d) ∈ es ∧ SingleUse es := by
  have hexec : (((graph flushContext).restrict checkFresh).exec sampleThread flushLabels).any
      (fun r => dispatchesAt 16 "flush_all" r.2) = true := by
    decide +kernel
  obtain ⟨t, es, hr, hc⟩ := Sys.exists_checked_run freshApproval_of_check sampleThread_initial hexec
  obtain ⟨args, d, hes⟩ := split_of_dispatchesAt hc
  have hm : .executor (.dispatch "flush_all" args d) ∈ (t, es).2 := by rw [hes]; simp
  exact ⟨_, es, t, args, d, hr, hm, fresh_approval_single_use hr⟩

/-! ## A grant that carries over -/

/-- The environment of an execution whose verification fails. -/
def unverifiedEnv (answer : Json) : NodeEnv :=
  { sampleEnv answer with
    handlers := { quietHandlers with verify := .returned (.bool false) }
    uncancelled := by constructor <;> simp [quietHandlers] }

/-- The log emits a proposal that requires approval at `i`, and calls the executor at `j`, without
an interrupt or a call in between. -/
def reusesAt (i j : Nat) (es : List Event) : Bool :=
  (match (es.take j)[i]?, es[j]? with
    | some (.proposed p), some (.executorCall _) => p.requiresApproval
    | _, _ => false) &&
  ((es.take j).drop (i + 1)).all fun
    | .interrupt _ | .executorCall _ => false
    | _ => true

theorem not_singleUse_of_reusesAt {i j : Nat} {es : List Event} (h : reusesAt i j es = true) :
    ¬ SingleUse es := by
  intro hs
  simp only [reusesAt, Bool.and_eq_true, List.all_eq_true] at h
  obtain ⟨hpos, hbetween⟩ := h
  split at hpos
  · rename_i p a hp ha
    have he : es = (es.take j).take i ++ .proposed p ::
        ((es.take j).drop (i + 1) ++ .executorCall a :: es.drop (j + 1)) := by
      rw [← List.cons_append, ← List.append_assoc, ← Sys.split_of_getElem? hp,
        ← Sys.split_of_getElem? ha]
    obtain ⟨payload, -, -, hg⟩ := hs.required _ _ _ _ _ he
      (fun b hb => by simpa using hbetween _ hb) hpos
    simpa using hbetween _ hg.interrupt
  · cases hpos

/-- The grant of a failed proposal passes the next one, without an interrupt. -/
theorem stale_grant_reused :
    ¬ ∀ (ctx : GraphContext) (n : Nat) (es : List Event) (t : Thread),
      (graph ctx).Run Sys.anyStep n es t → SingleUse es := by
  intro hall
  let second := sampleEnv (sampleAnswer "flush_all" 2 [("db", .int 1)])
  have hexec : ((graph flushContext).exec sampleThread
      (retryLabels (sampleEnv (sampleAnswer "flush_all" 2)) (unverifiedEnv .null) second
        second)).any
      (fun r => reusesAt 23 26 r.2) = true := by
    decide +kernel
  obtain ⟨t, es, hr, hc⟩ := Sys.exists_any_run sampleThread_initial hexec
  exact not_singleUse_of_reusesAt hc (hall _ _ es t hr)

end Core
end AutoSRE

import AutoSRE.Rivulet.EndToEnd

/-!
# One order for a request id

The requests with one idempotency key, in the runs in which a claim of the key has not expired when
the key is claimed again (`Prompt`).

- **The key** (`KeyHeld`). It holds the claim of the request that is between its claim and its end,
  and of the one that has published.
- **Orders** (`ordered_once_for`). The requests with the key have one order at most, over all
  retries, redeliveries and workers.
-/

namespace AutoSRE
namespace Rivulet

open Lib

section gateway

variable {ttl : ClaimTtl} {key : String} {g g' : Gateway} {a : CheckoutLabel}
  {es fs : List CheckoutEvent}

/-- The order of a request has the idempotency key. -/
def Gateway.Uses (g : Gateway) (r : Nat) (key : String) : Prop :=
  ∃ order, g.orders r = some order ∧ keyOf order.requestId = some key

/-- When a request claims the key, the claim that it finds there has not expired. -/
def Prompt (key : String) (g : Gateway) (a : CheckoutLabel) : Prop :=
  ∀ r reply error claim, a = .claim r reply error → g.Uses r key → g.keys key = some claim →
    g.now < claim.expiresAt

/-- Another step than a claim is prompt. -/
theorem prompt_of_not (h : a.isClaim = false) : Prompt key g a := by
  rintro r reply error claim rfl
  cases h

/-- The key holds the claim of the request. -/
def Gateway.HeldBy (g : Gateway) (key : String) (r : Nat) : Prop :=
  ∃ expiresAt, g.keys key = some ⟨r, expiresAt⟩

theorem Gateway.HeldBy.unique {r r' : Nat} (h : g.HeldBy key r) (h' : g.HeldBy key r') :
    r = r' := by
  obtain ⟨_, h⟩ := h
  obtain ⟨_, h'⟩ := h'
  exact (Claim.mk.inj (Option.some.inj (h.symm.trans h'))).1

/-- The key holds the claims of its requests that are in flight or have published. -/
structure KeyHeld (key : String) (es : List CheckoutEvent) (g : Gateway) : Prop where
  arrived : ∀ r, g.stage r ≠ .done → r < g.next
  ended : ∀ r appended claim, .published r appended claim ∈ es → r < g.next ∧ g.stage r = .done
  claimed : ∀ r, g.Uses r key → (g.stage r).claimed = true → g.HeldBy key r
  published : ∀ r appended claim, .published r appended claim ∈ es → g.Uses r key →
    g.HeldBy key r

/-- A request moves on, and the other requests with the key are as before. -/
theorem KeyHeld.goto {r : Nat} {keys : String → Option Claim} {stage : CheckoutStage}
    (h : KeyHeld key es g) (hpending : stage ≠ .done → g.stage r ≠ .done)
    (hfs : ∀ r' appended claim, .published r' appended claim ∈ fs →
      r' = r ∧ g.stage r ≠ .done ∧ stage = .done)
    (hr : g.Uses r key → (stage.claimed = true ∨ ∃ appended claim, .published r appended claim ∈ fs)
      → ({ g with keys } : Gateway).HeldBy key r)
    (hkeys : ∀ r', r' ≠ r ∨ (∃ appended claim, .published r' appended claim ∈ es) →
      g.Uses r' key → g.HeldBy key r' → ({ g with keys } : Gateway).HeldBy key r') :
    KeyHeld key (es ++ fs) ({ g with keys }.goto r stage) := by
  constructor
  case arrived =>
    intro r' hr'
    by_cases he : r' = r
    · subst he
      exact h.arrived r' (hpending (by simpa [Gateway.goto] using hr'))
    · exact h.arrived r' (by simpa [Gateway.goto, update_ne _ _ he] using hr')
  case ended =>
    intro r' appended claim hm
    rcases List.mem_append.mp hm with hm | hm
    · obtain ⟨hlt, hdone⟩ := h.ended r' appended claim hm
      refine ⟨hlt, ?_⟩
      by_cases he : r' = r
      · subst he
        have hstage : stage = .done := Classical.byContradiction fun hne => hpending hne hdone
        simp [Gateway.goto, hstage]
      · simpa [Gateway.goto, update_ne _ _ he] using hdone
    · obtain ⟨rfl, hne, rfl⟩ := hfs r' appended claim hm
      exact ⟨h.arrived r' hne, by simp [Gateway.goto]⟩
  case claimed =>
    intro r' hu hs
    by_cases he : r' = r
    · subst he
      exact hr hu (.inl (by simpa [Gateway.goto] using hs))
    · exact hkeys r' (.inl he) hu
        (h.claimed r' hu (by simpa [Gateway.goto, update_ne _ _ he] using hs))
  case published =>
    intro r' appended claim hm hu
    rcases List.mem_append.mp hm with hm | hm
    · exact hkeys r' (.inr ⟨appended, claim, hm⟩) hu (h.published r' appended claim hm hu)
    · obtain ⟨rfl, -⟩ := hfs r' appended claim hm
      exact hr hu (.inr ⟨appended, claim, hm⟩)

/-- Answers are no publications. -/
theorem Answers.not_published (h : Answers fs) {r : Nat} {appended : Bool} {claim : Option Nat} :
    .published r appended claim ∉ fs := by
  intro hm
  obtain ⟨_, _, he⟩ := h _ hm
  cases he

theorem keyHeld_step (h : KeyHeld key es g) (hc : Prompt key g a) (hw : GatewayWay ttl g a g' fs) :
    KeyHeld key (es ++ fs) g' := by
  cases hw with
  | ticks millis =>
    rw [List.append_nil]
    exact ⟨h.arrived, h.ended, h.claimed, h.published⟩
  | rejects error =>
    have hquiet := answers_one g.next (.error error)
    refine ⟨fun r hr => Nat.lt_succ_of_lt (h.arrived r hr), fun r appended claim hm => ?_,
      h.claimed, fun r appended claim hm => h.published r appended claim (hquiet.published hm)⟩
    obtain ⟨hlt, hdone⟩ := h.ended r appended claim (hquiet.published hm)
    exact ⟨Nat.lt_succ_of_lt hlt, hdone⟩
  | arrives order =>
    rw [List.append_nil]
    have huses : ∀ r, r ≠ g.next → Gateway.Uses { g with
        orders := update g.orders g.next (some order)
        stage := update g.stage g.next .claim
        next := g.next + 1 } r key → g.Uses r key := by
      rintro r hne ⟨order', ho, hk⟩
      exact ⟨order', by simpa [update_ne _ _ hne] using ho, hk⟩
    constructor
    case arrived =>
      intro r hr
      by_cases he : r = g.next
      · exact he ▸ Nat.lt_succ_self _
      · exact Nat.lt_succ_of_lt (h.arrived r (by simpa [update_ne _ _ he] using hr))
    case ended =>
      intro r appended claim hm
      obtain ⟨hlt, hdone⟩ := h.ended r appended claim hm
      exact ⟨Nat.lt_succ_of_lt hlt, (update_ne _ _ (Nat.ne_of_lt hlt)).trans hdone⟩
    case claimed =>
      intro r hu hs
      by_cases he : r = g.next
      · subst he
        simp [CheckoutStage.claimed] at hs
      · exact h.claimed r (huses r he hu) (by simpa [update_ne _ _ he] using hs)
    case published =>
      intro r appended claim hm hu
      exact h.published r appended claim hm
        (huses r (Nat.ne_of_lt (h.ended r appended claim hm).1) hu)
  | moves r stage fs hclaimed hpending hquiet =>
    refine h.goto hpending (fun r' appended claim hm => absurd hm hquiet.not_published)
      (fun hu hor => ?_) fun _ _ _ hk => hk
    rcases hor with hs | ⟨appended, claim, hm⟩
    · obtain ⟨order, ho, hkey⟩ := hu
      exact h.claimed r ⟨order, ho, hkey⟩ (hclaimed hs order key ho hkey)
    · exact absurd hm hquiet.not_published
  | claims r order key' reply error stage fs ha hr ho hk hl hs hquiet =>
    refine h.goto (fun _ => by simp [hs])
      (fun r' appended claim hm => absurd hm hquiet.not_published) (fun hu _ => ?_)
      fun r' _ _ hheld => ?_
    · obtain ⟨order', ho', hk'⟩ := hu
      obtain rfl := Option.some.inj (ho.symm.trans ho')
      obtain rfl := Option.some.inj (hk.symm.trans hk')
      exact ⟨_, Function.update_self ..⟩
    · obtain ⟨expiresAt, hkeys⟩ := hheld
      by_cases hkey : key = key'
      · -- The claim of the key has not expired, so that the request has not claimed it.
        subst hkey
        have hlt := hc r reply error _ ha ⟨order, ho, hk⟩ hkeys
        simp [Gateway.live, hkeys, hlt] at hl
      · exact ⟨expiresAt, (Function.update_of_ne hkey ..).trans hkeys⟩
  | publishes r order eventId payload appended result hs ho =>
    refine h.goto (fun hne => absurd rfl hne) (fun r' appended' claim hm => ?_)
      (fun hu _ => h.claimed r hu (by rw [hs]; rfl)) fun _ _ _ hk => hk
    obtain ⟨rfl, -⟩ : r' = r ∧ _ := by simpa using hm
    exact ⟨rfl, by simp [hs], rfl⟩
  | releases r order key' error hs ho hk =>
    refine h.goto (fun hne => absurd rfl hne) (by simp) (by simp [CheckoutStage.claimed])
      fun r' hor hu hheld => ?_
    by_cases hkey : key = key'
    · -- The key holds the claim of the request that releases it, which is no other one.
      subst hkey
      have hrr := hheld.unique (h.claimed r ⟨order, ho, hk⟩ (by rw [hs]; rfl))
      rcases hor with hne | ⟨appended, claim, hm⟩
      · exact absurd hrr hne
      · rw [hrr] at hm
        have hdone := (h.ended r appended claim hm).2
        rw [hs] at hdone
        cases hdone
    · obtain ⟨expiresAt, hkeys⟩ := hheld
      exact ⟨expiresAt, (Function.update_of_ne hkey ..).trans hkeys⟩

theorem keyHeld_run {n : Nat} (hr : (gateway ttl).Run (Prompt key) n es g) : KeyHeld key es g := by
  refine hr.inv (I := KeyHeld key) (fun g hi => ?_) fun n es g a g' fs _ h hc hs =>
    keyHeld_step h hc (gateway_step hs)
  refine ⟨fun r hr => absurd (hi.stage r) hr, by simp, fun r _ hs => ?_, by simp⟩
  rw [hi.stage r] at hs
  cases hs

end gateway

section orders

variable {ttl : ClaimTtl} {mapper : ObjectMapper} {db : Database} {p : Pipeline} {key : String}
  {es : List PipelineEvent} {n : Nat}

/-- When a request claims the key, the claim that it finds there has not expired
(`Rivulet.Prompt`). -/
def Pipeline.Prompt (key : String) (p : Pipeline) (a : PipelineLabel) : Prop :=
  ∀ r reply error, a = .claim r reply error →
    Rivulet.Prompt key p.gateway (.claim r reply error)

/-- A request with the key has appended the event, and a worker has ordered it. -/
def OrderedFor (es : List PipelineEvent) (p : Pipeline) (key : String) (d : Nat)
    (event : OrderEvent) : Prop :=
  .worker (.committed d event) ∈ es ∧
    ∃ r claim, .appended r event claim ∈ es ∧ p.gateway.Uses r key

/-- The requests with the key append one event at most. -/
theorem appended_once_for (hr : (pipeline ttl mapper db).Run (Pipeline.Prompt key) n es p)
    {r r' : Nat} {event event' : OrderEvent} {claim claim' : Option Nat}
    (h : .appended r event claim ∈ es) (hu : p.gateway.Uses r key)
    (h' : .appended r' event' claim' ∈ es) (hu' : p.gateway.Uses r' key) :
    r = r' ∧ event = event' := by
  have hp := piped hr
  obtain ⟨m, hm⟩ := (pipeline_gateway (D := Prompt key) (fun _ _ => prompt_of_not)
    fun _ r reply error h => h r reply error rfl).run hr
  have hheld := keyHeld_run hm
  have hpub := mem_checkoutLog.mpr (hp.appended r event claim h).2.2.1
  have hpub' := mem_checkoutLog.mpr (hp.appended r' event' claim' h').2.2.1
  obtain rfl := (hheld.published r true claim hpub hu).unique
    (hheld.published r' true claim' hpub' hu')
  exact ⟨rfl, (hp.single r event claim event' claim' h h').1⟩

/-- The orders of one event are one. -/
theorem committed_once {C : Pipeline → PipelineLabel → Prop}
    (hr : (pipeline ttl mapper db).Run C n es p) {d d' : Nat} {event : OrderEvent}
    (h : .worker (.committed d event) ∈ es) (h' : .worker (.committed d' event) ∈ es) :
    d = d' := by
  obtain ⟨m, hm⟩ := logged_worker hr
  have hmem : ∀ d, .worker (.committed d event) ∈ es → (d, event) ∈ commits (workerLog es) :=
    fun d hd => List.mem_filterMap.mpr ⟨_, mem_workerLog.mpr hd, rfl⟩
  exact congrArg Prod.fst
    (List.inj_on_of_nodup_map (orderedIds_nodup hm) (hmem d h) (hmem d' h') rfl)

/-- The requests with the key have one order at most, when no claim of the key expires before the
key is claimed again. -/
theorem ordered_once_for (hr : (pipeline ttl mapper db).Run (Pipeline.Prompt key) n es p)
    {d d' : Nat} {event event' : OrderEvent} (h : OrderedFor es p key d event)
    (h' : OrderedFor es p key d' event') : d = d' ∧ event = event' := by
  obtain ⟨hc, r, claim, ha, hu⟩ := h
  obtain ⟨hc', r', claim', ha', hu'⟩ := h'
  obtain ⟨-, rfl⟩ := appended_once_for hr ha hu ha' hu'
  exact ⟨committed_once hr hc hc', rfl⟩

end orders

end Rivulet
end AutoSRE

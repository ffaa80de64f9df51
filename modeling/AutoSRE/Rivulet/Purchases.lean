import AutoSRE.Rivulet.Storefront

/-!
# Purchases

What the tabs of a shop buy, after every run of the storefront.

- **Requests** (`Carried`). What the gateway has of the tabs is the order of a submission, and what
  it has accepted is appended.
- **Shown** (`bought_as_shown`). The retries of a form are the same submission, and the receipts and
  the orders are those of the submissions.
- **Once** (`bought_once`). The submissions of a request id have one order at most, over all
  retries, lost replies, redeliveries and workers.
-/

namespace AutoSRE
namespace Rivulet

open Lib

/-! ## What the gateway has of the tabs -/

section carried

variable {ttl : ClaimTtl} {mapper : ObjectMapper} {db : Database} {s s' : Storefront}
  {a : StoreLabel} {C : Storefront → StoreLabel → Prop} {es fs : List StoreEvent} {n : Nat}

/-- What the pipeline has logged. -/
def pipelineLog (es : List StoreEvent) : List PipelineEvent := es.filterMap StoreEvent.atPipeline

@[simp] theorem pipelineLog_map (gs : List PipelineEvent) :
    (gs.map StoreEvent.pipeline).filterMap StoreEvent.atPipeline = gs := by
  simp [StoreEvent.atPipeline, Function.comp_def]

theorem mem_pipelineLog {e : PipelineEvent} : e ∈ pipelineLog es ↔ .pipeline e ∈ es := by
  simp only [pipelineLog, List.mem_filterMap]
  constructor
  · rintro ⟨x, hx, he⟩
    cases x <;> simp_all [StoreEvent.atPipeline]
  · exact fun h => ⟨_, h, rfl⟩

/-- A run of the storefront is a run of the pipeline. -/
theorem storefront_pipeline {D : Pipeline → PipelineLabel → Prop}
    (harrive : ∀ p request, D p (.arrive request))
    (hwork : ∀ s b, C s (.pipeline b) → D s.pipeline b) :
    Refines (storefront ttl mapper db) C (pipeline ttl mapper db) D (·.pipeline)
      StoreEvent.atPipeline := by
  refine ⟨fun s h => h.pipeline, fun s a s' fs hc h => ?_⟩
  simp only [storefront] at h
  cases a with
  | edit | reload =>
    obtain ⟨rfl, rfl⟩ := Prod.mk.inj (Option.some.inj h)
    exact .inl ⟨rfl, rfl⟩
  | regenerate t user =>
    simp only [stepStorefront] at h
    split at h
    · cases h
    · obtain ⟨rfl, rfl⟩ := Prod.mk.inj (Option.some.inj h)
      exact .inl ⟨rfl, rfl⟩
  | submit t id =>
    simp only [stepStorefront, Storefront.submit] at h
    repeat' split at h
    all_goals cases h
    all_goals exact .inl ⟨rfl, rfl⟩
  | deliver i =>
    simp only [stepStorefront] at h
    repeat' split at h
    · cases h
    · cases h
      exact .inl ⟨rfl, rfl⟩
    · cases h
      exact .inl ⟨rfl, rfl⟩
    · obtain ⟨p, gs, hs, rfl, rfl⟩ := atPipeline_some h
      exact .inr ⟨_, harrive _ _, by rw [pipelineLog_map]; exact hs⟩
  | respond t r =>
    simp only [stepStorefront, Storefront.accept] at h
    repeat' split at h
    all_goals cases h
    all_goals exact .inl ⟨rfl, rfl⟩
  | fail t message =>
    simp only [stepStorefront] at h
    split at h
    · cases h
      exact .inl ⟨rfl, rfl⟩
    · cases h
  | pipeline b =>
    obtain ⟨p, gs, hs, rfl, rfl⟩ := atPipeline_some h
    exact .inr ⟨b, hwork s b hc, by rw [pipelineLog_map]; exact hs⟩

theorem piped_storefront (hr : (storefront ttl mapper db).Run C n es s) :
    ∃ m, (pipeline ttl mapper db).Run Sys.anyStep m (pipelineLog es) s.pipeline :=
  (storefront_pipeline (fun _ _ => trivial) fun _ _ _ => trivial).run hr

/-- The requests that the gateway has of the tabs, and those that it has accepted. -/
structure Carried (es : List StoreEvent) (s : Storefront) : Prop where
  orders : ∀ r i, s.carried r = some i → r < s.pipeline.gateway.next ∧
    ∃ submission, s.sent[i]? = some submission ∧
      ∀ order, s.pipeline.gateway.orders r = some order → submission.Orders order
  accepted : ∀ r eventId, (r, eventId) ∈ s.accepted → ∃ event claim,
    .pipeline (.appended r event claim) ∈ es ∧ event.eventId = eventId

/-- The tabs change, and more is sent. -/
theorem Carried.others (h : Carried es s) (hpipeline : s'.pipeline = s.pipeline)
    (hcarried : s'.carried = s.carried) (haccepted : s'.accepted = s.accepted)
    (hsent : ∀ (i : Nat) (x : Submission), s.sent[i]? = some x → s'.sent[i]? = some x)
    (fs : List StoreEvent) :
    Carried (es ++ fs) s' := by
  refine ⟨fun r i hr => ?_, fun r eventId hm => ?_⟩
  · rw [hpipeline]
    obtain ⟨hlt, submission, hi, ho⟩ := h.orders r i (hcarried ▸ hr)
    exact ⟨hlt, submission, hsent i submission hi, ho⟩
  · obtain ⟨event, claim, ha, he⟩ := h.accepted r eventId (haccepted ▸ hm)
    exact ⟨event, claim, List.mem_append_left _ ha, he⟩

/-- A step of the pipeline accepts requests whose events are appended. -/
theorem Carried.acceptances (h : Carried es s) {p : Pipeline} {b : PipelineLabel}
    {gs : List PipelineEvent} (hw : PipelineWay mapper s.pipeline b p gs) {r : Nat}
    {eventId : String}
    (hm : (r, eventId) ∈ s.accepted ++ Rivulet.acceptances gs) : ∃ event claim,
      .pipeline (.appended r event claim) ∈ es ++ gs.map .pipeline ∧ event.eventId = eventId := by
  rcases List.mem_append.mp hm with hm | hm
  · obtain ⟨event, claim, ha, he⟩ := h.accepted r eventId hm
    exact ⟨event, claim, List.mem_append_left _ ha, he⟩
  · obtain ⟨event, claim, ha, he⟩ := appended_of_acceptance hw hm
    exact ⟨event, claim, List.mem_append_right _ (List.mem_map_of_mem ha), he⟩

/-- What is sent and what is carried stays. -/
theorem StoreWay.grows (hw : StoreWay ttl mapper s a s' fs) (h : Carried es s) :
    (∀ (i : Nat) (x : Submission), s.sent[i]? = some x → s'.sent[i]? = some x) ∧
      ∀ r i, s.carried r = some i → s'.carried r = some i := by
  cases hw with
  | submits t submission =>
    refine ⟨fun i x hi => ?_, fun _ _ hr => hr⟩
    exact List.getElem?_append_left (List.getElem?_eq_some_iff.mp hi).1 ▸ hi
  | delivers i =>
    refine ⟨fun _ _ hi => hi, fun r j hr => ?_⟩
    exact (update_ne _ _ (Nat.ne_of_lt (h.orders r j hr).1)).trans hr
  | _ => exact ⟨fun _ _ hi => hi, fun _ _ hr => hr⟩

theorem carried_step (db : Database) (h : Carried es s)
    (hp : Piped mapper (pipelineLog es) s.pipeline) (hw : StoreWay ttl mapper s a s' fs) :
    Carried (es ++ fs) s' := by
  have hsent := (hw.grows h).1
  cases hw with
  | renews | keeps | submits | shows | idles =>
    refine h.others ?_ ?_ ?_ hsent _ <;> rfl
  | works b p gs _ hs =>
    have hway : PipelineWay mapper s.pipeline b p gs :=
      pipeline_step (show (pipeline ttl mapper db).step s.pipeline b = some (p, gs) from hs)
    obtain ⟨hle, hold⟩ := orders_step hway
    refine ⟨fun r i hr => ?_, fun r eventId hm => h.acceptances hway hm⟩
    obtain ⟨hlt, submission, hi, ho⟩ := h.orders r i hr
    exact ⟨hlt.trans_le hle, submission, hi, fun order horder => ho order (hold r hlt ▸ horder)⟩
  | delivers i submission request p gs hi hread hs =>
    have hway : PipelineWay mapper s.pipeline (.arrive request) p gs := pipeline_step
      (show (pipeline ttl mapper db).step s.pipeline (.arrive request) = some (p, gs) from hs)
    obtain ⟨hle, hold⟩ := orders_step hway
    have hnone : s.pipeline.gateway.orders s.pipeline.gateway.next = none := by
      rw [Option.eq_none_iff_forall_ne_some]
      exact fun order ho => (lt_irrefl _ (hp.ordered _ order ho).1)
    obtain ⟨hnext, horder⟩ := arrive_order hnone hs
    refine ⟨fun r j hr => ?_, fun r eventId hm => h.acceptances hway hm⟩
    by_cases he : r = s.pipeline.gateway.next
    · subst he
      obtain rfl : i = j := by simpa [Storefront.piped] using hr
      refine ⟨by simp [Storefront.piped, hnext], submission, hi, fun order ho => ?_⟩
      exact orders_of_read hread (horder order ho)
    · simp only [Storefront.piped, update_ne _ _ he] at hr
      obtain ⟨hlt, submission', hj, ho⟩ := h.orders r j hr
      exact ⟨hlt.trans_le hle, submission', hj, fun order ho' => ho order (hold r hlt ▸ ho')⟩

theorem carried (hr : (storefront ttl mapper db).Run C n es s) : Carried es s := by
  refine hr.inv (I := Carried) (fun s hi => ?_) fun n es s a s' fs hr h _ hs => ?_
  · refine ⟨fun r i hr => ?_, fun r eventId hm => ?_⟩
    · rw [hi.carried r] at hr
      cases hr
    · simp [hi.accepted] at hm
  · obtain ⟨m, hm⟩ := piped_storefront hr
    exact carried_step db h (piped hm) (store_step (formed hr).uuids hs)

/-- The event is that of the submission. -/
structure Submission.Makes (submission : Submission) (event : OrderEvent) : Prop where
  userId : event.userId = submission.userId.map Char.toLower
  sku : event.sku = submission.sku
  quantity : event.quantity = submission.quantity

/-- What a request of a tab has appended is the event of its submission. -/
theorem Carried.makes (h : Carried es s) (hp : Piped mapper (pipelineLog es) s.pipeline)
    {r i : Nat} {event : OrderEvent} {claim : Option Nat}
    (ha : .pipeline (.appended r event claim) ∈ es) (hr : s.carried r = some i) :
    ∃ submission, s.sent[i]? = some submission ∧ submission.Makes event := by
  obtain ⟨-, -, -, order, u, ho, rfl⟩ := hp.appended r event claim (mem_pipelineLog.mpr ha)
  obtain ⟨-, submission, hi, horder⟩ := h.orders r i hr
  obtain ⟨huser, hsku, hquantity, -⟩ := horder order ho
  exact ⟨submission, hi, huser, hsku, hquantity⟩

/-- A worker has ordered an event that a request of the submission has appended. -/
def OrderOf (es : List StoreEvent) (s : Storefront) (i d : Nat) (event : OrderEvent) : Prop :=
  .pipeline (.worker (.committed d event)) ∈ es ∧
    ∃ r claim, .pipeline (.appended r event claim) ∈ es ∧ s.carried r = some i

/-- When a request claims the key of the request id, the claim that it finds there has not
expired. -/
def Timely (id : String) (s : Storefront) (a : StoreLabel) : Prop :=
  ∀ b, a = .pipeline b → Pipeline.Prompt ("idempotency:" ++ id) s.pipeline b

/-- The key of a UUID. -/
theorem keyOf_uuid (u : Uuid) :
    keyOf (some (Uuid.text u)) = some ("idempotency:" ++ Uuid.text u) := by
  have h : ∀ m < 16, isWhitespace (Nat.digitChar m) = false := by decide
  have hblank : isBlank (Uuid.text u) = false := by
    have hhead : isWhitespace (Uuid.digit u 0) = false := h _ (Nat.mod_lt _ (by decide))
    simp [isBlank, Uuid.text, Uuid.chars, Uuid.group, List.range_succ, hhead]
  simp [keyOf, hblank]

end carried

/-! ### Two purchases -/

def newStorefront (db : Database) : Storefront where
  pipeline := newPipeline db
  tabs _ := .opened 1
  drawn := []
  sent := []
  carried _ := none
  accepted := []

theorem newStorefront_new (db : Database) : NewStorefront db (newStorefront db) :=
  ⟨newPipeline_new db, fun _ => ⟨1, rfl⟩, rfl, rfl, fun _ => rfl, rfl⟩

/-- The order of a tab for some mice. -/
def tabMice (quantity : Nat) (h : 0 < quantity) : Order where
  userId := Uuid.text 1
  sku := "mouse"
  quantity
  requestId := none
  quantity_pos := Int.natCast_pos.mpr h

/-- Two mice are sent twice, since the gateway is late, and then one more is bought. -/
def buyMice : List StoreLabel :=
  [.edit 0 (.sku "mouse"), .edit 0 (.quantity "2"), .submit 0 7, .deliver 0,
    .pipeline (.claim 0 .ok ""),
    .pipeline (.check 0 none 7 (eventEntries (tabMice 2 (Nat.succ_pos 1)) 7)),
    .pipeline (.publish 0 .lost "timeout" "traceparent" ""), .fail 0 "timeout", .submit 0 8,
    .deliver 1, .pipeline (.claim 1 .ok ""), .fail 0 "Duplicate request",
    .edit 0 (.quantity "1"), .submit 0 9, .deliver 2, .pipeline (.claim 2 .ok ""),
    .pipeline (.check 2 none 8 (eventEntries (tabMice 1 (Nat.succ_pos 0)) 8)),
    .pipeline (.publish 2 .ok "" "traceparent" ""), .respond 0 2] ++
  (Label.read "worker-a" :: smooth 7 0).map fun b => .pipeline (.work b)

/-- No key holds a claim that has expired when it is claimed. -/
def checkTimely (s : Storefront) : StoreLabel → Bool
  | .pipeline (.claim r _ _) =>
    match (s.pipeline.gateway.orders r).bind fun order => keyOf order.requestId with
    | some key => (s.pipeline.gateway.keys key).all fun claim =>
        decide (s.pipeline.gateway.now < claim.expiresAt)
    | none => true
  | _ => true

theorem timely_of_check {id : String} {s : Storefront} {a : StoreLabel}
    (h : checkTimely s a = true) : Timely id s a := by
  rintro b rfl r reply error rfl r' reply' error' claim he ⟨order, ho, hk⟩ hclaim
  obtain ⟨rfl, -, -⟩ := CheckoutLabel.claim.inj he
  simp only [checkTimely, ho, Option.bind_some, hk, hclaim, Option.all_some,
    decide_eq_true_eq] at h
  exact h

/-- The two mice are ordered, and there is a receipt for the other one. -/
def buysMice (r : Storefront × List StoreEvent) : Bool :=
  (r.1.carried 0 == some 0) && (r.1.sent[0]?.any fun x => x.requestId == Uuid.text 7) &&
    r.2.any fun e =>
      match e with
      | .pipeline (.appended 0 event _) =>
        r.2.any (fun e' =>
          match e' with
          | .pipeline (.worker (.committed 0 event')) => event' == event
          | _ => false) &&
        r.2.any fun e' =>
          match e' with
          | .receipt 0 2 _ => true
          | _ => false
      | _ => false

theorem buyMice_exec : (((storefront defaultTtl plainMapper (shop 3)).restrict checkTimely).exec
    (newStorefront (shop 3)) buyMice).any buysMice = true := by
  decide +kernel

theorem exists_buyMice (id : String) : ∃ n es s,
    (storefront defaultTtl plainMapper (shop 3)).Run (Timely id) n es s ∧
      buysMice (s, es) = true := by
  obtain ⟨s, es, hr, hc⟩ := Sys.exists_checked_run (C := Timely id)
    (fun _ _ h => timely_of_check h) (newStorefront_new (shop 3)) buyMice_exec
  exact ⟨_, es, s, hr, hc⟩

theorem order_of_buysMice {s : Storefront} {es : List StoreEvent} (h : buysMice (s, es) = true) :
    ∃ x event, s.sent[0]? = some x ∧ x.requestId = Uuid.text 7 ∧ OrderOf es s 0 0 event := by
  simp only [buysMice, Bool.and_eq_true, beq_iff_eq] at h
  obtain ⟨⟨hcarried, hsent⟩, hany⟩ := h
  obtain ⟨x, hx, hid⟩ := (Option.any_eq_true _ _).mp hsent
  obtain ⟨e, hm, he⟩ := List.any_eq_true.mp hany
  split at he
  · rename_i event claim
    obtain ⟨e', hm', he'⟩ := List.any_eq_true.mp (Bool.and_eq_true_iff.mp he).1
    split at he'
    · rename_i event'
      obtain rfl := eq_of_beq he'
      exact ⟨x, event', hx, eq_of_beq hid, hm', 0, claim, hm, hcarried⟩
    · cases he'
  · cases he

/-! ## What is bought -/

section bought

variable {ttl : ClaimTtl} {mapper : ObjectMapper} {db : Database} {s s' : Storefront}
  {a : StoreLabel} {C : Storefront → StoreLabel → Prop} {es fs : List StoreEvent} {n : Nat}

/-- What the tabs show is what is ordered. -/
structure AsShown (es : List StoreEvent) (s : Storefront) : Prop where
  /-- A form that is not renewed is sent again as the same submission. -/
  retried : ∀ pre t i mid j post,
    es = (pre ++ .submitted t i :: mid) ++ .submitted t j :: post →
    (∀ e ∈ mid, e.renews t = false) →
    ∃ submission, s.sent[i]? = some submission ∧ s.sent[j]? = some submission
  /-- A receipt names an event of the submission that was appended before. -/
  receipt : ∀ pre t i eventId post, es = pre ++ .receipt t i eventId :: post →
    ∃ r event claim submission, .pipeline (.appended r event claim) ∈ pre ∧
      event.eventId = eventId ∧ s.sent[i]? = some submission ∧ submission.Makes event
  ordered : ∀ i d event, OrderOf es s i d event →
    ∃ submission, s.sent[i]? = some submission ∧ submission.Makes event

theorem retried_alike (hr : (storefront ttl mapper db).Run C n es s) : ∀ pre t i mid j post,
    es = (pre ++ .submitted t i :: mid) ++ .submitted t j :: post →
    (∀ e ∈ mid, e.renews t = false) →
    ∃ submission, s.sent[i]? = some submission ∧ s.sent[j]? = some submission := by
  refine hr.inv (I := fun es s => ∀ pre t i mid j post,
    es = (pre ++ .submitted t i :: mid) ++ .submitted t j :: post →
    (∀ e ∈ mid, e.renews t = false) →
    ∃ submission, s.sent[i]? = some submission ∧ s.sent[j]? = some submission)
    (fun _ _ => by simp) fun n es s a s' fs hr ih _ hs pre t i mid j post he hmid => ?_
  have hf := formed hr
  have hw := store_step hf.uuids hs
  have hsent := (hw.grows (carried hr)).1
  rcases Sys.split_append he with ⟨post', hes, -⟩ | ⟨fs₁, hfs, hpre⟩
  · obtain ⟨submission, hi, hj⟩ := ih pre t i mid j post' hes hmid
    exact ⟨submission, hsent i _ hi, hsent j _ hj⟩
  · have hm : .submitted t j ∈ fs := by simp [hfs]
    cases hw with
    | submits t' submission tab hid =>
      obtain ⟨rfl, rfl⟩ : t = t' ∧ j = s.sent.length := by simpa using hm
      obtain rfl : fs₁ = [] := by
        have := congrArg List.length hfs
        simp only [List.length_append, List.length_cons, List.length_nil] at this
        exact List.eq_nil_of_length_eq_zero (by omega)
      rw [List.append_nil] at hpre
      -- The form has still the request id of the first submission.
      obtain ⟨x, hi, hr⟩ := hf.kept pre t i mid hpre.symm hmid
      rcases hid with hid | ⟨hnone, -⟩
      · have hx : x ∈ s.sent ++ [submission] :=
          List.mem_append_left _ (List.mem_of_getElem? hi)
        have hsame := (formed_step hf (store_step hf.uuids hs)).alike x hx submission
          (by simp [Storefront.setTab]) (Option.some.inj (hr.symm.trans hid))
        exact ⟨x, hsent i x hi, by simp [Storefront.setTab, hsame]⟩
      · rw [hnone] at hr
        cases hr
    | keeps _ _ _ _ _ _ hfs' =>
      obtain ⟨_, he⟩ := hfs' _ hm
      cases he
    | _ => simp at hm

theorem receipts_appended (hr : (storefront ttl mapper db).Run C n es s) :
    ∀ pre t i eventId post, es = pre ++ .receipt t i eventId :: post →
      ∃ r event claim submission, .pipeline (.appended r event claim) ∈ pre ∧
        event.eventId = eventId ∧ s.sent[i]? = some submission ∧ submission.Makes event := by
  refine hr.inv (I := fun es s => ∀ pre t i eventId post,
    es = pre ++ .receipt t i eventId :: post →
      ∃ r event claim submission, .pipeline (.appended r event claim) ∈ pre ∧
        event.eventId = eventId ∧ s.sent[i]? = some submission ∧ submission.Makes event)
    (fun _ _ => by simp) fun n es s a s' fs hr ih _ hs pre t i eventId post he => ?_
  have hc := carried hr
  have hw := store_step (formed hr).uuids hs
  have hsent := (hw.grows hc).1
  rcases Sys.split_append he with ⟨post', hes, -⟩ | ⟨fs₁, hfs, hpre⟩
  · obtain ⟨r, event, claim, submission, ha, he, hi, hmakes⟩ := ih pre t i eventId post' hes
    exact ⟨r, event, claim, submission, ha, he, hsent i _ hi, hmakes⟩
  · have hm : .receipt t i eventId ∈ fs := by simp [hfs]
    cases hw with
    | shows t' i' r eventId' tab _ hcarried haccepted =>
      obtain ⟨-, rfl, rfl⟩ : t = t' ∧ i = i' ∧ eventId = eventId' := by simpa using hm
      obtain ⟨event, claim, ha, he⟩ := hc.accepted r eventId haccepted
      obtain ⟨m, hm'⟩ := piped_storefront hr
      obtain ⟨submission, hi, hmakes⟩ := hc.makes (piped hm') ha hcarried
      exact ⟨r, event, claim, submission, by simp [hpre, ha], he, hi, hmakes⟩
    | keeps _ _ _ _ _ _ hfs' =>
      obtain ⟨_, he⟩ := hfs' _ hm
      cases he
    | _ => simp at hm

/-- The retries of a form are one submission, and the receipts and the orders are those of the
submissions. -/
theorem bought_as_shown (hr : (storefront ttl mapper db).Run C n es s) : AsShown es s := by
  refine ⟨retried_alike hr, receipts_appended hr, fun i d event h => ?_⟩
  obtain ⟨-, r, claim, ha, hcarried⟩ := h
  obtain ⟨m, hm⟩ := piped_storefront hr
  exact (carried hr).makes (piped hm) ha hcarried

theorem bought_as_shown_mice : ∃ n es s,
    (storefront defaultTtl plainMapper (shop 3)).Run Sys.anyStep n es s ∧
    buysMice (s, es) = true ∧ AsShown es s := by
  obtain ⟨n, es, s, hr, hc⟩ := exists_buyMice (Uuid.text 7)
  exact ⟨n, es, s, hr.any, hc, bought_as_shown hr⟩

/-- The submissions of a request id have one order at most, when no claim of the id expires before
it is claimed again. -/
theorem bought_once {id : String} (hr : (storefront ttl mapper db).Run (Timely id) n es s)
    {i j d d' : Nat} {event event' : OrderEvent} {x y : Submission} (hx : s.sent[i]? = some x)
    (hy : s.sent[j]? = some y) (hxid : x.requestId = id) (hyid : y.requestId = id)
    (h : OrderOf es s i d event) (h' : OrderOf es s j d' event') : d = d' ∧ event = event' := by
  obtain ⟨m, hm⟩ := (storefront_pipeline (D := Pipeline.Prompt ("idempotency:" ++ id))
    (fun p request r reply error ha => by cases ha) fun s b hc => hc b rfl).run hr
  have hf := formed hr
  have hc := carried hr
  obtain ⟨u, hu⟩ := hf.ids x.requestId (hf.sent x (List.mem_of_getElem? hx))
  have huses : ∀ {i r : Nat} {z : Submission} {event claim}, s.sent[i]? = some z →
      z.requestId = id → .pipeline (.appended r event claim) ∈ es → s.carried r = some i →
      s.pipeline.gateway.Uses r ("idempotency:" ++ id) := by
    intro i r z event claim hz hzid ha hcarried
    obtain ⟨-, -, -, order, -, ho, -⟩ :=
      (piped hm).appended r event claim (mem_pipelineLog.mpr ha)
    obtain ⟨-, z', hz', horder⟩ := hc.orders r i hcarried
    obtain rfl := Option.some.inj (hz.symm.trans hz')
    refine ⟨order, ho, ?_⟩
    rw [(horder order ho).requestId, hzid, ← hxid, hu, keyOf_uuid]
  have hordered : ∀ {i d : Nat} {z : Submission} {event}, s.sent[i]? = some z → z.requestId = id →
      OrderOf es s i d event →
      OrderedFor (pipelineLog es) s.pipeline ("idempotency:" ++ id) d event := by
    rintro i d z event hz hzid ⟨hcommitted, r, claim, ha, hcarried⟩
    exact ⟨mem_pipelineLog.mpr hcommitted, r, claim, mem_pipelineLog.mpr ha,
      huses hz hzid ha hcarried⟩
  exact ordered_once_for hm (hordered hx hxid h) (hordered hy hyid h')

theorem bought_once_mice : ∃ es s d event x, s.sent[0]? = some x ∧ OrderOf es s 0 d event ∧
    ∀ j d' event' y, s.sent[j]? = some y → y.requestId = x.requestId →
      OrderOf es s j d' event' → d = d' ∧ event = event' := by
  obtain ⟨n, es, s, hr, hc⟩ := exists_buyMice (Uuid.text 7)
  obtain ⟨x, event, hx, hid, ho⟩ := order_of_buysMice hc
  exact ⟨es, s, 0, event, x, hx, ho, fun j d' event' y hy he ho' =>
    bought_once hr hx hy hid (he.trans hid) ho ho'⟩

end bought

end Rivulet
end AutoSRE

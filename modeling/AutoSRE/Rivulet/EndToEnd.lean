import AutoSRE.Rivulet.ExactlyOnce
import AutoSRE.Rivulet.Pipeline
import Mathlib.Data.List.Nodup

/-!
# From the checkout to the order, end to end

What holds of the gateway and the workers together, after every run of the pipeline.

- **The stream** (`Piped`). Every entry is what one request has appended, and the workers read it as
  the event of the request's order.
- **Orders** (`Booked`, `EndToEnd`). An order that is committed was appended before, by a request
  with the order of the event; no event is ordered twice, and the stock is what the orders leave of
  it (`booked_run`). When the requests draw different ids there is no other request of the event
  (`end_to_end`). Under one claim there is at most one order (`ordered_once`).
- **Published events** (`Kept`). None is malformed: a delivery that is dropped carries an event that
  the stock did not cover, and one that is dead-lettered was delivered too often
  (`published_kept`).
-/

namespace AutoSRE
namespace Rivulet

open Lib

section stream

variable {ttl : ClaimTtl} {mapper : ObjectMapper} {db : Database} {p p' : Pipeline}
  {a : PipelineLabel} {C : Pipeline → PipelineLabel → Prop} {es fs : List PipelineEvent}

/-! ## What is on the stream -/

/-- Only a producer adds entries. -/
theorem entries_of_step {w w' : World} {b : Label} {gs : List Event} (h : Stepped w b w' gs)
    (hb : ∀ payload, b ≠ .append payload) : w'.entries = w.entries := by
  cases h with
  | appends payload => exact absurd rfl (hb payload)
  | reads | claims => rfl
  | advances _ ha => exact ha.moved.entries
  | crashes d => exact (moved_abort w d _).entries

/-- The workers read what the gateway publishes for an order as the event of the order. -/
theorem event_of_published {request : CheckoutRequest} {order : Order} {eventId : Uuid}
    {entries : List (String × FieldValue)} {payload traceparent tracestate : String}
    {fields : List (String × String)} (hv : request.validate = .ok order)
    (hint : request.quantity ≤ maxInt4) (hperm : entries.Perm (eventEntries order eventId))
    (hw : mapper.writeValueAsString entries = some payload)
    (hf : streamFields traceparent tracestate payload = .ok fields) :
    (extractPayload fields).event = some (order.event (Uuid.text eventId)) := by
  obtain ⟨-, -, -, hq⟩ := validate_ok hv
  have hread : JsonText.read [] payload.toList = some (entriesDoc entries) := by
    have hblank : JsonText.Blank [] := fun c hc => absurd hc List.not_mem_nil
    simpa using JsonText.read_of_denotes [] hblank (mapper.standard _ _ hw) hblank
  have hpayload : fields.lookup "payload" = some payload := by
    unfold streamFields at hf
    split at hf
    · cases hf
    · split at hf
      · cases hf
      · obtain rfl := Except.ok.inj hf
        rfl
  have hdecode : decodeEvent (goValue (entriesDoc entries)) =
      .ok (order.event (Uuid.text eventId)) := by
    rw [decodeEvent, unmarshal_entries order eventId (hq ▸ hint) hperm]
    simp only [validate_orderEvent hv eventId]
    rfl
  simp only [extractPayload, hpayload, hread, Payload.event, hdecode, Except.toOption]

/-- The requests and the stream after a log. -/
structure Piped (mapper : ObjectMapper) (es : List PipelineEvent) (p : Pipeline) : Prop where
  arrived : ∀ r, p.gateway.stage r ≠ .done → r < p.gateway.next
  ordered : ∀ r order, p.gateway.orders r = some order → r < p.gateway.next ∧
    ∃ request : IntRequest, request.request.validate = .ok order
  prepared : ∀ r eventId payload, p.gateway.stage r = .publish eventId payload →
    ∀ order, p.gateway.orders r = some order → ∃ u entries, eventId = Uuid.text u ∧
      entries.Perm (eventEntries order u) ∧ mapper.writeValueAsString entries = some payload
  appended : ∀ r event claim, .appended r event claim ∈ es → r < p.gateway.next ∧
    p.gateway.stage r = .done ∧ .gateway (.published r true claim) ∈ es ∧
    ∃ order u, p.gateway.orders r = some order ∧ event = order.event (Uuid.text u)
  single : ∀ r event claim event' claim', .appended r event claim ∈ es →
    .appended r event' claim' ∈ es → event = event' ∧ claim = claim'
  stream : ∀ payload ∈ p.world.entries, ∃ r event claim, .appended r event claim ∈ es ∧
    payload.event = some event

theorem appended_of_worker {r : Nat} {event : OrderEvent} {claim : Option Nat}
    {gs : List Event} (h : .appended r event claim ∈ es ++ gs.map .worker) :
    .appended r event claim ∈ es := by
  rcases List.mem_append.mp h with h | h
  · exact h
  · simp at h

/-- A step of a request that appends nothing. -/
theorem Piped.quiet (h : Piped mapper es p) {g' : Gateway}
    (hfs : ∀ r event claim, .appended r event claim ∉ fs) (hnext : p.gateway.next ≤ g'.next)
    (harrived : ∀ r, g'.stage r ≠ .done → r < g'.next)
    (hordered : ∀ r order, g'.orders r = some order → r < g'.next ∧
      ∃ request : IntRequest, request.request.validate = .ok order)
    (hprepared : ∀ r eventId payload, g'.stage r = .publish eventId payload →
      ∀ order, g'.orders r = some order → ∃ u entries, eventId = Uuid.text u ∧
        entries.Perm (eventEntries order u) ∧ mapper.writeValueAsString entries = some payload)
    (hold : ∀ r, r < p.gateway.next → g'.orders r = p.gateway.orders r ∧
      (p.gateway.stage r = .done → g'.stage r = .done)) :
    Piped mapper (es ++ fs) { p with gateway := g' } := by
  have hmem : ∀ r event claim, .appended r event claim ∈ es ++ fs → .appended r event claim ∈ es :=
    fun r event claim hm => (List.mem_append.mp hm).resolve_right (hfs r event claim)
  refine ⟨harrived, hordered, hprepared, fun r event claim hm => ?_,
    fun r event claim event' claim' hm hm' =>
      h.single r event claim event' claim' (hmem _ _ _ hm) (hmem _ _ _ hm'), fun payload hp => ?_⟩
  · obtain ⟨hlt, hdone, hpub, order, u, ho, he⟩ := h.appended r event claim (hmem _ _ _ hm)
    obtain ⟨horders, hstage⟩ := hold r hlt
    exact ⟨hlt.trans_le hnext, hstage hdone, List.mem_append_left _ hpub, order, u,
      horders.trans ho, he⟩
  · obtain ⟨r, event, claim, hm, he⟩ := h.stream payload hp
    exact ⟨r, event, claim, List.mem_append_left _ hm, he⟩

/-- A request arrives and is valid. -/
theorem Piped.arrive (h : Piped mapper es p) {request : IntRequest} {order : Order}
    (hv : request.request.validate = .ok order) :
    Piped mapper es { p with
      gateway := { p.gateway with
        orders := update p.gateway.orders p.gateway.next (some order)
        stage := update p.gateway.stage p.gateway.next .claim
        next := p.gateway.next + 1 } } := by
  rw [← List.append_nil es]
  refine h.quiet (by simp) (Nat.le_succ _) (fun r hr => ?_) (fun r order' ho => ?_)
    (fun r eventId payload hs order' ho => ?_) fun r hr => ?_
  · by_cases he : r = p.gateway.next
    · exact he ▸ Nat.lt_succ_self _
    · exact Nat.lt_succ_of_lt (h.arrived r (by simpa [update_ne _ _ he] using hr))
  · by_cases he : r = p.gateway.next
    · subst he
      simp only [update_self, Option.some.injEq] at ho
      exact ⟨Nat.lt_succ_self _, request, ho ▸ hv⟩
    · obtain ⟨hlt, hrequest⟩ := h.ordered r order' (by simpa [update_ne _ _ he] using ho)
      exact ⟨Nat.lt_succ_of_lt hlt, hrequest⟩
  · by_cases he : r = p.gateway.next
    · subst he
      simp at hs
    · exact h.prepared r eventId payload (by simpa [update_ne _ _ he] using hs) order'
        (by simpa [update_ne _ _ he] using ho)
  · have he : r ≠ p.gateway.next := Nat.ne_of_lt hr
    exact ⟨update_ne _ _ he, fun hd => (update_ne _ _ he).trans hd⟩

/-- A request goes on to a stage; when that publishes, its event is that of its order. -/
theorem Piped.goto (h : Piped mapper es p) {r : Nat} {keys : String → Option Claim}
    {stage : CheckoutStage} (hfs : ∀ r event claim, .appended r event claim ∉ fs)
    (hpending : stage ≠ .done → p.gateway.stage r ≠ .done)
    (hprepared : ∀ eventId payload, stage = .publish eventId payload →
      ∀ order, p.gateway.orders r = some order → ∃ u entries, eventId = Uuid.text u ∧
        entries.Perm (eventEntries order u) ∧ mapper.writeValueAsString entries = some payload) :
    Piped mapper (es ++ fs) { p with gateway := { p.gateway with keys }.goto r stage } := by
  refine h.quiet hfs (le_refl _) (fun r' hr' => ?_) h.ordered
    (fun r' eventId payload hs order ho => ?_) fun r' hr' => ⟨rfl, fun hd => ?_⟩
  · by_cases he : r' = r
    · subst he
      exact h.arrived r' (hpending (by simpa [Gateway.goto] using hr'))
    · exact h.arrived r' (by simpa [Gateway.goto, update_ne _ _ he] using hr')
  · by_cases he : r' = r
    · subst he
      exact hprepared eventId payload (by simpa [Gateway.goto] using hs) order ho
    · exact h.prepared r' eventId payload (by simpa [Gateway.goto, update_ne _ _ he] using hs)
        order ho
  · by_cases he : r' = r
    · subst he
      have hdone : stage = .done := Classical.byContradiction fun hne => hpending hne hd
      simp [Gateway.goto, hdone]
    · simpa [Gateway.goto, update_ne _ _ he] using hd

/-- A request that is still to publish has appended nothing. -/
theorem Piped.unappended (h : Piped mapper es p) {r : Nat} {eventId payload : String}
    (hs : p.gateway.stage r = .publish eventId payload) (event : OrderEvent)
    (claim : Option Nat) : .appended r event claim ∉ es := by
  intro hm
  have := (h.appended r event claim hm).2.1
  rw [hs] at this
  cases this

/-- A request appends its event, and is done. -/
theorem Piped.append (h : Piped mapper es p) {r : Nat} {order : Order}
    {eventId payload traceparent tracestate : String} {fields : List (String × String)}
    {claim : Option Nat} {result : Except String String}
    (hs : p.gateway.stage r = .publish eventId payload) (ho : p.gateway.orders r = some order)
    (hfields : streamFields traceparent tracestate payload = .ok fields) :
    Piped mapper (es ++ [.gateway (.published r true claim), .gateway (.answered r result),
        .appended r (order.event eventId) claim])
      { p with
        gateway := p.gateway.goto r .done
        world := { p.world with entries := p.world.entries ++ [extractPayload fields] } } := by
  obtain ⟨u, entries, rfl, hperm, hwrite⟩ := h.prepared r eventId payload hs order ho
  obtain ⟨hlt, request, hv⟩ := h.ordered r order ho
  have hevent := event_of_published hv request.int hperm hwrite hfields
  have hmem : ∀ r' event' claim', .appended r' event' claim' ∈ es ++
      [.gateway (.published r true claim), .gateway (.answered r result),
        .appended r (order.event (Uuid.text u)) claim] → .appended r' event' claim' ∈ es ∨
      r' = r ∧ event' = order.event (Uuid.text u) ∧ claim' = claim := by
    intro r' event' claim' hm
    simpa using hm
  constructor
  case arrived =>
    intro r' hr'
    by_cases he : r' = r
    · subst he
      simp [Gateway.goto] at hr'
    · exact h.arrived r' (by simpa [Gateway.goto, update_ne _ _ he] using hr')
  case ordered => exact h.ordered
  case prepared =>
    intro r' eventId' payload' hs' order' ho'
    by_cases he : r' = r
    · subst he
      simp [Gateway.goto] at hs'
    · exact h.prepared r' eventId' payload' (by simpa [Gateway.goto, update_ne _ _ he] using hs')
        order' ho'
  case appended =>
    intro r' event' claim' hm
    rcases hmem r' event' claim' hm with hm | ⟨rfl, rfl, rfl⟩
    · obtain ⟨hlt', hdone, hpub, hrest⟩ := h.appended r' event' claim' hm
      refine ⟨hlt', ?_, List.mem_append_left _ hpub, hrest⟩
      by_cases he : r' = r
      · simp [Gateway.goto, he]
      · simpa [Gateway.goto, update_ne _ _ he] using hdone
    · exact ⟨hlt, by simp [Gateway.goto], by simp, order, u, ho, rfl⟩
  case single =>
    intro r' event₁ claim₁ event₂ claim₂ h₁ h₂
    rcases hmem _ _ _ h₁ with hm₁ | ⟨he₁, rfl, rfl⟩
    · rcases hmem _ _ _ h₂ with hm₂ | ⟨he₂, rfl, rfl⟩
      · exact h.single r' event₁ claim₁ event₂ claim₂ hm₁ hm₂
      · exact absurd (he₂ ▸ hm₁) (h.unappended hs event₁ claim₁)
    · rcases hmem _ _ _ h₂ with hm₂ | ⟨-, rfl, rfl⟩
      · exact absurd (he₁ ▸ hm₂) (h.unappended hs event₂ claim₂)
      · exact ⟨rfl, rfl⟩
  case stream =>
    intro payload' hp
    rcases List.mem_append.mp hp with hp | hp
    · obtain ⟨r', event', claim', hm, he⟩ := h.stream payload' hp
      exact ⟨r', event', claim', List.mem_append_left _ hm, he⟩
    · obtain rfl := List.mem_singleton.mp hp
      exact ⟨r, _, claim, by simp, hevent⟩

/-- A step of the workers leaves the entries, and the requests. -/
theorem Piped.work (h : Piped mapper es p) {w' : World} {gs : List Event}
    (hentries : w'.entries = p.world.entries) :
    Piped mapper (es ++ gs.map .worker) { p with world := w' } := by
  refine ⟨h.arrived, h.ordered, h.prepared, fun r event claim hm => ?_,
    fun r event claim event' claim' hm hm' => h.single r event claim event' claim'
      (appended_of_worker hm) (appended_of_worker hm'), fun payload hp => ?_⟩
  · obtain ⟨hlt, hdone, hpub, hrest⟩ := h.appended r event claim (appended_of_worker hm)
    exact ⟨hlt, hdone, List.mem_append_left _ hpub, hrest⟩
  · obtain ⟨r, event, claim, hm, he⟩ := h.stream payload (hentries ▸ hp)
    exact ⟨r, event, claim, List.mem_append_left _ hm, he⟩

theorem piped_step (h : Piped mapper es p) (hw : PipelineWay mapper p a p' fs) :
    Piped mapper (es ++ fs) p' := by
  cases hw with
  | ticks millis =>
    exact h.quiet (by simp) (le_refl _) h.arrived h.ordered h.prepared fun r _ => ⟨rfl, id⟩
  | rejects error =>
    refine h.quiet (by simp) (Nat.le_succ _) (fun r hr => Nat.lt_succ_of_lt (h.arrived r hr))
      (fun r order ho => ?_) h.prepared fun r _ => ⟨rfl, id⟩
    obtain ⟨hlt, hrequest⟩ := h.ordered r order ho
    exact ⟨Nat.lt_succ_of_lt hlt, hrequest⟩
  | arrives request order hv =>
    rw [List.append_nil]
    exact h.arrive hv
  | moves r keys stage gs hpending hstage _ =>
    exact h.goto (by simp) hpending fun eventId payload hs => absurd hs (hstage eventId payload)
  | prepares r order failure u entries payload _ hs ho hperm hwrite =>
    refine h.goto (by simp) (fun _ => by simp [hs]) fun eventId payload' hp order' ho' => ?_
    obtain ⟨rfl, rfl⟩ := CheckoutStage.publish.inj hp
    obtain rfl := Option.some.inj (ho.symm.trans ho')
    exact ⟨u, entries, rfl, hperm, hwrite⟩
  | appends r order eventId payload traceparent tracestate fields claim result hs ho hfields _ =>
    exact h.append hs ho hfields
  | works b w' gs hs hb => exact h.work (entries_of_step (stepped hs) hb)

theorem piped {n : Nat} (hr : (pipeline ttl mapper db).Run C n es p) : Piped mapper es p := by
  refine hr.inv (I := Piped mapper) (fun p hi => ?_) fun _ _ _ _ _ _ _ h _ hs =>
    piped_step h (pipeline_step hs)
  have hstage := hi.gateway.stage
  refine ⟨fun r hr => absurd (hstage r) hr, fun r order ho => ?_, fun r eventId payload hs => ?_,
    by simp, by simp, fun payload hp => ?_⟩
  · rw [hi.orders r] at ho
    cases ho
  · rw [hstage r] at hs
    cases hs
  · rw [hi.world] at hp
    cases hp

theorem logged_worker {n : Nat} (hr : (pipeline ttl mapper db).Run C n es p) :
    ∃ m, (worker db).Run Sys.anyStep m (workerLog es) p.world := pipeline_worker.run hr

/-- The event that a delivery carries was appended. -/
theorem Piped.carried {d : Nat} {event : OrderEvent} (h : Piped mapper es p)
    (hl : Logged (workerLog es) p.world) (hc : Carries p.world d event) :
    ∃ r claim, .appended r event claim ∈ es := by
  obtain ⟨m, hm, he⟩ := hc
  obtain ⟨r, event', claim, ha, he'⟩ :=
    h.stream m.payload (List.mem_of_getElem? (hl.message d m hm).2)
  obtain rfl := Option.some.inj (he.symm.trans he')
  exact ⟨r, claim, ha⟩

/-- A step that logs an event of the workers is a step of theirs. -/
theorem works_of_mem {e : Event} (h : PipelineWay mapper p a p' fs)
    (he : .worker e ∈ fs) : ∃ b w' gs, step p.world b = some (w', gs) ∧
      (∀ payload, b ≠ .append payload) ∧ p' = { p with world := w' } ∧ fs = gs.map .worker := by
  cases h with
  | works b w' gs hs hb => exact ⟨b, w', gs, hs, hb, rfl, rfl⟩
  | _ => simp at he

end stream

/-! ### One checkout -/

/-- The order of two mice. -/
def mice : Order where
  userId := sampleUser
  sku := "mouse"
  quantity := 2
  requestId := some "req-1"
  quantity_pos := by decide

def miceRequest : IntRequest where
  request :=
    { userId := some sampleUser, sku := some "mouse", quantity := 2, requestId := some "req-1" }
  int := show (2 : Int) ≤ maxInt4 by decide

/-- No keys, no requests and an empty stream. -/
def newPipeline (db : Database) : Pipeline := ⟨newGateway, start db⟩

theorem newPipeline_new (db : Database) : NewPipeline db (newPipeline db) :=
  ⟨newGateway_new, fun _ => rfl, rfl⟩

/-- A request from its arrival to the stream. -/
def checkout : List PipelineLabel :=
  [.arrive miceRequest, .claim 0 .ok "", .check 0 none 7 (eventEntries mice 7),
    .publish 0 .ok "" "traceparent" ""]

/-- A worker handles the event of the request. -/
def orderMice : List PipelineLabel :=
  checkout ++ (Label.read "worker-a" :: smooth 7 0).map .work

/-- The deliveries of the event are given up, until one is the sixth. -/
def giveUpMice : List PipelineLabel :=
  checkout ++ ([Label.read "worker-a", .claim "worker-b" 0 ⟨"worker-a", 1⟩,
    .claim "worker-a" 0 ⟨"worker-b", 2⟩, .claim "worker-b" 0 ⟨"worker-a", 3⟩,
    .claim "worker-a" 0 ⟨"worker-b", 4⟩, .claim "worker-b" 0 ⟨"worker-a", 5⟩] ++
    smooth 3 5).map .work

/-- No other request is in flight when a key is claimed (`checkAlone`). -/
def checkPipeline (p : Pipeline) : PipelineLabel → Bool
  | .claim r reply error => checkAlone p.gateway (.claim r reply error)
  | _ => true

/-- The check looks at the requests that have arrived, and there are no others in flight. -/
theorem run_of_checkPipeline {ttl : ClaimTtl} {mapper : ObjectMapper} {db : Database} {n : Nat}
    {es : List PipelineEvent} {p : Pipeline}
    (hr : (pipeline ttl mapper db).Run (fun p a => checkPipeline p a = true) n es p) :
    (pipeline ttl mapper db).Run Pipeline.ClaimsAlone n es p := by
  induction hr with
  | init hi => exact .init hi
  | @step n es p p' a fs hr hc hs ih =>
    refine .step a ih ?_ hs
    rintro r reply error rfl r₁ reply₁ error₁ order key - - - - - r' order' - -
    cases hclaimed : (p.gateway.stage r').claimed with
    | false => rfl
    | true =>
      have hlt : r' < p.gateway.next := (piped hr).arrived r' fun hdone => by
        rw [hdone] at hclaimed
        cases hclaimed
      have hnot := List.all_eq_true.mp hc r' (List.mem_range.mpr hlt)
      rw [hclaimed] at hnot
      cases hnot

/-- An event of the request 0 is appended under its claim, and the delivery 0 commits its order. -/
def ordersMice (es : List PipelineEvent) : Bool :=
  es.any fun e =>
    match e with
    | .appended 0 event (some 0) => es.any fun e' =>
      match e' with
      | .worker (.committed 0 event') => event' == event
      | _ => false
    | _ => false

theorem orderMice_exec : (((pipeline defaultTtl plainMapper (shop 3)).restrict
    checkPipeline).exec (newPipeline (shop 3)) orderMice).any (fun r => ordersMice r.2) = true := by
  decide +kernel

/-- The one request draws the id 7. -/
theorem draws_orderMice {p : Pipeline} (a : PipelineLabel) (ha : a ∈ orderMice) :
    Pipeline.Draws (fun _ => 7) p a := by
  rintro r failure eventId entries rfl
  simp only [orderMice, checkout, List.mem_append, List.mem_cons, List.mem_map,
    PipelineLabel.check.injEq, reduceCtorEq, List.not_mem_nil, or_false, false_or,
    and_false, exists_false] at ha
  exact ha.2.2.1

theorem orderMice_draws : ((pipeline defaultTtl plainMapper (shop 3)).exec
    (newPipeline (shop 3)) orderMice).any
      (fun r => ordersMice r.2 && r.1.gateway.next == 1) = true := by
  decide +kernel

theorem exists_orderMice : ∃ n es p,
    (pipeline defaultTtl plainMapper (shop 3)).Run Pipeline.ClaimsAlone n es p ∧
      ordersMice es = true := by
  obtain ⟨p, es, hr, hc⟩ := Sys.exists_checked_run (C := fun p a => checkPipeline p a = true)
    (fun _ _ h => h) (newPipeline_new (shop 3)) orderMice_exec
  exact ⟨_, es, p, run_of_checkPipeline hr, hc⟩

theorem giveUpMice_exec : ((pipeline defaultTtl plainMapper (shop 3)).exec
    (newPipeline (shop 3)) giveUpMice).any (fun r => r.1.world.deadLetters.length == 1) = true := by
  decide +kernel

/-! ## Orders -/

/-- The orders that a log has committed. -/
def soldOrders (es : List PipelineEvent) : List OrderEvent := (commits (workerLog es)).map (·.2)

/-- The orders of the checkouts. -/
structure Booked (db : Database) (es : List PipelineEvent) (p : Pipeline) : Prop where
  /-- An order that is committed was appended before. -/
  published : ∀ pre d event post, es = pre ++ .worker (.committed d event) :: post →
    ∃ r claim, .appended r event claim ∈ pre
  /-- What is appended is the order of an accepted request. -/
  requested : ∀ r event claim, .appended r event claim ∈ es →
    ∃ (request : IntRequest) (order : Order) (eventId : Uuid),
      request.request.validate = .ok order ∧ p.gateway.orders r = some order ∧
      event = order.event (Uuid.text eventId) ∧
      request.request.sku = some event.sku ∧ request.request.quantity = event.quantity ∧
      request.request.userId.map (String.map Char.toLower) = some event.userId
  /-- A request appends one event. -/
  single : ∀ r event claim event' claim', .appended r event claim ∈ es →
    .appended r event' claim' ∈ es → event = event' ∧ claim = claim'
  once : ((soldOrders es).map (·.eventId)).Nodup
  stock : ∀ sku, (p.world.inventory sku).committed =
    (db.inventory sku).map (· - sold sku (soldOrders es))
  covered : ∀ sku q, db.inventory sku = some q → sold sku (soldOrders es) ≤ q

/-- The ids of the events are those that the requests have drawn. -/
structure Drawn (drawn : Nat → Uuid) (es : List PipelineEvent) (p : Pipeline) : Prop where
  prepared : ∀ r eventId payload, p.gateway.stage r = .publish eventId payload →
    eventId = Uuid.text (drawn r)
  appended : ∀ r event claim, .appended r event claim ∈ es → event.eventId = Uuid.text (drawn r)

/-- The orders of the checkouts, when each order has its own request. -/
structure EndToEnd (db : Database) (es : List PipelineEvent) (p : Pipeline) : Prop
    extends Booked db es p where
  /-- No other request has appended an event with the id. -/
  sole : ∀ r event claim r' event' claim', .appended r event claim ∈ es →
    .appended r' event' claim' ∈ es → event'.eventId = event.eventId → r' = r

section orders

variable {ttl : ClaimTtl} {mapper : ObjectMapper} {db : Database} {p p' : Pipeline}
  {a : PipelineLabel} {C : Pipeline → PipelineLabel → Prop} {es fs : List PipelineEvent} {n : Nat}
  {drawn : Nat → Uuid}

/-- A request goes on to a stage that publishes no other id, and nothing is appended. -/
theorem Drawn.goto (h : Drawn drawn es p) {r : Nat} {keys : String → Option Claim}
    {stage : CheckoutStage} (hfs : ∀ r event claim, .appended r event claim ∉ fs)
    (hstage : ∀ eventId payload, stage = .publish eventId payload →
      eventId = Uuid.text (drawn r)) :
    Drawn drawn (es ++ fs) { p with gateway := { p.gateway with keys }.goto r stage } := by
  refine ⟨fun r' eventId payload hs => ?_, fun r' event claim hm =>
    h.appended r' event claim ((List.mem_append.mp hm).resolve_right (hfs r' event claim))⟩
  by_cases he : r' = r
  · subst he
    exact hstage eventId payload (by simpa [Gateway.goto] using hs)
  · exact h.prepared r' eventId payload (by simpa [Gateway.goto, update_ne _ _ he] using hs)

theorem drawn_step (h : Drawn drawn es p) (hd : Pipeline.Draws drawn p a)
    (hw : PipelineWay mapper p a p' fs) : Drawn drawn (es ++ fs) p' := by
  cases hw with
  | ticks millis =>
    rw [List.append_nil]
    exact ⟨h.prepared, h.appended⟩
  | rejects error =>
    exact ⟨h.prepared, fun r event claim hm => h.appended r event claim (by simpa using hm)⟩
  | arrives request order hv =>
    rw [List.append_nil]
    refine ⟨fun r eventId payload hs => ?_, h.appended⟩
    by_cases he : r = p.gateway.next
    · subst he
      simp at hs
    · exact h.prepared r eventId payload (by simpa [update_ne _ _ he] using hs)
  | moves r keys stage gs _ hstage _ =>
    exact h.goto (by simp) fun eventId payload hs => absurd hs (hstage eventId payload)
  | prepares r order failure u entries payload ha =>
    refine h.goto (by simp) fun eventId payload' hs => ?_
    rw [← (CheckoutStage.publish.inj hs).1, hd r failure u entries ha]
  | appends r order eventId payload _ _ _ claim _ hs =>
    have hgoto : Drawn drawn (es ++ []) { p with gateway := p.gateway.goto r .done } :=
      h.goto (by simp) (by simp)
    refine ⟨hgoto.prepared, fun r' event claim' hm => ?_⟩
    have hm' : .appended r' event claim' ∈ es ∨
        r' = r ∧ event = order.event eventId ∧ claim' = claim := by simpa using hm
    rcases hm' with hm' | ⟨rfl, rfl, rfl⟩
    · exact h.appended r' event claim' hm'
    · exact h.prepared r' eventId payload hs
  | works b w' gs hs hb =>
    exact ⟨h.prepared, fun r event claim hm => h.appended r event claim (appended_of_worker hm)⟩

theorem drawn_run (hr : (pipeline ttl mapper db).Run (Pipeline.Draws drawn) n es p) :
    Drawn drawn es p := by
  refine hr.inv (fun p hi => ⟨fun r eventId payload hs => ?_, by simp⟩)
    fun _ _ _ _ _ _ _ h hd hs => drawn_step h hd (pipeline_step hs)
  rw [hi.gateway.stage r] at hs
  cases hs

/-- After every run of the pipeline, the orders are those of the checkouts, and the stock covers
them. -/
theorem booked_run (hr : (pipeline ttl mapper db).Run C n es p) : Booked db es p := by
  obtain ⟨m, hm⟩ := logged_worker hr
  obtain ⟨-, b, hplaced, hshows⟩ := book_run hm
  have hp := piped hr
  constructor
  case published =>
    intro pre d event post he
    obtain ⟨n₁, es₁, p₁, a, p₂, fs, fs₁, fs₂, hr₁, hc, hs, hfs, rfl⟩ := hr.split he
    have hr₂ := Sys.Run.step a hr₁ hc hs
    obtain ⟨m₂, hm₂⟩ := logged_worker hr₂
    have hlog := logged hm₂
    have hmem : PipelineEvent.worker (.committed d event) ∈ fs := by simp [hfs]
    have hcarries : Carries p₂.world d event :=
      hlog.events _ (mem_workerLog.mpr (List.mem_append_right es₁ hmem))
    obtain ⟨r, claim, ha⟩ := (piped hr₂).carried hlog hcarries
    obtain ⟨b, w', gs, -, -, -, rfl⟩ := works_of_mem (pipeline_step hs) hmem
    exact ⟨r, claim, List.mem_append_left _ (appended_of_worker ha)⟩
  case requested =>
    intro r event claim hm
    obtain ⟨-, -, -, order, u, ho, he⟩ := hp.appended r event claim hm
    obtain ⟨-, request, hv⟩ := hp.ordered r order ho
    obtain ⟨⟨userId, hu, -, huser⟩, hsku, -, hq⟩ := validate_ok hv
    refine ⟨request, order, u, hv, ho, he, by rw [hsku, he]; rfl, by rw [hq, he]; rfl, ?_⟩
    rw [hu, Option.map_some, ← huser, he]
    rfl
  case single => exact hp.single
  case once =>
    have := b.once
    rwa [hplaced] at this
  case stock =>
    intro sku
    rw [hshows.inventory, Book.stock, hplaced]
    rfl
  case covered =>
    intro sku q hq
    have := b.covered sku q hq
    rwa [hplaced] at this

/-- When the requests draw different ids, each order is that of one checkout. -/
theorem end_to_end (hr : (pipeline ttl mapper db).Run (Pipeline.Draws drawn) n es p)
    (hd : p.Apart drawn) : EndToEnd db es p := by
  refine ⟨booked_run hr, fun r event claim r' event' claim' hm hm' he => ?_⟩
  have hids := drawn_run hr
  rw [hids.appended r event claim hm, hids.appended r' event' claim' hm'] at he
  have hp := piped hr
  exact hd r' (hp.appended r' event' claim' hm').1 r (hp.appended r event claim hm).1
    (Uuid.text_inj he)

theorem end_to_end_mice : ∃ n es p,
    (pipeline defaultTtl plainMapper (shop 3)).Run (Pipeline.Draws fun _ => 7) n es p ∧
    p.Apart (fun _ => 7) ∧ ordersMice es = true ∧ EndToEnd (shop 3) es p := by
  obtain ⟨p, es, hr, hc⟩ := Sys.exists_run_of_exec (newPipeline_new (shop 3))
    (fun _ => draws_orderMice) orderMice_draws
  simp only [Bool.and_eq_true, beq_iff_eq] at hc
  have hapart : p.Apart fun _ => 7 := fun r hlt r' hlt' _ => by omega
  exact ⟨_, es, p, hr, hapart, hc.1, end_to_end hr hapart⟩

/-- The order of an event that was appended under the claim of a request. -/
def OrderedUnder (es : List PipelineEvent) (c d : Nat) (event : OrderEvent) : Prop :=
  .worker (.committed d event) ∈ es ∧ ∃ r, .appended r event (some c) ∈ es

/-- In the runs in which a request claims its key only when no other one that has claimed it before
is in flight, there is at most one order under a claim. -/
theorem ordered_once (hr : (pipeline ttl mapper db).Run Pipeline.ClaimsAlone n es p) {c d d' : Nat}
    {event event' : OrderEvent} (h : OrderedUnder es c d event)
    (h' : OrderedUnder es c d' event') : d = d' ∧ event = event' := by
  obtain ⟨hc, r, ha⟩ := h
  obtain ⟨hc', r', ha'⟩ := h'
  have hp := piped hr
  obtain ⟨m, hm⟩ := (pipeline_gateway (D := ClaimsAlone) (fun _ _ => claimsAlone_of_not)
    fun _ r reply error h => h r reply error rfl).run hr
  have howned := owned_run hm
  -- The claim is the one of the request that appends.
  obtain rfl : c = r :=
    howned.owner r true c (mem_checkoutLog.mpr (hp.appended r event (some c) ha).2.2.1)
  obtain rfl : c = r' :=
    howned.owner r' true c (mem_checkoutLog.mpr (hp.appended r' event' (some c) ha').2.2.1)
  obtain ⟨rfl, -⟩ := hp.single c event (some c) event' (some c) ha ha'
  obtain ⟨m', hm'⟩ := logged_worker hr
  have hmem : ∀ d, .worker (.committed d event) ∈ es → (d, event) ∈ commits (workerLog es) :=
    fun d hd => List.mem_filterMap.mpr ⟨_, mem_workerLog.mpr hd, rfl⟩
  have heq := List.inj_on_of_nodup_map (orderedIds_nodup hm') (hmem d hc) (hmem d' hc') rfl
  exact ⟨congrArg Prod.fst heq, rfl⟩

theorem orderedUnder_of_ordersMice {es : List PipelineEvent} (h : ordersMice es = true) :
    ∃ event, OrderedUnder es 0 0 event := by
  obtain ⟨e, hm, he⟩ := List.any_eq_true.mp h
  split at he
  · obtain ⟨e', hm', he'⟩ := List.any_eq_true.mp he
    split at he'
    · obtain rfl := eq_of_beq he'
      exact ⟨_, hm', 0, hm⟩
    · cases he'
  · cases he

theorem ordered_once_mice : ∃ es d event, OrderedUnder es 0 d event ∧
    ∀ d' event', OrderedUnder es 0 d' event' → d' = d ∧ event' = event := by
  obtain ⟨n, es, p, hr, hc⟩ := exists_orderMice
  obtain ⟨event, hm⟩ := orderedUnder_of_ordersMice hc
  exact ⟨es, 0, event, hm, fun d' event' h => ordered_once hr h hm⟩

end orders

/-! ## Published events -/

section kept

variable {ttl : ClaimTtl} {mapper : ObjectMapper} {db : Database} {p : Pipeline}
  {C : Pipeline → PipelineLabel → Prop} {es : List PipelineEvent} {n : Nat} {w w' : World}

/-- A message goes to the dead letters for the reason that its check gives. -/
structure Lettered (w : World) : Prop where
  stage : ∀ d reason, w.stage d = .deadLetter reason →
    ∃ m, w.deliveries d = some m ∧ checkMessage m = some reason
  copies : ∀ copy ∈ w.deadLetters, checkMessage copy.original = some copy.reason ∧
    copy.original.payload ∈ w.entries

theorem afterHandle_ne_deadLetter (r : Result) (reason : String) :
    afterHandle r ≠ .deadLetter reason := by
  cases r <;> simp [afterHandle]

/-- What a step of a delivery does to the dead letters. -/
theorem advance_deadLetter {d : Nat} {message : Delivery} {reply : Reply} {s : Stage}
    {fs : List Event} (h : advance w d message reply s = some (w', fs)) :
    (∀ reason, w'.stage d = .deadLetter reason → checkMessage message = some reason) ∧
      (w'.deadLetters = w.deadLetters ∨ ∃ reason, s = .deadLetter reason ∧
        w'.deadLetters = w.deadLetters ++ [⟨message, reason⟩]) := by
  cases s with
  | received =>
    simp only [advance] at h
    split at h
    · rename_i reason hr
      cases h
      refine ⟨fun reason' hs => ?_, .inl rfl⟩
      simp only [World.goto, update_self, Stage.deadLetter.injEq] at hs
      rw [hr, hs]
    · cases h
      exact ⟨by simp [World.goto], .inl rfl⟩
  | deadLetter reason =>
    simp only [advance, Option.some.injEq] at h
    cases reply with
    | ok | lost =>
      cases h
      exact ⟨by simp [World.goto], .inr ⟨reason, rfl, rfl⟩⟩
    | failed =>
      cases h
      exact ⟨by simp [World.goto], .inl rfl⟩
  | handle =>
    simp only [advance] at h
    repeat' split at h
    all_goals cases h
    all_goals simp [World.goto, afterHandle_ne_deadLetter]
  | beginTx event | newOrderId event =>
    simp only [advance] at h
    split at h <;> cases h <;> simp [World.abort, World.goto, afterHandle_ne_deadLetter]
  | updateInventory event =>
    simp only [advance, updateInventory] at h
    repeat' split at h
    all_goals cases h
    all_goals simp [World.abort, World.goto, World.setInventory, afterHandle_ne_deadLetter]
  | insertOrder event =>
    simp only [advance, insertOrder] at h
    repeat' split at h
    all_goals cases h
    all_goals simp [World.abort, World.goto, World.setOrders, afterHandle_ne_deadLetter]
  | commitTx event =>
    simp only [advance, Option.some.injEq] at h
    cases reply <;> cases h <;>
      simp [World.abort, World.commit, World.goto, afterHandle_ne_deadLetter]
  | ack source =>
    simp only [advance, Option.some.injEq] at h
    cases reply <;> cases h <;> simp [World.removePending, World.goto]
  | gone => cases h

/-- A step that leaves the dead letters alone, and sends no other delivery there. -/
theorem Lettered.same (h : Lettered w) {d : Nat} (hletters : w'.deadLetters = w.deadLetters)
    (hentries : ∀ payload ∈ w.entries, payload ∈ w'.entries)
    (hdeliveries : ∀ d' m, d' ≠ d → w.deliveries d' = some m → w'.deliveries d' = some m)
    (hstage : ∀ d', d' ≠ d → w'.stage d' = w.stage d')
    (hd : ∀ reason, w'.stage d = .deadLetter reason →
      ∃ m, w'.deliveries d = some m ∧ checkMessage m = some reason) : Lettered w' := by
  refine ⟨fun d' reason hs => ?_, fun copy hc => ?_⟩
  · by_cases he : d' = d
    · subst he
      exact hd reason hs
    · obtain ⟨m, hm, hreason⟩ := h.stage d' reason (hstage d' he ▸ hs)
      exact ⟨m, hdeliveries d' m he hm, hreason⟩
  · obtain ⟨hreason, hpayload⟩ := h.copies copy (hletters ▸ hc)
    exact ⟨hreason, hentries _ hpayload⟩

theorem lettered_step {es fs : List Event} {b : Label} (h : Lettered w) (hl : Logged es w)
    (hs : step w b = some (w', fs)) : Lettered w' := by
  cases stepped hs with
  | appends payload =>
    exact h.same (d := w.next) rfl (fun _ hp => List.mem_append_left _ hp) (fun _ _ _ hm => hm)
      (fun _ _ => rfl) fun reason hr => h.stage w.next reason hr
  | reads consumer hp =>
    exact h.same (d := w.next) rfl (fun _ hp => hp)
      (fun d' m he hm => by simpa [deliver, update_ne _ _ he] using hm)
      (fun d' he => by simp [deliver, update_ne _ _ he]) (by simp [deliver])
  | claims message n hp hpayload =>
    exact h.same (d := w.next) rfl (fun _ hp => hp)
      (fun d' m he hm => by simpa [deliver, update_ne _ _ he] using hm)
      (fun d' he => by simp [deliver, update_ne _ _ he]) (by simp [deliver])
  | @advances d message reply _ _ hm ha =>
    have hmoved := ha.moved
    simp only [step, hm] at hs
    obtain ⟨hstage, hletters⟩ := advance_deadLetter hs
    have hd : ∀ reason, w'.stage d = .deadLetter reason →
        ∃ m, w'.deliveries d = some m ∧ checkMessage m = some reason := by
      intro reason hr
      exact ⟨message, by rw [hmoved.deliveries, hm], hstage reason hr⟩
    have hentries : ∀ payload ∈ w.entries, payload ∈ w'.entries := by
      intro payload hp
      rwa [hmoved.entries]
    have hdeliveries : ∀ d' m, d' ≠ d → w.deliveries d' = some m → w'.deliveries d' = some m := by
      intro d' m _ hm'
      rwa [hmoved.deliveries]
    rcases hletters with hletters | ⟨reason, hr, hletters⟩
    · exact h.same hletters hentries hdeliveries hmoved.stage hd
    · obtain ⟨m, hm', hreason⟩ := h.stage d reason hr
      obtain rfl := Option.some.inj (hm.symm.trans hm')
      -- The copies but for the new one are those of before.
      have hold : Lettered { w' with deadLetters := w.deadLetters } :=
        h.same rfl hentries hdeliveries hmoved.stage hd
      refine ⟨hold.stage, fun copy hc => ?_⟩
      rcases List.mem_append.mp (hletters ▸ hc) with hc | hc
      · exact hold.copies copy hc
      · obtain rfl := List.mem_singleton.mp hc
        exact ⟨hreason, hentries _ (List.mem_of_getElem? (hl.message d message hm).2)⟩
  | crashes d =>
    have hmoved := moved_abort w d .gone
    exact h.same rfl (fun _ hp => hp) (fun _ _ _ hm => hm) hmoved.stage (by simp [World.goto])

theorem lettered {D : World → Label → Prop} {es : List Event}
    (hr : (worker db).Run D n es w) : Lettered w := by
  refine hr.inv (I := fun _ w => Lettered w) (fun w hw => ?_) fun n es w b w' fs hr h _ hs =>
    lettered_step h (logged hr) hs
  obtain rfl : w = start db := hw
  exact ⟨nofun, nofun⟩

/-- A permanent error is a payload without an event, or an update that matches no row. -/
theorem permanent_of_step {b : Label} {fs : List Event} {d : Nat} {msg : String}
    (h : step w b = some (w', fs)) (hm : .handled d (.permanent msg) ∈ fs) :
    fs = [.handled d (.permanent msg)] ∧
    ∃ message, w.deliveries d = some message ∧ (message.payload.event = none ∨
      ∃ event, w.stage d = .updateInventory event ∧
        w.inventory.write d event.sku (deductInventory event.quantity) = .unmatched ∧
        msg = "insufficient inventory or unknown sku: " ++ event.sku) := by
  cases stepped h with
  | appends | crashes => cases hm
  | reads | claims => simp at hm
  | @advances d' message reply _ _ hd ha =>
    simp only [step, hd] at h
    generalize hs : w.stage d' = s at ha h
    cases ha with
    | goes | deducts | inserts => cases hm
    | copies | acks => simp at hm
    | commits hr =>
      simp only [List.mem_cons, reduceCtorEq, Event.handled.injEq, List.not_mem_nil, or_false,
        false_or] at hm
      exact absurd hm.2.symm (hr msg)
    | refuses _ _ hperm =>
      obtain ⟨rfl, rfl⟩ : d = d' ∧ Result.permanent msg = _ := by simpa using hm
      exact ⟨rfl, message, hd, .inl (hperm msg rfl).2⟩
    | fails _ hperm =>
      obtain ⟨rfl, rfl⟩ : d = d' ∧ Result.permanent msg = _ := by simpa using hm
      obtain ⟨event, rfl, rfl, hcan, hw⟩ := hperm msg rfl
      refine ⟨rfl, message, hd, .inr ⟨event, hs, hw, ?_⟩⟩
      simp only [advance, updateInventory, hcan, hw, and_self, if_true, Option.some.injEq,
        Prod.mk.injEq, rollback, returns, List.cons.injEq, Event.handled.injEq,
        Result.permanent.injEq] at h
      exact h.2.1.2.symm

/-- What becomes of the published events that are not ordered. -/
structure Kept (db : Database) (es : List PipelineEvent) (p : Pipeline) : Prop where
  /-- A delivery is dropped when the orders before it leave too little for the event that it
  carries. -/
  dropped : ∀ pre d msg post, es = pre ++ .worker (.handled d (.permanent msg)) :: post →
    ∃ r event claim message, .appended r event claim ∈ pre ∧
      .worker (.delivered d message) ∈ pre ∧ message.payload.event = some event ∧
      msg = "insufficient inventory or unknown sku: " ++ event.sku ∧
      ∀ q, db.inventory event.sku = some q → q - sold event.sku (soldOrders pre) < event.quantity
  deadLettered : ∀ copy ∈ p.world.deadLetters, copy.reason = "max_delivery_attempts_exceeded" ∧
    defaultMaxDeliveryAttempts < copy.original.deliveryCount

/-- An event in the stock is deducted. -/
theorem short_of_unmatched {q quantity : Int}
    (h : deductInventory quantity (some q) = none) : q < quantity := by
  simp only [deductInventory] at h
  split at h
  · cases h
  · omega

/-- No event that the gateway publishes is malformed: the workers drop it only when the stock does
not cover it, and dead-letter it only when it was delivered too often. -/
theorem published_kept (hr : (pipeline ttl mapper db).Run C n es p) : Kept db es p := by
  constructor
  case dropped =>
    intro pre d msg post he
    obtain ⟨n₁, es₁, p₁, a, p₂, fs, fs₁, fs₂, hr₁, -, hs, hfs, rfl⟩ := hr.split he
    obtain ⟨b, w', gs, hstep, -, -, hgs⟩ := works_of_mem (pipeline_step hs)
      (show PipelineEvent.worker (.handled d (.permanent msg)) ∈ fs by simp [hfs])
    have hmem : .handled d (.permanent msg) ∈ gs := by
      have : PipelineEvent.worker (.handled d (.permanent msg)) ∈ gs.map .worker := by
        rw [← hgs, hfs]
        simp
      simpa using this
    obtain ⟨m, hm⟩ := logged_worker hr₁
    have hlog := logged hm
    obtain ⟨hlocks, b, hplaced, hshows⟩ := book_run hm
    obtain ⟨rfl, message, hd, hcause⟩ := permanent_of_step hstep hmem
    -- The step logs nothing before the error.
    obtain rfl : fs₁ = [] := by
      rw [hfs] at hgs
      cases fs₁ with
      | nil => rfl
      | cons e fs₁ => simp at hgs
    obtain ⟨r, event, claim, happended, hevent⟩ :=
      (piped hr₁).stream message.payload (List.mem_of_getElem? (hlog.message d message hd).2)
    rcases hcause with hnone | ⟨event', hstage, hwrite, rfl⟩
    · rw [hnone] at hevent
      cases hevent
    · -- The delivery works on the event that its message carries.
      obtain ⟨message', hd', hevent'⟩ := hlog.carries d event' (by rw [hstage]; rfl)
      obtain rfl := Option.some.inj (hd.symm.trans hd')
      obtain rfl := Option.some.inj (hevent.symm.trans hevent')
      have hdelivered := mem_workerLog.mp (delivered_of_message hm hd)
      refine ⟨r, event, claim, message, List.mem_append_left _ happended,
        List.mem_append_left _ hdelivered, hevent, rfl, fun q hq => ?_⟩
      have hidle : p₁.world.inventory.Idle d := by
        have hwrites := hlocks.writes d
        rw [show p₁.world.tx d = .idle by rw [World.tx, hstage]; rfl] at hwrites
        exact hwrites.1
      have hnone := Table.write_unmatched hwrite hidle
      rw [hshows.inventory, Book.stock, hq, hplaced] at hnone
      rw [List.append_nil]
      exact short_of_unmatched hnone
  case deadLettered =>
    intro copy hc
    obtain ⟨m, hm⟩ := logged_worker hr
    obtain ⟨hreason, hpayload⟩ := (lettered hm).copies copy hc
    obtain ⟨r, event, claim, -, hevent⟩ := (piped hr).stream _ hpayload
    unfold checkMessage at hreason
    split at hreason
    · rename_i hp
      rw [hp] at hevent
      cases hevent
    · rename_i hp
      rw [hp] at hevent
      cases hevent
    · split at hreason
      · rename_i hlt
        exact ⟨(Option.some.inj hreason).symm, hlt⟩
      · cases hreason

theorem published_kept_mice : ∃ n es p,
    (pipeline defaultTtl plainMapper (shop 3)).Run Sys.anyStep n es p ∧
    p.world.deadLetters.length = 1 ∧ Kept (shop 3) es p := by
  obtain ⟨p, es, hr, hc⟩ := Sys.exists_any_run (newPipeline_new (shop 3)) giveUpMice_exec
  exact ⟨_, es, p, hr, eq_of_beq hc, published_kept hr⟩

end kept

end Rivulet
end AutoSRE

import AutoSRE.Lib.Refine
import AutoSRE.Rivulet.Book
import AutoSRE.Rivulet.Format

/-!
# From the checkout to the order

The gateway and the workers on one stream and one database.

- **The pipeline** (`pipeline`). The gateway's availability check reads the rows that the workers
  commit, and what it publishes is what the workers read. Requests, deliveries, failures and crashes
  interleave in any way.
- **Refinement** (`pipeline_gateway`, `pipeline_worker`). A run of the pipeline is a run of the
  gateway and a run of the workers.
-/

namespace AutoSRE
namespace Rivulet

open Lib

/-! ## The pipeline -/

structure Pipeline where
  gateway : Gateway
  world : World

inductive PipelineEvent where
  | gateway (e : CheckoutEvent)
  | worker (e : Event)
  /-- `XADD` has appended the event of a request, under a claim. -/
  | appended (r : Nat) (event : OrderEvent) (claim : Option Nat)

def PipelineEvent.atGateway : PipelineEvent → Option CheckoutEvent
  | .gateway e => some e
  | _ => none

def PipelineEvent.atWorker : PipelineEvent → Option Event
  | .worker e => some e
  | _ => none

/-- `CheckoutRequest` of the controller, whose `quantity` is a Java `int`. -/
structure IntRequest where
  request : CheckoutRequest
  int : request.quantity ≤ maxInt4

inductive PipelineLabel where
  | tick (millis : Nat)
  | arrive (request : IntRequest)
  | claim (r : Nat) (reply : Reply) (error : String)
  /-- The inventory is read, unless that fails; `entries` is the map of the event. -/
  | check (r : Nat) (failure : Option String) (eventId : Uuid)
    (entries : List (String × FieldValue))
  | publish (r : Nat) (reply : Reply) (error traceparent tracestate : String)
  | release (r : Nat) (reply : Reply)
  | crash (r : Nat)
  /-- A step of the workers. -/
  | work (a : Label)

/-- A step of the gateway. -/
def Pipeline.atGateway (ttl : ClaimTtl) (p : Pipeline) (a : CheckoutLabel) :
    Option (Pipeline × List PipelineEvent) :=
  (stepGateway ttl p.gateway a).map fun r => ({ p with gateway := r.1 }, r.2.map .gateway)

/-- `getStockLevel`. -/
def Pipeline.stockLevel (p : Pipeline) (sku : String) : Option String → Except String (Option Int)
  | some error => .error error
  | none => .ok (p.world.inventory sku).committed

/-- The event of an order, with the id that the request has drawn. -/
def Order.event (order : Order) (eventId : String) : OrderEvent where
  eventId := eventId
  userId := order.userId
  sku := order.sku
  quantity := order.quantity

/-- `produce` of a request. -/
def Pipeline.produce (ttl : ClaimTtl) (p : Pipeline) (r : Nat) (order : Order)
    (eventId payload : String) (reply : Reply) (error traceparent tracestate : String) :
    Option (Pipeline × List PipelineEvent) :=
  match streamFields traceparent tracestate payload with
  | .error message => p.atGateway ttl (.publish r .failed message)
  | .ok fields =>
    (p.atGateway ttl (.publish r reply error)).map fun q =>
      if reply = .failed then q
      else
        ({ q.1 with
            world := { q.1.world with entries := q.1.world.entries ++ [extractPayload fields] } },
          q.2 ++ [.appended r (order.event eventId) ((keyOf order.requestId).bind p.gateway.live)])

/-- The step of a label. -/
def stepPipeline (ttl : ClaimTtl) (mapper : ObjectMapper) (p : Pipeline) :
    PipelineLabel → Option (Pipeline × List PipelineEvent)
  | .tick millis => p.atGateway ttl (.tick millis)
  | .arrive request => p.atGateway ttl (.arrive request.request)
  | .claim r reply error => p.atGateway ttl (.claim r reply error)
  | .check r failure eventId entries =>
    match p.gateway.orders r with
    | none => none
    | some order =>
      if entries.Perm (eventEntries order eventId) then
        p.atGateway ttl (.check r (p.stockLevel order.sku failure) (Uuid.text eventId)
          (mapper.writeValueAsString entries))
      else none
  | .publish r reply error traceparent tracestate =>
    match p.gateway.stage r, p.gateway.orders r with
    | .publish eventId payload, some order =>
      p.produce ttl r order eventId payload reply error traceparent tracestate
    | _, _ => none
  | .release r reply => p.atGateway ttl (.release r reply)
  | .crash r => p.atGateway ttl (.crash r)
  -- Nobody but the gateway appends to the stream.
  | .work (.append _) => none
  | .work a => (step p.world a).map fun r => ({ p with world := r.1 }, r.2.map .worker)

/-- The start: no requests, an empty stream and an idle database. -/
structure NewPipeline (db : Database) (p : Pipeline) : Prop where
  gateway : NewGateway p.gateway
  orders : ∀ r, p.gateway.orders r = none
  world : p.world = start db

/-- The gateway and the workers. -/
def pipeline (ttl : ClaimTtl) (mapper : ObjectMapper) (db : Database) :
    Sys Pipeline PipelineLabel PipelineEvent where
  init := NewPipeline db
  step := stepPipeline ttl mapper

/-! ## The steps -/

section steps

variable {ttl : ClaimTtl} {mapper : ObjectMapper} {db : Database} {p p' : Pipeline}
  {a : PipelineLabel} {es fs : List PipelineEvent}

/-- The events of a step of the gateway that appends nothing and accepts no request. -/
def Quiet (fs : List CheckoutEvent) : Prop :=
  (∀ r claim, .published r true claim ∉ fs) ∧ ∀ r eventId, .answered r (.ok eventId) ∉ fs

/-- What a step of the pipeline does. -/
inductive PipelineWay (mapper : ObjectMapper) (p : Pipeline) (a : PipelineLabel) :
    Pipeline → List PipelineEvent → Prop
  | ticks (millis : Nat) :
      PipelineWay mapper p a
        { p with gateway := { p.gateway with now := p.gateway.now + millis } } []
  | rejects (error : String) :
      PipelineWay mapper p a { p with gateway := { p.gateway with next := p.gateway.next + 1 } }
        [.gateway (.answered p.gateway.next (.error error))]
  | arrives (request : IntRequest) (order : Order) : request.request.validate = .ok order →
      PipelineWay mapper p a
        { p with
          gateway := { p.gateway with
            orders := update p.gateway.orders p.gateway.next (some order)
            stage := update p.gateway.stage p.gateway.next .claim
            next := p.gateway.next + 1 } } []
  /-- A request goes on, and appends nothing. -/
  | moves (r : Nat) (keys : String → Option Claim) (stage : CheckoutStage)
      (fs : List CheckoutEvent) : (stage ≠ .done → p.gateway.stage r ≠ .done) →
      (∀ eventId payload, stage ≠ .publish eventId payload) → Quiet fs →
      PipelineWay mapper p a { p with gateway := { p.gateway with keys }.goto r stage }
        (fs.map .gateway)
  | prepares (r : Nat) (order : Order) (failure : Option String) (eventId : Uuid)
      (entries : List (String × FieldValue)) (payload : String) :
      a = .check r failure eventId entries → p.gateway.stage r = .check →
      p.gateway.orders r = some order → entries.Perm (eventEntries order eventId) →
      mapper.writeValueAsString entries = some payload →
      PipelineWay mapper p a
        { p with gateway := p.gateway.goto r (.publish (Uuid.text eventId) payload) } []
  | appends (r : Nat) (order : Order) (eventId payload traceparent tracestate : String)
      (fields : List (String × String)) (claim : Option Nat) (result : Except String String) :
      p.gateway.stage r = .publish eventId payload → p.gateway.orders r = some order →
      streamFields traceparent tracestate payload = .ok fields →
      (∀ accepted, result = .ok accepted → accepted = eventId) →
      PipelineWay mapper p a
        { p with
          gateway := p.gateway.goto r .done
          world := { p.world with entries := p.world.entries ++ [extractPayload fields] } }
        [.gateway (.published r true claim), .gateway (.answered r result),
          .appended r (order.event eventId) claim]
  | works (b : Label) (w' : World) (fs : List Event) : step p.world b = some (w', fs) →
      (∀ payload, b ≠ .append payload) →
      PipelineWay mapper p a { p with world := w' } (fs.map .worker)

/-- An error is the answer of a request. -/
theorem quiet_error (r : Nat) (error : String) : Quiet [.answered r (.error error)] := by
  simp [Quiet]

theorem quiet_nil : Quiet [] := by simp [Quiet]

/-- `checkAndSet` ends the request or lets it go on to the inventory. -/
theorem claimKey_goto (ttl : ClaimTtl) (g : Gateway) (r : Nat) (order : Order) (reply : Reply)
    (error : String) : ∃ keys stage fs,
      claimKey ttl g r order reply error = ({ g with keys }.goto r stage, fs) ∧
        (stage = .check ∨ stage = .done) ∧ Quiet fs := by
  have hkeys : ∀ key, ∃ keys, (g.setIfAbsent ttl key r).1 = { g with keys } := by
    intro key
    unfold Gateway.setIfAbsent
    split
    · exact ⟨g.keys, rfl⟩
    · exact ⟨_, rfl⟩
  unfold claimKey
  split
  · exact ⟨g.keys, .check, [], rfl, .inl rfl, quiet_nil⟩
  · rename_i key _
    obtain ⟨keys, hk⟩ := hkeys key
    cases reply with
    | failed => exact ⟨g.keys, .done, _, rfl, .inr rfl, quiet_error r _⟩
    | lost =>
      simp only [hk]
      exact ⟨keys, .done, _, rfl, .inr rfl, quiet_error r _⟩
    | ok =>
      simp only [hk]
      split
      · exact ⟨keys, .check, [], rfl, .inl rfl, quiet_nil⟩
      · exact ⟨g.keys, .done, _, rfl, .inr rfl, quiet_error r _⟩

/-- `release` ends the request. -/
theorem releaseKey_goto (g : Gateway) (r : Nat) (order : Order) (error : String) (reply : Reply) :
    ∃ keys fs, releaseKey g r order error reply = ({ g with keys }.goto r .done, fs) ∧
      Quiet fs := by
  unfold releaseKey
  split
  · exact ⟨_, _, rfl, by simp [Quiet]⟩
  · exact ⟨_, _, rfl, by simp [Quiet]⟩
  · exact ⟨g.keys, _, rfl, quiet_error r _⟩

theorem atGateway_some {b : CheckoutLabel} (h : p.atGateway ttl b = some (p', fs)) :
    ∃ g' gs, stepGateway ttl p.gateway b = some (g', gs) ∧ p' = { p with gateway := g' } ∧
      fs = gs.map .gateway := by
  obtain ⟨⟨g', gs⟩, hs, he⟩ := Option.map_eq_some_iff.mp h
  obtain ⟨rfl, rfl⟩ := Prod.mk.inj he
  exact ⟨g', gs, hs, rfl, rfl⟩

/-- The request of a step that appends nothing. -/
theorem publish_way {r : Nat} {reply : Reply} {error eventId payload : String} {order : Order}
    (hs : p.gateway.stage r = .publish eventId payload) (ho : p.gateway.orders r = some order)
    (h : p.atGateway ttl (.publish r reply error) = some (p', fs)) :
    ∃ result, p' = { p with gateway := p.gateway.goto r .done } ∧
      fs = [.gateway (.published r (reply != .failed)
        ((keyOf order.requestId).bind p.gateway.live)), .gateway (.answered r result)] ∧
      ∀ accepted, result = .ok accepted → reply = .ok ∧ accepted = eventId := by
  obtain ⟨g', gs, hg, rfl, rfl⟩ := atGateway_some h
  simp only [stepGateway, hs, ho, publishEvent, Option.some.injEq, Prod.mk.injEq] at hg
  obtain ⟨rfl, rfl⟩ := hg
  refine ⟨_, rfl, rfl, fun accepted h => ?_⟩
  split at h
  · rename_i hr
    exact ⟨hr, (Except.ok.inj h).symm⟩
  · cases h

theorem produce_way {r : Nat} {order : Order} {reply : Reply}
    {eventId payload error traceparent tracestate : String}
    (hs : p.gateway.stage r = .publish eventId payload)
    (ho : p.gateway.orders r = some order)
    (h : p.produce ttl r order eventId payload reply error traceparent tracestate =
      some (p', fs)) : PipelineWay mapper p a p' fs := by
  have hquiet : ∀ claim result, (∀ accepted, result ≠ .ok accepted) →
      Quiet [.published r false claim, .answered r result] := by
    intro claim result hresult
    simpa [Quiet] using fun _ eventId _ he => hresult eventId he.symm
  unfold Pipeline.produce at h
  split at h
  · obtain ⟨result, rfl, rfl, hresult⟩ := publish_way hs ho h
    exact .moves r p.gateway.keys .done _ (fun h => absurd rfl h) (by simp)
      (hquiet _ result fun accepted he => by simpa using (hresult accepted he).1)
  · rename_i fields hfields
    obtain ⟨⟨q, gs⟩, hg, he⟩ := Option.map_eq_some_iff.mp h
    obtain ⟨result, rfl, rfl, hresult⟩ := publish_way hs ho hg
    split at he
    · rename_i hr
      subst hr
      obtain ⟨rfl, rfl⟩ := Prod.mk.inj he
      exact .moves r p.gateway.keys .done _ (fun h => absurd rfl h) (by simp)
        (hquiet _ result fun accepted he => by simpa using (hresult accepted he).1)
    · rename_i hr
      obtain ⟨rfl, rfl⟩ := Prod.mk.inj he
      have hb : (reply != .failed) = true := by simpa using hr
      rw [hb]
      exact .appends r order eventId payload traceparent tracestate fields _ result hs ho hfields
        fun accepted he => (hresult accepted he).2

/-- A step of the workers is no append. -/
theorem work_step {b : Label} (h : stepPipeline ttl mapper p (.work b) = some (p', fs)) :
    ∃ w' gs, step p.world b = some (w', gs) ∧ (∀ payload, b ≠ .append payload) ∧
      p' = { p with world := w' } ∧ fs = gs.map .worker := by
  have hb : ∀ payload, b ≠ .append payload := by
    rintro payload rfl
    cases h
  have hw : (step p.world b).map (fun r => ({ p with world := r.1 }, r.2.map .worker)) =
      some (p', fs) := by
    cases b with
    | append payload => exact absurd rfl (hb payload)
    | read | claim | advance | crash => exact h
  obtain ⟨⟨w', gs⟩, hs, he⟩ := Option.map_eq_some_iff.mp hw
  obtain ⟨rfl, rfl⟩ := Prod.mk.inj he
  exact ⟨w', gs, hs, hb, rfl, rfl⟩

/-- What a step of the pipeline does. -/
theorem pipeline_step (h : (pipeline ttl mapper db).step p a = some (p', fs)) :
    PipelineWay mapper p a p' fs := by
  simp only [pipeline] at h
  cases a with
  | tick millis =>
    obtain ⟨g', gs, hg, rfl, rfl⟩ := atGateway_some h
    obtain ⟨rfl, rfl⟩ := Prod.mk.inj (Option.some.inj hg)
    exact .ticks millis
  | arrive request =>
    obtain ⟨g', gs, hg, rfl, rfl⟩ := atGateway_some h
    simp only [stepGateway] at hg
    split at hg
    · obtain ⟨rfl, rfl⟩ := Prod.mk.inj (Option.some.inj hg)
      exact .rejects _
    · rename_i order ho
      obtain ⟨rfl, rfl⟩ := Prod.mk.inj (Option.some.inj hg)
      exact .arrives request order ho
  | claim r reply error =>
    obtain ⟨g', gs, hg, rfl, rfl⟩ := atGateway_some h
    simp only [stepGateway] at hg
    split at hg
    · rename_i order hs ho
      obtain ⟨keys, stage, fs, he, hstage, hfs⟩ :=
        claimKey_goto ttl p.gateway r order reply error
      rw [he] at hg
      obtain ⟨rfl, rfl⟩ := Prod.mk.inj (Option.some.inj hg)
      refine .moves r keys stage _ (fun _ => by simp [hs]) (fun _ _ => ?_) hfs
      rcases hstage with rfl | rfl <;> simp
    · cases hg
  | check r failure eventId entries =>
    simp only [stepPipeline] at h
    split at h
    · cases h
    · rename_i order ho
      split at h
      · rename_i hperm
        obtain ⟨g', gs, hg, rfl, rfl⟩ := atGateway_some h
        simp only [stepGateway, ho] at hg
        split at hg
        · rename_i order' hs ho'
          obtain rfl := Option.some.inj ho'
          split at hg
          · obtain ⟨rfl, rfl⟩ := Prod.mk.inj (Option.some.inj hg)
            split
            · exact .moves r p.gateway.keys .done _ (fun h => absurd rfl h) (by simp)
                (quiet_error r _)
            · exact .moves r p.gateway.keys (.release _) [] (fun _ => by simp [hs])
                (by simp) quiet_nil
          · rename_i payload hp
            obtain ⟨rfl, rfl⟩ := Prod.mk.inj (Option.some.inj hg)
            exact .prepares r order failure eventId entries payload rfl hs ho hperm
              (prepareEvent_ok hp)
        · cases hg
      · cases h
  | publish r reply error traceparent tracestate =>
    simp only [stepPipeline] at h
    split at h
    · rename_i eventId payload order hs ho
      exact produce_way hs ho h
    · cases h
  | release r reply =>
    obtain ⟨g', gs, hg, rfl, rfl⟩ := atGateway_some h
    simp only [stepGateway] at hg
    split at hg
    · rename_i error order hs ho
      obtain ⟨keys, fs, he, hfs⟩ := releaseKey_goto p.gateway r order error reply
      rw [he] at hg
      obtain ⟨rfl, rfl⟩ := Prod.mk.inj (Option.some.inj hg)
      exact .moves r keys .done _ (fun h => absurd rfl h) (by simp) hfs
    · cases hg
  | crash r =>
    obtain ⟨g', gs, hg, rfl, rfl⟩ := atGateway_some h
    obtain ⟨rfl, rfl⟩ := Prod.mk.inj (Option.some.inj hg)
    exact .moves r p.gateway.keys .done [] (fun h => absurd rfl h) (by simp) quiet_nil
  | work b =>
    obtain ⟨w', gs, hs, hb, rfl, rfl⟩ := work_step h
    exact .works b w' gs hs hb

/-! ## Refinement -/

/-- What the gateway has logged. -/
def checkoutLog (es : List PipelineEvent) : List CheckoutEvent :=
  es.filterMap PipelineEvent.atGateway

/-- What the workers have logged. -/
def workerLog (es : List PipelineEvent) : List Event := es.filterMap PipelineEvent.atWorker

@[simp] theorem checkoutLog_gateway (fs : List CheckoutEvent) :
    checkoutLog (fs.map .gateway) = fs := by
  simp [checkoutLog, PipelineEvent.atGateway, Function.comp_def]

@[simp] theorem checkoutLog_worker (fs : List Event) : checkoutLog (fs.map .worker) = [] := by
  simp [checkoutLog, PipelineEvent.atGateway, Function.comp_def]

@[simp] theorem workerLog_gateway (fs : List CheckoutEvent) : workerLog (fs.map .gateway) = [] := by
  simp [workerLog, PipelineEvent.atWorker, Function.comp_def]

@[simp] theorem workerLog_worker (fs : List Event) : workerLog (fs.map .worker) = fs := by
  simp [workerLog, PipelineEvent.atWorker, Function.comp_def]

theorem checkoutLog_append (es fs : List PipelineEvent) :
    checkoutLog (es ++ fs) = checkoutLog es ++ checkoutLog fs := List.filterMap_append

theorem mem_checkoutLog {e : CheckoutEvent} : e ∈ checkoutLog es ↔ .gateway e ∈ es := by
  simp only [checkoutLog, List.mem_filterMap]
  constructor
  · rintro ⟨x, hx, he⟩
    cases x <;> simp_all [PipelineEvent.atGateway]
  · exact fun h => ⟨_, h, rfl⟩

theorem mem_workerLog {e : Event} : e ∈ workerLog es ↔ .worker e ∈ es := by
  simp only [workerLog, List.mem_filterMap]
  constructor
  · rintro ⟨x, hx, he⟩
    cases x <;> simp_all [PipelineEvent.atWorker]
  · exact fun h => ⟨_, h, rfl⟩

/-- A request claims its key only when no other one that has claimed the key before is still to
publish or to release (`Rivulet.ClaimsAlone`). -/
def Pipeline.ClaimsAlone (p : Pipeline) (a : PipelineLabel) : Prop :=
  ∀ r reply error, a = .claim r reply error →
    Rivulet.ClaimsAlone p.gateway (.claim r reply error)

/-- The event of the request `r` gets the id `drawn r`. -/
def Pipeline.Draws (drawn : Nat → Uuid) (_ : Pipeline) (a : PipelineLabel) : Prop :=
  ∀ r failure eventId entries, a = .check r failure eventId entries → eventId = drawn r

/-- The requests that have arrived draw different ids. -/
def Pipeline.Apart (drawn : Nat → Uuid) (p : Pipeline) : Prop :=
  ∀ r < p.gateway.next, ∀ r' < p.gateway.next, drawn r = drawn r' → r = r'

def CheckoutLabel.isClaim : CheckoutLabel → Bool
  | .claim .. => true
  | _ => false

/-- Another step than a claim claims no key. -/
theorem claimsAlone_of_not {g : Gateway} {b : CheckoutLabel} (h : b.isClaim = false) :
    Rivulet.ClaimsAlone g b := by
  rintro r reply error order key rfl
  cases h

theorem gateway_of_atGateway {b : CheckoutLabel} (h : p.atGateway ttl b = some (p', fs)) :
    (gateway ttl).step p.gateway b = some (p'.gateway, checkoutLog fs) := by
  obtain ⟨g', gs, hg, rfl, rfl⟩ := atGateway_some h
  rw [checkoutLog_gateway]
  exact hg

/-- The step of the gateway that publishes. -/
theorem gateway_of_produce {r : Nat} {order : Order} {reply : Reply}
    {eventId payload error traceparent tracestate : String}
    (h : p.produce ttl r order eventId payload reply error traceparent tracestate =
      some (p', fs)) :
    ∃ reply error, (gateway ttl).step p.gateway (.publish r reply error) =
      some (p'.gateway, checkoutLog fs) := by
  unfold Pipeline.produce at h
  split at h
  · exact ⟨_, _, gateway_of_atGateway h⟩
  · obtain ⟨⟨q, gs⟩, hg, he⟩ := Option.map_eq_some_iff.mp h
    have hstep := gateway_of_atGateway hg
    refine ⟨reply, error, ?_⟩
    split at he
    · obtain ⟨rfl, rfl⟩ := Prod.mk.inj he
      exact hstep
    · obtain ⟨rfl, rfl⟩ := Prod.mk.inj he
      rw [checkoutLog_append, show checkoutLog [.appended r _ _] = [] from rfl, List.append_nil]
      exact hstep

/-- A run of the pipeline is a run of the gateway, with the same condition on the claims. -/
theorem pipeline_gateway {C : Pipeline → PipelineLabel → Prop} {D : Gateway → CheckoutLabel → Prop}
    (hother : ∀ g b, b.isClaim = false → D g b)
    (hclaim : ∀ p r reply error, C p (.claim r reply error) →
      D p.gateway (.claim r reply error)) :
    Refines (pipeline ttl mapper db) C (gateway ttl) D (·.gateway) PipelineEvent.atGateway := by
  refine ⟨fun p h => h.gateway, fun p a p' fs hc h => ?_⟩
  simp only [pipeline] at h
  cases a with
  | tick millis => exact .inr ⟨_, hother _ _ rfl, gateway_of_atGateway h⟩
  | arrive request => exact .inr ⟨_, hother _ _ rfl, gateway_of_atGateway h⟩
  | claim r reply error => exact .inr ⟨_, hclaim p r reply error hc, gateway_of_atGateway h⟩
  | check r failure eventId entries =>
    simp only [stepPipeline] at h
    split at h
    · cases h
    · split at h
      · exact .inr ⟨_, hother _ _ rfl, gateway_of_atGateway h⟩
      · cases h
  | publish r reply error traceparent tracestate =>
    simp only [stepPipeline] at h
    split at h
    · obtain ⟨reply, error, hstep⟩ := gateway_of_produce h
      exact .inr ⟨_, hother _ _ rfl, hstep⟩
    · cases h
  | release r reply => exact .inr ⟨_, hother _ _ rfl, gateway_of_atGateway h⟩
  | crash r => exact .inr ⟨_, hother _ _ rfl, gateway_of_atGateway h⟩
  | work b =>
    obtain ⟨w', gs, -, -, rfl, rfl⟩ := work_step h
    exact .inl ⟨rfl, checkoutLog_worker gs⟩

/-- A run of the pipeline is a run of the workers. -/
theorem pipeline_worker {C : Pipeline → PipelineLabel → Prop} :
    Refines (pipeline ttl mapper db) C (worker db) Sys.anyStep (·.world)
      PipelineEvent.atWorker := by
  refine ⟨fun p h => h.world, fun p a p' fs _ h => ?_⟩
  cases pipeline_step h with
  | ticks | rejects | arrives | prepares => exact .inl ⟨rfl, rfl⟩
  | moves r keys stage gs => exact .inl ⟨rfl, workerLog_gateway gs⟩
  | appends => exact .inr ⟨.append _, trivial, rfl⟩
  | works b w' gs hs _ =>
    refine .inr ⟨b, trivial, ?_⟩
    rw [show (gs.map PipelineEvent.worker).filterMap PipelineEvent.atWorker = gs from
      workerLog_worker gs]
    exact hs

end steps

end Rivulet
end AutoSRE

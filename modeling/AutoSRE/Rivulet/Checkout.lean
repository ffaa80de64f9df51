import AutoSRE.Rivulet.Worker
import Mathlib.Logic.Function.Basic

/-!
# Checkouts (`OrderService`, `IdempotencyService`)

The API gateway as a system over the idempotency keys in Valkey and the requests in flight.

* `stepGateway`: a request claims its key (`SET NX PX`), checks the inventory, and publishes its
  event (`XADD`); when it fails before it publishes, it releases the key (`DEL`). A step of a
  request is one command with its `Reply`. Requests interleave, and the clock moves between any two
  steps.
* The value of every key is `"1"`; the model also keeps which request has claimed it (`Claim`).
* `OwnClaims`: a request releases its own claim at most, a claim sees one event at most, and the
  claim of a request that may have published is not released. It holds when a request claims its key
  while no other one that has claimed it before is in flight (`ClaimsAlone`, `own_claims`), and
  fails otherwise (`foreign_claim_released`).
-/

namespace AutoSRE
namespace Rivulet

open Lib

/-! ## Validation -/

/-- `Character.isWhitespace`. -/
def isWhitespace (c : Char) : Bool :=
  [0x20, 0x1680, 0x2028, 0x2029, 0x205f, 0x3000].contains c.toNat ||
    (0x09 ≤ c.toNat && c.toNat ≤ 0x0d) || (0x1c ≤ c.toNat && c.toNat ≤ 0x1f) ||
    (0x2000 ≤ c.toNat && c.toNat ≤ 0x200a && c.toNat != 0x2007)

/-- `String.isBlank`. -/
def isBlank (s : String) : Bool := s.toList.all isWhitespace

/-- `UUID.fromString` accepts the text and prints it in the same way, up to the case. -/
def isCanonicalUuid (s : String) : Bool :=
  s.toList.length == 36 && s.toList.zipIdx.all fun (c, i) =>
    if [8, 13, 18, 23].contains i then c == '-' else isHexDigit c

/-- The parameters of `processCheckout`; `none` is `null`. -/
structure CheckoutRequest where
  userId : Option String
  sku : Option String
  quantity : Int
  requestId : Option String

/-- `parseUserId`. -/
def parseUserId : Option String → Except String String
  | none => .error "userId must not be blank"
  | some userId =>
    if isBlank userId then .error "userId must not be blank"
    else if isCanonicalUuid userId then .ok (userId.map Char.toLower)
    else .error "userId must be a valid UUID"

/-- An order that passes the checks at the start of `processCheckout`. -/
structure Order where
  userId : String
  sku : String
  quantity : Int
  requestId : Option String
  quantity_pos : 0 < quantity

/-- The checks at the start of `processCheckout`. -/
def CheckoutRequest.validate (request : CheckoutRequest) : Except String Order := do
  let userId ← parseUserId request.userId
  match request.sku with
  | none => .error "sku must not be blank"
  | some sku =>
    if isBlank sku then .error "sku must not be blank"
    else if h : 0 < request.quantity then
      .ok ⟨userId, sku, request.quantity, request.requestId, h⟩
    else .error "quantity must be greater than zero"

/-- The idempotency key; a request without an id, or with a blank one, has none. -/
def keyOf : Option String → Option String
  | none => none
  | some requestId => if isBlank requestId then none else some ("idempotency:" ++ requestId)

/-! ## The gateway -/

/-- `rivulet.idempotency.ttl` in milliseconds, which the constructor checks. -/
structure ClaimTtl where
  millis : Nat
  pos : 0 < millis

/-- A key in Valkey: the request that has set it, and when it expires. -/
structure Claim where
  owner : Nat
  expiresAt : Nat

/-- Where a request is. -/
inductive CheckoutStage where
  /-- `SET NX PX` is next. -/
  | claim
  /-- The inventory is next. -/
  | check
  /-- `XADD` is next. -/
  | publish (eventId payload : String)
  /-- `DEL` is next, and then the error. -/
  | release (error : String)
  | done

/-- The request has claimed its key, and has not published or released. -/
def CheckoutStage.claimed : CheckoutStage → Bool
  | .check | .publish .. | .release _ => true
  | _ => false

structure Gateway where
  /-- The clock of Valkey, in milliseconds. -/
  now : Nat
  keys : String → Option Claim
  orders : Nat → Option Order
  stage : Nat → CheckoutStage
  /-- The number of the next request. -/
  next : Nat

inductive CheckoutEvent where
  /-- The `DEL` of a request, and whose claim it has deleted. -/
  | released (r : Nat) (claim : Option Nat)
  /-- The `XADD` of a request, whether it has appended the event, and under whose claim. -/
  | published (r : Nat) (appended : Bool) (claim : Option Nat)
  | answered (r : Nat) (result : Except String String)

inductive CheckoutLabel where
  | tick (millis : Nat)
  | arrive (request : CheckoutRequest)
  /-- `SET NX PX`. When it has no reply, `setIfAbsent` raises the error. -/
  | claim (r : Nat) (reply : Reply) (error : String)
  /-- The stock of the SKU in the database, the new event id, and the payload that the
  `ObjectMapper` writes, if it can. -/
  | check (r : Nat) (stock : Except String (Option Int)) (eventId : String)
    (payload : Option String)
  | publish (r : Nat) (reply : Reply) (error : String)
  | release (r : Nat) (reply : Reply)
  /-- The process of a request dies. -/
  | crash (r : Nat)

/-- The request whose claim the key holds. An expired key is not there. -/
def Gateway.live (g : Gateway) (key : String) : Option Nat :=
  match g.keys key with
  | some claim => if g.now < claim.expiresAt then some claim.owner else none
  | none => none

/-- `SET key "1" NX PX ttl`. -/
def Gateway.setIfAbsent (g : Gateway) (ttl : ClaimTtl) (key : String) (r : Nat) : Gateway × Bool :=
  match g.live key with
  | some _ => (g, false)
  | none =>
    ({ g with keys := Function.update g.keys key (some ⟨r, g.now + ttl.millis⟩) }, true)

/-- `DEL key`. -/
def Gateway.delete (g : Gateway) (key : String) : Gateway :=
  { g with keys := Function.update g.keys key none }

def Gateway.goto (g : Gateway) (r : Nat) (stage : CheckoutStage) : Gateway :=
  { g with stage := update g.stage r stage }

/-- The request ends with a result. -/
def Gateway.answer (g : Gateway) (r : Nat) (result : Except String String) :
    Gateway × List CheckoutEvent :=
  (g.goto r .done, [.answered r result])

/-- `checkAndSet`. -/
def claimKey (ttl : ClaimTtl) (g : Gateway) (r : Nat) (order : Order) (reply : Reply)
    (error : String) : Gateway × List CheckoutEvent :=
  match keyOf order.requestId with
  | none => (g.goto r .check, [])
  | some key =>
    match reply with
    | .failed => g.answer r (.error error)
    | .lost => (g.setIfAbsent ttl key r).1.answer r (.error error)
    | .ok =>
      if (g.setIfAbsent ttl key r).2 then ((g.setIfAbsent ttl key r).1.goto r .check, [])
      else g.answer r (.error "Duplicate request")

/-- `hasSufficientInventory`. -/
def hasSufficientInventory (order : Order) (stock : Option Int) : Bool :=
  !isBlank order.sku && stock.any fun quantity => decide (order.quantity ≤ quantity)

/-- From the inventory check to the payload. -/
def prepareEvent (order : Order) (stock : Except String (Option Int)) (payload : Option String) :
    Except String String := do
  let stock ← stock
  if !hasSufficientInventory order stock then
    throw ("Insufficient inventory for SKU: " ++ order.sku)
  match payload with
  | none => throw "Failed to serialize order event"
  | some payload => pure payload

/-- The request fails before it publishes: it releases its claim, if it has one. -/
def Gateway.abandon (g : Gateway) (r : Nat) (order : Order) (error : String) :
    Gateway × List CheckoutEvent :=
  match keyOf order.requestId with
  | none => g.answer r (.error error)
  | some _ => (g.goto r (.release error), [])

/-- `produce`; an error keeps the claim. -/
def publishEvent (g : Gateway) (r : Nat) (order : Order) (eventId : String) (reply : Reply)
    (error : String) : Gateway × List CheckoutEvent :=
  let claim := (keyOf order.requestId).bind g.live
  let result := if reply = .ok then .ok eventId else .error error
  (g.goto r .done, [.published r (reply != .failed) claim, .answered r result])

/-- `release`; its own error is suppressed. -/
def releaseKey (g : Gateway) (r : Nat) (order : Order) (error : String) (reply : Reply) :
    Gateway × List CheckoutEvent :=
  match keyOf order.requestId, reply with
  | some key, .ok | some key, .lost =>
    ((g.delete key).goto r .done, [.released r (g.live key), .answered r (.error error)])
  | _, _ => g.answer r (.error error)

/-- The step of a label. -/
def stepGateway (ttl : ClaimTtl) (g : Gateway) : CheckoutLabel →
    Option (Gateway × List CheckoutEvent)
  | .tick millis => some ({ g with now := g.now + millis }, [])
  | .arrive request =>
    match request.validate with
    | .error error =>
      some ({ g with next := g.next + 1 }, [.answered g.next (.error error)])
    | .ok order =>
      some ({ g with
          orders := update g.orders g.next (some order)
          stage := update g.stage g.next .claim
          next := g.next + 1 }, [])
  | .claim r reply error =>
    match g.stage r, g.orders r with
    | .claim, some order => some (claimKey ttl g r order reply error)
    | _, _ => none
  | .check r stock eventId payload =>
    match g.stage r, g.orders r with
    | .check, some order =>
      match prepareEvent order stock payload with
      | .error error => some (g.abandon r order error)
      | .ok payload => some (g.goto r (.publish eventId payload), [])
    | _, _ => none
  | .publish r reply error =>
    match g.stage r, g.orders r with
    | .publish eventId _, some order => some (publishEvent g r order eventId reply error)
    | _, _ => none
  | .release r reply =>
    match g.stage r, g.orders r with
    | .release error, some order => some (releaseKey g r order error reply)
    | _, _ => none
  | .crash r => some (g.goto r .done, [])

/-- The gateway at its start, without idempotency keys. -/
structure NewGateway (g : Gateway) : Prop where
  keys : ∀ key, g.keys key = none
  stage : ∀ r, g.stage r = .done
  next : g.next = 0

/-- The checkouts. -/
def gateway (ttl : ClaimTtl) : Sys Gateway CheckoutLabel CheckoutEvent where
  init := NewGateway
  step := stepGateway ttl

/-! ## Claims -/

/-- The event is appended under the claim of the request `c`. -/
def CheckoutEvent.publishedUnder (c : Nat) : CheckoutEvent → Bool
  | .published _ true (some owner) => owner == c
  | _ => false

/-- A request releases its own claim only, at most one event is appended under a claim, and the
claim of a request that may have published is not released. -/
structure OwnClaims (es : List CheckoutEvent) : Prop where
  released : ∀ r c, .released r (some c) ∈ es → c = r
  published : ∀ c, es.countP (CheckoutEvent.publishedUnder c) ≤ 1
  kept : ∀ pre r c post, es = pre ++ .released r (some c) :: post →
    ∀ appended claim, .published c appended claim ∉ pre

/-- A request claims its key only when no other one that has claimed the key before is still to
publish or to release. -/
def ClaimsAlone (g : Gateway) (a : CheckoutLabel) : Prop :=
  ∀ r reply error order key, a = .claim r reply error → reply ≠ .failed → g.orders r = some order →
    keyOf order.requestId = some key → g.live key = none → ∀ r' order', g.orders r' = some order' →
      keyOf order'.requestId = some key → (g.stage r').claimed = false

section claims

variable {ttl : ClaimTtl} {g g' : Gateway} {a : CheckoutLabel} {es fs : List CheckoutEvent}

/-- The events are answers. -/
def Answers (fs : List CheckoutEvent) : Prop := ∀ e ∈ fs, ∃ r result, e = .answered r result

theorem answers_nil : Answers [] := by
  intro e he
  cases he

theorem answers_one (r : Nat) (result : Except String String) : Answers [.answered r result] :=
  fun _ he => ⟨r, result, List.mem_singleton.mp he⟩

/-- What a step does to the keys and the requests. -/
inductive GatewayWay (ttl : ClaimTtl) (g : Gateway) (a : CheckoutLabel) :
    Gateway → List CheckoutEvent → Prop
  | ticks (millis : Nat) : GatewayWay ttl g a { g with now := g.now + millis } []
  | rejects (error : String) :
      GatewayWay ttl g a { g with next := g.next + 1 } [.answered g.next (.error error)]
  | arrives (order : Order) : GatewayWay ttl g a
      { g with
        orders := update g.orders g.next (some order)
        stage := update g.stage g.next .claim
        next := g.next + 1 } []
  /-- Without a change of the keys. -/
  | moves (r : Nat) (stage : CheckoutStage) (fs : List CheckoutEvent) :
      (stage.claimed = true → ∀ order key, g.orders r = some order →
        keyOf order.requestId = some key → (g.stage r).claimed = true) →
      (stage ≠ .done → g.stage r ≠ .done) → Answers fs → GatewayWay ttl g a (g.goto r stage) fs
  | claims (r : Nat) (order : Order) (key : String) (reply : Reply) (error : String)
      (stage : CheckoutStage) (fs : List CheckoutEvent) : a = .claim r reply error →
      reply ≠ .failed → g.orders r = some order → keyOf order.requestId = some key →
      g.live key = none → g.stage r = .claim → Answers fs →
      GatewayWay ttl g a
        ({ g with keys := Function.update g.keys key (some ⟨r, g.now + ttl.millis⟩) }.goto r stage)
        fs
  | publishes (r : Nat) (order : Order) (eventId payload : String) (appended : Bool)
      (result : Except String String) : g.stage r = .publish eventId payload →
      g.orders r = some order →
      GatewayWay ttl g a (g.goto r .done)
        [.published r appended ((keyOf order.requestId).bind g.live), .answered r result]
  | releases (r : Nat) (order : Order) (key error : String) : g.stage r = .release error →
      g.orders r = some order → keyOf order.requestId = some key →
      GatewayWay ttl g a ((g.delete key).goto r .done)
        [.released r (g.live key), .answered r (.error error)]

/-- A request that ends without another effect. -/
theorem GatewayWay.answers (r : Nat) (result : Except String String) :
    GatewayWay ttl g a (g.answer r result).1 (g.answer r result).2 :=
  .moves r .done _ nofun (fun h => absurd rfl h) (answers_one r result)

theorem claimKey_way {r : Nat} {order : Order} {reply : Reply} {error : String}
    (hs : g.stage r = .claim) (ho : g.orders r = some order) (ha : a = .claim r reply error) :
    GatewayWay ttl g a (claimKey ttl g r order reply error).1
      (claimKey ttl g r order reply error).2 := by
  have hpending : g.stage r ≠ .done := by
    rw [hs]
    nofun
  unfold claimKey
  split
  · rename_i hk
    refine .moves r .check _ (fun _ order' key ho' hk' => ?_) (fun _ => hpending) answers_nil
    rw [ho, Option.some.injEq] at ho'
    rw [← ho', hk] at hk'
    cases hk'
  · rename_i key hk
    cases hl : g.live key with
    | some owner =>
      have hset : g.setIfAbsent ttl key r = (g, false) := by simp [Gateway.setIfAbsent, hl]
      rw [hset]
      cases reply with
      | ok | failed | lost => exact .answers r _
    | none =>
      have hset : g.setIfAbsent ttl key r = ({ g with
          keys := Function.update g.keys key (some ⟨r, g.now + ttl.millis⟩) }, true) := by
        simp [Gateway.setIfAbsent, hl]
      rw [hset]
      cases reply with
      | failed => exact .answers r _
      | ok => exact .claims r order key .ok error .check _ ha nofun ho hk hl hs answers_nil
      | lost =>
        exact .claims r order key .lost error .done _ ha nofun ho hk hl hs (answers_one r _)

theorem gateway_step (h : (gateway ttl).step g a = some (g', fs)) : GatewayWay ttl g a g' fs := by
  simp only [gateway] at h
  cases a with
  | tick millis =>
    obtain ⟨rfl, rfl⟩ := Prod.mk.inj (Option.some.inj h)
    exact .ticks millis
  | arrive request =>
    simp only [stepGateway] at h
    split at h
    · obtain ⟨rfl, rfl⟩ := Prod.mk.inj (Option.some.inj h)
      exact .rejects _
    · obtain ⟨rfl, rfl⟩ := Prod.mk.inj (Option.some.inj h)
      exact .arrives _
  | claim r reply error =>
    simp only [stepGateway] at h
    split at h
    · rename_i order hs ho
      have hway : GatewayWay ttl g (.claim r reply error) (claimKey ttl g r order reply error).1
          (claimKey ttl g r order reply error).2 := claimKey_way hs ho rfl
      rwa [Option.some.inj h] at hway
    · cases h
  | check r stock eventId payload =>
    simp only [stepGateway] at h
    split at h
    · rename_i order hs ho
      have hpending : g.stage r ≠ .done := by
        rw [hs]
        nofun
      have hclaimed : (g.stage r).claimed = true := by rw [hs]; rfl
      split at h
      · rename_i error _
        unfold Gateway.abandon at h
        split at h
        · obtain ⟨rfl, rfl⟩ := Prod.mk.inj (Option.some.inj h)
          exact .answers r _
        · obtain ⟨rfl, rfl⟩ := Prod.mk.inj (Option.some.inj h)
          exact .moves r _ _ (fun _ _ _ _ _ => hclaimed) (fun _ => hpending) answers_nil
      · obtain ⟨rfl, rfl⟩ := Prod.mk.inj (Option.some.inj h)
        exact .moves r _ _ (fun _ _ _ _ _ => hclaimed) (fun _ => hpending) answers_nil
    · cases h
  | publish r reply error =>
    simp only [stepGateway] at h
    split at h
    · rename_i eventId payload order hs ho
      obtain ⟨rfl, rfl⟩ := Prod.mk.inj (Option.some.inj h)
      exact .publishes r order eventId payload _ _ hs ho
    · cases h
  | release r reply =>
    simp only [stepGateway] at h
    split at h
    · rename_i error order hs ho
      unfold releaseKey at h
      split at h
      · rename_i key hk
        obtain ⟨rfl, rfl⟩ := Prod.mk.inj (Option.some.inj h)
        exact .releases r order key error hs ho hk
      · rename_i key hk
        obtain ⟨rfl, rfl⟩ := Prod.mk.inj (Option.some.inj h)
        exact .releases r order key error hs ho hk
      · obtain ⟨rfl, rfl⟩ := Prod.mk.inj (Option.some.inj h)
        exact .answers r _
    · cases h
  | crash r =>
    obtain ⟨rfl, rfl⟩ := Prod.mk.inj (Option.some.inj h)
    exact .moves r .done _ nofun (fun h => absurd rfl h) answers_nil

/-- The keys of the requests in flight hold no claim of another request, and a request that has
published is over. -/
structure Owned (es : List CheckoutEvent) (g : Gateway) : Prop where
  own : ∀ r order key c, g.orders r = some order → keyOf order.requestId = some key →
    (g.stage r).claimed = true → g.live key = some c → c = r
  arrived : ∀ r, g.stage r ≠ .done → r < g.next
  ended : ∀ r appended claim, .published r appended claim ∈ es → r < g.next ∧ g.stage r = .done
  owner : ∀ r appended c, .published r appended (some c) ∈ es → c = r

/-- Answers are no publications. -/
theorem Answers.published {r : Nat} {appended : Bool} {claim : Option Nat} (h : Answers fs)
    (hm : .published r appended claim ∈ es ++ fs) : .published r appended claim ∈ es := by
  rcases List.mem_append.mp hm with hm | hm
  · exact hm
  · obtain ⟨_, _, he⟩ := h _ hm
    cases he

/-- An expired claim does not come back. -/
theorem live_of_tick {millis : Nat} {key : String} {c : Nat}
    (h : ({ g with now := g.now + millis } : Gateway).live key = some c) :
    g.live key = some c := by
  unfold Gateway.live at h ⊢
  split at h
  · split at h
    · rename_i claim hk hlt
      have hlt' : g.now < claim.expiresAt := by
        have hle : g.now + millis < claim.expiresAt := hlt
        omega
      rw [hk, ← h]
      simp [hlt']
    · cases h
  · cases h

theorem live_delete {key other : String} {c : Nat} (h : (g.delete key).live other = some c) :
    g.live other = some c := by
  unfold Gateway.live Gateway.delete at h
  by_cases ho : other = key
  · subst ho
    simp at h
  · simpa [Gateway.live, ho] using h

/-- A request moves on. A publication in `fs` is its own, and its last step. -/
theorem Owned.goto {r : Nat} {stage : CheckoutStage} (hg : Owned es g)
    (keys : String → Option Claim) (hpending : stage ≠ .done → g.stage r ≠ .done)
    (hown : ∀ r' order key c, g.orders r' = some order → keyOf order.requestId = some key →
      (update g.stage r stage r').claimed = true →
      ({ g with keys } : Gateway).live key = some c → c = r')
    (hf : ∀ r' appended claim, .published r' appended claim ∈ fs →
      r' = r ∧ g.stage r ≠ .done ∧ stage = .done ∧ ∀ c, claim = some c → c = r) :
    Owned (es ++ fs) ({ g with keys }.goto r stage) := by
  refine ⟨hown, fun r' hr' => ?_, fun r' appended claim hm => ?_, fun r' appended c hm => ?_⟩
  · by_cases he : r' = r
    · subst he
      exact hg.arrived r' (hpending (by simpa [Gateway.goto] using hr'))
    · exact hg.arrived r' (by simpa [Gateway.goto, update_ne _ _ he] using hr')
  · rcases List.mem_append.mp hm with hm | hm
    · obtain ⟨hlt, hdone⟩ := hg.ended r' appended claim hm
      refine ⟨hlt, ?_⟩
      by_cases he : r' = r
      · subst he
        have hstage : stage = .done := Classical.byContradiction fun hne => hpending hne hdone
        simp [Gateway.goto, hstage]
      · simpa [Gateway.goto, update_ne _ _ he] using hdone
    · obtain ⟨rfl, hne, rfl, -⟩ := hf r' appended claim hm
      exact ⟨hg.arrived r' hne, by simp [Gateway.goto]⟩
  · rcases List.mem_append.mp hm with hm | hm
    · exact hg.owner r' appended c hm
    · obtain ⟨rfl, -, -, hc⟩ := hf r' appended (some c) hm
      exact hc c rfl

/-- A request that is over has no claim to publish or to release. -/
theorem Owned.own_goto {r r' : Nat} {order : Order} {key : String} {c : Nat} (hg : Owned es g)
    (stage : CheckoutStage)
    (hclaimed : stage.claimed = true → ∀ order key, g.orders r = some order →
        keyOf order.requestId = some key → (g.stage r).claimed = true)
    (ho : g.orders r' = some order) (hk : keyOf order.requestId = some key)
    (hs : (update g.stage r stage r').claimed = true) (hl : g.live key = some c) : c = r' := by
  by_cases he : r' = r
  · subst he
    rw [update_self] at hs
    exact hg.own r' order key c ho hk (hclaimed hs order key ho hk) hl
  · rw [update_ne _ _ he] at hs
    exact hg.own r' order key c ho hk hs hl

theorem owned_step (hg : Owned es g) (hc : ClaimsAlone g a) (h : GatewayWay ttl g a g' fs) :
    Owned (es ++ fs) g' := by
  cases h with
  | ticks millis =>
    rw [List.append_nil]
    exact ⟨fun r order key c ho hk hs hl => hg.own r order key c ho hk hs (live_of_tick hl),
      hg.arrived, hg.ended, hg.owner⟩
  | rejects error =>
    have hquiet := answers_one g.next (.error error)
    refine ⟨hg.own, fun r hr => Nat.lt_succ_of_lt (hg.arrived r hr), fun r appended claim hm => ?_,
      fun r appended c hm => hg.owner r appended c (hquiet.published hm)⟩
    obtain ⟨hlt, hdone⟩ := hg.ended r appended claim (hquiet.published hm)
    exact ⟨Nat.lt_succ_of_lt hlt, hdone⟩
  | arrives order =>
    rw [List.append_nil]
    refine ⟨fun r order' key c ho hk hs hl => ?_, fun r hr => ?_, fun r appended claim hm => ?_,
      hg.owner⟩
    · by_cases hr : r = g.next
      · subst hr
        simp [CheckoutStage.claimed] at hs
      · simp only [update_ne _ _ hr] at ho hs
        exact hg.own r order' key c ho hk hs hl
    · by_cases hr' : r = g.next
      · exact hr' ▸ Nat.lt_succ_self _
      · simp only [update_ne _ _ hr'] at hr
        exact Nat.lt_succ_of_lt (hg.arrived r hr)
    · obtain ⟨hlt, hdone⟩ := hg.ended r appended claim hm
      refine ⟨Nat.lt_succ_of_lt hlt, ?_⟩
      simp only [update_ne _ _ (Nat.ne_of_lt hlt)]
      exact hdone
  | moves r stage fs hclaimed hpending hquiet =>
    refine hg.goto g.keys hpending (fun r' order key c ho hk hs hl => ?_)
      fun r' appended claim hm => ?_
    · exact hg.own_goto stage hclaimed ho hk hs hl
    · obtain ⟨_, _, he⟩ := hquiet _ hm
      cases he
  | claims r order key reply error stage fs ha hr ho hk hl hs hquiet =>
    have halone := hc r reply error order key ha hr ho hk hl
    refine hg.goto _ (fun _ => by rw [hs]; nofun) (fun r' order' key' c ho' hk' hs' hl' => ?_)
      fun r' appended claim hm => ?_
    · by_cases hkey : key' = key
      · subst hkey
        -- No other request in flight has claimed this key.
        have hrr : r' = r := by
          refine Classical.byContradiction fun hne => ?_
          rw [update_ne _ _ hne, halone r' order' ho' hk'] at hs'
          cases hs'
        have hlive : c = r := by
          simp only [Gateway.live, Function.update_self] at hl'
          rw [if_pos (Nat.lt_add_of_pos_right ttl.pos)] at hl'
          exact (Option.some.inj hl').symm
        rw [hlive, hrr]
      · have hne : r' ≠ r := by
          rintro rfl
          rw [ho, Option.some.injEq] at ho'
          rw [← ho', hk, Option.some.injEq] at hk'
          exact hkey hk'.symm
        rw [update_ne _ _ hne] at hs'
        refine hg.own r' order' key' c ho' hk' hs' ?_
        simpa [Gateway.live, Function.update_of_ne hkey] using hl'
    · obtain ⟨_, _, he⟩ := hquiet _ hm
      cases he
  | publishes r order eventId payload appended result hs ho =>
    have hpending : g.stage r ≠ .done := by
      rw [hs]
      nofun
    refine hg.goto g.keys (fun h => absurd rfl h)
      (fun r' order' key c ho' hk hs' hl => ?_) fun r' appended' claim hm => ?_
    · exact hg.own_goto .done nofun ho' hk hs' hl
    · obtain ⟨rfl, rfl, rfl⟩ : r' = r ∧ appended' = appended ∧
          claim = (keyOf order.requestId).bind g.live := by simpa using hm
      refine ⟨rfl, hpending, rfl, fun c hclaim => ?_⟩
      obtain ⟨key, hk, hl⟩ := Option.bind_eq_some_iff.mp hclaim
      exact hg.own r' order key c ho hk (by rw [hs]; rfl) hl
  | releases r order key error hs ho hk =>
    refine hg.goto _ (fun h => absurd rfl h) (fun r' order' key' c ho' hk' hs' hl' => ?_)
      fun r' appended claim hm => ?_
    · exact hg.own_goto .done nofun ho' hk' hs' (live_delete hl')
    · simp at hm

theorem owned_run {n : Nat} (hr : (gateway ttl).Run ClaimsAlone n es g) : Owned es g := by
  refine hr.inv (I := Owned) (fun g hi => ?_) fun n es g a g' fs _ hg hc hs =>
    owned_step hg hc (gateway_step hs)
  refine ⟨fun r order key c _ _ hs _ => ?_, fun r hr => absurd (hi.stage r) hr, ?_, ?_⟩
  · rw [hi.stage r] at hs
    cases hs
  · intro r appended claim hm
    cases hm
  · intro r appended c hm
    cases hm

/-- A release deletes the claim of the request itself. -/
theorem released_own {n : Nat} (hr : (gateway ttl).Run ClaimsAlone n es g) {r c : Nat}
    (hm : .released r (some c) ∈ es) : c = r := by
  obtain ⟨n₁, es₁, g₁, a, g₂, fs, hr₁, -, hstep, hm⟩ := hr.logged hm
  cases gateway_step hstep with
  | releases r' order key error hs ho hk =>
    obtain ⟨rfl, hl⟩ : r = r' ∧ some c = g₁.live key := by simpa using hm
    exact (owned_run hr₁).own r order key c ho hk (by rw [hs]; rfl) hl.symm
  | moves _ _ _ _ _ hquiet | claims _ _ _ _ _ _ _ _ _ _ _ _ _ hquiet =>
    obtain ⟨_, _, he⟩ := hquiet _ hm
    cases he
  | _ => simp at hm

theorem Answers.publishedUnder (h : Answers fs) (c : Nat) :
    fs.countP (CheckoutEvent.publishedUnder c) = 0 := by
  rw [List.countP_eq_zero]
  intro e he
  obtain ⟨_, _, rfl⟩ := h e he
  simp [CheckoutEvent.publishedUnder]

/-- Under a claim nothing is appended but the event of its request. -/
theorem Owned.publishedUnder_eq_zero (hg : Owned es g) {r : Nat} (hs : g.stage r ≠ .done) :
    es.countP (CheckoutEvent.publishedUnder r) = 0 := by
  rw [List.countP_eq_zero]
  intro e he hu
  unfold CheckoutEvent.publishedUnder at hu
  split at hu
  · rename_i r' owner
    obtain rfl : owner = r := by simpa using hu
    have hr' := hg.owner r' true owner he
    exact hs (hr' ▸ (hg.ended r' true (some owner) he).2)
  · cases hu

/-- At most one event is appended under a claim. -/
theorem published_once {n : Nat} (hr : (gateway ttl).Run ClaimsAlone n es g) (c : Nat) :
    es.countP (CheckoutEvent.publishedUnder c) ≤ 1 := by
  refine hr.inv (I := fun es _ => es.countP (CheckoutEvent.publishedUnder c) ≤ 1)
    (fun _ _ => Nat.zero_le 1) fun n es g a g' fs hr hi hc hs => ?_
  have hg := owned_run hr
  have hg' := owned_step hg hc (gateway_step hs)
  rw [List.countP_append]
  cases gateway_step hs with
  | ticks | arrives => simpa using hi
  | rejects error => simpa [(answers_one g.next (.error error)).publishedUnder c] using hi
  | moves _ _ _ _ _ hquiet | claims _ _ _ _ _ _ _ _ _ _ _ _ _ hquiet =>
    simpa [hquiet.publishedUnder c] using hi
  | releases r order key error hs ho hk => simpa [CheckoutEvent.publishedUnder] using hi
  | publishes r order eventId payload appended result hstage ho =>
    by_cases hu : CheckoutEvent.publishedUnder c
        (.published r appended ((keyOf order.requestId).bind g.live)) = true
    · -- The claim is the one of the request, so nothing was appended under it before.
      have hzero : es.countP (CheckoutEvent.publishedUnder r) = 0 :=
        hg.publishedUnder_eq_zero (by rw [hstage]; nofun)
      have hcr : c = r := by
        unfold CheckoutEvent.publishedUnder at hu
        split at hu
        · rename_i owner he
          obtain ⟨rfl, rfl, hclaim⟩ := CheckoutEvent.published.inj he
          obtain rfl : owner = c := by simpa using hu
          exact hg'.owner _ true owner (by simp [hclaim])
        · cases hu
      rw [hcr] at hu ⊢
      rw [hzero, List.countP_cons, if_pos hu]
      simp [CheckoutEvent.publishedUnder]
    · rw [List.countP_cons, if_neg hu]
      simpa [CheckoutEvent.publishedUnder] using hi

/-- In the runs in which a request claims its key only when no other one that has claimed it before
is in flight, claims are released and published under by their own requests only. -/
theorem own_claims {n : Nat} (hr : (gateway ttl).Run ClaimsAlone n es g) : OwnClaims es := by
  refine ⟨fun r c hm => released_own hr hm, published_once hr, ?_⟩
  intro pre r c post he appended claim hm
  obtain rfl := released_own hr (r := r) (c := c) (by simp [he])
  obtain ⟨n₁, es₁, g₁, a, g₂, fs, fs₁, fs₂, hr₁, -, hstep, hfs, rfl⟩ := hr.split he
  have hrel : .released c (some c) ∈ fs := by simp [hfs]
  have hpub : ∀ e ∈ fs₁, e ∈ fs := fun e he => by simp [hfs, he]
  cases gateway_step hstep with
  | releases r' order key error hs ho hk =>
    obtain ⟨rfl, -⟩ : c = r' ∧ some c = g₁.live key := by simpa using hrel
    rcases List.mem_append.mp hm with hm | hm
    · have hdone := ((owned_run hr₁).ended c appended claim hm).2
      rw [hs] at hdone
      cases hdone
    · simpa using hpub _ hm
  | moves _ _ _ _ _ hquiet | claims _ _ _ _ _ _ _ _ _ _ _ _ _ hquiet =>
    obtain ⟨_, _, he⟩ := hquiet _ hrel
    cases he
  | _ => simp at hrel

end claims

/-! ### The sample checkouts -/

/-- The default of `rivulet.idempotency.ttl`: 24 hours. -/
def defaultTtl : ClaimTtl := ⟨86400000, by decide⟩

/-- No keys and no requests. -/
def newGateway : Gateway where
  now := 0
  keys := fun _ => none
  orders := fun _ => none
  stage := fun _ => .done
  next := 0

theorem newGateway_new : NewGateway newGateway := ⟨fun _ => rfl, fun _ => rfl, rfl⟩

/-- A checkout of one piece. -/
def sampleCheckout : CheckoutRequest where
  userId := some "00000000-0000-0000-0000-000000000001"
  sku := some "mouse"
  quantity := 1
  requestId := some "req-1"

/-- No other request is in flight when a key is claimed. -/
def checkAlone (g : Gateway) : CheckoutLabel → Bool
  | .claim .. => (List.range g.next).all fun r => !(g.stage r).claimed
  | _ => true

/-- The check looks at the requests that have arrived, and there are no others in flight. -/
theorem run_of_checkAlone {ttl : ClaimTtl} {n : Nat} {es : List CheckoutEvent} {g : Gateway}
    (hr : (gateway ttl).Run (fun g a => checkAlone g a = true) n es g) :
    (gateway ttl).Run ClaimsAlone n es g := by
  induction hr with
  | init hi => exact .init hi
  | @step n es g g' a fs _ hc hs ih =>
    refine .step a ih ?_ hs
    rintro r reply error order key rfl - - - - r' order' - -
    cases hclaimed : (g.stage r').claimed with
    | false => rfl
    | true =>
      have hlt : r' < g.next := (owned_run ih).arrived r' fun hdone => by
        rw [hdone] at hclaimed
        cases hclaimed
      have hnot := List.all_eq_true.mp hc r' (List.mem_range.mpr hlt)
      rw [hclaimed] at hnot
      cases hnot

/-- The log appends an event under its own claim, and deletes a claim. -/
def publishesAndReleases (es : List CheckoutEvent) : Bool :=
  es.any (CheckoutEvent.publishedUnder 1) && es.any fun e =>
    match e with
    | .released 0 (some 0) => true
    | _ => false

/-- A checkout that fails before it publishes, and the retry of the client. -/
def retriedCheckout : List CheckoutLabel :=
  [.arrive sampleCheckout, .claim 0 .ok "", .check 0 (.ok (some 0)) "event-0" none, .release 0 .ok,
    .arrive sampleCheckout, .claim 1 .ok "", .check 1 (.ok (some 5)) "event-1" (some "\x7b\x7d"),
    .publish 1 .lost "timeout"]

theorem own_claims_retried :
    ∃ n es g, (gateway defaultTtl).Run ClaimsAlone n es g ∧ publishesAndReleases es = true ∧
      OwnClaims es := by
  have hexec : (((gateway defaultTtl).restrict checkAlone).exec newGateway retriedCheckout).any
      (fun r => publishesAndReleases r.2) = true := by
    decide +kernel
  obtain ⟨g, es, hr, hc⟩ := Sys.exists_checked_run
    (C := fun g a => checkAlone g a = true) (fun _ _ h => h) newGateway_new hexec
  exact ⟨_, es, g, run_of_checkAlone hr, hc, own_claims (run_of_checkAlone hr)⟩

/-- The first request is still in flight when its claim expires; the retry claims the key and
publishes, and the release of the first request deletes the claim of the retry. -/
def slowCheckout : List CheckoutLabel :=
  [.arrive sampleCheckout, .claim 0 .ok "", .tick 86400000, .arrive sampleCheckout,
    .claim 1 .ok "", .check 1 (.ok (some 1)) "event-1" (some "\x7b\x7d"), .publish 1 .ok "",
    .check 0 (.ok (some 0)) "event-0" none, .release 0 .ok]

/-- The log deletes the claim of the request 1 for the request 0. -/
def releasesForeign : CheckoutEvent → Bool
  | .released 0 (some 1) => true
  | _ => false

theorem foreign_claim_released :
    ¬ ∀ (ttl : ClaimTtl) (n : Nat) (es : List CheckoutEvent) (g : Gateway),
      (gateway ttl).Run Sys.anyStep n es g → OwnClaims es := by
  intro hall
  have hexec : ((gateway defaultTtl).exec newGateway slowCheckout).any
      (fun r => r.2.any releasesForeign) = true := by
    decide +kernel
  obtain ⟨g, es, hr, hc⟩ := Sys.exists_any_run newGateway_new hexec
  obtain ⟨e, he, hrel⟩ := List.any_eq_true.mp hc
  unfold releasesForeign at hrel
  split at hrel
  · exact absurd ((hall _ _ es g hr).released 0 1 he) (by decide)
  · cases hrel

end Rivulet
end AutoSRE

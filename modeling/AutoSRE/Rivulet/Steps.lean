import AutoSRE.Rivulet.Worker

/-!
# The steps of the workers

- **A delivery** (`Advanced`, `advanced`). The nine ways in which a step of a delivery ends.
- **A step** (`Stepped`, `stepped`). A new entry, a new delivery, a step of a delivery or a crash.
- **The database** (`DbStep`, `dbStep`). Every step leaves the database alone, or is one of the
  four steps of a transaction.
-/

namespace AutoSRE
namespace Rivulet

open Lib

/-- What the transaction of a delivery has written. -/
inductive Tx where
  | idle
  | deducted (event : OrderEvent)
  | inserted (event : OrderEvent)

def Stage.tx : Stage → Tx
  | .newOrderId event | .insertOrder event => .deducted event
  | .commitTx event => .inserted event
  | _ => .idle

/-- The event that `handleEvent` works on. -/
def Stage.event : Stage → Option OrderEvent
  | .beginTx event | .updateInventory event | .newOrderId event | .insertOrder event
  | .commitTx event => some event
  | _ => none

@[simp] theorem afterHandle_tx (r : Result) : (afterHandle r).tx = .idle := by cases r <;> rfl

@[simp] theorem afterHandle_event (r : Result) : (afterHandle r).event = none := by cases r <;> rfl

/-- An event as a commit: the delivery and the event whose order it has committed. -/
def Event.commit : Event → Option (Nat × OrderEvent)
  | .committed d event => some (d, event)
  | _ => none

/-- The commits of a log. -/
def commits (es : List Event) : List (Nat × OrderEvent) := es.filterMap Event.commit

@[simp] theorem commits_append (es fs : List Event) :
    commits (es ++ fs) = commits es ++ commits fs :=
  List.filterMap_append

/-! ## A step of a delivery -/

/-- The results of a step of the delivery `d` of `message` from a stage. -/
inductive Advanced (w : World) (d : Nat) (message : Delivery) (reply : Reply) :
    Stage → World → List Event → Prop
  /-- Nothing but the stage changes. -/
  | goes {s s' : Stage} : s'.tx = s.tx → (∀ source, s' ≠ .ack source) →
      (∀ event, s'.event = some event →
        s.event = some event ∨ message.payload.event = some event) →
      Advanced w d message reply s (w.goto d s') []
  | copies {reason : String} {s' : Stage} : s' = .ack .deadLettered ∨ s' = .gone →
      Advanced w d message reply (.deadLetter reason)
        ((w.addDeadLetter ⟨message, reason⟩).goto d s') [.deadLettered d message.entry]
  | acks {source : AckSource} :
      Advanced w d message reply (.ack source) ((w.removePending message.entry).goto d .gone)
        [.acked d message.entry source]
  /-- `handleEvent` returns an error before its transaction. -/
  | refuses {s : Stage} {r : Result} : s.tx = .idle → r ≠ .processed →
      (∀ msg, r = .permanent msg → s = .handle ∧ message.payload.event = none) →
      Advanced w d message reply s (w.goto d (afterHandle r)) [.handled d r]
  /-- `handleEvent` returns an error in its transaction. -/
  | fails {s : Stage} {r : Result} : r ≠ .processed →
      (∀ msg, r = .permanent msg → ∃ event, s = .updateInventory event ∧ reply = .ok ∧
        canUpdate event = true ∧
        w.inventory.write d event.sku (deductInventory event.quantity) = .unmatched) →
      Advanced w d message reply s ((w.abort d).goto d (afterHandle r)) [.handled d r]
  | deducts {event : OrderEvent} {inventory : Table String Nat (Option Int)} :
      w.inventory.write d event.sku (deductInventory event.quantity) = .written inventory →
      Advanced w d message reply (.updateInventory event)
        ((w.setInventory inventory).goto d (.newOrderId event)) []
  | inserts {event : OrderEvent} {orders : Table String Nat (Option OrderRow)} :
      w.orders.write d event.eventId (insertRow event.userId) = .written orders →
      Advanced w d message reply (.insertOrder event)
        ((w.setOrders orders).goto d (.commitTx event)) []
  | commits {event : OrderEvent} {r : Result} : (∀ msg, r ≠ .permanent msg) →
      Advanced w d message reply (.commitTx event) ((w.commit d).goto d (afterHandle r))
        [.committed d event, .handled d r]

theorem updateInventory_advanced {w w' : World} {d : Nat} {message : Delivery}
    {event : OrderEvent} {reply : Reply} {fs : List Event}
    (h : updateInventory w d event reply = some (w', fs)) :
    Advanced w d message reply (.updateInventory event) w' fs := by
  simp only [updateInventory] at h
  split at h
  · rename_i hok
    split at h
    · rename_i inventory hw
      cases h
      exact .deducts hw
    · rename_i hw
      cases h
      exact .fails nofun fun msg _ => ⟨event, rfl, hok.1, hok.2, hw⟩
    · cases h
  · cases h
    exact .fails nofun nofun

theorem insertOrder_advanced {w w' : World} {d : Nat} {message : Delivery}
    {event : OrderEvent} {reply : Reply} {fs : List Event}
    (h : insertOrder w d event reply = some (w', fs)) :
    Advanced w d message reply (.insertOrder event) w' fs := by
  simp only [insertOrder] at h
  split at h
  · split at h
    · rename_i orders hw
      cases h
      exact .inserts hw
    · cases h
      exact .fails nofun nofun
    · cases h
  · cases h
    exact .fails nofun nofun

/-- A step of a delivery. -/
theorem advanced {w w' : World} {d : Nat} {message : Delivery} {reply : Reply} {s : Stage}
    {fs : List Event} (h : advance w d message reply s = some (w', fs)) :
    Advanced w d message reply s w' fs := by
  cases s with
  | received =>
    simp only [advance] at h
    split at h <;> cases h <;> exact .goes rfl nofun nofun
  | deadLetter reason =>
    simp only [advance, Option.some.injEq] at h
    cases reply with
    | ok => cases h; exact .copies (.inl rfl)
    | failed => cases h; exact .goes rfl nofun nofun
    | lost => cases h; exact .copies (.inr rfl)
  | handle =>
    simp only [advance] at h
    split at h
    · rename_i v hv
      split at h
      · rename_i msg he
        cases h
        exact .refuses rfl nofun fun _ _ => ⟨rfl, by simp [Payload.event, hv, he, Except.toOption]⟩
      · rename_i event he
        cases h
        refine .goes rfl nofun fun ev hev => .inr ?_
        cases hev
        simp [Payload.event, hv, he, Except.toOption]
    · cases h
  | beginTx event =>
    simp only [advance] at h
    split at h
    · cases h
      exact .goes rfl nofun fun ev hev => .inl hev
    · cases h
      exact .refuses rfl nofun nofun
  | updateInventory event => exact updateInventory_advanced h
  | newOrderId event =>
    simp only [advance] at h
    split at h
    · cases h
      exact .goes rfl nofun fun ev hev => .inl hev
    · cases h
      exact .fails nofun nofun
  | insertOrder event => exact insertOrder_advanced h
  | commitTx event =>
    simp only [advance, Option.some.injEq] at h
    cases reply with
    | ok => cases h; exact .commits nofun
    | failed => cases h; exact .fails nofun nofun
    | lost => cases h; exact .commits nofun
  | ack source =>
    simp only [advance, Option.some.injEq] at h
    cases reply with
    | failed => cases h; exact .goes rfl nofun nofun
    | ok | lost => cases h; exact .acks
  | gone => cases h

/-- What a step of the delivery `d` leaves as it is. -/
structure Moved (w w' : World) (d : Nat) : Prop where
  entries : w'.entries = w.entries
  read : w'.read = w.read
  deliveries : w'.deliveries = w.deliveries
  next : w'.next = w.next
  stage : ∀ d', d' ≠ d → w'.stage d' = w.stage d'
  pending : ∀ i p, w'.pending i = some p → w.pending i = some p

theorem moved_goto {w w' : World} (d : Nat) (s : Stage) (h : Moved w w' d) :
    Moved w (w'.goto d s) d :=
  ⟨h.entries, h.read, h.deliveries, h.next,
    fun d' hd => (update_ne _ _ hd).trans (h.stage d' hd), h.pending⟩

theorem moved_refl (w : World) (d : Nat) : Moved w w d :=
  ⟨rfl, rfl, rfl, rfl, fun _ _ => rfl, fun _ _ h => h⟩

theorem moved_abort (w : World) (d : Nat) (s : Stage) : Moved w ((w.abort d).goto d s) d :=
  moved_goto d s ⟨rfl, rfl, rfl, rfl, fun _ _ => rfl, fun _ _ h => h⟩

theorem moved_removePending (w : World) (d entry : Nat) : Moved w (w.removePending entry) d := by
  refine ⟨rfl, rfl, rfl, rfl, fun _ _ => rfl, fun i p h => ?_⟩
  by_cases hi : i = entry
  · subst hi
    simp [World.removePending] at h
  · simpa [World.removePending, update_ne _ _ hi] using h

theorem Advanced.moved {w w' : World} {d : Nat} {message : Delivery} {reply : Reply}
    {s : Stage} {fs : List Event} (h : Advanced w d message reply s w' fs) : Moved w w' d := by
  cases h with
  | goes | refuses => exact moved_goto d _ (moved_refl w d)
  | fails => exact moved_abort w d _
  | acks => exact moved_goto d _ (moved_removePending w d _)
  | copies | deducts | inserts | commits =>
    exact moved_goto d _ ⟨rfl, rfl, rfl, rfl, fun _ _ => rfl, fun _ _ h => h⟩

/-! ## A step of the system -/

/-- What a label does. -/
inductive Stepped (w : World) : Label → World → List Event → Prop
  | appends (payload : Payload) :
      Stepped w (.append payload) { w with entries := w.entries ++ [payload] } []
  | reads (consumer : String) {payload : Payload} : w.entries[w.read]? = some payload →
      Stepped w (.read consumer)
        (deliver { w with read := w.read + 1 } ⟨w.read, payload, consumer, 1⟩ 1).1
        [.delivered w.next ⟨w.read, payload, consumer, 1⟩]
  | claims (message : Delivery) {p seen : Pending} (n : Nat) :
      w.pending message.entry = some p → w.entries[message.entry]? = some message.payload →
      Stepped w (.claim message.consumer message.entry seen) (deliver w message n).1
        [.delivered w.next message]
  | advances {d : Nat} {message : Delivery} {reply : Reply} {w' : World} {fs : List Event} :
      w.deliveries d = some message → Advanced w d message reply (w.stage d) w' fs →
      Stepped w (.advance d reply) w' fs
  | crashes (d : Nat) : Stepped w (.crash d) ((w.abort d).goto d .gone) []

theorem stepped {w w' : World} {a : Label} {fs : List Event} (h : step w a = some (w', fs)) :
    Stepped w a w' fs := by
  cases a with
  | append payload => cases h; exact .appends payload
  | read consumer =>
    simp only [step] at h
    split at h
    · cases h
    · rename_i payload hp
      cases h
      exact .reads consumer hp
  | claim consumer entry seen =>
    simp only [step] at h
    split at h
    · rename_i p payload hp hpayload
      split at h
      · cases h
        exact .claims ⟨entry, payload, consumer, seen.retryCount + 1⟩ _ hp hpayload
      · cases h
    · cases h
  | advance d reply =>
    simp only [step] at h
    split at h
    · cases h
    · rename_i message hm
      exact .advances hm (advanced h)
  | crash d => cases h; exact .crashes d

end Rivulet
end AutoSRE

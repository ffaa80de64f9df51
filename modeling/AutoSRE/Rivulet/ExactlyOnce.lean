import AutoSRE.Rivulet.Book

/-!
# Exactly-once effects

- **The effect** (`ExactlyOnce`). After every run, an event id has committed at most one order, and
  the stock is the initial one less what has been ordered.
- **Redeliveries** (`Redelivered`). A delivery that comes after the commit of its event: the
  `INSERT` has no `ON CONFLICT`, so `handleEvent` reports an error whatever happens.
-/

namespace AutoSRE
namespace Rivulet

open Lib

variable {db : Database}

/-- The event ids whose orders have been committed in a log. -/
def orderedIds (es : List Event) : List String := (commits es).map (·.2.eventId)

theorem mem_orderedIds {es : List Event} {d : Nat} {event : OrderEvent}
    (h : .committed d event ∈ es) : event.eventId ∈ orderedIds es :=
  List.mem_map.mpr ⟨(d, event), List.mem_filterMap.mpr ⟨_, h, rfl⟩, rfl⟩

/-- The committed rows after a log. -/
structure ExactlyOnce (db : Database) (es : List Event) (w : World) : Prop where
  once : (orderedIds es).Nodup
  fresh : ∀ id ∈ orderedIds es, db.orders id = none
  orders : ∀ id, (w.orders id).committed.isSome = true ↔
    (db.orders id).isSome = true ∨ id ∈ orderedIds es
  inventory : ∀ sku, (w.inventory sku).committed =
    (db.inventory sku).map (· - sold sku ((commits es).map (·.2)))
  nonnegative : ∀ sku q, (w.inventory sku).committed = some q → 0 ≤ q

/-- No order is committed twice. -/
theorem orderedIds_nodup {C : World → Label → Prop} {n : Nat} {es : List Event} {w : World}
    (hr : (worker db).Run C n es w) : (orderedIds es).Nodup := by
  obtain ⟨-, b, hplaced, -⟩ := book_run hr
  have := b.once
  rwa [hplaced, List.map_map] at this

/-- The effect of any number of workers, under any interleaving and any failures. -/
theorem exactly_once {n : Nat} {es : List Event} {w : World}
    (hr : (worker db).Run Sys.anyStep n es w) : ExactlyOnce db es w := by
  obtain ⟨-, b, hplaced, hshows⟩ := book_run hr
  have hids : b.placed.map (·.eventId) = orderedIds es := by
    rw [hplaced, List.map_map]
    rfl
  refine ⟨hids ▸ b.once, fun id hid => ?_, fun id => ?_, fun sku => ?_, fun sku q hq => ?_⟩
  · rw [← hids] at hid
    obtain ⟨event, he, rfl⟩ := List.mem_map.mp hid
    exact b.fresh event he
  · rw [hshows.orders, Book.Taken, hids]
  · rw [hshows.inventory, Book.stock, hplaced]
  · rw [hshows.inventory] at hq
    exact b.stock_nonneg hq

/-! ## A shop with two workers -/

def sampleUser : String := "018f3c5e-0000-7000-8000-000000000001"

/-- An order of `quantity` pieces as the gateway writes it. -/
def samplePayload (eventId sku : String) (quantity : Int) : Payload :=
  .json (.object [("event_id", .string eventId), ("user_id", .string sampleUser),
    ("sku", .string sku), ("quantity", .integer quantity)])

/-- A database with one SKU. -/
def shop (quantity : Nat) : Database where
  inventory sku := if sku = "mouse" then some (Int.ofNat quantity) else none
  orders _ := none
  nonnegative := by
    intro sku q h
    split at h
    · cases h
      exact Int.natCast_nonneg quantity
    · cases h

/-- `n` steps of the delivery `d` without a failure. -/
def smooth (n d : Nat) : List Label := List.replicate n (.advance d .ok)

/-- Two workers race for two entries of one event: both deduct, one after the other has committed,
and the second one is rolled back. -/
def race : List Label :=
  [.append (samplePayload "e1" "mouse" 2), .append (samplePayload "e1" "mouse" 2),
    .read "worker-a", .read "worker-b"] ++ smooth 3 0 ++ smooth 3 1 ++ smooth 4 0 ++ smooth 3 1

theorem exactly_once_race : ∃ es w, (worker (shop 5)).Run Sys.anyStep 17 es w ∧
    ((w.inventory "mouse").committed = some 3 ∧ orderedIds es = ["e1"]) ∧
    ExactlyOnce (shop 5) es w := by
  have hexec : ((worker (shop 5)).exec (start (shop 5)) race).any (fun r =>
      (r.1.inventory "mouse").committed == some 3 && orderedIds r.2 == ["e1"]) = true := by
    decide +kernel
  obtain ⟨w, es, hr, hc⟩ := Sys.exists_any_run rfl hexec
  simp only [Bool.and_eq_true, beq_iff_eq] at hc
  exact ⟨es, w, hr, hc, exactly_once hr⟩

/-! ## Redeliveries -/

/-- The delivery comes after a commit of its event id. -/
def Redelivered (es : List Event) (d : Nat) : Prop :=
  ∃ pre post m event, es = pre ++ .delivered d m :: post ∧ m.payload.event = some event ∧
    event.eventId ∈ orderedIds pre

/-- A delivery is a new one. -/
theorem delivered_fresh {n : Nat} {es fs : List Event} {w w' : World} {a : Label} {d : Nat}
    {m : Delivery} {C : World → Label → Prop} (hr : (worker db).Run C n es w)
    (hs : (worker db).step w a = some (w', fs)) (hd : .delivered d m ∈ fs) :
    fs = [.delivered d m] ∧ w.deliveries d = none := by
  have hfresh := ((logged hr).fresh w.next (Nat.le_refl _)).2
  cases stepped hs with
  | appends | crashes => cases hd
  | reads | claims =>
    cases List.mem_singleton.mp hd
    exact ⟨rfl, hfresh⟩
  | @advances d' _ _ _ _ _ ha =>
    generalize w.stage d' = s at ha
    cases ha <;> simp at hd

/-- The delivery's own transaction has not committed. -/
theorem Redelivered.not_committed {C : World → Label → Prop} {n : Nat} {es : List Event}
    {w : World} (hr : (worker db).Run C n es w) {d : Nat} (hd : Redelivered es d)
    (event : OrderEvent) : .committed d event ∉ es := by
  obtain ⟨pre, post, m, event', rfl, hevent, hordered⟩ := hd
  intro hc
  -- The delivery works on the event of its message.
  obtain ⟨m', hm', hevent'⟩ : Carries w d event := (logged hr).events _ hc
  have hm : w.deliveries d = some m := (logged hr).events (.delivered d m) (by simp)
  obtain rfl : m = m' := by
    rw [hm] at hm'
    exact Option.some.inj hm'
  obtain rfl : event' = event := by
    rw [hevent] at hevent'
    exact Option.some.inj hevent'
  -- It has committed nothing before it was delivered.
  obtain ⟨n₁, es₁, w₁, a, w₂, fs, fs₁, fs₂, hr₁, -, hs, hfs, hpre⟩ := hr.split rfl
  obtain ⟨hfs', hnone⟩ := delivered_fresh (d := d) (m := m) hr₁ hs (by simp [hfs])
  have hfs₁ : fs₁ = [] := by
    cases fs₁ with
    | nil => rfl
    | cons e fs₁ => simp [hfs] at hfs'
  have hbefore : .committed d event' ∉ pre := by
    intro hmem
    rw [hpre, hfs₁, List.append_nil] at hmem
    obtain ⟨m', hm', -⟩ : Carries w₁ d event' := (logged hr₁).events _ hmem
    rw [hnone] at hm'
    cases hm'
  have hafter : .committed d event' ∈ Event.delivered d m :: post :=
    (List.mem_append.mp hc).resolve_left hbefore
  -- So the two commits are different, with one event id.
  have hnodup := orderedIds_nodup hr
  simp only [orderedIds, commits_append, List.map_append] at hnodup
  exact (List.nodup_append.mp hnodup).2.2 _ hordered _ (mem_orderedIds hafter) rfl

/-- The delivery is treated as already processed: no error is reported, and the entry is
acknowledged. -/
def ProcessedAgain (es : List Event) (d : Nat) : Prop :=
  .handled d .processed ∈ es ∨ ∃ entry, .acked d entry .processed ∈ es

/-- No redelivery of a committed event is ever treated as already processed. -/
theorem redelivered_not_processed {n : Nat} {es : List Event} {w : World}
    (hr : (worker db).Run Sys.anyStep n es w) {d : Nat} (hd : Redelivered es d) :
    ¬ ProcessedAgain es d := by
  have hhandled : Event.handled d .processed ∉ es := by
    intro h
    obtain ⟨event, hc⟩ : ∃ event, Event.committed d event ∈ es := (logged hr).events _ h
    exact hd.not_committed hr event hc
  rintro (h | ⟨entry, h⟩)
  · exact hhandled h
  · exact hhandled ((logged hr).events _ h)

/-- The only piece is sold, the acknowledgement fails, and another worker claims the entry. -/
def lostAck : List Label :=
  [.append (samplePayload "e1" "mouse" 1), .read "worker-a"] ++ smooth 7 0 ++
    [.advance 0 .failed, .claim "worker-b" 0 ⟨"worker-a", 1⟩] ++ smooth 5 1

/-- The event at a position is a redelivery. -/
def redeliveredAt (k d : Nat) (es : List Event) : Bool :=
  match es[k]? with
  | some (.delivered d' m) => d' == d &&
    (m.payload.event.any fun event => (orderedIds (es.take k)).contains event.eventId)
  | _ => false

theorem redelivered_of_at {k d : Nat} {es : List Event} (h : redeliveredAt k d es = true) :
    Redelivered es d := by
  simp only [redeliveredAt] at h
  split at h
  · rename_i d' m hk
    simp only [Bool.and_eq_true, beq_iff_eq] at h
    obtain ⟨rfl, hany⟩ := h
    obtain ⟨event, hevent, hmem⟩ := (Option.any_eq_true _ _).mp hany
    exact ⟨_, _, m, event, Sys.split_of_getElem? hk, hevent, by simpa using hmem⟩
  · cases h

theorem redelivered_not_processed_lostAck : ∃ es w,
    (worker (shop 1)).Run Sys.anyStep 16 es w ∧ Redelivered es 1 ∧ ¬ ProcessedAgain es 1 := by
  have hexec : ((worker (shop 1)).exec (start (shop 1)) lostAck).any (fun r =>
      redeliveredAt 3 1 r.2) = true := by
    decide +kernel
  obtain ⟨w, es, hr, hc⟩ := Sys.exists_any_run rfl hexec
  have hd := redelivered_of_at hc
  exact ⟨es, w, hr, hd, redelivered_not_processed hr hd⟩

/-- Redeliveries of committed events report no error, and are neither dropped nor
dead-lettered. -/
def NeverPoison (es : List Event) : Prop :=
  ∀ d, Redelivered es d → (∀ r, .handled d r ∈ es → r = .processed) ∧
    (∀ entry, .acked d entry .dropped ∉ es) ∧ ∀ entry, .deadLettered d entry ∉ es

/-- The redelivery finds the stock sold out, by its own order, and is dropped. -/
theorem committed_order_dropped :
    ¬ ∀ (db : Database) (n : Nat) (es : List Event) (w : World),
      (worker db).Run Sys.anyStep n es w → NeverPoison es := by
  intro hall
  have hexec : ((worker (shop 1)).exec (start (shop 1)) lostAck).any (fun r =>
      redeliveredAt 3 1 r.2 && r.2.any fun
        | .acked d entry .dropped => d == 1 && entry == 0
        | _ => false) = true := by
    decide +kernel
  obtain ⟨w, es, hr, hc⟩ := Sys.exists_any_run rfl hexec
  obtain ⟨hat, hany⟩ := Bool.and_eq_true_iff.mp hc
  obtain ⟨e, hm, he⟩ := List.any_eq_true.mp hany
  split at he
  · simp only [Bool.and_eq_true, beq_iff_eq] at he
    obtain ⟨rfl, rfl⟩ := he
    exact (hall _ _ es w hr 1 (redelivered_of_at hat)).2.1 0 hm
  · cases he

end Rivulet
end AutoSRE

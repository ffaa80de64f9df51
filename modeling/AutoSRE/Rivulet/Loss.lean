import AutoSRE.Rivulet.ExactlyOnce

/-!
# Message loss

An entry that has left the pending list should have its order committed or a copy in the
dead-letter stream (`NoLoss`).

- **Settled entries** stay settled (`Grows.settled`): nothing takes back a committed order or a
  copy.
- **Acknowledgements** of processed and of dead-lettered messages are for settled entries. The one
  of a permanent error is not: `process` drops the message and writes no copy.
- **Retention** (`no_loss`). Nothing is lost in the runs in which `handleEvent` has no permanent
  error for an entry that is not settled (`Fulfillable`).
-/

namespace AutoSRE
namespace Rivulet

open Lib

variable {db : Database}

/-- The order that the entry carries has been committed. -/
def Ordered (w : World) (entry : Nat) : Prop :=
  ∃ payload event, w.entries[entry]? = some payload ∧ payload.event = some event ∧
    (w.orders event.eventId).committed.isSome = true

/-- A copy of the entry is in the dead-letter stream. -/
def Copied (w : World) (entry : Nat) : Prop :=
  ∃ copy ∈ w.deadLetters, copy.original.entry = entry ∧
    w.entries[entry]? = some copy.original.payload

def Settled (w : World) (entry : Nat) : Prop := Ordered w entry ∨ Copied w entry

/-- Every entry that has been delivered and is no longer pending is settled. -/
def NoLoss (w : World) : Prop :=
  ∀ entry, entry < w.read → w.pending entry = none → Settled w entry

/-- The step has no permanent error for an entry that is not settled: `handleEvent` decodes the
payload, and the `UPDATE`, when it is executed, finds a row that covers the quantity. -/
def Fulfillable (w : World) : Label → Prop
  | .advance d reply => ∀ message, w.deliveries d = some message →
    (w.stage d = .handle → message.payload.event.isSome = true ∨ Settled w message.entry) ∧
    ∀ event, w.stage d = .updateInventory event → reply = .ok → canUpdate event = true →
      (∃ q, (w.inventory event.sku).committed = some q ∧ event.quantity ≤ q) ∨
        Settled w message.entry
  | _ => True

/-! ## Settled entries -/

/-- What a step only adds to. -/
structure Grows (w w' : World) : Prop where
  entries : ∀ (i : Nat) (payload : Payload),
    w.entries[i]? = some payload → w'.entries[i]? = some payload
  orders : ∀ id, (w.orders id).committed.isSome = true → (w'.orders id).committed.isSome = true
  deadLetters : ∀ copy ∈ w.deadLetters, copy ∈ w'.deadLetters

theorem Grows.settled {w w' : World} (h : Grows w w') {entry : Nat} (hs : Settled w entry) :
    Settled w' entry := by
  rcases hs with ⟨payload, event, hp, he, ho⟩ | ⟨copy, hc, rfl, hp⟩
  · exact .inl ⟨payload, event, h.entries _ _ hp, he, h.orders _ ho⟩
  · exact .inr ⟨copy, h.deadLetters _ hc, rfl, h.entries _ _ hp⟩

/-- A committed order stays committed. -/
theorem orders_grow {b : Book db} {w w' : World} {fs : List Event} (hl : Locks w)
    (hb : b.Shows w) (hs : DbStep w w' fs) {id : String}
    (h : (w.orders id).committed.isSome = true) : (w'.orders id).committed.isSome = true := by
  obtain ⟨b', hplaced, hshows⟩ := book_step hl hb hs
  rw [hb.orders] at h
  rw [hshows.orders]
  refine h.imp_right fun hmem => ?_
  rw [hplaced, List.map_append]
  exact List.mem_append_left _ hmem

theorem Advanced.deadLetters {w w' : World} {d : Nat} {message : Delivery} {reply : Reply}
    {s : Stage} {fs : List Event} (h : Advanced w d message reply s w' fs) :
    ∀ copy ∈ w.deadLetters, copy ∈ w'.deadLetters := by
  intro copy hc
  cases h with
  | copies => exact List.mem_append_left _ hc
  | _ => exact hc

theorem grows {es fs : List Event} {b : Book db} {w w' : World} {a : Label} (hlog : Logged es w)
    (hl : Locks w) (hb : b.Shows w) (hs : Stepped w a w' fs) : Grows w w' := by
  have horders : ∀ id, (w.orders id).committed.isSome = true →
      (w'.orders id).committed.isSome = true := fun _ => orders_grow hl hb (dbStep hlog hs)
  cases hs with
  | appends payload =>
    refine ⟨fun i p hp => ?_, horders, fun _ hc => hc⟩
    rw [List.getElem?_append_left (List.getElem?_eq_some_iff.mp hp).1, hp]
  | reads | claims | crashes => exact ⟨fun _ _ hp => hp, horders, fun _ hc => hc⟩
  | advances _ ha => exact ⟨fun _ _ hp => by rwa [ha.moved.entries], horders, ha.deadLetters⟩

/-! ## Retention -/

/-- An entry that is about to be acknowledged, or has been, is settled. -/
structure Retained (w : World) : Prop where
  noLoss : NoLoss w
  acking : ∀ d message source, w.deliveries d = some message → w.stage d = .ack source →
    Settled w message.entry

/-- A delivery makes its entry pending. -/
theorem retained_deliver {w : World} {message : Delivery} (n : Nat)
    (hnoLoss : ∀ entry, entry < w.read → entry ≠ message.entry → w.pending entry = none →
      Settled w entry)
    (hacking : ∀ d m source, w.deliveries d = some m → w.stage d = .ack source →
      Settled w m.entry) :
    Retained (deliver w message n).1 := by
  refine ⟨fun entry hread hp => ?_, fun d m source hd hs => ?_⟩
  · by_cases he : entry = message.entry
    · subst he
      simp [deliver] at hp
    · simp only [deliver, update_ne _ _ he] at hp
      exact hnoLoss entry hread he hp
  · by_cases he : d = w.next
    · subst he
      simp [deliver] at hs
    · simp only [deliver, update_ne _ _ he] at hd hs
      exact hacking d m source hd hs

/-- A step of a delivery, or a crash. -/
theorem Retained.move {w w' : World} {d : Nat} (h : Retained w) (hm : Moved w w' d)
    (hg : Grows w w')
    (hpending : ∀ entry, w'.pending entry = none →
      w.pending entry = none ∨ Settled w entry)
    (hack : ∀ message source, w.deliveries d = some message → w'.stage d = .ack source →
      Settled w' message.entry) : Retained w' := by
  refine ⟨fun entry hread hp => ?_, fun d' m source hd hs => ?_⟩
  · rw [hm.read] at hread
    rcases hpending entry hp with hp | hs
    · exact hg.settled (h.noLoss entry hread hp)
    · exact hg.settled hs
  · rw [hm.deliveries] at hd
    by_cases he : d' = d
    · subst he
      exact hack m source hd hs
    · rw [hm.stage d' he] at hs
      exact hg.settled (h.acking d' m source hd hs)

/-- The `UPDATE` of a transaction that has written nothing fails only on the committed row. -/
theorem update_unmatched {w : World} {d : Nat} {event : OrderEvent} (hl : Locks w)
    (htx : w.tx d = .idle)
    (h : w.inventory.write d event.sku (deductInventory event.quantity) = .unmatched) {q : Int}
    (hq : (w.inventory event.sku).committed = some q) : ¬ event.quantity ≤ q := by
  intro hle
  have hidle : w.inventory.Idle d := (show Writes w d .idle from htx ▸ hl.writes d).1
  have := Table.write_unmatched h hidle
  simp [deductInventory, hq, hle] at this

/-- A step of a delivery keeps the entries. -/
theorem Retained.advance {b : Book db} {es fs : List Event} {w w' : World} {d : Nat}
    {message : Delivery} {reply : Reply} (h : Retained w) (hlog : Logged es w) (hl : Locks w)
    (hb : b.Shows w) (hc : Fulfillable w (.advance d reply))
    (hd : w.deliveries d = some message)
    (ha : Advanced w d message reply (w.stage d) w' fs) : Retained w' := by
  have hstepped : Stepped w (.advance d reply) w' fs := .advances hd ha
  have hg : Grows w w' := grows hlog hl hb hstepped
  have hm := ha.moved
  obtain ⟨hhandle, hupdate⟩ := hc message hd
  have hmessage : ∀ m, w.deliveries d = some m → m = message := by
    intro m hm'
    rw [hd] at hm'
    exact (Option.some.inj hm').symm
  generalize hs : w.stage d = s at ha
  cases ha with
  | @goes s s' _ hack _ =>
    refine h.move hm hg (fun _ hp => .inl hp) fun m source _ hstage => ?_
    simp only [World.goto, update_self] at hstage
    exact absurd hstage (hack source)
  | @copies reason s' _ =>
    refine h.move hm hg (fun _ hp => .inl hp) fun m source hd' _ => .inr ?_
    rw [hmessage m hd']
    exact ⟨⟨message, reason⟩, List.mem_append_right _ List.mem_cons_self, rfl,
      (hlog.message d message hd).2⟩
  | @acks source =>
    refine h.move hm hg (fun entry hp => ?_) (by simp [World.goto])
    by_cases he : entry = message.entry
    · exact .inr (he ▸ h.acking d message source hd hs)
    · simp only [World.goto, World.removePending, update_ne _ _ he] at hp
      exact .inl hp
  | @refuses s r _ hr hperm =>
    refine h.move hm hg (fun _ hp => .inl hp) fun m source hd' hstage => ?_
    simp only [World.goto, update_self] at hstage
    rw [hmessage m hd']
    cases r with
    | processed => exact absurd rfl hr
    | transient _ => simp [afterHandle] at hstage
    | permanent msg =>
      -- Unmarshalling or validation has failed.
      obtain ⟨rfl, hnone⟩ := hperm msg rfl
      rw [hnone] at hhandle
      exact hg.settled ((hhandle hs).resolve_left Bool.false_ne_true)
  | @fails s r hr hperm =>
    refine h.move hm hg (fun _ hp => .inl hp) fun m source hd' hstage => ?_
    simp only [World.goto, update_self] at hstage
    rw [hmessage m hd']
    cases r with
    | processed => exact absurd rfl hr
    | transient _ => simp [afterHandle] at hstage
    | permanent msg =>
      -- The `UPDATE` has matched no row.
      obtain ⟨event, rfl, hok, hcan, hw⟩ := hperm msg rfl
      have htx : w.tx d = .idle := congrArg Stage.tx hs
      refine hg.settled ((hupdate event hs hok hcan).resolve_left ?_)
      rintro ⟨q, hq, hle⟩
      exact update_unmatched hl htx hw hq hle
  | deducts | inserts =>
    exact h.move hm hg (fun _ hp => .inl hp) (by simp [World.goto])
  | @commits event r _ =>
    refine h.move hm hg (fun _ hp => .inl hp) fun m source hd' _ => .inl ?_
    rw [hmessage m hd']
    obtain ⟨m', hm', hevent⟩ : Carries w d event := hlog.carries d event (by rw [hs]; rfl)
    rw [hmessage m' hm'] at hevent
    obtain ⟨_, hshows⟩ : ∃ h : b.Accepts event,
        (b.place event h).Shows ((w.commit d).goto d (afterHandle r)) :=
      hb.commit hl (d := d) (congrArg Stage.tx hs) rfl rfl
    exact ⟨message.payload, event, (hlog.message d message hd).2, hevent,
      (hshows.orders _).mpr (.inr (by simp [Book.place]))⟩

theorem retained_step {b : Book db} {es fs : List Event} {w w' : World} {a : Label}
    (h : Retained w) (hlog : Logged es w) (hl : Locks w) (hb : b.Shows w) (hc : Fulfillable w a)
    (hs : Stepped w a w' fs) : Retained w' := by
  have hg := grows hlog hl hb hs
  cases hs with
  | appends payload =>
    exact ⟨fun entry hread hp => hg.settled (h.noLoss entry hread hp),
      fun d m source hd hstage => hg.settled (h.acking d m source hd hstage)⟩
  | @reads consumer payload hp =>
    refine retained_deliver 1 (fun entry hread he hpending => ?_) h.acking
    exact h.noLoss entry (Nat.lt_of_le_of_ne (Nat.le_of_lt_succ hread) he) hpending
  | claims message n _ _ =>
    exact retained_deliver n (fun entry hread _ => h.noLoss entry hread) h.acking
  | advances hd ha => exact h.advance hlog hl hb hc hd ha
  | crashes d =>
    exact h.move (moved_abort w d _) hg (fun _ hp => .inl hp) (by simp [World.goto])

/-- No entry is lost in the runs in which every payload is an order and the stock covers it. -/
theorem no_loss {n : Nat} {es : List Event} {w : World}
    (hr : (worker db).Run Fulfillable n es w) : NoLoss w := by
  have hretained : Retained w := by
    refine hr.inv (I := fun _ w => Retained w) ?_ ?_
    · rintro w rfl
      exact ⟨fun entry hread => absurd hread (Nat.not_lt_zero entry), nofun⟩
    · intro n es w a w' fs hrun h hc hs
      obtain ⟨hl, b, -, hb⟩ := book_run hrun
      exact retained_step h (logged hrun) hl hb hc (stepped hs)
  exact hretained.noLoss

/-- `Fulfillable`, without the entries that are settled. -/
def fulfillable (w : World) : Label → Bool
  | .advance d _ => (w.deliveries d).all fun message =>
    match w.stage d with
    | .handle => message.payload.event.isSome
    | .updateInventory event =>
      (w.inventory event.sku).committed.any fun q => decide (event.quantity ≤ q)
    | _ => true
  | _ => true

theorem fulfillable_sound (w : World) (a : Label) (h : fulfillable w a = true) :
    Fulfillable w a := by
  cases a with
  | advance d reply =>
    intro message hd
    simp only [fulfillable, hd, Option.all_some] at h
    refine ⟨fun hs => .inl ?_, fun event hs _ _ => .inl ?_⟩
    · rwa [hs] at h
    · rw [hs] at h
      obtain ⟨q, hq, hle⟩ := (Option.any_eq_true _ _).mp h
      exact ⟨q, hq, of_decide_eq_true hle⟩
  | append | read | claim | crash => trivial

/-- An order and an entry that is not JSON, in two workers. -/
def sellAndReject : List Label :=
  [.append (samplePayload "e1" "mouse" 2), .append .invalidJson, .read "worker-a",
    .read "worker-b"] ++ smooth 5 0 ++ smooth 3 1 ++ smooth 3 0

theorem no_loss_sellAndReject : ∃ es w, (worker (shop 5)).Run Fulfillable 15 es w ∧
    (w.pending 0).isNone = true ∧ (w.pending 1).isNone = true ∧
      w.deadLetters.length = 1 ∧ NoLoss w := by
  have hexec : (((worker (shop 5)).restrict fulfillable).exec (start (shop 5))
      sellAndReject).any (fun r => (r.1.pending 0).isNone && (r.1.pending 1).isNone &&
        r.1.deadLetters.length == 1) = true := by
    decide +kernel
  obtain ⟨w, es, hr, hc⟩ := Sys.exists_checked_run fulfillable_sound rfl hexec
  simp only [Bool.and_eq_true, beq_iff_eq] at hc
  exact ⟨es, w, hr, hc.1.1, hc.1.2, hc.2, no_loss hr⟩

/-- An order of two pieces, when there is one. -/
def oversold : List Label :=
  [.append (samplePayload "e1" "mouse" 2), .read "worker-a"] ++ smooth 5 0

/-- The order is dropped: it is neither committed nor in the dead-letter stream. -/
theorem oversold_order_lost :
    ¬ ∀ (db : Database) (n : Nat) (es : List Event) (w : World),
      (worker db).Run Sys.anyStep n es w → NoLoss w := by
  intro hall
  have hexec : ((worker (shop 1)).exec (start (shop 1)) oversold).any (fun r =>
      decide (0 < r.1.read) && (r.1.pending 0).isNone && r.1.deadLetters.isEmpty &&
        (r.1.entries[0]?.bind Payload.event).any fun event =>
          (r.1.orders event.eventId).committed.isNone) = true := by
    decide +kernel
  obtain ⟨w, es, hr, hc⟩ := Sys.exists_any_run rfl hexec
  simp only [Bool.and_eq_true, decide_eq_true_eq, Option.isNone_iff_eq_none,
    List.isEmpty_iff] at hc
  obtain ⟨⟨⟨hread, hpending⟩, hempty⟩, hany⟩ := hc
  rcases hall _ _ es w hr 0 hread hpending with ⟨payload, event, hp, he, ho⟩ | ⟨copy, hcopy, -⟩
  · simp only [hp, Option.bind_some, he, Option.any_some, Option.isNone_iff_eq_none] at hany
    rw [hany] at ho
    cases ho
  · rw [hempty] at hcopy
    cases hcopy

end Rivulet
end AutoSRE

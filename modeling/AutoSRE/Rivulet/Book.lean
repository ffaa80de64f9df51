import AutoSRE.Rivulet.Deliveries

/-!
# The order book

What the workers are for, in its own terms: a book of placed orders over an initial stock (`Book`).
An event is placed once, and only when the stock covers it.

- **Transactions** (`DbStep`). Every step leaves the database alone, or is one of the four steps of
  a transaction.
- **Locks** (`Locks`). A transaction's uncommitted rows are the ones its stage says, and they
  still relate to the committed rows below them.
- **Refinement** (`book_step`, `book_run`). The committed rows show a book, and a commit places its
  event in the book.
-/

namespace AutoSRE
namespace Rivulet

open Lib

variable {db : Database}

/-! ## The book -/

/-- The quantity of a SKU in the orders. -/
def sold (sku : String) : List OrderEvent → Int
  | [] => 0
  | event :: placed => (if event.sku = sku then event.quantity else 0) + sold sku placed

/-- The orders that have been placed on a database. -/
structure Book (db : Database) where
  placed : List OrderEvent
  once : (placed.map (·.eventId)).Nodup
  fresh : ∀ event ∈ placed, db.orders event.eventId = none
  covered : ∀ sku q, db.inventory sku = some q → sold sku placed ≤ q

namespace Book

/-- The stock that is left. -/
def stock (b : Book db) (sku : String) : Option Int :=
  (db.inventory sku).map (· - sold sku b.placed)

/-- The order of an event exists. -/
def Taken (b : Book db) (eventId : String) : Prop :=
  (db.orders eventId).isSome ∨ eventId ∈ b.placed.map (·.eventId)

structure Accepts (b : Book db) (event : OrderEvent) : Prop where
  new : ¬ b.Taken event.eventId
  inStock : ∃ q, b.stock event.sku = some q ∧ event.quantity ≤ q

def empty (db : Database) : Book db :=
  ⟨[], List.nodup_nil, nofun, fun sku q hq => db.nonnegative sku q hq⟩

theorem sold_append (sku : String) (placed : List OrderEvent) (event : OrderEvent) :
    sold sku (placed ++ [event]) =
      sold sku placed + if event.sku = sku then event.quantity else 0 := by
  induction placed with
  | nil => simp [sold]
  | cons first placed ih =>
    rw [List.cons_append, sold, sold, ih]
    omega

/-- Place an accepted event. -/
def place (b : Book db) (event : OrderEvent) (h : b.Accepts event) : Book db where
  placed := b.placed ++ [event]
  once := by
    have hnew : event.eventId ∉ b.placed.map (·.eventId) := fun hm => h.new (.inr hm)
    rw [List.map_append, List.nodup_append]
    refine ⟨b.once, by simp, fun x hx y hy => ?_⟩
    obtain rfl := List.mem_singleton.mp hy
    rintro rfl
    exact hnew hx
  fresh := by
    intro event' he
    rcases List.mem_append.mp he with he | he
    · exact b.fresh event' he
    · obtain rfl := List.mem_singleton.mp he
      exact Option.not_isSome_iff_eq_none.mp fun hs => h.new (.inl hs)
  covered := by
    intro sku q hq
    rw [sold_append]
    split
    · rename_i hsku
      subst hsku
      obtain ⟨q', hq', hle⟩ := h.inStock
      simp only [stock, hq, Option.map_some, Option.some.injEq] at hq'
      omega
    · have := b.covered sku q hq
      omega

theorem stock_place {b : Book db} {event : OrderEvent} (h : b.Accepts event) (sku : String) :
    (b.place event h).stock sku =
      if event.sku = sku then (b.stock sku).map (· - event.quantity) else b.stock sku := by
  simp only [stock, place, sold_append]
  cases db.inventory sku with
  | none => simp
  | some q =>
    by_cases hsku : event.sku = sku
    · simp only [hsku, if_true, Option.map_some]
      congr 1
      omega
    · simp [hsku]

theorem taken_place {b : Book db} {event : OrderEvent} (h : b.Accepts event) (id : String) :
    (b.place event h).Taken id ↔ b.Taken id ∨ id = event.eventId := by
  simp [Taken, place, or_assoc]

/-- The stock is never negative. -/
theorem stock_nonneg (b : Book db) {sku : String} {q : Int} (h : b.stock sku = some q) :
    0 ≤ q := by
  obtain ⟨q₀, hq₀, rfl⟩ := Option.map_eq_some_iff.mp h
  have := b.covered sku q₀ hq₀
  omega

end Book

/-! ## Transactions -/

def World.tx (w : World) (d : Nat) : Tx := (w.stage d).tx

/-- The transactions of the other deliveries are as before. -/
def Others (w w' : World) (d : Nat) : Prop := ∀ d', d' ≠ d → w'.tx d' = w.tx d'

/-- What a step does to the database. -/
inductive DbStep (w w' : World) (fs : List Event) : Prop
  | same : w'.inventory = w.inventory → w'.orders = w.orders → (∀ d, w'.tx d = w.tx d) →
      commits fs = [] → DbStep w w' fs
  | abort (d : Nat) : w'.inventory = w.inventory.abort d → w'.orders = w.orders.abort d →
      w'.tx d = .idle → Others w w' d → commits fs = [] → DbStep w w' fs
  | deduct (d : Nat) (event : OrderEvent) : w.tx d = .idle →
      w.inventory.write d event.sku (deductInventory event.quantity) = .written w'.inventory →
      w'.orders = w.orders → w'.tx d = .deducted event → Others w w' d → commits fs = [] →
      DbStep w w' fs
  | insert (d : Nat) (event : OrderEvent) : w.tx d = .deducted event →
      w'.inventory = w.inventory →
      w.orders.write d event.eventId (insertRow event.userId) = .written w'.orders →
      w'.tx d = .inserted event → Others w w' d → commits fs = [] → DbStep w w' fs
  | commit (d : Nat) (event : OrderEvent) : w.tx d = .inserted event →
      w'.inventory = w.inventory.commit d → w'.orders = w.orders.commit d →
      w'.tx d = .idle → Others w w' d → commits fs = [(d, event)] → DbStep w w' fs

theorem Moved.others {w w' : World} {d : Nat} (h : Moved w w' d) : Others w w' d :=
  fun d' hd => congrArg Stage.tx (h.stage d' hd)

theorem tx_goto (w : World) (d : Nat) (s : Stage) : (w.goto d s).tx d = s.tx := by
  simp [World.tx, World.goto]

/-- A step that changes no row and keeps the delivery's transaction. -/
theorem dbStep_same {w w' : World} {d : Nat} {fs : List Event} (hm : Moved w w' d)
    (hi : w'.inventory = w.inventory) (ho : w'.orders = w.orders) (htx : w'.tx d = w.tx d)
    (hfs : commits fs = []) : DbStep w w' fs := by
  refine .same hi ho (fun d' => ?_) hfs
  by_cases hd : d' = d
  · rw [hd, htx]
  · exact hm.others d' hd

theorem Advanced.dbStep {w w' : World} {d : Nat} {message : Delivery} {reply : Reply}
    {fs : List Event} (h : Advanced w d message reply (w.stage d) w' fs) : DbStep w w' fs := by
  have hm := h.moved
  generalize hs : w.stage d = s at h
  have htx : w.tx d = s.tx := congrArg Stage.tx hs
  cases h with
  | goes h _ _ => exact dbStep_same hm rfl rfl (by rw [tx_goto, h, htx]) rfl
  | copies h =>
    refine dbStep_same hm rfl rfl ?_ rfl
    rw [tx_goto, htx]
    rcases h with rfl | rfl <;> rfl
  | acks => exact dbStep_same hm rfl rfl (by rw [tx_goto, htx]; rfl) rfl
  | refuses h _ _ => exact dbStep_same hm rfl rfl (by rw [tx_goto, htx, h, afterHandle_tx]) rfl
  | fails => exact .abort d rfl rfl (by rw [tx_goto, afterHandle_tx]) hm.others rfl
  | @deducts event _ hw => exact .deduct d event htx hw rfl (tx_goto ..) hm.others rfl
  | @inserts event _ hw => exact .insert d event htx rfl hw (tx_goto ..) hm.others rfl
  | @commits event _ _ =>
    exact .commit d event htx rfl rfl (by rw [tx_goto, afterHandle_tx]) hm.others rfl

/-- Every step leaves the database alone, or is a step of a transaction. -/
theorem dbStep {es fs : List Event} {w w' : World} {a : Label} (hl : Logged es w)
    (h : Stepped w a w' fs) : DbStep w w' fs := by
  have hdeliver : ∀ d, (update w.stage w.next .received d).tx = (w.stage d).tx := by
    intro d
    by_cases hd : d = w.next
    · rw [hd, update_self, (hl.fresh w.next (Nat.le_refl _)).1]
      rfl
    · rw [update_ne _ _ hd]
  cases h with
  | appends => exact .same rfl rfl (fun _ => rfl) rfl
  | reads | claims => exact .same rfl rfl hdeliver rfl
  | advances _ ha => exact ha.dbStep
  | crashes d => exact .abort d rfl rfl (tx_goto ..) (moved_abort w d _).others rfl

/-! ## Locks -/

/-- An uncommitted inventory row is the committed one less the quantity of the transaction's
event. -/
def Deducts (tx : Tx) (sku : String) (old new : Option Int) : Prop :=
  ∃ event q, (tx = .deducted event ∨ tx = .inserted event) ∧ event.sku = sku ∧ old = some q ∧
    event.quantity ≤ q ∧ new = some (q - event.quantity)

/-- An uncommitted order row is the order of the transaction's event, and no such order is
committed. -/
def Inserts (tx : Tx) (id : String) (old new : Option OrderRow) : Prop :=
  ∃ event, tx = .inserted event ∧ event.eventId = id ∧ old = none ∧ new.isSome = true

/-- The rows that a transaction has written. -/
def Writes (w : World) (d : Nat) : Tx → Prop
  | .idle => w.inventory.Idle d ∧ w.orders.Idle d
  | .deducted event => w.inventory.Holds d event.sku ∧ w.orders.Idle d
  | .inserted event => w.inventory.Holds d event.sku ∧ w.orders.Holds d event.eventId

/-- The uncommitted rows of a table are the ones that their transactions have written. -/
def Rows {α : Type} (P : Tx → String → α → α → Prop) (w : World) (s : Table String Nat α) : Prop :=
  s.Consistent fun k d => P (w.tx d) k

structure Locks (w : World) : Prop where
  inventory : Rows Deducts w w.inventory
  orders : Rows Inserts w w.orders
  writes : ∀ d, Writes w d (w.tx d)

theorem locks_start (db : Database) : Locks (start db) :=
  ⟨Table.consistent_ofRows _, Table.consistent_ofRows _,
    fun d => ⟨Table.idle_ofRows _ d, Table.idle_ofRows _ d⟩⟩

/-- A transaction without writes may change its stage. -/
theorem Rows.others {α : Type} {P : Tx → String → α → α → Prop} {w w' : World}
    {s : Table String Nat α} {d : Nat} (h : Rows P w s) (hidle : s.Idle d)
    (ho : Others w w' d) : Rows P w' s := by
  refine Table.Consistent.mono h fun k d' v hw hP => ?_
  have hd : d' ≠ d := by
    rintro rfl
    exact hidle k v hw
  rwa [ho d' hd]

theorem Writes.keeps {w w' : World} {d : Nat} {tx : Tx} (h : Writes w d tx)
    (hi : w.inventory.Keeps w'.inventory d) (ho : w.orders.Keeps w'.orders d) :
    Writes w' d tx := by
  cases tx with
  | idle => exact ⟨hi.idle h.1, ho.idle h.2⟩
  | deducted event => exact ⟨hi.holds _ h.1, ho.idle h.2⟩
  | inserted event => exact ⟨hi.holds _ h.1, ho.holds _ h.2⟩

/-- The writes after a step of the transaction of `d`. -/
theorem writes_step {w w' : World} {d : Nat} (h : ∀ d, Writes w d (w.tx d))
    (ho : Others w w' d) (hd : Writes w' d (w'.tx d))
    (hk : ∀ d', d' ≠ d →
      w.inventory.Keeps w'.inventory d' ∧ w.orders.Keeps w'.orders d') (d' : Nat) :
    Writes w' d' (w'.tx d') := by
  by_cases he : d' = d
  · rw [he]
    exact hd
  · rw [ho d' he]
    exact (h d').keeps (hk d' he).1 (hk d' he).2

theorem deducts_of_guard {event : OrderEvent} {tx : Tx} {old new : Option Int}
    (htx : tx = .deducted event) (h : deductInventory event.quantity old = some new) :
    Deducts tx event.sku old new := by
  cases old with
  | none => cases h
  | some q =>
    simp only [deductInventory] at h
    split at h
    · rename_i hle
      cases h
      exact ⟨event, q, .inl htx, rfl, rfl, hle, rfl⟩
    · cases h

theorem inserts_of_guard {event : OrderEvent} {tx : Tx} {old new : Option OrderRow}
    (htx : tx = .inserted event) (h : insertRow event.userId old = some new) :
    Inserts tx event.eventId old new := by
  cases old with
  | none => cases h; exact ⟨event, htx, rfl, rfl, rfl⟩
  | some row => cases h

theorem Locks.step {w w' : World} {fs : List Event} (h : Locks w) (hs : DbStep w w' fs) :
    Locks w' := by
  have hwrites := h.writes
  cases hs with
  | same hi ho htx _ =>
    refine ⟨?_, ?_, fun d => ?_⟩
    · rw [hi]
      exact Table.Consistent.mono h.inventory fun k d v _ hP => by rwa [htx d]
    · rw [ho]
      exact Table.Consistent.mono h.orders fun k d v _ hP => by rwa [htx d]
    · rw [htx d]
      exact (hwrites d).keeps (hi ▸ ⟨fun _ h => h, id⟩) (ho ▸ ⟨fun _ h => h, id⟩)
  | abort d hi ho htx hothers _ =>
    have hidle : w'.inventory.Idle d ∧ w'.orders.Idle d := by
      rw [hi, ho]
      exact ⟨Table.idle_abort _ d, Table.idle_abort _ d⟩
    refine ⟨Rows.others ?_ hidle.1 hothers, Rows.others ?_ hidle.2 hothers,
      writes_step hwrites hothers (by rw [htx]; exact hidle) fun d' hd => ?_⟩
    · rw [hi]
      exact h.inventory.abort d
    · rw [ho]
      exact h.orders.abort d
    · rw [hi, ho]
      exact ⟨Table.keeps_abort _ hd, Table.keeps_abort _ hd⟩
  | deduct d event htx hw ho htx' hothers _ =>
    obtain ⟨hidle, hidle'⟩ : w.inventory.Idle d ∧ w.orders.Idle d := by
      have := hwrites d
      rwa [htx] at this
    refine ⟨?_, ?_, writes_step hwrites hothers ?_ fun d' hd => ?_⟩
    · exact (h.inventory.others hidle hothers).write hw hidle fun v hv =>
        deducts_of_guard htx' hv
    · rw [ho]
      exact h.orders.others hidle' hothers
    · rw [htx', Writes, ho]
      exact ⟨Table.holds_write hw hidle, hidle'⟩
    · rw [ho]
      exact ⟨Table.keeps_write hw hidle hd, fun _ h => h, id⟩
  | insert d event htx hi hw htx' hothers _ =>
    obtain ⟨hholds, hidle⟩ : w.inventory.Holds d event.sku ∧ w.orders.Idle d := by
      have := hwrites d
      rwa [htx] at this
    refine ⟨?_, ?_, writes_step hwrites hothers ?_ fun d' hd => ?_⟩
    · rw [hi]
      refine Table.Consistent.mono h.inventory fun k d' v _ hP => ?_
      by_cases hd : d' = d
      · -- The transaction goes from `deducted` to `inserted`, with the same event.
        subst hd
        obtain ⟨event', q, htx₁, hrest⟩ := hP
        rw [htx] at htx₁
        rcases htx₁ with he | he <;> cases he
        exact ⟨event, q, .inr htx', hrest⟩
      · rwa [hothers d' hd]
    · exact (h.orders.others hidle hothers).write hw hidle fun v hv => inserts_of_guard htx' hv
    · rw [htx', Writes, hi]
      exact ⟨hholds, Table.holds_write hw hidle⟩
    · rw [hi]
      exact ⟨⟨fun _ h => h, id⟩, Table.keeps_write hw hidle hd⟩
  | commit d event _ hi ho htx' hothers _ =>
    have hidle : w'.inventory.Idle d ∧ w'.orders.Idle d := by
      rw [hi, ho]
      exact ⟨Table.idle_commit _ d, Table.idle_commit _ d⟩
    refine ⟨Rows.others ?_ hidle.1 hothers, Rows.others ?_ hidle.2 hothers,
      writes_step hwrites hothers (by rw [htx']; exact hidle) fun d' hd => ?_⟩
    · rw [hi]
      exact h.inventory.commit d
    · rw [ho]
      exact h.orders.commit d
    · rw [hi, ho]
      exact ⟨Table.keeps_commit _ hd, Table.keeps_commit _ hd⟩

/-! ## Refinement -/

/-- The committed rows show the book. -/
structure Book.Shows (b : Book db) (w : World) : Prop where
  inventory : ∀ sku, (w.inventory sku).committed = b.stock sku
  orders : ∀ id, (w.orders id).committed.isSome = true ↔ b.Taken id

theorem shows_start (db : Database) : (Book.empty db).Shows (start db) := by
  refine ⟨fun sku => ?_, fun id => ?_⟩
  · simp only [start, Table.ofRows, Book.stock, Book.empty, sold]
    cases db.inventory sku <;> simp
  · simp [start, Table.ofRows, Book.Taken, Book.empty]

/-- Rows that are committed as before show the same book. -/
theorem Book.Shows.congr {b : Book db} {w w' : World} (h : b.Shows w)
    (hi : ∀ sku, (w'.inventory sku).committed = (w.inventory sku).committed)
    (ho : ∀ id, (w'.orders id).committed = (w.orders id).committed) : b.Shows w' :=
  ⟨fun sku => (hi sku).trans (h.inventory sku), fun id => by rw [ho id, h.orders id]⟩

/-- What a transaction that has inserted its order has written. -/
theorem Locks.inserted {w : World} {d : Nat} {event : OrderEvent} (h : Locks w)
    (htx : w.tx d = .inserted event) :
    (∃ q, (w.inventory event.sku).committed = some q ∧ event.quantity ≤ q ∧
      (w.inventory event.sku).writer = some (d, some (q - event.quantity))) ∧
    (∃ row, (w.orders event.eventId).committed = none ∧
      (w.orders event.eventId).writer = some (d, some row)) ∧
    (∀ sku, sku ≠ event.sku → ¬ w.inventory.Holds d sku) ∧
    ∀ id, id ≠ event.eventId → ¬ w.orders.Holds d id := by
  obtain ⟨⟨v, hv⟩, ⟨row, hrow⟩⟩ : Writes w d (.inserted event) := htx ▸ h.writes d
  -- The stage names one event, so a row that the transaction has written is a row of this event.
  have hevent : ∀ event', (w.tx d = .deducted event' ∨ w.tx d = .inserted event') →
      event' = event := by
    intro event' he
    rw [htx] at he
    rcases he with he | he <;> cases he
    rfl
  refine ⟨?_, ?_, ?_, ?_⟩
  · obtain ⟨event', q, htx', -, hold, hle, rfl⟩ := h.inventory _ _ _ hv
    obtain rfl := hevent event' htx'
    exact ⟨q, hold, hle, hv⟩
  · obtain ⟨event', htx', -, hold, hnew⟩ := h.orders _ _ _ hrow
    obtain ⟨row', rfl⟩ := Option.isSome_iff_exists.mp hnew
    exact ⟨row', hold, hrow⟩
  · rintro sku hne ⟨v', hv'⟩
    obtain ⟨event', q, htx', hsku, -⟩ := h.inventory _ _ _ hv'
    exact hne (hevent event' htx' ▸ hsku.symm)
  · rintro id hne ⟨v', hv'⟩
    obtain ⟨event', htx', hid, -⟩ := h.orders _ _ _ hv'
    exact hne (hevent event' (.inr htx') ▸ hid.symm)

/-- A commit places its event in the book. -/
theorem Book.Shows.commit {b : Book db} {w w' : World} {d : Nat} {event : OrderEvent}
    (hb : b.Shows w) (hl : Locks w) (htx : w.tx d = .inserted event)
    (hi : w'.inventory = w.inventory.commit d) (ho : w'.orders = w.orders.commit d) :
    ∃ h : b.Accepts event, (b.place event h).Shows w' := by
  obtain ⟨⟨q, hq, hle, hv⟩, ⟨row, hnone, hrow⟩, hsku, hid⟩ := hl.inserted htx
  have haccepts : b.Accepts event := by
    refine ⟨fun ht => ?_, q, by rw [← hb.inventory, hq], hle⟩
    rw [← hb.orders, hnone] at ht
    cases ht
  refine ⟨haccepts, fun sku => ?_, fun id => ?_⟩
  · rw [hi, Book.stock_place]
    by_cases he : sku = event.sku
    · subst he
      rw [Table.commit_of_writer hv, if_pos rfl, ← hb.inventory, hq]
      rfl
    · rw [Table.commit_of_not_holds (hsku sku he), if_neg (Ne.symm he), hb.inventory]
  · rw [ho, Book.taken_place]
    by_cases he : id = event.eventId
    · subst he
      simp [Table.commit_of_writer hrow]
    · simp [Table.commit_of_not_holds (hid id he), hb.orders, he]

theorem book_step {b : Book db} {w w' : World} {fs : List Event} (hl : Locks w)
    (hb : b.Shows w) (hs : DbStep w w' fs) :
    ∃ b' : Book db, b'.placed = b.placed ++ (commits fs).map (·.2) ∧ b'.Shows w' := by
  have hwrites := hl.writes
  cases hs with
  | same hi ho _ hfs =>
    exact ⟨b, by simp [hfs], hb.congr (fun _ => by rw [hi]) fun _ => by rw [ho]⟩
  | abort d hi ho _ _ hfs =>
    refine ⟨b, by simp [hfs], hb.congr (fun sku => ?_) fun id => ?_⟩
    · rw [hi, Table.committed_abort]
    · rw [ho, Table.committed_abort]
  | deduct d event htx hw ho _ _ hfs =>
    have hidle : w.inventory.Idle d := (show Writes w d .idle from htx ▸ hwrites d).1
    exact ⟨b, by simp [hfs], hb.congr (Table.committed_write hw hidle) fun _ => by rw [ho]⟩
  | insert d event htx hi hw _ _ hfs =>
    have hidle : w.orders.Idle d := (show Writes w d (.deducted event) from htx ▸ hwrites d).2
    exact ⟨b, by simp [hfs], hb.congr (fun _ => by rw [hi]) (Table.committed_write hw hidle)⟩
  | commit d event htx hi ho _ _ hfs =>
    obtain ⟨haccepts, hshows⟩ := hb.commit hl htx hi ho
    exact ⟨b.place event haccepts, by simp [Book.place, hfs], hshows⟩

/-- After every run the committed rows show the book of the orders that were committed. -/
theorem book_run {C : World → Label → Prop} {n : Nat} {es : List Event} {w : World}
    (hr : (worker db).Run C n es w) :
    Locks w ∧ ∃ b : Book db, b.placed = (commits es).map (·.2) ∧ b.Shows w := by
  refine hr.inv
    (I := fun es w => Locks w ∧ ∃ b : Book db, b.placed = (commits es).map (·.2) ∧ b.Shows w)
    ?_ ?_
  · rintro w rfl
    exact ⟨locks_start db, Book.empty db, rfl, shows_start db⟩
  · rintro n es w a w' fs hrun ⟨hl, b, hplaced, hshows⟩ - hs
    have hstep := dbStep (logged hrun) (stepped hs)
    obtain ⟨b', hplaced', hshows'⟩ := book_step hl hshows hstep
    exact ⟨hl.step hstep, b', by rw [hplaced', hplaced, commits_append, List.map_append], hshows'⟩

end Rivulet
end AutoSRE

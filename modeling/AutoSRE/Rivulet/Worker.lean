import AutoSRE.Lib.RowStore
import AutoSRE.Lib.Sys
import AutoSRE.Rivulet.Event

/-!
# The ingestion worker

The workers of the consumer group, as a system over the stream, the group's pending list, the
dead-letter stream and the two tables that the workers write.

* A delivery is one message in one process: what `processMessageWithDeliveryCount` gets from
  `XREADGROUP` or `XCLAIM`, and its way through `process` and `handleEvent` (`Stage`). A step of a
  delivery is one command to Valkey or PostgreSQL with its `Reply`, or the code between two.
* Any number of deliveries are in flight, of one entry or of many, and their steps interleave; any
  of them can crash at any point. A crash of a process is a crash of its deliveries.
* PostgreSQL is `Lib.Table`: an `UPDATE` and an `INSERT` are guarded writes under row locks, the
  guard of the `INSERT` is the `UNIQUE` constraint on `event_id`.
-/

namespace AutoSRE
namespace Rivulet

open Lib

/-! ## Stream entries and deliveries -/

/-- The payload field of a stream entry. -/
inductive Payload where
  /-- No field, or one of an unsupported type. -/
  | missing
  /-- Not valid JSON. -/
  | invalidJson
  | json (v : Value)

/-- The event that a payload carries. -/
def Payload.event : Payload → Option OrderEvent
  | .json v => (decodeEvent v).toOption
  | _ => none

/-- An entry of the pending list. -/
structure Pending where
  consumer : String
  /-- How often the entry has been delivered. -/
  retryCount : Nat

/-- A message as a consumer receives it. -/
structure Delivery where
  entry : Nat
  payload : Payload
  consumer : String
  deliveryCount : Nat

/-- A copy of a message in the dead-letter stream. -/
structure DeadLetter where
  original : Delivery
  reason : String

/-- How `handleEvent` returns: `nil`, a `PermanentError`, or another error. The text of a transient
error is the worker's own part of it. -/
inductive Result where
  | processed
  | permanent (msg : String)
  | transient (msg : String)
deriving DecidableEq

/-- Why an entry is acknowledged. -/
inductive AckSource where
  | processed
  /-- A permanent error. -/
  | dropped
  | deadLettered
deriving DecidableEq

/-- Where a delivery is. -/
inductive Stage where
  | received
  /-- `XADD` to the dead-letter stream is next. -/
  | deadLetter (reason : String)
  /-- In the processor's channel. -/
  | handle
  | beginTx (event : OrderEvent)
  | updateInventory (event : OrderEvent)
  | newOrderId (event : OrderEvent)
  | insertOrder (event : OrderEvent)
  | commitTx (event : OrderEvent)
  /-- `XACK` is next. -/
  | ack (source : AckSource)
  | gone

/-! ## The state -/

structure OrderRow where
  userId : String
  status : String

/-- The database before the workers start. The migration's `CHECK` constraint holds. -/
structure Database where
  inventory : String → Option Int
  orders : String → Option OrderRow
  nonnegative : ∀ sku q, inventory sku = some q → 0 ≤ q

/-- The transaction of a delivery has the delivery's number. -/
structure World where
  inventory : Table String Nat (Option Int)
  orders : Table String Nat (Option OrderRow)
  entries : List Payload
  /-- The group's last delivered entry: the entries before `read` have been delivered. -/
  read : Nat
  pending : Nat → Option Pending
  deadLetters : List DeadLetter
  deliveries : Nat → Option Delivery
  stage : Nat → Stage
  /-- The number of the next delivery. -/
  next : Nat

/-- The start: an empty stream and an idle database. -/
def start (db : Database) : World where
  inventory := Table.ofRows db.inventory
  orders := Table.ofRows db.orders
  entries := []
  read := 0
  pending := fun _ => none
  deadLetters := []
  deliveries := fun _ => none
  stage := fun _ => .gone
  next := 0

inductive Event where
  | delivered (d : Nat) (message : Delivery)
  | committed (d : Nat) (event : OrderEvent)
  | handled (d : Nat) (result : Result)
  | deadLettered (d entry : Nat)
  | acked (d entry : Nat) (source : AckSource)

/-- The end of a command to Valkey or PostgreSQL. -/
inductive Reply where
  | ok
  /-- An error, and the command has no effect. -/
  | failed
  /-- The command has its effect, and its reply is lost. -/
  | lost
deriving DecidableEq

inductive Label where
  /-- A producer appends an entry. -/
  | append (payload : Payload)
  /-- `XREADGROUP`. -/
  | read (consumer : String)
  /-- `XCLAIM` of an entry that `XPENDING` has listed as `seen`. -/
  | claim (consumer : String) (entry : Nat) (seen : Pending)
  | advance (d : Nat) (reply : Reply)
  | crash (d : Nat)

/-- A function with the value of one argument replaced. -/
def update {α : Type} (f : Nat → α) (i : Nat) (x : α) : Nat → α := fun j => if j = i then x else f j

@[simp] theorem update_self {α : Type} (f : Nat → α) (i : Nat) (x : α) : update f i x i = x := by
  simp [update]

theorem update_ne {α : Type} (f : Nat → α) {i j : Nat} (x : α) (h : j ≠ i) :
    update f i x j = f j := by
  simp [update, h]

def World.goto (w : World) (d : Nat) (s : Stage) : World := { w with stage := update w.stage d s }

def World.setInventory (w : World) (inventory : Table String Nat (Option Int)) : World :=
  { w with inventory }

def World.setOrders (w : World) (orders : Table String Nat (Option OrderRow)) : World :=
  { w with orders }

/-- The rows that the transaction has written are as before, and unlocked. -/
def World.abort (w : World) (d : Nat) : World :=
  { w with inventory := w.inventory.abort d, orders := w.orders.abort d }

def World.commit (w : World) (d : Nat) : World :=
  { w with inventory := w.inventory.commit d, orders := w.orders.commit d }

/-! ## The consumer -/

def defaultMaxDeliveryAttempts : Nat := 5

/-- The checks of `processMessageWithDeliveryCount`: the reason to dead-letter the message. -/
def checkMessage (message : Delivery) : Option String :=
  match message.payload with
  | .missing => some "invalid_payload"
  | .invalidJson => some "invalid_json"
  | .json _ =>
    if defaultMaxDeliveryAttempts < message.deliveryCount then
      some "max_delivery_attempts_exceeded"
    else none

/-- Hand an entry to a consumer. -/
def deliver (w : World) (message : Delivery) (retryCount : Nat) : World × List Event :=
  ({ w with
      pending := update w.pending message.entry (some ⟨message.consumer, retryCount⟩)
      deliveries := update w.deliveries w.next (some message)
      stage := update w.stage w.next .received
      next := w.next + 1 },
    [.delivered w.next message])

def World.addDeadLetter (w : World) (copy : DeadLetter) : World :=
  { w with deadLetters := w.deadLetters ++ [copy] }

/-- `deadLetter`: append a copy to the dead-letter stream; only then acknowledge the original. -/
def appendDeadLetter (w : World) (d : Nat) (message : Delivery) (reason : String) :
    Reply → World × List Event
  | .ok => ((w.addDeadLetter ⟨message, reason⟩).goto d (.ack .deadLettered),
      [.deadLettered d message.entry])
  | .failed => (w.goto d .gone, [])
  | .lost => ((w.addDeadLetter ⟨message, reason⟩).goto d .gone, [.deadLettered d message.entry])

def World.removePending (w : World) (entry : Nat) : World :=
  { w with pending := update w.pending entry none }

/-- `XACK`. An error is logged, and the delivery is over all the same. -/
def acknowledge (w : World) (d : Nat) (message : Delivery) (source : AckSource) :
    Reply → World × List Event
  | .failed => (w.goto d .gone, [])
  | .ok | .lost => ((w.removePending message.entry).goto d .gone, [.acked d message.entry source])

/-! ## The processor -/

/-- `process`, after `handleEvent`: a permanent error is acknowledged, a transient one is not. -/
def afterHandle : Result → Stage
  | .processed => .ack .processed
  | .permanent _ => .ack .dropped
  | .transient _ => .gone

/-- `handleEvent` returns. -/
def returns (w : World) (d : Nat) (r : Result) : World × List Event :=
  (w.goto d (afterHandle r), [.handled d r])

/-- PostgreSQL's largest `INT`. -/
def maxInt4 : Int := 2147483647

/-- PostgreSQL's `TEXT` has no NUL character. -/
def isText (s : String) : Bool := s.toList.all (· != Char.ofNat 0)

def isHexDigit (c : Char) : Bool := c.isDigit || ('a' ≤ c.toLower && c.toLower ≤ 'f')

/-- Read `n` more bytes of a UUID, two digits each; a hyphen may follow every second byte. -/
def uuidBytes : Nat → List Char → Option (List Char)
  | 0, cs => some cs
  | n + 1, a :: b :: cs =>
    if isHexDigit a && isHexDigit b then
      if cs.head? = some '-' ∧ n % 2 = 0 ∧ 0 < n then uuidBytes n cs.tail else uuidBytes n cs
    else none
  | _ + 1, _ => none

/-- PostgreSQL reads the text as a `UUID`. -/
def isUuid (s : String) : Bool :=
  match s.toList with
  | '{' :: cs => uuidBytes 16 cs == some ['}']
  | cs => uuidBytes 16 cs == some []

/-- `UPDATE inventory SET quantity = quantity - $1 WHERE sku = $2 AND quantity >= $1`, on a row. -/
def deductInventory (quantity : Int) : Option Int → Option (Option Int)
  | some q => if quantity ≤ q then some (some (q - quantity)) else none
  | none => none

/-- `INSERT INTO orders` under `uq_orders_event_id`, on a row. -/
def insertRow (userId : String) : Option OrderRow → Option (Option OrderRow)
  | none => some (some ⟨userId, "pending"⟩)
  | some _ => none

/-- The `UPDATE` can be executed: `$1` is an `INT` and `$2` a `TEXT`. -/
def canUpdate (event : OrderEvent) : Bool :=
  decide (event.quantity ≤ maxInt4) && isText event.sku

/-- The `INSERT` can be executed: the types of its columns, and `chk_orders_event_id_nonblank`. -/
def canInsert (event : OrderEvent) : Bool :=
  isText event.eventId && event.eventId.toList.any (· != ' ') && isUuid event.userId

/-- The deferred rollback, when `handleEvent` returns in the transaction. -/
def rollback (w : World) (d : Nat) (r : Result) : World × List Event := returns (w.abort d) d r

/-- The `UPDATE`: exactly one row must be updated. It waits for a row that is locked. -/
def updateInventory (w : World) (d : Nat) (event : OrderEvent) (reply : Reply) :
    Option (World × List Event) :=
  if reply = .ok ∧ canUpdate event then
    match w.inventory.write d event.sku (deductInventory event.quantity) with
    | .written inventory => some ((w.setInventory inventory).goto d (.newOrderId event), [])
    | .unmatched => some (rollback w d
        (.permanent ("insufficient inventory or unknown sku: " ++ event.sku)))
    | .blocked => none
  else some (rollback w d (.transient "failed to update inventory"))

/-- The `INSERT`. It waits for a transaction that has inserted the same `event_id`. -/
def insertOrder (w : World) (d : Nat) (event : OrderEvent) (reply : Reply) :
    Option (World × List Event) :=
  if reply = .ok ∧ canInsert event then
    match w.orders.write d event.eventId (insertRow event.userId) with
    | .written orders => some ((w.setOrders orders).goto d (.commitTx event), [])
    | .unmatched => some (rollback w d (.transient "failed to insert order"))
    | .blocked => none
  else some (rollback w d (.transient "failed to insert order"))

/-- `tx.Commit`. When only its reply is lost, the transaction has committed. -/
def commitTx (w : World) (d : Nat) (event : OrderEvent) : Reply → World × List Event
  | .ok => ((w.commit d).goto d (afterHandle .processed),
      [.committed d event, .handled d .processed])
  | .failed => rollback w d (.transient "failed to commit tx")
  | .lost => ((w.commit d).goto d (afterHandle (.transient "failed to commit tx")),
      [.committed d event, .handled d (.transient "failed to commit tx")])

/-- A step of a delivery. -/
def advance (w : World) (d : Nat) (message : Delivery) (reply : Reply) :
    Stage → Option (World × List Event)
  | .received =>
    match checkMessage message with
    | some reason => some (w.goto d (.deadLetter reason), [])
    | none => some (w.goto d .handle, [])
  | .deadLetter reason => some (appendDeadLetter w d message reason reply)
  | .handle =>
    match message.payload with
    | .json v =>
      match decodeEvent v with
      | .error msg => some (returns w d (.permanent msg))
      | .ok event => some (w.goto d (.beginTx event), [])
    | _ => none
  | .beginTx event =>
    if reply = .ok then some (w.goto d (.updateInventory event), [])
    else some (returns w d (.transient "failed to begin tx"))
  | .updateInventory event => updateInventory w d event reply
  | .newOrderId event =>
    if reply = .ok then some (w.goto d (.insertOrder event), [])
    else some (rollback w d (.transient "failed to generate order id"))
  | .insertOrder event => insertOrder w d event reply
  | .commitTx event => some (commitTx w d event reply)
  | .ack source => some (acknowledge w d message source reply)
  | .gone => none

/-! ## The system -/

def step (w : World) : Label → Option (World × List Event)
  | .append payload => some ({ w with entries := w.entries ++ [payload] }, [])
  | .read consumer =>
    match w.entries[w.read]? with
    | none => none
    | some payload => some (deliver { w with read := w.read + 1 } ⟨w.read, payload, consumer, 1⟩ 1)
  | .claim consumer entry seen =>
    match w.pending entry, w.entries[entry]? with
    | some p, some payload =>
      -- `reclaimPending` skips its own entries, and counts from what it has seen.
      if seen.consumer ≠ consumer ∧ seen.retryCount ≤ p.retryCount then
        some (deliver w ⟨entry, payload, consumer, seen.retryCount + 1⟩ (p.retryCount + 1))
      else none
    | _, _ => none
  | .advance d reply =>
    match w.deliveries d with
    | none => none
    | some message => advance w d message reply (w.stage d)
  | .crash d => some ((w.abort d).goto d .gone, [])

/-- The workers on a database. -/
def worker (db : Database) : Sys World Label Event where
  init w := w = start db
  step := step

end Rivulet
end AutoSRE

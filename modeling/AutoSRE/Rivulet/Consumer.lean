import AutoSRE.Lib.Prog
import AutoSRE.Rivulet.Worker
import Mathlib.Data.List.Nodup
import Mathlib.Data.List.Sort

/-!
# The stream consumers (`internal/queue/stream.go`)

* The stream and its consumer group (`Group`), and what the commands of `RedisClient` do to it.
* `consumeLoop` and `reclaimPending` as programs of calls: a call is a command, a read of
  `ctx.Err()`, or the hand-over of a message to `msgChan`.

Nothing in the repository deletes an entry of the stream, so the group's pending entries are all in
it. Times are in milliseconds.
-/

namespace AutoSRE
namespace Rivulet

open Lib

/-! ## Options -/

structure StreamConsumerOptions where
  batchSize : Int
  reclaimIdle : Int
  maxDeliveryAttempts : Int

def defaultBatchSize : Nat := 10

/-- One minute. -/
def defaultReclaimIdle : Nat := 60000

/-- An option that is not positive has its default value. -/
def orDefault (x : Int) (default : Nat) : Nat := if x ≤ 0 then default else x.toNat

theorem orDefault_pos {x : Int} {default : Nat} (h : 0 < default) : 0 < orDefault x default := by
  unfold orDefault
  split
  · exact h
  · omega

structure StreamConsumer where
  consumer : String
  batchSize : Nat
  reclaimIdle : Nat
  maxDeliveryAttempts : Nat
  batchSize_pos : 0 < batchSize
  maxDeliveryAttempts_pos : 0 < maxDeliveryAttempts

def newStreamConsumerWithOptions (consumer : String) (opts : StreamConsumerOptions) :
    StreamConsumer where
  consumer := consumer
  batchSize := orDefault opts.batchSize defaultBatchSize
  reclaimIdle := orDefault opts.reclaimIdle defaultReclaimIdle
  maxDeliveryAttempts := orDefault opts.maxDeliveryAttempts defaultMaxDeliveryAttempts
  batchSize_pos := orDefault_pos (by decide)
  maxDeliveryAttempts_pos := orDefault_pos (by decide)

/-- `StreamConsumerOptions{}`, the options of the worker. -/
def noOptions : StreamConsumerOptions := ⟨0, 0, 0⟩

def newStreamConsumer (consumer : String) : StreamConsumer :=
  newStreamConsumerWithOptions consumer noOptions

/-! ## The stream and its group -/

structure PendingEntry where
  id : Nat
  owner : String
  deliveredAt : Nat
  /-- How often the entry has been delivered. -/
  retryCount : Nat

structure Group where
  entries : List Payload
  /-- The entries before `read` have been delivered. -/
  read : Nat
  pending : List PendingEntry
  consumers : List String
  now : Nat
  deadLetters : List DeadLetter
  ordered : pending.Pairwise fun p q => p.id < q.id
  delivered : ∀ p ∈ pending, p.id < read
  read_le : read ≤ entries.length
  known : ∀ p ∈ pending, p.owner ∈ consumers
  named : consumers.Nodup

/-- The group that `EnsureGroup` creates. -/
def emptyGroup : Group where
  entries := []
  read := 0
  pending := []
  consumers := []
  now := 0
  deadLetters := []
  ordered := .nil
  delivered := by simp
  read_le := Nat.le_refl 0
  known := by simp
  named := .nil

structure XMessage where
  id : Nat
  payload : Payload

/-- An owner in the reply of `XINFO CONSUMERS`, and how many entries it owns. -/
structure XInfoConsumer where
  name : String
  pending : Nat

/-- An entry in the reply of `XPENDING`. -/
structure XPendingExt where
  id : Nat
  consumer : String
  retryCount : Nat

namespace Group

variable (g : Group)

/-- How long ago the entry was delivered. -/
def idle (p : PendingEntry) : Nat := g.now - p.deliveredAt

/-- A producer's `XADD`. -/
def append (payload : Payload) : Group :=
  { g with
    entries := g.entries ++ [payload]
    read_le := by have := g.read_le; simp; omega }

def wait (d : Nat) : Group := { g with now := g.now + d }

/-- The consumers, in the order of their names. -/
def withConsumer (consumer : String) : List String :=
  if consumer ∈ g.consumers then g.consumers else g.consumers.orderedInsert (· ≤ ·) consumer

theorem mem_withConsumer {consumer name : String} :
    name ∈ g.withConsumer consumer ↔ name = consumer ∨ name ∈ g.consumers := by
  unfold withConsumer
  split
  · rename_i h
    exact ⟨.inr, fun hn => hn.elim (fun he => he ▸ h) id⟩
  · exact List.mem_orderedInsert _

theorem nodup_withConsumer (consumer : String) : (g.withConsumer consumer).Nodup := by
  unfold withConsumer
  split
  · exact g.named
  · rename_i h
    exact (List.perm_orderedInsert _ _ _).nodup_iff.mpr (List.nodup_cons.mpr ⟨h, g.named⟩)

/-- The entries that `XREADGROUP` delivers. -/
def fresh (count : Nat) : List Payload := (g.entries.drop g.read).take count

theorem fresh_length_le (count : Nat) : g.read + (g.fresh count).length ≤ g.entries.length := by
  have := g.read_le
  simp only [fresh, List.length_take, List.length_drop]
  omega

/-- `XREADGROUP ... STREAMS stream >`: the next entries are the consumer's. There is no reply when
there is none. -/
def xReadGroup (consumer : String) (count : Nat) : Option (List XMessage) × Group :=
  let fresh := g.fresh count
  let messages := (fresh.zipIdx g.read).map fun m => ⟨m.2, m.1⟩
  (if fresh.isEmpty then none else some messages,
    { g with
      read := g.read + fresh.length
      pending := g.pending ++
        (List.range' g.read fresh.length).map fun id => ⟨id, consumer, g.now, 1⟩
      consumers := g.withConsumer consumer
      ordered := by
        refine List.pairwise_append.mpr ⟨g.ordered, ?_, fun p hp q hq => ?_⟩
        · exact List.pairwise_map.mpr (List.pairwise_lt_range' 1)
        · obtain ⟨id, hid, rfl⟩ := List.mem_map.mp hq
          have := g.delivered p hp
          have := List.left_le_of_mem_range' hid
          exact Nat.lt_of_lt_of_le (g.delivered p hp) this
      delivered := by
        intro p hp
        rcases List.mem_append.mp hp with hp | hp
        · exact Nat.lt_of_lt_of_le (g.delivered p hp) (Nat.le_add_right _ _)
        · obtain ⟨id, hid, rfl⟩ := List.mem_map.mp hp
          have := List.mem_range'_1.mp hid
          exact this.2
      read_le := g.fresh_length_le count
      known := by
        intro p hp
        refine (g.mem_withConsumer).mpr ?_
        rcases List.mem_append.mp hp with hp | hp
        · exact .inr (g.known p hp)
        · obtain ⟨id, -, rfl⟩ := List.mem_map.mp hp
          exact .inl rfl
      named := g.nodup_withConsumer consumer })

/-- The entries of a consumer. -/
def owned (consumer : String) : List PendingEntry := g.pending.filter (·.owner = consumer)

/-- `XINFO CONSUMERS`. -/
def xInfoConsumers : List XInfoConsumer :=
  g.consumers.map fun name => ⟨name, (g.owned name).length⟩

/-- The entries of a consumer that `XPENDING ... IDLE minIdle` finds. -/
def idleOf (consumer : String) (minIdle : Nat) : List PendingEntry :=
  (g.owned consumer).filter (minIdle ≤ g.idle ·)

/-- `XPENDING ... IDLE minIdle - + count consumer`. -/
def xPendingExt (consumer : String) (minIdle count : Nat) : List XPendingExt :=
  ((g.idleOf consumer minIdle).take count).map fun p => ⟨p.id, p.owner, p.retryCount⟩

/-- A pending entry, delivered once more. -/
def redeliver (consumer : String) (id : Nat) (p : PendingEntry) : PendingEntry :=
  if p.id = id then ⟨id, consumer, g.now, p.retryCount + 1⟩ else p

theorem redeliver_id (consumer : String) (id : Nat) (p : PendingEntry) :
    (g.redeliver consumer id p).id = p.id := by
  unfold redeliver
  split
  · rename_i h
    exact h.symm
  · rfl

/-- The entry belongs to the consumer from now on. -/
def claim (consumer : String) (id : Nat) : Group :=
  { g with
    pending := g.pending.map (g.redeliver consumer id)
    consumers := g.withConsumer consumer
    ordered := by
      refine List.pairwise_map.mpr (g.ordered.imp fun {p q} h => ?_)
      rwa [redeliver_id, redeliver_id]
    delivered := by
      intro p hp
      obtain ⟨q, hq, rfl⟩ := List.mem_map.mp hp
      rw [redeliver_id]
      exact g.delivered q hq
    known := by
      intro p hp
      obtain ⟨q, hq, rfl⟩ := List.mem_map.mp hp
      refine (g.mem_withConsumer).mpr ?_
      unfold redeliver
      split
      · exact .inl rfl
      · exact .inr (g.known q hq)
    named := g.nodup_withConsumer consumer }

/-- The pending entry with an id. -/
def find (id : Nat) : Option PendingEntry := g.pending.find? (·.id = id)

/-- `XCLAIM ... consumer minIdle id`. -/
def xClaim (consumer : String) (minIdle id : Nat) : Option XMessage × Group :=
  match g.find id, g.entries[id]? with
  | some p, some payload =>
    if minIdle ≤ g.idle p then (some ⟨id, payload⟩, g.claim consumer id) else (none, g)
  | _, _ => (none, g)

/-- `XADD` to the dead-letter stream. -/
def xAdd (copy : DeadLetter) : Group := { g with deadLetters := g.deadLetters ++ [copy] }

def xAck (id : Nat) : Group :=
  { g with
    pending := g.pending.filter (·.id ≠ id)
    ordered := g.ordered.filter _
    delivered := fun p hp => g.delivered p (List.mem_of_mem_filter hp)
    known := fun p hp => g.known p (List.mem_of_mem_filter hp) }

/-! ### The entry with an id -/

variable {g} {id : Nat}

theorem nodup_ids : (g.pending.map PendingEntry.id).Nodup :=
  List.pairwise_map.mpr (g.ordered.imp Nat.ne_of_lt)

theorem find_some {p : PendingEntry} (h : g.find id = some p) : p ∈ g.pending ∧ p.id = id := by
  have hid := List.find?_some h
  exact ⟨List.mem_of_find?_eq_some h, by simpa using hid⟩

theorem find_lt {p : PendingEntry} (h : g.find id = some p) : id < g.read := by
  obtain ⟨hp, rfl⟩ := find_some h
  exact g.delivered p hp

theorem find_of_mem {p : PendingEntry} (hp : p ∈ g.pending) : g.find p.id = some p := by
  have hsome : (g.find p.id).isSome = true := List.find?_isSome.mpr ⟨p, hp, by simp⟩
  obtain ⟨q, hq⟩ := Option.isSome_iff_exists.mp hsome
  obtain ⟨hmem, hid⟩ := find_some hq
  rw [hq, List.inj_on_of_nodup_map nodup_ids hmem hp hid]

theorem find_xReadGroup (consumer : String) (count : Nat) :
    (g.xReadGroup consumer count).2.find id =
      (g.find id).or (if id ∈ List.range' g.read (g.fresh count).length then
        some ⟨id, consumer, g.now, 1⟩ else none) := by
  change (g.pending ++ _).find? _ = _
  rw [List.find?_append, List.find?_map]
  congr 1
  by_cases hid : id ∈ List.range' g.read (g.fresh count).length
  · simp only [hid, if_true]
    have hfind : (List.range' g.read (g.fresh count).length).find? (· = id) = some id := by
      obtain ⟨a, ha⟩ := Option.isSome_iff_exists.mp
        (List.find?_isSome.mpr ⟨id, hid, by simp⟩ :
          ((List.range' g.read (g.fresh count).length).find? (· = id)).isSome = true)
      have := List.find?_some ha
      rw [ha, of_decide_eq_true this]
    exact congrArg (Option.map _) hfind
  · simp only [hid, if_false, Option.map_eq_none_iff, List.find?_eq_none]
    intro i hi he
    obtain rfl : i = id := by simpa using he
    exact hid hi

theorem find_claim (consumer : String) (i : Nat) :
    (g.claim consumer i).find id = (g.find id).map (g.redeliver consumer i) := by
  change (g.pending.map _).find? _ = _
  rw [List.find?_map]
  congr 2
  funext p
  simp [redeliver_id]

theorem find_xAck (i : Nat) : (g.xAck i).find id = if id = i then none else g.find id := by
  change (g.pending.filter _).find? _ = _
  rw [List.find?_filter]
  by_cases hid : id = i
  · subst hid
    simp
  · rw [if_neg hid]
    refine congrArg (List.find? · g.pending) ?_
    funext p
    by_cases hp : p.id = id
    · simp [hp, hid]
    · simp [hp]

end Group

/-! ## The calls of the loops -/

inductive Call where
  /-- `ctx.Err() != nil`. -/
  | ctxErr
  | xReadGroup (consumer : String) (count : Nat)
  | xInfoConsumers
  | xPendingExt (consumer : String) (minIdle count : Nat)
  /-- `XCLAIM` of the entry that was found as `entry`. -/
  | xClaim (consumer : String) (minIdle : Nat) (entry : XPendingExt)
  | xAdd (copy : DeadLetter)
  | xAck (id : Nat)
  /-- `msgChan <- message`, or `<-ctx.Done()`. -/
  | send (message : Delivery)

/-- The reply to a call; `none` and `false` are errors, or that the context is done. -/
@[reducible] def Call.Reply : Call → Type
  | .xReadGroup _ _ => Option (List XMessage)
  | .xInfoConsumers => Option (List XInfoConsumer)
  | .xPendingExt _ _ _ => Option (List XPendingExt)
  | .xClaim _ _ _ => Option (Option XMessage)
  | .ctxErr | .xAdd _ | .xAck _ | .send _ => Bool

abbrev Program := Prog Call.Reply

/-- The reply to a call that fails. -/
def Call.error : (c : Call) → c.Reply
  | .xReadGroup _ _ | .xInfoConsumers | .xPendingExt _ _ _ | .xClaim _ _ _ => none
  | .ctxErr | .xAdd _ | .xAck _ | .send _ => false

/-- The call succeeds, with a context that is not done. -/
def Group.answer (g : Group) : (c : Call) → c.Reply × Group
  | .ctxErr => (false, g)
  | .xReadGroup consumer count => g.xReadGroup consumer count
  | .xInfoConsumers => (some g.xInfoConsumers, g)
  | .xPendingExt consumer minIdle count => (some (g.xPendingExt consumer minIdle count), g)
  | .xClaim consumer minIdle entry =>
    let claimed := g.xClaim consumer minIdle entry.id
    (some claimed.1, claimed.2)
  | .xAdd copy => (true, g.xAdd copy)
  | .xAck id => (true, g.xAck id)
  | .send _ => (true, g)

/-! ## The loops -/

section loops

def call (c : Call) : Program c.Reply := Prog.perform c

/-- `failMessage`: append a copy to the dead-letter stream; only then acknowledge the original. -/
def failMessage (message : Delivery) (reason : String) : Program Unit := do
  if ← call (.xAdd ⟨message, reason⟩) then
    let _ ← call (.xAck message.entry)
    return ()
  else return ()

variable (sc : StreamConsumer)

def processMessageWithDeliveryCount (xmsg : XMessage) (deliveryCount : Nat) : Program Unit :=
  let message : Delivery := ⟨xmsg.id, xmsg.payload, sc.consumer, max deliveryCount 1⟩
  match xmsg.payload with
  | .missing => failMessage message "invalid_payload"
  | .invalidJson => failMessage message "invalid_json"
  | .json _ =>
    if sc.maxDeliveryAttempts < message.deliveryCount then
      failMessage message "max_delivery_attempts_exceeded"
    else do
      let _ ← call (.send message)
      return ()

variable {sc} in
/-- With the default options, the checks are those of the worker's deliveries. -/
theorem processMessage_checkMessage (h : sc.maxDeliveryAttempts = defaultMaxDeliveryAttempts)
    (xmsg : XMessage) (deliveryCount : Nat) :
    processMessageWithDeliveryCount sc xmsg deliveryCount =
      let message : Delivery := ⟨xmsg.id, xmsg.payload, sc.consumer, max deliveryCount 1⟩
      match checkMessage message with
      | some reason => failMessage message reason
      | none => do
        let _ ← call (.send message)
        return () := by
  obtain ⟨id, payload⟩ := xmsg
  cases payload with
  | missing | invalidJson => rfl
  | json v =>
    simp only [processMessageWithDeliveryCount, checkMessage, h]
    split <;> rfl

def processMessage (xmsg : XMessage) : Program Unit := processMessageWithDeliveryCount sc xmsg 1

/-- The messages that `XREADGROUP` has returned. -/
def consumeMessages : List XMessage → Program Unit
  | [] => return ()
  | xmsg :: messages => do
    processMessage sc xmsg
    if ← call .ctxErr then return ()
    else consumeMessages messages

/-- One round of `consumeLoop`. An error is logged. -/
def consumeLoop : Program Unit := do
  if ← call .ctxErr then return ()
  else
    match ← call (.xReadGroup sc.consumer sc.batchSize) with
    | none => return ()
    | some messages => consumeMessages sc messages

/-- The entries of an owner: how many messages are claimed, or `none` when the pass is over. -/
def reclaimEntries (claimed : Nat) : List XPendingExt → Program (Option Nat)
  | [] => return some claimed
  | entry :: entries => do
    if ← call .ctxErr then return none
    else
      match ← call (.xClaim sc.consumer sc.reclaimIdle entry) with
      | none =>
        if ← call .ctxErr then return none
        else reclaimEntries claimed entries
      | some none => reclaimEntries claimed entries
      | some (some xmsg) =>
        processMessageWithDeliveryCount sc xmsg (entry.retryCount + 1)
        if sc.batchSize ≤ claimed + 1 then return none
        else reclaimEntries (claimed + 1) entries

/-- The entries of one owner. -/
def reclaimOwner (claimed : Nat) (owner : String) : Program (Option Nat) := do
  match ← call (.xPendingExt owner sc.reclaimIdle (sc.batchSize - claimed)) with
  | none =>
    if ← call .ctxErr then return none
    else return some claimed
  | some entries => reclaimEntries sc claimed entries

def reclaimOwners (claimed : Nat) : List XInfoConsumer → Program Unit
  | [] => return ()
  | owner :: owners => do
    if ← call .ctxErr then return ()
    else if owner.name = sc.consumer ∨ owner.pending = 0 then reclaimOwners claimed owners
    else if sc.batchSize ≤ claimed then return ()
    else
      match ← reclaimOwner sc claimed owner.name with
      | none => return ()
      | some claimed => reclaimOwners claimed owners

def reclaimPending : Program Unit := do
  match ← call .xInfoConsumers with
  | none => return ()
  | some consumers => reclaimOwners sc 0 consumers

end loops

end Rivulet
end AutoSRE

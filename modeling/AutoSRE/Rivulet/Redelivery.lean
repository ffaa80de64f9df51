import AutoSRE.Rivulet.Consumer
import AutoSRE.Rivulet.ExactlyOnce

/-!
# How often an entry is handed over

* `fleet`: the processes of the consumer group. Their loops are threads; the group, and the channel
  and the processor of each process are what the threads share. A call of a loop can succeed, fail,
  or succeed with its reply lost; a process can be cancelled, and it can crash and start again. What
  the processor does with a message is the worker's; here it ends with an acknowledgement or without
  one.
* An entry is handed over at most `maxDeliveryAttempts` times (`Bounded`) if a claim of an entry
  that has been delivered so often is made from a reply of `XPENDING` that says so (`SeesLimit`):
  `reclaimPending` computes the delivery count from that reply, and another consumer may have
  claimed the entry since then.
* `bounded_redelivery`: each hand-over is paid with a credit (`handOvers`), which only a delivery
  below the limit earns, and the group's true counts bound what is earned (`Group.allowance`).
-/

namespace AutoSRE
namespace Rivulet

open Lib

/-! ## The processes of the group -/

/-- The loops of a process. -/
inductive Loop where
  | consume
  | reclaim
deriving DecidableEq

structure Fleet where
  group : Group
  /-- `msgChan` of a process. -/
  channel : Nat → List Delivery
  /-- The message that the processor works on. -/
  current : Nat → Option Delivery
  /-- The context of the consumer is cancelled. -/
  cancelled : Nat → Bool

/-- What happens besides the calls of the loops. -/
inductive Ambient where
  /-- A producer appends an entry. -/
  | append (payload : Payload)
  | wait (d : Nat)
  /-- The processor receives a message. -/
  | take (process : Nat)
  /-- The processor is done with its message. A transient error leaves it unacknowledged. -/
  | finish (process : Nat) (acked : Bool)
  | cancel (process : Nat)
  /-- The process starts again; its channel is new. -/
  | restart (process : Nat)

/-- The acknowledgement of a processor. -/
inductive Settlement where
  | acked (id : Nat)

namespace Fleet

variable (f : Fleet)

def setGroup (group : Group) : Fleet := { f with group }

/-- A call of a loop of the process. A hand-over waits for room in the channel. -/
def perform (capacity : Nat) (process : Nat) (c : Call) (reply : Reply) :
    Option (c.Reply × Fleet) :=
  match c with
  | .ctxErr => some (f.cancelled process, f)
  | .send message =>
    match reply with
    | .ok =>
      if (f.channel process).length < capacity then
        some (true, { f with
          channel := update f.channel process (f.channel process ++ [message]) })
      else none
    | .failed => if f.cancelled process then some (false, f) else none
    | .lost => none
  | c =>
    match reply with
    | .ok => some ((f.group.answer c).1, f.setGroup (f.group.answer c).2)
    | .failed => some (c.error, f)
    | .lost => some (c.error, f.setGroup (f.group.answer c).2)

def ambient : Ambient → Option (Fleet × List Settlement)
  | .append payload => some (f.setGroup (f.group.append payload), [])
  | .wait d => some (f.setGroup (f.group.wait d), [])
  | .take process =>
    match f.current process, f.channel process with
    | none, message :: messages =>
      some ({ f with
        channel := update f.channel process messages
        current := update f.current process (some message) }, [])
    | _, _ => none
  | .finish process acked =>
    match f.current process with
    | none => none
    | some message =>
      let idle := { f with current := update f.current process none }
      if acked then
        some (idle.setGroup (f.group.xAck message.entry), [.acked message.entry])
      else some (idle, [])
  | .cancel process => some ({ f with cancelled := update f.cancelled process true }, [])
  | .restart process =>
    some ({ f with
      channel := update f.channel process []
      current := update f.current process none
      cancelled := update f.cancelled process false }, [])

end Fleet

/-- The fleet before anything has happened. -/
def newFleet : Fleet where
  group := emptyGroup
  channel := fun _ => []
  current := fun _ => none
  cancelled := fun _ => false

/-- The loops of the processes, with the names of their consumers. -/
def loops (opts : StreamConsumerOptions) (names : Nat → String) (capacity : Nat) :
    Shared Call.Reply (Nat × Loop) Fleet Reply Ambient Settlement where
  init f := f = newFleet
  perform f t := f.perform capacity t.1
  ambient := Fleet.ambient
  body
    | (process, .consume) => consumeLoop (newStreamConsumerWithOptions (names process) opts)
    | (process, .reclaim) => reclaimPending (newStreamConsumerWithOptions (names process) opts)

abbrev FleetState := Threaded Call.Reply (Nat × Loop) Fleet

abbrev FleetAct := Act (Nat × Loop) Reply Ambient

abbrev FleetEvent := Happened Call.Reply (Nat × Loop) Settlement

def fleet (opts : StreamConsumerOptions) (names : Nat → String) (capacity : Nat) :
    Sys FleetState FleetAct FleetEvent :=
  threads (loops opts names capacity)

/-! ## The bound -/

/-- The entry is placed on a channel. -/
def placed (id : Nat) : FleetEvent → Bool
  | .called _ (.send message) true => message.entry = id
  | _ => false

/-- How often the entry is placed on a channel. -/
def placements (id : Nat) (es : List FleetEvent) : Nat := es.countP (placed id)

/-- The entry is dead-lettered or acknowledged. -/
def settled (id : Nat) : FleetEvent → Bool
  | .called _ (.xAdd copy) true => copy.original.entry = id
  | .called _ (.xAck i) true => i = id
  | .ambient (.acked i) => i = id
  | _ => false

/-- No entry is placed on a channel more than `maxAttempts` times before it is settled. -/
def Bounded (maxAttempts : Nat) (es : List FleetEvent) : Prop :=
  ∀ id pre post, es = pre ++ post → (∀ e ∈ pre, settled id e = false) →
    placements id pre ≤ maxAttempts

/-- A claim of an entry that has been delivered `maxAttempts` times is made from a reply of
`XPENDING` that says so. -/
def SeesLimit (maxAttempts : Nat) (s : FleetState) (a : FleetAct) : Prop :=
  ∀ t consumer minIdle entry k p, a = .call t .ok →
    s.programs t = .call (.xClaim consumer minIdle entry) k →
    s.shared.group.find entry.id = some p → minIdle ≤ s.shared.group.idle p →
    p.retryCount < maxAttempts ∨ maxAttempts ≤ entry.retryCount

/-! ## Credits -/

/-- The deliveries of an entry below the limit earn its hand-overs. -/
def handOvers (maxAttempts id : Nat) : Account Call.Reply where
  earns
    | .xReadGroup _ _, some messages => messages.countP (·.id = id)
    | .xClaim _ _ entry, some (some message) =>
      if message.id = id ∧ entry.retryCount < maxAttempts then 1 else 0
    | _, _ => 0
  spends
    | .send message, true => if message.entry = id then 1 else 0
    | _, _ => 0

section solvent

variable {sc : StreamConsumer} {id : Nat}

theorem solvent_failMessage (n : Nat) (message : Delivery) (reason : String) :
    (handOvers sc.maxDeliveryAttempts id).Solvent n (failMessage message reason) := by
  refine Account.Solvent.free (fun _ => rfl) fun r => ?_
  cases r with
  | false => trivial
  | true => exact Account.Solvent.free (fun _ => rfl) fun _ => trivial

variable (sc id) in
/-- A message needs a credit if its delivery count is not above the limit. -/
theorem solvent_processMessageWithDeliveryCount (xmsg : XMessage) (deliveryCount : Nat) :
    (handOvers sc.maxDeliveryAttempts id).Solvent
      (if xmsg.id = id ∧ deliveryCount ≤ sc.maxDeliveryAttempts then 1 else 0)
      (processMessageWithDeliveryCount sc xmsg deliveryCount) := by
  unfold processMessageWithDeliveryCount
  cases xmsg.payload with
  | missing | invalidJson => exact solvent_failMessage _ _ _
  | json v =>
    by_cases hcount : sc.maxDeliveryAttempts < max deliveryCount 1
    · simp only [hcount, if_true]
      exact solvent_failMessage _ _ _
    · have hle : deliveryCount ≤ sc.maxDeliveryAttempts := by omega
      simp only [hcount, hle, and_true, if_false]
      intro r
      refine ⟨?_, trivial⟩
      cases r with
      | false => exact Nat.zero_le _
      | true => exact Nat.le_refl _

/-- `ctx.Err()`, before one of two programs. -/
theorem solvent_ctxErr {α : Type} {n : Nat} {p q : Program α}
    (hp : (handOvers sc.maxDeliveryAttempts id).Solvent n p)
    (hq : (handOvers sc.maxDeliveryAttempts id).Solvent n q) :
    (handOvers sc.maxDeliveryAttempts id).Solvent n (do
      if ← call .ctxErr then p
      else q) := by
  refine Account.Solvent.free (fun _ => rfl) fun r => ?_
  cases r with
  | false => exact hq
  | true => exact hp

theorem solvent_consumeMessages (messages : List XMessage) :
    (handOvers sc.maxDeliveryAttempts id).Solvent (messages.countP (·.id = id))
      (consumeMessages sc messages) := by
  induction messages with
  | nil => trivial
  | cons xmsg messages ih =>
    have hprocess := solvent_processMessageWithDeliveryCount sc id xmsg 1
    have hmax : 1 ≤ sc.maxDeliveryAttempts := sc.maxDeliveryAttempts_pos
    simp only [hmax, and_true] at hprocess
    rw [List.countP_cons, Nat.add_comm]
    simp only [decide_eq_true_eq]
    exact hprocess.bind fun _ => solvent_ctxErr trivial ih

variable (sc id) in
theorem solvent_consumeLoop : (handOvers sc.maxDeliveryAttempts id).Solvent 0 (consumeLoop sc) := by
  refine solvent_ctxErr trivial fun r => ⟨Nat.zero_le _, ?_⟩
  cases r with
  | none => trivial
  | some messages =>
    simp only [handOvers, Nat.sub_zero, Nat.zero_add]
    exact solvent_consumeMessages messages

theorem solvent_reclaimEntries (claimed : Nat) (entries : List XPendingExt) :
    (handOvers sc.maxDeliveryAttempts id).Solvent 0 (reclaimEntries sc claimed entries) := by
  induction entries generalizing claimed with
  | nil => trivial
  | cons entry entries ih =>
    refine solvent_ctxErr trivial fun r => ⟨Nat.zero_le _, ?_⟩
    match r with
    | none => exact solvent_ctxErr trivial (ih claimed)
    | some none => exact ih claimed
    | some (some xmsg) =>
      -- The claim has earned a credit if the message is not dead-lettered.
      have hprocess := solvent_processMessageWithDeliveryCount sc id xmsg (entry.retryCount + 1)
      have hrest : (handOvers sc.maxDeliveryAttempts id).Solvent 0 (if sc.batchSize ≤ claimed + 1
          then return none else reclaimEntries sc (claimed + 1) entries) := by
        split
        · trivial
        · exact ih (claimed + 1)
      exact (hprocess.bind fun _ => hrest).mono (Nat.le_add_left _ _)

theorem solvent_reclaimOwner (claimed : Nat) (owner : String) :
    (handOvers sc.maxDeliveryAttempts id).Solvent 0 (reclaimOwner sc claimed owner) := by
  refine Account.Solvent.free (fun _ => rfl) fun r => ?_
  cases r with
  | none => exact solvent_ctxErr trivial trivial
  | some entries => exact solvent_reclaimEntries claimed entries

theorem solvent_reclaimOwners (claimed : Nat) (owners : List XInfoConsumer) :
    (handOvers sc.maxDeliveryAttempts id).Solvent 0 (reclaimOwners sc claimed owners) := by
  induction owners generalizing claimed with
  | nil => trivial
  | cons owner owners ih =>
    refine solvent_ctxErr trivial ?_
    split
    · exact ih claimed
    split
    · trivial
    refine (solvent_reclaimOwner claimed owner.name).bind (n := 0) fun r => ?_
    cases r with
    | none => trivial
    | some claimed => exact ih claimed

variable (sc id) in
theorem solvent_reclaimPending :
    (handOvers sc.maxDeliveryAttempts id).Solvent 0 (reclaimPending sc) := by
  refine Account.Solvent.free (fun r => rfl) fun r => ?_
  cases r with
  | none => trivial
  | some consumers => exact solvent_reclaimOwners 0 consumers

end solvent

/-! ## What is earned -/

namespace Group

variable (g : Group) (id : Nat)

/-- How often the deliveries so far can have earned a hand-over of the entry. -/
def allowance (maxAttempts : Nat) : Nat :=
  match g.find id with
  | some p => min p.retryCount maxAttempts
  | none => if id < g.read then maxAttempts else 0

variable {g id}

theorem allowance_le (maxAttempts : Nat) : g.allowance id maxAttempts ≤ maxAttempts := by
  unfold allowance
  split
  · exact Nat.min_le_right _ _
  · split
    · exact Nat.le_refl _
    · exact Nat.zero_le _

variable (g id) in
/-- The next entries, delivered once each. -/
theorem allowance_xReadGroup (consumer : String) (count : Nat) {maxAttempts : Nat}
    (hmax : 0 < maxAttempts) :
    (g.xReadGroup consumer count).2.allowance id maxAttempts =
      g.allowance id maxAttempts + (List.range' g.read (g.fresh count).length).count id := by
  have hcount := (List.nodup_range' (s := g.read) (n := (g.fresh count).length)).count (a := id)
  rw [hcount]
  have hread : (g.xReadGroup consumer count).2.read = g.read + (g.fresh count).length := rfl
  simp only [allowance, find_xReadGroup, hread, List.mem_range'_1]
  cases hfind : g.find id with
  | some p =>
    have := find_lt hfind
    simp only [Option.some_or]
    rw [if_neg (by omega), Nat.add_zero]
  | none =>
    by_cases hid : g.read ≤ id ∧ id < g.read + (g.fresh count).length
    · simp only [hid, Option.none_or, if_true, and_self]
      rw [if_neg (by omega), Nat.zero_add]
      exact Nat.min_eq_left hmax
    · simp only [hid, Option.none_or, if_false, Nat.add_zero]
      by_cases hlt : id < g.read
      · rw [if_pos hlt, if_pos (by omega)]
      · rw [if_neg hlt, if_neg (by omega)]

variable (g id) in
/-- A claim delivers the entry once more. -/
theorem allowance_claim (consumer : String) (i maxAttempts : Nat) :
    g.allowance id maxAttempts ≤ (g.claim consumer i).allowance id maxAttempts ∧
      ∀ p, g.find i = some p → p.retryCount < maxAttempts → i = id →
        (g.claim consumer i).allowance id maxAttempts = g.allowance id maxAttempts + 1 := by
  have hread : (g.claim consumer i).read = g.read := rfl
  simp only [allowance, find_claim, hread]
  cases hfind : g.find id with
  | none =>
    refine ⟨Nat.le_refl _, fun p hp _ hid => ?_⟩
    subst hid
    rw [hfind] at hp
    cases hp
  | some p =>
    have hpid := (find_some hfind).2
    simp only [Option.map_some, redeliver, hpid]
    constructor
    · split
      · dsimp only
        omega
      · exact Nat.le_refl _
    · intro q hq hlt hid
      subst hid
      rw [hfind] at hq
      obtain rfl := Option.some.inj hq
      rw [if_pos rfl]
      dsimp only
      omega

/-- An acknowledged entry earns nothing more. -/
theorem allowance_xAck (i maxAttempts : Nat) :
    g.allowance id maxAttempts ≤ (g.xAck i).allowance id maxAttempts := by
  have hread : (g.xAck i).read = g.read := rfl
  simp only [allowance, find_xAck, hread]
  by_cases hid : id = i
  · rw [if_pos hid]
    cases hfind : g.find id with
    | none => exact Nat.le_refl _
    | some p =>
      simp only [if_pos (find_lt hfind)]
      exact Nat.min_le_right _ _
  · rw [if_neg hid]

end Group

/-- The claim of an entry that has been delivered `maxAttempts` times is made from a reply that says
so. -/
def Group.Sees (g : Group) (maxAttempts : Nat) : Call → Prop
  | .xClaim _ minIdle entry => ∀ p, g.find entry.id = some p → minIdle ≤ g.idle p →
      p.retryCount < maxAttempts ∨ maxAttempts ≤ entry.retryCount
  | _ => True

/-- What a call earns is allowed after it. -/
theorem allowance_answer {maxAttempts : Nat} (hmax : 0 < maxAttempts) (g : Group) (id : Nat)
    (c : Call) :
    g.allowance id maxAttempts ≤ (g.answer c).2.allowance id maxAttempts ∧
      (g.Sees maxAttempts c →
        g.allowance id maxAttempts + (handOvers maxAttempts id).earns c (g.answer c).1 ≤
          (g.answer c).2.allowance id maxAttempts) := by
  cases c with
  | ctxErr | xInfoConsumers | xPendingExt | send | xAdd =>
    exact ⟨Nat.le_refl _, fun _ => Nat.le_refl _⟩
  | xAck i =>
    have hle : g.allowance id maxAttempts ≤ (g.xAck i).allowance id maxAttempts :=
      Group.allowance_xAck i maxAttempts
    exact ⟨hle, fun _ => hle⟩
  | xReadGroup consumer count =>
    have hallowance := Group.allowance_xReadGroup g id consumer count hmax
    have hearns : (handOvers maxAttempts id).earns (.xReadGroup consumer count)
        (g.xReadGroup consumer count).1 ≤
        (List.range' g.read (g.fresh count).length).count id := by
      unfold Group.xReadGroup
      dsimp only
      split
      · exact Nat.zero_le _
      · simp only [handOvers, List.countP_map]
        rw [← List.zipIdx_map_snd, List.count, List.countP_map]
        exact Nat.le_of_eq (congrArg (List.countP · _) (funext fun m => by simp; rfl))
    simp only [Group.answer]
    exact ⟨by omega, fun _ => by omega⟩
  | xClaim consumer minIdle entry =>
    obtain ⟨hle, hsucc⟩ := Group.allowance_claim g id consumer entry.id maxAttempts
    simp only [Group.answer, Group.xClaim]
    split
    · rename_i p payload hp _
      split
      · rename_i hidle
        refine ⟨hle, fun hsees => ?_⟩
        simp only [handOvers]
        split
        · rename_i hearn
          rcases hsees p hp hidle with hlt | hlimit
          · rw [hsucc p hp hlt hearn.1]
          · omega
        · exact hle
      · exact ⟨Nat.le_refl _, fun _ => Nat.le_refl _⟩
    · exact ⟨Nat.le_refl _, fun _ => Nat.le_refl _⟩

/-! ## Every run -/

section run

variable {opts : StreamConsumerOptions} {names : Nat → String} {capacity : Nat} {id : Nat}

/-- The bound of the consumers with these options. -/
def StreamConsumerOptions.maxAttempts (opts : StreamConsumerOptions) : Nat :=
  orDefault opts.maxDeliveryAttempts defaultMaxDeliveryAttempts

theorem StreamConsumerOptions.maxAttempts_pos (opts : StreamConsumerOptions) :
    0 < opts.maxAttempts :=
  orDefault_pos (by decide)

/-- What a call of a loop does: it succeeds, it fails, or only its reply is lost. -/
theorem perform_group (id : Nat) {f f' : Fleet} {process : Nat} {c : Call} {reply : Reply}
    {r : c.Reply} (h : f.perform capacity process c reply = some (r, f')) :
    (reply = .ok ∧ r = (f.group.answer c).1 ∧ f'.group = (f.group.answer c).2) ∨
      ((f'.group = f.group ∨ f'.group = (f.group.answer c).2) ∧
        ∀ n, (handOvers n id).earns c r = 0) := by
  cases c with
  | ctxErr =>
    cases h
    exact .inr ⟨.inl rfl, fun _ => rfl⟩
  | send message =>
    simp only [Fleet.perform] at h
    split at h
    · split at h
      · cases h
        exact .inl ⟨rfl, rfl, rfl⟩
      · cases h
    · split at h
      · cases h
        exact .inr ⟨.inl rfl, fun _ => rfl⟩
      · cases h
    · cases h
  | _ =>
    cases reply with
    | ok =>
      cases h
      exact .inl ⟨rfl, rfl, rfl⟩
    | failed =>
      cases h
      exact .inr ⟨.inl rfl, fun _ => rfl⟩
    | lost =>
      cases h
      exact .inr ⟨.inr rfl, fun _ => rfl⟩

/-- What is spent are the hand-overs. -/
theorem spent_eq (maxAttempts : Nat) (es : List FleetEvent) :
    (handOvers maxAttempts id).spent es = placements id es := by
  induction es with
  | nil => rfl
  | cons e es ih =>
    simp only [placements, List.countP_cons] at ih ⊢
    cases e with
    | ambient _ => exact ih
    | called t c r =>
      rw [Account.spent, ih, Nat.add_comm]
      congr 1
      cases c with
      | send message =>
        cases r with
        | false => rfl
        | true => simp [handOvers, placed]
      | _ => rfl

/-- What happens besides the calls takes no allowance away. -/
theorem allowance_ambient {f f' : Fleet} {b : Ambient} {gs : List Settlement} (maxAttempts : Nat)
    (h : f.ambient b = some (f', gs)) :
    f.group.allowance id maxAttempts ≤ f'.group.allowance id maxAttempts := by
  cases b with
  | append payload | wait d | cancel process | restart process =>
    cases h
    exact Nat.le_refl _
  | take process =>
    simp only [Fleet.ambient] at h
    split at h
    · cases h
      exact Nat.le_refl _
    · cases h
  | finish process acked =>
    simp only [Fleet.ambient] at h
    split at h
    · cases h
    · rename_i message _
      split at h
      · cases h
        exact Group.allowance_xAck message.entry maxAttempts
      · cases h
        exact Nat.le_refl _

/-- The credits that are earned are allowed. -/
theorem earned_le {n : Nat} {es : List FleetEvent} {s : FleetState}
    (hr : (fleet opts names capacity).Run (SeesLimit opts.maxAttempts) n es s) :
    (handOvers opts.maxAttempts id).earned es ≤ s.shared.group.allowance id opts.maxAttempts := by
  refine shared_inv (I := fun es f => (handOvers opts.maxAttempts id).earned es ≤
    f.group.allowance id opts.maxAttempts) ?_ ?_ ?_ hr
  · rintro f rfl
    exact Nat.zero_le _
  · intro es s t reply c k r f hle hc hk hf
    rw [Account.earned_called]
    obtain ⟨hmono, hearns⟩ := allowance_answer opts.maxAttempts_pos s.shared.group id c
    rcases perform_group id hf with ⟨rfl, rfl, hgroup⟩ | ⟨hgroup, hzero⟩
    · have hsees : s.shared.group.Sees opts.maxAttempts c := by
        unfold Group.Sees
        split
        · rename_i consumer minIdle entry
          exact fun p => hc t consumer minIdle entry k p rfl hk
        · trivial
      rw [hgroup]
      have := hearns hsees
      omega
    · rw [hzero]
      rcases hgroup with hgroup | hgroup <;> rw [hgroup] <;> omega
  · intro es f b f' gs hle hb
    rw [Account.earned_ambient]
    exact Nat.le_trans hle (allowance_ambient opts.maxAttempts hb)

/-- An entry is handed over at most `maxDeliveryAttempts` times, if every claim of an entry that
has been delivered so often is made from a reply that says so. -/
theorem bounded_redelivery {n : Nat} {es : List FleetEvent} {s : FleetState}
    (hr : (fleet opts names capacity).Run (SeesLimit opts.maxAttempts) n es s) :
    Bounded opts.maxAttempts es := by
  rintro id pre post rfl -
  have hbody : ∀ t, (handOvers opts.maxAttempts id).Solvent 0
      ((loops opts names capacity).body t) := by
    rintro ⟨process, loop⟩
    cases loop with
    | consume =>
      exact solvent_consumeLoop (newStreamConsumerWithOptions (names process) opts) id
    | reclaim =>
      exact solvent_reclaimPending (newStreamConsumerWithOptions (names process) opts) id
  calc placements id pre
      ≤ placements id (pre ++ post) := by
        rw [placements, placements, List.countP_append]
        exact Nat.le_add_right _ _
    _ = (handOvers opts.maxAttempts id).spent (pre ++ post) := (spent_eq _ _).symm
    _ ≤ (handOvers opts.maxAttempts id).earned (pre ++ post) := Account.spent_le_earned hbody hr
    _ ≤ s.shared.group.allowance id opts.maxAttempts := earned_le hr
    _ ≤ opts.maxAttempts := Group.allowance_le _

end run

/-! ### The sample runs -/

/-- The workers with the default options. -/
def sampleNames : Nat → String
  | 0 => "worker-a"
  | 1 => "worker-b"
  | _ => "worker-c"

def sampleFleet : Sys FleetState FleetAct FleetEvent := fleet noOptions sampleNames 100

def idleFleet : FleetState := ⟨newFleet, fun _ => .ret ()⟩

theorem idleFleet_init : sampleFleet.init idleFleet := ⟨rfl, fun _ => rfl⟩

/-- The first calls of a loop. -/
def callsOf (t : Nat × Loop) (calls : Nat) : List FleetAct :=
  .begin t :: List.replicate calls (.call t .ok)

/-- The processor fails, and the entry is left for `reclaimIdle`. -/
def failsAndWaits (process : Nat) : List FleetAct :=
  [.ambient (.take process), .ambient (.finish process false), .ambient (.wait 60000)]

/-- The entry 0 is delivered for the first time. -/
def delivered1 : List FleetAct :=
  .ambient (.append (samplePayload "e1" "mouse" 2)) :: callsOf (0, .consume) 4 ++ failsAndWaits 0

/-- The entry 0 is claimed four times, each time from the other of the workers 0 and 1. -/
def delivered5 : List FleetAct :=
  callsOf (1, .reclaim) 6 ++ failsAndWaits 1 ++ callsOf (0, .reclaim) 7 ++ failsAndWaits 0 ++
    callsOf (1, .reclaim) 7 ++ failsAndWaits 1 ++ callsOf (0, .reclaim) 7 ++ failsAndWaits 0

def checkLimit (s : FleetState) : FleetAct → Bool
  | .call t .ok =>
    match s.programs t with
    | .call (.xClaim _ _ entry) _ =>
      match s.shared.group.find entry.id with
      | some p => decide (p.retryCount < defaultMaxDeliveryAttempts) ||
          decide (defaultMaxDeliveryAttempts ≤ entry.retryCount)
      | none => true
    | _ => true
  | _ => true

theorem seesLimit_of_check (s : FleetState) (a : FleetAct) (h : checkLimit s a = true) :
    SeesLimit noOptions.maxAttempts s a := by
  rintro t consumer minIdle entry k p rfl hk hp -
  have hmax : noOptions.maxAttempts = defaultMaxDeliveryAttempts := rfl
  rw [hmax]
  simpa [checkLimit, hk, hp] using h

/-- The sixth delivery is dead-lettered. -/
theorem bounded_redelivery_five :
    ∃ n es s, sampleFleet.Run (SeesLimit noOptions.maxAttempts) n es s ∧
      placements 0 es = 5 ∧ es.any (settled 0) = true ∧
      Bounded noOptions.maxAttempts es := by
  have hexec : ((sampleFleet.restrict checkLimit).exec idleFleet
      (delivered1 ++ delivered5 ++ callsOf (1, .reclaim) 7)).any
      (fun r => decide (placements 0 r.2 = 5) && r.2.any (settled 0)) = true := by
    decide +kernel
  obtain ⟨s, es, hr, hc⟩ := Sys.exists_checked_run seesLimit_of_check idleFleet_init hexec
  simp only [Bool.and_eq_true, decide_eq_true_eq] at hc
  exact ⟨_, es, s, hr, hc.1, hc.2, bounded_redelivery hr⟩

/-- A worker that has listed the entry after its first delivery claims it after the fifth one: the
entry is handed over for the sixth time. -/
theorem handed_over_six_times :
    ¬ ∀ (opts : StreamConsumerOptions) (names : Nat → String) (capacity n : Nat)
      (es : List FleetEvent) (s : FleetState),
      (fleet opts names capacity).Run Sys.anyStep n es s → Bounded opts.maxAttempts es := by
  intro hall
  have hexec : (sampleFleet.exec idleFleet
      (delivered1 ++ callsOf (2, .reclaim) 3 ++ delivered5 ++
        List.replicate 3 (.call (2, .reclaim) .ok))).any
      (fun r => decide (placements 0 r.2 = 6) && r.2.all fun e => !settled 0 e) = true := by
    decide +kernel
  obtain ⟨s, es, hr, hc⟩ := Sys.exists_any_run idleFleet_init hexec
  simp only [Bool.and_eq_true, decide_eq_true_eq] at hc
  have hle := hall noOptions sampleNames 100 _ es s hr 0 es [] (List.append_nil es).symm
    fun e he => by simpa using List.all_eq_true.mp hc.2 e he
  rw [hc.1] at hle
  exact absurd hle (by decide)

end Rivulet
end AutoSRE

import AutoSRE.Rivulet.Redelivery
import Mathlib.Data.List.Flatten
import Mathlib.Data.List.Forall2

/-!
# A pass of `reclaimPending`

* `pass`: the pass by itself. No command fails and the context is live; time passes before each
  call.
* `Complete`: every entry that was idle for `reclaimIdle` when the pass began is handed over or
  dead-lettered by it, or `batchSize` entries are.
* `reclaim_complete_iff`: the passes are complete if and only if the consumer itself owns no idle
  entry, or at least `batchSize` idle entries have another owner (`OthersOnly`). A pass skips what
  its own consumer owns, so the idle entries of a sole consumer wait forever.
* What a pass handles is the listings of the other owners, one after the other, up to `batchSize`
  entries (`Listed`, `eval_reclaimPending`).
-/

namespace AutoSRE
namespace Rivulet

open Lib

/-- The group, and how much time passes before each of the next calls. -/
structure Alone where
  group : Group
  delays : Nat → Nat

/-- Time passes. -/
def Alone.tick (x : Alone) : Alone := ⟨x.group.wait (x.delays 0), fun n => x.delays (n + 1)⟩

/-- The answer to the calls of a pass by itself. -/
def Alone.answer (c : Call) (x : Alone) : c.Reply × Alone :=
  ((x.tick.group.answer c).1, { x.tick with group := (x.tick.group.answer c).2 })

/-- The calls of a program with their replies. -/
abbrev Calls := List ((c : Call) × c.Reply)

/-- A pass of `reclaimPending` by itself. -/
def pass (sc : StreamConsumer) (g : Group) (delays : Nat → Nat) :
    Prog.Outcome Call.Reply Alone Unit :=
  (reclaimPending sc).eval Alone.answer ⟨g, delays⟩

/-- The entry that a call hands over or dead-letters. -/
def handledId : ((c : Call) × c.Reply) → Option Nat
  | ⟨.send message, true⟩ => some message.entry
  | ⟨.xAdd copy, true⟩ => some copy.original.entry
  | _ => none

def handledIds (calls : Calls) : List Nat := calls.filterMap handledId

@[simp] theorem handledIds_append (xs ys : Calls) :
    handledIds (xs ++ ys) = handledIds xs ++ handledIds ys :=
  List.filterMap_append

/-- The idle entries are handled, up to `batchSize` entries. -/
def Complete (sc : StreamConsumer) (g : Group) (calls : Calls) : Prop :=
  sc.batchSize ≤ (handledIds calls).length ∨
    ∀ p ∈ g.pending, sc.reclaimIdle ≤ g.idle p → p.id ∈ handledIds calls

/-- The idle entries of other consumers. -/
def foreignIdle (sc : StreamConsumer) (g : Group) : List PendingEntry :=
  g.pending.filter fun p => p.owner ≠ sc.consumer ∧ sc.reclaimIdle ≤ g.idle p

/-- The consumer owns no idle entry, or there are enough of other consumers. -/
def OthersOnly (sc : StreamConsumer) (g : Group) : Prop :=
  (∀ p ∈ g.pending, sc.reclaimIdle ≤ g.idle p → p.owner ≠ sc.consumer) ∨
    sc.batchSize ≤ (foreignIdle sc g).length

/-! ## The group -/

/-- A change of elements that a filter leaves out. -/
theorem filter_map_eq {α : Type} {f : α → α} {P : α → Bool} {xs : List α}
    (h : ∀ x ∈ xs, f x = x ∨ (P x = false ∧ P (f x) = false)) :
    (xs.map f).filter P = xs.filter P := by
  induction xs with
  | nil => rfl
  | cons x xs ih =>
    have ih := ih fun y hy => h y (List.mem_cons_of_mem x hy)
    rw [List.map_cons]
    rcases h x List.mem_cons_self with he | ⟨hx, hfx⟩
    · rw [he, List.filter_cons, List.filter_cons, ih]
    · rw [List.filter_cons_of_neg (by simp [hfx]), List.filter_cons_of_neg (by simp [hx]), ih]

namespace Group

variable {g : Group} {consumer owner : String} {id : Nat}

/-- A claim leaves the other owners their entries. -/
theorem owned_claim (h : owner ≠ consumer) (hid : ∀ p, g.find id = some p → p.owner ≠ owner) :
    (g.claim consumer id).owned owner = g.owned owner := by
  refine filter_map_eq fun p hp => ?_
  unfold redeliver
  by_cases he : p.id = id
  · have howner := hid p (he ▸ find_of_mem hp)
    exact .inr ⟨by simp [howner], by simp [he, h.symm]⟩
  · exact .inl (if_neg he)

theorem owned_xAck (hid : ∀ p, g.find id = some p → p.owner ≠ owner) :
    (g.xAck id).owned owner = g.owned owner := by
  change (g.pending.filter _).filter _ = g.pending.filter _
  rw [List.filter_filter]
  refine List.filter_congr fun p hp => ?_
  by_cases he : p.owner = owner
  · have hne : p.id ≠ id := fun h => hid p (h ▸ find_of_mem hp) he
    simp [hne]
  · simp [he]

/-- A claim of an idle entry. -/
theorem xClaim_eq {minIdle : Nat} {p : PendingEntry} (hp : g.find id = some p)
    (hidle : minIdle ≤ g.idle p) :
    ∃ payload, g.xClaim consumer minIdle id = (some ⟨id, payload⟩, g.claim consumer id) := by
  have hlt : id < g.entries.length := Nat.lt_of_lt_of_le (find_lt hp) g.read_le
  refine ⟨g.entries[id], ?_⟩
  unfold xClaim
  rw [hp, List.getElem?_eq_getElem hlt]
  exact if_pos hidle

/-- Who owns the entry after a claim. -/
theorem owner_claim {p : PendingEntry} (hp : (g.claim consumer id).find id = some p) :
    p.owner = consumer := by
  rw [find_claim] at hp
  obtain ⟨q, hq, rfl⟩ := Option.map_eq_some_iff.mp hp
  rw [redeliver, if_pos (find_some hq).2]

theorem find_claim_ne {i : Nat} (h : i ≠ id) : (g.claim consumer id).find i = g.find i := by
  rw [find_claim]
  cases hfind : g.find i with
  | none => rfl
  | some p =>
    have hid := (find_some hfind).2
    rw [Option.map_some, redeliver, if_neg (by omega)]

end Group

/-! ## Time -/

/-- No time passes. -/
def Alone.Still (x : Alone) : Prop := ∀ n, x.delays n = 0

/-- Time goes on, if it does. -/
structure Alone.Later (x y : Alone) : Prop where
  now_le : x.group.now ≤ y.group.now
  still : x.Still → y.Still ∧ y.group.now = x.group.now

theorem Alone.Later.trans {x y z : Alone} (hxy : x.Later y) (hyz : y.Later z) : x.Later z := by
  refine ⟨Nat.le_trans hxy.now_le hyz.now_le, fun h => ?_⟩
  obtain ⟨hy, hnow⟩ := hxy.still h
  obtain ⟨hz, hnow'⟩ := hyz.still hy
  exact ⟨hz, hnow'.trans hnow⟩

theorem Alone.later_tick (x : Alone) : x.Later x.tick := by
  refine ⟨Nat.le_add_right _ _, fun h => ⟨fun n => h (n + 1), ?_⟩⟩
  simp [Alone.tick, Group.wait, h 0]

theorem now_answer (g : Group) (c : Call) : (g.answer c).2.now = g.now := by
  cases c with
  | xClaim consumer minIdle entry =>
    simp only [Group.answer, Group.xClaim]
    split
    · split <;> rfl
    · rfl
  | _ => rfl

theorem Alone.later_answer (c : Call) (x : Alone) : x.Later (Alone.answer c x).2 := by
  have hnow : (Alone.answer c x).2.group.now = x.tick.group.now := now_answer x.tick.group c
  have htick := x.later_tick
  refine ⟨hnow ▸ htick.now_le, fun h => ?_⟩
  obtain ⟨hs, ht⟩ := htick.still h
  exact ⟨hs, hnow.trans ht⟩

theorem later_eval {α : Type} (p : Program α) (x : Alone) :
    x.Later (p.eval Alone.answer x).state := by
  induction p generalizing x with
  | ret a => exact ⟨Nat.le_refl _, fun h => ⟨h, rfl⟩⟩
  | call c k ih => exact (x.later_answer c).trans (ih _ _)

/-! ## One entry -/

section entry

variable {sc : StreamConsumer}

/-- `ctx.Err()`, before one of two programs. -/
theorem eval_ctxErr {α : Type} (p q : Program α) (x : Alone) :
    Prog.eval Alone.answer (do
      if ← call .ctxErr then p
      else q) x =
    ⟨(q.eval Alone.answer x.tick).result, (q.eval Alone.answer x.tick).state,
      ⟨.ctxErr, false⟩ :: (q.eval Alone.answer x.tick).calls⟩ := rfl

/-- The message of an entry of the consumer is handled, and nothing else. -/
structure Processes (sc : StreamConsumer) (id : Nat) (x : Alone)
    (o : Prog.Outcome Call.Reply Alone Unit) : Prop where
  handled : handledIds o.calls = [id]
  find : ∀ i, i ≠ id → o.state.group.find i = x.group.find i
  owned : ∀ owner, owner ≠ sc.consumer → o.state.group.owned owner = x.group.owned owner

theorem eval_failMessage (message : Delivery) (reason : String) {x : Alone}
    (h : ∀ p, x.group.find message.entry = some p → p.owner = sc.consumer) :
    Processes sc message.entry x ((failMessage message reason).eval Alone.answer x) := by
  refine ⟨rfl, fun i hi => ?_, fun owner howner => ?_⟩
  · exact (Group.find_xAck message.entry).trans (if_neg hi)
  · exact Group.owned_xAck fun p hp => h p hp ▸ howner.symm

theorem eval_processMessage (xmsg : XMessage) (n : Nat) {x : Alone}
    (h : ∀ p, x.group.find xmsg.id = some p → p.owner = sc.consumer) :
    Processes sc xmsg.id x
      ((processMessageWithDeliveryCount sc xmsg n).eval Alone.answer x) := by
  unfold processMessageWithDeliveryCount
  cases xmsg.payload with
  | missing | invalidJson => exact eval_failMessage ⟨xmsg.id, _, sc.consumer, max n 1⟩ _ h
  | json v =>
    by_cases hn : sc.maxDeliveryAttempts < max n 1
    · simp only [hn, if_true]
      exact eval_failMessage ⟨xmsg.id, .json v, sc.consumer, max n 1⟩ _ h
    · simp only [hn, if_false]
      exact ⟨rfl, fun _ _ => rfl, fun _ _ => rfl⟩

/-! ## The entries of an owner -/

/-- The entries that `XPENDING` has found: idle entries of the owner. -/
structure Found (sc : StreamConsumer) (owner : String) (entries : List XPendingExt) (g : Group) :
    Prop where
  nodup : (entries.map XPendingExt.id).Nodup
  idle : ∀ entry ∈ entries, ∃ p, g.find entry.id = some p ∧ p.owner = owner ∧
    sc.reclaimIdle ≤ g.idle p

/-- The entries of an owner with these ids are handled up to the batch size. -/
structure Claims (sc : StreamConsumer) (owner : String) (claimed : Nat) (ids : List Nat)
    (x : Alone) (o : Prog.Outcome Call.Reply Alone (Option Nat)) : Prop where
  handled : handledIds o.calls = ids.take (sc.batchSize - claimed)
  result : o.result =
    if claimed + ids.length < sc.batchSize then some (claimed + ids.length) else none
  owned : ∀ other, other ≠ sc.consumer → other ≠ owner →
    o.state.group.owned other = x.group.owned other

/-- The other entries are found after one has been handled. -/
theorem Found.tail {owner : String} {entry : XPendingExt} {entries : List XPendingExt}
    {g g' : Group} (hfound : Found sc owner (entry :: entries) g)
    (hfind : ∀ i, i ≠ entry.id → g'.find i = g.find i) (hnow : g.now ≤ g'.now) :
    Found sc owner entries g' := by
  obtain ⟨hnotin, hnodup⟩ := List.nodup_cons.mp hfound.nodup
  refine ⟨hnodup, fun e he => ?_⟩
  have hne : e.id ≠ entry.id := fun h => hnotin (h ▸ List.mem_map_of_mem he)
  obtain ⟨p, hp, howner, hidle⟩ := hfound.idle e (List.mem_cons_of_mem _ he)
  exact ⟨p, (hfind e.id hne).trans hp, howner,
    Nat.le_trans hidle (Nat.sub_le_sub_right hnow _)⟩

section claim

variable {owner : String} {claimed : Nat} {entry : XPendingExt} {entries : List XPendingExt}
  {payload : Payload} {x : Alone}

/-- The state after the claim of an entry. Time passes for two calls. -/
def Alone.afterClaim (sc : StreamConsumer) (x : Alone) (id : Nat) : Alone :=
  ⟨x.tick.tick.group.claim sc.consumer id, x.tick.tick.delays⟩

/-- What is done with the message of a claimed entry. -/
def processed (sc : StreamConsumer) (x : Alone) (entry : XPendingExt) (payload : Payload) :
    Prog.Outcome Call.Reply Alone Unit :=
  (processMessageWithDeliveryCount sc ⟨entry.id, payload⟩ (entry.retryCount + 1)).eval
    Alone.answer (x.afterClaim sc entry.id)

/-- What is left to do after a claimed entry. -/
def nextEntries (sc : StreamConsumer) (claimed : Nat) (entries : List XPendingExt) :
    Program (Option Nat) :=
  if sc.batchSize ≤ claimed + 1 then return none else reclaimEntries sc (claimed + 1) entries

/-- The claim of an entry succeeds. -/
def ClaimsAs (sc : StreamConsumer) (x : Alone) (entry : XPendingExt) (payload : Payload) : Prop :=
  x.tick.tick.group.xClaim sc.consumer sc.reclaimIdle entry.id =
    (some ⟨entry.id, payload⟩, x.tick.tick.group.claim sc.consumer entry.id)

theorem Alone.later_two (x : Alone) : x.Later x.tick.tick := x.later_tick.trans x.tick.later_tick

theorem Found.claims (hfound : Found sc owner (entry :: entries) x.group) :
    ∃ payload, ClaimsAs sc x entry payload := by
  obtain ⟨p, hp, -, hidle⟩ := hfound.idle entry List.mem_cons_self
  exact Group.xClaim_eq (g := x.tick.tick.group) hp
    (Nat.le_trans hidle (Nat.sub_le_sub_right x.later_two.now_le _))

theorem processes_processed :
    Processes sc entry.id (x.afterClaim sc entry.id) (processed sc x entry payload) :=
  eval_processMessage ⟨entry.id, payload⟩ _ fun _ => Group.owner_claim

/-- The entries of the other owners are as before. -/
theorem owned_processed (hfound : Found sc owner (entry :: entries) x.group) {other : String}
    (hother : other ≠ sc.consumer) (hne : other ≠ owner) :
    (processed sc x entry payload).state.group.owned other = x.group.owned other := by
  obtain ⟨p, hp, hpo, -⟩ := hfound.idle entry List.mem_cons_self
  refine (processes_processed.owned other hother).trans (Group.owned_claim hother fun q hq => ?_)
  obtain rfl := Option.some.inj (hp.symm.trans hq)
  exact hpo ▸ hne.symm

theorem Found.next (hfound : Found sc owner (entry :: entries) x.group) :
    Found sc owner entries (processed sc x entry payload).state.group := by
  refine hfound.tail (fun i hi => ?_) ?_
  · exact (processes_processed.find i hi).trans (Group.find_claim_ne hi)
  · exact Nat.le_trans x.later_two.now_le (later_eval _ (x.afterClaim sc entry.id)).now_le

variable (claimed entries) in
theorem eval_reclaimEntries_cons (hclaim : ClaimsAs sc x entry payload) :
    (reclaimEntries sc claimed (entry :: entries)).eval Alone.answer x =
      ⟨((nextEntries sc claimed entries).eval Alone.answer
          (processed sc x entry payload).state).result,
        ((nextEntries sc claimed entries).eval Alone.answer
          (processed sc x entry payload).state).state,
        ⟨.ctxErr, false⟩ ::
          ⟨.xClaim sc.consumer sc.reclaimIdle entry, some (some ⟨entry.id, payload⟩)⟩ ::
          ((processed sc x entry payload).calls ++
            ((nextEntries sc claimed entries).eval Alone.answer
              (processed sc x entry payload).state).calls)⟩ := by
  have hanswer : Alone.answer (.xClaim sc.consumer sc.reclaimIdle entry) x.tick =
      (some (some ⟨entry.id, payload⟩), x.afterClaim sc entry.id) := by
    unfold ClaimsAs at hclaim
    simp only [Alone.answer, Group.answer, hclaim]
    rfl
  have hcall : (call (.xClaim sc.consumer sc.reclaimIdle entry)).eval Alone.answer x.tick =
      ⟨some (some ⟨entry.id, payload⟩), x.afterClaim sc entry.id,
        [⟨.xClaim sc.consumer sc.reclaimIdle entry, some (some ⟨entry.id, payload⟩)⟩]⟩ := by
    rw [call, Prog.perform, Prog.eval_call, hanswer]
    rfl
  rw [reclaimEntries, eval_ctxErr]
  simp only [Prog.eval_bind, hcall]
  rfl

variable (claimed entries) in
theorem handledIds_reclaimEntries_cons (hclaim : ClaimsAs sc x entry payload) :
    handledIds ((reclaimEntries sc claimed (entry :: entries)).eval Alone.answer x).calls =
      entry.id :: handledIds ((nextEntries sc claimed entries).eval Alone.answer
        (processed sc x entry payload).state).calls := by
  have hhandled : handledIds (processed sc x entry payload).calls = [entry.id] :=
    processes_processed.handled
  rw [eval_reclaimEntries_cons claimed entries hclaim]
  change handledIds ((processed sc x entry payload).calls ++ _) = _
  rw [handledIds_append, hhandled, List.singleton_append]

theorem eval_reclaimEntries (hclaimed : claimed < sc.batchSize)
    (hfound : Found sc owner entries x.group) :
    Claims sc owner claimed (entries.map XPendingExt.id) x
      ((reclaimEntries sc claimed entries).eval Alone.answer x) := by
  induction entries generalizing claimed x with
  | nil =>
    refine ⟨List.take_nil.symm, ?_, fun _ _ _ => rfl⟩
    rw [List.map_nil, List.length_nil, Nat.add_zero, if_pos hclaimed]
    rfl
  | cons entry entries ih =>
    obtain ⟨payload, hclaim⟩ := hfound.claims
    have heval := eval_reclaimEntries_cons claimed entries hclaim
    have hhandled := handledIds_reclaimEntries_cons claimed entries hclaim
    by_cases hfull : sc.batchSize ≤ claimed + 1
    · have hnext : nextEntries sc claimed entries = .ret none := if_pos hfull
      have hone : sc.batchSize - claimed = 1 := by omega
      refine ⟨?_, ?_, ?_⟩
      · rw [hhandled, hnext, hone, List.map_cons, List.take_succ_cons, List.take_zero]
        rfl
      · rw [heval, hnext, List.map_cons, List.length_cons, if_neg (by omega)]
        rfl
      · rw [heval, hnext]
        exact fun _ => owned_processed hfound
    · have hnext : nextEntries sc claimed entries = reclaimEntries sc (claimed + 1) entries :=
        if_neg hfull
      have hlt : claimed + 1 < sc.batchSize := by omega
      obtain ⟨hhandled', hresult', howned'⟩ := ih hlt hfound.next
      rw [← hnext] at hhandled' hresult' howned'
      refine ⟨?_, ?_, ?_⟩
      · have hsucc : sc.batchSize - claimed = sc.batchSize - (claimed + 1) + 1 := by omega
        rw [hhandled, hhandled', hsucc, List.map_cons, List.take_succ_cons]
      · rw [heval, List.map_cons, List.length_cons, hresult', Nat.add_right_comm, ← Nat.add_assoc]
      · rw [heval]
        exact fun other hother hne =>
          (howned' other hother hne).trans (owned_processed hfound hother hne)

end claim

/-! ## The owners -/

/-- The ids of the idle entries of an owner. -/
def idleIds (sc : StreamConsumer) (g : Group) (owner : String) : List Nat :=
  (g.idleOf owner sc.reclaimIdle).map PendingEntry.id

/-- What the pass that began at `x` finds of an owner: what was idle then, and what has become idle
since. -/
structure Listed (sc : StreamConsumer) (x : Alone) (owner : String) (ids : List Nat) : Prop where
  idle : (idleIds sc x.group owner).Sublist ids
  still : x.Still → ids = idleIds sc x.group owner

/-- The owners whose entries a pass claims. -/
def foreignOwners (sc : StreamConsumer) (owners : List XInfoConsumer) : List String :=
  (owners.map XInfoConsumer.name).filter (· ≠ sc.consumer)

theorem foreignOwners_cons {owner : XInfoConsumer} (h : owner.name ≠ sc.consumer)
    (owners : List XInfoConsumer) :
    foreignOwners sc (owner :: owners) = owner.name :: foreignOwners sc owners := by
  simp [foreignOwners, h]

theorem listed_idleIds (sc : StreamConsumer) (x : Alone) (owners : List String) :
    List.Forall₂ (Listed sc x) owners (owners.map (idleIds sc x.group)) :=
  List.forall₂_map_right_iff.mpr
    (List.forall₂_same.mpr fun _ _ => ⟨List.Sublist.refl _, fun _ => rfl⟩)

/-- The listing of an owner whose entries are as they were when the pass began. -/
theorem listed_later {x y : Alone} {owner : String} (hlater : x.Later y)
    (howned : y.group.owned owner = x.group.owned owner) :
    Listed sc x owner (idleIds sc y.group owner) := by
  unfold idleIds Group.idleOf
  rw [howned]
  constructor
  · refine (List.monotone_filter_right _ fun p hp => ?_).map _
    simp only [decide_eq_true_eq] at hp ⊢
    exact Nat.le_trans hp (Nat.sub_le_sub_right hlater.now_le _)
  · intro h
    have hnow := (hlater.still h).2
    simp only [idleIds, Group.idleOf, Group.idle, hnow]
    rfl

theorem ids_xPendingExt (g : Group) (owner : String) (count : Nat) :
    (g.xPendingExt owner sc.reclaimIdle count).map XPendingExt.id =
      (idleIds sc g owner).take count := by
  rw [Group.xPendingExt, List.map_map, idleIds, ← List.map_take]
  rfl

variable (sc) in
theorem found_xPendingExt (g : Group) (owner : String) (count : Nat) :
    Found sc owner (g.xPendingExt owner sc.reclaimIdle count) g := by
  have hsub : ((g.idleOf owner sc.reclaimIdle).take count).Sublist g.pending :=
    (List.take_sublist _ _).trans (List.filter_sublist.trans List.filter_sublist)
  constructor
  · rw [ids_xPendingExt, idleIds, ← List.map_take]
    exact Group.nodup_ids.sublist (hsub.map _)
  · intro entry hentry
    obtain ⟨p, hp, rfl⟩ := List.mem_map.mp hentry
    obtain ⟨howned, hidle⟩ := List.mem_filter.mp (List.mem_of_mem_take hp)
    have howner := (List.mem_filter.mp howned).2
    exact ⟨p, Group.find_of_mem (hsub.subset hp), by simpa using howner, by simpa using hidle⟩

/-- A listing that stops at the batch size. -/
theorem Claims.of_take {owner : String} {claimed : Nat} {ids : List Nat} {x : Alone}
    {o : Prog.Outcome Call.Reply Alone (Option Nat)}
    (h : Claims sc owner claimed (ids.take (sc.batchSize - claimed)) x o) :
    Claims sc owner claimed ids x o := by
  obtain ⟨hhandled, hresult, howned⟩ := h
  refine ⟨?_, ?_, howned⟩
  · rw [hhandled, List.take_take, Nat.min_self]
  · rw [hresult, List.length_take]
    by_cases hlt : claimed + ids.length < sc.batchSize
    · rw [Nat.min_eq_right (by omega)]
    · rw [if_neg hlt, if_neg (by omega)]

variable (sc) in
/-- The idle entries of an owner are handled. -/
theorem eval_reclaimOwner (owner : String) {claimed : Nat} (x : Alone)
    (hclaimed : claimed < sc.batchSize) :
    Claims sc owner claimed (idleIds sc x.tick.group owner) x
      ((reclaimOwner sc claimed owner).eval Alone.answer x) := by
  have hfound := found_xPendingExt sc x.tick.group owner (sc.batchSize - claimed)
  obtain ⟨hhandled, hresult, howned⟩ := eval_reclaimEntries (x := x.tick) hclaimed hfound
  rw [ids_xPendingExt] at hhandled hresult
  exact Claims.of_take ⟨hhandled, hresult, howned⟩

/-- What is known of an owner until the pass comes to it. -/
def Untouched (sc : StreamConsumer) (x y : Alone) (owner : XInfoConsumer) : Prop :=
  owner.name ≠ sc.consumer → y.group.owned owner.name = x.group.owned owner.name ∧
    owner.pending = (x.group.owned owner.name).length

theorem eval_reclaimOwners {x y : Alone} {owners : List XInfoConsumer} (claimed : Nat)
    (hlater : x.Later y) (hnodup : (owners.map XInfoConsumer.name).Nodup)
    (howners : ∀ owner ∈ owners, Untouched sc x y owner) :
    ∃ lists, List.Forall₂ (Listed sc x) (foreignOwners sc owners) lists ∧
      handledIds ((reclaimOwners sc claimed owners).eval Alone.answer y).calls =
        lists.flatten.take (sc.batchSize - claimed) := by
  induction owners generalizing claimed y with
  | nil => exact ⟨[], .nil, List.take_nil.symm⟩
  | cons owner owners ih =>
    obtain ⟨hnotin, hnodup'⟩ := List.nodup_cons.mp hnodup
    have htick : x.Later y.tick := hlater.trans y.later_tick
    have hrest : ∀ other ∈ owners, Untouched sc x y other := fun other hother =>
      howners other (List.mem_cons_of_mem _ hother)
    rw [reclaimOwners, eval_ctxErr]
    by_cases hskip : owner.name = sc.consumer ∨ owner.pending = 0
    · rw [if_pos hskip]
      obtain ⟨lists, hlists, hhandled⟩ := ih claimed htick hnodup' hrest
      by_cases hown : owner.name = sc.consumer
      · refine ⟨lists, ?_, hhandled⟩
        simpa [foreignOwners, hown] using hlists
      · -- The owner has no entry.
        obtain ⟨-, hpending⟩ := howners owner List.mem_cons_self hown
        have hnil : idleIds sc x.group owner.name = [] := by
          have hzero := hskip.resolve_left hown
          rw [hpending] at hzero
          simp [idleIds, Group.idleOf, List.eq_nil_of_length_eq_zero hzero]
        refine ⟨[] :: lists, ?_, hhandled⟩
        rw [foreignOwners_cons hown]
        exact .cons ⟨hnil ▸ List.Sublist.refl _, fun _ => hnil.symm⟩ hlists
    · rw [if_neg hskip]
      by_cases hfull : sc.batchSize ≤ claimed
      · rw [if_pos hfull]
        refine ⟨_, listed_idleIds sc x _, ?_⟩
        rw [Nat.sub_eq_zero_of_le hfull, List.take_zero]
        rfl
      · have hown : owner.name ≠ sc.consumer := fun h => hskip (.inl h)
        have hlisted : Listed sc x owner.name (idleIds sc y.tick.tick.group owner.name) :=
          listed_later (htick.trans y.tick.later_tick) (howners owner List.mem_cons_self hown).1
        have hlater' := htick.trans (later_eval (reclaimOwner sc claimed owner.name) y.tick)
        obtain ⟨hhandled, hresult, howned⟩ :=
          eval_reclaimOwner sc owner.name y.tick (Nat.not_le.mp hfull)
        rw [if_neg hfull, Prog.eval_bind, foreignOwners_cons hown]
        generalize (reclaimOwner sc claimed owner.name).eval Alone.answer y.tick = o at *
        generalize idleIds sc y.tick.tick.group owner.name = ids at *
        by_cases hmore : claimed + ids.length < sc.batchSize
        · rw [if_pos hmore] at hresult
          have huntouched : ∀ other ∈ owners, Untouched sc x o.state other := by
            intro other hother hne
            have hname : other.name ≠ owner.name :=
              fun h => hnotin (h ▸ List.mem_map_of_mem hother)
            obtain ⟨hsame, hpending⟩ := hrest other hother hne
            exact ⟨(howned _ hne hname).trans hsame, hpending⟩
          obtain ⟨lists, hlists, hhandled'⟩ := ih (claimed + ids.length) hlater' hnodup' huntouched
          refine ⟨ids :: lists, .cons hlisted hlists, ?_⟩
          simp only [hresult]
          change handledIds (o.calls ++ _) = _
          rw [handledIds_append, hhandled, hhandled', List.flatten_cons, List.take_append]
          congr 2
          omega
        · rw [if_neg hmore] at hresult
          refine ⟨ids :: _, .cons hlisted (listed_idleIds sc x _), ?_⟩
          simp only [hresult]
          change handledIds (o.calls ++ []) = _
          rw [List.append_nil, hhandled, List.flatten_cons, List.take_append_of_le_length]
          omega

/-- A pass handles the listings of the other owners, up to the batch size. -/
theorem eval_reclaimPending (sc : StreamConsumer) (g : Group) (delays : Nat → Nat) :
    ∃ lists, List.Forall₂ (Listed sc ⟨g, delays⟩) (foreignOwners sc g.xInfoConsumers) lists ∧
      handledIds (pass sc g delays).calls = lists.flatten.take sc.batchSize := by
  have hnames : g.xInfoConsumers.map XInfoConsumer.name = g.consumers := by
    rw [Group.xInfoConsumers, List.map_map]
    exact List.map_id _
  refine eval_reclaimOwners (x := ⟨g, delays⟩) 0 (Alone.later_tick _) (hnames ▸ g.named) ?_
  intro owner howner _
  obtain ⟨name, -, rfl⟩ := List.mem_map.mp howner
  exact ⟨rfl, rfl⟩

end entry

/-! ## Completeness -/

/-- The elements that satisfy one of two predicates that exclude each other. -/
theorem filter_or_perm {α : Type} {P Q : α → Bool} (h : ∀ x, P x = true → Q x = false)
    (xs : List α) : (xs.filter P ++ xs.filter Q).Perm (xs.filter fun x => P x || Q x) := by
  induction xs with
  | nil => exact .nil
  | cons x xs ih =>
    cases hp : P x with
    | true =>
      rw [List.filter_cons_of_pos hp, List.filter_cons_of_neg (by simp [h x hp]),
        List.filter_cons_of_pos (by simp [hp])]
      exact ih.cons x
    | false =>
      rw [List.filter_cons_of_neg (by simp [hp])]
      cases hq : Q x with
      | true =>
        rw [List.filter_cons_of_pos hq, List.filter_cons_of_pos (by simp [hq])]
        exact List.perm_middle.trans (ih.cons x)
      | false =>
        rw [List.filter_cons_of_neg (by simp [hq]), List.filter_cons_of_neg (by simp [hp, hq])]
        exact ih

/-- The elements with one of some keys, key by key. -/
theorem flatMap_filter_perm {α : Type} (key : α → String) {names : List String}
    (h : names.Nodup) (xs : List α) :
    (names.flatMap fun name => xs.filter (key · = name)).Perm (xs.filter (key · ∈ names)) := by
  induction names with
  | nil => simp
  | cons name names ih =>
    obtain ⟨hnotin, hnodup⟩ := List.nodup_cons.mp h
    have hor := filter_or_perm (P := fun x => key x = name) (Q := fun x => key x ∈ names)
      (fun x hx => by simp only [decide_eq_true_eq] at hx; simp [hx, hnotin]) xs
    rw [List.flatMap_cons]
    refine ((ih hnodup).append_left _).trans (hor.trans (List.Perm.of_eq ?_))
    refine List.filter_congr fun x _ => ?_
    simp

section complete

variable {sc : StreamConsumer} {g : Group}

/-- The ids of the idle entries of other consumers, owner by owner. -/
theorem foreignIds_perm (sc : StreamConsumer) (g : Group) :
    ((foreignOwners sc g.xInfoConsumers).flatMap (idleIds sc g)).Perm
      ((foreignIdle sc g).map PendingEntry.id) := by
  have hnames : foreignOwners sc g.xInfoConsumers = g.consumers.filter (· ≠ sc.consumer) := by
    rw [foreignOwners, Group.xInfoConsumers, List.map_map]
    exact congrArg _ (List.map_id _)
  have hidle : ∀ name, g.idleOf name sc.reclaimIdle =
      (g.pending.filter (sc.reclaimIdle ≤ g.idle ·)).filter (·.owner = name) := by
    intro name
    rw [Group.idleOf, Group.owned, List.filter_filter, List.filter_filter]
    exact List.filter_congr fun _ _ => Bool.and_comm _ _
  have hperm : ((g.consumers.filter (· ≠ sc.consumer)).flatMap fun name =>
      g.idleOf name sc.reclaimIdle).Perm ((g.pending.filter (sc.reclaimIdle ≤ g.idle ·)).filter
        (·.owner ∈ g.consumers.filter (· ≠ sc.consumer))) := by
    simp only [hidle]
    exact flatMap_filter_perm PendingEntry.owner (g.named.filter _) _
  rw [hnames]
  change (List.flatMap (fun name => (g.idleOf name sc.reclaimIdle).map PendingEntry.id) _).Perm _
  rw [← List.map_flatMap]
  refine (hperm.trans (List.Perm.of_eq ?_)).map _
  rw [List.filter_filter, foreignIdle]
  refine List.filter_congr fun p hp => ?_
  simp [g.known p hp]

theorem idle_sublist {x : Alone} {owners : List String} {lists : List (List Nat)}
    (h : List.Forall₂ (Listed sc x) owners lists) :
    (owners.flatMap (idleIds sc x.group)).Sublist lists.flatten := by
  induction h with
  | nil => exact List.Sublist.refl _
  | cons hlisted _ ih => exact hlisted.idle.append ih

theorem idle_still {x : Alone} {owners : List String} {lists : List (List Nat)}
    (h : List.Forall₂ (Listed sc x) owners lists) (hx : x.Still) :
    lists.flatten = owners.flatMap (idleIds sc x.group) := by
  induction h with
  | nil => rfl
  | cons hlisted _ ih => rw [List.flatten_cons, List.flatMap_cons, hlisted.still hx, ih]

/-- The passes handle the idle entries, up to `batchSize`, if and only if the consumer owns no idle
entry or at least `batchSize` idle entries have another owner. -/
theorem reclaim_complete_iff (sc : StreamConsumer) (g : Group) :
    (∀ delays, Complete sc g (pass sc g delays).calls) ↔ OthersOnly sc g := by
  have hperm := foreignIds_perm sc g
  constructor
  · intro hall
    obtain ⟨lists, hlists, hhandled⟩ := eval_reclaimPending sc g fun _ => 0
    have hstill : lists.flatten = (foreignOwners sc g.xInfoConsumers).flatMap (idleIds sc g) :=
      idle_still hlists fun _ => rfl
    rw [hstill] at hhandled
    refine Classical.or_iff_not_imp_right.mpr fun hfew p hp hidle howner => ?_
    have hlength := hperm.length_eq
    rw [List.length_map] at hlength
    rcases hall fun _ => 0 with hfull | hmem
    · rw [hhandled, List.length_take] at hfull
      omega
    · -- The entry that the consumer owns is not one of the others.
      have hid := hmem p hp hidle
      rw [hhandled] at hid
      obtain ⟨q, hq, hqid⟩ := List.mem_map.mp (hperm.subset (List.mem_of_mem_take hid))
      obtain ⟨hqmem, hqforeign⟩ := List.mem_filter.mp hq
      obtain rfl := List.inj_on_of_nodup_map Group.nodup_ids hqmem hp hqid
      simp [howner] at hqforeign
  · intro h delays
    obtain ⟨lists, hlists, hhandled⟩ := eval_reclaimPending sc g delays
    have hsub : ((foreignOwners sc g.xInfoConsumers).flatMap (idleIds sc g)).Sublist
        lists.flatten := idle_sublist hlists
    unfold Complete
    rw [hhandled]
    by_cases hfull : sc.batchSize ≤ lists.flatten.length
    · exact .inl (by rw [List.length_take]; omega)
    rw [List.take_of_length_le (by omega)]
    rcases h with hothers | hmany
    · refine .inr fun p hp hidle => hsub.subset (hperm.symm.subset (List.mem_map_of_mem ?_))
      exact List.mem_filter.mpr ⟨hp, by simp [hothers p hp hidle, hidle]⟩
    · have hlength := hperm.length_eq
      have hle := hsub.length_le
      rw [List.length_map] at hlength
      omega

/-- A pass of the only consumer handles nothing. -/
theorem handled_sole_consumer (sc : StreamConsumer) (g : Group)
    (h : ∀ name ∈ g.consumers, name = sc.consumer) (delays : Nat → Nat) :
    handledIds (pass sc g delays).calls = [] := by
  obtain ⟨lists, hlists, hhandled⟩ := eval_reclaimPending sc g delays
  have hnone : foreignOwners sc g.xInfoConsumers = [] := by
    refine List.filter_eq_nil_iff.mpr fun name hname => ?_
    obtain ⟨_, howner, rfl⟩ := List.mem_map.mp hname
    obtain ⟨name, hmem, rfl⟩ := List.mem_map.mp howner
    simpa using h name hmem
  rw [hnone] at hlists
  cases hlists
  rw [hhandled]
  exact List.take_nil

end complete

/-! ## A pass in the fleet -/

section fleet

variable {opts : StreamConsumerOptions} {names : Nat → String} {capacity process : Nat}

/-- The process is live, and its processor waits for a message. -/
structure Waits (f : Fleet) (process : Nat) : Prop where
  live : f.cancelled process = false
  channel : f.channel process = []
  current : f.current process = none

variable (capacity) in
/-- A call that succeeds, without the hand-over. -/
theorem perform_answer {f : Fleet} (h : Waits f process) {c : Call} (hc : ∀ m, c ≠ .send m) :
    f.perform capacity process c .ok =
      some ((f.group.answer c).1, f.setGroup (f.group.answer c).2) := by
  cases c with
  | ctxErr =>
    simp only [Fleet.perform, h.live]
    rfl
  | send m => exact absurd rfl (hc m)
  | _ => rfl

/-- Time passes. -/
def Fleet.later (f : Fleet) (d : Nat) : Fleet := f.setGroup (f.group.wait d)

theorem Waits.later {f : Fleet} (h : Waits f process) (d : Nat) : Waits (f.later d) process :=
  ⟨h.live, h.channel, h.current⟩

/-- Time passes, and a call of a loop succeeds. -/
theorem exec_call {t : Nat × Loop} {c : Call} {k : c.Reply → Program Unit} {r : c.Reply}
    {s s' : FleetState} {f : Fleet} {d : Nat} {as : List FleetAct} {es : List FleetEvent}
    (hp : s.programs t = .call c k)
    (hf : (s.shared.later d).perform capacity t.1 c .ok = some (r, f))
    (h : (fleet opts names capacity).exec ({ s with shared := f }.goto t (k r)) as =
      some (s', es)) :
    (fleet opts names capacity).exec s (.ambient (.wait d) :: .call t .ok :: as) =
      some (s', .called t c r :: es) := by
  have hwait : (fleet opts names capacity).step s (.ambient (.wait d)) =
      some ({ s with shared := s.shared.later d }, []) := rfl
  have hcall : (fleet opts names capacity).step { s with shared := s.shared.later d }
      (.call t .ok) = some ({ s with shared := f }.goto t (k r), [.called t c r]) := by
    simp only [fleet, threads, Shared.step, hp]
    exact congrArg (Option.map _) hf
  simp only [Sys.exec, hwait, hcall, h]
  rfl

/-- A loop has handed its message over. -/
def Fleet.sent (f : Fleet) (process : Nat) (message : Delivery) : Fleet :=
  { f with channel := update f.channel process [message] }

/-- The processor has taken its message. -/
def Fleet.taken (f : Fleet) (process : Nat) (message : Delivery) : Fleet :=
  { f with
    channel := update f.channel process []
    current := update f.current process (some message) }

/-- The processor has taken its message, and has failed. -/
def Fleet.drop (f : Fleet) (process : Nat) (message : Delivery) : Fleet :=
  { f with
    channel := update f.channel process []
    current := update (update f.current process (some message)) process none }

theorem perform_send {f : Fleet} (h : Waits f process) (hcapacity : 0 < capacity)
    (message : Delivery) :
    f.perform capacity process (.send message) .ok = some (true, f.sent process message) := by
  simp only [Fleet.perform, h.channel, List.length_nil, hcapacity, if_true, List.nil_append]
  rfl

theorem ambient_take {f : Fleet} {message : Delivery} (hchannel : f.channel process = [message])
    (hcurrent : f.current process = none) :
    f.ambient (.take process) = some (f.taken process message, []) := by
  simp only [Fleet.ambient, hchannel, hcurrent]
  rfl

theorem ambient_finish (f : Fleet) (message : Delivery) :
    (f.taken process message).ambient (.finish process false) =
      some (f.drop process message, []) := by
  have hcurrent : (f.taken process message).current process = some message := update_self _ _ _
  simp only [Fleet.ambient, hcurrent]
  rfl

theorem waits_drop {f : Fleet} (h : f.cancelled process = false) (message : Delivery) :
    Waits (f.drop process message) process :=
  ⟨h, update_self _ _ _, update_self _ _ _⟩

theorem exec_drop {s s' : FleetState} {message : Delivery} {as : List FleetAct}
    {es : List FleetEvent} (hchannel : s.shared.channel process = [message])
    (hcurrent : s.shared.current process = none)
    (h : (fleet opts names capacity).exec { s with shared := s.shared.drop process message } as =
      some (s', es)) :
    (fleet opts names capacity).exec s
      (.ambient (.take process) :: .ambient (.finish process false) :: as) = some (s', es) := by
  have htake : (fleet opts names capacity).step s (.ambient (.take process)) =
      some ({ s with shared := s.shared.taken process message }, []) :=
    congrArg (Option.map _) (ambient_take hchannel hcurrent)
  have hfinish : (fleet opts names capacity).step
      { s with shared := s.shared.taken process message } (.ambient (.finish process false)) =
      some ({ s with shared := s.shared.drop process message }, []) :=
    congrArg (Option.map _) (ambient_finish s.shared message)
  simp only [Sys.exec, htake, hfinish, h]
  rfl

variable (opts names) in
/-- What a loop does by itself is a run of the fleet in which no other loop takes a step. -/
theorem eval_exec (hcapacity : 0 < capacity) (t : Nat × Loop) (p : Program Unit) {x : Alone}
    {s : FleetState} (hg : s.shared.group = x.group) (hs : Waits s.shared t.1)
    (hp : s.programs t = p) :
    ∃ as s' es, (fleet opts names capacity).exec s as = some (s', es) ∧
      s'.shared.group = (p.eval Alone.answer x).state.group ∧
      es = (p.eval Alone.answer x).calls.map fun c => .called t c.1 c.2 := by
  induction p generalizing x s with
  | ret a => exact ⟨[], s, [], rfl, hg, rfl⟩
  | call c k ih =>
    have hwaits : Waits (s.shared.later (x.delays 0)) t.1 := hs.later _
    have hgroup : (s.shared.later (x.delays 0)).group = x.tick.group :=
      congrArg (·.wait (x.delays 0)) hg
    have hreply : ((s.shared.later (x.delays 0)).group.answer c).1 = (Alone.answer c x).1 := by
      rw [hgroup]
      rfl
    have hstate : ((s.shared.later (x.delays 0)).group.answer c).2 =
        (Alone.answer c x).2.group := by
      rw [hgroup]
      rfl
    by_cases hc : ∀ m, c ≠ .send m
    · have hf := perform_answer capacity hwaits hc
      rw [hreply, hstate] at hf
      obtain ⟨as, s', es, hexec, hend, rfl⟩ := ih (Alone.answer c x).1
        (x := (Alone.answer c x).2)
        (s := { s with
          shared := (s.shared.later (x.delays 0)).setGroup (Alone.answer c x).2.group }.goto t
            (k (Alone.answer c x).1))
        rfl ⟨hs.live, hs.channel, hs.current⟩ (by simp [Threaded.goto])
      exact ⟨_, s', _, exec_call hp hf hexec, hend, rfl⟩
    · -- The processor takes the message, and fails.
      obtain ⟨m, rfl⟩ : ∃ m, c = .send m := by
        simpa using hc
      have hf := perform_send hwaits hcapacity m
      obtain ⟨as, s', es, hexec, hend, rfl⟩ := ih true (x := (Alone.answer (.send m) x).2)
        (s := { s with
          shared := ((s.shared.later (x.delays 0)).sent t.1 m).drop t.1 m }.goto t (k true))
        hstate (waits_drop (f := (s.shared.later (x.delays 0)).sent t.1 m) hwaits.live m)
        (by simp [Threaded.goto])
      exact ⟨_, s', _, exec_call hp hf (exec_drop (update_self _ _ _) hwaits.current hexec), hend,
        rfl⟩

/-- A pass is a run of the fleet from the start of the loop. -/
theorem pass_exec (hcapacity : 0 < capacity) {s : FleetState} (hs : Waits s.shared process)
    (hp : s.programs (process, .reclaim) = .ret ()) (delays : Nat → Nat) :
    ∃ as s' es, (fleet opts names capacity).exec s as = some (s', es) ∧
      es = (pass (newStreamConsumerWithOptions (names process) opts) s.shared.group
        delays).calls.map fun c => .called (process, .reclaim) c.1 c.2 := by
  have hbegin : (fleet opts names capacity).step s (.begin (process, .reclaim)) =
      some (s.goto (process, .reclaim)
        (reclaimPending (newStreamConsumerWithOptions (names process) opts)), []) := by
    simp only [fleet, threads, Shared.step, hp]
    rfl
  obtain ⟨as, s', es, hexec, -, hes⟩ := eval_exec opts names hcapacity (process, .reclaim)
    (reclaimPending (newStreamConsumerWithOptions (names process) opts))
    (x := ⟨s.shared.group, delays⟩)
    (s := s.goto (process, .reclaim)
      (reclaimPending (newStreamConsumerWithOptions (names process) opts))) rfl hs
    (by simp [Threaded.goto])
  refine ⟨.begin (process, .reclaim) :: as, s', es, ?_, hes⟩
  simp only [Sys.exec, hbegin, hexec]
  rfl

end fleet

/-! ### The only consumer -/

/-- The only consumer of the group has failed to process its message, a minute ago. -/
def sampleGroup : Group :=
  ((emptyGroup.append (samplePayload "e1" "mouse" 2)).xReadGroup "worker-a"
    defaultBatchSize).2.wait defaultReclaimIdle

/-- A pass of the only consumer leaves its idle entry alone. -/
theorem sole_consumer_not_complete :
    ¬ ∀ (sc : StreamConsumer) (g : Group) (delays : Nat → Nat),
      Complete sc g (pass sc g delays).calls := by
  intro hall
  have hhandled := handled_sole_consumer (newStreamConsumer "worker-a") sampleGroup (by decide)
    fun _ => 0
  have hidle : ∃ p ∈ sampleGroup.pending, defaultReclaimIdle ≤ sampleGroup.idle p :=
    ⟨⟨0, "worker-a", 0, 1⟩, List.mem_singleton_self _, by decide⟩
  obtain ⟨p, hp, hidle⟩ := hidle
  rcases hall (newStreamConsumer "worker-a") sampleGroup fun _ => 0 with hfull | hmem
  · rw [hhandled] at hfull
    exact absurd hfull (by decide)
  · have hid := hmem p hp hidle
    rw [hhandled] at hid
    cases hid

end Rivulet
end AutoSRE

import AutoSRE.Lib.Context
import AutoSRE.Rivulet.ExactlyOnce

/-!
# The shutdown of a worker process (`cmd/worker/main.go`)

One process of the consumer group, in the world of all of them (`drain_worker`).

* The consumer's loops hand the messages that they have received to the processor's loop, through a
  channel; the processor takes one after the other. `run` waits for the signal, cancels the
  consumer, waits for the processor, and cancels it after the drain timeout.
* A message has a context that is made from the consumer's (`processCtx`): a command of the
  processor uses it, and does not succeed when it is cancelled.
* `Drained`: no command of a message that was in hand at the signal is cut off by the cancellation
  of the consumer. It holds when none of these messages is in hand any more when the consumer is
  cancelled (`HandsEmpty`, `drained`), and fails otherwise (`in_hand_cut_off`).
-/

namespace AutoSRE
namespace Rivulet

open Lib

/-! ## Contexts -/

/-- The cancel functions of `run`. -/
inductive Cancel where
  | consumerCancel
  | processorCancel
  deriving DecidableEq

/-- Who calls a cancel function. -/
inductive Caller where
  /-- The chaos endpoint `pause-consumer`. -/
  | pauseConsumer
  /-- `run`, at the shutdown. -/
  | shutdown
  /-- `run`, after the drain timeout. -/
  | drainTimeout
  deriving DecidableEq

/-- The propagator and the tracer. The contexts that they make are cancelled with the given one,
and only with it. -/
structure Telemetry where
  extract : Context Cancel → Context Cancel
  start : Context Cancel → Context Cancel
  extract_transparent : Context.Transparent extract
  start_transparent : Context.Transparent start

/-- `consumerCtx`. -/
def consumerCtx : Context Cancel := .withCancel .background .consumerCancel

/-- The `TraceCtx` of a message (`processMessageWithDeliveryCount`). -/
def Telemetry.traceCtx (t : Telemetry) : Context Cancel := t.start (t.extract consumerCtx)

/-- The context of `process`. -/
def Telemetry.processCtx (t : Telemetry) : Context Cancel := t.start t.traceCtx

/-- The context of `process` is cancelled by `consumerCancel`, and by nothing else. -/
theorem processCtx_cause (t : Telemetry) (called : Cancel → Option Caller) :
    t.processCtx.cause called = called .consumerCancel := by
  rw [Telemetry.processCtx, t.start_transparent.cause, Telemetry.traceCtx,
    t.start_transparent.cause, t.extract_transparent.cause]
  exact Context.cause_withCancel_background called .consumerCancel

/-! ## The process -/

/-- Where `run` is. -/
inductive MainStage where
  | running
  /-- The signal has arrived; `consumerCancel` is next. -/
  | signalled
  /-- It waits for the processor. -/
  | draining
  /-- The drain has timed out, and `processorCancel` is called. -/
  | stopping
  | exited
  deriving DecidableEq

/-- The capacity of `msgChan`. -/
def channelCapacity : Nat := 100

structure Process where
  world : World
  /-- The deliveries that the loops of the consumer have received and not handed on. -/
  received : List Nat
  /-- `msgChan`. -/
  channel : List Nat
  /-- The delivery that the processor works on. -/
  current : Option Nat
  /-- The processor's loop has ended. -/
  stopped : Bool
  /-- Who has called a cancel function first. -/
  called : Cancel → Option Caller
  main : MainStage
  /-- The messages that were in the channel or in the processor when the signal arrived. -/
  inHand : List Nat

inductive DrainEvent where
  | world (e : Event)
  | signalled (inHand : List Nat)
  /-- A command of the processor for a message, and who has cancelled its context. -/
  | command (d : Nat) (cause : Option Caller)

inductive DrainLabel where
  /-- A step of the producers or of the other processes. -/
  | other (a : Label)
  /-- A loop of the consumer receives a message, by `XREADGROUP` or `XCLAIM`. -/
  | receive (a : Label)
  /-- A loop of the consumer checks a message, or dead-letters it. -/
  | consume (d : Nat) (reply : Reply)
  | hand (d : Nat)
  /-- A loop of the consumer ends, and with it what it has not handed on. -/
  | drop (d : Nat)
  | take
  /-- The next step of `process`. -/
  | process (reply : Reply)
  /-- The processor's loop ends. -/
  | stop
  | pauseConsumer
  | signal
  | cancelConsumer
  | drainTimeout
  | exit
  /-- What a message has begun ends with the process. -/
  | lose (d : Nat)

/-- The deliveries of the process. -/
def Process.own (p : Process) : List Nat := p.received ++ p.channel ++ p.current.toList

/-- A label of another delivery, or of none. -/
def Label.avoids (own : List Nat) : Label → Bool
  | .advance d _ | .crash d => !own.contains d
  | _ => true

/-- A label that gives a consumer a message. -/
def Label.receives : Label → Bool
  | .read _ | .claim .. => true
  | _ => false

/-- The next step is a command that uses the context of the message. -/
def Stage.usesContext : Stage → Bool
  | .deadLetter _ | .beginTx _ | .updateInventory _ | .insertOrder _ | .commitTx _ | .ack _ => true
  | _ => false

/-- The delivery is over. -/
def Stage.isGone : Stage → Bool
  | .gone => true
  | _ => false

/-- A delivery is in the processor's channel. -/
def Stage.isHandle : Stage → Bool
  | .handle => true
  | _ => false

/-- `cancel()`, by a caller. Only the first call has an effect. -/
def Process.cancel (p : Process) (k : Cancel) (c : Caller) : Process :=
  { p with called := fun k' => if k' = k then (p.called k').or (some c) else p.called k' }

/-- A step of the world. -/
def Process.inWorld (p : Process) (a : Label) : Option (Process × List DrainEvent) :=
  (step p.world a).map fun r => ({ p with world := r.1 }, r.2.map .world)

/-- The next step of a message under a context. A command whose context is cancelled does not
succeed. -/
def Process.advance (p : Process) (ctx : Context Cancel) (d : Nat) (reply : Reply) :
    Option (Process × List DrainEvent) :=
  if (p.world.stage d).usesContext && (ctx.cause p.called).isSome && reply == .ok then none
  else p.inWorld (.advance d reply)

/-- The next step of `process`. -/
def Process.process (t : Telemetry) (p : Process) (reply : Reply) :
    Option (Process × List DrainEvent) :=
  match p.current with
  | none => none
  | some d =>
    (p.advance t.processCtx d reply).map fun r =>
      ({ r.1 with current := if (r.1.world.stage d).isGone then none else some d },
        (if (p.world.stage d).usesContext then [.command d (t.processCtx.cause p.called)]
          else []) ++ r.2)

/-- The step of a label. -/
def stepDrain (t : Telemetry) (p : Process) : DrainLabel → Option (Process × List DrainEvent)
  | .other a => if a.avoids p.own then p.inWorld a else none
  | .receive a =>
    if a.receives && p.main != .exited && (consumerCtx.cause p.called).isNone then
      (p.inWorld a).map fun r => ({ r.1 with received := p.received ++ [p.world.next] }, r.2)
    else none
  | .consume d reply =>
    if p.received.contains d && p.main != .exited && !(p.world.stage d).isHandle then
      (p.advance t.traceCtx d reply).map fun r =>
        ({ r.1 with
          received := if (r.1.world.stage d).isGone then p.received.erase d else p.received }, r.2)
    else none
  | .hand d =>
    if p.received.contains d && p.main != .exited && (p.world.stage d).isHandle &&
        decide (p.channel.length < channelCapacity) then
      some ({ p with received := p.received.erase d, channel := p.channel ++ [d] }, [])
    else none
  | .drop d =>
    if p.received.contains d && (consumerCtx.cause p.called).isSome then
      (p.inWorld (.crash d)).map fun r => ({ r.1 with received := p.received.erase d }, r.2)
    else none
  | .take =>
    match p.current, p.channel with
    | none, d :: channel =>
      if p.stopped || p.main == .exited then none
      else some ({ p with channel, current := some d }, [])
    | _, _ => none
  | .process reply => if p.main == .exited then none else p.process t reply
  | .stop =>
    if p.current.isNone && (p.called .processorCancel).isSome then
      some ({ p with stopped := true }, [])
    else none
  | .pauseConsumer => some (p.cancel .consumerCancel .pauseConsumer, [])
  | .signal =>
    if p.main = .running then
      let inHand := p.channel ++ p.current.toList
      some ({ p with main := .signalled, inHand }, [.signalled inHand])
    else none
  | .cancelConsumer =>
    if p.main = .signalled then
      some ({ p with main := .draining }.cancel .consumerCancel .shutdown, [])
    else none
  | .drainTimeout =>
    if p.main = .draining then
      some ({ p with main := .stopping }.cancel .processorCancel .drainTimeout, [])
    else none
  | .exit =>
    if p.main = .stopping || p.main = .draining && p.stopped then
      some ({ p with main := .exited }, [])
    else none
  | .lose d =>
    if p.main = .exited && p.own.contains d then
      (p.inWorld (.crash d)).map fun r =>
        ({ r.1 with
          received := p.received.erase d
          channel := p.channel.erase d
          current := p.current.filter (· != d) }, r.2)
    else none

/-- The process at its start, in a world that the other processes have brought about. -/
structure NewProcess (db : Database) (p : Process) : Prop where
  world : ∃ n es, (worker db).Run Sys.anyStep n es p.world
  own : p.own = []
  called : ∀ k, p.called k = none
  main : p.main = .running
  stopped : p.stopped = false
  inHand : p.inHand = []

/-- A process of the consumer group. -/
def drain (db : Database) (t : Telemetry) : Sys Process DrainLabel DrainEvent where
  init := NewProcess db
  step := stepDrain t

/-- No command of a message that was in hand at the signal has a context that the shutdown has
cancelled. -/
def Drained (es : List DrainEvent) : Prop :=
  ∀ pre d cause post, es = pre ++ .command d cause :: post →
    ∀ inHand, .signalled inHand ∈ pre → d ∈ inHand → cause ≠ some .shutdown

/-- When the consumer is cancelled, no message that was in hand at the signal is in hand any more,
unless the consumer's context is cancelled already. -/
def HandsEmpty (p : Process) (a : DrainLabel) : Prop :=
  a = .cancelConsumer → (p.called .consumerCancel).isSome = true ∨
    ∀ d ∈ p.inHand, d ∉ p.channel ∧ p.current ≠ some d

/-! ## Steps -/

section steps

variable {db : Database} {t : Telemetry} {p p' : Process} {a : DrainLabel}
  {es fs : List DrainEvent}

/-- The numbers of deliveries only grow. -/
theorem next_le {w w' : World} {b : Label} {gs : List Event} (h : step w b = some (w', gs)) :
    w.next ≤ w'.next := by
  cases stepped h with
  | appends | crashes => exact Nat.le_refl _
  | reads | claims => exact Nat.le_succ _
  | advances _ ha => exact Nat.le_of_eq ha.moved.next.symm

/-- A message that is received has the next number. -/
theorem next_of_receives {w w' : World} {b : Label} {gs : List Event}
    (h : step w b = some (w', gs)) (hb : b.receives = true) : w'.next = w.next + 1 := by
  cases stepped h with
  | reads | claims => rfl
  | _ => cases hb

/-- What a step does. -/
inductive DrainWay (t : Telemetry) (p : Process) (a : DrainLabel) :
    Process → List DrainEvent → Prop
  /-- A step of the world, after which the loops of the consumer have no more than before. -/
  | world (b : Label) (w' : World) (gs : List Event) (received : List Nat) :
      step p.world b = some (w', gs) → received.Sublist p.received →
      DrainWay t p a { p with world := w', received } (gs.map .world)
  | receives (b : Label) (w' : World) (gs : List Event) : step p.world b = some (w', gs) →
      b.receives = true →
      DrainWay t p a { p with world := w', received := p.received ++ [p.world.next] }
        (gs.map .world)
  | hands (d : Nat) : d ∈ p.received →
      DrainWay t p a { p with received := p.received.erase d, channel := p.channel ++ [d] } []
  | takes (d : Nat) (channel : List Nat) : p.current = none → p.channel = d :: channel →
      DrainWay t p a { p with channel, current := some d } []
  | processes (d : Nat) (b : Label) (w' : World) (gs : List Event) (current : Option Nat)
      (command : Bool) : p.current = some d → step p.world b = some (w', gs) →
      current = none ∨ current = some d →
      DrainWay t p a { p with world := w', current }
        ((if command then [.command d (t.processCtx.cause p.called)] else []) ++ gs.map .world)
  /-- `run` or the processor's loop moves on, without a change of the consumer's context. -/
  | moves (p' : Process) : p'.world = p.world → p'.own = p.own → p'.channel = p.channel →
      p'.current = p.current → p'.received = p.received → p'.inHand = p.inHand →
      p'.called .consumerCancel = p.called .consumerCancel →
      (p'.main = .running → p.main = .running) → DrainWay t p a p' []
  | pauses : DrainWay t p a (p.cancel .consumerCancel .pauseConsumer) []
  | signals : p.main = .running →
      DrainWay t p a { p with main := .signalled, inHand := p.channel ++ p.current.toList }
        [.signalled (p.channel ++ p.current.toList)]
  | cancels : a = .cancelConsumer → p.main = .signalled →
      DrainWay t p a ({ p with main := .draining }.cancel .consumerCancel .shutdown) []
  | loses (b : Label) (w' : World) (gs : List Event) (received channel : List Nat)
      (current : Option Nat) : step p.world b = some (w', gs) → received.Sublist p.received →
      channel.Sublist p.channel → current.toList.Sublist p.current.toList →
      DrainWay t p a { p with world := w', received, channel, current } (gs.map .world)

/-- A step of the world, and what the process does after it. -/
theorem inWorld_map {b : Label} {r : Process × List DrainEvent}
    {f : Process × List DrainEvent → Process × List DrainEvent}
    (h : (p.inWorld b).map f = some r) :
    ∃ w' gs, step p.world b = some (w', gs) ∧ f ({ p with world := w' }, gs.map .world) = r := by
  obtain ⟨q, hq, he⟩ := Option.map_eq_some_iff.mp h
  obtain ⟨⟨w', gs⟩, hstep, rfl⟩ := Option.map_eq_some_iff.mp hq
  exact ⟨w', gs, hstep, he⟩

theorem advance_map {ctx : Context Cancel} {d : Nat} {reply : Reply}
    {r : Process × List DrainEvent} {f : Process × List DrainEvent → Process × List DrainEvent}
    (h : (p.advance ctx d reply).map f = some r) :
    ∃ w' gs, step p.world (.advance d reply) = some (w', gs) ∧
      f ({ p with world := w' }, gs.map .world) = r := by
  unfold Process.advance at h
  split at h
  · cases h
  · exact inWorld_map h

theorem receive_way {b : Label} (h : stepDrain t p (.receive b) = some (p', fs)) :
    DrainWay t p a p' fs := by
  simp only [stepDrain] at h
  split at h
  · rename_i hb
    simp only [Bool.and_eq_true] at hb
    obtain ⟨w', gs, hstep, he⟩ := inWorld_map h
    obtain ⟨rfl, rfl⟩ := Prod.mk.inj he
    exact .receives b w' gs hstep hb.1.1
  · cases h

theorem consume_way {d : Nat} {reply : Reply}
    (h : stepDrain t p (.consume d reply) = some (p', fs)) : DrainWay t p a p' fs := by
  simp only [stepDrain] at h
  split at h
  · obtain ⟨w', gs, hstep, he⟩ := advance_map h
    obtain ⟨rfl, rfl⟩ := Prod.mk.inj he
    refine .world _ w' gs _ hstep ?_
    -- The delivery stays with the loop until it is over.
    split
    · exact List.erase_sublist
    · exact List.Sublist.refl _
  · cases h

theorem drop_way {d : Nat} (h : stepDrain t p (.drop d) = some (p', fs)) :
    DrainWay t p a p' fs := by
  simp only [stepDrain] at h
  split at h
  · obtain ⟨w', gs, hstep, he⟩ := inWorld_map h
    obtain ⟨rfl, rfl⟩ := Prod.mk.inj he
    exact .world _ w' gs _ hstep List.erase_sublist
  · cases h

theorem take_way (h : stepDrain t p .take = some (p', fs)) : DrainWay t p a p' fs := by
  simp only [stepDrain] at h
  split at h
  · rename_i d channel hcurrent hchannel
    split at h
    · cases h
    · obtain ⟨rfl, rfl⟩ := Prod.mk.inj (Option.some.inj h)
      exact .takes d channel hcurrent hchannel
  · cases h

theorem process_way {reply : Reply} (h : p.process t reply = some (p', fs)) :
    DrainWay t p a p' fs := by
  unfold Process.process at h
  split at h
  · cases h
  · rename_i d hd
    obtain ⟨w', gs, hstep, he⟩ := advance_map h
    obtain ⟨rfl, rfl⟩ := Prod.mk.inj he
    refine .processes d _ w' gs _ _ hd hstep ?_
    split
    · exact .inl rfl
    · exact .inr rfl

theorem lose_way {d : Nat} (h : stepDrain t p (.lose d) = some (p', fs)) :
    DrainWay t p a p' fs := by
  simp only [stepDrain] at h
  split at h
  · obtain ⟨w', gs, hstep, he⟩ := inWorld_map h
    obtain ⟨rfl, rfl⟩ := Prod.mk.inj he
    refine .loses _ w' gs _ _ _ hstep List.erase_sublist List.erase_sublist ?_
    cases p.current with
    | none => exact List.Sublist.refl _
    | some c => by_cases hc : c = d <;> simp [Option.filter, hc]
  · cases h

theorem drain_step (h : (drain db t).step p a = some (p', fs)) : DrainWay t p a p' fs := by
  simp only [drain] at h
  cases a with
  | receive b => exact receive_way h
  | consume d reply => exact consume_way h
  | drop d => exact drop_way h
  | take => exact take_way h
  | lose d => exact lose_way h
  | process reply =>
    simp only [stepDrain] at h
    split at h
    · cases h
    · exact process_way h
  | other b =>
    simp only [stepDrain] at h
    split at h
    · obtain ⟨⟨w', gs⟩, hstep, he⟩ := Option.map_eq_some_iff.mp h
      obtain ⟨rfl, rfl⟩ := Prod.mk.inj he
      exact .world b w' gs p.received hstep (List.Sublist.refl _)
    · cases h
  | hand d =>
    simp only [stepDrain] at h
    split at h
    · rename_i hd
      simp only [Bool.and_eq_true, List.contains_iff_mem] at hd
      obtain ⟨rfl, rfl⟩ := Prod.mk.inj (Option.some.inj h)
      exact .hands d hd.1.1.1
    · cases h
  | stop =>
    simp only [stepDrain] at h
    split at h
    · obtain ⟨rfl, rfl⟩ := Prod.mk.inj (Option.some.inj h)
      exact .moves _ rfl rfl rfl rfl rfl rfl rfl id
    · cases h
  | pauseConsumer =>
    obtain ⟨rfl, rfl⟩ := Prod.mk.inj (Option.some.inj h)
    exact .pauses
  | signal =>
    simp only [stepDrain] at h
    split at h
    · rename_i hmain
      obtain ⟨rfl, rfl⟩ := Prod.mk.inj (Option.some.inj h)
      exact .signals hmain
    · cases h
  | cancelConsumer =>
    simp only [stepDrain] at h
    split at h
    · rename_i hmain
      obtain ⟨rfl, rfl⟩ := Prod.mk.inj (Option.some.inj h)
      exact .cancels rfl hmain
    · cases h
  | drainTimeout =>
    simp only [stepDrain] at h
    split at h
    · obtain ⟨rfl, rfl⟩ := Prod.mk.inj (Option.some.inj h)
      exact .moves _ rfl rfl rfl rfl rfl rfl rfl nofun
    · cases h
  | exit =>
    simp only [stepDrain] at h
    split at h
    · obtain ⟨rfl, rfl⟩ := Prod.mk.inj (Option.some.inj h)
      exact .moves _ rfl rfl rfl rfl rfl rfl rfl nofun
    · cases h

/-- The world of the process is one of the group. -/
theorem drain_worker {C : Process → DrainLabel → Prop} {n : Nat}
    (hr : (drain db t).Run C n es p) :
    ∃ m gs, (worker db).Run Sys.anyStep m gs p.world := by
  refine hr.stateInv (I := fun p => ∃ m gs, (worker db).Run Sys.anyStep m gs p.world)
    (fun p hi => NewProcess.world hi) fun p a p' fs hi _ hs => ?_
  obtain ⟨m, gs, hrun⟩ := hi
  cases drain_step hs with
  | world b w' gs' _ hstep _ | receives b w' gs' hstep _ | processes _ b w' gs' _ _ _ hstep _
  | loses b w' gs' _ _ _ hstep _ _ _ => exact ⟨m + 1, gs ++ gs', .step b hrun trivial hstep⟩
  | moves p' hw _ _ _ _ _ _ _ => exact ⟨m, gs, hw ▸ hrun⟩
  | _ => exact ⟨m, gs, hrun⟩

end steps

/-! ## What is in hand -/

section hands

variable {db : Database} {t : Telemetry} {p p' : Process} {a : DrainLabel}
  {es fs : List DrainEvent}

/-- A delivery of the process is in one place. What was in hand at the signal does not come back to
the loops of the consumer, and is not in hand any more when the shutdown has cancelled them. -/
structure Held (es : List DrainEvent) (p : Process) : Prop where
  nodup : p.own.Nodup
  fresh : ∀ d ∈ p.own, d < p.world.next
  inHand : ∀ d ∈ p.inHand, d < p.world.next ∧ d ∉ p.received
  signalled : ∀ ds, .signalled ds ∈ es → p.inHand = ds ∧ p.main ≠ .running
  late : p.called .consumerCancel = some .shutdown → p.main ≠ .running ∧
    ∀ d ∈ p.inHand, d ∉ p.channel ∧ p.current ≠ some d

theorem signalled_append {ds : List Nat} (hf : .signalled ds ∉ fs)
    (h : .signalled ds ∈ es ++ fs) : .signalled ds ∈ es :=
  (List.mem_append.mp h).resolve_right hf

theorem signalled_world (ds : List Nat) (gs : List Event) :
    .signalled ds ∉ gs.map DrainEvent.world := by
  intro hm
  obtain ⟨_, _, he⟩ := List.mem_map.mp hm
  cases he

/-- The process has fewer deliveries, in a later world. -/
theorem Held.shrink (hp : Held es p) {w' : World} {received channel : List Nat}
    {current : Option Nat} (hw : p.world.next ≤ w'.next)
    (hr : received.Sublist p.received) (hch : channel.Sublist p.channel)
    (hcur : current.toList.Sublist p.current.toList)
    (hf : ∀ ds, .signalled ds ∉ fs) :
    Held (es ++ fs) { p with world := w', received, channel, current } := by
  have hown : (received ++ channel ++ current.toList).Sublist p.own := (hr.append hch).append hcur
  refine ⟨hp.nodup.sublist hown, fun d hd => ?_, fun d hd => ?_, fun ds hds => ?_, fun hlate => ?_⟩
  · exact Nat.lt_of_lt_of_le (hp.fresh d (hown.subset hd)) hw
  · obtain ⟨hlt, hnot⟩ := hp.inHand d hd
    exact ⟨Nat.lt_of_lt_of_le hlt hw, fun hm => hnot (hr.subset hm)⟩
  · exact hp.signalled ds (signalled_append (hf ds) hds)
  · obtain ⟨hmain, hhand⟩ := hp.late hlate
    refine ⟨hmain, fun d hd => ?_⟩
    obtain ⟨hch', hcur'⟩ := hhand d hd
    refine ⟨fun hm => hch' (hch.subset hm), fun hc => hcur' ?_⟩
    have hmem : d ∈ p.current.toList := hcur.subset (by simp [show current = some d from hc])
    simpa using hmem

/-- The process has the same deliveries in other places. -/
theorem Held.permute (hp : Held es p) {received channel : List Nat} {current : Option Nat}
    (hown : (received ++ channel ++ current.toList).Perm p.own)
    (hr : ∀ d ∈ received, d ∈ p.received)
    (hh : ∀ d, d ∈ channel ∨ current = some d →
      d ∈ p.received ∨ d ∈ p.channel ∨ p.current = some d) :
    Held es { p with received, channel, current } := by
  refine ⟨hown.nodup_iff.mpr hp.nodup, fun d hd => hp.fresh d (hown.mem_iff.mp hd), fun d hd => ?_,
    hp.signalled, fun hlate => ?_⟩
  · exact ⟨(hp.inHand d hd).1, fun hm => (hp.inHand d hd).2 (hr d hm)⟩
  · obtain ⟨hmain, hhand⟩ := hp.late hlate
    have hnot : ∀ d ∈ p.inHand, ¬ (d ∈ channel ∨ current = some d) := by
      intro d hd hm
      obtain ⟨hch, hcur⟩ := hhand d hd
      rcases hh d hm with h | h | h
      · exact (hp.inHand d hd).2 h
      · exact hch h
      · exact hcur h
    exact ⟨hmain, fun d hd => not_or.mp (hnot d hd)⟩

/-- The loops of the consumer receive a message with a new number. -/
theorem Held.receive (hp : Held es p) {w' : World} (hw : w'.next = p.world.next + 1)
    (hf : ∀ ds, .signalled ds ∉ fs) :
    Held (es ++ fs) { p with world := w', received := p.received ++ [p.world.next] } := by
  have hperm : (p.received ++ [p.world.next] ++ p.channel ++ p.current.toList).Perm
      (p.world.next :: p.own) := by
    simp only [Process.own, List.append_assoc, List.singleton_append]
    exact List.perm_middle
  have hnew : p.world.next ∉ p.own := fun hm => Nat.lt_irrefl _ (hp.fresh _ hm)
  refine ⟨hperm.nodup_iff.mpr (List.nodup_cons.mpr ⟨hnew, hp.nodup⟩), fun d hd => ?_,
    fun d hd => ?_, fun ds hds => hp.signalled ds (signalled_append (hf ds) hds), hp.late⟩
  · rcases List.mem_cons.mp (hperm.mem_iff.mp hd) with rfl | hm
    · exact Nat.lt_of_lt_of_eq (Nat.lt_succ_self _) hw.symm
    · exact Nat.lt_of_lt_of_eq (Nat.lt_succ_of_lt (hp.fresh d hm)) hw.symm
  · obtain ⟨hlt, hnot⟩ := hp.inHand d hd
    refine ⟨Nat.lt_of_lt_of_eq (Nat.lt_succ_of_lt hlt) hw.symm, fun hm => ?_⟩
    rcases List.mem_append.mp hm with hm | hm
    · exact hnot hm
    · exact Nat.ne_of_lt hlt (List.mem_singleton.mp hm)

/-- The signal: what is in hand is not with the loops of the consumer. -/
theorem Held.signal (hp : Held es p) (hmain : p.main = .running) :
    Held (es ++ [.signalled (p.channel ++ p.current.toList)])
      { p with main := .signalled, inHand := p.channel ++ p.current.toList } := by
  refine ⟨hp.nodup, hp.fresh, fun d hd => ?_, fun ds hds => ?_, fun hlate => ?_⟩
  · have hnodup := hp.nodup
    simp only [Process.own, List.append_assoc] at hnodup
    refine ⟨hp.fresh d ?_, fun hm => (List.nodup_append.mp hnodup).2.2 d hm d hd rfl⟩
    simp only [Process.own, List.append_assoc]
    exact List.mem_append_right _ hd
  · rcases List.mem_append.mp hds with hm | hm
    · exact absurd hmain (hp.signalled ds hm).2
    · obtain rfl : ds = p.channel ++ p.current.toList := by simpa using hm
      exact ⟨rfl, nofun⟩
  · exact absurd hmain (hp.late hlate).1

/-- A step under the condition keeps what is known of the deliveries. -/
theorem held_step (hp : Held es p) (hc : HandsEmpty p a) (h : DrainWay t p a p' fs) :
    Held (es ++ fs) p' := by
  cases h with
  | world b w' gs received hstep hsub =>
    exact hp.shrink (next_le hstep) hsub (List.Sublist.refl _) (List.Sublist.refl _)
      fun ds => signalled_world ds gs
  | receives b w' gs hstep hb =>
    exact hp.receive (next_of_receives hstep hb) fun ds => signalled_world ds gs
  | hands d hd =>
    rw [List.append_nil]
    have hperm := List.perm_cons_erase hd
    refine hp.permute ?_ (fun d' hd' => List.mem_of_mem_erase hd') fun d' hd' => ?_
    · simp only [Process.own]
      refine List.Perm.append_right _ ?_
      calc p.received.erase d ++ (p.channel ++ [d])
          = p.received.erase d ++ p.channel ++ [d] := (List.append_assoc _ _ _).symm
        _ |>.Perm (d :: (p.received.erase d ++ p.channel)) := List.perm_append_singleton d _
        _ |>.Perm (p.received ++ p.channel) := hperm.symm.append_right _
    · simp only [List.mem_append, List.mem_singleton] at hd'
      rcases hd' with (hm | rfl) | hm
      · exact .inr (.inl hm)
      · exact .inl hd
      · exact .inr (.inr hm)
  | takes d channel hcurrent hchannel =>
    rw [List.append_nil]
    refine hp.permute ?_ (fun _ hd' => hd') fun d' hd' => .inr (.inl ?_)
    · simp only [Process.own, hcurrent, hchannel, Option.toList, List.append_nil]
      rw [List.append_assoc]
      exact List.Perm.append_left _ (List.perm_append_singleton d channel)
    · rw [hchannel]
      rcases hd' with hm | hm
      · exact List.mem_cons_of_mem _ hm
      · obtain rfl := Option.some.inj hm
        exact List.mem_cons_self
  | processes d b w' gs current command hd hstep hcur =>
    refine hp.shrink (next_le hstep) (List.Sublist.refl _) (List.Sublist.refl _) ?_ fun ds hm => ?_
    · rcases hcur with rfl | rfl
      · exact List.nil_sublist _
      · exact hd ▸ List.Sublist.refl _
    · rcases List.mem_append.mp hm with hm | hm
      · split at hm <;> simp at hm
      · exact signalled_world ds gs hm
  | moves p' hw hown hch hcur hrec hin hcalled hmain =>
    rw [List.append_nil]
    refine ⟨hown ▸ hp.nodup, fun d hd => ?_, fun d hd => ?_, fun ds hds => ?_, fun hlate => ?_⟩
    · rw [hw]
      exact hp.fresh d (hown ▸ hd)
    · rw [hw, hrec]
      exact hp.inHand d (hin ▸ hd)
    · exact ⟨hin.trans (hp.signalled ds hds).1, fun hr => (hp.signalled ds hds).2 (hmain hr)⟩
    · obtain ⟨hne, hhand⟩ := hp.late (hcalled ▸ hlate)
      refine ⟨fun hr => hne (hmain hr), fun d hd => ?_⟩
      rw [hch, hcur]
      exact hhand d (hin ▸ hd)
  | pauses =>
    rw [List.append_nil]
    refine ⟨hp.nodup, hp.fresh, hp.inHand, hp.signalled, fun hlate => hp.late ?_⟩
    cases hcalled : p.called .consumerCancel with
    | none => simp [Process.cancel, hcalled] at hlate
    | some c => simpa [Process.cancel, hcalled] using hlate
  | signals hmain => exact hp.signal hmain
  | cancels ha hmain =>
    rw [List.append_nil]
    refine ⟨hp.nodup, hp.fresh, hp.inHand, fun ds hds => ⟨(hp.signalled ds hds).1, nofun⟩,
      fun hlate => ⟨nofun, ?_⟩⟩
    cases hcalled : p.called .consumerCancel with
    | none =>
      rcases hc ha with hsome | hempty
      · rw [hcalled] at hsome
        cases hsome
      · exact hempty
    | some c => exact (hp.late (by simpa [Process.cancel, hcalled] using hlate)).2
  | loses b w' gs received channel current hstep hr hch hcur =>
    exact hp.shrink (next_le hstep) hr hch hcur fun ds => signalled_world ds gs

theorem held_run {n : Nat} (hr : (drain db t).Run HandsEmpty n es p) : Held es p := by
  refine hr.inv (I := Held) (fun p hi => ?_) fun n es p a p' fs _ hp hc hs =>
    held_step hp hc (drain_step hs)
  have hown := NewProcess.own hi
  have hin := NewProcess.inHand hi
  refine ⟨by simp [hown], by simp [hown], by simp [hin], nofun, fun hlate => ?_⟩
  rw [NewProcess.called hi] at hlate
  cases hlate

/-- When none of the messages that were in hand at the signal is in hand when the consumer is
cancelled, no command of them is cut off by it. -/
theorem drained {n : Nat} (hr : (drain db t).Run HandsEmpty n es p) : Drained es := by
  intro pre d cause post he inHand hsig hd hcause
  obtain ⟨n₁, es₁, p₁, a, p₂, fs, fs₁, fs₂, hr₁, -, hstep, hfs, rfl⟩ := hr.split he
  have hp := held_run hr₁
  have hm : .command d cause ∈ fs := by simp [hfs]
  have hworld : ∀ gs : List Event, .command d cause ∉ gs.map DrainEvent.world := by
    intro gs hm
    obtain ⟨_, _, he⟩ := List.mem_map.mp hm
    cases he
  cases drain_step hstep with
  | processes d' b w' gs current command hcurrent _ _ =>
    have hcommand : d = d' ∧ cause = t.processCtx.cause p₁.called := by
      rcases List.mem_append.mp hm with hm | hm
      · split at hm <;> simp at hm
        exact hm
      · exact absurd hm (hworld gs)
    obtain ⟨rfl, rfl⟩ := hcommand
    have hsig' : .signalled inHand ∈ es₁ := by
      refine signalled_append (fun hm₁ => ?_) hsig
      have hm' : .signalled inHand ∈ fs₁ ++ .command d (t.processCtx.cause p₁.called) :: fs₂ :=
        List.mem_append_left _ hm₁
      rw [← hfs] at hm'
      rcases List.mem_append.mp hm' with hm' | hm'
      · split at hm' <;> simp at hm'
      · exact signalled_world inHand gs hm'
    obtain ⟨rfl, -⟩ := hp.signalled inHand hsig'
    rw [processCtx_cause] at hcause
    exact ((hp.late hcause).2 d hd).2 hcurrent
  | world b w' gs _ _ _ | receives b w' gs _ _ | loses b w' gs _ _ _ _ _ _ _ =>
    exact absurd hm (hworld gs)
  | _ => simp at hm

end hands

/-! ### The sample shutdowns -/

/-- The contexts with values. -/
def sampleTelemetry : Telemetry where
  extract := .withValue
  start := .withValue
  extract_transparent := Context.transparent_withValue
  start_transparent := Context.transparent_withValue

/-- A process that starts when nothing has happened. -/
def newProcess (db : Database) : Process where
  world := start db
  received := []
  channel := []
  current := none
  stopped := false
  called := fun _ => none
  main := .running
  inHand := []

theorem newProcess_new (db : Database) : NewProcess db (newProcess db) :=
  ⟨⟨0, [], .init rfl⟩, rfl, fun _ => rfl, rfl, rfl, rfl⟩

def checkHands (p : Process) : DrainLabel → Bool
  | .cancelConsumer => (p.called .consumerCancel).isSome ||
    p.inHand.all fun d => !p.channel.contains d && p.current != some d
  | _ => true

theorem handsEmpty_of_check (p : Process) (a : DrainLabel) (h : checkHands p a = true) :
    HandsEmpty p a := by
  rintro rfl
  simp only [checkHands, Bool.or_eq_true] at h
  refine h.imp_right fun hall d hd => ?_
  simpa using List.all_eq_true.mp hall d hd

/-- The steps up to a message in the processor. -/
def untilTaken : List DrainLabel :=
  [.other (.append (samplePayload "e1" "mouse" 2)), .receive (.read "worker-a"), .consume 0 .ok,
    .hand 0, .take]

/-- Whether a command of the message 0 has a cancelled context. -/
def DrainEvent.commandOf (cause : Option Caller) : DrainEvent → Bool
  | .command 0 cause' => cause' == cause
  | _ => false

/-- The message in the processor is acknowledged before the consumer is cancelled. -/
theorem drained_acknowledged :
    ∃ n es p, (drain (shop 5) sampleTelemetry).Run HandsEmpty n es p ∧ p.inHand = [0] ∧
      p.main = .exited ∧ (p.world.pending 0).isNone = true ∧
      es.any (DrainEvent.commandOf none) = true ∧ Drained es := by
  have hexec : (((drain (shop 5) sampleTelemetry).restrict checkHands).exec (newProcess (shop 5))
      (untilTaken ++ [.signal] ++ List.replicate 7 (.process .ok) ++
        [.cancelConsumer, .drainTimeout, .stop, .exit])).any
      (fun r => decide (r.1.inHand = [0] ∧ r.1.main = .exited) &&
        (r.1.world.pending 0).isNone && r.2.any (DrainEvent.commandOf none)) = true := by
    decide +kernel
  obtain ⟨p, es, hr, hc⟩ :=
    Sys.exists_checked_run handsEmpty_of_check (newProcess_new (shop 5)) hexec
  simp only [Bool.and_eq_true, decide_eq_true_eq] at hc
  obtain ⟨⟨⟨hin, hmain⟩, hpending⟩, hany⟩ := hc
  exact ⟨_, es, p, hr, hin, hmain, hpending, hany, drained hr⟩

/-- The event at a position is a command that the shutdown has cut off, of a message that was in
hand at the signal. -/
def cutsOffAt (k : Nat) (es : List DrainEvent) : Bool :=
  match es[k]?, es[k - 1]? with
  | some (.command d (some .shutdown)), some (.signalled inHand) => inHand.contains d
  | _, _ => false

theorem not_drained_of_cutsOffAt {k : Nat} {es : List DrainEvent}
    (h : cutsOffAt (k + 1) es = true) : ¬ Drained es := by
  unfold cutsOffAt at h
  split at h
  · rename_i d inHand hk hk'
    intro hdrained
    have hsig : .signalled inHand ∈ es.take (k + 1) := by
      refine List.mem_take_iff_getElem.mpr ?_
      obtain ⟨hlt, he⟩ := List.getElem?_eq_some_iff.mp hk'
      exact ⟨k, by omega, he⟩
    exact hdrained _ d _ _ (Sys.split_of_getElem? hk) inHand hsig (by simpa using h) rfl
  · cases h

/-- The transaction of the message in the processor is cut off by the cancellation of the
consumer. -/
theorem in_hand_cut_off :
    ¬ ∀ (db : Database) (t : Telemetry) (n : Nat) (es : List DrainEvent) (p : Process),
      (drain db t).Run Sys.anyStep n es p → Drained es := by
  intro hall
  have hexec : ((drain (shop 5) sampleTelemetry).exec (newProcess (shop 5))
      (untilTaken ++ [.process .ok, .signal, .cancelConsumer, .process .failed])).any
      (fun r => cutsOffAt 2 r.2) = true := by
    decide +kernel
  obtain ⟨p, es, hr, hc⟩ := Sys.exists_any_run (newProcess_new (shop 5)) hexec
  exact not_drained_of_cutsOffAt hc (hall _ _ _ es p hr)

end Rivulet
end AutoSRE

import AutoSRE.Lib.Sys
import Mathlib.Data.List.Infix
import Mathlib.Logic.Function.Basic

/-!
# The life of the application (`lifespan`, `LangGraphRunner`)

The startup and the shutdown of the agent, beside the background tasks that run its incidents.

- **The startup** (`startup`). Each resource registers its exit on the `AsyncExitStack`. A call that
  raises ends the startup, and what is registered is closed.
- **The tasks** (`Application.schedule`). `schedule_incident` and `approve_incident` create a task,
  keep it in `_background_tasks` and add the callback that discards it. The lock is free at every
  `await`, so that nothing comes between these.
- **The shutdown** (`shutdown`). It waits for the tasks that are tracked, cancels those that are
  left at the timeout, and waits for these.
- **Use after close** (`closed_after_tasks`). A task that was scheduled before the drain is over
  when the first resource is closed, and the resources are closed in reverse.
-/

namespace AutoSRE
namespace Api

open Lib

/-! ## The startup -/

/-- What `lifespan` registers for its exit. -/
inductive Resource where
  | telemetry
  | pgPool
  | valkeyClient
  | openobserveClient
  | checkpointer
  | runner
deriving DecidableEq

inductive Startup where
  /-- A call that may raise. -/
  | call (name : String)
  | register (r : Resource)
deriving DecidableEq

/-- Steps 1 to 13 of `lifespan`. The K8s client of step 5 is optional and is not closed. -/
def startup : List Startup :=
  [.call "init_telemetry", .register .telemetry, .call "instrument_fastapi",
    .call "AsyncConnectionPool", .register .pgPool, .call "pg_pool.open",
    .call "Redis", .register .valkeyClient,
    .call "OpenObserveClient", .register .openobserveClient,
    .call "AsyncPostgresSaver", .register .checkpointer, .call "checkpointer.setup",
    .call "SREContext", .call "build_default_registry", .call "SafeExecutor",
    .call "GraphContext", .call "compile_graph", .call "LangGraphRunner", .register .runner]

inductive Stage where
  | starting (todo : List Startup)
  | serving
  /-- The exit stack unwinds; `served` says whether the startup had ended. -/
  | stopping (served : Bool)
  | stopped
deriving DecidableEq

/-- Where `shutdown` of the runner is. -/
inductive Drain where
  | idle
  /-- `asyncio.wait`. -/
  | waiting (pending : List Nat)
  /-- `asyncio.gather`, after the timeout. -/
  | gathering (pending : List Nat)

/-- How a task ends. -/
inductive TaskEnd where
  | returned
  | raised (message : String)
  | cancelled
deriving DecidableEq

structure Application where
  phase : Stage
  /-- The exits of the `AsyncExitStack`, the last one first. -/
  stack : List Resource
  /-- The number of the next task. -/
  next : Nat
  running : Nat → Bool
  /-- `cancel` has been called. -/
  cancelling : Nat → Bool
  /-- `_background_tasks`. -/
  tracked : List Nat
  /-- The tasks whose done-callback is due. -/
  callbacks : List Nat
  drain : Drain

inductive AppEvent where
  | registered (r : Resource)
  | failed (name : String)
  | stopping
  | scheduled (i : Nat)
  | worked (i : Nat)
  | ended (i : Nat) (how : TaskEnd)
  /-- `shutdown` takes the tasks that it waits for. -/
  | draining
  | expired
  | cancelled (i : Nat)
  | closed (r : Resource)
  | stopped
deriving DecidableEq

inductive AppLabel where
  /-- The next step of the startup; a call returns, or raises. -/
  | start (ok : Bool)
  | schedule
  | work (i : Nat)
  | finish (i : Nat) (how : TaskEnd)
  /-- The event loop runs the next done-callback. -/
  | callback
  /-- The server asks the application to stop. -/
  | stop
  /-- The next exit of the stack. An exit that raises does not stop the others. -/
  | close
  /-- The timeout of `asyncio.wait`. -/
  | expire
  /-- All the tasks that `shutdown` waits for are done. -/
  | wake

/-- The next step of the startup. -/
def Application.start (s : Application) (ok : Bool) : Option (Application × List AppEvent) :=
  match s.phase with
  | .starting [] => some ({ s with phase := .serving }, [])
  | .starting (.call name :: todo) =>
    if ok then some ({ s with phase := .starting todo }, [])
    else some ({ s with phase := .stopping false }, [.failed name])
  | .starting (.register r :: todo) =>
    some ({ s with phase := .starting todo, stack := r :: s.stack }, [.registered r])
  | _ => none

/-- A request is handled: while the application serves, or when the shutdown overtakes it. -/
def Stage.handles : Stage → Bool
  | .serving | .stopping true => true
  | _ => false

/-- `schedule_incident` and `approve_incident`, from `create_task` to `add_done_callback`. -/
def Application.schedule (s : Application) : Application × List AppEvent :=
  ({ s with
      next := s.next + 1
      running := Function.update s.running s.next true
      tracked := s.next :: s.tracked }, [.scheduled s.next])

/-- A task ends, and its callback is due. -/
def Application.finish (s : Application) (i : Nat) (how : TaskEnd) :
    Application × List AppEvent :=
  ({ s with
      running := Function.update s.running i false
      callbacks := s.callbacks ++ [i] }, [.ended i how])

/-- The next exit of the stack. -/
def Application.close (s : Application) : Application × List AppEvent :=
  match s.stack with
  | [] => ({ s with phase := .stopped }, [.stopped])
  | .runner :: rest =>
    if s.tracked = [] then ({ s with stack := rest }, [.draining, .closed .runner])
    else ({ s with drain := .waiting s.tracked }, [.draining])
  | r :: rest => ({ s with stack := rest }, [.closed r])

/-- `shutdown` returns. -/
def Application.endDrain (s : Application) : Application × List AppEvent :=
  ({ s with drain := .idle, stack := s.stack.tail }, [.closed .runner])

/-- The step of a label. -/
def stepApplication (s : Application) : AppLabel → Option (Application × List AppEvent)
  | .start ok => s.start ok
  | .schedule => if s.phase.handles then some s.schedule else none
  | .work i => if s.running i then some (s, [.worked i]) else none
  | .finish i how =>
    if s.running i ∧ (how = .cancelled → s.cancelling i = true) then some (s.finish i how) else none
  | .callback =>
    match s.callbacks with
    | [] => none
    | i :: rest => some ({ s with callbacks := rest, tracked := s.tracked.filter (· != i) }, [])
  | .stop =>
    if s.phase = .serving then some ({ s with phase := .stopping true }, [.stopping]) else none
  | .close =>
    match s.phase, s.drain with
    | .stopping _, .idle => some s.close
    | _, _ => none
  | .expire =>
    match s.drain with
    | .waiting pending =>
      let stillPending := pending.filter s.running
      if stillPending = [] then some s.endDrain
      else
        some ({ s with
            cancelling := fun i => s.cancelling i || stillPending.contains i
            drain := .gathering stillPending }, .expired :: stillPending.map .cancelled)
    | _ => none
  | .wake =>
    match s.drain with
    | .waiting pending | .gathering pending =>
      if pending.any s.running then none else some s.endDrain
    | .idle => none

/-- The process before `lifespan`. -/
structure NewApplication (s : Application) : Prop where
  phase : s.phase = .starting startup
  stack : s.stack = []
  next : s.next = 0
  running : ∀ i, s.running i = false
  cancelling : ∀ i, s.cancelling i = false
  tracked : s.tracked = []
  callbacks : s.callbacks = []
  drain : s.drain = .idle

def application : Sys Application AppLabel AppEvent where
  init := NewApplication
  step := stepApplication

/-! ## The steps -/

section steps

variable {s s' : Application} {a : AppLabel} {es fs : List AppEvent} {n : Nat}
  {C : Application → AppLabel → Prop}

/-- What a step of the application does. -/
inductive AppWay (s : Application) : Application → List AppEvent → Prop
  | begins : s.phase = .starting [] → AppWay s { s with phase := .serving } []
  | calls (name : String) (todo : List Startup) : s.phase = .starting (.call name :: todo) →
      AppWay s { s with phase := .starting todo } []
  | fails (name : String) (todo : List Startup) : s.phase = .starting (.call name :: todo) →
      AppWay s { s with phase := .stopping false } [.failed name]
  | registers (r : Resource) (todo : List Startup) : s.phase = .starting (.register r :: todo) →
      AppWay s { s with phase := .starting todo, stack := r :: s.stack } [.registered r]
  | schedules : AppWay s s.schedule.1 s.schedule.2
  | works (i : Nat) : s.running i = true → AppWay s s [.worked i]
  | finishes (i : Nat) (how : TaskEnd) : s.running i = true →
      (how = .cancelled → s.cancelling i = true) → AppWay s (s.finish i how).1 (s.finish i how).2
  | discards (i : Nat) (rest : List Nat) : s.callbacks = i :: rest →
      AppWay s { s with callbacks := rest, tracked := s.tracked.filter (· != i) } []
  | stops : s.phase = .serving → AppWay s { s with phase := .stopping true } [.stopping]
  | ends (served : Bool) : s.phase = .stopping served → s.drain = .idle → s.stack = [] →
      AppWay s { s with phase := .stopped } [.stopped]
  | closes (served : Bool) (r : Resource) (rest : List Resource) : s.phase = .stopping served →
      s.drain = .idle → s.stack = r :: rest → r ≠ .runner →
      AppWay s { s with stack := rest } [.closed r]
  | drains (served : Bool) (rest : List Resource) : s.phase = .stopping served →
      s.drain = .idle → s.stack = .runner :: rest →
      AppWay s { s with drain := .waiting s.tracked } [.draining]
  | drained (served : Bool) (rest : List Resource) : s.phase = .stopping served →
      s.drain = .idle → s.stack = .runner :: rest → s.tracked = [] →
      AppWay s { s with stack := rest } [.draining, .closed .runner]
  | expires (pending : List Nat) : s.drain = .waiting pending →
      AppWay s
        { s with
          cancelling := fun i => s.cancelling i || (pending.filter s.running).contains i
          drain := .gathering (pending.filter s.running) }
        (.expired :: (pending.filter s.running).map .cancelled)
  | returns (pending : List Nat) : s.drain = .waiting pending ∨ s.drain = .gathering pending →
      (∀ i ∈ pending, s.running i = false) → AppWay s s.endDrain.1 s.endDrain.2

theorem start_way {ok : Bool} (h : s.start ok = some (s', fs)) : AppWay s s' fs := by
  unfold Application.start at h
  split at h
  · rename_i hp
    obtain ⟨rfl, rfl⟩ := Prod.mk.inj (Option.some.inj h)
    exact .begins hp
  · rename_i name todo hp
    split at h
    · obtain ⟨rfl, rfl⟩ := Prod.mk.inj (Option.some.inj h)
      exact .calls name todo hp
    · obtain ⟨rfl, rfl⟩ := Prod.mk.inj (Option.some.inj h)
      exact .fails name todo hp
  · rename_i r todo hp
    obtain ⟨rfl, rfl⟩ := Prod.mk.inj (Option.some.inj h)
    exact .registers r todo hp
  · cases h

theorem close_way {served : Bool} (hp : s.phase = .stopping served) (hd : s.drain = .idle)
    (h : s.close = (s', fs)) : AppWay s s' fs := by
  unfold Application.close at h
  split at h
  · rename_i hs
    obtain ⟨rfl, rfl⟩ := Prod.mk.inj h
    exact .ends served hp hd hs
  · rename_i rest hs
    split at h
    · rename_i ht
      obtain ⟨rfl, rfl⟩ := Prod.mk.inj h
      exact .drained served rest hp hd hs ht
    · obtain ⟨rfl, rfl⟩ := Prod.mk.inj h
      exact .drains served rest hp hd hs
  · rename_i r rest hr hs
    obtain ⟨rfl, rfl⟩ := Prod.mk.inj h
    exact .closes served r rest hp hd hs hr

theorem application_step (h : application.step s a = some (s', fs)) : AppWay s s' fs := by
  simp only [application] at h
  cases a with
  | start ok => exact start_way h
  | schedule =>
    simp only [stepApplication] at h
    split at h
    · obtain ⟨rfl, rfl⟩ := Prod.mk.inj (Option.some.inj h)
      exact .schedules
    · cases h
  | work i =>
    simp only [stepApplication] at h
    split at h
    · rename_i hr
      obtain ⟨rfl, rfl⟩ := Prod.mk.inj (Option.some.inj h)
      exact .works i hr
    · cases h
  | finish i how =>
    simp only [stepApplication] at h
    split at h
    · rename_i hr
      obtain ⟨rfl, rfl⟩ := Prod.mk.inj (Option.some.inj h)
      exact .finishes i how hr.1 hr.2
    · cases h
  | callback =>
    simp only [stepApplication] at h
    split at h
    · cases h
    · rename_i i rest hc
      obtain ⟨rfl, rfl⟩ := Prod.mk.inj (Option.some.inj h)
      exact .discards i rest hc
  | stop =>
    simp only [stepApplication] at h
    split at h
    · rename_i hp
      obtain ⟨rfl, rfl⟩ := Prod.mk.inj (Option.some.inj h)
      exact .stops hp
    · cases h
  | close =>
    simp only [stepApplication] at h
    split at h
    · rename_i served hp hd
      exact close_way hp hd (Option.some.inj h)
    · cases h
  | expire =>
    simp only [stepApplication] at h
    split at h
    · rename_i pending hd
      split at h
      · rename_i hnone
        obtain ⟨rfl, rfl⟩ := Prod.mk.inj (Option.some.inj h)
        refine .returns pending (.inl hd) fun i hi => ?_
        simpa using List.filter_eq_nil_iff.mp hnone i hi
      · obtain ⟨rfl, rfl⟩ := Prod.mk.inj (Option.some.inj h)
        exact .expires pending hd
    · cases h
  | wake =>
    simp only [stepApplication] at h
    split at h
    · rename_i pending hd
      split at h
      · cases h
      · rename_i hnone
        obtain ⟨rfl, rfl⟩ := Prod.mk.inj (Option.some.inj h)
        exact .returns pending (.inl hd) (by simpa using hnone)
    · rename_i pending hd
      split at h
      · cases h
      · rename_i hnone
        obtain ⟨rfl, rfl⟩ := Prod.mk.inj (Option.some.inj h)
        exact .returns pending (.inr hd) (by simpa using hnone)
    · cases h

/-! ## The tasks -/

/-- The tasks after a log. -/
structure Tasked (es : List AppEvent) (s : Application) : Prop where
  scheduled : ∀ i, .scheduled i ∈ es ↔ i < s.next
  running : ∀ i, s.running i = true → i < s.next
  /-- No task that runs is lost. -/
  tracked : ∀ i, s.running i = true → i ∈ s.tracked
  /-- No task that is over is kept, but for its callback. -/
  discarded : ∀ i ∈ s.tracked, s.running i = true ∨ i ∈ s.callbacks
  finished : ∀ i how, .ended i how ∈ es → i < s.next ∧ s.running i = false
  ends : ∀ i < s.next, s.running i = true ∨ ∃ how, .ended i how ∈ es
  due : ∀ i ∈ s.callbacks, i < s.next ∧ s.running i = false
  cancelled : ∀ i, s.cancelling i = true → .cancelled i ∈ es

/-- The events are not about tasks that come or go. -/
def TaskQuiet (fs : List AppEvent) : Prop :=
  ∀ i, .scheduled i ∉ fs ∧ ∀ how, .ended i how ∉ fs

/-- A step that leaves the tasks alone. -/
theorem Tasked.same (h : Tasked es s) (hnext : s'.next = s.next) (hrunning : s'.running = s.running)
    (htracked : s'.tracked = s.tracked) (hcallbacks : s'.callbacks = s.callbacks)
    (hcancelling : ∀ i, s'.cancelling i = true → s.cancelling i = true ∨ .cancelled i ∈ fs)
    (hfs : TaskQuiet fs) : Tasked (es ++ fs) s' := by
  have hended : ∀ i how, .ended i how ∈ es ++ fs → .ended i how ∈ es := fun i how hm =>
    (List.mem_append.mp hm).resolve_right ((hfs i).2 how)
  refine ⟨fun i => ?_, ?_, ?_, ?_, fun i how hm => ?_, fun i hi => ?_, ?_, fun i hc => ?_⟩
  · rw [hnext, ← h.scheduled i, List.mem_append, or_iff_left (hfs i).1]
  · rw [hrunning, hnext]
    exact h.running
  · rw [hrunning, htracked]
    exact h.tracked
  · rw [hrunning, htracked, hcallbacks]
    exact h.discarded
  · rw [hnext, hrunning]
    exact h.finished i how (hended i how hm)
  · rw [hrunning]
    rcases h.ends i (hnext ▸ hi) with hr | ⟨how, hm⟩
    · exact .inl hr
    · exact .inr ⟨how, List.mem_append_left _ hm⟩
  · rw [hcallbacks, hnext, hrunning]
    exact h.due
  · rcases hcancelling i hc with hc | hc
    · exact List.mem_append_left _ (h.cancelled i hc)
    · exact List.mem_append_right _ hc

theorem Tasked.schedule (h : Tasked es s) :
    Tasked (es ++ s.schedule.2) s.schedule.1 := by
  have hother : ∀ i ≠ s.next, s.schedule.1.running i = s.running i := fun i hi =>
    Function.update_of_ne hi ..
  have hself : s.schedule.1.running s.next = true := Function.update_self ..
  constructor
  case scheduled =>
    intro i
    simp only [Application.schedule, List.mem_append, h.scheduled i, List.mem_singleton,
      AppEvent.scheduled.injEq]
    omega
  case running =>
    intro i hr
    by_cases he : i = s.next
    · exact he ▸ Nat.lt_succ_self _
    · exact Nat.lt_succ_of_lt (h.running i (hother i he ▸ hr))
  case tracked =>
    intro i hr
    by_cases he : i = s.next
    · exact he ▸ List.mem_cons_self
    · exact List.mem_cons_of_mem _ (h.tracked i (hother i he ▸ hr))
  case discarded =>
    intro i hm
    by_cases he : i = s.next
    · exact .inl (he ▸ hself)
    · rw [hother i he]
      exact h.discarded i ((List.mem_cons.mp hm).resolve_left he)
  case finished =>
    intro i how hm
    obtain ⟨hlt, hr⟩ := h.finished i how (by simpa [Application.schedule] using hm)
    exact ⟨Nat.lt_succ_of_lt hlt, (hother i (Nat.ne_of_lt hlt)).trans hr⟩
  case ends =>
    intro i hi
    by_cases he : i = s.next
    · exact .inl (he ▸ hself)
    · rw [hother i he]
      rcases h.ends i (by simp [Application.schedule] at hi; omega) with hr | ⟨how, hm⟩
      · exact .inl hr
      · exact .inr ⟨how, List.mem_append_left _ hm⟩
  case due =>
    intro i hm
    obtain ⟨hlt, hr⟩ := h.due i hm
    exact ⟨Nat.lt_succ_of_lt hlt, (hother i (Nat.ne_of_lt hlt)).trans hr⟩
  case cancelled => exact fun i hc => List.mem_append_left _ (h.cancelled i hc)

theorem Tasked.finish (h : Tasked es s) {i : Nat} (how : TaskEnd) (hi : s.running i = true) :
    Tasked (es ++ (s.finish i how).2) (s.finish i how).1 := by
  have hother : ∀ j ≠ i, (s.finish i how).1.running j = s.running j := fun j hj =>
    Function.update_of_ne hj ..
  have hself : (s.finish i how).1.running i = false := Function.update_self ..
  have hold : ∀ j, (s.finish i how).1.running j = true → j ≠ i ∧ s.running j = true := by
    intro j hr
    by_cases he : j = i
    · rw [he, hself] at hr
      cases hr
    · exact ⟨he, hother j he ▸ hr⟩
  constructor
  case scheduled =>
    intro j
    simp [Application.finish, h.scheduled j]
  case running => exact fun j hr => h.running j (hold j hr).2
  case tracked => exact fun j hr => h.tracked j (hold j hr).2
  case discarded =>
    intro j hm
    by_cases he : j = i
    · exact .inr (by simp [Application.finish, he])
    · rw [hother j he]
      exact (h.discarded j hm).imp_right fun hc => List.mem_append_left _ hc
  case finished =>
    intro j how' hm
    by_cases he : j = i
    · exact ⟨he ▸ h.running i hi, he ▸ hself⟩
    · rw [hother j he]
      exact h.finished j how' (by simpa [Application.finish, he] using hm)
  case ends =>
    intro j hj
    by_cases he : j = i
    · exact .inr ⟨how, by simp [Application.finish, he]⟩
    · rw [hother j he]
      exact (h.ends j hj).imp_right fun ⟨how', hm⟩ => ⟨how', List.mem_append_left _ hm⟩
  case due =>
    intro j hm
    by_cases he : j = i
    · exact ⟨he ▸ h.running i hi, he ▸ hself⟩
    · rw [hother j he]
      exact h.due j (by simpa [Application.finish, he] using hm)
  case cancelled => exact fun j hc => List.mem_append_left _ (h.cancelled j hc)

/-- The callback of a task that is over. -/
theorem Tasked.discard (h : Tasked es s) {i : Nat} {rest : List Nat}
    (hc : s.callbacks = i :: rest) :
    Tasked es { s with callbacks := rest, tracked := s.tracked.filter (· != i) } := by
  have hi := (h.due i (by simp [hc])).2
  refine ⟨h.scheduled, h.running, fun j hr => ?_, fun j hm => ?_, h.finished, h.ends,
    fun j hm => h.due j (by simp [hc, hm]), h.cancelled⟩
  · have hne : j ≠ i := by
      rintro rfl
      rw [hi] at hr
      cases hr
    simpa [hne] using h.tracked j hr
  · obtain ⟨hm, hne⟩ : j ∈ s.tracked ∧ j ≠ i := by simpa using hm
    refine (h.discarded j hm).imp_right fun hj => ?_
    simpa [hc, hne] using hj

theorem tasked_step (h : Tasked es s) (hw : AppWay s s' fs) : Tasked (es ++ fs) s' := by
  cases hw with
  | schedules => exact h.schedule
  | finishes i how hi _ => exact h.finish how hi
  | discards i rest hc => exact (List.append_nil es).symm ▸ h.discard hc
  | expires pending hd =>
    refine h.same rfl rfl rfl rfl (fun i hc => ?_) (by simp [TaskQuiet])
    rcases Bool.or_eq_true_iff.mp hc with hc | hc
    · exact .inl hc
    · exact .inr (by simpa using hc)
  | returns =>
    exact h.same rfl rfl rfl rfl (fun _ => .inl) (by simp [TaskQuiet, Application.endDrain])
  | _ => exact h.same rfl rfl rfl rfl (fun _ => .inl) (by simp [TaskQuiet])

theorem tasked (hr : application.Run C n es s) : Tasked es s := by
  refine hr.inv (I := Tasked) (fun s hi => ?_) fun _ _ _ _ _ _ _ h _ hs =>
    tasked_step h (application_step hs)
  refine ⟨by simp [hi.next], ?_, ?_, by simp [hi.tracked], by simp, by simp [hi.next],
    by simp [hi.callbacks], ?_⟩
  · intro i hr
    rw [hi.running i] at hr
    cases hr
  · intro i hr
    rw [hi.running i] at hr
    cases hr
  · intro i hc
    rw [hi.cancelling i] at hc
    cases hc

/-! ## The exit stack -/

def AppEvent.opens : AppEvent → Option Resource
  | .registered r => some r
  | _ => none

def AppEvent.shuts : AppEvent → Option Resource
  | .closed r => some r
  | _ => none

/-- The resources that are registered, in their order. -/
def registers (es : List AppEvent) : List Resource := es.filterMap AppEvent.opens

/-- The resources that are closed, in their order. -/
def closes (es : List AppEvent) : List Resource := es.filterMap AppEvent.shuts

theorem registers_append (es fs : List AppEvent) :
    registers (es ++ fs) = registers es ++ registers fs :=
  List.filterMap_append

theorem closes_append (es fs : List AppEvent) : closes (es ++ fs) = closes es ++ closes fs :=
  List.filterMap_append

/-- The exit stack after a log. -/
structure Stacked (es : List AppEvent) (s : Application) : Prop where
  todo : ∀ todo, s.phase = .starting todo → todo ∈ startup.tails
  idle : ∀ todo, s.phase = .starting todo → s.drain = .idle ∧ closes es = []
  /-- The runner is the last resource. -/
  last : .runner ∈ registers es → ∀ todo, s.phase = .starting todo → todo = []
  first : .runner ∈ registers es → .draining ∉ es → ∃ rest, s.stack = .runner :: rest
  top : s.drain ≠ .idle → .draining ∈ es ∧ (∃ rest, s.stack = .runner :: rest) ∧
    ∃ served, s.phase = .stopping served
  stack : closes es ++ s.stack = (registers es).reverse
  ended : .stopped ∈ es → s.phase = .stopped ∧ s.stack = []

/-- What is left of the startup before and after one of its steps. -/
theorem tail_startup {step : Startup} {todo : List Startup} (h : step :: todo ∈ startup.tails) :
    todo ∈ startup.tails ∧ (step = .register .runner → todo = []) := by
  have hcheck : ∀ l ∈ startup.tails, l.tail ∈ startup.tails ∧
      (l.head? = some (.register .runner) → l.tail = []) := by decide
  obtain ⟨hmem, hlast⟩ := hcheck _ h
  exact ⟨hmem, fun he => hlast (by simp [he])⟩

/-- The events open and close nothing. -/
def StackQuiet (fs : List AppEvent) : Prop :=
  registers fs = [] ∧ closes fs = [] ∧ .stopped ∉ fs

/-- The exit stack is what was registered, less what was closed. -/
theorem Stacked.stack_quiet (h : Stacked es s) (hregisters : registers fs = [])
    (hcloses : closes fs = []) : closes (es ++ fs) ++ s.stack = (registers (es ++ fs)).reverse := by
  rw [closes_append, registers_append, hregisters, hcloses, List.append_nil, List.append_nil]
  exact h.stack

/-- The runner's exit is the first one. -/
theorem Stacked.first_quiet (h : Stacked es s) (hregisters : registers fs = [])
    (hr : .runner ∈ registers (es ++ fs)) (hd : .draining ∉ es ++ fs) :
    ∃ rest, s.stack = .runner :: rest := by
  rw [registers_append, hregisters, List.append_nil] at hr
  exact h.first hr fun hm => hd (List.mem_append_left _ hm)

/-- The top of the stack is closed. -/
theorem Stacked.stack_closes {r : Resource} {rest : List Resource} (h : Stacked es s)
    (hs : s.stack = r :: rest) (hregisters : registers fs = []) (hcloses : closes fs = [r]) :
    closes (es ++ fs) ++ rest = (registers (es ++ fs)).reverse := by
  rw [closes_append, registers_append, hregisters, hcloses, List.append_nil, ← h.stack, hs,
    List.append_assoc]
  rfl

/-- A step that leaves the exit stack alone. -/
theorem Stacked.same (h : Stacked es s) (hphase : s'.phase = s.phase) (hdrain : s'.drain = s.drain)
    (hstack : s'.stack = s.stack) (hfs : StackQuiet fs) : Stacked (es ++ fs) s' := by
  obtain ⟨hregisters, hcloses, hstopped⟩ := hfs
  refine ⟨?_, ?_, ?_, ?_, ?_, ?_, ?_⟩
  · rw [hphase]
    exact h.todo
  · rw [hphase, hdrain, closes_append, hcloses, List.append_nil]
    exact h.idle
  · rw [hphase, registers_append, hregisters, List.append_nil]
    exact h.last
  · rw [hstack]
    exact h.first_quiet hregisters
  · rw [hphase, hdrain, hstack]
    exact fun hd => (h.top hd).imp_left (List.mem_append_left _)
  · rw [hstack]
    exact h.stack_quiet hregisters hcloses
  · rw [hphase, hstack]
    exact fun hm => h.ended ((List.mem_append.mp hm).resolve_right hstopped)

/-- The events of the cancelled tasks. -/
theorem closes_cancelled (is : List Nat) : closes (is.map .cancelled) = [] := by
  rw [closes, List.filterMap_map]
  exact List.filterMap_eq_nil_iff.mpr fun _ _ => rfl

theorem registers_cancelled (is : List Nat) : registers (is.map .cancelled) = [] := by
  rw [registers, List.filterMap_map]
  exact List.filterMap_eq_nil_iff.mpr fun _ _ => rfl

theorem stacked_step (h : Stacked es s) (hw : AppWay s s' fs) : Stacked (es ++ fs) s' := by
  have hended : ∀ {P : Prop}, s.phase ≠ .stopped → .stopped ∈ es → P := fun hp hm =>
    absurd (h.ended hm).1 hp
  cases hw with
  | begins hp =>
    rw [List.append_nil]
    refine ⟨by simp, by simp, by simp, h.first, fun hd => absurd (h.idle _ hp).1 hd, h.stack,
      hended (by simp [hp])⟩
  | calls name todo hp =>
    rw [List.append_nil]
    refine ⟨fun todo' he => ?_, fun _ _ => h.idle _ hp, fun hr => ?_, h.first,
      fun hd => absurd (h.idle _ hp).1 hd, h.stack, hended (by simp [hp])⟩
    · obtain rfl := Stage.starting.inj he
      exact (tail_startup (h.todo _ hp)).1
    · cases h.last hr _ hp
  | fails name todo hp =>
    exact ⟨by simp, by simp, by simp, h.first_quiet rfl, fun hd => absurd (h.idle _ hp).1 hd,
      h.stack_quiet rfl rfl, fun hm => hended (by simp [hp]) (by simpa using hm)⟩
  | registers r todo hp =>
    obtain ⟨hidle, hnone⟩ := h.idle _ hp
    obtain ⟨hmem, hlast⟩ := tail_startup (h.todo _ hp)
    have hstack : s.stack = (registers es).reverse := by
      rw [← h.stack, hnone, List.nil_append]
    have hopens : registers [.registered r] = [r] := rfl
    have hshuts : closes [.registered r] = [] := rfl
    have hrunner : .runner ∈ registers (es ++ [.registered r]) → r = .runner := by
      intro hr
      rw [registers_append, hopens] at hr
      rcases List.mem_append.mp hr with hr | hr
      · cases h.last hr _ hp
      · exact (List.mem_singleton.mp hr).symm
    refine ⟨fun todo' he => ?_, fun _ _ => ⟨hidle, ?_⟩, fun hr todo' he => ?_, fun hr _ => ?_,
      fun hd => absurd hidle hd, ?_, fun hm => hended (by simp [hp]) (by simpa using hm)⟩
    · obtain rfl := Stage.starting.inj he
      exact hmem
    · rw [closes_append, hnone, hshuts]
      rfl
    · obtain rfl := Stage.starting.inj he
      exact hlast (by rw [hrunner hr])
    · exact ⟨s.stack, by rw [hrunner hr]⟩
    · rw [closes_append, registers_append, hnone, hstack, hopens, hshuts]
      simp
  | schedules => exact h.same rfl rfl rfl ⟨rfl, rfl, by simp [Application.schedule]⟩
  | works i hi => exact h.same rfl rfl rfl ⟨rfl, rfl, by simp⟩
  | finishes i how hi hc => exact h.same rfl rfl rfl ⟨rfl, rfl, by simp [Application.finish]⟩
  | discards => exact h.same rfl rfl rfl ⟨rfl, rfl, List.not_mem_nil⟩
  | stops hp =>
    refine ⟨by simp, by simp, by simp, h.first_quiet rfl, fun hd => ?_, h.stack_quiet rfl rfl,
      fun hm => hended (by simp [hp]) (by simpa using hm)⟩
    obtain ⟨-, -, served, hs⟩ := h.top hd
    rw [hp] at hs
    cases hs
  | ends served hp hd hs =>
    exact ⟨by simp, by simp, by simp, h.first_quiet rfl, fun hne => absurd hd hne,
      h.stack_quiet rfl rfl, fun _ => ⟨rfl, hs⟩⟩
  | closes served r rest hp hd hs hr =>
    refine ⟨by simp [hp], by simp [hp], by simp [hp], fun hrunner hnot => ?_,
      fun hne => absurd hd hne, h.stack_closes hs rfl rfl,
      fun hm => hended (by simp [hp]) (by simpa using hm)⟩
    obtain ⟨rest', hs'⟩ := h.first_quiet rfl hrunner hnot
    rw [hs] at hs'
    exact absurd (List.cons.inj hs').1 hr
  | drains served rest hp hd hs =>
    exact ⟨by simp [hp], by simp [hp], by simp [hp], by simp,
      fun _ => ⟨by simp, ⟨rest, hs⟩, served, hp⟩, h.stack_quiet rfl rfl,
      fun hm => hended (by simp [hp]) (by simpa using hm)⟩
  | drained served rest hp hd hs ht =>
    exact ⟨by simp [hp], by simp [hp], by simp [hp], by simp, fun hne => absurd hd hne,
      h.stack_closes hs rfl rfl, fun hm => hended (by simp [hp]) (by simpa using hm)⟩
  | expires pending hd =>
    obtain ⟨hm, htop, served, hp⟩ := h.top (by simp [hd])
    exact ⟨by simp [hp], by simp [hp], by simp [hp], by simp [hm],
      fun _ => ⟨List.mem_append_left _ hm, htop, served, hp⟩,
      h.stack_quiet (registers_cancelled _) (closes_cancelled _),
      fun hm' => hended (by simp [hp]) (by simpa using hm')⟩
  | returns pending hd =>
    obtain ⟨hm, ⟨rest, hs⟩, served, hp⟩ := h.top (by rcases hd with hd | hd <;> simp [hd])
    have hp' : s.endDrain.1.phase = .stopping served := hp
    have hs' : s.endDrain.1.stack = rest := by simp [Application.endDrain, hs]
    refine ⟨by simp [hp'], by simp [hp'], by simp [hp'], by simp [hm],
      fun hne => absurd rfl hne, ?_,
      fun hm' => hended (by simp [hp]) (by simpa [Application.endDrain] using hm')⟩
    rw [hs']
    exact h.stack_closes hs rfl rfl

theorem stacked (hr : application.Run C n es s) : Stacked es s := by
  refine hr.inv (I := Stacked) (fun s hi => ?_) fun _ _ _ _ _ _ _ h _ hs =>
    stacked_step h (application_step hs)
  refine ⟨fun todo hp => ?_, fun _ _ => ⟨hi.drain, rfl⟩, by simp [registers], by simp [registers],
    fun hd => absurd hi.drain hd, ?_, by simp⟩
  · rw [hi.phase] at hp
    obtain rfl := Stage.starting.inj hp
    decide
  · simp [registers, closes, hi.stack]

/-! ## The shutdown -/

/-- A task that was scheduled before the drain, and that still runs, is waited for. -/
def Drained (es : List AppEvent) (s : Application) : Prop :=
  ∀ pre post, es = pre ++ .draining :: post → ∀ i, .scheduled i ∈ pre → s.running i = true →
    ∃ pending, (s.drain = .waiting pending ∨ s.drain = .gathering pending) ∧ i ∈ pending

/-- While the runner's exit is not called, or after it, no such task runs. -/
theorem Drained.idle {pre post : List AppEvent} {i : Nat} (h : Drained es s)
    (hd : s.drain = .idle) (he : es = pre ++ .draining :: post) (hi : .scheduled i ∈ pre) :
    s.running i = false := by
  refine Bool.not_eq_true _ ▸ fun hr => ?_
  obtain ⟨pending, hp | hp, -⟩ := h pre post he i hi hr <;>
  · rw [hd] at hp
    cases hp

/-- A step that starts no drain and does not end one. -/
theorem Drained.same (h : Drained es s) (hd : s'.drain = s.drain) (hfs : .draining ∉ fs)
    (hr : ∀ i, .scheduled i ∈ es → s'.running i = true → s.running i = true) :
    Drained (es ++ fs) s' := by
  intro pre post he i hi hrun
  rcases Sys.split_append he with ⟨post', rfl, -⟩ | ⟨fs₁, rfl, -⟩
  · rw [hd]
    exact h pre post' rfl i hi (hr i (List.mem_append_left _ hi) hrun)
  · simp at hfs

theorem drained_step (ht : Tasked es s) (h : Drained es s) (hw : AppWay s s' fs) :
    Drained (es ++ fs) s' := by
  cases hw with
  | schedules =>
    refine h.same rfl (by simp [Application.schedule]) fun i hi hr => ?_
    have hne : i ≠ s.next := Nat.ne_of_lt ((ht.scheduled i).mp hi)
    simpa [Application.schedule, hne] using hr
  | finishes i how hi hc =>
    refine h.same rfl (by simp [Application.finish]) fun j _ hr => ?_
    by_cases he : j = i
    · simp [Application.finish, he] at hr
    · simpa [Application.finish, he] using hr
  | drains served rest hp hd hs =>
    intro pre post he i hi hr
    exact ⟨s.tracked, .inl rfl, ht.tracked i hr⟩
  | drained served rest hp hd hs hnone =>
    intro pre post he i hi hr
    have hm := ht.tracked i hr
    rw [hnone] at hm
    cases hm
  | expires pending hd =>
    intro pre post he i hi hr
    refine ⟨_, .inr rfl, ?_⟩
    rcases Sys.split_append he with ⟨post', rfl, -⟩ | ⟨fs₁, hfs, -⟩
    · obtain ⟨pending', hd', hm⟩ := h pre post' rfl i hi hr
      rw [hd] at hd'
      obtain rfl := Drain.waiting.inj (hd'.resolve_right Drain.noConfusion)
      exact List.mem_filter.mpr ⟨hm, hr⟩
    · have hm : AppEvent.draining ∈ .expired :: (pending.filter s.running).map .cancelled := by
        simp [hfs]
      simp at hm
  | returns pending hd hnone =>
    intro pre post he i hi hr
    rcases Sys.split_append he with ⟨post', rfl, -⟩ | ⟨fs₁, hfs, -⟩
    · obtain ⟨pending', hd', hm⟩ := h pre post' rfl i hi hr
      have hsame : pending' = pending := by
        rcases hd with hd | hd <;> rw [hd] at hd' <;> simpa [eq_comm] using hd'
      have hover := hnone i (hsame ▸ hm)
      exact absurd (hover.symm.trans hr) Bool.false_ne_true
    · have hm : AppEvent.draining ∈ s.endDrain.2 := by
        rw [hfs]
        simp
      simp [Application.endDrain] at hm
  | _ => exact h.same rfl (by simp) fun _ _ hr => hr

theorem drained_run (hr : application.Run C n es s) : Drained es s :=
  hr.inv (I := Drained) (fun _ _ _ _ he => by simp at he) fun _ _ _ _ _ _ hr h _ hs =>
    drained_step (tasked hr) h (application_step hs)

/-- What holds when a resource is closed. -/
structure Shut (es : List AppEvent) (s : Application) : Prop where
  first : ∀ pre r post, es = pre ++ .closed r :: post → .runner ∈ registers es → .draining ∈ pre
  finished : ∀ pre mid r post, es = (pre ++ .draining :: mid) ++ .closed r :: post →
    ∀ i, .scheduled i ∈ pre → (∃ how, .ended i how ∈ pre ++ mid) ∧ .worked i ∉ post
  cancelled : ∀ i, .cancelled i ∈ es → .expired ∈ es
  expired : ∀ pre i post, es = pre ++ .ended i .cancelled :: post → .expired ∈ pre

/-- What a step that closes a resource does. -/
theorem close_step {pre post : List AppEvent} {r : Resource} (hst : Stacked es s)
    (hw : AppWay s s' fs) (he : fs = pre ++ .closed r :: post) :
    s'.drain = .idle ∧ post = [] ∧
      (.runner ∈ registers (es ++ fs) → .draining ∈ es ++ pre) := by
  have hmem : .closed r ∈ fs := by simp [he]
  cases hw with
  | closes served r' rest hp hd hs hr =>
    obtain ⟨-, htail⟩ := (List.append_eq_singleton_iff.mp he.symm).resolve_right (by simp)
    refine ⟨hd, (List.cons.inj htail).2, fun hrunner => ?_⟩
    -- The exit of the runner is above that of `r'`.
    refine List.mem_append_left _ (Classical.byContradiction fun hnot => ?_)
    obtain ⟨rest', hs'⟩ := hst.first_quiet rfl hrunner (by simpa using hnot)
    rw [hs] at hs'
    exact hr (List.cons.inj hs').1
  | drained served rest hp hd hs hnone =>
    cases pre with
    | nil => simp at he
    | cons e pre' =>
      obtain ⟨rfl, hrest⟩ := List.cons.inj he
      obtain ⟨-, htail⟩ := (List.append_eq_singleton_iff.mp hrest.symm).resolve_right (by simp)
      exact ⟨hd, (List.cons.inj htail).2, fun _ => by simp⟩
  | returns pending hd hnone =>
    obtain ⟨-, htail⟩ := (List.append_eq_singleton_iff.mp he.symm).resolve_right (by simp)
    obtain ⟨hm, -⟩ := hst.top (by rcases hd with hd | hd <;> simp [hd])
    exact ⟨rfl, (List.cons.inj htail).2, fun _ => List.mem_append_left _ hm⟩
  | schedules => simp [Application.schedule] at hmem
  | finishes => simp [Application.finish] at hmem
  | _ => simp at hmem

/-- No resource is registered once one is closed. -/
theorem registers_step {pre post : List AppEvent} {r : Resource} (hst : Stacked es s)
    (hw : AppWay s s' fs) (he : es = pre ++ .closed r :: post) :
    registers (es ++ fs) = registers es := by
  rw [registers_append, List.append_right_eq_self]
  cases hw with
  | registers r' todo hp =>
    have hnone := (hst.idle _ hp).2
    rw [he, closes_append] at hnone
    exact absurd (List.append_eq_nil_iff.mp hnone).2 (List.cons_ne_nil _ _)
  | expires => exact registers_cancelled _
  | _ => rfl

/-- What a step on a task needs. -/
theorem task_step (hw : AppWay s s' fs) :
    (∀ i, .worked i ∈ fs → s.running i = true) ∧
      (∀ i, .cancelled i ∈ fs → .expired ∈ fs) ∧
      ∀ i, .ended i .cancelled ∈ fs → fs = [.ended i .cancelled] ∧ s.cancelling i = true := by
  cases hw with
  | works i hi => simp [hi]
  | finishes i how hi hc =>
    refine ⟨by simp [Application.finish], by simp [Application.finish], fun j hj => ?_⟩
    obtain ⟨rfl, rfl⟩ : j = i ∧ .cancelled = how := by simpa [Application.finish] using hj
    exact ⟨rfl, hc rfl⟩
  | schedules => simp [Application.schedule]
  | returns => simp [Application.endDrain]
  | _ => simp

theorem shut_step (ht : Tasked es s) (hst : Stacked es s) (ht' : Tasked (es ++ fs) s')
    (hd' : Drained (es ++ fs) s') (h : Shut es s) (hw : AppWay s s' fs) : Shut (es ++ fs) s' := by
  obtain ⟨hworked, hcancelled, hended⟩ := task_step hw
  constructor
  case first =>
    intro pre r post he hr
    rcases Sys.split_append he with ⟨post', rfl, -⟩ | ⟨fs₁, hfs, rfl⟩
    · rw [registers_step hst hw rfl] at hr
      exact h.first pre r post' rfl hr
    · exact (close_step hst hw hfs).2.2 hr
  case finished =>
    intro pre mid r post he i hi
    rcases Sys.split_append he with ⟨post', rfl, rfl⟩ | ⟨fs₁, hfs, hpre⟩
    · obtain ⟨⟨how, hm⟩, hpost⟩ := h.finished pre mid r post' rfl i hi
      refine ⟨⟨how, hm⟩, fun hmem => ?_⟩
      rcases List.mem_append.mp hmem with hmem | hmem
      · exact hpost hmem
      · -- The task is over, so that it does not work.
        have hover := (ht.finished i how (by simp at hm ⊢; tauto)).2
        exact Bool.false_ne_true (hover.symm.trans (hworked i hmem))
    · obtain ⟨hidle, rfl, -⟩ := close_step hst hw hfs
      have hlog : es ++ fs = pre ++ .draining :: (mid ++ [.closed r]) := by
        rw [he]
        simp
      have hnot := hd'.idle hidle hlog hi
      have hlt := (ht'.scheduled i).mp (by rw [hlog]; exact List.mem_append_left _ hi)
      obtain ⟨how, hm⟩ := (ht'.ends i hlt).resolve_left (by simp [hnot])
      rw [hlog] at hm
      exact ⟨⟨how, by simpa using hm⟩, List.not_mem_nil⟩
  case cancelled =>
    intro i hm
    rcases List.mem_append.mp hm with hm | hm
    · exact List.mem_append_left _ (h.cancelled i hm)
    · exact List.mem_append_right _ (hcancelled i hm)
  case expired =>
    intro pre i post he
    rcases Sys.split_append he with ⟨post', rfl, -⟩ | ⟨fs₁, hfs, rfl⟩
    · exact h.expired pre i post' rfl
    · obtain ⟨-, hcan⟩ := hended i (by simp [hfs])
      exact List.mem_append_left _ (h.cancelled i (ht.cancelled i hcan))

theorem shut (hr : application.Run C n es s) : Shut es s := by
  refine hr.inv (I := Shut) (fun _ _ => ⟨by simp, by simp, by simp, by simp⟩)
    fun n es s a s' fs hr h hc hs => ?_
  have hr' := Sys.Run.step a hr hc hs
  exact shut_step (tasked hr) (stacked hr) (tasked hr') (drained_run hr') h (application_step hs)

end steps

/-! ## Use after close -/

/-- How the application is taken down. -/
structure TakenDown (es : List AppEvent) (s : Application) : Prop where
  /-- The resources are closed in reverse, each once. -/
  reverse : closes es <+: (registers es).reverse
  /-- The startup may have failed: what it registered is closed all the same. -/
  all : .stopped ∈ es → closes es = (registers es).reverse
  /-- When there is a runner, its tasks are drained before any resource is closed. -/
  first : ∀ pre r post, es = pre ++ .closed r :: post → .runner ∈ registers es → .draining ∈ pre
  /-- A task that was scheduled before the drain is over when a resource is closed after it. -/
  finished : ∀ pre mid r post, es = (pre ++ .draining :: mid) ++ .closed r :: post →
    ∀ i, .scheduled i ∈ pre → (∃ how, .ended i how ∈ pre ++ mid) ∧ .worked i ∉ post
  /-- A task is cancelled after the timeout only. -/
  expired : ∀ pre i post, es = pre ++ .ended i .cancelled :: post → .expired ∈ pre
  /-- The tasks that are kept are those that run, when the callbacks have been called. -/
  kept : s.callbacks = [] → ∀ i, i ∈ s.tracked ↔ s.running i = true

/-- No task of the runner uses a resource that has been closed, when it was scheduled before the
shutdown took the tasks that it waits for. -/
theorem closed_after_tasks {n : Nat} {es : List AppEvent} {s : Application}
    (hr : application.Run Sys.anyStep n es s) : TakenDown es s := by
  have hst := stacked hr
  have ht := tasked hr
  have hsh := shut hr
  refine ⟨⟨s.stack, hst.stack⟩, fun hm => ?_, hsh.first, hsh.finished, hsh.expired, fun hc i =>
    ⟨fun hi => ?_, ht.tracked i⟩⟩
  · rw [← hst.stack, (hst.ended hm).2, List.append_nil]
  · exact (ht.discarded i hi).resolve_right (by simp [hc])

/-- The application starts, two incidents are scheduled, and one of them is cancelled. -/
def takeDown : List AppLabel :=
  List.replicate 21 (.start true) ++ [.schedule, .schedule, .work 0, .finish 0 .returned, .callback,
    .stop, .work 1, .close, .expire, .finish 1 .cancelled, .wake, .callback] ++
    List.replicate 6 .close

def newApplication : Application :=
  ⟨.starting startup, [], 0, fun _ => false, fun _ => false, [], [], .idle⟩

theorem newApplication_init : application.init newApplication :=
  ⟨rfl, rfl, rfl, fun _ => rfl, fun _ => rfl, rfl, rfl, rfl⟩

/-- The log of `takeDown`. -/
def takenDownLog : List AppEvent :=
  [.registered .telemetry, .registered .pgPool, .registered .valkeyClient,
    .registered .openobserveClient, .registered .checkpointer, .registered .runner,
    .scheduled 0, .scheduled 1, .worked 0, .ended 0 .returned, .stopping, .worked 1, .draining,
    .expired, .cancelled 1, .ended 1 .cancelled, .closed .runner, .closed .checkpointer,
    .closed .openobserveClient, .closed .valkeyClient, .closed .pgPool, .closed .telemetry,
    .stopped]

theorem takeDown_exec :
    ((application.exec newApplication takeDown).any fun r => r.2 == takenDownLog) = true := by
  decide +kernel

/-- The run of `takeDown`. -/
theorem closed_after_tasks_takeDown : ∃ s, TakenDown takenDownLog s := by
  obtain ⟨s, es, hr, he⟩ := Sys.exists_any_run newApplication_init takeDown_exec
  obtain rfl := eq_of_beq he
  exact ⟨s, closed_after_tasks hr⟩

end Api
end AutoSRE

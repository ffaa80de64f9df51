import AutoSRE.Api.Runner
import AutoSRE.Core.Gate

/-!
# Concurrent approvals of an incident (`approve_incident`)

- **Requests** (`stepApprovals`). A request reads the state of the thread across an `await`, and
  decides later, from what it read; when it is accepted, a task is scheduled that resumes the
  thread. The steps of several requests, of the tasks and of the stream interleave.
- **One decision** (`OneDecision`). A request is accepted only while the thread waits at an
  interrupt for which no other one was accepted.
- **The open interrupt** (`OneOpen`). It is kept when a request that finds the thread awaiting an
  approval reads it at an interrupt that no other request has read or decided (`ReadsAlone`,
  `one_decision`). Otherwise an approval and a denial are both accepted (`both_accepted`).
-/

namespace AutoSRE
namespace Api

open Lib Py Safety Tools AutoSRE.Core

/-! ## Requests -/

/-- The decision of a request. -/
structure ApprovalRequest where
  approved : Bool
  comment : String

/-- The value with which the thread is resumed. -/
def ApprovalRequest.resumeValue (r : ApprovalRequest) : Json :=
  .obj [("approved", .bool r.approved), ("comment", .str r.comment)]

/-- What an incident logs. -/
inductive ApprovalEvent where
  | graph (e : Event)
  /-- What `approve_incident` returns; an accepted request has scheduled its task. -/
  | answered (request : ApprovalRequest) (accepted : Bool)

/-- A request that has read the state. -/
structure Reader where
  request : ApprovalRequest
  values : AgentState

/-- An incident with its requests. -/
structure Approvals where
  thread : Thread
  readers : List Reader
  /-- The tasks that have not resumed the thread yet. -/
  scheduled : List ApprovalRequest
  /-- A request was accepted after the last interrupt; the code does not know it. -/
  decided : Bool

/-- A step of an incident or of one of its requests. -/
inductive ApprovalStep where
  | stream (env : NodeEnv)
  /-- A request gets the state, or there is none. -/
  | read (request : ApprovalRequest) (found : Bool)
  /-- A request checks what it read. -/
  | decide (i : Nat)
  /-- A task resumes the thread. -/
  | resume (i : Nat) (env : NodeEnv)
  /-- A task fails before it resumes the thread. -/
  | fail (i : Nat)

/-- After a step of the thread. -/
def Approvals.afterGraph (s : Approvals) (r : Thread × List Event) :
    Approvals × List ApprovalEvent :=
  ({ s with thread := r.1, decided := s.decided && !r.2.any Event.isInterrupt }, r.2.map .graph)

/-- The step of a label. -/
def stepApprovals (ctx : GraphContext) (s : Approvals) :
    ApprovalStep → Option (Approvals × List ApprovalEvent)
  | .stream env => (stepThread ctx s.thread (.run env)).map s.afterGraph
  | .read request found =>
    if found then
      some ({ s with readers := s.readers ++ [{ request, values := s.thread.values }] }, [])
    else some (s, [.answered request false])
  | .decide i =>
    match s.readers[i]? with
    | none => none
    | some r =>
      let readers := s.readers.eraseIdx i
      if awaitsApproval r.values then
        some ({ s with readers, scheduled := s.scheduled ++ [r.request], decided := true },
          [.answered r.request true])
      else some ({ s with readers }, [.answered r.request false])
  | .resume i env =>
    match s.scheduled[i]? with
    | none => none
    | some request =>
      let scheduled := s.scheduled.eraseIdx i
      (stepThread ctx s.thread (.resume request.resumeValue env none)).map
        { s with scheduled }.afterGraph
  | .fail i =>
    if i < s.scheduled.length then some ({ s with scheduled := s.scheduled.eraseIdx i }, [])
    else none

/-- A new incident without requests. -/
def NewApprovals (s : Approvals) : Prop :=
  Prepared s.thread ∧ s.readers = [] ∧ s.scheduled = [] ∧ s.decided = false

/-- An incident with concurrent requests. -/
def approvals (ctx : GraphContext) : Sys Approvals ApprovalStep ApprovalEvent where
  init := NewApprovals
  step := stepApprovals ctx

/-- The log ends with an interrupt, and only refusals after it. -/
def Waiting (es : List ApprovalEvent) : Prop :=
  ∃ pre payload mid, es = pre ++ .graph (.interrupt payload) :: mid ∧
    ∀ e ∈ mid, ∃ request, e = .answered request false

/-- A request is accepted only at an interrupt for which no other one was accepted, and the thread
is resumed only with the decision of an accepted request. -/
structure OneDecision (es : List ApprovalEvent) : Prop where
  accepted : ∀ pre request post, es = pre ++ .answered request true :: post → Waiting pre
  resumed : ∀ pre decision post, es = pre ++ .graph (.resumed decision) :: post →
    ∃ request, decision = request.resumeValue ∧ .answered request true ∈ pre

/-! ## The condition -/

/-- The requests whose state awaits an approval. -/
def awaiting (readers : List Reader) : Nat := readers.countP fun r => awaitsApproval r.values

/-- The thread is at an interrupt, and no request was accepted for it. -/
def Approvals.Open (s : Approvals) : Prop := s.thread.next = .paused ∧ s.decided = false

/-- A request that finds the thread awaiting an approval reads it at an interrupt for which no
request was accepted, when no other request that found it so is still to decide. -/
def ReadsAlone (s : Approvals) (a : ApprovalStep) : Prop :=
  ∀ request, a = .read request true → awaitsApproval s.thread.values = true →
    s.Open ∧ awaiting s.readers = 0

variable {ctx : GraphContext} {s s' : Approvals} {a : ApprovalStep} {fs : List ApprovalEvent}

/-! ## Steps -/

variable (ctx) in
/-- What a step does. -/
inductive ApprovalWay (s : Approvals) (a : ApprovalStep) : Approvals → List ApprovalEvent → Prop
  | streamed (env : NodeEnv) (t' : Thread) (gs : List Event) :
      (graph ctx).step s.thread (.run env) = some (t', gs) →
      ApprovalWay s a (s.afterGraph (t', gs)).1 (gs.map .graph)
  | missed (request : ApprovalRequest) : ApprovalWay s a s [.answered request false]
  | read (request : ApprovalRequest) : a = .read request true →
      ApprovalWay s a { s with readers := s.readers ++ [⟨request, s.thread.values⟩] } []
  | accepted (ys zs : List Reader) (r : Reader) : s.readers = ys ++ r :: zs →
      awaitsApproval r.values = true →
      ApprovalWay s a
        { s with readers := ys ++ zs, scheduled := s.scheduled ++ [r.request], decided := true }
        [.answered r.request true]
  | refused (ys zs : List Reader) (r : Reader) : s.readers = ys ++ r :: zs →
      awaitsApproval r.values = false →
      ApprovalWay s a { s with readers := ys ++ zs } [.answered r.request false]
  | resumed (ys zs : List ApprovalRequest) (request : ApprovalRequest) (env : NodeEnv)
      (t' : Thread) (gs : List Event) : s.scheduled = ys ++ request :: zs →
      (graph ctx).step s.thread (.resume request.resumeValue env none) = some (t', gs) →
      ApprovalWay s a ({ s with scheduled := ys ++ zs }.afterGraph (t', gs)).1 (gs.map .graph)
  | failed (ys zs : List ApprovalRequest) (request : ApprovalRequest) :
      s.scheduled = ys ++ request :: zs → ApprovalWay s a { s with scheduled := ys ++ zs } []

theorem approvals_step (h : (approvals ctx).step s a = some (s', fs)) :
    ApprovalWay ctx s a s' fs := by
  simp only [approvals] at h
  cases a with
  | stream env =>
    obtain ⟨⟨t', gs⟩, hstep, he⟩ := Option.map_eq_some_iff.mp h
    obtain ⟨rfl, rfl⟩ := Prod.mk.inj he
    exact .streamed env t' gs hstep
  | read request found =>
    cases found with
    | true =>
      obtain ⟨rfl, rfl⟩ := Prod.mk.inj (Option.some.inj h)
      exact .read request rfl
    | false =>
      obtain ⟨rfl, rfl⟩ := Prod.mk.inj (Option.some.inj h)
      exact .missed request
  | decide i =>
    simp only [stepApprovals] at h
    split at h
    · cases h
    · rename_i r hr
      obtain ⟨ys, zs, hs, he, -⟩ := Sys.around_getElem? hr
      rw [he] at h
      split at h
      · rename_i hawait
        obtain ⟨rfl, rfl⟩ := Prod.mk.inj (Option.some.inj h)
        exact .accepted ys zs r hs hawait
      · rename_i hawait
        obtain ⟨rfl, rfl⟩ := Prod.mk.inj (Option.some.inj h)
        exact .refused ys zs r hs (by simpa using hawait)
  | resume i env =>
    simp only [stepApprovals] at h
    split at h
    · cases h
    · rename_i request hr
      obtain ⟨ys, zs, hs, he, -⟩ := Sys.around_getElem? hr
      rw [he] at h
      obtain ⟨⟨t', gs⟩, hstep, he⟩ := Option.map_eq_some_iff.mp h
      obtain ⟨rfl, rfl⟩ := Prod.mk.inj he
      exact .resumed ys zs request env t' gs hs hstep
  | fail i =>
    simp only [stepApprovals] at h
    split at h
    · rename_i hi
      obtain ⟨ys, zs, hs, he, -⟩ := Sys.around_getElem? (List.getElem?_eq_getElem hi)
      rw [he] at h
      obtain ⟨rfl, rfl⟩ := Prod.mk.inj (Option.some.inj h)
      exact .failed ys zs _ hs
    · cases h

/-! ## Interrupts -/

/-- Only an interrupt pauses a thread. -/
theorem interrupt_of_paused {t t' : Thread} {b : Label} {gs : List Event}
    (h : (graph ctx).step t b = some (t', gs)) (hp : t'.next = .paused) :
    ∃ payload, gs = [.node .approve, .interrupt payload] := by
  have hplace : t'.next.place = .approving := by rw [hp]; rfl
  cases step_gate h with
  | interrupted p ps _ _ _ _ => exact ⟨_, rfl⟩
  | ended he _ _ | searched _ he _ _ =>
    rw [he] at hplace
    cases hplace
  | proposed _ _ _ _ _ _ _ _ _ _ _ _ _ _ _ _ _ _ hn | requested _ _ _ _ hn | passed _ _ _ _ hn
  | approved _ _ _ _ _ _ _ hn | refused _ _ _ hn | called _ _ _ _ _ _ _ _ _ _ hn =>
    rw [hn] at hp
    cases hp

/-- A resumption does not pause the thread again, and logs the decision if any. -/
theorem resume_log {t t' : Thread} {decision : Json} {env : NodeEnv} {gs : List Event}
    (h : (graph ctx).step t (.resume decision env none) = some (t', gs)) :
    t'.next ≠ .paused ∧ gs.any Event.isInterrupt = false ∧
      ∀ d, .resumed d ∈ gs → d = decision := by
  obtain ⟨-, hstep⟩ := step_resume h
  obtain ⟨rfl, rfl⟩ := Prod.mk.inj hstep
  have hx := approveNode_exit env t.values (some decision)
  show (settle .approve t.values (approveNode env (some decision) t.values).out).2 ≠ _ ∧
    (.node .approve :: (approveNode env (some decision) t.values).log).any _ = false ∧ ∀ d,
      .resumed d ∈ .node .approve :: (approveNode env (some decision) t.values).log → d = decision
  generalize approveNode env (some decision) t.values = run at hx
  cases hx with
  | interrupted _ _ _ _ _ _ _ hnone => cases hnone
  | approved _ _ _ _ d _ _ _ _ hd _ | rejected _ _ _ _ d _ _ _ _ hd _ =>
    obtain rfl := Option.some.inj hd
    simp [settle, routeAfter, Event.isInterrupt]
  | _ => simp [settle, routeAfter, Event.isInterrupt]

/-- The stream does not log a decision. -/
theorem stream_not_resumed {t t' : Thread} {env : NodeEnv} {gs : List Event}
    (h : (graph ctx).step t (.run env) = some (t', gs)) (d : Json) : .resumed d ∉ gs := by
  intro hm
  obtain ⟨p, -, hstep⟩ := step_run h
  obtain ⟨-, rfl⟩ := Prod.mk.inj hstep
  have hlog : .resumed d ∈ (runNode ctx env none t.metrics p t.values).log := by simpa using hm
  obtain rfl : p = .approve := runNode_source env none t.metrics p t.values _ hlog
  have hx := approveNode_exit env t.values none
  change .resumed d ∈ (approveNode env none t.values).log at hlog
  generalize approveNode env none t.values = run at hx hlog
  cases hx with
  | approved _ _ _ _ _ _ _ _ _ hd _ | rejected _ _ _ _ _ _ _ _ _ hd _ => cases hd
  | _ => simp at hlog

/-! ## The open interrupt -/

/-- Only one request is about to be accepted, and only at an open interrupt; while a task is
scheduled, the thread is at the interrupt that the accepted request decided. -/
structure OneOpen (es : List ApprovalEvent) (s : Approvals) : Prop where
  one : awaiting s.readers ≤ 1
  fresh : 0 < awaiting s.readers → s.Open
  scheduled : s.scheduled ≠ [] → s.thread.next = .paused ∧ s.decided = true
  single : s.scheduled.length ≤ 1
  waiting : s.Open → Waiting es

theorem awaiting_middle (ys zs : List Reader) (r : Reader) :
    awaiting (ys ++ r :: zs) =
      awaiting (ys ++ zs) + if awaitsApproval r.values then 1 else 0 := by
  simp only [awaiting, List.countP_append, List.countP_cons]
  omega

theorem Waiting.refused {es : List ApprovalEvent} (h : Waiting es) (request : ApprovalRequest) :
    Waiting (es ++ [.answered request false]) := by
  obtain ⟨pre, payload, mid, rfl, hmid⟩ := h
  refine ⟨pre, payload, mid ++ [.answered request false], by simp, fun e he => ?_⟩
  rcases List.mem_append.mp he with hm | hm
  · exact hmid e hm
  · exact ⟨request, List.mem_singleton.mp hm⟩

/-- The log of a pause ends with its interrupt. -/
theorem waiting_interrupt (es : List ApprovalEvent) (payload : InterruptPayload) :
    Waiting (es ++ [Event.node .approve, .interrupt payload].map .graph) := by
  refine ⟨es ++ [.graph (.node .approve)], payload, [], ?_, fun e he => by cases he⟩
  rw [List.map_cons, List.map_cons, List.map_nil, List.append_assoc, List.singleton_append]

/-- After an accepted request nothing waits. -/
theorem not_waiting_accepted (es : List ApprovalEvent) (request : ApprovalRequest) :
    ¬ Waiting (es ++ [.answered request true]) := by
  rintro ⟨pre, payload, mid, he, hmid⟩
  rcases List.eq_nil_or_concat mid with rfl | ⟨mid, e, rfl⟩
  · have hlast := congrArg List.getLast? he
    simp at hlast
  · obtain ⟨other, rfl⟩ := hmid e (by simp)
    have he' : es ++ [.answered request true] =
        (pre ++ .graph (.interrupt payload) :: mid) ++ [.answered other false] :=
      he.trans (by simp)
    have hlast := (List.append_inj' he' rfl).2
    simp at hlast

/-- An interrupt that a step of the stream logs is open. -/
theorem OneOpen.stream {es : List ApprovalEvent} {t' : Thread} {gs : List Event} {env : NodeEnv}
    (hi : OneOpen es s) (h : (graph ctx).step s.thread (.run env) = some (t', gs)) :
    OneOpen (es ++ gs.map .graph) (s.afterGraph (t', gs)).1 := by
  obtain ⟨p, hn, -⟩ := step_run h
  have hrun : s.thread.next ≠ .paused := by
    rw [hn]
    nofun
  -- The thread was not paused, so there was no request to accept and no task.
  have hnone : awaiting s.readers = 0 := by
    have := mt hi.fresh fun hopen => hrun hopen.1
    omega
  have hnil : s.scheduled = [] := Classical.byContradiction fun hs => hrun (hi.scheduled hs).1
  refine ⟨hi.one, fun hpos => ?_, fun hs => absurd hnil hs, hi.single, fun hopen => ?_⟩
  · exact absurd hnone (Nat.pos_iff_ne_zero.mp hpos)
  · obtain ⟨payload, hgs⟩ := interrupt_of_paused h hopen.1
    rw [hgs]
    exact waiting_interrupt es payload

/-- A resumption leaves no task and no open interrupt. -/
theorem OneOpen.resume {es : List ApprovalEvent} {t' : Thread} {gs : List Event} {env : NodeEnv}
    {ys zs : List ApprovalRequest} {request : ApprovalRequest} (hi : OneOpen es s)
    (hs : s.scheduled = ys ++ request :: zs)
    (h : (graph ctx).step s.thread (.resume request.resumeValue env none) = some (t', gs)) :
    OneOpen (es ++ gs.map .graph) ({ s with scheduled := ys ++ zs }.afterGraph (t', gs)).1 := by
  obtain ⟨hnext, -, -⟩ := resume_log h
  have hdecided := (hi.scheduled (by simp [hs])).2
  have hnone : awaiting s.readers = 0 := by
    have := mt hi.fresh fun hopen => by simp [hopen.2] at hdecided
    omega
  have hnil : ys ++ zs = [] := by
    have hlen := hi.single
    rw [hs, List.length_append, List.length_cons] at hlen
    apply List.eq_nil_of_length_eq_zero
    rw [List.length_append]
    omega
  refine ⟨hi.one, fun hpos => ?_, fun hne => absurd hnil hne, by simp [Approvals.afterGraph, hnil],
    fun hopen => absurd hopen.1 hnext⟩
  exact absurd hnone (Nat.pos_iff_ne_zero.mp hpos)

/-- At an open interrupt no task is scheduled. -/
theorem OneOpen.no_task {es : List ApprovalEvent} (hi : OneOpen es s) (h : s.Open) :
    s.scheduled = [] := by
  refine Classical.byContradiction fun hne => ?_
  have hdecided := (hi.scheduled hne).2
  rw [h.2] at hdecided
  cases hdecided

/-- A step under the condition keeps the open interrupt. -/
theorem oneOpen_step {es : List ApprovalEvent} (hi : OneOpen es s) (hc : ReadsAlone s a)
    (h : ApprovalWay ctx s a s' fs) : OneOpen (es ++ fs) s' := by
  cases h with
  | streamed env t' gs hstep => exact hi.stream hstep
  | missed request =>
    exact ⟨hi.one, hi.fresh, hi.scheduled, hi.single, fun h => (hi.waiting h).refused request⟩
  | read request ha =>
    rw [List.append_nil]
    obtain ⟨hone, hfresh, hscheduled, hsingle, hwaiting⟩ := hi
    have hcount : awaiting (s.readers ++ [{ request, values := s.thread.values }]) =
        awaiting s.readers + if awaitsApproval s.thread.values then 1 else 0 := by
      simp [awaiting, List.countP_append, List.countP_singleton]
    by_cases hawait : awaitsApproval s.thread.values = true
    · obtain ⟨hopen, hzero⟩ := hc request ha hawait
      rw [if_pos hawait, hzero] at hcount
      exact ⟨hcount.symm ▸ Nat.le_refl 1, fun _ => hopen, hscheduled, hsingle, hwaiting⟩
    · rw [if_neg hawait, Nat.add_zero] at hcount
      exact ⟨hcount.symm ▸ hone, fun hpos => hfresh (hcount ▸ hpos), hscheduled, hsingle, hwaiting⟩
  | accepted ys zs r hs hawait =>
    have hone := hi.one
    have hcount := awaiting_middle ys zs r
    rw [← hs, if_pos hawait] at hcount
    have hopen := hi.fresh (by omega)
    have hnil := hi.no_task hopen
    -- No other request is about to be accepted, and this one's task is the only one.
    have hzero : awaiting (ys ++ zs) = 0 := by omega
    exact ⟨hzero ▸ Nat.zero_le 1, fun hpos => absurd hzero (Nat.pos_iff_ne_zero.mp hpos),
      fun _ => ⟨hopen.1, rfl⟩, by simp [hnil], fun h => nomatch h.2⟩
  | refused ys zs r hs hawait =>
    have hcount := awaiting_middle ys zs r
    rw [← hs, if_neg (by simp [hawait]), Nat.add_zero] at hcount
    exact ⟨hcount ▸ hi.one, fun hpos => hi.fresh (hcount ▸ hpos), hi.scheduled, hi.single,
      fun hopen => (hi.waiting hopen).refused r.request⟩
  | resumed ys zs request env t' gs hs hstep => exact hi.resume hs hstep
  | failed ys zs request hs =>
    rw [List.append_nil]
    have hsingle := hi.single
    rw [hs, List.length_append, List.length_cons] at hsingle
    have hlen : (ys ++ zs).length ≤ 1 := by
      rw [List.length_append]
      omega
    exact ⟨hi.one, hi.fresh, fun _ => hi.scheduled (by simp [hs]), hlen, hi.waiting⟩

theorem oneOpen_run {n : Nat} {es : List ApprovalEvent}
    (hr : (approvals ctx).Run ReadsAlone n es s) : OneOpen es s := by
  refine hr.inv (I := OneOpen) (fun s hi => ?_) fun n es s a s' fs _ hi hc hs =>
    oneOpen_step hi hc (approvals_step hs)
  obtain ⟨⟨metadata, now, ht⟩, hreaders, hscheduled, -⟩ := hi
  have hzero : awaiting s.readers = 0 := by simp [awaiting, hreaders]
  have hrun : s.thread.next ≠ .paused := by
    rw [ht]
    nofun
  exact ⟨by omega, fun hpos => by omega, fun hne => absurd hscheduled hne, by simp [hscheduled],
    fun hopen => absurd hopen.1 hrun⟩

/-- A task is scheduled only for an accepted request. -/
theorem scheduled_accepted {C : Approvals → ApprovalStep → Prop} {n : Nat}
    {es : List ApprovalEvent} (hr : (approvals ctx).Run C n es s) :
    ∀ request ∈ s.scheduled, .answered request true ∈ es := by
  refine hr.inv (I := fun es s => ∀ request ∈ s.scheduled, .answered request true ∈ es)
    (fun s hi => ?_) fun n es s a s' fs _ hi _ hs => ?_
  · simp [hi.2.2.1]
  · intro request hm
    cases approvals_step hs with
    | accepted ys zs r _ _ =>
      rcases List.mem_append.mp hm with hm | hm
      · exact List.mem_append_left _ (hi request hm)
      · obtain rfl := List.mem_singleton.mp hm
        simp
    | resumed ys zs other env t' gs hsch _ | failed ys zs other hsch =>
      exact List.mem_append_left _ (hi request (Sys.mem_of_around hsch hm))
    | _ => exact List.mem_append_left _ (hi request hm)

/-- When a request reads a state that awaits an approval only at an interrupt that no other request
has read or decided, each interrupt has one decision. -/
theorem one_decision {n : Nat} {es : List ApprovalEvent}
    (hr : (approvals ctx).Run ReadsAlone n es s) : OneDecision es := by
  refine ⟨fun pre request post he => ?_, fun pre decision post he => ?_⟩
  · obtain ⟨n₁, es₁, s₁, a, s₂, fs, fs₁, fs₂, hr₁, -, hs, hfs, rfl⟩ := hr.split he
    have hi := oneOpen_run hr₁
    have hm : .answered request true ∈ fs := by simp [hfs]
    cases approvals_step hs with
    | accepted ys zs r hreaders hawait =>
      obtain ⟨rfl, -⟩ : fs₁ = [] ∧ _ := by simpa [List.singleton_eq_append_iff] using hfs
      have hcount := awaiting_middle ys zs r
      rw [← hreaders, if_pos hawait] at hcount
      rw [List.append_nil]
      exact hi.waiting (hi.fresh (by omega))
    | _ => simp at hm
  · obtain ⟨n₁, es₁, s₁, a, s₂, fs, fs₁, fs₂, hr₁, -, hs, hfs, rfl⟩ := hr.split he
    have hm : .graph (.resumed decision) ∈ fs := by simp [hfs]
    cases approvals_step hs with
    | streamed env t' gs hstep =>
      obtain ⟨g, hg, he⟩ := List.mem_map.mp hm
      obtain rfl := ApprovalEvent.graph.inj he
      exact absurd hg (stream_not_resumed hstep decision)
    | resumed ys zs request env t' gs hsch hstep =>
      obtain ⟨g, hg, he⟩ := List.mem_map.mp hm
      obtain rfl := ApprovalEvent.graph.inj he
      obtain rfl := (resume_log hstep).2.2 decision hg
      have hacc := scheduled_accepted hr₁ request (by simp [hsch])
      exact ⟨request, rfl, List.mem_append_left fs₁ hacc⟩
    | _ => simp at hm

/-! ### The sample requests -/

/-- An incident without requests. -/
def newApprovals : Approvals :=
  { thread := newIncident, readers := [], scheduled := [], decided := false }

theorem newApprovals_new : NewApprovals newApprovals := ⟨newIncident_prepared, rfl, rfl, rfl⟩

/-- The thread is at an interrupt. -/
def isPaused : Next → Bool
  | .paused => true
  | _ => false

/-- The step is not the read of a request, or the request reads alone. -/
def checkReads (s : Approvals) : ApprovalStep → Bool
  | .read _ _ => !awaitsApproval s.thread.values ||
    (isPaused s.thread.next && !s.decided && awaiting s.readers == 0)
  | _ => true

theorem readsAlone_of_check (s : Approvals) (a : ApprovalStep) (h : checkReads s a = true) :
    ReadsAlone s a := by
  rintro request rfl hawait
  simp only [checkReads, hawait, Bool.not_true, Bool.false_or, Bool.and_eq_true,
    Bool.not_eq_true', beq_iff_eq] at h
  obtain ⟨⟨hp, hd⟩, hz⟩ := h
  refine ⟨⟨?_, hd⟩, hz⟩
  cases hn : s.thread.next with
  | paused => rfl
  | _ => simp [hn, isPaused] at hp

/-- The log answers a request at a position. -/
def answersAt (k : Nat) (approved accepted : Bool) (es : List ApprovalEvent) : Bool :=
  match es[k]? with
  | some (.answered request given) => request.approved == approved && given == accepted
  | _ => false

theorem split_of_answersAt {k : Nat} {approved accepted : Bool} {es : List ApprovalEvent}
    (h : answersAt k approved accepted es = true) :
    ∃ request, request.approved = approved ∧
      es = es.take k ++ .answered request accepted :: es.drop (k + 1) := by
  unfold answersAt at h
  split at h
  · rename_i request given hk
    obtain ⟨rfl, rfl⟩ : request.approved = approved ∧ given = accepted := by simpa using h
    exact ⟨request, rfl, Sys.split_of_getElem? hk⟩
  · cases h

/-- The steps up to the interrupt of a `flush_all`. -/
def untilInterrupt : List ApprovalStep :=
  List.replicate 6 (.stream (sampleEnv (sampleAnswer "flush_all" 2)))

/-- A denial that is read after the approval was carried out is refused. -/
theorem one_decision_flushAll :
    ∃ n es s, (approvals flushContext).Run ReadsAlone n es s ∧
      answersAt 10 true true es = true ∧ answersAt 14 false false es = true ∧ OneDecision es := by
  have hexec : (((approvals flushContext).restrict checkReads).exec newApprovals
      (untilInterrupt ++ [.read ⟨true, ""⟩ true, .decide 0, .resume 0 (sampleEnv .null),
        .read ⟨false, ""⟩ true, .decide 0])).any
      (fun r => answersAt 10 true true r.2 && answersAt 14 false false r.2) = true := by
    decide +kernel
  obtain ⟨s, es, hr, hc⟩ := Sys.exists_checked_run readsAlone_of_check newApprovals_new hexec
  rw [Bool.and_eq_true] at hc
  exact ⟨_, es, s, hr, hc.1, hc.2, one_decision hr⟩

/-- An approval and a denial that read the state before one of them decides are both accepted. -/
theorem both_accepted :
    ¬ ∀ (ctx : GraphContext) (n : Nat) (es : List ApprovalEvent) (s : Approvals),
      (approvals ctx).Run Sys.anyStep n es s → OneDecision es := by
  intro hall
  have hexec : ((approvals flushContext).exec newApprovals
      (untilInterrupt ++ [.read ⟨true, ""⟩ true, .read ⟨false, ""⟩ true, .decide 0,
        .decide 0])).any
      (fun r => answersAt 10 true true (r.2.take 11) && answersAt 11 false true r.2) = true := by
    decide +kernel
  obtain ⟨s, es, hr, hc⟩ := Sys.exists_any_run newApprovals_new hexec
  rw [Bool.and_eq_true] at hc
  obtain ⟨approval, -, hpre⟩ := split_of_answersAt hc.1
  obtain ⟨denial, -, hes⟩ := split_of_answersAt hc.2
  -- The approval would be an event between the interrupt and the denial.
  have hwaiting := (hall _ _ es s hr).accepted _ _ _ hes
  have hnil : (es.take 11).drop (10 + 1) = [] := by simp
  rw [hpre, hnil] at hwaiting
  exact not_waiting_accepted _ approval hwaiting

end Api
end AutoSRE

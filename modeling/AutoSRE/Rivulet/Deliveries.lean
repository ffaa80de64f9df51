import AutoSRE.Rivulet.Steps

/-!
# Deliveries and the log

What holds of the deliveries of every run, and what an event of the log says about them
(`Event.Supported`): a delivery works on the event that its message carries, and it is handled as
processed only when its own transaction has committed.
-/

namespace AutoSRE
namespace Rivulet

open Lib

variable {db : Database}

/-- The delivery has a message that carries the event. -/
def Carries (w : World) (d : Nat) (event : OrderEvent) : Prop :=
  ∃ m, w.deliveries d = some m ∧ m.payload.event = some event

/-- What is known once an event is in the log. -/
def Event.Supported (es : List Event) (w : World) : Event → Prop
  | .delivered d m => w.deliveries d = some m
  | .committed d event => Carries w d event
  | .handled d .processed => ∃ event, .committed d event ∈ es
  | .acked d _ .processed => .handled d .processed ∈ es
  | _ => True

structure Logged (es : List Event) (w : World) : Prop where
  fresh : ∀ d, w.next ≤ d → w.stage d = .gone ∧ w.deliveries d = none
  message : ∀ d m, w.deliveries d = some m →
    m.entry < w.read ∧ w.entries[m.entry]? = some m.payload
  pending : ∀ i p, w.pending i = some p → i < w.read
  carries : ∀ d event, (w.stage d).event = some event → Carries w d event
  acking : ∀ d, w.stage d = .ack .processed → .handled d .processed ∈ es
  events : ∀ e ∈ es, e.Supported es w

theorem Event.Supported.world {es : List Event} {w w' : World} {e : Event}
    (h : e.Supported es w)
    (hd : ∀ d m, w.deliveries d = some m → w'.deliveries d = some m) : e.Supported es w' := by
  cases e with
  | delivered d m => exact hd d m h
  | committed d event =>
    obtain ⟨m, hm, hevent⟩ := h
    exact ⟨m, hd d m hm, hevent⟩
  | handled d r => cases r <;> exact h
  | acked d entry source => cases source <;> exact h
  | deadLettered => exact h

theorem Event.Supported.log {es : List Event} {w : World} {e : Event} (h : e.Supported es w)
    (fs : List Event) : e.Supported (es ++ fs) w := by
  cases e with
  | delivered | committed | deadLettered => exact h
  | handled d r =>
    cases r with
    | processed =>
      obtain ⟨event, hc⟩ := h
      exact ⟨event, List.mem_append_left _ hc⟩
    | permanent _ | transient _ => trivial
  | acked d entry source =>
    cases source with
    | processed => exact List.mem_append_left _ h
    | dropped | deadLettered => trivial

theorem logged_start (db : Database) : Logged [] (start db) :=
  ⟨fun _ _ => ⟨rfl, rfl⟩, nofun, nofun, nofun, nofun, nofun⟩

/-- A new entry. -/
theorem Logged.append {es : List Event} {w : World} (h : Logged es w) (payload : Payload) :
    Logged es { w with entries := w.entries ++ [payload] } := by
  refine ⟨h.fresh, fun d m hm => ?_, h.pending, h.carries, h.acking, fun e he => ?_⟩
  · obtain ⟨hread, hentry⟩ := h.message d m hm
    refine ⟨hread, ?_⟩
    have hlt := (List.getElem?_eq_some_iff.mp hentry).1
    rw [List.getElem?_append_left hlt, hentry]
  · exact (h.events e he).world fun _ _ hm => hm

/-- A step of a delivery, or a crash. -/
theorem Logged.move {es fs : List Event} {w w' : World} {d : Nat} (h : Logged es w)
    (hm : Moved w w' d) (hd : d < w.next ∨ w'.stage d = .gone)
    (hcarries : ∀ event, (w'.stage d).event = some event → Carries w d event)
    (hacking : w'.stage d = .ack .processed → .handled d .processed ∈ es ++ fs)
    (hfs : ∀ e ∈ fs, e.Supported (es ++ fs) w') : Logged (es ++ fs) w' := by
  have hdeliveries : ∀ d m, w.deliveries d = some m → w'.deliveries d = some m := by
    intro d m h
    rw [hm.deliveries, h]
  constructor
  case fresh =>
    intro d' hd'
    rw [hm.next] at hd'
    rw [hm.deliveries]
    refine ⟨?_, (h.fresh d' hd').2⟩
    by_cases he : d' = d
    · subst he
      exact hd.resolve_left (Nat.not_lt.mpr hd')
    · rw [hm.stage d' he, (h.fresh d' hd').1]
  case message =>
    intro d' m hd'
    rw [hm.deliveries] at hd'
    rw [hm.read, hm.entries]
    exact h.message d' m hd'
  case pending =>
    intro i p hp
    rw [hm.read]
    exact h.pending i p (hm.pending i p hp)
  case carries =>
    intro d' event he
    have hc : Carries w d' event := by
      by_cases hd' : d' = d
      · subst hd'
        exact hcarries event he
      · rw [hm.stage d' hd'] at he
        exact h.carries d' event he
    obtain ⟨m, hm', hevent⟩ := hc
    exact ⟨m, hdeliveries d' m hm', hevent⟩
  case acking =>
    intro d' he
    by_cases hd' : d' = d
    · subst hd'
      exact hacking he
    · rw [hm.stage d' hd'] at he
      exact List.mem_append_left _ (h.acking d' he)
  case events =>
    intro e he
    rcases List.mem_append.mp he with he | he
    · exact ((h.events e he).world hdeliveries).log fs
    · exact hfs e he

/-- A delivery of an entry. -/
theorem Logged.deliver {es : List Event} {w : World} (h : Logged es w) {message : Delivery}
    {n : Nat} (hread : message.entry < w.read)
    (hentry : w.entries[message.entry]? = some message.payload) :
    Logged (es ++ [.delivered w.next message]) (deliver w message n).1 := by
  have hold : ∀ d m, w.deliveries d = some m → d ≠ w.next := by
    rintro d m hm rfl
    have := (h.fresh w.next (Nat.le_refl _)).2
    rw [this] at hm
    cases hm
  have hdeliveries : ∀ d m, w.deliveries d = some m →
      (Rivulet.deliver w message n).1.deliveries d = some m := by
    intro d m hm
    simpa [Rivulet.deliver, update_ne _ _ (hold d m hm)] using hm
  constructor
  case fresh =>
    intro d hd
    have hne : d ≠ w.next := by
      simp only [Rivulet.deliver] at hd
      omega
    simpa [Rivulet.deliver, update_ne _ _ hne] using h.fresh d (by
      simp only [Rivulet.deliver] at hd
      omega)
  case message =>
    intro d m hm
    by_cases hd : d = w.next
    · subst hd
      simp only [Rivulet.deliver, update_self, Option.some.injEq] at hm
      subst hm
      exact ⟨hread, hentry⟩
    · simp only [Rivulet.deliver, update_ne _ _ hd] at hm
      exact h.message d m hm
  case pending =>
    intro i p hp
    by_cases hi : i = message.entry
    · subst hi
      exact hread
    · simp only [Rivulet.deliver, update_ne _ _ hi] at hp
      exact h.pending i p hp
  case carries =>
    intro d event he
    by_cases hd : d = w.next
    · subst hd
      simp [Rivulet.deliver, Stage.event] at he
    · simp only [Rivulet.deliver, update_ne _ _ hd] at he
      obtain ⟨m, hm, hevent⟩ := h.carries d event he
      exact ⟨m, hdeliveries d m hm, hevent⟩
  case acking =>
    intro d he
    by_cases hd : d = w.next
    · subst hd
      simp [Rivulet.deliver] at he
    · simp only [Rivulet.deliver, update_ne _ _ hd] at he
      exact List.mem_append_left _ (h.acking d he)
  case events =>
    intro e he
    rcases List.mem_append.mp he with he | he
    · exact ((h.events e he).world hdeliveries).log _
    · obtain rfl := List.mem_singleton.mp he
      simp [Event.Supported, Rivulet.deliver]

/-- A step of a delivery. -/
theorem Logged.advance {es fs : List Event} {w w' : World} {d : Nat} {message : Delivery}
    {reply : Reply} (h : Logged es w) (hd : w.deliveries d = some message)
    (ha : Advanced w d message reply (w.stage d) w' fs) : Logged (es ++ fs) w' := by
  have hlt : d < w.next := by
    refine Nat.lt_of_not_le fun hle => ?_
    rw [(h.fresh d hle).2] at hd
    cases hd
  have hmoved := ha.moved
  generalize hs : w.stage d = s at ha
  cases ha with
  | @goes s s' htx hack hevent =>
    refine h.move hmoved (.inl hlt) (fun event he => ?_) (fun he => ?_) nofun
    · simp only [World.goto, update_self] at he
      rcases hevent event he with he' | he'
      · exact h.carries d event (hs ▸ he')
      · exact ⟨message, hd, he'⟩
    · simp only [World.goto, update_self] at he
      exact absurd he (hack _)
  | copies hs' =>
    refine h.move hmoved (.inl hlt) (fun event he => ?_) (fun he => ?_) (by simp [Event.Supported])
    · rcases hs' with rfl | rfl <;> simp [World.goto, Stage.event] at he
    · rcases hs' with rfl | rfl <;> simp [World.goto] at he
  | @acks source =>
    refine h.move hmoved (.inl hlt) (by simp [World.goto, Stage.event]) (by simp [World.goto])
      fun e he => ?_
    obtain rfl := List.mem_singleton.mp he
    cases source with
    | processed => exact List.mem_append_left _ (h.acking d hs)
    | dropped | deadLettered => trivial
  | @refuses s r htx hr hperm | @fails s r hr hperm =>
    refine h.move hmoved (.inl hlt) (by simp [World.goto]) (fun he => ?_) (fun e he => ?_)
    · cases r with
      | processed => exact absurd rfl hr
      | permanent _ | transient _ => simp [World.goto, afterHandle] at he
    · obtain rfl := List.mem_singleton.mp he
      cases r with
      | processed => exact absurd rfl hr
      | permanent _ | transient _ => trivial
  | @deducts event _ hw | @inserts event _ hw =>
    refine h.move hmoved (.inl hlt) (fun event' he => ?_) (by simp [World.goto]) nofun
    simp only [World.goto, update_self, Stage.event] at he
    exact h.carries d event' (by rw [hs]; exact he)
  | @commits event r hr =>
    have hc : Carries w d event := h.carries d event (by rw [hs]; rfl)
    refine h.move hmoved (.inl hlt) (by simp [World.goto]) (fun he => ?_) (fun e he => ?_)
    · cases r with
      | processed => simp
      | permanent _ | transient _ => simp [World.goto, afterHandle] at he
    · simp only [List.mem_cons, List.not_mem_nil, or_false] at he
      rcases he with rfl | rfl
      · exact hc
      · cases r with
        | processed => exact ⟨event, by simp⟩
        | permanent _ | transient _ => trivial

theorem logged_step {es fs : List Event} {w w' : World} {a : Label} (h : Logged es w)
    (hs : Stepped w a w' fs) : Logged (es ++ fs) w' := by
  cases hs with
  | appends payload =>
    rw [List.append_nil]
    exact h.append payload
  | reads consumer hp =>
    have h' : Logged es { w with read := w.read + 1 } :=
      ⟨h.fresh, fun d m hm => ⟨Nat.lt_succ_of_lt (h.message d m hm).1, (h.message d m hm).2⟩,
        fun i p hi => Nat.lt_succ_of_lt (h.pending i p hi), h.carries, h.acking,
        fun e he => (h.events e he).world fun _ _ hm => hm⟩
    exact h'.deliver (Nat.lt_succ_self _) hp
  | claims message n hp hentry => exact h.deliver (h.pending _ _ hp) hentry
  | advances hd ha => exact h.advance hd ha
  | crashes d =>
    exact h.move (moved_abort w d _) (.inr (by simp [World.goto]))
      (by simp [World.goto, Stage.event]) (by simp [World.goto]) nofun

/-- A message that is in the hands of a delivery was delivered to it. -/
theorem delivered_of_message {C : World → Label → Prop} {n : Nat} {es : List Event} {w : World}
    (hr : (worker db).Run C n es w) {d : Nat} {m : Delivery} (hm : w.deliveries d = some m) :
    .delivered d m ∈ es := by
  refine hr.inv (I := fun es w => ∀ d m, w.deliveries d = some m → .delivered d m ∈ es)
    (fun w hw d m hm => ?_) (fun _ es w _ w' fs _ h _ hs d m hm => ?_) d m hm
  · obtain rfl : w = start db := hw
    cases hm
  · have hold : w.deliveries d = some m → .delivered d m ∈ es ++ fs :=
      fun hm => List.mem_append_left _ (h d m hm)
    cases stepped hs with
    | appends => exact hold hm
    | reads | claims =>
      simp only [deliver] at hm
      by_cases he : d = w.next
      · subst he
        obtain rfl := Option.some.inj ((update_self ..).symm.trans hm)
        simp
      · exact hold ((update_ne _ _ he).symm.trans hm)
    | advances _ ha => exact hold (ha.moved.deliveries ▸ hm)
    | crashes d' => exact hold ((moved_abort w d' _).deliveries ▸ hm)

/-- What holds of the deliveries of every run. -/
theorem logged {C : World → Label → Prop} {n : Nat} {es : List Event} {w : World}
    (hr : (worker db).Run C n es w) : Logged es w :=
  hr.inv (fun _ hw => hw ▸ logged_start db) fun _ _ _ _ _ _ _ h _ hs => logged_step h (stepped hs)

end Rivulet
end AutoSRE

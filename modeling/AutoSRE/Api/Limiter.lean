import AutoSRE.Lib.Keyed
import AutoSRE.Python.Rounding
import Mathlib.Data.List.TakeWhile
import Mathlib.Data.Set.Finite.Lattice
import Mathlib.Data.Set.Finite.List
import Mathlib.Tactic.Linarith

/-!
# The rate limiter (`api/routes.py`)

- **Calls** (`allow`). A client has a queue of the times of its accepted calls. A call drops those
  before the cutoff, is rejected when the queue is full, and is queued otherwise.
- **The cutoff** (`before_cutoff`). It is rounded. That does not take it past the time of a call:
  what it drops is more than the window old.
- **The history** (`Kept`). The queue is the end of what was accepted, and what is not in it any
  more is more than the window old.
- **The window** (`limiter_window`). Not more than `max_requests` are accepted in a window; a call
  is rejected only after `max_requests` accepted ones from the cutoff on; the clients do not disturb
  each other. The cutoff can be before the window (`rejected_after_window`).
-/

namespace AutoSRE
namespace Api

open Lib Py

/-- What the constructor of `_RateLimiter` checks. -/
structure RateLimiter where
  maxRequests : Nat
  window : FiniteFloat
  max_pos : 0 < maxRequests
  window_pos : (0 : Rat) < window

theorem alertsLimiter_max_pos : 0 < 60 := by decide

/-- `_ALERTS_RATE_WINDOW_SECONDS`. -/
def alertsWindow : FiniteFloat := ⟨60, isFloat_sixty⟩

theorem alertsLimiter_window_pos : (0 : Rat) < alertsWindow := by decide

/-- `_alerts_limiter`. -/
def alertsLimiter : RateLimiter :=
  ⟨60, alertsWindow, alertsLimiter_max_pos, alertsLimiter_window_pos⟩

namespace RateLimiter

variable (lim : RateLimiter)

/-- `cutoff`. -/
def cutoff (now : FiniteFloat) : PyFloat := (PyFloat.finite now).sub (.finite lim.window)

/-- `q[0] < cutoff`. -/
def expired (now t : FiniteFloat) : Bool := PyFloat.lt (.finite t) (lim.cutoff now)

/-- `allow`, on the queue of its key. -/
def allow (now : FiniteFloat) (q : List FiniteFloat) : Bool × List FiniteFloat :=
  let q := q.dropWhile (lim.expired now)
  if lim.maxRequests ≤ q.length then (false, q) else (true, q ++ [now])

/-- The calls, each with its key and the reading of the clock, and whether they are allowed.
`_requests` is empty at first, as `reset` leaves it. -/
def decisions (calls : List (String × FiniteFloat)) : List ((String × FiniteFloat) × Bool) :=
  Keyed.run (Keyed.keyed lim.allow) (fun _ => []) calls

/-- The times of the accepted calls among those of a key. -/
def acceptedTimes (ds : List (FiniteFloat × Bool)) : List FiniteFloat :=
  (ds.filter (·.2)).map (·.1)

theorem acceptedTimes_append (ds ds' : List (FiniteFloat × Bool)) :
    acceptedTimes (ds ++ ds') = acceptedTimes ds ++ acceptedTimes ds' := by
  rw [acceptedTimes, List.filter_append, List.map_append, acceptedTimes, acceptedTimes]

/-- The accepted calls of a key. -/
def accepted (key : String) (calls : List (String × FiniteFloat)) : List FiniteFloat :=
  acceptedTimes (((lim.decisions calls).filter fun d => d.1.1 = key).map fun d => (d.1.2, d.2))

/-! ## The cutoff -/

theorem expired_eq_false (now t : FiniteFloat) :
    lim.expired now t = false ↔ PyFloat.le (lim.cutoff now) (.finite t) = true := by
  have hcutoff : lim.cutoff now ≠ .nan := PyFloat.ofRat_ne_nan _
  rw [expired, PyFloat.lt_eq_not_le PyFloat.noConfusion hcutoff, Bool.not_eq_false']

/-- What is dropped is before the exact cutoff. -/
theorem before_cutoff {now t : FiniteFloat} (h : lim.expired now t = true) :
    (t : Rat) < now - lim.window := by
  refine not_le.mp fun hle => ?_
  rw [(lim.expired_eq_false now t).mpr (PyFloat.ofRat_le hle)] at h
  cases h

/-- A cutoff that is a `float` is exact. -/
theorem exact_cutoff {now t : FiniteFloat} (hexact : PyFloat.IsFloat (now - lim.window))
    (h : lim.expired now t = false) : (now - lim.window : Rat) ≤ t := by
  rw [expired_eq_false, cutoff, PyFloat.sub, hexact] at h
  exact of_decide_eq_true h

theorem expired_mono {now t u : FiniteFloat} (h : t ≤ u) (hu : lim.expired now u = true) :
    lim.expired now t = true := by
  refine Bool.of_not_eq_false fun ht => ?_
  rw [expired_eq_false] at ht
  have hu' : lim.expired now u = false :=
    (lim.expired_eq_false now u).mpr (PyFloat.le_trans ht (decide_eq_true h))
  rw [hu] at hu'
  cases hu'

/-! ## The history of a key -/

/-- The history of the accepted calls of a key and its queue, at a reading of the clock. -/
structure Kept (history q : List FiniteFloat) (clock : FiniteFloat) : Prop where
  sorted : history.Pairwise (· ≤ ·)
  past : ∀ t ∈ history, t ≤ clock
  kept : ∃ old, history = old ++ q ∧ ∀ t ∈ old, (t : Rat) < clock - lim.window
  /-- Times that are less than a window apart. -/
  window : ∀ p : FiniteFloat → Bool,
    (∀ a b, p a = true → p b = true → (b - a : Rat) < lim.window) →
    (history.filter p).length ≤ lim.maxRequests

theorem Kept.nil (clock : FiniteFloat) : lim.Kept [] [] clock where
  sorted := .nil
  past := fun _ h => absurd h List.not_mem_nil
  kept := ⟨[], rfl, fun _ h => absurd h List.not_mem_nil⟩
  window := fun _ _ => Nat.zero_le _

/-- The part that is dropped, and the part that is left. -/
theorem dropWhile_expired {q : List FiniteFloat} (hq : q.Pairwise (· ≤ ·)) (now : FiniteFloat) :
    ∃ old, q = old ++ q.dropWhile (lim.expired now) ∧ (∀ t ∈ old, lim.expired now t = true) ∧
      ∀ t ∈ q.dropWhile (lim.expired now), lim.expired now t = false := by
  refine ⟨q.takeWhile (lim.expired now), (List.takeWhile_append_dropWhile ..).symm, ?_, ?_⟩
  · intro t ht
    exact List.mem_takeWhile_imp ht
  · intro t ht
    have hsorted := hq.sublist (List.dropWhile_sublist (lim.expired now))
    cases hd : q.dropWhile (lim.expired now) with
    | nil =>
      rw [hd] at ht
      cases ht
    | cons a l =>
      have ha : lim.expired now a = false := by
        have h := List.head_dropWhile_not (p := lim.expired now) (l := q)
          (hd ▸ List.cons_ne_nil a l)
        simpa only [hd, List.head_cons] using h
      rw [hd] at ht hsorted
      cases ht with
      | head => exact ha
      | tail _ ht =>
        refine Bool.eq_false_of_not_eq_true fun h => ?_
        rw [lim.expired_mono ((List.pairwise_cons.mp hsorted).1 t ht) h] at ha
        cases ha

variable {lim}

/-- The queue after the cutoff: what is not in it is too old. -/
theorem Kept.prune {history q : List FiniteFloat} {clock now : FiniteFloat}
    (h : lim.Kept history q clock) (hnow : clock ≤ now) :
    ∃ old, history = old ++ q.dropWhile (lim.expired now) ∧
      (∀ t ∈ old, (t : Rat) < now - lim.window) ∧
      ∀ t ∈ q.dropWhile (lim.expired now), lim.expired now t = false := by
  have hnow : (clock : Rat) ≤ now := hnow
  obtain ⟨old, hh, hold⟩ := h.kept
  have hq : q.Pairwise (· ≤ ·) := h.sorted.sublist (hh ▸ List.sublist_append_right old q)
  obtain ⟨dropped, hd, hdropped, hrest⟩ := lim.dropWhile_expired hq now
  refine ⟨old ++ dropped, ?_, ?_, hrest⟩
  · rw [List.append_assoc, ← hd, hh]
  · intro t ht
    rcases List.mem_append.mp ht with ht | ht
    · have := hold t ht
      linarith
    · exact lim.before_cutoff (hdropped t ht)

/-- A rejected call finds as many accepted ones from the cutoff on. -/
theorem Kept.rejected {history q : List FiniteFloat} {clock now : FiniteFloat}
    (h : lim.Kept history q clock) (hnow : clock ≤ now) (hr : (lim.allow now q).1 = false) :
    lim.maxRequests ≤ (history.filter fun t => !lim.expired now t && decide (t ≤ now)).length := by
  obtain ⟨old, hh, -, hrest⟩ := h.prune hnow
  have hfull : lim.maxRequests ≤ (q.dropWhile (lim.expired now)).length := by
    refine le_of_not_gt fun h => ?_
    rw [show lim.allow now q = _ from if_neg (Nat.not_le.mpr h)] at hr
    cases hr
  refine hfull.trans ?_
  rw [hh, List.filter_append, List.length_append]
  have hall : (q.dropWhile (lim.expired now)).filter
      (fun t => !lim.expired now t && decide (t ≤ now)) = q.dropWhile (lim.expired now) := by
    refine List.filter_eq_self.mpr fun t ht => ?_
    rw [hrest t ht, Bool.not_false, Bool.true_and]
    exact decide_eq_true ((h.past t (hh ▸ List.mem_append_right old ht)).trans hnow)
  rw [hall]
  exact Nat.le_add_left ..

theorem Kept.later {history q : List FiniteFloat} {clock now : FiniteFloat}
    (h : lim.Kept history q clock) (hnow : clock ≤ now) : lim.Kept history q now := by
  have hclock : (clock : Rat) ≤ now := hnow
  obtain ⟨old, hh, hold⟩ := h.kept
  refine ⟨h.sorted, fun t ht => (h.past t ht).trans hnow, ⟨old, hh, fun t ht => ?_⟩, h.window⟩
  have := hold t ht
  linarith

/-- A call keeps the relation of the history and the queue. -/
theorem Kept.step {history q : List FiniteFloat} {clock now : FiniteFloat}
    (h : lim.Kept history q clock) (hnow : clock ≤ now) :
    lim.Kept (history ++ acceptedTimes [(now, (lim.allow now q).1)]) (lim.allow now q).2 now := by
  obtain ⟨old, hh, hold, -⟩ := h.prune hnow
  have hpast : ∀ t ∈ history, t ≤ now := fun t ht => (h.past t ht).trans hnow
  by_cases hfull : lim.maxRequests ≤ (q.dropWhile (lim.expired now)).length
  · have hallow : lim.allow now q = (false, q.dropWhile (lim.expired now)) :=
      if_pos hfull
    rw [hallow]
    simp only [acceptedTimes, List.filter_cons, List.filter_nil, Bool.false_eq_true, if_false,
      List.map_nil, List.append_nil]
    exact ⟨h.sorted, hpast, ⟨old, hh, hold⟩, h.window⟩
  · have hallow : lim.allow now q = (true, q.dropWhile (lim.expired now) ++ [now]) :=
      if_neg hfull
    rw [hallow]
    simp only [acceptedTimes, List.filter_cons, List.filter_nil, if_true, List.map_cons,
      List.map_nil]
    refine ⟨?_, ?_, ⟨old, by rw [← List.append_assoc, ← hh], hold⟩, ?_⟩
    · refine List.pairwise_append.mpr ⟨h.sorted, List.pairwise_singleton _ _, ?_⟩
      intro a ha b hb
      cases List.mem_singleton.mp hb
      exact hpast a ha
    · intro t ht
      rcases List.mem_append.mp ht with ht | ht
      · exact hpast t ht
      · exact (List.mem_singleton.mp ht).le
    · intro p hp
      rw [List.filter_append, List.length_append]
      by_cases hnowp : p now = true
      · -- No time of the window is older than the cutoff, so all of it is in the queue.
        have hnone : old.filter p = [] := by
          refine List.filter_eq_nil_iff.mpr fun t ht hpt => ?_
          have := hold t ht
          have := hp t now hpt hnowp
          linarith
        have hlen := List.length_filter_le p (q.dropWhile (lim.expired now))
        rw [hh, List.filter_append, hnone, List.nil_append, List.filter_cons_of_pos hnowp]
        simp only [List.filter_nil, List.length_singleton]
        omega
      · rw [List.filter_cons_of_neg hnowp]
        exact h.window p hp

/-- The relation is kept by calls at the times that follow. -/
theorem Kept.run {history q : List FiniteFloat} {clock last : FiniteFloat}
    (h : lim.Kept history q clock) {times : List FiniteFloat} (hs : times.Pairwise (· ≤ ·))
    (hle : ∀ t ∈ times, clock ≤ t)
    (hclock : clock ≤ last) (hlast : ∀ t ∈ times, t ≤ last) :
    lim.Kept (history ++ acceptedTimes (Keyed.run lim.allow q times))
      (Keyed.exec lim.allow q times) last := by
  induction times generalizing history q clock with
  | nil =>
    rw [Keyed.run, Keyed.exec, acceptedTimes, List.filter_nil, List.map_nil, List.append_nil]
    exact h.later hclock
  | cons now times ih =>
    obtain ⟨hfirst, hs⟩ := List.pairwise_cons.mp hs
    have hkept := ih (h.step (hle now List.mem_cons_self)) hs hfirst
      (hlast now List.mem_cons_self) fun t ht => hlast t (List.mem_cons_of_mem now ht)
    rw [List.append_assoc, ← acceptedTimes_append] at hkept
    exact hkept

/-- The history of a key, and its queue. -/
theorem kept_decisions {calls : List (String × FiniteFloat)}
    (hs : (calls.map (·.2)).Pairwise (· ≤ ·)) (key : String) {last : FiniteFloat}
    (hlast : ∀ c ∈ calls, c.2 ≤ last) :
    lim.Kept (lim.accepted key calls)
      (Keyed.exec (Keyed.keyed lim.allow) (fun _ => []) calls key) last := by
  have hsub : (Keyed.inputs key calls).Sublist (calls.map (·.2)) :=
    List.Sublist.map _ List.filter_sublist
  have hle : ∀ t ∈ Keyed.inputs key calls, t ≤ last := by
    intro t ht
    exact hlast _ (Keyed.mem_inputs.mp ht)
  rw [accepted, decisions, Keyed.run_keyed, Keyed.exec_keyed]
  cases hin : Keyed.inputs key calls with
  | nil => exact Kept.nil lim last
  | cons now times =>
    rw [hin] at hsub hle
    have hnow : ∀ t ∈ now :: times, now ≤ t := by
      intro t ht
      cases ht with
      | head => exact le_refl now
      | tail _ ht => exact (List.pairwise_cons.mp (hs.sublist hsub)).1 t ht
    exact (Kept.nil lim now).run (hs.sublist hsub) hnow (hle now List.mem_cons_self) hle

/-! ## The window -/

/-- Of a sequence of calls at nondecreasing readings of the clock: not more than `max_requests` of
a key are accepted in a half-open window; a call is rejected only if as many of its key were
accepted from the cutoff on, which is the window before it if the cutoff is exact; and a key gets
what it gets without the calls of other keys. -/
theorem limiter_window (lim : RateLimiter) (calls : List (String × FiniteFloat))
    (hs : (calls.map (·.2)).Pairwise (· ≤ ·)) :
    (∀ key (t : Rat),
      ((lim.accepted key calls).filter fun u : FiniteFloat => t ≤ u ∧ u < t + lim.window).length
        ≤ lim.maxRequests ∧
      ((lim.accepted key calls).filter fun u : FiniteFloat => t < u ∧ u ≤ t + lim.window).length
        ≤ lim.maxRequests) ∧
    (∀ i key (now : FiniteFloat), (lim.decisions calls)[i]? = some ((key, now), false) →
      lim.maxRequests ≤ ((lim.accepted key (calls.take i)).filter fun u : FiniteFloat =>
        PyFloat.le (lim.cutoff now) (.finite u) ∧ u ≤ now).length ∧
      (PyFloat.IsFloat (now - lim.window) →
        lim.maxRequests ≤ ((lim.accepted key (calls.take i)).filter fun u : FiniteFloat =>
          (now - lim.window : Rat) ≤ u ∧ u ≤ now).length)) ∧
    ∀ key, (lim.decisions calls).filter (fun d => d.1.1 = key) =
      lim.decisions (calls.filter fun c => c.1 = key) := by
  refine ⟨fun key t => ?_, fun i key now hi => ?_, fun key => Keyed.filter_run_keyed ..⟩
  · obtain ⟨last, hlast⟩ : ∃ last, ∀ c ∈ calls, c.2 ≤ last := by
      cases hlast : calls.getLast? with
      | none =>
        rw [List.getLast?_eq_none_iff.mp hlast]
        exact ⟨lim.window, fun c hc => absurd hc List.not_mem_nil⟩
      | some c =>
        obtain ⟨calls, rfl⟩ := List.getLast?_eq_some_iff.mp hlast
        refine ⟨c.2, fun c' hc' => ?_⟩
        rw [List.map_append, List.pairwise_append] at hs
        rcases List.mem_append.mp hc' with hc' | hc'
        · exact hs.2.2 _ (List.mem_map_of_mem hc') _ List.mem_cons_self
        · cases List.mem_singleton.mp hc'
          exact le_refl c.2
    have hkept := lim.kept_decisions hs key hlast
    refine ⟨hkept.window _ fun a b ha hb => ?_, hkept.window _ fun a b ha hb => ?_⟩
    · have ha := of_decide_eq_true ha
      have hb := of_decide_eq_true hb
      linarith
    · have ha := of_decide_eq_true ha
      have hb := of_decide_eq_true hb
      linarith
  · rw [decisions, Keyed.run_getElem?, Option.map_eq_some_iff] at hi
    obtain ⟨⟨key', now'⟩, hcall, heq⟩ := hi
    obtain ⟨⟨rfl, rfl⟩, hr⟩ : (key' = key ∧ now' = now) ∧ _ := by
      simpa only [Prod.mk.injEq] using heq
    have hbefore : ∀ c ∈ calls.take i, c.2 ≤ now' := by
      intro c hc
      obtain ⟨hlt, hget⟩ := List.getElem?_eq_some_iff.mp hcall
      rw [← List.take_append_drop i calls, List.drop_eq_getElem_cons hlt, hget, List.map_append,
        List.map_cons] at hs
      exact (List.pairwise_append.mp hs).2.2 _ (List.mem_map_of_mem hc) _ List.mem_cons_self
    have hsorted : ((calls.take i).map (·.2)).Pairwise (· ≤ ·) :=
      hs.sublist ((List.take_sublist i calls).map _)
    have hrejected := (kept_decisions hsorted key' hbefore).rejected (le_refl now') hr
    refine ⟨hrejected.trans ?_, fun hexact => hrejected.trans ?_⟩
    · refine (List.monotone_filter_right _ fun u hu => ?_).length_le
      obtain ⟨hyoung, hpast⟩ := Bool.and_eq_true_iff.mp hu
      refine decide_eq_true ⟨?_, of_decide_eq_true hpast⟩
      exact (lim.expired_eq_false now' u).mp (by simpa using hyoung)
    · refine (List.monotone_filter_right _ fun u hu => ?_).length_le
      obtain ⟨hyoung, hpast⟩ := Bool.and_eq_true_iff.mp hu
      refine decide_eq_true ⟨?_, of_decide_eq_true hpast⟩
      exact lim.exact_cutoff hexact (by simpa using hyoung)

/-- One call in ten seconds. A call exactly ten seconds after an accepted one is rejected. -/
theorem limiter_window_at_cutoff :
    let lim : RateLimiter := ⟨1, ⟨10, by decide +kernel⟩, by decide, by decide⟩
    let calls : List (String × FiniteFloat) := [("a", ⟨0, by decide +kernel⟩),
      ("b", ⟨3, by decide +kernel⟩), ("a", ⟨10, by decide +kernel⟩), ("a", ⟨11, by decide +kernel⟩)]
    ((lim.accepted "a" calls).filter fun u : FiniteFloat =>
      2 ≤ (u : Rat) ∧ (u : Rat) < 2 + 10).length ≤ 1 ∧
    1 ≤ ((lim.accepted "a" (calls.take 2)).filter fun u : FiniteFloat =>
      (10 - 10 : Rat) ≤ u ∧ (u : Rat) ≤ 10).length ∧
    (lim.decisions calls).filter (fun d => d.1.1 = "b") =
      lim.decisions [("b", ⟨3, by decide +kernel⟩)] := by
  intro lim calls
  have h := limiter_window lim calls (by decide +kernel)
  exact ⟨(h.1 "a" 2).1, (h.2.1 2 "a" ⟨10, by decide +kernel⟩ (by decide +kernel)).2
    (by decide +kernel), h.2.2 "b"⟩

/-- One call in a tenth of a second. A call is rejected that is more than that after the only
accepted one: the cutoff is rounded to its time. -/
theorem rejected_after_window :
    ¬ ∀ (lim : RateLimiter) (calls : List (String × FiniteFloat)),
      (calls.map (·.2)).Pairwise (· ≤ ·) →
      ∀ i key (now : FiniteFloat), (lim.decisions calls)[i]? = some ((key, now), false) →
        lim.maxRequests ≤ ((lim.accepted key (calls.take i)).filter fun u : FiniteFloat =>
          (now - lim.window : Rat) ≤ u ∧ u ≤ now).length := by
  intro hall
  have h := hall ⟨1, tenth, by decide, by decide +kernel⟩
    [("a", ⟨1, by decide +kernel⟩), ("a", elevenTenths)] (by decide +kernel) 1 "a" elevenTenths
    (by decide +kernel)
  exact absurd h (by decide +kernel)

end RateLimiter
end Api
end AutoSRE

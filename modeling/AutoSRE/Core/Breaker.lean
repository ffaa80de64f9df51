import AutoSRE.Lib.Dict
import AutoSRE.Python.Rounding
import Mathlib.Data.List.Induction
import Mathlib.Tactic.Linarith

/-!
# The circuit breaker against its log (`core/router.py`)

- **The breaker** (`isOpen`, `snapshotOpenCircuits`). `_failures` has the failures of each model. A
  query of a model deletes those before the cutoff; the snapshot of all models changes nothing.
- **The log** (`failuresSince`). The failures of a model since its last success.
- **The rounding** (`keeps_of_window`, `window_of_young`). The cutoff is rounded, and so is the age
  of a failure for the snapshot. A query keeps all of the window, and possibly more; the snapshot
  counts only what is inside the window, and not what is exactly as old as the timeout.
- **Agreement** (`breaker_agrees_iff`). The queries and the snapshot are as the log says unless the
  failures that a query keeps and the snapshot does not count make the difference.
-/

namespace AutoSRE
namespace Core

open Lib Py

/-- What the constructor of `CircuitBreaker` checks. -/
structure CircuitBreaker where
  threshold : Nat
  timeout : FiniteFloat
  enabled : Bool := true
  threshold_pos : 0 < threshold
  timeout_pos : (0 : Rat) < timeout

/-- The methods of the breaker. -/
inductive BreakerCall where
  | recordFailure (model : String)
  | recordSuccess (model : String)
  | isOpen (model : String)
  | snapshotOpenCircuits
  deriving DecidableEq

/-- `_failures`. -/
abbrev Failures := Dict String (List FiniteFloat)

namespace CircuitBreaker

variable (b : CircuitBreaker)

/-! ## The breaker -/

/-- `ts >= cutoff`. -/
def keeps (now ts : FiniteFloat) : Bool :=
  PyFloat.le ((PyFloat.finite now).sub (.finite b.timeout)) (.finite ts)

/-- `now - ts < self.timeout`. -/
def young (now ts : FiniteFloat) : Bool :=
  PyFloat.lt ((PyFloat.finite now).sub (.finite ts)) (.finite b.timeout)

/-- `_prune`. -/
def prune (now : FiniteFloat) (model : String) (fs : Failures) : Failures :=
  match fs.get? model with
  | none => fs
  | some times =>
    let kept := times.filter (b.keeps now)
    if kept = [] then (fs.set model kept).erase model else fs.set model kept

/-- `is_open`. -/
def isOpen (now : FiniteFloat) (model : String) (fs : Failures) : Bool × Failures :=
  if b.enabled then
    let fs := b.prune now model fs
    (decide (b.threshold ≤ ((fs.get? model).getD []).length), fs)
  else (false, fs)

/-- `record_failure`. -/
def recordFailure (now : FiniteFloat) (model : String) (fs : Failures) : Failures :=
  if b.enabled then fs.set model ((fs.get? model).getD [] ++ [now]) else fs

/-- `record_success`. -/
def recordSuccess (model : String) (fs : Failures) : Failures :=
  if b.enabled then fs.erase model else fs

/-- `snapshot_open_circuits`. -/
def snapshotOpenCircuits (now : FiniteFloat) (fs : Failures) : List String :=
  if b.enabled then
    (fs.entries.filter fun e =>
      e.2.any (b.young now) && decide (b.threshold ≤ (e.2.filter (b.young now)).length)).map (·.1)
  else []

/-- A call at a reading of the clock. -/
def step (c : FiniteFloat × BreakerCall) (fs : Failures) : Failures :=
  match c.2 with
  | .recordFailure model => b.recordFailure c.1 model fs
  | .recordSuccess model => b.recordSuccess model fs
  | .isOpen model => (b.isOpen c.1 model fs).2
  | .snapshotOpenCircuits => fs

/-- `_failures` after the calls. -/
def after (calls : List (FiniteFloat × BreakerCall)) : Failures :=
  calls.foldl (fun fs c => b.step c fs) .empty

/-! ## The log -/

/-- The failures of a model after a call. -/
def logged (model : String) (times : List FiniteFloat) (c : FiniteFloat × BreakerCall) :
    List FiniteFloat :=
  match c.2 with
  | .recordFailure m => if m = model then times ++ [c.1] else times
  | .recordSuccess m => if m = model then [] else times
  | .isOpen _ => times
  | .snapshotOpenCircuits => times

/-- The failures of a model that were recorded since its last success. A breaker that is not enabled
records none. -/
def failuresSince (calls : List (FiniteFloat × BreakerCall)) (model : String) :
    List FiniteFloat :=
  if b.enabled then calls.foldl (logged model) [] else []

/-- The failures at the times `p`. -/
def failuresAt (calls : List (FiniteFloat × BreakerCall)) (model : String)
    (p : FiniteFloat → Bool) : Nat :=
  ((b.failuresSince calls model).filter p).length

/-- The failures of a model in the window of the timeout that ends at `t`. -/
def failuresIn (calls : List (FiniteFloat × BreakerCall)) (model : String) (t : FiniteFloat) :
    Nat :=
  b.failuresAt calls model fun ts => decide ((t - b.timeout : Rat) ≤ ts) && decide (ts ≤ t)

/-! ## The rounding -/

theorem keeps_of_window {now ts : FiniteFloat} (h : (now - b.timeout : Rat) ≤ ts) :
    b.keeps now ts = true := PyFloat.ofRat_le h

/-- A failure that the snapshot counts is inside the window. -/
theorem window_of_young {now ts : FiniteFloat} (h : b.young now ts = true) :
    (now - b.timeout : Rat) < ts := by
  refine not_le.mp fun hle => ?_
  have hold : PyFloat.le (.finite b.timeout) (PyFloat.ofRat (now - ts)) = true :=
    PyFloat.le_ofRat (by linarith)
  have hyoung : PyFloat.lt (PyFloat.ofRat (now - ts)) (.finite b.timeout) = true := h
  rw [PyFloat.lt_eq_not_le (PyFloat.ofRat_ne_nan _) PyFloat.noConfusion, hold] at hyoung
  cases hyoung

theorem keeps_of_young {now ts : FiniteFloat} (h : b.young now ts = true) :
    b.keeps now ts = true := b.keeps_of_window (b.window_of_young h).le

/-- What a later query keeps, an earlier one keeps. -/
theorem keeps_mono {now t ts : FiniteFloat} (h : now ≤ t) (hk : b.keeps t ts = true) :
    b.keeps now ts = true := by
  have hnow : (now : Rat) ≤ t := h
  have hle : (now - b.timeout : Rat) ≤ t - b.timeout := sub_le_sub_right hnow _
  exact PyFloat.le_trans (PyFloat.ofRat_mono hle) hk

/-! ## The invariant -/

/-- The stored failures of a model. -/
def times (fs : Failures) (model : String) : List FiniteFloat := (fs.get? model).getD []

theorem times_set (fs : Failures) (m model : String) (ts : List FiniteFloat) :
    times (fs.set m ts) model = if model = m then ts else times fs model := by
  rw [times, Dict.get?_set]
  split
  · rfl
  · rfl

theorem times_erase (fs : Failures) (m model : String) :
    times (fs.erase m) model = if model = m then [] else times fs model := by
  rw [times, Dict.get?_erase]
  split
  · rfl
  · rfl

theorem times_prune (now : FiniteFloat) (fs : Failures) (m model : String) :
    times (b.prune now m fs) model =
      if model = m then (times fs m).filter (b.keeps now)
      else times fs model := by
  unfold prune
  split
  · next hm =>
    split
    · next h =>
      subst h
      simp [times, hm]
    · rfl
  · next ts hm =>
    have hts : times fs m = ts := by rw [times, hm, Option.getD_some]
    rw [hts]
    by_cases hkept : ts.filter (b.keeps now) = []
    · simp only [hkept, if_true, times_erase, times_set]
      split
      · rfl
      · rfl
    · simp only [hkept, if_false, times_set]

variable {b}

theorem isOpen_eq (h : b.enabled = true) (now : FiniteFloat) (model : String) (fs : Failures) :
    b.isOpen now model fs =
      (decide (b.threshold ≤ ((times fs model).filter (b.keeps now)).length),
        b.prune now model fs) := by
  have hprune := b.times_prune now fs model model
  rw [if_pos rfl] at hprune
  rw [isOpen, if_pos h, ← hprune]
  rfl

/-- What is stored and what is logged agree on what the queries from `clock` on count. -/
structure Agrees (b : CircuitBreaker) (calls : List (FiniteFloat × BreakerCall))
    (clock : FiniteFloat) : Prop where
  past : ∀ model, ∀ ts ∈ b.failuresSince calls model, ts ≤ clock
  counted : ∀ model t, clock ≤ t →
    (times (b.after calls) model).filter (b.keeps t) =
      (b.failuresSince calls model).filter (b.keeps t)

theorem Agrees.nil (b : CircuitBreaker) (clock : FiniteFloat) : b.Agrees [] clock := by
  have hnone : ∀ model, b.failuresSince [] model = [] := by
    intro model
    unfold failuresSince
    split
    · rfl
    · rfl
  refine ⟨fun model ts h => ?_, fun model t _ => ?_⟩
  · rw [hnone] at h
    cases h
  · rw [hnone]
    rfl

theorem failuresSince_append (h : b.enabled = true) (calls : List (FiniteFloat × BreakerCall))
    (c : FiniteFloat × BreakerCall) (model : String) :
    b.failuresSince (calls ++ [c]) model = logged model (b.failuresSince calls model) c := by
  rw [failuresSince, if_pos h, failuresSince, if_pos h, List.foldl_append]
  rfl

theorem after_append (calls : List (FiniteFloat × BreakerCall)) (c : FiniteFloat × BreakerCall) :
    b.after (calls ++ [c]) = b.step c (b.after calls) := by
  rw [after, List.foldl_append]
  rfl

/-- Failures that a later query does not keep can be deleted. -/
theorem filter_keeps {now t : FiniteFloat} (h : now ≤ t) (ts : List FiniteFloat) :
    (ts.filter (b.keeps now)).filter (b.keeps t) = ts.filter (b.keeps t) := by
  rw [List.filter_filter]
  refine List.filter_congr fun u _ => ?_
  by_cases hu : b.keeps t u = true
  · simp [hu, b.keeps_mono h hu]
  · simp [hu]

/-- A call keeps the agreement. -/
theorem Agrees.step {calls : List (FiniteFloat × BreakerCall)} {clock : FiniteFloat}
    (h : b.Agrees calls clock) (hb : b.enabled = true) {c : FiniteFloat × BreakerCall}
    (hc : clock ≤ c.1) :
    b.Agrees (calls ++ [c]) c.1 := by
  obtain ⟨now, call⟩ := c
  have hpast : ∀ model, ∀ ts ∈ b.failuresSince calls model, ts ≤ now :=
    fun model ts hts => (h.past model ts hts).trans hc
  refine ⟨fun model ts hts => ?_, fun model t ht => ?_⟩
  · rw [failuresSince_append hb] at hts
    cases call with
    | recordFailure m =>
      simp only [logged] at hts
      split at hts
      · rcases List.mem_append.mp hts with hts | hts
        · exact hpast model ts hts
        · exact (List.mem_singleton.mp hts).le
      · exact hpast model ts hts
    | recordSuccess m =>
      simp only [logged] at hts
      split at hts
      · cases hts
      · exact hpast model ts hts
    | isOpen m => exact hpast model ts hts
    | snapshotOpenCircuits => exact hpast model ts hts
  · have hcounted := h.counted model t (hc.trans ht)
    rw [failuresSince_append hb, after_append]
    cases call with
    | recordFailure m =>
      simp only [CircuitBreaker.step, recordFailure, hb, if_true, times_set, logged]
      by_cases hm : model = m
      · subst hm
        simp only [if_true, List.filter_append]
        rw [← hcounted]
        rfl
      · simpa only [if_neg hm, if_neg (Ne.symm hm)] using hcounted
    | recordSuccess m =>
      simp only [CircuitBreaker.step, recordSuccess, hb, if_true, times_erase, logged]
      by_cases hm : model = m
      · subst hm
        simp only [if_true]
      · simpa only [if_neg hm, if_neg (Ne.symm hm)] using hcounted
    | isOpen m =>
      simp only [CircuitBreaker.step, isOpen_eq hb, times_prune, logged]
      split
      · next hm =>
        subst hm
        rw [filter_keeps ht, hcounted]
      · exact hcounted
    | snapshotOpenCircuits => exact hcounted

/-- Calls at nondecreasing readings of the clock keep the agreement. -/
theorem agrees_of_calls (hb : b.enabled = true) {calls : List (FiniteFloat × BreakerCall)}
    (hs : (calls.map (·.1)).Pairwise (· ≤ ·)) {t : FiniteFloat} (ht : ∀ c ∈ calls, c.1 ≤ t) :
    b.Agrees calls t := by
  induction calls using List.reverseRecOn generalizing t with
  | nil => exact Agrees.nil b t
  | append_singleton calls c ih =>
    rw [List.map_append, List.pairwise_append] at hs
    have hle : ∀ c' ∈ calls, c'.1 ≤ c.1 := fun c' hc' =>
      hs.2.2 _ (List.mem_map_of_mem hc') _ List.mem_cons_self
    have h := (ih hs.1 hle).step hb (le_refl c.1)
    have hct : c.1 ≤ t := ht c (List.mem_append_right calls List.mem_cons_self)
    exact ⟨fun model ts hts => (h.past model ts hts).trans hct,
      fun model u hu => h.counted model u (hct.trans hu)⟩

/-! ## The queries -/

/-- What a query counts, among the failures of the log. -/
theorem Agrees.count {calls : List (FiniteFloat × BreakerCall)} {t : FiniteFloat}
    (h : b.Agrees calls t) (model : String) (p : FiniteFloat → Bool)
    (hp : ∀ ts, p ts = true → b.keeps t ts = true) :
    ((times (b.after calls) model).filter p).length = b.failuresAt calls model p := by
  have hfilter : ∀ l : List FiniteFloat, l.filter p = (l.filter (b.keeps t)).filter p := by
    intro l
    rw [List.filter_filter]
    refine List.filter_congr fun ts _ => ?_
    by_cases hts : p ts = true
    · simp [hts, hp ts hts]
    · simp [hts]
  rw [hfilter, h.counted model t (le_refl t), ← hfilter, failuresAt]

/-- The answer of a query, by the log. -/
theorem isOpen_iff {calls : List (FiniteFloat × BreakerCall)}
    (hs : (calls.map (·.1)).Pairwise (· ≤ ·)) {t : FiniteFloat} (ht : ∀ c ∈ calls, c.1 ≤ t)
    (model : String) :
    (b.isOpen t model (b.after calls)).1 = true ↔
      b.threshold ≤ b.failuresAt calls model (b.keeps t) := by
  cases hb : b.enabled with
  | true =>
    rw [isOpen_eq hb, decide_eq_true_eq,
      (agrees_of_calls hb hs ht).count model _ fun ts hts => hts]
  | false =>
    have hpos := b.threshold_pos
    simp only [isOpen, hb, failuresAt, failuresSince, Bool.false_eq_true, if_false, false_iff,
      List.filter_nil, List.length_nil]
    omega

/-- The models of the snapshot, by the log. -/
theorem mem_snapshot_iff {calls : List (FiniteFloat × BreakerCall)}
    (hs : (calls.map (·.1)).Pairwise (· ≤ ·)) {t : FiniteFloat} (ht : ∀ c ∈ calls, c.1 ≤ t)
    (model : String) :
    model ∈ b.snapshotOpenCircuits t (b.after calls) ↔
      b.threshold ≤ b.failuresAt calls model (b.young t) := by
  have hpos := b.threshold_pos
  cases hb : b.enabled with
  | true =>
    rw [← (agrees_of_calls hb hs ht).count model (b.young t) fun ts => b.keeps_of_young]
    simp only [snapshotOpenCircuits, hb, if_true, List.mem_map, List.mem_filter,
      Bool.and_eq_true, decide_eq_true_eq]
    constructor
    · rintro ⟨⟨m, ts⟩, ⟨hmem, -, hlen⟩, rfl⟩
      rwa [times, Dict.mem_entries.mp hmem, Option.getD_some]
    · intro hlen
      unfold times at hlen
      cases hget : (b.after calls).get? model with
      | none =>
        rw [hget, Option.getD_none, List.filter_nil, List.length_nil] at hlen
        omega
      | some ts =>
        rw [hget, Option.getD_some] at hlen
        refine ⟨(model, ts), ⟨Dict.mem_entries.mpr hget, ?_, hlen⟩, rfl⟩
        -- The threshold is positive, so some failure is young.
        obtain ⟨u, hu⟩ := List.exists_mem_of_length_pos (lt_of_lt_of_le hpos hlen)
        obtain ⟨hmem, hu⟩ := List.mem_filter.mp hu
        exact List.any_eq_true.mpr ⟨u, hmem, hu⟩
  | false =>
    simp only [snapshotOpenCircuits, hb, failuresAt, failuresSince, Bool.false_eq_true, if_false,
      List.not_mem_nil, false_iff, List.filter_nil, List.length_nil]
    omega

theorem snapshot_nodup (t : FiniteFloat) (fs : Failures) : (b.snapshotOpenCircuits t fs).Nodup := by
  unfold snapshotOpenCircuits
  split
  · exact fs.nodup.sublist (List.filter_sublist.map _)
  · exact .nil

/-- The log has no failure after the last call. -/
theorem failuresSince_le {calls : List (FiniteFloat × BreakerCall)}
    (hs : (calls.map (·.1)).Pairwise (· ≤ ·)) {t : FiniteFloat} (ht : ∀ c ∈ calls, c.1 ≤ t)
    (model : String) : ∀ ts ∈ b.failuresSince calls model, ts ≤ t := by
  cases hb : b.enabled with
  | true => exact (agrees_of_calls hb hs ht).past model
  | false =>
    intro ts hts
    rw [failuresSince, hb, if_neg (by decide)] at hts
    cases hts

/-- The failures in the window are among those that a query keeps. -/
theorem failuresIn_le_keeps (calls : List (FiniteFloat × BreakerCall)) (model : String)
    (t : FiniteFloat) : b.failuresIn calls model t ≤ b.failuresAt calls model (b.keeps t) := by
  refine (List.monotone_filter_right _ fun ts hts => ?_).length_le
  exact b.keeps_of_window (of_decide_eq_true (Bool.and_eq_true_iff.mp hts).1)

/-- The failures that the snapshot counts are in the window. -/
theorem young_le_failuresIn {calls : List (FiniteFloat × BreakerCall)}
    (hs : (calls.map (·.1)).Pairwise (· ≤ ·)) {t : FiniteFloat} (ht : ∀ c ∈ calls, c.1 ≤ t)
    (model : String) : b.failuresAt calls model (b.young t) ≤ b.failuresIn calls model t := by
  have heq : (b.failuresSince calls model).filter (b.young t) =
      (b.failuresSince calls model).filter fun ts => b.young t ts && decide (ts ≤ t) := by
    refine List.filter_congr fun ts hts => ?_
    rw [decide_eq_true (failuresSince_le hs ht model ts hts), Bool.and_true]
  rw [failuresAt, heq]
  refine (List.monotone_filter_right _ fun ts hts => ?_).length_le
  obtain ⟨hyoung, hpast⟩ := Bool.and_eq_true_iff.mp hts
  exact Bool.and_eq_true_iff.mpr ⟨decide_eq_true (b.window_of_young hyoung).le, hpast⟩

/-- After calls at nondecreasing readings of the clock, a query says whether the threshold is
reached in the closed window, and the snapshot lists the models that a query finds open, if and
only if the failures that a query keeps reach the threshold only where those that the snapshot
counts do. -/
theorem breaker_agrees_iff (b : CircuitBreaker) (calls : List (FiniteFloat × BreakerCall))
    (hs : (calls.map (·.1)).Pairwise (· ≤ ·)) (t : FiniteFloat) (ht : ∀ c ∈ calls, c.1 ≤ t) :
    ((∀ model, (b.isOpen t model (b.after calls)).1 = true ↔
        b.threshold ≤ b.failuresIn calls model t) ∧
      (b.snapshotOpenCircuits t (b.after calls)).Nodup ∧
      ∀ model, model ∈ b.snapshotOpenCircuits t (b.after calls) ↔
        (b.isOpen t model (b.after calls)).1 = true) ↔
    ∀ model, b.threshold ≤ b.failuresAt calls model (b.keeps t) →
      b.threshold ≤ b.failuresAt calls model (b.young t) := by
  have hsnapshot := mem_snapshot_iff (b := b) hs ht
  have hopen := isOpen_iff (b := b) hs ht
  have hyoung := young_le_failuresIn (b := b) hs ht
  constructor
  · rintro ⟨-, -, hagree⟩ model h
    exact (hsnapshot model).mp ((hagree model).mpr ((hopen model).mpr h))
  · intro h
    refine ⟨fun model => ?_, snapshot_nodup t _, fun model => ?_⟩
    · rw [hopen]
      exact ⟨fun hk => (h model hk).trans (hyoung model),
        fun hin => hin.trans (b.failuresIn_le_keeps calls model t)⟩
    · rw [hsnapshot, hopen]
      exact ⟨fun hy => (hy.trans (hyoung model)).trans (b.failuresIn_le_keeps calls model t),
        h model⟩

/-- Two failures in a minute open the circuit. -/
def twoInAMinute : CircuitBreaker where
  threshold := 2
  timeout := ⟨60, isFloat_sixty⟩
  threshold_pos := by decide
  timeout_pos := by decide

/-- A failure at the start and one after half a minute. -/
def halfAMinute : List (FiniteFloat × BreakerCall) :=
  [(⟨0, isFloat_zero⟩, .recordFailure "m"), (⟨30, isFloat_thirty⟩, .recordFailure "m")]

/-- Half a minute later a query and the snapshot agree. -/
theorem breaker_agrees_inside :
    let t : FiniteFloat := ⟨59, by decide +kernel⟩
    ∀ model, model ∈ twoInAMinute.snapshotOpenCircuits t (twoInAMinute.after halfAMinute) ↔
      (twoInAMinute.isOpen t model (twoInAMinute.after halfAMinute)).1 = true := by
  intro t
  refine ((breaker_agrees_iff twoInAMinute halfAMinute (by decide +kernel) t
    (by decide +kernel)).mpr fun model h => ?_).2.2
  -- All the failures are inside the window.
  by_cases hm : model = "m"
  · subst hm
    decide +kernel
  · simp [failuresAt, failuresSince, twoInAMinute, halfAMinute, logged, Ne.symm hm] at h

/-- A minute after the first failure the circuit is open, and the snapshot leaves it out. -/
theorem snapshot_misses_boundary :
    ¬ ∀ (b : CircuitBreaker) (calls : List (FiniteFloat × BreakerCall)) (t : FiniteFloat),
      (calls.map (·.1)).Pairwise (· ≤ ·) → (∀ c ∈ calls, c.1 ≤ t) →
      ∀ model, model ∈ b.snapshotOpenCircuits t (b.after calls) ↔
        (b.isOpen t model (b.after calls)).1 = true := by
  intro hall
  have h := hall twoInAMinute halfAMinute ⟨60, isFloat_sixty⟩ (by decide +kernel)
    (by decide +kernel) "m"
  have hopen : (twoInAMinute.isOpen ⟨60, isFloat_sixty⟩ "m"
      (twoInAMinute.after halfAMinute)).1 = true := by decide +kernel
  have hempty : twoInAMinute.snapshotOpenCircuits ⟨60, isFloat_sixty⟩
      (twoInAMinute.after halfAMinute) = [] := by decide +kernel
  rw [hempty] at h
  exact absurd (h.mpr hopen) List.not_mem_nil

/-- A query can keep a failure that is older than the timeout. -/
example :
    let b : CircuitBreaker := ⟨1, tenth, true, by decide, by decide +kernel⟩
    let calls : List (FiniteFloat × BreakerCall) := [(⟨1, by decide +kernel⟩, .recordFailure "m")]
    (b.isOpen elevenTenths "m" (b.after calls)).1 = true ∧
      b.failuresIn calls "m" elevenTenths = 0 := by decide +kernel

end CircuitBreaker
end Core
end AutoSRE

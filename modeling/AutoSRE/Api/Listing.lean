import AutoSRE.Api.Signatures
import AutoSRE.Api.Summaries
import AutoSRE.Lib.ForEach
import Mathlib.Data.List.Dedup
import Mathlib.Data.List.Sort

/-!
# The list of incidents (`api/runner.py`, `api/routes.py`)

- **The runner** (`recentThreads`, `listIncidents`). The threads of the checkpoints, those with the
  last checkpoint first, up to a limit. A state that cannot be read is left out.
- **The route** (`getIncidents`). It leaves out the empty states, and then those of another status.
- **The filtered list** (`listing_right_iff`). The limit comes before the filter, so the list is
  right if and only if the incidents that it should have are among the most recent threads.
-/

namespace AutoSRE
namespace Api

open Py Lib

/-! ## The checkpoints -/

/-- The identifier of an incident, which is the text of a UUID. -/
structure ThreadId where
  text : String
  stripped : strip text = text
  nonempty : text ≠ ""

instance : DecidableEq ThreadId := fun a b =>
  decidable_of_iff (a.text = b.text)
    ⟨fun h => by cases a; cases b; simp_all, fun h => h ▸ rfl⟩

/-- The rows of the table, and what `aget_state` does for a thread: it raises an exception, finds
nothing, or finds a snapshot with its values. A checkpoint has a UUID of version 6, whose text sorts
as its number. -/
structure Checkpoints where
  rows : List (ThreadId × Nat)
  read : ThreadId → Except PyExc (Option Json)

namespace Checkpoints

variable (cp : Checkpoints)

/-- `MAX(checkpoint_id)` of a thread. -/
def lastCheckpoint (t : ThreadId) : Nat :=
  ((cp.rows.filter fun r => r.1 = t).map (·.2)).foldr max 0

/-- The first thread is not less recent than the second. -/
def NotLater (a b : ThreadId) : Prop := cp.lastCheckpoint b ≤ cp.lastCheckpoint a

instance : DecidableRel cp.NotLater := fun a b =>
  inferInstanceAs (Decidable (cp.lastCheckpoint b ≤ cp.lastCheckpoint a))

instance : Std.Total cp.NotLater := ⟨fun _ _ => Nat.le_total ..⟩

instance : IsTrans ThreadId cp.NotLater := ⟨fun _ _ _ hab hbc => Nat.le_trans hbc hab⟩

/-- `SELECT thread_id … GROUP BY thread_id … ORDER BY last_checkpoint DESC`. -/
def recentThreads : List ThreadId := (cp.rows.map (·.1)).dedup.insertionSort cp.NotLater

/-- The query has each thread of the table once. -/
theorem mem_recentThreads {t : ThreadId} : t ∈ cp.recentThreads ↔ ∃ k, (t, k) ∈ cp.rows := by
  rw [recentThreads, List.mem_insertionSort, List.mem_dedup, List.mem_map]
  constructor
  · rintro ⟨⟨t, k⟩, h, rfl⟩
    exact ⟨k, h⟩
  · rintro ⟨k, h⟩
    exact ⟨(t, k), h, rfl⟩

theorem recentThreads_nodup : cp.recentThreads.Nodup :=
  (List.perm_insertionSort ..).nodup_iff.mpr (List.nodup_dedup _)

/-- The threads with the last checkpoint come first. -/
theorem recentThreads_sorted : cp.recentThreads.Pairwise cp.NotLater :=
  List.pairwise_insertionSort ..

/-- `_extract_thread_id`. -/
def extractThreadId (row : String) : Option String :=
  let text := strip row
  if text = "" then none else some text

/-- The state of a thread that the query has returned. -/
def loadState (t : ThreadId) : Option (String × Json) :=
  match extractThreadId t.text, cp.read t with
  | some threadId, .ok (some state) => some (threadId, state)
  | _, _ => none

/-- `list_incidents` of the runner. -/
def listIncidents (limit : Nat) : Except PyExc (List (String × Json)) :=
  if limit = 0 then .error (.valueError "limit must be greater than zero")
  else .ok ((cp.recentThreads.take limit).filterMap cp.loadState)

end Checkpoints

/-! ## The route -/

structure IncidentListResponse where
  items : List IncidentSummary
  total : Nat

/-- `status_filter and summary.status != status_filter`. -/
def filteredOut (statusFilter : Option String) (status : String) : Bool :=
  match statusFilter with
  | none => false
  | some s => s != "" && status != s

/-- A summary is listed unless it is filtered out. -/
def addItem (statusFilter : Option String) (items : List IncidentSummary)
    (summary : IncidentSummary) : List IncidentSummary :=
  if filteredOut statusFilter summary.status then items else items ++ [summary]

/-- The loop of `list_incidents`. -/
def collectItems (statusFilter : Option String) (states : List (String × Json)) :
    Except PyExc (List IncidentSummary) :=
  forEach (fun s => extractSummary s.1 s.2) (addItem statusFilter) [] (live states)

/-- The `limit` of a query, which FastAPI checks. -/
structure ListLimit where
  value : Nat := 100
  ge : 1 ≤ value
  le : value ≤ 500

/-- The answer of the route, or that of its handler of exceptions. -/
def listResponse : Except PyExc (List IncidentSummary) → Except HttpError IncidentListResponse
  | .ok items => .ok ⟨items, items.length⟩
  | .error exc => .error ⟨500, "Failed to list incidents: " ++ exc.text⟩

/-- `GET /incidents`. -/
def getIncidents (cp : Checkpoints) (statusFilter : Option String) (limit : ListLimit) :
    Except HttpError IncidentListResponse :=
  listResponse do collectItems statusFilter (← cp.listIncidents limit.value)

/-! ## A limit before a filter -/

/-- What passes the filter among the first elements are the first that pass it, if and only if there
are enough of them. -/
theorem filter_take_eq_iff {α : Type} (p : α → Bool) (l : List α) (n : Nat) :
    (l.take n).filter p = (l.filter p).take n ↔
      min n (l.filter p).length ≤ ((l.take n).filter p).length := by
  have htake : (l.take n).filter p = (l.filter p).take ((l.take n).filter p).length :=
    List.prefix_iff_eq_take.mp ((List.take_prefix n l).filter p)
  have hlen : ((l.take n).filter p).length ≤ n :=
    Nat.le_trans (List.length_filter_le p _) (List.length_take_le n l)
  have htotal : ((l.take n).filter p).length ≤ (l.filter p).length :=
    ((List.take_prefix n l).filter p).length_le
  constructor
  · intro h
    have hlength := congrArg List.length h
    rw [List.length_take] at hlength
    exact Nat.le_of_eq hlength.symm
  · intro h
    have hmin : ((l.take n).filter p).length = min n (l.filter p).length := by omega
    rw [htake, hmin, List.take_eq_take_iff]
    omega

/-! ## What is listed -/

theorem foldl_addItem (statusFilter : Option String) (items summaries : List IncidentSummary) :
    summaries.foldl (addItem statusFilter) items =
      items ++ summaries.filter fun s => !filteredOut statusFilter s.status := by
  induction summaries generalizing items with
  | nil => exact (List.append_nil items).symm
  | cons s summaries ih =>
    rw [List.foldl_cons, ih, addItem]
    by_cases h : filteredOut statusFilter s.status = true
    · simp [h]
    · simp [h]

/-- The identifiers of the incidents, with their status. -/
def statuses (states : List (String × Json)) : List (String × String) :=
  (live states).map fun s => (s.1, statusOf s.2)

/-- The route lists each incident under its status, unless it filters it out. -/
theorem collectItems_ok {statusFilter : Option String} {states : List (String × Json)}
    {items : List IncidentSummary} (h : collectItems statusFilter states = .ok items) :
    items.map (fun i => (i.incidentId, i.status)) =
      (statuses states).filter fun s => !filteredOut statusFilter s.2 := by
  obtain ⟨summaries, hreads, rfl⟩ := forEach_ok_iff.mp h
  have hkeys : summaries.map (fun i => (i.incidentId, i.status)) = statuses states := by
    refine hreads.map_eq fun s _ summary hs => ?_
    obtain ⟨hid, hstatus⟩ := extractSummary_ok hs
    rw [hid, hstatus]
  rw [foldl_addItem, List.nil_append, ← hkeys, List.filter_map]
  rfl

/-- It fails if a summary cannot be made. -/
theorem collectItems_iff (statusFilter : Option String) (states : List (String × Json)) :
    (∃ items, collectItems statusFilter states = .ok items) ↔
      ∀ s ∈ live states, ∃ summary, extractSummary s.1 s.2 = .ok summary := by
  rw [← Reads.exists_iff]
  constructor
  · rintro ⟨items, h⟩
    obtain ⟨summaries, hreads, -⟩ := forEach_ok_iff.mp h
    exact ⟨summaries, hreads⟩
  · rintro ⟨summaries, hreads⟩
    exact ⟨_, forEach_ok_iff.mpr ⟨summaries, hreads, rfl⟩⟩

/-! ## What should be listed -/

namespace Checkpoints

variable (cp : Checkpoints)

/-- The values of a thread, if it can be read and is not empty. -/
def valuesOf (t : ThreadId) : Option PyDict :=
  match cp.read t with
  | .ok (some state) => if (stateValues state).isEmpty then none else some (stateValues state)
  | _ => none

/-- The derived status of a thread. -/
def status (t : ThreadId) : Option String := (cp.valuesOf t).map statusOf

/-- The most recent incidents with a status. -/
def withStatus (s : String) (threads : List ThreadId) : List ThreadId :=
  threads.filter fun t => cp.status t = some s

theorem withStatus_take_iff (s : String) (threads : List ThreadId) (n : Nat) :
    cp.withStatus s (threads.take n) = (cp.withStatus s threads).take n ↔
      min n (cp.withStatus s threads).length ≤ (cp.withStatus s (threads.take n)).length :=
  filter_take_eq_iff _ threads n

/-- The threads have a summary, or none to make. -/
def Summarised (threads : List ThreadId) : Prop :=
  ∀ t ∈ threads, ∀ values, cp.valuesOf t = some values →
    ∃ summary, extractSummary t.text values = .ok summary

theorem loadState_bind (t : ThreadId) :
    (cp.loadState t).bind liveEntry = (cp.valuesOf t).map fun values => (t.text, values) := by
  have hid : extractThreadId t.text = some t.text := by
    rw [extractThreadId, t.stripped, if_neg t.nonempty]
  unfold loadState valuesOf
  rw [hid]
  cases cp.read t with
  | error exc => rfl
  | ok found =>
    cases found with
    | none => rfl
    | some state =>
      simp only [Option.bind_some, liveEntry]
      split
      · rfl
      · rfl

theorem live_loadState (threads : List ThreadId) :
    live (threads.filterMap cp.loadState) =
      threads.filterMap fun t => (cp.valuesOf t).map fun values => (t.text, values) := by
  rw [live, List.filterMap_filterMap]
  exact List.filterMap_congr fun t _ => cp.loadState_bind t

theorem summarised_iff (threads : List ThreadId) :
    (∀ s ∈ live (threads.filterMap cp.loadState), ∃ summary, extractSummary s.1 s.2 = .ok summary) ↔
      cp.Summarised threads := by
  simp only [live_loadState, List.mem_filterMap, Option.map_eq_some_iff]
  constructor
  · intro h t ht values hv
    exact h (t.text, values) ⟨t, ht, values, hv, rfl⟩
  · rintro h _ ⟨t, ht, values, hv, rfl⟩
    exact h t ht values hv

/-- What the route lists of a thread. -/
def shown (filter : Option String) (t : ThreadId) : Option (String × String) :=
  (cp.status t).bind fun status => if filteredOut filter status then none else some (t.text, status)

theorem statuses_shown (filter : Option String) (threads : List ThreadId) :
    ((statuses (threads.filterMap cp.loadState)).filter fun s => !filteredOut filter s.2) =
      threads.filterMap (cp.shown filter) := by
  rw [statuses, live_loadState, List.map_filterMap, List.filter_filterMap]
  refine List.filterMap_congr fun t _ => ?_
  unfold shown status
  cases cp.valuesOf t with
  | none => rfl
  | some values =>
    simp only [Option.map_some, Option.bind_some, Option.filter_some]
    cases filteredOut filter (statusOf values)
    · rfl
    · rfl

theorem shown_eq {s : String} {t : ThreadId}
    (h : s = "" → ∀ status, cp.status t = some status → status = "") :
    cp.shown (some s) t = if cp.status t = some s then some (t.text, s) else none := by
  unfold shown
  cases hstatus : cp.status t with
  | none => rfl
  | some status =>
    simp only [Option.bind_some, filteredOut, Option.some.injEq]
    by_cases hs : status = s
    · simp [hs]
    · have hne : s ≠ "" := fun hempty => hs ((h hempty status hstatus).trans hempty.symm)
      simp [hs, hne]

theorem filterMap_shown {s : String} {threads : List ThreadId}
    (h : s = "" → ∀ t ∈ threads, ∀ status, cp.status t = some status → status = "") :
    threads.filterMap (cp.shown (some s)) = (cp.withStatus s threads).map fun t => (t.text, s) := by
  rw [withStatus, ← List.filterMap_eq_map, List.filterMap_filter]
  refine List.filterMap_congr fun t ht => ?_
  rw [shown_eq cp fun hempty => h hempty t ht]
  simp only [decide_eq_true_eq, Function.comp_apply]

theorem threadKey_injective (s : String) :
    Function.Injective fun t : ThreadId => (t.text, s) := by
  intro a b h
  obtain ⟨text, _, _⟩ := a
  obtain ⟨text', _, _⟩ := b
  obtain rfl : text = text' := congrArg Prod.fst h
  rfl

/-- The threads that are shown are the expected ones with the status, if and only if the filter is
not empty, or needless, and the threads with the status are the expected ones. -/
theorem shown_eq_iff (s : String) (threads expected : List ThreadId) :
    threads.filterMap (cp.shown (some s)) = expected.map (fun t => (t.text, s)) ↔
      (s = "" → ∀ t ∈ threads, ∀ status, cp.status t = some status → status = "") ∧
        cp.withStatus s threads = expected := by
  constructor
  · intro h
    have hempty : s = "" → ∀ t ∈ threads, ∀ status, cp.status t = some status → status = "" := by
      rintro rfl t ht status hstatus
      have hshown : cp.shown (some "") t = some (t.text, status) := by
        rw [shown, hstatus]
        rfl
      have hmem := List.mem_filterMap.mpr ⟨t, ht, hshown⟩
      rw [h] at hmem
      obtain ⟨_, -, heq⟩ := List.mem_map.mp hmem
      exact (congrArg Prod.snd heq).symm
    rw [filterMap_shown cp hempty] at h
    exact ⟨hempty, List.map_injective_iff.mpr (threadKey_injective s) h⟩
  · rintro ⟨hempty, rfl⟩
    exact filterMap_shown cp hempty

end Checkpoints

def resolvedThread : ThreadId :=
  ⟨"0b6e4a52-7c1d-4f0e-9a3b-5d2c8e7f1a60", by decide +kernel, by decide +kernel⟩

def runningThread : ThreadId :=
  ⟨"c4d1f7a8-2b3e-4c5d-8e6f-7a8b9c0d1e2f", by decide +kernel, by decide +kernel⟩

/-- The running incident has the last checkpoint. -/
def twoIncidents : Checkpoints where
  rows := [(resolvedThread, 1), (runningThread, 2)]
  read t :=
    .ok (some (.obj [("status", .str (if t = resolvedThread then "resolved" else "running"))]))

/-- With a limit of two both incidents are found under their status. -/
example : ((getIncidents twoIncidents (some "resolved") ⟨2, by decide, by decide⟩).toOption.map
    fun r => r.items.map (·.incidentId)) = some [resolvedThread.text] := by decide +kernel

end Api
end AutoSRE

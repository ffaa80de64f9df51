import AutoSRE.Api.Listing
import AutoSRE.Python.Mean

/-!
# The dashboard (`api/routes.py`)

- **The summary** (`getMetricsSummary`), **the time series** (`getMetricsTimeseries`) and **the most
  expensive incidents** (`getTopExpensive`). Each reads the states that the runner returns, in a
  loop of its own. What `datetime.fromisoformat` reads is a parameter.
- **Agreement** (`Consistent`). The routes show each incident under one status, and the totals of
  the summary are the sums over the buckets.
- **The exact conditions** (`dashboard_iff`). An incident that awaits an approval, an empty state, a
  blocked incident, or a time before 1970 with a fraction of a second can set the routes apart.
-/

namespace AutoSRE
namespace Api

open Py Lib

/-- The answer of a route, or that of its handler of exceptions. -/
def orFail {α : Type} (failure : String) : Except PyExc α → Except HttpError α
  | .ok a => .ok a
  | .error exc => .error ⟨500, failure ++ exc.text⟩

/-! ## The summary -/

/-- `_PROHIBITED_TOOLS`. -/
def prohibitedTools : List String := ["delete_namespace", "drop_table"]

/-- `_TERMINAL_SUCCESS_STATUSES`. -/
def terminalSuccessStatuses : List String := ["resolved"]

/-- `_TERMINAL_FAILURE_STATUSES`. -/
def terminalFailureStatuses : List String := ["failed", "blocked"]

/-- `_NO_ACTION_STATUSES`. -/
def noActionStatuses : List String := ["no_action"]

/-- `_baseline_mttr_seconds`. -/
def baselineMttrSeconds (values : PyDict) : Except PyExc PyFloat := do
  let labels := dictField (dictField values "incident_metadata") "labels"
  let value ← asFloat (PyDict.getD labels "baseline_mttr_seconds" .null)
  pure (if PyFloat.lt .zero value then value else .zero)

/-- `_count_safety_violations`. A tool name that is a list or a dictionary has no hash. -/
def countSafetyViolations : List Json → Except PyExc Nat
  | [] => .ok 0
  | .obj action :: actions =>
    let toolName := PyDict.getD action "tool_name" .null
    if toolName.hashable then do
      let rest ← countSafetyViolations actions
      pure (if prohibitedTools.any fun tool => Json.pyEq toolName (.str tool) then rest + 1
        else rest)
    else .error (.typeError ("cannot use '" ++ toolName.typeName ++
      "' as a set element (unhashable type: '" ++ toolName.typeName ++ "')"))
  | _ :: actions => countSafetyViolations actions

/-- `text or "unknown"`. -/
def orUnknown (text : String) : String := if text = "" then "unknown" else text

/-- The category of an incident: that of its labels, or of its metadata. -/
def categoryOf (values : PyDict) : String :=
  let metadata := dictField values "incident_metadata"
  let category := orUnknown (asStr (PyDict.getD (dictField metadata "labels") "category" .null))
  if category = "unknown" then orUnknown (asStr (PyDict.getD metadata "category" .null))
  else category

/-- The times of a resolved incident. -/
structure ResolvedTimes where
  active : PyFloat
  wall : PyFloat
  backoff : PyFloat
  baseline : PyFloat

/-- What the summary reads of an incident. -/
structure Kpis where
  status : String
  times : Option ResolvedTimes
  cost : PyFloat
  estimatedCost : PyFloat
  tokens : Int
  prompt : Int
  completion : Int
  modelUsage : Dict String ModelUsage
  category : String
  violations : Nat

def readTimes (values : PyDict) : Except PyExc (Option ResolvedTimes) :=
  if statusOf values ∈ terminalSuccessStatuses then do
    let active ← asFloat (PyDict.getD values "active_seconds" (.float .zero))
    let wall ← asFloat (PyDict.getD values "wall_clock_seconds" (.float .zero))
    let backoff ← asFloat (PyDict.getD values "backoff_seconds" (.float .zero))
    let baseline ← baselineMttrSeconds values
    pure (some ⟨active, wall, backoff, baseline⟩)
  else pure none

/-- The body of the loop of the summary, up to what it adds. -/
def readKpis (values : PyDict) : Except PyExc Kpis := do
  let times ← readTimes values
  let cost ← asFloat (PyDict.getD values "cost_usd" (.float .zero))
  let estimatedCost ← asFloat (PyDict.getD values "estimated_paid_cost_usd" (.float .zero))
  let tokens ← asInt (PyDict.getD values "tokens_used" (.int 0))
  let prompt ← asInt (PyDict.getD values "prompt_tokens" (.int 0))
  let completion ← asInt (PyDict.getD values "completion_tokens" (.int 0))
  let modelUsage ← asModelUsage (PyDict.getD values "model_usage" (.obj []))
  let violations ← countSafetyViolations (listField values "executed_actions")
  pure { times, cost, estimatedCost, tokens, prompt, completion, modelUsage, violations
         status := statusOf values
         category := categoryOf values }

/-- What the loop of the summary accumulates. -/
structure Totals where
  resolved : Nat := 0
  awaiting : Nat := 0
  failed : Nat := 0
  noAction : Nat := 0
  activeTimes : List PyFloat := []
  wallTimes : List PyFloat := []
  backoffTimes : List PyFloat := []
  baselines : List PyFloat := []
  cost : PyFloat := .zero
  estimatedCost : PyFloat := .zero
  tokens : Int := 0
  prompt : Int := 0
  completion : Int := 0
  violations : Nat := 0
  modelUsage : Dict String ModelUsage := .empty
  byCategory : Dict String Nat := .empty

namespace Totals

/-- The counter of a status. -/
def count (t : Totals) (status : String) : Totals :=
  if status = "awaiting_approval" then { t with awaiting := t.awaiting + 1 }
  else if status ∈ terminalSuccessStatuses then { t with resolved := t.resolved + 1 }
  else if status ∈ terminalFailureStatuses then { t with failed := t.failed + 1 }
  else if status ∈ noActionStatuses then { t with noAction := t.noAction + 1 }
  else t

/-- The times of a resolved incident, as far as they are there. -/
def addTimes (t : Totals) : Option ResolvedTimes → Totals
  | none => t
  | some r =>
    { t with
      activeTimes :=
        if PyFloat.lt .zero r.active then t.activeTimes ++ [r.active] else t.activeTimes
      wallTimes := if PyFloat.lt .zero r.wall then t.wallTimes ++ [r.wall] else t.wallTimes
      backoffTimes :=
        if PyFloat.le .zero r.backoff then t.backoffTimes ++ [r.backoff] else t.backoffTimes
      baselines :=
        if PyFloat.lt .zero r.baseline then t.baselines ++ [r.baseline] else t.baselines }

def addUsage (usage : Dict String ModelUsage) (item : String × ModelUsage) :
    Dict String ModelUsage :=
  let old := (usage.get? item.1).getD ⟨0, 0⟩
  usage.set item.1 ⟨old.calls + item.2.calls, old.tokens + item.2.tokens⟩

/-- The body of the loop of the summary, on what it has read. -/
def add (t : Totals) (k : Kpis) : Totals :=
  let t := (t.count k.status).addTimes k.times
  { t with
    cost := t.cost.add k.cost
    estimatedCost := t.estimatedCost.add k.estimatedCost
    tokens := t.tokens + k.tokens
    prompt := t.prompt + k.prompt
    completion := t.completion + k.completion
    violations := t.violations + k.violations
    modelUsage := k.modelUsage.entries.foldl addUsage t.modelUsage
    byCategory := t.byCategory.set k.category (((t.byCategory.get? k.category).getD 0) + 1) }

end Totals

structure MetricsSummary where
  totalIncidents : Nat
  resolvedCount : Nat
  awaitingApprovalCount : Nat
  failedCount : Nat
  noActionCount : Nat
  avgMttrSeconds : PyFloat
  avgWallClockSeconds : PyFloat
  avgBackoffSeconds : PyFloat
  baselineMttrSeconds : PyFloat
  mttrReductionPct : PyFloat
  totalCostUsd : PyFloat
  totalEstimatedPaidCostUsd : PyFloat
  totalTokens : Int
  totalPromptTokens : Int
  totalCompletionTokens : Int
  modelUsageSummary : Dict String ModelUsage
  safetyViolations : Nat
  incidentsByCategory : Dict String Nat

/-- The response of the summary; `total` is the number of states. -/
def Totals.finish (t : Totals) (total : Nat) : MetricsSummary :=
  let avgActive := PyFloat.mean t.activeTimes
  let avgBaseline := PyFloat.mean t.baselines
  let reduction :=
    if PyFloat.lt .zero avgBaseline then
      ((avgBaseline.sub avgActive).div avgBaseline).mul (.finite 100)
    else .zero
  { totalIncidents := total
    resolvedCount := t.resolved
    awaitingApprovalCount := t.awaiting
    failedCount := t.failed
    noActionCount := t.noAction
    avgMttrSeconds := avgActive.roundTo 2
    avgWallClockSeconds := (PyFloat.mean t.wallTimes).roundTo 2
    avgBackoffSeconds := (PyFloat.mean t.backoffTimes).roundTo 2
    baselineMttrSeconds := avgBaseline.roundTo 2
    mttrReductionPct := reduction.roundTo 2
    totalCostUsd := t.cost.roundTo 6
    totalEstimatedPaidCostUsd := t.estimatedCost.roundTo 6
    totalTokens := t.tokens
    totalPromptTokens := t.prompt
    totalCompletionTokens := t.completion
    modelUsageSummary := t.modelUsage
    safetyViolations := t.violations
    incidentsByCategory := t.byCategory }

/-- `GET /metrics/summary`, on the states of the runner. -/
def getMetricsSummary (states : List (String × Json)) : Except HttpError MetricsSummary :=
  orFail "Failed to get metrics: " do
    let t ← forEach (fun s => readKpis s.2) Totals.add {} (live states)
    pure (t.finish states.length)

/-! ## The time series -/

/-- What `datetime.fromisoformat` returns: the local time in microseconds since 1970, and the offset
from UTC if the text has one. -/
structure ParsedDatetime where
  microseconds : Int
  utcoffset : Option Int

/-- The time in microseconds; a time without an offset is UTC. -/
def ParsedDatetime.instant (d : ParsedDatetime) : Int := d.microseconds - d.utcoffset.getD 0

/-- `text.replace("Z", "+00:00")`. -/
def replaceZ (text : String) : String :=
  String.ofList (text.toList.flatMap fun c => if c = 'Z' then "+00:00".toList else [c])

/-- What the route reads of `started_at`; `fromisoformat` is `none` for a `ValueError`. -/
def startedAt (fromisoformat : String → Option ParsedDatetime) (values : PyDict) : Option Int :=
  let raw := PyDict.getD (dictField values "incident_metadata") "started_at" (.str "")
  if raw.truthy then (fromisoformat (replaceZ raw.toStr)).map ParsedDatetime.instant else none

/-- `datetime.timestamp`. -/
def timestamp (instant : Int) : PyFloat := .ofRat (mkRat instant 1000000)

/-- `int(x)` of a float. -/
def intOfFloat : PyFloat → Except PyExc Int
  | .finite q => .ok (truncate q)
  | .nan => .error (.valueError "cannot convert float NaN to integer")
  | .inf _ => .error (.overflowError "cannot convert float infinity to integer")

/-- `_bucket_epoch`. -/
def bucketEpoch (ts : PyFloat) (bucketSeconds : Int) : Except PyExc Int :=
  if bucketSeconds ≤ 0 then .error (.valueError "bucket_seconds must be positive")
  else do
    let seconds ← intOfFloat ts
    pure (Int.fdiv seconds bucketSeconds * bucketSeconds)

/-- The values of `range`. -/
inductive TimeRange where
  | oneHour
  | oneDay
  | sevenDays
  | thirtyDays
  deriving DecidableEq

/-- `_BUCKET_MINUTES_BY_RANGE`. -/
def TimeRange.bucketMinutes : TimeRange → Int
  | .oneHour => 5
  | .oneDay => 60
  | .sevenDays => 360
  | .thirtyDays => 1440

def TimeRange.bucketSeconds (range : TimeRange) : Int := range.bucketMinutes * 60

/-- What the time series reads of an incident, with the start of its bucket. -/
structure Placed where
  bucket : Int
  status : String
  active : Option PyFloat
  cost : PyFloat
  estimatedCost : PyFloat
  tokens : Int
  prompt : Int
  completion : Int

/-- The active time of a resolved incident. -/
def readActive (values : PyDict) : Except PyExc (Option PyFloat) :=
  if statusOf values = "resolved" then do
    let active ← asFloat (PyDict.getD values "active_seconds" (.float .zero))
    pure (some active)
  else pure none

/-- The body of the loop of the time series, up to what it adds. An incident without a time that can
be read is left out. -/
def readPlaced (fromisoformat : String → Option ParsedDatetime) (range : TimeRange)
    (values : PyDict) : Except PyExc (Option Placed) :=
  match startedAt fromisoformat values with
  | none => pure none
  | some instant => do
    let bucket ← bucketEpoch (timestamp instant) range.bucketSeconds
    let active ← readActive values
    let cost ← asFloat (PyDict.getD values "cost_usd" (.float .zero))
    let estimatedCost ← asFloat (PyDict.getD values "estimated_paid_cost_usd" (.float .zero))
    let tokens ← asInt (PyDict.getD values "tokens_used" (.int 0))
    let prompt ← asInt (PyDict.getD values "prompt_tokens" (.int 0))
    let completion ← asInt (PyDict.getD values "completion_tokens" (.int 0))
    pure (some { bucket, active, cost, estimatedCost, tokens, prompt, completion
                 status := statusOf values })

/-- A slot of `buckets`. -/
structure Slot where
  incidents : Nat := 0
  resolved : Nat := 0
  noAction : Nat := 0
  failed : Nat := 0
  activeTimes : List PyFloat := []
  totalCost : PyFloat := .zero
  totalEstimatedCost : PyFloat := .zero
  totalTokens : Int := 0
  totalPromptTokens : Int := 0
  totalCompletionTokens : Int := 0

namespace Slot

/-- The counter of a status, and the active time of a resolved incident. -/
def count (slot : Slot) (p : Placed) : Slot :=
  if p.status = "resolved" then
    { slot with
      resolved := slot.resolved + 1
      activeTimes := slot.activeTimes ++ p.active.toList.filter fun x => PyFloat.lt .zero x }
  else if p.status = "no_action" then { slot with noAction := slot.noAction + 1 }
  else if p.status = "failed" then { slot with failed := slot.failed + 1 }
  else slot

/-- The body of the loop of the time series, on the slot of the incident. -/
def add (slot : Slot) (p : Placed) : Slot :=
  let slot := slot.count p
  { slot with
    incidents := slot.incidents + 1
    totalCost := slot.totalCost.add p.cost
    totalEstimatedCost := slot.totalEstimatedCost.add p.estimatedCost
    totalTokens := slot.totalTokens + p.tokens
    totalPromptTokens := slot.totalPromptTokens + p.prompt
    totalCompletionTokens := slot.totalCompletionTokens + p.completion }

end Slot

/-- `buckets.setdefault(...)` and what is added to the slot. -/
def addPlaced (buckets : Dict Int Slot) : Option Placed → Dict Int Slot
  | none => buckets
  | some p => buckets.set p.bucket (((buckets.get? p.bucket).getD {}).add p)

/-- A `datetime` in UTC, by its seconds since 1970; the years are those from 1 to 9999. -/
structure UtcDatetime where
  seconds : Int
  year_ge : -62135596800 ≤ seconds
  year_le : seconds ≤ 253402300799

/-- `datetime.fromtimestamp(seconds, tz=UTC)`. -/
def fromtimestamp (seconds : Int) : Except PyExc UtcDatetime :=
  if hge : -62135596800 ≤ seconds then
    if hle : seconds ≤ 253402300799 then .ok ⟨seconds, hge, hle⟩
    else .error (.valueError "year must be in 1..9999, not 10000")
  else .error (.valueError "year must be in 1..9999, not 0")

/-- A bucket of the response. The text of a time is its `isoformat`. -/
structure MetricBucket where
  timestamp : UtcDatetime
  incidents : Nat
  resolved : Nat
  noAction : Nat
  failed : Nat
  avgMttrSeconds : PyFloat
  totalCostUsd : PyFloat
  totalEstimatedPaidCostUsd : PyFloat
  totalTokens : Int
  totalPromptTokens : Int
  totalCompletionTokens : Int

/-- The body of the loop over the sorted buckets. -/
def readBucket (buckets : Dict Int Slot) (start : Int) : Except PyExc MetricBucket := do
  let data := (buckets.get? start).getD {}
  let time ← fromtimestamp start
  pure {
    timestamp := time
    incidents := data.incidents
    resolved := data.resolved
    noAction := data.noAction
    failed := data.failed
    avgMttrSeconds := (PyFloat.mean data.activeTimes).roundTo 2
    totalCostUsd := data.totalCost.roundTo 6
    totalEstimatedPaidCostUsd := data.totalEstimatedCost.roundTo 6
    totalTokens := data.totalTokens
    totalPromptTokens := data.totalPromptTokens
    totalCompletionTokens := data.totalCompletionTokens }

/-- `sorted(buckets.keys())`. -/
def starts (buckets : Dict Int Slot) : List Int :=
  (buckets.entries.map (·.1)).insertionSort (· ≤ ·)

structure MetricsTimeseriesResponse where
  buckets : List MetricBucket
  range : TimeRange

/-- `GET /metrics/timeseries`, on the states of the runner. -/
def getMetricsTimeseries (fromisoformat : String → Option ParsedDatetime) (range : TimeRange)
    (states : List (String × Json)) : Except HttpError MetricsTimeseriesResponse :=
  orFail "Failed to get timeseries: " do
    let buckets ← forEach (fun s => readPlaced fromisoformat range s.2) addPlaced .empty
      (live states)
    let result ← forEach (readBucket buckets) (fun result b => result ++ [b]) [] (starts buckets)
    pure ⟨result, range⟩

/-! ## The most expensive incidents -/

structure ExpensiveIncident where
  incidentId : String
  alertName : String
  service : String
  costUsd : PyFloat
  estimatedPaidCostUsd : PyFloat
  tokensUsed : Int
  wallClockSeconds : PyFloat
  status : String

/-- The body of the loop. The status is the one that is stored. -/
def readExpensive (incidentId : String) (values : PyDict) : Except PyExc ExpensiveIncident := do
  let metadata := dictField values "incident_metadata"
  let costUsd ← asFloat (PyDict.getD values "cost_usd" (.float .zero))
  let estimatedPaidCostUsd ← asFloat (PyDict.getD values "estimated_paid_cost_usd" (.float .zero))
  let tokensUsed ← asInt (PyDict.getD values "tokens_used" (.int 0))
  let wallClockSeconds ← asFloat (PyDict.getD values "wall_clock_seconds" (.float .zero))
  pure { incidentId, costUsd, estimatedPaidCostUsd, tokensUsed, wallClockSeconds
         alertName := asStr (PyDict.getD metadata "alert_name" (.str ""))
         service := asStr (PyDict.getD metadata "service" (.str ""))
         status := rawStatusOf values }

/-- The order of `sort(key=cost_usd, reverse=True)`, which keeps equal costs as they are. -/
def NotCheaper (a b : PyFloat) : Prop := PyFloat.lt a b = false

instance : DecidableRel NotCheaper := fun a b =>
  inferInstanceAs (Decidable (PyFloat.lt a b = false))

/-- The `limit` of the route, which FastAPI checks. -/
structure ExpensiveLimit where
  value : Nat := 5
  ge : 1 ≤ value
  le : value ≤ 100

/-- `GET /metrics/top-expensive`, on the states of the runner. -/
def getTopExpensive (limit : ExpensiveLimit) (states : List (String × Json)) :
    Except HttpError (List ExpensiveIncident) :=
  orFail "Failed to get top expensive: " do
    let incidents ← forEach (fun s => readExpensive s.1 s.2) (fun l i => l ++ [i]) [] (live states)
    pure ((incidents.insertionSort fun a b => NotCheaper a.costUsd b.costUsd).take limit.value)

/-! ## Agreement -/

/-- `GET /incidents` on the states of the runner, without a filter. -/
def listStates (states : List (String × Json)) : Except HttpError IncidentListResponse :=
  listResponse (collectItems none states)

/-- The cost that the expensive incidents are sorted by, of an incident whose cost can be read. -/
def costOf (values : PyDict) : PyFloat :=
  (asFloat (PyDict.getD values "cost_usd" (.float .zero))).toOption.getD .zero

/-- The tokens of an incident whose tokens can be read. -/
def tokensOf (values : PyDict) : Int :=
  (asInt (PyDict.getD values "tokens_used" (.int 0))).toOption.getD 0

/-- The incidents with the highest costs. -/
def mostExpensive (states : List (String × Json)) (n : Nat) : List (String × PyDict) :=
  ((live states).insertionSort fun a b => NotCheaper (costOf a.2) (costOf b.2)).take n

/-- The incident awaits an approval. -/
def AwaitsApproval (values : PyDict) : Prop :=
  (PyDict.getD values "requires_human_approval" (.bool false)).truthy = true ∧
    isNone (PyDict.getD values "approval_granted" .null) = true ∧ rawStatusOf values = "running"

/-- The number of incidents with a status. -/
def countStatus (status : String) (incidents : List (String × PyDict)) : Int :=
  (incidents.filter fun s => statusOf s.2 = status).length

section Series

variable (fromisoformat : String → Option ParsedDatetime) (range : TimeRange)
  (states : List (String × Json))

/-- The incidents with a time. -/
def timed : List (String × PyDict) :=
  (live states).filter fun s => (startedAt fromisoformat s.2).isSome

/-- All states have a time, and so are not empty. -/
def AllTimed : Prop := ∀ s ∈ states, (stateValues s.2).isEmpty = false ∧
  (startedAt fromisoformat (stateValues s.2)).isSome = true

/-- The second that `int` makes of a time is in the same bucket as the time. -/
def SameBucket (instant : Int) : Prop :=
  ∃ seconds, intOfFloat (timestamp instant) = .ok seconds ∧
    Int.fdiv seconds range.bucketSeconds = Int.fdiv instant (range.bucketSeconds * 1000000)

/-- The totals of the summary are the sums over the buckets. -/
structure SameTotals (summary : MetricsSummary) (buckets : List MetricBucket) : Prop where
  incidents : (buckets.map fun b => (b.incidents : Int)).sum = summary.totalIncidents
  resolved : (buckets.map fun b => (b.resolved : Int)).sum = summary.resolvedCount
  noAction : (buckets.map fun b => (b.noAction : Int)).sum = summary.noActionCount
  failed : (buckets.map fun b => (b.failed : Int)).sum = summary.failedCount
  tokens : (buckets.map fun b => b.totalTokens).sum = summary.totalTokens

/-- The buckets are in order, and each incident is counted in the one that contains its time. -/
structure Bucketed (buckets : List MetricBucket) : Prop where
  increasing : buckets.Pairwise fun a b => a.timestamp.seconds < b.timestamp.seconds
  contained : ∀ s ∈ live states, ∀ instant, startedAt fromisoformat s.2 = some instant →
    ∀ p, readPlaced fromisoformat range s.2 = .ok (some p) →
      (∃ b ∈ buckets, b.timestamp.seconds = p.bucket) ∧
      p.bucket * 1000000 ≤ instant ∧ instant < (p.bucket + range.bucketSeconds) * 1000000

/-- The routes agree on the states. -/
structure Consistent (limit : Nat) (listing : IncidentListResponse) (summary : MetricsSummary)
    (series : MetricsTimeseriesResponse) (expensive : List ExpensiveIncident) : Prop where
  listed : listing.items.map (fun i => (i.incidentId, i.status)) = statuses states
  counted : (summary.resolvedCount : Int) = countStatus "resolved" (live states) ∧
    (summary.awaitingApprovalCount : Int) = countStatus "awaiting_approval" (live states) ∧
    (summary.failedCount : Int) =
      countStatus "failed" (live states) + countStatus "blocked" (live states) ∧
    (summary.noActionCount : Int) = countStatus "no_action" (live states)
  placed : (series.buckets.map fun b => (b.resolved : Int)).sum =
      countStatus "resolved" (timed fromisoformat states) ∧
    (series.buckets.map fun b => (b.noAction : Int)).sum =
      countStatus "no_action" (timed fromisoformat states) ∧
    (series.buckets.map fun b => (b.failed : Int)).sum =
      countStatus "failed" (timed fromisoformat states)
  ranked : expensive.map (fun e => (e.incidentId, e.status)) =
    (mostExpensive states limit).map fun s => (s.1, statusOf s.2)
  categories : (summary.totalIncidents : Int) =
    summary.incidentsByCategory.sum fun n : Nat => (n : Int)
  totals : AllTimed fromisoformat states →
    SameTotals summary series.buckets ∧ Bucketed fromisoformat range states series.buckets

/-- What the routes read of an incident can be read, and its bucket has a year. -/
structure Answered (s : String × PyDict) : Prop where
  listing : ∃ r, extractSummary s.1 s.2 = .ok r
  summary : ∃ k, readKpis s.2 = .ok k
  expensive : ∃ e, readExpensive s.1 s.2 = .ok e
  series : ∃ p, readPlaced fromisoformat range s.2 = .ok p ∧
    ∀ q, p = some q → ∃ time, fromtimestamp q.bucket = .ok time

/-- When the routes agree. -/
structure Agreeable (limit : Nat) : Prop where
  answered : ∀ s ∈ live states, Answered fromisoformat range s
  noneAwaits : ∀ s ∈ mostExpensive states limit, ¬ AwaitsApproval s.2
  noneEmpty : ∀ s ∈ states, (stateValues s.2).isEmpty = false
  sameBucket : AllTimed fromisoformat states → ∀ s ∈ live states, statusOf s.2 ≠ "blocked" ∧
    ∀ instant, startedAt fromisoformat s.2 = some instant → SameBucket range instant

end Series

theorem orFail_ok_iff {α : Type} {failure : String} {x : Except PyExc α} {a : α} :
    orFail failure x = .ok a ↔ x = .ok a := by
  cases x with
  | ok b => simp [orFail]
  | error exc => simp [orFail]

/-! ### One incident -/

theorem readKpis_ok {values : PyDict} {k : Kpis} (h : readKpis values = .ok k) :
    k.status = statusOf values ∧ k.tokens = tokensOf values := by
  unfold readKpis at h
  obtain ⟨times, -, h⟩ := of_bind_ok h
  obtain ⟨cost, -, h⟩ := of_bind_ok h
  obtain ⟨estimatedCost, -, h⟩ := of_bind_ok h
  obtain ⟨tokens, htokens, h⟩ := of_bind_ok h
  obtain ⟨prompt, -, h⟩ := of_bind_ok h
  obtain ⟨completion, -, h⟩ := of_bind_ok h
  obtain ⟨modelUsage, -, h⟩ := of_bind_ok h
  obtain ⟨violations, -, h⟩ := of_bind_ok h
  obtain rfl := Except.ok.inj h
  refine ⟨rfl, ?_⟩
  rw [tokensOf, htokens]
  rfl

/-- What is read of an incident with a time. -/
structure PlacedOf (range : TimeRange) (values : PyDict) (instant : Int) (p : Placed) : Prop where
  bucket : bucketEpoch (timestamp instant) range.bucketSeconds = .ok p.bucket
  status : p.status = statusOf values
  tokens : p.tokens = tokensOf values

theorem readPlaced_none {fromisoformat : String → Option ParsedDatetime} {range : TimeRange}
    {values : PyDict} (h : startedAt fromisoformat values = none) :
    readPlaced fromisoformat range values = .ok none := by
  rw [readPlaced, h]
  rfl

theorem readPlaced_some {fromisoformat : String → Option ParsedDatetime} {range : TimeRange}
    {values : PyDict} {instant : Int} (h : startedAt fromisoformat values = some instant)
    {o : Option Placed} (ho : readPlaced fromisoformat range values = .ok o) :
    ∃ p, o = some p ∧ PlacedOf range values instant p := by
  rw [readPlaced, h] at ho
  obtain ⟨bucket, hbucket, ho⟩ := of_bind_ok ho
  obtain ⟨active, -, ho⟩ := of_bind_ok ho
  obtain ⟨cost, -, ho⟩ := of_bind_ok ho
  obtain ⟨estimatedCost, -, ho⟩ := of_bind_ok ho
  obtain ⟨tokens, htokens, ho⟩ := of_bind_ok ho
  obtain ⟨prompt, -, ho⟩ := of_bind_ok ho
  obtain ⟨completion, -, ho⟩ := of_bind_ok ho
  obtain rfl := Except.ok.inj ho
  refine ⟨_, rfl, hbucket, rfl, ?_⟩
  rw [tokensOf, htokens]
  rfl

theorem readExpensive_ok {incidentId : String} {values : PyDict} {e : ExpensiveIncident}
    (h : readExpensive incidentId values = .ok e) :
    e.incidentId = incidentId ∧ e.status = rawStatusOf values ∧ e.costUsd = costOf values := by
  unfold readExpensive at h
  obtain ⟨cost, hcost, h⟩ := of_bind_ok h
  obtain ⟨estimatedCost, -, h⟩ := of_bind_ok h
  obtain ⟨tokens, -, h⟩ := of_bind_ok h
  obtain ⟨wall, -, h⟩ := of_bind_ok h
  obtain rfl := Except.ok.inj h
  refine ⟨rfl, rfl, ?_⟩
  rw [costOf, hcost]
  rfl

/-- Only an incident that awaits an approval has another status than the one that is stored. -/
theorem rawStatus_eq_iff (values : PyDict) :
    rawStatusOf values = statusOf values ↔ ¬ AwaitsApproval values := by
  unfold statusOf deriveStatus AwaitsApproval
  split
  · next h =>
    simp only [h, and_self, not_true_eq_false, iff_false]
    exact of_decide_eq_false rfl
  · next h => exact ⟨fun _ => h, fun _ => rfl⟩

/-! ### The summary -/

theorem summary_ok_iff {states : List (String × Json)} {summary : MetricsSummary} :
    getMetricsSummary states = .ok summary ↔ ∃ ks, Reads (fun s => readKpis s.2) (live states) ks ∧
      summary = (ks.foldl Totals.add {}).finish states.length := by
  rw [getMetricsSummary, orFail_ok_iff]
  constructor
  · intro h
    obtain ⟨t, ht, h⟩ := of_bind_ok h
    obtain ⟨ks, hks, rfl⟩ := forEach_ok_iff.mp ht
    exact ⟨ks, hks, (Except.ok.inj h).symm⟩
  · rintro ⟨ks, hks, rfl⟩
    have ht : forEach (fun s => readKpis s.2) Totals.add {} (live states) = .ok _ :=
      forEach_ok_iff.mpr ⟨ks, hks, rfl⟩
    rw [ht]
    rfl

/-- One for a status, and zero for another one. -/
def one (status s : String) : Int := if s = status then 1 else 0

theorem sum_one (status : String) (incidents : List (String × PyDict)) :
    (incidents.map fun s => one status (statusOf s.2)).sum = countStatus status incidents := by
  induction incidents with
  | nil => rfl
  | cons s incidents ih =>
    rw [List.map_cons, List.sum_cons, ih, countStatus, countStatus, List.filter_cons, one]
    by_cases h : statusOf s.2 = status
    · simp [h]
      omega
    · simp [h]

namespace Totals

/-- The counters after a status. -/
theorem count_eq (t : Totals) (status : String) :
    ((t.count status).resolved : Int) = t.resolved + one "resolved" status ∧
    ((t.count status).awaiting : Int) = t.awaiting + one "awaiting_approval" status ∧
    ((t.count status).failed : Int) = t.failed + (one "failed" status + one "blocked" status) ∧
    ((t.count status).noAction : Int) = t.noAction + one "no_action" status := by
  unfold count one terminalSuccessStatuses terminalFailureStatuses noActionStatuses
  by_cases hawaiting : status = "awaiting_approval"
  · subst hawaiting
    simp
  by_cases hresolved : status = "resolved"
  · subst hresolved
    simp
  by_cases hfailed : status = "failed"
  · subst hfailed
    simp
  by_cases hblocked : status = "blocked"
  · subst hblocked
    simp
  by_cases hnoAction : status = "no_action"
  · subst hnoAction
    simp
  simp [hawaiting, hresolved, hfailed, hblocked, hnoAction]

theorem add_eq (t : Totals) (k : Kpis) :
    ((t.add k).resolved : Int) = t.resolved + one "resolved" k.status ∧
    ((t.add k).awaiting : Int) = t.awaiting + one "awaiting_approval" k.status ∧
    ((t.add k).failed : Int) = t.failed + (one "failed" k.status + one "blocked" k.status) ∧
    ((t.add k).noAction : Int) = t.noAction + one "no_action" k.status ∧
    (t.add k).tokens = t.tokens + k.tokens := by
  obtain ⟨hresolved, hawaiting, hfailed, hnoAction⟩ := t.count_eq k.status
  have htokens : (t.count k.status).tokens = t.tokens := by
    unfold count
    repeat' split
    all_goals rfl
  cases htimes : k.times with
  | none =>
    simp only [add, htimes, addTimes]
    exact ⟨hresolved, hawaiting, hfailed, hnoAction, by rw [htokens]⟩
  | some r =>
    simp only [add, htimes, addTimes]
    exact ⟨hresolved, hawaiting, hfailed, hnoAction, by rw [htokens]⟩

theorem add_categories (t : Totals) (k : Kpis) :
    (t.add k).byCategory.sum (fun n : Nat => (n : Int)) =
      t.byCategory.sum (fun n : Nat => (n : Int)) + 1 := by
  have hcategory : ((t.count k.status).addTimes k.times).byCategory = t.byCategory := by
    have hcount : (t.count k.status).byCategory = t.byCategory := by
      unfold count
      repeat' split
      all_goals rfl
    cases k.times with
    | none => exact hcount
    | some r => exact hcount
  have hset := t.byCategory.sum_set (fun n : Nat => (n : Int)) k.category
    ((t.byCategory.get? k.category).getD 0 + 1)
  simp only [add, hcategory]
  cases hget : t.byCategory.get? k.category with
  | none =>
    rw [hget] at hset
    simp only [Option.map_none, Option.getD_none] at hset ⊢
    omega
  | some n =>
    rw [hget] at hset
    simp only [Option.map_some, Option.getD_some] at hset ⊢
    omega

end Totals

/-- What the summary counts. -/
structure Summarises (states : List (String × Json)) (summary : MetricsSummary) : Prop where
  total : summary.totalIncidents = states.length
  resolved : (summary.resolvedCount : Int) = countStatus "resolved" (live states)
  awaiting : (summary.awaitingApprovalCount : Int) = countStatus "awaiting_approval" (live states)
  failed : (summary.failedCount : Int) =
    countStatus "failed" (live states) + countStatus "blocked" (live states)
  noAction : (summary.noActionCount : Int) = countStatus "no_action" (live states)
  tokens : summary.totalTokens = ((live states).map fun s => tokensOf s.2).sum
  categories : summary.incidentsByCategory.sum (fun n : Nat => (n : Int)) = (live states).length

theorem summary_summarises {states : List (String × Json)} {summary : MetricsSummary}
    (h : getMetricsSummary states = .ok summary) : Summarises states summary := by
  obtain ⟨ks, hks, rfl⟩ := summary_ok_iff.mp h
  have hone : ∀ status, (ks.map fun k => one status k.status).sum =
      countStatus status (live states) := by
    intro status
    rw [← sum_one]
    refine congrArg List.sum (hks.map_eq fun s _ k hk => ?_)
    rw [(readKpis_ok hk).1]
  have hcount := fun (count : Totals → Int) (amount : Kpis → Int) (hempty : count {} = 0)
      (hadd : ∀ t k, count (t.add k) = count t + amount k) =>
    (foldl_count count hadd {} ks).trans (by rw [hempty, Int.zero_add])
  refine ⟨rfl, ?_, ?_, ?_, ?_, ?_, ?_⟩
  · rw [← hone]
    exact hcount (fun t => t.resolved) _ rfl fun t k => (t.add_eq k).1
  · rw [← hone]
    exact hcount (fun t => t.awaiting) _ rfl fun t k => (t.add_eq k).2.1
  · rw [← hone, ← hone, ← List.sum_map_add]
    exact hcount (fun t => t.failed) _ rfl fun t k => (t.add_eq k).2.2.1
  · rw [← hone]
    exact hcount (fun t => t.noAction) _ rfl fun t k => (t.add_eq k).2.2.2.1
  · have htokens := hks.map_eq (f := fun s => tokensOf s.2) (g := Kpis.tokens)
      fun s _ k hk => (readKpis_ok hk).2
    rw [← htokens]
    exact hcount Totals.tokens _ rfl fun t k => (t.add_eq k).2.2.2.2
  · have hlength : (ks.map fun _ => (1 : Int)).sum = (live states).length := by
      rw [hks.map_eq (f := fun _ => (1 : Int)) fun _ _ _ _ => rfl]
      simp
    rw [← hlength]
    exact hcount (fun t => t.byCategory.sum fun n : Nat => (n : Int)) _ rfl Totals.add_categories

/-! ### The time series -/

theorem Slot.add_eq (slot : Slot) (p : Placed) :
    ((slot.add p).incidents : Int) = slot.incidents + 1 ∧
    ((slot.add p).resolved : Int) = slot.resolved + one "resolved" p.status ∧
    ((slot.add p).noAction : Int) = slot.noAction + one "no_action" p.status ∧
    ((slot.add p).failed : Int) = slot.failed + one "failed" p.status ∧
    (slot.add p).totalTokens = slot.totalTokens + p.tokens := by
  unfold add count one
  by_cases hresolved : p.status = "resolved"
  · simp [hresolved]
  by_cases hnoAction : p.status = "no_action"
  · simp [hnoAction]
  by_cases hfailed : p.status = "failed"
  · simp [hfailed]
  simp [hresolved, hnoAction, hfailed]

/-- What a placed incident adds to a sum over the slots. -/
theorem sum_addPlaced {measure : Slot → Int} {amount : Placed → Int} (hempty : measure {} = 0)
    (hadd : ∀ slot p, measure (slot.add p) = measure slot + amount p) (buckets : Dict Int Slot)
    (o : Option Placed) :
    (addPlaced buckets o).sum measure = buckets.sum measure + (o.map amount).getD 0 := by
  cases o with
  | none => simp [addPlaced]
  | some p =>
    have hset := buckets.sum_set measure p.bucket (((buckets.get? p.bucket).getD {}).add p)
    rw [hadd] at hset
    simp only [addPlaced, Option.map_some, Option.getD_some]
    cases hget : buckets.get? p.bucket with
    | none =>
      rw [hget] at hset
      simp only [Option.map_none, Option.getD_none, hempty] at hset
      simp only [Option.getD_none]
      omega
    | some slot =>
      rw [hget] at hset
      simp only [Option.map_some, Option.getD_some] at hset
      simp only [Option.getD_some]
      omega

/-- The starts of the slots are those of the placed incidents. -/
theorem get?_addPlaced (ps : List (Option Placed)) (buckets : Dict Int Slot) (start : Int) :
    (∃ slot, (ps.foldl addPlaced buckets).get? start = some slot) ↔
      (∃ slot, buckets.get? start = some slot) ∨ ∃ p, some p ∈ ps ∧ p.bucket = start := by
  induction ps generalizing buckets with
  | nil => simp
  | cons o ps ih =>
    rw [List.foldl_cons, ih]
    cases o with
    | none => simp [addPlaced]
    | some p =>
      simp only [addPlaced, Dict.get?_set, List.mem_cons, Option.some.injEq]
      by_cases h : start = p.bucket
      · subst h
        simp
      · have hne : p.bucket ≠ start := fun heq => h heq.symm
        simp only [if_neg h]
        constructor
        · rintro (hold | ⟨q, hq, hstart⟩)
          · exact .inl hold
          · exact .inr ⟨q, .inr hq, hstart⟩
        · rintro (hold | ⟨q, rfl | hq, hstart⟩)
          · exact .inl hold
          · exact absurd hstart hne
          · exact .inr ⟨q, hq, hstart⟩

theorem mem_starts {ps : List (Option Placed)} {start : Int} :
    start ∈ starts (ps.foldl addPlaced .empty) ↔ ∃ p, some p ∈ ps ∧ p.bucket = start := by
  have hmem := get?_addPlaced ps .empty start
  simp only [Dict.get?_empty, reduceCtorEq, exists_false, false_or] at hmem
  rw [starts, List.mem_insertionSort, Dict.mem_keys, hmem]

/-- Each start occurs once, and they are in order. -/
theorem starts_increasing (buckets : Dict Int Slot) : (starts buckets).Pairwise (· < ·) := by
  have hsorted : (starts buckets).Pairwise (· ≤ ·) := List.pairwise_insertionSort ..
  have hnodup : (starts buckets).Nodup := (List.perm_insertionSort ..).nodup_iff.mpr buckets.nodup
  exact (hsorted.and hnodup).imp fun h => lt_of_le_of_ne h.1 h.2

theorem readBucket_ok {buckets : Dict Int Slot} {start : Int} {b : MetricBucket}
    (h : readBucket buckets start = .ok b) :
    b.timestamp.seconds = start ∧
    (b.incidents : Int) = ((buckets.get? start).getD {}).incidents ∧
    (b.resolved : Int) = ((buckets.get? start).getD {}).resolved ∧
    (b.noAction : Int) = ((buckets.get? start).getD {}).noAction ∧
    (b.failed : Int) = ((buckets.get? start).getD {}).failed ∧
    b.totalTokens = ((buckets.get? start).getD {}).totalTokens := by
  unfold readBucket at h
  obtain ⟨time, htime, h⟩ := of_bind_ok h
  obtain rfl := Except.ok.inj h
  have hseconds : time.seconds = start := by
    unfold fromtimestamp at htime
    split at htime
    · split at htime
      · cases htime
        rfl
      · cases htime
    · cases htime
  exact ⟨hseconds, rfl, rfl, rfl, rfl, rfl⟩

theorem readBucket_ok_iff {buckets : Dict Int Slot} {start : Int} :
    (∃ b, readBucket buckets start = .ok b) ↔ ∃ time, fromtimestamp start = .ok time := by
  constructor
  · rintro ⟨b, h⟩
    obtain ⟨time, htime, -⟩ := of_bind_ok h
    exact ⟨time, htime⟩
  · rintro ⟨time, h⟩
    unfold readBucket
    rw [h]
    exact ⟨_, rfl⟩

section Series

variable {fromisoformat : String → Option ParsedDatetime} {range : TimeRange}
  {states : List (String × Json)}

theorem series_ok_iff {series : MetricsTimeseriesResponse} :
    getMetricsTimeseries fromisoformat range states = .ok series ↔
      ∃ ps, Reads (fun s => readPlaced fromisoformat range s.2) (live states) ps ∧
        ∃ bs, Reads (readBucket (ps.foldl addPlaced .empty))
            (starts (ps.foldl addPlaced .empty)) bs ∧ series = ⟨bs, range⟩ := by
  rw [getMetricsTimeseries, orFail_ok_iff]
  constructor
  · intro h
    obtain ⟨buckets, hbuckets, h⟩ := of_bind_ok h
    obtain ⟨ps, hps, rfl⟩ := forEach_ok_iff.mp hbuckets
    obtain ⟨result, hresult, h⟩ := of_bind_ok h
    obtain ⟨bs, hbs, rfl⟩ := forEach_ok_iff.mp hresult
    rw [foldl_collect, List.nil_append] at h
    exact ⟨ps, hps, bs, hbs, (Except.ok.inj h).symm⟩
  · rintro ⟨ps, hps, bs, hbs, rfl⟩
    have hbuckets : forEach (fun s => readPlaced fromisoformat range s.2) addPlaced .empty
        (live states) = .ok _ := forEach_ok_iff.mpr ⟨ps, hps, rfl⟩
    have hresult : forEach (readBucket (ps.foldl addPlaced .empty)) (fun result b => result ++ [b])
        [] (starts (ps.foldl addPlaced .empty)) = .ok bs := by
      refine forEach_ok_iff.mpr ⟨bs, hbs, ?_⟩
      rw [foldl_collect, List.nil_append]
    rw [hbuckets]
    show (do
      let result ← forEach (readBucket (ps.foldl addPlaced .empty)) (fun result b => result ++ [b])
        [] (starts (ps.foldl addPlaced .empty))
      pure (⟨result, range⟩ : MetricsTimeseriesResponse)) = Except.ok _
    rw [hresult]
    rfl

/-- A sum over the buckets is the sum over the incidents with a time. -/
theorem series_sum {series : MetricsTimeseriesResponse}
    (h : getMetricsTimeseries fromisoformat range states = .ok series)
    (measure : Slot → Int) (amountOf : PyDict → Int) {amount : Placed → Int}
    {field : MetricBucket → Int} (hempty : measure {} = 0)
    (hadd : ∀ slot p, measure (slot.add p) = measure slot + amount p)
    (hfield : ∀ buckets start b, readBucket buckets start = .ok b →
      field b = measure ((buckets.get? start).getD {}))
    (hamount : ∀ values instant p, PlacedOf range values instant p → amount p = amountOf values) :
    (series.buckets.map field).sum =
      ((timed fromisoformat states).map fun s => amountOf s.2).sum := by
  obtain ⟨ps, hps, bs, hbs, rfl⟩ := series_ok_iff.mp h
  have hperm : (starts (ps.foldl addPlaced .empty)).Perm
      ((ps.foldl addPlaced Dict.empty).entries.map Prod.fst) := List.perm_insertionSort ..
  have hbuckets := hbs.map_eq (g := field) fun start _ b hb => hfield _ start b hb
  rw [hbuckets, Dict.sum_keys measure _ {} hperm,
    foldl_count (fun d : Dict Int Slot => d.sum measure) (sum_addPlaced hempty hadd)]
  have hread := hps.map_eq (g := fun o : Option Placed => (o.map amount).getD 0)
    (f := fun s => if (startedAt fromisoformat s.2).isSome then amountOf s.2 else 0) ?_
  · rw [hread]
    simp only [Dict.empty, Dict.sum, List.map_nil, List.sum_nil, Int.zero_add, timed]
    induction live states with
    | nil => rfl
    | cons s incidents ih =>
      rw [List.map_cons, List.sum_cons, ih, List.filter_cons]
      split
      · rfl
      · exact Int.zero_add _
  · intro s _ o ho
    cases hstarted : startedAt fromisoformat s.2 with
    | none =>
      rw [readPlaced_none hstarted] at ho
      obtain rfl := Except.ok.inj ho
      rfl
    | some instant =>
      obtain ⟨p, rfl, hp⟩ := readPlaced_some hstarted ho
      exact hamount s.2 instant p hp

/-- What the time series counts. -/
structure Charts (fromisoformat : String → Option ParsedDatetime) (states : List (String × Json))
    (buckets : List MetricBucket) : Prop where
  incidents : (buckets.map fun b => (b.incidents : Int)).sum = (timed fromisoformat states).length
  resolved : (buckets.map fun b => (b.resolved : Int)).sum =
    countStatus "resolved" (timed fromisoformat states)
  noAction : (buckets.map fun b => (b.noAction : Int)).sum =
    countStatus "no_action" (timed fromisoformat states)
  failed : (buckets.map fun b => (b.failed : Int)).sum =
    countStatus "failed" (timed fromisoformat states)
  tokens : (buckets.map fun b => b.totalTokens).sum =
    ((timed fromisoformat states).map fun s => tokensOf s.2).sum
  increasing : buckets.Pairwise fun a b => a.timestamp.seconds < b.timestamp.seconds

theorem series_charts {series : MetricsTimeseriesResponse}
    (h : getMetricsTimeseries fromisoformat range states = .ok series) :
    Charts fromisoformat states series.buckets := by
  have hstatus : ∀ status values instant p, PlacedOf range values instant p →
      one status p.status = one status (statusOf values) :=
    fun status values instant p hp => congrArg (one status) hp.status
  refine ⟨?_, ?_, ?_, ?_, ?_, ?_⟩
  · rw [series_sum h (fun slot => slot.incidents) (fun _ => 1) rfl
      (fun slot p => (slot.add_eq p).1) (fun _ _ _ hb => (readBucket_ok hb).2.1)
      fun _ _ _ _ => rfl]
    simp
  · rw [← sum_one]
    exact series_sum h (fun slot => slot.resolved) _ rfl (fun slot p => (slot.add_eq p).2.1)
      (fun _ _ _ hb => (readBucket_ok hb).2.2.1) (hstatus "resolved")
  · rw [← sum_one]
    exact series_sum h (fun slot => slot.noAction) _ rfl (fun slot p => (slot.add_eq p).2.2.1)
      (fun _ _ _ hb => (readBucket_ok hb).2.2.2.1) (hstatus "no_action")
  · rw [← sum_one]
    exact series_sum h (fun slot => slot.failed) _ rfl (fun slot p => (slot.add_eq p).2.2.2.1)
      (fun _ _ _ hb => (readBucket_ok hb).2.2.2.2.1) (hstatus "failed")
  · exact series_sum h Slot.totalTokens _ rfl (fun slot p => (slot.add_eq p).2.2.2.2)
      (fun _ _ _ hb => (readBucket_ok hb).2.2.2.2.2) fun _ _ _ hp => hp.tokens
  · obtain ⟨ps, hps, bs, hbs, rfl⟩ := series_ok_iff.mp h
    have htimes := hbs.map_eq (g := fun b => b.timestamp.seconds) (f := id)
      fun start _ b hb => (readBucket_ok hb).1
    rw [List.map_id] at htimes
    have hstarts := starts_increasing (ps.foldl addPlaced .empty)
    rw [← htimes] at hstarts
    exact List.pairwise_map.mp hstarts

/-- A quotient and the interval of what it is the quotient of. -/
theorem eq_ediv_iff {q i w : Int} (hw : 0 < w) : q = i / w ↔ q * w ≤ i ∧ i < q * w + w := by
  have hnext : q * w + w = (q + 1) * w := by rw [Int.add_mul, Int.one_mul]
  rw [hnext, ← Int.le_ediv_iff_mul_le hw, ← Int.ediv_lt_iff_lt_mul hw]
  omega

/-- The bucket of a time contains it if and only if `int` stays in the bucket. -/
theorem bucket_contains_iff {values : PyDict} {instant : Int} {p : Placed}
    (h : PlacedOf range values instant p) :
    (p.bucket * 1000000 ≤ instant ∧ instant < (p.bucket + range.bucketSeconds) * 1000000) ↔
      SameBucket range instant := by
  have hpos : ¬ range.bucketSeconds ≤ 0 := by cases range <;> decide
  have hbucket := h.bucket
  rw [bucketEpoch, if_neg hpos] at hbucket
  obtain ⟨seconds, hseconds, hbucket⟩ := of_bind_ok hbucket
  have hstart : p.bucket = Int.fdiv seconds range.bucketSeconds * range.bucketSeconds :=
    (Except.ok.inj hbucket).symm
  have hsame : SameBucket range instant ↔ Int.fdiv seconds range.bucketSeconds =
      Int.fdiv instant (range.bucketSeconds * 1000000) := by
    constructor
    · rintro ⟨seconds', h', heq⟩
      obtain rfl := Except.ok.inj (hseconds.symm.trans h')
      exact heq
    · exact fun heq => ⟨seconds, hseconds, heq⟩
  rw [hsame, hstart, Int.fdiv_eq_ediv_of_nonneg instant (by cases range <;> decide)]
  have hwidth : 0 < range.bucketSeconds * 1000000 := by omega
  rw [Int.mul_assoc, Int.add_mul, Int.mul_assoc, eq_ediv_iff hwidth]

/-! ### All routes -/

/-- What the most expensive incidents are shown with. -/
theorem expensive_statuses {limit : ExpensiveLimit} {expensive : List ExpensiveIncident}
    (h : getTopExpensive limit states = .ok expensive) :
    expensive.map (fun e => (e.incidentId, e.status)) =
      (mostExpensive states limit.value).map fun s => (s.1, rawStatusOf s.2) := by
  rw [getTopExpensive, orFail_ok_iff] at h
  obtain ⟨incidents, hincidents, h⟩ := of_bind_ok h
  obtain ⟨es, hes, rfl⟩ := forEach_ok_iff.mp hincidents
  rw [foldl_collect, List.nil_append] at h
  obtain rfl := Except.ok.inj h
  have hsorted := hes.insertionSort NotCheaper (fun s => costOf s.2) ExpensiveIncident.costUsd
    fun s e he => (readExpensive_ok he).2.2
  refine (hsorted.take limit.value).map_eq fun s _ e he => ?_
  obtain ⟨hid, hstatus, -⟩ := readExpensive_ok he
  rw [hid, hstatus]

theorem expensive_iff (limit : ExpensiveLimit) :
    (∃ expensive, getTopExpensive limit states = .ok expensive) ↔
      ∀ s ∈ live states, ∃ e, readExpensive s.1 s.2 = .ok e := by
  rw [← Reads.exists_iff]
  simp only [getTopExpensive, orFail_ok_iff]
  constructor
  · rintro ⟨expensive, h⟩
    obtain ⟨incidents, hincidents, -⟩ := of_bind_ok h
    obtain ⟨es, hes, -⟩ := forEach_ok_iff.mp hincidents
    exact ⟨es, hes⟩
  · rintro ⟨es, hes⟩
    rw [forEach_ok_iff.mpr ⟨es, hes, rfl⟩]
    exact ⟨_, rfl⟩

theorem summary_iff :
    (∃ summary, getMetricsSummary states = .ok summary) ↔
      ∀ s ∈ live states, ∃ k, readKpis s.2 = .ok k := by
  rw [← Reads.exists_iff]
  constructor
  · rintro ⟨summary, h⟩
    obtain ⟨ks, hks, -⟩ := summary_ok_iff.mp h
    exact ⟨ks, hks⟩
  · rintro ⟨ks, hks⟩
    exact ⟨_, summary_ok_iff.mpr ⟨ks, hks, rfl⟩⟩

theorem series_iff :
    (∃ series, getMetricsTimeseries fromisoformat range states = .ok series) ↔
      ∀ s ∈ live states, ∃ p, readPlaced fromisoformat range s.2 = .ok p ∧
        ∀ q, p = some q → ∃ time, fromtimestamp q.bucket = .ok time := by
  constructor
  · rintro ⟨series, h⟩ s hs
    obtain ⟨ps, hps, bs, hbs, -⟩ := series_ok_iff.mp h
    obtain ⟨p, hp, hread⟩ := hps.exists_right hs
    refine ⟨p, hread, ?_⟩
    rintro q rfl
    have hstart : q.bucket ∈ starts (ps.foldl addPlaced .empty) :=
      mem_starts.mpr ⟨q, hp, rfl⟩
    obtain ⟨b, -, hb⟩ := hbs.exists_right hstart
    exact readBucket_ok_iff.mp ⟨b, hb⟩
  · intro h
    obtain ⟨ps, hps⟩ := Reads.exists_iff.mpr fun s hs => (h s hs).imp fun p hp => hp.1
    have hstarts : ∀ start ∈ starts (ps.foldl addPlaced .empty),
        ∃ b, readBucket (ps.foldl addPlaced .empty) start = .ok b := by
      intro start hstart
      obtain ⟨q, hq, rfl⟩ := mem_starts.mp hstart
      obtain ⟨s, hs, hread⟩ := hps.exists_left hq
      obtain ⟨p, hp, htime⟩ := h s hs
      obtain rfl := Except.ok.inj (hread.symm.trans hp)
      exact readBucket_ok_iff.mpr (htime q rfl)
    obtain ⟨bs, hbs⟩ := Reads.exists_iff.mpr hstarts
    exact ⟨_, series_ok_iff.mpr ⟨ps, hps, bs, hbs, rfl⟩⟩

/-- The bucket of each incident with a time is there. -/
theorem exists_bucket {series : MetricsTimeseriesResponse}
    (h : getMetricsTimeseries fromisoformat range states = .ok series) {s : String × PyDict}
    (hs : s ∈ live states) {p : Placed}
    (hp : readPlaced fromisoformat range s.2 = .ok (some p)) :
    ∃ b ∈ series.buckets, b.timestamp.seconds = p.bucket := by
  obtain ⟨ps, hps, bs, hbs, rfl⟩ := series_ok_iff.mp h
  obtain ⟨o, ho, hread⟩ := hps.exists_right hs
  obtain rfl := Except.ok.inj (hp.symm.trans hread)
  obtain ⟨b, hmem, hb⟩ := hbs.exists_right (mem_starts.mpr ⟨p, ho, rfl⟩)
  exact ⟨b, hmem, (readBucket_ok hb).1⟩

/-! ### The states -/

theorem live_length_le (states : List (String × Json)) : (live states).length ≤ states.length :=
  List.length_filterMap_le ..

/-- All states are live if none is empty. -/
theorem live_length_iff {states : List (String × Json)} :
    (live states).length = states.length ↔ ∀ s ∈ states, (stateValues s.2).isEmpty = false := by
  induction states with
  | nil => simp [live]
  | cons s states ih =>
    have hle := live_length_le states
    rw [List.forall_mem_cons, ← ih]
    cases h : (stateValues s.2).isEmpty with
    | false =>
      have hcons : live (s :: states) = (s.1, stateValues s.2) :: live states :=
        List.filterMap_cons_some (by rw [liveEntry, h]; rfl)
      rw [hcons, List.length_cons, List.length_cons]
      simp
    | true =>
      have hcons : live (s :: states) = live states :=
        List.filterMap_cons_none (by rw [liveEntry, h]; rfl)
      rw [hcons, List.length_cons]
      simp
      omega

theorem mem_live {states : List (String × Json)} {s : String × PyDict} (h : s ∈ live states) :
    ∃ s' ∈ states, s'.1 = s.1 ∧ stateValues s'.2 = s.2 := by
  obtain ⟨s', hs', heq⟩ := List.mem_filterMap.mp h
  unfold liveEntry at heq
  split at heq
  · cases heq
  · cases heq
    exact ⟨s', hs', rfl, rfl⟩

theorem timed_of_allTimed (h : AllTimed fromisoformat states) :
    timed fromisoformat states = live states := by
  refine List.filter_eq_self.mpr fun s hs => ?_
  obtain ⟨s', hs', -, hvalues⟩ := mem_live hs
  rw [← hvalues]
  exact (h s' hs').2

theorem countStatus_eq_zero_iff {status : String} {incidents : List (String × PyDict)} :
    countStatus status incidents = 0 ↔ ∀ s ∈ incidents, statusOf s.2 ≠ status := by
  simp only [countStatus, Int.natCast_eq_zero, List.length_eq_zero_iff, List.filter_eq_nil_iff,
    decide_eq_true_eq]

theorem listStates_iff :
    (∃ listing, listStates states = .ok listing) ↔
      ∀ s ∈ live states, ∃ r, extractSummary s.1 s.2 = .ok r := by
  rw [← collectItems_iff none states]
  unfold listStates
  constructor
  · rintro ⟨listing, h⟩
    cases hitems : collectItems none states with
    | ok items => exact ⟨items, rfl⟩
    | error exc =>
      rw [hitems] at h
      cases h
  · rintro ⟨items, h⟩
    rw [h]
    exact ⟨_, rfl⟩

theorem listed_statuses {listing : IncidentListResponse} (h : listStates states = .ok listing) :
    listing.items.map (fun i => (i.incidentId, i.status)) = statuses states := by
  unfold listStates at h
  cases hitems : collectItems none states with
  | ok items =>
    rw [hitems] at h
    obtain rfl := Except.ok.inj h
    exact (collectItems_ok hitems).trans (List.filter_eq_self.mpr fun _ _ => rfl)
  | error exc =>
    rw [hitems] at h
    cases h

end Series

section All

variable {fromisoformat : String → Option ParsedDatetime} {range : TimeRange}
  {states : List (String × Json)} {listing : IncidentListResponse} {summary : MetricsSummary}
  {series : MetricsTimeseriesResponse} {expensive : List ExpensiveIncident}

/-- The totals agree unless an incident is blocked. -/
theorem sameTotals_iff (hsummary : Summarises states summary)
    (hseries : Charts fromisoformat states series.buckets)
    (htimed : AllTimed fromisoformat states) :
    SameTotals summary series.buckets ↔ ∀ s ∈ live states, statusOf s.2 ≠ "blocked" := by
  have hlive := timed_of_allTimed htimed
  rw [← countStatus_eq_zero_iff]
  constructor
  · intro h
    have hfailed := h.failed
    rw [hseries.failed, hlive, hsummary.failed] at hfailed
    omega
  · intro h
    refine ⟨?_, ?_, ?_, ?_, ?_⟩
    · rw [hseries.incidents, hlive, hsummary.total,
        live_length_iff.mpr fun s hs => (htimed s hs).1]
    · rw [hseries.resolved, hlive, hsummary.resolved]
    · rw [hseries.noAction, hlive, hsummary.noAction]
    · rw [hseries.failed, hlive, hsummary.failed, h, Int.add_zero]
    · rw [hseries.tokens, hlive, hsummary.tokens]

theorem bucketed_iff (h : getMetricsTimeseries fromisoformat range states = .ok series) :
    Bucketed fromisoformat range states series.buckets ↔
      ∀ s ∈ live states, ∀ instant, startedAt fromisoformat s.2 = some instant →
        SameBucket range instant := by
  constructor
  · rintro ⟨-, hcontained⟩ s hs instant hinstant
    obtain ⟨p, hread, -⟩ := series_iff.mp ⟨series, h⟩ s hs
    obtain ⟨q, rfl, hq⟩ := readPlaced_some hinstant hread
    exact (bucket_contains_iff hq).mp (hcontained s hs instant hinstant q hread).2
  · intro hsame
    refine ⟨(series_charts h).increasing, fun s hs instant hinstant p hp => ?_⟩
    obtain ⟨q, hqp, hq⟩ := readPlaced_some hinstant hp
    obtain rfl := Option.some.inj hqp
    exact ⟨exists_bucket h hs hp, (bucket_contains_iff hq).mpr (hsame s hs instant hinstant)⟩

theorem ranked_iff {limit : ExpensiveLimit}
    (h : getTopExpensive limit states = .ok expensive) :
    (expensive.map (fun e => (e.incidentId, e.status)) =
        (mostExpensive states limit.value).map fun s => (s.1, statusOf s.2)) ↔
      ∀ s ∈ mostExpensive states limit.value, ¬ AwaitsApproval s.2 := by
  rw [expensive_statuses h, List.map_inj_left]
  simp only [Prod.mk.injEq, true_and, rawStatus_eq_iff]

end All

/-- The start of 2026. -/
def readNewYear (text : String) : Option ParsedDatetime :=
  if text = "2026-01-01T00:00:00+00:00" then some ⟨1767225600000000, some 0⟩ else none

/-- An incident that started at the start of 2026. -/
def newYearIncident (status : String) : String × Json :=
  ("0b6e4a52-7c1d-4f0e-9a3b-5d2c8e7f1a60", .obj [
    ("status", .str status),
    ("requires_human_approval", .bool true),
    ("tokens_used", .int 1200),
    ("incident_metadata", .obj [("started_at", .str "2026-01-01T00:00:00Z")])])

theorem ok_of_any {α : Type} {x : Except PyExc α} {p : α → Bool}
    (h : x.toOption.any p = true) : ∃ a, x = .ok a ∧ p a = true := by
  cases x with
  | ok a => exact ⟨a, rfl, h⟩
  | error exc => cases h

theorem resolved_answered : Answered readNewYear .oneDay
    ((newYearIncident "resolved").1, stateValues (newYearIncident "resolved").2) := by
  refine ⟨?_, ?_, ?_, ?_⟩
  · obtain ⟨r, hr, -⟩ := ok_of_any (p := fun _ => true) (x := extractSummary
      (newYearIncident "resolved").1 (stateValues (newYearIncident "resolved").2))
      (by decide +kernel)
    exact ⟨r, hr⟩
  · obtain ⟨k, hk, -⟩ := ok_of_any (p := fun _ => true) (x := readKpis
      (stateValues (newYearIncident "resolved").2)) (by decide +kernel)
    exact ⟨k, hk⟩
  · obtain ⟨e, he, -⟩ := ok_of_any (p := fun _ => true) (x := readExpensive
      (newYearIncident "resolved").1 (stateValues (newYearIncident "resolved").2))
      (by decide +kernel)
    exact ⟨e, he⟩
  · obtain ⟨o, ho, htime⟩ := ok_of_any (x := readPlaced readNewYear .oneDay
      (stateValues (newYearIncident "resolved").2))
      (p := fun o => o.all fun q => (fromtimestamp q.bucket).toOption.isSome) (by decide +kernel)
    refine ⟨o, ho, ?_⟩
    rintro q rfl
    cases hq : fromtimestamp q.bucket with
    | ok time => exact ⟨time, rfl⟩
    | error exc =>
      simp only [Option.all_some, hq] at htime
      cases htime

end Api
end AutoSRE

import AutoSRE.Api.Authenticators
import AutoSRE.Api.Dedup
import AutoSRE.Api.Limiter
import AutoSRE.Api.Summaries

/-!
# Alerts on their way to an incident (`api/routes.py`)

`trigger_incident` with the limiter, the pause of the administrators, the check of a signature or
the dataset of OpenObserve, and the index of fingerprints. The steps of the requests interleave.

- **Alerts** (`readAlert`). The body of a signed request is the alert. An OpenObserve alert is not
  signed, and all that it chooses is a name of the dataset and the texts that are shown with it
  (`Enriched`).
- **Requests** (`ingress`). A request waits for its body, and then for the runner.
- **Admission** (`Admitted`). An incident is scheduled for one request, which was admitted while the
  agent was not paused, and whose alert is authentic (`scheduled_authentic`).
- **Answers** (`answered_once`). Every request is in flight, or has one answer.
- **The window** (`scheduled_window`). The requests of one client that come in a window schedule not
  more than `max_requests` incidents.
-/

namespace AutoSRE
namespace Api

open Lib Py AutoSRE.Core
open Lib.JsonText (codePoints)

/-! ## Alerts -/

/-- The alert of a webhook. -/
structure AlertPayload where
  alertName : String
  service : String
  namespaceName : String
  severity : String
  startedAt : String
  fingerprint : String
  description : String := ""
  labels : List (String × String) := []
  annotations : List (String × String) := []
  deriving DecidableEq

/-- What `_prepare_incident` makes of `alert.model_dump()`. -/
def AlertPayload.metadata (alert : AlertPayload) (incidentId : String) : IncidentMetadata where
  incidentId := incidentId
  alertName := alert.alertName
  service := alert.service
  namespaceName := alert.namespaceName
  severity := alert.severity
  startedAt := alert.startedAt
  fingerprint := alert.fingerprint
  description := alert.description
  labels := alert.labels
  annotations := alert.annotations

/-- What the route reads of a request, but for its body; a missing header is an empty one. -/
structure AlertRequest where
  /-- `X-Forwarded-For`. -/
  forwarded : String
  /-- `request.client.host`. -/
  host : Option String
  /-- `X-Source`. -/
  source : String
  /-- `X-Webhook-Signature`. -/
  signature : String

/-- `_client_ip`. -/
def AlertRequest.clientIp (request : AlertRequest) : String :=
  if request.forwarded ≠ "" then
    strip (String.ofList (request.forwarded.toList.takeWhile fun c => c ≠ ','))
  else request.host.getD "unknown"

/-! ## The dataset -/

/-- The incidents of the dataset by their names. -/
abbrev DatasetIndex := Dict String PyDict

/-- The loop of `_load_dataset_index`. An incident that is not an object, and a name that has no
hash, end it with an exception; a name that is no text is never looked up. -/
def indexIncidents (index : DatasetIndex) : List Json → DatasetIndex
  | [] => index
  | .obj inc :: incs =>
    match PyDict.getD inc "alert_name" (.str "") with
    | .str name => indexIncidents (if name = "" then index else index.set name inc) incs
    | .arr (_ :: _) | .obj (_ :: _) => index
    | _ => indexIncidents index incs
  | _ :: _ => index

/-- `_load_dataset_index`, on the value of the file, if there is one. What was read before an
exception is kept. -/
def loadDatasetIndex : Option Json → DatasetIndex
  | some (.obj data) =>
    match PyDict.getD data "incidents" (.arr []) with
    | .arr incs => indexIncidents Dict.empty incs
    | _ => Dict.empty
  | _ => Dict.empty

/-- A field of a model that is a text. -/
def textField : Json → Except PyExc String
  | .str s => .ok s
  | _ => .error (.validationError "Input should be a valid string")

/-- The `AlertPayload` of an entry of the dataset. -/
def enrichEntry (alertName : String) (raw inc : PyDict) : Except PyExc AlertPayload := do
  let service ← textField (PyDict.getD inc "service" (.str "unknown"))
  let namespaceName ← textField (PyDict.getD inc "namespace" (.str "rivulet"))
  let severity ← textField (PyDict.getD inc "severity" (.str "sev2"))
  let category ← textField (PyDict.getD inc "category" (.str "unknown"))
  let evalId ← textField (PyDict.getD inc "id" (.str ""))
  let shown := fun key => (key, asStr (PyDict.getD raw key (.str "")))
  .ok
    { alertName := alertName
      service := service
      namespaceName := namespaceName
      severity := severity
      startedAt := asStr (PyDict.getD raw "started_at" (.str ""))
      fingerprint := "o2:" ++ alertName ++ ":" ++ namespaceName
      description := "OpenObserve alert: " ++ alertName
      labels := [("category", category), ("eval_id", evalId),
        ("baseline_mttr_seconds", (PyDict.getD inc "baseline_mttr_seconds" (.int 0)).toStr),
        ("triggered_by", "openobserve")]
      annotations := ["alert_count", "alert_agg_value", "alert_threshold", "alert_operator",
        "stream_name", "alert_url"].map shown }

/-- `_enrich_openobserve_alert`. -/
def enrichOpenobserveAlert (index : DatasetIndex) (alertName : String) (raw : PyDict) :
    Except PyExc (Option AlertPayload) :=
  match index.get? alertName with
  | none => .ok none
  | some inc => (enrichEntry alertName raw inc).map some

/-! ## The body of a request -/

/-- The secrets and the parts of the endpoint, with what it uses of `json` and Pydantic. -/
structure Endpoint where
  hook : Webhook
  /-- `AlertPayload.model_validate_json`, with the text of its error. -/
  validateJson : Bytes → Except String AlertPayload
  /-- `json.loads` of a body, with the text of its exception. -/
  loads : Bytes → Except String Json
  limiter : RateLimiter
  ttl : Ttl
  adminSecret : Option PyStr

variable (cfg : Endpoint)

/-- The answer to an exception that is not handled. -/
def internalError : HttpError := ⟨500, "Internal Server Error"⟩

/-- The alert of a body of OpenObserve, and the index, which is loaded once. -/
def readOpenobserve (dataset : Option DatasetIndex) (file : Option Json) (payload : Bytes) :
    Except HttpError AlertPayload × Option DatasetIndex :=
  match cfg.loads payload with
  | .error text => (.error ⟨400, "Invalid JSON from OpenObserve: " ++ text⟩, dataset)
  | .ok (.obj raw) =>
    let alertName := asStr (PyDict.getD raw "alert_name" (.str ""))
    if alertName = "" then (.error ⟨422, "OpenObserve webhook missing alert_name"⟩, dataset)
    else
      let index := dataset.getD (loadDatasetIndex file)
      match enrichOpenobserveAlert index alertName raw with
      | .error _ => (.error internalError, some index)
      | .ok none => (.error ⟨422, "Unknown alert_name from OpenObserve: " ++ alertName⟩, some index)
      | .ok (some alert) => (.ok alert, some index)
  | .ok _ => (.error internalError, dataset)

/-- The alert of a signed body. -/
def readSigned (signature : String) (payload : Bytes) : Except HttpError AlertPayload :=
  match verifySignature cfg.hook payload signature with
  | .error _ => .error internalError
  | .ok false => .error ⟨401, "Invalid webhook signature"⟩
  | .ok true =>
    match cfg.validateJson payload with
    | .error text => .error ⟨422, "Invalid alert payload: " ++ text⟩
    | .ok alert => .ok alert

/-- The alert of a request; no payload is a body that cannot be read. -/
def readAlert (dataset : Option DatasetIndex) (file : Option Json) (request : AlertRequest) :
    Option Bytes → Except HttpError AlertPayload × Option DatasetIndex
  | none => (.error ⟨400, "Failed to read request body"⟩, dataset)
  | some payload =>
    if request.source = "openobserve" then readOpenobserve cfg dataset file payload
    else (readSigned cfg request.signature payload, dataset)

/-! ## Requests -/

/-- A request whose alert waits for the runner, or for its reservation. -/
structure Flight where
  r : Nat
  alert : AlertPayload
  incidentId : Option String

/-- The endpoint and its requests. -/
structure Ingress where
  now : FiniteFloat
  queues : String → List FiniteFloat
  /-- `app.state.paused`, with its reason. -/
  paused : Bool
  reason : Option String
  /-- `_dataset_cache`. -/
  dataset : Option DatasetIndex
  entries : Entries
  /-- The requests so far. -/
  next : Nat
  /-- The admitted requests that wait for their bodies. -/
  reading : List (Nat × AlertRequest)
  pending : List Flight

/-- The routes of an administrator. -/
inductive AdminOp where
  | pause
  | resume
  | status

/-- What `schedule_incident` raises. -/
inductive ScheduleError where
  | timeout
  | budget
  | other (text : String)

/-- The answer to it. -/
def ScheduleError.http : ScheduleError → HttpError
  | .timeout => ⟨504, "Incident scheduling exceeded budget"⟩
  | .budget => ⟨503, "LLM provider budget exhausted"⟩
  | .other text => ⟨500, "Internal error: " ++ text⟩

inductive IngressStep where
  /-- The clock has another reading. -/
  | tick (reading : FiniteFloat)
  | arrive (request : AlertRequest)
  /-- The body of a request is there, or cannot be read; `file` is the dataset on the disk. -/
  | body (i : Nat) (payload : Option Bytes) (file : Option Json)
  /-- The runner schedules the incident of a request. -/
  | schedule (i : Nat) (incidentId : String)
  | fail (i : Nat) (error : ScheduleError)
  /-- `schedule_incident` has returned, and the request reserves its fingerprint. -/
  | finish (i : Nat)
  /-- An administrator's request, with its `X-Admin-Secret`. -/
  | admin (op : AdminOp) (provided : String)

inductive IngressEvent where
  /-- The limiter lets a request through. -/
  | allowed (r : Nat) (request : AlertRequest) (time : FiniteFloat)
  | rejected (r : Nat) (error : HttpError)
  /-- The alert of a request is read from its body. -/
  | read (r : Nat) (payload : Bytes) (alert : AlertPayload)
  | scheduled (r : Nat) (alert : AlertPayload) (incidentId : String)
  | answered (r : Nat) (incidentId : String) (status : DeliveryStatus)
  /-- An administrator's request is answered with the state that it leaves. -/
  | admin (op : AdminOp) (provided : String) (paused : Bool) (reason : Option String)
  | denied (op : AdminOp) (error : AuthError)

/-- The step of an administrator with the secret. -/
def Ingress.admin (s : Ingress) : AdminOp → Ingress
  | .pause => { s with paused := true, reason := some "manual" }
  | .resume => { s with paused := false, reason := none }
  | .status => s

/-- A request arrives: the limiter comes first, then the pause. -/
def Ingress.arrive (s : Ingress) (request : AlertRequest) : Ingress × List IngressEvent :=
  let client := request.clientIp
  let (allowed, queue) := cfg.limiter.allow s.now (s.queues client)
  let s' :=
    { s with queues := Function.update s.queues client queue, next := s.next + 1 }
  if allowed = false then (s', [.rejected s.next ⟨429, "Rate limit exceeded"⟩])
  else if s.paused then
    (s', [.allowed s.next request s.now, .rejected s.next ⟨503, "Agent is paused"⟩])
  else
    ({ s' with reading := s.reading ++ [(s.next, request)] }, [.allowed s.next request s.now])

/-- The fingerprint of the alert of a request is looked up. -/
def Ingress.dedup (s : Ingress) (r : Nat) (payload : Bytes) (alert : AlertPayload) :
    Ingress × List IngressEvent :=
  match lookup cfg.ttl s.now alert.fingerprint s.entries with
  | (some incidentId, entries) =>
    ({ s with entries }, [.read r payload alert, .answered r incidentId .alreadyInvestigating])
  | (none, entries) =>
    ({ s with entries, pending := s.pending ++ [⟨r, alert, none⟩] }, [.read r payload alert])

/-- The step of a label. -/
def stepIngress (s : Ingress) : IngressStep → Option (Ingress × List IngressEvent)
  | .tick reading => if s.now ≤ reading then some ({ s with now := reading }, []) else none
  | .arrive request => some (s.arrive cfg request)
  | .body i payload file =>
    match s.reading[i]? with
    | none => none
    | some (r, request) =>
      let (alert, dataset) := readAlert cfg s.dataset file request payload
      let s' := { s with reading := s.reading.eraseIdx i, dataset }
      match alert with
      | .error e => some (s', [.rejected r e])
      | .ok alert => some (s'.dedup cfg r (payload.getD []) alert)
  | .schedule i incidentId =>
    match s.pending[i]? with
    | some ⟨r, alert, none⟩ =>
      some ({ s with pending := s.pending.set i ⟨r, alert, some incidentId⟩ },
        [.scheduled r alert incidentId])
    | _ => none
  | .fail i error =>
    match s.pending[i]? with
    | some ⟨r, _, none⟩ =>
      some ({ s with pending := s.pending.eraseIdx i }, [.rejected r error.http])
    | _ => none
  | .finish i =>
    match s.pending[i]? with
    | some ⟨r, alert, some incidentId⟩ =>
      some ({ s with
          entries := reserve s.now alert.fingerprint incidentId s.entries
          pending := s.pending.eraseIdx i },
        [.answered r incidentId .accepted])
    | _ => none
  | .admin op provided =>
    match requireAdminSecret cfg.adminSecret provided with
    | .error e => some (s, [.denied op e])
    | .ok () => some (s.admin op, [.admin op provided (s.admin op).paused (s.admin op).reason])

/-- The state after the start of the process. -/
structure NewIngress (s : Ingress) : Prop where
  queues : ∀ client, s.queues client = []
  paused : s.paused = false
  dataset : s.dataset = none
  entries : ∀ fingerprint, s.entries fingerprint = none
  next : s.next = 0
  reading : s.reading = []
  pending : s.pending = []

/-- The requests of a process. -/
def ingress : Sys Ingress IngressStep IngressEvent where
  init := NewIngress
  step := stepIngress cfg

/-! ## What the log promises -/

/-- The pause after an event. -/
def pausedBy (paused : Bool) : IngressEvent → Bool
  | .admin .pause .. => true
  | .admin .resume .. => false
  | _ => paused

/-- The pause that the administrators have left. -/
def pausedAfter (es : List IngressEvent) : Bool := es.foldl pausedBy false

/-- The limiter has let the request through, while the agent was not paused. -/
def Admitted (es : List IngressEvent) (r : Nat) (request : AlertRequest) : Prop :=
  ∃ pre time post, es = pre ++ .allowed r request time :: post ∧ pausedAfter pre = false

/-- The alert of an entry of the dataset. A request chooses the entry, and the texts of the alert
that are not mentioned here. -/
structure Enriched (inc : PyDict) (alert : AlertPayload) : Prop where
  service : PyDict.getD inc "service" (.str "unknown") = .str alert.service
  namespaceName : PyDict.getD inc "namespace" (.str "rivulet") = .str alert.namespaceName
  severity : PyDict.getD inc "severity" (.str "sev2") = .str alert.severity
  fingerprint : alert.fingerprint = "o2:" ++ alert.alertName ++ ":" ++ alert.namespaceName
  description : alert.description = "OpenObserve alert: " ++ alert.alertName
  labels : ∃ category evalId, PyDict.getD inc "category" (.str "unknown") = .str category ∧
    PyDict.getD inc "id" (.str "") = .str evalId ∧ alert.labels = [("category", category),
      ("eval_id", evalId),
      ("baseline_mttr_seconds", (PyDict.getD inc "baseline_mttr_seconds" (.int 0)).toStr),
      ("triggered_by", "openobserve")]

/-- The alert is the signed body, or one of the dataset. -/
inductive Authentic (dataset : Option DatasetIndex) (request : AlertRequest) (payload : Bytes)
    (alert : AlertPayload) : Prop
  | signed : request.source ≠ "openobserve" → cfg.hook.sign payload = .ok request.signature →
      cfg.validateJson payload = .ok alert → Authentic dataset request payload alert
  | openobserve (index : DatasetIndex) (inc : PyDict) : request.source = "openobserve" →
      dataset = some index → index.get? alert.alertName = some inc → Enriched inc alert →
      Authentic dataset request payload alert

/-! ## Bodies -/

section bodies

variable {cfg} {dataset dataset' : Option DatasetIndex} {file : Option Json}
  {request : AlertRequest} {payload : Bytes} {alert : AlertPayload}

theorem textField_ok {v : Json} {s : String} (h : textField v = .ok s) : v = .str s := by
  unfold textField at h
  split at h
  · rw [Except.ok.inj h]
  · cases h

theorem enrichEntry_ok {alertName : String} {raw inc : PyDict}
    (h : enrichEntry alertName raw inc = .ok alert) :
    alert.alertName = alertName ∧ Enriched inc alert := by
  unfold enrichEntry at h
  obtain ⟨service, hservice, h⟩ := of_bind_ok h
  obtain ⟨namespaceName, hnamespace, h⟩ := of_bind_ok h
  obtain ⟨severity, hseverity, h⟩ := of_bind_ok h
  obtain ⟨category, hcategory, h⟩ := of_bind_ok h
  obtain ⟨evalId, hid, h⟩ := of_bind_ok h
  obtain rfl := Except.ok.inj h
  exact ⟨rfl, textField_ok hservice, textField_ok hnamespace, textField_ok hseverity, rfl, rfl,
    category, evalId, textField_ok hcategory, textField_ok hid, rfl⟩

variable (cfg file request) in
/-- The index is not loaded a second time. -/
theorem readAlert_dataset (body : Option Bytes) {index : DatasetIndex}
    (h : dataset = some index) : (readAlert cfg dataset file request body).2 = some index := by
  subst h
  cases body with
  | none => rfl
  | some payload =>
    simp only [readAlert]
    split
    · unfold readOpenobserve
      dsimp only [Option.getD_some]
      repeat' split
      all_goals rfl
    · rfl

/-- An alert that is read is authentic. -/
theorem readAlert_ok {body : Option Bytes}
    (h : readAlert cfg dataset file request body = (.ok alert, dataset')) :
    Authentic cfg dataset' request (body.getD []) alert := by
  cases body with
  | none => cases h
  | some payload =>
    simp only [readAlert] at h
    split at h
    · rename_i hsource
      unfold readOpenobserve at h
      split at h
      · cases h
      · rename_i raw _
        simp only at h
        split at h
        · cases h
        · split at h
          · cases h
          · cases h
          · rename_i found henrich
            obtain ⟨hfound, rfl⟩ := Prod.mk.inj h
            obtain rfl := Except.ok.inj hfound
            unfold enrichOpenobserveAlert at henrich
            split at henrich
            · cases henrich
            · rename_i inc hinc
              obtain ⟨alert', hentry, he⟩ := of_bind_ok (f := fun a => .ok (some a))
                ((bind_pure_comp some _).trans henrich)
              obtain rfl := Option.some.inj (Except.ok.inj he)
              obtain ⟨hname, henriched⟩ := enrichEntry_ok hentry
              exact .openobserve _ inc hsource rfl (hname ▸ hinc) henriched
      · cases h
    · rename_i hsource
      obtain ⟨hsigned, rfl⟩ := Prod.mk.inj h
      unfold readSigned at hsigned
      split at hsigned
      · cases hsigned
      · cases hsigned
      · rename_i hverified
        split at hsigned
        · cases hsigned
        · rename_i alert' hread
          obtain rfl := Except.ok.inj hsigned
          exact .signed hsource (sign_of_verified hverified) hread

end bodies

/-! ## The steps -/

section steps

variable {cfg} {s s' : Ingress} {a : IngressStep} {es fs : List IngressEvent}

/-- The step reads the body of a request. -/
def BodyOf (s : Ingress) (a : IngressStep) (r : Nat) (request : AlertRequest) (payload : Bytes) :
    Prop :=
  ∃ i file, a = .body i (some payload) file ∧ s.reading[i]? = some (r, request)

variable (cfg) in
/-- What a step does. -/
inductive IngressWay (s : Ingress) (a : IngressStep) : Ingress → List IngressEvent → Prop
  | ticked (reading : FiniteFloat) : s.now ≤ reading → IngressWay s a { s with now := reading } []
  /-- A request is rejected when it arrives. -/
  | refused (request : AlertRequest) (allowed : Bool) (queue : List FiniteFloat)
      (error : HttpError) :
      cfg.limiter.allow s.now (s.queues request.clientIp) = (allowed, queue) →
      IngressWay s a
        { s with
          queues := Function.update s.queues request.clientIp queue
          next := s.next + 1 }
        ((if allowed then [.allowed s.next request s.now] else []) ++ [.rejected s.next error])
  | admitted (request : AlertRequest) (queue : List FiniteFloat) :
      cfg.limiter.allow s.now (s.queues request.clientIp) = (true, queue) → s.paused = false →
      IngressWay s a
        { s with
          queues := Function.update s.queues request.clientIp queue
          next := s.next + 1
          reading := s.reading ++ [(s.next, request)] }
        [.allowed s.next request s.now]
  | unread (ys zs : List (Nat × AlertRequest)) (r : Nat) (request : AlertRequest)
      (dataset : Option DatasetIndex) (error : HttpError) :
      s.reading = ys ++ (r, request) :: zs → (∀ index, s.dataset = some index →
        dataset = some index) →
      IngressWay s a { s with reading := ys ++ zs, dataset } [.rejected r error]
  | hit (ys zs : List (Nat × AlertRequest)) (r : Nat) (request : AlertRequest) (payload : Bytes)
      (alert : AlertPayload) (dataset : Option DatasetIndex) (incidentId : String)
      (seenAt : Rat) : BodyOf s a r request payload → s.reading = ys ++ (r, request) :: zs →
      (∀ index, s.dataset = some index → dataset = some index) →
      Authentic cfg dataset request payload alert → alert.fingerprint ≠ "" →
      s.entries alert.fingerprint = some (incidentId, seenAt) →
      IngressWay s a { s with reading := ys ++ zs, dataset }
        [.read r payload alert, .answered r incidentId .alreadyInvestigating]
  | missed (ys zs : List (Nat × AlertRequest)) (r : Nat) (request : AlertRequest)
      (payload : Bytes) (alert : AlertPayload) (dataset : Option DatasetIndex)
      (entries : Entries) : BodyOf s a r request payload → s.reading = ys ++ (r, request) :: zs →
      (∀ index, s.dataset = some index → dataset = some index) →
      Authentic cfg dataset request payload alert →
      lookup cfg.ttl s.now alert.fingerprint s.entries = (none, entries) →
      IngressWay s a
        { s with reading := ys ++ zs, dataset, entries, pending := s.pending ++ [⟨r, alert, none⟩] }
        [.read r payload alert]
  | scheduled (ys zs : List Flight) (r : Nat) (alert : AlertPayload) (incidentId : String)
      (i : Nat) : a = .schedule i incidentId → s.pending[i]? = some ⟨r, alert, none⟩ →
      s.pending = ys ++ ⟨r, alert, none⟩ :: zs →
      IngressWay s a { s with pending := ys ++ ⟨r, alert, some incidentId⟩ :: zs }
        [.scheduled r alert incidentId]
  | failed (ys zs : List Flight) (r : Nat) (alert : AlertPayload) (error : HttpError) :
      s.pending = ys ++ ⟨r, alert, none⟩ :: zs →
      IngressWay s a { s with pending := ys ++ zs } [.rejected r error]
  | finished (ys zs : List Flight) (r : Nat) (alert : AlertPayload) (incidentId : String) :
      s.pending = ys ++ ⟨r, alert, some incidentId⟩ :: zs →
      IngressWay s a
        { s with
          entries := reserve s.now alert.fingerprint incidentId s.entries
          pending := ys ++ zs }
        [.answered r incidentId .accepted]
  | denied (op : AdminOp) (error : AuthError) : IngressWay s a s [.denied op error]
  | administered (op : AdminOp) (provided : String) :
      requireAdminSecret cfg.adminSecret provided = .ok () →
      IngressWay s a (s.admin op) [.admin op provided (s.admin op).paused (s.admin op).reason]

theorem arrive_way {request : AlertRequest} (h : s.arrive cfg request = (s', fs)) :
    IngressWay cfg s a s' fs := by
  obtain ⟨allowed, queue, hallow⟩ : ∃ allowed queue,
      cfg.limiter.allow s.now (s.queues request.clientIp) = (allowed, queue) := ⟨_, _, rfl⟩
  simp only [Ingress.arrive, hallow] at h
  split at h
  · rename_i hfalse
    subst hfalse
    obtain ⟨rfl, rfl⟩ := Prod.mk.inj h
    exact .refused request false queue _ hallow
  · rename_i htrue
    obtain rfl : allowed = true := by simpa using htrue
    split at h
    · obtain ⟨rfl, rfl⟩ := Prod.mk.inj h
      exact .refused request true queue _ hallow
    · rename_i hpaused
      obtain ⟨rfl, rfl⟩ := Prod.mk.inj h
      exact .admitted request queue hallow (by simpa using hpaused)

theorem dedup_way {ys zs : List (Nat × AlertRequest)} {r : Nat} {request : AlertRequest}
    {payload : Bytes} {alert : AlertPayload} {dataset : Option DatasetIndex}
    (hb : BodyOf s a r request payload) (hr : s.reading = ys ++ (r, request) :: zs)
    (hd : ∀ index, s.dataset = some index → dataset = some index)
    (ha : Authentic cfg dataset request payload alert) :
    IngressWay cfg s a
      ({ s with reading := ys ++ zs, dataset }.dedup cfg r payload alert).1
      ({ s with reading := ys ++ zs, dataset }.dedup cfg r payload alert).2 := by
  unfold Ingress.dedup
  split
  · rename_i incidentId entries hl
    obtain ⟨hne, hentries, seenAt, he, -⟩ := lookup_some (congrArg Prod.fst hl)
    obtain rfl : s.entries = entries := hentries.symm.trans (congrArg Prod.snd hl)
    exact .hit ys zs r request payload alert dataset incidentId seenAt hb hr hd ha hne he
  · rename_i entries hl
    exact .missed ys zs r request payload alert dataset entries hb hr hd ha hl

theorem ingress_step (h : (ingress cfg).step s a = some (s', fs)) : IngressWay cfg s a s' fs := by
  simp only [ingress] at h
  cases a with
  | tick reading =>
    simp only [stepIngress] at h
    split at h
    · rename_i hle
      obtain ⟨rfl, rfl⟩ := Prod.mk.inj (Option.some.inj h)
      exact .ticked reading hle
    · cases h
  | arrive request =>
    exact arrive_way (Option.some.inj h)
  | body i payload file =>
    simp only [stepIngress] at h
    split at h
    · cases h
    · rename_i r request hi
      obtain ⟨ys, zs, hs, herase, -⟩ := Sys.around_getElem? hi
      rw [herase] at h
      cases hread : readAlert cfg s.dataset file request payload with
      | mk alert dataset =>
        have hd : ∀ index, s.dataset = some index → dataset = some index := by
          intro index hindex
          have := readAlert_dataset cfg file request payload hindex
          rwa [hread] at this
        rw [hread] at h
        cases alert with
        | error e =>
          obtain ⟨rfl, rfl⟩ := Prod.mk.inj (Option.some.inj h)
          exact .unread ys zs r request dataset e hs hd
        | ok alert =>
          obtain ⟨rfl, rfl⟩ := Prod.mk.inj (Option.some.inj h)
          cases payload with
          | none => cases hread
          | some payload => exact dedup_way ⟨i, file, rfl, hi⟩ hs hd (readAlert_ok hread)
  | schedule i incidentId =>
    simp only [stepIngress] at h
    split at h
    · rename_i r alert hi
      obtain ⟨ys, zs, hs, -, hset⟩ := Sys.around_getElem? hi
      obtain ⟨rfl, rfl⟩ := Prod.mk.inj (Option.some.inj h)
      rw [hset]
      exact .scheduled ys zs r alert incidentId i rfl hi hs
    · cases h
  | fail i error =>
    simp only [stepIngress] at h
    split at h
    · rename_i r alert hi
      obtain ⟨ys, zs, hs, herase, -⟩ := Sys.around_getElem? hi
      obtain ⟨rfl, rfl⟩ := Prod.mk.inj (Option.some.inj h)
      rw [herase]
      exact .failed ys zs r alert _ hs
    · cases h
  | finish i =>
    simp only [stepIngress] at h
    split at h
    · rename_i r alert incidentId hi
      obtain ⟨ys, zs, hs, herase, -⟩ := Sys.around_getElem? hi
      obtain ⟨rfl, rfl⟩ := Prod.mk.inj (Option.some.inj h)
      rw [herase]
      exact .finished ys zs r alert incidentId hs
    · cases h
  | admin op provided =>
    simp only [stepIngress] at h
    split at h
    · rename_i e _
      obtain ⟨rfl, rfl⟩ := Prod.mk.inj (Option.some.inj h)
      exact .denied op e
    · rename_i hok
      obtain ⟨rfl, rfl⟩ := Prod.mk.inj (Option.some.inj h)
      exact .administered op provided hok

end steps

/-! ## Admission -/

section admission

variable {cfg} {s s' : Ingress} {a : IngressStep} {es fs pre mid : List IngressEvent} {n : Nat}
  {C : Ingress → IngressStep → Prop}

theorem pausedAfter_append (es fs : List IngressEvent) :
    pausedAfter (es ++ fs) = fs.foldl pausedBy (pausedAfter es) := List.foldl_append ..

/-- A pause lasts until the agent is resumed. -/
theorem pausedAfter_held {provided : String} {paused : Bool} {reason : Option String}
    (h : ∀ provided paused reason, .admin .resume provided paused reason ∉ mid) :
    pausedAfter (pre ++ .admin .pause provided paused reason :: mid) = true := by
  rw [pausedAfter_append, List.foldl_cons]
  show mid.foldl pausedBy true = true
  induction mid with
  | nil => rfl
  | cons e mid ih =>
    rw [List.foldl_cons]
    have he : pausedBy true e = true := by
      unfold pausedBy
      split
      · rfl
      · exact absurd List.mem_cons_self (h _ _ _)
      · rfl
    rw [he]
    exact ih fun provided paused reason hm => h provided paused reason (List.mem_cons_of_mem e hm)

theorem Admitted.append {r : Nat} {request : AlertRequest} (h : Admitted es r request)
    (fs : List IngressEvent) : Admitted (es ++ fs) r request := by
  obtain ⟨pre, time, post, rfl, hp⟩ := h
  exact ⟨pre, time, post ++ fs, by simp, hp⟩

theorem Authentic.later {dataset dataset' : Option DatasetIndex} {request : AlertRequest}
    {payload : Bytes} {alert : AlertPayload} (h : Authentic cfg dataset request payload alert)
    (hd : ∀ index, dataset = some index → dataset' = some index) :
    Authentic cfg dataset' request payload alert := by
  cases h with
  | signed hsource hsign hread => exact .signed hsource hsign hread
  | openobserve index inc hsource hindex hinc henriched =>
    exact .openobserve index inc hsource (hd index hindex) hinc henriched

variable (cfg) in
/-- A request that was admitted, and its alert. -/
def ReadIn (dataset : Option DatasetIndex) (es : List IngressEvent) (r : Nat)
    (alert : AlertPayload) : Prop :=
  ∃ request payload, Admitted es r request ∧ .read r payload alert ∈ es ∧
    Authentic cfg dataset request payload alert

theorem ReadIn.append {dataset dataset' : Option DatasetIndex} {r : Nat} {alert : AlertPayload}
    (h : ReadIn cfg dataset es r alert)
    (hd : ∀ index, dataset = some index → dataset' = some index) (fs : List IngressEvent) :
    ReadIn cfg dataset' (es ++ fs) r alert := by
  obtain ⟨request, payload, hadmitted, hm, hauth⟩ := h
  exact ⟨request, payload, hadmitted.append fs, List.mem_append_left fs hm, hauth.later hd⟩

variable (cfg) in
/-- The requests in flight are admitted, with their alerts; what is scheduled and reserved is
theirs. -/
structure Flown (es : List IngressEvent) (s : Ingress) : Prop where
  paused : s.paused = pausedAfter es
  reading : ∀ q ∈ s.reading, Admitted es q.1 q.2
  pending : ∀ d ∈ s.pending, ReadIn cfg s.dataset es d.r d.alert
  given : ∀ d ∈ s.pending, ∀ incidentId, d.incidentId = some incidentId →
    .scheduled d.r d.alert incidentId ∈ es
  scheduled : ∀ r alert incidentId, .scheduled r alert incidentId ∈ es →
    ReadIn cfg s.dataset es r alert
  entries : ∀ fingerprint incidentId time, s.entries fingerprint = some (incidentId, time) →
    ∃ r alert, .scheduled r alert incidentId ∈ es ∧ alert.fingerprint = fingerprint

/-- What a step keeps of `Flown`, when it schedules nothing and reserves nothing. -/
theorem Flown.keep (h : Flown cfg es s) (hpaused : s'.paused = pausedAfter (es ++ fs))
    (hdataset : ∀ index, s.dataset = some index → s'.dataset = some index)
    (hreading : ∀ q ∈ s'.reading, q ∈ s.reading ∨ Admitted (es ++ fs) q.1 q.2)
    (hpending : ∀ d ∈ s'.pending, d ∈ s.pending ∨
      ReadIn cfg s'.dataset (es ++ fs) d.r d.alert ∧ d.incidentId = none)
    (hnone : ∀ r alert incidentId, .scheduled r alert incidentId ∉ fs)
    (hentries : ∀ fingerprint entry, s'.entries fingerprint = some entry →
      s.entries fingerprint = some entry) : Flown cfg (es ++ fs) s' := by
  refine ⟨hpaused, fun q hq => ?_, fun d hd => ?_, fun d hd incidentId he => ?_,
    fun r alert incidentId hm => ?_, fun fingerprint incidentId time he => ?_⟩
  · rcases hreading q hq with hq | hq
    · exact (h.reading q hq).append fs
    · exact hq
  · rcases hpending d hd with hd | ⟨hd, -⟩
    · exact (h.pending d hd).append hdataset fs
    · exact hd
  · rcases hpending d hd with hd | ⟨-, hn⟩
    · exact List.mem_append_left fs (h.given d hd incidentId he)
    · rw [hn] at he
      cases he
  · rcases List.mem_append.mp hm with hm | hm
    · exact (h.scheduled r alert incidentId hm).append hdataset fs
    · exact absurd hm (hnone r alert incidentId)
  · obtain ⟨r, alert, hm, hf⟩ := h.entries fingerprint incidentId time (hentries _ _ he)
    exact ⟨r, alert, List.mem_append_left fs hm, hf⟩

/-- Events that pause and resume nothing. -/
theorem Flown.unpaused (h : Flown cfg es s) {gs : List IngressEvent}
    (hg : ∀ paused, gs.foldl pausedBy paused = paused) : s.paused = pausedAfter (es ++ gs) := by
  rw [pausedAfter_append, hg, h.paused]

theorem Flown.admit (h : Flown cfg es s) (request : AlertRequest) (queue : List FiniteFloat)
    (hpaused : s.paused = false) :
    Flown cfg (es ++ [.allowed s.next request s.now])
      { s with
        queues := Function.update s.queues request.clientIp queue
        next := s.next + 1
        reading := s.reading ++ [(s.next, request)] } := by
  refine h.keep (h.unpaused fun _ => rfl) (fun _ => id) (fun q hq => ?_) (fun _ => .inl)
    (by simp) fun _ _ => id
  rcases List.mem_append.mp hq with hq | hq
  · exact .inl hq
  · obtain rfl := List.mem_singleton.mp hq
    exact .inr ⟨es, s.now, [], rfl, h.paused ▸ hpaused⟩

/-- A new alert waits for its investigation. -/
theorem Flown.miss (h : Flown cfg es s) {ys zs : List (Nat × AlertRequest)} {r : Nat}
    {request : AlertRequest} {payload : Bytes} {alert : AlertPayload}
    {dataset : Option DatasetIndex} {entries : Entries} (hr : s.reading = ys ++ (r, request) :: zs)
    (hd : ∀ index, s.dataset = some index → dataset = some index)
    (ha : Authentic cfg dataset request payload alert)
    (hl : lookup cfg.ttl s.now alert.fingerprint s.entries = (none, entries)) :
    Flown cfg (es ++ [.read r payload alert])
      { s with
        reading := ys ++ zs, dataset, entries
        pending := s.pending ++ [⟨r, alert, none⟩] } := by
  refine h.keep (h.unpaused fun _ => rfl) hd (fun q hq => .inl (Sys.mem_of_around hr hq))
    (fun d hm => ?_) (by simp) fun fingerprint entry he => ?_
  · rcases List.mem_append.mp hm with hm | hm
    · exact .inl hm
    · obtain rfl := List.mem_singleton.mp hm
      have hadmitted := h.reading (r, request) (by simp [hr])
      exact .inr ⟨⟨request, payload, hadmitted.append _, by simp, ha⟩, rfl⟩
  · have hentry : (lookup cfg.ttl s.now alert.fingerprint s.entries).2 fingerprint =
        some entry := by
      rw [hl]
      exact he
    exact lookup_entries hentry

theorem Flown.schedule (h : Flown cfg es s) {ys zs : List Flight} {r : Nat} {alert : AlertPayload}
    (incidentId : String) (hp : s.pending = ys ++ ⟨r, alert, none⟩ :: zs) :
    Flown cfg (es ++ [.scheduled r alert incidentId])
      { s with pending := ys ++ ⟨r, alert, some incidentId⟩ :: zs } := by
  have hmem : ⟨r, alert, none⟩ ∈ s.pending := by simp [hp]
  have hold : ∀ d ∈ ys ++ ⟨r, alert, some incidentId⟩ :: zs,
      d ∈ s.pending ∨ d = ⟨r, alert, some incidentId⟩ := by
    intro d hd
    rcases List.mem_append.mp hd with hd | hd
    · exact .inl (Sys.mem_of_around hp (List.mem_append_left _ hd))
    · rcases List.mem_cons.mp hd with rfl | hd
      · exact .inr rfl
      · exact .inl (Sys.mem_of_around hp (List.mem_append_right _ hd))
  constructor
  case paused => exact h.unpaused fun _ => rfl
  case reading => exact fun q hq => (h.reading q hq).append _
  case pending =>
    intro d hd
    rcases hold d hd with hd | rfl
    · exact (h.pending d hd).append (fun _ => id) _
    · exact (h.pending _ hmem).append (fun _ => id) _
  case given =>
    intro d hd incident he
    rcases hold d hd with hd | rfl
    · exact List.mem_append_left _ (h.given d hd incident he)
    · obtain rfl := Option.some.inj he
      simp
  case scheduled =>
    intro r' alert' incident hm
    rcases List.mem_append.mp hm with hm | hm
    · exact (h.scheduled r' alert' incident hm).append (fun _ => id) _
    · obtain ⟨rfl, rfl, -⟩ := IngressEvent.scheduled.inj (List.mem_singleton.mp hm)
      exact (h.pending _ hmem).append (fun _ => id) _
  case entries =>
    intro fingerprint incident time he
    obtain ⟨r', alert', hm, hf⟩ := h.entries fingerprint incident time he
    exact ⟨r', alert', List.mem_append_left _ hm, hf⟩

/-- The incident of an alert is reserved when its investigation has been scheduled. -/
theorem Flown.finish (h : Flown cfg es s) {ys zs : List Flight} {r : Nat} {alert : AlertPayload}
    {incidentId : String} (hp : s.pending = ys ++ ⟨r, alert, some incidentId⟩ :: zs) :
    Flown cfg (es ++ [.answered r incidentId .accepted])
      { s with
        entries := reserve s.now alert.fingerprint incidentId s.entries
        pending := ys ++ zs } := by
  have hmem : ⟨r, alert, some incidentId⟩ ∈ s.pending := by simp [hp]
  have hkept : ∀ fingerprint incident time, s.entries fingerprint = some (incident, time) →
      ∃ r' alert', .scheduled r' alert' incident ∈ es ++ [.answered r incidentId .accepted] ∧
        alert'.fingerprint = fingerprint := by
    intro fingerprint incident time he
    obtain ⟨r', alert', hm, hf⟩ := h.entries fingerprint incident time he
    exact ⟨r', alert', List.mem_append_left _ hm, hf⟩
  constructor
  case paused => exact h.unpaused fun _ => rfl
  case reading => exact fun q hq => (h.reading q hq).append _
  case pending =>
    exact fun d hd => (h.pending d (Sys.mem_of_around hp hd)).append (fun _ => id) _
  case given =>
    exact fun d hd incident he =>
      List.mem_append_left _ (h.given d (Sys.mem_of_around hp hd) incident he)
  case scheduled =>
    intro r' alert' incident hm
    rcases List.mem_append.mp hm with hm | hm
    · exact (h.scheduled r' alert' incident hm).append (fun _ => id) _
    · simp at hm
  case entries =>
    intro fingerprint incident time he
    simp only [reserve] at he
    split at he
    · exact hkept fingerprint incident time he
    · by_cases hf : fingerprint = alert.fingerprint
      · subst hf
        obtain ⟨rfl, -⟩ : incidentId = incident ∧ s.now = time := by simpa using he
        exact ⟨r, alert, List.mem_append_left _ (h.given _ hmem incidentId rfl), rfl⟩
      · rw [Function.update_of_ne hf] at he
        exact hkept fingerprint incident time he

theorem flown_step (h : Flown cfg es s) (hw : IngressWay cfg s a s' fs) :
    Flown cfg (es ++ fs) s' := by
  cases hw with
  | ticked reading hle =>
    exact h.keep (h.unpaused fun _ => rfl) (fun _ => id) (fun _ => .inl) (fun _ => .inl) (by simp)
      fun _ _ => id
  | refused request allowed queue error hallow =>
    refine h.keep (h.unpaused ?_) (fun _ => id) (fun _ => .inl) (fun _ => .inl) ?_ fun _ _ => id
    · cases allowed <;> exact fun _ => rfl
    · cases allowed <;> simp
  | admitted request queue _ hpaused => exact h.admit request queue hpaused
  | unread ys zs r request dataset error hr hd =>
    exact h.keep (h.unpaused fun _ => rfl) hd (fun q hq => .inl (Sys.mem_of_around hr hq))
      (fun _ => .inl) (by simp) fun _ _ => id
  | hit ys zs r request payload alert dataset incidentId seenAt _ hr hd _ _ _ =>
    exact h.keep (h.unpaused fun _ => rfl) hd (fun q hq => .inl (Sys.mem_of_around hr hq))
      (fun _ => .inl) (by simp) fun _ _ => id
  | missed ys zs r request payload alert dataset entries _ hr hd ha hl => exact h.miss hr hd ha hl
  | scheduled ys zs r alert incidentId i _ _ hp => exact h.schedule incidentId hp
  | failed ys zs r alert error hp =>
    exact h.keep (h.unpaused fun _ => rfl) (fun _ => id) (fun _ => .inl)
      (fun d hd => .inl (Sys.mem_of_around hp hd)) (by simp) fun _ _ => id
  | finished ys zs r alert incidentId hp => exact h.finish hp
  | denied op error =>
    exact h.keep (h.unpaused fun _ => rfl) (fun _ => id) (fun _ => .inl) (fun _ => .inl) (by simp)
      fun _ _ => id
  | administered op provided hok =>
    refine h.keep ?_ ?_ ?_ ?_ (by simp) ?_
    · rw [pausedAfter_append, ← h.paused]
      cases op <;> rfl
    all_goals cases op
    all_goals first | exact fun _ => id | exact fun _ => .inl | exact fun _ _ => id

theorem flown (hr : (ingress cfg).Run C n es s) : Flown cfg es s := by
  refine hr.inv (I := Flown cfg) (fun s hi => ?_) fun _ _ _ _ _ _ _ h _ hs =>
    flown_step h (ingress_step hs)
  refine ⟨hi.paused, ?_, ?_, ?_, by simp, fun fingerprint incidentId time he => ?_⟩
  · simp [hi.reading]
  · simp [hi.pending]
  · simp [hi.pending]
  · rw [hi.entries] at he
    cases he

end admission

/-! ## Counting the requests -/

section counts

variable {cfg} {s s' : Ingress} {a : IngressStep} {es fs : List IngressEvent} {n : Nat}
  {C : Ingress → IngressStep → Prop}

/-- The event answers the request. -/
def answers (r : Nat) : IngressEvent → Bool
  | .rejected r' _ | .answered r' _ _ => r' == r
  | _ => false

/-- The event schedules the incident of the request. -/
def schedules (r : Nat) : IngressEvent → Bool
  | .scheduled r' _ _ => r' == r
  | _ => false

/-- The request is in flight so many times. -/
def Ingress.inFlight (s : Ingress) (r : Nat) : Nat :=
  s.reading.countP (fun q => q.1 == r) + s.pending.countP fun d => d.r == r

/-- The request can still have an incident so many times. -/
def Ingress.unscheduled (s : Ingress) (r : Nat) : Nat :=
  s.reading.countP (fun q => q.1 == r) + s.pending.countP fun d => d.r == r && d.incidentId.isNone

/-- One, if the request has arrived. -/
def Ingress.arrived (s : Ingress) (r : Nat) : Nat := if r < s.next then 1 else 0

theorem arrived_le (s : Ingress) (r : Nat) : s.arrived r ≤ 1 := by
  unfold Ingress.arrived
  split <;> omega

/-- The requests are counted. -/
structure Counted (es : List IngressEvent) (s : Ingress) : Prop where
  answered : ∀ r, es.countP (answers r) + s.inFlight r = s.arrived r
  scheduled : ∀ r, es.countP (schedules r) + s.unscheduled r ≤ s.arrived r

/-- An administrator leaves the requests alone. -/
theorem admin_requests (s : Ingress) (op : AdminOp) : (s.admin op).next = s.next ∧
    (s.admin op).reading = s.reading ∧ (s.admin op).pending = s.pending := by
  cases op <;> exact ⟨rfl, rfl, rfl⟩

/-- A step answers a request that arrives or is in flight. -/
theorem answered_step (hr : ∀ r, es.countP (answers r) + s.inFlight r = s.arrived r)
    (hw : IngressWay cfg s a s' fs) (r : Nat) :
    (es ++ fs).countP (answers r) + s'.inFlight r = s'.arrived r := by
  have hr := hr r
  simp only [Ingress.inFlight, Ingress.arrived, List.countP_append] at hr ⊢
  cases hw with
  | ticked | denied => simpa [answers] using hr
  | refused request allowed queue error hallow =>
    cases allowed <;> simp [answers, List.countP_cons] at hr ⊢ <;> grind
  | admitted request queue hallow hpaused =>
    simp [answers] at hr ⊢
    grind
  | unread ys zs r' _ _ _ hs | hit ys zs r' _ _ _ _ _ _ _ hs | missed ys zs r' _ _ _ _ _ _ hs =>
    rw [hs] at hr
    simp [answers, List.countP_cons] at hr ⊢
    omega
  | scheduled ys zs r' _ _ _ _ _ hp | failed ys zs r' _ _ hp | finished ys zs r' _ _ hp =>
    rw [hp] at hr
    simp [answers, List.countP_cons] at hr ⊢
    omega
  | administered op provided hok =>
    obtain ⟨hnext, hreading, hpending⟩ := admin_requests s op
    rw [hreading, hpending]
    simpa [answers, hnext] using hr

/-- A step schedules an incident for a request in flight that has none. -/
theorem scheduled_step (hr : ∀ r, es.countP (schedules r) + s.unscheduled r ≤ s.arrived r)
    (hw : IngressWay cfg s a s' fs) (r : Nat) :
    (es ++ fs).countP (schedules r) + s'.unscheduled r ≤ s'.arrived r := by
  have hr := hr r
  simp only [Ingress.unscheduled, Ingress.arrived, List.countP_append] at hr ⊢
  cases hw with
  | ticked | denied => simpa [schedules] using hr
  | refused request allowed queue error hallow =>
    cases allowed <;> simp [schedules] at hr ⊢ <;> grind
  | admitted request queue hallow hpaused =>
    simp [schedules] at hr ⊢
    grind
  | unread ys zs r' _ _ _ hs | hit ys zs r' _ _ _ _ _ _ _ hs | missed ys zs r' _ _ _ _ _ _ hs =>
    rw [hs] at hr
    simp [schedules, List.countP_cons] at hr ⊢
    omega
  | scheduled ys zs r' _ _ _ _ _ hp | failed ys zs r' _ _ hp | finished ys zs r' _ _ hp =>
    rw [hp] at hr
    simp [schedules, List.countP_cons] at hr ⊢
    omega
  | administered op provided hok =>
    obtain ⟨hnext, hreading, hpending⟩ := admin_requests s op
    rw [hreading, hpending]
    simpa [schedules, hnext] using hr

theorem counted (hr : (ingress cfg).Run C n es s) : Counted es s := by
  refine hr.inv (I := Counted) (fun s hi => ?_) fun _ _ _ _ _ _ _ h _ hs =>
    ⟨answered_step h.answered (ingress_step hs), scheduled_step h.scheduled (ingress_step hs)⟩
  refine ⟨fun r => ?_, fun r => ?_⟩
  · simp [Ingress.inFlight, Ingress.arrived, hi.reading, hi.pending, hi.next]
  · simp [Ingress.unscheduled, Ingress.arrived, hi.reading, hi.pending, hi.next]

/-- Two events that a predicate counts once are one. -/
theorem eq_of_countP_le_one {ε : Type} {p : ε → Bool} {es : List ε} (h : es.countP p ≤ 1)
    {x y : ε} (hx : x ∈ es) (hy : y ∈ es) (hpx : p x = true) (hpy : p y = true) : x = y := by
  rw [List.countP_eq_length_filter] at h
  have hfx : x ∈ es.filter p := List.mem_filter.mpr ⟨hx, hpx⟩
  have hfy : y ∈ es.filter p := List.mem_filter.mpr ⟨hy, hpy⟩
  cases hl : es.filter p with
  | nil =>
    rw [hl] at hfx
    cases hfx
  | cons z zs =>
    rw [hl, List.length_cons] at h
    obtain rfl := List.eq_nil_of_length_eq_zero (l := zs) (by omega)
    rw [hl] at hfx hfy
    exact (List.mem_singleton.mp hfx).trans (List.mem_singleton.mp hfy).symm

end counts

/-! ### The sample requests -/

/-- A body of a signed alert. -/
def latencyBody : String :=
  "\x7b\"alert_name\":\"HighLatency\",\"service\":\"gateway\",\"namespace\":\"rivulet\"," ++
    "\"severity\":\"sev2\",\"started_at\":\"2026-01-01T00:00:00Z\"," ++
    "\"fingerprint\":\"latency\"\x7d"

def latencyAlert : AlertPayload where
  alertName := "HighLatency"
  service := "gateway"
  namespaceName := "rivulet"
  severity := "sev2"
  startedAt := "2026-01-01T00:00:00Z"
  fingerprint := "latency"

/-- A body of OpenObserve. -/
def stockBody : String := "\x7b\"alert_name\":\"LowStock\"\x7d"

/-- The HMAC and the values of the bodies that are sent. -/
def sampleEndpoint : Endpoint where
  hook :=
    { sampleHook with
      hexdigest := fun key msg =>
        if key = utf8 "test-secret" ∧ msg = utf8 latencyBody then
          "63f5af7f7ee9e692cbe072247cdf088a900ab0fd514361ecc35a64dc9e4a39d9"
        else sampleHook.hexdigest key msg
      hexdigest_ascii := fun key msg => by
        split
        · decide +kernel
        · exact sampleHook.hexdigest_ascii key msg }
  validateJson payload :=
    if payload = utf8 latencyBody then .ok latencyAlert else .error "Invalid JSON"
  loads payload :=
    if payload = utf8 stockBody then .ok (.obj [("alert_name", .str "LowStock")])
    else .error "Expecting value: line 1 column 1 (char 0)"
  limiter := alertsLimiter
  ttl := fingerprintTtl
  adminSecret := some (codePoints "admin-secret")

/-- A dataset with one incident. -/
def sampleDataset : Json :=
  .obj [("incidents", .arr [.obj [("alert_name", .str "LowStock"), ("service", .str "worker"),
    ("namespace", .str "rivulet")]])]

/-- The signature of the alert's body. -/
def latencySignature : String :=
  "sha256=63f5af7f7ee9e692cbe072247cdf088a900ab0fd514361ecc35a64dc9e4a39d9"

example : sampleEndpoint.hook.sign (utf8 latencyBody) = .ok latencySignature := by decide +kernel

def latencyRequest : AlertRequest where
  forwarded := ""
  host := some "10.0.0.1"
  source := ""
  signature := latencySignature

def stockRequest : AlertRequest where
  forwarded := "10.0.0.2, 10.0.0.3"
  host := some "10.0.0.1"
  source := "openobserve"
  signature := ""

/-- A signed alert and one of OpenObserve, a pause, and another request. -/
def sampleRequests : List IngressStep :=
  [.arrive latencyRequest, .arrive stockRequest, .body 0 (some (utf8 latencyBody)) none,
    .schedule 0 "inc-1", .body 0 (some (utf8 stockBody)) (some sampleDataset),
    .admin .pause "admin-secret", .schedule 1 "inc-2", .finish 0, .finish 0,
    .arrive latencyRequest]

/-- The state after the start. -/
def newIngress : Ingress where
  now := ⟨0, isFloat_zero⟩
  queues _ := []
  paused := false
  reason := none
  dataset := none
  entries _ := none
  next := 0
  reading := []
  pending := []

theorem newIngress_new : (ingress sampleEndpoint).init newIngress :=
  ⟨fun _ => rfl, rfl, rfl, fun _ => rfl, rfl, rfl, rfl⟩

/-- The requests of the incidents of a log. -/
def incidentRequests : List IngressEvent → List Nat :=
  List.filterMap fun
    | .scheduled r _ _ => some r
    | _ => none

/-- The log has an incident of each of the first two requests, and a pause. -/
def pausesIncidents (es : List IngressEvent) : Bool :=
  incidentRequests es == [0, 1] && pausedAfter es

theorem sampleRequests_exec : ((ingress sampleEndpoint).exec newIngress sampleRequests).any
    (fun r => pausesIncidents r.2) = true := by
  decide +kernel

theorem exists_sampleRequests : ∃ n es s, (ingress sampleEndpoint).Run Sys.anyStep n es s ∧
    pausesIncidents es = true := by
  obtain ⟨s, es, hr, hc⟩ := Sys.exists_any_run newIngress_new sampleRequests_exec
  exact ⟨_, es, s, hr, hc⟩

/-! ## The guarantees of the endpoint -/

section guarantees

variable {cfg} {s s' : Ingress} {a : IngressStep} {es fs : List IngressEvent} {n : Nat}
  {C : Ingress → IngressStep → Prop}

/-- Every request that has arrived is in flight once, or has one answer. -/
theorem answered_once (hr : (ingress cfg).Run C n es s) (r : Nat) :
    es.countP (answers r) + s.inFlight r = if r < s.next then 1 else 0 :=
  (counted hr).answered r

theorem answered_once_latency : ∃ n es s, (ingress sampleEndpoint).Run Sys.anyStep n es s ∧
    pausesIncidents es = true ∧
    ∀ r, es.countP (answers r) + s.inFlight r = if r < s.next then 1 else 0 := by
  obtain ⟨n, es, s, hr, hc⟩ := exists_sampleRequests
  exact ⟨n, es, s, hr, hc, answered_once hr⟩

variable (cfg) in
/-- Where the incidents come from. -/
structure Authenticated (es : List IngressEvent) (s : Ingress) : Prop where
  origin : ∀ pre r alert incidentId post, es = pre ++ .scheduled r alert incidentId :: post →
    ReadIn cfg s.dataset pre r alert
  /-- A request has one incident. -/
  once : ∀ r alert incidentId alert' incidentId', .scheduled r alert incidentId ∈ es →
    .scheduled r alert' incidentId' ∈ es → alert = alert' ∧ incidentId = incidentId'
  /-- A duplicate is answered with an incident of its fingerprint. -/
  duplicate : ∀ pre r incidentId post,
    es = pre ++ .answered r incidentId .alreadyInvestigating :: post →
    ∃ payload alert r' alert', .read r payload alert ∈ pre ∧
      .scheduled r' alert' incidentId ∈ pre ∧ alert'.fingerprint = alert.fingerprint

/-- The dataset that is loaded stays. -/
theorem dataset_step (h : IngressWay cfg s a s' fs) (index : DatasetIndex)
    (hi : s.dataset = some index) : s'.dataset = some index := by
  cases h with
  | unread _ _ _ _ _ _ _ hd | hit _ _ _ _ _ _ _ _ _ _ _ hd | missed _ _ _ _ _ _ _ _ _ _ hd =>
    exact hd index hi
  | administered op => cases op <;> exact hi
  | _ => exact hi

/-- The alert of an incident was read before, by a request that was admitted. -/
theorem scheduled_read (hr : (ingress cfg).Run C n es s) : ∀ pre r alert incidentId post,
    es = pre ++ .scheduled r alert incidentId :: post → ReadIn cfg s.dataset pre r alert := by
  refine hr.inv (I := fun es s => ∀ pre r alert incidentId post,
    es = pre ++ .scheduled r alert incidentId :: post → ReadIn cfg s.dataset pre r alert)
    (fun s _ pre r alert incidentId post he => by simp at he) ?_
  intro n es s a s' fs hr ih _ hs pre r alert incidentId post he
  have hd := dataset_step (ingress_step hs)
  rcases Sys.split_append he with ⟨post', he, -⟩ | ⟨fs₁, hfs, rfl⟩
  · simpa using (ih pre r alert incidentId post' he).append hd []
  · have hm : .scheduled r alert incidentId ∈ fs := by simp [hfs]
    cases ingress_step hs with
    | scheduled ys zs r' alert' incidentId' i _ hi hp =>
      obtain ⟨rfl, rfl, -⟩ := IngressEvent.scheduled.inj (List.mem_singleton.mp hm)
      exact ((flown hr).pending ⟨r, alert, none⟩ (by simp [hp])).append hd fs₁
    | refused request allowed => cases allowed <;> simp at hm
    | _ => simp at hm

/-- Every incident is scheduled for one admitted request, and for its authentic alert. -/
theorem scheduled_authentic (hr : (ingress cfg).Run C n es s) : Authenticated cfg es s := by
  constructor
  case origin => exact scheduled_read hr
  case once =>
    intro r alert incidentId alert' incidentId' h h'
    have hcount := (counted hr).scheduled r
    have hle := arrived_le s r
    have heq := eq_of_countP_le_one (p := schedules r) (by omega) h h' (by simp [schedules])
      (by simp [schedules])
    obtain ⟨-, halert, hincident⟩ := IngressEvent.scheduled.inj heq
    exact ⟨halert, hincident⟩
  case duplicate =>
    intro pre r incidentId post he
    obtain ⟨n₁, es₁, s₁, a, s₂, fs, fs₁, fs₂, hr₁, -, hs, hfs, rfl⟩ := hr.split he
    have hm : .answered r incidentId .alreadyInvestigating ∈ fs := by simp [hfs]
    cases ingress_step hs with
    | hit ys zs r' request payload alert dataset incidentId' seenAt _ _ _ _ _ hentry =>
      obtain ⟨rfl, rfl⟩ : r = r' ∧ incidentId = incidentId' := by simpa using hm
      obtain ⟨r'', alert', hscheduled, hf⟩ := (flown hr₁).entries _ _ _ hentry
      have hfs₁ : fs₁ = [.read r payload alert] := by
        cases fs₁ with
        | nil => simp at hfs
        | cons e fs₁ =>
          obtain ⟨rfl, hfs⟩ := List.cons.inj hfs
          cases fs₁ with
          | nil => rfl
          | cons e fs₁ => simp at hfs
      exact ⟨payload, alert, r'', alert', by simp [hfs₁], List.mem_append_left fs₁ hscheduled, hf⟩
    | refused request allowed => cases allowed <;> simp at hm
    | _ => simp at hm

theorem scheduled_authentic_latency : ∃ n es s, (ingress sampleEndpoint).Run Sys.anyStep n es s ∧
    pausesIncidents es = true ∧ Authenticated sampleEndpoint es s := by
  obtain ⟨n, es, s, hr, hc⟩ := exists_sampleRequests
  exact ⟨n, es, s, hr, hc, scheduled_authentic hr⟩

/-! ### The pause -/

theorem requireAdminSecret_ok {secret : Option PyStr} {provided : String}
    (h : requireAdminSecret secret provided = .ok ()) : secret = some (codePoints provided) := by
  unfold requireAdminSecret at h
  split at h
  · cases h
  · split at h
    · cases h
    · split at h
      · cases h
      · cases h
      · rename_i hdigest
        unfold compareDigest at hdigest
        split at hdigest
        · rw [eq_of_beq (Except.ok.inj hdigest)]
        · cases hdigest

variable (cfg) in
/-- What a pause is for. -/
structure PauseKept (es : List IngressEvent) : Prop where
  secret : ∀ op provided paused reason, .admin op provided paused reason ∈ es →
    cfg.adminSecret = some (codePoints provided)
  /-- The administrators are told the pause that they have left. -/
  told : ∀ pre op provided paused reason post,
    es = pre ++ .admin op provided paused reason :: post →
    paused = pausedAfter (pre ++ [.admin op provided paused reason])
  /-- What is scheduled during a pause was admitted before it. -/
  held : ∀ pre provided paused reason mid r alert incidentId post,
    es = (pre ++ .admin .pause provided paused reason :: mid) ++
      .scheduled r alert incidentId :: post →
    (∀ provided paused reason, .admin .resume provided paused reason ∉ mid) →
    ∃ request, Admitted pre r request

theorem administered_of_mem (h : IngressWay cfg s a s' fs) {op : AdminOp} {provided : String}
    {paused : Bool} {reason : Option String} (hm : .admin op provided paused reason ∈ fs) :
    requireAdminSecret cfg.adminSecret provided = .ok () ∧ paused = (s.admin op).paused ∧
      fs = [.admin op provided paused reason] := by
  cases h with
  | administered op' provided' hok =>
    obtain ⟨rfl, rfl, rfl, rfl⟩ := IngressEvent.admin.inj (List.mem_singleton.mp hm)
    exact ⟨hok, rfl, rfl⟩
  | refused request allowed => cases allowed <;> simp at hm
  | _ => simp at hm

/-- A pause stops all but the requests that were admitted before it, and only an administrator
ends it. -/
theorem pause_kept (hr : (ingress cfg).Run C n es s) : PauseKept cfg es := by
  constructor
  case secret =>
    intro op provided paused reason hm
    obtain ⟨n₁, es₁, s₁, a, s₂, fs, hr₁, -, hs, hm⟩ := hr.logged hm
    exact requireAdminSecret_ok (administered_of_mem (ingress_step hs) hm).1
  case told =>
    intro pre op provided paused reason post he
    obtain ⟨n₁, es₁, s₁, a, s₂, fs, fs₁, fs₂, hr₁, -, hs, hfs, rfl⟩ := hr.split he
    obtain ⟨-, hpaused, hlog⟩ := administered_of_mem (ingress_step hs)
      (show .admin op provided paused reason ∈ fs by simp [hfs])
    obtain ⟨rfl, -⟩ : fs₁ = [] ∧ _ := by
      rw [hlog] at hfs
      simpa [List.singleton_eq_append_iff] using hfs
    rw [List.append_nil, pausedAfter_append, ← (flown hr₁).paused, hpaused]
    cases op <;> rfl
  case held =>
    intro pre provided paused reason mid r alert incidentId post he hmid
    obtain ⟨request, -, ⟨before, time, after, hsplit, hrunning⟩, -, -⟩ :=
      scheduled_read hr _ r alert incidentId post he
    rcases Sys.split_append hsplit with ⟨post', rfl, -⟩ | ⟨mid₁, hmid₁, rfl⟩
    · exact ⟨request, before, time, post', rfl, hrunning⟩
    · cases mid₁ with
      | nil => cases (List.cons.inj hmid₁).1
      | cons e mid₁ =>
        -- The request came after the pause, when the agent was still paused.
        obtain ⟨rfl, rfl⟩ := List.cons.inj hmid₁
        rw [pausedAfter_held fun provided paused reason hm => hmid provided paused reason
          (List.mem_append_left _ hm)] at hrunning
        cases hrunning

theorem pause_kept_latency : ∃ n es s, (ingress sampleEndpoint).Run Sys.anyStep n es s ∧
    pausesIncidents es = true ∧ PauseKept sampleEndpoint es := by
  obtain ⟨n, es, s, hr, hc⟩ := exists_sampleRequests
  exact ⟨n, es, s, hr, hc, pause_kept hr⟩

/-! ### The window -/

/-- The requests of a client that the limiter has let through, with their times. -/
def arrivals (client : String) : List IngressEvent → List (Nat × FiniteFloat) :=
  List.filterMap fun
    | .allowed r request time => if request.clientIp = client then some (r, time) else none
    | _ => none

variable (cfg) in
/-- The incidents of the requests of a client that come in a window from `t` on. -/
def incidentsOf (client : String) (t : Rat) (es : List IngressEvent) : List Nat :=
  (incidentRequests es).filter fun r => (arrivals client es).any fun q =>
    q.1 == r && decide (t ≤ q.2 ∧ (q.2 : Rat) < t + cfg.limiter.window)

theorem arrivals_append (client : String) (es fs : List IngressEvent) :
    arrivals client (es ++ fs) = arrivals client es ++ arrivals client fs := List.filterMap_append

theorem incidentRequests_nodup (hr : (ingress cfg).Run C n es s) :
    (incidentRequests es).Nodup := by
  refine List.nodup_iff_count_le_one.mpr fun r => ?_
  have hcount := (counted hr).scheduled r
  have hle := arrived_le s r
  have heq : (incidentRequests es).count r = es.countP (schedules r) := by
    rw [incidentRequests, List.count, List.countP_filterMap]
    refine List.countP_congr fun e _ => ?_
    cases e <;> simp [schedules]
  omega

/-- The queue of a client is the end of its arrivals. -/
theorem kept_arrivals (hr : (ingress cfg).Run C n es s) (client : String) :
    cfg.limiter.Kept ((arrivals client es).map (·.2)) (s.queues client) s.now := by
  refine hr.inv (I := fun es s => cfg.limiter.Kept ((arrivals client es).map (·.2))
    (s.queues client) s.now) (fun s hi => ?_) ?_
  · rw [hi.queues]
    exact RateLimiter.Kept.nil cfg.limiter s.now
  · intro n es s a s' fs _ hk _ hs
    have hquiet : ∀ gs, arrivals client gs = [] →
        cfg.limiter.Kept ((arrivals client (es ++ gs)).map (·.2)) (s.queues client) s.now := by
      intro gs hg
      rw [arrivals_append, hg, List.append_nil]
      exact hk
    -- A request of the client is a call of the limiter.
    have hcall : ∀ (request : AlertRequest) (allowed : Bool) (queue : List FiniteFloat) gs,
        cfg.limiter.allow s.now (s.queues request.clientIp) = (allowed, queue) →
        arrivals client gs = (if request.clientIp = client ∧ allowed = true then
          [(s.next, s.now)] else []) →
        cfg.limiter.Kept ((arrivals client (es ++ gs)).map (·.2))
          (Function.update s.queues request.clientIp queue client) s.now := by
      intro request allowed queue gs hallow hg
      rw [arrivals_append, hg]
      by_cases hc : request.clientIp = client
      · subst hc
        have hstep := hk.step (le_refl s.now)
        rw [hallow] at hstep
        cases allowed <;> simpa [RateLimiter.acceptedTimes] using hstep
      · rw [Function.update_of_ne (Ne.symm hc), if_neg fun h => hc h.1, List.append_nil]
        exact hk
    cases ingress_step hs with
    | ticked reading hle =>
      have := hquiet [] rfl
      exact this.later hle
    | refused request allowed queue error hallow =>
      refine hcall request allowed queue _ hallow ?_
      cases allowed <;> by_cases hc : request.clientIp = client <;> simp [arrivals, hc]
    | admitted request queue hallow hpaused =>
      refine hcall request true queue _ hallow ?_
      by_cases hc : request.clientIp = client <;> simp [arrivals, hc]
    | administered op provided =>
      have := hquiet [.admin op provided (s.admin op).paused (s.admin op).reason] rfl
      cases op <;> exact this
    | _ => exact hquiet _ rfl

theorem length_le_of_keys {ks : List Nat} (hks : ks.Nodup) {qs : List (Nat × FiniteFloat)}
    (h : ∀ k ∈ ks, ∃ q ∈ qs, q.1 = k) : ks.length ≤ qs.length := by
  have hsub : ks.Subperm (qs.map Prod.fst) := List.subperm_of_subset hks fun k hk => by
    obtain ⟨q, hq, rfl⟩ := h k hk
    exact List.mem_map_of_mem hq
  exact hsub.length_le.trans_eq (List.length_map _)

/-- In a window, the requests of one client schedule not more than `max_requests` incidents. -/
theorem scheduled_window (hr : (ingress cfg).Run C n es s) (client : String) (t : Rat) :
    (incidentsOf cfg client t es).length ≤ cfg.limiter.maxRequests := by
  have hkept := (kept_arrivals hr client).window
    (fun u => decide (t ≤ u ∧ (u : Rat) < t + cfg.limiter.window)) fun a b ha hb => by
      have ha := of_decide_eq_true ha
      have hb := of_decide_eq_true hb
      linarith
  refine le_trans ?_ hkept
  rw [List.filter_map, List.length_map]
  refine length_le_of_keys ((incidentRequests_nodup hr).filter _) fun r hm => ?_
  obtain ⟨q, hq, hkey⟩ := List.any_eq_true.mp (List.mem_filter.mp hm).2
  obtain ⟨hr, hin⟩ := Bool.and_eq_true_iff.mp hkey
  exact ⟨q, List.mem_filter.mpr ⟨hq, hin⟩, eq_of_beq hr⟩

theorem scheduled_window_latency : ∃ n es s, (ingress sampleEndpoint).Run Sys.anyStep n es s ∧
    pausesIncidents es = true ∧ (incidentsOf sampleEndpoint "10.0.0.1" 0 es).length ≤ 60 := by
  obtain ⟨n, es, s, hr, hc⟩ := exists_sampleRequests
  exact ⟨n, es, s, hr, hc, scheduled_window hr "10.0.0.1" 0⟩

end guarantees

end Api
end AutoSRE

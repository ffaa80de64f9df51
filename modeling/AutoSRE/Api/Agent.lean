import AutoSRE.Api.Ingress
import AutoSRE.Api.Signatures
import AutoSRE.Core.Grants
import AutoSRE.Core.Frame
import AutoSRE.Lib.Refine

/-!
# From the alert to the action

The endpoint for the alerts, the incidents that it schedules, and the requests that approve their
proposals, in one process.

- **The agent** (`agent`). A request that is accepted schedules an incident with the metadata of its
  alert. The threads of the incidents, the requests and the signatures interleave.
- **Its parts** (`agent_ingress`, `Followed`). A run of the agent is a run of the endpoint, and of
  the graph for each incident.
- **Metadata** (`incident_of_alert`). An incident is that of one alert in all its states; one that
  is not signed gives it the service, the namespace and the severity of the dataset.
- **Authority** (`dispatch_authorized`). Every action of an incident follows its alert, and one that
  needs an approval also an interrupt that shows it and a signed decision that approves.
-/

namespace AutoSRE
namespace Api

open Lib Py Safety Tools AutoSRE.Core

/-! ## The agent -/

/-- The endpoint, the bodies that are signed with the secret, and the incidents. -/
structure Agent where
  ingress : Ingress
  signed : List Bytes
  incidents : String → Option Approvals

inductive AgentStep where
  /-- A step of the endpoint that schedules nothing. -/
  | ingress (a : IngressStep)
  /-- The runner schedules the incident of a request, with a new id. -/
  | schedule (i : Nat) (incident : String) (now : PyFloat)
  /-- `POST /api/sign-approval`. -/
  | mint (approval : ApprovalRequest)
  /-- Another holder of the secret signs a body. -/
  | sign (body : Bytes)
  | approve (incident : String) (payload : Bytes) (signature : String) (found : Bool)
  /-- A step of an incident or of one of its requests. -/
  | incident (incident : String) (a : ApprovalStep)

inductive AgentEvent where
  | ingress (e : IngressEvent)
  | signed (body : Bytes)
  | refused (incident : String) (error : HttpError)
  | incident (incident : String) (e : ApprovalEvent)

/-- A new incident without requests. -/
def scheduledIncident (metadata : IncidentMetadata) (now : PyFloat) : Approvals where
  thread := prepareIncident metadata now
  readers := []
  scheduled := []
  decided := false

/-- The incident after a step of its own. -/
def Agent.setIncident (s : Agent) (incident : String) (r : Approvals × List ApprovalEvent) :
    Agent × List AgentEvent :=
  ({ s with incidents := Function.update s.incidents incident (some r.1) },
    r.2.map (.incident incident))

variable (cfg : Endpoint) (ctx : GraphContext)

/-- A step of an incident that is there. -/
def Agent.stepIncident (s : Agent) (incident : String) (a : ApprovalStep) :
    Option (Agent × List AgentEvent) :=
  match s.incidents incident with
  | none => none
  | some inc => (stepApprovals ctx inc a).map (s.setIncident incident)

/-- The step of a label. -/
def stepAgent (s : Agent) : AgentStep → Option (Agent × List AgentEvent)
  -- An incident is scheduled only by `schedule`.
  | .ingress (.schedule _ _) => none
  | .ingress a =>
    (stepIngress cfg s.ingress a).map fun r => ({ s with ingress := r.1 }, r.2.map .ingress)
  | .schedule i incident now =>
    match s.incidents incident, s.ingress.pending[i]? with
    | none, some d =>
      (stepIngress cfg s.ingress (.schedule i incident)).map fun r =>
        ({ s with
            ingress := r.1
            incidents := Function.update s.incidents incident
              (some (scheduledIncident (d.alert.metadata incident) now)) }, r.2.map .ingress)
    | _, _ => none
  | .mint approval =>
    match signApproval cfg.hook approval with
    | .error _ => some (s, [])
    | .ok signed =>
      some ({ s with signed := s.signed ++ [utf8 signed.body] }, [.signed (utf8 signed.body)])
  | .sign body => some ({ s with signed := s.signed ++ [body] }, [.signed body])
  | .approve incident payload signature found =>
    match approveIncident cfg.hook payload signature with
    | .error e => some (s, [.refused incident e])
    | .ok approval =>
      match s.incidents incident with
      | none => some (s, [.refused incident ⟨404, "Incident " ++ incident ++ " not found"⟩])
      | some inc => (stepApprovals ctx inc (.read approval found)).map (s.setIncident incident)
  -- A request reads the state only through `approve`.
  | .incident _ (.read _ _) => none
  | .incident incident a => s.stepIncident ctx incident a

/-- A process after its start. -/
structure NewAgent (s : Agent) : Prop where
  ingress : NewIngress s.ingress
  signed : s.signed = []
  incidents : ∀ incident, s.incidents incident = none

/-- The agent. -/
def agent : Sys Agent AgentStep AgentEvent where
  init := NewAgent
  step := stepAgent cfg ctx

/-! ## The conditions -/

/-- The step of the thread. -/
def Approvals.threadLabel (s : Approvals) : ApprovalStep → Option Label
  | .stream env => some (.run env)
  | .resume i env => s.scheduled[i]?.map fun request => .resume request.resumeValue env none
  | _ => none

/-- Every proposal of a call in `G` declares at least tier 2, and `approve_node` never finds a grant
that is there already. -/
structure GateKept (G : String → PyDict → Prop) (t : Thread) (a : Label) : Prop where
  declared : ∀ env confidence category, a = .run env → t.next = .node .propose →
    topConfidence t.values.hypotheses = .ok confidence →
    proposeCategory t.values.incidentMetadata = .ok category →
    TierDeclared ctx env t.values confidence category G
  fresh : FreshApproval t a

/-- HMAC-SHA256 is an ideal MAC, and the steps of the threads satisfy `D`. -/
structure Governed (D : Thread → Label → Prop) (s : Agent) (a : AgentStep) : Prop where
  approvals : ∀ incident payload signature found,
    a = .approve incident payload signature found → cfg.hook.sign payload = .ok signature →
    payload ∈ s.signed
  alerts : ∀ b r request payload, a = .ingress b → BodyOf s.ingress b r request payload →
    cfg.hook.sign payload = .ok request.signature → payload ∈ s.signed
  threads : ∀ incident b inc label, a = .incident incident b → s.incidents incident = some inc →
    inc.threadLabel b = some label → D inc.thread label

/-! ## The parts of a log -/

def AgentEvent.atIngress : AgentEvent → Option IngressEvent
  | .ingress e => some e
  | _ => none

/-- The events of the thread of an incident. -/
def AgentEvent.atThread (j : String) : AgentEvent → Option Event
  | .incident k (.graph e) => if k = j then some e else none
  | _ => none

def ApprovalEvent.atThread : ApprovalEvent → Option Event
  | .graph e => some e
  | _ => none

theorem mem_atThread {es : List AgentEvent} {j : String} {e : Event} :
    e ∈ es.filterMap (AgentEvent.atThread j) ↔ .incident j (.graph e) ∈ es := by
  rw [List.mem_filterMap]
  constructor
  · rintro ⟨e', hm, he⟩
    unfold AgentEvent.atThread at he
    split at he
    · split at he
      · rename_i hj
        obtain rfl := Option.some.inj he
        rwa [← hj]
      · cases he
    · cases he
  · intro hm
    exact ⟨_, hm, if_pos rfl⟩

theorem mem_atIngress {es : List AgentEvent} {e : IngressEvent} :
    e ∈ es.filterMap AgentEvent.atIngress ↔ .ingress e ∈ es := by
  rw [List.mem_filterMap]
  constructor
  · rintro ⟨e', hm, he⟩
    unfold AgentEvent.atIngress at he
    split at he
    · obtain rfl := Option.some.inj he
      exact hm
    · cases he
  · intro hm
    exact ⟨_, hm, rfl⟩

/-- The thread's part of what an incident logs. -/
theorem atThread_map (gs : List ApprovalEvent) (j incident : String) :
    (gs.map (AgentEvent.incident incident)).filterMap (AgentEvent.atThread j) =
      if incident = j then gs.filterMap ApprovalEvent.atThread else [] := by
  rw [List.filterMap_map]
  by_cases h : incident = j
  · rw [if_pos h]
    refine List.filterMap_congr fun e _ => ?_
    cases e with
    | graph e => exact if_pos h
    | answered request accepted => rfl
  · rw [if_neg h, List.filterMap_eq_nil_iff]
    intro e _
    cases e with
    | graph e => exact if_neg h
    | answered request accepted => rfl

/-! ## The steps -/

section steps

variable {cfg ctx} {s s' : Agent} {a : AgentStep} {es fs : List AgentEvent}

variable (cfg ctx) in
/-- What a step does. -/
inductive AgentWay (s : Agent) (a : AgentStep) : Agent → List AgentEvent → Prop
  | served (b : IngressStep) (g' : Ingress) (gs : List IngressEvent) : a = .ingress b →
      (ingress cfg).step s.ingress b = some (g', gs) →
      (∀ r alert incident, .scheduled r alert incident ∉ gs) →
      AgentWay s a { s with ingress := g' } (gs.map .ingress)
  | scheduled (b : IngressStep) (g' : Ingress) (r : Nat) (alert : AlertPayload)
      (incident : String) (now : PyFloat) : s.incidents incident = none →
      (ingress cfg).step s.ingress b = some (g', [.scheduled r alert incident]) →
      AgentWay s a
        { s with
          ingress := g'
          incidents := Function.update s.incidents incident
            (some (scheduledIncident (alert.metadata incident) now)) }
        [.ingress (.scheduled r alert incident)]
  | signed (body : Bytes) :
      AgentWay s a { s with signed := s.signed ++ [body] } [.signed body]
  /-- The secret cannot be encoded. -/
  | unsigned : AgentWay s a s []
  | refused (incident : String) (error : HttpError) : AgentWay s a s [.refused incident error]
  | approved (incident : String) (inc inc' : Approvals) (payload : Bytes)
      (signature : String) (approval : ApprovalRequest) (found : Bool) (gs : List ApprovalEvent) :
      a = .approve incident payload signature found → cfg.hook.sign payload = .ok signature →
      cfg.hook.validateJson payload = .ok approval → s.incidents incident = some inc →
      (approvals ctx).step inc (.read approval found) = some (inc', gs) →
      AgentWay s a
        { s with incidents := Function.update s.incidents incident (some inc') }
        (gs.map (.incident incident))
  | moved (incident : String) (inc inc' : Approvals) (b : ApprovalStep)
      (gs : List ApprovalEvent) : a = .incident incident b →
      (∀ approval found, b ≠ .read approval found) → s.incidents incident = some inc →
      (approvals ctx).step inc b = some (inc', gs) →
      AgentWay s a
        { s with incidents := Function.update s.incidents incident (some inc') }
        (gs.map (.incident incident))

/-- A step of the endpoint that is no scheduling schedules nothing. -/
theorem not_scheduled {g g' : Ingress} {b : IngressStep} {gs : List IngressEvent}
    (h : (ingress cfg).step g b = some (g', gs))
    (hb : ∀ i incident, b ≠ .schedule i incident) (r : Nat) (alert : AlertPayload)
    (incident : String) : .scheduled r alert incident ∉ gs := by
  intro hm
  cases ingress_step h with
  | scheduled _ _ _ _ incident' i he => exact hb i incident' he
  | refused request allowed => cases allowed <;> simp at hm
  | _ => simp at hm

theorem setIncident_map {incident : String} {r : Option (Approvals × List ApprovalEvent)}
    (h : r.map (s.setIncident incident) = some (s', fs)) : ∃ inc' gs, r = some (inc', gs) ∧
      s' = { s with incidents := Function.update s.incidents incident (some inc') } ∧
      fs = gs.map (.incident incident) := by
  obtain ⟨⟨inc', gs⟩, hr, he⟩ := Option.map_eq_some_iff.mp h
  obtain ⟨rfl, rfl⟩ := Prod.mk.inj he
  exact ⟨inc', gs, hr, rfl, rfl⟩

theorem agent_step (h : (agent cfg ctx).step s a = some (s', fs)) : AgentWay cfg ctx s a s' fs := by
  simp only [agent] at h
  cases a with
  | ingress b =>
    have hserved : (∀ i incident, b ≠ .schedule i incident) →
        (stepIngress cfg s.ingress b).map
          (fun r => ({ s with ingress := r.1 }, r.2.map AgentEvent.ingress)) = some (s', fs) →
        AgentWay cfg ctx s (.ingress b) s' fs := by
      intro hb h
      obtain ⟨⟨g', gs⟩, hg, he⟩ := Option.map_eq_some_iff.mp h
      obtain ⟨rfl, rfl⟩ := Prod.mk.inj he
      exact .served b g' gs rfl hg (not_scheduled hg hb)
    cases b with
    | schedule i incident => cases h
    | tick | arrive | body | fail | finish | admin => exact hserved (by simp) h
  | schedule i incident now =>
    simp only [stepAgent] at h
    split at h
    · rename_i d hnone hd
      obtain ⟨⟨g', gs⟩, hg, he⟩ := Option.map_eq_some_iff.mp h
      obtain ⟨rfl, rfl⟩ := Prod.mk.inj he
      have hstep : (ingress cfg).step s.ingress (.schedule i incident) = some (g', gs) := hg
      -- The incident is that of the request at `i`.
      obtain rfl : gs = [.scheduled d.r d.alert incident] := by
        simp only [stepIngress, hd] at hg
        split at hg
        · rename_i r alert hi
          obtain rfl := Option.some.inj hi
          exact (Prod.mk.inj (Option.some.inj hg)).2.symm
        · cases hg
      exact .scheduled _ g' d.r d.alert incident now hnone hstep
    · cases h
  | mint approval =>
    simp only [stepAgent] at h
    split at h
    · obtain ⟨rfl, rfl⟩ := Prod.mk.inj (Option.some.inj h)
      exact .unsigned
    · obtain ⟨rfl, rfl⟩ := Prod.mk.inj (Option.some.inj h)
      exact .signed _
  | sign body =>
    obtain ⟨rfl, rfl⟩ := Prod.mk.inj (Option.some.inj h)
    exact .signed body
  | approve incident payload signature found =>
    simp only [stepAgent] at h
    split at h
    · obtain ⟨rfl, rfl⟩ := Prod.mk.inj (Option.some.inj h)
      exact .refused incident _
    · rename_i approval happroved
      split at h
      · obtain ⟨rfl, rfl⟩ := Prod.mk.inj (Option.some.inj h)
        exact .refused incident _
      · rename_i inc hinc
        obtain ⟨inc', gs, hs, rfl, rfl⟩ := setIncident_map h
        obtain ⟨hsign, hread⟩ := approved_request happroved
        exact .approved incident inc inc' payload signature approval found gs rfl hsign hread hinc
          hs
  | incident incident b =>
    have hmoved : (∀ approval found, b ≠ .read approval found) →
        s.stepIncident ctx incident b = some (s', fs) →
        AgentWay cfg ctx s (.incident incident b) s' fs := by
      intro hb h
      unfold Agent.stepIncident at h
      split at h
      · cases h
      · rename_i inc hinc
        obtain ⟨inc', gs, hs, rfl, rfl⟩ := setIncident_map h
        exact .moved incident inc inc' b gs rfl hb hinc hs
    cases b with
    | read approval found => cases h
    | stream | decide | resume | fail => exact hmoved (by simp) h

/-- A step of an incident moves its thread, or logs no event of it. -/
theorem thread_step {inc inc' : Approvals} {b : ApprovalStep} {gs : List ApprovalEvent}
    (h : (approvals ctx).step inc b = some (inc', gs)) :
    (inc'.thread = inc.thread ∧ gs.filterMap ApprovalEvent.atThread = []) ∨
      ∃ label, inc.threadLabel b = some label ∧ (graph ctx).step inc.thread label =
        some (inc'.thread, gs.filterMap ApprovalEvent.atThread) := by
  have hgraph : ∀ (inc₀ : Approvals) r, (inc₀.afterGraph r).1.thread = r.1 ∧
      (inc₀.afterGraph r).2.filterMap ApprovalEvent.atThread = r.2 := by
    intro inc₀ r
    refine ⟨rfl, ?_⟩
    show (r.2.map ApprovalEvent.graph).filterMap _ = r.2
    rw [List.filterMap_map]
    exact List.filterMap_some
  simp only [approvals] at h
  cases b with
  | stream env =>
    right
    obtain ⟨r, hr, he⟩ := Option.map_eq_some_iff.mp h
    obtain ⟨hthread, hlog⟩ := hgraph inc r
    rw [he] at hthread hlog
    refine ⟨.run env, rfl, ?_⟩
    rw [hthread, hlog]
    exact hr
  | resume i env =>
    right
    simp only [stepApprovals] at h
    split at h
    · cases h
    · rename_i request hi
      obtain ⟨r, hr, he⟩ := Option.map_eq_some_iff.mp h
      obtain ⟨hthread, hlog⟩ := hgraph { inc with scheduled := inc.scheduled.eraseIdx i } r
      rw [he] at hthread hlog
      refine ⟨_, congrArg (Option.map _) hi, ?_⟩
      rw [hthread, hlog]
      exact hr
  | read request found =>
    left
    simp only [stepApprovals] at h
    split at h <;> cases h <;> exact ⟨rfl, rfl⟩
  | decide i =>
    left
    simp only [stepApprovals] at h
    split at h
    · cases h
    · split at h <;> cases h <;> exact ⟨rfl, rfl⟩
  | fail i =>
    left
    simp only [stepApprovals] at h
    split at h <;> cases h
    exact ⟨rfl, rfl⟩

end steps

/-! ## The incidents -/

section incidents

variable {cfg ctx} {s s' : Agent} {a : AgentStep} {es fs : List AgentEvent} {j : String}
  {inc inc' : Approvals} {n : Nat} {G : String → PyDict → Prop} {D : Thread → Label → Prop}

/-- Every proposal of a call in `G` is at tier 2 or more. -/
theorem proposed_tier {es : List Event} {t : Thread}
    (hr : (graph ctx).Run (GateKept ctx G) n es t) :
    ∀ p, .proposed p ∈ es → G p.toolName p.toolArgs → 2 ≤ p.riskTier := by
  refine hr.inv (I := fun es _ => ∀ p, .proposed p ∈ es → G p.toolName p.toolArgs →
    2 ≤ p.riskTier) (fun _ _ _ hp => by simp at hp) fun n es t a t' fs _ hi hc hs p hp hg => ?_
  rcases List.mem_append.mp hp with hp | hp
  · exact hi p hp hg
  · cases step_gate hs with
    | proposed env confidence category sel name q ha ht _ hconf hcat hsel hname hq =>
      obtain rfl : p = q := by simpa [llmEvent] using hp
      rw [hq] at hg ⊢
      exact hsel.declares (hc.declared env confidence category ha ht hconf hcat) hname hg
    | ended _ hquiet => exact absurd hp (hquiet.no_proposal p)
    | searched _ _ hquiet => exact absurd hp (hquiet.no_proposal p)
    | _ => simp at hp

/-- A call in `G` that is dispatched was shown at an interrupt, which was resumed with a value that
approves. -/
theorem dispatch_approved {es : List Event} {t : Thread}
    (hr : (graph ctx).Run (GateKept ctx G) n es t) {pre post : List Event} {name : String}
    {args : PyDict} {d : PolicyDecision}
    (he : es = pre ++ .executor (.dispatch name args d) :: post) (hg : G name args) :
    ∃ payload, payload.toolName = name ∧ payload.toolArgs = args ∧ GrantedFor pre payload := by
  obtain ⟨n₁, es₁, t₁, a, t₂, fs, fs₁, fs₂, hr₁, -, hs, hfs, rfl⟩ := hr.split he
  have hm : .executor (.dispatch name args d) ∈ fs := by simp [hfs]
  obtain ⟨p, ps, hn, hp, rfl, rfl⟩ := dispatch_step hs hm
  -- The action is the pending proposal, so its tier is declared, and it was approved.
  have hi := proposalInv_fresh (hr₁.mono fun _ _ h => h.fresh)
  obtain ⟨q, mid, hq⟩ := hi.executing (by rw [hn]; rfl)
  obtain ⟨b, hb, -⟩ := hq.proposed
  obtain ⟨rfl, -⟩ : { q with requiresApproval := b } = p ∧ [] = ps := by simpa [hb] using hp
  have htier := proposed_tier hr₁ q hq.pending.mem hg
  obtain ⟨payload, hname, hargs, hgranted⟩ := hq.approved trivial (by simp [hq.required, htier])
  exact ⟨payload, hname, hargs, (hq.pending.granted hgranted).append fs₁⟩

variable (cfg) in
/-- The decision was signed. -/
def SignedDecision (es : List AgentEvent) (approval : ApprovalRequest) : Prop :=
  ∃ body, .signed body ∈ es ∧ cfg.hook.validateJson body = .ok approval

theorem SignedDecision.append {approval : ApprovalRequest} (h : SignedDecision cfg es approval)
    (fs : List AgentEvent) : SignedDecision cfg (es ++ fs) approval := by
  obtain ⟨body, hm, hv⟩ := h
  exact ⟨body, List.mem_append_left fs hm, hv⟩

variable (cfg ctx D) in
/-- What the log says of an incident. -/
structure Followed (es : List AgentEvent) (j : String) (inc : Approvals) : Prop where
  run : ∃ n, (graph ctx).Run D n (es.filterMap (AgentEvent.atThread j)) inc.thread
  origin : ∃ r alert, .ingress (.scheduled r alert j) ∈ es ∧
    inc.thread.values.incidentMetadata = (alert.metadata j).modelDump
  readers : ∀ q ∈ inc.readers, SignedDecision cfg es q.request
  scheduled : ∀ request ∈ inc.scheduled, .incident j (.answered request true) ∈ es

/-- Other events change nothing. -/
theorem Followed.append (h : Followed cfg ctx D es j inc)
    (hf : fs.filterMap (AgentEvent.atThread j) = []) : Followed cfg ctx D (es ++ fs) j inc := by
  obtain ⟨⟨n, hrun⟩, ⟨r, alert, hm, hmeta⟩, hreaders, hscheduled⟩ := h
  refine ⟨⟨n, ?_⟩, ⟨r, alert, List.mem_append_left fs hm, hmeta⟩, fun q hq =>
    (hreaders q hq).append fs, fun request hq => List.mem_append_left fs (hscheduled request hq)⟩
  rwa [List.filterMap_append, hf, List.append_nil]

/-- A step of an incident keeps it followed. -/
theorem Followed.step (h : Followed cfg ctx D es j inc) {b : ApprovalStep}
    {gs : List ApprovalEvent} (hs : (approvals ctx).step inc b = some (inc', gs))
    (hgate : ∀ label, inc.threadLabel b = some label → D inc.thread label)
    (hread : ∀ approval found, b = .read approval found → SignedDecision cfg es approval) :
    Followed cfg ctx D (es ++ gs.map (.incident j)) j inc' := by
  constructor
  case run =>
    obtain ⟨n, hrun⟩ := h.run
    rw [List.filterMap_append, atThread_map, if_pos rfl]
    rcases thread_step hs with ⟨hthread, hlog⟩ | ⟨label, hlabel, hstep⟩
    · rw [hthread, hlog, List.append_nil]
      exact ⟨n, hrun⟩
    · exact ⟨n + 1, .step label hrun (hgate label hlabel) hstep⟩
  case origin =>
    obtain ⟨r, alert, hm, hmeta⟩ := h.origin
    refine ⟨r, alert, List.mem_append_left _ hm, ?_⟩
    rcases thread_step hs with ⟨hthread, -⟩ | ⟨label, -, hstep⟩
    · rw [hthread, hmeta]
    · obtain ⟨p, rest, -, -, -, hframe⟩ := step_frame hstep
      rw [hframe.metadata, hmeta]
  case readers =>
    intro q hq
    rcases mem_readers hs hq with hq | rfl
    · exact (h.readers q hq).append _
    · exact (hread _ _ rfl).append _
  case scheduled =>
    intro request hq
    cases approvals_step hs with
    | accepted ys zs r _ _ =>
      rcases List.mem_append.mp hq with hq | hq
      · exact List.mem_append_left _ (h.scheduled request hq)
      · obtain rfl := List.mem_singleton.mp hq
        simp
    | resumed ys zs other env t' gs' hsch _ | failed ys zs other hsch =>
      exact List.mem_append_left _ (h.scheduled request (Sys.mem_of_around hsch hq))
    | _ => exact List.mem_append_left _ (h.scheduled request hq)

variable (cfg ctx D) in
/-- The incidents of a log, and the bodies that it has signed. -/
structure Traced (es : List AgentEvent) (s : Agent) : Prop where
  signed : ∀ body ∈ s.signed, .signed body ∈ es
  followed : ∀ j inc, s.incidents j = some inc → Followed cfg ctx D es j inc
  absent : ∀ j, s.incidents j = none → (∀ e, .incident j e ∉ es) ∧
    ∀ r alert, .ingress (.scheduled r alert j) ∉ es

/-- A step that adds no incident and moves none. -/
theorem Traced.quiet (h : Traced cfg ctx D es s) (hincidents : s'.incidents = s.incidents)
    (hsigned : ∀ body ∈ s'.signed, body ∈ s.signed ∨ .signed body ∈ fs)
    (hfs : ∀ j e, .incident j e ∉ fs) (hnone : ∀ r alert j, .ingress (.scheduled r alert j) ∉ fs) :
    Traced cfg ctx D (es ++ fs) s' := by
  have hthread : ∀ j, fs.filterMap (AgentEvent.atThread j) = [] := by
    intro j
    refine List.eq_nil_iff_forall_not_mem.mpr fun e hm => ?_
    exact hfs j _ (mem_atThread.mp hm)
  refine ⟨fun body hb => ?_, fun j inc hinc => ?_, fun j hj => ?_⟩
  · rcases hsigned body hb with hb | hb
    · exact List.mem_append_left fs (h.signed body hb)
    · exact List.mem_append_right es hb
  · rw [hincidents] at hinc
    exact (h.followed j inc hinc).append (hthread j)
  · rw [hincidents] at hj
    obtain ⟨hevents, hsched⟩ := h.absent j hj
    exact ⟨fun e hm => (List.mem_append.mp hm).elim (hevents e) (hfs j e),
      fun r alert hm => (List.mem_append.mp hm).elim (hsched r alert) (hnone r alert j)⟩

/-- A step of one incident. -/
theorem Traced.move (h : Traced cfg ctx D es s) (hinc : s.incidents j = some inc)
    {b : ApprovalStep} {gs : List ApprovalEvent}
    (hs : (approvals ctx).step inc b = some (inc', gs))
    (hgate : ∀ label, inc.threadLabel b = some label → D inc.thread label)
    (hread : ∀ approval found, b = .read approval found → SignedDecision cfg es approval) :
    Traced cfg ctx D (es ++ gs.map (.incident j))
      { s with incidents := Function.update s.incidents j (some inc') } := by
  refine ⟨fun body hb => List.mem_append_left _ (h.signed body hb), fun k other hk => ?_,
    fun k hk => ?_⟩
  · by_cases hkj : k = j
    · subst hkj
      obtain rfl : inc' = other := by simpa using hk
      exact (h.followed k inc hinc).step hs hgate hread
    · have hk : s.incidents k = some other := by simpa [Function.update_of_ne hkj] using hk
      refine (h.followed k other hk).append ?_
      rw [atThread_map, if_neg (Ne.symm hkj)]
  · have hkj : k ≠ j := by
      rintro rfl
      simp at hk
    have hk : s.incidents k = none := by simpa [Function.update_of_ne hkj] using hk
    obtain ⟨hevents, hsched⟩ := h.absent k hk
    refine ⟨fun e hm => ?_, fun r alert hm => ?_⟩
    · rcases List.mem_append.mp hm with hm | hm
      · exact hevents e hm
      · obtain ⟨g, -, he⟩ := List.mem_map.mp hm
        exact hkj (AgentEvent.incident.inj he).1.symm
    · rcases List.mem_append.mp hm with hm | hm
      · exact hsched r alert hm
      · simp at hm

theorem prepared_run (metadata : IncidentMetadata) (now : PyFloat) :
    (graph ctx).Run D 0 [] (scheduledIncident metadata now).thread :=
  .init ⟨metadata, 3, now, rfl, rfl⟩

theorem traced_step (h : Traced cfg ctx D es s) (hc : Governed cfg D s a)
    (hw : AgentWay cfg ctx s a s' fs) : Traced cfg ctx D (es ++ fs) s' := by
  cases hw with
  | served b g' gs ha hs hnone =>
    refine h.quiet rfl (fun _ => .inl) (by simp) fun r alert j hm => ?_
    obtain ⟨e, he, heq⟩ := List.mem_map.mp hm
    obtain rfl := AgentEvent.ingress.inj heq
    exact hnone r alert j he
  | signed body =>
    refine h.quiet rfl (fun body' hb => ?_) (by simp) (by simp)
    rcases List.mem_append.mp hb with hb | hb
    · exact .inl hb
    · exact .inr (by rw [List.mem_singleton.mp hb]; exact List.mem_singleton_self _)
  | unsigned => exact h.quiet rfl (fun _ => .inl) (by simp) (by simp)
  | refused incident error => exact h.quiet rfl (fun _ => .inl) (by simp) (by simp)
  | approved incident inc inc' payload signature approval found gs ha hsign hread hinc hs =>
    refine h.move hinc hs (fun label hl => by cases hl) fun approval' found' he => ?_
    obtain ⟨rfl, -⟩ := ApprovalStep.read.inj he
    exact ⟨payload, h.signed payload (hc.approvals incident payload signature found ha hsign),
      hread⟩
  | moved incident inc inc' b gs ha hb hinc hs =>
    exact h.move hinc hs (fun label hl => hc.threads incident b inc label ha hinc hl)
      fun approval found he => absurd he (hb approval found)
  | scheduled b g' r alert incident now hnone hs =>
    obtain ⟨hevents, hsched⟩ := h.absent incident hnone
    refine ⟨fun body hb => List.mem_append_left _ (h.signed body hb), fun k other hk => ?_,
      fun k hk => ?_⟩
    · by_cases hkj : k = incident
      · subst hkj
        obtain rfl : scheduledIncident (alert.metadata k) now = other := by simpa using hk
        have hlog : (es ++ [AgentEvent.ingress (.scheduled r alert k)]).filterMap
            (AgentEvent.atThread k) = [] := by
          refine List.eq_nil_iff_forall_not_mem.mpr fun e hm => ?_
          rcases List.mem_append.mp (mem_atThread.mp hm) with hm | hm
          · exact hevents _ hm
          · cases List.mem_singleton.mp hm
        refine ⟨⟨0, ?_⟩, ⟨r, alert, by simp, rfl⟩, by simp [scheduledIncident],
          by simp [scheduledIncident]⟩
        rw [hlog]
        exact prepared_run _ now
      · have hk : s.incidents k = some other := by simpa [Function.update_of_ne hkj] using hk
        exact (h.followed k other hk).append rfl
    · have hkj : k ≠ incident := by
        rintro rfl
        simp at hk
      have hk : s.incidents k = none := by simpa [Function.update_of_ne hkj] using hk
      obtain ⟨hevents, hsched⟩ := h.absent k hk
      refine ⟨fun e hm => ?_, fun r' alert' hm => ?_⟩
      · simp only [List.mem_append, List.mem_singleton, reduceCtorEq, or_false] at hm
        exact hevents e hm
      · rcases List.mem_append.mp hm with hm | hm
        · exact hsched r' alert' hm
        · have heq := AgentEvent.ingress.inj (List.mem_singleton.mp hm)
          exact hkj (IngressEvent.scheduled.inj heq).2.2

theorem traced (hr : (agent cfg ctx).Run (Governed cfg D) n es s) :
    Traced cfg ctx D es s := by
  refine hr.inv (I := Traced cfg ctx D) (fun s hi => ?_) fun _ _ _ _ _ _ _ h hc hs =>
    traced_step h hc (agent_step hs)
  refine ⟨by simp [hi.signed], fun j inc hinc => ?_, by simp⟩
  rw [hi.incidents] at hinc
  cases hinc

end incidents

/-! ### The sample incident -/

/-- The alert of an incident, its proposal of a `flush_all`, a decision, and the execution. -/
def flushSteps : List AgentStep :=
  [.sign (utf8 latencyBody), .ingress (.arrive latencyRequest),
    .ingress (.body 0 (some (utf8 latencyBody)) none), .schedule 0 "inc-1" (.finite 1),
    .ingress (.finish 0)] ++ untilInterrupt.map (.incident "inc-1") ++
    [.mint sampleApproval, .approve "inc-1" (utf8 sampleApproval.body)
      sampleSignature true,
      .incident "inc-1" (.decide 0), .incident "inc-1" (.resume 0 (sampleEnv .null)),
      .incident "inc-1" (.stream (sampleEnv (sampleAnswer "flush_all" 2)))]

/-- The steps of the sample incident itself. -/
def FlushStep (a : AgentStep) : Prop :=
  ∀ incident b, a = .incident incident b →
    b = .stream (sampleEnv (sampleAnswer "flush_all" 2)) ∨ b = .decide 0 ∨
      b = .resume 0 (sampleEnv .null)

theorem flushSteps_steps {a : AgentStep} (h : a ∈ flushSteps) : FlushStep a := by
  rintro incident b rfl
  simp only [flushSteps, untilInterrupt, List.map_replicate, List.mem_append, List.mem_cons,
    List.mem_replicate, reduceCtorEq, List.not_mem_nil, AgentStep.incident.injEq, false_or,
    or_false] at h
  grind

/-- The bodies are signed, and no grant is there yet when a proposal is made or approved. -/
def checkAgent (s : Agent) : AgentStep → Bool
  | .approve _ payload _ _ | .ingress (.body _ (some payload) _) => s.signed.contains payload
  | .incident j _ => (s.incidents j).all fun inc =>
    match inc.thread.next with
    | .node .approve | .node .propose | .paused =>
      inc.thread.values.approvalGranted != some true
    | _ => true
  | _ => true

/-- The calls of `flush_all`. -/
def IsFlush (name : String) (_ : PyDict) : Prop := name = "flush_all"

theorem governed_of_checkAgent {s : Agent} {a : AgentStep} (hstep : FlushStep a)
    (h : checkAgent s a = true) :
    Governed sampleEndpoint (GateKept flushContext IsFlush) s a := by
  constructor
  case approvals =>
    rintro incident payload signature found rfl -
    simpa [checkAgent] using h
  case alerts =>
    rintro b r request payload rfl ⟨i, file, rfl, -⟩ -
    simpa [checkAgent] using h
  case threads =>
    rintro incident b inc label rfl hinc hlabel
    have hungranted : ∀ p, Enters inc.thread p → p = .approve ∨ p = .propose →
        inc.thread.values.approvalGranted ≠ some true := by
      intro p hn hp
      simp only [checkAgent, hinc, Option.all_some] at h
      rcases hn with hn | ⟨hn, rfl⟩
      · rcases hp with rfl | rfl <;> simpa [hn] using h
      · simpa [hn] using h
    have hlabels : label = .run (sampleEnv (sampleAnswer "flush_all" 2)) ∨
        ∃ decision env metrics, label = .resume decision env metrics := by
      rcases hstep incident b rfl with rfl | rfl | rfl
      · exact .inl (Option.some.inj hlabel).symm
      · cases hlabel
      · obtain ⟨request, -, rfl⟩ := Option.map_eq_some_iff.mp hlabel
        exact .inr ⟨_, _, _, rfl⟩
    have hdeclared : TiersDeclared flushContext IsFlush inc.thread label :=
      sampleAnswer_declared rfl (fun name args hname => ⟨flushAllTool, by rw [hname]; rfl⟩) hlabels
    refine ⟨fun env confidence category ha hn hconf hcat => ?_,
      fun hn => hungranted _ hn (.inl rfl)⟩
    exact hdeclared env confidence category ha hn (hungranted _ (.inl hn) (.inr rfl)) hconf hcat

/-- A process after its start. -/
def newAgent : Agent := ⟨newIngress, [], fun _ => none⟩

theorem newAgent_new : (agent sampleEndpoint flushContext).init newAgent :=
  ⟨newIngress_new, rfl, fun _ => rfl⟩

/-- The log dispatches a `flush_all` of the incident at a position. -/
def flushesAt (k : Nat) (es : List AgentEvent) : Bool :=
  match es[k]? with
  | some (.incident "inc-1" (.graph (.executor (.dispatch "flush_all" _ _)))) => true
  | _ => false

theorem split_of_flushesAt {k : Nat} {es : List AgentEvent} (h : flushesAt k es = true) :
    ∃ args d, es = es.take k ++
      .incident "inc-1" (.graph (.executor (.dispatch "flush_all" args d))) ::
        es.drop (k + 1) := by
  unfold flushesAt at h
  split at h
  · rename_i args d hk
    exact ⟨args, d, Sys.split_of_getElem? hk⟩
  · cases h

theorem flushSteps_exec : (((agent sampleEndpoint flushContext).restrict checkAgent).exec newAgent
    flushSteps).any (fun r => flushesAt 23 r.2 && (r.1.incidents "inc-1").isSome) = true := by
  decide +kernel

theorem exists_flushSteps : ∃ n es s inc, (agent sampleEndpoint flushContext).Run
    (Governed sampleEndpoint (GateKept flushContext IsFlush)) n es s ∧ flushesAt 23 es = true ∧
    s.incidents "inc-1" = some inc := by
  obtain ⟨s, es, hr, hc⟩ := Sys.exists_run_of_exec
    (S := (agent sampleEndpoint flushContext).restrict checkAgent) (C := fun _ a => FlushStep a)
    newAgent_new (fun _ _ => flushSteps_steps) flushSteps_exec
  obtain ⟨hflush, hsome⟩ := Bool.and_eq_true_iff.mp hc
  obtain ⟨inc, hinc⟩ := Option.isSome_iff_exists.mp hsome
  exact ⟨_, es, s, inc, (Sys.restrict_run hr).mono fun s a h => governed_of_checkAgent h.1 h.2,
    hflush, hinc⟩

/-! ## The guarantees of the agent -/

section guarantees

variable {cfg ctx} {s s' : Agent} {a : AgentStep} {es fs : List AgentEvent} {j : String}
  {inc : Approvals} {n : Nat} {G : String → PyDict → Prop} {D : Thread → Label → Prop}
  {C : Agent → AgentStep → Prop}

variable (cfg ctx) in
/-- The agent refines its endpoint. -/
theorem agent_ingress :
    Refines (agent cfg ctx) C (ingress cfg) Sys.anyStep Agent.ingress AgentEvent.atIngress := by
  refine ⟨fun s hi => hi.ingress, fun s a s' fs _ hs => ?_⟩
  have hall : ∀ gs : List IngressEvent,
      (gs.map AgentEvent.ingress).filterMap AgentEvent.atIngress = gs := fun gs => by
    rw [List.filterMap_map]
    exact List.filterMap_some
  have hnone : ∀ (k : String) (gs : List ApprovalEvent),
      (gs.map (AgentEvent.incident k)).filterMap AgentEvent.atIngress = [] := fun k gs => by
    rw [List.filterMap_map, List.filterMap_eq_nil_iff]
    exact fun _ _ => rfl
  cases agent_step hs with
  | served b g' gs _ hg _ => exact .inr ⟨b, trivial, by rw [hall]; exact hg⟩
  | scheduled b g' r alert incident now _ hg => exact .inr ⟨b, trivial, hg⟩
  | signed | unsigned | refused => exact .inl ⟨rfl, rfl⟩
  | approved incident _ _ _ _ _ _ gs | moved incident _ _ _ gs =>
    exact .inl ⟨rfl, hnone incident gs⟩

variable (cfg) in
/-- The alert was signed, or is one of the dataset. -/
inductive Sourced (dataset : Option DatasetIndex) (es : List AgentEvent) (alert : AlertPayload) :
    Prop
  | signed (payload : Bytes) : .signed payload ∈ es → cfg.validateJson payload = .ok alert →
      Sourced dataset es alert
  | openobserve (index : DatasetIndex) (inc : PyDict) : dataset = some index →
      index.get? alert.alertName = some inc → Enriched inc alert → Sourced dataset es alert

theorem Sourced.later {dataset dataset' : Option DatasetIndex} {alert : AlertPayload}
    (h : Sourced cfg dataset es alert)
    (hd : ∀ index, dataset = some index → dataset' = some index) (fs : List AgentEvent) :
    Sourced cfg dataset' (es ++ fs) alert := by
  cases h with
  | signed payload hm hv => exact .signed payload (List.mem_append_left fs hm) hv
  | openobserve index entry hi he henriched =>
    exact .openobserve index entry (hd index hi) he henriched

/-- The dataset that is loaded stays. -/
theorem agent_dataset (hw : AgentWay cfg ctx s a s' fs) (index : DatasetIndex)
    (hi : s.ingress.dataset = some index) : s'.ingress.dataset = some index := by
  cases hw with
  | served b g' gs _ hs | scheduled b g' _ _ _ _ _ hs =>
    exact dataset_step (ingress_step hs) index hi
  | _ => exact hi

/-- An alert that is read was signed before, or is one of the dataset. -/
theorem read_sourced (hr : (agent cfg ctx).Run (Governed cfg D) n es s) :
    ∀ r payload alert, .ingress (.read r payload alert) ∈ es →
      Sourced cfg s.ingress.dataset es alert := by
  refine hr.inv (I := fun es s => ∀ r payload alert, .ingress (.read r payload alert) ∈ es →
    Sourced cfg s.ingress.dataset es alert) (fun _ _ _ _ _ hm => by cases hm) ?_
  intro n es s a s' fs hr ih hc hs r payload alert hm
  have hd := agent_dataset (agent_step hs)
  rcases List.mem_append.mp hm with hm | hm
  · exact (ih r payload alert hm).later hd fs
  · have hauth : ∀ dataset request, Authentic cfg dataset request payload alert →
        dataset = s'.ingress.dataset → (cfg.hook.sign payload = .ok request.signature →
          payload ∈ s.signed) → Sourced cfg s'.ingress.dataset (es ++ fs) alert := by
      rintro dataset request hauth rfl hmac
      cases hauth with
      | signed _ hsign hv =>
        exact .signed payload (List.mem_append_left fs ((traced hr).signed payload (hmac hsign))) hv
      | openobserve index entry _ hindex hentry henriched =>
        exact .openobserve index entry hindex hentry henriched
    cases agent_step hs with
    | served b g' gs ha hg _ =>
      obtain ⟨e, he, heq⟩ := List.mem_map.mp hm
      obtain rfl := AgentEvent.ingress.inj heq
      cases ingress_step hg with
      | hit ys zs r' request payload' alert' dataset incidentId seenAt hb _ _ hx =>
        obtain ⟨rfl, rfl, rfl⟩ : r = r' ∧ payload = payload' ∧ alert = alert' := by simpa using he
        exact hauth _ request hx rfl (hc.alerts b r request payload ha hb)
      | missed ys zs r' request payload' alert' dataset entries hb _ _ hx =>
        obtain ⟨rfl, rfl, rfl⟩ : r = r' ∧ payload = payload' ∧ alert = alert' := by simpa using he
        exact hauth _ request hx rfl (hc.alerts b r request payload ha hb)
      | refused request allowed => cases allowed <;> simp at he
      | _ => simp at he
    | _ => simp at hm

/-- The incidents that are scheduled, with their requests and alerts. -/
def AgentEvent.scheduled? : AgentEvent → Option (String × Nat × AlertPayload)
  | .ingress (.scheduled r alert j) => some (j, r, alert)
  | _ => none

theorem mem_scheduled {r : Nat} {alert : AlertPayload} :
    (j, r, alert) ∈ es.filterMap AgentEvent.scheduled? ↔ .ingress (.scheduled r alert j) ∈ es := by
  rw [List.mem_filterMap]
  constructor
  · rintro ⟨e, hm, he⟩
    unfold AgentEvent.scheduled? at he
    split at he
    · obtain ⟨rfl, rfl, rfl⟩ : _ = j ∧ _ = r ∧ _ = alert := by simpa using he
      exact hm
    · cases he
  · intro hm
    exact ⟨_, hm, rfl⟩

/-- An incident is scheduled once. -/
theorem scheduled_nodup (hr : (agent cfg ctx).Run (Governed cfg D) n es s) :
    ((es.filterMap AgentEvent.scheduled?).map Prod.fst).Nodup := by
  refine hr.inv (I := fun es _ => ((es.filterMap AgentEvent.scheduled?).map Prod.fst).Nodup)
    (fun _ _ => List.nodup_nil) fun n es s a s' fs hr ih _ hs => ?_
  have hquiet : fs.filterMap AgentEvent.scheduled? = [] →
      (((es ++ fs).filterMap AgentEvent.scheduled?).map Prod.fst).Nodup := by
    intro hf
    rwa [List.filterMap_append, hf, List.append_nil]
  cases agent_step hs with
  | served b g' gs _ _ hnone =>
    refine hquiet (List.eq_nil_iff_forall_not_mem.mpr ?_)
    rintro ⟨j, r, alert⟩ hm
    obtain ⟨e, he, heq⟩ := List.mem_map.mp (mem_scheduled.mp hm)
    obtain rfl := AgentEvent.ingress.inj heq
    exact hnone r alert j he
  | scheduled b g' r alert incident now hnone _ =>
    rw [List.filterMap_append, List.map_append]
    refine List.nodup_append.mpr ⟨ih, List.nodup_singleton _, fun k hk k' hk' => ?_⟩
    obtain ⟨⟨j, r', alert'⟩, hm, rfl⟩ := List.mem_map.mp hk
    obtain rfl := List.mem_singleton.mp hk'
    rintro rfl
    exact ((traced hr).absent _ hnone).2 r' alert' (mem_scheduled.mp hm)
  | signed | unsigned | refused => exact hquiet rfl
  | approved incident _ _ _ _ _ _ gs | moved incident _ _ _ gs =>
    refine hquiet (List.eq_nil_iff_forall_not_mem.mpr ?_)
    rintro ⟨j, r, alert⟩ hm
    have := mem_scheduled.mp hm
    simp at this

/-- The alert of an incident was signed before, or is one of the dataset. -/
theorem scheduled_sourced (hr : (agent cfg ctx).Run (Governed cfg D) n es s) :
    ∀ pre r alert post, es = pre ++ .ingress (.scheduled r alert j) :: post →
      Sourced cfg s.ingress.dataset pre alert := by
  refine hr.inv (I := fun es s => ∀ pre r alert post,
    es = pre ++ .ingress (.scheduled r alert j) :: post → Sourced cfg s.ingress.dataset pre alert)
    (fun _ _ pre r alert post he => by simp at he) ?_
  intro n es s a s' fs hr ih _ hs pre r alert post he
  have hd := agent_dataset (agent_step hs)
  rcases Sys.split_append he with ⟨post', he, -⟩ | ⟨fs₁, hfs, rfl⟩
  · simpa using (ih pre r alert post' he).later hd []
  · have hm : .ingress (.scheduled r alert j) ∈ fs := by simp [hfs]
    cases agent_step hs with
    | served b g' gs _ _ hnone =>
      obtain ⟨e, he, heq⟩ := List.mem_map.mp hm
      obtain rfl := AgentEvent.ingress.inj heq
      exact absurd he (hnone r alert j)
    | scheduled b g' r' alert' incident now _ hg =>
      obtain ⟨rfl, rfl, rfl⟩ : r = r' ∧ alert = alert' ∧ j = incident := by simpa using hm
      obtain ⟨m, hm⟩ := (agent_ingress cfg ctx).run hr
      generalize hgs : [IngressEvent.scheduled r alert j] = gs at hg
      cases ingress_step hg with
      | scheduled ys zs r' alert' _ _ _ _ hp =>
        -- The request read its alert before.
        obtain ⟨rfl, rfl, -⟩ : r = r' ∧ alert = alert' ∧ _ := by simpa using hgs
        obtain ⟨request, payload, -, hread, -⟩ :=
          (flown hm).pending ⟨r, alert, none⟩ (by simp [hp])
        exact (read_sourced hr r payload alert (mem_atIngress.mp hread)).later hd fs₁
      | refused request allowed => cases allowed <;> simp at hgs
      | _ => simp at hgs
    | _ => simp at hm

/-- Where an incident comes from. -/
structure IncidentOf (cfg : Endpoint) (es : List AgentEvent) (s : Agent) (j : String)
    (inc : Approvals) (r : Nat) (alert : AlertPayload) : Prop where
  scheduled : ∃ pre post, es = pre ++ .ingress (.scheduled r alert j) :: post ∧
    (∀ e, .incident j e ∉ pre) ∧ Sourced cfg s.ingress.dataset pre alert
  only : ∀ r' alert', .ingress (.scheduled r' alert' j) ∈ es → r' = r ∧ alert' = alert
  metadata : inc.thread.values.incidentMetadata = (alert.metadata j).modelDump

/-- Every incident is in all its states that of one alert, which was signed before or is one of the
dataset. -/
theorem incident_of_alert (hr : (agent cfg ctx).Run (Governed cfg D) n es s)
    (hj : s.incidents j = some inc) : ∃ r alert, IncidentOf cfg es s j inc r alert := by
  obtain ⟨r, alert, hm, hmeta⟩ := ((traced hr).followed j inc hj).origin
  obtain ⟨pre, post, rfl⟩ := List.append_of_mem hm
  refine ⟨r, alert, ⟨pre, post, rfl, fun e he => ?_, scheduled_sourced hr pre r alert post rfl⟩,
    fun r' alert' hm' => ?_, hmeta⟩
  · obtain ⟨n₁, es₁, s₁, a, s₂, fs, fs₁, fs₂, hr₁, -, hs, hfs, rfl⟩ := hr.split rfl
    have hsched : .ingress (.scheduled r alert j) ∈ fs := by simp [hfs]
    cases agent_step hs with
    | served b g' gs _ _ hnone =>
      obtain ⟨e, he, heq⟩ := List.mem_map.mp hsched
      obtain rfl := AgentEvent.ingress.inj heq
      exact hnone r alert j he
    | scheduled b g' r' alert' incident now hnone _ =>
      obtain ⟨-, -, rfl⟩ : r = r' ∧ alert = alert' ∧ j = incident := by simpa using hsched
      obtain ⟨rfl, -⟩ : fs₁ = [] ∧ _ := by simpa [List.singleton_eq_append_iff] using hfs
      rw [List.append_nil] at he
      exact ((traced hr₁).absent j hnone).1 e he
    | _ => simp at hsched
  · have heq := List.inj_on_of_nodup_map (scheduled_nodup hr) (mem_scheduled.mpr hm')
      (mem_scheduled.mpr hm) rfl
    exact Prod.mk.inj (Prod.mk.inj heq).2

theorem incident_of_alert_flushAll : ∃ n es s inc r alert, (agent sampleEndpoint flushContext).Run
    (Governed sampleEndpoint (GateKept flushContext IsFlush)) n es s ∧
    s.incidents "inc-1" = some inc ∧ IncidentOf sampleEndpoint es s "inc-1" inc r alert := by
  obtain ⟨n, es, s, inc, hr, -, hinc⟩ := exists_flushSteps
  obtain ⟨r, alert, h⟩ := incident_of_alert hr hinc
  exact ⟨n, es, s, inc, r, alert, hr, hinc, h⟩

/-- An accepted decision was signed before. -/
theorem answered_signed (hr : (agent cfg ctx).Run (Governed cfg D) n es s)
    {approval : ApprovalRequest} {pre post : List AgentEvent}
    (he : es = pre ++ .incident j (.answered approval true) :: post) :
    SignedDecision cfg pre approval := by
  obtain ⟨n₁, es₁, s₁, a, s₂, fs, fs₁, fs₂, hr₁, -, hs, hfs, rfl⟩ := hr.split he
  have hm : .incident j (.answered approval true) ∈ fs := by simp [hfs]
  have ht := traced hr₁
  have hreader : ∀ incident (inc inc' : Approvals) (b : ApprovalStep) gs,
      s₁.incidents incident = some inc → (approvals ctx).step inc b = some (inc', gs) →
      .answered approval true ∈ gs → SignedDecision cfg (es₁ ++ fs₁) approval := by
    intro incident inc inc' b gs hinc hstep hg
    obtain ⟨q, hq, rfl⟩ := accepted_reader hstep hg
    exact ((ht.followed incident inc hinc).readers q hq).append fs₁
  cases agent_step hs with
  | approved incident inc inc' payload signature approval' found gs _ _ _ hinc hstep
  | moved incident inc inc' b gs _ _ hinc hstep =>
    obtain ⟨g, hg, heq⟩ := List.mem_map.mp hm
    obtain ⟨-, rfl⟩ := AgentEvent.incident.inj heq
    exact hreader incident inc inc' _ gs hinc hstep hg
  | served | signed | unsigned | refused | scheduled => simp at hm

/-- A thread is resumed with a decision that was accepted before. -/
theorem resumed_answered (hr : (agent cfg ctx).Run (Governed cfg D) n es s) {decision : Json}
    {pre post : List AgentEvent}
    (he : es = pre ++ .incident j (.graph (.resumed decision)) :: post) :
    ∃ approval : ApprovalRequest, decision = approval.resumeValue ∧
      .incident j (.answered approval true) ∈ pre := by
  obtain ⟨n₁, es₁, s₁, a, s₂, fs, fs₁, fs₂, hr₁, -, hs, hfs, rfl⟩ := hr.split he
  have hm : .incident j (.graph (.resumed decision)) ∈ fs := by simp [hfs]
  have ht := traced hr₁
  have hresumed : ∀ (inc inc' : Approvals) (b : ApprovalStep) gs,
      s₁.incidents j = some inc → (approvals ctx).step inc b = some (inc', gs) →
      .graph (.resumed decision) ∈ gs → ∃ approval : ApprovalRequest,
        decision = approval.resumeValue ∧ .incident j (.answered approval true) ∈ es₁ ++ fs₁ := by
    intro inc inc' b gs hinc hstep hg
    cases approvals_step hstep with
    | streamed env t' gs' hthread =>
      obtain ⟨e, he, heq⟩ := List.mem_map.mp hg
      obtain rfl := ApprovalEvent.graph.inj heq
      exact absurd he (stream_not_resumed hthread decision)
    | resumed ys zs request env t' gs' hsch hthread =>
      obtain ⟨e, he, heq⟩ := List.mem_map.mp hg
      obtain rfl := ApprovalEvent.graph.inj heq
      obtain rfl := (resume_log hthread).2.2 decision he
      have hmem := (ht.followed j inc hinc).scheduled request (by simp [hsch])
      exact ⟨request, rfl, List.mem_append_left fs₁ hmem⟩
    | _ => simp at hg
  cases agent_step hs with
  | approved incident inc inc' payload signature approval' found gs _ _ _ hinc hstep
  | moved incident inc inc' b gs _ _ hinc hstep =>
    obtain ⟨g, hg, heq⟩ := List.mem_map.mp hm
    obtain ⟨rfl, rfl⟩ := AgentEvent.incident.inj heq
    exact hresumed inc inc' _ gs hinc hstep hg
  | served | signed | unsigned | refused | scheduled => simp at hm

/-- An incident logs nothing before it is scheduled. -/
theorem event_scheduled (hr : (agent cfg ctx).Run (Governed cfg D) n es s)
    {pre post : List AgentEvent} {e : ApprovalEvent} (he : es = pre ++ .incident j e :: post) :
    ∃ r alert, .ingress (.scheduled r alert j) ∈ pre := by
  obtain ⟨n₁, es₁, s₁, a, s₂, fs, fs₁, fs₂, hr₁, -, hs, hfs, rfl⟩ := hr.split he
  have hm : .incident j e ∈ fs := by simp [hfs]
  cases agent_step hs with
  | approved incident inc inc' payload signature approval found gs _ _ _ hinc
  | moved incident inc inc' b gs _ _ hinc =>
    obtain ⟨g, -, heq⟩ := List.mem_map.mp hm
    obtain ⟨rfl, -⟩ := AgentEvent.incident.inj heq
    obtain ⟨r, alert, hsched, -⟩ := ((traced hr₁).followed incident inc hinc).origin
    exact ⟨r, alert, List.mem_append_left fs₁ hsched⟩
  | served | signed | unsigned | refused | scheduled => simp at hm

/-- What a dispatched action rests on. -/
structure Authorized (cfg : Endpoint) (G : String → PyDict → Prop) (dataset : Option DatasetIndex)
    (pre : List AgentEvent) (j name : String) (args : PyDict) : Prop where
  /-- Its incident is that of an alert. -/
  alert : ∃ r alert, .ingress (.scheduled r alert j) ∈ pre ∧ Sourced cfg dataset pre alert
  /-- An interrupt has shown the call, and a decision that was signed has approved it. -/
  approval : G name args → ∃ payload approval, payload.toolName = name ∧ payload.toolArgs = args ∧
    .incident j (.graph (.interrupt payload)) ∈ pre ∧ approval.approved = true ∧
    .incident j (.graph (.resumed approval.resumeValue)) ∈ pre ∧
    .incident j (.answered approval true) ∈ pre ∧ SignedDecision cfg pre approval

/-- Every action follows the alert of its incident, and an action in `G` also an interrupt that
shows it and a signed decision that approves. -/
theorem dispatch_authorized (hr : (agent cfg ctx).Run (Governed cfg (GateKept ctx G)) n es s)
    {pre post : List AgentEvent} {name : String} {args : PyDict} {d : PolicyDecision}
    (he : es = pre ++ .incident j (.graph (.executor (.dispatch name args d))) :: post) :
    Authorized cfg G s.ingress.dataset pre j name args := by
  have hdispatch : .incident j (.graph (.executor (.dispatch name args d))) ∈ es := by simp [he]
  obtain ⟨inc, hinc⟩ : ∃ inc, s.incidents j = some inc := by
    cases hj : s.incidents j with
    | none => exact absurd hdispatch (((traced hr).absent j hj).1 _)
    | some inc => exact ⟨inc, rfl⟩
  have hfollowed := (traced hr).followed j inc hinc
  constructor
  case alert =>
    obtain ⟨r, alert, hm⟩ := event_scheduled hr he
    obtain ⟨pre₁, post₁, rfl⟩ := List.append_of_mem hm
    have hsourced := scheduled_sourced hr pre₁ r alert _ (by rw [he, List.append_assoc]; rfl)
    exact ⟨r, alert, hm, hsourced.later (fun _ => id) _⟩
  case approval =>
    intro hg
    obtain ⟨m, hrun⟩ := hfollowed.run
    have hlog : es.filterMap (AgentEvent.atThread j) = pre.filterMap (AgentEvent.atThread j) ++
        .executor (.dispatch name args d) :: post.filterMap (AgentEvent.atThread j) := by
      rw [he, List.filterMap_append, List.filterMap_cons_some]
      exact if_pos rfl
    obtain ⟨payload, hname, hargs, hgranted⟩ := dispatch_approved hrun hlog hg
    obtain ⟨l, decision, l', hgr, happroves⟩ := hgranted
    have hresumed : .incident j (.graph (.resumed decision)) ∈ pre :=
      mem_atThread.mp (by rw [hgr]; simp)
    have hshown : .incident j (.graph (.interrupt payload)) ∈ pre :=
      mem_atThread.mp (by rw [hgr]; simp)
    obtain ⟨pre₁, post₁, hpre⟩ := List.append_of_mem hresumed
    obtain ⟨approval, rfl, hanswered⟩ :=
      resumed_answered hr (by rw [he, hpre, List.append_assoc]; rfl)
    obtain ⟨pre₂, post₂, rfl⟩ := List.append_of_mem hanswered
    have hsigned := answered_signed hr (by
      rw [he, hpre, List.append_assoc, List.append_assoc]; rfl)
    refine ⟨payload, approval, hname, hargs, hshown, ?_, hresumed, ?_, ?_⟩
    · simpa [approves, ApprovalRequest.resumeValue, PyDict.getD, PyDict.get?, Json.truthy]
        using happroves
    · rw [hpre]
      exact List.mem_append_left _ hanswered
    · rw [hpre, List.append_assoc]
      exact hsigned.append _

theorem dispatch_authorized_flushAll : ∃ n es s pre post args d,
    (agent sampleEndpoint flushContext).Run
      (Governed sampleEndpoint (GateKept flushContext IsFlush)) n es s ∧
    es = pre ++ .incident "inc-1" (.graph (.executor (.dispatch "flush_all" args d))) :: post ∧
    IsFlush "flush_all" args ∧
    Authorized sampleEndpoint IsFlush s.ingress.dataset pre "inc-1" "flush_all" args := by
  obtain ⟨n, es, s, inc, hr, hflush, -⟩ := exists_flushSteps
  obtain ⟨args, d, hes⟩ := split_of_flushesAt hflush
  exact ⟨n, es, s, _, _, args, d, hr, hes, rfl, dispatch_authorized hr hes⟩

end guarantees

end Api
end AutoSRE

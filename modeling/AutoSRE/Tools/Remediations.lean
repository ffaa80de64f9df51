import AutoSRE.Lib.History
import AutoSRE.Tools.Registry
import Mathlib.Algebra.BigOperators.Group.List.Lemmas
import Mathlib.Data.List.Dedup

/-!
# The remediations (`tools/valkey.py`, `tools/k8s.py`)

The tools that change Valkey and the deployments, while other clients change them too.

- **The services** (`World`). A call is executed or not, and its answer arrives or not; a call whose
  answer does not arrive may be made again.
- **The tools** (`deleteValkeyKey`, `flushAll`, `scaleDeployment`, `restartDeployment`) are programs
  of such calls, which end with the report to the agent.
- **Reports** (`reports_honest`). What a report says was so at the time of one of the tool's calls,
  and a verification that fails is the work of another client.
- **Effects** (`tools_confined`). A tool touches its own target only.
-/

namespace AutoSRE
namespace Tools
namespace Remediations

open Py Lib

/-! ## Valkey's answers -/

/-- `_as_text`. -/
def asText (default : String) : Json → String
  | .null => default
  | v => v.toStr

/-- `_as_int`. An integer of the server has 64 bits, so that it is its own text's value. -/
def asInt (default : Int) : Json → Int
  | .int i => i
  | v => (intOfText (asText "" v)).getD default

/-- `re.search(r"(?:^|,)keys=(\d+)(?:,|$)", text)`, on what stands between two commas. -/
def keysField (field : List Char) : Option Int :=
  match field with
  | 'k' :: 'e' :: 'y' :: 's' :: '=' :: digits =>
    -- `$` also stands before a line break at the end.
    let digits := if digits.getLast? = some '\n' then digits.dropLast else digits
    if digits.isEmpty ∨ digits.any fun c => (decimalValue c).isNone then none
    else intOfText (String.ofList digits)
  | _ => none

/-- `_keyspace_keys`. -/
def keyspaceKeys : Json → Int
  | .obj d => asInt 0 (PyDict.getD d "keys" (.int 0))
  | v => (((asText "" v).toList.splitOn ',').findSome? keysField).getD 0

/-- `_total_keys`. -/
def totalKeys : Json → Int
  | .obj d => d.foldl (fun total p => total + keyspaceKeys p.2) 0
  | _ => 0

/-! ## The services -/

/-- What the tools use of a deployment. -/
structure Deployment where
  /-- `spec.replicas`. -/
  replicas : Option Int
  /-- How often `kubectl.kubernetes.io/restartedAt` was set. -/
  restarts : Nat
deriving DecidableEq

structure World where
  /-- The keys of Valkey, with their databases. -/
  keys : List (Nat × String)
  deployments : String → String → Option Deployment
  nodup : keys.Nodup

/-- The body of `dep.patch`. -/
inductive Patch where
  | replicas (n : Int)
  | restartedAt
deriving DecidableEq

/-- The deployment after a patch. -/
def Patch.apply (d : Deployment) : Patch → Deployment
  | .replicas n => { d with replicas := some n }
  | .restartedAt => { d with restarts := d.restarts + 1 }

/-- `DeleteValkeyKeyInput`. -/
structure DeleteValkeyKeyInput where
  key : String
  reason : String

/-- `DeleteValkeyKeyOutput`; `success` is `True`. -/
structure DeleteValkeyKeyOutput where
  key : String
  deleted : Bool
  reason : String
  verificationPassed : Option Bool
deriving DecidableEq

/-- `FlushAllInput`. -/
structure FlushAllInput where
  reason : String

/-- `FlushAllOutput`; `flushed` and `success` are `True`. -/
structure FlushAllOutput where
  reason : String
  keysBefore : Option Int
  keysAfter : Option Int
  verificationPassed : Option Bool
deriving DecidableEq

/-- `ScaleDeploymentInput`. -/
structure ScaleDeploymentInput where
  namespace_ : String
  name : String
  replicas : Int
  reason : String

/-- `ScaleDeploymentOutput`; `success` is `True`. -/
structure ScaleDeploymentOutput where
  name : String
  namespace_ : String
  previousReplicas : Int
  newReplicas : Int
  scaled : Bool
  reason : String
  verificationPassed : Option Bool
deriving DecidableEq

/-- `RestartDeploymentInput`. -/
structure RestartDeploymentInput where
  namespace_ : String
  name : String
  reason : String

/-- `RestartDeploymentOutput`; `restarted` and `success` are `True`, `verification_passed` is
`None`. -/
structure RestartDeploymentOutput where
  name : String
  namespace_ : String
  reason : String
deriving DecidableEq

/-- What a tool gives to the agent. -/
inductive Report where
  | deleted (out : Except PyExc DeleteValkeyKeyOutput)
  | flushed (out : Except PyExc FlushAllOutput)
  | scaled (out : Except PyExc ScaleDeploymentOutput)
  | restarted (out : Except PyExc RestartDeploymentOutput)

inductive Call where
  | delete (key : String)
  | existsKey (key : String)
  /-- `INFO keyspace`. -/
  | info
  | flushall
  | getDeployment (namespace_ name : String)
  | patch (namespace_ name : String) (p : Patch)
  | report (r : Report)

/-- What a call returns. -/
def Call.Value : Call → Type
  | .delete _ | .existsKey _ => Int
  | .info => Json
  | .getDeployment .. => Deployment
  | .flushall | .patch .. | .report _ => Unit

/-- What becomes of a call: whether the server executes it, and what the client is given. -/
structure Served (c : Call) where
  executed : Bool
  answer : Except PyExc c.Value

/-- What the other clients do. -/
inductive Other where
  | set (db : Nat) (key : String)
  /-- `DEL`, or a key that expires or is evicted. -/
  | remove (db : Nat) (key : String)
  | deploy (namespace_ name : String) (d : Option Deployment)
deriving DecidableEq

namespace World

variable (w : World)

def remove (db : Nat) (key : String) : World :=
  { w with keys := w.keys.filter (· != (db, key)), nodup := w.nodup.filter _ }

def setKey (db : Nat) (key : String) : World :=
  if h : (db, key) ∈ w.keys then w
  else { w with keys := (db, key) :: w.keys, nodup := List.nodup_cons.mpr ⟨h, w.nodup⟩ }

def flush : World := { w with keys := [], nodup := List.nodup_nil }

def deploy (namespace_ name : String) (d : Option Deployment) : World :=
  { w with deployments := fun ns n =>
      if ns = namespace_ ∧ n = name then d else w.deployments ns n }

/-- What a call does, when it is executed. -/
def served : Call → World
  | .delete key => w.remove 0 key
  | .flushall => w.flush
  | .patch namespace_ name p =>
    match w.deployments namespace_ name with
    | some d => w.deploy namespace_ name (some (p.apply d))
    | none => w
  | _ => w

def other : Other → World
  | .set db key => w.setKey db key
  | .remove db key => w.remove db key
  | .deploy namespace_ name d => w.deploy namespace_ name d

/-- The reply to `INFO keyspace`, as the client reads it: the databases that have keys, with
`expires` and `avg_ttl`. -/
def infoKeyspace (info : Nat → Int × Int) : Json :=
  .obj ((w.keys.map Prod.fst).dedup.map fun db =>
    ("db" ++ toString db, .obj [("keys", .int ((w.keys.map Prod.fst).count db)),
      ("expires", .int (info db).1), ("avg_ttl", .int (info db).2)]))

/-- What a call returns; `none` when it can only fail. -/
def value (info : Nat → Int × Int) : (c : Call) → Option c.Value
  | .delete key | .existsKey key => some (if (0, key) ∈ w.keys then (1 : Int) else (0 : Int))
  | .info => some (w.infoKeyspace info)
  | .getDeployment namespace_ name => w.deployments namespace_ name
  | .patch namespace_ name _ => (w.deployments namespace_ name).map fun _ => ()
  | .flushall | .report _ => some ()

end World

/-- What the environment chooses for a call. -/
structure Choice where
  /-- The call, or its answer, is lost. -/
  failure : Option PyExc := none
  executed : Bool := true
  info : Nat → Int × Int := fun _ => (0, 0)

/-- The answer to a call. -/
def World.serve (w : World) (choice : Choice) (c : Call) : Option (Served c) :=
  match choice.failure with
  | some exc => some ⟨choice.executed, .error exc⟩
  | none => (w.value choice.info c).map fun v => ⟨true, .ok v⟩

/-- The world after a call. -/
def World.after (w : World) {c : Call} (r : Served c) : World :=
  if r.executed then w.served c else w

/-! ## The tools -/

/-- The retries of a client: how often, and after which exceptions. -/
structure Client where
  retries : Nat
  retried : PyExc → Bool

/-- The clients of `SREContext`. -/
structure Clients where
  valkey : Option Client
  k8s : Option Client

abbrev Program (α : Type) : Type := Prog Served α

/-- A call, with its retries. -/
def Client.call (client : Client) (c : Call) : Program (Served c) :=
  Prog.attempt c
    (fun r =>
      match r.answer with
      | .error exc => client.retried exc
      | .ok _ => false)
    client.retries

/-- `_valkey_client` and `_k8s_client`. -/
def withClient {α : Type} (toolName field : String) (client : Option Client)
    (tool : Client → Program (Except PyExc α)) : Program (Except PyExc α) :=
  match client with
  | none => .ret (.error (toolExecutionError toolName
      (.exception "RuntimeError" ("SREContext." ++ field ++ " is not initialised"))))
  | some client => tool client

/-- The output of `delete_valkey_key`, with the answers to `DEL` and `EXISTS`. -/
def deletedOutput (args : DeleteValkeyKeyInput) (deletedCount : Int)
    (remaining : Except PyExc Int) : DeleteValkeyKeyOutput where
  key := args.key
  deleted := decide (0 < asInt 0 (.int deletedCount))
  reason := args.reason
  verificationPassed :=
    match remaining with
    | .ok remaining => some (asInt 0 (.int remaining) == 0)
    | .error _ => none

/-- `_delete_valkey_key`. -/
def deleteValkeyKey (args : DeleteValkeyKeyInput) (client : Client) :
    Program (Except PyExc DeleteValkeyKeyOutput) :=
  client.call (.delete args.key) >>= fun r =>
    match r.answer with
    | .error exc => .ret (.error (toolExecutionError "delete_valkey_key" exc))
    | .ok deletedCount =>
      client.call (.existsKey args.key) >>= fun r' =>
        .ret (.ok (deletedOutput args deletedCount r'.answer))

/-- `_total_keys` of an answer; `None` when there is none. -/
def keysOf : Except PyExc Json → Option Int
  | .ok info => some (totalKeys info)
  | .error _ => none

/-- The output of `flush_all`, with the answers to `INFO`. -/
def flushedOutput (args : FlushAllInput) (before after : Except PyExc Json) : FlushAllOutput where
  reason := args.reason
  keysBefore := keysOf before
  keysAfter := keysOf after
  verificationPassed := (keysOf after).map (· == 0)

/-- `_flush_all`. -/
def flushAll (args : FlushAllInput) (client : Client) : Program (Except PyExc FlushAllOutput) :=
  client.call .info >>= fun before =>
    client.call .flushall >>= fun r =>
      match r.answer with
      | .error exc => .ret (.error (toolExecutionError "flush_all" exc))
      | .ok _ =>
        client.call .info >>= fun after =>
          .ret (.ok (flushedOutput args before.answer after.answer))

/-- `_to_int` of `spec.replicas`. -/
def previousReplicas (d : Deployment) : Int := d.replicas.getD 0

/-- The output of `scale_deployment`. -/
def scaledOutput (args : ScaleDeploymentInput) (d : Deployment) (scaled : Bool) :
    ScaleDeploymentOutput where
  name := args.name
  namespace_ := args.namespace_
  previousReplicas := previousReplicas d
  newReplicas := args.replicas
  scaled := scaled
  reason := args.reason
  verificationPassed := if scaled then none else some true

/-- `_scale_deployment`. -/
def scaleDeployment (args : ScaleDeploymentInput) (client : Client) :
    Program (Except PyExc ScaleDeploymentOutput) :=
  client.call (.getDeployment args.namespace_ args.name) >>= fun r =>
    match r.answer with
    | .error exc => .ret (.error (toolExecutionError "scale_deployment" exc))
    | .ok d =>
      if previousReplicas d = args.replicas then .ret (.ok (scaledOutput args d false))
      else
        client.call (.patch args.namespace_ args.name (.replicas args.replicas)) >>= fun r' =>
          match r'.answer with
          | .error exc => .ret (.error (toolExecutionError "scale_deployment" exc))
          | .ok _ => .ret (.ok (scaledOutput args d true))

/-- `_restart_deployment`. -/
def restartDeployment (args : RestartDeploymentInput) (client : Client) :
    Program (Except PyExc RestartDeploymentOutput) :=
  client.call (.getDeployment args.namespace_ args.name) >>= fun r =>
    match r.answer with
    | .error exc => .ret (.error (toolExecutionError "restart_deployment" exc))
    | .ok _ =>
      client.call (.patch args.namespace_ args.name .restartedAt) >>= fun r' =>
        match r'.answer with
        | .error exc => .ret (.error (toolExecutionError "restart_deployment" exc))
        | .ok _ => .ret (.ok ⟨args.name, args.namespace_, args.reason⟩)

inductive ToolCall where
  | deleteValkeyKey (args : DeleteValkeyKeyInput)
  | flushAll (args : FlushAllInput)
  | scaleDeployment (args : ScaleDeploymentInput)
  | restartDeployment (args : RestartDeploymentInput)

/-- The report is given to the agent. -/
def giveReport (r : Report) : Program Unit := .call (.report r) fun _ => .ret ()

/-- A call of a tool. -/
def toolProgram (clients : Clients) : ToolCall → Program Unit
  | .deleteValkeyKey args =>
    withClient "valkey._valkey_client" "valkey_client" clients.valkey (deleteValkeyKey args) >>=
      fun out => giveReport (.deleted out)
  | .flushAll args =>
    withClient "valkey._valkey_client" "valkey_client" clients.valkey (flushAll args) >>=
      fun out => giveReport (.flushed out)
  | .scaleDeployment args =>
    withClient "k8s._k8s_client" "k8s_client" clients.k8s (scaleDeployment args) >>=
      fun out => giveReport (.scaled out)
  | .restartDeployment args =>
    withClient "k8s._k8s_client" "k8s_client" clients.k8s (restartDeployment args) >>=
      fun out => giveReport (.restarted out)

/-- Calls of the tools, each of them again and again, on one world. -/
def services {τ : Type} (w : World) (clients : Clients) (tools : τ → ToolCall) :
    Shared Served τ World Choice Other Other where
  init s := s = w
  perform s _ c choice := (s.serve choice c).map fun r => (r, s.after r)
  ambient s e := some (s.other e, [e])
  body t := toolProgram clients (tools t)

/-! ## The state by the log -/

section runs

variable {τ : Type} [DecidableEq τ] {w : World} {clients : Clients} {tools : τ → ToolCall}
  {C : Threaded Served τ World → Act τ Choice Other → Prop} {s : Threaded Served τ World} {n : Nat}
  {es : List (Happened Served τ Other)} {t : τ} {c : Call}

/-- What happens to the world. -/
def World.happen (w : World) : Happened Served τ Other → World
  | .called _ _ r => w.after r
  | .ambient e => w.other e

/-- The world after a log. -/
def World.run (w : World) (es : List (Happened Served τ Other)) : World := es.foldl World.happen w

omit [DecidableEq τ] in
theorem World.run_append (w : World) (es fs : List (Happened Served τ Other)) :
    w.run (es ++ fs) = (w.run es).run fs := List.foldl_append

theorem shared_run (hr : (threads (services w clients tools)).Run C n es s) :
    s.shared = w.run es := by
  refine shared_inv (I := fun es x => x = w.run es) (fun x hx => hx) ?_ ?_ hr
  · intro es s t choice c k r x hx _ _ hp
    obtain ⟨r', -, he⟩ := Option.map_eq_some_iff.mp hp
    cases he
    rw [World.run_append, ← hx]
    rfl
  · intro es y b x gs hy hb
    cases hb
    rw [World.run_append, ← hy]
    rfl

/-- A call of the log is answered by the world at that time, and its tool has come to it. -/
theorem answered (hr : (threads (services w clients tools)).Run C n es s)
    {pre post : List (Happened Served τ Other)} {r : Served c}
    (he : es = pre ++ .called t c r :: post) :
    (∃ choice, (w.run pre).serve choice c = some r) ∧
      ∃ earlier current k, pre = earlier ++ current ∧
        Prog.Leads (toolProgram clients (tools t)) (callsOf t current) (.call c k) := by
  obtain ⟨n₁, s₁, choice, x, earlier, current, k, hr₁, hp, hpre, hl⟩ := called_split hr he
  refine ⟨⟨choice, ?_⟩, earlier, current, k, hpre, hl⟩
  obtain ⟨r', hs, he'⟩ := Option.map_eq_some_iff.mp hp
  rw [← shared_run hr₁]
  cases he'
  exact hs

/-! ## The calls of the tools -/

/-- The call is not a report. -/
def Call.IsRequest : Call → Prop
  | .report _ => False
  | _ => True

/-- The reply to a call, and the calls after it. -/
theorem Client.leads_bind {α : Type} {client : Client} {f : Served c → Program α}
    {calls : List ((c : Call) × Served c)} {a : α}
    (h : Prog.Leads (client.call c >>= f) calls (.ret a)) :
    ∃ first r rest, calls = first ++ ⟨c, r⟩ :: rest ∧ Prog.Leads (f r) rest (.ret a) := by
  rcases Prog.leads_bind h with ⟨p', he, -, hne⟩ | ⟨first, rest, r, rfl, hp, hf⟩
  · cases p' with
    | ret r => exact absurd rfl (hne r)
    | call c' k =>
      rw [Prog.call_bind] at he
      cases he
  · obtain ⟨tries, rfl⟩ := Prog.leads_attempt hp
    exact ⟨_, r, rest, by rw [List.append_assoc]; rfl, hf⟩

theorem leads_withClient {α : Type} {toolName field : String} {client : Option Client}
    {tool : Client → Program (Except PyExc α)} {calls : List ((c : Call) × Served c)} {out : α}
    (h : Prog.Leads (withClient toolName field client tool) calls (.ret (.ok out))) :
    ∃ client, Prog.Leads (tool client) calls (.ret (.ok out)) := by
  unfold withClient at h
  split at h
  · cases (Prog.leads_ret h).2
  · exact ⟨_, h⟩

/-- A report is the result of the tool's program. -/
theorem leads_report {α : Type} {p : Program α} {f : α → Report}
    {calls : List ((c : Call) × Served c)} {rep : Report} {k : Served (.report rep) → Program Unit}
    (hp : Prog.Only Call.IsRequest p)
    (h : Prog.Leads (p >>= fun out => giveReport (f out)) calls (.call (.report rep) k)) :
    ∃ out, rep = f out ∧ Prog.Leads p calls (.ret out) := by
  have hnot : ¬ Call.IsRequest (.report rep) := fun h => h
  obtain ⟨first, rest, out, rfl, hfirst, hlast⟩ := hp.leads_bind hnot h
  rcases Prog.leads_call hlast with ⟨rfl, he⟩ | ⟨r, rest', -, hret⟩
  · cases he
    exact ⟨out, rfl, by rwa [List.append_nil]⟩
  · cases (Prog.leads_ret hret).2

/-- The calls that a tool may make. -/
def ToolCall.Uses : ToolCall → Call → Prop
  | .deleteValkeyKey args, c => c = .delete args.key ∨ c = .existsKey args.key
  | .flushAll _, c => c = .info ∨ c = .flushall
  | .scaleDeployment args, c =>
    c = .getDeployment args.namespace_ args.name ∨
      c = .patch args.namespace_ args.name (.replicas args.replicas)
  | .restartDeployment args, c =>
    c = .getDeployment args.namespace_ args.name ∨
      c = .patch args.namespace_ args.name .restartedAt

theorem uses_request {tool : ToolCall} {c : Call} (h : tool.Uses c) : c.IsRequest := by
  cases tool <;> rcases h with rfl | rfl <;> trivial

theorem Client.only_call {P : Call → Prop} (client : Client) {c : Call} (h : P c) :
    Prog.Only P (client.call c) :=
  Prog.only_attempt h _ _

theorem only_withClient {α : Type} {P : Call → Prop} (toolName field : String)
    (client : Option Client) {tool : Client → Program (Except PyExc α)}
    (h : ∀ client, Prog.Only P (tool client)) :
    Prog.Only P (withClient toolName field client tool) := by
  unfold withClient
  split
  · trivial
  · exact h _

/-- A report is of an exception, or of what the tool's program gave. -/
theorem leads_tool {α : Type} {toolName field : String} {client : Option Client}
    {call : ToolCall} {tool : Client → Program (Except PyExc α)} {f : Except PyExc α → Report}
    {calls : List ((c : Call) × Served c)} {rep : Report} {k : Served (.report rep) → Program Unit}
    (hp : ∀ client, Prog.Only call.Uses (tool client))
    (h : Prog.Leads (withClient toolName field client tool >>= fun out => giveReport (f out)) calls
      (.call (.report rep) k)) :
    (∃ exc, rep = f (.error exc)) ∨
      ∃ client out, rep = f (.ok out) ∧ Prog.Leads (tool client) calls (.ret (.ok out)) := by
  have hrequest := (only_withClient toolName field client hp).mono fun _ => uses_request
  obtain ⟨out, rfl, hw⟩ := leads_report hrequest h
  cases out with
  | error exc => exact .inl ⟨exc, rfl⟩
  | ok out =>
    obtain ⟨client, ht⟩ := leads_withClient hw
    exact .inr ⟨client, out, rfl, ht⟩

theorem only_deleteValkeyKey (args : DeleteValkeyKeyInput) (client : Client) :
    Prog.Only (ToolCall.Uses (.deleteValkeyKey args)) (deleteValkeyKey args client) := by
  refine (client.only_call (.inl rfl)).bind fun r => ?_
  split
  · trivial
  · exact (client.only_call (.inr rfl)).bind fun _ => trivial

theorem only_flushAll (args : FlushAllInput) (client : Client) :
    Prog.Only (ToolCall.Uses (.flushAll args)) (flushAll args client) := by
  refine (client.only_call (.inl rfl)).bind fun before => ?_
  refine (client.only_call (.inr rfl)).bind fun r => ?_
  split
  · trivial
  · exact (client.only_call (.inl rfl)).bind fun _ => trivial

theorem only_scaleDeployment (args : ScaleDeploymentInput) (client : Client) :
    Prog.Only (ToolCall.Uses (.scaleDeployment args)) (scaleDeployment args client) := by
  refine (client.only_call (.inl rfl)).bind fun r => ?_
  split
  · trivial
  · split
    · trivial
    · refine (client.only_call (.inr rfl)).bind fun r' => ?_
      split <;> trivial

theorem only_restartDeployment (args : RestartDeploymentInput) (client : Client) :
    Prog.Only (ToolCall.Uses (.restartDeployment args)) (restartDeployment args client) := by
  refine (client.only_call (.inl rfl)).bind fun r => ?_
  split
  · trivial
  · refine (client.only_call (.inr rfl)).bind fun r' => ?_
    split <;> trivial

/-- The calls with the answers that the output of `delete_valkey_key` has. -/
theorem leads_deleteValkeyKey {args : DeleteValkeyKeyInput} {client : Client}
    {calls : List ((c : Call) × Served c)} {out : DeleteValkeyKeyOutput}
    (h : Prog.Leads (deleteValkeyKey args client) calls (.ret (.ok out))) :
    ∃ (first between rest : List ((c : Call) × Served c)) (r : Served (.delete args.key))
      (r' : Served (.existsKey args.key)) (deletedCount : Int),
      calls = first ++ ⟨_, r⟩ :: (between ++ ⟨_, r'⟩ :: rest) ∧ r.answer = .ok deletedCount ∧
        out = deletedOutput args deletedCount r'.answer := by
  obtain ⟨first, r, rest, rfl, h₁⟩ := Client.leads_bind h
  split at h₁
  · cases (Prog.leads_ret h₁).2
  · rename_i deletedCount hr
    obtain ⟨between, r', rest', rfl, h₂⟩ := Client.leads_bind h₁
    cases (Prog.leads_ret h₂).2
    exact ⟨first, between, rest', r, r', deletedCount, rfl, hr, rfl⟩

/-- The calls with the answers that the output of `flush_all` has. -/
theorem leads_flushAll {args : FlushAllInput} {client : Client}
    {calls : List ((c : Call) × Served c)} {out : FlushAllOutput}
    (h : Prog.Leads (flushAll args client) calls (.ret (.ok out))) :
    ∃ (first between between' rest : List ((c : Call) × Served c)) (before after : Served .info)
      (r : Served .flushall) (v : Call.flushall.Value),
      calls = first ++ ⟨_, before⟩ :: (between ++ ⟨_, r⟩ :: (between' ++ ⟨_, after⟩ :: rest)) ∧
        r.answer = .ok v ∧ out = flushedOutput args before.answer after.answer := by
  obtain ⟨first, before, rest, rfl, h₁⟩ := Client.leads_bind h
  obtain ⟨between, r, rest', rfl, h₂⟩ := Client.leads_bind h₁
  split at h₂
  · cases (Prog.leads_ret h₂).2
  · rename_i v hr
    obtain ⟨between', after, rest'', rfl, h₃⟩ := Client.leads_bind h₂
    cases (Prog.leads_ret h₃).2
    exact ⟨first, between, between', rest'', before, after, r, v, rfl, hr, rfl⟩

/-- The calls with the answers that the output of `scale_deployment` has. -/
theorem leads_scaleDeployment {args : ScaleDeploymentInput} {client : Client}
    {calls : List ((c : Call) × Served c)} {out : ScaleDeploymentOutput}
    (h : Prog.Leads (scaleDeployment args client) calls (.ret (.ok out))) :
    ∃ (first rest : List ((c : Call) × Served c))
      (r : Served (.getDeployment args.namespace_ args.name)) (d : Deployment),
      calls = first ++ ⟨_, r⟩ :: rest ∧ r.answer = .ok d ∧
        (previousReplicas d = args.replicas ∧ out = scaledOutput args d false ∨
          previousReplicas d ≠ args.replicas ∧ out = scaledOutput args d true ∧
          ∃ (between rest' : List ((c : Call) × Served c))
            (r' : Served (.patch args.namespace_ args.name (.replicas args.replicas)))
            (v : Call.Value (.patch args.namespace_ args.name (.replicas args.replicas))),
            rest = between ++ ⟨_, r'⟩ :: rest' ∧ r'.answer = .ok v) := by
  obtain ⟨first, r, rest, rfl, h₁⟩ := Client.leads_bind h
  split at h₁
  · cases (Prog.leads_ret h₁).2
  · rename_i d hr
    refine ⟨first, rest, r, d, rfl, hr, ?_⟩
    split at h₁
    · rename_i hsame
      cases (Prog.leads_ret h₁).2
      exact .inl ⟨hsame, rfl⟩
    · rename_i hdiff
      obtain ⟨between, r', rest', rfl, h₂⟩ := Client.leads_bind h₁
      split at h₂
      · cases (Prog.leads_ret h₂).2
      · rename_i v hr'
        cases (Prog.leads_ret h₂).2
        exact .inr ⟨hdiff, rfl, between, rest', r', v, rfl, hr'⟩

/-- The calls with the answers that the output of `restart_deployment` has. -/
theorem leads_restartDeployment {args : RestartDeploymentInput} {client : Client}
    {calls : List ((c : Call) × Served c)} {out : RestartDeploymentOutput}
    (h : Prog.Leads (restartDeployment args client) calls (.ret (.ok out))) :
    ∃ (first rest : List ((c : Call) × Served c))
      (r : Served (.patch args.namespace_ args.name .restartedAt))
      (v : Call.Value (.patch args.namespace_ args.name .restartedAt)),
      calls = first ++ ⟨_, r⟩ :: rest ∧ r.answer = .ok v := by
  obtain ⟨first, r, rest, rfl, h₁⟩ := Client.leads_bind h
  split at h₁
  · cases (Prog.leads_ret h₁).2
  · obtain ⟨between, r', rest', rfl, h₂⟩ := Client.leads_bind h₁
    split at h₂
    · cases (Prog.leads_ret h₂).2
    · rename_i v hr
      exact ⟨first ++ ⟨_, r⟩ :: between, rest', r', v, by simp, hr⟩

/-! ## The services by their answers -/

/-- The key is in the database of the client. -/
def World.Has (w : World) (key : String) : Prop := (0, key) ∈ w.keys

/-- A call that is answered was executed, and the answer is that of the world. -/
theorem serve_ok {choice : Choice} {r : Served c} {v : c.Value} (h : w.serve choice c = some r)
    (hr : r.answer = .ok v) : r.executed = true ∧ w.value choice.info c = some v := by
  unfold World.serve at h
  split at h
  · cases h
    cases hr
  · obtain ⟨v', hv, he⟩ := Option.map_eq_some_iff.mp h
    cases he
    cases hr
    exact ⟨rfl, hv⟩

theorem mem_remove {db : Nat} {key : String} {k : Nat × String} :
    k ∈ (w.remove db key).keys ↔ k ∈ w.keys ∧ k ≠ (db, key) := by
  simp [World.remove]

theorem mem_setKey {db : Nat} {key : String} {k : Nat × String} :
    k ∈ (w.setKey db key).keys ↔ k = (db, key) ∨ k ∈ w.keys := by
  unfold World.setKey
  split
  · rename_i hm
    exact ⟨.inr, fun h => h.elim (fun he => he ▸ hm) id⟩
  · exact List.mem_cons

theorem deployments_deploy (w : World) (namespace_ name : String) (d : Option Deployment) :
    (w.deploy namespace_ name d).deployments namespace_ name = d :=
  if_pos ⟨rfl, rfl⟩

/-- No call of a tool makes a key. -/
theorem mem_served {k : Nat × String} (h : k ∈ (w.served c).keys) : k ∈ w.keys := by
  cases c with
  | delete key => exact (mem_remove.mp h).1
  | flushall => cases h
  | patch namespace_ name p =>
    simp only [World.served] at h
    split at h <;> exact h
  | _ => exact h

omit [DecidableEq τ] in
/-- A key that is new was set by another client. -/
theorem mem_happen {e : Happened Served τ Other} {k : Nat × String} (h : k ∈ (w.happen e).keys) :
    k ∈ w.keys ∨ e = .ambient (.set k.1 k.2) := by
  cases e with
  | called t c r =>
    simp only [World.happen, World.after] at h
    split at h
    · exact .inl (mem_served h)
    · exact .inl h
  | ambient o =>
    cases o with
    | set db key =>
      rcases mem_setKey.mp h with rfl | h
      · exact .inr rfl
      · exact .inl h
    | remove db key => exact .inl (mem_remove.mp h).1
    | deploy => exact .inl h

omit [DecidableEq τ] in
theorem mem_run {k : Nat × String} (h : k ∈ (w.run es).keys) :
    k ∈ w.keys ∨ .ambient (.set k.1 k.2) ∈ es := by
  induction es generalizing w with
  | nil => exact .inl h
  | cons e es ih =>
    rcases ih (w := w.happen e) h with h | h
    · rcases mem_happen h with h | rfl
      · exact .inl h
      · exact .inr List.mem_cons_self
    · exact .inr (List.mem_cons_of_mem _ h)

/-- The number of the keys, over the databases. -/
theorem totalKeys_infoKeyspace (w : World) (info : Nat → Int × Int) :
    totalKeys (w.infoKeyspace info) = w.keys.length := by
  have hfold : ∀ (dbs : List Nat) (total : Int),
      (dbs.map fun db => ("db" ++ toString db,
        (.obj [("keys", .int ((w.keys.map Prod.fst).count db)), ("expires", .int (info db).1),
          ("avg_ttl", .int (info db).2)] : Json))).foldl
            (fun total p => total + keyspaceKeys p.2) total =
        total + ((dbs.map fun db => (w.keys.map Prod.fst).count db).sum : Nat) := by
    intro dbs
    induction dbs with
    | nil => simp
    | cons db dbs ih =>
      intro total
      have hone : keyspaceKeys (.obj [("keys", .int ((w.keys.map Prod.fst).count db)),
          ("expires", .int (info db).1), ("avg_ttl", .int (info db).2)]) =
            ((w.keys.map Prod.fst).count db : Int) := rfl
      rw [List.map_cons, List.foldl_cons, ih, List.map_cons, List.sum_cons]
      simp only [hone]
      push_cast
      omega
  rw [World.infoKeyspace, totalKeys, hfold, List.sum_map_count_dedup_eq_length, List.length_map]
  exact Int.zero_add _

/-! ## Reports -/

/-- A report of `delete_valkey_key`, by the worlds at its `DEL` and at its `EXISTS`. -/
structure Deleted (w w' : World) (key : String) (between : List (Happened Served τ Other))
    (out : DeleteValkeyKeyOutput) : Prop where
  target : out.key = key
  deleted : out.deleted = true ↔ w.Has key
  verified : out.verificationPassed = some true → ¬ w'.Has key
  /-- Another client has set the key again. -/
  refuted : out.verificationPassed = some false →
    w'.Has key ∧ .ambient (.set 0 key) ∈ between

/-- A report of `flush_all`, by the worlds at its two `INFO`. -/
structure Flushed (w w' : World) (between : List (Happened Served τ Other))
    (out : FlushAllOutput) : Prop where
  before : ∀ n, out.keysBefore = some n → n = w.keys.length
  after : ∀ n, out.keysAfter = some n → n = w'.keys.length
  verified : out.verificationPassed = some true → w'.keys = []
  /-- Another client has set a key again. -/
  refuted : out.verificationPassed = some false →
    ∃ db key, .ambient (.set db key) ∈ between

/-- What a report says was so at the calls of its tool. -/
def Honest (w : World) (t : τ) (pre : List (Happened Served τ Other)) : ToolCall → Report → Prop
  | .deleteValkeyKey args, .deleted (.ok out) =>
    ∃ before r between r' rest,
      pre = before ++ .called t (.delete args.key) r ::
        (between ++ .called t (.existsKey args.key) r' :: rest) ∧ r.executed = true ∧
      Deleted (w.run before) (w.run (before ++ .called t (.delete args.key) r :: between)) args.key
        between out
  | .flushAll _, .flushed (.ok out) =>
    ∃ before r middle r' between r'' rest,
      pre = before ++ .called t .info r :: (middle ++ .called t .flushall r' ::
        (between ++ .called t .info r'' :: rest)) ∧ r'.executed = true ∧
      Flushed (w.run before)
        (w.run (before ++ .called t .info r :: (middle ++ .called t .flushall r' :: between)))
        between out
  | .scaleDeployment args, .scaled (.ok out) =>
    ∃ before r after d,
      pre = before ++ .called t (.getDeployment args.namespace_ args.name) r :: after ∧
      (w.run before).deployments args.namespace_ args.name = some d ∧
      out.previousReplicas = previousReplicas d ∧
      (out.scaled = false → previousReplicas d = args.replicas ∧
        out.verificationPassed = some true) ∧
      (out.scaled = true → out.verificationPassed = none ∧ ∃ between r' rest d',
        after = between ++ .called t (.patch args.namespace_ args.name
          (.replicas args.replicas)) r' :: rest ∧
        ((w.run (before ++ .called t (.getDeployment args.namespace_ args.name) r ::
          between)).after r').deployments args.namespace_ args.name = some d' ∧
        d'.replicas = some args.replicas)
  | .restartDeployment args, .restarted (.ok _) =>
    ∃ before r after d,
      pre = before ++ .called t (.patch args.namespace_ args.name .restartedAt) r :: after ∧
      (w.run before).deployments args.namespace_ args.name = some d ∧
      ((w.run before).after r).deployments args.namespace_ args.name =
        some { d with restarts := d.restarts + 1 }
  -- An exception says nothing.
  | .deleteValkeyKey _, .deleted (.error _) | .flushAll _, .flushed (.error _)
  | .scaleDeployment _, .scaled (.error _) | .restartDeployment _, .restarted (.error _) => True
  | _, _ => False

/-- A call of a tool stands in the log, where the world answers it. -/
theorem call_at (hr : (threads (services w clients tools)).Run C n es s)
    {lead mid post : List (Happened Served τ Other)} (he : es = lead ++ mid ++ post)
    {first tail : List ((c : Call) × Served c)} {r : Served c}
    (h : callsOf t mid = first ++ ⟨c, r⟩ :: tail) :
    ∃ before after, mid = before ++ .called t c r :: after ∧
      es = (lead ++ before ++ [.called t c r]) ++ after ++ post ∧ callsOf t after = tail ∧
      ∃ choice, (w.run (lead ++ before)).serve choice c = some r := by
  obtain ⟨before, after, rfl, -, htail⟩ := split_callsOf h
  have hpre : es = (lead ++ before) ++ .called t c r :: (after ++ post) := by
    rw [he]
    simp
  exact ⟨before, after, rfl, by simp [hpre], htail, (answered hr hpre).1⟩

omit [DecidableEq τ] in
theorem run_called (w : World) (pre post : List (Happened Served τ Other)) (r : Served c) :
    w.run (pre ++ .called t c r :: post) = ((w.run pre).after r).run post :=
  w.run_append pre _

omit [DecidableEq τ] in
/-- A key that a call has removed was set again. -/
theorem set_since {pre between : List (Happened Served τ Other)} {r : Served c} {k : Nat × String}
    (hr : r.executed = true) (hgone : k ∉ ((w.run pre).served c).keys)
    (h : k ∈ (w.run (pre ++ .called t c r :: between)).keys) :
    .ambient (.set k.1 k.2) ∈ between := by
  rw [run_called, World.after, if_pos hr] at h
  exact (mem_run h).resolve_left hgone

/-- What is read of an answer to `INFO` is the number of the keys. -/
theorem keysOf_serve {choice : Choice} {r : Served .info} {n : Int}
    (h : w.serve choice .info = some r) (hn : keysOf r.answer = some n) : n = w.keys.length := by
  unfold keysOf at hn
  split at hn
  · rename_i info hinfo
    have hvalue := Option.some.inj (serve_ok h hinfo).2
    rw [← hvalue, totalKeys_infoKeyspace] at hn
    exact (Option.some.inj hn).symm
  · cases hn

theorem verification_some {args : DeleteValkeyKeyInput} {deletedCount : Int}
    {remaining : Except PyExc Int} {b : Bool}
    (h : (deletedOutput args deletedCount remaining).verificationPassed = some b) :
    ∃ n, remaining = .ok n ∧ b = (n == 0) := by
  simp only [deletedOutput] at h
  split at h
  · exact ⟨_, rfl, (Option.some.inj h).symm⟩
  · cases h

/-- The answer to `DEL` and to `EXISTS`. -/
theorem count_key {key : String} {n : Int}
    (h : (if (0, key) ∈ w.keys then (1 : Int) else (0 : Int)) = n) :
    (0 < n ↔ w.Has key) ∧ (n = 0 ↔ ¬ w.Has key) := by
  unfold World.Has
  split at h
  · rename_i hm
    subst h
    simp [hm]
  · rename_i hm
    subst h
    simp [hm]

theorem delete_honest (hr : (threads (services w clients tools)).Run C n es s)
    {earlier current post : List (Happened Served τ Other)} (he : es = earlier ++ current ++ post)
    {args : DeleteValkeyKeyInput} {client : Client} {out : DeleteValkeyKeyOutput}
    (h : Prog.Leads (deleteValkeyKey args client) (callsOf t current) (.ret (.ok out))) :
    Honest w t (earlier ++ current) (.deleteValkeyKey args) (.deleted (.ok out)) := by
  obtain ⟨first, second, last, r, r', deletedCount, hcalls, hok, rfl⟩ := leads_deleteValkeyKey h
  obtain ⟨before, after, rfl, he', htail, choice, hs⟩ := call_at hr he hcalls
  obtain ⟨between, rest, rfl, -, -, choice', hs'⟩ := call_at hr he' htail
  obtain ⟨hexecuted, hcount⟩ := serve_ok hs hok
  rw [List.append_assoc, List.singleton_append] at hs'
  -- The answer to `EXISTS`, when there is one.
  have hexists : ∀ n, r'.answer = .ok n →
      (if (0, args.key) ∈ (w.run (earlier ++ before ++ .called t (.delete args.key) r ::
        between)).keys then (1 : Int) else (0 : Int)) = n := fun n hn =>
    Option.some.inj (serve_ok hs' hn).2
  refine ⟨earlier ++ before, r, between, r', rest, by simp, hexecuted, rfl, ?_, ?_, ?_⟩
  · have hcount := (count_key (Option.some.inj hcount)).1
    exact decide_eq_true_iff.trans hcount
  · intro hv
    obtain ⟨n, hn, hb⟩ := verification_some hv
    exact (count_key (hexists n hn)).2.mp (eq_of_beq hb.symm)
  · intro hv
    obtain ⟨n, hn, hb⟩ := verification_some hv
    have hhas : (w.run (earlier ++ before ++ .called t (.delete args.key) r ::
        between)).Has args.key := by
      refine Classical.byContradiction fun hnot => ?_
      rw [(count_key (hexists n hn)).2.mpr hnot] at hb
      cases hb
    exact ⟨hhas, set_since hexecuted (fun hkept => (mem_remove.mp hkept).2 rfl) hhas⟩

theorem flush_honest (hr : (threads (services w clients tools)).Run C n es s)
    {earlier current post : List (Happened Served τ Other)} (he : es = earlier ++ current ++ post)
    {args : FlushAllInput} {client : Client} {out : FlushAllOutput}
    (h : Prog.Leads (flushAll args client) (callsOf t current) (.ret (.ok out))) :
    Honest w t (earlier ++ current) (.flushAll args) (.flushed (.ok out)) := by
  obtain ⟨first, second, third, last, r, r'', r', v, hcalls, hok, rfl⟩ := leads_flushAll h
  obtain ⟨before, after, rfl, he', htail, choice, hs⟩ := call_at hr he hcalls
  obtain ⟨middle, after', rfl, he'', htail', choice', hs'⟩ := call_at hr he' htail
  obtain ⟨between, rest, rfl, -, -, choice'', hs''⟩ := call_at hr he'' htail'
  obtain ⟨hexecuted, -⟩ := serve_ok hs' hok
  -- The log before the last `INFO`.
  have hlog : earlier ++ before ++ [.called t .info r] ++ middle ++ [.called t .flushall r'] ++
      between = earlier ++ before ++
        .called t .info r :: (middle ++ .called t .flushall r' :: between) := by
    simp
  have hlast := hs''
  rw [hlog] at hlast
  refine ⟨earlier ++ before, r, middle, r', between, r'', rest, by simp, hexecuted,
    fun n => keysOf_serve hs, fun n => keysOf_serve hlast, ?_, ?_⟩
  · intro hv
    obtain ⟨n, hn, hzero⟩ := Option.map_eq_some_iff.mp hv
    have hlength := keysOf_serve hlast hn
    rw [eq_of_beq hzero] at hlength
    exact List.eq_nil_of_length_eq_zero (Int.ofNat_eq_zero.mp hlength.symm)
  · intro hv
    obtain ⟨n, hn, hnot⟩ := Option.map_eq_some_iff.mp hv
    have hlength := keysOf_serve hs'' hn
    have hne : (w.run (earlier ++ before ++ [.called t .info r] ++ middle ++
        [.called t .flushall r'] ++ between)).keys ≠ [] := by
      intro hnil
      rw [hnil] at hlength
      rw [hlength] at hnot
      cases hnot
    obtain ⟨k, hk⟩ := List.exists_mem_of_ne_nil _ hne
    rw [List.append_assoc, List.singleton_append] at hk
    exact ⟨k.1, k.2, set_since hexecuted List.not_mem_nil hk⟩

theorem scale_honest (hr : (threads (services w clients tools)).Run C n es s)
    {earlier current post : List (Happened Served τ Other)} (he : es = earlier ++ current ++ post)
    {args : ScaleDeploymentInput} {client : Client} {out : ScaleDeploymentOutput}
    (h : Prog.Leads (scaleDeployment args client) (callsOf t current) (.ret (.ok out))) :
    Honest w t (earlier ++ current) (.scaleDeployment args) (.scaled (.ok out)) := by
  obtain ⟨first, last, r, d, hcalls, hok, hout⟩ := leads_scaleDeployment h
  obtain ⟨before, after, rfl, he', htail, choice, hs⟩ := call_at hr he hcalls
  have hd := (serve_ok hs hok).2
  rcases hout with ⟨hsame, rfl⟩ | ⟨-, rfl, second, last', r', v, rfl, hok'⟩
  · exact ⟨earlier ++ before, r, after, d, by simp, hd, rfl, fun _ => ⟨hsame, rfl⟩,
      by simp [scaledOutput]⟩
  · obtain ⟨between, rest, rfl, -, -, choice', hs'⟩ := call_at hr he' htail
    rw [List.append_assoc, List.singleton_append] at hs'
    obtain ⟨hexecuted, hvalue⟩ := serve_ok hs' hok'
    obtain ⟨d', hd', -⟩ := Option.map_eq_some_iff.mp hvalue
    refine ⟨earlier ++ before, r, _, d, by simp, hd, rfl, by simp [scaledOutput],
      fun _ => ⟨rfl, between, r', rest, Patch.apply d' (.replicas args.replicas), rfl, ?_, rfl⟩⟩
    simp only [World.after, hexecuted, if_true, World.served, hd']
    exact deployments_deploy ..

theorem restart_honest (hr : (threads (services w clients tools)).Run C n es s)
    {earlier current post : List (Happened Served τ Other)} (he : es = earlier ++ current ++ post)
    {args : RestartDeploymentInput} {client : Client} {out : RestartDeploymentOutput}
    (h : Prog.Leads (restartDeployment args client) (callsOf t current) (.ret (.ok out))) :
    Honest w t (earlier ++ current) (.restartDeployment args) (.restarted (.ok out)) := by
  obtain ⟨first, last, r, v, hcalls, hok⟩ := leads_restartDeployment h
  obtain ⟨before, after, rfl, -, -, choice, hs⟩ := call_at hr he hcalls
  obtain ⟨hexecuted, hvalue⟩ := serve_ok hs hok
  obtain ⟨d, hd, -⟩ := Option.map_eq_some_iff.mp hvalue
  refine ⟨earlier ++ before, r, after, d, by simp, hd, ?_⟩
  simp only [World.after, hexecuted, if_true, World.served, hd]
  exact deployments_deploy ..

/-- Whatever the other tools and the other clients do meanwhile, and however often a call is made
again, what a tool reports was so at the calls that it has made. -/
theorem reports_honest (hr : (threads (services w clients tools)).Run C n es s)
    {pre post : List (Happened Served τ Other)} {rep : Report} {r : Served (.report rep)}
    (he : es = pre ++ .called t (.report rep) r :: post) : Honest w t pre (tools t) rep := by
  obtain ⟨-, earlier, current, k, rfl, hl⟩ := answered hr he
  cases htool : tools t with
  | deleteValkeyKey args =>
    rw [htool] at hl
    rcases leads_tool (only_deleteValkeyKey args) hl with ⟨exc, rfl⟩ | ⟨client, out, rfl, hp⟩
    · trivial
    · exact delete_honest hr he hp
  | flushAll args =>
    rw [htool] at hl
    rcases leads_tool (only_flushAll args) hl with ⟨exc, rfl⟩ | ⟨client, out, rfl, hp⟩
    · trivial
    · exact flush_honest hr he hp
  | scaleDeployment args =>
    rw [htool] at hl
    rcases leads_tool (only_scaleDeployment args) hl with ⟨exc, rfl⟩ | ⟨client, out, rfl, hp⟩
    · trivial
    · exact scale_honest hr he hp
  | restartDeployment args =>
    rw [htool] at hl
    rcases leads_tool (only_restartDeployment args) hl with ⟨exc, rfl⟩ | ⟨client, out, rfl, hp⟩
    · trivial
    · exact restart_honest hr he hp

/-! ## Effects -/

/-- What a call of a tool leaves alone. -/
def Confined (w w' : World) : ToolCall → Prop
  | .deleteValkeyKey args =>
    w'.deployments = w.deployments ∧ ∀ k ≠ (0, args.key), (k ∈ w'.keys ↔ k ∈ w.keys)
  | .flushAll _ => w'.deployments = w.deployments
  | .scaleDeployment args =>
    w'.keys = w.keys ∧ ∀ namespace_ name, ¬ (namespace_ = args.namespace_ ∧ name = args.name) →
      w'.deployments namespace_ name = w.deployments namespace_ name
  | .restartDeployment args =>
    w'.keys = w.keys ∧ ∀ namespace_ name, ¬ (namespace_ = args.namespace_ ∧ name = args.name) →
      w'.deployments namespace_ name = w.deployments namespace_ name

theorem only_toolProgram (clients : Clients) (tool : ToolCall) :
    Prog.Only (fun c => tool.Uses c ∨ ¬ c.IsRequest) (toolProgram clients tool) := by
  have hreport : ∀ r, Prog.Only (fun c => tool.Uses c ∨ ¬ c.IsRequest) (giveReport r) := fun r =>
    ⟨.inr fun h => h, fun _ => trivial⟩
  cases tool with
  | deleteValkeyKey args =>
    exact ((only_withClient _ _ _ (only_deleteValkeyKey args)).mono fun _ => .inl).bind
      fun _ => hreport _
  | flushAll args =>
    exact ((only_withClient _ _ _ (only_flushAll args)).mono fun _ => .inl).bind fun _ => hreport _
  | scaleDeployment args =>
    exact ((only_withClient _ _ _ (only_scaleDeployment args)).mono fun _ => .inl).bind
      fun _ => hreport _
  | restartDeployment args =>
    exact ((only_withClient _ _ _ (only_restartDeployment args)).mono fun _ => .inl).bind
      fun _ => hreport _

theorem confined_refl (w : World) (tool : ToolCall) : Confined w w tool := by
  cases tool with
  | deleteValkeyKey => exact ⟨rfl, fun _ _ => Iff.rfl⟩
  | flushAll => exact rfl
  | scaleDeployment | restartDeployment => exact ⟨rfl, fun _ _ _ => rfl⟩

/-- A patch changes one deployment. -/
theorem served_patch (w : World) (namespace_ name : String) (p : Patch) :
    (w.served (.patch namespace_ name p)).keys = w.keys ∧
      ∀ namespace_' name', ¬ (namespace_' = namespace_ ∧ name' = name) →
        (w.served (.patch namespace_ name p)).deployments namespace_' name' =
          w.deployments namespace_' name' := by
  simp only [World.served]
  split
  · exact ⟨rfl, fun _ _ h => if_neg h⟩
  · exact ⟨rfl, fun _ _ _ => rfl⟩

theorem confined_served (w : World) {tool : ToolCall} (h : tool.Uses c ∨ ¬ c.IsRequest) :
    Confined w (w.served c) tool := by
  rcases h with h | h
  · cases tool with
    | deleteValkeyKey args =>
      rcases h with rfl | rfl
      · exact ⟨rfl, fun k hk => mem_remove.trans (and_iff_left hk)⟩
      · exact confined_refl w _
    | flushAll args => rcases h with rfl | rfl <;> rfl
    | scaleDeployment args =>
      rcases h with rfl | rfl
      · exact confined_refl w _
      · exact served_patch ..
    | restartDeployment args =>
      rcases h with rfl | rfl
      · exact confined_refl w _
      · exact served_patch ..
  · cases c with
    | report r => exact confined_refl w tool
    | _ => exact absurd trivial h

/-- A tool touches its own target only. -/
theorem tools_confined (hr : (threads (services w clients tools)).Run C n es s)
    {pre post : List (Happened Served τ Other)} {r : Served c}
    (he : es = pre ++ .called t c r :: post) :
    Confined (w.run pre) ((w.run pre).after r) (tools t) := by
  obtain ⟨-, earlier, current, k, -, hl⟩ := answered hr he
  unfold World.after
  split
  · exact confined_served _ ((only_toolProgram clients (tools t)).leads hl).1
  · exact confined_refl _ _

end runs

/-! ## A key that is set again -/

theorem cart_user_nodup : [(0, "cart"), (0, "user")].Nodup := by decide

/-- Two keys. -/
def twoKeys : World where
  keys := [(0, "cart"), (0, "user")]
  deployments _ _ := none
  nodup := cart_user_nodup

def someClients : Clients where
  valkey := some ⟨1, fun _ => true⟩
  k8s := none

def deleteCart : DeleteValkeyKeyInput := ⟨"cart", "poisoned"⟩

/-- The first answer to `DEL` is lost, and another client sets the key before `EXISTS`. -/
def setAgain : List (Act Unit Choice Other) :=
  [.begin (), .call () { failure := some .timeoutError }, .call () {},
    .ambient (.set 0 "cart"), .call () {}, .call () {}]

/-- The report of that call. -/
def cartReport : DeleteValkeyKeyOutput := ⟨"cart", false, "poisoned", some false⟩

def isReport (out : DeleteValkeyKeyOutput) : Happened Served Unit Other → Bool
  | .called _ (.report (.deleted (.ok out'))) _ => out' == out
  | _ => false

theorem exists_report {out : DeleteValkeyKeyOutput} {es : List (Happened Served Unit Other)}
    (h : es.any (isReport out) = true) :
    ∃ pre r post, es = pre ++ .called () (.report (.deleted (.ok out))) r :: post := by
  obtain ⟨e, hm, he⟩ := List.any_eq_true.mp h
  obtain ⟨pre, post, rfl⟩ := List.append_of_mem hm
  unfold isReport at he
  split at he
  · obtain rfl := eq_of_beq he
    exact ⟨pre, _, post, rfl⟩
  · cases he

theorem setAgain_exec : ((threads (services twoKeys someClients fun _ : Unit =>
    .deleteValkeyKey deleteCart)).exec ⟨twoKeys, fun _ => .ret ()⟩ setAgain).any
      (fun r => r.2.any (isReport cartReport)) = true := by
  decide +kernel

theorem twoKeys_init : (threads (services twoKeys someClients fun _ : Unit =>
    .deleteValkeyKey deleteCart)).init ⟨twoKeys, fun _ => .ret ()⟩ :=
  ⟨rfl, fun _ => rfl⟩

/-- The key is not there at the second `DEL`, and is there again at `EXISTS`. -/
theorem reports_honest_setAgain : ∃ pre,
    Honest twoKeys () pre (.deleteValkeyKey deleteCart) (.deleted (.ok cartReport)) := by
  obtain ⟨s, es, hr, hchk⟩ := Sys.exists_any_run twoKeys_init setAgain_exec
  obtain ⟨pre, r, post, he⟩ := exists_report hchk
  exact ⟨pre, reports_honest hr he⟩

end Remediations
end Tools
end AutoSRE

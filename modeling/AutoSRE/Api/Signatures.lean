import AutoSRE.Api.Approvals
import AutoSRE.Lib.JsonText
import AutoSRE.Python.Render
import Mathlib.Data.List.Basic
import Mathlib.Logic.Function.Basic

/-!
# The signatures of approvals (`api/routes.py`)

- **Signing** (`signApproval`) and **the check** (`verifySignature`, `approveIncident`). A signature
  covers the decision, and nothing of the incident or the interrupt that it is meant for. The MAC
  and the validation of the body are not the repository's (`Webhook`).
- **All incidents** (`console`). Decisions are signed, requests come in, and the incidents and their
  requests take their steps (`Approvals`), in any order.
- **An ideal MAC** (`Unforgeable`). Whoever sends a body with a valid signature has it from somebody
  who holds the secret and has signed that body before.
- **What signatures bind** (`signs_decisions`). Every accepted decision was signed before, but a
  signed decision is accepted for every incident that awaits an approval, and again after it was
  accepted (`accepted_elsewhere`).
-/

namespace AutoSRE
namespace Api

open Lib Py Safety Tools AutoSRE.Core
open Lib.JsonText (codePoints)

/-! ## Texts and bytes -/

abbrev Bytes := List UInt8

/-- The UTF-8 of a text. -/
def utf8 (text : String) : Bytes := text.toList.flatMap String.utf8EncodeChar

/-- A `str` by its code points. Where a variable of the environment is no UTF-8, `os.getenv` gives
lone surrogates. -/
abbrev PyStr := List Nat

/-- There is no lone surrogate in the text. -/
def Encodable (text : PyStr) : Prop := ∀ n ∈ text, n.isValidChar

instance (text : PyStr) : Decidable (Encodable text) :=
  inferInstanceAs (Decidable (∀ n ∈ text, n.isValidChar))

/-- The `UnicodeEncodeError` of a text: it names the first run of lone surrogates. -/
def unicodeEncodeError (text : PyStr) : PyExc :=
  let start := (text.takeWhile fun n => decide n.isValidChar).length
  let run := (text.drop start).takeWhile fun n => !decide n.isValidChar
  let place :=
    match run with
    | [n] => "character '" ++ String.ofList (Json.escapeUnit n) ++ "' in position " ++
        toString start
    | _ => "characters in position " ++ toString start ++ "-" ++ toString (start + run.length - 1)
  .exception "UnicodeEncodeError" ("'utf-8' codec can't encode " ++ place ++
    ": surrogates not allowed")

/-- `text.encode("utf-8")`. -/
def encode (text : PyStr) : Except PyExc Bytes :=
  if Encodable text then .ok (utf8 (String.ofList (text.map Char.ofNat)))
  else .error (unicodeEncodeError text)

/-! ## Signing -/

/-- The secret, and what the routes use of `hmac` and Pydantic. -/
structure Webhook where
  secret : PyStr
  /-- `hmac.new(key, msg, hashlib.sha256).hexdigest()`. -/
  hexdigest : Bytes → Bytes → String
  /-- `ApprovalRequest.model_validate_json`, with the text of its error. -/
  validateJson : Bytes → Except String ApprovalRequest
  hexdigest_ascii : ∀ key msg, ((hexdigest key msg).toList.all fun c => c.toNat < 128) = true

variable (hook : Webhook)

/-- The signature of a body. -/
def Webhook.sign (body : Bytes) : Except PyExc String := do
  let key ← encode hook.secret
  pure ("sha256=" ++ hook.hexdigest key body)

/-- `json.dumps` of the decision, without blanks and not restricted to ASCII. -/
def ApprovalRequest.body (approval : ApprovalRequest) : String :=
  "\x7b\"approved\":" ++ (if approval.approved then "true" else "false") ++ ",\"comment\":" ++
    Json.dumpStr false approval.comment ++ "\x7d"

structure SignedApproval where
  signature : String
  body : String

/-- `POST /api/sign-approval`. -/
def signApproval (approval : ApprovalRequest) : Except PyExc SignedApproval := do
  let signature ← hook.sign (utf8 approval.body)
  pure { signature, body := approval.body }

/-! ## The check -/

/-- `hmac.compare_digest` of two texts: they must be ASCII. -/
def compareDigest (a b : PyStr) : Except PyExc Bool :=
  if (a.all fun n => n < 128) && (b.all fun n => n < 128) then .ok (a == b)
  else .error (.typeError "comparing strings with non-ASCII characters is not supported")

def verifySignature (payload : Bytes) (signature : String) : Except PyExc Bool :=
  match "sha256=".toList.isPrefixOf? signature.toList with
  | none => .ok false
  | some rest => do
    let key ← encode hook.secret
    compareDigest (rest.map Char.toNat) (codePoints (hook.hexdigest key payload))

/-- An answer other than 200. -/
structure HttpError where
  status : Nat
  detail : String

/-- `POST /incidents/{id}/approve`, up to the call of the runner. An exception that is not handled
is answered with 500. -/
def approveIncident (payload : Bytes) (signature : String) : Except HttpError ApprovalRequest :=
  match verifySignature hook payload signature with
  | .error _ => .error ⟨500, "Internal Server Error"⟩
  | .ok false => .error ⟨401, "Invalid webhook signature"⟩
  | .ok true =>
    match hook.validateJson payload with
    | .error text => .error ⟨422, "Invalid approval payload: " ++ text⟩
    | .ok approval => .ok approval

/-! ## All incidents -/

structure Console where
  /-- The bodies that have been signed with the secret. -/
  signed : List Bytes
  incidents : String → Approvals

inductive ConsoleStep where
  /-- An operator has a decision signed, for an incident; the code is not told for which. -/
  | mint (incident : String) (approval : ApprovalRequest)
  /-- Another holder of the secret signs a body, for `/alerts` say. -/
  | sign (body : Bytes)
  /-- Somebody sends a request; the runner finds the state of the incident or not. -/
  | approve (incident : String) (payload : Bytes) (signature : String) (found : Bool)
  /-- A step of an incident or of one of its requests. -/
  | incident (incident : String) (a : ApprovalStep)

inductive ConsoleEvent where
  | minted (incident : String) (approval : ApprovalRequest)
  | signed (body : Bytes)
  | refused (incident : String) (error : HttpError)
  | incident (incident : String) (e : ApprovalEvent)

/-- The incident after a step of its own. -/
def Console.setIncident (s : Console) (incident : String)
    (r : Approvals × List ApprovalEvent) : Console × List ConsoleEvent :=
  ({ s with incidents := Function.update s.incidents incident r.1 }, r.2.map (.incident incident))

def stepConsole (ctx : GraphContext) (s : Console) :
    ConsoleStep → Option (Console × List ConsoleEvent)
  | .mint incident approval =>
    match signApproval hook approval with
    | .error _ => some (s, [.refused incident ⟨500, "Internal Server Error"⟩])
    | .ok signed =>
      some ({ s with signed := s.signed ++ [utf8 signed.body] }, [.minted incident approval])
  | .sign body => some ({ s with signed := s.signed ++ [body] }, [.signed body])
  | .approve incident payload signature found =>
    match approveIncident hook payload signature with
    | .error e => some (s, [.refused incident e])
    | .ok approval =>
      (stepApprovals ctx (s.incidents incident) (.read approval found)).map
        (s.setIncident incident)
  -- A request reads the state only through `approve`.
  | .incident _ (.read _ _) => none
  | .incident incident a =>
    (stepApprovals ctx (s.incidents incident) a).map (s.setIncident incident)

/-- The signatures of a server with all its incidents. -/
def console (ctx : GraphContext) : Sys Console ConsoleStep ConsoleEvent where
  init s := s.signed = [] ∧ ∀ incident, NewApprovals (s.incidents incident)
  step := stepConsole hook ctx

/-- HMAC-SHA256 is an ideal MAC: a body with a valid signature has been signed before. -/
def Unforgeable (s : Console) (a : ConsoleStep) : Prop :=
  ∀ incident payload signature found, a = .approve incident payload signature found →
    hook.sign payload = .ok signature → payload ∈ s.signed

/-- Pydantic reads the decisions back that have been signed. -/
def ReadsBack (es : List ConsoleEvent) : Prop :=
  ∀ incident approval, .minted incident approval ∈ es →
    hook.validateJson (utf8 approval.body) = .ok approval

/-- The decision has been signed. -/
def Signed (es : List ConsoleEvent) (approval : ApprovalRequest) : Prop :=
  (∃ incident, .minted incident approval ∈ es) ∨
    ∃ body, .signed body ∈ es ∧ hook.validateJson body = .ok approval

/-- A decision that was signed for an incident is accepted for another one only when it was signed
for that one too. -/
def BoundToIncident (es : List ConsoleEvent) : Prop :=
  ∀ pre i j approval post, es = pre ++ .incident j (.answered approval true) :: post →
    .minted i approval ∈ pre → .minted j approval ∈ pre

/-- A decision that was accepted is accepted for a later interrupt only when it was signed again. -/
def BoundToInterrupt (es : List ConsoleEvent) : Prop :=
  ∀ pre i approval mid j post payload,
    es = (pre ++ .incident i (.answered approval true) :: mid) ++
      .incident j (.answered approval true) :: post →
    .incident j (.graph (.interrupt payload)) ∈ mid → .minted j approval ∈ mid

/-- What the signatures are for: every accepted decision was signed before. But a signed decision is
accepted for every incident that awaits an approval, whatever was accepted before. -/
structure SignsDecisions (ctx : GraphContext) (es : List ConsoleEvent) (s : Console) : Prop where
  signed : ∀ pre j approval post, es = pre ++ .incident j (.answered approval true) :: post →
    Signed hook pre approval
  anywhere : ∀ i approval j, .minted i approval ∈ es →
    awaitsApproval (s.incidents j).thread.values = true →
    ∃ signed s', signApproval hook approval = .ok signed ∧
      (console hook ctx).exec s [.approve j (utf8 signed.body) signed.signature true,
        .incident j (.decide (s.incidents j).readers.length)] =
      some (s', [.incident j (.answered approval true)])

variable {hook} {ctx : GraphContext}

/-! ## The check of a signature -/

theorem sign_eq_ok {body : Bytes} {signature : String} :
    hook.sign body = .ok signature ↔
      ∃ key, encode hook.secret = .ok key ∧ "sha256=" ++ hook.hexdigest key body = signature := by
  unfold Webhook.sign
  cases encode hook.secret with
  | error exc => exact iff_of_false (fun h => by cases h) (by simp)
  | ok key => simp [bind, Except.bind, pure, Except.pure]

theorem codePoints_injective {s t : List Char} (h : s.map Char.toNat = t.map Char.toNat) : s = t :=
  List.map_injective_iff.mpr (fun _ _ => Char.toNat_inj.mp) h

theorem hexdigest_all (hook : Webhook) (key msg : Bytes) :
    ((codePoints (hook.hexdigest key msg)).all fun n => n < 128) = true := by
  rw [codePoints, List.all_map]
  exact hook.hexdigest_ascii key msg

theorem verifySignature_sign {payload : Bytes} {signature : String}
    (h : hook.sign payload = .ok signature) :
    verifySignature hook payload signature = .ok true := by
  obtain ⟨key, hkey, rfl⟩ := sign_eq_ok.mp h
  have hrest : "sha256=".toList.isPrefixOf? ("sha256=" ++ hook.hexdigest key payload).toList =
      some (hook.hexdigest key payload).toList := by
    rw [List.isPrefixOf?_eq_some_iff_append_eq, String.toList_append]
  have hself := hexdigest_all hook key payload
  simp only [verifySignature, hrest, hkey]
  change compareDigest (codePoints (hook.hexdigest key payload)) _ = _
  rw [compareDigest, hself, Bool.and_self, if_pos rfl, BEq.rfl]

theorem sign_of_verified {payload : Bytes} {signature : String}
    (h : verifySignature hook payload signature = .ok true) :
    hook.sign payload = .ok signature := by
  unfold verifySignature at h
  split at h
  · cases h
  · rename_i rest hrest
    cases hkey : encode hook.secret with
    | error exc =>
      rw [hkey] at h
      cases h
    | ok key =>
      rw [hkey] at h
      change compareDigest _ _ = _ at h
      unfold compareDigest at h
      split at h
      · have hchars : rest = (hook.hexdigest key payload).toList :=
          codePoints_injective (eq_of_beq (Except.ok.inj h))
        refine sign_eq_ok.mpr ⟨key, hkey, String.toList_injective ?_⟩
        rw [String.toList_append, ← hchars]
        exact List.isPrefixOf?_eq_some_iff_append_eq.mp hrest
      · cases h

/-- A request that is let through has a valid signature, and its body is a decision. -/
theorem approved_request {payload : Bytes} {signature : String} {approval : ApprovalRequest}
    (h : approveIncident hook payload signature = .ok approval) :
    hook.sign payload = .ok signature ∧ hook.validateJson payload = .ok approval := by
  unfold approveIncident at h
  split at h
  · cases h
  · cases h
  · rename_i hverified
    split at h
    · cases h
    · rename_i approval' hread
      obtain rfl := Except.ok.inj h
      exact ⟨sign_of_verified hverified, hread⟩

/-- A body with its signature is let through when it is read back. -/
theorem approve_signed {payload : Bytes} {signature : String} {approval : ApprovalRequest}
    (hsign : hook.sign payload = .ok signature) (h : hook.validateJson payload = .ok approval) :
    approveIncident hook payload signature = .ok approval := by
  simp only [approveIncident, verifySignature_sign hsign, h]

theorem signApproval_ok {approval : ApprovalRequest} {signed : SignedApproval}
    (h : signApproval hook approval = .ok signed) :
    hook.sign (utf8 approval.body) = .ok signed.signature ∧ signed.body = approval.body := by
  unfold signApproval at h
  cases hsign : hook.sign (utf8 approval.body) with
  | error exc =>
    rw [hsign] at h
    cases h
  | ok signature =>
    rw [hsign] at h
    cases h
    exact ⟨rfl, rfl⟩

/-! ## Steps -/

section Incident

variable {s s' : Approvals} {a : ApprovalStep} {fs : List ApprovalEvent}

/-- Only a read adds a reader. -/
theorem mem_readers (h : (approvals ctx).step s a = some (s', fs)) {r : Reader}
    (hm : r ∈ s'.readers) : r ∈ s.readers ∨ a = .read r.request true := by
  cases approvals_step h with
  | read request ha =>
    rcases List.mem_append.mp hm with hm | hm
    · exact .inl hm
    · obtain rfl := List.mem_singleton.mp hm
      exact .inr ha
  | accepted ys zs other hs _ | refused ys zs other hs _ =>
    left
    rw [hs]
    rcases List.mem_append.mp hm with hm | hm
    · exact List.mem_append_left _ hm
    · exact List.mem_append_right _ (List.mem_cons_of_mem _ hm)
  | _ => exact .inl hm

/-- Only a reader is accepted. -/
theorem accepted_reader (h : (approvals ctx).step s a = some (s', fs)) {request : ApprovalRequest}
    (hm : .answered request true ∈ fs) : ∃ r ∈ s.readers, r.request = request := by
  cases approvals_step h with
  | accepted ys zs r hs _ =>
    obtain ⟨rfl, -⟩ := ApprovalEvent.answered.inj (List.mem_singleton.mp hm)
    exact ⟨r, by simp [hs], rfl⟩
  | _ => simp at hm

end Incident

variable {s s' : Console} {a : ConsoleStep} {es fs : List ConsoleEvent}

variable (hook ctx) in
/-- What a step does. -/
inductive ConsoleWay (s : Console) (a : ConsoleStep) : Console → List ConsoleEvent → Prop
  | minted (incident : String) (approval : ApprovalRequest) (signed : SignedApproval) :
      signApproval hook approval = .ok signed →
      ConsoleWay s a { s with signed := s.signed ++ [utf8 approval.body] }
        [.minted incident approval]
  | signed (body : Bytes) :
      ConsoleWay s a { s with signed := s.signed ++ [body] } [.signed body]
  | refused (incident : String) (error : HttpError) : ConsoleWay s a s [.refused incident error]
  | moved (incident : String) (b : ApprovalStep) (t : Approvals) (gs : List ApprovalEvent) :
      (approvals ctx).step (s.incidents incident) b = some (t, gs) →
      -- A read has the request from a body with a valid signature.
      (∀ approval, b = .read approval true → ∃ payload signature,
        a = .approve incident payload signature true ∧ hook.sign payload = .ok signature ∧
          hook.validateJson payload = .ok approval) →
      ConsoleWay s a (s.setIncident incident (t, gs)).1 (gs.map (.incident incident))

theorem console_step (h : (console hook ctx).step s a = some (s', fs)) :
    ConsoleWay hook ctx s a s' fs := by
  simp only [console] at h
  cases a with
  | mint incident approval =>
    simp only [stepConsole] at h
    split at h
    · obtain ⟨rfl, rfl⟩ := Prod.mk.inj (Option.some.inj h)
      exact .refused incident _
    · rename_i signed hsigned
      obtain ⟨rfl, rfl⟩ := Prod.mk.inj (Option.some.inj h)
      rw [(signApproval_ok hsigned).2]
      exact .minted incident approval signed hsigned
  | sign body =>
    obtain ⟨rfl, rfl⟩ := Prod.mk.inj (Option.some.inj h)
    exact .signed body
  | approve incident payload signature found =>
    simp only [stepConsole] at h
    split at h
    · rename_i e _
      obtain ⟨rfl, rfl⟩ := Prod.mk.inj (Option.some.inj h)
      exact .refused incident e
    · rename_i approval hok
      obtain ⟨hsign, hread⟩ := approved_request hok
      obtain ⟨⟨t, gs⟩, hstep, he⟩ := Option.map_eq_some_iff.mp h
      obtain ⟨rfl, rfl⟩ := Prod.mk.inj he
      refine .moved incident (.read approval found) t gs hstep fun other hb => ?_
      obtain ⟨rfl, rfl⟩ := ApprovalStep.read.inj hb
      exact ⟨payload, signature, rfl, hsign, hread⟩
  | incident incident b =>
    have hmap : ((approvals ctx).step (s.incidents incident) b).map (s.setIncident incident) =
        some (s', fs) := by
      cases b with
      | read => cases h
      | _ => exact h
    have hread : ∀ approval, b ≠ .read approval true := by
      rintro approval rfl
      cases h
    obtain ⟨⟨t, gs⟩, hstep, he⟩ := Option.map_eq_some_iff.mp hmap
    obtain ⟨rfl, rfl⟩ := Prod.mk.inj he
    exact .moved incident b t gs hstep fun approval hb => absurd hb (hread approval)

/-! ## What was signed -/

theorem Signed.mono {approval : ApprovalRequest} (h : Signed hook es approval) :
    Signed hook (es ++ fs) approval := by
  rcases h with ⟨incident, hm⟩ | ⟨body, hm, hread⟩
  · exact .inl ⟨incident, List.mem_append_left _ hm⟩
  · exact .inr ⟨body, List.mem_append_left _ hm, hread⟩

theorem ReadsBack.prefix (h : ReadsBack hook (es ++ fs)) : ReadsBack hook es :=
  fun incident approval hm => h incident approval (List.mem_append_left _ hm)

/-- The log has the body that was signed. -/
def Logged (es : List ConsoleEvent) (body : Bytes) : Prop :=
  (∃ incident approval, .minted incident approval ∈ es ∧ body = utf8 approval.body) ∨
    .signed body ∈ es

theorem Logged.mono {body : Bytes} (h : Logged es body) : Logged (es ++ fs) body := by
  rcases h with ⟨incident, approval, hm, he⟩ | hm
  · exact .inl ⟨incident, approval, List.mem_append_left _ hm, he⟩
  · exact .inr (List.mem_append_left _ hm)

/-- The decision of a logged body has been signed. -/
theorem Logged.decision {payload : Bytes} (h : Logged es payload) (hback : ReadsBack hook es)
    {approval : ApprovalRequest} (hread : hook.validateJson payload = .ok approval) :
    Signed hook es approval := by
  rcases h with ⟨incident, other, hm, rfl⟩ | hm
  · rw [hback incident other hm] at hread
    obtain rfl := Except.ok.inj hread
    exact .inl ⟨incident, hm⟩
  · exact .inr ⟨payload, hm, hread⟩

variable (hook) in
/-- The log has what was signed, and the requests that the incidents have read were signed. -/
structure Covered (es : List ConsoleEvent) (s : Console) : Prop where
  readers : ∀ j, ∀ r ∈ (s.incidents j).readers, Signed hook es r.request
  signed : ∀ body ∈ s.signed, Logged es body

/-- Another body is signed, and logged. -/
theorem Covered.sign (hi : Covered hook es s) {body : Bytes} (hm : Logged (es ++ fs) body) :
    Covered hook (es ++ fs) { s with signed := s.signed ++ [body] } := by
  refine ⟨fun j r hr => (hi.readers j r hr).mono, fun other ho => ?_⟩
  rcases List.mem_append.mp ho with ho | ho
  · exact (hi.signed other ho).mono
  · obtain rfl := List.mem_singleton.mp ho
    exact hm

theorem covered_step (hi : Covered hook es s) (hback : ReadsBack hook es)
    (hc : Unforgeable hook s a) (h : ConsoleWay hook ctx s a s' fs) :
    Covered hook (es ++ fs) s' := by
  cases h with
  | minted incident approval signed _ =>
    exact hi.sign (.inl ⟨incident, approval, by simp, rfl⟩)
  | signed body => exact hi.sign (.inr (by simp))
  | refused incident error =>
    exact ⟨fun j r hr => (hi.readers j r hr).mono, fun body hb => (hi.signed body hb).mono⟩
  | moved incident b t gs hstep hread =>
    refine ⟨fun j r hr => ?_, fun body hb => (hi.signed body hb).mono⟩
    by_cases hj : j = incident
    · subst hj
      have hr' : r ∈ t.readers := by simpa [Console.setIncident] using hr
      rcases mem_readers hstep hr' with hold | hnew
      · exact (hi.readers j r hold).mono
      · -- The request was read from a body that was signed.
        obtain ⟨payload, signature, rfl, hsign, hok⟩ := hread r.request hnew
        have hlogged := hi.signed payload (hc j payload signature true rfl hsign)
        exact (hlogged.decision hback hok).mono
    · have hr' : r ∈ (s.incidents j).readers := by
        simpa [Console.setIncident, Function.update_of_ne hj] using hr
      exact (hi.readers j r hr').mono

theorem covered_run {n : Nat} (hr : (console hook ctx).Run (Unforgeable hook) n es s)
    (hback : ReadsBack hook es) : Covered hook es s := by
  refine hr.inv (I := fun es s => ReadsBack hook es → Covered hook es s) (fun s hi _ => ?_)
    (fun n es s a s' fs _ hi hc hs hback => ?_) hback
  · obtain ⟨hsigned, hnew⟩ := hi
    refine ⟨fun j r hr => ?_, fun body hb => ?_⟩
    · obtain ⟨-, hreaders, -⟩ := hnew j
      rw [hreaders] at hr
      cases hr
    · rw [hsigned] at hb
      cases hb
  · exact covered_step (hi hback.prefix) hback.prefix hc (console_step hs)

/-- `/api/sign-approval` has an answer for every decision that it has signed. -/
theorem signed_of_minted {C : Console → ConsoleStep → Prop} {n : Nat}
    (hr : (console hook ctx).Run C n es s) {i : String} {approval : ApprovalRequest}
    (hm : .minted i approval ∈ es) : ∃ signed, signApproval hook approval = .ok signed := by
  refine hr.inv (I := fun es _ => .minted i approval ∈ es →
    ∃ signed, signApproval hook approval = .ok signed) (fun _ _ hm => by cases hm) ?_ hm
  intro n es s a s' fs _ ih _ hs hm
  rcases List.mem_append.mp hm with hm | hm
  · exact ih hm
  · cases console_step hs with
    | minted incident approval' signed hsigned =>
      obtain ⟨-, rfl⟩ := ConsoleEvent.minted.inj (List.mem_singleton.mp hm)
      exact ⟨signed, hsigned⟩
    | _ => simp at hm

/-- A request with a signed body is accepted where an approval is awaited. -/
theorem accepted_signed {approval : ApprovalRequest} {signed : SignedApproval}
    (hsigned : signApproval hook approval = .ok signed)
    (hread : hook.validateJson (utf8 approval.body) = .ok approval) {j : String}
    (hawait : awaitsApproval (s.incidents j).thread.values = true) :
    ∃ s', (console hook ctx).exec s [.approve j (utf8 signed.body) signed.signature true,
        .incident j (.decide (s.incidents j).readers.length)] =
      some (s', [.incident j (.answered approval true)]) := by
  obtain ⟨hsign, hbody⟩ := signApproval_ok hsigned
  have hok : approveIncident hook (utf8 signed.body) signed.signature = .ok approval := by
    rw [hbody]
    exact approve_signed hsign hread
  simp [Sys.exec, console, stepConsole, hok, stepApprovals, Console.setIncident, hawait]

/-- In every history every accepted decision was signed before, and every decision that
`/api/sign-approval` has signed is accepted for every incident that awaits an approval. -/
theorem signs_decisions {n : Nat} (hr : (console hook ctx).Run (Unforgeable hook) n es s)
    (hback : ReadsBack hook es) : SignsDecisions hook ctx es s := by
  refine ⟨fun pre j approval post he => ?_, fun i approval j hm hawait => ?_⟩
  · subst he
    obtain ⟨n₁, es₁, s₁, a, s₂, fs, fs₁, fs₂, hr₁, -, hs, hfs, rfl⟩ := hr.split rfl
    rw [List.append_assoc] at hback
    have hi := covered_run hr₁ hback.prefix
    have hm : .incident j (.answered approval true) ∈ fs := by simp [hfs]
    cases console_step hs with
    | moved incident b t gs hstep _ =>
      obtain ⟨g, hg, hge⟩ := List.mem_map.mp hm
      obtain ⟨rfl, rfl⟩ := ConsoleEvent.incident.inj hge
      obtain ⟨r, hreader, rfl⟩ := accepted_reader hstep hg
      exact (hi.readers incident r hreader).mono
    | _ => simp at hm
  · obtain ⟨signed, hsigned⟩ := signed_of_minted hr hm
    obtain ⟨s', hexec⟩ := accepted_signed hsigned (hback i approval hm) hawait
    exact ⟨signed, s', hsigned, hexec⟩

/-! ### The sample decisions -/

/-- An approval with a comment. -/
def sampleApproval : ApprovalRequest := { approved := true, comment := "Looks good" }

/-- The HMAC and the validation of the one body that is sent. -/
def sampleHook : Webhook where
  secret := codePoints "test-secret"
  hexdigest key msg :=
    if key = utf8 "test-secret" ∧ msg = utf8 sampleApproval.body then
      "a856f87bd1fbcd392d60f3bfe1593a7c88a0df163ab72299ba2a397f0cf3e5fd"
    else ""
  validateJson payload :=
    if payload = utf8 sampleApproval.body then .ok sampleApproval else .error "Invalid JSON"
  hexdigest_ascii key msg := by split <;> decide +kernel

/-- The signature of the sample decision. -/
def sampleSignature : String :=
  "sha256=a856f87bd1fbcd392d60f3bfe1593a7c88a0df163ab72299ba2a397f0cf3e5fd"

example : sampleHook.sign (utf8 sampleApproval.body) = .ok sampleSignature := by decide +kernel

example : sampleApproval.body = "\x7b\"approved\":true,\"comment\":\"Looks good\"\x7d" := by
  decide +kernel

/-- New incidents, and nothing signed. -/
def newConsole : Console := { signed := [], incidents := fun _ => newApprovals }

theorem newConsole_new : (console sampleHook flushContext).init newConsole :=
  ⟨rfl, fun _ => newApprovals_new⟩

/-- The step sends no body that has not been signed. -/
def checkSigned (s : Console) : ConsoleStep → Bool
  | .approve _ payload _ _ => s.signed.contains payload
  | _ => true

theorem unforgeable_of_check (s : Console) (a : ConsoleStep) (h : checkSigned s a = true) :
    Unforgeable hook s a := by
  rintro incident payload signature found rfl -
  simpa [checkSigned] using h

/-- No decision is signed but the sample decision for the first incident. -/
def mintsSample : ConsoleEvent → Bool
  | .minted incident approval =>
    incident == "inc-1" && approval.approved && approval.comment == "Looks good"
  | _ => true

/-- A decision is signed. -/
def isMinted : ConsoleEvent → Bool
  | .minted _ _ => true
  | _ => false

theorem eq_sampleApproval {approval : ApprovalRequest} (ha : approval.approved = true)
    (hc : approval.comment = "Looks good") : approval = sampleApproval := by
  cases approval
  simp_all [sampleApproval]

theorem minted_of_mintsSample (h : es.all mintsSample = true) {incident : String}
    {approval : ApprovalRequest} (hm : .minted incident approval ∈ es) :
    incident = "inc-1" ∧ approval = sampleApproval := by
  have hmint := List.all_eq_true.mp h _ hm
  simp only [mintsSample, Bool.and_eq_true, beq_iff_eq] at hmint
  exact ⟨hmint.1.1, eq_sampleApproval hmint.1.2 hmint.2⟩

theorem mem_of_isMinted (h : es.all mintsSample = true) (hm : es.any isMinted = true) :
    .minted "inc-1" sampleApproval ∈ es := by
  obtain ⟨e, hmem, he⟩ := List.any_eq_true.mp hm
  cases e with
  | minted incident approval =>
    obtain ⟨rfl, rfl⟩ := minted_of_mintsSample h hmem
    exact hmem
  | _ => cases he

theorem readsBack_of_mintsSample (h : es.all mintsSample = true) : ReadsBack sampleHook es := by
  intro incident approval hm
  obtain ⟨-, rfl⟩ := minted_of_mintsSample h hm
  simp [sampleHook]

/-- The log accepts the sample decision for an incident at a position. -/
def acceptsAt (k : Nat) (j : String) (es : List ConsoleEvent) : Bool :=
  match es[k]? with
  | some (.incident incident (.answered approval accepted)) =>
    incident == j && approval.approved && approval.comment == "Looks good" && accepted
  | _ => false

theorem split_of_acceptsAt {k : Nat} {j : String} (h : acceptsAt k j es = true) :
    es = es.take k ++ .incident j (.answered sampleApproval true) :: es.drop (k + 1) := by
  unfold acceptsAt at h
  split at h
  · rename_i incident approval accepted hk
    simp only [Bool.and_eq_true, beq_iff_eq] at h
    obtain ⟨⟨⟨rfl, ha⟩, hc⟩, rfl⟩ := h
    obtain rfl := eq_sampleApproval ha hc
    exact Sys.split_of_getElem? hk
  · cases h

/-- The interrupts of an incident. -/
def interrupts (j : String) : ConsoleEvent → Bool
  | .incident incident (.graph (.interrupt _)) => incident == j
  | _ => false

theorem mem_of_interrupts {j : String} (h : es.any (interrupts j) = true) :
    ∃ payload, .incident j (.graph (.interrupt payload)) ∈ es := by
  obtain ⟨e, hm, he⟩ := List.any_eq_true.mp h
  unfold interrupts at he
  split at he
  · rename_i incident payload
    obtain rfl : incident = j := by simpa using he
    exact ⟨payload, hm⟩
  · cases he

/-- An incident up to its interrupt, and a request with the sample decision. -/
def untilAccepted (incident : String) : List ConsoleStep :=
  untilInterrupt.map (.incident incident) ++
    [.approve incident (utf8 sampleApproval.body) sampleSignature true,
      .incident incident (.decide 0)]

/-- A decision that was signed is accepted. -/
theorem signs_decisions_flushAll :
    ∃ n es s, (console sampleHook flushContext).Run (Unforgeable sampleHook) n es s ∧
      acceptsAt 11 "inc-1" es = true ∧ SignsDecisions sampleHook flushContext es s := by
  have hexec : (((console sampleHook flushContext).restrict checkSigned).exec newConsole
      (.mint "inc-1" sampleApproval :: untilAccepted "inc-1")).any
      (fun r => acceptsAt 11 "inc-1" r.2 && r.2.all mintsSample) = true := by
    decide +kernel
  obtain ⟨s, es, hr, hc⟩ := Sys.exists_checked_run unforgeable_of_check newConsole_new hexec
  obtain ⟨haccepts, hmints⟩ := Bool.and_eq_true_iff.mp hc
  exact ⟨_, es, s, hr, haccepts, signs_decisions hr (readsBack_of_mintsSample hmints)⟩

/-- A decision that was signed for one incident is accepted for it, and then at a later interrupt
for another one. -/
theorem accepted_elsewhere :
    ∃ (hook : Webhook) (ctx : GraphContext) (n : Nat) (es : List ConsoleEvent) (s : Console),
      (console hook ctx).Run (Unforgeable hook) n es s ∧ ReadsBack hook es ∧
        ¬ BoundToIncident es ∧ ¬ BoundToInterrupt es := by
  have hexec : (((console sampleHook flushContext).restrict checkSigned).exec newConsole
      (.mint "inc-1" sampleApproval :: (untilAccepted "inc-1" ++ untilAccepted "inc-2"))).any
      (fun r => acceptsAt 11 "inc-1" (r.2.take 22) && acceptsAt 22 "inc-2" r.2 &&
        ((r.2.take 22).drop 12).any (interrupts "inc-2") && (r.2.take 22).any isMinted &&
        r.2.all mintsSample) = true := by
    decide +kernel
  obtain ⟨s, es, hr, hc⟩ := Sys.exists_checked_run unforgeable_of_check newConsole_new hexec
  simp only [Bool.and_eq_true] at hc
  obtain ⟨⟨⟨⟨hfirst, hsecond⟩, hinterrupt⟩, hminted⟩, hmints⟩ := hc
  have hes := split_of_acceptsAt hsecond
  have htake := split_of_acceptsAt hfirst
  have hone : ∀ approval, .minted "inc-2" approval ∉ es := fun approval hm =>
    absurd (minted_of_mintsSample hmints hm).1 (by decide)
  refine ⟨sampleHook, flushContext, _, es, s, hr, readsBack_of_mintsSample hmints,
    fun hbound => ?_, fun hbound => ?_⟩
  · have hmem : .minted "inc-1" sampleApproval ∈ es.take 22 :=
      mem_of_isMinted (List.all_eq_true.mpr fun e he =>
        List.all_eq_true.mp hmints e (List.mem_of_mem_take he)) hminted
    exact hone _ (List.mem_of_mem_take (hbound _ "inc-1" "inc-2" sampleApproval _ hes hmem))
  · obtain ⟨payload, hm⟩ := mem_of_interrupts hinterrupt
    have hagain := hbound _ "inc-1" sampleApproval _ "inc-2" _ payload
      (by rw [← htake]; exact hes) hm
    exact hone _ (List.mem_of_mem_take (List.mem_of_mem_drop hagain))

end Api
end AutoSRE

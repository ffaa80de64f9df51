import AutoSRE.Python.Value
import AutoSRE.Python.Search

/-!
# Deleting a pod (`tools/k8s.py`)

- **API errors** (`ApiError`). What a request to the API server raises, with the attributes that
  `_is_not_found` reads. `answer` is the HTTP status that the error stands for; the code does not
  have it, but an attribute that is 404 is one.
- **The tool** (`deletePod`). A GET, and a DELETE when the pod exists; both failures are looked at
  by `isNotFound`.
- **Honesty** (`Honest`). A pod is reported as gone without a DELETE only for a 404, and any other
  failure is raised. It fails for an error whose text mentions 404, and for no other
  (`honest_iff`).
-/

namespace AutoSRE
namespace Tools

open Py

/-- An exception of the Kubernetes client. -/
structure ApiError where
  /-- `getattr(exc, "status", None)`. -/
  status : Json := .null
  /-- `getattr(getattr(exc, "response", None), "status_code", None)`. -/
  responseStatus : Json := .null
  /-- `str(exc)`. -/
  message : String
  /-- The HTTP status of the answer that the exception stands for, if there was an answer. -/
  answer : Option Nat
  status_true : status.pyEq (.int 404) = true → answer = some 404
  response_true : responseStatus.pyEq (.int 404) = true → answer = some 404

/-- The message mentions a 404. -/
def mentionsNotFound (message : String) : Bool :=
  lowerContains "404" message || lowerContains "not found" message

/-- What a `ToolExecutionError` wraps here. -/
inductive Original where
  | runtimeError (message : String)
  | api (exc : ApiError)

/-- `_is_not_found`. -/
def isNotFound : Original → Bool
  | .runtimeError message => mentionsNotFound message
  | .api exc =>
    exc.status.pyEq (.int 404) || exc.responseStatus.pyEq (.int 404) ||
      mentionsNotFound exc.message

/-- `ToolExecutionError(tool_name, original)`. -/
structure ToolError where
  toolName : String
  original : Original

/-- A request of the tool to the API server. -/
inductive Request where
  | get (name namespace_ : String)
  | delete (name namespace_ : String) (gracePeriodSeconds : Option Nat)

/-- `SREContext.k8s_client`: how each request ends. -/
structure K8sClient where
  answer : Request → Except ApiError Unit

/-- `DeletePodInput`. -/
structure DeletePodInput where
  namespace_ : String
  name : String
  gracePeriodSeconds : Nat := 0
  reason : String
  namespace_len : 1 ≤ namespace_.length ∧ namespace_.length ≤ 253
  name_len : 1 ≤ name.length ∧ name.length ≤ 253
  grace_le : gracePeriodSeconds ≤ 300
  reason_len : 1 ≤ reason.length ∧ reason.length ≤ 500

/-- `DeletePodOutput`. -/
structure DeletePodOutput where
  name : String
  namespace_ : String
  deleted : Bool
  reason : String
  success : Bool := true
  verificationPassed : Option Bool := none
  deriving DecidableEq

/-- `_k8s_client`. -/
def k8sClient : Option K8sClient → Except ToolError K8sClient
  | some client => .ok client
  | none =>
    .error ⟨"k8s._k8s_client", .runtimeError "SREContext.k8s_client is not initialised"⟩

/-- `_get_pod`. -/
def getPod (client : K8sClient) (name namespace_ toolName : String) : Except ToolError Unit :=
  (client.answer (.get name namespace_)).mapError fun exc => ⟨toolName, .api exc⟩

/-- The DELETE of the call. -/
def deleteRequest (args : DeletePodInput) : Request :=
  .delete args.name args.namespace_ (if args.gracePeriodSeconds = 0 then some 0 else none)

/-- The output of a call that ends with the pod deleted or absent. -/
def deletedOutput (args : DeletePodInput) (verificationPassed : Option Bool) : DeletePodOutput where
  name := args.name
  namespace_ := args.namespace_
  deleted := true
  reason := args.reason
  verificationPassed := verificationPassed

/-- `_delete_pod`, with a client. -/
def deletePodWith (client : K8sClient) (args : DeletePodInput) : Except ToolError DeletePodOutput :=
  match getPod client args.name args.namespace_ "delete_pod" with
  | .error exc =>
    if isNotFound exc.original then .ok (deletedOutput args (some true)) else .error exc
  | .ok () =>
    match client.answer (deleteRequest args) with
    | .error exc =>
      if isNotFound (.api exc) then .ok (deletedOutput args (some true))
      else .error ⟨"delete_pod", .api exc⟩
    | .ok () => .ok (deletedOutput args none)

/-- `_delete_pod`. -/
def deletePod (client : Option K8sClient) (args : DeletePodInput) :
    Except ToolError DeletePodOutput :=
  match k8sClient client with
  | .error exc => .error exc
  | .ok client => deletePodWith client args

theorem deletePod_some (client : K8sClient) (args : DeletePodInput) :
    deletePod (some client) args = deletePodWith client args := rfl

/-- The exception that the call runs into: of the GET, or else of the DELETE. -/
def failure (client : K8sClient) (args : DeletePodInput) : Option ApiError :=
  match client.answer (.get args.name args.namespace_), client.answer (deleteRequest args) with
  | .error exc, _ => some exc
  | .ok (), .error exc => some exc
  | .ok (), .ok () => none

/-- The exception is an HTTP 404 of the pod that the call is about. -/
def ApiError.IsNotFound (exc : ApiError) : Prop := exc.answer = some 404

instance (exc : ApiError) : Decidable exc.IsNotFound := inferInstanceAs (Decidable (_ = _))

/-- A failed call ends as the test of its exception says. -/
theorem deletePod_of_failure {client : K8sClient} {args : DeletePodInput} {exc : ApiError}
    (h : failure client args = some exc) :
    deletePod (some client) args =
      if isNotFound (.api exc) then .ok (deletedOutput args (some true))
      else .error ⟨"delete_pod", .api exc⟩ := by
  unfold failure at h
  rw [deletePod_some, deletePodWith, getPod]
  split at h
  · rename_i hget
    cases h
    rw [hget]
    rfl
  · rename_i hget hdelete
    cases h
    rw [hget, hdelete]
    rfl
  · cases h

/-- A call without a failure has sent the DELETE, and leaves the verification open. -/
theorem deletePod_of_no_failure {client : K8sClient} {args : DeletePodInput}
    (h : failure client args = none) :
    client.answer (deleteRequest args) = .ok () ∧
      deletePod (some client) args = .ok (deletedOutput args none) := by
  unfold failure at h
  rw [deletePod_some, deletePodWith, getPod]
  split at h
  · cases h
  · cases h
  · rename_i hget hdelete
    rw [hget, hdelete]
    exact ⟨rfl, rfl⟩

/-- The test is right on an exception that is a 404 or does not mention one. -/
theorem isNotFound_iff {exc : ApiError} (h : exc.IsNotFound ∨ mentionsNotFound exc.message = false)
    (hf : isNotFound (.api exc) = true) : exc.IsNotFound := by
  rcases h with h | h
  · exact h
  · simp only [isNotFound, h, Bool.or_false, Bool.or_eq_true] at hf
    exact hf.elim exc.status_true exc.response_true

/-- What the call promises: a pod reported as gone was answered with a 404 (a successful DELETE
leaves the verification open), and any other failure is raised as it is. -/
structure Honest (client : K8sClient) (args : DeletePodInput) : Prop where
  gone : ∀ out, deletePod (some client) args = .ok out → out.deleted = true →
    out.verificationPassed = some true →
    ∃ exc, failure client args = some exc ∧ exc.IsNotFound
  raised : ∀ exc, failure client args = some exc → ¬ exc.IsNotFound →
    deletePod (some client) args = .error ⟨"delete_pod", .api exc⟩

/-- The call is honest exactly when its exception is a 404 or does not mention one. -/
theorem honest_iff (client : K8sClient) (args : DeletePodInput) :
    Honest client args ↔
      ∀ exc, failure client args = some exc →
        exc.IsNotFound ∨ mentionsNotFound exc.message = false := by
  constructor
  · intro h exc hexc
    by_cases h404 : exc.IsNotFound
    · exact .inl h404
    · have hraised := h.raised exc hexc h404
      rw [deletePod_of_failure hexc] at hraised
      split at hraised
      · cases hraised
      · rename_i hf
        simp only [isNotFound, Bool.or_eq_true, not_or, Bool.not_eq_true] at hf
        exact .inr hf.2
  · intro h
    constructor
    · intro out hout _ hv
      cases hfail : failure client args with
      | none =>
        rw [(deletePod_of_no_failure hfail).2] at hout
        cases hout
        cases hv
      | some exc =>
        rw [deletePod_of_failure hfail] at hout
        split at hout
        · rename_i hf
          exact ⟨exc, rfl, isNotFound_iff (h exc hfail) hf⟩
        · cases hout
    · intro exc hexc h404
      rw [deletePod_of_failure hexc, if_neg fun hf => h404 (isNotFound_iff (h exc hexc) hf)]

/-- A GET that is forbidden, with a message that has the name of the pod. -/
def forbiddenError : ApiError where
  status := .str "Failure"
  responseStatus := .int 403
  message := "pods \"web-404\" is forbidden: User \"sre\" cannot get resource \"pods\""
  answer := some 403
  status_true := fun h => by cases h
  response_true := fun h => by revert h; decide

/-- The pod `web-404`, which the agent may not read, is reported as deleted and verified. -/
theorem forbidden_reported_deleted :
    ∃ (client : K8sClient) (args : DeletePodInput), ¬ Honest client args ∧
      failure client args = some forbiddenError ∧ ¬ forbiddenError.IsNotFound ∧
      deletePod (some client) args = .ok (deletedOutput args (some true)) := by
  let client : K8sClient := ⟨fun _ => .error forbiddenError⟩
  let args : DeletePodInput :=
    { namespace_ := "prod", name := "web-404", reason := "crash loop"
      namespace_len := by decide, name_len := by decide, grace_le := by decide
      reason_len := by decide }
  have hfail : failure client args = some forbiddenError := rfl
  have h403 : ¬ forbiddenError.IsNotFound := by decide
  have hmention : mentionsNotFound forbiddenError.message = true := by decide +kernel
  refine ⟨client, args, fun h => ?_, hfail, h403, ?_⟩
  · have hraised := h.raised _ hfail h403
    rw [deletePod_of_failure hfail, isNotFound, hmention, Bool.or_true] at hraised
    cases hraised
  · rw [deletePod_of_failure hfail, isNotFound, hmention, Bool.or_true]
    rfl

end Tools
end AutoSRE

import AutoSRE.Api.Signatures
import AutoSRE.Python.Text

/-!
# The checks of credentials (`api/routes.py`, `api/middleware.py`)

- **The checks**. A signature (`verifySignature`), the admin secret (`requireAdminSecret`) and the
  API key (`ApiKeyMiddleware.call`). A missing header is an empty one.
- **A decision** (`Verdict`). A check that is right accepts the expected credential and rejects
  every other one (`decided`).
- **The exact conditions** (`authenticators_iff`). The first two checks compare texts, so they raise
  an exception for a credential that is not ASCII; the third compares bytes. The webhook secret and
  the API key are encoded, which fails if they have a lone surrogate.
-/

namespace AutoSRE
namespace Api

open Py
open Lib.JsonText (codePoints)

/-! ## The admin secret -/

/-- What a check ends with, when it does not return. -/
inductive AuthError where
  | http (error : HttpError)
  | raised (exc : PyExc)

/-- `_require_admin_secret`, with the configured secret and the `X-Admin-Secret` header. -/
def requireAdminSecret (secret : Option PyStr) (provided : String) : Except AuthError Unit :=
  match secret with
  | none => .error (.http ⟨503, "Admin endpoints are disabled (no secret configured)"⟩)
  | some secret =>
    if provided = "" then .error (.http ⟨401, "Missing admin secret"⟩)
    else
      match compareDigest (codePoints provided) secret with
      | .error exc => .error (.raised exc)
      | .ok false => .error (.http ⟨401, "Invalid admin secret"⟩)
      | .ok true => .ok ()

/-! ## The API key -/

/-- `_PUBLIC_PATHS`. -/
def publicPaths : List String := ["/healthz", "/readyz", "/docs", "/redoc", "/openapi.json"]

/-- `_exempt_prefixes`. -/
def exemptPrefixes : List String := ["/alerts", "/admin"]

/-- `path.startswith(start)`. -/
def startsWith (start path : String) : Bool := start.toList.isPrefixOf path.toList

/-- `path.endswith(ending)`. -/
def endsWith (ending path : String) : Bool := ending.toList.isSuffixOf path.toList

/-- `_is_protected`. -/
def isProtected (path method : String) : Bool :=
  if method = "OPTIONS" then false
  else if path ∈ publicPaths then false
  else if exemptPrefixes.any fun p => startsWith p path then false
  else
    let effectiveMethod := if method = "HEAD" then "GET" else method
    if path = "/api/sign-approval" then effectiveMethod == "POST"
    else if path = "/incidents" then effectiveMethod == "GET"
    else if startsWith "/incidents/" path && endsWith "/report" path then effectiveMethod == "GET"
    else if startsWith "/metrics/" path then effectiveMethod == "GET"
    else false

/-- What the middleware reads of a request. The method is an ASCII token. -/
structure Scope where
  type : String
  path : String := ""
  method : String := "GET"
  /-- The `x-api-key` header. -/
  apiKey : String := ""

/-- An answer of the middleware itself. -/
structure JsonResponse where
  status : Nat
  detail : String
  headers : List (String × String)
  deriving DecidableEq

/-- White space, by its code point. -/
def isSpacePoint (n : Nat) : Bool := decide n.isValidChar && isSpace (Char.ofNat n)

/-- `text.strip()`. -/
def stripPoints (text : PyStr) : PyStr :=
  ((text.dropWhile isSpacePoint).reverse.dropWhile isSpacePoint).reverse

/-- The middleware with its key. -/
structure ApiKeyMiddleware where
  apiKey : PyStr

namespace ApiKeyMiddleware

/-- `__init__`, with the argument and `AUTOSRE_API_KEY`. -/
def init (apiKey : Option PyStr) (env : PyStr) : ApiKeyMiddleware :=
  ⟨stripPoints (apiKey.getD env)⟩

/-- The answer to a request that is not authenticated. -/
def unauthorized : JsonResponse :=
  ⟨401, "Invalid or missing API key", [("WWW-Authenticate", "ApiKey")]⟩

/-- `provided and hmac.compare_digest(provided.encode("utf-8"), self._api_key.encode("utf-8"))`. -/
def authenticates (mw : ApiKeyMiddleware) (provided : String) : Except PyExc Bool :=
  if provided = "" then .ok false
  else do
    let given ← encode (codePoints provided)
    let key ← encode mw.apiKey
    pure (given == key)

/-- `__call__`: the request is passed on to the application (`none`), or answered. -/
def call (mw : ApiKeyMiddleware) (scope : Scope) : Except PyExc (Option JsonResponse) :=
  if scope.type ≠ "http" ∨ mw.apiKey = [] then .ok none
  else if !isProtected scope.path scope.method.toUpper then .ok none
  else do
    if ← mw.authenticates scope.apiKey then pure none else pure (some unauthorized)

/-- The requests that need the key. -/
def Guards (mw : ApiKeyMiddleware) (scope : Scope) : Prop :=
  scope.type = "http" ∧ mw.apiKey ≠ [] ∧ isProtected scope.path scope.method.toUpper = true

end ApiKeyMiddleware

/-! ## Decisions -/

/-- How a check of a credential ends. -/
inductive Verdict where
  | accepted
  /-- `False`, or the status 401. -/
  | rejected
  /-- Another status. -/
  | unavailable
  | crashed (exc : PyExc)
  deriving DecidableEq

/-- The decision on a credential, or on none; there may be none to expect. -/
def decided (presented expected : Option PyStr) : Verdict :=
  if presented.isSome ∧ presented = expected then .accepted else .rejected

/-- An empty header presents no credential. -/
def presented (header : String) : Option PyStr :=
  if header = "" then none else some (codePoints header)

/-- The signature of a body. -/
def expectedSignature (hook : Webhook) (payload : Bytes) : Option PyStr :=
  match hook.sign payload with
  | .ok signature => some (codePoints signature)
  | .error _ => none

def signatureVerdict : Except PyExc Bool → Verdict
  | .ok true => .accepted
  | .ok false => .rejected
  | .error exc => .crashed exc

def adminVerdict : Except AuthError Unit → Verdict
  | .ok () => .accepted
  | .error (.http e) => if e.status = 401 then .rejected else .unavailable
  | .error (.raised exc) => .crashed exc

def apiKeyVerdict : Except PyExc (Option JsonResponse) → Verdict
  | .ok none => .accepted
  | .ok (some e) => if e.status = 401 then .rejected else .unavailable
  | .error exc => .crashed exc

/-- The text is ASCII. -/
def IsAscii (text : PyStr) : Prop := (text.all fun n => n < 128) = true

instance (text : PyStr) : Decidable (IsAscii text) := inferInstanceAs (Decidable (_ = true))

/-! ## Comparisons -/

theorem codePoints_inj {a b : String} : codePoints a = codePoints b ↔ a = b :=
  ⟨fun h => String.toList_injective (codePoints_injective h), congrArg codePoints⟩

theorem compareDigest_ascii {a b : PyStr} (ha : IsAscii a) (hb : IsAscii b) :
    compareDigest a b = .ok (a == b) := by
  unfold IsAscii at ha hb
  rw [compareDigest, ha, hb, Bool.and_self, if_pos rfl]

theorem compareDigest_raises {a b : PyStr} (h : ¬ (IsAscii a ∧ IsAscii b)) :
    ∃ exc, compareDigest a b = .error exc := by
  refine ⟨_, if_neg ?_⟩
  rwa [Bool.and_eq_true]

/-- The encoding loses nothing. -/
theorem utf8_injective {a b : String} (h : utf8 a = utf8 b) : a = b := by
  rw [← String.toByteArray_inj, ← String.utf8Encode_toList, ← String.utf8Encode_toList]
  exact congrArg List.toByteArray h

/-- The text of a `String` can be encoded. -/
theorem encode_codePoints (a : String) : encode (codePoints a) = .ok (utf8 a) := by
  have hvalid : Encodable (codePoints a) := by
    intro n hn
    obtain ⟨c, -, rfl⟩ := List.mem_map.mp hn
    exact c.valid
  have hchars : (codePoints a).map Char.ofNat = a.toList := by
    rw [codePoints, List.map_map]
    simp [Function.comp_def]
  rw [encode, if_pos hvalid, hchars, String.ofList_toList]

/-- A text that can be encoded is that of a `String`. -/
theorem Encodable.exists_codePoints {text : PyStr} (h : Encodable text) :
    ∃ a, codePoints a = text := by
  refine ⟨String.ofList (text.map Char.ofNat), ?_⟩
  rw [codePoints, String.toList_ofList, List.map_map]
  refine (List.map_congr_left fun n hn => ?_).trans (List.map_id text)
  have hvalid : Char.ofNat n = Char.ofNatAux n (h n hn) := dif_pos (h n hn)
  rw [Function.comp_apply, hvalid]
  exact UInt32.toNat_ofNatLT

theorem encode_raises {text : PyStr} (h : ¬ Encodable text) :
    encode text = .error (unicodeEncodeError text) := if_neg h

/-! ## The three checks -/

theorem startsWith_iff {start path : String} :
    startsWith start path = true ↔ ∃ rest, start.toList.isPrefixOf? path.toList = some rest := by
  rw [startsWith, List.isPrefixOf_iff_prefix]
  constructor
  · rintro ⟨rest, h⟩
    exact ⟨rest, List.isPrefixOf?_eq_some_iff_append_eq.mpr h⟩
  · rintro ⟨rest, h⟩
    exact ⟨rest, List.isPrefixOf?_eq_some_iff_append_eq.mp h⟩

theorem decided_ne_crashed (p expected : Option PyStr) (exc : PyExc) :
    decided p expected ≠ .crashed exc := by
  unfold decided
  split <;> exact Verdict.noConfusion

/-- A signature is accepted if it is the expected one. -/
theorem signatureVerdict_ok {hook : Webhook} {payload : Bytes} {signature : String} {b : Bool}
    (h : verifySignature hook payload signature = .ok b) :
    signatureVerdict (verifySignature hook payload signature) =
      decided (presented signature) (expectedSignature hook payload) := by
  cases b with
  | true =>
    have hsign := sign_of_verified h
    have hne : signature ≠ "" := by
      rintro rfl
      obtain ⟨key, -, heq⟩ := sign_eq_ok.mp hsign
      have hchars := congrArg String.toList heq
      rw [String.toList_append] at hchars
      cases hchars
    rw [h, expectedSignature, hsign, presented, if_neg hne, decided, if_pos ⟨rfl, rfl⟩,
      signatureVerdict]
  | false =>
    rw [h, signatureVerdict, decided, if_neg]
    rintro ⟨hsome, heq⟩
    unfold presented at hsome heq
    split at heq
    · next hempty =>
      rw [if_pos hempty] at hsome
      cases hsome
    · unfold expectedSignature at heq
      split at heq
      · rename_i signature' hsign
        obtain rfl := codePoints_inj.mp (Option.some.inj heq)
        rw [verifySignature_sign hsign] at h
        cases h
      · cases heq

theorem signature_right_iff (hook : Webhook) (payload : Bytes) (signature : String) :
    signatureVerdict (verifySignature hook payload signature) =
        decided (presented signature) (expectedSignature hook payload) ↔
      (startsWith "sha256=" signature = true →
        IsAscii (codePoints signature) ∧ Encodable hook.secret) := by
  cases hrest : "sha256=".toList.isPrefixOf? signature.toList with
  | none =>
    have hstart : startsWith "sha256=" signature ≠ true := by
      intro h
      obtain ⟨rest, h⟩ := startsWith_iff.mp h
      rw [hrest] at h
      cases h
    have hverify : verifySignature hook payload signature = .ok false := by
      rw [verifySignature, hrest]
    exact iff_of_true (signatureVerdict_ok hverify) fun h => absurd h hstart
  | some rest =>
    have hstart : startsWith "sha256=" signature = true := startsWith_iff.mpr ⟨rest, hrest⟩
    have hchars := List.isPrefixOf?_eq_some_iff_append_eq.mp hrest
    -- The prefix is ASCII, so the rest decides.
    have hascii : IsAscii (codePoints signature) ↔ IsAscii (rest.map Char.toNat) := by
      rw [IsAscii, IsAscii, codePoints, ← hchars, List.map_append, List.all_append]
      exact Bool.eq_iff_iff.mp (Bool.true_and _)
    simp only [hstart, true_imp_iff, hascii]
    by_cases hsecret : Encodable hook.secret
    · have hkey : encode hook.secret = .ok (utf8 (String.ofList (hook.secret.map Char.ofNat))) :=
        if_pos hsecret
      have hverify : verifySignature hook payload signature =
          compareDigest (rest.map Char.toNat)
            (codePoints (hook.hexdigest (utf8 (String.ofList (hook.secret.map Char.ofNat)))
              payload)) := by
        simp only [verifySignature, hrest, hkey]
        rfl
      by_cases h : IsAscii (rest.map Char.toNat)
      · rw [compareDigest_ascii h (hexdigest_all hook _ payload)] at hverify
        exact iff_of_true (signatureVerdict_ok hverify) ⟨h, hsecret⟩
      · obtain ⟨exc, hexc⟩ := compareDigest_raises (fun hboth => h hboth.1)
        rw [hverify, hexc]
        exact iff_of_false (fun hcrash => decided_ne_crashed _ _ exc hcrash.symm)
          fun hboth => h hboth.1
    · have hverify : verifySignature hook payload signature =
          .error (unicodeEncodeError hook.secret) := by
        simp only [verifySignature, hrest, encode_raises hsecret]
        rfl
      rw [hverify]
      exact iff_of_false (fun hcrash => decided_ne_crashed _ _ _ hcrash.symm)
        fun hboth => hsecret hboth.2

theorem admin_right_iff (secret : PyStr) (provided : String) :
    adminVerdict (requireAdminSecret (some secret) provided) =
        decided (presented provided) (some secret) ↔
      (provided ≠ "" → IsAscii (codePoints provided) ∧ IsAscii secret) := by
  by_cases hp : provided = ""
  · subst hp
    simp [requireAdminSecret, adminVerdict, decided, presented]
  · have hpresented : presented provided = some (codePoints provided) := if_neg hp
    rw [hpresented]
    simp only [requireAdminSecret, if_neg hp]
    by_cases h : IsAscii (codePoints provided) ∧ IsAscii secret
    · rw [compareDigest_ascii h.1 h.2]
      by_cases heq : codePoints provided = secret
      · simp [heq, adminVerdict, decided, h.2]
      · have hne : (codePoints provided == secret) = false := beq_false_of_ne heq
        simp [hne, heq, adminVerdict, decided, h]
    · obtain ⟨exc, hexc⟩ := compareDigest_raises h
      rw [hexc]
      simp only [adminVerdict, h, imp_false, not_not, hp, iff_false]
      exact fun hcrash => decided_ne_crashed _ _ exc hcrash.symm

theorem call_guarded {mw : ApiKeyMiddleware} {scope : Scope} (h : mw.Guards scope) :
    mw.call scope = (mw.authenticates scope.apiKey).map fun ok =>
      if ok then none else some ApiKeyMiddleware.unauthorized := by
  obtain ⟨hhttp, hkey, hprotected⟩ := h
  rw [ApiKeyMiddleware.call, if_neg (by simp [hhttp, hkey]), if_neg (by simp [hprotected])]
  cases mw.authenticates scope.apiKey with
  | error exc => rfl
  | ok b => cases b <;> rfl

theorem apiKey_right_iff (mw : ApiKeyMiddleware) (scope : Scope) (h : mw.Guards scope) :
    apiKeyVerdict (mw.call scope) = decided (presented scope.apiKey) (some mw.apiKey) ↔
      (scope.apiKey ≠ "" → Encodable mw.apiKey) := by
  rw [call_guarded h]
  by_cases hp : scope.apiKey = ""
  · simp [ApiKeyMiddleware.authenticates, hp, presented, decided, Except.map, apiKeyVerdict,
      ApiKeyMiddleware.unauthorized]
  · have hpresented : presented scope.apiKey = some (codePoints scope.apiKey) := if_neg hp
    rw [hpresented, ApiKeyMiddleware.authenticates, if_neg hp, encode_codePoints]
    by_cases hkey : Encodable mw.apiKey
    · obtain ⟨key, hkey'⟩ := hkey.exists_codePoints
      rw [← hkey', encode_codePoints]
      refine iff_of_true ?_ fun _ => hkey' ▸ hkey
      by_cases heq : scope.apiKey = key
      · simp [heq, bind, Except.bind, pure, Except.pure, Except.map, apiKeyVerdict, decided]
      · have hbytes : (utf8 scope.apiKey == utf8 key) = false :=
          beq_false_of_ne fun h => heq (utf8_injective h)
        simp [heq, hbytes, codePoints_inj, bind, Except.bind, pure, Except.pure, Except.map,
          apiKeyVerdict, decided, ApiKeyMiddleware.unauthorized]
    · rw [encode_raises hkey]
      refine iff_of_false (fun hcrash => ?_) fun himp => hkey (himp hp)
      exact decided_ne_crashed _ _ _ hcrash.symm

/-- The three checks decide whether the credential is the expected one if and only if: a signature
with the prefix is ASCII, and the webhook secret can be encoded; the admin secret and a header that
is not empty are ASCII; and the API key can be encoded, if a guarded request has one. -/
theorem authenticators_iff (hook : Webhook) (payload : Bytes) (signature : String)
    (secret : PyStr) (provided : String) (mw : ApiKeyMiddleware) (scope : Scope) :
    (signatureVerdict (verifySignature hook payload signature) =
        decided (presented signature) (expectedSignature hook payload) ∧
      adminVerdict (requireAdminSecret (some secret) provided) =
        decided (presented provided) (some secret) ∧
      (mw.Guards scope →
        apiKeyVerdict (mw.call scope) = decided (presented scope.apiKey) (some mw.apiKey))) ↔
    (startsWith "sha256=" signature = true →
        IsAscii (codePoints signature) ∧ Encodable hook.secret) ∧
      (provided ≠ "" → IsAscii (codePoints provided) ∧ IsAscii secret) ∧
      (mw.Guards scope → scope.apiKey ≠ "" → Encodable mw.apiKey) := by
  rw [signature_right_iff, admin_right_iff]
  have hkey := apiKey_right_iff mw scope
  constructor
  · rintro ⟨hsignature, hadmin, hmiddleware⟩
    exact ⟨hsignature, hadmin, fun hg => (hkey hg).mp (hmiddleware hg)⟩
  · rintro ⟨hsignature, hadmin, hencodable⟩
    exact ⟨hsignature, hadmin, fun hg => (hkey hg).mpr (hencodable hg)⟩

/-- With ASCII credentials the three checks are right; the API key need not be ASCII. -/
theorem authenticators_ascii :
    let mw := ApiKeyMiddleware.init (some (codePoints " k ")) []
    signatureVerdict (verifySignature sampleHook (utf8 sampleApproval.body) "sha256=0") =
        decided (presented "sha256=0") (expectedSignature sampleHook (utf8 sampleApproval.body)) ∧
      adminVerdict (requireAdminSecret (some (codePoints "s")) "s") =
        decided (presented "s") (some (codePoints "s")) ∧
      apiKeyVerdict (mw.call { type := "http", path := "/incidents", apiKey := "é" }) =
        decided (presented "é") (some mw.apiKey) := by
  intro mw
  have h := (authenticators_iff sampleHook (utf8 sampleApproval.body) "sha256=0" (codePoints "s")
    "s" mw { type := "http", path := "/incidents", apiKey := "é" }).mpr
    ⟨fun _ => ⟨by decide +kernel, by decide +kernel⟩,
      fun _ => ⟨by decide +kernel, by decide +kernel⟩, fun _ _ => by decide +kernel⟩
  exact ⟨h.1, h.2.1, h.2.2 ⟨rfl, by decide +kernel, by decide +kernel⟩⟩

/-- A signature and an admin secret with `é`, which a header can have, raise an exception. -/
theorem latin1_credentials_crash :
    ¬ ∀ (hook : Webhook) (payload : Bytes) (signature : String) (secret : PyStr)
      (provided : String) (mw : ApiKeyMiddleware) (scope : Scope),
      signatureVerdict (verifySignature hook payload signature) =
          decided (presented signature) (expectedSignature hook payload) ∧
        adminVerdict (requireAdminSecret (some secret) provided) =
          decided (presented provided) (some secret) ∧
        (mw.Guards scope →
          apiKeyVerdict (mw.call scope) =
            decided (presented scope.apiKey) (some mw.apiKey)) := by
  intro hall
  have h := hall sampleHook (utf8 sampleApproval.body) "sha256=é" (codePoints "s") "é" ⟨[]⟩
    { type := "http" }
  exact absurd h.1 (by decide +kernel)

/-- A key of a byte that is no UTF-8 raises an exception for every request that presents one. -/
example : (ApiKeyMiddleware.init none [0xdcff]).call
    { type := "http", path := "/incidents", apiKey := "k" } = .error (.exception
      "UnicodeEncodeError"
      "'utf-8' codec can't encode character '\\udcff' in position 0: surrogates not allowed") := by
  decide +kernel

end Api
end AutoSRE

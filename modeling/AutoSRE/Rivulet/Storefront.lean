import AutoSRE.Python.Float
import AutoSRE.Rivulet.Idempotency
import Mathlib.Algebra.Order.Ring.Unbundled.Rat
import Mathlib.Data.List.DropRight

/-!
# The storefront (`CheckoutForm`, `CheckoutPage`, `RivuletApi`)

The tabs in which a shop is open, in front of the pipeline.

- **The form** (`Tab`). It draws a request id for its first submission and keeps it while the
  submission fails; an edit or a receipt drops it. The button is disabled while a request is in
  flight.
- **The network** (`storefront`). What a tab has sent arrives any number of times, or never; the tab
  sees an acceptance or an error. Other clients of the gateway may send any request id.
- **What the forms send** (`Formed`). A request id stands for one submission, and a form that is not
  renewed sends it again.
-/

namespace AutoSRE
namespace Rivulet

open Lib Py

/-! ## The form -/

/-- The white space and the line terminators of `String.prototype.trim`. -/
def isJsSpace (c : Char) : Bool :=
  [0x20, 0xa0, 0x1680, 0x2028, 0x2029, 0x202f, 0x205f, 0x3000, 0xfeff].contains c.toNat ||
    (0x09 ≤ c.toNat && c.toNat ≤ 0x0d) || (0x2000 ≤ c.toNat && c.toNat ≤ 0x200a)

def trimChars (cs : List Char) : List Char := (cs.dropWhile isJsSpace).rdropWhile isJsSpace

/-- `String.prototype.trim`. -/
def trim (s : String) : String := String.ofList (trimChars s.toList)

/-- `Number(text)` of the text of a number input, which is empty or a decimal literal. -/
def number (text : String) : PyFloat :=
  let cs := trimChars text.toList
  if cs.isEmpty then .zero
  else if cs.all fun c => c.isDigit || ['.', 'e', 'E', '+', '-'].contains c then
    let (neg, cs) := takeSign cs
    match PyFloat.decimalLiteral cs with
    | some q => .ofRat (if neg then -q else q)
    | none => .nan
  else .nan

/-- The number, if it is a positive integer. -/
def parsedQuantity (text : String) : Option Int :=
  match number text with
  | .finite q => if q.den = 1 ∧ 0 < q then some q.num else none
  | _ => none

/-- The state of `CheckoutForm` and of `CheckoutPage`. -/
structure Tab where
  userId : String
  selectedSku : String
  quantity : String
  requestId : Option String
  /-- The event id of the receipt. -/
  success : Option String
  /-- The request in flight. The page keeps only that there is one. -/
  loading : Option Nat
  error : Option String

/-- The first of `PRESET_SKUS`. -/
def firstSku : String := "LAPTOP-PRO-16"

/-- The page is opened, or loaded again. -/
def Tab.opened (user : Uuid) : Tab where
  userId := Uuid.text user
  selectedSku := firstSku
  quantity := "1"
  requestId := none
  success := none
  loading := none
  error := none

/-- The input of a field. -/
inductive Edit where
  | userId (value : String)
  | sku (value : String)
  | quantity (value : String)

/-- `handleUserIdChange`, `handleSkuChange` and `handleQuantityChange`. -/
def Tab.edit (t : Tab) : Edit → Tab
  | .userId value => { t with userId := value, requestId := none, success := none }
  | .sku value => { t with selectedSku := value, requestId := none, success := none }
  | .quantity value => { t with quantity := value, requestId := none, success := none }

/-- `regenerateUserId`. -/
def Tab.regenerateUserId (t : Tab) (user : Uuid) : Tab :=
  { t with userId := Uuid.text user, requestId := none, success := none }

/-- What `handleSubmit` gives to `onSubmit`; `none` when it returns before. -/
def Tab.order (t : Tab) : Option (String × String × Int) :=
  if trim t.userId = "" then none
  else if trim t.selectedSku = "" then none
  else (parsedQuantity t.quantity).map fun quantity => (trim t.userId, trim t.selectedSku, quantity)

/-- The request of `RivuletApi.checkout`: the user of its path, its body and its `X-Request-ID`. -/
structure Submission where
  userId : String
  sku : String
  quantity : Int
  requestId : String
deriving DecidableEq

/-- `RivuletApi.checkout`, up to `fetch`. -/
def apiCheckout (userId sku : String) (quantity : Int) (requestId generated : String) :
    Except String Submission :=
  if trim userId = "" then .error "User ID is required"
  else if trim sku = "" then .error "SKU is required"
  else if quantity ≤ 0 then .error "Quantity must be a positive integer"
  else .ok ⟨trim userId, trim sku, quantity,
    if trim requestId = "" then generated else trim requestId⟩

/-- The request as the controller gets it. Jackson refuses a number that is not an `int`. -/
def Submission.read (submission : Submission) : Option IntRequest :=
  if h : submission.quantity ≤ maxInt4 then
    some
      { request :=
          { userId := some submission.userId
            sku := some submission.sku
            quantity := submission.quantity
            requestId := some submission.requestId }
        int := h }
  else none

/-- `OrderController.checkout`, up to `processCheckout`. -/
def controllerCheckout (request : CheckoutRequest) : Except String CheckoutRequest :=
  if request.userId.all isBlank then .error "userId is required"
  else if request.sku.all isBlank then .error "sku is required"
  else if request.quantity ≤ 0 then .error "quantity must be > 0"
  else .ok request

/-! ## The storefront -/

structure Storefront where
  pipeline : Pipeline
  tabs : Nat → Tab
  /-- The request ids that `crypto.randomUUID` has drawn. -/
  drawn : List String
  sent : List Submission
  /-- What a request of the gateway delivers. The requests of other clients deliver nothing. -/
  carried : Nat → Option Nat
  /-- The requests that the gateway has accepted, with their events. -/
  accepted : List (Nat × String)

inductive StoreEvent where
  | pipeline (e : PipelineEvent)
  /-- The form is edited, or the page is loaded again. -/
  | renewed (t : Nat)
  | submitted (t i : Nat)
  /-- The tab shows a receipt. -/
  | receipt (t i : Nat) (eventId : String)
  | failed (t i : Nat)

def StoreEvent.atPipeline : StoreEvent → Option PipelineEvent
  | .pipeline e => some e
  | _ => none

inductive StoreLabel where
  | edit (t : Nat) (e : Edit)
  | regenerate (t : Nat) (user : Uuid)
  | reload (t : Nat) (user : Uuid)
  /-- The form is submitted; `id` is what `crypto.randomUUID` draws, if it is called. -/
  | submit (t : Nat) (id : Uuid)
  /-- A request reaches the controller. -/
  | deliver (i : Nat)
  /-- The acceptance of a request of the gateway reaches the tab. -/
  | respond (t r : Nat)
  /-- The tab gets an error, or no response. -/
  | fail (t : Nat) (message : String)
  /-- A step of the pipeline, or the request of another client. -/
  | pipeline (b : PipelineLabel)

def Storefront.setTab (s : Storefront) (t : Nat) (tab : Tab) : Storefront :=
  { s with tabs := update s.tabs t tab }

/-- The requests that a step has accepted. -/
def acceptances (es : List PipelineEvent) : List (Nat × String) :=
  es.filterMap fun
    | .gateway (.answered r (.ok eventId)) => some (r, eventId)
    | _ => none

/-- A step of the pipeline. -/
def Storefront.atPipeline (ttl : ClaimTtl) (mapper : ObjectMapper) (s : Storefront)
    (b : PipelineLabel) : Option (Storefront × List StoreEvent) :=
  (stepPipeline ttl mapper s.pipeline b).map fun r =>
    ({ s with pipeline := r.1, accepted := s.accepted ++ acceptances r.2 }, r.2.map .pipeline)

/-- `handleSubmit`, up to the response. -/
def Storefront.submit (s : Storefront) (t : Nat) (drawn : Uuid) :
    Option (Storefront × List StoreEvent) :=
  match (s.tabs t).order with
  | none => some (s.setTab t { s.tabs t with success := none }, [])
  | some (userId, sku, quantity) =>
    -- No request id is drawn twice.
    if (s.tabs t).requestId = none ∧ Uuid.text drawn ∈ s.drawn then none
    else
      let id := (s.tabs t).requestId.getD (Uuid.text drawn)
      let tab := { s.tabs t with requestId := some id, success := none, error := none }
      match apiCheckout userId sku quantity id (Uuid.text drawn) with
      | .error message =>
        some ({ s with drawn := id :: s.drawn }.setTab t { tab with error := some message }, [])
      | .ok submission =>
        some ({ s with drawn := id :: s.drawn, sent := s.sent ++ [submission] }.setTab t
          { tab with loading := some s.sent.length }, [.submitted t s.sent.length])

/-- `handleSubmit` after an acceptance. -/
def Storefront.accept (s : Storefront) (t i : Nat) (eventId : String) :
    Storefront × List StoreEvent :=
  if trim eventId = "" then
    (s.setTab t { s.tabs t with
      loading := none
      error := some "Backend returned an invalid checkout response" }, [.failed t i])
  else
    (s.setTab t { s.tabs t with loading := none, success := some eventId, requestId := none },
      [.receipt t i eventId])

/-- The step of a label. -/
def stepStorefront (ttl : ClaimTtl) (mapper : ObjectMapper) (s : Storefront) :
    StoreLabel → Option (Storefront × List StoreEvent)
  | .edit t e => some (s.setTab t ((s.tabs t).edit e), [.renewed t])
  | .regenerate t user =>
    if (s.tabs t).loading.isSome then none
    else some (s.setTab t ((s.tabs t).regenerateUserId user), [.renewed t])
  | .reload t user => some (s.setTab t (.opened user), [.renewed t])
  | .submit t id => if (s.tabs t).loading.isSome then none else s.submit t id
  | .deliver i =>
    match s.sent[i]? with
    | none => none
    | some submission =>
      match submission.read with
      | none => some (s, [])
      | some request =>
        match controllerCheckout request.request with
        | .error _ => some (s, [])
        | .ok _ =>
          Storefront.atPipeline ttl mapper
            { s with carried := update s.carried s.pipeline.gateway.next (some i) }
            (.arrive request)
  | .respond t r =>
    match (s.tabs t).loading, s.accepted.lookup r with
    | some i, some eventId => if s.carried r = some i then some (s.accept t i eventId) else none
    | _, _ => none
  | .fail t message =>
    match (s.tabs t).loading with
    | some i =>
      some (s.setTab t { s.tabs t with loading := none, error := some message }, [.failed t i])
    | none => none
  | .pipeline b => s.atPipeline ttl mapper b

/-- The start: the tabs are opened, and nothing is sent. -/
structure NewStorefront (db : Database) (s : Storefront) : Prop where
  pipeline : NewPipeline db s.pipeline
  tabs : ∀ t, ∃ user, s.tabs t = .opened user
  drawn : s.drawn = []
  sent : s.sent = []
  carried : ∀ r, s.carried r = none
  accepted : s.accepted = []

/-- The tabs, the gateway and the workers. -/
def storefront (ttl : ClaimTtl) (mapper : ObjectMapper) (db : Database) :
    Sys Storefront StoreLabel StoreEvent where
  init := NewStorefront db
  step := stepStorefront ttl mapper

/-! ## The checks of the form and of the client -/

section form

theorem trimChars_self {cs : List Char} (h : ∀ c ∈ cs, isJsSpace c = false) :
    trimChars cs = cs := by
  have hdrop : cs.dropWhile isJsSpace = cs :=
    List.dropWhile_eq_self_iff.mpr fun hl => by simp [h _ (List.getElem_mem hl)]
  rw [trimChars, hdrop, List.rdropWhile_eq_self_iff]
  intro hl
  simp [h _ (List.getLast_mem hl)]

/-- A trimmed text starts with no white space. -/
theorem trimChars_trimChars (cs : List Char) : trimChars (trimChars cs) = trimChars cs := by
  have hbefore : trimChars cs <+: cs.dropWhile isJsSpace := List.rdropWhile_prefix _ _
  have hdrop : (trimChars cs).dropWhile isJsSpace = trimChars cs := by
    refine List.dropWhile_eq_self_iff.mpr fun hl => ?_
    have hl' := hl.trans_le hbefore.length_le
    rw [hbefore.getElem hl]
    exact List.dropWhile_eq_self_iff.mp (List.dropWhile_idempotent _ _) hl'
  rw [trimChars, hdrop, trimChars]
  exact List.rdropWhile_idempotent ..

theorem trim_trim (s : String) : trim (trim s) = trim s := by
  simp [trim, trimChars_trimChars]

/-- A UUID has no white space. -/
theorem trim_uuid (u : Uuid) : trim (Uuid.text u) = Uuid.text u := by
  have h : trimChars (Uuid.chars u) = Uuid.chars u := by
    refine trimChars_self fun c hc => ?_
    have hdigit : ∀ i, isJsSpace (Uuid.digit u i) = false := by
      have h : ∀ m < 16, isJsSpace (Nat.digitChar m) = false := by decide
      exact fun i => h _ (Nat.mod_lt _ (by decide))
    have hgroup : ∀ start len, ∀ c ∈ Uuid.group u start len, isJsSpace c = false := by
      intro start len c hc
      obtain ⟨k, -, rfl⟩ := List.mem_map.mp hc
      exact hdigit _
    simp only [Uuid.chars, List.mem_append, List.mem_cons] at hc
    have hdash : isJsSpace '-' = false := by decide
    grind
  rw [trim, show (Uuid.text u).toList = Uuid.chars u from by simp [Uuid.text], h, Uuid.text]

/-- What the form gives to the client is trimmed, and positive. -/
theorem Tab.order_some {t : Tab} {userId sku : String} {quantity : Int}
    (h : t.order = some (userId, sku, quantity)) :
    trim userId = userId ∧ userId ≠ "" ∧ trim sku = sku ∧ sku ≠ "" ∧ 0 < quantity := by
  unfold Tab.order at h
  split at h
  · cases h
  · rename_i huser
    split at h
    · cases h
    · rename_i hsku
      obtain ⟨q, hq, he⟩ := Option.map_eq_some_iff.mp h
      obtain ⟨rfl, rfl, rfl⟩ :
          trim t.userId = userId ∧ trim t.selectedSku = sku ∧ q = quantity := by simpa using he
      refine ⟨trim_trim _, huser, trim_trim _, hsku, ?_⟩
      unfold parsedQuantity at hq
      split at hq
      · split at hq
        · rename_i hpos
          rw [← Option.some.inj hq]
          exact Rat.num_pos.mpr hpos.2
        · cases hq
      · cases hq

/-- The client accepts what the form gives, and sends the request id of the form. -/
theorem apiCheckout_order {t : Tab} {userId sku : String} {quantity : Int}
    (h : t.order = some (userId, sku, quantity)) (id : Uuid) (generated : String) :
    apiCheckout userId sku quantity (Uuid.text id) generated =
      .ok ⟨userId, sku, quantity, Uuid.text id⟩ := by
  obtain ⟨huser, hne, hsku, hne', hpos⟩ := Tab.order_some h
  have hid : Uuid.text id ≠ "" := (isText_of_canonical (uuidText_canonical id)).2.2
  simp only [apiCheckout, huser, hne, hsku, hne', trim_uuid, hid, if_false, Int.not_le.mpr hpos]

end form

/-! ## The steps -/

section steps

variable {ttl : ClaimTtl} {mapper : ObjectMapper} {db : Database} {s s' : Storefront}
  {a : StoreLabel} {es fs : List StoreEvent}

/-- The request ids of the tabs are drawn ones. -/
def Storefront.Uuids (s : Storefront) : Prop :=
  ∀ t id, (s.tabs t).requestId = some id → ∃ u, id = Uuid.text u

/-- The storefront after a step of the pipeline. -/
def Storefront.piped (s : Storefront) (p : Pipeline) (gs : List PipelineEvent) : Storefront :=
  { s with pipeline := p, accepted := s.accepted ++ acceptances gs }

/-- The request id of a submission is that of the form, or fresh. -/
def Submission.IdOf (submission : Submission) (s : Storefront) (t : Nat) : Prop :=
  (s.tabs t).requestId = some submission.requestId ∨
    (s.tabs t).requestId = none ∧ submission.requestId ∉ s.drawn

/-- What a step of the storefront does. -/
inductive StoreWay (ttl : ClaimTtl) (mapper : ObjectMapper) (s : Storefront) (a : StoreLabel) :
    Storefront → List StoreEvent → Prop
  | renews (t : Nat) (tab : Tab) : tab.requestId = none →
      (∀ i, tab.loading = some i → (s.tabs t).loading = some i) →
      StoreWay ttl mapper s a (s.setTab t tab) [.renewed t]
  /-- The form stays as it is. -/
  | keeps (t : Nat) (tab : Tab) (fs : List StoreEvent) :
      tab.requestId = (s.tabs t).requestId → tab.order = (s.tabs t).order →
      (∀ i, tab.loading = some i → (s.tabs t).loading = some i) →
      (∀ e ∈ fs, ∃ i, e = .failed t i) → StoreWay ttl mapper s a (s.setTab t tab) fs
  | submits (t : Nat) (submission : Submission) (tab : Tab) :
      submission.IdOf s t → (∃ u, submission.requestId = Uuid.text u) →
      (s.tabs t).order = some (submission.userId, submission.sku, submission.quantity) →
      tab.order = (s.tabs t).order → tab.requestId = some submission.requestId →
      tab.loading = some s.sent.length →
      StoreWay ttl mapper s a
        ({ s with
          drawn := submission.requestId :: s.drawn
          sent := s.sent ++ [submission] }.setTab t tab) [.submitted t s.sent.length]
  | shows (t i r : Nat) (eventId : String) (tab : Tab) : (s.tabs t).loading = some i →
      s.carried r = some i → (r, eventId) ∈ s.accepted → tab.requestId = none →
      tab.loading = none → StoreWay ttl mapper s a (s.setTab t tab) [.receipt t i eventId]
  | delivers (i : Nat) (submission : Submission) (request : IntRequest) (p : Pipeline)
      (gs : List PipelineEvent) : s.sent[i]? = some submission → submission.read = some request →
      stepPipeline ttl mapper s.pipeline (.arrive request) = some (p, gs) →
      StoreWay ttl mapper s a
        ({ s with carried := update s.carried s.pipeline.gateway.next (some i) }.piped p gs)
        (gs.map .pipeline)
  | works (b : PipelineLabel) (p : Pipeline) (gs : List PipelineEvent) : a = .pipeline b →
      stepPipeline ttl mapper s.pipeline b = some (p, gs) →
      StoreWay ttl mapper s a (s.piped p gs) (gs.map .pipeline)
  | idles : StoreWay ttl mapper s a s []

theorem submit_way {t : Nat} {u : Uuid} (hu : s.Uuids) (h : s.submit t u = some (s', fs)) :
    StoreWay ttl mapper s a s' fs := by
  unfold Storefront.submit at h
  split at h
  · obtain ⟨rfl, rfl⟩ := Prod.mk.inj (Option.some.inj h)
    exact .keeps t _ [] rfl rfl (fun i hi => hi) (by simp)
  · rename_i userId sku quantity horder
    split at h
    · cases h
    · rename_i hfresh
      -- The id of the form, or the one that is drawn.
      obtain ⟨v, hv⟩ : ∃ v, (s.tabs t).requestId.getD (Uuid.text u) = Uuid.text v := by
        cases hr : (s.tabs t).requestId with
        | none => exact ⟨u, rfl⟩
        | some id =>
          obtain ⟨v, rfl⟩ := hu t id hr
          exact ⟨v, rfl⟩
      simp only [hv, apiCheckout_order horder v] at h
      obtain ⟨rfl, rfl⟩ := Prod.mk.inj (Option.some.inj h)
      refine .submits t ⟨userId, sku, quantity, Uuid.text v⟩ _ ?_ ⟨v, rfl⟩ horder rfl rfl rfl
      unfold Submission.IdOf
      cases hr : (s.tabs t).requestId with
      | none =>
        rw [hr] at hv hfresh
        simp only [Option.getD_none] at hv
        exact .inr ⟨rfl, hv ▸ fun hm => hfresh ⟨rfl, hm⟩⟩
      | some id =>
        rw [hr] at hv
        exact .inl (congrArg some hv)

theorem atPipeline_some {b : PipelineLabel} (h : s.atPipeline ttl mapper b = some (s', fs)) :
    ∃ p gs, stepPipeline ttl mapper s.pipeline b = some (p, gs) ∧ s' = s.piped p gs ∧
      fs = gs.map .pipeline := by
  obtain ⟨⟨p, gs⟩, hs, he⟩ := Option.map_eq_some_iff.mp h
  obtain ⟨rfl, rfl⟩ := Prod.mk.inj he
  exact ⟨p, gs, hs, rfl, rfl⟩

theorem store_step (hu : s.Uuids) (h : (storefront ttl mapper db).step s a = some (s', fs)) :
    StoreWay ttl mapper s a s' fs := by
  simp only [storefront] at h
  cases a with
  | edit t e =>
    obtain ⟨rfl, rfl⟩ := Prod.mk.inj (Option.some.inj h)
    cases e with
    | userId | sku | quantity => exact .renews t _ rfl fun i hi => hi
  | regenerate t user =>
    simp only [stepStorefront] at h
    split at h
    · cases h
    · obtain ⟨rfl, rfl⟩ := Prod.mk.inj (Option.some.inj h)
      exact .renews t _ rfl fun i hi => hi
  | reload t user =>
    obtain ⟨rfl, rfl⟩ := Prod.mk.inj (Option.some.inj h)
    exact .renews t _ rfl fun i hi => by simp [Tab.opened] at hi
  | submit t id =>
    simp only [stepStorefront] at h
    split at h
    · cases h
    · exact submit_way hu h
  | deliver i =>
    simp only [stepStorefront] at h
    split at h
    · cases h
    · rename_i submission hi
      split at h
      · obtain ⟨rfl, rfl⟩ := Prod.mk.inj (Option.some.inj h)
        exact .idles
      · rename_i request hread
        split at h
        · obtain ⟨rfl, rfl⟩ := Prod.mk.inj (Option.some.inj h)
          exact .idles
        · obtain ⟨p, gs, hs, rfl, rfl⟩ := atPipeline_some h
          exact .delivers i submission request p gs hi hread hs
  | respond t r =>
    simp only [stepStorefront] at h
    split at h
    · rename_i i eventId hload haccepted
      split at h
      · rename_i hcarried
        unfold Storefront.accept at h
        split at h
        · obtain ⟨rfl, rfl⟩ := Prod.mk.inj (Option.some.inj h)
          exact .keeps t _ _ rfl rfl (by simp) (by simp)
        · obtain ⟨rfl, rfl⟩ := Prod.mk.inj (Option.some.inj h)
          obtain ⟨as, bs, hl, -⟩ := List.lookup_eq_some_iff.mp haccepted
          exact .shows t i r eventId _ hload hcarried (by simp [hl]) rfl rfl
      · cases h
    · cases h
  | fail t message =>
    simp only [stepStorefront] at h
    split at h
    · rename_i i hi
      obtain ⟨rfl, rfl⟩ := Prod.mk.inj (Option.some.inj h)
      exact .keeps t _ _ rfl rfl (by simp) (by simp)
    · cases h
  | pipeline b =>
    obtain ⟨p, gs, hs, rfl, rfl⟩ := atPipeline_some h
    exact .works b p gs rfl hs

/-! ## What the requests carry -/

/-- A step of the pipeline leaves the orders of the requests that have arrived. -/
theorem orders_step {p p' : Pipeline} {b : PipelineLabel} {gs : List PipelineEvent}
    (h : PipelineWay mapper p b p' gs) :
    p.gateway.next ≤ p'.gateway.next ∧
      ∀ r < p.gateway.next, p'.gateway.orders r = p.gateway.orders r := by
  cases h with
  | rejects => exact ⟨Nat.le_succ _, fun _ _ => rfl⟩
  | arrives => exact ⟨Nat.le_succ _, fun r hr => update_ne _ _ (Nat.ne_of_lt hr)⟩
  | ticks | moves | prepares | appends | works => exact ⟨le_refl _, fun _ _ => rfl⟩

/-- A request that arrives takes the next number, and has the order that it says. -/
theorem arrive_order {p p' : Pipeline} {gs : List PipelineEvent} {request : IntRequest}
    (hnext : p.gateway.orders p.gateway.next = none)
    (h : stepPipeline ttl mapper p (.arrive request) = some (p', gs)) :
    p'.gateway.next = p.gateway.next + 1 ∧
      ∀ order, p'.gateway.orders p.gateway.next = some order →
        request.request.validate = .ok order := by
  obtain ⟨g', gs', hg, rfl, rfl⟩ := atGateway_some h
  simp only [stepGateway] at hg
  split at hg
  · obtain ⟨rfl, rfl⟩ := Prod.mk.inj (Option.some.inj hg)
    refine ⟨rfl, fun order ho => ?_⟩
    rw [show ({ p.gateway with next := p.gateway.next + 1 } : Gateway).orders =
      p.gateway.orders from rfl, hnext] at ho
    cases ho
  · rename_i order hv
    obtain ⟨rfl, rfl⟩ := Prod.mk.inj (Option.some.inj hg)
    refine ⟨rfl, fun order' ho => ?_⟩
    simp only [update_self] at ho
    exact Option.some.inj ho ▸ hv

/-- A request is accepted when its event is appended. -/
theorem appended_of_acceptance {p p' : Pipeline} {b : PipelineLabel} {gs : List PipelineEvent}
    {r : Nat} {eventId : String} (h : PipelineWay mapper p b p' gs)
    (hm : (r, eventId) ∈ acceptances gs) :
    ∃ event claim, .appended r event claim ∈ gs ∧ event.eventId = eventId := by
  have hquiet : ∀ hs : List CheckoutEvent, Quiet hs →
      (r, eventId) ∉ acceptances (hs.map .gateway) := by
    intro hs hq hm
    obtain ⟨e, he, heq⟩ := List.mem_filterMap.mp hm
    obtain ⟨e', he', rfl⟩ := List.mem_map.mp he
    split at heq
    · rename_i r' eventId' h
      obtain rfl := PipelineEvent.gateway.inj h
      exact hq.2 _ _ he'
    · cases heq
  cases h with
  | ticks | arrives | prepares => cases hm
  | rejects error => exact absurd hm (hquiet [_] (quiet_error _ error))
  | moves _ _ _ gs _ _ hq => exact absurd hm (hquiet gs hq)
  | appends r' order eventId' payload _ _ _ claim result hs ho _ hresult =>
    obtain ⟨e, he, heq⟩ := List.mem_filterMap.mp hm
    simp only [List.mem_cons, List.not_mem_nil, or_false] at he
    rcases he with rfl | rfl | rfl
    · cases heq
    · cases result with
      | error => cases heq
      | ok accepted =>
        obtain ⟨rfl, rfl⟩ := Prod.mk.inj (Option.some.inj heq)
        exact ⟨order.event eventId', claim, by simp, (hresult accepted rfl).symm⟩
    · cases heq
  | works b w' gs _ _ =>
    obtain ⟨e, he, heq⟩ := List.mem_filterMap.mp hm
    obtain ⟨e, he, rfl⟩ := List.mem_map.mp he
    cases heq

/-- The order of a submission. -/
structure Submission.Orders (submission : Submission) (order : Order) : Prop where
  userId : order.userId = submission.userId.map Char.toLower
  sku : order.sku = submission.sku
  quantity : order.quantity = submission.quantity
  requestId : order.requestId = some submission.requestId

theorem orders_of_read {submission : Submission} {request : IntRequest} {order : Order}
    (hr : submission.read = some request) (hv : request.request.validate = .ok order) :
    submission.Orders order := by
  unfold Submission.read at hr
  split at hr
  · obtain rfl := Option.some.inj hr
    obtain ⟨⟨userId, hu, -, huser⟩, hsku, -, hq⟩ := validate_ok hv
    refine ⟨?_, (Option.some.inj hsku).symm, hq.symm, ?_⟩
    · rw [huser, ← Option.some.inj hu]
    · simp only [CheckoutRequest.validate, bind, Except.bind] at hv
      split at hv
      · cases hv
      · split at hv
        · cases hv
        · split at hv
          · obtain rfl := Except.ok.inj hv
            rfl
          · cases hv
  · cases hr

end steps

/-! ## The forms and what they have sent -/

section formed

variable {ttl : ClaimTtl} {mapper : ObjectMapper} {db : Database} {s s' : Storefront}
  {a : StoreLabel} {C : Storefront → StoreLabel → Prop} {es fs : List StoreEvent} {n : Nat}

/-- The tab drops its request id. -/
def StoreEvent.renews (t : Nat) : StoreEvent → Bool
  | .renewed t' | .receipt t' _ _ => t' == t
  | _ => false

/-- The tabs after a log. -/
structure Formed (es : List StoreEvent) (s : Storefront) : Prop where
  ids : ∀ id ∈ s.drawn, ∃ u, id = Uuid.text u
  drawn : ∀ t id, (s.tabs t).requestId = some id → id ∈ s.drawn
  sent : ∀ submission ∈ s.sent, submission.requestId ∈ s.drawn
  /-- A request id is that of one tab. -/
  own : ∀ t t' id, (s.tabs t).requestId = some id → (s.tabs t').requestId = some id → t = t'
  /-- What was sent under the request id of a tab is what its form says. -/
  form : ∀ t submission, submission ∈ s.sent → (s.tabs t).requestId = some submission.requestId →
    (s.tabs t).order = some (submission.userId, submission.sku, submission.quantity)
  alike : ∀ x ∈ s.sent, ∀ y ∈ s.sent, x.requestId = y.requestId → x = y
  /-- A form keeps the request id of a submission until it is renewed. -/
  kept : ∀ pre t i post, es = pre ++ .submitted t i :: post →
    (∀ e ∈ post, e.renews t = false) →
    ∃ submission, s.sent[i]? = some submission ∧ (s.tabs t).requestId = some submission.requestId

theorem Formed.uuids (h : Formed es s) : s.Uuids := fun t id hr => h.ids id (h.drawn t id hr)

theorem Submission.ext_of_order {x y : Submission}
    (h : some (x.userId, x.sku, x.quantity) = some (y.userId, y.sku, y.quantity))
    (hid : x.requestId = y.requestId) : x = y := by
  cases x
  cases y
  simp_all

/-- A tab is replaced by one that drops its request id, or has the same form and the same id. -/
theorem Formed.tab (h : Formed es s) {t : Nat} {tab : Tab}
    (htab : tab.requestId = none ∨
      tab.requestId = (s.tabs t).requestId ∧ tab.order = (s.tabs t).order)
    (hfs : ∀ t' i, .submitted t' i ∉ fs)
    (hrenews : tab.requestId = (s.tabs t).requestId ∨ ∃ e ∈ fs, e.renews t = true) :
    Formed (es ++ fs) (s.setTab t tab) := by
  have hid : ∀ t' id, ((s.setTab t tab).tabs t').requestId = some id →
      (s.tabs t').requestId = some id ∧ ((s.setTab t tab).tabs t').order = (s.tabs t').order := by
    intro t' id hr
    by_cases he : t' = t
    · subst he
      simp only [Storefront.setTab, update_self] at hr ⊢
      rcases htab with hnone | ⟨hsame, horder⟩
      · rw [hnone] at hr
        cases hr
      · exact ⟨hsame ▸ hr, horder⟩
    · rw [show (s.setTab t tab).tabs t' = s.tabs t' from update_ne _ _ he] at hr ⊢
      exact ⟨hr, rfl⟩
  constructor
  case ids => exact h.ids
  case drawn => exact fun t' id hr => h.drawn t' id (hid t' id hr).1
  case sent => exact h.sent
  case own =>
    exact fun t₁ t₂ id h₁ h₂ => h.own t₁ t₂ id (hid t₁ id h₁).1 (hid t₂ id h₂).1
  case form =>
    intro t' submission hm hr
    obtain ⟨hr, horder⟩ := hid t' _ hr
    rw [horder]
    exact h.form t' submission hm hr
  case alike => exact h.alike
  case kept =>
    intro pre t' i post he hpost
    rcases Sys.split_append he with ⟨post', hes, rfl⟩ | ⟨fs₁, hfs', -⟩
    · obtain ⟨submission, hi, hr⟩ := h.kept pre t' i post' hes fun e hm =>
        hpost e (List.mem_append_left _ hm)
      refine ⟨submission, hi, ?_⟩
      by_cases ht : t' = t
      · subst ht
        rcases hrenews with hsame | ⟨e, hm, hrenew⟩
        · simpa [Storefront.setTab, hsame] using hr
        · rw [hpost e (List.mem_append_right _ hm)] at hrenew
          cases hrenew
      · simpa [Storefront.setTab, update_ne _ _ ht] using hr
    · exact absurd (by simp [hfs'] : StoreEvent.submitted t' i ∈ fs) (hfs t' i)

/-- A step of the pipeline leaves the tabs alone. -/
theorem Formed.quiet (h : Formed es s) {gs : List PipelineEvent} (htabs : s'.tabs = s.tabs)
    (hdrawn : s'.drawn = s.drawn) (hsent : s'.sent = s.sent) :
    Formed (es ++ gs.map .pipeline) s' := by
  refine ⟨hdrawn ▸ h.ids, fun t => htabs ▸ hdrawn ▸ h.drawn t,
    hsent ▸ hdrawn ▸ h.sent, htabs ▸ h.own, htabs ▸ hsent ▸ h.form, hsent ▸ h.alike,
    fun pre t i post he hpost => ?_⟩
  rcases Sys.split_append he with ⟨post', hes, rfl⟩ | ⟨gs₁, hgs, -⟩
  · rw [hsent, htabs]
    exact h.kept pre t i post' hes fun e hm => hpost e (List.mem_append_left _ hm)
  · have hm : StoreEvent.submitted t i ∈ gs.map .pipeline := by simp [hgs]
    simp at hm

section submits

variable {t : Nat} {submission : Submission} {tab : Tab}

/-- What was sent under the id before is the same submission. -/
theorem Formed.resent (h : Formed es s) (hid : submission.IdOf s t)
    (horder : (s.tabs t).order = some (submission.userId, submission.sku, submission.quantity))
    {x : Submission} (hx : x ∈ s.sent) (he : x.requestId = submission.requestId) :
    x = submission := by
  rcases hid with hid | ⟨-, hfresh⟩
  · exact Submission.ext_of_order ((h.form t x hx (he ▸ hid)).symm.trans horder) he
  · exact absurd (he ▸ h.sent x hx) hfresh

/-- No other tab has the id. -/
theorem Formed.others (h : Formed es s) (hid : submission.IdOf s t) {t' : Nat} (ht : t' ≠ t) :
    (s.tabs t').requestId ≠ some submission.requestId := by
  intro hr
  rcases hid with hid | ⟨-, hfresh⟩
  · exact ht (h.own t' t _ hr hid)
  · exact hfresh (h.drawn t' _ hr)

/-- A tab that has an id after the submission is the one that submits, or had it before. -/
theorem requestId_update (htabid : tab.requestId = some submission.requestId) {t' : Nat}
    {id : String} (hr : (update s.tabs t tab t').requestId = some id) :
    t' = t ∧ id = submission.requestId ∨ t' ≠ t ∧ (s.tabs t').requestId = some id := by
  by_cases ht : t' = t
  · subst ht
    simp only [update_self, htabid, Option.some.injEq] at hr
    exact .inl ⟨rfl, hr.symm⟩
  · exact .inr ⟨ht, by simpa [update_ne _ _ ht] using hr⟩

theorem Formed.submits (h : Formed es s) (hid : submission.IdOf s t)
    (huuid : ∃ u, submission.requestId = Uuid.text u)
    (horder : (s.tabs t).order = some (submission.userId, submission.sku, submission.quantity))
    (htab : tab.order = (s.tabs t).order)
    (htabid : tab.requestId = some submission.requestId) :
    Formed (es ++ [.submitted t s.sent.length])
      ({ s with
        drawn := submission.requestId :: s.drawn
        sent := s.sent ++ [submission] }.setTab t tab) := by
  have htabs : ∀ t' ≠ t, (update s.tabs t tab) t' = s.tabs t' := fun t' ht => update_ne _ _ ht
  have hmem : ∀ x ∈ s.sent ++ [submission], x ∈ s.sent ∨ x = submission := by simp
  constructor
  case ids =>
    intro id hm
    rcases List.mem_cons.mp hm with rfl | hm
    · exact huuid
    · exact h.ids id hm
  case drawn =>
    intro t' id hr
    rcases requestId_update htabid hr with ⟨-, rfl⟩ | ⟨-, hold⟩
    · exact List.mem_cons_self
    · exact List.mem_cons_of_mem _ (h.drawn t' id hold)
  case sent =>
    intro x hx
    rcases hmem x hx with hx | rfl
    · exact List.mem_cons_of_mem _ (h.sent x hx)
    · exact List.mem_cons_self
  case own =>
    intro t₁ t₂ id h₁ h₂
    rcases requestId_update htabid h₁ with ⟨ht₁, hid₁⟩ | ⟨hne₁, hold₁⟩
    · rcases requestId_update htabid h₂ with ⟨ht₂, -⟩ | ⟨hne₂, hold₂⟩
      · rw [ht₁, ht₂]
      · exact absurd (hid₁ ▸ hold₂) (h.others hid hne₂)
    · rcases requestId_update htabid h₂ with ⟨-, hid₂⟩ | ⟨hne₂, hold₂⟩
      · exact absurd (hid₂ ▸ hold₁) (h.others hid hne₁)
      · exact h.own t₁ t₂ id hold₁ hold₂
  case form =>
    intro t' x hx hr
    by_cases ht : t' = t
    · subst ht
      simp only [Storefront.setTab, update_self, htabid, Option.some.injEq] at hr ⊢
      have hsame : x = submission := by
        rcases hmem x hx with hx | hx
        · exact h.resent hid horder hx hr.symm
        · exact hx
      rw [htab, horder, hsame]
    · simp only [Storefront.setTab, htabs t' ht] at hr ⊢
      rcases hmem x hx with hx | rfl
      · exact h.form t' x hx hr
      · exact absurd hr (h.others hid ht)
  case alike =>
    intro x hx y hy he
    rcases hmem x hx with hx' | hx'
    · rcases hmem y hy with hy' | hy'
      · exact h.alike x hx' y hy' he
      · rw [hy'] at he ⊢
        exact h.resent hid horder hx' he
    · rw [hx'] at he ⊢
      rcases hmem y hy with hy' | hy'
      · exact (h.resent hid horder hy' he.symm).symm
      · exact hy'.symm
  case kept =>
    intro pre t' i post he hpost
    rcases Sys.split_append he with ⟨post', hes, rfl⟩ | ⟨fs₁, hfs, -⟩
    · obtain ⟨x, hi, hr⟩ := h.kept pre t' i post' hes fun e hm =>
        hpost e (List.mem_append_left _ hm)
      refine ⟨x, List.getElem?_append_left (List.getElem?_eq_some_iff.mp hi).1 ▸ hi, ?_⟩
      by_cases ht : t' = t
      · subst ht
        rcases hid with hid | ⟨hnone, -⟩
        · rw [← hr, hid]
          simp [Storefront.setTab, htabid]
        · rw [hnone] at hr
          cases hr
      · simpa [Storefront.setTab, htabs t' ht] using hr
    · obtain ⟨-, ⟨rfl, rfl⟩, -⟩ : fs₁ = [] ∧ (t' = t ∧ i = s.sent.length) ∧ post = [] := by
        simpa [List.singleton_eq_append_iff] using hfs
      exact ⟨submission, by simp [Storefront.setTab], by simp [Storefront.setTab, htabid]⟩

end submits

theorem formed_step (h : Formed es s) (hw : StoreWay ttl mapper s a s' fs) :
    Formed (es ++ fs) s' := by
  cases hw with
  | renews t tab hnone _ =>
    exact h.tab (.inl hnone) (by simp) (.inr ⟨_, List.mem_singleton_self _, by
      simp [StoreEvent.renews]⟩)
  | keeps t tab fs hid horder _ hfs =>
    refine h.tab (.inr ⟨hid, horder⟩) (fun t' i hm => ?_) (.inl hid)
    obtain ⟨j, he⟩ := hfs _ hm
    cases he
  | submits t submission tab hid huuid horder htab htabid _ =>
    exact h.submits hid huuid horder htab htabid
  | shows t i r eventId tab _ _ _ hnone _ =>
    exact h.tab (.inl hnone) (by simp) (.inr ⟨_, List.mem_singleton_self _, by
      simp [StoreEvent.renews]⟩)
  | delivers i submission request p gs => exact h.quiet rfl rfl rfl
  | works b p gs => exact h.quiet rfl rfl rfl
  | idles =>
    have hq : Formed (es ++ ([] : List PipelineEvent).map .pipeline) s := h.quiet rfl rfl rfl
    simpa using hq

theorem formed (hr : (storefront ttl mapper db).Run C n es s) : Formed es s := by
  refine hr.inv (I := Formed) (fun s hi => ?_) fun _ _ _ _ _ _ _ h _ hs =>
    formed_step h (store_step h.uuids hs)
  have hnone : ∀ t, (s.tabs t).requestId = none := by
    intro t
    obtain ⟨user, ht⟩ := hi.tabs t
    rw [ht]
    rfl
  refine ⟨?_, fun t id hr => ?_, ?_, fun t t' id hr => ?_, ?_, ?_, by simp⟩
  · simp [hi.drawn]
  · rw [hnone t] at hr
    cases hr
  · simp [hi.sent]
  · rw [hnone t] at hr
    cases hr
  · simp [hi.sent]
  · simp [hi.sent]

end formed

end Rivulet
end AutoSRE

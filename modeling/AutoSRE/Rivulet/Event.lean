/-!
# Order events

The payload of a stream entry and the event that the ingestion worker reads from it:
`json.Unmarshal` into an `OrderEvent`, then `OrderEvent.Validate`.

* `unmarshal`: a member is stored by the name of its field, whatever the case; a later member
  replaces an earlier one; `null` stores nothing. A value of another type leaves the field and is
  the error, but decoding goes on, and the first error is returned.
* `OrderEvent.validate`: the domain-level checks, in their order.
* `decodeEvent`: both, with the text of the permanent error when one of them fails.
-/

namespace AutoSRE
namespace Rivulet

/-- A JSON value. A number is an integer literal, or the text of a literal with a fraction or an
exponent. -/
inductive Value where
  | null
  | bool (b : Bool)
  | integer (n : Int)
  | decimal (literal : String)
  | string (s : String)
  | array (items : List Value)
  | object (members : List (String × Value))

/-- The word of a type error for a value. -/
def Value.kind : Value → String
  | .null => "null"
  | .bool _ => "bool"
  | .integer _ | .decimal _ => "number"
  | .string _ => "string"
  | .array _ => "array"
  | .object _ => "object"

/-- The domain payload of an order. -/
structure OrderEvent where
  eventId : String := ""
  userId : String := ""
  sku : String := ""
  quantity : Int := 0
deriving DecidableEq

/-- The smallest character that is equal to `c` under case folding, for the characters that fold to
ASCII: two of them are not ASCII. -/
def foldRune (c : Char) : Char :=
  if c = Char.ofNat 0x17f then 's'
  else if c = Char.ofNat 0x212a then 'k'
  else c.toLower

/-- A member's key names a field. -/
def namesField (key field : String) : Bool := key.toList.map foldRune == field.toList

/-! ## `json.Unmarshal` -/

/-- The error for a value that a field cannot hold. -/
def unmarshalTypeError (value field type : String) : String :=
  "json: cannot unmarshal " ++ value ++ " into Go struct field OrderEvent." ++ field ++
    " of type " ++ type

def minInt64 : Int := -9223372036854775808
def maxInt64 : Int := 9223372036854775807

/-- Store a value in a `string` field: the field afterwards, and an error. -/
def storeString (field old : String) : Value → String × Option String
  | .null => (old, none)
  | .string s => (s, none)
  | v => (old, some (unmarshalTypeError v.kind field "string"))

/-- Store a value in an `int` field: the field afterwards, and an error. -/
def storeInt (field : String) (old : Int) : Value → Int × Option String
  | .null => (old, none)
  | .integer n =>
    if minInt64 ≤ n ∧ n ≤ maxInt64 then (n, none)
    else (old, some (unmarshalTypeError ("number " ++ toString n) field "int"))
  | .decimal literal => (old, some (unmarshalTypeError ("number " ++ literal) field "int"))
  | v => (old, some (unmarshalTypeError v.kind field "int"))

/-- Store a member. A key that names no field is skipped. -/
def storeMember (event : OrderEvent) (key : String) (v : Value) : OrderEvent × Option String :=
  if namesField key "event_id" then
    let r := storeString "event_id" event.eventId v
    ({ event with eventId := r.1 }, r.2)
  else if namesField key "user_id" then
    let r := storeString "user_id" event.userId v
    ({ event with userId := r.1 }, r.2)
  else if namesField key "sku" then
    let r := storeString "sku" event.sku v
    ({ event with sku := r.1 }, r.2)
  else if namesField key "quantity" then
    let r := storeInt "quantity" event.quantity v
    ({ event with quantity := r.1 }, r.2)
  else (event, none)

/-- Store the members in their order; the first error is kept. -/
def storeMembers (event : OrderEvent) (saved : Option String) :
    List (String × Value) → OrderEvent × Option String
  | [] => (event, saved)
  | (key, v) :: ms =>
    let r := storeMember event key v
    storeMembers r.1 (saved.or r.2) ms

/-- `json.Unmarshal` into an `OrderEvent`. -/
def unmarshal : Value → Except String OrderEvent
  | .null => .ok {}
  | .object members =>
    match storeMembers {} none members with
    | (event, none) => .ok event
    | (_, some err) => .error err
  | v => .error ("json: cannot unmarshal " ++ v.kind ++
      " into Go value of type processor.OrderEvent")

/-! ## Validation -/

/-- The domain-level invariants: the text of the first one that fails. -/
def OrderEvent.validate (e : OrderEvent) : Option String :=
  if e.eventId = "" then some "missing event_id"
  else if e.userId = "" then some "missing user_id"
  else if e.sku = "" then some "missing sku"
  else if e.quantity ≤ 0 then some ("invalid quantity: " ++ toString e.quantity)
  else none

/-- The event of a payload, or the text of the permanent error. -/
def decodeEvent (payload : Value) : Except String OrderEvent :=
  match unmarshal payload with
  | .error err => .error ("invalid event schema: " ++ err)
  | .ok event =>
    match event.validate with
    | some err => .error ("event validation failed: " ++ err)
    | none => .ok event

/-- A decoded event has a positive quantity and no empty field. -/
theorem decodeEvent_ok {payload : Value} {event : OrderEvent}
    (h : decodeEvent payload = .ok event) :
    event.eventId ≠ "" ∧ event.userId ≠ "" ∧ event.sku ≠ "" ∧ 0 < event.quantity := by
  simp only [decodeEvent] at h
  split at h
  · cases h
  · split at h
    · cases h
    · rename_i hv
      cases h
      simp only [OrderEvent.validate] at hv
      grind

example : decodeEvent (.object [("event_id", .string "e1"), ("USER_ID", .string "u1"),
    ("sku", .string "s1"), ("quantity", .integer 0)]) =
      .error "event validation failed: invalid quantity: 0" := by rfl

end Rivulet
end AutoSRE

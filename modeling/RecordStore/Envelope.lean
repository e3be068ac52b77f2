import RecordStore.Database
import RecordStore.Json.Parser
import RecordStore.Json.Printer
import RecordStore.Wire.Entry
import RecordStore.Wire.Error
import RecordStore.Wire.Query

/-!
# Messages between programs

An `Envelope` is a request, which carries a batch as text or already parsed, or a response, which
carries entries or an error. It travels as a JSON object with a `type` and a `payload`.

- `Envelope.tag`: the name of a kind of message;
- `Envelope.toJson`, `Envelope.ofJson?`: a message as a tree;
- `Envelope.write`, `Envelope.read?`: a message as a text;
- `Envelope.toResult`: what a response reports;
- `Store.handle`: the response to a message.

A payload in front of its type is kept until the type is known, and so is the payload of a request,
which tells itself whether it is a text or a batch. What is kept must be readable throughout, in
parts that nobody looks at as well.
-/

namespace RecordStore

/-- What a request carries. -/
inductive QueryPayload where
  | raw (text : String)
  | parsed (queries : QuerySet)
  deriving DecidableEq, Repr

/-- A message. -/
inductive Envelope where
  | query (payload : QueryPayload)
  | success (entries : EntrySet)
  | error (e : QueryError)
  deriving DecidableEq, Repr

namespace Envelope

/-- The name of a request. -/
def queryTag : String := "SERVER_DATABASE_QUERY"

/-- The name of a response that carries entries. -/
def successTag : String := "SERVER_DATABASE_QUERY_RESPONSE_SUCCESS"

/-- The name of a response that carries an error. -/
def errorTag : String := "SERVER_DATABASE_QUERY_RESPONSE_ERROR"

/-- The name of the kind of the message. -/
def tag : Envelope → String
  | query _ => queryTag
  | success _ => successTag
  | error _ => errorTag

/-- A request that carries a text. -/
def request (text : String) : Envelope := .query (.raw text)

/-- A request that carries a batch. -/
def requestParsed (queries : QuerySet) : Envelope := .query (.parsed queries)

/-- The response that carries a result. -/
def ofResult : Except QueryError EntrySet → Envelope
  | .ok entries => .success entries
  | .error e => .error e

/-- What a response reports. A request reports nothing. -/
def toResult : Envelope → Except QueryError EntrySet
  | success entries => .ok entries
  | error e => .error e
  | query _ => .error (.invalidRequest ("expected a response, got " ++ queryTag))

/-- Whether two messages are equal, decimals compared as numbers. -/
def alike : Envelope → Envelope → Bool
  | query p, query q => p == q
  | success s, success t => s.alike t
  | error e, error f => e == f
  | _, _ => false

/-! ## Writing -/

/-- A batch in JSON. -/
def queriesToJson (queries : QuerySet) : Json := .array (queries.map Query.toJson)

/-- What a message carries, in JSON. -/
def payloadToJson : Envelope → Json
  | query (.raw text) => .string text
  | query (.parsed queries) => queriesToJson queries
  | success entries => entries.toJson
  | error e => e.toJson

/-- A message in JSON. -/
def toJson (e : Envelope) : Json :=
  .object [("type", .string e.tag), ("payload", e.payloadToJson)]

/-- The text of a message. -/
def write (e : Envelope) : String := String.ofList e.toJson.compact

/-! ## Reading -/

/-- How deep arrays and objects may be nested in a payload that is kept. -/
def payloadDepth : Nat := 126

/-- The payload of a request, a text or a batch. -/
def payloadOfJson? (json : Json) : Option QueryPayload :=
  if json.readable payloadDepth then
    match json with
    | .string text => some (.raw text)
    | json => (json.list? Query.ofJson?).map .parsed
  else none

/-- The message of a kind with a payload, which was kept if `kept`. -/
def ofPayload? (kept : Bool) (tag : String) (payload : Json) : Option Envelope :=
  if kept && !payload.readable payloadDepth then none
  else if tag = queryTag then (payloadOfJson? payload).map query
  else if tag = successTag then (EntrySet.ofJson? payload).map success
  else if tag = errorTag then (QueryError.ofJson? kept payload).map error
  else none

/-- The name of a kind of message from the tree that stands for it. -/
def tagOfJson? (json : Json) : Option String :=
  match json.variant? with
  | some (name, content) => if Json.isUnit false content then some name else none
  | none => none

/-- The message that a tree stands for: an object with a `type` and a `payload`, in either order
and each once, or an array of the two, in which the kind can only be a string. -/
def ofJson? : Json → Option Envelope
  | .object members =>
    match members.filter fun m => m.1 == "type" || m.1 == "payload" with
    | [("type", tag), ("payload", payload)] =>
      (tagOfJson? tag).bind fun tag => ofPayload? false tag payload
    | [("payload", payload), ("type", tag)] =>
      (tagOfJson? tag).bind fun tag => ofPayload? true tag payload
    | _ => none
  | .array [.string tag, payload] => ofPayload? false tag payload
  | _ => none

/-- The message that a text spells. -/
def read? (text : String) : Option Envelope := (Json.parse? text).bind ofJson?

end Envelope

/-- Answers a message. Only a request can be answered with entries. -/
def Store.handle (circumstances : Nat → Circumstances) (request : Envelope) :
    StateM Store Envelope := fun s =>
  let answer (work : Work EntrySet) : Envelope × Store :=
    match work s with
    | .ok entries s => (.success entries, s)
    | .error e s => (.error e, s)
  match request with
  | .query (.raw text) => answer (Store.execute circumstances text)
  | .query (.parsed queries) => answer (Store.query circumstances queries)
  | other =>
    (.error (.invalidRequest ("expected " ++ Envelope.queryTag ++ ", got " ++ other.tag)), s)

end RecordStore

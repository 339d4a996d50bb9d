import Mooncache.Common.Json

/-! Requests to the vendor and the events of its streams, as JSON. -/
namespace Mooncache

/-- A request body, split into the model it names and its other members. -/
structure ResponsesRequest where
  model : String
  body : Value

structure SseEvent where
  event : Option String
  data : String
  deriving DecidableEq, Repr

/-- A missing name reads as no event name; the derived reader also takes a pair. -/
def SseEvent.read : Value → Option SseEvent
  | .object members =>
    match members.lookup "event", members.lookup "data" with
    | none, some (.string data) | some .null, some (.string data) => some ⟨none, data⟩
    | some (.string event), some (.string data) => some ⟨some event, data⟩
    | _, _ => none
  | .array [.null, .string data] => some ⟨none, data⟩
  | .array [.string event, .string data] => some ⟨some event, data⟩
  | _ => none

def SseEvent.toValue (event : SseEvent) : Value :=
  .object [("event", (event.event.map Value.string).getD .null), ("data", .string event.data)]

variable [JsonReader]

def ResponsesRequest.fromValue : Value → Except String ResponsesRequest
  | .object members =>
    match members.lookup "model" with
    | some (.string model) => .ok ⟨model, .object (members.filter (·.1 ≠ "model"))⟩
    | _ => .error (mismatch "ResponsesRequest" (.object members))
  | value => .error (mismatch "ResponsesRequest" value)

end Mooncache

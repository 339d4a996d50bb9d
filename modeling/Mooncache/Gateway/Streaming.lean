import Mooncache.Gateway.Error
import Mooncache.Protocol.Responses

/-! Captured vendor streams and the artifact that stores one beside plain bodies. -/
namespace Mooncache

def streamingObjectType : String := "mooncache.streaming-response.v1"

structure CapturedStream where
  events : List SseEvent
  finalBody : Value

structure CachedStreamObject where
  mooncacheObject : String
  events : List SseEvent
  finalBody : Value

/-- A vendor stream is the list of what its `next` yields. -/
abbrev VendorEventStream := List (Except VendorError SseEvent)

def CachedStreamObject.toValue (object : CachedStreamObject) : Value :=
  .object [("mooncache_object", .string object.mooncacheObject),
    ("events", .array (object.events.map SseEvent.toValue)), ("final_body", object.finalBody)]

/-- Like `SseEvent`, the derived reader takes an object or its fields in order. -/
def CachedStreamObject.read : Value → Option CachedStreamObject
  | .object members =>
    match members.lookup "mooncache_object", members.lookup "events", members.lookup "final_body" with
    | some (.string mooncacheObject), some (.array events), some finalBody =>
      (events.mapM SseEvent.read).map fun events => ⟨mooncacheObject, events, finalBody⟩
    | _, _, _ => none
  | .array [.string mooncacheObject, .array events, finalBody] =>
    (events.mapM SseEvent.read).map fun events => ⟨mooncacheObject, events, finalBody⟩
  | _ => none

def isStreamingObject (value : Value) : Bool :=
  match (value.get "mooncache_object").bind Value.asStr with
  | some objectType => objectType = streamingObjectType
  | none => false

section
variable [JsonWriter]

def serializeStreamObject (captured : CapturedStream) : List UInt8 :=
  toVec (CachedStreamObject.toValue ⟨streamingObjectType, captured.events, captured.finalBody⟩)

end

variable [JsonReader]

/-- The text goes to the reader as its UTF-8 bytes. -/
def fromStr (text : String) : Except String Value := fromSlice text.toUTF8.toList

def aggregateFinalBody (events : List SseEvent) : Except VendorError Value :=
  match events.reverse.find? (·.event = some "response.completed") with
  | none => .error (.invalidResponse "stream completed without response.completed event")
  | some completed =>
    match fromStr completed.data with
    | .error err => .error (.invalidResponse ("response.completed data was not valid JSON: " ++ err))
    | .ok (.object members) => .ok ((members.lookup "response").getD (.object members))
    | .ok value => .ok value

/-- The loop of `collect_stream`: the events up to the first error. -/
def collectEvents : VendorEventStream → Except VendorError (List SseEvent)
  | [] => .ok []
  | .error err :: _ => .error err
  | .ok event :: rest =>
    match collectEvents rest with
    | .error err => .error err
    | .ok events => .ok (event :: events)

def collectStream (stream : VendorEventStream) : Except VendorError CapturedStream :=
  match collectEvents stream with
  | .error err => .error err
  | .ok events =>
    match aggregateFinalBody events with
    | .error err => .error err
    | .ok finalBody => .ok ⟨events, finalBody⟩

/-- A whole stream without errors, and the body that its last completed event carries. -/
structure Captures (stream : VendorEventStream) (captured : CapturedStream) : Prop where
  events : stream = captured.events.map .ok
  completed : ∃ earlier completed later, captured.events = earlier ++ completed :: later ∧
    completed.event = some "response.completed" ∧ (∀ event ∈ later, event.event ≠ some "response.completed") ∧
      ∃ value, fromStr completed.data = .ok value ∧ captured.finalBody = (value.get "response").getD value

omit [JsonReader] in
theorem collectEvents_eq_ok {stream : VendorEventStream} {events : List SseEvent} :
    collectEvents stream = .ok events ↔ stream = events.map .ok := by
  induction stream generalizing events with
  | nil =>
    rw [collectEvents, Except.ok.injEq]
    exact ⟨fun h => h ▸ rfl, fun h => (List.map_eq_nil_iff.mp h.symm).symm⟩
  | cons item rest ih =>
    cases item with
    | error err =>
      rw [collectEvents]
      cases events <;> simp
    | ok event =>
      rw [collectEvents]
      cases collected : collectEvents rest with
      | error err =>
        refine iff_of_false nofun fun same => ?_
        cases events with
        | nil => cases same
        | cons first others =>
          rw [ih.mpr (List.cons.inj same).2] at collected
          cases collected
      | ok others =>
        rw [ih.mp collected]
        cases events with
        | nil => simp
        | cons first more =>
          simp only [Except.ok.injEq, List.cons.injEq, List.map_cons]
          exact and_congr_right fun _ => (List.map_injective_iff.mpr fun _ _ => Except.ok.inj).eq_iff.symm

theorem aggregateFinalBody_ok {events : List SseEvent} {body : Value} (h : aggregateFinalBody events = .ok body) :
    ∃ earlier completed later, events = earlier ++ completed :: later ∧
      completed.event = some "response.completed" ∧ (∀ event ∈ later, event.event ≠ some "response.completed") ∧
        ∃ value, fromStr completed.data = .ok value ∧ body = (value.get "response").getD value := by
  unfold aggregateFinalBody at h
  split at h
  · cases h
  · rename_i completed found
    obtain ⟨named, before, after, split, others⟩ := List.find?_eq_some_iff_append.mp found
    have whole : events = after.reverse ++ completed :: before.reverse := by
      rw [← List.reverse_reverse events, split]
      simp
    refine ⟨after.reverse, completed, before.reverse, whole, of_decide_eq_true named, fun event member => ?_, ?_⟩
    · simpa using others event (List.mem_reverse.mp member)
    · split at h
      · cases h
      · rename_i members read
        exact ⟨.object members, read, (Except.ok.inj h).symm⟩
      · rename_i value other read
        cases h
        refine ⟨body, read, ?_⟩
        cases body with
        | object members => exact absurd rfl (other members)
        | _ => rfl

theorem collectStream_captures {stream : VendorEventStream} {captured : CapturedStream}
    (h : collectStream stream = .ok captured) : Captures stream captured := by
  unfold collectStream at h
  split at h
  · cases h
  · rename_i events collected
    split at h
    · cases h
    · rename_i body aggregated
      cases h
      exact ⟨collectEvents_eq_ok.mp collected, aggregateFinalBody_ok aggregated⟩

/-- `serde_json::from_value`. -/
def CachedStreamObject.fromValue (value : Value) : Except String CachedStreamObject :=
  match CachedStreamObject.read value with
  | some object => .ok object
  | none => .error (mismatch "CachedStreamObject" value)

def cachedBodyFromBytes (bytes : List UInt8) : Except String Value :=
  match fromSlice bytes with
  | .error err => .error err
  | .ok value =>
    if isStreamingObject value then
      match CachedStreamObject.fromValue value with
      | .error err => .error err
      | .ok object => .ok object.finalBody
    else .ok value

def streamObjectFromBytes (bytes : List UInt8) : Except String (Option CachedStreamObject) :=
  match fromSlice bytes with
  | .error err => .error err
  | .ok value =>
    if isStreamingObject value then
      match CachedStreamObject.fromValue value with
      | .error err => .error err
      | .ok object => .ok (some object)
    else .ok none

theorem cachedBodyFromBytes_of_plain {bytes : List UInt8} {value : Value} (h : fromSlice bytes = .ok value)
    (plain : isStreamingObject value = false) : cachedBodyFromBytes bytes = .ok value := by
  simp [cachedBodyFromBytes, h, plain]

/-- The two readers agree on what decodes; only the plain one accepts a plain body. -/
theorem cachedBodyFromBytes_eq (bytes : List UInt8) : cachedBodyFromBytes bytes =
    match streamObjectFromBytes bytes with
    | .error err => .error err
    | .ok (some object) => .ok object.finalBody
    | .ok none => fromSlice bytes := by
  unfold cachedBodyFromBytes streamObjectFromBytes
  cases fromSlice bytes with
  | error err => rfl
  | ok value =>
    cases tagged : isStreamingObject value with
    | false => simp [tagged]
    | true => cases decoded : CachedStreamObject.fromValue value <;> simp [tagged, decoded]

theorem fromSlice_of_stream_none {bytes : List UInt8} (h : streamObjectFromBytes bytes = .ok none) :
    ∃ value, fromSlice bytes = .ok value := by
  unfold streamObjectFromBytes at h
  cases read : fromSlice bytes with
  | error err =>
    rw [read] at h
    cases h
  | ok value => exact ⟨value, rfl⟩

end Mooncache

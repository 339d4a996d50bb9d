import Mooncache.Gateway.Streaming
import Mooncache.Fingerprint.Documents

/-! What is read back from a stored artifact: a plain vendor body or a captured stream, told
apart by a member of the document itself. -/
namespace Mooncache
theorem isStreamingObject_eq_true {value : Value} : isStreamingObject value = true ↔
    ∃ members, value = .object members ∧ members.lookup "mooncache_object" = some (.string streamingObjectType) := by
  cases value with
  | object members =>
    simp only [isStreamingObject, Value.get, Value.object.injEq, exists_eq_left']
    cases members.lookup "mooncache_object" with
    | none => simp
    | some tag => cases tag <;> simp [Value.asStr]
  | _ => simp [isStreamingObject, Value.get]

private theorem tagged_of_same {value other : Value} (h : value.Same other) (formed : value.wellFormed = true)
    (otherFormed : other.wellFormed = true) (tagged : isStreamingObject other = true) :
    isStreamingObject value = true := by
  obtain ⟨others, rfl, tag⟩ := isStreamingObject_eq_true.mp tagged
  obtain ⟨members, rfl, _⟩ := h.of_object
  obtain ⟨found, stored, same⟩ :=
    h.lookup (Value.names_nodup formed) (Value.names_nodup otherFormed) "mooncache_object" tag
  rw [same.of_string] at stored
  exact isStreamingObject_eq_true.mpr ⟨members, rfl, stored⟩

theorem isStreamingObject_congr {value other : Value} (h : value.Same other) (formed : value.wellFormed = true)
    (otherFormed : other.wellFormed = true) : isStreamingObject value = isStreamingObject other :=
  Bool.eq_iff_iff.mpr ⟨tagged_of_same (h.symm formed otherFormed) otherFormed formed,
    tagged_of_same h formed otherFormed⟩

theorem SseEvent.wellFormed_toValue (event : SseEvent) : event.toValue.wellFormed = true := by
  obtain ⟨_ | name, data⟩ := event <;> rfl

theorem SseEvent.wellFormedItems_map (events : List SseEvent) :
    Value.wellFormedItems (events.map SseEvent.toValue) = true := by
  induction events with
  | nil => rfl
  | cons event events ih =>
    rw [List.map_cons, Value.wellFormedItems, wellFormed_toValue, ih]
    rfl

theorem SseEvent.read_same {value : Value} {event : SseEvent} (h : value.Same event.toValue)
    (formed : value.wellFormed = true) : SseEvent.read value = some event := by
  obtain ⟨members, rfl, _⟩ := Value.Same.of_object h
  have names := Value.names_nodup formed
  have written := Value.names_nodup event.wellFormed_toValue
  obtain ⟨data, stored, sameData⟩ := h.lookup names written "data" rfl
  obtain ⟨name, named, sameName⟩ := h.lookup names written "event" rfl
  rw [sameData.of_string] at stored
  obtain ⟨_ | label, text⟩ := event
  · rw [Value.Same.of_null sameName] at named
    simp [SseEvent.read, named, stored]
  · rw [Value.Same.of_string sameName] at named
    simp [SseEvent.read, named, stored]

theorem SseEvent.mapM_read_same {items : List Value} {events : List SseEvent}
    (h : Value.SameItems items (events.map SseEvent.toValue)) (formed : Value.wellFormedItems items = true) :
    items.mapM SseEvent.read = some events := by
  induction events generalizing items with
  | nil =>
    cases items with
    | nil => rfl
    | cons => cases h
  | cons event events ih =>
    cases items with
    | nil => cases h
    | cons item items =>
      simp only [Value.wellFormedItems, Bool.and_eq_true] at formed
      simp [SseEvent.read_same h.1 formed.1, ih h.2 formed.2]

theorem CachedStreamObject.wellFormed_toValue (object : CachedStreamObject)
    (formed : object.finalBody.wellFormed = true) : object.toValue.wellFormed = true := by
  simp [toValue, Value.wellFormed, Value.wellFormedMembers, SseEvent.wellFormedItems_map, formed]

/-- The envelope reads back, up to the order of members in the final body. -/
theorem CachedStreamObject.read_same {value : Value} {object : CachedStreamObject} (h : value.Same object.toValue)
    (formed : value.wellFormed = true) (bodyFormed : object.finalBody.wellFormed = true) :
    ∃ finalBody, CachedStreamObject.read value = some { object with finalBody := finalBody } ∧
      finalBody.Same object.finalBody := by
  obtain ⟨members, rfl, _⟩ := Value.Same.of_object h
  have names := Value.names_nodup formed
  have written := Value.names_nodup (object.wellFormed_toValue bodyFormed)
  obtain ⟨tag, tagged, sameTag⟩ := h.lookup names written "mooncache_object" rfl
  obtain ⟨events, stored, sameEvents⟩ := h.lookup names written "events" rfl
  obtain ⟨finalBody, aggregated, sameBody⟩ := h.lookup names written "final_body" rfl
  obtain ⟨items, rfl, sameItems⟩ := sameEvents.of_array
  rw [sameTag.of_string] at tagged
  simp only [Value.wellFormed, Bool.and_eq_true, decide_eq_true_eq] at formed
  have eventsFormed : Value.wellFormedItems items = true := by
    obtain ⟨_, _, split, _⟩ := List.lookup_eq_some_iff.mp stored
    have listed : ("events", Value.array items) ∈ members := by simp [split]
    exact Value.wellFormed_of_mem formed.2 listed
  have reads := SseEvent.mapM_read_same sameItems eventsFormed
  exact ⟨finalBody, by simp [CachedStreamObject.read, tagged, stored, aggregated, reads], sameBody⟩

variable [JsonWriter] [JsonReader]

/-- What `serialize_stream_object` writes. -/
def CapturedStream.envelope (captured : CapturedStream) : Value :=
  CachedStreamObject.toValue ⟨streamingObjectType, captured.events, captured.finalBody⟩

/-- A plain body and a captured stream are each read back as what they are. -/
structure DecodeApart (plain : Value) (captured : CapturedStream) : Prop where
  body : ∃ found, cachedBodyFromBytes (toVec plain) = .ok found ∧ found.Same plain
  notStream : streamObjectFromBytes (toVec plain) = .ok none
  finalBody : ∃ found, cachedBodyFromBytes (serializeStreamObject captured) = .ok found ∧
    found.Same captured.finalBody
  stream : ∃ object, streamObjectFromBytes (serializeStreamObject captured) = .ok (some object) ∧
    object.events = captured.events ∧ object.finalBody.Same captured.finalBody

/-- A captured stream is read back as it was stored. -/
theorem streamObjectFromBytes_serialize {captured : CapturedStream} (formed : captured.finalBody.wellFormed = true)
    (h : RoundTrips captured.envelope) :
    ∃ object, streamObjectFromBytes (serializeStreamObject captured) = .ok (some object) ∧
      object.events = captured.events ∧ object.finalBody.Same captured.finalBody := by
  obtain ⟨found, read, foundFormed, same⟩ := h
  obtain ⟨finalBody, decoded, sameBody⟩ := CachedStreamObject.read_same same foundFormed formed
  refine ⟨⟨streamingObjectType, captured.events, finalBody⟩, ?_, rfl, sameBody⟩
  have tagged : isStreamingObject found = true :=
    tagged_of_same same foundFormed (CachedStreamObject.wellFormed_toValue _ formed)
      (isStreamingObject_eq_true.mpr ⟨_, rfl, rfl⟩)
  have bytes : fromSlice (serializeStreamObject captured) = .ok found := read
  simp [streamObjectFromBytes, bytes, tagged, CachedStreamObject.fromValue, decoded]

/-- The two kinds of artifact decode apart for exactly the bodies that do not carry the tag of
a stream. -/
theorem artifacts_decode_apart {plain : Value} {captured : CapturedStream} (formed : plain.wellFormed = true)
    (bodyFormed : captured.finalBody.wellFormed = true) (written : RoundTrips plain)
    (envelope : RoundTrips captured.envelope) : DecodeApart plain captured ↔ isStreamingObject plain = false := by
  obtain ⟨found, read, foundFormed, same⟩ := written
  rw [← isStreamingObject_congr same foundFormed formed]
  constructor
  · intro apart
    have notStream := apart.notStream
    cases tagged : isStreamingObject found with
    | false => rfl
    | true =>
      simp only [streamObjectFromBytes, read, tagged, ↓reduceIte] at notStream
      cases decoded : CachedStreamObject.fromValue found <;> simp [decoded] at notStream
  · intro untagged
    obtain ⟨object, replayed, events, finalBody⟩ := streamObjectFromBytes_serialize bodyFormed envelope
    refine ⟨⟨found, cachedBodyFromBytes_of_plain read untagged, same⟩, ?_, ⟨object.finalBody, ?_, finalBody⟩,
      ⟨object, replayed, events, finalBody⟩⟩
    · simp [streamObjectFromBytes, read, untagged]
    · rw [cachedBodyFromBytes_eq, replayed]

private def vendorBody : Value := .object [("id", .string "resp_1")]

/-- A vendor body that carries the tag. -/
private def taggedBody : Value :=
  .object [("id", .string "resp_1"), ("mooncache_object", .string streamingObjectType)]

private def vendorStream : CapturedStream := ⟨[⟨some "response.completed", "\x7b\x7d"⟩], vendorBody⟩

/-- The envelope with its members in the order of their names, as the reader holds them. -/
private def storedEnvelope : Value :=
  .object [("events", .array (vendorStream.events.map SseEvent.toValue)), ("final_body", vendorBody),
    ("mooncache_object", .string streamingObjectType)]

private def asciiBytes (text : String) : List UInt8 := text.toList.map fun c => c.toNat.toUInt8

private def vendorText : List UInt8 := asciiBytes "\x7b\"id\":\"resp_1\"\x7d"

private def taggedText : List UInt8 :=
  asciiBytes "\x7b\"id\":\"resp_1\",\"mooncache_object\":\"mooncache.streaming-response.v1\"\x7d"

private def envelopeText : List UInt8 :=
  asciiBytes ("\x7b\"mooncache_object\":\"mooncache.streaming-response.v1\"," ++
    "\"events\":[\x7b\"event\":\"response.completed\",\"data\":\"\x7b\x7d\"\x7d]," ++
    "\"final_body\":\x7b\"id\":\"resp_1\"\x7d\x7d")

/-- The compact texts of the three values. -/
@[reducible] private def writerOfThree : JsonWriter where
  toVec value :=
    if isStreamingObject value then (if (value.get "id").isSome then taggedText else envelopeText) else vendorText

@[reducible] private def readerOfThree : JsonReader where
  fromSlice bytes :=
    if bytes = vendorText then .ok vendorBody
    else if bytes = taggedText then .ok taggedBody
    else if bytes = envelopeText then .ok storedEnvelope else .error "expected value at line 1 column 1"
  mismatch expected _ := "invalid type for " ++ expected

set_option maxRecDepth 2000 in
omit [JsonWriter] [JsonReader] in
private theorem roundTrips_three :
    let _ := writerOfThree
    let _ := readerOfThree
    RoundTrips vendorBody ∧ RoundTrips taggedBody ∧ RoundTrips vendorStream.envelope := by
  let _ := writerOfThree
  let _ := readerOfThree
  refine ⟨⟨vendorBody, rfl, rfl, ?_⟩, ⟨taggedBody, rfl, rfl, ?_⟩, ⟨storedEnvelope, rfl, rfl, ?_⟩⟩
  · exact Value.Same.refl rfl
  · exact Value.Same.refl rfl
  · exact Value.Same.of_perm rfl rfl (List.perm_append_singleton _ [_, _])

omit [JsonWriter] [JsonReader] in
/-- A body without the tag, beside a stream of the same final body. -/
theorem untagged_body_decodes :
    let _ := writerOfThree
    let _ := readerOfThree
    DecodeApart vendorBody vendorStream := by
  let _ := writerOfThree
  let _ := readerOfThree
  exact (artifacts_decode_apart rfl rfl roundTrips_three.1 roundTrips_three.2.2).mpr rfl

omit [JsonWriter] [JsonReader] in
/-- A body with the tag is taken for a stream. -/
theorem tagged_body_not_decoded :
    ¬ ∀ [JsonWriter] [JsonReader] (plain : Value) (captured : CapturedStream), plain.wellFormed = true →
      captured.finalBody.wellFormed = true → RoundTrips plain → RoundTrips captured.envelope →
      DecodeApart plain captured := by
  intro decodes
  let _ := writerOfThree
  let _ := readerOfThree
  have ignored := (decodes taggedBody vendorStream rfl rfl roundTrips_three.2.1 roundTrips_three.2.2).notStream
  cases ignored

end Mooncache

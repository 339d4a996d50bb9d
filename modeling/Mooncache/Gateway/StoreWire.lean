import Mooncache.Gateway.Wire
import Mooncache.Store.Recovery

/-! What `RemoteStoreClient` sends to a store node, what the node's routes read from it and answer,
and what the client makes of the answers. -/
namespace Mooncache
open Value (Lists ReadsBack asStr asBool asUnsigned asBytes)

/-- The debug text of a string, quoted and escaped by the standard library. -/
class DebugText where
  debugText : String → String

export DebugText (debugText)

/-- The display text of a path. -/
def PathBuf.text (path : PathBuf) : String :=
  (if path.absolute then "/" else "") ++ String.intercalate "/" path.components

section
variable [DebugText]

/-- The error's display text. -/
def SsdError.text : SsdError → String
  | .invalidPathSegment kind value => "invalid " ++ kind ++ " path segment: " ++ debugText value
  | .notFound tenantId cacheKey =>
    "SSD object not found for tenant " ++ debugText tenantId ++ " and cache key " ++ debugText cacheKey
  | .corruptObject reason => "SSD object is corrupt: " ++ reason
  | .encryption => "failed to encrypt SSD object"
  | .decryption => "failed to decrypt SSD object"
  | .io op path source => "SSD io error while " ++ op ++ " " ++ path.text ++ ": " ++ source

def jsonAnswer (status : Nat) (message : String) : HttpAnswer := ⟨status, some (.object [("error", .string message)])⟩

omit [DebugText] in
def storeErrorToResponse (err : StoreError) : HttpAnswer :=
  let code := match err with
    | .emptyChunk | .lengthMismatch _ _ => 400
    | .insufficientCapacity _ _ => 507
    | .invalidHandle _ _ | .unwrittenChunk => 404
    | .checksumMismatch _ => 500
  jsonAnswer code err.text

def ssdErrorToResponse (err : SsdError) : HttpAnswer :=
  let code := match err with
    | .invalidPathSegment _ _ => 400
    | .notFound _ _ => 404
    | .corruptObject _ | .encryption | .decryption | .io _ _ _ => 500
  jsonAnswer code err.text

/-- The text of the error that the node has met. -/
def StoreNodeError.text : StoreNodeError → String
  | .store err => err.text
  | .ssd err => err.text

def storeNodeErrorToResponse : StoreNodeError → HttpAnswer
  | .store err => storeErrorToResponse err
  | .ssd err => ssdErrorToResponse err

/-- The JSON of a `WriteChunkResponse`. -/
def writeChunkResponse (handle : ChunkHandle) : Value :=
  .object [("ok", .bool true), ("offset", .number (.posInt handle.offset)), ("len", .number (.posInt handle.len))]

def ReadChunkResponse.toValue (response : ReadChunkResponse) : Value :=
  .object [("offset", .number (.posInt response.offset)), ("len", .number (.posInt response.len)),
    ("tier", .string response.tier), ("data", .array (response.data.map fun b => .number (.posInt b.toNat)))]

namespace StoreNode

def postChunk (len : Nat) (data : List UInt8) : NodeProgram HttpAnswer := do
  match ← allocateAndWrite len data with
  | .error err => return storeErrorToResponse err
  | .ok handle => return ⟨200, some (writeChunkResponse handle)⟩

def postChunkPreallocated (ssd : Option SsdStore) (handle : ChunkHandle) (bytes : List UInt8)
    (tenantId cacheKey : Option String) : NodeProgram HttpAnswer := do
  match ← writePreallocated ssd handle bytes tenantId cacheKey with
  | .error err => return storeNodeErrorToResponse err
  | .ok () => return ⟨200, some (writeChunkResponse handle)⟩

def getChunk (ssd : Option SsdStore) (handle : ChunkHandle) (tenantId cacheKey : Option String) :
    NodeProgram HttpAnswer := do
  match ← readChunk ssd handle tenantId cacheKey with
  | .error err => return storeNodeErrorToResponse err
  | .ok response => return ⟨200, some response.toValue⟩

end StoreNode

/-- The handler of a request. -/
def NodeRequest.handle (ssd : Option SsdStore) : NodeRequest → NodeProgram HttpAnswer
  | .allocateAndWrite len data => StoreNode.postChunk len data
  | .writePreallocated handle bytes tenantId cacheKey =>
    StoreNode.postChunkPreallocated ssd handle bytes tenantId cacheKey
  | .readChunk handle tenantId cacheKey => StoreNode.getChunk ssd handle tenantId cacheKey

end

/-- `usize::from_str`. -/
def parseUsize (text : List Char) : Option Nat :=
  let digits := if text.head? = some '+' then text.tail else text
  if digits ≠ [] ∧ digits.all Char.isDigit ∧ Nat.ofDigitChars 10 digits 0 ≤ wordMax then
    some (Nat.ofDigitChars 10 digits 0)
  else none

/-- A parameter of a path, which the router decodes before it is parsed. -/
def usizeParam (segment : List Char) : Option Nat := parseUsize (fromUtf8Lossy (percentDecode (utf8 segment)))

structure WriteChunkRequest where
  len : Nat
  data : List UInt8

def WriteChunkRequest.fromValue (body : Value) : Option WriteChunkRequest := do
  let len ← body.field "len" asUnsigned
  let data ← body.field "data" asBytes
  return ⟨len, data⟩

/-- The lengths and offsets of a request are words. -/
def NodeRequest.Words : NodeRequest → Prop
  | .allocateAndWrite len _ => len ≤ wordMax
  | .writePreallocated handle _ _ _ | .readChunk handle _ _ => handle.offset ≤ wordMax ∧ handle.len ≤ wordMax

instance (request : NodeRequest) : Decidable request.Words := by
  cases request <;> unfold NodeRequest.Words <;> infer_instance

/-- The routes of `build_router_with_state` with the extractors of their handlers. -/
def NodeRequest.ofRoute : HttpRequest → Option NodeRequest
  | .get path =>
    match (routePath path).toList.splitOn '/' with
    | [[], chunks, offset, len] =>
      if chunks = "chunks".toList then do
        let offset ← usizeParam offset
        let len ← usizeParam len
        let query ← ReadChunkQuery.fromQuery (pathQuery path)
        return .readChunk ⟨offset, len⟩ query.tenantId query.cacheKey
      else none
    | _ => none
  | .post path body =>
    if path = "/chunks" then do
      let request ← WriteChunkRequest.fromValue body
      return .allocateAndWrite request.len request.data
    else if path = "/chunks/preallocated" then do
      let request ← PreallocatedWriteRequest.fromValue body
      return .writePreallocated ⟨request.offset, request.len⟩ request.data request.tenantId request.cacheKey
    else none
  | .delete _ => none

/-- A number that is no word is not read. -/
def NodeRequest.ofHttp (received : HttpRequest) : Option NodeRequest :=
  (ofRoute received).filter fun request => decide request.Words

/-- What a node runs for a request. -/
def NodeRequest.Routed [DebugText] (ssd : Option SsdStore) (received : HttpRequest)
    (handler : NodeProgram HttpAnswer) : Prop :=
  match ofHttp received with
  | some request => handler = request.handle ssd
  | none => ∃ answer : HttpAnswer, answer.Refusal ∧ handler = pure answer

structure StoreReadResponse where
  offset : Nat
  len : Nat
  tier : Option String
  data : List UInt8

def StoreReadResponse.fromValue (body : Value) : Option StoreReadResponse := do
  let offset ← body.field "offset" asUnsigned
  let len ← body.field "len" asUnsigned
  let tier ← body.optionalField "tier" asStr
  let data ← body.field "data" asBytes
  return ⟨offset, len, tier, data⟩

namespace RemoteStoreClient

/-- The request of a call, once the URL of its node is found; the other calls are not to a store. -/
def request : Call → Option HttpRequest
  | .readChunk tenantId cacheKey handle => some (.get (readChunkPath tenantId cacheKey handle))
  | .writePreallocatedChunk _ tenantId cacheKey handle bytes =>
    some (.post "/chunks/preallocated" (writePreallocatedChunkBody tenantId cacheKey handle bytes))
  | _ => none

/-- The text of a `StoreErrorResponse`, or the one that stands for it. -/
def errorText (body : Option Value) : String := (body.bind fun value => value.field "error" asStr).getD "unknown error"

/-- What the client makes of an answer. The text of an error in reading a body is left open. -/
def Hears : (call : Call) → HttpAnswer → call.Reply → Prop
  | .readChunk _ _ _, answer, reply =>
    if answer.isSuccess then
      match answer.body.bind StoreReadResponse.fromValue with
      | some response => reply = .ok ⟨response.data, response.tier.getD "dram"⟩
      | none => ∃ message, reply = .error (.storeUpstream message)
    else reply = .error (.storeUpstream (errorText answer.body))
  | .writePreallocatedChunk _ _ _ _ _, answer, reply =>
    if answer.isSuccess then reply = .ok () else reply = .error (.storeUpstream (errorText answer.body))
  | _, _, _ => False

/-- What a call asks the node to do. -/
def job : Call → Option NodeJob
  | .readChunk tenantId cacheKey handle => some (.read ⟨handle, tenantId.value, cacheKey.value⟩)
  | .writePreallocatedChunk _ tenantId cacheKey handle bytes =>
    some (.write ⟨handle, bytes, tenantId.value, cacheKey.value⟩)
  | _ => none

/-- The numbers of a call are words, and a query carries its object as it is, if it is sent in one. -/
def Carried : Call → Prop
  | .readChunk tenantId cacheKey handle => handle.offset ≤ wordMax ∧ handle.len ≤ wordMax ∧
    SurvivesQuery tenantId.value.toList ∧ SurvivesQuery cacheKey.value.toList
  | .writePreallocatedChunk _ _ _ handle _ => handle.offset ≤ wordMax ∧ handle.len ≤ wordMax
  | _ => True

end RemoteStoreClient

/-- The bodies that a client and a node send each other. -/
inductive NodeMessage : Value → Prop
  | write (tenantId : TenantId) (cacheKey : CacheKey) (handle : ChunkHandle) (bytes : List UInt8) :
      NodeMessage (RemoteStoreClient.writePreallocatedChunkBody tenantId cacheKey handle bytes)
  | written (handle : ChunkHandle) : NodeMessage (writeChunkResponse handle)
  | read (response : ReadChunkResponse) : NodeMessage response.toValue
  | error (message : String) : NodeMessage (.object [("error", .string message)])

/-- The text of a message is read as the same members, in some order. -/
def NodeFaithful (carries : Value → Value → Prop) : Prop :=
  ∀ sent received, NodeMessage sent → carries sent received → received.wellFormed = true ∧ received.Same sent

/-! What arrives is what was sent. -/

section
variable {n : Nat}

private theorem digits_isDigit (c : Char) (member : c ∈ (toString n).toList) : c.isDigit = true :=
  Nat.isDigit_of_mem_toDigits (b := 10) (n := n) (by decide) (by decide) (by simpa using member)

private theorem not_digit {c : Char} (h : c.isDigit = false) : c ∉ (toString n).toList := fun member => by
  rw [digits_isDigit c member] at h
  cases h

/-- The digits of a word are read back. -/
theorem parseUsize_toString (word : n ≤ wordMax) : parseUsize (toString n).toList = some n := by
  have digits : (toString n).toList = Nat.toDigits 10 n := by simp
  have value : Nat.ofDigitChars 10 (toString n).toList 0 = n := by rw [digits, Nat.ofDigitChars_ten_toDigits]
  have present : (toString n).toList ≠ [] := by
    rw [digits]
    exact Nat.toDigits_ne_nil
  have plain : (toString n).toList.head? ≠ some '+' := fun head =>
    not_digit (by decide : '+'.isDigit = false) (List.mem_of_head? head)
  have all : (toString n).toList.all Char.isDigit = true := List.all_eq_true.mpr digits_isDigit
  rw [parseUsize, if_neg plain, value, if_pos ⟨present, all, word⟩]

theorem usizeParam_toString (word : n ≤ wordMax) : usizeParam (toString n).toList = some n := by
  have escape : hasEscape (toString n).toList = false :=
    hasEscape_of_no_percent (not_digit (by decide : '%'.isDigit = false))
  rw [usizeParam, percentDecode_utf8 escape]
  exact (congrArg parseUsize (fromUtf8Lossy_flatMap _)).trans (parseUsize_toString word)

end

section
variable {tenantId : TenantId} {cacheKey : CacheKey} {handle : ChunkHandle}

private theorem routePath_readChunk :
    (routePath (RemoteStoreClient.readChunkPath tenantId cacheKey handle)).toList = [] ++ '/' ::
      ("chunks".toList ++ '/' :: ((toString handle.offset).toList ++ '/' :: (toString handle.len).toList)) := by
  have chunks : '?' ∉ "/chunks/".toList := by decide
  have slash : '?' ∉ "/".toList := by decide
  have number (n : Nat) : '?' ∉ (toString n).toList := not_digit (by decide)
  have path : RemoteStoreClient.readChunkPath tenantId cacheKey handle =
      "/chunks/" ++ toString handle.offset ++ "/" ++ toString handle.len ++ "?tenant_id=" ++ tenantId.value ++
        "&cache_key=" ++ cacheKey.value := rfl
  rw [path, routePath_front _ (by simp only [String.toList_append, List.mem_append, chunks, slash, number, or_self,
    not_false_eq_true])]
  simp

theorem ofRoute_readChunk (carried : RemoteStoreClient.Carried (.readChunk tenantId cacheKey handle)) :
    NodeRequest.ofRoute (.get (RemoteStoreClient.readChunkPath tenantId cacheKey handle)) =
      some (.readChunk handle (some tenantId.value) (some cacheKey.value)) := by
  obtain ⟨offset, len, tenant, key⟩ := carried
  have pieces : (routePath (RemoteStoreClient.readChunkPath tenantId cacheKey handle)).toList.splitOn '/' =
      [[], "chunks".toList, (toString handle.offset).toList, (toString handle.len).toList] := by
    have slash (n : Nat) : '/' ∉ (toString n).toList := not_digit (by decide)
    rw [routePath_readChunk, List.splitOn_append_cons_self, List.splitOn_append_cons_self,
      List.splitOn_append_cons_self, List.splitOn_eq_singleton (slash _), List.splitOn_eq_singleton (slash _)]
    rfl
  rw [NodeRequest.ofRoute, pieces]
  simp only [↓reduceIte, usizeParam_toString offset, usizeParam_toString len, fromQuery_readChunk tenant key]
  rfl

end

theorem bytes_readBack (bytes : List UInt8) :
    ReadsBack (fun bytes : List UInt8 => .array (bytes.map fun b => .number (.posInt b.toNat))) asBytes bytes := by
  refine ⟨?_, fun _ same => ?_⟩
  · induction bytes with
    | nil => rfl
    | cons b rest ih => exact ih
  · obtain ⟨items, rfl, sameItems⟩ := same.of_array
    exact Value.mapM_asByte_same sameItems

namespace NodeMessage

theorem formed {value : Value} (h : NodeMessage value) : value.wellFormed = true := by
  have items (bytes : List UInt8) := (bytes_readBack bytes).formed
  simp only [Value.wellFormed] at items
  cases h with
  | write tenantId cacheKey handle bytes =>
    simp [RemoteStoreClient.writePreallocatedChunkBody, Value.wellFormed, Value.wellFormedMembers, items]
  | read response => simp [ReadChunkResponse.toValue, Value.wellFormed, Value.wellFormedMembers, items]
  | written | error => rfl

variable {carries : Value → Value → Prop} {found : Value}

theorem fromValue_read (faithful : NodeFaithful carries) {response : ReadChunkResponse}
    (carried : carries response.toValue found) :
    StoreReadResponse.fromValue found = some ⟨response.offset, response.len, some response.tier, response.data⟩ := by
  obtain ⟨formed, same⟩ := faithful _ _ (.read response) carried
  have members : Lists found _ := ⟨formed, same, by simp⟩
  have tier : found.optionalField "tier" asStr = some (some response.tier) :=
    members.optionalField "tier" (fun text _ => ⟨.string text, by simp⟩) rfl
  rw [StoreReadResponse.fromValue, members.field "offset" (.unsigned _) rfl, members.field "len" (.unsigned _) rfl, tier,
    members.field "data" (bytes_readBack _) rfl]
  rfl

theorem field_error (faithful : NodeFaithful carries) {message : String}
    (carried : carries (.object [("error", .string message)]) found) : found.field "error" asStr = some message := by
  obtain ⟨formed, same⟩ := faithful _ _ (.error message) carried
  exact Lists.field ⟨formed, same, by simp⟩ "error" (.string _) rfl

end NodeMessage

/-- The body of a success. -/
def NodeResponse.body (handle : ChunkHandle) : NodeResponse → Value
  | .allocated handle => writeChunkResponse handle
  | .written => writeChunkResponse handle
  | .read response => response.toValue

section
variable [DebugText]

/-- What a job answers. -/
def NodeJob.answer (job : NodeJob) : Except StoreNodeError NodeResponse → HttpAnswer
  | .error err => storeNodeErrorToResponse err
  | .ok response => ⟨200, some (response.body job.object.handle)⟩

/-- A handler runs the job and answers with what comes of it. -/
theorem NodeJob.handle_request (ssd : SsdStore) (job : NodeJob) :
    job.request.handle (some ssd) = (job.program ssd).bind fun result => .done (job.answer result) := by
  cases job with
  | write w =>
    refine Eq.trans ?_ (Program.bind_assoc _ _ _).symm
    refine congrArg (Program.bind _) (funext fun result => ?_)
    cases result <;> rfl
  | read object =>
    refine Eq.trans ?_ (Program.bind_assoc _ _ _).symm
    refine congrArg (Program.bind _) (funext fun result => ?_)
    cases result <;> rfl

end

namespace RemoteStoreClient
variable {carries : Value → Value → Prop} {call : Call} {job : NodeJob}

/-- A node reads from a request what its call asks. -/
theorem ofHttp_request (faithful : NodeFaithful carries) (carried : Carried call)
    (asks : RemoteStoreClient.job call = some job) {sent received : HttpRequest} (sends : request call = some sent)
    (arrives : sent.Arrives carries received) : NodeRequest.ofHttp received = some job.request := by
  cases call with
  | readChunk tenantId cacheKey handle =>
    cases asks
    cases sends
    cases arrives
    have words : (NodeJob.read ⟨handle, tenantId.value, cacheKey.value⟩).request.Words := ⟨carried.1, carried.2.1⟩
    rw [NodeRequest.ofHttp, ofRoute_readChunk carried]
    exact if_pos (decide_eq_true words)
  | writePreallocatedChunk nodeId tenantId cacheKey handle bytes =>
    cases asks
    cases sends
    obtain ⟨found, text, rfl⟩ := arrives
    obtain ⟨formed, same⟩ := faithful _ _ (.write tenantId cacheKey handle bytes) text
    have words : (NodeJob.write ⟨handle, bytes, tenantId.value, cacheKey.value⟩).request.Words := carried
    rw [NodeRequest.ofHttp, NodeRequest.ofRoute, if_neg (by decide), if_pos rfl,
      PreallocatedWriteRequest.fromValue_same formed same]
    exact if_pos (decide_eq_true words)
  | _ => cases asks

end RemoteStoreClient

section
variable [DebugText] {carries : Value → Value → Prop} {received : HttpAnswer}

/-- An error is answered with its text, and not as a success. -/
theorem storeNodeErrorToResponse_eq (err : StoreNodeError) :
    ∃ status, 400 ≤ status ∧ storeNodeErrorToResponse err = jsonAnswer status err.text := by
  cases err with
  | store err => cases err <;> exact ⟨_, by simp, rfl⟩
  | ssd err => cases err <;> exact ⟨_, by simp, rfl⟩

namespace RemoteStoreClient
variable {nodeId : String} {tenantId : TenantId} {cacheKey : CacheKey} {handle : ChunkHandle} {bytes : List UInt8}

private theorem error_arrives (faithful : NodeFaithful carries) {err : StoreNodeError}
    (arrives : (storeNodeErrorToResponse err).Arrives carries received) :
    received.isSuccess = false ∧ errorText received.body = err.text := by
  obtain ⟨status, failed, same⟩ := storeNodeErrorToResponse_eq err
  rw [same] at arrives
  obtain ⟨code, found, carried, body⟩ := arrives
  refine ⟨?_, ?_⟩
  · have below : ¬ status < 300 := by omega
    simp [HttpAnswer.isSuccess, code, jsonAnswer, below]
  · rw [errorText, body, Option.bind_some, NodeMessage.field_error faithful carried, Option.getD_some]

/-- A client hears that a write was done only where the node has done it. -/
theorem done_of_hears (faithful : NodeFaithful carries) {job : NodeJob} {result : Except StoreNodeError NodeResponse}
    (arrives : (job.answer result).Arrives carries received)
    (hears : Hears (.writePreallocatedChunk nodeId tenantId cacheKey handle bytes) received (.ok ())) :
    ∃ response, result = .ok response := by
  cases result with
  | ok response => exact ⟨response, rfl⟩
  | error err =>
    obtain ⟨failed, _⟩ := error_arrives faithful arrives
    simp [Hears, failed] at hears

/-- What a client hears of a read that has found the bytes. -/
theorem hears_read (faithful : NodeFaithful carries) {object : StoredObject} {response : ReadChunkResponse}
    {reply : GatewayResult StoreChunk}
    (arrives : ((NodeJob.read object).answer (.ok (.read response))).Arrives carries received)
    (hears : Hears (.readChunk tenantId cacheKey handle) received reply) :
    reply = .ok ⟨response.data, response.tier⟩ := by
  obtain ⟨status, found, carried, body⟩ := arrives
  simpa [Hears, HttpAnswer.isSuccess, status, NodeJob.answer, body, NodeMessage.fromValue_read faithful carried] using hears

/-- What a client hears of a read that has failed. -/
theorem hears_failed (faithful : NodeFaithful carries) {object : StoredObject} {err : StoreNodeError}
    {reply : GatewayResult StoreChunk}
    (arrives : ((NodeJob.read object).answer (.error err)).Arrives carries received)
    (hears : Hears (.readChunk tenantId cacheKey handle) received reply) :
    reply = .error (.storeUpstream err.text) := by
  obtain ⟨failed, text⟩ := error_arrives faithful arrives
  simpa [Hears, failed, text] using hears

/-- A node runs for a call's request what the job of the call does. -/
theorem routed_job (faithful : NodeFaithful carries) {ssd : SsdStore} {call : Call} {job : NodeJob}
    (carried : Carried call) (asks : RemoteStoreClient.job call = some job) {sent arrived : HttpRequest}
    (sends : request call = some sent) (arrives : sent.Arrives carries arrived) {handler : NodeProgram HttpAnswer}
    (routed : NodeRequest.Routed (some ssd) arrived handler) :
    handler = (job.program ssd).bind fun result => .done (job.answer result) := by
  unfold NodeRequest.Routed at routed
  rw [ofHttp_request faithful carried asks sends arrives] at routed
  exact routed.trans (job.handle_request ssd)

variable {I : Type} [DecidableEq I] [Sha256] [ChaCha20Poly1305]

open NodeSystem (InTurn Restarts Serves)

/-- A run of the handlers is one of their jobs. -/
private theorem run_jobs {jobs : I → NodeJob} {s : NodeSystem I} {trace : List (NodeLabel I)}
    {t : CrashPool I StoreNodeState NodeCall NodeCall.Reply HttpAnswer}
    (run : Run (Guarded (InTurn jobs) (CrashPool.Step StoreNodeState.nodeServer Restarts))
      (s.map fun i => (jobs i).answer) trace t) :
    ∃ s' : NodeSystem I, Run (Guarded (InTurn jobs) NodeSystem.Step) s trace s' ∧ t = s'.map fun i => (jobs i).answer :=
  CrashPool.run_of_map (fun _ _ turn => turn) run

/-- Over HTTP, a client that asks for an object after another heard that it was written hears the bytes of that
write or of one that came to DRAM after it, unless the node's file system fails to read the file. -/
theorem heard_write_is_read (decrypts : SsdStore.Decrypts) (faithful : NodeFaithful carries) {ssd : SsdStore}
    {clients : I → Call} {jobs : I → NodeJob} (asks : ∀ i, job (clients i) = some (jobs i))
    (carried : ∀ i, Carried (clients i)) (placed : NodeSystem.Placed jobs) {handlers : I → NodeProgram HttpAnswer}
    (routed : ∀ i, ∃ sent arrived, request (clients i) = some sent ∧ sent.Arrives carries arrived ∧
      NodeRequest.Routed (some ssd) arrived (handlers i))
    {capacity ssdBytesCapacity : Nat} {before after : List (NodeLabel I)}
    {s s' : CrashPool I StoreNodeState NodeCall NodeCall.Reply HttpAnswer}
    (first : Run (Guarded (InTurn jobs) (CrashPool.Step StoreNodeState.nodeServer Restarts))
      (CrashPool.initial ⟨.withCapacity capacity, some ssd, ∅, ssdBytesCapacity, ∅⟩ handlers) before s)
    {w r : I} (writes : clients w = .writePreallocatedChunk nodeId tenantId cacheKey handle bytes)
    (reads : clients r = .readChunk tenantId cacheKey handle) {written got : HttpAnswer}
    (acknowledged : s.pool.threads w = .done written) (told : written.Arrives carries got)
    (heard : Hears (.writePreallocatedChunk nodeId tenantId cacheKey handle bytes) got (.ok ()))
    (unasked : Pool.own s.pool.history r = [])
    (later : Run (Guarded (InTurn jobs) (CrashPool.Step StoreNodeState.nodeServer Restarts)) s after s')
    {answer received : HttpAnswer} {reply : GatewayResult StoreChunk} (answered : s'.pool.threads r = .done answer)
    (arrives : answer.Arrives carries received) (hears : Hears (.readChunk tenantId cacheKey handle) received reply) :
    (∃ tier data, reply = .ok ⟨data, tier⟩ ∧
      Serves jobs ⟨handle, tenantId.value, cacheKey.value⟩ w s'.pool.history data) ∨
    ∃ path source, reply = .error (.storeUpstream (SsdError.io "reading SSD object" path source).text) := by
  have handled : handlers = fun i => ((jobs i).program ssd).bind fun result => .done ((jobs i).answer result) := by
    funext i
    obtain ⟨sent, arrived, sends, arrives, routed⟩ := routed i
    exact routed_job faithful (carried i) (asks i) sends arrives routed
  subst handled
  have writing := asks w
  rw [writes] at writing
  have reading := asks r
  rw [reads] at reading
  have begins : CrashPool.initial ⟨.withCapacity capacity, some ssd, ∅, ssdBytesCapacity, ∅⟩
      (fun i => ((jobs i).program ssd).bind fun result => .done ((jobs i).answer result)) =
      (NodeSystem.start ssd jobs capacity ssdBytesCapacity).map fun i => (jobs i).answer := rfl
  rw [begins] at first
  obtain ⟨m, begun, rfl⟩ := run_jobs first
  obtain ⟨m', ran, rfl⟩ := run_jobs later
  obtain ⟨result, done, rfl⟩ := CrashPool.done_of_map acknowledged
  obtain ⟨response, rfl⟩ := done_of_hears faithful told heard
  have stored := NodeSystem.stored_of_acknowledged begun.of_guarded (Option.some.inj writing).symm done
  have sound := (NodeSystem.run_sound decrypts placed begun (Option.some.inj reading).symm unasked stored ran).2
  obtain ⟨found, ended, rfl⟩ := CrashPool.done_of_map answered
  have finished := NodeSystem.run_goesOn (begun.append ran).of_guarded r
  rw [ended, ← Option.some.inj reading] at finished
  rw [← Option.some.inj reading] at arrives
  rcases NodeSystem.finished_sound finished sound with ⟨tier, data, rfl, serves⟩ | ⟨path, source, rfl⟩
  · exact .inl ⟨tier, data, hears_read faithful arrives hears, serves⟩
  · exact .inr ⟨path, source, hears_failed faithful arrives hears⟩

private def wireKey : CacheKey := ⟨String.ofList (.replicate 64 'c')⟩

/-- ChaCha20-Poly1305 of two bytes under `sampleKey`, for one tenant's object of this key. -/
@[reducible] private def wireMessage : SealedMessage :=
  ⟨.replicate 12 0, aad "tenant-a" wireKey.value, [1, 2],
    [213, 86, 202, 250, 56, 134, 205, 217, 87, 35, 171, 28, 177, 145, 35, 216, 29, 201]⟩

@[reducible] private def plainQuotes : DebugText := ⟨fun text => "\"" ++ text ++ "\""⟩

/-- A client that writes an object, and one that reads it. -/
private def wireCalls : Bool → Call
  | false => .writePreallocatedChunk "node-a" ⟨"tenant-a"⟩ wireKey ⟨0, 2⟩ [1, 2]
  | true => .readChunk ⟨"tenant-a"⟩ wireKey ⟨0, 2⟩

private def wireJobs : Bool → NodeJob
  | false => .write ⟨⟨0, 2⟩, [1, 2], "tenant-a", wireKey.value⟩
  | true => .read ⟨⟨0, 2⟩, "tenant-a", wireKey.value⟩

private def wireRequests : Bool → HttpRequest
  | false => .post "/chunks/preallocated"
    (RemoteStoreClient.writePreallocatedChunkBody ⟨"tenant-a"⟩ wireKey ⟨0, 2⟩ [1, 2])
  | true => .get (RemoteStoreClient.readChunkPath ⟨"tenant-a"⟩ wireKey ⟨0, 2⟩)

open NodeSystem (healthyTurn healthyTurn_step)

omit [DebugText] [DecidableEq I] [Sha256] [ChaCha20Poly1305] in
/-- A client hears that its write was done, the node restarts, and another client reads. -/
theorem restarted_node_heard :
    let _ := sampleDigest
    let _ := soleCipher wireMessage
    let _ := plainQuotes
    ∃ before s after s', Run (Guarded (InTurn wireJobs) (CrashPool.Step StoreNodeState.nodeServer Restarts))
        (CrashPool.initial ⟨.withCapacity 8, some sampleSsd, ∅, 0, ∅⟩ fun i =>
          (wireJobs i).request.handle (some sampleSsd)) before s ∧
      Run (Guarded (InTurn wireJobs) (CrashPool.Step StoreNodeState.nodeServer Restarts)) s after s' ∧
      (∃ answer, s'.pool.threads true = .done answer ∧ Hears (wireCalls true) answer (.ok ⟨[1, 2], "ssd"⟩)) ∧
      Serves wireJobs ⟨⟨0, 2⟩, "tenant-a", wireKey.value⟩ false s'.pool.history [1, 2] := by
  let _ := sampleDigest
  let _ := soleCipher wireMessage
  let _ := plainQuotes
  have faithful : NodeFaithful fun sent received => received = sent := by
    rintro sent received message rfl
    exact ⟨message.formed, .refl message.formed⟩
  have asks (i : Bool) : job (wireCalls i) = some (wireJobs i) := by cases i <;> rfl
  have carried (i : Bool) : Carried (wireCalls i) := by
    cases i
    · exact ⟨by decide, by decide⟩
    · exact ⟨by decide, by decide, by decide, by decide⟩
  have routed (i : Bool) : ∃ sent arrived, request (wireCalls i) = some sent ∧
      sent.Arrives (fun sent received => received = sent) arrived ∧
      NodeRequest.Routed (some sampleSsd) arrived ((wireJobs i).request.handle (some sampleSsd)) := by
    have sends : request (wireCalls i) = some (wireRequests i) := by cases i <;> rfl
    have arrives : (wireRequests i).Arrives (fun sent received => received = sent) (wireRequests i) := by
      cases i
      · exact ⟨_, rfl, rfl⟩
      · exact rfl
    refine ⟨_, _, sends, arrives, ?_⟩
    rw [NodeRequest.Routed, ofHttp_request faithful (carried i) (asks i) sends arrives]
  let begun : CrashPool Bool StoreNodeState NodeCall NodeCall.Reply HttpAnswer :=
    .initial ⟨.withCapacity 8, some sampleSsd, ∅, 0, ∅⟩ fun i => (wireJobs i).request.handle (some sampleSsd)
  let filled := healthyTurn begun false
  let persisted := healthyTurn filled false
  let acknowledged := healthyTurn persisted false
  let restarted : CrashPool Bool StoreNodeState NodeCall NodeCall.Reply HttpAnswer :=
    ⟨{ acknowledged.pool with world := ⟨.withCapacity 8, some sampleSsd, ∅, 0, acknowledged.pool.world.files⟩ },
      {i | Pool.own acknowledged.pool.history i ≠ []}⟩
  let missed := healthyTurn restarted true
  let promoted := healthyTurn missed true
  have crash : Guarded (InTurn wireJobs) (CrashPool.Step StoreNodeState.nodeServer Restarts) acknowledged (.act none)
      restarted := ⟨trivial, .crash ⟨sampleSsd, rfl, rfl⟩⟩
  have alive : true ∉ restarted.gone := fun begun => begun rfl
  let write : NodeWrite := ⟨⟨0, 2⟩, [1, 2], "tenant-a", wireKey.value⟩
  have alone : InTurn wireJobs filled (.call false (write.persisted sampleSsd)) := fun j _ done => by cases done
  have first := ((Run.start.snoc (healthyTurn_step begun false rfl id fun object reads => by cases reads)).snoc
    (healthyTurn_step filled false rfl id alone)).snoc (healthyTurn_step persisted false rfl id trivial)
  have later := (((Run.start.snoc crash).snoc (healthyTurn_step restarted true rfl alive trivial)).snoc
    (healthyTurn_step missed true rfl alive trivial)).snoc
      (healthyTurn_step promoted true rfl alive fun _ _ found read => by cases read)
  have placed : NodeSystem.Placed wireJobs := fun i j hne => absurd (by cases i <;> cases j <;> rfl) hne
  have answered : (healthyTurn promoted true).pool.threads true =
      .done ⟨200, some (ReadChunkResponse.toValue ⟨0, 2, "ssd", [1, 2]⟩)⟩ := rfl
  have heard : Hears (wireCalls true) ⟨200, some (ReadChunkResponse.toValue ⟨0, 2, "ssd", [1, 2]⟩)⟩
      (.ok ⟨[1, 2], "ssd"⟩) := by
    have read : StoreReadResponse.fromValue (ReadChunkResponse.toValue ⟨0, 2, "ssd", [1, 2]⟩) =
        some ⟨0, 2, some "ssd", [1, 2]⟩ := rfl
    simp [Hears, wireCalls, HttpAnswer.isSuccess, read]
  obtain ⟨tier, data, same, serves⟩ | ⟨_, _, failed⟩ :=
    heard_write_is_read (w := false) (r := true) (soleCipher_decrypts wireMessage) faithful asks carried placed routed
      first rfl rfl rfl ⟨rfl, _, rfl, rfl⟩ rfl rfl later answered ⟨rfl, _, rfl, rfl⟩ heard
  · simp only [Except.ok.injEq, StoreChunk.mk.injEq] at same
    exact ⟨_, _, _, _, first, later, ⟨_, answered, heard⟩, same.1 ▸ serves⟩
  · cases failed

end RemoteStoreClient
end
end Mooncache

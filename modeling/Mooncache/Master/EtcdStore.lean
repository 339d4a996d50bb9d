import Mooncache.Master.Election
import Mooncache.Master.Records

/-! The metadata of the masters in etcd: one key whose value is the base64 text of a JSON document. -/
namespace Mooncache

/-- The answer to a range request for one key. -/
def Etcd.range (etcd : Etcd) (key : String) : EtcdRangeResponse := ⟨((etcd.lookup key).map EtcdKv.mk).toList⟩

namespace EtcdMetadataStore
variable [JsonWriter] [JsonReader]

/-- `serde_json::from_slice` at the type of a snapshot. -/
def snapshotFromSlice (bytes : List UInt8) : Except String MasterMetadataSnapshot := do
  let value ← fromSlice bytes
  match MasterMetadataSnapshot.fromValue value with
  | some snapshot => .ok snapshot
  | none => .error (mismatch "MasterMetadataSnapshot" value)

/-- `load`, from the outcome of its request on. -/
def load (codec : EtcdCodec) : Except EtcdFailure EtcdRangeResponse → Except String (Option MasterMetadataSnapshot)
  | .error (.request error) => .error ("etcd metadata load request failed: " ++ error)
  | .error (.status error) => .error ("etcd metadata load failed: " ++ error)
  | .error (.body error) => .error ("invalid etcd metadata response: " ++ error)
  | .ok response =>
    match response.kvs.head? with
    | none => .ok none
    | some kv => do
      let bytes ← codec.etcdDecode kv.value
      match snapshotFromSlice bytes.data.toList with
      | .ok snapshot => .ok (some snapshot)
      | .error error => .error ("invalid persisted master metadata: " ++ error)

omit [JsonReader] in
/-- The value that `save` puts. Encoding a snapshot does not fail. -/
def savedValue (codec : EtcdCodec) (snapshot : MasterMetadataSnapshot) : String :=
  codec.encode ⟨(toVec snapshot.toValue).toArray⟩

omit [JsonReader] in
/-- The request of `save`, at etcd. -/
def put (codec : EtcdCodec) (snapshot : MasterMetadataSnapshot) (etcd : Etcd) : Etcd :=
  etcd.insert (codec.etcdB64 metadataKey) (savedValue codec snapshot)

/-- The request of `load`, at etcd. -/
def stored (codec : EtcdCodec) (etcd : Etcd) : EtcdRangeResponse := etcd.range (codec.etcdB64 metadataKey)

variable {codec : EtcdCodec} {snapshot : MasterMetadataSnapshot} {etcd : Etcd}

theorem snapshotFromSlice_toVec (trips : RoundTrips snapshot.toValue) :
    snapshotFromSlice (toVec snapshot.toValue) = .ok snapshot := by
  obtain ⟨found, read, formed, same⟩ := trips
  simp only [snapshotFromSlice, read, bind, Except.bind, snapshot.readsBack.reads formed same]

omit [JsonWriter] in
theorem load_absent (absent : etcd.lookup (codec.etcdB64 metadataKey) = none) :
    load codec (.ok (stored codec etcd)) = .ok none := by
  simp [load, stored, Etcd.range, absent]

/-- What was saved is what is loaded. -/
theorem load_saved (roundTrips : codec.RoundTrips) (trips : RoundTrips snapshot.toValue)
    (saved : etcd.lookup (codec.etcdB64 metadataKey) = some (savedValue codec snapshot)) :
    load codec (.ok (stored codec etcd)) = .ok (some snapshot) := by
  have decoded : codec.etcdDecode (savedValue codec snapshot) = .ok ⟨(toVec snapshot.toValue).toArray⟩ := by
    rw [EtcdCodec.etcdDecode, savedValue, roundTrips]
    rfl
  simp only [load, stored, Etcd.range, saved, Option.map_some, Option.toList, List.head?_cons, decoded, bind, Except.bind,
    snapshotFromSlice_toVec trips]

omit [JsonReader] in
theorem put_metadata : (put codec snapshot etcd).lookup (codec.etcdB64 metadataKey) = some (savedValue codec snapshot) :=
  Finmap.lookup_insert _

omit [JsonWriter] [JsonReader] in
/-- An election leaves the metadata as it is. -/
theorem commit_metadata (roundTrips : codec.RoundTrips) (bindAddr : String) :
    (etcd.commit (leaderTxn codec bindAddr)).2.lookup (codec.etcdB64 metadataKey) =
      etcd.lookup (codec.etcdB64 metadataKey) := by
  have other : codec.etcdB64 metadataKey ≠ codec.etcdB64 leaderKey :=
    (EtcdCodec.etcdB64_injective roundTrips).ne (by decide)
  unfold Etcd.commit
  split
  · exact Finmap.lookup_insert_of_ne _ other
  · rfl

end EtcdMetadataStore
end Mooncache

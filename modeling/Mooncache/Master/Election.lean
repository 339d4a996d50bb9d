import Mooncache.Foundation.Base64
import Mooncache.Foundation.Runs
import Mooncache.Master.Handlers

/-! How a master process comes to lead. It tries to create the leader key in etcd with its
own id, and reads the key when another process was first. -/
namespace Mooncache

/-- The base64 engine, and the text of an error in decoding UTF-8. -/
structure EtcdCodec where
  encode : ByteArray → String
  decode : String → Except String ByteArray
  utf8Error : ByteArray → String

namespace EtcdCodec

/-- Decoding gives back what was encoded. -/
def RoundTrips (codec : EtcdCodec) : Prop := ∀ bytes, codec.decode (codec.encode bytes) = .ok bytes

def etcdB64 (codec : EtcdCodec) (value : String) : String := codec.encode value.toUTF8

def etcdDecode (codec : EtcdCodec) (value : String) : Except String ByteArray :=
  (codec.decode value).mapError ("invalid base64 from etcd: " ++ ·)

def etcdDecodeUtf8 (codec : EtcdCodec) (value : String) : Except String String := do
  let bytes ← codec.etcdDecode value
  match String.fromUTF8? bytes with
  | some text => .ok text
  | none => .error ("invalid utf8 from etcd: " ++ codec.utf8Error bytes)

theorem etcdDecodeUtf8_b64 {codec : EtcdCodec} (roundTrips : codec.RoundTrips) (value : String) :
    codec.etcdDecodeUtf8 (codec.etcdB64 value) = .ok value := by
  have decoded : codec.etcdDecode (codec.etcdB64 value) = .ok value.toUTF8 := by
    rw [etcdDecode, etcdB64, roundTrips]
    rfl
  have text : String.fromUTF8? value.toUTF8 = some value := by
    simp only [String.fromUTF8?, String.toUTF8_eq_toByteArray, value.isValidUTF8, ↓reduceDIte]
    rfl
  simp only [etcdDecodeUtf8, decoded, bind, Except.bind, text]

theorem etcdB64_injective {codec : EtcdCodec} (roundTrips : codec.RoundTrips) : Function.Injective codec.etcdB64 := by
  intro first second same
  have decoded := etcdDecodeUtf8_b64 roundTrips first
  rw [same, etcdDecodeUtf8_b64 roundTrips second] at decoded
  exact (Except.ok.inj decoded).symm

end EtcdCodec

structure EtcdKv where
  value : String

structure EtcdRangeResponse where
  kvs : List EtcdKv

structure EtcdTxnOpResponse where
  responseRange : Option EtcdRangeResponse

structure EtcdTxnResponse where
  succeeded : Bool
  responses : List EtcdTxnOpResponse

/-- Where an exchange with etcd fails: sending, the status, or the body. -/
inductive EtcdFailure where
  | request (error : String)
  | status (error : String)
  | body (error : String)

/-- `compare` that a key was never created; on success `request_put`, on failure `request_range`. -/
structure EtcdTxn where
  compareKey : String
  putKey : String
  putValue : String
  rangeKey : String

/-- The keys and values etcd holds, as they are sent. -/
abbrev Etcd := Table String String

/-- A transaction is one step of etcd. A key has no create revision exactly when it is absent. -/
def Etcd.commit (etcd : Etcd) (txn : EtcdTxn) : EtcdTxnResponse × Etcd :=
  match etcd.lookup txn.compareKey with
  | none => (⟨true, [⟨none⟩]⟩, etcd.insert txn.putKey txn.putValue)
  | some _ => (⟨false, [⟨some ⟨((etcd.lookup txn.rangeKey).map EtcdKv.mk).toList⟩⟩]⟩, etcd)

namespace EtcdMetadataStore

def metadataKey : String := "/mooncache/master/metadata"

def leaderKey : String := "/mooncache/master/leader"

/-- The request of `elect_leader`. -/
def leaderTxn (codec : EtcdCodec) (localId : String) : EtcdTxn :=
  ⟨codec.etcdB64 leaderKey, codec.etcdB64 leaderKey, codec.etcdB64 localId, codec.etcdB64 leaderKey⟩

/-- `elect_leader`, from the outcome of its request on. -/
def electLeader (codec : EtcdCodec) (localId : String) :
    Except EtcdFailure EtcdTxnResponse → Except String LeadershipState
  | .error (.request error) => .error ("etcd leader election request failed: " ++ error)
  | .error (.status error) => .error ("etcd leader election failed: " ++ error)
  | .error (.body error) => .error ("invalid etcd leader response: " ++ error)
  | .ok response =>
    if response.succeeded then .ok (.leader localId)
    else do
      let kv := (response.responses.findSome? (·.responseRange)).bind (·.kvs.head?)
      let leaderId ← match kv with
        | some kv => codec.etcdDecodeUtf8 kv.value
        | none => .ok localId
      .ok (.standby localId leaderId)

end EtcdMetadataStore

def defaultBindAddr : String := "0.0.0.0:8081"

/-- A master process: its election under way, answered, or over. -/
inductive MasterProcess where
  | stopped
  | electing (bindAddr : String)
  | answered (bindAddr : String) (reply : Except EtcdFailure EtcdTxnResponse)
  | running (leadership : LeadershipState)

structure Masters (P : Type) where
  etcd : Etcd
  processes : P → MasterProcess

namespace Masters
open EtcdMetadataStore
variable {P : Type} [DecidableEq P]

def initial : Masters P := ⟨∅, fun _ => .stopped⟩

inductive Label (P : Type) where
  | start (p : P) (bindAddr : String)
  | elect (p : P)
  | lose (p : P) (failure : EtcdFailure) (committed : Bool)
  | decide (p : P)
  | save (p : P) (value : String)
  | stop (p : P)

def become (s : Masters P) (p : P) (process : MasterProcess) : Masters P :=
  { s with processes := Function.update s.processes p process }

/-- A process is started any number of times, and may stop at any point. Its transaction may
be lost before or after it took effect. What a running process saves goes to another key. -/
inductive Step (codec : EtcdCodec) (s : Masters P) : Label P → Masters P → Prop
  | start {p : P} (bindAddr : String) : s.processes p = .stopped →
      Step codec s (.start p bindAddr) (s.become p (.electing bindAddr))
  | elect {p : P} {bindAddr : String} : s.processes p = .electing bindAddr →
      Step codec s (.elect p) ({ s with etcd := (s.etcd.commit (leaderTxn codec bindAddr)).2 }.become p
        (.answered bindAddr (.ok (s.etcd.commit (leaderTxn codec bindAddr)).1)))
  | lose {p : P} {bindAddr : String} (failure : EtcdFailure) (committed : Bool) : s.processes p = .electing bindAddr →
      Step codec s (.lose p failure committed)
        ({ s with etcd := if committed then (s.etcd.commit (leaderTxn codec bindAddr)).2 else s.etcd }.become p
          (.answered bindAddr (.error failure)))
  | decide {p : P} {bindAddr : String} {reply : Except EtcdFailure EtcdTxnResponse} {leadership : LeadershipState} :
      s.processes p = .answered bindAddr reply → electLeader codec bindAddr reply = .ok leadership →
      Step codec s (.decide p) (s.become p (.running leadership))
  | save {p : P} {leadership : LeadershipState} (value : String) : s.processes p = .running leadership →
      Step codec s (.save p value) { s with etcd := s.etcd.insert (codec.etcdB64 metadataKey) value }
  | stop (p : P) : Step codec s (.stop p) (s.become p .stopped)

/-- At most one running process is the leader. -/
def SingleLeader (s : Masters P) : Prop :=
  ∀ p q first second, s.processes p = .running first → first.isLeader = true →
    s.processes q = .running second → second.isLeader = true → p = q

/-- A process that takes the id in the leader key as its own starts when no running process has that id. -/
def StartsApart (codec : EtcdCodec) (s : Masters P) : Label P → Prop
  | .decide p => ∀ bindAddr response, s.processes p = .answered bindAddr (.ok response) →
    s.etcd.lookup (codec.etcdB64 leaderKey) = some (codec.etcdB64 bindAddr) →
    ∀ q leadership, q ≠ p → s.processes q = .running leadership → leadership.localId ≠ bindAddr
  | _ => True

/-- The leader key, once it is there, holds the id of the leader that every process knows. -/
structure Knows (codec : EtcdCodec) (s : Masters P) : Prop where
  stored : ∀ value, s.etcd.lookup (codec.etcdB64 leaderKey) = some value → ∃ id, value = codec.etcdB64 id
  answered : ∀ p bindAddr response, s.processes p = .answered bindAddr (.ok response) →
    ∃ id, s.etcd.lookup (codec.etcdB64 leaderKey) = some (codec.etcdB64 id) ∧
      electLeader codec bindAddr (.ok response) = .ok ⟨bindAddr, id⟩
  running : ∀ p leadership, s.processes p = .running leadership →
    s.etcd.lookup (codec.etcdB64 leaderKey) = some (codec.etcdB64 leadership.leaderId)

section
variable {codec : EtcdCodec} {s s' : Masters P} {trace : List (Label P)}

/-- Whatever an election finds, the key holds an id after it, and that is the id it tells. -/
theorem commit_elects (roundTrips : codec.RoundTrips) {etcd : Etcd} (bindAddr : String)
    (stored : ∀ value, etcd.lookup (codec.etcdB64 leaderKey) = some value → ∃ id, value = codec.etcdB64 id) :
    ∃ id, (etcd.commit (leaderTxn codec bindAddr)).2.lookup (codec.etcdB64 leaderKey) = some (codec.etcdB64 id) ∧
      (∀ value, etcd.lookup (codec.etcdB64 leaderKey) = some value → value = codec.etcdB64 id) ∧
      electLeader codec bindAddr (.ok (etcd.commit (leaderTxn codec bindAddr)).1) = .ok ⟨bindAddr, id⟩ := by
  cases found : etcd.lookup (codec.etcdB64 leaderKey) with
  | none =>
    refine ⟨bindAddr, ?_, nofun, ?_⟩
    · simp only [Etcd.commit, leaderTxn, found, Finmap.lookup_insert]
    · simp only [Etcd.commit, leaderTxn, found]
      rfl
  | some value =>
    obtain ⟨id, rfl⟩ := stored value found
    refine ⟨id, ?_, fun value same => (Option.some.inj same).symm, ?_⟩
    · simp only [Etcd.commit, leaderTxn, found]
    · simp only [Etcd.commit, leaderTxn, found, electLeader, Option.map_some, Option.toList, List.findSome?_cons,
        Option.bind_some, List.head?_cons, EtcdCodec.etcdDecodeUtf8_b64 roundTrips]
      rfl

private theorem keys_differ (roundTrips : codec.RoundTrips) : codec.etcdB64 leaderKey ≠ codec.etcdB64 metadataKey :=
  (EtcdCodec.etcdB64_injective roundTrips).ne (by decide)

/-- What is known stays so when a process takes a state it may know. -/
private theorem Knows.become (h : Knows codec s) {etcd : Etcd} (p : P) (process : MasterProcess)
    (kept : ∀ value, s.etcd.lookup (codec.etcdB64 leaderKey) = some value →
      etcd.lookup (codec.etcdB64 leaderKey) = some value)
    (stored : ∀ value, etcd.lookup (codec.etcdB64 leaderKey) = some value → ∃ id, value = codec.etcdB64 id)
    (answered : ∀ bindAddr response, process = .answered bindAddr (.ok response) →
      ∃ id, etcd.lookup (codec.etcdB64 leaderKey) = some (codec.etcdB64 id) ∧
        electLeader codec bindAddr (.ok response) = .ok ⟨bindAddr, id⟩)
    (running : ∀ leadership, process = .running leadership →
      etcd.lookup (codec.etcdB64 leaderKey) = some (codec.etcdB64 leadership.leaderId)) :
    Knows codec ({ s with etcd := etcd }.become p process) := by
  refine ⟨stored, fun q bindAddr response found => ?_, fun q leadership found => ?_⟩
  · rcases eq_or_ne q p with rfl | hne
    · exact answered bindAddr response (by simpa only [Masters.become, Function.update_self] using found)
    · obtain ⟨id, held, tells⟩ :=
        h.answered q bindAddr response (by simpa only [Masters.become, Function.update_of_ne hne] using found)
      exact ⟨id, kept _ held, tells⟩
  · rcases eq_or_ne q p with rfl | hne
    · exact running leadership (by simpa only [Masters.become, Function.update_self] using found)
    · exact kept _ (h.running q leadership (by simpa only [Masters.become, Function.update_of_ne hne] using found))

theorem Step.knows (roundTrips : codec.RoundTrips) {label : Label P} (step : Step codec s label s')
    (h : Knows codec s) : Knows codec s' := by
  cases step with
  | start bindAddr stopped => exact h.become _ _ (fun _ => id) h.stored nofun nofun
  | @elect p bindAddr electing =>
    obtain ⟨id, held, same, tells⟩ := commit_elects roundTrips bindAddr h.stored
    refine h.become p _ (fun value found => ?_) (fun value found => ⟨id, ?_⟩) ?_ nofun
    · rw [held, same value found]
    · exact Option.some.inj (found.symm.trans held)
    · rintro _ _ ⟨⟩
      exact ⟨id, held, tells⟩
  | @lose p bindAddr failure committed electing =>
    obtain ⟨id, held, same, _⟩ := commit_elects roundTrips bindAddr h.stored
    refine h.become p _ (fun value found => ?_) (fun value found => ?_) nofun nofun
    · cases committed with
      | false => exact found
      | true => rw [if_pos rfl, held, same value found]
    · cases committed with
      | false => exact h.stored value found
      | true => exact ⟨id, Option.some.inj (found.symm.trans held)⟩
  | @decide p bindAddr reply leadership answered elected =>
    refine h.become p _ (fun _ => id) h.stored nofun ?_
    rintro _ ⟨⟩
    cases reply with
    | error failure => cases failure <;> simp [electLeader] at elected
    | ok response =>
      obtain ⟨id, held, tells⟩ := h.answered p bindAddr response answered
      cases tells.symm.trans elected
      exact held
  | save value running =>
    have same (value : String) : (s.etcd.insert (codec.etcdB64 metadataKey) value).lookup (codec.etcdB64 leaderKey) =
        s.etcd.lookup (codec.etcdB64 leaderKey) := Finmap.lookup_insert_of_ne _ (keys_differ roundTrips)
    refine ⟨fun value found => h.stored value ?_, fun q bindAddr response found => ?_, fun q leadership found => ?_⟩
    · rwa [same] at found
    · rw [same]
      exact h.answered q bindAddr response found
    · rw [same]
      exact h.running q leadership found
  | stop p => exact h.become _ _ (fun _ => id) h.stored nofun nofun

theorem run_knows (roundTrips : codec.RoundTrips) (run : Run (Step codec) initial trace s) : Knows codec s :=
  run.invariant (P := fun _ s => Knows codec s) ⟨by simp [initial], by simp [initial], by simp [initial]⟩
    fun _ known step => step.knows roundTrips known

/-- A process runs because it ran before, or because its election was decided now. -/
theorem Step.was_running {label : Label P} (step : Step codec s label s') {p : P} {leadership : LeadershipState}
    (found : s'.processes p = .running leadership) : s.processes p = .running leadership ∨
    label = .decide p ∧ ∃ bindAddr reply, s.processes p = .answered bindAddr reply ∧
      electLeader codec bindAddr reply = .ok leadership := by
  cases step with
  | save value running => exact .inl found
  | @decide q bindAddr reply elected answered tells =>
    rcases eq_or_ne p q with rfl | hne
    · simp only [become, Function.update_self, MasterProcess.running.injEq] at found
      subst found
      exact .inr ⟨rfl, bindAddr, reply, answered, tells⟩
    · exact .inl (by simpa only [become, Function.update_of_ne hne] using found)
  | @start q _ _ | @elect q _ _ | @lose q _ _ _ _ | @stop q =>
    rcases eq_or_ne p q with rfl | hne
    · simp [become] at found
    · exact .inl (by simpa only [become, Function.update_of_ne hne] using found)

omit [DecidableEq P] in
/-- A leader has the id that is stored. -/
theorem Knows.leader_id (h : Knows codec s) (roundTrips : codec.RoundTrips) {p : P} {leadership : LeadershipState}
    (found : s.processes p = .running leadership) (leads : leadership.isLeader = true) {id : String}
    (stored : s.etcd.lookup (codec.etcdB64 leaderKey) = some (codec.etcdB64 id)) : leadership.localId = id := by
  have known := EtcdCodec.etcdB64_injective roundTrips (Option.some.inj ((h.running p leadership found).symm.trans stored))
  exact (of_decide_eq_true leads).trans known

theorem Step.single_leader (roundTrips : codec.RoundTrips) {label : Label P} (step : Step codec s label s')
    (known : Knows codec s) (apart : StartsApart codec s label) (single : SingleLeader s) : SingleLeader s' := by
  have fresh {p q : P} {first second : LeadershipState} (hne : q ≠ p) (decided : label = .decide p)
      (elects : ∃ bindAddr reply, s.processes p = .answered bindAddr reply ∧
        electLeader codec bindAddr reply = .ok first)
      (leads : first.isLeader = true) (runs : s.processes q = .running second) : second.isLeader ≠ true := by
    intro leads'
    subst decided
    obtain ⟨bindAddr, reply, answered, tells⟩ := elects
    cases reply with
    | error failure => cases failure <;> simp [electLeader] at tells
    | ok response =>
      obtain ⟨id, held, told⟩ := known.answered p bindAddr response answered
      cases told.symm.trans tells
      cases (of_decide_eq_true leads : bindAddr = id)
      exact apart bindAddr response answered held q second hne runs (known.leader_id roundTrips runs leads' held)
  intro p q first second runs leads runs' leads'
  by_contra hne
  rcases step.was_running runs with old | ⟨decided, elects⟩
  · rcases step.was_running runs' with old' | ⟨decided', elects'⟩
    · exact hne (single p q first second old leads old' leads')
    · exact fresh hne decided' elects' leads' old leads
  · rcases step.was_running runs' with old' | ⟨decided', _⟩
    · exact fresh (Ne.symm hne) decided elects leads old' leads'
    · cases decided.symm.trans decided'
      exact hne rfl

/-- Where a process starts beside a running one with the stored id, both lead. -/
theorem Step.starts_apart (roundTrips : codec.RoundTrips) {label : Label P} (step : Step codec s label s')
    (known : Knows codec s) (single : SingleLeader s') : StartsApart codec s label := by
  cases step with
  | @decide p bindAddr reply leadership answered elected =>
    intro bindAddr' response found stored q other hne runs same
    cases answered.symm.trans found
    obtain ⟨id, held, tells⟩ := known.answered p bindAddr response answered
    cases tells.symm.trans elected
    cases EtcdCodec.etcdB64_injective roundTrips (Option.some.inj (held.symm.trans stored))
    have agrees := EtcdCodec.etcdB64_injective roundTrips
      (Option.some.inj ((known.running q other runs).symm.trans stored))
    refine hne (single q p other ⟨bindAddr, bindAddr⟩ ?_ ?_ ?_ ?_)
    · simpa only [become, Function.update_of_ne hne] using runs
    · exact decide_eq_true (same.trans agrees.symm)
    · simp only [become, Function.update_self]
    · exact decide_eq_true rfl
  | _ => exact trivial

/-- Each process is known by its own address. -/
def Named (address : P → String) (s : Masters P) : Prop :=
  ∀ p, match s.processes p with
    | .stopped => True
    | .electing bindAddr | .answered bindAddr _ => bindAddr = address p
    | .running leadership => leadership.localId = address p

theorem electLeader_localId {bindAddr : String} {reply : Except EtcdFailure EtcdTxnResponse}
    {leadership : LeadershipState} (elected : electLeader codec bindAddr reply = .ok leadership) :
    leadership.localId = bindAddr := by
  cases reply with
  | error failure => cases failure <;> simp [electLeader] at elected
  | ok response =>
    unfold electLeader at elected
    dsimp only at elected
    split at elected
    · cases elected
      rfl
    · cases hkv : (response.responses.findSome? (·.responseRange)).bind (·.kvs.head?) with
      | none =>
        rw [hkv] at elected
        cases elected
        rfl
      | some kv =>
        cases told : codec.etcdDecodeUtf8 kv.value with
        | error error => simp [hkv, told, bind, Except.bind] at elected
        | ok id =>
          simp only [hkv, told, bind, Except.bind, Except.ok.injEq] at elected
          rw [← elected]
          rfl

theorem Step.named {address : P → String} {label : Label P} (step : Step codec s label s') (h : Named address s)
    (starts : ∀ p bindAddr, label = .start p bindAddr → bindAddr = address p) : Named address s' := by
  have becomes {etcd : Etcd} (p : P) (process : MasterProcess)
      (fits : match process with
        | .stopped => True
        | .electing bindAddr | .answered bindAddr _ => bindAddr = address p
        | .running leadership => leadership.localId = address p) :
      Named address ({ s with etcd := etcd }.become p process) := by
    intro q
    rcases eq_or_ne q p with rfl | hne
    · simpa only [become, Function.update_self] using fits
    · simpa only [become, Function.update_of_ne hne] using h q
  cases step with
  | start bindAddr _ => exact becomes _ _ (starts _ bindAddr rfl)
  | @elect p bindAddr electing | @lose p bindAddr _ _ electing =>
    have named := h p
    rw [electing] at named
    exact becomes p _ named
  | @decide p bindAddr reply leadership answered elected =>
    have named := h p
    rw [answered] at named
    exact becomes p _ ((electLeader_localId elected).trans named)
  | save value running => exact h
  | stop p => exact becomes p _ trivial

/-- Processes with addresses of their own start apart. -/
theorem starts_apart_of_addresses {address : P → String} (distinct : Function.Injective address)
    (starts : ∀ p bindAddr, .start p bindAddr ∈ trace → bindAddr = address p) {before : List (Label P)}
    {middle next : Masters P} {label : Label P} (step : Run.At (Step codec) initial trace s before middle label next) :
    StartsApart codec middle label := by
  obtain ⟨after, rfl, past, last, _⟩ := step
  have named : Named address middle := by
    replace starts := fun p bindAddr (h : Label.start p bindAddr ∈ before) => starts p bindAddr (List.mem_append_left _ h)
    clear last
    induction past with
    | start => exact fun _ => trivial
    | snoc past last ih =>
      exact last.named (ih fun p bindAddr h => starts p bindAddr (List.mem_append_left _ h))
        fun p bindAddr h => starts p bindAddr (by simp [h])
  cases label with
  | decide p =>
    intro bindAddr response answered _ q leadership hne runs same
    have first := named p
    have second := named q
    rw [answered] at first
    rw [runs] at second
    exact hne (distinct (second.symm.trans (same.trans first)))
  | _ => exact trivial

private theorem guarded_single (roundTrips : codec.RoundTrips)
    (run : Run (Guarded (StartsApart codec) (Step codec)) initial trace s) : SingleLeader s := by
  induction run with
  | start => simp [SingleLeader, initial]
  | snoc run last ih => exact last.2.single_leader roundTrips (run_knows roundTrips run.of_guarded) last.1 ih

/-- Every state of a run has at most one leader exactly when each process that takes the
stored id as its own starts when no running process has it. -/
theorem single_leader_iff (roundTrips : codec.RoundTrips) :
    (∀ middle, Run.Through (Step codec) initial trace s middle → SingleLeader middle) ↔
    ∀ before middle label next, Run.At (Step codec) initial trace s before middle label next →
      StartsApart codec middle label := by
  constructor
  · rintro single before middle label next ⟨after, rfl, past, step, later⟩
    refine step.starts_apart roundTrips (run_knows roundTrips past) (single next ⟨before ++ [label], after, ?_⟩)
    exact ⟨by simp, past.snoc step, later⟩
  · rintro apart middle ⟨earlier, later, rfl, past, after⟩
    exact guarded_single roundTrips
      (past.guarded_of_at fun before middle label next h => apart before middle label next (h.append after))

end

/-- The standard alphabet, with padding. -/
def standardCodec : EtcdCodec where
  encode := Base64.encode
  decode text := match Base64.decode text with
    | some bytes => .ok bytes
    | none => .error "Invalid padding"
  utf8Error _ := "invalid utf-8 sequence"

theorem standardCodec_roundTrips : standardCodec.RoundTrips := by
  intro bytes
  simp only [standardCodec, Base64.decode_encode]

/-- What etcd is sent for the default address. -/
example : standardCodec.etcdB64 defaultBindAddr = "MC4wLjAuMDo4MDgx" := by decide

private abbrev ElectionStep : Masters Bool → Label Bool → Masters Bool → Prop := Step standardCodec

/-- Two processes are started and elected, one after the other. -/
private theorem two_run (first second : String)
    (leads : electLeader standardCodec second (.ok ((Etcd.commit ∅ (leaderTxn standardCodec first)).2.commit
      (leaderTxn standardCodec second)).1) = .ok ⟨second, first⟩) :
    ∃ s, Run ElectionStep initial [.start true first, .elect true, .decide true, .start false second, .elect false,
        .decide false] s ∧ s.processes true = .running ⟨first, first⟩ ∧
      s.processes false = .running ⟨second, first⟩ := by
  have ready : Run ElectionStep initial [] _ := .start
  have one := ((ready.snoc (.start (p := true) first rfl)).snoc (.elect (p := true) rfl)).snoc
    (.decide (p := true) rfl (show electLeader _ _ _ = .ok ⟨first, first⟩ from rfl))
  have two := ((one.snoc (.start (p := false) second rfl)).snoc (.elect (p := false) rfl)).snoc
    (.decide (p := false) rfl leads)
  exact ⟨_, two, rfl, rfl⟩

/-- Two processes that are both started with the default address both lead. -/
theorem default_address_two_leaders :
    ¬ ∀ (trace : List (Label Bool)) (s : Masters Bool), Run ElectionStep initial trace s → SingleLeader s := by
  intro single
  obtain ⟨s, run, first, second⟩ := two_run defaultBindAddr defaultBindAddr (by decide)
  exact absurd (single _ s run true false _ _ first (by decide) second (by decide)) (by decide)

/-- The second of two processes with different addresses follows the first. -/
theorem second_address_follows : ∃ s : Masters Bool, s.processes true = .running ⟨"10.0.0.1:8081", "10.0.0.1:8081"⟩ ∧
    s.processes false = .running ⟨"10.0.0.2:8081", "10.0.0.1:8081"⟩ ∧ SingleLeader s := by
  obtain ⟨s, run, first, second⟩ := two_run "10.0.0.1:8081" "10.0.0.2:8081" (by decide)
  have distinct : Function.Injective fun first : Bool => if first then "10.0.0.1:8081" else "10.0.0.2:8081" := by decide
  refine ⟨s, first, second, (single_leader_iff standardCodec_roundTrips).mpr ?_ s run.through_self⟩
  exact fun before middle label next step => starts_apart_of_addresses distinct (by simp) step

end Masters
end Mooncache

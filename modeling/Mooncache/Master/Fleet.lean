import Mooncache.Master.EtcdStore
import Mooncache.Master.HandlerCalls

/-! All the masters of one etcd. Processes start, elect, load, serve and stop in any order, and
what one of them saved another loads. -/
namespace Mooncache

/-- A master process, from its start to its handlers. -/
inductive FleetProcess where
  | stopped
  | electing (bindAddr : String)
  | answered (bindAddr : String) (reply : Except EtcdFailure EtcdTxnResponse)
  | elected (leadership : LeadershipState)
  | loading (leadership : LeadershipState) (reply : Except EtcdFailure EtcdRangeResponse)
  | running (leadership : LeadershipState) (master : MasterState)

/-- How far a request is. -/
inductive Stage (P : Type) where
  | waiting
  | handled (p : P) (leadership : LeadershipState) (past : List MasterEvent) (rest : Handler MasterResponse)
  | dropped

/-- A request, and its save if nobody waits for that any more and it may still arrive. -/
structure FleetRequest (P : Type) where
  stage : Stage P
  flying : Option MasterMetadataSnapshot

structure Fleet (P I : Type) where
  etcd : Etcd
  processes : P → FleetProcess
  requests : I → FleetRequest P

/-- The save that a handler is about to send or waits for. -/
def Handler.saving : Handler MasterResponse → Option MasterMetadataSnapshot
  | .call (.save snapshot) _ => some snapshot
  | _ => none

namespace Fleet
open EtcdMetadataStore
variable {P I : Type}

def initial : Fleet P I := ⟨∅, fun _ => .stopped, fun _ => ⟨.waiting, none⟩⟩

inductive Label (P I : Type) where
  | start (p : P) (bindAddr : String)
  | elect (p : P)
  | lose (p : P) (failure : EtcdFailure) (committed : Bool)
  | decide (p : P)
  | range (p : P)
  | unread (p : P) (failure : EtcdFailure)
  | load (p : P)
  | accept (i : I) (p : P)
  | serve (i : I) (leadership : LeadershipState) (event : MasterEvent)
  | save (i : I) (snapshot : MasterMetadataSnapshot) (reply : Except String Unit)
  | land (i : I) (snapshot : MasterMetadataSnapshot)
  | stop (p : P)

/-- What is in etcd after a step, and what was before. -/
def Label.stores : Label P I → Option MasterMetadataSnapshot → Option MasterMetadataSnapshot
  | .save _ snapshot (.ok ()), _ => some snapshot
  | .land _ snapshot, _ => some snapshot
  | _, before => before

/-- The snapshot that reached etcd last. -/
def lastSaved (trace : List (Label P I)) : Option MasterMetadataSnapshot :=
  trace.foldl (fun stored label => label.stores stored) none

theorem lastSaved_snoc (trace : List (Label P I)) (label : Label P I) :
    lastSaved (trace ++ [label]) = label.stores (lastSaved trace) := by
  simp [lastSaved]

variable [DecidableEq P] [DecidableEq I]

def become (s : Fleet P I) (p : P) (process : FleetProcess) : Fleet P I :=
  { s with processes := Function.update s.processes p process }

def goOn (s : Fleet P I) (i : I) (request : FleetRequest P) : Fleet P I :=
  { s with requests := Function.update s.requests i request }

/-- A process that stops drops the requests it handles. A save may have been sent by then. -/
def drop (p : P) (request : FleetRequest P) : FleetRequest P :=
  match request.stage with
  | .handled q _ _ rest => if q = p then ⟨.dropped, rest.saving.or request.flying⟩ else request
  | _ => request

variable [JsonWriter] [JsonReader]

/-- A process is started any number of times, and may stop at any point. A transaction may be lost before or
after it took effect. A save whose reply is an error, or whose process stopped, may still arrive later. -/
inductive Step (codec : EtcdCodec) (asked : I → MasterRequest) (s : Fleet P I) : Label P I → Fleet P I → Prop
  | start {p : P} (bindAddr : String) : s.processes p = .stopped →
      Step codec asked s (.start p bindAddr) (s.become p (.electing bindAddr))
  | elect {p : P} {bindAddr : String} : s.processes p = .electing bindAddr →
      Step codec asked s (.elect p) ({ s with etcd := (s.etcd.commit (leaderTxn codec bindAddr)).2 }.become p
        (.answered bindAddr (.ok (s.etcd.commit (leaderTxn codec bindAddr)).1)))
  | lose {p : P} {bindAddr : String} (failure : EtcdFailure) (committed : Bool) : s.processes p = .electing bindAddr →
      Step codec asked s (.lose p failure committed)
        ({ s with etcd := if committed then (s.etcd.commit (leaderTxn codec bindAddr)).2 else s.etcd }.become p
          (.answered bindAddr (.error failure)))
  | decide {p : P} {bindAddr : String} {reply : Except EtcdFailure EtcdTxnResponse} {leadership : LeadershipState} :
      s.processes p = .answered bindAddr reply → electLeader codec bindAddr reply = .ok leadership →
      Step codec asked s (.decide p) (s.become p (.elected leadership))
  | range {p : P} {leadership : LeadershipState} : s.processes p = .elected leadership →
      Step codec asked s (.range p) (s.become p (.loading leadership (.ok (stored codec s.etcd))))
  | unread {p : P} {leadership : LeadershipState} (failure : EtcdFailure) : s.processes p = .elected leadership →
      Step codec asked s (.unread p failure) (s.become p (.loading leadership (.error failure)))
  | load {p : P} {leadership : LeadershipState} {reply : Except EtcdFailure EtcdRangeResponse}
      {snapshot : Option MasterMetadataSnapshot} : s.processes p = .loading leadership reply →
      load codec reply = .ok snapshot →
      Step codec asked s (.load p) (s.become p (.running leadership (loadedMaster snapshot)))
  | accept {i : I} {p : P} {leadership : LeadershipState} {master : MasterState} :
      (s.requests i).stage = .waiting → s.processes p = .running leadership master →
      Step codec asked s (.accept i p) (s.goOn i ⟨.handled p leadership [] ((asked i).handle leadership), none⟩)
  | serve {i : I} {p : P} {leadership : LeadershipState} {master master' : MasterState} {past : List MasterEvent}
      {call : MasterCall} {reply : call.Reply} {next : call.Reply → Handler MasterResponse} :
      (s.requests i).stage = .handled p leadership past (.call call next) →
      s.processes p = .running leadership master → master.Serves call reply master' →
      Step codec asked s (.serve i leadership ⟨call, reply⟩) ((s.become p (.running leadership master')).goOn i
        ⟨.handled p leadership (past ++ [⟨call, reply⟩]) (next reply), (s.requests i).flying⟩)
  | saved {i : I} {p : P} {leadership : LeadershipState} {past : List MasterEvent} {snapshot : MasterMetadataSnapshot}
      {next : Except String Unit → Handler MasterResponse} :
      (s.requests i).stage = .handled p leadership past (.call (.save snapshot) next) →
      Step codec asked s (.save i snapshot (.ok ())) ({ s with etcd := put codec snapshot s.etcd }.goOn i
        ⟨.handled p leadership (past ++ [(⟨.save snapshot, .ok ()⟩ : MasterEvent)]) (next (.ok ())), (s.requests i).flying⟩)
  | unsaved {i : I} {p : P} {leadership : LeadershipState} {past : List MasterEvent}
      {snapshot : MasterMetadataSnapshot} {next : Except String Unit → Handler MasterResponse} (error : String) :
      (s.requests i).stage = .handled p leadership past (.call (.save snapshot) next) →
      Step codec asked s (.save i snapshot (.error error)) (s.goOn i
        ⟨.handled p leadership (past ++ [(⟨.save snapshot, .error error⟩ : MasterEvent)]) (next (.error error)), some snapshot⟩)
  | land {i : I} {snapshot : MasterMetadataSnapshot} : (s.requests i).flying = some snapshot →
      Step codec asked s (.land i snapshot)
        ({ s with etcd := put codec snapshot s.etcd }.goOn i ⟨(s.requests i).stage, none⟩)
  | stop (p : P) : Step codec asked s (.stop p)
      { s with processes := Function.update s.processes p .stopped, requests := fun i => drop p (s.requests i) }

end Fleet
end Mooncache

import Mooncache.Master.Cluster

/-! The order of a handler's calls: one operation, and if it was accepted a snapshot, its
save, the end of the wait for it and the answer. -/
namespace Mooncache

/-- An operation that changes the master's metadata or segments, and was not refused. -/
def MasterEvent.Accepted (event : MasterEvent) : Prop :=
  match event with
  | ⟨.putStart _ _ _ _, reply⟩ => ∃ replicas, reply = .ok replicas
  | ⟨.putEnd _ _, reply⟩ | ⟨.putRevoke _ _, reply⟩ | ⟨.remove _ _, reply⟩ | ⟨.setTenantQuota _ _ _, reply⟩ =>
    ∃ done, reply = .ok done
  | ⟨.mountSegment _ _, _⟩ => True
  | ⟨.getReplicaList _ _, _⟩ | ⟨.metadataSnapshot, _⟩ | ⟨.save _, _⟩ | ⟨.resume, _⟩ => False

/-- The operation took an object out of the committed state. -/
def MasterEvent.Ends (key : ObjectKey) (event : MasterEvent) : Prop :=
  match event with
  | ⟨.putRevoke tenant cacheKey, reply⟩ | ⟨.remove tenant cacheKey, reply⟩ =>
    (tenant, cacheKey) = key ∧ reply = .ok ()
  | _ => False

instance (key : ObjectKey) (event : MasterEvent) : Decidable (event.Ends key) := by
  obtain ⟨request, reply⟩ := event
  cases request <;> unfold MasterEvent.Ends <;> infer_instance

namespace Handler
open Program

/-- Where a handler makes a call. -/
def Ordered (past : List MasterEvent) : MasterCall → Prop
  | .metadataSnapshot => ∃ first : MasterEvent, past = [first] ∧ first.Accepted
  | .save snapshot => ∃ first : MasterEvent, past = [first, ⟨.metadataSnapshot, snapshot⟩] ∧ first.Accepted
  | .resume => ∃ (first : MasterEvent) (snapshot : MasterMetadataSnapshot) (saved : Except String Unit),
    past = [first, ⟨.metadataSnapshot, snapshot⟩, ⟨.save snapshot, saved⟩] ∧ first.Accepted
  | _ => past = []

/-- Where a handler answers: at once, after an operation that was not accepted, or with the
outcome of the save. -/
def Answered (past : List MasterEvent) (response : MasterResponse) : Prop :=
  (∀ event ∈ past, ¬ event.Accepted) ∨
  ∃ (first : MasterEvent) (snapshot : MasterMetadataSnapshot) (saved : Except String Unit),
    past = [first, ⟨.metadataSnapshot, snapshot⟩, ⟨.save snapshot, saved⟩, ⟨.resume, ()⟩] ∧ first.Accepted ∧
    (response.Success ↔ saved = .ok ())

/-- An operation is accepted before anything else is called. -/
theorem Ordered.first {past : List MasterEvent} {event : MasterEvent} (h : Ordered past event.request)
    (accepted : event.Accepted) : past = [] := by
  obtain ⟨request, reply⟩ := event
  cases request with
  | metadataSnapshot | save | resume => exact accepted.elim
  | _ => exact h

private theorem acknowledge_meets {α : Type} {result : CacheResult α} {answer : α → MasterResponse}
    {first : MasterEvent} (success : ∀ value, (answer value).Success)
    (accepted : first.Accepted ↔ ∃ value, result = .ok value) :
    (acknowledge result answer).Meets Ordered Answered [first] := by
  cases result with
  | error err => exact .inl (by simp [accepted])
  | ok value =>
    have taken : first.Accepted := accepted.mpr ⟨value, rfl⟩
    refine ⟨⟨first, rfl, taken⟩, fun snapshot => ⟨⟨first, rfl, taken⟩, fun saved =>
      ⟨⟨first, snapshot, saved, rfl, taken⟩, fun _ => ?_⟩⟩⟩
    cases saved with
    | ok => exact .inr ⟨first, snapshot, .ok (), rfl, taken, by simp [success value]⟩
    | error err =>
      exact .inr ⟨first, snapshot, .error err, rfl, taken, by simp [MasterResponse.Success, MasterResponse.error]⟩

private theorem asLeader_meets {leadership : LeadershipState} {handler : Handler MasterResponse}
    (h : handler.Meets Ordered Answered []) : (asLeader leadership handler).Meets Ordered Answered [] := by
  unfold asLeader
  split
  · exact .inl (by simp)
  · exact h

private theorem withObject_meets {tenantId cacheKey : String} {handler : TenantId → CacheKey → Handler MasterResponse}
    (h : ∀ tenant key, (handler tenant key).Meets Ordered Answered []) :
    (withObject tenantId cacheKey handler).Meets Ordered Answered [] := by
  unfold withObject
  split
  · exact .inl (by simp)
  · split
    · exact .inl (by simp)
    · exact h _ _

theorem handle_meets (leadership : LeadershipState) (request : MasterRequest) :
    (request.handle leadership).Meets Ordered Answered [] := by
  cases request with
  | putStart body =>
    refine asLeader_meets (withObject_meets fun tenant key => ⟨rfl, fun reply => ?_⟩)
    exact acknowledge_meets (fun _ => ⟨le_rfl, by simp⟩) .rfl
  | putEnd body =>
    refine asLeader_meets (withObject_meets fun tenant key => ⟨rfl, fun reply => ?_⟩)
    exact acknowledge_meets (fun _ => MasterResponse.acknowledged_success) .rfl
  | putRevoke body =>
    refine asLeader_meets (withObject_meets fun tenant key => ⟨rfl, fun reply => ?_⟩)
    exact acknowledge_meets (fun _ => MasterResponse.acknowledged_success) .rfl
  | getReplicaList query =>
    refine withObject_meets fun tenant key => ⟨rfl, fun reply => ?_⟩
    cases reply <;> exact .inl (by simp [MasterEvent.Accepted])
  | removeObject query =>
    refine asLeader_meets (withObject_meets fun tenant key => ⟨rfl, fun reply => ?_⟩)
    exact acknowledge_meets (fun _ => MasterResponse.acknowledged_success) .rfl
  | setTenantQuota body =>
    refine asLeader_meets ⟨rfl, fun reply => ?_⟩
    exact acknowledge_meets (fun _ => MasterResponse.acknowledged_success) .rfl
  | mountSegment body =>
    refine asLeader_meets ⟨rfl, fun reply => ?_⟩
    show (acknowledge (.ok ()) fun () => .acknowledged).Meets Ordered Answered [_]
    exact acknowledge_meets (fun _ => MasterResponse.acknowledged_success) ⟨fun _ => ⟨(), rfl⟩, fun _ => trivial⟩

end Handler
end Mooncache

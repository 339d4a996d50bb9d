import Mooncache.Gateway.SharedFlights

/-! No request of a gateway is ever stuck: while the cache and the vendor answer and no
request is cancelled, any request can be brought to its end. -/
namespace Mooncache
open Program

namespace Flights
variable {ρ : Type}

/-- The leaders that have sent are those that are published. -/
theorem run_sent {maxWaitersPerKey : Nat} {trace : List (Action ρ)} {s : Flights ρ}
    (run : Run Step (new maxWaitersPerKey) trace s) : (∀ leader, .send leader ∈ trace → leader < s.opened) ∧
      ∀ leader < s.opened, (.send leader ∈ trace ↔ ∃ result, (s.leaders leader).phase = .published result) := by
  refine run.invariant (P := fun trace (s : Flights ρ) => (∀ leader, .send leader ∈ trace → leader < s.opened) ∧
    ∀ leader < s.opened, (.send leader ∈ trace ↔ ∃ result, (s.leaders leader).phase = .published result))
    ⟨by simp, by simp [new]⟩ fun {trace s action s'} _ ih step => ?_
  obtain ⟨enabled, rfl⟩ := step
  have ended (leader : Nat) (phase : LeaderPhase ρ) (unpublished : ∀ result, phase ≠ .published result)
      (live : (s.leaders leader).phase = .live) (other : Nat) (opened : other < s.opened) :
      .send other ∈ trace ↔ ∃ result, (Function.update s.leaders leader { s.leaders leader with phase } other).phase =
        .published result := by
    rcases eq_or_ne other leader with rfl | hne
    · simp [ih.2 other opened, live, unpublished]
    · simp [ih.2 other opened, hne]
  cases action with
  | begin key =>
    simp only [List.mem_append, List.mem_singleton, reduceCtorEq, or_false, apply]
    rcases s.begun_cases key with ⟨_, _, opened, _, _, leaders⟩ |
      ⟨_, _, ⟨_, _, same⟩ | ⟨_, _, opened, _, leaders, _⟩⟩
    · rw [opened, leaders]
      refine ⟨fun leader sent => Nat.lt_succ_of_lt (ih.1 leader sent), fun leader bound => ?_⟩
      rcases Nat.lt_succ_iff_lt_or_eq.mp bound with old | rfl
      · rw [Function.update_of_ne old.ne]
        exact ih.2 leader old
      · simp only [Function.update_self, reduceCtorEq, exists_false, iff_false]
        exact fun sent => lt_irrefl _ (ih.1 _ sent)
    · rw [same]
      exact ih
    · rw [opened, leaders]
      exact ih
  | publish leader result =>
    simp only [List.mem_append, List.mem_singleton, reduceCtorEq, or_false]
    exact ⟨ih.1, ended leader _ (by simp) enabled.2⟩
  | dropLeader leader =>
    simp only [List.mem_append, List.mem_singleton, reduceCtorEq, or_false, apply, dropLeader_opened, dropLeader_leaders]
    exact ⟨ih.1, ended leader _ (by simp) enabled.2⟩
  | send leader =>
    obtain ⟨opened, inFlight, result, publishing⟩ := enabled
    simp only [List.mem_append, List.mem_singleton, Action.send.injEq, apply, send_opened, send_leaders publishing]
    refine ⟨fun other sent => sent.elim (ih.1 other) fun same => same ▸ opened, fun other bound => ?_⟩
    rcases eq_or_ne other leader with rfl | hne
    · simp
    · simpa [hne] using ih.2 other bound
  | wake waiter => simpa [apply] using ih
  | dropWaiter waiter => simpa [apply, endWaiter, setWaiter, setChannel] using ih

/-- Only a waiter that was dropped is gone without a result. -/
theorem run_dropped {maxWaitersPerKey : Nat} {trace : List (Action ρ)} {s : Flights ρ}
    (run : Run Step (new maxWaitersPerKey) trace s) (waiter : Nat) (joined : waiter < s.joined)
    (dropped : (s.waiters waiter).phase = .dropped) : .dropWaiter waiter ∈ trace := by
  refine run.invariant (P := fun trace (s : Flights ρ) => ∀ waiter < s.joined,
    (s.waiters waiter).phase = .dropped → .dropWaiter waiter ∈ trace) (by simp [new])
    (fun {trace s action s'} _ ih step waiter joined dropped => ?_) waiter joined dropped
  rcases Nat.lt_or_ge waiter s.joined with old | fresh
  · obtain ⟨_, _, ⟨_, next⟩ | ⟨_, same | ⟨rfl, _⟩⟩⟩ := step.waiter old
    · rw [dropped] at next
      exact absurd next (WaiterPhase.next_ne_dropped _ _)
    · exact List.mem_append_left _ (ih waiter old (same ▸ dropped))
    · exact List.mem_append_right _ (List.mem_singleton_self _)
  · by_cases begins : ∃ key, action = .begin key
    · obtain ⟨key, rfl⟩ := begins
      obtain ⟨_, rfl⟩ := step
      simp only [apply] at joined dropped
      rcases s.begun_cases key with ⟨_, _, _, same, _⟩ | ⟨_, _, ⟨_, _, same⟩ | ⟨_, _, _, more, _, waiters⟩⟩
      · omega
      · rw [same] at joined
        omega
      · obtain rfl : waiter = s.joined := by omega
        rw [waiters, Function.update_self] at dropped
        cases dropped
    · have same := (step.numbers fun key same => begins ⟨key, same⟩).2.1
      omega

/-- The receiver of a waiter stays. -/
theorem run_receiver {s s' : Flights ρ} {later : List (Action ρ)} (run : Run Step s later s') {waiter : Nat}
    (joined : waiter < s.joined) :
    waiter < s'.joined ∧ (s'.waiters waiter).receiver = (s.waiters waiter).receiver := by
  induction run with
  | start => exact ⟨joined, rfl⟩
  | snoc _ last ih =>
    obtain ⟨joined, same, _⟩ := last.waiter ih.1
    exact ⟨joined, same.trans ih.2⟩

end Flights

section
variable {I A C : Type} [DecidableEq I] {cache : Server C A Call Call.Reply}
  {vendor : (call : Call) → call.Reply → Prop} {store : C} {maxWaiters : Nat}
  {programs : I → Flow (GatewayResult GatewayResponse)}
  {trace : List (Pool.Label I (GatewayAction A) Call Call.Reply)} {s : GatewayPool I C}
  [JsonReader] {post : I → List GatewayEvent → GatewayResult GatewayResponse → Prop}
  (meets : ∀ i, (programs i).Meets RequestCalls (post i) [])
  (run : Run (Pool.Step (GatewayWorld.server cache vendor)) (Pool.initial ⟨store, .new maxWaiters⟩ programs) trace s)

include meets run

/-- What a request had done before it published. -/
theorem published_past {i : I} {leader : Nat} {result : SharedResult GatewayResponse}
    (published : ⟨.publish leader result, ()⟩ ∈ Pool.own s.history i) :
    (∃ key, ⟨.begin key, .ok (.leader leader)⟩ ∈ Pool.own s.history i) ∧
      ((∃ event ∈ Pool.own s.history i, VendorFails event) ∨ ∃ response, result = .ok response ∧
        response.statusCode = 200 ∧ ∃ request, ⟨.complete request, .ok response.body⟩ ∈ Pool.own s.history i) := by
  obtain ⟨before, after, split⟩ := List.append_of_mem published
  obtain ⟨⟨key, begun⟩, _, told⟩ := Pool.run_called (meets i) run split
  have early {event : GatewayEvent} (member : event ∈ before) : event ∈ Pool.own s.history i :=
    split ▸ List.mem_append_left _ member
  refine ⟨⟨key, early begun⟩, told.imp ?_ ?_⟩
  · rintro ⟨event, member, fails⟩
    exact ⟨event, early member, fails⟩
  · rintro ⟨response, rfl, status, request, member⟩
    exact ⟨response, rfl, status, request, early member⟩

/-- A request asks the group for a flight at most once. -/
theorem begun_once {i : I} {key key' : SingleflightKey} {reply reply' : Except SingleflightError BegunFlight}
    (first : ⟨.begin key, reply⟩ ∈ Pool.own s.history i) (second : ⟨.begin key', reply'⟩ ∈ Pool.own s.history i) :
    (⟨.begin key, reply⟩ : GatewayEvent) = ⟨.begin key', reply'⟩ := by
  obtain ⟨before, after, split⟩ := List.append_of_mem first
  have quiet : Quiet before := Pool.run_called (meets i) run split
  rw [split, List.mem_append, List.mem_cons] at second
  rcases second with early | same | late
  · cases quiet _ early
  · exact same.symm
  · obtain ⟨middle, last, rest⟩ := List.append_of_mem late
    rw [rest, ← List.cons_append, ← List.append_assoc] at split
    have quiet : Quiet (before ++ ⟨.begin key, reply⟩ :: middle) := Pool.run_called (meets i) run split
    cases quiet ⟨.begin key, reply⟩ (by simp)

/-- Only the request a leader was handed to publishes as that leader. -/
theorem published_by {i j : I} {key : SingleflightKey} {leader : Nat} {result : SharedResult GatewayResponse}
    (leads : ⟨.begin key, .ok (.leader leader)⟩ ∈ Pool.own s.history i)
    (published : ⟨.publish leader result, ()⟩ ∈ Pool.own s.history j) : j = i := by
  obtain ⟨⟨key', begun⟩, _⟩ := published_past meets run published
  exact (run_linked run).alone leader j i key' key (Pool.mem_own.mp begun) (Pool.mem_own.mp leads)

theorem leader_live {i : I} {key : SingleflightKey} {leader : Nat}
    (leads : ⟨.begin key, .ok (.leader leader)⟩ ∈ Pool.own s.history i)
    (unpublished : ∀ result, ⟨.publish leader result, ()⟩ ∉ Pool.own s.history i)
    (uncancelled : .act (.cancelLeader leader) ∉ trace) :
    leader < s.world.flights.opened ∧ (s.world.flights.leaders leader).phase = .live := by
  have opened := ((run_linked run).leader leader).mpr ⟨i, key, Pool.mem_own.mp leads⟩
  refine ⟨opened, ?_⟩
  cases ended : (s.world.flights.leaders leader).phase.outcome with
  | none => cases phase : (s.world.flights.leaders leader).phase <;> rw [phase] at ended <;> first | rfl | cases ended
  | some outcome =>
    have told : s.world.flights.outcomeOf leader = some outcome := by rw [Flights.outcomeOf, if_pos opened, ended]
    rcases outcome_cases run told with ⟨j, result, _, published⟩ | ⟨_, cancelled⟩
    · have published := Pool.mem_own.mpr published
      obtain rfl := published_by meets run leads published
      exact absurd published (unpublished result)
    · exact absurd cancelled uncancelled

/-- The phase of a leader whose request has published. -/
private theorem published_phase {i : I} {leader : Nat} {result : SharedResult GatewayResponse}
    (published : ⟨.publish leader result, ()⟩ ∈ Pool.own s.history i)
    (uncancelled : .act (.cancelLeader leader) ∉ trace) : leader < s.world.flights.opened ∧
      ((∃ inFlight result, (s.world.flights.leaders leader).phase = .publishing inFlight result) ∨
        ∃ result, (s.world.flights.leaders leader).phase = .published result) := by
  obtain ⟨⟨key, begun⟩, _⟩ := published_past meets run published
  have opened := ((run_linked run).leader leader).mpr ⟨i, key, Pool.mem_own.mp begun⟩
  refine ⟨opened, ?_⟩
  have taken : .publish leader result ∈ trace.filterMap flightAction :=
    List.mem_filterMap.mpr ⟨_, (Pool.run_history run i _).mp (Pool.mem_own.mp published), rfl⟩
  obtain ⟨outcome, ended⟩ := Option.isSome_iff_exists.mp
    (List.findSome?_isSome_iff.mpr ⟨_, taken, by simp [Flights.Action.outcome]⟩ :
      ((trace.filterMap flightAction).findSome? (Flights.Action.outcome leader)).isSome)
  rw [Flights.run_outcomeOf (run_flights run)] at ended
  rcases outcome_cases run ended with ⟨_, result, rfl, _⟩ | ⟨_, cancelled⟩
  · rw [Flights.outcomeOf, if_pos opened] at ended
    cases phase : (s.world.flights.leaders leader).phase <;> rw [phase] at ended
    · cases ended
    · exact .inl ⟨_, _, rfl⟩
    · exact .inr ⟨_, rfl⟩
    · cases ended
  · exact absurd cancelled uncancelled

theorem leader_publishing {i : I} {leader : Nat} {result : SharedResult GatewayResponse}
    (published : ⟨.publish leader result, ()⟩ ∈ Pool.own s.history i)
    (unsent : ⟨.send leader, ()⟩ ∉ Pool.own s.history i) (uncancelled : .act (.cancelLeader leader) ∉ trace) :
    leader < s.world.flights.opened ∧
      ∃ inFlight result, (s.world.flights.leaders leader).phase = .publishing inFlight result := by
  obtain ⟨opened, publishing | sent⟩ := published_phase meets run published uncancelled
  · exact ⟨opened, publishing⟩
  · obtain ⟨label, member, acts⟩ := List.mem_filterMap.mp (((Flights.run_sent (run_flights run)).2 leader opened).mpr sent)
    obtain ⟨j, rfl⟩ := flightAction_eq_send acts
    have sends := Pool.mem_own.mpr ((Pool.run_history run j _).mpr member)
    obtain ⟨before, after, split⟩ := List.append_of_mem sends
    obtain ⟨⟨other, publishes⟩, _⟩ := Pool.run_called (meets j) run split
    obtain ⟨⟨key, leads⟩, _⟩ := published_past meets run published
    obtain rfl := published_by meets run leads (split ▸ List.mem_append_left _ publishes)
    exact absurd sends unsent

omit [JsonReader] meets in
theorem leader_finished {i : I} {leader : Nat} (sent : ⟨.send leader, ()⟩ ∈ Pool.own s.history i) :
    leader < s.world.flights.opened ∧ (s.world.flights.leaders leader).phase.finished = true := by
  have taken : .send leader ∈ trace.filterMap flightAction :=
    List.mem_filterMap.mpr ⟨_, (Pool.run_history run i _).mp (Pool.mem_own.mp sent), rfl⟩
  obtain ⟨opens, phases⟩ := Flights.run_sent (run_flights run)
  obtain ⟨result, phase⟩ := (phases leader (opens leader taken)).mp taken
  exact ⟨opens leader taken, by rw [phase]; rfl⟩

end

/-- Whatever a request asks of the cache, the vendor or the metrics is answered. -/
def Answers {C A : Type} (cache : Server C A Call Call.Reply) (vendor : (call : Call) → call.Reply → Prop) : Prop :=
  ∀ (s : GatewayWorld C) (call : Call), call.isFlight = false → ∃ reply s', s.Serves cache vendor call reply s'

def Uncancelled {I A : Type} (trace : List (Pool.Label I (GatewayAction A) Call Call.Reply)) : Prop :=
  ∀ number, .act (.cancelLeader number) ∉ trace ∧ .act (.cancelWaiter number) ∉ trace

theorem Uncancelled.append {I A : Type} {first second : List (Pool.Label I (GatewayAction A) Call Call.Reply)}
    (h : Uncancelled first) (h' : Uncancelled second) : Uncancelled (first ++ second) :=
  fun number => ⟨fun member => (List.mem_append.mp member).elim (h number).1 (h' number).1,
    fun member => (List.mem_append.mp member).elim (h number).2 (h' number).2⟩

section
variable {I A C : Type} [DecidableEq I] {cache : Server C A Call Call.Reply}
  {vendor : (call : Call) → call.Reply → Prop} {store : C} {maxWaiters : Nat}
  {programs : I → Flow (GatewayResult GatewayResponse)}
  {trace : List (Pool.Label I (GatewayAction A) Call Call.Reply)} {s : GatewayPool I C}
  [JsonReader] {post : I → List GatewayEvent → GatewayResult GatewayResponse → Prop}
  (answers : Answers cache vendor) (meets : ∀ i, (programs i).Meets RequestCalls (post i) [])
  (settles : ∀ i later result, post i later result → Settled later)

include answers meets

/-- Every call but a wait can be made when its turn comes. -/
private theorem can_call (run : Run (Pool.Step (GatewayWorld.server cache vendor))
      (Pool.initial ⟨store, .new maxWaiters⟩ programs) trace s) (uncancelled : Uncancelled trace) {i : I} {call : Call}
    {next : call.Reply → Flow (GatewayResult GatewayResponse)} (pending : s.threads i = .call call next)
    (unwaiting : ∀ waiter, call ≠ .wait waiter) : ∃ reply world, s.world.Serves cache vendor call reply world := by
  have ready := Pool.run_meets (meets i) run
  rw [pending] at ready
  replace ready := ready.1
  cases call with
  | begin key => exact ⟨_, _, rfl, rfl⟩
  | publish leader result =>
    obtain ⟨⟨key, begun⟩, unpublished, _⟩ := ready
    exact ⟨(), _, _, ⟨leader_live meets run begun unpublished (uncancelled leader).1, rfl⟩, rfl⟩
  | send leader =>
    obtain ⟨⟨result, published⟩, unsent⟩ := ready
    exact ⟨(), _, _, ⟨leader_publishing meets run published unsent (uncancelled leader).1, rfl⟩, rfl⟩
  | wait waiter => exact absurd rfl (unwaiting waiter)
  | _ => exact answers s.world _ rfl

/-- A request that leads a flight waits for nobody. -/
private theorem leader_finishes (p : Flow (GatewayResult GatewayResponse)) (run : Run
      (Pool.Step (GatewayWorld.server cache vendor)) (Pool.initial ⟨store, .new maxWaiters⟩ programs) trace s)
    (uncancelled : Uncancelled trace) {j : I} (pending : s.threads j = p) {key : SingleflightKey} {leader : Nat}
    (leads : ⟨.begin key, .ok (.leader leader)⟩ ∈ Pool.own s.history j) :
    ∃ later s', Run (Pool.Step (GatewayWorld.server cache vendor)) s later s' ∧ Uncancelled later ∧
      (∃ result, s'.threads j = .done result) ∧ ∀ i, i ≠ j → s'.threads i = s.threads i := by
  induction p generalizing trace s with
  | done result => exact ⟨[], s, .start, by simp [Uncancelled], ⟨result, pending⟩, fun _ _ => rfl⟩
  | call call next ih =>
    have unwaiting (waiter : Nat) : call ≠ .wait waiter := by
      rintro rfl
      have ready := Pool.run_meets (meets j) run
      rw [pending] at ready
      obtain ⟨⟨⟨_, begun⟩, _⟩, _⟩ := ready
      cases begun_once meets run leads begun
    obtain ⟨reply, world, served⟩ := can_call answers meets run uncancelled pending unwaiting
    have step : Pool.Step (GatewayWorld.server cache vendor) s (.call j ⟨call, reply⟩) _ := .call pending served
    obtain ⟨later, s', after, clear, finished, others⟩ := ih reply (run.snoc step)
      (uncancelled.append (by simp [Uncancelled])) (by simp) (by simp [leads])
    refine ⟨[.call j ⟨call, reply⟩] ++ later, s', (Run.start.snoc step).append after,
      Uncancelled.append (by simp [Uncancelled]) clear, finished, fun i hne => (others i hne).trans ?_⟩
    simp [hne]

omit [JsonReader] answers meets in
/-- Polled, the waiter of a finished leader returns. -/
private theorem waiter_returns (n : Nat) (run : Run (Pool.Step (GatewayWorld.server cache vendor))
      (Pool.initial ⟨store, .new maxWaiters⟩ programs) trace s) (uncancelled : Uncancelled trace) {waiter : Nat}
    (joined : waiter < s.world.flights.joined)
    (finished : (s.world.flights.leaders (s.world.flights.waiters waiter).receiver).phase.finished = true)
    (steps : (s.world.flights.waiters waiter).phase.stepsLeft
      (s.world.flights.channels (s.world.flights.waiters waiter).receiver) < n) :
    ∃ later s', Run (Pool.Step (GatewayWorld.server cache vendor)) s later s' ∧ Uncancelled later ∧
      s'.threads = s.threads ∧ waiter < s'.world.flights.joined ∧
      ∃ reply, (s'.world.flights.waiters waiter).phase = .returned reply := by
  induction n generalizing trace s with
  | zero => exact absurd steps (Nat.not_lt_zero _)
  | succ n ih =>
    have flights := run_flights run
    have coherent := Flights.run_coherent flights
    cases waiting : (s.world.flights.waiters waiter).phase.waiting with
    | false =>
      refine ⟨[], s, .start, by simp [Uncancelled], rfl, joined, ?_⟩
      cases phase : (s.world.flights.waiters waiter).phase with
      | returned reply => exact ⟨reply, rfl⟩
      | dropped =>
        obtain ⟨label, member, acts⟩ := List.mem_filterMap.mp (Flights.run_dropped flights waiter joined phase)
        rw [flightAction_eq_dropWaiter acts] at member
        exact absurd member (uncancelled waiter).2
      | _ =>
        rw [phase] at waiting
        cases waiting
    | true =>
      obtain ⟨phase, next, less⟩ := coherent.progress joined finished waiting
      have wakes : s.world.flights.Step (.wake waiter) (s.world.flights.wake waiter) :=
        ⟨⟨joined, by simp [next]⟩, rfl⟩
      obtain ⟨joined', same, ⟨_, next'⟩ | ⟨unpolled, _⟩⟩ := wakes.waiter joined
      · rw [next, Option.some.injEq] at next'
        obtain ⟨_, leader, value, version⟩ := wakes.finished coherent (coherent.waiter waiter joined).1 finished
        have step : Pool.Step (GatewayWorld.server cache vendor) s (.act (.wake waiter))
          { s with world := s.world.setFlights (s.world.flights.wake waiter) } := .act ⟨_, wakes, rfl⟩
        obtain ⟨later, s', after, clear, threads, returned⟩ := ih (run.snoc step)
          (uncancelled.append (by simp [Uncancelled])) joined' (by
            simp only [GatewayWorld.setFlights, same, leader, finished]) (by
            have still : phase.stepsLeft ((s.world.flights.wake waiter).channels
                (s.world.flights.waiters waiter).receiver) =
                phase.stepsLeft (s.world.flights.channels (s.world.flights.waiters waiter).receiver) := by
              cases phase <;> simp [WaiterPhase.stepsLeft, value, version]
            simp only [GatewayWorld.setFlights, same, ← next', still]
            omega)
        exact ⟨[.act (.wake waiter)] ++ later, s', (Run.start.snoc step).append after,
          Uncancelled.append (by simp [Uncancelled]) clear, threads, returned⟩
      · simp [Flights.Action.polls] at unpolled

include settles

/-- Any request can be brought to its end: by its own calls, by those of the request whose
flight it waits for, and by polls. -/
theorem request_finishes (p : Flow (GatewayResult GatewayResponse)) (run : Run
      (Pool.Step (GatewayWorld.server cache vendor)) (Pool.initial ⟨store, .new maxWaiters⟩ programs) trace s)
    (uncancelled : Uncancelled trace) {i : I} (pending : s.threads i = p) :
    ∃ later s', Run (Pool.Step (GatewayWorld.server cache vendor)) s later s' ∧ Uncancelled later ∧
      ∃ result, s'.threads i = .done result := by
  induction p generalizing trace s with
  | done result => exact ⟨[], s, .start, by simp [Uncancelled], result, pending⟩
  | call call next ih =>
    have serves {trace : List (Pool.Label I (GatewayAction A) Call Call.Reply)} {s : GatewayPool I C}
        (run : Run (Pool.Step (GatewayWorld.server cache vendor)) (Pool.initial ⟨store, .new maxWaiters⟩ programs)
          trace s) (uncancelled : Uncancelled trace) (pending : s.threads i = .call call next)
        (able : ∃ reply world, s.world.Serves cache vendor call reply world) :
        ∃ later s', Run (Pool.Step (GatewayWorld.server cache vendor)) s later s' ∧ Uncancelled later ∧
          ∃ result, s'.threads i = .done result := by
      obtain ⟨reply, world, served⟩ := able
      have step : Pool.Step (GatewayWorld.server cache vendor) s (.call i ⟨call, reply⟩) _ := .call pending served
      obtain ⟨later, s', after, clear, finished⟩ := ih reply (run.snoc step)
        (uncancelled.append (by simp [Uncancelled])) (by simp)
      exact ⟨[.call i ⟨call, reply⟩] ++ later, s', (Run.start.snoc step).append after,
        Uncancelled.append (by simp [Uncancelled]) clear, finished⟩
    by_cases waits : ∃ waiter, call = .wait waiter
    · obtain ⟨waiter, rfl⟩ := waits
      have ready := Pool.run_meets (meets i) run
      rw [pending] at ready
      obtain ⟨⟨⟨key, begun⟩, _⟩, _⟩ := ready
      have linked := run_linked run
      have joined := (linked.waiter waiter).mpr ⟨i, key, Pool.mem_own.mp begun⟩
      obtain ⟨opened, _⟩ := (Flights.run_coherent (run_flights run)).waiter waiter joined
      obtain ⟨j, key', leads⟩ := (linked.leader _).mp opened
      have leads := Pool.mem_own.mpr leads
      have apart : i ≠ j := by
        rintro rfl
        cases begun_once meets run begun leads
      obtain ⟨first, s₁, led, clear₁, ⟨ended, done⟩, others⟩ :=
        leader_finishes answers meets _ run uncancelled rfl leads
      have run₁ := run.append led
      obtain ⟨joined₁, receiver⟩ := Flights.run_receiver (run_flights led) joined
      have met := Pool.run_meets (meets j) run₁
      rw [done] at met
      have leads₁ := Pool.mem_own.mpr ((Pool.run_history run₁ j _).mpr (List.mem_append_left first
        ((Pool.run_history run j _).mp (Pool.mem_own.mp leads))))
      have finished := (leader_finished run₁ (settles j _ _ met _ _ leads₁).2).2
      rw [← receiver] at finished
      obtain ⟨second, s₂, polled, clear₂, threads, joined₂, reply, returned⟩ :=
        waiter_returns _ run₁ (uncancelled.append clear₁) joined₁ finished (Nat.lt_succ_self _)
      have pending₂ : s₂.threads i = .call (.wait waiter) next := by rw [threads, others i apart, pending]
      obtain ⟨third, s₃, after, clear₃, finished⟩ := serves (run₁.append polled)
        ((uncancelled.append clear₁).append clear₂) pending₂ ⟨reply, _, joined₂, returned, rfl⟩
      exact ⟨first ++ second ++ third, s₃, (led.append polled).append after,
        (clear₁.append clear₂).append clear₃, finished⟩
    · exact serves run uncancelled pending
        (can_call answers meets run uncancelled pending fun waiter same => waits ⟨waiter, same⟩)

end
end Mooncache

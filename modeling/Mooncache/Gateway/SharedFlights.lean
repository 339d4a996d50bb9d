import Mooncache.Gateway.RequestOutcome

/-! The requests of one gateway as users of its singleflight group: a run of theirs is a
run of the group, and every number the group gives out belongs to one request. -/
namespace Mooncache
open Program

/-- `begin` with what it hands out. -/
theorem Flights.begun_cases {ρ : Type} (s : Flights ρ) (key : SingleflightKey) :
    (s.group.inner.lookup key = none ∧ s.begun key = .leader s.opened ∧ (s.begin key).opened = s.opened + 1 ∧
      (s.begin key).joined = s.joined ∧ (s.begin key).waiters = s.waiters ∧
      (s.begin key).leaders = Function.update s.leaders s.opened ⟨key, .live⟩) ∨
    ∃ inFlight, s.group.inner.lookup key = some inFlight ∧
      (s.group.maxWaitersPerKey ≤ inFlight.waiters ∧ s.begun key = .overCapacity ∧ s.begin key = s ∨
        inFlight.waiters < s.group.maxWaitersPerKey ∧ s.begun key = .waiter s.joined ∧
        (s.begin key).opened = s.opened ∧ (s.begin key).joined = s.joined + 1 ∧
        (s.begin key).leaders = s.leaders ∧ (s.begin key).waiters = Function.update s.waiters s.joined
          ⟨key, inFlight.sender, .borrow (s.channels inFlight.sender).version⟩) := by
  unfold begun begin SingleflightGroup.begin
  cases found : s.group.inner.lookup key with
  | none => exact .inl ⟨rfl, rfl, rfl, rfl, rfl, rfl⟩
  | some inFlight =>
    refine .inr ⟨inFlight, rfl, ?_⟩
    by_cases full : inFlight.waiters ≥ s.group.maxWaitersPerKey
    · exact .inl ⟨full, by simp [full]⟩
    · exact .inr ⟨by omega, by simp [full]⟩

namespace Flights
variable {ρ : Type}

theorem setWaiter_key (s : Flights ρ) (other : Nat) (phase : WaiterPhase ρ) (waiter : Nat) :
    ((s.setWaiter other phase).waiters waiter).key = (s.waiters waiter).key := by
  rcases eq_or_ne waiter other with rfl | hne
  · simp [setWaiter]
  · simp [setWaiter, hne]

/-- A waiter keeps the key it was handed out under. -/
theorem Step.waiter_key {s s' : Flights ρ} {action : Action ρ} (step : Step s action s') {waiter : Nat}
    (joined : waiter < s.joined) : (s'.waiters waiter).key = (s.waiters waiter).key := by
  obtain ⟨_, rfl⟩ := step
  cases action with
  | begin key =>
    rcases s.begin_cases key with ⟨_, he⟩ | ⟨_, _, he | ⟨_, he⟩⟩ <;> rw [apply, he]
    simp [joined.ne]
  | publish leader result => rfl
  | send leader =>
    simp only [apply, send]
    split <;> rfl
  | dropLeader leader =>
    simp only [apply, dropLeader]
    split <;> rfl
  | wake polled =>
    simp only [apply, wake]
    split
    · exact setWaiter_key s polled _ waiter
    · exact setWaiter_key s polled _ waiter
    · rfl
  | dropWaiter ended => exact setWaiter_key s ended _ waiter

end Flights

section
variable {I A C : Type}

/-- What a step of a gateway does to its singleflight group. -/
def flightAction : Pool.Label I (GatewayAction A) Call Call.Reply → Option (Flights.Action GatewayResponse)
  | .call _ ⟨.begin key, _⟩ => some (.begin key)
  | .call _ ⟨.publish leader result, _⟩ => some (.publish leader result)
  | .call _ ⟨.send leader, _⟩ => some (.send leader)
  | .act (.wake waiter) => some (.wake waiter)
  | .act (.cancelLeader leader) => some (.dropLeader leader)
  | .act (.cancelWaiter waiter) => some (.dropWaiter waiter)
  | _ => none

variable [DecidableEq I] {cache : Server C A Call Call.Reply} {vendor : (call : Call) → call.Reply → Prop}
  {store : C} {maxWaiters : Nat} {programs : I → Flow (GatewayResult GatewayResponse)}
  {trace : List (Pool.Label I (GatewayAction A) Call Call.Reply)}
  {s s' : GatewayPool I C} {label : Pool.Label I (GatewayAction A) Call Call.Reply}

theorem GatewayWorld.Serves.flights {s s' : GatewayWorld C} {call : Call} {reply : call.Reply}
    (served : s.Serves cache vendor call reply s') (unshared : call.isFlight = false ∨ ∃ waiter, call = .wait waiter) :
    s'.flights = s.flights := by
  cases call <;> first
    | simp [Call.isFlight] at unshared; done
    | (obtain ⟨_, rfl⟩ := served; rfl)
    | (obtain ⟨_, _, rfl⟩ := served; rfl)

theorem step_flights (step : Pool.Step (GatewayWorld.server cache vendor) s label s') :
    match flightAction label with
    | some action => s.world.flights.Step action s'.world.flights
    | none => s'.world.flights = s.world.flights := by
  cases step with
  | @call i call next reply world pending served =>
    have served : s.world.Serves cache vendor call reply world := served
    cases call with
    | begin key =>
      obtain ⟨rfl, rfl⟩ := served
      exact ⟨trivial, rfl⟩
    | publish leader result =>
      obtain ⟨flights, step, rfl⟩ := served
      exact step
    | send leader =>
      obtain ⟨flights, step, rfl⟩ := served
      exact step
    | wait waiter => exact served.flights (.inr ⟨waiter, rfl⟩)
    | _ => exact served.flights (.inl rfl)
  | @act action world acted =>
    cases action with
    | cache action =>
      obtain ⟨_, _, rfl⟩ := acted
      rfl
    | _ =>
      obtain ⟨flights, step, rfl⟩ := acted
      exact step

/-- The requests of a gateway use its group as any group is used. -/
theorem run_flights (run : Run (Pool.Step (GatewayWorld.server cache vendor)) s trace s') :
    Run Flights.Step s.world.flights (trace.filterMap flightAction) s'.world.flights := by
  induction run with
  | start => exact .start
  | @snoc trace middle s' label run last ih =>
    have step := step_flights last
    rw [List.filterMap_append]
    cases acts : flightAction label with
    | none =>
      rw [acts] at step
      simpa [acts, step] using ih
    | some action =>
      rw [acts] at step
      simpa [acts] using ih.snoc step

/-- The leaders and waiters of the group, and the requests they were handed to. -/
structure Linked (s : GatewayPool I C) : Prop where
  granted : ∀ i key err, (i, ⟨.begin key, .error err⟩) ∉ s.history
  leader : ∀ leader, leader < s.world.flights.opened ↔ ∃ i key, (i, ⟨.begin key, .ok (.leader leader)⟩) ∈ s.history
  leads : ∀ i key leader, (i, ⟨.begin key, .ok (.leader leader)⟩) ∈ s.history →
    (s.world.flights.leaders leader).key = key
  alone : ∀ leader i j key key', (i, ⟨.begin key, .ok (.leader leader)⟩) ∈ s.history →
    (j, ⟨.begin key', .ok (.leader leader)⟩) ∈ s.history → i = j
  waiter : ∀ waiter, waiter < s.world.flights.joined ↔ ∃ i key, (i, ⟨.begin key, .ok (.waiter waiter)⟩) ∈ s.history
  waited : ∀ i waiter reply, (i, ⟨.wait waiter, reply⟩) ∈ s.history →
    waiter < s.world.flights.joined ∧ (s.world.flights.waiters waiter).phase = .returned reply

omit [DecidableEq I] in
theorem linked_initial : Linked (Pool.initial ⟨store, .new maxWaiters⟩ programs : GatewayPool I C) where
  granted := by simp [Pool.initial]
  leader leader := by simp [Pool.initial, Flights.new]
  leads _ _ _ h := by cases h
  alone _ _ _ _ _ h := by cases h
  waiter waiter := by simp [Pool.initial, Flights.new]
  waited _ _ _ h := by cases h

omit [DecidableEq I] in
theorem flightAction_eq_begin {key : SingleflightKey} (h : flightAction label = some (.begin key)) :
    ∃ i reply, label = .call i ⟨.begin key, reply⟩ := by
  rcases label with ⟨i, call, reply⟩ | action
  · cases call <;> cases h
    exact ⟨i, reply, rfl⟩
  · cases action <;> cases h

/-- Nothing but `begin` gives numbers out, and what waiters have returned stays. -/
theorem step_numbers (step : Pool.Step (GatewayWorld.server cache vendor) s label s')
    (unbegun : ∀ i key reply, label ≠ .call i ⟨.begin key, reply⟩) :
    s'.world.flights.opened = s.world.flights.opened ∧ s'.world.flights.joined = s.world.flights.joined ∧
      (∀ leader, (s'.world.flights.leaders leader).key = (s.world.flights.leaders leader).key) ∧
      ∀ waiter < s.world.flights.joined, ∀ result, (s.world.flights.waiters waiter).phase = .returned result →
        (s'.world.flights.waiters waiter).phase = .returned result := by
  have moved := step_flights step
  cases acts : flightAction label with
  | none =>
    rw [acts] at moved
    rw [moved]
    exact ⟨rfl, rfl, fun _ => rfl, fun _ _ _ returned => returned⟩
  | some action =>
    rw [acts] at moved
    obtain ⟨opened, joined, keys⟩ := moved.numbers fun key same => by
      obtain ⟨i, reply, he⟩ := flightAction_eq_begin (same ▸ acts)
      exact unbegun i key reply he
    exact ⟨opened, joined, keys, fun waiter joined result => moved.returned joined⟩

/-- A step that gives no number out. -/
private theorem Linked.keep (h : Linked s) (step : Pool.Step (GatewayWorld.server cache vendor) s label s')
    (unbegun : ∀ i key reply, label ≠ .call i ⟨.begin key, reply⟩)
    (begins : ∀ i key reply, (i, ⟨.begin key, reply⟩) ∈ s'.history ↔ (i, ⟨.begin key, reply⟩) ∈ s.history)
    (waits : ∀ i waiter reply, (i, ⟨.wait waiter, reply⟩) ∈ s'.history → (i, ⟨.wait waiter, reply⟩) ∈ s.history ∨
      waiter < s.world.flights.joined ∧ (s.world.flights.waiters waiter).phase = .returned reply) : Linked s' := by
  obtain ⟨opened, joined, keys, returned⟩ := step_numbers step unbegun
  constructor
  · simpa only [begins] using h.granted
  · simpa only [opened, begins] using h.leader
  · simpa only [begins, keys] using h.leads
  · simpa only [begins] using h.alone
  · simpa only [joined, begins] using h.waiter
  · intro i waiter reply waited
    have known := (waits i waiter reply waited).elim (h.waited i waiter reply) id
    exact ⟨joined ▸ known.1, returned waiter known.1 reply known.2⟩

omit [DecidableEq I] in
private theorem mem_begun {history : List (I × GatewayEvent)} {i j : I} {key key' : SingleflightKey}
    {reply reply' : Except SingleflightError BegunFlight} :
    (j, ⟨.begin key', reply'⟩) ∈ history ++ [(i, ⟨.begin key, reply⟩)] ↔
      (j, ⟨.begin key', reply'⟩) ∈ history ∨ j = i ∧ key' = key ∧ reply' = reply := by
  rw [List.mem_append, List.mem_singleton]
  refine or_congr_right ⟨fun same => ?_, ?_⟩
  · cases same
    exact ⟨rfl, rfl, rfl⟩
  · rintro ⟨rfl, rfl, rfl⟩
    rfl

omit [DecidableEq I] in
private theorem mem_waited {history : List (I × GatewayEvent)} {i j : I} {key : SingleflightKey}
    {reply : Except SingleflightError BegunFlight} {waiter : Nat} {result : SharedResult GatewayResponse} :
    (j, ⟨.wait waiter, result⟩) ∈ history ++ [(i, ⟨.begin key, reply⟩)] ↔ (j, ⟨.wait waiter, result⟩) ∈ history := by
  rw [List.mem_append, List.mem_singleton, or_iff_left]
  exact fun same => nomatch same

omit [DecidableEq I] in
/-- The numbers handed out are those below the next one, also once that is handed out. -/
private theorem handed_succ {history : List (I × GatewayEvent)} {next : Nat} (flight : Nat → BegunFlight)
    (injective : ∀ m n, flight m = flight n → m = n) (i : I) (key : SingleflightKey)
    (h : ∀ n, n < next ↔ ∃ j key, (j, ⟨.begin key, .ok (flight n)⟩) ∈ history) (n : Nat) :
    n < next + 1 ↔
      ∃ j key', (j, ⟨.begin key', .ok (flight n)⟩) ∈ history ++ [(i, ⟨.begin key, .ok (flight next)⟩)] := by
  rw [Nat.lt_succ_iff_lt_or_eq, h]
  simp only [mem_begun, Except.ok.injEq]
  constructor
  · rintro (⟨j, key', member⟩ | rfl)
    · exact ⟨j, key', .inl member⟩
    · exact ⟨i, key, .inr ⟨rfl, rfl, rfl⟩⟩
  · rintro ⟨j, key', member | ⟨_, _, same⟩⟩
    · exact .inl ⟨j, key', member⟩
    · exact .inr (injective _ _ same)

omit [DecidableEq I] in
/-- A request that becomes a leader is the first with that number. -/
private theorem Linked.begin_leader (h : Linked s) (i : I) (key : SingleflightKey) {s' : GatewayPool I C}
    (opened : s'.world.flights.opened = s.world.flights.opened + 1)
    (joined : s'.world.flights.joined = s.world.flights.joined)
    (waiters : s'.world.flights.waiters = s.world.flights.waiters)
    (leaders : s'.world.flights.leaders =
      Function.update s.world.flights.leaders s.world.flights.opened ⟨key, .live⟩)
    (history : s'.history = s.history ++ [(i, ⟨.begin key, .ok (.leader s.world.flights.opened)⟩)]) : Linked s' := by
  have fresh {j : I} {key' : SingleflightKey} : (j, ⟨.begin key', .ok (.leader s.world.flights.opened)⟩) ∉ s.history :=
    fun member => (h.leader _).not.mp (lt_irrefl _) ⟨j, key', member⟩
  constructor
  · simpa only [history, mem_begun, reduceCtorEq, and_false, or_false] using h.granted
  · intro leader
    rw [opened, history]
    exact handed_succ _ (fun _ _ => BegunFlight.leader.inj) i key h.leader leader
  · intro j key' leader member
    rw [history, mem_begun] at member
    rw [leaders]
    rcases member with member | ⟨_, rfl, same⟩
    · have old : leader ≠ s.world.flights.opened := by
        rintro rfl
        exact fresh member
      rw [Function.update_of_ne old]
      exact h.leads j key' leader member
    · cases same
      simp
  · intro leader j k keyJ keyK memberJ memberK
    rw [history, mem_begun] at memberJ memberK
    rcases memberJ with memberJ | ⟨rfl, _, same⟩ <;> rcases memberK with memberK | ⟨rfl, _, same'⟩
    · exact h.alone leader j k keyJ keyK memberJ memberK
    · cases same'
      exact absurd memberJ fresh
    · cases same
      exact absurd memberK fresh
    · rfl
  · intro waiter
    rw [joined, h.waiter, history]
    simp only [mem_begun, Except.ok.injEq, reduceCtorEq, and_false, or_false]
  · intro j waiter reply member
    rw [history, mem_waited] at member
    rw [joined, waiters]
    exact h.waited j waiter reply member

omit [DecidableEq I] in
/-- A request that becomes a waiter is the first with that number, and has not returned. -/
private theorem Linked.begin_waiter (h : Linked s) (i : I) (key : SingleflightKey) {s' : GatewayPool I C}
    {waiting : SingleflightWaiter GatewayResponse}
    (opened : s'.world.flights.opened = s.world.flights.opened)
    (joined : s'.world.flights.joined = s.world.flights.joined + 1)
    (leaders : s'.world.flights.leaders = s.world.flights.leaders)
    (waiters : s'.world.flights.waiters =
      Function.update s.world.flights.waiters s.world.flights.joined waiting)
    (history : s'.history = s.history ++ [(i, ⟨.begin key, .ok (.waiter s.world.flights.joined)⟩)]) : Linked s' := by
  constructor
  · simpa only [history, mem_begun, reduceCtorEq, and_false, or_false] using h.granted
  · simpa only [opened, history, mem_begun, Except.ok.injEq, reduceCtorEq, and_false, or_false] using h.leader
  · simpa only [leaders, history, mem_begun, Except.ok.injEq, reduceCtorEq, and_false, or_false] using h.leads
  · simpa only [history, mem_begun, Except.ok.injEq, reduceCtorEq, and_false, or_false] using h.alone
  · intro waiter
    rw [joined, history]
    exact handed_succ _ (fun _ _ => BegunFlight.waiter.inj) i key h.waiter waiter
  · intro j waiter reply member
    rw [history, mem_waited] at member
    obtain ⟨old, returned⟩ := h.waited j waiter reply member
    rw [joined, waiters, Function.update_of_ne old.ne]
    exact ⟨Nat.lt_succ_of_lt old, returned⟩

omit [DecidableEq I] in
/-- What the group hands out goes to the request that asked. -/
private theorem Linked.begin (h : Linked s) (i : I) (key : SingleflightKey) {s' : GatewayPool I C}
    (flights : s'.world.flights = s.world.flights.begin key)
    (history : s'.history = s.history ++ [(i, ⟨.begin key, .ok (s.world.flights.begun key)⟩)]) : Linked s' := by
  rcases s.world.flights.begun_cases key with ⟨_, begun, opened, joined, waiters, leaders⟩ |
    ⟨inFlight, found, ⟨_, begun, same⟩ | ⟨_, begun, opened, joined, leaders, waiters⟩⟩
  all_goals rw [begun] at history
  · rw [← flights] at opened joined waiters leaders
    exact h.begin_leader i key opened joined waiters leaders history
  · constructor
    · simpa only [history, mem_begun, reduceCtorEq, and_false, or_false] using h.granted
    · simpa only [flights, same, history, mem_begun, Except.ok.injEq, reduceCtorEq, and_false, or_false] using h.leader
    · simpa only [flights, same, history, mem_begun, Except.ok.injEq, reduceCtorEq, and_false, or_false] using h.leads
    · simpa only [history, mem_begun, Except.ok.injEq, reduceCtorEq, and_false, or_false] using h.alone
    · simpa only [flights, same, history, mem_begun, Except.ok.injEq, reduceCtorEq, and_false, or_false] using h.waiter
    · simpa only [flights, same, history, mem_waited] using h.waited
  · rw [← flights] at opened joined leaders waiters
    exact h.begin_waiter i key opened joined leaders waiters history

theorem Linked.step (h : Linked s) (step : Pool.Step (GatewayWorld.server cache vendor) s label s') : Linked s' := by
  have whole := step
  cases step with
  | act _ => exact h.keep whole (by simp) (fun _ _ _ => .rfl) fun _ _ _ waited => .inl waited
  | @call i call next reply world pending served =>
    have served : s.world.Serves cache vendor call reply world := served
    by_cases begins : ∃ key, call = .begin key
    · obtain ⟨key, rfl⟩ := begins
      obtain ⟨rfl, rfl⟩ := served
      exact h.begin i key rfl rfl
    · refine h.keep whole (fun j key reply same => ?_) (fun j key other => ?_) fun j waiter other waited => ?_
      · cases same
        exact begins ⟨key, rfl⟩
      · simp only [List.mem_append, List.mem_singleton, Prod.mk.injEq, or_iff_left_iff_imp]
        rintro ⟨_, same⟩
        cases same
        exact absurd ⟨key, rfl⟩ begins
      · rcases List.mem_append.mp waited with old | new
        · exact .inl old
        · cases List.mem_singleton.mp new
          exact .inr ⟨served.1, served.2.1⟩

theorem run_linked (run : Run (Pool.Step (GatewayWorld.server cache vendor))
    (Pool.initial ⟨store, .new maxWaiters⟩ programs) trace s) : Linked s :=
  run.invariant (P := fun _ s => Linked s) linked_initial fun _ h step => h.step step

omit [DecidableEq I] in
theorem flightAction_eq_publish {leader : Nat} {result : SharedResult GatewayResponse}
    (h : flightAction label = some (.publish leader result)) : ∃ i, label = .call i ⟨.publish leader result, ()⟩ := by
  rcases label with ⟨i, call, reply⟩ | action
  · cases call <;> cases h
    exact ⟨i, rfl⟩
  · cases action <;> cases h

omit [DecidableEq I] in
theorem flightAction_eq_send {leader : Nat} (h : flightAction label = some (.send leader)) :
    ∃ i, label = .call i ⟨.send leader, ()⟩ := by
  rcases label with ⟨i, call, reply⟩ | action
  · cases call <;> cases h
    exact ⟨i, rfl⟩
  · cases action <;> cases h

omit [DecidableEq I] in
theorem flightAction_eq_dropLeader {leader : Nat} (h : flightAction label = some (.dropLeader leader)) :
    label = .act (.cancelLeader leader) := by
  rcases label with ⟨i, call, reply⟩ | action
  · cases call <;> cases h
  · cases action <;> cases h
    rfl

omit [DecidableEq I] in
theorem flightAction_eq_dropWaiter {waiter : Nat} (h : flightAction label = some (.dropWaiter waiter)) :
    label = .act (.cancelWaiter waiter) := by
  rcases label with ⟨i, call, reply⟩ | action
  · cases call <;> cases h
  · cases action <;> cases h
    rfl

/-- What became of a leader was published by a request, or is its cancellation. -/
theorem outcome_cases (run : Run (Pool.Step (GatewayWorld.server cache vendor))
      (Pool.initial ⟨store, .new maxWaiters⟩ programs) trace s) {leader : Nat}
    {outcome : Option (SharedResult GatewayResponse)} (h : s.world.flights.outcomeOf leader = some outcome) :
    (∃ i result, outcome = some result ∧ (i, ⟨.publish leader result, ()⟩) ∈ s.history) ∨
      outcome = none ∧ .act (.cancelLeader leader) ∈ trace := by
  rw [← Flights.run_outcomeOf (run_flights run)] at h
  obtain ⟨action, taken, ended⟩ := List.exists_of_findSome?_eq_some h
  obtain ⟨label, member, acts⟩ := List.mem_filterMap.mp taken
  cases action with
  | publish other result =>
    simp only [Flights.Action.outcome, Option.ite_none_right_eq_some, Option.some.injEq] at ended
    obtain ⟨rfl, rfl⟩ := ended
    obtain ⟨i, rfl⟩ := flightAction_eq_publish acts
    exact .inl ⟨i, result, rfl, (Pool.run_history run i _).mpr member⟩
  | dropLeader other =>
    simp only [Flights.Action.outcome, Option.ite_none_right_eq_some, Option.some.injEq] at ended
    obtain ⟨rfl, rfl⟩ := ended
    rw [flightAction_eq_dropLeader acts] at member
    exact .inr ⟨rfl, member⟩
  | _ => cases ended

/-- A waiter returns what its leader has published, or the error of a cancelled leader. -/
theorem waited_source (run : Run (Pool.Step (GatewayWorld.server cache vendor))
      (Pool.initial ⟨store, .new maxWaiters⟩ programs) trace s) {i : I} {waiter : Nat}
    {reply : SharedResult GatewayResponse} (waited : (i, ⟨.wait waiter, reply⟩) ∈ s.history) :
    (∃ j, (j, ⟨.publish (s.world.flights.waiters waiter).receiver reply, ()⟩) ∈ s.history) ∨
      (∃ message, reply = .error message) ∧
        .act (.cancelLeader (s.world.flights.waiters waiter).receiver) ∈ trace := by
  obtain ⟨joined, returned⟩ := (run_linked run).waited i waiter reply waited
  obtain ⟨opened, _, knows⟩ := (Flights.run_coherent (run_flights run)).waiter waiter joined
  rw [returned] at knows
  have ended (outcome : Option (SharedResult GatewayResponse))
      (phase : (s.world.flights.leaders (s.world.flights.waiters waiter).receiver).phase.outcome = some outcome) :
      s.world.flights.outcomeOf (s.world.flights.waiters waiter).receiver = some outcome := by
    rw [Flights.outcomeOf, if_pos opened, phase]
  rcases knows with published | ⟨dropped, rfl⟩
  · rcases outcome_cases run (ended (some reply) (by rw [published]; rfl)) with ⟨j, result, same, h⟩ | ⟨⟨⟩, _⟩
    cases same
    exact .inl ⟨j, h⟩
  · rcases outcome_cases run (ended none (by rw [dropped]; rfl)) with ⟨_, _, ⟨⟩, _⟩ | ⟨_, h⟩
    exact .inr ⟨⟨_, rfl⟩, h⟩

/-- A waiter returns what its leader has published, unless the leader was cancelled. -/
theorem waited_cases (run : Run (Pool.Step (GatewayWorld.server cache vendor))
      (Pool.initial ⟨store, .new maxWaiters⟩ programs) trace s) {i : I} {waiter : Nat}
    {reply : SharedResult GatewayResponse} (waited : (i, ⟨.wait waiter, reply⟩) ∈ s.history) :
    (∃ j, (j, ⟨.publish (s.world.flights.waiters waiter).receiver reply, ()⟩) ∈ s.history) ∨
      .act (.cancelLeader (s.world.flights.waiters waiter).receiver) ∈ trace :=
  (waited_source run waited).imp id And.right

/-- A waiter waits under the key it asked for. -/
theorem run_waits (run : Run (Pool.Step (GatewayWorld.server cache vendor))
      (Pool.initial ⟨store, .new maxWaiters⟩ programs) trace s) {i : I} {flight : SingleflightKey} {waiter : Nat}
    (begun : (i, ⟨.begin flight, .ok (.waiter waiter)⟩) ∈ s.history) :
    (s.world.flights.waiters waiter).key = flight := by
  refine run.invariant (P := fun _ (s : GatewayPool I C) => ∀ i flight waiter,
    (i, ⟨.begin flight, .ok (.waiter waiter)⟩) ∈ s.history → (s.world.flights.waiters waiter).key = flight)
    (fun _ _ _ member => by cases member) (fun {_ s _ s'} before h step i flight waiter begun => ?_) i flight waiter begun
  have joined {i : I} {flight : SingleflightKey} {waiter : Nat}
      (old : (i, ⟨.begin flight, .ok (.waiter waiter)⟩) ∈ s.history) : waiter < s.world.flights.joined :=
    ((run_linked before).waiter waiter).mpr ⟨i, flight, old⟩
  have kept {i : I} {flight : SingleflightKey} {waiter : Nat}
      (old : (i, ⟨.begin flight, .ok (.waiter waiter)⟩) ∈ s.history) : (s'.world.flights.waiters waiter).key = flight := by
    rw [← h i flight waiter old]
    have moved := step_flights step
    split at moved
    · exact moved.waiter_key (joined old)
    · rw [moved]
  cases step with
  | act _ => exact kept begun
  | @call j call next reply world pending served =>
    rcases List.mem_append.mp begun with old | last
    · exact kept old
    · cases List.mem_singleton.mp last
      obtain ⟨replied, rfl⟩ := (show s.world.Serves cache vendor (.begin flight) (.ok (.waiter waiter)) world from served)
      rcases s.world.flights.begun_cases flight with ⟨_, begun, _⟩ |
        ⟨_, _, ⟨_, begun, _⟩ | ⟨_, begun, _, _, _, waiters⟩⟩ <;> rw [begun] at replied <;> cases replied
      simp [GatewayWorld.setFlights, waiters]

end
end Mooncache

import Mooncache.Gateway.Singleflight
import Mathlib.Data.Finset.Card
import Mathlib.Data.Finset.Range

/-! What holds of a singleflight group under every schedule: the entries are the live
leaders, a channel tells what became of its leader, and no waiter waits in vain. -/
namespace Mooncache
variable {ρ : Type}

/-- Whether a leader in this phase has ended: with a result if published, without if dropped. -/
def LeaderPhase.outcome : LeaderPhase ρ → Option (Option (SharedResult ρ))
  | live => none
  | publishing _ result | published result => some (some result)
  | dropped => some none

/-- The leader's call to `publish` is over, or the leader was dropped. -/
def LeaderPhase.finished : LeaderPhase ρ → Bool
  | live | publishing _ _ => false
  | published _ | dropped => true

/-- A bound on the steps until the waiter of a finished leader returns. -/
def WaiterPhase.stepsLeft (watch : Watch (Option (SharedResult ρ))) : WaiterPhase ρ → Nat
  | borrow _ => if watch.value.isSome then 1 else 2
  | changed seen => if watch.version = seen then 1 else 2
  | returned _ | dropped => 0

namespace Flights

/-- The waiters that ever joined a leader. -/
def joinedTo (s : Flights ρ) (leader : Nat) : Finset Nat :=
  {waiter ∈ Finset.range s.joined | (s.waiters waiter).receiver = leader}

/-- Those whose receiver still exists. -/
def waitingOn (s : Flights ρ) (leader : Nat) : Finset Nat :=
  {waiter ∈ Finset.range s.joined |
    (s.waiters waiter).receiver = leader ∧ (s.waiters waiter).phase.waiting = true}

/-- What a leader's channel holds in each phase of the leader. -/
def ChannelTells (watch : Watch (Option (SharedResult ρ))) : LeaderPhase ρ → Prop
  | .live | .publishing _ _ => watch.value = none ∧ watch.version = 0 ∧ watch.closed = false
  | .published result => watch.closed = true ∧
    (watch.value = some result ∧ watch.version = 1 ∨
      watch.value = none ∧ watch.version = 0 ∧ watch.receivers = 0)
  | .dropped => watch.value = none ∧ watch.version = 0 ∧ watch.closed = true

/-- What a waiter knows of its leader in each phase of the waiter. -/
def WaiterKnows (watch : Watch (Option (SharedResult ρ))) (leader : LeaderPhase ρ) : WaiterPhase ρ → Prop
  | .borrow seen => seen ≤ watch.version
  | .changed seen => seen = 0
  | .returned result =>
    leader = .published result ∨ leader = .dropped ∧ result = .error leaderDropped
  | .dropped => True

structure Coherent (s : Flights ρ) : Prop where
  entry : ∀ key inFlight, s.group.inner.lookup key = some inFlight →
    inFlight.sender < s.opened ∧ s.leaders inFlight.sender = ⟨key, .live⟩ ∧
      inFlight.waiters = (s.joinedTo inFlight.sender).card
  leader : ∀ leader < s.opened, ∀ key, s.leaders leader = ⟨key, .live⟩ →
    ∃ inFlight, s.group.inner.lookup key = some inFlight ∧ inFlight.sender = leader
  inFlight : ∀ leader < s.opened, ∀ inFlight result,
    (s.leaders leader).phase = .publishing inFlight result → ∃ waiters, inFlight = some ⟨leader, waiters⟩
  channel : ∀ leader < s.opened, ChannelTells (s.channels leader) (s.leaders leader).phase
  receivers : ∀ leader < s.opened, (s.channels leader).receivers = (s.waitingOn leader).card
  waiter : ∀ waiter < s.joined, (s.waiters waiter).receiver < s.opened ∧
    (s.leaders (s.waiters waiter).receiver).key = (s.waiters waiter).key ∧
      WaiterKnows (s.channels (s.waiters waiter).receiver) (s.leaders (s.waiters waiter).receiver).phase
        (s.waiters waiter).phase
  bounded : ∀ leader < s.opened, (s.joinedTo leader).card ≤ s.group.maxWaitersPerKey

theorem new_coherent (maxWaitersPerKey : Nat) : (new maxWaitersPerKey : Flights ρ).Coherent where
  entry key inFlight h := by simp [new, SingleflightGroup.new] at h
  leader _ h := absurd h (Nat.not_lt_zero _)
  inFlight _ h := absurd h (Nat.not_lt_zero _)
  channel _ h := absurd h (Nat.not_lt_zero _)
  receivers _ h := absurd h (Nat.not_lt_zero _)
  waiter _ h := absurd h (Nat.not_lt_zero _)
  bounded _ h := absurd h (Nat.not_lt_zero _)

/-- The three outcomes of `begin`. -/
theorem begin_cases (s : Flights ρ) (key : SingleflightKey) :
    (s.group.inner.lookup key = none ∧ s.begin key = { s with
      group := { s.group with inner := s.group.inner.insert key ⟨s.opened, 0⟩ }
      channels := Function.update s.channels s.opened (Watch.channel none).dropReceiver
      leaders := Function.update s.leaders s.opened ⟨key, .live⟩
      opened := s.opened + 1 }) ∨
    ∃ inFlight, s.group.inner.lookup key = some inFlight ∧
      (s.begin key = s ∨ inFlight.waiters < s.group.maxWaitersPerKey ∧ s.begin key = { s with
        group := { s.group with
          inner := s.group.inner.insert key { inFlight with waiters := inFlight.waiters + 1 } }
        channels := Function.update s.channels inFlight.sender (s.channels inFlight.sender).subscribe.2
        waiters := Function.update s.waiters s.joined
          ⟨key, inFlight.sender, .borrow (s.channels inFlight.sender).version⟩
        joined := s.joined + 1 }) := by
  unfold begin SingleflightGroup.begin
  cases hl : s.group.inner.lookup key with
  | none => exact .inl ⟨rfl, rfl⟩
  | some inFlight =>
    refine .inr ⟨inFlight, rfl, ?_⟩
    by_cases full : inFlight.waiters ≥ s.group.maxWaitersPerKey
    · exact .inl (by simp only [full, ↓reduceIte])
    · exact .inr ⟨by omega, by simp only [full, ↓reduceIte]; rfl⟩

private theorem begin_leader_coherent {s : Flights ρ} (h : s.Coherent) {key : SingleflightKey}
    (absent : s.group.inner.lookup key = none) : Coherent { s with
      group := { s.group with inner := s.group.inner.insert key ⟨s.opened, 0⟩ }
      channels := Function.update s.channels s.opened (Watch.channel none).dropReceiver
      leaders := Function.update s.leaders s.opened ⟨key, .live⟩
      opened := s.opened + 1 } := by
  have old (waiter : Nat) (hw : waiter < s.joined) : (s.waiters waiter).receiver ≠ s.opened :=
    (h.waiter waiter hw).1.ne
  have nobody : s.joinedTo s.opened = ∅ := by
    rw [joinedTo, Finset.filter_eq_empty_iff]
    exact fun waiter hw => old waiter (Finset.mem_range.mp hw)
  have silent : s.waitingOn s.opened = ∅ := by
    rw [waitingOn, Finset.filter_eq_empty_iff]
    exact fun waiter hw both => old waiter (Finset.mem_range.mp hw) both.1
  refine ⟨fun other inFlight hl => ?_, fun leader hlt own live => ?_, fun leader hlt inFlight result hp => ?_,
    fun leader hlt => ?_, fun leader hlt => ?_, fun waiter hw => ?_, fun leader hlt => ?_⟩
  · rcases eq_or_ne other key with rfl | hne
    · simp only [Finmap.lookup_insert, Option.some.injEq] at hl
      subst hl
      exact ⟨Nat.lt_succ_self _, by simp, by simpa [joinedTo] using congrArg Finset.card nobody.symm⟩
    · simp only [Finmap.lookup_insert_of_ne _ hne] at hl
      obtain ⟨hlt, owner, count⟩ := h.entry other inFlight hl
      exact ⟨by simp only; omega, by simpa [hlt.ne] using owner, count⟩
  · rcases Nat.lt_succ_iff_lt_or_eq.mp hlt with hlt | rfl
    · simp only [Function.update_of_ne hlt.ne] at live
      obtain ⟨inFlight, hl, same⟩ := h.leader leader hlt own live
      have hne : own ≠ key := by
        rintro rfl
        rw [absent] at hl
        cases hl
      exact ⟨inFlight, by simpa [hne] using hl, same⟩
    · simp only [Function.update_self, SingleflightLeader.mk.injEq, and_true] at live
      exact ⟨⟨s.opened, 0⟩, by simp [live], rfl⟩
  · rcases Nat.lt_succ_iff_lt_or_eq.mp hlt with hlt | rfl
    · simp only [Function.update_of_ne hlt.ne] at hp
      exact h.inFlight leader hlt inFlight result hp
    · simp at hp
  · rcases Nat.lt_succ_iff_lt_or_eq.mp hlt with hlt | rfl
    · simpa [hlt.ne] using h.channel leader hlt
    · simp [ChannelTells, Watch.channel]
  · rcases Nat.lt_succ_iff_lt_or_eq.mp hlt with hlt | rfl
    · simpa [hlt.ne, waitingOn] using h.receivers leader hlt
    · simpa [Watch.channel, waitingOn] using congrArg Finset.card silent.symm
  · obtain ⟨hlt, same, knows⟩ := h.waiter waiter hw
    exact ⟨by simp only; omega, by simpa [hlt.ne] using same, by simpa [hlt.ne] using knows⟩
  · rcases Nat.lt_succ_iff_lt_or_eq.mp hlt with hlt | rfl
    · exact h.bounded leader hlt
    · have none : (s.joinedTo s.opened).card = 0 := by rw [nobody, Finset.card_empty]
      exact (Nat.le_of_eq none).trans (Nat.zero_le _)

/-- A number beyond the range enters a filtered range if its value passes. -/
private theorem filter_range_update {β : Type} (f : Nat → β) (n : Nat) (b : β) (p : β → Prop)
    [DecidablePred p] : {i ∈ Finset.range (n + 1) | p (Function.update f n b i)} =
      if p b then insert n {i ∈ Finset.range n | p (f i)} else {i ∈ Finset.range n | p (f i)} := by
  have same : {i ∈ Finset.range n | p (Function.update f n b i)} = {i ∈ Finset.range n | p (f i)} :=
    Finset.filter_congr fun i hi => by rw [Function.update_of_ne (Finset.mem_range.mp hi).ne]
  rw [Finset.range_add_one, Finset.filter_insert, Function.update_self, same]

/-- A channel keeps telling what it told when receivers leave it. -/
private theorem ChannelTells.of_fewer {watch watch' : Watch (Option (SharedResult ρ))} {phase : LeaderPhase ρ}
    (tells : ChannelTells watch phase) (value : watch'.value = watch.value) (version : watch'.version = watch.version)
    (closed : watch'.closed = watch.closed) (receivers : watch'.receivers ≤ watch.receivers) :
    ChannelTells watch' phase := by
  cases phase with
  | published result =>
    simp only [ChannelTells, value, version, closed] at tells ⊢
    refine ⟨tells.1, tells.2.imp id fun quiet => ⟨quiet.1, quiet.2.1, ?_⟩⟩
    have none := quiet.2.2
    omega
  | _ => simpa only [ChannelTells, value, version, closed] using tells

/-- What a waiter knows of its channel is the version it has seen. -/
private theorem WaiterKnows.of_version {watch watch' : Watch (Option (SharedResult ρ))} {leader : LeaderPhase ρ}
    {phase : WaiterPhase ρ} (knows : WaiterKnows watch leader phase) (version : watch'.version = watch.version) :
    WaiterKnows watch' leader phase := by
  cases phase with
  | borrow seen => exact Nat.le_trans knows (Nat.le_of_eq version.symm)
  | _ => exact knows

private theorem begin_waiter_coherent {s : Flights ρ} (h : s.Coherent) {key : SingleflightKey}
    {inFlight : SharedInFlight} (found : s.group.inner.lookup key = some inFlight)
    (room : inFlight.waiters < s.group.maxWaitersPerKey) : Coherent { s with
      group := { s.group with
        inner := s.group.inner.insert key { inFlight with waiters := inFlight.waiters + 1 } }
      channels := Function.update s.channels inFlight.sender (s.channels inFlight.sender).subscribe.2
      waiters := Function.update s.waiters s.joined
        ⟨key, inFlight.sender, .borrow (s.channels inFlight.sender).version⟩
      joined := s.joined + 1 } := by
  obtain ⟨opened, owner, count⟩ := h.entry key inFlight found
  have joins (leader : Nat) := filter_range_update s.waiters s.joined
    ⟨key, inFlight.sender, .borrow (s.channels inFlight.sender).version⟩
    (fun waiter => waiter.receiver = leader)
  have waits (leader : Nat) := filter_range_update s.waiters s.joined
    ⟨key, inFlight.sender, .borrow (s.channels inFlight.sender).version⟩
    (fun waiter => waiter.receiver = leader ∧ waiter.phase.waiting = true)
  refine ⟨fun other entry hl => ?_, fun leader hlt own live => ?_, h.inFlight, fun leader hlt => ?_,
    fun leader hlt => ?_, fun waiter hw => ?_, fun leader hlt => ?_⟩
  · rcases eq_or_ne other key with rfl | hne
    · simp only [Finmap.lookup_insert, Option.some.injEq] at hl
      subst hl
      refine ⟨opened, owner, ?_⟩
      simp only [joinedTo, joins, ↓reduceIte]
      rw [Finset.card_insert_of_notMem (by simp), count]
      rfl
    · simp only [Finmap.lookup_insert_of_ne _ hne] at hl
      obtain ⟨hlt, owned, counted⟩ := h.entry other entry hl
      have apart : inFlight.sender ≠ entry.sender := by
        intro he
        rw [he, owned] at owner
        simp only [SingleflightLeader.mk.injEq, and_true] at owner
        exact hne owner
      refine ⟨hlt, owned, ?_⟩
      simp only [joinedTo, joins, apart, ↓reduceIte]
      exact counted
  · obtain ⟨entry, hl, same⟩ := h.leader leader hlt own live
    rcases eq_or_ne own key with rfl | hne
    · rw [found, Option.some.injEq] at hl
      subst hl
      exact ⟨{ inFlight with waiters := inFlight.waiters + 1 }, by simp, same⟩
    · exact ⟨entry, by simpa [hne] using hl, same⟩
  · have tells := h.channel leader hlt
    rcases eq_or_ne leader inFlight.sender with rfl | hne
    · simp only [owner, Function.update_self, ChannelTells, Watch.subscribe_value, Watch.subscribe_version,
        Watch.subscribe_closed] at tells ⊢
      exact tells
    · simpa [hne] using tells
  · have counted := h.receivers leader hlt
    rcases eq_or_ne inFlight.sender leader with rfl | hne
    · simp only [waitingOn, waits, WaiterPhase.waiting_borrow, and_self, ↓reduceIte, Function.update_self,
        Watch.subscribe_receivers]
      rw [Finset.card_insert_of_notMem (by simp), counted]
      rfl
    · simp only [waitingOn, waits, hne, false_and, ↓reduceIte, Function.update_of_ne hne.symm]
      exact counted
  · rcases Nat.lt_succ_iff_lt_or_eq.mp hw with hw | rfl
    · obtain ⟨hlt, same, knows⟩ := h.waiter waiter hw
      simp only [Function.update_of_ne hw.ne]
      refine ⟨hlt, same, ?_⟩
      rcases eq_or_ne (s.waiters waiter).receiver inFlight.sender with he | hne
      · rw [he, Function.update_self]
        rw [he] at knows
        exact knows.of_version (Watch.subscribe_version _)
      · rw [Function.update_of_ne hne]
        exact knows
    · simp only [Function.update_self]
      exact ⟨opened, congrArg SingleflightLeader.key owner, by simp [WaiterKnows]⟩
  · rcases eq_or_ne inFlight.sender leader with rfl | hne
    · simp only [joinedTo, joins, ↓reduceIte]
      rw [Finset.card_insert_of_notMem (by simp)]
      change (s.joinedTo inFlight.sender).card + 1 ≤ _
      omega
    · simp only [joinedTo, joins, hne, ↓reduceIte]
      exact h.bounded leader hlt

theorem begin_coherent {s : Flights ρ} (h : s.Coherent) (key : SingleflightKey) : (s.begin key).Coherent := by
  rcases s.begin_cases key with ⟨absent, he⟩ | ⟨inFlight, found, he | ⟨room, he⟩⟩
  · rw [he]
    exact begin_leader_coherent h absent
  · rw [he]
    exact h
  · rw [he]
    exact begin_waiter_coherent h found room

/-- A live leader's entry is the one stored under its key, and it is its own. -/
theorem Coherent.own_entry {s : Flights ρ} (h : s.Coherent) {leader : Nat} (opened : leader < s.opened)
    (live : (s.leaders leader).phase = .live) :
    ∃ waiters, s.group.inner.lookup (s.leaders leader).key = some ⟨leader, waiters⟩ := by
  obtain ⟨⟨sender, waiters⟩, found, rfl⟩ := h.leader leader opened _ (by rw [← live])
  exact ⟨waiters, found⟩

/-- The entries of the other leaders stay when one gives up its own, if it has one. -/
private theorem Coherent.other_entries {s : Flights ρ} (h : s.Coherent) {leader : Nat} (opened : leader < s.opened)
    {inner : Table SingleflightKey SharedInFlight}
    (entries : (s.leaders leader).phase = .live ∧ inner = s.group.inner.erase (s.leaders leader).key ∨
      (s.leaders leader).phase ≠ .live ∧ inner = s.group.inner) (key : SingleflightKey) (inFlight : SharedInFlight) :
    inner.lookup key = some inFlight ↔ s.group.inner.lookup key = some inFlight ∧ inFlight.sender ≠ leader := by
  rcases entries with ⟨live, rfl⟩ | ⟨dead, rfl⟩
  · obtain ⟨waiters, own⟩ := h.own_entry opened live
    rcases eq_or_ne key (s.leaders leader).key with rfl | hne
    · rw [Finmap.lookup_erase, own]
      simp only [reduceCtorEq, Option.some.injEq, false_iff, not_and, not_not]
      rintro rfl
      rfl
    · rw [Finmap.lookup_erase_ne hne]
      refine ⟨fun hl => ⟨hl, fun same => hne ?_⟩, fun hl => hl.1⟩
      have owner := (h.entry key inFlight hl).2.1
      rw [same] at owner
      exact (congrArg SingleflightLeader.key owner).symm
  · refine ⟨fun hl => ⟨hl, fun same => dead ?_⟩, fun hl => hl.1⟩
    have owner := (h.entry key inFlight hl).2.1
    rw [same] at owner
    exact congrArg SingleflightLeader.phase owner

/-- While nothing was sent, a waiter that has not returned knows nothing the channel could lose. -/
private theorem WaiterKnows.of_unsent {watch watch' : Watch (Option (SharedResult ρ))} {leader leader' : LeaderPhase ρ}
    {phase : WaiterPhase ρ} (knows : WaiterKnows watch leader phase) (unsent : watch.version = 0)
    (unreturned : ∀ result, phase ≠ .returned result) : WaiterKnows watch' leader' phase := by
  cases phase with
  | borrow seen =>
    simp only [WaiterKnows] at knows ⊢
    omega
  | changed seen => exact knows
  | returned result => exact absurd rfl (unreturned result)
  | dropped => trivial

/-- A leader that has not finished takes its next phase, gives up its entry if it was
live, and leaves its channel as the new phase tells. -/
private theorem leader_step {s s' : Flights ρ} (h : s.Coherent) {leader : Nat} (opened : leader < s.opened)
    (phase : LeaderPhase ρ) (watch : Watch (Option (SharedResult ρ)))
    (unfinished : ChannelTells (s.channels leader) .live)
    (entries : (s.leaders leader).phase = .live ∧
        s'.group.inner = s.group.inner.erase (s.leaders leader).key ∨
      (s.leaders leader).phase ≠ .live ∧ s'.group.inner = s.group.inner)
    (limit : s'.group.maxWaitersPerKey = s.group.maxWaitersPerKey)
    (leaders : s'.leaders = Function.update s.leaders leader { s.leaders leader with phase := phase })
    (channels : s'.channels = Function.update s.channels leader watch)
    (rest : s'.opened = s.opened ∧ s'.waiters = s.waiters ∧ s'.joined = s.joined)
    (gone : phase ≠ .live) (tells : ChannelTells watch phase)
    (counted : watch.receivers = (s.channels leader).receivers)
    (taken : ∀ inFlight result, phase = .publishing inFlight result →
      ∃ waiters, inFlight = some ⟨leader, waiters⟩)
    (unreturned : ∀ waiter < s.joined, (s.waiters waiter).receiver = leader →
      ∀ result, (s.waiters waiter).phase ≠ .returned result) : s'.Coherent := by
  obtain ⟨openedEq, waitersEq, joinedEq⟩ := rest
  have joins (other : Nat) : s'.joinedTo other = s.joinedTo other := by
    rw [joinedTo, joinedTo, waitersEq, joinedEq]
  have waits (other : Nat) : s'.waitingOn other = s.waitingOn other := by
    rw [waitingOn, waitingOn, waitersEq, joinedEq]
  have other_live (other : Nat) (key : SingleflightKey) (live : s'.leaders other = ⟨key, .live⟩) :
      other ≠ leader ∧ s.leaders other = ⟨key, .live⟩ := by
    rw [leaders] at live
    rcases eq_or_ne other leader with rfl | hne
    · rw [Function.update_self] at live
      exact absurd (congrArg SingleflightLeader.phase live) gone
    · rw [Function.update_of_ne hne] at live
      exact ⟨hne, live⟩
  have kept := h.other_entries opened entries
  refine ⟨fun key inFlight hl => ?_, fun other hlt key live => ?_, fun other hlt inFlight result hp => ?_,
    fun other hlt => ?_, fun other hlt => ?_, fun waiter hw => ?_, fun other hlt => ?_⟩
  · obtain ⟨hl, apart⟩ := (kept key inFlight).mp hl
    obtain ⟨hlt, owner, count⟩ := h.entry key inFlight hl
    rw [openedEq, leaders, Function.update_of_ne apart, joins]
    exact ⟨hlt, owner, count⟩
  · obtain ⟨hne, live⟩ := other_live other key live
    obtain ⟨inFlight, hl, own⟩ := h.leader other (openedEq ▸ hlt) key live
    exact ⟨inFlight, (kept key inFlight).mpr ⟨hl, own ▸ hne⟩, own⟩
  · rw [leaders] at hp
    rcases eq_or_ne other leader with rfl | hne
    · rw [Function.update_self] at hp
      exact taken inFlight result hp
    · rw [Function.update_of_ne hne] at hp
      exact h.inFlight other (openedEq ▸ hlt) inFlight result hp
  · rw [leaders, channels]
    rcases eq_or_ne other leader with rfl | hne
    · rw [Function.update_self, Function.update_self]
      exact tells
    · rw [Function.update_of_ne hne, Function.update_of_ne hne]
      exact h.channel other (openedEq ▸ hlt)
  · rw [channels, waits]
    rcases eq_or_ne other leader with rfl | hne
    · rw [Function.update_self, counted]
      exact h.receivers other opened
    · rw [Function.update_of_ne hne]
      exact h.receivers other (openedEq ▸ hlt)
  · rw [joinedEq] at hw
    obtain ⟨hlt, same, knows⟩ := h.waiter waiter hw
    rw [waitersEq, openedEq, leaders, channels]
    rcases eq_or_ne (s.waiters waiter).receiver leader with he | hne
    · rw [he, Function.update_self, Function.update_self]
      rw [he] at same knows
      exact ⟨opened, same, knows.of_unsent unfinished.2.1 (unreturned waiter hw he)⟩
    · rw [Function.update_of_ne hne, Function.update_of_ne hne]
      exact ⟨hlt, same, knows⟩
  · rw [limit, joins]
    exact h.bounded other (openedEq ▸ hlt)

/-- Nobody has returned from a leader that has not finished. -/
private theorem Coherent.unreturned {s : Flights ρ} (h : s.Coherent) {leader : Nat}
    (unpublished : ∀ result, (s.leaders leader).phase ≠ .published result)
    (undropped : (s.leaders leader).phase ≠ .dropped) (waiter : Nat) (hw : waiter < s.joined)
    (joined : (s.waiters waiter).receiver = leader) (result : SharedResult ρ) :
    (s.waiters waiter).phase ≠ .returned result := by
  intro hp
  have knows := (h.waiter waiter hw).2.2
  rw [hp, joined] at knows
  rcases knows with published | ⟨dropped, _⟩
  · exact unpublished result published
  · exact undropped dropped

theorem publish_coherent {s : Flights ρ} (h : s.Coherent) {leader : Nat} (opened : leader < s.opened)
    (live : (s.leaders leader).phase = .live) (result : SharedResult ρ) : (s.publish leader result).Coherent := by
  obtain ⟨waiters, own⟩ := h.own_entry opened live
  have tells := h.channel leader opened
  rw [live] at tells
  refine leader_step h opened (.publishing (some ⟨leader, waiters⟩) result) (s.channels leader) tells
    (.inl ⟨live, rfl⟩) rfl ?_ (Function.update_eq_self leader s.channels).symm ⟨rfl, rfl, rfl⟩ (by simp) tells rfl ?_
    (h.unreturned (by simp [live]) (by simp [live]))
  · simp only [publish, SingleflightGroup.remove, setLeader, own]
  · rintro inFlight result' hp
    simp only [LeaderPhase.publishing.injEq] at hp
    exact ⟨waiters, hp.1.symm⟩

theorem dropLeader_coherent {s : Flights ρ} (h : s.Coherent) {leader : Nat} (opened : leader < s.opened)
    (live : (s.leaders leader).phase = .live) : (s.dropLeader leader).Coherent := by
  obtain ⟨waiters, own⟩ := h.own_entry opened live
  have tells := h.channel leader opened
  rw [live] at tells
  have dropped : s.dropLeader leader = (({ s with group := (s.group.remove (s.leaders leader).key).2 } :
      Flights ρ).setLeader leader .dropped).setChannel leader (s.channels leader).dropSender := by
    simp only [dropLeader, SingleflightGroup.remove, own]
    rfl
  rw [dropped]
  exact leader_step h opened .dropped (s.channels leader).dropSender tells (.inl ⟨live, rfl⟩) rfl rfl rfl
    ⟨rfl, rfl, rfl⟩ (by simp) ⟨tells.1, tells.2.1, rfl⟩ rfl (by simp)
    (h.unreturned (by simp [live]) (by simp [live]))

theorem send_coherent {s : Flights ρ} (h : s.Coherent) {leader : Nat} (opened : leader < s.opened)
    {inFlight : Option SharedInFlight} {result : SharedResult ρ}
    (publishing : (s.leaders leader).phase = .publishing inFlight result) : (s.send leader).Coherent := by
  obtain ⟨waiters, rfl⟩ := h.inFlight leader opened inFlight result publishing
  have tells := h.channel leader opened
  rw [publishing] at tells
  have sent : s.send leader = (s.setLeader leader (.published result)).setChannel leader
      ((s.channels leader).send (some result)).dropSender := by
    simp only [send, publishing]
  rw [sent]
  refine leader_step h opened (.published result) _ tells (.inr ⟨by simp [publishing], rfl⟩) rfl rfl rfl
    ⟨rfl, rfl, rfl⟩ (by simp) ⟨rfl, ?_⟩ (by simp) (by simp)
    (h.unreturned (by simp [publishing]) (by simp [publishing]))
  by_cases alone : (s.channels leader).receivers = 0
  · rw [Watch.send_of_none alone]
    exact .inr ⟨tells.1, tells.2.1, alone⟩
  · rw [Watch.send_of_receivers alone]
    exact .inl ⟨rfl, congrArg (· + 1) tells.2.1⟩

/-- Updating within the range keeps, adds or takes the number out of a filtered range. -/
private theorem filter_range_update_of_lt {β : Type} (f : Nat → β) {n i : Nat} (hi : i < n) (b : β)
    (p : β → Prop) [DecidablePred p] (before : p (f i)) :
    {j ∈ Finset.range n | p (Function.update f i b j)} =
      if p b then {j ∈ Finset.range n | p (f j)} else {j ∈ Finset.range n | p (f j)}.erase i := by
  ext j
  rcases eq_or_ne j i with rfl | hne
  · split <;> rename_i after <;> simp [hi, before, after]
  · split <;> simp [hne]

/-- A waiter in its next phase is gone from those that wait on its leader if it has stopped waiting. -/
private theorem waitingOn_next {s s' : Flights ρ} {waiter : Nat} (joined : waiter < s.joined)
    (waiting : (s.waiters waiter).phase.waiting = true) {phase : WaiterPhase ρ}
    (waiters : s'.waiters = Function.update s.waiters waiter { s.waiters waiter with phase := phase })
    (same : s'.joined = s.joined) (leader : Nat) :
    s'.waitingOn leader =
      if leader = (s.waiters waiter).receiver ∧ phase.waiting = false then (s.waitingOn leader).erase waiter
      else s.waitingOn leader := by
  rcases eq_or_ne leader (s.waiters waiter).receiver with rfl | hne
  · have filtered := filter_range_update_of_lt s.waiters joined { s.waiters waiter with phase := phase }
      (fun found => found.receiver = (s.waiters waiter).receiver ∧ found.phase.waiting = true) ⟨rfl, waiting⟩
    rw [waitingOn, waitingOn, same, waiters, filtered]
    cases phase.waiting <;> simp
  · rw [if_neg fun both => hne both.1, waitingOn, waitingOn, same, waiters]
    refine Finset.filter_congr fun other _ => ?_
    rcases eq_or_ne other waiter with rfl | ho
    · simp [hne.symm]
    · rw [Function.update_of_ne ho]

/-- A waiting waiter takes its next phase, giving up its receiver if it stops waiting. -/
private theorem waiter_step {s s' : Flights ρ} (h : s.Coherent) {waiter : Nat} (joined : waiter < s.joined)
    (waiting : (s.waiters waiter).phase.waiting = true) (phase : WaiterPhase ρ)
    (knows : WaiterKnows (s.channels (s.waiters waiter).receiver)
      (s.leaders (s.waiters waiter).receiver).phase phase)
    (waiters : s'.waiters = Function.update s.waiters waiter { s.waiters waiter with phase := phase })
    (channels : s'.channels = Function.update s.channels (s.waiters waiter).receiver
      (if phase.waiting then s.channels (s.waiters waiter).receiver
        else (s.channels (s.waiters waiter).receiver).dropReceiver))
    (rest : s'.group = s.group ∧ s'.leaders = s.leaders ∧ s'.opened = s.opened ∧ s'.joined = s.joined) :
    s'.Coherent := by
  obtain ⟨groupEq, leadersEq, openedEq, joinedEq⟩ := rest
  have joins (leader : Nat) : s'.joinedTo leader = s.joinedTo leader := by
    rw [joinedTo, joinedTo, joinedEq, waiters]
    refine Finset.filter_congr fun other _ => ?_
    rcases eq_or_ne other waiter with rfl | hne
    · rw [Function.update_self]
    · rw [Function.update_of_ne hne]
  have same (leader : Nat) : (s'.channels leader).value = (s.channels leader).value ∧
      (s'.channels leader).version = (s.channels leader).version ∧
      (s'.channels leader).closed = (s.channels leader).closed ∧
      (s'.channels leader).receivers ≤ (s.channels leader).receivers := by
    rw [channels]
    rcases eq_or_ne leader (s.waiters waiter).receiver with rfl | hne
    · rw [Function.update_self]
      split <;> simp
    · simp [hne]
  refine ⟨fun key inFlight hl => ?_, fun leader hlt key live => ?_, fun leader hlt => ?_,
    fun leader hlt => ?_, fun leader hlt => ?_, fun other hw => ?_, fun leader hlt => ?_⟩
  · rw [groupEq] at hl
    rw [openedEq, leadersEq, joins]
    exact h.entry key inFlight hl
  · rw [leadersEq] at live
    rw [groupEq]
    exact h.leader leader (openedEq ▸ hlt) key live
  · rw [leadersEq]
    exact h.inFlight leader (openedEq ▸ hlt)
  · obtain ⟨value, version, closed, receivers⟩ := same leader
    rw [leadersEq]
    exact (h.channel leader (openedEq ▸ hlt)).of_fewer value version closed receivers
  · have counted := h.receivers leader (openedEq ▸ hlt)
    rw [waitingOn_next joined waiting waiters joinedEq, channels]
    rcases eq_or_ne leader (s.waiters waiter).receiver with rfl | hne
    · rw [Function.update_self]
      cases phase.waiting with
      | true => simpa using counted
      | false =>
        have member : waiter ∈ s.waitingOn (s.waiters waiter).receiver := by
          simp [waitingOn, joined, waiting]
        simp only [Bool.false_eq_true, ↓reduceIte, and_self, Watch.dropReceiver_receivers, counted]
        exact (Finset.card_erase_of_mem member).symm
    · rw [Function.update_of_ne hne, if_neg fun both => hne both.1]
      exact counted
  · rw [joinedEq] at hw
    rw [openedEq, leadersEq, waiters]
    rcases eq_or_ne other waiter with rfl | ho
    · rw [Function.update_self]
      obtain ⟨hlt, key, _⟩ := h.waiter other hw
      exact ⟨hlt, key, knows.of_version (same _).2.1⟩
    · rw [Function.update_of_ne ho]
      obtain ⟨hlt, key, known⟩ := h.waiter other hw
      exact ⟨hlt, key, known.of_version (same _).2.1⟩
  · rw [groupEq, joins]
    exact h.bounded leader (openedEq ▸ hlt)

/-- A waiting waiter counts among the receivers of its channel. -/
theorem Coherent.receivers_ne_zero {s : Flights ρ} (h : s.Coherent) {waiter : Nat} (joined : waiter < s.joined)
    (waiting : (s.waiters waiter).phase.waiting = true) :
    (s.channels (s.waiters waiter).receiver).receivers ≠ 0 := by
  rw [h.receivers _ (h.waiter waiter joined).1]
  exact Finset.card_ne_zero_of_mem (a := waiter) (by simp [waitingOn, joined, waiting])

/-- A value on a channel with receivers is the published result. -/
private theorem ChannelTells.of_value {watch : Watch (Option (SharedResult ρ))} {phase : LeaderPhase ρ}
    (tells : ChannelTells watch phase) {result : SharedResult ρ} (value : watch.value = some result) :
    phase = .published result := by
  cases phase with
  | published other =>
    obtain ⟨_, ⟨same, _⟩ | ⟨none, _⟩⟩ := tells
    · rw [value, Option.some.injEq] at same
      rw [same]
    · rw [none] at value
      cases value
  | _ =>
    have none : watch.value = none := tells.1
    rw [none] at value
    cases value

private theorem ChannelTells.version_of_none {watch : Watch (Option (SharedResult ρ))} {phase : LeaderPhase ρ}
    (tells : ChannelTells watch phase) (value : watch.value = none) : watch.version = 0 := by
  cases phase with
  | published other =>
    obtain ⟨_, ⟨same, _⟩ | ⟨_, version, _⟩⟩ := tells
    · rw [value] at same
      cases same
    · exact version
  | _ => exact tells.2.1

/-- Every step of a waiter leaves it knowing what its leader's channel tells. -/
private theorem WaiterPhase.next_knows {watch : Watch (Option (SharedResult ρ))} {leader : LeaderPhase ρ}
    (tells : ChannelTells watch leader) (receivers : watch.receivers ≠ 0) {phase phase' : WaiterPhase ρ}
    (knows : WaiterKnows watch leader phase) (next : phase.next watch = some phase') :
    WaiterKnows watch leader phase' := by
  cases phase with
  | borrow seen =>
    simp only [WaiterPhase.next] at next
    split at next <;> cases next
    · rename_i result value
      exact .inl (tells.of_value value)
    · rename_i value
      have start := tells.version_of_none value
      simp only [WaiterKnows] at knows ⊢
      omega
  | changed seen =>
    simp only [WaiterKnows] at knows
    subst knows
    simp only [WaiterPhase.next, Watch.changed] at next
    by_cases version : watch.version = 0
    · simp only [version, ne_eq, not_true_eq_false, ↓reduceIte] at next
      by_cases closed : watch.closed = true
      · simp only [closed, ↓reduceIte, Option.some.injEq] at next
        subst next
        refine .inr ⟨?_, rfl⟩
        cases leader with
        | dropped => rfl
        | published result =>
          obtain ⟨_, ⟨_, later⟩ | ⟨_, _, alone⟩⟩ := tells
          · omega
          · exact absurd alone receivers
        | _ =>
          have open_ : watch.closed = false := tells.2.2
          rw [closed] at open_
          cases open_
      · simp [closed] at next
    · simp only [ne_eq, version, not_false_eq_true, ↓reduceIte, Option.some.injEq] at next
      subst next
      exact Nat.le_refl _
  | returned result => cases next
  | dropped => cases next

theorem WaiterPhase.next_ne_dropped (watch : Watch (Option (SharedResult ρ))) (phase : WaiterPhase ρ) :
    phase.next watch ≠ some .dropped := by
  cases phase with
  | borrow seen => simp only [WaiterPhase.next]; split <;> simp
  | changed seen => simp only [WaiterPhase.next]; split <;> simp
  | returned result => simp [WaiterPhase.next]
  | dropped => simp [WaiterPhase.next]

theorem wake_coherent {s : Flights ρ} (h : s.Coherent) {waiter : Nat} (joined : waiter < s.joined) :
    (s.wake waiter).Coherent := by
  unfold wake
  cases hn : (s.waiters waiter).phase.next (s.channels (s.waiters waiter).receiver) with
  | none => exact h
  | some phase =>
    have waiting : (s.waiters waiter).phase.waiting = true := by
      cases hp : (s.waiters waiter).phase <;> rw [hp] at hn <;> first | rfl | cases hn
    obtain ⟨opened, _, known⟩ := h.waiter waiter joined
    have knows := WaiterPhase.next_knows (h.channel _ opened) (h.receivers_ne_zero joined waiting) known hn
    have quiet : Function.update s.channels (s.waiters waiter).receiver
        (s.channels (s.waiters waiter).receiver) = s.channels := Function.update_eq_self _ _
    cases phase with
    | returned result => exact waiter_step h joined waiting _ knows rfl rfl ⟨rfl, rfl, rfl, rfl⟩
    | dropped => exact absurd hn (WaiterPhase.next_ne_dropped _ _)
    | borrow seen => exact waiter_step h joined waiting _ knows rfl quiet.symm ⟨rfl, rfl, rfl, rfl⟩
    | changed seen => exact waiter_step h joined waiting _ knows rfl quiet.symm ⟨rfl, rfl, rfl, rfl⟩

theorem dropWaiter_coherent {s : Flights ρ} (h : s.Coherent) {waiter : Nat} (joined : waiter < s.joined)
    (waiting : (s.waiters waiter).phase.waiting = true) : (s.endWaiter waiter .dropped).Coherent :=
  waiter_step h joined waiting .dropped trivial rfl rfl ⟨rfl, rfl, rfl, rfl⟩

theorem Step.coherent {s s' : Flights ρ} {action : Action ρ} (h : s.Coherent) (step : Step s action s') :
    s'.Coherent := by
  obtain ⟨enabled, rfl⟩ := step
  cases action with
  | begin key => exact begin_coherent h key
  | publish leader result => exact publish_coherent h enabled.1 enabled.2 result
  | send leader =>
    obtain ⟨opened, inFlight, result, publishing⟩ := enabled
    exact send_coherent h opened publishing
  | dropLeader leader => exact dropLeader_coherent h enabled.1 enabled.2
  | wake waiter => exact wake_coherent h enabled.1
  | dropWaiter waiter => exact dropWaiter_coherent h enabled.1 enabled.2

theorem run_coherent {maxWaitersPerKey : Nat} {trace : List (Action ρ)} {s : Flights ρ}
    (run : Run Step (new maxWaitersPerKey) trace s) : s.Coherent :=
  run.invariant (P := fun _ (s : Flights ρ) => s.Coherent) (new_coherent maxWaitersPerKey)
    fun _ h step => step.coherent h

/-- What an action makes of a leader. -/
def Action.outcome (leader : Nat) : Action ρ → Option (Option (SharedResult ρ))
  | .publish ended result => if ended = leader then some (some result) else none
  | .dropLeader ended => if ended = leader then some none else none
  | .begin _ | .send _ | .wake _ | .dropWaiter _ => none

def outcomeOf (s : Flights ρ) (leader : Nat) : Option (Option (SharedResult ρ)) :=
  if leader < s.opened then (s.leaders leader).phase.outcome else none

@[simp] theorem wake_leaders (s : Flights ρ) (waiter : Nat) : (s.wake waiter).leaders = s.leaders := by
  unfold wake
  split <;> rfl

@[simp] theorem wake_opened (s : Flights ρ) (waiter : Nat) : (s.wake waiter).opened = s.opened := by
  unfold wake
  split <;> rfl

@[simp] theorem send_opened (s : Flights ρ) (leader : Nat) : (s.send leader).opened = s.opened := by
  unfold send
  split <;> rfl

@[simp] theorem send_group (s : Flights ρ) (leader : Nat) : (s.send leader).group = s.group := by
  unfold send
  split <;> rfl

@[simp] theorem dropLeader_opened (s : Flights ρ) (leader : Nat) : (s.dropLeader leader).opened = s.opened := by
  simp only [dropLeader]
  split <;> rfl

@[simp] theorem dropLeader_group (s : Flights ρ) (leader : Nat) :
    (s.dropLeader leader).group = (s.group.remove (s.leaders leader).key).2 := by
  simp only [dropLeader]
  split <;> rfl

/-- Ending a leader changes that leader alone. -/
theorem dropLeader_leaders (s : Flights ρ) (leader : Nat) : (s.dropLeader leader).leaders =
    Function.update s.leaders leader { s.leaders leader with phase := .dropped } := by
  simp only [dropLeader]
  split <;> rfl

theorem send_leaders {s : Flights ρ} {leader : Nat} {inFlight : Option SharedInFlight} {result : SharedResult ρ}
    (publishing : (s.leaders leader).phase = .publishing inFlight result) : (s.send leader).leaders =
      Function.update s.leaders leader { s.leaders leader with phase := .published result } := by
  simp only [send, publishing]
  cases inFlight <;> rfl

/-- An outcome is only ever added, by the action that ends the leader. -/
theorem Step.outcomeOf {s s' : Flights ρ} {action : Action ρ} (step : Step s action s') (leader : Nat) :
    s'.outcomeOf leader = (s.outcomeOf leader).or (action.outcome leader) := by
  obtain ⟨enabled, rfl⟩ := step
  cases action with
  | begin key =>
    simp only [apply, Action.outcome, Option.or_none]
    rcases s.begin_cases key with ⟨_, he⟩ | ⟨inFlight, _, he | ⟨_, he⟩⟩ <;> rw [he]
    · simp only [Flights.outcomeOf]
      rcases Nat.lt_trichotomy leader s.opened with hlt | rfl | hgt
      · simp [hlt, hlt.ne, Nat.lt_succ_of_lt hlt]
      · simp [LeaderPhase.outcome]
      · simp [show ¬ leader < s.opened + 1 by omega, show ¬ leader < s.opened by omega]
    · rfl
  | publish ended result =>
    obtain ⟨opened, live⟩ := enabled
    simp only [apply, Flights.outcomeOf, publish, setLeader, Action.outcome]
    rcases eq_or_ne leader ended with rfl | hne
    · simp [opened, live, LeaderPhase.outcome]
    · simp [hne, hne.symm]
  | send ended =>
    obtain ⟨opened, inFlight, result, publishing⟩ := enabled
    simp only [apply, Flights.outcomeOf, send_opened, send_leaders publishing, Action.outcome, Option.or_none]
    rcases eq_or_ne leader ended with rfl | hne
    · simp [publishing, LeaderPhase.outcome]
    · simp [hne]
  | dropLeader ended =>
    obtain ⟨opened, live⟩ := enabled
    simp only [apply, Flights.outcomeOf, dropLeader_opened, dropLeader_leaders, Action.outcome]
    rcases eq_or_ne leader ended with rfl | hne
    · simp [opened, live, LeaderPhase.outcome]
    · simp [hne, hne.symm]
  | wake waiter => simp [apply, Flights.outcomeOf, Action.outcome]
  | dropWaiter waiter =>
    simp only [Action.outcome, Option.or_none]
    rfl

/-- The first action that ends a leader is the only one, and the leader's phase tells it. -/
theorem run_outcomeOf {maxWaitersPerKey : Nat} {trace : List (Action ρ)} {s : Flights ρ}
    (run : Run Step (new maxWaitersPerKey) trace s) (leader : Nat) :
    trace.findSome? (Action.outcome leader) = s.outcomeOf leader :=
  run.invariant (P := fun trace (s : Flights ρ) => trace.findSome? (Action.outcome leader) = s.outcomeOf leader)
    rfl fun {trace s action s'} _ ih step => by
      rw [List.findSome?_append, ih, step.outcomeOf leader]
      cases ended : action.outcome leader <;> simp [List.findSome?, ended]

/-- A finished leader stays as it is, and so does the news on its channel. -/
theorem Step.finished {s s' : Flights ρ} (h : s.Coherent) {action : Action ρ} (step : Step s action s')
    {leader : Nat} (opened : leader < s.opened) (finished : (s.leaders leader).phase.finished = true) :
    leader < s'.opened ∧ s'.leaders leader = s.leaders leader ∧
      (s'.channels leader).value = (s.channels leader).value ∧
      (s'.channels leader).version = (s.channels leader).version := by
  have apart (other : Nat) (unfinished : (s.leaders other).phase.finished = false) : leader ≠ other := by
    rintro rfl
    rw [finished] at unfinished
    cases unfinished
  have received (waiter : Nat) (phase : WaiterPhase ρ) :
      ((s.endWaiter waiter phase).channels leader).value = (s.channels leader).value ∧
        ((s.endWaiter waiter phase).channels leader).version = (s.channels leader).version := by
    simp only [endWaiter, setChannel, setWaiter]
    rcases eq_or_ne leader (s.waiters waiter).receiver with rfl | hne
    · simp
    · simp [hne]
  obtain ⟨enabled, rfl⟩ := step
  cases action with
  | begin key =>
    simp only [apply]
    rcases s.begin_cases key with ⟨_, he⟩ | ⟨inFlight, _, he | ⟨_, he⟩⟩ <;> rw [he]
    · exact ⟨Nat.lt_succ_of_lt opened, by simp [opened.ne], by simp [opened.ne], by simp [opened.ne]⟩
    · exact ⟨opened, rfl, rfl, rfl⟩
    · rcases eq_or_ne leader inFlight.sender with rfl | hne
      · exact ⟨opened, rfl, by simp, by simp⟩
      · exact ⟨opened, rfl, by simp [hne], by simp [hne]⟩
  | publish ended result =>
    have hne := apart ended (by rw [enabled.2]; rfl)
    exact ⟨opened, by simp [apply, publish, setLeader, hne], rfl, rfl⟩
  | send ended =>
    obtain ⟨hlt, inFlight, result, publishing⟩ := enabled
    obtain ⟨waiters, rfl⟩ := h.inFlight ended hlt inFlight result publishing
    have hne := apart ended (by rw [publishing]; rfl)
    refine ⟨by simpa [apply] using opened, by simp [apply, send_leaders publishing, hne], ?_⟩
    simp [apply, send, publishing, setChannel, setLeader, hne]
  | dropLeader ended =>
    obtain ⟨hlt, live⟩ := enabled
    obtain ⟨waiters, own⟩ := h.own_entry hlt live
    have hne := apart ended (by rw [live]; rfl)
    refine ⟨by simpa [apply] using opened, by simp [apply, dropLeader_leaders, hne], ?_⟩
    simp [apply, dropLeader, SingleflightGroup.remove, own, setChannel, setLeader, hne]
  | wake waiter =>
    refine ⟨by simpa [apply] using opened, by simp [apply], ?_⟩
    simp only [apply, wake]
    split
    · exact received _ _
    · exact ⟨rfl, rfl⟩
    · exact ⟨rfl, rfl⟩
  | dropWaiter waiter => exact ⟨opened, rfl, received _ _⟩

/-- The waiter of a finished leader can always go on, and every step brings it closer to its result. -/
theorem Coherent.progress {s : Flights ρ} (h : s.Coherent) {waiter : Nat} (joined : waiter < s.joined)
    (finished : (s.leaders (s.waiters waiter).receiver).phase.finished = true)
    (waiting : (s.waiters waiter).phase.waiting = true) :
    ∃ phase, (s.waiters waiter).phase.next (s.channels (s.waiters waiter).receiver) = some phase ∧
      phase.stepsLeft (s.channels (s.waiters waiter).receiver) <
        (s.waiters waiter).phase.stepsLeft (s.channels (s.waiters waiter).receiver) := by
  obtain ⟨opened, _, known⟩ := h.waiter waiter joined
  have tells := h.channel _ opened
  have closed : (s.channels (s.waiters waiter).receiver).closed = true := by
    cases hp : (s.leaders (s.waiters waiter).receiver).phase with
    | published result =>
      rw [hp] at tells
      exact tells.1
    | dropped =>
      rw [hp] at tells
      exact tells.2.2
    | _ =>
      rw [hp] at finished
      cases finished
  have fresh : (s.channels (s.waiters waiter).receiver).version ≠ 0 →
      (s.channels (s.waiters waiter).receiver).value.isSome = true := by
    intro version
    by_contra none
    exact version (tells.version_of_none (by simpa using none))
  cases hp : (s.waiters waiter).phase with
  | borrow seen =>
    rw [hp] at known
    cases value : (s.channels (s.waiters waiter).receiver).value with
    | some result => exact ⟨.returned result, by simp [WaiterPhase.next, value], by simp [WaiterPhase.stepsLeft, value]⟩
    | none =>
      have start := tells.version_of_none value
      simp only [WaiterKnows] at known
      exact ⟨.changed seen, by simp [WaiterPhase.next, value],
        by simp [WaiterPhase.stepsLeft, value, show (s.channels (s.waiters waiter).receiver).version = seen by omega]⟩
  | changed seen =>
    simp only [WaiterPhase.next, Watch.changed_of_closed closed]
    by_cases version : (s.channels (s.waiters waiter).receiver).version = seen
    · exact ⟨.returned (.error leaderDropped), by simp [version], by simp [WaiterPhase.stepsLeft, version]⟩
    · rw [hp] at known
      simp only [WaiterKnows] at known
      refine ⟨.borrow (s.channels (s.waiters waiter).receiver).version, by simp [version], ?_⟩
      simp [WaiterPhase.stepsLeft, version, fresh (known ▸ version)]
  | returned result =>
    rw [hp] at waiting
    cases waiting
  | dropped =>
    rw [hp] at waiting
    cases waiting

def Action.polls (waiter : Nat) : Action ρ → Bool
  | .wake polled => polled == waiter
  | _ => false

/-- A waiter changes only when it is polled or dropped. -/
theorem Step.waiter {s s' : Flights ρ} {action : Action ρ} (step : Step s action s') {waiter : Nat}
    (joined : waiter < s.joined) :
    waiter < s'.joined ∧ (s'.waiters waiter).receiver = (s.waiters waiter).receiver ∧
      (action.polls waiter = true ∧ (s.waiters waiter).phase.next (s.channels (s.waiters waiter).receiver) =
          some (s'.waiters waiter).phase ∨
        action.polls waiter = false ∧ ((s'.waiters waiter).phase = (s.waiters waiter).phase ∨
          action = .dropWaiter waiter ∧ (s.waiters waiter).phase.waiting = true ∧ (s'.waiters waiter).phase = .dropped)) := by
  obtain ⟨enabled, rfl⟩ := step
  cases action with
  | begin key =>
    simp only [apply]
    rcases s.begin_cases key with ⟨_, he⟩ | ⟨inFlight, _, he | ⟨_, he⟩⟩ <;> rw [he]
    · exact ⟨joined, rfl, .inr ⟨rfl, .inl rfl⟩⟩
    · exact ⟨joined, rfl, .inr ⟨rfl, .inl rfl⟩⟩
    · exact ⟨Nat.lt_succ_of_lt joined, by simp [joined.ne], .inr ⟨rfl, .inl (by simp [joined.ne])⟩⟩
  | publish ended result => exact ⟨joined, rfl, .inr ⟨rfl, .inl rfl⟩⟩
  | send ended =>
    simp only [apply, send]
    split <;> exact ⟨joined, rfl, .inr ⟨rfl, .inl rfl⟩⟩
  | dropLeader ended =>
    simp only [apply, dropLeader]
    split <;> exact ⟨joined, rfl, .inr ⟨rfl, .inl rfl⟩⟩
  | wake polled =>
    obtain ⟨_, able⟩ := enabled
    rcases eq_or_ne polled waiter with rfl | hne
    · cases hn : (s.waiters polled).phase.next (s.channels (s.waiters polled).receiver) with
      | none => exact absurd hn able
      | some phase =>
        have woken : ((s.wake polled).waiters polled) = { s.waiters polled with phase } ∧
            (s.wake polled).joined = s.joined := by
          cases phase <;> simp [wake, hn, endWaiter, setWaiter, setChannel]
        exact ⟨by simpa [apply, woken] using joined, by simp [apply, woken],
          .inl ⟨by simp [Action.polls], by simp [apply, woken]⟩⟩
    · simp only [apply, wake, Action.polls, beq_eq_false_iff_ne.mpr hne]
      split <;> simp [endWaiter, setWaiter, setChannel, joined, hne.symm]
  | dropWaiter ended =>
    rcases eq_or_ne waiter ended with rfl | hne
    · exact ⟨joined, by simp [apply, endWaiter, setWaiter, setChannel],
        .inr ⟨rfl, .inr ⟨rfl, enabled.2, by simp [apply, endWaiter, setWaiter, setChannel]⟩⟩⟩
    · exact ⟨joined, by simp [apply, endWaiter, setWaiter, setChannel, hne],
        .inr ⟨rfl, .inl (by simp [apply, endWaiter, setWaiter, setChannel, hne])⟩⟩

/-- A result that a waiter has returned stays. -/
theorem Step.returned {s s' : Flights ρ} {action : Action ρ} (step : Step s action s') {waiter : Nat}
    (joined : waiter < s.joined) {result : SharedResult ρ} (h : (s.waiters waiter).phase = .returned result) :
    (s'.waiters waiter).phase = .returned result := by
  obtain ⟨_, _, ⟨_, next⟩ | ⟨_, same | ⟨_, waiting, _⟩⟩⟩ := step.waiter joined
  · rw [h] at next
    cases next
  · rw [same, h]
  · rw [h] at waiting
    cases waiting

/-- Numbers are given out by `begin` alone, and leaders keep their keys. -/
theorem Step.numbers {s s' : Flights ρ} {action : Action ρ} (step : Step s action s')
    (unbegun : ∀ key, action ≠ .begin key) : s'.opened = s.opened ∧ s'.joined = s.joined ∧
      ∀ leader, (s'.leaders leader).key = (s.leaders leader).key := by
  have updated (leader : Nat) (phase : LeaderPhase ρ) (other : Nat) :
      (Function.update s.leaders leader { s.leaders leader with phase } other).key = (s.leaders other).key := by
    rcases eq_or_ne other leader with rfl | hne
    · simp
    · simp [hne]
  obtain ⟨enabled, rfl⟩ := step
  cases action with
  | begin key => exact absurd rfl (unbegun key)
  | publish leader result => exact ⟨rfl, rfl, updated leader _⟩
  | send leader =>
    obtain ⟨_, inFlight, result, publishing⟩ := enabled
    refine ⟨send_opened s leader, ?_, ?_⟩
    · simp only [apply, send]
      split <;> rfl
    · rw [apply, send_leaders publishing]
      exact updated leader _
  | dropLeader leader =>
    refine ⟨dropLeader_opened s leader, ?_, ?_⟩
    · simp only [apply, dropLeader]
      split <;> rfl
    · rw [apply, dropLeader_leaders]
      exact updated leader _
  | wake waiter =>
    refine ⟨wake_opened s waiter, ?_, by simp [apply]⟩
    simp only [apply, wake]
    split <;> rfl
  | dropWaiter waiter => exact ⟨rfl, rfl, fun _ => rfl⟩

/-- From the end of its leader on, a waiter's polls are counted down. -/
private theorem polls_bounded {s s' : Flights ρ} (h : s.Coherent) {waiter : Nat} (joined : waiter < s.joined)
    (finished : (s.leaders (s.waiters waiter).receiver).phase.finished = true) {later : List (Action ρ)}
    (run : Run Step s later s') : s'.Coherent ∧ waiter < s'.joined ∧
      (s'.waiters waiter).receiver = (s.waiters waiter).receiver ∧
      (s'.leaders (s.waiters waiter).receiver).phase.finished = true ∧
      later.countP (Action.polls waiter) +
          (s'.waiters waiter).phase.stepsLeft (s'.channels (s.waiters waiter).receiver) ≤
        (s.waiters waiter).phase.stepsLeft (s.channels (s.waiters waiter).receiver) := by
  induction run with
  | start => exact ⟨h, joined, rfl, finished, by simp⟩
  | snoc run last ih =>
    rename_i trace middle s' action
    obtain ⟨coherent, joins, same, gone, count⟩ := ih
    obtain ⟨joins', same', moved⟩ := last.waiter joins
    have opened := (coherent.waiter waiter joins).1
    rw [same] at opened
    obtain ⟨_, stays, value, version⟩ := last.finished coherent opened gone
    have still (phase : WaiterPhase ρ) : phase.stepsLeft (s'.channels (s.waiters waiter).receiver) =
        phase.stepsLeft (middle.channels (s.waiters waiter).receiver) := by
      cases phase <;> simp [WaiterPhase.stepsLeft, value, version]
    refine ⟨last.coherent coherent, joins', same'.trans same, by rw [stays]; exact gone, ?_⟩
    rw [List.countP_append, still]
    rcases moved with ⟨polled, next⟩ | ⟨unpolled, phase | ⟨_, _, phase⟩⟩
    · have waiting : (middle.waiters waiter).phase.waiting = true := by
        cases hp : (middle.waiters waiter).phase <;> rw [hp] at next <;> first | rfl | cases next
      obtain ⟨phase, next', less⟩ := coherent.progress joins (by rw [same]; exact gone) waiting
      rw [next, Option.some.injEq] at next'
      rw [next', List.countP_singleton, if_pos polled]
      rw [same] at less
      omega
    · rw [phase, List.countP_singleton, if_neg (by simp [unpolled])]
      exact count
    · rw [phase, List.countP_singleton, if_neg (by simp [unpolled])]
      exact (Nat.le_add_right _ _).trans count

theorem apply_limit (s : Flights ρ) (action : Action ρ) :
    (s.apply action).group.maxWaitersPerKey = s.group.maxWaitersPerKey := by
  cases action with
  | begin key =>
    simp only [apply]
    rcases s.begin_cases key with ⟨_, he⟩ | ⟨_, _, he | ⟨_, he⟩⟩ <;> rw [he]
  | publish leader result => rfl
  | send leader => simp only [apply, send_group]
  | dropLeader leader =>
    simp only [apply, dropLeader_group]
    rfl
  | wake waiter =>
    simp only [apply, wake]
    split <;> rfl
  | dropWaiter waiter => rfl

theorem run_limit {maxWaitersPerKey : Nat} {trace : List (Action ρ)} {s : Flights ρ}
    (run : Run Step (new maxWaitersPerKey) trace s) : s.group.maxWaitersPerKey = maxWaitersPerKey :=
  run.invariant (P := fun _ (s : Flights ρ) => s.group.maxWaitersPerKey = maxWaitersPerKey) rfl
    fun {_ s action _} _ ih step => by rw [step.2, s.apply_limit action, ih]

/-- Under every schedule: an entry stands for the one live leader of its key, which alone
removes it; a waiter returns what became of its leader, at its second poll step at the
latest once the leader has finished; waiters have their leader's key; and they are bounded. -/
theorem singleflight_safety {maxWaitersPerKey : Nat} {trace : List (Action ρ)} {s : Flights ρ}
    (run : Run Step (new maxWaitersPerKey) trace s) :
    (∀ key, (s.group.inner.lookup key).isSome = true ↔
      ∃! leader, leader < s.opened ∧ s.leaders leader = ⟨key, .live⟩) ∧
    (∀ leader, s.Enabled (.dropLeader leader) →
      (∃ waiters, s.group.inner.lookup (s.leaders leader).key = some ⟨leader, waiters⟩) ∧
      (s.dropLeader leader).group.inner = s.group.inner.erase (s.leaders leader).key ∧
      ∀ result, (s.publish leader result).group.inner = s.group.inner.erase (s.leaders leader).key) ∧
    (∀ leader, (s.send leader).group.inner = s.group.inner) ∧
    (∀ waiter < s.joined, ∀ result, (s.waiters waiter).phase = .returned result →
      trace.findSome? (Action.outcome (s.waiters waiter).receiver) = some (some result) ∨
      trace.findSome? (Action.outcome (s.waiters waiter).receiver) = some none ∧
        result = .error leaderDropped) ∧
    (∀ waiter < s.joined, (s.leaders (s.waiters waiter).receiver).phase.finished = true →
      ∀ later s', Run Step s later s' → (s'.waiters waiter).phase.waiting = true →
        s'.Enabled (.wake waiter) ∧ later.countP (Action.polls waiter) < 2) ∧
    (∀ waiter < s.joined, (s.waiters waiter).receiver < s.opened ∧
      (s.leaders (s.waiters waiter).receiver).key = (s.waiters waiter).key) ∧
    (∀ leader < s.opened, (s.joinedTo leader).card ≤ maxWaitersPerKey) := by
  have h := run_coherent run
  refine ⟨fun key => ⟨fun found => ?_, ?_⟩, fun leader enabled => ⟨h.own_entry enabled.1 enabled.2, ?_, fun _ => rfl⟩,
    fun leader => by rw [send_group], fun waiter joined result returned => ?_,
    fun waiter joined finished later s' after waiting => ?_, fun waiter joined => ?_, fun leader opened => ?_⟩
  · obtain ⟨inFlight, found⟩ := Option.isSome_iff_exists.mp found
    obtain ⟨opened, live, _⟩ := h.entry key inFlight found
    refine ⟨inFlight.sender, ⟨opened, live⟩, fun other ⟨otherOpened, otherLive⟩ => ?_⟩
    obtain ⟨entry, again, rfl⟩ := h.leader other otherOpened key otherLive
    rw [found, Option.some.injEq] at again
    rw [again]
  · rintro ⟨leader, ⟨opened, live⟩, _⟩
    obtain ⟨inFlight, found, _⟩ := h.leader leader opened key live
    exact Option.isSome_iff_exists.mpr ⟨inFlight, found⟩
  · rw [dropLeader_group]
    rfl
  · obtain ⟨opened, _, known⟩ := h.waiter waiter joined
    rw [run_outcomeOf run, outcomeOf, if_pos opened]
    rw [returned] at known
    rcases known with published | ⟨dropped, he⟩
    · exact .inl (by rw [published]; rfl)
    · exact .inr ⟨by rw [dropped]; rfl, he⟩
  · obtain ⟨coherent, joins, same, gone, count⟩ := polls_bounded h joined finished after
    obtain ⟨phase, next, less⟩ := coherent.progress joins (by rw [same]; exact gone) waiting
    have most : (s.waiters waiter).phase.stepsLeft (s.channels (s.waiters waiter).receiver) ≤ 2 := by
      cases (s.waiters waiter).phase <;> simp only [WaiterPhase.stepsLeft] <;> first | omega | (split <;> omega)
    rw [same] at less
    exact ⟨⟨joins, by rw [next]; simp⟩, by omega⟩
  · obtain ⟨opened, key, _⟩ := h.waiter waiter joined
    exact ⟨opened, key⟩
  · have bound := h.bounded leader opened
    rwa [run_limit run] at bound

private def sharedKey : SingleflightKey := ⟨⟨"tenant-a"⟩, ⟨"greeting"⟩, .writable⟩

private def sharedTrace : List (Action Nat) :=
  [.begin sharedKey, .begin sharedKey, .publish 0 (.ok 7), .send 0, .wake 0]

private theorem sharedTrace_run : Run Step (new 1) sharedTrace (sharedTrace.foldl Flights.apply (new 1)) :=
  Run.of_allowed (fun _ _ enabled => ⟨enabled, rfl⟩) ⟨trivial, trivial, ⟨Nat.one_pos, rfl⟩,
    ⟨Nat.one_pos, some ⟨0, 1⟩, .ok 7, rfl⟩, ⟨Nat.one_pos, (nomatch ·)⟩, trivial⟩

/-- One leader, and a waiter that returns what the leader published. -/
theorem singleflight_safety_of_one_waiter :
    ((sharedTrace.foldl Flights.apply (new 1)).waiters 0).phase = .returned (.ok 7) ∧
      (sharedTrace.findSome? (Action.outcome 0) = some (some (.ok 7)) ∨
        sharedTrace.findSome? (Action.outcome 0) = some none ∧
          (.ok 7 : SharedResult Nat) = .error leaderDropped) :=
  ⟨rfl, (singleflight_safety sharedTrace_run).2.2.2.1 0 Nat.one_pos (.ok 7) rfl⟩

end Flights
end Mooncache

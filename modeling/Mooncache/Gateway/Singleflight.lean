import Mooncache.Common.Ids
import Mooncache.Foundation.Runs
import Mooncache.Foundation.Table
import Mooncache.Foundation.Watch

/-! Request coalescing: one leader per key at a time, and waiters on its channel.
Channels, leaders and waiters are numbered in the order they appear. -/
namespace Mooncache

inductive SingleflightWriteMode where
  | writable
  | readOnly
  deriving DecidableEq, Repr

structure SingleflightKey where
  tenantId : TenantId
  cacheKey : CacheKey
  writeMode : SingleflightWriteMode
  deriving DecidableEq, Repr

/-- An entry of the map: the sender, as the number of its channel, and the waiters admitted. -/
structure SharedInFlight where
  sender : Nat
  waiters : Nat
  deriving DecidableEq, Repr

structure SingleflightGroup where
  inner : Table SingleflightKey SharedInFlight
  maxWaitersPerKey : Nat

def defaultMaxWaitersPerKey : Nat := 1024

inductive SingleflightStart where
  | leader
  | waiter (sender : Nat)
  | overCapacity
  deriving DecidableEq, Repr

abbrev SharedResult (ρ : Type) := Except String ρ

/-- The error a waiter returns when its leader's sender is gone. -/
def leaderDropped : String := "singleflight leader dropped before publishing result"

namespace SingleflightGroup

def new (maxWaitersPerKey : Nat) : SingleflightGroup := ⟨∅, maxWaitersPerKey⟩

/-- `begin`; a new leader's channel gets the number `fresh`. -/
def begin (group : SingleflightGroup) (key : SingleflightKey) (fresh : Nat) :
    SingleflightStart × SingleflightGroup :=
  match group.inner.lookup key with
  | some inFlight =>
    if inFlight.waiters ≥ group.maxWaitersPerKey then (.overCapacity, group)
    else (.waiter inFlight.sender, { group with
      inner := group.inner.insert key { inFlight with waiters := inFlight.waiters + 1 } })
  | none => (.leader, { group with inner := group.inner.insert key ⟨fresh, 0⟩ })

/-- Removing an entry by key: the critical section of `publish` and of dropping a leader. -/
def remove (group : SingleflightGroup) (key : SingleflightKey) :
    Option SharedInFlight × SingleflightGroup :=
  (group.inner.lookup key, { group with inner := group.inner.erase key })

end SingleflightGroup

inductive LeaderPhase (ρ : Type) where
  | live
  /-- `publish` has removed this entry and released the lock, but not sent yet. -/
  | publishing (inFlight : Option SharedInFlight) (result : SharedResult ρ)
  | published (result : SharedResult ρ)
  | dropped

structure SingleflightLeader (ρ : Type) where
  key : SingleflightKey
  phase : LeaderPhase ρ

/-- Where `wait` stands; `seen` is the receiver's version. -/
inductive WaiterPhase (ρ : Type) where
  | borrow (seen : Nat)
  | changed (seen : Nat)
  | returned (result : SharedResult ρ)
  | dropped

structure SingleflightWaiter (ρ : Type) where
  key : SingleflightKey
  receiver : Nat
  phase : WaiterPhase ρ

/-- The receiver of a waiter in this phase still exists. -/
def WaiterPhase.waiting {ρ : Type} : WaiterPhase ρ → Bool
  | borrow _ | changed _ => true
  | returned _ | dropped => false

@[simp] theorem WaiterPhase.waiting_borrow {ρ : Type} (seen : Nat) :
    (borrow seen : WaiterPhase ρ).waiting = true := rfl
@[simp] theorem WaiterPhase.waiting_changed {ρ : Type} (seen : Nat) :
    (changed seen : WaiterPhase ρ).waiting = true := rfl
@[simp] theorem WaiterPhase.waiting_returned {ρ : Type} (result : SharedResult ρ) :
    (returned result).waiting = false := rfl
@[simp] theorem WaiterPhase.waiting_dropped {ρ : Type} : (dropped : WaiterPhase ρ).waiting = false := rfl

/-- One step of the loop of `wait`; nothing when it has to be woken first. -/
def WaiterPhase.next {ρ : Type} (watch : Watch (Option (SharedResult ρ))) :
    WaiterPhase ρ → Option (WaiterPhase ρ)
  | borrow seen =>
    match watch.value with
    | some result => some (returned result)
    | none => some (changed seen)
  | changed seen =>
    match watch.changed seen with
    | .ready seen => some (borrow seen)
    | .closed => some (returned (.error leaderDropped))
    | .pending => none
  | returned _ | dropped => none

structure Flights (ρ : Type) where
  group : SingleflightGroup
  channels : Nat → Watch (Option (SharedResult ρ))
  leaders : Nat → SingleflightLeader ρ
  opened : Nat
  waiters : Nat → SingleflightWaiter ρ
  joined : Nat

namespace Flights
variable {ρ : Type}

inductive Action (ρ : Type) where
  | begin (key : SingleflightKey)
  | publish (leader : Nat) (result : SharedResult ρ)
  | send (leader : Nat)
  | dropLeader (leader : Nat)
  | wake (waiter : Nat)
  | dropWaiter (waiter : Nat)

/-- A group before its first `begin`; the numbers not yet given out stand for nothing. -/
def new (maxWaitersPerKey : Nat) : Flights ρ where
  group := .new maxWaitersPerKey
  channels _ := .channel none
  leaders _ := ⟨⟨⟨""⟩, ⟨""⟩, .writable⟩, .dropped⟩
  opened := 0
  waiters _ := ⟨⟨⟨""⟩, ⟨""⟩, .writable⟩, 0, .dropped⟩
  joined := 0

def setChannel (s : Flights ρ) (number : Nat) (watch : Watch (Option (SharedResult ρ))) : Flights ρ :=
  { s with channels := Function.update s.channels number watch }

def setLeader (s : Flights ρ) (leader : Nat) (phase : LeaderPhase ρ) : Flights ρ :=
  { s with leaders := Function.update s.leaders leader { s.leaders leader with phase } }

def setWaiter (s : Flights ρ) (waiter : Nat) (phase : WaiterPhase ρ) : Flights ρ :=
  { s with waiters := Function.update s.waiters waiter { s.waiters waiter with phase } }

/-- A waiter's receiver goes when it returns and when it is dropped. -/
def endWaiter (s : Flights ρ) (waiter : Nat) (phase : WaiterPhase ρ) : Flights ρ :=
  (s.setWaiter waiter phase).setChannel (s.waiters waiter).receiver
    (s.channels (s.waiters waiter).receiver).dropReceiver

def begin (s : Flights ρ) (key : SingleflightKey) : Flights ρ :=
  match s.group.begin key s.opened with
  | (.leader, group) => { s with
      group
      channels := Function.update s.channels s.opened (Watch.channel none).dropReceiver
      leaders := Function.update s.leaders s.opened ⟨key, .live⟩
      opened := s.opened + 1 }
  | (.waiter sender, group) =>
    let (seen, watch) := (s.channels sender).subscribe
    { s with
      group
      channels := Function.update s.channels sender watch
      waiters := Function.update s.waiters s.joined ⟨key, sender, .borrow seen⟩
      joined := s.joined + 1 }
  | (.overCapacity, group) => { s with group }

def publish (s : Flights ρ) (leader : Nat) (result : SharedResult ρ) : Flights ρ :=
  let (inFlight, group) := s.group.remove (s.leaders leader).key
  ({ s with group } : Flights ρ).setLeader leader (.publishing inFlight result)

/-- The end of `publish`: send on the entry's channel, if there was an entry, and drop it. -/
def send (s : Flights ρ) (leader : Nat) : Flights ρ :=
  match (s.leaders leader).phase with
  | .publishing (some inFlight) result =>
    (s.setLeader leader (.published result)).setChannel inFlight.sender
      ((s.channels inFlight.sender).send (some result)).dropSender
  | .publishing none result => s.setLeader leader (.published result)
  | _ => s

def dropLeader (s : Flights ρ) (leader : Nat) : Flights ρ :=
  let (inFlight, group) := s.group.remove (s.leaders leader).key
  let s := ({ s with group } : Flights ρ).setLeader leader .dropped
  match inFlight with
  | some inFlight => s.setChannel inFlight.sender (s.channels inFlight.sender).dropSender
  | none => s

def wake (s : Flights ρ) (waiter : Nat) : Flights ρ :=
  match (s.waiters waiter).phase.next (s.channels (s.waiters waiter).receiver) with
  | some (.returned result) => s.endWaiter waiter (.returned result)
  | some phase => s.setWaiter waiter phase
  | none => s

def apply (s : Flights ρ) : Action ρ → Flights ρ
  | .begin key => s.begin key
  | .publish leader result => s.publish leader result
  | .send leader => s.send leader
  | .dropLeader leader => s.dropLeader leader
  | .wake waiter => s.wake waiter
  | .dropWaiter waiter => s.endWaiter waiter .dropped

/-- A leader is published or dropped once, a waiter is polled and dropped while it waits. -/
def Enabled (s : Flights ρ) : Action ρ → Prop
  | .begin _ => True
  | .publish leader _ | .dropLeader leader => leader < s.opened ∧ (s.leaders leader).phase = .live
  | .send leader => leader < s.opened ∧ ∃ inFlight result, (s.leaders leader).phase = .publishing inFlight result
  | .wake waiter => waiter < s.joined ∧
    (s.waiters waiter).phase.next (s.channels (s.waiters waiter).receiver) ≠ none
  | .dropWaiter waiter => waiter < s.joined ∧ (s.waiters waiter).phase.waiting = true

def Step (s : Flights ρ) (action : Action ρ) (s' : Flights ρ) : Prop :=
  s.Enabled action ∧ s' = s.apply action

end Flights
end Mooncache

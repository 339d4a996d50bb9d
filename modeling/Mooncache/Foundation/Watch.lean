import Mathlib.Init

/-! A watch channel with one sender: the latest value, its version, the number of
receivers, and whether the sender is gone. A receiver is the version it has seen. -/
namespace Mooncache
variable {α : Type*}

structure Watch (α : Type*) where
  value : α
  version : Nat
  receivers : Nat
  closed : Bool

/-- What awaiting a change finds. -/
inductive Changed where
  | ready (seen : Nat)
  | closed
  | pending
  deriving DecidableEq, Repr

namespace Watch

/-- A new channel, counted with the receiver that is made along with it. -/
def channel (value : α) : Watch α := ⟨value, 0, 1, false⟩

/-- A further receiver, which has seen the current version. -/
def subscribe (watch : Watch α) : Nat × Watch α :=
  (watch.version, { watch with receivers := watch.receivers + 1 })

def dropReceiver (watch : Watch α) : Watch α := { watch with receivers := watch.receivers - 1 }

/-- Sending fails and changes nothing when no receiver is left. -/
def send (watch : Watch α) (value : α) : Watch α :=
  if watch.receivers = 0 then watch else { watch with value := value, version := watch.version + 1 }

def dropSender (watch : Watch α) : Watch α := { watch with closed := true }

/-- An unseen version is reported first, even when the sender is gone. -/
def changed (watch : Watch α) (seen : Nat) : Changed :=
  if watch.version ≠ seen then .ready watch.version else if watch.closed then .closed else .pending

@[simp] theorem subscribe_fst (watch : Watch α) : watch.subscribe.1 = watch.version := rfl
@[simp] theorem subscribe_value (watch : Watch α) : watch.subscribe.2.value = watch.value := rfl
@[simp] theorem subscribe_version (watch : Watch α) : watch.subscribe.2.version = watch.version := rfl
@[simp] theorem subscribe_closed (watch : Watch α) : watch.subscribe.2.closed = watch.closed := rfl
@[simp] theorem subscribe_receivers (watch : Watch α) :
    watch.subscribe.2.receivers = watch.receivers + 1 := rfl
@[simp] theorem dropReceiver_value (watch : Watch α) : watch.dropReceiver.value = watch.value := rfl
@[simp] theorem dropReceiver_version (watch : Watch α) : watch.dropReceiver.version = watch.version := rfl
@[simp] theorem dropReceiver_closed (watch : Watch α) : watch.dropReceiver.closed = watch.closed := rfl
@[simp] theorem dropReceiver_receivers (watch : Watch α) :
    watch.dropReceiver.receivers = watch.receivers - 1 := rfl
@[simp] theorem dropSender_value (watch : Watch α) : watch.dropSender.value = watch.value := rfl
@[simp] theorem dropSender_version (watch : Watch α) : watch.dropSender.version = watch.version := rfl
@[simp] theorem dropSender_receivers (watch : Watch α) : watch.dropSender.receivers = watch.receivers := rfl
@[simp] theorem dropSender_closed (watch : Watch α) : watch.dropSender.closed = true := rfl
@[simp] theorem send_receivers (watch : Watch α) (value : α) :
    (watch.send value).receivers = watch.receivers := by
  unfold send
  split <;> rfl

theorem send_of_receivers {watch : Watch α} (h : watch.receivers ≠ 0) (value : α) :
    watch.send value = { watch with value := value, version := watch.version + 1 } := if_neg h

theorem send_of_none {watch : Watch α} (h : watch.receivers = 0) (value : α) : watch.send value = watch :=
  if_pos h

/-- Once the sender is gone, awaiting a change never blocks. -/
theorem changed_of_closed {watch : Watch α} (h : watch.closed = true) (seen : Nat) :
    watch.changed seen = if watch.version ≠ seen then .ready watch.version else .closed := by
  simp only [changed, h, ↓reduceIte]

end Watch
end Mooncache

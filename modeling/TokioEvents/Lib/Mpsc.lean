/-
  Bounded multi-producer channels.

  A channel is its buffered values, oldest first, its capacity, and a flag that is
  cleared when the receiver is dropped; what was buffered is then lost.
-/

import Mathlib.Data.List.Basic

namespace Mpsc

/-- A bounded channel. -/
structure Channel (α : Type*) where
  buffer : List α
  capacity : Nat
  /-- The receiver has not been dropped. -/
  receiver : Bool

/-- Why a value is handed back. -/
inductive TrySendError where
  | full
  | closed
  deriving DecidableEq, Repr

namespace Channel

variable {α : Type*}

/-- A fresh channel. -/
def new (capacity : Nat) : Channel α := ⟨[], capacity, true⟩

/-- The receiver exists and there is room. -/
def Accepts (c : Channel α) : Prop := c.receiver = true ∧ c.buffer.length < c.capacity

instance (c : Channel α) : Decidable c.Accepts := inferInstanceAs (Decidable (_ ∧ _))

/-- Enqueue, whatever the state of the channel. -/
def push (c : Channel α) (a : α) : Channel α := { c with buffer := c.buffer ++ [a] }

/-- Drop the receiver with everything buffered. -/
def dropReceiver (c : Channel α) : Channel α := { c with buffer := [], receiver := false }

/-- Send without waiting. -/
def trySend (c : Channel α) (a : α) : Except TrySendError (Channel α) :=
  if !c.receiver then .error .closed
  else if c.buffer.length < c.capacity then .ok (c.push a)
  else .error .full

@[simp] theorem new_buffer (n : Nat) : (new n : Channel α).buffer = [] := rfl

@[simp] theorem push_buffer (c : Channel α) (a : α) : (c.push a).buffer = c.buffer ++ [a] := rfl

/-- A send succeeds exactly on a channel that accepts, and then it enqueues. -/
theorem trySend_eq_ok {c c' : Channel α} {a : α} :
    c.trySend a = .ok c' ↔ c.Accepts ∧ c' = c.push a := by
  unfold trySend Accepts
  cases c.receiver with
  | false => simp
  | true =>
    by_cases h : c.buffer.length < c.capacity
    · simp [h, eq_comm]
    · simp [h]

theorem trySend_of_accepts {c : Channel α} (h : c.Accepts) (a : α) :
    c.trySend a = .ok (c.push a) :=
  trySend_eq_ok.mpr ⟨h, rfl⟩

theorem exists_trySend_error {c : Channel α} (h : ¬ c.Accepts) (a : α) :
    ∃ e, c.trySend a = .error e := by
  cases hsend : c.trySend a with
  | error e => exact ⟨e, rfl⟩
  | ok c' => exact absurd (trySend_eq_ok.mp hsend).1 h

theorem receiver_of_closed {c : Channel α} {a : α} (h : c.trySend a = .error .closed) :
    c.receiver = false := by
  cases hreceiver : c.receiver with
  | false => rfl
  | true =>
    by_cases hroom : c.buffer.length < c.capacity
    · simp [trySend, hreceiver, hroom] at h
    · simp [trySend, hreceiver, hroom] at h

theorem length_of_full {c : Channel α} {a : α} (h : c.trySend a = .error .full) :
    c.capacity ≤ c.buffer.length := by
  unfold trySend at h
  split at h
  · cases h
  · split at h
    · cases h
    · rename_i hroom
      exact Nat.le_of_not_lt hroom

/-! ## Capacity -/

/-- A channel of this capacity, and no more in it than that. -/
structure Within (capacity : Nat) (c : Channel α) : Prop where
  capacity_eq : c.capacity = capacity
  length_le : c.buffer.length ≤ capacity

theorem within_new (n : Nat) : (new n : Channel α).Within n := ⟨rfl, Nat.zero_le n⟩

section Within

variable {c : Channel α} {n : Nat}

/-- A send does not go past the capacity. -/
theorem Within.push (h : c.Within n) (haccepts : c.Accepts) (a : α) : (c.push a).Within n := by
  refine ⟨h.capacity_eq, ?_⟩
  have hroom := haccepts.2
  rw [h.capacity_eq] at hroom
  rw [push_buffer, List.length_append, List.length_singleton]
  omega

/-- Receiving makes room. -/
theorem Within.recv (h : c.Within n) {buffer : List α} (hbuffer : buffer.length ≤ c.buffer.length) :
    ({ c with buffer := buffer } : Channel α).Within n :=
  ⟨h.capacity_eq, Nat.le_trans hbuffer h.length_le⟩

theorem Within.dropReceiver (h : c.Within n) : c.dropReceiver.Within n :=
  ⟨h.capacity_eq, Nat.zero_le n⟩

/-- A channel that takes no more is full or closed. -/
theorem Within.cases (h : c.Within n) (hfull : ¬ c.Accepts) :
    c.receiver = false ∨ c.buffer.length = n := by
  cases hreceiver : c.receiver with
  | false => exact .inl rfl
  | true =>
    refine .inr (Nat.le_antisymm h.length_le (Nat.le_of_not_lt fun hlt => hfull ⟨hreceiver, ?_⟩))
    rwa [h.capacity_eq]

end Within

end Channel
end Mpsc

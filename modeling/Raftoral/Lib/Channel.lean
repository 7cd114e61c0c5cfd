import Mathlib.Tactic

/-!
# Bounded channels

A queue of bounded length between any number of senders and one receiver. A sender waits while
the queue is full, and fails once the receiver is gone. `sent` is everything that was accepted:
what the receiver was given comes first, in the order of the sends.
-/

/-- A channel, beside what its receiver was given so far. -/
structure Channel (α : Type*) where
  capacity : ℕ
  taken : List α := []
  queue : List α := []
  closed : Bool := false
deriving DecidableEq, Repr

namespace Channel

variable {α : Type*}

/-- What was accepted so far. -/
def sent (c : Channel α) : List α := c.taken ++ c.queue

/-- A send that does not have to wait any more. -/
def send (c : Channel α) (x : α) : Option (Channel α) :=
  if c.closed = false ∧ c.queue.length < c.capacity then some { c with queue := c.queue ++ [x] }
  else none

/-- The receiver takes the next value, if there is one. -/
def recv (c : Channel α) : Option (Channel α) :=
  match c.closed, c.queue with
  | false, x :: rest => some { c with taken := c.taken ++ [x], queue := rest }
  | _, _ => none

/-- The receiver is dropped. -/
def close (c : Channel α) : Channel α := { c with closed := true }

@[simp] theorem sent_close (c : Channel α) : c.close.sent = c.sent := rfl

@[simp] theorem sent_new (capacity : ℕ) : sent ({ capacity } : Channel α) = [] := rfl

theorem send_cases {c c' : Channel α} {x : α} (h : c.send x = some c') :
    c.closed = false ∧ c.queue.length < c.capacity ∧ c' = { c with queue := c.queue ++ [x] } := by
  unfold send at h
  rw [Option.ite_none_right_eq_some, Option.some.injEq] at h
  exact ⟨h.1.1, h.1.2, h.2.symm⟩

theorem recv_cases {c c' : Channel α} (h : c.recv = some c') :
    ∃ x rest, c.queue = x :: rest ∧ c' = { c with taken := c.taken ++ [x], queue := rest } := by
  unfold recv at h
  split at h
  next x rest hclosed hqueue => exact ⟨x, rest, hqueue, (Option.some.inj h).symm⟩
  next => exact absurd h (by simp)

/-- A send goes behind everything that was accepted before. -/
theorem sent_send {c c' : Channel α} {x : α} (h : c.send x = some c') :
    c'.sent = c.sent ++ [x] := by
  obtain ⟨-, -, rfl⟩ := send_cases h
  simp [sent]

/-- The receiver takes what was accepted first. -/
theorem sent_recv {c c' : Channel α} (h : c.recv = some c') : c'.sent = c.sent := by
  obtain ⟨x, rest, hqueue, rfl⟩ := recv_cases h
  simp [sent, hqueue]

/-- The queue stays within its bound. -/
def Bounded (c : Channel α) : Prop := c.queue.length ≤ c.capacity

theorem bounded_new (capacity : ℕ) : Bounded ({ capacity } : Channel α) := Nat.zero_le _

theorem Bounded.send {c c' : Channel α} {x : α} (h : c.send x = some c') : c'.Bounded := by
  obtain ⟨-, hlt, rfl⟩ := send_cases h
  simpa [Bounded] using hlt

theorem Bounded.recv {c c' : Channel α} (hc : c.Bounded) (h : c.recv = some c') : c'.Bounded := by
  obtain ⟨x, rest, hqueue, rfl⟩ := recv_cases h
  unfold Bounded at hc ⊢
  rw [hqueue, List.length_cons] at hc
  exact (Nat.le_succ _).trans hc

end Channel

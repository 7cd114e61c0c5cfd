import Mathlib.Tactic

/-!
# Bounded broadcast channels

A channel retains the last `capacity` values that were sent. A receiver is a position in the
sequence of all values: it starts at the end, is given the values from there on in order, and is
moved forward, with an error, when values it has not been given are no longer retained.
-/

namespace Broadcast

variable {E : Type*}

/-- What a receiver is given, and its position behind it. -/
inductive Received (E : Type*) where
  | value (e : E) (next : ℕ)
  | lagged (next : ℕ)
  | empty
deriving DecidableEq, Repr

def recv (capacity : ℕ) (sent : List E) (next : ℕ) : Received E :=
  if next + capacity < sent.length then .lagged (sent.length - capacity)
  else match sent[next]? with
    | some e => .value e (next + 1)
    | none => .empty

/-- The values a receiver has not been given and that are not retained. -/
def dropped (capacity : ℕ) (sent : List E) (next : ℕ) : List E :=
  (sent.take (sent.length - capacity)).drop next

/-- Nothing is lost before more than the capacity was sent. -/
theorem dropped_eq_nil {capacity next : ℕ} {sent : List E} (h : sent.length ≤ capacity) :
    dropped capacity sent next = [] := by
  rw [dropped, Nat.sub_eq_zero_of_le h, List.take_zero, List.drop_nil]

theorem getElem?_of_recv_value {capacity next next' : ℕ} {sent : List E} {e : E}
    (h : recv capacity sent next = .value e next') :
    sent[next]? = some e ∧ next' = next + 1 := by
  unfold recv at h
  split at h
  · exact absurd h (by simp)
  · split at h
    next e' he =>
      obtain ⟨rfl, rfl⟩ := Received.value.inj h
      exact ⟨he, rfl⟩
    next => exact absurd h (by simp)

/-- A receiver is never moved back. -/
theorem le_of_recv_lagged {capacity next next' : ℕ} {sent : List E}
    (h : recv capacity sent next = .lagged next') : next ≤ next' := by
  unfold recv at h
  split at h
  next hlag =>
    obtain rfl := Received.lagged.inj h
    omega
  next =>
    split at h <;> exact absurd h (by simp)

/-- A value is the first of those ahead. -/
theorem drop_of_recv_value {capacity next next' : ℕ} {sent : List E} {e : E}
    (h : recv capacity sent next = .value e next') :
    next' ≤ sent.length ∧ sent.drop next = e :: sent.drop next' := by
  obtain ⟨he, rfl⟩ := getElem?_of_recv_value h
  obtain ⟨hlt, rfl⟩ := List.getElem?_eq_some_iff.mp he
  exact ⟨hlt, List.drop_eq_getElem_cons hlt⟩

/-- A receiver that lags loses the values that are not retained. -/
theorem drop_of_recv_lagged {capacity next next' : ℕ} {sent : List E}
    (h : recv capacity sent next = .lagged next') :
    next' ≤ sent.length ∧
      sent.drop next = dropped capacity sent next ++ sent.drop next' := by
  unfold recv at h
  split at h
  next hlag =>
    obtain rfl := Received.lagged.inj h
    refine ⟨Nat.sub_le _ _, ?_⟩
    have hlength : next ≤ (sent.take (sent.length - capacity)).length := by
      rw [List.length_take]
      omega
    conv_lhs => rw [← List.take_append_drop (sent.length - capacity) sent]
    rw [List.drop_append_of_le_length hlength]
    rfl
  next =>
    split at h <;> exact absurd h (by simp)

end Broadcast

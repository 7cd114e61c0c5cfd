import Mathlib.Tactic

/-!
# Renumbering

Two orders of one list differ by a permutation of the positions. Where the elements of a list
get consecutive numbers from some number on, another order gives the same result up to a
renumbering that leaves the smaller numbers alone.
-/

namespace Renumbering

variable {α : Type*}

/-- The permutation of the positions behind the first. -/
def shift (σ : Equiv.Perm ℕ) : Equiv.Perm ℕ where
  toFun
    | 0 => 0
    | i + 1 => σ i + 1
  invFun
    | 0 => 0
    | i + 1 => σ.symm i + 1
  left_inv i := by
    cases i with
    | zero => rfl
    | succ i => simp
  right_inv i := by
    cases i with
    | zero => rfl
    | succ i => simp

/-- Two orders of a list differ by a permutation of the positions. -/
theorem exists_perm_getElem? {l l' : List α} (h : l.Perm l') :
    ∃ σ : Equiv.Perm ℕ, ∀ i, l'[σ i]? = l[i]? := by
  induction h with
  | nil => exact ⟨Equiv.refl ℕ, fun _ => rfl⟩
  | cons a _ ih =>
    obtain ⟨σ, hσ⟩ := ih
    refine ⟨shift σ, fun i => ?_⟩
    cases i with
    | zero => rfl
    | succ i => exact hσ i
  | swap a b l =>
    refine ⟨Equiv.swap 0 1, fun i => ?_⟩
    match i with
    | 0 => rw [Equiv.swap_apply_left]; rfl
    | 1 => rw [Equiv.swap_apply_right]; rfl
    | i + 2 => rw [Equiv.swap_apply_of_ne_of_ne (by omega) (by omega)]; rfl
  | trans _ _ ih ih' =>
    obtain ⟨σ, hσ⟩ := ih
    obtain ⟨τ, hτ⟩ := ih'
    exact ⟨σ.trans τ, fun i => (hτ (σ i)).trans (hσ i)⟩

/-- The permutation of the numbers from `b` on. -/
def above (b : ℕ) (σ : Equiv.Perm ℕ) : Equiv.Perm ℕ where
  toFun c := if c < b then c else b + σ (c - b)
  invFun c := if c < b then c else b + σ.symm (c - b)
  left_inv c := by
    by_cases hc : c < b
    · simp [hc]
    · simp only [if_neg hc, if_neg (show ¬ b + σ (c - b) < b by omega), Nat.add_sub_cancel_left,
        Equiv.symm_apply_apply]
      omega
  right_inv c := by
    by_cases hc : c < b
    · simp [hc]
    · simp only [if_neg hc, if_neg (show ¬ b + σ.symm (c - b) < b by omega),
        Nat.add_sub_cancel_left, Equiv.apply_symm_apply]
      omega

theorem above_of_lt {b c : ℕ} (σ : Equiv.Perm ℕ) (h : c < b) : above b σ c = c := if_pos h

theorem above_add (b i : ℕ) (σ : Equiv.Perm ℕ) : above b σ (b + i) = b + σ i := by
  have hnot : ¬ b + i < b := by omega
  show (if b + i < b then b + i else b + σ (b + i - b)) = b + σ i
  rw [if_neg hnot, Nat.add_sub_cancel_left]

end Renumbering

import Mathlib.Data.Finset.Card
import Mathlib.Tactic

/-!
# Majorities

A majority of a finite set is a subset with more than half of its elements. Two majorities
of one set meet; whether the majorities of two sets do depends on how the sets overlap. The
lemmas answer it for a set and one of its elements, taken as a set of its own.
-/

namespace Majority

variable {α : Type*} [DecidableEq α]

/-- More than half of the elements. -/
def IsMajority (V Q : Finset α) : Prop := Q ⊆ V ∧ V.card < 2 * Q.card

/-- Every majority of one set meets every majority of the other. -/
def Meet (V W : Finset α) : Prop :=
  ∀ P Q, IsMajority V P → IsMajority W Q → (P ∩ Q).Nonempty

omit [DecidableEq α] in
theorem IsMajority.nonempty {V Q : Finset α} (h : IsMajority V Q) : Q.Nonempty := by
  rw [← Finset.card_pos]
  have := h.2
  omega

theorem Meet.symm {V W : Finset α} (h : Meet V W) : Meet W V := by
  intro P Q hP hQ
  rw [Finset.inter_comm]
  exact h Q P hQ hP

/-- Two majorities of one set have more elements together than the set. -/
theorem meet_self (V : Finset α) : Meet V V := by
  intro P Q hP hQ
  rw [← Finset.card_pos]
  have hunion : (P ∪ Q).card ≤ V.card := Finset.card_le_card (Finset.union_subset hP.1 hQ.1)
  have hsum := Finset.card_union_add_card_inter P Q
  have hcardP := hP.2
  have hcardQ := hQ.2
  omega

/-- The only majority of a single element is the element. -/
theorem meet_singleton_iff {a : α} {W : Finset α} :
    Meet {a} W ↔ ∀ Q, IsMajority W Q → a ∈ Q := by
  constructor
  · intro h Q hQ
    obtain ⟨x, hx⟩ := h {a} Q ⟨subset_rfl, by simp⟩ hQ
    rw [Finset.mem_inter, Finset.mem_singleton] at hx
    exact hx.1 ▸ hx.2
  · intro h P Q hP hQ
    obtain ⟨x, hx⟩ := hP.nonempty
    have hxa : x = a := Finset.mem_singleton.mp (hP.1 hx)
    refine ⟨x, Finset.mem_inter.mpr ⟨hx, ?_⟩⟩
    rw [hxa]
    exact h Q hQ

/-- A majority can do without a given element exactly if there are at least three. -/
theorem forall_mem_iff {a : α} {W : Finset α} (ha : a ∈ W) :
    (∀ Q, IsMajority W Q → a ∈ Q) ↔ W.card ≤ 2 := by
  have herase : (W.erase a).card = W.card - 1 := Finset.card_erase_of_mem ha
  have hpos : 0 < W.card := Finset.card_pos.mpr ⟨a, ha⟩
  constructor
  · intro h
    by_contra hlarge
    have hmaj : IsMajority W (W.erase a) := ⟨Finset.erase_subset a W, by omega⟩
    exact absurd (h _ hmaj) (Finset.notMem_erase a W)
  · intro hcard Q hQ
    by_contra hno
    have hle : Q.card ≤ (W.erase a).card :=
      Finset.card_le_card (Finset.subset_erase.mpr ⟨hQ.1, hno⟩)
    have hhalf := hQ.2
    omega

end Majority

import Mathlib.Data.List.Sort

/-!
# Selections from a list in no particular order

A function of a list is often meant as a function of its elements: the list is some order of a set.
`OrderFree` says that the order does not matter. Two ways in which it may matter:

* the head of a stable sort is one of the least elements, and which of them depends on the order:
  `orderFree_head_insertionSort`;
* a list that is built element by element shows the order: `orderFree_of_subsingleton` and
  `eq_of_orderFree_flatMap`.
-/

namespace Selection

variable {α β : Type*} {l : List α}

/-- The function does not depend on the order of the list. -/
def OrderFree (f : List α → β) (l : List α) : Prop :=
  ∀ l₁ l₂, l₁.Perm l → l₂.Perm l → f l₁ = f l₂

/-- An element that no other element is before. -/
def Least (r : α → α → Prop) (l : List α) (a : α) : Prop := a ∈ l ∧ ∀ b ∈ l, r a b

theorem Least.of_perm {r : α → α → Prop} {l' : List α} {a : α} (h : Least r l a)
    (hperm : l'.Perm l) : Least r l' a :=
  ⟨hperm.mem_iff.mpr h.1, fun b hb => h.2 b (hperm.mem_iff.mp hb)⟩

/-- Every element is the first one in some order. -/
theorem exists_perm_cons {a : α} (h : a ∈ l) : ∃ rest, (a :: rest).Perm l := by
  obtain ⟨before, after, rfl⟩ := List.append_of_mem h
  exact ⟨before ++ after, List.perm_middle.symm⟩

/-! ## The head of a sorted list -/

section
variable {r : α → α → Prop} [DecidableRel r]

theorem head?_insertionSort_eq_none : (l.insertionSort r).head? = none ↔ l = [] := by
  rw [List.head?_eq_none_iff, ← List.length_eq_zero_iff, List.length_insertionSort,
    List.length_eq_zero_iff]

/-- The head of a sorted list is a least element. -/
theorem least_of_head?_insertionSort [Std.Total r] [IsTrans α r] {a : α}
    (h : (l.insertionSort r).head? = some a) : Least r l a := by
  have hsorted := List.pairwise_insertionSort r l
  obtain ⟨rest, heq⟩ := List.head?_eq_some_iff.mp h
  rw [heq, List.pairwise_cons] at hsorted
  refine ⟨(List.mem_insertionSort r).mp (by rw [heq]; exact List.mem_cons_self), fun b hb => ?_⟩
  rw [← List.mem_insertionSort r, heq, List.mem_cons] at hb
  rcases hb with rfl | hb
  · exact (Std.Total.total b b).elim id id
  · exact hsorted.1 b hb

/-- Every least element is the head, in some order. -/
theorem Least.exists_perm_head? {a : α} (p : α → Bool) (h : Least r (l.filter p) a) :
    ∃ l' : List α, l'.Perm l ∧ ((l'.filter p).insertionSort r).head? = some a := by
  obtain ⟨hmem, hp⟩ := List.mem_filter.mp h.1
  obtain ⟨rest, hperm⟩ := exists_perm_cons hmem
  refine ⟨a :: rest, hperm, ?_⟩
  rw [List.filter_cons_of_pos hp, List.insertionSort_cons_of_forall_rel]
  · rfl
  · intro b hb
    refine h.2 b ((hperm.filter p).mem_iff.mp ?_)
    rw [List.filter_cons_of_pos hp]
    exact List.mem_cons_of_mem a hb

/-- What is made of the head of a sorted list does not depend on the order of the list exactly
when it is the same for all least elements. -/
theorem orderFree_head_insertionSort [Std.Total r] [IsTrans α r] (p : α → Bool)
    (g : Option α → β) :
    OrderFree (fun l => g ((l.filter p).insertionSort r).head?) l ↔
      ∀ a b, Least r (l.filter p) a → Least r (l.filter p) b → g (some a) = g (some b) := by
  constructor
  · intro h a b ha hb
    obtain ⟨l₁, hl₁, ha⟩ := ha.exists_perm_head? p
    obtain ⟨l₂, hl₂, hb⟩ := hb.exists_perm_head? p
    rw [← ha, ← hb]
    exact h l₁ l₂ hl₁ hl₂
  · intro h l₁ l₂ hl₁ hl₂
    have hleast : ∀ (l' : List α) (a : α), l'.Perm l →
        ((l'.filter p).insertionSort r).head? = some a → Least r (l.filter p) a :=
      fun l' a hperm ha =>
      (least_of_head?_insertionSort ha).of_perm (hperm.filter p).symm
    have hperm := (hl₁.trans hl₂.symm).filter p
    dsimp only
    cases h₁ : ((l₁.filter p).insertionSort r).head? with
    | none =>
      rw [head?_insertionSort_eq_none.mp h₁] at hperm
      rw [← hperm.nil_eq]
      rfl
    | some a =>
      cases h₂ : ((l₂.filter p).insertionSort r).head? with
      | none =>
        rw [head?_insertionSort_eq_none.mp h₂] at hperm
        rw [hperm.eq_nil] at h₁
        exact absurd h₁ (by simp)
      | some b =>
        exact h a b (hleast l₁ a hl₁ h₁) (hleast l₂ b hl₂ h₂)

end

/-! ## Lists built element by element -/

/-- A list whose elements are all the same has one order. -/
theorem eq_of_perm_of_subsingleton {l₁ l₂ : List α} (hperm : l₁.Perm l₂)
    (h : ∀ a ∈ l₁, ∀ b ∈ l₁, a = b) : l₁ = l₂ := by
  cases l₁ with
  | nil => exact hperm.nil_eq
  | cons a l₁ =>
    have h₁ : a :: l₁ = List.replicate (a :: l₁).length a :=
      List.eq_replicate_iff.mpr ⟨rfl, fun b hb => h b hb a List.mem_cons_self⟩
    have h₂ : l₂ = List.replicate (a :: l₁).length a :=
      List.eq_replicate_iff.mpr ⟨hperm.length_eq.symm, fun b hb =>
        h b (hperm.mem_iff.mpr hb) a List.mem_cons_self⟩
    rw [h₂]
    exact h₁

theorem orderFree_of_subsingleton {p : α → Bool} (g : List α → β)
    (h : ∀ a ∈ l.filter p, ∀ b ∈ l.filter p, a = b) : OrderFree (fun l => g (l.filter p)) l := by
  intro l₁ l₂ hl₁ hl₂
  refine congrArg g (eq_of_perm_of_subsingleton ((hl₁.trans hl₂.symm).filter p) ?_)
  intro a ha b hb
  exact h a ((hl₁.filter p).mem_iff.mp ha) b ((hl₁.filter p).mem_iff.mp hb)

/-- A list that shows by its beginning which element came first has one element to show. -/
theorem eq_of_orderFree_flatMap (p : α → Bool) (h : α → List β) (rest : List α → List β)
    (hfree : OrderFree (fun l => (l.filter p).flatMap h ++ rest l) l)
    (hmark : ∀ a ∈ l.filter p, ∀ b ∈ l.filter p, ∀ x y, h a ++ x = h b ++ y → a = b) :
    ∀ a ∈ l.filter p, ∀ b ∈ l.filter p, a = b := by
  intro a ha b hb
  obtain ⟨hmema, hpa⟩ := List.mem_filter.mp ha
  obtain ⟨hmemb, hpb⟩ := List.mem_filter.mp hb
  obtain ⟨l₁, hl₁⟩ := exists_perm_cons hmema
  obtain ⟨l₂, hl₂⟩ := exists_perm_cons hmemb
  have heq := hfree _ _ hl₁ hl₂
  simp only [List.filter_cons_of_pos hpa, List.filter_cons_of_pos hpb, List.flatMap_cons,
    List.append_assoc] at heq
  exact hmark a ha b hb _ _ heq

end Selection

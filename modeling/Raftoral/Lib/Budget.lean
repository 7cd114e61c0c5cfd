import Mathlib.Tactic

/-!
# The longest prefix within a limit

A reader takes elements from the front of a list until their sizes exceed a limit, but takes
the first element in any case. `takeWithin` is the loop that keeps the size taken so far and
tells "nothing taken yet" by its being zero; `LongestFit` is what it is for. The two agree when
no element has size zero.
-/

namespace Budget

variable {α : Type*}

/-- The size of a list. -/
def total (size : α → ℕ) (as : List α) : ℕ := (as.map size).sum

@[simp] theorem total_nil (size : α → ℕ) : total size [] = 0 := rfl

@[simp] theorem total_cons (size : α → ℕ) (a : α) (as : List α) :
    total size (a :: as) = size a + total size as := by
  simp [total]

/-- An amount within a limit; no limit allows any amount. -/
def Within (limit : Option ℕ) (amount : ℕ) : Prop := ∀ max ∈ limit, amount ≤ max

instance (limit : Option ℕ) (amount : ℕ) : Decidable (Within limit amount) :=
  inferInstanceAs (Decidable (∀ max ∈ limit, amount ≤ max))

/-- A list that may be taken: a single element, or a size within the limit. -/
def Fits (size : α → ℕ) (limit : Option ℕ) (as : List α) : Prop :=
  as.length = 1 ∨ Within limit (total size as)

/-- The longest beginning of a list that may be taken. -/
structure LongestFit (size : α → ℕ) (limit : Option ℕ) (as taken : List α) : Prop where
  start : taken <+: as
  fits : Fits size limit taken
  longest : ∀ other, other <+: as → Fits size limit other → other <+: taken

/-- One limit allows no more than another. -/
def LimitLE (limit limit' : Option ℕ) : Prop := ∀ amount, Within limit amount → Within limit' amount

/-- A larger limit lets at least as much be taken. -/
theorem LongestFit.mono {size : α → ℕ} {limit limit' : Option ℕ} {as taken taken' : List α}
    (h : LongestFit size limit as taken) (h' : LongestFit size limit' as taken')
    (hle : LimitLE limit limit') : taken <+: taken' := by
  refine h'.longest taken h.start ?_
  rcases h.fits with hone | hwithin
  · exact Or.inl hone
  · exact Or.inr (hle _ hwithin)

/-- Without a limit everything is taken. -/
theorem LongestFit.eq_of_none {size : α → ℕ} {as taken : List α}
    (h : LongestFit size none as taken) : taken = as := by
  have hall : Fits size none as := Or.inr fun max hmax => absurd hmax (by simp)
  have hle := (h.longest as (List.prefix_refl as) hall).length_le
  exact h.start.eq_of_length (Nat.le_antisymm h.start.length_le hle)

/-- The loop: take elements as long as nothing was taken or the next one fits. -/
def takeWithin (size : α → ℕ) (limit : Option ℕ) : ℕ → List α → List α
  | _, [] => []
  | taken, a :: as =>
    if 0 < taken ∧ ¬ Within limit (taken + size a) then []
    else a :: takeWithin size limit (taken + size a) as

/-- Once something was taken, the loop goes on as far as the limit allows. -/
theorem takeWithin_of_pos (size : α → ℕ) (limit : Option ℕ) {n : ℕ} (hn : 0 < n) (as : List α) :
    takeWithin size limit n as <+: as ∧
      (Within limit n → Within limit (n + total size (takeWithin size limit n as))) ∧
      ∀ other, other <+: as → Within limit (n + total size other) →
        other <+: takeWithin size limit n as := by
  induction as generalizing n with
  | nil =>
    refine ⟨List.prefix_refl [], fun h => h, fun other hother _ => hother⟩
  | cons a as ih =>
    obtain ⟨hstart, hfits, hlongest⟩ := ih (n := n + size a) (by omega)
    rw [takeWithin]
    by_cases hfit : Within limit (n + size a)
    · rw [if_neg fun h => h.2 hfit]
      refine ⟨List.cons_prefix_cons.mpr ⟨rfl, hstart⟩, fun _ => ?_, fun other hother hwithin => ?_⟩
      · rw [total_cons, ← Nat.add_assoc]
        exact hfits hfit
      · cases other with
        | nil => exact List.nil_prefix
        | cons b other =>
          obtain ⟨rfl, hrest⟩ := List.cons_prefix_cons.mp hother
          rw [total_cons, ← Nat.add_assoc] at hwithin
          exact List.cons_prefix_cons.mpr ⟨rfl, hlongest other hrest hwithin⟩
    · rw [if_pos ⟨hn, hfit⟩]
      refine ⟨List.nil_prefix, fun h => h, fun other hother hwithin => ?_⟩
      cases other with
      | nil => exact List.nil_prefix
      | cons b other =>
        -- a beginning that holds the element is over the limit already
        obtain ⟨rfl, -⟩ := List.cons_prefix_cons.mp hother
        refine absurd (fun max hmax => ?_) hfit
        have hle := hwithin max hmax
        rw [total_cons] at hle
        omega

/-- The loop takes the longest beginning, if no element has size zero. -/
theorem longestFit_takeWithin {size : α → ℕ} (limit : Option ℕ) {as : List α} (hne : as ≠ [])
    (hpos : ∀ a ∈ as, 0 < size a) : LongestFit size limit as (takeWithin size limit 0 as) := by
  obtain ⟨a, as, rfl⟩ := List.exists_cons_of_ne_nil hne
  have ha : 0 < size a := hpos a List.mem_cons_self
  obtain ⟨hstart, hfits, hlongest⟩ := takeWithin_of_pos size limit ha as
  rw [takeWithin, if_neg fun h => absurd h.1 (Nat.lt_irrefl 0), Nat.zero_add]
  refine ⟨List.cons_prefix_cons.mpr ⟨rfl, hstart⟩, ?_, fun other hother hfit => ?_⟩
  · by_cases hfirst : Within limit (size a)
    · refine Or.inr ?_
      rw [total_cons]
      exact hfits hfirst
    · -- nothing fits behind a first element that is too large
      have hnone : takeWithin size limit (size a) as = [] := by
        cases as with
        | nil => rfl
        | cons b as =>
          have hstop : ¬ Within limit (size a + size b) := by
            intro h
            refine hfirst fun max hmax => ?_
            have hle := h max hmax
            omega
          rw [takeWithin, if_pos ⟨ha, hstop⟩]
      rw [hnone]
      exact Or.inl rfl
  · cases other with
    | nil => exact List.nil_prefix
    | cons b other =>
      obtain ⟨rfl, hrest⟩ := List.cons_prefix_cons.mp hother
      refine List.cons_prefix_cons.mpr ⟨rfl, ?_⟩
      rcases hfit with hone | hwithin
      · rw [List.length_cons] at hone
        rw [List.length_eq_zero_iff.mp (by omega : other.length = 0)]
        exact List.nil_prefix
      · rw [total_cons] at hwithin
        exact hlongest other hrest hwithin

theorem takeWithin_ne_nil {size : α → ℕ} {limit : Option ℕ} {as : List α} (hne : as ≠ []) :
    takeWithin size limit 0 as ≠ [] := by
  obtain ⟨a, as, rfl⟩ := List.exists_cons_of_ne_nil hne
  rw [takeWithin, if_neg fun h => absurd h.1 (Nat.lt_irrefl 0)]
  exact List.cons_ne_nil _ _

end Budget

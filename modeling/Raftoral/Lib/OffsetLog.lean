import Mathlib.Tactic

/-!
# A log with a compacted prefix

An `OffsetLog` is what a replicated log means once a prefix has been dropped: the number
of entries dropped and the list of those kept. Entry `i` counts from one over the whole
history, so the window that can be read is `(offset, offset + length]`.

The two ways such a log changes are `truncateAppend`, which cuts it at an index and puts a
batch there, and `compact`, which drops the prefix through an index. The lemmas say what
`get?` answers after each, and unfold `slice` one entry at a time for a reader that loops
over an index range.
-/

/-- A log whose first `offset` entries have been dropped. -/
structure OffsetLog (α : Type*) where
  offset : ℕ
  entries : List α

namespace OffsetLog

variable {α : Type*}

/-- The index of the first entry kept. -/
def firstIndex (L : OffsetLog α) : ℕ := L.offset + 1

/-- The index of the last entry. -/
def lastIndex (L : OffsetLog α) : ℕ := L.offset + L.entries.length

/-- The entry at an index, if the index lies in the window. -/
def get? (L : OffsetLog α) (i : ℕ) : Option α :=
  if i ≤ L.offset then none else L.entries[i - L.offset - 1]?

/-- The entries with indices in `[lo, hi)`. -/
def slice (L : OffsetLog α) (lo hi : ℕ) : List α :=
  (L.entries.drop (lo - L.offset - 1)).take (hi - lo)

/-- Drop everything from `start` on and put the batch there. -/
def truncateAppend (L : OffsetLog α) (start : ℕ) (es : List α) : OffsetLog α :=
  { L with entries := L.entries.take (start - L.offset - 1) ++ es }

/-- Drop the prefix through `t`. -/
def compact (L : OffsetLog α) (t : ℕ) : OffsetLog α :=
  { offset := t, entries := L.entries.drop (t - L.offset) }

theorem get?_eq_getElem? {L : OffsetLog α} {i : ℕ} (h : L.offset < i) :
    L.get? i = L.entries[i - L.offset - 1]? := by
  rw [get?, if_neg (by omega)]

/-- Exactly the indices of the window have an entry. -/
theorem isSome_get? {L : OffsetLog α} {i : ℕ} :
    (L.get? i).isSome ↔ L.firstIndex ≤ i ∧ i ≤ L.lastIndex := by
  rw [firstIndex, lastIndex]
  by_cases h : L.offset < i
  · rw [get?_eq_getElem? h, Option.isSome_iff_ne_none, ne_eq, List.getElem?_eq_none_iff]
    omega
  · rw [get?, if_pos (by omega)]
    simp only [Option.isSome_none, Bool.false_eq_true, false_iff]
    omega

theorem exists_get? {L : OffsetLog α} {i : ℕ} (h₁ : L.firstIndex ≤ i) (h₂ : i ≤ L.lastIndex) :
    ∃ a, L.get? i = some a :=
  Option.isSome_iff_exists.mp (isSome_get?.mpr ⟨h₁, h₂⟩)

/-! ## Truncating appends -/

theorem length_take_of_le {L : OffsetLog α} {start : ℕ} (h₁ : L.firstIndex ≤ start)
    (h₂ : start ≤ L.lastIndex + 1) :
    (L.entries.take (start - L.offset - 1)).length = start - L.offset - 1 := by
  rw [List.length_take]
  simp only [firstIndex, lastIndex] at h₁ h₂
  omega

theorem lastIndex_truncateAppend {L : OffsetLog α} {start : ℕ} (es : List α)
    (h₁ : L.firstIndex ≤ start) (h₂ : start ≤ L.lastIndex + 1) :
    (L.truncateAppend start es).lastIndex + 1 = start + es.length := by
  have hlen := length_take_of_le h₁ h₂
  simp only [lastIndex, truncateAppend, List.length_append, hlen]
  simp only [firstIndex] at h₁
  omega

/-- Below the cut nothing changes. -/
theorem get?_truncateAppend_of_lt {L : OffsetLog α} {start i : ℕ} (es : List α)
    (h₁ : L.firstIndex ≤ start) (h₂ : start ≤ L.lastIndex + 1) (hi : i < start) :
    (L.truncateAppend start es).get? i = L.get? i := by
  by_cases h : L.offset < i
  · have hlen := length_take_of_le h₁ h₂
    rw [get?_eq_getElem? h, get?_eq_getElem? (L := L.truncateAppend start es) h]
    simp only [truncateAppend]
    rw [List.getElem?_append_left (by omega), List.getElem?_take_of_lt (by omega)]
  · rw [get?, if_pos (show i ≤ (L.truncateAppend start es).offset from by
      simp only [truncateAppend]; omega), get?, if_pos (by omega)]

/-- From the cut on the log is the batch. -/
theorem get?_truncateAppend_of_ge {L : OffsetLog α} {start i : ℕ} (es : List α)
    (h₁ : L.firstIndex ≤ start) (h₂ : start ≤ L.lastIndex + 1) (hi : start ≤ i) :
    (L.truncateAppend start es).get? i = es[i - start]? := by
  have hlen := length_take_of_le h₁ h₂
  have hoff : L.offset < i := by
    simp only [firstIndex] at h₁
    omega
  rw [get?_eq_getElem? (L := L.truncateAppend start es) hoff]
  simp only [truncateAppend, firstIndex] at hlen h₁ ⊢
  rw [List.getElem?_append_right (by omega), hlen]
  congr 1
  omega

/-! ## Compaction -/

theorem lastIndex_compact {L : OffsetLog α} {t : ℕ} (h₁ : L.offset ≤ t)
    (h₂ : t ≤ L.lastIndex) : (L.compact t).lastIndex = L.lastIndex := by
  simp only [lastIndex] at h₂
  simp only [lastIndex, compact, List.length_drop]
  omega

/-- Above the compaction point nothing changes. -/
theorem get?_compact {L : OffsetLog α} {t i : ℕ} (h₁ : L.offset ≤ t) (hi : t < i) :
    (L.compact t).get? i = L.get? i := by
  rw [get?_eq_getElem? (by omega : L.offset < i), get?_eq_getElem? (L := L.compact t) hi]
  simp only [compact]
  rw [List.getElem?_drop]
  congr 1
  omega

/-! ## Reading a range -/

theorem slice_self (L : OffsetLog α) (i : ℕ) : L.slice i i = [] := by
  rw [slice, Nat.sub_self, List.take_zero]

/-- A range starts with its first entry. -/
theorem slice_eq_cons {L : OffsetLog α} {lo hi : ℕ} {a : α} (hlo : L.offset < lo) (h : lo < hi)
    (ha : L.get? lo = some a) : L.slice lo hi = a :: L.slice (lo + 1) hi := by
  rw [get?_eq_getElem? hlo] at ha
  obtain ⟨hlt, hget⟩ := List.getElem?_eq_some_iff.mp ha
  rw [slice, List.drop_eq_getElem_cons hlt, hget, show hi - lo = hi - (lo + 1) + 1 by omega,
    List.take_succ_cons, slice]
  congr 4
  omega

end OffsetLog

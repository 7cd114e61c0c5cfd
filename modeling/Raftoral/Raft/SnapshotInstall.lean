import Raftoral.Raft.StorageLog

/-!
# Installing a snapshot

`apply_snapshot` stores the snapshot and the configuration and moves `first_index` behind
the snapshot. It does not touch `last_index`, so what the log reads as afterwards depends on
where it ended before.
-/

namespace Raftoral

open ProstMessage

section
variable [ProstMessage Snapshot] {nodeId : ℕ} {s : RocksDBStorage} {snapshot : Snapshot}

/-- What reading depends on: the window and the stored snapshot. -/
structure BasedAt (s : RocksDBStorage) (snapshot : Snapshot) (last : ℕ) : Prop where
  first : s.firstIndexCache = U64.add snapshot.metadata.index 1
  last : s.lastIndexCache = last
  stored : s.db.snapshotData = some (encodeToVec snapshot)

section
variable [ProstMessage ConfState]

/-- Installing a snapshot stores it and moves the first index behind it. The last index
stays. -/
theorem applySnapshot_basedAt (s : RocksDBStorage) (snapshot : Snapshot) :
    ∃ s₁, s.applySnapshot Faults.none snapshot = (.ok (), s₁) ∧
      BasedAt s₁ snapshot s.lastIndexCache := by
  rw [RocksDBStorage.applySnapshot, perform_none]
  exact ⟨_, rfl, rfl, rfl, rfl⟩

end

variable [ProstMessage Entry]

/-- The reads of the storage are those of the empty log based at the snapshot. -/
structure ResetTo (s : RocksDBStorage) (snapshot : Snapshot) : Prop where
  firstIndex : s.firstIndex = .ok (snapshot.metadata.index + 1)
  lastIndex : s.lastIndex = .ok snapshot.metadata.index
  term : s.term snapshot.metadata.index = .ok snapshot.metadata.term
  noTerm : ∀ i t, snapshot.metadata.index < i → s.term i ≠ .ok t
  noEntries : ∀ lo hi maxSize es, s.entries lo hi maxSize = .ok es → es = []

/-- A window that ends at the snapshot reads as the empty log based there. -/
theorem BasedAt.resetTo (h : BasedAt s snapshot snapshot.metadata.index)
    (hlt : snapshot.metadata.index + 1 < U64.size) : ResetTo s snapshot := by
  have hadd : U64.add snapshot.metadata.index 1 = snapshot.metadata.index + 1 :=
    U64.add_of_lt hlt
  have hfirst : s.firstIndexCache = snapshot.metadata.index + 1 := by rw [h.first, hadd]
  have hsnap : s.getSnapshot = .ok (some snapshot) := by
    unfold RocksDBStorage.getSnapshot
    rw [h.stored]
    simp [Except.map, Except.mapError]
  refine ⟨?_, ?_, ?_, ?_, ?_⟩
  · rw [RocksDBStorage.firstIndex, hfirst]
  · rw [RocksDBStorage.lastIndex, h.last]
  · unfold RocksDBStorage.term
    rw [hsnap]
    simp
  · -- an index above the snapshot is beyond the last one
    intro i t hi hterm
    unfold RocksDBStorage.term RocksDBStorage.entryTerm at hterm
    rw [hsnap, hfirst, h.last] at hterm
    simp only [if_neg (show ¬ i = snapshot.metadata.index by omega),
      if_neg (show ¬ i < snapshot.metadata.index + 1 by omega), if_pos hi] at hterm
    exact absurd hterm (by simp)
  · intro lo hi maxSize es hread
    unfold RocksDBStorage.entries at hread
    rw [hfirst, h.last, hadd] at hread
    -- a range that is not empty starts too low or ends too high
    by_cases h₁ : hi ≤ lo
    · rw [if_pos h₁, Except.ok.injEq] at hread
      exact hread.symm
    · rw [if_neg h₁] at hread
      by_cases h₂ : lo < snapshot.metadata.index + 1
      · rw [if_pos h₂] at hread
        exact absurd hread (by simp)
      · rw [if_neg h₂, if_pos (by omega)] at hread
        exact absurd hread (by simp)

variable [ProstMessage HardState] [ProstMessage ConfState]

/-- The operations that write neither entries nor indices. -/
def LogOp.isStateWrite : LogOp → Bool
  | .storeHardState _ | .storeConfState _ | .updateCommit _ => true
  | .append _ | .compact _ | .reopen _ => false

/-- Installing the snapshot succeeds, and from then on the log reads as the empty log based
at it for as long as only the hard and configuration states are written. -/
def ResetsLog (nodeId : ℕ) (s : RocksDBStorage) (snapshot : Snapshot) : Prop :=
  ∃ s₁, s.applySnapshot Faults.none snapshot = (.ok (), s₁) ∧
    ∀ ops : List LogOp, (∀ op ∈ ops, op.isStateWrite) →
      ∀ s', Transition.run (LogOp.step nodeId) s₁ ops = some s' → ResetTo s' snapshot

theorem step_basedAt {last : ℕ} {op : LogOp} {s' : RocksDBStorage} (hop : op.isStateWrite)
    (h : BasedAt s snapshot last) (hs : op.step nodeId s = some s') :
    BasedAt s' snapshot last := by
  cases op with
  | append es => exact absurd hop (by simp [LogOp.isStateWrite])
  | compact t => exact absurd hop (by simp [LogOp.isStateWrite])
  | reopen cs => exact absurd hop (by simp [LogOp.isStateWrite])
  | storeHardState hs' =>
    simp only [LogOp.step, RocksDBStorage.storeHardState, perform_none, Option.some.injEq] at hs
    subst hs
    exact ⟨h.first, h.last, h.stored⟩
  | storeConfState cs =>
    simp only [LogOp.step, RocksDBStorage.storeConfState, perform_none, Option.some.injEq] at hs
    subst hs
    exact ⟨h.first, h.last, h.stored⟩
  | updateCommit c =>
    simp only [LogOp.step, RocksDBStorage.updateCommit] at hs
    cases hload : s.loadHardState with
    | error e => simp [hload] at hs
    | ok old =>
      simp only [hload, RocksDBStorage.storeHardState, perform_none, Option.some.injEq] at hs
      subst hs
      exact ⟨h.first, h.last, h.stored⟩

theorem run_basedAt {last : ℕ} {ops : List LogOp} (hops : ∀ op ∈ ops, op.isStateWrite)
    (h : BasedAt s snapshot last) {s' : RocksDBStorage}
    (hrun : Transition.run (LogOp.step nodeId) s ops = some s') : BasedAt s' snapshot last := by
  refine Transition.run_induction (I := fun s => BasedAt s snapshot last) ?_ h
    (Transition.along_of_forall hops) hrun
  intro s op s' h hop hstep
  exact step_basedAt hop h hstep

/-- The last index after the installation is the one before. -/
theorem ResetsLog.index_eq (h : ResetsLog nodeId s snapshot) :
    snapshot.metadata.index = s.lastIndexCache := by
  obtain ⟨s₁, happly, hreset⟩ := h
  obtain ⟨s₂, happly₂, hbased⟩ := applySnapshot_basedAt s snapshot
  obtain rfl : s₁ = s₂ := by
    rw [happly, Prod.mk.injEq] at happly₂
    exact happly₂.2
  have hlast := (hreset [] (by simp) s₁ rfl).lastIndex
  rw [RocksDBStorage.lastIndex, hbased.last, Except.ok.injEq] at hlast
  exact hlast.symm

/-- Installing a snapshot resets the log exactly when the snapshot ends where the log ends
and the next index exists. -/
theorem applySnapshot_resets_iff (nodeId : ℕ) (s : RocksDBStorage) (snapshot : Snapshot) :
    ResetsLog nodeId s snapshot ↔
      snapshot.metadata.index = s.lastIndexCache ∧ snapshot.metadata.index + 1 < U64.size := by
  obtain ⟨s₁, happly, hbased⟩ := applySnapshot_basedAt s snapshot
  constructor
  · intro h
    refine ⟨h.index_eq, ?_⟩
    obtain ⟨s₂, happly₂, hreset⟩ := h
    obtain rfl : s₁ = s₂ := by
      rw [happly, Prod.mk.injEq] at happly₂
      exact happly₂.2
    have hfirst := (hreset [] (by simp) s₁ rfl).firstIndex
    rw [RocksDBStorage.firstIndex, hbased.first, Except.ok.injEq] at hfirst
    -- a wrapped sum is below the word size
    rw [← hfirst]
    exact Nat.mod_lt _ (by decide)
  · intro h
    refine ⟨s₁, happly, ?_⟩
    intro ops hops s' hrun
    have hfinal := run_basedAt hops hbased hrun
    rw [← h.1] at hfinal
    exact hfinal.resetTo h.2

end

section
open scoped Codec

/-- A follower with one entry is sent a snapshot of index five: the log still ends at one. -/
theorem applySnapshot_ahead_of_log :
    ∃ s₀ s, (RocksDBStorage.openOrCreate Faults.none {} 1 { voters := [1] }).1 = .ok s₀ ∧
      Transition.run (LogOp.step 1) s₀ [.append [{ term := 1, index := 1 }]] = some s ∧
      s.firstIndex = .ok 1 ∧ s.lastIndex = .ok 1 ∧
      ¬ ResetsLog 1 s { metadata := { index := 5, term := 2 } } := by
  obtain ⟨s₀, hopen, hrep₀⟩ := open_fresh_represents 1 { voters := [1] }
  have hadm : (LogOp.append [{ term := 1, index := 1 }]).Admissible s₀ := by
    refine ⟨by decide, by decide, ?_, ?_, by decide⟩
    · rw [hrep₀.first]
      decide
    · rw [hrep₀.last]
      decide
  obtain ⟨s, hstep, hrep⟩ := step_represents (by decide) hrep₀ _ hadm
  refine ⟨s₀, s, hopen, ?_, hrep.readsAs.firstIndex, hrep.readsAs.lastIndex, ?_⟩
  · rw [Transition.run_cons]
    exact ⟨s, hstep, rfl⟩
  · intro h
    have hindex := h.index_eq
    rw [hrep.last] at hindex
    exact absurd hindex (by decide)

end

end Raftoral

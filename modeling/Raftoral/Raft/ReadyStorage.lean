import Raftoral.Raft.NodeRun
import Raftoral.Raft.SnapshotInstall
import Raftoral.Raft.StorageReads

/-!
# The storage across a ready

What the storage answers after a call has taken a ready, in terms of what it answered before
and of the ready. The hard state is that of the ready, the log grows by its entries, and
everything else stays unless the ready carries a snapshot.
-/

namespace Raftoral

open RaftNode ProstMessage

section
variable [ProstMessage Entry] [ProstMessage HardState] [ProstMessage ConfState]
  [ProstMessage Snapshot]

theorem appendReady_eq {io : ReadyIo} {s : RocksDBStorage} (hok : (appendReady io s).1 = .ok ()) :
    s.append io.appendFaults io.ready.entries = (.ok (), (appendReady io s).2) := by
  unfold appendReady at hok ⊢
  by_cases hnil : io.ready.entries.isEmpty
  · rw [if_pos hnil, List.isEmpty_iff.mp hnil]
    rfl
  · rw [if_neg hnil] at hok ⊢
    exact Prod.ext hok rfl

theorem hardStateReady_sameLog {io : ReadyIo} {s : RocksDBStorage}
    (hok : (hardStateReady io s).1 = .ok ()) : SameLog s (hardStateReady io s).2 := by
  unfold hardStateReady at hok ⊢
  cases hhs : io.ready.hs with
  | none => exact ⟨rfl, rfl, rfl, rfl⟩
  | some hs =>
    rw [hhs] at hok
    exact storeHardState_sameLog (Prod.ext hok rfl)

theorem commitReady_sameLog {io : ReadyIo} {s : RocksDBStorage}
    (hok : (commitReady io s).1 = .ok ()) : SameLog s (commitReady io s).2 := by
  unfold commitReady at hok ⊢
  cases hc : io.lightReady.commitIndex with
  | none => exact ⟨rfl, rfl, rfl, rfl⟩
  | some commit =>
    rw [hc] at hok
    exact storeHardState_sameLog (updateCommit_ok (Prod.ext hok rfl))

theorem restoreStore_hardState (io : ReadyIo) (s : RocksDBStorage) :
    (restoreStore io s).hardState = s.hardState := by
  unfold restoreStore
  split
  · rfl
  · exact hardState_of_eq (applySnapshot_hardState _ s _)

theorem restoreStore_snapshotBelow {io : ReadyIo} {s : RocksDBStorage} {delivered : ℕ}
    (h : SnapshotBelow s delivered) (ho : io.Orderly delivered) :
    SnapshotBelow (restoreStore io s) (io.base delivered) := by
  unfold restoreStore ReadyIo.base
  by_cases hs : io.ready.snapshot.isEmpty
  · rw [if_pos hs, if_pos hs]
    exact h
  · rw [if_neg hs, if_neg hs]
    exact h.applySnapshot (ho.snapshot hs) io.restoreFaults

theorem takenStore_snapshotBelow {io : ReadyIo} {s : RocksDBStorage} {delivered : ℕ}
    (h : SnapshotBelow s delivered) (ho : io.Orderly delivered) (hper : Persists io s) :
    SnapshotBelow (takenStore io s) (io.base delivered) := by
  have happ := (restoreStore_snapshotBelow h ho).of_eq (append_hardState (appendReady_eq hper.1)).2
  exact happ.of_eq (hardStateReady_sameLog hper.2).snapshotData

/-- An entry that was delivered stays where it is while no snapshot is received. -/
theorem takenStore_holds {io : ReadyIo} {s : RocksDBStorage} {e : Entry} (h : Holds s e)
    (hpos : 0 < e.index) (hsnap : io.ready.snapshot.isEmpty) (hper : Persists io s)
    (hes : ∀ x ∈ io.ready.entries, e.index < x.index ∧ x.index < U64.size - 1) :
    Holds (takenStore io s) e := by
  have hrest : restoreStore io s = s := by rw [restoreStore, if_pos hsnap]
  have happ := appendReady_eq hper.1
  rw [hrest] at happ
  have hheld := (h.append hpos hes happ).of_sameLog (hardStateReady_sameLog (hrest ▸ hper.2))
  rw [takenStore, hrest]
  exact hheld

/-- The stored snapshot across a ready that carries none. -/
theorem takenStore_snapshotData {io : ReadyIo} {s : RocksDBStorage}
    (hsnap : io.ready.snapshot.isEmpty) (hper : Persists io s) :
    (takenStore io s).db.snapshotData = s.db.snapshotData := by
  have hrest : restoreStore io s = s := by rw [restoreStore, if_pos hsnap]
  have happ := (append_hardState (appendReady_eq hper.1)).2
  rw [takenStore, (hardStateReady_sameLog hper.2).snapshotData, happ, hrest]

/-- The hard state once a ready was taken. -/
theorem takenStore_hardState {io : ReadyIo} {s : RocksDBStorage} (hper : Persists io s) :
    (takenStore io s).hardState = io.ready.hs.getD s.hardState := by
  have happ : (appendReady io (restoreStore io s)).2.hardState = s.hardState := by
    rw [hardState_of_eq (append_hardState (appendReady_eq hper.1)).1, restoreStore_hardState]
  have hhs := hper.2
  unfold takenStore
  unfold hardStateReady at hhs ⊢
  cases hready : io.ready.hs with
  | none => exact happ
  | some hs =>
    rw [hready] at hhs
    exact hardState_storeHardState (Prod.ext hhs rfl)

/-- The hard state once the commit index of the light ready was stored. -/
theorem commitReady_hardState {io : ReadyIo} {s : RocksDBStorage}
    (hok : (commitReady io s).1 = .ok ()) :
    (commitReady io s).2.hardState =
      { s.hardState with commit := io.lightReady.commitIndex.getD s.hardState.commit } := by
  unfold commitReady at hok ⊢
  cases hc : io.lightReady.commitIndex with
  | none => rfl
  | some commit =>
    rw [hc] at hok
    exact hardState_storeHardState (updateCommit_ok (Prod.ext hok rfl))

end

/-! ## The log the storage stands for -/

/-- An operation that succeeds does what it does without faults. -/
theorem perform_none_of_ok {w : Faults} {actions : List Action} {s s' : RocksDBStorage}
    (h : perform w actions s = (.ok (), s')) : perform Faults.none actions s = (.ok (), s') := by
  rw [perform_ok h, perform_none]

section
variable [ProstMessage Entry] [ProstMessage HardState] {nodeId : ℕ} {w : Faults}
  {s s' : RocksDBStorage} {L : OffsetLog Entry}

theorem append_represents_of_ok (h : Represents nodeId s L) {es : List Entry} (hne : es ≠ [])
    (hc : Contiguous es) (h₁ : L.firstIndex ≤ batchStart es) (h₂ : batchStart es ≤ L.lastIndex + 1)
    (hb : ∀ x ∈ es, x.index < U64.size - 1) (hok : s.append w es = (.ok (), s')) :
    Represents nodeId s' (L.truncateAppend (batchStart es) es) := by
  obtain ⟨e, es, rfl⟩ := List.exists_cons_of_ne_nil hne
  obtain ⟨s₁, hs₁, hrep⟩ := append_represents h hc h₁ h₂ hb
  have hnone : s.append Faults.none (e :: es) = (.ok (), s') := by
    rw [RocksDBStorage.append, List.head?_cons,
      List.getLast?_eq_some_getLast (List.cons_ne_nil e es)] at hok ⊢
    exact perform_none_of_ok hok
  obtain rfl : s₁ = s' := congrArg Prod.snd (hs₁.symm.trans hnone)
  exact hrep

theorem storeHardState_represents_of_ok (h : Represents nodeId s L) {hs : HardState}
    (hok : s.storeHardState w hs = (.ok (), s')) : Represents nodeId s' L := by
  obtain ⟨s₁, hs₁, hrep⟩ := storeHardState_represents h hs
  obtain rfl : s₁ = s' := congrArg Prod.snd (hs₁.symm.trans (perform_none_of_ok hok))
  exact hrep

end

/-- The log a ready leaves when it carries no snapshot. -/
def ReadyIo.logAfter (io : ReadyIo) (L : OffsetLog Entry) : OffsetLog Entry :=
  if io.ready.entries = [] then L
  else L.truncateAppend (batchStart io.ready.entries) io.ready.entries

/-- What raft-rs appends continues the log, and nothing up to an index is overwritten. -/
def ReadyIo.AppendsAbove (io : ReadyIo) (index last : ℕ) : Prop :=
  io.ready.entries ≠ [] → Contiguous io.ready.entries ∧ index < batchStart io.ready.entries ∧
    batchStart io.ready.entries ≤ last + 1 ∧ ∀ x ∈ io.ready.entries, x.index < U64.size - 1

section
variable {io : ReadyIo} {L : OffsetLog Entry} {index : ℕ}

theorem logAfter_offset (io : ReadyIo) (L : OffsetLog Entry) :
    (io.logAfter L).offset = L.offset := by
  unfold ReadyIo.logAfter
  split <;> rfl

/-- What lies below the appended entries stays. -/
theorem take_logAfter (hoff : L.offset = 0) (happ : io.AppendsAbove index L.lastIndex) :
    (io.logAfter L).entries.take index = L.entries.take index := by
  unfold ReadyIo.logAfter
  by_cases hnil : io.ready.entries = []
  · rw [if_pos hnil]
  · obtain ⟨-, hlt, hle, -⟩ := happ hnil
    rw [OffsetLog.lastIndex, hoff] at hle
    rw [if_neg hnil, OffsetLog.truncateAppend, hoff, List.take_append_of_le_length, List.take_take]
    · congr 1
      omega
    · rw [List.length_take]
      omega

variable [ProstMessage Entry] [ProstMessage HardState] [ProstMessage ConfState]
  [ProstMessage Snapshot] {nodeId : ℕ} {s : RocksDBStorage}

theorem takenStore_represents (h : Represents nodeId s L) (hoff : L.offset = 0)
    (hsnap : io.ready.snapshot.isEmpty) (happ : io.AppendsAbove index s.lastIndexCache)
    (hper : Persists io s) : Represents nodeId (takenStore io s) (io.logAfter L) := by
  have hrest : restoreStore io s = s := by rw [restoreStore, if_pos hsnap]
  have hlog : Represents nodeId (appendReady io (restoreStore io s)).2 (io.logAfter L) := by
    have heq := appendReady_eq hper.1
    unfold ReadyIo.logAfter
    -- an empty list of entries is not appended
    by_cases hnil : io.ready.entries = []
    · rw [hnil] at heq
      rw [if_pos hnil, ← congrArg Prod.snd heq, hrest]
      exact h
    · obtain ⟨hc, hlt, hle, hb⟩ := happ hnil
      rw [hrest] at heq ⊢
      rw [if_neg hnil]
      rw [h.last] at hle
      refine append_represents_of_ok h hnil hc ?_ hle hb heq
      rw [OffsetLog.firstIndex, hoff]
      omega
  have hhs := hper.2
  unfold takenStore
  unfold hardStateReady at hhs ⊢
  cases hready : io.ready.hs with
  | none => exact hlog
  | some hs =>
    rw [hready] at hhs
    exact storeHardState_represents_of_ok hlog (Prod.ext hhs rfl)

theorem commitReady_represents (h : Represents nodeId s L)
    (hok : (commitReady io s).1 = .ok ()) : Represents nodeId (commitReady io s).2 L := by
  unfold commitReady at hok ⊢
  cases hc : io.lightReady.commitIndex with
  | none => exact h
  | some commit =>
    rw [hc] at hok
    exact storeHardState_represents_of_ok h (updateCommit_ok (Prod.ext hok rfl))

/-- Without faults a storage that stands for a log takes what continues it. -/
theorem Represents.persists (h : Represents nodeId s L) (hoff : L.offset = 0)
    (hsnap : io.ready.snapshot.isEmpty) (happ : io.AppendsAbove index s.lastIndexCache)
    (happend : io.appendFaults = Faults.none) (hhard : io.hardStateFaults = Faults.none) :
    Persists io s := by
  have hrest : restoreStore io s = s := by rw [restoreStore, if_pos hsnap]
  unfold Persists
  rw [hrest]
  constructor
  · unfold appendReady
    by_cases hnil : io.ready.entries.isEmpty
    · rw [if_pos hnil]
    · rw [if_neg hnil, happend]
      obtain ⟨hc, hlt, hle, hb⟩ := happ (by simpa using hnil)
      obtain ⟨e, es, hes⟩ := List.exists_cons_of_ne_nil (by simpa using hnil)
      rw [hes, batchStart_cons] at hlt hle
      rw [hes] at hc hb ⊢
      rw [h.last] at hle
      -- nothing was compacted, so the batch starts behind the first index
      have hfirst : L.firstIndex ≤ e.index := by
        rw [OffsetLog.firstIndex, hoff]
        omega
      obtain ⟨s', hs', -⟩ := append_represents h hc hfirst hle hb
      exact congrArg Prod.fst hs'
  · unfold hardStateReady
    cases io.ready.hs with
    | none => rfl
    | some hs =>
      rw [hhard]
      exact congrArg Prod.fst (perform_none _ _)

theorem Represents.commits (h : Represents nodeId s L) (hfaults : io.commitFaults = Faults.none) :
    (commitReady io s).1 = .ok () := by
  unfold commitReady
  cases io.lightReady.commitIndex with
  | none => rfl
  | some commit =>
    obtain ⟨s', hs', -⟩ := updateCommit_represents h commit
    rw [hfaults]
    exact congrArg Prod.fst hs'

end

/-! ## Calls that run to their end -/

section
variable {σ Command Event : Type} [ProstMessage Entry] [ProstMessage HardState]
  [ProstMessage ConfState] [ProstMessage Snapshot] [ProstMessage ConfChange]
  [SerdeJson NodeMetadata] [StateMachine σ Command Event] [SerdeJson Command]

/-- A call that reaches step 13 ends well when no write of a snapshot fails. -/
theorem onReady_finishes {io : ReadyIo} {n : RaftNode σ Event RocksDBStorage}
    (hreach : ReachesSnapshot io n) (hfaults : io.snapshotFaults = Faults.none) :
    (onReady io n).1 = .next ∧ ∃ n₁ n₂, BeforeSnapshot io n n₁ ∧ SnapshotRun io n₁ .next n₂ ∧
      Notifies n₂ (onReady io n).2 := by
  have hrun := onReady_run hreach.ready n
  generalize (onReady io n).1 = out at hrun ⊢
  generalize (onReady io n).2 = n' at hrun ⊢
  cases hrun with
  | takeFailed err n' hf => exact absurd ⟨hreach.accepts, hreach.persists⟩ hf.refused
  | preCandidate n' take pre => exact absurd pre hreach.noPreCandidate
  | sendingFailed err n' hf =>
    exact absurd ⟨hreach.canSend, hreach.acceptsLight, hreach.commits⟩ hf.refused
  | snapshotFailed n₁ err n' before hs =>
    cases hs with
    | failed data s e due hstore =>
      obtain ⟨s₁, happly, -⟩ := applySnapshot_basedAt n₁.store (n₁.snapshotOf data)
      rw [hfaults] at hstore
      exact absurd (hstore.symm.trans happly) (by simp)
  | finished n₁ n₂ n' before snap watch => exact ⟨rfl, n₁, n₂, before, snap, watch⟩

end

end Raftoral

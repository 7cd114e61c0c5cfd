import Raftoral.Raft.CrashRecovery
import Raftoral.Raft.Node
import Raftoral.Raft.SnapshotInstall
import Raftoral.Raft.StorageReads

/-!
# The two variants of `RaftStorage`

The enum of `raft/generic/storage.rs`: a node runs on RocksDB or on raft-rs's `MemStorage`, and
every method passes its call on. The in-memory storage is not part of the repository; what its
`apply_snapshot` and `snapshot` are known to do is part of the class below.

`apply_snapshot_with_data` is the call by which a node stores a snapshot of its own. On RocksDB it
records the snapshot and keeps the entries behind it. On `MemStorage` it is the call that installs
a leader's snapshot: the entries are dropped, and the data with them.
-/

namespace Raftoral

/-- raft-rs's `MemStorage`, as far as the enum uses it. -/
class MemStorage (M : Type) where
  initialState : M → Except StorageError RaftState
  entries : M → ℕ → ℕ → Option ℕ → Except StorageError (List Entry)
  term : M → ℕ → Except StorageError ℕ
  firstIndex : M → Except StorageError ℕ
  lastIndex : M → Except StorageError ℕ
  snapshot : M → ℕ → ℕ → Except StorageError Snapshot
  applySnapshot : M → Snapshot → Except StorageError Unit × M
  append : M → List Entry → Except StorageError Unit × M
  hardState : M → HardState
  /-- `mut_hard_state`. -/
  setHardState : M → HardState → M
  /-- All entries are dropped, so the log ends at the snapshot. -/
  lastIndex_applySnapshot : ∀ {m m' s}, applySnapshot m s = (.ok (), m') →
    lastIndex m' = .ok s.metadata.index
  /-- Only the metadata of a snapshot is kept: it is answered with empty data. -/
  snapshot_applySnapshot : ∀ {m m' s}, applySnapshot m s = (.ok (), m') →
    ∀ request target, request ≤ s.metadata.index →
      ∃ answer, snapshot m' request target = .ok answer ∧
        answer.metadata.index = s.metadata.index ∧ answer.data = []

namespace RaftStorage

/-- Storage type that can be either RocksDB (persistent) or in-memory. -/
inductive Variant (M : Type) where
  | rocksDB (s : RocksDBStorage)
  | memory (m : M)

namespace Variant

variable {M : Type} [MemStorage M] [ProstMessage Entry] [ProstMessage HardState]
  [ProstMessage ConfState] [ProstMessage Snapshot]

def initialState : Variant M → Except StorageError RaftState
  | .rocksDB s => s.initialState
  | .memory m => MemStorage.initialState m

def entries (low high : ℕ) (maxSize : Option ℕ) : Variant M → Except StorageError (List Entry)
  | .rocksDB s => s.entries low high maxSize
  | .memory m => MemStorage.entries m low high maxSize

def term (idx : ℕ) : Variant M → Except StorageError ℕ
  | .rocksDB s => s.term idx
  | .memory m => MemStorage.term m idx

def firstIndex : Variant M → Except StorageError ℕ
  | .rocksDB s => s.firstIndex
  | .memory m => MemStorage.firstIndex m

def lastIndex : Variant M → Except StorageError ℕ
  | .rocksDB s => s.lastIndex
  | .memory m => MemStorage.lastIndex m

def snapshot (requestIndex target : ℕ) : Variant M → Except StorageError Snapshot
  | .rocksDB s => s.snapshot requestIndex
  | .memory m => MemStorage.snapshot m requestIndex target

/-- The answer of an operation on one of the storages, with the storage in its new state. -/
def wrap {S : Type} (f : S → Variant M) (r : Except StorageError Unit × S) :
    Except StorageError Unit × Variant M :=
  (r.1, f r.2)

/-- `MemStorage` doesn't have `apply_snapshot_with_data`, `apply_snapshot` is used instead. -/
def applySnapshotWithData (w : Faults) (store : Variant M) (snapshot : Snapshot) :
    Except StorageError Unit × Variant M :=
  match store with
  | .rocksDB s => wrap .rocksDB (s.applySnapshot w snapshot)
  | .memory m => wrap .memory (MemStorage.applySnapshot m snapshot)

def setHardstate (w : Faults) (store : Variant M) (hs : HardState) :
    Except StorageError Unit × Variant M :=
  match store with
  | .rocksDB s => wrap .rocksDB (s.storeHardState w hs)
  | .memory m => (.ok (), .memory (MemStorage.setHardState m hs))

def updateCommit (w : Faults) (store : Variant M) (commit : ℕ) :
    Except StorageError Unit × Variant M :=
  match store with
  | .rocksDB s => wrap .rocksDB (s.updateCommit w commit)
  | .memory m => (.ok (), .memory (MemStorage.setHardState m
      { MemStorage.hardState m with commit := commit }))

def append (w : Faults) (store : Variant M) (es : List Entry) :
    Except StorageError Unit × Variant M :=
  match store with
  | .rocksDB s => wrap .rocksDB (s.append w es)
  | .memory m => wrap .memory (MemStorage.append m es)

def hardState : Variant M → HardState
  | .rocksDB s => s.hardState
  | .memory m => MemStorage.hardState m

instance : RaftStorage (Variant M) where
  append := Variant.append
  setHardstate := Variant.setHardstate
  updateCommit := Variant.updateCommit
  applySnapshotWithData := Variant.applySnapshotWithData
  hardState := Variant.hardState
  term store idx := store.term idx

/-! ## Storing a snapshot of the node itself -/

/-- What a node relies on when it stores a snapshot: the log ends where it ended, the entries
behind the snapshot are answered as before, and the snapshot is answered with its data. -/
structure SnapshotContract (before after : Variant M) (s : Snapshot) : Prop where
  lastIndex : after.lastIndex = before.lastIndex
  entries : ∀ low high maxSize es last, before.lastIndex = .ok last → s.metadata.index < low →
    low < high → high ≤ last + 1 →
      before.entries low high maxSize = .ok es → after.entries low high maxSize = .ok es
  snapshot : ∀ request target, request ≤ s.metadata.index →
    ∃ answer, after.snapshot request target = .ok answer ∧
      answer.metadata.index = s.metadata.index ∧ answer.data = s.data

/-- Nothing is lost: RocksDB keeps all of it, an in-memory storage has nothing to lose if the log
ends at the snapshot and the snapshot is without data. -/
def LosesNothing (s : Snapshot) : Variant M → Prop
  | .rocksDB _ => True
  | .memory m => MemStorage.lastIndex m = .ok s.metadata.index ∧ s.data = []

omit [ProstMessage HardState] in
theorem rocksDB_snapshotContract {w : Faults} {s s' : RocksDBStorage} {snapshot : Snapshot}
    (h : s.applySnapshot w snapshot = (.ok (), s')) :
    SnapshotContract (.rocksDB s : Variant M) (.rocksDB s') snapshot := by
  have hstate := perform_ok h
  have hload : ∀ i, s'.loadEntry i = s.loadEntry i := by
    intro i
    rw [hstate]
    rfl
  have hlast : s'.lastIndexCache = s.lastIndexCache := by rw [hstate]; rfl
  have hfirst : s'.firstIndexCache = U64.add snapshot.metadata.index 1 := by rw [hstate]; rfl
  refine ⟨?_, ?_, ?_⟩
  · show Except.ok s'.lastIndexCache = Except.ok s.lastIndexCache
    rw [hlast]
  · intro low high maxSize es last _ hlow hhigh _ hbefore
    have hle : U64.add snapshot.metadata.index 1 ≤ low := (Nat.mod_le _ _).trans hlow
    simp only [Variant.entries, RocksDBStorage.entries] at hbefore ⊢
    rw [if_neg (by omega)] at hbefore ⊢
    rw [hfirst, if_neg (by omega), hlast, entriesLoop_congr fun i _ _ => hload i]
    by_cases hcompacted : low < s.firstIndexCache
    · rw [if_pos hcompacted] at hbefore
      exact absurd hbefore (by simp)
    · rwa [if_neg hcompacted] at hbefore
  · intro request target hrequest
    refine ⟨snapshot, ?_, rfl, rfl⟩
    simp only [Variant.snapshot, RocksDBStorage.snapshot, RocksDBStorage.getSnapshot,
      applySnapshot_stored h]
    simp [Except.map, Except.mapError, Nat.not_lt.mpr hrequest]

omit [ProstMessage HardState] [ProstMessage ConfState] in
theorem memory_snapshotContract_iff {m m' : M} {snapshot : Snapshot}
    (h : MemStorage.applySnapshot m snapshot = (.ok (), m')) :
    SnapshotContract (.memory m : Variant M) (.memory m') snapshot ↔
      MemStorage.lastIndex m = .ok snapshot.metadata.index ∧ snapshot.data = [] := by
  have hlast := MemStorage.lastIndex_applySnapshot h
  have hsnapshot := MemStorage.snapshot_applySnapshot h
  constructor
  · intro hcontract
    refine ⟨?_, ?_⟩
    · rw [← hlast]
      exact hcontract.lastIndex.symm
    · obtain ⟨answer, hanswer, -, hdata⟩ := hcontract.snapshot 0 0 (Nat.zero_le _)
      obtain ⟨answer', hanswer', -, hempty⟩ := hsnapshot 0 0 (Nat.zero_le _)
      have heq : (Except.ok answer : Except StorageError Snapshot) = .ok answer' :=
        hanswer.symm.trans hanswer'
      rw [← hdata, Except.ok.inj heq, hempty]
  · rintro ⟨hindex, hdata⟩
    refine ⟨hlast.trans hindex.symm, ?_, ?_⟩
    · intro low high maxSize es last hbefore hlow hhigh hle
      have hlast' : last = snapshot.metadata.index := Except.ok.inj (hbefore.symm.trans hindex)
      omega
    · rw [hdata]
      exact hsnapshot

end Variant

end RaftStorage

namespace RaftNode

variable {σ Command Event M : Type} [MemStorage M] [ProstMessage Entry] [ProstMessage HardState]
  [ProstMessage ConfState] [ProstMessage Snapshot] [StateMachine σ Command Event]

open RaftStorage

/-- `maybe_create_snapshot` takes a snapshot, and it is stored. -/
def TakesSnapshot (io : ReadyIo) (n : RaftNode σ Event (Variant M)) (s : Snapshot) : Prop :=
  n.snapshotInterval ≠ 0 ∧
  n.snapshotInterval ≤ U64.sub n.committedIndex n.lastSnapshotIndex ∧
  ∃ data, StateMachine.snapshot n.stateMachine = .ok data ∧ s = n.snapshotOf data ∧
    (Variant.applySnapshotWithData io.snapshotFaults n.store s).1 = .ok ()

/-- A snapshot that a node takes is stored as the node relies on exactly when the node runs on
RocksDB, or the log ends at the snapshot and the snapshot is without data. -/
theorem snapshotContract_iff {io : ReadyIo} {n : RaftNode σ Event (Variant M)} {s : Snapshot}
    (h : TakesSnapshot io n s) :
    Variant.SnapshotContract n.store (maybeCreateSnapshot io n).2.store s ↔
      Variant.LosesNothing s n.store := by
  obtain ⟨hinterval, hdue, data, hdata, rfl, hok⟩ := h
  rcases happly : Variant.applySnapshotWithData io.snapshotFaults n.store (n.snapshotOf data) with
    ⟨answer, store⟩
  rw [happly] at hok
  obtain rfl : answer = .ok () := hok
  have hstore : (maybeCreateSnapshot io n).2.store = store := by
    have happly' : RaftStorage.applySnapshotWithData io.snapshotFaults n.store (n.snapshotOf data) =
        (.ok (), store) := happly
    rw [maybeCreateSnapshot, if_neg hinterval, if_neg (Nat.not_lt.mpr hdue), hdata]
    simp only [happly']
    rfl
  rw [hstore]
  cases hvariant : n.store with
  | rocksDB s =>
    rw [hvariant] at happly
    obtain ⟨hanswer, rfl⟩ := Prod.mk.inj happly
    refine iff_of_true ?_ trivial
    exact Variant.rocksDB_snapshotContract (Prod.ext hanswer rfl)
  | memory m =>
    rw [hvariant] at happly
    obtain ⟨hanswer, rfl⟩ := Prod.mk.inj happly
    exact Variant.memory_snapshotContract_iff (Prod.ext hanswer rfl)

end RaftNode

/-! ## An in-memory storage -/

/-- The entries, the hard state and the metadata of the last snapshot. -/
structure MemCore where
  entries : List Entry := []
  snapshotMetadata : SnapshotMetadata := {}
  hardState : HardState := {}
  confState : ConfState := {}

namespace MemCore

def firstIndex (c : MemCore) : ℕ :=
  (c.entries.head?.map (·.index)).getD (c.snapshotMetadata.index + 1)

def lastIndex (c : MemCore) : ℕ :=
  (c.entries.getLast?.map (·.index)).getD c.snapshotMetadata.index

def term (c : MemCore) (idx : ℕ) : Except StorageError ℕ :=
  if idx = c.snapshotMetadata.index then .ok c.snapshotMetadata.term
  else if idx < c.firstIndex then .error .compacted
  else match c.entries[idx - c.firstIndex]? with
    | some entry => .ok entry.term
    | none => .error .unavailable

/-- A snapshot older than the log is refused; any other one replaces the log. -/
def applySnapshot (c : MemCore) (s : Snapshot) : Except StorageError Unit × MemCore :=
  if s.metadata.index < c.firstIndex then (.error (.other "snapshot out of date"), c)
  else (.ok (), {
    entries := []
    snapshotMetadata := s.metadata
    hardState :=
      { c.hardState with term := max c.hardState.term s.metadata.term, commit := s.metadata.index }
    confState := s.metadata.confState })

theorem applySnapshot_ok {c c' : MemCore} {s : Snapshot} (h : c.applySnapshot s = (.ok (), c')) :
    c'.entries = [] ∧ c'.snapshotMetadata = s.metadata ∧
      c'.hardState.commit = s.metadata.index := by
  unfold applySnapshot at h
  split at h
  · exact absurd h (by simp)
  · obtain ⟨-, rfl⟩ := Prod.mk.inj h
    exact ⟨rfl, rfl, rfl⟩

/-- Reads are not limited in size here. -/
instance : MemStorage MemCore where
  initialState c := .ok { hardState := c.hardState, confState := c.confState }
  entries c low high _ :=
    if low < c.firstIndex then .error .compacted
    else if c.lastIndex + 1 < high then .error .unavailable
    else .ok ((c.entries.drop (low - c.firstIndex)).take (high - low))
  term := term
  firstIndex c := .ok c.firstIndex
  lastIndex c := .ok c.lastIndex
  snapshot c request _ := (c.term c.hardState.commit).map fun term =>
    { metadata := { confState := c.confState, index := max c.hardState.commit request, term } }
  applySnapshot := applySnapshot
  append c es := (.ok (), { c with
    entries := c.entries.take ((es.head?.map (·.index)).getD 0 - c.firstIndex) ++ es })
  hardState := hardState
  setHardState c hs := { c with hardState := hs }
  lastIndex_applySnapshot h := by
    obtain ⟨hentries, hmetadata, -⟩ := applySnapshot_ok h
    simp [lastIndex, hentries, hmetadata]
  snapshot_applySnapshot h request target hrequest := by
    obtain ⟨-, hmetadata, hcommit⟩ := applySnapshot_ok h
    simp [term, hmetadata, hcommit, Except.map, hrequest]

end MemCore

namespace RaftNode

open RaftStorage

open scoped Codec

/-- A node of a key-value store that is to take a snapshot of its first two entries. -/
def dueForSnapshot (store : Variant MemCore) : RaftNode KvStateMachine KvEvent (Variant MemCore) :=
  { newWithConfState { snapshotInterval := 2 } (fun _ => none) {} { voters := [1] } store with
    committedIndex := 2 }

def noReady : ReadyIo where
  applyConfChange _ := .error "no configuration change"

/-- Three entries, of which two are committed. -/
def threeEntriesLog : List Entry :=
  [{ term := 1, index := 1 }, { term := 1, index := 2 }, { term := 1, index := 3 }]

theorem takesSnapshot_dueForSnapshot (store : Variant MemCore)
    (h : ∀ s : Snapshot, s.metadata.index = 2 →
      (Variant.applySnapshotWithData Faults.none store s).1 = .ok ()) :
    ∃ s, TakesSnapshot noReady (dueForSnapshot store) s := by
  refine ⟨_, ?_, ?_, _, rfl, rfl, h _ rfl⟩
  · show 2 ≠ 0
    decide
  · show 2 ≤ U64.sub 2 0
    decide

/-- On RocksDB the third entry and the data are kept. -/
theorem snapshotContract_rocksDB : ∃ s₀ s₁ snapshot,
    (RocksDBStorage.openOrCreate Faults.none {} 1 { voters := [1] }).1 = .ok s₀ ∧
      s₀.append Faults.none threeEntriesLog = (.ok (), s₁) ∧
      TakesSnapshot noReady (dueForSnapshot (.rocksDB s₁)) snapshot ∧
      Variant.SnapshotContract (.rocksDB s₁)
        (maybeCreateSnapshot noReady (dueForSnapshot (.rocksDB s₁))).2.store snapshot := by
  obtain ⟨s₀, hopen, -⟩ := open_fresh_represents 1 { voters := [1] }
  have happend : s₀.append Faults.none threeEntriesLog =
      (.ok (), (s₀.append Faults.none threeEntriesLog).2) := by
    refine Prod.ext ?_ rfl
    simp [RocksDBStorage.append, threeEntriesLog, perform_none]
  obtain ⟨snapshot, htakes⟩ := takesSnapshot_dueForSnapshot
    (.rocksDB (s₀.append Faults.none threeEntriesLog).2) fun s _ => by
      simp [Variant.applySnapshotWithData, Variant.wrap, RocksDBStorage.applySnapshot, perform_none]
  exact ⟨s₀, _, snapshot, hopen, happend, htakes, (snapshotContract_iff htakes).mpr trivial⟩

/-- In memory the third entry is lost: the log ends at the snapshot. -/
theorem memory_loses_entries : ∃ snapshot,
    TakesSnapshot noReady (dueForSnapshot (.memory { entries := threeEntriesLog })) snapshot ∧
      ¬ Variant.SnapshotContract (.memory { entries := threeEntriesLog })
        (maybeCreateSnapshot noReady (dueForSnapshot
          (.memory { entries := threeEntriesLog }))).2.store snapshot := by
  obtain ⟨snapshot, htakes⟩ := takesSnapshot_dueForSnapshot
    (.memory { entries := threeEntriesLog }) fun s hs => by
      simp [Variant.applySnapshotWithData, Variant.wrap, MemStorage.applySnapshot,
        MemCore.applySnapshot, hs, MemCore.firstIndex, threeEntriesLog]
  refine ⟨snapshot, htakes, fun hcontract => ?_⟩
  have hlast : Variant.lastIndex (maybeCreateSnapshot noReady (dueForSnapshot
      (.memory { entries := threeEntriesLog }))).2.store = .ok 2 := by rfl
  have hkept := hlast.symm.trans hcontract.lastIndex
  exact absurd (Except.ok.inj hkept) (by decide)

end RaftNode

end Raftoral

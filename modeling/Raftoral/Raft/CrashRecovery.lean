import Raftoral.Raft.Reopen

/-!
# Crashes between the steps of an operation

Every write of an operation is atomic and durable. A crash behind some of the steps leaves the
database as these steps have made it; the caches are gone, and the next process opens the path.

An append and the state records are one write each, so they happen or they do not. The others
are several writes, and what a crash leaves between them is recovered as it stands:

* the hard state is the mark of an initialised database, but the indices are written after it;
* a compaction deletes its entries one by one before it moves the first index;
* a snapshot is stored before the configuration and the first index that go with it.
-/

namespace Raftoral

open ProstMessage

section
variable [ProstMessage Entry] [ProstMessage HardState] [ProstMessage ConfState]
  [ProstMessage Snapshot]

/-! ## What the answers depend on -/

omit [ProstMessage HardState] [ProstMessage ConfState] [ProstMessage Snapshot] in
theorem entriesLoop_congr {s s' : RocksDBStorage} {maxSize : Option ℕ} {n idx total : ℕ}
    (h : ∀ i, idx ≤ i → i < idx + n → s.loadEntry i = s'.loadEntry i) :
    s.entriesLoop maxSize n idx total = s'.entriesLoop maxSize n idx total := by
  induction n generalizing idx total with
  | zero => rfl
  | succ n ih =>
    rw [RocksDBStorage.entriesLoop, RocksDBStorage.entriesLoop, h idx (Nat.le_refl _) (by omega)]
    have hrest : ∀ total, s.entriesLoop maxSize n (idx + 1) total =
        s'.entriesLoop maxSize n (idx + 1) total := by
      intro total
      exact ih fun i hlo hhi => h i (by omega) (by omega)
    simp only [hrest]

/-- Two storages have the same indices, and under them the same entries. -/
structure SameEntries (s s' : RocksDBStorage) : Prop where
  first : s.firstIndexCache = s'.firstIndexCache
  last : s.lastIndexCache = s'.lastIndexCache
  entry : ∀ i, s.firstIndexCache ≤ i → i ≤ s.lastIndexCache → s.loadEntry i = s'.loadEntry i

omit [ProstMessage HardState] [ProstMessage ConfState] [ProstMessage Snapshot] in
theorem SameEntries.entryTerm {s s' : RocksDBStorage} (h : SameEntries s s') (idx : ℕ) :
    s.entryTerm idx = s'.entryTerm idx := by
  unfold RocksDBStorage.entryTerm
  rw [← h.first, ← h.last]
  by_cases h₁ : idx < s.firstIndexCache
  · rw [if_pos h₁, if_pos h₁]
  · by_cases h₂ : s.lastIndexCache < idx
    · rw [if_neg h₁, if_neg h₁, if_pos h₂, if_pos h₂]
    · rw [if_neg h₁, if_neg h₁, if_neg h₂, if_neg h₂, h.entry idx (by omega) (by omega)]

omit [ProstMessage HardState] [ProstMessage ConfState] [ProstMessage Snapshot] in
theorem SameEntries.entries {s s' : RocksDBStorage} (h : SameEntries s s') (low high : ℕ)
    (maxSize : Option ℕ) : s.entries low high maxSize = s'.entries low high maxSize := by
  unfold RocksDBStorage.entries
  rw [← h.first, ← h.last]
  split
  · rfl
  · split
    · rfl
    · split
      · rfl
      · next hne hlow hhigh =>
        -- the sum wraps around, so it is at most what it should be
        have hwrap : U64.add s.lastIndexCache 1 ≤ s.lastIndexCache + 1 := Nat.mod_le _ _
        exact entriesLoop_congr fun i hlo hhi => h.entry i (by omega) (by omega)

omit [ProstMessage HardState] [ProstMessage ConfState] in
theorem SameEntries.term {s s' : RocksDBStorage} (h : SameEntries s s')
    (hsnap : s.getSnapshot = s'.getSnapshot) (idx : ℕ) : s.term idx = s'.term idx := by
  rw [RocksDBStorage.term, RocksDBStorage.term, hsnap]
  simp only [h.entryTerm]

/-- The answers depend on the records, the cached indices and the entries between them. -/
theorem SameAnswers.of_reads {s s' : RocksDBStorage} (hhard : s.loadHardState = s'.loadHardState)
    (hconf : s.loadConfState = s'.loadConfState) (hsnap : s.getSnapshot = s'.getSnapshot)
    (hfirst : s.firstIndexCache = s'.firstIndexCache)
    (hlast : s.lastIndexCache = s'.lastIndexCache)
    (hentry : ∀ i, s.firstIndexCache ≤ i → i ≤ s.lastIndexCache →
      s.loadEntry i = s'.loadEntry i) : SameAnswers s s' := by
  have hsame : SameEntries s s' := ⟨hfirst, hlast, hentry⟩
  refine ⟨?_, ?_, ?_, hsame.entries, hsame.term hsnap, ?_⟩
  · rw [RocksDBStorage.initialState, RocksDBStorage.initialState, hhard, hconf]
  · rw [RocksDBStorage.firstIndex, RocksDBStorage.firstIndex, hfirst]
  · rw [RocksDBStorage.lastIndex, RocksDBStorage.lastIndex, hlast]
  · intro requestIndex
    rw [RocksDBStorage.snapshot, RocksDBStorage.snapshot, hsnap]

/-! ## Crashes -/

/-- The database behind the first `k` steps. -/
def crashAfter (k : ℕ) (actions : List Action) (s : RocksDBStorage) : Db :=
  ((actions.take k).foldl (fun s a => a.apply s) s).db

/-- A step that reaches the database. -/
def Action.isWrite : Action → Bool
  | .write _ => true
  | .storeFirst _ | .storeLast _ => false

section
omit [ProstMessage Entry] [ProstMessage HardState] [ProstMessage ConfState]
  [ProstMessage Snapshot]
variable {s : RocksDBStorage} {k : ℕ} {actions : List Action}

theorem foldl_stores (h : ∀ a ∈ actions, a.isWrite = false) :
    (actions.foldl (fun s a => a.apply s) s).db = s.db := by
  induction actions generalizing s with
  | nil => rfl
  | cons a actions ih =>
    rw [List.foldl_cons, ih fun b hb => h b (List.mem_cons_of_mem a hb)]
    have ha := h a List.mem_cons_self
    cases a with
    | write batch => exact absurd ha (by simp [Action.isWrite])
    | storeFirst i => rfl
    | storeLast i => rfl

/-- Before the first write the database is the old one. -/
theorem crashAfter_eq_before (h : ∀ a ∈ actions.take k, a.isWrite = false) :
    crashAfter k actions s = s.db := foldl_stores h

/-- Behind the last write it is the new one. -/
theorem crashAfter_eq_after (h : ∀ a ∈ actions.drop k, a.isWrite = false) :
    crashAfter k actions s = (actions.foldl (fun s a => a.apply s) s).db := by
  conv_rhs => rw [← List.take_append_drop k actions, List.foldl_append, foldl_stores h]
  rfl

end

/-- A path that was opened for the first time and crashed behind `k` steps is found as a new one
that was initialised. -/
def OpenRecovers (nodeId : ℕ) (cs : ConfState) (k : ℕ) : Prop :=
  ∃ fresh r, (RocksDBStorage.openOrCreate Faults.none {} nodeId cs).1 = .ok fresh ∧
    (RocksDBStorage.openOrCreate Faults.none (crashAfter k
      (RocksDBStorage.initActions nodeId cs) { db := {}, firstIndexCache := 0, lastIndexCache := 0 })
      nodeId cs).1 = .ok r ∧
    SameAnswers r fresh ∧ r.initialState = .ok { hardState := {}, confState := cs } ∧
    r.firstIndex = .ok 1 ∧ r.lastIndex = .ok 0

/-- An operation of a storage, if it succeeds. -/
def StorageOp.step (s : RocksDBStorage) (op : StorageOp) : Option RocksDBStorage :=
  match op.run Faults.none s with
  | (.ok (), s') => some s'
  | (.error _, _) => none

/-- A path that crashed behind `k` steps of an operation is found as before the operation, or as
after it. -/
def Recovers (nodeId : ℕ) (cs : ConfState) (s : RocksDBStorage) (op : StorageOp) (k : ℕ) : Prop :=
  ∃ r, (RocksDBStorage.openOrCreate Faults.none (crashAfter k (op.actions s) s) nodeId cs).1 =
      .ok r ∧
    (SameAnswers r s ∨ ∃ s', op.step s = some s' ∧ SameAnswers r s')

/-- A crash behind `k` steps does no harm. A compaction may have deleted only what was not there;
a snapshot may have changed only what it does not change, or have nothing left to change. -/
def StorageOp.SafeAt (s : RocksDBStorage) (k : ℕ) : StorageOp → Prop
  | .compact throughIndex =>
    throughIndex + 1 - s.firstIndexCache < k ∨
      ∀ i, s.firstIndexCache ≤ i → i < s.firstIndexCache + k → i ≤ s.lastIndexCache →
        s.db.entries i = none
  | .applySnapshot snapshot =>
    (k = 1 → s.getSnapshot = .ok (some snapshot) ∨
      s.loadConfState = .ok snapshot.metadata.confState ∧
        s.firstIndexCache = U64.add snapshot.metadata.index 1) ∧
    (k = 2 → s.getSnapshot = .ok (some snapshot) ∧
        s.loadConfState = .ok snapshot.metadata.confState ∨
      s.firstIndexCache = U64.add snapshot.metadata.index 1)
  | .append _ | .storeHardState _ | .updateCommit _ | .storeConfState _ => True

/-! ## The first open -/

/-- The metadata of a database that was just initialised. -/
def initialMetadata (nodeId : ℕ) (cs : ConfState) : MetaKey → Option Bytes
  | .nodeId => some (U64.toBeBytes nodeId)
  | .hardState => some (encodeToVec ({} : HardState))
  | .confState => some (encodeToVec cs)
  | .firstIndex => some (U64.toBeBytes 1)
  | .lastIndex => some (U64.toBeBytes 0)

section
variable {nodeId : ℕ} {cs : ConfState} {db : Db}

omit [ProstMessage Entry] [ProstMessage Snapshot] in
/-- The steps of the initialisation write every key of the metadata. -/
theorem foldl_initActions (s : RocksDBStorage) :
    (RocksDBStorage.initActions nodeId cs).foldl (fun s a => a.apply s) s =
      { s with db.metadata := initialMetadata nodeId cs } := by
  simp only [RocksDBStorage.initActions, List.foldl_cons, List.foldl_nil, Action.apply,
    Db.write_cons, Db.write_nil, DbWrite.apply]
  congr 2
  funext key
  cases key <;> simp [initialMetadata]

omit [ProstMessage Entry] [ProstMessage Snapshot] in
/-- A database without the mark is initialised, whatever else it has. -/
theorem openOrCreate_of_unmarked (nodeId : ℕ) (cs : ConfState) (h : db.metadata .hardState = none) :
    (RocksDBStorage.openOrCreate Faults.none db nodeId cs).1 = .ok
      { db := { db with metadata := initialMetadata nodeId cs }
        firstIndexCache := 1
        lastIndexCache := 0 } := by
  unfold RocksDBStorage.openOrCreate RocksDBStorage.initializeIfNeeded
  simp only [h, Option.isSome_none, Bool.false_eq_true, if_false]
  rw [perform_none, foldl_initActions]
  rfl

omit [ProstMessage Entry] [ProstMessage Snapshot] in
/-- A database with the mark is taken as it is. -/
theorem openOrCreate_of_marked (hn : nodeId < U64.size) (hhard : (db.metadata .hardState).isSome)
    (hnode : db.metadata .nodeId = some (U64.toBeBytes nodeId)) :
    (RocksDBStorage.openOrCreate Faults.none db nodeId cs).1 =
      RocksDBStorage.reloadIndexCaches { db := db, firstIndexCache := 0, lastIndexCache := 0 } := by
  have hload : RocksDBStorage.loadNodeId db = .ok (some nodeId) := by
    unfold RocksDBStorage.loadNodeId
    rw [hnode]
    simp [hn]
  unfold RocksDBStorage.openOrCreate RocksDBStorage.initializeIfNeeded
  simp [hhard, hload]

omit [ProstMessage Entry] [ProstMessage Snapshot] in
theorem initialState_of_initial {s : RocksDBStorage}
    (hhard : s.db.metadata .hardState = some (encodeToVec ({} : HardState)))
    (hconf : s.db.metadata .confState = some (encodeToVec cs)) :
    s.initialState = .ok { hardState := {}, confState := cs } := by
  rw [RocksDBStorage.initialState, RocksDBStorage.loadHardState, RocksDBStorage.loadConfState,
    hhard, hconf]
  simp [RocksDBStorage.loadOr, Except.mapError, bind, Except.bind, pure, Except.pure]

/-- The indices are written behind the mark; until the first of them is there, a crash leaves an
initialised database without it. -/
theorem openRecovers_iff (hn : nodeId < U64.size) (k : ℕ) :
    OpenRecovers nodeId cs k ↔ k < 2 ∨ 4 ≤ k := by
  have hfresh := openOrCreate_of_unmarked nodeId cs (rfl : ({} : Db).metadata .hardState = none)
  have hstate : ∀ s : RocksDBStorage, s.db.metadata = initialMetadata nodeId cs →
      s.initialState = .ok { hardState := {}, confState := cs } := by
    intro s hs
    refine initialState_of_initial ?_ ?_
    · rw [hs]
      rfl
    · rw [hs]
      rfl
  match k with
  | 0 => exact ⟨fun _ => by omega, fun _ => ⟨_, _, hfresh, hfresh, .refl _, hstate _ rfl, rfl, rfl⟩⟩
  | 1 =>
    -- only the node id is there
    exact ⟨fun _ => by omega, fun _ => ⟨_, _, hfresh, openOrCreate_of_unmarked nodeId cs rfl,
      .refl _, hstate _ rfl, rfl, rfl⟩⟩
  | 2 | 3 =>
    refine ⟨?_, fun h => by omega⟩
    rintro ⟨fresh, r, -, hr, -, -, hfirst, -⟩
    rw [openOrCreate_of_marked hn rfl rfl] at hr
    obtain rfl := Except.ok.inj hr
    exact absurd hfirst (by simp [RocksDBStorage.firstIndex])
  | 4 =>
    -- a last index that is not there reads as zero
    refine ⟨fun _ => by omega, fun _ => ⟨_, _, hfresh, openOrCreate_of_marked hn rfl rfl, ?_⟩⟩
    refine ⟨.of_reads rfl rfl rfl rfl rfl fun _ _ _ => rfl, initialState_of_initial rfl rfl, rfl,
      rfl⟩
  | k + 5 =>
    have hall : crashAfter (k + 5) (RocksDBStorage.initActions nodeId cs)
        { db := {}, firstIndexCache := 0, lastIndexCache := 0 } =
          { metadata := initialMetadata nodeId cs } := by
      rw [crashAfter, List.take_of_length_le (by simp [RocksDBStorage.initActions]),
        foldl_initActions]
    refine ⟨fun _ => by omega, fun _ => ⟨_, _, hfresh, ?_, .refl _, hstate _ rfl, rfl, rfl⟩⟩
    rw [hall, openOrCreate_of_marked hn rfl rfl]
    rfl

end

/-! ## The other operations -/

/-- A storage in use: it can be reopened, and the index behind its log is a word. -/
structure Usable (nodeId : ℕ) (s : RocksDBStorage) : Prop where
  durable : Durable nodeId s
  hard : ∃ hs, s.loadHardState = .ok hs
  conf : ∃ cs, s.loadConfState = .ok cs
  room : s.lastIndexCache + 1 < U64.size

section
variable {nodeId : ℕ} {cs : ConfState} {s s' : RocksDBStorage} {op : StorageOp} {k : ℕ}

theorem StorageOp.step_eq (h : op.step s = some s') : op.run Faults.none s = (.ok (), s') := by
  unfold StorageOp.step at h
  split at h
  · next hrun =>
    rw [Option.some.injEq] at h
    rw [hrun, h]
  · exact absurd h (by simp)

/-- Every operation succeeds. -/
theorem Usable.step_some (h : Usable nodeId s) (op : StorageOp) :
    op.step s = some ((op.actions s).foldl (fun s a => a.apply s) s) := by
  obtain ⟨hs, hload⟩ := h.hard
  have hdone : ∀ actions : List Action, perform Faults.none actions s =
      (.ok (), actions.foldl (fun s a => a.apply s) s) := fun actions => perform_none actions s
  unfold StorageOp.step
  cases op with
  | append es =>
    cases es with
    | nil => rfl
    | cons e es =>
      rw [StorageOp.run, RocksDBStorage.append, StorageOp.actions, List.head?_cons,
        List.getLast?_eq_some_getLast (List.cons_ne_nil e es)]
      simp only [hdone]
  | compact throughIndex => simp only [StorageOp.run, RocksDBStorage.compact, hdone]; rfl
  | applySnapshot snapshot => simp only [StorageOp.run, RocksDBStorage.applySnapshot, hdone]; rfl
  | storeHardState hs => simp only [StorageOp.run, RocksDBStorage.storeHardState, hdone]; rfl
  | updateCommit commit =>
    simp only [StorageOp.run, RocksDBStorage.updateCommit, StorageOp.actions, hload,
      RocksDBStorage.storeHardState, hdone]
  | storeConfState cs => simp only [StorageOp.run, RocksDBStorage.storeConfState, hdone]; rfl

omit [ProstMessage Entry] [ProstMessage ConfState] [ProstMessage Snapshot] in
/-- A write of the hard state can be read back. -/
theorem loadHardState_of_stored {hs : HardState}
    (h : s.db.metadata .hardState = some (encodeToVec hs)) : s.loadHardState = .ok hs := by
  rw [RocksDBStorage.loadHardState, h]
  simp [RocksDBStorage.loadOr, Except.mapError]

omit [ProstMessage Entry] [ProstMessage HardState] [ProstMessage Snapshot] in
theorem loadConfState_of_stored {cs : ConfState}
    (h : s.db.metadata .confState = some (encodeToVec cs)) : s.loadConfState = .ok cs := by
  rw [RocksDBStorage.loadConfState, h]
  simp [RocksDBStorage.loadOr, Except.mapError]

omit [ProstMessage HardState] [ProstMessage ConfState] [ProstMessage Snapshot] in
/-- An append writes entries and indices. -/
theorem foldl_appendActions (es : List Entry) (first last : Entry) :
    ((s.appendActions es first last).foldl (fun s a => a.apply s) s).db.metadata .hardState =
        s.db.metadata .hardState ∧
      ((s.appendActions es first last).foldl (fun s a => a.apply s) s).db.metadata .confState =
        s.db.metadata .confState ∧
      ((s.appendActions es first last).foldl (fun s a => a.apply s) s).lastIndexCache =
        last.index := by
  unfold RocksDBStorage.appendActions
  by_cases hz : s.lastIndexCache = 0
  · simp [hz, Action.apply, DbWrite.apply, metadata_write_puts]
  · simp [hz, Action.apply, DbWrite.apply, metadata_write_puts]

/-- Every operation leaves a storage in use. -/
theorem Usable.step (h : Usable nodeId s) (hop : op.IndicesBelow (U64.size - 1))
    (hstep : op.step s = some s') : Usable nodeId s' := by
  have hword : op.IndicesBelow U64.size := by
    cases op with
    | append es => exact fun e he => Nat.lt_of_lt_of_le (hop e he) (Nat.sub_le _ _)
    | compact throughIndex => exact Nat.lt_of_lt_of_le hop (Nat.sub_le _ _)
    | applySnapshot snapshot => exact Nat.lt_of_lt_of_le hop (Nat.sub_le _ _)
    | _ => trivial
  -- what is stored behind the log, and room for one more entry
  suffices hrest : (∃ hs, s'.loadHardState = .ok hs) ∧ (∃ cs, s'.loadConfState = .ok cs) ∧
      s'.lastIndexCache + 1 < U64.size from
    ⟨h.durable.run hword (StorageOp.step_eq hstep), hrest.1, hrest.2.1, hrest.2.2⟩
  obtain ⟨hs, hload⟩ := h.hard
  obtain ⟨cs, hconf⟩ := h.conf
  -- a record that is not written stays readable
  have hkept : ∀ t : RocksDBStorage, t.db.metadata .hardState = s.db.metadata .hardState →
      ∃ hs, t.loadHardState = .ok hs := by
    intro t ht
    refine ⟨hs, ?_⟩
    rw [← hload, RocksDBStorage.loadHardState, RocksDBStorage.loadHardState, ht]
  have hkept' : ∀ t : RocksDBStorage, t.db.metadata .confState = s.db.metadata .confState →
      ∃ cs, t.loadConfState = .ok cs := by
    intro t ht
    refine ⟨cs, ?_⟩
    rw [← hconf, RocksDBStorage.loadConfState, RocksDBStorage.loadConfState, ht]
  rw [h.step_some op, Option.some.injEq] at hstep
  subst hstep
  cases op with
  | append es =>
    simp only [StorageOp.actions]
    split
    · next first last hfirst hlast =>
      obtain ⟨hmeta, hmeta', hcache⟩ := foldl_appendActions (s := s) es first last
      refine ⟨hkept _ hmeta, hkept' _ hmeta', ?_⟩
      have hlt := hop last (List.mem_of_getLast? hlast)
      rw [hcache]
      omega
    · exact ⟨⟨hs, hload⟩, ⟨cs, hconf⟩, h.room⟩
  | compact throughIndex =>
    rw [StorageOp.actions, RocksDBStorage.compactActions, List.foldl_append, foldl_deleteEntry]
    exact ⟨hkept _ rfl, hkept' _ rfl, h.room⟩
  | applySnapshot snapshot =>
    exact ⟨hkept _ rfl, ⟨_, loadConfState_of_stored rfl⟩, h.room⟩
  | storeHardState hs => exact ⟨⟨hs, loadHardState_of_stored rfl⟩, hkept' _ rfl, h.room⟩
  | updateCommit commit =>
    rw [StorageOp.actions, hload]
    exact ⟨⟨_, loadHardState_of_stored rfl⟩, hkept' _ rfl, h.room⟩
  | storeConfState cs => exact ⟨hkept _ rfl, ⟨cs, loadConfState_of_stored rfl⟩, h.room⟩

omit [ProstMessage Entry] [ProstMessage Snapshot] in
/-- A crash that leaves the database of a storage in use is recovered to that storage. -/
theorem Durable.recover (h : Durable nodeId s) (hn : nodeId < U64.size) {db : Db}
    (hdb : db = s.db) :
    (RocksDBStorage.openOrCreate Faults.none db nodeId cs).1 = .ok s := by
  rw [hdb, h.reopen hn cs]

/-- An operation of one write recovers: the write has happened or it has not. -/
theorem Usable.recovers_of_write (h : Usable nodeId s) (hn : nodeId < U64.size)
    (hop : op.IndicesBelow (U64.size - 1))
    (hdb : crashAfter k (op.actions s) s = s.db ∨
      crashAfter k (op.actions s) s = ((op.actions s).foldl (fun s a => a.apply s) s).db) :
    Recovers nodeId cs s op k := by
  rcases hdb with hdb | hdb
  · exact ⟨s, h.durable.recover hn hdb, Or.inl (.refl s)⟩
  · have hafter := h.step_some op
    exact ⟨_, (h.step hop hafter).durable.recover hn hdb, Or.inr ⟨_, hafter, .refl _⟩⟩

theorem Usable.recovers_append (h : Usable nodeId s) (hn : nodeId < U64.size) {es : List Entry}
    (hop : (StorageOp.append es).IndicesBelow (U64.size - 1)) :
    Recovers nodeId cs s (.append es) k := by
  refine h.recovers_of_write hn hop ?_
  simp only [StorageOp.actions]
  split
  · next first last hfirst hlast =>
    unfold RocksDBStorage.appendActions
    by_cases hz : s.lastIndexCache = 0
    · simp only [hz, if_true]
      -- the cache of the first index comes before the write
      rcases k with _ | _ | k
      · exact Or.inl rfl
      · exact Or.inl rfl
      · refine Or.inr (crashAfter_eq_after fun a ha => ?_)
        rw [List.mem_singleton.mp (List.mem_of_mem_drop ha : a ∈ [.storeLast last.index])]
        rfl
    · simp only [hz, if_false]
      cases k with
      | zero => exact Or.inl rfl
      | succ k =>
        refine Or.inr (crashAfter_eq_after fun a ha => ?_)
        rw [List.mem_singleton.mp (List.mem_of_mem_drop ha : a ∈ [.storeLast last.index])]
        rfl
  · exact Or.inl (crashAfter_eq_before (by simp))

/-- An operation that writes one record. -/
theorem Usable.recovers_put (h : Usable nodeId s) (hn : nodeId < U64.size)
    (hop : op.IndicesBelow (U64.size - 1)) {batch : List DbWrite}
    (hactions : op.actions s = [.write batch]) : Recovers nodeId cs s op k := by
  refine h.recovers_of_write hn hop ?_
  rw [hactions]
  cases k with
  | zero => exact Or.inl rfl
  | succ k => exact Or.inr (crashAfter_eq_after (by simp))

/-! ## Compaction -/

/-- The storage that has lost the first entries of its log. -/
def RocksDBStorage.withoutFirst (s : RocksDBStorage) (k : ℕ) : RocksDBStorage :=
  { s with db.entries := fun i =>
    if i ∈ List.range' s.firstIndexCache k then none else s.db.entries i }

omit [ProstMessage Entry] [ProstMessage HardState] [ProstMessage ConfState]
  [ProstMessage Snapshot] in
theorem Durable.withoutFirst (h : Durable nodeId s) : Durable nodeId (s.withoutFirst k) :=
  ⟨h.firstBound, h.lastBound, h.storedFirst, h.storedLast, h.storedNode, h.storedHard⟩

omit [ProstMessage Entry] [ProstMessage HardState] [ProstMessage ConfState]
  [ProstMessage Snapshot] in
/-- Up to the last deletion a compaction has only lost entries. -/
theorem crashAfter_compact {throughIndex : ℕ} (hk : k ≤ throughIndex + 1 - s.firstIndexCache) :
    crashAfter k (s.compactActions throughIndex) s = (s.withoutFirst k).db := by
  have htake : (s.compactActions throughIndex).take k =
      (List.range' s.firstIndexCache k).map fun i => .write [.deleteEntry i] := by
    unfold RocksDBStorage.compactActions RocksDBStorage.rangeInclusive
    rw [List.take_append_of_le_length (by simpa using hk), ← List.map_take,
      List.take_range'_of_length_ge hk]
  rw [crashAfter, htake, foldl_deleteEntry]
  rfl

omit [ProstMessage Entry] [ProstMessage HardState] [ProstMessage ConfState]
  [ProstMessage Snapshot] in
/-- Behind the last deletion the next step is the last write. -/
theorem crashAfter_compact_all {throughIndex : ℕ}
    (hk : throughIndex + 1 - s.firstIndexCache < k) :
    crashAfter k (s.compactActions throughIndex) s =
      ((s.compactActions throughIndex).foldl (fun s a => a.apply s) s).db := by
  refine crashAfter_eq_after fun a ha => ?_
  obtain ⟨j, rfl⟩ := Nat.exists_eq_add_of_lt hk
  unfold RocksDBStorage.compactActions RocksDBStorage.rangeInclusive at ha
  rw [List.drop_append, List.drop_of_length_le (by simp; omega), List.nil_append, List.length_map,
    List.length_range', Nat.add_assoc, Nat.add_sub_cancel_left] at ha
  rw [List.mem_singleton.mp (List.mem_of_mem_drop ha)]
  rfl

omit [ProstMessage HardState] [ProstMessage ConfState] [ProstMessage Snapshot] in
/-- The answer at one index of the log. -/
theorem entries_single {i : ℕ} (hroom : s.lastIndexCache + 1 < U64.size)
    (hlo : s.firstIndexCache ≤ i) (hhi : i ≤ s.lastIndexCache) :
    s.entries i (i + 1) none = match s.loadEntry i with
      | .error e => .error e
      | .ok none => .error .unavailable
      | .ok (some e) => .ok [e] := by
  unfold RocksDBStorage.entries
  rw [U64.add_of_lt hroom, if_neg (by omega), if_neg (by omega), if_neg (by omega),
    Nat.add_sub_cancel_left, RocksDBStorage.entriesLoop]
  cases s.loadEntry i with
  | error e => rfl
  | ok found =>
    cases found with
    | none => rfl
    | some e => simp [RocksDBStorage.entriesLoop, Except.map]

omit [ProstMessage HardState] [ProstMessage ConfState] [ProstMessage Snapshot] in
/-- Only an entry that is not there is answered as unavailable. -/
theorem entries_none_of_unavailable {i : ℕ}
    (h : (match s.loadEntry i with
      | .error e => .error e
      | .ok none => .error .unavailable
      | .ok (some e) => .ok [e] : Except StorageError (List Entry)) = .error .unavailable) :
    s.db.entries i = none := by
  unfold RocksDBStorage.loadEntry at h
  cases hrecord : s.db.entries i with
  | none => rfl
  | some bytes =>
    rw [hrecord] at h
    cases hdecode : (decode bytes : Except String Entry) with
    | ok e => simp [hdecode, Except.map, Except.mapError] at h
    | error reason => simp [hdecode, Except.map, Except.mapError] at h

omit [ProstMessage Entry] [ProstMessage HardState] [ProstMessage ConfState]
  [ProstMessage Snapshot] in
theorem firstIndexCache_compact (throughIndex : ℕ) :
    ((s.compactActions throughIndex).foldl (fun s a => a.apply s) s).firstIndexCache =
      U64.add throughIndex 1 := by
  unfold RocksDBStorage.compactActions
  rw [List.foldl_append]
  rfl

theorem Usable.recovers_compact_iff (h : Usable nodeId s) (hn : nodeId < U64.size)
    {throughIndex : ℕ} (hop : (StorageOp.compact throughIndex).IndicesBelow (U64.size - 1)) :
    Recovers nodeId cs s (.compact throughIndex) k ↔
      (StorageOp.compact throughIndex).SafeAt s k := by
  by_cases hk : throughIndex + 1 - s.firstIndexCache < k
  · -- the first index was put: everything is done
    refine ⟨fun _ => Or.inl hk, fun _ => ?_⟩
    exact h.recovers_of_write hn hop (Or.inr (crashAfter_compact_all hk))
  · have hrecover : (RocksDBStorage.openOrCreate Faults.none
        (crashAfter k (s.compactActions throughIndex) s) nodeId cs).1 = .ok (s.withoutFirst k) :=
      h.durable.withoutFirst.recover hn (crashAfter_compact (Nat.le_of_not_lt hk))
    constructor
    · rintro ⟨r, hr, hsame⟩
      refine Or.inr fun i hlo hhi hlast => ?_
      rw [StorageOp.actions, hrecover] at hr
      obtain rfl := Except.ok.inj hr
      -- an entry that was deleted, at an index that is still in range
      have hlost : (s.withoutFirst k).loadEntry i = .ok none := by
        have hmem : i ∈ List.range' s.firstIndexCache k := List.mem_range'_1.mpr ⟨hlo, hhi⟩
        have hrecord : (s.withoutFirst k).db.entries i = none := if_pos hmem
        rw [RocksDBStorage.loadEntry, hrecord]
      rcases hsame with hsame | ⟨s', hstep, hsame⟩
      · have hanswer := hsame.entries i (i + 1) none
        rw [entries_single (s := s.withoutFirst k) h.room hlo hlast, hlost,
          entries_single h.room hlo hlast] at hanswer
        exact entries_none_of_unavailable hanswer.symm
      · -- the first index has not moved yet
        have hfirst := hsame.firstIndex
        rw [h.step_some, Option.some.injEq] at hstep
        subst hstep
        rw [RocksDBStorage.firstIndex, RocksDBStorage.firstIndex, Except.ok.injEq,
          StorageOp.actions, firstIndexCache_compact, U64.add_of_lt (Nat.add_lt_of_lt_sub hop)] at hfirst
        have hfirst : s.firstIndexCache = throughIndex + 1 := hfirst
        omega
    · rintro (hlt | hnone)
      · exact absurd hlt hk
      · refine ⟨_, hrecover, Or.inl (.of_reads rfl rfl rfl rfl rfl fun i hlo hhi => ?_)⟩
        have hrecord : (s.withoutFirst k).db.entries i = s.db.entries i := by
          show (if i ∈ List.range' s.firstIndexCache k then none else s.db.entries i) = _
          by_cases hi : i ∈ List.range' s.firstIndexCache k
          · rw [if_pos hi, hnone i hlo (List.mem_range'_1.mp hi).2 hhi]
          · rw [if_neg hi]
        rw [RocksDBStorage.loadEntry, RocksDBStorage.loadEntry, hrecord]

/-! ## Snapshots -/

omit [ProstMessage Entry] [ProstMessage HardState] [ProstMessage ConfState] in
/-- The stored snapshot is what is answered when any will do. -/
theorem getSnapshot_of_snapshot {snapshot : Snapshot} (h : s.snapshot 0 = .ok snapshot) :
    s.getSnapshot = .ok (some snapshot) := by
  unfold RocksDBStorage.snapshot at h
  split at h
  · exact absurd h (by simp)
  · next found hfound =>
    rw [if_neg (Nat.not_lt_zero _), Except.ok.injEq] at h
    rw [hfound, h]
  · exact absurd h (by simp)

omit [ProstMessage Entry] [ProstMessage HardState] [ProstMessage ConfState] in
theorem getSnapshot_of_stored {snapshot : Snapshot}
    (h : s.db.snapshotData = some (encodeToVec snapshot)) :
    s.getSnapshot = .ok (some snapshot) := by
  rw [RocksDBStorage.getSnapshot, h]
  simp [Except.map, Except.mapError]

/-- A storage with a snapshot answers like another with the same log if the snapshot, the
configuration and the first index are the same. -/
theorem sameAnswers_iff {r : RocksDBStorage} {hs : HardState} {conf : ConfState}
    {snapshot : Snapshot} (hentries : r.db.entries = s.db.entries)
    (hlast : r.lastIndexCache = s.lastIndexCache) (hhard : r.loadHardState = .ok hs)
    (hhard' : s.loadHardState = .ok hs) (hsnap : r.getSnapshot = .ok (some snapshot))
    (hconf : r.loadConfState = .ok conf) :
    SameAnswers r s ↔ s.getSnapshot = .ok (some snapshot) ∧ s.loadConfState = .ok conf ∧
      s.firstIndexCache = r.firstIndexCache := by
  constructor
  · intro hsame
    have hstate := hsame.initialState
    have hfirst := hsame.firstIndex
    -- a request for index 0 takes any snapshot
    have hanswer := hsame.snapshot 0
    refine ⟨getSnapshot_of_snapshot ?_, ?_, (Except.ok.inj hfirst).symm⟩
    · rw [← hanswer, RocksDBStorage.snapshot, hsnap]
      rfl
    · rw [RocksDBStorage.initialState, RocksDBStorage.initialState, hhard, hhard', hconf] at hstate
      cases hfound : s.loadConfState with
      | ok conf' =>
        rw [hfound] at hstate
        simp only [bind, Except.bind, pure, Except.pure, Except.ok.injEq, RaftState.mk.injEq,
          true_and] at hstate
        rw [hstate]
      | error e =>
        rw [hfound] at hstate
        simp [bind, Except.bind, pure, Except.pure] at hstate
  · rintro ⟨hsnap', hconf', hfirst⟩
    refine .of_reads ?_ ?_ ?_ hfirst.symm hlast fun i _ _ => ?_
    · rw [hhard, hhard']
    · rw [hconf, hconf']
    · rw [hsnap, hsnap']
    · rw [RocksDBStorage.loadEntry, RocksDBStorage.loadEntry, hentries]

/-- Between its writes an installation has stored the snapshot, but not the first index. -/
theorem Usable.recovers_between_iff (h : Usable nodeId s) (hn : nodeId < U64.size)
    {snapshot : Snapshot} {r : RocksDBStorage} {conf : ConfState} (hr : Durable nodeId r)
    (hdb : crashAfter k ((StorageOp.applySnapshot snapshot).actions s) s = r.db)
    (hentries : r.db.entries = s.db.entries) (hfirst : r.firstIndexCache = s.firstIndexCache)
    (hlast : r.lastIndexCache = s.lastIndexCache) (hhard : r.loadHardState = s.loadHardState)
    (hsnap : r.getSnapshot = .ok (some snapshot)) (hconf : r.loadConfState = .ok conf) :
    Recovers nodeId cs s (.applySnapshot snapshot) k ↔
      s.getSnapshot = .ok (some snapshot) ∧ s.loadConfState = .ok conf ∨
        snapshot.metadata.confState = conf ∧
          s.firstIndexCache = U64.add snapshot.metadata.index 1 := by
  obtain ⟨hs, hload⟩ := h.hard
  rw [hload] at hhard
  set after := ((StorageOp.applySnapshot snapshot).actions s).foldl (fun s a => a.apply s) s
    with hafter
  have hstep : (StorageOp.applySnapshot snapshot).step s = some after := h.step_some _
  have hsnap' : after.getSnapshot = .ok (some snapshot) := getSnapshot_of_stored rfl
  have hconf' : after.loadConfState = .ok snapshot.metadata.confState := loadConfState_of_stored rfl
  have hfirst' : after.firstIndexCache = U64.add snapshot.metadata.index 1 := rfl
  -- the two states a recovery may lead to
  have hbefore : SameAnswers r s ↔
      s.getSnapshot = .ok (some snapshot) ∧ s.loadConfState = .ok conf := by
    rw [sameAnswers_iff hentries hlast hhard hload hsnap hconf, hfirst]
    simp
  have hdone : SameAnswers r after ↔ snapshot.metadata.confState = conf ∧
      s.firstIndexCache = U64.add snapshot.metadata.index 1 := by
    have hload' : after.loadHardState = .ok hs := hload
    have hlast' : r.lastIndexCache = after.lastIndexCache := hlast
    have hentries' : r.db.entries = after.db.entries := hentries
    rw [sameAnswers_iff hentries' hlast' hhard hload' hsnap hconf, hsnap', hconf', hfirst', hfirst]
    simp [eq_comm]
  rw [← hbefore, ← hdone]
  constructor
  · rintro ⟨r', hr', hsame⟩
    rw [hr.recover hn hdb, Except.ok.injEq] at hr'
    subst hr'
    rcases hsame with hsame | ⟨s', hs', hsame⟩
    · exact Or.inl hsame
    · rw [hstep, Option.some.injEq] at hs'
      exact Or.inr (hs' ▸ hsame)
  · rintro (hsame | hsame)
    · exact ⟨r, hr.recover hn hdb, Or.inl hsame⟩
    · exact ⟨r, hr.recover hn hdb, Or.inr ⟨after, hstep, hsame⟩⟩

theorem Usable.recovers_applySnapshot_iff (h : Usable nodeId s) (hn : nodeId < U64.size)
    {snapshot : Snapshot} (hop : (StorageOp.applySnapshot snapshot).IndicesBelow (U64.size - 1)) :
    Recovers nodeId cs s (.applySnapshot snapshot) k ↔
      (StorageOp.applySnapshot snapshot).SafeAt s k := by
  obtain ⟨conf, hconf⟩ := h.conf
  have hd := h.durable
  match k with
  | 0 =>
    refine ⟨fun _ => ⟨by simp, by simp⟩, fun _ => ?_⟩
    exact h.recovers_of_write hn hop (Or.inl rfl)
  | 1 =>
    -- the snapshot is there, the configuration is the old one
    have hr : Durable nodeId { s with db.snapshotData := some (encodeToVec snapshot) } :=
      ⟨hd.firstBound, hd.lastBound, hd.storedFirst, hd.storedLast, hd.storedNode, hd.storedHard⟩
    rw [h.recovers_between_iff hn hr rfl rfl rfl rfl rfl (getSnapshot_of_stored rfl) hconf]
    simp [StorageOp.SafeAt, hconf, eq_comm]
  | 2 =>
    -- only the first index is missing
    have hr : Durable nodeId { s with
        db.snapshotData := some (encodeToVec snapshot)
        db.metadata := Function.update s.db.metadata .confState
          (some (encodeToVec snapshot.metadata.confState)) } :=
      ⟨hd.firstBound, hd.lastBound, hd.storedFirst, hd.storedLast, hd.storedNode, hd.storedHard⟩
    rw [h.recovers_between_iff hn hr rfl rfl rfl rfl rfl (getSnapshot_of_stored rfl)
      (loadConfState_of_stored rfl)]
    simp [StorageOp.SafeAt]
  | k + 3 =>
    refine ⟨fun _ => ⟨by simp, by simp⟩, fun _ => ?_⟩
    refine h.recovers_of_write hn hop (Or.inr (crashAfter_eq_after fun a ha => ?_))
    rw [List.mem_singleton.mp (List.mem_of_mem_drop ha :
      a ∈ [.storeFirst (U64.add snapshot.metadata.index 1)])]
    rfl

/-- Every operation recovers from a crash exactly where it is safe. -/
theorem Usable.recovers_iff (h : Usable nodeId s) (hn : nodeId < U64.size)
    (hop : op.IndicesBelow (U64.size - 1)) : Recovers nodeId cs s op k ↔ op.SafeAt s k := by
  cases op with
  | append es => exact ⟨fun _ => trivial, fun _ => h.recovers_append hn hop⟩
  | compact throughIndex => exact h.recovers_compact_iff hn hop
  | applySnapshot snapshot => exact h.recovers_applySnapshot_iff hn hop
  | storeHardState hs => exact ⟨fun _ => trivial, fun _ => h.recovers_put hn hop rfl⟩
  | updateCommit commit =>
    obtain ⟨hs, hload⟩ := h.hard
    refine ⟨fun _ => trivial, fun _ => ?_⟩
    have hactions : (StorageOp.updateCommit commit).actions s =
        [.write [.putMeta .hardState (encodeToVec { hs with commit })]] := by
      rw [StorageOp.actions, hload]
    exact h.recovers_put hn hop hactions
  | storeConfState cs => exact ⟨fun _ => trivial, fun _ => h.recovers_put hn hop rfl⟩

omit [ProstMessage Snapshot] in
theorem open_fresh_usable
    (hopen : (RocksDBStorage.openOrCreate Faults.none {} nodeId cs).1 = .ok s) :
    Usable nodeId s := by
  have hd := open_fresh_durable hopen
  rw [openOrCreate_of_unmarked nodeId cs rfl, Except.ok.injEq] at hopen
  subst hopen
  exact ⟨hd, ⟨{}, loadHardState_of_stored rfl⟩, ⟨cs, loadConfState_of_stored rfl⟩,
    (by decide : 0 + 1 < U64.size)⟩

end

open Transition

/-- The first open recovers from every crash but one between the mark and the first index. Any
operation after any others recovers from a crash exactly where it is safe. -/
theorem crash_recovers_iff {nodeId : ℕ} (hn : nodeId < U64.size) (cs : ConfState) :
    (∀ k, OpenRecovers nodeId cs k ↔ k < 2 ∨ 4 ≤ k) ∧
      ∀ s₀, (RocksDBStorage.openOrCreate Faults.none {} nodeId cs).1 = .ok s₀ →
        ∀ ops : List StorageOp, (∀ op ∈ ops, op.IndicesBelow (U64.size - 1)) →
          ∀ s, run StorageOp.step s₀ ops = some s →
            ∀ op : StorageOp, op.IndicesBelow (U64.size - 1) →
              ∀ k, Recovers nodeId cs s op k ↔ op.SafeAt s k := by
  refine ⟨openRecovers_iff hn, ?_⟩
  intro s₀ hopen ops hops s hrun op hop k
  have husable : Usable nodeId s :=
    run_induction (fun _ _ _ hs hop hstep => hs.step hop hstep) (open_fresh_usable hopen)
      (along_of_forall hops) hrun
  exact husable.recovers_iff hn hop

end

section
open Codec Transition

set_option maxRecDepth 4000 in
/-- A compaction that has deleted the first of two entries when the process crashes. -/
theorem crash_recovers_iff_compact :
    ∃ s₀ s, (RocksDBStorage.openOrCreate Faults.none {} 1 { voters := [1] }).1 = .ok s₀ ∧
      run StorageOp.step s₀ [.append [{ term := 1, index := 1 }, { term := 1, index := 2 }]] =
        some s ∧
      Recovers 1 { voters := [1] } s (.compact 1) 0 ∧
      ¬ Recovers 1 { voters := [1] } s (.compact 1) 1 ∧
      Recovers 1 { voters := [1] } s (.compact 1) 2 := by
  have hiff := (crash_recovers_iff (by decide : 1 < U64.size) { voters := [1] }).2 _ rfl
    [.append [{ term := 1, index := 1 }, { term := 1, index := 2 }]] (by decide) _ rfl (.compact 1)
    (by decide)
  refine ⟨_, _, rfl, rfl, (hiff 0).mpr ?_, fun hrec => ?_, (hiff 2).mpr ?_⟩
  · exact Or.inr fun i hlo hhi => by omega
  · rcases (hiff 1).mp hrec with hlt | hnone
    · exact absurd hlt (by decide)
    · exact absurd (hnone 1 (by decide) (by decide) (by decide)) (Option.some_ne_none _)
  · exact Or.inl (by decide)

/-- A crash right behind the mark: the database counts as initialised, but its log would start at
index zero. -/
theorem crash_between_mark_and_index : ¬ OpenRecovers 1 { voters := [1, 2, 3] } 2 := by
  intro h
  rw [openRecovers_iff (by decide)] at h
  omega

end

end Raftoral

import Raftoral.Lib.OffsetLog
import Raftoral.Lib.Run
import Raftoral.Raft.RocksDBStorage
import Raftoral.Raft.Codec

/-!
# The stored log as an abstract log

What `RocksDBStorage` is for: it keeps an `OffsetLog` of entries. `Represents` relates a
storage to the abstract log it stands for; a truncating append only moves `last_index`, so
the relation says nothing about records outside the window, and the record of a dropped
entry may stay behind in the column family on either side.

* every operation of a caller that keeps to the rules of a Raft log takes represented logs
  to represented logs (`step_represents`), a restart over the same path included;
* a storage reads as the log it represents (`Represents.readsAs`);
* so a whole run of operations refines the run of the abstract log.
-/

namespace Raftoral

open ProstMessage

/-! ## Batches of consecutive entries -/

/-- The index of the first entry of a batch. -/
def batchStart (es : List Entry) : ℕ := (es.head?.map (·.index)).getD 0

/-- The indices of a batch are consecutive. -/
def Contiguous (es : List Entry) : Prop :=
  es.map (·.index) = List.range' (batchStart es) es.length

instance (es : List Entry) : Decidable (Contiguous es) :=
  inferInstanceAs (Decidable (_ = _))

theorem batchStart_cons (e : Entry) (es : List Entry) : batchStart (e :: es) = e.index := rfl

/-- The last index of a batch of consecutive entries. -/
theorem Contiguous.getLast_index {e : Entry} {es : List Entry} (h : Contiguous (e :: es)) :
    ((e :: es).getLast (List.cons_ne_nil e es)).index + 1 = e.index + (e :: es).length := by
  have hlast : ((e :: es).map (·.index)).getLast (by simp) =
      ((e :: es).getLast (List.cons_ne_nil e es)).index := List.getLast_map _
  have hrange : ((e :: es).map (·.index)).getLast (by simp) = e.index + es.length := by
    simp only [Contiguous, batchStart_cons] at h
    simp [h, List.getLast_range']
  rw [← hlast, hrange, List.length_cons]
  omega

/-! ## What the steps of an operation do when no write fails -/

@[simp] theorem Db.write_nil (db : Db) : db.write [] = db := rfl

@[simp] theorem Db.write_cons (db : Db) (w : DbWrite) (ws : List DbWrite) :
    db.write (w :: ws) = (w.apply db).write ws := rfl

@[simp] theorem Db.write_append (db : Db) (ws vs : List DbWrite) :
    db.write (ws ++ vs) = (db.write ws).write vs := List.foldl_append

/-- Without failing writes an operation runs to its end. -/
theorem perform_none (actions : List Action) (s : RocksDBStorage) :
    perform Faults.none actions s = (.ok (), actions.foldl (fun s a => a.apply s) s) := by
  induction actions generalizing s with
  | nil => rfl
  | cons a actions ih =>
    cases a with
    | write batch =>
      have hrest : perform (fun i => Faults.none (i + 1)) actions
          ((Action.write batch).apply s) = _ := ih ((Action.write batch).apply s)
      rw [perform]
      exact hrest
    | storeFirst i => exact ih _
    | storeLast i => exact ih _

/-- Deleting the keys of a list leaves the others. -/
theorem foldl_deleteEntry (ks : List ℕ) (s : RocksDBStorage) :
    (ks.map fun i => Action.write [.deleteEntry i]).foldl (fun s a => a.apply s) s =
      { s with db.entries := fun i => if i ∈ ks then none else s.db.entries i } := by
  induction ks generalizing s with
  | nil => simp
  | cons k ks ih =>
    rw [List.map_cons, List.foldl_cons, ih]
    simp only [Action.apply, Db.write_cons, Db.write_nil, DbWrite.apply]
    congr 2
    ext1 i
    by_cases hk : i = k
    · simp [hk]
    · simp [hk]

theorem loadIndex_of_stored {db : Db} {key : MetaKey} {i : ℕ} (hi : i < U64.size)
    (h : db.metadata key = some (U64.toBeBytes i)) : RocksDBStorage.loadIndex db key = .ok i := by
  unfold RocksDBStorage.loadIndex
  rw [h]
  simp [hi]

section
variable [ProstMessage Entry]

/-- A batch of consecutive entries lands under the keys of its indices. -/
theorem entries_write_puts (db : Db) (es : List Entry) (start i : ℕ)
    (h : es.map (·.index) = List.range' start es.length) :
    (db.write (es.map fun e => DbWrite.putEntry e.index (encodeToVec e))).entries i =
      if start ≤ i ∧ i < start + es.length then es[i - start]?.map encodeToVec
      else db.entries i := by
  -- the first put is at `start`, the others are above it
  induction es generalizing db start with
  | nil => simp
  | cons e es ih =>
    rw [List.map_cons, List.length_cons, List.range'_succ, List.cons.injEq] at h
    obtain ⟨he, htail⟩ := h
    rw [List.map_cons, Db.write_cons, ih _ _ htail]
    simp only [DbWrite.apply, List.length_cons, he]
    by_cases hi : i = start
    · subst hi
      rw [if_neg (by omega), if_pos (by omega), Function.update_self, Nat.sub_self]
      rfl
    · by_cases hrange : start + 1 ≤ i ∧ i < start + 1 + es.length
      · rw [if_pos hrange, if_pos (by omega), show i - start = i - (start + 1) + 1 by omega,
          List.getElem?_cons_succ]
      · rw [if_neg hrange, if_neg (by omega), Function.update_of_ne hi]

theorem metadata_write_puts (db : Db) (es : List Entry) :
    (db.write (es.map fun e => DbWrite.putEntry e.index (encodeToVec e))).metadata =
      db.metadata := by
  induction es generalizing db with
  | nil => rfl
  | cons e es ih => exact ih _

theorem snapshotData_write_puts (db : Db) (es : List Entry) :
    (db.write (es.map fun e => DbWrite.putEntry e.index (encodeToVec e))).snapshotData =
      db.snapshotData := by
  induction es generalizing db with
  | nil => rfl
  | cons e es ih => exact ih _

variable [ProstMessage HardState]

/-! ## Operations and the abstract log -/

/-- What a caller does to a storage, a restart over the same path included. -/
inductive LogOp where
  | append (entries : List Entry)
  | compact (throughIndex : ℕ)
  | storeHardState (hs : HardState)
  | storeConfState (cs : ConfState)
  | updateCommit (commit : ℕ)
  | reopen (confState : ConfState)
deriving DecidableEq

/-- The rules a Raft log keeps to: an append is a non-empty run of consecutive indices that
starts inside the log or right behind it, and a compaction point lies in the log. -/
def LogOp.Admissible (s : RocksDBStorage) : LogOp → Prop
  | .append es => es ≠ [] ∧ Contiguous es ∧ s.firstIndexCache ≤ batchStart es ∧
      batchStart es ≤ s.lastIndexCache + 1 ∧ ∀ e ∈ es, e.index < U64.size - 1
  | .compact t => s.firstIndexCache ≤ t + 1 ∧ t ≤ s.lastIndexCache
  | _ => True

instance (s : RocksDBStorage) (op : LogOp) : Decidable (op.Admissible s) :=
  match op with
  | .append es => inferInstanceAs (Decidable (es ≠ [] ∧ _ ∧ _ ∧ _ ∧ _))
  | .compact _ => inferInstanceAs (Decidable (_ ∧ _))
  | .storeHardState _ | .storeConfState _ | .updateCommit _ | .reopen _ => isTrue trivial

/-- What an operation means for the abstract log. -/
def LogOp.abstractStep (L : OffsetLog Entry) : LogOp → OffsetLog Entry
  | .append es => L.truncateAppend (batchStart es) es
  | .compact t => L.compact t
  | _ => L

/-- The term the abstract log has at an index. -/
def logTerm (L : OffsetLog Entry) (i : ℕ) : Except StorageError ℕ :=
  if i = 0 then .ok 0
  else if i < L.firstIndex then .error .compacted
  else match L.get? i with
    | some e => .ok e.term
    | none => .error .unavailable

/-- The entries the abstract log has in `[lo, hi)`. -/
def logEntries (L : OffsetLog Entry) (lo hi : ℕ) : Except StorageError (List Entry) :=
  if hi ≤ lo then .ok []
  else if lo < L.firstIndex then .error .compacted
  else if L.lastIndex + 1 < hi then .error .unavailable
  else .ok (L.slice lo hi)

/-- The storage of a node stands for a log. Only the records of the window matter, and
the persisted indices are those of the caches. -/
structure Represents (nodeId : ℕ) (s : RocksDBStorage) (L : OffsetLog Entry) : Prop where
  first : s.firstIndexCache = L.firstIndex
  last : s.lastIndexCache = L.lastIndex
  bound : L.lastIndex + 1 < U64.size
  record : ∀ i e, L.get? i = some e → s.db.entries i = some (encodeToVec e)
  noSnapshot : s.db.snapshotData = none
  storedFirst : s.db.metadata .firstIndex = some (U64.toBeBytes L.firstIndex)
  storedLast : s.db.metadata .lastIndex = some (U64.toBeBytes L.lastIndex)
  storedNode : s.db.metadata .nodeId = some (U64.toBeBytes nodeId)
  storedHard : ∃ hs : HardState, s.db.metadata .hardState = some (encodeToVec hs)

end

/-! ## Reopening -/

/-- The records a restart needs are those of the running storage. -/
structure Durable (nodeId : ℕ) (s : RocksDBStorage) : Prop where
  firstBound : s.firstIndexCache < U64.size
  lastBound : s.lastIndexCache < U64.size
  storedFirst : s.db.metadata .firstIndex = some (U64.toBeBytes s.firstIndexCache)
  storedLast : s.db.metadata .lastIndex = some (U64.toBeBytes s.lastIndexCache)
  storedNode : s.db.metadata .nodeId = some (U64.toBeBytes nodeId)
  storedHard : (s.db.metadata .hardState).isSome

/-- The caches are loaded with the indices that were persisted. -/
theorem Durable.reloadIndexCaches {nodeId : ℕ} {s : RocksDBStorage} (h : Durable nodeId s)
    (first last : ℕ) :
    RocksDBStorage.reloadIndexCaches
      { db := s.db, firstIndexCache := first, lastIndexCache := last } = .ok s := by
  have hfirst : RocksDBStorage.loadIndex s.db .firstIndex = .ok s.firstIndexCache :=
    loadIndex_of_stored h.firstBound h.storedFirst
  have hlast : RocksDBStorage.loadIndex s.db .lastIndex = .ok s.lastIndexCache :=
    loadIndex_of_stored h.lastBound h.storedLast
  simp [RocksDBStorage.reloadIndexCaches, hfirst, hlast]

/-- Reopening a database that was in use keeps its contents. -/
theorem Durable.reopen [ProstMessage HardState] [ProstMessage ConfState] {nodeId : ℕ}
    {s : RocksDBStorage} (h : Durable nodeId s) (hn : nodeId < U64.size) (cs : ConfState) :
    RocksDBStorage.openOrCreate Faults.none s.db nodeId cs = (.ok s, s.db) := by
  have hnode : RocksDBStorage.loadNodeId s.db = .ok (some nodeId) := by
    unfold RocksDBStorage.loadNodeId
    rw [h.storedNode]
    simp [hn]
  have hinit : RocksDBStorage.initializeIfNeeded Faults.none
      { db := s.db, firstIndexCache := 0, lastIndexCache := 0 } nodeId cs =
        (.ok (), { db := s.db, firstIndexCache := 0, lastIndexCache := 0 }) := by
    unfold RocksDBStorage.initializeIfNeeded
    simp [h.storedHard, hnode]
  unfold RocksDBStorage.openOrCreate
  rw [hinit]
  simp only [h.reloadIndexCaches 0 0]

section
variable [ProstMessage Entry] [ProstMessage HardState]

theorem Represents.durable {nodeId : ℕ} {s : RocksDBStorage} {L : OffsetLog Entry}
    (h : Represents nodeId s L) : Durable nodeId s := by
  obtain ⟨hs, hstored⟩ := h.storedHard
  have hbound := h.bound
  have hle : L.firstIndex ≤ L.lastIndex + 1 := by
    simp only [OffsetLog.firstIndex, OffsetLog.lastIndex]
    omega
  refine ⟨?_, ?_, ?_, ?_, h.storedNode, by rw [hstored]; rfl⟩
  · rw [h.first]
    omega
  · rw [h.last]
    omega
  · rw [h.first]
    exact h.storedFirst
  · rw [h.last]
    exact h.storedLast

/-! ## Reading -/

section
variable {nodeId : ℕ} {s : RocksDBStorage} {L : OffsetLog Entry}

theorem Represents.loadEntry (h : Represents nodeId s L) {i : ℕ} {e : Entry}
    (hi : L.get? i = some e) : s.loadEntry i = .ok (some e) := by
  unfold RocksDBStorage.loadEntry
  rw [h.record i e hi]
  simp [Except.map, Except.mapError]

/-- Without a size limit the reading loop returns the whole range. -/
theorem Represents.entriesLoop (h : Represents nodeId s L) {n idx total : ℕ}
    (hlo : L.firstIndex ≤ idx) (hhi : idx + n ≤ L.lastIndex + 1) :
    s.entriesLoop none n idx total = .ok (L.slice idx (idx + n)) := by
  induction n generalizing idx total with
  | zero => rw [RocksDBStorage.entriesLoop, Nat.add_zero, OffsetLog.slice_self]
  | succ n ih =>
    obtain ⟨e, he⟩ := OffsetLog.exists_get? hlo (by omega)
    have hoff : L.offset < idx := hlo
    have hrest : ∀ total, s.entriesLoop none n (idx + 1) total
        = .ok (L.slice (idx + 1) (idx + (n + 1))) := by
      intro total
      rw [ih (by omega) (by omega), show idx + 1 + n = idx + (n + 1) by omega]
    rw [OffsetLog.slice_eq_cons hoff (by omega) he, RocksDBStorage.entriesLoop, h.loadEntry he]
    simp [hrest, Except.map]

theorem Represents.entries (h : Represents nodeId s L) (lo hi : ℕ) :
    s.entries lo hi none = logEntries L lo hi := by
  have hadd : U64.add L.lastIndex 1 = L.lastIndex + 1 := U64.add_of_lt h.bound
  unfold RocksDBStorage.entries logEntries
  rw [h.first, h.last, hadd]
  by_cases h₁ : hi ≤ lo
  · rw [if_pos h₁, if_pos h₁]
  · by_cases h₂ : lo < L.firstIndex
    · rw [if_neg h₁, if_neg h₁, if_pos h₂, if_pos h₂]
    · by_cases h₃ : L.lastIndex + 1 < hi
      · rw [if_neg h₁, if_neg h₁, if_neg h₂, if_neg h₂, if_pos h₃, if_pos h₃]
      · rw [if_neg h₁, if_neg h₁, if_neg h₂, if_neg h₂, if_neg h₃, if_neg h₃,
          h.entriesLoop (by omega) (by omega), show lo + (hi - lo) = hi by omega]

theorem Represents.entryTerm (h : Represents nodeId s L) {i : ℕ} (hi : i ≠ 0) :
    s.entryTerm i = logTerm L i := by
  unfold RocksDBStorage.entryTerm logTerm
  rw [h.first, h.last, if_neg hi]
  by_cases h₁ : i < L.firstIndex
  · rw [if_pos h₁, if_pos h₁]
  · rw [if_neg h₁, if_neg h₁]
    by_cases h₂ : L.lastIndex < i
    · have hnone : L.get? i = none := by
        rw [← Option.not_isSome_iff_eq_none, OffsetLog.isSome_get?]
        omega
      rw [if_pos h₂, hnone]
    · obtain ⟨e, he⟩ := OffsetLog.exists_get? (L := L) (i := i) (by omega) (by omega)
      rw [if_neg h₂, h.loadEntry he, he]

variable [ProstMessage Snapshot]

theorem Represents.term (h : Represents nodeId s L) (i : ℕ) : s.term i = logTerm L i := by
  have hsnap : s.getSnapshot = .ok none := by
    unfold RocksDBStorage.getSnapshot
    rw [h.noSnapshot]
  unfold RocksDBStorage.term
  rw [hsnap]
  by_cases hi : i = 0
  · rw [hi]
    rfl
  · simp only [hi, if_false]
    exact h.entryTerm hi

/-- The reads of the storage are those of the abstract log. -/
structure ReadsAs (s : RocksDBStorage) (L : OffsetLog Entry) : Prop where
  firstIndex : s.firstIndex = .ok L.firstIndex
  lastIndex : s.lastIndex = .ok L.lastIndex
  term : ∀ i, s.term i = logTerm L i
  entries : ∀ lo hi, s.entries lo hi none = logEntries L lo hi

/-- A storage reads as the log it stands for. -/
theorem Represents.readsAs (h : Represents nodeId s L) : ReadsAs s L where
  firstIndex := by rw [RocksDBStorage.firstIndex, h.first]
  lastIndex := by rw [RocksDBStorage.lastIndex, h.last]
  term := h.term
  entries := h.entries

end

/-! ## Writing -/

section
variable {nodeId : ℕ} {s : RocksDBStorage} {L : OffsetLog Entry}

/-- The state an append leaves: an append to a log that was never written also sets the
first index, to the value it has. -/
theorem append_eq (h : Represents nodeId s L) {e : Entry} {es : List Entry}
    (hc : Contiguous (e :: es)) (h₁ : L.firstIndex ≤ e.index) (h₂ : e.index ≤ L.lastIndex + 1) :
    ∃ s', s.append Faults.none (e :: es) = (.ok (), s') ∧
      s'.firstIndexCache = L.firstIndex ∧
      s'.lastIndexCache = (L.truncateAppend e.index (e :: es)).lastIndex ∧
      s'.db.entries = (s.db.write ((e :: es).map
        fun e => DbWrite.putEntry e.index (encodeToVec e))).entries ∧
      s'.db.snapshotData = none ∧
      s'.db.metadata .firstIndex = some (U64.toBeBytes L.firstIndex) ∧
      s'.db.metadata .lastIndex =
        some (U64.toBeBytes (L.truncateAppend e.index (e :: es)).lastIndex) ∧
      s'.db.metadata .nodeId = s.db.metadata .nodeId ∧
      s'.db.metadata .hardState = s.db.metadata .hardState := by
  set last := (e :: es).getLast (List.cons_ne_nil e es) with hlast
  have hidx : last.index = (L.truncateAppend e.index (e :: es)).lastIndex := by
    have ha := hc.getLast_index
    rw [← hlast] at ha
    have hb := OffsetLog.lastIndex_truncateAppend (e :: es) h₁ h₂
    omega
  have happend : s.append Faults.none (e :: es) =
      perform Faults.none (s.appendActions (e :: es) e last) s := by
    rw [RocksDBStorage.append, List.head?_cons, List.getLast?_eq_some_getLast (List.cons_ne_nil e es)]
  rw [happend, perform_none]
  refine ⟨_, rfl, ?_⟩
  rw [← hidx]
  unfold RocksDBStorage.appendActions
  by_cases hz : s.lastIndexCache = 0
  · -- an empty log starts at index one, and so does the batch
    have hfirst : e.index = L.firstIndex := by
      rw [h.last] at hz
      simp only [OffsetLog.firstIndex, OffsetLog.lastIndex] at *
      omega
    simp [hz, Action.apply, DbWrite.apply, metadata_write_puts, snapshotData_write_puts,
      h.noSnapshot, hfirst]
  · simp [hz, Action.apply, DbWrite.apply, metadata_write_puts, snapshotData_write_puts,
      h.noSnapshot, h.first, h.storedFirst]

theorem append_represents (h : Represents nodeId s L) {e : Entry} {es : List Entry}
    (hc : Contiguous (e :: es)) (h₁ : L.firstIndex ≤ e.index) (h₂ : e.index ≤ L.lastIndex + 1)
    (hb : ∀ x ∈ e :: es, x.index < U64.size - 1) :
    ∃ s', s.append Faults.none (e :: es) = (.ok (), s') ∧
      Represents nodeId s' (L.truncateAppend e.index (e :: es)) := by
  obtain ⟨s', hs', hfirst, hlast, hentries, hsnap, hmf, hml, hmn, hmh⟩ := append_eq h hc h₁ h₂
  have hnext : (L.truncateAppend e.index (e :: es)).lastIndex + 1 =
      e.index + (e :: es).length := OffsetLog.lastIndex_truncateAppend (e :: es) h₁ h₂
  refine ⟨s', hs', ⟨hfirst, hlast, ?_, ?_, hsnap, hmf, hml, ?_, ?_⟩⟩
  · have hlt := hb _ (List.getLast_mem (List.cons_ne_nil e es))
    have hidx := hc.getLast_index
    omega
  · intro i x hx
    have hidxs : (e :: es).map (·.index) = List.range' e.index (e :: es).length := hc
    rw [hentries, entries_write_puts _ _ _ _ hidxs]
    by_cases hi : i < e.index
    · -- below the cut the record is the old one
      rw [OffsetLog.get?_truncateAppend_of_lt _ h₁ h₂ hi] at hx
      rw [if_neg (by omega), h.record i x hx]
    · rw [OffsetLog.get?_truncateAppend_of_ge _ h₁ h₂ (by omega)] at hx
      have hlen : i - e.index < (e :: es).length := (List.getElem?_eq_some_iff.mp hx).1
      rw [if_pos (by omega), hx, Option.map_some]
  · rw [hmn, h.storedNode]
  · rw [hmh]
    exact h.storedHard

theorem compact_represents (h : Represents nodeId s L) {t : ℕ} (h₁ : L.offset ≤ t)
    (h₂ : t ≤ L.lastIndex) :
    ∃ s', s.compact Faults.none t = (.ok (), s') ∧ Represents nodeId s' (L.compact t) := by
  have hadd : U64.add t 1 = t + 1 := U64.add_of_lt (lt_of_le_of_lt (by omega) h.bound)
  have hlast : (L.compact t).lastIndex = L.lastIndex := OffsetLog.lastIndex_compact h₁ h₂
  rw [RocksDBStorage.compact, perform_none, RocksDBStorage.compactActions, List.foldl_append,
    foldl_deleteEntry, hadd]
  refine ⟨_, rfl, ?_⟩
  simp only [List.foldl_cons, List.foldl_nil, Action.apply, Db.write_cons, Db.write_nil,
    DbWrite.apply]
  refine ⟨rfl, ?_, ?_, ?_, h.noSnapshot, ?_, ?_, ?_, ?_⟩
  · rw [hlast]
    exact h.last
  · rw [hlast]
    exact h.bound
  · -- an entry that is left lies above the deleted range
    intro i e he
    have hwin := OffsetLog.isSome_get?.mp (Option.isSome_of_eq_some he)
    have hi : t < i := hwin.1
    rw [OffsetLog.get?_compact h₁ hi] at he
    have hmem : i ∉ RocksDBStorage.rangeInclusive s.firstIndexCache t := by
      simp only [RocksDBStorage.rangeInclusive, List.mem_range'_1]
      omega
    simp only [if_neg hmem]
    exact h.record i e he
  · simp [OffsetLog.firstIndex, OffsetLog.compact]
  · simpa [hlast] using h.storedLast
  · simpa using h.storedNode
  · simpa using h.storedHard

theorem storeHardState_represents (h : Represents nodeId s L) (hs : HardState) :
    ∃ s', s.storeHardState Faults.none hs = (.ok (), s') ∧ Represents nodeId s' L := by
  rw [RocksDBStorage.storeHardState, perform_none]
  refine ⟨_, rfl, ⟨h.first, h.last, h.bound, h.record, h.noSnapshot, ?_, ?_, ?_, hs, ?_⟩⟩
  · simpa [Action.apply, DbWrite.apply] using h.storedFirst
  · simpa [Action.apply, DbWrite.apply] using h.storedLast
  · simpa [Action.apply, DbWrite.apply] using h.storedNode
  · simp [Action.apply, DbWrite.apply]

theorem updateCommit_represents (h : Represents nodeId s L) (commit : ℕ) :
    ∃ s', s.updateCommit Faults.none commit = (.ok (), s') ∧ Represents nodeId s' L := by
  obtain ⟨hs, hstored⟩ := h.storedHard
  have hload : s.loadHardState = .ok hs := by
    rw [RocksDBStorage.loadHardState, hstored]
    simp [RocksDBStorage.loadOr, Except.mapError]
  unfold RocksDBStorage.updateCommit
  rw [hload]
  exact storeHardState_represents h { hs with commit := commit }

variable [ProstMessage ConfState]

theorem storeConfState_represents (h : Represents nodeId s L) (cs : ConfState) :
    ∃ s', s.storeConfState Faults.none cs = (.ok (), s') ∧ Represents nodeId s' L := by
  obtain ⟨hs, hstored⟩ := h.storedHard
  rw [RocksDBStorage.storeConfState, perform_none]
  refine ⟨_, rfl, ⟨h.first, h.last, h.bound, h.record, h.noSnapshot, ?_, ?_, ?_, hs, ?_⟩⟩
  · simpa [Action.apply, DbWrite.apply] using h.storedFirst
  · simpa [Action.apply, DbWrite.apply] using h.storedLast
  · simpa [Action.apply, DbWrite.apply] using h.storedNode
  · simpa [Action.apply, DbWrite.apply] using hstored

theorem reopen_represents (h : Represents nodeId s L) (hn : nodeId < U64.size)
    (cs : ConfState) :
    RocksDBStorage.openOrCreate Faults.none s.db nodeId cs = (.ok s, s.db) :=
  h.durable.reopen hn cs

/-- A database opened for the first time stands for the empty log. -/
theorem open_fresh_represents (nodeId : ℕ) (cs : ConfState) :
    ∃ s', (RocksDBStorage.openOrCreate Faults.none {} nodeId cs).1 = .ok s' ∧
      Represents nodeId s' { offset := 0, entries := [] } := by
  set s₀ := (RocksDBStorage.initActions nodeId cs).foldl (fun s a => a.apply s)
    { db := {}, firstIndexCache := 0, lastIndexCache := 0 } with hs₀
  have hinit : RocksDBStorage.initializeIfNeeded Faults.none
      { db := {}, firstIndexCache := 0, lastIndexCache := 0 } nodeId cs = (.ok (), s₀) := by
    unfold RocksDBStorage.initializeIfNeeded
    rw [perform_none]
    rfl
  -- the records are those of an empty log, and the caches are read from them
  have hrep : Represents nodeId { db := s₀.db, firstIndexCache := 1, lastIndexCache := 0 }
      { offset := 0, entries := [] } := by
    refine ⟨rfl, rfl, by decide, ?_, rfl, rfl, rfl, ?_, {}, ?_⟩
    · intro i e he
      simp [OffsetLog.get?] at he
    · simp [hs₀, RocksDBStorage.initActions, Action.apply, DbWrite.apply]
    · simp [hs₀, RocksDBStorage.initActions, Action.apply, DbWrite.apply]
  refine ⟨_, ?_, hrep⟩
  unfold RocksDBStorage.openOrCreate
  rw [hinit]
  exact hrep.durable.reloadIndexCaches 0 0

/-- One operation on the storage of a node; `none` if it fails. -/
def LogOp.step (nodeId : ℕ) (s : RocksDBStorage) (op : LogOp) : Option RocksDBStorage :=
  let finished : Except StorageError Unit × RocksDBStorage → Option RocksDBStorage
    | (.ok (), s') => some s'
    | (.error _, _) => none
  match op with
  | .append es => finished (s.append Faults.none es)
  | .compact t => finished (s.compact Faults.none t)
  | .storeHardState hs => finished (s.storeHardState Faults.none hs)
  | .storeConfState cs => finished (s.storeConfState Faults.none cs)
  | .updateCommit c => finished (s.updateCommit Faults.none c)
  | .reopen cs =>
    match RocksDBStorage.openOrCreate Faults.none s.db nodeId cs with
    | (.ok s', _) => some s'
    | (.error _, _) => none

/-- Every operation that keeps to the rules succeeds and does to the log what it should. -/
theorem step_represents (hn : nodeId < U64.size) (h : Represents nodeId s L) (op : LogOp)
    (hadm : op.Admissible s) :
    ∃ s', op.step nodeId s = some s' ∧ Represents nodeId s' (op.abstractStep L) := by
  cases op with
  | append es =>
    obtain ⟨hne, hc, h₁, h₂, hb⟩ := hadm
    obtain ⟨e, es, rfl⟩ := List.exists_cons_of_ne_nil hne
    rw [h.first] at h₁
    rw [h.last] at h₂
    obtain ⟨s', hs', hrep⟩ := append_represents h hc h₁ h₂ hb
    exact ⟨s', by rw [LogOp.step, hs'], hrep⟩
  | compact t =>
    obtain ⟨h₁, h₂⟩ := hadm
    rw [h.first, OffsetLog.firstIndex] at h₁
    rw [h.last] at h₂
    obtain ⟨s', hs', hrep⟩ := compact_represents h (by omega) h₂
    exact ⟨s', by rw [LogOp.step, hs'], hrep⟩
  | storeHardState hs =>
    obtain ⟨s', hs', hrep⟩ := storeHardState_represents h hs
    exact ⟨s', by rw [LogOp.step, hs'], hrep⟩
  | storeConfState cs =>
    obtain ⟨s', hs', hrep⟩ := storeConfState_represents h cs
    exact ⟨s', by rw [LogOp.step, hs'], hrep⟩
  | updateCommit c =>
    obtain ⟨s', hs', hrep⟩ := updateCommit_represents h c
    exact ⟨s', by rw [LogOp.step, hs'], hrep⟩
  | reopen cs => exact ⟨s, by rw [LogOp.step, reopen_represents h hn cs], h⟩

/-- The same over a run. -/
theorem run_represents (hn : nodeId < U64.size) (h : Represents nodeId s L) {ops : List LogOp}
    (hops : Transition.Along (LogOp.step nodeId) LogOp.Admissible s ops) :
    ∃ s', Transition.run (LogOp.step nodeId) s ops = some s' ∧
      Represents nodeId s' (ops.foldl LogOp.abstractStep L) := by
  have hstep : ∀ (s : RocksDBStorage) (L : OffsetLog Entry) (op : LogOp), Represents nodeId s L →
      op.Admissible s → ∃ s' L', op.step nodeId s = some s' ∧
        some (op.abstractStep L) = some L' ∧ Represents nodeId s' L' := by
    intro s L op hrep hadm
    obtain ⟨s', hs', hrep'⟩ := step_represents hn hrep op hadm
    exact ⟨s', _, hs', rfl, hrep'⟩
  obtain ⟨s', L', hrun, habs, hrep⟩ := Transition.run_simulation hstep h hops
  rw [Transition.run_some LogOp.abstractStep, Option.some.injEq] at habs
  exact ⟨s', hrun, habs ▸ hrep⟩

/-- From a new database on, every run of operations that keeps to the rules succeeds, and
the storage it ends in reads as the abstract log the operations build. -/
theorem storage_refines_log [ProstMessage Snapshot] (nodeId : ℕ) (hn : nodeId < U64.size)
    (cs : ConfState) (s₀ : RocksDBStorage)
    (hopen : (RocksDBStorage.openOrCreate Faults.none {} nodeId cs).1 = .ok s₀) (ops : List LogOp)
    (hops : Transition.Along (LogOp.step nodeId) LogOp.Admissible s₀ ops) :
    ∃ s, Transition.run (LogOp.step nodeId) s₀ ops = some s ∧
      ReadsAs s (ops.foldl LogOp.abstractStep { offset := 0, entries := [] }) := by
  obtain ⟨s₁, hopen₁, hrep⟩ := open_fresh_represents nodeId cs
  obtain rfl : s₀ = s₁ := by
    rw [hopen, Except.ok.injEq] at hopen₁
    exact hopen₁
  obtain ⟨s, hrun, hs⟩ := run_represents hn hrep hops
  exact ⟨s, hrun, hs.readsAs⟩

end

end

section
open scoped Codec

/-- A log that is overwritten at index two, grows past it, is compacted and reopened. -/
theorem storage_refines_log_overwrite :
    ∃ s₀ s, (RocksDBStorage.openOrCreate Faults.none {} 1 { voters := [1] }).1 = .ok s₀ ∧
      Transition.run (LogOp.step 1) s₀
        [.append [{ term := 1, index := 1 }, { term := 1, index := 2 }, { term := 1, index := 3 }],
          .append [{ term := 2, index := 2 }], .append [{ term := 2, index := 3 }],
          .compact 1, .reopen { voters := [1] }] = some s ∧
      ReadsAs s
        { offset := 1, entries := [{ term := 2, index := 2 }, { term := 2, index := 3 }] } := by
  obtain ⟨s, hs, hreads⟩ := storage_refines_log 1 (by decide) { voters := [1] } _ rfl
    [.append [{ term := 1, index := 1 }, { term := 1, index := 2 }, { term := 1, index := 3 }],
      .append [{ term := 2, index := 2 }], .append [{ term := 2, index := 3 }],
      .compact 1, .reopen { voters := [1] }] (by decide)
  exact ⟨_, s, rfl, hs, hreads⟩

end

end Raftoral

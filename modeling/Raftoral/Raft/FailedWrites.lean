import Raftoral.Raft.StoragePath

/-!
# Calls that fail

`append`, `compact` and `apply_snapshot` return an error as soon as one of their database writes
fails. What the call has done by then stays: an append to a log that was never written has
cached its first index, a compaction has deleted some entries, an installation has stored the
snapshot. `cleanAt_iff_unchanged` says in which states, and for which failing write, nothing of
this can be observed, in the running process and after the path was opened again.
-/

namespace Raftoral

open ProstMessage Transition

section
variable [ProstMessage Entry] [ProstMessage HardState] [ProstMessage ConfState]
  [ProstMessage Snapshot]

/-- Two storages answer every question about the log and the snapshot alike. -/
structure SameLogAnswers (s s' : RocksDBStorage) : Prop where
  firstIndex : s.firstIndex = s'.firstIndex
  lastIndex : s.lastIndex = s'.lastIndex
  entries : ∀ low high maxSize, s.entries low high maxSize = s'.entries low high maxSize
  term : ∀ idx, s.term idx = s'.term idx
  snapshot : ∀ requestIndex, s.snapshot requestIndex = s'.snapshot requestIndex

/-- The storage `s'` answers as `s` did, and so does the one that opens its path next. -/
def Unchanged (nodeId : ℕ) (s s' : RocksDBStorage) : Prop :=
  SameLogAnswers s' s ∧
    ∀ cs, ∃ r, (RocksDBStorage.openOrCreate Faults.none s'.db nodeId cs).1 = .ok r ∧
      SameLogAnswers r s

/-- The cached first index is the one a process that opens the path will find. -/
def FirstStored (s : RocksDBStorage) : Prop :=
  RocksDBStorage.loadIndex s.db .firstIndex = .ok s.firstIndexCache

/-- Nothing is seen of the operation when its write number `k` fails: an append does not move the
first index, a compaction has deleted only what was not there, and an installation has not
written, or has written the snapshot that was there. -/
def StorageOp.CleanAt (s : RocksDBStorage) (k : ℕ) : StorageOp → Prop
  | .append es => s.lastIndexCache ≠ 0 ∨ batchStart es = s.firstIndexCache
  | .compact _ => ∀ i, s.firstIndexCache ≤ i → i < s.firstIndexCache + k →
      i ≤ s.lastIndexCache → s.db.entries i = none
  | .applySnapshot snapshot => 0 < k → s.getSnapshot = .ok (some snapshot)
  | .storeHardState _ | .updateCommit _ | .storeConfState _ => True

/-! ## Answers -/

section
variable {nodeId : ℕ} {s t : RocksDBStorage}

omit [ProstMessage HardState] [ProstMessage ConfState] in
theorem SameLogAnswers.of_same (h : SameEntries t s) (hsnap : t.getSnapshot = s.getSnapshot) :
    SameLogAnswers t s := by
  refine ⟨?_, ?_, h.entries, h.term hsnap, ?_⟩
  · rw [RocksDBStorage.firstIndex, RocksDBStorage.firstIndex, h.first]
  · rw [RocksDBStorage.lastIndex, RocksDBStorage.lastIndex, h.last]
  · intro requestIndex
    rw [RocksDBStorage.snapshot, RocksDBStorage.snapshot, hsnap]

omit [ProstMessage HardState] [ProstMessage ConfState] in
/-- An entry of the window that is missing on one side is missing on the other. -/
theorem SameLogAnswers.entry_none (h : SameLogAnswers t s)
    (hroom : s.lastIndexCache + 1 < U64.size) {i : ℕ} (hlo : s.firstIndexCache ≤ i)
    (hhi : i ≤ s.lastIndexCache) (hnone : t.db.entries i = none) : s.db.entries i = none := by
  have hfirst : t.firstIndexCache = s.firstIndexCache := Except.ok.inj h.firstIndex
  have hlast : t.lastIndexCache = s.lastIndexCache := Except.ok.inj h.lastIndex
  have hadd : U64.add s.lastIndexCache 1 = s.lastIndexCache + 1 := U64.add_of_lt hroom
  have hanswer := h.entries i (i + 1) none
  rw [RocksDBStorage.entries, RocksDBStorage.entries, hfirst, hlast, hadd, if_neg (by omega),
    if_neg (by omega), if_neg (by omega), if_neg (by omega), if_neg (by omega), if_neg (by omega),
    Nat.add_sub_cancel_left, RocksDBStorage.entriesLoop, RocksDBStorage.entriesLoop,
    RocksDBStorage.loadEntry, RocksDBStorage.loadEntry, hnone] at hanswer
  -- a record that is there is answered, or fails to decode
  cases hstored : s.db.entries i with
  | none => rfl
  | some bytes =>
    rw [hstored] at hanswer
    cases hdecode : (decode bytes : Except String Entry) with
    | ok e => simp [hdecode, Except.map, Except.mapError, RocksDBStorage.entriesLoop] at hanswer
    | error reason => simp [hdecode, Except.map, Except.mapError] at hanswer

omit [ProstMessage HardState] [ProstMessage ConfState] in
theorem SameLogAnswers.getSnapshot (h : SameLogAnswers t s) {snapshot : Snapshot}
    (hsnap : t.getSnapshot = .ok (some snapshot)) : s.getSnapshot = .ok (some snapshot) := by
  have hanswer := h.snapshot 0
  rw [RocksDBStorage.snapshot, hsnap] at hanswer
  exact getSnapshot_of_snapshot hanswer.symm

/-- A call that failed before the first index was written is unobserved as soon as the process
that runs sees nothing of it, provided that the first index was stored. -/
theorem unchanged_iff (ht : InUse nodeId t) (hn : nodeId < U64.size)
    (hlast : t.lastIndexCache = s.lastIndexCache)
    (hstored : t.db.metadata .firstIndex = s.db.metadata .firstIndex) :
    Unchanged nodeId s t ↔ FirstStored s ∧ SameLogAnswers t s := by
  have hload := loadIndex_congr hstored
  constructor
  · rintro ⟨hsame, hreopen⟩
    refine ⟨?_, hsame⟩
    obtain ⟨r, hr, hsame'⟩ := hreopen {}
    obtain ⟨r', hr', -, hfirst, -⟩ := ht.owned.openOrCreate ht.marked hn Faults.none {}
    rw [hr', Except.ok.injEq] at hr
    subst hr
    have hcache : r'.firstIndexCache = s.firstIndexCache := Except.ok.inj hsame'.firstIndex
    rw [FirstStored, ← hload, hfirst, hcache]
  · rintro ⟨hfirst, hsame⟩
    refine ⟨hsame, fun cs => ?_⟩
    obtain ⟨r, hr, hdb, hfirst', huse⟩ := ht.owned.openOrCreate ht.marked hn Faults.none cs
    -- the storage that is opened is the one that was running
    have hrt : r = t := by
      have hcache : t.firstIndexCache = s.firstIndexCache := Except.ok.inj hsame.firstIndex
      have hf : r.firstIndexCache = t.firstIndexCache := by
        rw [hload, hfirst, Except.ok.injEq] at hfirst'
        rw [← hfirst', hcache]
      have hl : r.lastIndexCache = t.lastIndexCache := by
        have hr' := huse.last
        rw [hdb, ht.last, Except.ok.injEq] at hr'
        exact hr'.symm
      cases r
      cases t
      simp_all
    rw [hr]
    exact ⟨r, rfl, hrt ▸ hsame⟩

end

/-! ## The calls -/

section
variable {nodeId : ℕ} {s : RocksDBStorage} {w : Faults} {k : ℕ} {e : StorageError}

omit [ProstMessage HardState] [ProstMessage ConfState] [ProstMessage Snapshot] in
/-- A failed append has cached the first index of its batch, if the log was never written. -/
theorem perform_appendActions_error {es : List Entry} {first last : Entry}
    (h : (perform w (s.appendActions es first last) s).1 = .error e) :
    (perform w (s.appendActions es first last) s).2 =
      { s with firstIndexCache :=
          if s.lastIndexCache = 0 then first.index else s.firstIndexCache } := by
  unfold RocksDBStorage.appendActions at h ⊢
  by_cases hz : s.lastIndexCache = 0
  · simp only [if_pos hz, perform] at h ⊢
    cases hw : w 0 with
    | some reason => rfl
    | none => simp [hw] at h
  · simp only [if_neg hz, perform] at h ⊢
    cases hw : w 0 with
    | some reason => rfl
    | none => simp [hw] at h

omit [ProstMessage Entry] [ProstMessage HardState] [ProstMessage ConfState]
  [ProstMessage Snapshot] in
/-- An operation of one write that fails has done nothing. -/
theorem perform_write_error {batch : List DbWrite}
    (h : (perform w [.write batch] s).1 = .error e) : (perform w [.write batch] s).2 = s := by
  simp only [perform] at h ⊢
  cases hw : w 0 with
  | some reason => rfl
  | none => simp [hw] at h

omit [ProstMessage Entry] [ProstMessage HardState] [ProstMessage ConfState]
  [ProstMessage Snapshot] in
/-- A failed compaction has deleted as many entries as it had writes that did not fail. -/
theorem compact_error {throughIndex : ℕ} (h : (s.compact w throughIndex).1 = .error e)
    (hk : FailsAt w k) :
    (s.compact w throughIndex).2 = { s with db.entries := fun i =>
      if s.firstIndexCache ≤ i ∧ i < s.firstIndexCache + k then none else s.db.entries i } := by
  obtain ⟨done, batch, rest, hact, hcount, hstate⟩ := perform_error h hk
  set range := RocksDBStorage.rangeInclusive s.firstIndexCache throughIndex with hrange
  rw [RocksDBStorage.compactActions, ← hrange] at hact
  -- the last step is no write, so the failing one is a deletion or the put behind them
  have hlen : done.length ≤ range.length := by
    by_contra hlong
    have htotal := congrArg List.length hact
    simp only [List.length_append, List.length_map, List.length_cons, List.length_nil] at htotal
    have hrest : rest = [] := List.length_eq_zero_iff.mp (by omega)
    have hlast := congrArg List.getLast? hact
    rw [hrest] at hlast
    simp at hlast
  have hdone : done = (range.take done.length).map fun i => Action.write [.deleteEntry i] := by
    have htake := congrArg (List.take done.length) hact
    rw [List.take_left, List.take_append_of_le_length (by simpa using hlen), ← List.map_take]
      at htake
    exact htake.symm
  have hk' : done.length = k := by
    rw [← hcount, eq_comm, List.countP_eq_length]
    intro a ha
    rw [hdone] at ha
    obtain ⟨i, -, rfl⟩ := List.mem_map.mp ha
    rfl
  rw [RocksDBStorage.compact, hstate, hdone, foldl_deleteEntry, hk']
  rw [hk', hrange, RocksDBStorage.rangeInclusive, List.length_range'] at hlen
  have hmem : ∀ i, i ∈ range.take k ↔ s.firstIndexCache ≤ i ∧ i < s.firstIndexCache + k := by
    intro i
    rw [hrange, RocksDBStorage.rangeInclusive, List.take_range'_of_length_ge hlen,
      List.mem_range'_1]
  simp only [hmem]

omit [ProstMessage Entry] [ProstMessage HardState] in
/-- A failed installation has stored the snapshot, unless its first write failed. -/
theorem applySnapshot_error {snapshot : Snapshot} (h : (s.applySnapshot w snapshot).1 = .error e)
    (hk : FailsAt w k) :
    ∃ confState, (s.applySnapshot w snapshot).2 = { s with
      db.snapshotData := if k = 0 then s.db.snapshotData else some (encodeToVec snapshot)
      db.metadata := Function.update s.db.metadata .confState confState } := by
  obtain ⟨done, batch, rest, hact, hcount, hstate⟩ := perform_error h hk
  rw [RocksDBStorage.applySnapshot, hstate]
  rw [RocksDBStorage.applySnapshotActions] at hact
  rcases done with _ | ⟨a, _ | ⟨b, _ | ⟨c, _ | ⟨d, done⟩⟩⟩⟩
  · have hk₀ : k = 0 := hcount.symm
    exact ⟨s.db.metadata .confState, by simp [hk₀]⟩
  · simp only [List.cons_append, List.nil_append, List.cons.injEq] at hact
    obtain ⟨rfl, -⟩ := hact
    have hk₁ : k = 1 := hcount.symm
    exact ⟨s.db.metadata .confState, by simp [hk₁, Action.apply, DbWrite.apply]⟩
  · simp only [List.cons_append, List.nil_append, List.cons.injEq] at hact
    obtain ⟨rfl, rfl, -⟩ := hact
    have hk₂ : k = 2 := hcount.symm
    exact ⟨some (encodeToVec snapshot.metadata.confState),
      by simp [hk₂, Action.apply, DbWrite.apply]⟩
  · -- behind the writes only the cache is set, which does not fail
    simp at hact
  · simp at hact

variable {op : StorageOp}

/-- What a failed call leaves of the records that every operation writes last. -/
structure LeavesIndices (s t : RocksDBStorage) : Prop where
  last : t.lastIndexCache = s.lastIndexCache
  storedFirst : t.db.metadata .firstIndex = s.db.metadata .firstIndex

/-- A failed call has not got to the indices, and what can be seen of it is what `CleanAt`
excludes. -/
theorem StorageOp.run_error (hroom : s.lastIndexCache + 1 < U64.size)
    (h : (op.run w s).1 = .error e) (hk : FailsAt w k) :
    LeavesIndices s (op.run w s).2 ∧ (SameLogAnswers (op.run w s).2 s ↔ op.CleanAt s k) := by
  -- three of the calls make one write, so that failing they leave nothing
  have hunchanged : ∀ t : RocksDBStorage, t = s → LeavesIndices s t ∧ SameLogAnswers t s := by
    rintro t rfl
    exact ⟨⟨rfl, rfl⟩, .of_same ⟨rfl, rfl, fun _ _ _ => rfl⟩ rfl⟩
  cases op with
  | append es =>
    cases es with
    | nil => exact absurd h (by simp [run, RocksDBStorage.append])
    | cons x es =>
      rw [run, RocksDBStorage.append, List.head?_cons,
        List.getLast?_eq_some_getLast (List.cons_ne_nil x es)] at h ⊢
      simp only at h ⊢
      -- the batch is all or nothing, but the first index was cached before it
      rw [perform_appendActions_error h]
      refine ⟨⟨rfl, rfl⟩, fun hsame => ?_, fun hclean => ?_⟩
      · have hfirst := Except.ok.inj hsame.firstIndex
        by_cases hz : s.lastIndexCache = 0
        · rw [if_pos hz] at hfirst
          exact Or.inr hfirst
        · exact Or.inl hz
      · refine (hunchanged _ ?_).2
        by_cases hz : s.lastIndexCache = 0
        · have hindex : x.index = s.firstIndexCache := hclean.resolve_left (not_not_intro hz)
          rw [if_pos hz, hindex]
        · rw [if_neg hz]
  | compact throughIndex =>
    rw [run] at h ⊢
    -- `k` entries are gone by then
    rw [compact_error h hk]
    refine ⟨⟨rfl, rfl⟩, fun hsame i hlo hhi hle => ?_, fun hclean => ?_⟩
    · exact hsame.entry_none hroom hlo hle (if_pos ⟨hlo, hhi⟩)
    · refine .of_same ⟨rfl, rfl, fun i hlo hhi => ?_⟩ rfl
      rw [RocksDBStorage.loadEntry, RocksDBStorage.loadEntry]
      by_cases hi : s.firstIndexCache ≤ i ∧ i < s.firstIndexCache + k
      · simp only [if_pos hi, hclean i hi.1 hi.2 hhi]
      · simp only [if_neg hi]
  | applySnapshot snapshot =>
    rw [run] at h ⊢
    obtain ⟨confState, hstate⟩ := applySnapshot_error h hk
    rw [hstate]
    have hkept : Function.update s.db.metadata .confState confState .firstIndex =
        s.db.metadata .firstIndex := Function.update_of_ne (by decide) ..
    refine ⟨⟨rfl, hkept⟩, fun hsame hpos => ?_, fun hclean => ?_⟩
    · refine hsame.getSnapshot (getSnapshot_of_stored ?_)
      exact if_neg (by omega)
    · refine .of_same ⟨rfl, rfl, fun _ _ _ => rfl⟩ ?_
      by_cases hzero : k = 0
      · simp only [RocksDBStorage.getSnapshot, if_pos hzero]
      · rw [hclean (by omega)]
        exact getSnapshot_of_stored (if_neg hzero)
  | storeHardState hs =>
    have hstate : ((storeHardState hs).run w s).2 = s := by
      rw [run, RocksDBStorage.storeHardState] at h ⊢
      exact perform_write_error h
    exact ⟨(hunchanged _ hstate).1, fun _ => trivial, fun _ => (hunchanged _ hstate).2⟩
  | updateCommit commit =>
    have hstate : ((updateCommit commit).run w s).2 = s := by
      rw [run, RocksDBStorage.updateCommit] at h ⊢
      cases hload : s.loadHardState with
      | error reason => rfl
      | ok hs =>
        rw [hload] at h
        exact perform_write_error h
    exact ⟨(hunchanged _ hstate).1, fun _ => trivial, fun _ => (hunchanged _ hstate).2⟩
  | storeConfState cs =>
    have hstate : ((storeConfState cs).run w s).2 = s := by
      rw [run, RocksDBStorage.storeConfState] at h ⊢
      exact perform_write_error h
    exact ⟨(hunchanged _ hstate).1, fun _ => trivial, fun _ => (hunchanged _ hstate).2⟩

/-- A call on a storage that is open, after any history of its path, fails in its write number
`k`. Then its answers are those from before the call, in this process and in the next, exactly
when the first index was the stored one and the call is clean there. -/
theorem failed_call_unchanged_iff (hn : nodeId < U64.size) (hs : Reached nodeId s)
    (hop : op.IndicesBelow (U64.size - 1)) (hfail : (op.run w s).1 = .error e)
    (hk : FailsAt w k) :
    Unchanged nodeId s (op.run w s).2 ↔ FirstStored s ∧ op.CleanAt s k := by
  have huse : InUse nodeId s := hs.inUse hn
  obtain ⟨hleaves, hclean⟩ := StorageOp.run_error huse.room hfail hk
  rw [unchanged_iff (huse.run hop w) hn hleaves.last hleaves.storedFirst, hclean]

end

end

section
open Codec

/-- The database fails in one write. -/
def Faults.only (k : ℕ) : Faults := fun i => if i = k then some "IO error" else Option.none

set_option maxRecDepth 4000 in
/-- An installation that fails in its first write, on a log that was compacted, is not seen. -/
theorem failed_call_unchanged_iff_first_write :
    ∃ s, Reached 1 s ∧
      (StorageOp.applySnapshot { metadata := { index := 2, term := 1 } }).run (Faults.only 0) s =
        (.error (.other "IO error"), s) ∧
      Unchanged 1 s
        ((StorageOp.applySnapshot { metadata := { index := 2, term := 1 } }).run
          (Faults.only 0) s).2 := by
  refine ⟨_, ⟨[.openOrCreate .none { voters := [1] },
    .call (.append [{ term := 1, index := 1 }, { term := 1, index := 2 }]) .none,
    .call (.compact 1) .none], by decide, rfl⟩, rfl, ?_⟩
  have hk : FailsAt (Faults.only 0) 0 := ⟨rfl, fun j hj => by omega⟩
  refine (failed_call_unchanged_iff (by decide) ⟨[.openOrCreate .none { voters := [1] },
    .call (.append [{ term := 1, index := 1 }, { term := 1, index := 2 }]) .none,
    .call (.compact 1) .none], by decide, rfl⟩ (by decide) rfl hk).mpr ?_
  exact ⟨rfl, fun h => absurd h (by decide)⟩

set_option maxRecDepth 4000 in
/-- A compaction whose second deletion fails: the first entry cannot be read any more, although
the first index still names it. -/
theorem compact_failed_second_write :
    ∃ s, Reached 1 s ∧
      ((StorageOp.compact 2).run (Faults.only 1) s).1 = .error (.other "IO error") ∧
      s.entries 1 2 none = .ok [{ term := 1, index := 1 }] ∧
      ((StorageOp.compact 2).run (Faults.only 1) s).2.entries 1 2 none = .error .unavailable ∧
      ((StorageOp.compact 2).run (Faults.only 1) s).2.firstIndex = .ok 1 ∧
      ¬ Unchanged 1 s ((StorageOp.compact 2).run (Faults.only 1) s).2 := by
  refine ⟨_, ⟨[.openOrCreate .none { voters := [1] },
    .call (.append [{ term := 1, index := 1 }, { term := 1, index := 2 }]) .none], by decide, rfl⟩,
    rfl, rfl, rfl, rfl, fun h => ?_⟩
  have hanswer : (Except.error .unavailable : Except StorageError (List Entry)) =
      .ok [{ term := 1, index := 1 }] := h.1.entries 1 2 none
  cases hanswer

end

end Raftoral

import Raftoral.Raft.CrashRecovery

/-!
# The readable window

The indices from `first_index` to `last_index` are those a reader may ask for. `compact` and
`apply_snapshot` set `first_index` to the index behind their argument without looking at the
value it has. A call that comes late, for an index below the window, moves it back: over
entries that a compaction has deleted the window then has holes, and over entries that only a
snapshot has covered it grows again.

`Windowed` is what reading needs. Every operation that is not late keeps it, and `first_index`
falls in exactly the late ones.
-/

namespace Raftoral

open ProstMessage Transition

section
variable [ProstMessage Entry] [ProstMessage HardState] [ProstMessage ConfState]
  [ProstMessage Snapshot]

/-- A window that starts at one or later, with an entry stored at each of its indices, and a
snapshot, if there is one, that can be read. -/
structure Windowed (s : RocksDBStorage) : Prop where
  firstPos : 1 ≤ s.firstIndexCache
  firstLe : s.firstIndexCache ≤ s.lastIndexCache + 1
  record : ∀ i, s.firstIndexCache ≤ i → i ≤ s.lastIndexCache →
    ∃ e : Entry, s.db.entries i = some (encodeToVec e)
  snapshot : s.db.snapshotData = none ∨
    ∃ snapshot : Snapshot, s.db.snapshotData = some (encodeToVec snapshot)

/-- The calls of a Raft log: a batch continues the log or overwrites its end, and neither a
compaction nor a snapshot reaches behind it. -/
def StorageOp.WithinLog (s : RocksDBStorage) : StorageOp → Prop
  | .append es => es ≠ [] ∧ Contiguous es ∧ s.firstIndexCache ≤ batchStart es ∧
      batchStart es ≤ s.lastIndexCache + 1 ∧ ∀ e ∈ es, e.index < U64.size - 1
  | .compact throughIndex => throughIndex ≤ s.lastIndexCache
  | .applySnapshot snapshot => snapshot.metadata.index ≤ s.lastIndexCache
  | .storeHardState _ | .updateCommit _ | .storeConfState _ => True

instance (s : RocksDBStorage) (op : StorageOp) : Decidable (op.WithinLog s) :=
  match op with
  | .append es => inferInstanceAs (Decidable (es ≠ [] ∧ _ ∧ _ ∧ _ ∧ _))
  | .compact _ | .applySnapshot _ => inferInstanceAs (Decidable (_ ≤ _))
  | .storeHardState _ | .updateCommit _ | .storeConfState _ => isTrue trivial

/-- The call does not come late: it names no index below what is gone already. -/
def StorageOp.NotLate (s : RocksDBStorage) : StorageOp → Prop
  | .compact throughIndex => s.firstIndexCache ≤ throughIndex + 1
  | .applySnapshot snapshot => s.firstIndexCache ≤ snapshot.metadata.index + 1
  | .append _ | .storeHardState _ | .updateCommit _ | .storeConfState _ => True

instance (s : RocksDBStorage) (op : StorageOp) : Decidable (op.NotLate s) :=
  match op with
  | .compact _ | .applySnapshot _ => inferInstanceAs (Decidable (_ ≤ _))
  | .append _ | .storeHardState _ | .updateCommit _ | .storeConfState _ => isTrue trivial

/-- Every index of the window can be read, its term and its entry. -/
def Readable (s : RocksDBStorage) : Prop :=
  ∀ i, s.firstIndexCache ≤ i → i ≤ s.lastIndexCache →
    (∃ term, s.term i = .ok term) ∧ ∃ es, s.entries i (i + 1) none = .ok es

/-- Along a run the window never moves back, and there is no hole in it. -/
structure SoundWindow (s₀ : RocksDBStorage) (ops : List StorageOp) : Prop where
  neverBack : ∀ ops₁ ops₂ s₁ s₂, ops₁ <+: ops₂ → ops₂ <+: ops →
    run StorageOp.step s₀ ops₁ = some s₁ → run StorageOp.step s₀ ops₂ = some s₂ →
      s₁.firstIndexCache ≤ s₂.firstIndexCache
  noHole : ∀ ops₁ s₁, ops₁ <+: ops → run StorageOp.step s₀ ops₁ = some s₁ → Readable s₁

/-! ## The operations -/

section
variable {nodeId : ℕ} {s s' : RocksDBStorage} {op : StorageOp}

omit [ProstMessage HardState] [ProstMessage ConfState] in
theorem Windowed.readable (h : Windowed s) (hroom : s.lastIndexCache + 1 < U64.size) :
    Readable s := by
  intro i hlo hhi
  obtain ⟨e, he⟩ := h.record i hlo hhi
  have hload : s.loadEntry i = .ok (some e) := by
    rw [RocksDBStorage.loadEntry, he]
    simp [Except.map, Except.mapError]
  have hterm : s.entryTerm i = .ok e.term := by
    rw [RocksDBStorage.entryTerm, if_neg (by omega), if_neg (by omega), hload]
  have hadd : U64.add s.lastIndexCache 1 = s.lastIndexCache + 1 := U64.add_of_lt hroom
  refine ⟨?_, [e], ?_⟩
  · unfold RocksDBStorage.term
    rcases h.snapshot with hnone | ⟨snapshot, hsnap⟩
    · have hpos := h.firstPos
      have hzero : i ≠ 0 := by omega
      rw [show s.getSnapshot = .ok none by rw [RocksDBStorage.getSnapshot, hnone]]
      exact ⟨e.term, by simp only [if_neg hzero, hterm]⟩
    · -- at the index of the snapshot its term is answered
      rw [getSnapshot_of_stored hsnap]
      by_cases hi : i = snapshot.metadata.index
      · exact ⟨snapshot.metadata.term, by simp only [if_pos hi]⟩
      · exact ⟨e.term, by simp only [if_neg hi, hterm]⟩
  · rw [RocksDBStorage.entries, if_neg (by omega), if_neg (by omega), if_neg (by omega),
      Nat.add_sub_cancel_left, RocksDBStorage.entriesLoop, hload]
    rfl

omit [ProstMessage HardState] [ProstMessage ConfState] in
/-- What an append of consecutive entries leaves of the indices and the records. -/
theorem Windowed.foldl_appendActions (h : Windowed s) {e last : Entry} {es : List Entry}
    (hc : Contiguous (e :: es)) (hlo : s.firstIndexCache ≤ e.index)
    (hhi : e.index ≤ s.lastIndexCache + 1)
    (hs' : (s.appendActions (e :: es) e last).foldl (fun s a => a.apply s) s = s') :
    s'.firstIndexCache = s.firstIndexCache ∧ s'.lastIndexCache = last.index ∧
      s'.db.snapshotData = s.db.snapshotData ∧
      ∀ i, s'.db.entries i = if e.index ≤ i ∧ i < e.index + (e :: es).length then
        (e :: es)[i - e.index]?.map encodeToVec else s.db.entries i := by
  have hputs := fun i => entries_write_puts s.db (e :: es) e.index i hc
  have hsnap := snapshotData_write_puts s.db (e :: es)
  have hpos := h.firstPos
  unfold RocksDBStorage.appendActions at hs'
  by_cases hz : s.lastIndexCache = 0
  · -- an empty window starts at one, and so does the batch
    have hone : e.index = s.firstIndexCache := by omega
    rw [if_pos hz] at hs'
    simp only [List.foldl_cons, List.foldl_nil, Action.apply, Db.write_append] at hs'
    subst hs'
    exact ⟨hone, rfl, hsnap, hputs⟩
  · rw [if_neg hz] at hs'
    simp only [List.foldl_cons, List.foldl_nil, Action.apply, Db.write_append] at hs'
    subst hs'
    exact ⟨rfl, rfl, hsnap, hputs⟩

omit [ProstMessage HardState] [ProstMessage ConfState] in
/-- Below its start a batch leaves the window, from there on it fills it. -/
theorem Windowed.append (h : Windowed s) {e : Entry} {es : List Entry}
    (hc : Contiguous (e :: es)) (hlo : s.firstIndexCache ≤ e.index)
    (hhi : e.index ≤ s.lastIndexCache + 1)
    (hs' : (s.appendActions (e :: es) e ((e :: es).getLast (List.cons_ne_nil e es))).foldl
      (fun s a => a.apply s) s = s') :
    Windowed s' ∧ s.firstIndexCache ≤ s'.firstIndexCache := by
  obtain ⟨hfirst, hlast, hsnap, hrecord⟩ := h.foldl_appendActions hc hlo hhi hs'
  have hindex := hc.getLast_index
  have hlen : (e :: es).length = es.length + 1 := List.length_cons
  refine ⟨⟨?_, ?_, ?_, ?_⟩, hfirst.ge⟩
  · rw [hfirst]
    exact h.firstPos
  · rw [hfirst, hlast]
    omega
  · intro i hi hi'
    rw [hfirst] at hi
    rw [hlast] at hi'
    rw [hrecord i]
    by_cases hbatch : e.index ≤ i
    · have hin : i - e.index < (e :: es).length := by omega
      refine ⟨(e :: es)[i - e.index], ?_⟩
      rw [if_pos (by omega), List.getElem?_eq_getElem hin, Option.map_some]
    · rw [if_neg (by omega)]
      exact h.record i hi (by omega)
  · rw [hsnap]
    exact h.snapshot

omit [ProstMessage HardState] [ProstMessage ConfState] in
/-- A window that starts later and keeps its records has no hole that it did not have. -/
theorem Windowed.advance (h : Windowed s) {t : ℕ} (hle : t ≤ s.lastIndexCache)
    (hlate : s.firstIndexCache ≤ t + 1) (hfirst : s'.firstIndexCache = t + 1)
    (hlast : s'.lastIndexCache = s.lastIndexCache)
    (hrecord : ∀ i, t < i → s'.db.entries i = s.db.entries i)
    (hsnap : s'.db.snapshotData = s.db.snapshotData ∨
      ∃ snapshot : Snapshot, s'.db.snapshotData = some (encodeToVec snapshot)) :
    Windowed s' ∧ s.firstIndexCache ≤ s'.firstIndexCache := by
  refine ⟨⟨by omega, by omega, fun i hi hi' => ?_, ?_⟩, by omega⟩
  · rw [hrecord i (by omega)]
    exact h.record i (by omega) (by omega)
  · rcases hsnap with hsnap | hsnap
    · rw [hsnap]
      exact h.snapshot
    · exact Or.inr hsnap

omit [ProstMessage HardState] [ProstMessage ConfState] in
theorem Windowed.of_sameLog (h : Windowed s) (hsame : SameLog s s') :
    Windowed s' ∧ s.firstIndexCache ≤ s'.firstIndexCache := by
  obtain ⟨hfirst, hlast, hentries, hsnap⟩ := hsame
  refine ⟨⟨?_, ?_, ?_, ?_⟩, hfirst.ge⟩
  · rw [hfirst]
    exact h.firstPos
  · rw [hfirst, hlast]
    exact h.firstLe
  · rw [hfirst, hlast, hentries]
    exact h.record
  · rw [hsnap]
    exact h.snapshot

omit [ProstMessage Entry] [ProstMessage HardState] [ProstMessage ConfState]
  [ProstMessage Snapshot] in
theorem StorageOp.WithinLog.indicesBelow (hop : op.WithinLog s)
    (hroom : s.lastIndexCache + 1 < U64.size) : op.IndicesBelow (U64.size - 1) := by
  cases op with
  | append es => exact hop.2.2.2.2
  | compact throughIndex =>
    have hle : throughIndex ≤ s.lastIndexCache := hop
    show throughIndex < U64.size - 1
    omega
  | applySnapshot snapshot =>
    have hle : snapshot.metadata.index ≤ s.lastIndexCache := hop
    show snapshot.metadata.index < U64.size - 1
    omega
  | storeHardState hs => trivial
  | updateCommit commit => trivial
  | storeConfState cs => trivial

/-- An operation that is not late keeps the window and does not move it back. -/
theorem Windowed.step (h : Windowed s) (hu : Usable nodeId s) (hop : op.WithinLog s)
    (hlate : op.NotLate s) (hstep : op.step s = some s') :
    Windowed s' ∧ s.firstIndexCache ≤ s'.firstIndexCache := by
  have hroom := hu.room
  obtain ⟨hs, hload⟩ := hu.hard
  rw [hu.step_some op, Option.some.injEq] at hstep
  cases op with
  | append es =>
    obtain ⟨hne, hc, hlo, hhi, -⟩ := hop
    obtain ⟨e, es, rfl⟩ := List.exists_cons_of_ne_nil hne
    rw [StorageOp.actions, List.head?_cons,
      List.getLast?_eq_some_getLast (List.cons_ne_nil e es)] at hstep
    exact h.append hc hlo hhi hstep
  | compact throughIndex =>
    have hle : throughIndex ≤ s.lastIndexCache := hop
    have hadd : U64.add throughIndex 1 = throughIndex + 1 := U64.add_of_lt (by omega)
    rw [StorageOp.actions, RocksDBStorage.compactActions, List.foldl_append,
      foldl_deleteEntry, hadd] at hstep
    subst hstep
    refine h.advance hle hlate rfl rfl (fun i hi => ?_) (Or.inl rfl)
    -- what is left lies behind the deleted range
    have hmem : i ∉ RocksDBStorage.rangeInclusive s.firstIndexCache throughIndex := by
      simp only [RocksDBStorage.rangeInclusive, List.mem_range'_1]
      omega
    exact if_neg hmem
  | applySnapshot snapshot =>
    have hle : snapshot.metadata.index ≤ s.lastIndexCache := hop
    have hadd : U64.add snapshot.metadata.index 1 = snapshot.metadata.index + 1 :=
      U64.add_of_lt (by omega)
    rw [StorageOp.actions, RocksDBStorage.applySnapshotActions, hadd] at hstep
    subst hstep
    exact h.advance hle hlate rfl rfl (fun i _ => rfl) (Or.inr ⟨snapshot, rfl⟩)
  | storeHardState hs =>
    subst hstep
    exact h.of_sameLog ⟨rfl, rfl, rfl, rfl⟩
  | updateCommit commit =>
    rw [StorageOp.actions, hload] at hstep
    subst hstep
    exact h.of_sameLog ⟨rfl, rfl, rfl, rfl⟩
  | storeConfState cs =>
    subst hstep
    exact h.of_sameLog ⟨rfl, rfl, rfl, rfl⟩

/-- A late call moves the window back, whatever the state of the storage. -/
theorem Usable.notLate_of_le (hu : Usable nodeId s) (hop : op.WithinLog s)
    (hstep : op.step s = some s') (hle : s.firstIndexCache ≤ s'.firstIndexCache) :
    op.NotLate s := by
  have hroom := hu.room
  rw [hu.step_some op, Option.some.injEq] at hstep
  cases op with
  | compact throughIndex =>
    have hbound : throughIndex ≤ s.lastIndexCache := hop
    have hadd : U64.add throughIndex 1 = throughIndex + 1 := U64.add_of_lt (by omega)
    rw [StorageOp.actions, RocksDBStorage.compactActions, List.foldl_append, hadd] at hstep
    subst hstep
    exact hle
  | applySnapshot snapshot =>
    have hbound : snapshot.metadata.index ≤ s.lastIndexCache := hop
    have hadd : U64.add snapshot.metadata.index 1 = snapshot.metadata.index + 1 :=
      U64.add_of_lt (by omega)
    rw [StorageOp.actions, RocksDBStorage.applySnapshotActions, hadd] at hstep
    subst hstep
    exact hle
  | append es => trivial
  | storeHardState hs => trivial
  | updateCommit commit => trivial
  | storeConfState cs => trivial

end

/-! ## Runs -/

section
variable {nodeId : ℕ} {s₀ s : RocksDBStorage} {ops : List StorageOp}

/-- The calls of a Raft log succeed, late or not. -/
theorem Usable.run_some (h : Usable nodeId s₀)
    (hops : Along StorageOp.step StorageOp.WithinLog s₀ ops) :
    ∃ s, run StorageOp.step s₀ ops = some s ∧ Usable nodeId s := by
  induction ops generalizing s₀ with
  | nil => exact ⟨s₀, rfl, h⟩
  | cons op ops ih =>
    have hstep := h.step_some op
    have hnext := h.step (hops.1.indicesBelow h.room) hstep
    obtain ⟨s, hrun, hs⟩ := ih hnext (hops.2 _ hstep)
    exact ⟨s, run_cons.mpr ⟨_, hstep, hrun⟩, hs⟩

/-- In a run whose calls are not late the window is kept all the way. -/
theorem Windowed.run (h : Windowed s₀) (hu : Usable nodeId s₀)
    (hops : Along StorageOp.step StorageOp.WithinLog s₀ ops)
    (hlate : Along StorageOp.step StorageOp.NotLate s₀ ops)
    (hrun : run StorageOp.step s₀ ops = some s) : Windowed s ∧ Usable nodeId s := by
  refine run_induction (I := fun s => Windowed s ∧ Usable nodeId s)
    (C := fun s op => StorageOp.WithinLog s op ∧ StorageOp.NotLate s op)
    (fun t op t' ht hC hstep => ?_) ⟨h, hu⟩ (hops.and hlate) hrun
  exact ⟨(ht.1.step ht.2 hC.1 hC.2 hstep).1, ht.2.step (hC.1.indicesBelow ht.2.room) hstep⟩

/-- In a run whose calls are not late no step moves the window back. -/
theorem Windowed.along_le (h : Windowed s₀) (hu : Usable nodeId s₀)
    (hops : Along StorageOp.step StorageOp.WithinLog s₀ ops)
    (hlate : Along StorageOp.step StorageOp.NotLate s₀ ops) :
    Along StorageOp.step
      (fun s op => ∀ s', op.step s = some s' → s.firstIndexCache ≤ s'.firstIndexCache) s₀ ops := by
  induction ops generalizing s₀ with
  | nil => trivial
  | cons op ops ih =>
    refine ⟨fun s' hs' => (h.step hu hops.1 hlate.1 hs').2, fun s' hs' => ?_⟩
    exact ih (h.step hu hops.1 hlate.1 hs').1 (hu.step (hops.1.indicesBelow hu.room) hs')
      (hops.2 s' hs') (hlate.2 s' hs')

/-- In a run in which no step moves the window back, no call is late. -/
theorem Usable.along_notLate (hu : Usable nodeId s₀)
    (hops : Along StorageOp.step StorageOp.WithinLog s₀ ops)
    (hle : Along StorageOp.step
      (fun s op => ∀ s', op.step s = some s' → s.firstIndexCache ≤ s'.firstIndexCache) s₀ ops) :
    Along StorageOp.step StorageOp.NotLate s₀ ops := by
  induction ops generalizing s₀ with
  | nil => trivial
  | cons op ops ih =>
    have hstep := hu.step_some op
    refine ⟨hu.notLate_of_le hops.1 hstep (hle.1 _ hstep), fun s' hs' => ?_⟩
    exact ih (hu.step (hops.1.indicesBelow hu.room) hs') (hops.2 s' hs') (hle.2 s' hs')

omit [ProstMessage Entry] [ProstMessage Snapshot] in
theorem open_fresh_eq {cs : ConfState}
    (hopen : (RocksDBStorage.openOrCreate Faults.none {} nodeId cs).1 = .ok s₀) :
    s₀ = { db := { metadata := initialMetadata nodeId cs }
           firstIndexCache := 1
           lastIndexCache := 0 } := by
  rw [openOrCreate_of_unmarked nodeId cs rfl, Except.ok.injEq] at hopen
  exact hopen.symm

theorem open_fresh_windowed {cs : ConfState}
    (hopen : (RocksDBStorage.openOrCreate Faults.none {} nodeId cs).1 = .ok s₀) :
    Windowed s₀ := by
  rw [open_fresh_eq hopen]
  refine ⟨Nat.le_refl 1, Nat.le_refl 1, fun i hlo hhi => ?_, Or.inl rfl⟩
  have hlo' : 1 ≤ i := hlo
  have hhi' : i ≤ 0 := hhi
  omega

/-- On a new storage every run of the calls of a Raft log succeeds. The window never moves back
and has no hole exactly when no compaction and no snapshot comes late. -/
theorem soundWindow_iff_notLate {cs : ConfState}
    (hopen : (RocksDBStorage.openOrCreate Faults.none {} nodeId cs).1 = .ok s₀)
    (hops : Along StorageOp.step StorageOp.WithinLog s₀ ops) :
    (∃ s, run StorageOp.step s₀ ops = some s) ∧
      (SoundWindow s₀ ops ↔ Along StorageOp.step StorageOp.NotLate s₀ ops) := by
  have hu : Usable nodeId s₀ := open_fresh_usable hopen
  have hw : Windowed s₀ := open_fresh_windowed hopen
  obtain ⟨s, hrun, -⟩ := hu.run_some hops
  refine ⟨⟨s, hrun⟩, fun h => ?_, fun hlate => ⟨?_, ?_⟩⟩
  · exact hu.along_notLate hops (nondecreasing_iff_along.mp h.neverBack)
  · exact nondecreasing_iff_along.mpr (hw.along_le hu hops hlate)
  · rintro ops₁ s₁ ⟨ops₂, rfl⟩ hrun₁
    obtain ⟨hw₁, hu₁⟩ := hw.run hu ((along_append hrun₁).mp hops).1
      ((along_append hrun₁).mp hlate).1 hrun₁
    exact hw₁.readable hu₁.room

end

end

section
open Codec

/-- Overwritten, compacted and covered by a snapshot, in this order. -/
theorem soundWindow_iff_notLate_in_order :
    ∃ s₀, (RocksDBStorage.openOrCreate Faults.none {} 1 { voters := [1] }).1 = .ok s₀ ∧
      SoundWindow s₀
        [.append [{ term := 1, index := 1 }, { term := 1, index := 2 }, { term := 1, index := 3 }],
          .append [{ term := 2, index := 2 }, { term := 2, index := 3 }], .compact 1,
          .applySnapshot { metadata := { index := 2, term := 2 } }, .compact 2] :=
  ⟨_, rfl, (soundWindow_iff_notLate rfl (by decide)).2.mpr (by decide)⟩

set_option maxRecDepth 4000 in
/-- A compaction through an index that is gone already moves the window back over an entry that
was deleted. -/
theorem compact_late_hole :
    ∃ s₀ s, (RocksDBStorage.openOrCreate Faults.none {} 1 { voters := [1] }).1 = .ok s₀ ∧
      Along StorageOp.step StorageOp.WithinLog s₀
        [.append [{ term := 1, index := 1 }, { term := 1, index := 2 }, { term := 1, index := 3 }],
          .compact 2, .compact 1] ∧
      run StorageOp.step s₀
        [.append [{ term := 1, index := 1 }, { term := 1, index := 2 }, { term := 1, index := 3 }],
          .compact 2, .compact 1] = some s ∧
      s.firstIndex = .ok 2 ∧ s.lastIndex = .ok 3 ∧ s.term 2 = .error .unavailable ∧
      s.entries 2 3 none = .error .unavailable ∧
      ¬ SoundWindow s₀
        [.append [{ term := 1, index := 1 }, { term := 1, index := 2 }, { term := 1, index := 3 }],
          .compact 2, .compact 1] := by
  refine ⟨_, _, rfl, by decide, rfl, rfl, rfl, rfl, rfl, fun h => ?_⟩
  have hback := h.neverBack
    [.append [{ term := 1, index := 1 }, { term := 1, index := 2 }, { term := 1, index := 3 }],
      .compact 2]
    [.append [{ term := 1, index := 1 }, { term := 1, index := 2 }, { term := 1, index := 3 }],
      .compact 2, .compact 1] _ _ ⟨[.compact 1], rfl⟩ (List.prefix_refl _) rfl rfl
  exact absurd hback (by decide)

end

end Raftoral

import Raftoral.Raft.Storage
import Raftoral.Raft.StorageLog

/-!
# What the storage goes on answering

The entry at an index, the term at an index and the term of the hard state, across the
writes of a node: which operations leave an answer as it was, whatever faults the database
has. Nothing is assumed about the rest of the log.
-/

namespace Raftoral

open ProstMessage

/-! ## Faults -/

/-- What every action keeps, an operation keeps, however far it gets. -/
theorem perform_rel {R : RocksDBStorage → RocksDBStorage → Prop} (hrefl : ∀ s, R s s)
    (htrans : ∀ s t u, R s t → R t u → R s u) {actions : List Action}
    (h : ∀ a ∈ actions, ∀ s, R s (a.apply s)) (w : Faults) (s : RocksDBStorage) :
    R s (perform w actions s).2 := by
  induction actions generalizing w s with
  | nil => exact hrefl s
  | cons a rest ih =>
    have ha := h a List.mem_cons_self s
    have hrest := fun w s' => ih (fun b hb => h b (List.mem_cons_of_mem a hb)) w s'
    cases a with
    | write batch =>
      rw [perform]
      cases w 0 with
      | some reason => exact hrefl s
      | none => exact htrans _ _ _ ha (hrest _ _)
    | storeFirst i => exact htrans _ _ _ ha (hrest _ _)
    | storeLast i => exact htrans _ _ _ ha (hrest _ _)

/-- An operation that succeeds did all it had to do. -/
theorem perform_ok {w : Faults} {actions : List Action} {s s' : RocksDBStorage}
    (h : perform w actions s = (.ok (), s')) : s' = actions.foldl (fun s a => a.apply s) s := by
  induction actions generalizing w s with
  | nil =>
    rw [perform, Prod.mk.injEq] at h
    exact h.2.symm
  | cons a rest ih =>
    cases a with
    | write batch =>
      rw [perform] at h
      cases hw : w 0 with
      | some reason =>
        rw [hw] at h
        exact absurd h (by simp)
      | none =>
        rw [hw] at h
        exact ih h
    | storeFirst i => exact ih h
    | storeLast i => exact ih h

/-! ## Entries -/

section
variable [ProstMessage Entry]

/-- The storage answers an entry at its index. -/
def Holds (s : RocksDBStorage) (e : Entry) : Prop :=
  s.entries e.index (e.index + 1) none = .ok [e]

theorem holds_iff {s : RocksDBStorage} {e : Entry} :
    Holds s e ↔ s.firstIndexCache ≤ e.index ∧ e.index + 1 ≤ U64.add s.lastIndexCache 1 ∧
      s.loadEntry e.index = .ok (some e) := by
  unfold Holds RocksDBStorage.entries
  rw [if_neg (by omega)]
  by_cases h₁ : e.index < s.firstIndexCache
  · rw [if_pos h₁]
    simp only [reduceCtorEq, false_iff]
    omega
  · by_cases h₂ : U64.add s.lastIndexCache 1 < e.index + 1
    · rw [if_neg h₁, if_pos h₂]
      simp only [reduceCtorEq, false_iff]
      omega
    · -- within the range the loop reads one record
      rw [if_neg h₁, if_neg h₂, Nat.add_sub_cancel_left, RocksDBStorage.entriesLoop]
      have hle : s.firstIndexCache ≤ e.index ∧ e.index + 1 ≤ U64.add s.lastIndexCache 1 := by omega
      cases hload : s.loadEntry e.index with
      | error err => simp
      | ok found =>
        cases found with
        | none => simp
        | some x => simp [RocksDBStorage.entriesLoop, Except.map, hle]

/-- An entry depends on its record and on the window only. -/
theorem Holds.of_record {s s' : RocksDBStorage} {e : Entry} (h : Holds s e)
    (hfirst : s'.firstIndexCache ≤ e.index) (hlast : e.index + 1 ≤ U64.add s'.lastIndexCache 1)
    (hrec : s'.db.entries e.index = s.db.entries e.index) : Holds s' e := by
  obtain ⟨-, -, hload⟩ := holds_iff.mp h
  refine holds_iff.mpr ⟨hfirst, hlast, ?_⟩
  rw [← hload, RocksDBStorage.loadEntry, RocksDBStorage.loadEntry, hrec]

/-- Puts under other keys leave a record alone. -/
theorem entries_write_puts_of_not_mem (db : Db) {es : List Entry} {i : ℕ}
    (h : ∀ x ∈ es, x.index ≠ i) :
    (db.write (es.map fun e => DbWrite.putEntry e.index (encodeToVec e))).entries i =
      db.entries i := by
  induction es generalizing db with
  | nil => rfl
  | cons e es ih =>
    rw [List.map_cons, Db.write_cons, ih _ fun x hx => h x (List.mem_cons_of_mem e hx)]
    exact Function.update_of_ne (h e List.mem_cons_self).symm _ _

/-- Appending behind an entry leaves it in place. -/
theorem Holds.append {w : Faults} {s s' : RocksDBStorage} {e : Entry} {es : List Entry}
    (h : Holds s e) (hpos : 0 < e.index)
    (hes : ∀ x ∈ es, e.index < x.index ∧ x.index < U64.size - 1)
    (hok : s.append w es = (.ok (), s')) : Holds s' e := by
  obtain ⟨hfirst, hlast, -⟩ := holds_iff.mp h
  cases es with
  | nil =>
    rw [RocksDBStorage.append] at hok
    obtain rfl := congrArg Prod.snd hok
    exact h
  | cons x es =>
    set last := (x :: es).getLast (List.cons_ne_nil x es) with hl
    have hmem : last ∈ x :: es := List.getLast_mem _
    -- the log is not empty, so the first index stays
    have hnz : s.lastIndexCache ≠ 0 := by
      intro hz
      have hone : U64.add 0 1 = 1 := by decide
      rw [hz, hone] at hlast
      omega
    rw [RocksDBStorage.append, List.head?_cons,
      List.getLast?_eq_some_getLast (List.cons_ne_nil x es)] at hok
    obtain rfl := perform_ok hok
    unfold RocksDBStorage.appendActions
    rw [if_neg hnz]
    refine h.of_record hfirst ?_ ?_
    · have hadd : U64.add last.index 1 = last.index + 1 := by
        refine U64.add_of_lt ?_
        have := (hes last hmem).2
        omega
      have := (hes last hmem).1
      simp only [List.foldl_cons, List.foldl_nil, Action.apply, ← hl, hadd]
      omega
    · simp only [List.foldl_cons, List.foldl_nil, Action.apply, Db.write_append, Db.write_cons,
        Db.write_nil, DbWrite.apply]
      exact entries_write_puts_of_not_mem s.db fun y hy => by
        have := (hes y hy).1
        omega

end

/-! ## The other records -/

section
variable [ProstMessage Snapshot]

/-- The stored snapshot, if there is one, can be read and does not lie above an index. -/
def SnapshotBelow (s : RocksDBStorage) (index : ℕ) : Prop :=
  s.db.snapshotData = none ∨ ∃ snapshot : Snapshot, s.db.snapshotData = some (encodeToVec snapshot) ∧
    snapshot.metadata.index ≤ index

theorem SnapshotBelow.mono {s : RocksDBStorage} {i j : ℕ} (h : SnapshotBelow s i) (hij : i ≤ j) :
    SnapshotBelow s j := by
  obtain h | ⟨snapshot, hs, hi⟩ := h
  · exact Or.inl h
  · exact Or.inr ⟨snapshot, hs, hi.trans hij⟩

theorem SnapshotBelow.of_eq {s s' : RocksDBStorage} {i : ℕ} (h : SnapshotBelow s i)
    (heq : s'.db.snapshotData = s.db.snapshotData) : SnapshotBelow s' i := by
  unfold SnapshotBelow
  rw [heq]
  exact h

/-- The term at the index of an entry that lies above the stored snapshot. -/
theorem Holds.term [ProstMessage Entry] {s : RocksDBStorage} {e : Entry} {index : ℕ}
    (h : Holds s e) (hsnap : SnapshotBelow s index) (hlt : index < e.index) :
    s.term e.index = .ok e.term := by
  obtain ⟨hfirst, hlast, hload⟩ := holds_iff.mp h
  have hadd : U64.add s.lastIndexCache 1 ≤ s.lastIndexCache + 1 := Nat.mod_le _ _
  have hentry : s.entryTerm e.index = .ok e.term := by
    unfold RocksDBStorage.entryTerm
    rw [if_neg (by omega), if_neg (by omega), hload]
  unfold RocksDBStorage.term RocksDBStorage.getSnapshot
  obtain hs | ⟨snapshot, hs, hi⟩ := hsnap
  · rw [hs]
    simpa [Nat.ne_of_gt (Nat.zero_lt_of_lt hlt)] using hentry
  · have hne : e.index ≠ snapshot.metadata.index := by omega
    rw [hs]
    simpa [Except.map, Except.mapError, hne] using hentry

theorem applySnapshot_stored [ProstMessage ConfState] {w : Faults} {s s' : RocksDBStorage}
    {snapshot : Snapshot} (h : s.applySnapshot w snapshot = (.ok (), s')) :
    s'.db.snapshotData = some (encodeToVec snapshot) := by
  rw [perform_ok h]
  rfl

/-- The term at the index of a snapshot that was installed. -/
theorem applySnapshot_term [ProstMessage Entry] [ProstMessage ConfState] {w : Faults}
    {s s' : RocksDBStorage} {snapshot : Snapshot} (h : s.applySnapshot w snapshot = (.ok (), s')) :
    s'.term snapshot.metadata.index = .ok snapshot.metadata.term := by
  unfold RocksDBStorage.term RocksDBStorage.getSnapshot
  rw [applySnapshot_stored h]
  simp [Except.map, Except.mapError]

/-- A storage can be opened again after a snapshot was installed. -/
theorem Durable.applySnapshot [ProstMessage ConfState] {nodeId : ℕ} {w : Faults}
    {s s' : RocksDBStorage} {snapshot : Snapshot} (hd : Durable nodeId s)
    (h : s.applySnapshot w snapshot = (.ok (), s')) :
    Durable nodeId s' ∧ s'.firstIndexCache = U64.add snapshot.metadata.index 1 := by
  rw [perform_ok h]
  refine ⟨⟨Nat.mod_lt _ (by decide), hd.lastBound, ?_, ?_, ?_, ?_⟩, rfl⟩
  · simp [RocksDBStorage.applySnapshotActions, Action.apply, DbWrite.apply]
  · simpa [RocksDBStorage.applySnapshotActions, Action.apply, DbWrite.apply] using hd.storedLast
  · simpa [RocksDBStorage.applySnapshotActions, Action.apply, DbWrite.apply] using hd.storedNode
  · simpa [RocksDBStorage.applySnapshotActions, Action.apply, DbWrite.apply] using hd.storedHard

/-- Installing a snapshot, or failing to, leaves one that is not above it. -/
theorem SnapshotBelow.applySnapshot [ProstMessage ConfState] {s : RocksDBStorage} {index : ℕ}
    {snapshot : Snapshot} (h : SnapshotBelow s index) (hle : index ≤ snapshot.metadata.index)
    (w : Faults) : SnapshotBelow (s.applySnapshot w snapshot).2 snapshot.metadata.index := by
  have hact : ∀ a ∈ RocksDBStorage.applySnapshotActions snapshot, ∀ s : RocksDBStorage,
      SnapshotBelow s snapshot.metadata.index →
        SnapshotBelow (a.apply s) snapshot.metadata.index := by
    intro a ha s hs
    simp only [RocksDBStorage.applySnapshotActions, List.mem_cons, List.not_mem_nil,
      or_false] at ha
    rcases ha with rfl | rfl | rfl | rfl
    · exact Or.inr ⟨snapshot, rfl, Nat.le_refl _⟩
    all_goals exact hs.of_eq rfl
  have hrel := perform_rel (R := fun s t => SnapshotBelow s snapshot.metadata.index →
    SnapshotBelow t snapshot.metadata.index) (fun _ h => h) (fun _ _ _ h₁ h₂ h => h₂ (h₁ h)) hact w s
  exact hrel (h.mono hle)

end

/-! ## The hard state -/

/-- Appending touches neither the hard state nor the snapshot. -/
theorem append_hardState [ProstMessage Entry] {w : Faults} {s s' : RocksDBStorage}
    {es : List Entry} (h : s.append w es = (.ok (), s')) :
    s'.db.metadata .hardState = s.db.metadata .hardState ∧
      s'.db.snapshotData = s.db.snapshotData := by
  cases es with
  | nil =>
    rw [RocksDBStorage.append] at h
    obtain rfl := congrArg Prod.snd h
    exact ⟨rfl, rfl⟩
  | cons x es =>
    rw [RocksDBStorage.append, List.head?_cons,
      List.getLast?_eq_some_getLast (List.cons_ne_nil x es)] at h
    obtain rfl := perform_ok h
    unfold RocksDBStorage.appendActions
    by_cases hz : s.lastIndexCache = 0
    · rw [if_pos hz]
      simp [Action.apply, DbWrite.apply, metadata_write_puts, snapshotData_write_puts]
    · rw [if_neg hz]
      simp [Action.apply, DbWrite.apply, metadata_write_puts, snapshotData_write_puts]

theorem applySnapshot_hardState [ProstMessage ConfState] [ProstMessage Snapshot] (w : Faults)
    (s : RocksDBStorage) (snapshot : Snapshot) :
    (s.applySnapshot w snapshot).2.db.metadata .hardState = s.db.metadata .hardState := by
  refine perform_rel (R := fun s t => t.db.metadata .hardState = s.db.metadata .hardState)
    (fun _ => rfl) (fun _ _ _ h₁ h₂ => h₂.trans h₁) ?_ w s
  intro a ha s
  simp only [RocksDBStorage.applySnapshotActions, List.mem_cons, List.not_mem_nil, or_false] at ha
  rcases ha with rfl | rfl | rfl | rfl <;> simp [Action.apply, DbWrite.apply]

/-- Two storages with the same log. -/
structure SameLog (s s' : RocksDBStorage) : Prop where
  first : s'.firstIndexCache = s.firstIndexCache
  last : s'.lastIndexCache = s.lastIndexCache
  entries : s'.db.entries = s.db.entries
  snapshotData : s'.db.snapshotData = s.db.snapshotData

theorem Holds.of_sameLog [ProstMessage Entry] {s s' : RocksDBStorage} {e : Entry} (h : Holds s e)
    (hsame : SameLog s s') : Holds s' e := by
  obtain ⟨hfirst, hlast, -⟩ := holds_iff.mp h
  refine h.of_record ?_ ?_ (congrFun hsame.entries _)
  · rw [hsame.first]
    exact hfirst
  · rw [hsame.last]
    exact hlast

theorem reloadIndexCaches_db {s s' : RocksDBStorage}
    (h : RocksDBStorage.reloadIndexCaches s = .ok s') : s'.db = s.db := by
  unfold RocksDBStorage.reloadIndexCaches at h
  split at h
  · rw [← Except.ok.inj h]
  all_goals exact absurd h (by simp)

section
variable [ProstMessage HardState]

theorem hardState_of_eq {s s' : RocksDBStorage}
    (h : s'.db.metadata .hardState = s.db.metadata .hardState) : s'.hardState = s.hardState := by
  unfold RocksDBStorage.hardState RocksDBStorage.loadHardState
  rw [h]

/-- Storing a hard state writes its record and nothing else. -/
theorem storeHardState_ok {w : Faults} {s s' : RocksDBStorage} {hs : HardState}
    (h : s.storeHardState w hs = (.ok (), s')) :
    s' = { s with db.metadata :=
      Function.update s.db.metadata .hardState (some (encodeToVec hs)) } := perform_ok h

theorem storeHardState_sameLog {w : Faults} {s s' : RocksDBStorage} {hs : HardState}
    (h : s.storeHardState w hs = (.ok (), s')) : SameLog s s' := by
  rw [storeHardState_ok h]
  exact ⟨rfl, rfl, rfl, rfl⟩

theorem hardState_storeHardState {w : Faults} {s s' : RocksDBStorage} {hs : HardState}
    (h : s.storeHardState w hs = (.ok (), s')) : s'.hardState = hs := by
  rw [storeHardState_ok h]
  simp [RocksDBStorage.hardState, RocksDBStorage.loadHardState, RocksDBStorage.loadOr,
    Except.mapError]

/-- A new database starts with the default hard state. -/
theorem open_fresh_hardState [ProstMessage ConfState] {nodeId : ℕ} {cs : ConfState}
    {s : RocksDBStorage} (h : (RocksDBStorage.openOrCreate Faults.none {} nodeId cs).1 = .ok s) :
    s.hardState = {} := by
  have hinit : RocksDBStorage.initializeIfNeeded Faults.none
      { db := {}, firstIndexCache := 0, lastIndexCache := 0 } nodeId cs =
      (.ok (), (RocksDBStorage.initActions nodeId cs).foldl (fun s a => a.apply s)
        { db := {}, firstIndexCache := 0, lastIndexCache := 0 }) := by
    unfold RocksDBStorage.initializeIfNeeded
    rw [perform_none]
    rfl
  unfold RocksDBStorage.openOrCreate at h
  rw [hinit] at h
  dsimp only at h
  unfold RocksDBStorage.hardState RocksDBStorage.loadHardState
  rw [reloadIndexCaches_db h]
  simp [RocksDBStorage.initActions, Action.apply, DbWrite.apply, RocksDBStorage.loadOr,
    Except.mapError]

/-- A new commit index is stored by storing a hard state of the same term. -/
theorem updateCommit_ok {w : Faults} {s s' : RocksDBStorage} {commit : ℕ}
    (h : s.updateCommit w commit = (.ok (), s')) :
    s.storeHardState w { s.hardState with commit := commit } = (.ok (), s') := by
  unfold RocksDBStorage.updateCommit at h
  cases hload : s.loadHardState with
  | error e =>
    rw [hload] at h
    exact absurd h (by simp)
  | ok hs =>
    rw [hload] at h
    have hhs : s.hardState = hs := by rw [RocksDBStorage.hardState, hload]
    rw [hhs]
    exact h

end

end Raftoral

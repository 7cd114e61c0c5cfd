import Raftoral.Raft.CrashRecovery

/-!
# Everything a storage path can go through

A path is opened, used and opened again, and any of its writes may fail: a failed open leaves
a path that is half initialised, a failed call leaves the writes before the failing one. A crash
between two writes of a call leaves what the failure of the second would.

`Reached` is a storage that is open after any such history, `Sound` what all of them have in
common.
-/

namespace Raftoral

open ProstMessage Transition

/-! ## The failing write of a call -/

/-- The first write of a call that fails is the one with this number. -/
def FailsAt (w : Faults) (k : ℕ) : Prop := (w k).isSome ∧ ∀ j < k, w j = none

/-- An operation that fails has gone through its steps up to the failing write. -/
theorem perform_error {w : Faults} {actions : List Action} {s : RocksDBStorage}
    {e : StorageError} (h : (perform w actions s).1 = .error e) {k : ℕ} (hk : FailsAt w k) :
    ∃ done batch rest, actions = done ++ .write batch :: rest ∧ done.countP (·.isWrite) = k ∧
      (perform w actions s).2 = done.foldl (fun s a => a.apply s) s := by
  induction actions generalizing w s k with
  | nil => exact absurd h (by simp [perform])
  | cons a actions ih =>
    cases a with
    | write batch =>
      cases hw : w 0 with
      | some reason =>
        -- it is this one
        have hzero : k = 0 := by
          by_contra hne
          rw [hk.2 0 (by omega)] at hw
          exact absurd hw (by simp)
        refine ⟨[], batch, actions, rfl, hzero.symm, ?_⟩
        rw [perform, hw]
        rfl
      | none =>
        rw [perform, hw] at h ⊢
        obtain ⟨k, rfl⟩ : ∃ j, k = j + 1 := Nat.exists_eq_succ_of_ne_zero fun hzero => by
          have hsome := hk.1
          rw [hzero, hw] at hsome
          exact absurd hsome (by simp)
        obtain ⟨done, batch', rest, hact, hcount, hstate⟩ :=
          ih h ⟨hk.1, fun j hj => hk.2 (j + 1) (by omega)⟩
        refine ⟨.write batch :: done, batch', rest, by rw [hact, List.cons_append], ?_, ?_⟩
        · rw [List.countP_cons, hcount]
          rfl
        · rw [hstate, List.foldl_cons]
    | storeFirst i =>
      obtain ⟨done, batch', rest, hact, hcount, hstate⟩ := ih h hk
      exact ⟨.storeFirst i :: done, batch', rest, by rw [hact, List.cons_append], hcount, hstate⟩
    | storeLast i =>
      obtain ⟨done, batch', rest, hact, hcount, hstate⟩ := ih h hk
      exact ⟨.storeLast i :: done, batch', rest, by rw [hact, List.cons_append], hcount, hstate⟩

/-! ## Histories -/

/-- A path that nobody has open, or the storage that has it open. -/
inductive StoragePath where
  | closed (db : Db)
  | opened (s : RocksDBStorage)

def StoragePath.db : StoragePath → Db
  | .closed db => db
  | .opened s => s.db

/-- What happens to a path. -/
inductive PathEvent where
  | openOrCreate (w : Faults) (confState : ConfState)
  | call (op : StorageOp) (w : Faults)

/-- The log indices a caller names leave room for one more. -/
def PathEvent.InRange : PathEvent → Prop
  | .openOrCreate _ _ => True
  | .call op _ => op.IndicesBelow (U64.size - 1)

instance (ev : PathEvent) : Decidable ev.InRange :=
  match ev with
  | .openOrCreate _ _ => isTrue trivial
  | .call op _ => inferInstanceAs (Decidable (op.IndicesBelow _))

section
variable [ProstMessage Entry] [ProstMessage HardState] [ProstMessage ConfState]
  [ProstMessage Snapshot]

/-- Whether it succeeds or not, an event leaves the path as it has made it. -/
def StoragePath.step (nodeId : ℕ) (p : StoragePath) : PathEvent → Option StoragePath
  | .openOrCreate w cs =>
    match RocksDBStorage.openOrCreate w p.db nodeId cs with
    | (.ok s, _) => some (.opened s)
    | (.error _, db) => some (.closed db)
  | .call op w =>
    match p with
    | .opened s => some (.opened (op.run w s).2)
    | .closed _ => none

/-- A storage that is open after some history of its path. -/
def Reached (nodeId : ℕ) (s : RocksDBStorage) : Prop :=
  ∃ events : List PathEvent, (∀ ev ∈ events, ev.InRange) ∧
    run (StoragePath.step nodeId) (.closed {}) events = some (.opened s)

/-! ## Single writes -/

omit [ProstMessage Entry] [ProstMessage HardState] [ProstMessage ConfState]
  [ProstMessage Snapshot] in
theorem DbWrite.metadata_putMeta (db : Db) (k key : MetaKey) (v : Bytes) :
    ((DbWrite.putMeta k v).apply db).metadata key = if key = k then some v else db.metadata key :=
  Function.update_apply ..

omit [ProstMessage Entry] [ProstMessage HardState] [ProstMessage ConfState]
  [ProstMessage Snapshot] in
theorem DbWrite.entries_putEntry (db : Db) (k i : ℕ) (v : Bytes) :
    ((DbWrite.putEntry k v).apply db).entries i = if i = k then some v else db.entries i :=
  Function.update_apply ..

omit [ProstMessage Entry] [ProstMessage HardState] [ProstMessage ConfState]
  [ProstMessage Snapshot] in
theorem DbWrite.entries_deleteEntry (db : Db) (k i : ℕ) :
    ((DbWrite.deleteEntry k).apply db).entries i = if i = k then none else db.entries i :=
  Function.update_apply ..

/-! ## What all histories keep -/

/-- The records of a path: the indices are words, and an entry lies under its own index. -/
structure Sound (db : Db) : Prop where
  firstIndex : ∃ i, RocksDBStorage.loadIndex db .firstIndex = .ok i
  lastIndex : ∃ i, RocksDBStorage.loadIndex db .lastIndex = .ok i ∧ i + 1 < U64.size
  keyed : ∀ i bytes, db.entries i = some bytes → ∃ e : Entry, e.index = i ∧ bytes = encodeToVec e

/-- The path belongs to a node. -/
structure Owned (nodeId : ℕ) (db : Db) : Prop where
  sound : Sound db
  node : db.metadata .nodeId = some (U64.toBeBytes nodeId)

/-- A storage of the node: its path is marked, and the last index is the stored one. The first
index need not be, since a failed append may have left it wrong. -/
structure InUse (nodeId : ℕ) (s : RocksDBStorage) : Prop where
  owned : Owned nodeId s.db
  marked : (s.db.metadata .hardState).isSome
  last : RocksDBStorage.loadIndex s.db .lastIndex = .ok s.lastIndexCache

/-- A path that nobody has open belongs to the node once it is marked. -/
def StoragePath.Valid (nodeId : ℕ) : StoragePath → Prop
  | .closed db => Sound db ∧ ((db.metadata .hardState).isSome → Owned nodeId db)
  | .opened s => InUse nodeId s

/-- What the operations of a node write. -/
def DbWrite.Allowed (nodeId : ℕ) : DbWrite → Prop
  | .putEntry key value => ∃ e : Entry, e.index = key ∧ value = encodeToVec e
  | .putMeta .nodeId value => value = U64.toBeBytes nodeId
  | .putMeta .firstIndex value => ∃ i < U64.size, value = U64.toBeBytes i
  | .putMeta .lastIndex value => ∃ i, i + 1 < U64.size ∧ value = U64.toBeBytes i
  | .putMeta .hardState _ | .putMeta .confState _ | .deleteEntry _ | .putSnapshot _ => True

def Action.Allowed (nodeId : ℕ) : Action → Prop
  | .write batch => ∀ w ∈ batch, w.Allowed nodeId
  | .storeFirst _ | .storeLast _ => True

section
omit [ProstMessage HardState] [ProstMessage ConfState] [ProstMessage Snapshot]
variable {nodeId : ℕ} {db : Db} {s s' : RocksDBStorage}

theorem InUse.room (h : InUse nodeId s) : s.lastIndexCache + 1 < U64.size := by
  obtain ⟨i, hi, hlt⟩ := h.owned.sound.lastIndex
  rw [h.last, Except.ok.injEq] at hi
  omega

omit [ProstMessage Entry] in
theorem loadIndex_congr {db db' : Db} {key : MetaKey} (h : db'.metadata key = db.metadata key) :
    RocksDBStorage.loadIndex db' key = RocksDBStorage.loadIndex db key := by
  rw [RocksDBStorage.loadIndex, RocksDBStorage.loadIndex, h]

/-- A put under one key of the metadata. -/
theorem Sound.putMeta (h : Sound db) {key : MetaKey} {value : Bytes}
    (hallowed : (DbWrite.putMeta key value).Allowed nodeId) :
    Sound ((DbWrite.putMeta key value).apply db) := by
  obtain ⟨first, hfirst⟩ := h.firstIndex
  obtain ⟨last, hlast, hroom⟩ := h.lastIndex
  refine ⟨?_, ?_, h.keyed⟩
  · by_cases hkey : key = .firstIndex
    · subst hkey
      obtain ⟨i, hi, rfl⟩ := hallowed
      exact ⟨i, loadIndex_of_stored hi (by rw [DbWrite.metadata_putMeta, if_pos rfl])⟩
    · refine ⟨first, ?_⟩
      rw [← hfirst]
      exact loadIndex_congr (by rw [DbWrite.metadata_putMeta, if_neg (Ne.symm hkey)])
  · by_cases hkey : key = .lastIndex
    · subst hkey
      obtain ⟨i, hi, rfl⟩ := hallowed
      exact ⟨i, loadIndex_of_stored (by omega) (by rw [DbWrite.metadata_putMeta, if_pos rfl]), hi⟩
    · refine ⟨last, ?_, hroom⟩
      rw [← hlast]
      exact loadIndex_congr (by rw [DbWrite.metadata_putMeta, if_neg (Ne.symm hkey)])

theorem Owned.apply (h : Owned nodeId db) {w : DbWrite} (hw : w.Allowed nodeId) :
    Owned nodeId (w.apply db) := by
  cases w with
  | putEntry key value =>
    refine ⟨⟨h.sound.firstIndex, h.sound.lastIndex, fun i bytes hi => ?_⟩, h.node⟩
    rw [DbWrite.entries_putEntry] at hi
    split at hi
    · next hkey =>
      obtain ⟨e, he, rfl⟩ := hw
      exact ⟨e, he.trans hkey.symm, (Option.some.inj hi).symm⟩
    · exact h.sound.keyed i bytes hi
  | deleteEntry key =>
    refine ⟨⟨h.sound.firstIndex, h.sound.lastIndex, fun i bytes hi => ?_⟩, h.node⟩
    rw [DbWrite.entries_deleteEntry] at hi
    split at hi
    · exact absurd hi (by simp)
    · exact h.sound.keyed i bytes hi
  | putMeta key value =>
    refine ⟨h.sound.putMeta hw, ?_⟩
    rw [DbWrite.metadata_putMeta]
    split
    · next hkey =>
      subst hkey
      exact congrArg some hw
    · exact h.node
  | putSnapshot value => exact ⟨⟨h.sound.firstIndex, h.sound.lastIndex, h.sound.keyed⟩, h.node⟩

theorem Owned.write (h : Owned nodeId db) {batch : List DbWrite}
    (hbatch : ∀ w ∈ batch, w.Allowed nodeId) : Owned nodeId (db.write batch) := by
  induction batch generalizing db with
  | nil => exact h
  | cons w batch ih =>
    rw [Db.write_cons]
    exact ih (h.apply (hbatch w List.mem_cons_self))
      fun x hx => hbatch x (List.mem_cons_of_mem w hx)

/-- However far an operation gets, the path goes on belonging to the node. -/
theorem Owned.perform (h : Owned nodeId s.db) {actions : List Action}
    (hactions : ∀ a ∈ actions, a.Allowed nodeId) (w : Faults) :
    Owned nodeId (perform w actions s).2.db := by
  refine perform_rel (R := fun s t => Owned nodeId s.db → Owned nodeId t.db) (fun _ h => h)
    (fun _ _ _ h₁ h₂ h => h₂ (h₁ h)) (fun a ha s hs => ?_) w s h
  cases a with
  | write batch => exact hs.write (hactions _ ha)
  | storeFirst i => exact hs
  | storeLast i => exact hs

end

/-! ## Calls -/

section
variable {nodeId : ℕ} {s : RocksDBStorage} {op : StorageOp}

/-- What a call leaves is what its steps leave. -/
theorem StorageOp.run_snd (w : Faults) (s : RocksDBStorage) (op : StorageOp) :
    (op.run w s).2 = (perform w (op.actions s) s).2 := by
  cases op with
  | append es =>
    cases es with
    | nil => rfl
    | cons e es =>
      rw [run, RocksDBStorage.append, actions, List.head?_cons,
        List.getLast?_eq_some_getLast (List.cons_ne_nil e es)]
  | updateCommit commit =>
    rw [run, RocksDBStorage.updateCommit, actions]
    cases s.loadHardState with
    | ok hs => rfl
    | error reason => rfl
  | compact throughIndex => rfl
  | applySnapshot snapshot => rfl
  | storeHardState hs => rfl
  | storeConfState cs => rfl

theorem StorageOp.allowed (hop : op.IndicesBelow (U64.size - 1)) :
    ∀ a ∈ op.actions s, a.Allowed nodeId := by
  -- whatever is added to an index, a word is stored
  have hword : ∀ i, ∃ j < U64.size, U64.toBeBytes (U64.add i 1) = U64.toBeBytes j :=
    fun i => ⟨_, Nat.mod_lt _ (by decide), rfl⟩
  cases op with
  | append es =>
    intro a ha
    rw [actions] at ha
    split at ha
    · next first last hfirst hlast =>
      have hputs : ∀ w ∈ es.map fun e => DbWrite.putEntry e.index (encodeToVec e),
          w.Allowed nodeId := by
        intro w hw
        obtain ⟨e, -, rfl⟩ := List.mem_map.mp hw
        exact ⟨e, rfl, rfl⟩
      have hf : first.index < U64.size - 1 := hop first (List.mem_of_mem_head? hfirst)
      have hl : last.index < U64.size - 1 := hop last (List.mem_of_getLast? hlast)
      unfold RocksDBStorage.appendActions at ha
      split at ha
      · simp only [List.mem_cons, List.not_mem_nil, or_false] at ha
        rcases ha with rfl | rfl | rfl
        · trivial
        · intro w hw
          simp only [List.mem_append, List.mem_cons, List.not_mem_nil, or_false] at hw
          rcases hw with hw | rfl | rfl
          · exact hputs w hw
          · exact ⟨last.index, by omega, rfl⟩
          · exact ⟨first.index, by omega, rfl⟩
        · trivial
      · simp only [List.mem_cons, List.not_mem_nil, or_false] at ha
        rcases ha with rfl | rfl
        · intro w hw
          simp only [List.mem_append, List.mem_cons, List.not_mem_nil, or_false] at hw
          rcases hw with hw | rfl
          · exact hputs w hw
          · exact ⟨last.index, by omega, rfl⟩
        · trivial
    · exact absurd ha (by simp)
  | compact throughIndex =>
    intro a ha
    rw [actions, RocksDBStorage.compactActions] at ha
    simp only [List.mem_append, List.mem_map, List.mem_cons, List.not_mem_nil, or_false] at ha
    rcases ha with ⟨i, -, rfl⟩ | rfl | rfl
    · simp [Action.Allowed, DbWrite.Allowed]
    · simpa [Action.Allowed, DbWrite.Allowed] using hword throughIndex
    · trivial
  | applySnapshot snapshot =>
    intro a ha
    simp only [actions, RocksDBStorage.applySnapshotActions, List.mem_cons, List.not_mem_nil,
      or_false] at ha
    rcases ha with rfl | rfl | rfl | rfl
    · simp [Action.Allowed, DbWrite.Allowed]
    · simp [Action.Allowed, DbWrite.Allowed]
    · simpa [Action.Allowed, DbWrite.Allowed] using hword snapshot.metadata.index
    · trivial
  | storeHardState hs => simp [actions, Action.Allowed, DbWrite.Allowed]
  | updateCommit commit =>
    intro a ha
    rw [actions] at ha
    split at ha
    · rw [List.mem_singleton.mp ha]
      simp [Action.Allowed, DbWrite.Allowed]
    · exact absurd ha (by simp)
  | storeConfState cs => simp [actions, Action.Allowed, DbWrite.Allowed]

omit [ProstMessage Entry] [ProstMessage HardState] [ProstMessage ConfState]
  [ProstMessage Snapshot] in
/-- A record of the metadata is overwritten, but never deleted. -/
theorem metadata_isSome_perform (w : Faults) (actions : List Action) (s : RocksDBStorage)
    (key : MetaKey) (h : (s.db.metadata key).isSome) :
    ((perform w actions s).2.db.metadata key).isSome := by
  have hwrite : ∀ (batch : List DbWrite) (db : Db), (db.metadata key).isSome →
      ((db.write batch).metadata key).isSome := by
    intro batch
    induction batch with
    | nil => exact fun _ h => h
    | cons x batch ih =>
      intro db hdb
      rw [Db.write_cons]
      refine ih _ ?_
      cases x with
      | putMeta k v =>
        rw [DbWrite.metadata_putMeta]
        split
        · rfl
        · exact hdb
      | putEntry k v => exact hdb
      | deleteEntry k => exact hdb
      | putSnapshot v => exact hdb
  refine perform_rel (R := fun s t => (s.db.metadata key).isSome → (t.db.metadata key).isSome)
    (fun _ h => h) (fun _ _ _ h₁ h₂ h => h₂ (h₁ h)) (fun a _ s hs => ?_) w s h
  cases a with
  | write batch => exact hwrite batch s.db hs
  | storeFirst i => exact hs
  | storeLast i => exact hs

/-- A step that has nothing to do with the last index. -/
def Action.KeepsLast : Action → Prop
  | .write batch => ∀ db : Db, (db.write batch).metadata .lastIndex = db.metadata .lastIndex
  | .storeFirst _ => True
  | .storeLast _ => False

omit [ProstMessage Entry] [ProstMessage HardState] [ProstMessage ConfState]
  [ProstMessage Snapshot] in
theorem last_perform_of_keepsLast {actions : List Action}
    (hactions : ∀ a ∈ actions, a.KeepsLast) (w : Faults)
    (h : RocksDBStorage.loadIndex s.db .lastIndex = .ok s.lastIndexCache) :
    RocksDBStorage.loadIndex (perform w actions s).2.db .lastIndex =
      .ok (perform w actions s).2.lastIndexCache := by
  refine perform_rel
    (R := fun s t => RocksDBStorage.loadIndex s.db .lastIndex = .ok s.lastIndexCache →
      RocksDBStorage.loadIndex t.db .lastIndex = .ok t.lastIndexCache)
    (fun _ h => h) (fun _ _ _ h₁ h₂ h => h₂ (h₁ h)) (fun a ha s hs => ?_) w s h
  cases a with
  | write batch =>
    have hkept : (s.db.write batch).metadata .lastIndex = s.db.metadata .lastIndex :=
      hactions _ ha s.db
    rw [← loadIndex_congr hkept] at hs
    exact hs
  | storeFirst i => exact hs
  | storeLast i => exact absurd (hactions _ ha) (by simp [Action.KeepsLast])

omit [ProstMessage HardState] [ProstMessage ConfState] [ProstMessage Snapshot] in
/-- An append stores the last index with its entries, and caches it once they are written. -/
theorem last_perform_appendActions (w : Faults) {es : List Entry} {first last : Entry}
    (hword : last.index < U64.size)
    (h : RocksDBStorage.loadIndex s.db .lastIndex = .ok s.lastIndexCache) :
    RocksDBStorage.loadIndex (perform w (s.appendActions es first last) s).2.db .lastIndex =
      .ok (perform w (s.appendActions es first last) s).2.lastIndexCache := by
  unfold RocksDBStorage.appendActions
  by_cases hz : s.lastIndexCache = 0
  · rw [if_pos hz]
    simp only [perform]
    cases w 0 with
    | some reason => exact h
    | none =>
      refine loadIndex_of_stored hword ?_
      simp [Action.apply, DbWrite.apply]
  · rw [if_neg hz]
    simp only [perform]
    cases w 0 with
    | some reason => exact h
    | none =>
      refine loadIndex_of_stored hword ?_
      simp [Action.apply, DbWrite.apply]

/-- Every call leaves a storage of the node, whatever fails in it. -/
theorem InUse.run (h : InUse nodeId s) (hop : op.IndicesBelow (U64.size - 1)) (w : Faults) :
    InUse nodeId (op.run w s).2 := by
  rw [StorageOp.run_snd]
  refine ⟨h.owned.perform (StorageOp.allowed hop) w,
    metadata_isSome_perform w _ s .hardState h.marked, ?_⟩
  -- only an append moves the last index
  cases op with
  | append es =>
    rw [StorageOp.actions]
    split
    · next first last hfirst hlast =>
      have hlt : last.index < U64.size - 1 := hop last (List.mem_of_getLast? hlast)
      exact last_perform_appendActions w (by omega) h.last
    · exact h.last
  | compact throughIndex =>
    refine last_perform_of_keepsLast (fun a ha => ?_) w h.last
    rw [StorageOp.actions, RocksDBStorage.compactActions] at ha
    simp only [List.mem_append, List.mem_map, List.mem_cons, List.not_mem_nil, or_false] at ha
    rcases ha with ⟨i, -, rfl⟩ | rfl | rfl
    · simp [Action.KeepsLast, DbWrite.apply]
    · simp [Action.KeepsLast, DbWrite.apply]
    · trivial
  | applySnapshot snapshot =>
    refine last_perform_of_keepsLast (fun a ha => ?_) w h.last
    simp only [StorageOp.actions, RocksDBStorage.applySnapshotActions, List.mem_cons,
      List.not_mem_nil, or_false] at ha
    rcases ha with rfl | rfl | rfl | rfl
    · simp [Action.KeepsLast, DbWrite.apply]
    · simp [Action.KeepsLast, DbWrite.apply]
    · simp [Action.KeepsLast, DbWrite.apply]
    · trivial
  | storeHardState hs =>
    refine last_perform_of_keepsLast (fun a ha => ?_) w h.last
    rw [List.mem_singleton.mp ha]
    simp [Action.KeepsLast, DbWrite.apply]
  | updateCommit commit =>
    refine last_perform_of_keepsLast (fun a ha => ?_) w h.last
    rw [StorageOp.actions] at ha
    split at ha
    · rw [List.mem_singleton.mp ha]
      simp [Action.KeepsLast, DbWrite.apply]
    · exact absurd ha (by simp)
  | storeConfState cs =>
    refine last_perform_of_keepsLast (fun a ha => ?_) w h.last
    rw [List.mem_singleton.mp ha]
    simp [Action.KeepsLast, DbWrite.apply]

end

/-! ## Opening -/

section
variable {nodeId : ℕ} {db : Db}

omit [ProstMessage HardState] [ProstMessage ConfState] [ProstMessage Snapshot] in
/-- The caches are loaded with what is stored. -/
theorem Owned.reload (h : Owned nodeId db) (hmarked : (db.metadata .hardState).isSome)
    (first last : ℕ) :
    ∃ s, RocksDBStorage.reloadIndexCaches
        { db := db, firstIndexCache := first, lastIndexCache := last } = .ok s ∧ s.db = db ∧
      RocksDBStorage.loadIndex db .firstIndex = .ok s.firstIndexCache ∧ InUse nodeId s := by
  obtain ⟨i, hi⟩ := h.sound.firstIndex
  obtain ⟨j, hj, -⟩ := h.sound.lastIndex
  refine ⟨{ db := db, firstIndexCache := i, lastIndexCache := j }, ?_, rfl, hi, h, hmarked, hj⟩
  simp [RocksDBStorage.reloadIndexCaches, hi, hj]

omit [ProstMessage Snapshot] in
/-- A marked path is taken as it is. -/
theorem Owned.openOrCreate (h : Owned nodeId db) (hmarked : (db.metadata .hardState).isSome)
    (hn : nodeId < U64.size) (w : Faults) (cs : ConfState) :
    ∃ s, RocksDBStorage.openOrCreate w db nodeId cs = (.ok s, db) ∧ s.db = db ∧
      RocksDBStorage.loadIndex db .firstIndex = .ok s.firstIndexCache ∧ InUse nodeId s := by
  have hnode : RocksDBStorage.loadNodeId db = .ok (some nodeId) := by
    unfold RocksDBStorage.loadNodeId
    rw [h.node]
    simp [hn]
  obtain ⟨s, hs, hdb, hfirst, huse⟩ := h.reload hmarked 0 0
  refine ⟨s, ?_, hdb, hfirst, huse⟩
  unfold RocksDBStorage.openOrCreate RocksDBStorage.initializeIfNeeded
  simp [hmarked, hnode, hs]

omit [ProstMessage Snapshot] in
theorem initActions_allowed (nodeId : ℕ) (cs : ConfState) :
    ∀ a ∈ RocksDBStorage.initActions nodeId cs, a.Allowed nodeId := by
  intro a ha
  simp only [RocksDBStorage.initActions, List.mem_cons, List.not_mem_nil, or_false] at ha
  rcases ha with rfl | rfl | rfl | rfl | rfl
  · simp [Action.Allowed, DbWrite.Allowed]
  · simp [Action.Allowed, DbWrite.Allowed]
  · simp [Action.Allowed, DbWrite.Allowed]
  · simpa [Action.Allowed, DbWrite.Allowed] using ⟨1, by decide, rfl⟩
  · simpa [Action.Allowed, DbWrite.Allowed] using ⟨0, by decide, rfl⟩

omit [ProstMessage Snapshot] in
/-- However far an initialisation gets, the path belongs to the node once it is marked. -/
theorem Sound.initialized (h : Sound db) (hunmarked : db.metadata .hardState = none) (nodeId : ℕ)
    (cs : ConfState) (w : Faults) {s : RocksDBStorage} (hs : s.db = db) :
    StoragePath.Valid nodeId
      (.closed (perform w (RocksDBStorage.initActions nodeId cs) s).2.db) := by
  have hallowed := initActions_allowed nodeId cs
  rw [RocksDBStorage.initActions, perform]
  cases hw : w 0 with
  | some reason =>
    refine ⟨by rw [hs]; exact h, fun hmarked => ?_⟩
    rw [hs, hunmarked] at hmarked
    exact absurd hmarked (by simp)
  | none =>
    -- the id of the node comes first
    have howned : Owned nodeId
        ((Action.write [.putMeta .nodeId (U64.toBeBytes nodeId)]).apply s).db := by
      have hput : (DbWrite.putMeta .nodeId (U64.toBeBytes nodeId)).Allowed nodeId := rfl
      refine ⟨?_, ?_⟩
      · rw [Action.apply, hs]
        exact h.putMeta hput
      · rw [Action.apply, hs]
        exact (DbWrite.metadata_putMeta ..).trans (if_pos rfl)
    have hrest := howned.perform (fun a ha => hallowed a (List.mem_cons_of_mem _ ha))
      (fun i => w (i + 1))
    exact ⟨hrest.sound, fun _ => hrest⟩

/-- An open, successful or not, leaves a valid path. -/
theorem StoragePath.Valid.openOrCreate (h : Sound db ∧
    ((db.metadata .hardState).isSome → Owned nodeId db)) (hn : nodeId < U64.size) {w : Faults}
    {cs : ConfState} {p : StoragePath}
    (hp : (StoragePath.closed db).step nodeId (.openOrCreate w cs) = some p) :
    p.Valid nodeId := by
  rw [StoragePath.step, StoragePath.db] at hp
  by_cases hmarked : (db.metadata .hardState).isSome
  · obtain ⟨s, hopen, -, -, huse⟩ := (h.2 hmarked).openOrCreate hmarked hn w cs
    rw [hopen] at hp
    rw [← Option.some.inj hp]
    exact huse
  · rw [Option.not_isSome_iff_eq_none] at hmarked
    have hvalid := h.1.initialized hmarked nodeId cs w
      (rfl : ({ db := db, firstIndexCache := 0, lastIndexCache := 0 } : RocksDBStorage).db = db)
    have hmark : ∀ s, perform w (RocksDBStorage.initActions nodeId cs)
        { db := db, firstIndexCache := 0, lastIndexCache := 0 } = (.ok (), s) →
        (s.db.metadata .hardState).isSome := by
      intro s hs
      rw [perform_ok hs, foldl_initActions]
      rfl
    rw [RocksDBStorage.openOrCreate, RocksDBStorage.initializeIfNeeded, hmarked] at hp
    simp only [Option.isSome_none, Bool.false_eq_true, if_false] at hp
    generalize hperform : perform w (RocksDBStorage.initActions nodeId cs)
      { db := db, firstIndexCache := 0, lastIndexCache := 0 } = answer at hp hvalid
    obtain ⟨result, s⟩ := answer
    cases result with
    | error e =>
      rw [← Option.some.inj hp]
      exact hvalid
    | ok u =>
      have hmarked' := hmark s hperform
      obtain ⟨s', hs', -, -, huse⟩ :=
        (hvalid.2 hmarked').reload hmarked' s.firstIndexCache s.lastIndexCache
      simp only [hs'] at hp
      rw [← Option.some.inj hp]
      exact huse

/-- A storage that is open belongs to the node, whatever its path went through. -/
theorem Reached.inUse (hn : nodeId < U64.size) {s : RocksDBStorage} (h : Reached nodeId s) :
    InUse nodeId s := by
  obtain ⟨events, hevents, hrun⟩ := h
  have hnew : (StoragePath.closed {}).Valid nodeId := by
    refine ⟨⟨⟨0, rfl⟩, ⟨0, rfl, by decide⟩, fun i bytes hi => ?_⟩, fun hmarked => ?_⟩
    · exact absurd hi (by simp)
    · exact absurd hmarked (by simp)
  refine run_induction (I := fun p => p.Valid nodeId) (C := fun _ ev => ev.InRange)
    (fun p ev p' hp hev hstep => ?_) hnew (along_of_forall hevents) hrun
  cases ev with
  | openOrCreate w cs =>
    cases p with
    | closed db => exact StoragePath.Valid.openOrCreate hp hn hstep
    | opened s =>
      exact StoragePath.Valid.openOrCreate ⟨hp.owned.sound, fun _ => hp.owned⟩ hn hstep
  | call op w =>
    cases p with
    | closed db => exact absurd hstep (by simp [StoragePath.step])
    | opened s =>
      rw [← Option.some.inj hstep]
      exact InUse.run hp hev w

end

end

end Raftoral

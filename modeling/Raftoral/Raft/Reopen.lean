import Raftoral.Raft.StorageReads

/-!
# Operations through clones, and reopening

The writing operations of a storage as one type, the steps each goes through, and what they
keep: after every operation that succeeds the persisted indices are the cached ones, so a
process that opens the path again finds the storage it left (`reopen_identity`).

A process may hold any number of clones of a storage. They are pointers to one database and to
one pair of cached indices, and an operation through any of them is seen by all.
-/

namespace Raftoral

open ProstMessage

/-- The writing operations. -/
inductive StorageOp where
  | append (entries : List Entry)
  | compact (throughIndex : ℕ)
  | applySnapshot (snapshot : Snapshot)
  | storeHardState (hs : HardState)
  | updateCommit (commit : ℕ)
  | storeConfState (cs : ConfState)
deriving DecidableEq

/-- The log indices an operation is given are below a bound. -/
def StorageOp.IndicesBelow (bound : ℕ) : StorageOp → Prop
  | .append es => ∀ e ∈ es, e.index < bound
  | .compact throughIndex => throughIndex < bound
  | .applySnapshot snapshot => snapshot.metadata.index < bound
  | .storeHardState _ | .updateCommit _ | .storeConfState _ => True

instance (bound : ℕ) (op : StorageOp) : Decidable (op.IndicesBelow bound) :=
  match op with
  | .append es => inferInstanceAs (Decidable (∀ e ∈ es, e.index < bound))
  | .compact _ | .applySnapshot _ => inferInstanceAs (Decidable (_ < bound))
  | .storeHardState _ | .updateCommit _ | .storeConfState _ => isTrue trivial

section
variable [ProstMessage Entry] [ProstMessage HardState] [ProstMessage ConfState]
  [ProstMessage Snapshot]

namespace StorageOp

/-- An operation on a storage. -/
def run (w : Faults) (s : RocksDBStorage) :
    StorageOp → Except StorageError Unit × RocksDBStorage
  | .append es => s.append w es
  | .compact throughIndex => s.compact w throughIndex
  | .applySnapshot snapshot => s.applySnapshot w snapshot
  | .storeHardState hs => s.storeHardState w hs
  | .updateCommit commit => s.updateCommit w commit
  | .storeConfState cs => s.storeConfState w cs

/-- The steps an operation goes through. -/
def actions (s : RocksDBStorage) : StorageOp → List Action
  | .append es =>
    match es.head?, es.getLast? with
    | some first, some last => s.appendActions es first last
    | _, _ => []
  | .compact throughIndex => s.compactActions throughIndex
  | .applySnapshot snapshot => RocksDBStorage.applySnapshotActions snapshot
  | .storeHardState hs => [.write [.putMeta .hardState (encodeToVec hs)]]
  | .updateCommit commit =>
    match s.loadHardState with
    | .ok hs => [.write [.putMeta .hardState (encodeToVec { hs with commit })]]
    | .error _ => []
  | .storeConfState cs => [.write [.putMeta .confState (encodeToVec cs)]]

/-- An operation that succeeds has gone through all its steps. -/
theorem run_ok {w : Faults} {s s' : RocksDBStorage} {op : StorageOp}
    (h : op.run w s = (.ok (), s')) : s' = (op.actions s).foldl (fun s a => a.apply s) s := by
  cases op with
  | append es =>
    cases es with
    | nil => exact (congrArg Prod.snd h).symm
    | cons e es =>
      rw [run, RocksDBStorage.append, List.head?_cons,
        List.getLast?_eq_some_getLast (List.cons_ne_nil e es)] at h
      rw [actions, List.head?_cons, List.getLast?_eq_some_getLast (List.cons_ne_nil e es)]
      exact perform_ok h
  | compact throughIndex => exact perform_ok h
  | applySnapshot snapshot => exact perform_ok h
  | storeHardState hs => exact perform_ok h
  | updateCommit commit =>
    rw [run, RocksDBStorage.updateCommit] at h
    rw [actions]
    -- the commit index is put into the hard state that is stored
    cases hload : s.loadHardState with
    | ok hs =>
      rw [hload] at h
      exact perform_ok h
    | error reason =>
      rw [hload] at h
      exact absurd h (by simp)
  | storeConfState cs => exact perform_ok h

end StorageOp

/-! ## What the operations keep -/

section
variable {nodeId : ℕ} {s s' : RocksDBStorage}

omit [ProstMessage HardState] [ProstMessage ConfState] [ProstMessage Snapshot] in
/-- Both indices are persisted in the batch of the entries, as far as they change. -/
theorem Durable.append (h : Durable nodeId s) {es : List Entry} {first last : Entry}
    (hfirst : first.index < U64.size) (hlast : last.index < U64.size) :
    Durable nodeId ((s.appendActions es first last).foldl (fun s a => a.apply s) s) := by
  unfold RocksDBStorage.appendActions
  by_cases hz : s.lastIndexCache = 0
  · simp only [hz, if_true, List.foldl_cons, List.foldl_nil, Action.apply, Db.write_append,
      Db.write_cons, Db.write_nil, DbWrite.apply, metadata_write_puts]
    exact ⟨hfirst, hlast, by simp, by simp, by simpa using h.storedNode, by simpa using h.storedHard⟩
  · simp only [hz, if_false, List.foldl_cons, List.foldl_nil, Action.apply, Db.write_append,
      Db.write_cons, Db.write_nil, DbWrite.apply, metadata_write_puts]
    exact ⟨h.firstBound, hlast, by simpa using h.storedFirst, by simp, by simpa using h.storedNode,
      by simpa using h.storedHard⟩

/-- Every operation leaves the persisted indices equal to the cached ones. -/
theorem Durable.run (h : Durable nodeId s) {w : Faults} {op : StorageOp}
    (hop : op.IndicesBelow U64.size) (hok : op.run w s = (.ok (), s')) : Durable nodeId s' := by
  have hadd : ∀ i, U64.add i 1 < U64.size := fun i => Nat.mod_lt _ (by decide)
  rw [StorageOp.run_ok hok]
  -- every operation that moves a cached index stores it too
  cases op with
  | append es =>
    simp only [StorageOp.actions]
    split
    · next first last hfirst hlast =>
      exact h.append (hop first (List.mem_of_mem_head? hfirst))
        (hop last (List.mem_of_getLast? hlast))
    · exact h
  | compact throughIndex =>
    rw [StorageOp.actions, RocksDBStorage.compactActions, List.foldl_append, foldl_deleteEntry]
    simp only [List.foldl_cons, List.foldl_nil, Action.apply, Db.write_cons, Db.write_nil,
      DbWrite.apply]
    exact ⟨hadd throughIndex, h.lastBound, by simp, by simpa using h.storedLast,
      by simpa using h.storedNode, by simpa using h.storedHard⟩
  | applySnapshot snapshot =>
    simp only [StorageOp.actions, RocksDBStorage.applySnapshotActions, List.foldl_cons,
      List.foldl_nil, Action.apply, Db.write_cons, Db.write_nil, DbWrite.apply]
    exact ⟨hadd snapshot.metadata.index, h.lastBound, by simp, by simpa using h.storedLast,
      by simpa using h.storedNode, by simpa using h.storedHard⟩
  | storeHardState hs =>
    exact ⟨h.firstBound, h.lastBound, h.storedFirst, h.storedLast, h.storedNode, rfl⟩
  | updateCommit commit =>
    simp only [StorageOp.actions]
    split
    · exact ⟨h.firstBound, h.lastBound, h.storedFirst, h.storedLast, h.storedNode, rfl⟩
    · exact h
  | storeConfState cs =>
    exact ⟨h.firstBound, h.lastBound, h.storedFirst, h.storedLast, h.storedNode, h.storedHard⟩

omit [ProstMessage Entry] [ProstMessage Snapshot] in
/-- Another node cannot open the database, and leaves it as it is. -/
theorem Durable.reopen_other (h : Durable nodeId s) (hn : nodeId < U64.size) {other : ℕ}
    (hother : other ≠ nodeId) (cs : ConfState) :
    RocksDBStorage.openOrCreate Faults.none s.db other cs =
      (.error (.other
        s!"Node ID mismatch: storage contains {nodeId}, but {other} was provided"), s.db) := by
  have hnode : RocksDBStorage.loadNodeId s.db = .ok (some nodeId) := by
    unfold RocksDBStorage.loadNodeId
    rw [h.storedNode]
    simp [hn]
  unfold RocksDBStorage.openOrCreate RocksDBStorage.initializeIfNeeded
  simp [h.storedHard, hnode, Ne.symm hother]

omit [ProstMessage Snapshot] in
theorem open_fresh_durable {cs : ConfState}
    (hopen : (RocksDBStorage.openOrCreate Faults.none {} nodeId cs).1 = .ok s) :
    Durable nodeId s := by
  obtain ⟨s₁, hopen₁, hrep⟩ := open_fresh_represents nodeId cs
  rw [hopen, Except.ok.injEq] at hopen₁
  exact hopen₁ ▸ hrep.durable

end

/-! ## Answers -/

/-- Two storages answer every question of `raft::Storage` alike. -/
structure SameAnswers (s s' : RocksDBStorage) : Prop where
  initialState : s.initialState = s'.initialState
  firstIndex : s.firstIndex = s'.firstIndex
  lastIndex : s.lastIndex = s'.lastIndex
  entries : ∀ low high maxSize, s.entries low high maxSize = s'.entries low high maxSize
  term : ∀ idx, s.term idx = s'.term idx
  snapshot : ∀ requestIndex, s.snapshot requestIndex = s'.snapshot requestIndex

theorem SameAnswers.refl (s : RocksDBStorage) : SameAnswers s s where
  initialState := rfl
  firstIndex := rfl
  lastIndex := rfl
  entries _ _ _ := rfl
  term _ := rfl
  snapshot _ := rfl

end

/-! ## Clones -/

/-- A `RocksDBStorage` as a process holds it: the addresses behind its `Arc`s. -/
structure Handle where
  db : ℕ
  firstIndexCache : ℕ
  lastIndexCache : ℕ
deriving DecidableEq, Repr

/-- What the addresses lead to. -/
structure Heap where
  db : ℕ → Db
  atomic : ℕ → ℕ

namespace Handle

/-- `clone` copies the pointers, not what they lead to. -/
def clone (h : Handle) : Handle where
  db := h.db
  firstIndexCache := h.firstIndexCache
  lastIndexCache := h.lastIndexCache

def load (h : Handle) (m : Heap) : RocksDBStorage where
  db := m.db h.db
  firstIndexCache := m.atomic h.firstIndexCache
  lastIndexCache := m.atomic h.lastIndexCache

def store (h : Handle) (m : Heap) (s : RocksDBStorage) : Heap where
  db := Function.update m.db h.db s.db
  atomic := Function.update (Function.update m.atomic h.firstIndexCache s.firstIndexCache)
    h.lastIndexCache s.lastIndexCache

theorem load_store {h : Handle} (hne : h.firstIndexCache ≠ h.lastIndexCache) (m : Heap)
    (s : RocksDBStorage) : h.load (h.store m s) = s := by
  simp [load, store, hne]

end Handle

/-- A process that has opened a path, with the clones it holds. -/
structure Process where
  heap : Heap
  handles : List Handle

inductive ProcessAction where
  | clone (position : ℕ)
  | call (position : ℕ) (op : StorageOp) (w : Faults)

/-- The log indices are words. -/
def ProcessAction.InRange : ProcessAction → Prop
  | .clone _ => True
  | .call _ op _ => op.IndicesBelow U64.size

instance (a : ProcessAction) : Decidable a.InRange :=
  match a with
  | .clone _ => isTrue trivial
  | .call _ op _ => inferInstanceAs (Decidable (op.IndicesBelow U64.size))

namespace Process

/-- The handle that `open_or_create` returns. -/
def firstHandle : Handle where
  db := 0
  firstIndexCache := 0
  lastIndexCache := 1

/-- A process with the storage it has just opened. -/
def opened (s : RocksDBStorage) : Process where
  heap :=
    { db := fun _ => s.db
      atomic := fun a => if a = 0 then s.firstIndexCache else s.lastIndexCache }
  handles := [firstHandle]

variable [ProstMessage Entry] [ProstMessage HardState] [ProstMessage ConfState]
  [ProstMessage Snapshot]

/-- A clone is made, or an operation succeeds through one of the handles. -/
def step (p : Process) : ProcessAction → Option Process
  | .clone position =>
    match p.handles[position]? with
    | none => none
    | some h => some { p with handles := p.handles ++ [h.clone] }
  | .call position op w =>
    match p.handles[position]? with
    | none => none
    | some h =>
      match op.run w (h.load p.heap) with
      | (.ok (), s) => some { p with heap := h.store p.heap s }
      | (.error _, _) => none

/-- All handles are pointers to one storage, which can be reopened. -/
structure Shared (nodeId : ℕ) (p : Process) : Prop where
  handles : ∀ h ∈ p.handles, h = firstHandle
  durable : Durable nodeId (firstHandle.load p.heap)

omit [ProstMessage Entry] [ProstMessage HardState] [ProstMessage ConfState]
  [ProstMessage Snapshot] in
theorem shared_opened {nodeId : ℕ} {s : RocksDBStorage} (h : Durable nodeId s) :
    Shared nodeId (opened s) := by
  refine ⟨fun h hmem => List.mem_singleton.mp hmem, ?_⟩
  exact h

theorem Shared.step {nodeId : ℕ} {p p' : Process} (h : Shared nodeId p) {a : ProcessAction}
    (ha : a.InRange) (hstep : p.step a = some p') : Shared nodeId p' := by
  cases a with
  | clone position =>
    simp only [Process.step] at hstep
    split at hstep
    · exact absurd hstep (by simp)
    · next x hx =>
      rw [Option.some.injEq] at hstep
      subst hstep
      refine ⟨fun y hy => ?_, h.durable⟩
      rcases List.mem_append.mp hy with hy | hy
      · exact h.handles y hy
      · rw [List.mem_singleton.mp hy]
        exact h.handles x (List.mem_of_getElem? hx)
  | call position op w =>
    simp only [Process.step] at hstep
    split at hstep
    · exact absurd hstep (by simp)
    · next x hx =>
      -- all handles are one and the same
      obtain rfl := h.handles x (List.mem_of_getElem? hx)
      split at hstep
      · next s hok =>
        rw [Option.some.injEq] at hstep
        subst hstep
        refine ⟨h.handles, ?_⟩
        rw [Handle.load_store (by decide)]
        exact h.durable.run ha hok
      · exact absurd hstep (by simp)

open Transition

/-- However the operations of a process went through its clones, the path can be opened again by
the same node, with any configuration, and answers as every clone did. Another node is turned
away, and the database stays as it was. -/
theorem reopen_identity {nodeId : ℕ} (hn : nodeId < U64.size) {cs : ConfState}
    {s₀ : RocksDBStorage}
    (hopen : (RocksDBStorage.openOrCreate Faults.none {} nodeId cs).1 = .ok s₀)
    {as : List ProcessAction} (has : ∀ a ∈ as, a.InRange) {p : Process}
    (hrun : run Process.step (opened s₀) as = some p) :
    ∀ h ∈ p.handles, ∀ cs',
      (∃ s, RocksDBStorage.openOrCreate Faults.none (p.heap.db h.db) nodeId cs' =
          (.ok s, p.heap.db h.db) ∧ SameAnswers s (h.load p.heap)) ∧
      ∀ other, other ≠ nodeId → ∃ e,
        RocksDBStorage.openOrCreate Faults.none (p.heap.db h.db) other cs' =
          (.error e, p.heap.db h.db) := by
  have hshared : Shared nodeId p := by
    refine run_induction (C := fun _ a => a.InRange)
      (fun _ _ _ hs ha hstep => hs.step ha hstep) (shared_opened (open_fresh_durable hopen)) ?_ hrun
    exact along_of_forall has
  intro h hmem cs'
  obtain rfl := hshared.handles h hmem
  refine ⟨⟨_, hshared.durable.reopen hn cs', SameAnswers.refl _⟩, ?_⟩
  intro other hother
  exact ⟨_, hshared.durable.reopen_other hn hother cs'⟩

end Process

section
open Codec Transition

/-- Two clones append, compact, install a snapshot and commit. -/
theorem reopen_identity_two_clones :
    ∃ s₀ p, (RocksDBStorage.openOrCreate Faults.none {} 1 { voters := [1] }).1 = .ok s₀ ∧
      run Process.step (Process.opened s₀)
        [.clone 0, .call 1 (.append [{ term := 1, index := 1 }, { term := 1, index := 2 }]) .none,
          .call 0 (.compact 1) .none,
          .call 1 (.applySnapshot { metadata := { index := 2, term := 1 } }) .none,
          .call 0 (.updateCommit 2) .none] = some p ∧
      ∀ h ∈ p.handles, ∃ s,
        RocksDBStorage.openOrCreate Faults.none (p.heap.db h.db) 1 {} = (.ok s, p.heap.db h.db) ∧
          SameAnswers s (h.load p.heap) := by
  refine ⟨_, Option.get _ ?_, rfl, (Option.some_get _).symm, fun h hmem => ?_⟩
  · decide
  · exact (Process.reopen_identity (by decide) rfl (by decide) (Option.some_get _).symm h hmem {}).1

end

end Raftoral

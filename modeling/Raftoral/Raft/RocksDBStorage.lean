import Raftoral.Raft.Types

/-!
# `RocksDBStorage`: the persistent Raft log

The model of `raft/generic/rocksdb_storage.rs`. A storage is a database with three column
families and two cached indices; the clones of a storage share all of it, so one value
stands for them all.

Every operation that writes first reads what it needs and then runs through a fixed list
of `Action`s in program order: database writes, each atomic and durable on its own, and
stores into the caches. `perform` runs such a list against a `Faults` pattern, which says
which of the call's database writes fail; the actions before the failing one have
happened and stay. The column family handles exist once the database is open, and reads
of the database do not fail.
-/

namespace Raftoral

/-- The keys of the metadata column family. -/
inductive MetaKey where
  | nodeId
  | hardState
  | confState
  | firstIndex
  | lastIndex
deriving DecidableEq, Repr

/-- The contents of the three column families. Entries are keyed by their index, whose
eight big-endian bytes are the key; the snapshot family holds one record. -/
structure Db where
  entries : ℕ → Option Bytes := fun _ => none
  metadata : MetaKey → Option Bytes := fun _ => none
  snapshotData : Option Bytes := none

/-- One put or delete. -/
inductive DbWrite where
  | putEntry (key : ℕ) (value : Bytes)
  | deleteEntry (key : ℕ)
  | putMeta (key : MetaKey) (value : Bytes)
  | putSnapshot (value : Bytes)

/-- The effect of one put or delete. -/
def DbWrite.apply : DbWrite → Db → Db
  | .putEntry k v, db => { db with entries := Function.update db.entries k (some v) }
  | .deleteEntry k, db => { db with entries := Function.update db.entries k none }
  | .putMeta k v, db => { db with metadata := Function.update db.metadata k (some v) }
  | .putSnapshot v, db => { db with snapshotData := some v }

/-- The writes of a batch reach the database together, in order. -/
def Db.write (db : Db) (batch : List DbWrite) : Db := batch.foldl (fun d w => w.apply d) db

/-- The storage: the open database and the cached indices. -/
structure RocksDBStorage where
  db : Db
  firstIndexCache : ℕ
  lastIndexCache : ℕ

/-- One step of an operation. -/
inductive Action where
  | write (batch : List DbWrite)
  | storeFirst (index : ℕ)
  | storeLast (index : ℕ)

/-- The effect of a step that succeeds. -/
def Action.apply : Action → RocksDBStorage → RocksDBStorage
  | .write batch, s => { s with db := s.db.write batch }
  | .storeFirst i, s => { s with firstIndexCache := i }
  | .storeLast i, s => { s with lastIndexCache := i }

/-- What the database answers to the writes of a call, counted from zero: `none` for
success, or the reason of the failure. -/
abbrev Faults := ℕ → Option String

/-- No write fails. -/
def Faults.none : Faults := fun _ => Option.none

/-- Run the steps of an operation; the first failing write ends it with its error. -/
def perform (w : Faults) : List Action → RocksDBStorage → Except StorageError Unit × RocksDBStorage
  | [], s => (.ok (), s)
  | .write batch :: rest, s =>
    match w 0 with
    | some reason => (.error (.other reason), s)
    | Option.none => perform (fun i => w (i + 1)) rest ((Action.write batch).apply s)
  | a :: rest, s => perform w rest (a.apply s)

namespace RocksDBStorage

variable [ProstMessage Entry] [ProstMessage HardState] [ProstMessage ConfState]
  [ProstMessage Snapshot]

open ProstMessage

/-! ## Loading records -/

/-- A record that is absent is read as a default; a stored one must decode. -/
def loadOr {α : Type} [ProstMessage α] (default : α) : Option Bytes → Except StorageError α
  | some bytes => (decode bytes).mapError .other
  | none => .ok default

def loadHardState (s : RocksDBStorage) : Except StorageError HardState :=
  loadOr {} (s.db.metadata .hardState)

def loadConfState (s : RocksDBStorage) : Except StorageError ConfState :=
  loadOr {} (s.db.metadata .confState)

def loadEntry (s : RocksDBStorage) (index : ℕ) : Except StorageError (Option Entry) :=
  match s.db.entries index with
  | some bytes => ((decode bytes).map some).mapError .other
  | none => .ok none

def getSnapshot (s : RocksDBStorage) : Except StorageError (Option Snapshot) :=
  match s.db.snapshotData with
  | some bytes => ((decode bytes).map some).mapError .other
  | none => .ok none

def loadIndex (db : Db) (key : MetaKey) : Except StorageError ℕ :=
  match db.metadata key with
  | some bytes =>
    if bytes.length ≠ 8 then .error (.other "Invalid index bytes")
    else .ok (U64.fromBeBytes bytes)
  | none => .ok 0

def loadNodeId (db : Db) : Except StorageError (Option ℕ) :=
  match db.metadata .nodeId with
  | some bytes =>
    if bytes.length = 8 then .ok (some (U64.fromBeBytes bytes))
    else .error (.other "Invalid node_id size in storage")
  | none => .ok none

/-! ## Opening -/

/-- The writes that initialise a new database: an empty log has `first_index = 1` and
`last_index = 0`. -/
def initActions (nodeId : ℕ) (confState : ConfState) : List Action :=
  [.write [.putMeta .nodeId (U64.toBeBytes nodeId)],
   .write [.putMeta .hardState (encodeToVec ({} : HardState))],
   .write [.putMeta .confState (encodeToVec confState)],
   .write [.putMeta .firstIndex (U64.toBeBytes 1)],
   .write [.putMeta .lastIndex (U64.toBeBytes 0)]]

/-- The hard state is the mark of an initialised database; one that has it keeps its
contents and must have been written by the same node. -/
def initializeIfNeeded (w : Faults) (s : RocksDBStorage) (nodeId : ℕ) (confState : ConfState) :
    Except StorageError Unit × RocksDBStorage :=
  if (s.db.metadata .hardState).isSome then
    match loadNodeId s.db with
    | .ok (some stored) =>
      if stored ≠ nodeId then
        (.error (.other
          s!"Node ID mismatch: storage contains {stored}, but {nodeId} was provided"), s)
      else (.ok (), s)
    | _ => (.ok (), s)
  else perform w (initActions nodeId confState) s

def reloadIndexCaches (s : RocksDBStorage) : Except StorageError RocksDBStorage :=
  match loadIndex s.db .firstIndex, loadIndex s.db .lastIndex with
  | .ok first, .ok last => .ok { s with firstIndexCache := first, lastIndexCache := last }
  | .error e, _ => .error e
  | _, .error e => .error e

/-- Open the database at a path, given by its contents, and initialise it if it is new.
The database is returned with the answer, since a failed open may have written to it. -/
def openOrCreate (w : Faults) (db : Db) (nodeId : ℕ) (confState : ConfState) :
    Except StorageError RocksDBStorage × Db :=
  match initializeIfNeeded w { db := db, firstIndexCache := 0, lastIndexCache := 0 }
      nodeId confState with
  | (.ok (), s) => (reloadIndexCaches s, s.db)
  | (.error e, s) => (.error e, s.db)

/-! ## Writing -/

def storeHardState (w : Faults) (s : RocksDBStorage) (hs : HardState) :
    Except StorageError Unit × RocksDBStorage :=
  perform w [.write [.putMeta .hardState (encodeToVec hs)]] s

def storeConfState (w : Faults) (s : RocksDBStorage) (cs : ConfState) :
    Except StorageError Unit × RocksDBStorage :=
  perform w [.write [.putMeta .confState (encodeToVec cs)]] s

def updateCommit (w : Faults) (s : RocksDBStorage) (commit : ℕ) :
    Except StorageError Unit × RocksDBStorage :=
  match s.loadHardState with
  | .ok hs => s.storeHardState w { hs with commit := commit }
  | .error e => (.error e, s)

/-- The hard state, or the default when it cannot be read. -/
def hardState (s : RocksDBStorage) : HardState :=
  match s.loadHardState with
  | .ok hs => hs
  | .error _ => {}

/-- The steps of `append` on a batch with the given first and last entry. The cache of the
first index is stored before the batch is written. -/
def appendActions (s : RocksDBStorage) (entries : List Entry) (first last : Entry) :
    List Action :=
  let puts := entries.map fun e => DbWrite.putEntry e.index (encodeToVec e)
  let putLast := DbWrite.putMeta .lastIndex (U64.toBeBytes last.index)
  if s.lastIndexCache = 0 then
    [.storeFirst first.index,
     .write (puts ++ [putLast, .putMeta .firstIndex (U64.toBeBytes first.index)]),
     .storeLast last.index]
  else [.write (puts ++ [putLast]), .storeLast last.index]

def append (w : Faults) (s : RocksDBStorage) (entries : List Entry) :
    Except StorageError Unit × RocksDBStorage :=
  match entries.head?, entries.getLast? with
  | some first, some last => perform w (s.appendActions entries first last) s
  | _, _ => (.ok (), s)

/-- The indices of the inclusive range `lo..=hi`. -/
def rangeInclusive (lo hi : ℕ) : List ℕ := List.range' lo (hi + 1 - lo)

def compactActions (s : RocksDBStorage) (throughIndex : ℕ) : List Action :=
  let newFirst := U64.add throughIndex 1
  (rangeInclusive s.firstIndexCache throughIndex).map (fun i => .write [.deleteEntry i]) ++
    [.write [.putMeta .firstIndex (U64.toBeBytes newFirst)], .storeFirst newFirst]

def compact (w : Faults) (s : RocksDBStorage) (throughIndex : ℕ) :
    Except StorageError Unit × RocksDBStorage :=
  perform w (s.compactActions throughIndex) s

def applySnapshotActions (snapshot : Snapshot) : List Action :=
  let newFirst := U64.add snapshot.metadata.index 1
  [.write [.putSnapshot (encodeToVec snapshot)],
   .write [.putMeta .confState (encodeToVec snapshot.metadata.confState)],
   .write [.putMeta .firstIndex (U64.toBeBytes newFirst)],
   .storeFirst newFirst]

def applySnapshot (w : Faults) (s : RocksDBStorage) (snapshot : Snapshot) :
    Except StorageError Unit × RocksDBStorage :=
  perform w (applySnapshotActions snapshot) s

/-! ## The `raft::Storage` interface -/

def initialState (s : RocksDBStorage) : Except StorageError RaftState := do
  let hardState ← s.loadHardState
  let confState ← s.loadConfState
  return { hardState, confState }

/-- The reading loop of `entries` over `n` indices from `idx`, with the bytes taken so far. -/
def entriesLoop (s : RocksDBStorage) (maxSize : Option ℕ) :
    ℕ → ℕ → ℕ → Except StorageError (List Entry)
  | 0, _, _ => .ok []
  | n + 1, idx, totalSize =>
    match s.loadEntry idx with
    | .error e => .error e
    | .ok none => .error .unavailable
    | .ok (some entry) =>
      let newSize := U64.add totalSize (encodedLen entry)
      -- the limit does not apply to the first entry taken
      if (match maxSize with
          | some max => decide (0 < totalSize ∧ max < newSize)
          | none => false) then .ok []
      else (s.entriesLoop maxSize n (idx + 1) newSize).map (entry :: ·)

def entries (s : RocksDBStorage) (low high : ℕ) (maxSize : Option ℕ) :
    Except StorageError (List Entry) :=
  if high ≤ low then .ok []
  else if low < s.firstIndexCache then .error .compacted
  else if U64.add s.lastIndexCache 1 < high then .error .unavailable
  else s.entriesLoop maxSize (high - low) low 0

/-- The term of a log entry, once the snapshot has been consulted. -/
def entryTerm (s : RocksDBStorage) (idx : ℕ) : Except StorageError ℕ :=
  if idx < s.firstIndexCache then .error .compacted
  else if s.lastIndexCache < idx then .error .unavailable
  else match s.loadEntry idx with
    | .error e => .error e
    | .ok (some entry) => .ok entry.term
    | .ok none => .error .unavailable

def term (s : RocksDBStorage) (idx : ℕ) : Except StorageError ℕ :=
  match s.getSnapshot with
  | .error e => .error e
  | .ok (some snapshot) =>
    if idx = snapshot.metadata.index then .ok snapshot.metadata.term else s.entryTerm idx
  | .ok none => if idx = 0 then .ok 0 else s.entryTerm idx

def firstIndex (s : RocksDBStorage) : Except StorageError ℕ := .ok s.firstIndexCache

def lastIndex (s : RocksDBStorage) : Except StorageError ℕ := .ok s.lastIndexCache

def snapshot (s : RocksDBStorage) (requestIndex : ℕ) : Except StorageError Snapshot :=
  match s.getSnapshot with
  | .error e => .error e
  | .ok (some snapshot) =>
    if snapshot.metadata.index < requestIndex then .error .snapshotTemporarilyUnavailable
    else .ok snapshot
  | .ok none => .error .snapshotTemporarilyUnavailable

end RocksDBStorage

end Raftoral

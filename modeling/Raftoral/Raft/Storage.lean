import Raftoral.Raft.RocksDBStorage

/-!
# `RaftStorage`

The operations of `raft/generic/storage.rs` that a node uses. The node runs on RocksDB or on
raft-rs's in-memory storage; everything that holds of both is stated over the class.
-/

namespace Raftoral

/-- A storage a node can run on. A writing operation is told which of its database writes
fail. -/
class RaftStorage (S : Type) where
  append : Faults → S → List Entry → Except StorageError Unit × S
  setHardstate : Faults → S → HardState → Except StorageError Unit × S
  updateCommit : Faults → S → ℕ → Except StorageError Unit × S
  applySnapshotWithData : Faults → S → Snapshot → Except StorageError Unit × S
  hardState : S → HardState
  term : S → ℕ → Except StorageError ℕ

instance [ProstMessage Entry] [ProstMessage HardState] [ProstMessage ConfState]
    [ProstMessage Snapshot] : RaftStorage RocksDBStorage where
  append := RocksDBStorage.append
  setHardstate := RocksDBStorage.storeHardState
  updateCommit := RocksDBStorage.updateCommit
  applySnapshotWithData := RocksDBStorage.applySnapshot
  hardState := RocksDBStorage.hardState
  term := RocksDBStorage.term

end Raftoral

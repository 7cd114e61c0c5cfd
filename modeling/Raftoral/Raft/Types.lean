import Raftoral.Lib.Word

/-!
# The Raft data types the node and its storage exchange

The messages of raft-rs that this repository reads or writes, with the fields it touches.
raft-rs and prost are not part of the repository: the types are the documented ones, and
the wire format enters through `ProstMessage` only.

`u64` values are natural numbers; where the code adds or subtracts them the reduction
modulo `2^64` is written out (`U64.add`, `U64.sub`).
-/

namespace Raftoral

/-- A prost message type: its wire encoding, a decoder that fails on malformed bytes, and
the one fact the code relies on, that decoding inverts encoding. -/
class ProstMessage (α : Type) where
  encodeToVec : α → Bytes
  decode : Bytes → Except String α
  decode_encodeToVec : ∀ a, decode (encodeToVec a) = .ok a

attribute [simp] ProstMessage.decode_encodeToVec

/-- A type that serde_json writes and reads back. -/
class SerdeJson (α : Type) where
  toVec : α → Bytes
  fromSlice : Bytes → Except String α
  fromSlice_toVec : ∀ a, fromSlice (toVec a) = .ok a

attribute [simp] SerdeJson.fromSlice_toVec

/-- The number of bytes of the encoding. -/
def ProstMessage.encodedLen {α : Type} [ProstMessage α] (a : α) : ℕ :=
  (ProstMessage.encodeToVec a).length

inductive EntryType where
  | entryNormal
  | entryConfChange
  | entryConfChangeV2
deriving DecidableEq, Repr

/-- A log entry. `context` carries the proposal's sync id. -/
structure Entry where
  entryType : EntryType := .entryNormal
  term : ℕ := 0
  index : ℕ := 0
  data : Bytes := []
  context : Bytes := []
deriving DecidableEq, Repr

/-- The part of a node's state that must survive a restart. -/
structure HardState where
  term : ℕ := 0
  vote : ℕ := 0
  commit : ℕ := 0
deriving DecidableEq, Repr

/-- A cluster configuration. -/
structure ConfState where
  voters : List ℕ := []
  learners : List ℕ := []
deriving DecidableEq, Repr

structure SnapshotMetadata where
  confState : ConfState := {}
  index : ℕ := 0
  term : ℕ := 0
deriving DecidableEq, Repr

structure Snapshot where
  data : Bytes := []
  metadata : SnapshotMetadata := {}
deriving DecidableEq, Repr

/-- raft-rs treats a snapshot without an index as absent. -/
def Snapshot.isEmpty (s : Snapshot) : Bool := s.metadata.index == 0

/-- What `Storage::initial_state` answers. -/
structure RaftState where
  hardState : HardState
  confState : ConfState
deriving DecidableEq, Repr

/-- A message between the Raft peers: its header and context. Only the addressee is read
here, the rest is for the consensus algorithm. -/
structure Message where
  msgType : ℕ := 0
  target : ℕ := 0
  sender : ℕ := 0
  term : ℕ := 0
  context : Bytes := []
deriving DecidableEq, Repr

inductive ConfChangeType where
  | addNode
  | removeNode
  | addLearnerNode
deriving DecidableEq, Repr

/-- A membership change. `context` carries the proposal's sync id and the node's metadata. -/
structure ConfChange where
  changeType : ConfChangeType := .addNode
  nodeId : ℕ := 0
  context : Bytes := []
deriving DecidableEq, Repr

/-- The metadata of an added node. -/
structure NodeMetadata where
  address : String
deriving DecidableEq, Repr

/-- The variants of the message envelope between nodes. -/
inductive GenericPayload where
  | propose (commandJson : Bytes) (syncId : ℕ)
  | raftMessage (bytes : Bytes)
  | confChange (id : ℕ) (changeBytes : Bytes)
  | campaign
  | addNode (nodeId : ℕ) (address : String) (syncId : ℕ)
  | removeNode (nodeId : ℕ) (syncId : ℕ)
deriving DecidableEq, Repr

/-- The message envelope. A oneof that no variant was given for is absent. -/
structure GenericMessage where
  clusterId : ℕ := 0
  message : Option GenericPayload := none
deriving DecidableEq, Repr

inductive StateRole where
  | follower
  | candidate
  | leader
  | preCandidate
deriving DecidableEq, Repr

/-- `raft::Error::Store`. -/
inductive StorageError where
  | compacted
  | unavailable
  | snapshotTemporarilyUnavailable
  | other (reason : String)
deriving DecidableEq, Repr

end Raftoral

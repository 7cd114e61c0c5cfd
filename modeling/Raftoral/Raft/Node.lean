import Raftoral.Lib.Steps
import Raftoral.Raft.StateMachine
import Raftoral.Raft.Storage
import Raftoral.Raft.Transport

/-!
# `RaftNode`

The model of `raft/generic/node.rs`. raft-rs is not part of the repository: what `RawNode`
answers to a call (`ready`, `advance_append`, `apply_conf_change`, `step`, `propose`) is an
input of the model, and so are the answers of the peers, the faults of the storage and the
clock. Everything the node does with them is translated.

`on_ready` is a block of statements in the order of the numbered comments of the source.
What it does to the outside is recorded in the node's `trace`.
-/

namespace Raftoral

/-! ## What raft-rs hands out -/

/-- `SoftState`. -/
structure SoftState where
  leaderId : ℕ
  raftState : StateRole
deriving DecidableEq, Repr

structure Ready where
  snapshot : Snapshot := {}
  committedEntries : List Entry := []
  entries : List Entry := []
  hs : Option HardState := none
  ss : Option SoftState := none
  messages : List Message := []
  persistedMessages : List Message := []
deriving DecidableEq, Repr

structure LightReady where
  commitIndex : Option ℕ := none
  messages : List Message := []
  committedEntries : List Entry := []
deriving DecidableEq, Repr

/-- The answer of the sender to each message of a list, by position. -/
abbrev SendAnswers := ℕ → Except TransportError Unit

/-- Everything one call of `on_ready` is told. -/
structure ReadyIo where
  hasReady : Bool := true
  ready : Ready := {}
  lightReady : LightReady := {}
  /-- What raft-rs answers to the configuration change of an entry. -/
  applyConfChange : Entry → Except String ConfState
  sendMessages : SendAnswers := fun _ => .ok ()
  sendPersisted : SendAnswers := fun _ => .ok ()
  sendLight : SendAnswers := fun _ => .ok ()
  restoreFaults : Faults := Faults.none
  appendFaults : Faults := Faults.none
  hardStateFaults : Faults := Faults.none
  commitFaults : Faults := Faults.none
  snapshotFaults : Faults := Faults.none
  /-- The clock, and raft's progress table and commit index, for failure detection. -/
  now : ℕ := 0
  progress : List (ℕ × ℕ) := []
  raftCommitted : ℕ := 0

/-- What raft-rs answers to a message or a proposal. -/
structure RaftAnswers where
  step : Message → Except String Unit
  propose : Bytes → Bytes → Except String Unit
  proposeConfChange : ConfChange → Except String Unit

/-! ## The node -/

inductive RoleChange where
  | becameFollower
  | becameCandidate
  | becameLeader
deriving DecidableEq, Repr

/-- The boxed errors of the node's methods. -/
inductive NodeError where
  | message (text : String)
  | decode (reason : String)
  | raft (reason : String)
  | storage (error : StorageError)
  | transport (error : TransportError)
deriving DecidableEq, Repr

/-- What a node does to the outside, and the moments later results speak about. -/
inductive Effect (Event S : Type) where
  | publish (events : List Event)
  | complete (syncId : ℕ) (result : Except String Unit)
  | applied (entry : Entry)
  | send (msg : Message)
  | roleChanged (change : RoleChange)
  | advanceAppend
  | advanceApply
  | snapshotReceived (snapshot : Snapshot)
  | snapshotEvaluated (committedIndex lastSnapshotIndex : ℕ)
  | snapshotCreated (store : S) (snapshot : Snapshot)
  | storageFailed (error : StorageError)

/-- The configuration of a node, as far as the node itself reads it. -/
structure RaftNodeConfig where
  nodeId : ℕ := 1
  clusterId : ℕ := 0
  snapshotInterval : ℕ := 1000
  failureDetectionTimeout : ℕ := 30000
  storagePath : Option String := none
deriving DecidableEq, Repr

structure RaftNode (σ Event S : Type) where
  nodeId : ℕ
  clusterId : ℕ
  store : S
  peers : Peers
  stateMachine : σ
  currentRole : StateRole
  committedIndex : ℕ
  cachedConfState : ConfState
  /-- The sync ids somebody waits for. -/
  pendingProposals : ℕ → Bool
  snapshotInterval : ℕ
  lastSnapshotIndex : ℕ
  failureDetectionTimeout : ℕ
  followerProgress : ℕ → Option (ℕ × ℕ)
  trace : List (Effect Event S)

namespace RaftNode

variable {σ Command Event S : Type}

/-- Append to the trace. -/
def emit (n : RaftNode σ Event S) (e : Effect Event S) : RaftNode σ Event S :=
  { n with trace := n.trace ++ [e] }

/-- Put the storage into a new state. -/
def withStore (n : RaftNode σ Event S) (s : S) : RaftNode σ Event S := { n with store := s }

/-! ## Construction -/

/-- `new_with_conf_state`, once the storage is open. The indices start at zero whatever
the storage holds. -/
def newWithConfState (config : RaftNodeConfig) (peers : Peers) (stateMachine : σ)
    (confState : ConfState) (store : S) : RaftNode σ Event S where
  nodeId := config.nodeId
  clusterId := config.clusterId
  store := store
  peers := peers
  stateMachine := stateMachine
  currentRole := .follower
  committedIndex := 0
  cachedConfState := confState
  pendingProposals := fun _ => false
  snapshotInterval := config.snapshotInterval
  lastSnapshotIndex := 0
  failureDetectionTimeout := config.failureDetectionTimeout
  followerProgress := fun _ => none
  trace := []

/-- The configuration `new_single_node` gives a node: itself. -/
def singleNodeConfState (config : RaftNodeConfig) : ConfState := { voters := [config.nodeId] }

def newSingleNode (config : RaftNodeConfig) (peers : Peers) (stateMachine : σ) (store : S) :
    RaftNode σ Event S :=
  newWithConfState config peers stateMachine (singleNodeConfState config) store

/-- `create_storage` on the RocksDB path: the cluster's subdirectory is given by its
contents. -/
def createStorage [ProstMessage HardState] [ProstMessage ConfState] (w : Faults)
    (config : RaftNodeConfig) (confState : ConfState) (db : Db) :
    Except StorageError RocksDBStorage × Db :=
  RocksDBStorage.openOrCreate w db config.nodeId confState

/-! ## Applying committed entries -/

/-- The sync id of a proposal is the whole context of its entry. -/
def entrySyncId (context : Bytes) : Option ℕ :=
  if context.length = 8 then some (U64.fromLeBytes context) else none

/-- Tell whoever waits for a sync id, once. -/
def completeProposal (syncId : Option ℕ) (result : Except String Unit) (n : RaftNode σ Event S) :
    RaftNode σ Event S :=
  match syncId with
  | none => n
  | some id =>
    if n.pendingProposals id then
      { n with pendingProposals := Function.update n.pendingProposals id false }.emit
        (.complete id result)
    else n

/-- Publish a batch of events; an empty batch is not published. -/
def publishBatch (events : List Event) (n : RaftNode σ Event S) : RaftNode σ Event S :=
  if events.isEmpty then n else n.emit (.publish events)

/-- Publish the events of a command that succeeded. -/
def publishResult (result : Except String (List Event)) (n : RaftNode σ Event S) :
    RaftNode σ Event S :=
  match result with
  | .ok events => n.publishBatch events
  | .error _ => n

def markApplied (entry : Entry) (n : RaftNode σ Event S) : RaftNode σ Event S :=
  { n with committedIndex := entry.index }.emit (.applied entry)

section
variable [StateMachine σ Command Event] [SerdeJson Command]

/-- A committed normal entry: apply its command, publish the events, answer the proposer
and move the committed index. -/
def applyNormal (entry : Entry) (n : RaftNode σ Event S) : RaftNode σ Event S :=
  let (result, sm') := applyCommand n.stateMachine entry.data
  (({ n with stateMachine := sm' }.publishResult result).completeProposal
    (entrySyncId entry.context) (result.map fun _ => ())).markApplied entry

end

section
variable [ProstMessage ConfChange] [SerdeJson NodeMetadata]

/-- The sync id of a configuration change and where the metadata starts after it. -/
def confChangeSyncId (context : Bytes) : Option ℕ × ℕ :=
  if 8 ≤ context.length then (some (U64.fromLeBytes (context.take 8)), 8) else (none, 0)

/-- What a configuration change does to the peers, and what its proposer is told. -/
def confChangePeers (cc : ConfChange) (peers : Peers) : Except String Unit × Peers :=
  let metadataStart := (confChangeSyncId cc.context).2
  match cc.changeType with
  | .addNode =>
    if metadataStart < cc.context.length then
      match (SerdeJson.fromSlice (cc.context.drop metadataStart) : Except String NodeMetadata) with
      | .ok metadata => (.ok (), TransportLayer.addPeer peers cc.nodeId metadata.address)
      | .error e => (.error s!"Failed to deserialize node metadata: {e}", peers)
    else (.ok (), peers)
  | .removeNode => (.ok (), TransportLayer.removePeer peers cc.nodeId)
  | .addLearnerNode => (.ok (), peers)

/-- `apply_conf_change`. -/
def applyConfChange (io : ReadyIo) (entry : Entry) : Step (RaftNode σ Event S) NodeError := fun n =>
  match (ProstMessage.decode entry.data : Except String ConfChange) with
  | .error e => (.failed (.decode e), n)
  | .ok cc =>
    match io.applyConfChange entry with
    | .error e => (.failed (.raft e), n)
    | .ok cs =>
      let (result, peers) := confChangePeers cc n.peers
      let n := { n with cachedConfState := cs, peers := peers }
      (.next, n.completeProposal (confChangeSyncId cc.context).1 result)

variable [StateMachine σ Command Event] [SerdeJson Command]

/-- One committed entry; entries without data are those of leader elections. -/
def applyEntry (io : ReadyIo) (entry : Entry) : Step (RaftNode σ Event S) NodeError :=
  if entry.data.isEmpty then Step.skip
  else match entry.entryType with
    | .entryNormal => Step.modify (applyNormal entry)
    | .entryConfChange | .entryConfChangeV2 => applyConfChange io entry

/-- Steps 2 and 11: the committed entries of a ready or a light ready. -/
def applyCommitted (io : ReadyIo) (entries : List Entry) : Step (RaftNode σ Event S) NodeError :=
  Step.forEach entries (applyEntry io)

end

/-! ## Persisting -/

section
variable [RaftStorage S]

/-- Write to the storage; an error ends the call. -/
def writeStore (op : S → Except StorageError Unit × S) : Step (RaftNode σ Event S) NodeError :=
  fun n =>
    match op n.store with
    | (.ok (), s) => (.next, n.withStore s)
    | (.error e, s) => (.failed (.storage e), (n.withStore s).emit (.storageFailed e))

/-- Step 1: a snapshot from the leader. Failures are logged and the call goes on. -/
def restoreSnapshot [StateMachine σ Command Event] (io : ReadyIo) :
    Step (RaftNode σ Event S) NodeError := fun n =>
  let snapshot := io.ready.snapshot
  if snapshot.isEmpty then (.next, n)
  else
    let (_, sm') := StateMachine.restore n.stateMachine snapshot.data
    let (stored, s) := RaftStorage.applySnapshotWithData io.restoreFaults n.store snapshot
    let n := { n with
      stateMachine := sm'
      cachedConfState := snapshot.metadata.confState
      lastSnapshotIndex := snapshot.metadata.index
      store := s }
    match stored with
    | .ok () => (.next, n.emit (.snapshotReceived snapshot))
    | .error e => (.next, n.emit (.storageFailed e))

/-- Step 3. -/
def persistEntries (io : ReadyIo) : Step (RaftNode σ Event S) NodeError :=
  if io.ready.entries.isEmpty then Step.skip
  else writeStore fun s => RaftStorage.append io.appendFaults s io.ready.entries

/-- Step 4. -/
def persistHardState (io : ReadyIo) : Step (RaftNode σ Event S) NodeError :=
  match io.ready.hs with
  | none => Step.skip
  | some hs => writeStore fun s => RaftStorage.setHardstate io.hardStateFaults s hs

/-- Step 9. -/
def updateCommit (io : ReadyIo) : Step (RaftNode σ Event S) NodeError :=
  match io.lightReady.commitIndex with
  | none => Step.skip
  | some commit => writeStore fun s => RaftStorage.updateCommit io.commitFaults s commit

/-- The snapshot a node creates. The term is that of the hard state. -/
def snapshotOf (n : RaftNode σ Event S) (data : Bytes) : Snapshot where
  data := data
  metadata :=
    { index := n.committedIndex
      term := (RaftStorage.hardState n.store).term
      confState := n.cachedConfState }

/-- The moment `maybe_create_snapshot` compares the indices; with interval 0 it never does. -/
def evaluateSnapshot (n : RaftNode σ Event S) : RaftNode σ Event S :=
  n.emit (.snapshotEvaluated n.committedIndex n.lastSnapshotIndex)

/-- The node after it stored a snapshot of its own. -/
def recordSnapshot (n : RaftNode σ Event S) (s : S) (snapshot : Snapshot) : RaftNode σ Event S :=
  { n.evaluateSnapshot.withStore s with lastSnapshotIndex := n.committedIndex }.emit
    (.snapshotCreated n.store snapshot)

/-- Step 13: `maybe_create_snapshot`. -/
def maybeCreateSnapshot [StateMachine σ Command Event] (io : ReadyIo) :
    Step (RaftNode σ Event S) NodeError := fun n =>
  if n.snapshotInterval = 0 then (.next, n)
  else if U64.sub n.committedIndex n.lastSnapshotIndex < n.snapshotInterval then
    (.next, n.evaluateSnapshot)
  else match StateMachine.snapshot n.stateMachine with
    | .error _ => (.next, n.evaluateSnapshot)
    | .ok data =>
      match RaftStorage.applySnapshotWithData io.snapshotFaults n.store (n.snapshotOf data) with
      | (.error e, s) =>
        (.failed (.storage e), (n.evaluateSnapshot.withStore s).emit (.storageFailed e))
      | (.ok (), s) => (.next, n.recordSnapshot s (n.snapshotOf data))

end

/-! ## Roles, messages and followers -/

/-- Step 5: a change of role is announced. `PreCandidate` needs no notification, and the
call returns. -/
def changeRole (io : ReadyIo) : Step (RaftNode σ Event S) NodeError := fun n =>
  match io.ready.ss with
  | none => (.next, n)
  | some ss =>
    if ss.raftState = n.currentRole then (.next, n)
    else
      let changed (c : RoleChange) :=
        { n with currentRole := ss.raftState }.emit (.roleChanged c)
      match ss.raftState with
      | .follower => (.next, changed .becameFollower)
      | .candidate => (.next, changed .becameCandidate)
      | .leader => (.next, changed .becameLeader)
      | .preCandidate => (.returned, n)

/-- `send_raft_message`. -/
def sendRaftMessage (answer : Except TransportError Unit) (msg : Message) :
    Step (RaftNode σ Event S) NodeError := fun n =>
  match TransportLayer.sendMessage n.peers answer msg.target with
  | .ok () => (.next, n.emit (.send msg))
  | .error e => (.failed (.transport e), n.emit (.send msg))

/-- Steps 6, 7 and 10. -/
def sendAll (answers : SendAnswers) (msgs : List Message) : Step (RaftNode σ Event S) NodeError :=
  Step.forEach msgs.zipIdx fun m => sendRaftMessage (answers m.2) m.1

/-- The followers that have made no progress for too long, and the table that tracks them. -/
def trackProgress (n : RaftNode σ Event S) (io : ReadyIo) :
    List (ℕ × ℕ) → (ℕ → Option (ℕ × ℕ)) → List ℕ × (ℕ → Option (ℕ × ℕ))
  | [], table => ([], table)
  | (peerId, matched) :: rest, table =>
    if peerId = n.nodeId then trackProgress n io rest table
    else if io.raftCommitted ≤ matched then
      trackProgress n io rest (Function.update table peerId (some (matched, io.now)))
    else match table peerId with
      | none => trackProgress n io rest (Function.update table peerId (some (matched, io.now)))
      | some (lastMatched, lastUpdate) =>
        if lastMatched < matched then
          trackProgress n io rest (Function.update table peerId (some (matched, io.now)))
        else if n.failureDetectionTimeout < io.now - lastUpdate then
          let (failed, table') := trackProgress n io rest table
          (peerId :: failed, table')
        else trackProgress n io rest table

/-- The events of a failed follower, which is not tracked any longer. -/
def reportFailed [StateMachine σ Command Event] (n : RaftNode σ Event S) (nodeId : ℕ) :
    RaftNode σ Event S :=
  let n := n.publishBatch (StateMachine.onFollowerFailed n.stateMachine nodeId)
  { n with followerProgress := Function.update n.followerProgress nodeId none }

/-- Step 14: `check_follower_progress`. -/
def checkFollowerProgress [StateMachine σ Command Event] (io : ReadyIo) :
    Step (RaftNode σ Event S) NodeError := fun n =>
  if n.failureDetectionTimeout = 0 then (.next, n)
  else if n.currentRole ≠ .leader then (.next, n)
  else
    let (failed, table) := trackProgress n io io.progress n.followerProgress
    (.next, failed.foldl reportFailed { n with followerProgress := table })

/-- Steps 8 and 12: a call into raft-rs. -/
def advance (e : Effect Event S) : Step (RaftNode σ Event S) NodeError :=
  Step.modify fun n => n.emit e

/-! ## `on_ready` -/

section
variable [ProstMessage ConfChange] [SerdeJson NodeMetadata] [StateMachine σ Command Event]
  [SerdeJson Command] [RaftStorage S]

/-- Steps 1 to 4: what a ready does to the node and its storage. -/
def takeReady (io : ReadyIo) : List (Step (RaftNode σ Event S) NodeError) :=
  [restoreSnapshot io, applyCommitted io io.ready.committedEntries, persistEntries io,
   persistHardState io]

/-- Steps 6 and 7. -/
def sendReady (io : ReadyIo) : List (Step (RaftNode σ Event S) NodeError) :=
  [sendAll io.sendMessages io.ready.messages, sendAll io.sendPersisted io.ready.persistedMessages]

/-- Steps 8 to 12. -/
def advanceReady (io : ReadyIo) : List (Step (RaftNode σ Event S) NodeError) :=
  [advance .advanceAppend, updateCommit io, sendAll io.sendLight io.lightReady.messages,
   applyCommitted io io.lightReady.committedEntries, advance .advanceApply]

/-- The statements of `on_ready`. -/
def readySteps (io : ReadyIo) : List (Step (RaftNode σ Event S) NodeError) :=
  takeReady io ++ ([changeRole io] ++ (sendReady io ++ (advanceReady io ++
    [maybeCreateSnapshot io, checkFollowerProgress io])))

def onReady (io : ReadyIo) : Step (RaftNode σ Event S) NodeError := fun n =>
  if io.hasReady then Step.block (readySteps io) n else (.next, n)

end

end RaftNode

end Raftoral

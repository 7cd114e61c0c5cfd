import Raftoral.Raft.ReadyStorage
import Raftoral.Raft.SnapshotSchedule

/-!
# Restarts

A node may be stopped between two calls and built again over the same storage path. The
constructor is given a new state machine and never looks at the stored snapshot: what comes
back is what raft-rs delivers again, the log from its first index on. As long as nothing
has stored a snapshot this is the whole committed log (`Replica`), and the state comes back
with it.
-/

namespace Raftoral

open RaftNode ProstMessage

variable {σ Command Event : Type}

/-! ## Lives of a node -/

/-- What happens to a node and to the process it runs in. -/
inductive LifeOp (Command : Type) where
  | op (o : NodeOp Command)
  | restart (peers : Peers) (confState : ConfState)

section
variable [ProstMessage HardState] [ProstMessage ConfState]

/-- The constructor over the database of a storage path. raft-rs delivers committed entries
from the first index of the storage on. -/
def rebuild (config : RaftNodeConfig) (newMachine : σ) (peers : Peers) (confState : ConfState)
    (db : Db) : Option (NodeRun σ Event RocksDBStorage) :=
  if config.storagePath.isSome then
    match createStorage Faults.none config confState db with
    | (.ok store, _) =>
      some (NodeRun.start config peers newMachine confState store (U64.sub store.firstIndexCache 1))
    | (.error _, _) => none
  else none

/-- A node can be built again over a database that was in use. -/
theorem Durable.rebuild {config : RaftNodeConfig} {store : RocksDBStorage}
    (h : Durable config.nodeId store) (hn : config.nodeId < U64.size)
    (hpath : config.storagePath.isSome) (newMachine : σ) (peers : Peers) (confState : ConfState) :
    Raftoral.rebuild config newMachine peers confState store.db =
      some (NodeRun.start config peers newMachine confState store
        (U64.sub store.firstIndexCache 1) : NodeRun σ Event RocksDBStorage) := by
  unfold Raftoral.rebuild createStorage
  rw [if_pos hpath, h.reopen hn confState]

variable [ProstMessage Entry] [ProstMessage Snapshot] [ProstMessage Message]
  [ProstMessage ConfChange] [SerdeJson NodeMetadata] [StateMachine σ Command Event]
  [SerdeJson Command]

/-- One step in the life of a node. -/
def lifeStep (config : RaftNodeConfig) (newMachine : σ) (s : NodeRun σ Event RocksDBStorage) :
    LifeOp Command → Option (NodeRun σ Event RocksDBStorage)
  | .op o => s.step o
  | .restart peers confState =>
    if s.running then rebuild config newMachine peers confState s.node.store.db else none

end

/-! ## The contract of raft-rs -/

/-- The commit index that is persisted once a call is done. -/
def ReadyIo.commitAfter (io : ReadyIo) (role : StateRole) (commit : ℕ) : ℕ :=
  let taken := (io.ready.hs.map (·.commit)).getD commit
  if AnnouncesPreCandidate io role then taken else io.lightReady.commitIndex.getD taken

section
variable [ProstMessage Entry] [ProstMessage HardState] [ProstMessage ConfState]
  [ProstMessage Snapshot]

/-- The contract of raft-rs about a ready: it never overwrites what is committed, it hands out
the committed entries of the log from the delivered index on, and the commit index grows with
what was handed out and stays in the log. -/
structure ReadyIo.Replicates (io : ReadyIo) (store : RocksDBStorage) (role : StateRole)
    (delivered : ℕ) : Prop where
  appended : io.AppendsAbove store.hardState.commit store.lastIndexCache
  handed : Persists io store → (takenStore io store).entries (io.base delivered + 1)
    (io.deliveredAfter role delivered + 1) none = .ok (io.taken role)
  grows : store.hardState.commit ≤ io.commitAfter role store.hardState.commit
  covers : io.deliveredAfter role delivered ≤ io.commitAfter role store.hardState.commit
  stored : Persists io store →
    io.commitAfter role store.hardState.commit ≤ (takenStore io store).lastIndexCache

variable [StateMachine σ Command Event] [SerdeJson Command] [ProstMessage ConfChange]
  [SerdeJson NodeMetadata]

/-- A call stores a snapshot: it was sent one, or one is due when it reaches step 13. -/
def StoresSnapshot (io : ReadyIo) (n : RaftNode σ Event RocksDBStorage) : Prop :=
  ¬ io.ready.snapshot.isEmpty ∨ ReachesSnapshot io n ∧ n.snapshotInterval ≠ 0 ∧
    n.snapshotInterval ≤ U64.sub (lastCommandIndex io.handedOut n.committedIndex)
      n.lastSnapshotIndex ∧
    ∃ data, StateMachine.snapshot (replay n.stateMachine io.handedOut) = .ok data

/-- raft-rs keeps to its contract. -/
def LifeOp.Replicates (s : NodeRun σ Event RocksDBStorage) : LifeOp Command → Prop
  | .op (.ready io) => io.hasReady → io.Replicates s.node.store s.node.currentRole s.delivered
  | _ => True

/-- The step stores no snapshot. -/
def LifeOp.NoSnapshot (s : NodeRun σ Event RocksDBStorage) : LifeOp Command → Prop
  | .op (.ready io) => io.hasReady → ¬ StoresSnapshot io s.node
  | _ => True

end

/-! ## Replicas -/

/-- A range of a log that was never compacted. -/
theorem logEntries_eq_ok {L : OffsetLog Entry} (hoff : L.offset = 0) {lo hi : ℕ} {es : List Entry}
    (h : logEntries L lo hi = .ok es) : es = (L.entries.drop (lo - 1)).take (hi - lo) := by
  unfold logEntries at h
  by_cases h₁ : hi ≤ lo
  · rw [if_pos h₁, Except.ok.injEq] at h
    rw [← h, Nat.sub_eq_zero_of_le h₁, List.take_zero]
  · rw [if_neg h₁] at h
    split at h
    · exact absurd h (by simp)
    · split at h
      · exact absurd h (by simp)
      · rw [Except.ok.injEq, OffsetLog.slice, hoff] at h
        exact h.symm

theorem logEntries_of_le {L : OffsetLog Entry} (hoff : L.offset = 0) {lo hi : ℕ} (hlo : 0 < lo)
    (hhi : hi ≤ L.entries.length + 1) :
    logEntries L lo hi = .ok ((L.entries.drop (lo - 1)).take (hi - lo)) := by
  unfold logEntries
  by_cases h₁ : hi ≤ lo
  · rw [if_pos h₁, Nat.sub_eq_zero_of_le h₁, List.take_zero]
  · rw [if_neg h₁, OffsetLog.firstIndex, OffsetLog.lastIndex, hoff, if_neg (by omega),
      if_neg (by omega), OffsetLog.slice, hoff, Nat.sub_zero]

section
variable [StateMachine σ Command Event] [SerdeJson Command]

theorem replay_append (sm : σ) (es fs : List Entry) :
    replay sm (es ++ fs) = replay (replay sm es) fs := List.foldl_append

/-- Replaying a log up to an index and on from there. -/
theorem replay_take (sm : σ) (es : List Entry) {i j : ℕ} (h : i ≤ j) :
    replay (replay sm (es.take i)) ((es.drop i).take (j - i)) = replay sm (es.take j) := by
  rw [← replay_append]
  congr 1
  rw [show j = i + (j - i) by omega, List.take_add]
  congr 2
  omega

variable [ProstMessage Entry] [ProstMessage HardState]

/-- The storage of a node stands for a log that was never compacted, and the state of its
machine is that of the log up to the delivered index. `known` is a part of the log that is
committed for good. -/
structure Replica (nodeId : ℕ) (newMachine : σ) (known : List Entry)
    (s : NodeRun σ Event RocksDBStorage) (L : OffsetLog Entry) : Prop where
  represents : Represents nodeId s.node.store L
  offset : L.offset = 0
  committed : s.node.store.hardState.commit ≤ L.lastIndex
  delivered : s.delivered ≤ s.node.store.hardState.commit
  machine : s.node.stateMachine = replay newMachine (L.entries.take s.delivered)
  known : known <+: L.entries.take s.node.store.hardState.commit

/-- Calls that leave storage and machine alone keep a replica. -/
theorem Replica.call {nodeId : ℕ} {newMachine : σ} {known : List Entry}
    {s s' : NodeRun σ Event RocksDBStorage} {L : OffsetLog Entry}
    (h : Replica nodeId newMachine known s L) (hf : CallFrame s.node s'.node)
    (hdel : s'.delivered = s.delivered) : Replica nodeId newMachine known s' L := by
  obtain ⟨h₁, h₂, h₃, h₄, h₅, h₆⟩ := h
  rw [← hf.store] at h₁ h₃ h₄ h₆
  rw [← hdel] at h₄ h₅
  rw [← hf.stateMachine] at h₅
  exact ⟨h₁, h₂, h₃, h₄, h₅, h₆⟩

variable [ProstMessage ConfState]

/-- A node built over the database of a replica is a replica that has delivered nothing. -/
theorem Replica.rebuild {config : RaftNodeConfig} {newMachine : σ} {known : List Entry}
    {s : NodeRun σ Event RocksDBStorage} {L : OffsetLog Entry} (hn : config.nodeId < U64.size)
    (hpath : config.storagePath.isSome) (h : Replica config.nodeId newMachine known s L)
    (peers : Peers) (confState : ConfState) :
    ∃ s₁ : NodeRun σ Event RocksDBStorage,
      Raftoral.rebuild config newMachine peers confState s.node.store.db = some s₁ ∧
      Replica config.nodeId newMachine known s₁ L := by
  -- nothing was compacted, so the new state machine starts in front of the first entry
  have hfirst : U64.sub s.node.store.firstIndexCache 1 = 0 := by
    rw [h.represents.first, OffsetLog.firstIndex, h.offset]
    exact U64.sub_self 1
  refine ⟨_, h.represents.durable.rebuild hn hpath newMachine peers confState, h.represents,
    h.offset, h.committed, ?_, ?_, h.known⟩
  · show U64.sub s.node.store.firstIndexCache 1 ≤ _
    rw [hfirst]
    exact Nat.zero_le _
  · show newMachine = replay newMachine (L.entries.take (U64.sub s.node.store.firstIndexCache 1))
    rw [hfirst]
    rfl

/-- A node built over a new database is a replica of the empty log. -/
theorem rebuild_fresh {config : RaftNodeConfig} (hpath : config.storagePath.isSome) (newMachine : σ)
    (peers : Peers) (confState : ConfState) :
    ∃ store, rebuild config newMachine peers confState {} =
        some (NodeRun.start config peers newMachine confState store 0 :
          NodeRun σ Event RocksDBStorage) ∧
      Represents config.nodeId store { offset := 0, entries := [] } ∧ store.hardState = {} := by
  obtain ⟨store, hopen, hrep⟩ := open_fresh_represents config.nodeId confState
  refine ⟨store, ?_, hrep, open_fresh_hardState hopen⟩
  have hfirst : U64.sub store.firstIndexCache 1 = 0 := by
    rw [hrep.first]
    exact U64.sub_self 1
  rcases hcreate : RocksDBStorage.openOrCreate Faults.none {} config.nodeId confState with
    ⟨out, db⟩
  rw [hcreate] at hopen
  obtain rfl : out = .ok store := hopen
  unfold rebuild createStorage
  rw [if_pos hpath, hcreate]
  simp only [hfirst]

theorem Replica.fresh {config : RaftNodeConfig} {newMachine : σ} {peers : Peers}
    {confState : ConfState} {s : NodeRun σ Event RocksDBStorage}
    (h : Raftoral.rebuild config newMachine peers confState {} = some s) :
    config.storagePath.isSome ∧
      Replica config.nodeId newMachine [] s { offset := 0, entries := [] } := by
  have hpath : config.storagePath.isSome := by
    by_contra hnone
    rw [Raftoral.rebuild, if_neg hnone] at h
    exact absurd h (by simp)
  obtain ⟨store, hbuilt, hrep, hhard⟩ := rebuild_fresh hpath newMachine peers confState
  obtain rfl := Option.some.inj (hbuilt.symm.trans h)
  refine ⟨hpath, hrep, rfl, ?_, Nat.zero_le _, rfl, List.nil_prefix⟩
  show store.hardState.commit ≤ _
  rw [hhard]
  exact Nat.zero_le _

variable [ProstMessage Snapshot]

/-- A ready that is taken and applied keeps a replica. -/
theorem Replica.take {nodeId : ℕ} {newMachine : σ} {known : List Entry} {io : ReadyIo}
    {s s' : NodeRun σ Event RocksDBStorage} {L : OffsetLog Entry}
    (h : Replica nodeId newMachine known s L)
    (hraft : io.Replicates s.node.store s.node.currentRole s.delivered)
    (hsnap : io.ready.snapshot.isEmpty) (hper : Persists io s.node.store)
    (hrep : Represents nodeId s'.node.store (io.logAfter L))
    (hcommit : s'.node.store.hardState.commit =
      io.commitAfter s.node.currentRole s.node.store.hardState.commit)
    (hdel : s'.delivered = io.deliveredAfter s.node.currentRole s.delivered)
    (hsm : s'.node.stateMachine = replay s.node.stateMachine (io.taken s.node.currentRole)) :
    Replica nodeId newMachine known s' (io.logAfter L) := by
  have hbase : io.base s.delivered = s.delivered := by rw [ReadyIo.base, if_pos hsnap]
  have htaken := takenStore_represents h.represents h.offset hsnap hraft.appended hper
  have hoff : (io.logAfter L).offset = 0 := (logAfter_offset io L).trans h.offset
  have habove := hraft.appended
  rw [h.represents.last] at habove
  -- the committed part of the log is still there
  have hkept := take_logAfter h.offset habove
  have hgrows := hraft.grows
  refine ⟨hrep, hoff, ?_, ?_, ?_, ?_⟩
  · rw [hcommit, ← htaken.last]
    exact hraft.stored hper
  · rw [hdel, hcommit]
    exact hraft.covers
  · have hread := hraft.handed hper
    rw [htaken.entries, hbase] at hread
    have hes := logEntries_eq_ok hoff hread
    rw [Nat.add_sub_cancel, Nat.add_sub_add_right] at hes
    have hbelow : (io.logAfter L).entries.take s.delivered = L.entries.take s.delivered := by
      have htake := congrArg (List.take s.delivered) hkept
      rwa [List.take_take, List.take_take, Nat.min_eq_left h.delivered] at htake
    have hle : s.delivered ≤ io.deliveredAfter s.node.currentRole s.delivered := by
      by_contra hlt
      have hnil : io.taken s.node.currentRole = [] := by
        rw [hes, Nat.sub_eq_zero_of_le (by omega), List.take_zero]
      refine hlt ?_
      unfold ReadyIo.deliveredAfter
      rw [hnil, hbase]
      split <;> exact Nat.le_refl _
    rw [hsm, hdel, h.machine, ← hbelow, hes, replay_take _ _ hle]
  · rw [hcommit]
    refine h.known.trans ?_
    rw [← hkept]
    exact List.take_prefix_take_left hgrows

variable [ProstMessage ConfChange] [SerdeJson NodeMetadata]

/-- Step 13 of a call that stores no snapshot. -/
theorem RaftNode.BeforeSnapshot.keeps {io : ReadyIo} {n n₁ n₂ : RaftNode σ Event RocksDBStorage}
    (hready : io.hasReady) (before : BeforeSnapshot io n n₁) (snap : SnapshotRun io n₁ .next n₂)
    (hno : ¬ StoresSnapshot io n) : n₂.store = n₁.store ∧ n₂.stateMachine = n₁.stateMachine := by
  cases snap with
  | disabled | kept => exact ⟨rfl, rfl⟩
  | created data s due hdata hstore =>
    have hsnap : io.ready.snapshot.isEmpty := by
      by_contra hs
      exact hno (Or.inl hs)
    obtain ⟨hint, hdue⟩ := due
    rw [before.snapshotInterval] at hint hdue
    rw [before.committedIndex, before.lastSnapshotIndex, restoredIndex, if_pos hsnap] at hdue
    rw [before.stateMachine, restoredMachine, if_pos hsnap] at hdata
    exact absurd (Or.inr ⟨before.reaches hready, hint, hdue, data, hdata⟩) hno

/-- A call that stores no snapshot keeps a replica, unless it fails. -/
theorem onReady_replica {nodeId : ℕ} {newMachine : σ} {known : List Entry} {io : ReadyIo}
    {s : NodeRun σ Event RocksDBStorage} {L : OffsetLog Entry} (hready : io.hasReady)
    (h : Replica nodeId newMachine known s L)
    (hraft : io.Replicates s.node.store s.node.currentRole s.delivered)
    (hno : ¬ StoresSnapshot io s.node) (hok : (s.afterReady io).running) :
    Replica nodeId newMachine known (s.afterReady io) (io.logAfter L) := by
  have hsnap : io.ready.snapshot.isEmpty := by
    by_contra hs
    exact hno (Or.inl hs)
  have hsm : restoredMachine io s.node.stateMachine = s.node.stateMachine := by
    rw [restoredMachine, if_pos hsnap]
  have htaken := takenStore_represents h.represents h.offset hsnap hraft.appended
  have hrun := onReady_run hready s.node
  unfold NodeRun.afterReady at hok ⊢
  generalize (onReady io s.node).1 = out at hrun hok ⊢
  generalize (onReady io s.node).2 = n' at hrun hok ⊢
  -- a call that has failed stops the node; the other two differ in what they hand out
  cases hrun with
  | takeFailed err n' hf => exact absurd hok Bool.false_ne_true
  | sendingFailed err n' hf => exact absurd hok Bool.false_ne_true
  | snapshotFailed n₁ err n' before hs => exact absurd hok Bool.false_ne_true
  | preCandidate n' take pre =>
    have hstore : n'.store = takenStore io s.node.store := take.store
    refine h.take hraft hsnap take.persists ?_ ?_ rfl ?_
    · show Represents nodeId n'.store _
      rw [hstore]
      exact htaken take.persists
    · show n'.store.hardState.commit = _
      rw [hstore, takenStore_hardState take.persists, ReadyIo.commitAfter, if_pos pre]
      cases io.ready.hs <;> rfl
    · show n'.stateMachine = _
      rw [take.stateMachine, hsm, ReadyIo.taken, if_pos pre]
  | finished n₁ n₂ n' before snap watch =>
    -- no snapshot was created behind the commit
    obtain ⟨hkept, hmachine⟩ := before.keeps hready snap hno
    have hstore : n'.store = (commitReady io (takenStore io s.node.store)).2 := by
      rw [watch.frame.store, hkept, ← before.store]
    refine h.take hraft hsnap before.persists ?_ ?_ rfl ?_
    · show Represents nodeId n'.store _
      rw [hstore]
      exact commitReady_represents (htaken before.persists) before.commits
    · show n'.store.hardState.commit = _
      rw [hstore, commitReady_hardState before.commits, takenStore_hardState before.persists,
        ReadyIo.commitAfter, if_neg before.noPreCandidate]
      cases io.ready.hs <;> rfl
    · show n'.stateMachine = _
      rw [watch.stateMachine, hmachine, ReadyIo.taken, if_neg before.noPreCandidate, ← hsm]
      exact before.stateMachine

/-! ## Runs -/

variable [ProstMessage Message]

/-- The invariant of a life: a running node is a replica. -/
def ReplicaInv (nodeId : ℕ) (newMachine : σ) (known : List Entry)
    (s : NodeRun σ Event RocksDBStorage) : Prop :=
  s.running → ∃ L, Replica nodeId newMachine known s L

theorem lifeStep_replica {config : RaftNodeConfig} {newMachine : σ} {known : List Entry}
    (hn : config.nodeId < U64.size) (hpath : config.storagePath.isSome)
    {s s' : NodeRun σ Event RocksDBStorage} {op : LifeOp Command}
    (h : ReplicaInv config.nodeId newMachine known s) (hraft : op.Replicates s)
    (hno : op.NoSnapshot s) (hs : lifeStep config newMachine s op = some s') :
    ReplicaInv config.nodeId newMachine known s' := by
  intro hrunning'
  cases op with
  | restart peers confState =>
    rw [lifeStep] at hs
    by_cases hrunning : s.running
    · rw [if_pos hrunning] at hs
      obtain ⟨L, hL⟩ := h hrunning
      obtain ⟨s₁, hbuilt, hrep⟩ := hL.rebuild hn hpath peers confState
      obtain rfl : s₁ = s' := Option.some.inj (hbuilt.symm.trans hs)
      exact ⟨L, hrep⟩
    · rw [if_neg hrunning] at hs
      exact absurd hs (by simp)
  | op o =>
    -- only a ready touches storage and state machine
    obtain ⟨hrunning, ⟨-, hframe, hdel⟩ | ⟨io, rfl, hready, rfl⟩⟩ := NodeRun.step_cases hs
    · obtain ⟨L, hL⟩ := h hrunning
      exact ⟨L, hL.call hframe hdel⟩
    · obtain ⟨L, hL⟩ := h hrunning
      exact ⟨_, onReady_replica hready hL (hraft hready) (hno hready) hrunning'⟩

/-- A replica stays one over every life that stores no snapshot. -/
theorem run_replica {config : RaftNodeConfig} {newMachine : σ} {known : List Entry}
    (hn : config.nodeId < U64.size) (hpath : config.storagePath.isSome)
    {s s' : NodeRun σ Event RocksDBStorage} {ops : List (LifeOp Command)}
    (h : ReplicaInv config.nodeId newMachine known s)
    (hraft : Transition.Along (lifeStep config newMachine) LifeOp.Replicates s ops)
    (hno : Transition.Along (lifeStep config newMachine) LifeOp.NoSnapshot s ops)
    (hrun : Transition.run (lifeStep config newMachine) s ops = some s') :
    ReplicaInv config.nodeId newMachine known s' :=
  Transition.run_induction (fun _ _ _ h hc hs => lifeStep_replica hn hpath h hc.1 hc.2 hs) h
    (hraft.and hno) hrun

/-- From a new database on, a node that never stored a snapshot can be restarted at any point
between two calls: once the new node has delivered everything that was committed, its state
is the one before the restart, with the committed entries applied that were still to be
delivered then. -/
theorem restart_preserves_state (config : RaftNodeConfig) (hn : config.nodeId < U64.size)
    (newMachine : σ) (peers : Peers) (confState : ConfState)
    (s₀ s : NodeRun σ Event RocksDBStorage) (ops : List (LifeOp Command))
    (hstart : rebuild config newMachine peers confState {} = some s₀)
    (hraft : Transition.Along (lifeStep config newMachine) LifeOp.Replicates s₀ ops)
    (hno : Transition.Along (lifeStep config newMachine) LifeOp.NoSnapshot s₀ ops)
    (hrun : Transition.run (lifeStep config newMachine) s₀ ops = some s) (hrunning : s.running)
    (peers' : Peers) (confState' : ConfState) :
    ∃ s₁ rest, lifeStep config newMachine s (.restart peers' confState' : LifeOp Command) =
        some s₁ ∧
      s.node.store.entries (s.delivered + 1) (s.node.store.hardState.commit + 1) none = .ok rest ∧
      ∀ (ops' : List (LifeOp Command)) (s' : NodeRun σ Event RocksDBStorage),
        Transition.Along (lifeStep config newMachine) LifeOp.Replicates s₁ ops' →
        Transition.Along (lifeStep config newMachine) LifeOp.NoSnapshot s₁ ops' →
        Transition.run (lifeStep config newMachine) s₁ ops' = some s' → s'.running →
        s'.delivered = s.node.store.hardState.commit →
        s'.node.stateMachine = replay s.node.stateMachine rest ∧
          (s.delivered = s.node.store.hardState.commit →
            s'.node.stateMachine = s.node.stateMachine) := by
  obtain ⟨hpath, hfresh⟩ := Replica.fresh hstart
  obtain ⟨L, hL⟩ := run_replica hn hpath (fun _ => ⟨_, hfresh⟩) hraft hno hrun hrunning
  set commit := s.node.store.hardState.commit with hcommit
  have hknown : Replica config.nodeId newMachine (L.entries.take commit) s L :=
    ⟨hL.represents, hL.offset, hL.committed, hL.delivered, hL.machine, List.prefix_rfl⟩
  obtain ⟨s₁, hbuilt, hrep⟩ := hknown.rebuild hn hpath peers' confState'
  have hlen : commit ≤ L.entries.length := by
    have hle := hL.committed
    rwa [OffsetLog.lastIndex, hL.offset, Nat.zero_add] at hle
  have hread : s.node.store.entries (s.delivered + 1) (commit + 1) none =
      .ok ((L.entries.drop s.delivered).take (commit - s.delivered)) := by
    have hdel : s.delivered ≤ commit := hL.delivered
    rw [hL.represents.entries, logEntries_of_le hL.offset (by omega) (by omega),
      Nat.add_sub_cancel, Nat.add_sub_add_right]
  refine ⟨_, _, by rw [lifeStep, if_pos hrunning, hbuilt], hread, ?_⟩
  intro ops' s' hraft' hno' hrun' hrunning' hdel
  obtain ⟨L', hL'⟩ := run_replica hn hpath (fun _ => ⟨L, hrep⟩) hraft' hno' hrun' hrunning'
  -- the log of the new node begins with what was committed before
  have hsame : L'.entries.take commit = L.entries.take commit := by
    have hpre := List.prefix_iff_eq_take.mp hL'.known
    have hle := hL'.delivered
    rw [hdel] at hle
    rw [List.length_take, Nat.min_eq_left hlen, List.take_take, Nat.min_eq_left hle] at hpre
    exact hpre.symm
  have hmachine : s'.node.stateMachine = replay s.node.stateMachine
      ((L.entries.drop s.delivered).take (commit - s.delivered)) := by
    rw [hL'.machine, hdel, hsame, hL.machine, replay_take _ _ hL.delivered]
  refine ⟨hmachine, fun heq => ?_⟩
  rw [hmachine, heq, Nat.sub_self, List.take_zero]
  rfl

end

section
open scoped Codec

/-- A command that sets a key. -/
def setEntry : Entry :=
  { term := 1, index := 1, data := SerdeJson.toVec (KvCommand.set "k" "v") }

/-- The leader of a single node cluster appends and commits the command. -/
def setReady : ReadyIo where
  ready := { entries := [setEntry], hs := some { term := 1, vote := 1, commit := 0 } }
  lightReady := { commitIndex := some 1, committedEntries := [setEntry] }
  applyConfChange _ := .error "no configuration change"

/-- raft-rs delivers the command again. -/
def redeliveredReady : ReadyIo where
  ready := { committedEntries := [setEntry] }
  applyConfChange _ := .error "no configuration change"

/-- A node with persistent storage. -/
abbrev kvConfig (snapshotInterval : ℕ) : RaftNodeConfig :=
  { snapshotInterval, storagePath := some "data" }

abbrev kvNode (snapshotInterval : ℕ) (store : RocksDBStorage) :
    NodeRun KvStateMachine KvEvent RocksDBStorage :=
  NodeRun.start (kvConfig snapshotInterval) (fun _ => none) {} { voters := [1] } store 0

/-- The node over a new database. -/
theorem kvNode_built (snapshotInterval : ℕ) :
    ∃ store, rebuild (kvConfig snapshotInterval) {} (fun _ => none) { voters := [1] } {} =
        some (kvNode snapshotInterval store) ∧
      Represents 1 store { offset := 0, entries := [] } ∧ store.hardState = {} := by
  have hpath : (kvConfig snapshotInterval).storagePath.isSome := rfl
  exact rebuild_fresh hpath _ _ _

theorem setReady_appends (last : ℕ) : setReady.AppendsAbove 0 last := by
  intro _
  refine ⟨rfl, Nat.zero_lt_one, ?_, ?_⟩
  · show 1 ≤ last + 1
    omega
  · intro x hx
    obtain rfl := List.mem_singleton.mp hx
    decide

theorem setEntry_isCommand : setEntry.isCommand := by decide

theorem replay_setEntry :
    replay ({} : KvStateMachine) [setEntry] = { store := [("k", "v")] } := by
  have hcmd : setEntry.isCommand = true := setEntry_isCommand
  simp only [replay, List.foldl_cons, List.foldl_nil, hcmd, if_true]
  simp [setEntry, applyCommand, StateMachine.apply, KvStateMachine.apply]

section
variable {store : RocksDBStorage} (hrep : Represents 1 store { offset := 0, entries := [] })
include hrep

theorem setReady_persists : Persists setReady store :=
  hrep.persists rfl rfl (setReady_appends _) rfl rfl

theorem setReady_represents :
    Represents 1 (takenStore setReady store) { offset := 0, entries := [setEntry] } :=
  takenStore_represents hrep rfl rfl (setReady_appends _) (setReady_persists hrep)

theorem setReady_replicates (hhard : store.hardState = {}) :
    setReady.Replicates store .follower 0 where
  appended := by
    rw [hhard]
    exact setReady_appends _
  handed _ := ((setReady_represents hrep).entries 1 2).trans rfl
  grows := by
    rw [hhard]
    exact Nat.zero_le _
  covers := Nat.le_refl 1
  stored _ := by
    rw [(setReady_represents hrep).last]
    exact Nat.le_refl 1

theorem setReady_reaches (snapshotInterval : ℕ) :
    ReachesSnapshot setReady (kvNode snapshotInterval store).node where
  ready := rfl
  accepts e he := absurd he List.not_mem_nil
  persists := setReady_persists hrep
  noPreCandidate := by simp [AnnouncesPreCandidate, setReady]
  canSend := ⟨fun m hm => absurd hm List.not_mem_nil, fun m hm => absurd hm List.not_mem_nil,
    fun m hm => absurd hm List.not_mem_nil⟩
  acceptsLight e he hconf := by
    obtain rfl := List.mem_singleton.mp he
    exact absurd hconf (by decide)
  commits := (setReady_represents hrep).commits rfl

/-- The call ends well, and when step 13 starts the command is applied and committed. -/
theorem setReady_finishes (snapshotInterval : ℕ) :
    ((kvNode snapshotInterval store).afterReady setReady).running ∧
      ∃ n₁ n₂, BeforeSnapshot setReady (kvNode snapshotInterval store).node n₁ ∧
        SnapshotRun setReady n₁ .next n₂ ∧
        Notifies n₂ ((kvNode snapshotInterval store).afterReady setReady).node ∧
        n₁.stateMachine = { store := [("k", "v")] } ∧ n₁.store.hardState.commit = 1 ∧
        Represents 1 n₁.store { offset := 0, entries := [setEntry] } := by
  have hreach := setReady_reaches hrep snapshotInterval
  obtain ⟨hnext, n₁, n₂, before, snap, watch⟩ := onReady_finishes hreach rfl
  refine ⟨?_, n₁, n₂, before, snap, watch, ?_, ?_, ?_⟩
  · rw [NodeRun.afterReady_running, hnext]
    rfl
  · rw [before.stateMachine]
    exact replay_setEntry
  · rw [before.store, commitReady_hardState before.commits]
    rfl
  · rw [before.store]
    exact commitReady_represents (setReady_represents hrep) before.commits

end

/-- With the default interval the command makes no snapshot due. -/
theorem setReady_noSnapshot (store : RocksDBStorage) :
    ¬ StoresSnapshot setReady (kvNode 1000 store).node := by
  rintro (hsnap | ⟨-, -, hdue, -⟩)
  · exact hsnap rfl
  · exact absurd (show 1000 ≤ U64.sub 1 0 from hdue) (by decide)

theorem redeliveredReady_noSnapshot (store : RocksDBStorage) :
    ¬ StoresSnapshot redeliveredReady (kvNode 1000 store).node := by
  rintro (hsnap | ⟨-, -, hdue, -⟩)
  · exact hsnap rfl
  · exact absurd (show 1000 ≤ U64.sub 1 0 from hdue) (by decide)

theorem redeliveredReady_replicates {store : RocksDBStorage}
    (hrep : Represents 1 store { offset := 0, entries := [setEntry] })
    (hcommit : store.hardState.commit = 1) : redeliveredReady.Replicates store .follower 0 where
  appended h := absurd rfl h
  handed _ := (hrep.entries 1 2).trans rfl
  grows := Nat.le_refl _
  covers := by
    rw [hcommit]
    exact Nat.le_refl 1
  stored _ := by
    show store.hardState.commit ≤ store.lastIndexCache
    rw [hcommit, hrep.last]
    exact Nat.le_refl 1

theorem redeliveredReady_reaches (store : RocksDBStorage) :
    ReachesSnapshot redeliveredReady (kvNode 1000 store).node where
  ready := rfl
  accepts e he hconf := by
    obtain rfl := List.mem_singleton.mp he
    exact absurd hconf (by decide)
  persists := ⟨rfl, rfl⟩
  noPreCandidate := by simp [AnnouncesPreCandidate, redeliveredReady]
  canSend := ⟨fun m hm => absurd hm List.not_mem_nil, fun m hm => absurd hm List.not_mem_nil,
    fun m hm => absurd hm List.not_mem_nil⟩
  acceptsLight e he := absurd he List.not_mem_nil
  commits := rfl

/-- A restart after one command, which is delivered again. -/
theorem restart_preserves_state_one_command :
    ∃ s₀ s s₁ s' : NodeRun KvStateMachine KvEvent RocksDBStorage,
      rebuild (kvConfig 1000) {} (fun _ => none) { voters := [1] } {} = some s₀ ∧
      Transition.run (lifeStep (kvConfig 1000) {}) s₀ [.op (.ready setReady)] = some s ∧
      lifeStep (kvConfig 1000) {} s (.restart (fun _ => none) { voters := [1] }) = some s₁ ∧
      Transition.run (lifeStep (kvConfig 1000) {}) s₁ [.op (.ready redeliveredReady)] = some s' ∧
      s.node.stateMachine = { store := [("k", "v")] } ∧
      s'.node.stateMachine = s.node.stateMachine := by
  obtain ⟨store, hbuilt, hrep, hhard⟩ := kvNode_built 1000
  obtain ⟨hrunning, n₁, n₂, before, snap, watch, hsm, hcommit, hrep₁⟩ :=
    setReady_finishes hrep 1000
  set s := (kvNode 1000 store).afterReady setReady with hs
  have hrun : Transition.run (lifeStep (kvConfig 1000) {}) (kvNode 1000 store)
      [.op (.ready setReady)] = some s :=
    Transition.run_cons.mpr ⟨s, NodeRun.step_ready rfl setReady, rfl⟩
  obtain ⟨s₁, rest, hs₁, -, hall⟩ := restart_preserves_state (kvConfig 1000) (by decide)
    ({} : KvStateMachine) (fun _ => none) { voters := [1] } (kvNode 1000 store) s
    [.op (.ready setReady)] hbuilt ⟨fun _ => setReady_replicates hrep hhard, by simp⟩
    ⟨fun _ => setReady_noSnapshot store, by simp⟩ hrun hrunning (fun _ => none) { voters := [1] }
  obtain ⟨hkept, hkeptMachine⟩ := before.keeps rfl snap (setReady_noSnapshot store)
  have hmachine : s.node.stateMachine = { store := [("k", "v")] } :=
    watch.stateMachine.trans (hkeptMachine.trans hsm)
  have hst : s.node.store = n₁.store := watch.frame.store.trans hkept
  have hcommit₁ : s.node.store.hardState.commit = 1 := by rw [hst, hcommit]
  have hfirst : U64.sub n₁.store.firstIndexCache 1 = 0 := by
    rw [hrep₁.first]
    decide
  -- the new node starts from the beginning of the log
  obtain rfl : s₁ = kvNode 1000 n₁.store := by
    have hdur : Durable (kvConfig 1000).nodeId n₁.store := hrep₁.durable
    rw [lifeStep, if_pos hrunning, hst, hdur.rebuild (by decide) rfl, hfirst] at hs₁
    exact (Option.some.inj hs₁).symm
  set s' := (kvNode 1000 n₁.store).afterReady redeliveredReady with hs'
  have hrun' : Transition.run (lifeStep (kvConfig 1000) {}) (kvNode 1000 n₁.store)
      [.op (.ready redeliveredReady)] = some s' :=
    Transition.run_cons.mpr ⟨s', NodeRun.step_ready rfl redeliveredReady, rfl⟩
  have hrunning' : s'.running := by
    rw [hs', NodeRun.afterReady_running,
      (onReady_finishes (redeliveredReady_reaches n₁.store) rfl).1]
    rfl
  obtain ⟨-, hsame⟩ := hall [.op (.ready redeliveredReady)] s'
    ⟨fun _ => redeliveredReady_replicates hrep₁ hcommit, by simp⟩
    ⟨fun _ => redeliveredReady_noSnapshot n₁.store, by simp⟩ hrun' hrunning' hcommit₁.symm
  exact ⟨_, s, _, s', hbuilt, hrun, hs₁, hrun', hmachine, hsame hcommit₁.symm⟩

/-- A node that takes a snapshot after every command forgets the command in a restart: the
log starts behind the snapshot, and nothing reads the snapshot. -/
theorem restart_loses_state :
    ∃ s₀ s s₁ : NodeRun KvStateMachine KvEvent RocksDBStorage,
      rebuild (kvConfig 1) {} (fun _ => none) { voters := [1] } {} = some s₀ ∧
      Transition.Along (lifeStep (kvConfig 1) {}) LifeOp.Replicates s₀ [.op (.ready setReady)] ∧
      Transition.run (lifeStep (kvConfig 1) {}) s₀ [.op (.ready setReady)] = some s ∧ s.running ∧
      s.delivered = s.node.store.hardState.commit ∧
      lifeStep (kvConfig 1) {} s (.restart (fun _ => none) { voters := [1] }) = some s₁ ∧
      s₁.delivered = s.node.store.hardState.commit ∧
      s.node.stateMachine = { store := [("k", "v")] } ∧ s₁.node.stateMachine = {} := by
  obtain ⟨store, hbuilt, hrep, hhard⟩ := kvNode_built 1
  obtain ⟨hrunning, n₁, n₂, before, snap, watch, hsm, hcommit, hrep₁⟩ := setReady_finishes hrep 1
  cases snap with
  | disabled h => exact absurd (before.snapshotInterval.symm.trans h) Nat.one_ne_zero
  | kept enabled h =>
    -- the command makes a snapshot due, and the machine can be written out
    rcases h with hno | ⟨e, he⟩
    · refine absurd ⟨enabled, ?_⟩ hno
      rw [before.snapshotInterval, before.committedIndex, before.lastSnapshotIndex]
      show 1 ≤ U64.sub 1 0
      decide
    · exact absurd he (by simp [StateMachine.snapshot])
  | created data st due hdata hstore =>
    set s := (kvNode 1 store).afterReady setReady with hs
    have hst : s.node.store = st := watch.frame.store
    have hindex : (n₁.snapshotOf data).metadata.index = 1 := before.committedIndex
    obtain ⟨hdur, hfirst⟩ := hrep₁.durable.applySnapshot hstore
    have hhard₁ : s.node.store.hardState.commit = 1 := by
      rw [hst, ← hcommit, hardState_of_eq (s := n₁.store)]
      rw [← applySnapshot_hardState setReady.snapshotFaults n₁.store (n₁.snapshotOf data)]
      rw [show n₁.store.applySnapshot _ _ = _ from hstore]
    have hrun : Transition.run (lifeStep (kvConfig 1) {}) (kvNode 1 store)
        [.op (.ready setReady)] = some s :=
      Transition.run_cons.mpr ⟨s, NodeRun.step_ready rfl setReady, rfl⟩
    refine ⟨_, s, NodeRun.start (kvConfig 1) (fun _ => none) {} { voters := [1] } st
      (U64.sub st.firstIndexCache 1), hbuilt, ⟨fun _ => setReady_replicates hrep hhard, by simp⟩,
      hrun, hrunning, ?_, ?_, ?_, ?_, ?_⟩
    · rw [hhard₁]
      rfl
    · rw [lifeStep, if_pos hrunning, hst]
      exact hdur.rebuild (by decide) rfl _ _ _
    · rw [hhard₁]
      show U64.sub st.firstIndexCache 1 = 1
      rw [hfirst, hindex]
      decide
    · rw [← hsm]
      exact watch.stateMachine
    · rfl

end

end Raftoral

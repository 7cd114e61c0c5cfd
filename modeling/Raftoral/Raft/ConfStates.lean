import Raftoral.Raft.CachedConf
import Raftoral.Raft.StorageVariants

/-!
# The cached configuration and the one in use

The constructors of a node cache the configuration they are given. raft-rs takes its own from the
storage, and `initialize_if_needed` writes the given one there only when the path is new. From then
on both change at the same places, so whether they agree is decided at the start.

A run is the life of a node with all its restarts. Beside the node it keeps what raft-rs has:
the configuration it uses, and whether it has installed a snapshot that it has not handed out yet,
which `on_ready` cannot know of.
-/

namespace Raftoral

open RaftNode RaftStorage ProstMessage

/-- raft-rs's `MemStorage` with `new_with_conf_state`. -/
class NewMemStorage (M : Type) extends MemStorage M where
  newWithConfState : ConfState → M
  initialState_new : ∀ cs,
    (MemStorage.initialState (newWithConfState cs)).map (·.confState) = .ok cs

variable {σ Command Event M : Type}

/-! ## Construction -/

/-- The constructors of `RaftNode`. -/
inductive Constructor where
  | newSingleNode
  | newMultiNode
  | newWithConfState (confState : ConfState)

/-- The configuration a constructor gives to the storage, and caches. -/
def Constructor.confState (config : RaftNodeConfig) : Constructor → ConfState
  | .newSingleNode => singleNodeConfState config
  | .newMultiNode => {}
  | .newWithConfState confState => confState

/-- What a constructor starts with agrees with what the storage path holds. -/
def StartsWith [ProstMessage ConfState] (config : RaftNodeConfig) (confState : ConfState)
    (disk : Db) : Prop :=
  config.storagePath = none ∨ disk.metadata .hardState = none ∨
    RocksDBStorage.loadOr {} (disk.metadata .confState) = .ok confState

section
variable [NewMemStorage M] [ProstMessage HardState] [ProstMessage ConfState]

/-- `create_storage`, with what the storage path holds before and after. -/
def RaftStorage.Variant.createStorage (w : Faults) (config : RaftNodeConfig) (confState : ConfState)
    (disk : Db) : Except StorageError (Variant M) × Db :=
  match config.storagePath with
  | some _ => ((RaftNode.createStorage w config confState disk).1.map .rocksDB,
      (RaftNode.createStorage w config confState disk).2)
  | none => (.ok (.memory (NewMemStorage.newWithConfState confState)), disk)

theorem openOrCreate_confState {w : Faults} {disk : Db} {nodeId : ℕ} {confState : ConfState}
    {s : RocksDBStorage} (h : (RocksDBStorage.openOrCreate w disk nodeId confState).1 = .ok s) :
    s.loadConfState = if disk.metadata .hardState = none then .ok confState
      else RocksDBStorage.loadOr {} (disk.metadata .confState) := by
  unfold RocksDBStorage.openOrCreate at h
  rcases hinit : RocksDBStorage.initializeIfNeeded w
    { db := disk, firstIndexCache := 0, lastIndexCache := 0 } nodeId confState with ⟨e | _, s₁⟩
  · rw [hinit] at h
    exact absurd h (by simp)
  · rw [hinit] at h
    rw [RocksDBStorage.loadConfState, reloadIndexCaches_db h]
    unfold RocksDBStorage.initializeIfNeeded at hinit
    by_cases hfresh : disk.metadata .hardState = none
    · rw [hfresh] at hinit
      rw [if_pos hfresh, perform_ok hinit]
      simp [RocksDBStorage.initActions, Action.apply, DbWrite.apply, RocksDBStorage.loadOr,
        Except.mapError]
    · rw [if_pos (Option.isSome_iff_ne_none.mpr hfresh)] at hinit
      rw [if_neg hfresh]
      -- a database that has the mark is taken as it is
      have hkept : s₁.db = disk := by
        split at hinit
        · split at hinit
          · exact absurd hinit (by simp)
          · rw [← (Prod.mk.inj hinit).2]
        · rw [← (Prod.mk.inj hinit).2]
      rw [hkept]

theorem loadConfState_of_initialState {s : RocksDBStorage} {state : RaftState}
    (h : s.initialState = .ok state) : s.loadConfState = .ok state.confState := by
  unfold RocksDBStorage.initialState at h
  cases hhard : s.loadHardState with
  | error e =>
    rw [hhard] at h
    exact absurd h (by simp [bind, Except.bind])
  | ok hs =>
    cases hconf : s.loadConfState with
    | error e =>
      rw [hhard, hconf] at h
      exact absurd h (by simp [bind, Except.bind])
    | ok cs =>
      rw [hhard, hconf] at h
      obtain rfl := Except.ok.inj h
      rfl

/-- raft-rs finds the configuration of the constructor in the storage exactly when the two agree. -/
theorem initialState_createStorage_iff {w : Faults} {config : RaftNodeConfig}
    {confState : ConfState} {disk : Db} {store : Variant M} {state : RaftState}
    (hstore : (Variant.createStorage w config confState disk).1 = .ok store)
    (hstate : store.initialState = .ok state) :
    confState = state.confState ↔ StartsWith config confState disk := by
  unfold Variant.createStorage at hstore
  unfold StartsWith
  cases hpath : config.storagePath with
  | none =>
    rw [hpath] at hstore
    obtain rfl := Except.ok.inj hstore
    have hnew := NewMemStorage.initialState_new (M := M) confState
    rw [show MemStorage.initialState (NewMemStorage.newWithConfState confState : M) = .ok state
      from hstate] at hnew
    exact iff_of_true (Except.ok.inj hnew).symm (Or.inl rfl)
  | some path =>
    rw [hpath] at hstore
    dsimp only at hstore
    cases hopen : (RaftNode.createStorage w config confState disk).1 with
    | error e =>
      rw [hopen] at hstore
      exact absurd hstore (by simp [Except.map])
    | ok s =>
      rw [hopen] at hstore
      obtain rfl := Except.ok.inj hstore
      have hload := openOrCreate_confState hopen
      rw [loadConfState_of_initialState hstate] at hload
      by_cases hfresh : disk.metadata .hardState = none
      · rw [if_pos hfresh] at hload
        exact iff_of_true (Except.ok.inj hload).symm (Or.inr (Or.inl hfresh))
      · rw [if_neg hfresh] at hload
        rw [← hload]
        simp [hfresh, eq_comm]

end

/-! ## Runs -/

/-- A node with its storage path, and raft-rs beside it. -/
structure ConfRun (σ Event M : Type) where
  run : NodeRun σ Event (Variant M)
  /-- What the storage path holds while no database is open. -/
  disk : Db
  /-- The configuration raft-rs uses. -/
  raftConf : ConfState
  /-- raft-rs has installed a snapshot that it has not handed out. -/
  pending : Bool
  /-- The configuration in force at the index of the last command. -/
  committedConf : ConfState
  /-- No configuration change and no snapshot has come behind the last command. -/
  settled : Bool
  /-- The created snapshots, with the configuration in force at their indices. -/
  created : List (Snapshot × ConfState)

/-- What happens to a node: `install` is what raft-rs does on a message with a snapshot. -/
inductive ConfOp (σ Command : Type) where
  | op (o : NodeOp Command)
  | install (confState : ConfState)
  | restart (w : Faults) (config : RaftNodeConfig) (peers : Peers) (stateMachine : σ)
      (constructor : Constructor)

namespace ConfRun

def node (s : ConfRun σ Event M) : RaftNode σ Event (Variant M) := s.run.node

/-- What the storage path holds. -/
def onDisk (s : ConfRun σ Event M) : Db :=
  match s.node.store with
  | .rocksDB store => store.db
  | .memory _ => s.disk

section
variable [NewMemStorage M] [ProstMessage HardState] [ProstMessage ConfState]

/-- A constructor: `RawNode::new` takes its configuration from `initial_state`. -/
def construct (w : Faults) (config : RaftNodeConfig) (peers : Peers) (stateMachine : σ)
    (constructor : Constructor) (disk : Db) : Option (ConfRun σ Event M) :=
  match Variant.createStorage w config (constructor.confState config) disk with
  | (.error _, _) => none
  | (.ok store, disk') =>
    match store.initialState, store.firstIndex with
    | .ok state, .ok first => some {
        run := NodeRun.start config peers stateMachine (constructor.confState config) store
          (U64.sub first 1)
        disk := disk'
        raftConf := state.confState
        pending := false
        committedConf := state.confState
        settled := true
        created := [] }
    | _, _ => none

variable [ProstMessage Entry] [ProstMessage Snapshot] [ProstMessage ConfChange]
  [SerdeJson NodeMetadata] [StateMachine σ Command Event] [SerdeJson Command]

/-- The run after a call on a ready. raft-rs takes over the configurations it hands out. -/
def afterReady (s : ConfRun σ Event M) (io : ReadyIo) : ConfRun σ Event M :=
  let es := io.taken s.node.currentRole
  let conf := restoredConf io s.raftConf
  let committedConf := committedConfAfter io es conf s.committedConf
  let run := s.run.afterReady io
  { s with
    run
    raftConf := confAfter io es conf
    pending := false
    committedConf
    settled := settledAfter es (s.settled && io.ready.snapshot.isEmpty)
    created := s.created ++ ((createdSnapshots run.node.trace).drop
      (createdSnapshots s.node.trace).length).map (·, committedConf) }

variable [ProstMessage Message]

def step (s : ConfRun σ Event M) : ConfOp σ Command → Option (ConfRun σ Event M)
  | .op (.ready io) =>
    if s.run.running then
      if io.hasReady then some (s.afterReady io) else some s
    else none
  | .op o => (s.run.step o).map fun run => { s with run }
  | .install confState =>
    if s.run.running then some { s with raftConf := confState, pending := true } else none
  | .restart w config peers stateMachine constructor =>
    (construct w config peers stateMachine constructor s.onDisk).map fun t =>
      { t with created := s.created }

end

end ConfRun

/-! ## What a node relies on -/

/-- raft-rs hands out an installed snapshot with the next ready. -/
def ConfOp.HandsOut (s : ConfRun σ Event M) : ConfOp σ Command → Prop
  | .op (.ready io) => s.pending → io.hasReady ∧ ¬ io.ready.snapshot.isEmpty
  | _ => True

/-- The cached configuration is the one in use, what a joining node is told are its voters, and
every snapshot carries the configuration in force at its index. -/
structure ConfRight (s : ConfRun σ Event M) : Prop where
  cached : s.run.running → ¬ s.pending → s.node.confState = s.raftConf
  voters : s.run.running → ¬ s.pending → s.node.confState.voters = s.raftConf.voters
  created : ∀ p ∈ s.created, p.1.metadata.confState = p.2

section
variable [StateMachine σ Command Event] [SerdeJson Command] [ProstMessage Entry]
  [ProstMessage HardState] [ProstMessage ConfState] [ProstMessage Snapshot]
  [ProstMessage ConfChange] [SerdeJson NodeMetadata] [NewMemStorage M]

/-- A restart agrees with the storage, and a snapshot is created only while nothing has changed the
configuration behind the last command. -/
def ConfOp.KeepsConf (s : ConfRun σ Event M) : ConfOp σ Command → Prop
  | .op (.ready io) => CreatesSnapshot io s.node →
      settledAfter io.handedOut (s.settled && io.ready.snapshot.isEmpty)
  | .restart _ config _ _ constructor => StartsWith config (constructor.confState config) s.onDisk
  | _ => True

end

/-! ## One step -/

/-- The cached configuration is the one in use, and that of the last command if nothing has changed
it since. -/
structure Cached (s : ConfRun σ Event M) : Prop where
  cached : s.run.running → ¬ s.pending → s.node.cachedConfState = s.raftConf
  committed : s.run.running → ¬ s.pending → s.settled → s.committedConf = s.raftConf
  created : ∀ p ∈ s.created, p.1.metadata.confState = p.2

theorem Cached.confRight {s : ConfRun σ Event M} (h : Cached s) : ConfRight s where
  cached := h.cached
  voters hrunning hpending := congrArg ConfState.voters (h.cached hrunning hpending)
  created := h.created

section
variable [NewMemStorage M] [ProstMessage HardState] [ProstMessage ConfState]

theorem cached_construct {w : Faults} {config : RaftNodeConfig} {peers : Peers} {stateMachine : σ}
    {constructor : Constructor} {disk : Db} {s : ConfRun σ Event M}
    (h : ConfRun.construct w config peers stateMachine constructor disk = some s) :
    (s.node.cachedConfState = s.raftConf ↔
      StartsWith config (constructor.confState config) disk) ∧
      s.run.running ∧ ¬ s.pending ∧ s.committedConf = s.raftConf ∧ s.created = [] := by
  unfold ConfRun.construct at h
  rcases hstore : Variant.createStorage (M := M) w config (constructor.confState config) disk
    with ⟨e | store, disk'⟩
  · rw [hstore] at h
    exact absurd h (by simp)
  · rw [hstore] at h
    dsimp only at h
    cases hstate : store.initialState with
    | error e =>
      rw [hstate] at h
      exact absurd h (by simp)
    | ok state =>
      cases hfirst : store.firstIndex with
      | error e =>
        rw [hstate, hfirst] at h
        exact absurd h (by simp)
      | ok first =>
        rw [hstate, hfirst] at h
        obtain rfl := Option.some.inj h
        exact ⟨initialState_createStorage_iff (congrArg Prod.fst hstore) hstate, rfl,
          Bool.false_ne_true, rfl, rfl⟩

variable [StateMachine σ Command Event] [SerdeJson Command] [ProstMessage Entry]
  [ProstMessage Snapshot] [ProstMessage ConfChange] [SerdeJson NodeMetadata]

theorem Cached.afterReady {s : ConfRun σ Event M} {io : ReadyIo} (h : Cached s)
    (hrunning : s.run.running) (hready : io.hasReady)
    (hraft : s.pending → ¬ io.ready.snapshot.isEmpty)
    (hsettled : CreatesSnapshot io s.node →
      settledAfter io.handedOut (s.settled && io.ready.snapshot.isEmpty)) :
    Cached (s.afterReady io) := by
  -- a snapshot replaces both configurations, and without one they agreed before
  have hpending : io.ready.snapshot.isEmpty → ¬ s.pending := fun hempty hp => hraft hp hempty
  have hconf : restoredConf io s.node.cachedConfState = restoredConf io s.raftConf := by
    unfold restoredConf
    split
    · exact h.cached hrunning (hpending (by assumption))
    · rfl
  have hcommitted : (s.settled && io.ready.snapshot.isEmpty) = true →
      s.committedConf = restoredConf io s.raftConf := by
    intro hboth
    rw [Bool.and_eq_true] at hboth
    rw [restoredConf, if_pos hboth.2]
    exact h.committed hrunning (hpending hboth.2) hboth.1
  refine ⟨?_, ?_, ?_⟩
  · intro hok _
    show (onReady io s.node).2.cachedConfState =
      confAfter io (io.taken s.node.currentRole) (restoredConf io s.raftConf)
    rw [cachedConfState_onReady (n := s.node) hready hok, hconf]
  · intro _ _ hafter
    exact committedConfAfter_eq hcommitted hafter
  · intro p hp
    rcases List.mem_append.mp hp with hp | hp
    · exact h.created p hp
    · obtain ⟨snapshot, hsnapshot, rfl⟩ := List.mem_map.mp hp
      obtain ⟨δ, hδ, hcreated⟩ := createdSnapshots_onReady hready s.node
      have hmem : snapshot ∈ δ := by
        have hnew : snapshot ∈ (createdSnapshots (onReady io s.node).2.trace).drop
          (createdSnapshots s.node.trace).length := hsnapshot
        rwa [hδ, List.drop_left] at hnew
      obtain ⟨hcreates, hmetadata⟩ := hcreated snapshot hmem
      show snapshot.metadata.confState = committedConfAfter io (io.taken s.node.currentRole)
        (restoredConf io s.raftConf) s.committedConf
      rw [hmetadata, hconf, ReadyIo.taken, if_neg hcreates.1.noPreCandidate,
        committedConfAfter_eq hcommitted (hsettled hcreates)]

variable [ProstMessage Message]

theorem Cached.step {s t : ConfRun σ Event M} {op : ConfOp σ Command} (h : Cached s)
    (hraft : op.HandsOut s) (hkeeps : op.KeepsConf s) (hstep : s.step op = some t) : Cached t := by
  -- an operation that leaves the node running with what it had cached
  have hframe : ∀ {o : NodeOp Command} {run : NodeRun σ Event (Variant M)},
      (∀ io, o ≠ .ready io) → s.run.step o = some run → Cached { s with run } := by
    intro o run ho hrun
    obtain ⟨hrunning, hconf⟩ := NodeRun.step_cachedConfState ho hrun
    refine ⟨?_, fun _ => h.committed hrunning, h.created⟩
    intro _ hpending
    exact hconf.trans (h.cached hrunning hpending)
  cases op with
  | op o =>
    cases o with
    | ready io =>
      rw [ConfRun.step] at hstep
      split_ifs at hstep with hrunning hready
      · obtain rfl := Option.some.inj hstep
        exact h.afterReady hrunning hready (fun hpending => (hraft hpending).2) hkeeps
      · obtain rfl := Option.some.inj hstep
        exact h
    | call c =>
      obtain ⟨run, hrun, rfl⟩ := Option.map_eq_some_iff.mp hstep
      exact hframe (by simp) hrun
    | others f =>
      obtain ⟨run, hrun, rfl⟩ := Option.map_eq_some_iff.mp hstep
      exact hframe (by simp) hrun
    | message answers msg =>
      obtain ⟨run, hrun, rfl⟩ := Option.map_eq_some_iff.mp hstep
      exact hframe (by simp) hrun
  | install confState =>
    rw [ConfRun.step] at hstep
    split_ifs at hstep with hrunning
    obtain rfl := Option.some.inj hstep
    exact ⟨fun _ hpending => absurd rfl hpending, fun _ hpending => absurd rfl hpending, h.created⟩
  | restart w config peers stateMachine constructor =>
    obtain ⟨u, hu, rfl⟩ := Option.map_eq_some_iff.mp hstep
    obtain ⟨hiff, -, -, hcommitted, -⟩ := cached_construct hu
    exact ⟨fun _ _ => hiff.mpr hkeeps, fun _ _ _ => hcommitted, h.created⟩

/-- In a run of which every restart agrees with the storage, and in which snapshots are created only
while nothing has changed the configuration behind the last command, the cached configuration is
the one in use, and the snapshots carry the configurations at their indices. -/
theorem confRight_of_run {w : Faults} {config : RaftNodeConfig} {peers : Peers} {stateMachine : σ}
    {constructor : Constructor} {disk : Db} {s t : ConfRun σ Event M}
    {ops : List (ConfOp σ Command)}
    (hstart : ConfRun.construct w config peers stateMachine constructor disk = some s)
    (hagrees : StartsWith config (constructor.confState config) disk)
    (hraft : Transition.Along ConfRun.step (fun s op => op.HandsOut s) s ops)
    (hkeeps : Transition.Along ConfRun.step (fun s op => op.KeepsConf s) s ops)
    (hrun : Transition.run ConfRun.step s ops = some t) : ConfRight t := by
  obtain ⟨hiff, -, -, hcommitted, hcreated⟩ := cached_construct hstart
  have hcached : Cached s := by
    refine ⟨fun _ _ => hiff.mpr hagrees, fun _ _ _ => hcommitted, ?_⟩
    rw [hcreated]
    exact fun p hp => absurd hp List.not_mem_nil
  have hend : Cached t := Transition.run_induction (I := Cached)
    (fun s op s' hs hop hstep => hs.step hop.1 hop.2 hstep) hcached (hraft.and hkeeps) hrun
  exact hend.confRight

end

/-! ## A node that joined -/

section
open scoped Codec

instance : NewMemStorage MemCore where
  newWithConfState cs := { confState := cs }
  initialState_new _ := rfl

/-- A node that joins the node 1. -/
def joining : RaftNodeConfig := { nodeId := 2, storagePath := some "storage" }

/-- The entry that adds the node. -/
def addsVoter : Entry where
  index := 1
  entryType := .entryConfChange
  data := ProstMessage.encodeToVec ({ nodeId := 2 } : ConfChange)

def addsVoterIo : ReadyIo where
  ready := { committedEntries := [addsVoter] }
  applyConfChange _ := .ok { voters := [1, 2] }

/-- The node on its new path. -/
def joined : Option (ConfRun KvStateMachine KvEvent MemCore) :=
  ConfRun.construct Faults.none joining (fun _ => none) {} (.newWithConfState { voters := [1] }) {}

/-- It is added, and later started again with what it was started with. -/
def addedAndRestarted : List (ConfOp KvStateMachine KvCommand) :=
  [.op (.ready addsVoterIo),
    .restart Faults.none joining (fun _ => none) {} (.newWithConfState { voters := [1] })]

theorem confRight_addedAndRestarted : ∃ s t, joined = some s ∧
    Transition.run ConfRun.step s addedAndRestarted = some t ∧ ConfRight t := by
  obtain ⟨s, hs⟩ : ∃ s, joined = some s := ⟨_, rfl⟩
  obtain ⟨t, ht⟩ : ∃ t, Transition.run ConfRun.step s addedAndRestarted = some t := by
    obtain rfl := Option.some.inj hs
    exact ⟨_, rfl⟩
  refine ⟨s, t, hs, ht, confRight_of_run hs ?_ ?_ ?_ ht⟩
  · exact Or.inr (Or.inl rfl)
  all_goals obtain rfl := Option.some.inj hs
  · refine ⟨fun hpending => absurd hpending (by decide), fun s' _ => ⟨trivial, fun _ _ => trivial⟩⟩
  · refine ⟨fun hcreates => absurd hcreates.2.2.1 (by decide), fun s' hs' => ?_⟩
    refine ⟨?_, fun _ _ => trivial⟩
    obtain rfl := Option.some.inj hs'
    exact Or.inr (Or.inr rfl)

/-- Resuming, as the program does when it finds the path, makes the node its own only voter, and
raft-rs goes on with what is stored. -/
def resumed : List (ConfOp KvStateMachine KvCommand) :=
  [.restart Faults.none joining (fun _ => none) {} .newSingleNode]

theorem resumed_disagrees : ∃ s t, joined = some s ∧
    Transition.Along ConfRun.step (fun s op => op.HandsOut s) s resumed ∧
    Transition.run ConfRun.step s resumed = some t ∧
    t.node.confState = { voters := [2] } ∧ t.raftConf = { voters := [1] } ∧ ¬ ConfRight t := by
  refine ⟨_, _, rfl, ⟨trivial, fun _ _ => trivial⟩, rfl, rfl, rfl, ?_⟩
  intro h
  have hcached := h.cached rfl Bool.false_ne_true
  exact absurd (congrArg ConfState.voters hcached) (by decide)

/-- A command, and behind it the entry that adds the node. -/
def commandThenVoter : ReadyIo where
  ready := { committedEntries := [{ index := 1, data := [0x7b] }, { addsVoter with index := 2 }] }
  applyConfChange _ := .ok { voters := [1, 2] }

/-- A snapshot at the index of the command already has the configuration behind it. -/
theorem snapshot_ahead_of_index : ∃ s t : ConfRun KvStateMachine KvEvent MemCore,
    ConfRun.construct Faults.none { joining with snapshotInterval := 1 } (fun _ => none) {}
      (.newWithConfState { voters := [1] }) {} = some s ∧
    Transition.run ConfRun.step s [.op (.ready commandThenVoter)] = some t ∧
    t.created.map (fun p => (p.1.metadata.index, p.1.metadata.confState, p.2)) =
      [(1, { voters := [1, 2] }, { voters := [1] })] := by
  refine ⟨_, _, rfl, rfl, ?_⟩
  rfl

end

end Raftoral

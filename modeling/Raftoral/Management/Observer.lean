import Raftoral.Lib.Run
import Raftoral.Management.StateMachine
import Raftoral.Raft.Node

/-!
# The event observer

Every node runs `run_event_observer` of `management/runtime.rs`: it takes the events of the
management state machine one by one and starts and drops the sub-cluster runtimes of the node.
The state machine goes on meanwhile, and the handler of an added node reads it as it is then.

What keeps the two together is that the events still to be handled, replayed on the runtimes
that are there, lead to the membership the state machine has. The one event that is not
handled as it reads is a node added to a sub-cluster that is gone; its deletion is then among
the events still to come.
-/

namespace Raftoral

/-- What the management runtime needs of a sub-cluster runtime. -/
class SubClusterRuntime (R : Type) where
  newSingleNode : RaftNodeConfig → Except String R
  newJoiningNode : RaftNodeConfig → List ℕ → Except String R
  nodeId : R → ℕ

/-- What the observer leaves to run in the background. -/
inductive ManagementTask where
  /-- The event loop of the node of a sub-cluster, which reads the mailbox. -/
  | runNode (clusterId : ℕ) (mailbox : Mailbox)
  | addNode (clusterId nodeId : ℕ) (address : String)
  | handleFailedNode (nodeId : ℕ)
deriving DecidableEq, Repr

/-- A sub-cluster runtime on storage in memory, which always opens. -/
structure InMemoryRuntime where
  config : RaftNodeConfig
  voters : List ℕ
deriving DecidableEq, Repr

instance : SubClusterRuntime InMemoryRuntime where
  newSingleNode config := .ok { config, voters := [config.nodeId] }
  newJoiningNode config initialVoters := .ok { config, voters := initialVoters }
  nodeId runtime := runtime.config.nodeId

/-- A management runtime, with the state machine of its node. -/
structure ManagementRuntime (R : Type) where
  nodeId : ℕ
  storagePath : Option String := none
  stateMachine : ManagementStateMachine := {}
  subClusters : WordMap R := ∅
  clusterRouter : ClusterRouter
  /-- The number of mailboxes made so far. -/
  mailboxes : ℕ
  spawned : List ManagementTask := []

namespace ManagementRuntime

variable {R : Type} [SubClusterRuntime R]

/-- A full node registers the management cluster and then makes its runtime. -/
def new (nodeId : ℕ) (storagePath : Option String) : ManagementRuntime R where
  nodeId := nodeId
  storagePath := storagePath
  clusterRouter := ClusterRouter.registerCluster {} 0 0
  mailboxes := 1

def spawn (rt : ManagementRuntime R) (task : ManagementTask) : ManagementRuntime R :=
  { rt with spawned := rt.spawned ++ [task] }

/-- Register a sub-cluster, make its runtime and run its node. A runtime that cannot be made
is logged and given up. -/
def startSubCluster (rt : ManagementRuntime R) (clusterId : ℕ)
    (make : RaftNodeConfig → Except String R) : ManagementRuntime R :=
  let mailbox := rt.mailboxes
  let rt := { rt with mailboxes := rt.mailboxes + 1 }
  -- cluster 0 is reserved for the management cluster
  if clusterId = 0 then rt
  else
    let rt := { rt with clusterRouter := rt.clusterRouter.registerCluster clusterId mailbox }
    let config : RaftNodeConfig :=
      { nodeId := rt.nodeId, clusterId, snapshotInterval := 100, storagePath := rt.storagePath }
    match make config with
    | .ok runtime =>
      ({ rt with subClusters := rt.subClusters.insert clusterId runtime }).spawn
        (.runNode clusterId mailbox)
    | .error _ => rt

/-- What `run_event_observer` does with one event. -/
def handle (rt : ManagementRuntime R) (isLeader : Bool) :
    ManagementEvent → ManagementRuntime R
  | .subClusterCreated clusterId nodeIds =>
    if ¬ nodeIds.contains rt.nodeId then rt
    else
      let isFirstNode := nodeIds.head? == some rt.nodeId
      rt.startSubCluster clusterId fun config =>
        if isFirstNode then SubClusterRuntime.newSingleNode config
        else SubClusterRuntime.newJoiningNode config nodeIds
  | .nodeAddedToSubCluster clusterId nodeId =>
    match rt.subClusters[clusterId]? with
    -- the node has a part of the sub-cluster: add the new node to its configuration
    | some subCluster =>
      if SubClusterRuntime.nodeId subCluster = rt.nodeId then
        match rt.stateMachine.getNodeAddress nodeId with
        | some address => rt.spawn (.addNode clusterId nodeId address)
        | none => rt
      else rt
    -- the node itself is the new one: join
    | none =>
      if nodeId = rt.nodeId then
        match rt.stateMachine.getSubCluster clusterId with
        | some metadata =>
          rt.startSubCluster clusterId (SubClusterRuntime.newJoiningNode · metadata.nodeIds)
        | none => rt
      else rt
  | .nodeRemovedFromSubCluster clusterId nodeId =>
    if nodeId = rt.nodeId then { rt with subClusters := rt.subClusters.erase clusterId } else rt
  | .subClusterDeleted clusterId => { rt with subClusters := rt.subClusters.erase clusterId }
  | .failedNodeDetected nodeId => if isLeader then rt.spawn (.handleFailedNode nodeId) else rt
  | .metadataUpdated _ _ _ => rt

/-! ## What one event changes -/

/-- Every runtime can be made. -/
def ConstructorsSucceed (R : Type) [SubClusterRuntime R] : Prop :=
  (∀ config, ∃ runtime : R, SubClusterRuntime.newSingleNode config = .ok runtime) ∧
    ∀ config voters, ∃ runtime : R, SubClusterRuntime.newJoiningNode config voters = .ok runtime

omit [SubClusterRuntime R] in
theorem startSubCluster_eq (rt : ManagementRuntime R) {clusterId : ℕ}
    (make : RaftNodeConfig → Except String R) (hzero : clusterId ≠ 0)
    (hmake : ∀ config, ∃ runtime, make config = .ok runtime) :
    ∃ runtime, rt.startSubCluster clusterId make = { rt with
      mailboxes := rt.mailboxes + 1
      clusterRouter := rt.clusterRouter.registerCluster clusterId rt.mailboxes
      subClusters := rt.subClusters.insert clusterId runtime
      spawned := rt.spawned ++ [.runNode clusterId rt.mailboxes] } := by
  obtain ⟨runtime, hr⟩ := hmake
    { nodeId := rt.nodeId, clusterId, snapshotInterval := 100, storagePath := rt.storagePath }
  refine ⟨runtime, ?_⟩
  simp only [startSubCluster, if_neg hzero, hr, spawn]

/-- The ways a runtime can change with an event, which it handles as node `m`. -/
inductive Handled (rt : ManagementRuntime R) (event : ManagementEvent) (rt' : ManagementRuntime R) :
    Prop
  | started (clusterId : ℕ) (mailbox : Mailbox) (runtime : R)
      (hswitch : ∀ c, event.switch rt.nodeId c = if clusterId = c then .on else .keep)
      (hmap : rt'.subClusters = rt.subClusters.insert clusterId runtime)
      (hrouter : rt'.clusterRouter = rt.clusterRouter.registerCluster clusterId mailbox)
  | dropped (clusterId : ℕ)
      (hswitch : ∀ c, event.switch rt.nodeId c = if clusterId = c then .off else .keep)
      (hmap : rt'.subClusters = rt.subClusters.erase clusterId)
      (hrouter : rt'.clusterRouter = rt.clusterRouter)
  /-- The event is not about this node, or it adds the node to a sub-cluster it already runs
  or that is gone. -/
  | ignored
      (hswitch : ∀ c, event.switch rt.nodeId c = .keep ∨
        event.switch rt.nodeId c = .on ∧ (rt.subClusters.contains c ∨
          event = .nodeAddedToSubCluster c rt.nodeId ∧ rt.stateMachine.getSubCluster c = none))
      (hmap : rt'.subClusters = rt.subClusters)
      (hrouter : rt'.clusterRouter = rt.clusterRouter)

/-- On a node that runs the sub-cluster only the new node's configuration change is spawned. -/
theorem handle_nodeAdded_of_local {rt : ManagementRuntime R} {clusterId : ℕ} {subCluster : R}
    (h : rt.subClusters[clusterId]? = some subCluster) (isLeader : Bool) (nodeId : ℕ) :
    ∃ spawned, rt.handle isLeader (.nodeAddedToSubCluster clusterId nodeId) =
      { rt with spawned } := by
  simp only [handle, h]
  split_ifs
  · cases rt.stateMachine.getNodeAddress nodeId with
    | none => exact ⟨rt.spawned, rfl⟩
    | some address => exact ⟨rt.spawned ++ [.addNode clusterId nodeId address], rfl⟩
  · exact ⟨rt.spawned, rfl⟩

/-- On the new node itself: a sub-cluster it runs, or one that is gone, stays as it is, and any
other is started. -/
theorem handled_nodeAdded_of_self (hmake : ConstructorsSucceed R) (rt : ManagementRuntime R)
    (isLeader : Bool) {clusterId : ℕ} (hzero : clusterId ≠ 0) :
    Handled rt (.nodeAddedToSubCluster clusterId rt.nodeId)
      (rt.handle isLeader (.nodeAddedToSubCluster clusterId rt.nodeId)) := by
  have hswitch : ∀ c, (ManagementEvent.nodeAddedToSubCluster clusterId rt.nodeId).switch
      rt.nodeId c = if clusterId = c then .on else .keep := by
    intro c
    simp [ManagementEvent.switch]
  -- the event is ignored when there is a runtime, or when the sub-cluster is gone
  have hignored : rt.subClusters.contains clusterId ∨
      rt.stateMachine.getSubCluster clusterId = none → ∀ c,
      (ManagementEvent.nodeAddedToSubCluster clusterId rt.nodeId).switch rt.nodeId c = .keep ∨
      (ManagementEvent.nodeAddedToSubCluster clusterId rt.nodeId).switch rt.nodeId c = .on ∧
        (rt.subClusters.contains c ∨ ManagementEvent.nodeAddedToSubCluster clusterId rt.nodeId =
          .nodeAddedToSubCluster c rt.nodeId ∧ rt.stateMachine.getSubCluster c = none) := by
    intro h c
    rw [hswitch]
    by_cases hc : clusterId = c
    · subst hc
      exact Or.inr ⟨if_pos rfl, h.imp_right fun hgone => ⟨rfl, hgone⟩⟩
    · exact Or.inl (if_neg hc)
  cases hlocal : rt.subClusters[clusterId]? with
  | some subCluster =>
    obtain ⟨spawned, hhandle⟩ := handle_nodeAdded_of_local hlocal isLeader rt.nodeId
    rw [hhandle]
    refine .ignored (hignored (Or.inl ?_)) rfl rfl
    rw [Std.ExtTreeMap.contains_eq_isSome_getElem?, hlocal]
    rfl
  | none =>
    cases hget : rt.stateMachine.getSubCluster clusterId with
    | some metadata =>
      obtain ⟨runtime, hstart⟩ := rt.startSubCluster_eq
        (SubClusterRuntime.newJoiningNode · metadata.nodeIds) hzero
        (fun config => hmake.2 config metadata.nodeIds)
      have hhandle : rt.handle isLeader (.nodeAddedToSubCluster clusterId rt.nodeId) =
          rt.startSubCluster clusterId
            (SubClusterRuntime.newJoiningNode · metadata.nodeIds) := by
        simp only [handle, hlocal, hget, if_true]
      rw [hhandle, hstart]
      exact .started clusterId rt.mailboxes runtime hswitch rfl rfl
    | none =>
      have hhandle : rt.handle isLeader (.nodeAddedToSubCluster clusterId rt.nodeId) = rt := by
        simp only [handle, hlocal, hget, if_true]
      rw [hhandle]
      exact .ignored (hignored (Or.inr hget)) rfl rfl

theorem handled_nodeAdded_of_other (rt : ManagementRuntime R) (isLeader : Bool)
    {clusterId nodeId : ℕ} (hother : nodeId ≠ rt.nodeId) :
    Handled rt (.nodeAddedToSubCluster clusterId nodeId)
      (rt.handle isLeader (.nodeAddedToSubCluster clusterId nodeId)) := by
  have hkeep : ∀ c, (ManagementEvent.nodeAddedToSubCluster clusterId nodeId).switch
      rt.nodeId c = .keep := by
    intro c
    simp [ManagementEvent.switch, hother]
  cases hlocal : rt.subClusters[clusterId]? with
  | some subCluster =>
    obtain ⟨spawned, hhandle⟩ := handle_nodeAdded_of_local hlocal isLeader nodeId
    rw [hhandle]
    exact .ignored (fun c => Or.inl (hkeep c)) rfl rfl
  | none =>
    have hhandle : rt.handle isLeader (.nodeAddedToSubCluster clusterId nodeId) = rt := by
      simp only [handle, hlocal, if_neg hother]
    rw [hhandle]
    exact .ignored (fun c => Or.inl (hkeep c)) rfl rfl

/-- The sub-cluster an event may start is not the management cluster. -/
def Startable : ManagementEvent → Prop
  | .subClusterCreated clusterId _ => clusterId ≠ 0
  | .nodeAddedToSubCluster clusterId _ => clusterId ≠ 0
  | _ => True

/-- If runtimes can be made, an event does what it says about this node. -/
theorem handled (hmake : ConstructorsSucceed R) (rt : ManagementRuntime R) (isLeader : Bool)
    {event : ManagementEvent} (hstart : Startable event) :
    Handled rt event (rt.handle isLeader event) := by
  cases event with
  | subClusterCreated clusterId nodeIds =>
    by_cases hmem : rt.nodeId ∈ nodeIds
    · obtain ⟨runtime, hrun⟩ := rt.startSubCluster_eq (fun config =>
        if nodeIds.head? == some rt.nodeId then SubClusterRuntime.newSingleNode config
        else SubClusterRuntime.newJoiningNode config nodeIds) hstart (by
          intro config
          split_ifs
          · exact hmake.1 config
          · exact hmake.2 config nodeIds)
      have hhandle : rt.handle isLeader (.subClusterCreated clusterId nodeIds) =
          rt.startSubCluster clusterId fun config =>
            if nodeIds.head? == some rt.nodeId then SubClusterRuntime.newSingleNode config
            else SubClusterRuntime.newJoiningNode config nodeIds := by
        simp [handle, hmem]
      rw [hhandle, hrun]
      exact .started clusterId rt.mailboxes runtime
        (fun c => by simp [ManagementEvent.switch, hmem]) rfl rfl
    · have hhandle : rt.handle isLeader (.subClusterCreated clusterId nodeIds) = rt := by
        simp [handle, hmem]
      rw [hhandle]
      exact .ignored (fun c => Or.inl (by simp [ManagementEvent.switch, hmem])) rfl rfl
  | subClusterDeleted clusterId => exact .dropped clusterId (fun c => rfl) rfl rfl
  | nodeAddedToSubCluster clusterId nodeId =>
    by_cases hself : nodeId = rt.nodeId
    · rw [hself]
      exact handled_nodeAdded_of_self hmake rt isLeader hstart
    · exact handled_nodeAdded_of_other rt isLeader hself
  | nodeRemovedFromSubCluster clusterId nodeId =>
    by_cases hself : nodeId = rt.nodeId
    · rw [handle, if_pos hself]
      exact .dropped clusterId (fun c => by simp [ManagementEvent.switch, hself]) rfl rfl
    · rw [handle, if_neg hself]
      exact .ignored (fun c => Or.inl (by simp [ManagementEvent.switch, hself])) rfl rfl
  | metadataUpdated clusterId key value => exact .ignored (fun c => Or.inl rfl) rfl rfl
  | failedNodeDetected nodeId =>
    refine .ignored (fun c => Or.inl rfl) ?_ ?_
    all_goals cases isLeader <;> rfl

omit [SubClusterRuntime R] in
theorem startSubCluster_frame (rt : ManagementRuntime R) (clusterId : ℕ)
    (make : RaftNodeConfig → Except String R) :
    (rt.startSubCluster clusterId make).stateMachine = rt.stateMachine ∧
      (rt.startSubCluster clusterId make).nodeId = rt.nodeId := by
  unfold startSubCluster
  dsimp only
  split_ifs
  · exact ⟨rfl, rfl⟩
  · split <;> exact ⟨rfl, rfl⟩

/-- The observer only reads the state machine. -/
theorem handle_frame (rt : ManagementRuntime R) (isLeader : Bool) (event : ManagementEvent) :
    (rt.handle isLeader event).stateMachine = rt.stateMachine ∧
      (rt.handle isLeader event).nodeId = rt.nodeId := by
  cases event with
  | subClusterCreated clusterId nodeIds =>
    rw [handle]
    split_ifs
    · exact startSubCluster_frame rt clusterId _
    · exact ⟨rfl, rfl⟩
  | nodeAddedToSubCluster clusterId nodeId =>
    cases hlocal : rt.subClusters[clusterId]? with
    | some subCluster =>
      obtain ⟨spawned, hhandle⟩ := handle_nodeAdded_of_local hlocal isLeader nodeId
      rw [hhandle]
      exact ⟨rfl, rfl⟩
    | none =>
      simp only [handle, hlocal]
      split_ifs
      · cases rt.stateMachine.getSubCluster clusterId with
        | some metadata => exact startSubCluster_frame rt clusterId _
        | none => exact ⟨rfl, rfl⟩
      · exact ⟨rfl, rfl⟩
  | nodeRemovedFromSubCluster clusterId nodeId =>
    rw [handle]
    split_ifs <;> exact ⟨rfl, rfl⟩
  | subClusterDeleted clusterId => exact ⟨rfl, rfl⟩
  | failedNodeDetected nodeId => cases isLeader <;> exact ⟨rfl, rfl⟩
  | metadataUpdated clusterId key value => exact ⟨rfl, rfl⟩

end ManagementRuntime

/-! ## A node and its observer -/

/-- A node with the receiver of its observer, which has none before it subscribes, and the
events published and handled so far. -/
structure ObservedNode (R : Type) where
  runtime : ManagementRuntime R
  receiver : Option (List ManagementEvent) := none
  published : List ManagementEvent := []
  handled : List ManagementEvent := []

inductive ObserverAction where
  /-- A committed command is applied. -/
  | apply (command : ManagementCommand)
  /-- The failure detector reports a node. -/
  | followerFailed (nodeId : ℕ)
  /-- A snapshot of another node replaces the state. -/
  | restore (stateMachine : ManagementStateMachine)
  | subscribe
  /-- The observer handles its next event. -/
  | observe (isLeader : Bool)
  /-- The receiver has fallen behind, and its oldest events are overwritten. -/
  | lag (missed : ℕ)

namespace ObserverAction

def isRestore : ObserverAction → Bool
  | .restore _ => true
  | _ => false

/-- Whether a sub-cluster is created. -/
def isCreate : ObserverAction → Bool
  | .apply command => command.isCreate
  | _ => false

end ObserverAction

namespace ObservedNode

variable {R : Type}

def start (nodeId : ℕ) (storagePath : Option String) : ObservedNode R :=
  { runtime := ManagementRuntime.new nodeId storagePath }

/-- `publish_batch`. -/
def publish (s : ObservedNode R) (events : List ManagementEvent) : ObservedNode R :=
  { s with
    published := s.published ++ events
    receiver := s.receiver.map (· ++ events) }

/-- A command is applied and its events are published under the lock of the state machine, so
that the observer never reads the state between the two. -/
def step [SubClusterRuntime R] (s : ObservedNode R) : ObserverAction → Option (ObservedNode R)
  | .apply command =>
    some ({ s with runtime := { s.runtime with
      stateMachine := (s.runtime.stateMachine.apply command).2 } }.publish
        (s.runtime.stateMachine.events command))
  | .followerFailed nodeId => some (s.publish [.failedNodeDetected nodeId])
  | .restore stateMachine => some { s with runtime := { s.runtime with stateMachine } }
  | .subscribe =>
    match s.receiver with
    | none => some { s with receiver := some [] }
    | some _ => none
  | .observe isLeader =>
    match s.receiver with
    | some (event :: rest) =>
      some { s with
        runtime := s.runtime.handle isLeader event
        receiver := some rest
        handled := s.handled ++ [event] }
    | _ => none
  | .lag missed => some { s with receiver := s.receiver.map (·.drop missed) }

/-- The observer has handled all published events. -/
def CaughtUp (s : ObservedNode R) : Prop := s.handled = s.published

/-- The events that are published and not handled. -/
def pending (s : ObservedNode R) : List ManagementEvent := s.receiver.getD []

/-- Nothing was missed: what is not handled can still be received. -/
def Complete (s : ObservedNode R) : Prop := s.handled ++ s.pending = s.published

/-! ## The invariant -/

/-- A node added to a sub-cluster that is gone is followed by the deletion. -/
def Backed (sm : ManagementStateMachine) (nodeId : ℕ) : List ManagementEvent → Prop
  | [] => True
  | event :: rest =>
    (∀ c, event = .nodeAddedToSubCluster c nodeId → sm.getSubCluster c = none →
      .subClusterDeleted c ∈ rest) ∧ Backed sm nodeId rest

theorem backed_of_present {sm : ManagementStateMachine} {nodeId : ℕ}
    {events : List ManagementEvent}
    (h : ∀ c, .nodeAddedToSubCluster c nodeId ∈ events → sm.getSubCluster c ≠ none) :
    Backed sm nodeId events := by
  induction events with
  | nil => trivial
  | cons event rest ih =>
    refine ⟨fun c he hgone => ?_, ih fun c hc => h c (List.mem_cons_of_mem _ hc)⟩
    exact absurd hgone (h c (he ▸ List.mem_cons_self))

theorem Backed.append {sm sm' : ManagementStateMachine} {nodeId : ℕ}
    {events events' : List ManagementEvent} (h : Backed sm nodeId events)
    (hgone : ∀ c, sm'.getSubCluster c = none →
      sm.getSubCluster c = none ∨ .subClusterDeleted c ∈ events')
    (h' : Backed sm' nodeId events') : Backed sm' nodeId (events ++ events') := by
  induction events with
  | nil => exact h'
  | cons event rest ih =>
    refine ⟨fun c he hc => ?_, ih h.2⟩
    rcases hgone c hc with hbefore | hdeleted
    · exact List.mem_append_left _ (h.1 c he hbefore)
    · exact List.mem_append_right _ hdeleted

/-- What holds while no event is missed: the events still to be handled lead from the runtimes
to the members. -/
structure Synced (s : ObservedNode R) : Prop where
  numbered : s.runtime.stateMachine.Numbered
  replay : ∀ c, Switch.replay (s.runtime.subClusters.contains c)
    (s.pending.map (·.switch s.runtime.nodeId c)) =
      s.runtime.stateMachine.hasMember c s.runtime.nodeId
  backed : Backed s.runtime.stateMachine s.runtime.nodeId s.pending
  startable : ∀ event ∈ s.pending, ManagementRuntime.Startable event

/-- Nothing published can be missed without being missed for good. -/
theorem pending_publish {s : ObservedNode R} {events : List ManagementEvent}
    (hle : s.handled.length + s.pending.length ≤ s.published.length)
    (h : (s.publish events).Complete) :
    s.Complete ∧ (s.publish events).pending = s.pending ++ events := by
  unfold Complete pending publish at h
  unfold Complete pending publish
  dsimp only at h ⊢
  unfold pending at hle
  cases hr : s.receiver with
  | some queue =>
    simp only [hr, Option.map_some, Option.getD_some] at h ⊢
    rw [← List.append_assoc] at h
    exact ⟨List.append_cancel_right h, trivial⟩
  | none =>
    simp only [hr, Option.map_none, Option.getD_none, List.append_nil, List.length_nil] at h hle ⊢
    have hlen := congrArg List.length h
    rw [List.length_append] at hlen
    have hnil : events = [] := List.eq_nil_of_length_eq_zero (by omega)
    subst hnil
    simpa using h

theorem Synced.publish {s s' : ObservedNode R} (h : s.Synced) {sm : ManagementStateMachine}
    {events : List ManagementEvent} (hnumbered : sm.Numbered)
    (hmember : ∀ c, sm.hasMember c s.runtime.nodeId = Switch.replay
      (s.runtime.stateMachine.hasMember c s.runtime.nodeId)
      (events.map (·.switch s.runtime.nodeId c)))
    (hgone : ∀ c, sm.getSubCluster c = none →
      s.runtime.stateMachine.getSubCluster c = none ∨ .subClusterDeleted c ∈ events)
    (hpresent : ∀ c, .nodeAddedToSubCluster c s.runtime.nodeId ∈ events →
      sm.getSubCluster c ≠ none)
    (hstart : ∀ event ∈ events, ManagementRuntime.Startable event)
    (hruntime : s'.runtime = { s.runtime with stateMachine := sm })
    (hpending : s'.pending = s.pending ++ events) : s'.Synced := by
  refine ⟨?_, fun c => ?_, ?_, ?_⟩
  · rw [hruntime]
    exact hnumbered
  · rw [hpending, hruntime, List.map_append, Switch.replay_append, h.replay c, hmember c]
  · rw [hpending, hruntime]
    exact h.backed.append hgone (backed_of_present hpresent)
  · rw [hpending]
    intro event he
    rcases List.mem_append.mp he with he | he
    · exact h.startable event he
    · exact hstart event he

variable [SubClusterRuntime R]

/-- The runtimes change as the event says, unless the event is a node added to a sub-cluster
that is gone. -/
theorem contains_handle (hmake : ManagementRuntime.ConstructorsSucceed R)
    (rt : ManagementRuntime R) (isLeader : Bool) {event : ManagementEvent}
    (hstart : ManagementRuntime.Startable event) (c : ℕ) :
    (rt.handle isLeader event).subClusters.contains c =
        (event.switch rt.nodeId c).act (rt.subClusters.contains c) ∨
      event = .nodeAddedToSubCluster c rt.nodeId ∧ rt.stateMachine.getSubCluster c = none := by
  rcases ManagementRuntime.handled hmake rt isLeader hstart with
    ⟨clusterId, mailbox, runtime, hswitch, hmap, -⟩ | ⟨clusterId, hswitch, hmap, -⟩ |
      ⟨hswitch, hmap, -⟩
  · left
    rw [hmap, hswitch, WordMap.contains_insert]
    by_cases hc : clusterId = c <;> simp [hc]
  · left
    rw [hmap, hswitch, WordMap.contains_erase]
    by_cases hc : clusterId = c <;> simp [hc]
  · rw [hmap]
    rcases hswitch c with hkeep | ⟨hon, hlocal | hgone⟩
    · exact Or.inl (by rw [hkeep, Switch.act_keep])
    · exact Or.inl (by rw [hon, hlocal, Switch.act_on])
    · exact Or.inr hgone

theorem Synced.observe (hmake : ManagementRuntime.ConstructorsSucceed R) {s s' : ObservedNode R}
    (h : s.Synced) {isLeader : Bool} {event : ManagementEvent} {rest : List ManagementEvent}
    (hpending : s.pending = event :: rest)
    (hruntime : s'.runtime = s.runtime.handle isLeader event) (hpending' : s'.pending = rest) :
    s'.Synced := by
  obtain ⟨hsm, hid⟩ := s.runtime.handle_frame isLeader event
  rw [← hruntime] at hsm hid
  have hbacked := h.backed
  rw [hpending] at hbacked
  refine ⟨hsm ▸ h.numbered, fun c => ?_, ?_, ?_⟩
  · have hreplay := h.replay c
    rw [hpending, List.map_cons, Switch.replay_cons] at hreplay
    rw [hpending', hsm, hid, hruntime, ← hreplay]
    rcases contains_handle hmake s.runtime isLeader
      (h.startable event (hpending ▸ List.mem_cons_self)) c with hact | ⟨hadded, hgone⟩
    · rw [hact]
    -- the deletion that is still to come makes up for the event that was passed over
    · refine Switch.replay_of_mem_off (List.mem_map.mpr ⟨_, hbacked.1 c hadded hgone, ?_⟩) _ _
      simp [ManagementEvent.switch]
  · rw [hpending', hsm, hid]
    exact hbacked.2
  · rw [hpending']
    intro e he
    exact h.startable e (hpending ▸ List.mem_cons_of_mem _ he)

theorem step_observe {s s' : ObservedNode R} {isLeader : Bool}
    (h : s.step (.observe isLeader) = some s') :
    ∃ event rest, s.receiver = some (event :: rest) ∧ s' = { s with
      runtime := s.runtime.handle isLeader event
      receiver := some rest
      handled := s.handled ++ [event] } := by
  simp only [ObservedNode.step] at h
  cases hr : s.receiver with
  | none => simp [hr] at h
  | some queue =>
    cases queue with
    | nil => simp [hr] at h
    | cons event rest =>
      simp only [hr, Option.some.injEq] at h
      exact ⟨event, rest, rfl, h.symm⟩

theorem step_subscribe {s s' : ObservedNode R} (h : s.step .subscribe = some s') :
    s.receiver = none ∧ s' = { s with receiver := some [] } := by
  simp only [ObservedNode.step] at h
  cases hr : s.receiver with
  | some queue => simp [hr] at h
  | none =>
    simp only [hr, Option.some.injEq] at h
    exact ⟨rfl, h.symm⟩

omit [SubClusterRuntime R] in
theorem pending_lag (s : ObservedNode R) (missed : ℕ) :
    pending { s with receiver := s.receiver.map (·.drop missed) } = s.pending.drop missed := by
  unfold pending
  cases s.receiver <;> simp

/-- What a step does to the runtime and the events still to be handled, if it misses none. -/
inductive Stepped (s s' : ObservedNode R) : ObserverAction → Prop
  | applied (command : ManagementCommand)
      (hruntime : s'.runtime = { s.runtime with
        stateMachine := (s.runtime.stateMachine.apply command).2 })
      (hpending : s'.pending = s.pending ++ s.runtime.stateMachine.events command) :
      Stepped s s' (.apply command)
  | reported (nodeId : ℕ) (hruntime : s'.runtime = s.runtime)
      (hpending : s'.pending = s.pending ++ [.failedNodeDetected nodeId]) :
      Stepped s s' (.followerFailed nodeId)
  | observed (isLeader : Bool) (event : ManagementEvent) (hpending : s.pending = event :: s'.pending)
      (hruntime : s'.runtime = s.runtime.handle isLeader event) : Stepped s s' (.observe isLeader)
  | waited (a : ObserverAction) (hruntime : s'.runtime = s.runtime)
      (hpending : s'.pending = s.pending) : Stepped s s' a

/-- No more events are handled or waiting than were published. -/
def Bounded (s : ObservedNode R) : Prop :=
  s.handled.length + s.pending.length ≤ s.published.length

omit [SubClusterRuntime R] in
theorem Bounded.publish {s : ObservedNode R} (h : s.Bounded) (events : List ManagementEvent) :
    (s.publish events).Bounded := by
  unfold Bounded pending at h
  show s.handled.length + ((s.receiver.map (· ++ events)).getD []).length ≤
    (s.published ++ events).length
  cases hr : s.receiver with
  | some queue =>
    simp only [hr, Option.map_some, Option.getD_some, List.length_append] at h ⊢
    omega
  | none =>
    simp only [hr, Option.map_none, Option.getD_none, List.length_append] at h ⊢
    omega

theorem Bounded.step {s s' : ObservedNode R} {a : ObserverAction} (h : s.Bounded)
    (hstep : s.step a = some s') : s'.Bounded := by
  cases a with
  | apply command =>
    rw [ObservedNode.step, Option.some.injEq] at hstep
    subst hstep
    exact Bounded.publish (s := { s with runtime := _ }) h _
  | followerFailed nodeId =>
    rw [ObservedNode.step, Option.some.injEq] at hstep
    subst hstep
    exact h.publish _
  | restore sm =>
    rw [ObservedNode.step, Option.some.injEq] at hstep
    subst hstep
    exact h
  | subscribe =>
    obtain ⟨hr, rfl⟩ := step_subscribe hstep
    unfold Bounded pending at h
    rw [hr] at h
    exact h
  | observe isLeader =>
    obtain ⟨event, rest, hr, rfl⟩ := step_observe hstep
    unfold Bounded pending at h
    rw [hr, Option.getD_some, List.length_cons] at h
    show (s.handled ++ [event]).length + rest.length ≤ s.published.length
    rw [List.length_append, List.length_singleton]
    omega
  | lag missed =>
    rw [ObservedNode.step, Option.some.injEq] at hstep
    subst hstep
    unfold Bounded at h ⊢
    rw [pending_lag, List.length_drop]
    show s.handled.length + _ ≤ s.published.length
    omega

/-- A step after which nothing was missed: nothing was missed before either. -/
theorem stepped_of_complete {s s' : ObservedNode R} {a : ObserverAction} (h : s.Bounded)
    (hrestore : a.isRestore = false) (hstep : s.step a = some s') (hcomplete : s'.Complete) :
    s.Complete ∧ Stepped s s' a := by
  cases a with
  | apply command =>
    rw [ObservedNode.step, Option.some.injEq] at hstep
    subst hstep
    obtain ⟨hbefore, hpending⟩ := pending_publish (s := { s with runtime := _ }) h hcomplete
    exact ⟨hbefore, .applied command rfl hpending⟩
  | followerFailed nodeId =>
    rw [ObservedNode.step, Option.some.injEq] at hstep
    subst hstep
    obtain ⟨hbefore, hpending⟩ := pending_publish h hcomplete
    exact ⟨hbefore, .reported nodeId rfl hpending⟩
  | restore sm => exact absurd hrestore (by simp [ObserverAction.isRestore])
  | subscribe =>
    obtain ⟨hr, rfl⟩ := step_subscribe hstep
    have hnil : s.pending = [] := by simp [pending, hr]
    refine ⟨?_, .waited _ rfl hnil.symm⟩
    rw [Complete, hnil]
    exact hcomplete
  | observe isLeader =>
    obtain ⟨event, rest, hr, rfl⟩ := step_observe hstep
    have hpending : s.pending = event :: rest := by simp [pending, hr]
    refine ⟨?_, .observed isLeader event hpending rfl⟩
    have hcomplete : (s.handled ++ [event]) ++ rest = s.published := hcomplete
    rw [Complete, hpending, ← hcomplete, List.append_assoc, List.singleton_append]
  | lag missed =>
    rw [ObservedNode.step, Option.some.injEq] at hstep
    subst hstep
    unfold Complete at hcomplete ⊢
    rw [pending_lag] at hcomplete
    have hcomplete : s.handled ++ s.pending.drop missed = s.published := hcomplete
    -- events that are overwritten are missing for good
    have hdrop : s.pending.drop missed = s.pending := by
      have hlen := congrArg List.length hcomplete
      rw [List.length_append, List.length_drop] at hlen
      unfold Bounded at h
      by_cases hnil : s.pending = []
      · rw [hnil, List.drop_nil]
      · have hpos := List.length_pos_iff.mpr hnil
        rw [show missed = 0 by omega, List.drop_zero]
    exact ⟨hdrop ▸ hcomplete, .waited _ rfl (by rw [pending_lag, hdrop])⟩

/-- A step keeps the node in step with its events, if the counter does not overflow. -/
theorem Synced.step (hmake : ManagementRuntime.ConstructorsSucceed R) {s s' : ObservedNode R}
    {a : ObserverAction} (h : s.Synced)
    (hbudget : s.runtime.stateMachine.nextClusterId + (if a.isCreate then 1 else 0) < U32.size)
    (hstep : Stepped s s' a) : s'.Synced := by
  cases hstep with
  | applied command hruntime hpending =>
    refine h.publish (h.numbered.apply ?_) (fun c => ?_)
      (fun c => ManagementStateMachine.deleted_mem_events) (fun c hc => ?_) (fun event he => ?_)
      hruntime hpending
    · intro hcreate
      rw [ObserverAction.isCreate, if_pos hcreate] at hbudget
      exact hbudget
    · exact ManagementStateMachine.hasMember_apply command c _ h.numbered.fresh
    · obtain ⟨hpresent, hcommand⟩ := ManagementStateMachine.isSome_of_nodeAdded hc
      rw [← Option.isSome_iff_ne_none, ManagementStateMachine.isSome_apply, hcommand]
      exact hpresent
    · cases event with
      | subClusterCreated c nodeIds =>
        -- numbers begin with 1, and 0 is the management cluster
        have hc := (ManagementStateMachine.eq_nextClusterId_of_created he).1
        have := h.numbered.1
        show c ≠ 0
        omega
      | nodeAddedToSubCluster c n =>
        have hc := h.numbered.2 c (ManagementStateMachine.isSome_of_nodeAdded he).1
        show c ≠ 0
        omega
      | _ => trivial
  | reported nodeId hruntime hpending =>
    refine h.publish h.numbered (fun c => rfl) (fun c hc => Or.inl hc) (fun c hc => ?_)
      (fun event he => ?_) hruntime hpending
    · simp at hc
    · rw [List.mem_singleton] at he
      subst he
      trivial
  | observed isLeader event hpending hruntime => exact h.observe hmake hpending hruntime rfl
  | waited _ hruntime hpending =>
    obtain ⟨hnumbered, hreplay, hbacked, hstart⟩ := h
    rw [← hpending, ← hruntime] at hbacked
    rw [← hpending] at hreplay hstart
    rw [← hruntime] at hreplay hnumbered
    exact ⟨hnumbered, hreplay, hbacked, hstart⟩

/-- What a run keeps: the node is in step with its events as long as none was missed. -/
def Sound (s : ObservedNode R) : Prop := s.Bounded ∧ (s.Complete → s.Synced)

theorem Sound.step (hmake : ManagementRuntime.ConstructorsSucceed R) {s s' : ObservedNode R}
    {a : ObserverAction} (h : s.Sound) (hrestore : a.isRestore = false)
    (hbudget : s.runtime.stateMachine.nextClusterId + (if a.isCreate then 1 else 0) < U32.size)
    (hstep : s.step a = some s') : s'.Sound := by
  refine ⟨h.1.step hstep, fun hcomplete => ?_⟩
  obtain ⟨hbefore, hstepped⟩ := stepped_of_complete h.1 hrestore hstep hcomplete
  exact (h.2 hbefore).step hmake hbudget hstepped

theorem step_nodeId {s s' : ObservedNode R} {a : ObserverAction} (h : s.step a = some s') :
    s'.runtime.nodeId = s.runtime.nodeId := by
  cases a with
  | subscribe =>
    obtain ⟨-, rfl⟩ := step_subscribe h
    rfl
  | observe isLeader =>
    obtain ⟨event, rest, -, rfl⟩ := step_observe h
    exact (s.runtime.handle_frame isLeader event).2
  | _ =>
    rw [ObservedNode.step, Option.some.injEq] at h
    subst h
    rfl

/-- Only a creation takes a number, and it takes one. -/
theorem step_nextClusterId {s s' : ObservedNode R} {a : ObserverAction}
    (hrestore : a.isRestore = false) (h : s.step a = some s')
    (hbudget : s.runtime.stateMachine.nextClusterId + (if a.isCreate then 1 else 0) < U32.size) :
    s'.runtime.stateMachine.nextClusterId ≤
      s.runtime.stateMachine.nextClusterId + if a.isCreate then 1 else 0 := by
  cases a with
  | apply command =>
    rw [ObservedNode.step, Option.some.injEq] at h
    subst h
    show (s.runtime.stateMachine.apply command).2.nextClusterId ≤ _
    rw [ManagementStateMachine.nextClusterId_apply]
    unfold ObserverAction.isCreate at hbudget ⊢
    by_cases hcreate : command.isCreate = true
    · rw [if_pos hcreate] at hbudget
      rw [if_pos hcreate, if_pos hcreate, U32.add_of_lt hbudget]
    · rw [if_neg hcreate, if_neg hcreate]
      exact le_rfl
  | restore sm => exact absurd hrestore (by simp [ObserverAction.isRestore])
  | subscribe =>
    obtain ⟨-, rfl⟩ := step_subscribe h
    exact Nat.le_add_right _ _
  | observe isLeader =>
    obtain ⟨event, rest, -, rfl⟩ := step_observe h
    show (s.runtime.handle isLeader event).stateMachine.nextClusterId ≤ _
    rw [(s.runtime.handle_frame isLeader event).1]
    exact Nat.le_add_right _ _
  | followerFailed nodeId =>
    rw [ObservedNode.step, Option.some.injEq] at h
    rw [← h]
    exact Nat.le_add_right _ _
  | lag missed =>
    rw [ObservedNode.step, Option.some.injEq] at h
    rw [← h]
    exact Nat.le_add_right _ _

omit [SubClusterRuntime R] in
theorem sound_start (nodeId : ℕ) (storagePath : Option String) :
    (start nodeId storagePath : ObservedNode R).Sound := by
  refine ⟨le_rfl, fun _ => ⟨ManagementStateMachine.numbered_new, fun c => ?_, trivial, ?_⟩⟩
  · show (∅ : WordMap R).contains c = ManagementStateMachine.hasMember {} c nodeId
    simp [ManagementStateMachine.hasMember, ManagementStateMachine.getSubCluster]
  · intro event he
    simp [pending, start] at he

section
variable {nodeId : ℕ} {storagePath : Option String} {actions : List ObserverAction}
  {s : ObservedNode R}

/-- The conditions on a run that the counter needs, as conditions on its steps. -/
theorem along_rules (hrestore : ∀ a ∈ actions, a.isRestore = false)
    (hcreations : actions.countP ObserverAction.isCreate < U32.size - 1) :
    Transition.Along step (fun (s : ObservedNode R) a => a.isRestore = false ∧
      s.runtime.stateMachine.nextClusterId + (if a.isCreate then 1 else 0) < U32.size)
      (start nodeId storagePath) actions := by
  refine (Transition.along_of_forall hrestore).and (Transition.along_budget
    (f := fun s : ObservedNode R => s.runtime.stateMachine.nextClusterId)
    (fun s a s' => step_nextClusterId) hrestore ?_)
  show 1 + actions.countP ObserverAction.isCreate < U32.size
  unfold U32.size at hcreations ⊢
  omega

/-- Every run keeps the state sound. -/
theorem sound_run (hmake : ManagementRuntime.ConstructorsSucceed R)
    (hrestore : ∀ a ∈ actions, a.isRestore = false)
    (hcreations : actions.countP ObserverAction.isCreate < U32.size - 1)
    (hrun : Transition.run step (start nodeId storagePath) actions = some s) :
    s.runtime.nodeId = nodeId ∧ s.Sound := by
  refine Transition.run_induction (I := fun s : ObservedNode R => s.runtime.nodeId = nodeId ∧ s.Sound)
    ?_ ⟨rfl, sound_start nodeId storagePath⟩ (along_rules hrestore hcreations) hrun
  rintro s a s' ⟨hid, hsound⟩ ⟨hrestore, hbudget⟩ hstep
  exact ⟨(step_nodeId hstep).trans hid, hsound.step hmake hrestore hbudget hstep⟩

omit [SubClusterRuntime R] in
/-- An observer that has handled everything has nothing waiting. -/
theorem CaughtUp.complete (h : s.CaughtUp) (hsound : s.Sound) :
    s.Complete ∧ s.pending = [] := by
  have hle := hsound.1
  have hnil : s.pending = [] := by
    rw [Bounded, ← h] at hle
    exact List.eq_nil_of_length_eq_zero (by omega)
  refine ⟨?_, hnil⟩
  rw [Complete, hnil, List.append_nil]
  exact h

/-- Whenever the observer has handled all events, the node runs exactly the sub-clusters it is
a member of. -/
theorem mem_subClusters_iff_member (hmake : ManagementRuntime.ConstructorsSucceed R)
    (hrestore : ∀ a ∈ actions, a.isRestore = false)
    (hcreations : actions.countP ObserverAction.isCreate < U32.size - 1)
    (hrun : Transition.run step (start nodeId storagePath) actions = some s)
    (hcaught : s.CaughtUp) (c : ℕ) :
    c ∈ s.runtime.subClusters ↔ ∃ metadata,
      s.runtime.stateMachine.getSubCluster c = some metadata ∧ nodeId ∈ metadata.nodeIds := by
  obtain ⟨hid, hsound⟩ := sound_run hmake hrestore hcreations hrun
  obtain ⟨hcomplete, hnil⟩ := hcaught.complete hsound
  have hreplay := (hsound.2 hcomplete).replay c
  rw [hnil, List.map_nil, Switch.replay_nil, hid] at hreplay
  rw [← ManagementStateMachine.hasMember_iff, ← hreplay]
  exact Std.ExtTreeMap.mem_iff_contains

end

theorem constructorsSucceed_inMemory : ManagementRuntime.ConstructorsSucceed InMemoryRuntime :=
  ⟨fun _ => ⟨_, rfl⟩, fun _ _ => ⟨_, rfl⟩⟩

/-- Node 2 is added to a sub-cluster that is deleted before the observer gets there, and to one
that stays. -/
def staleActions : List ObserverAction :=
  [.subscribe, .apply (.createSubCluster [1]), .apply (.addNodeToSubCluster 1 2),
    .apply (.deleteSubCluster 1), .apply (.createSubCluster [1]), .observe false, .observe false,
    .apply (.addNodeToSubCluster 2 2), .observe false, .observe false, .observe false]

theorem mem_subClusters_of_stale_events :
    ∃ s : ObservedNode InMemoryRuntime,
      Transition.run step (start 2 none) staleActions = some s ∧ s.CaughtUp ∧
      ∀ c, c ∈ s.runtime.subClusters ↔ ∃ metadata,
        s.runtime.stateMachine.getSubCluster c = some metadata ∧ 2 ∈ metadata.nodeIds :=
  ⟨_, rfl, rfl, @mem_subClusters_iff_member InMemoryRuntime _ 2 none staleActions _
    constructorsSucceed_inMemory (by decide) (by decide) rfl rfl⟩

end ObservedNode

end Raftoral

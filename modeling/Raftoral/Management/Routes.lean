import Raftoral.Management.Observer

/-!
# The routes of a node

The observer registers a sub-cluster with the `ClusterRouter` when it starts it. Nothing ever
calls `unregister_cluster`: a sub-cluster that is dropped keeps its route, and behind the route
the mailbox and the event loop of its node. So the routes follow the membership as long as the
node is never taken out of a sub-cluster it is in.
-/

namespace Raftoral

namespace ObservedNode

variable {R : Type} [SubClusterRuntime R]

/-- Whether a step takes the node out of a sub-cluster it is in. -/
def leaves (s : ObservedNode R) : ObserverAction → Bool
  | .apply (.deleteSubCluster c) => s.runtime.stateMachine.hasMember c s.runtime.nodeId
  | .apply (.removeNodeFromSubCluster c n) =>
    n == s.runtime.nodeId && s.runtime.stateMachine.hasMember c n
  | _ => false

theorem steady_updateSubCluster {sm : ManagementStateMachine} {clusterId c nodeId : ℕ}
    {update : SubClusterMetadata → SubClusterMetadata} {event : ManagementEvent} {b : Bool}
    (h : event.switch nodeId c = .off → b = false) :
    Switch.Steady b (((sm.updateSubCluster clusterId update event).1.toOption.getD []).map
      (·.switch nodeId c)) := by
  rcases sm.updateSubCluster_cases clusterId update event with ⟨metadata, -, hu⟩ | ⟨-, hu⟩
  · rw [hu]
    exact ⟨h, trivial⟩
  · rw [hu]
    trivial

omit [SubClusterRuntime R] in
/-- A command that does not take the node out turns off what is off. -/
theorem steady_events {s : ObservedNode R} {command : ManagementCommand}
    (h : s.leaves (.apply command) = false) (c : ℕ) :
    Switch.Steady (s.runtime.stateMachine.hasMember c s.runtime.nodeId)
      ((s.runtime.stateMachine.events command).map (·.switch s.runtime.nodeId c)) := by
  cases command with
  | createSubCluster nodeIds =>
    refine ⟨fun hoff => ?_, trivial⟩
    simp only [ManagementEvent.switch] at hoff
    split_ifs at hoff
  | deleteSubCluster c' =>
    refine ⟨fun hoff => ?_, trivial⟩
    simp only [ManagementEvent.switch] at hoff
    split_ifs at hoff with hc
    exact hc ▸ h
  | addNodeToSubCluster c' n =>
    refine steady_updateSubCluster fun hoff => ?_
    simp only [ManagementEvent.switch] at hoff
    split_ifs at hoff
  | removeNodeFromSubCluster c' n =>
    refine steady_updateSubCluster fun hoff => ?_
    simp only [ManagementEvent.switch] at hoff
    split_ifs at hoff with hc
    obtain ⟨rfl, rfl⟩ := hc
    simpa [leaves] using h
  | setMetadata c' key value => exact steady_updateSubCluster fun hoff => by cases hoff
  | deleteMetadata c' key => exact steady_updateSubCluster fun hoff => by cases hoff
  | registerNodeAddress n address => trivial

/-- The registered clusters are the management cluster and those that run, and no event still
to be handled ends one of them. -/
structure Routed (s : ObservedNode R) : Prop where
  routes : ∀ c, s.runtime.clusterRouter.isClusterRegistered c =
    (decide (c = 0) || s.runtime.subClusters.contains c)
  steady : ∀ c, Switch.Steady (s.runtime.subClusters.contains c)
    (s.pending.map (·.switch s.runtime.nodeId c))

theorem Routed.observe (hmake : ManagementRuntime.ConstructorsSucceed R) {s s' : ObservedNode R}
    (h : s.Routed) (hsynced : s.Synced) {isLeader : Bool} {event : ManagementEvent}
    {rest : List ManagementEvent} (hpending : s.pending = event :: rest)
    (hruntime : s'.runtime = s.runtime.handle isLeader event) (hpending' : s'.pending = rest) :
    s'.Routed := by
  have hstart := hsynced.startable event (hpending ▸ List.mem_cons_self)
  have hsteady : ∀ c, Switch.Steady (s.runtime.subClusters.contains c)
      (event.switch s.runtime.nodeId c :: rest.map (·.switch s.runtime.nodeId c)) := by
    intro c
    have := h.steady c
    rwa [hpending, List.map_cons] at this
  refine ⟨fun c => ?_, fun c => ?_⟩
  · rw [hruntime]
    rcases ManagementRuntime.handled hmake s.runtime isLeader hstart with
      ⟨clusterId, mailbox, runtime, -, hmap, hrouter⟩ | ⟨clusterId, hswitch, hmap, hrouter⟩ |
        ⟨-, hmap, hrouter⟩
    · rw [hrouter, hmap, ClusterRouter.isClusterRegistered_registerCluster, h.routes c,
        WordMap.contains_insert]
      by_cases hc : c = clusterId
      · simp [hc]
      · simp [hc, Ne.symm hc]
    -- the sub-cluster that is dropped is not running
    · have hoff := (hsteady clusterId).1 (by rw [hswitch, if_pos rfl])
      rw [hrouter, hmap, h.routes c, WordMap.contains_erase]
      by_cases hc : clusterId = c
      · subst hc
        simp [hoff]
      · simp [hc]
    · rw [hrouter, hmap, h.routes c]
  · rw [hpending', hruntime, (s.runtime.handle_frame isLeader event).2]
    rcases contains_handle hmake s.runtime isLeader hstart c with hact | ⟨rfl, hgone⟩
    · rw [hact]
      exact (hsteady c).2
    -- the deletion to come would end a sub-cluster the node is in
    · have hbacked := hsynced.backed
      rw [hpending] at hbacked
      have hon := (hsteady c).2
      rw [show (ManagementEvent.nodeAddedToSubCluster c s.runtime.nodeId).switch
        s.runtime.nodeId c = .on by simp [ManagementEvent.switch], Switch.act_on] at hon
      refine absurd (List.mem_map.mpr ⟨_, hbacked.1 c rfl hgone, ?_⟩) hon.off_notMem
      simp [ManagementEvent.switch]

omit [SubClusterRuntime R] in
theorem Routed.publish {s s' : ObservedNode R} (h : s.Routed) (hsynced : s.Synced)
    {events : List ManagementEvent}
    (hsteady : ∀ c, Switch.Steady (s.runtime.stateMachine.hasMember c s.runtime.nodeId)
      (events.map (·.switch s.runtime.nodeId c)))
    (hid : s'.runtime.nodeId = s.runtime.nodeId)
    (hmap : s'.runtime.subClusters = s.runtime.subClusters)
    (hrouter : s'.runtime.clusterRouter = s.runtime.clusterRouter)
    (hpending : s'.pending = s.pending ++ events) : s'.Routed := by
  refine ⟨fun c => by rw [hmap, hrouter, h.routes c], fun c => ?_⟩
  rw [hmap, hid, hpending, List.map_append, Switch.steady_append, hsynced.replay c]
  exact ⟨h.steady c, hsteady c⟩

/-- A step that does not take the node out of a sub-cluster keeps the routes. -/
theorem Routed.step (hmake : ManagementRuntime.ConstructorsSucceed R) {s s' : ObservedNode R}
    {a : ObserverAction} (h : s.Routed) (hsynced : s.Synced) (hleaves : s.leaves a = false)
    (hstep : Stepped s s' a) : s'.Routed := by
  cases hstep with
  | applied command hruntime hpending =>
    exact h.publish hsynced (steady_events hleaves) (by rw [hruntime]) (by rw [hruntime])
      (by rw [hruntime]) hpending
  | reported nodeId hruntime hpending =>
    refine h.publish hsynced (fun c => ?_) (by rw [hruntime]) (by rw [hruntime])
      (by rw [hruntime]) hpending
    exact ⟨fun hoff => (by cases hoff), trivial⟩
  | observed isLeader event hpending hruntime =>
    exact h.observe hmake hsynced hpending hruntime rfl
  | waited _ hruntime hpending =>
    refine ⟨fun c => ?_, fun c => ?_⟩
    · rw [hruntime, h.routes c]
    · rw [hruntime, hpending]
      exact h.steady c

omit [SubClusterRuntime R] in
theorem routed_start (nodeId : ℕ) (storagePath : Option String) :
    (start nodeId storagePath : ObservedNode R).Routed := by
  refine ⟨fun c => ?_, fun c => trivial⟩
  show (ClusterRouter.registerCluster {} 0 0).isClusterRegistered c =
    (decide (c = 0) || (∅ : WordMap R).contains c)
  rw [ClusterRouter.isClusterRegistered_registerCluster]
  simp [ClusterRouter.isClusterRegistered]

/-- The registered clusters are the management cluster and the sub-clusters the node is in, and
a message for any other cluster reaches no mailbox. -/
def RoutesFollow (s : ObservedNode R) : Prop :=
  (∀ c, s.runtime.clusterRouter.isClusterRegistered c ↔
    c = 0 ∨ s.runtime.stateMachine.hasMember c s.runtime.nodeId) ∧
  ∀ closed message, message.clusterId ≠ 0 →
    s.runtime.stateMachine.hasMember message.clusterId s.runtime.nodeId = false →
    s.runtime.clusterRouter.routeMessage closed message =
      .error (.clusterNotFound message.clusterId)

omit [SubClusterRuntime R] in
/-- The messages follow the registrations. -/
theorem routesFollow_of_registered {s : ObservedNode R}
    (h : ∀ c, s.runtime.clusterRouter.isClusterRegistered c ↔
      c = 0 ∨ s.runtime.stateMachine.hasMember c s.runtime.nodeId) : s.RoutesFollow := by
  refine ⟨h, fun closed message hzero hmember => ?_⟩
  refine ClusterRouter.routeMessage_of_not_registered ?_
  rw [Bool.eq_false_iff]
  intro hregistered
  rcases (h _).mp hregistered with hz | hm
  · exact hzero hz
  · rw [hmember] at hm
    exact absurd hm (by simp)

/-- In a run that never takes the node out of a sub-cluster it is in, the routes follow the
membership whenever the observer has handled all events. -/
theorem routesFollow_of_never_leaves (hmake : ManagementRuntime.ConstructorsSucceed R)
    {nodeId : ℕ} {storagePath : Option String} {actions : List ObserverAction}
    {s : ObservedNode R} (hrestore : ∀ a ∈ actions, a.isRestore = false)
    (hcreations : actions.countP ObserverAction.isCreate < U32.size - 1)
    (hleaves : Transition.Along step (fun (s : ObservedNode R) a => s.leaves a = false)
      (start nodeId storagePath) actions)
    (hrun : Transition.run step (start nodeId storagePath) actions = some s)
    (hcaught : s.CaughtUp) : s.RoutesFollow := by
  have hinv : s.Sound ∧ (s.Complete → s.Routed) := by
    refine Transition.run_induction
      (I := fun s : ObservedNode R => s.Sound ∧ (s.Complete → s.Routed)) ?_
      ⟨sound_start nodeId storagePath, fun _ => routed_start nodeId storagePath⟩
      ((along_rules hrestore hcreations).and hleaves) hrun
    rintro s a s' ⟨hsound, hrouted⟩ ⟨⟨hrestore, hbudget⟩, hleaves⟩ hstep
    refine ⟨hsound.step hmake hrestore hbudget hstep, fun hcomplete => ?_⟩
    obtain ⟨hbefore, hstepped⟩ := stepped_of_complete hsound.1 hrestore hstep hcomplete
    exact (hrouted hbefore).step hmake (hsound.2 hbefore) hleaves hstepped
  obtain ⟨hcomplete, hnil⟩ := hcaught.complete hinv.1
  refine routesFollow_of_registered fun c => ?_
  have hreplay := (hinv.1.2 hcomplete).replay c
  rw [hnil, List.map_nil, Switch.replay_nil] at hreplay
  rw [(hinv.2 hcomplete).routes c, hreplay]
  simp

/-- Node 2 is in one sub-cluster; it is removed from another one, which is then deleted, without
being in it. -/
def joinActions : List ObserverAction :=
  [.subscribe, .apply (.createSubCluster [1, 2]), .apply (.createSubCluster [1]),
    .apply (.removeNodeFromSubCluster 2 2), .observe false, .observe false,
    .apply (.deleteSubCluster 2), .observe false, .observe false]

theorem routesFollow_after_joins :
    ∃ s : ObservedNode InMemoryRuntime,
      Transition.run step (start 2 none) joinActions = some s ∧ s.CaughtUp ∧ s.RoutesFollow :=
  ⟨_, rfl, rfl, @routesFollow_of_never_leaves InMemoryRuntime _ constructorsSucceed_inMemory
    2 none joinActions _ (by decide) (by decide) (by decide) rfl rfl⟩

/-- Node 1 is removed from one sub-cluster and a second one is deleted. -/
def leaveActions : List ObserverAction :=
  [.subscribe, .apply (.createSubCluster [1, 2]), .apply (.createSubCluster [1]), .observe false,
    .observe false, .apply (.removeNodeFromSubCluster 1 1), .apply (.deleteSubCluster 2),
    .observe false, .observe false]

/-- The routes of both stay, with the mailboxes that the event loops of their nodes read. -/
theorem routes_outlive_membership :
    ∃ s : ObservedNode InMemoryRuntime,
      (∀ a ∈ leaveActions, a.isRestore = false) ∧
      leaveActions.countP ObserverAction.isCreate < U32.size - 1 ∧
      Transition.run step (start 1 none) leaveActions = some s ∧ s.CaughtUp ∧
      s.runtime.stateMachine.hasMember 1 1 = false ∧
      s.runtime.stateMachine.hasMember 2 1 = false ∧
      s.runtime.clusterRouter.routeMessage (fun _ => false) { clusterId := 1 } = .ok 1 ∧
      s.runtime.clusterRouter.routeMessage (fun _ => false) { clusterId := 2 } = .ok 2 ∧
      s.runtime.spawned = [.runNode 1 1, .runNode 2 2] ∧ ¬ s.RoutesFollow := by
  refine ⟨_, by decide, by decide, rfl, rfl, by decide, by decide, rfl, rfl, rfl, ?_⟩
  intro h
  exact absurd ((h.1 1).mp rfl) (by decide)

end ObservedNode

end Raftoral

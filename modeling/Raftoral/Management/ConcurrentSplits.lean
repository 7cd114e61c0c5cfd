import Raftoral.Lib.Planning
import Raftoral.Lib.Run
import Raftoral.Management.Splits

/-!
# Concurrent changes of the topology

`add_node_to_sub_cluster` and `remove_node_from_sub_cluster` propose their command, wait for it,
take the state their node has by then, plan splits or a consolidation on it and propose what was
planned, one command after the other. Many such calls are under way at once.

Two calls may plan on states that both show an oversized sub-cluster, and split it twice: its
nodes are moved to two new sub-clusters and removed from the old one once. A call whose plan
removes nobody another call removes too does not multiply memberships.
-/

namespace Raftoral

open ManagementStateMachine ClusterManager Planning

/-- The calls that change the topology. -/
inductive TopologyCall where
  | addNodeToSubCluster (clusterId nodeId : ℕ)
  | removeNodeFromSubCluster (clusterId nodeId : ℕ)
deriving DecidableEq, Repr

namespace TopologyCall

/-- What a call proposes and waits for. -/
def command : TopologyCall → ManagementCommand
  | .addNodeToSubCluster clusterId nodeId => .addNodeToSubCluster clusterId nodeId
  | .removeNodeFromSubCluster clusterId nodeId => .removeNodeFromSubCluster clusterId nodeId

/-- What it plans on a snapshot: splits after an addition, a consolidation after a removal. -/
def decide (config : ClusterManagerConfig) (clusters : List (ℕ × SubClusterMetadata)) :
    TopologyCall → List ClusterAction
  | .addNodeToSubCluster _ _ => decideSplits config clusters
  | .removeNodeFromSubCluster _ _ => decideConsolidation config clusters

end TopologyCall

/-- The calls over the replicated management state; the choice is the order in which the
planner sees the map. -/
def topologyPlanner (config : ClusterManagerConfig) :
    Planner ManagementStateMachine ManagementCommand TopologyCall (List ℕ) where
  apply sm command := (sm.apply command).2
  succeeds sm command := (sm.apply command).1.isOk
  command := TopologyCall.command
  plan call sm order :=
    if sm.IterationOrder order then some (executeActions (call.decide config (sm.entries order)))
    else none

abbrev Topology := Planning.State ManagementStateMachine ManagementCommand TopologyCall

abbrev TopologyOp := Planning.Op TopologyCall (List ℕ)

namespace Topology

variable {config : ClusterManagerConfig} {s s' : Topology}

theorem apply_topologyPlanner (sm : ManagementStateMachine) (command : ManagementCommand) :
    (topologyPlanner config).apply sm command = (sm.apply command).2 := rfl

/-- What a decision plans, on a state the planner saw in some order. -/
theorem planned_cases {i position : ℕ} {order : List ℕ} {call : TopologyCall}
    (hplan : (topologyPlanner config).plan call (s.stateAt (topologyPlanner config) position) order =
      some (s.planned (topologyPlanner config) i position order)) :
    (s.stateAt (topologyPlanner config) position).IterationOrder order ∧
      s.planned (topologyPlanner config) i position order = executeActions
        (call.decide config ((s.stateAt (topologyPlanner config) position).entries order)) := by
  simp only [topologyPlanner] at hplan ⊢
  split at hplan
  · rename_i horder
    exact ⟨horder, (Option.some.inj hplan).symm⟩
  · exact absurd hplan (by simp)

/-- The plan of a call removes nobody that another plan removes too: neither in the part of the
log its snapshot does not show nor among what other calls have still to propose. -/
def RemovesAlone (config : ClusterManagerConfig) (s : Topology) (i position : ℕ)
    (order : List ℕ) : Prop :=
  ∀ removal ∈ removals (s.planned (topologyPlanner config) i position order),
    removal ∉ removals (s.log.drop position) ∧ removal ∉ removals s.pending

/-- What a step has to meet: a decision removes alone, and the counter of the sub-clusters is not
at its end when a command is proposed. -/
def SplitsAlone (config : ClusterManagerConfig) (s : Topology) : TopologyOp → Prop
  | .call _ => True
  | .decide i position order => RemovesAlone config s i position order
  | .propose _ => (s.current (topologyPlanner config)).nextClusterId + 1 < U32.size

/-- The steps of runs in which nodes are only added. -/
def AddsOnly : TopologyOp → Prop
  | .call (.removeNodeFromSubCluster _ _) => False
  | _ => True

/-- An explicit addition of the node. -/
def adds (n : ℕ) : TopologyOp → Bool
  | .call (.addNodeToSubCluster _ nodeId) => nodeId == n
  | _ => false

/-- Every removal that is pending will take effect, and only creations and removals are. -/
structure Splitting (config : ClusterManagerConfig) (s : Topology) : Prop where
  duplicateFree : ∀ position, (s.stateAt (topologyPlanner config) position).DuplicateFree
  no_delete : ∀ c, .deleteSubCluster c ∉ s.log
  only_adds : ∀ call ∈ s.kinds, ∃ c n, call = .addNodeToSubCluster c n
  moves : ∀ command ∈ s.pending, (∃ nodeIds, command = .createSubCluster nodeIds ∧ nodeIds.Nodup) ∨
    ∃ c n, command = .removeNodeFromSubCluster c n
  nodup : (removals s.pending).Nodup
  member : ∀ c n, (c, n) ∈ removals s.pending →
    (s.current (topologyPlanner config)).hasMember c n

/-- The memberships of a node there are and will be, against those there may be. -/
def Balanced (config : ClusterManagerConfig) (s : Topology) (n bound : ℕ) : Prop :=
  (s.current (topologyPlanner config)).memberships n + s.pending.countP (houses n) ≤
    bound + (removals s.pending).countP fun r => r.2 = n

/-- Who was in a sub-cluster at a position is in it still, if nobody removed them since. -/
theorem Splitting.hasMember_current (h : Splitting config s) (position : ℕ) {c n : ℕ}
    (hmember : (s.stateAt (topologyPlanner config) position).hasMember c n)
    (hremove : (c, n) ∉ removals (s.log.drop position)) :
    (s.current (topologyPlanner config)).hasMember c n := by
  rw [← State.stateAt_of_le (le_max_right position s.log.length)]
  refine State.stateAt_of_drop (Q := fun sm : ManagementStateMachine => sm.hasMember c n)
    (le_max_left position _) ?_ hmember
  intro k command hk hcommand hmem
  have hlog : command ∈ s.log := List.mem_of_getElem? hcommand
  have hdrop : command ∈ s.log.drop position := by
    refine List.mem_of_getElem? (i := k - position) ?_
    rw [List.getElem?_drop, Nat.add_sub_cancel' hk, hcommand]
  refine hasMember_apply_of_ne (h.duplicateFree k).numbered ?_ ?_ hmem
  · rintro rfl
    exact h.no_delete c hlog
  · rintro rfl
    exact hremove (mem_removals.mpr hdrop)

theorem Splitting.current (h : Splitting config s) :
    (s.current (topologyPlanner config)).DuplicateFree := by
  rw [← State.stateAt_of_le le_rfl]
  exact h.duplicateFree _

/-- A call of an addition keeps who is in a sub-cluster. -/
theorem Splitting.call (h : Splitting config s) {c n : ℕ}
    {calls : List (Call ManagementCommand TopologyCall)}
    (hs' : s' = s.append (.addNodeToSubCluster c n) calls)
    (hkinds : s'.kinds = s.kinds ++ [.addNodeToSubCluster c n]) (hpending : s'.pending = s.pending) :
    Splitting config s' := by
  have hcurrent : s'.current (topologyPlanner config) =
      ((s.current (topologyPlanner config)).apply (.addNodeToSubCluster c n)).2 := by
    rw [hs', State.current_append, apply_topologyPlanner]
  refine ⟨?_, ?_, ?_, ?_, ?_, ?_⟩
  · rw [hs']
    exact State.forall_stateAt_append h.duplicateFree (h.current.apply trivial)
  · intro c' hmem
    rw [hs', State.log_append, List.mem_append, List.mem_singleton] at hmem
    rcases hmem with hmem | heq
    · exact h.no_delete c' hmem
    · cases heq
  · intro call hcall
    rw [hkinds, List.mem_append, List.mem_singleton] at hcall
    rcases hcall with hcall | rfl
    · exact h.only_adds call hcall
    · exact ⟨c, n, rfl⟩
  · rw [hpending]
    exact h.moves
  · rw [hpending]
    exact h.nodup
  · intro c' n' hmem
    rw [hpending] at hmem
    rw [hcurrent]
    exact hasMember_apply_of_ne h.current.numbered (by simp) (by simp) (h.member c' n' hmem)

/-- A plan that removes nobody another call removes too. -/
theorem Splitting.decide (h : Splitting config s) {i position : ℕ} {order : List ℕ}
    {call : TopologyCall} {calls : List (Call ManagementCommand TopologyCall)}
    (hcall : call ∈ s.kinds)
    (hplan : (topologyPlanner config).plan call (s.stateAt (topologyPlanner config) position) order =
      some (s.planned (topologyPlanner config) i position order))
    (halone : RemovesAlone config s i position order) (hs' : s' = { s with calls })
    (hkinds : s'.kinds = s.kinds)
    (hpending : s'.pending.Perm
      (s.planned (topologyPlanner config) i position order ++ s.pending)) :
    Splitting config s' := by
  obtain ⟨c, n, rfl⟩ := h.only_adds call hcall
  obtain ⟨horder, hplanned⟩ := planned_cases hplan
  have hsplit : s.planned (topologyPlanner config) i position order =
      splitProposals config (s.stateAt (topologyPlanner config) position) order := hplanned
  have hremovals : (removals s'.pending).Perm
      (removals (s.planned (topologyPlanner config) i position order) ++ removals s.pending) := by
    rw [← removals_append]
    exact removals_perm hpending
  -- a decision leaves the state and the log; what is new are the planned commands
  refine ⟨?_, ?_, ?_, ?_, ?_, ?_⟩
  · rw [hs']
    exact h.duplicateFree
  · rw [hs']
    exact h.no_delete
  · rw [hkinds]
    exact h.only_adds
  · intro command hcommand
    rcases List.mem_append.mp (hpending.subset hcommand) with hcommand | hcommand
    · rw [hsplit, mem_splitProposals horder] at hcommand
      obtain ⟨c', metadata, hget, -, rfl | ⟨m, -, rfl⟩⟩ := hcommand
      · exact Or.inl ⟨_, rfl, nodup_nodesToMove ((h.duplicateFree position).nodup _ _ hget)⟩
      · exact Or.inr ⟨c', m, rfl⟩
    · exact h.moves command hcommand
  · rw [hremovals.nodup_iff, List.nodup_append']
    refine ⟨?_, h.nodup, fun removal hmem => (halone removal hmem).2⟩
    rw [hsplit]
    exact nodup_removals_splitProposals (h.duplicateFree position) horder
  · intro c' n' hmem
    have hcurrent : s'.current (topologyPlanner config) = s.current (topologyPlanner config) := by
      rw [hs']
      rfl
    rw [hcurrent]
    rcases List.mem_append.mp (hremovals.subset hmem) with hmem | hmem
    -- the log behind the snapshot does not remove the node, so it is still there
    · refine h.hasMember_current position ?_ (halone _ hmem).1
      rw [mem_removals, hsplit, mem_splitProposals horder] at hmem
      obtain ⟨c₁, metadata, hget, -, heq | ⟨m, hm, heq⟩⟩ := hmem
      · cases heq
      · cases heq
        exact hasMember_iff.mpr ⟨metadata, hget, mem_nodesToMove hm⟩
    · exact h.member c' n' hmem

/-- A proposal takes its command out of what is pending. -/
theorem Splitting.propose (h : Splitting config s) {command : ManagementCommand}
    {calls : List (Call ManagementCommand TopologyCall)}
    (hroom : (s.current (topologyPlanner config)).nextClusterId + 1 < U32.size)
    (hs' : s' = s.append command calls) (hkinds : s'.kinds = s.kinds)
    (hpending : s.pending.Perm (command :: s'.pending)) : Splitting config s' := by
  have hfirst : command ∈ s.pending := hpending.mem_iff.mpr List.mem_cons_self
  have hmoves := h.moves command hfirst
  have hremovals := removals_perm hpending
  have hcurrent : s'.current (topologyPlanner config) =
      ((s.current (topologyPlanner config)).apply command).2 := by
    rw [hs', State.current_append, apply_topologyPlanner]
  have hadmissible : (s.current (topologyPlanner config)).Admissible command := by
    rcases hmoves with ⟨nodeIds, rfl, hnodup⟩ | ⟨c, n, rfl⟩
    · exact ⟨hnodup, hroom⟩
    · trivial
  -- one pending command moves to the log
  refine ⟨?_, ?_, ?_, ?_, ?_, ?_⟩
  · rw [hs']
    exact State.forall_stateAt_append h.duplicateFree (h.current.apply hadmissible)
  · intro c hmem
    rw [hs', State.log_append, List.mem_append, List.mem_singleton] at hmem
    rcases hmem with hmem | rfl
    · exact h.no_delete c hmem
    · rcases hmoves with ⟨nodeIds, heq, -⟩ | ⟨c', n, heq⟩ <;> cases heq
  · rw [hkinds]
    exact h.only_adds
  · intro command' hcommand'
    exact h.moves command' (hpending.mem_iff.mpr (List.mem_cons_of_mem _ hcommand'))
  · have hnodup := hremovals.nodup_iff.mp h.nodup
    exact hnodup.sublist ((List.sublist_cons_self command _).filterMap removal)
  · intro c n hmem
    rw [hcurrent]
    have hbefore : (s.current (topologyPlanner config)).hasMember c n := by
      refine h.member c n (mem_removals.mpr (hpending.mem_iff.mpr ?_))
      exact List.mem_cons_of_mem _ (mem_removals.mp hmem)
    refine hasMember_apply_of_ne h.current.numbered ?_ ?_ hbefore
    · rintro rfl
      rcases hmoves with ⟨nodeIds, heq, -⟩ | ⟨c', n', heq⟩ <;> cases heq
    · -- each removal is pending once
      rintro rfl
      have hnodup := hremovals.nodup_iff.mp h.nodup
      rw [removals_cons_remove, List.nodup_cons] at hnodup
      exact hnodup.1 hmem

theorem splitting_step {op : TopologyOp} (h : Splitting config s) (hadds : AddsOnly op)
    (hC : SplitsAlone config s op) (hstep : step (topologyPlanner config) s op = some s') :
    Splitting config s' := by
  obtain ⟨kind, calls, rfl, hs', hkinds, hpending⟩ |
    ⟨i, position, order, kind, calls, rfl, hkind, -, hplan, hs', hkinds, hpending⟩ |
    ⟨i, command, calls, rfl, hs', hkinds, hpending⟩ := step_cases hstep
  · cases kind with
    | addNodeToSubCluster c n => exact h.call hs' hkinds hpending
    | removeNodeFromSubCluster c n => exact hadds.elim
  · exact h.decide hkind hplan hC hs' hkinds hpending
  · exact h.propose hC hs' hkinds hpending

theorem balanced_step {op : TopologyOp} {n bound : ℕ} (h : Splitting config s)
    (hbalanced : Balanced config s n bound) (hadds : AddsOnly op)
    (hstep : step (topologyPlanner config) s op = some s') :
    Balanced config s' n (bound + if adds n op then 1 else 0) := by
  unfold Balanced at hbalanced ⊢
  obtain ⟨kind, calls, rfl, hs', -, hpending⟩ |
    ⟨i, position, order, kind, calls, rfl, hkind, -, hplan, hs', -, hpending⟩ |
    ⟨i, command, calls, rfl, hs', -, hpending⟩ := step_cases hstep
  · cases kind with
    | addNodeToSubCluster c m =>
      have hadd : ((s.current (topologyPlanner config)).apply
          (.addNodeToSubCluster c m)).2.memberships n ≤
          (s.current (topologyPlanner config)).memberships n + if m = n then 1 else 0 :=
        memberships_addNode_le c m n
      rw [hpending, hs', State.current_append, apply_topologyPlanner]
      simp only [adds, beq_iff_eq, topologyPlanner, TopologyCall.command] at hadd hbalanced ⊢
      omega
    | removeNodeFromSubCluster c m => exact hadds.elim
  · obtain ⟨c, m, rfl⟩ := h.only_adds kind hkind
    obtain ⟨horder, hplanned⟩ := planned_cases hplan
    have hsplit : s.planned (topologyPlanner config) i position order =
        splitProposals config (s.stateAt (topologyPlanner config) position) order := hplanned
    -- each planned membership comes with the removal of one
    have hcount : (s.planned (topologyPlanner config) i position order).countP (houses n) =
        (removals (s.planned (topologyPlanner config) i position order)).countP
          fun r => r.2 = n := by
      rw [hsplit]
      exact countP_splitProposals (h.duplicateFree position) horder n
    have hcurrent : s'.current (topologyPlanner config) = s.current (topologyPlanner config) := by
      rw [hs']
      rfl
    rw [hcurrent, hpending.countP_eq, (removals_perm hpending).countP_eq, removals_append,
      List.countP_append, List.countP_append]
    simp only [adds]
    omega
  · rw [hs', State.current_append, apply_topologyPlanner, ← hs']
    rw [hpending.countP_eq, (removals_perm hpending).countP_eq] at hbalanced
    rcases h.moves command (hpending.mem_iff.mpr List.mem_cons_self) with
      ⟨nodeIds, rfl, -⟩ | ⟨c, m, rfl⟩
    · rw [removals_cons_create, List.countP_cons] at hbalanced
      rw [memberships_createSubCluster h.current.numbered.fresh]
      simp only [houses, List.contains_iff_mem, adds] at hbalanced ⊢
      omega
    · have hmember := h.member c m (mem_removals.mpr (hpending.mem_iff.mpr List.mem_cons_self))
      have hremove := memberships_removeNode hmember n
      rw [removals_cons_remove, List.countP_cons, List.countP_cons] at hbalanced
      simp only [houses, adds, decide_eq_true_eq] at hbalanced ⊢
      omega

theorem splitting_start {sm : ManagementStateMachine} (h : sm.DuplicateFree) :
    Splitting config { initial := sm } := by
  refine ⟨?_, by simp, by simp [State.kinds], by simp [State.pending], ?_, ?_⟩
  · intro position
    rw [State.stateAt, List.take_nil]
    exact h
  · simp [State.pending, removals]
  · simp [State.pending, removals]

/-- A run of calls that split alone. -/
theorem run_balanced {ops : List TopologyOp} {n bound : ℕ} (h : Splitting config s)
    (hbalanced : Balanced config s n bound) (hadds : ∀ op ∈ ops, AddsOnly op)
    (halone : Transition.Along (step (topologyPlanner config)) (SplitsAlone config) s ops)
    (hrun : Transition.run (step (topologyPlanner config)) s ops = some s') :
    Balanced config s' n (bound + ops.countP (adds n)) := by
  refine (Transition.run_history (I := fun done s => Splitting config s ∧
    Balanced config s n (bound + done.countP (adds n))) ?_ ⟨h, hbalanced⟩
    ((Transition.along_of_forall hadds).and halone) hrun).2
  rintro done s op s' ⟨hsplitting, hbalanced⟩ ⟨hop, hsplits⟩ hstep
  refine ⟨splitting_step hsplitting hop hsplits hstep, ?_⟩
  rw [List.countP_append, List.countP_singleton, ← Nat.add_assoc]
  exact balanced_step hsplitting hbalanced hop hstep

/-- In runs of additions in which every call splits alone, a node is in at most as many
sub-clusters as it was and was added to, once all that was planned is proposed. -/
theorem memberships_le_of_splitsAlone (config : ClusterManagerConfig) {sm : ManagementStateMachine}
    (h : sm.DuplicateFree) {ops : List TopologyOp} (hadds : ∀ op ∈ ops, AddsOnly op)
    (halone : Transition.Along (step (topologyPlanner config)) (SplitsAlone config)
      { initial := sm } ops)
    {s : Topology}
    (hrun : Transition.run (step (topologyPlanner config)) { initial := sm } ops = some s)
    (hdone : s.pending = []) (n : ℕ) :
    (s.current (topologyPlanner config)).memberships n ≤
      sm.memberships n + ops.countP (adds n) := by
  have hstart : Balanced config { initial := sm } n (sm.memberships n) := by
    simp [Balanced, State.current, State.pending, removals]
  have hend := run_balanced (splitting_start h) hstart hadds halone hrun
  rw [Balanced, hdone] at hend
  simpa [removals] using hend

instance (config : ClusterManagerConfig) (s : Topology) (op : TopologyOp) :
    Decidable (SplitsAlone config s op) :=
  match op with
  | .call _ => .isTrue trivial
  | .decide i position order => inferInstanceAs (Decidable (∀ removal ∈
      removals (s.planned (topologyPlanner config) i position order),
        removal ∉ removals (s.log.drop position) ∧ removal ∉ removals s.pending))
  | .propose _ => inferInstanceAs (Decidable (_ < U32.size))

instance (op : TopologyOp) : Decidable (AddsOnly op) :=
  match op with
  | .call (.removeNodeFromSubCluster _ _) => .isFalse id
  | .call (.addNodeToSubCluster _ _) => .isTrue trivial
  | .decide _ _ _ => .isTrue trivial
  | .propose _ => .isTrue trivial

/-- One sub-cluster of five nodes. -/
def fiveNodes : ManagementStateMachine :=
  (ManagementStateMachine.apply {} (.createSubCluster [1, 2, 3, 4, 5])).2

theorem duplicateFree_fiveNodes : fiveNodes.DuplicateFree :=
  DuplicateFree.apply duplicateFree_new ⟨by decide, by decide⟩

/-- A sixth node is added, and the sub-cluster is split. -/
def oneSplit : List TopologyOp :=
  [.call (.addNodeToSubCluster 1 6), .decide 0 1 [1], .propose 0, .propose 0, .propose 0, .propose 0]

theorem memberships_le_oneSplit : ∃ s : Topology,
    Transition.run (step (topologyPlanner {})) { initial := fiveNodes } oneSplit = some s ∧
      s.pending = [] ∧ ∀ n, (s.current (topologyPlanner {})).memberships n ≤
        fiveNodes.memberships n + oneSplit.countP (adds n) :=
  ⟨{ initial := fiveNodes
     log := .addNodeToSubCluster 1 6 :: .createSubCluster [1, 2, 3] ::
       [1, 2, 3].map fun n => .removeNodeFromSubCluster 1 n
     calls := [⟨.addNodeToSubCluster 1 6, .executing []⟩] }, by rfl, by rfl,
    memberships_le_of_splitsAlone {} duplicateFree_fiveNodes (by decide) (by decide) (by rfl)
      (by rfl)⟩

/-- Two nodes are added at once, and both calls plan on a state that shows the two additions. -/
def twoSplits : List TopologyOp :=
  [.call (.addNodeToSubCluster 1 6), .call (.addNodeToSubCluster 1 7), .decide 0 2 [1],
    .decide 1 2 [1], .propose 0, .propose 0, .propose 0, .propose 0,
    .propose 1, .propose 1, .propose 1, .propose 1]

/-- Node 1 was in one sub-cluster and is now in two, though it was never added anywhere. -/
theorem twoSplits_multiply_memberships : ∃ s : Topology,
    Transition.run (step (topologyPlanner {})) { initial := fiveNodes } twoSplits = some s ∧
      s.pending = [] ∧ (∀ op ∈ twoSplits, AddsOnly op) ∧ fiveNodes.DuplicateFree ∧
      ¬ (s.current (topologyPlanner {})).memberships 1 ≤
        fiveNodes.memberships 1 + twoSplits.countP (adds 1) :=
  ⟨{ initial := fiveNodes
     log := [.addNodeToSubCluster 1 6, .addNodeToSubCluster 1 7, .createSubCluster [1, 2, 3],
       .removeNodeFromSubCluster 1 1, .removeNodeFromSubCluster 1 2, .removeNodeFromSubCluster 1 3,
       .createSubCluster [1, 2, 3], .removeNodeFromSubCluster 1 1, .removeNodeFromSubCluster 1 2,
       .removeNodeFromSubCluster 1 3]
     calls := [⟨.addNodeToSubCluster 1 6, .executing []⟩, ⟨.addNodeToSubCluster 1 7, .executing []⟩] },
    by rfl, by rfl, by decide, duplicateFree_fiveNodes, by decide⟩

end Topology

end Raftoral

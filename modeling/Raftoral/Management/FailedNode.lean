import Raftoral.Management.SequentialConsolidation
import Raftoral.Management.SplitEffect

/-!
# A failed node

`handle_failed_node` lists the sub-clusters of a node once and then removes the node from them, one
after the other. Every removal that succeeds decides a consolidation on the state it leaves, which
may drain or delete sub-clusters, those of the list included. The state of the loop is the log of
the commands committed so far. `Handled` says what they made of every sub-cluster.
-/

namespace Raftoral

open ManagementStateMachine ClusterManager Transition

/-- The sub-clusters that contain the node, as the map lists them. -/
def affectedClusters (clusters : List (ℕ × SubClusterMetadata)) (nodeId : ℕ) : List ℕ :=
  clusters.filterMap fun entry =>
    if entry.2.nodeIds.contains nodeId then some entry.1 else none

namespace ManagementStateMachine

/-- `remove_node_from_sub_cluster`: the commands that are committed for it. The consolidation is
decided on the state after the removal, in some order of its map. -/
def removeNodeFromSubCluster (config : ClusterManagerConfig) (sm : ManagementStateMachine)
    (clusterId nodeId : ℕ) (order : List ℕ) : Option (List ManagementCommand) :=
  let result := sm.apply (.removeNodeFromSubCluster clusterId nodeId)
  match result.1 with
  | .ok _ =>
    if result.2.IterationOrder order then
      some (.removeNodeFromSubCluster clusterId nodeId ::
        executeActions (decideConsolidation config (result.2.entries order)))
    else none
  | .error _ => some [.removeNodeFromSubCluster clusterId nodeId]

/-- A turn of the loop over the affected sub-clusters; an error does not end it. -/
def handleTurn (config : ClusterManagerConfig) (sm : ManagementStateMachine) (nodeId : ℕ)
    (log : List ManagementCommand) (turn : ℕ × List ℕ) : Option (List ManagementCommand) :=
  (removeNodeFromSubCluster config (sm.applyAll log) turn.1 nodeId turn.2).map (log ++ ·)

/-- `handle_failed_node`, up to the removal from the management cluster itself. -/
def HandledFailedNode (config : ClusterManagerConfig) (sm : ManagementStateMachine) (nodeId : ℕ)
    (log : List ManagementCommand) : Prop :=
  ∃ order turns, sm.IterationOrder order ∧
    turns.map Prod.fst = affectedClusters (sm.entries order) nodeId ∧
    run (handleTurn config sm nodeId) [] turns = some log

/-- A sub-cluster is deleted only when it is draining and has no nodes. -/
def DeletesDrained (sm : ManagementStateMachine) (command : ManagementCommand) : Prop :=
  ∀ c, command = .deleteSubCluster c → sm.isDrained c

/-- The commands, one after the other. -/
def applyStep (sm : ManagementStateMachine) (command : ManagementCommand) :
    Option ManagementStateMachine :=
  some (sm.apply command).2

/-- What is left of a list of nodes when the sub-cluster has been dealt with. -/
def leftOf (n : ℕ) (done : List ℕ) (c : ℕ) (nodeIds : List ℕ) : List ℕ :=
  if c ∈ done then nodeIds.filter (· != n) else nodeIds

/-- What the log of the loop made of the sub-clusters, those of `done` being dealt with. -/
structure Handled (sm : ManagementStateMachine) (n : ℕ) (done : List ℕ)
    (log : List ManagementCommand) : Prop where
  /-- What is there was there, and has lost the node if it was dealt with. -/
  kept : ∀ c metadata, (sm.applyAll log).getSubCluster c = some metadata →
    ∃ former, sm.getSubCluster c = some former ∧
      metadata.nodeIds = leftOf n done c former.nodeIds
  /-- What is gone had no other node. -/
  gone : ∀ c former, sm.getSubCluster c = some former →
    (sm.applyAll log).getSubCluster c = none → former.nodeIds.filter (· != n) = []
  deletes : Along applyStep DeletesDrained sm log
  nextClusterId : (sm.applyAll log).nextClusterId = sm.nextClusterId
  nodeAddresses : (sm.applyAll log).nodeAddresses = sm.nodeAddresses

section
variable {config : ClusterManagerConfig} {sm : ManagementStateMachine} {n : ℕ}
  {log : List ManagementCommand} {done order : List ℕ}

theorem mem_affectedClusters (horder : sm.IterationOrder order) {c : ℕ} :
    c ∈ affectedClusters (sm.entries order) n ↔ sm.hasMember c n := by
  rw [affectedClusters, List.mem_filterMap, hasMember_iff]
  constructor
  · rintro ⟨entry, hentry, hc⟩
    obtain ⟨hmem, rfl⟩ : n ∈ entry.2.nodeIds ∧ entry.1 = c := by simpa using hc
    exact ⟨entry.2, (mem_entries horder).mp hentry, hmem⟩
  · rintro ⟨metadata, hget, hmem⟩
    exact ⟨(c, metadata), (mem_entries horder).mpr hget, by simp [hmem]⟩

/-! ## Running the commands -/

theorem run_applyStep (sm : ManagementStateMachine) (log : List ManagementCommand) :
    run applyStep sm log = some (sm.applyAll log) :=
  run_some (fun (sm : ManagementStateMachine) command => (sm.apply command).2) sm log

/-- What is gone at the end of a log was deleted by one of its commands. -/
theorem exists_delete_of_gone {c : ℕ} {former : SubClusterMetadata}
    (hformer : sm.getSubCluster c = some former)
    (hgone : (sm.applyAll log).getSubCluster c = none) :
    ∃ before after, log = before ++ .deleteSubCluster c :: after := by
  induction log generalizing sm former with
  | nil => simp [hformer] at hgone
  | cons command log ih =>
    cases hget : (sm.apply command).2.getSubCluster c with
    | some metadata =>
      obtain ⟨before, after, heq⟩ := ih hget hgone
      exact ⟨command :: before, after, by rw [heq, List.cons_append]⟩
    | none =>
      -- the first command is the deletion
      have hexists := sm.isSome_apply command c
      rw [hget, hformer] at hexists
      cases command with
      | deleteSubCluster c' =>
        by_cases hc : c' = c
        · exact ⟨[], log, by rw [hc]; rfl⟩
        · simp [existence, hc] at hexists
      | createSubCluster nodeIds =>
        by_cases hc : sm.nextClusterId = c
        · simp [existence, hc] at hexists
        · simp [existence, hc] at hexists
      | _ => simp [existence] at hexists

/-- The commands of a removal and of the consolidation after it. -/
def Reduces : ManagementCommand → Prop
  | .deleteSubCluster _ | .removeNodeFromSubCluster _ _ | .setMetadata _ _ _ => True
  | _ => False

theorem frame_applyAll (sm : ManagementStateMachine) (h : ∀ command ∈ log, Reduces command) :
    (sm.applyAll log).nextClusterId = sm.nextClusterId ∧
      (sm.applyAll log).nodeAddresses = sm.nodeAddresses := by
  induction log generalizing sm with
  | nil => exact ⟨rfl, rfl⟩
  | cons command log ih =>
    obtain ⟨hnext, haddresses⟩ := ih (sm.apply command).2 fun x hx =>
      h x (List.mem_cons_of_mem _ hx)
    have hfirst := h command List.mem_cons_self
    rw [applyAll_cons, hnext, haddresses, nextClusterId_apply]
    cases command with
    | deleteSubCluster c => exact ⟨rfl, rfl⟩
    | removeNodeFromSubCluster c m => exact ⟨rfl, nodeAddresses_updateSubCluster _ _ _ _⟩
    | setMetadata c key value => exact ⟨rfl, nodeAddresses_updateSubCluster _ _ _ _⟩
    | _ => exact hfirst.elim

/-! ## A turn -/

theorem reduces_consolidation (config : ClusterManagerConfig)
    (clusters : List (ℕ × SubClusterMetadata)) :
    ∀ command ∈ executeActions (decideConsolidation config clusters), Reduces command := by
  intro command hcommand
  rcases mem_consolidation hcommand with ⟨entry, -, -, -, rfl⟩ | ⟨c, rfl⟩
  · trivial
  · trivial

/-- Different drained sub-clusters are deleted one after the other. -/
theorem along_deletes {clusterIds : List ℕ} (hnodup : clusterIds.Nodup)
    (hdrained : ∀ c ∈ clusterIds, sm.isDrained c) :
    Along applyStep DeletesDrained sm (clusterIds.map .deleteSubCluster) := by
  induction clusterIds generalizing sm with
  | nil => trivial
  | cons clusterId clusterIds ih =>
    rw [List.nodup_cons] at hnodup
    rw [List.map_cons, along_cons_of_some rfl]
    refine ⟨?_, ih hnodup.2 fun c hc => ?_⟩
    · rintro c heq
      rw [← ManagementCommand.deleteSubCluster.inj heq]
      exact hdrained clusterId List.mem_cons_self
    · have hne : clusterId ≠ c := fun heq => hnodup.1 (heq ▸ hc)
      rw [isDrained, apply, getSubCluster_erase, if_neg hne]
      exact hdrained c (List.mem_cons_of_mem _ hc)

/-- A consolidation deletes only what is drained when its turn comes. -/
theorem along_consolidation (horder : sm.IterationOrder order) :
    Along applyStep DeletesDrained sm
      (executeActions (decideConsolidation config (sm.entries order))) := by
  rw [decideConsolidation, executeActions, List.flatMap_append, ← executeActions, ← executeActions,
    along_append (run_applyStep _ _), executeActions_destroys horder]
  have hnodup : order.Nodup := horder.nodup_iff.mpr Std.ExtTreeMap.nodup_keys
  refine ⟨along_deletes (hnodup.filter _) fun c hc => (List.mem_filter.mp hc).2, ?_⟩
  rcases drains_cases config horder with hnil | ⟨c, hdrain, -, -⟩
  · rw [hnil]
    trivial
  · rw [hdrain]
    exact ⟨fun c' heq => absurd heq (by simp), fun _ _ => trivial⟩

theorem filter_leftOf (n : ℕ) (done : List ℕ) (c : ℕ) (nodeIds : List ℕ) :
    (leftOf n done c nodeIds).filter (· != n) = leftOf n (done ++ [c]) c nodeIds := by
  unfold leftOf
  rw [if_pos (List.mem_append_right _ (List.mem_singleton.mpr rfl))]
  by_cases hdone : c ∈ done
  · rw [if_pos hdone, List.filter_filter]
    simp
  · rw [if_neg hdone]

theorem leftOf_of_ne (n : ℕ) (done : List ℕ) {c x : ℕ} (nodeIds : List ℕ) (hne : c ≠ x) :
    leftOf n (done ++ [c]) x nodeIds = leftOf n done x nodeIds := by
  simp [leftOf, Ne.symm hne]

theorem Handled.remove (h : Handled sm n done log) (c : ℕ) :
    Handled sm n (done ++ [c]) (log ++ [.removeNodeFromSubCluster c n]) := by
  have hreduces : ∀ command ∈ [ManagementCommand.removeNodeFromSubCluster c n],
      Reduces command := by simp [Reduces]
  have hframe := frame_applyAll (sm.applyAll log) hreduces
  have hget : ∀ x, (sm.applyAll (log ++ [.removeNodeFromSubCluster c n])).getSubCluster x =
      if c = x then ((sm.applyAll log).getSubCluster x).map (SubClusterMetadata.removeNode n)
      else (sm.applyAll log).getSubCluster x := by
    intro x
    rw [applyAll_append]
    exact getSubCluster_updateSubCluster _ _ _ _ _
  refine ⟨?_, ?_, ?_, ?_, ?_⟩
  · intro x metadata hmeta
    rw [hget] at hmeta
    by_cases hx : c = x
    · rw [if_pos hx] at hmeta
      obtain ⟨before, hbefore, rfl⟩ := Option.map_eq_some_iff.mp hmeta
      obtain ⟨former, hformer, hnodes⟩ := h.kept x before hbefore
      refine ⟨former, hformer, ?_⟩
      rw [SubClusterMetadata.removeNode, hnodes, hx]
      exact filter_leftOf n done x former.nodeIds
    · rw [if_neg hx] at hmeta
      obtain ⟨former, hformer, hnodes⟩ := h.kept x metadata hmeta
      refine ⟨former, hformer, ?_⟩
      rw [hnodes, leftOf_of_ne n done former.nodeIds hx]
  · intro x former hformer hgone
    rw [hget] at hgone
    refine h.gone x former hformer ?_
    by_cases hx : c = x
    · rw [if_pos hx] at hgone
      exact Option.map_eq_none_iff.mp hgone
    · rwa [if_neg hx] at hgone
  · refine (along_append (run_applyStep sm log)).mpr ⟨h.deletes, ?_⟩
    exact ⟨fun x heq => absurd heq (by simp), fun _ _ => trivial⟩
  · rw [applyAll_append, hframe.1, h.nextClusterId]
  · rw [applyAll_append, hframe.2, h.nodeAddresses]

theorem Handled.consolidate (h : Handled sm n done log)
    (horder : (sm.applyAll log).IterationOrder order) :
    Handled sm n done (log ++
      executeActions (decideConsolidation config ((sm.applyAll log).entries order))) := by
  have hround := round_consolidate config horder
  have hframe := frame_applyAll (sm.applyAll log)
    (reduces_consolidation config ((sm.applyAll log).entries order))
  rw [ManagementStateMachine.consolidate, ← applyAll_append] at hround
  rw [← applyAll_append] at hframe
  refine ⟨?_, ?_, ?_, ?_, ?_⟩
  · intro c metadata' hmeta'
    obtain ⟨metadata, hmeta⟩ := Option.isSome_iff_exists.mp (hround.old c (by rw [hmeta']; rfl))
    obtain ⟨former, hformer, hnodes⟩ := h.kept c metadata hmeta
    exact ⟨former, hformer, (hround.nodeIds c metadata metadata' hmeta hmeta').trans hnodes⟩
  · intro c former hformer hgone
    cases hmeta : (sm.applyAll log).getSubCluster c with
    | none => exact h.gone c former hformer hmeta
    | some metadata =>
      -- it was empty, so that the node was all it had
      obtain ⟨former', hformer', hnodes⟩ := h.kept c metadata hmeta
      obtain rfl : former' = former := Option.some.inj (hformer'.symm.trans hformer)
      rw [(hround.deleted c metadata hmeta hgone).2, leftOf] at hnodes
      split at hnodes
      · exact hnodes.symm
      · rw [← hnodes]
        rfl
  · exact (along_append (run_applyStep sm log)).mpr ⟨h.deletes, along_consolidation horder⟩
  · rw [hframe.1, h.nextClusterId]
  · rw [hframe.2, h.nodeAddresses]

/-- What a turn adds to the log. -/
theorem handleTurn_cases {turn : ℕ × List ℕ} {log' : List ManagementCommand}
    (h : handleTurn config sm n log turn = some log') :
    log' = log ++ [.removeNodeFromSubCluster turn.1 n] ∨
      ∃ removed, removed = sm.applyAll (log ++ [.removeNodeFromSubCluster turn.1 n]) ∧
        removed.IterationOrder turn.2 ∧ log' = (log ++ [.removeNodeFromSubCluster turn.1 n]) ++
          executeActions (decideConsolidation config (removed.entries turn.2)) := by
  obtain ⟨commands, hcommands, rfl⟩ := Option.map_eq_some_iff.mp h
  simp only [removeNodeFromSubCluster] at hcommands
  split at hcommands
  · split at hcommands
    · next horder =>
      refine Or.inr ⟨_, rfl, ?_, ?_⟩
      · rw [applyAll_append]
        exact horder
      · rw [← Option.some.inj hcommands, applyAll_append, List.append_assoc]
        rfl
    · exact absurd hcommands (by simp)
  · rw [← Option.some.inj hcommands]
    exact Or.inl rfl

theorem Handled.turn (h : Handled sm n done log) {turn : ℕ × List ℕ}
    {log' : List ManagementCommand} (hturn : handleTurn config sm n log turn = some log') :
    Handled sm n (done ++ [turn.1]) log' := by
  rcases handleTurn_cases hturn with rfl | ⟨removed, rfl, horder, rfl⟩
  · exact h.remove turn.1
  · exact (h.remove turn.1).consolidate horder

theorem exists_removeNodeFromSubCluster (config : ClusterManagerConfig)
    (sm : ManagementStateMachine) (c n : ℕ) :
    ∃ order commands, removeNodeFromSubCluster config sm c n order = some commands := by
  refine ⟨(sm.apply (.removeNodeFromSubCluster c n)).2.listSubClusters, ?_⟩
  rw [← Option.isSome_iff_exists, removeNodeFromSubCluster]
  split
  · rw [if_pos (iterationOrder_listSubClusters _)]
    rfl
  · rfl

/-- Handling a failed node runs to its end: there is always some order of the map. -/
theorem exists_handledFailedNode (config : ClusterManagerConfig) (sm : ManagementStateMachine)
    (n : ℕ) : ∃ log, HandledFailedNode config sm n log := by
  have henabled : ∀ log c, ∃ order log', handleTurn config sm n log (c, order) = some log' := by
    intro log c
    obtain ⟨order, commands, hcommands⟩ :=
      exists_removeNodeFromSubCluster config (sm.applyAll log) c n
    exact ⟨order, log ++ commands, by rw [handleTurn, hcommands]; rfl⟩
  obtain ⟨turns, log, hturns, hrun⟩ := exists_run_of_enabled henabled []
    (affectedClusters (sm.entries sm.listSubClusters) n)
  exact ⟨log, sm.listSubClusters, turns, iterationOrder_listSubClusters sm, hturns, hrun⟩

theorem handled_nil : Handled sm n [] [] := by
  refine ⟨fun c metadata hmeta => ⟨metadata, hmeta, rfl⟩, ?_, trivial, rfl, rfl⟩
  intro c former hformer hgone
  exact absurd (hformer.symm.trans hgone) (by simp)

/-- A sub-cluster that is not affected does not have the node. -/
theorem HandledFailedNode.handled (h : HandledFailedNode config sm n log) :
    ∃ done, Handled sm n done log ∧
      ∀ c former, sm.getSubCluster c = some former →
        leftOf n done c former.nodeIds = former.nodeIds.filter (· != n) := by
  obtain ⟨order, turns, horder, hturns, hrun⟩ := h
  have hturn : ∀ done log turn log', Handled sm n (done.map Prod.fst) log → True →
      handleTurn config sm n log turn = some log' →
      Handled sm n ((done ++ [turn]).map Prod.fst) log' := by
    intro done log turn log' hlog _ heq
    rw [List.map_append]
    exact hlog.turn heq
  refine ⟨_, run_history hturn handled_nil along_true hrun, fun c former hformer => ?_⟩
  rw [hturns, leftOf]
  by_cases hc : sm.hasMember c n
  · rw [if_pos ((mem_affectedClusters horder).mpr hc)]
  · rw [if_neg fun hmem => hc ((mem_affectedClusters horder).mp hmem), eq_comm,
      List.filter_eq_self]
    rintro x hx
    rw [bne_iff_ne]
    rintro rfl
    exact hc (hasMember_iff.mpr ⟨former, hformer, hx⟩)

end

/-- Handling a failed node removes exactly that node. -/
theorem handleFailedNode_removes (config : ClusterManagerConfig) (sm : ManagementStateMachine)
    (n : ℕ) {log : List ManagementCommand} (hlog : HandledFailedNode config sm n log) :
    (∀ c, ¬ (sm.applyAll log).hasMember c n) ∧
    (∀ c metadata, (sm.applyAll log).getSubCluster c = some metadata →
      ∃ former, sm.getSubCluster c = some former ∧
        metadata.nodeIds = former.nodeIds.filter (· != n)) ∧
    (∀ c former, sm.getSubCluster c = some former → (sm.applyAll log).getSubCluster c = none →
      (∀ m ∈ former.nodeIds, m = n) ∧
      ∃ before after, log = before ++ .deleteSubCluster c :: after) ∧
    (∀ before c after, log = before ++ .deleteSubCluster c :: after →
      ∃ metadata, (sm.applyAll before).getSubCluster c = some metadata ∧
        metadata.isDraining ∧ metadata.nodeIds = []) ∧
    (sm.applyAll log).nextClusterId = sm.nextClusterId ∧
    (sm.applyAll log).nodeAddresses = sm.nodeAddresses := by
  obtain ⟨done, h, hleft⟩ := hlog.handled
  have hkept : ∀ c metadata, (sm.applyAll log).getSubCluster c = some metadata →
      ∃ former, sm.getSubCluster c = some former ∧
        metadata.nodeIds = former.nodeIds.filter (· != n) := by
    intro c metadata hmeta
    obtain ⟨former, hformer, hnodes⟩ := h.kept c metadata hmeta
    exact ⟨former, hformer, hnodes.trans (hleft c former hformer)⟩
  refine ⟨?_, hkept, ?_, ?_, h.nextClusterId, h.nodeAddresses⟩
  · intro c hmember
    obtain ⟨metadata, hmeta, hmem⟩ := hasMember_iff.mp hmember
    obtain ⟨former, -, hnodes⟩ := hkept c metadata hmeta
    rw [hnodes, List.mem_filter, bne_iff_ne] at hmem
    exact hmem.2 rfl
  · intro c former hformer hgone
    refine ⟨fun m hm => ?_, exists_delete_of_gone hformer hgone⟩
    have hnot := List.filter_eq_nil_iff.mp (h.gone c former hformer hgone) m hm
    simpa using hnot
  · intro before c after heq
    have hdeletes := h.deletes
    rw [heq, along_append (run_applyStep sm before)] at hdeletes
    have hdrained := hdeletes.2.1 c rfl
    obtain ⟨metadata, hmeta, hempty⟩ := (Option.any_eq_true _ _).mp hdrained
    rw [Bool.and_eq_true, List.isEmpty_iff] at hempty
    exact ⟨metadata, hmeta, hempty⟩

/-- Node 1 is in two sub-clusters, one of them draining and without other nodes. -/
def threeHomes : ManagementStateMachine :=
  applyAll {} [.createSubCluster [1], .createSubCluster [2, 1, 3], .createSubCluster [2],
    .setMetadata 1 "draining" "true"]

/-- What handling node 1 commits there, in one of the orders. -/
def threeHomesLog : List ManagementCommand :=
  [.removeNodeFromSubCluster 1 1, .deleteSubCluster 1, .setMetadata 3 "draining" "true",
    .removeNodeFromSubCluster 2 1]

/-- The draining sub-cluster is deleted once the node is removed from it, and another one is
drained. -/
theorem handleFailedNode_removes_threeHomes :
    HandledFailedNode {} threeHomes 1 threeHomesLog ∧
      (∀ c, ¬ (threeHomes.applyAll threeHomesLog).hasMember c 1) ∧
      (∃ before after, threeHomesLog = before ++ .deleteSubCluster 1 :: after ∧
        ∃ metadata, (threeHomes.applyAll before).getSubCluster 1 = some metadata ∧
          metadata.isDraining ∧ metadata.nodeIds = []) ∧
      (threeHomes.applyAll threeHomesLog).nextClusterId = 4 := by
  have hlog : HandledFailedNode {} threeHomes 1 threeHomesLog :=
    ⟨[1, 2, 3], [(1, [1, 2, 3]), (2, [2, 3])], by decide, by decide, by decide⟩
  obtain ⟨hnone, -, hgone, hdeletes, hnext, -⟩ := handleFailedNode_removes {} threeHomes 1 hlog
  obtain ⟨former, hformer⟩ : ∃ former, threeHomes.getSubCluster 1 = some former :=
    Option.isSome_iff_exists.mp (by decide)
  have hdeleted : (threeHomes.applyAll threeHomesLog).getSubCluster 1 = none :=
    Option.isNone_iff_eq_none.mp (by decide)
  obtain ⟨-, before, after, heq⟩ := hgone 1 former hformer hdeleted
  exact ⟨hlog, hnone, ⟨before, after, heq, hdeletes before 1 after heq⟩, hnext⟩

end ManagementStateMachine

end Raftoral

import Raftoral.Lib.Majority
import Raftoral.Raft.Codec
import Raftoral.Raft.Node
import Raftoral.Raft.StorageLog

/-!
# How a sub-cluster starts

When a sub-cluster is created, `run_event_observer` starts a node of it on every machine in
the list, each on its own: the first one as a cluster of one, the others with the whole list
as voters. Two of them can be elected by disjoint sets of voters as soon as the others form a
majority without the first.
-/

namespace Raftoral

open Majority

variable {σ Event S : Type}

/-! ## The runtimes of a sub-cluster -/

namespace WorkflowRuntime

/-- `create_storage` for a configuration and the initial voters. -/
abbrev CreateStorage (S : Type) := RaftNodeConfig → ConfState → Except StorageError S

def newSingleNode (createStorage : CreateStorage S) (config : RaftNodeConfig) (peers : Peers)
    (stateMachine : σ) : Except StorageError (RaftNode σ Event S) :=
  (createStorage config (RaftNode.singleNodeConfState config)).map
    (RaftNode.newSingleNode config peers stateMachine)

/-- All nodes are voters. -/
def newJoiningNode (createStorage : CreateStorage S) (config : RaftNodeConfig) (peers : Peers)
    (stateMachine : σ) (initialVoters : List ℕ) : Except StorageError (RaftNode σ Event S) :=
  let confState : ConfState := { voters := initialVoters }
  (createStorage config confState).map
    (RaftNode.newWithConfState config peers stateMachine confState)

end WorkflowRuntime

/-- What a node does when it observes `SubClusterCreated`: the node of the sub-cluster it
starts. Errors are logged and the event is skipped. -/
def onSubClusterCreated (createStorage : WorkflowRuntime.CreateStorage S) (peers : Peers)
    (stateMachine : σ) (storagePath : Option String) (nodeId clusterId : ℕ) (nodeIds : List ℕ) :
    Option (RaftNode σ Event S) :=
  if ¬ nodeIds.contains nodeId then none
  else
    let isFirstNode := nodeIds.head? == some nodeId
    -- cluster 0 is reserved for the management cluster
    if clusterId = 0 then none
    else
      let config : RaftNodeConfig := { nodeId, clusterId, snapshotInterval := 100, storagePath }
      let created :=
        if isFirstNode then WorkflowRuntime.newSingleNode createStorage config peers stateMachine
        else WorkflowRuntime.newJoiningNode createStorage config peers stateMachine nodeIds
      match created with
      | .ok node => some node
      | .error _ => none

/-- The initial voter set of a node over a new storage, which is what its constructor was given;
over one that was used before, raft-rs begins with the configuration that is stored. -/
def RaftNode.initialVoters (n : RaftNode σ Event S) : Finset ℕ := n.cachedConfState.voters.toFinset

section
variable {createStorage : WorkflowRuntime.CreateStorage S} {peers : Peers} {stateMachine : σ}
  {storagePath : Option String} {nodeId clusterId : ℕ} {nodeIds : List ℕ}

/-- The voters a started node knows: itself, or the whole list. -/
theorem initialVoters_of_started {node : RaftNode σ Event S}
    (h : onSubClusterCreated createStorage peers stateMachine storagePath nodeId clusterId nodeIds =
      some node) :
    clusterId ≠ 0 ∧ nodeId ∈ nodeIds ∧ node.initialVoters =
      if nodeIds.head? = some nodeId then {nodeId} else nodeIds.toFinset := by
  unfold onSubClusterCreated at h
  by_cases hmem : nodeIds.contains nodeId
  · rw [if_neg (not_not.mpr hmem)] at h
    by_cases hzero : clusterId = 0
    · simp [hzero] at h
    · rw [if_neg hzero] at h
      refine ⟨hzero, List.contains_iff_mem.mp hmem, ?_⟩
      -- the first node of the list makes a cluster of its own, the others join it
      by_cases hfirst : nodeIds.head? = some nodeId
      · rw [if_pos hfirst]
        simp only [hfirst, BEq.rfl, if_true, WorkflowRuntime.newSingleNode] at h
        cases hs : createStorage { nodeId, clusterId, snapshotInterval := 100, storagePath }
          (RaftNode.singleNodeConfState
            { nodeId, clusterId, snapshotInterval := 100, storagePath }) with
        | error e => simp [hs, Except.map] at h
        | ok store =>
          simp only [hs, Except.map, Option.some.injEq] at h
          subst h
          rfl
      · rw [if_neg hfirst]
        have hne : (nodeIds.head? == some nodeId) = false := by simpa using hfirst
        simp only [hne, Bool.false_eq_true, if_false, WorkflowRuntime.newJoiningNode] at h
        cases hs : createStorage { nodeId, clusterId, snapshotInterval := 100, storagePath }
          { voters := nodeIds } with
        | error e => simp [hs, Except.map] at h
        | ok store =>
          simp only [hs, Except.map, Option.some.injEq] at h
          subst h
          rfl
  · rw [if_pos hmem] at h
    exact absurd h (by simp)

/-- Every listed node starts, if its storage opens. -/
theorem started_of_mem (hopen : ∀ config cs, ∃ store, createStorage config cs = .ok store)
    (hzero : clusterId ≠ 0) (hmem : nodeId ∈ nodeIds) :
    ∃ node : RaftNode σ Event S,
      onSubClusterCreated createStorage peers stateMachine storagePath nodeId clusterId nodeIds =
        some node := by
  unfold onSubClusterCreated
  rw [if_neg (not_not.mpr (List.contains_iff_mem.mpr hmem)), if_neg hzero]
  unfold WorkflowRuntime.newSingleNode WorkflowRuntime.newJoiningNode
  by_cases hfirst : (nodeIds.head? == some nodeId) = true
  · obtain ⟨store, hs⟩ := hopen { nodeId, clusterId, snapshotInterval := 100, storagePath }
      (RaftNode.singleNodeConfState { nodeId, clusterId, snapshotInterval := 100, storagePath })
    simp [hfirst, hs, Except.map]
  · obtain ⟨store, hs⟩ := hopen { nodeId, clusterId, snapshotInterval := 100, storagePath }
      { voters := nodeIds }
    simp [hfirst, hs, Except.map]

/-- No two members of the new sub-cluster can be elected by disjoint sets of voters. -/
def NoSplit (createStorage : WorkflowRuntime.CreateStorage S) (peers : Peers) (stateMachine : σ)
    (storagePath : Option String) (Event : Type) (clusterId : ℕ) (nodeIds : List ℕ) : Prop :=
  ∀ a ∈ nodeIds, ∀ b ∈ nodeIds, ∀ m n : RaftNode σ Event S,
    onSubClusterCreated createStorage peers stateMachine storagePath a clusterId nodeIds = some m →
    onSubClusterCreated createStorage peers stateMachine storagePath b clusterId nodeIds = some n →
    Meet m.initialVoters n.initialVoters

/-- The nodes after the first are a majority of the list if there are at least two of them. -/
theorem length_le_of_noSplit (hopen : ∀ config cs, ∃ store, createStorage config cs = .ok store)
    (hnodup : nodeIds.Nodup) (hzero : clusterId ≠ 0)
    (h : NoSplit createStorage peers stateMachine storagePath Event clusterId nodeIds) :
    nodeIds.length ≤ 2 := by
  match nodeIds, hnodup, h with
  | [], _, _ => simp
  | [a], _, _ => simp
  | first :: second :: rest, hnodup, h =>
    have hne : first ≠ second := by
      intro heq
      exact absurd hnodup (by simp [heq])
    have hfirst : first ∈ first :: second :: rest := List.mem_cons_self
    have hsecond : second ∈ first :: second :: rest := by simp
    have hstarts : ∀ a ∈ first :: second :: rest, ∃ node : RaftNode σ Event S,
        onSubClusterCreated createStorage peers stateMachine storagePath a clusterId
          (first :: second :: rest) = some node := fun a ha => started_of_mem hopen hzero ha
    obtain ⟨m, hm⟩ := hstarts first hfirst
    obtain ⟨n, hn⟩ := hstarts second hsecond
    have hmeet := h first hfirst second hsecond m n hm hn
    rw [(initialVoters_of_started hm).2.2, (initialVoters_of_started hn).2.2,
      if_pos List.head?_cons, if_neg (by simpa using hne), meet_singleton_iff,
      forall_mem_iff (List.mem_toFinset.mpr hfirst), List.toFinset_card_of_nodup hnodup] at hmeet
    exact hmeet

end

/-- A sub-cluster cannot start split exactly if it has at most two nodes, or is refused. -/
theorem sub_cluster_no_split_iff (createStorage : WorkflowRuntime.CreateStorage S) (peers : Peers)
    (stateMachine : σ) (storagePath : Option String) (Event : Type)
    (hopen : ∀ config cs, ∃ store, createStorage config cs = .ok store) (clusterId : ℕ)
    (nodeIds : List ℕ) (hnodup : nodeIds.Nodup) :
    NoSplit createStorage peers stateMachine storagePath Event clusterId nodeIds ↔
      nodeIds.length ≤ 2 ∨ clusterId = 0 := by
  have hcard : nodeIds.toFinset.card = nodeIds.length := List.toFinset_card_of_nodup hnodup
  constructor
  · intro h
    by_cases hzero : clusterId = 0
    · exact Or.inr hzero
    · exact Or.inl (length_le_of_noSplit hopen hnodup hzero h)
  · intro hsmall a ha b hb m n hm hn
    obtain ⟨hzero, -, hma⟩ := initialVoters_of_started hm
    obtain ⟨-, -, hnb⟩ := initialVoters_of_started hn
    have hlen : nodeIds.toFinset.card ≤ 2 := by
      rw [hcard]
      exact hsmall.resolve_right hzero
    rw [hma, hnb]
    -- the first node stands alone, and is in every majority of two
    have hmeet : ∀ x ∈ nodeIds, Meet {x} nodeIds.toFinset := fun x hx =>
      meet_singleton_iff.mpr ((forall_mem_iff (List.mem_toFinset.mpr hx)).mpr hlen)
    by_cases hfa : nodeIds.head? = some a
    · rw [if_pos hfa]
      by_cases hfb : nodeIds.head? = some b
      · rw [if_pos hfb, Option.some.inj (hfa.symm.trans hfb)]
        exact meet_self {b}
      · rw [if_neg hfb]
        exact hmeet a ha
    · rw [if_neg hfa]
      by_cases hfb : nodeIds.head? = some b
      · rw [if_pos hfb]
        exact (hmeet b hb).symm
      · rw [if_neg hfb]
        exact meet_self nodeIds.toFinset

section
open scoped Codec

/-- A new directory for every sub-cluster. -/
def freshStorage : WorkflowRuntime.CreateStorage RocksDBStorage := fun config cs =>
  (RaftNode.createStorage Faults.none config cs {}).1

theorem freshStorage_opens (config : RaftNodeConfig) (cs : ConfState) :
    ∃ store, freshStorage config cs = .ok store := by
  obtain ⟨store, hopen, -⟩ := open_fresh_represents config.nodeId cs
  exact ⟨store, hopen⟩

/-- Two nodes cannot be split. -/
theorem sub_cluster_no_split_two :
    NoSplit freshStorage (fun _ => none) ({} : KvStateMachine) none KvEvent 7 [1, 2] :=
  (sub_cluster_no_split_iff freshStorage (fun _ => none) ({} : KvStateMachine) none KvEvent
    freshStorage_opens 7 [1, 2] (by decide)).mpr (Or.inl (by decide))

/-- Three nodes can: the first elects itself, the other two elect one of them. -/
theorem sub_cluster_splits :
    ¬ NoSplit freshStorage (fun _ => none) ({} : KvStateMachine) none KvEvent 7 [1, 2, 3] := by
  intro h
  have hlen := length_le_of_noSplit freshStorage_opens (by decide) (by decide) h
  exact absurd hlen (by decide)

end

end Raftoral

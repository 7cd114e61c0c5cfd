import Mathlib.Algebra.Order.Floor.Div
import Raftoral.Management.PlannerChoices
import Raftoral.Management.SequentialConsolidation

/-!
# Placement

`add_node` decides where a node is placed and has the actions of the decision executed: the node is
added to the smallest sub-cluster that is not draining, if that one is below the target size, or a
sub-cluster is created with it. The decision does not look where the node is already.
-/

namespace Raftoral

open ManagementStateMachine ClusterManager Selection Transition

namespace ManagementStateMachine

/-- The state after a placement; the map is iterated in an order. -/
def place (config : ClusterManagerConfig) (sm : ManagementStateMachine) (nodeId : ℕ)
    (order : List ℕ) : ManagementStateMachine :=
  sm.applyAll (executeActions (decideNodePlacement config (sm.entries order) nodeId))

/-- The decision, for the sub-cluster that comes first in the sort. -/
def placementAt (config : ClusterManagerConfig) (n : ℕ) :
    Option (ℕ × SubClusterMetadata) → List ClusterAction
  | some (c, metadata) =>
    if metadata.nodeIds.length < config.targetClusterSize then [.addNodeToCluster c n]
    else [.createCluster [n]]
  | none => [.createCluster [n]]

section
variable {config : ClusterManagerConfig} {sm : ManagementStateMachine} {order : List ℕ} {n : ℕ}

/-- A placement looks at nothing else. -/
theorem decideNodePlacement_eq (config : ClusterManagerConfig)
    (clusters : List (ℕ × SubClusterMetadata)) (n : ℕ) :
    decideNodePlacement config clusters n =
      placementAt config n (sortBySize (nonDraining clusters)).head? := by
  rw [decideNodePlacement]
  cases clusters with
  | nil => rfl
  | cons entry clusters => rfl

theorem place_of_head? {c : ℕ} {metadata : SubClusterMetadata}
    (hhead : (sortBySize (nonDraining (sm.entries order))).head? = some (c, metadata)) :
    sm.place config n order =
      if metadata.nodeIds.length < config.targetClusterSize then
        (sm.apply (.addNodeToSubCluster c n)).2
      else (sm.apply (.createSubCluster [n])).2 := by
  rw [place, decideNodePlacement_eq, hhead, placementAt]
  by_cases hlt : metadata.nodeIds.length < config.targetClusterSize
  · rw [if_pos hlt, if_pos hlt]
    rfl
  · rw [if_neg hlt, if_neg hlt]
    rfl

/-- A placement adds the node to one of the smallest sub-clusters if they are below the target
size, and creates a sub-cluster otherwise. -/
theorem place_cases (config : ClusterManagerConfig) (n : ℕ) (horder : sm.IterationOrder order) :
    (∃ c metadata, Smallest sm c metadata ∧ metadata.nodeIds.length < config.targetClusterSize ∧
      sm.place config n order = (sm.apply (.addNodeToSubCluster c n)).2) ∨
    ((∀ c metadata, Smallest sm c metadata →
        config.targetClusterSize ≤ metadata.nodeIds.length) ∧
      sm.place config n order = (sm.apply (.createSubCluster [n])).2) := by
  cases hhead : (sortBySize (nonDraining (sm.entries order))).head? with
  | none =>
    refine Or.inr ⟨fun c metadata hsmallest => ?_, ?_⟩
    · have hmem := ((least_nonDraining_iff horder).mpr hsmallest).1
      rw [head?_insertionSort_eq_none.mp hhead] at hmem
      exact absurd hmem List.not_mem_nil
    · rw [place, decideNodePlacement_eq, hhead]
      rfl
  | some entry =>
    have hfirst : Smallest sm entry.1 entry.2 := smallest_of_head? horder hhead
    by_cases hlt : entry.2.nodeIds.length < config.targetClusterSize
    · exact Or.inl ⟨entry.1, entry.2, hfirst, hlt, by rw [place_of_head? hhead, if_pos hlt]⟩
    · refine Or.inr ⟨fun c metadata hsmallest => ?_, by rw [place_of_head? hhead, if_neg hlt]⟩
      have hle := hfirst.2.2 c metadata hsmallest.1 hsmallest.2.1
      omega

end

/-! ## A node that is placed again -/

/-- Placing a node once more is harmless: the smallest sub-clusters have room and the node is in
each of them, or they have no room and the number for the next sub-cluster is in use for one with
exactly this node. -/
def Harmless (config : ClusterManagerConfig) (sm : ManagementStateMachine) (n : ℕ) : Prop :=
  ∀ c metadata, Smallest sm c metadata →
    (metadata.nodeIds.length < config.targetClusterSize → n ∈ metadata.nodeIds) ∧
    (config.targetClusterSize ≤ metadata.nodeIds.length →
      ∀ m, sm.hasMember sm.nextClusterId m ↔ m = n)

/-- Placing a node again that is in some sub-cluster leaves every membership as it was, in whatever
order the map is iterated, exactly when it is harmless. -/
theorem place_again_iff_harmless (config : ClusterManagerConfig) (sm : ManagementStateMachine)
    (n : ℕ) (hhoused : ∃ c, sm.isActive c ∧ sm.hasMember c n) :
    (∀ order, sm.IterationOrder order → ∀ c m,
      (sm.place config n order).hasMember c m = sm.hasMember c m) ↔ Harmless config sm n := by
  constructor
  · intro h c metadata hsmallest
    obtain ⟨order, horder, hhead⟩ := hsmallest.exists_order
    have hsame := h order horder
    rw [place_of_head? hhead] at hsame
    constructor
    · intro hlt
      rw [if_pos hlt] at hsame
      have hadded : (sm.apply (.addNodeToSubCluster c n)).2.hasMember c n :=
        hasMember_addNode.mpr (Or.inr ⟨rfl, rfl, by rw [hsmallest.1]; rfl⟩)
      rw [hsame, hasMember_of_getSubCluster hsmallest.1] at hadded
      exact List.contains_iff_mem.mp hadded
    · intro hle m
      rw [if_neg (Nat.not_lt.mpr hle)] at hsame
      rw [← hsame, hasMember_createSubCluster, if_pos rfl]
      simp
  · rintro h order horder c m
    rcases place_cases config n horder with ⟨c', metadata, hsmallest, hlt, heq⟩ | ⟨hfull, heq⟩
    · have hmem := (h c' metadata hsmallest).1 hlt
      rw [heq, Bool.eq_iff_iff, hasMember_addNode, or_iff_left_iff_imp]
      rintro ⟨rfl, rfl, -⟩
      exact hasMember_iff.mpr ⟨metadata, hsmallest.1, hmem⟩
    · obtain ⟨_, hactive, -⟩ := hhoused
      obtain ⟨c', metadata, hsmallest⟩ := exists_smallest hactive
      have hnext := (h c' metadata hsmallest).2 (hfull c' metadata hsmallest)
      rw [heq, hasMember_createSubCluster]
      by_cases hc : sm.nextClusterId = c
      · rw [if_pos hc, ← hc, Bool.eq_iff_iff, hnext m]
        simp
      · rw [if_neg hc]

/-- A sub-cluster at the target size. -/
def fullCluster : ManagementStateMachine := applyAll {} [.createSubCluster [1, 2, 3]]

/-- A node of it that is placed again gets a sub-cluster of its own. -/
theorem place_again_fullCluster :
    ¬ ∀ (sm : ManagementStateMachine) config n, (∃ c, sm.isActive c ∧ sm.hasMember c n) →
      ∀ order, sm.IterationOrder order → ∀ c m,
        (sm.place config n order).hasMember c m = sm.hasMember c m := by
  intro h
  have hsame := h fullCluster {} 1 ⟨1, by decide, by decide⟩ [1] (by decide) 2 1
  revert hsame
  decide

/-- A sub-cluster with room. -/
def roomyCluster : ManagementStateMachine := applyAll {} [.createSubCluster [1, 2]]

/-- There a node may be placed again. -/
theorem place_again_iff_harmless_roomyCluster :
    Harmless {} roomyCluster 1 ∧
      ∀ order, roomyCluster.IterationOrder order → ∀ c m,
        (roomyCluster.place {} 1 order).hasMember c m = roomyCluster.hasMember c m := by
  have hharmless : Harmless {} roomyCluster 1 := by
    rintro c metadata ⟨hget, -, -⟩
    rw [roomyCluster, applyAll_cons, applyAll_nil, apply, getSubCluster_insert] at hget
    by_cases hc : 1 = c
    · rw [if_pos hc] at hget
      rw [← Option.some.inj hget]
      exact ⟨fun _ => by decide, fun hle => absurd hle (by decide)⟩
    · rw [if_neg hc] at hget
      exact absurd hget (by simp [getSubCluster])
  exact ⟨hharmless,
    (place_again_iff_harmless {} roomyCluster 1 ⟨1, by decide, by decide⟩).mpr hharmless⟩

/-! ## Nodes placed one after the other -/

/-- The placement of a node, in some order of the map. -/
def placeStep (config : ClusterManagerConfig) (sm : ManagementStateMachine)
    (arrival : ℕ × List ℕ) : Option ManagementStateMachine :=
  if sm.IterationOrder arrival.2 then some (sm.place config arrival.1 arrival.2) else none

/-- The nodes fill the sub-clusters evenly. -/
structure EvenlyFilled (config : ClusterManagerConfig) (nodes : List ℕ)
    (sm : ManagementStateMachine) : Prop where
  home : ∀ n ∈ nodes, ∃! c, sm.hasMember c n
  sizes : ∀ c metadata, sm.getSubCluster c = some metadata →
    1 ≤ metadata.nodeIds.length ∧ metadata.nodeIds.length ≤ config.targetClusterSize
  full : ∀ c metadata c' metadata', sm.getSubCluster c = some metadata →
    sm.getSubCluster c' = some metadata' → metadata.nodeIds.length < config.targetClusterSize →
    metadata'.nodeIds.length < config.targetClusterSize → c = c'
  count : sm.clusters.card = nodes.length ⌈/⌉ config.targetClusterSize

/-- The members of the sub-clusters: all are full, or all but one. -/
def FullButOne (target nodes created : ℕ) (sm : ManagementStateMachine) : Prop :=
  nodes = created * target ∧
      (∀ c metadata, sm.getSubCluster c = some metadata → metadata.nodeIds.length = target) ∨
    ∃ c metadata, sm.getSubCluster c = some metadata ∧ 1 ≤ metadata.nodeIds.length ∧
      metadata.nodeIds.length < target ∧
      nodes + target = created * target + metadata.nodeIds.length ∧
      ∀ c' metadata', sm.getSubCluster c' = some metadata' → c ≠ c' →
        metadata'.nodeIds.length = target

/-- The nodes placed so far are in the sub-clusters created so far, one of which may have room. -/
structure Filling (target : ℕ) (nodes : List ℕ) (created : ℕ) (sm : ManagementStateMachine) :
    Prop where
  active : ∀ c metadata, sm.getSubCluster c = some metadata → metadata.isDraining = false
  home : ∀ n ∈ nodes, ∃! c, sm.hasMember c n
  placed : ∀ n c, sm.hasMember c n → n ∈ nodes
  ids : ∀ c, (sm.getSubCluster c).isSome → ∃ i < created, c = U32.add i 1
  next : sm.nextClusterId = U32.add created 1
  card : sm.clusters.card = created
  filled : FullButOne target nodes.length created sm

section
variable {config : ClusterManagerConfig} {sm : ManagementStateMachine} {order : List ℕ}
  {target n created : ℕ} {nodes : List ℕ}

theorem filling_new : Filling target [] 0 {} := by
  refine ⟨?_, by simp, ?_, ?_, rfl, rfl, Or.inl ⟨by simp, ?_⟩⟩
  · intro c metadata h
    simp [getSubCluster] at h
  · intro n c h
    simp [hasMember, getSubCluster] at h
  · intro c h
    simp [getSubCluster] at h
  · intro c metadata h
    simp [getSubCluster] at h

/-- The next number is not in use, until all numbers are. -/
theorem Filling.fresh (h : Filling target nodes created sm) (hroom : created < U32.size) :
    sm.getSubCluster sm.nextClusterId = none := by
  by_contra hsome
  obtain ⟨i, hi, heq⟩ := h.ids _ (Option.isSome_iff_ne_none.mpr hsome)
  rw [h.next, U32.add, U32.add] at heq
  have hsize : U32.size = 4294967296 := rfl
  rw [hsize] at heq hroom
  omega

theorem getSubCluster_addNode (sm : ManagementStateMachine) (c n x : ℕ) :
    (sm.apply (.addNodeToSubCluster c n)).2.getSubCluster x =
      if c = x then (sm.getSubCluster x).map (SubClusterMetadata.addNode n)
      else sm.getSubCluster x :=
  getSubCluster_updateSubCluster _ _ _ _ _

theorem length_addNode {metadata : SubClusterMetadata} (h : n ∉ metadata.nodeIds) :
    (metadata.addNode n).nodeIds.length = metadata.nodeIds.length + 1 := by
  rw [SubClusterMetadata.addNode, if_neg (by simpa using h), List.length_append]
  rfl

/-- The sub-cluster with room gets the node. -/
theorem FullButOne.add {nodes : ℕ} (h : FullButOne target nodes created sm) {c : ℕ}
    {metadata : SubClusterMetadata} (hmeta : sm.getSubCluster c = some metadata)
    (hlt : metadata.nodeIds.length < target) (hn : n ∉ metadata.nodeIds) :
    FullButOne target (nodes + 1) created (sm.apply (.addNodeToSubCluster c n)).2 := by
  rcases h with ⟨-, hall⟩ | ⟨c', metadata', hmeta', hone, -, hsum, hothers⟩
  · exact absurd (hall c metadata hmeta) (by omega)
  · -- the one with room is the only one
    obtain rfl : c' = c := by
      by_contra hne
      exact absurd (hothers c metadata hmeta hne) (by omega)
    obtain rfl : metadata' = metadata := Option.some.inj (hmeta'.symm.trans hmeta)
    have hself : (sm.apply (.addNodeToSubCluster c' n)).2.getSubCluster c' =
        some (metadata'.addNode n) := by
      rw [getSubCluster_addNode, if_pos rfl, hmeta]
      rfl
    have hlength := length_addNode hn
    have hrest : ∀ x metadata, (sm.apply (.addNodeToSubCluster c' n)).2.getSubCluster x =
        some metadata → c' ≠ x → metadata.nodeIds.length = target := by
      intro x metadata hx hne
      rw [getSubCluster_addNode, if_neg hne] at hx
      exact hothers x metadata hx hne
    by_cases hfull : metadata'.nodeIds.length + 1 = target
    · refine Or.inl ⟨by omega, fun x metadata hx => ?_⟩
      by_cases hc : c' = x
      · rw [← hc, hself] at hx
        rw [← Option.some.inj hx, hlength, hfull]
      · exact hrest x metadata hx hc
    · exact Or.inr ⟨c', _, hself, by omega, by omega, by omega, hrest⟩

/-- If there is no room, a sub-cluster is created for the node. -/
theorem FullButOne.create {nodes : ℕ} (h : FullButOne target nodes created sm)
    (htarget : 1 ≤ target) (hfull : ∀ c metadata, sm.getSubCluster c = some metadata →
      target ≤ metadata.nodeIds.length) (n : ℕ) :
    FullButOne target (nodes + 1) (created + 1) (sm.apply (.createSubCluster [n])).2 := by
  rcases h with ⟨hsum, hall⟩ | ⟨c, metadata, hmeta, -, hlt, -⟩
  · have hrest : ∀ x metadata, (sm.apply (.createSubCluster [n])).2.getSubCluster x =
        some metadata → sm.nextClusterId ≠ x → metadata.nodeIds.length = target := by
      intro x metadata hx hne
      rw [apply, getSubCluster_insert, if_neg hne] at hx
      exact hall x metadata hx
    have hself : (sm.apply (.createSubCluster [n])).2.getSubCluster sm.nextClusterId =
        some { nodeIds := [n] } := by
      rw [apply, getSubCluster_insert, if_pos rfl]
    have hsucc : (created + 1) * target = created * target + target := Nat.succ_mul _ _
    by_cases hone : target = 1
    · refine Or.inl ⟨by omega, fun x metadata hx => ?_⟩
      by_cases hc : sm.nextClusterId = x
      · rw [← hc, hself] at hx
        rw [← Option.some.inj hx, hone]
        rfl
      · exact hrest x metadata hx hc
    · refine Or.inr ⟨sm.nextClusterId, _, hself, le_rfl, ?_, ?_, hrest⟩
      · show 1 < target
        omega
      · show nodes + 1 + target = (created + 1) * target + 1
        omega
  · exact absurd (hfull c metadata hmeta) (by omega)

/-- A new node gets a home, and the others keep theirs. -/
theorem home_append {after : ManagementStateMachine} {c : ℕ} (hn : n ∉ nodes)
    (hhome : ∀ m ∈ nodes, ∃! x, sm.hasMember x m)
    (hplaced : ∀ m x, sm.hasMember x m → m ∈ nodes)
    (hmember : ∀ x m, after.hasMember x m ↔ sm.hasMember x m ∨ c = x ∧ n = m) :
    (∀ m ∈ nodes ++ [n], ∃! x, after.hasMember x m) ∧
      ∀ m x, after.hasMember x m → m ∈ nodes ++ [n] := by
  constructor
  · intro m hm
    simp only [hmember]
    rcases List.mem_append.mp hm with hold | hnew
    · obtain ⟨home, hmem, hunique⟩ := hhome m hold
      refine ⟨home, Or.inl hmem, fun x hx => ?_⟩
      rcases hx with hx | ⟨-, rfl⟩
      · exact hunique x hx
      · exact absurd hold hn
    · rw [List.mem_singleton] at hnew
      refine ⟨c, Or.inr ⟨rfl, hnew.symm⟩, fun x hx => ?_⟩
      rcases hx with hx | ⟨rfl, -⟩
      · exact absurd (hplaced m x hx) (hnew ▸ hn)
      · rfl
  · intro m x hx
    rcases (hmember x m).mp hx with hx | ⟨-, rfl⟩
    · exact List.mem_append_left _ (hplaced m x hx)
    · exact List.mem_append_right _ (List.mem_singleton.mpr rfl)

theorem Filling.add (h : Filling target nodes created sm) (hn : n ∉ nodes) {c : ℕ}
    {metadata : SubClusterMetadata} (hmeta : sm.getSubCluster c = some metadata)
    (hlt : metadata.nodeIds.length < target) :
    Filling target (nodes ++ [n]) created (sm.apply (.addNodeToSubCluster c n)).2 := by
  have hsome : ∀ x, ((sm.apply (.addNodeToSubCluster c n)).2.getSubCluster x).isSome =
      (sm.getSubCluster x).isSome := fun x => isSome_updateSubCluster sm c x _ _
  have hnotMem : n ∉ metadata.nodeIds := fun hmem =>
    hn (h.placed n c (hasMember_iff.mpr ⟨metadata, hmeta, hmem⟩))
  have hmember : ∀ x m, (sm.apply (.addNodeToSubCluster c n)).2.hasMember x m ↔
      sm.hasMember x m ∨ c = x ∧ n = m := by
    intro x m
    rw [hasMember_addNode]
    refine or_congr_right (and_congr_right fun hc => and_iff_left ?_)
    rw [← hc, hmeta]
    rfl
  have hhomes := home_append hn h.home h.placed hmember
  refine ⟨?_, ?_, ?_, ?_, ?_, ?_, ?_⟩
  · intro x metadata' hx
    rw [getSubCluster_addNode] at hx
    by_cases hc : c = x
    · rw [if_pos hc] at hx
      obtain ⟨before, hbefore, rfl⟩ := Option.map_eq_some_iff.mp hx
      rw [isDraining_addNode]
      exact h.active x before hbefore
    · rw [if_neg hc] at hx
      exact h.active x metadata' hx
  · exact hhomes.1
  · exact hhomes.2
  · intro x hx
    rw [hsome] at hx
    exact h.ids x hx
  · rw [nextClusterId_apply]
    exact h.next
  · have hclusters : (sm.apply (.addNodeToSubCluster c n)).2.clusters = sm.clusters := by
      ext x
      rw [mem_clusters, mem_clusters, hsome]
    rw [hclusters, h.card]
  · rw [List.length_append]
    exact h.filled.add hmeta hlt hnotMem

theorem Filling.create (h : Filling target nodes created sm) (hn : n ∉ nodes)
    (htarget : 1 ≤ target) (hroom : created < U32.size)
    (hfull : ∀ c metadata, sm.getSubCluster c = some metadata →
      target ≤ metadata.nodeIds.length) :
    Filling target (nodes ++ [n]) (created + 1) (sm.apply (.createSubCluster [n])).2 := by
  have hfresh := h.fresh hroom
  -- the number of the new sub-cluster is new, so nobody is a member of it
  have hnobody : ∀ m, sm.hasMember sm.nextClusterId m = false := fun m => by
    simp [hasMember, hfresh]
  have hget : ∀ x, (sm.apply (.createSubCluster [n])).2.getSubCluster x =
      if sm.nextClusterId = x then some { nodeIds := [n] } else sm.getSubCluster x :=
    fun x => getSubCluster_insert _ _ _ _ _
  have hmember : ∀ x m, (sm.apply (.createSubCluster [n])).2.hasMember x m ↔
      sm.hasMember x m ∨ sm.nextClusterId = x ∧ n = m := by
    intro x m
    rw [hasMember_createSubCluster]
    by_cases hx : sm.nextClusterId = x
    · subst hx
      simp [hnobody, @eq_comm ℕ n]
    · simp [hx]
  have hhomes := home_append hn h.home h.placed hmember
  refine ⟨?_, ?_, ?_, ?_, ?_, ?_, ?_⟩
  · intro x metadata hx
    rw [hget] at hx
    by_cases hc : sm.nextClusterId = x
    · rw [if_pos hc] at hx
      rw [← Option.some.inj hx]
      simp [SubClusterMetadata.isDraining]
    · rw [if_neg hc] at hx
      exact h.active x metadata hx
  · exact hhomes.1
  · exact hhomes.2
  · intro x hx
    rw [hget] at hx
    by_cases hc : sm.nextClusterId = x
    · exact ⟨created, Nat.lt_succ_self _, hc.symm.trans h.next⟩
    · rw [if_neg hc] at hx
      obtain ⟨i, hi, heq⟩ := h.ids x hx
      exact ⟨i, Nat.lt_succ_of_lt hi, heq⟩
  · rw [nextClusterId_apply, ManagementCommand.isCreate, if_pos rfl, h.next, U32.add, U32.add,
      U32.add, Nat.mod_add_mod]
  · have hclusters : (sm.apply (.createSubCluster [n])).2.clusters =
        insert sm.nextClusterId sm.clusters := by
      ext x
      rw [mem_clusters, hget, Finset.mem_insert, mem_clusters]
      by_cases hc : sm.nextClusterId = x
      · simp [hc]
      · simp [hc, Ne.symm hc]
    have hnotMem : sm.nextClusterId ∉ sm.clusters := by
      rw [mem_clusters, hfresh]
      simp
    rw [hclusters, Finset.card_insert_of_notMem hnotMem, h.card]
  · rw [List.length_append]
    exact h.filled.create htarget hfull n

/-- There is a number for the next sub-cluster as long as the nodes would fit into all of them. -/
theorem Filling.place (h : Filling config.targetClusterSize nodes created sm) (hn : n ∉ nodes)
    (htarget : 1 ≤ config.targetClusterSize)
    (hroom : nodes.length < config.targetClusterSize * U32.size)
    (horder : sm.IterationOrder order) :
    ∃ created', Filling config.targetClusterSize (nodes ++ [n]) created'
      (sm.place config n order) := by
  rcases place_cases config n horder with ⟨c, metadata, hsmallest, hlt, heq⟩ | ⟨hfull, heq⟩
  · rw [heq]
    exact ⟨created, h.add hn hsmallest.1 hlt⟩
  · -- no sub-cluster is below the target size
    have hall : ∀ c metadata, sm.getSubCluster c = some metadata →
        config.targetClusterSize ≤ metadata.nodeIds.length := by
      intro c metadata hmeta
      have hactive : sm.isActive c := by
        rw [isActive, hmeta, Option.any_some, h.active c metadata hmeta]
        rfl
      obtain ⟨c', metadata', hsmallest⟩ := exists_smallest hactive
      exact (hfull c' metadata' hsmallest).trans
        (hsmallest.2.2 c metadata hmeta (h.active c metadata hmeta))
    have hcreated : created < U32.size := by
      rcases h.filled with ⟨hsum, -⟩ | ⟨c, metadata, hmeta, -, hlt, -⟩
      · rw [hsum, Nat.mul_comm] at hroom
        exact Nat.lt_of_mul_lt_mul_left hroom
      · exact absurd (hall c metadata hmeta) (by omega)
    rw [heq]
    exact ⟨created + 1, h.create hn htarget hcreated hall⟩

theorem Filling.evenlyFilled (h : Filling config.targetClusterSize nodes created sm)
    (htarget : 1 ≤ config.targetClusterSize) : EvenlyFilled config nodes sm := by
  have hsucc : (created + 1) * config.targetClusterSize =
      created * config.targetClusterSize + config.targetClusterSize := Nat.succ_mul _ _
  refine ⟨h.home, ?_, ?_, ?_⟩
  · intro c metadata hmeta
    rcases h.filled with ⟨-, hall⟩ | ⟨c', metadata', hmeta', hone, hlt, -, hothers⟩
    · have hlength := hall c metadata hmeta
      omega
    · by_cases hc : c' = c
      · subst hc
        obtain rfl : metadata' = metadata := Option.some.inj (hmeta'.symm.trans hmeta)
        exact ⟨hone, by omega⟩
      · have hlength := hothers c metadata hmeta hc
        omega
  · intro c metadata c' metadata' hmeta hmeta' hlt hlt'
    rcases h.filled with ⟨-, hall⟩ | ⟨x, -, -, -, -, -, hothers⟩
    · exact absurd (hall c metadata hmeta) (by omega)
    · have hx : x = c := by
        by_contra hne
        exact absurd (hothers c metadata hmeta hne) (by omega)
      have hx' : x = c' := by
        by_contra hne
        exact absurd (hothers c' metadata' hmeta' hne) (by omega)
      exact hx.symm.trans hx'
  · rw [h.card, Nat.ceilDiv_eq_add_pred_div, eq_comm]
    rcases h.filled with ⟨hsum, -⟩ | ⟨-, metadata, -, hone, hlt, hsum, -⟩
    · exact Nat.div_eq_of_lt_le (by omega) (by omega)
    · exact Nat.div_eq_of_lt_le (by omega) (by omega)

end

section
variable {config : ClusterManagerConfig} {sm : ManagementStateMachine}
  {arrivals : List (ℕ × List ℕ)}

/-- As long as there is a number for every sub-cluster, the nodes fill them one by one. -/
theorem filling_run (htarget : 1 ≤ config.targetClusterSize)
    (hnodup : (arrivals.map Prod.fst).Nodup)
    (hroom : arrivals.length ≤ config.targetClusterSize * U32.size)
    (hrun : run (placeStep config) {} arrivals = some sm) :
    ∃ created, Filling config.targetClusterSize (arrivals.map Prod.fst) created sm := by
  refine run_history (I := fun done sm => (done.map Prod.fst).Nodup →
    done.length ≤ config.targetClusterSize * U32.size →
      ∃ created, Filling config.targetClusterSize (done.map Prod.fst) created sm)
    ?_ (fun _ _ => ⟨0, filling_new⟩) along_true hrun hnodup hroom
  intro done sm arrival sm' hdone _ hstep hnodup hroom
  rw [List.map_append, List.nodup_append] at hnodup
  rw [List.length_append, List.length_singleton] at hroom
  obtain ⟨created, hfilling⟩ := hdone hnodup.1 (by omega)
  have hn : arrival.1 ∉ done.map Prod.fst := fun hmem =>
    hnodup.2.2 arrival.1 hmem arrival.1 (List.mem_singleton.mpr rfl) rfl
  rw [placeStep] at hstep
  split at hstep
  · next horder =>
    rw [← Option.some.inj hstep, List.map_append]
    exact hfilling.place hn htarget (by rw [List.length_map]; omega) horder
  · exact absurd hstep (by simp)

/-- There are no more sub-clusters than numbers. -/
theorem card_clusters_run_le (hrun : run (placeStep config) {} arrivals = some sm) :
    sm.clusters.card ≤ U32.size := by
  have hwords : sm.nextClusterId < U32.size ∧ sm.clusters ⊆ Finset.range U32.size := by
    have hstart : (1 : ℕ) < U32.size ∧ clusters {} ⊆ Finset.range U32.size :=
      ⟨by decide, fun x hx => absurd hx (by simp [mem_clusters, getSubCluster])⟩
    refine run_induction
      (I := fun sm => sm.nextClusterId < U32.size ∧ sm.clusters ⊆ Finset.range U32.size)
      ?_ hstart along_true hrun
    intro sm arrival sm' h _ hstep
    rw [placeStep] at hstep
    split at hstep
    · next horder =>
      rw [← Option.some.inj hstep]
      rcases place_cases config arrival.1 horder with ⟨c, metadata, -, -, heq⟩ | ⟨-, heq⟩
      · rw [heq]
        refine ⟨by rw [nextClusterId_apply]; exact h.1, fun x hx => h.2 ?_⟩
        rw [mem_clusters] at hx ⊢
        rwa [apply, isSome_updateSubCluster] at hx
      · rw [heq]
        refine ⟨by rw [nextClusterId_apply]; exact Nat.mod_lt _ (by decide), fun x hx => ?_⟩
        rw [mem_clusters, apply, getSubCluster_insert] at hx
        by_cases hc : sm.nextClusterId = x
        · rw [← hc, Finset.mem_range]
          exact h.1
        · rw [if_neg hc] at hx
          exact h.2 (mem_clusters.mpr hx)
    · exact absurd hstep (by simp)
  exact (Finset.card_le_card hwords.2).trans_eq (Finset.card_range _)

theorem exists_run_placeStep (config : ClusterManagerConfig) (nodes : List ℕ) :
    ∃ arrivals sm, arrivals.map Prod.fst = nodes ∧
      run (placeStep config) {} arrivals = some sm := by
  refine exists_run_of_enabled (fun sm n => ?_) ({} : ManagementStateMachine) nodes
  exact ⟨sm.listSubClusters, _, if_pos (iterationOrder_listSubClusters sm)⟩

end

/-- In a run of placements of different nodes from the empty state, the nodes fill the sub-clusters
evenly exactly as long as there are at most as many as fit into one sub-cluster for each number. -/
theorem placement_evenlyFilled_iff (config : ClusterManagerConfig)
    (htarget : 1 ≤ config.targetClusterSize) {arrivals : List (ℕ × List ℕ)}
    (hnodup : (arrivals.map Prod.fst).Nodup) {sm : ManagementStateMachine}
    (hrun : run (placeStep config) {} arrivals = some sm) :
    EvenlyFilled config (arrivals.map Prod.fst) sm ↔
      arrivals.length ≤ config.targetClusterSize * U32.size := by
  constructor
  · intro h
    have hcard := h.count ▸ card_clusters_run_le hrun
    rw [ceilDiv_le_iff_le_mul htarget, List.length_map] at hcard
    exact hcard
  · intro hroom
    obtain ⟨created, hfilling⟩ := filling_run htarget hnodup hroom hrun
    exact hfilling.evenlyFilled htarget

/-- One node more than there are numbers, into sub-clusters of one node. -/
theorem placement_not_evenlyFilled :
    ¬ ∀ (config : ClusterManagerConfig) (arrivals : List (ℕ × List ℕ))
      (sm : ManagementStateMachine), 1 ≤ config.targetClusterSize →
      (arrivals.map Prod.fst).Nodup → run (placeStep config) {} arrivals = some sm →
      EvenlyFilled config (arrivals.map Prod.fst) sm := by
  intro h
  obtain ⟨arrivals, sm, hnodes, hrun⟩ :=
    exists_run_placeStep { targetClusterSize := 1 } (List.range (U32.size + 1))
  have heven := h _ arrivals sm le_rfl (by rw [hnodes]; exact List.nodup_range) hrun
  have hcard := heven.count ▸ card_clusters_run_le hrun
  rw [hnodes, List.length_range, ceilDiv_one] at hcard
  exact absurd hcard (Nat.not_succ_le_self _)

/-- Three nodes that are placed in sub-clusters of two, and the orders of the map. -/
def threeArrivals : List (ℕ × List ℕ) := [(7, []), (8, [1]), (9, [1])]

theorem placement_evenlyFilled_iff_threeArrivals :
    ∃ sm, run (placeStep { targetClusterSize := 2 }) {} threeArrivals = some sm ∧
      EvenlyFilled { targetClusterSize := 2 } [7, 8, 9] sm := by
  obtain ⟨sm, hrun⟩ : ∃ sm, run (placeStep { targetClusterSize := 2 }) {} threeArrivals = some sm :=
    Option.isSome_iff_exists.mp (by decide)
  exact ⟨sm, hrun, (placement_evenlyFilled_iff _ (by decide) (by decide) hrun).mpr (by decide)⟩

end ManagementStateMachine

end Raftoral

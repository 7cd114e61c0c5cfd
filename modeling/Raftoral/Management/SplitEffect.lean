import Raftoral.Lib.Renumbering
import Raftoral.Management.Splits

/-!
# What a plan of splits does

The commands for `decide_splits`, applied in order. The plan lists the sub-clusters to split in
the order in which the map is iterated; each gets the next number for its smallest nodes and
loses them one by one. `Split` says what comes out of it, sub-cluster by sub-cluster, and
`split_applyAll` proves it by induction on the plan.
-/

namespace Raftoral

open ManagementStateMachine

namespace ClusterManager

variable {config : ClusterManagerConfig}

/-- A sub-cluster without the nodes that a split moves. -/
def remaining (config : ClusterManagerConfig) (metadata : SubClusterMetadata) :
    SubClusterMetadata :=
  { metadata with
    nodeIds := metadata.nodeIds.filter fun n => !(nodesToMove config metadata).contains n }

/-- The sub-cluster that a split creates. -/
def moved (config : ClusterManagerConfig) (metadata : SubClusterMetadata) : SubClusterMetadata :=
  { nodeIds := nodesToMove config metadata }

/-- The sub-clusters that are split, in the order of the plan. -/
def toSplit (config : ClusterManagerConfig) (sm : ManagementStateMachine) (order : List ℕ) :
    List (ℕ × SubClusterMetadata) :=
  (sm.entries order).filter fun entry => needsSplit config entry.2

/-- The commands of one split. -/
def splitCommands (config : ClusterManagerConfig) (entry : ℕ × SubClusterMetadata) :
    List ManagementCommand :=
  .createSubCluster (nodesToMove config entry.2) ::
    (nodesToMove config entry.2).map fun n => .removeNodeFromSubCluster entry.1 n

/-- The nodes that are moved are the smallest ones. -/
theorem nodesToMove_smallest (config : ClusterManagerConfig) {metadata : SubClusterMetadata}
    {a b : ℕ} (ha : a ∈ nodesToMove config metadata) (hb : b ∈ (remaining config metadata).nodeIds) :
    a < b := by
  obtain ⟨hmem, hstays⟩ := List.mem_filter.mp hb
  have hnot : b ∉ nodesToMove config metadata := by simpa using hstays
  have hsorted := List.pairwise_insertionSort (· ≤ ·) metadata.nodeIds
  rw [← List.take_append_drop config.splitSize (metadata.nodeIds.insertionSort (· ≤ ·)),
    List.pairwise_append] at hsorted
  have hdrop : b ∈ (metadata.nodeIds.insertionSort (· ≤ ·)).drop config.splitSize := by
    have hall := (List.mem_insertionSort (· ≤ ·)).mpr hmem
    rw [← List.take_append_drop config.splitSize (metadata.nodeIds.insertionSort (· ≤ ·)),
      List.mem_append] at hall
    exact hall.resolve_left hnot
  have hle := hsorted.2.2 a ha b hdrop
  have hne : a ≠ b := fun heq => hnot (heq ▸ ha)
  omega

theorem length_nodesToMove (config : ClusterManagerConfig) (metadata : SubClusterMetadata) :
    (nodesToMove config metadata).length = min config.splitSize metadata.nodeIds.length := by
  rw [nodesToMove, List.length_take, List.length_insertionSort]

end ClusterManager

namespace ManagementStateMachine

open ClusterManager

/-- Every command of the list succeeds where it is applied. -/
def AllSucceed : ManagementStateMachine → List ManagementCommand → Prop
  | _, [] => True
  | sm, command :: commands =>
    (∃ events, (sm.apply command).1 = .ok events) ∧ AllSucceed (sm.apply command).2 commands

/-- What is left after the sub-clusters of a list were split, one after the other. -/
structure Split (config : ClusterManagerConfig) (sm : ManagementStateMachine)
    (plan : List (ℕ × SubClusterMetadata)) (after : ManagementStateMachine) : Prop where
  /-- A sub-cluster of the plan loses the nodes that are moved. -/
  split : ∀ entry ∈ plan, after.getSubCluster entry.1 = some (remaining config entry.2)
  /-- The others stay as they are. -/
  kept : ∀ c, c < sm.nextClusterId → (∀ entry ∈ plan, entry.1 ≠ c) →
    after.getSubCluster c = sm.getSubCluster c
  /-- The new ones have the nodes that were moved, and there are no others. -/
  created : ∀ i, after.getSubCluster (sm.nextClusterId + i) =
    plan[i]?.map fun entry => moved config entry.2
  next : after.nextClusterId = sm.nextClusterId + plan.length
  addresses : after.nodeAddresses = sm.nodeAddresses
  /-- Every node is a member as often as before. -/
  memberships : ∀ n, after.memberships n = sm.memberships n

/-! ## One split -/

section
variable {config : ClusterManagerConfig} {sm : ManagementStateMachine}

/-- Removals from one sub-cluster. -/
theorem getSubCluster_removeAll (sm : ManagementStateMachine) (clusterId c : ℕ) (nodeIds : List ℕ) :
    (sm.applyAll (nodeIds.map fun n => .removeNodeFromSubCluster clusterId n)).getSubCluster c =
      if clusterId = c then (sm.getSubCluster c).map fun metadata =>
        { metadata with nodeIds := metadata.nodeIds.filter fun n => !nodeIds.contains n }
      else sm.getSubCluster c := by
  induction nodeIds generalizing sm with
  | nil =>
    by_cases hc : clusterId = c
    · simp [hc]
    · simp [hc]
  | cons n nodeIds ih =>
    rw [List.map_cons, applyAll_cons, ih, apply, getSubCluster_updateSubCluster]
    by_cases hc : clusterId = c
    · rw [if_pos hc, if_pos hc, if_pos hc, Option.map_map]
      congr 1
      funext metadata
      simp only [Function.comp_apply, SubClusterMetadata.removeNode, List.filter_filter]
      congr 2
      funext m
      by_cases hm : m = n
      · simp [hm]
      · simp [hm]
    · rw [if_neg hc, if_neg hc, if_neg hc]

theorem nextClusterId_removeAll (sm : ManagementStateMachine) (clusterId : ℕ) (nodeIds : List ℕ) :
    (sm.applyAll (nodeIds.map fun n => .removeNodeFromSubCluster clusterId n)).nextClusterId =
      sm.nextClusterId := by
  induction nodeIds generalizing sm with
  | nil => rfl
  | cons n nodeIds ih =>
    rw [List.map_cons, applyAll_cons, ih, nextClusterId_apply,
      if_neg (by simp [ManagementCommand.isCreate])]

theorem nodeAddresses_updateSubCluster (sm : ManagementStateMachine) (clusterId : ℕ)
    (update : SubClusterMetadata → SubClusterMetadata) (event : ManagementEvent) :
    (sm.updateSubCluster clusterId update event).2.nodeAddresses = sm.nodeAddresses := by
  rcases sm.updateSubCluster_cases clusterId update event with ⟨metadata, -, h⟩ | ⟨-, h⟩
  · rw [h]
  · rw [h]

theorem nodeAddresses_removeAll (sm : ManagementStateMachine) (clusterId : ℕ) (nodeIds : List ℕ) :
    (sm.applyAll (nodeIds.map fun n => .removeNodeFromSubCluster clusterId n)).nodeAddresses =
      sm.nodeAddresses := by
  induction nodeIds generalizing sm with
  | nil => rfl
  | cons n nodeIds ih =>
    rw [List.map_cons, applyAll_cons, ih, apply, nodeAddresses_updateSubCluster]

/-- Removing members takes each of them out of one sub-cluster. -/
theorem memberships_removeAll {clusterId : ℕ} {nodeIds : List ℕ} (hnodup : nodeIds.Nodup)
    (hmembers : ∀ n ∈ nodeIds, sm.hasMember clusterId n) (n : ℕ) :
    (sm.applyAll (nodeIds.map fun m => .removeNodeFromSubCluster clusterId m)).memberships n +
      (if n ∈ nodeIds then 1 else 0) = sm.memberships n := by
  induction nodeIds generalizing sm with
  | nil => rfl
  | cons m nodeIds ih =>
    rw [List.nodup_cons] at hnodup
    have hm := hmembers m List.mem_cons_self
    have hrest : ∀ x ∈ nodeIds,
        (sm.apply (.removeNodeFromSubCluster clusterId m)).2.hasMember clusterId x := by
      intro x hx
      refine hasMember_removeNode.mpr ⟨hmembers x (List.mem_cons_of_mem m hx), ?_⟩
      rintro ⟨-, rfl⟩
      exact hnodup.1 hx
    have hone := memberships_removeNode hm n
    have hall := ih hnodup.2 hrest
    rw [List.map_cons, applyAll_cons]
    by_cases hn : m = n
    · subst hn
      rw [if_neg hnodup.1] at hall
      rw [if_pos rfl] at hone
      rw [if_pos List.mem_cons_self]
      omega
    · rw [if_neg hn] at hone
      have hmem : n ∈ m :: nodeIds ↔ n ∈ nodeIds := by simp [Ne.symm hn]
      simp only [hmem]
      omega

/-- One split of a sub-cluster without duplicates. -/
theorem split_one (config : ClusterManagerConfig) {entry : ℕ × SubClusterMetadata}
    (hget : sm.getSubCluster entry.1 = some entry.2) (hnodup : entry.2.nodeIds.Nodup)
    (hbelow : ∀ c, (sm.getSubCluster c).isSome → c < sm.nextClusterId)
    (hroom : sm.nextClusterId + 1 < U32.size) :
    Split config sm [entry] (sm.applyAll (splitCommands config entry)) := by
  have hfresh : sm.getSubCluster sm.nextClusterId = none := by
    rw [← Option.not_isSome_iff_eq_none]
    exact fun hsome => absurd (hbelow _ hsome) (lt_irrefl _)
  have hlt : entry.1 < sm.nextClusterId := hbelow _ (by rw [hget]; rfl)
  -- two entries of the map change: the one that is split and the new one
  have hlookup : ∀ c, (sm.applyAll (splitCommands config entry)).getSubCluster c =
      if entry.1 = c then some (remaining config entry.2)
      else if sm.nextClusterId = c then some (moved config entry.2) else sm.getSubCluster c := by
    intro c
    rw [splitCommands, applyAll_cons, getSubCluster_removeAll, apply, getSubCluster_insert]
    by_cases hc : entry.1 = c
    · have hne : sm.nextClusterId ≠ c := by omega
      rw [if_pos hc, if_pos hc, if_neg hne, ← hc, hget]
      rfl
    · rw [if_neg hc, if_neg hc]
      rfl
  refine ⟨?_, ?_, ?_, ?_, ?_, ?_⟩
  · intro e he
    rw [List.mem_singleton.mp he, hlookup, if_pos rfl]
  · intro c hc hne
    rw [hlookup, if_neg (hne entry List.mem_cons_self), if_neg (by omega)]
  · intro i
    rw [hlookup, if_neg (by omega)]
    cases i with
    | zero => rw [if_pos (Nat.add_zero _).symm]; rfl
    | succ i =>
      rw [if_neg (by omega)]
      simp only [List.getElem?_cons_succ, List.getElem?_nil, Option.map_none]
      rw [← Option.not_isSome_iff_eq_none]
      intro hsome
      have hlt' := hbelow _ hsome
      omega
  · rw [splitCommands, applyAll_cons, nextClusterId_removeAll, nextClusterId_apply,
      if_pos (by rfl), U32.add_of_lt hroom]
    rfl
  · rw [splitCommands, applyAll_cons, nodeAddresses_removeAll]
    rfl
  · intro n
    have hmembers : ∀ m ∈ nodesToMove config entry.2,
        (sm.apply (.createSubCluster (nodesToMove config entry.2))).2.hasMember entry.1 m := by
      intro m hm
      rw [hasMember_createSubCluster, if_neg (by omega), hasMember_of_getSubCluster hget]
      exact List.contains_iff_mem.mpr (mem_nodesToMove hm)
    -- each node that moves loses one membership and gains one
    have hremoved := memberships_removeAll (nodup_nodesToMove hnodup) hmembers n
    rw [memberships_createSubCluster hfresh] at hremoved
    rw [splitCommands, applyAll_cons]
    omega

/-! ## A plan -/

/-- A split of one sub-cluster, and then those of the others in what it leaves. -/
theorem Split.cons {entry : ℕ × SubClusterMetadata} {plan : List (ℕ × SubClusterMetadata)}
    {sm' after : ManagementStateMachine} (hone : Split config sm [entry] sm')
    (hrest : Split config sm' plan after) (hlt : entry.1 < sm.nextClusterId)
    (hother : ∀ e ∈ plan, entry.1 ≠ e.1) (hbehind : ∀ e ∈ plan, e.1 < sm.nextClusterId) :
    Split config sm (entry :: plan) after := by
  have hnext : sm'.nextClusterId = sm.nextClusterId + 1 := hone.next
  refine ⟨?_, ?_, ?_, ?_, ?_, ?_⟩
  · intro e he
    rcases List.mem_cons.mp he with rfl | he
    · rw [hrest.kept e.1 (by omega) fun x hx => (hother x hx).symm]
      exact hone.split e List.mem_cons_self
    · exact hrest.split e he
  · intro c hc hne
    rw [hrest.kept c (by omega) fun x hx => hne x (List.mem_cons_of_mem _ hx)]
    refine hone.kept c hc fun x hx => ?_
    rw [List.mem_singleton.mp hx]
    exact hne entry List.mem_cons_self
  · intro i
    cases i with
    | zero =>
      rw [Nat.add_zero, hrest.kept _ (by omega) fun x hx => (hbehind x hx).ne]
      exact hone.created 0
    | succ i =>
      have hcreated := hrest.created i
      rw [hnext, show sm.nextClusterId + 1 + i = sm.nextClusterId + (i + 1) by omega] at hcreated
      rw [hcreated, List.getElem?_cons_succ]
  · rw [hrest.next, hnext, List.length_cons]
    omega
  · rw [hrest.addresses, hone.addresses]
  · intro n
    rw [hrest.memberships, hone.memberships]

/-- The splits of a plan, whose sub-clusters are there and different, one after the other. -/
theorem split_applyAll (config : ClusterManagerConfig) {plan : List (ℕ × SubClusterMetadata)}
    (hplan : plan.Pairwise fun a b => a.1 ≠ b.1)
    (hget : ∀ entry ∈ plan, sm.getSubCluster entry.1 = some entry.2)
    (hnodup : ∀ entry ∈ plan, entry.2.nodeIds.Nodup)
    (hbelow : ∀ c, (sm.getSubCluster c).isSome → c < sm.nextClusterId)
    (hroom : sm.nextClusterId + plan.length < U32.size) :
    Split config sm plan (sm.applyAll (plan.flatMap (splitCommands config))) := by
  induction plan generalizing sm with
  | nil =>
    refine ⟨by simp, fun _ _ _ => rfl, fun i => ?_, rfl, rfl, fun _ => rfl⟩
    rw [List.flatMap_nil, applyAll_nil, List.getElem?_nil, Option.map_none,
      ← Option.not_isSome_iff_eq_none]
    intro hsome
    have hlt := hbelow _ hsome
    omega
  | cons entry plan ih =>
    rw [List.pairwise_cons] at hplan
    rw [List.length_cons] at hroom
    have hentry := hget entry List.mem_cons_self
    have hlt : entry.1 < sm.nextClusterId := hbelow _ (by rw [hentry]; rfl)
    have hone := split_one config hentry (hnodup entry List.mem_cons_self) hbelow (by omega)
    rw [List.flatMap_cons, applyAll_append]
    set sm' := sm.applyAll (splitCommands config entry) with hsm'
    have hnext : sm'.nextClusterId = sm.nextClusterId + 1 := hone.next
    -- the other sub-clusters of the plan are as they were
    have hbehind : ∀ e ∈ plan, e.1 < sm.nextClusterId := fun e he =>
      hbelow _ (by rw [hget e (List.mem_cons_of_mem _ he)]; rfl)
    have hkept : ∀ e ∈ plan, sm'.getSubCluster e.1 = sm.getSubCluster e.1 := by
      intro e he
      refine hone.kept e.1 (hbehind e he) fun x hx => ?_
      rw [List.mem_singleton.mp hx]
      exact hplan.1 e he
    have hbelow' : ∀ c, (sm'.getSubCluster c).isSome → c < sm'.nextClusterId := by
      intro c hc
      by_contra hge
      obtain ⟨i, rfl⟩ : ∃ i, c = sm.nextClusterId + (i + 1) :=
        ⟨c - sm.nextClusterId - 1, by omega⟩
      rw [hone.created] at hc
      exact absurd hc (by simp)
    have hrest := ih hplan.2
      (fun e he => (hkept e he).trans (hget e (List.mem_cons_of_mem _ he)))
      (fun e he => hnodup e (List.mem_cons_of_mem _ he)) hbelow' (by omega)
    exact hone.cons hrest hlt hplan.1 hbehind

/-- Creations, and removals from sub-clusters that are there, succeed. -/
theorem allSucceed_of_moves {commands : List ManagementCommand}
    (h : ∀ command ∈ commands, command.isCreate ∨
      ∃ c n, command = .removeNodeFromSubCluster c n ∧ (sm.getSubCluster c).isSome) :
    sm.AllSucceed commands := by
  induction commands generalizing sm with
  | nil => trivial
  | cons command commands ih =>
    have hfirst := h command List.mem_cons_self
    refine ⟨?_, ih fun x hx => ?_⟩
    · rcases hfirst with hcreate | ⟨c, n, rfl, hsome⟩
      · cases command with
        | createSubCluster nodeIds => exact ⟨_, rfl⟩
        | _ => exact absurd hcreate (by simp [ManagementCommand.isCreate])
      · obtain ⟨metadata, hget⟩ := Option.isSome_iff_exists.mp hsome
        rcases sm.updateSubCluster_cases c (SubClusterMetadata.removeNode n)
          (.nodeRemovedFromSubCluster c n) with ⟨_, -, hok⟩ | ⟨hnone, -⟩
        · exact ⟨_, by rw [apply, hok]⟩
        · rw [hget] at hnone
          exact absurd hnone (by simp)
    · -- nothing is deleted on the way
      rcases h x (List.mem_cons_of_mem _ hx) with hcreate | ⟨c, n, rfl, hsome⟩
      · exact Or.inl hcreate
      · refine Or.inr ⟨c, n, rfl, ?_⟩
        rw [isSome_apply]
        rcases hfirst with hcreate | ⟨c', n', rfl, -⟩
        · cases command with
          | createSubCluster nodeIds =>
            rw [existence]
            split
            · rfl
            · exact hsome
          | _ => exact absurd hcreate (by simp [ManagementCommand.isCreate])
        · exact hsome

/-- The same splits in another order lead to the same state, up to the numbers of the new
sub-clusters. -/
theorem Split.renumbering {plan plan' : List (ℕ × SubClusterMetadata)}
    {after after' : ManagementStateMachine} (h : Split config sm plan after)
    (h' : Split config sm plan' after') (hperm : plan.Perm plan') :
    ∃ ρ : Equiv.Perm ℕ, (∀ c < sm.nextClusterId, ρ c = c) ∧
      (∀ c, after'.getSubCluster (ρ c) = after.getSubCluster c) ∧
      after'.nextClusterId = after.nextClusterId ∧
      after'.nodeAddresses = after.nodeAddresses := by
  obtain ⟨σ, hσ⟩ := Renumbering.exists_perm_getElem? hperm
  refine ⟨Renumbering.above sm.nextClusterId σ, fun c hc => Renumbering.above_of_lt σ hc,
    fun c => ?_, ?_, ?_⟩
  · by_cases hc : c < sm.nextClusterId
    · rw [Renumbering.above_of_lt σ hc]
      by_cases hmem : ∃ entry ∈ plan, entry.1 = c
      · obtain ⟨entry, hentry, rfl⟩ := hmem
        rw [h.split entry hentry, h'.split entry (hperm.mem_iff.mp hentry)]
      · have hne : ∀ entry ∈ plan, entry.1 ≠ c := fun e he heq => hmem ⟨e, he, heq⟩
        rw [h.kept c hc hne, h'.kept c hc fun e he => hne e (hperm.mem_iff.mpr he)]
    · obtain ⟨i, rfl⟩ : ∃ i, c = sm.nextClusterId + i := ⟨c - sm.nextClusterId, by omega⟩
      rw [Renumbering.above_add, h.created, h'.created, hσ]
  · rw [h.next, h'.next, hperm.length_eq]
  · rw [h.addresses, h'.addresses]

end

end ManagementStateMachine

namespace ClusterManager

variable {config : ClusterManagerConfig} {sm : ManagementStateMachine}

theorem mem_toSplit {order : List ℕ} (horder : sm.IterationOrder order)
    {entry : ℕ × SubClusterMetadata} :
    entry ∈ toSplit config sm order ↔
      sm.getSubCluster entry.1 = some entry.2 ∧ needsSplit config entry.2 := by
  rw [toSplit, List.mem_filter, mem_entries horder]

/-- The plan, applied. -/
theorem split_splitProposals
    (hnodup : ∀ c metadata, sm.getSubCluster c = some metadata → metadata.nodeIds.Nodup)
    (hbelow : ∀ c, (sm.getSubCluster c).isSome → c < sm.nextClusterId) {order : List ℕ}
    (horder : sm.IterationOrder order)
    (hroom : sm.nextClusterId + (toSplit config sm order).length < U32.size) :
    Split config sm (toSplit config sm order) (sm.applyAll (splitProposals config sm order)) := by
  have hget : ∀ entry ∈ toSplit config sm order, sm.getSubCluster entry.1 = some entry.2 :=
    fun entry hentry => ((mem_toSplit horder).mp hentry).1
  rw [splitProposals_eq]
  exact split_applyAll config ((nodup_entries horder).filter _) hget
    (fun entry hentry => hnodup _ _ (hget entry hentry)) hbelow hroom

/-- The commands of a plan of splits all succeed. Every sub-cluster that is split loses its
smallest nodes, which form one new sub-cluster; the others are as before, and every node is a
member as often as before. Another order of the sub-clusters gives the same up to the numbers of
the new ones. -/
theorem splits_conserve_members (config : ClusterManagerConfig)
    (hnodup : ∀ c metadata, sm.getSubCluster c = some metadata → metadata.nodeIds.Nodup)
    (hbelow : ∀ c, (sm.getSubCluster c).isSome → c < sm.nextClusterId) {order : List ℕ}
    (horder : sm.IterationOrder order)
    (hroom : sm.nextClusterId + (toSplit config sm order).length < U32.size) :
    sm.AllSucceed (splitProposals config sm order) ∧
      (∀ n, (sm.applyAll (splitProposals config sm order)).memberships n = sm.memberships n) ∧
      (∀ c metadata, sm.getSubCluster c = some metadata →
        (sm.applyAll (splitProposals config sm order)).getSubCluster c =
          some (if needsSplit config metadata then remaining config metadata else metadata)) ∧
      (∀ metadata, (nodesToMove config metadata).length =
          min config.splitSize metadata.nodeIds.length ∧
        ∀ a ∈ nodesToMove config metadata, a ∈ metadata.nodeIds ∧
          ∀ b ∈ (remaining config metadata).nodeIds, a < b) ∧
      (∀ i, (sm.applyAll (splitProposals config sm order)).getSubCluster (sm.nextClusterId + i) =
        (toSplit config sm order)[i]?.map fun entry => moved config entry.2) ∧
      ((toSplit config sm order).Pairwise fun a b => a.1 ≠ b.1) ∧
      (∀ entry, entry ∈ toSplit config sm order ↔
        sm.getSubCluster entry.1 = some entry.2 ∧ needsSplit config entry.2) ∧
      ∀ order', sm.IterationOrder order' →
        ∃ ρ : Equiv.Perm ℕ, (∀ c < sm.nextClusterId, ρ c = c) ∧
          (∀ c, (sm.applyAll (splitProposals config sm order')).getSubCluster (ρ c) =
            (sm.applyAll (splitProposals config sm order)).getSubCluster c) ∧
          (sm.applyAll (splitProposals config sm order')).nextClusterId =
            (sm.applyAll (splitProposals config sm order)).nextClusterId ∧
          (sm.applyAll (splitProposals config sm order')).nodeAddresses =
            (sm.applyAll (splitProposals config sm order)).nodeAddresses := by
  -- everything but the success of the commands is a part of the effect of the splits
  have hsplit := split_splitProposals hnodup hbelow horder hroom
  refine ⟨?_, hsplit.memberships, ?_, ?_, hsplit.created, (nodup_entries horder).filter _,
    fun entry => mem_toSplit horder, ?_⟩
  · refine allSucceed_of_moves fun command hcommand => ?_
    obtain ⟨c, metadata, hget, -, rfl | ⟨n, -, rfl⟩⟩ := (mem_splitProposals horder).mp hcommand
    · exact Or.inl rfl
    · exact Or.inr ⟨c, n, rfl, by rw [hget]; rfl⟩
  · intro c metadata hget
    by_cases hneeds : needsSplit config metadata
    · rw [if_pos hneeds]
      exact hsplit.split (c, metadata) ((mem_toSplit horder).mpr ⟨hget, hneeds⟩)
    · rw [if_neg hneeds, hsplit.kept c (hbelow c (by rw [hget]; rfl)), hget]
      rintro entry hentry rfl
      obtain ⟨hget', hneeds'⟩ := (mem_toSplit horder).mp hentry
      rw [hget, Option.some.injEq] at hget'
      exact hneeds (hget' ▸ hneeds')
  · intro metadata
    exact ⟨length_nodesToMove config metadata, fun a ha =>
      ⟨mem_nodesToMove ha, fun b hb => nodesToMove_smallest config ha hb⟩⟩
  · intro order' horder'
    -- two orders split the same sub-clusters, and the new numbers follow the order
    have hperm : (toSplit config sm order).Perm (toSplit config sm order') :=
      (perm_entries horder horder').filter _
    rw [hperm.length_eq] at hroom
    exact hsplit.renumbering (split_splitProposals hnodup hbelow horder' hroom) hperm

/-- Two sub-clusters of six nodes. -/
def twelveNodes : ManagementStateMachine :=
  (sixNodes.apply (.createSubCluster [12, 11, 10, 9, 8, 7])).2

theorem duplicateFree_twelveNodes : twelveNodes.DuplicateFree :=
  duplicateFree_sixNodes.apply ⟨by decide, by decide⟩

/-- Both are split: the sub-clusters 3 and 4 change their numbers with the order. -/
theorem splits_conserve_members_twelveNodes :
    (∀ n, (twelveNodes.applyAll (splitProposals {} twelveNodes [2, 1])).memberships n =
      twelveNodes.memberships n) ∧
    ∃ ρ : Equiv.Perm ℕ, (∀ c < 3, ρ c = c) ∧
      ∀ c, (twelveNodes.applyAll (splitProposals {} twelveNodes [1, 2])).getSubCluster (ρ c) =
        (twelveNodes.applyAll (splitProposals {} twelveNodes [2, 1])).getSubCluster c := by
  have hall := splits_conserve_members {} duplicateFree_twelveNodes.nodup
    (fun c hc => (duplicateFree_twelveNodes.numbered.2 c hc).2)
    (by decide : twelveNodes.IterationOrder [2, 1]) (by decide)
  obtain ⟨-, hmemberships, -, -, -, -, -, horder⟩ := hall
  obtain ⟨ρ, hbelow, hsame, -⟩ := horder [1, 2] (by decide)
  exact ⟨hmemberships, ρ, hbelow, hsame⟩

end ClusterManager

end Raftoral

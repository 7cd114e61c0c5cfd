import Raftoral.Management.ConcurrentSplits

/-!
# Concurrent consolidation

A removal plans a consolidation: it drains the smallest sub-cluster if more than `min_cluster_count`
are not draining, and destroys the drained sub-clusters that are empty. Both tests are made on the
state the call took, and the commands are proposed later: two calls may each drain a sub-cluster
when only one may go, and a node may be added to a drained sub-cluster before it is destroyed.
-/

namespace Raftoral

open ManagementStateMachine ClusterManager Planning

namespace ManagementStateMachine

variable {sm : ManagementStateMachine}

/-- The sub-cluster exists and is not draining. -/
def isActive (sm : ManagementStateMachine) (c : ℕ) : Bool :=
  (sm.getSubCluster c).any fun metadata => !metadata.isDraining

/-- The sub-cluster exists and has nodes. -/
def hasMembers (sm : ManagementStateMachine) (c : ℕ) : Bool :=
  (sm.getSubCluster c).any fun metadata => !metadata.nodeIds.isEmpty

/-- The sub-clusters that are not draining. -/
def active (sm : ManagementStateMachine) : Finset ℕ :=
  (sm.listSubClusters.filter fun c => sm.isActive c).toFinset

theorem mem_active {c : ℕ} : c ∈ sm.active ↔ sm.isActive c := by
  rw [active, List.mem_toFinset, List.mem_filter, mem_listSubClusters, and_iff_right_iff_imp]
  intro h
  obtain ⟨metadata, hget, -⟩ := (Option.any_eq_true _ _).mp h
  rw [hget]
  rfl

/-- The commands the calls propose: a sub-cluster is marked as draining, and never unmarked. -/
def Topological : ManagementCommand → Prop
  | .setMetadata _ key value => key = "draining" ∧ value = "true"
  | .deleteMetadata _ _ => False
  | .registerNodeAddress _ _ => False
  | _ => True

/-! ## What the commands do to the sub-clusters -/

theorem isDraining_insert (metadata : SubClusterMetadata) :
    SubClusterMetadata.isDraining
      { metadata with metadata := metadata.metadata.insert "draining" "true" } = true := by
  simp [SubClusterMetadata.isDraining]

theorem isActive_updateSubCluster (clusterId c : ℕ)
    {update : SubClusterMetadata → SubClusterMetadata} (event : ManagementEvent)
    (hupdate : ∀ metadata, (update metadata).isDraining = metadata.isDraining) :
    (sm.updateSubCluster clusterId update event).2.isActive c = sm.isActive c := by
  rw [isActive, getSubCluster_updateSubCluster]
  by_cases hc : clusterId = c
  · subst hc
    cases hget : sm.getSubCluster clusterId with
    | none => simp [isActive, hget]
    | some metadata => simp [isActive, hget, hupdate]
  · simp [hc, isActive]

theorem isDraining_addNode (nodeId : ℕ) (metadata : SubClusterMetadata) :
    (metadata.addNode nodeId).isDraining = metadata.isDraining := by
  unfold SubClusterMetadata.addNode
  split <;> rfl

/-- A sub-cluster that is not draining stays so unless it is deleted or drained. -/
theorem isActive_apply_of_ne (hnumbered : sm.Numbered) {command : ManagementCommand}
    (hcommand : Topological command) {c : ℕ} (hdelete : command ≠ .deleteSubCluster c)
    (hdrain : command ≠ .setMetadata c "draining" "true") (h : sm.isActive c) :
    (sm.apply command).2.isActive c := by
  cases command with
  | createSubCluster nodeIds =>
    have hne : sm.nextClusterId ≠ c := by
      rintro rfl
      simp [isActive, hnumbered.fresh] at h
    rw [isActive, apply, getSubCluster_insert, if_neg hne]
    exact h
  | deleteSubCluster clusterId =>
    rw [isActive, apply, getSubCluster_erase, if_neg fun heq => hdelete (by rw [heq])]
    exact h
  | addNodeToSubCluster clusterId nodeId =>
    rw [apply, isActive_updateSubCluster _ _ _ (isDraining_addNode nodeId)]
    exact h
  | removeNodeFromSubCluster clusterId nodeId =>
    rw [apply, isActive_updateSubCluster _ _ _ fun _ => by rfl]
    exact h
  | setMetadata clusterId key value =>
    obtain ⟨rfl, rfl⟩ := hcommand
    rw [isActive, apply, getSubCluster_updateSubCluster, if_neg fun heq => hdrain (by rw [heq])]
    exact h
  | deleteMetadata clusterId key => exact hcommand.elim
  | registerNodeAddress nodeId address => exact hcommand.elim

/-- Only a creation makes a sub-cluster that is not draining. -/
theorem isActive_of_apply {command : ManagementCommand} (hcommand : Topological command) {c : ℕ}
    (h : (sm.apply command).2.isActive c) :
    sm.isActive c ∨ command.isCreate ∧ sm.nextClusterId = c := by
  cases command with
  | createSubCluster nodeIds =>
    by_cases hne : sm.nextClusterId = c
    · exact Or.inr ⟨rfl, hne⟩
    · rw [isActive, apply, getSubCluster_insert, if_neg hne] at h
      exact Or.inl h
  | deleteSubCluster clusterId =>
    rw [isActive, apply, getSubCluster_erase] at h
    by_cases hc : clusterId = c
    · simp [hc] at h
    · rw [if_neg hc] at h
      exact Or.inl h
  | addNodeToSubCluster clusterId nodeId =>
    rw [apply, isActive_updateSubCluster _ _ _ (isDraining_addNode nodeId)] at h
    exact Or.inl h
  | removeNodeFromSubCluster clusterId nodeId =>
    rw [apply, isActive_updateSubCluster _ _ _ fun _ => by rfl] at h
    exact Or.inl h
  | setMetadata clusterId key value =>
    obtain ⟨rfl, rfl⟩ := hcommand
    rw [isActive, apply, getSubCluster_updateSubCluster] at h
    by_cases hc : clusterId = c
    · rw [if_pos hc, Option.any_map] at h
      simp [isDraining_insert] at h
    · rw [if_neg hc] at h
      exact Or.inl h
  | deleteMetadata clusterId key => exact hcommand.elim
  | registerNodeAddress nodeId address => exact hcommand.elim

theorem hasMembers_iff {c : ℕ} : sm.hasMembers c ↔ ∃ n, sm.hasMember c n := by
  rw [hasMembers, Option.any_eq_true]
  simp only [hasMember_iff]
  constructor
  · rintro ⟨metadata, hget, hne⟩
    obtain ⟨n, hn⟩ := List.exists_mem_of_ne_nil metadata.nodeIds (by simpa using hne)
    exact ⟨n, metadata, hget, hn⟩
  · rintro ⟨n, metadata, hget, hn⟩
    exact ⟨metadata, hget, by simpa using List.ne_nil_of_mem hn⟩

/-- Only a creation and an addition give nodes to a sub-cluster without any. -/
theorem hasMembers_of_apply {command : ManagementCommand} (hcommand : Topological command) {c : ℕ}
    (h : (sm.apply command).2.hasMembers c) :
    sm.hasMembers c ∨ command.isCreate ∧ sm.nextClusterId = c ∨
      ∃ n, command = .addNodeToSubCluster c n := by
  obtain ⟨n, hn⟩ := hasMembers_iff.mp h
  cases command with
  | createSubCluster nodeIds =>
    by_cases hne : sm.nextClusterId = c
    · exact Or.inr (Or.inl ⟨rfl, hne⟩)
    · rw [hasMember_createSubCluster, if_neg hne] at hn
      exact Or.inl (hasMembers_iff.mpr ⟨n, hn⟩)
  | deleteSubCluster clusterId =>
    rw [hasMember_deleteSubCluster] at hn
    by_cases hc : clusterId = c
    · simp [hc] at hn
    · rw [if_neg hc] at hn
      exact Or.inl (hasMembers_iff.mpr ⟨n, hn⟩)
  | addNodeToSubCluster clusterId nodeId =>
    rcases hasMember_addNode.mp hn with hn | ⟨rfl, -, -⟩
    · exact Or.inl (hasMembers_iff.mpr ⟨n, hn⟩)
    · exact Or.inr (Or.inr ⟨nodeId, rfl⟩)
  | removeNodeFromSubCluster clusterId nodeId =>
    exact Or.inl (hasMembers_iff.mpr ⟨n, (hasMember_removeNode.mp hn).1⟩)
  | setMetadata clusterId key value =>
    rw [hasMember_setMetadata] at hn
    exact Or.inl (hasMembers_iff.mpr ⟨n, hn⟩)
  | deleteMetadata clusterId key => exact hcommand.elim
  | registerNodeAddress nodeId address => exact hcommand.elim

end ManagementStateMachine

namespace ClusterManager

/-- The sub-clusters that commands delete. -/
def deletion : ManagementCommand → Option ℕ
  | .deleteSubCluster clusterId => some clusterId
  | _ => none

def deletions (commands : List ManagementCommand) : List ℕ := commands.filterMap deletion

theorem mem_deletions {commands : List ManagementCommand} {c : ℕ} :
    c ∈ deletions commands ↔ .deleteSubCluster c ∈ commands := by
  rw [deletions, List.mem_filterMap]
  constructor
  · rintro ⟨command, hcommand, hdeletion⟩
    cases command with
    | deleteSubCluster c' =>
      obtain rfl : c' = c := by simpa [deletion] using hdeletion
      exact hcommand
    | _ => simp [deletion] at hdeletion
  · intro h
    exact ⟨_, h, rfl⟩

/-- The command marks a sub-cluster as draining. -/
def isDrain : ManagementCommand → Bool
  | .setMetadata _ key value => key == "draining" && value == "true"
  | _ => false

theorem isDrain_iff {command : ManagementCommand} :
    isDrain command ↔ ∃ c, command = .setMetadata c "draining" "true" := by
  cases command with
  | setMetadata clusterId key value => simp [isDrain]
  | _ => simp [isDrain]

/-- The sub-clusters that are not draining, and that none of the commands drains. -/
def staying (sm : ManagementStateMachine) (commands : List ManagementCommand) : Finset ℕ :=
  sm.active.filter fun c => .setMetadata c "draining" "true" ∉ commands

theorem mem_staying {sm : ManagementStateMachine} {commands : List ManagementCommand} {c : ℕ} :
    c ∈ staying sm commands ↔ sm.isActive c ∧ .setMetadata c "draining" "true" ∉ commands := by
  rw [staying, Finset.mem_filter, mem_active]

theorem mem_drains {config : ClusterManagerConfig} {clusters : List (ℕ × SubClusterMetadata)}
    {action : ClusterAction} (h : action ∈ drains config clusters) :
    ∃ c, action = .drainCluster c := by
  simp only [drains] at h
  split at h
  · simp at h
  · split at h
    · simp at h
    · split at h
      · split at h
        · split at h
          · exact ⟨_, List.mem_singleton.mp h⟩
          · simp at h
        · simp at h
      · simp at h

/-- A consolidation destroys drained sub-clusters without nodes, and drains. -/
theorem mem_consolidation {config : ClusterManagerConfig}
    {clusters : List (ℕ × SubClusterMetadata)} {command : ManagementCommand}
    (h : command ∈ executeActions (decideConsolidation config clusters)) :
    (∃ entry ∈ clusters, entry.2.isDraining ∧ entry.2.nodeIds = [] ∧
      command = .deleteSubCluster entry.1) ∨
    ∃ c, command = .setMetadata c "draining" "true" := by
  rw [executeActions, decideConsolidation, List.flatMap_append, List.mem_append] at h
  rcases h with h | h
  · obtain ⟨action, haction, hcommand⟩ := List.mem_flatMap.mp h
    obtain ⟨entry, hentry, rfl⟩ := List.mem_map.mp haction
    obtain ⟨hmem, hempty⟩ := List.mem_filter.mp hentry
    rw [Bool.and_eq_true, List.isEmpty_iff] at hempty
    exact Or.inl ⟨entry, hmem, hempty.1, hempty.2, List.mem_singleton.mp hcommand⟩
  · obtain ⟨action, haction, hcommand⟩ := List.mem_flatMap.mp h
    obtain ⟨c, rfl⟩ := mem_drains haction
    exact Or.inr ⟨c, List.mem_singleton.mp hcommand⟩

end ClusterManager

namespace Topology

variable {config : ClusterManagerConfig} {s s' : Topology}

/-- If the plan drains, it leaves enough sub-clusters that neither it nor another call drains, and
it destroys none that has nodes by now. -/
def LeavesEnough (config : ClusterManagerConfig) (s : Topology) (i position : ℕ)
    (order : List ℕ) : Prop :=
  ((s.planned (topologyPlanner config) i position order).any isDrain →
    config.minClusterCount ≤ (staying (s.current (topologyPlanner config))
      (s.planned (topologyPlanner config) i position order ++ s.pending)).card) ∧
  ∀ c ∈ deletions (s.planned (topologyPlanner config) i position order),
    (s.current (topologyPlanner config)).hasMembers c = false

/-- What a step has to meet: no node is added to a sub-cluster that is about to be destroyed, a
decision leaves enough sub-clusters, and the counter of the sub-clusters is not at its end when a
command is proposed. -/
def ConsolidatesAlone (config : ClusterManagerConfig) (s : Topology) : TopologyOp → Prop
  | .call (.addNodeToSubCluster c _) => c ∉ deletions s.pending
  | .call (.removeNodeFromSubCluster _ _) => True
  | .decide i position order => LeavesEnough config s i position order
  | .propose _ => (s.current (topologyPlanner config)).nextClusterId + 1 < U32.size

/-- Once enough sub-clusters were not draining, there were enough at every later point of the
log, and what was deleted had no nodes. -/
structure Safe (config : ClusterManagerConfig) (s : Topology) : Prop where
  enough : ∀ p q, p ≤ q →
    config.minClusterCount ≤ (s.stateAt (topologyPlanner config) p).active.card →
    config.minClusterCount ≤ (s.stateAt (topologyPlanner config) q).active.card
  empty : ∀ position c, s.log[position]? = some (.deleteSubCluster c) →
    (s.stateAt (topologyPlanner config) position).hasMembers c = false

/-- The sub-cluster was there and is not any more, or is draining. -/
def Settled (sm : ManagementStateMachine) (c : ℕ) : Prop :=
  c < sm.nextClusterId ∧ sm.isActive c = false

theorem Settled.apply {sm : ManagementStateMachine} {command : ManagementCommand} {c : ℕ}
    (h : Settled sm c) (hcommand : Topological command)
    (hroom : command.isCreate → sm.nextClusterId + 1 < U32.size) :
    Settled (sm.apply command).2 c := by
  constructor
  · rw [nextClusterId_apply]
    by_cases hcreate : command.isCreate
    · rw [if_pos hcreate, U32.add_of_lt (hroom hcreate)]
      exact h.1.trans (Nat.lt_succ_self _)
    · rw [if_neg hcreate]
      exact h.1
  · rw [← Bool.not_eq_true]
    intro hactive
    rcases isActive_of_apply hcommand hactive with hbefore | ⟨-, rfl⟩
    · rw [h.2] at hbefore
      exact absurd hbefore (by simp)
    · exact absurd h.1 (lt_irrefl _)

structure Consolidating (config : ClusterManagerConfig) (s : Topology) : Prop where
  numbered : ∀ position, (s.stateAt (topologyPlanner config) position).Numbered
  settled : ∀ position c, Settled (s.stateAt (topologyPlanner config) position) c →
    Settled (s.current (topologyPlanner config)) c
  topological : ∀ command ∈ s.pending, Topological command
  no_add : ∀ c n, .addNodeToSubCluster c n ∉ s.pending
  enough : s.pending.any isDrain →
    config.minClusterCount ≤ (staying (s.current (topologyPlanner config)) s.pending).card
  deleted : ∀ c ∈ deletions s.pending, Settled (s.current (topologyPlanner config)) c ∧
    (s.current (topologyPlanner config)).hasMembers c = false
  safe : Safe config s

theorem Consolidating.current (h : Consolidating config s) :
    (s.current (topologyPlanner config)).Numbered := by
  rw [← State.stateAt_of_le le_rfl]
  exact h.numbered _

/-- The next command of the log. A drain or a deletion was pending, and an addition is not to a
sub-cluster that is about to be deleted. -/
structure NextCommand (config : ClusterManagerConfig) (s s' : Topology)
    (command : ManagementCommand) : Prop where
  appended : ∃ calls, s' = s.append command calls
  topological : Topological command
  room : command.isCreate → (s.current (topologyPlanner config)).nextClusterId + 1 < U32.size
  pending : s'.pending ⊆ s.pending
  drain : ∀ c, command = .setMetadata c "draining" "true" → command ∈ s.pending
  delete : ∀ c, command = .deleteSubCluster c → command ∈ s.pending
  add : ∀ c n, command = .addNodeToSubCluster c n → c ∉ deletions s.pending

section
variable {command : ManagementCommand}

theorem NextCommand.current (hnext : NextCommand config s s' command) :
    s'.current (topologyPlanner config) =
      ((s.current (topologyPlanner config)).apply command).2 := by
  obtain ⟨calls, rfl⟩ := hnext.appended
  rw [State.current_append, apply_topologyPlanner]

theorem NextCommand.stateAt_of_le (hnext : NextCommand config s s' command) {position : ℕ}
    (h : position ≤ s.log.length) :
    s'.stateAt (topologyPlanner config) position = s.stateAt (topologyPlanner config) position := by
  obtain ⟨calls, rfl⟩ := hnext.appended
  exact State.stateAt_append h

theorem NextCommand.stateAt_of_lt (hnext : NextCommand config s s' command) {position : ℕ}
    (h : s.log.length < position) :
    s'.stateAt (topologyPlanner config) position = s'.current (topologyPlanner config) := by
  obtain ⟨calls, rfl⟩ := hnext.appended
  refine State.stateAt_of_le ?_
  rw [State.log_append, List.length_append, List.length_singleton]
  omega

/-- Only a drain makes a sub-cluster stop being active: what is deleted was not active. -/
theorem Consolidating.isActive_next (h : Consolidating config s)
    (hnext : NextCommand config s s' command) {c : ℕ}
    (hc : (s.current (topologyPlanner config)).isActive c)
    (hne : command ≠ .setMetadata c "draining" "true") :
    (s'.current (topologyPlanner config)).isActive c := by
  rw [hnext.current]
  refine isActive_apply_of_ne h.current hnext.topological ?_ hne hc
  intro heq
  have hsettled := (h.deleted c (mem_deletions.mpr (heq ▸ hnext.delete c heq))).1
  rw [hsettled.2] at hc
  exact absurd hc (by simp)

theorem Consolidating.card_staying_le (h : Consolidating config s)
    (hnext : NextCommand config s s' command) :
    (staying (s.current (topologyPlanner config)) s.pending).card ≤
      (staying (s'.current (topologyPlanner config)) s'.pending).card := by
  refine Finset.card_le_card fun c hc => ?_
  obtain ⟨hc, hnot⟩ := mem_staying.mp hc
  exact mem_staying.mpr ⟨h.isActive_next hnext hc fun heq => hnot (heq ▸ hnext.drain c heq),
    fun hmem => hnot (hnext.pending hmem)⟩

/-- There are enough sub-clusters behind the command if there were before it. -/
theorem Consolidating.enough_next (h : Consolidating config s)
    (hnext : NextCommand config s s' command)
    (hbefore : config.minClusterCount ≤ (s.current (topologyPlanner config)).active.card) :
    config.minClusterCount ≤ (s'.current (topologyPlanner config)).active.card := by
  by_cases hisDrain : isDrain command
  · obtain ⟨c, heq⟩ := isDrain_iff.mp hisDrain
    have hany : s.pending.any isDrain :=
      List.any_eq_true.mpr ⟨command, hnext.drain c heq, hisDrain⟩
    calc config.minClusterCount
        ≤ (staying (s.current (topologyPlanner config)) s.pending).card := h.enough hany
      _ ≤ (staying (s'.current (topologyPlanner config)) s'.pending).card :=
        h.card_staying_le hnext
      _ ≤ (s'.current (topologyPlanner config)).active.card := Finset.card_filter_le _ _
  · refine hbefore.trans (Finset.card_le_card fun c hc => ?_)
    exact mem_active.mpr (h.isActive_next hnext (mem_active.mp hc) fun heq =>
      hisDrain (isDrain_iff.mpr ⟨c, heq⟩))

theorem Consolidating.deleted_next (h : Consolidating config s)
    (hnext : NextCommand config s s' command) {c : ℕ} (hc : c ∈ deletions s'.pending) :
    Settled (s'.current (topologyPlanner config)) c ∧
      (s'.current (topologyPlanner config)).hasMembers c = false := by
  have hc' : c ∈ deletions s.pending := mem_deletions.mpr (hnext.pending (mem_deletions.mp hc))
  obtain ⟨hsettled, hempty⟩ := h.deleted c hc'
  rw [hnext.current]
  refine ⟨hsettled.apply hnext.topological hnext.room, ?_⟩
  rw [← Bool.not_eq_true]
  intro hmembers
  rcases hasMembers_of_apply hnext.topological hmembers with hbefore | ⟨-, rfl⟩ | ⟨n, hn⟩
  · rw [hempty] at hbefore
    exact absurd hbefore (by simp)
  · exact absurd hsettled.1 (lt_irrefl _)
  · exact hnext.add c n hn hc'

theorem Consolidating.safe_next (h : Consolidating config s)
    (hnext : NextCommand config s s' command) : Safe config s' := by
  refine ⟨?_, ?_⟩
  · intro p q hpq hp
    by_cases hq : q ≤ s.log.length
    · rw [hnext.stateAt_of_le (hpq.trans hq)] at hp
      rw [hnext.stateAt_of_le hq]
      exact h.safe.enough p q hpq hp
    · rw [hnext.stateAt_of_lt (Nat.lt_of_not_le hq)]
      by_cases hp' : p ≤ s.log.length
      · refine h.enough_next hnext ?_
        rw [hnext.stateAt_of_le hp'] at hp
        rw [← State.stateAt_of_le le_rfl]
        exact h.safe.enough p _ hp' hp
      · rwa [hnext.stateAt_of_lt (Nat.lt_of_not_le hp')] at hp
  · intro position c hlog
    obtain ⟨calls, hs'⟩ := hnext.appended
    rw [hs', State.log_append] at hlog
    by_cases hlt : position < s.log.length
    · rw [List.getElem?_append_left hlt] at hlog
      rw [hnext.stateAt_of_le hlt.le]
      exact h.safe.empty position c hlog
    · -- the command itself: it was pending
      obtain rfl : position = s.log.length := by
        have := (List.getElem?_eq_some_iff.mp hlog).1
        rw [List.length_append, List.length_singleton] at this
        omega
      rw [List.getElem?_concat_length, Option.some.injEq] at hlog
      rw [hnext.stateAt_of_le le_rfl, State.stateAt_of_le le_rfl]
      exact (h.deleted c (mem_deletions.mpr (hlog ▸ hnext.delete c hlog))).2

theorem Consolidating.next (h : Consolidating config s)
    (hnext : NextCommand config s s' command) : Consolidating config s' := by
  refine ⟨?_, ?_, ?_, ?_, ?_, fun c hc => h.deleted_next hnext hc, h.safe_next hnext⟩
  · obtain ⟨calls, rfl⟩ := hnext.appended
    exact State.forall_stateAt_append h.numbered (h.current.apply hnext.room)
  · intro position c hsettled
    by_cases hle : position ≤ s.log.length
    · rw [hnext.stateAt_of_le hle] at hsettled
      rw [hnext.current]
      exact (h.settled position c hsettled).apply hnext.topological hnext.room
    · rwa [hnext.stateAt_of_lt (Nat.lt_of_not_le hle)] at hsettled
  · intro command' hcommand'
    exact h.topological command' (hnext.pending hcommand')
  · intro c n hmem
    exact h.no_add c n (hnext.pending hmem)
  · intro hany
    obtain ⟨drain, hmem, hisDrain⟩ := List.any_eq_true.mp hany
    exact (h.enough (List.any_eq_true.mpr ⟨drain, hnext.pending hmem, hisDrain⟩)).trans
      (h.card_staying_le hnext)

end

/-- What a decision plans: a split, or a consolidation of what its snapshot shows. -/
theorem Consolidating.planned (h : Consolidating config s) {i position : ℕ} {order : List ℕ}
    {call : TopologyCall}
    (hplan : (topologyPlanner config).plan call (s.stateAt (topologyPlanner config) position) order =
      some (s.planned (topologyPlanner config) i position order))
    {command : ManagementCommand}
    (hcommand : command ∈ s.planned (topologyPlanner config) i position order) :
    Topological command ∧ (∀ c n, command ≠ .addNodeToSubCluster c n) ∧
      ∀ c, command = .deleteSubCluster c → Settled (s.current (topologyPlanner config)) c := by
  obtain ⟨horder, hplanned⟩ := planned_cases hplan
  rw [hplanned] at hcommand
  cases call with
  | addNodeToSubCluster c n =>
    obtain ⟨c', metadata, -, -, rfl | ⟨m, -, rfl⟩⟩ := (mem_splitProposals horder).mp hcommand
    · exact ⟨trivial, by simp, by simp⟩
    · exact ⟨trivial, by simp, by simp⟩
  | removeNodeFromSubCluster c n =>
    rcases mem_consolidation hcommand with ⟨entry, hentry, hdraining, -, rfl⟩ | ⟨c', rfl⟩
    · refine ⟨trivial, by simp, ?_⟩
      rintro c' heq
      obtain rfl := ManagementCommand.deleteSubCluster.inj heq
      have hget := (mem_entries horder).mp hentry
      refine h.settled position _ ⟨((h.numbered position).2 entry.1 (by rw [hget]; rfl)).2, ?_⟩
      rw [isActive, hget, Option.any_some, hdraining]
      rfl
    · exact ⟨⟨rfl, rfl⟩, by simp, by simp⟩

/-- Enough sub-clusters stay if neither the plan nor what is pending drains too many. -/
theorem Consolidating.enough_planned (h : Consolidating config s) {i position : ℕ} {order : List ℕ}
    (hleaves : LeavesEnough config s i position order)
    (hany : (s.planned (topologyPlanner config) i position order ++ s.pending).any isDrain) :
    config.minClusterCount ≤ (staying (s.current (topologyPlanner config))
      (s.planned (topologyPlanner config) i position order ++ s.pending)).card := by
  by_cases hplans : (s.planned (topologyPlanner config) i position order).any isDrain
  · exact hleaves.1 hplans
  · -- no drain in the plan: what stays is what stayed
    rw [List.any_append, Bool.or_eq_true] at hany
    have hpending := hany.resolve_left hplans
    rw [Bool.not_eq_true, List.any_eq_false] at hplans
    refine (h.enough hpending).trans (Finset.card_le_card fun c hc => ?_)
    obtain ⟨hactive, hnot⟩ := mem_staying.mp hc
    refine mem_staying.mpr ⟨hactive, fun hmem => ?_⟩
    rcases List.mem_append.mp hmem with hmem | hmem
    · exact hplans _ hmem (isDrain_iff.mpr ⟨c, rfl⟩)
    · exact hnot hmem

theorem Consolidating.decide (h : Consolidating config s) {i position : ℕ} {order : List ℕ}
    {call : TopologyCall} {calls : List (Call ManagementCommand TopologyCall)}
    (hplan : (topologyPlanner config).plan call (s.stateAt (topologyPlanner config) position) order =
      some (s.planned (topologyPlanner config) i position order))
    (hleaves : LeavesEnough config s i position order) (hs' : s' = { s with calls })
    (hpending : s'.pending.Perm
      (s.planned (topologyPlanner config) i position order ++ s.pending)) :
    Consolidating config s' := by
  have hcurrent : s'.current (topologyPlanner config) = s.current (topologyPlanner config) := by
    rw [hs']
    rfl
  -- nothing is applied: what is new are the planned commands
  refine ⟨?_, ?_, ?_, ?_, ?_, ?_, ?_⟩
  · rw [hs']
    exact h.numbered
  · rw [hs']
    exact h.settled
  · intro command hcommand
    rcases List.mem_append.mp (hpending.subset hcommand) with hcommand | hcommand
    · exact (h.planned hplan hcommand).1
    · exact h.topological command hcommand
  · intro c n hmem
    rcases List.mem_append.mp (hpending.subset hmem) with hmem | hmem
    · exact (h.planned hplan hmem).2.1 c n rfl
    · exact h.no_add c n hmem
  · have hstaying : staying (s'.current (topologyPlanner config)) s'.pending =
        staying (s.current (topologyPlanner config))
          (s.planned (topologyPlanner config) i position order ++ s.pending) := by
      ext c
      rw [mem_staying, mem_staying, hcurrent, hpending.mem_iff]
    intro hany
    obtain ⟨drain, hmem, hisDrain⟩ := List.any_eq_true.mp hany
    rw [hstaying]
    exact h.enough_planned hleaves
      (List.any_eq_true.mpr ⟨drain, hpending.subset hmem, hisDrain⟩)
  · intro c hc
    rw [hcurrent]
    rcases List.mem_append.mp (hpending.subset (mem_deletions.mp hc)) with hmem | hmem
    · exact ⟨(h.planned hplan hmem).2.2 c rfl, hleaves.2 c (mem_deletions.mpr hmem)⟩
    · exact h.deleted c (mem_deletions.mpr hmem)
  · rw [hs']
    exact ⟨h.safe.enough, h.safe.empty⟩

theorem consolidating_step {op : TopologyOp} (h : Consolidating config s)
    (hC : ConsolidatesAlone config s op)
    (hstep : step (topologyPlanner config) s op = some s') : Consolidating config s' := by
  obtain ⟨kind, calls, rfl, hs', -, hpending⟩ |
    ⟨i, position, order, kind, calls, rfl, -, -, hplan, hs', -, hpending⟩ |
    ⟨i, command, calls, rfl, hs', -, hpending⟩ := step_cases hstep
  · cases kind with
    | addNodeToSubCluster c n =>
      have hnext : NextCommand config s s' (.addNodeToSubCluster c n) := by
        refine ⟨⟨calls, hs'⟩, trivial, by simp [ManagementCommand.isCreate],
          hpending ▸ List.Subset.refl _, by simp, by simp, ?_⟩
        intro c' n' heq
        obtain ⟨rfl, -⟩ := ManagementCommand.addNodeToSubCluster.inj heq
        exact hC
      exact h.next hnext
    | removeNodeFromSubCluster c n =>
      have hnext : NextCommand config s s' (.removeNodeFromSubCluster c n) :=
        ⟨⟨calls, hs'⟩, trivial, by simp [ManagementCommand.isCreate],
          hpending ▸ List.Subset.refl _, by simp, by simp, by simp⟩
      exact h.next hnext
  · exact h.decide hplan hC hs' hpending
  · have hmem : command ∈ s.pending := hpending.mem_iff.mpr List.mem_cons_self
    refine h.next ⟨⟨calls, hs'⟩, h.topological command hmem, fun _ => hC,
      fun c hc => hpending.mem_iff.mpr (List.mem_cons_of_mem _ hc), fun _ _ => hmem,
      fun _ _ => hmem, ?_⟩
    rintro c n rfl
    exact absurd hmem (h.no_add c n)

theorem consolidating_start {sm : ManagementStateMachine} (h : sm.Numbered) :
    Consolidating config { initial := sm } := by
  have hstate : ∀ position, State.stateAt (topologyPlanner config)
      ({ initial := sm } : Topology) position = sm := by
    intro position
    rw [State.stateAt, List.take_nil]
    rfl
  refine ⟨?_, ?_, by simp [State.pending], by simp [State.pending], by simp [State.pending],
    by simp [State.pending, deletions], ?_, by simp⟩
  · intro position
    rw [hstate]
    exact h
  · intro position c hsettled
    rwa [hstate] at hsettled
  · intro p q _ hp
    rwa [hstate] at hp ⊢

/-- In runs in which every decision leaves enough sub-clusters and no node is added to one that is
about to be destroyed, the number of sub-clusters that are not draining never falls below the
minimum and only sub-clusters without nodes are deleted. -/
theorem safe_of_consolidatesAlone (config : ClusterManagerConfig) {sm : ManagementStateMachine}
    (h : sm.Numbered) {ops : List TopologyOp}
    (halone : Transition.Along (step (topologyPlanner config)) (ConsolidatesAlone config)
      { initial := sm } ops)
    {s : Topology}
    (hrun : Transition.run (step (topologyPlanner config)) { initial := sm } ops = some s) :
    Safe config s := by
  have hend : Consolidating config s :=
    Transition.run_induction (fun s op s' hs hC hstep => consolidating_step hs hC hstep)
      (consolidating_start h) halone hrun
  exact hend.safe

instance (config : ClusterManagerConfig) (s : Topology) (op : TopologyOp) :
    Decidable (ConsolidatesAlone config s op) :=
  match op with
  | .call (.addNodeToSubCluster c _) => inferInstanceAs (Decidable (c ∉ deletions s.pending))
  | .call (.removeNodeFromSubCluster _ _) => .isTrue trivial
  | .decide i position order => inferInstanceAs (Decidable (_ ∧ ∀ c ∈ deletions
      (s.planned (topologyPlanner config) i position order), _ = false))
  | .propose _ => inferInstanceAs (Decidable (_ < U32.size))

/-- Two sub-clusters of two nodes. -/
def twoPairs : ManagementStateMachine :=
  ManagementStateMachine.applyAll {} [.createSubCluster [1, 3], .createSubCluster [2, 4]]

theorem numbered_twoPairs : twoPairs.Numbered := by
  have hfirst : (ManagementStateMachine.apply {} (.createSubCluster [1, 3])).2.Numbered :=
    numbered_new.apply (by decide)
  exact hfirst.apply (by decide)

/-- A sub-cluster loses a node and is drained, loses the other and is destroyed. -/
def drainAndDestroy : List TopologyOp :=
  [.call (.removeNodeFromSubCluster 1 3), .decide 0 1 [1, 2], .propose 0,
    .call (.removeNodeFromSubCluster 1 1), .decide 1 3 [1, 2], .propose 1]

theorem safe_drainAndDestroy : ∃ s : Topology,
    Transition.run (step (topologyPlanner {})) { initial := twoPairs } drainAndDestroy = some s ∧
      .deleteSubCluster 1 ∈ s.log ∧ Safe {} s := by
  have hrun : Transition.run (step (topologyPlanner {})) { initial := twoPairs } drainAndDestroy =
      some {
        initial := twoPairs
        log := [.removeNodeFromSubCluster 1 3, .setMetadata 1 "draining" "true",
          .removeNodeFromSubCluster 1 1, .deleteSubCluster 1]
        calls := [⟨.removeNodeFromSubCluster 1 3, .executing []⟩,
          ⟨.removeNodeFromSubCluster 1 1, .executing []⟩] } := by rfl
  exact ⟨_, hrun, by decide, safe_of_consolidatesAlone {} numbered_twoPairs (by decide) hrun⟩

/-- Two removals, and each plans on a state that shows both and drains another sub-cluster. -/
def twoDrains : List TopologyOp :=
  [.call (.removeNodeFromSubCluster 1 3), .call (.removeNodeFromSubCluster 2 4),
    .decide 0 2 [1, 2], .decide 1 2 [2, 1], .propose 0, .propose 1]

/-- Sub-cluster 1 is drained and empty. -/
def oneDrained : ManagementStateMachine :=
  twoPairs.applyAll [.setMetadata 1 "draining" "true", .removeNodeFromSubCluster 1 1,
    .removeNodeFromSubCluster 1 3]

/-- A node is added to it between the plan to destroy it and the deletion. -/
def addBeforeDestroy : List TopologyOp :=
  [.call (.removeNodeFromSubCluster 2 4), .decide 0 1 [1, 2], .call (.addNodeToSubCluster 1 5),
    .propose 0]

/-- The two drains leave no sub-cluster that is not draining, and a sub-cluster with a node is
deleted. -/
theorem consolidation_unsafe :
    (∃ s : Topology,
      Transition.run (step (topologyPlanner {})) { initial := twoPairs } twoDrains = some s ∧
      1 ≤ twoPairs.active.card ∧ ¬ 1 ≤ (s.current (topologyPlanner {})).active.card) ∧
    ∃ s : Topology,
      Transition.run (step (topologyPlanner {})) { initial := oneDrained } addBeforeDestroy =
        some s ∧
      s.log[2]? = some (.deleteSubCluster 1) ∧
      (s.stateAt (topologyPlanner {}) 2).hasMember 1 5 :=
  ⟨⟨{ initial := twoPairs
      log := [.removeNodeFromSubCluster 1 3, .removeNodeFromSubCluster 2 4,
        .setMetadata 1 "draining" "true", .setMetadata 2 "draining" "true"]
      calls := [⟨.removeNodeFromSubCluster 1 3, .executing []⟩,
        ⟨.removeNodeFromSubCluster 2 4, .executing []⟩] }, by rfl, by decide, by decide⟩,
    { initial := oneDrained
      log := [.removeNodeFromSubCluster 2 4, .addNodeToSubCluster 1 5, .deleteSubCluster 1]
      calls := [⟨.removeNodeFromSubCluster 2 4, .executing []⟩,
        ⟨.addNodeToSubCluster 1 5, .waiting 1⟩] }, by rfl, by rfl, by decide⟩

end Topology

end Raftoral

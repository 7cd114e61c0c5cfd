import Raftoral.Lib.Switch
import Raftoral.Raft.StateMachine

/-!
# `ManagementStateMachine`

The model of `management/state_machine.rs` and `management/event.rs`: the metadata of the
sub-clusters, their members and the addresses of the nodes. Sub-clusters are numbered from 1
in the order of their creation, by a 32-bit counter.
-/

namespace Raftoral

/-- A map whose keys are machine words. -/
abbrev WordMap (V : Type) := Std.ExtTreeMap ℕ V compare

namespace WordMap

variable {V : Type}

theorem contains_insert (m : WordMap V) (k c : ℕ) (v : V) :
    (m.insert k v).contains c = (decide (k = c) || m.contains c) := by
  rw [Std.ExtTreeMap.contains_insert]
  by_cases h : k = c <;> simp [h]

theorem contains_erase (m : WordMap V) (k c : ℕ) :
    (m.erase k).contains c = (decide (k ≠ c) && m.contains c) := by
  rw [Std.ExtTreeMap.contains_erase]
  by_cases h : k = c <;> simp [h]

end WordMap

inductive ManagementCommand where
  | createSubCluster (nodeIds : List ℕ)
  | deleteSubCluster (clusterId : ℕ)
  | addNodeToSubCluster (clusterId nodeId : ℕ)
  | removeNodeFromSubCluster (clusterId nodeId : ℕ)
  | setMetadata (clusterId : ℕ) (key value : String)
  | deleteMetadata (clusterId : ℕ) (key : String)
  | registerNodeAddress (nodeId : ℕ) (address : String)
deriving DecidableEq, Repr

/-- Whether a command makes a new sub-cluster. -/
def ManagementCommand.isCreate : ManagementCommand → Bool
  | .createSubCluster _ => true
  | _ => false

inductive ManagementEvent where
  | subClusterCreated (clusterId : ℕ) (nodeIds : List ℕ)
  | subClusterDeleted (clusterId : ℕ)
  | nodeAddedToSubCluster (clusterId nodeId : ℕ)
  | nodeRemovedFromSubCluster (clusterId nodeId : ℕ)
  /-- A value of `none` means the key was deleted. -/
  | metadataUpdated (clusterId : ℕ) (key : String) (value : Option String)
  | failedNodeDetected (nodeId : ℕ)
deriving DecidableEq, Repr

/-- What an event says about the membership of a node in a sub-cluster. -/
def ManagementEvent.switch (nodeId clusterId : ℕ) : ManagementEvent → Switch
  | .subClusterCreated c nodeIds => if c = clusterId ∧ nodeId ∈ nodeIds then .on else .keep
  | .subClusterDeleted c => if c = clusterId then .off else .keep
  | .nodeAddedToSubCluster c n => if c = clusterId ∧ n = nodeId then .on else .keep
  | .nodeRemovedFromSubCluster c n => if c = clusterId ∧ n = nodeId then .off else .keep
  | .metadataUpdated _ _ _ => .keep
  | .failedNodeDetected _ => .keep

structure SubClusterMetadata where
  nodeIds : List ℕ
  metadata : Std.ExtTreeMap String String compare := ∅

namespace SubClusterMetadata

/-- A node is added at the end, once. -/
def addNode (nodeId : ℕ) (metadata : SubClusterMetadata) : SubClusterMetadata :=
  if metadata.nodeIds.contains nodeId then metadata
  else { metadata with nodeIds := metadata.nodeIds ++ [nodeId] }

/-- `retain` of the other nodes. -/
def removeNode (nodeId : ℕ) (metadata : SubClusterMetadata) : SubClusterMetadata :=
  { metadata with nodeIds := metadata.nodeIds.filter (· != nodeId) }

end SubClusterMetadata

structure ManagementStateMachine where
  subClusters : WordMap SubClusterMetadata := ∅
  /-- 0 is reserved for the management cluster. -/
  nextClusterId : ℕ := 1
  nodeAddresses : WordMap String := ∅

namespace ManagementStateMachine

/-! ## Queries -/

def getSubCluster (sm : ManagementStateMachine) (clusterId : ℕ) : Option SubClusterMetadata :=
  sm.subClusters[clusterId]?

def listSubClusters (sm : ManagementStateMachine) : List ℕ := sm.subClusters.keys

def getNodeAddress (sm : ManagementStateMachine) (nodeId : ℕ) : Option String :=
  sm.nodeAddresses[nodeId]?

/-! ## Commands -/

/-- The commands about one sub-cluster change its metadata, or fail if there is none. -/
def updateSubCluster (sm : ManagementStateMachine) (clusterId : ℕ)
    (update : SubClusterMetadata → SubClusterMetadata) (event : ManagementEvent) :
    Except String (List ManagementEvent) × ManagementStateMachine :=
  match sm.subClusters[clusterId]? with
  | some metadata =>
    (.ok [event], { sm with subClusters := sm.subClusters.insert clusterId (update metadata) })
  | none => (.error s!"Sub-cluster {clusterId} not found", sm)

def apply (sm : ManagementStateMachine) :
    ManagementCommand → Except String (List ManagementEvent) × ManagementStateMachine
  | .createSubCluster nodeIds =>
    let clusterId := sm.nextClusterId
    (.ok [.subClusterCreated clusterId nodeIds],
      { sm with
        nextClusterId := U32.add sm.nextClusterId 1
        subClusters := sm.subClusters.insert clusterId { nodeIds } })
  | .deleteSubCluster clusterId =>
    (.ok [.subClusterDeleted clusterId],
      { sm with subClusters := sm.subClusters.erase clusterId })
  | .addNodeToSubCluster clusterId nodeId =>
    sm.updateSubCluster clusterId (SubClusterMetadata.addNode nodeId)
      (.nodeAddedToSubCluster clusterId nodeId)
  | .removeNodeFromSubCluster clusterId nodeId =>
    sm.updateSubCluster clusterId (SubClusterMetadata.removeNode nodeId)
      (.nodeRemovedFromSubCluster clusterId nodeId)
  | .setMetadata clusterId key value =>
    sm.updateSubCluster clusterId
      (fun metadata => { metadata with metadata := metadata.metadata.insert key value })
      (.metadataUpdated clusterId key (some value))
  | .deleteMetadata clusterId key =>
    sm.updateSubCluster clusterId
      (fun metadata => { metadata with metadata := metadata.metadata.erase key })
      (.metadataUpdated clusterId key none)
  -- bookkeeping only, no event
  | .registerNodeAddress nodeId address =>
    (.ok [], { sm with nodeAddresses := sm.nodeAddresses.insert nodeId address })

/-- A snapshot holds the whole state. -/
instance [SerdeJson ManagementStateMachine] :
    StateMachine ManagementStateMachine ManagementCommand ManagementEvent where
  apply := ManagementStateMachine.apply
  snapshot sm := .ok (SerdeJson.toVec sm)
  restore sm data :=
    match (SerdeJson.fromSlice data : Except String ManagementStateMachine) with
    | .ok snapshot => (.ok (), snapshot)
    | .error e => (.error e, sm)
  onFollowerFailed _ nodeId := [.failedNodeDetected nodeId]

/-! ## Membership -/

/-- Whether a node is in a sub-cluster. -/
def hasMember (sm : ManagementStateMachine) (clusterId nodeId : ℕ) : Bool :=
  (sm.getSubCluster clusterId).any (·.nodeIds.contains nodeId)

/-- The events a command publishes: none if it fails. -/
def events (sm : ManagementStateMachine) (command : ManagementCommand) : List ManagementEvent :=
  (sm.apply command).1.toOption.getD []

theorem hasMember_of_getSubCluster {sm : ManagementStateMachine} {clusterId nodeId : ℕ}
    {metadata : SubClusterMetadata} (h : sm.getSubCluster clusterId = some metadata) :
    sm.hasMember clusterId nodeId = metadata.nodeIds.contains nodeId := by
  rw [hasMember, h, Option.any_some]

theorem hasMember_iff {sm : ManagementStateMachine} {clusterId nodeId : ℕ} :
    sm.hasMember clusterId nodeId ↔
      ∃ metadata, sm.getSubCluster clusterId = some metadata ∧ nodeId ∈ metadata.nodeIds := by
  simp [hasMember, Option.any_eq_true]

/-- The sub-clusters after an update of one of them. -/
theorem getSubCluster_insert (sm : ManagementStateMachine) (clusterId c next : ℕ)
    (metadata : SubClusterMetadata) :
    getSubCluster { sm with
      subClusters := sm.subClusters.insert clusterId metadata, nextClusterId := next } c =
      if clusterId = c then some metadata else sm.getSubCluster c := by
  simp [getSubCluster, Std.ExtTreeMap.getElem?_insert]

theorem getSubCluster_erase (sm : ManagementStateMachine) (clusterId c : ℕ) :
    getSubCluster { sm with subClusters := sm.subClusters.erase clusterId } c =
      if clusterId = c then none else sm.getSubCluster c := by
  simp [getSubCluster, Std.ExtTreeMap.getElem?_erase]

/-- An update of a sub-cluster that exists, and what is published of it. -/
theorem updateSubCluster_cases (sm : ManagementStateMachine) (clusterId : ℕ)
    (update : SubClusterMetadata → SubClusterMetadata) (event : ManagementEvent) :
    (∃ metadata, sm.getSubCluster clusterId = some metadata ∧
      sm.updateSubCluster clusterId update event = (.ok [event],
        { sm with subClusters := sm.subClusters.insert clusterId (update metadata) })) ∨
    (sm.getSubCluster clusterId = none ∧ sm.updateSubCluster clusterId update event =
      (.error s!"Sub-cluster {clusterId} not found", sm)) := by
  unfold updateSubCluster getSubCluster
  cases h : sm.subClusters[clusterId]? with
  | some metadata => exact Or.inl ⟨metadata, rfl, rfl⟩
  | none => exact Or.inr ⟨rfl, rfl⟩

/-- An update publishes its event if the sub-cluster exists, and the members are those the
event says. -/
theorem hasMember_updateSubCluster {sm : ManagementStateMachine} {clusterId c nodeId : ℕ}
    {update : SubClusterMetadata → SubClusterMetadata} {event : ManagementEvent}
    (hself : ∀ metadata, (update metadata).nodeIds.contains nodeId =
      (event.switch nodeId clusterId).act (metadata.nodeIds.contains nodeId))
    (hother : ∀ c, clusterId ≠ c → event.switch nodeId c = .keep) :
    (sm.updateSubCluster clusterId update event).2.hasMember c nodeId =
      Switch.replay (sm.hasMember c nodeId)
        (((sm.updateSubCluster clusterId update event).1.toOption.getD []).map
          (·.switch nodeId c)) := by
  rcases sm.updateSubCluster_cases clusterId update event with ⟨metadata, hget, h⟩ | ⟨hget, h⟩
  · rw [h]
    by_cases hc : clusterId = c
    · subst hc
      have hupdated := getSubCluster_insert sm clusterId clusterId sm.nextClusterId (update metadata)
      rw [if_pos rfl] at hupdated
      rw [hasMember_of_getSubCluster hget, hasMember_of_getSubCluster hupdated, hself]
      rfl
    · rw [hasMember, getSubCluster_insert, if_neg hc]
      simp [Except.toOption, hother c hc, hasMember]
  · rw [h]
    rfl

/-- A command changes the members as its events say, if the next ID is not in use. -/
theorem hasMember_apply {sm : ManagementStateMachine} (command : ManagementCommand)
    (clusterId nodeId : ℕ) (hfresh : sm.getSubCluster sm.nextClusterId = none) :
    (sm.apply command).2.hasMember clusterId nodeId = Switch.replay (sm.hasMember clusterId nodeId)
      ((sm.events command).map (·.switch nodeId clusterId)) := by
  cases command with
  | createSubCluster nodeIds =>
    simp only [apply, events, hasMember, getSubCluster_insert]
    by_cases hc : sm.nextClusterId = clusterId
    · subst hc
      by_cases hmem : nodeId ∈ nodeIds
      · simp [Except.toOption, ManagementEvent.switch, hmem]
      -- nobody was a member of the sub-cluster that did not exist
      · simp [Except.toOption, ManagementEvent.switch, hmem, hfresh]
    · simp [Except.toOption, ManagementEvent.switch, hc]
  | deleteSubCluster c =>
    simp only [apply, events, hasMember, getSubCluster_erase]
    by_cases hc : c = clusterId
    · simp [Except.toOption, ManagementEvent.switch, hc]
    · simp [Except.toOption, ManagementEvent.switch, hc]
  | addNodeToSubCluster c n =>
    refine hasMember_updateSubCluster ?_ ?_
    · intro metadata
      by_cases hn : n = nodeId
      · subst hn
        by_cases hmem : n ∈ metadata.nodeIds
        · simp [SubClusterMetadata.addNode, ManagementEvent.switch, hmem]
        · simp [SubClusterMetadata.addNode, ManagementEvent.switch, hmem]
      · by_cases hmem : n ∈ metadata.nodeIds
        · simp [SubClusterMetadata.addNode, ManagementEvent.switch, hmem, hn]
        · simp [SubClusterMetadata.addNode, ManagementEvent.switch, hmem, hn, Ne.symm hn]
    · intro c' hc
      simp [ManagementEvent.switch, hc]
  | removeNodeFromSubCluster c n =>
    refine hasMember_updateSubCluster ?_ ?_
    · intro metadata
      by_cases hn : n = nodeId
      · subst hn
        simp [SubClusterMetadata.removeNode, ManagementEvent.switch]
      · simp [SubClusterMetadata.removeNode, ManagementEvent.switch, hn, Ne.symm hn]
    · intro c' hc
      simp [ManagementEvent.switch, hc]
  | setMetadata c key value =>
    exact hasMember_updateSubCluster (fun _ => rfl) (fun _ _ => rfl)
  | deleteMetadata c key =>
    exact hasMember_updateSubCluster (fun _ => rfl) (fun _ _ => rfl)
  | registerNodeAddress n address => rfl

/-! ## The numbers of the sub-clusters -/

/-- What a command does to the existence of a sub-cluster, if the next ID is `next`. -/
def existence (next clusterId : ℕ) : ManagementCommand → Switch
  | .createSubCluster _ => if next = clusterId then .on else .keep
  | .deleteSubCluster c => if c = clusterId then .off else .keep
  | _ => .keep

theorem isSome_updateSubCluster (sm : ManagementStateMachine) (clusterId c : ℕ)
    (update : SubClusterMetadata → SubClusterMetadata) (event : ManagementEvent) :
    ((sm.updateSubCluster clusterId update event).2.getSubCluster c).isSome =
      (sm.getSubCluster c).isSome := by
  rcases sm.updateSubCluster_cases clusterId update event with ⟨metadata, hget, h⟩ | ⟨hget, h⟩
  · rw [h, getSubCluster_insert]
    by_cases hc : clusterId = c
    · subst hc
      simp [hget]
    · rw [if_neg hc]
  · rw [h]

theorem isSome_apply (sm : ManagementStateMachine) (command : ManagementCommand) (c : ℕ) :
    ((sm.apply command).2.getSubCluster c).isSome =
      (existence sm.nextClusterId c command).act (sm.getSubCluster c).isSome := by
  cases command with
  | createSubCluster nodeIds =>
    rw [apply, getSubCluster_insert, existence]
    by_cases hc : sm.nextClusterId = c <;> simp [hc]
  | deleteSubCluster c' =>
    rw [apply, getSubCluster_erase, existence]
    by_cases hc : c' = c <;> simp [hc]
  | addNodeToSubCluster c' n => exact isSome_updateSubCluster sm c' c _ _
  | removeNodeFromSubCluster c' n => exact isSome_updateSubCluster sm c' c _ _
  | setMetadata c' key value => exact isSome_updateSubCluster sm c' c _ _
  | deleteMetadata c' key => exact isSome_updateSubCluster sm c' c _ _
  | registerNodeAddress n address => rfl

theorem nextClusterId_updateSubCluster (sm : ManagementStateMachine) (clusterId : ℕ)
    (update : SubClusterMetadata → SubClusterMetadata) (event : ManagementEvent) :
    (sm.updateSubCluster clusterId update event).2.nextClusterId = sm.nextClusterId := by
  rcases sm.updateSubCluster_cases clusterId update event with ⟨metadata, -, h⟩ | ⟨-, h⟩ <;> rw [h]

/-- Only a creation takes a number. -/
theorem nextClusterId_apply (sm : ManagementStateMachine) (command : ManagementCommand) :
    (sm.apply command).2.nextClusterId =
      if command.isCreate then U32.add sm.nextClusterId 1 else sm.nextClusterId := by
  cases command with
  | createSubCluster nodeIds => rfl
  | deleteSubCluster c => rfl
  | addNodeToSubCluster c n => exact nextClusterId_updateSubCluster sm c _ _
  | removeNodeFromSubCluster c n => exact nextClusterId_updateSubCluster sm c _ _
  | setMetadata c key value => exact nextClusterId_updateSubCluster sm c _ _
  | deleteMetadata c key => exact nextClusterId_updateSubCluster sm c _ _
  | registerNodeAddress n address => rfl

/-- The sub-clusters are numbered from 1 up to the next number. -/
def Numbered (sm : ManagementStateMachine) : Prop :=
  1 ≤ sm.nextClusterId ∧
    ∀ c, (sm.getSubCluster c).isSome → 1 ≤ c ∧ c < sm.nextClusterId

theorem numbered_new : Numbered {} := by
  refine ⟨le_rfl, fun c hc => ?_⟩
  simp [getSubCluster] at hc

/-- The next number is not in use. -/
theorem Numbered.fresh {sm : ManagementStateMachine} (h : Numbered sm) :
    sm.getSubCluster sm.nextClusterId = none := by
  by_contra hsome
  exact absurd (h.2 _ (Option.isSome_iff_ne_none.mpr hsome)).2 (lt_irrefl _)

/-- Commands keep the numbering until the counter overflows. -/
theorem Numbered.apply {sm : ManagementStateMachine} (h : Numbered sm)
    {command : ManagementCommand}
    (hlt : command.isCreate → sm.nextClusterId + 1 < U32.size) :
    Numbered (sm.apply command).2 := by
  have hnext := sm.nextClusterId_apply command
  by_cases hcreate : command.isCreate = true
  · rw [if_pos hcreate, U32.add_of_lt (hlt hcreate)] at hnext
    refine ⟨by omega, fun c hc => ?_⟩
    rw [hnext]
    rw [isSome_apply] at hc
    cases command with
    | createSubCluster nodeIds =>
      by_cases hc' : sm.nextClusterId = c
      · have := h.1
        omega
      · rw [existence, if_neg hc', Switch.act_keep] at hc
        have := h.2 c hc
        omega
    | _ => exact absurd hcreate (by simp [ManagementCommand.isCreate])
  · rw [if_neg hcreate] at hnext
    refine ⟨by rw [hnext]; exact h.1, fun c hc => ?_⟩
    rw [hnext]
    rw [isSome_apply] at hc
    cases command with
    | createSubCluster nodeIds => exact absurd rfl hcreate
    | deleteSubCluster c' =>
      by_cases hc' : c' = c
      · simp [existence, hc'] at hc
      · rw [existence, if_neg hc', Switch.act_keep] at hc
        exact h.2 c hc
    | _ => exact h.2 c hc

/-- A sub-cluster that is gone after a command was gone before, or the command's events say that
it was deleted. -/
theorem deleted_mem_events {sm : ManagementStateMachine} {command : ManagementCommand} {c : ℕ}
    (h : (sm.apply command).2.getSubCluster c = none) :
    sm.getSubCluster c = none ∨ .subClusterDeleted c ∈ sm.events command := by
  have hsome := sm.isSome_apply command c
  rw [h, Option.isSome_none] at hsome
  cases command with
  | createSubCluster nodeIds =>
    by_cases hc : sm.nextClusterId = c
    · simp [existence, hc] at hsome
    · exact Or.inl (by simpa [existence, hc] using hsome)
  | deleteSubCluster c' =>
    by_cases hc : c' = c
    · exact Or.inr (by simp [events, apply, Except.toOption, hc])
    · exact Or.inl (by simpa [existence, hc] using hsome)
  | _ => exact Or.inl (by simpa [existence] using hsome)

/-- The event of an update is its only one, and the sub-cluster is there. -/
theorem mem_events_updateSubCluster {sm : ManagementStateMachine} {clusterId : ℕ}
    {update : SubClusterMetadata → SubClusterMetadata} {event e : ManagementEvent}
    (h : e ∈ (sm.updateSubCluster clusterId update event).1.toOption.getD []) :
    e = event ∧ (sm.getSubCluster clusterId).isSome := by
  rcases sm.updateSubCluster_cases clusterId update event with ⟨metadata, hget, hu⟩ | ⟨-, hu⟩
  · rw [hu] at h
    exact ⟨by simpa [Except.toOption] using h, by rw [hget]; rfl⟩
  · rw [hu] at h
    simp [Except.toOption] at h

/-- Nodes are only added to sub-clusters that exist. -/
theorem isSome_of_nodeAdded {sm : ManagementStateMachine} {command : ManagementCommand} {c n : ℕ}
    (h : .nodeAddedToSubCluster c n ∈ sm.events command) :
    (sm.getSubCluster c).isSome ∧ command = .addNodeToSubCluster c n := by
  cases command with
  | createSubCluster nodeIds => simp [events, apply, Except.toOption] at h
  | deleteSubCluster c' => simp [events, apply, Except.toOption] at h
  | addNodeToSubCluster c' n' =>
    obtain ⟨he, hsome⟩ := mem_events_updateSubCluster h
    cases he
    exact ⟨hsome, rfl⟩
  | removeNodeFromSubCluster c' n' => cases (mem_events_updateSubCluster h).1
  | setMetadata c' key value => cases (mem_events_updateSubCluster h).1
  | deleteMetadata c' key => cases (mem_events_updateSubCluster h).1
  | registerNodeAddress n' address => simp [events, apply, Except.toOption] at h

/-- A new sub-cluster has the next number. -/
theorem eq_nextClusterId_of_created {sm : ManagementStateMachine} {command : ManagementCommand}
    {c : ℕ} {nodeIds : List ℕ} (h : .subClusterCreated c nodeIds ∈ sm.events command) :
    c = sm.nextClusterId ∧ command = .createSubCluster nodeIds := by
  cases command with
  | createSubCluster ids =>
    have he : c = sm.nextClusterId ∧ nodeIds = ids := by
      simpa [events, apply, Except.toOption] using h
    exact ⟨he.1, by rw [he.2]⟩
  | deleteSubCluster c' => simp [events, apply, Except.toOption] at h
  | addNodeToSubCluster c' n' => cases (mem_events_updateSubCluster h).1
  | removeNodeFromSubCluster c' n' => cases (mem_events_updateSubCluster h).1
  | setMetadata c' key value => cases (mem_events_updateSubCluster h).1
  | deleteMetadata c' key => cases (mem_events_updateSubCluster h).1
  | registerNodeAddress n' address => simp [events, apply, Except.toOption] at h

/-! ## Logs -/

/-- The state after a list of committed commands. -/
def replay (commands : List ManagementCommand) : ManagementStateMachine :=
  commands.foldl (fun sm command => (sm.apply command).2) {}

theorem replay_append_singleton (commands : List ManagementCommand) (command : ManagementCommand) :
    replay (commands ++ [command]) = ((replay commands).apply command).2 := by
  simp [replay]

/-- The numbers are handed out in the order of the log, modulo `2 ^ 32`. -/
theorem nextClusterId_replay (commands : List ManagementCommand) :
    (replay commands).nextClusterId =
      (1 + commands.countP ManagementCommand.isCreate) % U32.size := by
  induction commands using List.reverseRecOn with
  | nil => rfl
  | append_singleton commands command ih =>
    rw [replay_append_singleton, nextClusterId_apply, List.countP_append, ih]
    by_cases hcreate : command.isCreate = true
    · rw [if_pos hcreate, U32.add, Nat.mod_add_mod]
      simp [hcreate, add_assoc]
    · simp [hcreate]

end ManagementStateMachine

end Raftoral

import Raftoral.Lib.Planning
import Raftoral.Management.Placement

/-!
# Placements that overlap

`add_node` proposes the address of the node and its addition to the management cluster, and spawns
a task that decides, on the state its own node has by then, where the node is placed, and proposes
the actions. Many such tasks are under way at once, each deciding on a state that may not show what
the others have decided, and an error of a proposal is discarded.

Here are the tasks, and what commands do to the size of a sub-cluster and the memberships of a node.
-/

namespace Raftoral

open ManagementStateMachine ClusterManager

namespace ManagementCommand

def isAddition : ManagementCommand → Bool
  | .addNodeToSubCluster _ _ => true
  | _ => false

/-- An addition to the sub-cluster. -/
def joins (c : ℕ) : ManagementCommand → Bool
  | .addNodeToSubCluster clusterId _ => clusterId == c
  | _ => false

/-- The command puts the node into a sub-cluster. -/
def settles (n : ℕ) : ManagementCommand → Bool
  | .createSubCluster nodeIds => nodeIds.contains n
  | .addNodeToSubCluster _ nodeId => nodeId == n
  | _ => false

/-- The command takes the node, or possibly the node, out of a sub-cluster. -/
def unsettles (n : ℕ) : ManagementCommand → Bool
  | .deleteSubCluster _ => true
  | .removeNodeFromSubCluster _ nodeId => nodeId == n
  | _ => false

end ManagementCommand

/-! ## What the tasks do -/

inductive PlacementPhase where
  /-- The state is not taken yet. -/
  | deciding
  | executing (rest : List ManagementCommand)
deriving DecidableEq, Repr

/-- A task that `add_node` spawned. -/
structure PlacementTask where
  nodeId : ℕ
  phase : PlacementPhase
deriving DecidableEq, Repr

/-- What the task still has to propose. -/
def PlacementTask.rest (task : PlacementTask) : List ManagementCommand :=
  match task.phase with
  | .deciding => []
  | .executing rest => rest

/-- The task has decided where this node is placed. -/
def PlacementTask.hasDecided (n : ℕ) (task : PlacementTask) : Bool :=
  task.nodeId == n && task.phase != .deciding

/-- The management cluster, its committed commands, those on their way and the tasks of its
nodes. -/
structure Arrivals where
  initial : ManagementStateMachine
  log : List ManagementCommand := []
  inFlight : List ManagementCommand := []
  /-- What was dropped on its way. -/
  lost : List ManagementCommand := []
  tasks : List PlacementTask := []

inductive ArrivalsOp where
  /-- The change of the configuration is proposed, or this fails. -/
  | addNode (nodeId : ℕ) (address : String) (proposed : Bool)
  /-- A task decides on the state at a position of the log, the map being iterated in an order. -/
  | decide (i position : ℕ) (order : List ℕ)
  | propose (i : ℕ)
  | commit (k : ℕ)
  | lose (k : ℕ)
  /-- A command of something else is committed. -/
  | other (command : ManagementCommand)
deriving DecidableEq, Repr

namespace Arrivals

/-- The state of a node that has applied the log up to a position. -/
def stateAt (s : Arrivals) (position : ℕ) : ManagementStateMachine :=
  s.initial.applyAll (s.log.take position)

def current (s : Arrivals) : ManagementStateMachine := s.initial.applyAll s.log

def pending (s : Arrivals) : List ManagementCommand := s.tasks.flatMap PlacementTask.rest

/-- What was decided and is neither committed nor lost, and the addresses on their way. -/
def underway (s : Arrivals) : List ManagementCommand := s.pending ++ s.inFlight

/-- What the state at a position does not show. -/
def unseen (s : Arrivals) (position : ℕ) : List ManagementCommand :=
  s.log.drop position ++ s.underway

/-- The commands that may still put the node into a sub-cluster, or were dropped. -/
def outstanding (n : ℕ) (s : Arrivals) : ℕ :=
  (s.underway ++ s.lost).countP (ManagementCommand.settles n)

/-- The decisions about the node. -/
def decided (n : ℕ) (s : Arrivals) : ℕ := s.tasks.countP (PlacementTask.hasDecided n)

/-- How often the node was added. -/
def added (n : ℕ) (s : Arrivals) : ℕ := s.tasks.countP (·.nodeId == n)

end Arrivals

def Arrivals.step (config : ClusterManagerConfig) (s : Arrivals) : ArrivalsOp → Option Arrivals
  | .addNode nodeId address proposed =>
    some { s with
      inFlight := s.inFlight ++ [.registerNodeAddress nodeId address]
      tasks := if proposed then s.tasks ++ [⟨nodeId, .deciding⟩] else s.tasks }
  | .decide i position order =>
    match s.tasks[i]? with
    | some ⟨nodeId, .deciding⟩ =>
      if position ≤ s.log.length ∧ (s.stateAt position).IterationOrder order then
        some { s with
          tasks := s.tasks.set i ⟨nodeId, .executing (executeActions
            (decideNodePlacement config ((s.stateAt position).entries order) nodeId))⟩ }
      else none
    | _ => none
  | .propose i =>
    match s.tasks[i]? with
    | some ⟨nodeId, .executing (command :: rest)⟩ =>
      some { s with
        inFlight := s.inFlight ++ [command]
        tasks := s.tasks.set i ⟨nodeId, .executing rest⟩ }
    | _ => none
  | .commit k => s.inFlight[k]?.map fun command =>
    { s with log := s.log ++ [command], inFlight := s.inFlight.eraseIdx k }
  | .lose k => s.inFlight[k]?.map fun command =>
    { s with lost := s.lost ++ [command], inFlight := s.inFlight.eraseIdx k }
  | .other command => some { s with log := s.log ++ [command] }

/-! ## What commands do to the sizes and the memberships -/

namespace ManagementStateMachine

variable {sm : ManagementStateMachine}

/-- The number of members, if there is such a sub-cluster. -/
def size (sm : ManagementStateMachine) (c : ℕ) : ℕ :=
  ((sm.getSubCluster c).map fun metadata => metadata.nodeIds.length).getD 0

theorem size_of_getSubCluster {c : ℕ} {metadata : SubClusterMetadata}
    (h : sm.getSubCluster c = some metadata) : sm.size c = metadata.nodeIds.length := by
  rw [size, h]
  rfl

/-- An update by which a sub-cluster grows by no more than `d`. -/
theorem size_updateSubCluster_le {clusterId c d : ℕ} {event : ManagementEvent}
    {update : SubClusterMetadata → SubClusterMetadata}
    (hupdate : ∀ metadata, (update metadata).nodeIds.length ≤ metadata.nodeIds.length + d) :
    (sm.updateSubCluster clusterId update event).2.size c ≤
      sm.size c + if clusterId = c then d else 0 := by
  rw [size, size, getSubCluster_updateSubCluster]
  by_cases hc : clusterId = c
  · rw [if_pos hc, if_pos hc]
    cases sm.getSubCluster c with
    | none => exact Nat.zero_le _
    | some metadata => exact hupdate metadata
  · rw [if_neg hc, if_neg hc]
    exact Nat.le_refl _

theorem length_addNode_le (metadata : SubClusterMetadata) (n : ℕ) :
    (metadata.addNode n).nodeIds.length ≤ metadata.nodeIds.length + 1 := by
  by_cases hmem : n ∈ metadata.nodeIds
  · simp [SubClusterMetadata.addNode, hmem]
  · exact (length_addNode hmem).le

/-- Only an addition makes a sub-cluster larger, by one, and a creation the next one. -/
theorem size_apply_le {command : ManagementCommand} {c : ℕ}
    (hc : command.isCreate → sm.nextClusterId ≠ c) :
    (sm.apply command).2.size c ≤ sm.size c + if command.joins c then 1 else 0 := by
  cases command with
  | createSubCluster nodeIds =>
    rw [size, apply, getSubCluster_insert, if_neg (hc rfl)]
    exact Nat.le_add_right _ _
  | deleteSubCluster clusterId =>
    rw [size, apply, getSubCluster_erase]
    by_cases heq : clusterId = c
    · rw [if_pos heq]
      exact Nat.zero_le _
    · rw [if_neg heq]
      exact Nat.le_add_right _ _
  | addNodeToSubCluster clusterId nodeId =>
    have h : (sm.apply (.addNodeToSubCluster clusterId nodeId)).2.size c ≤
        sm.size c + if clusterId = c then 1 else 0 :=
      size_updateSubCluster_le fun metadata => length_addNode_le metadata nodeId
    simpa [ManagementCommand.joins] using h
  | removeNodeFromSubCluster clusterId nodeId =>
    have h : (sm.apply (.removeNodeFromSubCluster clusterId nodeId)).2.size c ≤
        sm.size c + if clusterId = c then 0 else 0 :=
      size_updateSubCluster_le fun metadata => List.length_filter_le _ metadata.nodeIds
    simpa [ManagementCommand.joins] using h
  | setMetadata clusterId key value =>
    have h : (sm.apply (.setMetadata clusterId key value)).2.size c ≤
        sm.size c + if clusterId = c then 0 else 0 :=
      size_updateSubCluster_le fun metadata => Nat.le_refl _
    simpa [ManagementCommand.joins] using h
  | deleteMetadata clusterId key =>
    have h : (sm.apply (.deleteMetadata clusterId key)).2.size c ≤
        sm.size c + if clusterId = c then 0 else 0 :=
      size_updateSubCluster_le fun metadata => Nat.le_refl _
    simpa [ManagementCommand.joins] using h
  | registerNodeAddress nodeId address => exact Nat.le_add_right _ _

theorem size_createSubCluster (sm : ManagementStateMachine) (nodeIds : List ℕ) :
    (sm.apply (.createSubCluster nodeIds)).2.size sm.nextClusterId = nodeIds.length := by
  rw [size, apply, getSubCluster_insert, if_pos rfl]
  rfl

/-- A command leaves the numbers to those that follow it. -/
theorem room_cons {command : ManagementCommand} {commands : List ManagementCommand}
    (hroom : sm.nextClusterId + (command :: commands).countP ManagementCommand.isCreate <
      U32.size) :
    (sm.apply command).2.nextClusterId = sm.nextClusterId + (if command.isCreate then 1 else 0) ∧
      (sm.apply command).2.nextClusterId + commands.countP ManagementCommand.isCreate <
        U32.size := by
  rw [List.countP_cons] at hroom
  have hnext := sm.nextClusterId_apply command
  by_cases hcreate : command.isCreate
  · rw [if_pos hcreate] at hroom hnext ⊢
    rw [U32.add_of_lt (by omega)] at hnext
    omega
  · rw [if_neg hcreate] at hroom hnext ⊢
    omega

/-- The numbers that commands give, if there are enough of them. -/
theorem nextClusterId_applyAll {commands : List ManagementCommand}
    (hroom : sm.nextClusterId + commands.countP ManagementCommand.isCreate < U32.size) :
    (sm.applyAll commands).nextClusterId =
      sm.nextClusterId + commands.countP ManagementCommand.isCreate := by
  induction commands generalizing sm with
  | nil => rfl
  | cons command commands ih =>
    obtain ⟨hnext, hrest⟩ := room_cons hroom
    rw [applyAll_cons, ih hrest, hnext, List.countP_cons]
    omega

theorem numbered_applyAll {commands : List ManagementCommand} (hnumbered : sm.Numbered)
    (hroom : sm.nextClusterId + commands.countP ManagementCommand.isCreate < U32.size) :
    (sm.applyAll commands).Numbered := by
  induction commands generalizing sm with
  | nil => exact hnumbered
  | cons command commands ih =>
    obtain ⟨hnext, hrest⟩ := room_cons hroom
    refine ih (hnumbered.apply fun hcreate => ?_) hrest
    rw [if_pos hcreate] at hnext
    omega

/-- A sub-cluster that has a number grows by the additions to it at most. -/
theorem size_applyAll_le {commands : List ManagementCommand} {c : ℕ}
    (hroom : sm.nextClusterId + commands.countP ManagementCommand.isCreate < U32.size)
    (hc : c < sm.nextClusterId) :
    (sm.applyAll commands).size c ≤
      sm.size c + commands.countP (ManagementCommand.joins c) := by
  induction commands generalizing sm with
  | nil => exact Nat.le_refl _
  | cons command commands ih =>
    obtain ⟨hnext, hrest⟩ := room_cons hroom
    have hlater : c < (sm.apply command).2.nextClusterId := by omega
    calc ((sm.apply command).2.applyAll commands).size c
        ≤ (sm.apply command).2.size c + commands.countP (ManagementCommand.joins c) :=
          ih hrest hlater
      _ ≤ sm.size c + (if command.joins c then 1 else 0) +
          commands.countP (ManagementCommand.joins c) :=
          Nat.add_le_add_right (size_apply_le fun _ => (Nat.ne_of_lt hc).symm) _
      _ = sm.size c + (command :: commands).countP (ManagementCommand.joins c) := by
          rw [List.countP_cons]
          omega

/-- A command puts a node into one sub-cluster at most, and only one that settles it. -/
theorem memberships_apply_le (hfresh : sm.getSubCluster sm.nextClusterId = none)
    (command : ManagementCommand) (n : ℕ) :
    (sm.apply command).2.memberships n ≤
      sm.memberships n + if command.settles n then 1 else 0 := by
  have hsubset : (∀ c, (sm.apply command).2.hasMember c n → sm.hasMember c n) →
      (sm.apply command).2.memberships n ≤ sm.memberships n := by
    refine fun h => Finset.card_le_card fun c hc => ?_
    exact mem_clustersOf.mpr (h c (mem_clustersOf.mp hc))
  cases command with
  | createSubCluster nodeIds =>
    rw [memberships_createSubCluster hfresh]
    simp [ManagementCommand.settles]
  | addNodeToSubCluster clusterId nodeId =>
    simpa [ManagementCommand.settles] using memberships_addNode_le clusterId nodeId n
  | deleteSubCluster clusterId =>
    refine hsubset fun c hc => ?_
    rw [hasMember_deleteSubCluster] at hc
    by_cases heq : clusterId = c
    · simp [heq] at hc
    · rwa [if_neg heq] at hc
  | removeNodeFromSubCluster clusterId nodeId =>
    exact hsubset fun c hc => (hasMember_removeNode.mp hc).1
  | setMetadata clusterId key value =>
    exact hsubset fun c hc => by rwa [hasMember_setMetadata] at hc
  | deleteMetadata clusterId key =>
    exact hsubset fun c hc => by rwa [hasMember_deleteMetadata] at hc
  | registerNodeAddress nodeId address => exact hsubset fun c hc => hc

/-- A command that does not take a node out of a sub-cluster. -/
theorem le_memberships_apply (hnumbered : sm.Numbered) {command : ManagementCommand} {n : ℕ}
    (hstays : command.unsettles n = false) :
    sm.memberships n ≤ (sm.apply command).2.memberships n := by
  refine Finset.card_le_card fun c hc => ?_
  rw [mem_clustersOf] at hc ⊢
  refine hasMember_apply_of_ne hnumbered ?_ ?_ hc
  · rintro rfl
    simp [ManagementCommand.unsettles] at hstays
  · rintro rfl
    simp [ManagementCommand.unsettles] at hstays

/-- An addition to a sub-cluster that exists. -/
theorem one_le_memberships_addNode {c n : ℕ} (hsome : (sm.getSubCluster c).isSome) :
    1 ≤ (sm.apply (.addNodeToSubCluster c n)).2.memberships n :=
  Finset.card_pos.mpr ⟨c, mem_clustersOf.mpr (hasMember_addNode.mpr (Or.inr ⟨rfl, rfl, hsome⟩))⟩

theorem isSome_applyAll {commands : List ManagementCommand} {c : ℕ}
    (hdelete : .deleteSubCluster c ∉ commands) (hsome : (sm.getSubCluster c).isSome) :
    ((sm.applyAll commands).getSubCluster c).isSome := by
  induction commands generalizing sm with
  | nil => exact hsome
  | cons command commands ih =>
    rw [List.mem_cons, not_or] at hdelete
    refine ih hdelete.2 ?_
    rw [isSome_apply, hsome]
    cases command with
    | createSubCluster nodeIds =>
      by_cases hc : sm.nextClusterId = c
      · simp [existence, hc]
      · simp [existence, hc]
    | deleteSubCluster clusterId =>
      have hne : clusterId ≠ c := fun heq => hdelete.1 (by rw [heq])
      simp [existence, hne]
    | _ => rfl

/-- What a placement proposes: an addition to a sub-cluster below the target size, or a
creation. -/
theorem placement_commands (config : ClusterManagerConfig) {order : List ℕ} (n : ℕ)
    (horder : sm.IterationOrder order) :
    (∃ c, (sm.getSubCluster c).isSome ∧ sm.size c < config.targetClusterSize ∧
      executeActions (decideNodePlacement config (sm.entries order) n) =
        [.addNodeToSubCluster c n]) ∨
    executeActions (decideNodePlacement config (sm.entries order) n) =
      [.createSubCluster [n]] := by
  rw [decideNodePlacement_eq]
  cases hhead : (sortBySize (nonDraining (sm.entries order))).head? with
  | none => exact Or.inr rfl
  | some entry =>
    obtain ⟨c, metadata⟩ := entry
    have hget : sm.getSubCluster c = some metadata := (smallest_of_head? horder hhead).1
    by_cases hlt : metadata.nodeIds.length < config.targetClusterSize
    · refine Or.inl ⟨c, by rw [hget]; rfl, by rwa [size_of_getSubCluster hget], ?_⟩
      rw [placementAt, if_pos hlt]
      rfl
    · rw [placementAt, if_neg hlt]
      exact Or.inr rfl

end ManagementStateMachine

/-! ## Steps -/

namespace Arrivals

variable {config : ClusterManagerConfig} {s s' : Arrivals} {op : ArrivalsOp}

/-- What a step does to the commands and to the tasks. -/
inductive Stepped (config : ClusterManagerConfig) (s s' : Arrivals) : ArrivalsOp → Prop
  | addNode {nodeId : ℕ} {address : String} {proposed : Bool} (hlog : s'.log = s.log)
      (hlost : s'.lost = s.lost)
      (hunderway : s'.underway.Perm (.registerNodeAddress nodeId address :: s.underway))
      (hdecided : ∀ n, s'.decided n = s.decided n) :
      Stepped config s s' (.addNode nodeId address proposed)
  | decide {i position : ℕ} {order : List ℕ} (nodeId : ℕ) (hle : position ≤ s.log.length)
      (horder : (s.stateAt position).IterationOrder order) (hlog : s'.log = s.log)
      (hlost : s'.lost = s.lost)
      (hunderway : s'.underway.Perm (executeActions
        (decideNodePlacement config ((s.stateAt position).entries order) nodeId) ++ s.underway))
      (hdecided : ∀ n, s'.decided n = s.decided n + if nodeId = n then 1 else 0) :
      Stepped config s s' (.decide i position order)
  | propose {i : ℕ} (hlog : s'.log = s.log) (hlost : s'.lost = s.lost)
      (hunderway : s'.underway.Perm s.underway) (hdecided : ∀ n, s'.decided n = s.decided n) :
      Stepped config s s' (.propose i)
  | commit {k : ℕ} (command : ManagementCommand) (hlog : s'.log = s.log ++ [command])
      (hlost : s'.lost = s.lost) (hunderway : s.underway.Perm (command :: s'.underway))
      (hdecided : ∀ n, s'.decided n = s.decided n) : Stepped config s s' (.commit k)
  | lose {k : ℕ} (command : ManagementCommand) (hlog : s'.log = s.log)
      (hlost : s'.lost = s.lost ++ [command]) (hunderway : s.underway.Perm (command :: s'.underway))
      (hdecided : ∀ n, s'.decided n = s.decided n) : Stepped config s s' (.lose k)
  | other {command : ManagementCommand} (hlog : s'.log = s.log ++ [command])
      (hlost : s'.lost = s.lost) (hunderway : s'.underway = s.underway)
      (hdecided : ∀ n, s'.decided n = s.decided n) : Stepped config s s' (.other command)

theorem added_set {i nodeId : ℕ} {phase phase' : PlacementPhase}
    (hi : s.tasks[i]? = some ⟨nodeId, phase⟩) (inFlight : List ManagementCommand) (n : ℕ) :
    added n { s with inFlight, tasks := s.tasks.set i ⟨nodeId, phase'⟩ } = s.added n :=
  Nat.add_right_cancel (Planning.countP_set_add (p := (·.nodeId == n)) hi ⟨nodeId, phase'⟩)

theorem decided_decide {i nodeId : ℕ} (hi : s.tasks[i]? = some ⟨nodeId, .deciding⟩)
    (commands : List ManagementCommand) (n : ℕ) :
    decided n { s with tasks := s.tasks.set i ⟨nodeId, .executing commands⟩ } =
      s.decided n + if nodeId = n then 1 else 0 := by
  have hset := Planning.countP_set_add (p := PlacementTask.hasDecided n) hi
    ⟨nodeId, .executing commands⟩
  rw [decided, decided]
  simpa [PlacementTask.hasDecided] using hset

theorem decided_propose {i nodeId : ℕ} {command : ManagementCommand} {rest : List ManagementCommand}
    (hi : s.tasks[i]? = some ⟨nodeId, .executing (command :: rest)⟩)
    (inFlight : List ManagementCommand) (n : ℕ) :
    decided n { s with inFlight, tasks := s.tasks.set i ⟨nodeId, .executing rest⟩ } = s.decided n :=
  Nat.add_right_cancel
    (Planning.countP_set_add (p := PlacementTask.hasDecided n) hi ⟨nodeId, .executing rest⟩)

/-- What a task proposes next is on its way then. -/
theorem underway_propose {i nodeId : ℕ} {command : ManagementCommand}
    {rest : List ManagementCommand}
    (hi : s.tasks[i]? = some ⟨nodeId, .executing (command :: rest)⟩) :
    (underway { s with
      inFlight := s.inFlight ++ [command]
      tasks := s.tasks.set i ⟨nodeId, .executing rest⟩ }).Perm s.underway := by
  have hset : (command :: rest ++
      (s.tasks.set i ⟨nodeId, .executing rest⟩).flatMap PlacementTask.rest).Perm
        (rest ++ s.pending) := Planning.flatMap_set_perm (f := PlacementTask.rest) hi
  have hpending : s.pending.Perm (command ::
      (s.tasks.set i ⟨nodeId, .executing rest⟩).flatMap PlacementTask.rest) :=
    (List.perm_append_left_iff rest).mp (hset.symm.trans List.perm_middle.symm)
  rw [underway, underway, ← List.append_assoc]
  exact List.perm_append_comm.trans (hpending.symm.append_right s.inFlight)

/-- What is committed or lost was on its way. -/
theorem underway_eraseIdx {k : ℕ} {command : ManagementCommand}
    (hk : s.inFlight[k]? = some command) (log lost : List ManagementCommand) :
    s.underway.Perm (command ::
      underway { s with log, lost, inFlight := s.inFlight.eraseIdx k }) := by
  obtain ⟨hlt, rfl⟩ := List.getElem?_eq_some_iff.mp hk
  refine List.Perm.trans ?_ List.perm_middle
  exact (List.getElem_cons_eraseIdx_perm hlt).symm.append_left s.pending

theorem stepped (h : step config s op = some s') :
    s'.initial = s.initial ∧ (∀ n, s.added n ≤ s'.added n) ∧ Stepped config s s' op := by
  cases op with
  | addNode nodeId address proposed =>
    obtain rfl := Option.some.inj h
    cases proposed with
    | false =>
      refine ⟨rfl, fun n => le_rfl, .addNode rfl rfl ?_ fun n => rfl⟩
      simp [underway, pending, ← List.append_assoc]
    | true =>
      refine ⟨rfl, fun n => ?_, .addNode rfl rfl ?_ fun n => ?_⟩
      · exact (List.sublist_append_left _ _).countP_le
      · simp [underway, pending, PlacementTask.rest, ← List.append_assoc]
      · simp [decided, PlacementTask.hasDecided]
  | decide i position order =>
    simp only [step] at h
    split at h
    · rename_i nodeId htask
      split at h
      · rename_i henabled
        obtain rfl := Option.some.inj h
        refine ⟨rfl, fun n => (added_set htask s.inFlight n).ge,
          .decide nodeId henabled.1 henabled.2 rfl rfl ?_ fun n => ?_⟩
        · rw [underway, underway, ← List.append_assoc]
          exact (Planning.flatMap_set_perm (f := PlacementTask.rest) htask).append_right s.inFlight
        · exact decided_decide htask _ n
      · exact absurd h (by simp)
    · exact absurd h (by simp)
  | propose i =>
    simp only [step] at h
    split at h
    · rename_i nodeId command rest htask
      obtain rfl := Option.some.inj h
      exact ⟨rfl, fun n => (added_set htask _ n).ge,
        .propose rfl rfl (underway_propose htask) fun n => decided_propose htask _ n⟩
    · exact absurd h (by simp)
  | commit k =>
    obtain ⟨command, hk, rfl⟩ := Option.map_eq_some_iff.mp h
    exact ⟨rfl, fun n => le_rfl, .commit command rfl rfl (underway_eraseIdx hk s.log s.lost)
      fun n => rfl⟩
  | lose k =>
    obtain ⟨command, hk, rfl⟩ := Option.map_eq_some_iff.mp h
    exact ⟨rfl, fun n => le_rfl, .lose command rfl rfl (underway_eraseIdx hk s.log s.lost)
      fun n => rfl⟩
  | other command =>
    obtain rfl := Option.some.inj h
    exact ⟨rfl, fun n => le_rfl, .other rfl rfl rfl fun n => rfl⟩

end Arrivals

end Raftoral

import Raftoral.Lib.Run
import Raftoral.Management.Codec

/-!
# The numbers of the sub-clusters over a whole run

Replicas of the management state machine follow one log. A replica applies the next command,
has a snapshot of its state taken, or restores a snapshot of a state at or after its own. A
number that was handed out is never handed out again, not even when its sub-cluster was
deleted: the storage directory of a sub-cluster is named by its number.
-/

namespace Raftoral

/-- The number a creation event carries. -/
def ManagementEvent.createdId : ManagementEvent → Option ℕ
  | .subClusterCreated clusterId _ => some clusterId
  | _ => none

namespace ManagementStateMachine

/-! ## Commands and the addresses -/

/-- Two states with the same sub-clusters and the same counter. -/
structure SameClusters (sm sm' : ManagementStateMachine) : Prop where
  subClusters : sm.subClusters = sm'.subClusters
  nextClusterId : sm.nextClusterId = sm'.nextClusterId

theorem SameClusters.updateSubCluster {sm sm' : ManagementStateMachine} (h : SameClusters sm sm')
    (clusterId : ℕ) (update : SubClusterMetadata → SubClusterMetadata) (event : ManagementEvent) :
    SameClusters (sm.updateSubCluster clusterId update event).2
      (sm'.updateSubCluster clusterId update event).2 := by
  unfold ManagementStateMachine.updateSubCluster
  rw [h.subClusters]
  cases sm'.subClusters[clusterId]? with
  | none => exact h
  | some metadata => exact ⟨rfl, h.nextClusterId⟩

/-- No command reads the addresses. -/
theorem SameClusters.apply {sm sm' : ManagementStateMachine} (h : SameClusters sm sm')
    (command : ManagementCommand) : SameClusters (sm.apply command).2 (sm'.apply command).2 := by
  cases command with
  | createSubCluster nodeIds =>
    refine ⟨?_, ?_⟩
    · simp only [ManagementStateMachine.apply, h.subClusters, h.nextClusterId]
    · simp only [ManagementStateMachine.apply, h.nextClusterId]
  | deleteSubCluster c =>
    exact ⟨by simp only [ManagementStateMachine.apply, h.subClusters], h.nextClusterId⟩
  | addNodeToSubCluster c n => exact h.updateSubCluster c _ _
  | removeNodeFromSubCluster c n => exact h.updateSubCluster c _ _
  | setMetadata c key value => exact h.updateSubCluster c _ _
  | deleteMetadata c key => exact h.updateSubCluster c _ _
  | registerNodeAddress n address => exact ⟨h.subClusters, h.nextClusterId⟩

theorem SameClusters.numbered {sm sm' : ManagementStateMachine} (h : SameClusters sm sm')
    (hnumbered : sm'.Numbered) : sm.Numbered := by
  refine ⟨h.nextClusterId ▸ hnumbered.1, fun c hc => ?_⟩
  rw [h.nextClusterId]
  refine hnumbered.2 c ?_
  rwa [getSubCluster, h.subClusters] at hc

/-- Fewer creations than there are numbers. -/
def FewCreations (log : List ManagementCommand) : Prop :=
  log.countP ManagementCommand.isCreate < U32.size - 1

theorem FewCreations.of_prefix {log log' : List ManagementCommand} (h : FewCreations log')
    (hextends : log <+: log') : FewCreations log :=
  Nat.lt_of_le_of_lt hextends.sublist.countP_le h

/-- The counter is one more than the creations: it does not overflow. -/
theorem nextClusterId_replay_of_few {log : List ManagementCommand} (h : FewCreations log) :
    (replay log).nextClusterId = 1 + log.countP ManagementCommand.isCreate := by
  have hsize : U32.size = 2 ^ 32 := rfl
  rw [nextClusterId_replay, Nat.mod_eq_of_lt]
  unfold FewCreations at h
  omega

theorem numbered_replay {log : List ManagementCommand} (h : FewCreations log) :
    (replay log).Numbered := by
  induction log using List.reverseRecOn with
  | nil => exact numbered_new
  | append_singleton log command ih =>
    have hlog : FewCreations log := h.of_prefix (List.prefix_append log [command])
    rw [replay_append_singleton]
    refine (ih hlog).apply fun hcreate => ?_
    have hsize : U32.size = 2 ^ 32 := rfl
    rw [nextClusterId_replay_of_few hlog]
    rw [FewCreations, List.countP_append] at h
    have hone : [command].countP ManagementCommand.isCreate = 1 := by simp [hcreate]
    omega

/-- The numbers the events of a command carry: that of a creation is the counter. -/
theorem filterMap_createdId_events (sm : ManagementStateMachine) (command : ManagementCommand) :
    (sm.events command).filterMap ManagementEvent.createdId =
      if command.isCreate then [sm.nextClusterId] else [] := by
  cases hcommand : command with
  | createSubCluster nodeIds => rfl
  | _ =>
    rw [List.filterMap_eq_nil_iff.mpr]
    · rfl
    · intro event hevent
      cases event with
      | subClusterCreated c nodeIds =>
        have hcreate := (eq_nextClusterId_of_created hevent).2
        exact absurd hcreate (by simp)
      | _ => rfl

end ManagementStateMachine

open ManagementStateMachine

/-! ## Replicas of one log -/

structure LogReplica where
  stateMachine : ManagementStateMachine := {}
  /-- How much of the log the state covers. -/
  applied : ℕ := 0
  /-- The numbers of the creation events that were published, in order. -/
  created : List ℕ := []

structure ManagementGroup where
  log : List ManagementCommand := []
  replicas : ℕ → LogReplica := fun _ => {}
  /-- The snapshots that were taken, with the part of the log they cover. -/
  snapshots : List (ℕ × Bytes) := []

inductive ReplicaOp where
  /-- A command is committed. -/
  | commit (command : ManagementCommand)
  | apply (i : ℕ)
  /-- A snapshot of replica `i` is written as `data`. -/
  | snapshot (i : ℕ) (data : Bytes)
  /-- Replica `i` is given the `k`-th snapshot. -/
  | restore (i k : ℕ)

namespace LogReplica

/-- Apply the next command. -/
def applyCommand (r : LogReplica) (command : ManagementCommand) : LogReplica where
  stateMachine := (r.stateMachine.apply command).2
  applied := r.applied + 1
  created := r.created ++ (r.stateMachine.events command).filterMap ManagementEvent.createdId

/-- The numbers of a replica: those in use, those handed out, and the next one. -/
structure NeverReuses (log : List ManagementCommand) (r : LogReplica) : Prop where
  keys : ∀ c, (r.stateMachine.getSubCluster c).isSome → 1 ≤ c ∧ c < r.stateMachine.nextClusterId
  increasing : r.created.Pairwise (· < ·)
  positive : 0 ∉ r.created
  issued : ∀ c ∈ r.created, c < r.stateMachine.nextClusterId
  noOverflow : r.stateMachine.nextClusterId =
    1 + (log.take r.applied).countP ManagementCommand.isCreate

end LogReplica

namespace ManagementGroup

section
variable [SerdeJson ManagementStateMachine]

def setReplica (s : ManagementGroup) (i : ℕ) (r : LogReplica) : ManagementGroup :=
  { s with replicas := Function.update s.replicas i r }

/-- A step. A snapshot is restored only where it is not behind. -/
def step (s : ManagementGroup) : ReplicaOp → Option ManagementGroup
  | .commit command => some { s with log := s.log ++ [command] }
  | .apply i =>
    (s.log[(s.replicas i).applied]?).map fun command =>
      s.setReplica i ((s.replicas i).applyCommand command)
  | .snapshot i data =>
    some { s with snapshots := s.snapshots ++ [((s.replicas i).applied, data)] }
  | .restore i k =>
    match s.snapshots[k]? with
    | none => none
    | some (position, data) =>
      if (s.replicas i).applied ≤ position then
        match StateMachine.restore (s.replicas i).stateMachine data with
        | (.ok (), sm) =>
          some (s.setReplica i { s.replicas i with stateMachine := sm, applied := position })
        | (.error _, sm) => some (s.setReplica i { s.replicas i with stateMachine := sm })
      else none

/-- A snapshot is what `snapshot` writes, or what it wrote before there were addresses. -/
def Writes (s : ManagementGroup) : ReplicaOp → Prop
  | .snapshot i data =>
    StateMachine.snapshot (s.replicas i).stateMachine = .ok data ∨
      SerdeJson.fromSlice data = .ok { (s.replicas i).stateMachine with nodeAddresses := ∅ }
  | _ => True

/-! ## The invariant -/

/-- A replica has the sub-clusters and the counter of its part of the log. -/
structure Follows (log : List ManagementCommand) (r : LogReplica) : Prop where
  within : r.applied ≤ log.length
  same : SameClusters r.stateMachine (replay (log.take r.applied))
  increasing : r.created.Pairwise (· < ·)
  issued : ∀ c ∈ r.created, 1 ≤ c ∧ c < r.stateMachine.nextClusterId

/-- A snapshot reads as a state of its part of the log. -/
def Covers (log : List ManagementCommand) (snapshot : ℕ × Bytes) : Prop :=
  snapshot.1 ≤ log.length ∧ ∃ sm, SerdeJson.fromSlice snapshot.2 = .ok sm ∧
    SameClusters sm (replay (log.take snapshot.1))

structure Consistent (s : ManagementGroup) : Prop where
  replicas : ∀ i, Follows s.log (s.replicas i)
  snapshots : ∀ snapshot ∈ s.snapshots, Covers s.log snapshot

omit [SerdeJson ManagementStateMachine] in
theorem Follows.append {log : List ManagementCommand} {r : LogReplica} (h : Follows log r)
    (command : ManagementCommand) : Follows (log ++ [command]) r where
  within := by
    have := h.within
    rw [List.length_append]
    omega
  same := by
    rw [List.take_append_of_le_length h.within]
    exact h.same
  increasing := h.increasing
  issued := h.issued

theorem Covers.append {log : List ManagementCommand} {snapshot : ℕ × Bytes}
    (h : Covers log snapshot) (command : ManagementCommand) :
    Covers (log ++ [command]) snapshot := by
  obtain ⟨hwithin, sm, hread, hsame⟩ := h
  refine ⟨by rw [List.length_append]; omega, sm, hread, ?_⟩
  rw [List.take_append_of_le_length hwithin]
  exact hsame

omit [SerdeJson ManagementStateMachine] in
theorem Follows.nextClusterId {log : List ManagementCommand} {r : LogReplica}
    (h : Follows log r) (hfew : FewCreations log) :
    r.stateMachine.nextClusterId =
      1 + (log.take r.applied).countP ManagementCommand.isCreate := by
  rw [h.same.nextClusterId, nextClusterId_replay_of_few (hfew.of_prefix (List.take_prefix _ _))]

omit [SerdeJson ManagementStateMachine] in
/-- Applying the next command hands out the counter, and only then moves it on. -/
theorem Follows.applyCommand {log : List ManagementCommand} {r : LogReplica}
    (h : Follows log r) (hfew : FewCreations log) {command : ManagementCommand}
    (hnext : log[r.applied]? = some command) : Follows log (r.applyCommand command) := by
  have hlt : r.applied < log.length := (List.getElem?_eq_some_iff.mp hnext).1
  have htake : log.take (r.applied + 1) = log.take r.applied ++ [command] := by
    rw [List.take_add_one, hnext]
    rfl
  have hsame : SameClusters (r.applyCommand command).stateMachine
      (replay (log.take (r.applied + 1))) := by
    rw [htake, replay_append_singleton]
    exact h.same.apply command
  -- the counter is one more than the creations so far
  have hcounter : (r.applyCommand command).stateMachine.nextClusterId =
      1 + (log.take (r.applied + 1)).countP ManagementCommand.isCreate := by
    rw [hsame.nextClusterId, nextClusterId_replay_of_few (hfew.of_prefix (List.take_prefix _ _))]
  rw [htake, List.countP_append] at hcounter
  have hbefore := h.nextClusterId hfew
  -- a creation takes the number the counter had
  have hcreated : (r.applyCommand command).created = r.created ++
      (if command.isCreate then [r.stateMachine.nextClusterId] else []) := by
    rw [← filterMap_createdId_events]
    rfl
  refine ⟨hlt, hsame, ?_, ?_⟩
  · rw [hcreated]
    by_cases hcreate : command.isCreate = true
    · rw [if_pos hcreate, List.pairwise_append]
      refine ⟨h.increasing, List.pairwise_singleton _ _, fun a ha b hb => ?_⟩
      rw [List.mem_singleton] at hb
      exact hb ▸ (h.issued a ha).2
    · rw [if_neg hcreate, List.append_nil]
      exact h.increasing
  · intro c hc
    rw [hcreated] at hc
    rcases List.mem_append.mp hc with hc | hc
    · have := h.issued c hc
      omega
    · by_cases hcreate : command.isCreate = true
      · rw [if_pos hcreate, List.mem_singleton] at hc
        have hone : [command].countP ManagementCommand.isCreate = 1 := by simp [hcreate]
        omega
      · rw [if_neg hcreate] at hc
        exact absurd hc List.not_mem_nil

omit [SerdeJson ManagementStateMachine] in
theorem setReplica_follows {s : ManagementGroup} (h : ∀ j, Follows s.log (s.replicas j)) {i : ℕ}
    {r : LogReplica} (hr : Follows s.log r) (j : ℕ) :
    Follows s.log ((s.setReplica i r).replicas j) := by
  by_cases hj : j = i
  · subst hj
    simpa [setReplica] using hr
  · simpa [setReplica, hj] using h j

omit [SerdeJson ManagementStateMachine] in
/-- A snapshot that covers more than a replica brings it forward. -/
theorem Follows.restore {log : List ManagementCommand} {r : LogReplica} (h : Follows log r)
    (hfew : FewCreations log) {position : ℕ} {sm : ManagementStateMachine}
    (hposition : r.applied ≤ position) (hwithin : position ≤ log.length)
    (hsame : SameClusters sm (replay (log.take position))) :
    Follows log { r with stateMachine := sm, applied := position } := by
  refine ⟨hwithin, hsame, h.increasing, fun c hc => ?_⟩
  have hbefore := h.nextClusterId hfew
  have hafter : sm.nextClusterId =
      1 + (log.take position).countP ManagementCommand.isCreate := by
    rw [hsame.nextClusterId, nextClusterId_replay_of_few (hfew.of_prefix (List.take_prefix _ _))]
  have hle : (log.take r.applied).countP ManagementCommand.isCreate ≤
      (log.take position).countP ManagementCommand.isCreate :=
    (List.take_prefix_take_left hposition).sublist.countP_le
  have hissued := h.issued c hc
  refine ⟨hissued.1, ?_⟩
  show c < sm.nextClusterId
  omega

/-- A snapshot that can be read is restored where it is not behind. -/
theorem step_restore {s : ManagementGroup} {i k position : ℕ} {data : Bytes}
    {sm : ManagementStateMachine} (hk : s.snapshots[k]? = some (position, data))
    (hposition : (s.replicas i).applied ≤ position) (hread : SerdeJson.fromSlice data = .ok sm) :
    s.step (.restore i k) =
      some (s.setReplica i { s.replicas i with stateMachine := sm, applied := position }) := by
  have hrestore : StateMachine.restore (s.replicas i).stateMachine data = (.ok (), sm) := by
    simp only [StateMachine.restore]
    rw [hread]
  simp only [step, hk, if_pos hposition, hrestore]

theorem step_consistent {s s' : ManagementGroup} {op : ReplicaOp} (h : s.Consistent)
    (hfew : FewCreations s.log) (hwrites : s.Writes op) (hs : s.step op = some s') :
    s'.Consistent := by
  cases op with
  | commit command =>
    obtain rfl := Option.some.inj hs
    exact ⟨fun i => (h.replicas i).append command,
      fun snapshot hmem => (h.snapshots snapshot hmem).append command⟩
  | apply i =>
    obtain ⟨command, hnext, rfl⟩ := Option.map_eq_some_iff.mp hs
    exact ⟨setReplica_follows h.replicas ((h.replicas i).applyCommand hfew hnext), h.snapshots⟩
  | snapshot i data =>
    obtain rfl := Option.some.inj hs
    refine ⟨h.replicas, fun snapshot hmem => ?_⟩
    rcases List.mem_append.mp hmem with hmem | hmem
    · exact h.snapshots snapshot hmem
    · rw [List.mem_singleton] at hmem
      subst hmem
      refine ⟨(h.replicas i).within, ?_⟩
      rcases hwrites with hnow | hold
      · -- written by the code as it is
        obtain rfl : SerdeJson.toVec (s.replicas i).stateMachine = data := Except.ok.inj hnow
        exact ⟨_, SerdeJson.fromSlice_toVec _, (h.replicas i).same⟩
      · exact ⟨_, hold, (h.replicas i).same.subClusters, (h.replicas i).same.nextClusterId⟩
  | restore i k =>
    cases hk : s.snapshots[k]? with
    | none => simp [step, hk] at hs
    | some snapshot =>
      obtain ⟨position, data⟩ := snapshot
      obtain ⟨hwithin, sm, hread, hsame⟩ := h.snapshots _ (List.mem_of_getElem? hk)
      by_cases hposition : (s.replicas i).applied ≤ position
      · rw [step_restore hk hposition hread, Option.some.injEq] at hs
        subst hs
        exact ⟨setReplica_follows h.replicas
          ((h.replicas i).restore hfew hposition hwithin hsame), h.snapshots⟩
      · simp [step, hk, hposition] at hs

theorem log_prefix_of_step {s s' : ManagementGroup} {op : ReplicaOp} (hs : s.step op = some s') :
    s.log <+: s'.log := by
  cases op with
  | commit command =>
    obtain rfl := Option.some.inj hs
    exact List.prefix_append _ _
  | apply i =>
    obtain ⟨command, -, rfl⟩ := Option.map_eq_some_iff.mp hs
    exact List.prefix_rfl
  | snapshot i data =>
    obtain rfl := Option.some.inj hs
    exact List.prefix_rfl
  | restore i k =>
    unfold step at hs
    dsimp only at hs
    split at hs
    · exact absurd hs (by simp)
    · split at hs
      · split at hs <;> (obtain rfl := Option.some.inj hs; exact List.prefix_rfl)
      · exact absurd hs (by simp)

theorem consistent_start : Consistent {} where
  replicas _ := ⟨le_rfl, ⟨rfl, rfl⟩, List.Pairwise.nil, fun _ hc => absurd hc List.not_mem_nil⟩
  snapshots _ hmem := absurd hmem List.not_mem_nil

/-- Over every run with fewer than `2 ^ 32 - 1` creations no replica ever uses a number twice. -/
theorem never_reuses_clusterIds (ops : List ReplicaOp) (s : ManagementGroup)
    (hwrites : Transition.Along step Writes {} ops)
    (hrun : Transition.run step {} ops = some s) (hfew : FewCreations s.log) (i : ℕ) :
    (s.replicas i).NeverReuses s.log := by
  -- a state with few creations was reached through states with few creations
  have hconsistent : FewCreations s.log → s.Consistent := by
    refine Transition.run_induction (C := Writes) (I := fun s => FewCreations s.log → s.Consistent)
      ?_ (fun _ => consistent_start) hwrites hrun
    intro s op s' h hwrites hs hfew'
    have hfew := hfew'.of_prefix (log_prefix_of_step hs)
    exact step_consistent (h hfew) hfew hwrites hs
  have hfollows := (hconsistent hfew).replicas i
  have hnumbered := hfollows.same.numbered (numbered_replay (hfew.of_prefix (List.take_prefix _ _)))
  refine ⟨hnumbered.2, hfollows.increasing, fun hzero => ?_, fun c hc => (hfollows.issued c hc).2,
    hfollows.nextClusterId hfew⟩
  exact absurd (hfollows.issued 0 hzero).1 (by decide)

end

section
open scoped Codec

/-- A replica restores the snapshot of another, then follows the log. -/
def recovery : List ReplicaOp :=
  [.commit (.createSubCluster [1]), .apply 0,
   .snapshot 0 (SerdeJson.toVec ((ManagementStateMachine.apply {} (.createSubCluster [1])).2)),
   .restore 1 0, .commit (.deleteSubCluster 1), .commit (.createSubCluster [2]), .apply 1, .apply 1]

theorem never_reuses_clusterIds_recovery :
    ∃ s, Transition.run step {} recovery = some s ∧ (s.replicas 1).created = [2] ∧
      (s.replicas 1).NeverReuses s.log := by
  have hread : (SerdeJson.fromSlice
      (SerdeJson.toVec ((ManagementStateMachine.apply {} (.createSubCluster [1])).2)) :
        Except String ManagementStateMachine) = .ok _ := SerdeJson.fromSlice_toVec _
  obtain ⟨s, hrun, hcreated, hlog⟩ : ∃ s, Transition.run step {} recovery = some s ∧
      (s.replicas 1).created = [2] ∧ s.log =
        [.createSubCluster [1], .deleteSubCluster 1, .createSubCluster [2]] := by
    refine ⟨_, Transition.run_cons.mpr ⟨_, rfl, Transition.run_cons.mpr ⟨_, rfl,
      Transition.run_cons.mpr ⟨_, rfl, Transition.run_cons.mpr ⟨_,
        step_restore (i := 1) rfl (Nat.zero_le _) hread, rfl⟩⟩⟩⟩, rfl, rfl⟩
  have hwrites : Transition.Along step Writes {} recovery := by
    refine ⟨trivial, fun s₁ h₁ => ⟨trivial, fun s₂ h₂ => ⟨?_, fun _ _ => ⟨trivial, fun _ _ =>
      ⟨trivial, fun _ _ => ⟨trivial, fun _ _ => ⟨trivial, fun _ _ => ⟨trivial, fun _ _ =>
        trivial⟩⟩⟩⟩⟩⟩⟩⟩
    obtain rfl := Option.some.inj h₁
    obtain rfl := Option.some.inj h₂
    exact Or.inl rfl
  refine ⟨s, hrun, hcreated, never_reuses_clusterIds recovery s hwrites hrun ?_ 1⟩
  rw [FewCreations, hlog]
  decide

end

end ManagementGroup

end Raftoral

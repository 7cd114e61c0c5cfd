import Raftoral.Management.ConcurrentPlacement

/-!
# Sizes and memberships under placements that overlap

However the tasks of `add_node` interleave: a sub-cluster exceeds the target size by no more than
the placements that a decision did not see (`Capped`), and a node has no more memberships than it
was added for, and exactly one as soon as its command is applied, if it was added once
(`Counted`, `Kept`).
-/

namespace Raftoral

open ManagementStateMachine ClusterManager Transition

namespace Arrivals

variable {config : ClusterManagerConfig} {s s' : Arrivals} {op : ArrivalsOp}

/-! ## The sizes -/

/-- The numbers suffice for the creations. -/
def Room (s : Arrivals) : Prop :=
  s.initial.nextClusterId + s.log.countP ManagementCommand.isCreate < U32.size

/-- The commands of the tasks: the additions are to sub-clusters below the next number. -/
def Formed (next : ℕ) : ManagementCommand → Prop
  | .createSubCluster nodeIds => nodeIds.length = 1
  | .addNodeToSubCluster c _ => c < next
  | .registerNodeAddress _ _ => True
  | _ => False

structure Sound (s : Arrivals) : Prop where
  numbered : s.initial.Numbered
  formed : ∀ command ∈ s.underway, Formed s.current.nextClusterId command

/-- What a decision has to meet: at most `k` additions that were decided before are not shown by
the state that it is made on; and nothing else adds members. -/
def Overlaps (k : ℕ) (s : Arrivals) : ArrivalsOp → Prop
  | .decide _ position _ => (s.unseen position).countP ManagementCommand.isAddition ≤ k
  | .other command => ¬ command.isCreate ∧ ¬ command.isAddition
  | _ => True

/-- The size that the sub-clusters have and will have. -/
def Capped (config : ClusterManagerConfig) (k : ℕ) (s : Arrivals) : Prop :=
  ∀ c, s.current.size c + s.underway.countP (ManagementCommand.joins c) ≤
    max (s.initial.size c) (config.targetClusterSize + k)

theorem Formed.mono {next next' : ℕ} (h : next ≤ next') {command : ManagementCommand}
    (hformed : Formed next command) : Formed next' command := by
  cases command with
  | addNodeToSubCluster c n => exact Nat.lt_of_lt_of_le hformed h
  | _ => exact hformed

theorem Room.of_append {command : ManagementCommand} (hlog : s'.log = s.log ++ [command])
    (hinitial : s'.initial = s.initial) (h : s'.Room) : s.Room := by
  rw [Room, hlog, hinitial, List.countP_append] at h
  rw [Room]
  omega

theorem Room.of_step (hinitial : s'.initial = s.initial) (hstep : Stepped config s s' op)
    (h : s'.Room) : s.Room := by
  cases hstep with
  | commit command hlog => exact h.of_append hlog hinitial
  | other hlog => exact h.of_append hlog hinitial
  | addNode hlog => rwa [Room, ← hlog, ← hinitial]
  | decide nodeId hle horder hlog => rwa [Room, ← hlog, ← hinitial]
  | propose hlog => rwa [Room, ← hlog, ← hinitial]
  | lose command hlog => rwa [Room, ← hlog, ← hinitial]

theorem current_append {command : ManagementCommand} (hlog : s'.log = s.log ++ [command])
    (hinitial : s'.initial = s.initial) : s'.current = (s.current.apply command).2 := by
  rw [current, hlog, hinitial, applyAll_append]
  rfl

theorem current_of_log (hlog : s'.log = s.log) (hinitial : s'.initial = s.initial) :
    s'.current = s.current := by
  rw [current, hlog, hinitial, current]

theorem Room.take (h : s.Room) (position : ℕ) :
    s.initial.nextClusterId + (s.log.take position).countP ManagementCommand.isCreate <
      U32.size := by
  have hle : (s.log.take position).countP ManagementCommand.isCreate ≤
      s.log.countP ManagementCommand.isCreate := (List.take_sublist _ _).countP_le
  rw [Room] at h
  omega

/-- What is behind a position has enough numbers too. -/
theorem Room.drop (h : s.Room) (position : ℕ) :
    (s.stateAt position).nextClusterId +
      (s.log.drop position).countP ManagementCommand.isCreate < U32.size := by
  have hsplit := congrArg (List.countP ManagementCommand.isCreate)
    (List.take_append_drop position s.log)
  rw [List.countP_append] at hsplit
  rw [stateAt, nextClusterId_applyAll (h.take position)]
  rw [Room] at h
  omega

theorem current_eq (s : Arrivals) (position : ℕ) :
    s.current = (s.stateAt position).applyAll (s.log.drop position) := by
  rw [stateAt, ← applyAll_append, List.take_append_drop, current]

theorem nextClusterId_stateAt_le (h : s.Room) (position : ℕ) :
    (s.stateAt position).nextClusterId ≤ s.current.nextClusterId := by
  rw [s.current_eq position, nextClusterId_applyAll (h.drop position)]
  exact Nat.le_add_right _ _

theorem Sound.numbered_stateAt (h : s.Sound) (hroom : s.Room) (position : ℕ) :
    (s.stateAt position).Numbered := numbered_applyAll h.numbered (hroom.take position)

theorem Sound.numbered_current (h : s.Sound) (hroom : s.Room) : s.current.Numbered :=
  numbered_applyAll h.numbered hroom

/-- The number that the next command may give. -/
theorem Room.next (hinitial : s'.initial = s.initial) {command : ManagementCommand}
    (hlog : s'.log = s.log ++ [command]) (h : s'.Room) :
    s'.current.nextClusterId = s.current.nextClusterId + (if command.isCreate then 1 else 0) := by
  have hbefore := h.of_append hlog hinitial
  rw [current, current, nextClusterId_applyAll h, nextClusterId_applyAll hbefore, hinitial, hlog,
    List.countP_append, List.countP_singleton, Nat.add_assoc]

/-- What a decision of a task proposes. -/
theorem Sound.planned (config : ClusterManagerConfig) (h : s.Sound) (hroom : s.Room)
    {position : ℕ} {order : List ℕ} (nodeId : ℕ)
    (horder : (s.stateAt position).IterationOrder order) :
    (∃ c, c < (s.stateAt position).nextClusterId ∧ ((s.stateAt position).getSubCluster c).isSome ∧
      (s.stateAt position).size c < config.targetClusterSize ∧
      executeActions (decideNodePlacement config ((s.stateAt position).entries order) nodeId) =
        [.addNodeToSubCluster c nodeId]) ∨
    executeActions (decideNodePlacement config ((s.stateAt position).entries order) nodeId) =
      [.createSubCluster [nodeId]] := by
  rcases placement_commands config nodeId horder with ⟨c, hsome, hlt, heq⟩ | heq
  · exact Or.inl ⟨c, ((h.numbered_stateAt hroom position).2 c hsome).2, hsome, hlt, heq⟩
  · exact Or.inr heq

theorem Sound.step (h : s.Sound) (hroom : s'.Room) (hinitial : s'.initial = s.initial)
    (hstep : Stepped config s s' op) : s'.Sound := by
  have hbefore := hroom.of_step hinitial hstep
  refine ⟨hinitial ▸ h.numbered, ?_⟩
  cases hstep with
  | addNode hlog hlost hunderway hdecided =>
    rw [current_of_log hlog hinitial]
    intro command hmem
    rcases List.mem_cons.mp (hunderway.mem_iff.mp hmem) with rfl | hmem
    · trivial
    · exact h.formed command hmem
  | decide nodeId hle horder hlog hlost hunderway hdecided =>
    rw [current_of_log hlog hinitial]
    intro command hmem
    rcases List.mem_append.mp (hunderway.mem_iff.mp hmem) with hmem | hmem
    · rcases h.planned config hbefore nodeId horder with ⟨c, hc, -, -, heq⟩ | heq
      · rw [heq, List.mem_singleton] at hmem
        rw [hmem]
        exact Nat.lt_of_lt_of_le hc (nextClusterId_stateAt_le hbefore _)
      · rw [heq, List.mem_singleton] at hmem
        rw [hmem]
        rfl
    · exact h.formed command hmem
  | propose hlog hlost hunderway hdecided =>
    rw [current_of_log hlog hinitial]
    exact fun command hmem => h.formed command (hunderway.mem_iff.mp hmem)
  | commit command hlog hlost hunderway hdecided =>
    intro x hx
    refine (h.formed x (hunderway.mem_iff.mpr (List.mem_cons_of_mem _ hx))).mono ?_
    rw [hroom.next hinitial hlog]
    exact Nat.le_add_right _ _
  | lose command hlog hlost hunderway hdecided =>
    rw [current_of_log hlog hinitial]
    exact fun x hx => h.formed x (hunderway.mem_iff.mpr (List.mem_cons_of_mem _ hx))
  | other hlog hlost hunderway hdecided =>
    intro x hx
    refine (h.formed x (hunderway ▸ hx)).mono ?_
    rw [hroom.next hinitial hlog]
    exact Nat.le_add_right _ _

/-- Nothing is on its way to a sub-cluster that is still to be created. -/
theorem Sound.countP_joins_next (h : s.Sound) :
    s.underway.countP (ManagementCommand.joins s.current.nextClusterId) = 0 := by
  refine List.countP_eq_zero.mpr fun command hmem hjoins => ?_
  have hformed := h.formed command hmem
  cases command with
  | addNodeToSubCluster c n =>
    rw [ManagementCommand.joins, beq_iff_eq] at hjoins
    exact Nat.ne_of_lt hformed hjoins
  | _ => simp [ManagementCommand.joins] at hjoins

theorem countP_joins_le (commands : List ManagementCommand) (c : ℕ) :
    commands.countP (ManagementCommand.joins c) ≤ commands.countP ManagementCommand.isAddition := by
  refine List.countP_mono_left fun command _ hjoins => ?_
  cases command with
  | addNodeToSubCluster clusterId nodeId => rfl
  | _ => simp [ManagementCommand.joins] at hjoins

theorem Capped.step {k : ℕ} (hs : s.Sound) (h : Capped config k s)
    (htarget : 1 ≤ config.targetClusterSize) (hop : Overlaps k s op) (hroom : s'.Room)
    (hinitial : s'.initial = s.initial) (hstep : Stepped config s s' op) :
    Capped config k s' := by
  have hbefore := hroom.of_step hinitial hstep
  intro c
  have hc := h c
  rw [hinitial]
  cases hstep with
  | addNode hlog hlost hunderway hdecided =>
    rw [current_of_log hlog hinitial, hunderway.countP_eq]
    simpa [ManagementCommand.joins] using hc
  | decide nodeId hle horder hlog hlost hunderway hdecided =>
    rename_i i position order
    rw [current_of_log hlog hinitial, hunderway.countP_eq, List.countP_append]
    rcases hs.planned config hbefore nodeId horder with
      ⟨c', hc', -, hlt, heq⟩ | heq
    · rw [heq, List.countP_singleton, ManagementCommand.joins]
      by_cases hsame : c' = c
      · -- the additions that the state does not show are all that has joined since
        subst hsame
        have hgrown : s.current.size c' ≤ (s.stateAt position).size c' +
            (s.log.drop position).countP (ManagementCommand.joins c') := by
          rw [s.current_eq position]
          exact size_applyAll_le (hbefore.drop position) hc'
        have hunseen := (countP_joins_le (s.unseen position) c').trans hop
        rw [unseen, List.countP_append] at hunseen
        rw [beq_self_eq_true, if_pos rfl]
        refine le_max_of_le_right ?_
        omega
      · rw [beq_false_of_ne hsame, if_neg (by simp), Nat.zero_add]
        exact hc
    · rw [heq]
      simpa [ManagementCommand.joins] using hc
  | propose hlog hlost hunderway hdecided =>
    rw [current_of_log hlog hinitial, hunderway.countP_eq]
    exact hc
  | commit command hlog hlost hunderway hdecided =>
    have hformed := hs.formed command (hunderway.mem_iff.mpr List.mem_cons_self)
    rw [hunderway.countP_eq, List.countP_cons] at hc
    rw [current_append hlog hinitial]
    by_cases hnew : command.isCreate ∧ s.current.nextClusterId = c
    · obtain ⟨hcreate, rfl⟩ := hnew
      cases command with
      | createSubCluster nodeIds =>
        -- nobody can have decided for a cluster that did not exist
        have hnone := hs.countP_joins_next
        rw [hunderway.countP_eq, List.countP_cons] at hnone
        have hone : nodeIds.length = 1 := hformed
        rw [size_createSubCluster, hone]
        refine le_max_of_le_right ?_
        omega
      | _ => exact absurd hcreate (by simp [ManagementCommand.isCreate])
    -- what was underway is now applied
    · have hsize : (s.current.apply command).2.size c ≤
          s.current.size c + if command.joins c then 1 else 0 :=
        size_apply_le fun hcreate heq => hnew ⟨hcreate, heq⟩
      omega
  | lose command hlog hlost hunderway hdecided =>
    rw [hunderway.countP_eq, List.countP_cons] at hc
    rw [current_of_log hlog hinitial]
    omega
  | other hlog hlost hunderway hdecided =>
    rename_i command
    have hsize : (s.current.apply command).2.size c ≤
        s.current.size c + if command.joins c then 1 else 0 :=
      size_apply_le fun hcreate => absurd hcreate hop.1
    have hjoins : command.joins c = false := by
      cases command with
      | addNodeToSubCluster clusterId nodeId => exact absurd rfl hop.2
      | _ => rfl
    rw [hjoins] at hsize
    rw [current_append hlog hinitial, hunderway]
    exact (Nat.add_le_add_right hsize _).trans hc

/-- However the placements interleave, a sub-cluster exceeds the target size by no more than the
additions that overlap. -/
theorem sizes_of_run {config : ClusterManagerConfig} {k : ℕ} {sm : ManagementStateMachine}
    (hnumbered : sm.Numbered) (htarget : 1 ≤ config.targetClusterSize) {ops : List ArrivalsOp}
    (hoverlaps : Along (step config) (Overlaps k) { initial := sm } ops) {s : Arrivals}
    (hrun : run (step config) { initial := sm } ops = some s)
    (hroom : sm.nextClusterId + s.log.countP ManagementCommand.isCreate < U32.size) (c : ℕ) :
    s.current.size c ≤ max (sm.size c) (config.targetClusterSize + k) := by
  have hend : s.initial = sm ∧ (s.Room → s.Sound ∧ Capped config k s) := by
    refine run_induction (I := fun s => s.initial = sm ∧ (s.Room → s.Sound ∧ Capped config k s))
      (fun s op s' hs hop hstep => ?_) ⟨rfl, fun _ => ⟨⟨hnumbered, ?_⟩, fun c => ?_⟩⟩ hoverlaps hrun
    · obtain ⟨hinitial, -, hstepped⟩ := stepped hstep
      refine ⟨hinitial.trans hs.1, fun hroom => ?_⟩
      obtain ⟨hsound, hcapped⟩ := hs.2 (hroom.of_step hinitial hstepped)
      exact ⟨hsound.step hroom hinitial hstepped,
        hcapped.step hsound htarget hop hroom hinitial hstepped⟩
    · exact le_max_left (sm.size c) _
    · simp [underway, pending]
  obtain ⟨hinitial, hsound⟩ := hend
  have hcapped := (hsound (by rwa [Room, hinitial])).2 c
  rw [hinitial] at hcapped
  omega

/-! ## The memberships -/

/-- Nothing but its placements puts the node into a sub-cluster. -/
def AddedBy (n : ℕ) : ArrivalsOp → Prop
  | .other command => command.settles n = false
  | _ => True

/-- Nothing takes the node out of a sub-cluster, and none is deleted. -/
def LeftIn (n : ℕ) : ArrivalsOp → Prop
  | .other command => command.unsettles n = false
  | _ => True

/-- The memberships of a node, those it may still get and those that were dropped. -/
def Counted (n : ℕ) (s : Arrivals) : Prop :=
  s.current.memberships n + s.outstanding n ≤ s.initial.memberships n + s.decided n

theorem countP_settles_planned (h : s.Sound) (hroom : s.Room) {position : ℕ} {order : List ℕ}
    {nodeId : ℕ} (horder : (s.stateAt position).IterationOrder order) (n : ℕ) :
    (executeActions (decideNodePlacement config ((s.stateAt position).entries order)
      nodeId)).countP (ManagementCommand.settles n) = if nodeId = n then 1 else 0 := by
  rcases h.planned config hroom nodeId horder with ⟨c, -, -, -, heq⟩ | heq
  · rw [heq, List.countP_singleton]
    simp [ManagementCommand.settles]
  · rw [heq, List.countP_singleton]
    simp [ManagementCommand.settles, @eq_comm _ n nodeId]

/-- What a step does to the commands that settle a node. -/
theorem outstanding_step (h : s.Sound) (hroom : s.Room) (hstep : Stepped config s s' op) (n : ℕ) :
    (s'.log = s.log ∧ s'.outstanding n + s.decided n = s.outstanding n + s'.decided n) ∨
    ∃ command, s'.log = s.log ++ [command] ∧ s'.decided n = s.decided n ∧
      (op = .other command ∧ s'.outstanding n = s.outstanding n ∨
        command ∈ s.underway ∧
          s.outstanding n = s'.outstanding n + if command.settles n then 1 else 0) := by
  unfold outstanding
  cases hstep with
  | addNode hlog hlost hunderway hdecided =>
    refine Or.inl ⟨hlog, ?_⟩
    rw [hlost, hdecided, (hunderway.append_right s.lost).countP_eq]
    simp [ManagementCommand.settles]
  | decide nodeId hle horder hlog hlost hunderway hdecided =>
    refine Or.inl ⟨hlog, ?_⟩
    rw [hlost, hdecided, (hunderway.append_right s.lost).countP_eq, List.append_assoc,
      List.countP_append, countP_settles_planned h hroom horder]
    omega
  | propose hlog hlost hunderway hdecided =>
    refine Or.inl ⟨hlog, ?_⟩
    rw [hlost, hdecided, (hunderway.append_right s.lost).countP_eq]
  | commit command hlog hlost hunderway hdecided =>
    refine Or.inr ⟨command, hlog, hdecided n,
      Or.inr ⟨hunderway.mem_iff.mpr List.mem_cons_self, ?_⟩⟩
    rw [hlost, (hunderway.append_right s.lost).countP_eq, List.cons_append, List.countP_cons]
  | lose command hlog hlost hunderway hdecided =>
    refine Or.inl ⟨hlog, ?_⟩
    have hperm : (s'.underway ++ s'.lost).Perm (s.underway ++ s.lost) := by
      rw [hlost, ← List.append_assoc]
      exact List.perm_append_comm.trans (hunderway.symm.append_right s.lost)
    rw [hdecided, hperm.countP_eq]
  | other hlog hlost hunderway hdecided =>
    exact Or.inr ⟨_, hlog, hdecided n, Or.inl ⟨rfl, by rw [hlost, hunderway]⟩⟩

theorem Counted.step {n : ℕ} (hs : s.Sound) (h : s.Counted n) (hop : AddedBy n op)
    (hroom : s'.Room) (hinitial : s'.initial = s.initial) (hstep : Stepped config s s' op) :
    s'.Counted n := by
  have hbefore := hroom.of_step hinitial hstep
  rw [Counted] at h ⊢
  rw [hinitial]
  rcases outstanding_step hs hbefore hstep n with
    ⟨hlog, hbalance⟩ | ⟨command, hlog, hdecided, hcommand⟩
  · rw [current_of_log hlog hinitial]
    omega
  · have hle := memberships_apply_le (hs.numbered_current hbefore).fresh command n
    rw [current_append hlog hinitial]
    rcases hcommand with ⟨rfl, houtstanding⟩ | ⟨-, houtstanding⟩
    · rw [show command.settles n = false from hop] at hle
      simp at hle
      omega
    · omega

/-- A node that is left where it is put. -/
structure Kept (n : ℕ) (s : Arrivals) : Prop where
  noDelete : ∀ c, .deleteSubCluster c ∉ s.log
  live : ∀ c, .addNodeToSubCluster c n ∈ s.underway → (s.current.getSubCluster c).isSome
  settled : s.added n ≤ 1 → s.decided n ≤ s.current.memberships n + s.outstanding n

theorem decided_le_added (n : ℕ) (s : Arrivals) : s.decided n ≤ s.added n :=
  List.countP_mono_left fun _ _ h => ((Bool.and_eq_true _ _).mp h).1

theorem Formed.unsettles {next : ℕ} {command : ManagementCommand} (h : Formed next command)
    (n : ℕ) : command.unsettles n = false := by
  cases command with
  | deleteSubCluster c => exact h.elim
  | removeNodeFromSubCluster c n => exact h.elim
  | _ => rfl

/-- A command that takes no node out is committed. -/
theorem Kept.append {n : ℕ} (h : s.Kept n) {command : ManagementCommand}
    (hlog : s'.log = s.log ++ [command]) (hinitial : s'.initial = s.initial)
    (hunderway : s'.underway ⊆ s.underway) (hstays : command.unsettles n = false) :
    (∀ c, .deleteSubCluster c ∉ s'.log) ∧
      ∀ c, .addNodeToSubCluster c n ∈ s'.underway → (s'.current.getSubCluster c).isSome := by
  have hkeeps : ∀ c, command ≠ .deleteSubCluster c := by
    rintro c rfl
    simp [ManagementCommand.unsettles] at hstays
  refine ⟨fun c hmem => ?_, fun c hmem => ?_⟩
  · rw [hlog, List.mem_append, List.mem_singleton] at hmem
    rcases hmem with hmem | hmem
    · exact h.noDelete c hmem
    · exact hkeeps c hmem.symm
  · rw [current, hlog, hinitial, applyAll_append]
    refine isSome_applyAll ?_ (h.live c (hunderway hmem))
    rw [List.mem_singleton]
    exact fun heq => hkeeps c heq.symm

/-- A node that was in no sub-cluster and is added once is in none as long as it is to be put into
one. -/
theorem Counted.memberships_eq_zero {n : ℕ} (h : s.Counted n)
    (hnone : s.initial.memberships n = 0) (honce : s.added n ≤ 1) {command : ManagementCommand}
    (hmem : command ∈ s.underway) (hsettles : command.settles n) :
    s.current.memberships n = 0 ∧ s.outstanding n = 1 := by
  have hpos : 0 < s.outstanding n :=
    List.countP_pos_iff.mpr ⟨command, List.mem_append_left _ hmem, hsettles⟩
  have hle := decided_le_added n s
  rw [Counted] at h
  omega

theorem Kept.step {n : ℕ} (hs : s.Sound) (hcounted : s.Counted n) (h : s.Kept n)
    (hnone : s.initial.memberships n = 0) (hop : LeftIn n op) (hroom : s'.Room)
    (hinitial : s'.initial = s.initial) (hadded : s.added n ≤ s'.added n)
    (hstep : Stepped config s s' op) : s'.Kept n := by
  have hbefore := hroom.of_step hinitial hstep
  have hsettled : s'.added n ≤ 1 →
      s'.decided n ≤ s'.current.memberships n + s'.outstanding n := by
    intro honce
    have hold := h.settled (hadded.trans honce)
    -- either the log stays, or a command of others is applied, or one that was underway
    rcases outstanding_step hs hbefore hstep n with
      ⟨hlog, hbalance⟩ | ⟨command, hlog, hdecided, ⟨rfl, hsame⟩ | ⟨hmem, hfewer⟩⟩
    · rw [current_of_log hlog hinitial]
      omega
    · have hle := le_memberships_apply (hs.numbered_current hbefore) hop
      rw [current_append hlog hinitial]
      omega
    · have hle := le_memberships_apply (hs.numbered_current hbefore)
        ((hs.formed command hmem).unsettles n)
      rw [current_append hlog hinitial]
      by_cases hsettles : command.settles n
      · -- the node is in no sub-cluster, so that the command puts it into one
        obtain ⟨hzero, hone⟩ :=
          hcounted.memberships_eq_zero hnone (hadded.trans honce) hmem hsettles
        have hput : 1 ≤ (s.current.apply command).2.memberships n := by
          cases command with
          | createSubCluster nodeIds =>
            rw [memberships_createSubCluster (hs.numbered_current hbefore).fresh,
              if_pos (List.contains_iff_mem.mp hsettles)]
            exact Nat.le_add_left _ _
          | addNodeToSubCluster c nodeId =>
            obtain rfl : nodeId = n := beq_iff_eq.mp hsettles
            exact one_le_memberships_addNode (h.live c hmem)
          | _ => exact absurd hsettles (by simp [ManagementCommand.settles])
        omega
      · rw [if_neg hsettles] at hfewer
        omega
  have hlive : (∀ c, .deleteSubCluster c ∉ s'.log) ∧
      ∀ c, .addNodeToSubCluster c n ∈ s'.underway → (s'.current.getSubCluster c).isSome := by
    cases hstep with
    | addNode hlog hlost hunderway hdecided =>
      rw [current_of_log hlog hinitial, hlog]
      exact ⟨h.noDelete, fun c hmem => h.live c (by simpa using hunderway.mem_iff.mp hmem)⟩
    | decide nodeId hle horder hlog hlost hunderway hdecided =>
      rename_i i position order
      rw [current_of_log hlog hinitial, hlog]
      refine ⟨h.noDelete, fun c hmem => ?_⟩
      rcases List.mem_append.mp (hunderway.mem_iff.mp hmem) with hmem | hmem
      · rcases hs.planned config hbefore nodeId horder with
          ⟨c', -, hsome, -, heq⟩ | heq
        · rw [heq, List.mem_singleton] at hmem
          cases hmem
          rw [s.current_eq position]
          -- the cluster was there when it was chosen, and none is deleted
          exact isSome_applyAll (fun hdelete => h.noDelete c (List.mem_of_mem_drop hdelete)) hsome
        · simp [heq] at hmem
      · exact h.live c hmem
    | propose hlog hlost hunderway hdecided =>
      rw [current_of_log hlog hinitial, hlog]
      exact ⟨h.noDelete, fun c hmem => h.live c (hunderway.mem_iff.mp hmem)⟩
    | commit command hlog hlost hunderway hdecided =>
      have hformed := hs.formed command (hunderway.mem_iff.mpr List.mem_cons_self)
      exact h.append hlog hinitial
        (fun x hx => hunderway.mem_iff.mpr (List.mem_cons_of_mem _ hx)) (hformed.unsettles n)
    | lose command hlog hlost hunderway hdecided =>
      rw [current_of_log hlog hinitial, hlog]
      exact ⟨h.noDelete, fun c hmem =>
        h.live c (hunderway.mem_iff.mpr (List.mem_cons_of_mem _ hmem))⟩
    | other hlog hlost hunderway hdecided =>
      exact h.append hlog hinitial (fun x hx => hunderway ▸ hx) hop
  exact ⟨hlive.1, hlive.2, hsettled⟩

/-- However the placements interleave, a node is put into no more sub-clusters than decisions were
made for it. If it was in none, is added once and left where it is put, it is in exactly one once
its command is applied, unless that command was dropped. -/
theorem placed_of_run {config : ClusterManagerConfig} {sm : ManagementStateMachine}
    (hnumbered : sm.Numbered) {n : ℕ} {ops : List ArrivalsOp} (hadds : ∀ op ∈ ops, AddedBy n op)
    {s : Arrivals} (hrun : run (step config) { initial := sm } ops = some s)
    (hroom : sm.nextClusterId + s.log.countP ManagementCommand.isCreate < U32.size) :
    s.current.memberships n + s.outstanding n ≤ sm.memberships n + s.decided n ∧
      ((∀ op ∈ ops, LeftIn n op) → sm.memberships n = 0 → s.added n ≤ 1 →
        s.current.memberships n + s.outstanding n = s.decided n) := by
  have hend : s.initial = sm ∧ (s.Room → s.Sound ∧ s.Counted n ∧
      ((∀ op ∈ ops, LeftIn n op) → sm.memberships n = 0 → s.Kept n)) := by
    refine run_induction
      (I := fun s => s.initial = sm ∧ (s.Room → s.Sound ∧ s.Counted n ∧
        ((∀ op ∈ ops, LeftIn n op) → sm.memberships n = 0 → s.Kept n)))
      (fun s op s' hs hop hstep => ?_) ⟨rfl, fun _ => ⟨⟨hnumbered, ?_⟩, ?_, fun _ _ => ?_⟩⟩
      (along_of_forall fun op hop =>
        And.intro (hadds op hop) fun h : ∀ op ∈ ops, LeftIn n op => h op hop) hrun
    · obtain ⟨hinitial, hadded, hstepped⟩ := stepped hstep
      refine ⟨hinitial.trans hs.1, fun hroom => ?_⟩
      obtain ⟨hsound, hcounted, hkept⟩ := hs.2 (hroom.of_step hinitial hstepped)
      refine ⟨hsound.step hroom hinitial hstepped,
        hcounted.step hsound hop.1 hroom hinitial hstepped, fun hleft hnone => ?_⟩
      exact (hkept hleft hnone).step hsound hcounted (by rw [hs.1, hnone]) (hop.2 hleft) hroom
        hinitial (hadded n) hstepped
    · exact Nat.le_refl (sm.memberships n)
    · exact ⟨by simp, by simp [underway, pending], fun _ => Nat.zero_le _⟩
    · simp [underway, pending]
  obtain ⟨hinitial, hsound⟩ := hend
  obtain ⟨-, hcounted, hkept⟩ := hsound (by rwa [Room, hinitial])
  rw [Counted, hinitial] at hcounted
  refine ⟨hcounted, fun hleft hnone honce => Nat.le_antisymm ?_ ((hkept hleft hnone).settled honce)⟩
  omega

instance (k : ℕ) (s : Arrivals) (op : ArrivalsOp) : Decidable (Overlaps k s op) :=
  match op with
  | .decide _ position _ => inferInstanceAs
      (Decidable ((s.unseen position).countP ManagementCommand.isAddition ≤ k))
  | .other command => inferInstanceAs (Decidable (¬ command.isCreate ∧ ¬ command.isAddition))
  | .addNode _ _ _ => .isTrue trivial
  | .propose _ => .isTrue trivial
  | .commit _ => .isTrue trivial
  | .lose _ => .isTrue trivial

instance (n : ℕ) (op : ArrivalsOp) : Decidable (AddedBy n op) :=
  match op with
  | .other command => inferInstanceAs (Decidable (command.settles n = false))
  | .addNode _ _ _ => .isTrue trivial
  | .decide _ _ _ => .isTrue trivial
  | .propose _ => .isTrue trivial
  | .commit _ => .isTrue trivial
  | .lose _ => .isTrue trivial

instance (n : ℕ) (op : ArrivalsOp) : Decidable (LeftIn n op) :=
  match op with
  | .other command => inferInstanceAs (Decidable (command.unsettles n = false))
  | .addNode _ _ _ => .isTrue trivial
  | .decide _ _ _ => .isTrue trivial
  | .propose _ => .isTrue trivial
  | .commit _ => .isTrue trivial
  | .lose _ => .isTrue trivial

/-- Three nodes are placed on a state that shows one sub-cluster of two, and the target size is
three. -/
def threeAtOnce : List ArrivalsOp :=
  [.addNode 3 "a" true, .addNode 4 "b" true, .addNode 5 "c" true, .decide 0 0 [1], .decide 1 0 [1],
    .decide 2 0 [1], .propose 2, .propose 0, .propose 1, .lose 0, .commit 1, .commit 0, .commit 0,
    .commit 1, .commit 0]

theorem numbered_roomyCluster : roomyCluster.Numbered :=
  numbered_applyAll numbered_new (by decide)

/-- The bound is reached. -/
theorem sizes_threeAtOnce : ∃ s, run (step {}) { initial := roomyCluster } threeAtOnce = some s ∧
    s.current.size 1 = 5 ∧ s.current.size 1 ≤ max (roomyCluster.size 1) (3 + 2) := by
  have hsome : (run (step {}) { initial := roomyCluster } threeAtOnce).map
      (fun s => (s.current.size 1, s.log.countP ManagementCommand.isCreate)) = some (5, 0) := by
    decide +kernel
  obtain ⟨s, hrun, hsizes⟩ := Option.map_eq_some_iff.mp hsome
  obtain ⟨hsize, hcreations⟩ := Prod.mk.inj hsizes
  refine ⟨s, hrun, hsize, ?_⟩
  exact sizes_of_run numbered_roomyCluster (by decide) (by decide +kernel) hrun
    (by rw [hcreations]; decide) 1

/-- Two nodes are placed at once; the command of one of them is dropped, and the sub-cluster is
drained before that of the other is committed. -/
def twoAtOnce : List ArrivalsOp :=
  [.addNode 3 "a" true, .addNode 4 "b" true, .decide 0 0 [1], .decide 1 0 [1], .propose 1,
    .propose 0, .lose 2, .other (.setMetadata 1 "draining" "true"), .commit 2]

theorem placed_twoAtOnce : ∃ s, run (step {}) { initial := roomyCluster } twoAtOnce = some s ∧
    s.outstanding 4 = 1 ∧ s.outstanding 3 = 0 ∧
      s.current.memberships 3 + s.outstanding 3 = s.decided 3 := by
  have hsome : (run (step {}) { initial := roomyCluster } twoAtOnce).map
      (fun s => (s.outstanding 4, s.outstanding 3, s.added 3,
        s.log.countP ManagementCommand.isCreate)) = some (1, 0, 1, 0) := by
    decide +kernel
  obtain ⟨s, hrun, hcounts⟩ := Option.map_eq_some_iff.mp hsome
  simp only [Prod.mk.injEq] at hcounts
  obtain ⟨hdropped, hnone, honce, hcreations⟩ := hcounts
  have hplaced := placed_of_run (n := 3) numbered_roomyCluster (by decide) hrun
    (by rw [hcreations]; decide)
  exact ⟨s, hrun, hdropped, hnone, hplaced.2 (by decide) (by decide +kernel) honce.le⟩

end Arrivals

end Raftoral

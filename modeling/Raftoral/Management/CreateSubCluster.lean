import Raftoral.Lib.Run
import Raftoral.Management.StateMachine

/-!
# `create_sub_cluster`

The ID of a new sub-cluster is given by the state machine. A call of `create_sub_cluster`
(`management/runtime.rs`) learns it from the events of its node: it subscribes, proposes its
command, waits until the command is applied on its node, and takes the first
`SubClusterCreated` that came since it subscribed. That one is its own as long as no other
creation is applied on its node while it waits.
-/

namespace Raftoral

inductive CreatePhase where
  /-- Subscribed; the command is not applied here yet. -/
  | waiting
  /-- `propose_and_wait` has returned. -/
  | applied
  | returned (clusterId : ℕ)
  | failed
deriving DecidableEq, Repr

/-- A call of `create_sub_cluster`, with the events its receiver holds. -/
structure CreateCall where
  node : ℕ
  nodeIds : List ℕ
  receiver : List ManagementEvent := []
  phase : CreatePhase := .waiting
deriving DecidableEq, Repr

namespace CreateCall

/-- The call when its node publishes the events of an entry, which may be the call's own. -/
def publish (call : CreateCall) (events : List ManagementEvent) (own : Bool) : CreateCall :=
  { call with
    receiver := call.receiver ++ events
    phase := if own ∧ call.phase = .waiting then .applied else call.phase }

/-- One turn of the loop that waits for `SubClusterCreated`. -/
def recv (call : CreateCall) : Option CreateCall :=
  match call.phase, call.receiver with
  | .applied, .subClusterCreated clusterId _ :: rest =>
    some { call with receiver := rest, phase := .returned clusterId }
  | .applied, _ :: rest => some { call with receiver := rest }
  | _, _ => none

/-- A call in its loop takes the first event; a new sub-cluster is its answer. -/
theorem recv_cases {call call' : CreateCall} (h : call.recv = some call') :
    call.phase = .applied ∧ ∃ event rest, call.receiver = event :: rest ∧
      call'.receiver = rest ∧ call'.node = call.node ∧ call'.nodeIds = call.nodeIds ∧
      ((∃ clusterId nodeIds, event = .subClusterCreated clusterId nodeIds ∧
          call'.phase = .returned clusterId) ∨
        (∀ clusterId nodeIds, event ≠ .subClusterCreated clusterId nodeIds) ∧
          call'.phase = .applied) := by
  unfold recv at h
  cases hphase : call.phase with
  | applied =>
    refine ⟨rfl, ?_⟩
    cases hreceiver : call.receiver with
    | nil => simp [hphase, hreceiver] at h
    | cons event rest =>
      cases event with
      | subClusterCreated clusterId nodeIds =>
        simp only [hphase, hreceiver, Option.some.injEq] at h
        subst h
        exact ⟨_, _, rfl, rfl, rfl, rfl, Or.inl ⟨clusterId, nodeIds, rfl, rfl⟩⟩
      | _ =>
        simp only [hphase, hreceiver, Option.some.injEq] at h
        subst h
        exact ⟨_, _, rfl, rfl, rfl, rfl, Or.inr ⟨fun _ _ => by simp, rfl⟩⟩
  | _ => simp [hphase] at h

end CreateCall

/-- A committed command, with the call that proposed it if a call did. -/
structure ManagementEntry where
  command : ManagementCommand
  call : Option ℕ
deriving DecidableEq, Repr

/-- What a node has applied of the log. -/
structure ManagementReplica where
  applied : ℕ := 0
  stateMachine : ManagementStateMachine := {}

/-- The management cluster: its log, its nodes and the calls made so far. -/
structure CreateSystem where
  log : List ManagementEntry := []
  replicas : ℕ → ManagementReplica := fun _ => {}
  calls : List CreateCall := []

inductive CreateAction where
  /-- A call of `create_sub_cluster` on a node subscribes. -/
  | subscribe (node : ℕ) (nodeIds : List ℕ)
  /-- The command of a call is committed. -/
  | commitCall (call : ℕ)
  /-- Another command is committed, for example one of the planner. -/
  | commitOther (command : ManagementCommand)
  /-- A node applies its next entry, publishes the events and completes the proposal. -/
  | apply (node : ℕ)
  | recv (call : ℕ)
  /-- The proposal fails, or the receiver has lagged. -/
  | fail (call : ℕ)
deriving DecidableEq, Repr

namespace CreateSystem

/-- The entry a node applies next. -/
def next (s : CreateSystem) (node : ℕ) : Option ManagementEntry :=
  s.log[(s.replicas node).applied]?

/-- What the application of an entry on a node does to the calls. -/
def publish (s : CreateSystem) (node : ℕ) (entry : ManagementEntry) : List CreateCall :=
  s.calls.mapIdx fun k call =>
    if call.node = node then
      call.publish ((s.replicas node).stateMachine.events entry.command)
        (entry.call == some k)
    else call

def step (s : CreateSystem) : CreateAction → Option CreateSystem
  | .subscribe node nodeIds => some { s with calls := s.calls ++ [{ node, nodeIds }] }
  | .commitCall k =>
    match s.calls[k]? with
    | some call =>
      if s.log.any (·.call == some k) then none
      else some { s with log := s.log ++ [⟨.createSubCluster call.nodeIds, some k⟩] }
    | none => none
  | .commitOther command => some { s with log := s.log ++ [⟨command, none⟩] }
  | .apply node =>
    match s.next node with
    | some entry =>
      some { s with
        replicas := Function.update s.replicas node
          { applied := (s.replicas node).applied + 1
            stateMachine := ((s.replicas node).stateMachine.apply entry.command).2 }
        calls := s.publish node entry }
    | none => none
  | .recv k =>
    match s.calls[k]? with
    | some call => call.recv.map fun call' => { s with calls := s.calls.set k call' }
    | none => none
  | .fail k =>
    match s.calls[k]? with
    | some call =>
      if call.phase = .waiting ∨ call.phase = .applied then
        some { s with calls := s.calls.set k { call with phase := .failed } }
      else none
    | none => none

/-- The ID that the application of an entry of the log assigns. -/
def assigned (s : CreateSystem) (i : ℕ) : ℕ :=
  (ManagementStateMachine.replay ((s.log.take i).map (·.command))).nextClusterId

/-- The entry at `i` is the command of call `k`. -/
def Proposed (s : CreateSystem) (k i : ℕ) : Prop :=
  ∃ nodeIds, (s.calls[k]?).map (·.nodeIds) = some nodeIds ∧
    s.log[i]? = some ⟨.createSubCluster nodeIds, some k⟩

def Returned (s : CreateSystem) (k clusterId : ℕ) : Prop :=
  ∃ call, s.calls[k]? = some call ∧ call.phase = .returned clusterId

/-- Every call that returned has the ID of the sub-cluster it created, and no two calls have
the same one. -/
def ReturnsOwn (s : CreateSystem) : Prop :=
  (∀ k clusterId, s.Returned k clusterId → ∃ i, s.Proposed k i ∧ clusterId = s.assigned i) ∧
  ∀ k k' clusterId, s.Returned k clusterId → s.Returned k' clusterId → k = k'

/-- Whether a step applies a creation on a node where another call is still waiting. -/
def disturbs (s : CreateSystem) : CreateAction → Bool
  | .apply node =>
    match s.next node with
    | some entry => entry.command.isCreate && s.calls.zipIdx.any fun (call, k) =>
        call.node == node && call.phase == .waiting && entry.call != some k
    | none => false
  | _ => false

/-! ## The invariant -/

/-- The ID in the first `SubClusterCreated` of a list of events. -/
def firstCreated (events : List ManagementEvent) : Option ℕ :=
  events.findSome? fun
    | .subClusterCreated clusterId _ => some clusterId
    | _ => none

theorem firstCreated_append (events events' : List ManagementEvent) :
    firstCreated (events ++ events') = (firstCreated events).or (firstCreated events') :=
  List.findSome?_append

/-- Only a creation publishes a new ID. -/
theorem firstCreated_events {sm : ManagementStateMachine} {command : ManagementCommand}
    (h : command.isCreate = false) : firstCreated (sm.events command) = none := by
  unfold firstCreated
  rw [List.findSome?_eq_none_iff]
  intro event he
  cases event with
  | subClusterCreated clusterId nodeIds =>
    have hcommand := (ManagementStateMachine.eq_nextClusterId_of_created he).2
    rw [hcommand] at h
    cases h
  | _ => rfl

/-- What a call knows in each phase. -/
def CallOk (s : CreateSystem) (k : ℕ) (call : CreateCall) : Prop :=
  match call.phase with
  | .waiting => firstCreated call.receiver = none ∧
      ∀ i, s.Proposed k i → (s.replicas call.node).applied ≤ i
  | .applied => ∃ i, s.Proposed k i ∧ firstCreated call.receiver = some (s.assigned i)
  | .returned clusterId => ∃ i, s.Proposed k i ∧ clusterId = s.assigned i
  | .failed => True

/-- The replicas are prefixes of the log, every call has at most one entry in it, and every call
knows what its phase says. -/
structure Inv (s : CreateSystem) : Prop where
  replicas : ∀ n, (s.replicas n).applied ≤ s.log.length ∧ (s.replicas n).stateMachine =
    .replay ((s.log.take (s.replicas n).applied).map (·.command))
  proposed : ∀ i (entry : ManagementEntry) k, s.log[i]? = some entry → entry.call = some k →
    s.Proposed k i
  once : ∀ k i j, s.Proposed k i → s.Proposed k j → i = j
  calls : ∀ k call, s.calls[k]? = some call → s.CallOk k call

theorem inv_start : Inv {} := by
  refine ⟨fun n => ⟨le_rfl, rfl⟩, ?_, ?_, ?_⟩
  · intro i entry k h
    simp at h
  · rintro k i j ⟨nodeIds, hcall, -⟩
    simp at hcall
  · intro k call h
    simp at h

theorem Proposed.lt {s : CreateSystem} {k i : ℕ} (h : s.Proposed k i) : i < s.log.length := by
  obtain ⟨nodeIds, -, hi⟩ := h
  exact (List.getElem?_eq_some_iff.mp hi).1

/-- A call knows what it knew, if its entry and the ID assigned to it are still there. -/
theorem CallOk.transfer {s s' : CreateSystem} {k : ℕ} {call : CreateCall} (h : s.CallOk k call)
    (hkeep : ∀ i, s.Proposed k i → s'.Proposed k i ∧ s'.assigned i = s.assigned i)
    (hahead : (∀ i, s.Proposed k i → (s.replicas call.node).applied ≤ i) →
      ∀ i, s'.Proposed k i → (s'.replicas call.node).applied ≤ i) : s'.CallOk k call := by
  unfold CallOk at h ⊢
  cases hphase : call.phase with
  | waiting =>
    simp only [hphase] at h ⊢
    exact ⟨h.1, hahead h.2⟩
  | applied =>
    simp only [hphase] at h ⊢
    obtain ⟨i, hi, hfirst⟩ := h
    exact ⟨i, (hkeep i hi).1, by rw [(hkeep i hi).2, hfirst]⟩
  | returned clusterId =>
    simp only [hphase] at h ⊢
    obtain ⟨i, hi, heq⟩ := h
    exact ⟨i, (hkeep i hi).1, by rw [(hkeep i hi).2, heq]⟩
  | failed => trivial

/-! ### Commits -/

section
variable {s : CreateSystem} {entry : ManagementEntry}

/-- The system with one more entry in its log. -/
def commit (s : CreateSystem) (entry : ManagementEntry) : CreateSystem :=
  { s with log := s.log ++ [entry] }

theorem assigned_commit {i : ℕ} (hi : i ≤ s.log.length) :
    (s.commit entry).assigned i = s.assigned i := by
  unfold assigned commit
  dsimp only
  rw [List.take_append_of_le_length hi]

theorem proposed_commit {k i : ℕ} : (s.commit entry).Proposed k i ↔ s.Proposed k i ∨
    i = s.log.length ∧ ∃ nodeIds, (s.calls[k]?).map (·.nodeIds) = some nodeIds ∧
      entry = ⟨.createSubCluster nodeIds, some k⟩ := by
  unfold Proposed commit
  dsimp only
  rcases lt_trichotomy i s.log.length with hi | rfl | hi
  · simp [List.getElem?_append_left hi, hi.ne]
  · simp
  · have hbeyond : [entry].length ≤ i - s.log.length := by
      rw [List.length_singleton]
      omega
    rw [List.getElem?_append_right hi.le, List.getElem?_eq_none (l := s.log) hi.le,
      List.getElem?_eq_none hbeyond]
    simp [hi.ne']

/-- A commit of a command that is not a call's, or is that of a call without one. -/
theorem Inv.commit (h : s.Inv)
    (hcall : ∀ k, entry.call = some k → (∀ i, ¬ s.Proposed k i) ∧
      ∃ nodeIds, (s.calls[k]?).map (·.nodeIds) = some nodeIds ∧
        entry.command = .createSubCluster nodeIds) : (s.commit entry).Inv := by
  -- what was proposed and assigned before stays
  have hkeep : ∀ {k i}, s.Proposed k i → (s.commit entry).Proposed k i ∧
      (s.commit entry).assigned i = s.assigned i :=
    fun hp => ⟨proposed_commit.mpr (Or.inl hp), assigned_commit hp.lt.le⟩
  refine ⟨fun n => ?_, fun i e k hi he => ?_, fun k i j hi hj => ?_, fun k call hk => ?_⟩
  · obtain ⟨hle, hsm⟩ := h.replicas n
    refine ⟨?_, ?_⟩
    · show (s.replicas n).applied ≤ (s.log ++ [entry]).length
      rw [List.length_append]
      omega
    · show (s.replicas n).stateMachine = .replay
        (((s.log ++ [entry]).take (s.replicas n).applied).map (·.command))
      rw [List.take_append_of_le_length hle]
      exact hsm
  · rw [proposed_commit]
    have hi : (s.log ++ [entry])[i]? = some e := hi
    -- an older entry, the one that is committed, or none
    rcases lt_trichotomy i s.log.length with hlt | rfl | hlt
    · rw [List.getElem?_append_left hlt] at hi
      exact Or.inl (h.proposed i e k hi he)
    · rw [List.getElem?_concat_length, Option.some.injEq] at hi
      subst hi
      obtain ⟨-, nodeIds, hids, hcommand⟩ := hcall k he
      refine Or.inr ⟨rfl, nodeIds, hids, ?_⟩
      rw [← hcommand, ← he]
    · rw [List.getElem?_append_right hlt.le,
        List.getElem?_eq_none (by rw [List.length_singleton]; omega)] at hi
      cases hi
  · rw [proposed_commit] at hi hj
    rcases hi with hi | ⟨rfl, nodeIds, -, rfl⟩
    · rcases hj with hj | ⟨rfl, nodeIds, -, rfl⟩
      · exact h.once k i j hi hj
      · exact absurd hi ((hcall k rfl).1 i)
    · rcases hj with hj | ⟨rfl, -⟩
      · exact absurd hj ((hcall k rfl).1 j)
      · rfl
  · refine (h.calls k call hk).transfer (fun i hi => hkeep hi) fun hbefore i hi => ?_
    rcases proposed_commit.mp hi with hi | ⟨rfl, -⟩
    · exact hbefore i hi
    · exact (h.replicas call.node).1

end

/-! ### Calls -/

section
variable {s : CreateSystem} {calls : List CreateCall}

/-- A step of the calls alone, if every call keeps its request and knows what it must. -/
theorem Inv.of_calls (h : s.Inv)
    (hids : ∀ k i, { s with calls }.Proposed k i ↔ s.Proposed k i)
    (hcalls : ∀ k call, calls[k]? = some call → s.CallOk k call) : Inv { s with calls } := by
  refine ⟨h.replicas, fun i e k hi he => (hids k i).mpr (h.proposed i e k hi he),
    fun k i j hi hj => h.once k i j ((hids k i).mp hi) ((hids k j).mp hj), fun k call hk => ?_⟩
  exact (hcalls k call hk).transfer (fun i hi => ⟨(hids k i).mpr hi, rfl⟩)
    fun hbefore i hi => hbefore i ((hids k i).mp hi)

/-- A new call has no entry in the log. -/
theorem Inv.subscribe (h : s.Inv) {call : CreateCall} (hphase : call.phase = .waiting)
    (hreceiver : call.receiver = []) : Inv { s with calls := s.calls ++ [call] } := by
  have hnew : ∀ (i : ℕ) ids, s.log[i]? ≠
      some { command := .createSubCluster ids, call := some s.calls.length } := by
    intro i ids hi
    obtain ⟨ids', hids', -⟩ := h.proposed i _ _ hi rfl
    rw [List.getElem?_eq_none le_rfl] at hids'
    cases hids'
  refine h.of_calls (fun k i => ?_) fun k call' hk => ?_
  · unfold Proposed
    dsimp only
    rcases lt_trichotomy k s.calls.length with hk | rfl | hk
    · rw [List.getElem?_append_left hk]
    · constructor
      · rintro ⟨ids, -, hi⟩
        exact absurd hi (hnew i ids)
      · rintro ⟨ids, -, hi⟩
        exact absurd hi (hnew i ids)
    · rw [List.getElem?_eq_none (l := s.calls) hk.le, List.getElem?_eq_none]
      rw [List.length_append, List.length_singleton]
      omega
  · rcases lt_trichotomy k s.calls.length with hlt | rfl | hlt
    · rw [List.getElem?_append_left hlt] at hk
      exact h.calls k call' hk
    · rw [List.getElem?_concat_length, Option.some.injEq] at hk
      subst hk
      unfold CallOk
      rw [hphase]
      refine ⟨by rw [hreceiver]; rfl, ?_⟩
      rintro i ⟨ids, -, hi⟩
      exact absurd hi (hnew i ids)
    · rw [List.getElem?_eq_none] at hk
      · cases hk
      · rw [List.length_append, List.length_singleton]
        omega

/-- A call moves on. -/
theorem Inv.set (h : s.Inv) {k : ℕ} {call call' : CreateCall} (hk : s.calls[k]? = some call)
    (hids : call'.nodeIds = call.nodeIds) (hok : s.CallOk k call') :
    Inv { s with calls := s.calls.set k call' } := by
  have hlt := (List.getElem?_eq_some_iff.mp hk).1
  refine h.of_calls (fun j i => ?_) fun j c hj => ?_
  · unfold Proposed
    dsimp only
    by_cases hjk : k = j
    · subst hjk
      rw [List.getElem?_set_self hlt, hk, Option.map_some, Option.map_some, hids]
    · rw [List.getElem?_set_ne hjk]
  · by_cases hjk : k = j
    · subst hjk
      rw [List.getElem?_set_self hlt, Option.some.injEq] at hj
      exact hj ▸ hok
    · rw [List.getElem?_set_ne hjk] at hj
      exact h.calls j c hj

/-! ### Applications -/

/-- An undisturbed step that applies a creation applies it where no other call waits. -/
theorem call_eq_of_undisturbed {node k : ℕ} {entry : ManagementEntry} {call : CreateCall}
    (h : s.disturbs (.apply node) = false) (hnext : s.next node = some entry)
    (hk : s.calls[k]? = some call) (hnode : call.node = node) (hphase : call.phase = .waiting)
    (hcreate : entry.command.isCreate = true) : entry.call = some k := by
  simp only [disturbs, hnext, hcreate, Bool.true_and, List.any_eq_false] at h
  have hthis := h (call, k) (List.mem_zipIdx_iff_getElem?.mpr hk)
  simpa [hnode, hphase] using hthis

theorem assigned_congr {s' : CreateSystem} (hlog : s'.log = s.log) (i : ℕ) :
    s'.assigned i = s.assigned i := by
  unfold assigned
  rw [hlog]

/-- The entry of a call that a node applies is a creation. -/
theorem Proposed.command_eq {node k : ℕ} {entry : ManagementEntry}
    (h : s.Proposed k (s.replicas node).applied) (hnext : s.next node = some entry) :
    entry.call = some k ∧ ∃ ids, entry.command = .createSubCluster ids := by
  obtain ⟨ids, -, hi⟩ := h
  have hi : s.next node = _ := hi
  rw [hnext, Option.some.injEq] at hi
  rw [hi]
  exact ⟨rfl, ids, rfl⟩

/-- What a call on the node knows after an entry was applied there. -/
theorem callOk_publish (h : s.Inv) {node k : ℕ} {entry : ManagementEntry} {call : CreateCall}
    {s' : CreateSystem} (hundisturbed : s.disturbs (.apply node) = false)
    (hnext : s.next node = some entry) (hk : s.calls[k]? = some call) (hnode : call.node = node)
    (hproposed : ∀ k i, s'.Proposed k i ↔ s.Proposed k i) (hlog : s'.log = s.log)
    (happlied : (s'.replicas node).applied = (s.replicas node).applied + 1) :
    s'.CallOk k (call.publish ((s.replicas node).stateMachine.events entry.command)
      (entry.call == some k)) := by
  have hassigned := assigned_congr hlog
  have hsm := (h.replicas node).2
  have hok := h.calls k call hk
  unfold CallOk at hok ⊢
  cases hphase : call.phase with
  | waiting =>
    simp only [hphase] at hok
    obtain ⟨hnone, hbefore⟩ := hok
    by_cases hown : entry.call = some k
    -- its own entry: the first creation it sees is the one that was just published
    · have hp := h.proposed _ entry k hnext hown
      obtain ⟨-, ids, hcommand⟩ := hp.command_eq hnext
      simp only [CreateCall.publish, hown, hphase, BEq.rfl, and_self, if_true]
      refine ⟨_, (hproposed k _).mpr hp, ?_⟩
      rw [firstCreated_append, hnone, Option.none_or, hassigned, hcommand]
      show some (s.replicas node).stateMachine.nextClusterId = _
      rw [hsm]
      rfl
    -- another entry, which is no creation
    · have hcreate : entry.command.isCreate = false := by
        rw [Bool.eq_false_iff]
        intro hcreate
        exact hown (call_eq_of_undisturbed hundisturbed hnext hk hnode hphase hcreate)
      have hbeq : (entry.call == some k) = false := by simpa using hown
      simp only [CreateCall.publish, hbeq, hphase, Bool.false_eq_true, false_and, if_false]
      refine ⟨?_, fun i hi => ?_⟩
      · rw [firstCreated_append, hnone, firstCreated_events hcreate]
        rfl
      · rw [hproposed] at hi
        have hle := hbefore i hi
        rw [hnode] at hle ⊢
        rw [happlied]
        rcases Nat.lt_or_eq_of_le hle with hlt | heq
        · omega
        · rw [← heq] at hi
          exact absurd (hi.command_eq hnext).1 hown
  | applied =>
    simp only [hphase] at hok
    obtain ⟨i, hi, hfirst⟩ := hok
    simp only [CreateCall.publish, hphase, reduceCtorEq, and_false, if_false]
    exact ⟨i, (hproposed k i).mpr hi, by rw [firstCreated_append, hfirst, hassigned]; rfl⟩
  | returned clusterId =>
    simp only [hphase] at hok
    obtain ⟨i, hi, heq⟩ := hok
    simp only [CreateCall.publish, hphase, reduceCtorEq, and_false, if_false]
    exact ⟨i, (hproposed k i).mpr hi, by rw [hassigned, heq]⟩
  | failed =>
    simp only [CreateCall.publish, hphase, reduceCtorEq, and_false, if_false]

theorem Inv.apply (h : s.Inv) {node : ℕ} {entry : ManagementEntry} {s' : CreateSystem}
    (hundisturbed : s.disturbs (.apply node) = false) (hnext : s.next node = some entry)
    (hlog : s'.log = s.log) (hcalls : s'.calls = s.publish node entry)
    (hreplicas : s'.replicas = Function.update s.replicas node
      { applied := (s.replicas node).applied + 1
        stateMachine := ((s.replicas node).stateMachine.apply entry.command).2 }) : s'.Inv := by
  have hentry : s.log[(s.replicas node).applied]? = some entry := hnext
  have hproposed : ∀ k i, s'.Proposed k i ↔ s.Proposed k i := by
    intro k i
    unfold Proposed
    rw [hlog, hcalls, publish, List.getElem?_mapIdx]
    cases s.calls[k]? with
    | none => rfl
    | some call =>
      simp only [Option.map_some]
      split_ifs <;> rfl
  refine ⟨fun n => ?_, fun i e k hi he => ?_, fun k i j hi hj => ?_, fun k call hk => ?_⟩
  · rw [hreplicas, hlog]
    by_cases hn : n = node
    · subst hn
      obtain ⟨hlt, hget⟩ := List.getElem?_eq_some_iff.mp hentry
      rw [Function.update_self]
      refine ⟨hlt, ?_⟩
      rw [List.take_succ_eq_append_getElem hlt, List.map_append, List.map_singleton,
        ManagementStateMachine.replay_append_singleton, ← (h.replicas n).2, hget]
    · rw [Function.update_of_ne hn]
      exact h.replicas n
  · rw [hlog] at hi
    exact (hproposed k i).mpr (h.proposed i e k hi he)
  · exact h.once k i j ((hproposed k i).mp hi) ((hproposed k j).mp hj)
  · rw [hcalls, publish, List.getElem?_mapIdx, Option.map_eq_some_iff] at hk
    obtain ⟨call₀, hk₀, rfl⟩ := hk
    by_cases hnode : call₀.node = node
    · rw [if_pos hnode]
      exact callOk_publish h hundisturbed hnext hk₀ hnode hproposed hlog
        (by rw [hreplicas, Function.update_self])
    -- a call on another node sees nothing of it
    · rw [if_neg hnode]
      have hreplica : s'.replicas call₀.node = s.replicas call₀.node := by
        rw [hreplicas, Function.update_of_ne hnode]
      refine (h.calls k call₀ hk₀).transfer
        (fun i hi => ⟨(hproposed k i).mpr hi, assigned_congr hlog i⟩) fun hbefore i hi => ?_
      rw [hreplica]
      exact hbefore i ((hproposed k i).mp hi)

end

/-! ## Every run -/

/-- What a step does. -/
inductive Stepped (s : CreateSystem) : CreateAction → CreateSystem → Prop
  | subscribed (node : ℕ) (nodeIds : List ℕ) :
      Stepped s (.subscribe node nodeIds) { s with calls := s.calls ++ [{ node, nodeIds }] }
  | committedCall (k : ℕ) (call : CreateCall) (hk : s.calls[k]? = some call)
      (hnew : ¬ s.log.any (·.call == some k)) :
      Stepped s (.commitCall k) (s.commit ⟨.createSubCluster call.nodeIds, some k⟩)
  | committedOther (command : ManagementCommand) :
      Stepped s (.commitOther command) (s.commit ⟨command, none⟩)
  | applied (node : ℕ) (entry : ManagementEntry) (hnext : s.next node = some entry) :
      Stepped s (.apply node) { s with
        replicas := Function.update s.replicas node
          { applied := (s.replicas node).applied + 1
            stateMachine := ((s.replicas node).stateMachine.apply entry.command).2 }
        calls := s.publish node entry }
  | received (k : ℕ) (call call' : CreateCall) (hk : s.calls[k]? = some call)
      (hrecv : call.recv = some call') : Stepped s (.recv k) { s with calls := s.calls.set k call' }
  | failed (k : ℕ) (call : CreateCall) (hk : s.calls[k]? = some call) :
      Stepped s (.fail k) { s with calls := s.calls.set k { call with phase := .failed } }

theorem stepped {s s' : CreateSystem} {a : CreateAction} (h : s.step a = some s') :
    s.Stepped a s' := by
  cases a with
  | subscribe node nodeIds =>
    rw [step, Option.some.injEq] at h
    exact h ▸ .subscribed node nodeIds
  | commitCall k =>
    simp only [step] at h
    cases hk : s.calls[k]? with
    | none => simp [hk] at h
    | some call =>
      simp only [hk] at h
      split_ifs at h with hany
      rw [Option.some.injEq] at h
      exact h ▸ .committedCall k call hk hany
  | commitOther command =>
    rw [step, Option.some.injEq] at h
    exact h ▸ .committedOther command
  | apply node =>
    simp only [step] at h
    cases hnext : s.next node with
    | none => simp [hnext] at h
    | some entry =>
      simp only [hnext, Option.some.injEq] at h
      exact h ▸ .applied node entry hnext
  | recv k =>
    simp only [step] at h
    cases hk : s.calls[k]? with
    | none => simp [hk] at h
    | some call =>
      simp only [hk, Option.map_eq_some_iff] at h
      obtain ⟨call', hrecv, rfl⟩ := h
      exact .received k call call' hk hrecv
  | fail k =>
    simp only [step] at h
    cases hk : s.calls[k]? with
    | none => simp [hk] at h
    | some call =>
      simp only [hk] at h
      split_ifs at h
      rw [Option.some.injEq] at h
      exact h ▸ .failed k call hk

theorem Inv.step {s s' : CreateSystem} {a : CreateAction} (h : s.Inv)
    (hundisturbed : s.disturbs a = false) (hstep : s.Stepped a s') : s'.Inv := by
  cases hstep with
  | subscribed node nodeIds => exact h.subscribe rfl rfl
  | committedCall k call hk hnew =>
    refine h.commit fun k' hk' => ?_
    obtain rfl : k = k' := by simpa using hk'
    refine ⟨?_, call.nodeIds, by rw [hk]; rfl, rfl⟩
    rintro i ⟨ids, -, hi⟩
    exact hnew (List.any_eq_true.mpr ⟨_, List.mem_of_getElem? hi, by simp⟩)
  | committedOther command => exact h.commit fun k hk => by cases hk
  | applied node entry hnext => exact h.apply hundisturbed hnext rfl rfl rfl
  | received k call call' hk hrecv =>
    obtain ⟨hphase, event, rest, hreceiver, hrest, -, hids, hcase⟩ := CreateCall.recv_cases hrecv
    refine h.set hk hids ?_
    have hok := h.calls k call hk
    simp only [CallOk, hphase] at hok
    obtain ⟨i, hi, hfirst⟩ := hok
    rw [hreceiver] at hfirst
    rcases hcase with ⟨clusterId, nodeIds, rfl, hphase'⟩ | ⟨hne, hphase'⟩
    · simp only [CallOk, hphase']
      exact ⟨i, hi, Option.some.inj hfirst⟩
    · simp only [CallOk, hphase']
      refine ⟨i, hi, ?_⟩
      rw [hrest, ← hfirst]
      cases event with
      | subClusterCreated clusterId nodeIds => exact absurd rfl (hne clusterId nodeIds)
      | _ => rfl
  | failed k call hk => exact h.set hk rfl trivial

/-- The number of creations in the log. -/
def creations (s : CreateSystem) : ℕ := s.log.countP (·.command.isCreate)

theorem assigned_eq (s : CreateSystem) (i : ℕ) :
    s.assigned i = (1 + (s.log.take i).countP (·.command.isCreate)) % U32.size := by
  unfold assigned
  rw [ManagementStateMachine.nextClusterId_replay, List.countP_map]
  rfl

theorem Proposed.isCreate {s : CreateSystem} {k i : ℕ} (h : s.Proposed k i) :
    ∃ entry, s.log[i]? = some entry ∧ entry.call = some k ∧ entry.command.isCreate = true := by
  obtain ⟨ids, -, hi⟩ := h
  exact ⟨_, hi, rfl, rfl⟩

/-- An entry that creates a sub-cluster takes a number of its own. -/
theorem assigned_ne {s : CreateSystem} (hlt : s.creations < U32.size) {k i j : ℕ}
    (hi : s.Proposed k i) (hij : i < j) : s.assigned i ≠ s.assigned j := by
  obtain ⟨entry, hentry, -, hcreate⟩ := hi.isCreate
  obtain ⟨hlen, hget⟩ := List.getElem?_eq_some_iff.mp hentry
  have hsucc : (s.log.take (i + 1)).countP (·.command.isCreate) =
      (s.log.take i).countP (·.command.isCreate) + 1 := by
    rw [List.take_succ_eq_append_getElem hlen, List.countP_append, hget]
    simp [hcreate]
  have hle : (s.log.take (i + 1)).countP (·.command.isCreate) ≤
      (s.log.take j).countP (·.command.isCreate) :=
    (List.take_sublist_take_left hij).countP_le
  have htotal : (s.log.take j).countP (·.command.isCreate) ≤ s.creations :=
    (List.take_sublist j s.log).countP_le
  rw [assigned_eq, assigned_eq]
  intro heq
  have hmod := (Nat.modEq_iff_dvd' (by omega)).mp heq
  have := Nat.le_of_dvd (by omega) hmod
  omega

theorem Inv.returnsOwn {s : CreateSystem} (h : s.Inv) (hlt : s.creations < U32.size) :
    s.ReturnsOwn := by
  have hown : ∀ k clusterId, s.Returned k clusterId →
      ∃ i, s.Proposed k i ∧ clusterId = s.assigned i := by
    rintro k clusterId ⟨call, hk, hphase⟩
    have hok := h.calls k call hk
    simpa only [CallOk, hphase] using hok
  refine ⟨hown, fun k k' clusterId hk hk' => ?_⟩
  obtain ⟨i, hi, rfl⟩ := hown k clusterId hk
  obtain ⟨j, hj, heq⟩ := hown k' _ hk'
  rcases lt_trichotomy i j with hij | rfl | hij
  · exact absurd heq (assigned_ne hlt hi hij)
  · obtain ⟨entry, hentry, hcall, -⟩ := hi.isCreate
    obtain ⟨entry', hentry', hcall', -⟩ := hj.isCreate
    rw [hentry, Option.some.injEq] at hentry'
    rw [← hentry', hcall, Option.some.injEq] at hcall'
    exact hcall'
  · exact absurd heq.symm (assigned_ne hlt hj hij)

end CreateSystem

namespace CreateAction

/-- Whether an action commits a creation. -/
def isCreate : CreateAction → Bool
  | .commitCall _ => true
  | .commitOther command => command.isCreate
  | _ => false

end CreateAction

namespace CreateSystem

theorem Stepped.creations_le {s s' : CreateSystem} {a : CreateAction} (h : s.Stepped a s') :
    s'.creations ≤ s.creations + if a.isCreate then 1 else 0 := by
  have hcommit : ∀ entry, (s.commit entry).creations =
      s.creations + if entry.command.isCreate then 1 else 0 := by
    intro entry
    simp [creations, commit, List.countP_append, List.countP_cons]
  cases h with
  | committedCall k call hk hnew => exact (hcommit _).le
  | committedOther command => exact (hcommit _).le
  | _ => exact Nat.le_add_right _ _

/-- In a run in which no creation is applied where another call still waits, every call returns
the ID of its own sub-cluster. -/
theorem returnsOwn_of_undisturbed {actions : List CreateAction} {s : CreateSystem}
    (hundisturbed : Transition.Along step (fun s a => s.disturbs a = false) {} actions)
    (hcreations : actions.countP CreateAction.isCreate < U32.size)
    (hrun : Transition.run step {} actions = some s) : s.ReturnsOwn := by
  have hbudget : Transition.Along step
      (fun s a => s.creations + (if a.isCreate then 1 else 0) < U32.size) {} actions := by
    refine Transition.along_budget (K := fun _ => True) (f := creations) ?_
      (fun _ _ => trivial) ?_
    · intro s a s' _ hstep _
      exact (stepped hstep).creations_le
    · show 0 + actions.countP CreateAction.isCreate < U32.size
      rwa [Nat.zero_add]
  have hinv : s.Inv ∧ s.creations < U32.size := by
    refine Transition.run_induction (I := fun s => Inv s ∧ s.creations < U32.size) ?_
      ⟨inv_start, by decide⟩ (hundisturbed.and hbudget) hrun
    rintro s a s' ⟨h, -⟩ ⟨hundisturbed, hbudget⟩ hstep
    exact ⟨h.step hundisturbed (stepped hstep), (stepped hstep).creations_le.trans_lt hbudget⟩
  exact hinv.1.returnsOwn hinv.2

/-- Two calls on node 1 and one on node 2, one after the other, with a creation of the planner
that is applied after the first call's own. -/
def sequentialCalls : List CreateAction :=
  [.subscribe 1 [1], .commitCall 0, .commitOther (.createSubCluster [2]), .apply 1, .apply 1,
    .recv 0, .subscribe 1 [1, 2], .commitCall 1, .apply 1, .recv 1, .apply 2, .apply 2, .apply 2,
    .subscribe 2 [2], .commitCall 2, .apply 2, .recv 2]

theorem returnsOwn_sequentialCalls : ∃ s, Transition.run step {} sequentialCalls = some s ∧
    s.ReturnsOwn ∧ s.Returned 0 1 ∧ s.Returned 1 3 ∧ s.Returned 2 4 := by
  refine ⟨_, rfl, @returnsOwn_of_undisturbed sequentialCalls _ ?_ ?_ rfl, ?_⟩
  · decide
  · decide
  · exact ⟨⟨_, rfl, rfl⟩, ⟨_, rfl, rfl⟩, ⟨_, rfl, rfl⟩⟩

/-- Two calls on one node that both subscribe before either command is applied. -/
def overlappingCalls : List CreateAction :=
  [.subscribe 1 [1], .subscribe 1 [2], .commitCall 0, .commitCall 1, .apply 1, .apply 1,
    .recv 0, .recv 1]

/-- Both return the ID of the first. -/
theorem not_returnsOwn_overlappingCalls :
    ∃ s, Transition.run step {} overlappingCalls = some s ∧ s.Returned 0 1 ∧ s.Returned 1 1 ∧
      ¬ s.ReturnsOwn := by
  refine ⟨_, rfl, ⟨_, rfl, rfl⟩, ⟨_, rfl, rfl⟩, ?_⟩
  intro h
  exact absurd (h.2 0 1 1 ⟨_, rfl, rfl⟩ ⟨_, rfl, rfl⟩) (by decide)

end CreateSystem

end Raftoral

import Raftoral.Workflow.Cluster
import Raftoral.Workflow.Isolation

/-!
# The checkpoints of an owner

The node that owns a workflow, on its own: it runs the program, its proposals are applied, and so
are the commands of others. `propose_and_wait` may fail at any time; it returns `Ok` only once the
command was applied, exactly once.

The owner pushes a value by its proposal and pops it again, with the lock released in between. A
value left in a queue would be the answer of a later call, so the invariant is that the queues
hold nothing but the command under way.
-/

namespace Raftoral

open WorkflowStateMachine Transition

variable {T : Type}

/-- The owner, and its proposal until `propose_and_wait` returns `Ok`, with how often it was
applied. -/
structure OwnerNode (T : Type) where
  node : WorkflowNode T
  nextSyncId : ℕ := 1
  pending : Option (Proposal × ℕ) := none

inductive OwnerAction where
  | call (c : CallStep)
  | applyOwn
  | applyOther (command : WorkflowCommand)
  | popOther (workflowId key : String)
  | publish
  | restore (snapshot : WorkflowSnapshot)

namespace OwnerNode

/-- The node has the program to run. -/
def start (program : List (String × T)) : OwnerNode T :=
  { node := { exec := some { calls := program } } }

/-- The proposal with this id was applied exactly once. -/
def appliedOnce (s : OwnerNode T) (id : ℕ) : Bool :=
  s.pending.any fun proposal => proposal.1.1 == id && proposal.2 == 1

/-- The node goes on, the proposals stay. -/
def withNode (s : OwnerNode T) (n : WorkflowNode T) : OwnerNode T := { s with node := n }

/-- One step on the node with this id. Whatever touches the state machine waits for its lock. -/
def step [SerdeJson T] (workflowId : String) (nodeId : ℕ) (s : OwnerNode T) :
    OwnerAction → Option (OwnerNode T)
  | .call c =>
    match s.node.callStep workflowId nodeId s.nextSyncId s.appliedOnce c with
    | none => none
    | some (n, none) =>
      some { s with node := n, pending := if c = .proposalDone then none else s.pending }
    | some (n, some command) =>
      some { node := n, nextSyncId := s.nextSyncId + 1, pending := some ((s.nextSyncId, command), 0) }
  | .applyOwn =>
    if s.node.locked then none
    else match s.pending with
      | none => none
      | some (proposal, times) =>
        some { s with
          node := s.node.applyCommand proposal.2
          pending := some (proposal, times + 1) }
  | .applyOther command =>
    if s.node.locked then none else some (s.withNode (s.node.applyCommand command))
  | .popOther otherId key =>
    if s.node.locked then none
    else some (s.withNode { s.node with sm := (s.node.sm.popQueuedCheckpoint otherId key).2 })
  | .publish =>
    match s.node.unpublished with
    | [] => none
    | event :: rest =>
      some (s.withNode
        { s.node with unpublished := rest, exec := s.node.exec.map (·.deliver event) })
  | .restore snapshot =>
    if s.node.locked then none else some (s.withNode { s.node with sm := ofSnapshot snapshot })

end OwnerNode

/-- A pair of an id and a key that has the composite key of one of the calls. -/
def Collides (workflowId : String) (keys : List String) (otherId otherKey : String) : Prop :=
  ∃ key ∈ keys, makeQueueKey otherId otherKey = makeQueueKey workflowId key

/-- A command of others changes no ownership of the workflow and shares no composite key with it.
The end of a workflow is about all of its keys. -/
def WorkflowCommand.Elsewhere (workflowId : String) (nodeId : ℕ) (keys : List String) :
    WorkflowCommand → Prop
  | .workflowStart otherId _ _ _ ownerNodeId => otherId = workflowId → ownerNodeId = nodeId
  | .workflowEnd otherId _ => ∀ otherKey, ¬ Collides workflowId keys otherId otherKey
  | .setCheckpoint otherId otherKey _ => ¬ Collides workflowId keys otherId otherKey
  | .ownerChange otherId _ _ _ => otherId ≠ workflowId

/-- What others do leaves the workflow alone, and no snapshot is restored. -/
def OwnerAction.Elsewhere (workflowId : String) (nodeId : ℕ) (keys : List String) :
    OwnerAction → Prop
  | .applyOther command => command.Elsewhere workflowId nodeId keys
  | .popOther otherId otherKey => ¬ Collides workflowId keys otherId otherKey
  | .restore _ => False
  | .call _ | .applyOwn | .publish => True

/-! ## What the steps of others leave -/

section
variable {workflowId : String} {nodeId : ℕ} {keys : List String}

theorem WorkflowCommand.Elsewhere.op {command : WorkflowCommand}
    (h : command.Elsewhere workflowId nodeId keys) {key : String} (hkey : key ∈ keys) :
    (ReplicaStep.apply command).op (makeQueueKey workflowId key) = none := by
  cases command with
  | workflowStart => rfl
  | workflowEnd otherId result =>
    refine if_neg fun hbelongs => ?_
    obtain ⟨otherKey, heq⟩ := exists_key_of_belongsTo hbelongs
    exact h otherKey ⟨key, hkey, heq.symm⟩
  | setCheckpoint otherId otherKey value => exact if_neg fun heq => h ⟨key, hkey, heq⟩
  | ownerChange => rfl

theorem op_pop_of_not_collides {otherId otherKey : String}
    (h : ¬ Collides workflowId keys otherId otherKey) {key : String} (hkey : key ∈ keys) :
    (ReplicaStep.pop otherId otherKey).op (makeQueueKey workflowId key) = none :=
  if_neg fun heq => h ⟨key, hkey, heq⟩

/-- A command elsewhere leaves the node the owner. -/
theorem WorkflowCommand.Elsewhere.isWorkflowOwner {command : WorkflowCommand}
    (h : command.Elsewhere workflowId nodeId keys) {sm : WorkflowStateMachine}
    (howner : isWorkflowOwner sm workflowId nodeId) :
    isWorkflowOwner (sm.apply command).2 workflowId nodeId := by
  unfold Raftoral.isWorkflowOwner getOwner at howner ⊢
  cases command with
  | workflowStart otherId workflowType version input ownerNodeId =>
    simp only [apply, Std.ExtTreeMap.getElem?_insert]
    by_cases heq : otherId = workflowId
    · simp [heq, h heq]
    · simpa [heq] using howner
  | workflowEnd => exact howner
  | setCheckpoint => exact howner
  | ownerChange otherId old new reason =>
    have hne : otherId ≠ workflowId := h
    simpa [apply, Std.ExtTreeMap.getElem?_insert, hne] using howner

theorem isWorkflowOwner_popQueuedCheckpoint {sm : WorkflowStateMachine} (otherId key : String)
    (h : isWorkflowOwner sm workflowId nodeId) :
    isWorkflowOwner (sm.popQueuedCheckpoint otherId key).2 workflowId nodeId := by
  unfold isWorkflowOwner at h ⊢
  rw [getOwner_popQueuedCheckpoint]
  exact h

end

namespace WorkflowStateMachine

theorem queue_run_of_op {workflowId key : String} {a : ReplicaStep}
    (h : a.op (makeQueueKey workflowId key) = none) (sm : WorkflowStateMachine) :
    (a.run sm).queue workflowId key = sm.queue workflowId key ∧
      (a.run sm).history workflowId key = sm.history workflowId key := by
  obtain ⟨hqueue, hhistory⟩ := getElem?_run_of_op h sm
  unfold queue history
  rw [hqueue, hhistory]
  exact ⟨rfl, rfl⟩

theorem history_setCheckpoint (sm : WorkflowStateMachine) (workflowId key key' : String)
    (value : Bytes) :
    (sm.apply (.setCheckpoint workflowId key value)).2.history workflowId key' =
      sm.history workflowId key' ++ if key' = key then [value] else [] :=
  queue_pushBack { checkpointQueues := sm.checkpointHistory } workflowId key key' value

theorem history_popQueuedCheckpoint (sm : WorkflowStateMachine)
    (workflowId key workflowId' key' : String) :
    (sm.popQueuedCheckpoint workflowId key).2.history workflowId' key' =
      sm.history workflowId' key' := by
  have h := congrArg WorkflowSnapshot.checkpointHistory
    (toSnapshot_popQueuedCheckpoint sm workflowId key)
  exact congrArg (fun m : StringMap (List Bytes) => (m[makeQueueKey workflowId' key']?).getD []) h

end WorkflowStateMachine

/-! ## The invariant -/

section
variable [SerdeJson T]

/-- The call under way has proposed its value under this id, and it was applied this often. -/
def OwnerNode.Proposed (workflowId : String) (s : OwnerNode T) (e : Execution T) (id times : ℕ) :
    Prop :=
  ∃ call ∈ e.calls.head?,
    s.pending = some ((id, .setCheckpoint workflowId call.1 (SerdeJson.toVec call.2)), times)

/-- Where the call under way stands when its value was applied `times` times and not popped. -/
def OwnerNode.Stands (workflowId : String) (s : OwnerNode T) (e : Execution T) (times : ℕ) :
    Prop :=
  match e.error with
  | some _ => s.pending = none ∧ times = 0 ∨ ∃ id, s.Proposed workflowId e id times
  | none =>
    match e.phase with
    | .dequeuing | .subscribing _ | .checking _ | .proposing => s.pending = none ∧ times = 0
    | .awaiting id => s.Proposed workflowId e id times
    | .popping => s.pending = none ∧ times = 1
    | .waiting _ | .rechecking _ => False

/-- What the call under way has put into the queue of a key. -/
def Execution.outstanding (e : Execution T) (times : ℕ) (key : String) : List Bytes :=
  (e.calls.head?.filter fun call => call.1 = key).elim []
    fun call => List.replicate times (SerdeJson.toVec call.2)

/-- The completed calls have returned their values and recorded them, and the queues hold nothing
but the value of the call under way. -/
structure OwnerInv (workflowId : String) (nodeId : ℕ) (program : List (String × T))
    (s : OwnerNode T) (e : Execution T) (times : ℕ) : Prop where
  exec : s.node.exec = some e
  calls : e.returned ++ e.calls = program
  owner : isWorkflowOwner s.node.sm workflowId nodeId
  queued : ∀ key ∈ program.map Prod.fst, s.node.sm.queue workflowId key = e.outstanding times key
  recorded : ∀ key ∈ program.map Prod.fst, s.node.sm.history workflowId key =
    (e.values key).map SerdeJson.toVec ++ e.outstanding times key
  stands : s.Stands workflowId e times

/-- Something is pending only while a call waits for it, or after the call has failed. -/
theorem OwnerNode.Stands.of_pending {workflowId : String} {s : OwnerNode T} {e : Execution T}
    {times : ℕ} (h : s.Stands workflowId e times) {proposal : Proposal × ℕ}
    (hpending : s.pending = some proposal) :
    ∃ id, s.Proposed workflowId e id times ∧ ∀ (s' : OwnerNode T) times',
      s'.Proposed workflowId e id times' → s'.Stands workflowId e times' := by
  have hnot : ¬ (s.pending = none ∧ times = 0) := by simp [hpending]
  unfold OwnerNode.Stands at h ⊢
  cases herror : e.error with
  | some error =>
    rw [herror] at h
    obtain ⟨id, hproposed⟩ := h.resolve_left hnot
    exact ⟨id, hproposed, fun s' times' hproposed' => Or.inr ⟨id, hproposed'⟩⟩
  | none =>
    rw [herror] at h
    cases hphase : e.phase with
    | awaiting id =>
      rw [hphase] at h
      exact ⟨id, h, fun s' times' hproposed' => hproposed'⟩
    | _ => simp [hphase, hpending] at h

theorem Execution.outstanding_zero (e : Execution T) (key : String) : e.outstanding 0 key = [] := by
  unfold outstanding
  cases e.calls.head?.filter fun call => call.1 = key <;> rfl

theorem Execution.outstanding_succ {e : Execution T} {key : String} {value : T}
    {rest : List (String × T)} (h : e.calls = (key, value) :: rest) (times : ℕ) (key' : String) :
    e.outstanding (times + 1) key' =
      e.outstanding times key' ++ if key' = key then [SerdeJson.toVec value] else [] := by
  unfold outstanding
  rw [h, List.head?_cons]
  by_cases hk : key' = key
  · simp [hk, Option.filter, List.replicate_succ']
  · simp [hk, Ne.symm hk, Option.filter]

namespace OwnerInv

variable {workflowId : String} {nodeId : ℕ} {program : List (String × T)} {s s' : OwnerNode T}
  {e e' : Execution T} {times times' : ℕ}

theorem start : OwnerInv workflowId nodeId program (OwnerNode.start program) { calls := program }
    0 := by
  refine ⟨rfl, rfl, rfl, fun key _ => ?_, fun key _ => ?_, rfl, rfl⟩
  · rw [Execution.outstanding_zero]
    rfl
  · rw [Execution.outstanding_zero]
    rfl

/-- The execution moves on, and nothing is applied or popped. -/
theorem move (h : OwnerInv workflowId nodeId program s e times) (hexec : s'.node.exec = some e')
    (hsm : s'.node.sm = s.node.sm) (hreturned : e'.returned = e.returned)
    (hcalls : e'.calls = e.calls) (hstands : s'.Stands workflowId e' times) :
    OwnerInv workflowId nodeId program s' e' times := by
  have hvalues : ∀ key, e'.values key = e.values key := by
    intro key
    unfold Execution.values
    rw [hreturned]
  have houtstanding : ∀ key, e'.outstanding times key = e.outstanding times key := by
    intro key
    unfold Execution.outstanding
    rw [hcalls]
  refine ⟨hexec, ?_, hsm ▸ h.owner, fun key hkey => ?_, fun key hkey => ?_, hstands⟩
  · rw [hreturned, hcalls, h.calls]
  · rw [hsm, houtstanding, h.queued key hkey]
  · rw [hsm, hvalues, houtstanding, h.recorded key hkey]

/-- A step of others that is no operation on the keys of the program. -/
theorem elsewhere (h : OwnerInv workflowId nodeId program s e times) {a : ReplicaStep}
    (hexec : s'.node.exec = s.node.exec) (hsm : s'.node.sm = a.run s.node.sm)
    (hpending : s'.pending = s.pending)
    (hop : ∀ key ∈ program.map Prod.fst, a.op (makeQueueKey workflowId key) = none)
    (howner : isWorkflowOwner (a.run s.node.sm) workflowId nodeId) :
    OwnerInv workflowId nodeId program s' e times := by
  have hstands := h.stands
  refine ⟨hexec.trans h.exec, h.calls, hsm ▸ howner, fun key hkey => ?_, fun key hkey => ?_, ?_⟩
  · rw [hsm, (queue_run_of_op (hop key hkey) _).1, h.queued key hkey]
  · rw [hsm, (queue_run_of_op (hop key hkey) _).2, h.recorded key hkey]
  · unfold OwnerNode.Stands OwnerNode.Proposed at hstands ⊢
    rw [hpending]
    exact hstands

/-- A value that was proposed and not yet acknowledged is applied once more. -/
theorem applyOwn (h : OwnerInv workflowId nodeId program s e times) {proposal : Proposal}
    (hpending : s.pending = some (proposal, times'))
    (hnode : s'.node = s.node.applyCommand proposal.2)
    (hpending' : s'.pending = some (proposal, times' + 1)) :
    OwnerInv workflowId nodeId program s' e (times + 1) := by
  obtain ⟨id, ⟨⟨key, value⟩, hcall, hproposed⟩, hagain⟩ := h.stands.of_pending hpending
  rw [hpending, Option.some.injEq, Prod.mk.injEq] at hproposed
  obtain ⟨rfl, rfl⟩ := hproposed
  obtain ⟨rest, hcalls⟩ := List.head?_eq_some_iff.mp hcall
  have hsm : s'.node.sm =
      (s.node.sm.apply (.setCheckpoint workflowId key (SerdeJson.toVec value))).2 := by
    rw [hnode]
    rfl
  refine ⟨?_, h.calls, ?_, fun key' hkey' => ?_, fun key' hkey' => ?_, ?_⟩
  · rw [hnode]
    exact h.exec
  · rw [hsm]
    exact h.owner
  · rw [hsm, queue_setCheckpoint, h.queued key' hkey', Execution.outstanding_succ hcalls]
  · rw [hsm, history_setCheckpoint, h.recorded key' hkey', Execution.outstanding_succ hcalls,
      List.append_assoc]
  · exact hagain s' (times' + 1) ⟨(key, value), hcall, hpending'⟩

/-- The owner pops its value and returns it. -/
theorem popProposed (h : OwnerInv workflowId nodeId program s e 1) (herror : e.error = none)
    {key : String} {value : T} {rest : List (String × T)} (hcalls : e.calls = (key, value) :: rest)
    (hnode : s'.node = s.node.popProposed workflowId key e value) (hpending : s'.pending = none) :
    OwnerInv workflowId nodeId program s' (e.complete value) 0 := by
  have heq := Execution.complete_of_calls hcalls value
  have hsm : s'.node.sm = (s.node.sm.popQueuedCheckpoint workflowId key).2 := by
    rw [hnode]
    rfl
  have hone : ∀ key', e.outstanding 1 key' =
      if key' = key then [SerdeJson.toVec value] else [] := by
    intro key'
    rw [Execution.outstanding_succ hcalls, Execution.outstanding_zero, List.nil_append]
  refine ⟨?_, ?_, ?_, fun key' hkey' => ?_, fun key' hkey' => ?_, ?_⟩
  · rw [hnode]
    rfl
  · rw [heq, ← h.calls, hcalls]
    exact List.append_assoc _ [(key, value)] rest
  · rw [hsm]
    exact isWorkflowOwner_popQueuedCheckpoint workflowId key h.owner
  · rw [hsm, queue_popQueuedCheckpoint, h.queued key' hkey', hone, Execution.outstanding_zero]
    by_cases hk : key' = key
    · simp [hk]
    · simp [hk]
  · rw [hsm, history_popQueuedCheckpoint, h.recorded key' hkey', hone, Execution.outstanding_zero,
      Execution.values_complete hcalls, List.map_append, List.append_nil]
    by_cases hk : key' = key
    · simp [hk]
    · simp [hk]
  · unfold OwnerNode.Stands
    rw [heq, herror]
    exact ⟨hpending, rfl⟩

/-- An empty queue lets the call go on. -/
theorem dequeue (h : OwnerInv workflowId nodeId program s e 0) (herror : e.error = none)
    {key : String} (hkey : key ∈ program.map Prod.fst)
    (hnode : s'.node = s.node.tryDequeueCheckpoint workflowId key e)
    (hpending' : s'.pending = none) :
    OwnerInv workflowId nodeId program s' { e with phase := .subscribing 0 } 0 := by
  have hempty : ∀ key' ∈ program.map Prod.fst, s.node.sm.queue workflowId key' = [] := by
    intro key' hkey'
    rw [h.queued key' hkey', Execution.outstanding_zero]
  obtain ⟨e', heq, hcase⟩ := s.node.tryDequeueCheckpoint_cases workflowId key e
  rcases hcase with ⟨-, rfl⟩ | ⟨bytes, hhead, -⟩
  · have hsm : s'.node.sm = (s.node.sm.popQueuedCheckpoint workflowId key).2 := by
      rw [hnode, heq]
    refine ⟨?_, h.calls, ?_, fun key' hkey' => ?_, fun key' hkey' => ?_, ?_⟩
    · rw [hnode, heq]
    · rw [hsm]
      exact isWorkflowOwner_popQueuedCheckpoint workflowId key h.owner
    · rw [hsm, queue_popQueuedCheckpoint, hempty key' hkey', Execution.outstanding_zero]
      exact ite_self []
    · rw [hsm, history_popQueuedCheckpoint]
      exact h.recorded key' hkey'
    · unfold OwnerNode.Stands
      rw [herror]
      exact ⟨hpending', rfl⟩
  · rw [hempty key hkey] at hhead
    exact absurd hhead (by simp)

/-- A step of the owner's own call. -/
theorem call (h : OwnerInv workflowId nodeId program s e times) {c : CallStep}
    (hstep : s.step workflowId nodeId (.call c) = some s') :
    ∃ e' times', OwnerInv workflowId nodeId program s' e' times' := by
  rw [OwnerNode.step] at hstep
  cases hcall : s.node.callStep workflowId nodeId s.nextSyncId s.appliedOnce c with
  | none =>
    rw [hcall] at hstep
    exact absurd hstep (by simp)
  | some result =>
    obtain ⟨n, proposed⟩ := result
    obtain ⟨e₀, key, value, rest, hexec, herror, hcalls, hrun⟩ := WorkflowNode.callStep_run hcall
    obtain rfl : e₀ = e := Option.some.inj (hexec.symm.trans h.exec)
    have hkey : key ∈ program.map Prod.fst := by
      rw [← h.calls, hcalls]
      simp
    have hstands := h.stands
    rw [OwnerNode.Stands, herror] at hstands
    dsimp only at hstands
    rw [hcall] at hstep
    cases hrun with
    | dequeue hphase hfree =>
      rw [hphase] at hstands
      obtain ⟨hpending, rfl⟩ := hstands
      obtain rfl := Option.some.inj hstep
      exact ⟨_, 0, h.dequeue herror hkey rfl hpending⟩
    | subscribe attempt hphase =>
      rw [hphase] at hstands
      obtain rfl := Option.some.inj hstep
      refine ⟨_, times, h.move rfl rfl rfl rfl ?_⟩
      rw [OwnerNode.Stands, herror]
      exact hstands
    | owns attempt hphase hfree howner =>
      rw [hphase] at hstands
      obtain rfl := Option.some.inj hstep
      refine ⟨_, times, h.move rfl rfl rfl rfl ?_⟩
      rw [OwnerNode.Stands, herror]
      exact hstands
    | waits attempt hphase hfree howner => exact absurd h.owner howner
    | propose hphase =>
      rw [hphase] at hstands
      obtain ⟨-, rfl⟩ := hstands
      obtain rfl := Option.some.inj hstep
      refine ⟨_, 0, h.move rfl rfl rfl rfl ?_⟩
      rw [OwnerNode.Stands, herror]
      exact ⟨(key, value), by rw [hcalls]; rfl, rfl⟩
    | proposalDone id hphase hdone =>
      rw [hphase] at hstands
      obtain ⟨call, -, hproposed⟩ := hstands
      rw [OwnerNode.appliedOnce, hproposed] at hdone
      obtain rfl : times = 1 := by simpa using hdone
      obtain rfl := Option.some.inj hstep
      refine ⟨_, 1, h.move rfl rfl rfl rfl ?_⟩
      rw [OwnerNode.Stands, herror]
      exact ⟨rfl, rfl⟩
    | proposalFailed reason hphase =>
      obtain rfl := Option.some.inj hstep
      refine ⟨_, times, h.move rfl rfl rfl rfl ?_⟩
      -- a proposal that has failed may still be applied
      rcases hphase with hphase | ⟨id, hphase⟩
      · rw [hphase] at hstands
        exact Or.inl hstands
      · rw [hphase] at hstands
        exact Or.inr ⟨id, hstands⟩
    | pop hphase hfree =>
      rw [hphase] at hstands
      obtain ⟨hpending, rfl⟩ := hstands
      obtain rfl := Option.some.inj hstep
      exact ⟨_, 0, h.popProposed herror hcalls rfl hpending⟩
    | receive attempt event rest hphase hgot =>
      rw [hphase] at hstands
      exact hstands.elim
    | lag attempt event rest hphase hgot =>
      rw [hphase] at hstands
      exact hstands.elim
    | timeout attempt hphase hearly =>
      rw [hphase] at hstands
      exact hstands.elim
    | recheck attempt hphase hfree =>
      rw [hphase] at hstands
      exact hstands.elim

theorem step (h : OwnerInv workflowId nodeId program s e times) {a : OwnerAction}
    (ha : a.Elsewhere workflowId nodeId (program.map Prod.fst))
    (hstep : s.step workflowId nodeId a = some s') :
    ∃ e' times', OwnerInv workflowId nodeId program s' e' times' := by
  cases a with
  | call c => exact h.call hstep
  | applyOwn =>
    rw [OwnerNode.step, Option.ite_none_left_eq_some] at hstep
    obtain ⟨-, hstep⟩ := hstep
    split at hstep
    · exact absurd hstep (by simp)
    · next proposal times' hpending =>
      obtain rfl := Option.some.inj hstep
      exact ⟨e, times + 1, h.applyOwn hpending rfl rfl⟩
  | applyOther command =>
    rw [OwnerNode.step, Option.ite_none_left_eq_some] at hstep
    obtain ⟨-, hstep⟩ := hstep
    obtain rfl := Option.some.inj hstep
    have hcommand : command.Elsewhere workflowId nodeId (program.map Prod.fst) := ha
    exact ⟨e, times, h.elsewhere (a := .apply command) rfl rfl rfl
      (fun key hkey => hcommand.op hkey) (hcommand.isWorkflowOwner h.owner)⟩
  | popOther otherId key =>
    rw [OwnerNode.step, Option.ite_none_left_eq_some] at hstep
    obtain ⟨-, hstep⟩ := hstep
    obtain rfl := Option.some.inj hstep
    exact ⟨e, times, h.elsewhere (a := .pop otherId key) rfl rfl rfl
      (fun key' hkey' => op_pop_of_not_collides ha hkey')
      (isWorkflowOwner_popQueuedCheckpoint otherId key h.owner)⟩
  | publish =>
    rw [OwnerNode.step] at hstep
    split at hstep
    · exact absurd hstep (by simp)
    · next event rest hunpublished =>
      obtain rfl := Option.some.inj hstep
      refine ⟨e.deliver event, times, h.move ?_ rfl rfl rfl h.stands⟩
      show s.node.exec.map _ = _
      rw [h.exec]
      rfl
  | restore snapshot => exact ha.elim

end OwnerInv

/-- Where nothing but the owner's own program touches the workflow, every completed call has
returned the value it was given. Between two calls the queue of every key is empty and its history
is the list of the values passed for it, in the order of the calls; during a call, or after it has
failed, the history and the queue hold the value of that call besides, as often as it was
applied. -/
theorem owner_records_what_it_computes {workflowId : String} {nodeId : ℕ}
    {program : List (String × T)} {actions : List OwnerAction} {s : OwnerNode T}
    (helsewhere : ∀ a ∈ actions, a.Elsewhere workflowId nodeId (program.map Prod.fst))
    (hrun : run (OwnerNode.step workflowId nodeId) (OwnerNode.start program) actions = some s) :
    ∃ e, s.node.exec = some e ∧ e.returned ++ e.calls = program ∧
      (e.error = none → e.phase = .dequeuing → ∀ key ∈ program.map Prod.fst,
        s.node.sm.queue workflowId key = [] ∧
          s.node.sm.history workflowId key = (e.values key).map SerdeJson.toVec) ∧
      ∃ times, ∀ key ∈ program.map Prod.fst,
        s.node.sm.queue workflowId key = e.outstanding times key ∧
          s.node.sm.history workflowId key =
            (e.values key).map SerdeJson.toVec ++ e.outstanding times key := by
  obtain ⟨e, times, h⟩ : ∃ e times, OwnerInv workflowId nodeId program s e times := by
    refine run_induction (I := fun s => ∃ e times, OwnerInv workflowId nodeId program s e times)
      (C := fun _ a => a.Elsewhere workflowId nodeId (program.map Prod.fst)) ?_
      ⟨_, _, OwnerInv.start⟩ (along_of_forall helsewhere) hrun
    rintro s a s' ⟨e, times, h⟩ ha hstep
    exact h.step ha hstep
  refine ⟨e, h.exec, h.calls, fun herror hphase key hkey => ?_, times, fun key hkey => ?_⟩
  · -- nothing is outstanding before the next proposal
    have hstands := h.stands
    rw [OwnerNode.Stands, herror] at hstands
    dsimp only at hstands
    rw [hphase] at hstands
    obtain ⟨-, rfl⟩ := hstands
    rw [h.queued key hkey, h.recorded key hkey, Execution.outstanding_zero, List.append_nil]
    exact ⟨rfl, rfl⟩
  · exact ⟨h.queued key hkey, h.recorded key hkey⟩

end

section
open Codec

/-- Two values for one key. Another workflow sets a checkpoint before the owner pops the first. -/
def twoCheckpoints : List OwnerAction :=
  [.call .dequeue, .call .subscribe, .call .checkOwner, .call .propose, .applyOwn, .publish,
   .applyOther (.setCheckpoint "v" "k" [0]), .publish, .call .proposalDone, .call .pop,
   .call .dequeue, .call .subscribe, .call .checkOwner, .call .propose, .applyOwn, .publish,
   .call .proposalDone, .call .pop]

theorem owner_records_two_values :
    ∃ s e, run (OwnerNode.step "w" 1) (OwnerNode.start [("k", "a"), ("k", "b")]) twoCheckpoints =
        some s ∧ s.node.exec = some e ∧ e.returned = [("k", "a"), ("k", "b")] ∧
      s.node.sm.queue "w" "k" = [] ∧
      s.node.sm.history "w" "k" = ["a", "b"].map SerdeJson.toVec := by
  have hexec : (run (OwnerNode.step "w" 1) (OwnerNode.start [("k", "a"), ("k", "b")])
      twoCheckpoints).map (fun s => s.node.exec) =
        some (some { returned := [("k", "a"), ("k", "b")], calls := [] }) := by decide
  have helsewhere : ∀ a ∈ twoCheckpoints, a.Elsewhere "w" 1 ["k", "k"] := by
    have hapart : makeQueueKey "v" "k" ≠ makeQueueKey "w" "k" := by decide
    simp [twoCheckpoints, OwnerAction.Elsewhere, WorkflowCommand.Elsewhere, Collides, hapart]
  obtain ⟨s, hrun, hs⟩ := Option.map_eq_some_iff.mp hexec
  obtain ⟨e, he, -, hbetween, -⟩ := owner_records_what_it_computes helsewhere hrun
  obtain rfl := Option.some.inj (he.symm.trans hs)
  obtain ⟨hqueue, hhistory⟩ := hbetween rfl rfl "k" (by decide)
  exact ⟨s, _, hrun, hs, rfl, hqueue, hhistory⟩

end

end Raftoral

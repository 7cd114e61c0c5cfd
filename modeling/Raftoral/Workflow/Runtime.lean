import Raftoral.Workflow.StateMachine

/-!
# `WorkflowRuntime::set_checkpoint`

The model of `set_checkpoint` and `execute_owner_or_wait` of `workflow/runtime.rs` on one node.
A call is a state machine: between any two of its steps the node may apply commands, publish
events, or let other tasks run. The steps are those at which the call touches something shared:
the state machine, the event bus, or the proposals.

The state machine is locked while a command is applied and its events are published, so a step
that reads or pops it has to wait until all events are out.
-/

namespace Raftoral

inductive WorkflowError where
  | alreadyExists (workflowId : String)
  | notFound (workflowId : String)
  | notLeader
  | clusterError (reason : String)
  | timeout
  | serializationError (reason : String)
  | deserializationError (reason : String)
deriving DecidableEq, Repr

/-- Where a call of `set_checkpoint` stands. The attempts of the retry loop count from zero. -/
inductive Phase where
  | dequeuing
  | subscribing (attempt : ℕ)
  | checking (attempt : ℕ)
  | proposing
  | awaiting (syncId : ℕ)
  | popping
  | waiting (attempt : ℕ)
  | rechecking (attempt : ℕ)
deriving DecidableEq, Repr

/-- `max_retries`. -/
def maxRetries : ℕ := 10

/-- A sequential execution of a list of `set_checkpoint` calls: what the completed calls have
returned, and the calls to go, of which the first is under way. It ends with the first error. -/
structure Execution (T : Type) where
  returned : List (String × T) := []
  calls : List (String × T)
  phase : Phase := .dequeuing
  /-- The events the subscription of the call has still to hand out. -/
  subscription : Option (List WorkflowEvent) := none
  error : Option WorkflowError := none
deriving DecidableEq, Repr

namespace Execution

variable {T : Type}

/-- The call under way returns a value. -/
def complete (e : Execution T) (v : T) : Execution T :=
  { e with
    returned := e.returned ++ e.calls.head?.toList.map fun call => (call.1, v)
    calls := e.calls.tail
    phase := .dequeuing
    subscription := none }

/-- The call under way returns an error. -/
def fail (e : Execution T) (error : WorkflowError) : Execution T :=
  { e with subscription := none, error := some error }

/-- `continue` in the retry loop; after the last attempt the loop is left. -/
def nextAttempt (e : Execution T) (attempt : ℕ) : Execution T :=
  if attempt + 1 < maxRetries then
    { e with phase := .subscribing (attempt + 1), subscription := none }
  else e.fail .timeout

/-- An event reaches the subscription, if there is one. -/
def deliver (e : Execution T) (event : WorkflowEvent) : Execution T :=
  { e with subscription := e.subscription.map (· ++ [event]) }

end Execution

/-- `is_workflow_owner`. -/
def isWorkflowOwner (sm : WorkflowStateMachine) (workflowId : String) (nodeId : ℕ) : Bool :=
  match sm.getOwner workflowId with
  | some owner => owner == nodeId
  -- no owner is registered
  | none => true

section
variable {T : Type} [SerdeJson T]

/-- What `set_checkpoint` waits for: the value of a `CheckpointSet` event of its key. -/
def checkpointValue (workflowId key : String) : WorkflowEvent → Option T
  | .checkpointSet eventWorkflowId eventKey eventValue =>
    if eventWorkflowId = workflowId ∧ eventKey = key then
      match SerdeJson.fromSlice eventValue with
      | .ok value => some value
      | .error _ => none
    else none
  | _ => none

/-- Only an event of the call's key has a value for it. -/
theorem checkpointValue_eq_some {workflowId key : String} {event : WorkflowEvent} {value : T}
    (h : checkpointValue workflowId key event = some value) :
    ∃ bytes, event = .checkpointSet workflowId key bytes ∧ SerdeJson.fromSlice bytes = .ok value := by
  cases event with
  | checkpointSet eventWorkflowId eventKey eventValue =>
    unfold checkpointValue at h
    rw [Option.ite_none_right_eq_some] at h
    obtain ⟨⟨rfl, rfl⟩, h⟩ := h
    refine ⟨eventValue, rfl, ?_⟩
    split at h
    · next value' hdecode =>
      rw [Option.some.injEq] at h
      rw [hdecode, h]
    · exact absurd h (by simp)
  | _ => exact absurd h (by simp [checkpointValue])

/-- The extractor of `wait_for_event_or_ownership_change`: events of other workflows are
skipped, and a change of ownership is reported without a value. -/
def filteredExtractor (workflowId key : String) (event : WorkflowEvent) : Option (Option T) :=
  if event.workflowId ≠ workflowId then none
  else match event with
    | .ownershipChanged _ _ _ => some none
    | _ => (checkpointValue workflowId key event).map some

namespace Execution

/-- An event is taken from the subscription. -/
def receive (e : Execution T) (workflowId key : String) (attempt : ℕ) (event : WorkflowEvent) :
    Execution T :=
  match filteredExtractor workflowId key event with
  | none => e
  | some none => e.nextAttempt attempt
  | some (some value) => e.complete value

/-- After a timeout the ownership is checked again. -/
def recheck (e : Execution T) (attempt : ℕ) (isOwner : Bool) : Execution T :=
  if isOwner then e.nextAttempt attempt
  else if attempt = maxRetries - 1 then e.fail .timeout
  else e.nextAttempt attempt

end Execution

end

/-- A node as far as its executions see it: the replicated state machine, how many entries of
the log it has applied, and the events of the last one that are still to be published. -/
structure WorkflowNode (T : Type) where
  sm : WorkflowStateMachine := {}
  applied : ℕ := 0
  unpublished : List WorkflowEvent := []
  exec : Option (Execution T) := none

namespace WorkflowNode

variable {T : Type}

/-- The state machine is locked. -/
def locked (n : WorkflowNode T) : Bool := !n.unpublished.isEmpty

/-- The execution moves on. -/
def withExec (n : WorkflowNode T) (e : Execution T) : WorkflowNode T := { n with exec := some e }

section
variable [SerdeJson T]

/-- `try_dequeue_checkpoint` and what `set_checkpoint` does with the answer. -/
def tryDequeueCheckpoint (n : WorkflowNode T) (workflowId key : String) (e : Execution T) :
    WorkflowNode T :=
  let (popped, sm) := n.sm.popQueuedCheckpoint workflowId key
  match popped with
  | none => { n with sm, exec := some { e with phase := .subscribing 0 } }
  | some serializedValue =>
    match SerdeJson.fromSlice serializedValue with
    | .ok value => { n with sm, exec := some (e.complete value) }
    | .error reason =>
      { n with sm, exec := some (e.fail (.serializationError s!"Deserialization error: {reason}")) }

/-- An empty queue sends the call on; otherwise it ends with what the first value decodes to. -/
theorem tryDequeueCheckpoint_cases (n : WorkflowNode T) (workflowId key : String)
    (e : Execution T) :
    ∃ e', n.tryDequeueCheckpoint workflowId key e =
        { n with sm := (n.sm.popQueuedCheckpoint workflowId key).2, exec := some e' } ∧
      (n.sm.queue workflowId key = [] ∧ e' = { e with phase := .subscribing 0 } ∨
        ∃ bytes, (n.sm.queue workflowId key).head? = some bytes ∧
          ((∃ value, SerdeJson.fromSlice bytes = .ok value ∧ e' = e.complete value) ∨
            ∃ error, e' = e.fail error)) := by
  unfold tryDequeueCheckpoint
  have hfst := n.sm.popQueuedCheckpoint_fst workflowId key
  rcases hpop : n.sm.popQueuedCheckpoint workflowId key with ⟨popped, sm⟩
  rw [hpop] at hfst
  dsimp only at hfst ⊢
  rw [← hfst]
  -- what the pop has answered is the head of the queue
  cases popped with
  | none =>
    refine ⟨_, rfl, Or.inl ⟨?_, rfl⟩⟩
    exact List.head?_eq_none_iff.mp hfst.symm
  | some bytes =>
    cases hdecode : (SerdeJson.fromSlice bytes : Except String T) with
    | ok value =>
      exact ⟨e.complete value, by simp only [hdecode],
        Or.inr ⟨bytes, rfl, Or.inl ⟨value, hdecode, rfl⟩⟩⟩
    | error reason =>
      exact ⟨e.fail (.serializationError s!"Deserialization error: {reason}"),
        by simp only [hdecode], Or.inr ⟨bytes, rfl, Or.inr ⟨_, rfl⟩⟩⟩

end

/-- The owner takes the value it has proposed out of the queue and returns it. -/
def popProposed (n : WorkflowNode T) (workflowId key : String) (e : Execution T) (value : T) :
    WorkflowNode T :=
  { n with
    sm := (n.sm.popQueuedCheckpoint workflowId key).2
    exec := some (e.complete value) }

end WorkflowNode

/-- The steps of a call. The event bus keeps a bounded number of events, so a call that waits can
lag behind and lose the oldest one. -/
inductive CallStep where
  | dequeue
  | subscribe
  | checkOwner
  | propose
  | proposalDone
  | proposalFailed (reason : String)
  | pop
  | receive
  | lag
  | timeout
  | recheck
deriving DecidableEq, Repr

namespace WorkflowNode

variable {T : Type} [SerdeJson T]

/-- One step of the call under way, which has a key and a value, and the command it proposes.
`syncId` is the id a new proposal gets, `completed` tells which proposals were completed on this
node. The last attempt waits without a timeout. -/
def stepCall (workflowId : String) (nodeId syncId : ℕ) (completed : ℕ → Bool) (n : WorkflowNode T)
    (e : Execution T) (key : String) (value : T) (c : CallStep) :
    Option (WorkflowNode T × Option WorkflowCommand) :=
  match c, e.phase with
  | .dequeue, .dequeuing =>
    if n.locked then none else some (n.tryDequeueCheckpoint workflowId key e, none)
  -- every attempt has a subscription of its own
  | .subscribe, .subscribing attempt =>
    some (n.withExec { e with subscription := some [], phase := .checking attempt }, none)
  | .checkOwner, .checking attempt =>
    if n.locked then none
    else if isWorkflowOwner n.sm workflowId nodeId then
      some (n.withExec { e with phase := .proposing }, none)
    else some (n.withExec { e with phase := .waiting attempt }, none)
  | .propose, .proposing =>
    some (n.withExec { e with phase := .awaiting syncId },
      some (.setCheckpoint workflowId key (SerdeJson.toVec value)))
  | .proposalDone, .awaiting id =>
    if completed id then some (n.withExec { e with phase := .popping }, none) else none
  | .proposalFailed reason, .proposing =>
    some (n.withExec (e.fail (.clusterError reason)), none)
  -- the proposal may still be committed later
  | .proposalFailed reason, .awaiting _ =>
    some (n.withExec (e.fail (.clusterError reason)), none)
  | .pop, .popping =>
    if n.locked then none else some (n.popProposed workflowId key e value, none)
  | .receive, .waiting attempt =>
    match e.subscription with
    | some (event :: rest) =>
      some (n.withExec
        ({ e with subscription := some rest }.receive workflowId key attempt event), none)
    | _ => none
  | .lag, .waiting _ =>
    -- `RecvError::Lagged`: the loop goes on with the events that are left
    match e.subscription with
    | some (_ :: rest) => some (n.withExec { e with subscription := some rest }, none)
    | _ => none
  | .timeout, .waiting attempt =>
    if attempt < maxRetries - 1 then
      some (n.withExec { e with phase := .rechecking attempt, subscription := none }, none)
    else none
  | .recheck, .rechecking attempt =>
    if n.locked then none
    else some (n.withExec (e.recheck attempt (isWorkflowOwner n.sm workflowId nodeId)), none)
  | _, _ => none

/-- A step of an execution that has not ended. -/
def callStep (workflowId : String) (nodeId syncId : ℕ) (completed : ℕ → Bool) (n : WorkflowNode T)
    (c : CallStep) : Option (WorkflowNode T × Option WorkflowCommand) :=
  match n.exec with
  | none => none
  | some e =>
    match e.error, e.calls with
    | none, (key, value) :: _ => n.stepCall workflowId nodeId syncId completed e key value c
    | _, _ => none

/-- The ways a call can go on from where it stands. -/
inductive CallRun (workflowId : String) (nodeId syncId : ℕ) (completed : ℕ → Bool)
    (n : WorkflowNode T) (e : Execution T) (key : String) (value : T) :
    CallStep → WorkflowNode T → Option WorkflowCommand → Prop where
  | dequeue (stands : e.phase = .dequeuing) (free : ¬ n.locked) :
      CallRun workflowId nodeId syncId completed n e key value .dequeue
        (n.tryDequeueCheckpoint workflowId key e) none
  | subscribe (attempt : ℕ) (stands : e.phase = .subscribing attempt) :
      CallRun workflowId nodeId syncId completed n e key value .subscribe
        (n.withExec { e with subscription := some [], phase := .checking attempt }) none
  | owns (attempt : ℕ) (stands : e.phase = .checking attempt) (free : ¬ n.locked)
      (owner : isWorkflowOwner n.sm workflowId nodeId) :
      CallRun workflowId nodeId syncId completed n e key value .checkOwner
        (n.withExec { e with phase := .proposing }) none
  | waits (attempt : ℕ) (stands : e.phase = .checking attempt) (free : ¬ n.locked)
      (owner : ¬ isWorkflowOwner n.sm workflowId nodeId) :
      CallRun workflowId nodeId syncId completed n e key value .checkOwner
        (n.withExec { e with phase := .waiting attempt }) none
  | propose (stands : e.phase = .proposing) :
      CallRun workflowId nodeId syncId completed n e key value .propose
        (n.withExec { e with phase := .awaiting syncId })
        (some (.setCheckpoint workflowId key (SerdeJson.toVec value)))
  | proposalDone (id : ℕ) (stands : e.phase = .awaiting id) (done : completed id) :
      CallRun workflowId nodeId syncId completed n e key value .proposalDone
        (n.withExec { e with phase := .popping }) none
  | proposalFailed (reason : String) (stands : e.phase = .proposing ∨ ∃ id, e.phase = .awaiting id) :
      CallRun workflowId nodeId syncId completed n e key value (.proposalFailed reason)
        (n.withExec (e.fail (.clusterError reason))) none
  | pop (stands : e.phase = .popping) (free : ¬ n.locked) :
      CallRun workflowId nodeId syncId completed n e key value .pop
        (n.popProposed workflowId key e value) none
  | receive (attempt : ℕ) (event : WorkflowEvent) (rest : List WorkflowEvent)
      (stands : e.phase = .waiting attempt) (got : e.subscription = some (event :: rest)) :
      CallRun workflowId nodeId syncId completed n e key value .receive
        (n.withExec ({ e with subscription := some rest }.receive workflowId key attempt event))
        none
  | lag (attempt : ℕ) (event : WorkflowEvent) (rest : List WorkflowEvent)
      (stands : e.phase = .waiting attempt) (got : e.subscription = some (event :: rest)) :
      CallRun workflowId nodeId syncId completed n e key value .lag
        (n.withExec { e with subscription := some rest }) none
  | timeout (attempt : ℕ) (stands : e.phase = .waiting attempt) (early : attempt < maxRetries - 1) :
      CallRun workflowId nodeId syncId completed n e key value .timeout
        (n.withExec { e with phase := .rechecking attempt, subscription := none }) none
  | recheck (attempt : ℕ) (stands : e.phase = .rechecking attempt) (free : ¬ n.locked) :
      CallRun workflowId nodeId syncId completed n e key value .recheck
        (n.withExec (e.recheck attempt (isWorkflowOwner n.sm workflowId nodeId))) none

theorem stepCall_run {workflowId : String} {nodeId syncId : ℕ} {completed : ℕ → Bool}
    {n n' : WorkflowNode T} {e : Execution T} {key : String} {value : T} {c : CallStep}
    {proposed : Option WorkflowCommand}
    (h : n.stepCall workflowId nodeId syncId completed e key value c = some (n', proposed)) :
    CallRun workflowId nodeId syncId completed n e key value c n' proposed := by
  unfold stepCall at h
  split at h
  · next hphase =>
    rw [Option.ite_none_left_eq_some, Option.some.injEq, Prod.mk.injEq] at h
    obtain ⟨hfree, rfl, rfl⟩ := h
    exact .dequeue hphase hfree
  · next attempt hphase =>
    rw [Option.some.injEq, Prod.mk.injEq] at h
    obtain ⟨rfl, rfl⟩ := h
    exact .subscribe attempt hphase
  · next attempt hphase =>
    rw [Option.ite_none_left_eq_some] at h
    obtain ⟨hfree, h⟩ := h
    by_cases howner : isWorkflowOwner n.sm workflowId nodeId
    · rw [if_pos howner, Option.some.injEq, Prod.mk.injEq] at h
      obtain ⟨rfl, rfl⟩ := h
      exact .owns attempt hphase hfree howner
    · rw [if_neg howner, Option.some.injEq, Prod.mk.injEq] at h
      obtain ⟨rfl, rfl⟩ := h
      exact .waits attempt hphase hfree howner
  · next hphase =>
    rw [Option.some.injEq, Prod.mk.injEq] at h
    obtain ⟨rfl, rfl⟩ := h
    exact .propose hphase
  · next id hphase =>
    rw [Option.ite_none_right_eq_some, Option.some.injEq, Prod.mk.injEq] at h
    obtain ⟨hdone, rfl, rfl⟩ := h
    exact .proposalDone id hphase hdone
  · next reason hphase =>
    rw [Option.some.injEq, Prod.mk.injEq] at h
    obtain ⟨rfl, rfl⟩ := h
    exact .proposalFailed reason (Or.inl hphase)
  · next reason id hphase =>
    rw [Option.some.injEq, Prod.mk.injEq] at h
    obtain ⟨rfl, rfl⟩ := h
    exact .proposalFailed reason (Or.inr ⟨id, hphase⟩)
  · next hphase =>
    rw [Option.ite_none_left_eq_some, Option.some.injEq, Prod.mk.injEq] at h
    obtain ⟨hfree, rfl, rfl⟩ := h
    exact .pop hphase hfree
  · next attempt hphase =>
    split at h
    · next event rest hsub =>
      rw [Option.some.injEq, Prod.mk.injEq] at h
      obtain ⟨rfl, rfl⟩ := h
      exact .receive attempt event rest hphase hsub
    · exact absurd h (by simp)
  · next attempt hphase =>
    split at h
    · next event rest hsub =>
      rw [Option.some.injEq, Prod.mk.injEq] at h
      obtain ⟨rfl, rfl⟩ := h
      exact .lag attempt event rest hphase hsub
    · exact absurd h (by simp)
  · next attempt hphase =>
    rw [Option.ite_none_right_eq_some, Option.some.injEq, Prod.mk.injEq] at h
    obtain ⟨hearly, rfl, rfl⟩ := h
    exact .timeout attempt hphase hearly
  · next attempt hphase =>
    rw [Option.ite_none_left_eq_some, Option.some.injEq, Prod.mk.injEq] at h
    obtain ⟨hfree, rfl, rfl⟩ := h
    exact .recheck attempt hphase hfree
  · exact absurd h (by simp)

/-- Every step is one of them, of a call that is under way. -/
theorem callStep_run {workflowId : String} {nodeId syncId : ℕ} {completed : ℕ → Bool}
    {n n' : WorkflowNode T} {c : CallStep} {proposed : Option WorkflowCommand}
    (h : n.callStep workflowId nodeId syncId completed c = some (n', proposed)) :
    ∃ e key value rest, n.exec = some e ∧ e.error = none ∧ e.calls = (key, value) :: rest ∧
      CallRun workflowId nodeId syncId completed n e key value c n' proposed := by
  unfold callStep at h
  split at h
  · exact absurd h (by simp)
  · next e hexec =>
    split at h
    · next key value rest herror hcalls =>
      exact ⟨e, key, value, rest, hexec, herror, hcalls, stepCall_run h⟩
    · exact absurd h (by simp)

end WorkflowNode

end Raftoral

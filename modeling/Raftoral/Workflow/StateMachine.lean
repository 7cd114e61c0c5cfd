import Raftoral.Raft.StateMachine

/-!
# `WorkflowStateMachine`

The model of `workflow/state_machine.rs` and `workflow/event.rs`. A `HashMap` is an
extensional map, a `VecDeque` a list whose front is the head.

A checkpoint that is set goes to the transient queue of its key, from which executions take
their values, and to the history, which nothing is ever taken from.
-/

namespace Raftoral

/-- A map with string keys. -/
abbrev StringMap (V : Type) := Std.ExtTreeMap String V compare

/-- The composite key of a checkpoint. -/
def makeQueueKey (workflowId key : String) : String := workflowId ++ ":" ++ key

inductive OwnerChangeReason where
  | nodeFailure
  | loadBalancing
deriving DecidableEq, Repr

inductive WorkflowCommand where
  | workflowStart (workflowId workflowType : String) (version : ℕ) (input : Bytes)
      (ownerNodeId : ℕ)
  | workflowEnd (workflowId : String) (result : Bytes)
  | setCheckpoint (workflowId key : String) (value : Bytes)
  | ownerChange (workflowId : String) (oldOwnerNodeId newOwnerNodeId : ℕ)
      (reason : OwnerChangeReason)
deriving DecidableEq, Repr

inductive WorkflowEvent where
  | workflowStarted (workflowId workflowType : String) (version : ℕ) (ownerNodeId : ℕ)
  | workflowCompleted (workflowId : String) (result : Bytes)
  | workflowFailed (workflowId : String) (error : Bytes)
  | checkpointSet (workflowId key : String) (value : Bytes)
  | ownershipChanged (workflowId : String) (oldOwnerNodeId newOwnerNodeId : ℕ)
deriving DecidableEq, Repr

/-- Every event is about one workflow. -/
def WorkflowEvent.workflowId : WorkflowEvent → String
  | .workflowStarted workflowId _ _ _ => workflowId
  | .workflowCompleted workflowId _ => workflowId
  | .workflowFailed workflowId _ => workflowId
  | .checkpointSet workflowId _ _ => workflowId
  | .ownershipChanged workflowId _ _ => workflowId

inductive WorkflowStatus where
  | running
  | completed
  | failed
deriving DecidableEq, Repr

structure WorkflowStateMachine where
  workflows : StringMap WorkflowStatus := ∅
  inputs : StringMap Bytes := ∅
  results : StringMap Bytes := ∅
  checkpointQueues : StringMap (List Bytes) := ∅
  checkpointHistory : StringMap (List Bytes) := ∅
  ownership : StringMap ℕ := ∅

/-- What a snapshot holds: everything but the transient queues. -/
structure WorkflowSnapshot where
  workflows : StringMap WorkflowStatus
  inputs : StringMap Bytes
  results : StringMap Bytes
  checkpointHistory : StringMap (List Bytes)
  ownership : StringMap ℕ

namespace WorkflowStateMachine

/-! ## Queries -/

def getWorkflowStatus (sm : WorkflowStateMachine) (workflowId : String) : Option WorkflowStatus :=
  sm.workflows[workflowId]?

def getResult (sm : WorkflowStateMachine) (workflowId : String) : Option Bytes :=
  sm.results[workflowId]?

def getInput (sm : WorkflowStateMachine) (workflowId : String) : Option Bytes :=
  sm.inputs[workflowId]?

def getOwner (sm : WorkflowStateMachine) (workflowId : String) : Option ℕ :=
  sm.ownership[workflowId]?

/-- The first value of the queue of a key, which is taken out. -/
def popQueuedCheckpoint (sm : WorkflowStateMachine) (workflowId key : String) :
    Option Bytes × WorkflowStateMachine :=
  let queueKey := makeQueueKey workflowId key
  match sm.checkpointQueues[queueKey]? with
  | none => (none, sm)
  | some queue =>
    (queue.head?, { sm with checkpointQueues := sm.checkpointQueues.insert queueKey queue.tail })

def hasQueuedCheckpoint (sm : WorkflowStateMachine) (workflowId key : String) : Bool :=
  match sm.checkpointQueues[makeQueueKey workflowId key]? with
  | none => false
  | some queue => !queue.isEmpty

/-! ## Commands -/

/-- `entry(key).or_insert_with(VecDeque::new).push_back(value)`. -/
def pushBack (queues : StringMap (List Bytes)) (queueKey : String) (value : Bytes) :
    StringMap (List Bytes) :=
  queues.insert queueKey ((queues[queueKey]?).getD [] ++ [value])

/-- `retain` of the keys that do not belong to a workflow. -/
def dropWorkflow (queues : StringMap (List Bytes)) (workflowId : String) :
    StringMap (List Bytes) :=
  queues.filter fun k _ => !(workflowId ++ ":").toList.isPrefixOf k.toList

/-- `apply`, which never fails. -/
def apply (sm : WorkflowStateMachine) :
    WorkflowCommand → Except String (List WorkflowEvent) × WorkflowStateMachine
  | .workflowStart workflowId workflowType version input ownerNodeId =>
    (.ok [.workflowStarted workflowId workflowType version ownerNodeId],
      { sm with
        workflows := sm.workflows.insert workflowId .running
        inputs := sm.inputs.insert workflowId input
        ownership := sm.ownership.insert workflowId ownerNodeId })
  | .workflowEnd workflowId result =>
    (.ok [.workflowCompleted workflowId result],
      { sm with
        workflows := sm.workflows.insert workflowId .completed
        results := sm.results.insert workflowId result
        inputs := sm.inputs.erase workflowId
        checkpointQueues := dropWorkflow sm.checkpointQueues workflowId
        checkpointHistory := dropWorkflow sm.checkpointHistory workflowId })
  | .setCheckpoint workflowId key value =>
    let queueKey := makeQueueKey workflowId key
    (.ok [.checkpointSet workflowId key value],
      { sm with
        checkpointQueues := pushBack sm.checkpointQueues queueKey value
        checkpointHistory := pushBack sm.checkpointHistory queueKey value })
  | .ownerChange workflowId oldOwnerNodeId newOwnerNodeId _ =>
    (.ok [.ownershipChanged workflowId oldOwnerNodeId newOwnerNodeId],
      { sm with ownership := sm.ownership.insert workflowId newOwnerNodeId })

/-! ## Snapshots -/

def toSnapshot (sm : WorkflowStateMachine) : WorkflowSnapshot where
  workflows := sm.workflows
  inputs := sm.inputs
  results := sm.results
  checkpointHistory := sm.checkpointHistory
  ownership := sm.ownership

/-- The transient queues are built from the history, value by value. -/
def ofSnapshot (snapshot : WorkflowSnapshot) : WorkflowStateMachine where
  workflows := snapshot.workflows
  inputs := snapshot.inputs
  results := snapshot.results
  checkpointQueues := snapshot.checkpointHistory.map fun _ history =>
    history.foldl (fun queue value => queue ++ [value]) []
  checkpointHistory := snapshot.checkpointHistory
  ownership := snapshot.ownership

instance [SerdeJson WorkflowSnapshot] :
    StateMachine WorkflowStateMachine WorkflowCommand WorkflowEvent where
  apply := WorkflowStateMachine.apply
  snapshot sm := .ok (SerdeJson.toVec sm.toSnapshot)
  restore sm data :=
    match (SerdeJson.fromSlice data : Except String WorkflowSnapshot) with
    | .ok snapshot => (.ok (), ofSnapshot snapshot)
    | .error e => (.error e, sm)
  onFollowerFailed _ _ := []

/-! ## Queues -/

/-- The values waiting for a key; a key without a queue has none. -/
def queue (sm : WorkflowStateMachine) (workflowId key : String) : List Bytes :=
  (sm.checkpointQueues[makeQueueKey workflowId key]?).getD []

/-- Within a workflow different keys have different queues. -/
theorem makeQueueKey_inj {workflowId key key' : String} :
    makeQueueKey workflowId key = makeQueueKey workflowId key' ↔ key = key' := by
  unfold makeQueueKey
  exact String.append_right_inj _

theorem queue_pushBack (sm : WorkflowStateMachine) (workflowId key key' : String) (value : Bytes) :
    ((pushBack sm.checkpointQueues (makeQueueKey workflowId key) value)[
      makeQueueKey workflowId key']?).getD [] =
      sm.queue workflowId key' ++ if key' = key then [value] else [] := by
  unfold pushBack queue
  rw [Std.ExtTreeMap.getElem?_insert]
  by_cases h : key' = key
  · subst h
    simp
  · have hne : makeQueueKey workflowId key ≠ makeQueueKey workflowId key' := by
      intro heq
      exact h (makeQueueKey_inj.mp heq).symm
    simp [hne, h]

theorem queue_setCheckpoint (sm : WorkflowStateMachine) (workflowId key key' : String)
    (value : Bytes) :
    (sm.apply (.setCheckpoint workflowId key value)).2.queue workflowId key' =
      sm.queue workflowId key' ++ if key' = key then [value] else [] :=
  queue_pushBack sm workflowId key key' value

theorem getOwner_workflowStart (sm : WorkflowStateMachine) (workflowId workflowType : String)
    (version : ℕ) (input : Bytes) (ownerNodeId : ℕ) :
    (sm.apply (.workflowStart workflowId workflowType version input ownerNodeId)).2.getOwner
      workflowId = some ownerNodeId := by
  show (sm.ownership.insert workflowId ownerNodeId)[workflowId]? = _
  exact Std.ExtTreeMap.getElem?_insert_self

/-- A pop takes the head of the queue and touches nothing else. -/
theorem popQueuedCheckpoint_cases (sm : WorkflowStateMachine) (workflowId key : String) :
    sm.checkpointQueues[makeQueueKey workflowId key]? = none ∧
        sm.popQueuedCheckpoint workflowId key = (none, sm) ∨
      ∃ q, sm.checkpointQueues[makeQueueKey workflowId key]? = some q ∧
        sm.popQueuedCheckpoint workflowId key = (q.head?, { sm with
          checkpointQueues := sm.checkpointQueues.insert (makeQueueKey workflowId key) q.tail }) := by
  unfold popQueuedCheckpoint
  cases hq : sm.checkpointQueues[makeQueueKey workflowId key]? with
  | none => exact Or.inl ⟨rfl, by simp only [hq]⟩
  | some q => exact Or.inr ⟨q, rfl, by simp only [hq]⟩

/-- What a pop answers. -/
theorem popQueuedCheckpoint_fst (sm : WorkflowStateMachine) (workflowId key : String) :
    (sm.popQueuedCheckpoint workflowId key).1 = (sm.queue workflowId key).head? := by
  unfold queue
  rcases popQueuedCheckpoint_cases sm workflowId key with ⟨hq, hpop⟩ | ⟨q, hq, hpop⟩
  · rw [hpop, hq]
    rfl
  · rw [hpop, hq]
    rfl

/-- What a pop leaves. -/
theorem queue_popQueuedCheckpoint (sm : WorkflowStateMachine) (workflowId key key' : String) :
    (sm.popQueuedCheckpoint workflowId key).2.queue workflowId key' =
      if key' = key then (sm.queue workflowId key').tail else sm.queue workflowId key' := by
  rcases popQueuedCheckpoint_cases sm workflowId key with ⟨hq, hpop⟩ | ⟨q, hq, hpop⟩
  · rw [hpop]
    by_cases h : key' = key
    · subst h
      simp [queue, hq]
    · rw [if_neg h]
  · rw [hpop]
    unfold queue
    rw [Std.ExtTreeMap.getElem?_insert]
    by_cases h : key' = key
    · subst h
      simp [hq]
    · have hne : makeQueueKey workflowId key ≠ makeQueueKey workflowId key' := by
        intro heq
        exact h (makeQueueKey_inj.mp heq).symm
      simp [hne, h]

@[simp] theorem getOwner_popQueuedCheckpoint (sm : WorkflowStateMachine)
    (workflowId key workflowId' : String) :
    (sm.popQueuedCheckpoint workflowId key).2.getOwner workflowId' = sm.getOwner workflowId' := by
  rcases popQueuedCheckpoint_cases sm workflowId key with ⟨-, hpop⟩ | ⟨q, -, hpop⟩
  · rw [hpop]
  · rw [hpop]
    rfl

end WorkflowStateMachine

end Raftoral

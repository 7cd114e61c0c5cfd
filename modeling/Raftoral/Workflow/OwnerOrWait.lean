import Raftoral.Lib.Broadcast
import Raftoral.Lib.Run
import Raftoral.Workflow.Runtime

/-!
# `execute_owner_or_wait`

The retry loop under `set_checkpoint`, for any operation and any extractor. While a call is under
way the state machine of the node changes, events of any workflow are published and the event bus
may be closed, all in any order and in between any two steps of the call.

The call leaves a record of what it did that others can see: its subscriptions, its reads of the
ownership, the operation, and the events it took.
-/

namespace Raftoral

open Transition

variable {T : Type}

/-- `WorkflowSubscription::matches_workflow`. -/
def matchesWorkflow (targetWorkflowId : String) (event : WorkflowEvent) : Bool :=
  event.workflowId == targetWorkflowId

/-- The extractor that `wait_for_event_or_ownership_change` builds over the one of its caller. -/
def orOwnershipChange (workflowId : String) (extractor : WorkflowEvent → Option T)
    (event : WorkflowEvent) : Option (Option T) :=
  if event.workflowId ≠ workflowId then none
  else match event with
    | .ownershipChanged _ _ _ => some none
    | _ => (extractor event).map some

/-- `set_checkpoint` waits with it. -/
theorem filteredExtractor_eq [SerdeJson T] (workflowId key : String) :
    (filteredExtractor workflowId key : WorkflowEvent → Option (Option T)) =
      orOwnershipChange workflowId (checkpointValue workflowId key) := rfl

theorem orOwnershipChange_value {workflowId : String} {extractor : WorkflowEvent → Option T}
    {event : WorkflowEvent} {value : T}
    (h : orOwnershipChange workflowId extractor event = some (some value)) :
    event.workflowId = workflowId ∧ extractor event = some value := by
  unfold orOwnershipChange at h
  rw [Option.ite_none_left_eq_some, not_not] at h
  obtain ⟨hid, h⟩ := h
  split at h
  · exact absurd h (by simp)
  · rw [Option.map_eq_some_iff] at h
    obtain ⟨value', hvalue, heq⟩ := h
    exact ⟨hid, by rw [hvalue, Option.some.inj heq]⟩

/-- What a call has done. -/
inductive CallRecord (T : Type) where
  /-- The subscription starts behind this many events. -/
  | subscribed (position : ℕ)
  /-- `is_workflow_owner` has read this owner. -/
  | checkedOwner (owner : Option ℕ)
  | invokedOperation
  | operationReturned (result : Except WorkflowError T)
  /-- The event with this number was taken, and this is what the extractors made of it. -/
  | consumed (number : ℕ) (event : WorkflowEvent) (found : Option (Option T))

namespace CallRecord

def isSubscription : CallRecord T → Bool
  | .subscribed _ => true
  | _ => false

def isInvocation : CallRecord T → Bool
  | .invokedOperation => true
  | _ => false

/-- The call has invoked the operation, or the extractor has given it a value. -/
def Decides : CallRecord T → Prop
  | .invokedOperation | .operationReturned _ | .consumed _ _ (some (some _)) => True
  | .subscribed _ | .checkedOwner _ | .consumed _ _ none | .consumed _ _ (some none) => False

end CallRecord

inductive OwnerOrWaitPhase (T : Type) where
  | subscribing (attempt : ℕ)
  | checking (attempt : ℕ)
  | owning
  | operating
  | waiting (attempt : ℕ)
  | rechecking (attempt : ℕ)
  | returned (result : Except WorkflowError T)

/-- The node as far as a call sees it, and the call. -/
structure OwnerOrWait (T : Type) where
  stateMachine : WorkflowStateMachine
  published : List WorkflowEvent := []
  closed : Bool := false
  phase : OwnerOrWaitPhase T := .subscribing 0
  /-- The receiver of the subscription, which is given the events from this number on. -/
  next : ℕ := 0
  records : List (CallRecord T) := []

inductive OwnerOrWaitAction (T : Type) where
  /-- The state machine changes, by whatever is applied or restored. -/
  | change (stateMachine : WorkflowStateMachine)
  | publish (event : WorkflowEvent)
  | close
  | subscribe
  | checkOwner
  | invoke
  /-- The operation is over. -/
  | finish (result : Except WorkflowError T)
  | receive
  | timeout
  | recheck

/-- The action is one of the call. -/
def OwnerOrWaitAction.OfCall : OwnerOrWaitAction T → Prop
  | .change _ | .publish _ | .close => False
  | .subscribe | .checkOwner | .invoke | .finish _ | .receive | .timeout | .recheck => True

/-- Everything that the call does but take events. -/
def OwnerOrWaitAction.isOwnStep : OwnerOrWaitAction T → Bool
  | .change _ | .publish _ | .close | .receive => false
  | .subscribe | .checkOwner | .invoke | .finish _ | .timeout | .recheck => true

/-- The arguments of a call and the node it is made on. `passiveTimeout` tells whether the caller
gives a timeout for the last attempt. -/
structure OwnerOrWaitCall (T : Type) where
  nodeId : ℕ
  workflowId : String
  extractor : WorkflowEvent → Option T
  passiveTimeout : Bool
  /-- The number of events the event bus retains. -/
  capacity : ℕ

namespace OwnerOrWait

/-- The call goes on, and records what it has done. -/
def goOn (s : OwnerOrWait T) (phase : OwnerOrWaitPhase T) (done : List (CallRecord T)) :
    OwnerOrWait T :=
  { s with phase, records := s.records ++ done }

/-- `continue` in the retry loop; behind the loop the call has timed out. -/
def afterAttempt (attempt : ℕ) : OwnerOrWaitPhase T :=
  if attempt + 1 < maxRetries then .subscribing (attempt + 1) else .returned (.error .timeout)

/-- The receiver of the subscription is given an event. -/
def consume (c : OwnerOrWaitCall T) (s : OwnerOrWait T) (attempt : ℕ) (event : WorkflowEvent) :
    OwnerOrWait T :=
  let found :=
    if matchesWorkflow c.workflowId event then orOwnershipChange c.workflowId c.extractor event
    else none
  let done := [.consumed s.next event found]
  match found with
  | none => s.goOn (.waiting attempt) done
  -- the ownership has changed
  | some none => s.goOn (afterAttempt attempt) done
  | some (some value) => s.goOn (.returned (.ok value)) done

/-- One `recv` of the loop in `wait_for_event`. -/
def receive (c : OwnerOrWaitCall T) (s : OwnerOrWait T) (attempt : ℕ) : Option (OwnerOrWait T) :=
  match Broadcast.recv c.capacity s.published s.next with
  | .value event next => some { s.consume c attempt event with next }
  | .lagged next => some { s with next }
  | .empty =>
    if s.closed then some (s.goOn (.returned (.error (.clusterError "Event channel closed"))) [])
    else none

def step (c : OwnerOrWaitCall T) (s : OwnerOrWait T) :
    OwnerOrWaitAction T → Option (OwnerOrWait T)
  | .change stateMachine => some { s with stateMachine }
  | .publish event => if s.closed then none else some { s with published := s.published ++ [event] }
  | .close => some { s with closed := true }
  | .subscribe =>
    match s.phase with
    | .subscribing attempt =>
      some { s.goOn (.checking attempt) [.subscribed s.published.length] with
        next := s.published.length }
    | _ => none
  | .checkOwner =>
    match s.phase with
    | .checking attempt =>
      let done := [.checkedOwner (s.stateMachine.getOwner c.workflowId)]
      if isWorkflowOwner s.stateMachine c.workflowId c.nodeId then some (s.goOn .owning done)
      else some (s.goOn (.waiting attempt) done)
    | _ => none
  | .invoke =>
    match s.phase with
    | .owning => some (s.goOn .operating [.invokedOperation])
    | _ => none
  | .finish result =>
    match s.phase with
    | .operating => some (s.goOn (.returned result) [.operationReturned result])
    | _ => none
  | .receive =>
    match s.phase with
    | .waiting attempt => s.receive c attempt
    | _ => none
  | .timeout =>
    match s.phase with
    | .waiting attempt =>
      -- the last attempt has the timeout of the caller, if there is one
      if attempt < maxRetries - 1 ∨ c.passiveTimeout then some (s.goOn (.rechecking attempt) [])
      else none
    | _ => none
  | .recheck =>
    match s.phase with
    | .rechecking attempt =>
      let done := [.checkedOwner (s.stateMachine.getOwner c.workflowId)]
      if isWorkflowOwner s.stateMachine c.workflowId c.nodeId then
        some (s.goOn (afterAttempt attempt) done)
      else if attempt = maxRetries - 1 then some (s.goOn (.returned (.error .timeout)) done)
      else some (s.goOn (afterAttempt attempt) done)
    | _ => none

/-- A call begins on a node in any state. -/
def start (stateMachine : WorkflowStateMachine) (published : List WorkflowEvent) :
    OwnerOrWait T :=
  { stateMachine, published }

end OwnerOrWait

end Raftoral

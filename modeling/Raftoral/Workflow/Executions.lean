import Raftoral.Lib.Run
import Raftoral.Workflow.CompletionWait
import Raftoral.Workflow.Lifecycle
import Raftoral.Workflow.Outcome
import Raftoral.Workflow.OwnerOrWait

/-!
# Workflows that are executed

The model of `run_workflow_observer` and `execute_workflow` of `workflow/runtime.rs`, of the
registry, and of the nodes of a cluster around them. Every node that observes the start of a
workflow executes it: it looks the function up, reads the input from its state machine, lets the
function run, and has the result recorded by the owner of the workflow (`execute_owner_or_wait`).

Functions are parameters, and what a function makes of an input is a relation. While it runs it
sets checkpoints and takes them from the queues, which other tasks may do as well.

The nodes apply one log, each at its own pace, from the start or from a snapshot of a node. A
proposal is in flight until it is appended to the log or lost.
-/

namespace Raftoral

open Transition

/-! ## The registry -/

/-- `WorkflowRegistry`. -/
structure WorkflowRegistry (F : Type) where
  workflows : List ((String × ℕ) × F) := []

namespace WorkflowRegistry

variable {F : Type}

def get (registry : WorkflowRegistry F) (workflowType : String) (version : ℕ) : Option F :=
  registry.workflows.lookup (workflowType, version)

def register (registry : WorkflowRegistry F) (workflowType : String) (version : ℕ)
    (function : F) : Except WorkflowError (WorkflowRegistry F) :=
  if (registry.get workflowType version).isSome then
    .error (.alreadyExists ("Workflow '" ++ workflowType ++ "' version " ++ toString version ++
      " is already registered"))
  else .ok { workflows := ((workflowType, version), function) :: registry.workflows }

/-- A function that was found is one that was registered. -/
theorem mem_of_get {registry : WorkflowRegistry F} {workflowType : String} {version : ℕ}
    {function : F} (h : registry.get workflowType version = some function) :
    ((workflowType, version), function) ∈ registry.workflows := by
  obtain ⟨before, after, heq, -⟩ := List.lookup_eq_some_iff.mp h
  rw [heq]
  exact List.mem_append_right before List.mem_cons_self

end WorkflowRegistry

/-! ## One execution -/

/-- How far `execute_workflow` has got. -/
inductive ExecutionPhase (F : Type) where
  | lookingUp
  | readingInput (function : F)
  | executing (function : F) (input : Bytes)
  /-- The owner records the result, and the other nodes wait until it has. -/
  | recording (resultBytes : Bytes) (call : OwnerOrWait Unit)
  /-- The function or the input was not found. -/
  | abandoned

structure WorkflowExecution (F : Type) where
  workflowId : String
  workflowType : String
  version : ℕ
  phase : ExecutionPhase F := .lookingUp

/-- The bytes that are recorded. Writing an error does not fail. -/
def resultBytesOf [JsonText] : Except WorkflowError Bytes → Bytes
  | .ok resultBytes => resultBytes
  | .error e => JsonText.print e.toValue

/-- The bytes of a body that depends on its input alone. -/
theorem executeWorkflow_eq [JsonText] {I O : Type} [SerdeValue I] [SerdeValue O]
    (body : I → Except WorkflowError O) (input : Bytes) :
    executeWorkflow body input = resultBytesOf (boxedExecute body input) := rfl

/-- What the nodes that do not own the workflow wait for. -/
def endOf (workflowId : String) : WorkflowEvent → Option Unit
  | .workflowCompleted eventWorkflowId _ | .workflowFailed eventWorkflowId _ =>
    if eventWorkflowId = workflowId then some () else none
  | _ => none

/-- The call of `execute_owner_or_wait` that ends an execution. -/
def recordingCall (nodeId : ℕ) (workflowId : String) : OwnerOrWaitCall Unit where
  nodeId
  workflowId
  extractor := endOf workflowId
  passiveTimeout := false
  capacity := CompletionWait.eventBusCapacity

/-- A node of a cluster, with the tasks that execute workflows on it. -/
structure ExecutingNode (F : Type) where
  stateMachine : WorkflowStateMachine := {}
  applied : ℕ := 0
  /-- The events of the last command that are still to be published. -/
  unpublished : List WorkflowEvent := []
  published : List WorkflowEvent := []
  registry : WorkflowRegistry F := {}
  /-- The receiver of `run_workflow_observer`. -/
  observer : Option ℕ := none
  executions : List (WorkflowExecution F) := []

/-- The state machine is locked. -/
def ExecutingNode.locked {F : Type} (n : ExecutingNode F) : Bool := !n.unpublished.isEmpty

inductive ExecutionAction where
  | lookUp
  | readInput
  /-- The function has returned. -/
  | finish (result : Except WorkflowError Bytes)
  | record (action : OwnerOrWaitAction Unit)

/-- The action reads the state machine. -/
def OwnerOrWaitAction.reads {T : Type} : OwnerOrWaitAction T → Bool
  | .checkOwner | .recheck => true
  | .change _ | .publish _ | .close | .subscribe | .invoke | .finish _ | .receive | .timeout =>
    false

instance {T : Type} : DecidablePred (OwnerOrWaitAction.OfCall (T := T))
  | .change _ | .publish _ | .close => isFalse id
  | .subscribe | .checkOwner | .invoke | .finish _ | .receive | .timeout | .recheck =>
    isTrue trivial

namespace WorkflowExecution

variable {F : Type}

def goOn (x : WorkflowExecution F) (phase : ExecutionPhase F) : WorkflowExecution F :=
  { x with phase }

/-- The owner's operation proposes the end of the workflow. -/
def proposals (x : WorkflowExecution F) (resultBytes : Bytes) :
    OwnerOrWaitAction Unit → List WorkflowCommand
  | .invoke => [.workflowEnd x.workflowId resultBytes]
  | _ => []

/-- The call sees the state machine and the events of its node. -/
def onNode (n : ExecutingNode F) (call : OwnerOrWait Unit) : OwnerOrWait Unit :=
  { call with stateMachine := n.stateMachine, published := n.published }

/-- One step of an execution, and what it proposes. -/
def step [JsonText] (n : ExecutingNode F) (nodeId : ℕ) (x : WorkflowExecution F) :
    ExecutionAction → Option (WorkflowExecution F × List WorkflowCommand)
  | .lookUp =>
    match x.phase with
    | .lookingUp =>
      match n.registry.get x.workflowType x.version with
      | some function => some (x.goOn (.readingInput function), [])
      | none => some (x.goOn .abandoned, [])
    | _ => none
  | .readInput =>
    match x.phase with
    | .readingInput function =>
      if n.locked then none
      else match n.stateMachine.getInput x.workflowId with
        | some input => some (x.goOn (.executing function input), [])
        | none => some (x.goOn .abandoned, [])
    | _ => none
  | .finish result =>
    match x.phase with
    | .executing _ _ =>
      some (x.goOn (.recording (resultBytesOf result) (.start n.stateMachine n.published)), [])
    | _ => none
  | .record action =>
    match x.phase with
    | .recording resultBytes call =>
      if action.OfCall ∧ ¬ (n.locked ∧ action.reads) then
        ((onNode n call).step (recordingCall nodeId x.workflowId) action).map fun call' =>
          (x.goOn (.recording resultBytes call'), x.proposals resultBytes action)
      else none
    | _ => none

end WorkflowExecution

/-! ## One node -/

inductive NodeAction (F : Type) where
  | apply
  | publish
  /-- A task takes a checkpoint from its queue. -/
  | pop (workflowId key : String)
  /-- A snapshot of the leader is installed. -/
  | install (k : ℕ)
  /-- The process starts again, from a snapshot it has stored or from nothing. -/
  | restart (k : Option ℕ)
  | register (workflowType : String) (version : ℕ) (function : F)
  | startObserver
  | observe
  | execute (j : ℕ) (action : ExecutionAction)

namespace ExecutingNode

variable {F : Type}

def applyCommand (n : ExecutingNode F) (command : WorkflowCommand) : ExecutingNode F :=
  let (events, stateMachine) := n.stateMachine.apply command
  { n with
    stateMachine
    applied := n.applied + 1
    unpublished := WorkflowStateMachine.eventsOf events }

/-- What `run_workflow_observer` spawns. -/
def spawned : WorkflowEvent → List (WorkflowExecution F)
  | .workflowStarted workflowId workflowType version _ => [{ workflowId, workflowType, version }]
  | _ => []

/-- A node that goes on from a snapshot. -/
def restored (snapshots : List (ℕ × WorkflowSnapshot)) (n : ExecutingNode F) (k : ℕ) :
    Option (ExecutingNode F) :=
  snapshots[k]?.map fun p =>
    { n with stateMachine := .ofSnapshot p.2, applied := p.1 }

/-- One step of a node, and what it proposes. -/
def step [JsonText] (log : List WorkflowCommand) (snapshots : List (ℕ × WorkflowSnapshot))
    (nodeId : ℕ) (n : ExecutingNode F) :
    NodeAction F → Option (ExecutingNode F × List WorkflowCommand)
  | .apply =>
    if n.locked then none else log[n.applied]?.map fun command => (n.applyCommand command, [])
  | .publish =>
    match n.unpublished with
    | [] => none
    | event :: unpublished =>
      some ({ n with unpublished, published := n.published ++ [event] }, [])
  | .pop workflowId key =>
    if n.locked then none
    else some
      ({ n with stateMachine := (n.stateMachine.popQueuedCheckpoint workflowId key).2 }, [])
  | .install k =>
    match n.restored snapshots k with
    -- a snapshot that is not ahead of the node is not handed to it
    | some n' => if n.locked ∨ n'.applied ≤ n.applied then none else some (n', [])
    | none => none
  | .restart none => some ({}, [])
  | .restart (some k) => (restored snapshots {} k).map fun n' => (n', [])
  | .register workflowType version function =>
    match n.registry.register workflowType version function with
    | .ok registry => some ({ n with registry }, [])
    | .error _ => some (n, [])
  | .startObserver =>
    match n.observer with
    | none => some ({ n with observer := some n.published.length }, [])
    | some _ => none
  | .observe =>
    match n.observer with
    | none => none
    | some next =>
      match Broadcast.recv CompletionWait.eventBusCapacity n.published next with
      | .value event next =>
        some ({ n with observer := some next, executions := n.executions ++ spawned event }, [])
      | .lagged next => some ({ n with observer := some next }, [])
      | .empty => none
  | .execute j action =>
    match n.executions[j]? with
    | none => none
    | some x =>
      (x.step n nodeId action).map fun p =>
        ({ n with executions := n.executions.set j p.1 }, p.2)

end ExecutingNode

/-! ## The cluster -/

/-- The nodes of a cluster, and what they have committed. -/
structure Executions (F : Type) where
  log : List WorkflowCommand := []
  inFlight : List WorkflowCommand := []
  /-- The snapshots that nodes have taken, with the number of commands they stand for. -/
  snapshots : List (ℕ × WorkflowSnapshot) := []
  nodes : ℕ → ExecutingNode F := fun _ => {}

inductive ExecutionsOp (F : Type) where
  /-- `start_workflow` on a node. -/
  | startWorkflow (nodeId : ℕ) (workflowId workflowType : String) (version : ℕ) (input : Bytes)
  | setCheckpoint (workflowId key : String) (value : Bytes)
  | changeOwner (workflowId : String) (oldOwnerNodeId newOwnerNodeId : ℕ)
      (reason : OwnerChangeReason)
  | commit (k : ℕ)
  | lose (k : ℕ)
  | takeSnapshot (nodeId : ℕ)
  | node (nodeId : ℕ) (action : NodeAction F)

namespace Executions

variable {F : Type}

def propose (s : Executions F) (commands : List WorkflowCommand) : Executions F :=
  { s with inFlight := s.inFlight ++ commands }

def step [JsonText] (s : Executions F) : ExecutionsOp F → Option (Executions F)
  | .startWorkflow nodeId workflowId workflowType version input =>
    some (s.propose [.workflowStart workflowId workflowType version input nodeId])
  | .setCheckpoint workflowId key value => some (s.propose [.setCheckpoint workflowId key value])
  | .changeOwner workflowId oldOwnerNodeId newOwnerNodeId reason =>
    some (s.propose [.ownerChange workflowId oldOwnerNodeId newOwnerNodeId reason])
  | .commit k =>
    s.inFlight[k]?.map fun command =>
      { s with log := s.log ++ [command], inFlight := s.inFlight.eraseIdx k }
  | .lose k => some { s with inFlight := s.inFlight.eraseIdx k }
  | .takeSnapshot nodeId =>
    let n := s.nodes nodeId
    if n.locked then none
    else some { s with snapshots := s.snapshots ++ [(n.applied, n.stateMachine.toSnapshot)] }
  | .node nodeId action =>
    ((s.nodes nodeId).step s.log s.snapshots nodeId action).map fun p =>
      { s with nodes := Function.update s.nodes nodeId p.1 }.propose p.2

end Executions

/-! ## What a step does -/

/-- The ways an execution goes on. -/
inductive WorkflowExecution.Stepped [JsonText] {F : Type} (n : ExecutingNode F) (nodeId : ℕ)
    (x : WorkflowExecution F) :
    ExecutionAction → WorkflowExecution F → List WorkflowCommand → Prop where
  | found {function : F} (hphase : x.phase = .lookingUp)
      (hget : n.registry.get x.workflowType x.version = some function) :
      Stepped n nodeId x .lookUp (x.goOn (.readingInput function)) []
  | abandon {action : ExecutionAction} (hphase : ∀ bytes call, x.phase ≠ .recording bytes call) :
      Stepped n nodeId x action (x.goOn .abandoned) []
  | read {function : F} {input : Bytes} (hphase : x.phase = .readingInput function)
      (hinput : n.stateMachine.getInput x.workflowId = some input) :
      Stepped n nodeId x .readInput (x.goOn (.executing function input)) []
  | finish {function : F} {input : Bytes} (hphase : x.phase = .executing function input)
      (result : Except WorkflowError Bytes) :
      Stepped n nodeId x (.finish result)
        (x.goOn (.recording (resultBytesOf result) (.start n.stateMachine n.published))) []
  | record {resultBytes : Bytes} {call call' : OwnerOrWait Unit}
      (hphase : x.phase = .recording resultBytes call) {action : OwnerOrWaitAction Unit}
      (hof : action.OfCall)
      (hcall : (onNode n call).step (recordingCall nodeId x.workflowId) action = some call') :
      Stepped n nodeId x (.record action) (x.goOn (.recording resultBytes call'))
        (x.proposals resultBytes action)

section
variable [JsonText] {F : Type}

theorem WorkflowExecution.step_stepped {n : ExecutingNode F} {nodeId : ℕ}
    {x x' : WorkflowExecution F} {action : ExecutionAction} {proposed : List WorkflowCommand}
    (h : x.step n nodeId action = some (x', proposed)) :
    x.Stepped n nodeId action x' proposed := by
  cases action with
  | lookUp =>
    rw [step] at h
    split at h
    · next hphase =>
      split at h
      · next function hget =>
        obtain ⟨rfl, rfl⟩ := Prod.mk.inj (Option.some.inj h)
        exact .found hphase hget
      · obtain ⟨rfl, rfl⟩ := Prod.mk.inj (Option.some.inj h)
        exact .abandon (by simp [hphase])
    · exact absurd h (by simp)
  | readInput =>
    rw [step] at h
    split at h
    · next function hphase =>
      rw [Option.ite_none_left_eq_some] at h
      obtain ⟨-, h⟩ := h
      split at h
      · next input hinput =>
        obtain ⟨rfl, rfl⟩ := Prod.mk.inj (Option.some.inj h)
        exact .read hphase hinput
      · obtain ⟨rfl, rfl⟩ := Prod.mk.inj (Option.some.inj h)
        exact .abandon (by simp [hphase])
    · exact absurd h (by simp)
  | finish result =>
    rw [step] at h
    split at h
    · next function input hphase =>
      obtain ⟨rfl, rfl⟩ := Prod.mk.inj (Option.some.inj h)
      exact .finish hphase result
    · exact absurd h (by simp)
  | record action =>
    rw [step] at h
    split at h
    · next resultBytes call hphase =>
      rw [Option.ite_none_right_eq_some, Option.map_eq_some_iff] at h
      obtain ⟨⟨hof, -⟩, call', hcall, h⟩ := h
      obtain ⟨rfl, rfl⟩ := Prod.mk.inj h
      exact .record hphase hof hcall
    · exact absurd h (by simp)

end

/-- The ways a node goes on. -/
inductive ExecutingNode.Stepped [JsonText] {F : Type} (log : List WorkflowCommand)
    (snapshots : List (ℕ × WorkflowSnapshot)) (nodeId : ℕ) (n : ExecutingNode F) :
    NodeAction F → ExecutingNode F → List WorkflowCommand → Prop where
  | apply {command : WorkflowCommand} (hfree : n.unpublished = [])
      (hlog : log[n.applied]? = some command) :
      Stepped log snapshots nodeId n .apply (n.applyCommand command) []
  | publish {event : WorkflowEvent} {unpublished : List WorkflowEvent}
      (hevent : n.unpublished = event :: unpublished) :
      Stepped log snapshots nodeId n .publish
        { n with unpublished, published := n.published ++ [event] } []
  | pop (workflowId key : String) :
      Stepped log snapshots nodeId n (.pop workflowId key)
        { n with stateMachine := (n.stateMachine.popQueuedCheckpoint workflowId key).2 } []
  | install {k index : ℕ} {snapshot : WorkflowSnapshot}
      (hk : snapshots[k]? = some (index, snapshot)) (hahead : n.applied < index) :
      Stepped log snapshots nodeId n (.install k)
        { n with stateMachine := .ofSnapshot snapshot, applied := index } []
  | restart : Stepped log snapshots nodeId n (.restart none) {} []
  | restore {k index : ℕ} {snapshot : WorkflowSnapshot}
      (hk : snapshots[k]? = some (index, snapshot)) :
      Stepped log snapshots nodeId n (.restart (some k))
        { stateMachine := .ofSnapshot snapshot, applied := index } []
  | register {workflowType : String} {version : ℕ} {function : F} {registry : WorkflowRegistry F}
      (hregister : n.registry.register workflowType version function = .ok registry) :
      Stepped log snapshots nodeId n (.register workflowType version function)
        { n with registry } []
  | rejected {workflowType : String} {version : ℕ} {function : F} :
      Stepped log snapshots nodeId n (.register workflowType version function) n []
  | startObserver (hnone : n.observer = none) :
      Stepped log snapshots nodeId n .startObserver
        { n with observer := some n.published.length } []
  | observe {next : ℕ} {event : WorkflowEvent} (hobserver : n.observer = some next)
      (hevent : n.published[next]? = some event) :
      Stepped log snapshots nodeId n .observe
        { n with observer := some (next + 1), executions := n.executions ++ spawned event } []
  | lag {next next' : ℕ} (hobserver : n.observer = some next) (hle : next ≤ next') :
      Stepped log snapshots nodeId n .observe { n with observer := some next' } []
  | execute {j : ℕ} {x x' : WorkflowExecution F} {action : ExecutionAction}
      {proposed : List WorkflowCommand} (hj : n.executions[j]? = some x)
      (hx : x.Stepped n nodeId action x' proposed) :
      Stepped log snapshots nodeId n (.execute j action)
        { n with executions := n.executions.set j x' } proposed

theorem ExecutingNode.unpublished_of_free {F : Type} {n : ExecutingNode F} (h : ¬ n.locked) :
    n.unpublished = [] := by
  unfold locked at h
  simpa using h

section
variable [JsonText] {F : Type}

theorem ExecutingNode.step_stepped {log : List WorkflowCommand}
    {snapshots : List (ℕ × WorkflowSnapshot)} {nodeId : ℕ} {n n' : ExecutingNode F}
    {action : NodeAction F} {proposed : List WorkflowCommand}
    (h : n.step log snapshots nodeId action = some (n', proposed)) :
    n.Stepped log snapshots nodeId action n' proposed := by
  cases action with
  | apply =>
    rw [step, Option.ite_none_left_eq_some, Option.map_eq_some_iff] at h
    obtain ⟨hfree, command, hlog, h⟩ := h
    obtain ⟨rfl, rfl⟩ := Prod.mk.inj h
    exact .apply (unpublished_of_free hfree) hlog
  | publish =>
    rw [step] at h
    split at h
    · exact absurd h (by simp)
    · next event unpublished hevent =>
      obtain ⟨rfl, rfl⟩ := Prod.mk.inj (Option.some.inj h)
      exact .publish hevent
  | pop workflowId key =>
    rw [step, Option.ite_none_left_eq_some, Option.some.injEq] at h
    obtain ⟨rfl, rfl⟩ := Prod.mk.inj h.2
    exact .pop workflowId key
  | install k =>
    rw [step] at h
    split at h
    · next m hm =>
      obtain ⟨⟨index, snapshot⟩, hk, rfl⟩ := Option.map_eq_some_iff.mp hm
      rw [Option.ite_none_left_eq_some, not_or, Option.some.injEq] at h
      obtain ⟨⟨-, hahead⟩, h⟩ := h
      obtain ⟨rfl, rfl⟩ := Prod.mk.inj h
      exact .install hk (Nat.lt_of_not_le hahead)
    · exact absurd h (by simp)
  | restart k =>
    cases k with
    | none =>
      obtain ⟨rfl, rfl⟩ := Prod.mk.inj (Option.some.inj h)
      exact .restart
    | some k =>
      rw [step, Option.map_eq_some_iff] at h
      obtain ⟨m, hm, h⟩ := h
      obtain ⟨⟨index, snapshot⟩, hk, rfl⟩ := Option.map_eq_some_iff.mp hm
      obtain ⟨rfl, rfl⟩ := Prod.mk.inj h
      exact .restore hk
  | register workflowType version function =>
    rw [step] at h
    split at h
    · next registry hregister =>
      obtain ⟨rfl, rfl⟩ := Prod.mk.inj (Option.some.inj h)
      exact .register hregister
    · obtain ⟨rfl, rfl⟩ := Prod.mk.inj (Option.some.inj h)
      exact .rejected
  | startObserver =>
    rw [step] at h
    split at h
    · next hnone =>
      obtain ⟨rfl, rfl⟩ := Prod.mk.inj (Option.some.inj h)
      exact .startObserver hnone
    · exact absurd h (by simp)
  | observe =>
    rw [step] at h
    split at h
    · exact absurd h (by simp)
    · next next hobserver =>
      split at h
      · next event next' hrecv =>
        obtain ⟨hevent, rfl⟩ := Broadcast.getElem?_of_recv_value hrecv
        obtain ⟨rfl, rfl⟩ := Prod.mk.inj (Option.some.inj h)
        exact .observe hobserver hevent
      · next next' hrecv =>
        obtain ⟨rfl, rfl⟩ := Prod.mk.inj (Option.some.inj h)
        exact .lag hobserver (Broadcast.le_of_recv_lagged hrecv)
      · exact absurd h (by simp)
  | execute j action =>
    rw [step] at h
    split at h
    · exact absurd h (by simp)
    · next x hj =>
      obtain ⟨⟨x', proposed'⟩, hx, h⟩ := Option.map_eq_some_iff.mp h
      obtain ⟨rfl, rfl⟩ := Prod.mk.inj h
      exact .execute hj (WorkflowExecution.step_stepped hx)

end

end Raftoral

import Raftoral.Lib.Run
import Raftoral.Workflow.Runtime

/-!
# Nodes that execute a workflow together

Any number of nodes with a common log. Each applies the log at its own pace, publishes the
events of what it has applied, and runs the program of the workflow once it has seen it start.
A proposal is in flight until it is appended to the log; the proposer is told once its own
node has applied it.
-/

namespace Raftoral

/-- A workflow as it is started: its owner, and the calls that its body makes. -/
structure StartedWorkflow (T : Type) where
  workflowId : String
  workflowType : String := ""
  version : ℕ := 1
  input : Bytes := []
  owner : ℕ
  program : List (String × T)

/-- The command that starts it. -/
def StartedWorkflow.start {T : Type} (W : StartedWorkflow T) : WorkflowCommand :=
  .workflowStart W.workflowId W.workflowType W.version W.input W.owner

/-- A proposal has an id that its proposer waits for. -/
abbrev Proposal := ℕ × WorkflowCommand

structure Cluster (T : Type) where
  log : List Proposal
  inFlight : List Proposal := []
  nextSyncId : ℕ := 1
  node : ℕ → WorkflowNode T := fun _ => {}

inductive ClusterAction where
  | commit (position : ℕ)
  | apply (nodeId : ℕ)
  | publish (nodeId : ℕ)
  | call (nodeId : ℕ) (c : CallStep)
deriving DecidableEq, Repr

namespace WorkflowNode

variable {T : Type}

/-- The number of entries that were applied and published. -/
def completedEntries (n : WorkflowNode T) : ℕ := if n.locked then n.applied - 1 else n.applied

/-- A committed command is applied; its events are published next. -/
def applyCommand (n : WorkflowNode T) (command : WorkflowCommand) : WorkflowNode T :=
  let (result, sm) := n.sm.apply command
  { n with
    sm
    applied := n.applied + 1
    unpublished := match result with
      | .ok events => events
      | .error _ => [] }

/-- An event reaches the execution; the start of the workflow reaches the observer, which spawns
the execution of the program. -/
def observe (W : StartedWorkflow T) (event : WorkflowEvent) :
    Option (Execution T) → Option (Execution T)
  | some e => some (e.deliver event)
  | none =>
    match event with
    | .workflowStarted startedId _ _ _ =>
      if startedId = W.workflowId then some { calls := W.program } else none
    | _ => none

/-- An execution after an event is the one before, or a new one. -/
theorem observe_cases {W : StartedWorkflow T} {event : WorkflowEvent}
    {exec : Option (Execution T)} {e' : Execution T} (h : observe W event exec = some e') :
    (∃ e, exec = some e ∧ e' = e.deliver event) ∨ exec = none ∧ e' = { calls := W.program } := by
  cases exec with
  | some e =>
    rw [observe, Option.some.injEq] at h
    exact Or.inl ⟨e, rfl, h.symm⟩
  | none =>
    cases event with
    | workflowStarted startedId =>
      simp only [observe] at h
      rw [Option.ite_none_right_eq_some, Option.some.injEq] at h
      exact Or.inr ⟨rfl, h.2.symm⟩
    | _ => exact absurd h (by simp [observe])

theorem observe_eq_none {W : StartedWorkflow T} {event : WorkflowEvent}
    {exec : Option (Execution T)} (h : observe W event exec = none) : exec = none := by
  cases exec with
  | some e => exact absurd h (by simp [observe])
  | none => rfl

end WorkflowNode

namespace Cluster

variable {T : Type} [SerdeJson T]

/-- The proposals a node has completed. -/
def completed (s : Cluster T) (nodeId id : ℕ) : Bool :=
  ((s.log.take (s.node nodeId).completedEntries).map Prod.fst).contains id

/-- One node changes. -/
def update (s : Cluster T) (nodeId : ℕ) (n : WorkflowNode T) : Cluster T :=
  { s with node := Function.update s.node nodeId n }

/-- One step of the cluster that executes a workflow. -/
def step (W : StartedWorkflow T) (s : Cluster T) : ClusterAction → Option (Cluster T)
  | .commit position =>
    match s.inFlight[position]? with
    | none => none
    | some proposal =>
      some { s with log := s.log ++ [proposal], inFlight := s.inFlight.eraseIdx position }
  | .apply nodeId =>
    let n := s.node nodeId
    -- one entry at a time: the events of the last one come first
    if n.locked then none
    else match s.log[n.applied]? with
      | none => none
      | some proposal => some (s.update nodeId (n.applyCommand proposal.2))
  | .publish nodeId =>
    let n := s.node nodeId
    match n.unpublished with
    | [] => none
    | event :: rest =>
      some (s.update nodeId
        { n with
          unpublished := rest
          exec := WorkflowNode.observe W event n.exec })
  | .call nodeId c =>
    match (s.node nodeId).callStep W.workflowId nodeId s.nextSyncId (s.completed nodeId) c with
    | none => none
    | some (n, none) => some (s.update nodeId n)
    | some (n, some command) =>
      some { s.update nodeId n with
        inFlight := s.inFlight ++ [(s.nextSyncId, command)]
        nextSyncId := s.nextSyncId + 1 }

omit [SerdeJson T] in
theorem update_node (s : Cluster T) (i j : ℕ) (n : WorkflowNode T) :
    (s.update i n).node j = if j = i then n else s.node j := by
  show Function.update s.node i n j = _
  rw [Function.update_apply]

/-- The log starts with the command that starts the workflow. -/
def start (W : StartedWorkflow T) : Cluster T := { log := [(0, W.start)] }

end Cluster

/-! ## What is committed and what is returned -/

/-- The values of a key that a list of proposals sets, in order. -/
def committedValues (workflowId key : String) (log : List Proposal) : List Bytes :=
  log.filterMap fun proposal =>
    match proposal.2 with
    | .setCheckpoint commandWorkflowId commandKey value =>
      if commandWorkflowId = workflowId ∧ commandKey = key then some value else none
    | _ => none

/-- What the completed calls on a key have returned, in order. -/
def Execution.values {T : Type} (e : Execution T) (key : String) : List T :=
  (e.returned.filter fun call => call.1 = key).map Prod.snd

/-- The same for a node; one that has not seen the workflow start has returned nothing. -/
def WorkflowNode.returnedValues {T : Type} (n : WorkflowNode T) (key : String) : List T :=
  match n.exec with
  | none => []
  | some e => e.values key

section
variable (workflowId key : String)

theorem committedValues_append (log log' : List Proposal) :
    committedValues workflowId key (log ++ log') =
      committedValues workflowId key log ++ committedValues workflowId key log' :=
  List.filterMap_append

/-- A longer log has the values of a shorter one first. -/
theorem committedValues_take (log : List Proposal) (i : ℕ) :
    committedValues workflowId key (log.take i) <+: committedValues workflowId key log :=
  (List.take_prefix i log).filterMap _

/-- One more entry of the log. -/
theorem committedValues_take_succ {log : List Proposal} {i : ℕ} {proposal : Proposal}
    (h : log[i]? = some proposal) :
    committedValues workflowId key (log.take (i + 1)) =
      committedValues workflowId key (log.take i) ++
        committedValues workflowId key [proposal] := by
  rw [List.take_add_one, h, Option.toList_some, committedValues_append]

theorem committedValues_setCheckpoint (id : ℕ) (key' : String) (value : Bytes) :
    committedValues workflowId key [(id, .setCheckpoint workflowId key' value)] =
      if key = key' then [value] else [] := by
  by_cases h : key = key'
  · simp [committedValues, h]
  · simp [committedValues, h, Ne.symm h]

end

namespace Execution

variable {T : Type}

theorem length_values (e : Execution T) (key : String) :
    (e.values key).length = (e.returned.map Prod.fst).count key := by
  unfold values
  rw [List.length_map, List.count, List.countP_map, List.countP_eq_length_filter]
  congr 1

theorem complete_of_calls {e : Execution T} {key : String} {value : T} {rest : List (String × T)}
    (h : e.calls = (key, value) :: rest) (v : T) :
    e.complete v = { e with
      returned := e.returned ++ [(key, v)]
      calls := rest
      phase := .dequeuing
      subscription := none } := by
  unfold complete
  rw [h]
  rfl

/-- What a completed call adds. -/
theorem values_complete {e : Execution T} {key : String} {value : T} {rest : List (String × T)}
    (h : e.calls = (key, value) :: rest) (v : T) (key' : String) :
    (e.complete v).values key' = e.values key' ++ if key' = key then [v] else [] := by
  rw [complete_of_calls h]
  unfold values
  rw [List.filter_append, List.map_append]
  by_cases hk : key' = key
  · simp [hk]
  · simp [hk, Ne.symm hk]

/-- The call under way of `e` is at the same place in `e'`, or it has returned a value. -/
def Advances (e e' : Execution T) : Prop :=
  e'.returned = e.returned ∧ e'.calls = e.calls ∨
    ∃ call ∈ e.calls.head?, ∃ v, e'.returned = e.returned ++ [(call.1, v)] ∧
      e'.calls = e.calls.tail

theorem advances_complete {e : Execution T} {key : String} {value : T} {rest : List (String × T)}
    (h : e.calls = (key, value) :: rest) (v : T) : e.Advances (e.complete v) := by
  rw [complete_of_calls h]
  exact Or.inr ⟨(key, value), by rw [h]; rfl, v, rfl, by rw [h]; rfl⟩

theorem advances_nextAttempt (e : Execution T) (attempt : ℕ) :
    e.Advances (e.nextAttempt attempt) := by
  unfold nextAttempt
  split
  · exact Or.inl ⟨rfl, rfl⟩
  · exact Or.inl ⟨rfl, rfl⟩

end Execution

/-- What a step of a call makes of the execution. -/
theorem WorkflowNode.CallRun.advances {T : Type} [SerdeJson T] {workflowId : String}
    {nodeId syncId : ℕ} {completed : ℕ → Bool} {n n' : WorkflowNode T} {e : Execution T}
    {key : String} {value : T} {c : CallStep} {proposed : Option WorkflowCommand}
    {rest : List (String × T)} (hcalls : e.calls = (key, value) :: rest)
    (h : CallRun workflowId nodeId syncId completed n e key value c n' proposed) :
    ∃ e', n'.exec = some e' ∧ e.Advances e' := by
  cases h with
  | dequeue hphase hfree =>
    obtain ⟨e', heq, hcases⟩ := n.tryDequeueCheckpoint_cases workflowId key e
    rw [heq]
    refine ⟨e', rfl, ?_⟩
    rcases hcases with ⟨-, rfl⟩ | ⟨bytes, -, ⟨v, -, rfl⟩ | ⟨error, rfl⟩⟩
    · exact Or.inl ⟨rfl, rfl⟩
    · exact Execution.advances_complete hcalls v
    · exact Or.inl ⟨rfl, rfl⟩
  | pop hphase hfree => exact ⟨_, rfl, Execution.advances_complete hcalls value⟩
  -- only the value of a checkpoint completes the call
  | receive attempt event events hphase hsub =>
    refine ⟨_, rfl, ?_⟩
    unfold Execution.receive
    split
    · exact Or.inl ⟨rfl, rfl⟩
    · exact Execution.advances_nextAttempt { e with subscription := some events } attempt
    · next v hextract =>
      exact Execution.advances_complete (e := { e with subscription := some events }) hcalls v
  | recheck attempt hphase hfree =>
    refine ⟨_, rfl, ?_⟩
    unfold Execution.recheck
    split
    · exact e.advances_nextAttempt attempt
    · split
      · exact Or.inl ⟨rfl, rfl⟩
      · exact e.advances_nextAttempt attempt
  | _ => exact ⟨_, rfl, Or.inl ⟨rfl, rfl⟩⟩

/-- What a step of the cluster can make of the execution of a node. -/
inductive Execution.Moves {T : Type} (program : List (String × T)) :
    Option (Execution T) → Option (Execution T) → Prop where
  | stay (exec : Option (Execution T)) : Moves program exec exec
  | advance {e e' : Execution T} (h : e.Advances e') : Moves program (some e) (some e')
  | spawn : Moves program none (some { calls := program })

namespace Cluster

variable {T : Type} [SerdeJson T] {W : StartedWorkflow T} {s s' : Cluster T}

omit [SerdeJson T] in
theorem moves_update (j : ℕ) (n' : WorkflowNode T) (hnode : s'.node = Function.update s.node j n')
    (h : Execution.Moves W.program (s.node j).exec n'.exec) (i : ℕ) :
    Execution.Moves W.program (s.node i).exec (s'.node i).exec := by
  rw [hnode, Function.update_apply]
  by_cases hi : i = j
  · rw [if_pos hi, hi]
    exact h
  · rw [if_neg hi]
    exact .stay _

omit [SerdeJson T] in
theorem moves_observe (event : WorkflowEvent) (exec : Option (Execution T)) :
    Execution.Moves W.program exec (WorkflowNode.observe W event exec) := by
  cases hexec' : WorkflowNode.observe W event exec with
  | none =>
    rw [WorkflowNode.observe_eq_none hexec']
    exact .stay none
  | some e' =>
    rcases WorkflowNode.observe_cases hexec' with ⟨e, rfl, rfl⟩ | ⟨rfl, rfl⟩
    · exact .advance (Or.inl ⟨rfl, rfl⟩)
    · exact .spawn

theorem moves_callStep {workflowId : String} {nodeId syncId : ℕ} {completed : ℕ → Bool}
    {n n' : WorkflowNode T} {c : CallStep} {proposed : Option WorkflowCommand}
    {program : List (String × T)}
    (h : n.callStep workflowId nodeId syncId completed c = some (n', proposed)) :
    Execution.Moves program n.exec n'.exec := by
  obtain ⟨e, key, value, rest, hexec, -, hcalls, hrun⟩ := WorkflowNode.callStep_run h
  obtain ⟨e', hexec', hadvances⟩ := hrun.advances hcalls
  rw [hexec, hexec']
  exact .advance hadvances

/-- Every step moves every execution. -/
theorem moves_step {a : ClusterAction} (h : s.step W a = some s') (i : ℕ) :
    Execution.Moves W.program (s.node i).exec (s'.node i).exec := by
  cases a with
  | commit position =>
    simp only [Cluster.step] at h
    split at h
    · exact absurd h (by simp)
    · obtain rfl := Option.some.inj h
      exact .stay _
  | apply j =>
    simp only [Cluster.step] at h
    split at h
    · exact absurd h (by simp)
    · split at h
      · exact absurd h (by simp)
      · next proposal hget =>
        obtain rfl := Option.some.inj h
        refine moves_update j ((s.node j).applyCommand proposal.2) rfl ?_ i
        exact .stay _
  | publish j =>
    simp only [Cluster.step] at h
    split at h
    · exact absurd h (by simp)
    · next event events hun =>
      obtain rfl := Option.some.inj h
      exact moves_update j _ rfl (moves_observe event _) i
  | call j c =>
    simp only [Cluster.step] at h
    split at h
    · exact absurd h (by simp)
    · -- with or without a proposal, the node is the one the call has left
      next n' hcall =>
      obtain rfl := Option.some.inj h
      exact moves_update j n' rfl (moves_callStep hcall) i
    · next n' command hcall =>
      obtain rfl := Option.some.inj h
      exact moves_update j n' rfl (moves_callStep hcall) i

end Cluster

end Raftoral

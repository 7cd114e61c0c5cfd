import Raftoral.Workflow.Executions

/-!
# Where results come from

What a node holds as the result of a workflow, and what callers are told, is what a function that
was registered for the workflow has made of an input that it was started on. The records of a state
machine come from its log (`Recorded`), the functions that run were looked up and given such inputs
(`ExecutingNode.Right`), and the ends that are proposed carry what these have returned.
-/

namespace Raftoral

open Transition

/-! ## The starts in a log -/

/-- The log starts the workflow with this type and version. -/
def StartedAs (log : List WorkflowCommand) (workflowId workflowType : String) (version : ℕ) :
    Prop :=
  ∃ input owner, .workflowStart workflowId workflowType version input owner ∈ log

/-- The log starts the workflow with this input. -/
def StartedOn (log : List WorkflowCommand) (workflowId : String) (input : Bytes) : Prop :=
  ∃ workflowType version owner, .workflowStart workflowId workflowType version input owner ∈ log

theorem StartedAs.mono {log log' : List WorkflowCommand} (hlog : log ⊆ log')
    {workflowId workflowType : String} {version : ℕ}
    (h : StartedAs log workflowId workflowType version) :
    StartedAs log' workflowId workflowType version := by
  obtain ⟨input, owner, h⟩ := h
  exact ⟨input, owner, hlog h⟩

theorem StartedOn.mono {log log' : List WorkflowCommand} (hlog : log ⊆ log')
    {workflowId : String} {input : Bytes} (h : StartedOn log workflowId input) :
    StartedOn log' workflowId input := by
  obtain ⟨workflowType, version, owner, h⟩ := h
  exact ⟨workflowType, version, owner, hlog h⟩

/-- What a state machine holds of a workflow comes from the log. -/
structure Recorded (log : List WorkflowCommand) (sm : WorkflowStateMachine) : Prop where
  input : ∀ w input, (sm.record w).input = some input → StartedOn log w input
  result : ∀ w result, (sm.record w).result = some result → .workflowEnd w result ∈ log

namespace Recorded

variable {log log' : List WorkflowCommand} {sm sm' : WorkflowStateMachine}

theorem empty (log : List WorkflowCommand) : Recorded log {} :=
  ⟨fun w input h => absurd h (by simp [WorkflowStateMachine.record, WorkflowStateMachine.getInput]),
    fun w result h =>
      absurd h (by simp [WorkflowStateMachine.record, WorkflowStateMachine.getResult])⟩

theorem mono (h : Recorded log sm) (hlog : log ⊆ log') : Recorded log' sm :=
  ⟨fun w input hinput => (h.input w input hinput).mono hlog,
    fun w result hresult => hlog (h.result w result hresult)⟩

theorem of_record (h : Recorded log sm) (hrecord : ∀ w, sm'.record w = sm.record w) :
    Recorded log sm' :=
  ⟨fun w input hinput => h.input w input (hrecord w ▸ hinput),
    fun w result hresult => h.result w result (hrecord w ▸ hresult)⟩

theorem apply (h : Recorded log sm) {command : WorkflowCommand} (hmem : command ∈ log) :
    Recorded log (sm.apply command).2 := by
  refine ⟨fun w input hinput => ?_, fun w result hresult => ?_⟩
  · rw [record_apply] at hinput
    cases command with
    | setCheckpoint => exact h.input w input hinput
    | workflowStart workflowId workflowType version input' owner =>
      rw [WorkflowRecord.apply] at hinput
      split_ifs at hinput with hid
      · obtain rfl := Option.some.inj hinput
        exact ⟨workflowType, version, owner, hid ▸ hmem⟩
      · exact h.input w input hinput
    | workflowEnd workflowId result =>
      rw [WorkflowRecord.apply] at hinput
      split_ifs at hinput
      exact h.input w input hinput
    | ownerChange workflowId oldOwner newOwner reason =>
      rw [WorkflowRecord.apply] at hinput
      split_ifs at hinput
      all_goals exact h.input w input hinput
  · rw [record_apply] at hresult
    rcases WorkflowRecord.mem_of_result_foldl w (sm.record w) [command] hresult with hend | hold
    · rwa [← List.mem_singleton.mp hend] at hmem
    · exact h.result w result hold

end Recorded

theorem record_popQueuedCheckpoint (sm : WorkflowStateMachine) (workflowId key w : String) :
    (sm.popQueuedCheckpoint workflowId key).2.record w = sm.record w := by
  rcases sm.popQueuedCheckpoint_cases workflowId key with ⟨-, hpop⟩ | ⟨q, -, hpop⟩
  · rw [hpop]
  · rw [hpop]
    rfl

/-- A snapshot holds all records. -/
theorem record_ofSnapshot (sm : WorkflowStateMachine) (w : String) :
    (WorkflowStateMachine.ofSnapshot sm.toSnapshot).record w = sm.record w := rfl

/-- An event tells of a command of the log. -/
def ComesFrom (log : List WorkflowCommand) : WorkflowEvent → Prop
  | .workflowStarted workflowId workflowType version _ =>
    StartedAs log workflowId workflowType version
  | .workflowCompleted workflowId result => .workflowEnd workflowId result ∈ log
  | .workflowFailed _ _ => False
  | .checkpointSet _ _ _ | .ownershipChanged _ _ _ => True

theorem ComesFrom.mono {log log' : List WorkflowCommand} (hlog : log ⊆ log')
    {event : WorkflowEvent} (h : ComesFrom log event) : ComesFrom log' event := by
  cases event with
  | workflowStarted => exact StartedAs.mono hlog h
  | workflowCompleted => exact hlog h
  | workflowFailed => exact h
  | checkpointSet => trivial
  | ownershipChanged => trivial

theorem comesFrom_eventsOf (sm : WorkflowStateMachine) {log : List WorkflowCommand}
    {command : WorkflowCommand} (hmem : command ∈ log) {event : WorkflowEvent}
    (h : event ∈ WorkflowStateMachine.eventsOf (sm.apply command).1) : ComesFrom log event := by
  cases command with
  | workflowStart workflowId workflowType version input owner =>
    obtain rfl := List.mem_singleton.mp h
    exact ⟨input, owner, hmem⟩
  | workflowEnd workflowId result =>
    obtain rfl := List.mem_singleton.mp h
    exact hmem
  | setCheckpoint workflowId key value =>
    obtain rfl := List.mem_singleton.mp h
    trivial
  | ownerChange workflowId oldOwner newOwner reason =>
    obtain rfl := List.mem_singleton.mp h
    trivial

section
variable [JsonText] {F : Type} (computes : F → Bytes → Except WorkflowError Bytes → Prop)
  (spec : String → ℕ → Bytes → Except WorkflowError Bytes → Prop)

/-- All that the function can make of an input is right for the type and version. -/
def Meets (function : F) (workflowType : String) (version : ℕ) : Prop :=
  ∀ input result, computes function input result → spec workflowType version input result

/-- The bytes are a right result for a type and version of the workflow, on an input of it. -/
def ResultOf (log : List WorkflowCommand) (workflowId : String) (bytes : Bytes) : Prop :=
  ∃ workflowType version input result, StartedAs log workflowId workflowType version ∧
    StartedOn log workflowId input ∧ spec workflowType version input result ∧
      bytes = resultBytesOf result

variable {spec} in
theorem ResultOf.mono {log log' : List WorkflowCommand} (hlog : log ⊆ log') {workflowId : String}
    {bytes : Bytes} (h : ResultOf spec log workflowId bytes) :
    ResultOf spec log' workflowId bytes := by
  obtain ⟨workflowType, version, input, result, has, hon, hrest⟩ := h
  exact ⟨workflowType, version, input, result, has.mono hlog, hon.mono hlog, hrest⟩

/-- What an execution holds is right so far. -/
def WorkflowExecution.Right (log : List WorkflowCommand) (x : WorkflowExecution F) : Prop :=
  StartedAs log x.workflowId x.workflowType x.version ∧
    match x.phase with
    | .lookingUp | .abandoned => True
    | .readingInput function => Meets computes spec function x.workflowType x.version
    | .executing function input =>
      Meets computes spec function x.workflowType x.version ∧ StartedOn log x.workflowId input
    | .recording resultBytes _ => ResultOf spec log x.workflowId resultBytes

structure ExecutingNode.Right (log : List WorkflowCommand) (n : ExecutingNode F) : Prop where
  recorded : Recorded log n.stateMachine
  events : ∀ event ∈ n.published ++ n.unpublished, ComesFrom log event
  registry : ∀ p ∈ n.registry.workflows, Meets computes spec p.2 p.1.1 p.1.2
  executions : ∀ x ∈ n.executions, x.Right computes spec log

structure Executions.Right (s : Executions F) : Prop where
  ends : ∀ w result, .workflowEnd w result ∈ s.log ++ s.inFlight → ResultOf spec s.log w result
  snapshots : ∀ p ∈ s.snapshots, Recorded s.log (.ofSnapshot p.2)
  nodes : ∀ nodeId, (s.nodes nodeId).Right computes spec s.log

/-- Functions meet the specification of what they are registered as, and return what they
compute. -/
def Executions.Honest (s : Executions F) : ExecutionsOp F → Prop
  | .node _ (.register workflowType version function) =>
    Meets computes spec function workflowType version
  | .node nodeId (.execute j (.finish result)) =>
    ∀ x function input, (s.nodes nodeId).executions[j]? = some x →
      x.phase = .executing function input → computes function input result
  | _ => True

variable {computes} {spec} {log log' : List WorkflowCommand}

theorem WorkflowExecution.Right.mono {x : WorkflowExecution F} (h : x.Right computes spec log)
    (hlog : log ⊆ log') : x.Right computes spec log' := by
  obtain ⟨has, hphase⟩ := h
  refine ⟨has.mono hlog, ?_⟩
  split
  · trivial
  · trivial
  · next function hx => simpa only [hx] using hphase
  · next function input hx =>
    simp only [hx] at hphase
    exact ⟨hphase.1, hphase.2.mono hlog⟩
  · next resultBytes call hx =>
    simp only [hx] at hphase
    exact hphase.mono hlog

theorem ExecutingNode.Right.mono {n : ExecutingNode F} (h : n.Right computes spec log)
    (hlog : log ⊆ log') : n.Right computes spec log' :=
  ⟨h.recorded.mono hlog, fun event hevent => (h.events event hevent).mono hlog, h.registry,
    fun x hx => (h.executions x hx).mono hlog⟩

/-- What an execution proposes is right, and what it goes on with. -/
theorem WorkflowExecution.Right.step {n : ExecutingNode F} {nodeId : ℕ}
    {x x' : WorkflowExecution F} {action : ExecutionAction} {proposed : List WorkflowCommand}
    (hn : n.Right computes spec log) (hx : x.Right computes spec log)
    (hhonest : ∀ result function input, action = .finish result →
      x.phase = .executing function input → computes function input result)
    (h : x.Stepped n nodeId action x' proposed) :
    x'.Right computes spec log ∧ ∀ command ∈ proposed, ∃ bytes,
      command = .workflowEnd x.workflowId bytes ∧ ResultOf spec log x.workflowId bytes := by
  obtain ⟨has, hright⟩ := hx
  cases h with
  | found hphase hget =>
    exact ⟨⟨has, hn.registry _ (WorkflowRegistry.mem_of_get hget)⟩, by simp⟩
  | abandon hphase => exact ⟨⟨has, trivial⟩, by simp⟩
  | read hphase hinput =>
    rw [hphase] at hright
    exact ⟨⟨has, hright, hn.recorded.input x.workflowId _ hinput⟩, by simp⟩
  | @finish function input hphase result =>
    rw [hphase] at hright
    obtain ⟨hmeets, hon⟩ := hright
    have hspec := hmeets input result (hhonest result function input rfl hphase)
    exact ⟨⟨has, x.workflowType, x.version, input, result, has, hon, hspec, rfl⟩, by simp⟩
  | @record resultBytes call call' hphase action hof hcall =>
    rw [hphase] at hright
    refine ⟨⟨has, hright⟩, fun command hcommand => ?_⟩
    cases action with
    | invoke => exact ⟨resultBytes, List.mem_singleton.mp hcommand, hright⟩
    | _ => exact absurd hcommand (by simp [WorkflowExecution.proposals])

theorem ExecutingNode.Right.step {snapshots : List (ℕ × WorkflowSnapshot)} {nodeId : ℕ}
    {n n' : ExecutingNode F} {action : NodeAction F} {proposed : List WorkflowCommand}
    (hsnapshots : ∀ p ∈ snapshots, Recorded log (.ofSnapshot p.2))
    (hn : n.Right computes spec log)
    (hregister : ∀ workflowType version function,
      action = .register workflowType version function →
        Meets computes spec function workflowType version)
    (hfinish : ∀ j result x function input, action = .execute j (.finish result) →
      n.executions[j]? = some x → x.phase = .executing function input →
        computes function input result)
    (h : n.Stepped log snapshots nodeId action n' proposed) :
    n'.Right computes spec log ∧ ∀ command ∈ proposed, ∃ w bytes,
      command = .workflowEnd w bytes ∧ ResultOf spec log w bytes := by
  cases h with
  | apply hfree hlog =>
    have hmem := List.mem_of_getElem? hlog
    refine ⟨⟨hn.recorded.apply hmem, fun event hevent => ?_, hn.registry, hn.executions⟩, by simp⟩
    rcases List.mem_append.mp hevent with hpublished | hnew
    · exact hn.events event (List.mem_append_left _ hpublished)
    · exact comesFrom_eventsOf n.stateMachine hmem hnew
  | publish hevent =>
    refine ⟨⟨hn.recorded, fun event he => hn.events event ?_, hn.registry, hn.executions⟩, by simp⟩
    rw [hevent]
    simpa using he
  | pop workflowId key =>
    have hrecorded := hn.recorded.of_record fun w =>
      record_popQueuedCheckpoint n.stateMachine workflowId key w
    exact ⟨⟨hrecorded, hn.events, hn.registry, hn.executions⟩, by simp⟩
  | install hk hahead =>
    have hrecorded := hsnapshots _ (List.mem_of_getElem? hk)
    exact ⟨⟨hrecorded, hn.events, hn.registry, hn.executions⟩, by simp⟩
  | restart => exact ⟨⟨.empty log, by simp, by simp, by simp⟩, by simp⟩
  | restore hk =>
    exact ⟨⟨hsnapshots _ (List.mem_of_getElem? hk), by simp, by simp, by simp⟩, by simp⟩
  | @register workflowType version function registry hok =>
    refine ⟨⟨hn.recorded, hn.events, fun p hp => ?_, hn.executions⟩, by simp⟩
    rw [WorkflowRegistry.register] at hok
    split_ifs at hok
    obtain rfl := Except.ok.inj hok
    rcases List.mem_cons.mp hp with rfl | hp
    · exact hregister workflowType version function rfl
    · exact hn.registry p hp
  | rejected => exact ⟨hn, by simp⟩
  | startObserver => exact ⟨⟨hn.recorded, hn.events, hn.registry, hn.executions⟩, by simp⟩
  | @observe next event hobserver hevent =>
    refine ⟨⟨hn.recorded, hn.events, hn.registry, fun x hx => ?_⟩, by simp⟩
    rcases List.mem_append.mp hx with hold | hnew
    · exact hn.executions x hold
    · have hfrom := hn.events event (List.mem_append_left _ (List.mem_of_getElem? hevent))
      cases event with
      | workflowStarted =>
        obtain rfl := List.mem_singleton.mp hnew
        exact ⟨hfrom, trivial⟩
      | _ => exact absurd hnew (by simp [spawned])
  | lag => exact ⟨⟨hn.recorded, hn.events, hn.registry, hn.executions⟩, by simp⟩
  | @execute j x x' action proposed hj hx =>
    -- only an execution proposes
    obtain ⟨hright, hproposed⟩ := (hn.executions x (List.mem_of_getElem? hj)).step hn
      (fun result function input haction hphase =>
        hfinish j result x function input (by rw [haction]) hj hphase) hx
    refine ⟨⟨hn.recorded, hn.events, hn.registry, fun y hy => ?_⟩, fun command hcommand =>
      ⟨x.workflowId, hproposed command hcommand⟩⟩
    rcases List.mem_or_eq_of_mem_set hy with hold | rfl
    · exact hn.executions y hold
    · exact hright

namespace Executions

variable {s s' : Executions F}

/-- What others propose ends no workflow. -/
theorem Right.propose (h : s.Right computes spec) {command : WorkflowCommand}
    (hcommand : ∀ w result, command ≠ .workflowEnd w result) :
    (s.propose [command]).Right computes spec := by
  refine ⟨fun w result hend => h.ends w result ?_, h.snapshots, h.nodes⟩
  rw [Executions.propose, ← List.append_assoc, List.mem_append, List.mem_singleton] at hend
  exact hend.resolve_right fun heq => hcommand w result heq.symm

theorem Right.step (h : s.Right computes spec) {op : ExecutionsOp F}
    (hhonest : s.Honest computes spec op) (hstep : s.step op = some s') :
    s'.Right computes spec := by
  cases op with
  | startWorkflow nodeId workflowId workflowType version input =>
    obtain rfl := Option.some.inj hstep
    exact h.propose (by simp)
  | setCheckpoint workflowId key value =>
    obtain rfl := Option.some.inj hstep
    exact h.propose (by simp)
  | changeOwner workflowId oldOwnerNodeId newOwnerNodeId reason =>
    obtain rfl := Option.some.inj hstep
    exact h.propose (by simp)
  | commit k =>
    obtain ⟨command, hk, rfl⟩ := Option.map_eq_some_iff.mp hstep
    have hlog : s.log ⊆ s.log ++ [command] := List.subset_append_left _ _
    refine ⟨fun w result hend => (h.ends w result ?_).mono hlog,
      fun p hp => (h.snapshots p hp).mono hlog, fun nodeId => (h.nodes nodeId).mono hlog⟩
    simp only [List.mem_append, List.mem_singleton] at hend ⊢
    -- an end in the log was in flight before
    rcases hend with (hlogged | rfl) | hflying
    · exact Or.inl hlogged
    · exact Or.inr (List.mem_of_getElem? hk)
    · exact Or.inr (List.mem_of_mem_eraseIdx hflying)
  | lose k =>
    obtain rfl := Option.some.inj hstep
    refine ⟨fun w result hend => h.ends w result ?_, h.snapshots, h.nodes⟩
    rcases List.mem_append.mp hend with hlogged | hflying
    · exact List.mem_append_left _ hlogged
    · exact List.mem_append_right _ (List.mem_of_mem_eraseIdx hflying)
  | takeSnapshot nodeId =>
    rw [Executions.step, Option.ite_none_left_eq_some, Option.some.injEq] at hstep
    obtain ⟨-, rfl⟩ := hstep
    refine ⟨h.ends, fun p hp => ?_, h.nodes⟩
    rcases List.mem_append.mp hp with hold | hnew
    · exact h.snapshots p hold
    · obtain rfl := List.mem_singleton.mp hnew
      exact (h.nodes nodeId).recorded.of_record (record_ofSnapshot _)
  | node nodeId action =>
    obtain ⟨⟨n', proposed⟩, hn', rfl⟩ := Option.map_eq_some_iff.mp hstep
    obtain ⟨hright, hproposed⟩ := (h.nodes nodeId).step h.snapshots
      (fun workflowType version function haction => by
        rw [haction] at hhonest
        exact hhonest)
      (fun j result x function input haction hj hphase => by
        rw [haction] at hhonest
        exact hhonest x function input hj hphase)
      (ExecutingNode.step_stepped hn')
    refine ⟨fun w result hend => ?_, h.snapshots, fun other => ?_⟩
    · rw [Executions.propose, ← List.append_assoc, List.mem_append] at hend
      rcases hend with hold | hnew
      · exact h.ends w result hold
      -- what a node proposes is the result of an execution of it
      · obtain ⟨w', bytes, heq, hresult⟩ := hproposed _ hnew
        obtain ⟨rfl, rfl⟩ := WorkflowCommand.workflowEnd.inj heq
        exact hresult
    · show (Function.update s.nodes nodeId n' other).Right computes spec s.log
      by_cases hother : other = nodeId
      · rw [hother, Function.update_self]
        exact hright
      · rw [Function.update_of_ne hother]
        exact h.nodes other

end Executions

end

/-! ## What is recorded and what callers are told -/

section
variable [JsonText] {O : Type} [SerdeValue O]

/-- An answer was read from the receipts. -/
def AnsweredFrom (workflowId : String) (receipts : List EventReceipt)
    (answer : Except WorkflowError O) : Prop :=
  answer = .error (.clusterError "Event channel closed") ∨
    (∃ result, .event (.workflowCompleted workflowId result) ∈ receipts ∧
      answer = completion result) ∨
    ∃ error, .event (.workflowFailed workflowId error) ∈ receipts

theorem AnsweredFrom.cons {workflowId : String} {receipts : List EventReceipt}
    {answer : Except WorkflowError O} (h : AnsweredFrom workflowId receipts answer)
    (receipt : EventReceipt) : AnsweredFrom workflowId (receipt :: receipts) answer := by
  rcases h with hclosed | ⟨result, hmem, hanswer⟩ | ⟨error, hmem⟩
  · exact Or.inl hclosed
  · exact Or.inr (Or.inl ⟨result, List.mem_cons_of_mem receipt hmem, hanswer⟩)
  · exact Or.inr (Or.inr ⟨error, List.mem_cons_of_mem receipt hmem⟩)

variable {F : Type} (O)

variable {O}

namespace Executions

variable {computes : F → Bytes → Except WorkflowError Bytes → Prop}
  {spec : String → ℕ → Bytes → Except WorkflowError Bytes → Prop} {s : Executions F}

end Executions

end

/-! A workflow that returns 7 is started on node 1 and executed there, and node 2 applies its
end. -/

section
open scoped Codec

end

end Raftoral

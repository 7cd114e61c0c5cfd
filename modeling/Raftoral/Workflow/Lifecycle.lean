import Raftoral.Workflow.Checkpoints

/-!
# The lifecycle of a workflow

Status, input, result and owner of a workflow stand in four maps, and every command writes some
of them without looking at the others. What they hold for one workflow is its `WorkflowRecord`,
and a list of commands makes of it what the commands of that workflow make:

* the four maps fit together unless a workflow that has ended is started again, or one is ended
  that nobody has given an owner;
* a completed workflow stays as it is unless another end brings another result, or a checkpoint
  comes late.
-/

namespace Raftoral

open WorkflowStateMachine

/-! ## The record of a workflow -/

/-- What the state machine holds of one workflow, its checkpoints apart. -/
structure WorkflowRecord where
  status : Option WorkflowStatus
  input : Option Bytes
  result : Option Bytes
  owner : Option ℕ
deriving DecidableEq

def WorkflowStateMachine.record (sm : WorkflowStateMachine) (w : String) : WorkflowRecord where
  status := sm.getWorkflowStatus w
  input := sm.getInput w
  result := sm.getResult w
  owner := sm.getOwner w

/-- What a command makes of the record. -/
def WorkflowRecord.apply (w : String) (r : WorkflowRecord) : WorkflowCommand → WorkflowRecord
  | .workflowStart workflowId _ _ input ownerNodeId =>
    if workflowId = w then
      { r with status := some .running, input := some input, owner := some ownerNodeId }
    else r
  | .workflowEnd workflowId result =>
    if workflowId = w then
      { r with status := some .completed, input := none, result := some result }
    else r
  | .setCheckpoint _ _ _ => r
  | .ownerChange workflowId _ newOwnerNodeId _ =>
    if workflowId = w then { r with owner := some newOwnerNodeId } else r

theorem record_apply (sm : WorkflowStateMachine) (command : WorkflowCommand) (w : String) :
    (sm.apply command).2.record w = (sm.record w).apply w command := by
  cases command with
  | workflowStart workflowId workflowType version input ownerNodeId =>
    simp only [record, WorkflowStateMachine.apply, WorkflowRecord.apply, getWorkflowStatus,
      getInput, getResult, getOwner, Std.ExtTreeMap.getElem?_insert]
    by_cases h : workflowId = w
    · simp [h]
    · simp [h]
  | workflowEnd workflowId result =>
    simp only [record, WorkflowStateMachine.apply, WorkflowRecord.apply, getWorkflowStatus,
      getInput, getResult, getOwner, Std.ExtTreeMap.getElem?_insert, Std.ExtTreeMap.getElem?_erase]
    by_cases h : workflowId = w
    · simp [h]
    · simp [h]
  | setCheckpoint workflowId key value => rfl
  | ownerChange workflowId oldOwnerNodeId newOwnerNodeId reason =>
    simp only [record, WorkflowStateMachine.apply, WorkflowRecord.apply, getWorkflowStatus,
      getInput, getResult, getOwner, Std.ExtTreeMap.getElem?_insert]
    by_cases h : workflowId = w
    · simp [h]
    · simp [h]

theorem record_applyAll (sm : WorkflowStateMachine) (commands : List WorkflowCommand) (w : String) :
    (sm.applyAll commands).2.record w = commands.foldl (WorkflowRecord.apply w) (sm.record w) := by
  induction commands generalizing sm with
  | nil => rfl
  | cons command commands ih =>
    rw [applyAll, ih, record_apply, List.foldl_cons]

/-! ## What the commands have made -/

/-- The status a command gives to a workflow. -/
def WorkflowCommand.statusOf (w : String) : WorkflowCommand → Option WorkflowStatus
  | .workflowStart workflowId _ _ _ _ => if workflowId = w then some .running else none
  | .workflowEnd workflowId _ => if workflowId = w then some .completed else none
  | .setCheckpoint _ _ _ | .ownerChange _ _ _ _ => none

def WorkflowCommand.endsWorkflow (w : String) : WorkflowCommand → Bool
  | .workflowEnd workflowId _ => workflowId == w
  | .workflowStart _ _ _ _ _ | .setCheckpoint _ _ _ | .ownerChange _ _ _ _ => false

def WorkflowCommand.startsWorkflow (w : String) : WorkflowCommand → Bool
  | .workflowStart workflowId _ _ _ _ => workflowId == w
  | .workflowEnd _ _ | .setCheckpoint _ _ _ | .ownerChange _ _ _ _ => false

/-- The command gives the workflow an owner. -/
def WorkflowCommand.setsOwner (w : String) : WorkflowCommand → Bool
  | .workflowStart workflowId _ _ _ _ | .ownerChange workflowId _ _ _ => workflowId == w
  | .workflowEnd _ _ | .setCheckpoint _ _ _ => false

namespace WorkflowRecord

variable (w : String) (r : WorkflowRecord) (command : WorkflowCommand)

theorem status_apply : (r.apply w command).status = (command.statusOf w).or r.status := by
  cases command with
  | setCheckpoint workflowId key value => rfl
  | _ =>
    simp only [apply, WorkflowCommand.statusOf]
    split <;> rfl

theorem result_apply :
    (r.apply w command).result.isSome = (command.endsWorkflow w || r.result.isSome) := by
  cases command with
  | setCheckpoint workflowId key value => rfl
  | workflowEnd workflowId result =>
    by_cases h : workflowId = w
    · simp [apply, WorkflowCommand.endsWorkflow, h]
    · simp [apply, WorkflowCommand.endsWorkflow, h]
  | _ =>
    simp only [apply, WorkflowCommand.endsWorkflow, Bool.false_or]
    split <;> rfl

theorem owner_apply :
    (r.apply w command).owner.isSome = (command.setsOwner w || r.owner.isSome) := by
  cases command with
  | setCheckpoint workflowId key value => rfl
  | workflowEnd workflowId result =>
    simp only [apply, WorkflowCommand.setsOwner, Bool.false_or]
    split <;> rfl
  | workflowStart workflowId workflowType version input ownerNodeId =>
    by_cases h : workflowId = w
    · simp [apply, WorkflowCommand.setsOwner, h]
    · simp [apply, WorkflowCommand.setsOwner, h]
  | ownerChange workflowId oldOwnerNodeId newOwnerNodeId reason =>
    by_cases h : workflowId = w
    · simp [apply, WorkflowCommand.setsOwner, h]
    · simp [apply, WorkflowCommand.setsOwner, h]

/-- The input is there while the workflow runs. -/
def InputFits (r : WorkflowRecord) : Prop := r.input.isSome ↔ r.status = some .running

variable {r} in
theorem InputFits.apply (h : r.InputFits) : (r.apply w command).InputFits := by
  cases command with
  | setCheckpoint workflowId key value => exact h
  | _ =>
    simp only [WorkflowRecord.apply]
    split
    · simp_all [InputFits]
    · exact h

/-! ## Lists of commands -/

variable (commands : List WorkflowCommand)

/-- The last command about the status counts. -/
theorem status_foldl : (commands.foldl (WorkflowRecord.apply w) r).status =
    (commands.filterMap (WorkflowCommand.statusOf w)).getLast?.or r.status := by
  induction commands generalizing r with
  | nil => rfl
  | cons command commands ih =>
    rw [List.foldl_cons, ih, status_apply]
    cases h : command.statusOf w with
    | none => rw [List.filterMap_cons_none h, Option.none_or]
    | some status =>
      rw [List.filterMap_cons_some h, List.getLast?_cons, Option.some_or]
      cases (commands.filterMap (WorkflowCommand.statusOf w)).getLast? <;> rfl

theorem result_foldl : (commands.foldl (WorkflowRecord.apply w) r).result.isSome =
    (commands.any (WorkflowCommand.endsWorkflow w) || r.result.isSome) := by
  induction commands generalizing r with
  | nil => rfl
  | cons command commands ih =>
    rw [List.foldl_cons, ih, result_apply, List.any_cons, Bool.or_left_comm, Bool.or_assoc]

/-- A result was brought by an end. -/
theorem mem_of_result_foldl {result : Bytes}
    (h : (commands.foldl (WorkflowRecord.apply w) r).result = some result) :
    .workflowEnd w result ∈ commands ∨ r.result = some result := by
  induction commands generalizing r with
  | nil => exact Or.inr h
  | cons command commands ih =>
    rcases ih _ h with hmem | hr
    · exact Or.inl (List.mem_cons_of_mem command hmem)
    · cases command with
      | setCheckpoint workflowId key value => exact Or.inr hr
      | workflowEnd workflowId result' =>
        rw [apply] at hr
        split_ifs at hr with hid
        · obtain rfl := Option.some.inj hr
          exact Or.inl (hid ▸ List.mem_cons_self)
        · exact Or.inr hr
      | _ =>
        rw [apply] at hr
        split_ifs at hr
        all_goals exact Or.inr hr

theorem owner_foldl : (commands.foldl (WorkflowRecord.apply w) r).owner.isSome =
    (commands.any (WorkflowCommand.setsOwner w) || r.owner.isSome) := by
  induction commands generalizing r with
  | nil => rfl
  | cons command commands ih =>
    rw [List.foldl_cons, ih, owner_apply, List.any_cons, Bool.or_left_comm, Bool.or_assoc]

variable {r} in
theorem InputFits.foldl (h : r.InputFits) :
    (commands.foldl (WorkflowRecord.apply w) r).InputFits := by
  induction commands generalizing r with
  | nil => exact h
  | cons command commands ih => exact ih (h.apply w command)

/-- The four maps fit together. -/
structure Consistent (r : WorkflowRecord) : Prop where
  input : r.input.isSome ↔ r.status = some .running
  result : r.result.isSome ↔ r.status = some .completed
  owner : r.status.isSome → r.owner.isSome

end WorkflowRecord

/-- A workflow whose end was applied has a result. -/
theorem isSome_getResult_of_mem {commands : List WorkflowCommand} {workflowId : String}
    {bytes : Bytes} (h : .workflowEnd workflowId bytes ∈ commands) :
    ((applyAll {} commands).2.getResult workflowId).isSome = true := by
  have hany : commands.any (WorkflowCommand.endsWorkflow workflowId) = true :=
    List.any_eq_true.mpr ⟨_, h, by simp [WorkflowCommand.endsWorkflow]⟩
  have hrecord := congrArg (fun r => r.result.isSome)
    (record_applyAll {} commands workflowId)
  rw [WorkflowRecord.result_foldl, hany, Bool.true_or] at hrecord
  exact hrecord

/-- A result was brought by the end of the workflow. -/
theorem mem_of_getResult {commands : List WorkflowCommand} {workflowId : String}
    {bytes : Bytes} (h : (applyAll {} commands).2.getResult workflowId = some bytes) :
    .workflowEnd workflowId bytes ∈ commands := by
  have hrecord := congrArg WorkflowRecord.result (record_applyAll {} commands workflowId)
  rcases WorkflowRecord.mem_of_result_foldl _ _ _ (hrecord.symm.trans h) with hmem | hinit
  · exact hmem
  · exact absurd hinit (by simp [record, getResult])

/-! ## Consistency -/

/-- A status comes from a start or an end. -/
theorem WorkflowCommand.of_statusOf {w : String} {command : WorkflowCommand}
    {status : WorkflowStatus} (h : command.statusOf w = some status) :
    status = .running ∧ command.setsOwner w ∨ status = .completed ∧ command.endsWorkflow w := by
  cases command with
  | workflowStart workflowId workflowType version input ownerNodeId =>
    rw [WorkflowCommand.statusOf, Option.ite_none_right_eq_some, Option.some.injEq] at h
    exact Or.inl ⟨h.2.symm, by simp [WorkflowCommand.setsOwner, h.1]⟩
  | workflowEnd workflowId result =>
    rw [WorkflowCommand.statusOf, Option.ite_none_right_eq_some, Option.some.injEq] at h
    exact Or.inr ⟨h.2.symm, by simp [WorkflowCommand.endsWorkflow, h.1]⟩
  | setCheckpoint workflowId key value => exact absurd h (by simp [WorkflowCommand.statusOf])
  | ownerChange workflowId oldOwnerNodeId newOwnerNodeId reason =>
    exact absurd h (by simp [WorkflowCommand.statusOf])

/-- After any commands from the start on, the maps fit together for a workflow exactly when it
was never ended, or its last start or end is an end and some command has given it an owner. -/
theorem maps_consistent_iff (commands : List WorkflowCommand) (w : String) :
    ((applyAll {} commands).2.record w).Consistent ↔
      (commands.any (WorkflowCommand.endsWorkflow w) →
        (commands.filterMap (WorkflowCommand.statusOf w)).getLast? = some .completed ∧
          commands.any (WorkflowCommand.setsOwner w)) := by
  rw [record_applyAll]
  set r := commands.foldl (WorkflowRecord.apply w) (({} : WorkflowStateMachine).record w) with hr
  have hstatus : r.status = (commands.filterMap (WorkflowCommand.statusOf w)).getLast? := by
    rw [hr, WorkflowRecord.status_foldl]
    exact Option.or_none
  have hresult : r.result.isSome = commands.any (WorkflowCommand.endsWorkflow w) := by
    rw [hr, WorkflowRecord.result_foldl]
    exact Bool.or_false _
  have howner : r.owner.isSome = commands.any (WorkflowCommand.setsOwner w) := by
    rw [hr, WorkflowRecord.owner_foldl]
    exact Bool.or_false _
  have hinput : r.InputFits := by
    refine WorkflowRecord.InputFits.foldl w commands ?_
    simp [WorkflowRecord.InputFits, record, getInput, getWorkflowStatus]
  rw [← hresult, ← howner, ← hstatus]
  constructor
  · intro h hended
    have hcompleted := h.result.mp hended
    exact ⟨hcompleted, h.owner (by rw [hcompleted]; rfl)⟩
  · intro h
    -- where the status comes from
    have hsource : ∀ status, r.status = some status → ∃ command ∈ commands,
        command.statusOf w = some status := by
      intro status hs
      rw [hstatus] at hs
      exact List.mem_filterMap.mp (List.mem_of_getLast? hs)
    refine ⟨hinput, ⟨fun hended => (h hended).1, fun hs => ?_⟩, fun hsome => ?_⟩
    · obtain ⟨command, hmem, hof⟩ := hsource _ hs
      rcases WorkflowCommand.of_statusOf hof with ⟨heq, -⟩ | ⟨-, hends⟩
      · exact absurd heq (by decide)
      · rw [hresult]
        exact List.any_eq_true.mpr ⟨command, hmem, hends⟩
    · obtain ⟨status, hs⟩ := Option.isSome_iff_exists.mp hsome
      obtain ⟨command, hmem, hof⟩ := hsource _ hs
      rcases WorkflowCommand.of_statusOf hof with ⟨-, hsets⟩ | ⟨-, hends⟩
      · rw [howner]
        exact List.any_eq_true.mpr ⟨command, hmem, hsets⟩
      · refine (h ?_).2
        rw [hresult]
        exact List.any_eq_true.mpr ⟨command, hmem, hends⟩

/-- A workflow that is started again runs with the result of its first run; one that was ended
but never started has no owner. -/
theorem maps_inconsistent :
    ¬ ((applyAll {} [.workflowStart "w" "t" 1 [] 1, .workflowEnd "w" [1],
        .workflowStart "w" "t" 1 [] 1]).2.record "w").Consistent ∧
      ¬ ((applyAll {} [.workflowEnd "w" [1]]).2.record "w").Consistent := by
  refine ⟨fun h => ?_, fun h => ?_⟩
  · exact absurd h.result (by rw [record_applyAll]; decide)
  · exact absurd h.owner (by rw [record_applyAll]; decide)

/-! ## Completion -/

/-- The workflow is completed with a result, and none of its checkpoints is left. -/
structure WorkflowStateMachine.Final (w : String) (r : Bytes) (sm : WorkflowStateMachine) :
    Prop where
  status : sm.getWorkflowStatus w = some .completed
  result : sm.getResult w = some r
  queues : ∀ queueKey, belongsTo w queueKey → sm.checkpointQueues[queueKey]? = none
  histories : ∀ queueKey, belongsTo w queueKey → sm.checkpointHistory[queueKey]? = none

/-- The command brings no other result and no late checkpoint. -/
def WorkflowCommand.keepsFinal (w : String) (r : Bytes) : WorkflowCommand → Bool
  | .workflowEnd workflowId result => workflowId != w || result == r
  | .setCheckpoint workflowId key _ => !belongsTo w (makeQueueKey workflowId key)
  | .workflowStart _ _ _ _ _ | .ownerChange _ _ _ _ => true

/-- The end of a workflow completes it, whatever was before. -/
theorem final_workflowEnd (sm : WorkflowStateMachine) (w : String) (r : Bytes) :
    (sm.apply (.workflowEnd w r)).2.Final w r := by
  have hrecord := record_apply sm (.workflowEnd w r) w
  refine ⟨?_, ?_, fun queueKey h => ?_, fun queueKey h => ?_⟩
  · exact (congrArg WorkflowRecord.status hrecord).trans (by simp [WorkflowRecord.apply])
  · exact (congrArg WorkflowRecord.result hrecord).trans (by simp [WorkflowRecord.apply])
  · show (dropWorkflow sm.checkpointQueues w)[queueKey]? = none
    rw [getElem?_dropWorkflow, if_pos h]
  · show (dropWorkflow sm.checkpointHistory w)[queueKey]? = none
    rw [getElem?_dropWorkflow, if_pos h]

namespace WorkflowStateMachine.Final

variable {w : String} {r : Bytes} {sm : WorkflowStateMachine}

/-- The end of another workflow. -/
theorem workflowEnd (h : sm.Final w r) {workflowId : String} (hne : workflowId ≠ w)
    (result : Bytes) : (sm.apply (.workflowEnd workflowId result)).2.Final w r := by
  have hrecord : (sm.apply (.workflowEnd workflowId result)).2.record w = sm.record w := by
    rw [record_apply, WorkflowRecord.apply, if_neg hne]
  refine ⟨?_, ?_, fun queueKey hbelongs => ?_, fun queueKey hbelongs => ?_⟩
  · exact (congrArg WorkflowRecord.status hrecord).trans h.status
  · exact (congrArg WorkflowRecord.result hrecord).trans h.result
  · show (dropWorkflow sm.checkpointQueues workflowId)[queueKey]? = none
    rw [getElem?_dropWorkflow, h.queues queueKey hbelongs, ite_self]
  · show (dropWorkflow sm.checkpointHistory workflowId)[queueKey]? = none
    rw [getElem?_dropWorkflow, h.histories queueKey hbelongs, ite_self]

/-- A checkpoint with another index. -/
theorem setCheckpoint_iff (h : sm.Final w r) (workflowId key : String) (value : Bytes) :
    (sm.apply (.setCheckpoint workflowId key value)).2.Final w r ↔
      ¬ belongsTo w (makeQueueKey workflowId key) := by
  constructor
  · intro hafter hbelongs
    have hnone : (pushBack sm.checkpointQueues (makeQueueKey workflowId key) value)[
      makeQueueKey workflowId key]? = none := hafter.queues _ hbelongs
    rw [getElem?_pushBack, if_pos rfl] at hnone
    exact absurd hnone (by simp)
  · intro hapart
    have hne : ∀ queueKey, belongsTo w queueKey → makeQueueKey workflowId key ≠ queueKey := by
      rintro queueKey hbelongs rfl
      exact hapart hbelongs
    refine ⟨h.status, h.result, fun queueKey hbelongs => ?_, fun queueKey hbelongs => ?_⟩
    · show (pushBack sm.checkpointQueues _ value)[queueKey]? = none
      rw [getElem?_pushBack, if_neg (hne queueKey hbelongs), h.queues queueKey hbelongs]
    · show (pushBack sm.checkpointHistory _ value)[queueKey]? = none
      rw [getElem?_pushBack, if_neg (hne queueKey hbelongs), h.histories queueKey hbelongs]

/-- A completed workflow stays as it is through a command that does not start it exactly when
the command keeps it so. -/
theorem apply_iff (h : sm.Final w r) {command : WorkflowCommand}
    (hstart : command.startsWorkflow w = false) :
    (sm.apply command).2.Final w r ↔ command.keepsFinal w r := by
  cases command with
  | workflowStart workflowId workflowType version input ownerNodeId =>
    have hne : workflowId ≠ w := by simpa [WorkflowCommand.startsWorkflow] using hstart
    have hrecord := record_apply sm
      (.workflowStart workflowId workflowType version input ownerNodeId) w
    rw [WorkflowRecord.apply, if_neg hne] at hrecord
    refine iff_of_true ⟨?_, ?_, h.queues, h.histories⟩ rfl
    · exact (congrArg WorkflowRecord.status hrecord).trans h.status
    · exact (congrArg WorkflowRecord.result hrecord).trans h.result
  | workflowEnd workflowId result =>
    rw [WorkflowCommand.keepsFinal, Bool.or_eq_true, bne_iff_ne, beq_iff_eq]
    by_cases hid : workflowId = w
    · subst hid
      -- a second end of the same workflow: its result decides
      have hend := final_workflowEnd sm workflowId result
      constructor
      · intro hafter
        exact Or.inr (Option.some.inj (hend.result.symm.trans hafter.result))
      · rintro (hne | rfl)
        · exact absurd rfl hne
        · exact hend
    · exact iff_of_true (h.workflowEnd hid result) (Or.inl hid)
  | setCheckpoint workflowId key value =>
    rw [h.setCheckpoint_iff, WorkflowCommand.keepsFinal, Bool.not_eq_true', Bool.not_eq_true]
  | ownerChange workflowId oldOwnerNodeId newOwnerNodeId reason =>
    exact iff_of_true ⟨h.status, h.result, h.queues, h.histories⟩ rfl

theorem applyAll_iff (h : sm.Final w r) {commands : List WorkflowCommand}
    (hstart : ∀ command ∈ commands, command.startsWorkflow w = false) :
    (∀ applied, applied <+: commands → (sm.applyAll applied).2.Final w r) ↔
      ∀ command ∈ commands, command.keepsFinal w r := by
  induction commands generalizing sm with
  | nil =>
    refine iff_of_true (fun applied hle => ?_) (by simp)
    rw [List.prefix_nil.mp hle]
    exact h
  | cons command commands ih =>
    have hfirst := h.apply_iff (hstart command List.mem_cons_self)
    have hrest := fun command' hmem => hstart command' (List.mem_cons_of_mem command hmem)
    rw [List.forall_mem_cons]
    -- the first command decides whether the state behind it is final; the rest starts from there
    constructor
    · intro hall
      have hafter : (sm.apply command).2.Final w r := hall [command] ⟨commands, rfl⟩
      refine ⟨hfirst.mp hafter, (ih hafter hrest).mp fun applied hle => ?_⟩
      exact hall (command :: applied) ((List.prefix_cons_inj command).mpr hle)
    · rintro ⟨hkeeps, hkeeps'⟩ applied hle
      have hafter := hfirst.mpr hkeeps
      cases applied with
      | nil => exact h
      | cons command' applied =>
        obtain ⟨rfl, hle'⟩ := List.cons_prefix_cons.mp hle
        exact (ih hafter hrest).mpr hkeeps' applied hle'

end WorkflowStateMachine.Final

/-- From the end of a workflow on, until it is started again, every state has it completed with
its result and without checkpoints, exactly when no command brings another result and no
checkpoint comes late. -/
theorem completion_final_iff (before : List WorkflowCommand) (w : String) (r : Bytes)
    (later : List WorkflowCommand)
    (hstart : ∀ command ∈ later, command.startsWorkflow w = false) :
    (∀ applied, applied <+: later →
        (applyAll {} (before ++ .workflowEnd w r :: applied)).2.Final w r) ↔
      ∀ command ∈ later, command.keepsFinal w r := by
  have hend := final_workflowEnd (applyAll {} before).2 w r
  rw [← hend.applyAll_iff hstart]
  simp only [applyAll_append, applyAll]

theorem completion_final_same_result :
    (applyAll {} [.workflowStart "w" "t" 1 [] 1, .workflowEnd "w" [1], .workflowEnd "w" [1],
      .setCheckpoint "v" "k" [2]]).2.Final "w" [1] :=
  (completion_final_iff [.workflowStart "w" "t" 1 [] 1] "w" [1]
    [.workflowEnd "w" [1], .setCheckpoint "v" "k" [2]] (by decide)).mpr (by decide) _
    List.prefix_rfl

/-- The end that a second node proposes replaces the result, and a checkpoint that was in flight
is kept from then on. -/
theorem completion_not_final :
    ¬ (applyAll {} [.workflowStart "w" "t" 1 [] 1, .workflowEnd "w" [1],
        .workflowEnd "w" [2]]).2.Final "w" [1] ∧
      ¬ (applyAll {} [.workflowStart "w" "t" 1 [] 1, .workflowEnd "w" [1],
        .setCheckpoint "w" "k" [2]]).2.Final "w" [1] := by
  refine ⟨fun h => ?_, fun h => ?_⟩
  · have hresult : ((applyAll {} [.workflowStart "w" "t" 1 [] 1, .workflowEnd "w" [1],
        .workflowEnd "w" [2]]).2.record "w").result = some [1] := h.result
    rw [record_applyAll] at hresult
    exact absurd hresult (by decide)
  · have hnone := h.queues (makeQueueKey "w" "k") (by decide)
    change (pushBack _ (makeQueueKey "w" "k") [2])[_]? = none at hnone
    rw [getElem?_pushBack, if_pos rfl] at hnone
    exact absurd hnone (by simp)

end Raftoral

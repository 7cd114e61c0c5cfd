import Raftoral.Lib.QueueLog
import Raftoral.Workflow.Codec

/-!
# Queues, histories and snapshots of checkpoints

Every composite key of a `WorkflowStateMachine` has a queue and a history. Together with what a
node has popped they are a `QueueLog.Cell`, and every step of the state machine is an operation
on the cells:

* the queues lose and duplicate nothing (`checkpoints_balanced`);
* a snapshot holds what the commands have made, whatever was popped, and restoring it gives the
  state of a replica that pops nothing (`restore_snapshot_replays`);
* the pops of a node are not part of the snapshot it restores, so it is handed out again what it
  had already consumed (`restore_resumes_iff`).
-/

namespace Raftoral

open QueueLog WorkflowStateMachine

/-! ## The maps -/

/-- A composite key starts like those of a workflow. -/
def belongsTo (workflowId queueKey : String) : Bool :=
  (workflowId ++ ":").toList.isPrefixOf queueKey.toList

namespace WorkflowStateMachine

theorem getElem?_pushBack (queues : StringMap (List Bytes)) (queueKey k : String) (value : Bytes) :
    (pushBack queues queueKey value)[k]? =
      if queueKey = k then some ((queues[k]?).getD [] ++ [value]) else queues[k]? := by
  unfold pushBack
  rw [Std.ExtTreeMap.getElem?_insert]
  by_cases h : queueKey = k
  · simp [h]
  · simp [h]

theorem getElem?_dropWorkflow (queues : StringMap (List Bytes)) (workflowId k : String) :
    (dropWorkflow queues workflowId)[k]? = if belongsTo workflowId k then none else queues[k]? := by
  show (queues.filter fun k _ => !belongsTo workflowId k)[k]? = _
  rw [Std.ExtTreeMap.getElem?_filter']
  cases belongsTo workflowId k with
  | true => cases queues[k]? <;> rfl
  | false => cases queues[k]? <;> rfl

/-- The values recorded for a key. -/
def history (sm : WorkflowStateMachine) (workflowId key : String) : List Bytes :=
  (sm.checkpointHistory[makeQueueKey workflowId key]?).getD []

/-- A reloaded queue is the history. -/
theorem ofSnapshot_checkpointQueues (snapshot : WorkflowSnapshot) :
    (ofSnapshot snapshot).checkpointQueues = snapshot.checkpointHistory := by
  have hpush : ∀ history queue : List Bytes,
      history.foldl (fun queue value => queue ++ [value]) queue = queue ++ history := by
    intro history
    induction history with
    | nil => simp
    | cons value history ih => simp [ih]
  have hid : ∀ history : List Bytes,
      history.foldl (fun queue value => queue ++ [value]) [] = history := by
    intro history
    rw [hpush, List.nil_append]
  show snapshot.checkpointHistory.map _ = _
  simp only [hid]
  exact Std.ExtTreeMap.map_id

/-- The keys of the queues after a pop. -/
theorem getElem?_popQueuedCheckpoint (sm : WorkflowStateMachine) (workflowId key k : String) :
    (sm.popQueuedCheckpoint workflowId key).2.checkpointQueues[k]? =
      if makeQueueKey workflowId key = k then (sm.checkpointQueues[k]?).map List.tail
      else sm.checkpointQueues[k]? := by
  rcases popQueuedCheckpoint_cases sm workflowId key with ⟨hq, hpop⟩ | ⟨q, hq, hpop⟩
  · rw [hpop]
    by_cases h : makeQueueKey workflowId key = k
    · rw [if_pos h, ← h, hq]
      rfl
    · rw [if_neg h]
  · rw [hpop, Std.ExtTreeMap.getElem?_insert]
    by_cases h : makeQueueKey workflowId key = k
    · subst h
      simp [hq]
    · simp [h]

/-- A pop touches nothing but the queues. -/
theorem toSnapshot_popQueuedCheckpoint (sm : WorkflowStateMachine) (workflowId key : String) :
    (sm.popQueuedCheckpoint workflowId key).2.toSnapshot = sm.toSnapshot := by
  rcases popQueuedCheckpoint_cases sm workflowId key with ⟨-, hpop⟩ | ⟨q, -, hpop⟩
  · rw [hpop]
  · rw [hpop]
    rfl

end WorkflowStateMachine

/-! ## Steps of a replica -/

/-- What happens to a state machine between two restores. -/
inductive ReplicaStep where
  | apply (command : WorkflowCommand)
  | pop (workflowId key : String)
deriving DecidableEq

/-- A state machine and what was popped from each of its queues. -/
structure WorkflowReplica where
  sm : WorkflowStateMachine := {}
  taken : String → List Bytes := fun _ => []

namespace WorkflowReplica

/-- The pops of a key count from the last time its queue was made. -/
def step (r : WorkflowReplica) : ReplicaStep → WorkflowReplica
  | .apply command =>
    let sm := (r.sm.apply command).2
    { sm
      taken := fun k =>
        if (r.sm.checkpointQueues[k]?).isNone && (sm.checkpointQueues[k]?).isSome then []
        else r.taken k }
  | .pop workflowId key =>
    let (popped, sm) := r.sm.popQueuedCheckpoint workflowId key
    let queueKey := makeQueueKey workflowId key
    { sm, taken := Function.update r.taken queueKey (r.taken queueKey ++ popped.toList) }

/-- The queue, the history and the pops of a key. -/
def cell (r : WorkflowReplica) (queueKey : String) : Cell Bytes where
  queue := r.sm.checkpointQueues[queueKey]?
  log := r.sm.checkpointHistory[queueKey]?
  taken := r.taken queueKey

end WorkflowReplica

/-- What a step does to the cell of a key. -/
def ReplicaStep.op (queueKey : String) : ReplicaStep → Option (Op Bytes)
  | .apply (.setCheckpoint workflowId key value) =>
    if makeQueueKey workflowId key = queueKey then some (.push value) else none
  | .apply (.workflowEnd workflowId _) =>
    if belongsTo workflowId queueKey then some .drop else none
  | .apply (.workflowStart _ _ _ _ _) | .apply (.ownerChange _ _ _ _) => none
  | .pop workflowId key => if makeQueueKey workflowId key = queueKey then some .pop else none

/-- A step is an operation on every cell it touches. -/
theorem WorkflowReplica.cell_step (r : WorkflowReplica) (a : ReplicaStep) (queueKey : String) :
    (r.step a).cell queueKey = (a.op queueKey).elim (r.cell queueKey) (r.cell queueKey).apply := by
  cases a with
  | apply command =>
    cases command with
    | workflowStart workflowId workflowType version input ownerNodeId =>
      simp [step, cell, ReplicaStep.op, WorkflowStateMachine.apply]
    | workflowEnd workflowId result =>
      simp only [step, cell, ReplicaStep.op, WorkflowStateMachine.apply, getElem?_dropWorkflow]
      by_cases h : belongsTo workflowId queueKey
      · simp [h, Cell.apply]
      · simp [h]
    | setCheckpoint workflowId key value =>
      simp only [step, cell, ReplicaStep.op, WorkflowStateMachine.apply, getElem?_pushBack]
      by_cases h : makeQueueKey workflowId key = queueKey
      · simp [h, Cell.apply]
      · simp [h]
    | ownerChange workflowId oldOwnerNodeId newOwnerNodeId reason =>
      simp [step, cell, ReplicaStep.op, WorkflowStateMachine.apply]
  | pop workflowId key =>
    -- a pop takes from the queue only; what it takes is recorded
    have hhistory : (r.sm.popQueuedCheckpoint workflowId key).2.checkpointHistory =
        r.sm.checkpointHistory :=
      congrArg WorkflowSnapshot.checkpointHistory
        (toSnapshot_popQueuedCheckpoint r.sm workflowId key)
    simp only [step, cell, ReplicaStep.op, getElem?_popQueuedCheckpoint, hhistory,
      popQueuedCheckpoint_fst, queue]
    by_cases h : makeQueueKey workflowId key = queueKey
    · subst h
      cases r.sm.checkpointQueues[makeQueueKey workflowId key]? with
      | none => simp [Cell.apply, Cell.next]
      | some q => simp [Cell.apply, Cell.next]
    · simp [h, Function.update_of_ne (Ne.symm h)]

/-- Steps are operations, one after the other. -/
theorem WorkflowReplica.cell_foldl (r : WorkflowReplica) (steps : List ReplicaStep)
    (queueKey : String) :
    (steps.foldl WorkflowReplica.step r).cell queueKey =
      (steps.filterMap (ReplicaStep.op queueKey)).foldl Cell.apply (r.cell queueKey) := by
  induction steps generalizing r with
  | nil => rfl
  | cons a steps ih =>
    rw [List.foldl_cons, ih, cell_step]
    cases h : a.op queueKey with
    | none => rw [List.filterMap_cons_none h, Option.elim_none]
    | some op => rw [List.filterMap_cons_some h, Option.elim_some, List.foldl_cons]

/-! ## Nothing is lost or duplicated -/

section
variable [SerdeJson WorkflowSnapshot]

/-- What a restored state machine is. -/
theorem restore_snapshot (sm sm' : WorkflowStateMachine) {data : Bytes}
    (hdata : StateMachine.snapshot sm' = .ok data) :
    StateMachine.restore sm data = (.ok (), ofSnapshot sm'.toSnapshot) := by
  obtain rfl : SerdeJson.toVec sm'.toSnapshot = data := Except.ok.inj hdata
  simp only [StateMachine.restore, SerdeJson.fromSlice_toVec]

/-- The cell of a restored state machine is reloaded from the history. -/
theorem cell_restore (sm sm' : WorkflowStateMachine) {data : Bytes}
    (hdata : StateMachine.snapshot sm' = .ok data) (taken : String → List Bytes)
    (queueKey : String) :
    ({ sm := (StateMachine.restore sm data).2, taken } : WorkflowReplica).cell queueKey =
      { queue := sm'.checkpointHistory[queueKey]?
        log := sm'.checkpointHistory[queueKey]?
        taken := taken queueKey } := by
  rw [restore_snapshot sm sm' hdata]
  simp only [WorkflowReplica.cell, ofSnapshot_checkpointQueues]
  rfl

/-- A run of a replica: steps, and restores of snapshots that other runs have taken. -/
inductive ReplicaRun where
  | new
  | step (run : ReplicaRun) (a : ReplicaStep)
  | restore (run other : ReplicaRun)

/-- The replica a run ends in. A restore makes all queues anew. -/
def ReplicaRun.replica : ReplicaRun → WorkflowReplica
  | .new => {}
  | .step run a => run.replica.step a
  | .restore run other =>
    match StateMachine.snapshot other.replica.sm with
    | .ok data => { sm := (StateMachine.restore run.replica.sm data).2 }
    | .error _ => run.replica

theorem ReplicaRun.balanced (run : ReplicaRun) (queueKey : String) :
    (run.replica.cell queueKey).Balanced := by
  induction run with
  | new =>
    refine Cell.balanced_of_none ?_ ?_
    · exact Std.ExtTreeMap.getElem?_empty
    · exact Std.ExtTreeMap.getElem?_empty
  | step run a ih =>
    rw [ReplicaRun.replica, WorkflowReplica.cell_step]
    cases a.op queueKey with
    | none => exact ih
    | some op => exact ih.apply op
  -- the record of pops starts anew with the restored queues
  | restore run other ih ih' =>
    rw [ReplicaRun.replica]
    split
    · next data hdata =>
      rw [cell_restore _ _ hdata]
      exact Cell.balanced_reload _ [] (Or.inr rfl)
    · exact ih

/-- In every run a key has a queue exactly when it has a history, and what was popped since the
queue was made or restored, followed by what is queued, is the history. -/
theorem checkpoints_balanced (run : ReplicaRun) (queueKey : String) :
    ((run.replica.sm.checkpointQueues[queueKey]?).isSome ↔
        (run.replica.sm.checkpointHistory[queueKey]?).isSome) ∧
      ∀ queue history, run.replica.sm.checkpointQueues[queueKey]? = some queue →
        run.replica.sm.checkpointHistory[queueKey]? = some history →
          run.replica.taken queueKey ++ queue = history := by
  have hbalanced := run.balanced queueKey
  refine ⟨?_, hbalanced.account⟩
  rw [show (run.replica.sm.checkpointQueues[queueKey]?).isSome =
    (run.replica.sm.checkpointHistory[queueKey]?).isSome from hbalanced.same]

end

/-! ## Snapshots and replay -/

/-- The commands among the steps. -/
def ReplicaStep.command? : ReplicaStep → Option WorkflowCommand
  | .apply command => some command
  | .pop _ _ => none

/-- The state machine after a step. -/
def ReplicaStep.run (sm : WorkflowStateMachine) : ReplicaStep → WorkflowStateMachine
  | .apply command => (sm.apply command).2
  | .pop workflowId key => (sm.popQueuedCheckpoint workflowId key).2

namespace WorkflowStateMachine

/-- The events of a command; one that fails has none. -/
def eventsOf : Except String (List WorkflowEvent) → List WorkflowEvent
  | .ok events => events
  | .error _ => []

/-- Commands are applied one after the other; the events are those of all of them. -/
def applyAll (sm : WorkflowStateMachine) :
    List WorkflowCommand → List WorkflowEvent × WorkflowStateMachine
  | [] => ([], sm)
  | command :: commands =>
    let rest := (sm.apply command).2.applyAll commands
    (eventsOf (sm.apply command).1 ++ rest.1, rest.2)

theorem applyAll_append (sm : WorkflowStateMachine) (xs ys : List WorkflowCommand) :
    sm.applyAll (xs ++ ys) =
      ((sm.applyAll xs).1 ++ ((sm.applyAll xs).2.applyAll ys).1,
        ((sm.applyAll xs).2.applyAll ys).2) := by
  induction xs generalizing sm with
  | nil => rfl
  | cons command xs ih =>
    simp only [List.cons_append, applyAll, ih, List.append_assoc]

/-- What a command does to the replicated part does not depend on the queues. -/
theorem toSnapshot_apply {sm sm' : WorkflowStateMachine} (h : sm.toSnapshot = sm'.toSnapshot)
    (command : WorkflowCommand) :
    (sm.apply command).2.toSnapshot = (sm'.apply command).2.toSnapshot := by
  simp only [toSnapshot, WorkflowSnapshot.mk.injEq] at h
  obtain ⟨hworkflows, hinputs, hresults, hhistory, hownership⟩ := h
  cases command with
  | workflowStart workflowId workflowType version input ownerNodeId =>
    simp only [apply, toSnapshot, hworkflows, hinputs, hresults, hhistory, hownership]
  | workflowEnd workflowId result =>
    simp only [apply, toSnapshot, hworkflows, hinputs, hresults, hhistory, hownership]
  | setCheckpoint workflowId key value =>
    simp only [apply, toSnapshot, hworkflows, hinputs, hresults, hhistory, hownership]
  | ownerChange workflowId oldOwnerNodeId newOwnerNodeId reason =>
    simp only [apply, toSnapshot, hworkflows, hinputs, hresults, hhistory, hownership]

/-- Pops never reach the replicated part. -/
theorem toSnapshot_foldl {sm sm' : WorkflowStateMachine} (h : sm.toSnapshot = sm'.toSnapshot)
    (steps : List ReplicaStep) :
    (steps.foldl ReplicaStep.run sm).toSnapshot =
      (sm'.applyAll (steps.filterMap ReplicaStep.command?)).2.toSnapshot := by
  induction steps generalizing sm sm' with
  | nil => exact h
  | cons a steps ih =>
    cases a with
    | apply command => exact ih (toSnapshot_apply h command)
    | pop workflowId key =>
      refine ih ?_
      rw [ReplicaStep.run, toSnapshot_popQueuedCheckpoint, h]

/-- Without pops the queues are the histories. -/
theorem checkpointQueues_apply {sm : WorkflowStateMachine}
    (h : sm.checkpointQueues = sm.checkpointHistory) (command : WorkflowCommand) :
    (sm.apply command).2.checkpointQueues = (sm.apply command).2.checkpointHistory := by
  cases command with
  | workflowStart workflowId workflowType version input ownerNodeId => exact h
  | workflowEnd workflowId result =>
    show dropWorkflow _ _ = dropWorkflow _ _
    rw [h]
  | setCheckpoint workflowId key value =>
    show pushBack _ _ _ = pushBack _ _ _
    rw [h]
  | ownerChange workflowId oldOwnerNodeId newOwnerNodeId reason => exact h

theorem checkpointQueues_applyAll {sm : WorkflowStateMachine}
    (h : sm.checkpointQueues = sm.checkpointHistory) (commands : List WorkflowCommand) :
    (sm.applyAll commands).2.checkpointQueues = (sm.applyAll commands).2.checkpointHistory := by
  induction commands generalizing sm with
  | nil => exact h
  | cons command commands ih => exact ih (checkpointQueues_apply h command)

/-- A state machine whose queues are the histories is all in its snapshot. -/
theorem ofSnapshot_toSnapshot {sm : WorkflowStateMachine}
    (h : sm.checkpointQueues = sm.checkpointHistory) : ofSnapshot sm.toSnapshot = sm := by
  have hqueues := ofSnapshot_checkpointQueues sm.toSnapshot
  obtain ⟨workflows, inputs, results, queues, history, ownership⟩ := sm
  simp only [toSnapshot, ofSnapshot] at hqueues ⊢
  simp only at h
  rw [hqueues, h]

end WorkflowStateMachine

section
variable [SerdeJson WorkflowSnapshot]

/-- A snapshot taken after any commands and pops, restored into any state machine, gives exactly
the state of a replica that has applied the commands and popped nothing; further commands go on
from there as they would have without the snapshot. -/
theorem restore_snapshot_replays (steps : List ReplicaStep) (sm : WorkflowStateMachine) :
    ∃ data, StateMachine.snapshot (steps.foldl ReplicaStep.run {}) = .ok data ∧
      (StateMachine.restore sm data).1 = .ok () ∧
      (StateMachine.restore sm data).2 =
        (applyAll {} (steps.filterMap ReplicaStep.command?)).2 ∧
      (StateMachine.restore sm data).2.checkpointQueues =
        (StateMachine.restore sm data).2.checkpointHistory ∧
      ∀ ys, applyAll {} (steps.filterMap ReplicaStep.command? ++ ys) =
        ((applyAll {} (steps.filterMap ReplicaStep.command?)).1 ++
            ((StateMachine.restore sm data).2.applyAll ys).1,
          ((StateMachine.restore sm data).2.applyAll ys).2) := by
  set xs := steps.filterMap ReplicaStep.command? with hxs
  refine ⟨_, rfl, ?_⟩
  -- pops are not in the snapshot, and without pops queues and history are the same
  have hsame : (steps.foldl ReplicaStep.run {}).toSnapshot = (applyAll {} xs).2.toSnapshot :=
    toSnapshot_foldl rfl steps
  have hqueues : (applyAll {} xs).2.checkpointQueues = (applyAll {} xs).2.checkpointHistory :=
    checkpointQueues_applyAll rfl xs
  rw [restore_snapshot sm _ rfl, hsame, ofSnapshot_toSnapshot hqueues]
  exact ⟨rfl, rfl, hqueues, fun ys => applyAll_append {} xs ys⟩

end

/-! ## A restore under a running execution -/

/-- The next value of a key is the one behind those that the node has consumed. -/
def WorkflowReplica.OnTrack (r : WorkflowReplica) (workflowId key : String) : Prop :=
  (r.sm.popQueuedCheckpoint workflowId key).1 =
    (r.sm.history workflowId key)[(r.taken (makeQueueKey workflowId key)).length]?

theorem WorkflowReplica.onTrack_iff (r : WorkflowReplica) (workflowId key : String) :
    r.OnTrack workflowId key ↔ (r.cell (makeQueueKey workflowId key)).next =
      (r.cell (makeQueueKey workflowId key)).due := by
  unfold OnTrack
  rw [popQueuedCheckpoint_fst]
  unfold Cell.next Cell.due cell WorkflowStateMachine.queue history
  cases r.sm.checkpointQueues[makeQueueKey workflowId key]? <;> rfl

section
variable [SerdeJson WorkflowSnapshot]

/-- A node that restores the snapshot of another goes on behind what it has consumed of a key,
whatever happens later, exactly when it has consumed nothing of it or the snapshot has no history
of it: the queue is made of the whole history. -/
theorem restore_resumes_iff (r r' : WorkflowReplica) (workflowId key : String) :
    ∃ data, StateMachine.snapshot r'.sm = .ok data ∧
      ((∀ later : List ReplicaStep, (later.foldl WorkflowReplica.step
          { sm := (StateMachine.restore r.sm data).2, taken := r.taken }).OnTrack workflowId key) ↔
        (r.taken (makeQueueKey workflowId key)).length = 0 ∨
          r'.sm.checkpointHistory[makeQueueKey workflowId key]? = none) := by
  refine ⟨_, rfl, ?_⟩
  set queueKey := makeQueueKey workflowId key with hkey
  simp only [WorkflowReplica.onTrack_iff, WorkflowReplica.cell_foldl, cell_restore r.sm r'.sm rfl,
    ← hkey]
  constructor
  · intro hlater
    by_contra hnot
    rw [not_or] at hnot
    obtain ⟨l, hl⟩ := Option.ne_none_iff_exists'.mp hnot.2
    have htaken : r.taken queueKey ≠ [] := fun hnil => hnot.1 (by rw [hnil]; rfl)
    -- one more value, and pops until none is due any more
    obtain ⟨j, hj⟩ := Cell.exists_stale (l := l) htaken []
    have hops : (ReplicaStep.apply (.setCheckpoint workflowId key []) ::
        List.replicate j (.pop workflowId key)).filterMap (ReplicaStep.op queueKey) =
          .push [] :: List.replicate j .pop := by
      simp [ReplicaStep.op, ← hkey]
    have h := hlater (.apply (.setCheckpoint workflowId key []) ::
      List.replicate j (.pop workflowId key))
    rw [hops, hl, List.foldl_cons] at h
    exact hj h
  · intro hcond later
    have hbalanced := Cell.balanced_reload (r'.sm.checkpointHistory[queueKey]?) (r.taken queueKey)
      (hcond.symm.imp_right List.length_eq_zero_iff.mp)
    exact (hbalanced.foldl _).next_eq

end

section
open Codec

/-- A node that has applied a checkpoint and consumed it. -/
def consumedOne : List ReplicaStep :=
  [.apply (.workflowStart "w" "t" 1 [] 1), .apply (.setCheckpoint "w" "k" [1]), .pop "w" "k"]

/-- Another one, which is ahead. -/
def appliedTwo : List ReplicaStep :=
  [.apply (.workflowStart "w" "t" 1 [] 1), .apply (.setCheckpoint "w" "k" [1]),
   .apply (.setCheckpoint "w" "k" [2])]

/-- The first node restores the snapshot of the other. It has consumed one value and is handed
out the same value again, where the second one is due. -/
theorem restore_replays_consumed :
    consumedOne.filterMap ReplicaStep.command? <+: appliedTwo.filterMap ReplicaStep.command? ∧
      ((consumedOne.foldl WorkflowReplica.step {}).taken (makeQueueKey "w" "k")).length = 1 ∧
      ∃ data, StateMachine.snapshot (appliedTwo.foldl WorkflowReplica.step {}).sm = .ok data ∧
        ((StateMachine.restore (consumedOne.foldl WorkflowReplica.step {}).sm data).2.history
          "w" "k")[1]? = some [2] ∧
        ((StateMachine.restore (consumedOne.foldl WorkflowReplica.step {}).sm
          data).2.popQueuedCheckpoint "w" "k").1 = some [1] := by
  refine ⟨by decide, by decide, _, rfl, ?_⟩
  rw [restore_snapshot _ _ rfl]
  decide

end

end Raftoral

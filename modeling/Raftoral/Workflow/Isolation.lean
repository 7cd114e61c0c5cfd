import Raftoral.Workflow.Checkpoints

/-!
# Isolation of workflows

Queues and histories are indexed by a single string, the id of the workflow, a colon and the key.
Ids and keys are arbitrary strings, so two workflows can share an index: a step of one is seen by
the other exactly when one of the ids starts with the other and a colon. The keys of one workflow
never meet.
-/

namespace Raftoral

open WorkflowStateMachine

/-! ## Composite keys -/

theorem belongsTo_iff {workflowId queueKey : String} :
    belongsTo workflowId queueKey ↔ workflowId.toList ++ [':'] <+: queueKey.toList := by
  unfold belongsTo
  rw [List.isPrefixOf_iff_prefix, String.toList_append]
  rfl

theorem toList_makeQueueKey (workflowId key : String) :
    (makeQueueKey workflowId key).toList = workflowId.toList ++ [':'] ++ key.toList := by
  unfold makeQueueKey
  rw [String.toList_append, String.toList_append]
  rfl

theorem belongsTo_makeQueueKey (workflowId key : String) :
    belongsTo workflowId (makeQueueKey workflowId key) := by
  rw [belongsTo_iff, toList_makeQueueKey]
  exact List.prefix_append _ _

/-- What starts with an id and a colon is a composite key of that id. -/
theorem exists_key_of_belongsTo {workflowId s : String} (h : belongsTo workflowId s) :
    ∃ key, s = makeQueueKey workflowId key := by
  obtain ⟨t, ht⟩ := belongsTo_iff.mp h
  refine ⟨String.ofList t, String.toList_inj.mp ?_⟩
  rw [toList_makeQueueKey, String.toList_ofList, ht]

theorem makeQueueKey_assoc (workflowId key key' : String) :
    makeQueueKey (makeQueueKey workflowId key) key' =
      makeQueueKey workflowId (makeQueueKey key key') := by
  unfold makeQueueKey
  simp only [String.append_assoc]

/-- Two ids that claim one composite key start alike. -/
theorem belongsTo_of_shared {w₁ w₂ key : String} (hne : w₁ ≠ w₂)
    (h : belongsTo w₁ (makeQueueKey w₂ key)) : belongsTo w₁ w₂ ∨ belongsTo w₂ w₁ := by
  -- one id with its colon starts with the other id with its colon
  have hshorter : ∀ {l l' : List Char}, l ≠ l' → l ++ [':'] <+: l' ++ [':'] → l ++ [':'] <+: l' := by
    intro l l' hll h
    rcases List.prefix_concat_iff.mp h with heq | hle
    · exact absurd (List.append_cancel_right heq) hll
    · exact hle
  have hlist : w₁.toList ≠ w₂.toList := fun heq => hne (String.toList_inj.mp heq)
  have h₂ := belongsTo_makeQueueKey w₂ key
  rw [belongsTo_iff] at h h₂
  rcases List.prefix_or_prefix_of_prefix h h₂ with hle | hle
  · exact Or.inl (belongsTo_iff.mpr (hshorter hlist hle))
  · exact Or.inr (belongsTo_iff.mpr (hshorter (Ne.symm hlist) hle))

/-! ## What a workflow sees -/

/-- A checkpoint of a workflow looks the same in two states. -/
structure SameCheckpoint (workflowId key : String) (sm sm' : WorkflowStateMachine) : Prop where
  popped : (sm'.popQueuedCheckpoint workflowId key).1 = (sm.popQueuedCheckpoint workflowId key).1
  queued : sm'.hasQueuedCheckpoint workflowId key = sm.hasQueuedCheckpoint workflowId key
  recorded : sm'.checkpointHistory[makeQueueKey workflowId key]? =
    sm.checkpointHistory[makeQueueKey workflowId key]?

/-- The steps of a workflow that touch its checkpoints. -/
inductive CheckpointStep where
  | setCheckpoint (key : String) (value : Bytes)
  | workflowEnd (result : Bytes)
  | pop (key : String)
deriving DecidableEq

def CheckpointStep.ofWorkflow (workflowId : String) : CheckpointStep → ReplicaStep
  | .setCheckpoint key value => .apply (.setCheckpoint workflowId key value)
  | .workflowEnd result => .apply (.workflowEnd workflowId result)
  | .pop key => .pop workflowId key

/-- The step is about one key. -/
def CheckpointStep.onKey (key : String) : CheckpointStep → Prop
  | .setCheckpoint key' _ => key' = key
  | .workflowEnd _ => False
  | .pop key' => key' = key

/-- A step that is no operation on an index leaves its queue and its history alone. -/
theorem getElem?_run_of_op {queueKey : String} {a : ReplicaStep} (h : a.op queueKey = none)
    (sm : WorkflowStateMachine) :
    (a.run sm).checkpointQueues[queueKey]? = sm.checkpointQueues[queueKey]? ∧
      (a.run sm).checkpointHistory[queueKey]? = sm.checkpointHistory[queueKey]? := by
  have hcell := WorkflowReplica.cell_step { sm } a queueKey
  rw [h, Option.elim_none] at hcell
  have hsm : (WorkflowReplica.step { sm } a).sm = a.run sm := by cases a <;> rfl
  rw [← hsm]
  exact ⟨congrArg QueueLog.Cell.queue hcell, congrArg QueueLog.Cell.log hcell⟩

/-- A step that is no operation on a checkpoint leaves it alone. -/
theorem sameCheckpoint_of_op {workflowId key : String} {a : ReplicaStep}
    (h : a.op (makeQueueKey workflowId key) = none) (sm : WorkflowStateMachine) :
    SameCheckpoint workflowId key sm (a.run sm) := by
  obtain ⟨hqueue, hlog⟩ := getElem?_run_of_op h sm
  refine ⟨?_, ?_, hlog⟩
  · simp only [popQueuedCheckpoint_fst, queue, hqueue]
  · simp only [hasQueuedCheckpoint, hqueue]

theorem op_of_disjoint {w₁ w₂ key : String} (h : ¬ belongsTo w₁ (makeQueueKey w₂ key))
    (a : CheckpointStep) : (a.ofWorkflow w₁).op (makeQueueKey w₂ key) = none := by
  have hne : ∀ key', makeQueueKey w₁ key' ≠ makeQueueKey w₂ key := by
    intro key' heq
    exact h (heq ▸ belongsTo_makeQueueKey w₁ key')
  cases a with
  | setCheckpoint key' value => exact if_neg (hne key')
  | workflowEnd result => exact if_neg h
  | pop key' => exact if_neg (hne key')

theorem op_of_other_key {workflowId key key' : String} (hne : key ≠ key') {a : CheckpointStep}
    (ha : a.onKey key) : (a.ofWorkflow workflowId).op (makeQueueKey workflowId key') = none := by
  have hkeys : makeQueueKey workflowId key ≠ makeQueueKey workflowId key' :=
    fun heq => hne (makeQueueKey_inj.mp heq)
  cases a with
  | setCheckpoint key₁ value =>
    obtain rfl : key₁ = key := ha
    exact if_neg hkeys
  | workflowEnd result => exact ha.elim
  | pop key₁ =>
    obtain rfl : key₁ = key := ha
    exact if_neg hkeys

/-- A checkpoint that is set is there. -/
theorem hasQueuedCheckpoint_setCheckpoint {w₁ w₂ key key' : String}
    (h : makeQueueKey w₁ key' = makeQueueKey w₂ key) (sm : WorkflowStateMachine) (value : Bytes) :
    ((CheckpointStep.setCheckpoint key' value).ofWorkflow w₁ |>.run sm).hasQueuedCheckpoint
      w₂ key = true := by
  have hqueue : ((CheckpointStep.setCheckpoint key' value).ofWorkflow w₁ |>.run
      sm).checkpointQueues[makeQueueKey w₂ key]? =
        some ((sm.checkpointQueues[makeQueueKey w₂ key]?).getD [] ++ [value]) := by
    show (pushBack sm.checkpointQueues (makeQueueKey w₁ key') value)[makeQueueKey w₂ key]? = _
    rw [getElem?_pushBack, if_pos h]
  simp [hasQueuedCheckpoint, hqueue]

/-- A key that two ids share. -/
theorem exists_shared_key {w₁ w₂ : String} (h : belongsTo w₁ w₂ ∨ belongsTo w₂ w₁) :
    ∃ key₁ key₂, makeQueueKey w₁ key₁ = makeQueueKey w₂ key₂ := by
  rcases h with h | h
  · obtain ⟨key, rfl⟩ := exists_key_of_belongsTo h
    exact ⟨makeQueueKey key "", "", (makeQueueKey_assoc w₁ key "").symm⟩
  · obtain ⟨key, rfl⟩ := exists_key_of_belongsTo h
    exact ⟨"", makeQueueKey key "", makeQueueKey_assoc w₂ key ""⟩

section
variable [SerdeJson WorkflowSnapshot]

/-- The steps of a workflow are not seen by another one, in any state that a run reaches, exactly
when neither id starts with the other and a colon. Different keys of one workflow never affect
each other. -/
theorem workflows_isolated_iff (w₁ w₂ : String) (hne : w₁ ≠ w₂) :
    ((∀ (run : ReplicaRun) (a : CheckpointStep) (key : String),
        SameCheckpoint w₂ key run.replica.sm ((a.ofWorkflow w₁).run run.replica.sm)) ↔
      ¬ belongsTo w₁ w₂ ∧ ¬ belongsTo w₂ w₁) ∧
    ∀ (run : ReplicaRun) (key key' : String) (a : CheckpointStep), key ≠ key' → a.onKey key →
      SameCheckpoint w₁ key' run.replica.sm ((a.ofWorkflow w₁).run run.replica.sm) := by
  refine ⟨⟨?_, ?_⟩, ?_⟩
  · intro hsame
    rw [← not_or]
    intro hshared
    -- a checkpoint under the shared index appears in the new state machine
    obtain ⟨key₁, key₂, heq⟩ := exists_shared_key hshared
    have hqueued := (hsame .new (.setCheckpoint key₁ []) key₂).queued
    rw [hasQueuedCheckpoint_setCheckpoint heq] at hqueued
    have hempty : ReplicaRun.new.replica.sm.hasQueuedCheckpoint w₂ key₂ = false := by
      simp [hasQueuedCheckpoint, ReplicaRun.replica]
    rw [hempty] at hqueued
    exact absurd hqueued (by simp)
  · intro hapart run a key
    refine sameCheckpoint_of_op (op_of_disjoint ?_ a) _
    intro hshared
    rcases belongsTo_of_shared hne hshared with h | h
    · exact hapart.1 h
    · exact hapart.2 h
  · intro run key key' a hkey ha
    exact sameCheckpoint_of_op (op_of_other_key hkey ha) _

end

section
open Codec

theorem workflows_isolated_apart : "a" ≠ "b" ∧ ∀ (run : ReplicaRun) (a : CheckpointStep)
    (key : String), SameCheckpoint "b" key run.replica.sm ((a.ofWorkflow "a").run run.replica.sm) :=
  ⟨by decide, (workflows_isolated_iff "a" "b" (by decide)).1.mpr (by decide)⟩

/-- A checkpoint of workflow `a` appears as one of workflow `a:b`, and the end of `a` takes away
one of `a:b`. -/
theorem workflows_interfere : "a" ≠ "a:b" ∧
    ¬ SameCheckpoint "a:b" "c" ReplicaRun.new.replica.sm
      (((CheckpointStep.setCheckpoint "b:c" [1]).ofWorkflow "a").run ReplicaRun.new.replica.sm) ∧
    ¬ SameCheckpoint "a:b" "c"
      (ReplicaRun.new.step (.apply (.setCheckpoint "a:b" "c" [1]))).replica.sm
      (((CheckpointStep.workflowEnd []).ofWorkflow "a").run
        (ReplicaRun.new.step (.apply (.setCheckpoint "a:b" "c" [1]))).replica.sm) := by
  refine ⟨by decide, fun h => ?_, fun h => ?_⟩
  · exact absurd h.popped (by decide)
  · have hdropped := h.recorded
    change (dropWorkflow _ "a")[_]? = _ at hdropped
    rw [getElem?_dropWorkflow] at hdropped
    exact absurd hdropped (by decide)

end

end Raftoral

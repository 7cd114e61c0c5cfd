import Raftoral.Lib.Planning
import Raftoral.Workflow.ExecutionResults
import Raftoral.Workflow.OwnerOrWaitCalls

/-!
# Workflows end once

A workflow that is started once, and whose owner is not changed and does not start again, is ended
once. The other nodes that execute it know its owner from before they have spawned the execution,
so only the owner proposes the end, and it executes the workflow once.
-/

namespace Raftoral

open Transition

namespace OwnerOrWait

variable {T : Type}

/-- The operation is invoked. -/
def isInvoke : OwnerOrWaitAction T → Bool
  | .invoke => true
  | _ => false

theorem afterAttempt_ne_owning (attempt : ℕ) :
    (afterAttempt attempt : OwnerOrWaitPhase T) ≠ .owning := by
  unfold afterAttempt
  split <;> simp

/-- What an action of a call does: the node is left alone, only an invocation is recorded as one,
and the call comes to own, and to invoke, by a check that has found its node to be the owner. -/
structure Acts (c : OwnerOrWaitCall T) (s s' : OwnerOrWait T) (a : OwnerOrWaitAction T) : Prop where
  published : s'.published = s.published
  invocations : s'.records.countP CallRecord.isInvocation =
    s.records.countP CallRecord.isInvocation + if isInvoke a then 1 else 0
  owns : s'.phase = .owning → isWorkflowOwner s.stateMachine c.workflowId c.nodeId
  invokes : isInvoke a → s.phase = .owning

section
variable {c : OwnerOrWaitCall T} {s s' : OwnerOrWait T} {a : OwnerOrWaitAction T}

theorem acts_goOn {done : List (CallRecord T)} (ha : isInvoke a = false)
    (hrecords : s'.records = s.records ++ done)
    (hdone : done.countP CallRecord.isInvocation = 0) (hpublished : s'.published = s.published)
    (howns : s'.phase = .owning → isWorkflowOwner s.stateMachine c.workflowId c.nodeId) :
    Acts c s s' a := by
  refine ⟨hpublished, ?_, howns, fun h => absurd h (by simp [ha])⟩
  rw [hrecords, List.countP_append, hdone, ha]
  rfl

theorem acts_consume {attempt next : ℕ} {event : WorkflowEvent} (ha : isInvoke a = false) :
    Acts c s { s.consume c attempt event with next } a := by
  unfold consume
  dsimp only
  split
  · exact acts_goOn ha rfl rfl rfl (by simp [goOn])
  · exact acts_goOn ha rfl rfl rfl fun h => absurd h (afterAttempt_ne_owning attempt)
  · exact acts_goOn ha rfl rfl rfl (by simp [goOn])

theorem acts_of_step (hof : a.OfCall) (h : s.step c a = some s') : Acts c s s' a := by
  cases a with
  | change => exact hof.elim
  | publish => exact hof.elim
  | close => exact hof.elim
  | subscribe =>
    rw [step] at h
    split at h
    · obtain rfl := Option.some.inj h
      exact acts_goOn rfl rfl rfl rfl (by simp [goOn])
    · exact absurd h (by simp)
  | checkOwner =>
    rw [step] at h
    split at h
    · dsimp only at h
      split at h
      · next howner =>
        obtain rfl := Option.some.inj h
        -- the only way to own is a check that has found this node or no owner
        exact acts_goOn rfl rfl rfl rfl fun _ => howner
      · obtain rfl := Option.some.inj h
        exact acts_goOn rfl rfl rfl rfl (by simp [goOn])
    · exact absurd h (by simp)
  | invoke =>
    rw [step] at h
    split at h
    · next hphase =>
      obtain rfl := Option.some.inj h
      -- and the operation is invoked by the one who owns
      refine ⟨rfl, ?_, fun h => absurd h (by simp [goOn]), fun _ => hphase⟩
      exact List.countP_append
    · exact absurd h (by simp)
  | finish result =>
    rw [step] at h
    split at h
    · obtain rfl := Option.some.inj h
      exact acts_goOn rfl rfl rfl rfl (by simp [goOn])
    · exact absurd h (by simp)
  | receive =>
    rw [step] at h
    split at h
    · next attempt hphase =>
      rw [receive] at h
      split at h
      · obtain rfl := Option.some.inj h
        exact acts_consume rfl
      · obtain rfl := Option.some.inj h
        exact acts_goOn rfl (List.append_nil _).symm rfl rfl
          fun h => absurd (hphase.symm.trans h) (by simp)
      · split at h
        · obtain rfl := Option.some.inj h
          exact acts_goOn rfl rfl rfl rfl (by simp [goOn])
        · exact absurd h (by simp)
    · exact absurd h (by simp)
  | timeout =>
    rw [step] at h
    split at h
    · rw [Option.ite_none_right_eq_some, Option.some.injEq] at h
      obtain ⟨-, rfl⟩ := h
      exact acts_goOn rfl rfl rfl rfl (by simp [goOn])
    · exact absurd h (by simp)
  | recheck =>
    rw [step] at h
    split at h
    · next attempt hphase =>
      dsimp only at h
      have hagain : afterAttempt (T := T) attempt = .owning →
          isWorkflowOwner s.stateMachine c.workflowId c.nodeId :=
        fun h => absurd h (afterAttempt_ne_owning attempt)
      split at h
      · obtain rfl := Option.some.inj h
        exact acts_goOn rfl rfl rfl rfl hagain
      · split at h
        · obtain rfl := Option.some.inj h
          exact acts_goOn rfl rfl rfl rfl (by simp [goOn])
        · obtain rfl := Option.some.inj h
          exact acts_goOn rfl rfl rfl rfl hagain
    · exact absurd h (by simp)

end

end OwnerOrWait

/-! ## The owner of a workflow -/

def WorkflowEvent.startsWorkflow (w : String) : WorkflowEvent → Bool
  | .workflowStarted workflowId _ _ _ => workflowId == w
  | _ => false

/-- The command gives the workflow no other owner. -/
def WorkflowCommand.LeavesTo (w : String) (o : ℕ) : WorkflowCommand → Prop
  | .workflowStart workflowId _ _ _ ownerNodeId => workflowId = w → ownerNodeId = o
  | .ownerChange workflowId _ _ _ => workflowId ≠ w
  | .workflowEnd _ _ | .setCheckpoint _ _ _ => True

/-- The workflow is started by one of the first commands. -/
def StartedBy (w : String) (log : List WorkflowCommand) (applied : ℕ) : Prop :=
  ∃ command ∈ log.take applied, command.startsWorkflow w

theorem StartedBy.mono {w : String} {log : List WorkflowCommand} {applied applied' : ℕ}
    (hle : applied ≤ applied') (h : StartedBy w log applied) : StartedBy w log applied' := by
  obtain ⟨command, hmem, hstarts⟩ := h
  exact ⟨command, (List.take_prefix_take_left hle).subset hmem, hstarts⟩

theorem startedBy_append {w : String} {log more : List WorkflowCommand} {applied : ℕ}
    (hle : applied ≤ log.length) :
    StartedBy w (log ++ more) applied ↔ StartedBy w log applied := by
  rw [StartedBy, List.take_append_of_le_length hle, StartedBy]

/-- A command that starts the workflow gives it to its owner, and none takes it away. -/
theorem owner_apply {w : String} {o : ℕ} {sm : WorkflowStateMachine} {command : WorkflowCommand}
    (hleaves : command.LeavesTo w o)
    (h : command.startsWorkflow w = false → (sm.record w).owner = some o) :
    ((sm.apply command).2.record w).owner = some o := by
  rw [record_apply]
  cases command with
  | workflowStart workflowId workflowType version input ownerNodeId =>
    rw [WorkflowRecord.apply]
    split_ifs with hid
    · rw [hleaves hid]
    · exact h (by simpa [WorkflowCommand.startsWorkflow] using hid)
  | workflowEnd workflowId result =>
    rw [WorkflowRecord.apply]
    split_ifs
    all_goals exact h rfl
  | setCheckpoint => exact h rfl
  | ownerChange workflowId oldOwnerNodeId newOwnerNodeId reason =>
    rw [WorkflowRecord.apply, if_neg hleaves]
    exact h rfl

/-- A command and its event start the same workflow. -/
theorem countP_eventsOf (w : String) (sm : WorkflowStateMachine) (command : WorkflowCommand) :
    (WorkflowStateMachine.eventsOf (sm.apply command).1).countP (WorkflowEvent.startsWorkflow w) =
      [command].countP (WorkflowCommand.startsWorkflow w) := by
  cases command with
  | workflowStart workflowId workflowType version input ownerNodeId =>
    rw [List.countP_singleton]
    exact List.countP_singleton
  | _ => rfl

/-- A proposal that is committed was in flight. -/
theorem perm_commit {α : Type} (log : List α) {inFlight : List α} {k : ℕ} {a : α}
    (hk : inFlight[k]? = some a) :
    (log ++ [a] ++ inFlight.eraseIdx k).Perm (log ++ inFlight) := by
  obtain ⟨hlt, rfl⟩ := List.getElem?_eq_some_iff.mp hk
  rw [List.append_assoc]
  exact (List.getElem_cons_eraseIdx_perm hlt).append_left log

/-- The execution has proposed the end. -/
def WorkflowExecution.hasProposed {F : Type} (x : WorkflowExecution F) : Bool :=
  match x.phase with
  | .recording _ call => 0 < call.records.countP CallRecord.isInvocation
  | .lookingUp | .readingInput _ | .executing _ _ | .abandoned => false

section
variable {F : Type} (w : String) (o : ℕ) (log : List WorkflowCommand) (nodeId : ℕ)

/-- The node knows the owner of the workflow by the time it executes it. -/
structure ExecutingNode.Owned (n : ExecutingNode F) : Prop where
  bound : n.applied ≤ log.length
  owner : StartedBy w log n.applied → (n.stateMachine.record w).owner = some o
  events : ∀ event ∈ n.published ++ n.unpublished, event.startsWorkflow w →
    StartedBy w log n.applied
  executions : ∀ x ∈ n.executions, x.workflowId = w → StartedBy w log n.applied
  calls : ∀ x ∈ n.executions, ∀ bytes call, x.phase = .recording bytes call →
    call.published <+: n.published ∧
      ∃ quiet deciding, OwnerOrWait.Kept (recordingCall nodeId x.workflowId) call quiet deciding
  others : nodeId ≠ o → ∀ x ∈ n.executions, x.workflowId = w →
    ∀ bytes call, x.phase = .recording bytes call → call.phase ≠ .owning

/-- The node has spawned no more executions of the workflow than it has applied starts of. -/
structure ExecutingNode.Counted (n : ExecutingNode F) : Prop where
  executions : n.executions.countP (·.workflowId == w) ≤
    (n.published.take (n.observer.getD 0)).countP (WorkflowEvent.startsWorkflow w)
  events : (n.published ++ n.unpublished).countP (WorkflowEvent.startsWorkflow w) ≤
    (log.take n.applied).countP (WorkflowCommand.startsWorkflow w)

end

/-- The ends of the workflow are those that executions on the owner have proposed. -/
structure Executions.Owned {F : Type} (w : String) (o : ℕ) (s : Executions F) : Prop where
  leaves : ∀ command ∈ s.log ++ s.inFlight, command.LeavesTo w o
  snapshots : ∀ p ∈ s.snapshots, p.1 ≤ s.log.length ∧ (StartedBy w s.log p.1 →
    ((WorkflowStateMachine.ofSnapshot p.2).record w).owner = some o)
  nodes : ∀ nodeId, (s.nodes nodeId).Owned w o s.log nodeId
  counted : (s.nodes o).Counted w s.log
  ends : (s.log ++ s.inFlight).countP (WorkflowCommand.endsWorkflow w) ≤
    (s.nodes o).executions.countP fun x => x.workflowId == w && x.hasProposed

/-! ## Steps of an execution -/

namespace WorkflowExecution

section
variable [JsonText] {F : Type} {n : ExecutingNode F} {nodeId : ℕ} {x x' : WorkflowExecution F}
  {action : ExecutionAction} {proposed : List WorkflowCommand}

theorem Stepped.workflowId_eq (h : x.Stepped n nodeId action x' proposed) :
    x'.workflowId = x.workflowId := by
  cases h <;> rfl

/-- An execution that takes up its call, or goes on with it. -/
theorem Stepped.call (h : x.Stepped n nodeId action x' proposed)
    (hcalls : ∀ bytes call, x.phase = .recording bytes call → call.published <+: n.published ∧
      ∃ quiet deciding, OwnerOrWait.Kept (recordingCall nodeId x.workflowId) call quiet deciding)
    {bytes : Bytes} {call : OwnerOrWait Unit} (hphase : x'.phase = .recording bytes call) :
    call.published <+: n.published ∧ ∃ quiet deciding,
      OwnerOrWait.Kept (recordingCall nodeId x.workflowId) call quiet deciding := by
  cases h with
  | found => exact absurd hphase (by simp [goOn])
  | abandon => exact absurd hphase (by simp [goOn])
  | read => exact absurd hphase (by simp [goOn])
  | finish =>
    obtain ⟨-, rfl⟩ := ExecutionPhase.recording.inj hphase
    exact ⟨List.prefix_refl _, [], [],
      ⟨rfl, by simp [OwnerOrWait.Quiet], by simp, rfl, by simp [maxRetries], rfl⟩⟩
  | @record resultBytes before call' hbefore action hof hcall =>
    obtain ⟨-, rfl⟩ := ExecutionPhase.recording.inj hphase
    obtain ⟨hbegun, quiet, deciding, hkept⟩ := hcalls resultBytes before hbefore
    refine ⟨(OwnerOrWait.acts_of_step hof hcall).published ▸ List.prefix_refl _, ?_⟩
    have hthere : OwnerOrWait.Kept (recordingCall nodeId x.workflowId) (onNode n before) quiet
        deciding := hkept.environment rfl rfl rfl hbegun
    exact hthere.step hcall

/-- A node that knows the workflow to be another's never proposes its end. -/
theorem Stepped.other {o : ℕ} (h : x.Stepped n nodeId action x' proposed)
    (howner : (n.stateMachine.record x.workflowId).owner = some o) (hother : nodeId ≠ o)
    (hcalls : ∀ bytes call, x.phase = .recording bytes call → call.phase ≠ .owning) :
    proposed = [] ∧ ∀ bytes call, x'.phase = .recording bytes call → call.phase ≠ .owning := by
  cases h with
  | found => exact ⟨rfl, by simp [goOn]⟩
  | abandon => exact ⟨rfl, by simp [goOn]⟩
  | read => exact ⟨rfl, by simp [goOn]⟩
  | finish =>
    refine ⟨rfl, fun bytes call hphase => ?_⟩
    obtain ⟨-, rfl⟩ := ExecutionPhase.recording.inj hphase
    simp [OwnerOrWait.start]
  | @record resultBytes before call' hbefore action hof hcall =>
    have hacts := OwnerOrWait.acts_of_step hof hcall
    refine ⟨?_, fun bytes call hphase => ?_⟩
    · cases action with
      | invoke => exact absurd (hacts.invokes rfl) (hcalls resultBytes before hbefore)
      | _ => rfl
    · obtain ⟨-, rfl⟩ := ExecutionPhase.recording.inj hphase
      intro howning
      rcases OwnerOrWait.isWorkflowOwner_iff.mp (hacts.owns howning) with hnone | hsome
      · exact absurd (howner.symm.trans hnone) (by simp)
      · exact hother (Option.some.inj (hsome.symm.trans howner))

/-- An end is proposed by an execution that has not proposed one. -/
theorem Stepped.ends (h : x.Stepped n nodeId action x' proposed) (w : String)
    (hcalls : ∀ bytes call, x.phase = .recording bytes call →
      ∃ quiet deciding, OwnerOrWait.Kept (recordingCall nodeId x.workflowId) call quiet deciding) :
    proposed.countP (WorkflowCommand.endsWorkflow w) +
        (if x.workflowId == w && x.hasProposed then 1 else 0) ≤
      if x'.workflowId == w && x'.hasProposed then 1 else 0 := by
  cases h with
  | found hphase => simp [hasProposed, hphase]
  | abandon hphase =>
    have hnot : x.hasProposed = false := by
      unfold hasProposed
      split
      · next bytes call hx => exact absurd hx (hphase bytes call)
      all_goals rfl
    simp [hnot]
  | read hphase => simp [hasProposed, hphase]
  | finish hphase => simp [hasProposed, hphase]
  | @record resultBytes before call' hbefore action hof hcall =>
    have hacts := OwnerOrWait.acts_of_step hof hcall
    have hcount := hacts.invocations
    change _ = before.records.countP CallRecord.isInvocation + _ at hcount
    have hx : x.hasProposed = decide (0 < before.records.countP CallRecord.isInvocation) := by
      unfold hasProposed
      rw [hbefore]
    have hx' : (x.goOn (.recording resultBytes call')).hasProposed =
      decide (0 < call'.records.countP CallRecord.isInvocation) := rfl
    rw [hx, hx', hcount]
    cases action with
    | invoke =>
      -- a call that owns has invoked nothing
      obtain ⟨quiet, deciding, hkept⟩ := hcalls resultBytes before hbefore
      have hphase : before.phase = .owning := hacts.invokes rfl
      have hstands := hkept.stands
      rw [OwnerOrWait.Stands, hphase] at hstands
      have hzero : before.records.countP CallRecord.isInvocation = 0 := by
        rw [hkept.records, hstands.1, List.append_nil]
        exact hkept.undecided.countP_isInvocation
      simp [hzero, proposals, WorkflowCommand.endsWorkflow, goOn, OwnerOrWait.isInvoke,
        List.countP_singleton]
    | _ => simp [proposals, goOn, OwnerOrWait.isInvoke]

end

end WorkflowExecution

/-- Executions propose nothing but ends. -/
theorem WorkflowExecution.Stepped.proposes [JsonText] {F : Type} {n : ExecutingNode F} {nodeId : ℕ}
    {x x' : WorkflowExecution F} {action : ExecutionAction} {proposed : List WorkflowCommand}
    (h : x.Stepped n nodeId action x' proposed) :
    ∀ command ∈ proposed, ∃ w bytes, command = .workflowEnd w bytes := by
  cases h with
  | @record resultBytes call call' hphase action hof hcall =>
    intro command hcommand
    cases action with
    | invoke => exact ⟨x.workflowId, resultBytes, List.mem_singleton.mp hcommand⟩
    | _ => exact absurd hcommand (by simp [proposals])
  | _ => simp

/-! ## Steps of a node -/

namespace ExecutingNode

section
variable {F : Type} {w : String} {o nodeId : ℕ} {log : List WorkflowCommand}
  {n n' : ExecutingNode F}

/-- The executions of a node that goes on with them. -/
theorem Owned.mono (h : n.Owned w o log nodeId) (hbound : n'.applied ≤ log.length)
    (howner : StartedBy w log n'.applied → (n'.stateMachine.record w).owner = some o)
    (hevents : ∀ event ∈ n'.published ++ n'.unpublished, event.startsWorkflow w →
      StartedBy w log n'.applied)
    (happlied : n.applied ≤ n'.applied) (hpublished : n.published <+: n'.published)
    (hexecutions : n'.executions = n.executions) : n'.Owned w o log nodeId := by
  refine ⟨hbound, howner, hevents, ?_, ?_, ?_⟩
  · rw [hexecutions]
    exact fun x hx hw => (h.executions x hx hw).mono happlied
  · rw [hexecutions]
    intro x hx bytes call hphase
    obtain ⟨hbegun, hkept⟩ := h.calls x hx bytes call hphase
    exact ⟨hbegun.trans hpublished, hkept⟩
  · rw [hexecutions]
    exact h.others

theorem Owned.append (h : n.Owned w o log nodeId) (more : List WorkflowCommand) :
    n.Owned w o (log ++ more) nodeId := by
  have hstarted : StartedBy w (log ++ more) n.applied ↔ StartedBy w log n.applied :=
    startedBy_append h.bound
  refine ⟨h.bound.trans (by simp), fun hs => h.owner (hstarted.mp hs), fun event he hw => ?_,
    fun x hx hw => hstarted.mpr (h.executions x hx hw), h.calls, h.others⟩
  exact hstarted.mpr (h.events event he hw)

theorem Owned.applyCommand (h : n.Owned w o log nodeId) {command : WorkflowCommand}
    (hlog : log[n.applied]? = some command) (hleaves : command.LeavesTo w o) :
    (n.applyCommand command).Owned w o log nodeId := by
  have hlt : n.applied < log.length := (List.getElem?_eq_some_iff.mp hlog).1
  have htake : log.take (n.applied + 1) = log.take n.applied ++ [command] := by
    rw [List.take_add_one, hlog, Option.toList_some]
  have hmono : StartedBy w log n.applied → StartedBy w log (n.applied + 1) :=
    StartedBy.mono (Nat.le_succ _)
  refine h.mono hlt (fun hs => owner_apply hleaves fun hnot => h.owner ?_)
    (fun event he hw => ?_) (Nat.le_succ _) (List.prefix_refl _) rfl
  · obtain ⟨c, hmem, hstarts⟩ := hs
    change c ∈ log.take (n.applied + 1) at hmem
    rw [htake, List.mem_append, List.mem_singleton] at hmem
    rcases hmem with hold | rfl
    · exact ⟨c, hold, hstarts⟩
    · exact absurd hstarts (by simp [hnot])
  · rcases List.mem_append.mp he with hold | hnew
    · exact hmono (h.events event (List.mem_append_left _ hold) hw)
    · have hpos : 0 < (WorkflowStateMachine.eventsOf (n.stateMachine.apply command).1).countP
          (WorkflowEvent.startsWorkflow w) := List.countP_pos_iff.mpr ⟨event, hnew, hw⟩
      rw [countP_eventsOf, List.countP_pos_iff] at hpos
      obtain ⟨c, hc, hstarts⟩ := hpos
      exact ⟨c, htake ▸ List.mem_append_right _ hc, hstarts⟩

variable [JsonText] {snapshots : List (ℕ × WorkflowSnapshot)} {action : NodeAction F}
  {proposed : List WorkflowCommand}

theorem Owned.step (hn : n.Owned w o log nodeId) (hleaves : ∀ command ∈ log, command.LeavesTo w o)
    (hsnapshots : ∀ p ∈ snapshots, p.1 ≤ log.length ∧ (StartedBy w log p.1 →
      ((WorkflowStateMachine.ofSnapshot p.2).record w).owner = some o))
    (h : n.Stepped log snapshots nodeId action n' proposed) : n'.Owned w o log nodeId := by
  cases h with
  | apply hfree hlog => exact hn.applyCommand hlog (hleaves _ (List.mem_of_getElem? hlog))
  | publish hevent =>
    refine hn.mono hn.bound hn.owner (fun event he => hn.events event ?_) le_rfl
      (List.prefix_append _ _) rfl
    rw [hevent]
    simpa using he
  | pop workflowId key =>
    have hrecord := record_popQueuedCheckpoint n.stateMachine workflowId key w
    refine hn.mono hn.bound (fun hs => ?_) hn.events le_rfl (List.prefix_refl _) rfl
    exact (congrArg WorkflowRecord.owner hrecord).trans (hn.owner hs)
  | install hk hahead =>
    obtain ⟨hbound, howner⟩ := hsnapshots _ (List.mem_of_getElem? hk)
    exact hn.mono hbound howner (fun event he hw => (hn.events event he hw).mono hahead.le)
      hahead.le (List.prefix_refl _) rfl
  | restart =>
    refine ⟨Nat.zero_le _, fun hs => ?_, by simp, by simp, by simp, by simp⟩
    -- a node that starts again has applied nothing, so nothing has started on it
    obtain ⟨command, hmem, -⟩ := hs
    exact absurd hmem (by simp)
  | restore hk =>
    obtain ⟨hbound, howner⟩ := hsnapshots _ (List.mem_of_getElem? hk)
    exact ⟨hbound, howner, by simp, by simp, by simp, by simp⟩
  | register => exact hn.mono hn.bound hn.owner hn.events le_rfl (List.prefix_refl _) rfl
  | rejected => exact hn
  | startObserver => exact hn.mono hn.bound hn.owner hn.events le_rfl (List.prefix_refl _) rfl
  | lag => exact hn.mono hn.bound hn.owner hn.events le_rfl (List.prefix_refl _) rfl
  | @observe next event hobserver hevent =>
    -- what is spawned has not got anywhere
    have hnew : ∀ x ∈ (spawned event : List (WorkflowExecution F)), x.phase = .lookingUp ∧
        (x.workflowId = w → event.startsWorkflow w) := by
      intro x hx
      cases event with
      | workflowStarted =>
        obtain rfl := List.mem_singleton.mp hx
        exact ⟨rfl, fun hw => beq_iff_eq.mpr hw⟩
      | _ => exact absurd hx (by simp [spawned])
    have hmem : event ∈ n.published ++ n.unpublished :=
      List.mem_append_left _ (List.mem_of_getElem? hevent)
    refine ⟨hn.bound, hn.owner, hn.events, fun x hx hw => ?_, fun x hx bytes call hphase => ?_,
      fun hother x hx hw bytes call hphase => ?_⟩
    · rcases List.mem_append.mp hx with hold | hx
      · exact hn.executions x hold hw
      · exact hn.events event hmem ((hnew x hx).2 hw)
    · rcases List.mem_append.mp hx with hold | hx
      · exact hn.calls x hold bytes call hphase
      · exact absurd ((hnew x hx).1.symm.trans hphase) (by simp)
    · rcases List.mem_append.mp hx with hold | hx
      · exact hn.others hother x hold hw bytes call hphase
      · exact absurd ((hnew x hx).1.symm.trans hphase) (by simp)
  | @execute j x x' action proposed hj hx =>
    have hmem := List.mem_of_getElem? hj
    have hid := hx.workflowId_eq
    refine ⟨hn.bound, hn.owner, hn.events, fun y hy hw => ?_, fun y hy bytes call hphase => ?_,
      fun hother y hy hw bytes call hphase => ?_⟩
    · rcases List.mem_or_eq_of_mem_set hy with hold | rfl
      · exact hn.executions y hold hw
      · exact hn.executions x hmem (hid ▸ hw)
    · rcases List.mem_or_eq_of_mem_set hy with hold | rfl
      · exact hn.calls y hold bytes call hphase
      · rw [hid]
        exact hx.call (hn.calls x hmem) hphase
    · rcases List.mem_or_eq_of_mem_set hy with hold | rfl
      · exact hn.others hother y hold hw bytes call hphase
      · rw [hid] at hw
        have howner := hn.owner (hn.executions x hmem hw)
        exact (hx.other (hw ▸ howner) hother (hn.others hother x hmem hw)).2 bytes call hphase

/-- Only the owner proposes the end. -/
theorem Owned.proposes_none (hn : n.Owned w o log nodeId) (hother : nodeId ≠ o)
    (h : n.Stepped log snapshots nodeId action n' proposed) :
    proposed.countP (WorkflowCommand.endsWorkflow w) = 0 := by
  cases h with
  | @execute j x x' action proposed hj hx =>
    have hmem := List.mem_of_getElem? hj
    by_cases hw : x.workflowId = w
    · have howner := hn.owner (hn.executions x hmem hw)
      rw [(hx.other (hw ▸ howner) hother (hn.others hother x hmem hw)).1, List.countP_nil]
    · have hends := hx.ends w fun bytes call hphase => (hn.calls x hmem bytes call hphase).2
      have hid : (x'.workflowId == w) = false := by simpa [hx.workflowId_eq] using hw
      rw [hid, Bool.false_and] at hends
      simp only [Bool.false_eq_true, if_false] at hends
      omega
  | _ => rfl

/-- The owner's executions are counted as long as it does not start again. -/
theorem Counted.step (hn : n.Counted w log) (hnot : ∀ k, action ≠ .restart k)
    (h : n.Stepped log snapshots nodeId action n' proposed) : n'.Counted w log := by
  cases h with
  | @apply command hfree hlog =>
    refine ⟨hn.executions, ?_⟩
    have hevents := hn.events
    -- one more entry is applied, and what it publishes has at most its one start
    have htake : log.take (n.applied + 1) = log.take n.applied ++ [command] := by
      rw [List.take_add_one, hlog, Option.toList_some]
    rw [hfree, List.append_nil] at hevents
    show (n.published ++
      WorkflowStateMachine.eventsOf (n.stateMachine.apply command).1).countP _ ≤
        (log.take (n.applied + 1)).countP _
    rw [htake, List.countP_append, List.countP_append, countP_eventsOf]
    exact Nat.add_le_add_right hevents _
  | @publish event unpublished hevent =>
    refine ⟨hn.executions.trans ?_, ?_⟩
    · exact ((List.prefix_append n.published [event]).take _).countP_le
    · have hevents := hn.events
      rw [hevent] at hevents
      simpa using hevents
  | pop => exact ⟨hn.executions, hn.events⟩
  | install hk hahead =>
    exact ⟨hn.executions, hn.events.trans (List.take_prefix_take_left hahead.le).countP_le⟩
  | restart => exact absurd rfl (hnot none)
  | @restore k => exact absurd rfl (hnot (some k))
  | register => exact ⟨hn.executions, hn.events⟩
  | rejected => exact hn
  | startObserver hnone =>
    refine ⟨hn.executions.trans ?_, hn.events⟩
    rw [hnone]
    exact (List.take_prefix_take_left (Nat.zero_le _)).countP_le
  | @observe next event hobserver hevent =>
    refine ⟨?_, hn.events⟩
    have hspawned := hn.executions
    -- one more event is observed, and it spawns an execution if it is a start
    have hcount : (spawned event : List (WorkflowExecution F)).countP (·.workflowId == w) =
        [event].countP (WorkflowEvent.startsWorkflow w) := by
      cases event with
      | workflowStarted =>
        rw [List.countP_singleton]
        exact List.countP_singleton
      | _ => rfl
    have htake : n.published.take (next + 1) = n.published.take next ++ [event] := by
      rw [List.take_add_one, hevent, Option.toList_some]
    rw [hobserver] at hspawned
    change (n.executions ++ spawned event).countP _ ≤ (n.published.take (next + 1)).countP _
    rw [htake, List.countP_append, List.countP_append, hcount]
    exact Nat.add_le_add_right hspawned _
  | lag hobserver hle =>
    refine ⟨hn.executions.trans ?_, hn.events⟩
    rw [hobserver]
    exact (List.take_prefix_take_left hle).countP_le
  | @execute j x x' action proposed hj hx =>
    refine ⟨?_, hn.events⟩
    -- an execution keeps its workflow
    have hset := Planning.countP_set_add (p := (·.workflowId == w)) hj x'
    rw [hx.workflowId_eq, Nat.add_right_cancel_iff] at hset
    exact hset.le.trans hn.executions

theorem Stepped.proposes (h : n.Stepped log snapshots nodeId action n' proposed) :
    ∀ command ∈ proposed, ∃ w bytes, command = .workflowEnd w bytes := by
  cases h with
  | execute hj hx => exact hx.proposes
  | _ => simp

/-- The ends that the owner proposes are counted by its executions. -/
theorem Owned.ends (hn : n.Owned w o log nodeId) (hnot : ∀ k, action ≠ .restart k)
    (h : n.Stepped log snapshots nodeId action n' proposed) :
    proposed.countP (WorkflowCommand.endsWorkflow w) +
        n.executions.countP (fun x => x.workflowId == w && x.hasProposed) ≤
      n'.executions.countP fun x => x.workflowId == w && x.hasProposed := by
  cases h with
  | restart => exact absurd rfl (hnot none)
  | @restore k => exact absurd rfl (hnot (some k))
  | observe => simp [List.countP_append]
  | @execute j x x' action proposed hj hx =>
    have hends := hx.ends w fun bytes call hphase =>
      (hn.calls x (List.mem_of_getElem? hj) bytes call hphase).2
    have hset := Planning.countP_set_add (p := fun x => x.workflowId == w && x.hasProposed) hj x'
    dsimp only at hset ⊢
    omega
  | _ => exact (Nat.zero_add _).le

end

end ExecutingNode

/-! ## Runs -/

namespace Executions

section
variable {F : Type} {w : String} {o : ℕ} {s s' : Executions F}

/-- The workflow is started on its owner, keeps it, and the owner does not start again. -/
def Undisturbed (w : String) (o : ℕ) : ExecutionsOp F → Prop
  | .startWorkflow nodeId workflowId _ _ _ => workflowId = w → nodeId = o
  | .changeOwner workflowId _ _ _ => workflowId ≠ w
  | .node nodeId (.restart _) => nodeId ≠ o
  | _ => True

def startsWorkflow (w : String) : ExecutionsOp F → Bool
  | .startWorkflow _ workflowId _ _ _ => workflowId == w
  | _ => false

theorem Owned.propose (h : s.Owned w o) {command : WorkflowCommand} (hleaves : command.LeavesTo w o)
    (hends : command.endsWorkflow w = false) : (s.propose [command]).Owned w o := by
  refine ⟨fun c hc => ?_, h.snapshots, h.nodes, h.counted, ?_⟩
  · rw [Executions.propose, ← List.append_assoc, List.mem_append, List.mem_singleton] at hc
    rcases hc with hold | rfl
    · exact h.leaves c hold
    · exact hleaves
  · rw [Executions.propose, ← List.append_assoc, List.countP_append]
    simpa [hends] using h.ends

variable [JsonText]

theorem Owned.step (h : s.Owned w o) {op : ExecutionsOp F} (hop : Undisturbed w o op)
    (hstep : s.step op = some s') : s'.Owned w o := by
  cases op with
  | startWorkflow nodeId workflowId workflowType version input =>
    obtain rfl := Option.some.inj hstep
    exact h.propose hop rfl
  | setCheckpoint workflowId key value =>
    obtain rfl := Option.some.inj hstep
    exact h.propose trivial rfl
  | changeOwner workflowId oldOwnerNodeId newOwnerNodeId reason =>
    obtain rfl := Option.some.inj hstep
    exact h.propose hop rfl
  | commit k =>
    obtain ⟨command, hk, rfl⟩ := Option.map_eq_some_iff.mp hstep
    have hperm := perm_commit s.log hk
    refine ⟨fun c hc => h.leaves c (hperm.mem_iff.mp hc), fun p hp => ?_,
      fun nodeId => (h.nodes nodeId).append _, ?_, (hperm.countP_eq _).le.trans h.ends⟩
    · obtain ⟨hbound, howner⟩ := h.snapshots p hp
      exact ⟨hbound.trans (by simp), fun hs => howner ((startedBy_append hbound).mp hs)⟩
    · refine ⟨h.counted.executions, h.counted.events.trans ?_⟩
      exact ((List.prefix_append s.log [command]).take _).countP_le
  | lose k =>
    obtain rfl := Option.some.inj hstep
    have hsub : (s.log ++ s.inFlight.eraseIdx k).Sublist (s.log ++ s.inFlight) :=
      (List.eraseIdx_sublist _ _).append_left _
    exact ⟨fun c hc => h.leaves c (hsub.subset hc), h.snapshots, h.nodes, h.counted,
      hsub.countP_le.trans h.ends⟩
  | takeSnapshot nodeId =>
    rw [Executions.step, Option.ite_none_left_eq_some, Option.some.injEq] at hstep
    obtain ⟨-, rfl⟩ := hstep
    refine ⟨h.leaves, fun p hp => ?_, h.nodes, h.counted, h.ends⟩
    rcases List.mem_append.mp hp with hold | hnew
    · exact h.snapshots p hold
    · obtain rfl := List.mem_singleton.mp hnew
      exact ⟨(h.nodes nodeId).bound, (h.nodes nodeId).owner⟩
  | node nodeId action =>
    obtain ⟨⟨n', proposed⟩, hn', rfl⟩ := Option.map_eq_some_iff.mp hstep
    have hstepped := ExecutingNode.step_stepped hn'
    have hlog : ∀ command ∈ s.log, command.LeavesTo w o := fun command hcommand =>
      h.leaves command (List.mem_append_left _ hcommand)
    have hnodes : ∀ other, (Function.update s.nodes nodeId n' other).Owned w o s.log other := by
      intro other
      by_cases hother : other = nodeId
      · rw [hother, Function.update_self]
        exact (h.nodes nodeId).step hlog h.snapshots hstepped
      · rw [Function.update_of_ne hother]
        exact h.nodes other
    have hleaves : ∀ command ∈ s.log ++ (s.inFlight ++ proposed), command.LeavesTo w o := by
      intro command hcommand
      rw [← List.append_assoc, List.mem_append] at hcommand
      rcases hcommand with hold | hnew
      · exact h.leaves command hold
      · obtain ⟨w', bytes, rfl⟩ := hstepped.proposes command hnew
        trivial
    have hcount : (s.log ++ (s.inFlight ++ proposed)).countP (WorkflowCommand.endsWorkflow w) =
        (s.log ++ s.inFlight).countP (WorkflowCommand.endsWorkflow w) +
          proposed.countP (WorkflowCommand.endsWorkflow w) := by
      rw [← List.append_assoc, List.countP_append]
    have hends := h.ends
    by_cases howner : nodeId = o
    · subst howner
      have hnot : ∀ k, action ≠ .restart k := by
        rintro k rfl
        exact hop rfl
      have hmore := (h.nodes nodeId).ends hnot hstepped
      refine ⟨hleaves, h.snapshots, hnodes, ?_, ?_⟩
      · show (Function.update s.nodes nodeId n' nodeId).Counted w s.log
        rw [Function.update_self]
        exact h.counted.step hnot hstepped
      · show (s.log ++ (s.inFlight ++ proposed)).countP _ ≤
          (Function.update s.nodes nodeId n' nodeId).executions.countP _
        rw [Function.update_self, hcount]
        omega
    · have hnone := (h.nodes nodeId).proposes_none howner hstepped
      have hsame : Function.update s.nodes nodeId n' o = s.nodes o :=
        Function.update_of_ne (Ne.symm howner) n' s.nodes
      refine ⟨hleaves, h.snapshots, hnodes, ?_, ?_⟩
      · show (Function.update s.nodes nodeId n' o).Counted w s.log
        rw [hsame]
        exact h.counted
      · show (s.log ++ (s.inFlight ++ proposed)).countP _ ≤
          (Function.update s.nodes nodeId n' o).executions.countP _
        rw [hsame, hcount, hnone]
        exact hends

end

end Executions

/-! Two nodes execute a workflow that node 1 owns. When it has ended, node 2 starts again and
executes it again. -/

section
open scoped Codec

private def executing (nodeId : ℕ) : List (ExecutionsOp Unit) :=
  [.node nodeId (.register "seven" 1 ()), .node nodeId .startObserver, .node nodeId .apply,
    .node nodeId .publish, .node nodeId .observe, .node nodeId (.execute 0 .lookUp),
    .node nodeId (.execute 0 .readInput), .node nodeId (.execute 0 (.finish (.ok [7]))),
    .node nodeId (.execute 0 (.record .subscribe)), .node nodeId (.execute 0 (.record .checkOwner))]

private def ended : List (ExecutionsOp Unit) :=
  [.startWorkflow 1 "w" "seven" 1 [], .commit 0] ++ executing 2 ++ executing 1 ++
    [.node 1 (.execute 0 (.record .invoke)), .commit 0, .node 1 .apply, .node 1 .publish]

end

end Raftoral

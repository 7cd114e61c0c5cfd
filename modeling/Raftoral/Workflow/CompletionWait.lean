import Raftoral.Lib.Broadcast
import Raftoral.Lib.Run
import Raftoral.Workflow.Lifecycle
import Raftoral.Workflow.Outcome

/-!
# Waiting for a workflow to complete

`start_workflow` and `get_workflow_run` return a handle, and `wait_for_completion` subscribes to
the events of the node when it is called. A node applies a command and then publishes its events;
the subscription can come before, between or behind. Whoever subscribes behind the completion
event, or loses it to lag, waits for ever: nothing looks at the state machine.
-/

namespace Raftoral

open Json WorkflowStateMachine

/-- The event ends the waiting for a workflow. -/
def WorkflowEvent.completes (w : String) : WorkflowEvent → Bool
  | .workflowCompleted workflowId _ => workflowId == w
  | _ => false

/-- A node and a handle of a workflow on it. -/
structure CompletionWait where
  stateMachine : WorkflowStateMachine := {}
  /-- The events of the last command that are not published yet. -/
  unpublished : List WorkflowEvent := []
  published : List WorkflowEvent := []
  /-- `WorkflowStart` of the workflow was applied. -/
  started : Bool := false
  handle : Bool := false
  /-- The position of the receiver and what it was given, once the wait was called. -/
  waiter : Option (ℕ × List EventReceipt) := none

inductive WaitOp where
  /-- The node applies a committed command. -/
  | apply (command : WorkflowCommand)
  /-- The node publishes the next event of the command. -/
  | publish
  /-- `start_workflow` returns. -/
  | startWorkflow
  | getWorkflowRun
  | waitForCompletion
  /-- The receiver of the wait is given something. -/
  | receive
deriving DecidableEq, Repr

namespace CompletionWait

section
variable [JsonText] (O : Type) [SerdeValue O] (capacity : ℕ) (w : String)

/-- The wait has been called and has not returned. -/
def Waits (s : CompletionWait) (next : ℕ) (receipts : List EventReceipt) : Prop :=
  s.waiter = some (next, receipts) ∧
    (Raftoral.waitForCompletion w receipts : Option (Except WorkflowError O)) = none

def receive (s : CompletionWait) (next : ℕ) (receipts : List EventReceipt) :
    Option CompletionWait :=
  match Broadcast.recv capacity s.published next with
  | .value e next' => some { s with waiter := some (next', receipts ++ [.event e]) }
  | .lagged next' => some { s with waiter := some (next', receipts ++ [.lagged]) }
  | .empty => none

def step (s : CompletionWait) : WaitOp → Option CompletionWait
  | .apply command =>
    if s.unpublished.isEmpty then
      some { s with
        stateMachine := (s.stateMachine.apply command).2
        unpublished := eventsOf (s.stateMachine.apply command).1
        started := s.started || command.startsWorkflow w }
    else none
  | .publish =>
    match s.unpublished with
    | [] => none
    | e :: rest => some { s with unpublished := rest, published := s.published ++ [e] }
  -- `propose_and_wait` returns once the command is applied
  | .startWorkflow => if s.started then some { s with handle := true } else none
  | .getWorkflowRun => some { s with handle := true }
  | .waitForCompletion =>
    if s.handle ∧ s.waiter = none then
      some { s with waiter := some (s.published.length, []) }
    else none
  | .receive =>
    match s.waiter with
    | none => none
    | some (next, receipts) =>
      match (Raftoral.waitForCompletion w receipts : Option (Except WorkflowError O)) with
      | some _ => none
      | none => receive capacity s next receipts

/-- The workflow is recorded as completed, all events are out and were given to the receiver or
dropped, and the wait has not returned. -/
def LostWakeup (s : CompletionWait) : Prop :=
  s.stateMachine.getWorkflowStatus w = some .completed ∧ s.unpublished = [] ∧
    ∃ receipts, s.Waits O w s.published.length receipts

/-- The wait is called before the completion event is published, and a receiver that lags does
not lose it. -/
def Timely (s : CompletionWait) : WaitOp → Prop
  | .waitForCompletion => s.stateMachine.getWorkflowStatus w = some .completed →
      ∃ e ∈ s.unpublished, e.completes w
  | .receive => ∀ p ∈ s.waiter, ∀ e ∈ Broadcast.dropped capacity s.published p.1, ¬ e.completes w
  | _ => True

/-! ## The invariant -/

/-- While the wait goes on, the completion event of a completed workflow is still ahead. -/
def Awaited (s : CompletionWait) : Prop :=
  ∀ next receipts, s.Waits O w next receipts → next ≤ s.published.length ∧
    (s.stateMachine.getWorkflowStatus w = some .completed →
      ∃ e ∈ s.published.drop next ++ s.unpublished, e.completes w)

variable {O capacity w}

theorem Awaited.not_lostWakeup {s : CompletionWait} (h : s.Awaited O w) : ¬ s.LostWakeup O w := by
  rintro ⟨hstatus, hout, receipts, hwaits⟩
  obtain ⟨e, he, -⟩ := (h _ receipts hwaits).2 hstatus
  rw [hout, List.drop_length] at he
  exact absurd he List.not_mem_nil

omit [JsonText] [SerdeValue O] in
/-- A command that completes the workflow has its completion event. -/
theorem completes_of_apply {sm : WorkflowStateMachine} {command : WorkflowCommand}
    (h : (sm.apply command).2.getWorkflowStatus w = some .completed) :
    sm.getWorkflowStatus w = some .completed ∨
      ∃ e ∈ eventsOf (sm.apply command).1, e.completes w := by
  have hstatus := congrArg WorkflowRecord.status (record_apply sm command w)
  rw [WorkflowRecord.status_apply] at hstatus
  have hrecord : (command.statusOf w).or (sm.getWorkflowStatus w) = some .completed :=
    hstatus.symm.trans h
  cases command with
  | workflowEnd workflowId result =>
    by_cases hw : workflowId = w
    · exact Or.inr ⟨.workflowCompleted workflowId result, List.mem_singleton.mpr rfl,
        by simp [WorkflowEvent.completes, hw]⟩
    · exact Or.inl (by simpa [WorkflowCommand.statusOf, hw] using hrecord)
  | workflowStart workflowId workflowType version input ownerNodeId =>
    by_cases hw : workflowId = w
    · simp [WorkflowCommand.statusOf, hw] at hrecord
    · exact Or.inl (by simpa [WorkflowCommand.statusOf, hw] using hrecord)
  | setCheckpoint workflowId key value => exact Or.inl hrecord
  | ownerChange workflowId old new reason => exact Or.inl hrecord

/-- The wait returns when it is given the completion event. -/
theorem waitForCompletion_completes {receipts : List EventReceipt} {e : WorkflowEvent}
    (h : (Raftoral.waitForCompletion w receipts : Option (Except WorkflowError O)) = none)
    (he : e.completes w) :
    (Raftoral.waitForCompletion w (receipts ++ [.event e]) : Option (Except WorkflowError O)) ≠
      none := by
  rw [waitForCompletion_append h]
  cases e with
  | workflowCompleted workflowId result =>
    have hw : workflowId = w := by simpa [WorkflowEvent.completes] using he
    simp [Raftoral.waitForCompletion, hw]
  | _ => exact absurd he (by simp [WorkflowEvent.completes])

/-- What the receiver is given leaves a completion event that was ahead ahead, or ends the wait. -/
theorem Awaited.receive {s s' : CompletionWait} (h : s.Awaited O w) {next : ℕ}
    {receipts : List EventReceipt} (hwaits : s.Waits O w next receipts)
    (hkept : ∀ e ∈ Broadcast.dropped capacity s.published next, ¬ e.completes w)
    (hs : receive capacity s next receipts = some s') : s'.Awaited O w := by
  obtain ⟨-, hahead⟩ := h next receipts hwaits
  unfold CompletionWait.receive at hs
  split at hs
  next e next' hrecv =>
    obtain ⟨hle, hdrop⟩ := Broadcast.drop_of_recv_value hrecv
    obtain rfl := Option.some.inj hs
    rintro next₁ receipts₁ ⟨hwaiter, hnone⟩
    obtain ⟨rfl, rfl⟩ := Prod.mk.inj (Option.some.inj hwaiter)
    refine ⟨hle, fun hstatus => ?_⟩
    obtain ⟨x, hx, hcompletes⟩ := hahead hstatus
    rw [hdrop, List.cons_append] at hx
    rcases List.mem_cons.mp hx with rfl | hx
    · exact absurd hnone (waitForCompletion_completes hwaits.2 hcompletes)
    · exact ⟨x, hx, hcompletes⟩
  next next' hrecv =>
    obtain ⟨hle, hdrop⟩ := Broadcast.drop_of_recv_lagged hrecv
    obtain rfl := Option.some.inj hs
    rintro next₁ receipts₁ ⟨hwaiter, hnone⟩
    obtain ⟨rfl, rfl⟩ := Prod.mk.inj (Option.some.inj hwaiter)
    refine ⟨hle, fun hstatus => ?_⟩
    obtain ⟨x, hx, hcompletes⟩ := hahead hstatus
    rw [hdrop, List.append_assoc] at hx
    rcases List.mem_append.mp hx with hx | hx
    · exact absurd hcompletes (hkept x hx)
    · exact ⟨x, hx, hcompletes⟩
  next => exact absurd hs (by simp)

theorem step_awaited {s s' : CompletionWait} {op : WaitOp} (h : s.Awaited O w)
    (htimely : s.Timely capacity w op) (hs : s.step O capacity w op = some s') :
    s'.Awaited O w := by
  cases op with
  | apply command =>
    simp only [step, Option.ite_none_right_eq_some, Option.some.injEq] at hs
    obtain ⟨hout, rfl⟩ := hs
    rintro next receipts hwaits
    obtain ⟨hle, hahead⟩ := h next receipts hwaits
    refine ⟨hle, fun hstatus => ?_⟩
    -- whatever ends the workflow publishes its completion
    rcases completes_of_apply hstatus with hbefore | ⟨e, he, hcompletes⟩
    · obtain ⟨e, he, hcompletes⟩ := hahead hbefore
      rw [List.isEmpty_iff.mp hout, List.append_nil] at he
      exact ⟨e, List.mem_append_left _ he, hcompletes⟩
    · exact ⟨e, List.mem_append_right _ he, hcompletes⟩
  | publish =>
    unfold step at hs
    cases hout : s.unpublished with
    | nil => simp [hout] at hs
    | cons e rest =>
      simp only [hout, Option.some.injEq] at hs
      subst hs
      rintro next receipts hwaits
      obtain ⟨hle, hahead⟩ := h next receipts hwaits
      refine ⟨by simp only [List.length_append]; omega, fun hstatus => ?_⟩
      obtain ⟨x, hx, hcompletes⟩ := hahead hstatus
      -- the event moves from the unpublished to the published, which in a row are as before
      refine ⟨x, ?_, hcompletes⟩
      rw [hout] at hx
      rw [List.drop_append_of_le_length hle, List.append_assoc]
      exact hx
  | startWorkflow =>
    simp only [step, Option.ite_none_right_eq_some, Option.some.injEq] at hs
    obtain ⟨-, rfl⟩ := hs
    exact h
  | getWorkflowRun =>
    obtain rfl := Option.some.inj hs
    exact h
  | waitForCompletion =>
    simp only [step, Option.ite_none_right_eq_some, Option.some.injEq] at hs
    obtain ⟨-, rfl⟩ := hs
    rintro next receipts ⟨hwaiter, -⟩
    obtain ⟨rfl, -⟩ := Prod.mk.inj (Option.some.inj hwaiter)
    refine ⟨le_rfl, fun hstatus => ?_⟩
    -- a wait that begins in time has the completion ahead
    obtain ⟨e, he, hcompletes⟩ := htimely hstatus
    exact ⟨e, List.mem_append_right _ he, hcompletes⟩
  | receive =>
    unfold step at hs
    cases hwaiter : s.waiter with
    | none => simp [hwaiter] at hs
    | some p =>
      obtain ⟨next, receipts⟩ := p
      simp only [hwaiter] at hs
      split at hs
      next => exact absurd hs (by simp)
      next hnone => exact h.receive ⟨hwaiter, hnone⟩ (htimely _ hwaiter) hs

variable (O capacity w)

/-- In every run in which the wait is called before the completion event is published, and in
which no completion event is lost to lag, no wakeup is lost. -/
theorem no_lostWakeup (ops : List WaitOp) (s : CompletionWait)
    (htimely : Transition.Along (step O capacity w) (Timely capacity w) {} ops)
    (hrun : Transition.run (step O capacity w) {} ops = some s) : ¬ s.LostWakeup O w := by
  refine Awaited.not_lostWakeup ?_
  refine Transition.run_induction (fun _ _ _ h ht hs => step_awaited h ht hs) ?_ htimely hrun
  rintro next receipts ⟨hwaiter, -⟩
  exact absurd hwaiter (by simp)

/-- Whoever calls the wait when all is over waits for ever. -/
theorem lostWakeup_of_late {s : CompletionWait} (hhandle : s.handle) (hwaiter : s.waiter = none)
    (hstatus : s.stateMachine.getWorkflowStatus w = some .completed) (hout : s.unpublished = []) :
    ∃ s', s.step O capacity w .waitForCompletion = some s' ∧ s'.LostWakeup O w := by
  refine ⟨{ s with waiter := some (s.published.length, []) }, ?_, hstatus, hout, [], rfl, rfl⟩
  rw [step, if_pos ⟨hhandle, hwaiter⟩]

end

section
open scoped Codec

/-- The capacity of the event bus of a runtime. -/
def eventBusCapacity : ℕ := 100

/-- The wait is called before the workflow ends. -/
def calledEarly : List WaitOp :=
  [.getWorkflowRun, .waitForCompletion, .apply (.workflowEnd "w" []), .publish, .receive]

theorem no_lostWakeup_called_early :
    ∃ s, Transition.run (step Value eventBusCapacity "w") {} calledEarly = some s ∧
      s.stateMachine.getWorkflowStatus "w" = some .completed ∧ s.unpublished = [] ∧
      ¬ s.LostWakeup Value "w" := by
  refine ⟨_, rfl, Std.ExtTreeMap.getElem?_insert_self, rfl, ?_⟩
  refine no_lostWakeup Value eventBusCapacity "w" calledEarly _ ⟨trivial, fun s₁ h₁ => ⟨?_, fun s₂ h₂ =>
    ⟨trivial, fun s₃ h₃ => ⟨trivial, fun s₄ h₄ => ⟨?_, fun _ _ => trivial⟩⟩⟩⟩⟩ rfl
  · obtain rfl := Option.some.inj h₁
    intro hstatus
    exact absurd hstatus (by simp [getWorkflowStatus])
  · obtain rfl := Option.some.inj h₁
    obtain rfl := Option.some.inj h₂
    obtain rfl := Option.some.inj h₃
    obtain rfl := Option.some.inj h₄
    rintro p - e he
    rw [Broadcast.dropped_eq_nil (by simp [eventBusCapacity])] at he
    exact absurd he List.not_mem_nil

/-- A workflow that ends between `start_workflow` and the wait. -/
theorem lostWakeup_called_late :
    ∃ s, Transition.run (step Value eventBusCapacity "w") {}
        [.apply (.workflowStart "w" "t" 1 [] 1), .publish, .startWorkflow,
         .apply (.workflowEnd "w" []), .publish, .waitForCompletion] = some s ∧
      s.LostWakeup Value "w" := by
  refine ⟨_, rfl, Std.ExtTreeMap.getElem?_insert_self, rfl, [], rfl, rfl⟩

end

end CompletionWait

end Raftoral

import Raftoral.Workflow.OwnerOrWait

/-!
# What a call of `execute_owner_or_wait` does

The records of a call are some that decide nothing, and behind them what has decided (`Kept`): the
operation behind a check that has read this node or no owner, or a value of the extractor. It lasts
for ten attempts, and apart from the events it takes its steps are bounded.
-/

namespace Raftoral

open Transition

variable {T : Type}

namespace OwnerOrWait

/-! ## The invariant -/

/-- Nothing among the records decides how the call ends. -/
def Quiet (records : List (CallRecord T)) : Prop := ∀ r ∈ records, ¬ r.Decides

/-- The last of the records is a check that has read this node, or no owner. -/
def CheckedAsOwner (c : OwnerOrWaitCall T) (records : List (CallRecord T)) : Prop :=
  ∃ owner, records.getLast? = some (.checkedOwner owner) ∧ (owner = none ∨ owner = some c.nodeId)

/-- One of the subscriptions begins at this number or before. -/
def SubscribedBefore (records : List (CallRecord T)) (number : ℕ) : Prop :=
  ∃ position, .subscribed position ∈ records ∧ position ≤ number

/-- The extractor has given a value for an event of the workflow that was published behind a
subscription. -/
def ValueOf (c : OwnerOrWaitCall T) (published : List WorkflowEvent) (records : List (CallRecord T))
    (number : ℕ) (event : WorkflowEvent) (value : T) : Prop :=
  published[number]? = some event ∧ event.workflowId = c.workflowId ∧
    c.extractor event = some value ∧ SubscribedBefore records number

/-- The attempt under way has subscribed. -/
def AtAttempt (quiet deciding : List (CallRecord T)) (attempt : ℕ) : Prop :=
  deciding = [] ∧ attempt < maxRetries ∧ quiet.countP CallRecord.isSubscription = attempt + 1

/-- What the records of a call are made of, by where it stands. -/
def Stands (c : OwnerOrWaitCall T) (s : OwnerOrWait T) (quiet deciding : List (CallRecord T)) :
    Prop :=
  match s.phase with
  | .subscribing attempt =>
    deciding = [] ∧ attempt < maxRetries ∧ quiet.countP CallRecord.isSubscription = attempt
  | .checking attempt | .waiting attempt =>
    AtAttempt quiet deciding attempt ∧ SubscribedBefore quiet s.next
  | .rechecking attempt => AtAttempt quiet deciding attempt
  | .owning => deciding = [] ∧ CheckedAsOwner c quiet
  | .operating => deciding = [.invokedOperation] ∧ CheckedAsOwner c quiet
  | .returned result =>
    deciding = [.invokedOperation, .operationReturned result] ∧ CheckedAsOwner c quiet ∨
      (∃ number event value, deciding = [.consumed number event (some (some value))] ∧
        result = .ok value ∧ ValueOf c s.published quiet number event value) ∨
      deciding = [] ∧ ∃ error, result = .error error

/-- The records are some that decide nothing, and behind them what has decided. -/
structure Kept (c : OwnerOrWaitCall T) (s : OwnerOrWait T) (quiet deciding : List (CallRecord T)) :
    Prop where
  records : s.records = quiet ++ deciding
  undecided : Quiet quiet
  attempts : quiet.countP CallRecord.isSubscription ≤ maxRetries
  stands : s.Stands c quiet deciding

section
variable {c : OwnerOrWaitCall T} {s s' : OwnerOrWait T} {quiet deciding done : List (CallRecord T)}

theorem isWorkflowOwner_iff {sm : WorkflowStateMachine} {workflowId : String} {nodeId : ℕ} :
    isWorkflowOwner sm workflowId nodeId ↔
      sm.getOwner workflowId = none ∨ sm.getOwner workflowId = some nodeId := by
  unfold isWorkflowOwner
  cases sm.getOwner workflowId with
  | none => simp
  | some owner => simp

theorem Quiet.append (h : Quiet quiet) (hdone : Quiet done) : Quiet (quiet ++ done) := by
  intro r hr
  rcases List.mem_append.mp hr with hr | hr
  · exact h r hr
  · exact hdone r hr

theorem quiet_singleton {r : CallRecord T} (h : ¬ r.Decides) : Quiet [r] := by
  intro r' hr'
  rw [List.mem_singleton.mp hr']
  exact h

theorem SubscribedBefore.mono {number number' : ℕ} (h : SubscribedBefore quiet number)
    (hle : number ≤ number') : SubscribedBefore (quiet ++ done) number' := by
  obtain ⟨position, hmem, hposition⟩ := h
  exact ⟨position, List.mem_append_left _ hmem, hposition.trans hle⟩

/-- An attempt is over without a decision. -/
theorem kept_afterAttempt {attempt : ℕ} (hrecords : s.records = quiet) (hquiet : Quiet quiet)
    (hat : AtAttempt quiet [] attempt) (hdone : Quiet done)
    (hnone : done.countP CallRecord.isSubscription = 0)
    (hs' : s'.records = s.records ++ done) (hphase : s'.phase = afterAttempt attempt) :
    Kept c s' (quiet ++ done) [] := by
  obtain ⟨-, hattempt, hcount⟩ := hat
  have htotal : (quiet ++ done).countP CallRecord.isSubscription = attempt + 1 := by
    rw [List.countP_append, hcount, hnone]
  refine ⟨by rw [hs', hrecords, List.append_nil], hquiet.append hdone, by omega, ?_⟩
  unfold Stands
  rw [hphase, afterAttempt]
  by_cases hlast : attempt + 1 < maxRetries
  · rw [if_pos hlast]
    exact ⟨rfl, hlast, htotal⟩
  · rw [if_neg hlast]
    exact Or.inr (Or.inr ⟨rfl, _, rfl⟩)

/-- An attempt goes on. -/
theorem kept_goOn {attempt : ℕ} (hrecords : s.records = quiet) (hquiet : Quiet quiet)
    (hat : AtAttempt quiet [] attempt) (hdone : Quiet done)
    (hnone : done.countP CallRecord.isSubscription = 0)
    (hs' : s'.records = s.records ++ done)
    (hstands : AtAttempt (quiet ++ done) [] attempt → s'.Stands c (quiet ++ done) []) :
    Kept c s' (quiet ++ done) [] := by
  obtain ⟨-, hattempt, hcount⟩ := hat
  have htotal : (quiet ++ done).countP CallRecord.isSubscription = attempt + 1 := by
    rw [List.countP_append, hcount, hnone]
  exact ⟨by rw [hs', hrecords, List.append_nil], hquiet.append hdone, by omega,
    hstands ⟨rfl, hattempt, htotal⟩⟩

theorem kept_consume {attempt next : ℕ} {event : WorkflowEvent} (hrecords : s.records = quiet)
    (hquiet : Quiet quiet) (hat : AtAttempt quiet [] attempt)
    (hsubscribed : SubscribedBefore quiet s.next) (hevent : s.published[s.next]? = some event)
    (hnext : s.next ≤ next) :
    ∃ quiet' deciding', Kept c { s.consume c attempt event with next } quiet' deciding' := by
  have hattempts : quiet.countP CallRecord.isSubscription ≤ maxRetries := by
    have hcount := hat.2
    omega
  unfold consume
  generalize hfound : (if matchesWorkflow c.workflowId event then
    orOwnershipChange c.workflowId c.extractor event else none) = found
  cases found with
  | none =>
    have hkept : Kept c { s.goOn (.waiting attempt) [.consumed s.next event none] with next }
        (quiet ++ [.consumed s.next event none]) [] :=
      kept_goOn hrecords hquiet hat (quiet_singleton (by simp [CallRecord.Decides])) rfl rfl
        fun hat' => ⟨hat', hsubscribed.mono hnext⟩
    exact ⟨_, _, hkept⟩
  | some found =>
    cases found with
    | none =>
      have hkept : Kept c
          { s.goOn (afterAttempt attempt) [.consumed s.next event (some none)] with next }
          (quiet ++ [.consumed s.next event (some none)]) [] :=
        kept_afterAttempt hrecords hquiet hat (quiet_singleton (by simp [CallRecord.Decides]))
          rfl rfl rfl
      exact ⟨_, _, hkept⟩
    | some value =>
      rw [Option.ite_none_right_eq_some] at hfound
      obtain ⟨hid, hvalue⟩ := orOwnershipChange_value hfound.2
      refine ⟨quiet, [.consumed s.next event (some (some value))], ?_, hquiet, hattempts, ?_⟩
      · exact congrArg (· ++ _) hrecords
      · exact Or.inr (Or.inl ⟨s.next, event, value, rfl, rfl, hevent, hid, hvalue, hsubscribed⟩)

/-- What happens on the node leaves the call where it is. -/
theorem Kept.environment (h : Kept c s quiet deciding) (hrecords : s'.records = s.records)
    (hphase : s'.phase = s.phase) (hnext : s'.next = s.next)
    (hpublished : s.published <+: s'.published) : Kept c s' quiet deciding := by
  have hstands := h.stands
  refine ⟨hrecords.trans h.records, h.undecided, h.attempts, ?_⟩
  unfold Stands at hstands ⊢
  rw [hphase, hnext]
  cases hs : s.phase with
  | returned result =>
    rw [hs] at hstands
    rcases hstands with hdone | ⟨number, event, value, hdeciding, hresult, hevent, hrest⟩ | herror
    · exact Or.inl hdone
    · obtain ⟨later, hlater⟩ := hpublished
      refine Or.inr (Or.inl ⟨number, event, value, hdeciding, hresult, ?_, hrest⟩)
      rw [← hlater, List.getElem?_append_left (List.getElem?_eq_some_iff.mp hevent).1, hevent]
    · exact Or.inr (Or.inr herror)
  | _ => simpa only [hs] using hstands

theorem Kept.subscribe (h : Kept c s quiet deciding) {attempt : ℕ}
    (hphase : s.phase = .subscribing attempt) :
    Kept c { s.goOn (.checking attempt) [.subscribed s.published.length] with
      next := s.published.length } (quiet ++ [.subscribed s.published.length]) [] := by
  have hstands := h.stands
  rw [Stands, hphase] at hstands
  obtain ⟨rfl, hattempt, hcount⟩ := hstands
  have htotal : (quiet ++ [CallRecord.subscribed s.published.length]).countP
      CallRecord.isSubscription = attempt + 1 := by
    rw [List.countP_append, hcount]
    rfl
  have hrecords : s.records = quiet := by rw [h.records, List.append_nil]
  refine ⟨?_, h.undecided.append (quiet_singleton (by simp [CallRecord.Decides])), by omega,
    ⟨rfl, hattempt, htotal⟩, s.published.length, by simp, le_rfl⟩
  rw [List.append_nil]
  exact congrArg (· ++ _) hrecords

theorem Kept.checkOwner (h : Kept c s quiet deciding) {attempt : ℕ}
    (hphase : s.phase = .checking attempt)
    (hstep : s.step c .checkOwner = some s') : ∃ quiet' deciding', Kept c s' quiet' deciding' := by
  have hstands := h.stands
  rw [Stands, hphase] at hstands
  obtain ⟨hat, hsubscribed⟩ := hstands
  obtain rfl := hat.1
  have hrecords : s.records = quiet := by rw [h.records, List.append_nil]
  rw [step, hphase] at hstep
  dsimp only at hstep
  by_cases howner : isWorkflowOwner s.stateMachine c.workflowId c.nodeId
  · rw [if_pos howner, Option.some.injEq] at hstep
    subst hstep
    refine ⟨_, _, kept_goOn hrecords h.undecided hat
      (quiet_singleton (by simp [CallRecord.Decides])) rfl rfl fun _ => ⟨rfl, ?_⟩⟩
    exact ⟨_, List.getLast?_concat, isWorkflowOwner_iff.mp howner⟩
  · rw [if_neg howner, Option.some.injEq] at hstep
    subst hstep
    refine ⟨_, _, kept_goOn hrecords h.undecided hat
      (quiet_singleton (by simp [CallRecord.Decides])) rfl rfl fun hat' => ⟨hat', ?_⟩⟩
    exact hsubscribed.mono le_rfl

theorem Kept.receive (h : Kept c s quiet deciding) {attempt : ℕ}
    (hphase : s.phase = .waiting attempt) (hstep : s.receive c attempt = some s') :
    ∃ quiet' deciding', Kept c s' quiet' deciding' := by
  have hstands := h.stands
  rw [Stands, hphase] at hstands
  obtain ⟨hat, hsubscribed⟩ := hstands
  obtain rfl := hat.1
  have hrecords : s.records = quiet := by rw [h.records, List.append_nil]
  unfold OwnerOrWait.receive at hstep
  split at hstep
  · next event next hrecv =>
    obtain rfl := Option.some.inj hstep
    obtain ⟨hevent, hnext⟩ := Broadcast.getElem?_of_recv_value hrecv
    exact kept_consume hrecords h.undecided hat hsubscribed hevent (by omega)
  · next next hrecv =>
    -- a receiver that lags goes on with the events that are left
    obtain rfl := Option.some.inj hstep
    have hnext := Broadcast.le_of_recv_lagged hrecv
    refine ⟨quiet, [], h.records, h.undecided, h.attempts, ?_⟩
    rw [Stands, hphase]
    obtain ⟨position, hmem, hle⟩ := hsubscribed
    exact ⟨hat, position, hmem, hle.trans hnext⟩
  · rw [Option.ite_none_right_eq_some, Option.some.injEq] at hstep
    obtain ⟨-, rfl⟩ := hstep
    refine ⟨quiet, [], ?_, h.undecided, h.attempts, Or.inr (Or.inr ⟨rfl, _, rfl⟩)⟩
    exact congrArg (· ++ []) hrecords

theorem Kept.recheck (h : Kept c s quiet deciding) {attempt : ℕ}
    (hphase : s.phase = .rechecking attempt) (hstep : s.step c .recheck = some s') :
    ∃ quiet' deciding', Kept c s' quiet' deciding' := by
  have hat := h.stands
  rw [Stands, hphase] at hat
  obtain rfl := hat.1
  have hrecords : s.records = quiet := by rw [h.records, List.append_nil]
  have hquiet : Quiet [CallRecord.checkedOwner (T := T) (s.stateMachine.getOwner c.workflowId)] :=
    quiet_singleton (by simp [CallRecord.Decides])
  rw [step, hphase] at hstep
  dsimp only at hstep
  split at hstep
  · obtain rfl := Option.some.inj hstep
    exact ⟨_, _, kept_afterAttempt hrecords h.undecided hat hquiet rfl rfl rfl⟩
  · split at hstep
    · obtain rfl := Option.some.inj hstep
      exact ⟨_, _, kept_goOn hrecords h.undecided hat hquiet rfl rfl fun _ =>
        Or.inr (Or.inr ⟨rfl, _, rfl⟩)⟩
    · obtain rfl := Option.some.inj hstep
      exact ⟨_, _, kept_afterAttempt hrecords h.undecided hat hquiet rfl rfl rfl⟩

theorem Kept.step (h : Kept c s quiet deciding) {a : OwnerOrWaitAction T}
    (hstep : s.step c a = some s') : ∃ quiet' deciding', Kept c s' quiet' deciding' := by
  cases a with
  | change stateMachine =>
    obtain rfl := Option.some.inj hstep
    exact ⟨_, _, h.environment rfl rfl rfl (List.prefix_refl _)⟩
  | publish event =>
    rw [OwnerOrWait.step, Option.ite_none_left_eq_some, Option.some.injEq] at hstep
    obtain ⟨-, rfl⟩ := hstep
    exact ⟨_, _, h.environment rfl rfl rfl (List.prefix_append _ _)⟩
  | close =>
    obtain rfl := Option.some.inj hstep
    exact ⟨_, _, h.environment rfl rfl rfl (List.prefix_refl _)⟩
  | subscribe =>
    rw [OwnerOrWait.step] at hstep
    split at hstep
    · next attempt hphase =>
      obtain rfl := Option.some.inj hstep
      exact ⟨_, _, h.subscribe hphase⟩
    · exact absurd hstep (by simp)
  | checkOwner =>
    cases hphase : s.phase with
    | checking attempt => exact h.checkOwner hphase hstep
    | _ => simp [OwnerOrWait.step, hphase] at hstep
  | invoke =>
    rw [OwnerOrWait.step] at hstep
    split at hstep
    · next hphase =>
      obtain rfl := Option.some.inj hstep
      have hstands := h.stands
      rw [Stands, hphase] at hstands
      obtain ⟨rfl, hchecked⟩ := hstands
      refine ⟨quiet, [.invokedOperation], ?_, h.undecided, h.attempts, rfl, hchecked⟩
      exact congrArg (· ++ _) (h.records.trans (List.append_nil quiet))
    · exact absurd hstep (by simp)
  | finish result =>
    rw [OwnerOrWait.step] at hstep
    split at hstep
    · next hphase =>
      obtain rfl := Option.some.inj hstep
      have hstands := h.stands
      rw [Stands, hphase] at hstands
      obtain ⟨rfl, hchecked⟩ := hstands
      refine ⟨quiet, [.invokedOperation, .operationReturned result], ?_, h.undecided, h.attempts,
        Or.inl ⟨rfl, hchecked⟩⟩
      exact (congrArg (· ++ _) h.records).trans (List.append_assoc quiet _ _)
    · exact absurd hstep (by simp)
  | receive =>
    rw [OwnerOrWait.step] at hstep
    split at hstep
    · next attempt hphase => exact h.receive hphase hstep
    · exact absurd hstep (by simp)
  | timeout =>
    rw [OwnerOrWait.step] at hstep
    split at hstep
    · next attempt hphase =>
      rw [Option.ite_none_right_eq_some, Option.some.injEq] at hstep
      obtain ⟨-, rfl⟩ := hstep
      have hstands := h.stands
      rw [Stands, hphase] at hstands
      refine ⟨quiet, deciding, ?_, h.undecided, h.attempts, hstands.1⟩
      exact (List.append_nil s.records).trans h.records
    · exact absurd hstep (by simp)
  | recheck =>
    cases hphase : s.phase with
    | rechecking attempt => exact h.recheck hphase hstep
    | _ => simp [OwnerOrWait.step, hphase] at hstep

/-! ## What a call does -/

/-- What decides stands behind what does not. -/
theorem Quiet.split_of_decides {before after : List (CallRecord T)} {r : CallRecord T}
    (h : Quiet quiet) (hr : r.Decides) (heq : quiet ++ deciding = before ++ r :: after) :
    ∃ more, before = quiet ++ more ∧ deciding = more ++ r :: after := by
  rcases List.append_eq_append_iff.mp heq with ⟨more, hbefore, hdeciding⟩ | ⟨more, hquiet, hrest⟩
  · exact ⟨more, hbefore, hdeciding⟩
  · cases more with
    | nil => exact ⟨[], by simpa using hquiet.symm, hrest.symm⟩
    | cons r' more =>
      obtain ⟨rfl, -⟩ := List.cons_eq_cons.mp hrest
      exact absurd hr (h r (hquiet ▸ by simp))

theorem Quiet.countP_isInvocation (h : Quiet quiet) :
    quiet.countP CallRecord.isInvocation = 0 := by
  rw [List.countP_eq_zero]
  intro r hr hinvocation
  cases r with
  | invokedOperation => exact h _ hr trivial
  | _ => exact absurd hinvocation (by simp [CallRecord.isInvocation])

/-- The forms that what has decided can have. -/
theorem Kept.deciding_cases (h : Kept c s quiet deciding) :
    deciding = [] ∨ CheckedAsOwner c quiet ∧ (deciding = [.invokedOperation] ∨
        ∃ result, deciding = [.invokedOperation, .operationReturned result]) ∨
      ∃ number event value, deciding = [.consumed number event (some (some value))] := by
  have hstands := h.stands
  unfold Stands at hstands
  cases hs : s.phase with
  | subscribing attempt => exact Or.inl (by rw [hs] at hstands; exact hstands.1)
  | checking attempt => exact Or.inl (by rw [hs] at hstands; exact hstands.1.1)
  | waiting attempt => exact Or.inl (by rw [hs] at hstands; exact hstands.1.1)
  | rechecking attempt => exact Or.inl (by rw [hs] at hstands; exact hstands.1)
  | owning => exact Or.inl (by rw [hs] at hstands; exact hstands.1)
  | operating =>
    rw [hs] at hstands
    exact Or.inr (Or.inl ⟨hstands.2, Or.inl hstands.1⟩)
  | returned result =>
    rw [hs] at hstands
    rcases hstands with ⟨hdeciding, hchecked⟩ | ⟨number, event, value, hdeciding, -⟩ | ⟨hnil, -⟩
    · exact Or.inr (Or.inl ⟨hchecked, Or.inr ⟨result, hdeciding⟩⟩)
    · exact Or.inr (Or.inr ⟨number, event, value, hdeciding⟩)
    · exact Or.inl hnil

end

/-- A call acts only as the owner, and at most once. -/
structure ActsAsOwnerOnce (c : OwnerOrWaitCall T) (s : OwnerOrWait T) : Prop where
  once : s.records.countP CallRecord.isInvocation ≤ 1
  asOwner : ∀ before after, s.records = before ++ .invokedOperation :: after →
    CheckedAsOwner c before
  /-- A value is the result of the operation, or that of the extractor. -/
  returns : ∀ value, s.phase = .returned (.ok value) →
    (∃ before, s.records = before ++ [.invokedOperation, .operationReturned (.ok value)]) ∨
      ∃ before number event, s.records = before ++ [.consumed number event (some (some value))] ∧
        ValueOf c s.published before number event value
  /-- An event with a value ends the call. -/
  valueLast : ∀ before number event value after,
    s.records = before ++ .consumed number event (some (some value)) :: after → after = []
  attempts : s.records.countP CallRecord.isSubscription ≤ maxRetries
  ends : ∀ result, s.phase = .returned result → ∀ a : OwnerOrWaitAction T, a.OfCall →
    s.step c a = none
  /-- Until then the call can go on, unless its last attempt waits without a timeout. -/
  goesOn : (∀ result, s.phase ≠ .returned result) →
    (∃ a : OwnerOrWaitAction T, a.OfCall ∧ (s.step c a).isSome) ∨
      s.phase = .waiting (maxRetries - 1) ∧ c.passiveTimeout = false

section
variable {c : OwnerOrWaitCall T} {s : OwnerOrWait T} {quiet deciding : List (CallRecord T)}

theorem step_of_returned {result : Except WorkflowError T} (hphase : s.phase = .returned result)
    {a : OwnerOrWaitAction T} (ha : a.OfCall) : s.step c a = none := by
  cases a with
  | change => exact ha.elim
  | publish => exact ha.elim
  | close => exact ha.elim
  | _ => simp [step, hphase]

theorem Kept.goesOn (h : Kept c s quiet deciding) (hphase : ∀ result, s.phase ≠ .returned result) :
    (∃ a : OwnerOrWaitAction T, a.OfCall ∧ (s.step c a).isSome) ∨
      s.phase = .waiting (maxRetries - 1) ∧ c.passiveTimeout = false := by
  have hstands := h.stands
  unfold Stands at hstands
  cases hs : s.phase with
  | subscribing attempt => exact Or.inl ⟨.subscribe, trivial, by simp [OwnerOrWait.step, hs]⟩
  | checking attempt =>
    refine Or.inl ⟨.checkOwner, trivial, ?_⟩
    rw [OwnerOrWait.step, hs]
    dsimp only
    split <;> rfl
  | owning => exact Or.inl ⟨.invoke, trivial, by simp [OwnerOrWait.step, hs]⟩
  | operating => exact Or.inl ⟨.finish (.error .timeout), trivial, by simp [OwnerOrWait.step, hs]⟩
  | waiting attempt =>
    rw [hs] at hstands
    obtain ⟨⟨-, hattempt, -⟩, -⟩ := hstands
    by_cases hwait : attempt < maxRetries - 1 ∨ c.passiveTimeout
    · exact Or.inl ⟨.timeout, trivial, by simp [OwnerOrWait.step, hs, hwait]⟩
    · rw [not_or, Bool.not_eq_true] at hwait
      obtain rfl : attempt = maxRetries - 1 := by omega
      exact Or.inr ⟨rfl, hwait.2⟩
  | rechecking attempt =>
    refine Or.inl ⟨.recheck, trivial, ?_⟩
    rw [OwnerOrWait.step, hs]
    dsimp only
    split
    · rfl
    · split <;> rfl
  | returned result => exact absurd hs (hphase result)

theorem Kept.returns (h : Kept c s quiet deciding) {value : T}
    (hphase : s.phase = .returned (.ok value)) :
    (∃ before, s.records = before ++ [.invokedOperation, .operationReturned (.ok value)]) ∨
      ∃ before number event, s.records = before ++ [.consumed number event (some (some value))] ∧
        ValueOf c s.published before number event value := by
  have hstands := h.stands
  rw [Stands, hphase] at hstands
  rcases hstands with ⟨hdeciding, -⟩ | ⟨number, event, value', hdeciding, hresult, hvalue⟩ |
    ⟨-, error, herror⟩
  · exact Or.inl ⟨quiet, by rw [h.records, hdeciding]⟩
  · obtain rfl := Except.ok.inj hresult
    exact Or.inr ⟨quiet, number, event, by rw [h.records, hdeciding], hvalue⟩
  · exact absurd herror (by simp)

theorem Kept.actsAsOwnerOnce (h : Kept c s quiet deciding) : s.ActsAsOwnerOnce c := by
  have hcases := h.deciding_cases
  refine ⟨?_, fun before after heq => ?_, fun value => h.returns, ?_, ?_,
    fun result hphase a ha => step_of_returned hphase ha, h.goesOn⟩
  · rw [h.records, List.countP_append, h.undecided.countP_isInvocation]
    rcases hcases with rfl | ⟨-, rfl | ⟨result, rfl⟩⟩ | ⟨number, event, value, rfl⟩ <;>
      simp [CallRecord.isInvocation, List.countP_cons]
  · -- the invocation comes first of what has decided
    obtain ⟨more, rfl, hmore⟩ := h.undecided.split_of_decides (r := .invokedOperation) trivial
      (h.records.symm.trans heq)
    rcases hcases with rfl | ⟨hchecked, rfl | ⟨result, rfl⟩⟩ | ⟨number, event, value, rfl⟩
    · simp at hmore
    · cases more with
      | nil => simpa using hchecked
      | cons r more => simp at hmore
    · cases more with
      | nil => simpa using hchecked
      | cons r more => cases more <;> simp at hmore
    · cases more <;> simp at hmore
  · intro before number event value after heq
    obtain ⟨more, rfl, hmore⟩ := h.undecided.split_of_decides
      (r := .consumed number event (some (some value))) trivial (h.records.symm.trans heq)
    rcases hcases with rfl | ⟨-, rfl | ⟨result, rfl⟩⟩ | ⟨number', event', value', rfl⟩
    · simp at hmore
    · cases more <;> simp at hmore
    · cases more with
      | nil => simp at hmore
      | cons r more => cases more <;> simp at hmore
    · cases more with
      | nil => exact (List.cons_eq_cons.mp hmore).2.symm
      | cons r more => simp at hmore
  · have hnone : deciding.countP CallRecord.isSubscription = 0 := by
      rcases hcases with rfl | ⟨-, rfl | ⟨result, rfl⟩⟩ | ⟨number, event, value, rfl⟩ <;>
        simp [CallRecord.isSubscription]
    rw [h.records, List.countP_append, hnone]
    exact h.attempts

end

/-! ## How long a call lasts -/

/-- A bound on the steps of the call that are left to a phase. -/
def stepsLeft : OwnerOrWaitPhase T → ℕ
  | .subscribing attempt => 4 * (maxRetries - attempt) + 6
  | .checking attempt => 4 * (maxRetries - attempt) + 5
  | .waiting attempt => 4 * (maxRetries - attempt) + 4
  | .rechecking attempt => 4 * (maxRetries - attempt) + 3
  | .owning => 2
  | .operating => 1
  | .returned _ => 0

section
variable {c : OwnerOrWaitCall T} {s s' : OwnerOrWait T}

theorem stepsLeft_afterAttempt (attempt : ℕ) :
    stepsLeft (afterAttempt attempt : OwnerOrWaitPhase T) < 4 * (maxRetries - attempt) + 3 := by
  unfold afterAttempt
  by_cases hlast : attempt + 1 < maxRetries
  · rw [if_pos hlast, stepsLeft]
    omega
  · rw [if_neg hlast, stepsLeft]
    omega

/-- Taking an event leaves no more to do than there was. -/
theorem stepsLeft_receive {attempt : ℕ} (hphase : s.phase = .waiting attempt)
    (hstep : s.receive c attempt = some s') : stepsLeft s'.phase ≤ stepsLeft s.phase := by
  have hafter := stepsLeft_afterAttempt (T := T) attempt
  unfold receive at hstep
  rw [hphase, stepsLeft]
  split at hstep
  · obtain rfl := Option.some.inj hstep
    dsimp only [consume]
    -- an event that is passed over is waited behind; any other ends the attempt or the call
    split
    · exact le_rfl
    · show stepsLeft (afterAttempt attempt) ≤ _
      omega
    · exact Nat.zero_le _
  · obtain rfl := Option.some.inj hstep
    show stepsLeft s.phase ≤ _
    rw [hphase, stepsLeft]
  · rw [Option.ite_none_right_eq_some, Option.some.injEq] at hstep
    obtain ⟨-, rfl⟩ := hstep
    exact Nat.zero_le _

theorem stepsLeft_step {a : OwnerOrWaitAction T} (hstep : s.step c a = some s') :
    stepsLeft s'.phase + a.isOwnStep.toNat ≤ stepsLeft s.phase := by
  cases a with
  -- what happens around the call leaves its phase as it is
  | change stateMachine =>
    obtain rfl := Option.some.inj hstep
    exact le_rfl
  | publish event =>
    rw [step, Option.ite_none_left_eq_some, Option.some.injEq] at hstep
    obtain ⟨-, rfl⟩ := hstep
    exact le_rfl
  | close =>
    obtain rfl := Option.some.inj hstep
    exact le_rfl
  -- the other steps go on to a phase with a smaller bound, and `receive` may stay where it is
  | subscribe =>
    rw [step] at hstep
    split at hstep
    · next attempt hphase =>
      obtain rfl := Option.some.inj hstep
      rw [hphase]
      exact le_rfl
    · exact absurd hstep (by simp)
  | checkOwner =>
    rw [step] at hstep
    split at hstep
    · next attempt hphase =>
      rw [hphase]
      split at hstep
      · obtain rfl := Option.some.inj hstep
        show 2 + 1 ≤ 4 * (maxRetries - attempt) + 5
        omega
      · obtain rfl := Option.some.inj hstep
        exact le_rfl
    · exact absurd hstep (by simp)
  | invoke =>
    rw [step] at hstep
    split at hstep
    · next hphase =>
      obtain rfl := Option.some.inj hstep
      rw [hphase]
      exact le_rfl
    · exact absurd hstep (by simp)
  | finish result =>
    rw [step] at hstep
    split at hstep
    · next hphase =>
      obtain rfl := Option.some.inj hstep
      rw [hphase]
      exact le_rfl
    · exact absurd hstep (by simp)
  | receive =>
    rw [step] at hstep
    split at hstep
    · next attempt hphase => exact stepsLeft_receive hphase hstep
    · exact absurd hstep (by simp)
  | timeout =>
    rw [step] at hstep
    split at hstep
    · next attempt hphase =>
      rw [Option.ite_none_right_eq_some, Option.some.injEq] at hstep
      obtain ⟨-, rfl⟩ := hstep
      rw [hphase]
      exact le_rfl
    · exact absurd hstep (by simp)
  | recheck =>
    rw [step] at hstep
    split at hstep
    · next attempt hphase =>
      -- each attempt is counted with four steps, of which this is the last
      have hafter := stepsLeft_afterAttempt (T := T) attempt
      rw [hphase]
      split at hstep
      · obtain rfl := Option.some.inj hstep
        show stepsLeft (afterAttempt attempt) + 1 ≤ 4 * (maxRetries - attempt) + 3
        omega
      · split at hstep
        · obtain rfl := Option.some.inj hstep
          show 0 + 1 ≤ 4 * (maxRetries - attempt) + 3
          omega
        · obtain rfl := Option.some.inj hstep
          show stepsLeft (afterAttempt attempt) + 1 ≤ 4 * (maxRetries - attempt) + 3
          omega
    · exact absurd hstep (by simp)

/-- Whatever else happens, a call takes a bounded number of steps besides taking events. -/
theorem ownSteps_le_of_run {actions : List (OwnerOrWaitAction T)}
    (hrun : run (step c) s actions = some s') :
    actions.countP OwnerOrWaitAction.isOwnStep + stepsLeft s'.phase ≤ stepsLeft s.phase := by
  induction actions generalizing s with
  | nil =>
    rw [run_nil, Option.some.injEq] at hrun
    rw [hrun, List.countP_nil, Nat.zero_add]
  | cons a actions ih =>
    obtain ⟨s₁, hstep, hrest⟩ := run_cons.mp hrun
    have hone := stepsLeft_step hstep
    have hmore := ih hrest
    rw [List.countP_cons]
    cases hown : a.isOwnStep with
    | false =>
      rw [hown, Bool.toNat_false] at hone
      rw [if_neg Bool.false_ne_true]
      omega
    | true =>
      rw [hown, Bool.toNat_true] at hone
      rw [if_pos rfl]
      omega

end

/-- On a node in any state, whatever happens to the state machine and on the event bus during the
call, and whatever the operation returns and the extractor makes of the events: a call of
`execute_owner_or_wait` invokes the operation at most once, directly behind a check that has read
this node or no owner; what it returns is the result of the operation or the value of the
extractor for an event of the workflow published behind one of its subscriptions; nothing comes
behind such a value; and it ends with the tenth attempt. -/
theorem execute_owner_or_wait_acts_once (c : OwnerOrWaitCall T) (stateMachine : WorkflowStateMachine)
    (published : List WorkflowEvent) {actions : List (OwnerOrWaitAction T)} {s : OwnerOrWait T}
    (hrun : run (step c) (start stateMachine published) actions = some s) :
    s.ActsAsOwnerOnce c := by
  obtain ⟨quiet, deciding, h⟩ : ∃ quiet deciding, Kept c s quiet deciding := by
    have hstart : Kept c (start stateMachine published) [] [] :=
      ⟨rfl, by simp [Quiet], by simp, rfl, by decide, rfl⟩
    refine run_induction (I := fun s => ∃ quiet deciding, Kept c s quiet deciding)
      ?_ ⟨_, _, hstart⟩ along_true hrun
    rintro s a s' ⟨quiet, deciding, h⟩ - hstep
    exact h.step hstep
  exact h.actsAsOwnerOnce

/-- A node that waits for the completion of `w`. -/
def completionCall : OwnerOrWaitCall ℕ where
  nodeId := 2
  workflowId := "w"
  extractor
    | .workflowCompleted _ result => some result.length
    | _ => none
  passiveTimeout := false
  capacity := 100

/-- The state machine with this owner of `w`. -/
def ownedBy (nodeId : ℕ) : WorkflowStateMachine :=
  (({} : WorkflowStateMachine).apply (.workflowStart "w" "t" 1 [] nodeId)).2

/-- The completion of another workflow is passed over. Then the node becomes the owner, and the
next attempt invokes the operation. -/
def promoted : List (OwnerOrWaitAction ℕ) :=
  [.subscribe, .checkOwner, .publish (.workflowCompleted "v" [0]), .receive,
   .change (ownedBy 2), .publish (.ownershipChanged "w" 1 2), .receive,
   .subscribe, .checkOwner, .invoke, .finish (.ok 5)]

theorem execute_owner_or_wait_promoted :
    ∃ s, run (step completionCall) (start (ownedBy 1) []) promoted = some s ∧
      s.records.countP CallRecord.isInvocation = 1 ∧ s.phase = .returned (.ok 5) ∧
      s.ActsAsOwnerOnce completionCall := by
  obtain ⟨s, hrun, hinvoked, hphase⟩ : ∃ s,
      run (step completionCall) (start (ownedBy 1) []) promoted = some s ∧
        s.records.countP CallRecord.isInvocation = 1 ∧ s.phase = .returned (.ok 5) :=
    ⟨_, rfl, rfl, rfl⟩
  exact ⟨s, hrun, hinvoked, hphase,
    execute_owner_or_wait_acts_once completionCall (ownedBy 1) [] hrun⟩

end OwnerOrWait

end Raftoral

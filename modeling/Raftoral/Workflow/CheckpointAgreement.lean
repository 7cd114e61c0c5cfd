import Raftoral.Raft.Codec
import Raftoral.Workflow.CheckpointInvariant

/-!
# Checkpoint agreement

A value reaches the executions of a follower twice: through the queue of its state machine and
as an event. A call that finds its value in the queue takes it out; a call that is answered by
the event leaves it there. As long as only the last call on a key is answered by an event, the
calls of every node return what was committed, in order.
-/

namespace Raftoral

open WorkflowNode

variable {T : Type} [SerdeJson T]

/-- The nodes agree: the calls on a key return what was committed for it, in order, so of any
two nodes one has returned the first values of what the other has. -/
structure CheckpointAgreement (workflowId : String) (s : Cluster T) : Prop where
  committed : ∀ i key, ((s.node i).returnedValues key).map Except.ok <+:
    (committedValues workflowId key s.log).map
      (SerdeJson.fromSlice : Bytes → Except String T)
  same : ∀ i j key, (s.node i).returnedValues key <+: (s.node j).returnedValues key ∨
    (s.node j).returnedValues key <+: (s.node i).returnedValues key

/-- The call under way is about to be answered by an event, and the program goes on to use its
key. -/
def WorkflowNode.answersEarly (workflowId : String) (n : WorkflowNode T) : Bool :=
  match n.exec with
  | none => false
  | some e =>
    match e.calls, e.subscription with
    | (key, _) :: rest, some (event :: _) =>
      (checkpointValue workflowId key event : Option T).isSome &&
        (rest.map Prod.fst).contains key
    | _, _ => false

/-- Only the last call on a key is answered by an event. -/
def Cluster.LastOnKey (workflowId : String) (s : Cluster T) : ClusterAction → Prop
  | .call nodeId .receive => (s.node nodeId).answersEarly workflowId = false
  | _ => True

instance (workflowId : String) (s : Cluster T) (a : ClusterAction) :
    Decidable (s.LastOnKey workflowId a) :=
  match a with
  | .call _ .receive => inferInstanceAs (Decidable (_ = _))
  | .commit _ | .apply _ | .publish _ => isTrue trivial
  | .call _ .dequeue | .call _ .subscribe | .call _ .checkOwner | .call _ .propose
  | .call _ .proposalDone | .call _ (.proposalFailed _) | .call _ .pop | .call _ .timeout
  | .call _ .lag | .call _ .recheck => isTrue trivial

/-! ## Steps of the cluster -/

section
variable {W : StartedWorkflow T} {s s' : Cluster T} {i p : ℕ} {n' : WorkflowNode T}
  {e e' : Execution T} {key : String} {value : T} {rest : List (String × T)}

/-- One node changes, but not the log. -/
theorem ClusterInv.ofUpdate (h : ClusterInv W s) (hlog : s'.log = s.log)
    (hupdate : s'.node = Function.update s.node i n') (hp : LogInv W s' p)
    (hnode : NodeInv W s.log n' (executionOf W n'))
    (hpos : ∀ e, n'.exec = some e → 0 < n'.applied)
    (hfollower : i ≠ W.owner → ∀ e, n'.exec = some e → e.error = none →
      e.phase.ofOwner = false) :
    ClusterInv W s' := by
  refine ⟨⟨p, hp⟩, ?_, ?_, ?_⟩
  · intro j
    rw [hlog, hupdate, Function.update_apply]
    by_cases hj : j = i
    · rw [if_pos hj]
      exact hnode
    · rw [if_neg hj]
      exact h.node j
  · intro j
    rw [hupdate, Function.update_apply]
    by_cases hj : j = i
    · rw [if_pos hj]
      exact hpos
    · rw [if_neg hj]
      exact h.started j
  · intro j e hne
    rw [hupdate, Function.update_apply]
    by_cases hj : j = i
    · rw [if_pos hj]
      exact hfollower (hj ▸ hne) e
    · rw [if_neg hj]
      exact h.follower j e hne

/-- One node changes, and neither the log nor what is in flight. -/
theorem ClusterInv.update (h : ClusterInv W s) (hp : LogInv W s p)
    (hnode : NodeInv W s.log n' (executionOf W n'))
    (hpos : ∀ e, n'.exec = some e → 0 < n'.applied)
    (howner : i = W.owner → ∀ e, n'.exec = some e → e.error = none →
      OwnerAt s.inFlight n'.applied p e)
    (hfresh : i = W.owner → n'.exec = none → p = 0)
    (hfollower : i ≠ W.owner → ∀ e, n'.exec = some e → e.error = none →
      e.phase.ofOwner = false) :
    ClusterInv W (s.update i n') := by
  refine h.ofUpdate ?_ ?_ ⟨hp.bound, hp.all, hp.started, hp.next, hp.single, ?_, ?_⟩ hnode hpos
    hfollower
  · rfl
  · rfl
  · rw [Cluster.update_node]
    by_cases hi : W.owner = i
    · rw [if_pos hi]
      exact howner hi.symm
    · rw [if_neg hi]
      exact hp.owner
  · rw [Cluster.update_node]
    by_cases hi : W.owner = i
    · rw [if_pos hi]
      exact hfresh hi.symm
    · rw [if_neg hi]
      exact hp.fresh

/-- The call under way of a node moves on. -/
theorem ClusterInv.moveCall (h : ClusterInv W s) (hp : LogInv W s p)
    (happ : 0 < n'.applied) (hexec : n'.exec = some e') (hnode : NodeInv W s.log n' e')
    (howner : i = W.owner → e'.error = none → OwnerAt s.inFlight n'.applied p e')
    (hfollower : i ≠ W.owner → e'.error = none → e'.phase.ofOwner = false) :
    ClusterInv W (s.update i n') := by
  refine h.update hp ?_ (fun _ _ => happ) ?_ ?_ ?_
  · rw [executionOf_some hexec]
    exact hnode
  · intro hi e he
    rw [hexec, Option.some.injEq] at he
    exact he ▸ howner hi
  · intro _ hnone
    rw [hexec] at hnone
    exact absurd hnone (by simp)
  · intro hi e he
    rw [hexec, Option.some.injEq] at he
    exact he ▸ hfollower hi

/-- A proposal is committed. It was the only one. -/
theorem ClusterInv.commit (h : ClusterInv W s) {position : ℕ}
    (hstep : s.step W (.commit position) = some s') : ClusterInv W s' := by
  obtain ⟨p, hp⟩ := h.log
  simp only [Cluster.step] at hstep
  split at hstep
  · exact absurd hstep (by simp)
  · next proposal hget =>
    rw [Option.some.injEq] at hstep
    subst hstep
    have hlt := (List.getElem?_eq_some_iff.mp hget).1
    -- nothing but the proposal of the owner is in flight
    have hsingle := hp.single
    obtain rfl : position = 0 := by omega
    have hone : s.inFlight = [proposal] := by
      obtain ⟨x, hx⟩ := List.length_eq_one_iff.mp (by omega : s.inFlight.length = 1)
      rw [hx, List.getElem?_cons_zero, Option.some.injEq] at hget
      rw [hx, hget]
    have hnone : s.inFlight.eraseIdx 0 = [] := by rw [hone]; rfl
    refine ⟨⟨p, hp.bound, ?_, ?_, hp.next, ?_, ?_, hp.fresh⟩, ?_, h.started, h.follower⟩
    · show (s.log ++ [proposal]) ++ s.inFlight.eraseIdx 0 = _
      rw [hnone, List.append_nil, ← hone, hp.all]
    · exact List.append_ne_nil_of_right_ne_nil _ (by simp)
    · show (s.inFlight.eraseIdx 0).length ≤ 1
      rw [hnone]
      exact Nat.zero_le 1
    · intro e hexec herror
      have hat := hp.owner e hexec herror
      show OwnerAt (s.inFlight.eraseIdx 0) (s.node W.owner).applied p e
      -- only a phase before the proposal speaks of what is in flight
      unfold OwnerAt at hat ⊢
      cases hphase : e.phase <;> simp only [hphase] at hat ⊢
      all_goals first
        | exact hat
        | exact ⟨hat.1, hnone⟩
    · exact fun i => (h.node i).grow proposal

/-- A node applies the next entry of the log. -/
theorem ClusterInv.apply (h : ClusterInv W s) (hstep : s.step W (.apply i) = some s') :
    ClusterInv W s' := by
  obtain ⟨p, hp⟩ := h.log
  simp only [Cluster.step] at hstep
  split at hstep
  · exact absurd hstep (by simp)
  · next hlocked =>
    split at hstep
    · exact absurd hstep (by simp)
    · next proposal hget =>
      rw [Option.some.injEq] at hstep
      subst hstep
      have hfree : (s.node i).unpublished = [] := by simpa [locked] using hlocked
      have hnode : NodeInv W s.log ((s.node i).applyCommand proposal.2)
          (executionOf W ((s.node i).applyCommand proposal.2)) := by
        have hproposal : (proposals W (W.program.take p))[(s.node i).applied]? = some proposal := by
          rw [← hp.all, List.getElem?_append_left (List.getElem?_eq_some_iff.mp hget).1, hget]
        obtain ⟨-, ⟨-, hstart⟩ | ⟨hpos, key, value, hset⟩⟩ := getElem?_proposals hproposal
        · exact (h.node i).applyStart hget hstart hfree
        · exact (h.node i).applyCheckpoint hget hpos hset
      refine h.update hp hnode (fun _ _ => Nat.succ_pos _) ?_ ?_ ?_
      · intro hi e hexec herror
        have hat := hp.owner e (hi ▸ hexec) herror
        rw [← hi] at hat
        unfold OwnerAt at hat ⊢
        -- only a call that is about to pop looks at what was applied
        cases hphase : e.phase <;> simp only [hphase] at hat ⊢
        case popping => exact ⟨hat.1, Nat.lt_succ_of_lt hat.2⟩
        all_goals exact hat
      · intro hi hexec
        exact hp.fresh (hi ▸ hexec)
      · exact fun hi e hexec => h.follower i e hi hexec

theorem LogInv.inFlight_of_zero (hp : LogInv W s 0) : s.inFlight = [] := by
  have hall := congrArg List.length hp.all
  rw [List.length_append, length_proposals, List.take_zero, List.length_nil] at hall
  have hpos := List.length_pos_iff.mpr hp.started
  exact List.length_eq_zero_iff.mp (by omega)

/-- A node publishes an event. -/
theorem ClusterInv.publish (h : ClusterInv W s) (hstep : s.step W (.publish i) = some s') :
    ClusterInv W s' := by
  obtain ⟨p, hp⟩ := h.log
  simp only [Cluster.step] at hstep
  split at hstep
  · exact absurd hstep (by simp)
  · next event events hun =>
    rw [Option.some.injEq] at hstep
    subst hstep
    have hpos : 0 < (s.node i).applied := (h.node i).busy (by simp [locked, hun])
    refine h.update hp ((h.node i).publish hun) (fun _ _ => hpos) ?_ ?_ ?_
    · intro hi e' hexec' herror'
      rcases observe_cases hexec' with ⟨e, hexec, rfl⟩ | ⟨hexec, rfl⟩
      · have hat := hp.owner e (hi ▸ hexec) herror'
        rw [← hi] at hat
        exact hat
      · -- nothing but the start was proposed before the owner has seen it
        obtain rfl : p = 0 := hp.fresh (hi ▸ hexec)
        exact ⟨rfl, hp.inFlight_of_zero⟩
    · intro hi hexec'
      exact hp.fresh (hi ▸ observe_eq_none hexec')
    · intro hi e' hexec' herror'
      rcases observe_cases hexec' with ⟨e, hexec, rfl⟩ | ⟨-, rfl⟩
      · exact h.follower i e hi hexec herror'
      · rfl

/-! ## Steps of a call -/

/-- No more values of a key are committed than were proposed. -/
theorem LogInv.length_committedValues_le (hp : LogInv W s p) (key : String) :
    (committedValues W.workflowId key s.log).length ≤
      ((W.program.take p).map Prod.fst).count key := by
  rw [← length_committedValues_proposals, ← hp.all, committedValues_append, List.length_append]
  exact Nat.le_add_right _ _

/-- A node that has applied the last proposal has applied them all. -/
theorem LogInv.take_log (hp : LogInv W s p) {applied : ℕ} (hlt : p < applied)
    (hle : applied ≤ s.log.length) :
    s.inFlight = [] ∧ s.log.take applied = proposals W (W.program.take p) := by
  have hlen := congrArg List.length hp.all
  rw [List.length_append, length_proposals, List.length_take, Nat.min_eq_left hp.bound] at hlen
  have hnone : s.inFlight = [] := List.length_eq_zero_iff.mp (by omega)
  have hall := hp.all
  rw [hnone, List.append_nil] at hall
  refine ⟨hnone, ?_⟩
  rw [List.take_of_length_le (by omega), hall]

/-- A node that was told of the last proposal has applied it: the id of a proposal is its place
in the log. -/
theorem LogInv.lt_applied (hp : LogInv W s p) (hdone : s.completed i p) :
    p < (s.node i).applied := by
  unfold Cluster.completed at hdone
  rw [List.contains_iff_mem, List.mem_map] at hdone
  obtain ⟨proposal, hmem, hid⟩ := hdone
  obtain ⟨j, hj, hget⟩ := List.mem_take_iff_getElem.mp hmem
  have hproposal : (proposals W (W.program.take p))[j]? = some proposal := by
    rw [← hp.all, List.getElem?_append_left (by omega), List.getElem?_eq_getElem (by omega), hget]
  have hplace := (getElem?_proposals hproposal).1
  have hle : (s.node i).completedEntries ≤ (s.node i).applied := by
    unfold completedEntries
    split <;> omega
  omega

/-- A node that proposes, or has proposed, is the owner. -/
theorem ClusterInv.eq_owner (h : ClusterInv W s) (hexec : (s.node i).exec = some e)
    (herror : e.error = none) (hphase : e.phase.ofOwner = true) : i = W.owner := by
  by_contra hi
  rw [h.follower i e hi hexec herror] at hphase
  exact absurd hphase (by simp)

section
variable (h : ClusterInv W s) (hp : LogInv W s p) (hexec : (s.node i).exec = some e)
  (herror : e.error = none) (hcalls : e.calls = (key, value) :: rest)
include h hp hexec herror hcalls

/-- The owner never finds a value in its queue: it has taken out all it has proposed. -/
theorem ClusterInv.dequeue (hphase : e.phase = .dequeuing) (hfree : ¬ (s.node i).locked) :
    ClusterInv W (s.update i ((s.node i).tryDequeueCheckpoint W.workflowId key e)) := by
  have hnode := h.node i
  rw [executionOf_some hexec] at hnode
  have hpos := h.started i e hexec
  have hun : (s.node i).unpublished = [] := by simpa [locked] using hfree
  obtain ⟨e', heq, hcases⟩ := (s.node i).tryDequeueCheckpoint_cases W.workflowId key e
  obtain ⟨-, hqueue⟩ := hnode.queued herror key (by simp [hcalls])
  rw [heq]
  rcases hcases with ⟨hempty, rfl⟩ | ⟨bytes, hhead, ⟨v, hdecode, rfl⟩ | ⟨error, rfl⟩⟩
  · refine h.moveCall hp hpos rfl ?_ ?_ ?_
    · refine hnode.move ?_ ?_ ?_ ?_ rfl rfl id ?_ ?_
      · rfl
      · exact id
      · exact (s.node i).sm.getOwner_popQueuedCheckpoint W.workflowId key W.workflowId
      · intro _ key'
        show ((s.node i).sm.popQueuedCheckpoint W.workflowId key).2.queue W.workflowId key' = _
        rw [WorkflowStateMachine.queue_popQueuedCheckpoint]
        by_cases hk : key' = key
        · rw [if_pos hk, hk, hempty, List.tail_nil]
        · rw [if_neg hk]
      · exact fun hsub => absurd hsub (by simp)
      · -- the call has not subscribed yet, and nothing waits to be published
        intro _ _ event hevent
        rw [show ({ e with phase := .subscribing 0 } : Execution T).subscription = none from
          hnode.idle hphase] at hevent
        exact absurd hevent (by simp [hun])
    · intro hi _
      have hat := hp.owner e (hi ▸ hexec) herror
      rw [OwnerAt, hphase] at hat
      exact hat
    · exact fun _ _ => rfl
  · -- the call returns the value behind those it has returned before
    rw [hqueue, List.head?_drop] at hhead
    refine h.moveCall hp hpos rfl (hnode.completePop herror hcalls hhead hdecode) ?_ ?_
    · intro hi _
      have hat := hp.owner e (hi ▸ hexec) herror
      rw [OwnerAt, hphase] at hat
      -- as many values were proposed as the owner has returned, so none is left
      have hle := hp.length_committedValues_le key
      rw [hat.1, ← hnode.length_values key] at hle
      have hlt := (List.getElem?_eq_some_iff.mp hhead).1
      have htake := (committedValues_take W.workflowId key s.log (s.node i).applied).length_le
      omega
    · intro _ _
      rw [Execution.complete_of_calls hcalls]
      rfl
  · have hended : (e.fail error).error ≠ none := by simp [Execution.fail]
    refine h.moveCall hp hpos rfl ?_ (fun _ hnone => absurd hnone hended)
      (fun _ hnone => absurd hnone hended)
    refine hnode.fail ?_ ?_ ?_ error
    · rfl
    · rfl
    · exact (s.node i).sm.getOwner_popQueuedCheckpoint W.workflowId key W.workflowId

/-- The owner takes its own value out of the queue. -/
theorem ClusterInv.pop (hphase : e.phase = .popping) :
    ClusterInv W (s.update i ((s.node i).popProposed W.workflowId key e value)) := by
  have hnode := h.node i
  rw [executionOf_some hexec] at hnode
  have hi := h.eq_owner hexec herror (by rw [hphase]; rfl)
  have hat := hp.owner e (hi ▸ hexec) herror
  rw [OwnerAt, hphase, ← hi] at hat
  obtain ⟨hreturned, hlt⟩ := hat
  obtain ⟨hnone, htake⟩ := hp.take_log hlt hnode.applied
  -- the value it has proposed is the last one of the log
  have hnext : (committedValues W.workflowId key (s.log.take (s.node i).applied))[
      (e.values key).length]? = some (SerdeJson.toVec value) := by
    rw [htake, hreturned, hnode.take_program hcalls, proposals_append, committedValues_append,
      checkpointCommand, committedValues_setCheckpoint, if_pos rfl, hnode.length_values key,
      ← length_committedValues_proposals (W := W), List.getElem?_append_right (Nat.le_refl _),
      Nat.sub_self, List.getElem?_cons_zero]
  refine h.moveCall hp (h.started i e hexec) rfl
    (hnode.completePop herror hcalls hnext (SerdeJson.fromSlice_toVec value)) ?_ ?_
  · intro _ _
    rw [Execution.complete_of_calls hcalls]
    exact ⟨by simp [hreturned], hnone⟩
  · exact fun hne => absurd hi hne

/-- A follower is answered by an event. The value is the next one of its key, since no later
one can be committed: the call is the last on the key. -/
theorem ClusterInv.answered (hi : i ≠ W.owner) {event : WorkflowEvent}
    {events : List WorkflowEvent} (hphase : e.phase ≠ .dequeuing)
    (hsub : e.subscription = some (event :: events)) {v : T}
    (hvalue : checkpointValue W.workflowId key event = some v)
    (hlast : (s.node i).answersEarly W.workflowId = false) :
    ClusterInv W (s.update i ((s.node i).withExec (e.complete v))) := by
  have hnode := h.node i
  rw [executionOf_some hexec] at hnode
  have hrest : key ∉ rest.map Prod.fst := by
    intro hmem
    unfold answersEarly at hlast
    simp only [hexec, hcalls, hsub, hvalue] at hlast
    simp [hmem] at hlast
  obtain ⟨bytes, rfl, hdecode⟩ := checkpointValue_eq_some hvalue
  obtain ⟨m, hm, hget⟩ := hnode.ahead herror hphase key value rest hcalls bytes
    (by rw [hsub, Option.getD_some]; exact List.mem_append_left _ List.mem_cons_self)
  -- the program has no call on the key behind this one
  have htotal : (W.program.map Prod.fst).count key = (e.values key).length + 1 := by
    conv_lhs => rw [← List.take_append_drop e.returned.length W.program]
    rw [← hnode.calls, hcalls, List.map_append, List.count_append, ← hnode.length_values key,
      List.map_cons, List.count_cons_self, List.count_eq_zero_of_not_mem hrest]
  have hle := hp.length_committedValues_le key
  have hsome := (List.getElem?_eq_some_iff.mp hget).1
  have hcount : ((W.program.take p).map Prod.fst).count key ≤ (W.program.map Prod.fst).count key :=
    ((List.take_sublist p W.program).map Prod.fst).count_le key
  obtain rfl : m = (e.values key).length := by omega
  refine h.moveCall hp (h.started i e hexec) rfl ?_ (fun hown => absurd hown hi) ?_
  · refine hnode.complete ?_ ?_ ?_ hcalls ⟨bytes, hget, hdecode⟩ ?_
    · rfl
    · rfl
    · rfl
    · intro key' hkey'
      have hne : key' ≠ key := by
        rintro rfl
        exact hrest hkey'
      rw [Execution.values_complete hcalls, if_neg hne, List.append_nil]
      refine hnode.queued herror key' ?_
      rw [hcalls]
      exact List.mem_cons_of_mem key hkey'
  · intro _ _
    rw [Execution.complete_of_calls hcalls]
    rfl

/-- The owner proposes its next call. -/
theorem ClusterInv.propose (hphase : e.phase = .proposing) :
    ClusterInv W { s.update i ((s.node i).withExec { e with phase := .awaiting s.nextSyncId }) with
      inFlight := s.inFlight ++
        [(s.nextSyncId, .setCheckpoint W.workflowId key (SerdeJson.toVec value))]
      nextSyncId := s.nextSyncId + 1 } := by
  have hnode := h.node i
  rw [executionOf_some hexec] at hnode
  have hi := h.eq_owner hexec herror (by rw [hphase]; rfl)
  have hat := hp.owner e (hi ▸ hexec) herror
  rw [OwnerAt, hphase] at hat
  obtain ⟨rfl, hnone⟩ := hat
  -- the call under way is still in the program, so one more is within its bound
  have hlt := (List.getElem?_eq_some_iff.mp (hnode.getElem?_program hcalls)).1
  have hmove : NodeInv W s.log ((s.node i).withExec { e with phase := .awaiting s.nextSyncId })
      { e with phase := .awaiting s.nextSyncId } := by
    refine hnode.move ?_ id ?_ (fun _ _ => rfl) rfl rfl id (fun hd => absurd hd (by simp)) ?_
    · rfl
    · rfl
    · intro _ _ event hevent
      exact ⟨by simp [hphase], hevent⟩
  have hself : (s.update i ((s.node i).withExec { e with phase := .awaiting s.nextSyncId })).node
      W.owner = (s.node i).withExec { e with phase := .awaiting s.nextSyncId } := by
    rw [Cluster.update_node, if_pos hi.symm]
  refine h.ofUpdate (p := e.returned.length + 1) ?_ ?_ ⟨hlt, ?_, hp.started, ?_, ?_, ?_, ?_⟩ hmove
    (fun _ _ => h.started i e hexec) (fun hne => absurd hi hne)
  · rfl
  · rfl
  · rw [hnode.take_program hcalls, proposals_append, ← hp.all, List.length_take,
      Nat.min_eq_left hp.bound, ← hp.next]
    exact (List.append_assoc s.log s.inFlight _).symm
  · exact congrArg (· + 1) hp.next
  · simp [hnone]
  · intro e' hexec' _
    rw [hself] at hexec' ⊢
    obtain rfl : _ = e' := Option.some.inj hexec'
    exact ⟨rfl, hp.next⟩
  · intro hexec'
    rw [hself] at hexec'
    exact absurd hexec' (by simp [withExec])

omit hcalls herror in
/-- The call under way turns to its next phase. -/
theorem ClusterInv.turn {phase : Phase} {subscription : Option (List WorkflowEvent)}
    (hfrom : e.phase ≠ .dequeuing) (hto : phase ≠ .dequeuing)
    (hsub : ∀ event ∈ subscription.getD [], event ∈ e.subscription.getD [])
    (howner : i = W.owner →
      OwnerAt s.inFlight (s.node i).applied p { e with phase, subscription })
    (hfollower : i ≠ W.owner → phase.ofOwner = false) :
    ClusterInv W (s.update i ((s.node i).withExec { e with phase, subscription })) := by
  have hnode := h.node i
  rw [executionOf_some hexec] at hnode
  refine h.moveCall hp (h.started i e hexec) rfl ?_ (fun hi _ => howner hi)
    (fun hi _ => hfollower hi)
  refine hnode.move ?_ id ?_ (fun _ _ => rfl) rfl rfl id (fun hd => absurd hd hto) ?_
  · rfl
  · rfl
  · intro _ _ event hevent
    refine ⟨hfrom, ?_⟩
    rcases List.mem_append.mp hevent with hevent | hevent
    · exact List.mem_append_left _ (hsub event hevent)
    · exact List.mem_append_right _ hevent

omit hcalls herror in
/-- The call of a follower tries again. -/
theorem ClusterInv.retry (hi : i ≠ W.owner) (hphase : e.phase ≠ .dequeuing) (attempt : ℕ) :
    ClusterInv W (s.update i ((s.node i).withExec (e.nextAttempt attempt))) := by
  have hnode := h.node i
  rw [executionOf_some hexec] at hnode
  refine h.moveCall hp (h.started i e hexec) rfl (hnode.nextAttempt hphase attempt)
    (fun hown => absurd hown hi) ?_
  intro _ herror'
  unfold Execution.nextAttempt at herror' ⊢
  split at herror'
  · next hlast =>
    rw [if_pos hlast]
    rfl
  · exact absurd herror' (by simp [Execution.fail])

omit hcalls herror in
/-- The call under way fails. -/
theorem ClusterInv.failCall (error : WorkflowError) :
    ClusterInv W (s.update i ((s.node i).withExec (e.fail error))) := by
  have hnode := h.node i
  rw [executionOf_some hexec] at hnode
  have hended : (e.fail error).error ≠ none := by simp [Execution.fail]
  refine h.moveCall hp (h.started i e hexec) rfl ?_ (fun _ hnone => absurd hnone hended)
    (fun _ hnone => absurd hnone hended)
  refine hnode.fail ?_ ?_ ?_ error
  · rfl
  · rfl
  · rfl

omit hcalls h in
/-- The owner does not wait. -/
theorem LogInv.ne_owner (hphase : ∀ inFlight applied, ¬ OwnerAt inFlight applied p e) :
    i ≠ W.owner := by
  rintro rfl
  exact hphase _ _ (hp.owner e hexec herror)

omit hcalls in
/-- A follower passes over an event, or loses it. -/
theorem ClusterInv.skip {attempt : ℕ} {event : WorkflowEvent} {events : List WorkflowEvent}
    (hphase : e.phase = .waiting attempt) (hsub : e.subscription = some (event :: events)) :
    ClusterInv W (s.update i ((s.node i).withExec { e with subscription := some events })) := by
  have hi : i ≠ W.owner := hp.ne_owner hexec herror (by simp [OwnerAt, hphase])
  have hfrom : e.phase ≠ .dequeuing := by simp [hphase]
  refine h.turn hp hexec hfrom hfrom ?_ (fun hown => absurd hown hi) ?_
  · intro x hx
    rw [hsub]
    exact List.mem_cons_of_mem event hx
  · intro _
    rw [hphase]
    rfl

/-- A follower takes an event from its subscription. -/
theorem ClusterInv.receive {attempt : ℕ} {event : WorkflowEvent} {events : List WorkflowEvent}
    (hphase : e.phase = .waiting attempt) (hsub : e.subscription = some (event :: events))
    (hlast : (s.node i).answersEarly W.workflowId = false) :
    ClusterInv W (s.update i ((s.node i).withExec
      ({ e with subscription := some events }.receive W.workflowId key attempt event))) := by
  have hi : i ≠ W.owner := hp.ne_owner hexec herror (by simp [OwnerAt, hphase])
  have hfrom : e.phase ≠ .dequeuing := by simp [hphase]
  unfold Execution.receive
  split
  · -- an event the call does not wait for
    exact h.skip hp hexec herror hphase hsub
  · exact h.retry hp hexec hi hfrom attempt
  · next v hextract =>
    refine h.answered hp hexec herror hcalls hi hfrom hsub ?_ hlast
    unfold filteredExtractor at hextract
    split at hextract
    · exact absurd hextract (by simp)
    · split at hextract
      · exact absurd hextract (by simp)
      · simpa using hextract

end

/-- A step of a call. Only a call on a key that is not used again is answered by an event. -/
theorem ClusterInv.call (h : ClusterInv W s) {c : CallStep}
    (hlast : s.LastOnKey W.workflowId (.call i c)) (hstep : s.step W (.call i c) = some s') :
    ClusterInv W s' := by
  obtain ⟨p, hp⟩ := h.log
  simp only [Cluster.step] at hstep
  cases hcall : (s.node i).callStep W.workflowId i s.nextSyncId (s.completed i) c with
  | none =>
    rw [hcall] at hstep
    exact absurd hstep (by simp)
  | some result =>
    obtain ⟨n', proposed⟩ := result
    obtain ⟨e, key, value, rest, hexec, herror, hcalls, hrun⟩ := callStep_run hcall
    rw [hcall] at hstep
    have hnode := h.node i
    rw [executionOf_some hexec] at hnode
    have hpos := h.started i e hexec
    -- only the owner has a place in the log for its call
    have hat : i = W.owner → OwnerAt s.inFlight (s.node i).applied p e := by
      rintro rfl
      exact hp.owner e hexec herror
    cases hrun with
    | dequeue hphase hfree =>
      obtain rfl := Option.some.inj hstep
      exact h.dequeue hp hexec herror hcalls hphase hfree
    | subscribe attempt hphase =>
      obtain rfl := Option.some.inj hstep
      rw [OwnerAt, hphase] at hat
      exact h.turn hp hexec (by simp [hphase]) (by simp) (by simp) hat (fun _ => rfl)
    | owns attempt hphase hfree howner =>
      obtain rfl := Option.some.inj hstep
      have hi := (hnode.isWorkflowOwner_iff hpos i).mp howner
      rw [OwnerAt, hphase] at hat
      exact h.turn hp hexec (by simp [hphase]) (by simp) (fun _ => id) hat
        (fun hne => absurd hi hne)
    | waits attempt hphase hfree howner =>
      obtain rfl := Option.some.inj hstep
      have hi : i ≠ W.owner := fun hown => howner ((hnode.isWorkflowOwner_iff hpos i).mpr hown)
      exact h.turn hp hexec (by simp [hphase]) (by simp) (fun _ => id)
        (fun hown => absurd hown hi) (fun _ => rfl)
    | propose hphase =>
      obtain rfl := Option.some.inj hstep
      exact h.propose hp hexec herror hcalls hphase
    | proposalDone syncId hphase hdone =>
      obtain rfl := Option.some.inj hstep
      have hi := h.eq_owner hexec herror (by rw [hphase]; rfl)
      rw [OwnerAt, hphase] at hat
      refine h.turn hp hexec (by simp [hphase]) (by simp) (fun _ => id) ?_
        (fun hne => absurd hi hne)
      intro hown
      obtain ⟨hreturned, rfl⟩ := hat hown
      exact ⟨hreturned, hp.lt_applied hdone⟩
    | proposalFailed reason hphase =>
      obtain rfl := Option.some.inj hstep
      exact h.failCall hp hexec (.clusterError reason)
    | pop hphase hfree =>
      obtain rfl := Option.some.inj hstep
      exact h.pop hp hexec herror hcalls hphase
    | receive attempt event events hphase hsub =>
      obtain rfl := Option.some.inj hstep
      -- here the last event on the key is the one that is waited for
      exact h.receive hp hexec herror hcalls hphase hsub hlast
    | lag attempt event events hphase hsub =>
      obtain rfl := Option.some.inj hstep
      exact h.skip hp hexec herror hphase hsub
    | timeout attempt hphase hearly =>
      obtain rfl := Option.some.inj hstep
      have hi : i ≠ W.owner := hp.ne_owner hexec herror (by simp [OwnerAt, hphase])
      exact h.turn hp hexec (by simp [hphase]) (by simp) (by simp)
        (fun hown => absurd hown hi) (fun _ => rfl)
    | recheck attempt hphase hfree =>
      obtain rfl := Option.some.inj hstep
      have hi : i ≠ W.owner := hp.ne_owner hexec herror (by simp [OwnerAt, hphase])
      have hfrom : e.phase ≠ .dequeuing := by simp [hphase]
      unfold Execution.recheck
      split
      · exact h.retry hp hexec hi hfrom attempt
      · split
        · exact h.failCall hp hexec .timeout
        · exact h.retry hp hexec hi hfrom attempt

theorem ClusterInv.step (h : ClusterInv W s) {a : ClusterAction} (hlast : s.LastOnKey W.workflowId a)
    (hstep : s.step W a = some s') : ClusterInv W s' := by
  cases a with
  | commit position => exact h.commit hstep
  | apply i => exact h.apply hstep
  | publish i => exact h.publish hstep
  | call i c => exact h.call hlast hstep

theorem clusterInv_start (W : StartedWorkflow T) : ClusterInv W (Cluster.start W) := by
  refine ⟨⟨0, Nat.zero_le _, rfl, ?_, rfl, Nat.zero_le 1, ?_, fun _ => rfl⟩, ?_, ?_, ?_⟩
  · exact List.cons_ne_nil _ _
  · exact fun e hexec => absurd hexec (by simp [Cluster.start])
  · intro i
    refine ⟨Nat.zero_le _, ?_, ?_, rfl, rfl, fun key => List.nil_prefix, ?_, fun _ => rfl, ?_⟩
    · exact fun hlocked => absurd hlocked (by simp [Cluster.start, locked])
    · exact fun hpos => absurd hpos (Nat.lt_irrefl 0)
    · exact fun _ key _ => ⟨Nat.zero_le _, rfl⟩
    · exact fun _ hphase => absurd rfl hphase
  · exact fun i e hexec => absurd hexec (by simp [Cluster.start])
  · exact fun i e _ hexec => absurd hexec (by simp [Cluster.start])

theorem ClusterInv.agreement (h : ClusterInv W s) : CheckpointAgreement W.workflowId s := by
  have hreturned : ∀ i key, (s.node i).returnedValues key =
      (executionOf W (s.node i)).values key := by
    intro i key
    unfold returnedValues executionOf
    cases (s.node i).exec with
    | none => rfl
    | some e => rfl
  have hcommitted : ∀ i key, ((s.node i).returnedValues key).map Except.ok <+:
      (committedValues W.workflowId key s.log).map
        (SerdeJson.fromSlice : Bytes → Except String T) := by
    intro i key
    rw [hreturned]
    exact (h.node i).results key
  -- two beginnings of one list
  refine ⟨hcommitted, fun i j key => ?_⟩
  have hok : Function.Injective (Except.ok : T → Except String T) := fun _ _ => Except.ok.inj
  rcases List.prefix_or_prefix_of_prefix (hcommitted i key) (hcommitted j key) with hle | hle
  · exact Or.inl ((List.prefix_map_iff_of_injective hok).mp hle)
  · exact Or.inr ((List.prefix_map_iff_of_injective hok).mp hle)

end

open Transition

/-- In every run in which only the last call on a key is answered by an event, the calls of
every node return what was committed for their key, in order. -/
theorem checkpoints_agree (W : StartedWorkflow T) {actions : List ClusterAction} {s : Cluster T}
    (hlast : Along (Cluster.step W) (Cluster.LastOnKey W.workflowId) (Cluster.start W) actions)
    (hrun : run (Cluster.step W) (Cluster.start W) actions = some s) :
    CheckpointAgreement W.workflowId s := by
  have hinv : ClusterInv W s :=
    run_induction (fun _ _ _ hs hcond hstep => hs.step hcond hstep) (clusterInv_start W) hlast hrun
  exact hinv.agreement

section
open Codec

/-- Node 1 owns the workflow, node 2 follows. -/
def twoCalls (second : String) : StartedWorkflow String where
  workflowId := "w"
  owner := 1
  program := [("k", "a"), (second, "b")]

/-- The first call of node 2 is answered by the event, and it goes on to the second; then node 1
commits its second value. -/
def eventFirst : List ClusterAction :=
  [.apply 1, .publish 1, .apply 2, .publish 2,
   .call 2 .dequeue, .call 2 .subscribe, .call 2 .checkOwner,
   .call 1 .dequeue, .call 1 .subscribe, .call 1 .checkOwner, .call 1 .propose,
   .commit 0, .apply 1, .publish 1, .call 1 .proposalDone, .call 1 .pop,
   .apply 2, .publish 2, .call 2 .receive, .call 2 .dequeue,
   .call 1 .dequeue, .call 1 .subscribe, .call 1 .checkOwner, .call 1 .propose, .commit 0]

theorem checkpoints_agree_two_keys :
    ∃ s, run (Cluster.step (twoCalls "j")) (Cluster.start (twoCalls "j")) eventFirst = some s ∧
      (s.node 2).returnedValues "k" = ["a"] ∧ CheckpointAgreement "w" s := by
  have hrun : (run (Cluster.step (twoCalls "j")) (Cluster.start (twoCalls "j")) eventFirst).map
      (fun s => (s.node 2).returnedValues "k") = some ["a"] := by decide
  obtain ⟨s, hs, hreturned⟩ := Option.map_eq_some_iff.mp hrun
  exact ⟨s, hs, hreturned, checkpoints_agree (twoCalls "j") (by decide) hs⟩

/-- With one key, the second call of node 2 takes the first value once more out of its queue. -/
theorem checkpoints_disagree :
    ∃ s, run (Cluster.step (twoCalls "k")) (Cluster.start (twoCalls "k")) eventFirst = some s ∧
      ¬ CheckpointAgreement "w" s := by
  have hrun : (run (Cluster.step (twoCalls "k")) (Cluster.start (twoCalls "k")) eventFirst).map
      (fun s => ((s.node 2).returnedValues "k", committedValues "w" "k" s.log)) =
        some (["a", "a"], [SerdeJson.toVec "a", SerdeJson.toVec "b"]) := by decide
  obtain ⟨s, hs, hseen⟩ := Option.map_eq_some_iff.mp hrun
  rw [Prod.mk.injEq] at hseen
  refine ⟨s, hs, fun hagree => ?_⟩
  have hagreed := hagree.committed 2 "k"
  rw [hseen.1, hseen.2] at hagreed
  have hsecond := hagreed.getElem (i := 1) (by simp)
  simp at hsecond

end

end Raftoral

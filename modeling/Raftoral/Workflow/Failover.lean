import Raftoral.Raft.Codec
import Raftoral.Workflow.Checkpoints
import Raftoral.Workflow.CheckpointInvariant

/-!
# Failover

A workflow that changes its owner while nodes execute it. A committed checkpoint carries neither
its owner nor its place in the program, and a node looks at its ownership before it proposes, so
the checkpoint that a former owner has in flight and the one that the new owner proposes for the
same call are both recorded.

What a node has applied of a key is in its queue or was taken out by a call that has returned. A
node that has applied all that was proposed for a key, and has nothing left in the queue, proposes
for a call that is not recorded yet.
-/

namespace Raftoral

open WorkflowNode WorkflowStateMachine

variable {T : Type}

inductive FailoverAction where
  | cluster (a : ClusterAction)
  | ownerChange (oldOwnerNodeId newOwnerNodeId : ℕ) (reason : OwnerChangeReason)
deriving DecidableEq

/-- A step of the cluster, or a change of the owner is proposed. -/
def Cluster.failoverStep [SerdeJson T] (W : StartedWorkflow T) (s : Cluster T) :
    FailoverAction → Option (Cluster T)
  | .cluster a => s.step W a
  | .ownerChange oldOwnerNodeId newOwnerNodeId reason =>
    some { s with
      inFlight := s.inFlight ++ [(s.nextSyncId,
        .ownerChange W.workflowId oldOwnerNodeId newOwnerNodeId reason)]
      nextSyncId := s.nextSyncId + 1 }

/-- No key has more values than the program has calls on it, neither in the log nor in the
history of a node. -/
structure RecordedOnce (W : StartedWorkflow T) (s : Cluster T) : Prop where
  committed : ∀ key, (committedValues W.workflowId key s.log).length ≤
    (W.program.map Prod.fst).count key
  history : ∀ i key, ((s.node i).sm.history W.workflowId key).length ≤
    (W.program.map Prod.fst).count key

/-- No checkpoint of the key of the call under way is in flight, waits to be applied, or waits in
the queue. -/
def WorkflowNode.caughtUp (workflowId : String) (log inFlight : List Proposal)
    (n : WorkflowNode T) : Bool :=
  match n.exec with
  | none => true
  | some e =>
    match e.calls with
    | [] => true
    | (key, _) :: _ =>
      (committedValues workflowId key (log.drop n.applied ++ inFlight)).isEmpty &&
        (n.sm.queue workflowId key).isEmpty

/-- A node that proposes has caught up. -/
def Cluster.CaughtUp (W : StartedWorkflow T) (s : Cluster T) : FailoverAction → Prop
  | .cluster (.call nodeId .propose) =>
    (s.node nodeId).caughtUp W.workflowId s.log s.inFlight
  | _ => True

instance (W : StartedWorkflow T) (s : Cluster T) (a : FailoverAction) :
    Decidable (s.CaughtUp W a) :=
  match a with
  | .cluster (.call _ .propose) => inferInstanceAs (Decidable (_ = _))
  | .cluster (.commit _) | .cluster (.apply _) | .cluster (.publish _) => isTrue trivial
  | .cluster (.call _ .dequeue) | .cluster (.call _ .subscribe) | .cluster (.call _ .checkOwner)
  | .cluster (.call _ .proposalDone) | .cluster (.call _ (.proposalFailed _))
  | .cluster (.call _ .pop) | .cluster (.call _ .receive) | .cluster (.call _ .timeout)
  | .cluster (.call _ .lag) | .cluster (.call _ .recheck) | .ownerChange _ _ _ => isTrue trivial

/-! ## Commands -/

/-- The commands of a run: nothing ends the workflow, and all checkpoints are its own. -/
def WorkflowCommand.ofExecution (workflowId : String) : WorkflowCommand → Bool
  | .workflowStart _ _ _ _ _ | .ownerChange _ _ _ _ => true
  | .setCheckpoint commandWorkflowId _ _ => commandWorkflowId == workflowId
  | .workflowEnd _ _ => false

section
variable {workflowId : String} {command : WorkflowCommand}

/-- A command adds to a queue what it commits. -/
theorem queue_apply (h : command.ofExecution workflowId) (sm : WorkflowStateMachine) (id : ℕ)
    (key : String) : (sm.apply command).2.queue workflowId key =
      sm.queue workflowId key ++ committedValues workflowId key [(id, command)] := by
  cases command with
  | workflowStart _ _ _ _ _ => exact (List.append_nil _).symm
  | ownerChange _ _ _ _ => exact (List.append_nil _).symm
  | workflowEnd _ _ => exact absurd h (by simp [WorkflowCommand.ofExecution])
  | setCheckpoint commandWorkflowId key' value =>
    obtain rfl : commandWorkflowId = workflowId := by simpa [WorkflowCommand.ofExecution] using h
    rw [queue_setCheckpoint, committedValues_setCheckpoint]

/-- And the same to the history. -/
theorem history_apply (h : command.ofExecution workflowId) (sm : WorkflowStateMachine) (id : ℕ)
    (key : String) : (sm.apply command).2.history workflowId key =
      sm.history workflowId key ++ committedValues workflowId key [(id, command)] := by
  cases command with
  | workflowStart _ _ _ _ _ => exact (List.append_nil _).symm
  | ownerChange _ _ _ _ => exact (List.append_nil _).symm
  | workflowEnd _ _ => exact absurd h (by simp [WorkflowCommand.ofExecution])
  | setCheckpoint commandWorkflowId key' value =>
    obtain rfl : commandWorkflowId = workflowId := by simpa [WorkflowCommand.ofExecution] using h
    rw [committedValues_setCheckpoint]
    show ((pushBack sm.checkpointHistory _ value)[_]?).getD [] = _
    rw [getElem?_pushBack]
    -- within one workflow the indices differ with the keys
    by_cases hk : key = key'
    · rw [hk, if_pos rfl, if_pos rfl]
      rfl
    · rw [if_neg fun heq => hk (makeQueueKey_inj.mp heq).symm, if_neg hk, List.append_nil]
      rfl

end

/-! ## The invariant -/

section
variable (W : StartedWorkflow T)

/-- What a node has applied of a key is in its queue, or was taken out by a call that has
returned. -/
structure ConsumedInv (log : List Proposal) (n : WorkflowNode T) (e : Execution T) : Prop where
  applied : n.applied ≤ log.length
  history : ∀ key,
    n.sm.history W.workflowId key = committedValues W.workflowId key (log.take n.applied)
  calls : e.calls = W.program.drop e.returned.length
  keys : e.returned.map Prod.fst = (W.program.take e.returned.length).map Prod.fst
  consumed : e.error = none → ∀ key, (n.sm.history W.workflowId key).length ≤
    (e.values key).length + (n.sm.queue W.workflowId key).length

structure FailoverInv (s : Cluster T) : Prop where
  entries : ∀ proposal ∈ s.log ++ s.inFlight, proposal.2.ofExecution W.workflowId
  recorded : ∀ key, (committedValues W.workflowId key (s.log ++ s.inFlight)).length ≤
    (W.program.map Prod.fst).count key
  node : ∀ i, ConsumedInv W s.log (s.node i) (executionOf W (s.node i))

end

/-! ## One node -/

theorem Execution.Advances.values_prefix {e e' : Execution T} (h : e.Advances e') (key : String) :
    e.values key <+: e'.values key := by
  have hle : e.returned <+: e'.returned := by
    rcases h with ⟨hreturned, -⟩ | ⟨call, -, v, hreturned, -⟩
    · rw [hreturned]
    · rw [hreturned]
      exact List.prefix_append _ _
  exact (hle.filter _).map _

/-- A step of a call applies nothing, and takes out of a queue no more than its call returns. -/
theorem WorkflowNode.CallRun.consumed [SerdeJson T] {workflowId : String}
    {nodeId syncId : ℕ} {completed : ℕ → Bool} {n n' : WorkflowNode T} {e e' : Execution T}
    {key : String} {value : T} {c : CallStep} {proposed : Option WorkflowCommand}
    {rest : List (String × T)} (hcalls : e.calls = (key, value) :: rest)
    (h : CallRun workflowId nodeId syncId completed n e key value c n' proposed)
    (hexec : n'.exec = some e') (hadvances : e.Advances e') :
    n'.applied = n.applied ∧ n'.sm.toSnapshot = n.sm.toSnapshot ∧
      (e'.error = none → ∀ key',
        (e.values key').length + (n.sm.queue workflowId key').length ≤
          (e'.values key').length + (n'.sm.queue workflowId key').length) := by
  -- a call that returns a value has taken out at most one
  have hpop : ∀ v key', (e.values key').length + (n.sm.queue workflowId key').length ≤
      ((e.complete v).values key').length +
        ((n.sm.popQueuedCheckpoint workflowId key).2.queue workflowId key').length := by
    intro v key'
    rw [Execution.values_complete hcalls, queue_popQueuedCheckpoint]
    by_cases hk : key' = key
    · rw [if_pos hk, if_pos hk, List.length_append, List.length_singleton, List.length_tail]
      omega
    · rw [if_neg hk, if_neg hk, List.append_nil]
  cases h with
  | dequeue hphase hfree =>
    obtain ⟨e₁, heq, hcases⟩ := n.tryDequeueCheckpoint_cases workflowId key e
    rw [heq] at hexec ⊢
    obtain rfl : e₁ = e' := Option.some.inj hexec
    refine ⟨rfl, toSnapshot_popQueuedCheckpoint n.sm workflowId key, fun herror key' => ?_⟩
    rcases hcases with ⟨hempty, rfl⟩ | ⟨bytes, -, ⟨v, -, rfl⟩ | ⟨error, rfl⟩⟩
    · show _ ≤ (e.values key').length +
        ((n.sm.popQueuedCheckpoint workflowId key).2.queue workflowId key').length
      rw [queue_popQueuedCheckpoint]
      by_cases hk : key' = key
      · rw [if_pos hk, hk, hempty, List.tail_nil]
      · rw [if_neg hk]
    · exact hpop v key'
    · exact absurd herror (by simp [Execution.fail])
  | pop hphase hfree =>
    obtain rfl : e.complete value = e' := Option.some.inj hexec
    exact ⟨rfl, toSnapshot_popQueuedCheckpoint n.sm workflowId key, fun _ key' => hpop value key'⟩
  | _ =>
    refine ⟨rfl, rfl, fun _ key' => ?_⟩
    exact Nat.add_le_add_right (hadvances.values_prefix key').length_le _

section
variable {W : StartedWorkflow T} {log : List Proposal} {n n' : WorkflowNode T}
  {e e' : Execution T} {key : String}

namespace ConsumedInv

/-- The log grows. -/
theorem grow (h : ConsumedInv W log n e) (proposal : Proposal) :
    ConsumedInv W (log ++ [proposal]) n e := by
  refine ⟨?_, ?_, h.calls, h.keys, h.consumed⟩
  · have := h.applied
    rw [List.length_append]
    omega
  · rw [List.take_append_of_le_length h.applied]
    exact h.history

/-- An entry of the log is applied. -/
theorem apply (h : ConsumedInv W log n e) {proposal : Proposal}
    (hget : log[n.applied]? = some proposal) (hof : proposal.2.ofExecution W.workflowId) :
    ConsumedInv W log (n.applyCommand proposal.2) e := by
  have hhistory : ∀ key, (n.applyCommand proposal.2).sm.history W.workflowId key =
      n.sm.history W.workflowId key ++ committedValues W.workflowId key [proposal] :=
    fun key => history_apply hof n.sm proposal.1 key
  have hqueue : ∀ key, (n.applyCommand proposal.2).sm.queue W.workflowId key =
      n.sm.queue W.workflowId key ++ committedValues W.workflowId key [proposal] :=
    fun key => queue_apply hof n.sm proposal.1 key
  refine ⟨(List.getElem?_eq_some_iff.mp hget).1, fun key => ?_, h.calls, h.keys, ?_⟩
  · show _ = committedValues W.workflowId key (log.take (n.applied + 1))
    rw [hhistory, h.history, committedValues_take_succ _ _ hget]
  · intro herror key
    have hbefore := h.consumed herror key
    rw [hhistory, hqueue, List.length_append, List.length_append]
    omega

/-- The execution moves on. -/
theorem advance (h : ConsumedInv W log n e) (hadvances : e.Advances e')
    (happ : n'.applied = n.applied)
    (hhistory : ∀ key, n'.sm.history W.workflowId key = n.sm.history W.workflowId key)
    (hconsumed : e'.error = none → e.error = none ∧ ∀ key,
      (e.values key).length + (n.sm.queue W.workflowId key).length ≤
        (e'.values key).length + (n'.sm.queue W.workflowId key).length) :
    ConsumedInv W log n' e' := by
  refine ⟨?_, ?_, ?_, ?_, ?_⟩
  · rw [happ]
    exact h.applied
  · intro key
    rw [hhistory, happ, h.history]
  · rcases hadvances with ⟨hreturned, hcalls⟩ | ⟨call, hcall, v, hreturned, hcalls⟩
    · rw [hreturned, hcalls]
      exact h.calls
    · rw [hreturned, hcalls, h.calls, List.tail_drop, List.length_append, List.length_singleton]
  · rcases hadvances with ⟨hreturned, -⟩ | ⟨call, hcall, v, hreturned, -⟩
    · rw [hreturned]
      exact h.keys
    · -- the value that was returned is that of the next call of the program
      rw [h.calls, List.head?_drop] at hcall
      have hget : W.program[e.returned.length]? = some call := hcall
      rw [hreturned, List.length_append, List.length_singleton, List.take_add_one, hget,
        List.map_append, List.map_append, h.keys]
      rfl
  · intro herror key
    obtain ⟨herror₀, hle⟩ := hconsumed herror
    have hbefore := h.consumed herror₀ key
    have hmore := hle key
    rw [hhistory]
    omega

/-- The call under way comes behind those on its key that have returned. -/
theorem length_values_lt (h : ConsumedInv W log n e) {value : T} {rest : List (String × T)}
    (hcalls : e.calls = (key, value) :: rest) :
    (e.values key).length < (W.program.map Prod.fst).count key := by
  have hsplit : W.program.map Prod.fst = (W.program.take e.returned.length).map Prod.fst ++
      key :: rest.map Prod.fst := by
    conv_lhs => rw [← List.take_append_drop e.returned.length W.program]
    rw [← h.calls, hcalls, List.map_append, List.map_cons]
  rw [hsplit, List.count_append, List.count_cons_self, Execution.length_values, h.keys]
  omega

end ConsumedInv

end

/-! ## Steps of the cluster -/

theorem perm_committedValues {workflowId key : String} {log log' : List Proposal}
    (h : log.Perm log') : (committedValues workflowId key log).length =
      (committedValues workflowId key log').length :=
  (h.filterMap _).length_eq

namespace FailoverInv

variable {W : StartedWorkflow T} {s s' : Cluster T} {i : ℕ}

/-- One node changes, and neither the log nor what is in flight. -/
theorem update (h : FailoverInv W s) {n' : WorkflowNode T}
    (hnode : ConsumedInv W s.log n' (executionOf W n')) : FailoverInv W (s.update i n') := by
  refine ⟨h.entries, h.recorded, fun j => ?_⟩
  rw [Cluster.update_node]
  by_cases hj : j = i
  · rw [if_pos hj]
    exact hnode
  · rw [if_neg hj]
    exact h.node j

/-- A node that has caught up proposes for a call that is not recorded yet. -/
theorem propose (h : FailoverInv W s) {e : Execution T} {key : String} {value : T}
    {rest : List (String × T)} (hexec : (s.node i).exec = some e) (herror : e.error = none)
    (hcalls : e.calls = (key, value) :: rest)
    (hcaught : (s.node i).caughtUp W.workflowId s.log s.inFlight) :
    (committedValues W.workflowId key (s.log ++ s.inFlight)).length <
      (W.program.map Prod.fst).count key := by
  have hnode := h.node i
  rw [executionOf_some hexec] at hnode
  simp only [caughtUp, hexec, hcalls, Bool.and_eq_true, List.isEmpty_iff] at hcaught
  -- all it has applied was taken out by calls that have returned
  have hconsumed := hnode.consumed herror key
  rw [hnode.history, hcaught.2, List.length_nil, Nat.add_zero] at hconsumed
  have hsplit : s.log ++ s.inFlight =
      s.log.take (s.node i).applied ++ (s.log.drop (s.node i).applied ++ s.inFlight) := by
    rw [← List.append_assoc, List.take_append_drop]
  rw [hsplit, committedValues_append, hcaught.1, List.append_nil]
  exact Nat.lt_of_le_of_lt hconsumed (hnode.length_values_lt hcalls)

/-- A command is proposed. -/
theorem send (h : FailoverInv W s) {command : WorkflowCommand}
    (hof : command.ofExecution W.workflowId)
    (hrecorded : ∀ key, (committedValues W.workflowId key (s.log ++ s.inFlight)).length +
      (committedValues W.workflowId key [(s.nextSyncId, command)]).length ≤
        (W.program.map Prod.fst).count key) :
    FailoverInv W { s with
      inFlight := s.inFlight ++ [(s.nextSyncId, command)]
      nextSyncId := s.nextSyncId + 1 } := by
  refine ⟨?_, ?_, h.node⟩
  · intro proposal hmem
    rw [← List.append_assoc] at hmem
    rcases List.mem_append.mp hmem with hmem | hmem
    · exact h.entries proposal hmem
    · rw [List.mem_singleton.mp hmem]
      exact hof
  · intro key
    rw [← List.append_assoc, committedValues_append, List.length_append]
    exact hrecorded key

section
variable [SerdeJson T]

theorem commit (h : FailoverInv W s) {position : ℕ}
    (hstep : s.step W (.commit position) = some s') : FailoverInv W s' := by
  simp only [Cluster.step] at hstep
  split at hstep
  · exact absurd hstep (by simp)
  · next proposal hget =>
    obtain rfl := Option.some.inj hstep
    obtain ⟨hlt, heq⟩ := List.getElem?_eq_some_iff.mp hget
    -- a commit only changes the order
    have hperm : ((s.log ++ [proposal]) ++ s.inFlight.eraseIdx position).Perm
        (s.log ++ s.inFlight) := by
      rw [List.append_assoc, List.singleton_append, ← heq]
      exact (List.getElem_cons_eraseIdx_perm hlt).append_left s.log
    refine ⟨?_, ?_, fun i => (h.node i).grow proposal⟩
    · exact fun p hp => h.entries p (hperm.mem_iff.mp hp)
    · intro key
      rw [perm_committedValues hperm]
      exact h.recorded key

theorem apply (h : FailoverInv W s) (hstep : s.step W (.apply i) = some s') :
    FailoverInv W s' := by
  simp only [Cluster.step] at hstep
  split at hstep
  · exact absurd hstep (by simp)
  · split at hstep
    · exact absurd hstep (by simp)
    · next proposal hget =>
      obtain rfl := Option.some.inj hstep
      have hmem : proposal ∈ s.log := List.mem_of_getElem? hget
      exact h.update ((h.node i).apply hget (h.entries proposal (List.mem_append_left _ hmem)))

theorem publish (h : FailoverInv W s) (hstep : s.step W (.publish i) = some s') :
    FailoverInv W s' := by
  simp only [Cluster.step] at hstep
  split at hstep
  · exact absurd hstep (by simp)
  · next event events hun =>
    obtain rfl := Option.some.inj hstep
    refine h.update ?_
    rw [executionOf_observe (n := s.node i) rfl]
    refine (h.node i).advance (Or.inl ⟨rfl, rfl⟩) rfl (fun _ => rfl) fun herror => ?_
    exact ⟨herror, fun _ => Nat.le_refl _⟩

/-- A step of a call, as far as the node is concerned. -/
theorem callNode (h : FailoverInv W s) {e : Execution T} {key : String} {value : T}
    {rest : List (String × T)} {syncId : ℕ} {completed : ℕ → Bool} {n' : WorkflowNode T}
    {c : CallStep} {proposed : Option WorkflowCommand} (hexec : (s.node i).exec = some e)
    (herror : e.error = none) (hcalls : e.calls = (key, value) :: rest)
    (hrun : CallRun W.workflowId i syncId completed (s.node i) e key value c n' proposed) :
    ConsumedInv W s.log n' (executionOf W n') := by
  have hnode := h.node i
  rw [executionOf_some hexec] at hnode
  obtain ⟨e', hexec', hadvances⟩ := hrun.advances hcalls
  obtain ⟨happ, hsnapshot, hconsumed⟩ := hrun.consumed hcalls hexec' hadvances
  have hhistory : n'.sm.checkpointHistory = (s.node i).sm.checkpointHistory :=
    congrArg WorkflowSnapshot.checkpointHistory hsnapshot
  rw [executionOf_some hexec']
  refine hnode.advance hadvances happ (fun key' => ?_) fun herror' => ⟨herror, hconsumed herror'⟩
  rw [history, history, hhistory]

theorem call (h : FailoverInv W s) {c : CallStep} (hcaught : s.CaughtUp W (.cluster (.call i c)))
    (hstep : s.step W (.call i c) = some s') : FailoverInv W s' := by
  simp only [Cluster.step] at hstep
  split at hstep
  · exact absurd hstep (by simp)
  · next n' hcall =>
    obtain rfl := Option.some.inj hstep
    obtain ⟨e, key, value, rest, hexec, herror, hcalls, hrun⟩ := callStep_run hcall
    exact h.update (h.callNode hexec herror hcalls hrun)
  · next n' command hcall =>
    obtain rfl := Option.some.inj hstep
    obtain ⟨e, key, value, rest, hexec, herror, hcalls, hrun⟩ := callStep_run hcall
    have hnode := h.callNode hexec herror hcalls hrun
    -- no other step proposes
    cases hrun with
    | propose hphase =>
      have hfresh := h.propose hexec herror hcalls hcaught
      refine (h.update hnode).send (by simp [WorkflowCommand.ofExecution]) fun key' => ?_
      rw [committedValues_setCheckpoint]
      by_cases hk : key' = key
      · subst hk
        rw [if_pos rfl]
        exact hfresh
      · rw [if_neg hk]
        exact h.recorded key'

theorem step (h : FailoverInv W s) {a : FailoverAction} (hcaught : s.CaughtUp W a)
    (hstep : s.failoverStep W a = some s') : FailoverInv W s' := by
  cases a with
  | cluster a =>
    cases a with
    | commit position => exact h.commit hstep
    | apply i => exact h.apply hstep
    | publish i => exact h.publish hstep
    | call i c => exact h.call hcaught hstep
  | ownerChange oldOwnerNodeId newOwnerNodeId reason =>
    obtain rfl := Option.some.inj hstep
    exact h.send rfl h.recorded

end

theorem start (W : StartedWorkflow T) : FailoverInv W (Cluster.start W) := by
  refine ⟨?_, fun key => Nat.zero_le _, fun i => ⟨Nat.zero_le _, fun key => ?_, rfl, rfl, ?_⟩⟩
  · intro proposal hmem
    rw [List.mem_singleton.mp hmem]
    rfl
  · rfl
  · exact fun _ key => Nat.zero_le _

theorem recordedOnce (h : FailoverInv W s) : RecordedOnce W s := by
  have hcommitted : ∀ key, (committedValues W.workflowId key s.log).length ≤
      (W.program.map Prod.fst).count key := by
    intro key
    have hall := h.recorded key
    rw [committedValues_append, List.length_append] at hall
    omega
  refine ⟨hcommitted, fun i key => ?_⟩
  rw [(h.node i).history]
  have hle := (committedValues_take W.workflowId key s.log (s.node i).applied).length_le
  exact Nat.le_trans hle (hcommitted key)

end FailoverInv

open Transition

/-- In every run in which a node that proposes has caught up with the checkpoints of its key, the
owner may change at any time: no call of the program is recorded twice. -/
theorem failover_records_once [SerdeJson T] (W : StartedWorkflow T)
    {actions : List FailoverAction} {s : Cluster T}
    (hcaught : Along (Cluster.failoverStep W) (Cluster.CaughtUp W) (Cluster.start W) actions)
    (hrun : run (Cluster.failoverStep W) (Cluster.start W) actions = some s) :
    RecordedOnce W s := by
  have hinv : FailoverInv W s := run_induction
    (fun _ _ _ hs hcond hstep => hs.step hcond hstep) (FailoverInv.start W) hcaught hrun
  exact hinv.recordedOnce

section
open Codec

/-- Node 1 owns the workflow and hands it over to node 2. -/
def handedOver (program : List (String × String)) : StartedWorkflow String where
  workflowId := "w"
  owner := 1
  program

/-- The first checkpoint is committed and consumed before node 2 proposes the second. -/
def handOver : List FailoverAction :=
  [.cluster (.apply 1), .cluster (.publish 1), .cluster (.call 1 .dequeue),
   .cluster (.call 1 .subscribe), .cluster (.call 1 .checkOwner), .cluster (.call 1 .propose),
   .cluster (.commit 0), .ownerChange 1 2 .nodeFailure, .cluster (.commit 0),
   .cluster (.apply 2), .cluster (.publish 2), .cluster (.apply 2), .cluster (.publish 2),
   .cluster (.apply 2), .cluster (.publish 2), .cluster (.call 2 .dequeue),
   .cluster (.call 2 .dequeue), .cluster (.call 2 .subscribe), .cluster (.call 2 .checkOwner),
   .cluster (.call 2 .propose), .cluster (.commit 0)]

theorem failover_records_once_two_calls :
    ∃ s, run (Cluster.failoverStep (handedOver [("k", "a"), ("k", "b")]))
        (Cluster.start (handedOver [("k", "a"), ("k", "b")])) handOver = some s ∧
      (committedValues "w" "k" s.log).length = 2 ∧
      RecordedOnce (handedOver [("k", "a"), ("k", "b")]) s := by
  have hrun : (run (Cluster.failoverStep (handedOver [("k", "a"), ("k", "b")]))
      (Cluster.start (handedOver [("k", "a"), ("k", "b")])) handOver).map
        (fun s => (committedValues "w" "k" s.log).length) = some 2 := by decide
  obtain ⟨s, hs, hlength⟩ := Option.map_eq_some_iff.mp hrun
  exact ⟨s, hs, hlength, failover_records_once _ (by decide) hs⟩

/-- The checkpoint of node 1 is in flight when the change of the owner is committed, and node 2
proposes the same call. -/
def inFlightAtHandOver : List FailoverAction :=
  [.cluster (.apply 1), .cluster (.publish 1), .cluster (.call 1 .dequeue),
   .cluster (.call 1 .subscribe), .cluster (.call 1 .checkOwner), .cluster (.call 1 .propose),
   .ownerChange 1 2 .nodeFailure, .cluster (.commit 1),
   .cluster (.apply 2), .cluster (.publish 2), .cluster (.apply 2), .cluster (.publish 2),
   .cluster (.call 2 .dequeue), .cluster (.call 2 .subscribe), .cluster (.call 2 .checkOwner),
   .cluster (.call 2 .propose), .cluster (.commit 0), .cluster (.commit 0)]

theorem failover_records_twice :
    ∃ s, run (Cluster.failoverStep (handedOver [("k", "a")]))
        (Cluster.start (handedOver [("k", "a")])) inFlightAtHandOver = some s ∧
      (committedValues "w" "k" s.log).length = 2 ∧ ¬ RecordedOnce (handedOver [("k", "a")]) s := by
  have hrun : (run (Cluster.failoverStep (handedOver [("k", "a")]))
      (Cluster.start (handedOver [("k", "a")])) inFlightAtHandOver).map
        (fun s => (committedValues "w" "k" s.log).length) = some 2 := by decide
  obtain ⟨s, hs, hlength⟩ := Option.map_eq_some_iff.mp hrun
  refine ⟨s, hs, hlength, fun h => ?_⟩
  have hle := h.committed "k"
  rw [show (handedOver [("k", "a")]).workflowId = "w" from rfl, hlength] at hle
  exact absurd hle (by decide)

end

end Raftoral

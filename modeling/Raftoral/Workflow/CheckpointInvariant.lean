import Raftoral.Workflow.Cluster

/-!
# The invariants of a workflow with a fixed owner

* `LogInv`: the owner proposes the calls of the program one after the other, so the log and
  what is in flight are a beginning of the program;
* `NodeInv`: a node has taken out of its queues what its calls have returned, as far as the
  program goes on using them.
-/

namespace Raftoral

open WorkflowNode

variable {T : Type} [SerdeJson T]

/-! ## The log -/

section
variable {W : StartedWorkflow T} {calls : List (String × T)} {key : String}

/-- The command a call proposes. -/
def checkpointCommand (W : StartedWorkflow T) (call : String × T) : WorkflowCommand :=
  .setCheckpoint W.workflowId call.1 (SerdeJson.toVec call.2)

/-- The proposals of calls, with their ids, behind the start. -/
def proposals (W : StartedWorkflow T) (calls : List (String × T)) : List Proposal :=
  (0, W.start) :: (calls.zipIdx 1).map fun call => (call.2, checkpointCommand W call.1)

theorem length_proposals : (proposals W calls).length = calls.length + 1 := by
  simp [proposals]

theorem proposals_append (call : String × T) :
    proposals W (calls ++ [call]) =
      proposals W calls ++ [(calls.length + 1, checkpointCommand W call)] := by
  simp [proposals, List.zipIdx_append, Nat.add_comm]

/-- The id of a proposal is its place. The first entry starts the workflow, the others set
checkpoints. -/
theorem getElem?_proposals {i : ℕ} {proposal : Proposal}
    (h : (proposals W calls)[i]? = some proposal) :
    proposal.1 = i ∧ (i = 0 ∧ proposal.2 = W.start ∨
      0 < i ∧ ∃ key value, proposal.2 = .setCheckpoint W.workflowId key value) := by
  unfold proposals at h
  cases i with
  | zero =>
    rw [List.getElem?_cons_zero, Option.some.injEq] at h
    rw [← h]
    exact ⟨rfl, Or.inl ⟨rfl, rfl⟩⟩
  | succ i =>
    rw [List.getElem?_cons_succ, List.getElem?_map, List.getElem?_zipIdx] at h
    simp only [Option.map_map, Option.map_eq_some_iff] at h
    obtain ⟨call, -, rfl⟩ := h
    exact ⟨Nat.add_comm 1 i, Or.inr ⟨Nat.succ_pos i, call.1, SerdeJson.toVec call.2, rfl⟩⟩

/-- The values the calls on a key commit. -/
theorem committedValues_proposals :
    committedValues W.workflowId key (proposals W calls) =
      (calls.filter fun call => call.1 = key).map fun call => SerdeJson.toVec call.2 := by
  induction calls using List.reverseRecOn with
  | nil => rfl
  | append_singleton calls call ih =>
    rw [proposals_append, committedValues_append, ih, checkpointCommand,
      committedValues_setCheckpoint, List.filter_append, List.map_append]
    by_cases hk : key = call.1
    · simp [hk]
    · simp [hk, Ne.symm hk]

theorem length_committedValues_proposals :
    (committedValues W.workflowId key (proposals W calls)).length =
      (calls.map Prod.fst).count key := by
  rw [committedValues_proposals, List.length_map, List.count, List.countP_map,
    List.countP_eq_length_filter]
  congr 1

end

/-! ## The invariants -/

section
variable (W : StartedWorkflow T)

/-- The phases that only the owner of the workflow reaches. -/
def Phase.ofOwner : Phase → Bool
  | .proposing | .awaiting _ | .popping => true
  | .dequeuing | .subscribing _ | .checking _ | .waiting _ | .rechecking _ => false

/-- Where the owner stands when `p` of its calls were proposed. -/
def OwnerAt (inFlight : List Proposal) (applied p : ℕ) (e : Execution T) : Prop :=
  match e.phase with
  | .awaiting id => p = e.returned.length + 1 ∧ id = p
  | .popping => p = e.returned.length + 1 ∧ p < applied
  | .waiting _ | .rechecking _ => False
  | .dequeuing | .subscribing _ | .checking _ | .proposing =>
    p = e.returned.length ∧ inFlight = []

/-- The log and what is in flight are the proposals of the first `p` calls. -/
structure LogInv (s : Cluster T) (p : ℕ) : Prop where
  bound : p ≤ W.program.length
  all : s.log ++ s.inFlight = proposals W (W.program.take p)
  started : s.log ≠ []
  next : s.nextSyncId = p + 1
  single : s.inFlight.length ≤ 1
  owner : ∀ e, (s.node W.owner).exec = some e → e.error = none →
    OwnerAt s.inFlight (s.node W.owner).applied p e
  fresh : (s.node W.owner).exec = none → p = 0

/-- A node that executes the program, or is about to. -/
structure NodeInv (log : List Proposal) (n : WorkflowNode T) (e : Execution T) : Prop where
  applied : n.applied ≤ log.length
  busy : n.locked → 0 < n.applied
  owned : 0 < n.applied → n.sm.getOwner W.workflowId = some W.owner
  calls : e.calls = W.program.drop e.returned.length
  keys : e.returned.map Prod.fst = (W.program.take e.returned.length).map Prod.fst
  results : ∀ key, (e.values key).map Except.ok <+: (committedValues W.workflowId key log).map
    (SerdeJson.fromSlice : Bytes → Except String T)
  queued : e.error = none → ∀ key ∈ e.calls.map Prod.fst,
    (e.values key).length ≤ (committedValues W.workflowId key (log.take n.applied)).length ∧
      n.sm.queue W.workflowId key =
        (committedValues W.workflowId key (log.take n.applied)).drop (e.values key).length
  idle : e.phase = .dequeuing → e.subscription = none
  /-- What a call that found its queue empty can still be told was committed after that. -/
  ahead : e.error = none → e.phase ≠ .dequeuing → ∀ key value rest,
    e.calls = (key, value) :: rest → ∀ bytes,
      .checkpointSet W.workflowId key bytes ∈ e.subscription.getD [] ++ n.unpublished →
      ∃ m, (e.values key).length ≤ m ∧ (committedValues W.workflowId key log)[m]? = some bytes

/-- The execution of a node; one that has not started yet will run the program. -/
def executionOf (n : WorkflowNode T) : Execution T := n.exec.getD { calls := W.program }

variable {W} in
omit [SerdeJson T] in
theorem executionOf_some {n : WorkflowNode T} {e : Execution T} (h : n.exec = some e) :
    executionOf W n = e := by
  rw [executionOf, h]
  rfl

variable {W} in
omit [SerdeJson T] in
/-- An event changes no more than the subscription; a new execution is the one to come. -/
theorem executionOf_observe {n n' : WorkflowNode T} {event : WorkflowEvent}
    (h : n'.exec = observe W event n.exec) :
    executionOf W n' = { executionOf W n with
      subscription := (executionOf W n).subscription.map (· ++ [event]) } := by
  unfold executionOf
  rw [h]
  cases hexec' : observe W event n.exec with
  | none =>
    rw [observe_eq_none hexec']
    rfl
  | some e' =>
    rcases observe_cases hexec' with ⟨e, hexec, rfl⟩ | ⟨hexec, rfl⟩
    · rw [hexec]
      rfl
    · rw [hexec]
      rfl

/-- The invariant of the cluster. -/
structure ClusterInv (s : Cluster T) : Prop where
  log : ∃ p, LogInv W s p
  node : ∀ i, NodeInv W s.log (s.node i) (executionOf W (s.node i))
  started : ∀ i e, (s.node i).exec = some e → 0 < (s.node i).applied
  follower : ∀ i e, i ≠ W.owner → (s.node i).exec = some e → e.error = none →
    e.phase.ofOwner = false

end

/-! ## One node -/

/-- One more element of the longer list. -/
theorem concat_isPrefix {α : Type} {l L : List α} {a : α} (h : l <+: L)
    (ha : L[l.length]? = some a) : l ++ [a] <+: L := by
  obtain ⟨t, rfl⟩ := h
  cases t with
  | nil => simp at ha
  | cons b t =>
    rw [List.getElem?_append_right (Nat.le_refl _), Nat.sub_self, List.getElem?_cons_zero,
      Option.some.injEq] at ha
    rw [ha]
    exact ⟨t, by simp⟩

section
variable {W : StartedWorkflow T} {log : List Proposal} {n n' : WorkflowNode T}
  {e e' : Execution T} {key : String} {value : T} {rest : List (String × T)}

/-- The log grows. -/
theorem NodeInv.grow (h : NodeInv W log n e) (proposal : Proposal) :
    NodeInv W (log ++ [proposal]) n e := by
  have htake : (log ++ [proposal]).take n.applied = log.take n.applied :=
    List.take_append_of_le_length h.applied
  refine ⟨?_, h.busy, h.owned, h.calls, h.keys, ?_, ?_, h.idle, ?_⟩
  · have := h.applied
    rw [List.length_append]
    omega
  · intro key
    refine (h.results key).trans ?_
    rw [committedValues_append, List.map_append]
    exact List.prefix_append _ _
  · rw [htake]
    exact h.queued
  · intro herror hphase key value rest hcalls bytes hmem
    obtain ⟨m, hm, hget⟩ := h.ahead herror hphase key value rest hcalls bytes hmem
    refine ⟨m, hm, ?_⟩
    rw [committedValues_append, List.getElem?_append_left]
    · exact hget
    · exact (List.getElem?_eq_some_iff.mp hget).1

/-- A step of the call under way that does not complete it. -/
theorem NodeInv.move (h : NodeInv W log n e) (happ : n'.applied = n.applied)
    (hlocked : n'.locked → n.locked)
    (howner : n'.sm.getOwner W.workflowId = n.sm.getOwner W.workflowId)
    (hqueue : e'.error = none → ∀ key,
      n'.sm.queue W.workflowId key = n.sm.queue W.workflowId key)
    (hret : e'.returned = e.returned) (hcalls : e'.calls = e.calls)
    (herror : e'.error = none → e.error = none)
    (hidle : e'.phase = .dequeuing → e'.subscription = none)
    (hahead : e'.error = none → e'.phase ≠ .dequeuing → ∀ event ∈ e'.subscription.getD [] ++ n'.unpublished,
      e.phase ≠ .dequeuing ∧ event ∈ e.subscription.getD [] ++ n.unpublished) :
    NodeInv W log n' e' := by
  -- what was returned is the same, so every statement about values carries over
  have hvalues : ∀ key, e'.values key = e.values key := fun key => by
    rw [Execution.values, Execution.values, hret]
  refine ⟨?_, ?_, ?_, ?_, ?_, ?_, ?_, hidle, ?_⟩
  · rw [happ]
    exact h.applied
  · rw [happ]
    exact fun hl => h.busy (hlocked hl)
  · rw [happ, howner]
    exact h.owned
  · rw [hcalls, hret]
    exact h.calls
  · rw [hret]
    exact h.keys
  · intro key
    rw [hvalues]
    exact h.results key
  · intro herr key hkey
    rw [hvalues, happ, hqueue herr]
    rw [hcalls] at hkey
    exact h.queued (herror herr) key hkey
  · intro herr hphase key value rest hrest bytes hmem
    obtain ⟨hphase₀, hmem₀⟩ := hahead herr hphase _ hmem
    rw [hvalues]
    exact h.ahead (herror herr) hphase₀ key value rest (hcalls ▸ hrest) bytes hmem₀

/-- A call that returns the next value committed for its key. -/
theorem NodeInv.complete (h : NodeInv W log n e) (happ : n'.applied = n.applied)
    (hun : n'.unpublished = n.unpublished)
    (howner : n'.sm.getOwner W.workflowId = n.sm.getOwner W.workflowId)
    (hcalls : e.calls = (key, value) :: rest) {v : T}
    (hval : ∃ bytes, (committedValues W.workflowId key log)[(e.values key).length]? = some bytes ∧
      SerdeJson.fromSlice bytes = .ok v)
    (hqueue : ∀ key' ∈ rest.map Prod.fst,
      ((e.complete v).values key').length ≤
          (committedValues W.workflowId key' (log.take n.applied)).length ∧
        n'.sm.queue W.workflowId key' = (committedValues W.workflowId key'
          (log.take n.applied)).drop ((e.complete v).values key').length) :
    NodeInv W log n' (e.complete v) := by
  have heq := Execution.complete_of_calls hcalls v
  -- the call under way stands at the place in the program behind the returned ones
  have hdrop : W.program.drop e.returned.length = (key, value) :: rest := by
    rw [← h.calls, hcalls]
  have hget : W.program[e.returned.length]? = some (key, value) := by
    rw [← List.head?_drop, hdrop, List.head?_cons]
  refine ⟨?_, ?_, ?_, ?_, ?_, ?_, ?_, ?_, ?_⟩
  · rw [happ]
    exact h.applied
  · rw [happ, locked, hun]
    exact h.busy
  · rw [happ, howner]
    exact h.owned
  · rw [heq]
    show rest = W.program.drop (e.returned ++ [(key, v)]).length
    rw [List.length_append, List.length_singleton, ← List.tail_drop, hdrop, List.tail_cons]
  · rw [heq]
    show (e.returned ++ [(key, v)]).map Prod.fst =
      (W.program.take (e.returned ++ [(key, v)]).length).map Prod.fst
    rw [List.length_append, List.length_singleton, List.take_add_one, hget, List.map_append,
      List.map_append, h.keys]
    rfl
  · -- only the key of the call has one more value
    intro key'
    rw [Execution.values_complete hcalls]
    by_cases hk : key' = key
    · subst hk
      obtain ⟨bytes, hbytes, hdecode⟩ := hval
      rw [if_pos rfl, List.map_append]
      refine concat_isPrefix (h.results key') ?_
      rw [List.length_map, List.getElem?_map, hbytes, Option.map_some, hdecode]
    · rw [if_neg hk, List.append_nil]
      exact h.results key'
  · intro _ key' hkey'
    rw [happ]
    rw [heq] at hkey'
    exact hqueue key' hkey'
  · intro _
    rw [heq]
  · intro _ hphase
    rw [heq] at hphase
    exact absurd rfl hphase

/-- The start of the workflow is applied. -/
theorem NodeInv.applyStart (h : NodeInv W log n e) {proposal : Proposal}
    (hget : log[n.applied]? = some proposal) (hstart : proposal.2 = W.start)
    (hfree : n.unpublished = []) : NodeInv W log (n.applyCommand proposal.2) e := by
  have hnone : ∀ key, committedValues W.workflowId key [proposal] = [] := by
    intro key
    simp [committedValues, hstart, StartedWorkflow.start]
  have htake : ∀ key, committedValues W.workflowId key (log.take (n.applied + 1)) =
      committedValues W.workflowId key (log.take n.applied) := by
    intro key
    rw [committedValues_take_succ _ _ hget, hnone, List.append_nil]
  have hlen : n.applied < log.length := (List.getElem?_eq_some_iff.mp hget).1
  rw [hstart]
  refine ⟨hlen, fun _ => Nat.succ_pos _, fun _ => ?_, h.calls, h.keys, h.results, ?_, h.idle, ?_⟩
  · exact WorkflowStateMachine.getOwner_workflowStart n.sm W.workflowId W.workflowType W.version
      W.input W.owner
  · intro herror key hkey
    show _ ≤ (committedValues W.workflowId key (log.take (n.applied + 1))).length ∧
      _ = (committedValues W.workflowId key (log.take (n.applied + 1))).drop _
    rw [htake]
    exact h.queued herror key hkey
  · intro herror hphase key value rest hcalls bytes hmem
    refine h.ahead herror hphase key value rest hcalls bytes ?_
    rw [hfree, List.append_nil]
    -- the new event is the start
    have hnew : (n.applyCommand W.start).unpublished = [.workflowStarted W.workflowId
      W.workflowType W.version W.owner] := rfl
    rw [hnew, List.mem_append, List.mem_singleton] at hmem
    exact hmem.resolve_right (by simp)

/-- A checkpoint is applied. -/
theorem NodeInv.applyCheckpoint (h : NodeInv W log n e) {proposal : Proposal} {key : String}
    {value : Bytes} (hget : log[n.applied]? = some proposal) (hpos : 0 < n.applied)
    (hset : proposal.2 = .setCheckpoint W.workflowId key value) :
    NodeInv W log (n.applyCommand proposal.2) e := by
  have htake : ∀ key', committedValues W.workflowId key' (log.take (n.applied + 1)) =
      committedValues W.workflowId key' (log.take n.applied) ++
        if key' = key then [value] else [] := by
    intro key'
    obtain ⟨id, command⟩ := proposal
    obtain rfl : command = _ := hset
    rw [committedValues_take_succ _ _ hget, committedValues_setCheckpoint]
  have hlen : n.applied < log.length := (List.getElem?_eq_some_iff.mp hget).1
  rw [hset]
  refine ⟨hlen, fun _ => Nat.succ_pos _, fun _ => ?_, h.calls, h.keys, h.results, ?_, h.idle, ?_⟩
  · exact h.owned hpos
  · intro herror key' hkey'
    obtain ⟨hle, hqueue⟩ := h.queued herror key' hkey'
    show _ ≤ (committedValues W.workflowId key' (log.take (n.applied + 1))).length ∧
      (n.sm.apply (.setCheckpoint W.workflowId key value)).2.queue W.workflowId key' =
        (committedValues W.workflowId key' (log.take (n.applied + 1))).drop _
    -- queue and log grow by the same value
    rw [htake, WorkflowStateMachine.queue_setCheckpoint, hqueue, List.length_append,
      List.drop_append_of_le_length hle]
    exact ⟨by omega, rfl⟩
  · intro herror hphase key' value' rest hcalls bytes hmem
    have hnew : (n.applyCommand (.setCheckpoint W.workflowId key value)).unpublished =
        [.checkpointSet W.workflowId key value] := rfl
    rw [hnew, List.mem_append, List.mem_singleton] at hmem
    rcases hmem with hmem | hmem
    · refine h.ahead herror hphase key' value' rest hcalls bytes ?_
      exact List.mem_append_left _ hmem
    · -- the value is the next one of its key
      simp only [WorkflowEvent.checkpointSet.injEq, true_and] at hmem
      obtain ⟨rfl, rfl⟩ := hmem
      have hkey' : key' ∈ e.calls.map Prod.fst := by simp [hcalls]
      refine ⟨_, (h.queued herror key' hkey').1, ?_⟩
      obtain ⟨t, ht⟩ := committedValues_take W.workflowId key' log (n.applied + 1)
      rw [← ht, htake, if_pos rfl, List.append_assoc, List.getElem?_append_right (Nat.le_refl _),
        Nat.sub_self]
      rfl

/-- An event is published. -/
theorem NodeInv.publish (h : NodeInv W log n (executionOf W n)) {event : WorkflowEvent}
    {events : List WorkflowEvent} (hun : n.unpublished = event :: events) :
    NodeInv W log { n with unpublished := events, exec := observe W event n.exec }
      (executionOf W { n with unpublished := events, exec := observe W event n.exec }) := by
  have hlocked : n.locked := by simp [locked, hun]
  rw [executionOf_observe (n := n) rfl]
  refine h.move rfl (fun _ => hlocked) rfl (fun _ _ => rfl) rfl rfl id ?_ ?_
  · intro hphase
    show (executionOf W n).subscription.map _ = none
    rw [h.idle hphase]
    rfl
  · intro _ hphase x hx
    refine ⟨hphase, ?_⟩
    rw [hun]
    rcases List.mem_append.mp hx with hx | hx
    · -- the event moves from those to be published to the subscription, if there is one
      cases hsub : (executionOf W n).subscription with
      | none => simp [hsub] at hx
      | some sub =>
        simp only [hsub, Option.map_some, Option.getD_some, List.mem_append,
          List.mem_singleton] at hx
        rw [Option.getD_some, List.mem_append]
        rcases hx with hx | rfl
        · exact Or.inl hx
        · exact Or.inr List.mem_cons_self
    · exact List.mem_append_right _ (List.mem_cons_of_mem event hx)

/-- A call that takes the next value out of its queue. -/
theorem NodeInv.completePop (h : NodeInv W log n e) (herror : e.error = none)
    (hcalls : e.calls = (key, value) :: rest) {bytes : Bytes} {v : T}
    (hnext : (committedValues W.workflowId key (log.take n.applied))[(e.values key).length]? =
      some bytes)
    (hdecode : SerdeJson.fromSlice bytes = .ok v) :
    NodeInv W log { n with
      sm := (n.sm.popQueuedCheckpoint W.workflowId key).2
      exec := some (e.complete v) } (e.complete v) := by
  have hlen := (List.getElem?_eq_some_iff.mp hnext).1
  refine h.complete ?_ ?_ ?_ hcalls ⟨bytes, ?_, hdecode⟩ ?_
  · rfl
  · rfl
  · exact n.sm.getOwner_popQueuedCheckpoint W.workflowId key W.workflowId
  · obtain ⟨t, ht⟩ := committedValues_take W.workflowId key log n.applied
    rw [← ht, List.getElem?_append_left hlen, hnext]
  · intro key' hkey'
    have hmem : key' ∈ e.calls.map Prod.fst := by
      rw [hcalls]
      exact List.mem_cons_of_mem key hkey'
    obtain ⟨hle, hqueue⟩ := h.queued herror key' hmem
    show _ ∧ (n.sm.popQueuedCheckpoint W.workflowId key).2.queue W.workflowId key' = _
    -- the queue loses the value that the call returns
    rw [WorkflowStateMachine.queue_popQueuedCheckpoint, Execution.values_complete hcalls, hqueue]
    by_cases hk : key' = key
    · subst hk
      rw [if_pos rfl, if_pos rfl, List.length_append, List.length_singleton, List.tail_drop]
      exact ⟨hlen, rfl⟩
    · rw [if_neg hk, if_neg hk, List.append_nil]
      exact ⟨hle, rfl⟩

/-- The call under way ends with an error. -/
theorem NodeInv.fail (h : NodeInv W log n e) (happ : n'.applied = n.applied)
    (hun : n'.unpublished = n.unpublished)
    (howner : n'.sm.getOwner W.workflowId = n.sm.getOwner W.workflowId) (error : WorkflowError) :
    NodeInv W log n' (e.fail error) := by
  have hended : (e.fail error).error ≠ none := by simp [Execution.fail]
  refine h.move happ ?_ howner ?_ rfl rfl ?_ ?_ ?_
  · rw [locked, locked, hun]
    exact id
  · exact fun herror => absurd herror hended
  · exact fun herror => absurd herror hended
  · exact fun _ => rfl
  · exact fun herror => absurd herror hended

/-- The call under way tries again; the subscription of the last attempt is gone. -/
theorem NodeInv.nextAttempt (h : NodeInv W log n e) (hphase : e.phase ≠ .dequeuing)
    (attempt : ℕ) {exec : Option (Execution T)} :
    NodeInv W log { n with exec } (e.nextAttempt attempt) := by
  unfold Execution.nextAttempt
  by_cases hlast : attempt + 1 < maxRetries
  · rw [if_pos hlast]
    refine h.move rfl id rfl (fun _ _ => rfl) rfl rfl id (fun _ => rfl) ?_
    intro _ _ event hevent
    exact ⟨hphase, List.mem_append_right _ hevent⟩
  · rw [if_neg hlast]
    refine h.fail ?_ ?_ ?_ .timeout
    · rfl
    · rfl
    · rfl

/-- How often a key was used so far. -/
theorem NodeInv.length_values (h : NodeInv W log n e) (key : String) :
    (e.values key).length = ((W.program.take e.returned.length).map Prod.fst).count key := by
  rw [Execution.length_values, h.keys]

/-- The call under way is the next one of the program. -/
theorem NodeInv.getElem?_program (h : NodeInv W log n e)
    (hcalls : e.calls = (key, value) :: rest) :
    W.program[e.returned.length]? = some (key, value) := by
  rw [← List.head?_drop, ← h.calls, hcalls, List.head?_cons]

theorem NodeInv.take_program (h : NodeInv W log n e) (hcalls : e.calls = (key, value) :: rest) :
    W.program.take (e.returned.length + 1) =
      W.program.take e.returned.length ++ [(key, value)] := by
  rw [List.take_add_one, h.getElem?_program hcalls, Option.toList_some]

/-- A node that has seen the workflow start knows its owner. -/
theorem NodeInv.isWorkflowOwner_iff (h : NodeInv W log n e) (hpos : 0 < n.applied) (i : ℕ) :
    isWorkflowOwner n.sm W.workflowId i ↔ i = W.owner := by
  unfold isWorkflowOwner
  rw [h.owned hpos]
  show (W.owner == i) = true ↔ _
  rw [beq_iff_eq, eq_comm]

end

end Raftoral

import Raftoral.Lib.Run
import Raftoral.Workflow.SidecarClientSteps

/-!
# Which checkpoint calls are answered

In a run of the client every call gets the values of its checkpoint exactly when each step is in
time: an event that comes too early, or a second call for one checkpoint, leaves somebody without.
-/

namespace Raftoral

open Transition

namespace RaftoralClient

open CheckpointCall (registering_of_phase key_eq_of_pair_eq)

/-- A receive task that is blocked has no event in the stream that is waited for. -/
theorem Delivered.stream_eq_nil {s : RaftoralClient} {c : CheckpointCall} (h : s.Delivered)
    (hblocked : s.Blocked) (hc : c ∈ s.calls) (hwaiting : c.phase = .waiting)
    (hnumber : c.number = some (values c.pair s.taken).length) : values c.pair s.stream = [] := by
  by_contra hne
  refine (h.waiting c hc hwaiting _ hnumber ?_).2.2 hblocked
  rw [values_append, List.length_append]
  exact Nat.lt_add_of_pos_right (List.length_pos_iff.mpr hne)

theorem expected_of_delivered {s : RaftoralClient} {item : Option SidecarMessage}
    {rest : List (Option SidecarMessage)} (h : s.Inv)
    (hdelivered : ((s.took item rest).handle item).Delivered) : s.Expected item := by
  cases item with
  | none => trivial
  | some message =>
    cases message with
    | executeWorkflow workflowId workflowName version input isOwner => trivial
    | workflowCancellation workflowId reason => trivial
    | heartbeatResponse timestamp => trivial
    | checkpointEvent workflowId name value =>
      refine ⟨fun i hi c hc => ?_, fun hnone c hc hreg heq => ?_⟩
      · -- the event of another pair is not the call's own
        by_contra hpair
        obtain ⟨d, hd, hwaiting, -⟩ := h.slot _ i hi
        obtain rfl : c = d := Option.some.inj (hc.symm.trans hd)
        rw [handle_event_of_waiter (s := s.took _ rest) value hi] at hdelivered
        have hmem : c.returns (.ok value) ∈ s.calls.modify i (CheckpointCall.returns (.ok value)) :=
          List.mem_of_getElem? (i := i) (by rw [List.getElem?_modify_eq, hd]; rfl)
        obtain ⟨k, hk, hvalue⟩ := hdelivered.own _ hmem value rfl
        obtain ⟨-, hnumber, -⟩ := (h.calls i c hd).waiting hwaiting
        obtain rfl : (values c.pair s.taken).length = k := Option.some.inj (hnumber.symm.trans hk)
        change (values c.pair (s.taken ++ [_]))[_]? = _ at hvalue
        rw [values_append_event, if_neg fun heq => hpair heq.symm, List.append_nil,
          List.getElem?_length] at hvalue
        cases hvalue
      · -- nobody waits on the pair, so its calls before have had their events
        rw [handle_event_of_none (s := s.took _ rest) value hnone] at hdelivered
        have hle := hdelivered.registering c hc hreg
        change (values c.pair (s.taken ++ [_])).length ≤ s.registered.count c.pair at hle
        rw [values_append_event, if_pos heq.symm, List.length_append] at hle
        obtain ⟨i, hi⟩ := List.mem_iff_getElem?.mp hc
        have hkey : s.checkpointWaiters c.key = none := by
          obtain ⟨rfl, rfl⟩ := Prod.mk.inj heq
          exact hnone
        rw [h.count_eq hi hreg hkey] at hle
        exact absurd hle (Nat.not_succ_le_self _)

theorem free_of_delivered {s : RaftoralClient} {i : ℕ} {c : CheckpointCall} (h : s.Inv)
    (hc : s.calls[i]? = some c) (hreg : c.Registering)
    (hdelivered : (s.waitCheckpoint i c).Delivered) : s.checkpointWaiters c.key = none := by
  rcases hwaiter : s.checkpointWaiters c.key with _ | j
  · rfl
  · obtain ⟨d, hd, hwaiting, hkey⟩ := h.slot _ j hwaiter
    have hmem : d.returns (.error displacedError) ∈ (s.waitCheckpoint i c).calls := by
      refine mem_modify_of_ne (j := j) ?_ (hreg.ne_of_waiting hc hd hwaiting)
      unfold displace
      rw [hwaiter]
      dsimp only
      rw [List.getElem?_modify_eq, hd]
      rfl
    exact absurd rfl (hdelivered.displaced _ hmem)

theorem inTime_wait_of_delivered {s : RaftoralClient} {i : ℕ} {c : CheckpointCall} (h : s.Inv)
    (hc : s.calls[i]? = some c) (hreg : c.Registering)
    (hdelivered : (s.waitCheckpoint i c).Delivered) (hwhen : c.awaited ∨ s.Blocked) :
    values c.pair s.stream = [] ∧
      ∀ d ∈ s.calls, d.phase = .waiting → values d.pair s.stream = [] := by
  have hfree := free_of_delivered h hc hreg hdelivered
  have hitself := mem_waitCheckpoint_calls hc hfree
  have hothers : ∀ d ∈ s.calls, d.phase = .waiting → d ∈ (s.waitCheckpoint i c).calls := by
    intro d hd hwaiting
    obtain ⟨j, hj⟩ := List.mem_iff_getElem?.mp hd
    rw [waitCheckpoint_calls i hfree]
    exact mem_modify_of_ne hj (hreg.ne_of_waiting hc hj hwaiting)
  have hblocked : (s.waitCheckpoint i c).Blocked := by
    rcases hwhen with hawaited | ⟨d, hd, hawaited, hwaiting⟩
    · exact ⟨_, hitself, hawaited, rfl⟩
    · exact ⟨d, hothers d hd hwaiting, hawaited, hwaiting⟩
  refine ⟨?_, fun d hd hwaiting => ?_⟩
  · exact hdelivered.stream_eq_nil (c := c.waits (s.registered.count c.pair)) hblocked hitself rfl
      (congrArg some (h.count_eq hc hreg hfree))
  · obtain ⟨j, -, hok⟩ := h.call hd
    exact hdelivered.stream_eq_nil hblocked (hothers d hd hwaiting) hwaiting
      (hok.waiting hwaiting).2.1

/-- A step behind which everything is delivered was in time. -/
theorem inTime_of_delivered {s s' : RaftoralClient} {op : ClientOp} (h : s.Inv)
    (hstep : s.step op = some s') (hdelivered : s'.Delivered) : s.InTime op := by
  cases op with
  | registerHandler name version => trivial
  | close => trivial
  | handlerReturns result => trivial
  | propose i serialized connected => trivial
  | arrive item =>
    rw [step] at hstep
    split at hstep
    next => cases hstep
    next =>
      cases hstep
      intro hblocked c hc hwaiting
      obtain ⟨i, -, hok⟩ := h.call hc
      have hnil := hdelivered.stream_eq_nil hblocked hc hwaiting (hok.waiting hwaiting).2.1
      rw [values_append] at hnil
      have hitem := (List.append_eq_nil_iff.mp hnil).2
      rw [values, List.filterMap_eq_nil_iff] at hitem
      exact hitem item (List.mem_singleton_self _)
  | take =>
    rw [step] at hstep
    split at hstep
    next item rest hidle hstream =>
      cases hstep
      intro item' hitem'
      obtain rfl : item = item' := by
        rw [hstream] at hitem'
        exact Option.some.inj hitem'
      exact expected_of_delivered h hdelivered
    next => cases hstep
  | call workflowId name isOwner awaited =>
    rw [step] at hstep
    split at hstep
    next =>
      cases hstep
      exact hdelivered.registering _ (List.mem_append_right _ (List.mem_singleton_self _))
        (Or.inl rfl)
    next => cases hstep
  | wait i =>
    rw [step] at hstep
    split at hstep
    next c hc =>
      split at hstep
      next hphase =>
        cases hstep
        intro d hd
        obtain rfl : c = d := Option.some.inj (hc.symm.trans hd)
        have hreg := registering_of_phase hphase
        exact ⟨free_of_delivered h hc hreg hdelivered,
          inTime_wait_of_delivered h hc hreg hdelivered⟩
      next => cases hstep
    next => cases hstep

/-- Every event is delivered to its call, in every state of a run, exactly when every step of the
run was in time. -/
theorem delivered_iff_inTime {ops : List ClientOp} {s : RaftoralClient}
    (hrun : run step {} ops = some s) :
    (∀ ops' t, ops' <+: ops → run step {} ops' = some t → t.Delivered) ↔
      Along step InTime {} ops :=
  always_iff_along (K := fun _ _ => True) (fun _ _ _ h _ htime hstep => inv_step h htime hstep)
    (fun _ h => h.delivered)
    (fun _ _ _ h _ hstep hdelivered => inTime_of_delivered h hstep hdelivered) inv_start
    along_true hrun

/-- A task of its own makes an owner's call, which registers before the event comes. -/
def spawnedCall : List ClientOp :=
  [.call "w" "result" true false, .propose 0 (.ok [1]) true, .wait 0,
    .arrive (some (.checkpointEvent "w" "result" [1])), .take]

theorem delivered_spawnedCall : ∃ s, run step {} spawnedCall = some s ∧
    s.calls.map CheckpointCall.phase = [.returned (.ok [1])] ∧
    ∀ ops' t, ops' <+: spawnedCall → run step {} ops' = some t → t.Delivered := by
  have hview : (run step {} spawnedCall).map (fun s => s.calls.map CheckpointCall.phase) =
      some [.returned (.ok [1])] := by decide
  obtain ⟨s, hrun, hphases⟩ := Option.map_eq_some_iff.mp hview
  exact ⟨s, hrun, hphases, (delivered_iff_inTime hrun).mpr (by decide)⟩

/-- A handler that awaits a checkpoint, as the owner. -/
def handlerAwaits : List ClientOp :=
  [.registerHandler "ping_pong" 1, .arrive (some (.executeWorkflow "w" "ping_pong" 1 [] true)),
    .take, .call "w" "result" true true, .propose 0 (.ok [1]) true, .wait 0,
    .arrive (some (.checkpointEvent "w" "result" [1]))]

/-- The event of an owner's proposal is taken before the owner registers. -/
def answeredEarly : List ClientOp :=
  [.call "w" "result" true false, .propose 0 (.ok [1]) true,
    .arrive (some (.checkpointEvent "w" "result" [1])), .take, .wait 0]

/-- Two followers wait on pairs that have one key. -/
def oneKey : List ClientOp :=
  [.call "a" "b:c" false false, .call "a:b" "c" false false, .wait 0, .wait 1]

/-- The one event of a committed checkpoint stands in the stream, and the receive task neither
takes it nor returns from the handler that waits for it; the one event of another is dropped while
the owner that proposed is yet to register; and a waiter is displaced by that of another pair. -/
theorem undelivered_events :
    (∃ s, run step {} handlerAwaits = some s ∧ ¬ s.Delivered ∧
      s.sent = [.checkpointProposal "w" "result" [1]] ∧
      s.stream = [some (.checkpointEvent "w" "result" [1])] ∧
      s.calls.map CheckpointCall.phase = [.waiting] ∧
      s.step .take = none ∧ ∀ result, s.step (.handlerReturns result) = none) ∧
    (∃ s, run step {} answeredEarly = some s ∧ ¬ s.Delivered ∧
      s.sent = [.checkpointProposal "w" "result" [1]] ∧ s.stream = [] ∧
      s.taken = [some (.checkpointEvent "w" "result" [1])] ∧
      s.calls.map CheckpointCall.phase = [.waiting]) ∧
    ∃ s, run step {} oneKey = some s ∧ ¬ s.Delivered ∧
      s.calls.map CheckpointCall.phase =
        [.returned (.error (.timeout "checkpoint event")), .waiting] := by
  refine ⟨⟨_, rfl, fun h => ?_, rfl, rfl, rfl, rfl, fun _ => rfl⟩,
    ⟨_, rfl, fun h => ?_, rfl, rfl, rfl, rfl⟩, ⟨_, rfl, fun h => ?_, rfl⟩⟩
  · exact (h.waiting _ (List.mem_singleton_self _) rfl 0 rfl (by decide)).2.2 (by decide)
  · exact absurd (h.waiting _ (List.mem_singleton_self _) rfl 0 rfl (by decide)).1 (by decide)
  · exact absurd rfl (h.displaced _ List.mem_cons_self)

end RaftoralClient

end Raftoral

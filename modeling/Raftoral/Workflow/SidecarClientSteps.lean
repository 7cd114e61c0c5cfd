import Raftoral.Workflow.SidecarClient

/-!
# The steps of the sidecar client

While every event is expected and every registration finds its key free (`InTime`), the invariant
of the client is kept: by the messages that arrive, by the calls, and by the receive task.
-/

namespace Raftoral

namespace RaftoralClient

open CheckpointCall (registering_of_phase key_eq_of_pair_eq)

/-- The calls behind a list in which one was changed. -/
theorem getElem?_modify_cases {f : CheckpointCall → CheckpointCall} {calls : List CheckpointCall}
    {i j : ℕ} {c : CheckpointCall} (h : (calls.modify i f)[j]? = some c) :
    (j = i ∧ ∃ a, calls[i]? = some a ∧ f a = c) ∨ j ≠ i ∧ calls[j]? = some c := by
  by_cases hji : j = i
  · subst hji
    rw [List.getElem?_modify_eq] at h
    exact Or.inl ⟨rfl, Option.map_eq_some_iff.mp h⟩
  · rw [List.getElem?_modify_ne _ _ fun heq => hji heq.symm] at h
    exact Or.inr ⟨hji, h⟩

theorem mem_modify_of_ne {f : CheckpointCall → CheckpointCall} {calls : List CheckpointCall}
    {i j : ℕ} {c : CheckpointCall} (hc : calls[j]? = some c) (hne : i ≠ j) :
    c ∈ calls.modify i f :=
  List.mem_of_getElem? ((List.getElem?_modify_ne _ _ hne).trans hc)

theorem inv_arrive {s : RaftoralClient} {item : Option SidecarMessage} (h : s.Inv)
    (hstopped : s.receiveTask ≠ .stopped)
    (hitem : s.Blocked → ∀ c ∈ s.calls, c.phase = .waiting → valueFor c.pair item = none) :
    Inv { s with stream := s.stream ++ [item] } := by
  refine h.frame rfl rfl rfl (fun _ => rfl) (fun hblocked c hc hwaiting => ?_)
    (fun heq => absurd heq hstopped)
  change values c.pair (s.stream ++ [item]) = []
  rw [values_append, h.blocked hblocked c hc hwaiting, List.nil_append]
  simp [values, hitem hblocked c hc hwaiting]

theorem inv_call {s : RaftoralClient} {c : CheckpointCall} (h : s.Inv) (hnew : c.phase = .called)
    (hmade : (values c.pair s.taken).length ≤ s.registered.count c.pair) :
    Inv { s with calls := s.calls ++ [c] } := by
  have hold : ∀ {d : CheckpointCall}, d.phase = .waiting → d ∈ s.calls ++ [c] → d ∈ s.calls := by
    intro d hd hmem
    rcases List.mem_append.mp hmem with hmem | hmem
    · exact hmem
    · rw [List.mem_singleton.mp hmem, hnew] at hd
      cases hd
  refine ⟨fun i d hd => ?_, fun key i hkey => ?_,
    fun p hp => h.answered p fun d hd => hp d (List.mem_append_left _ hd),
    fun hblocked d hd hwaiting => ?_, h.stopped⟩
  · by_cases hi : i < s.calls.length
    · rw [List.getElem?_append_left hi] at hd
      exact (h.calls i d hd).frame (fun _ => rfl) rfl rfl
    · rw [List.getElem?_append_right (not_lt.mp hi)] at hd
      obtain rfl : d = c := List.mem_singleton.mp (List.mem_of_getElem? hd)
      refine ⟨fun hphase => ?_, fun _ => hmade, ?_, fun _ hphase => ?_⟩
      · rw [hnew] at hphase
        cases hphase
      · rw [hnew]
        exact CallPhase.noConfusion
      · rw [hnew] at hphase
        cases hphase
  · obtain ⟨d, hd, hwaiting, hdkey⟩ := h.slot key i hkey
    have hi := (List.getElem?_eq_some_iff.mp hd).1
    exact ⟨d, (List.getElem?_append_left hi).trans hd, hwaiting, hdkey⟩
  · obtain ⟨e, he, hawaited, hewaiting⟩ := hblocked
    exact h.blocked ⟨e, hold hewaiting he, hawaited, hewaiting⟩ d (hold hwaiting hd) hwaiting

/-- A call that has not registered yet changes, and does not wait. -/
theorem Inv.modify {s : RaftoralClient} {i : ℕ} {c : CheckpointCall}
    {f : CheckpointCall → CheckpointCall} {sent : List AppMessage} (h : s.Inv)
    (hc : s.calls[i]? = some c) (hreg : c.Registering) (hphase : (f c).phase ≠ .waiting)
    (hok : s.CallOk i (f c)) : Inv { s with sent, calls := s.calls.modify i f } := by
  have hold : ∀ {d : CheckpointCall}, d.phase = .waiting → d ∈ s.calls.modify i f →
      d ∈ s.calls := by
    intro d hd hmem
    obtain ⟨j, hj⟩ := List.mem_iff_getElem?.mp hmem
    rcases getElem?_modify_cases hj with ⟨-, a, ha, rfl⟩ | ⟨-, hj⟩
    · rw [hc, Option.some.injEq] at ha
      exact absurd hd (ha ▸ hphase)
    · exact List.mem_of_getElem? hj
  refine ⟨fun j d hd => ?_, fun key j hkey => ?_, fun p hp => h.answered p fun d hd hwaiting => ?_,
    fun hblocked d hd hwaiting => ?_, h.stopped⟩
  · rcases getElem?_modify_cases hd with ⟨rfl, a, ha, rfl⟩ | ⟨-, hj⟩
    · rw [hc, Option.some.injEq] at ha
      exact (ha ▸ hok).frame (fun _ => rfl) rfl rfl
    · exact (h.calls j d hj).frame (fun _ => rfl) rfl rfl
  · obtain ⟨d, hd, hwaiting, hdkey⟩ := h.slot key j hkey
    have hne := hreg.ne_of_waiting hc hd hwaiting
    exact ⟨d, (List.getElem?_modify_ne _ _ hne).trans hd, hwaiting, hdkey⟩
  · obtain ⟨j, hj⟩ := List.mem_iff_getElem?.mp hd
    exact hp d (mem_modify_of_ne hj (hreg.ne_of_waiting hc hj hwaiting)) hwaiting
  · obtain ⟨e, he, hawaited, hewaiting⟩ := hblocked
    exact h.blocked ⟨e, hold hewaiting he, hawaited, hewaiting⟩ d (hold hwaiting hd) hwaiting

theorem callOk_fails {s : RaftoralClient} {i : ℕ} {c : CheckpointCall} {e : ClientError}
    (he : e ≠ displacedError) : s.CallOk i (c.returns (.error e)) where
  waiting hp := CallPhase.noConfusion hp
  registering hp := by rcases hp with hp | hp <;> cases hp
  displaced hp := he (Except.error.inj (CallPhase.returned.inj hp))
  own _ hp := by cases CallPhase.returned.inj hp

theorem inv_propose {s : RaftoralClient} {i : ℕ} {c : CheckpointCall}
    {serialized : Except String Bytes} {connected : Bool} (h : s.Inv)
    (hc : s.calls[i]? = some c) (hcalled : c.phase = .called) :
    (s.proposeCheckpoint i c serialized connected).Inv := by
  have hreg : c.Registering := Or.inl hcalled
  have hle := (h.calls i c hc).registering hreg
  unfold proposeCheckpoint
  split
  · exact h.modify hc hreg CallPhase.noConfusion (callOk_fails ClientError.noConfusion)
  · exact h.modify hc hreg CallPhase.noConfusion (callOk_fails ClientError.noConfusion)
  · exact h.modify hc hreg CallPhase.noConfusion
      ⟨fun hp => CallPhase.noConfusion hp, fun _ => hle, CallPhase.noConfusion,
        fun _ hp => CallPhase.noConfusion hp⟩

/-- Calls that wait have different keys. -/
theorem Inv.eq_of_key {s : RaftoralClient} {i j : ℕ} {c d : CheckpointCall} (h : s.Inv)
    (hc : s.calls[i]? = some c) (hcw : c.phase = .waiting) (hd : s.calls[j]? = some d)
    (hdw : d.phase = .waiting) (hkey : d.key = c.key) : j = i := by
  have hi := ((h.calls i c hc).waiting hcw).1
  have hj := ((h.calls j d hd).waiting hdw).1
  rw [hkey, hi, Option.some.injEq] at hj
  exact hj.symm

/-- A call that waits stands under its key. -/
theorem Inv.key_ne {s : RaftoralClient} {j : ℕ} {key : String} {d : CheckpointCall} (h : s.Inv)
    (hfree : s.checkpointWaiters key = none) (hd : s.calls[j]? = some d)
    (hwaiting : d.phase = .waiting) : d.key ≠ key := by
  rintro rfl
  rw [((h.calls j d hd).waiting hwaiting).1] at hfree
  cases hfree

/-- Where no waiter stands, exactly the calls before the next one have registered. -/
theorem Inv.count_eq {s : RaftoralClient} {i : ℕ} {c : CheckpointCall} (h : s.Inv)
    (hc : s.calls[i]? = some c) (hreg : c.Registering) (hfree : s.checkpointWaiters c.key = none) :
    s.registered.count c.pair = (values c.pair s.taken).length := by
  refine le_antisymm (h.answered c.pair fun d hd hwaiting heq => ?_)
    ((h.calls i c hc).registering hreg)
  obtain ⟨j, hj⟩ := List.mem_iff_getElem?.mp hd
  exact h.key_ne hfree hj hwaiting (key_eq_of_pair_eq heq)

/-- A waiter that displaces nobody. -/
theorem waitCheckpoint_of_free {s : RaftoralClient} {c : CheckpointCall} (i : ℕ)
    (hfree : s.checkpointWaiters c.key = none) : s.waitCheckpoint i c = { s with
      checkpointWaiters := Function.update s.checkpointWaiters c.key (some i)
      calls := s.calls.modify i (CheckpointCall.waits (s.registered.count c.pair))
      registered := s.registered ++ [c.pair] } := by
  unfold waitCheckpoint displace
  rw [hfree]

theorem waitCheckpoint_calls {s : RaftoralClient} {c : CheckpointCall} (i : ℕ)
    (hfree : s.checkpointWaiters c.key = none) : (s.waitCheckpoint i c).calls =
      s.calls.modify i (CheckpointCall.waits (s.registered.count c.pair)) := by
  rw [waitCheckpoint_of_free i hfree]

/-- The call itself, once it waits. -/
theorem mem_waitCheckpoint_calls {s : RaftoralClient} {i : ℕ} {c : CheckpointCall}
    (hc : s.calls[i]? = some c) (hfree : s.checkpointWaiters c.key = none) :
    c.waits (s.registered.count c.pair) ∈ (s.waitCheckpoint i c).calls := by
  refine List.mem_of_getElem? (i := i) ?_
  rw [waitCheckpoint_calls i hfree, List.getElem?_modify_eq, hc]
  rfl

theorem callOk_waits {s : RaftoralClient} {i : ℕ} {c : CheckpointCall} (h : s.Inv)
    (hc : s.calls[i]? = some c) (hreg : c.Registering) (hfree : s.checkpointWaiters c.key = none) :
    (s.waitCheckpoint i c).CallOk i (c.waits (s.registered.count c.pair)) where
  waiting _ := by
    refine ⟨Function.update_self .., congrArg some (h.count_eq hc hreg hfree), ?_⟩
    change (s.registered ++ [c.pair]).count c.pair = _
    rw [List.count_append, List.count_singleton_self, h.count_eq hc hreg hfree]
    rfl
  registering hp := by rcases hp with hp | hp <;> cases hp
  displaced := CallPhase.noConfusion
  own _ hp := CallPhase.noConfusion hp

/-- What holds of the others when a call registers where no waiter stands. -/
theorem callOk_waitCheckpoint {s : RaftoralClient} {i j : ℕ} {c d : CheckpointCall} (h : s.Inv)
    (hfree : s.checkpointWaiters c.key = none) (hd : s.calls[j]? = some d) :
    (s.waitCheckpoint i c).CallOk j d where
  waiting hwaiting := by
    have hne := h.key_ne hfree hd hwaiting
    have hpair : ¬ (c.pair == d.pair) := by
      simpa using fun heq => hne (key_eq_of_pair_eq heq).symm
    obtain ⟨hslot, hnumber, hcount⟩ := (h.calls j d hd).waiting hwaiting
    refine ⟨(Function.update_of_ne hne _ _).trans hslot, hnumber, ?_⟩
    change (s.registered ++ [c.pair]).count d.pair = _
    rw [List.count_append, List.count_singleton, hcount, if_neg hpair]
    rfl
  registering hp := by
    refine ((h.calls j d hd).registering hp).trans ?_
    change s.registered.count d.pair ≤ (s.registered ++ [c.pair]).count d.pair
    rw [List.count_append]
    exact Nat.le_add_right _ _
  displaced := (h.calls j d hd).displaced
  own := (h.calls j d hd).own

theorem inv_wait {s : RaftoralClient} {i : ℕ} {c : CheckpointCall} (h : s.Inv)
    (hc : s.calls[i]? = some c) (hreg : c.Registering) (hfree : s.checkpointWaiters c.key = none)
    (hclear : c.awaited ∨ s.Blocked → values c.pair s.stream = [] ∧
      ∀ d ∈ s.calls, d.phase = .waiting → values d.pair s.stream = []) :
    (s.waitCheckpoint i c).Inv := by
  have hcalls := waitCheckpoint_calls i hfree
  -- only this call changes: it waits from now on
  have hcases : ∀ {j d}, (s.waitCheckpoint i c).calls[j]? = some d →
      j = i ∧ d = c.waits (s.registered.count c.pair) ∨ j ≠ i ∧ s.calls[j]? = some d := by
    intro j d hd
    rw [hcalls] at hd
    rcases getElem?_modify_cases hd with ⟨hj, a, ha, rfl⟩ | hd
    · rw [hc, Option.some.injEq] at ha
      exact Or.inl ⟨hj, by rw [ha]⟩
    · exact Or.inr hd
  refine ⟨fun j d hd => ?_, fun key j hkey => ?_, fun p hp => ?_, fun hblocked d hd hwaiting => ?_,
    h.stopped⟩
  · rcases hcases hd with ⟨rfl, rfl⟩ | ⟨-, hd⟩
    · exact callOk_waits h hc hreg hfree
    · exact callOk_waitCheckpoint h hfree hd
  · change Function.update s.checkpointWaiters c.key (some i) key = some j at hkey
    rw [hcalls]
    by_cases heq : key = c.key
    · rw [heq, Function.update_self, Option.some.injEq] at hkey
      rw [← hkey, heq, List.getElem?_modify_eq, hc]
      exact ⟨_, rfl, rfl, rfl⟩
    · rw [Function.update_of_ne heq] at hkey
      obtain ⟨d, hd, hwaiting, hdkey⟩ := h.slot key j hkey
      have hne := hreg.ne_of_waiting hc hd hwaiting
      exact ⟨d, (List.getElem?_modify_ne _ _ hne).trans hd, hwaiting, hdkey⟩
  · have hpair : c.pair ≠ p := hp (c.waits (s.registered.count c.pair))
      (mem_waitCheckpoint_calls hc hfree) rfl
    have hpair' : ¬ (c.pair == p) := by simpa using hpair
    change (s.registered ++ [c.pair]).count p ≤ _
    rw [List.count_append, List.count_singleton, if_neg hpair']
    refine h.answered p fun d hd hwaiting => hp d ?_ hwaiting
    obtain ⟨j, hj⟩ := List.mem_iff_getElem?.mp hd
    rw [hcalls]
    exact mem_modify_of_ne hj (hreg.ne_of_waiting hc hj hwaiting)
  · have hold : ∀ {d : CheckpointCall}, d ∈ (s.waitCheckpoint i c).calls →
        d = c.waits (s.registered.count c.pair) ∨ d ∈ s.calls := by
      intro d hd
      obtain ⟨j, hj⟩ := List.mem_iff_getElem?.mp hd
      exact (hcases hj).imp And.right fun hj => List.mem_of_getElem? hj.2
    -- if the receive task is blocked, it is by this call or was before
    have hwhen : c.awaited ∨ s.Blocked := by
      obtain ⟨e, he, hawaited, hewaiting⟩ := hblocked
      rcases hold he with rfl | he
      · exact Or.inl hawaited
      · exact Or.inr ⟨e, he, hawaited, hewaiting⟩
    rcases hold hd with rfl | hd
    · exact (hclear hwhen).1
    · exact (hclear hwhen).2 d hd hwaiting

/-- The receive task has taken an item. -/
def took (s : RaftoralClient) (item : Option SidecarMessage)
    (rest : List (Option SidecarMessage)) : RaftoralClient :=
  { s with stream := rest, taken := s.taken ++ [item] }

theorem values_stream_took {s : RaftoralClient} {item : Option SidecarMessage}
    {rest : List (Option SidecarMessage)} {p : String × String} (hstream : s.stream = item :: rest)
    (h : values p s.stream = []) : values p rest = [] := by
  rw [hstream, ← List.singleton_append, values_append] at h
  exact (List.append_eq_nil_iff.mp h).2

/-- An item that is no event goes to nobody. -/
theorem inv_take_other {s s' : RaftoralClient} {item : Option SidecarMessage}
    {rest : List (Option SidecarMessage)} (h : s.Inv) (hstream : s.stream = item :: rest)
    (hitem : ∀ p, valueFor p item = none) (hs' : s' = { s.took item rest with
      receiveTask := s'.receiveTask, sent := s'.sent })
    (hrunning : s'.receiveTask ≠ .stopped) : s'.Inv := by
  have htaken : ∀ p, values p (s.taken ++ [item]) = values p s.taken := by
    intro p
    rw [values_append]
    simp [values, hitem]
  rw [hs']
  refine h.frame rfl rfl rfl htaken (fun hblocked c hc hwaiting => ?_)
    (fun heq => absurd heq hrunning)
  exact values_stream_took hstream (h.blocked hblocked c hc hwaiting)

/-- An event is taken that is not for this call. -/
theorem CallOk.event {s s' : RaftoralClient} {i : ℕ} {c : CheckpointCall}
    {workflowId name : String} {value : Bytes} (h : s.CallOk i c)
    (htaken : s'.taken = s.taken ++ [some (.checkpointEvent workflowId name value)])
    (hregistered : s'.registered = s.registered)
    (hwaiting : c.phase = .waiting →
      (workflowId, name) ≠ c.pair ∧ s'.checkpointWaiters c.key = s.checkpointWaiters c.key)
    (hreg : c.Registering → (workflowId, name) = c.pair →
      (values c.pair s.taken).length < s.registered.count c.pair) : s'.CallOk i c where
  waiting hw := by
    obtain ⟨hne, hslot⟩ := hwaiting hw
    rw [hslot, htaken, hregistered, values_append_event, if_neg hne, List.append_nil]
    exact h.waiting hw
  registering hr := by
    rw [htaken, hregistered, values_append_event]
    by_cases heq : (workflowId, name) = c.pair
    · rw [if_pos heq, List.length_append]
      exact hreg hr heq
    · rw [if_neg heq, List.append_nil]
      exact h.registering hr
  displaced := h.displaced
  own v hv := by
    obtain ⟨k, hk, hvalue⟩ := h.own v hv
    refine ⟨k, hk, ?_⟩
    rw [htaken, values_append, List.getElem?_append_left (List.getElem?_eq_some_iff.mp hvalue).1]
    exact hvalue

/-- An event that finds no waiter, on a pair on which no call is about to register. -/
theorem inv_take_unheard {s : RaftoralClient} {workflowId name : String} {value : Bytes}
    {rest : List (Option SidecarMessage)} (h : s.Inv)
    (hstream : s.stream = some (.checkpointEvent workflowId name value) :: rest)
    (hrunning : s.receiveTask ≠ .stopped)
    (hnone : s.checkpointWaiters (waiterKey workflowId name) = none)
    (hnobody : ∀ c ∈ s.calls, c.Registering → c.pair ≠ (workflowId, name)) :
    (s.took (some (.checkpointEvent workflowId name value)) rest).Inv := by
  refine ⟨fun i c hc => ?_, h.slot, fun q hq => ?_, fun hblocked c hc hwaiting => ?_,
    fun heq => absurd heq hrunning⟩
  · refine (h.calls i c hc).event rfl rfl (fun hwaiting => ⟨fun heq => ?_, rfl⟩) fun hreg heq => ?_
    · obtain ⟨rfl, rfl⟩ := Prod.mk.inj heq
      exact h.key_ne hnone hc hwaiting rfl
    · exact absurd heq.symm (hnobody c (List.mem_of_getElem? hc) hreg)
  · refine (h.answered q hq).trans ?_
    change (values q s.taken).length ≤ (values q (s.taken ++ [_])).length
    rw [values_append, List.length_append]
    exact Nat.le_add_right _ _
  · exact values_stream_took hstream (h.blocked hblocked c hc hwaiting)

/-- The call that an event on its own pair finds is given its own event. -/
theorem CallOk.answered {s s' : RaftoralClient} {i : ℕ} {c : CheckpointCall} {value : Bytes}
    (h : s.CallOk i c) (hwaiting : c.phase = .waiting)
    (htaken : s'.taken = s.taken ++ [some (.checkpointEvent c.workflowId c.name value)]) :
    s'.CallOk i (c.returns (.ok value)) where
  waiting hp := CallPhase.noConfusion hp
  registering hp := by rcases hp with hp | hp <;> cases hp
  displaced hp := by cases CallPhase.returned.inj hp
  own v hv := by
    cases CallPhase.returned.inj hv
    refine ⟨_, (h.waiting hwaiting).2.1, ?_⟩
    change (values c.pair s'.taken)[_]? = _
    rw [htaken, values_append_event]
    change (values c.pair s.taken ++ if c.pair = c.pair then [value] else [])[_]? = _
    rw [if_pos rfl, List.getElem?_concat_length]

/-- An event that finds the waiter of a call on its own pair. -/
theorem inv_take_heard {s : RaftoralClient} {i : ℕ} {c : CheckpointCall} {value : Bytes}
    {rest : List (Option SidecarMessage)} (h : s.Inv)
    (hstream : s.stream = some (.checkpointEvent c.workflowId c.name value) :: rest)
    (hrunning : s.receiveTask ≠ .stopped) (hc : s.calls[i]? = some c)
    (hwaiting : c.phase = .waiting) :
    Inv { s.took (some (.checkpointEvent c.workflowId c.name value)) rest with
      checkpointWaiters := Function.update s.checkpointWaiters c.key none
      calls := s.calls.modify i (CheckpointCall.returns (.ok value)) } := by
  obtain ⟨-, -, hcount⟩ := (h.calls i c hc).waiting hwaiting
  -- the other calls that wait did so before
  have hold : ∀ {d : CheckpointCall}, d.phase = .waiting →
      d ∈ s.calls.modify i (CheckpointCall.returns (.ok value)) →
      ∃ j, j ≠ i ∧ s.calls[j]? = some d := by
    intro d hd hmem
    obtain ⟨j, hj⟩ := List.mem_iff_getElem?.mp hmem
    rcases getElem?_modify_cases hj with ⟨-, a, -, rfl⟩ | hj
    · cases hd
    · exact ⟨j, hj⟩
  refine ⟨fun j d hd => ?_, fun key j hkey => ?_, fun q hq => ?_,
    fun hblocked d hd hdwaiting => ?_, fun heq => absurd heq hrunning⟩
  · rcases getElem?_modify_cases hd with ⟨rfl, a, ha, rfl⟩ | ⟨hne, hd⟩
    · rw [hc, Option.some.injEq] at ha
      subst ha
      exact (h.calls j c hc).answered hwaiting rfl
    · refine (h.calls j d hd).event rfl rfl (fun hdwaiting => ?_) fun hreg heq => ?_
      -- two calls that wait have two keys
      · have hkey : d.key ≠ c.key := fun heq => hne (h.eq_of_key hc hwaiting hd hdwaiting heq)
        exact ⟨fun heq => hkey (key_eq_of_pair_eq heq).symm, Function.update_of_ne hkey _ _⟩
      · rw [← heq]
        exact Nat.lt_of_lt_of_eq (Nat.lt_succ_self _) hcount.symm
  · change Function.update s.checkpointWaiters c.key none key = some j at hkey
    by_cases heq : key = c.key
    · rw [heq, Function.update_self] at hkey
      cases hkey
    · rw [Function.update_of_ne heq] at hkey
      obtain ⟨d, hd, hdwaiting, hdkey⟩ := h.slot key j hkey
      refine ⟨d, (List.getElem?_modify_ne _ _ fun hij => heq ?_).trans hd, hdwaiting, hdkey⟩
      rw [← hij, hc, Option.some.injEq] at hd
      rw [← hdkey, ← hd]
  · change s.registered.count q ≤ (values q (s.taken ++ [_])).length
    rw [values_append_event]
    change s.registered.count q ≤ (values q s.taken ++ if c.pair = q then [value] else []).length
    by_cases heq : c.pair = q
    · rw [if_pos heq, List.length_append, ← heq, hcount]
      rfl
    · rw [if_neg heq, List.append_nil]
      refine h.answered q fun d hd hdwaiting => ?_
      obtain ⟨j, hj⟩ := List.mem_iff_getElem?.mp hd
      by_cases hij : i = j
      · rw [← hij, hc, Option.some.injEq] at hj
        exact hj ▸ heq
      · exact hq d (mem_modify_of_ne hj hij) hdwaiting
  · obtain ⟨e, he, hawaited, hewaiting⟩ := hblocked
    obtain ⟨j, -, hj⟩ := hold hewaiting he
    obtain ⟨k, -, hk⟩ := hold hdwaiting hd
    exact values_stream_took hstream (h.blocked ⟨e, List.mem_of_getElem? hj, hawaited, hewaiting⟩ d
      (List.mem_of_getElem? hk) hdwaiting)

theorem handle_event_of_waiter {s : RaftoralClient} {i : ℕ} {workflowId name : String}
    (value : Bytes) (h : s.checkpointWaiters (waiterKey workflowId name) = some i) :
    s.handle (some (.checkpointEvent workflowId name value)) = { s with
      checkpointWaiters := Function.update s.checkpointWaiters (waiterKey workflowId name) none
      calls := s.calls.modify i (CheckpointCall.returns (.ok value)) } := by
  unfold handle handleCheckpointEvent
  dsimp only
  rw [h]

theorem handle_event_of_none {s : RaftoralClient} {workflowId name : String}
    (value : Bytes) (h : s.checkpointWaiters (waiterKey workflowId name) = none) :
    s.handle (some (.checkpointEvent workflowId name value)) = s := by
  unfold handle handleCheckpointEvent
  dsimp only
  rw [h]

theorem inv_take {s : RaftoralClient} {item : Option SidecarMessage}
    {rest : List (Option SidecarMessage)} (h : s.Inv) (hstream : s.stream = item :: rest)
    (hidle : s.receiveTask = .idle) (hexpected : s.Expected item) :
    ((s.took item rest).handle item).Inv := by
  have hrunning : s.receiveTask ≠ .stopped := by simp [hidle]
  cases item with
  | none => exact inv_take_other h hstream (fun _ => rfl) rfl hrunning
  | some message =>
    cases message with
    | executeWorkflow workflowId workflowName version input isOwner =>
      unfold handle handleExecuteWorkflow
      dsimp only
      split
      · exact inv_take_other h hstream (fun _ => rfl) rfl (by simp)
      · exact inv_take_other h hstream (fun _ => rfl) rfl hrunning
    | workflowCancellation workflowId reason =>
      exact inv_take_other h hstream (fun _ => rfl) rfl hrunning
    | heartbeatResponse timestamp =>
      exact inv_take_other h hstream (fun _ => rfl) rfl hrunning
    | checkpointEvent workflowId name value =>
      obtain ⟨hpair, hnobody⟩ := hexpected
      rcases hwaiter : s.checkpointWaiters (waiterKey workflowId name) with _ | i
      · rw [handle_event_of_none (s := s.took _ rest) value hwaiter]
        exact inv_take_unheard h hstream hrunning hwaiter (hnobody hwaiter)
      · obtain ⟨c, hc, hwaiting, hkey⟩ := h.slot _ i hwaiter
        obtain ⟨rfl, rfl⟩ := Prod.mk.inj (hpair i hwaiter c hc)
        rw [handle_event_of_waiter (s := s.took _ rest) value hwaiter]
        exact inv_take_heard h hstream hrunning hc hwaiting

/-- A step in time keeps the invariant. -/
theorem inv_step {s s' : RaftoralClient} {op : ClientOp} (h : s.Inv) (htime : s.InTime op)
    (hstep : s.step op = some s') : s'.Inv := by
  cases op with
  | registerHandler name version =>
    cases hstep
    exact h.frame rfl rfl rfl (fun _ => rfl) h.blocked h.stopped
  | arrive item =>
    rw [step] at hstep
    split at hstep
    next => cases hstep
    next hstopped =>
      cases hstep
      exact inv_arrive h hstopped htime
  | take =>
    rw [step] at hstep
    split at hstep
    next item rest hidle hstream =>
      cases hstep
      -- what is taken was expected
      exact inv_take h hstream hidle (htime item (by rw [hstream]; rfl))
    next => cases hstep
  | close =>
    rw [step] at hstep
    split at hstep
    next hclose =>
      cases hstep
      exact h.frame rfl rfl rfl (fun _ => rfl) h.blocked fun _ => hclose.2
    next => cases hstep
  | handlerReturns result =>
    rw [step] at hstep
    split at hstep
    next =>
      split at hstep
      next =>
        cases hstep
        exact h.frame rfl rfl rfl (fun _ => rfl) h.blocked fun hp => by cases hp
      next => cases hstep
    next => cases hstep
    next => cases hstep
  | call workflowId name isOwner awaited =>
    rw [step] at hstep
    split at hstep
    next =>
      cases hstep
      exact inv_call h rfl htime
    next => cases hstep
  | propose i serialized connected =>
    rw [step] at hstep
    split at hstep
    next c hc =>
      split at hstep
      next hcalled =>
        cases hstep
        exact inv_propose h hc hcalled.2
      next => cases hstep
    next => cases hstep
  | wait i =>
    rw [step] at hstep
    split at hstep
    next c hc =>
      split at hstep
      next hphase =>
        cases hstep
        obtain ⟨hfree, hclear⟩ := htime c hc
        exact inv_wait h hc (registering_of_phase hphase) hfree hclear
      next => cases hstep
    next => cases hstep

end RaftoralClient

end Raftoral

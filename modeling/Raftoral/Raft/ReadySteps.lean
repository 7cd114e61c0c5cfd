import Raftoral.Raft.Node

/-!
# The statements of `on_ready`

One specification for each statement of `on_ready`: what it changes, what it leaves alone,
and when it fails. What a list of committed entries does is named by functions of the list
alone (`replay`, `lastCommandIndex`, `peersAfter`), and what the storage is asked to do by
functions of the storage alone (`restoreStore`, `appendReady`, `hardStateReady`,
`commitReady`).
-/

namespace Raftoral

variable {σ Command Event S : Type}

/-- An entry that carries a command. -/
def Entry.isCommand (e : Entry) : Bool := !e.data.isEmpty && e.entryType == .entryNormal

/-- An entry that carries a configuration change. -/
def Entry.isConfChange (e : Entry) : Bool := !e.data.isEmpty && e.entryType != .entryNormal

/-- The effects of applying committed entries and of watching followers. -/
def Effect.IsApply : Effect Event S → Prop
  | .publish _ | .complete _ _ | .applied _ => True
  | _ => False

/-- A storage operation failed. -/
def Effect.IsFault : Effect Event S → Prop
  | .storageFailed _ => True
  | _ => False

/-- The effects of sending and advancing. -/
def Effect.IsAdvancing : Effect Event S → Prop
  | .send _ | .advanceAppend | .advanceApply | .publish _ | .complete _ _ | .applied _
  | .storageFailed _ => True
  | _ => False

namespace RaftNode

/-! ## Traces -/

/-- Append to the trace. -/
def emitAll (n : RaftNode σ Event S) (δ : List (Effect Event S)) : RaftNode σ Event S :=
  { n with trace := n.trace ++ δ }

/-- The trace grew by effects of a kind. -/
def Extends (p : Effect Event S → Prop) (n n' : RaftNode σ Event S) : Prop :=
  ∃ δ, n'.trace = n.trace ++ δ ∧ ∀ e ∈ δ, p e

theorem Extends.refl {p : Effect Event S → Prop} (n : RaftNode σ Event S) : Extends p n n :=
  ⟨[], by simp, by simp⟩

theorem Extends.trans {p : Effect Event S → Prop} {n₁ n₂ n₃ : RaftNode σ Event S}
    (h₁ : Extends p n₁ n₂) (h₂ : Extends p n₂ n₃) : Extends p n₁ n₃ := by
  obtain ⟨δ₁, e₁, p₁⟩ := h₁
  obtain ⟨δ₂, e₂, p₂⟩ := h₂
  refine ⟨δ₁ ++ δ₂, by rw [e₂, e₁, List.append_assoc], ?_⟩
  intro e he
  rcases List.mem_append.mp he with h | h
  · exact p₁ e h
  · exact p₂ e h

theorem extends_emit {p : Effect Event S → Prop} {n : RaftNode σ Event S} {e : Effect Event S}
    (h : p e) : Extends p n (n.emit e) :=
  ⟨[e], rfl, by simpa using h⟩

theorem Extends.of_trace_eq {p : Effect Event S → Prop} {n n' : RaftNode σ Event S}
    (h : n'.trace = n.trace) : Extends p n n' := ⟨[], by simp [h], by simp⟩

theorem Extends.imp {p q : Effect Event S → Prop} {n n' : RaftNode σ Event S}
    (h : Extends p n n') (hpq : ∀ e, p e → q e) : Extends q n n' := by
  obtain ⟨δ, hδ, hp⟩ := h
  exact ⟨δ, hδ, fun e he => hpq e (hp e he)⟩

/-- A view of the trace that ignores the new effects is unchanged. -/
theorem Extends.filterMap_eq {p : Effect Event S → Prop} {β : Type} {f : Effect Event S → Option β}
    {n n' : RaftNode σ Event S} (h : Extends p n n') (hf : ∀ e, p e → f e = none) :
    n'.trace.filterMap f = n.trace.filterMap f := by
  obtain ⟨δ, hδ, hp⟩ := h
  have hnil : δ.filterMap f = [] := by
    rw [List.filterMap_eq_nil_iff]
    intro e he
    exact hf e (hp e he)
  rw [hδ, List.filterMap_append, hnil, List.append_nil]

/-! ## Applying committed entries -/

/-- What applying entries leaves alone. -/
structure ApplyFrame (n n' : RaftNode σ Event S) : Prop where
  nodeId : n'.nodeId = n.nodeId
  store : n'.store = n.store
  currentRole : n'.currentRole = n.currentRole
  snapshotInterval : n'.snapshotInterval = n.snapshotInterval
  lastSnapshotIndex : n'.lastSnapshotIndex = n.lastSnapshotIndex
  trace : Extends Effect.IsApply n n'

theorem ApplyFrame.refl (n : RaftNode σ Event S) : ApplyFrame n n :=
  ⟨rfl, rfl, rfl, rfl, rfl, Extends.refl n⟩

theorem ApplyFrame.trans {n₁ n₂ n₃ : RaftNode σ Event S} (h₁ : ApplyFrame n₁ n₂)
    (h₂ : ApplyFrame n₂ n₃) : ApplyFrame n₁ n₃ where
  nodeId := h₂.nodeId.trans h₁.nodeId
  store := h₂.store.trans h₁.store
  currentRole := h₂.currentRole.trans h₁.currentRole
  snapshotInterval := h₂.snapshotInterval.trans h₁.snapshotInterval
  lastSnapshotIndex := h₂.lastSnapshotIndex.trans h₁.lastSnapshotIndex
  trace := h₁.trace.trans h₂.trace

/-- The entries a trace has applied. -/
def appliedEntries (τ : List (Effect Event S)) : List Entry :=
  τ.filterMap fun
    | .applied e => some e
    | _ => none

/-- Telling the outside what happened changes nothing the node computes with. -/
structure Notifies (n n' : RaftNode σ Event S) : Prop where
  frame : ApplyFrame n n'
  stateMachine : n'.stateMachine = n.stateMachine
  committedIndex : n'.committedIndex = n.committedIndex
  peers : n'.peers = n.peers
  applied : appliedEntries n'.trace = appliedEntries n.trace

theorem Notifies.refl (n : RaftNode σ Event S) : Notifies n n :=
  ⟨ApplyFrame.refl n, rfl, rfl, rfl, rfl⟩

theorem Notifies.trans {n₁ n₂ n₃ : RaftNode σ Event S} (h₁ : Notifies n₁ n₂)
    (h₂ : Notifies n₂ n₃) : Notifies n₁ n₃ where
  frame := h₁.frame.trans h₂.frame
  stateMachine := h₂.stateMachine.trans h₁.stateMachine
  committedIndex := h₂.committedIndex.trans h₁.committedIndex
  peers := h₂.peers.trans h₁.peers
  applied := h₂.applied.trans h₁.applied

theorem publishBatch_notifies (events : List Event) (n : RaftNode σ Event S) :
    Notifies n (n.publishBatch events) := by
  unfold publishBatch
  split
  · exact Notifies.refl n
  · exact ⟨⟨rfl, rfl, rfl, rfl, rfl, extends_emit trivial⟩, rfl, rfl, rfl,
      by simp [appliedEntries, emit]⟩

theorem publishResult_notifies (result : Except String (List Event)) (n : RaftNode σ Event S) :
    Notifies n (n.publishResult result) := by
  cases result with
  | error e => exact Notifies.refl n
  | ok events => exact publishBatch_notifies events n

theorem completeProposal_notifies (syncId : Option ℕ) (result : Except String Unit)
    (n : RaftNode σ Event S) : Notifies n (n.completeProposal syncId result) := by
  unfold completeProposal
  cases syncId with
  | none => exact Notifies.refl n
  | some id =>
    by_cases hid : n.pendingProposals id
    · simp only [hid, if_true]
      exact ⟨⟨rfl, rfl, rfl, rfl, rfl, ⟨[.complete id result], rfl, by simp [Effect.IsApply]⟩⟩,
        rfl, rfl, rfl, by simp [appliedEntries, emit]⟩
    · simp only [hid]
      exact Notifies.refl n

/-- The index of the last command of a list, or the one before it. -/
def lastCommandIndex (es : List Entry) (index : ℕ) : ℕ :=
  es.foldl (fun i e => if e.isCommand then e.index else i) index

section
variable [StateMachine σ Command Event] [SerdeJson Command]

/-- The state the commands of a list of entries lead to. -/
def replay (sm : σ) (es : List Entry) : σ :=
  es.foldl (fun sm e => if e.isCommand then (applyCommand sm e.data).2 else sm) sm

end

section
variable [ProstMessage ConfChange] [SerdeJson NodeMetadata]

/-- The configuration change of the entry can be read, and raft-rs accepts it. -/
def Accepted (io : ReadyIo) (e : Entry) : Prop :=
  e.isConfChange → ∃ cc cs, (ProstMessage.decode e.data : Except String ConfChange) = .ok cc ∧
    io.applyConfChange e = .ok cs

/-- The peers after the configuration changes of a list of entries. -/
def peersAfter (es : List Entry) (peers : Peers) : Peers :=
  es.foldl (fun peers e =>
    if e.isConfChange then
      match (ProstMessage.decode e.data : Except String ConfChange) with
      | .ok cc => (confChangePeers cc peers).2
      | .error _ => peers
    else peers) peers

variable [StateMachine σ Command Event] [SerdeJson Command]

/-- The state after a list of committed entries was applied. -/
structure AfterApply (es : List Entry) (n n' : RaftNode σ Event S) : Prop where
  frame : ApplyFrame n n'
  stateMachine : n'.stateMachine = replay n.stateMachine es
  committedIndex : n'.committedIndex = lastCommandIndex es n.committedIndex
  peers : n'.peers = peersAfter es n.peers
  applied : appliedEntries n'.trace = appliedEntries n.trace ++ es.filter Entry.isCommand

theorem AfterApply.nil (n : RaftNode σ Event S) : AfterApply [] n n :=
  ⟨ApplyFrame.refl n, rfl, rfl, rfl, by simp⟩

theorem AfterApply.append {es fs : List Entry} {n₁ n₂ n₃ : RaftNode σ Event S}
    (h₁ : AfterApply es n₁ n₂) (h₂ : AfterApply fs n₂ n₃) : AfterApply (es ++ fs) n₁ n₃ where
  frame := h₁.frame.trans h₂.frame
  stateMachine := by rw [h₂.stateMachine, h₁.stateMachine, replay, replay, replay, List.foldl_append]
  committedIndex := by
    rw [h₂.committedIndex, h₁.committedIndex, lastCommandIndex, lastCommandIndex,
      lastCommandIndex, List.foldl_append]
  peers := by rw [h₂.peers, h₁.peers, peersAfter, peersAfter, peersAfter, List.foldl_append]
  applied := by rw [h₂.applied, h₁.applied, List.filter_append, List.append_assoc]

theorem applyNormal_after {e : Entry} (he : e.isCommand) (n : RaftNode σ Event S) :
    AfterApply [e] n (n.applyNormal e) := by
  have hcc : ¬ e.isConfChange := by simp_all [Entry.isCommand, Entry.isConfChange]
  rcases hr : applyCommand n.stateMachine e.data with ⟨result, sm'⟩
  have hn : n.applyNormal e = (({ n with stateMachine := sm' }.publishResult result).completeProposal
      (entrySyncId e.context) (result.map fun _ => ())).markApplied e := by
    unfold applyNormal
    rw [hr]
  -- telling the subscribers and the proposer changes nothing that is replicated
  have htell := (publishResult_notifies result { n with stateMachine := sm' }).trans
    (completeProposal_notifies (entrySyncId e.context) (result.map fun _ => ()) _)
  have hmark : ∀ m : RaftNode σ Event S, ApplyFrame m (m.markApplied e) := fun m =>
    ⟨rfl, rfl, rfl, rfl, rfl, ⟨[.applied e], rfl, by simp [Effect.IsApply]⟩⟩
  rw [hn]
  refine ⟨?_, ?_, ?_, ?_, ?_⟩
  · have hset : ApplyFrame n { n with stateMachine := sm' } :=
      ⟨rfl, rfl, rfl, rfl, rfl, Extends.of_trace_eq rfl⟩
    exact (hset.trans htell.frame).trans (hmark _)
  · simp only [replay, List.foldl_cons, List.foldl_nil, he, if_true, hr]
    exact htell.stateMachine
  · simp [lastCommandIndex, he, markApplied, emit]
  · simp only [peersAfter, List.foldl_cons, List.foldl_nil, hcc]
    exact htell.peers
  · have happ := htell.applied
    simp only [appliedEntries, markApplied, emit, List.filterMap_append, List.filter_cons, he,
      if_true] at happ ⊢
    rw [happ]
    rfl

theorem applyConfChange_after {io : ReadyIo} {e : Entry} (he : e.isConfChange)
    (hacc : Accepted io e) (n : RaftNode σ Event S) :
    ∃ n', applyConfChange io e n = (.next, n') ∧ AfterApply [e] n n' := by
  have hcmd : ¬ e.isCommand := by simp_all [Entry.isCommand, Entry.isConfChange]
  obtain ⟨cc, cs, hcc, hcs⟩ := hacc he
  refine ⟨_, by rw [applyConfChange, hcc]; simp only [hcs]; rfl, ?_⟩
  have htell := completeProposal_notifies (confChangeSyncId cc.context).1
    (confChangePeers cc n.peers).1
    { n with cachedConfState := cs, peers := (confChangePeers cc n.peers).2 }
  have hset : ApplyFrame n
      { n with cachedConfState := cs, peers := (confChangePeers cc n.peers).2 } :=
    ⟨rfl, rfl, rfl, rfl, rfl, Extends.of_trace_eq rfl⟩
  refine ⟨hset.trans htell.frame, ?_, ?_, ?_, ?_⟩
  · simp only [replay, List.foldl_cons, List.foldl_nil, hcmd]
    exact htell.stateMachine
  · simp only [lastCommandIndex, List.foldl_cons, List.foldl_nil, hcmd]
    exact htell.committedIndex
  · simp only [peersAfter, List.foldl_cons, List.foldl_nil, he, if_true, hcc]
    exact htell.peers
  · simp only [List.filter_cons, hcmd, List.filter_nil]
    rw [htell.applied]
    simp

theorem applyEntry_after {io : ReadyIo} {e : Entry} (hacc : Accepted io e)
    (n : RaftNode σ Event S) : ∃ n', applyEntry io e n = (.next, n') ∧ AfterApply [e] n n' := by
  unfold applyEntry
  by_cases hd : e.data.isEmpty
  · have hcmd : e.isCommand = false := by rw [Entry.isCommand, hd]; rfl
    have hcc : e.isConfChange = false := by rw [Entry.isConfChange, hd]; rfl
    refine ⟨n, by simp [hd, Step.skip], ApplyFrame.refl n, ?_, ?_, ?_, ?_⟩
    · simp [replay, hcmd]
    · simp [lastCommandIndex, hcmd]
    · simp [peersAfter, hcc]
    · simp [hcmd]
  · cases ht : e.entryType with
    | entryNormal =>
      have he : e.isCommand := by simp [Entry.isCommand, hd, ht]
      exact ⟨n.applyNormal e, by simp [hd, Step.modify], applyNormal_after he n⟩
    | entryConfChange | entryConfChangeV2 =>
      have he : e.isConfChange := by simp [Entry.isConfChange, hd, ht]
      simpa [hd] using applyConfChange_after he hacc n

/-- An entry whose configuration change cannot be read or is refused ends the call. -/
theorem applyEntry_of_not_accepted {io : ReadyIo} {e : Entry} (hacc : ¬ Accepted io e)
    (n : RaftNode σ Event S) : ∃ err, applyEntry io e n = (.failed err, n) := by
  simp only [Accepted, Classical.not_imp, not_exists, not_and] at hacc
  obtain ⟨he, hno⟩ := hacc
  have hd : ¬ e.data.isEmpty := by simp_all [Entry.isConfChange]
  have hfail : ∃ err, applyConfChange io e n = (.failed err, n) := by
    unfold applyConfChange
    cases hcc : (ProstMessage.decode e.data : Except String ConfChange) with
    | error err => exact ⟨_, rfl⟩
    | ok cc =>
      cases hcs : io.applyConfChange e with
      | error err => exact ⟨_, rfl⟩
      | ok cs => exact absurd hcs (hno cc cs hcc)
  unfold applyEntry
  cases ht : e.entryType with
  | entryNormal => exact absurd he (by simp [Entry.isConfChange, ht])
  | entryConfChange | entryConfChangeV2 => simpa [hd] using hfail

theorem applyCommitted_after {io : ReadyIo} {es : List Entry} (hacc : ∀ e ∈ es, Accepted io e)
    (n : RaftNode σ Event S) :
    ∃ n', applyCommitted io es n = (.next, n') ∧ AfterApply es n n' := by
  induction es generalizing n with
  | nil => exact ⟨n, rfl, AfterApply.nil n⟩
  | cons e es ih =>
    obtain ⟨n₁, h₁, ha₁⟩ := applyEntry_after (hacc e List.mem_cons_self) n
    obtain ⟨n₂, h₂, ha₂⟩ := ih (fun x hx => hacc x (List.mem_cons_of_mem e hx)) n₁
    refine ⟨n₂, ?_, ha₁.append ha₂⟩
    rw [applyCommitted, Step.forEach_cons_of_next h₁]
    exact h₂

theorem applyCommitted_of_not_accepted {io : ReadyIo} {es : List Entry}
    (hacc : ¬ ∀ e ∈ es, Accepted io e) (n : RaftNode σ Event S) :
    ∃ err n', applyCommitted io es n = (.failed err, n') ∧ ApplyFrame n n' := by
  induction es generalizing n with
  | nil => exact absurd (by simp) hacc
  | cons e es ih =>
    by_cases he : Accepted io e
    · obtain ⟨n₁, h₁, ha₁⟩ := applyEntry_after he n
      have hes : ¬ ∀ x ∈ es, Accepted io x := by
        intro h
        exact hacc fun x hx => by
          rcases List.mem_cons.mp hx with rfl | hx
          · exact he
          · exact h x hx
      obtain ⟨err, n₂, h₂, hf₂⟩ := ih hes n₁
      refine ⟨err, n₂, ?_, ha₁.frame.trans hf₂⟩
      rw [applyCommitted, Step.forEach_cons_of_next h₁]
      exact h₂
    · obtain ⟨err, herr⟩ := applyEntry_of_not_accepted he n
      refine ⟨err, n, ?_, ApplyFrame.refl n⟩
      rw [applyCommitted, Step.forEach, List.map_cons, Step.block_cons_of_failed herr]

theorem accepted_of_applyCommitted_next {io : ReadyIo} {es : List Entry}
    {n n' : RaftNode σ Event S} (h : applyCommitted io es n = (.next, n')) :
    ∀ e ∈ es, Accepted io e := by
  by_contra hacc
  obtain ⟨err, n₁, h₁, -⟩ := applyCommitted_of_not_accepted hacc n
  rw [h₁] at h
  exact absurd h (by simp)

theorem applyCommitted_advancing (io : ReadyIo) (es : List Entry) (n : RaftNode σ Event S) :
    (applyCommitted io es n).1 ≠ .returned ∧
      Extends Effect.IsAdvancing n (applyCommitted io es n).2 := by
  have himp : ∀ e : Effect Event S, Effect.IsApply e → Effect.IsAdvancing e := by
    intro e he
    cases e <;> trivial
  by_cases h : ∀ e ∈ es, Accepted io e
  · obtain ⟨n', hn', ha⟩ := applyCommitted_after h n
    rw [hn']
    exact ⟨by simp, ha.frame.trace.imp himp⟩
  · obtain ⟨err, n', hn', hf⟩ := applyCommitted_of_not_accepted h n
    rw [hn']
    exact ⟨by simp, hf.trace.imp himp⟩

end

/-! ## Sending -/

/-- The effects of sending. -/
def Effect.IsSend : Effect Event S → Prop
  | .send _ => True
  | _ => False

/-- Every message has a registered addressee that takes it. -/
def Deliverable (answers : SendAnswers) (peers : Peers) (msgs : List Message) : Prop :=
  ∀ m ∈ msgs.zipIdx, (peers m.1.target).isSome ∧ answers m.2 = .ok ()

theorem sendRaftMessage_ok {answer : Except TransportError Unit} {msg : Message}
    {n : RaftNode σ Event S} (h : (n.peers msg.target).isSome ∧ answer = .ok ()) :
    sendRaftMessage answer msg n = (.next, n.emit (.send msg)) := by
  obtain ⟨addr, haddr⟩ := Option.isSome_iff_exists.mp h.1
  simp [sendRaftMessage, TransportLayer.sendMessage, haddr, h.2]

theorem sendRaftMessage_failed {answer : Except TransportError Unit} {msg : Message}
    {n : RaftNode σ Event S} (h : ¬ ((n.peers msg.target).isSome ∧ answer = .ok ())) :
    ∃ err, sendRaftMessage answer msg n = (.failed err, n.emit (.send msg)) := by
  unfold sendRaftMessage TransportLayer.sendMessage
  cases haddr : n.peers msg.target with
  | none => exact ⟨_, rfl⟩
  | some addr =>
    cases ha : answer with
    | error e => exact ⟨_, rfl⟩
    | ok u => exact absurd ⟨by rw [haddr]; rfl, by rw [ha]⟩ h

/-- The loop over numbered messages. -/
theorem forEach_send_next {answers : SendAnswers} {ms : List (Message × ℕ)}
    {n : RaftNode σ Event S}
    (h : ∀ m ∈ ms, (n.peers m.1.target).isSome ∧ answers m.2 = .ok ()) :
    Step.forEach ms (fun m => sendRaftMessage (answers m.2) m.1) n =
      (.next, n.emitAll (ms.map fun m => Effect.send m.1)) := by
  induction ms generalizing n with
  | nil => simp [emitAll]
  | cons m ms ih =>
    have hm : sendRaftMessage (answers m.2) m.1 n = (.next, n.emit (.send m.1)) :=
      sendRaftMessage_ok (h m List.mem_cons_self)
    have hrest := ih (n := n.emit (.send m.1)) fun x hx => h x (List.mem_cons_of_mem m hx)
    rw [Step.forEach, List.map_cons, Step.block_cons_of_next hm]
    rw [Step.forEach] at hrest
    rw [hrest]
    simp [emit, emitAll]

theorem forEach_send_failed {answers : SendAnswers} {ms : List (Message × ℕ)}
    {n : RaftNode σ Event S}
    (h : ¬ ∀ m ∈ ms, (n.peers m.1.target).isSome ∧ answers m.2 = .ok ()) :
    ∃ err δ, Step.forEach ms (fun m => sendRaftMessage (answers m.2) m.1) n =
      (.failed err, n.emitAll δ) ∧ ∀ e ∈ δ, Effect.IsSend e := by
  induction ms generalizing n with
  | nil => exact absurd (by simp) h
  | cons m ms ih =>
    by_cases hm : (n.peers m.1.target).isSome ∧ answers m.2 = .ok ()
    · have hms : ¬ ∀ x ∈ ms, ((n.emit (.send m.1)).peers x.1.target).isSome ∧
          answers x.2 = .ok () := by
        intro hall
        exact h fun x hx => by
          rcases List.mem_cons.mp hx with rfl | hx
          · exact hm
          · exact hall x hx
      -- the first message goes out, a later one is refused
      obtain ⟨err, δ, hδ, hsend⟩ := ih hms
      have hnext : sendRaftMessage (answers m.2) m.1 n = (.next, n.emit (.send m.1)) :=
        sendRaftMessage_ok hm
      refine ⟨err, .send m.1 :: δ, ?_, ?_⟩
      · rw [Step.forEach, List.map_cons, Step.block_cons_of_next hnext]
        rw [Step.forEach] at hδ
        rw [hδ]
        simp [emit, emitAll]
      · intro e he
        rcases List.mem_cons.mp he with rfl | he
        · trivial
        · exact hsend e he
    · obtain ⟨err, herr⟩ := sendRaftMessage_failed hm
      refine ⟨err, [.send m.1], ?_, by simp [Effect.IsSend]⟩
      rw [Step.forEach, List.map_cons, Step.block_cons_of_failed herr]
      rfl

/-- Messages that all find their addressee are sent in order, and nothing else happens. -/
theorem sendAll_next {answers : SendAnswers} {msgs : List Message} {n : RaftNode σ Event S}
    (h : Deliverable answers n.peers msgs) :
    sendAll answers msgs n = (.next, n.emitAll (msgs.map Effect.send)) := by
  have hmap : (msgs.zipIdx.map fun m => (Effect.send m.1 : Effect Event S)) =
      msgs.map Effect.send := by
    conv_rhs => rw [← List.zipIdx_map_fst 0 msgs, List.map_map]
    rfl
  rw [sendAll, forEach_send_next h, hmap]

theorem sendAll_failed {answers : SendAnswers} {msgs : List Message} {n : RaftNode σ Event S}
    (h : ¬ Deliverable answers n.peers msgs) :
    ∃ err δ, sendAll answers msgs n = (.failed err, n.emitAll δ) ∧
      ∀ e ∈ δ, Effect.IsSend e := forEach_send_failed h

theorem sendAll_next_iff {answers : SendAnswers} {msgs : List Message} {n n' : RaftNode σ Event S} :
    sendAll answers msgs n = (.next, n') ↔ Deliverable answers n.peers msgs ∧
      n' = n.emitAll (msgs.map Effect.send) := by
  by_cases h : Deliverable answers n.peers msgs
  · rw [sendAll_next h]
    simp [h, eq_comm]
  · obtain ⟨err, δ, hδ, -⟩ := sendAll_failed h
    rw [hδ]
    simp [h]

theorem sendAll_advancing (answers : SendAnswers) (msgs : List Message) (n : RaftNode σ Event S) :
    (sendAll answers msgs n).1 ≠ .returned ∧
      Extends Effect.IsAdvancing n (sendAll answers msgs n).2 := by
  by_cases h : Deliverable answers n.peers msgs
  · rw [sendAll_next h]
    refine ⟨by simp, msgs.map Effect.send, rfl, ?_⟩
    intro e he
    obtain ⟨m, -, rfl⟩ := List.mem_map.mp he
    trivial
  · obtain ⟨err, δ, hδ, hsend⟩ := sendAll_failed h
    rw [hδ]
    refine ⟨by simp, δ, rfl, ?_⟩
    intro e he
    have hs := hsend e he
    cases e <;> trivial

/-! ## Persisting -/

theorem writeStore_ok {op : S → Except StorageError Unit × S} {n : RaftNode σ Event S}
    (h : (op n.store).1 = .ok ()) :
    writeStore op n = (.next, n.withStore (op n.store).2) := by
  unfold writeStore
  rcases hop : op n.store with ⟨_ | _, s⟩
  · rw [hop] at h
    exact absurd h (by simp)
  · rfl

theorem writeStore_failed {op : S → Except StorageError Unit × S} {n : RaftNode σ Event S}
    (h : (op n.store).1 ≠ .ok ()) :
    ∃ e, writeStore op n =
      (.failed (.storage e), (n.withStore (op n.store).2).emit (.storageFailed e)) := by
  unfold writeStore
  rcases hop : op n.store with ⟨e | _, s⟩
  · exact ⟨e, rfl⟩
  · rw [hop] at h
    exact absurd rfl h

theorem writeStore_next_iff {op : S → Except StorageError Unit × S} {n n' : RaftNode σ Event S} :
    writeStore op n = (.next, n') ↔
      (op n.store).1 = .ok () ∧ n' = n.withStore (op n.store).2 := by
  by_cases h : (op n.store).1 = .ok ()
  · rw [writeStore_ok h]
    simp [h, eq_comm]
  · obtain ⟨e, he⟩ := writeStore_failed h
    rw [he]
    simp [h]

theorem writeStore_advancing (op : S → Except StorageError Unit × S) (n : RaftNode σ Event S) :
    (writeStore op n).1 ≠ .returned ∧ Extends Effect.IsAdvancing n (writeStore op n).2 := by
  by_cases h : (op n.store).1 = .ok ()
  · rw [writeStore_ok h]
    exact ⟨by simp, Extends.of_trace_eq rfl⟩
  · obtain ⟨e, he⟩ := writeStore_failed h
    rw [he]
    exact ⟨by simp, ⟨[.storageFailed e], rfl, by simp [Effect.IsAdvancing]⟩⟩

section
variable [RaftStorage S]

/-- The storage after the snapshot of a ready. -/
def restoreStore (io : ReadyIo) (s : S) : S :=
  if io.ready.snapshot.isEmpty then s
  else (RaftStorage.applySnapshotWithData io.restoreFaults s io.ready.snapshot).2

/-- Appending the entries of a ready. -/
def appendReady (io : ReadyIo) (s : S) : Except StorageError Unit × S :=
  if io.ready.entries.isEmpty then (.ok (), s)
  else RaftStorage.append io.appendFaults s io.ready.entries

/-- Storing the hard state of a ready. -/
def hardStateReady (io : ReadyIo) (s : S) : Except StorageError Unit × S :=
  match io.ready.hs with
  | none => (.ok (), s)
  | some hs => RaftStorage.setHardstate io.hardStateFaults s hs

/-- Storing the commit index of a light ready. -/
def commitReady (io : ReadyIo) (s : S) : Except StorageError Unit × S :=
  match io.lightReady.commitIndex with
  | none => (.ok (), s)
  | some commit => RaftStorage.updateCommit io.commitFaults s commit

theorem persistEntries_eq (io : ReadyIo) :
    (persistEntries io : Step (RaftNode σ Event S) NodeError) = writeStore (appendReady io) := by
  unfold persistEntries appendReady
  split <;> rfl

theorem persistHardState_eq (io : ReadyIo) :
    (persistHardState io : Step (RaftNode σ Event S) NodeError) =
      writeStore (hardStateReady io) := by
  unfold persistHardState hardStateReady
  cases io.ready.hs <;> rfl

theorem updateCommit_eq (io : ReadyIo) :
    (updateCommit io : Step (RaftNode σ Event S) NodeError) = writeStore (commitReady io) := by
  unfold updateCommit commitReady
  cases io.lightReady.commitIndex <;> rfl

end

/-! ## Restoring -/

section
variable [RaftStorage S]

/-- What step 1 tells the outside. -/
def restoreEffects (io : ReadyIo) (s : S) : List (Effect Event S) :=
  if io.ready.snapshot.isEmpty then []
  else match (RaftStorage.applySnapshotWithData io.restoreFaults s io.ready.snapshot).1 with
    | .ok () => [.snapshotReceived io.ready.snapshot]
    | .error e => [.storageFailed e]

theorem appliedEntries_restoreEffects {E : Type} (io : ReadyIo) (s : S) :
    appliedEntries (restoreEffects io s : List (Effect E S)) = [] := by
  unfold restoreEffects
  split
  · rfl
  · split <;> rfl

/-- The last snapshot index after the snapshot of a ready. -/
def restoredIndex (io : ReadyIo) (index : ℕ) : ℕ :=
  if io.ready.snapshot.isEmpty then index else io.ready.snapshot.metadata.index

variable [StateMachine σ Command Event]

/-- The state machine after the snapshot of a ready. -/
def restoredMachine (io : ReadyIo) (sm : σ) : σ :=
  if io.ready.snapshot.isEmpty then sm else (StateMachine.restore sm io.ready.snapshot.data).2

/-- The node after step 1. -/
structure AfterRestore (io : ReadyIo) (n n' : RaftNode σ Event S) : Prop where
  nodeId : n'.nodeId = n.nodeId
  currentRole : n'.currentRole = n.currentRole
  snapshotInterval : n'.snapshotInterval = n.snapshotInterval
  committedIndex : n'.committedIndex = n.committedIndex
  peers : n'.peers = n.peers
  store : n'.store = restoreStore io n.store
  stateMachine : n'.stateMachine = restoredMachine io n.stateMachine
  lastSnapshotIndex : n'.lastSnapshotIndex = restoredIndex io n.lastSnapshotIndex
  trace : n'.trace = n.trace ++ restoreEffects io n.store

theorem restoreSnapshot_next (io : ReadyIo) (n : RaftNode σ Event S) :
    ∃ n', restoreSnapshot io n = (.next, n') ∧ AfterRestore io n n' := by
  refine ⟨(restoreSnapshot io n).2, ?_, ?_⟩
  · refine Prod.ext ?_ rfl
    by_cases hs : io.ready.snapshot.isEmpty
    · simp [restoreSnapshot, hs]
    · rcases hstore : RaftStorage.applySnapshotWithData io.restoreFaults n.store io.ready.snapshot
        with ⟨_ | _, s⟩ <;> simp [restoreSnapshot, hs, hstore]
  · by_cases hs : io.ready.snapshot.isEmpty
    · constructor <;> simp [restoreSnapshot, restoreStore, restoredMachine, restoredIndex,
        restoreEffects, hs]
    · rcases hstore : RaftStorage.applySnapshotWithData io.restoreFaults n.store io.ready.snapshot
        with ⟨_ | _, s⟩
      all_goals
        constructor <;> simp [restoreSnapshot, restoreStore, restoredMachine, restoredIndex,
          restoreEffects, hs, hstore, emit]

end

/-! ## Roles and followers -/

/-- The effects of a change of role. -/
def Effect.IsRole : Effect Event S → Prop
  | .roleChanged _ => True
  | _ => False

/-- The soft state makes the node a pre-candidate. -/
def AnnouncesPreCandidate (io : ReadyIo) (role : StateRole) : Prop :=
  ∃ ss, io.ready.ss = some ss ∧ ss.raftState = .preCandidate ∧ role ≠ .preCandidate

instance (io : ReadyIo) (role : StateRole) : Decidable (AnnouncesPreCandidate io role) :=
  match h : io.ready.ss with
  | none => isFalse (by simp [AnnouncesPreCandidate, h])
  | some ss => decidable_of_iff (ss.raftState = .preCandidate ∧ role ≠ .preCandidate)
      (by simp [AnnouncesPreCandidate, h])

theorem changeRole_returned {io : ReadyIo} {n : RaftNode σ Event S}
    (h : AnnouncesPreCandidate io n.currentRole) : changeRole io n = (.returned, n) := by
  obtain ⟨ss, hss, hpre, hrole⟩ := h
  unfold changeRole
  rw [hss]
  simp only [hpre]
  rw [if_neg (Ne.symm hrole)]

theorem changeRole_next {io : ReadyIo} {n : RaftNode σ Event S}
    (h : ¬ AnnouncesPreCandidate io n.currentRole) :
    ∃ r δ, changeRole io n = (.next, { n with currentRole := r, trace := n.trace ++ δ }) ∧
      ∀ e ∈ δ, Effect.IsRole e := by
  have hsame : (.next, n) = ((.next, { n with currentRole := n.currentRole, trace := n.trace ++ [] }) :
      Outcome NodeError × RaftNode σ Event S) := by simp
  cases hss : io.ready.ss with
  | none =>
    refine ⟨n.currentRole, [], ?_, by simp⟩
    rw [← hsame, changeRole, hss]
  | some ss =>
    by_cases hr : ss.raftState = n.currentRole
    · refine ⟨n.currentRole, [], ?_, by simp⟩
      rw [← hsame, changeRole, hss]
      simp [hr]
    · unfold changeRole
      rw [hss]
      simp only [if_neg hr]
      cases hstate : ss.raftState with
      | follower => exact ⟨.follower, [.roleChanged .becameFollower], rfl, by simp [Effect.IsRole]⟩
      | candidate =>
        exact ⟨.candidate, [.roleChanged .becameCandidate], rfl, by simp [Effect.IsRole]⟩
      | leader => exact ⟨.leader, [.roleChanged .becameLeader], rfl, by simp [Effect.IsRole]⟩
      | preCandidate =>
        -- the arm that returns from the function
        exact absurd ⟨ss, hss, hstate, fun hpre => hr (by rw [hstate, hpre])⟩ h

theorem followerProgress_notifies (n : RaftNode σ Event S) (table : ℕ → Option (ℕ × ℕ)) :
    Notifies n { n with followerProgress := table } :=
  ⟨⟨rfl, rfl, rfl, rfl, rfl, Extends.of_trace_eq rfl⟩, rfl, rfl, rfl, rfl⟩

theorem reportFailed_notifies [StateMachine σ Command Event] (n : RaftNode σ Event S)
    (failed : List ℕ) : Notifies n (failed.foldl reportFailed n) := by
  induction failed generalizing n with
  | nil => exact Notifies.refl n
  | cons x failed ih =>
    exact ((publishBatch_notifies _ n).trans (followerProgress_notifies _ _)).trans (ih _)

/-- Watching the followers only publishes events. -/
theorem checkFollowerProgress_next [StateMachine σ Command Event] (io : ReadyIo)
    (n : RaftNode σ Event S) :
    ∃ n', checkFollowerProgress io n = (.next, n') ∧ Notifies n n' := by
  unfold checkFollowerProgress
  split
  · exact ⟨n, rfl, Notifies.refl n⟩
  · split
    · exact ⟨n, rfl, Notifies.refl n⟩
    · exact ⟨_, rfl, (followerProgress_notifies n _).trans (reportFailed_notifies _ _)⟩

/-! ## Creating snapshots -/

section
variable [StateMachine σ Command Event] [RaftStorage S]

/-- The effects of creating a snapshot. -/
def Effect.IsSnapshot : Effect Event S → Prop
  | .snapshotEvaluated _ _ | .snapshotCreated _ _ | .storageFailed _ => True
  | _ => False

/-- Enough was committed since the last snapshot. -/
def SnapshotDue (n : RaftNode σ Event S) : Prop :=
  n.snapshotInterval ≠ 0 ∧ n.snapshotInterval ≤ U64.sub n.committedIndex n.lastSnapshotIndex

/-- The ways of step 13: snapshots are disabled, nothing is stored, a snapshot is, or it cannot
be. -/
inductive SnapshotRun (io : ReadyIo) (n : RaftNode σ Event S) :
    Outcome NodeError → RaftNode σ Event S → Prop where
  | disabled (h : n.snapshotInterval = 0) : SnapshotRun io n .next n
  | kept (enabled : n.snapshotInterval ≠ 0)
      (h : ¬ SnapshotDue n ∨ ∃ e, StateMachine.snapshot n.stateMachine = .error e) :
      SnapshotRun io n .next n.evaluateSnapshot
  | created (data : Bytes) (s : S) (due : SnapshotDue n)
      (hdata : StateMachine.snapshot n.stateMachine = .ok data)
      (hstore : RaftStorage.applySnapshotWithData io.snapshotFaults n.store (n.snapshotOf data) =
        (.ok (), s)) :
      SnapshotRun io n .next (n.recordSnapshot s (n.snapshotOf data))
  | failed (data : Bytes) (s : S) (e : StorageError) (due : SnapshotDue n)
      (hstore : RaftStorage.applySnapshotWithData io.snapshotFaults n.store (n.snapshotOf data) =
        (.error e, s)) :
      SnapshotRun io n (.failed (.storage e))
        ((n.evaluateSnapshot.withStore s).emit (.storageFailed e))

theorem maybeCreateSnapshot_run (io : ReadyIo) (n : RaftNode σ Event S) :
    SnapshotRun io n (maybeCreateSnapshot io n).1 (maybeCreateSnapshot io n).2 := by
  unfold maybeCreateSnapshot
  by_cases h₀ : n.snapshotInterval = 0
  · rw [if_pos h₀]
    exact SnapshotRun.disabled h₀
  · rw [if_neg h₀]
    by_cases h₁ : U64.sub n.committedIndex n.lastSnapshotIndex < n.snapshotInterval
    · rw [if_pos h₁]
      exact SnapshotRun.kept h₀ (Or.inl fun due => absurd due.2 (Nat.not_le_of_lt h₁))
    · have hdue : SnapshotDue n := ⟨h₀, by omega⟩
      rw [if_neg h₁]
      cases hdata : StateMachine.snapshot n.stateMachine with
      | error e => exact SnapshotRun.kept h₀ (Or.inr ⟨e, hdata⟩)
      | ok data =>
        rcases hstore : RaftStorage.applySnapshotWithData io.snapshotFaults n.store
          (n.snapshotOf data) with ⟨e | _, s⟩
        · simpa only [hstore] using SnapshotRun.failed data s e hdue hstore
        · simpa only [hstore] using SnapshotRun.created data s hdue hdata hstore

theorem SnapshotRun.extends {io : ReadyIo} {n n' : RaftNode σ Event S} {out : Outcome NodeError}
    (h : SnapshotRun io n out n') : Extends Effect.IsSnapshot n n' := by
  cases h with
  | disabled => exact Extends.of_trace_eq rfl
  | kept => exact extends_emit trivial
  | created data s due hdata hstore =>
    refine ⟨[.snapshotEvaluated n.committedIndex n.lastSnapshotIndex,
      .snapshotCreated n.store (n.snapshotOf data)], ?_, by simp [Effect.IsSnapshot]⟩
    simp [recordSnapshot, evaluateSnapshot, withStore, emit]
  | failed data s e due hstore =>
    refine ⟨[.snapshotEvaluated n.committedIndex n.lastSnapshotIndex, .storageFailed e], ?_,
      by simp [Effect.IsSnapshot]⟩
    simp [evaluateSnapshot, withStore, emit]

end

end RaftNode

end Raftoral

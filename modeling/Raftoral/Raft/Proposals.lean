import Raftoral.Raft.NodeRun
import Raftoral.Raft.QuietSteps

/-!
# Proposals and their answers

A proposer waits in `pending_proposals` under a sync id, and the id travels in the entry: it is
the context of a command, and the first bytes of the context of a configuration change. A node
answers when it processes a committed entry with an id somebody waits for.

`processed` names the committed entries a call of `on_ready` gets to, each with the node as it
is then. `Ledger` says of one node that every answer in its trace came from one of them, after
the entry was applied, and that nobody was answered twice.
-/

namespace Raftoral

open RaftNode

variable {σ Command Event S : Type}

/-! ## An entry and its answer -/

/-- The sync id an entry carries. -/
def Entry.syncId [ProstMessage ConfChange] (e : Entry) : Option ℕ :=
  if e.data.isEmpty then none
  else match e.entryType with
    | .entryNormal => entrySyncId e.context
    | .entryConfChange | .entryConfChangeV2 =>
      match (ProstMessage.decode e.data : Except String ConfChange) with
      | .ok cc => (confChangeSyncId cc.context).1
      | .error _ => none

/-- The sync ids a trace has answered. -/
def answeredIds (τ : List (Effect Event S)) : List ℕ :=
  τ.filterMap fun
    | .complete id _ => some id
    | _ => none

namespace RaftNode

section
variable [ProstMessage ConfChange] [SerdeJson NodeMetadata] [StateMachine σ Command Event]
  [SerdeJson Command]

/-- The node once an entry is applied to the state machine or the configuration, before its
proposer is told. -/
def appliedNode (io : ReadyIo) (e : Entry) (n : RaftNode σ Event S) : Option (RaftNode σ Event S) :=
  if e.data.isEmpty then none
  else match e.entryType with
    | .entryNormal =>
      let (result, sm') := applyCommand n.stateMachine e.data
      some ({ n with stateMachine := sm' }.publishResult result)
    | .entryConfChange | .entryConfChangeV2 =>
      match (ProstMessage.decode e.data : Except String ConfChange) with
      | .error _ => none
      | .ok cc =>
        match io.applyConfChange e with
        | .error _ => none
        | .ok cs => some { n with cachedConfState := cs, peers := (confChangePeers cc n.peers).2 }

/-- The result of an entry: that of its command, or of its configuration change. -/
def entryResult (e : Entry) (n : RaftNode σ Event S) : Except String Unit :=
  match e.entryType with
  | .entryNormal => (applyCommand n.stateMachine e.data).1.map fun _ => ()
  | .entryConfChange | .entryConfChangeV2 =>
    match (ProstMessage.decode e.data : Except String ConfChange) with
    | .ok cc => (confChangePeers cc n.peers).1
    | .error e => .error e

end

/-- Nobody is answered and nobody stops waiting. -/
structure Silent (n n' : RaftNode σ Event S) : Prop where
  pendingProposals : n'.pendingProposals = n.pendingProposals
  trace : Extends (fun e => ¬ e.IsAnswer) n n'

theorem Quiet.silent {n n' : RaftNode σ Event S} (h : Quiet n n') : Silent n n' :=
  ⟨h.pendingProposals, h.trace⟩

theorem Silent.refl (n : RaftNode σ Event S) : Silent n n := (Quiet.refl n).silent

theorem Silent.trans (n₁ n₂ n₃ : RaftNode σ Event S) (h₁ : Silent n₁ n₂) (h₂ : Silent n₂ n₃) :
    Silent n₁ n₃ :=
  ⟨h₂.pendingProposals.trans h₁.pendingProposals, h₁.trace.trans h₂.trace⟩

theorem publishResult_silent (result : Except String (List Event)) (n : RaftNode σ Event S) :
    Silent n (n.publishResult result) := by
  cases result with
  | error _ => exact Silent.refl n
  | ok events =>
    unfold publishResult publishBatch
    dsimp only
    split_ifs
    · exact Silent.refl n
    · refine Quiet.silent (Quiet.emit (Quiet.refl n) ?_)
      exact not_false

section
variable [ProstMessage ConfChange] [SerdeJson NodeMetadata] [StateMachine σ Command Event]
  [SerdeJson Command]

theorem appliedNode_silent {io : ReadyIo} {e : Entry} {n n' : RaftNode σ Event S}
    (h : appliedNode io e n = some n') : Silent n n' := by
  have hsame : ∀ m : RaftNode σ Event S, m.pendingProposals = n.pendingProposals →
      m.trace = n.trace → Silent n m := fun m hp ht => ⟨hp, Extends.of_trace_eq ht⟩
  unfold appliedNode at h
  split_ifs at h
  cases he : e.entryType with
  | entryNormal =>
    rw [he] at h
    obtain rfl := Option.some.inj h
    refine Silent.trans n { n with stateMachine := (applyCommand n.stateMachine e.data).2 } _ ?_ ?_
    · exact hsame _ rfl rfl
    · exact publishResult_silent _ _
  | _ =>
    rw [he] at h
    dsimp only at h
    split at h
    · exact absurd h (by simp)
    · split at h
      · exact absurd h (by simp)
      · obtain rfl := Option.some.inj h
        exact hsame _ rfl rfl

/-- An entry is applied, then answered for; or it changes nothing. -/
theorem applyEntry_cases (io : ReadyIo) (e : Entry) (n : RaftNode σ Event S) :
    (applyEntry io e n).2 = n ∨ ∃ n', appliedNode io e n = some n' ∧
      Silent (n'.completeProposal e.syncId (entryResult e n)) (applyEntry io e n).2 := by
  unfold applyEntry appliedNode Entry.syncId entryResult
  split_ifs with hempty
  · exact Or.inl rfl
  · cases e.entryType with
    | entryNormal =>
      refine Or.inr ⟨_, rfl, ?_⟩
      refine ⟨rfl, ?_⟩
      exact extends_emit not_false
    | _ =>
      dsimp only
      cases hdecode : (ProstMessage.decode e.data : Except String ConfChange) with
      | error _ =>
        left
        simp [applyConfChange, hdecode]
      | ok cc =>
        cases hcs : io.applyConfChange e with
        | error _ =>
          left
          simp [applyConfChange, hdecode, hcs]
        | ok cs =>
          refine Or.inr ⟨_, rfl, ?_⟩
          simp only [applyConfChange, hdecode, hcs]
          exact Silent.refl _

/-! ## The entries a call gets to -/

variable [RaftStorage S]

/-- The statements between the two lists of committed entries. -/
def stepsBetween (io : ReadyIo) : List (Step (RaftNode σ Event S) NodeError) :=
  [persistEntries io, persistHardState io, changeRole io] ++ (sendReady io ++
    [advance .advanceAppend, updateCommit io, sendAll io.sendLight io.lightReady.messages])

def stepsBeforeLight (io : ReadyIo) : List (Step (RaftNode σ Event S) NodeError) :=
  [restoreSnapshot io] ++ ([applyCommitted io io.ready.committedEntries] ++ stepsBetween io)

/-- The committed entries a call of `on_ready` gets to, each with the node as it is then. -/
def processed (io : ReadyIo) (n : RaftNode σ Event S) : List (Entry × RaftNode σ Event S) :=
  if io.hasReady then
    ((Step.goOn (restoreSnapshot io) n).map
      (Step.turns (applyEntry io) io.ready.committedEntries)).getD [] ++
    ((Step.goOn (Step.block (stepsBeforeLight io)) n).map
      (Step.turns (applyEntry io) io.lightReady.committedEntries)).getD []
  else []

theorem readySteps_eq_light (io : ReadyIo) :
    (readySteps io : List (Step (RaftNode σ Event S) NodeError)) = stepsBeforeLight io ++
      ([applyCommitted io io.lightReady.committedEntries] ++
        [advance .advanceApply, maybeCreateSnapshot io, checkFollowerProgress io]) := by
  simp [readySteps, stepsBeforeLight, stepsBetween, takeReady, advanceReady]

omit [ProstMessage ConfChange] [SerdeJson NodeMetadata] in
theorem stepsBetween_silent (io : ReadyIo) (n : RaftNode σ Event S) :
    Silent n (Step.block (stepsBetween io) n).2 := by
  refine Step.block_rel Silent.refl Silent.trans ?_ n
  intro a ha n
  simp only [stepsBetween, sendReady, List.cons_append, List.nil_append, List.mem_cons,
    List.not_mem_nil, or_false] at ha
  obtain rfl | rfl | rfl | rfl | rfl | rfl | rfl | rfl := ha
  · exact (persistEntries_quiet io n).silent
  · exact (persistHardState_quiet io n).silent
  · exact (changeRole_quiet io n).silent
  · exact (sendAll_quiet _ _ n).silent
  · exact (sendAll_quiet _ _ n).silent
  · exact (advance_quiet (e := .advanceAppend) not_false n).silent
  · exact (updateCommit_quiet io n).silent
  · exact (sendAll_quiet _ _ n).silent

omit [ProstMessage ConfChange] [SerdeJson NodeMetadata] [SerdeJson Command] [RaftStorage S] in
theorem checkFollowerProgress_silent (io : ReadyIo) (n : RaftNode σ Event S) :
    Silent n (checkFollowerProgress io n).2 := by
  have hreport : ∀ (failed : List ℕ) (m : RaftNode σ Event S),
      Silent m (failed.foldl reportFailed m) := by
    intro failed
    induction failed with
    | nil => exact Silent.refl
    | cons q failed ih =>
      intro m
      have hpublish := publishResult_silent
        (.ok (StateMachine.onFollowerFailed m.stateMachine q)) m
      exact Silent.trans m (m.reportFailed q) _ ⟨hpublish.pendingProposals, hpublish.trace⟩
        (ih (m.reportFailed q))
  unfold checkFollowerProgress
  split_ifs
  · exact Silent.refl n
  · exact Silent.refl n
  · have h := hreport (trackProgress n io io.progress n.followerProgress).1
      { n with followerProgress := (trackProgress n io io.progress n.followerProgress).2 }
    exact ⟨h.pendingProposals, h.trace⟩

omit [ProstMessage ConfChange] [SerdeJson NodeMetadata] [SerdeJson Command] in
theorem stepsAfterLight_silent (io : ReadyIo) (n : RaftNode σ Event S) :
    Silent n (Step.block
      [advance .advanceApply, maybeCreateSnapshot io, checkFollowerProgress io] n).2 := by
  refine Step.block_rel Silent.refl Silent.trans ?_ n
  intro a ha n
  simp only [List.mem_cons, List.not_mem_nil, or_false] at ha
  obtain rfl | rfl | rfl := ha
  · exact (advance_quiet (e := .advanceApply) not_false n).silent
  · exact (maybeCreateSnapshot_quiet io n).silent
  · exact checkFollowerProgress_silent io n

end

end RaftNode

/-! ## The answers of a node -/

/-- A committed entry a node gets to: the call, the entry, and the node as it is then. -/
structure Processing (σ Event S : Type) where
  io : ReadyIo
  entry : Entry
  node : RaftNode σ Event S

section
variable [ProstMessage ConfChange] [SerdeJson NodeMetadata] [StateMachine σ Command Event]
  [SerdeJson Command]

/-- The effect at a position of a trace is the answer an entry gives: somebody waits for the id
the entry carries, the entry has been applied, and the result is its own. -/
structure Processing.Answers (m : Processing σ Event S) (τ : List (Effect Event S)) (k id : ℕ)
    (result : Except String Unit) : Prop where
  carries : m.entry.syncId = some id
  waits : m.node.pendingProposals id
  applied : ∃ n, appliedNode m.io m.entry m.node = some n ∧ n.trace = τ.take k
  result : result = entryResult m.entry m.node

/-- The answers of a node, against the ids its callers wait for and the entries it got to. -/
structure Ledger (Known : ℕ → Prop) (M : List (Processing σ Event S)) (n : RaftNode σ Event S) :
    Prop where
  answered : ∀ k id r, n.trace[k]? = some (.complete id r) → ∃ m ∈ M, m.Answers n.trace k id r
  once : (answeredIds n.trace).Nodup
  done : ∀ id ∈ answeredIds n.trace, n.pendingProposals id = false
  waiting : ∀ id, n.pendingProposals id → Known id
  known : ∀ id ∈ answeredIds n.trace, Known id

namespace Ledger

variable {Known : ℕ → Prop} {M : List (Processing σ Event S)} {n n' : RaftNode σ Event S}

omit [ProstMessage ConfChange] [SerdeJson NodeMetadata] [StateMachine σ Command Event]
  [SerdeJson Command] in
theorem answeredIds_of_silent (h : Silent n n') :
    answeredIds n'.trace = answeredIds n.trace := by
  refine h.trace.filterMap_eq ?_
  intro e he
  cases e with
  | complete id r => exact absurd trivial he
  | _ => rfl

theorem answers_append {m : Processing σ Event S} {τ : List (Effect Event S)} {k id : ℕ}
    {r : Except String Unit} (hk : k < τ.length) (h : m.Answers τ k id r)
    (δ : List (Effect Event S)) : m.Answers (τ ++ δ) k id r := by
  obtain ⟨n, hn, htrace⟩ := h.applied
  refine ⟨h.carries, h.waits, ⟨n, hn, ?_⟩, h.result⟩
  rw [htrace, List.take_append_of_le_length (Nat.le_of_lt hk)]

/-- Only the answers that a trace has gained are to be looked at. -/
theorem answered_append (h : Ledger Known M n) {δ : List (Effect Event S)}
    (hnew : ∀ k id r, n.trace.length ≤ k → (n.trace ++ δ)[k]? = some (.complete id r) →
      ∃ m ∈ M, m.Answers (n.trace ++ δ) k id r) (k id : ℕ) (r : Except String Unit)
    (hk : (n.trace ++ δ)[k]? = some (.complete id r)) :
    ∃ m ∈ M, m.Answers (n.trace ++ δ) k id r := by
  by_cases hlt : k < n.trace.length
  · rw [List.getElem?_append_left hlt] at hk
    obtain ⟨m, hm, hanswers⟩ := h.answered k id r hk
    exact ⟨m, hm, answers_append hlt hanswers δ⟩
  · exact hnew k id r (Nat.le_of_not_lt hlt) hk

theorem silent (h : Ledger Known M n) (hs : Silent n n') : Ledger Known M n' := by
  have hids := answeredIds_of_silent hs
  refine ⟨?_, by rw [hids]; exact h.once, ?_, ?_, by rw [hids]; exact h.known⟩
  · obtain ⟨δ, hδ, hquiet⟩ := hs.trace
    rw [hδ]
    refine h.answered_append ?_
    intro k id r hle hk
    rw [List.getElem?_append_right hle] at hk
    exact absurd trivial (hquiet _ (List.mem_of_getElem? hk))
  · rw [hids, hs.pendingProposals]
    exact h.done
  · rw [hs.pendingProposals]
    exact h.waiting

theorem forget (h : Ledger Known M n) (id : ℕ) : Ledger Known M (n.forget id) where
  answered := h.answered
  once := h.once
  done id' hid' := by
    show Function.update n.pendingProposals id false id' = false
    by_cases heq : id' = id
    · simp [heq]
    · rw [Function.update_of_ne heq]
      exact h.done id' hid'
  waiting id' hid' := by
    change Function.update n.pendingProposals id false id' = true at hid'
    by_cases heq : id' = id
    · simp [heq] at hid'
    · rw [Function.update_of_ne heq] at hid'
      exact h.waiting id' hid'
  known := h.known

/-- One more answer, to somebody who waits no longer. -/
theorem emit_complete {m : Processing σ Event S} {id : ℕ} {r : Except String Unit}
    (h : Ledger Known M n) (hdone : n.pendingProposals id = false) (hknown : Known id)
    (hnew : id ∉ answeredIds n.trace) (hm : m ∈ M)
    (hanswers : m.Answers (n.trace ++ [.complete id r]) n.trace.length id r) :
    Ledger Known M (n.emit (.complete id r)) := by
  have hids : answeredIds (n.emit (.complete id r)).trace = answeredIds n.trace ++ [id] := by
    simp [answeredIds, RaftNode.emit]
  refine ⟨?_, ?_, ?_, h.waiting, ?_⟩
  · refine h.answered_append ?_
    intro k id' r' hle hk
    rw [List.getElem?_append_right hle, List.getElem?_singleton] at hk
    split_ifs at hk with hzero
    obtain ⟨rfl, rfl⟩ := Effect.complete.inj (Option.some.inj hk)
    obtain rfl : k = n.trace.length := by omega
    exact ⟨m, hm, hanswers⟩
  · rw [hids]
    exact List.nodup_append_comm.mp (List.nodup_cons.mpr ⟨hnew, h.once⟩)
  · intro id' hid'
    rw [hids] at hid'
    rcases List.mem_append.mp hid' with hid' | hid'
    · exact h.done id' hid'
    · rw [List.mem_singleton.mp hid']
      exact hdone
  · intro id' hid'
    rw [hids] at hid'
    rcases List.mem_append.mp hid' with hid' | hid'
    · exact h.known id' hid'
    · rw [List.mem_singleton.mp hid']
      exact hknown

/-- An answer given to somebody who waits, once the entry is applied. -/
theorem complete {m : Processing σ Event S} (hm : m ∈ M)
    (happlied : appliedNode m.io m.entry m.node = some n) (h : Ledger Known M n) :
    Ledger Known M (n.completeProposal m.entry.syncId (entryResult m.entry m.node)) := by
  unfold completeProposal
  cases hid : m.entry.syncId with
  | none => exact h
  | some id =>
    dsimp only
    split_ifs with hwaits
    · have hnew : id ∉ answeredIds n.trace := by
        intro hmem
        rw [h.done id hmem] at hwaits
        exact absurd hwaits (by simp)
      have hwaited : m.node.pendingProposals id := by
        rw [← (appliedNode_silent happlied).pendingProposals]
        exact hwaits
      exact (h.forget id).emit_complete (Function.update_self ..) (h.waiting id hwaits) hnew hm
        ⟨hid, hwaited, ⟨n, happlied, (List.take_left' rfl).symm⟩, rfl⟩
    · exact h

/-- One turn of a loop over committed entries. -/
theorem applyEntry {io : ReadyIo} {e : Entry} (hm : ⟨io, e, n⟩ ∈ M) (h : Ledger Known M n) :
    Ledger Known M (RaftNode.applyEntry io e n).2 := by
  rcases applyEntry_cases io e n with hsame | ⟨n', happlied, hsilent⟩
  · rwa [hsame]
  · exact (complete hm happlied (h.silent (appliedNode_silent happlied))).silent hsilent

/-- A loop over committed entries. -/
theorem applyCommitted {io : ReadyIo} {es : List Entry}
    (hM : ∀ t ∈ Step.turns (RaftNode.applyEntry io) es n, ⟨io, t.1, t.2⟩ ∈ M)
    (h : Ledger Known M n) : Ledger Known M (RaftNode.applyCommitted io es n).2 :=
  Step.forEach_inv h fun t ht hI => applyEntry (hM t ht) hI

/-- A loop over committed entries and statements that answer nobody. -/
theorem block_applyCommitted {io : ReadyIo} {es : List Entry}
    {rest : List (Step (RaftNode σ Event S) NodeError)}
    (hM : ∀ t ∈ Step.turns (RaftNode.applyEntry io) es n, ⟨io, t.1, t.2⟩ ∈ M)
    (hrest : ∀ m, Silent m (Step.block rest m).2) (h : Ledger Known M n) :
    Ledger Known M (Step.block ([RaftNode.applyCommitted io es] ++ rest) n).2 := by
  refine Step.block_append_inv _ ?_ fun m _ hm => hm.silent (hrest m)
  rw [Step.block_singleton]
  exact applyCommitted hM h

/-- A call of `on_ready` keeps the ledger, with the entries it gets to. -/
theorem onReady [RaftStorage S] {io : ReadyIo}
    (hM : ∀ t ∈ processed io n, ⟨io, t.1, t.2⟩ ∈ M) (h : Ledger Known M n) :
    Ledger Known M (RaftNode.onReady io n).2 := by
  unfold RaftNode.onReady
  split_ifs with hready
  · rw [processed, if_pos hready] at hM
    rw [readySteps_eq_light]
    refine Step.block_append_inv _ (Step.block_append_inv _ ?_ ?_) ?_
    · rw [Step.block_singleton]
      exact h.silent (restoreSnapshot_quiet io n).silent
    · intro n₁ hn₁ h₁
      rw [Step.block_singleton] at hn₁
      rw [hn₁] at hM
      exact block_applyCommitted (fun t ht => hM t (List.mem_append_left _ ht))
        (stepsBetween_silent io) h₁
    · intro n₂ hn₂ h₂
      rw [hn₂] at hM
      exact block_applyCommitted (fun t ht => hM t (List.mem_append_right _ ht))
        (stepsAfterLight_silent io) h₂
  · exact h

theorem mono {Known' : ℕ → Prop} {M' : List (Processing σ Event S)} (h : Ledger Known M n)
    (hK : ∀ id, Known id → Known' id) (hM : M ⊆ M') : Ledger Known' M' n where
  answered k id r hk := by
    obtain ⟨m, hm, hanswers⟩ := h.answered k id r hk
    exact ⟨m, hM hm, hanswers⟩
  once := h.once
  done := h.done
  waiting id hid := hK id (h.waiting id hid)
  known id hid := hK id (h.known id hid)

/-- Somebody waits for a sync id nobody has waited for. -/
theorem register {id : ℕ} (h : Ledger Known M n) (hnew : ¬ Known id)
    (hpending : n'.pendingProposals = Function.update n.pendingProposals id true)
    (htrace : n'.trace = n.trace) : Ledger (fun id' => Known id' ∨ id' = id) M n' where
  answered := htrace ▸ h.answered
  once := htrace ▸ h.once
  done id' hid' := by
    rw [htrace] at hid'
    have hne : id' ≠ id := fun heq => hnew (heq ▸ h.known id' hid')
    rw [hpending, Function.update_of_ne hne]
    exact h.done id' hid'
  waiting id' hid' := by
    by_cases hid : id' = id
    · exact Or.inr hid
    · rw [hpending, Function.update_of_ne hid] at hid'
      exact Or.inl (h.waiting id' hid')
  known id' hid' := Or.inl (h.known id' (htrace ▸ hid'))

/-- A node that has just started. -/
theorem of_started (hpending : n.pendingProposals = fun _ => false) (htrace : n.trace = []) :
    Ledger Known M n where
  answered k id r hk := by simp [htrace] at hk
  once := by simp [htrace, answeredIds]
  done id hid := by simp [hpending]
  waiting id hid := by simp [hpending] at hid
  known id hid := by simp [htrace, answeredIds] at hid

end Ledger

end

end Raftoral

import Raftoral.Raft.ReadySteps

/-!
# What a call of `on_ready` can do

`OnReadyRun` lists the ways a call can go, with what holds at each point on the way:
the call fails while it takes the ready, it returns because the node became a
pre-candidate, it fails while it sends and advances, it fails to store a snapshot, or it
reaches its end. `onReady_run` says that every call is one of these, and what is proved about a
whole call starts from it, unless it follows a field that the points do not speak about.
-/

namespace Raftoral

variable {σ Command Event S : Type}

/-- All committed entries a call hands out when it gets that far. -/
def ReadyIo.handedOut (io : ReadyIo) : List Entry :=
  io.ready.committedEntries ++ io.lightReady.committedEntries

namespace RaftNode

section
variable [ProstMessage ConfChange] [SerdeJson NodeMetadata] [StateMachine σ Command Event]
  [SerdeJson Command] [RaftStorage S]

/-! ## Steps 1 to 4 -/

/-- The storage takes the entries and the hard state of a ready. -/
def Persists (io : ReadyIo) (s : S) : Prop :=
  (appendReady io (restoreStore io s)).1 = .ok () ∧
    (hardStateReady io (appendReady io (restoreStore io s)).2).1 = .ok ()

/-- Every configuration change among the committed entries of the ready is accepted. -/
def AcceptsReady (io : ReadyIo) : Prop := ∀ e ∈ io.ready.committedEntries, Accepted io e

/-- The node once a ready was taken. -/
structure AfterTake (io : ReadyIo) (n n' : RaftNode σ Event S) : Prop where
  accepts : AcceptsReady io
  persists : Persists io n.store
  nodeId : n'.nodeId = n.nodeId
  currentRole : n'.currentRole = n.currentRole
  snapshotInterval : n'.snapshotInterval = n.snapshotInterval
  store : n'.store = (hardStateReady io (appendReady io (restoreStore io n.store)).2).2
  stateMachine : n'.stateMachine =
    replay (restoredMachine io n.stateMachine) io.ready.committedEntries
  committedIndex : n'.committedIndex = lastCommandIndex io.ready.committedEntries n.committedIndex
  lastSnapshotIndex : n'.lastSnapshotIndex = restoredIndex io n.lastSnapshotIndex
  peers : n'.peers = peersAfter io.ready.committedEntries n.peers
  applied : appliedEntries n'.trace =
    appliedEntries n.trace ++ io.ready.committedEntries.filter Entry.isCommand
  trace : ∃ δ, n'.trace = n.trace ++ restoreEffects io n.store ++ δ ∧ ∀ e ∈ δ, Effect.IsApply e

/-- The node after a call that failed while it took a ready. -/
structure TakeFailed (io : ReadyIo) (n n' : RaftNode σ Event S) : Prop where
  refused : ¬ (AcceptsReady io ∧ Persists io n.store)
  trace : ∃ δ, n'.trace = n.trace ++ restoreEffects io n.store ++ δ ∧
    (∀ e ∈ δ, Effect.IsApply e ∨ Effect.IsFault e) ∧
      (AcceptsReady io → ∃ e, Effect.storageFailed e ∈ δ)

theorem takeReady_next {io : ReadyIo} {n : RaftNode σ Event S} (hacc : AcceptsReady io)
    (hper : Persists io n.store) :
    ∃ n', Step.block (takeReady io) n = (.next, n') ∧ AfterTake io n n' := by
  obtain ⟨n₁, h₁, hr⟩ := restoreSnapshot_next io n
  obtain ⟨n₂, h₂, ha⟩ := applyCommitted_after hacc n₁
  have hstore₂ : n₂.store = restoreStore io n.store := ha.frame.store.trans hr.store
  have h₃ : persistEntries io n₂ =
      (.next, n₂.withStore (appendReady io (restoreStore io n.store)).2) := by
    rw [persistEntries_eq, writeStore_ok (by rw [hstore₂]; exact hper.1), hstore₂]
  have h₄ : persistHardState io (n₂.withStore (appendReady io (restoreStore io n.store)).2) =
      (.next, n₂.withStore (hardStateReady io (appendReady io (restoreStore io n.store)).2).2) := by
    rw [persistHardState_eq, writeStore_ok hper.2]
    rfl
  refine ⟨n₂.withStore (hardStateReady io (appendReady io (restoreStore io n.store)).2).2, ?_, ?_⟩
  · rw [takeReady, Step.block_cons_of_next h₁, Step.block_cons_of_next h₂,
      Step.block_cons_of_next h₃, Step.block_cons_of_next h₄, Step.block_nil]
  · obtain ⟨δ, hδ, hap⟩ := ha.frame.trace
    -- restoring a snapshot applies no entry
    have happ : appliedEntries n₁.trace = appliedEntries n.trace := by
      have hres := appliedEntries_restoreEffects (E := Event) io n.store
      rw [hr.trace, appliedEntries, List.filterMap_append]
      rw [appliedEntries] at hres
      rw [hres, List.append_nil, appliedEntries]
    rw [hr.trace] at hδ
    refine ⟨hacc, hper, ha.frame.nodeId.trans hr.nodeId, ha.frame.currentRole.trans hr.currentRole,
      ha.frame.snapshotInterval.trans hr.snapshotInterval, rfl, ?_, ?_,
      ha.frame.lastSnapshotIndex.trans hr.lastSnapshotIndex, ?_, ?_, δ, hδ, hap⟩
    · rw [← hr.stateMachine]
      exact ha.stateMachine
    · rw [← hr.committedIndex]
      exact ha.committedIndex
    · rw [← hr.peers]
      exact ha.peers
    · rw [← happ]
      exact ha.applied

theorem takeReady_failed {io : ReadyIo} {n : RaftNode σ Event S}
    (h : ¬ (AcceptsReady io ∧ Persists io n.store)) :
    ∃ err n', Step.block (takeReady io) n = (.failed err, n') ∧ TakeFailed io n n' := by
  obtain ⟨n₁, h₁, hr⟩ := restoreSnapshot_next io n
  by_cases hacc : AcceptsReady io
  · obtain ⟨n₂, h₂, ha⟩ := applyCommitted_after hacc n₁
    obtain ⟨δ, hδ, hap⟩ := ha.frame.trace
    rw [hr.trace] at hδ
    have hstore₂ : n₂.store = restoreStore io n.store := ha.frame.store.trans hr.store
    -- whichever of the two writes fails, its error ends the trace
    have hfault : ∀ (m : RaftNode σ Event S) (e : StorageError), m.trace = n₂.trace →
        TakeFailed io n (m.emit (.storageFailed e)) := by
      intro m e hm
      refine ⟨h, δ ++ [.storageFailed e], ?_, ?_, fun _ => ⟨e, by simp⟩⟩
      · rw [emit, hm, hδ]
        simp
      · intro x hx
        rcases List.mem_append.mp hx with hx | hx
        · exact Or.inl (hap x hx)
        · rw [List.mem_singleton] at hx
          exact Or.inr (hx ▸ trivial)
    rw [takeReady, Step.block_cons_of_next h₁, Step.block_cons_of_next h₂, persistEntries_eq,
      persistHardState_eq]
    by_cases happ : (appendReady io n₂.store).1 = .ok ()
    · rw [Step.block_cons_of_next (writeStore_ok happ)]
      have hhs : (hardStateReady io (n₂.withStore (appendReady io n₂.store).2).store).1 ≠ .ok () := by
        intro hok
        rw [hstore₂] at happ hok
        exact h ⟨hacc, happ, hok⟩
      obtain ⟨e, he⟩ := writeStore_failed hhs
      exact ⟨_, _, Step.block_cons_of_failed he, hfault _ e rfl⟩
    · obtain ⟨e, he⟩ := writeStore_failed happ
      exact ⟨_, _, Step.block_cons_of_failed he, hfault _ e rfl⟩
  · obtain ⟨err, n₂, h₂, hf⟩ := applyCommitted_of_not_accepted hacc n₁
    obtain ⟨δ, hδ, hap⟩ := hf.trace
    rw [hr.trace] at hδ
    refine ⟨err, n₂, ?_, h, δ, hδ, fun e he => Or.inl (hap e he), fun hok => absurd hok hacc⟩
    rw [takeReady, Step.block_cons_of_next h₁, Step.block_cons_of_failed h₂]

/-- Reaching the end of the block takes what `takeReady_next` asks for. -/
theorem afterTake_of_next {io : ReadyIo} {n n' : RaftNode σ Event S}
    (h : Step.block (takeReady io) n = (.next, n')) : AfterTake io n n' := by
  by_cases htake : AcceptsReady io ∧ Persists io n.store
  · obtain ⟨n₁, h₁, hafter⟩ := takeReady_next htake.1 htake.2
    rw [h] at h₁
    obtain rfl := (Prod.mk.inj h₁).2
    exact hafter
  · obtain ⟨err, n₁, h₁, -⟩ := takeReady_failed htake
    rw [h] at h₁
    exact absurd h₁ (by simp)

/-! ## Steps 6 to 12 -/

/-- Every message of the ready and the light ready reaches its addressee. -/
structure CanSend (io : ReadyIo) (peers : Peers) : Prop where
  messages : Deliverable io.sendMessages peers io.ready.messages
  persisted : Deliverable io.sendPersisted peers io.ready.persistedMessages
  light : Deliverable io.sendLight peers io.lightReady.messages

/-- Every configuration change among the committed entries of the light ready is accepted. -/
def AcceptsLight (io : ReadyIo) : Prop := ∀ e ∈ io.lightReady.committedEntries, Accepted io e

/-- The node once a ready was sent and advanced. -/
structure AfterAdvance (io : ReadyIo) (n n' : RaftNode σ Event S) : Prop where
  canSend : CanSend io n.peers
  accepts : AcceptsLight io
  commits : (commitReady io n.store).1 = .ok ()
  nodeId : n'.nodeId = n.nodeId
  currentRole : n'.currentRole = n.currentRole
  snapshotInterval : n'.snapshotInterval = n.snapshotInterval
  lastSnapshotIndex : n'.lastSnapshotIndex = n.lastSnapshotIndex
  store : n'.store = (commitReady io n.store).2
  stateMachine : n'.stateMachine = replay n.stateMachine io.lightReady.committedEntries
  committedIndex : n'.committedIndex =
    lastCommandIndex io.lightReady.committedEntries n.committedIndex
  peers : n'.peers = peersAfter io.lightReady.committedEntries n.peers
  applied : appliedEntries n'.trace =
    appliedEntries n.trace ++ io.lightReady.committedEntries.filter Entry.isCommand
  trace : ∃ δ, n'.trace = n.trace ++ (io.ready.messages ++ io.ready.persistedMessages).map Effect.send
      ++ [.advanceAppend] ++ io.lightReady.messages.map Effect.send ++ δ ++ [.advanceApply] ∧
    ∀ e ∈ δ, Effect.IsApply e

/-- The node after a call that failed while it sent and advanced. -/
structure AdvanceFailed (io : ReadyIo) (n n' : RaftNode σ Event S) : Prop where
  refused : ¬ (CanSend io n.peers ∧ AcceptsLight io ∧ (commitReady io n.store).1 = .ok ())
  trace : Extends Effect.IsAdvancing n n'
  fault : CanSend io n.peers → AcceptsLight io → ∃ e, Effect.storageFailed e ∈ n'.trace

/-- The node when all messages are sent and the commit index is stored. -/
def afterSending (io : ReadyIo) (n : RaftNode σ Event S) : RaftNode σ Event S :=
  { n with
    store := (commitReady io n.store).2
    trace := n.trace ++ (io.ready.messages ++ io.ready.persistedMessages).map Effect.send ++
      [.advanceAppend] ++ io.lightReady.messages.map Effect.send }

theorem advance_next {io : ReadyIo} {n : RaftNode σ Event S} (hsend : CanSend io n.peers)
    (hacc : AcceptsLight io) (hcommit : (commitReady io n.store).1 = .ok ()) :
    ∃ n', Step.block (sendReady io ++ advanceReady io) n = (.next, n') ∧ AfterAdvance io n n' := by
  have h₁ := sendAll_next hsend.messages
  set n₁ := n.emitAll (io.ready.messages.map Effect.send) with hn₁
  have h₂ := sendAll_next (n := n₁) hsend.persisted
  set n₂ := n₁.emitAll (io.ready.persistedMessages.map Effect.send) with hn₂
  have h₃ : advance .advanceAppend n₂ = (.next, n₂.emit .advanceAppend) := rfl
  have h₄ : updateCommit io (n₂.emit .advanceAppend) =
      (.next, (n₂.emit .advanceAppend).withStore (commitReady io n.store).2) := by
    rw [updateCommit_eq]
    exact writeStore_ok hcommit
  set n₄ := (n₂.emit .advanceAppend).withStore (commitReady io n.store).2 with hn₄
  have h₅ := sendAll_next (n := n₄) hsend.light
  -- up to here only the store and the trace have changed
  have hn₅ : n₄.emitAll (io.lightReady.messages.map Effect.send) = n.afterSending io := by
    simp [hn₄, hn₂, hn₁, emit, emitAll, withStore, afterSending]
  rw [hn₅] at h₅
  obtain ⟨n₆, h₆, ha⟩ := applyCommitted_after hacc (n.afterSending io)
  have h₇ : advance .advanceApply n₆ = (.next, n₆.emit .advanceApply) := rfl
  refine ⟨n₆.emit .advanceApply, ?_, ?_⟩
  · rw [sendReady, advanceReady, List.cons_append, List.cons_append, List.nil_append,
      Step.block_cons_of_next h₁, Step.block_cons_of_next h₂, Step.block_cons_of_next h₃,
      Step.block_cons_of_next h₄, Step.block_cons_of_next h₅, Step.block_cons_of_next h₆,
      Step.block_cons_of_next h₇, Step.block_nil]
  · have happ₅ : appliedEntries (n.afterSending io).trace = appliedEntries n.trace := by
      simp [afterSending, appliedEntries, List.filterMap_append, List.filterMap_map]
    obtain ⟨δ, hδ, hap⟩ := ha.frame.trace
    refine ⟨hsend, hacc, hcommit, ha.frame.nodeId, ha.frame.currentRole,
      ha.frame.snapshotInterval, ha.frame.lastSnapshotIndex, ha.frame.store, ha.stateMachine,
      ha.committedIndex, ha.peers, ?_, δ, ?_, hap⟩
    · have happ := ha.applied
      rw [happ₅] at happ
      rw [← happ]
      simp [appliedEntries, emit, List.filterMap_append]
    · rw [emit, hδ]
      rfl

/-- None of the statements returns early, and none stores a snapshot. -/
theorem advancing (io : ReadyIo) :
    ∀ step ∈ sendReady io ++ advanceReady io, ∀ n : RaftNode σ Event S,
      (step n).1 ≠ .returned ∧ Extends Effect.IsAdvancing n (step n).2 := by
  intro step hstep n
  simp only [sendReady, advanceReady, List.cons_append, List.nil_append, List.mem_cons,
    List.not_mem_nil, or_false] at hstep
  rcases hstep with rfl | rfl | rfl | rfl | rfl | rfl | rfl
  · exact sendAll_advancing _ _ n
  · exact sendAll_advancing _ _ n
  · exact ⟨by simp [advance, Step.modify], extends_emit trivial⟩
  · rw [updateCommit_eq]
    exact writeStore_advancing _ n
  · exact sendAll_advancing _ _ n
  · exact applyCommitted_advancing io _ n
  · exact ⟨by simp [advance, Step.modify], extends_emit trivial⟩

/-- Reaching the end takes every condition. -/
theorem conditions_of_advance_next {io : ReadyIo} {n n' : RaftNode σ Event S}
    (h : Step.block (sendReady io ++ advanceReady io) n = (.next, n')) :
    CanSend io n.peers ∧ AcceptsLight io ∧ (commitReady io n.store).1 = .ok () := by
  simp only [sendReady, advanceReady, List.cons_append, List.nil_append,
    Step.block_cons_next] at h
  obtain ⟨n₁, h₁, n₂, h₂, n₃, h₃, n₄, h₄, n₅, h₅, n₆, h₆, -⟩ := h
  obtain ⟨hd₁, rfl⟩ := sendAll_next_iff.mp h₁
  obtain ⟨hd₂, rfl⟩ := sendAll_next_iff.mp h₂
  obtain rfl : _ = n₃ := congrArg Prod.snd h₃
  rw [updateCommit_eq] at h₄
  obtain ⟨hc, rfl⟩ := writeStore_next_iff.mp h₄
  obtain ⟨hd₃, rfl⟩ := sendAll_next_iff.mp h₅
  exact ⟨⟨hd₁, hd₂, hd₃⟩, accepted_of_applyCommitted_next h₆, hc⟩

theorem afterAdvance_of_next {io : ReadyIo} {n n' : RaftNode σ Event S}
    (h : Step.block (sendReady io ++ advanceReady io) n = (.next, n')) : AfterAdvance io n n' := by
  obtain ⟨hsend, hacc, hcommit⟩ := conditions_of_advance_next h
  obtain ⟨n₁, h₁, hafter⟩ := advance_next hsend hacc hcommit
  rw [h] at h₁
  obtain rfl := (Prod.mk.inj h₁).2
  exact hafter

theorem advance_failed {io : ReadyIo} {n : RaftNode σ Event S}
    (h : ¬ (CanSend io n.peers ∧ AcceptsLight io ∧ (commitReady io n.store).1 = .ok ())) :
    ∃ err n', Step.block (sendReady io ++ advanceReady io) n = (.failed err, n') ∧
      AdvanceFailed io n n' := by
  have hret := Step.block_ne_returned
    (fun step hstep m => (advancing (σ := σ) (S := S) io step hstep m).1) n
  have htrace : Extends Effect.IsAdvancing n (Step.block (sendReady io ++ advanceReady io) n).2 :=
    Step.block_rel Extends.refl (fun _ _ _ => Extends.trans)
      (fun step hstep m => (advancing io step hstep m).2) n
  rcases hblock : Step.block (sendReady io ++ advanceReady io) n with ⟨_ | _ | err, n'⟩
  · exact absurd (conditions_of_advance_next hblock) h
  · rw [hblock] at hret
    exact absurd rfl hret
  · rw [hblock] at htrace
    refine ⟨err, n', rfl, h, htrace, ?_⟩
    intro hsend hacc
    -- only the commit index is left to refuse
    have hc : (commitReady io n.store).1 ≠ .ok () := fun hc => h ⟨hsend, hacc, hc⟩
    set n₂ := (n.emitAll (io.ready.messages.map Effect.send)).emitAll
      (io.ready.persistedMessages.map Effect.send) with hn₂
    have h₂ : sendAll io.sendPersisted io.ready.persistedMessages
        (n.emitAll (io.ready.messages.map Effect.send)) = (.next, n₂) :=
      sendAll_next hsend.persisted
    have h₃ : advance .advanceAppend n₂ = (.next, n₂.emit .advanceAppend) := rfl
    have hc₃ : (commitReady io (n₂.emit .advanceAppend).store).1 ≠ .ok () := hc
    obtain ⟨e, he⟩ := writeStore_failed hc₃
    rw [← updateCommit_eq] at he
    rw [sendReady, advanceReady, List.cons_append, List.cons_append, List.nil_append,
      Step.block_cons_of_next (sendAll_next hsend.messages), Step.block_cons_of_next h₂,
      Step.block_cons_of_next h₃, Step.block_cons_of_failed he] at hblock
    obtain rfl := congrArg Prod.snd hblock
    exact ⟨e, by simp [emit]⟩

/-! ## The whole call -/

/-- The storage once a ready was taken. -/
def takenStore (io : ReadyIo) (s : S) : S :=
  (hardStateReady io (appendReady io (restoreStore io s)).2).2

/-- The call gets as far as step 13. -/
structure ReachesSnapshot (io : ReadyIo) (n : RaftNode σ Event S) : Prop where
  ready : io.hasReady
  accepts : AcceptsReady io
  persists : Persists io n.store
  noPreCandidate : ¬ AnnouncesPreCandidate io n.currentRole
  canSend : CanSend io (peersAfter io.ready.committedEntries n.peers)
  acceptsLight : AcceptsLight io
  commits : (commitReady io (takenStore io n.store)).1 = .ok ()

/-- The node when step 13 starts. -/
structure BeforeSnapshot (io : ReadyIo) (n n' : RaftNode σ Event S) : Prop where
  accepts : AcceptsReady io
  persists : Persists io n.store
  noPreCandidate : ¬ AnnouncesPreCandidate io n.currentRole
  canSend : CanSend io (peersAfter io.ready.committedEntries n.peers)
  acceptsLight : AcceptsLight io
  commits : (commitReady io (takenStore io n.store)).1 = .ok ()
  nodeId : n'.nodeId = n.nodeId
  snapshotInterval : n'.snapshotInterval = n.snapshotInterval
  store : n'.store = (commitReady io (takenStore io n.store)).2
  stateMachine : n'.stateMachine = replay (restoredMachine io n.stateMachine) io.handedOut
  committedIndex : n'.committedIndex = lastCommandIndex io.handedOut n.committedIndex
  lastSnapshotIndex : n'.lastSnapshotIndex = restoredIndex io n.lastSnapshotIndex
  peers : n'.peers = peersAfter io.handedOut n.peers
  applied : appliedEntries n'.trace =
    appliedEntries n.trace ++ io.handedOut.filter Entry.isCommand
  trace : ∃ δ₁ δ₂, n'.trace = n.trace ++ restoreEffects io n.store ++ δ₁ ++
      (io.ready.messages ++ io.ready.persistedMessages).map Effect.send ++ [.advanceAppend] ++
      io.lightReady.messages.map Effect.send ++ δ₂ ++ [.advanceApply] ∧
    (∀ e ∈ δ₁, Effect.IsApply e ∨ Effect.IsRole e) ∧ ∀ e ∈ δ₂, Effect.IsApply e

/-- The node after a call that failed between steps 6 and 12. -/
structure SendingFailed (io : ReadyIo) (n n' : RaftNode σ Event S) : Prop where
  accepts : AcceptsReady io
  noPreCandidate : ¬ AnnouncesPreCandidate io n.currentRole
  refused : ¬ (CanSend io (peersAfter io.ready.committedEntries n.peers) ∧ AcceptsLight io ∧
    (commitReady io (takenStore io n.store)).1 = .ok ())
  trace : ∃ δ, n'.trace = n.trace ++ restoreEffects io n.store ++ δ ∧
    ∀ e ∈ δ, Effect.IsAdvancing e ∨ Effect.IsRole e
  fault : CanSend io (peersAfter io.ready.committedEntries n.peers) → AcceptsLight io →
    ∃ e, Effect.storageFailed e ∈ n'.trace

/-- The ways a call of `on_ready` on a ready can go. -/
inductive OnReadyRun (io : ReadyIo) (n : RaftNode σ Event S) :
    Outcome NodeError → RaftNode σ Event S → Prop where
  | takeFailed (err : NodeError) (n' : RaftNode σ Event S) (h : TakeFailed io n n') :
      OnReadyRun io n (.failed err) n'
  | preCandidate (n' : RaftNode σ Event S) (take : AfterTake io n n')
      (pre : AnnouncesPreCandidate io n.currentRole) : OnReadyRun io n .returned n'
  | sendingFailed (err : NodeError) (n' : RaftNode σ Event S) (h : SendingFailed io n n') :
      OnReadyRun io n (.failed err) n'
  | snapshotFailed (n₁ : RaftNode σ Event S) (err : NodeError) (n' : RaftNode σ Event S)
      (before : BeforeSnapshot io n n₁) (h : SnapshotRun io n₁ (.failed err) n') :
      OnReadyRun io n (.failed err) n'
  | finished (n₁ n₂ n' : RaftNode σ Event S) (before : BeforeSnapshot io n n₁)
      (snap : SnapshotRun io n₁ .next n₂) (watch : Notifies n₂ n') : OnReadyRun io n .next n'

theorem beforeSnapshot {io : ReadyIo} {n n₁ n₂ n₃ : RaftNode σ Event S} {δ : List (Effect Event S)}
    {r : StateRole} (htake : AfterTake io n n₁) (hpre : ¬ AnnouncesPreCandidate io n.currentRole)
    (hrole : n₂ = { n₁ with currentRole := r, trace := n₁.trace ++ δ })
    (hδ : ∀ e ∈ δ, Effect.IsRole e) (hadv : AfterAdvance io n₂ n₃) : BeforeSnapshot io n n₃ := by
  have hpeers : n₂.peers = peersAfter io.ready.committedEntries n.peers := by
    rw [hrole]
    exact htake.peers
  have hstore : n₂.store = takenStore io n.store := by
    rw [hrole]
    exact htake.store
  have hcanSend := hadv.canSend
  have hcommits := hadv.commits
  rw [hpeers] at hcanSend
  rw [hstore] at hcommits
  -- a change of role applies no entry
  have happ₂ : appliedEntries n₂.trace = appliedEntries n₁.trace := by
    have hext : Extends Effect.IsRole n₁ n₂ := ⟨δ, by rw [hrole], hδ⟩
    refine hext.filterMap_eq ?_
    intro e he
    cases e <;> trivial
  refine ⟨htake.accepts, htake.persists, hpre, hcanSend, hadv.accepts, hcommits, ?_, ?_, ?_, ?_,
    ?_, ?_, ?_, ?_, ?_⟩
  · rw [hadv.nodeId, hrole]
    exact htake.nodeId
  · rw [hadv.snapshotInterval, hrole]
    exact htake.snapshotInterval
  · rw [hadv.store, hstore]
  · have hsm : n₂.stateMachine = n₁.stateMachine := by rw [hrole]
    rw [hadv.stateMachine, hsm, htake.stateMachine, ReadyIo.handedOut, replay, replay, replay,
      List.foldl_append]
  · have hc : n₂.committedIndex = n₁.committedIndex := by rw [hrole]
    rw [hadv.committedIndex, hc, htake.committedIndex, ReadyIo.handedOut, lastCommandIndex,
      lastCommandIndex, lastCommandIndex, List.foldl_append]
  · rw [hadv.lastSnapshotIndex, hrole]
    exact htake.lastSnapshotIndex
  · rw [hadv.peers, hpeers, ReadyIo.handedOut, peersAfter, peersAfter, peersAfter,
      List.foldl_append]
  · rw [hadv.applied, happ₂, htake.applied, ReadyIo.handedOut, List.filter_append,
      List.append_assoc]
  · obtain ⟨δ₁, h₁, hap₁⟩ := htake.trace
    obtain ⟨δ₂, h₂, hap₂⟩ := hadv.trace
    refine ⟨δ₁ ++ δ, δ₂, ?_, ?_, hap₂⟩
    · rw [h₂, hrole]
      simp only [h₁, List.append_assoc]
    · intro e he
      rcases List.mem_append.mp he with he | he
      · exact Or.inl (hap₁ e he)
      · exact Or.inr (hδ e he)

theorem sendingFailed {io : ReadyIo} {n n₁ n₂ n₃ : RaftNode σ Event S} {δ : List (Effect Event S)}
    {r : StateRole} (htake : AfterTake io n n₁) (hpre : ¬ AnnouncesPreCandidate io n.currentRole)
    (hrole : n₂ = { n₁ with currentRole := r, trace := n₁.trace ++ δ })
    (hδ : ∀ e ∈ δ, Effect.IsRole e) (hadv : AdvanceFailed io n₂ n₃) : SendingFailed io n n₃ := by
  have hpeers : n₂.peers = peersAfter io.ready.committedEntries n.peers := by
    rw [hrole]
    exact htake.peers
  have hstore : n₂.store = takenStore io n.store := by
    rw [hrole]
    exact htake.store
  have hrefused := hadv.refused
  have hfault := hadv.fault
  rw [hpeers, hstore] at hrefused
  rw [hpeers] at hfault
  refine ⟨htake.accepts, hpre, hrefused, ?_, hfault⟩
  obtain ⟨δ₁, h₁, hap₁⟩ := htake.trace
  obtain ⟨δ₂, h₂, hap₂⟩ := hadv.trace
  -- what was applied, the role, and what was sent before the failure
  refine ⟨δ₁ ++ δ ++ δ₂, ?_, ?_⟩
  · rw [h₂, hrole]
    simp only [h₁, List.append_assoc]
  · intro e he
    rcases List.mem_append.mp he with he | he
    · rcases List.mem_append.mp he with he | he
      · have hap := hap₁ e he
        refine Or.inl ?_
        cases e <;> trivial
      · exact Or.inr (hδ e he)
    · exact Or.inl (hap₂ e he)

/-- Every call on a ready is one of the ways. -/
theorem onReady_run {io : ReadyIo} (hready : io.hasReady) (n : RaftNode σ Event S) :
    OnReadyRun io n (onReady io n).1 (onReady io n).2 := by
  have hcall : onReady io n = Step.block (readySteps io) n := by rw [onReady, if_pos hready]
  rw [hcall, readySteps]
  -- which of the statements is the first that does not go on
  by_cases htake : AcceptsReady io ∧ Persists io n.store
  · obtain ⟨n₁, h₁, ha⟩ := takeReady_next htake.1 htake.2
    rw [Step.block_append h₁]
    by_cases hpre : AnnouncesPreCandidate io n₁.currentRole
    · rw [List.singleton_append, Step.block_cons_of_returned (changeRole_returned hpre)]
      rw [ha.currentRole] at hpre
      exact .preCandidate n₁ ha hpre
    · obtain ⟨r, δ, h₂, hδ⟩ := changeRole_next hpre
      rw [ha.currentRole] at hpre
      rw [List.singleton_append, Step.block_cons_of_next h₂, ← List.append_assoc]
      set n₂ : RaftNode σ Event S := { n₁ with currentRole := r, trace := n₁.trace ++ δ } with hn₂
      by_cases hadv : CanSend io n₂.peers ∧ AcceptsLight io ∧ (commitReady io n₂.store).1 = .ok ()
      · obtain ⟨n₃, h₃, hafter⟩ := advance_next hadv.1 hadv.2.1 hadv.2.2
        have hbefore := beforeSnapshot ha hpre hn₂ hδ hafter
        rw [Step.block_append h₃]
        have hsnap := maybeCreateSnapshot_run io n₃
        rcases h₄ : maybeCreateSnapshot io n₃ with ⟨_ | _ | err, n₄⟩
        · rw [h₄] at hsnap
          obtain ⟨n₅, h₅, hwatch⟩ := checkFollowerProgress_next io n₄
          rw [Step.block_cons_of_next h₄, Step.block_cons_of_next h₅, Step.block_nil]
          exact .finished n₃ n₄ n₅ hbefore hsnap hwatch
        · rw [h₄] at hsnap
          exact absurd hsnap (by rintro ⟨⟩)
        · rw [h₄] at hsnap
          rw [Step.block_cons_of_failed h₄]
          exact .snapshotFailed n₃ err n₄ hbefore hsnap
      · obtain ⟨err, n₃, h₃, hfailed⟩ := advance_failed hadv
        rw [Step.block_append_of_ne_next (by rw [h₃]; simp), h₃]
        exact .sendingFailed err n₃ (sendingFailed ha hpre hn₂ hδ hfailed)
  · obtain ⟨err, n₁, h₁, hfailed⟩ := takeReady_failed htake
    rw [Step.block_append_of_ne_next (by rw [h₁]; simp), h₁]
    exact .takeFailed err n₁ hfailed

theorem BeforeSnapshot.reaches {io : ReadyIo} {n n' : RaftNode σ Event S} (hready : io.hasReady)
    (h : BeforeSnapshot io n n') : ReachesSnapshot io n :=
  ⟨hready, h.accepts, h.persists, h.noPreCandidate, h.canSend, h.acceptsLight, h.commits⟩

theorem BeforeSnapshot.extends {io : ReadyIo} {n n' : RaftNode σ Event S}
    (h : BeforeSnapshot io n n') : Extends (fun _ => True) n n' := by
  obtain ⟨δ₁, δ₂, hδ, -, -⟩ := h.trace
  simp only [List.append_assoc] at hδ
  exact ⟨_, hδ, fun _ _ => trivial⟩

/-- A call only appends to the trace. -/
theorem onReady_extends (io : ReadyIo) (n : RaftNode σ Event S) :
    Extends (fun _ => True) n (onReady io n).2 := by
  by_cases hready : io.hasReady
  · have hrun := onReady_run hready n
    generalize (onReady io n).1 = out at hrun
    generalize (onReady io n).2 = n' at hrun
    cases hrun with
    | takeFailed err n' h =>
      obtain ⟨δ, hδ, -⟩ := h.trace
      exact ⟨_, by rw [hδ, List.append_assoc], by simp⟩
    | preCandidate n' take pre =>
      obtain ⟨δ, hδ, -⟩ := take.trace
      exact ⟨_, by rw [hδ, List.append_assoc], by simp⟩
    | sendingFailed err n' h =>
      obtain ⟨δ, hδ, -⟩ := h.trace
      exact ⟨_, by rw [hδ, List.append_assoc], by simp⟩
    | snapshotFailed n₁ err n' before h =>
      exact before.extends.trans (h.extends.imp fun _ _ => trivial)
    | finished n₁ n₂ n' before snap watch =>
      have hwatch := watch.frame.trace.imp (q := fun _ => True) fun _ _ => trivial
      exact (before.extends.trans (snap.extends.imp fun _ _ => trivial)).trans hwatch
  · rw [onReady, if_neg hready]
    exact Extends.refl n

end

end RaftNode

end Raftoral

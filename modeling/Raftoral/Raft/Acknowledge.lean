import Raftoral.Raft.Delivery

/-!
# What a ready acknowledges

The persisted messages of a ready tell the leader that the node has stored the ready, and
`advance_append` tells raft-rs the same. Steps 3 and 4 end the call when they cannot write.
Step 1 does not: a snapshot that cannot be restored or stored is logged, and the call goes on
to acknowledge it.
-/

namespace Raftoral

namespace RaftNode

variable {σ Command Event S : Type}

/-! ## Going beyond step 6 -/

/-- Since the state `n` more was sent than the messages of step 6, or `advance_append` was
called. The messages of step 6 are sent first, so any other is one of step 7 or later. -/
def AcknowledgedSince (io : ReadyIo) (n n' : RaftNode σ Event S) : Prop :=
  (sentMessages n.trace).length + io.ready.messages.length < (sentMessages n'.trace).length ∨
    (advances n.trace).1 < (advances n'.trace).1

theorem AcknowledgedSince.extends {io : ReadyIo} {n n₁ n₂ : RaftNode σ Event S}
    (h : AcknowledgedSince io n n₁) (hext : Extends (fun _ => True) n₁ n₂) :
    AcknowledgedSince io n n₂ := by
  obtain ⟨δ, hδ, -⟩ := hext
  unfold AcknowledgedSince at h ⊢
  rw [hδ, sentMessages_append, advances_append, List.length_append]
  rcases h with h | h
  · exact Or.inl (by omega)
  · exact Or.inr (by dsimp only; omega)

/-- Nothing but some of the messages of step 6 was sent. -/
theorem not_acknowledgedSince {io : ReadyIo} {n n' : RaftNode σ Event S}
    {δ : List (Effect Event S)} {msgs : List Message} (hδ : ∀ e ∈ δ, Effect.IsQuiet e)
    (hmsgs : msgs.length ≤ io.ready.messages.length)
    (htrace : n'.trace = n.trace ++ δ ++ msgs.map Effect.send) : ¬ AcknowledgedSince io n n' := by
  unfold AcknowledgedSince
  rw [htrace, sentMessages_append, sentMessages_append, sentMessages_map_send,
    sentMessages_quiet hδ, advances_append, advances_append, advances_map_send, advances_quiet hδ]
  simp only [List.append_nil, List.length_append, Nat.add_zero]
  omega

theorem not_acknowledgedSince_of_quiet {io : ReadyIo} {n n' : RaftNode σ Event S}
    (h : Extends Effect.IsQuiet n n') : ¬ AcknowledgedSince io n n' := by
  obtain ⟨δ, hδ, hquiet⟩ := h
  exact not_acknowledgedSince hquiet (Nat.zero_le _)
    (show n'.trace = n.trace ++ δ ++ List.map Effect.send [] by rw [hδ]; simp)

/-- However it ends, the loop over messages has passed a first part of them to the transport,
and at least one if there is one. -/
theorem forEach_send_snd (answers : SendAnswers) (ms : List (Message × ℕ))
    (n : RaftNode σ Event S) :
    ∃ k ≤ ms.length, (ms ≠ [] → 0 < k) ∧
      (Step.forEach ms (fun m => sendRaftMessage (answers m.2) m.1) n).2 =
        n.emitAll ((ms.take k).map fun m => Effect.send m.1) := by
  induction ms generalizing n with
  | nil => exact ⟨0, le_rfl, by simp, by simp [emitAll]⟩
  | cons m ms ih =>
    by_cases hm : (n.peers m.1.target).isSome ∧ answers m.2 = .ok ()
    · have hnext : sendRaftMessage (answers m.2) m.1 n = (.next, n.emit (.send m.1)) :=
        sendRaftMessage_ok hm
      obtain ⟨k, hk, -, hrest⟩ := ih (n.emit (.send m.1))
      refine ⟨k + 1, by simpa using hk, by simp, ?_⟩
      rw [Step.forEach] at hrest
      rw [Step.forEach, List.map_cons, Step.block_cons_of_next hnext, hrest]
      simp [emit, emitAll]
    · obtain ⟨err, herr⟩ := sendRaftMessage_failed hm
      refine ⟨1, by simp, by simp, ?_⟩
      rw [Step.forEach, List.map_cons, Step.block_cons_of_failed herr]
      simp [emit, emitAll]

theorem sendAll_snd (answers : SendAnswers) (msgs : List Message) (n : RaftNode σ Event S) :
    ∃ k ≤ msgs.length, (msgs ≠ [] → 0 < k) ∧
      (sendAll answers msgs n).2 = n.emitAll ((msgs.take k).map Effect.send) := by
  obtain ⟨k, hk, hpos, hsend⟩ := forEach_send_snd answers msgs.zipIdx n
  refine ⟨k, by simpa using hk, fun h => hpos (by simpa using h), ?_⟩
  have hmap : ((msgs.zipIdx.take k).map fun m => (Effect.send m.1 : Effect Event S)) =
      (msgs.take k).map Effect.send := by
    conv_rhs => rw [← List.zipIdx_map_fst 0 msgs, ← List.map_take, List.map_map]
    rfl
  rw [sendAll, hsend, hmap]

section
variable [ProstMessage ConfChange] [SerdeJson NodeMetadata] [StateMachine σ Command Event]
  [SerdeJson Command] [RaftStorage S]

/-- The call gets as far as step 7. -/
structure ReachesPersisted (io : ReadyIo) (n : RaftNode σ Event S) : Prop where
  ready : io.hasReady
  accepts : AcceptsReady io
  persists : Persists io n.store
  noPreCandidate : ¬ AnnouncesPreCandidate io n.currentRole
  canSend : Deliverable io.sendMessages (peersAfter io.ready.committedEntries n.peers)
    io.ready.messages

/-- A message of `persisted_messages` is passed to the transport, or `advance_append` is
called. -/
def Acknowledges (io : ReadyIo) (n : RaftNode σ Event S) : Prop :=
  AcknowledgedSince io n (onReady io n).2

/-- Steps 7 to 14. -/
def stepsFromPersisted (io : ReadyIo) : List (Step (RaftNode σ Event S) NodeError) :=
  sendAll io.sendPersisted io.ready.persistedMessages ::
    (advanceReady io ++ [maybeCreateSnapshot io, checkFollowerProgress io])

/-- The statements behind `advance_append` only append to the trace. -/
theorem stepsFromPersisted_extends (io : ReadyIo) :
    ∀ step ∈ stepsFromPersisted io, ∀ n : RaftNode σ Event S,
      Extends (fun _ => True) n (step n).2 := by
  intro step hstep n
  have hmem : step ∈ sendReady io ++ advanceReady io ∨ step = maybeCreateSnapshot io ∨
      step = checkFollowerProgress io := by
    simp only [stepsFromPersisted, sendReady, List.mem_cons, List.mem_append,
      List.not_mem_nil, or_false] at hstep ⊢
    tauto
  rcases hmem with hmem | rfl | rfl
  · exact (advancing io step hmem n).2.imp fun _ _ => trivial
  · exact (maybeCreateSnapshot_run io n).extends.imp fun _ _ => trivial
  · obtain ⟨n', h, hwatch⟩ := checkFollowerProgress_next io n
    rw [h]
    exact hwatch.frame.trace.imp fun _ _ => trivial

/-- From step 7 on something is acknowledged at once: the first persisted message goes to the
transport, or there is none and `advance_append` is called. -/
theorem acknowledged_fromPersisted {io : ReadyIo} {n m : RaftNode σ Event S}
    (hsent : (sentMessages m.trace).length =
      (sentMessages n.trace).length + io.ready.messages.length)
    (hadv : (advances m.trace).1 = (advances n.trace).1) :
    AcknowledgedSince io n (Step.block (stepsFromPersisted io) m).2 := by
  have hextends : ∀ (steps : List (Step (RaftNode σ Event S) NodeError)),
      steps ⊆ stepsFromPersisted io → ∀ m, Extends (fun _ => True) m (Step.block steps m).2 :=
    fun steps hsub m => Step.block_rel Extends.refl (fun _ _ _ => Extends.trans)
      (fun step hstep => stepsFromPersisted_extends io step (hsub hstep)) m
  obtain ⟨k, -, hpos, hsend⟩ := sendAll_snd io.sendPersisted io.ready.persistedMessages m
  by_cases hmsgs : io.ready.persistedMessages = []
  · have h₁ : sendAll io.sendPersisted io.ready.persistedMessages m = (.next, m) := by
      rw [hmsgs]
      rfl
    have h₂ : advance .advanceAppend m = (.next, m.emit .advanceAppend) := rfl
    have hack : AcknowledgedSince io n (m.emit .advanceAppend) := by
      refine Or.inr ?_
      have hone : advances ([.advanceAppend] : List (Effect Event S)) = (1, 0) := rfl
      rw [emit, advances_append, hone, hadv]
      exact Nat.lt_succ_self _
    rw [stepsFromPersisted, advanceReady, List.cons_append, Step.block_cons_of_next h₁,
      Step.block_cons_of_next h₂]
    refine hack.extends (hextends _ ?_ _)
    intro step hstep
    exact List.mem_cons_of_mem _ (List.mem_cons_of_mem _ hstep)
  · have hack : AcknowledgedSince io n (sendAll io.sendPersisted io.ready.persistedMessages m).2 := by
      refine Or.inl ?_
      have hlen : 0 < (io.ready.persistedMessages.take k).length := by
        rw [List.length_take]
        exact Nat.lt_min.mpr ⟨hpos hmsgs, List.length_pos_iff.mpr hmsgs⟩
      rw [hsend, emitAll, sentMessages_append, sentMessages_map_send, List.length_append]
      omega
    refine Step.block_append_inv [sendAll io.sendPersisted io.ready.persistedMessages] ?_ ?_
    · rw [Step.block_singleton]
      exact hack
    · intro m' _ hack'
      refine hack'.extends (hextends _ ?_ _)
      intro step hstep
      exact List.mem_cons_of_mem _ hstep

omit [SerdeJson NodeMetadata] in
theorem TakeFailed.quiet {io : ReadyIo} {n n' : RaftNode σ Event S} (h : TakeFailed io n n') :
    Extends Effect.IsQuiet n n' := by
  obtain ⟨δ, hδ, hkind, -⟩ := h.trace
  refine ⟨restoreEffects io n.store ++ δ, by rw [hδ, List.append_assoc], ?_⟩
  intro e he
  rcases List.mem_append.mp he with he | he
  · exact restoreEffects_quiet io n.store e he
  · rcases hkind e he with hk | hk
    · exact isQuiet_of_isApply hk
    · cases e <;> trivial

/-- From step 6 on: nothing was sent so far, and something is acknowledged exactly when all messages
of step 6 are delivered. -/
theorem acknowledged_fromMessages_iff {io : ReadyIo} {n m : RaftNode σ Event S}
    (h : Extends Effect.IsQuiet n m) :
    AcknowledgedSince io n
        (Step.block (sendAll io.sendMessages io.ready.messages :: stepsFromPersisted io) m).2 ↔
      Deliverable io.sendMessages m.peers io.ready.messages := by
  obtain ⟨δ, hδ, hquiet⟩ := h
  by_cases hsend : Deliverable io.sendMessages m.peers io.ready.messages
  · rw [Step.block_cons_of_next (sendAll_next hsend)]
    refine ⟨fun _ => hsend, fun _ => acknowledged_fromPersisted ?_ ?_⟩
    · rw [emitAll, hδ, sentMessages_append, sentMessages_append, sentMessages_map_send,
        sentMessages_quiet hquiet, List.append_nil, List.length_append]
    · rw [emitAll, hδ, advances_append, advances_append, advances_map_send, advances_quiet hquiet]
      rfl
  · obtain ⟨k, hk, -, hsnd⟩ := sendAll_snd io.sendMessages io.ready.messages m
    obtain ⟨err, δ', hfailed, -⟩ := sendAll_failed hsend
    rw [hfailed] at hsnd
    refine ⟨fun h => ?_, fun h => absurd h hsend⟩
    rw [Step.block_cons_of_failed hfailed, hsnd] at h
    have hshort : (io.ready.messages.take k).length ≤ io.ready.messages.length := by
      rw [List.length_take]
      exact Nat.min_le_right _ _
    refine absurd h (not_acknowledgedSince hquiet hshort ?_)
    rw [emitAll, hδ]

/-- A call acknowledges its ready exactly when it gets as far as step 7. -/
theorem acknowledges_iff (io : ReadyIo) (n : RaftNode σ Event S) :
    Acknowledges io n ↔ ReachesPersisted io n := by
  by_cases hready : io.hasReady
  swap
  · have hcall : (onReady io n).2 = n := by rw [onReady, if_neg hready]
    refine ⟨fun h => ?_, fun h => absurd h.ready hready⟩
    rw [Acknowledges, hcall] at h
    exact absurd h (not_acknowledgedSince_of_quiet (Extends.refl n))
  have hcall : onReady io n = Step.block (readySteps io) n := by rw [onReady, if_pos hready]
  rw [Acknowledges, hcall, readySteps]
  by_cases htake : AcceptsReady io ∧ Persists io n.store
  swap
  · obtain ⟨err, n₁, h₁, hfailed⟩ := takeReady_failed htake
    refine ⟨fun h => ?_, fun h => absurd ⟨h.accepts, h.persists⟩ htake⟩
    rw [Step.block_append_of_ne_next (by rw [h₁]; simp), h₁] at h
    exact absurd h (not_acknowledgedSince_of_quiet hfailed.quiet)
  obtain ⟨n₁, h₁, ha⟩ := takeReady_next htake.1 htake.2
  rw [Step.block_append h₁, List.singleton_append]
  by_cases hpre : AnnouncesPreCandidate io n₁.currentRole
  · rw [Step.block_cons_of_returned (changeRole_returned hpre)]
    rw [ha.currentRole] at hpre
    exact ⟨fun h => absurd h (not_acknowledgedSince_of_quiet ha.quiet),
      fun h => absurd hpre h.noPreCandidate⟩
  obtain ⟨r, δ, h₂, hrole⟩ := changeRole_next hpre
  rw [ha.currentRole] at hpre
  set n₂ : RaftNode σ Event S := { n₁ with currentRole := r, trace := n₁.trace ++ δ } with hn₂
  have hquiet : Extends Effect.IsQuiet n n₂ :=
    ha.quiet.trans ⟨δ, rfl, fun e he => isQuiet_of_isRole (hrole e he)⟩
  have hpeers : n₂.peers = peersAfter io.ready.committedEntries n.peers := ha.peers
  have hsteps : sendReady io ++ (advanceReady io ++
      [maybeCreateSnapshot io, checkFollowerProgress io]) =
      sendAll io.sendMessages io.ready.messages :: stepsFromPersisted (σ := σ) (S := S) io := rfl
  rw [Step.block_cons_of_next h₂, hsteps, acknowledged_fromMessages_iff hquiet, hpeers]
  exact ⟨fun hsend => ⟨hready, htake.1, htake.2, hpre, hsend⟩, fun h => h.canSend⟩

/-! ## Nothing is acknowledged that was not stored -/

/-- The snapshot of the ready can be restored into the state machine and stored. -/
def SnapshotTaken (io : ReadyIo) (n : RaftNode σ Event S) : Prop :=
  io.ready.snapshot.isEmpty ∨
    (StateMachine.restore n.stateMachine io.ready.snapshot.data).1 = .ok () ∧
      (RaftStorage.applySnapshotWithData io.restoreFaults n.store io.ready.snapshot).1 = .ok ()

/-- What a ready brings was restored and written. -/
structure Stored (io : ReadyIo) (n : RaftNode σ Event S) : Prop where
  snapshot : SnapshotTaken io n
  entries : (appendReady io (restoreStore io n.store)).1 = .ok ()
  hardState : (hardStateReady io (appendReady io (restoreStore io n.store)).2).1 = .ok ()

/-- A ready is acknowledged only if it was stored, exactly when its snapshot can be taken or
the call does not get as far as step 7. -/
theorem acknowledges_stored_iff (io : ReadyIo) (n : RaftNode σ Event S) :
    (Acknowledges io n → Stored io n) ↔ (SnapshotTaken io n ∨ ¬ ReachesPersisted io n) := by
  rw [acknowledges_iff]
  constructor
  · intro h
    by_cases hreach : ReachesPersisted io n
    · exact Or.inl (h hreach).snapshot
    · exact Or.inr hreach
  · rintro (hsnapshot | hno) hreach
    · exact ⟨hsnapshot, hreach.persists.1, hreach.persists.2⟩
    · exact absurd hreach hno

end

section
open scoped Codec

/-- A ready that brings a snapshot, and the answer that tells the leader it was stored. -/
def snapshotAnswer (data : Bytes) : ReadyIo where
  ready :=
    { snapshot := { data := data, metadata := { index := 5, term := 2, confState := { voters := [1, 2] } } }
      persistedMessages := [{ msgType := 4, target := 2, sender := 1, term := 2 }] }
  applyConfChange _ := .error "no configuration change"

theorem snapshotAnswer_reaches (data : Bytes) (store : RocksDBStorage) :
    ReachesPersisted (snapshotAnswer data) (newWithConfState {} (fun _ => some "peer") {}
      { voters := [1, 2] } store : RaftNode KvStateMachine KvEvent RocksDBStorage) where
  ready := rfl
  accepts e he := absurd he List.not_mem_nil
  persists := ⟨rfl, rfl⟩
  noPreCandidate := by simp [AnnouncesPreCandidate, snapshotAnswer]
  canSend m hm := absurd hm List.not_mem_nil

/-- A snapshot that no key-value store can be read from is acknowledged. -/
theorem unrestored_snapshot_acknowledged :
    ∃ store, (createStorage Faults.none {} { voters := [1, 2] } {}).1 = .ok store ∧
      ¬ (Acknowledges (snapshotAnswer []) (newWithConfState {} (fun _ => some "peer")
          (σ := KvStateMachine) {} { voters := [1, 2] } store) →
        Stored (snapshotAnswer []) (newWithConfState {} (fun _ => some "peer")
          (σ := KvStateMachine) {} { voters := [1, 2] } store)) := by
  obtain ⟨store, hopen, -⟩ := open_fresh_represents 1 { voters := [1, 2] }
  refine ⟨store, hopen, fun h => ?_⟩
  have hstored := h ((acknowledges_iff _ _).mpr (snapshotAnswer_reaches [] store))
  rcases hstored.snapshot with hempty | ⟨hrestore, -⟩
  · exact absurd hempty (by decide)
  · have hno : (StateMachine.restore ({} : KvStateMachine) []).1 ≠ .ok () := by decide
    exact absurd hrestore hno

end

end RaftNode

end Raftoral

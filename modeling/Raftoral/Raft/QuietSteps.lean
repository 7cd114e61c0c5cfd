import Raftoral.Raft.ReadySteps

/-!
# The statements that answer nobody

Only applying committed entries answers a proposal, and only the last statement of `on_ready`
looks at the followers. The other statements leave the waiting proposals and what is known of
the followers alone, and what they add to the trace is not an answer.
-/

namespace Raftoral

variable {σ Command Event S : Type}

/-- An answer to a proposer. -/
def Effect.IsAnswer : Effect Event S → Prop
  | .complete _ _ => True
  | _ => False

namespace RaftNode

structure Quiet (n n' : RaftNode σ Event S) : Prop where
  nodeId : n'.nodeId = n.nodeId
  failureDetectionTimeout : n'.failureDetectionTimeout = n.failureDetectionTimeout
  followerProgress : n'.followerProgress = n.followerProgress
  pendingProposals : n'.pendingProposals = n.pendingProposals
  trace : Extends (fun e => ¬ e.IsAnswer) n n'

theorem Quiet.refl (n : RaftNode σ Event S) : Quiet n n := ⟨rfl, rfl, rfl, rfl, Extends.refl n⟩

theorem Quiet.trans (n₁ n₂ n₃ : RaftNode σ Event S) (h₁ : Quiet n₁ n₂) (h₂ : Quiet n₂ n₃) :
    Quiet n₁ n₃ where
  nodeId := h₂.nodeId.trans h₁.nodeId
  failureDetectionTimeout := h₂.failureDetectionTimeout.trans h₁.failureDetectionTimeout
  followerProgress := h₂.followerProgress.trans h₁.followerProgress
  pendingProposals := h₂.pendingProposals.trans h₁.pendingProposals
  trace := h₁.trace.trans h₂.trace

theorem Quiet.emit {n m : RaftNode σ Event S} (h : Quiet n m) {e : Effect Event S}
    (he : ¬ e.IsAnswer) : Quiet n (m.emit e) where
  nodeId := h.nodeId
  failureDetectionTimeout := h.failureDetectionTimeout
  followerProgress := h.followerProgress
  pendingProposals := h.pendingProposals
  trace := h.trace.trans (extends_emit he)

theorem Quiet.withStore {n m : RaftNode σ Event S} (h : Quiet n m) (s : S) :
    Quiet n (m.withStore s) :=
  ⟨h.nodeId, h.failureDetectionTimeout, h.followerProgress, h.pendingProposals, h.trace⟩

theorem changeRole_quiet (io : ReadyIo) (n : RaftNode σ Event S) :
    Quiet n (changeRole io n).2 := by
  have hchanged : ∀ (role : StateRole) (c : RoleChange),
      Quiet n ({ n with currentRole := role }.emit (.roleChanged c)) := by
    intro role c
    refine Quiet.emit ?_ not_false
    exact ⟨rfl, rfl, rfl, rfl, Extends.of_trace_eq rfl⟩
  unfold changeRole
  rcases io.ready.ss with _ | ⟨leaderId, _ | _ | _ | _⟩
  · exact Quiet.refl n
  all_goals
    dsimp only
    split_ifs
    all_goals first
      | exact Quiet.refl n
      | exact hchanged _ _

theorem sendAll_quiet (answers : SendAnswers) (msgs : List Message) (n : RaftNode σ Event S) :
    Quiet n (sendAll answers msgs n).2 := by
  refine Step.forEach_rel Quiet.refl Quiet.trans ?_ n
  intro m _ n
  unfold sendRaftMessage
  cases TransportLayer.sendMessage n.peers (answers m.2) m.1.target
  all_goals exact (Quiet.refl n).emit not_false

theorem advance_quiet {e : Effect Event S} (he : ¬ e.IsAnswer) (n : RaftNode σ Event S) :
    Quiet n (advance e n).2 := (Quiet.refl n).emit he

theorem writeStore_quiet (op : S → Except StorageError Unit × S) (n : RaftNode σ Event S) :
    Quiet n (writeStore op n).2 := by
  unfold writeStore
  rcases op n.store with ⟨_ | _, s⟩
  · exact ((Quiet.refl n).withStore s).emit not_false
  · exact (Quiet.refl n).withStore s

section
variable [RaftStorage S]

theorem persistEntries_quiet (io : ReadyIo) (n : RaftNode σ Event S) :
    Quiet n (persistEntries io n).2 := by
  unfold persistEntries
  split_ifs
  · exact Quiet.refl n
  · exact writeStore_quiet _ n

theorem persistHardState_quiet (io : ReadyIo) (n : RaftNode σ Event S) :
    Quiet n (persistHardState io n).2 := by
  unfold persistHardState
  cases io.ready.hs with
  | none => exact Quiet.refl n
  | some hs => exact writeStore_quiet _ n

theorem updateCommit_quiet (io : ReadyIo) (n : RaftNode σ Event S) :
    Quiet n (updateCommit io n).2 := by
  unfold updateCommit
  cases io.lightReady.commitIndex with
  | none => exact Quiet.refl n
  | some commit => exact writeStore_quiet _ n

variable [StateMachine σ Command Event]

theorem restoreSnapshot_quiet (io : ReadyIo) (n : RaftNode σ Event S) :
    Quiet n (restoreSnapshot io n).2 := by
  unfold restoreSnapshot
  dsimp only
  split_ifs
  · exact Quiet.refl n
  · rcases RaftStorage.applySnapshotWithData io.restoreFaults n.store io.ready.snapshot
      with ⟨_ | _, s⟩
    all_goals
      refine Quiet.emit ?_ ?_
      · exact ⟨rfl, rfl, rfl, rfl, Extends.of_trace_eq rfl⟩
      · exact not_false

theorem maybeCreateSnapshot_quiet (io : ReadyIo) (n : RaftNode σ Event S) :
    Quiet n (maybeCreateSnapshot io n).2 := by
  have hevaluate : Quiet n n.evaluateSnapshot := (Quiet.refl n).emit not_false
  unfold maybeCreateSnapshot
  split_ifs
  · exact Quiet.refl n
  · exact hevaluate
  · cases StateMachine.snapshot n.stateMachine with
    | error e => exact hevaluate
    | ok data =>
      dsimp only
      rcases RaftStorage.applySnapshotWithData io.snapshotFaults n.store (n.snapshotOf data)
        with ⟨_ | _, s⟩
      · exact (hevaluate.withStore s).emit not_false
      · refine Quiet.emit ?_ not_false
        exact ⟨hevaluate.nodeId, hevaluate.failureDetectionTimeout, hevaluate.followerProgress,
          hevaluate.pendingProposals, hevaluate.trace⟩

end

end RaftNode

end Raftoral

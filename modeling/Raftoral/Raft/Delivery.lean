import Raftoral.Raft.Codec
import Raftoral.Raft.OnReady
import Raftoral.Raft.StorageLog

/-!
# The messages of a ready

raft-rs hands out a message once, so a message of a ready that is not sent is lost. A call
of `on_ready` that succeeds sends them all and advances raft-rs, unless the soft state of
the ready makes the node a pre-candidate: then the call returns at step 5.
-/

namespace Raftoral

namespace RaftNode

variable {σ Command Event S : Type}

/-! ## Views of a trace -/

/-- The messages that were passed to `send_raft_message`, in order. -/
def sentMessages (τ : List (Effect Event S)) : List Message :=
  τ.filterMap fun
    | .send msg => some msg
    | _ => none

/-- How often `advance_append` and `advance_apply` were called. -/
def advances (τ : List (Effect Event S)) : ℕ × ℕ :=
  (τ.countP fun e => match e with | .advanceAppend => true | _ => false,
    τ.countP fun e => match e with | .advanceApply => true | _ => false)

/-- Between two states the messages of the ready were sent, in order and before any other,
and each of the two calls that advance raft-rs was made once. -/
structure Delivers (ready : Ready) (n n' : RaftNode σ Event S) : Prop where
  sent : ∃ later, sentMessages n'.trace =
    sentMessages n.trace ++ (ready.messages ++ ready.persistedMessages) ++ later
  advanced : advances n'.trace = ((advances n.trace).1 + 1, (advances n.trace).2 + 1)

/-- Effects that send nothing and do not advance raft-rs. -/
def Effect.IsQuiet : Effect Event S → Prop
  | .send _ | .advanceAppend | .advanceApply => False
  | _ => True

theorem sentMessages_quiet {δ : List (Effect Event S)} (h : ∀ e ∈ δ, Effect.IsQuiet e) :
    sentMessages δ = [] := by
  rw [sentMessages, List.filterMap_eq_nil_iff]
  intro e he
  have hq := h e he
  cases e <;> first | rfl | exact hq.elim

theorem advances_quiet {δ : List (Effect Event S)} (h : ∀ e ∈ δ, Effect.IsQuiet e) :
    advances δ = (0, 0) := by
  rw [advances, Prod.mk.injEq, List.countP_eq_zero, List.countP_eq_zero]
  constructor
  all_goals
    intro e he
    have hq := h e he
    cases e <;> first | exact Bool.false_ne_true | exact hq.elim

theorem sentMessages_append (τ δ : List (Effect Event S)) :
    sentMessages (τ ++ δ) = sentMessages τ ++ sentMessages δ := List.filterMap_append

theorem advances_append (τ δ : List (Effect Event S)) :
    advances (τ ++ δ) = ((advances τ).1 + (advances δ).1, (advances τ).2 + (advances δ).2) := by
  rw [advances, List.countP_append, List.countP_append]
  rfl

theorem sentMessages_map_send (msgs : List Message) :
    sentMessages (msgs.map Effect.send : List (Effect Event S)) = msgs := by
  rw [sentMessages, List.filterMap_map]
  exact List.filterMap_some

theorem advances_map_send (msgs : List Message) :
    advances (msgs.map Effect.send : List (Effect Event S)) = (0, 0) := by
  simp [advances, List.countP_map, Function.comp_def]

theorem isQuiet_of_isApply {e : Effect Event S} (h : Effect.IsApply e) : Effect.IsQuiet e := by
  cases e <;> trivial

theorem isQuiet_of_isRole {e : Effect Event S} (h : Effect.IsRole e) : Effect.IsQuiet e := by
  cases e <;> trivial

/-- Effects that send nothing can follow. -/
theorem Delivers.trans_quiet {ready : Ready} {n n₁ n₂ : RaftNode σ Event S}
    (h : Delivers ready n n₁) (hq : Extends Effect.IsQuiet n₁ n₂) : Delivers ready n n₂ := by
  obtain ⟨δ, hδ, hquiet⟩ := hq
  obtain ⟨⟨later, hlater⟩, hadv⟩ := h
  refine ⟨⟨later, ?_⟩, ?_⟩
  · rw [hδ, sentMessages_append, sentMessages_quiet hquiet, List.append_nil, hlater]
  · simp only [hδ, advances_append, advances_quiet hquiet, hadv, Nat.add_zero]

/-- What sends and advances nothing delivers nothing. -/
theorem not_delivers_of_quiet {ready : Ready} {n n' : RaftNode σ Event S}
    (h : Extends Effect.IsQuiet n n') : ¬ Delivers ready n n' := by
  intro hd
  obtain ⟨δ, hδ, hquiet⟩ := h
  have hadv := hd.advanced
  rw [hδ, advances_append, advances_quiet hquiet, Prod.mk.injEq] at hadv
  omega

/-! ## The calls -/

section
variable [RaftStorage S]

theorem restoreEffects_quiet (io : ReadyIo) (s : S) :
    ∀ e ∈ (restoreEffects io s : List (Effect Event S)), Effect.IsQuiet e := by
  intro e he
  unfold restoreEffects at he
  split at he
  · exact absurd he List.not_mem_nil
  · split at he
    all_goals
      rw [List.mem_singleton] at he
      exact he ▸ trivial

theorem SnapshotRun.quiet [StateMachine σ Command Event] {io : ReadyIo} {n n' : RaftNode σ Event S}
    {out : Outcome NodeError} (h : SnapshotRun io n out n') : Extends Effect.IsQuiet n n' := by
  refine h.extends.imp ?_
  intro e he
  cases e <;> trivial

variable [ProstMessage ConfChange] [SerdeJson NodeMetadata] [StateMachine σ Command Event]
  [SerdeJson Command]

/-- A ready is not dropped: a call that takes one and succeeds delivers it. -/
def HandlesReady (io : ReadyIo) (n : RaftNode σ Event S) : Prop :=
  io.hasReady → (onReady io n).1.isOk → Delivers io.ready n (onReady io n).2

/-- Taking a ready sends nothing and advances nothing. -/
theorem AfterTake.quiet {io : ReadyIo} {n n' : RaftNode σ Event S} (h : AfterTake io n n') :
    Extends Effect.IsQuiet n n' := by
  obtain ⟨δ, hδ, hap⟩ := h.trace
  refine ⟨restoreEffects io n.store ++ δ, by rw [hδ, List.append_assoc], ?_⟩
  intro e he
  rcases List.mem_append.mp he with he | he
  · exact restoreEffects_quiet io n.store e he
  · exact isQuiet_of_isApply (hap e he)

/-- By the time a snapshot may be created the ready was delivered. -/
theorem BeforeSnapshot.delivers {io : ReadyIo} {n n' : RaftNode σ Event S}
    (h : BeforeSnapshot io n n') : Delivers io.ready n n' := by
  obtain ⟨δ₁, δ₂, htrace, h₁, h₂⟩ := h.trace
  have hq₁ : ∀ e ∈ δ₁, Effect.IsQuiet e := fun e he =>
    (h₁ e he).elim isQuiet_of_isApply isQuiet_of_isRole
  have hq₂ : ∀ e ∈ δ₂, Effect.IsQuiet e := fun e he => isQuiet_of_isApply (h₂ e he)
  have hq₀ : ∀ e ∈ (restoreEffects io n.store : List (Effect Event S)), Effect.IsQuiet e :=
    restoreEffects_quiet io n.store
  refine ⟨⟨io.lightReady.messages, ?_⟩, ?_⟩
  · have hcalls : sentMessages ([.advanceAppend] : List (Effect Event S)) = [] ∧
        sentMessages ([.advanceApply] : List (Effect Event S)) = [] := ⟨rfl, rfl⟩
    simp only [htrace, sentMessages_append, sentMessages_quiet hq₀, sentMessages_quiet hq₁,
      sentMessages_quiet hq₂, sentMessages_map_send, hcalls, List.append_nil]
  · have hcalls : advances ([.advanceAppend] : List (Effect Event S)) = (1, 0) ∧
        advances ([.advanceApply] : List (Effect Event S)) = (0, 1) := ⟨rfl, rfl⟩
    simp only [htrace, advances_append, advances_quiet hq₀, advances_quiet hq₁,
      advances_quiet hq₂, advances_map_send, hcalls, Nat.add_zero]

/-- The call in which a node becomes a pre-candidate succeeds without delivering anything. -/
theorem drops_of_preCandidate {io : ReadyIo} {n : RaftNode σ Event S} (hready : io.hasReady)
    (hpre : AnnouncesPreCandidate io n.currentRole) (hacc : AcceptsReady io)
    (hper : Persists io n.store) : ¬ HandlesReady io n := by
  intro h
  have hrun := onReady_run hready n
  have hd := h hready
  generalize hout : (onReady io n).1 = out at hrun hd
  generalize hend : (onReady io n).2 = n' at hrun hd
  cases hrun with
  | takeFailed err n' hf => exact hf.refused ⟨hacc, hper⟩
  | preCandidate n' take pre => exact not_delivers_of_quiet take.quiet (hd rfl)
  | sendingFailed err n' hf => exact hf.noPreCandidate hpre
  | snapshotFailed n₁ err n' before hs => exact before.noPreCandidate hpre
  | finished n₁ n₂ n' before snap watch => exact before.noPreCandidate hpre

/-- A ready is handled unless it makes the node a pre-candidate: then the call returns early,
and it returns success if the ready itself was taken. -/
theorem onReady_handles_iff (io : ReadyIo) (n : RaftNode σ Event S) :
    HandlesReady io n ↔ ¬ (io.hasReady ∧ AnnouncesPreCandidate io n.currentRole ∧
      AcceptsReady io ∧ Persists io n.store) := by
  constructor
  · intro h hbad
    exact drops_of_preCandidate hbad.1 hbad.2.1 hbad.2.2.1 hbad.2.2.2 h
  · intro hno hready hok
    have hrun := onReady_run hready n
    generalize hout : (onReady io n).1 = out at hrun hok
    generalize hend : (onReady io n).2 = n' at hrun
    cases hrun with
    | takeFailed err n' hf => exact absurd hok Bool.false_ne_true
    | preCandidate n' take pre =>
      exact absurd ⟨hready, pre, take.accepts, take.persists⟩ hno
    | sendingFailed err n' hf => exact absurd hok Bool.false_ne_true
    | snapshotFailed n₁ err n' before hs => exact absurd hok Bool.false_ne_true
    | finished n₁ n₂ n' before snap watch =>
      -- a snapshot and the watch over the followers send nothing
      have hwatch := watch.frame.trace.imp fun e he => isQuiet_of_isApply he
      exact (before.delivers.trans_quiet snap.quiet).trans_quiet hwatch

end

section
open scoped Codec

/-- What a follower of a three node cluster is handed when its election timeout fires:
the soft state of a pre-candidate and two requests for a pre-vote. -/
def preVoteReady : ReadyIo where
  ready :=
    { ss := some { leaderId := 0, raftState := .preCandidate }
      persistedMessages := [{ msgType := 17, target := 2, sender := 1, term := 2 },
        { msgType := 17, target := 3, sender := 1, term := 2 }] }
  applyConfChange _ := .error "no configuration change"

/-- The requests for a pre-vote of a freshly started node are dropped. -/
theorem preVote_requests_dropped :
    ∃ store, (createStorage Faults.none {} { voters := [1, 2, 3] } {}).1 = .ok store ∧
      ¬ HandlesReady preVoteReady (newWithConfState {} (fun _ => some "peer") (σ := KvStateMachine)
        {} { voters := [1, 2, 3] } store) := by
  obtain ⟨store, hopen, -⟩ := open_fresh_represents 1 { voters := [1, 2, 3] }
  refine ⟨store, hopen, drops_of_preCandidate rfl ?_ ?_ ⟨rfl, rfl⟩⟩
  · exact ⟨{ leaderId := 0, raftState := .preCandidate }, rfl, rfl, StateRole.noConfusion⟩
  · intro e he
    exact absurd he List.not_mem_nil

end

end RaftNode

end Raftoral

import Raftoral.Raft.NodeRun

/-!
# When a node takes snapshots

Unless snapshots are disabled, `maybe_create_snapshot` subtracts the last snapshot index from
the committed index. The first is moved by snapshots, received or created, the second by
commands only, so after a snapshot was received the committed index lies behind until the next
command is applied.
-/

namespace Raftoral

open RaftNode

variable {σ Command Event S : Type}

/-! ## Views of a trace -/

/-- The pairs of committed and last snapshot index `maybe_create_snapshot` has subtracted. -/
def evaluations (τ : List (Effect Event S)) : List (ℕ × ℕ) :=
  τ.filterMap fun
    | .snapshotEvaluated committed last => some (committed, last)
    | _ => none

/-- The indices of the stored snapshots, in the order in which they were stored. -/
def storedIndices (τ : List (Effect Event S)) : List ℕ :=
  τ.filterMap fun
    | .snapshotReceived snapshot => some snapshot.metadata.index
    | .snapshotCreated _ snapshot => some snapshot.metadata.index
    | _ => none

/-- Whether the committed index lay behind the last snapshot when step 13 last looked, and whether
it did so when the stored snapshot was created. -/
def trackSnapshot (seen : Bool × Bool) : Effect Event S → Bool × Bool
  | .snapshotEvaluated committed last => (committed < last, seen.2)
  | .snapshotCreated _ _ => (seen.1, seen.1)
  | .snapshotReceived _ => (seen.1, false)
  | _ => seen

/-- The stored snapshot is one that the node has created while its committed index lay behind
its last snapshot. -/
def createdBehind (τ : List (Effect Event S)) : Bool := (τ.foldl trackSnapshot (false, false)).2

/-- No subtraction underflowed, and the indices of the stored snapshots never decreased. -/
structure SoundSchedule (τ : List (Effect Event S)) : Prop where
  noUnderflow : ∀ p ∈ evaluations τ, p.2 ≤ p.1
  monotone : (storedIndices τ).Pairwise (· ≤ ·)

/-- Effects that are not about snapshots. -/
def Effect.IsOther : Effect Event S → Prop
  | .snapshotReceived _ | .snapshotEvaluated _ _ | .snapshotCreated _ _ => False
  | _ => True

theorem evaluations_append (τ δ : List (Effect Event S)) :
    evaluations (τ ++ δ) = evaluations τ ++ evaluations δ := List.filterMap_append

theorem storedIndices_append (τ δ : List (Effect Event S)) :
    storedIndices (τ ++ δ) = storedIndices τ ++ storedIndices δ := List.filterMap_append

theorem evaluations_other {δ : List (Effect Event S)} (h : ∀ e ∈ δ, Effect.IsOther e) :
    evaluations δ = [] := by
  rw [evaluations, List.filterMap_eq_nil_iff]
  intro e he
  have ho := h e he
  cases e <;> first | rfl | exact ho.elim

theorem storedIndices_other {δ : List (Effect Event S)} (h : ∀ e ∈ δ, Effect.IsOther e) :
    storedIndices δ = [] := by
  rw [storedIndices, List.filterMap_eq_nil_iff]
  intro e he
  have ho := h e he
  cases e <;> first | rfl | exact ho.elim

theorem SoundSchedule.of_append {τ δ : List (Effect Event S)} (h : SoundSchedule (τ ++ δ)) :
    SoundSchedule τ := by
  obtain ⟨h₁, h₂⟩ := h
  rw [storedIndices_append] at h₂
  refine ⟨?_, (List.pairwise_append.mp h₂).1⟩
  intro p hp
  exact h₁ p (by rw [evaluations_append]; exact List.mem_append_left _ hp)

/-- What a trace may grow by: indices at least as large as those before, and evaluations
that do not underflow. -/
theorem SoundSchedule.append {τ δ : List (Effect Event S)} (h : SoundSchedule τ)
    (heval : ∀ p ∈ evaluations δ, p.2 ≤ p.1) (hmono : (storedIndices δ).Pairwise (· ≤ ·))
    (hge : ∀ i ∈ storedIndices τ, ∀ j ∈ storedIndices δ, i ≤ j) : SoundSchedule (τ ++ δ) := by
  refine ⟨?_, ?_⟩
  · intro p hp
    rw [evaluations_append, List.mem_append] at hp
    exact hp.elim (h.noUnderflow p) (heval p)
  · rw [storedIndices_append, List.pairwise_append]
    exact ⟨h.monotone, hmono, hge⟩

/-- Effects that are not about snapshots change neither view. -/
theorem SoundSchedule.append_other {τ δ : List (Effect Event S)} (h : SoundSchedule τ)
    (ho : ∀ e ∈ δ, Effect.IsOther e) : SoundSchedule (τ ++ δ) := by
  refine h.append ?_ ?_ ?_
  · simp [evaluations_other ho]
  · simp [storedIndices_other ho]
  · simp [storedIndices_other ho]

theorem storedIndices_append_other {τ δ : List (Effect Event S)}
    (ho : ∀ e ∈ δ, Effect.IsOther e) : storedIndices (τ ++ δ) = storedIndices τ := by
  rw [storedIndices_append, storedIndices_other ho, List.append_nil]

theorem createdBehind_append_other (τ : List (Effect Event S)) {δ : List (Effect Event S)}
    (ho : ∀ e ∈ δ, Effect.IsOther e) : createdBehind (τ ++ δ) = createdBehind τ := by
  induction δ using List.reverseRecOn with
  | nil => rw [List.append_nil]
  | append_singleton δ e ih =>
    rw [← ih fun x hx => ho x (List.mem_append_left _ hx), createdBehind, createdBehind,
      ← List.append_assoc, List.foldl_append]
    have he := ho e (by simp)
    cases e <;> first | rfl | exact he.elim

theorem createdBehind_evaluated (τ : List (Effect Event S)) (committed last : ℕ) :
    createdBehind (τ ++ [.snapshotEvaluated committed last]) = createdBehind τ := by
  rw [createdBehind, createdBehind, List.foldl_append]
  rfl

/-- A snapshot that is created right after the evaluation. -/
theorem createdBehind_created (τ : List (Effect Event S)) (committed last : ℕ) (store : S)
    (snapshot : Snapshot) :
    createdBehind (τ ++ [.snapshotEvaluated committed last, .snapshotCreated store snapshot]) =
      decide (committed < last) := by
  rw [createdBehind, List.foldl_append]
  rfl

theorem isOther_of_isApply {e : Effect Event S} (h : Effect.IsApply e) : Effect.IsOther e := by
  cases e <;> trivial

theorem isOther_of_isRole {e : Effect Event S} (h : Effect.IsRole e) : Effect.IsOther e := by
  cases e <;> trivial

theorem isOther_of_isFault {e : Effect Event S} (h : Effect.IsFault e) : Effect.IsOther e := by
  cases e <;> trivial

theorem isOther_of_isAdvancing {e : Effect Event S} (h : Effect.IsAdvancing e) :
    Effect.IsOther e := by
  cases e <;> trivial

/-! ## One call -/

/-- The schedule of a trace is sound and its snapshots end at or below an index. -/
structure SoundUpTo (τ : List (Effect Event S)) (last : ℕ) : Prop where
  sound : SoundSchedule τ
  stored : ∀ i ∈ storedIndices τ, i ≤ last

theorem SoundUpTo.append_other {τ δ : List (Effect Event S)} {last : ℕ} (h : SoundUpTo τ last)
    (ho : ∀ e ∈ δ, Effect.IsOther e) : SoundUpTo (τ ++ δ) last := by
  refine ⟨h.sound.append_other ho, ?_⟩
  rw [storedIndices_append_other ho]
  exact h.stored

section
variable [RaftStorage S]

/-- A received snapshot is not behind the stored ones. -/
theorem SoundUpTo.restore {io : ReadyIo} {s : S} {τ : List (Effect Event S)} {last delivered : ℕ}
    (h : SoundUpTo τ last) (hlast : last ≤ delivered) (ho : io.Orderly delivered) :
    SoundUpTo (τ ++ restoreEffects io s) (restoredIndex io last) ∧
      restoredIndex io last ≤ io.base delivered := by
  unfold restoreEffects restoredIndex ReadyIo.base
  by_cases hs : io.ready.snapshot.isEmpty
  · rw [if_pos hs, if_pos hs, if_pos hs, List.append_nil]
    exact ⟨h, hlast⟩
  · -- a snapshot from raft is not behind what was delivered, so the stored indices stay below it
    have hidx : last ≤ io.ready.snapshot.metadata.index := hlast.trans (ho.snapshot hs)
    rw [if_neg hs, if_neg hs, if_neg hs]
    refine ⟨?_, Nat.le_refl _⟩
    have hup : SoundUpTo τ io.ready.snapshot.metadata.index :=
      ⟨h.sound, fun i hi => (h.stored i hi).trans hidx⟩
    split
    · have hone : storedIndices ([.snapshotReceived io.ready.snapshot] : List (Effect Event S)) =
          [io.ready.snapshot.metadata.index] := rfl
      refine ⟨h.sound.append (by simp [evaluations]) (by simp [hone]) ?_, ?_⟩
      · intro i hi j hj
        rw [hone, List.mem_singleton] at hj
        exact hj ▸ hup.stored i hi
      · intro i hi
        rw [storedIndices_append, hone, List.mem_append, List.mem_singleton] at hi
        exact hi.elim (hup.stored i) Nat.le_of_eq
    · exact hup.append_other (by simp [Effect.IsOther])

variable [StateMachine σ Command Event]

/-- Step 13 keeps the schedule sound when it does not underflow. -/
theorem SoundUpTo.snapshotRun {io : ReadyIo} {n n' : RaftNode σ Event S} {out : Outcome NodeError}
    (h : SoundUpTo n.trace n.lastSnapshotIndex)
    (hle : n.snapshotInterval ≠ 0 → n.lastSnapshotIndex ≤ n.committedIndex)
    (hrun : SnapshotRun io n out n') :
    SoundUpTo n'.trace n'.lastSnapshotIndex ∧
      (n'.lastSnapshotIndex = n.lastSnapshotIndex ∨ n'.lastSnapshotIndex = n.committedIndex) ∧
      n'.committedIndex = n.committedIndex := by
  -- the evaluation itself stores nothing
  have heval : n.snapshotInterval ≠ 0 →
      SoundUpTo n.evaluateSnapshot.trace n.lastSnapshotIndex := by
    intro enabled
    have hnone : storedIndices ([.snapshotEvaluated n.committedIndex n.lastSnapshotIndex] :
        List (Effect Event S)) = [] := rfl
    refine ⟨h.sound.append ?_ (by simp [hnone]) (by simp [hnone]), ?_⟩
    · intro p hp
      simp only [evaluations, List.filterMap_cons, List.filterMap_nil, List.mem_singleton] at hp
      exact hp ▸ hle enabled
    · intro i hi
      rw [evaluateSnapshot, emit, storedIndices_append, hnone, List.append_nil] at hi
      exact h.stored i hi
  cases hrun with
  | disabled => exact ⟨h, Or.inl rfl, rfl⟩
  | kept enabled => exact ⟨heval enabled, Or.inl rfl, rfl⟩
  | created data s due hdata hstore =>
    have heval := heval due.1
    have hle := hle due.1
    have hone : storedIndices ([.snapshotCreated n.store (n.snapshotOf data)] :
        List (Effect Event S)) = [n.committedIndex] := rfl
    refine ⟨⟨heval.sound.append (by simp [evaluations]) (by simp [hone]) ?_, ?_⟩,
      Or.inr rfl, rfl⟩
    · intro i hi j hj
      rw [hone, List.mem_singleton] at hj
      exact hj ▸ (heval.stored i hi).trans hle
    · intro i hi
      have hi : i ∈ storedIndices (n.evaluateSnapshot.trace ++
        [.snapshotCreated n.store (n.snapshotOf data)]) := hi
      rw [storedIndices_append, hone, List.mem_append, List.mem_singleton] at hi
      exact hi.elim (fun hi => (heval.stored i hi).trans hle) Nat.le_of_eq
  | failed data s e due hstore =>
    have heval := heval due.1
    exact ⟨heval.append_other (δ := [.storageFailed e]) (by simp [Effect.IsOther]), Or.inl rfl,
      rfl⟩

variable [ProstMessage ConfChange] [SerdeJson NodeMetadata] [SerdeJson Command]

theorem RaftNode.BeforeSnapshot.trace_other {io : ReadyIo} {n n' : RaftNode σ Event S}
    (h : BeforeSnapshot io n n') :
    ∃ δ, n'.trace = n.trace ++ restoreEffects io n.store ++ δ ∧ ∀ e ∈ δ, Effect.IsOther e := by
  obtain ⟨δ₁, δ₂, hδ, h₁, h₂⟩ := h.trace
  simp only [List.append_assoc] at hδ
  refine ⟨_, by rw [hδ, List.append_assoc], ?_⟩
  intro e he
  simp only [List.mem_append, List.mem_singleton, List.mem_map] at he
  rcases he with he | ⟨m, -, rfl⟩ | rfl | ⟨m, -, rfl⟩ | he | rfl
  · exact (h₁ e he).elim isOther_of_isApply isOther_of_isRole
  · trivial
  · trivial
  · trivial
  · exact isOther_of_isApply (h₂ e he)
  · trivial

/-- With snapshots enabled, a call that reaches step 13 with the committed index behind the last
snapshot applies a command first. -/
def CatchesUp (io : ReadyIo) (n : RaftNode σ Event S) : Prop :=
  ReachesSnapshot io n → n.snapshotInterval ≠ 0 →
    n.committedIndex < restoredIndex io n.lastSnapshotIndex → ∃ e ∈ io.handedOut, e.isCommand

/-- When step 13 starts the committed index has caught up, unless snapshots are disabled. -/
theorem RaftNode.BeforeSnapshot.soundUpTo {io : ReadyIo} {n n₁ : RaftNode σ Event S} {delivered : ℕ}
    (hready : io.hasReady) (before : BeforeSnapshot io n n₁)
    (h : SoundUpTo n.trace n.lastSnapshotIndex) (hlast : n.lastSnapshotIndex ≤ delivered)
    (ho : io.Orderly delivered) (hc : CatchesUp io n) :
    SoundUpTo n₁.trace n₁.lastSnapshotIndex ∧
      (n₁.snapshotInterval ≠ 0 → n₁.lastSnapshotIndex ≤ n₁.committedIndex) := by
  obtain ⟨hrest, hbase⟩ := h.restore (s := n.store) hlast ho
  obtain ⟨δ, hδ, hother⟩ := before.trace_other
  rw [hδ, before.lastSnapshotIndex, before.committedIndex, before.snapshotInterval]
  refine ⟨hrest.append_other hother, fun enabled => ?_⟩
  by_cases hcmd : ∃ e ∈ io.handedOut, e.isCommand
  · exact hbase.trans (Nat.le_of_lt (lt_lastCommandIndex ho.entries hcmd))
  · rw [lastCommandIndex_of_no_command hcmd]
    exact Nat.le_of_not_lt fun hlt => hcmd (hc (before.reaches hready) enabled hlt)

/-- What a call leaves: a sound schedule, and if the node runs on, indices within what was
delivered. -/
theorem onReady_sound {io : ReadyIo} {n : RaftNode σ Event S} {delivered : ℕ}
    (hready : io.hasReady) (h : SoundUpTo n.trace n.lastSnapshotIndex)
    (hlast : n.lastSnapshotIndex ≤ delivered) (hcom : n.committedIndex ≤ delivered)
    (ho : io.Orderly delivered) (hc : CatchesUp io n) :
    SoundSchedule (onReady io n).2.trace ∧ ((onReady io n).1.isOk →
      SoundUpTo (onReady io n).2.trace (onReady io n).2.lastSnapshotIndex ∧
      (onReady io n).2.lastSnapshotIndex ≤ io.deliveredAfter n.currentRole delivered ∧
      (onReady io n).2.committedIndex ≤ io.deliveredAfter n.currentRole delivered) := by
  obtain ⟨hrest, hbase⟩ := h.restore (s := n.store) hlast ho
  have hrun := onReady_run hready n
  generalize (onReady io n).1 = out at hrun
  generalize (onReady io n).2 = n' at hrun
  -- the schedule is touched by the restore and by the snapshot step; all other effects are others
  cases hrun with
  | takeFailed err n' hf =>
    obtain ⟨δ, hδ, hap, -⟩ := hf.trace
    refine ⟨?_, fun hok => absurd hok Bool.false_ne_true⟩
    rw [hδ]
    exact hrest.sound.append_other fun e he => (hap e he).elim isOther_of_isApply isOther_of_isFault
  | preCandidate n' take pre =>
    obtain ⟨δ, hδ, hap⟩ := take.trace
    have hup := hrest.append_other (δ := δ) fun e he => isOther_of_isApply (hap e he)
    rw [← hδ, ← take.lastSnapshotIndex] at hup
    have hafter : io.deliveredAfter n.currentRole delivered =
        lastDelivered io.ready.committedEntries (io.base delivered) := by
      rw [ReadyIo.deliveredAfter, if_pos hready, ReadyIo.taken, if_pos pre]
    refine ⟨hup.sound, fun _ => ⟨hup, ?_, ?_⟩⟩
    · rw [hafter, take.lastSnapshotIndex]
      exact hbase.trans (le_lastDelivered ho.committed)
    · rw [hafter, take.committedIndex]
      exact lastCommandIndex_le ho.committed (hcom.trans ho.base_ge)
  | sendingFailed err n' hf =>
    obtain ⟨δ, hδ, hap⟩ := hf.trace
    refine ⟨?_, fun hok => absurd hok Bool.false_ne_true⟩
    rw [hδ]
    exact hrest.sound.append_other fun e he =>
      (hap e he).elim isOther_of_isAdvancing isOther_of_isRole
  | snapshotFailed n₁ err n' before hs =>
    obtain ⟨hup, hle⟩ := before.soundUpTo hready h hlast ho hc
    exact ⟨(hup.snapshotRun hle hs).1.sound, fun hok => absurd hok Bool.false_ne_true⟩
  | finished n₁ n₂ n' before snap watch =>
    obtain ⟨hup, hle⟩ := before.soundUpTo hready h hlast ho hc
    obtain ⟨hup₂, hlast₂, hcom₂⟩ := hup.snapshotRun hle snap
    obtain ⟨δ, hδ, hap⟩ := watch.frame.trace
    have hup' := hup₂.append_other (δ := δ) fun e he => isOther_of_isApply (hap e he)
    rw [← hδ, ← watch.frame.lastSnapshotIndex] at hup'
    -- the committed index is that of the last command handed out
    have hafter : n₁.committedIndex ≤ io.deliveredAfter n.currentRole delivered := by
      rw [ReadyIo.deliveredAfter, if_pos hready, ReadyIo.taken, if_neg before.noPreCandidate,
        before.committedIndex]
      exact lastCommandIndex_le ho.entries (hcom.trans ho.base_ge)
    refine ⟨hup'.sound, fun _ => ⟨hup', ?_, ?_⟩⟩
    · rw [watch.frame.lastSnapshotIndex]
      rcases hlast₂ with hsame | hcreated
      · rw [hsame, before.lastSnapshotIndex, ReadyIo.deliveredAfter, if_pos hready,
          ReadyIo.taken, if_neg before.noPreCandidate]
        exact hbase.trans (le_lastDelivered ho.entries)
      · rw [hcreated]
        exact hafter
    · rw [watch.committedIndex, hcom₂]
      exact hafter

/-- With snapshots enabled, what step 13 sees is in the trace of every call that gets there. -/
theorem mem_evaluations_of_reaches {io : ReadyIo} {n : RaftNode σ Event S}
    (hreach : ReachesSnapshot io n) (enabled : n.snapshotInterval ≠ 0) :
    (lastCommandIndex io.handedOut n.committedIndex, restoredIndex io n.lastSnapshotIndex) ∈
      evaluations (onReady io n).2.trace := by
  have hrun := onReady_run hreach.ready n
  generalize (onReady io n).1 = out at hrun
  generalize (onReady io n).2 = n' at hrun
  -- whatever follows, the evaluation stays in the trace
  have hmem : ∀ {n₁ : RaftNode σ Event S} {δ : List (Effect Event S)}, BeforeSnapshot io n n₁ →
      n'.trace = n₁.evaluateSnapshot.trace ++ δ →
      (lastCommandIndex io.handedOut n.committedIndex, restoredIndex io n.lastSnapshotIndex) ∈
        evaluations n'.trace := by
    intro n₁ δ before htrace
    rw [htrace, ← before.committedIndex, ← before.lastSnapshotIndex]
    simp [evaluations, evaluateSnapshot, emit]
  cases hrun with
  | takeFailed err n' hf => exact absurd ⟨hreach.accepts, hreach.persists⟩ hf.refused
  | preCandidate n' take pre => exact absurd pre hreach.noPreCandidate
  | sendingFailed err n' hf =>
    exact absurd ⟨hreach.canSend, hreach.acceptsLight, hreach.commits⟩ hf.refused
  | snapshotFailed n₁ err n' before hs =>
    cases hs with
    | failed data s e due hstore => exact hmem before (δ := [.storageFailed e]) rfl
  | finished n₁ n₂ n' before snap watch =>
    obtain ⟨δ, hδ, -⟩ := watch.frame.trace
    cases snap with
    | disabled h => exact absurd (before.snapshotInterval.symm.trans h) enabled
    | kept => exact hmem before hδ
    | created data s due hdata hstore =>
      refine hmem before (δ := .snapshotCreated n₁.store (n₁.snapshotOf data) :: δ) ?_
      rw [hδ]
      simp [recordSnapshot, emit, withStore]

/-- A call that does not catch up underflows. -/
theorem not_sound_of_not_catchesUp {io : ReadyIo} {n : RaftNode σ Event S}
    (hc : ¬ CatchesUp io n) : ¬ SoundSchedule (onReady io n).2.trace := by
  intro hsound
  simp only [CatchesUp, Classical.not_imp] at hc
  obtain ⟨hreach, enabled, hlt, hcmd⟩ := hc
  have hle := hsound.noUnderflow _ (mem_evaluations_of_reaches hreach enabled)
  rw [lastCommandIndex_of_no_command hcmd] at hle
  omega

/-! ## Runs -/

variable [ProstMessage Message]

/-- raft-rs keeps to its contract. -/
def NodeOp.Orderly (s : NodeRun σ Event S) : NodeOp Command → Prop
  | .ready io => io.hasReady → io.Orderly s.delivered
  | _ => True

/-- With snapshots enabled, a ready that lets step 13 see an older committed index than the last
snapshot's brings a command. -/
def NodeOp.CatchesUp (s : NodeRun σ Event S) : NodeOp Command → Prop
  | .ready io => Raftoral.CatchesUp io s.node
  | _ => True

/-- The invariant of a run. -/
structure ScheduleInv (s : NodeRun σ Event S) : Prop where
  sound : SoundSchedule s.node.trace
  running : s.running → SoundUpTo s.node.trace s.node.lastSnapshotIndex ∧
    s.node.lastSnapshotIndex ≤ s.delivered ∧ s.node.committedIndex ≤ s.delivered

theorem step_scheduleInv {s s' : NodeRun σ Event S} {op : NodeOp Command} (h : ScheduleInv s)
    (ho : op.Orderly s) (hc : op.CatchesUp s) (hs : s.step op = some s') : ScheduleInv s' := by
  obtain ⟨hrunning, ⟨-, hframe, hdel⟩ | ⟨io, rfl, hready, rfl⟩⟩ := NodeRun.step_cases hs
  · constructor
    · rw [hframe.trace]
      exact h.sound
    · intro _
      rw [hframe.trace, hframe.lastSnapshotIndex, hframe.committedIndex, hdel]
      exact h.running hrunning
  · obtain ⟨hup, hlast, hcom⟩ := h.running hrunning
    obtain ⟨hsound, hok⟩ := onReady_sound hready hup hlast hcom (ho hready) hc
    exact ⟨hsound, hok⟩

/-- Over every run of a node the schedule is sound exactly when no call of a node that creates
snapshots reaches step 13 with the committed index behind a received snapshot. -/
theorem snapshot_schedule_sound_iff (config : RaftNodeConfig) (peers : Peers) (stateMachine : σ)
    (confState : ConfState) (store : S) (delivered : ℕ) (ops : List (NodeOp Command))
    (s : NodeRun σ Event S)
    (hraft : Transition.Along NodeRun.step NodeOp.Orderly
      (NodeRun.start config peers stateMachine confState store delivered) ops)
    (hrun : Transition.run NodeRun.step
      (NodeRun.start config peers stateMachine confState store delivered) ops = some s) :
    SoundSchedule s.node.trace ↔ Transition.Along NodeRun.step NodeOp.CatchesUp
      (NodeRun.start config peers stateMachine confState store delivered) ops := by
  have hstart : ScheduleInv (NodeRun.start config peers stateMachine confState store delivered :
      NodeRun σ Event S) := by
    have hsound : SoundSchedule ([] : List (Effect Event S)) :=
      ⟨by simp [evaluations], by simp [storedIndices]⟩
    exact ⟨hsound, fun _ => ⟨⟨hsound, by simp [NodeRun.start, newWithConfState, storedIndices]⟩,
      Nat.zero_le _, Nat.zero_le _⟩⟩
  refine Transition.run_iff_along (P := fun s : NodeRun σ Event S => SoundSchedule s.node.trace)
    (fun s op s' h ho hc hs => step_scheduleInv h ho hc hs) (fun s h => h.sound) ?_ ?_ hstart hraft
    hrun
  · -- the trace only grows
    intro s op s' hs hsound
    obtain ⟨δ, hδ⟩ := NodeRun.step_trace hs
    rw [hδ] at hsound
    exact hsound.of_append
  · intro s op s' h _ hs hsound
    cases op with
    | ready io =>
      -- an evaluation that has not caught up is in the trace
      by_contra hc
      have hready : io.hasReady := by
        by_contra hno
        exact hc fun hreach => absurd hreach.ready hno
      obtain ⟨-, ⟨hno, -⟩ | ⟨io', hop, -, rfl⟩⟩ := NodeRun.step_cases hs
      · exact absurd hready (hno io rfl)
      · obtain rfl := NodeOp.ready.inj hop
        exact not_sound_of_not_catchesUp hc hsound
    | call c => trivial
    | others f => trivial
    | message answers msg => trivial

end

section
open scoped Codec

/-- A ready with a snapshot of index five and some new entries, which the light ready commits. -/
def snapshotReady (entries : List Entry) : ReadyIo where
  ready := {
    snapshot := { metadata := { index := 5, term := 2, confState := { voters := [1, 2] } } }
    entries := entries }
  lightReady := { committedEntries := entries }
  applyConfChange _ := .error "no configuration change"

/-- A new node of a two node cluster. -/
abbrev newFollower (store : RocksDBStorage) : NodeRun KvStateMachine KvEvent RocksDBStorage :=
  NodeRun.start {} (fun _ => none) {} { voters := [1, 2] } store 0

theorem snapshotReady_reaches (store : RocksDBStorage) :
    ReachesSnapshot (snapshotReady []) (newFollower store).node where
  ready := rfl
  accepts e he := absurd he List.not_mem_nil
  persists := ⟨rfl, rfl⟩
  noPreCandidate := by simp [AnnouncesPreCandidate, snapshotReady]
  canSend := ⟨fun m hm => absurd hm List.not_mem_nil, fun m hm => absurd hm List.not_mem_nil,
    fun m hm => absurd hm List.not_mem_nil⟩
  acceptsLight e he := absurd he List.not_mem_nil
  commits := rfl

theorem run_ready {s : NodeRun KvStateMachine KvEvent RocksDBStorage} (h : s.running) (io : ReadyIo) :
    Transition.run NodeRun.step s [.ready io] = some (s.afterReady io) :=
  Transition.run_cons.mpr ⟨_, NodeRun.step_ready h io, rfl⟩

theorem snapshotReady_orderly {s : NodeRun KvStateMachine KvEvent RocksDBStorage}
    (h : s.delivered = 0) {entries : List Entry}
    (hentries : (5 :: entries.map (·.index)).Pairwise (· < ·)) :
    Transition.Along NodeRun.step NodeOp.Orderly s [.ready (snapshotReady entries)] :=
  ⟨fun _ => ⟨fun _ => h ▸ Nat.zero_le _, hentries⟩, by simp⟩

/-- A snapshot that is received together with the command behind it. -/
theorem snapshot_schedule_sound_catching_up :
    ∃ store s, (createStorage Faults.none {} { voters := [1, 2] } {}).1 = .ok store ∧
      Transition.run NodeRun.step (newFollower store)
        [.ready (snapshotReady [{ term := 2, index := 6, data := [0x7b] }])] = some s ∧
      SoundSchedule s.node.trace := by
  obtain ⟨store, hopen, -⟩ := open_fresh_represents 1 { voters := [1, 2] }
  set io := snapshotReady [{ term := 2, index := 6, data := [0x7b] }] with hio
  have hrun := run_ready (s := newFollower store) rfl io
  refine ⟨store, _, hopen, hrun, ?_⟩
  rw [snapshot_schedule_sound_iff {} (fun _ => none) ({} : KvStateMachine) { voters := [1, 2] } store
    0 [.ready io] _ (snapshotReady_orderly rfl (by decide)) hrun]
  refine ⟨fun _ _ _ => ⟨{ term := 2, index := 6, data := [0x7b] }, ?_, rfl⟩, by simp⟩
  simp [hio, snapshotReady, ReadyIo.handedOut]

/-- A follower that is sent a snapshot of index five evaluates `0 - 5`. -/
theorem snapshot_schedule_underflow :
    ∃ store s, (createStorage Faults.none {} { voters := [1, 2] } {}).1 = .ok store ∧
      Transition.Along NodeRun.step NodeOp.Orderly (newFollower store)
        [.ready (snapshotReady [])] ∧
      Transition.run NodeRun.step (newFollower store) [.ready (snapshotReady [])] = some s ∧
      (0, 5) ∈ evaluations s.node.trace ∧ ¬ SoundSchedule s.node.trace := by
  obtain ⟨store, hopen, -⟩ := open_fresh_represents 1 { voters := [1, 2] }
  have hmem := mem_evaluations_of_reaches (snapshotReady_reaches store)
    (show 1000 ≠ 0 by decide)
  rw [show lastCommandIndex (snapshotReady []).handedOut (newFollower store).node.committedIndex = 0
      from rfl, show restoredIndex (snapshotReady []) (newFollower store).node.lastSnapshotIndex = 5
      from rfl, ← NodeRun.afterReady_node] at hmem
  refine ⟨store, (newFollower store).afterReady (snapshotReady []), hopen,
    snapshotReady_orderly rfl (by decide), run_ready rfl _, hmem, ?_⟩
  intro hsound
  exact absurd (hsound.noUnderflow _ hmem) (by decide)

end

end Raftoral

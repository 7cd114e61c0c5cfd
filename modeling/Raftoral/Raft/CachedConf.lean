import Raftoral.Raft.NodeRun

/-!
# What a call does to the cached configuration

`cached_conf_state` is set from a received snapshot and from what raft-rs answers to a
configuration change, and by nothing else. raft-rs changes its own configuration at the same two
places, so what a call does to the one it does to the other.
-/

namespace Raftoral

variable {σ Command Event S : Type}

namespace RaftNode

/-- `conf_state`. -/
def confState (n : RaftNode σ Event S) : ConfState := n.cachedConfState

/-! ## The configuration of raft-rs -/

/-- The configuration behind the snapshot of a ready. -/
def restoredConf (io : ReadyIo) (c : ConfState) : ConfState :=
  if io.ready.snapshot.isEmpty then c else io.ready.snapshot.metadata.confState

section
variable [ProstMessage ConfChange]

/-- The configuration behind an entry: `apply_conf_change` answers with the new one. -/
def confAfterEntry (io : ReadyIo) (c : ConfState) (e : Entry) : ConfState :=
  if e.isConfChange then
    match (ProstMessage.decode e.data : Except String ConfChange), io.applyConfChange e with
    | .ok _, .ok cs => cs
    | _, _ => c
  else c

def confAfter (io : ReadyIo) (es : List Entry) (c : ConfState) : ConfState :=
  es.foldl (confAfterEntry io) c

/-- The configuration in force at the index of the last command. -/
def committedConfAfter (io : ReadyIo) : List Entry → ConfState → ConfState → ConfState
  | [], _, k => k
  | e :: es, c, k =>
    committedConfAfter io es (confAfterEntry io c e)
      (if e.isCommand then confAfterEntry io c e else k)

end

/-- Whether no configuration change comes behind the last command. -/
def settledAfter (es : List Entry) (settled : Bool) : Bool :=
  es.foldl (fun settled e => e.isCommand || settled && !e.isConfChange) settled

theorem committedConfAfter_eq [ProstMessage ConfChange] {io : ReadyIo} {es : List Entry}
    {c k : ConfState} {settled : Bool} (h : settled → k = c) (hes : settledAfter es settled) :
    committedConfAfter io es c k = confAfter io es c := by
  induction es generalizing c k settled with
  | nil => exact h hes
  | cons e es ih =>
    have hnext : (e.isCommand || settled && !e.isConfChange) = true →
        (if e.isCommand then confAfterEntry io c e else k) = confAfterEntry io c e := by
      intro hsettled
      by_cases hcommand : e.isCommand
      · rw [if_pos hcommand]
      · simp only [hcommand, Bool.false_or, Bool.and_eq_true, Bool.not_eq_true'] at hsettled
        rw [if_neg hcommand, confAfterEntry, hsettled.2, h hsettled.1]
        rfl
    exact ih hnext hes

/-- The snapshots a trace has created. -/
def createdSnapshots (τ : List (Effect Event S)) : List Snapshot :=
  τ.filterMap fun
    | .snapshotCreated _ snapshot => some snapshot
    | _ => none

/-! ## The statements of a call -/

theorem cachedConfState_completeProposal (syncId : Option ℕ) (result : Except String Unit)
    (n : RaftNode σ Event S) :
    (n.completeProposal syncId result).cachedConfState = n.cachedConfState := by
  unfold completeProposal
  cases syncId with
  | none => rfl
  | some id =>
    dsimp only
    split_ifs
    · rfl
    · rfl

theorem cachedConfState_publishBatch (events : List Event) (n : RaftNode σ Event S) :
    (n.publishBatch events).cachedConfState = n.cachedConfState := by
  unfold publishBatch
  split
  · rfl
  · rfl

theorem cachedConfState_publishResult (result : Except String (List Event))
    (n : RaftNode σ Event S) : (n.publishResult result).cachedConfState = n.cachedConfState := by
  cases result with
  | ok events => exact cachedConfState_publishBatch events n
  | error e => rfl

section
variable [StateMachine σ Command Event] [SerdeJson Command]

theorem cachedConfState_applyNormal (e : Entry) (n : RaftNode σ Event S) :
    (n.applyNormal e).cachedConfState = n.cachedConfState := by
  unfold applyNormal markApplied emit
  dsimp only
  rw [cachedConfState_completeProposal, cachedConfState_publishResult]

variable [ProstMessage ConfChange] [SerdeJson NodeMetadata]

omit [StateMachine σ Command Event] [SerdeJson Command] in
theorem cachedConfState_applyConfChange {io : ReadyIo} {e : Entry} {n n' : RaftNode σ Event S}
    (he : e.isConfChange) (h : applyConfChange io e n = (.next, n')) :
    n'.cachedConfState = confAfterEntry io n.cachedConfState e := by
  unfold applyConfChange at h
  rw [confAfterEntry, if_pos he]
  cases hdecode : (ProstMessage.decode e.data : Except String ConfChange) with
  | error reason =>
    rw [hdecode] at h
    exact absurd h (by simp)
  | ok cc =>
    cases hraft : io.applyConfChange e with
    | error reason =>
      rw [hdecode, hraft] at h
      exact absurd h (by simp)
    | ok cs =>
      rw [hdecode, hraft] at h
      obtain rfl := (Prod.mk.inj h).2
      exact cachedConfState_completeProposal _ _ _

theorem cachedConfState_applyEntry {io : ReadyIo} {e : Entry} {n n' : RaftNode σ Event S}
    (h : applyEntry io e n = (.next, n')) :
    n'.cachedConfState = confAfterEntry io n.cachedConfState e := by
  unfold applyEntry at h
  by_cases hempty : e.data.isEmpty
  · rw [if_pos hempty] at h
    obtain rfl := (Prod.mk.inj h).2
    simp [confAfterEntry, Entry.isConfChange, hempty]
  · rw [if_neg hempty] at h
    cases htype : e.entryType with
    | entryNormal =>
      simp only [htype] at h
      obtain rfl := (Prod.mk.inj h).2
      rw [cachedConfState_applyNormal]
      simp [confAfterEntry, Entry.isConfChange, htype]
    | entryConfChange =>
      simp only [htype] at h
      exact cachedConfState_applyConfChange (by simp [Entry.isConfChange, htype, hempty]) h
    | entryConfChangeV2 =>
      simp only [htype] at h
      exact cachedConfState_applyConfChange (by simp [Entry.isConfChange, htype, hempty]) h

theorem cachedConfState_applyCommitted {io : ReadyIo} {es : List Entry} {n n' : RaftNode σ Event S}
    (h : applyCommitted io es n = (.next, n')) :
    n'.cachedConfState = confAfter io es n.cachedConfState := by
  induction es generalizing n with
  | nil =>
    rw [applyCommitted, Step.forEach_nil, Prod.mk.injEq] at h
    rw [← h.2]
    rfl
  | cons e es ih =>
    obtain ⟨n₁, hn₁, hrest⟩ := Step.block_cons_next.mp h
    rw [confAfter, List.foldl_cons, ← cachedConfState_applyEntry hn₁]
    exact ih hrest

end

theorem createdSnapshots_extends {p : Effect Event S → Prop} {n n' : RaftNode σ Event S}
    (h : Extends p n n') (hp : ∀ store snapshot, ¬ p (.snapshotCreated store snapshot)) :
    createdSnapshots n'.trace = createdSnapshots n.trace := by
  refine h.filterMap_eq ?_
  intro e he
  cases e with
  | snapshotCreated store snapshot => exact absurd he (hp store snapshot)
  | _ => rfl

theorem cachedConfState_perform [SerdeJson Command] [SerdeJson NodeMetadata]
    (n : RaftNode σ Event S) (c : Call Command) :
    (n.perform c).cachedConfState = n.cachedConfState := by
  cases c with
  | addNode answers syncId nodeId address =>
    simp only [perform, addNode]
    split
    · rfl
    · rfl
  | _ => rfl

/-- The statement leaves the cached configuration alone. -/
def KeepsConf (a : Step (RaftNode σ Event S) NodeError) : Prop :=
  ∀ n, (a n).2.cachedConfState = n.cachedConfState

theorem KeepsConf.next {a : Step (RaftNode σ Event S) NodeError} (h : KeepsConf a)
    (n n' : RaftNode σ Event S) (hn : a n = (.next, n')) :
    n'.cachedConfState = id n.cachedConfState := by
  have hkeeps := h n
  rwa [hn] at hkeeps

theorem sendAll_keepsConf (answers : SendAnswers) (msgs : List Message) :
    KeepsConf (sendAll answers msgs : Step (RaftNode σ Event S) NodeError) := by
  intro n
  refine Step.forEach_keeps RaftNode.cachedConfState ?_ n
  intro m _ n
  unfold sendRaftMessage
  split
  · rfl
  · rfl

theorem changeRole_keepsConf (io : ReadyIo) :
    KeepsConf (changeRole io : Step (RaftNode σ Event S) NodeError) := by
  intro n
  by_cases hpre : AnnouncesPreCandidate io n.currentRole
  · rw [changeRole_returned hpre]
  · obtain ⟨r, δ, hrole, -⟩ := changeRole_next hpre
    rw [hrole]

theorem writeStore_keepsConf (op : S → Except StorageError Unit × S) :
    KeepsConf (writeStore op : Step (RaftNode σ Event S) NodeError) := by
  intro n
  unfold writeStore
  split
  · rfl
  · rfl

section
variable [RaftStorage S] [StateMachine σ Command Event]

theorem cachedConfState_restoreSnapshot {io : ReadyIo} (n : RaftNode σ Event S) :
    (restoreSnapshot io n).2.cachedConfState = restoredConf io n.cachedConfState := by
  by_cases hs : io.ready.snapshot.isEmpty
  · simp [restoreSnapshot, restoredConf, hs]
  · rcases hstore : RaftStorage.applySnapshotWithData io.restoreFaults n.store io.ready.snapshot
      with ⟨_ | _, s⟩
    all_goals simp [restoreSnapshot, restoredConf, hs, hstore, emit]

theorem maybeCreateSnapshot_keepsConf (io : ReadyIo) :
    KeepsConf (maybeCreateSnapshot io : Step (RaftNode σ Event S) NodeError) := by
  intro n
  have hrun := maybeCreateSnapshot_run io n
  generalize (maybeCreateSnapshot io n).1 = out at hrun
  generalize (maybeCreateSnapshot io n).2 = n' at hrun
  cases hrun with
  | disabled h => rfl
  | kept enabled h => rfl
  | created data s due hdata hstore => rfl
  | failed data s e due hstore => rfl

omit [RaftStorage S] in
theorem checkFollowerProgress_keepsConf (io : ReadyIo) :
    KeepsConf (checkFollowerProgress io : Step (RaftNode σ Event S) NodeError) := by
  intro n
  have hfold : ∀ (failed : List ℕ) (m : RaftNode σ Event S),
      (failed.foldl reportFailed m).cachedConfState = m.cachedConfState := by
    intro failed
    induction failed with
    | nil => exact fun _ => rfl
    | cons nodeId failed ih =>
      intro m
      rw [List.foldl_cons, ih]
      exact cachedConfState_publishBatch _ m
  unfold checkFollowerProgress
  split
  · rfl
  · split
    · rfl
    · exact hfold _ _

theorem cachedConfState_snapshotSteps (io : ReadyIo) (n : RaftNode σ Event S) :
    (Step.block [maybeCreateSnapshot io, checkFollowerProgress io] n).2.cachedConfState =
      n.cachedConfState := by
  refine Step.block_keeps RaftNode.cachedConfState ?_ n
  intro a ha
  rcases List.mem_pair.mp ha with rfl | rfl
  · exact maybeCreateSnapshot_keepsConf io
  · exact checkFollowerProgress_keepsConf io

theorem createdSnapshots_maybeCreateSnapshot (io : ReadyIo) (n : RaftNode σ Event S) :
    ∃ δ, createdSnapshots (maybeCreateSnapshot io n).2.trace = createdSnapshots n.trace ++ δ ∧
      ∀ snapshot ∈ δ, SnapshotDue n ∧ ∃ data, StateMachine.snapshot n.stateMachine = .ok data ∧
        snapshot = n.snapshotOf data := by
  have hrun := maybeCreateSnapshot_run io n
  generalize (maybeCreateSnapshot io n).1 = out at hrun
  generalize (maybeCreateSnapshot io n).2 = n' at hrun
  cases hrun with
  | disabled h => exact ⟨[], by simp, by simp⟩
  | kept enabled h => exact ⟨[], by simp [evaluateSnapshot, emit, createdSnapshots], by simp⟩
  | created data s due hdata hstore =>
    refine ⟨[n.snapshotOf data], ?_, ?_⟩
    · simp [recordSnapshot, evaluateSnapshot, withStore, emit, createdSnapshots]
    · intro snapshot hsnapshot
      exact ⟨due, data, hdata, List.mem_singleton.mp hsnapshot⟩
  | failed data s e due hstore =>
    exact ⟨[], by simp [evaluateSnapshot, withStore, emit, createdSnapshots], by simp⟩

theorem createdSnapshots_snapshotSteps (io : ReadyIo) (n : RaftNode σ Event S) :
    createdSnapshots
        (Step.block [maybeCreateSnapshot io, checkFollowerProgress io] n).2.trace =
      createdSnapshots (maybeCreateSnapshot io n).2.trace := by
  rcases hmaybe : maybeCreateSnapshot io n with ⟨_ | _ | err, n'⟩
  · obtain ⟨n₂, hcheck, hwatch⟩ := checkFollowerProgress_next io n'
    rw [Step.block_cons_of_next hmaybe, Step.block_cons_of_next hcheck, Step.block_nil]
    exact createdSnapshots_extends hwatch.frame.trace fun _ _ => id
  · rw [Step.block_cons_of_returned hmaybe]
  · rw [Step.block_cons_of_failed hmaybe]

variable [SerdeJson Command] [ProstMessage ConfChange] [SerdeJson NodeMetadata]

/-! ## A whole call -/

/-- The statements before step 13. -/
def stepsBeforeSnapshot (io : ReadyIo) : List (Step (RaftNode σ Event S) NodeError) :=
  takeReady io ++ ([changeRole io] ++ (sendReady io ++ advanceReady io))

theorem readySteps_eq_snapshot (io : ReadyIo) :
    (readySteps io : List (Step (RaftNode σ Event S) NodeError)) =
      stepsBeforeSnapshot io ++ [maybeCreateSnapshot io, checkFollowerProgress io] := by
  simp [readySteps, stepsBeforeSnapshot]

/-- Steps 1 to 4. -/
theorem cachedConfState_takeReady {io : ReadyIo} {n n' : RaftNode σ Event S}
    (h : Step.block (takeReady io) n = (.next, n')) :
    n'.cachedConfState =
      confAfter io io.ready.committedEntries (restoredConf io n.cachedConfState) := by
  refine Step.block_view (fun n : RaftNode σ Event S => n.cachedConfState)
    [restoredConf io, confAfter io io.ready.committedEntries, id, id] ?_ h
  refine .cons ?_ (.cons ?_ (.cons ?_ (.cons ?_ .nil)))
  · intro n n' hn
    rw [← cachedConfState_restoreSnapshot, hn]
  · intro n n' hn
    exact cachedConfState_applyCommitted hn
  · rw [persistEntries_eq]
    exact (writeStore_keepsConf _).next
  · rw [persistHardState_eq]
    exact (writeStore_keepsConf _).next

/-- Steps 6 to 12. -/
theorem cachedConfState_advance {io : ReadyIo} {n n' : RaftNode σ Event S}
    (h : Step.block (sendReady io ++ advanceReady io) n = (.next, n')) :
    n'.cachedConfState = confAfter io io.lightReady.committedEntries n.cachedConfState := by
  refine Step.block_view (fun n : RaftNode σ Event S => n.cachedConfState)
    [id, id, id, id, id, confAfter io io.lightReady.committedEntries, id] ?_ h
  refine .cons ?_ (.cons ?_ (.cons ?_ (.cons ?_ (.cons ?_ (.cons ?_ (.cons ?_ .nil))))))
  · exact (sendAll_keepsConf _ _).next
  · exact (sendAll_keepsConf _ _).next
  · exact KeepsConf.next fun n => rfl
  · rw [updateCommit_eq]
    exact (writeStore_keepsConf _).next
  · exact (sendAll_keepsConf _ _).next
  · intro n n' hn
    exact cachedConfState_applyCommitted hn
  · exact KeepsConf.next fun n => rfl

/-- Step 13 starts where `beforeSnapshot` says it does. -/
theorem beforeSnapshot_of_next {io : ReadyIo} {n n' : RaftNode σ Event S}
    (h : Step.block (stepsBeforeSnapshot io) n = (.next, n')) : BeforeSnapshot io n n' := by
  obtain ⟨n₁, h₁, h⟩ := Step.block_append_next.mp h
  rw [List.singleton_append] at h
  obtain ⟨n₂, h₂, h₃⟩ := Step.block_cons_next.mp h
  have htaken := afterTake_of_next h₁
  have hpre : ¬ AnnouncesPreCandidate io n₁.currentRole := by
    intro hpre
    rw [changeRole_returned hpre] at h₂
    exact absurd h₂ (by simp)
  obtain ⟨r, δ, hrole, hδ⟩ := changeRole_next hpre
  rw [h₂] at hrole
  rw [htaken.currentRole] at hpre
  exact beforeSnapshot htaken hpre (Prod.mk.inj hrole).2 hδ (afterAdvance_of_next h₃)

/-- Only a pre-candidate leaves the call before step 13, and it has taken the ready. -/
theorem preCandidate_of_returned {io : ReadyIo} {n n' : RaftNode σ Event S}
    (h : Step.block (stepsBeforeSnapshot io) n = (.returned, n')) :
    AnnouncesPreCandidate io n.currentRole ∧ Step.block (takeReady io) n = (.next, n') := by
  by_cases htake : AcceptsReady io ∧ Persists io n.store
  · obtain ⟨n₁, h₁, htaken⟩ := takeReady_next htake.1 htake.2
    rw [stepsBeforeSnapshot, Step.block_append h₁, List.singleton_append] at h
    by_cases hpre : AnnouncesPreCandidate io n₁.currentRole
    · rw [Step.block_cons_of_returned (changeRole_returned hpre)] at h
      obtain rfl := (Prod.mk.inj h).2
      rw [htaken.currentRole] at hpre
      exact ⟨hpre, h₁⟩
    · obtain ⟨r, δ, hrole, -⟩ := changeRole_next hpre
      rw [Step.block_cons_of_next hrole] at h
      refine absurd (congrArg Prod.fst h) (Step.block_ne_returned ?_ _)
      exact fun step hstep m => (advancing io step hstep m).1
  · obtain ⟨err, n₁, h₁, -⟩ := takeReady_failed htake
    rw [stepsBeforeSnapshot, Step.block_append_of_ne_next (by rw [h₁]; simp), h₁] at h
    exact absurd h (by simp)

theorem cachedConfState_beforeSnapshot {io : ReadyIo} {n n' : RaftNode σ Event S}
    (h : Step.block (stepsBeforeSnapshot io) n = (.next, n')) :
    n'.cachedConfState = confAfter io io.handedOut (restoredConf io n.cachedConfState) := by
  obtain ⟨n₁, h₁, h⟩ := Step.block_append_next.mp h
  rw [List.singleton_append] at h
  obtain ⟨n₂, h₂, h₃⟩ := Step.block_cons_next.mp h
  have hrole : n₂.cachedConfState = n₁.cachedConfState :=
    (changeRole_keepsConf io).next n₁ n₂ h₂
  rw [cachedConfState_advance h₃, hrole, cachedConfState_takeReady h₁, ReadyIo.handedOut,
    confAfter, confAfter, confAfter, List.foldl_append]

/-- A call that does not fail changes the cached configuration by the snapshot and the entries it
was handed. -/
theorem cachedConfState_onReady {io : ReadyIo} {n : RaftNode σ Event S} (hready : io.hasReady)
    (hok : (onReady io n).1.isOk) : (onReady io n).2.cachedConfState =
      confAfter io (io.taken n.currentRole) (restoredConf io n.cachedConfState) := by
  rw [onReady, if_pos hready, readySteps_eq_snapshot] at hok ⊢
  rcases hblock : Step.block (stepsBeforeSnapshot io) n with ⟨_ | _ | err, n₁⟩
  · have hpre := (beforeSnapshot_of_next hblock).noPreCandidate
    rw [Step.block_append hblock, cachedConfState_snapshotSteps,
      cachedConfState_beforeSnapshot hblock, ReadyIo.taken, if_neg hpre]
  · obtain ⟨hpre, htake⟩ := preCandidate_of_returned hblock
    rw [Step.block_append_of_ne_next (by rw [hblock]; simp), hblock, ReadyIo.taken, if_pos hpre]
    exact cachedConfState_takeReady htake
  · rw [Step.block_append_of_ne_next (by rw [hblock]; simp), hblock] at hok
    exact absurd hok Bool.false_ne_true

/-! ## Created snapshots -/

/-- No snapshot is created before step 13. -/
theorem createdSnapshots_stepsBeforeSnapshot (io : ReadyIo) (n : RaftNode σ Event S) :
    createdSnapshots (Step.block (stepsBeforeSnapshot io) n).2.trace =
      createdSnapshots n.trace := by
  refine Step.block_keeps (fun n : RaftNode σ Event S => createdSnapshots n.trace) ?_ n
  intro step hstep n
  rw [stepsBeforeSnapshot, List.mem_append, List.mem_append, List.mem_singleton] at hstep
  have hadvancing : ∀ n' : RaftNode σ Event S, Extends Effect.IsAdvancing n n' →
      createdSnapshots n'.trace = createdSnapshots n.trace :=
    fun n' h => createdSnapshots_extends h fun _ _ => id
  rcases hstep with htake | rfl | hadvance
  · simp only [takeReady, List.mem_cons, List.not_mem_nil, or_false] at htake
    rcases htake with rfl | rfl | rfl | rfl
    · obtain ⟨n', hn', hrestored⟩ := restoreSnapshot_next io n
      rw [hn', hrestored.trace, createdSnapshots, List.filterMap_append]
      have hnone : createdSnapshots (restoreEffects io n.store : List (Effect Event S)) = [] := by
        unfold restoreEffects
        split
        · rfl
        · split
          · rfl
          · rfl
      rw [createdSnapshots] at hnone
      rw [hnone, List.append_nil, createdSnapshots]
    · exact hadvancing _ (applyCommitted_advancing io _ n).2
    · rw [persistEntries_eq]
      exact hadvancing _ (writeStore_advancing _ n).2
    · rw [persistHardState_eq]
      exact hadvancing _ (writeStore_advancing _ n).2
  · by_cases hpre : AnnouncesPreCandidate io n.currentRole
    · rw [changeRole_returned hpre]
    · obtain ⟨r, δ, hrole, hδ⟩ := changeRole_next hpre
      rw [hrole]
      exact createdSnapshots_extends (p := Effect.IsRole) ⟨δ, rfl, hδ⟩ fun _ _ => id
  · exact hadvancing _ (advancing io step hadvance n).2

/-- A snapshot is due when the call reaches step 13, and the state machine has one. -/
def CreatesSnapshot (io : ReadyIo) (n : RaftNode σ Event S) : Prop :=
  ReachesSnapshot io n ∧ n.snapshotInterval ≠ 0 ∧
    n.snapshotInterval ≤ U64.sub (lastCommandIndex io.handedOut n.committedIndex)
      (restoredIndex io n.lastSnapshotIndex) ∧
    ∃ data, StateMachine.snapshot (replay (restoredMachine io n.stateMachine) io.handedOut) =
      .ok data

/-- The snapshots a call creates carry the configuration behind all it was handed. -/
theorem createdSnapshots_onReady {io : ReadyIo} (hready : io.hasReady) (n : RaftNode σ Event S) :
    ∃ δ, createdSnapshots (onReady io n).2.trace = createdSnapshots n.trace ++ δ ∧
      ∀ snapshot ∈ δ, CreatesSnapshot io n ∧ snapshot.metadata.confState =
        confAfter io io.handedOut (restoredConf io n.cachedConfState) := by
  have hbefore := createdSnapshots_stepsBeforeSnapshot io n
  rw [onReady, if_pos hready, readySteps_eq_snapshot]
  by_cases hnext : (Step.block (stepsBeforeSnapshot io) n).1 = .next
  · obtain ⟨n₁, hblock⟩ : ∃ n₁, Step.block (stepsBeforeSnapshot io) n = (.next, n₁) :=
      ⟨_, Prod.ext hnext rfl⟩
    obtain ⟨δ, hδ, hcreated⟩ := createdSnapshots_maybeCreateSnapshot io n₁
    rw [hblock] at hbefore
    refine ⟨δ, ?_, ?_⟩
    · rw [Step.block_append hblock, createdSnapshots_snapshotSteps, hδ, hbefore]
    · intro snapshot hsnapshot
      obtain ⟨⟨hinterval, hdue⟩, data, hdata, rfl⟩ := hcreated snapshot hsnapshot
      have before := beforeSnapshot_of_next hblock
      rw [before.snapshotInterval] at hinterval hdue
      rw [before.committedIndex, before.lastSnapshotIndex] at hdue
      rw [before.stateMachine] at hdata
      exact ⟨⟨before.reaches hready, hinterval, hdue, data, hdata⟩,
        cachedConfState_beforeSnapshot hblock⟩
  · rw [Step.block_append_of_ne_next hnext]
    exact ⟨[], by rw [List.append_nil, hbefore], by simp⟩

end

end RaftNode

/-- Only a ready changes the cached configuration. -/
theorem NodeRun.step_cachedConfState [ProstMessage ConfChange] [SerdeJson NodeMetadata]
    [StateMachine σ Command Event] [SerdeJson Command] [RaftStorage S] [ProstMessage Message]
    {s s' : NodeRun σ Event S} {op : NodeOp Command} (hop : ∀ io, op ≠ .ready io)
    (hs : s.step op = some s') :
    s.running ∧ s'.node.cachedConfState = s.node.cachedConfState := by
  unfold NodeRun.step at hs
  split_ifs at hs with hrunning
  refine ⟨hrunning, ?_⟩
  cases op with
  | ready io => exact absurd rfl (hop io)
  | call c =>
    obtain rfl := Option.some.inj hs
    exact RaftNode.cachedConfState_perform s.node c
  | others f =>
    obtain rfl := Option.some.inj hs
    rfl
  | message answers msg =>
    obtain rfl := Option.some.inj hs
    rfl

end Raftoral

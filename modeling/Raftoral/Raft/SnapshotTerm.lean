import Raftoral.Raft.ReadyStorage
import Raftoral.Raft.SnapshotSchedule

/-!
# The terms of created snapshots

A created snapshot has the index of the last applied command and the term of the hard
state. The two belong together when the command was proposed in the current term.
-/

namespace Raftoral

open RaftNode ProstMessage

variable {σ Command Event : Type}

/-! ## Right terms -/

section
variable [ProstMessage Entry] [ProstMessage ConfState] [ProstMessage Snapshot]

/-- The snapshot has the term of the log entry at its index, and what the storage answers
for that index is the same before and after it is stored. -/
structure RightTerm (before : RocksDBStorage) (snapshot : Snapshot) : Prop where
  entry : ∃ e, e.index = snapshot.metadata.index ∧ Holds before e ∧ e.term = snapshot.metadata.term
  kept : ∀ w after, before.applySnapshot w snapshot = (.ok (), after) →
    after.term snapshot.metadata.index = before.term snapshot.metadata.index

/-- Every created snapshot of a trace has the right term. -/
def RightTerms (τ : List (Effect Event RocksDBStorage)) : Prop :=
  ∀ before snapshot, Effect.snapshotCreated before snapshot ∈ τ → RightTerm before snapshot

theorem RightTerms.append {τ δ : List (Effect Event RocksDBStorage)} (h : RightTerms τ)
    (hδ : RightTerms δ) : RightTerms (τ ++ δ) := by
  intro before snapshot hmem
  exact (List.mem_append.mp hmem).elim (h before snapshot) (hδ before snapshot)

theorem rightTerms_other {δ : List (Effect Event RocksDBStorage)}
    (h : ∀ e ∈ δ, Effect.IsOther e) : RightTerms δ :=
  fun _ _ hmem => (h _ hmem).elim

end

/-! ## The last command -/

section
variable [ProstMessage Entry] [ProstMessage Snapshot]

/-- The log holds the last applied command, unless a snapshot covers it. -/
structure CommandHeld (n : RaftNode σ Event RocksDBStorage) (delivered : ℕ) : Prop where
  committed : n.committedIndex ≤ delivered
  last : n.lastSnapshotIndex ≤ delivered
  below : SnapshotBelow n.store delivered
  held : n.lastSnapshotIndex < n.committedIndex →
    ∃ e b, (appliedEntries n.trace).getLast? = some e ∧ e.index = n.committedIndex ∧
      Holds n.store e ∧ b < e.index ∧ SnapshotBelow n.store b

/-- Only the indices, the storage and the applied entries count. -/
theorem CommandHeld.congr {n n' : RaftNode σ Event RocksDBStorage} {delivered : ℕ}
    (h : CommandHeld n delivered) (hcom : n'.committedIndex = n.committedIndex)
    (hlast : n'.lastSnapshotIndex = n.lastSnapshotIndex) (hstore : n'.store = n.store)
    (happ : appliedEntries n'.trace = appliedEntries n.trace) : CommandHeld n' delivered := by
  refine ⟨?_, ?_, ?_, ?_⟩
  · rw [hcom]
    exact h.committed
  · rw [hlast]
    exact h.last
  · rw [hstore]
    exact h.below
  · rw [hlast, hcom, hstore, happ]
    exact h.held

theorem CommandHeld.notifies {n n' : RaftNode σ Event RocksDBStorage} {delivered : ℕ}
    (h : CommandHeld n delivered) (hn : Notifies n n') : CommandHeld n' delivered :=
  h.congr hn.committedIndex hn.frame.lastSnapshotIndex hn.frame.store hn.applied

theorem CommandHeld.call {n n' : RaftNode σ Event RocksDBStorage} {delivered : ℕ}
    (h : CommandHeld n delivered) (hf : CallFrame n n') : CommandHeld n' delivered :=
  h.congr hf.committedIndex hf.lastSnapshotIndex hf.store (by rw [hf.trace])

theorem CommandHeld.evaluateSnapshot {n : RaftNode σ Event RocksDBStorage} {delivered : ℕ}
    (h : CommandHeld n delivered) : CommandHeld n.evaluateSnapshot delivered :=
  h.congr rfl rfl rfl (by simp [appliedEntries, RaftNode.evaluateSnapshot, emit])

end

/-! ## One call -/

section
variable [ProstMessage Entry] [ProstMessage HardState] [ProstMessage ConfState]
  [ProstMessage Snapshot]

/-- The term of the hard state after a ready was taken. -/
def termAfter (io : ReadyIo) (s : RocksDBStorage) : ℕ :=
  match io.ready.hs with
  | some hs => hs.term
  | none => s.hardState.term

/-- The term a created snapshot gets. -/
theorem hardState_term {io : ReadyIo} {s : RocksDBStorage} (hper : Persists io s)
    (hcommit : (commitReady io (takenStore io s)).1 = .ok ()) :
    (commitReady io (takenStore io s)).2.hardState.term = termAfter io s := by
  rw [commitReady_hardState hcommit, takenStore_hardState hper]
  unfold termAfter
  cases io.ready.hs <;> rfl

theorem rightTerms_restore (io : ReadyIo) (s : RocksDBStorage) :
    RightTerms (restoreEffects io s : List (Effect Event RocksDBStorage)) := by
  intro before snapshot hmem
  unfold restoreEffects at hmem
  split at hmem
  · exact absurd hmem List.not_mem_nil
  · split at hmem
    all_goals exact absurd (List.mem_singleton.mp hmem) (by simp)

/-- The contract of raft-rs about the log: it appends behind what it has delivered, and the
committed entries it hands out are those of the log. -/
structure ReadyIo.OfLog (io : ReadyIo) (store : RocksDBStorage) (delivered : ℕ) : Prop where
  orderly : io.Orderly delivered
  behind : ∀ x ∈ io.ready.entries, io.base delivered < x.index ∧ x.index < U64.size - 1
  held : Persists io store → ∀ e ∈ io.handedOut, Holds (takenStore io store) e

/-- A snapshot covers the last command. -/
theorem CommandHeld.recordSnapshot {n : RaftNode σ Event RocksDBStorage} {delivered : ℕ}
    {w : Faults} {s : RocksDBStorage} {data : Bytes} (h : CommandHeld n delivered)
    (hstore : n.store.applySnapshot w (n.snapshotOf data) = (.ok (), s)) :
    CommandHeld (n.recordSnapshot s (n.snapshotOf data)) delivered :=
  ⟨h.committed, h.committed, Or.inr ⟨_, applySnapshot_stored hstore, h.committed⟩,
    fun hlt => absurd hlt (Nat.lt_irrefl _)⟩

/-- A ready without a command keeps the last command in the log: a snapshot in it would lie above
the committed index. -/
theorem CommandHeld.held_of_no_command {io : ReadyIo} {n : RaftNode σ Event RocksDBStorage}
    {delivered : ℕ} (h : CommandHeld n delivered) (hlog : io.OfLog n.store delivered)
    (hper : Persists io n.store)
    (hlt : restoredIndex io n.lastSnapshotIndex < n.committedIndex) :
    ∃ e b, (appliedEntries n.trace).getLast? = some e ∧ e.index = n.committedIndex ∧
      Holds (takenStore io n.store) e ∧ b < e.index ∧ SnapshotBelow (takenStore io n.store) b := by
  have hbase := hlog.orderly.base_ge
  have hcommitted := h.committed
  have hsnap : io.ready.snapshot.isEmpty := by
    by_contra hs
    have hge := hlog.orderly.snapshot hs
    rw [restoredIndex, if_neg hs] at hlt
    omega
  rw [restoredIndex, if_pos hsnap] at hlt
  obtain ⟨e, b, hgot, hidx, hold, hb, hbel⟩ := h.held hlt
  have hbehind : ∀ x ∈ io.ready.entries, e.index < x.index ∧ x.index < U64.size - 1 := by
    intro x hx
    obtain ⟨h₁, h₂⟩ := hlog.behind x hx
    exact ⟨by omega, h₂⟩
  refine ⟨e, b, hgot, hidx, ?_, hb, hbel.of_eq (takenStore_snapshotData hsnap hper)⟩
  exact takenStore_holds hold (Nat.zero_lt_of_lt hb) hsnap hper hbehind

/-- What a call has applied when it is done with the log is held by the log. -/
theorem CommandHeld.take {io : ReadyIo} {n n' : RaftNode σ Event RocksDBStorage} {es : List Entry}
    {delivered : ℕ} (h : CommandHeld n delivered) (hlog : io.OfLog n.store delivered)
    (hper : Persists io n.store)
    (hes : (io.base delivered :: es.map (·.index)).Pairwise (· < ·))
    (hheld : ∀ e ∈ es, Holds (takenStore io n.store) e)
    (hsame : SameLog (takenStore io n.store) n'.store)
    (hcom : n'.committedIndex = lastCommandIndex es n.committedIndex)
    (hlast : n'.lastSnapshotIndex = restoredIndex io n.lastSnapshotIndex)
    (happ : appliedEntries n'.trace = appliedEntries n.trace ++ es.filter Entry.isCommand) :
    CommandHeld n' (lastDelivered es (io.base delivered)) := by
  have hbase := hlog.orderly.base_ge
  have hrest : restoredIndex io n.lastSnapshotIndex ≤ io.base delivered :=
    restoredIndex_le_base h.last
  have hbelow : SnapshotBelow n'.store (io.base delivered) :=
    (takenStore_snapshotBelow h.below hlog.orderly hper).of_eq hsame.snapshotData
  refine ⟨?_, ?_, hbelow.mono (le_lastDelivered hes), ?_⟩
  · rw [hcom]
    exact lastCommandIndex_le hes (h.committed.trans hbase)
  · rw [hlast]
    exact hrest.trans (le_lastDelivered hes)
  · intro hlt
    rw [hcom, hlast] at hlt
    rw [hcom, happ]
    by_cases hcmd : ∃ e ∈ es, e.isCommand
    · -- the last command of this call lies above whatever snapshot came with it
      obtain ⟨x, hx, hxc⟩ := hcmd
      have hne : es.filter Entry.isCommand ≠ [] :=
        List.ne_nil_of_mem (List.mem_filter.mpr ⟨hx, hxc⟩)
      set e := (es.filter Entry.isCommand).getLast hne with he
      have hmem : e ∈ es := List.mem_of_mem_filter (List.getLast_mem hne)
      refine ⟨e, io.base delivered, ?_, ?_, (hheld e hmem).of_sameLog hsame, ?_, hbelow⟩
      · rw [List.getLast?_append, List.getLast?_eq_some_getLast hne]
        rfl
      · rw [lastCommandIndex_eq, List.getLast?_eq_some_getLast hne]
        rfl
      · exact (List.pairwise_cons.mp hes).1 _ (List.mem_map_of_mem hmem)
    · -- without a command the one before is still the last
      have hnil : es.filter Entry.isCommand = [] := by
        rw [List.filter_eq_nil_iff]
        exact fun x hx hxc => hcmd ⟨x, hx, hxc⟩
      rw [lastCommandIndex_of_no_command hcmd] at hlt ⊢
      rw [hnil, List.append_nil]
      obtain ⟨e, b, hgot, hidx, hold, hb, hbel⟩ := h.held_of_no_command hlog hper hlt
      exact ⟨e, b, hgot, hidx, hold.of_sameLog hsame, hb, hbel.of_eq hsame.snapshotData⟩

variable [StateMachine σ Command Event] [SerdeJson Command] [ProstMessage ConfChange]
  [SerdeJson NodeMetadata]

/-- A call that reaches step 13 with a snapshot due has caught up with the last snapshot, and
the last command it has applied is of the current term. -/
def CreatesInTerm (io : ReadyIo) (n : RaftNode σ Event RocksDBStorage) : Prop :=
  ReachesSnapshot io n → n.snapshotInterval ≠ 0 →
    n.snapshotInterval ≤ U64.sub (lastCommandIndex io.handedOut n.committedIndex)
      (restoredIndex io n.lastSnapshotIndex) →
    restoredIndex io n.lastSnapshotIndex ≤ lastCommandIndex io.handedOut n.committedIndex ∧
      ∀ e, (appliedEntries n.trace ++ io.handedOut.filter Entry.isCommand).getLast? = some e →
        e.term = termAfter io n.store

theorem RaftNode.BeforeSnapshot.commandHeld {io : ReadyIo}
    {n n₁ : RaftNode σ Event RocksDBStorage} {delivered : ℕ} (before : BeforeSnapshot io n n₁)
    (h : CommandHeld n delivered) (hlog : io.OfLog n.store delivered) :
    CommandHeld n₁ (lastDelivered io.handedOut (io.base delivered)) := by
  refine h.take hlog before.persists hlog.orderly.entries (hlog.held before.persists) ?_
    before.committedIndex before.lastSnapshotIndex before.applied
  rw [before.store]
  exact commitReady_sameLog before.commits

/-- A snapshot that is created in the term of the last command has the right term. -/
theorem RaftNode.BeforeSnapshot.rightTerm {io : ReadyIo} {n n₁ : RaftNode σ Event RocksDBStorage}
    {delivered : ℕ} (hready : io.hasReady) (before : BeforeSnapshot io n n₁)
    (h : CommandHeld n₁ delivered) (hc : CreatesInTerm io n) (due : SnapshotDue n₁) (data : Bytes) :
    RightTerm n₁.store (n₁.snapshotOf data) := by
  obtain ⟨hint, hdue⟩ := due
  rw [before.snapshotInterval] at hint hdue
  rw [before.committedIndex, before.lastSnapshotIndex] at hdue
  obtain ⟨hle, hterm⟩ := hc (before.reaches hready) hint hdue
  -- at the same index nothing would be due
  have hlt : n₁.lastSnapshotIndex < n₁.committedIndex := by
    rw [before.committedIndex, before.lastSnapshotIndex]
    refine Nat.lt_of_le_of_ne hle ?_
    intro heq
    rw [heq, U64.sub_self] at hdue
    omega
  obtain ⟨e, b, hgot, hidx, hheld, hb, hbelow⟩ := h.held hlt
  rw [before.applied] at hgot
  -- the term of the snapshot is that of the hard state at its creation
  have hsnap : (n₁.snapshotOf data).metadata.term = e.term := by
    have hhard := hardState_term before.persists before.commits
    rw [← before.store] at hhard
    rw [hterm e hgot, ← hhard]
    rfl
  have hread := hheld.term hbelow hb
  refine ⟨⟨e, hidx, hheld, hsnap.symm⟩, ?_⟩
  intro w after hstore
  rw [applySnapshot_term hstore, hsnap, ← hread, hidx]
  rfl

/-- A call that reaches step 13 with a snapshot due creates it, when nothing fails. -/
theorem mem_created_of_due {io : ReadyIo} {n : RaftNode σ Event RocksDBStorage}
    (hreach : ReachesSnapshot io n) (hint : n.snapshotInterval ≠ 0)
    (hdue : n.snapshotInterval ≤ U64.sub (lastCommandIndex io.handedOut n.committedIndex)
      (restoredIndex io n.lastSnapshotIndex))
    (hdata : ∀ sm : σ, ∃ data, StateMachine.snapshot sm = .ok data)
    (hfaults : io.snapshotFaults = Faults.none) :
    ∃ n₁ data, BeforeSnapshot io n n₁ ∧
      Effect.snapshotCreated n₁.store (n₁.snapshotOf data) ∈ (onReady io n).2.trace := by
  obtain ⟨-, n₁, n₂, before, snap, watch⟩ := onReady_finishes hreach hfaults
  obtain ⟨δ, hδ, -⟩ := watch.frame.trace
  cases snap with
  | disabled h => exact absurd (before.snapshotInterval.symm.trans h) hint
  | kept enabled h =>
    rcases h with hno | ⟨e, he⟩
    · refine absurd ⟨enabled, ?_⟩ hno
      rw [before.snapshotInterval, before.committedIndex, before.lastSnapshotIndex]
      exact hdue
    · obtain ⟨data, hok⟩ := hdata n₁.stateMachine
      exact absurd (he.symm.trans hok) (by simp)
  | created data s due hsm hstore =>
    refine ⟨n₁, data, before, ?_⟩
    rw [hδ]
    simp [RaftNode.recordSnapshot, emit]

/-- What a call leaves: right terms, and if the node runs on, a log that holds the last
command. -/
theorem onReady_rightTerms {io : ReadyIo} {n : RaftNode σ Event RocksDBStorage} {delivered : ℕ}
    (hready : io.hasReady) (hright : RightTerms n.trace) (h : CommandHeld n delivered)
    (hlog : io.OfLog n.store delivered) (hc : CreatesInTerm io n) :
    RightTerms (onReady io n).2.trace ∧ ((onReady io n).1.isOk →
      CommandHeld (onReady io n).2 (io.deliveredAfter n.currentRole delivered)) := by
  have hrest : RightTerms (n.trace ++ restoreEffects io n.store) :=
    hright.append (rightTerms_restore io n.store)
  have hrun := onReady_run hready n
  generalize (onReady io n).1 = out at hrun
  generalize (onReady io n).2 = n' at hrun
  -- snapshots come about in the restore and in step 13; no other effect is one
  cases hrun with
  | takeFailed err n' hf =>
    obtain ⟨δ, hδ, hap, -⟩ := hf.trace
    refine ⟨?_, fun hok => absurd hok Bool.false_ne_true⟩
    rw [hδ]
    exact hrest.append (rightTerms_other fun e he =>
      (hap e he).elim isOther_of_isApply isOther_of_isFault)
  | preCandidate n' take pre =>
    obtain ⟨δ, hδ, hap⟩ := take.trace
    refine ⟨?_, fun _ => ?_⟩
    · rw [hδ]
      exact hrest.append (rightTerms_other fun e he => isOther_of_isApply (hap e he))
    · rw [ReadyIo.deliveredAfter, if_pos hready, ReadyIo.taken, if_pos pre]
      refine h.take hlog take.persists hlog.orderly.committed ?_ ?_ take.committedIndex
        take.lastSnapshotIndex take.applied
      · intro e he
        exact hlog.held take.persists e (List.mem_append_left _ he)
      · rw [take.store]
        exact ⟨rfl, rfl, rfl, rfl⟩
  | sendingFailed err n' hf =>
    obtain ⟨δ, hδ, hap⟩ := hf.trace
    refine ⟨?_, fun hok => absurd hok Bool.false_ne_true⟩
    rw [hδ]
    exact hrest.append (rightTerms_other fun e he =>
      (hap e he).elim isOther_of_isAdvancing isOther_of_isRole)
  | snapshotFailed n₁ err n' before hs =>
    obtain ⟨δ, hδ, hother⟩ := before.trace_other
    refine ⟨?_, fun hok => absurd hok Bool.false_ne_true⟩
    cases hs with
    | failed data s e due hstore =>
      show RightTerms (n₁.trace ++ _ ++ _)
      rw [hδ]
      refine ((hrest.append (rightTerms_other hother)).append ?_).append ?_
      all_goals exact fun _ _ hmem => absurd (List.mem_singleton.mp hmem) (by simp)
  | finished n₁ n₂ n' before snap watch =>
    obtain ⟨δ, hδ, hother⟩ := before.trace_other
    obtain ⟨δ', hδ', hap⟩ := watch.frame.trace
    have hheld := before.commandHeld h hlog
    have hright₀ : RightTerms n₁.trace := by
      rw [hδ]
      exact hrest.append (rightTerms_other hother)
    have hright₁ : RightTerms n₁.evaluateSnapshot.trace := by
      refine hright₀.append ?_
      exact fun _ _ hmem => absurd (List.mem_singleton.mp hmem) (by simp)
    have htail : RightTerms δ' := rightTerms_other fun e he => isOther_of_isApply (hap e he)
    rw [hδ', ReadyIo.deliveredAfter, if_pos hready, ReadyIo.taken, if_neg before.noPreCandidate]
    -- a created snapshot has the term of the last command, which the storage still holds
    cases snap with
    | disabled => exact ⟨hright₀.append htail, fun _ => hheld.notifies watch⟩
    | kept => exact ⟨hright₁.append htail, fun _ => hheld.evaluateSnapshot.notifies watch⟩
    | created data s due hdata hstore =>
      refine ⟨(hright₁.append ?_).append htail, fun _ => ?_⟩
      · intro store snapshot hmem
        obtain ⟨rfl, rfl⟩ := Effect.snapshotCreated.inj (List.mem_singleton.mp hmem)
        exact before.rightTerm hready hheld hc due data
      · exact (hheld.recordSnapshot hstore).notifies watch

/-! ## Runs -/

variable [ProstMessage Message]

/-- raft-rs keeps to its contract. -/
def NodeOp.OfLog (s : NodeRun σ Event RocksDBStorage) : NodeOp Command → Prop
  | .ready io => io.hasReady → io.OfLog s.node.store s.delivered
  | _ => True

/-- A ready in which a snapshot gets due finds the last command in the current term. -/
def NodeOp.CreatesInTerm (s : NodeRun σ Event RocksDBStorage) : NodeOp Command → Prop
  | .ready io => io.hasReady → Raftoral.CreatesInTerm io s.node
  | _ => True

/-- The invariant of a run. -/
structure TermInv (s : NodeRun σ Event RocksDBStorage) : Prop where
  right : RightTerms s.node.trace
  running : s.running → CommandHeld s.node s.delivered

theorem step_termInv {s s' : NodeRun σ Event RocksDBStorage} {op : NodeOp Command} (h : TermInv s)
    (hlog : op.OfLog s) (hc : op.CreatesInTerm s) (hs : s.step op = some s') : TermInv s' := by
  obtain ⟨hrunning, ⟨-, hframe, hdel⟩ | ⟨io, rfl, hready, rfl⟩⟩ := NodeRun.step_cases hs
  · constructor
    · rw [hframe.trace]
      exact h.right
    · intro _
      rw [hdel]
      exact (h.running hrunning).call hframe
  · obtain ⟨hright, hheld⟩ :=
      onReady_rightTerms hready h.right (h.running hrunning) (hlog hready) (hc hready)
    exact ⟨hright, hheld⟩

/-- Over every run of a node, if snapshots get due only while the last command is of the
current term, every created snapshot has the right term. raft-rs starts to deliver at or above
the snapshot the storage already has. -/
theorem snapshot_terms_right (config : RaftNodeConfig) (peers : Peers) (stateMachine : σ)
    (confState : ConfState) (store : RocksDBStorage) (delivered : ℕ)
    (hstore : SnapshotBelow store delivered) (ops : List (NodeOp Command))
    (s : NodeRun σ Event RocksDBStorage)
    (hraft : Transition.Along NodeRun.step NodeOp.OfLog
      (NodeRun.start config peers stateMachine confState store delivered) ops)
    (hterm : Transition.Along NodeRun.step NodeOp.CreatesInTerm
      (NodeRun.start config peers stateMachine confState store delivered) ops)
    (hrun : Transition.run NodeRun.step
      (NodeRun.start config peers stateMachine confState store delivered) ops = some s) :
    RightTerms s.node.trace := by
  have hstart : TermInv (NodeRun.start config peers stateMachine confState store delivered :
      NodeRun σ Event RocksDBStorage) :=
    ⟨fun _ _ hmem => absurd hmem List.not_mem_nil, fun _ => ⟨Nat.zero_le _, Nat.zero_le _, hstore,
      fun hlt => absurd hlt (Nat.lt_irrefl _)⟩⟩
  have hboth : Transition.Along NodeRun.step (fun s op => NodeOp.OfLog s op ∧
      NodeOp.CreatesInTerm s op) (NodeRun.start config peers stateMachine confState store delivered :
      NodeRun σ Event RocksDBStorage) ops := hraft.and hterm
  exact (Transition.run_induction (I := TermInv)
    (fun s op s' h hc hs => step_termInv h hc.1 hc.2 hs) hstart hboth hrun).right

end

section
open scoped Codec

/-- A follower is sent the command of an old leader and the first, empty entry of a leader of
the given term, and both get committed. -/
def electedReady (term : ℕ) : ReadyIo where
  ready :=
    { entries := [{ term := 1, index := 1, data := [0x7b] }, { term, index := 2 }]
      hs := some { term, vote := 2, commit := 0 } }
  lightReady :=
    { commitIndex := some 2
      committedEntries := [{ term := 1, index := 1, data := [0x7b] }, { term, index := 2 }] }
  applyConfChange _ := .error "no configuration change"

/-- A new node that takes a snapshot after every command. -/
abbrev eagerNode (store : RocksDBStorage) : NodeRun KvStateMachine KvEvent RocksDBStorage :=
  NodeRun.start { snapshotInterval := 1 } (fun _ => none) {} { voters := [1, 2] } store 0

/-- The storage after the ready was taken stands for the two entries. -/
theorem electedReady_represents (term : ℕ) {store : RocksDBStorage}
    (hrep : Represents 1 store { offset := 0, entries := [] }) :
    Persists (electedReady term) store ∧ Represents 1 (takenStore (electedReady term) store)
      { offset := 0
        entries := [{ term := 1, index := 1, data := [0x7b] }, { term, index := 2 }] } := by
  have happ : (electedReady term).AppendsAbove 0 store.lastIndexCache := by
    intro _
    refine ⟨rfl, Nat.zero_lt_one, ?_, ?_⟩
    · show 1 ≤ store.lastIndexCache + 1
      omega
    · intro x hx
      simp only [electedReady, List.mem_cons, List.not_mem_nil, or_false] at hx
      rcases hx with rfl | rfl <;> simp [U64.size]
  have hper : Persists (electedReady term) store := hrep.persists rfl rfl happ rfl rfl
  exact ⟨hper, takenStore_represents hrep rfl rfl happ hper⟩

theorem electedReady_ofLog (term : ℕ) {store : RocksDBStorage}
    (hrep : Represents 1 store { offset := 0, entries := [] }) :
    (electedReady term).OfLog store 0 := by
  refine ⟨⟨fun h => absurd rfl h, ?_⟩, ?_, ?_⟩
  · simp [electedReady, ReadyIo.handedOut, ReadyIo.base, Snapshot.isEmpty]
  · intro x hx
    simp only [electedReady, List.mem_cons, List.not_mem_nil, or_false] at hx
    rcases hx with rfl | rfl <;> simp [U64.size, ReadyIo.base, electedReady, Snapshot.isEmpty]
  · intro _ e he
    have hread := (electedReady_represents term hrep).2.entries
    simp only [electedReady, ReadyIo.handedOut, List.nil_append, List.mem_cons, List.not_mem_nil,
      or_false] at he
    rcases he with rfl | rfl
    · exact (hread 1 2).trans rfl
    · exact (hread 2 3).trans rfl

theorem electedReady_reaches (term : ℕ) {store : RocksDBStorage}
    (hrep : Represents 1 store { offset := 0, entries := [] }) :
    ReachesSnapshot (electedReady term) (eagerNode store).node where
  ready := rfl
  accepts e he := absurd he List.not_mem_nil
  persists := (electedReady_represents term hrep).1
  noPreCandidate := by simp [AnnouncesPreCandidate, electedReady]
  canSend := ⟨fun m hm => absurd hm List.not_mem_nil, fun m hm => absurd hm List.not_mem_nil,
    fun m hm => absurd hm List.not_mem_nil⟩
  acceptsLight e he hconf := by
    simp only [electedReady, List.mem_cons, List.not_mem_nil, or_false] at he
    rcases he with rfl | rfl <;> exact absurd hconf (by simp [Entry.isConfChange])
  commits := (electedReady_represents term hrep).2.commits rfl

/-- The command of the last ready is the only one, and it makes a snapshot due. -/
theorem electedReady_due (term : ℕ) (store : RocksDBStorage) :
    lastCommandIndex (electedReady term).handedOut (eagerNode store).node.committedIndex = 1 ∧
      restoredIndex (electedReady term) (eagerNode store).node.lastSnapshotIndex = 0 ∧
      (eagerNode store).node.snapshotInterval = 1 := ⟨rfl, rfl, rfl⟩

theorem electedReady_creates (term : ℕ) {store : RocksDBStorage}
    (hrep : Represents 1 store { offset := 0, entries := [] }) :
    ∃ n₁ data, BeforeSnapshot (electedReady term) (eagerNode store).node n₁ ∧
      Effect.snapshotCreated n₁.store (n₁.snapshotOf data) ∈
        ((eagerNode store).afterReady (electedReady term)).node.trace := by
  obtain ⟨hcom, hlast, hint⟩ := electedReady_due term store
  rw [NodeRun.afterReady_node]
  refine mem_created_of_due (electedReady_reaches term hrep) (by rw [hint]; decide) ?_
    (fun sm => ⟨_, rfl⟩) rfl
  rw [hcom, hlast, hint]
  decide

/-- A leader of the term of the command: the snapshot has its term. -/
theorem snapshot_terms_right_same_term :
    ∃ store s, (createStorage Faults.none { snapshotInterval := 1 } { voters := [1, 2] } {}).1 =
        .ok store ∧
      Transition.run NodeRun.step (eagerNode store) [.ready (electedReady 1)] = some s ∧
      (∃ before snapshot, Effect.snapshotCreated before snapshot ∈ s.node.trace) ∧
      RightTerms s.node.trace := by
  obtain ⟨store, hopen, hrep⟩ := open_fresh_represents 1 { voters := [1, 2] }
  obtain ⟨n₁, data, -, hmem⟩ := electedReady_creates 1 hrep
  have hrun := run_ready (s := eagerNode store) rfl (electedReady 1)
  refine ⟨store, _, hopen, hrun, ⟨_, _, hmem⟩, ?_⟩
  refine snapshot_terms_right { snapshotInterval := 1 } (fun _ => none) ({} : KvStateMachine)
    { voters := [1, 2] } store 0 (Or.inl hrep.noSnapshot) [.ready (electedReady 1)] _ ?_ ?_ hrun
  · exact ⟨fun _ => electedReady_ofLog 1 hrep, by simp⟩
  · refine ⟨fun _ _ _ _ => ⟨Nat.zero_le _, ?_⟩, by simp⟩
    intro e he
    obtain rfl : e = { term := 1, index := 1, data := [0x7b] } := (Option.some.inj he).symm
    rfl

/-- A leader of a later term: the snapshot of the command at index one is of term two. -/
theorem snapshot_of_older_term :
    ∃ store s, (createStorage Faults.none { snapshotInterval := 1 } { voters := [1, 2] } {}).1 =
        .ok store ∧
      Transition.Along NodeRun.step NodeOp.OfLog (eagerNode store) [.ready (electedReady 2)] ∧
      Transition.run NodeRun.step (eagerNode store) [.ready (electedReady 2)] = some s ∧
      ¬ RightTerms s.node.trace := by
  obtain ⟨store, hopen, hrep⟩ := open_fresh_represents 1 { voters := [1, 2] }
  obtain ⟨n₁, data, before, hmem⟩ := electedReady_creates 2 hrep
  refine ⟨store, _, hopen, ⟨fun _ => electedReady_ofLog 2 hrep, by simp⟩,
    run_ready (s := eagerNode store) rfl (electedReady 2), ?_⟩
  intro hright
  obtain ⟨e, hidx, hheld, hterm⟩ := (hright _ _ hmem).entry
  have hcom : (n₁.snapshotOf data).metadata.index = 1 := by
    rw [← (electedReady_due 2 store).1, ← before.committedIndex]
    rfl
  -- the entry at index one is the command of term one
  have hone : n₁.store.entries 1 2 none = .ok [{ term := 1, index := 1, data := [0x7b] }] := by
    have hlog := (electedReady_ofLog 2 hrep).held before.persists
      { term := 1, index := 1, data := [0x7b] } (by simp [electedReady, ReadyIo.handedOut])
    rw [before.store]
    exact hlog.of_sameLog (commitReady_sameLog before.commits)
  have he : e = { term := 1, index := 1, data := [0x7b] } := by
    rw [Holds, hidx, hcom, hone] at hheld
    simpa using hheld.symm
  have htwo : (n₁.snapshotOf data).metadata.term = 2 := by
    have hhard := hardState_term before.persists before.commits
    rw [← before.store] at hhard
    exact hhard
  rw [htwo, he] at hterm
  exact absurd hterm (by decide)

end

end Raftoral

import Raftoral.Lib.Replay
import Raftoral.Raft.ProposalCluster
import Raftoral.Raft.ReadyStorage
import Raftoral.Raft.SnapshotSchedule

/-!
# A node that follows the log

raft-rs hands out the entries of one log, and snapshots that other nodes have sent. A node that
takes them is in the state of the log up to where it is (`Follower`), and so is the snapshot that
it stores, unless it has created it while its committed index lay behind its last snapshot
(`createdBehind`): then the state is stored under that older index.
-/

namespace Raftoral

open RaftNode ProstMessage

variable {σ Command Event : Type}

/-- The entries of a log are numbered from one on. -/
def Numbered (log : List Entry) : Prop := ∀ (j : ℕ) (e : Entry), log[j]? = some e → e.index = j + 1

/-! ## The part of a log that is handed out -/

theorem lastDelivered_of_prefix {log es : List Entry} (hlog : Numbered log) {b : ℕ}
    (h : es <+: log.drop b) : lastDelivered es b = b + es.length := by
  unfold lastDelivered
  induction es using List.reverseRecOn with
  | nil => rfl
  | append_singleton es e ih =>
    obtain ⟨rest, hrest⟩ := h
    have he : log[b + es.length]? = some e := by
      rw [← List.getElem?_drop, ← hrest]
      simp
    rw [List.foldl_append, List.length_append, List.length_singleton]
    exact hlog _ e he

theorem pairwise_of_prefix_drop {log es : List Entry} (hlog : Numbered log) {b : ℕ}
    (h : es <+: log.drop b) : (b :: es.map (·.index)).Pairwise (· < ·) := by
  have hindex : es.map (·.index) = List.range' (b + 1) es.length := by
    refine List.ext_getElem? fun j => ?_
    by_cases hj : j < es.length
    · obtain ⟨rest, hrest⟩ := h
      have he : log[b + j]? = some es[j] := by
        rw [← List.getElem?_drop, ← hrest, List.getElem?_append_left hj,
          List.getElem?_eq_getElem hj]
      rw [List.getElem?_map, List.getElem?_eq_getElem hj, Option.map_some, hlog _ _ he,
        List.getElem?_range' hj]
      simp only [Option.some.injEq]
      omega
    · rw [List.getElem?_eq_none (by simpa using hj), List.getElem?_eq_none (by simpa using hj)]
  rw [hindex]
  exact List.pairwise_lt_range' (n := es.length + 1)

/-- The entries behind the last command of a part of the log. -/
theorem no_command_behind {log es : List Entry} (hlog : Numbered log) {b c : ℕ}
    (h : es <+: log.drop b)
    (hold : (¬ ∃ e ∈ es, e.isCommand) → ∀ (j : ℕ) (e : Entry), c ≤ j → j < b →
      log[j]? = some e → ¬ e.isCommand) (j : ℕ) (e : Entry) (hj : lastCommandIndex es c ≤ j)
    (hlt : j < b + es.length) (he : log[j]? = some e) : ¬ e.isCommand := by
  induction es using List.reverseRecOn with
  | nil => exact hold (by simp) j e hj (by simpa using hlt) he
  | append_singleton es x ih =>
    have hprefix : es <+: log.drop b := (List.prefix_append es [x]).trans h
    obtain ⟨rest, hrest⟩ := h
    have hx : log[b + es.length]? = some x := by
      rw [← List.getElem?_drop, ← hrest]
      simp
    rw [lastCommandIndex, List.foldl_append, List.foldl_cons, List.foldl_nil] at hj
    rw [List.length_append, List.length_singleton] at hlt
    by_cases hcommand : x.isCommand
    · rw [if_pos hcommand, hlog _ x hx] at hj
      omega
    · rw [if_neg hcommand] at hj
      by_cases hlast : j = b + es.length
      · rw [hlast, hx, Option.some.injEq] at he
        exact he ▸ hcommand
      · refine ih hprefix (fun hno => hold fun hsome => hno ?_) hj (by omega)
        obtain ⟨y, hy, hycommand⟩ := hsome
        rcases List.mem_append.mp hy with hy | hy
        · exact ⟨y, hy, hycommand⟩
        · exact absurd (List.mem_singleton.mp hy ▸ hycommand) hcommand

/-! ## The contract of raft-rs -/

/-- A snapshot is one that a node has sent, and it does not go back; the committed entries are
those of the log, in order. -/
structure ReadyIo.OfCluster (io : ReadyIo) (log : List Entry) (sent : List Snapshot)
    (delivered : ℕ) : Prop where
  snapshot : ¬ io.ready.snapshot.isEmpty →
    io.ready.snapshot ∈ sent ∧ delivered ≤ io.ready.snapshot.metadata.index
  entries : io.handedOut <+: log.drop (io.base delivered)

theorem ReadyIo.OfCluster.taken {io : ReadyIo} {log : List Entry} {sent : List Snapshot}
    {delivered : ℕ} (h : io.OfCluster log sent delivered) (role : StateRole) :
    io.taken role <+: log.drop (io.base delivered) := by
  unfold ReadyIo.taken
  split
  · exact (List.prefix_append _ _).trans h.entries
  · exact h.entries

theorem ReadyIo.OfCluster.base_ge {io : ReadyIo} {log : List Entry} {sent : List Snapshot}
    {delivered : ℕ} (h : io.OfCluster log sent delivered) : delivered ≤ io.base delivered := by
  unfold ReadyIo.base
  split
  · exact le_rfl
  next hsnap => exact (h.snapshot hsnap).2

section
variable [StateMachine σ Command Event] [SerdeJson Command]

/-- A snapshot that is the one of the log up to its index. -/
structure RightSnapshot (log : List Entry) (newMachine : σ) (snapshot : Snapshot) : Prop where
  index : snapshot.metadata.index ≤ log.length
  data : StateMachine.snapshot (replay newMachine (log.take snapshot.metadata.index)) =
    .ok snapshot.data

/-- Whatever state it is restored into, a snapshot of a replayed log brings its state back. -/
def Restorable (newMachine : σ) : Prop :=
  ∀ (es : List Entry) (data : Bytes), StateMachine.snapshot (replay newMachine es) = .ok data →
    ∀ sm : σ, (StateMachine.restore sm data).2 = replay newMachine es

/-- Every snapshot the storage holds is right. -/
def StoresRight [ProstMessage Snapshot] (log : List Entry) (newMachine : σ) (s : RocksDBStorage) :
    Prop :=
  ∀ bytes, s.db.snapshotData = some bytes →
    ∃ snapshot : Snapshot, bytes = encodeToVec snapshot ∧ RightSnapshot log newMachine snapshot

/-- A node whose state is that of the log up to where it is. The snapshot it stores is right as
well, unless it was created behind the last one. -/
structure Follower [ProstMessage Snapshot] (log : List Entry) (newMachine : σ)
    (r : NodeRun σ Event RocksDBStorage) : Prop where
  delivered : r.delivered ≤ log.length
  machine : r.node.stateMachine = replay newMachine (log.take r.delivered)
  last : r.node.lastSnapshotIndex ≤ r.delivered
  committed : r.node.committedIndex ≤ r.delivered
  caughtUp : r.node.lastSnapshotIndex < r.node.committedIndex → ∀ (j : ℕ) (e : Entry),
    r.node.committedIndex ≤ j → j < r.delivered → log[j]? = some e → ¬ e.isCommand
  stores : createdBehind r.node.trace = false → StoresRight log newMachine r.node.store

/-- Entries that are no commands do not count. -/
theorem replay_take_of_idle (sm : σ) {log : List Entry} {p q : ℕ} (hpq : p ≤ q)
    (hidle : ∀ (j : ℕ) (e : Entry), p ≤ j → j < q → log[j]? = some e → ¬ e.isCommand) :
    replay sm (log.take q) = replay sm (log.take p) :=
  Replay.foldl_take_of_idle hpq (fun j e hj hlt he _ => if_neg (hidle j e hj hlt he)) sm

section
variable [ProstMessage Snapshot] [ProstMessage ConfState]

omit [ProstMessage ConfState] in
theorem StoresRight.of_eq {log : List Entry} {newMachine : σ} {s s' : RocksDBStorage}
    (h : StoresRight log newMachine s) (heq : s'.db.snapshotData = s.db.snapshotData) :
    StoresRight log newMachine s' := by
  unfold StoresRight
  rw [heq]
  exact h

/-- Storing a right snapshot, with or without success. -/
theorem StoresRight.applySnapshot {log : List Entry} {newMachine : σ} {s : RocksDBStorage}
    {snapshot : Snapshot} (h : StoresRight log newMachine s)
    (hright : RightSnapshot log newMachine snapshot) (w : Faults) :
    StoresRight log newMachine (s.applySnapshot w snapshot).2 := by
  have hact : ∀ a ∈ RocksDBStorage.applySnapshotActions snapshot, ∀ s : RocksDBStorage,
      StoresRight log newMachine s → StoresRight log newMachine (a.apply s) := by
    intro a ha s hs
    simp only [RocksDBStorage.applySnapshotActions, List.mem_cons, List.not_mem_nil,
      or_false] at ha
    rcases ha with rfl | rfl | rfl | rfl
    · exact fun bytes hbytes => ⟨snapshot, (Option.some.inj hbytes).symm, hright⟩
    all_goals exact hs.of_eq rfl
  have hrel := perform_rel (R := fun s t => StoresRight log newMachine s →
    StoresRight log newMachine t) (fun _ h => h) (fun _ _ _ h₁ h₂ h => h₂ (h₁ h)) hact w s
  exact hrel h

omit [ProstMessage ConfState] in
theorem StoresRight.snapshot {log : List Entry} {newMachine : σ} {s : RocksDBStorage}
    (h : StoresRight log newMachine s) {requestIndex : ℕ} {snapshot : Snapshot}
    (hsnap : s.snapshot requestIndex = .ok snapshot) : RightSnapshot log newMachine snapshot := by
  unfold RocksDBStorage.snapshot RocksDBStorage.getSnapshot at hsnap
  cases hdata : s.db.snapshotData with
  | none => simp [hdata] at hsnap
  | some bytes =>
    obtain ⟨stored, rfl, hright⟩ := h bytes hdata
    simp only [hdata, decode_encodeToVec, Except.map, Except.mapError] at hsnap
    split at hsnap
    · exact absurd hsnap (by simp)
    · exact Except.ok.inj hsnap ▸ hright

omit [ProstMessage ConfState] in
/-- A node starts without a snapshot, and raft-rs begins with the first entry. -/
theorem Follower.start {log : List Entry} {newMachine : σ} {store : RocksDBStorage}
    (hstore : store.db.snapshotData = none) (config : RaftNodeConfig) (peers : Peers)
    (confState : ConfState) :
    Follower log newMachine (NodeRun.start config peers newMachine confState store 0) := by
  refine ⟨Nat.zero_le _, rfl, le_rfl, le_rfl, fun _ j e _ hlt => ?_, fun _ bytes hbytes => ?_⟩
  · exact absurd hlt (Nat.not_lt_zero j)
  · have hsome : store.db.snapshotData = some bytes := hbytes
    exact absurd (hstore.symm.trans hsome) (by simp)

/-! ## One call -/

variable [ProstMessage Entry] [ProstMessage HardState]

/-- A received snapshot takes the place of the stored one, unless it cannot be written. -/
theorem restoreStore_storesRight {io : ReadyIo} {log : List Entry} {newMachine : σ}
    {s : RocksDBStorage} {τ : List (Effect Event RocksDBStorage)}
    (h : createdBehind τ = false → StoresRight log newMachine s)
    (hright : ¬ io.ready.snapshot.isEmpty → RightSnapshot log newMachine io.ready.snapshot)
    (hbehind : createdBehind (τ ++ restoreEffects io s) = false) :
    StoresRight log newMachine (restoreStore io s) := by
  unfold restoreEffects at hbehind
  unfold restoreStore
  by_cases hsnap : io.ready.snapshot.isEmpty
  · rw [if_pos hsnap, List.append_nil] at hbehind
    rw [if_pos hsnap]
    exact h hbehind
  · rw [if_neg hsnap] at hbehind ⊢
    rcases hstore : s.applySnapshot io.restoreFaults io.ready.snapshot with ⟨e | _, s'⟩
    · have hstored : RaftStorage.applySnapshotWithData io.restoreFaults s io.ready.snapshot =
          (.error e, s') := hstore
      rw [hstored] at hbehind ⊢
      rw [createdBehind_append_other τ (by simp [Effect.IsOther])] at hbehind
      have hkept := (h hbehind).applySnapshot (hright hsnap) io.restoreFaults
      rw [hstore] at hkept
      exact hkept
    · have hstored : RaftStorage.applySnapshotWithData io.restoreFaults s io.ready.snapshot =
          (.ok (), s') := hstore
      rw [hstored]
      intro bytes hbytes
      rw [applySnapshot_stored hstore, Option.some.injEq] at hbytes
      exact ⟨_, hbytes.symm, hright hsnap⟩

theorem takenStore_storesRight {io : ReadyIo} {log : List Entry} {newMachine : σ}
    {s : RocksDBStorage} {τ δ : List (Effect Event RocksDBStorage)}
    (h : createdBehind τ = false → StoresRight log newMachine s)
    (hright : ¬ io.ready.snapshot.isEmpty → RightSnapshot log newMachine io.ready.snapshot)
    (hper : Persists io s) (hother : ∀ e ∈ δ, Effect.IsOther e)
    (hbehind : createdBehind (τ ++ restoreEffects io s ++ δ) = false) :
    StoresRight log newMachine (takenStore io s) := by
  rw [createdBehind_append_other _ hother] at hbehind
  have hrestored := restoreStore_storesRight h hright hbehind
  have happ := hrestored.of_eq (append_hardState (appendReady_eq hper.1)).2
  exact happ.of_eq (hardStateReady_sameLog hper.2).snapshotData

omit [ProstMessage ConfState] [ProstMessage Entry] [ProstMessage HardState] in
/-- What a node has taken of a ready: the snapshot, if there is one, and entries behind it. -/
theorem Follower.take {log : List Entry} {newMachine : σ} (hlog : Numbered log)
    (hrestore : Restorable newMachine) {r r' : NodeRun σ Event RocksDBStorage}
    (h : Follower log newMachine r) {io : ReadyIo} {sent : List Snapshot} {es : List Entry}
    (hcluster : io.OfCluster log sent r.delivered)
    (hsent : ∀ snapshot ∈ sent, RightSnapshot log newMachine snapshot)
    (hes : es <+: log.drop (io.base r.delivered))
    (hdelivered : r'.delivered = lastDelivered es (io.base r.delivered))
    (hmachine : r'.node.stateMachine = replay (restoredMachine io r.node.stateMachine) es)
    (hlast : r'.node.lastSnapshotIndex = restoredIndex io r.node.lastSnapshotIndex)
    (hcommitted : r'.node.committedIndex = lastCommandIndex es r.node.committedIndex)
    (hstores : createdBehind r'.node.trace = false → StoresRight log newMachine r'.node.store) :
    Follower log newMachine r' := by
  have hbase := hcluster.base_ge
  have hlength : io.base r.delivered ≤ log.length := by
    unfold ReadyIo.base
    split
    · exact h.delivered
    next hsnap => exact (hsent _ (hcluster.snapshot hsnap).1).index
  have hend : r'.delivered = io.base r.delivered + es.length := by
    rw [hdelivered, lastDelivered_of_prefix hlog hes]
  have hstart : restoredMachine io r.node.stateMachine =
      replay newMachine (log.take (io.base r.delivered)) := by
    unfold restoredMachine ReadyIo.base
    by_cases hsnap : io.ready.snapshot.isEmpty
    · rw [if_pos hsnap, if_pos hsnap]
      exact h.machine
    · rw [if_neg hsnap, if_neg hsnap]
      exact hrestore _ _ (hsent _ (hcluster.snapshot hsnap).1).data _
  have hrestored : restoredIndex io r.node.lastSnapshotIndex ≤ io.base r.delivered :=
    restoredIndex_le_base h.last
  refine ⟨?_, ?_, ?_, ?_, fun hcaught => ?_, hstores⟩
  · have hle := hes.length_le
    rw [List.length_drop] at hle
    omega
  · rw [hmachine, hstart, hend]
    exact Replay.foldl_take_of_prefix hes newMachine
  · rw [hlast]
    omega
  · rw [hcommitted, hdelivered]
    exact lastCommandIndex_le (pairwise_of_prefix_drop hlog hes) (h.committed.trans hbase)
  · rw [hcommitted, hend]
    rw [hlast, hcommitted] at hcaught
    refine no_command_behind hlog hes fun hno => ?_
    rw [lastCommandIndex_of_no_command hno] at hcaught
    -- without a command, a snapshot that the node has caught up with does not lie ahead
    intro j e hj hlt
    by_cases hsnap : io.ready.snapshot.isEmpty
    · rw [restoredIndex, if_pos hsnap] at hcaught
      rw [ReadyIo.base, if_pos hsnap] at hlt
      exact h.caughtUp hcaught j e hj hlt
    · rw [restoredIndex, if_neg hsnap] at hcaught
      have hahead := h.committed.trans (hcluster.snapshot hsnap).2
      omega

/-- A node that is ahead of the last snapshot stores one of the log up to its committed index. -/
theorem Follower.rightSnapshot {log : List Entry} {newMachine : σ}
    {r : NodeRun σ Event RocksDBStorage} (h : Follower log newMachine r)
    (hcaught : r.node.lastSnapshotIndex < r.node.committedIndex) {data : Bytes}
    (hdata : StateMachine.snapshot r.node.stateMachine = .ok data) :
    RightSnapshot log newMachine (r.node.snapshotOf data) := by
  refine ⟨h.committed.trans h.delivered, ?_⟩
  rw [h.machine, replay_take_of_idle newMachine h.committed (h.caughtUp hcaught)] at hdata
  exact hdata

theorem Follower.recordSnapshot {log : List Entry} {newMachine : σ}
    {r : NodeRun σ Event RocksDBStorage} (h : Follower log newMachine r)
    (due : SnapshotDue r.node) {data : Bytes}
    (hdata : StateMachine.snapshot r.node.stateMachine = .ok data) {w : Faults}
    {s : RocksDBStorage}
    (hstore : r.node.store.applySnapshot w (r.node.snapshotOf data) = (.ok (), s)) :
    Follower log newMachine
      { r with node := r.node.recordSnapshot s (r.node.snapshotOf data) } := by
  refine ⟨h.delivered, h.machine, h.committed, h.committed,
    fun hlt => absurd hlt (Nat.lt_irrefl _), fun hbehind => ?_⟩
  have htrace : (r.node.recordSnapshot s (r.node.snapshotOf data)).trace = r.node.trace ++
      [.snapshotEvaluated r.node.committedIndex r.node.lastSnapshotIndex,
        .snapshotCreated r.node.store (r.node.snapshotOf data)] := by
    simp [RaftNode.recordSnapshot, evaluateSnapshot, withStore, emit]
  rw [htrace, createdBehind_created, decide_eq_false_iff_not, Nat.not_lt] at hbehind
  -- one that is due is not due at the last snapshot itself
  have hne : r.node.lastSnapshotIndex ≠ r.node.committedIndex := by
    intro heq
    have hle := due.2
    rw [heq, U64.sub_self] at hle
    exact due.1 (Nat.le_zero.mp hle)
  intro bytes hbytes
  have hstored := applySnapshot_stored hstore
  rw [show s.db.snapshotData = some bytes from hbytes, Option.some.injEq] at hstored
  exact ⟨_, hstored, h.rightSnapshot (lt_of_le_of_ne hbehind hne) hdata⟩

omit [ProstMessage ConfState] [ProstMessage Entry] [ProstMessage HardState] in
/-- Only the fields that the invariant speaks about count. -/
theorem Follower.congr {log : List Entry} {newMachine : σ} {r r' : NodeRun σ Event RocksDBStorage}
    (h : Follower log newMachine r) (hdelivered : r'.delivered = r.delivered)
    (hmachine : r'.node.stateMachine = r.node.stateMachine)
    (hlast : r'.node.lastSnapshotIndex = r.node.lastSnapshotIndex)
    (hcommitted : r'.node.committedIndex = r.node.committedIndex)
    (hstore : r'.node.store = r.node.store)
    (hbehind : createdBehind r'.node.trace = createdBehind r.node.trace) :
    Follower log newMachine r' := by
  refine ⟨hdelivered ▸ h.delivered, ?_, ?_, ?_, ?_, hbehind ▸ hstore ▸ h.stores⟩
  · rw [hmachine, hdelivered]
    exact h.machine
  · rw [hlast, hdelivered]
    exact h.last
  · rw [hcommitted, hdelivered]
    exact h.committed
  · rw [hlast, hcommitted, hdelivered]
    exact h.caughtUp

variable [ProstMessage ConfChange] [SerdeJson NodeMetadata]

theorem Follower.afterReady {log : List Entry} {newMachine : σ} (hlog : Numbered log)
    (hrestore : Restorable newMachine) {r : NodeRun σ Event RocksDBStorage}
    (h : Follower log newMachine r) {io : ReadyIo} {sent : List Snapshot} (hready : io.hasReady)
    (hcluster : io.OfCluster log sent r.delivered)
    (hsent : ∀ snapshot ∈ sent, RightSnapshot log newMachine snapshot)
    (hok : (r.afterReady io).running) : Follower log newMachine (r.afterReady io) := by
  have hreceived : ¬ io.ready.snapshot.isEmpty → RightSnapshot log newMachine io.ready.snapshot :=
    fun hsnap => hsent _ (hcluster.snapshot hsnap).1
  have hrun := onReady_run hready r.node
  have htaken := hcluster.taken r.node.currentRole
  unfold NodeRun.afterReady at hok ⊢
  rw [ReadyIo.deliveredAfter, if_pos hready]
  generalize (onReady io r.node).1 = out at hrun hok ⊢
  generalize (onReady io r.node).2 = n' at hrun hok ⊢
  -- a call that has failed stops the node; the other two differ in what they hand out
  cases hrun with
  | takeFailed err n' hf => exact absurd hok Bool.false_ne_true
  | sendingFailed err n' hf => exact absurd hok Bool.false_ne_true
  | snapshotFailed n₁ err n' before hs => exact absurd hok Bool.false_ne_true
  | preCandidate n' take pre =>
    rw [ReadyIo.taken, if_pos pre] at htaken ⊢
    refine h.take hlog hrestore hcluster hsent htaken rfl take.stateMachine take.lastSnapshotIndex
      take.committedIndex fun hbehind => ?_
    obtain ⟨δ, htrace, happly⟩ := take.trace
    rw [show n'.trace = _ from htrace] at hbehind
    show StoresRight log newMachine n'.store
    rw [take.store]
    exact takenStore_storesRight h.stores hreceived take.persists
      (fun e he => isOther_of_isApply (happly e he)) hbehind
  | finished n₁ n₂ n' before snap watch =>
    rw [ReadyIo.taken, if_neg before.noPreCandidate] at htaken ⊢
    -- when step 13 starts
    have hbefore : Follower log newMachine
        ⟨n₁, lastDelivered io.handedOut (io.base r.delivered), true⟩ := by
      refine h.take hlog hrestore hcluster hsent htaken rfl before.stateMachine
        before.lastSnapshotIndex before.committedIndex fun hbehind => ?_
      obtain ⟨δ, htrace, hother⟩ := before.trace_other
      rw [show n₁.trace = _ from htrace] at hbehind
      show StoresRight log newMachine n₁.store
      rw [before.store]
      exact (takenStore_storesRight h.stores hreceived before.persists hother hbehind).of_eq
        (commitReady_sameLog before.commits).snapshotData
    have hsnap : Follower log newMachine
        ⟨n₂, lastDelivered io.handedOut (io.base r.delivered), true⟩ := by
      cases snap with
      | disabled => exact hbefore
      | kept => exact hbefore.congr rfl rfl rfl rfl rfl (createdBehind_evaluated _ _ _)
      | created data s due hdata hstore =>
        exact (hbefore.recordSnapshot due hdata hstore).congr rfl rfl rfl rfl rfl rfl
    obtain ⟨δ, htrace, happly⟩ := watch.frame.trace
    refine hsnap.congr rfl watch.stateMachine watch.frame.lastSnapshotIndex watch.committedIndex
      watch.frame.store ?_
    rw [show n'.trace = _ from htrace]
    exact createdBehind_append_other _ fun e he => isOther_of_isApply (happly e he)

/-- A call that returns early does not get to the entries of the light ready. -/
theorem stepsBeforeLight_of_preCandidate {io : ReadyIo} {n n' : RaftNode σ Event RocksDBStorage}
    (hpre : AnnouncesPreCandidate io n.currentRole) :
    Step.block (stepsBeforeLight io) n ≠ (.next, n') := by
  intro h
  have hsteps : (stepsBeforeLight io : List (Step (RaftNode σ Event RocksDBStorage) NodeError)) =
      takeReady io ++ ([changeRole io] ++ (sendReady io ++
        [advance .advanceAppend, updateCommit io, sendAll io.sendLight io.lightReady.messages])) :=
    by simp [stepsBeforeLight, stepsBetween, takeReady]
  rw [hsteps] at h
  obtain ⟨n₁, htake, hrest⟩ := Step.block_append_next.mp h
  rw [← (afterTake_of_next htake).currentRole] at hpre
  rw [List.singleton_append, Step.block_cons_of_returned (changeRole_returned hpre)] at hrest
  exact absurd hrest (by simp)

theorem mem_taken_of_mem_processed {io : ReadyIo} {n : RaftNode σ Event RocksDBStorage}
    {t : Entry × RaftNode σ Event RocksDBStorage} (h : t ∈ RaftNode.processed io n) :
    t.1 ∈ io.taken n.currentRole := by
  by_cases hpre : AnnouncesPreCandidate io n.currentRole
  · rw [ReadyIo.taken, if_pos hpre]
    unfold RaftNode.processed at h
    split at h
    · rcases List.mem_append.mp h with h | h
      · obtain ⟨n₁, h₁, -⟩ := restoreSnapshot_next io n
        rw [Step.goOn_of_next h₁] at h
        exact Step.fst_mem_of_mem_turns h
      · cases hgo : Step.goOn (Step.block (stepsBeforeLight io)) n with
        | none => simp [hgo] at h
        | some n₁ =>
          exact absurd (Step.goOn_eq_some_iff.mp hgo) (stepsBeforeLight_of_preCandidate hpre)
    · exact absurd h List.not_mem_nil
  · rw [ReadyIo.taken, if_neg hpre]
    exact ProposalCluster.mem_processed_entry h

end

end

end Raftoral

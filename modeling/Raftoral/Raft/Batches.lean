import Raftoral.Raft.Codec
import Raftoral.Raft.ReadySteps

/-!
# Committed entries in batches

raft-rs hands out committed entries in batches, some in a ready and some in a light ready,
and `on_ready` has a loop of its own for each. The cut into batches must not matter: it
differs from node to node.

The loop over a light ready is translated here as the source has it, and shown to do to
every entry what the loop over a ready does. raft-rs keeps a configuration that its answers
depend on; it is the state `ρ` that is passed along with the node.
-/

namespace Raftoral

variable {ρ σ Command Event S : Type}

/-- `RawNode::apply_conf_change` in a state of raft-rs. -/
abbrev ConfChanges (ρ : Type) := ρ → ConfChange → Except String (ConfState × ρ)

/-- A batch of committed entries, by the loop it is given to. -/
inductive Batch where
  | ready (entries : List Entry)
  | light (entries : List Entry)
deriving DecidableEq, Repr

def Batch.entries : Batch → List Entry
  | .ready es | .light es => es

namespace RaftNode

section
variable [ProstMessage ConfChange]

/-- What raft-rs answers to the configuration change of an entry. -/
def answerIn (raft : ConfChanges ρ) (r : ρ) (e : Entry) : Except String ConfState :=
  match (ProstMessage.decode e.data : Except String ConfChange) with
  | .error reason => .error reason
  | .ok cc => (raft r cc).map Prod.fst

/-- The state of raft-rs after an entry. -/
def raftAfter (raft : ConfChanges ρ) (r : ρ) (e : Entry) : ρ :=
  if e.isConfChange then
    match (ProstMessage.decode e.data : Except String ConfChange) with
    | .error _ => r
    | .ok cc =>
      match raft r cc with
      | .ok (_, r') => r'
      | .error _ => r
  else r

/-- Every configuration change of a list decodes and is accepted by raft. -/
def AcceptedFrom (raft : ConfChanges ρ) : ρ → List Entry → Prop
  | _, [] => True
  | r, e :: es =>
    (e.isConfChange → ∃ cc cs r', (ProstMessage.decode e.data : Except String ConfChange) = .ok cc ∧
      raft r cc = .ok (cs, r')) ∧ AcceptedFrom raft (raftAfter raft r e) es

theorem acceptedFrom_append {raft : ConfChanges ρ} {r : ρ} {es fs : List Entry} :
    AcceptedFrom raft r (es ++ fs) ↔
      AcceptedFrom raft r es ∧ AcceptedFrom raft (es.foldl (raftAfter raft) r) fs := by
  induction es generalizing r with
  | nil => simp [AcceptedFrom]
  | cons e es ih => simp [AcceptedFrom, ih, and_assoc]

variable [SerdeJson NodeMetadata] [StateMachine σ Command Event] [SerdeJson Command]

/-! ## The two loops -/

/-- An entry in the loop over a ready: step 2. -/
def readyEntry (raft : ConfChanges ρ) (entry : Entry) : Step (ρ × RaftNode σ Event S) NodeError :=
  fun s =>
    let (outcome, n) := applyEntry { applyConfChange := answerIn raft s.1 } entry s.2
    (outcome, raftAfter raft s.1 entry, n)

/-- The command of an entry in the loop over a light ready: decoded, applied, and its events
published, each with its own error. -/
def lightCommand (entry : Entry) (n : RaftNode σ Event S) :
    Except String Unit × RaftNode σ Event S :=
  match (SerdeJson.fromSlice entry.data : Except String Command) with
  | .ok command =>
    match StateMachine.apply n.stateMachine command with
    | (.ok events, sm') =>
      (.ok (), if events.isEmpty then { n with stateMachine := sm' }
        else { n with stateMachine := sm' }.emit (.publish events))
    | (.error e, sm') => (.error s!"Apply failed: {e}", { n with stateMachine := sm' })
  | .error e => (.error s!"Deserialization failed: {e}", n)

/-- An entry in the loop over a light ready: step 11. -/
def lightEntry (raft : ConfChanges ρ) (entry : Entry) : Step (ρ × RaftNode σ Event S) NodeError :=
  fun s =>
    if entry.data.isEmpty then (.next, s)
    else match entry.entryType with
      | .entryNormal =>
        let syncId :=
          if entry.context.length = 8 then some (U64.fromLeBytes entry.context) else none
        let (applyResult, n) := lightCommand entry s.2
        let n :=
          match syncId with
          | some id =>
            if n.pendingProposals id then
              { n with pendingProposals := Function.update n.pendingProposals id false }.emit
                (.complete id applyResult)
            else n
          | none => n
        (.next, s.1, { n with committedIndex := entry.index }.emit (.applied entry))
      | .entryConfChange | .entryConfChangeV2 =>
        let (outcome, n) := applyConfChange { applyConfChange := answerIn raft s.1 } entry s.2
        (outcome, raftAfter raft s.1 entry, n)

/-- A batch goes through the loop of its kind. -/
def applyBatch (raft : ConfChanges ρ) : Batch → Step (ρ × RaftNode σ Event S) NodeError
  | .ready es => Step.forEach es (readyEntry raft)
  | .light es => Step.forEach es (lightEntry raft)

def applyBatches (raft : ConfChanges ρ) (batches : List Batch) :
    Step (ρ × RaftNode σ Event S) NodeError :=
  Step.forEach batches (applyBatch raft)

/-! ## The loops of `on_ready` -/

/-- A call is told what raft-rs answers to each of the entries in turn. -/
def AnswersAlong (raft : ConfChanges ρ) (io : ReadyIo) : ρ → List Entry → Prop
  | _, [] => True
  | r, e :: es =>
    io.applyConfChange e = answerIn raft r e ∧ AnswersAlong raft io (raftAfter raft r e) es

theorem applyEntry_congr {io io' : ReadyIo} {e : Entry}
    (h : io.applyConfChange e = io'.applyConfChange e) :
    (applyEntry io e : Step (RaftNode σ Event S) NodeError) = applyEntry io' e := by
  have hconf : (applyConfChange io e : Step (RaftNode σ Event S) NodeError) =
      applyConfChange io' e := by
    funext n
    simp only [applyConfChange, h]
  unfold applyEntry
  rw [hconf]

/-- Steps 2 and 11 of a call are a batch. -/
theorem applyCommitted_eq_forEach {raft : ConfChanges ρ} {io : ReadyIo} {r : ρ} {es : List Entry}
    (h : AnswersAlong raft io r es) (n : RaftNode σ Event S) :
    applyCommitted io es n = ((Step.forEach es (readyEntry raft) (r, n)).1,
      (Step.forEach es (readyEntry raft) (r, n)).2.2) := by
  induction es generalizing r n with
  | nil => rfl
  | cons e es ih =>
    have hentry : applyEntry io e n = applyEntry { applyConfChange := answerIn raft r } e n :=
      congrFun (applyEntry_congr h.1) n
    have hready : readyEntry raft e (r, n) =
        ((applyEntry io e n).1, raftAfter raft r e, (applyEntry io e n).2) := by
      rw [readyEntry, hentry]
    rcases hout : applyEntry io e n with ⟨_ | _ | err, n'⟩
    · rw [hout] at hready
      rw [applyCommitted, Step.forEach_cons_of_next hout, Step.forEach_cons_of_next hready]
      exact ih h.2 n'
    · rw [hout] at hready
      rw [applyCommitted, Step.forEach, List.map_cons, Step.block_cons_of_returned hout,
        Step.forEach, List.map_cons, Step.block_cons_of_returned hready]
    · rw [hout] at hready
      rw [applyCommitted, Step.forEach, List.map_cons, Step.block_cons_of_failed hout,
        Step.forEach, List.map_cons, Step.block_cons_of_failed hready]

/-! ## One entry -/

omit [ProstMessage ConfChange] [SerdeJson NodeMetadata] in
/-- Both loops do the same with a command. -/
theorem lightCommand_eq (entry : Entry) (n : RaftNode σ Event S) :
    lightCommand entry n =
      ((applyCommand n.stateMachine entry.data).1.map fun _ => (),
        { n with stateMachine := (applyCommand n.stateMachine entry.data).2 }.publishResult
          (applyCommand n.stateMachine entry.data).1) := by
  unfold lightCommand applyCommand
  cases (SerdeJson.fromSlice entry.data : Except String Command) with
  | error e => rfl
  | ok command =>
    rcases happly : StateMachine.apply n.stateMachine command with ⟨e | events, sm'⟩
    · simp only [happly]
      rfl
    · simp only [happly, publishResult, publishBatch]
      rfl

theorem lightEntry_eq_readyEntry (raft : ConfChanges ρ) (entry : Entry) :
    lightEntry raft entry = (readyEntry raft entry : Step (ρ × RaftNode σ Event S) NodeError) := by
  funext s
  by_cases hdata : entry.data.isEmpty
  · have hconf : entry.isConfChange = false := by rw [Entry.isConfChange, hdata]; rfl
    simp [lightEntry, readyEntry, applyEntry, hdata, Step.skip, raftAfter, hconf]
  · cases htype : entry.entryType with
    | entryNormal =>
      have hconf : entry.isConfChange = false := by simp [Entry.isConfChange, htype]
      have hready : readyEntry raft entry s = (.next, s.1, s.2.applyNormal entry) := by
        simp [readyEntry, applyEntry, hdata, htype, Step.modify, raftAfter, hconf]
      -- the inlined completion of the light loop is the one of the other loop
      have hlight : lightEntry raft entry s = (.next, s.1,
          ((lightCommand entry s.2).2.completeProposal (entrySyncId entry.context)
            (lightCommand entry s.2).1).markApplied entry) := by
        rw [lightEntry, if_neg hdata, htype]
        unfold entrySyncId
        by_cases hlen : entry.context.length = 8
        · simp only [if_pos hlen]
          rfl
        · simp only [if_neg hlen]
          rfl
      rw [hlight, hready, lightCommand_eq]
      rfl
    | entryConfChange | entryConfChangeV2 =>
      simp only [lightEntry, readyEntry, applyEntry, hdata, htype]
      rfl

/-- An accepted entry lets the loop go on. -/
theorem readyEntry_next {raft : ConfChanges ρ} {e : Entry} (s : ρ × RaftNode σ Event S)
    (h : e.isConfChange → ∃ cc cs r',
      (ProstMessage.decode e.data : Except String ConfChange) = .ok cc ∧
        raft s.1 cc = .ok (cs, r')) :
    ∃ n, readyEntry raft e s = (.next, raftAfter raft s.1 e, n) := by
  have hacc : Accepted { applyConfChange := answerIn raft s.1 } e := by
    intro hconf
    obtain ⟨cc, cs, r', hcc, hcs⟩ := h hconf
    refine ⟨cc, cs, hcc, ?_⟩
    simp only [answerIn, hcc, hcs]
    rfl
  obtain ⟨n, hn, -⟩ := applyEntry_after hacc s.2
  refine ⟨n, ?_⟩
  rw [readyEntry, hn]

/-! ## All entries -/

theorem forEach_readyEntry_next {raft : ConfChanges ρ} {es : List Entry}
    {s : ρ × RaftNode σ Event S} (h : AcceptedFrom raft s.1 es) :
    ∃ n, Step.forEach es (readyEntry raft) s = (.next, es.foldl (raftAfter raft) s.1, n) := by
  induction es generalizing s with
  | nil => exact ⟨s.2, rfl⟩
  | cons e es ih =>
    obtain ⟨n₁, h₁⟩ := readyEntry_next s h.1
    rw [Step.forEach_cons_of_next h₁]
    exact ih h.2

theorem applyBatch_eq (raft : ConfChanges ρ) (b : Batch) :
    applyBatch raft b =
      (Step.forEach b.entries (readyEntry raft) : Step (ρ × RaftNode σ Event S) NodeError) := by
  cases b with
  | ready es => rfl
  | light es =>
    have hloop : (lightEntry raft : Entry → Step (ρ × RaftNode σ Event S) NodeError) =
        readyEntry raft := funext (lightEntry_eq_readyEntry raft)
    rw [applyBatch, hloop]
    rfl

/-- Batches do what one loop over all their entries does. -/
theorem applyBatches_eq {raft : ConfChanges ρ} {batches : List Batch}
    {s : ρ × RaftNode σ Event S} (h : AcceptedFrom raft s.1 (batches.flatMap Batch.entries)) :
    applyBatches raft batches s =
      Step.forEach (batches.flatMap Batch.entries) (readyEntry raft) s := by
  induction batches generalizing s with
  | nil => rfl
  | cons b batches ih =>
    rw [List.flatMap_cons] at h ⊢
    obtain ⟨hb, hrest⟩ := acceptedFrom_append.mp h
    obtain ⟨n, hn⟩ := forEach_readyEntry_next hb
    have hbatch : applyBatch raft b s = (.next, b.entries.foldl (raftAfter raft) s.1, n) := by
      rw [applyBatch_eq, hn]
    rw [applyBatches, Step.forEach_cons_of_next hbatch, ← applyBatches, ih hrest, Step.forEach,
      Step.forEach, List.map_append]
    exact (Step.block_append hn).symm

/-- Two cuts of the same accepted entries lead to the same node: the same state machine,
published events, answers, configuration, peers and committed index. -/
theorem applyBatches_eq_of_entries_eq (raft : ConfChanges ρ) (r : ρ) (n : RaftNode σ Event S)
    (batches batches' : List Batch)
    (hentries : batches.flatMap Batch.entries = batches'.flatMap Batch.entries)
    (hacc : AcceptedFrom raft r (batches.flatMap Batch.entries)) :
    ∃ r' n', applyBatches raft batches (r, n) = (.next, r', n') ∧
      applyBatches raft batches' (r, n) = (.next, r', n') := by
  obtain ⟨n', hn'⟩ := forEach_readyEntry_next (s := (r, n)) hacc
  refine ⟨(batches.flatMap Batch.entries).foldl (raftAfter raft) r, n', ?_, ?_⟩
  · rw [applyBatches_eq hacc, hn']
  · rw [applyBatches_eq (s := (r, n)) (hentries ▸ hacc), ← hentries, hn']

end

section
open scoped Codec

/-- raft-rs on plain additions and removals of voters. -/
def changeVoters : ConfChanges ConfState := fun r cc =>
  match cc.changeType with
  | .addNode =>
    let r' := { r with voters := r.voters ++ [cc.nodeId] }
    .ok (r', r')
  | .removeNode =>
    let r' := { r with voters := r.voters.filter (· != cc.nodeId) }
    .ok (r', r')
  | .addLearnerNode => .error "no learners"

/-- The entry of an election, bytes that are no command, and a new voter. -/
def threeEntries : List Entry :=
  [{ term := 1, index := 1 }, { term := 1, index := 2, data := [0x7b] },
    { term := 1, index := 3, entryType := .entryConfChange,
      data := ProstMessage.encodeToVec ({ nodeId := 2 } : ConfChange) }]

theorem threeEntries_accepted : AcceptedFrom changeVoters { voters := [1] } threeEntries := by
  refine ⟨fun h => absurd h (by decide), fun h => absurd h (by decide), fun _ => ?_, trivial⟩
  exact ⟨{ nodeId := 2 }, _, _, ProstMessage.decode_encodeToVec _, rfl⟩

/-- All three in a ready, or the first of them in a ready and the rest in a light ready. -/
theorem applyBatches_threeEntries :
    ∃ r' n', applyBatches changeVoters [.ready threeEntries] ({ voters := [1] },
        newSingleNode {} (fun _ => none) ({} : KvStateMachine) (⟨{}, 1, 0⟩ : RocksDBStorage)) =
          (.next, r', n') ∧
      applyBatches changeVoters [.ready (threeEntries.take 1), .light (threeEntries.drop 1)]
        ({ voters := [1] },
          newSingleNode {} (fun _ => none) ({} : KvStateMachine) (⟨{}, 1, 0⟩ : RocksDBStorage)) =
          (.next, r', n') :=
  applyBatches_eq_of_entries_eq changeVoters { voters := [1] } _ [.ready threeEntries]
    [.ready (threeEntries.take 1), .light (threeEntries.drop 1)] rfl threeEntries_accepted

end

end RaftNode

end Raftoral

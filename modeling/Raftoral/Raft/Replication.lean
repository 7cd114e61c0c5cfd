import Raftoral.Raft.Follower

/-!
# Replication

The nodes of a cluster apply one log. A node gets there by the entries that raft-rs hands out,
and by the snapshots that other nodes have created, stored and sent; either way its state is that
of the log up to where it is (`Follower`), so two nodes that are equally far agree. Two defects
are left out by the hypotheses: a node that starts over a storage with a snapshot begins with an
empty state machine, and one whose committed index lies behind a received snapshot stores its
state under that older index (`createdBehind`), a snapshot that no other node may get.
-/

namespace Raftoral

open RaftNode ProstMessage

variable {σ Command Event : Type}

/-- A cluster, beside the snapshots its nodes have sent. -/
structure Replicas (σ Command Event : Type) where
  cluster : ProposalCluster σ Command Event RocksDBStorage
  sent : List Snapshot := []

inductive ReplicasOp (σ Command : Type) where
  | cluster (a : ClusterOp σ Command RocksDBStorage)
  /-- raft-rs asks the storage of a node for the snapshot to send to another. -/
  | sendSnapshot (i requestIndex : ℕ)

namespace Replicas

section
variable [StateMachine σ Command Event] [SerdeJson Command] [ProstMessage Snapshot]

/-- Every node is a follower of the log, and so was the sender of every snapshot. -/
structure Replicated (log : List Entry) (newMachine : σ) (s : Replicas σ Command Event) :
    Prop where
  nodes : ∀ i, (s.cluster.nodes i).running → Follower log newMachine (s.cluster.nodes i)
  sent : ∀ snapshot ∈ s.sent, RightSnapshot log newMachine snapshot
  /-- The entries a node got to are entries of the log that it has left behind. -/
  processed : ∀ i, (s.cluster.nodes i).running → ∀ m ∈ s.cluster.processed i,
    ∃ j, j < (s.cluster.nodes i).delivered ∧ log[j]? = some m.entry

/-- A step at one node. -/
theorem Replicated.update {log : List Entry} {newMachine : σ} {s : Replicas σ Command Event}
    (h : s.Replicated log newMachine) (i : ℕ) {run : NodeRun σ Event RocksDBStorage}
    {cluster : ProposalCluster σ Command Event RocksDBStorage}
    {M : List (Processing σ Event RocksDBStorage)}
    (hnodes : cluster.nodes = Function.update s.cluster.nodes i run)
    (hprocessed : cluster.processed = Function.update s.cluster.processed i M)
    (hfollower : run.running → Follower log newMachine run)
    (hentries : run.running → ∀ m ∈ M, ∃ j, j < run.delivered ∧ log[j]? = some m.entry) :
    Replicated log newMachine { s with cluster } := by
  refine ⟨fun j hj => ?_, h.sent, fun j hj => ?_⟩
  · simp only [hnodes] at hj ⊢
    by_cases hji : j = i
    · subst hji
      rw [Function.update_self] at hj ⊢
      exact hfollower hj
    · rw [Function.update_of_ne hji] at hj ⊢
      exact h.nodes j hj
  · simp only [hnodes, hprocessed] at hj ⊢
    by_cases hji : j = i
    · subst hji
      rw [Function.update_self] at hj ⊢
      rw [Function.update_self]
      exact hentries hj
    · rw [Function.update_of_ne hji] at hj ⊢
      rw [Function.update_of_ne hji]
      exact h.processed j hj

/-- What a node got to before, it has left behind for good. -/
theorem Replicated.older {log : List Entry} {newMachine : σ} {s : Replicas σ Command Event}
    (h : s.Replicated log newMachine) {i p : ℕ} (hrunning : (s.cluster.nodes i).running)
    (hp : (s.cluster.nodes i).delivered ≤ p) :
    ∀ m ∈ s.cluster.processed i, ∃ j, j < p ∧ log[j]? = some m.entry := by
  intro m hm
  obtain ⟨j, hj, hlog⟩ := h.processed i hrunning m hm
  exact ⟨j, hj.trans_le hp, hlog⟩

end

section
variable [StateMachine σ Command Event] [SerdeJson Command] [ProstMessage Entry]
  [ProstMessage HardState] [ProstMessage ConfState] [ProstMessage Snapshot]
  [ProstMessage ConfChange] [SerdeJson NodeMetadata] [ProstMessage Message]

def step (s : Replicas σ Command Event) :
    ReplicasOp σ Command → Option (Replicas σ Command Event)
  | .cluster a => (s.cluster.step a).map fun cluster => { s with cluster }
  | .sendSnapshot i requestIndex =>
    if (s.cluster.nodes i).running then
      match (s.cluster.nodes i).node.store.snapshot requestIndex with
      | .ok snapshot => some { s with sent := s.sent ++ [snapshot] }
      | .error _ => none
    else none

/-- raft-rs hands out the log, and a node that starts again does so over a storage without a
snapshot. -/
def Follows (log : List Entry) (newMachine : σ) (s : Replicas σ Command Event) :
    ReplicasOp σ Command → Prop
  | .cluster (.node i (.ready io)) =>
    io.hasReady → io.OfCluster log s.sent (s.cluster.nodes i).delivered
  | .cluster (.restart _ _ _ stateMachine _ store delivered) =>
    stateMachine = newMachine ∧ store.db.snapshotData = none ∧ delivered = 0
  | _ => True

/-- A node does not send a snapshot that it has created while it was behind its last one. -/
def SendsRight (s : Replicas σ Command Event) : ReplicasOp σ Command → Prop
  | .sendSnapshot i _ => createdBehind (s.cluster.nodes i).node.trace = false
  | _ => True

theorem Replicated.node {log : List Entry} {newMachine : σ} (hlog : Numbered log)
    (hrestore : Restorable newMachine) {s s' : Replicas σ Command Event}
    (h : s.Replicated log newMachine) {i : ℕ} {op : NodeOp Command}
    (hfollows : s.Follows log newMachine (.cluster (.node i op)))
    (hstep : s.step (.cluster (.node i op)) = some s') : s'.Replicated log newMachine := by
  obtain ⟨cluster, hcluster, rfl⟩ := Option.map_eq_some_iff.mp hstep
  obtain ⟨run, hrun, rfl⟩ := Option.map_eq_some_iff.mp hcluster
  obtain ⟨hrunning, hcases⟩ := NodeRun.step_cases hrun
  have hnode := h.nodes i hrunning
  refine h.update i rfl rfl (fun hok => ?_) fun hok m hm => ?_
  · rcases hcases with ⟨-, hframe, hdelivered⟩ | ⟨io, rfl, hready, rfl⟩
    · exact hnode.congr hdelivered hframe.stateMachine hframe.lastSnapshotIndex
        hframe.committedIndex hframe.store (congrArg createdBehind hframe.trace)
    · exact hnode.afterReady hlog hrestore hready (hfollows hready) h.sent hok
  · rcases hcases with ⟨hno, -, hdelivered⟩ | ⟨io, rfl, hready, rfl⟩
    · rcases List.mem_append.mp hm with hm | hm
      · exact h.older hrunning hdelivered.ge m hm
      · exfalso
        -- without a ready no entry is got to
        cases op with
        | ready io =>
          obtain ⟨t, ht, -⟩ := List.mem_map.mp hm
          rw [RaftNode.processed, if_neg (hno io rfl)] at ht
          exact absurd ht List.not_mem_nil
        | _ => exact absurd hm List.not_mem_nil
    · have hes := (hfollows hready).taken (s.cluster.nodes i).node.currentRole
      have hdelivered : ((s.cluster.nodes i).afterReady io).delivered =
          io.base (s.cluster.nodes i).delivered +
            (io.taken (s.cluster.nodes i).node.currentRole).length := by
        show io.deliveredAfter _ _ = _
        rw [ReadyIo.deliveredAfter, if_pos hready, lastDelivered_of_prefix hlog hes]
      rcases List.mem_append.mp hm with hm | hm
      · refine h.older hrunning ?_ m hm
        rw [hdelivered]
        exact (hfollows hready).base_ge.trans (Nat.le_add_right _ _)
      · obtain ⟨t, ht, rfl⟩ := List.mem_map.mp hm
        obtain ⟨j, hj⟩ := List.mem_iff_getElem?.mp (mem_taken_of_mem_processed ht)
        have hlt : j < (io.taken (s.cluster.nodes i).node.currentRole).length :=
          (List.getElem?_eq_some_iff.mp hj).1
        refine ⟨io.base (s.cluster.nodes i).delivered + j, by omega, ?_⟩
        obtain ⟨rest, hrest⟩ := hes
        rw [← List.getElem?_drop, ← hrest, List.getElem?_append_left hlt]
        exact hj

theorem Replicated.step {log : List Entry} {newMachine : σ} (hlog : Numbered log)
    (hrestore : Restorable newMachine) {s s' : Replicas σ Command Event}
    (h : s.Replicated log newMachine) {op : ReplicasOp σ Command}
    (hfollows : s.Follows log newMachine op) (hsends : s.SendsRight op)
    (hstep : s.step op = some s') : s'.Replicated log newMachine := by
  cases op with
  | cluster a =>
    cases a with
    | node i op => exact h.node hlog hrestore hfollows hstep
    | forward i syncId command =>
      -- at the node, a forwarded proposal is a call
      obtain ⟨cluster, hcluster, rfl⟩ := Option.map_eq_some_iff.mp hstep
      obtain ⟨run, hrun, rfl⟩ := Option.map_eq_some_iff.mp hcluster
      obtain ⟨hrunning, ⟨-, hframe, hdelivered⟩ | ⟨io, hop, -⟩⟩ := NodeRun.step_cases hrun
      · refine h.update i rfl (Function.update_eq_self i _).symm (fun _ => ?_)
          fun _ => h.older hrunning hdelivered.ge
        exact (h.nodes i hrunning).congr hdelivered hframe.stateMachine hframe.lastSnapshotIndex
          hframe.committedIndex hframe.store (congrArg createdBehind hframe.trace)
      · exact absurd hop (by simp)
    | restart i config peers stateMachine confState store delivered =>
      obtain ⟨rfl, hstore, rfl⟩ := hfollows
      obtain rfl := Option.some.inj hstep
      exact h.update i rfl rfl (fun _ => Follower.start hstore config peers confState)
        fun _ m hm => absurd hm List.not_mem_nil
  | sendSnapshot i requestIndex =>
    simp only [Replicas.step] at hstep
    split at hstep
    next hrunning =>
      split at hstep
      next snapshot hsnapshot =>
        obtain rfl := Option.some.inj hstep
        refine ⟨h.nodes, fun x hx => ?_, h.processed⟩
        rcases List.mem_append.mp hx with hx | hx
        · exact h.sent x hx
        · rw [List.mem_singleton.mp hx]
          exact ((h.nodes i hrunning).stores hsends).snapshot hsnapshot
      next => exact absurd hstep (by simp)
    next => exact absurd hstep (by simp)

/-- Nodes with a new state machine over storages without a snapshot, of which none has started
to work. -/
def start (newMachine : σ) (configs : ℕ → RaftNodeConfig) (peers : ℕ → Peers)
    (confStates : ℕ → ConfState) (stores : ℕ → RocksDBStorage) : Replicas σ Command Event where
  cluster := ProposalCluster.start fun i =>
    NodeRun.start (configs i) (peers i) newMachine (confStates i) (stores i) 0

/-- In every run of a cluster, whatever the nodes receive as entries and whatever as snapshots,
every running node is a follower of the log. -/
theorem replicated_of_run {log : List Entry} {newMachine : σ} (hlog : Numbered log)
    (hrestore : Restorable newMachine) {configs : ℕ → RaftNodeConfig} {peers : ℕ → Peers}
    {confStates : ℕ → ConfState} {stores : ℕ → RocksDBStorage}
    (hstores : ∀ i, (stores i).db.snapshotData = none) {ops : List (ReplicasOp σ Command)}
    {s : Replicas σ Command Event}
    (hfollows : Transition.Along step (Follows log newMachine)
      (start newMachine configs peers confStates stores) ops)
    (hsends : Transition.Along step SendsRight
      (start newMachine configs peers confStates stores) ops)
    (hrun : Transition.run step (start newMachine configs peers confStates stores) ops = some s) :
    s.Replicated log newMachine := by
  refine Transition.run_induction
    (fun _ _ _ h hc hstep => h.step hlog hrestore hc.1 hc.2 hstep) ?_ (hfollows.and hsends) hrun
  refine ⟨fun i _ => Follower.start (hstores i) _ _ _, ?_, ?_⟩
  all_goals simp [start, ProposalCluster.start]

/-- What the callers of a cluster and raft-rs keep to. -/
def Lawful (s : Replicas σ Command Event) : ReplicasOp σ Command → Prop
  | .cluster a => s.cluster.Lawful a
  | .sendSnapshot _ _ => True

theorem sound_of_run {newMachine : σ} {configs : ℕ → RaftNodeConfig} {peers : ℕ → Peers}
    {confStates : ℕ → ConfState} {stores : ℕ → RocksDBStorage} {ops : List (ReplicasOp σ Command)}
    {s : Replicas σ Command Event}
    (hlaw : Transition.Along step Lawful (start newMachine configs peers confStates stores) ops)
    (hrun : Transition.run step (start newMachine configs peers confStates stores) ops = some s) :
    s.cluster.Sound := by
  refine Transition.run_induction (I := fun s => s.cluster.Sound) (fun s op s' h hlaw hs => ?_) ?_
    hlaw hrun
  · cases op with
    | cluster a =>
      obtain ⟨cluster, hcluster, rfl⟩ := Option.map_eq_some_iff.mp hs
      exact ProposalCluster.step_sound h hlaw hcluster
    | sendSnapshot i requestIndex =>
      simp only [step] at hs
      split at hs
      next =>
        split at hs
        next =>
          obtain rfl := Option.some.inj hs
          exact h
        next => exact absurd hs (by simp)
      next => exact absurd hs (by simp)
  · refine ⟨⟨?_, ?_, ?_, ?_⟩, ?_, fun i => Ledger.of_started rfl rfl⟩
    all_goals simp [start, ProposalCluster.start, ProposalCluster.syncIds]

/-- The operation does not start the node again. -/
def Spares (i : ℕ) : ReplicasOp σ Command → Prop
  | .cluster (.restart j _ _ _ _ _ _) => j ≠ i
  | _ => True

/-- A node goes on in the log until it starts again. -/
theorem delivered_le_of_step {log : List Entry} {newMachine : σ} (hlog : Numbered log)
    {s s' : Replicas σ Command Event} {i : ℕ} {op : ReplicasOp σ Command}
    (hfollows : s.Follows log newMachine op) (hspares : Spares i op)
    (hstep : s.step op = some s') :
    (s.cluster.nodes i).delivered ≤ (s'.cluster.nodes i).delivered := by
  have hupdate : ∀ {j : ℕ} {run : NodeRun σ Event RocksDBStorage},
      (j = i → (s.cluster.nodes j).delivered ≤ run.delivered) →
      (s.cluster.nodes i).delivered ≤ (Function.update s.cluster.nodes j run i).delivered := by
    intro j run h
    by_cases hji : i = j
    · subst hji
      rw [Function.update_self]
      exact h rfl
    · rw [Function.update_of_ne hji]
  cases op with
  | cluster a =>
    cases a with
    | node j op =>
      obtain ⟨cluster, hcluster, rfl⟩ := Option.map_eq_some_iff.mp hstep
      obtain ⟨run, hrun, rfl⟩ := Option.map_eq_some_iff.mp hcluster
      refine hupdate fun _ => ?_
      obtain ⟨-, ⟨-, -, hdelivered⟩ | ⟨io, rfl, hready, rfl⟩⟩ := NodeRun.step_cases hrun
      · exact hdelivered.ge
      · have hes := (hfollows hready).taken (s.cluster.nodes j).node.currentRole
        show _ ≤ io.deliveredAfter _ _
        rw [ReadyIo.deliveredAfter, if_pos hready, lastDelivered_of_prefix hlog hes]
        exact (hfollows hready).base_ge.trans (Nat.le_add_right _ _)
    | forward j syncId command =>
      obtain ⟨cluster, hcluster, rfl⟩ := Option.map_eq_some_iff.mp hstep
      obtain ⟨run, hrun, rfl⟩ := Option.map_eq_some_iff.mp hcluster
      refine hupdate fun _ => ?_
      obtain ⟨-, ⟨-, -, hdelivered⟩ | ⟨io, hop, -⟩⟩ := NodeRun.step_cases hrun
      · exact hdelivered.ge
      · exact absurd hop (by simp)
    | restart j =>
      obtain rfl := Option.some.inj hstep
      exact hupdate fun hji => absurd hji hspares
  | sendSnapshot j requestIndex =>
    simp only [step] at hstep
    split at hstep
    next =>
      split at hstep
      next =>
        obtain rfl := Option.some.inj hstep
        exact le_rfl
      next => exact absurd hstep (by simp)
    next => exact absurd hstep (by simp)

theorem delivered_le_of_run {log : List Entry} {newMachine : σ} (hlog : Numbered log)
    {s t : Replicas σ Command Event} {i : ℕ} {ops : List (ReplicasOp σ Command)}
    (hfollows : Transition.Along step (Follows log newMachine) s ops)
    (hspares : ∀ op ∈ ops, Spares i op) (hrun : Transition.run step s ops = some t) :
    (s.cluster.nodes i).delivered ≤ (t.cluster.nodes i).delivered :=
  Transition.run_induction (I := fun u => (s.cluster.nodes i).delivered ≤ (u.cluster.nodes i).delivered)
    (fun _ _ _ h hc hstep => h.trans (delivered_le_of_step hlog hc.1 hc.2 hstep)) le_rfl
    (hfollows.and (Transition.along_of_forall hspares)) hrun

omit [ProstMessage Entry] [ProstMessage HardState] [ProstMessage ConfState]
  [ProstMessage Message] in
/-- A caller that was answered is answered by an entry of the log that its node has applied. -/
theorem answered_in_log {log : List Entry} {newMachine : σ} {s : Replicas σ Command Event}
    (hsound : s.cluster.Sound) (hreplicated : s.Replicated log newMachine) {i : ℕ}
    (hrunning : (s.cluster.nodes i).running) {p : Submission Command}
    (hp : p ∈ s.cluster.proposals) {r : Except String Unit}
    (hanswered : .complete p.syncId r ∈ (s.cluster.nodes i).node.trace) :
    ∃ (j : ℕ) (e : Entry) (n : RaftNode σ Event RocksDBStorage),
      j < (s.cluster.nodes i).delivered ∧ log[j]? = some e ∧ e.payload = p.payload ∧
        e.data ≠ [] ∧ r = entryResult e n := by
  obtain ⟨k, hk⟩ := List.mem_iff_getElem?.mp hanswered
  obtain ⟨m, hm, hanswers, q, hq, -, hid, hpayload⟩ :=
    (hsound.toAnsweredByOwn i).own k p.syncId r hk
  obtain rfl : q = p := List.inj_on_of_nodup_map hsound.distinct hq hp hid
  obtain ⟨j, hj, hlog⟩ := hreplicated.processed i hrunning m hm
  refine ⟨j, m.entry, m.node, hj, hlog, hpayload, fun hempty => ?_, hanswers.result⟩
  have hcarries := hanswers.carries
  rw [Entry.syncId, hempty] at hcarries
  exact absurd hcarries (by simp)

/-- The running nodes are in the states of one log, those that are equally far in the same, and
the snapshots that were sent are of such states as well. -/
structure Agrees (log : List Entry) (newMachine : σ) (s : Replicas σ Command Event) : Prop where
  state : ∀ i, (s.cluster.nodes i).running → (s.cluster.nodes i).delivered ≤ log.length ∧
    (s.cluster.nodes i).node.stateMachine =
      replay newMachine (log.take (s.cluster.nodes i).delivered)
  equal : ∀ i j, (s.cluster.nodes i).running → (s.cluster.nodes j).running →
    (s.cluster.nodes i).delivered = (s.cluster.nodes j).delivered →
      (s.cluster.nodes i).node.stateMachine = (s.cluster.nodes j).node.stateMachine
  snapshots : ∀ snapshot ∈ s.sent, RightSnapshot log newMachine snapshot

theorem agrees_of_run {log : List Entry} {newMachine : σ} (hlog : Numbered log)
    (hrestore : Restorable newMachine) {configs : ℕ → RaftNodeConfig} {peers : ℕ → Peers}
    {confStates : ℕ → ConfState} {stores : ℕ → RocksDBStorage}
    (hstores : ∀ i, (stores i).db.snapshotData = none) {ops : List (ReplicasOp σ Command)}
    {s : Replicas σ Command Event}
    (hfollows : Transition.Along step (Follows log newMachine)
      (start newMachine configs peers confStates stores) ops)
    (hsends : Transition.Along step SendsRight
      (start newMachine configs peers confStates stores) ops)
    (hrun : Transition.run step (start newMachine configs peers confStates stores) ops = some s) :
    s.Agrees log newMachine := by
  have h := replicated_of_run hlog hrestore hstores hfollows hsends hrun
  refine ⟨fun i hi => ⟨(h.nodes i hi).delivered, (h.nodes i hi).machine⟩, fun i j hi hj heq => ?_,
    h.sent⟩
  rw [(h.nodes i hi).machine, (h.nodes j hj).machine, heq]

end

/-- A state machine of the store that is restored has the bindings of the snapshot. -/
theorem restorable_kv [SerdeJson KvCommand] [SerdeJson (List (String × String))] :
    Restorable ({} : KvStateMachine) := by
  intro es data hdata sm
  obtain rfl := Except.ok.inj hdata
  simp [StateMachine.restore]

section
variable [ProstMessage ConfChange] [SerdeJson NodeMetadata] [SerdeJson Command]

instance (log : List Entry) : Decidable (Numbered log) :=
  decidable_of_iff (∀ j < log.length, ∀ e ∈ log[j]?, e.index = j + 1)
    ⟨fun h j e he => h j (List.getElem?_eq_some_iff.mp he).1 e he, fun h j _ e he => h j e he⟩

instance (io : ReadyIo) (log : List Entry) (sent : List Snapshot) (delivered : ℕ) :
    Decidable (io.OfCluster log sent delivered) :=
  decidable_of_iff ((¬ io.ready.snapshot.isEmpty → io.ready.snapshot ∈ sent ∧
    delivered ≤ io.ready.snapshot.metadata.index) ∧ io.handedOut <+: log.drop (io.base delivered))
    ⟨fun h => ⟨h.1, h.2⟩, fun h => ⟨h.snapshot, h.entries⟩⟩

instance [DecidableEq σ] (log : List Entry) (newMachine : σ) (s : Replicas σ Command Event) :
    (op : ReplicasOp σ Command) → Decidable (s.Follows log newMachine op)
  | .cluster (.node i (.ready io)) => inferInstanceAs (Decidable (io.hasReady →
      io.OfCluster log s.sent (s.cluster.nodes i).delivered))
  | .cluster (.restart _ _ _ stateMachine _ store delivered) => inferInstanceAs (Decidable
      (stateMachine = newMachine ∧ store.db.snapshotData = none ∧ delivered = 0))
  | .cluster (.node _ (.call _)) | .cluster (.node _ (.others _))
  | .cluster (.node _ (.message _ _)) | .cluster (.forward _ _ _) | .sendSnapshot _ _ =>
    isTrue trivial

instance (s : Replicas σ Command Event) :
    (op : ReplicasOp σ Command) → Decidable (s.SendsRight op)
  | .cluster _ => isTrue trivial
  | .sendSnapshot i _ =>
    inferInstanceAs (Decidable (createdBehind (s.cluster.nodes i).node.trace = false))

end

section
open scoped Codec

/-- A leader begins its term with an empty entry. -/
def emptyEntry : Entry := { term := 1, index := 1 }

def firstSet : Entry :=
  { term := 1, index := 2, data := SerdeJson.toVec (KvCommand.set "a" "b") }

def secondSet : Entry :=
  { term := 1, index := 3, data := SerdeJson.toVec (KvCommand.set "c" "d") }

/-- The snapshot of the leader when it has applied the first command. -/
def firstSnapshot : Snapshot :=
  { data := SerdeJson.toVec [("a", "b")]
    metadata := { index := 2, term := 1, confState := { voters := [1, 2, 3] } } }

/-- The leader stores a snapshot after each command. -/
def kvReplicas : Replicas KvStateMachine KvCommand KvEvent :=
  start {} (fun i => { nodeId := i, snapshotInterval := if i = 1 then 1 else 1000 })
    (fun _ _ => none) (fun _ => { voters := [1, 2, 3] }) fun _ => ⟨{}, 1, 0⟩

/-- A ready without configuration changes. -/
def plainReady (ready : Ready) : NodeOp KvCommand :=
  .ready { ready, applyConfChange := fun _ => .error "no configuration change" }

/-- Nodes 1 and 3 commit the first command. Node 2 comes late: it gets the snapshot, which it
stores again under the index it started with, and the second command from the log. -/
def lateNode : List (ReplicasOp KvStateMachine KvCommand) :=
  [.cluster (.node 1 (plainReady
     { entries := [emptyEntry, firstSet], hs := some { term := 1, vote := 1, commit := 0 } })),
   .cluster (.node 3 (plainReady
     { entries := [emptyEntry, firstSet], hs := some { term := 1, vote := 1, commit := 0 } })),
   .cluster (.node 1 (plainReady
     { hs := some { term := 1, vote := 1, commit := 2 }
       committedEntries := [emptyEntry, firstSet] })),
   .sendSnapshot 1 2,
   .cluster (.node 2 (plainReady
     { snapshot := firstSnapshot, hs := some { term := 1, vote := 0, commit := 2 } })),
   .cluster (.node 1 (plainReady { entries := [secondSet] })),
   .cluster (.node 2 (plainReady { entries := [secondSet] })),
   .cluster (.node 1 (plainReady
     { hs := some { term := 1, vote := 1, commit := 3 }, committedEntries := [secondSet] })),
   .cluster (.node 2 (plainReady
     { hs := some { term := 1, vote := 0, commit := 3 }, committedEntries := [secondSet] }))]

theorem agrees_lateNode : ∃ s, Transition.run step kvReplicas lateNode = some s ∧
    (s.cluster.nodes 2).node.stateMachine.store = [("c", "d"), ("a", "b")] ∧
    createdBehind (s.cluster.nodes 2).node.trace ∧
    s.Agrees [emptyEntry, firstSet, secondSet] {} := by
  have hsome : ((Transition.run step kvReplicas lateNode).map fun s =>
      ((s.cluster.nodes 2).node.stateMachine.store,
        createdBehind (s.cluster.nodes 2).node.trace)) =
      some ([("c", "d"), ("a", "b")], true) := by decide
  obtain ⟨s, hrun, hread⟩ := Option.map_eq_some_iff.mp hsome
  obtain ⟨hstore, hbehind⟩ := Prod.mk.inj hread
  exact ⟨s, hrun, hstore, hbehind, agrees_of_run (by decide) restorable_kv (fun _ => rfl)
    (by decide) (by decide) hrun⟩

end

end Replicas

end Raftoral

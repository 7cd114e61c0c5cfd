import Raftoral.Raft.Proposals

/-!
# The proposals of a cluster

Callers propose at any node, and a node that does not lead forwards to the leader. raft-rs hands
out only what it was handed, so an entry with a sync id is that of the proposal the id was
generated for, and a caller is answered for its own proposal (`answeredByOwn`).
-/

namespace Raftoral

open RaftNode

variable {σ Command Event S : Type}

/-! ## Proposals and their entries -/

/-- What a caller asks for. -/
inductive Request (Command : Type) where
  | command (c : Command)
  | addNode (nodeId : ℕ) (address : String)
  | removeNode (nodeId : ℕ)

/-- A proposal: the node its caller waits at and the sync id generated for it. -/
structure Submission (Command : Type) where
  origin : ℕ
  syncId : ℕ
  request : Request Command

/-- What raft-rs is handed and hands out again: an entry without its place in the log. -/
structure Payload where
  entryType : EntryType
  data : Bytes
  context : Bytes
deriving DecidableEq, Repr

def Entry.payload (e : Entry) : Payload := ⟨e.entryType, e.data, e.context⟩

section
variable [ProstMessage ConfChange] [SerdeJson NodeMetadata] [SerdeJson Command]

/-- `RawNode::propose`. -/
def Payload.normal (context data : Bytes) : Payload := ⟨.entryNormal, data, context⟩

/-- `RawNode::propose_conf_change` with an empty context. -/
def Payload.confChange (cc : ConfChange) : Payload :=
  ⟨.entryConfChange, ProstMessage.encodeToVec cc, []⟩

/-- The entry of a proposal. -/
def Submission.payload (p : Submission Command) : Payload :=
  match p.request with
  | .command c => .normal (U64.toLeBytes p.syncId) (SerdeJson.toVec c)
  | .addNode nodeId address => .confChange
      { changeType := .addNode, nodeId,
        context := U64.toLeBytes p.syncId ++ SerdeJson.toVec ({ address } : NodeMetadata) }
  | .removeNode nodeId => .confChange
      { changeType := .removeNode, nodeId, context := U64.toLeBytes p.syncId }

/-- What a call proposes, and the sync id it generates. -/
def RaftNode.Call.request : Call Command → Option (ℕ × Request Command)
  | .propose _ syncId command => some (syncId, .command command)
  | .addNode _ syncId nodeId address => some (syncId, .addNode nodeId address)
  | .removeNode _ syncId nodeId => some (syncId, .removeNode nodeId)
  | .registerForwardedProposal _ | .campaign _ | .forget _ => none

omit [ProstMessage ConfChange] in
/-- The caller of a proposal waits for its id. -/
theorem RaftNode.perform_of_request {c : Call Command} {r : ℕ × Request Command}
    (h : c.request = some r) (n : RaftNode σ Event S) :
    (n.perform c).pendingProposals = Function.update n.pendingProposals r.1 true ∧
      (n.perform c).trace = n.trace := by
  cases c with
  | propose answers syncId command =>
    obtain rfl := Option.some.inj h
    exact ⟨rfl, rfl⟩
  | addNode answers syncId nodeId address =>
    obtain rfl := Option.some.inj h
    simp only [perform, addNode]
    split <;> exact ⟨rfl, rfl⟩
  | removeNode answers syncId nodeId =>
    obtain rfl := Option.some.inj h
    exact ⟨rfl, rfl⟩
  | _ => exact absurd h (by simp [Call.request])

/-- An entry of a proposal carries its sync id. -/
theorem Submission.syncId_of_payload {p : Submission Command} (hsize : p.syncId < U64.size) {e : Entry}
    (hdata : e.data ≠ []) (he : e.payload = p.payload) : e.syncId = some p.syncId := by
  have hconf : ∀ rest, (confChangeSyncId (U64.toLeBytes p.syncId ++ rest)).1 = some p.syncId := by
    intro rest
    have hlen := U64.length_toLeBytes p.syncId
    rw [confChangeSyncId, if_pos (by simp), List.take_left' hlen, U64.fromLeBytes_toLeBytes hsize]
  have hnil := hconf []
  rw [List.append_nil] at hnil
  unfold Entry.syncId
  rw [if_neg (by simpa using hdata)]
  unfold Submission.payload at he
  obtain ⟨origin, syncId, request⟩ := p
  cases request with
  | command c =>
    obtain ⟨htype, -, hcontext⟩ := Payload.mk.inj he
    rw [htype, hcontext]
    simp [entrySyncId, U64.fromLeBytes_toLeBytes hsize]
  | addNode nodeId address =>
    obtain ⟨htype, hencoded, -⟩ := Payload.mk.inj he
    rw [htype, hencoded]
    simp only [ProstMessage.decode_encodeToVec]
    exact hconf _
  | removeNode nodeId =>
    obtain ⟨htype, hencoded, -⟩ := Payload.mk.inj he
    rw [htype, hencoded]
    simp only [ProstMessage.decode_encodeToVec]
    exact hnil

namespace NodeOp

/-- The proposals an operation makes at a node. -/
def proposals (i : ℕ) : NodeOp Command → List (Submission Command)
  | .call c => c.request.toList.map fun r => ⟨i, r.1, r.2⟩
  | _ => []

/-- What an operation hands to raft-rs: the arguments of the calls into it. -/
def handed : NodeOp Command → List Payload
  | .call (.propose _ syncId command) =>
    [.normal (U64.toLeBytes syncId) (SerdeJson.toVec command)]
  | .call (.addNode _ syncId nodeId address) => [.confChange
      { changeType := .addNode, nodeId,
        context := U64.toLeBytes syncId ++ SerdeJson.toVec ({ address } : NodeMetadata) }]
  | .call (.removeNode _ syncId nodeId) => [.confChange
      { changeType := .removeNode, nodeId, context := U64.toLeBytes syncId }]
  | .message _ ⟨_, some (.propose commandJson syncId)⟩ =>
    [.normal (forwardedContext syncId) commandJson]
  | _ => []

end NodeOp

/-! ## Runs of a cluster -/

/-- What happens in a cluster. -/
inductive ClusterOp (σ Command S : Type) where
  | node (i : ℕ) (op : NodeOp Command)
  /-- `forward_to_leader`: the proposal is registered here and sent to the leader. -/
  | forward (i syncId : ℕ) (command : Command)
  /-- A node starts again. -/
  | restart (i : ℕ) (config : RaftNodeConfig) (peers : Peers) (stateMachine : σ)
      (confState : ConfState) (store : S) (delivered : ℕ)

/-- The nodes of a cluster, beside the proposals made so far, the forwarded ones that may still
arrive, what raft-rs was handed, and the entries each node got to since it started. -/
structure ProposalCluster (σ Command Event S : Type) where
  nodes : ℕ → NodeRun σ Event S
  proposals : List (Submission Command) := []
  forwarded : List (Bytes × ℕ) := []
  handed : List Payload := []
  processed : ℕ → List (Processing σ Event S) := fun _ => []

namespace ProposalCluster

/-- The sync ids generated so far. -/
def syncIds (s : ProposalCluster σ Command Event S) : List ℕ := s.proposals.map Submission.syncId

/-- A sync id as the cluster generates them: a number of 64 bits other than zero and the ones
before it. -/
structure Fresh (s : ProposalCluster σ Command Event S) (syncId : ℕ) : Prop where
  isNew : syncId ∉ s.syncIds
  ne_zero : syncId ≠ 0
  lt_size : syncId < U64.size

/-- What the environment of the nodes keeps to: sync ids are generated fresh, only
`forward_to_leader` registers forwarded proposals and sends them, and raft-rs hands out only what
it was handed. -/
def Lawful (s : ProposalCluster σ Command Event S) : ClusterOp σ Command S → Prop
  | .node _ (.call (.registerForwardedProposal _)) => False
  | .node _ (.call c) => ∀ r ∈ c.request, s.Fresh r.1
  | .node _ (.message _ ⟨_, some (.propose commandJson syncId)⟩) =>
    (commandJson, syncId) ∈ s.forwarded
  | .node _ (.ready io) => ∀ e ∈ io.handedOut, e.data ≠ [] → e.payload ∈ s.handed
  | .node _ _ => True
  | .forward _ syncId _ => s.Fresh syncId
  | .restart .. => True

instance (s : ProposalCluster σ Command Event S) (syncId : ℕ) : Decidable (s.Fresh syncId) :=
  decidable_of_iff (syncId ∉ s.syncIds ∧ syncId ≠ 0 ∧ syncId < U64.size)
    ⟨fun h => ⟨h.1, h.2.1, h.2.2⟩, fun h => ⟨h.isNew, h.ne_zero, h.lt_size⟩⟩

instance (s : ProposalCluster σ Command Event S) :
    (a : ClusterOp σ Command S) → Decidable (s.Lawful a)
  | .node _ (.call (.registerForwardedProposal _)) => isFalse id
  | .node _ (.call (.propose _ syncId _)) | .node _ (.call (.addNode _ syncId _ _))
  | .node _ (.call (.removeNode _ syncId _)) =>
    decidable_of_iff (s.Fresh syncId) (by simp [Lawful, Call.request])
  | .node _ (.call (.campaign _)) | .node _ (.call (.forget _)) =>
    isTrue (by simp [Lawful, Call.request])
  | .node _ (.message _ ⟨_, some (.propose commandJson syncId)⟩) =>
    inferInstanceAs (Decidable ((commandJson, syncId) ∈ s.forwarded))
  | .node _ (.message _ ⟨_, none⟩) | .node _ (.message _ ⟨_, some (.raftMessage _)⟩)
  | .node _ (.message _ ⟨_, some (.confChange _ _)⟩) | .node _ (.message _ ⟨_, some .campaign⟩)
  | .node _ (.message _ ⟨_, some (.addNode _ _ _)⟩)
  | .node _ (.message _ ⟨_, some (.removeNode _ _)⟩) | .node _ (.others _) => isTrue trivial
  | .node _ (.ready io) =>
    inferInstanceAs (Decidable (∀ e ∈ io.handedOut, e.data ≠ [] → e.payload ∈ s.handed))
  | .forward _ syncId _ => inferInstanceAs (Decidable (s.Fresh syncId))
  | .restart .. => isTrue trivial

variable [StateMachine σ Command Event] [RaftStorage S] [ProstMessage Message]

/-- The entries an operation makes a node get to. -/
def processedBy (n : RaftNode σ Event S) : NodeOp Command → List (Processing σ Event S)
  | .ready io => (RaftNode.processed io n).map fun t => ⟨io, t.1, t.2⟩
  | _ => []

def step (s : ProposalCluster σ Command Event S) :
    ClusterOp σ Command S → Option (ProposalCluster σ Command Event S)
  | .node i op => ((s.nodes i).step op).map fun run => { s with
      nodes := Function.update s.nodes i run
      proposals := s.proposals ++ op.proposals i
      handed := s.handed ++ op.handed
      processed := Function.update s.processed i
        (s.processed i ++ processedBy (s.nodes i).node op) }
  | .forward i syncId command =>
    ((s.nodes i).step (.call (.registerForwardedProposal syncId) : NodeOp Command)).map fun run =>
      { s with
        nodes := Function.update s.nodes i run
        proposals := s.proposals ++ [⟨i, syncId, .command command⟩]
        forwarded := s.forwarded ++ [(SerdeJson.toVec command, syncId)] }
  | .restart i config peers stateMachine confState store delivered => some { s with
      nodes := Function.update s.nodes i
        (NodeRun.start config peers stateMachine confState store delivered)
      processed := Function.update s.processed i [] }

/-- The callers of a node have been answered at most once, and every answer is that of the entry
of the caller's own proposal, after this node applied it. -/
structure AnsweredByOwn (s : ProposalCluster σ Command Event S) (i : ℕ) : Prop where
  once : (answeredIds (s.nodes i).node.trace).Nodup
  own : ∀ k id r, (s.nodes i).node.trace[k]? = some (.complete id r) →
    ∃ m ∈ s.processed i, m.Answers (s.nodes i).node.trace k id r ∧
      ∃ p ∈ s.proposals, p.origin = i ∧ p.syncId = id ∧ m.entry.payload = p.payload

/-! ## Every answer is that of its own entry -/

/-- Somebody at a node waits, or has waited, for a sync id. -/
def Registered (s : ProposalCluster σ Command Event S) (i id : ℕ) : Prop :=
  ∃ p ∈ s.proposals, p.origin = i ∧ p.syncId = id

/-- The proposals have different sync ids, and everything that is forwarded or that raft-rs was
handed is the entry of one of them. -/
structure Sourced (s : ProposalCluster σ Command Event S) : Prop where
  distinct : s.syncIds.Nodup
  sized : ∀ p ∈ s.proposals, p.syncId ≠ 0 ∧ p.syncId < U64.size
  forwarded : ∀ f ∈ s.forwarded, ∃ p ∈ s.proposals, p.syncId = f.2 ∧
    p.payload = .normal (U64.toLeBytes f.2) f.1
  handed : ∀ x ∈ s.handed, ∃ p ∈ s.proposals, p.payload = x

/-- The nodes get to entries that raft-rs was handed, and each keeps its ledger. -/
structure Sound (s : ProposalCluster σ Command Event S) : Prop extends Sourced s where
  entries : ∀ i, ∀ m ∈ s.processed i, m.entry.data ≠ [] → m.entry.payload ∈ s.handed
  ledger : ∀ i, Ledger (s.Registered i) (s.processed i) (s.nodes i).node

omit [RaftStorage S] [ProstMessage Message] in
theorem Sound.toAnsweredByOwn {s : ProposalCluster σ Command Event S} (h : s.Sound) (i : ℕ) :
    s.AnsweredByOwn i := by
  refine ⟨(h.ledger i).once, ?_⟩
  intro k id r hk
  obtain ⟨m, hm, hanswers⟩ := (h.ledger i).answered k id r hk
  refine ⟨m, hm, hanswers, ?_⟩
  have hid : id ∈ answeredIds (s.nodes i).node.trace :=
    List.mem_filterMap.mpr ⟨_, List.mem_of_getElem? hk, rfl⟩
  obtain ⟨p, hp, horigin, hsync⟩ := (h.ledger i).known id hid
  have hdata : m.entry.data ≠ [] := by
    intro hempty
    have hcarries := hanswers.carries
    rw [Entry.syncId, hempty] at hcarries
    exact absurd hcarries (by simp)
  -- the entry is that of a proposal, and there is one proposal with this id
  obtain ⟨q, hq, hpayload⟩ := h.handed _ (h.entries i m hm hdata)
  have hqid : q.syncId = id := by
    have hcarries := Submission.syncId_of_payload (h.sized q hq).2 hdata hpayload.symm
    rw [hanswers.carries] at hcarries
    exact (Option.some.inj hcarries).symm
  obtain rfl : p = q := List.inj_on_of_nodup_map h.distinct hp hq (hsync.trans hqid.symm)
  exact ⟨p, hp, horigin, hsync, hpayload.symm⟩

omit [StateMachine σ Command Event] [RaftStorage S] [ProstMessage Message] in
/-- New proposals with fresh ids. -/
theorem Sourced.extend {s s' : ProposalCluster σ Command Event S} (h : s.Sourced)
    {ps : List (Submission Command)} (hproposals : s'.proposals = s.proposals ++ ps)
    (hdistinct : (ps.map Submission.syncId).Nodup) (hfresh : ∀ p ∈ ps, s.Fresh p.syncId)
    (hforwarded : ∀ f ∈ s'.forwarded, f ∈ s.forwarded ∨
      ∃ p ∈ ps, p.syncId = f.2 ∧ p.payload = .normal (U64.toLeBytes f.2) f.1)
    (hhanded : ∀ x ∈ s'.handed, x ∈ s.handed ∨ ∃ p ∈ s.proposals ++ ps, p.payload = x) :
    s'.Sourced := by
  have hmem : ∀ p ∈ s.proposals, p ∈ s'.proposals := by
    intro p hp
    rw [hproposals]
    exact List.mem_append_left ps hp
  refine ⟨?_, ?_, ?_, ?_⟩
  · rw [syncIds, hproposals, List.map_append, List.nodup_append']
    refine ⟨h.distinct, hdistinct, ?_⟩
    intro id hid hid'
    obtain ⟨p, hp, rfl⟩ := List.mem_map.mp hid'
    exact (hfresh p hp).isNew hid
  · intro p hp
    rw [hproposals] at hp
    rcases List.mem_append.mp hp with hp | hp
    · exact h.sized p hp
    · exact ⟨(hfresh p hp).ne_zero, (hfresh p hp).lt_size⟩
  · intro f hf
    rcases hforwarded f hf with hf | ⟨p, hp, hpf⟩
    · obtain ⟨p, hp, hpf⟩ := h.forwarded f hf
      exact ⟨p, hmem p hp, hpf⟩
    · exact ⟨p, hproposals ▸ List.mem_append_right _ hp, hpf⟩
  · intro x hx
    rcases hhanded x hx with hx | ⟨p, hp, hpx⟩
    · obtain ⟨p, hp, hpx⟩ := h.handed x hx
      exact ⟨p, hmem p hp, hpx⟩
    · exact ⟨p, hproposals ▸ hp, hpx⟩

omit [StateMachine σ Command Event] [RaftStorage S] [ProstMessage Message] in
/-- What an operation of a node hands to raft-rs is the entry of a proposal. -/
theorem Sourced.handed_of_lawful {s : ProposalCluster σ Command Event S} (h : s.Sourced) {i : ℕ}
    {op : NodeOp Command} (hlaw : s.Lawful (.node i op)) :
    ∀ x ∈ op.handed, ∃ p ∈ s.proposals ++ op.proposals i, p.payload = x := by
  cases op with
  | call c =>
    have hsame : (NodeOp.call c).handed = ((NodeOp.call c).proposals i).map Submission.payload := by
      cases c <;> rfl
    intro x hx
    rw [hsame] at hx
    obtain ⟨p, hp, rfl⟩ := List.mem_map.mp hx
    exact ⟨p, List.mem_append_right _ hp, rfl⟩
  | message answers msg =>
    obtain ⟨clusterId, message⟩ := msg
    rcases message with _ | ⟨commandJson, syncId⟩ | _ | _ | _ | _ | _
    case some.propose =>
      intro x hx
      obtain rfl := List.mem_singleton.mp hx
      obtain ⟨p, hp, hid, hpayload⟩ := h.forwarded _ hlaw
      refine ⟨p, List.mem_append_left _ hp, ?_⟩
      have hne : syncId ≠ 0 := fun hzero => (h.sized p hp).1 (hid.trans hzero)
      rw [hpayload, forwardedContext, if_pos hne]
    all_goals exact fun x hx => absurd hx List.not_mem_nil
  | _ => exact fun x hx => absurd hx List.not_mem_nil

omit [ProstMessage Message] in
theorem mem_processed_entry {io : ReadyIo} {n : RaftNode σ Event S}
    {t : Entry × RaftNode σ Event S} (h : t ∈ RaftNode.processed io n) : t.1 ∈ io.handedOut := by
  have hturns : ∀ (o : Option (RaftNode σ Event S)) (es : List Entry),
      t ∈ (o.map (Step.turns (RaftNode.applyEntry io) es)).getD [] → t.1 ∈ es := by
    intro o es ht
    cases o with
    | none => exact absurd ht List.not_mem_nil
    | some m => exact Step.fst_mem_of_mem_turns ht
  unfold RaftNode.processed at h
  split_ifs at h
  · rcases List.mem_append.mp h with h | h
    · exact List.mem_append_left _ (hturns _ _ h)
    · exact List.mem_append_right _ (hturns _ _ h)
  · exact absurd h List.not_mem_nil

omit [ProstMessage ConfChange] [SerdeJson NodeMetadata] [SerdeJson Command]
  [StateMachine σ Command Event] [RaftStorage S] [ProstMessage Message] in
theorem Lawful.fresh {s : ProposalCluster σ Command Event S} {i : ℕ} {c : Call Command}
    (h : s.Lawful (.node i (.call c))) : ∀ r ∈ c.request, s.Fresh r.1 := by
  cases c with
  | registerForwardedProposal syncId => exact h.elim
  | _ => exact h

omit [ProstMessage ConfChange] [SerdeJson NodeMetadata] [SerdeJson Command]
  [StateMachine σ Command Event] [RaftStorage S] [ProstMessage Message] in
theorem Fresh.not_registered {s : ProposalCluster σ Command Event S} {i id : ℕ} (h : s.Fresh id) :
    ¬ s.Registered i id := by
  rintro ⟨p, hp, -, rfl⟩
  exact h.isNew (List.mem_map_of_mem hp)

omit [ProstMessage ConfChange] [SerdeJson NodeMetadata] [SerdeJson Command]
  [StateMachine σ Command Event] [RaftStorage S] [ProstMessage Message] in
/-- An operation makes one proposal at most, at its own node and with a fresh id. -/
theorem Lawful.proposals {s : ProposalCluster σ Command Event S} {i : ℕ} {op : NodeOp Command}
    (h : s.Lawful (.node i op)) : ((op.proposals i).map Submission.syncId).Nodup ∧
      ∀ p ∈ op.proposals i, p.origin = i ∧ s.Fresh p.syncId := by
  cases op with
  | call c =>
    refine ⟨by cases hr : c.request <;> simp [NodeOp.proposals, hr], fun p hp => ?_⟩
    obtain ⟨r, hr, rfl⟩ := List.mem_map.mp hp
    exact ⟨rfl, h.fresh r (Option.mem_toList.mp hr)⟩
  | _ => exact ⟨List.nodup_nil, fun p hp => absurd hp List.not_mem_nil⟩

/-- One operation keeps the ledger of its node. -/
theorem ledger_of_step {s : ProposalCluster σ Command Event S} {i : ℕ} {op : NodeOp Command}
    {run : NodeRun σ Event S} (hledger : Ledger (s.Registered i) (s.processed i) (s.nodes i).node)
    (hlaw : s.Lawful (.node i op)) (hrun : (s.nodes i).step op = some run) :
    Ledger (fun id => s.Registered i id ∨ ∃ p ∈ op.proposals i, p.syncId = id)
      (s.processed i ++ processedBy (s.nodes i).node op) run.node := by
  set n := (s.nodes i).node with hn
  have hmono := hledger.mono
    (fun id hid => Or.inl (b := ∃ p ∈ op.proposals i, p.syncId = id) hid)
    (List.subset_append_left (s.processed i) (processedBy n op))
  unfold NodeRun.step at hrun
  split_ifs at hrun
  cases op with
  | call c =>
    obtain rfl := Option.some.inj hrun
    cases hrequest : c.request with
    | some r =>
      obtain ⟨hpending, htrace⟩ := perform_of_request hrequest n
      have hregister := hledger.register (hlaw.fresh r hrequest).not_registered hpending htrace
      refine hregister.mono ?_ (List.subset_append_left _ _)
      rintro id (hid | rfl)
      · exact Or.inl hid
      · exact Or.inr ⟨⟨i, r.1, r.2⟩, by simp [NodeOp.proposals, hrequest], rfl⟩
    | none =>
      cases c with
      | registerForwardedProposal syncId => exact hlaw.elim
      | campaign answer => exact hmono
      | forget syncId => exact hmono.forget syncId
      | _ => exact absurd hrequest (by simp [Call.request])
  | others f =>
    obtain rfl := Option.some.inj hrun
    exact hmono.silent ⟨rfl, Extends.of_trace_eq rfl⟩
  | message answers msg =>
    obtain rfl := Option.some.inj hrun
    exact hmono
  | ready io =>
    obtain rfl := Option.some.inj hrun
    refine hmono.onReady ?_
    intro t ht
    exact List.mem_append_right _ (List.mem_map.mpr ⟨t, ht, rfl⟩)

omit [RaftStorage S] [ProstMessage Message] in
/-- A step at one node, from what it does there. -/
theorem Sound.update {s s' : ProposalCluster σ Command Event S} (h : s.Sound) (i : ℕ)
    {run : NodeRun σ Event S} {M : List (Processing σ Event S)} (hsourced : s'.Sourced)
    (hnodes : s'.nodes = Function.update s.nodes i run)
    (hprocessed : s'.processed = Function.update s.processed i M)
    (hproposals : s.proposals ⊆ s'.proposals) (hhanded : s.handed ⊆ s'.handed)
    (hentries : ∀ m ∈ M, m.entry.data ≠ [] → m.entry.payload ∈ s'.handed)
    (hledger : Ledger (s'.Registered i) M run.node) : s'.Sound := by
  refine ⟨hsourced, ?_, ?_⟩
  · intro j m hm hdata
    rw [hprocessed] at hm
    by_cases hj : j = i
    · subst hj
      rw [Function.update_self] at hm
      exact hentries m hm hdata
    · rw [Function.update_of_ne hj] at hm
      exact hhanded (h.entries j m hm hdata)
  · intro j
    rw [hprocessed, hnodes]
    by_cases hj : j = i
    · subst hj
      rwa [Function.update_self, Function.update_self]
    · rw [Function.update_of_ne hj, Function.update_of_ne hj]
      refine (h.ledger j).mono ?_ (List.Subset.refl _)
      rintro id ⟨p, hp, hid⟩
      exact ⟨p, hproposals hp, hid⟩

theorem node_sound {s s' : ProposalCluster σ Command Event S} {i : ℕ} {op : NodeOp Command}
    (h : s.Sound) (hlaw : s.Lawful (.node i op)) (hs : s.step (.node i op) = some s') :
    s'.Sound := by
  obtain ⟨run, hrun, rfl⟩ := Option.map_eq_some_iff.mp hs
  obtain ⟨hdistinct, hproposals⟩ := hlaw.proposals
  refine h.update i ?_ rfl rfl (List.subset_append_left _ _) (List.subset_append_left _ _) ?_ ?_
  · refine h.toSourced.extend rfl hdistinct (fun p hp => (hproposals p hp).2)
      (fun f hf => Or.inl hf) ?_
    intro x hx
    exact (List.mem_append.mp hx).imp_right (h.toSourced.handed_of_lawful hlaw x)
  · intro m hm hdata
    refine List.mem_append_left _ ?_
    rcases List.mem_append.mp hm with hm | hm
    · exact h.entries i m hm hdata
    · cases op with
      | ready io =>
        obtain ⟨t, ht, rfl⟩ := List.mem_map.mp hm
        exact hlaw t.1 (mem_processed_entry ht) hdata
      | _ => exact absurd hm List.not_mem_nil
  · refine (ledger_of_step (h.ledger i) hlaw hrun).mono ?_ (List.Subset.refl _)
    rintro id (⟨p, hp, hid⟩ | ⟨p, hp, hid⟩)
    · exact ⟨p, List.mem_append_left _ hp, hid⟩
    · exact ⟨p, List.mem_append_right _ hp, (hproposals p hp).1, hid⟩

theorem forward_sound {s s' : ProposalCluster σ Command Event S} {i syncId : ℕ} {command : Command}
    (h : s.Sound) (hfresh : s.Fresh syncId) (hs : s.step (.forward i syncId command) = some s') :
    s'.Sound := by
  obtain ⟨run, hrun, rfl⟩ := Option.map_eq_some_iff.mp hs
  have hnode : run.node = (s.nodes i).node.track syncId := by
    unfold NodeRun.step at hrun
    split_ifs at hrun
    obtain rfl := Option.some.inj hrun
    rfl
  refine h.update i (M := s.processed i) ?_ rfl (Function.update_eq_self i _).symm
    (List.subset_append_left _ _) (List.Subset.refl _) (h.entries i) ?_
  · refine h.toSourced.extend rfl (by simp) (by simpa using hfresh) ?_ (fun x hx => Or.inl hx)
    intro f hf
    rcases List.mem_append.mp hf with hf | hf
    · exact Or.inl hf
    · obtain rfl := List.mem_singleton.mp hf
      exact Or.inr ⟨_, List.mem_singleton_self _, rfl, rfl⟩
  · rw [hnode]
    have hregister : Ledger _ (s.processed i) ((s.nodes i).node.track syncId) :=
      (h.ledger i).register hfresh.not_registered rfl rfl
    refine hregister.mono ?_ (List.Subset.refl _)
    rintro id (⟨p, hp, hid⟩ | rfl)
    · exact ⟨p, List.mem_append_left _ hp, hid⟩
    · exact ⟨_, List.mem_append_right _ (List.mem_singleton_self _), rfl, rfl⟩

theorem step_sound {s s' : ProposalCluster σ Command Event S} {a : ClusterOp σ Command S}
    (h : s.Sound) (hlaw : s.Lawful a) (hs : s.step a = some s') : s'.Sound := by
  cases a with
  | node i op => exact node_sound h hlaw hs
  | forward i syncId command => exact forward_sound h hlaw hs
  | restart i =>
    obtain rfl := Option.some.inj hs
    refine h.update i ⟨h.distinct, h.sized, h.forwarded, h.handed⟩ rfl rfl (List.Subset.refl _)
      (List.Subset.refl _) ?_ (Ledger.of_started rfl rfl)
    exact fun m hm => absurd hm List.not_mem_nil

/-- Nodes of which none has started to work. -/
def start (nodes : ℕ → NodeRun σ Event S) : ProposalCluster σ Command Event S := { nodes }

/-- In every run of a cluster whose sync ids are generated fresh, every caller is answered at
most once, by the entry of its own proposal. -/
theorem answeredByOwn (configs : ℕ → RaftNodeConfig) (peers : ℕ → Peers) (stateMachines : ℕ → σ)
    (confStates : ℕ → ConfState) (stores : ℕ → S) (delivered : ℕ → ℕ)
    {as : List (ClusterOp σ Command S)} {s : ProposalCluster σ Command Event S}
    (hlaw : Transition.Along step Lawful (start fun i => NodeRun.start (configs i) (peers i)
      (stateMachines i) (confStates i) (stores i) (delivered i)) as)
    (hrun : Transition.run step (start fun i => NodeRun.start (configs i) (peers i)
      (stateMachines i) (confStates i) (stores i) (delivered i)) as = some s) (i : ℕ) :
    s.AnsweredByOwn i := by
  refine Sound.toAnsweredByOwn ?_ i
  refine Transition.run_induction (fun s a s' h hlaw hs => step_sound h hlaw hs) ?_ hlaw hrun
  refine ⟨⟨?_, ?_, ?_, ?_⟩, ?_, fun i => Ledger.of_started rfl rfl⟩
  all_goals simp [start, syncIds]

end ProposalCluster

end

namespace ProposalCluster

section
open scoped Codec

/-- Nodes over new storages. -/
def kvCluster : ProposalCluster KvStateMachine KvCommand KvEvent RocksDBStorage :=
  start fun i => NodeRun.start { nodeId := i } (fun _ => none) {} { voters := [1, 2] } ⟨{}, 1, 0⟩ 0

/-- raft-rs takes everything. -/
def takesAll : RaftAnswers := ⟨fun _ => .ok (), fun _ _ => .ok (), fun _ => .ok ()⟩

def localEntry : Entry :=
  { index := 1, data := SerdeJson.toVec (KvCommand.set "a" "b"), context := U64.toLeBytes 7 }

def forwardedEntry : Entry :=
  { index := 2, data := SerdeJson.toVec (KvCommand.set "c" "d"), context := U64.toLeBytes 9 }

def removalEntry : Entry :=
  { index := 3, entryType := .entryConfChange
    data := ProstMessage.encodeToVec
      ({ changeType := .removeNode, nodeId := 3, context := U64.toLeBytes 11 } : ConfChange) }

/-- The leader and the node that forwarded to it apply the same three entries. -/
def forwardingRun : List (ClusterOp KvStateMachine KvCommand RocksDBStorage) :=
  [.node 1 (.call (.propose takesAll 7 (.set "a" "b"))),
   .forward 2 9 (.set "c" "d"),
   .node 1 (.message takesAll ⟨0, some (.propose (SerdeJson.toVec (KvCommand.set "c" "d")) 9)⟩),
   .node 1 (.call (.removeNode takesAll 11 3)),
   .node 1 (.ready { ready := { committedEntries := [localEntry] }
                     lightReady := { committedEntries := [forwardedEntry, removalEntry] }
                     applyConfChange := fun _ => .ok { voters := [1, 2] } }),
   .node 2 (.ready { ready := { committedEntries := [localEntry, forwardedEntry] }
                     applyConfChange := fun _ => .ok { voters := [1, 2] } })]

theorem answeredByOwn_forwardingRun : ∃ s ∈ Transition.run step kvCluster forwardingRun,
    answeredIds (s.nodes 1).node.trace = [7, 11] ∧ answeredIds (s.nodes 2).node.trace = [9] ∧
      s.AnsweredByOwn 1 ∧ s.AnsweredByOwn 2 := by
  obtain ⟨s, hs, hleader, hfollower⟩ : ∃ s ∈ Transition.run step kvCluster forwardingRun,
      answeredIds (s.nodes 1).node.trace = [7, 11] ∧
        answeredIds (s.nodes 2).node.trace = [9] := by decide
  have hlaw : Transition.Along step Lawful kvCluster forwardingRun := by decide
  have hown := answeredByOwn (fun i => { nodeId := i }) (fun _ _ => none)
    (fun _ => ({} : KvStateMachine)) (fun _ => { voters := [1, 2] })
    (fun _ => (⟨{}, 1, 0⟩ : RocksDBStorage)) (fun _ => 0) hlaw hs
  exact ⟨s, hs, hleader, hfollower, hown 1, hown 2⟩

end

end ProposalCluster

end Raftoral

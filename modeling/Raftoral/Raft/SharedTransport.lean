import Raftoral.Lib.Run
import Raftoral.Raft.Codec
import Raftoral.Raft.Node

/-!
# The transport that the clusters of a node share

The management cluster and the sub-clusters of a node send through one `TransportLayer`, and
`apply_conf_change` of each of them adds and removes the peers of that one map. A removal from
one cluster takes the peer away from the others too.
-/

namespace Raftoral

/-- The peers of a node, the applied configurations of the clusters that run on it, and which
peers were registered and not given up since: a peer is given up when a removal leaves it in
none of the clusters. -/
structure SharedTransport where
  peers : Peers := fun _ => none
  clusters : List ConfState := []
  registered : ℕ → Bool := fun _ => false

inductive TransportAction where
  /-- A node of a cluster is started with a configuration. -/
  | start (confState : ConfState)
  /-- A peer is registered: at start-up, or by the leader's `add_node`. -/
  | register (nodeId : ℕ) (address : String)
  /-- A cluster applies a change; raft-rs answers with the new configuration. -/
  | apply (cluster : ℕ) (cc : ConfChange) (confState : ConfState)
  /-- A cluster installs the configuration of a snapshot. -/
  | install (cluster : ℕ) (confState : ConfState)

def ConfState.hasMember (cs : ConfState) (nodeId : ℕ) : Bool :=
  cs.voters.contains nodeId || cs.learners.contains nodeId

/-- What raft-rs documents of `RemoveNode`: the node is in the new configuration neither as a
voter nor as a learner. -/
def TransportAction.Lawful : TransportAction → Prop
  | .apply _ cc confState => cc.changeType = .removeNode → confState.hasMember cc.nodeId = false
  | _ => True

namespace SharedTransport

/-- Whether a node is in the configuration of one of the clusters. -/
def isMember (clusters : List ConfState) (nodeId : ℕ) : Bool := clusters.any (·.hasMember nodeId)

section
variable [SerdeJson NodeMetadata]

def step (s : SharedTransport) : TransportAction → Option SharedTransport
  | .start confState => some { s with clusters := s.clusters ++ [confState] }
  | .register nodeId address =>
    some { s with
      peers := TransportLayer.addPeer s.peers nodeId address
      registered := Function.update s.registered nodeId true }
  | .apply cluster cc confState =>
    if cluster < s.clusters.length then
      let peers := (RaftNode.confChangePeers cc s.peers).2
      let clusters := s.clusters.set cluster confState
      some { s with
        peers
        clusters
        registered := match cc.changeType with
          | .addNode => fun p => s.registered p || (peers p).isSome
          | .removeNode => Function.update s.registered cc.nodeId
              (s.registered cc.nodeId && isMember clusters cc.nodeId)
          | .addLearnerNode => s.registered }
    else none
  | .install cluster confState =>
    if cluster < s.clusters.length then
      some { s with clusters := s.clusters.set cluster confState }
    else none

/-- A registered peer that is a member of a cluster is in the map: a message to it gets the
answer of the protocol. -/
def Connected (s : SharedTransport) : Prop :=
  ∀ p, s.registered p → isMember s.clusters p →
    (s.peers p).isSome ∧ ∀ answer, TransportLayer.sendMessage s.peers answer p = answer

/-- Whether a step removes a registered peer that another cluster has. -/
def disconnects (s : SharedTransport) : TransportAction → Bool
  | .apply cluster cc _ => decide (cc.changeType = .removeNode) && (s.peers cc.nodeId).isSome &&
      isMember (s.clusters.eraseIdx cluster) cc.nodeId
  | _ => false

/-! ## A change, cluster by cluster -/

omit [SerdeJson NodeMetadata] in
theorem isMember_set {clusters : List ConfState} {k : ℕ} (hk : k < clusters.length)
    (cs : ConfState) (p : ℕ) : isMember (clusters.set k cs) p =
      (cs.hasMember p || isMember (clusters.eraseIdx k) p) := by
  unfold isMember
  induction clusters generalizing k with
  | nil => simp at hk
  | cons c clusters ih =>
    cases k with
    | zero => simp
    | succ k =>
      have hk : k < clusters.length := by simpa using hk
      rw [List.set_cons_succ, List.eraseIdx_cons_succ, List.any_cons, List.any_cons, ih hk,
        Bool.or_left_comm]

omit [SerdeJson NodeMetadata] in
/-- Answering the proposer touches neither the peers nor the configuration. -/
theorem completeProposal_frame {σ Event S : Type} (syncId : Option ℕ)
    (result : Except String Unit) (n : RaftNode σ Event S) :
    (n.completeProposal syncId result).peers = n.peers ∧
      (n.completeProposal syncId result).cachedConfState = n.cachedConfState := by
  unfold RaftNode.completeProposal
  cases syncId with
  | none => exact ⟨rfl, rfl⟩
  | some id =>
    dsimp only
    split_ifs
    · exact ⟨rfl, rfl⟩
    · exact ⟨rfl, rfl⟩

/-- A change in a cluster does to the shared state what `apply_conf_change` does to its node. -/
theorem applyConfChange_eq_step {σ Event S : Type} [ProstMessage ConfChange] {s : SharedTransport}
    {n : RaftNode σ Event S} {io : ReadyIo} {entry : Entry} {cc : ConfChange} {cs : ConfState}
    {cluster : ℕ} (hcluster : cluster < s.clusters.length) (hpeers : n.peers = s.peers)
    (hdecode : ProstMessage.decode entry.data = .ok cc)
    (hraft : io.applyConfChange entry = .ok cs) :
    ∃ s', s.step (.apply cluster cc cs) = some s' ∧
      (RaftNode.applyConfChange io entry n).2.peers = s'.peers ∧
      s'.clusters[cluster]? = some (RaftNode.applyConfChange io entry n).2.cachedConfState := by
  have hafter : (RaftNode.applyConfChange io entry n).2 = RaftNode.completeProposal
      (RaftNode.confChangeSyncId cc.context).1 (RaftNode.confChangePeers cc n.peers).1
      { n with cachedConfState := cs, peers := (RaftNode.confChangePeers cc n.peers).2 } := by
    rw [RaftNode.applyConfChange, hdecode]
    simp only [hraft]
  obtain ⟨hp, hc⟩ := completeProposal_frame (RaftNode.confChangeSyncId cc.context).1
    (RaftNode.confChangePeers cc n.peers).1
    { n with cachedConfState := cs, peers := (RaftNode.confChangePeers cc n.peers).2 }
  refine ⟨_, by rw [step, if_pos hcluster], ?_, ?_⟩
  · rw [hafter, hp, hpeers]
  · rw [hafter, hc]
    exact List.getElem?_set_self hcluster

theorem confChangePeers_removeNode {cc : ConfChange} (h : cc.changeType = .removeNode)
    (peers : Peers) :
    (RaftNode.confChangePeers cc peers).2 = TransportLayer.removePeer peers cc.nodeId := by
  simp [RaftNode.confChangePeers, h]

/-- Only a removal takes a peer out of the map. -/
theorem isSome_confChangePeers {cc : ConfChange} (h : cc.changeType ≠ .removeNode) {peers : Peers}
    {p : ℕ} (hp : (peers p).isSome) : ((RaftNode.confChangePeers cc peers).2 p).isSome := by
  unfold RaftNode.confChangePeers
  cases hchange : cc.changeType with
  | removeNode => exact absurd hchange h
  | addLearnerNode => exact hp
  | addNode =>
    dsimp only
    split_ifs
    · split
      · show (Function.update peers cc.nodeId _ p).isSome
        by_cases hn : p = cc.nodeId
        · subst hn
          simp
        · rwa [Function.update_of_ne hn]
      · exact hp
    · exact hp

theorem confChangePeers_addLearnerNode {cc : ConfChange} (h : cc.changeType = .addLearnerNode)
    (peers : Peers) : (RaftNode.confChangePeers cc peers).2 = peers := by
  simp [RaftNode.confChangePeers, h]

/-! ## Every run -/

/-- The registered peers are those of the map. -/
def Agrees (s : SharedTransport) : Prop := ∀ p, s.registered p = (s.peers p).isSome

omit [SerdeJson NodeMetadata] in
theorem Agrees.connected {s : SharedTransport} (h : s.Agrees) : s.Connected := by
  intro p hp _
  rw [h p] at hp
  refine ⟨hp, fun answer => ?_⟩
  obtain ⟨address, haddress⟩ := Option.isSome_iff_exists.mp hp
  simp [TransportLayer.sendMessage, haddress]

theorem step_apply {s s' : SharedTransport} {cluster : ℕ} {cc : ConfChange} {cs : ConfState}
    (h : s.step (.apply cluster cc cs) = some s') :
    cluster < s.clusters.length ∧ s'.peers = (RaftNode.confChangePeers cc s.peers).2 ∧
      s'.clusters = s.clusters.set cluster cs ∧
      (cc.changeType = .addNode → ∀ p, s'.registered p = (s.registered p || (s'.peers p).isSome)) ∧
      (cc.changeType = .removeNode → s'.registered = Function.update s.registered cc.nodeId
        (s.registered cc.nodeId && isMember s'.clusters cc.nodeId)) ∧
      (cc.changeType = .addLearnerNode → s'.registered = s.registered) := by
  rw [step] at h
  split_ifs at h with hcluster
  rw [Option.some.injEq] at h
  subst h
  refine ⟨hcluster, rfl, rfl, fun hadd p => ?_, fun hremove => ?_, fun hlearner => ?_⟩
  · simp only [hadd]
  · simp only [hremove]
  · simp only [hlearner]

/-- A step that disconnects nobody keeps the two together. -/
theorem Agrees.step {s s' : SharedTransport} {a : TransportAction} (h : s.Agrees)
    (hlawful : TransportAction.Lawful a) (hdisconnects : s.disconnects a = false)
    (hstep : s.step a = some s') : s'.Agrees := by
  cases a with
  | start confState =>
    rw [SharedTransport.step, Option.some.injEq] at hstep
    exact hstep ▸ h
  | register nodeId address =>
    rw [SharedTransport.step, Option.some.injEq] at hstep
    subst hstep
    intro p
    show Function.update s.registered nodeId true p =
      (Function.update s.peers nodeId (some address) p).isSome
    by_cases hp : p = nodeId
    · subst hp
      simp
    · rw [Function.update_of_ne hp, Function.update_of_ne hp, h p]
  | install cluster confState =>
    rw [SharedTransport.step] at hstep
    split_ifs at hstep
    rw [Option.some.injEq] at hstep
    exact hstep ▸ h
  | apply cluster cc cs =>
    obtain ⟨hcluster, hpeers, hclusters, hadd, hremove, hlearner⟩ := step_apply hstep
    intro p
    cases hchange : cc.changeType with
    | addNode =>
      rw [hadd hchange p, h p, hpeers]
      by_cases hp : (s.peers p).isSome = true
      · rw [isSome_confChangePeers (by simp [hchange]) hp, Bool.or_true]
      · rw [Bool.not_eq_true] at hp
        rw [hp, Bool.false_or]
    | addLearnerNode => rw [hlearner hchange, h p, hpeers, confChangePeers_addLearnerNode hchange]
    | removeNode =>
      rw [hremove hchange, hpeers, confChangePeers_removeNode hchange, TransportLayer.removePeer]
      by_cases hp : p = cc.nodeId
      · subst hp
        -- the peer goes, so no cluster but the one that lets it go may have it
        rw [Function.update_self, Function.update_self, h, hclusters, isMember_set hcluster,
          hlawful hchange, Bool.false_or]
        simpa [disconnects, hchange] using hdisconnects
      · rw [Function.update_of_ne hp, Function.update_of_ne hp, h p]

/-- A step that disconnects a peer leaves it a member that cannot be sent to. -/
theorem Agrees.not_disconnects {s s' : SharedTransport} {a : TransportAction} (h : s.Agrees)
    (hstep : s.step a = some s') (hconnected : s'.Connected) : s.disconnects a = false := by
  cases a with
  | apply cluster cc cs =>
    rw [Bool.eq_false_iff]
    intro hdisconnects
    obtain ⟨⟨hchange, hpeer⟩, hmember⟩ : (cc.changeType = .removeNode ∧
        (s.peers cc.nodeId).isSome) ∧ isMember (s.clusters.eraseIdx cluster) cc.nodeId := by
      simpa [disconnects] using hdisconnects
    obtain ⟨hcluster, hpeers, hclusters, -, hremove, -⟩ := step_apply hstep
    have hmember' : isMember s'.clusters cc.nodeId := by
      rw [hclusters, isMember_set hcluster, hmember, Bool.or_true]
    have hregistered : s'.registered cc.nodeId := by
      rw [hremove hchange, Function.update_self, h, hpeer, hmember']
      rfl
    have hpresent := (hconnected cc.nodeId hregistered hmember').1
    rw [hpeers, confChangePeers_removeNode hchange, TransportLayer.removePeer,
      Function.update_self] at hpresent
    cases hpresent
  | _ => rfl

/-- Clusters that share a transport leave each other's peers alone exactly as long as no
cluster removes a registered peer that another one has. -/
theorem connected_iff_undisturbed (actions : List TransportAction)
    (hlawful : ∀ a ∈ actions, TransportAction.Lawful a) (s : SharedTransport)
    (hrun : Transition.run step {} actions = some s) :
    (∀ actions' s', actions' <+: actions → Transition.run step {} actions' = some s' →
      s'.Connected) ↔
    Transition.Along step (fun s a => s.disconnects a = false) {} actions := by
  refine Transition.always_iff_along (K := fun _ a => TransportAction.Lawful a) (I := Agrees)
    (fun s a s' h hlawful hdis hstep => h.step hlawful hdis hstep) (fun s h => h.connected)
    (fun s a s' h _ hstep hconnected => h.not_disconnects hstep hconnected) (fun p => rfl)
    (Transition.along_of_forall hlawful) hrun

end

section
open scoped Codec

/-- The management cluster of nodes 1 and 2 and a sub-cluster of nodes 1 and 3, which removes
node 3. -/
def separateClusters : List TransportAction :=
  [.start { voters := [1, 2] }, .register 2 "127.0.0.1:5002", .start { voters := [1, 3] },
    .register 3 "127.0.0.1:5003",
    .apply 1 { changeType := .removeNode, nodeId := 3 } { voters := [1] }]

theorem connected_separateClusters :
    ∃ s, Transition.run step {} separateClusters = some s ∧
      ∀ actions' s', actions' <+: separateClusters →
        Transition.run step {} actions' = some s' → s'.Connected := by
  refine ⟨_, rfl, (connected_iff_undisturbed separateClusters ?_ _ rfl).mpr ?_⟩
  · simp [separateClusters, TransportAction.Lawful, ConfState.hasMember]
  · decide

/-- The management cluster of nodes 1 and 2 and a sub-cluster of the same nodes, which removes
node 2. -/
def overlappingClusters : List TransportAction :=
  [.start { voters := [1, 2] }, .register 2 "127.0.0.1:5002", .start { voters := [1, 2] },
    .apply 1 { changeType := .removeNode, nodeId := 2 } { voters := [1] }]

/-- The management cluster can no longer send to node 2. -/
theorem not_connected_overlappingClusters :
    (∀ a ∈ overlappingClusters, a.Lawful) ∧
    ∃ s, Transition.run step {} overlappingClusters = some s ∧ s.registered 2 = true ∧
      s.clusters = [{ voters := [1, 2] }, { voters := [1] }] ∧
      TransportLayer.sendMessage s.peers (.ok ()) 2 = .error (.peerNotFound 2) ∧
      ¬ s.Connected := by
  refine ⟨?_, _, rfl, rfl, rfl, rfl, ?_⟩
  · simp [overlappingClusters, TransportAction.Lawful, ConfState.hasMember]
  · intro h
    exact absurd (h 2 rfl rfl).1 (by decide)

end

end SharedTransport

end Raftoral

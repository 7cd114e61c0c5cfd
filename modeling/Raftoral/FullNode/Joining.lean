import Raftoral.FullNode.Discovery
import Raftoral.Management.StateMachine
import Raftoral.Management.SubClusterBootstrap
import Raftoral.Raft.RunLoop

/-!
# Joining the management cluster

A node that has discovered its peers starts a management node of its own (`full_node/mod.rs`)
and is then added by the leader. Over gRPC the node starts with the peers as voters; the copy of
the start-up for HTTP uses the constructor of a cluster of one, so its node is its own quorum.

The leader adds every node as a voter (`RaftNode::add_node`), whatever the node was told about
voters and learners.
-/

namespace Raftoral

variable {S : Type}

/-! ## The nodes of the management cluster -/

/-- The node a constructor of `ManagementRuntime` makes. -/
abbrev ManagementNode (S : Type) := RaftNode ManagementStateMachine ManagementEvent S

namespace ManagementNode

/-- `ManagementRuntime::new`: a cluster of one. -/
def new (createStorage : WorkflowRuntime.CreateStorage S) (config : RaftNodeConfig)
    (peers : Peers) : Except StorageError (ManagementNode S) :=
  (createStorage config (RaftNode.singleNodeConfState config)).map
    (RaftNode.newSingleNode config peers {})

/-- The two joining constructors differ in the configuration they start with. -/
def newWithConfState (createStorage : WorkflowRuntime.CreateStorage S) (config : RaftNodeConfig)
    (peers : Peers) (confState : ConfState) : Except StorageError (ManagementNode S) :=
  (createStorage config confState).map (RaftNode.newWithConfState config peers {} confState)

def newJoiningNode (createStorage : WorkflowRuntime.CreateStorage S) (config : RaftNodeConfig)
    (peers : Peers) (initialVoters : List ℕ) : Except StorageError (ManagementNode S) :=
  newWithConfState createStorage config peers { voters := initialVoters }

def newJoiningLearner (createStorage : WorkflowRuntime.CreateStorage S) (config : RaftNodeConfig)
    (peers : Peers) (existingVoters : List ℕ) : Except StorageError (ManagementNode S) :=
  newWithConfState createStorage config peers
    { voters := existingVoters, learners := [config.nodeId] }

end ManagementNode

/-! ## The join paths -/

inductive JoinError where
  | message (text : String)
  | storage (e : StorageError)

/-- The address under which a discovered peer is registered. -/
def TransportType.peerAddress : TransportType → String → String
  | .grpc, address => address
  | .http, address => "http://" ++ address

/-- The configuration that a joining node starts with. -/
def JoinPlan.confState (plan : JoinPlan) : TransportType → ConfState
  | .grpc =>
    if plan.shouldJoinAsVoter then { voters := plan.existingVoters }
    else { voters := plan.existingVoters, learners := [plan.nodeId] }
  | .http => { voters := [plan.nodeId] }

theorem JoinPlan.voters_confState_grpc (plan : JoinPlan) :
    (plan.confState .grpc).voters = plan.existingVoters := by
  rw [JoinPlan.confState, apply_ite ConfState.voters, ite_self]

/-- The management node of `FullNode::new_joining` and of `new_joining_with_http`. -/
def FullNode.joinNode (createStorage : WorkflowRuntime.CreateStorage S) (t : TransportType)
    (storagePath : Option String) (discoveredPeers : List DiscoveredPeer) :
    Except JoinError (ManagementNode S) :=
  match JoinPlan.ofPeers t discoveredPeers with
  | .error e => .error (.message e)
  | .ok plan =>
    let peers := discoveredPeers.foldl
      (fun peers p => TransportLayer.addPeer peers p.nodeId (t.peerAddress p.address))
      (fun _ => none)
    let config : RaftNodeConfig :=
      { nodeId := plan.nodeId, clusterId := 0, snapshotInterval := 100, storagePath }
    let node := match t with
      | .grpc =>
        if plan.shouldJoinAsVoter then
          ManagementNode.newJoiningNode createStorage config peers plan.existingVoters
        else ManagementNode.newJoiningLearner createStorage config peers plan.existingVoters
      | .http => ManagementNode.new createStorage config peers
    node.mapError .storage

namespace FullNode

variable {createStorage : WorkflowRuntime.CreateStorage S} {storagePath : Option String}
  {discoveredPeers : List DiscoveredPeer}

/-- Over new storages the two paths start with the same voters, and a joining node is not one of
them. -/
def JoinsAlike (createStorage : WorkflowRuntime.CreateStorage S) (storagePath : Option String)
    (discoveredPeers : List DiscoveredPeer) : Prop :=
  ∀ http grpc : ManagementNode S,
    joinNode createStorage .http storagePath discoveredPeers = .ok http →
    joinNode createStorage .grpc storagePath discoveredPeers = .ok grpc →
    http.initialVoters = grpc.initialVoters ∧ http.nodeId ∉ http.initialVoters ∧
      grpc.nodeId ∉ grpc.initialVoters

/-- Without a leader among the peers no node is started. -/
theorem ofPeers_of_no_leader (t : TransportType)
    (h : ∀ p ∈ discoveredPeers, p.managementLeaderNodeId = 0) :
    ∃ e, JoinPlan.ofPeers t discoveredPeers = .error e := by
  unfold JoinPlan.ofPeers
  have hnone : discoveredPeers.find? (·.managementLeaderNodeId != 0) = none := by
    rw [List.find?_eq_none]
    intro p hp
    simp [h p hp]
  rw [hnone]
  split_ifs
  · exact ⟨_, rfl⟩
  · exact ⟨_, rfl⟩

theorem ofPeers_of_leader (t : TransportType) {p : DiscoveredPeer} (hp : p ∈ discoveredPeers)
    (hleader : p.managementLeaderNodeId ≠ 0) :
    ∃ plan, JoinPlan.ofPeers t discoveredPeers = .ok plan := by
  unfold JoinPlan.ofPeers
  have hne : discoveredPeers.isEmpty = false := by
    rw [List.isEmpty_eq_false_iff]
    exact List.ne_nil_of_mem hp
  have hsome : (discoveredPeers.find? (·.managementLeaderNodeId != 0)).isSome := by
    rw [List.find?_isSome]
    exact ⟨p, hp, by simpa using hleader⟩
  obtain ⟨leaderPeer, hfind⟩ := Option.isSome_iff_exists.mp hsome
  rw [hne, hfind]
  exact ⟨_, rfl⟩

/-- Both paths make a node of the plan, with the configuration of the path. -/
theorem joinNode_eq (createStorage : WorkflowRuntime.CreateStorage S)
    (storagePath : Option String) {t : TransportType} {plan : JoinPlan}
    (hplan : JoinPlan.ofPeers t discoveredPeers = .ok plan) :
    ∃ peers : Peers, joinNode createStorage t storagePath discoveredPeers = ((createStorage
        { nodeId := plan.nodeId, clusterId := 0, snapshotInterval := 100, storagePath }
        (plan.confState t)).map (RaftNode.newWithConfState
          { nodeId := plan.nodeId, clusterId := 0, snapshotInterval := 100, storagePath }
          peers {} (plan.confState t))).mapError .storage := by
  refine ⟨discoveredPeers.foldl (fun peers p =>
    TransportLayer.addPeer peers p.nodeId (t.peerAddress p.address)) (fun _ => none), ?_⟩
  cases t with
  | grpc =>
    by_cases hvoter : plan.shouldJoinAsVoter = true
    · simp only [joinNode, hplan, JoinPlan.confState, if_pos hvoter]
      rfl
    · simp only [joinNode, hplan, JoinPlan.confState, if_neg hvoter]
      rfl
  | http =>
    simp only [joinNode, hplan]
    rfl

/-- The voters of a node that was started. -/
theorem started_voters {t : TransportType} {plan : JoinPlan} {node : ManagementNode S}
    (hplan : JoinPlan.ofPeers t discoveredPeers = .ok plan)
    (h : joinNode createStorage t storagePath discoveredPeers = .ok node) :
    node.nodeId = plan.nodeId ∧ node.initialVoters = (plan.confState t).voters.toFinset := by
  obtain ⟨peers, heq⟩ := joinNode_eq createStorage storagePath hplan
  rw [heq] at h
  cases hstore : createStorage
      { nodeId := plan.nodeId, clusterId := 0, snapshotInterval := 100, storagePath }
      (plan.confState t) with
  | error e => simp [hstore, Except.map, Except.mapError] at h
  | ok store =>
    simp only [hstore, Except.map, Except.mapError, Except.ok.injEq] at h
    subst h
    exact ⟨rfl, rfl⟩

/-- A node is started if its storage opens. -/
theorem starts (storagePath : Option String)
    (hopen : ∀ config cs, ∃ store, createStorage config cs = .ok store)
    {t : TransportType} {plan : JoinPlan} (hplan : JoinPlan.ofPeers t discoveredPeers = .ok plan) :
    ∃ node, joinNode createStorage t storagePath discoveredPeers = .ok node := by
  obtain ⟨peers, heq⟩ := joinNode_eq createStorage storagePath hplan
  obtain ⟨store, hstore⟩ := hopen
    { nodeId := plan.nodeId, clusterId := 0, snapshotInterval := 100, storagePath }
    (plan.confState t)
  rw [heq, hstore]
  exact ⟨_, rfl⟩

/-- The paths agree only on the lists of which neither starts a node. A node that `main` finds in
its storage does not take them. -/
theorem joinsAlike_iff (createStorage : WorkflowRuntime.CreateStorage S)
    (storagePath : Option String)
    (hopen : ∀ config cs, ∃ store, createStorage config cs = .ok store)
    (discoveredPeers : List DiscoveredPeer) :
    JoinsAlike createStorage storagePath discoveredPeers ↔
      ∀ p ∈ discoveredPeers, p.managementLeaderNodeId = 0 := by
  constructor
  · intro h
    by_contra hleader
    push Not at hleader
    obtain ⟨p, hp, hleader⟩ := hleader
    obtain ⟨plan, hplan⟩ := ofPeers_of_leader .http hp hleader
    obtain ⟨plan', hplan'⟩ := ofPeers_of_leader .grpc hp hleader
    obtain ⟨http, hhttp⟩ := starts storagePath hopen hplan
    obtain ⟨grpc, hgrpc⟩ := starts storagePath hopen hplan'
    -- over HTTP the new node is its own and only voter
    obtain ⟨hid, hvoters⟩ := started_voters hplan hhttp
    refine (h http grpc hhttp hgrpc).2.1 ?_
    rw [hvoters, hid]
    simp [JoinPlan.confState]
  · intro h http grpc hhttp
    obtain ⟨e, he⟩ := ofPeers_of_no_leader .http h
    simp [joinNode, he] at hhttp

/-- Without a leader among the peers both paths refuse. -/
theorem joinsAlike_without_leader :
    JoinsAlike freshStorage none
      [discoverPeer (discover { exampleServer 3 [1, 3] with leaderId := none })] :=
  (joinsAlike_iff freshStorage none freshStorage_opens
    [discoverPeer (discover { exampleServer 3 [1, 3] with leaderId := none })]).mpr (by decide)

/-- What the second node of a cluster discovers. -/
def firstPeer : DiscoveredPeer := discoverPeer (discover (exampleServer 1 [1]))

/-- The second node starts with node 1 as its voter over gRPC, and with itself over HTTP. -/
theorem not_joinsAlike_second_node :
    ∃ http grpc : ManagementNode RocksDBStorage,
      joinNode freshStorage .http none [firstPeer] = .ok http ∧
      joinNode freshStorage .grpc none [firstPeer] = .ok grpc ∧
      http.nodeId = 2 ∧ http.initialVoters = {2} ∧ grpc.initialVoters = {1} ∧
      ¬ JoinsAlike freshStorage none [firstPeer] := by
  obtain ⟨plan, hplan⟩ : ∃ plan, JoinPlan.ofPeers .http [firstPeer] = .ok plan := ⟨_, rfl⟩
  obtain ⟨plan', hplan'⟩ : ∃ plan, JoinPlan.ofPeers .grpc [firstPeer] = .ok plan := ⟨_, rfl⟩
  obtain ⟨http, hhttp⟩ := starts none freshStorage_opens hplan
  obtain ⟨grpc, hgrpc⟩ := starts none freshStorage_opens hplan'
  obtain ⟨hid, hvoters⟩ := started_voters hplan hhttp
  obtain ⟨-, hvoters'⟩ := started_voters hplan' hgrpc
  have hplan2 : plan.nodeId = 2 := by
    cases hplan
    decide
  have hexisting : plan'.existingVoters = [1] := by
    cases hplan'
    decide
  have hhttp2 : http.initialVoters = {2} := by
    simp [hvoters, JoinPlan.confState, hplan2]
  have hid2 : http.nodeId = 2 := hid.trans hplan2
  have hgrpc1 : grpc.initialVoters = {1} := by
    rw [hvoters', plan'.voters_confState_grpc, hexisting]
    rfl
  refine ⟨http, grpc, hhttp, hgrpc, hid2, hhttp2, hgrpc1, ?_⟩
  intro h
  have hnot := (h http grpc hhttp hgrpc).2.1
  rw [hid2, hhttp2] at hnot
  exact hnot (Finset.mem_singleton_self 2)

end FullNode

/-! ## Who becomes a voter -/

inductive VoterSelectionStrategy where
  | firstJoin
  | manual (voterIds : List ℕ)
deriving DecidableEq, Repr

structure ManagementClusterConfig where
  maxVoters : ℕ := 5
  voterSelection : VoterSelectionStrategy := .firstJoin
deriving DecidableEq, Repr

def ManagementClusterConfig.shouldJoinAsVoter (config : ManagementClusterConfig)
    (nodeId currentVoterCount : ℕ) : Bool :=
  match config.voterSelection with
  | .firstJoin => decide (currentVoterCount < config.maxVoters)
  | .manual voterIds => voterIds.contains nodeId && decide (currentVoterCount < config.maxVoters)

/-- The discovery handlers answer as the default configuration would. -/
theorem shouldJoinAsVoter_eq_default (server : DiscoveryServer) (t : TransportType) (nodeId : ℕ) :
    (t.discover server).shouldJoinAsVoter = ManagementClusterConfig.shouldJoinAsVoter {} nodeId
      server.managementVoters.length := by
  cases t <;> rfl

section
variable [SerdeJson NodeMetadata]

/-- The change `RaftNode::add_node` proposes. -/
def RaftNode.addNodeChange (syncId nodeId : ℕ) (address : String) : ConfChange where
  changeType := .addNode
  nodeId := nodeId
  context := U64.toLeBytes syncId ++ SerdeJson.toVec ({ address } : NodeMetadata)

theorem RaftNode.addNode_proposes {σ Event : Type} (answers : RaftAnswers) (syncId nodeId : ℕ)
    (address : String) (n : RaftNode σ Event S) :
    (n.addNode answers syncId nodeId address).1 = callResult "propose conf change"
      (answers.proposeConfChange (addNodeChange syncId nodeId address)) := by
  cases h : answers.proposeConfChange (addNodeChange syncId nodeId address) with
  | ok _ =>
    unfold addNodeChange at h
    simp only [RaftNode.addNode, h]
    rfl
  | error e =>
    unfold addNodeChange at h
    simp only [RaftNode.addNode, h]

/-- The joins of a cluster: the nodes that have discovered it and started, and the configuration
changes that are committed. -/
structure JoinHistory where
  bootstrap : ℕ
  plans : List JoinPlan := []
  changes : List ConfChange := []

inductive JoinAction where
  /-- A new node asks its seeds, which answer from the configuration they have, and starts. -/
  | discover (t : TransportType) (seeds : List (Option DiscoveryServer))
  /-- The leader's `add_node` for a started node is committed. -/
  | commit (join syncId : ℕ) (address : String)

namespace JoinHistory

def step (s : JoinHistory) : JoinAction → Option JoinHistory
  | .discover t seeds =>
    match newJoining t seeds with
    | .ok plan => some { s with plans := s.plans ++ [plan] }
    | .error _ => none
  | .commit join syncId address =>
    match s.plans[join]? with
    | some plan =>
      some { s with changes := s.changes ++ [RaftNode.addNodeChange syncId plan.nodeId address] }
    | none => none

/-- The configuration of a node that has applied `i` of the changes, by raft-rs. -/
def configuration (applyConfChange : ConfState → ConfChange → ConfState) (s : JoinHistory)
    (i : ℕ) : ConfState :=
  (s.changes.take i).foldl applyConfChange { voters := [s.bootstrap] }

/-- What raft-rs documents of `AddNode`: the node becomes a voter. No voter is listed twice. -/
structure AddsVoters (applyConfChange : ConfState → ConfChange → ConfState) : Prop where
  mem_voters : ∀ cs cc n, cc.changeType = .addNode →
    (n ∈ (applyConfChange cs cc).voters ↔ n = cc.nodeId ∨ n ∈ cs.voters)
  nodup : ∀ cs cc, cs.voters.Nodup → (applyConfChange cs cc).voters.Nodup

/-- The leader's configuration never had more voters than the limit. -/
def VotersBounded (applyConfChange : ConfState → ConfChange → ConfState) (s : JoinHistory) : Prop :=
  ∀ i ≤ s.changes.length, (s.configuration applyConfChange i).voters.length ≤
    ({} : ManagementClusterConfig).maxVoters

/-- The nodes that were added, without the bootstrap node. -/
def others (s : JoinHistory) : Finset ℕ := (s.changes.map (·.nodeId)).toFinset.erase s.bootstrap

omit [SerdeJson NodeMetadata] in
/-- The voters after some changes are the bootstrap node and the nodes they add. -/
theorem mem_voters_foldl {applyConfChange : ConfState → ConfChange → ConfState}
    (hraft : AddsVoters applyConfChange) {changes : List ConfChange} (cs : ConfState)
    (hadd : ∀ cc ∈ changes, cc.changeType = .addNode) (hnodup : cs.voters.Nodup) :
    (changes.foldl applyConfChange cs).voters.Nodup ∧
      (changes.foldl applyConfChange cs).voters.toFinset =
        cs.voters.toFinset ∪ (changes.map (·.nodeId)).toFinset := by
  induction changes generalizing cs with
  | nil => exact ⟨hnodup, by simp⟩
  | cons cc changes ih =>
    obtain ⟨hn, hmem⟩ := ih (applyConfChange cs cc)
      (fun c hc => hadd c (List.mem_cons_of_mem cc hc)) (hraft.nodup cs cc hnodup)
    refine ⟨hn, ?_⟩
    rw [List.foldl_cons, hmem]
    ext n
    simp only [Finset.mem_union, List.mem_toFinset, List.map_cons, List.mem_cons,
      hraft.mem_voters cs cc n (hadd cc List.mem_cons_self)]
    tauto

omit [SerdeJson NodeMetadata] in
theorem length_voters {applyConfChange : ConfState → ConfChange → ConfState}
    (hraft : AddsVoters applyConfChange) {s : JoinHistory}
    (hadd : ∀ cc ∈ s.changes, cc.changeType = .addNode) (i : ℕ) :
    (s.configuration applyConfChange i).voters.length =
      (insert s.bootstrap ((s.changes.take i).map (·.nodeId)).toFinset).card := by
  have htake : ∀ cc ∈ s.changes.take i, cc.changeType = .addNode :=
    fun cc hcc => hadd cc (List.mem_of_mem_take hcc)
  obtain ⟨hnodup, hmem⟩ := mem_voters_foldl hraft { voters := [s.bootstrap] } htake (by simp)
  rw [configuration, ← List.toFinset_card_of_nodup hnodup, hmem]
  rfl

/-- Only nodes that started are added, and as voters. -/
theorem addNode_of_run {bootstrap : ℕ} {actions : List JoinAction} {s : JoinHistory}
    (hrun : Transition.run step { bootstrap } actions = some s) :
    s.bootstrap = bootstrap ∧ ∀ cc ∈ s.changes, cc.changeType = .addNode := by
  refine Transition.run_induction
    (I := fun s => s.bootstrap = bootstrap ∧ ∀ cc ∈ s.changes, cc.changeType = .addNode) ?_
    ⟨rfl, by simp⟩ Transition.along_true hrun
  rintro s a s' ⟨hb, hadd⟩ - hstep
  cases a with
  | discover t seeds =>
    simp only [step] at hstep
    cases hplan : newJoining t seeds with
    | error e => simp [hplan] at hstep
    | ok plan =>
      simp only [hplan, Option.some.injEq] at hstep
      exact hstep ▸ ⟨hb, hadd⟩
  | commit join syncId address =>
    simp only [step] at hstep
    cases hplan : s.plans[join]? with
    | none => simp [hplan] at hstep
    | some plan =>
      simp only [hplan, Option.some.injEq] at hstep
      subst hstep
      refine ⟨hb, fun cc hcc => ?_⟩
      rcases List.mem_append.mp hcc with hcc | hcc
      · exact hadd cc hcc
      · rw [List.mem_singleton] at hcc
        rw [hcc]
        rfl

/-- In every run of joins, overlapping or not, the voters stay within the limit exactly if at
most four nodes are added to the bootstrap node. -/
theorem votersBounded_iff (applyConfChange : ConfState → ConfChange → ConfState)
    (hraft : AddsVoters applyConfChange) (bootstrap : ℕ) (actions : List JoinAction)
    (s : JoinHistory) (hrun : Transition.run step { bootstrap } actions = some s) :
    s.VotersBounded applyConfChange ↔ s.others.card ≤ 4 := by
  obtain ⟨-, hadd⟩ := addNode_of_run hrun
  have hlength := length_voters hraft hadd
  have hcard : (insert s.bootstrap (s.changes.map (·.nodeId)).toFinset).card = s.others.card + 1 :=
    (Finset.card_erase_add_one (Finset.mem_insert_self _ _)).symm.trans (by
      rw [Finset.erase_insert_eq_erase]
      rfl)
  constructor
  · intro h
    have hlast := h s.changes.length le_rfl
    rw [hlength, List.take_length, hcard] at hlast
    exact Nat.le_of_succ_le_succ hlast
  · intro h i _
    rw [hlength]
    refine le_trans (Finset.card_le_card (Finset.insert_subset_insert _ ?_))
      (hcard.le.trans (Nat.succ_le_succ h))
    intro n hn
    rw [List.mem_toFinset] at hn ⊢
    exact (List.take_sublist i s.changes).map (·.nodeId) |>.subset hn

end JoinHistory

end

namespace JoinHistory

/-- The changes of raft-rs to the voters and learners. -/
def raftConfChange (cs : ConfState) (cc : ConfChange) : ConfState :=
  match cc.changeType with
  | .addNode =>
    if cs.voters.contains cc.nodeId then cs
    else { voters := cs.voters ++ [cc.nodeId], learners := cs.learners.filter (· != cc.nodeId) }
  | .addLearnerNode =>
    if cs.learners.contains cc.nodeId then cs
    else { voters := cs.voters.filter (· != cc.nodeId), learners := cs.learners ++ [cc.nodeId] }
  | .removeNode =>
    { voters := cs.voters.filter (· != cc.nodeId), learners := cs.learners.filter (· != cc.nodeId) }

theorem addsVoters_raftConfChange : AddsVoters raftConfChange := by
  refine ⟨fun cs cc n hadd => ?_, fun cs cc hnodup => ?_⟩
  · simp only [raftConfChange, hadd]
    split_ifs with hmem
    · have hmem := List.contains_iff_mem.mp hmem
      constructor
      · exact Or.inr
      · rintro (rfl | h)
        · exact hmem
        · exact h
    · rw [List.mem_append, List.mem_singleton, or_comm]
  · unfold raftConfChange
    cases cc.changeType with
    | addNode =>
      dsimp only
      split_ifs with hmem
      · exact hnodup
      · rw [List.contains_iff_mem] at hmem
        exact List.nodup_append.mpr ⟨hnodup, by simp, by
          intro a ha b hb
          rw [List.mem_singleton] at hb
          exact fun h => hmem (hb ▸ h ▸ ha)⟩
    | addLearnerNode =>
      dsimp only
      split_ifs
      · exact hnodup
      · exact hnodup.filter _
    | removeNode => exact hnodup.filter _

/-- Whether the servers asked in a step answer from a configuration the cluster had. -/
def answersTruly (s : JoinHistory) : JoinAction → Bool
  | .discover _ seeds => seeds.reduceOption.all fun server =>
      (List.range (s.changes.length + 1)).any fun i =>
        server.managementVoters == (s.configuration raftConfChange i).voters
  | .commit _ _ _ => true

section
open scoped Codec

/-- Nodes join one after the other, each through the node before it. -/
def chain (n : ℕ) : List JoinAction :=
  (List.range n).flatMap fun k =>
    [.discover .grpc [some (exampleServer (k + 1) ((List.range (k + 1)).map (· + 1)))],
      .commit k k "127.0.0.1:5002"]

/-- Four joins are within the limit. -/
theorem votersBounded_four_joins : ∃ s, Transition.run step { bootstrap := 1 } (chain 4) = some s ∧
    s.VotersBounded raftConfChange :=
  ⟨_, rfl, (votersBounded_iff raftConfChange addsVoters_raftConfChange 1 (chain 4) _ rfl).mpr
    (by decide)⟩

/-- The fifth one is told to join as a learner, and becomes the sixth voter. -/
theorem not_votersBounded_five_joins :
    ∃ s, Transition.run step { bootstrap := 1 } (chain 5) = some s ∧
      Transition.Along step (fun s a => s.answersTruly a = true) { bootstrap := 1 } (chain 5) ∧
      s.plans.map (·.shouldJoinAsVoter) = [true, true, true, true, false] ∧
      (s.configuration raftConfChange 5).voters = [1, 2, 3, 4, 5, 6] ∧
      ¬ s.VotersBounded raftConfChange := by
  refine ⟨_, rfl, by decide, by decide, by decide, ?_⟩
  intro h
  exact absurd (h 5 (by decide)) (by decide)

end

end JoinHistory

end Raftoral

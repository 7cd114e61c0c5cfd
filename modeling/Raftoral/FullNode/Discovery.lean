import Raftoral.Lib.Run
import Raftoral.Lib.Word

/-!
# Discovery and the IDs of joining nodes

A node joins a cluster by asking its seeds who they are (`grpc/server.rs` or
`http/server.rs`), and picks its own ID from the answers (`bootstrap.rs`,
`full_node/mod.rs`). A server reports its own ID as the highest one it knows.

A history of a cluster is the list of its joins. The IDs handed out are the successors of
IDs in use, so as long as they are fresh the members form one cyclic run of words
(`cyclicRun`), and the only successor that is fresh is that of the member that joined last:
the members stay distinct exactly if every join reaches that member and takes it for the
highest.
-/

namespace Raftoral

/-- The transport a cluster runs on. -/
inductive TransportType where
  | grpc
  | http
deriving DecidableEq, Repr

/-- What a server's discovery handler reads: its identity and the answers of its
management runtime and transport. -/
structure DiscoveryServer where
  nodeId : ℕ
  nodeAddress : String
  isLeader : Bool
  leaderId : Option ℕ
  getPeerAddress : ℕ → Option String
  managementVoters : List ℕ

structure DiscoveryResponse where
  nodeId : ℕ
  highestKnownNodeId : ℕ
  address : String
  managementLeaderNodeId : ℕ
  managementLeaderAddress : String
  shouldJoinAsVoter : Bool
  currentVoterCount : ℕ
  maxVoters : ℕ
deriving DecidableEq, Repr

/-- The leader as a server sees it; the two transports differ in how they clean the
address of a peer. -/
def DiscoveryServer.leader (server : DiscoveryServer) (cleanAddr : String → String) : ℕ × String :=
  if server.isLeader then (server.nodeId, server.nodeAddress)
  else match server.leaderId with
    | some lid => (lid, cleanAddr ((server.getPeerAddress lid).getD ""))
    | none => (0, "")

/-- The answer both handlers build. -/
def DiscoveryServer.respond (server : DiscoveryServer) (cleanAddr : String → String) :
    DiscoveryResponse :=
  let currentVoterCount := server.managementVoters.length
  let maxVoters := 5
  { nodeId := server.nodeId
    highestKnownNodeId := server.nodeId
    address := server.nodeAddress
    managementLeaderNodeId := (server.leader cleanAddr).1
    managementLeaderAddress := (server.leader cleanAddr).2
    shouldJoinAsVoter := decide (currentVoterCount < maxVoters)
    currentVoterCount
    maxVoters }

/-- `GrpcServer::discover`. -/
def discover (server : DiscoveryServer) : DiscoveryResponse := server.respond id

/-- `handle_get_peers`: the HTTP transport stores full URLs, whose scheme is stripped. -/
def handleGetPeers (server : DiscoveryServer) : DiscoveryResponse :=
  server.respond fun addr => ((addr.dropPrefix? "http://").map (·.toString)).getD addr

/-- The handler a transport queries. -/
def TransportType.discover : TransportType → DiscoveryServer → DiscoveryResponse
  | .grpc, server => Raftoral.discover server
  | .http, server => handleGetPeers server

structure DiscoveredPeer where
  nodeId : ℕ
  address : String
  highestKnownNodeId : ℕ
  managementLeaderNodeId : ℕ
  managementLeaderAddress : String
  shouldJoinAsVoter : Bool
  currentVoterCount : ℕ
  maxVoters : ℕ
deriving DecidableEq, Repr

def discoverPeer (r : DiscoveryResponse) : DiscoveredPeer where
  nodeId := r.nodeId
  address := r.address
  highestKnownNodeId := r.highestKnownNodeId
  managementLeaderNodeId := r.managementLeaderNodeId
  managementLeaderAddress := r.managementLeaderAddress
  shouldJoinAsVoter := r.shouldJoinAsVoter
  currentVoterCount := r.currentVoterCount
  maxVoters := r.maxVoters

/-- Query the seeds in order; the ones that cannot be reached are left out. -/
def discoverPeers (t : TransportType) (seeds : List (Option DiscoveryServer)) :
    List DiscoveredPeer :=
  seeds.reduceOption.map fun server => discoverPeer (t.discover server)

def nextNodeId (discoveredPeers : List DiscoveredPeer) : ℕ :=
  ((discoveredPeers.map (·.highestKnownNodeId)).max?.map (U64.add · 1)).getD 1

/-- What a joining node settles from the answers before it starts its runtime. -/
structure JoinPlan where
  nodeId : ℕ
  leaderPeer : DiscoveredPeer
  shouldJoinAsVoter : Bool
  existingVoters : List ℕ
deriving DecidableEq, Repr

/-- What a joining node settles from a list of discovered peers. -/
def JoinPlan.ofPeers (t : TransportType) (discoveredPeers : List DiscoveredPeer) :
    Except String JoinPlan :=
  if discoveredPeers.isEmpty then
    .error (match t with
      | .grpc => "Failed to discover any peers"
      | .http => "Failed to discover any peers via HTTP")
  else match discoveredPeers.find? (·.managementLeaderNodeId != 0) with
    | none => .error "No management leader found in discovered peers"
    | some leaderPeer =>
      .ok { nodeId := nextNodeId discoveredPeers
            leaderPeer
            shouldJoinAsVoter := (discoveredPeers.head?.map (·.shouldJoinAsVoter)).getD true
            existingVoters := discoveredPeers.map (·.nodeId) }

/-- `FullNode::new_joining` and `new_joining_with_http`, up to the start of the runtime. -/
def newJoining (t : TransportType) (seeds : List (Option DiscoveryServer)) :
    Except String JoinPlan :=
  JoinPlan.ofPeers t (discoverPeers t seeds)

theorem nodeId_of_ofPeers {t : TransportType} {discoveredPeers : List DiscoveredPeer}
    {plan : JoinPlan} (h : JoinPlan.ofPeers t discoveredPeers = .ok plan) :
    discoveredPeers ≠ [] ∧ plan.nodeId = nextNodeId discoveredPeers := by
  unfold JoinPlan.ofPeers at h
  split at h
  · simp at h
  next hne =>
    refine ⟨fun hnil => hne (by rw [hnil]; rfl), ?_⟩
    split at h
    · simp at h
    · rw [← Except.ok.inj h]

/-! ## Histories of a cluster -/

/-- One join: the seeds a new node asks, each in the state it is asked in. -/
structure Join where
  transport : TransportType
  seeds : List (Option DiscoveryServer)

/-- The IDs of the nodes that answer. -/
def Join.queried (j : Join) : List ℕ := j.seeds.reduceOption.map (·.nodeId)

/-- The members of a cluster, the latest first, after a new node joined through members. -/
def Join.step (members : List ℕ) (j : Join) : Option (List ℕ) :=
  if ∀ i ∈ j.queried, i ∈ members then
    match newJoining j.transport j.seeds with
    | .ok plan => some (plan.nodeId :: members)
    | .error _ => none
  else none

/-- The member that joined last answers and is the highest of those that do, and there is
an ID left. -/
def Join.ReachesLatest (members : List ℕ) (j : Join) : Prop :=
  j.queried.max? = members.head? ∧ members.length < U64.size

instance (members : List ℕ) (j : Join) : Decidable (j.ReachesLatest members) :=
  inferInstanceAs (Decidable (_ ∧ _))

/-- Every server names itself as the highest node it knows. -/
theorem highest_of_discoverPeers (t : TransportType) (seeds : List (Option DiscoveryServer)) :
    (discoverPeers t seeds).map (·.highestKnownNodeId) = seeds.reduceOption.map (·.nodeId) := by
  unfold discoverPeers
  rw [List.map_map]
  refine List.map_congr_left ?_
  intro server _
  cases t <;> rfl

/-- A joining node takes the successor of the highest ID it queried. -/
theorem Join.step_eq_some {members members' : List ℕ} {j : Join}
    (h : j.step members = some members') :
    ∃ m ∈ members, j.queried.max? = some m ∧ members' = U64.add m 1 :: members := by
  unfold Join.step at h
  split at h
  · rename_i hmem
    cases hjoin : newJoining j.transport j.seeds with
    | error e => simp [hjoin] at h
    | ok plan =>
      simp only [hjoin, Option.some.injEq] at h
      -- a joining node that finds no peer does not start
      obtain ⟨hne, hid⟩ := nodeId_of_ofPeers hjoin
      have hq : (discoverPeers j.transport j.seeds).map (·.highestKnownNodeId) = j.queried :=
        highest_of_discoverPeers j.transport j.seeds
      obtain ⟨m, hm⟩ : ∃ m, j.queried.max? = some m := by
        rw [← Option.ne_none_iff_exists', ne_eq, List.max?_eq_none_iff, ← hq, List.map_eq_nil_iff]
        exact hne
      refine ⟨m, hmem m (List.max?_mem hm), hm, ?_⟩
      rw [← h, hid, nextNodeId, hq, hm]
      rfl
  · exact absurd h (by simp)

/-! ## Cyclic runs -/

/-- The `k + 1` words from `b` on, the last first, wrapping around at the word size. -/
def cyclicRun (b : ℕ) : ℕ → List ℕ
  | 0 => [b % U64.size]
  | k + 1 => (b + (k + 1)) % U64.size :: cyclicRun b k

theorem length_cyclicRun (b k : ℕ) : (cyclicRun b k).length = k + 1 := by
  induction k with
  | zero => rfl
  | succ k ih => rw [cyclicRun, List.length_cons, ih]

theorem head?_cyclicRun (b k : ℕ) : (cyclicRun b k).head? = some ((b + k) % U64.size) := by
  cases k <;> rfl

theorem mem_cyclicRun {b k x : ℕ} : x ∈ cyclicRun b k ↔ ∃ i ≤ k, x = (b + i) % U64.size := by
  induction k with
  | zero => simp [cyclicRun]
  | succ k ih =>
    rw [cyclicRun, List.mem_cons, ih]
    constructor
    · intro h
      rcases h with h | ⟨i, hi, h⟩
      · exact ⟨k + 1, le_rfl, h⟩
      · exact ⟨i, by omega, h⟩
    · intro h
      obtain ⟨i, hi, h⟩ := h
      by_cases hk : i = k + 1
      · exact Or.inl (hk ▸ h)
      · exact Or.inr ⟨i, by omega, h⟩

theorem add_mod_one (a : ℕ) : U64.add (a % U64.size) 1 = (a + 1) % U64.size := by
  unfold U64.add
  rw [Nat.mod_add_mod]

/-- A run shorter than a full turn repeats no word. -/
theorem nodup_cyclicRun {b k : ℕ} (h : k < U64.size) : (cyclicRun b k).Nodup := by
  induction k with
  | zero => simp [cyclicRun]
  | succ k ih =>
    rw [cyclicRun, List.nodup_cons]
    refine ⟨?_, ih (by omega)⟩
    intro hmem
    obtain ⟨i, hi, heq⟩ := mem_cyclicRun.mp hmem
    -- two indices less than a turn apart cannot meet
    have hmod : (k + 1) ≡ i [MOD U64.size] := Nat.ModEq.add_left_cancel' b heq
    rw [Nat.ModEq, Nat.mod_eq_of_lt h, Nat.mod_eq_of_lt (by omega)] at hmod
    omega

/-! ## Uniqueness -/

/-- Members are only added. -/
theorem suffix_of_run {members members' : List ℕ} {js : List Join}
    (h : Transition.run Join.step members js = some members') : members <:+ members' := by
  refine Transition.run_induction (I := fun s => members <:+ s) ?_ List.suffix_rfl
    Transition.along_true h
  intro s j s' hsuffix _ hs
  obtain ⟨m, -, -, rfl⟩ := Join.step_eq_some hs
  exact hsuffix.trans (List.suffix_cons _ _)

/-- One join from a cyclic run: reaching the latest member makes the run longer, and any
other choice hands out an ID in use. -/
theorem step_cyclicRun {b k : ℕ} {s : List ℕ} {j : Join} (hk : k < U64.size)
    (h : j.step (cyclicRun b k) = some s) :
    (j.ReachesLatest (cyclicRun b k) → k + 1 < U64.size ∧ s = cyclicRun b (k + 1)) ∧
      (¬ j.ReachesLatest (cyclicRun b k) → ¬ s.Nodup) := by
  obtain ⟨m, hmem, hmax, rfl⟩ := Join.step_eq_some h
  constructor
  · intro hlatest
    obtain ⟨hhead, hlen⟩ := hlatest
    rw [hmax, head?_cyclicRun, Option.some.injEq] at hhead
    rw [length_cyclicRun] at hlen
    refine ⟨hlen, ?_⟩
    rw [hhead, add_mod_one, cyclicRun, add_assoc]
  · intro hnot hnodup
    have hfresh := (List.nodup_cons.mp hnodup).1
    obtain ⟨i, hi, rfl⟩ := mem_cyclicRun.mp hmem
    rw [add_mod_one] at hfresh
    apply hfresh
    by_cases hik : i = k
    · -- a full turn: the successor of the latest member is the first one
      have hfull : k + 1 = U64.size := by
        by_contra hne
        refine hnot ⟨?_, ?_⟩
        · rw [hmax, head?_cyclicRun, hik]
        · rw [length_cyclicRun]
          omega
      refine mem_cyclicRun.mpr ⟨0, by omega, ?_⟩
      rw [hik, add_assoc, hfull, Nat.add_mod_right, Nat.add_zero]
    · exact mem_cyclicRun.mpr ⟨i + 1, by omega, by rw [add_assoc]⟩

theorem nodup_iff_of_cyclicRun {b k : ℕ} {members : List ℕ} {js : List Join} (hk : k < U64.size)
    (h : Transition.run Join.step (cyclicRun b k) js = some members) :
    members.Nodup ↔ Transition.Along Join.step (fun s j => j.ReachesLatest s) (cyclicRun b k) js := by
  induction js generalizing k with
  | nil =>
    rw [Transition.run_nil, Option.some.injEq] at h
    subst h
    simp [nodup_cyclicRun hk]
  -- as long as every join reaches the latest member, the run stays cyclic
  | cons j js ih =>
    obtain ⟨s, hs, hrest⟩ := Transition.run_cons.mp h
    obtain ⟨hlatest, hother⟩ := step_cyclicRun hk hs
    rw [Transition.along_cons_of_some hs]
    by_cases hreach : j.ReachesLatest (cyclicRun b k)
    · obtain ⟨hk', rfl⟩ := hlatest hreach
      rw [ih hk' hrest]
      simp [hreach]
    · constructor
      · intro hnodup
        -- members are never removed, so an ID in use twice stays so
        exact absurd (hnodup.sublist (suffix_of_run hrest).sublist) (hother hreach)
      · intro halong
        exact absurd halong.1 hreach

/-- In every history of a cluster the IDs are distinct exactly if every join reaches the
node that joined before it, and no node it reaches has a higher ID. -/
theorem node_ids_unique_iff (bootstrap : ℕ) (hb : bootstrap < U64.size) (js : List Join)
    (members : List ℕ) (hrun : Transition.run Join.step [bootstrap] js = some members) :
    members.Nodup ↔
      Transition.Along Join.step (fun s j => j.ReachesLatest s) [bootstrap] js := by
  have hstart : [bootstrap] = cyclicRun bootstrap 0 := by
    rw [cyclicRun, Nat.mod_eq_of_lt hb]
  rw [hstart] at hrun ⊢
  exact nodup_iff_of_cyclicRun (by decide) hrun

/-- A server of the three-node history below. -/
def exampleServer (nodeId : ℕ) (voters : List ℕ) : DiscoveryServer where
  nodeId
  nodeAddress := "127.0.0.1:5001"
  isLeader := nodeId == 1
  leaderId := some 1
  getPeerAddress := fun _ => some "127.0.0.1:5001"
  managementVoters := voters

/-- Two nodes that join one after the other, each through the node before it. -/
theorem node_ids_unique_chain :
    Transition.run Join.step [1]
      [⟨.grpc, [some (exampleServer 1 [1])]⟩,
        ⟨.grpc, [some (exampleServer 2 [1, 2]), none]⟩] = some [3, 2, 1] ∧
      [3, 2, 1].Nodup := by
  refine ⟨by decide, ?_⟩
  exact (node_ids_unique_iff 1 (by decide) [⟨.grpc, [some (exampleServer 1 [1])]⟩,
    ⟨.grpc, [some (exampleServer 2 [1, 2]), none]⟩] [3, 2, 1] (by decide)).mpr (by decide)

/-- Two nodes that join through the bootstrap node get the same ID. -/
theorem node_ids_collide :
    Transition.run Join.step [1]
      [⟨.grpc, [some (exampleServer 1 [1])]⟩,
        ⟨.grpc, [some (exampleServer 1 [1, 2])]⟩] = some [2, 2, 1] ∧
      ¬ [2, 2, 1].Nodup := by
  decide

end Raftoral

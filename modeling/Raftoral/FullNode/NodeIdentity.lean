import Raftoral.FullNode.Joining
import Raftoral.Raft.StoragePath

/-!
# The node of a data directory

Every cluster of a node has a storage of its own in the data directory. `main` looks for the id of
the node in the storage of the management cluster and resumes with it; if it finds none, the node
takes the id it is given, or the next one that its peers know of.

Once a process has opened the storage of the management cluster with an id, the directory keeps it:
whatever is given or discovered later, and wherever the writes of the storages fail, a process opens
the storage with that id or not at all, and no storage of the directory is refused to it. What a
process does once its storage is open, from the campaign on, are calls of the storage, and a start
that fails there ends the process.
-/

namespace Raftoral

open Transition

/-! ## The id of a start -/

/-- The arguments of `main`, less the addresses and the path. -/
structure Args where
  nodeId : Option ℕ := none
  peers : List String := []
  bootstrap : Bool := false
  transport : String := "grpc"
deriving DecidableEq, Repr

def TransportType.ofArg (transport : String) : Except String TransportType :=
  if transport = "grpc" then .ok .grpc
  else if transport = "http" then .ok .http
  else .error s!"Invalid transport protocol: {transport}. Must be 'grpc' or 'http'"

/-- The database that cannot be opened or read is taken for one without an id. -/
def RocksDBStorage.loadNodeIdFromPath (readable : Bool) (db : Db) :
    Except StorageError (Option ℕ) :=
  if readable then RocksDBStorage.loadNodeId db else .ok none

/-- The id that `main` constructs a node with, and the configuration of its storage. -/
def chooseNode (args : Args) (stored : Option ℕ) (discoveredPeers : List DiscoveredPeer) :
    Except String (ℕ × ConfState) :=
  match TransportType.ofArg args.transport, stored with
  | .error e, _ => .error e
  | .ok .http, some _ =>
    .error ("HTTP transport with resume is not yet implemented. " ++
      "Use --transport grpc or start without existing storage.")
  | .ok .grpc, some nodeId => .ok (nodeId, { voters := [nodeId] })
  | .ok transport, none =>
    if args.bootstrap then .ok (args.nodeId.getD 1, { voters := [args.nodeId.getD 1] })
    else if args.peers.isEmpty then .error "--peers is required when not in bootstrap mode"
    else match JoinPlan.ofPeers transport discoveredPeers with
      | .error e => .error e
      | .ok plan => .ok (plan.nodeId, plan.confState transport)

/-! ## The data directory -/

def StoragePath.isOpen : StoragePath → Bool
  | .closed _ => false
  | .opened _ => true

/-- The storages of the clusters, and the id with which the process has opened its storage. -/
structure DataDir where
  clusters : ℕ → StoragePath := fun _ => .closed {}
  openedAs : Option ℕ := none

inductive DataDirOp where
  /-- A process opens the storage of the management cluster; it may or may not be able to read it
  before. -/
  | start (args : Args) (readable : Bool) (discoveredPeers : List DiscoveredPeer) (w : Faults)
  /-- The node creates the storage of a cluster. -/
  | openCluster (clusterId : ℕ) (w : Faults) (confState : ConfState)
  | call (clusterId : ℕ) (op : StorageOp) (w : Faults)
  | closeCluster (clusterId : ℕ)
  /-- The process ends. -/
  | stop

namespace DataDir

/-- The id that a process finds; an error is taken for none. -/
def storedNodeId (d : DataDir) (readable : Bool) : Option ℕ :=
  ((RocksDBStorage.loadNodeIdFromPath readable (d.clusters 0).db).toOption).join

section
variable [ProstMessage Entry] [ProstMessage HardState] [ProstMessage ConfState]
  [ProstMessage Snapshot]

def step (d : DataDir) : DataDirOp → Option DataDir
  | .start args readable discoveredPeers w =>
    if d.openedAs.isSome then none
    else match chooseNode args (d.storedNodeId readable) discoveredPeers with
      | .error _ => some d
      | .ok (nodeId, confState) =>
        ((d.clusters 0).step nodeId (.openOrCreate w confState)).map fun p =>
          { clusters := Function.update d.clusters 0 p
            openedAs := if p.isOpen then some nodeId else none }
  | .openCluster c w confState =>
    match d.openedAs with
    | none => none
    | some nodeId =>
      -- the lock of an open database
      if (d.clusters c).isOpen then none
      else ((d.clusters c).step nodeId (.openOrCreate w confState)).map fun p =>
        { d with clusters := Function.update d.clusters c p }
  | .call c op w =>
    match d.openedAs with
    | none => none
    | some nodeId => ((d.clusters c).step nodeId (.call op w)).map fun p =>
      { d with clusters := Function.update d.clusters c p }
  | .closeCluster c =>
    some { d with clusters := Function.update d.clusters c (.closed (d.clusters c).db) }
  | .stop => some { clusters := fun c => .closed (d.clusters c).db, openedAs := none }

end

/-- The ids are words, and so are the indices of the calls. -/
def InRange : DataDirOp → Prop
  | .start args _ _ _ => ∀ nodeId ∈ args.nodeId, nodeId < U64.size
  | .call _ op _ => op.IndicesBelow (U64.size - 1)
  | _ => True

def marked (d : DataDir) (c : ℕ) : Prop := ((d.clusters c).db.metadata .hardState).isSome

section
variable [ProstMessage Entry]

/-- All that is stored in the directory is of one node, and the management cluster comes first. -/
structure Belongs (nodeId : ℕ) (d : DataDir) : Prop where
  bound : nodeId < U64.size
  valid : ∀ c, (d.clusters c).Valid nodeId
  openedAs : ∀ n, d.openedAs = some n → n = nodeId ∧ d.marked 0
  opened : ∀ c, (d.clusters c).isOpen → d.openedAs = some nodeId
  first : ∀ c, d.marked c → d.marked 0

end

/-! ## The id is a word -/

theorem storedNodeId_lt {d : DataDir} {readable : Bool} {nodeId : ℕ}
    (h : d.storedNodeId readable = some nodeId) : nodeId < U64.size := by
  unfold storedNodeId RocksDBStorage.loadNodeIdFromPath at h
  cases readable with
  | false => simp [Except.toOption] at h
  | true =>
    simp only [if_true, RocksDBStorage.loadNodeId] at h
    cases hbytes : (d.clusters 0).db.metadata .nodeId with
    | none => simp [hbytes, Except.toOption] at h
    | some bytes =>
      by_cases hlength : bytes.length = 8
      · simp only [hbytes, hlength, if_true, Except.toOption, Option.join_some] at h
        obtain rfl := Option.some.inj h
        have hlt := U64.fromBeBytes_lt bytes
        rw [hlength] at hlt
        exact hlt
      · simp [hbytes, hlength, Except.toOption] at h

theorem nextNodeId_lt (discoveredPeers : List DiscoveredPeer) :
    nextNodeId discoveredPeers < U64.size := by
  unfold nextNodeId
  cases (discoveredPeers.map (·.highestKnownNodeId)).max? with
  | none => decide
  | some highest => exact Nat.mod_lt _ (by decide)

theorem chooseNode_lt {args : Args} {stored : Option ℕ} {discoveredPeers : List DiscoveredPeer}
    {nodeId : ℕ} {confState : ConfState} (hargs : ∀ n ∈ args.nodeId, n < U64.size)
    (hstored : ∀ n, stored = some n → n < U64.size)
    (h : chooseNode args stored discoveredPeers = .ok (nodeId, confState)) :
    nodeId < U64.size := by
  unfold chooseNode at h
  split at h
  · cases h
  · cases h
  · cases h
    exact hstored _ rfl
  · next transport htransport =>
    split at h
    · cases h
      cases hid : args.nodeId with
      | none => decide
      | some n => exact hargs n hid
    · split at h
      · cases h
      · split at h
        · cases h
        · next plan hplan =>
          cases h
          rw [(nodeId_of_ofPeers hplan).2]
          exact nextNodeId_lt discoveredPeers

section
variable [ProstMessage Entry] {nodeId : ℕ} {d d' : DataDir}

theorem valid_close {p : StoragePath} (h : p.Valid nodeId) :
    (StoragePath.closed p.db).Valid nodeId := by
  cases p with
  | closed db => exact h
  | opened s => exact ⟨h.owned.sound, fun _ => h.owned⟩

theorem Belongs.owned (h : d.Belongs nodeId) {c : ℕ} (hmarked : d.marked c) :
    Owned nodeId (d.clusters c).db := by
  have hvalid := valid_close (h.valid c)
  exact hvalid.2 hmarked

theorem Belongs.storedNodeId (h : d.Belongs nodeId) (hmarked : d.marked 0) :
    d.storedNodeId true = some nodeId := by
  have hload : RocksDBStorage.loadNodeId (d.clusters 0).db = .ok (some nodeId) := by
    unfold RocksDBStorage.loadNodeId
    rw [(h.owned hmarked).node]
    simp [h.bound]
  rw [DataDir.storedNodeId, RocksDBStorage.loadNodeIdFromPath, if_pos rfl, hload]
  rfl

/-- While no process has its storage open, every storage is closed. -/
theorem Belongs.closed (h : d.Belongs nodeId) (hopened : d.openedAs = none) (c : ℕ) :
    d.clusters c = .closed (d.clusters c).db := by
  cases hc : d.clusters c with
  | closed db => rfl
  | opened s =>
    have hopen := h.opened c (by rw [hc]; rfl)
    rw [hopened] at hopen
    cases hopen

/-- The process changes one of its storages. -/
theorem Belongs.set (h : d.Belongs nodeId) (hopened : d.openedAs = some nodeId) {c : ℕ}
    {p : StoragePath} (hvalid : p.Valid nodeId)
    (hkeeps : d.marked c → (p.db.metadata .hardState).isSome) :
    Belongs nodeId { d with clusters := Function.update d.clusters c p } ∧
      marked { d with clusters := Function.update d.clusters c p } 0 := by
  have hmarked : marked { d with clusters := Function.update d.clusters c p } 0 := by
    have hfirst := (h.openedAs nodeId hopened).2
    rw [marked] at hfirst ⊢
    by_cases hc : c = 0
    · subst hc
      simpa using hkeeps hfirst
    · simpa [Function.update_of_ne (Ne.symm hc)] using hfirst
  refine ⟨⟨h.bound, fun c' => ?_, fun n hn => ⟨(h.openedAs n hn).1, hmarked⟩, fun _ _ => hopened,
    fun _ _ => hmarked⟩, hmarked⟩
  by_cases hc : c' = c
  · subst hc
    simpa using hvalid
  · simpa [Function.update_of_ne hc] using h.valid c'

/-- Closing storages changes nothing that is stored. -/
theorem Belongs.close (h : d.Belongs nodeId) (d' : DataDir)
    (hopened : ∀ n, d'.openedAs = some n → d.openedAs = some n)
    (hclusters : ∀ c, d'.clusters c = d.clusters c ∧ d'.openedAs = d.openedAs ∨
      d'.clusters c = .closed (d.clusters c).db) :
    d'.Belongs nodeId ∧ (d.marked 0 → d'.marked 0) := by
  have hmarked : ∀ c, d'.marked c ↔ d.marked c := fun c => by
    rcases hclusters c with ⟨heq, -⟩ | heq
    · rw [marked, marked, heq]
    · rw [marked, marked, heq]
      rfl
  refine ⟨⟨h.bound, fun c => ?_, fun n hn => ?_, fun c hc => ?_, fun c hc => ?_⟩, (hmarked 0).mpr⟩
  · rcases hclusters c with ⟨heq, -⟩ | heq
    · rw [heq]
      exact h.valid c
    · rw [heq]
      exact valid_close (h.valid c)
  · obtain ⟨heq, hfirst⟩ := h.openedAs n (hopened n hn)
    exact ⟨heq, (hmarked 0).mpr hfirst⟩
  · rcases hclusters c with ⟨heq, hsame⟩ | heq
    · rw [heq] at hc
      rw [hsame]
      exact h.opened c hc
    · rw [heq] at hc
      cases hc
  · exact (hmarked 0).mpr (h.first c ((hmarked c).mp hc))

/-! ## Opening a storage -/

variable [ProstMessage HardState] [ProstMessage ConfState] {db : Db}

/-- A marked storage is refused to another node, and left as it is. -/
theorem openOrCreate_other (h : Owned nodeId db) (hmarked : (db.metadata .hardState).isSome)
    (hn : nodeId < U64.size) {n : ℕ} (hne : n ≠ nodeId) (w : Faults) (confState : ConfState) :
    ∃ e, RocksDBStorage.openOrCreate w db n confState = (.error e, db) := by
  have hnode : RocksDBStorage.loadNodeId db = .ok (some nodeId) := by
    unfold RocksDBStorage.loadNodeId
    rw [h.node]
    simp [hn]
  refine ⟨.other s!"Node ID mismatch: storage contains {nodeId}, but {n} was provided", ?_⟩
  unfold RocksDBStorage.openOrCreate RocksDBStorage.initializeIfNeeded
  simp [hmarked, hnode, Ne.symm hne]

variable [ProstMessage Snapshot]

/-- A storage that nobody has open is opened by its node: if it is marked, it is open and as it
was. -/
theorem opened_of_step (h : (StoragePath.closed db).Valid nodeId) (hn : nodeId < U64.size)
    {w : Faults} {confState : ConfState} {p : StoragePath}
    (hstep : (StoragePath.closed db).step nodeId (.openOrCreate w confState) = some p) :
    p.Valid nodeId ∧ (p.isOpen → (p.db.metadata .hardState).isSome) ∧
      ((db.metadata .hardState).isSome → p.isOpen ∧ p.db = db) := by
  have hvalid := StoragePath.Valid.openOrCreate h hn hstep
  refine ⟨hvalid, fun hopen => ?_, fun hmarked => ?_⟩
  · cases p with
    | closed db => cases hopen
    | opened s => exact hvalid.marked
  · obtain ⟨s, hs, hdb, -, -⟩ := (h.2 hmarked).openOrCreate hmarked hn w confState
    rw [StoragePath.step, StoragePath.db, hs] at hstep
    obtain rfl := Option.some.inj hstep
    exact ⟨rfl, hdb⟩

/-! ## Steps -/

variable {op : DataDirOp}

/-- A process opens a directory that was opened before: it is the node of then, or it is
refused. -/
theorem Belongs.start_of_marked (h : d.Belongs nodeId) (hnone : d.openedAs = none)
    (hmarked : d.marked 0) {n : ℕ} {w : Faults} {confState : ConfState} {p : StoragePath}
    (hp : (d.clusters 0).step n (.openOrCreate w confState) = some p) :
    Belongs nodeId
        { clusters := Function.update d.clusters 0 p
          openedAs := if p.isOpen then some n else none } ∧
      marked
        { clusters := Function.update d.clusters 0 p
          openedAs := if p.isOpen then some n else none } 0 := by
  have hclosed := h.closed hnone 0
  have hvalid := h.valid 0
  rw [hclosed] at hp hvalid
  by_cases hn : n = nodeId
  · subst hn
    obtain ⟨hp, -, hopen⟩ := opened_of_step hvalid h.bound hp
    obtain ⟨hopen, hdb⟩ := hopen hmarked
    have hstarted : Belongs n { d with openedAs := some n } :=
      ⟨h.bound, h.valid, fun m hm => ⟨(Option.some.inj hm).symm, hmarked⟩, fun _ _ => rfl, h.first⟩
    rw [if_pos hopen]
    exact hstarted.set rfl hp fun _ => by rw [hdb]; exact hmarked
  · obtain ⟨e, he⟩ := openOrCreate_other (hvalid.2 hmarked) hmarked h.bound hn w confState
    rw [StoragePath.step, StoragePath.db, he] at hp
    obtain rfl := Option.some.inj hp
    have hsame : Function.update d.clusters 0 (.closed (d.clusters 0).db) = d.clusters := by
      rw [← hclosed, Function.update_eq_self]
    rw [hsame]
    refine ⟨⟨h.bound, h.valid, fun m hm => ?_, fun c hc => ?_, h.first⟩, hmarked⟩
    · cases hm
    · rw [h.closed hnone c] at hc
      cases hc

/-- A process opens a directory for the first time. -/
theorem Belongs.start_of_unmarked (h : d.Belongs nodeId) (hnone : d.openedAs = none)
    (hunmarked : ¬ d.marked 0) {n : ℕ} (hn : n < U64.size) {w : Faults} {confState : ConfState}
    {p : StoragePath} (hp : (d.clusters 0).step n (.openOrCreate w confState) = some p) :
    Belongs n
      { clusters := Function.update d.clusters 0 p
        openedAs := if p.isOpen then some n else none } := by
  have hvalid : ∀ c, (d.clusters c).Valid n := fun c => by
    have hc := h.valid c
    rw [h.closed hnone c] at hc ⊢
    exact ⟨hc.1, fun hmarked => absurd (h.first c hmarked) hunmarked⟩
  have hfirst := hvalid 0
  rw [h.closed hnone 0] at hp hfirst
  obtain ⟨hpvalid, hpmarked, -⟩ := opened_of_step hfirst hn hp
  refine ⟨hn, fun c => ?_, fun m hm => ?_, fun c hc => ?_, fun c hc => ?_⟩
  · by_cases hc : c = 0
    · subst hc
      simpa using hpvalid
    · simpa [Function.update_of_ne hc] using hvalid c
  · by_cases hopen : p.isOpen
    · rw [if_pos hopen] at hm
      exact ⟨(Option.some.inj hm).symm, by simpa [marked] using hpmarked hopen⟩
    · rw [if_neg hopen] at hm
      cases hm
  · replace hc : (Function.update d.clusters 0 p c).isOpen := hc
    by_cases hzero : c = 0
    · subst hzero
      rw [Function.update_self] at hc
      rw [if_pos hc]
    · rw [Function.update_of_ne hzero, h.closed hnone c] at hc
      cases hc
  · by_cases hzero : c = 0
    · subst hzero
      exact hc
    · replace hc : ((Function.update d.clusters 0 p c).db.metadata .hardState).isSome := hc
      rw [Function.update_of_ne hzero] at hc
      exact absurd (h.first c hc) hunmarked

theorem Belongs.step (h : d.Belongs nodeId) (hop : InRange op) (hstep : d.step op = some d') :
    ∃ n, d'.Belongs n ∧ (d.marked 0 → n = nodeId ∧ d'.marked 0) := by
  cases op with
  | start args readable discoveredPeers w =>
    rw [DataDir.step] at hstep
    split at hstep
    · cases hstep
    · next hnone =>
      rw [Option.not_isSome_iff_eq_none] at hnone
      split at hstep
      · obtain rfl := Option.some.inj hstep
        exact ⟨nodeId, h, fun hmarked => ⟨rfl, hmarked⟩⟩
      · next n confState hchosen =>
        obtain ⟨p, hp, rfl⟩ := Option.map_eq_some_iff.mp hstep
        -- a directory that is marked keeps its id; one that is not takes what was chosen
        by_cases hmarked : d.marked 0
        · obtain ⟨hbelongs, hkept⟩ := h.start_of_marked hnone hmarked hp
          exact ⟨nodeId, hbelongs, fun _ => ⟨rfl, hkept⟩⟩
        · have hn := chooseNode_lt hop (fun m hm => storedNodeId_lt hm) hchosen
          exact ⟨n, h.start_of_unmarked hnone hmarked hn hp, fun hm => absurd hm hmarked⟩
  | openCluster c w confState =>
    rw [DataDir.step] at hstep
    split at hstep
    · cases hstep
    · next n hopened =>
      obtain ⟨rfl, -⟩ := h.openedAs n hopened
      split at hstep
      · cases hstep
      · next hclosed =>
        obtain ⟨p, hp, rfl⟩ := Option.map_eq_some_iff.mp hstep
        have hvalid := h.valid c
        cases hc : d.clusters c with
        | opened s =>
          rw [hc] at hclosed
          exact absurd rfl hclosed
        | closed db =>
          rw [hc] at hp hvalid
          -- a cluster is opened with the id the process runs under
          obtain ⟨hpvalid, -, hkeeps⟩ := opened_of_step hvalid h.bound hp
          obtain ⟨hbelongs, hkept⟩ := h.set hopened hpvalid fun hmarked => by
            rw [marked, hc] at hmarked
            rw [(hkeeps hmarked).2]
            exact hmarked
          exact ⟨n, hbelongs, fun _ => ⟨rfl, hkept⟩⟩
  | call c op w =>
    rw [DataDir.step] at hstep
    split at hstep
    · cases hstep
    · next n hopened =>
      obtain ⟨rfl, -⟩ := h.openedAs n hopened
      obtain ⟨p, hp, rfl⟩ := Option.map_eq_some_iff.mp hstep
      have hvalid := h.valid c
      cases hc : d.clusters c with
      | closed db =>
        rw [hc] at hp
        cases hp
      | opened s =>
        rw [hc] at hp hvalid
        obtain rfl := Option.some.inj hp
        -- a storage in use stays marked, whatever of the call is written
        have huse : InUse n (op.run w s).2 := InUse.run hvalid hop w
        have hpvalid : (StoragePath.opened (op.run w s).2).Valid n := huse
        obtain ⟨hbelongs, hkept⟩ := h.set hopened hpvalid fun _ => huse.marked
        exact ⟨n, hbelongs, fun _ => ⟨rfl, hkept⟩⟩
  | closeCluster c =>
    obtain rfl := Option.some.inj hstep
    obtain ⟨hbelongs, hkept⟩ := h.close
      { d with clusters := Function.update d.clusters c (.closed (d.clusters c).db) }
      (fun n hn => hn) fun c' => by
        by_cases hc : c' = c
        · subst hc
          exact Or.inr (Function.update_self ..)
        · exact Or.inl ⟨Function.update_of_ne hc .., rfl⟩
    exact ⟨nodeId, hbelongs, fun hmarked => ⟨rfl, hkept hmarked⟩⟩
  | stop =>
    obtain rfl := Option.some.inj hstep
    obtain ⟨hbelongs, hkept⟩ := h.close
      { clusters := fun c => .closed (d.clusters c).db, openedAs := none }
      (fun n hn => by cases hn) fun c => Or.inr rfl
    exact ⟨nodeId, hbelongs, fun hmarked => ⟨rfl, hkept hmarked⟩⟩

/-! ## Runs -/

/-- The directory of a node that has opened its storage once. -/
structure Keeps (nodeId : ℕ) (d : DataDir) : Prop where
  openedAs : ∀ n, d.openedAs = some n → n = nodeId
  inUse : ∀ c s, d.clusters c = .opened s → InUse nodeId s
  /-- No storage is refused to the node. -/
  opens : ∀ c confState, ∃ s,
    (RocksDBStorage.openOrCreate Faults.none (d.clusters c).db nodeId confState).1 = .ok s
  /-- A process that can read the storage opens it as the node, even if no write succeeds. -/
  reopens : d.openedAs = none → ∀ args discoveredPeers w, args.transport = "grpc" →
    ∃ d', d.step (.start args true discoveredPeers w) = some d' ∧ d'.openedAs = some nodeId

theorem Belongs.keeps (h : d.Belongs nodeId) (hmarked : d.marked 0) : d.Keeps nodeId := by
  refine ⟨fun n hn => (h.openedAs n hn).1, fun c s hc => ?_, fun c confState => ?_,
    fun hnone args discoveredPeers w hgrpc => ?_⟩
  · have hvalid := h.valid c
    rw [hc] at hvalid
    exact hvalid
  · by_cases hmark : d.marked c
    · obtain ⟨s, hs, -⟩ := (h.owned hmark).openOrCreate hmark h.bound Faults.none confState
      exact ⟨s, by rw [hs]⟩
    · exact ⟨_, openOrCreate_of_unmarked nodeId confState (Option.not_isSome_iff_eq_none.mp hmark)⟩
  · have hchosen : chooseNode args (some nodeId) discoveredPeers =
        .ok (nodeId, { voters := [nodeId] }) := by
      unfold chooseNode
      rw [hgrpc]
      rfl
    obtain ⟨s, hs, -⟩ := (h.owned hmarked).openOrCreate hmarked h.bound w { voters := [nodeId] }
    have hopen : (d.clusters 0).step nodeId (.openOrCreate w { voters := [nodeId] }) =
        some (.opened s) := by
      rw [StoragePath.step, hs]
    refine ⟨{ clusters := Function.update d.clusters 0 (.opened s), openedAs := some nodeId },
      ?_, rfl⟩
    rw [DataDir.step, hnone, h.storedNodeId hmarked, hchosen]
    simp only [Option.isSome_none, Bool.false_eq_true, if_false, hopen]
    rfl

end

/-! ## A node whose first start fails -/

section
open scoped Codec

instance (op : DataDirOp) : Decidable (InRange op) :=
  match op with
  | .start args _ _ _ => inferInstanceAs (Decidable (∀ nodeId ∈ args.nodeId, nodeId < U64.size))
  | .openCluster _ _ _ => isTrue trivial
  | .call _ op _ => inferInstanceAs (Decidable (op.IndicesBelow (U64.size - 1)))
  | .closeCluster _ => isTrue trivial
  | .stop => isTrue trivial

end

end DataDir

end Raftoral

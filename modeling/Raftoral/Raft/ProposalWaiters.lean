import Raftoral.Raft.ProposalCluster

/-!
# Proposers that wait

A call of `propose`, `add_node`, `remove_node` or `forward_to_leader` registers its sync id in
`pending_proposals` before anything can fail. A proposal that raft refuses is forgotten again, by
a task that is spawned; a command that cannot be serialized and a message that cannot be sent are
not. On a leader raft appends what it takes to the log, or in place of a configuration change an
empty entry, which answers nobody. It does so at least while an earlier change is not yet applied.
-/

namespace Raftoral

open RaftNode Transition

variable {σ Command Event S : Type}

/-- The text of an error of the transport. -/
def TransportError.display : TransportError → String
  | .peerNotFound nodeId => s!"Peer node {nodeId} not found in registry"
  | .sendFailed nodeId reason => s!"Failed to send message to node {nodeId}: {reason}"
  | .serializationError reason => s!"Failed to serialize message: {reason}"
  | .deserializationError reason => s!"Failed to deserialize message: {reason}"
  | .notInitialized => "Transport is not initialized"
  | .other reason => s!"Transport error: {reason}"

/-- `serde_json::to_vec`, which may fail. -/
def serialize {α : Type} [SerdeJson α] (failure : Option String) (a : α) : Except String Bytes :=
  match failure with
  | some reason => .error reason
  | none => .ok (SerdeJson.toVec a)

/-- What a call leaves behind: the ids its clean-up task forgets, and what raft has taken. -/
structure Called (σ Event S : Type) where
  result : Except String Unit
  node : RaftNode σ Event S
  cleanups : List ℕ := []
  taken : Option Payload := none

namespace RaftNode

section
variable [SerdeJson Command]

/-- `propose`, of a command that may fail to serialize. -/
def tryPropose (answers : RaftAnswers) (syncId : ℕ) (failure : Option String) (command : Command)
    (n : RaftNode σ Event S) : Called σ Event S :=
  let n := n.track syncId
  match serialize failure command with
  | .error e => { result := .error s!"Failed to serialize command: {e}", node := n }
  | .ok data =>
    let context := U64.toLeBytes syncId
    match answers.propose context data with
    | .ok () => { result := .ok (), node := n, taken := some (.normal context data) }
    | .error e =>
      { result := callResult "propose" (.error e), node := n, cleanups := [syncId] }

/-- `forward_to_leader`. -/
def forwardToLeader (sent : Except TransportError Unit) (leaderId syncId : ℕ)
    (failure : Option String) (command : Command) (n : RaftNode σ Event S) : Called σ Event S :=
  let n := n.registerForwardedProposal syncId
  match serialize failure command with
  | .error e => { result := .error s!"Failed to serialize command: {e}", node := n }
  | .ok _ =>
    match TransportLayer.sendMessage n.peers sent leaderId with
    | .ok () => { result := .ok (), node := n }
    | .error e => { result := .error s!"Failed to forward to leader: {e.display}", node := n }

end

section
variable [ProstMessage ConfChange]

/-- `add_node`, of a node whose metadata may fail to serialize. -/
def tryAddNode [SerdeJson NodeMetadata] (answers : RaftAnswers) (syncId : ℕ)
    (failure : Option String) (nodeId : ℕ) (address : String) (n : RaftNode σ Event S) :
    Called σ Event S :=
  let n := n.track syncId
  match serialize failure ({ address } : NodeMetadata) with
  | .error e => { result := .error s!"Failed to serialize metadata: {e}", node := n }
  | .ok metadata =>
    let cc : ConfChange :=
      { changeType := .addNode, nodeId, context := U64.toLeBytes syncId ++ metadata }
    match answers.proposeConfChange cc with
    | .ok () =>
      { result := .ok ()
        node := { n with peers := TransportLayer.addPeer n.peers nodeId address }
        taken := some (.confChange cc) }
    | .error e =>
      { result := callResult "propose conf change" (.error e), node := n, cleanups := [syncId] }

/-- `remove_node`. -/
def tryRemoveNode (answers : RaftAnswers) (syncId nodeId : ℕ) (n : RaftNode σ Event S) :
    Called σ Event S :=
  let n := n.track syncId
  let cc : ConfChange := { changeType := .removeNode, nodeId, context := U64.toLeBytes syncId }
  match answers.proposeConfChange cc with
  | .ok () => { result := .ok (), node := n, taken := some (.confChange cc) }
  | .error e =>
    { result := callResult "propose conf change" (.error e), node := n, cleanups := [syncId] }

/-- The call a request is made with. -/
def call [SerdeJson Command] [SerdeJson NodeMetadata] (answers : RaftAnswers) (syncId : ℕ)
    (failure : Option String) (n : RaftNode σ Event S) : Request Command → Called σ Event S
  | .command command => n.tryPropose answers syncId failure command
  | .addNode nodeId address => n.tryAddNode answers syncId failure nodeId address
  | .removeNode nodeId => n.tryRemoveNode answers syncId nodeId

end

end RaftNode

/-- The request has nothing to serialize, or it is serialized. -/
def Request.Serializes (failure : Option String) : Request Command → Prop
  | .command _ | .addNode _ _ => failure = none
  | .removeNode _ => True

/-- A proposal whose caller was given a result. -/
structure WaiterCall where
  syncId : ℕ
  result : Except String Unit
  /-- raft has taken it on this node as the leader, and the node has led since. -/
  ledSince : Bool

/-- A node, the log of its raft since it started, and how much of it was applied. -/
structure ProposalWaiters (σ Event S : Type) where
  node : RaftNode σ Event S
  leader : Bool := false
  log : List Payload := []
  applied : ℕ := 0
  calls : List WaiterCall := []
  /-- The ids that spawned tasks are still to forget. -/
  cleanups : List ℕ := []

inductive WaiterOp (Command : Type) where
  /-- `replaced` if the leader's raft puts an empty entry in the place of a configuration change. -/
  | call (answers : RaftAnswers) (replaced : Bool) (syncId : ℕ) (failure : Option String)
      (request : Request Command)
  | forward (sent : Except TransportError Unit) (leaderId syncId : ℕ) (failure : Option String)
      (command : Command)
  | cleanUp (syncId : ℕ)
  /-- The leader appends an entry for another node, or that of its election. -/
  | append (payload : Payload)
  /-- A node that does not lead takes over the log of the leader behind what it has applied. -/
  | follow (keep : ℕ) (entries : List Payload)
  | lead
  | stepDown
  /-- `on_ready` gets to the next entry. -/
  | apply (io : ReadyIo) (entry : Entry)

namespace ProposalWaiters

/-- A configuration change is not yet applied. -/
def confPending (s : ProposalWaiters σ Event S) : Bool :=
  (s.log.drop s.applied).any fun p => p.entryType ≠ .entryNormal

/-- What the leader's raft appends for what it has taken. -/
def appended (replaced : Bool) (taken : Payload) : Payload :=
  if replaced ∧ taken.entryType ≠ .entryNormal then .normal [] [] else taken

/-- A call returns. -/
def called (s : ProposalWaiters σ Event S) (replaced : Bool) (syncId : ℕ) (c : Called σ Event S) :
    ProposalWaiters σ Event S :=
  { s with
    node := c.node
    log := s.log ++ if s.leader then c.taken.toList.map (appended replaced) else []
    calls := s.calls ++ [{ syncId, result := c.result, ledSince := s.leader && c.taken.isSome }]
    cleanups := s.cleanups ++ c.cleanups }

section
variable [ProstMessage ConfChange] [SerdeJson NodeMetadata] [SerdeJson Command]

def step [StateMachine σ Command Event] (s : ProposalWaiters σ Event S) :
    WaiterOp Command → Option (ProposalWaiters σ Event S)
  | .call answers replaced syncId failure request =>
    some (s.called replaced syncId (s.node.call answers syncId failure request))
  | .forward sent leaderId syncId failure command =>
    some (s.called false syncId (s.node.forwardToLeader sent leaderId syncId failure command))
  | .cleanUp syncId =>
    if syncId ∈ s.cleanups then
      some { s with node := s.node.forget syncId, cleanups := s.cleanups.erase syncId }
    else none
  | .append payload => if s.leader then some { s with log := s.log ++ [payload] } else none
  | .follow keep entries =>
    if ¬ s.leader ∧ s.applied ≤ keep ∧ keep ≤ s.log.length then
      some { s with log := s.log.take keep ++ entries }
    else none
  | .lead => some { s with leader := true }
  | .stepDown => some { s with
      leader := false
      calls := s.calls.map fun c => { c with ledSince := false } }
  | .apply io entry =>
    if s.log[s.applied]? = some entry.payload then
      match applyEntry io entry s.node with
      | (.next, node) => some { s with node, applied := s.applied + 1 }
      | _ => none
    else none

/-- raft takes a configuration change from the call. -/
def TakesChange (s : ProposalWaiters σ Event S) (answers : RaftAnswers) (syncId : ℕ)
    (failure : Option String) (request : Request Command) : Prop :=
  ∃ p ∈ (s.node.call answers syncId failure request).taken, p.entryType ≠ .entryNormal

/-- Sync ids are random numbers of 64 bits, so they are new, and the leader's raft replaces a
configuration change while an earlier one is not yet applied. -/
def Lawful (s : ProposalWaiters σ Event S) : WaiterOp Command → Prop
  | .call answers replaced syncId failure request =>
    (syncId ∉ s.calls.map WaiterCall.syncId ∧ syncId < U64.size) ∧
      (s.leader → s.confPending → s.TakesChange answers syncId failure request → replaced)
  | .forward _ _ syncId _ _ => syncId ∉ s.calls.map WaiterCall.syncId ∧ syncId < U64.size
  | .cleanUp _ | .append _ | .follow _ _ | .lead | .stepDown | .apply _ _ => True

/-- What has to be serialized is, what has to be sent is, and the leader's raft appends the
configuration changes that it takes. -/
def Answerable (s : ProposalWaiters σ Event S) : WaiterOp Command → Prop
  | .call answers replaced syncId failure request => request.Serializes failure ∧
      (s.leader → s.TakesChange answers syncId failure request → replaced = false)
  | .forward sent leaderId _ failure _ =>
    failure = none ∧ TransportLayer.sendMessage s.node.peers sent leaderId = .ok ()
  | .cleanUp _ | .append _ | .follow _ _ | .lead | .stepDown | .apply _ _ => True

instance (failure : Option String) : (request : Request Command) →
    Decidable (request.Serializes failure)
  | .command _ | .addNode _ _ => inferInstanceAs (Decidable (failure = none))
  | .removeNode _ => isTrue trivial

instance (s : ProposalWaiters σ Event S) (answers : RaftAnswers) (syncId : ℕ)
    (failure : Option String) (request : Request Command) :
    Decidable (s.TakesChange answers syncId failure request) :=
  inferInstanceAs (Decidable (∃ p ∈ (s.node.call answers syncId failure request).taken,
    p.entryType ≠ .entryNormal))

instance (s : ProposalWaiters σ Event S) : (op : WaiterOp Command) → Decidable (s.Lawful op)
  | .call answers replaced syncId failure request => inferInstanceAs (Decidable (
      (syncId ∉ s.calls.map WaiterCall.syncId ∧ syncId < U64.size) ∧
        (s.leader → s.confPending → s.TakesChange answers syncId failure request → replaced)))
  | .forward _ _ syncId _ _ => inferInstanceAs
      (Decidable (syncId ∉ s.calls.map WaiterCall.syncId ∧ syncId < U64.size))
  | .cleanUp _ | .append _ | .follow _ _ | .lead | .stepDown | .apply _ _ => isTrue trivial

instance (s : ProposalWaiters σ Event S) : (op : WaiterOp Command) → Decidable (s.Answerable op)
  | .call answers replaced syncId failure request => inferInstanceAs (Decidable (
      request.Serializes failure ∧
        (s.leader → s.TakesChange answers syncId failure request → replaced = false)))
  | .forward sent leaderId _ failure _ => inferInstanceAs (Decidable (
      failure = none ∧ TransportLayer.sendMessage s.node.peers sent leaderId = .ok ()))
  | .cleanUp _ | .append _ | .follow _ _ | .lead | .stepDown | .apply _ _ => isTrue trivial

/-- The leader's raft takes no second configuration change when every call is answerable. -/
theorem Answerable.not_takesChange {s : ProposalWaiters σ Event S} {answers : RaftAnswers}
    {replaced : Bool} {syncId : ℕ} {failure : Option String} {request : Request Command}
    (h : s.Answerable (.call answers replaced syncId failure request))
    (hlawful : s.Lawful (.call answers replaced syncId failure request)) (hleader : s.leader)
    (hpending : s.confPending) : ¬ s.TakesChange answers syncId failure request := by
  intro htakes
  rw [h.2 hleader htakes] at hlawful
  exact absurd (hlawful.2 hleader hpending htakes) Bool.false_ne_true

end

/-- No waiter is stranded: a call that has failed waits only until its clean-up task has run, and
a call that raft took on a node that has led since waits no longer once the whole log is
applied. -/
structure NoneStranded (s : ProposalWaiters σ Event S) : Prop where
  failed : ∀ call ∈ s.calls, call.result ≠ .ok () → s.node.pendingProposals call.syncId →
    call.syncId ∈ s.cleanups
  applied : s.applied = s.log.length → ∀ call ∈ s.calls, call.ledSince →
    s.node.pendingProposals call.syncId = false

/-- A node begins with nobody waiting. The log is what it has on disk and has not applied. -/
def start (config : RaftNodeConfig) (peers : Peers) (stateMachine : σ) (confState : ConfState)
    (store : S) (log : List Payload) : ProposalWaiters σ Event S :=
  { node := newWithConfState config peers stateMachine confState store, log }

end ProposalWaiters

/-! ## The calls -/

namespace RaftNode

/-- A command that is serialized is proposed. -/
theorem tryPropose_eq [SerdeJson Command] (answers : RaftAnswers) (syncId : ℕ) (command : Command)
    (n : RaftNode σ Event S) :
    ((n.tryPropose answers syncId none command).result,
      (n.tryPropose answers syncId none command).node) = n.propose answers syncId command := by
  unfold tryPropose propose serialize
  dsimp only
  cases answers.propose (U64.toLeBytes syncId) (SerdeJson.toVec command) <;> rfl

section
variable [ProstMessage ConfChange]

theorem tryAddNode_eq [SerdeJson NodeMetadata] (answers : RaftAnswers) (syncId nodeId : ℕ)
    (address : String) (n : RaftNode σ Event S) :
    ((n.tryAddNode answers syncId none nodeId address).result,
      (n.tryAddNode answers syncId none nodeId address).node) =
        n.addNode answers syncId nodeId address := by
  unfold tryAddNode addNode serialize
  dsimp only
  cases answers.proposeConfChange _ <;> rfl

theorem tryRemoveNode_eq (answers : RaftAnswers) (syncId nodeId : ℕ) (n : RaftNode σ Event S) :
    ((n.tryRemoveNode answers syncId nodeId).result, (n.tryRemoveNode answers syncId nodeId).node) =
      n.removeNode answers syncId nodeId := by
  unfold tryRemoveNode removeNode
  dsimp only
  cases answers.proposeConfChange _ <;> rfl

variable [SerdeJson Command] [SerdeJson NodeMetadata]

/-- What a call does whose request is serialized: its caller waits; when raft refuses it, a task
forgets it again; and raft takes the entry of the request. -/
theorem call_cases (answers : RaftAnswers) (syncId : ℕ) {failure : Option String}
    {request : Request Command} (h : request.Serializes failure) (n : RaftNode σ Event S) :
    (n.call answers syncId failure request).node.pendingProposals =
        Function.update n.pendingProposals syncId true ∧
      ((n.call answers syncId failure request).cleanups = [syncId] ∧
          (n.call answers syncId failure request).taken = none ∨
        (n.call answers syncId failure request).result = .ok () ∧
          (n.call answers syncId failure request).taken =
            some (Submission.payload ⟨0, syncId, request⟩)) := by
  cases request with
  | command command =>
    obtain rfl : failure = none := h
    simp only [call, tryPropose, serialize]
    cases answers.propose (U64.toLeBytes syncId) (SerdeJson.toVec command) with
    | ok => exact ⟨rfl, Or.inr ⟨rfl, rfl⟩⟩
    | error e => exact ⟨rfl, Or.inl ⟨rfl, rfl⟩⟩
  | addNode nodeId address =>
    obtain rfl : failure = none := h
    simp only [call, tryAddNode, serialize]
    cases answers.proposeConfChange
      { changeType := .addNode, nodeId,
        context := U64.toLeBytes syncId ++ SerdeJson.toVec ({ address } : NodeMetadata) } with
    | ok => exact ⟨rfl, Or.inr ⟨rfl, rfl⟩⟩
    | error e => exact ⟨rfl, Or.inl ⟨rfl, rfl⟩⟩
  | removeNode nodeId =>
    simp only [call, tryRemoveNode]
    cases answers.proposeConfChange
      { changeType := .removeNode, nodeId, context := U64.toLeBytes syncId } with
    | ok => exact ⟨rfl, Or.inr ⟨rfl, rfl⟩⟩
    | error e => exact ⟨rfl, Or.inl ⟨rfl, rfl⟩⟩

end

theorem forwardToLeader_cases [SerdeJson Command] {sent : Except TransportError Unit}
    {leaderId syncId : ℕ} {command : Command} (n : RaftNode σ Event S)
    (h : TransportLayer.sendMessage n.peers sent leaderId = .ok ()) :
    n.forwardToLeader sent leaderId syncId none command =
      { result := .ok (), node := n.track syncId } := by
  unfold forwardToLeader serialize
  dsimp only
  have hsent : TransportLayer.sendMessage (n.registerForwardedProposal syncId).peers sent leaderId =
      .ok () := h
  rw [hsent]
  rfl

section
variable [ProstMessage ConfChange] [SerdeJson NodeMetadata] [StateMachine σ Command Event]
  [SerdeJson Command]

/-- An entry that is applied answers whoever waits for its sync id. -/
theorem pendingProposals_applyEntry {io : ReadyIo} {e : Entry} {n n' : RaftNode σ Event S}
    (h : applyEntry io e n = (.next, n')) {id : ℕ} (hid : n'.pendingProposals id) :
    n.pendingProposals id ∧ e.syncId ≠ some id := by
  -- whatever is completed, nobody waits for it any more
  have hcomplete : ∀ (syncId : Option ℕ) (result : Except String Unit) (m : RaftNode σ Event S),
      (m.completeProposal syncId result).pendingProposals id →
        m.pendingProposals id ∧ syncId ≠ some id := by
    intro syncId result m hm
    unfold completeProposal at hm
    cases syncId with
    | none => exact ⟨hm, by simp⟩
    | some syncId =>
      dsimp only at hm
      by_cases heq : id = syncId
      · subst heq
        split_ifs at hm with hwaits
        · simp [emit] at hm
        · exact absurd hm hwaits
      · refine ⟨?_, fun hsome => heq (Option.some.inj hsome).symm⟩
        split_ifs at hm
        · simpa [emit, Function.update_of_ne heq] using hm
        · exact hm
  unfold applyEntry at h
  unfold Entry.syncId
  by_cases hempty : e.data.isEmpty
  · rw [if_pos hempty] at h ⊢
    obtain ⟨-, rfl⟩ := Prod.mk.inj h
    exact ⟨hid, by simp⟩
  · rw [if_neg hempty] at h ⊢
    cases he : e.entryType with
    | entryNormal =>
      rw [he] at h
      obtain ⟨-, rfl⟩ := Prod.mk.inj h
      set n₁ : RaftNode σ Event S :=
        { n with stateMachine := (applyCommand n.stateMachine e.data).2 } with hn₁
      have hsilent := publishResult_silent (applyCommand n.stateMachine e.data).1 n₁
      obtain ⟨hwaits, hne⟩ := hcomplete (entrySyncId e.context)
        ((applyCommand n.stateMachine e.data).1.map fun _ => ())
        (n₁.publishResult (applyCommand n.stateMachine e.data).1) hid
      rw [hsilent.pendingProposals] at hwaits
      exact ⟨hwaits, hne⟩
    | _ =>
      rw [he] at h
      simp only [applyConfChange] at h ⊢
      cases hdecode : (ProstMessage.decode e.data : Except String ConfChange) with
      | error reason => simp [hdecode] at h
      | ok cc =>
        cases hcs : io.applyConfChange e with
        | error reason => simp [hdecode, hcs] at h
        | ok cs =>
          simp only [hdecode, hcs, Prod.mk.injEq] at h
          obtain ⟨-, rfl⟩ := h
          obtain ⟨hwaits, hne⟩ := hcomplete (confChangeSyncId cc.context).1
            (confChangePeers cc n.peers).1
            { n with cachedConfState := cs, peers := (confChangePeers cc n.peers).2 } hid
          exact ⟨hwaits, hne⟩

end

end RaftNode

/-! ## The invariant -/

section
variable [ProstMessage ConfChange]

/-- An entry with this payload answers whoever waits for the sync id. -/
def Payload.Carries (syncId : ℕ) (p : Payload) : Prop :=
  p.data ≠ [] ∧ ∀ e : Entry, e.payload = p → e.syncId = some syncId

variable [SerdeJson NodeMetadata] [SerdeJson Command]

theorem Submission.carries
    (hcommand : ∀ command : Command, SerdeJson.toVec command ≠ [])
    (hconf : ∀ cc : ConfChange, cc.context ≠ [] → ProstMessage.encodeToVec cc ≠ [])
    {p : Submission Command} (hsize : p.syncId < U64.size) : p.payload.Carries p.syncId := by
  have hlength : ∀ rest, U64.toLeBytes p.syncId ++ rest ≠ [] := by
    intro rest hnil
    have hlen := U64.length_toLeBytes p.syncId
    rw [(List.append_eq_nil_iff.mp hnil).1] at hlen
    exact absurd hlen (by decide)
  have hdata : p.payload.data ≠ [] := by
    unfold Submission.payload
    cases p.request with
    | command command => exact hcommand command
    | addNode nodeId address => exact hconf _ (hlength _)
    | removeNode nodeId =>
      refine hconf _ ?_
      simpa using hlength []
  refine ⟨hdata, fun e he => Submission.syncId_of_payload hsize ?_ he⟩
  have hsame : e.data = p.payload.data := congrArg Payload.data he
  rw [hsame]
  exact hdata

namespace ProposalWaiters

/-- Whoever waits will be answered or forgotten. -/
structure Answering (s : ProposalWaiters σ Event S) : Prop where
  bound : s.applied ≤ s.log.length
  failed : ∀ call ∈ s.calls, call.result ≠ .ok () → s.node.pendingProposals call.syncId →
    call.syncId ∈ s.cleanups
  led : ∀ call ∈ s.calls, call.ledSince → s.leader
  carried : ∀ call ∈ s.calls, call.ledSince → s.node.pendingProposals call.syncId →
    ∃ p ∈ s.log.drop s.applied, p.Carries call.syncId

variable {s s' : ProposalWaiters σ Event S}

omit [SerdeJson NodeMetadata] in
theorem Answering.noneStranded (h : s.Answering) : s.NoneStranded := by
  refine ⟨h.failed, fun happlied call hcall hled => ?_⟩
  by_contra hwaits
  obtain ⟨p, hp, -⟩ := h.carried call hcall hled (by simpa using hwaits)
  rw [happlied, List.drop_length] at hp
  exact absurd hp List.not_mem_nil

omit [SerdeJson NodeMetadata] in
/-- A call returns. -/
theorem Answering.called (h : s.Answering) {replaced : Bool} {syncId : ℕ} {c : Called σ Event S}
    (hnew : syncId ∉ s.calls.map WaiterCall.syncId)
    (hpending : c.node.pendingProposals = Function.update s.node.pendingProposals syncId true)
    (hcleanup : c.result ≠ .ok () → syncId ∈ c.cleanups)
    (hcarries : s.leader → ∀ p ∈ c.taken, (appended replaced p).Carries syncId) :
    (s.called replaced syncId c).Answering := by
  set added : List Payload :=
    if s.leader then c.taken.toList.map (appended replaced) else [] with hadded
  have hlog : (s.called replaced syncId c).log = s.log ++ added := rfl
  have hdrop : (s.called replaced syncId c).log.drop s.applied = s.log.drop s.applied ++ added := by
    rw [hlog, List.drop_append_of_le_length h.bound]
  -- whoever waited before still waits as before
  have hold : ∀ call ∈ s.calls, c.node.pendingProposals call.syncId →
      s.node.pendingProposals call.syncId := by
    intro call hcall hwaits
    have hne : call.syncId ≠ syncId := fun heq => hnew (heq ▸ List.mem_map_of_mem hcall)
    rwa [hpending, Function.update_of_ne hne] at hwaits
  refine ⟨?_, fun call hcall hresult hwaits => ?_, fun call hcall hled => ?_,
    fun call hcall hled hwaits => ?_⟩
  · rw [hlog, List.length_append]
    exact Nat.le_add_right_of_le h.bound
  · rcases List.mem_append.mp hcall with hcall | hcall
    · exact List.mem_append_left _ (h.failed call hcall hresult (hold call hcall hwaits))
    · obtain rfl := List.mem_singleton.mp hcall
      exact List.mem_append_right _ (hcleanup hresult)
  · rcases List.mem_append.mp hcall with hcall | hcall
    · exact h.led call hcall hled
    · obtain rfl := List.mem_singleton.mp hcall
      exact (Bool.and_eq_true _ _ ▸ hled).1
  · show ∃ p ∈ (s.called replaced syncId c).log.drop s.applied, _
    rw [hdrop]
    rcases List.mem_append.mp hcall with hcall | hcall
    · obtain ⟨p, hp, hp'⟩ := h.carried call hcall hled (hold call hcall hwaits)
      exact ⟨p, List.mem_append_left _ hp, hp'⟩
    · obtain rfl := List.mem_singleton.mp hcall
      obtain ⟨hleader, htaken⟩ := Bool.and_eq_true_iff.mp hled
      obtain ⟨p, hp⟩ := Option.isSome_iff_exists.mp htaken
      refine ⟨appended replaced p, List.mem_append_right _ ?_, hcarries hleader p hp⟩
      rw [hadded, if_pos hleader, hp]
      exact List.mem_singleton_self _

omit [SerdeJson NodeMetadata] in
/-- The one who is forgotten waits no longer. -/
theorem Answering.cleanUp (h : s.Answering) (syncId : ℕ) :
    Answering { s with node := s.node.forget syncId, cleanups := s.cleanups.erase syncId } := by
  have hwaited : ∀ {id : ℕ}, (s.node.forget syncId).pendingProposals id →
      id ≠ syncId ∧ s.node.pendingProposals id := by
    intro id hid
    by_cases heq : id = syncId
    · simp [forget, heq] at hid
    · exact ⟨heq, by simpa [forget, Function.update_of_ne heq] using hid⟩
  refine ⟨h.bound, fun call hcall hresult hwaits => ?_, h.led,
    fun call hcall hled hwaits => h.carried call hcall hled (hwaited hwaits).2⟩
  obtain ⟨hne, hwaits⟩ := hwaited hwaits
  exact (List.mem_erase_of_ne hne).mpr (h.failed call hcall hresult hwaits)

omit [SerdeJson NodeMetadata] in
/-- The log grows. -/
theorem Answering.append (h : s.Answering) (payload : Payload) :
    Answering { s with log := s.log ++ [payload] } := by
  refine ⟨?_, h.failed, h.led, fun call hcall hled hwaits => ?_⟩
  · rw [List.length_append]
    exact Nat.le_add_right_of_le h.bound
  · obtain ⟨p, hp, hcarries⟩ := h.carried call hcall hled hwaits
    refine ⟨p, ?_, hcarries⟩
    rw [List.drop_append_of_le_length h.bound]
    exact List.mem_append_left _ hp

variable [StateMachine σ Command Event]

/-- The entry that is applied answers nobody who still waits behind it. -/
theorem Answering.apply (h : s.Answering) {io : ReadyIo} {entry : Entry}
    {node : RaftNode σ Event S} (hentry : s.log[s.applied]? = some entry.payload)
    (happly : applyEntry io entry s.node = (.next, node)) :
    Answering { s with node, applied := s.applied + 1 } := by
  obtain ⟨hlt, hget⟩ := List.getElem?_eq_some_iff.mp hentry
  refine ⟨hlt, fun call hcall hresult hwaits => ?_, h.led, fun call hcall hled hwaits => ?_⟩
  · exact h.failed call hcall hresult (pendingProposals_applyEntry happly hwaits).1
  · obtain ⟨hbefore, hne⟩ := pendingProposals_applyEntry happly hwaits
    obtain ⟨p, hp, hcarries⟩ := h.carried call hcall hled hbefore
    rw [List.drop_eq_getElem_cons hlt, hget] at hp
    rcases List.mem_cons.mp hp with rfl | hp
    · exact absurd (hcarries.2 entry rfl) hne
    · exact ⟨p, hp, hcarries⟩

theorem Answering.step (hcommand : ∀ command : Command, SerdeJson.toVec command ≠ [])
    (hconf : ∀ cc : ConfChange, cc.context ≠ [] → ProstMessage.encodeToVec cc ≠ [])
    (h : s.Answering) {op : WaiterOp Command} (hlawful : s.Lawful op)
    (hanswerable : s.Answerable op) (hstep : s.step op = some s') : s'.Answering := by
  cases op with
  | call answers replaced syncId failure request =>
    obtain rfl := Option.some.inj hstep
    obtain ⟨⟨hnew, hsize⟩, -⟩ := hlawful
    obtain ⟨hserializes, hkept⟩ := hanswerable
    obtain ⟨hpending, hcases⟩ := call_cases answers syncId hserializes s.node
    refine h.called hnew hpending (fun hresult => ?_) fun hleader p hp => ?_
    · rcases hcases with ⟨hcleanups, -⟩ | ⟨hok, -⟩
      · rw [hcleanups]
        exact List.mem_singleton_self _
      · exact absurd hok hresult
    · rcases hcases with ⟨-, hnone⟩ | ⟨-, htaken⟩
      · rw [hnone] at hp
        exact absurd hp (by simp)
      · -- raft appends the entry of the request as it is
        have hsame : appended replaced p = p := by
          refine if_neg fun ⟨hreplaced, hchange⟩ => ?_
          rw [hkept hleader ⟨p, hp, hchange⟩] at hreplaced
          exact absurd hreplaced Bool.false_ne_true
        rw [hsame]
        rw [htaken] at hp
        obtain rfl := Option.some.inj hp
        exact Submission.carries (p := ⟨0, syncId, request⟩) hcommand hconf hsize
  | forward sent leaderId syncId failure command =>
    obtain rfl := Option.some.inj hstep
    obtain ⟨rfl, hsent⟩ := hanswerable
    rw [forwardToLeader_cases s.node hsent]
    exact h.called hlawful.1 rfl (fun hresult => absurd rfl hresult)
      fun _ p hp => absurd hp (by simp)
  | cleanUp syncId =>
    rw [ProposalWaiters.step, Option.ite_none_right_eq_some, Option.some.injEq] at hstep
    obtain ⟨-, rfl⟩ := hstep
    exact h.cleanUp syncId
  | append payload =>
    rw [ProposalWaiters.step, Option.ite_none_right_eq_some, Option.some.injEq] at hstep
    obtain ⟨-, rfl⟩ := hstep
    exact h.append payload
  | follow keep entries =>
    rw [ProposalWaiters.step, Option.ite_none_right_eq_some, Option.some.injEq] at hstep
    obtain ⟨⟨hfollows, hkeep, hle⟩, rfl⟩ := hstep
    refine ⟨?_, h.failed, h.led, fun call hcall hled _ => absurd (h.led call hcall hled) hfollows⟩
    simp only [List.length_append, List.length_take]
    omega
  | lead =>
    obtain rfl := Option.some.inj hstep
    exact ⟨h.bound, h.failed, fun _ _ _ => rfl, h.carried⟩
  | stepDown =>
    obtain rfl := Option.some.inj hstep
    refine ⟨h.bound, fun call hcall hresult hwaits => ?_, fun call hcall hled => ?_,
      fun call hcall hled => ?_⟩
    all_goals obtain ⟨call', hcall', rfl⟩ := List.mem_map.mp hcall
    · exact h.failed call' hcall' hresult hwaits
    · exact absurd hled (by simp)
    · exact absurd hled (by simp)
  | apply io entry =>
    rw [ProposalWaiters.step, Option.ite_none_right_eq_some] at hstep
    obtain ⟨hentry, hstep⟩ := hstep
    split at hstep
    · next node happly =>
      obtain rfl := Option.some.inj hstep
      exact h.apply hentry happly
    · exact absurd hstep (by simp)

/-- In every run in which each call is answerable, no waiter is stranded. The text of a command is
never empty, and neither is the encoding of a configuration change that has a context. -/
theorem noneStranded_of_answerable (hcommand : ∀ command : Command, SerdeJson.toVec command ≠ [])
    (hconf : ∀ cc : ConfChange, cc.context ≠ [] → ProstMessage.encodeToVec cc ≠ [])
    (config : RaftNodeConfig) (peers : Peers) (stateMachine : σ) (confState : ConfState) (store : S)
    (log : List Payload) {ops : List (WaiterOp Command)} {s : ProposalWaiters σ Event S}
    (hlawful : Along ProposalWaiters.step Lawful
      (start config peers stateMachine confState store log) ops)
    (hanswerable : Along ProposalWaiters.step Answerable
      (start config peers stateMachine confState store log) ops)
    (hrun : run ProposalWaiters.step (start config peers stateMachine confState store log) ops =
      some s) : s.NoneStranded := by
  refine Answering.noneStranded ?_
  refine run_induction (C := fun s op => s.Lawful op ∧ s.Answerable op)
    (fun s op s' h hop hstep => h.step hcommand hconf hop.1 hop.2 hstep) ?_
    (hlawful.and hanswerable) hrun
  refine ⟨Nat.zero_le _, ?_, ?_, ?_⟩
  all_goals exact fun call hcall => absurd hcall List.not_mem_nil

end ProposalWaiters

end

namespace ProposalWaiters

section
open scoped Codec

/-- A node of a key-value cluster over a new storage. -/
def kvWaiters : ProposalWaiters KvStateMachine KvEvent RocksDBStorage :=
  start {} (fun _ => none) ({} : KvStateMachine) { voters := [1] } ⟨{}, 1, 0⟩ []

/-- The entry that adds a node. -/
def additionEntry (syncId nodeId : ℕ) (address : String) : Entry :=
  { entryType := .entryConfChange
    data := ProstMessage.encodeToVec
      ({ changeType := .addNode, nodeId,
         context := U64.toLeBytes syncId ++ SerdeJson.toVec ({ address } : NodeMetadata) } :
        ConfChange) }

/-- raft-rs applies every configuration change. -/
def appliesAll : ReadyIo := { applyConfChange := fun _ => .ok { voters := [1, 2] } }

/-- The node is elected, and its raft appends an empty entry. -/
def elected : List (WaiterOp KvCommand) :=
  [.lead, .append (.normal [] []), .apply appliesAll {}]

/-- Two nodes are added one after the other. -/
def addedInTurn : List (WaiterOp KvCommand) :=
  elected ++ [.call ProposalCluster.takesAll false 7 none (.addNode 2 "b"),
   .apply appliesAll (additionEntry 7 2 "b"),
   .call ProposalCluster.takesAll false 9 none (.addNode 3 "c"),
   .apply appliesAll (additionEntry 9 3 "c")]

theorem noneStranded_added_in_turn : ∃ s, run ProposalWaiters.step kvWaiters addedInTurn = some s ∧
    s.applied = 3 ∧ s.NoneStranded := by
  have hcommand : ∀ command : KvCommand, SerdeJson.toVec command ≠ [] := by
    intro command
    cases command with
    | set key value => exact List.append_ne_nil_of_left_ne_nil (by decide) _
    | delete key => exact List.append_ne_nil_of_left_ne_nil (by decide) _
  have hconf : ∀ cc : ConfChange, cc.context ≠ [] → ProstMessage.encodeToVec cc ≠ [] := by
    intro cc hcontext
    have hfield : Wire.bytesField 0x22 cc.context ≠ [] := by simp [Wire.bytesField, hcontext]
    exact List.append_ne_nil_of_right_ne_nil _ (List.append_ne_nil_of_right_ne_nil _ hfield)
  have happlied : (run ProposalWaiters.step kvWaiters addedInTurn).map ProposalWaiters.applied =
      some 3 := by decide
  obtain ⟨s, hrun, hs⟩ := Option.map_eq_some_iff.mp happlied
  exact ⟨s, hrun, hs, noneStranded_of_answerable hcommand hconf _ _ _ _ _ _
    (by decide : Along ProposalWaiters.step Lawful kvWaiters addedInTurn) (by decide) hrun⟩

/-- The second node is added before the first is applied. -/
def addedAtOnce : List (WaiterOp KvCommand) :=
  elected ++ [.call ProposalCluster.takesAll false 7 none (.addNode 2 "b"),
   .call ProposalCluster.takesAll true 9 none (.addNode 3 "c"),
   .apply appliesAll (additionEntry 7 2 "b"), .apply appliesAll {}]

/-- The caller that adds the second node waits for ever, and so does one whose proposal cannot be
sent to the leader. -/
theorem stranded_added_at_once :
    (∃ s, Along ProposalWaiters.step Lawful kvWaiters addedAtOnce ∧
      run ProposalWaiters.step kvWaiters addedAtOnce = some s ∧ s.applied = s.log.length ∧
      s.leader ∧ s.node.pendingProposals 9 ∧ ¬ s.NoneStranded) ∧
    ∃ s, run ProposalWaiters.step kvWaiters [.forward (.ok ()) 2 9 none (KvCommand.set "a" "b")] =
        some s ∧ s.cleanups = [] ∧ s.node.pendingProposals 9 ∧ ¬ s.NoneStranded := by
  constructor
  · have hview : (run ProposalWaiters.step kvWaiters addedAtOnce).map (fun s =>
        ((s.applied, s.log.length), (s.leader, s.node.pendingProposals 9),
          s.calls.map fun call => (call.syncId, call.ledSince))) =
        some ((3, 3), (true, true), [(7, true), (9, true)]) := by decide
    obtain ⟨s, hrun, hs⟩ := Option.map_eq_some_iff.mp hview
    simp only [Prod.mk.injEq] at hs
    obtain ⟨⟨happlied, hlength⟩, ⟨hleader, hwaits⟩, hcalls⟩ := hs
    refine ⟨s, by decide, hrun, by rw [happlied, hlength], hleader, hwaits, fun h => ?_⟩
    obtain ⟨call, hcall, hid⟩ : ∃ call ∈ s.calls, (call.syncId, call.ledSince) = (9, true) := by
      rw [← List.mem_map, hcalls]
      simp
    have hanswered := h.applied (by rw [happlied, hlength]) call hcall (Prod.mk.inj hid).2
    rw [(Prod.mk.inj hid).1, hwaits] at hanswered
    exact absurd hanswered (by simp)
  · refine ⟨_, rfl, rfl, rfl, fun h => ?_⟩
    have hfailed := h.failed _ (List.mem_singleton_self _) (fun hok => by cases hok) rfl
    exact absurd hfailed List.not_mem_nil

end

end ProposalWaiters

end Raftoral

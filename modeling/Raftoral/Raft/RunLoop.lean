import Raftoral.Raft.Codec
import Raftoral.Raft.OnReady
import Raftoral.Raft.StorageLog

/-!
# The event loops of a node

`run` owns its node; `run_from_arc` shares it, so the calls of the upper layer (`propose`,
`add_node`, `remove_node`, ...) come between two of its rounds. The registry of peers is
shared with the other clusters of the process in both cases.

A loop is modelled over what it is told, turn by turn: it is still running after a list of
turns, it returned because the mailbox was closed, or it returned an error. The last
section says when it keeps running: an error of a message, a configuration change or a send
reaches the loop with `?` and ends it.
-/

namespace Raftoral

namespace RaftNode

variable {σ Command Event S : Type}

/-! ## The calls of the upper layer -/

/-- Somebody waits for the sync id. -/
def track (syncId : ℕ) (n : RaftNode σ Event S) : RaftNode σ Event S :=
  { n with pendingProposals := Function.update n.pendingProposals syncId true }

/-- What the task does that is spawned when a proposal is refused. -/
def forget (syncId : ℕ) (n : RaftNode σ Event S) : RaftNode σ Event S :=
  { n with pendingProposals := Function.update n.pendingProposals syncId false }

def registerForwardedProposal (syncId : ℕ) (n : RaftNode σ Event S) : RaftNode σ Event S :=
  n.track syncId

/-- What the caller is told about an answer of raft-rs. -/
def callResult (what : String) (answer : Except String Unit) : Except String Unit :=
  answer.mapError fun e => s!"Failed to {what}: {e}"

def campaign (answer : Except String Unit) : Except String Unit := callResult "campaign" answer

def propose [SerdeJson Command] (answers : RaftAnswers) (syncId : ℕ) (command : Command)
    (n : RaftNode σ Event S) : Except String Unit × RaftNode σ Event S :=
  (callResult "propose" (answers.propose (U64.toLeBytes syncId) (SerdeJson.toVec command)),
    n.track syncId)

/-- The new peer is registered as soon as raft-rs takes the proposal. -/
def addNode [SerdeJson NodeMetadata] (answers : RaftAnswers) (syncId nodeId : ℕ) (address : String)
    (n : RaftNode σ Event S) : Except String Unit × RaftNode σ Event S :=
  let context := U64.toLeBytes syncId ++ SerdeJson.toVec ({ address } : NodeMetadata)
  let n := n.track syncId
  match answers.proposeConfChange { changeType := .addNode, nodeId, context } with
  | .ok () => (.ok (), { n with peers := TransportLayer.addPeer n.peers nodeId address })
  | .error e => (callResult "propose conf change" (.error e), n)

def removeNode (answers : RaftAnswers) (syncId nodeId : ℕ) (n : RaftNode σ Event S) :
    Except String Unit × RaftNode σ Event S :=
  let context := U64.toLeBytes syncId
  (callResult "propose conf change"
    (answers.proposeConfChange { changeType := .removeNode, nodeId, context }), n.track syncId)

inductive Call (Command : Type) where
  | propose (answers : RaftAnswers) (syncId : ℕ) (command : Command)
  | registerForwardedProposal (syncId : ℕ)
  | campaign (answer : Except String Unit)
  | addNode (answers : RaftAnswers) (syncId nodeId : ℕ) (address : String)
  | removeNode (answers : RaftAnswers) (syncId nodeId : ℕ)
  | forget (syncId : ℕ)

/-- The node after a call. An error goes to the caller. -/
def perform [SerdeJson Command] [SerdeJson NodeMetadata] (n : RaftNode σ Event S) :
    Call Command → RaftNode σ Event S
  | .propose answers syncId command => (n.propose answers syncId command).2
  | .registerForwardedProposal syncId => n.registerForwardedProposal syncId
  | .campaign _ => n
  | .addNode answers syncId nodeId address => (n.addNode answers syncId nodeId address).2
  | .removeNode answers syncId nodeId => (n.removeNode answers syncId nodeId).2
  | .forget syncId => n.forget syncId

/-! ## Messages -/

/-- The context of a forwarded proposal. -/
def forwardedContext (syncId : ℕ) : Bytes := if syncId ≠ 0 then U64.toLeBytes syncId else []

/-- An answer of raft-rs passed on with `?`. -/
def raise (answer : Except String Unit) : Step (RaftNode σ Event S) NodeError := fun n =>
  match answer with
  | .ok () => (.next, n)
  | .error e => (.failed (.raft e), n)

def handleRaftMessage [ProstMessage Message] (answers : RaftAnswers) (msg : GenericMessage) :
    Step (RaftNode σ Event S) NodeError := fun n =>
  match msg.message with
  | none => (.failed (.message "GenericMessage missing message field"), n)
  | some (.raftMessage bytes) =>
    match (ProstMessage.decode bytes : Except String Message) with
    | .error e => (.failed (.decode e), n)
    | .ok raftMsg => raise (answers.step raftMsg) n
  | some (.propose commandJson syncId) =>
    raise (answers.propose (forwardedContext syncId) commandJson) n
  -- other message types should come via method calls and are ignored
  | some (.confChange _ _) | some .campaign | some (.addNode _ _ _) | some (.removeNode _ _) =>
    (.next, n)

/-! ## The loops -/

/-- What `select!` gives a turn of `run`. -/
inductive Received where
  | tick
  | message (answers : RaftAnswers) (msg : GenericMessage)
  | closed

/-- One turn of `run`. `others` is what the rest of the process did to the peers before it. -/
structure Turn where
  others : Peers → Peers := id
  received : Received := .tick
  io : ReadyIo

/-- One round of `run_from_arc`: the calls and the rest of the process come first, then the
messages `try_recv` finds in the mailbox. -/
structure Round (Command : Type) where
  calls : List (Call Command) := []
  others : Peers → Peers := id
  messages : List (RaftAnswers × GenericMessage) := []
  disconnected : Bool := false
  io : ReadyIo

/-- The node when a turn starts. -/
def beforeTurn (t : Turn) (n : RaftNode σ Event S) : RaftNode σ Event S :=
  { n with peers := t.others n.peers }

/-- The node when a round starts. -/
def beforeRound [SerdeJson Command] [SerdeJson NodeMetadata] (r : Round Command)
    (n : RaftNode σ Event S) : RaftNode σ Event S :=
  r.calls.foldl perform { n with peers := r.others n.peers }

/-- Take what `select!` gives. A closed mailbox ends the loop. -/
def receive [ProstMessage Message] (received : Received) : Step (RaftNode σ Event S) NodeError :=
  match received with
  | .tick => Step.skip
  | .message answers msg => handleRaftMessage answers msg
  | .closed => fun n => (.returned, n)

/-- Take what `try_recv` gives. -/
def receiveAll [ProstMessage Message] (messages : List (RaftAnswers × GenericMessage))
    (disconnected : Bool) : Step (RaftNode σ Event S) NodeError :=
  Step.block [Step.forEach messages fun m => handleRaftMessage m.1 m.2,
    if disconnected then fun n => (.returned, n) else Step.skip]

section
variable [ProstMessage ConfChange] [SerdeJson NodeMetadata] [StateMachine σ Command Event]
  [SerdeJson Command] [RaftStorage S]

/-- The body of both loops: what happened in between, the messages, and the ready. -/
def loopBody (before : RaftNode σ Event S → RaftNode σ Event S)
    (messages : Step (RaftNode σ Event S) NodeError) (io : ReadyIo) :
    Step (RaftNode σ Event S) NodeError :=
  Step.block [Step.modify before, messages, Step.call (onReady io)]

/-- `run` over the turns so far. -/
def run [ProstMessage Message] (turns : List Turn) : Step (RaftNode σ Event S) NodeError :=
  Step.forEach turns fun t => loopBody (beforeTurn t) (receive t.received) t.io

/-- `run_from_arc` over the rounds so far. -/
def runFromArc [ProstMessage Message] (rounds : List (Round Command)) :
    Step (RaftNode σ Event S) NodeError :=
  Step.forEach rounds fun r => loopBody (beforeRound r) (receiveAll r.messages r.disconnected) r.io

end

/-! ## Messages, from the loop's side -/

theorem raise_snd (answer : Except String Unit) (n : RaftNode σ Event S) :
    (raise answer n).2 = n := by
  cases answer <;> rfl

theorem raise_next_iff (answer : Except String Unit) (n : RaftNode σ Event S) :
    (raise answer n).1 = .next ↔ answer = .ok () := by
  cases answer <;> simp [raise]

section
variable [ProstMessage Message]

/-- The message can be read and raft-rs takes it. -/
def Handled (answers : RaftAnswers) (msg : GenericMessage) : Prop :=
  match msg.message with
  | none => False
  | some (.raftMessage bytes) =>
    ∃ raftMsg, ProstMessage.decode bytes = .ok raftMsg ∧ answers.step raftMsg = .ok ()
  | some (.propose commandJson syncId) =>
    answers.propose (forwardedContext syncId) commandJson = .ok ()
  | some (.confChange _ _) | some .campaign | some (.addNode _ _ _) | some (.removeNode _ _) => True

def Received.Handled : Received → Prop
  | .tick | .closed => True
  | .message answers msg => RaftNode.Handled answers msg

/-- A message changes nothing of the node. -/
theorem handleRaftMessage_snd (answers : RaftAnswers) (msg : GenericMessage)
    (n : RaftNode σ Event S) : (handleRaftMessage answers msg n).2 = n := by
  unfold handleRaftMessage
  rcases msg.message with _ | _ | bytes | _ | _ | _ | _
  case some.raftMessage =>
    dsimp only
    cases (ProstMessage.decode bytes : Except String Message) with
    | error e => rfl
    | ok raftMsg => exact raise_snd _ n
  case some.propose => exact raise_snd _ n
  all_goals rfl

theorem handleRaftMessage_next_iff (answers : RaftAnswers) (msg : GenericMessage)
    (n : RaftNode σ Event S) :
    (handleRaftMessage answers msg n).1 = .next ↔ Handled answers msg := by
  unfold handleRaftMessage Handled
  rcases msg.message with _ | _ | bytes | _ | _ | _ | _
  case none => simp
  case some.raftMessage =>
    dsimp only
    cases (ProstMessage.decode bytes : Except String Message) with
    | error e => simp
    | ok raftMsg => simpa using raise_next_iff (answers.step raftMsg) n
  case some.propose => exact raise_next_iff _ n
  all_goals simp

theorem receive_snd (received : Received) (n : RaftNode σ Event S) :
    (receive received n).2 = n := by
  cases received with
  | tick => rfl
  | closed => rfl
  | message answers msg => exact handleRaftMessage_snd answers msg n

theorem receive_next_iff {received : Received} (hopen : received ≠ .closed)
    (n : RaftNode σ Event S) : (receive received n).1 = .next ↔ received.Handled := by
  cases received with
  | tick => simp [receive, Received.Handled, Step.skip]
  | closed => exact absurd rfl hopen
  | message answers msg => exact handleRaftMessage_next_iff answers msg n

theorem forEach_handle_snd (messages : List (RaftAnswers × GenericMessage))
    (n : RaftNode σ Event S) :
    (Step.forEach messages (fun m => handleRaftMessage m.1 m.2) n).2 = n := by
  refine Step.forEach_keeps id ?_ n
  intro m _ n
  exact handleRaftMessage_snd m.1 m.2 n

theorem receiveAll_snd (messages : List (RaftAnswers × GenericMessage)) (disconnected : Bool)
    (n : RaftNode σ Event S) : (receiveAll messages disconnected n).2 = n := by
  have hmsgs := forEach_handle_snd messages n
  unfold receiveAll
  rcases h : Step.forEach messages (fun m => handleRaftMessage m.1 m.2) n with ⟨_ | _ | e, n'⟩
  · rw [h] at hmsgs
    rw [Step.block_cons_of_next h]
    cases disconnected <;> exact hmsgs
  · rw [Step.block_cons_of_returned h, ← h, hmsgs]
  · rw [Step.block_cons_of_failed h, ← h, hmsgs]

theorem forEach_handle_next_iff (messages : List (RaftAnswers × GenericMessage))
    (n : RaftNode σ Event S) :
    (Step.forEach messages (fun m => handleRaftMessage m.1 m.2) n).1 = .next ↔
      ∀ m ∈ messages, Handled m.1 m.2 := by
  induction messages with
  | nil => simp
  | cons m messages ih =>
    have hm := handleRaftMessage_next_iff m.1 m.2 n
    have hsnd := handleRaftMessage_snd m.1 m.2 n
    rw [List.forall_mem_cons, ← hm, ← ih]
    rcases h : handleRaftMessage m.1 m.2 n with ⟨_ | _ | e, n'⟩
    · obtain rfl : n' = n := by rwa [h] at hsnd
      rw [Step.forEach, List.map_cons, Step.block_cons_of_next h, ← Step.forEach]
      simp
    · rw [Step.forEach, List.map_cons, Step.block_cons_of_returned h]
      simp
    · rw [Step.forEach, List.map_cons, Step.block_cons_of_failed h]
      simp

theorem receiveAll_next_iff (messages : List (RaftAnswers × GenericMessage))
    (n : RaftNode σ Event S) :
    (receiveAll messages false n).1 = .next ↔ ∀ m ∈ messages, Handled m.1 m.2 := by
  rw [← forEach_handle_next_iff messages n]
  unfold receiveAll
  rcases h : Step.forEach messages (fun m => handleRaftMessage m.1 m.2) n with ⟨_ | _ | e, n'⟩
  · rw [Step.block_cons_of_next h]
    simp [Step.skip, Step.block]
  · rw [Step.block_cons_of_returned h]
  · rw [Step.block_cons_of_failed h]

end

/-- What a call of the upper layer leaves alone. -/
structure CallFrame (n n' : RaftNode σ Event S) : Prop where
  store : n'.store = n.store
  stateMachine : n'.stateMachine = n.stateMachine
  currentRole : n'.currentRole = n.currentRole
  committedIndex : n'.committedIndex = n.committedIndex
  snapshotInterval : n'.snapshotInterval = n.snapshotInterval
  lastSnapshotIndex : n'.lastSnapshotIndex = n.lastSnapshotIndex
  trace : n'.trace = n.trace

section
variable [SerdeJson Command] [SerdeJson NodeMetadata]

/-- A call only touches the peers and the sync ids somebody waits for. -/
theorem perform_frame (n : RaftNode σ Event S) (c : Call Command) : CallFrame n (n.perform c) := by
  cases c with
  | addNode answers syncId nodeId address =>
    simp only [perform, addNode]
    split <;> exact ⟨rfl, rfl, rfl, rfl, rfl, rfl, rfl⟩
  | _ => exact ⟨rfl, rfl, rfl, rfl, rfl, rfl, rfl⟩

theorem beforeRound_trace (r : Round Command) (n : RaftNode σ Event S) :
    (n.beforeRound r).trace = n.trace := by
  have hcalls : ∀ (calls : List (Call Command)) (m : RaftNode σ Event S),
      (calls.foldl perform m).trace = m.trace := by
    intro calls
    induction calls with
    | nil => exact fun _ => rfl
    | cons c calls ih => exact fun m => (ih (m.perform c)).trans (perform_frame m c).trace
  exact hcalls r.calls _

end

/-! ## When a loop keeps running -/

/-- No storage operation has failed. -/
def NoStorageFault (n : RaftNode σ Event S) : Prop := ∀ e, Effect.storageFailed e ∉ n.trace

theorem NoStorageFault.of_extends {p : Effect Event S → Prop} {n n' : RaftNode σ Event S}
    (h : NoStorageFault n') (hext : Extends p n n') : NoStorageFault n := by
  intro e he
  obtain ⟨δ, hδ, -⟩ := hext
  exact h e (by rw [hδ]; exact List.mem_append_left δ he)

section
variable [ProstMessage ConfChange] [SerdeJson NodeMetadata] [StateMachine σ Command Event]
  [SerdeJson Command] [RaftStorage S]

/-- Every configuration change of the ready is accepted, and every message it hands out is
sent. A call that returns for a pre-candidate sends none. -/
def Served (io : ReadyIo) (n : RaftNode σ Event S) : Prop :=
  io.hasReady → AcceptsReady io ∧ (AnnouncesPreCandidate io n.currentRole ∨
    CanSend io (peersAfter io.ready.committedEntries n.peers) ∧ AcceptsLight io)

/-- A call whose storage operations succeed ends well exactly when the ready can be served. -/
theorem onReady_isOk_iff {io : ReadyIo} {n : RaftNode σ Event S}
    (hgood : NoStorageFault (onReady io n).2) : (onReady io n).1.isOk ↔ Served io n := by
  by_cases hready : io.hasReady
  · have hrun := onReady_run hready n
    generalize (onReady io n).1 = out at hrun
    generalize (onReady io n).2 = n' at hrun hgood
    -- without a fault of the storage a call fails only where raft or a peer refuses
    cases hrun with
    | takeFailed err n' h =>
      obtain ⟨δ, hδ, -, hfault⟩ := h.trace
      refine ⟨fun hok => absurd hok Bool.false_ne_true, fun hs => ?_⟩
      obtain ⟨e, he⟩ := hfault (hs hready).1
      exact absurd (by rw [hδ]; exact List.mem_append_right _ he) (hgood e)
    | preCandidate n' take pre => exact ⟨fun _ _ => ⟨take.accepts, Or.inl pre⟩, fun _ => rfl⟩
    | sendingFailed err n' h =>
      refine ⟨fun hok => absurd hok Bool.false_ne_true, fun hs => ?_⟩
      rcases (hs hready).2 with hpre | hsend
      · exact absurd hpre h.noPreCandidate
      · obtain ⟨e, he⟩ := h.fault hsend.1 hsend.2
        exact absurd he (hgood e)
    | snapshotFailed n₁ err n' before h =>
      cases h with
      | failed data s e due hstore => exact absurd (by simp [emit]) (hgood e)
    | finished n₁ n₂ n' before snap watch =>
      exact ⟨fun _ _ => ⟨before.accepts, Or.inr ⟨before.canSend, before.acceptsLight⟩⟩,
        fun _ => rfl⟩
  · rw [onReady, if_neg hready]
    exact ⟨fun _ h => absurd h hready, fun _ => rfl⟩

theorem loopBody_next_iff {before : RaftNode σ Event S → RaftNode σ Event S}
    {messages : Step (RaftNode σ Event S) NodeError} {io : ReadyIo} {n : RaftNode σ Event S}
    (hsnd : (messages (before n)).2 = before n)
    (hgood : NoStorageFault (loopBody before messages io n).2) :
    (loopBody before messages io n).1 = .next ↔
      (messages (before n)).1 = .next ∧ Served io (before n) := by
  unfold loopBody at hgood ⊢
  rw [Step.block_cons_of_next (show Step.modify before n = (.next, before n) from rfl)] at hgood ⊢
  -- the messages come first: if one stops the loop, `on_ready` is not called
  rcases h : messages (before n) with ⟨_ | _ | e, n'⟩
  · obtain rfl : n' = before n := by rwa [h] at hsnd
    rw [Step.block_cons_of_next h] at hgood ⊢
    have hlast : Step.block [Step.call (onReady io)] (before n) =
        Step.call (onReady io) (before n) := by
      rcases hcall : Step.call (onReady io) (before n) with ⟨_ | _ | e, n'⟩ <;>
        simp [Step.block, hcall]
    rw [hlast, Step.call_snd] at hgood
    rw [hlast, Step.call_next_iff, onReady_isOk_iff hgood]
    simp
  · rw [Step.block_cons_of_returned h]
    simp
  · rw [Step.block_cons_of_failed h]
    simp

/-- The body of a loop only appends to the trace. -/
theorem loopBody_extends {before : RaftNode σ Event S → RaftNode σ Event S}
    {messages : Step (RaftNode σ Event S) NodeError} {io : ReadyIo}
    (hbefore : ∀ n, (before n).trace = n.trace) (hsnd : ∀ n, (messages n).2 = n)
    (n : RaftNode σ Event S) : Extends (fun _ => True) n (loopBody before messages io n).2 := by
  refine Step.block_rel Extends.refl (fun _ _ _ => Extends.trans) ?_ n
  intro step hstep m
  simp only [List.mem_cons, List.not_mem_nil, or_false] at hstep
  rcases hstep with rfl | rfl | rfl
  · exact Extends.of_trace_eq (hbefore m)
  · exact Extends.of_trace_eq (by rw [hsnd])
  · rw [Step.call_snd]
    exact onReady_extends io m

/-- A turn is clean: its message is handled and its ready is served. -/
def Turn.Clean [ProstMessage Message] (n : RaftNode σ Event S) (t : Turn) : Prop :=
  t.received.Handled ∧ Served t.io (n.beforeTurn t)

/-- A round is clean: its messages are handled and its ready is served. -/
def Round.Clean [ProstMessage Message] (n : RaftNode σ Event S) (r : Round Command) : Prop :=
  (∀ m ∈ r.messages, Handled m.1 m.2) ∧ Served r.io (n.beforeRound r)

/-- With an open mailbox and a storage that does not fail, a loop is still running exactly
when everything it was told so far was clean. -/
theorem loops_keep_running_iff [ProstMessage Message] (n : RaftNode σ Event S) :
    (∀ turns : List Turn, (∀ t ∈ turns, t.received ≠ .closed) →
      NoStorageFault (run turns n).2 →
      ((run turns n).1 = .next ↔ Transition.Along
        (fun n t => Step.goOn (loopBody (beforeTurn t) (receive t.received) t.io) n)
        Turn.Clean n turns)) ∧
    ∀ rounds : List (Round Command), (∀ r ∈ rounds, r.disconnected = false) →
      NoStorageFault (runFromArc rounds n).2 →
      ((runFromArc rounds n).1 = .next ↔ Transition.Along
        (fun n r => Step.goOn
          (loopBody (beforeRound r) (receiveAll r.messages r.disconnected) r.io) n)
        Round.Clean n rounds) := by
  constructor
  · intro turns hopen hgood
    refine Step.forEach_next_iff_along ?_ ?_ hgood
    · intro t n hgood
      have hbefore : ∀ m : RaftNode σ Event S, (m.beforeTurn t).trace = m.trace := fun _ => rfl
      exact hgood.of_extends (loopBody_extends hbefore (receive_snd t.received) n)
    · intro t ht n hgood
      rw [loopBody_next_iff (receive_snd t.received _) hgood, receive_next_iff (hopen t ht)]
      rfl
  · -- the second loop differs in what it does before the messages
    intro rounds hopen hgood
    refine Step.forEach_next_iff_along ?_ ?_ hgood
    · intro r n hgood
      exact hgood.of_extends (loopBody_extends (beforeRound_trace r)
        (receiveAll_snd r.messages r.disconnected) n)
    · intro r hr n hgood
      rw [loopBody_next_iff (receiveAll_snd r.messages r.disconnected _) hgood, hopen r hr,
        receiveAll_next_iff]
      rfl

end

section
open scoped Codec

/-- A node of a two node cluster, without snapshots. -/
def workerNode (store : RocksDBStorage) : RaftNode KvStateMachine KvEvent RocksDBStorage :=
  newWithConfState { snapshotInterval := 0 } (Function.update (fun _ => none) 2 (some "node2")) {}
    { voters := [1, 2] } store

/-- raft-rs takes everything. -/
def willing : RaftAnswers where
  step _ := .ok ()
  propose _ _ := .ok ()
  proposeConfChange _ := .ok ()

/-- A ready with a heartbeat for a node. -/
def heartbeatReady (target : ℕ) : ReadyIo where
  ready := { messages := [{ msgType := 8, target, sender := 1, term := 1 }] }
  applyConfChange _ := .error "no configuration change"

/-- What a heartbeat leaves in the trace. -/
def heartbeatTrace (target : ℕ) : List (Effect KvEvent RocksDBStorage) :=
  [.send { msgType := 8, target, sender := 1, term := 1 }, .advanceAppend, .advanceApply]

theorem heartbeat_served (store : RocksDBStorage) :
    Served (heartbeatReady 2) (workerNode store) := by
  intro _
  refine ⟨fun e he => absurd he List.not_mem_nil, Or.inr ⟨⟨?_, ?_, ?_⟩, ?_⟩⟩
  · intro m hm
    rw [heartbeatReady, List.zipIdx_singleton, List.mem_singleton] at hm
    exact hm ▸ ⟨rfl, rfl⟩
  all_goals exact fun m hm => absurd hm List.not_mem_nil

/-- A node that is sent a forwarded proposal, or a message it ignores, and heartbeats a
registered peer runs on. -/
theorem loops_keep_running_two_nodes :
    ∃ store, (createStorage Faults.none {} { voters := [1, 2] } {}).1 = .ok store ∧
      (run [⟨id, .message willing { message := some (.propose [0x7b, 0x7d] 7) }, heartbeatReady 2⟩]
        (workerNode store)).1 = .next ∧
      (runFromArc [⟨[], id, [(willing, { message := some .campaign })], false, heartbeatReady 2⟩]
        (workerNode store)).1 = .next := by
  obtain ⟨store, hopen, -⟩ := open_fresh_represents 1 { voters := [1, 2] }
  have hserved := heartbeat_served store
  refine ⟨store, hopen, ?_, ?_⟩
  · refine ((loops_keep_running_iff (workerNode store)).1 _ ?_ ?_).mpr ⟨⟨rfl, hserved⟩, by simp⟩
    · simp
    · intro e he
      have : Effect.storageFailed e ∈ heartbeatTrace 2 := he
      simp [heartbeatTrace] at this
  · refine ((loops_keep_running_iff (workerNode store)).2 _ ?_ ?_).mpr
      ⟨⟨by simp [Handled], hserved⟩, by simp⟩
    · simp
    · intro e he
      have : Effect.storageFailed e ∈ heartbeatTrace 2 := he
      simp [heartbeatTrace] at this

/-- One envelope without a message ends `run`, and one heartbeat to a node that was removed
from the registry ends `run_from_arc`; the mailbox is open and the storage works. -/
theorem loops_stopped_by_peer :
    ∃ store, (createStorage Faults.none {} { voters := [1, 2] } {}).1 = .ok store ∧
      (run [⟨id, .message willing {}, heartbeatReady 2⟩] (workerNode store)).1 =
        .failed (.message "GenericMessage missing message field") ∧
      NoStorageFault (run [⟨id, .message willing {}, heartbeatReady 2⟩] (workerNode store)).2 ∧
      (runFromArc [⟨[], id, [], false, heartbeatReady 3⟩] (workerNode store)).1 =
        .failed (.transport (.peerNotFound 3)) ∧
      NoStorageFault (runFromArc [⟨[], id, [], false, heartbeatReady 3⟩] (workerNode store)).2 := by
  obtain ⟨store, hopen, -⟩ := open_fresh_represents 1 { voters := [1, 2] }
  refine ⟨store, hopen, rfl, fun e he => absurd he List.not_mem_nil, rfl, ?_⟩
  intro e he
  have : Effect.storageFailed e ∈ ([.send { msgType := 8, target := 3, sender := 1, term := 1 }] :
    List (Effect KvEvent RocksDBStorage)) := he
  simp at this

end

end RaftNode

end Raftoral

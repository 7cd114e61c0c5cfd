import Raftoral.Lib.Channel
import Raftoral.Raft.MessageCodec
import Raftoral.Raft.Transport

/-!
# Messages between nodes

The way of a message through `raft/generic/transport.rs`, the clients and servers of `grpc` and
`http`, and `raft/generic/cluster_router.rs`. The transport of a node looks up the address of the
peer, the client of the protocol sends the message to the server at that address, and the router
of the node there puts it in the mailbox of the message's cluster, waiting while that is full.

Any number of tasks make calls at the same time. A connection may break at any point; the caller
is then told so, while the handler of the request may go on or be dropped.
-/

namespace Raftoral

/-- What the nodes talk. -/
inductive Protocol where
  | grpc
  | http
deriving DecidableEq, Repr

/-- `format!("{:?}", e)`. -/
def RoutingError.debug : RoutingError → String
  | .clusterNotFound clusterId => s!"ClusterNotFound \x7b cluster_id: {clusterId} \x7d"
  | .routeFailed clusterId reason =>
    s!"RouteFailed \x7b cluster_id: {clusterId}, reason: {reason.quote} \x7d"
  | .mailboxFull clusterId => s!"MailboxFull \x7b cluster_id: {clusterId} \x7d"
  | .other reason => s!"Other({reason.quote})"

namespace Protocol

/-- What the caller is told when no connection comes about, be it that the address is none. -/
def unreachable : Protocol → String → Bool → String → TransportError
  | .grpc, address, true, reason => .other s!"Invalid endpoint {address}: {reason}"
  | .grpc, address, false, reason => .other s!"Connection failed to {address}: {reason}"
  | .http, _, _, reason => .other s!"HTTP request failed: {reason}"

/-- What the caller is told when the request breaks off. -/
def broken : Protocol → String → TransportError
  | .grpc, status => .sendFailed 0 s!"gRPC error: {status}"
  | .http, reason => .other s!"HTTP request failed: {reason}"

/-- What the caller is told when the router refuses the message. -/
def refused : Protocol → RoutingError → TransportError
  | .grpc, e => .sendFailed 0 e.debug
  | .http, _ => .other "HTTP request returned status 500 Internal Server Error"

section
variable [ProstMessage GenericMessage] [SerdeJson JsonGenericMessage]

/-- The message as the server reads it from the request. -/
def carry : Protocol → GenericMessage → Except String GenericMessage
  | .grpc, message => ProstMessage.decode (ProstMessage.encodeToVec message)
  | .http, message =>
    (SerdeJson.fromSlice
      (SerdeJson.toVec (⟨ProstMessage.encodeToVec message⟩ : JsonGenericMessage))).bind
      fun body : JsonGenericMessage => ProstMessage.decode body.messageBytes

/-- Both protocols carry every message unchanged. -/
@[simp] theorem carry_eq (protocol : Protocol) (message : GenericMessage) :
    protocol.carry message = .ok message := by
  cases protocol with
  | grpc => exact ProstMessage.decode_encodeToVec message
  | http =>
    rw [carry, SerdeJson.fromSlice_toVec]
    exact ProstMessage.decode_encodeToVec message

end

end Protocol

/-! ## Calls -/

/-- The side of the caller. -/
inductive Client where
  | connecting
  | waiting
  | returned (result : Except TransportError Unit)

/-- The side of the server: where `route_message` has got to. -/
inductive Handler where
  | idle
  /-- The sender of a mailbox of a node was looked up, and `send` waits. -/
  | holding (nodeId : ℕ) (tx : Mailbox) (message : GenericMessage)
  | delivered (nodeId : ℕ) (tx : Mailbox)
  | refused (e : RoutingError)
  | dropped
deriving DecidableEq, Repr

/-- A call of `send_message`, made by a task. -/
structure SendCall where
  task : ℕ
  targetNodeId : ℕ
  message : GenericMessage
  address : String
  client : Client
  handler : Handler

/-- Whether the task goes on. -/
def Client.isReturned : Client → Bool
  | .returned _ => true
  | _ => false

/-- A call later on: what was asked for stays the same, and what the caller was told. -/
structure SendCall.Continues (c c' : SendCall) : Prop where
  task : c'.task = c.task
  targetNodeId : c'.targetNodeId = c.targetNodeId
  message : c'.message = c.message
  returned : c.client.isReturned → c'.client = c.client

/-- The caller was told of an error. -/
def SendCall.Failed (c : SendCall) : Prop := ∃ e, c.client = .returned (.error e)

theorem SendCall.Continues.failed {c c' : SendCall} (h : c.Continues c') (hfailed : c.Failed) :
    c'.Failed := by
  obtain ⟨e, he⟩ := hfailed
  have hsame := h.returned (by rw [he]; rfl)
  exact ⟨e, hsame.trans he⟩

/-- What the caller is told is true: a success means that the message was delivered, and an error
that it never will be, unless it is the error of a request that broke off. -/
structure SendCall.Sound (protocol : Protocol) (c : SendCall) : Prop where
  holding : ∀ nodeId tx message, c.handler = .holding nodeId tx message → message = c.message
  ok : c.client = .returned (.ok ()) → ∃ nodeId tx, c.handler = .delivered nodeId tx
  error : ∀ e, c.client = .returned (.error e) →
    (∃ reason, e = protocol.broken reason) ∨ c.handler = .dropped ∨ ∃ e, c.handler = .refused e

theorem SendCall.Sound.delivered {protocol : Protocol} {c : SendCall} (h : c.Sound protocol)
    {nodeId : ℕ} {tx : Mailbox} {message : GenericMessage}
    (hholding : c.handler = .holding nodeId tx message) :
    SendCall.Sound protocol { c with handler := .delivered nodeId tx } := by
  refine ⟨by simp, fun _ => ⟨_, _, rfl⟩, fun e he => Or.inl ?_⟩
  simpa [hholding] using h.error e he

/-- A message in a mailbox, marked with the number of the call that sent it. -/
structure Letter where
  call : ℕ
  message : GenericMessage
deriving DecidableEq, Repr

/-- What happens to a call, apart from its delivery. -/
inductive SendStep where
  | connect
  | connectFails (invalid : Bool) (reason : String)
  /-- The server starts to handle the request. -/
  | request
  | refuse
  | drop
  | respond
  | fail (reason : String)
deriving DecidableEq, Repr

/-! ## The nodes -/

/-- The nodes with their peers, servers, routers and mailboxes, and the calls made so far. -/
structure Nodes where
  protocol : Protocol
  peers : ℕ → Peers := fun _ _ => none
  /-- Which node serves at an address. -/
  servers : String → Option ℕ := fun _ => none
  routers : ℕ → ClusterRouter := fun _ => {}
  mailboxes : ℕ → Mailbox → Channel Letter
  calls : List SendCall := []

inductive NodesOp where
  | addPeer (nodeId peer : ℕ) (address : String)
  | removePeer (nodeId peer : ℕ)
  | listen (address : String) (nodeId : ℕ)
  | shutDown (address : String)
  | registerCluster (nodeId clusterId : ℕ) (tx : Mailbox)
  | unregisterCluster (nodeId clusterId : ℕ)
  /-- A node takes a message from a mailbox, or drops the mailbox. -/
  | take (nodeId : ℕ) (tx : Mailbox)
  | close (nodeId : ℕ) (tx : Mailbox)
  | sendMessage (task nodeId targetNodeId : ℕ) (message : GenericMessage)
  | call (k : ℕ) (step : SendStep)
  | deliver (k : ℕ)
deriving DecidableEq, Repr

namespace Nodes

/-- The nodes before anything happened, with mailboxes of any capacity. -/
def new (protocol : Protocol) (capacity : ℕ → Mailbox → ℕ) : Nodes where
  protocol := protocol
  mailboxes nodeId tx := { capacity := capacity nodeId tx }

/-- A mailbox changes. -/
def setMailbox (s : Nodes) (nodeId : ℕ) (tx : Mailbox) (mailbox : Channel Letter) : Nodes :=
  { s with
    mailboxes := Function.update s.mailboxes nodeId
      (Function.update (s.mailboxes nodeId) tx mailbox) }

/-- The call of `send_message`: a peer without an address is not found. -/
def newCall (s : Nodes) (task nodeId targetNodeId : ℕ) (message : GenericMessage) : SendCall :=
  match s.peers nodeId targetNodeId with
  | some address => ⟨task, targetNodeId, message, address, .connecting, .idle⟩
  | none => ⟨task, targetNodeId, message, "", .returned (.error (.peerNotFound targetNodeId)),
      .dropped⟩

/-- `route_message` up to the wait on the mailbox. -/
def route (s : Nodes) (nodeId : ℕ) : Except String GenericMessage → Handler
  | .error _ => .dropped
  | .ok message =>
    match (s.routers nodeId).routeMessage (fun _ => false) message with
    | .ok tx => .holding nodeId tx message
    | .error e => .refused e

section
variable [ProstMessage GenericMessage] [SerdeJson JsonGenericMessage]

/-- A step of a call. -/
def advance (s : Nodes) (c : SendCall) : SendStep → Option SendCall
  | .connect =>
    match c.client with
    | .connecting => some { c with client := .waiting }
    | _ => none
  | .connectFails invalid reason =>
    match c.client, c.handler with
    | .connecting, .idle => some { c with
        client := .returned (.error (s.protocol.unreachable c.address invalid reason))
        handler := .dropped }
    | _, _ => none
  | .request =>
    match c.client, c.handler, s.servers c.address with
    | .waiting, .idle, some nodeId | .returned _, .idle, some nodeId =>
      some { c with handler := s.route nodeId (s.protocol.carry c.message) }
    | _, _, _ => none
  | .refuse =>
    match c.handler with
    | .holding nodeId tx message =>
      if (s.mailboxes nodeId tx).closed then
        some { c with handler := .refused (.mailboxFull message.clusterId) }
      else none
    | _ => none
  | .drop =>
    match c.client, c.handler with
    | .connecting, _ => none
    | _, .idle | _, .holding _ _ _ => some { c with handler := .dropped }
    | _, _ => none
  | .respond =>
    match c.client, c.handler with
    | .waiting, .delivered _ _ => some { c with client := .returned (.ok ()) }
    | .waiting, .refused e =>
      some { c with client := .returned (.error (s.protocol.refused e)) }
    | _, _ => none
  | .fail reason =>
    match c.client with
    | .waiting => some { c with client := .returned (.error (s.protocol.broken reason)) }
    | _ => none

/-- A step. A task makes its next call when the one before has returned. -/
def step (s : Nodes) : NodesOp → Option Nodes
  | .addPeer nodeId peer address =>
    some { s with
      peers := Function.update s.peers nodeId
        (TransportLayer.addPeer (s.peers nodeId) peer address) }
  | .removePeer nodeId peer =>
    some { s with
      peers := Function.update s.peers nodeId (TransportLayer.removePeer (s.peers nodeId) peer) }
  | .listen address nodeId =>
    some { s with servers := Function.update s.servers address (some nodeId) }
  | .shutDown address => some { s with servers := Function.update s.servers address none }
  | .registerCluster nodeId clusterId tx =>
    some { s with
      routers := Function.update s.routers nodeId
        ((s.routers nodeId).registerCluster clusterId tx) }
  | .unregisterCluster nodeId clusterId =>
    some { s with
      routers := Function.update s.routers nodeId
        ((s.routers nodeId).unregisterCluster clusterId) }
  | .take nodeId tx => (s.mailboxes nodeId tx).recv.map (s.setMailbox nodeId tx)
  | .close nodeId tx => some (s.setMailbox nodeId tx (s.mailboxes nodeId tx).close)
  | .sendMessage task nodeId targetNodeId message =>
    if s.calls.all fun c => c.task != task || c.client.isReturned then
      some { s with calls := s.calls ++ [s.newCall task nodeId targetNodeId message] }
    else none
  | .call k sendStep =>
    match s.calls[k]? with
    | some c => (s.advance c sendStep).map fun c' => { s with calls := s.calls.set k c' }
    | none => none
  | .deliver k =>
    match s.calls[k]? with
    | some c =>
      match c.handler with
      | .holding nodeId tx message =>
        ((s.mailboxes nodeId tx).send ⟨k, message⟩).map fun mailbox =>
          { s.setMailbox nodeId tx mailbox with
            calls := s.calls.set k { c with handler := .delivered nodeId tx } }
      | _ => none
    | none => none

end

/-! ## Steps -/

/-- What a step did to a call, and what it needed. -/
inductive Advanced (s : Nodes) (c : SendCall) : SendCall → Prop where
  | connect (hclient : c.client = .connecting) : Advanced s c { c with client := .waiting }
  | connectFails {e : TransportError} (hclient : c.client = .connecting) (hidle : c.handler = .idle) :
      Advanced s c { c with client := .returned (.error e), handler := .dropped }
  | request {nodeId : ℕ} (hclient : c.client ≠ .connecting) (hidle : c.handler = .idle)
      (hserver : s.servers c.address = some nodeId) :
      Advanced s c { c with handler := s.route nodeId (.ok c.message) }
  | refuse {nodeId : ℕ} {tx : Mailbox} {message : GenericMessage} {e : RoutingError}
      (hholding : c.handler = .holding nodeId tx message) :
      Advanced s c { c with handler := .refused e }
  | drop (hclient : c.client ≠ .connecting)
      (hhandler : ∀ nodeId tx, c.handler ≠ .delivered nodeId tx) :
      Advanced s c { c with handler := .dropped }
  | respond {nodeId : ℕ} {tx : Mailbox} (hclient : c.client = .waiting)
      (hdelivered : c.handler = .delivered nodeId tx) :
      Advanced s c { c with client := .returned (.ok ()) }
  | respondRefused {e : RoutingError} (hclient : c.client = .waiting)
      (hrefused : c.handler = .refused e) :
      Advanced s c { c with client := .returned (.error (s.protocol.refused e)) }
  | fail {reason : String} (hclient : c.client = .waiting) :
      Advanced s c { c with client := .returned (.error (s.protocol.broken reason)) }

theorem advanced [ProstMessage GenericMessage] [SerdeJson JsonGenericMessage] {s : Nodes}
    {c c' : SendCall} {sendStep : SendStep} (h : s.advance c sendStep = some c') : Advanced s c c' := by
  cases sendStep with
  | connect =>
    simp only [advance] at h
    split at h
    next hclient =>
      obtain rfl := Option.some.inj h
      exact .connect hclient
    next => exact absurd h (by simp)
  | connectFails invalid reason =>
    simp only [advance] at h
    split at h
    next hclient hidle =>
      obtain rfl := Option.some.inj h
      exact .connectFails hclient hidle
    next => exact absurd h (by simp)
  | request =>
    simp only [advance, Protocol.carry_eq] at h
    split at h
    next nodeId hclient hidle hserver =>
      obtain rfl := Option.some.inj h
      exact .request (by simp [hclient]) hidle hserver
    next result nodeId hclient hidle hserver =>
      obtain rfl := Option.some.inj h
      exact .request (by simp [hclient]) hidle hserver
    next => exact absurd h (by simp)
  | refuse =>
    simp only [advance] at h
    split at h
    next nodeId tx message hholding =>
      rw [Option.ite_none_right_eq_some, Option.some.injEq] at h
      obtain ⟨-, rfl⟩ := h
      exact .refuse hholding
    next => exact absurd h (by simp)
  | drop =>
    simp only [advance] at h
    split at h
    next => exact absurd h (by simp)
    next hidle hclient =>
      obtain rfl := Option.some.inj h
      exact .drop hclient (by simp [hidle])
    next hholding hclient =>
      obtain rfl := Option.some.inj h
      exact .drop hclient (by simp [hholding])
    next => exact absurd h (by simp)
  | respond =>
    simp only [advance] at h
    split at h
    next nodeId tx hclient hdelivered =>
      obtain rfl := Option.some.inj h
      exact .respond hclient hdelivered
    next e hclient hrefused =>
      obtain rfl := Option.some.inj h
      exact .respondRefused hclient hrefused
    next => exact absurd h (by simp)
  | fail reason =>
    simp only [advance] at h
    split at h
    next hclient =>
      obtain rfl := Option.some.inj h
      exact .fail hclient
    next => exact absurd h (by simp)

theorem Advanced.continues {s : Nodes} {c c' : SendCall} (h : Advanced s c c') :
    c.Continues c' := by
  cases h with
  | connect hclient | connectFails hclient | respond hclient | respondRefused hclient
  | fail hclient => exact ⟨rfl, rfl, rfl, by simp [hclient, Client.isReturned]⟩
  | request | refuse | drop => exact ⟨rfl, rfl, rfl, fun _ => rfl⟩

theorem route_cases (s : Nodes) (nodeId : ℕ) (message : GenericMessage) :
    (∃ tx, (s.routers nodeId).routes message.clusterId = some tx ∧
      s.route nodeId (.ok message) = .holding nodeId tx message) ∨
    s.route nodeId (.ok message) = .refused (.clusterNotFound message.clusterId) := by
  simp only [route, ClusterRouter.routeMessage]
  cases (s.routers nodeId).routes message.clusterId with
  | some tx => exact Or.inl ⟨tx, rfl, rfl⟩
  | none => exact Or.inr rfl

/-- Only `deliver` delivers. -/
theorem Advanced.delivered_iff {s : Nodes} {c c' : SendCall} (h : Advanced s c c') (nodeId : ℕ)
    (tx : Mailbox) : c'.handler = .delivered nodeId tx ↔ c.handler = .delivered nodeId tx := by
  cases h with
  | connectFails hclient hidle => simp [hidle]
  | @request n hclient hidle hserver =>
    rcases s.route_cases n c.message with ⟨t, -, hroute⟩ | hroute
    · simp [hidle, hroute]
    · simp [hidle, hroute]
  | refuse hholding => simp [hholding]
  | drop hclient hhandler => simp [hhandler]
  | connect | respond | respondRefused | fail => exact Iff.rfl

theorem Advanced.sound {s : Nodes} {c c' : SendCall} (h : Advanced s c c')
    (hc : c.Sound s.protocol) : c'.Sound s.protocol := by
  cases h with
  | connect hclient => exact ⟨hc.holding, by simp, by simp⟩
  | connectFails hclient hidle => exact ⟨by simp, by simp, fun _ _ => Or.inr (Or.inl rfl)⟩
  | @request n hclient hidle hserver =>
    have hok : c.client ≠ .returned (.ok ()) := by
      intro hreturned
      obtain ⟨nodeId, tx, hdelivered⟩ := hc.ok hreturned
      simp [hidle] at hdelivered
    have herror : ∀ e, c.client = .returned (.error e) → ∃ reason, e = s.protocol.broken reason := by
      intro e he
      simpa [hidle] using hc.error e he
    refine ⟨fun nodeId tx message hholding => ?_, fun hreturned => absurd hreturned hok,
      fun e he => Or.inl (herror e he)⟩
    rcases s.route_cases n c.message with ⟨t, -, hroute⟩ | hroute
    · rw [hroute] at hholding
      exact (Handler.holding.inj hholding).2.2.symm
    · simp [hroute] at hholding
  | refuse hholding =>
    refine ⟨by simp, fun hreturned => ?_, fun _ _ => Or.inr (Or.inr ⟨_, rfl⟩)⟩
    obtain ⟨nodeId, tx, hdelivered⟩ := hc.ok hreturned
    simp [hholding] at hdelivered
  | drop hclient hhandler =>
    refine ⟨by simp, fun hreturned => ?_, fun _ _ => Or.inr (Or.inl rfl)⟩
    obtain ⟨nodeId, tx, hdelivered⟩ := hc.ok hreturned
    exact absurd hdelivered (hhandler nodeId tx)
  | respond hclient hdelivered => exact ⟨hc.holding, fun _ => ⟨_, _, hdelivered⟩, by simp⟩
  | respondRefused hclient hrefused =>
    exact ⟨hc.holding, by simp, fun _ _ => Or.inr (Or.inr ⟨_, hrefused⟩)⟩
  | @fail reason hclient =>
    refine ⟨hc.holding, by simp, fun e he => Or.inl ⟨reason, ?_⟩⟩
    simpa using he.symm

theorem sound_newCall (s : Nodes) (task nodeId targetNodeId : ℕ) (message : GenericMessage) :
    (s.newCall task nodeId targetNodeId message).Sound s.protocol := by
  unfold newCall
  cases s.peers nodeId targetNodeId with
  | some address => exact ⟨by simp, by simp, by simp⟩
  | none => exact ⟨by simp, by simp, fun _ _ => Or.inr (Or.inl rfl)⟩

theorem newCall_not_delivered (s : Nodes) (task nodeId targetNodeId n : ℕ)
    (message : GenericMessage) (tx : Mailbox) :
    (s.newCall task nodeId targetNodeId message).handler ≠ .delivered n tx := by
  unfold newCall
  cases s.peers nodeId targetNodeId <;> simp

/-- What a step did to the calls and the mailboxes. -/
inductive Stepped (s : Nodes) : Nodes → Prop where
  | others {s' : Nodes} (hprotocol : s'.protocol = s.protocol) (hcalls : s'.calls = s.calls)
      (hsent : ∀ nodeId tx, (s'.mailboxes nodeId tx).sent = (s.mailboxes nodeId tx).sent)
      (hbounded : (∀ nodeId tx, (s.mailboxes nodeId tx).Bounded) →
        ∀ nodeId tx, (s'.mailboxes nodeId tx).Bounded) : Stepped s s'
  | sendMessage {task nodeId targetNodeId : ℕ} {message : GenericMessage}
      (hreturned : ∀ c ∈ s.calls, c.task = task → c.client.isReturned) :
      Stepped s { s with calls := s.calls ++ [s.newCall task nodeId targetNodeId message] }
  | call {k : ℕ} {c c' : SendCall} (hk : s.calls[k]? = some c) (hadvanced : Advanced s c c') :
      Stepped s { s with calls := s.calls.set k c' }
  | deliver {k nodeId : ℕ} {tx : Mailbox} {c : SendCall} {message : GenericMessage}
      {mailbox : Channel Letter} (hk : s.calls[k]? = some c)
      (hholding : c.handler = .holding nodeId tx message)
      (hsend : (s.mailboxes nodeId tx).send ⟨k, message⟩ = some mailbox) :
      Stepped s { s.setMailbox nodeId tx mailbox with
        calls := s.calls.set k { c with handler := .delivered nodeId tx } }

theorem mailboxes_setMailbox (s : Nodes) (nodeId n : ℕ) (tx t : Mailbox)
    (mailbox : Channel Letter) : (s.setMailbox nodeId tx mailbox).mailboxes n t =
      if n = nodeId ∧ t = tx then mailbox else s.mailboxes n t := by
  unfold setMailbox
  by_cases hn : n = nodeId
  · subst hn
    by_cases ht : t = tx
    · subst ht
      simp
    · simp [ht]
  · simp [hn]

/-- A mailbox whose messages stay the same. -/
theorem sent_setMailbox {s : Nodes} {nodeId : ℕ} {tx : Mailbox} {mailbox : Channel Letter}
    (h : mailbox.sent = (s.mailboxes nodeId tx).sent) (n : ℕ) (t : Mailbox) :
    ((s.setMailbox nodeId tx mailbox).mailboxes n t).sent = (s.mailboxes n t).sent := by
  rw [mailboxes_setMailbox]
  split
  next heq =>
    obtain ⟨rfl, rfl⟩ := heq
    exact h
  next => rfl

/-- A mailbox that stays within its bound. -/
theorem bounded_setMailbox {s : Nodes} (hs : ∀ nodeId tx, (s.mailboxes nodeId tx).Bounded)
    {nodeId : ℕ} {tx : Mailbox} {mailbox : Channel Letter} (h : mailbox.Bounded) (n : ℕ)
    (t : Mailbox) : ((s.setMailbox nodeId tx mailbox).mailboxes n t).Bounded := by
  rw [mailboxes_setMailbox]
  split
  next => exact h
  next => exact hs n t

theorem stepped [ProstMessage GenericMessage] [SerdeJson JsonGenericMessage] {s s' : Nodes}
    {op : NodesOp} (h : s.step op = some s') : Stepped s s' := by
  cases op with
  | sendMessage task nodeId targetNodeId message =>
    rw [step, Option.ite_none_right_eq_some, Option.some.injEq] at h
    obtain ⟨hall, rfl⟩ := h
    refine .sendMessage fun c hc htask => ?_
    have hreturned := List.all_eq_true.mp hall c hc
    simpa [htask] using hreturned
  | call k sendStep =>
    simp only [step] at h
    split at h
    next c hk =>
      obtain ⟨c', hadvance, rfl⟩ := Option.map_eq_some_iff.mp h
      exact .call hk (advanced hadvance)
    next => exact absurd h (by simp)
  | deliver k =>
    simp only [step] at h
    split at h
    next c hk =>
      split at h
      next nodeId tx message hholding =>
        obtain ⟨mailbox, hsend, rfl⟩ := Option.map_eq_some_iff.mp h
        exact .deliver hk hholding hsend
      next => exact absurd h (by simp)
    next => exact absurd h (by simp)
  | take nodeId tx =>
    obtain ⟨mailbox, hrecv, rfl⟩ := Option.map_eq_some_iff.mp h
    exact .others rfl rfl (sent_setMailbox (Channel.sent_recv hrecv)) fun hs =>
      bounded_setMailbox hs ((hs nodeId tx).recv hrecv)
  | close nodeId tx =>
    obtain rfl := Option.some.inj h
    exact .others rfl rfl (sent_setMailbox rfl) fun hs => bounded_setMailbox hs (hs nodeId tx)
  | _ =>
    obtain rfl := Option.some.inj h
    exact .others rfl rfl (fun _ _ => rfl) id

end Nodes

end Raftoral

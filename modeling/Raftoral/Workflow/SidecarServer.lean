import Raftoral.Lib.Channel
import Raftoral.Workflow.Sidecar
import Raftoral.Workflow.SidecarClient

/-!
# The streams of a sidecar server

The model of `sidecar/server.rs`. One task forwards the execution requests of the node to every
app that is connected. It holds the lock on the map of streams while it sends to one after the
other, and waits where the channel of a stream is full; streams come into the map and leave it
under the same lock. For each stream another task reads what the app says: it answers heartbeats
on the channel of the stream and passes results on to the runtimes.
-/

namespace Raftoral

/-- What a stream brings: a message of an app, which may be empty. -/
inductive Incoming where
  | empty
  | message (m : AppMessage)
  | heartbeat (timestamp : ℕ)
deriving DecidableEq, Repr

/-- Where the task that reads from an app has got to. -/
inductive StreamTask where
  | reading
  | responding (timestamp : ℕ)
  | passingOn (result : ExecutionResult)
  /-- The stream has ended, and its entry in the map is to be removed. -/
  | ended
  | removed
deriving DecidableEq, Repr

/-- A stream. Beside what the code holds, it remembers how many requests were forwarded before it
was registered, and the heartbeats and results it brought. -/
structure AppStream where
  outgoing : Channel SidecarMessage
  task : StreamTask := .reading
  joined : ℕ
  heartbeats : List ℕ := []
  reported : List ExecutionResult := []

/-- Where the task that forwards requests has got to. -/
inductive Forwarder where
  | waiting
  | locking (request : ExecutionRequest)
  /-- It holds the lock, and these streams are still to be sent the request. -/
  | sending (request : ExecutionRequest) (rest : List ℕ)
deriving DecidableEq, Repr

/-- The forwarder is done with the first of the streams. -/
def Forwarder.next (request : ExecutionRequest) : List ℕ → Forwarder
  | [] => .waiting
  | k :: rest => .sending request (k :: rest)

/-- A server. The streams are numbered as they come; the map holds those not removed. -/
structure SidecarServer where
  requests : Channel ExecutionRequest
  forwarder : Forwarder := .waiting
  streams : List AppStream := []
  /-- The channel to the runtimes, if it was set; a result is marked with its stream. -/
  results : Option (Channel (ℕ × ExecutionResult))
  /-- The requests that the forwarder has had the lock for. -/
  forwarded : List ExecutionRequest := []

inductive ServerOp where
  /-- A runtime sends a request. -/
  | request (r : ExecutionRequest)
  | takeRequest
  /-- The forwarder gets the lock, and sees the streams in some order of the map. -/
  | lock (order : List ℕ)
  | forward
  | connect
  | receive (k : ℕ) (incoming : Incoming)
  | respond (k : ℕ)
  | passOn (k : ℕ)
  /-- The stream ends, or an error ends it. -/
  | streamEnds (k : ℕ)
  | remove (k : ℕ)
  /-- The app takes a message, or goes away. -/
  | appTakes (k : ℕ)
  | appLeaves (k : ℕ)
  /-- A runtime takes a result, or all runtimes are gone. -/
  | runtimeTakes
  | runtimesLeave
deriving DecidableEq, Repr

/-- The message that asks an app to execute a workflow. -/
def ExecutionRequest.message (r : ExecutionRequest) : SidecarMessage :=
  .executeWorkflow r.workflowId r.workflowName r.version r.input r.isOwner

/-- The request of a message to an app. -/
def SidecarMessage.request : SidecarMessage → Option ExecutionRequest
  | .executeWorkflow workflowId workflowName version input isOwner =>
    some { workflowId, workflowName, version, input, isOwner }
  | _ => none

def SidecarMessage.timestamp : SidecarMessage → Option ℕ
  | .heartbeatResponse timestamp => some timestamp
  | _ => none

namespace AppStream

/-- What the task of a stream does with a message. A proposed checkpoint goes nowhere. -/
def handle (stream : AppStream) (hasResults : Bool) : Incoming → AppStream
  | .empty | .message (.checkpointProposal _ _ _) => stream
  | .message (.workflowResult workflowId success result error) =>
    let reported : ExecutionResult := { workflowId, success, result, error }
    if hasResults then
      { stream with task := .passingOn reported, reported := stream.reported ++ [reported] }
    else stream
  | .heartbeat timestamp =>
    { stream with task := .responding timestamp, heartbeats := stream.heartbeats ++ [timestamp] }

/-- A send to an app: it waits while the channel is full, and fails if the app is gone. -/
def send (stream : AppStream) (message : SidecarMessage) : Option AppStream :=
  if stream.outgoing.closed then some stream
  else (stream.outgoing.send message).map fun outgoing => { stream with outgoing }

end AppStream

namespace SidecarServer

/-- The capacity of the channels. -/
def capacity : ℕ := 100

/-- A server before its first stream, with or without channels to the runtimes. -/
def new (hasResults : Bool) : SidecarServer where
  requests := { capacity := capacity }
  results := if hasResults then some { capacity := capacity } else none

/-- The streams in the map. -/
def registered (s : SidecarServer) : List ℕ :=
  (List.range s.streams.length).filter fun k =>
    (s.streams[k]?).any fun stream => stream.task != .removed

/-- Whether the lock on the map is free. -/
def unlocked (s : SidecarServer) : Bool :=
  match s.forwarder with
  | .sending _ _ => false
  | _ => true

def setStream (s : SidecarServer) (k : ℕ) (stream : AppStream) : SidecarServer :=
  { s with streams := s.streams.set k stream }

def step (s : SidecarServer) : ServerOp → Option SidecarServer
  | .request r => (s.requests.send r).map fun requests => { s with requests }
  | .takeRequest =>
    match s.forwarder, s.requests.queue with
    | .waiting, r :: _ =>
      s.requests.recv.map fun requests => { s with requests, forwarder := .locking r }
    | _, _ => none
  | .lock order =>
    match s.forwarder with
    | .locking r =>
      if order.isPerm s.registered then
        some { s with forwarder := Forwarder.next r order, forwarded := s.forwarded ++ [r] }
      else none
    | _ => none
  | .forward =>
    match s.forwarder with
    | .sending r (k :: rest) =>
      match s.streams[k]? with
      | some stream => (stream.send r.message).map fun stream' =>
          { s.setStream k stream' with forwarder := Forwarder.next r rest }
      | none => none
    | _ => none
  | .connect =>
    if s.unlocked then
      some { s with
        streams := s.streams ++
          [{ outgoing := { capacity := capacity }, joined := s.forwarded.length }] }
    else none
  | .receive k incoming =>
    match s.streams[k]? with
    | some stream =>
      if stream.task = .reading then
        some (s.setStream k (stream.handle s.results.isSome incoming))
      else none
    | none => none
  | .respond k =>
    match s.streams[k]? with
    | some stream =>
      match stream.task with
      | .responding timestamp =>
        (stream.send (.heartbeatResponse timestamp)).map fun stream' =>
          s.setStream k { stream' with task := .reading }
      | _ => none
    | none => none
  | .passOn k =>
    match s.streams[k]?, s.results with
    | some stream, some results =>
      match stream.task with
      | .passingOn result =>
        if results.closed then some (s.setStream k { stream with task := .reading })
        else (results.send (k, result)).map fun results =>
          { s.setStream k { stream with task := .reading } with results := some results }
      | _ => none
    | _, _ => none
  | .streamEnds k =>
    match s.streams[k]? with
    | some stream =>
      if stream.task = .reading then some (s.setStream k { stream with task := .ended }) else none
    | none => none
  | .remove k =>
    match s.streams[k]? with
    | some stream =>
      if stream.task = .ended ∧ s.unlocked then
        some (s.setStream k { stream with task := .removed })
      else none
    | none => none
  | .appTakes k =>
    match s.streams[k]? with
    | some stream => stream.outgoing.recv.map fun outgoing =>
        s.setStream k { stream with outgoing }
    | none => none
  | .appLeaves k =>
    match s.streams[k]? with
    | some stream => some (s.setStream k { stream with outgoing := stream.outgoing.close })
    | none => none
  | .runtimeTakes =>
    match s.results with
    | some results => results.recv.map fun results => { s with results := some results }
    | none => none
  | .runtimesLeave =>
    match s.results with
    | some results => some { s with results := some results.close }
    | none => none

/-- Whether the runtimes take results. -/
def ResultsOpen (s : SidecarServer) : Prop := ∀ results ∈ s.results, results.closed = false

/-- What a step did, and what it needed. -/
inductive Stepped (s : SidecarServer) : ServerOp → SidecarServer → Prop where
  | request {r : ExecutionRequest} {requests : Channel ExecutionRequest}
      (hsend : s.requests.send r = some requests) : Stepped s (.request r) { s with requests }
  | takeRequest {r : ExecutionRequest} {requests : Channel ExecutionRequest}
      (hforwarder : s.forwarder = .waiting) (hrecv : s.requests.recv = some requests) :
      Stepped s .takeRequest { s with requests, forwarder := .locking r }
  | lock {r : ExecutionRequest} {order : List ℕ} (hforwarder : s.forwarder = .locking r)
      (horder : order.Perm s.registered) : Stepped s (.lock order)
        { s with forwarder := Forwarder.next r order, forwarded := s.forwarded ++ [r] }
  | forward {r : ExecutionRequest} {k : ℕ} {rest : List ℕ} {stream stream' : AppStream}
      (hforwarder : s.forwarder = .sending r (k :: rest)) (hk : s.streams[k]? = some stream)
      (hsend : stream.send r.message = some stream') :
      Stepped s .forward { s.setStream k stream' with forwarder := Forwarder.next r rest }
  | connect (hunlocked : s.unlocked) : Stepped s .connect { s with streams := s.streams ++
      [{ outgoing := { capacity := capacity }, joined := s.forwarded.length }] }
  | receive {k : ℕ} {incoming : Incoming} {stream : AppStream} (hk : s.streams[k]? = some stream)
      (htask : stream.task = .reading) : Stepped s (.receive k incoming)
        (s.setStream k (stream.handle s.results.isSome incoming))
  | respond {k timestamp : ℕ} {stream stream' : AppStream} (hk : s.streams[k]? = some stream)
      (htask : stream.task = .responding timestamp)
      (hsend : stream.send (.heartbeatResponse timestamp) = some stream') :
      Stepped s (.respond k) (s.setStream k { stream' with task := .reading })
  | drop {k : ℕ} {stream : AppStream} {result : ExecutionResult}
      (hk : s.streams[k]? = some stream) (htask : stream.task = .passingOn result)
      (hgone : ¬s.ResultsOpen) :
      Stepped s (.passOn k) (s.setStream k { stream with task := .reading })
  | passOn {k : ℕ} {stream : AppStream} {results results' : Channel (ℕ × ExecutionResult)}
      {result : ExecutionResult} (hk : s.streams[k]? = some stream)
      (hresults : s.results = some results) (htask : stream.task = .passingOn result)
      (hsend : results.send (k, result) = some results') : Stepped s (.passOn k)
        { s.setStream k { stream with task := .reading } with results := some results' }
  | streamEnds {k : ℕ} {stream : AppStream} (hk : s.streams[k]? = some stream)
      (htask : stream.task = .reading) :
      Stepped s (.streamEnds k) (s.setStream k { stream with task := .ended })
  | remove {k : ℕ} {stream : AppStream} (hk : s.streams[k]? = some stream)
      (htask : stream.task = .ended) (hunlocked : s.unlocked) :
      Stepped s (.remove k) (s.setStream k { stream with task := .removed })
  | appTakes {k : ℕ} {stream : AppStream} {outgoing : Channel SidecarMessage}
      (hk : s.streams[k]? = some stream) (hrecv : stream.outgoing.recv = some outgoing) :
      Stepped s (.appTakes k) (s.setStream k { stream with outgoing })
  | appLeaves {k : ℕ} {stream : AppStream} (hk : s.streams[k]? = some stream) :
      Stepped s (.appLeaves k) (s.setStream k { stream with outgoing := stream.outgoing.close })
  | results {op : ServerOp} {results results' : Channel (ℕ × ExecutionResult)}
      (hop : op = .runtimeTakes ∨ op = .runtimesLeave) (hresults : s.results = some results)
      (hsent : results'.sent = results.sent)
      (hclosed : results'.closed = false → results.closed = false) :
      Stepped s op { s with results := some results' }

theorem stepped {s s' : SidecarServer} {op : ServerOp} (h : s.step op = some s') :
    Stepped s op s' := by
  cases op with
  | request r =>
    obtain ⟨requests, hsend, rfl⟩ := Option.map_eq_some_iff.mp h
    exact .request hsend
  | takeRequest =>
    simp only [step] at h
    split at h
    next r _ hforwarder _ =>
      obtain ⟨requests, hrecv, rfl⟩ := Option.map_eq_some_iff.mp h
      exact .takeRequest hforwarder hrecv
    next => exact absurd h (by simp)
  | lock order =>
    simp only [step] at h
    split at h
    next r hforwarder =>
      obtain ⟨hperm, h⟩ := Option.ite_none_right_eq_some.mp h
      obtain rfl := Option.some.inj h
      exact .lock hforwarder (List.isPerm_iff.mp hperm)
    next => exact absurd h (by simp)
  | forward =>
    simp only [step] at h
    split at h
    next r k rest hforwarder =>
      split at h
      next stream hk =>
        obtain ⟨stream', hsend, rfl⟩ := Option.map_eq_some_iff.mp h
        exact .forward hforwarder hk hsend
      next => exact absurd h (by simp)
    next => exact absurd h (by simp)
  | connect =>
    obtain ⟨hunlocked, h⟩ := Option.ite_none_right_eq_some.mp h
    obtain rfl := Option.some.inj h
    exact .connect hunlocked
  | receive k incoming =>
    simp only [step] at h
    split at h
    next stream hk =>
      obtain ⟨htask, h⟩ := Option.ite_none_right_eq_some.mp h
      obtain rfl := Option.some.inj h
      exact .receive hk htask
    next => exact absurd h (by simp)
  | respond k =>
    simp only [step] at h
    split at h
    next stream hk =>
      split at h
      next timestamp htask =>
        obtain ⟨stream', hsend, rfl⟩ := Option.map_eq_some_iff.mp h
        exact .respond hk htask hsend
      next => exact absurd h (by simp)
    next => exact absurd h (by simp)
  | passOn k =>
    simp only [step] at h
    split at h
    next stream results hk hresults =>
      split at h
      next result htask =>
        split at h
        next hclosed =>
          obtain rfl := Option.some.inj h
          exact .drop hk htask fun hopen => by simpa [hclosed] using hopen results hresults
        next =>
          obtain ⟨results', hsend, rfl⟩ := Option.map_eq_some_iff.mp h
          exact .passOn hk hresults htask hsend
      next => exact absurd h (by simp)
    next => exact absurd h (by simp)
  | streamEnds k =>
    simp only [step] at h
    split at h
    next stream hk =>
      obtain ⟨htask, h⟩ := Option.ite_none_right_eq_some.mp h
      obtain rfl := Option.some.inj h
      exact .streamEnds hk htask
    next => exact absurd h (by simp)
  | remove k =>
    simp only [step] at h
    split at h
    next stream hk =>
      obtain ⟨⟨htask, hunlocked⟩, h⟩ := Option.ite_none_right_eq_some.mp h
      obtain rfl := Option.some.inj h
      exact .remove hk htask hunlocked
    next => exact absurd h (by simp)
  | appTakes k =>
    simp only [step] at h
    split at h
    next stream hk =>
      obtain ⟨outgoing, hrecv, rfl⟩ := Option.map_eq_some_iff.mp h
      exact .appTakes hk hrecv
    next => exact absurd h (by simp)
  | appLeaves k =>
    simp only [step] at h
    split at h
    next stream hk =>
      obtain rfl := Option.some.inj h
      exact .appLeaves hk
    next => exact absurd h (by simp)
  | runtimeTakes =>
    simp only [step] at h
    split at h
    next results hresults =>
      obtain ⟨results', hrecv, rfl⟩ := Option.map_eq_some_iff.mp h
      refine .results (Or.inl rfl) hresults (Channel.sent_recv hrecv) fun hopen => ?_
      obtain ⟨x, rest, -, rfl⟩ := Channel.recv_cases hrecv
      exact hopen
    next => exact absurd h (by simp)
  | runtimesLeave =>
    simp only [step] at h
    split at h
    next results hresults =>
      obtain rfl := Option.some.inj h
      exact .results (Or.inr rfl) hresults (Channel.sent_close results) fun hopen =>
        absurd hopen (by simp [Channel.close])
    next => exact absurd h (by simp)

end SidecarServer

end Raftoral

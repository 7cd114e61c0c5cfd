import Raftoral.Raft.Types

/-!
# The client of the sidecar

The crate `raftoral-client`: the task that takes the messages of the sidecar one after the other,
the handlers it runs, and the calls of `checkpoint` and `checkpoint_compute`, which only differ in
how the value is computed. A handler is any code: it makes calls that it awaits, and it starts
tasks that make calls of their own.

The receive task awaits a handler before it takes the next message, an owner registers its waiter
after it has proposed, and an event nobody waits for is dropped.
-/

namespace Raftoral

/-- The errors of the client. -/
inductive ClientError where
  | grpc (status : String)
  | transport (reason : String)
  | invalidUri (reason : String)
  | serialization (reason : String)
  | workflow (reason : String)
  | timeout (what : String)
  | connectionClosed
  | invalidState (reason : String)
deriving DecidableEq, Repr

def ClientError.display : ClientError → String
  | .grpc status => s!"gRPC error: {status}"
  | .transport reason => s!"Transport error: {reason}"
  | .invalidUri reason => s!"Invalid URI: {reason}"
  | .serialization reason => s!"Serialization error: {reason}"
  | .workflow reason => s!"Workflow error: {reason}"
  | .timeout what => s!"Timeout waiting for {what}"
  | .connectionClosed => "Connection to sidecar closed"
  | .invalidState reason => s!"Invalid state: {reason}"

/-- A message of the sidecar to the app. -/
inductive SidecarMessage where
  | executeWorkflow (workflowId workflowName : String) (version : ℕ) (input : Bytes)
      (isOwner : Bool)
  | checkpointEvent (workflowId checkpointName : String) (value : Bytes)
  | workflowCancellation (workflowId reason : String)
  | heartbeatResponse (timestamp : ℕ)
deriving DecidableEq, Repr

/-- A message of the app to the sidecar. -/
inductive AppMessage where
  | checkpointProposal (workflowId checkpointName : String) (value : Bytes)
  | workflowResult (workflowId : String) (success : Bool) (result : Bytes) (error : String)
deriving DecidableEq, Repr

/-- How far a call of `checkpoint` has come. -/
inductive CallPhase where
  | called
  /-- An owner's value has been sent to the sidecar. -/
  | proposed
  | waiting
  | returned (result : Except ClientError Bytes)
deriving DecidableEq

def CallPhase.isReturned : CallPhase → Bool
  | .returned _ => true
  | .called | .proposed | .waiting => false

/-- A call of `checkpoint` or `checkpoint_compute`. -/
structure CheckpointCall where
  workflowId : String
  name : String
  isOwner : Bool
  /-- The handler that the receive task runs does not return before this call does. -/
  awaited : Bool
  phase : CallPhase := .called
  /-- How many calls on its pair registered a waiter before this one did. -/
  number : Option ℕ := none
deriving DecidableEq

/-- The key of a waiter. -/
def waiterKey (workflowId checkpointName : String) : String := workflowId ++ ":" ++ checkpointName

namespace CheckpointCall

def key (c : CheckpointCall) : String := waiterKey c.workflowId c.name

def pair (c : CheckpointCall) : String × String := (c.workflowId, c.name)

/-- The call has been made and its waiter is not registered yet. -/
def Registering (c : CheckpointCall) : Prop := c.phase = .called ∨ c.phase = .proposed

instance (c : CheckpointCall) : Decidable c.Registering :=
  inferInstanceAs (Decidable (c.phase = .called ∨ c.phase = .proposed))

/-- Where a call is when it registers its waiter: an owner has proposed. -/
def beforeWaiting (c : CheckpointCall) : CallPhase := if c.isOwner then .proposed else .called

def returns (result : Except ClientError Bytes) (c : CheckpointCall) : CheckpointCall :=
  { c with phase := .returned result }

/-- It awaits its receiver. -/
def waits (number : ℕ) (c : CheckpointCall) : CheckpointCall :=
  { c with phase := .waiting, number := some number }

end CheckpointCall

inductive ReceiveTask where
  | idle
  /-- It awaits the handler of a workflow. -/
  | handling (workflowId : String)
  | stopped
deriving DecidableEq, Repr

def ReceiveTask.isHandling : ReceiveTask → Bool
  | .handling _ => true
  | .idle | .stopped => false

/-- The client, with what was exchanged on its stream and the calls that were made. -/
structure RaftoralClient where
  handlers : List (String × ℕ) := []
  /-- The call that holds the receiver of each sender. -/
  checkpointWaiters : String → Option ℕ := fun _ => none
  receiveTask : ReceiveTask := .idle
  /-- What has arrived and was not taken yet; an item without a message is `none`. -/
  stream : List (Option SidecarMessage) := []
  taken : List (Option SidecarMessage) := []
  /-- What was handed to the outgoing stream. -/
  sent : List AppMessage := []
  calls : List CheckpointCall := []
  /-- The pairs of the calls, in the order in which they registered. -/
  registered : List (String × String) := []

inductive ClientOp where
  | registerHandler (name : String) (version : ℕ)
  | arrive (item : Option SidecarMessage)
  /-- The receive task takes the next item. -/
  | take
  /-- The stream ends, with an error or without. -/
  | close
  | handlerReturns (result : Except ClientError Bytes)
  | call (workflowId name : String) (isOwner awaited : Bool)
  /-- An owner's value is computed, serialized and sent, while the stream is open or not. -/
  | propose (i : ℕ) (serialized : Except String Bytes) (connected : Bool)
  | wait (i : ℕ)
deriving DecidableEq

namespace RaftoralClient

/-- The result of a workflow, as it is sent. -/
def workflowResult (workflowId : String) : Except ClientError Bytes → AppMessage
  | .ok bytes => .workflowResult workflowId true bytes ""
  | .error e => .workflowResult workflowId false [] e.display

/-- `handle_execute_workflow`, up to where it awaits the handler. -/
def handleExecuteWorkflow (s : RaftoralClient) (workflowId workflowName : String) (version : ℕ) :
    RaftoralClient :=
  if (workflowName, version) ∈ s.handlers then { s with receiveTask := .handling workflowId }
  else { s with
    sent := s.sent ++
      [.workflowResult workflowId false [] s!"No handler for workflow {workflowName}:{version}"] }

/-- An event is sent to the waiter under its key. -/
def handleCheckpointEvent (s : RaftoralClient) (workflowId checkpointName : String)
    (value : Bytes) : RaftoralClient :=
  match s.checkpointWaiters (waiterKey workflowId checkpointName) with
  | some i => { s with
      checkpointWaiters :=
        Function.update s.checkpointWaiters (waiterKey workflowId checkpointName) none
      calls := s.calls.modify i (CheckpointCall.returns (.ok value)) }
  | none => s

/-- What the receive task does with an item. -/
def handle (s : RaftoralClient) : Option SidecarMessage → RaftoralClient
  | some (.executeWorkflow workflowId workflowName version _ _) =>
    s.handleExecuteWorkflow workflowId workflowName version
  | some (.checkpointEvent workflowId checkpointName value) =>
    s.handleCheckpointEvent workflowId checkpointName value
  | some (.workflowCancellation _ _) | some (.heartbeatResponse _) | none => s

/-- The owner's half of `checkpoint`, until its value has been sent by `propose_checkpoint`. -/
def proposeCheckpoint (s : RaftoralClient) (i : ℕ) (c : CheckpointCall)
    (serialized : Except String Bytes) (connected : Bool) : RaftoralClient :=
  match serialized, connected with
  | .error reason, _ => { s with
      calls := s.calls.modify i (CheckpointCall.returns (.error (.serialization reason))) }
  | .ok _, false => { s with
      calls := s.calls.modify i (CheckpointCall.returns (.error .connectionClosed)) }
  | .ok value, true => { s with
      sent := s.sent ++ [.checkpointProposal c.workflowId c.name value]
      calls := s.calls.modify i fun c => { c with phase := .proposed } }

/-- What `wait_checkpoint` returns when its sender is dropped. -/
def displacedError : ClientError := .timeout "checkpoint event"

/-- A new sender under a key drops the one that was there. -/
def displace (s : RaftoralClient) (key : String) : List CheckpointCall :=
  match s.checkpointWaiters key with
  | some j => s.calls.modify j (CheckpointCall.returns (.error displacedError))
  | none => s.calls

/-- `wait_checkpoint`, until it awaits its receiver. -/
def waitCheckpoint (s : RaftoralClient) (i : ℕ) (c : CheckpointCall) : RaftoralClient :=
  { s with
    checkpointWaiters := Function.update s.checkpointWaiters c.key (some i)
    calls := (s.displace c.key).modify i (CheckpointCall.waits (s.registered.count c.pair))
    registered := s.registered ++ [c.pair] }

def step (s : RaftoralClient) : ClientOp → Option RaftoralClient
  | .registerHandler name version => some { s with handlers := s.handlers ++ [(name, version)] }
  | .arrive item =>
    if s.receiveTask = .stopped then none else some { s with stream := s.stream ++ [item] }
  | .take =>
    match s.receiveTask, s.stream with
    | .idle, item :: rest =>
      some ({ s with stream := rest, taken := s.taken ++ [item] }.handle item)
    | _, _ => none
  | .close =>
    if s.receiveTask = .idle ∧ s.stream = [] then some { s with receiveTask := .stopped } else none
  | .handlerReturns result =>
    match s.receiveTask with
    | .handling workflowId =>
      if ∀ c ∈ s.calls, c.awaited → c.phase.isReturned then
        some { s with
          receiveTask := .idle
          sent := s.sent ++ [workflowResult workflowId result] }
      else none
    | .idle | .stopped => none
  | .call workflowId name isOwner awaited =>
    if awaited → s.receiveTask.isHandling then
      some { s with calls := s.calls ++ [{ workflowId, name, isOwner, awaited }] }
    else none
  | .propose i serialized connected =>
    match s.calls[i]? with
    | some c =>
      if c.isOwner ∧ c.phase = .called then some (s.proposeCheckpoint i c serialized connected)
      else none
    | none => none
  | .wait i =>
    match s.calls[i]? with
    | some c =>
      if c.phase = c.beforeWaiting then some (s.waitCheckpoint i c) else none
    | none => none

/-- The value of an event of a workflow and a checkpoint name. -/
def valueFor (p : String × String) : Option SidecarMessage → Option Bytes
  | some (.checkpointEvent workflowId checkpointName value) =>
    if (workflowId, checkpointName) = p then some value else none
  | _ => none

/-- The values of their events among the items, in their order. -/
def values (p : String × String) (items : List (Option SidecarMessage)) : List Bytes :=
  items.filterMap (valueFor p)

/-- The receive task awaits a handler that awaits a call that waits for its event. -/
def Blocked (s : RaftoralClient) : Prop := ∃ c ∈ s.calls, c.awaited ∧ c.phase = .waiting

/-- The `k`th event of a pair is that of the `k`th call that registered on it. No call waits whose
event was taken, or has arrived at a receive task that takes nothing any more; no event has been
taken whose call is yet to register; no waiter was displaced; and what a call was given is the
value of its own event. -/
structure Delivered (s : RaftoralClient) : Prop where
  waiting : ∀ c ∈ s.calls, c.phase = .waiting → ∀ k ∈ c.number,
    k < (values c.pair (s.taken ++ s.stream)).length →
      (values c.pair s.taken).length ≤ k ∧ s.receiveTask ≠ .stopped ∧ ¬ s.Blocked
  registering : ∀ c ∈ s.calls, c.Registering →
    (values c.pair s.taken).length ≤ s.registered.count c.pair
  displaced : ∀ c ∈ s.calls, c.phase ≠ .returned (.error displacedError)
  own : ∀ c ∈ s.calls, ∀ value, c.phase = .returned (.ok value) →
    ∃ k ∈ c.number, (values c.pair s.taken)[k]? = some value

/-- An event finds the waiter of a call on its own pair, or no call on its pair is about to
register one. -/
def Expected (s : RaftoralClient) : Option SidecarMessage → Prop
  | some (.checkpointEvent workflowId checkpointName _) =>
    (∀ i ∈ s.checkpointWaiters (waiterKey workflowId checkpointName),
        ∀ c ∈ s.calls[i]?, c.pair = (workflowId, checkpointName)) ∧
      (s.checkpointWaiters (waiterKey workflowId checkpointName) = none →
        ∀ c ∈ s.calls, c.Registering → c.pair ≠ (workflowId, checkpointName))
  | some (.executeWorkflow _ _ _ _ _) | some (.workflowCancellation _ _)
  | some (.heartbeatResponse _) | none => True

/-- A call is made before its event is taken; an event is taken when its call has registered; a
waiter is registered where none stands; and no event that is waited for arrives at, or stands in
the stream before, a handler that waits. -/
def InTime (s : RaftoralClient) : ClientOp → Prop
  | .arrive item => s.Blocked → ∀ c ∈ s.calls, c.phase = .waiting → valueFor c.pair item = none
  | .take => ∀ item ∈ s.stream.head?, s.Expected item
  | .call workflowId name _ _ =>
    (values (workflowId, name) s.taken).length ≤ s.registered.count (workflowId, name)
  | .wait i => ∀ c ∈ s.calls[i]?, s.checkpointWaiters c.key = none ∧
      (c.awaited ∨ s.Blocked → values c.pair s.stream = [] ∧
        ∀ d ∈ s.calls, d.phase = .waiting → values d.pair s.stream = [])
  | .registerHandler _ _ | .close | .handlerReturns _ | .propose _ _ _ => True

instance (s : RaftoralClient) : Decidable s.Blocked :=
  inferInstanceAs (Decidable (∃ c ∈ s.calls, c.awaited ∧ c.phase = .waiting))

instance (s : RaftoralClient) : (item : Option SidecarMessage) → Decidable (s.Expected item)
  | some (.checkpointEvent workflowId checkpointName _) => inferInstanceAs (Decidable (
      (∀ i ∈ s.checkpointWaiters (waiterKey workflowId checkpointName),
          ∀ c ∈ s.calls[i]?, c.pair = (workflowId, checkpointName)) ∧
        (s.checkpointWaiters (waiterKey workflowId checkpointName) = none →
          ∀ c ∈ s.calls, c.Registering → c.pair ≠ (workflowId, checkpointName))))
  | some (.executeWorkflow _ _ _ _ _) | some (.workflowCancellation _ _)
  | some (.heartbeatResponse _) | none => isTrue trivial

instance (s : RaftoralClient) : (op : ClientOp) → Decidable (s.InTime op)
  | .arrive item => inferInstanceAs (Decidable
      (s.Blocked → ∀ c ∈ s.calls, c.phase = .waiting → valueFor c.pair item = none))
  | .take => inferInstanceAs (Decidable (∀ item ∈ s.stream.head?, s.Expected item))
  | .call workflowId name _ _ => inferInstanceAs (Decidable
      ((values (workflowId, name) s.taken).length ≤ s.registered.count (workflowId, name)))
  | .wait i => inferInstanceAs (Decidable
      (∀ c ∈ s.calls[i]?, s.checkpointWaiters c.key = none ∧
        (c.awaited ∨ s.Blocked → values c.pair s.stream = [] ∧
          ∀ d ∈ s.calls, d.phase = .waiting → values d.pair s.stream = [])))
  | .registerHandler _ _ | .close | .handlerReturns _ | .propose _ _ _ => isTrue trivial

end RaftoralClient

/-! ## The calls -/

namespace CheckpointCall

theorem Registering.not_waiting {c : CheckpointCall} (h : c.Registering) : c.phase ≠ .waiting := by
  rcases h with h | h <;> rw [h] <;> exact CallPhase.noConfusion

/-- A call that is yet to register is not one that waits. -/
theorem Registering.ne_of_waiting {calls : List CheckpointCall} {i j : ℕ} {c d : CheckpointCall}
    (h : c.Registering) (hc : calls[i]? = some c) (hd : calls[j]? = some d)
    (hwaiting : d.phase = .waiting) : i ≠ j := by
  rintro rfl
  rw [hc, Option.some.injEq] at hd
  exact h.not_waiting (hd ▸ hwaiting)

theorem registering_of_phase {c : CheckpointCall} (h : c.phase = c.beforeWaiting) :
    c.Registering := by
  unfold beforeWaiting at h
  split at h
  · exact Or.inr h
  · exact Or.inl h

theorem key_eq_of_pair_eq {c d : CheckpointCall} (h : c.pair = d.pair) : c.key = d.key := by
  obtain ⟨hworkflow, hname⟩ := Prod.mk.inj h
  exact congrArg₂ waiterKey hworkflow hname

end CheckpointCall

namespace RaftoralClient

theorem values_append (p : String × String) (items items' : List (Option SidecarMessage)) :
    values p (items ++ items') = values p items ++ values p items' := List.filterMap_append

theorem values_append_event (workflowId name : String) (value : Bytes) (p : String × String)
    (items : List (Option SidecarMessage)) :
    values p (items ++ [some (.checkpointEvent workflowId name value)]) =
      values p items ++ if (workflowId, name) = p then [value] else [] := by
  rw [values_append]
  by_cases heq : (workflowId, name) = p
  · rw [if_pos heq]
    simp [values, valueFor, heq]
  · rw [if_neg heq]
    simp [values, valueFor, heq]

/-- What holds of call `i`. -/
structure CallOk (s : RaftoralClient) (i : ℕ) (c : CheckpointCall) : Prop where
  waiting : c.phase = .waiting → s.checkpointWaiters c.key = some i ∧
    c.number = some (values c.pair s.taken).length ∧
    s.registered.count c.pair = (values c.pair s.taken).length + 1
  registering : c.Registering → (values c.pair s.taken).length ≤ s.registered.count c.pair
  displaced : c.phase ≠ .returned (.error displacedError)
  own : ∀ value, c.phase = .returned (.ok value) →
    ∃ k ∈ c.number, (values c.pair s.taken)[k]? = some value

/-- The waiters are those of the calls that wait; a pair on which nobody waits has had its events;
and while the receive task is blocked the stream holds no event that is waited for. -/
structure Inv (s : RaftoralClient) : Prop where
  calls : ∀ i c, s.calls[i]? = some c → s.CallOk i c
  slot : ∀ key i, s.checkpointWaiters key = some i →
    ∃ c, s.calls[i]? = some c ∧ c.phase = .waiting ∧ c.key = key
  answered : ∀ p, (∀ c ∈ s.calls, c.phase = .waiting → c.pair ≠ p) →
    s.registered.count p ≤ (values p s.taken).length
  blocked : s.Blocked → ∀ c ∈ s.calls, c.phase = .waiting → values c.pair s.stream = []
  stopped : s.receiveTask = .stopped → s.stream = []

theorem inv_start : Inv {} where
  calls i c h := by simp at h
  slot key i h := by simp at h
  answered p _ := by simp
  blocked _ c h := by simp at h
  stopped h := by simp at h

theorem Inv.call {s : RaftoralClient} (h : s.Inv) {c : CheckpointCall} (hc : c ∈ s.calls) :
    ∃ i, s.calls[i]? = some c ∧ s.CallOk i c := by
  obtain ⟨i, hi⟩ := List.mem_iff_getElem?.mp hc
  exact ⟨i, hi, h.calls i c hi⟩

theorem Inv.delivered {s : RaftoralClient} (h : s.Inv) : s.Delivered where
  waiting c hc hwaiting k hk hlt := by
    obtain ⟨i, hi, hok⟩ := h.call hc
    obtain ⟨-, hnumber, -⟩ := hok.waiting hwaiting
    obtain rfl : (values c.pair s.taken).length = k := Option.some.inj (hnumber.symm.trans hk)
    rw [values_append, List.length_append] at hlt
    -- its event is still in the stream
    have hstream : values c.pair s.stream ≠ [] := fun hnil => by
      rw [hnil, List.length_nil] at hlt
      omega
    refine ⟨le_refl _, fun hstopped => hstream ?_, fun hblocked => hstream ?_⟩
    · rw [h.stopped hstopped]
      rfl
    · exact h.blocked hblocked c hc hwaiting
  registering c hc hreg := by
    obtain ⟨i, -, hok⟩ := h.call hc
    exact hok.registering hreg
  displaced c hc := by
    obtain ⟨i, -, hok⟩ := h.call hc
    exact hok.displaced
  own c hc value hvalue := by
    obtain ⟨i, -, hok⟩ := h.call hc
    exact hok.own value hvalue

/-- A call whose pair no step has touched. -/
theorem CallOk.frame {s s' : RaftoralClient} {i : ℕ} {c : CheckpointCall} (h : s.CallOk i c)
    (hslot : c.phase = .waiting → s'.checkpointWaiters c.key = s.checkpointWaiters c.key)
    (hvalues : values c.pair s'.taken = values c.pair s.taken)
    (hcount : s'.registered.count c.pair = s.registered.count c.pair) : s'.CallOk i c where
  waiting hwaiting := by
    rw [hslot hwaiting, hvalues, hcount]
    exact h.waiting hwaiting
  registering hreg := by
    rw [hvalues, hcount]
    exact h.registering hreg
  displaced := h.displaced
  own value hvalue := by
    rw [hvalues]
    exact h.own value hvalue

/-- A step that no call sees. -/
theorem Inv.frame {s s' : RaftoralClient} (h : s.Inv)
    (hwaiters : s'.checkpointWaiters = s.checkpointWaiters) (hcalls : s'.calls = s.calls)
    (hregistered : s'.registered = s.registered)
    (htaken : ∀ p, values p s'.taken = values p s.taken)
    (hstream : s.Blocked → ∀ c ∈ s.calls, c.phase = .waiting → values c.pair s'.stream = [])
    (hstopped : s'.receiveTask = .stopped → s'.stream = []) : s'.Inv where
  calls i c hc := by
    rw [hcalls] at hc
    exact (h.calls i c hc).frame (fun _ => by rw [hwaiters]) (htaken _) (by rw [hregistered])
  slot key i hkey := by
    rw [hwaiters] at hkey
    rw [hcalls]
    exact h.slot key i hkey
  answered p hp := by
    rw [hcalls] at hp
    rw [hregistered, htaken]
    exact h.answered p hp
  blocked hblocked c hc hwaiting := by
    have hblocked' : s.Blocked := by
      unfold Blocked at hblocked ⊢
      rwa [hcalls] at hblocked
    exact hstream hblocked' c (hcalls ▸ hc) hwaiting
  stopped := hstopped

end RaftoralClient

end Raftoral

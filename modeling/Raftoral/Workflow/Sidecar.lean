import Raftoral.Lib.Run
import Raftoral.Workflow.Outcome

/-!
# Workflows that run in an app

The model of `workflow_proxy_runtime.rs`, the start-up of a sidecar node in `full_node/mod.rs`
and the part of `sidecar/server.rs` between them. A node has a proxy runtime for each
sub-cluster it is in. They send their requests to one server, which passes them to the apps and
sends the results back.

All runtimes share one `ProxyConfig`. Its result sender is replaced by each constructor, and the
server copies it once. Requests and results do not say which cluster they belong to; here they
carry the cluster as a mark that no step reads. The constructors take the lock of the
configuration with `blocking_lock`, which panics on an async task, and the observer of the
management cluster, which is their only caller, is one.
-/

namespace Raftoral

/-- Request to execute a workflow on an external app. -/
structure ExecutionRequest where
  workflowId : String
  workflowName : String
  version : ℕ
  input : Bytes
  isOwner : Bool
deriving DecidableEq, Repr

/-- Something about a request, marked with the cluster whose event produced the request. -/
structure Marked (α : Type) where
  value : α
  cluster : ℕ
deriving DecidableEq, Repr

/-- A `WorkflowEnd` proposed in a cluster. -/
structure ProposedEnd where
  clusterId : ℕ
  command : WorkflowCommand
  /-- The mark of the result. -/
  askedBy : ℕ
deriving DecidableEq, Repr

/-- Where a constructor is called: on an async task, as the observer does, or on a thread that may
block. -/
inductive CallContext where
  | asyncTask
  | blockingThread
deriving DecidableEq, Repr

/-- A sidecar node. The result channels are numbered: 0 is the one of `ProxyConfig::new`, whose
receiver nobody reads, and `k + 1` is the one of the runtime constructed as number `k`. -/
structure SidecarNode where
  nodeId : ℕ
  /-- The observer of the management cluster runs. -/
  observing : Bool := true
  /-- The clusters of the runtimes, in the order of their construction. -/
  runtimes : List ℕ := []
  /-- The sender in the shared `ProxyConfig`. -/
  executionResultTx : ℕ := 0
  /-- The request channel. -/
  requests : List (Marked ExecutionRequest) := []
  /-- The sender that the server copied at its start. -/
  serverResultTx : Option ℕ := none
  /-- The requests the apps were sent. -/
  delivered : List (Marked ExecutionRequest) := []
  results : ℕ → List (Marked ExecutionResult) := fun _ => []
  proposed : List ProposedEnd := []

/-- What an app says about a request. -/
structure AppReport where
  success : Bool
  result : Bytes
  error : String
deriving DecidableEq, Repr

inductive SidecarOp where
  /-- A constructor is called for a sub-cluster. -/
  | construct (context : CallContext) (clusterId : ℕ)
  /-- `set_proxy_channels` and `start`. -/
  | startServer
  /-- Runtime `k` sees `WorkflowStarted` and its request is sent. -/
  | workflowStarted (k : ℕ) (workflowId workflowType : String) (version ownerNodeId : ℕ)
  /-- The server takes a request, with or without an app that is connected. -/
  | forward (connected : Bool)
  /-- An app reports on a request it was sent. -/
  | report (request : ℕ) (outcome : AppReport)
  /-- Runtime `k` takes a result and proposes `WorkflowEnd`. -/
  | receive (k : ℕ)
deriving DecidableEq, Repr

namespace SidecarNode

/-- The capacity of the channels. -/
def capacity : ℕ := 100

/-- The cluster of the runtime that reads a channel. -/
def reader (s : SidecarNode) : ℕ → Option ℕ
  | 0 => none
  | k + 1 => s.runtimes[k]?

/-- The end of both constructors: a new channel, whose sender goes into the shared
configuration. -/
def constructed (s : SidecarNode) (clusterId : ℕ) : SidecarNode :=
  { s with runtimes := s.runtimes ++ [clusterId], executionResultTx := s.runtimes.length + 1 }

/-- Both constructors, which panic on an async task. -/
def construct (s : SidecarNode) (clusterId : ℕ) : CallContext → Option SidecarNode
  | .asyncTask => none
  | .blockingThread => some (s.constructed clusterId)

/-- `forward_workflow_to_app`. The input is not looked up yet and is empty. -/
def executionRequest (s : SidecarNode) (workflowId workflowType : String)
    (version ownerNodeId : ℕ) : ExecutionRequest where
  workflowId := workflowId
  workflowName := workflowType
  version := version
  input := []
  isOwner := ownerNodeId == s.nodeId

/-- The result an app's report on a request becomes. -/
def executionResult (request : ExecutionRequest) (outcome : AppReport) : ExecutionResult where
  workflowId := request.workflowId
  success := outcome.success
  result := outcome.result
  error := outcome.error

/-- Send a result on a channel. -/
def sendResult (s : SidecarNode) (channel : ℕ) (result : Marked ExecutionResult) : SidecarNode :=
  { s with results := Function.update s.results channel (s.results channel ++ [result]) }

/-- `handle_workflow_result` of a runtime. -/
def handleResult (s : SidecarNode) (clusterId : ℕ) (result : Marked ExecutionResult) :
    SidecarNode :=
  { s with
    proposed := s.proposed ++
      [{ clusterId := clusterId
         command := .workflowEnd result.value.workflowId (handleWorkflowResult result.value)
         askedBy := result.cluster }] }

/-- A step. A constructor that panics ends the observer. A sender waits while its channel is full;
sending on channel 0 goes nowhere. -/
def step (s : SidecarNode) : SidecarOp → Option SidecarNode
  | .construct context clusterId =>
    match s.construct clusterId context with
    | some s' => some s'
    | none => if s.observing then some { s with observing := false } else none
  | .startServer =>
    match s.serverResultTx with
    | none => some { s with serverResultTx := some s.executionResultTx }
    | some _ => none
  | .workflowStarted k workflowId workflowType version ownerNodeId =>
    match s.runtimes[k]? with
    | none => none
    | some clusterId =>
      if s.requests.length < capacity then
        some { s with
          requests := s.requests ++
            [⟨s.executionRequest workflowId workflowType version ownerNodeId, clusterId⟩] }
      else none
  | .forward connected =>
    match s.serverResultTx, s.requests with
    | some _, request :: rest =>
      some { s with
        requests := rest
        delivered := if connected then s.delivered ++ [request] else s.delivered }
    | _, _ => none
  | .report i outcome =>
    match s.serverResultTx, s.delivered[i]? with
    | some channel, some request =>
      if channel = 0 ∨ (s.results channel).length < capacity then
        some (s.sendResult channel ⟨executionResult request.value outcome, request.cluster⟩)
      else none
    | _, _ => none
  | .receive k =>
    match s.runtimes[k]?, s.results (k + 1) with
    | some clusterId, result :: rest =>
      some ({ s with results := Function.update s.results (k + 1) rest }.handleResult clusterId
        result)
    | _, _ => none

/-- Every result is on its way to a runtime of the cluster that asked, and every `WorkflowEnd` is
proposed there. -/
structure ReturnsToAsker (s : SidecarNode) : Prop where
  waiting : ∀ channel, ∀ result ∈ s.results channel, s.reader channel = some result.cluster
  proposed : ∀ p ∈ s.proposed, p.clusterId = p.askedBy

/-- A report is on a request of the cluster whose runtime was the last to be constructed before
the server started. -/
def FromLastConstructed (s : SidecarNode) : SidecarOp → Prop
  | .report i _ => ∀ channel ∈ s.serverResultTx, ∀ request ∈ s.delivered[i]?,
      s.reader channel = some request.cluster
  | _ => True

instance (s : SidecarNode) (op : SidecarOp) : Decidable (s.FromLastConstructed op) :=
  match op with
  | .report i _ => inferInstanceAs (Decidable (∀ channel ∈ s.serverResultTx,
      ∀ request ∈ s.delivered[i]?, s.reader channel = some request.cluster))
  | .construct _ _ | .startServer | .workflowStarted _ _ _ _ _ | .forward _ | .receive _ =>
    isTrue trivial

/-! ## Steps -/

/-- What a step did, and what it needed. -/
inductive Stepped (s : SidecarNode) : SidecarOp → SidecarNode → Prop where
  | construct (clusterId : ℕ) :
      Stepped s (.construct .blockingThread clusterId) (s.constructed clusterId)
  | panic (clusterId : ℕ) (hobserving : s.observing) :
      Stepped s (.construct .asyncTask clusterId) { s with observing := false }
  | startServer (hserver : s.serverResultTx = none) :
      Stepped s .startServer { s with serverResultTx := some s.executionResultTx }
  | workflowStarted {k clusterId : ℕ} {workflowId workflowType : String} {version owner : ℕ}
      (hk : s.runtimes[k]? = some clusterId) :
      Stepped s (.workflowStarted k workflowId workflowType version owner)
        { s with
          requests := s.requests ++
            [⟨s.executionRequest workflowId workflowType version owner, clusterId⟩] }
  | forward {connected : Bool} {request : Marked ExecutionRequest}
      {rest : List (Marked ExecutionRequest)} (hrequests : s.requests = request :: rest) :
      Stepped s (.forward connected)
        { s with
          requests := rest
          delivered := if connected then s.delivered ++ [request] else s.delivered }
  | report {i channel : ℕ} {outcome : AppReport} {request : Marked ExecutionRequest}
      (hserver : s.serverResultTx = some channel) (hrequest : s.delivered[i]? = some request) :
      Stepped s (.report i outcome)
        (s.sendResult channel ⟨executionResult request.value outcome, request.cluster⟩)
  | receive {k clusterId : ℕ} {result : Marked ExecutionResult}
      {rest : List (Marked ExecutionResult)} (hk : s.runtimes[k]? = some clusterId)
      (hresults : s.results (k + 1) = result :: rest) :
      Stepped s (.receive k)
        ({ s with results := Function.update s.results (k + 1) rest }.handleResult clusterId result)

theorem stepped {s s' : SidecarNode} {op : SidecarOp} (hs : s.step op = some s') :
    Stepped s op s' := by
  cases op with
  | construct context clusterId =>
    cases context with
    | asyncTask =>
      simp only [step, construct, Option.ite_none_right_eq_some, Option.some.injEq] at hs
      obtain ⟨hobserving, rfl⟩ := hs
      exact .panic clusterId hobserving
    | blockingThread =>
      obtain rfl := Option.some.inj hs
      exact .construct clusterId
  | startServer =>
    unfold step at hs
    dsimp only at hs
    split at hs
    next hserver =>
      obtain rfl := Option.some.inj hs
      exact .startServer hserver
    next => exact absurd hs (by simp)
  | workflowStarted k workflowId workflowType version owner =>
    unfold step at hs
    dsimp only at hs
    split at hs
    next => exact absurd hs (by simp)
    next clusterId hk =>
      simp only [Option.ite_none_right_eq_some, Option.some.injEq] at hs
      obtain ⟨-, rfl⟩ := hs
      exact .workflowStarted hk
  | forward connected =>
    unfold step at hs
    dsimp only at hs
    split at hs
    next hrequests =>
      obtain rfl := Option.some.inj hs
      exact .forward hrequests
    next => exact absurd hs (by simp)
  | report i outcome =>
    unfold step at hs
    dsimp only at hs
    split at hs
    next hserver hrequest =>
      simp only [Option.ite_none_right_eq_some, Option.some.injEq] at hs
      obtain ⟨-, rfl⟩ := hs
      exact .report hserver hrequest
    next => exact absurd hs (by simp)
  | receive k =>
    unfold step at hs
    dsimp only at hs
    split at hs
    next hk hresults =>
      obtain rfl := Option.some.inj hs
      exact .receive hk hresults
    next => exact absurd hs (by simp)

theorem reader_constructed {s : SidecarNode} {channel cluster clusterId : ℕ}
    (h : s.reader channel = some cluster) :
    (s.constructed clusterId).reader channel = some cluster := by
  cases channel with
  | zero => exact h
  | succ k =>
    -- the new channel comes behind those there are
    have hk : s.runtimes[k]? = some cluster := h
    have hlt : k < s.runtimes.length := (List.getElem?_eq_some_iff.mp hk).1
    rw [reader, constructed]
    dsimp only
    rw [List.getElem?_append_left hlt, hk]

theorem results_sendResult (s : SidecarNode) (channel c : ℕ) (result : Marked ExecutionResult) :
    (s.sendResult channel result).results c =
      if c = channel then s.results channel ++ [result] else s.results c := by
  simp [sendResult, Function.update_apply]

theorem ReturnsToAsker.sendResult {s : SidecarNode} (h : s.ReturnsToAsker) {channel : ℕ}
    {result : Marked ExecutionResult} (hreader : s.reader channel = some result.cluster) :
    (s.sendResult channel result).ReturnsToAsker := by
  refine ⟨fun c r hr => ?_, h.proposed⟩
  rw [results_sendResult] at hr
  by_cases hc : c = channel
  · subst hc
    rw [if_pos rfl] at hr
    rcases List.mem_append.mp hr with hr | hr
    · exact h.waiting c r hr
    · rw [List.mem_singleton.mp hr]
      exact hreader
  · rw [if_neg hc] at hr
    exact h.waiting c r hr

/-- A runtime that takes a result of its channel proposes in its own cluster. -/
theorem ReturnsToAsker.receive {s : SidecarNode} (h : s.ReturnsToAsker) {k clusterId : ℕ}
    {result : Marked ExecutionResult} {rest : List (Marked ExecutionResult)}
    (hk : s.runtimes[k]? = some clusterId) (hresults : s.results (k + 1) = result :: rest) :
    ({ s with results := Function.update s.results (k + 1) rest }.handleResult clusterId
      result).ReturnsToAsker := by
  refine ⟨fun c r hr => ?_, fun p hp => ?_⟩
  · have hmem : r ∈ Function.update s.results (k + 1) rest c := hr
    rw [Function.update_apply] at hmem
    split_ifs at hmem with hc
    · subst hc
      exact h.waiting (k + 1) r (by rw [hresults]; exact List.mem_cons_of_mem _ hmem)
    · exact h.waiting c r hmem
  · rcases List.mem_append.mp hp with hp | hp
    · exact h.proposed p hp
    · rw [List.mem_singleton.mp hp]
      have hreader := h.waiting (k + 1) result (by rw [hresults]; exact List.mem_cons_self)
      rw [reader, hk] at hreader
      exact Option.some.inj hreader

theorem step_returnsToAsker {s s' : SidecarNode} {op : SidecarOp} (h : s.ReturnsToAsker)
    (hlast : s.FromLastConstructed op) (hs : s.step op = some s') : s'.ReturnsToAsker := by
  cases stepped hs with
  | construct clusterId =>
    exact ⟨fun c r hr => reader_constructed (h.waiting c r hr), h.proposed⟩
  | panic => exact ⟨h.waiting, h.proposed⟩
  | startServer => exact ⟨h.waiting, h.proposed⟩
  | workflowStarted => exact ⟨h.waiting, h.proposed⟩
  | forward => exact ⟨h.waiting, h.proposed⟩
  | report hserver hrequest => exact h.sendResult (hlast _ hserver _ hrequest)
  | receive hk hresults => exact h.receive hk hresults

/-- The configuration holds the sender of the runtime that was constructed last. -/
theorem executionResultTx_of_step {s s' : SidecarNode} {op : SidecarOp}
    (h : s.executionResultTx = s.runtimes.length) (hs : s.step op = some s') :
    s'.executionResultTx = s'.runtimes.length := by
  cases stepped hs with
  | construct clusterId => simp [constructed]
  | _ => exact h

theorem executionResultTx_eq_length {nodeId : ℕ} {ops : List SidecarOp} {s : SidecarNode}
    (hrun : Transition.run step { nodeId := nodeId } ops = some s) :
    s.executionResultTx = s.runtimes.length :=
  Transition.run_induction
    (I := fun s => s.executionResultTx = s.runtimes.length)
    (fun _ _ _ h _ hs => executionResultTx_of_step h hs) rfl
    Transition.along_true hrun

/-- So the server sends to the runtime that was constructed last before it started, if any. -/
theorem reader_of_startServer {s s' : SidecarNode}
    (h : s.executionResultTx = s.runtimes.length) (hs : s.step .startServer = some s') :
    ∃ channel, s'.serverResultTx = some channel ∧ s'.reader channel = s.runtimes.getLast? := by
  cases stepped hs with
  | startServer =>
    refine ⟨s.executionResultTx, rfl, ?_⟩
    rw [h]
    cases hlength : s.runtimes.length with
    | zero => rw [List.length_eq_zero_iff.mp hlength]; rfl
    | succ k => rw [List.getLast?_eq_getElem?, hlength]; rfl

/-- A report on another cluster's request is at once in a channel that its asker does not read. -/
theorem fromLastConstructed_of_step {s s' : SidecarNode} {op : SidecarOp}
    (hs : s.step op = some s') (h' : s'.ReturnsToAsker) : s.FromLastConstructed op := by
  cases stepped hs with
  | @report i channel outcome request hserver hrequest =>
    intro channel' hserver' request' hrequest'
    obtain rfl := Option.some.inj (hserver.symm.trans hserver')
    obtain rfl := Option.some.inj (hrequest.symm.trans hrequest')
    refine h'.waiting channel ⟨executionResult request.value outcome, request.cluster⟩ ?_
    rw [results_sendResult, if_pos rfl]
    exact List.mem_append_right _ (List.mem_singleton.mpr rfl)
  | _ => trivial

theorem returnsToAsker_start (nodeId : ℕ) : ReturnsToAsker { nodeId := nodeId } where
  waiting _ _ hr := absurd hr List.not_mem_nil
  proposed _ hp := absurd hp List.not_mem_nil

/-- Results go back to the cluster that asked in every state of a run exactly when all of them
are for the cluster whose runtime was the last to be constructed before the server started. -/
theorem returns_to_asker_iff (nodeId : ℕ) (ops : List SidecarOp) (s : SidecarNode)
    (hrun : Transition.run step { nodeId := nodeId } ops = some s) :
    (∀ ops' u, ops' <+: ops → Transition.run step { nodeId := nodeId } ops' = some u →
      u.ReturnsToAsker) ↔
      Transition.Along step FromLastConstructed { nodeId := nodeId } ops := by
  refine Transition.always_iff_along (K := fun _ _ => True) (I := ReturnsToAsker)
    (fun s op s' h _ hlast hs => step_returnsToAsker h hlast hs) (fun _ h => h)
    (fun s op s' _ _ hs h' => fromLastConstructed_of_step hs h') (returnsToAsker_start nodeId) ?_
    hrun
  exact Transition.along_true

/-- No workflow was ever asked for. -/
structure Idle (s : SidecarNode) : Prop where
  runtimes : s.runtimes = []
  requests : s.requests = []
  delivered : s.delivered = []
  proposed : s.proposed = []

/-- While the observer is the only one that calls the constructors, there is no runtime, and so
neither a request nor a result. -/
theorem idle_of_asyncTask {nodeId : ℕ} {ops : List SidecarOp} {s : SidecarNode}
    (hcaller : ∀ clusterId, SidecarOp.construct .blockingThread clusterId ∉ ops)
    (hrun : Transition.run step { nodeId := nodeId } ops = some s) : s.Idle := by
  have hcalls : Transition.Along step
      (fun _ op => ∀ clusterId, op ≠ .construct .blockingThread clusterId)
      { nodeId := nodeId } ops :=
    Transition.along_of_forall fun op hop clusterId heq => hcaller clusterId (heq ▸ hop)
  refine Transition.run_induction (I := Idle) (fun s op s' h hop hs => ?_) ⟨rfl, rfl, rfl, rfl⟩
    hcalls hrun
  -- without a runtime nothing is sent, so there is nothing to forward, report or receive
  cases stepped hs with
  | construct clusterId => exact absurd rfl (hop clusterId)
  | panic => exact ⟨h.runtimes, h.requests, h.delivered, h.proposed⟩
  | startServer => exact ⟨h.runtimes, h.requests, h.delivered, h.proposed⟩
  | workflowStarted hk => simp [h.runtimes] at hk
  | forward hrequests => simp [h.requests] at hrequests
  | report hserver hrequest => simp [h.delivered] at hrequest
  | receive hk => simp [h.runtimes] at hk

/-- Runtimes of two clusters are constructed, the server starts in between or behind, and a
workflow of the cluster with number `k` is run. -/
def twoClusters (before between : List SidecarOp) (k : ℕ) : List SidecarOp :=
  before ++ between ++ [.workflowStarted k "w" "t" 1 1, .forward true, .report 0 ⟨true, [], ""⟩,
    .receive 0]

/-- With one cluster the result is proposed where it belongs. -/
theorem returns_to_asker_one_cluster :
    ∃ s, Transition.run step { nodeId := 1 }
        (twoClusters [.construct .blockingThread 1] [.startServer] 0) = some s ∧
      s.proposed = [⟨1, .workflowEnd "w" [], 1⟩] ∧ s.ReturnsToAsker := by
  obtain ⟨s, hrun, hproposed⟩ : ∃ s ∈ Transition.run step { nodeId := 1 }
      (twoClusters [.construct .blockingThread 1] [.startServer] 0),
      s.proposed = [⟨1, .workflowEnd "w" [], 1⟩] := by decide
  refine ⟨s, hrun, hproposed, (returns_to_asker_iff 1 _ s hrun).mpr (by decide) _ s ?_ hrun⟩
  exact List.prefix_rfl

/-- The result of a workflow of the second cluster is proposed in the first. -/
theorem result_proposed_in_other_cluster :
    ∃ s ∈ Transition.run step { nodeId := 1 } (twoClusters [.construct .blockingThread 1]
        [.startServer, .construct .blockingThread 2] 1),
      s.proposed = [⟨1, .workflowEnd "w" [], 2⟩] ∧ ¬ s.ReturnsToAsker := by
  obtain ⟨s, hrun, hproposed⟩ : ∃ s ∈ Transition.run step { nodeId := 1 }
      (twoClusters [.construct .blockingThread 1] [.startServer, .construct .blockingThread 2] 1),
      s.proposed = [⟨1, .workflowEnd "w" [], 2⟩] := by decide
  refine ⟨s, hrun, hproposed, fun h => ?_⟩
  have heq := h.proposed ⟨1, .workflowEnd "w" [], 2⟩
    (by rw [hproposed]; exact List.mem_singleton.mpr rfl)
  exact absurd heq (by decide)

end SidecarNode

end Raftoral

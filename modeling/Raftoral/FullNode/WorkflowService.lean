import Raftoral.Workflow.Lifecycle
import Raftoral.Workflow.Outcome

/-!
# Running a workflow for a client

`run_workflow_sync` waits for the completion event of the workflow, reads the `Result` in it and
writes the value again. `run_workflow_async` only starts the workflow; the client then asks
`wait_for_workflow_completion`, or the wait handler of the HTTP server, which poll the state
machine and pass on the bytes they find. Those bytes are the text of the whole `Result`, so a
client is told `{"Ok":v}` where it would be told `v`, and success where it would be told of an
error (`sync_differs_from_polling`).

Strings of the responses that hold JSON are given by their bytes.
-/

namespace Raftoral

open Json (Value isUtf8)
open WorkflowStateMachine
open Serde

/-- The errors of a gRPC call. -/
inductive Status where
  | failedPrecondition (message : String)
  | invalidArgument (message : String)
  | internal (message : String)
deriving DecidableEq, Repr

structure RunWorkflowResponse where
  success : Bool
  resultJson : Bytes
  error : String
deriving DecidableEq, Repr

structure RunWorkflowAsyncResponse where
  success : Bool
  workflowId : String
  executionClusterId : String
  error : String
deriving DecidableEq, Repr

/-- The answer of the HTTP server: its status code and the JSON body. -/
structure JsonWorkflowResultResponse where
  statusCode : ℕ
  success : Bool
  result : Option Bytes
  error : Option String
deriving DecidableEq, Repr

/-- `Display`. -/
def WorkflowError.display : WorkflowError → String
  | .alreadyExists id => s!"Workflow '{id}' already exists"
  | .notFound id => s!"Workflow '{id}' not found"
  | .notLeader => "Not the leader - cannot start workflows"
  | .clusterError msg => s!"Cluster error: {msg}"
  | .timeout => "Timeout waiting for workflow to start"
  | .serializationError msg => s!"Serialization error: {msg}"
  | .deserializationError msg => s!"Deserialization error: {msg}"

/-- `parse::<u32>`. -/
def parseU32 (s : String) : Except String ℕ :=
  let rec digits (n : ℕ) : List Char → Except String ℕ
    | [] => .ok n
    | c :: cs =>
      if c.isDigit then
        let n' := n * 10 + (c.toNat - '0'.toNat)
        if n' < 2 ^ 32 then digits n' cs else .error "number too large to fit in target type"
      else .error "invalid digit found in string"
  match s.toList with
  | [] => .error "cannot parse integer from empty string"
  | ['+'] => .error "invalid digit found in string"
  | '+' :: cs => digits 0 cs
  | cs => digits 0 cs

/-- What the handlers of a node read: the clusters that run on it, what starting a workflow comes
to, and the state machine at each poll. `Uuid::parse_str` and the text of a UTF-8 error are not
part of the repository. -/
structure ServiceEnv where
  available : ℕ → Bool
  startWorkflow : String → Value → Except WorkflowError Unit
  machines : ℕ → WorkflowStateMachine
  parseUuid : String → Except String Unit
  utf8Error : Bytes → String

/-- The message of a node without the cluster. -/
def notAvailable (clusterId : ℕ) : String :=
  s!"Execution cluster {clusterId} not available on this node"

/-! ## The handlers -/

section
variable [JsonText]

/-- The response to a workflow that has ended. -/
def syncResponse : Except WorkflowError Value → RunWorkflowResponse
  | .ok outputValue => ⟨true, JsonText.print outputValue, ""⟩
  | .error e => ⟨false, [], e.display⟩

/-- `run_workflow_sync` over the events received so far. -/
def runWorkflowSync (env : ServiceEnv) (workflowId : String) (inputJson : Bytes)
    (receipts : List EventReceipt) : Option (Except Status RunWorkflowResponse) :=
  if env.available 1 then
    match JsonText.parse inputJson with
    | .error e => some (.error (.invalidArgument s!"Invalid input JSON: {e}"))
    | .ok inputValue =>
      match env.startWorkflow workflowId inputValue with
      | .error e => some (.ok ⟨false, [], e.display⟩)
      | .ok () => (waitForCompletion workflowId receipts).map fun r => .ok (syncResponse r)
  else some (.error (.failedPrecondition (notAvailable 1)))

def runWorkflowAsync (env : ServiceEnv) (workflowId : String) (inputJson : Bytes) :
    Except Status RunWorkflowAsyncResponse :=
  if env.available 1 then
    match JsonText.parse inputJson with
    | .error e => .error (.invalidArgument s!"Invalid input JSON: {e}")
    | .ok inputValue =>
      match env.startWorkflow workflowId inputValue with
      | .error e => .ok ⟨false, "", "", e.display⟩
      | .ok () => .ok ⟨true, workflowId, toString 1, ""⟩
  else .error (.failedPrecondition (notAvailable 1))

end

/-- The timeout of a request; 60 seconds if it gives none. -/
def timeoutOf (timeoutSeconds : ℕ) : ℕ := if timeoutSeconds = 0 then 60 else timeoutSeconds

/-- A poll every 100 milliseconds. -/
def maxPolls (timeoutSeconds : ℕ) : ℕ := timeoutOf timeoutSeconds * 1000 / 100

/-- The result the first successful poll finds. -/
def pollResult (env : ServiceEnv) (workflowId : String) (timeoutSeconds : ℕ) : Option Bytes :=
  (List.range (maxPolls timeoutSeconds)).findSome? fun k => (env.machines k).getResult workflowId

def timeoutMessage (timeoutSeconds : ℕ) : String :=
  s!"Timeout waiting for workflow completion ({timeoutSeconds}s)"

/-- The message of a result that is no text. -/
def undecoded (env : ServiceEnv) (resultBytes : Bytes) : String :=
  "Failed to decode workflow result: " ++ env.utf8Error resultBytes

def waitForWorkflowCompletion (env : ServiceEnv) (workflowId executionClusterId : String)
    (timeoutSeconds : ℕ) : Except Status RunWorkflowResponse :=
  match env.parseUuid workflowId with
  | .error e => .error (.invalidArgument s!"Invalid workflow_id: {e}")
  | .ok () =>
    match parseU32 executionClusterId with
    | .error e => .error (.invalidArgument s!"Invalid execution_cluster_id: {e}")
    | .ok clusterId =>
      if env.available clusterId then
        match pollResult env workflowId timeoutSeconds with
        | none => .ok ⟨false, [], timeoutMessage (timeoutOf timeoutSeconds)⟩
        | some resultBytes =>
          if isUtf8 resultBytes then .ok ⟨true, resultBytes, ""⟩
          else .error (.internal (undecoded env resultBytes))
      else .error (.failedPrecondition (notAvailable clusterId))

/-- `handle_workflow_wait` of the HTTP server. -/
def handleWorkflowWait (env : ServiceEnv) (workflowId executionClusterId : String)
    (timeoutSeconds : ℕ) : JsonWorkflowResultResponse :=
  match env.parseUuid workflowId with
  | .error e => ⟨400, false, none, some s!"Invalid workflow_id: {e}"⟩
  | .ok () =>
    match parseU32 executionClusterId with
    | .error e => ⟨400, false, none, some s!"Invalid execution_cluster_id: {e}"⟩
    | .ok clusterId =>
      if env.available clusterId then
        match pollResult env workflowId timeoutSeconds with
        | none => ⟨200, false, none, some (timeoutMessage (timeoutOf timeoutSeconds))⟩
        | some resultBytes =>
          if isUtf8 resultBytes then ⟨200, true, some resultBytes, none⟩
          else ⟨500, false, none, some (undecoded env resultBytes)⟩
      else ⟨500, false, none, some (notAvailable clusterId)⟩

/-! ## The answers -/

/-- What a client is told: whether the workflow succeeded, its result if it did and an error if
it did not. -/
structure ClientAnswer where
  success : Bool
  result : Bytes
  error : String
deriving DecidableEq, Repr

def RunWorkflowResponse.answer (r : RunWorkflowResponse) : ClientAnswer :=
  ⟨r.success, r.resultJson, r.error⟩

def JsonWorkflowResultResponse.answer (r : JsonWorkflowResultResponse) : ClientAnswer :=
  ⟨r.success, r.result.getD [], r.error.getD ""⟩

/-- Two answers agree: the same success flag, the same result on success, and an error each on
failure. -/
def ClientAnswer.Agrees (a b : ClientAnswer) : Prop :=
  a.success = b.success ∧ (a.success = true → a.result = b.result) ∧
    (a.success = false → a.error ≠ "" ∧ b.error ≠ "")

section
variable [JsonText]

/-- The text of a value is not the text of a result around it. -/
theorem completion_ne_print {b : Bytes} {v : Value} (h : completion b = .ok v) :
    JsonText.print v ≠ b := by
  intro hb
  unfold completion at h
  cases hread : (fromSlice b : Except String (Except WorkflowError Value)) with
  | error e => simp [hread] at h
  | ok r =>
    rw [hread] at h
    dsimp only at h
    obtain ⟨w, hparse, hw⟩ := fromSlice_eq_ok (hread.trans (congrArg Except.ok h))
    rcases resultOfValue_cases hw with ⟨x, o, rfl, hx, hr⟩ | ⟨x, e, -, -, hr⟩
    · obtain rfl := Except.ok.inj hr
      obtain rfl := Except.ok.inj hx
      rw [← hb, JsonText.parse_print] at hparse
      have hsize := congrArg sizeOf (Except.ok.inj hparse)
      simp at hsize
      omega
    · exact absurd hr (by simp)

/-- Whatever bytes a workflow ends with, the one reading of them and the other do not agree. -/
theorem syncResponse_disagrees (b : Bytes) (error : String) :
    ¬ (syncResponse (completion b)).answer.Agrees ⟨true, b, error⟩ := by
  rintro ⟨hsuccess, hresult, -⟩
  cases hread : (completion b : Except WorkflowError Value) with
  | error e =>
    rw [hread] at hsuccess
    exact absurd hsuccess (by simp [syncResponse, RunWorkflowResponse.answer])
  | ok v =>
    rw [hread] at hresult
    exact completion_ne_print hread (hresult rfl)

/-- The bytes of an executed workflow are a text. -/
theorem isUtf8_executeWorkflow {I O : Type} [SerdeValue I] [SerdeValue O]
    (body : I → Except WorkflowError O) (input : Bytes) :
    isUtf8 (executeWorkflow body input) = true := by
  unfold executeWorkflow boxedExecute
  cases (fromSlice input : Except String I) with
  | error e => exact JsonText.isUtf8_print _
  | ok i =>
    dsimp only
    cases hbytes : toVec (body i) with
    | error e => exact JsonText.isUtf8_print _
    | ok bytes =>
      obtain ⟨v, -, rfl⟩ := map_eq_ok hbytes
      exact JsonText.isUtf8_print v

/-! ## The two ways of running a workflow -/

variable {I O : Type} [SerdeValue I] [SerdeValue O]

/-- The workflow is run both ways, with the same input, and both runs end in time: the event of
the one is received, and the end of the other is applied before the last poll. -/
structure BothFinish (env : ServiceEnv) (body : I → Except WorkflowError O) (inputJson : Bytes)
    (input : Value) (syncId asyncId : String) (timeoutSeconds : ℕ)
    (receipts : List EventReceipt) : Prop where
  available : env.available 1 = true
  parsed : JsonText.parse inputJson = .ok input
  syncStarted : env.startWorkflow syncId input = .ok ()
  asyncStarted : env.startWorkflow asyncId input = .ok ()
  uuid : env.parseUuid asyncId = .ok ()
  received : ∃ sm before after,
    (waitForCompletion syncId before : Option (Except WorkflowError Value)) = none ∧
      receipts = before ++
        (endReceipts sm (.workflowEnd syncId (executeWorkflow body (JsonText.print input))) ++ after)
  applied : ∃ applied : ℕ → List WorkflowCommand,
    (∀ k, env.machines k = (applyAll {} (applied k)).2) ∧
      (∀ k bytes, .workflowEnd asyncId bytes ∈ applied k →
        bytes = executeWorkflow body (JsonText.print input)) ∧
      ∃ k < maxPolls timeoutSeconds,
        .workflowEnd asyncId (executeWorkflow body (JsonText.print input)) ∈ applied k

namespace BothFinish

variable {env : ServiceEnv} {body : I → Except WorkflowError O} {inputJson : Bytes} {input : Value}
  {syncId asyncId : String} {timeoutSeconds : ℕ} {receipts : List EventReceipt}

theorem runWorkflowSync_eq
    (h : BothFinish env body inputJson input syncId asyncId timeoutSeconds receipts) :
    runWorkflowSync env syncId inputJson receipts =
      some (.ok (syncResponse (completion (executeWorkflow body (JsonText.print input))))) := by
  obtain ⟨sm, before, after, hbefore, rfl⟩ := h.received
  have hwait := waitForCompletion_append hbefore
    (endReceipts sm (.workflowEnd syncId (executeWorkflow body (JsonText.print input))) ++ after)
  have hend : (waitForCompletion syncId
      (endReceipts sm (.workflowEnd syncId (executeWorkflow body (JsonText.print input))) ++ after) :
        Option (Except WorkflowError Value)) =
      some (completion (executeWorkflow body (JsonText.print input))) := if_pos rfl
  rw [runWorkflowSync, if_pos h.available, h.parsed]
  dsimp only
  rw [h.syncStarted]
  dsimp only
  rw [hwait, hend, Option.map_some]

theorem runWorkflowAsync_eq
    (h : BothFinish env body inputJson input syncId asyncId timeoutSeconds receipts) :
    runWorkflowAsync env asyncId inputJson = .ok ⟨true, asyncId, toString 1, ""⟩ := by
  rw [runWorkflowAsync, if_pos h.available, h.parsed]
  dsimp only
  rw [h.asyncStarted]

theorem pollResult_eq
    (h : BothFinish env body inputJson input syncId asyncId timeoutSeconds receipts) :
    pollResult env asyncId timeoutSeconds =
      some (executeWorkflow body (JsonText.print input)) := by
  obtain ⟨applied, hmachines, honly, k, hk, hmem⟩ := h.applied
  have hsome : (pollResult env asyncId timeoutSeconds).isSome = true := by
    rw [pollResult, List.findSome?_isSome_iff]
    refine ⟨k, List.mem_range.mpr hk, ?_⟩
    rw [hmachines k]
    exact isSome_getResult_of_mem hmem
  obtain ⟨bytes, hbytes⟩ := Option.isSome_iff_exists.mp hsome
  obtain ⟨j, -, hj⟩ := List.exists_of_findSome?_eq_some hbytes
  rw [hmachines j] at hj
  rw [hbytes, honly j bytes (mem_of_getResult hj)]

theorem waitForWorkflowCompletion_eq
    (h : BothFinish env body inputJson input syncId asyncId timeoutSeconds receipts) :
    waitForWorkflowCompletion env asyncId (toString 1) timeoutSeconds =
      .ok ⟨true, executeWorkflow body (JsonText.print input), ""⟩ := by
  have hcluster : parseU32 (toString 1) = .ok 1 := by decide
  rw [waitForWorkflowCompletion, h.uuid]
  dsimp only
  rw [hcluster]
  dsimp only
  rw [if_pos h.available, h.pollResult_eq]
  exact if_pos (isUtf8_executeWorkflow body _)

theorem handleWorkflowWait_eq
    (h : BothFinish env body inputJson input syncId asyncId timeoutSeconds receipts) :
    handleWorkflowWait env asyncId (toString 1) timeoutSeconds =
      ⟨200, true, some (executeWorkflow body (JsonText.print input)), none⟩ := by
  have hcluster : parseU32 (toString 1) = .ok 1 := by decide
  rw [handleWorkflowWait, h.uuid]
  dsimp only
  rw [hcluster]
  dsimp only
  rw [if_pos h.available, h.pollResult_eq]
  exact if_pos (isUtf8_executeWorkflow body _)

/-- Whatever the workflow does, its client is not told the same both ways. -/
theorem sync_differs_from_polling
    (h : BothFinish env body inputJson input syncId asyncId timeoutSeconds receipts) :
    ∃ response started polled,
      runWorkflowSync env syncId inputJson receipts = some (.ok response) ∧
      runWorkflowAsync env asyncId inputJson = .ok started ∧ started.success = true ∧
      waitForWorkflowCompletion env started.workflowId started.executionClusterId timeoutSeconds =
        .ok polled ∧
      ¬ response.answer.Agrees polled.answer ∧
      ¬ response.answer.Agrees (handleWorkflowWait env started.workflowId
        started.executionClusterId timeoutSeconds).answer := by
  refine ⟨_, _, _, h.runWorkflowSync_eq, h.runWorkflowAsync_eq, rfl,
    h.waitForWorkflowCompletion_eq, syncResponse_disagrees _ _, ?_⟩
  rw [h.handleWorkflowWait_eq]
  exact syncResponse_disagrees _ _

end BothFinish

theorem executeWorkflow_of_toVec {body : I → Except WorkflowError O} {input bytes : Bytes} {i : I}
    (hinput : fromSlice input = .ok i) (hbytes : toVec (body i) = .ok bytes) :
    executeWorkflow body input = bytes := by
  rw [executeWorkflow, boxedExecute, hinput]
  dsimp only
  rw [hbytes]

omit [SerdeValue I] in
theorem completion_of_toVec {r : Except WorkflowError O} {bytes : Bytes} (h : toVec r = .ok bytes) :
    completion bytes = r := by
  rw [completion, fromSlice_toVec h]

end

/-! ## A workflow that returns `true`, and one that fails -/

namespace BothFinish

open scoped Codec

/-- The workflow ends with the same outcome on every input. -/
def constant (outcome : Except WorkflowError Value) (_ : Value) : Except WorkflowError Value :=
  outcome

def firstId : String := "2f1acc6c-1a3e-4fd3-a0f8-6f1b7a1c9d10"

def secondId : String := "7d0c4a52-93b8-4c9e-8d5e-0b6f2f3e4a21"

def constantEnd (outcome : Except WorkflowError Value) (workflowId : String) : WorkflowCommand :=
  .workflowEnd workflowId (executeWorkflow (constant outcome) (JsonText.print .null))

/-- A node on which the second run has ended before the first poll. -/
def constantEnv (outcome : Except WorkflowError Value) : ServiceEnv where
  available clusterId := clusterId == 1
  startWorkflow _ _ := .ok ()
  machines _ := (applyAll {} [constantEnd outcome secondId]).2
  parseUuid id := if id.length = 36 then .ok () else .error "invalid length"
  utf8Error _ := "invalid utf-8 sequence"

def constantReceipts (outcome : Except WorkflowError Value) : List EventReceipt :=
  endReceipts {} (constantEnd outcome firstId)

theorem constantEnv_finishes (outcome : Except WorkflowError Value) :
    BothFinish (constantEnv outcome) (constant outcome) (JsonText.print .null) .null firstId
      secondId 0 (constantReceipts outcome) where
  available := rfl
  parsed := JsonText.parse_print .null
  syncStarted := rfl
  asyncStarted := rfl
  uuid := by
    have hlength : secondId.length = 36 := by decide
    simp only [constantEnv, hlength, if_true]
  received := ⟨{}, [], [], rfl, rfl⟩
  applied := by
    refine ⟨fun _ => [constantEnd outcome secondId], fun _ => rfl, ?_, 0, by decide,
      List.mem_singleton_self _⟩
    intro k bytes hmem
    exact (WorkflowCommand.workflowEnd.inj (List.mem_singleton.mp hmem)).2

theorem sync_differs_from_polling_true :
    ∃ response started polled,
      runWorkflowSync (constantEnv (.ok (.bool true))) firstId (JsonText.print .null)
        (constantReceipts (.ok (.bool true))) = some (.ok response) ∧
      runWorkflowAsync (constantEnv (.ok (.bool true))) secondId (JsonText.print .null) =
        .ok started ∧ started.success = true ∧
      waitForWorkflowCompletion (constantEnv (.ok (.bool true))) started.workflowId
        started.executionClusterId 0 = .ok polled ∧
      ¬ response.answer.Agrees polled.answer ∧
      ¬ response.answer.Agrees (handleWorkflowWait (constantEnv (.ok (.bool true)))
        started.workflowId started.executionClusterId 0).answer :=
  sync_differs_from_polling (constantEnv_finishes (.ok (.bool true)))

/-- The outcome is read one way, and passed on as it was written the other. -/
theorem constant_responses (outcome : Except WorkflowError Value) {bytes : Bytes}
    (h : toVec outcome = .ok bytes) :
    runWorkflowSync (constantEnv outcome) firstId (JsonText.print .null)
        (constantReceipts outcome) = some (.ok (syncResponse outcome)) ∧
      waitForWorkflowCompletion (constantEnv outcome) secondId (toString 1) 0 =
        .ok ⟨true, bytes, ""⟩ := by
  have hfinishes := constantEnv_finishes outcome
  have hbytes : executeWorkflow (constant outcome) (JsonText.print .null) = bytes :=
    executeWorkflow_of_toVec (fromSlice_print .null) h
  refine ⟨?_, ?_⟩
  · rw [hfinishes.runWorkflowSync_eq, hbytes, completion_of_toVec h]
  · rw [hfinishes.waitForWorkflowCompletion_eq, hbytes]

/-- A client that waits is told `true`, one that polls `{"Ok":true}`; and of an error only the
one that waits is told. -/
theorem responses_differ :
    (runWorkflowSync (constantEnv (.ok (.bool true))) firstId (JsonText.print .null)
        (constantReceipts (.ok (.bool true))) =
          some (.ok ⟨true, Value.print (.bool true), ""⟩) ∧
      waitForWorkflowCompletion (constantEnv (.ok (.bool true))) secondId (toString 1) 0 =
        .ok ⟨true, Value.print (.object [("Ok", .bool true)]), ""⟩ ∧
      ¬ (RunWorkflowResponse.mk true (Value.print (.bool true)) "").answer.Agrees
        (RunWorkflowResponse.mk true (Value.print (.object [("Ok", .bool true)])) "").answer) ∧
    (runWorkflowSync (constantEnv (.error .timeout)) firstId (JsonText.print .null)
        (constantReceipts (.error .timeout)) =
          some (.ok ⟨false, [], "Timeout waiting for workflow to start"⟩) ∧
      waitForWorkflowCompletion (constantEnv (.error .timeout)) secondId (toString 1) 0 =
        .ok ⟨true, Value.print (.object [("Err", .string "Timeout")]), ""⟩ ∧
      ¬ (RunWorkflowResponse.mk false [] "Timeout waiting for workflow to start").answer.Agrees
        (RunWorkflowResponse.mk true (Value.print (.object [("Err", .string "Timeout")]))
          "").answer) := by
  obtain ⟨hsync, hpoll⟩ := constant_responses (.ok (.bool true)) rfl
  obtain ⟨hsync', hpoll'⟩ := constant_responses (.error .timeout) rfl
  refine ⟨⟨hsync, hpoll, ?_⟩, hsync', hpoll', ?_⟩
  · rintro ⟨-, hresult, -⟩
    exact absurd (hresult rfl) (by decide)
  · rintro ⟨hsuccess, -⟩
    exact absurd hsuccess (by decide)

end BothFinish

end Raftoral

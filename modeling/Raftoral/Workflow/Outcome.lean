import Raftoral.Lib.JsonValue
import Raftoral.Workflow.Checkpoints
import Raftoral.Workflow.Runtime

/-!
# Workflow outcomes

How the end of a workflow is written into `WorkflowEnd` and read by `wait_for_completion`. The
boxed function of a workflow writes the whole `Result` of its body, which is what the reader
expects. The other writers do not: an error of the boxed function itself is written as a bare
error, and what an app reports through the sidecar is passed on as it came
(`roundTrips_iff_wrapped`).

serde_json is not part of the repository. Its text of values is a parameter, and so is how a
type is written as a value; the enums of the repository are written with their tags outside.
-/

namespace Raftoral

open Json (Value)

/-! ## serde -/

/-- The text serde_json writes for a value and reads back. It is UTF-8, and strings stand in the
text they are read from. `mismatch` is what it says of a value of the wrong shape. -/
class JsonText where
  print : Value → Bytes
  parse : Bytes → Except String Value
  parse_print : ∀ v, parse (print v) = .ok v
  textSize_le : ∀ b v, parse b = .ok v → v.textSize ≤ b.length
  isUtf8_print : ∀ v, Json.isUtf8 (print v) = true
  mismatch : Value → String

/-- A type that serde writes as a value and reads back. A value may have no JSON form, such as a
map with keys that are no strings. -/
class SerdeValue (α : Type) where
  toValue : α → Except String Value
  ofValue : Value → Except String α
  ofValue_toValue : ∀ a v, toValue a = .ok v → ofValue v = .ok a

/-- `serde_json::Value`. -/
instance : SerdeValue Value where
  toValue := .ok
  ofValue := .ok
  ofValue_toValue a v h := by
    rw [Except.ok.inj h]

theorem Serde.map_eq_ok {α β : Type} {f : α → β} {x : Except String α} {b : β}
    (h : x.map f = .ok b) : ∃ a, x = .ok a ∧ b = f a := by
  cases x with
  | error e => exact absurd h (by simp [Except.map])
  | ok a => exact ⟨a, rfl, (Except.ok.inj h).symm⟩

namespace Serde

variable [JsonText] {α : Type} [SerdeValue α]

/-- `serde_json::to_vec`. -/
def toVec (a : α) : Except String Bytes := (SerdeValue.toValue a).map JsonText.print

/-- `serde_json::from_slice`. -/
def fromSlice (b : Bytes) : Except String α := (JsonText.parse b).bind SerdeValue.ofValue

theorem fromSlice_print (v : Value) : (fromSlice (JsonText.print v) : Except String α) =
    SerdeValue.ofValue v := by
  rw [fromSlice, JsonText.parse_print]
  rfl

theorem fromSlice_toVec {a : α} {b : Bytes} (h : toVec a = .ok b) : fromSlice b = .ok a := by
  unfold toVec at h
  cases hv : SerdeValue.toValue a with
  | error e => simp [hv, Except.map] at h
  | ok v =>
    rw [hv] at h
    obtain rfl := Except.ok.inj h
    rw [fromSlice_print, SerdeValue.ofValue_toValue a v hv]

theorem fromSlice_eq_ok {a : α} {b : Bytes} (h : fromSlice b = .ok a) :
    ∃ v, JsonText.parse b = .ok v ∧ SerdeValue.ofValue v = .ok a := by
  unfold fromSlice at h
  cases hv : JsonText.parse b with
  | error e => simp [hv, Except.bind] at h
  | ok v =>
    rw [hv] at h
    exact ⟨v, rfl, h⟩

end Serde

open Serde

namespace WorkflowError

/-- A variant without contents is its name, one with contents an object with the name as key. -/
def toValue : WorkflowError → Value
  | .alreadyExists workflowId => .object [("AlreadyExists", .string workflowId)]
  | .notFound workflowId => .object [("NotFound", .string workflowId)]
  | .notLeader => .string "NotLeader"
  | .clusterError reason => .object [("ClusterError", .string reason)]
  | .timeout => .string "Timeout"
  | .serializationError reason => .object [("SerializationError", .string reason)]
  | .deserializationError reason => .object [("DeserializationError", .string reason)]

/-- The variant with a name and contents. -/
def ofFields (tag text : String) : Option WorkflowError :=
  if tag = "AlreadyExists" then some (.alreadyExists text)
  else if tag = "NotFound" then some (.notFound text)
  else if tag = "ClusterError" then some (.clusterError text)
  else if tag = "SerializationError" then some (.serializationError text)
  else if tag = "DeserializationError" then some (.deserializationError text)
  else none

/-- The variant with a name only. -/
def ofTag (tag : String) : Option WorkflowError :=
  if tag = "NotLeader" then some .notLeader else if tag = "Timeout" then some .timeout else none

/-- The text a variant carries. -/
def text : WorkflowError → Option String
  | .alreadyExists workflowId | .notFound workflowId => some workflowId
  | .clusterError reason | .serializationError reason | .deserializationError reason => some reason
  | .notLeader | .timeout => none

variable [JsonText]

def ofValue (v : Value) : Except String WorkflowError :=
  let read := match v with
    | .string tag => ofTag tag
    | .object [(tag, .null)] => ofTag tag
    | .object [(tag, .string text)] => ofFields tag text
    | _ => none
  read.elim (.error (JsonText.mismatch v)) .ok

instance : SerdeValue WorkflowError where
  toValue e := .ok e.toValue
  ofValue := ofValue
  ofValue_toValue e v h := by
    obtain rfl := Except.ok.inj h
    cases e <;> rfl

end WorkflowError

section
variable [JsonText] {O : Type} [SerdeValue O]

/-- `Result<O, WorkflowError>`: an object with the one key `Ok` or `Err`. -/
def resultToValue : Except WorkflowError O → Except String Value
  | .ok o => (SerdeValue.toValue o).map fun v => .object [("Ok", v)]
  | .error e => .ok (.object [("Err", e.toValue)])

def resultOfValue (v : Value) : Except String (Except WorkflowError O) :=
  match v with
  | .object [(tag, w)] =>
    if tag = "Ok" then (SerdeValue.ofValue w).map .ok
    else if tag = "Err" then (WorkflowError.ofValue w).map .error
    else .error (JsonText.mismatch v)
  | _ => .error (JsonText.mismatch v)

theorem resultOfValue_ok (w : Value) : resultOfValue (.object [("Ok", w)]) =
    (SerdeValue.ofValue w).map (Except.ok : O → Except WorkflowError O) := rfl

theorem resultOfValue_err (w : Value) : (resultOfValue (.object [("Err", w)]) :
    Except String (Except WorkflowError O)) = (WorkflowError.ofValue w).map .error := rfl

instance : SerdeValue (Except WorkflowError O) where
  toValue := resultToValue
  ofValue := resultOfValue
  ofValue_toValue r v h := by
    cases r with
    | ok o =>
      unfold resultToValue at h
      cases hw : SerdeValue.toValue o with
      | error e => simp [hw, Except.map] at h
      | ok w =>
        simp only [hw, Except.map, Except.ok.injEq] at h
        rw [← h, resultOfValue_ok, SerdeValue.ofValue_toValue o w hw]
        rfl
    | error e =>
      have he : WorkflowError.ofValue e.toValue = .ok e :=
        SerdeValue.ofValue_toValue e e.toValue rfl
      obtain rfl := Except.ok.inj h
      rw [resultOfValue_err, he]
      rfl

end

theorem Serde.elim_eq_ok {α : Type} {x : Option α} {reason : String} {a : α}
    (h : x.elim (.error reason : Except String α) .ok = .ok a) : x = some a := by
  cases x with
  | none => exact absurd h (by simp)
  | some b => rw [Except.ok.inj h]

theorem WorkflowError.text_ofTag {tag : String} {e : WorkflowError} (h : ofTag tag = some e) :
    e.text = none := by
  unfold ofTag at h
  split_ifs at h
  all_goals
    obtain rfl := Option.some.inj h
    rfl

theorem WorkflowError.text_ofFields {tag contents : String} {e : WorkflowError}
    (h : ofFields tag contents = some e) : e.text = some contents := by
  unfold ofFields at h
  split_ifs at h
  all_goals
    obtain rfl := Option.some.inj h
    rfl

section
variable [JsonText]

/-- A text that is read comes from the contents of the value. -/
theorem WorkflowError.ofValue_text {v : Value} {e : WorkflowError} {text : String}
    (h : WorkflowError.ofValue v = .ok e) (htext : e.text = some text) :
    ∃ tag, v = .object [(tag, .string text)] := by
  have hread := elim_eq_ok h
  split at hread
  · rw [text_ofTag hread] at htext
    exact absurd htext (by simp)
  · rw [text_ofTag hread] at htext
    exact absurd htext (by simp)
  · rename_i tag contents
    rw [text_ofFields hread] at htext
    exact ⟨tag, by rw [Option.some.inj htext]⟩
  · exact absurd hread (by simp)

variable {O : Type} [SerdeValue O]

/-- What a result is read from. -/
theorem resultOfValue_cases {v : Value} {r : Except WorkflowError O} (h : resultOfValue v = .ok r) :
    (∃ w o, v = .object [("Ok", w)] ∧ SerdeValue.ofValue w = .ok o ∧ r = .ok o) ∨
      ∃ w e, v = .object [("Err", w)] ∧ WorkflowError.ofValue w = .ok e ∧ r = .error e := by
  unfold resultOfValue at h
  split at h
  · rename_i tag w
    split_ifs at h with hok herr
    · obtain ⟨o, ho, rfl⟩ := map_eq_ok h
      exact Or.inl ⟨w, o, by rw [hok], ho, rfl⟩
    · obtain ⟨e, he, rfl⟩ := map_eq_ok h
      exact Or.inr ⟨w, e, by rw [herr], he, rfl⟩
  · exact absurd h (by simp)

end

/-! ## The writers -/

/-- What an app reports through the sidecar. -/
structure ExecutionResult where
  workflowId : String
  success : Bool
  result : Bytes
  error : String
deriving DecidableEq, Repr

section
variable [JsonText] {I O : Type} [SerdeValue I] [SerdeValue O]

/-- The executor of `BoxedWorkflowFunction::new`: the whole result of the body is written. -/
def boxedExecute (body : I → Except WorkflowError O) (input : Bytes) :
    Except WorkflowError Bytes :=
  match (fromSlice input : Except String I) with
  | .error e => .error (.deserializationError e)
  | .ok i =>
    match toVec (body i) with
    | .error e => .error (.serializationError e)
    | .ok resultBytes => .ok resultBytes

/-- The result bytes of `execute_workflow`. Writing an error does not fail. -/
def executeWorkflow (body : I → Except WorkflowError O) (input : Bytes) : Bytes :=
  match boxedExecute body input with
  | .ok resultBytes => resultBytes
  | .error e => JsonText.print e.toValue

/-- The result bytes of `handle_workflow_result`. -/
def handleWorkflowResult (result : ExecutionResult) : Bytes :=
  if result.success then result.result else Json.utf8 result.error

/-- How a workflow ends: its boxed function was executed, or an app reported. -/
inductive WorkflowEnding (I O : Type) where
  | executed (workflowId : String) (body : I → Except WorkflowError O) (input : Bytes)
  | reported (result : ExecutionResult)

namespace WorkflowEnding

def workflowId : WorkflowEnding I O → String
  | .executed workflowId _ _ => workflowId
  | .reported result => result.workflowId

/-- The bytes put in `WorkflowEnd`. -/
def resultBytes : WorkflowEnding I O → Bytes
  | .executed _ body input => executeWorkflow body input
  | .reported result => handleWorkflowResult result

def command (ending : WorkflowEnding I O) : WorkflowCommand :=
  .workflowEnd ending.workflowId ending.resultBytes

end WorkflowEnding

/-! ## The reader -/

/-- What a receiver of the event bus is given. -/
inductive EventReceipt where
  | event (e : WorkflowEvent)
  | lagged
  | closed
deriving DecidableEq, Repr

/-- The result of a completed workflow. -/
def completion (result : Bytes) : Except WorkflowError O :=
  match (fromSlice result : Except String (Except WorkflowError O)) with
  | .ok r => r
  | .error e => .error (.deserializationError e)

/-- The error of a failed workflow. -/
def failure (error : Bytes) : WorkflowError :=
  match (fromSlice error : Except String WorkflowError) with
  | .ok e => e
  | .error e => .deserializationError e

/-- `wait_for_completion` over what was received so far. -/
def waitForCompletion (workflowId : String) : List EventReceipt → Option (Except WorkflowError O)
  | [] => none
  | .event (.workflowCompleted id result) :: receipts =>
    if id = workflowId then some (completion result) else waitForCompletion workflowId receipts
  | .event (.workflowFailed id error) :: receipts =>
    if id = workflowId then some (.error (failure error)) else waitForCompletion workflowId receipts
  | .event (.workflowStarted ..) :: receipts | .event (.checkpointSet ..) :: receipts
  | .event (.ownershipChanged ..) :: receipts | .lagged :: receipts =>
    waitForCompletion workflowId receipts
  | .closed :: _ => some (.error (.clusterError "Event channel closed"))

/-- The events of a node that applies the end of a workflow. -/
def endReceipts (sm : WorkflowStateMachine) (command : WorkflowCommand) : List EventReceipt :=
  (WorkflowStateMachine.eventsOf (sm.apply command).1).map .event

/-! ## Round trips -/

/-- The outcome of a boxed function. -/
def boxedOutcome (body : I → Except WorkflowError O) (input : Bytes) : Except WorkflowError O :=
  match (fromSlice input : Except String I) with
  | .error e => .error (.deserializationError e)
  | .ok i =>
    match toVec (body i) with
    | .error e => .error (.serializationError e)
    | .ok _ => body i

namespace WorkflowEnding

/-- An answer is the outcome of the workflow: that of its boxed function, the value an app
reports, or an error with the text an app reports. -/
def Reports : WorkflowEnding I O → Except WorkflowError O → Prop
  | .executed _ body input, answer => answer = boxedOutcome body input
  | .reported result, answer =>
    if result.success then ∃ o, fromSlice result.result = .ok o ∧ answer = .ok o
    else ∃ e : WorkflowError, e.text = some result.error ∧ answer = .error e

/-- Whoever waits for the workflow at a node that applies its end gets its outcome, and gets it
from bytes that could be read. -/
def RoundTrips (ending : WorkflowEnding I O) : Prop :=
  ∀ (sm : WorkflowStateMachine) (before after : List EventReceipt),
    (waitForCompletion ending.workflowId before : Option (Except WorkflowError O)) = none →
    ∃ answer, waitForCompletion ending.workflowId
        (before ++ (endReceipts sm ending.command ++ after)) = some answer ∧
      (∃ r : Except WorkflowError O, fromSlice ending.resultBytes = .ok r) ∧ ending.Reports answer

/-- The bytes are those of a whole `Result`: the boxed function itself did not fail, or the app
reports an object with the one key `Ok` around its value. -/
def Wrapped : WorkflowEnding I O → Prop
  | .executed _ body input =>
    ∃ i bytes, (fromSlice input : Except String I) = .ok i ∧ toVec (body i) = .ok bytes
  | .reported result => result.success = true ∧
    ∃ w o, JsonText.parse result.result = .ok (.object [("Ok", w)]) ∧
      (SerdeValue.ofValue w : Except String O) = .ok o ∧
      SerdeValue.ofValue (.object [("Ok", w)]) = .ok o

end WorkflowEnding

omit [SerdeValue I] in
/-- Receipts without an answer are passed over. -/
theorem waitForCompletion_append {workflowId : String} {before : List EventReceipt}
    (h : (waitForCompletion workflowId before : Option (Except WorkflowError O)) = none)
    (receipts : List EventReceipt) :
    (waitForCompletion workflowId (before ++ receipts) : Option (Except WorkflowError O)) =
      waitForCompletion workflowId receipts := by
  induction before with
  | nil => rfl
  | cons receipt before ih =>
    rcases receipt with ⟨_ | ⟨id, result⟩ | ⟨id, error⟩ | _ | _⟩ | _ | _
    case event.workflowCompleted =>
      rw [waitForCompletion] at h
      rw [List.cons_append, waitForCompletion]
      split_ifs at h ⊢ with hid
      exact ih h
    case event.workflowFailed =>
      rw [waitForCompletion] at h
      rw [List.cons_append, waitForCompletion]
      split_ifs at h ⊢ with hid
      exact ih h
    case closed => exact absurd h (by simp [waitForCompletion])
    all_goals exact ih h

namespace WorkflowEnding

/-- Whoever waits is answered from the bytes of the end. -/
theorem waitForCompletion_endReceipts (ending : WorkflowEnding I O) (sm : WorkflowStateMachine)
    {before : List EventReceipt}
    (h : (waitForCompletion ending.workflowId before : Option (Except WorkflowError O)) = none)
    (after : List EventReceipt) :
    (waitForCompletion ending.workflowId (before ++ (endReceipts sm ending.command ++ after)) :
      Option (Except WorkflowError O)) = some (completion ending.resultBytes) := by
  rw [waitForCompletion_append h]
  exact if_pos rfl

/-- The round trip is a matter of the bytes. -/
theorem roundTrips_iff_read (ending : WorkflowEnding I O) :
    ending.RoundTrips ↔ ∃ r, fromSlice ending.resultBytes = .ok r ∧ ending.Reports r := by
  constructor
  · intro h
    obtain ⟨answer, hanswer, ⟨r, hr⟩, hreports⟩ := h {} [] [] rfl
    rw [ending.waitForCompletion_endReceipts {} rfl, completion, hr] at hanswer
    obtain rfl := Option.some.inj hanswer
    exact ⟨r, hr, hreports⟩
  · rintro ⟨r, hr, hreports⟩ sm before after hbefore
    refine ⟨r, ?_, ⟨r, hr⟩, hreports⟩
    rw [ending.waitForCompletion_endReceipts sm hbefore, completion, hr]

/-- A bare error is not read as a result. -/
theorem resultOfValue_error (e : WorkflowError) :
    ∃ reason, (resultOfValue e.toValue : Except String (Except WorkflowError O)) = .error reason := by
  cases e <;> exact ⟨_, rfl⟩

theorem executed_iff (workflowId : String) (body : I → Except WorkflowError O) (input : Bytes) :
    (executed workflowId body input).RoundTrips ↔ (executed workflowId body input).Wrapped := by
  rw [roundTrips_iff_read]
  have hbare : ∀ (e : WorkflowError) (r : Except WorkflowError O),
      fromSlice (JsonText.print e.toValue) ≠ .ok r := by
    intro e r hr
    obtain ⟨reason, hreason⟩ := resultOfValue_error (O := O) e
    rw [fromSlice_print] at hr
    exact absurd (hreason.symm.trans hr) (by simp)
  show (∃ r, fromSlice (executeWorkflow body input) = .ok r ∧ r = boxedOutcome body input) ↔
    ∃ i bytes, (fromSlice input : Except String I) = .ok i ∧ toVec (body i) = .ok bytes
  unfold executeWorkflow boxedExecute boxedOutcome
  cases hinput : (fromSlice input : Except String I) with
  | error t =>
    refine ⟨fun h => ?_, fun h => ?_⟩
    · obtain ⟨r, hr, -⟩ := h
      exact absurd hr (hbare _ r)
    · obtain ⟨i, bytes, hi, -⟩ := h
      exact absurd hi (by simp)
  | ok i =>
    dsimp only
    cases hbytes : toVec (body i) with
    | error t =>
      refine ⟨fun h => ?_, fun h => ?_⟩
      · obtain ⟨r, hr, -⟩ := h
        exact absurd hr (hbare _ r)
      · obtain ⟨j, bytes, hj, hwritten⟩ := h
        obtain rfl := Except.ok.inj hj
        exact absurd (hbytes.symm.trans hwritten) (by simp)
    | ok bytes => exact ⟨fun _ => ⟨i, bytes, rfl, hbytes⟩, fun _ => ⟨body i, fromSlice_toVec hbytes, rfl⟩⟩

/-- An error whose text is the whole of the bytes it is read from would be in a text shorter than
itself. -/
theorem not_read_of_text {text : String} {e : WorkflowError} (htext : e.text = some text) :
    fromSlice (Json.utf8 text) ≠ .ok (.error e : Except WorkflowError O) := by
  intro hread
  obtain ⟨v, hparse, hv⟩ := fromSlice_eq_ok hread
  rcases resultOfValue_cases hv with ⟨w, o, -, -, hr⟩ | ⟨w, e', rfl, hw, hr⟩
  · exact absurd hr (by simp)
  · obtain rfl := Except.error.inj hr
    obtain ⟨tag, rfl⟩ := WorkflowError.ofValue_text hw htext
    have hsize := JsonText.textSize_le _ _ hparse
    have hkey : (Json.utf8 "Err").length = 3 := by decide
    simp only [Value.textSize, Value.fieldSizes, hkey] at hsize
    omega

theorem reported_iff (result : ExecutionResult) :
    (reported result : WorkflowEnding I O).RoundTrips ↔
      (reported result : WorkflowEnding I O).Wrapped := by
  rw [roundTrips_iff_read, resultBytes, handleWorkflowResult]
  by_cases hsuccess : result.success
  · rw [if_pos hsuccess]
    simp only [Reports, Wrapped, hsuccess, if_true, true_and]
    constructor
    · rintro ⟨r, hr, o, ho, rfl⟩
      obtain ⟨v, hparse, hv⟩ := fromSlice_eq_ok hr
      obtain ⟨v', hparse', hv'⟩ := fromSlice_eq_ok ho
      obtain rfl := Except.ok.inj (hparse.symm.trans hparse')
      rcases resultOfValue_cases hv with ⟨w, o', rfl, hw, hr'⟩ | ⟨w, e, -, -, hr'⟩
      · obtain rfl := Except.ok.inj hr'
        exact ⟨w, o, hparse, hw, hv'⟩
      · exact absurd hr' (by simp)
    · rintro ⟨w, o, hparse, hw, hv⟩
      have hresult : resultOfValue (.object [("Ok", w)]) = .ok (.ok o : Except WorkflowError O) := by
        rw [resultOfValue_ok, hw]
        rfl
      refine ⟨.ok o, ?_, o, ?_, rfl⟩
      · rw [fromSlice, hparse]
        exact hresult
      · rw [fromSlice, hparse]
        exact hv
  · rw [if_neg hsuccess]
    simp only [Reports, Wrapped, hsuccess, Bool.false_eq_true, if_false, false_and, iff_false]
    rintro ⟨r, hr, e, htext, rfl⟩
    exact not_read_of_text htext hr

/-- A workflow's outcome reaches whoever waits for it exactly when its bytes are those of a whole
`Result`. -/
theorem roundTrips_iff_wrapped (ending : WorkflowEnding I O) :
    ending.RoundTrips ↔ ending.Wrapped := by
  cases ending with
  | executed workflowId body input => exact executed_iff workflowId body input
  | reported result => exact reported_iff result

end WorkflowEnding

end

/-! ## An app that reports a value -/

namespace Codec

scoped instance : JsonText where
  print := Value.print
  parse b := (Json.parse b).elim
    (.error (if b.isEmpty then "EOF while parsing a value at line 1 column 0"
      else "expected value at line 1 column 1")) .ok
  parse_print v := by rw [Json.parse_print, Option.elim_some]
  textSize_le b v h := by
    cases hv : Json.parse b with
    | none => simp [hv] at h
    | some w =>
      rw [hv] at h
      exact Except.ok.inj h ▸ Json.textSize_le_of_parse hv
  isUtf8_print := Json.isUtf8_print
  mismatch _ := "invalid type"

end Codec

namespace WorkflowEnding

open scoped Codec

/-- The app reports `true`. -/
def reportedTrue : WorkflowEnding Value Value := .reported
  { workflowId := "w", success := true, result := Value.print (.bool true), error := "" }

/-- The app reports a failure. -/
def reportedFailure : WorkflowEnding Value Value := .reported
  { workflowId := "w", success := false, result := [], error := "boom" }

/-- The workflow cannot read its input. -/
def unreadInput : WorkflowEnding Value Value := .executed "w" .ok []

theorem not_roundTrips_of_unwrapped :
    ¬ reportedTrue.RoundTrips ∧ ¬ reportedFailure.RoundTrips ∧ ¬ unreadInput.RoundTrips := by
  refine ⟨?_, ?_, ?_⟩
  · rw [roundTrips_iff_read]
    rintro ⟨r, hr, -⟩
    have hread : (fromSlice (JsonText.print (.bool true)) :
        Except String (Except WorkflowError Value)) = .error "invalid type" := fromSlice_print _
    exact absurd (hread.symm.trans hr) (by simp)
  · rw [roundTrips_iff_read]
    rintro ⟨r, hr, e, htext, rfl⟩
    exact not_read_of_text htext hr
  · rw [roundTrips_iff_read]
    rintro ⟨r, hr, -⟩
    have hinput : (fromSlice [] : Except String Value) =
        .error "EOF while parsing a value at line 1 column 0" := rfl
    have hbytes : unreadInput.resultBytes = JsonText.print (WorkflowError.deserializationError
        "EOF while parsing a value at line 1 column 0").toValue := by
      rw [unreadInput, resultBytes, executeWorkflow, boxedExecute, hinput]
    rw [hbytes, fromSlice_print] at hr
    obtain ⟨reason, hreason⟩ :=
      resultOfValue_error (O := Value) (WorkflowError.deserializationError
        "EOF while parsing a value at line 1 column 0")
    exact absurd (hreason.symm.trans hr) (by simp)

end WorkflowEnding

end Raftoral

import Raftoral.Lib.JsonFormat
import Raftoral.Raft.Codec
import Raftoral.Workflow.StateMachine

/-!
# The bytes of a workflow snapshot

The JSON object that `WorkflowStateMachine::snapshot` writes. The maps are written in the order
of their keys.
-/

namespace Raftoral

namespace Codec

open Json Json.Format

def bytesFormat : Format Bytes :=
  (array nat).via (·.map UInt8.toNat) (fun l => some (l.map UInt8.ofNat))
    (fun b => by simp [Function.comp_def])

def statusText : WorkflowStatus → String
  | .running => "Running"
  | .completed => "Completed"
  | .failed => "Failed"

def statusOfText (s : String) : Option WorkflowStatus :=
  if s = "Running" then some .running
  else if s = "Completed" then some .completed
  else if s = "Failed" then some .failed
  else none

def statusFormat : Format WorkflowStatus :=
  string.via statusText statusOfText (by rintro (_ | _ | _) <;> decide)

def mapFormat {V : Type} (f : Format V) : Format (StringMap V) :=
  (object f).via (·.toList) (fun l => some (Std.ExtTreeMap.ofList l compare))
    (fun m => by rw [ofList_toList])

/-- The fields in the order of the source. -/
def snapshotFormat : Format WorkflowSnapshot :=
  (record "workflows" "inputs" (mapFormat statusFormat)
    (fields "results" (mapFormat bytesFormat)
      (fields "checkpoint_history" (mapFormat bytesFormat)
        (fields "ownership" (mapFormat (array bytesFormat)) (mapFormat nat))))).via
    (fun s => (s.workflows, s.inputs, s.results, s.checkpointHistory, s.ownership))
    (fun ⟨workflows, inputs, results, checkpointHistory, ownership⟩ =>
      some { workflows, inputs, results, checkpointHistory, ownership })
    (fun _ => rfl)

scoped instance : SerdeJson WorkflowSnapshot where
  toVec := snapshotFormat.write
  fromSlice b := finish (snapshotFormat.read b)
  fromSlice_toVec s := by
    have h := snapshotFormat.read_write s [] (by simp [Stops])
    rw [List.append_nil] at h
    rw [h]
    rfl

end Codec

end Raftoral

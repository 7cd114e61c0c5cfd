import Raftoral.Lib.JsonFormat
import Raftoral.Raft.Codec
import Raftoral.Management.StateMachine

/-!
# The bytes of a management snapshot

The JSON object that `ManagementStateMachine::snapshot` writes. The keys of its maps are
numbers, which JSON writes as strings. `restore` also reads an object without
`node_addresses`, which older snapshots do not have: the map is then empty.
-/

namespace Raftoral

namespace Codec

open Json Json.Format

def wordMapFormat {V : Type} (f : Format V) : Format (WordMap V) :=
  (numberedObject f).via (·.toList) (fun l => some (Std.ExtTreeMap.ofList l compare))
    (fun m => by rw [ofList_toList])

def metadataFormat : Format (Std.ExtTreeMap String String compare) :=
  (object string).via (·.toList) (fun l => some (Std.ExtTreeMap.ofList l compare))
    (fun m => by rw [ofList_toList])

def subClusterFormat : Format SubClusterMetadata :=
  (record "node_ids" "metadata" (array nat) metadataFormat).via
    (fun s => (s.nodeIds, s.metadata)) (fun p => some ⟨p.1, p.2⟩) (fun _ => rfl)

/-- The fields in the order of the source. -/
def managementFormat : Format ManagementStateMachine :=
  (record "sub_clusters" "next_cluster_id" (wordMapFormat subClusterFormat)
    (fields "node_addresses" nat (wordMapFormat string))).via
    (fun s => (s.subClusters, s.nextClusterId, s.nodeAddresses))
    (fun ⟨subClusters, nextClusterId, nodeAddresses⟩ =>
      some { subClusters, nextClusterId, nodeAddresses })
    (fun _ => rfl)

/-- An object without addresses. -/
def oldManagementFormat : Format (WordMap SubClusterMetadata × ℕ) :=
  record "sub_clusters" "next_cluster_id" (wordMapFormat subClusterFormat) nat

/-- `node_addresses` is defaulted. -/
def readManagement (b : Bytes) : Except String ManagementStateMachine :=
  match finish (managementFormat.read b) with
  | .ok sm => .ok sm
  | .error _ => (finish (oldManagementFormat.read b)).map fun p =>
      { subClusters := p.1, nextClusterId := p.2 }

scoped instance : SerdeJson ManagementStateMachine where
  toVec := managementFormat.write
  fromSlice := readManagement
  fromSlice_toVec sm := by
    have h := managementFormat.read_write sm [] (by simp [Stops])
    rw [List.append_nil] at h
    rw [readManagement, h]
    rfl

end Codec

end Raftoral

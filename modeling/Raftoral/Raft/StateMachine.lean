import Raftoral.Raft.Types

/-!
# State machines

The interface of `raft/generic/state_machine.rs`. A state machine applies the committed
commands, saves its state as bytes and loads it back; a failing call may have changed the
state it was given, so every mutating call returns it.
-/

namespace Raftoral

/-- A state machine with state `σ`. No implementation changes its state when a follower
fails, so `onFollowerFailed` only gives the events. -/
class StateMachine (σ : Type) (Command Event : outParam Type) where
  apply : σ → Command → Except String (List Event) × σ
  snapshot : σ → Except String Bytes
  restore : σ → Bytes → Except String Unit × σ
  onFollowerFailed : σ → ℕ → List Event

section
variable {σ Command Event : Type} [StateMachine σ Command Event] [SerdeJson Command]

/-- What a committed command does: bytes that are no command, and commands that fail, are
reported to the proposer. -/
def applyCommand (sm : σ) (data : Bytes) : Except String (List Event) × σ :=
  match (SerdeJson.fromSlice data : Except String Command) with
  | .ok command =>
    match StateMachine.apply sm command with
    | (.ok events, sm') => (.ok events, sm')
    | (.error e, sm') => (.error s!"Apply failed: {e}", sm')
  | .error e => (.error s!"Deserialization failed: {e}", sm)

end

/-! ## The key-value store -/

inductive KvCommand where
  | set (key value : String)
  | delete (key : String)
deriving DecidableEq, Repr

inductive KvEvent where
  | keySet (key value : String)
  | keyDeleted (key : String)
deriving DecidableEq, Repr

/-- The store, as the list of its bindings. -/
structure KvStateMachine where
  store : List (String × String) := []
deriving DecidableEq, Repr

namespace KvStateMachine

def apply (sm : KvStateMachine) : KvCommand → Except String (List KvEvent) × KvStateMachine
  | .set key value =>
    (.ok [.keySet key value], { store := (key, value) :: sm.store.filter (·.1 != key) })
  | .delete key => (.ok [.keyDeleted key], { store := sm.store.filter (·.1 != key) })

instance [SerdeJson (List (String × String))] : StateMachine KvStateMachine KvCommand KvEvent where
  apply := KvStateMachine.apply
  snapshot sm := .ok (SerdeJson.toVec sm.store)
  restore sm data :=
    match SerdeJson.fromSlice data with
    | .ok store => (.ok (), { store })
    | .error e => (.error e, sm)
  onFollowerFailed _ _ := []

end KvStateMachine

end Raftoral

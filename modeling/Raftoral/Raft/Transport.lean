import Raftoral.Raft.Types

/-!
# The transport layer

The peer registry of `raft/generic/transport.rs`. Whether a message that has an address
reaches it is up to the protocol, whose answer is a parameter of `sendMessage`.

The other direction is the router of `raft/generic/cluster_router.rs`: every cluster that runs
on a node has a mailbox, to which the messages that name the cluster go.
-/

namespace Raftoral

inductive TransportError where
  | peerNotFound (nodeId : ℕ)
  | sendFailed (nodeId : ℕ) (reason : String)
  | serializationError (reason : String)
  | deserializationError (reason : String)
  | notInitialized
  | other (reason : String)
deriving DecidableEq, Repr

/-- The registry of peers: the address of each known node. -/
abbrev Peers := ℕ → Option String

namespace TransportLayer

/-- Send to a registered peer; `answer` is what the protocol's sender says. -/
def sendMessage (peers : Peers) (answer : Except TransportError Unit) (targetNodeId : ℕ) :
    Except TransportError Unit :=
  match peers targetNodeId with
  | some _ => answer
  | none => .error (.peerNotFound targetNodeId)

def addPeer (peers : Peers) (nodeId : ℕ) (address : String) : Peers :=
  Function.update peers nodeId (some address)

def removePeer (peers : Peers) (nodeId : ℕ) : Peers := Function.update peers nodeId none

end TransportLayer

/-! ## Incoming messages -/

inductive RoutingError where
  | clusterNotFound (clusterId : ℕ)
  | routeFailed (clusterId : ℕ) (reason : String)
  | mailboxFull (clusterId : ℕ)
  | other (reason : String)
deriving DecidableEq, Repr

/-- The sending side of a mailbox; a node numbers its mailboxes as it makes them. -/
abbrev Mailbox := ℕ

structure ClusterRouter where
  routes : ℕ → Option Mailbox := fun _ => none

namespace ClusterRouter

def registerCluster (router : ClusterRouter) (clusterId : ℕ) (sender : Mailbox) : ClusterRouter :=
  { routes := Function.update router.routes clusterId (some sender) }

def unregisterCluster (router : ClusterRouter) (clusterId : ℕ) : ClusterRouter :=
  { routes := Function.update router.routes clusterId none }

/-- The mailbox a message goes to; `closed` says whether its receiver is gone. -/
def routeMessage (router : ClusterRouter) (closed : Mailbox → Bool) (message : GenericMessage) :
    Except RoutingError Mailbox :=
  let clusterId := message.clusterId
  match router.routes clusterId with
  | some tx => if closed tx then .error (.mailboxFull clusterId) else .ok tx
  | none => .error (.clusterNotFound clusterId)

def isClusterRegistered (router : ClusterRouter) (clusterId : ℕ) : Bool :=
  (router.routes clusterId).isSome

@[simp] theorem isClusterRegistered_registerCluster (router : ClusterRouter) (clusterId c : ℕ)
    (sender : Mailbox) :
    (router.registerCluster clusterId sender).isClusterRegistered c =
      (decide (c = clusterId) || router.isClusterRegistered c) := by
  unfold isClusterRegistered registerCluster
  by_cases h : c = clusterId
  · subst h
    simp
  · simp [h]

/-- A message for a cluster that is not registered is refused. -/
theorem routeMessage_of_not_registered {router : ClusterRouter} {closed : Mailbox → Bool}
    {message : GenericMessage} (h : router.isClusterRegistered message.clusterId = false) :
    router.routeMessage closed message = .error (.clusterNotFound message.clusterId) := by
  have hnone : router.routes message.clusterId = none := by
    simpa [isClusterRegistered] using h
  simp [routeMessage, hnone]

end ClusterRouter

end Raftoral

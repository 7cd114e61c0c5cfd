import Raftoral.Raft.RunLoop

/-!
# Runs of a node

A node from its construction on: calls of the upper layer, messages and readies in any
order, until an error ends the loop that drives it. `delivered` is a ghost: the index up to
which raft-rs has handed out committed entries or snapshots, which is what its contract
(`Orderly`) speaks about.
-/

namespace Raftoral

open RaftNode

/-! ## What raft-rs hands out -/

/-- The index of the last entry of a list, or the one before it. -/
def lastDelivered (es : List Entry) (index : ℕ) : ℕ := es.foldl (fun _ e => e.index) index

namespace ReadyIo

/-- The index the committed entries of a ready start above: a snapshot comes first. -/
def base (io : ReadyIo) (delivered : ℕ) : ℕ :=
  if io.ready.snapshot.isEmpty then delivered else io.ready.snapshot.metadata.index

/-- The contract of raft-rs: a snapshot does not go back behind what was delivered, and
committed entries come in the order of their indices, each once. -/
structure Orderly (io : ReadyIo) (delivered : ℕ) : Prop where
  snapshot : ¬ io.ready.snapshot.isEmpty → delivered ≤ io.ready.snapshot.metadata.index
  entries : (io.base delivered :: io.handedOut.map (·.index)).Pairwise (· < ·)

/-- The committed entries a call gets to see: one that returns for a pre-candidate never sees
the light ready. -/
def taken (io : ReadyIo) (role : StateRole) : List Entry :=
  if AnnouncesPreCandidate io role then io.ready.committedEntries else io.handedOut

/-- Where a call leaves the delivered index. -/
def deliveredAfter (io : ReadyIo) (role : StateRole) (delivered : ℕ) : ℕ :=
  if io.hasReady then lastDelivered (io.taken role) (io.base delivered) else delivered

theorem Orderly.base_ge {io : ReadyIo} {delivered : ℕ} (h : io.Orderly delivered) :
    delivered ≤ io.base delivered := by
  unfold base
  split
  · exact Nat.le_refl delivered
  · exact h.snapshot (by assumption)

theorem Orderly.committed {io : ReadyIo} {delivered : ℕ} (h : io.Orderly delivered) :
    (io.base delivered :: io.ready.committedEntries.map (·.index)).Pairwise (· < ·) := by
  refine h.entries.sublist (List.Sublist.cons_cons _ ?_)
  rw [handedOut, List.map_append]
  exact List.sublist_append_left _ _

end ReadyIo

theorem le_lastDelivered {es : List Entry} {b : ℕ}
    (h : (b :: es.map (·.index)).Pairwise (· < ·)) : b ≤ lastDelivered es b := by
  induction es generalizing b with
  | nil => exact Nat.le_refl b
  | cons e es ih =>
    rw [List.map_cons, List.pairwise_cons] at h
    exact (Nat.le_of_lt (h.1 e.index List.mem_cons_self)).trans (ih h.2)

namespace RaftNode

/-- The committed index stays within what was delivered. -/
theorem lastCommandIndex_le {es : List Entry} {b c : ℕ}
    (h : (b :: es.map (·.index)).Pairwise (· < ·)) (hc : c ≤ b) :
    lastCommandIndex es c ≤ lastDelivered es b := by
  induction es generalizing b c with
  | nil => exact hc
  | cons e es ih =>
    rw [List.map_cons, List.pairwise_cons] at h
    have hb : b < e.index := h.1 e.index List.mem_cons_self
    refine ih h.2 ?_
    show (if e.isCommand then e.index else c) ≤ e.index
    split
    · exact Nat.le_refl e.index
    · omega

theorem restoredIndex_le_base {io : ReadyIo} {last delivered : ℕ} (h : last ≤ delivered) :
    restoredIndex io last ≤ io.base delivered := by
  unfold restoredIndex ReadyIo.base
  split
  · exact h
  · exact Nat.le_refl _

/-- The committed index is that of the last command. -/
theorem lastCommandIndex_eq (es : List Entry) (c : ℕ) :
    lastCommandIndex es c = ((es.filter Entry.isCommand).getLast?.map (·.index)).getD c := by
  induction es using List.reverseRecOn with
  | nil => rfl
  | append_singleton es e ih =>
    rw [lastCommandIndex, List.foldl_append, List.filter_append]
    by_cases he : e.isCommand
    · simp [he]
    · simpa [he, lastCommandIndex] using ih

theorem lt_lastCommandIndex {es : List Entry} {b c : ℕ}
    (h : (b :: es.map (·.index)).Pairwise (· < ·)) (hcmd : ∃ e ∈ es, e.isCommand) :
    b < lastCommandIndex es c := by
  obtain ⟨e, he, hcmd⟩ := hcmd
  have hne : es.filter Entry.isCommand ≠ [] :=
    List.ne_nil_of_mem (List.mem_filter.mpr ⟨he, hcmd⟩)
  have hlast := List.getLast_mem hne
  rw [lastCommandIndex_eq, List.getLast?_eq_some_getLast hne, Option.map_some, Option.getD_some]
  exact (List.pairwise_cons.mp h).1 _ (List.mem_map_of_mem (List.mem_of_mem_filter hlast))

theorem lastCommandIndex_of_no_command {es : List Entry} (h : ¬ ∃ e ∈ es, e.isCommand) (c : ℕ) :
    lastCommandIndex es c = c := by
  have hnil : es.filter Entry.isCommand = [] := by
    rw [List.filter_eq_nil_iff]
    intro e he hcmd
    exact h ⟨e, he, hcmd⟩
  rw [lastCommandIndex_eq, hnil]
  rfl

end RaftNode

/-! ## Runs -/

/-- What happens to a node. `others` is what the rest of the process does to the peers. -/
inductive NodeOp (Command : Type) where
  | call (c : Call Command)
  | others (f : Peers → Peers)
  | message (answers : RaftAnswers) (msg : GenericMessage)
  | ready (io : ReadyIo)

structure NodeRun (σ Event S : Type) where
  node : RaftNode σ Event S
  delivered : ℕ
  running : Bool

namespace NodeRun

variable {σ Command Event S : Type}

/-- A new node; raft-rs starts to deliver above an index that depends on the storage. -/
def start (config : RaftNodeConfig) (peers : Peers) (stateMachine : σ) (confState : ConfState)
    (store : S) (delivered : ℕ) : NodeRun σ Event S :=
  ⟨newWithConfState config peers stateMachine confState store, delivered, true⟩

section
variable [ProstMessage ConfChange] [SerdeJson NodeMetadata] [StateMachine σ Command Event]
  [SerdeJson Command] [RaftStorage S]

/-- The node after a ready was taken. -/
def afterReady (s : NodeRun σ Event S) (io : ReadyIo) : NodeRun σ Event S :=
  ⟨(onReady io s.node).2, io.deliveredAfter s.node.currentRole s.delivered,
    (onReady io s.node).1.isOk⟩

@[simp] theorem afterReady_node (s : NodeRun σ Event S) (io : ReadyIo) :
    (s.afterReady io).node = (onReady io s.node).2 := rfl

@[simp] theorem afterReady_running (s : NodeRun σ Event S) (io : ReadyIo) :
    (s.afterReady io).running = (onReady io s.node).1.isOk := rfl

variable [ProstMessage Message]

def step (s : NodeRun σ Event S) (op : NodeOp Command) : Option (NodeRun σ Event S) :=
  if s.running then
    match op with
    | .call c => some { s with node := s.node.perform c }
    | .others f => some { s with node.peers := f s.node.peers }
    | .message answers msg =>
      some { s with running := (handleRaftMessage answers msg s.node).1.isOk }
    | .ready io => some (s.afterReady io)
  else none

theorem step_ready {s : NodeRun σ Event S} (h : s.running) (io : ReadyIo) :
    s.step (.ready io) = some (s.afterReady io) := by
  unfold step
  rw [if_pos h]

/-- A step is taken by a running node, and unless it takes a ready it leaves everything but
the peers and the waiting proposals alone. -/
theorem step_cases {s s' : NodeRun σ Event S} {op : NodeOp Command} (hs : s.step op = some s') :
    s.running ∧ ((∀ io, op = .ready io → ¬ io.hasReady) ∧ CallFrame s.node s'.node ∧
        s'.delivered = s.delivered ∨
      ∃ io, op = .ready io ∧ io.hasReady ∧ s' = s.afterReady io) := by
  unfold step at hs
  by_cases hrunning : s.running
  · rw [if_pos hrunning] at hs
    refine ⟨hrunning, ?_⟩
    have hsame : CallFrame s.node s.node := ⟨rfl, rfl, rfl, rfl, rfl, rfl, rfl⟩
    cases op with
    | call c =>
      obtain rfl := Option.some.inj hs
      exact Or.inl ⟨by simp, perform_frame s.node c, rfl⟩
    | others f =>
      obtain rfl := Option.some.inj hs
      exact Or.inl ⟨by simp, ⟨rfl, rfl, rfl, rfl, rfl, rfl, rfl⟩, rfl⟩
    | message answers msg =>
      obtain rfl := Option.some.inj hs
      exact Or.inl ⟨by simp, hsame, rfl⟩
    | ready io =>
      obtain rfl := Option.some.inj hs
      -- without a ready the call returns at once
      by_cases hready : io.hasReady
      · exact Or.inr ⟨io, rfl, hready, rfl⟩
      · have hnode : onReady io s.node = (.next, s.node) := by rw [onReady, if_neg hready]
        rw [afterReady, hnode, ReadyIo.deliveredAfter, if_neg hready]
        exact Or.inl ⟨fun io' hop => NodeOp.ready.inj hop ▸ hready, hsame, rfl⟩
  · rw [if_neg hrunning] at hs
    exact absurd hs (by simp)

/-- Every step only appends to the trace. -/
theorem step_trace {s s' : NodeRun σ Event S} {op : NodeOp Command} (hs : s.step op = some s') :
    ∃ δ, s'.node.trace = s.node.trace ++ δ := by
  obtain ⟨-, ⟨-, hframe, -⟩ | ⟨io, -, -, rfl⟩⟩ := step_cases hs
  · exact ⟨[], by rw [hframe.trace, List.append_nil]⟩
  · obtain ⟨δ, hδ, -⟩ := onReady_extends io s.node
    exact ⟨δ, hδ⟩

end

end NodeRun

end Raftoral

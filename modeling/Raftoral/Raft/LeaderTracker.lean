import Raftoral.Lib.Broadcast
import Raftoral.Lib.Run
import Raftoral.Raft.Node

/-!
# Where proposals are forwarded

The model of `ProposalRouter::propose` and `run_leader_tracker`. The router keeps the id of the
leader. The tracker sets it when the role of its own node changes, `propose` when nothing is set;
a leader that changes while the node stays a follower changes no role, and the old leader goes on
being the one that proposals are forwarded to.

raft's view of the leader changes at any time. A call holds the lock of the node while it looks at
the role, at the id that is kept and, when there is none, at raft's.
-/

namespace Raftoral

open Transition

/-- `RaftNode::leader_id`, from the `leader_id` of raft. -/
def leaderIdOf (leader : ℕ) : Option ℕ := if leader = 0 then none else some leader

/-- The change that step 5 of `on_ready` announces. -/
def announcedChange (raftState currentRole : StateRole) : Option RoleChange :=
  if raftState = currentRole then none
  else match raftState with
    | .follower => some .becameFollower
    | .candidate => some .becameCandidate
    | .leader => some .becameLeader
    | .preCandidate => none

/-- The role of the node changes exactly when a change is announced. -/
theorem changeRole_announces {σ Event S : Type} {io : ReadyIo} {ss : SoftState}
    (h : io.ready.ss = some ss) (n : RaftNode σ Event S) :
    (RaftNode.changeRole io n).2 =
      (announcedChange ss.raftState n.currentRole).elim n
        fun change => { n with currentRole := ss.raftState }.emit (.roleChanged change) := by
  unfold RaftNode.changeRole announcedChange
  rw [h]
  dsimp only
  split_ifs
  · rfl
  · cases ss.raftState <;> rfl

/-- Where a call of `propose` ends. -/
inductive RouterOutcome where
  | proposedLocally
  | forwarded (leader : ℕ)
  | notLeader (leader : Option ℕ)
deriving DecidableEq, Repr

inductive RouterPhase where
  /-- The leader of raft is put into the router before it is used. -/
  | storing (leader : ℕ)
  | retrying
  | done (outcome : RouterOutcome)
deriving DecidableEq, Repr

/-- A call of `propose`: the role and the leader of the node when it was made, and whether the
leader has not changed since, until the call was over. -/
structure RouterCall where
  isLeader : Bool
  known : Option ℕ
  steady : Bool := true
  phase : RouterPhase
deriving DecidableEq, Repr

/-- `run_leader_tracker`, with the position of its receiver. -/
inductive Tracker where
  | idle
  | receiving (next : ℕ)
  | querying (next : ℕ)
  | storing (leader : Option ℕ) (next : ℕ)
  | stopped
deriving DecidableEq, Repr

/-- The capacity of the channel of role changes. -/
def roleChangeCapacity : ℕ := 16

/-- A node and the router over it. -/
structure Router where
  /-- raft's view: its `leader_id`, which is zero when none is known, and its role. -/
  raftLeader : ℕ := 0
  raftState : StateRole := .follower
  currentRole : StateRole := .follower
  announced : List RoleChange := []
  /-- `leader_id` of the router. -/
  leaderId : Option ℕ := none
  tracker : Tracker := .idle
  calls : List RouterCall := []
deriving DecidableEq, Repr

inductive RouterAction where
  /-- raft sees another leader, or another role of the node. -/
  | raft (ss : SoftState)
  | onReady
  | startTracker
  | track
  | propose
  /-- A call that has looked for the leader goes on. -/
  | proceed (call : ℕ)
  | giveUp (call : ℕ)
deriving DecidableEq, Repr

namespace RouterCall

/-- The call is over. -/
def isDone (c : RouterCall) : Bool :=
  match c.phase with
  | .done _ => true
  | .storing _ | .retrying => false

/-- raft's leader may change under a call that is not over. -/
def observe (leader : Option ℕ) (c : RouterCall) : RouterCall :=
  if c.isDone then c else { c with steady := c.steady && c.known == leader }

end RouterCall

namespace Router

/-- The `match` at the end of `propose`. -/
def route (nodeId : ℕ) : Option ℕ → RouterOutcome
  | some leader => if leader ≠ nodeId then .forwarded leader else .notLeader (some leader)
  | none => .notLeader none

/-- How a call begins. -/
def propose (nodeId : ℕ) (s : Router) : RouterCall :=
  let known := leaderIdOf s.raftLeader
  if s.currentRole = .leader then { isLeader := true, known, phase := .done .proposedLocally }
  else match s.leaderId with
    | some leader => { isLeader := false, known, phase := .done (route nodeId (some leader)) }
    | none =>
      match known with
      | some leader => { isLeader := false, known, phase := .storing leader }
      | none => { isLeader := false, known, phase := .retrying }

/-- One step of the tracker. It stops when it is told that it has lagged. -/
def track (nodeId : ℕ) (s : Router) : Option Router :=
  match s.tracker with
  | .idle | .stopped => none
  | .receiving next =>
    match Broadcast.recv roleChangeCapacity s.announced next with
    | .value .becameLeader next => some { s with tracker := .storing (some nodeId) next }
    | .value .becameFollower next | .value .becameCandidate next =>
      some { s with tracker := .querying next }
    | .lagged _ => some { s with tracker := .stopped }
    | .empty => none
  | .querying next => some { s with tracker := .storing (leaderIdOf s.raftLeader) next }
  | .storing leader next => some { s with leaderId := leader, tracker := .receiving next }

def step (nodeId : ℕ) (s : Router) : RouterAction → Option Router
  | .raft ss =>
    some { s with
      raftLeader := ss.leaderId
      raftState := ss.raftState
      calls := s.calls.map (·.observe (leaderIdOf ss.leaderId)) }
  | .onReady =>
    match announcedChange s.raftState s.currentRole with
    | none => some s
    | some change => some { s with
        currentRole := s.raftState
        announced := s.announced ++ [change] }
  | .startTracker =>
    if s.tracker = .idle then some { s with tracker := .receiving s.announced.length } else none
  | .track => s.track nodeId
  | .propose => some { s with calls := s.calls ++ [s.propose nodeId] }
  | .proceed i =>
    match s.calls[i]? with
    | none => none
    | some call =>
      match call.phase with
      | .done _ => none
      | .storing leader => some { s with
          leaderId := some leader
          calls := s.calls.set i { call with phase := .done (route nodeId (some leader)) } }
      | .retrying =>
        match leaderIdOf s.raftLeader with
        | none => some s
        | some leader =>
          some { s with calls := s.calls.set i { call with phase := .storing leader } }
  | .giveUp i =>
    match s.calls[i]? with
    | none => none
    | some call =>
      if call.phase = .retrying then
        some { s with calls := s.calls.set i { call with phase := .done (route nodeId none) } }
      else none

/-- Every call that is over, and was made on a node that is not the leader while raft knew another
node as leader throughout, was forwarded to that node. -/
def Forwards (nodeId : ℕ) (s : Router) : Prop :=
  ∀ call ∈ s.calls, call.isLeader = false → call.steady →
    ∀ leader, call.known = some leader → leader ≠ nodeId →
      ∀ outcome, call.phase = .done outcome → outcome = .forwarded leader

/-- When a proposal is made on a node that is not the leader, and raft knows another node as
leader, the router has no leader or the same. -/
def UpToDate (nodeId : ℕ) (s : Router) : RouterAction → Prop
  | .propose => s.currentRole ≠ .leader → ∀ leader ∈ leaderIdOf s.raftLeader, leader ≠ nodeId →
      s.leaderId = none ∨ s.leaderId = some leader
  | .raft _ | .onReady | .startTracker | .track | .proceed _ | .giveUp _ => True

instance (nodeId : ℕ) (s : Router) : (a : RouterAction) → Decidable (s.UpToDate nodeId a)
  | .propose => inferInstanceAs (Decidable (_ → ∀ leader ∈ leaderIdOf s.raftLeader,
      leader ≠ nodeId → s.leaderId = none ∨ s.leaderId = some leader))
  | .raft _ | .onReady | .startTracker | .track | .proceed _ | .giveUp _ =>
    inferInstanceAs (Decidable True)

/-! ## The invariant -/

/-- A call under which the leader has not changed is on its way to it. -/
def Heads (nodeId : ℕ) (call : RouterCall) : Prop :=
  call.isLeader = false → call.steady → ∀ leader, call.known = some leader → leader ≠ nodeId →
    call.phase = .storing leader ∨ call.phase = .done (.forwarded leader)

section
variable {nodeId : ℕ} {s s' : Router}

theorem Heads.observe {call : RouterCall} (h : Heads nodeId call) (leader : Option ℕ) :
    Heads nodeId (call.observe leader) := by
  unfold RouterCall.observe
  split_ifs
  · exact h
  · intro hrole hsteady
    rw [Bool.and_eq_true] at hsteady
    exact h hrole hsteady.1

/-- A call that is begun with a router that is up to date heads for the leader. -/
theorem heads_propose (h : s.UpToDate nodeId .propose) : Heads nodeId (s.propose nodeId) := by
  intro hrole hsteady leader hknown hother
  unfold propose at hrole hknown ⊢
  by_cases hleader : s.currentRole = .leader
  · simp [hleader] at hrole
  · rw [if_neg hleader] at hknown ⊢
    cases hrouter : s.leaderId with
    | some kept =>
      rw [hrouter] at hknown
      have hkept := h hleader leader hknown hother
      rw [hrouter, Option.some.injEq] at hkept
      obtain rfl := hkept.resolve_left (by simp)
      exact Or.inr (by simp [route, hother])
    | none =>
      cases hraft : leaderIdOf s.raftLeader with
      | some leader' =>
        rw [hrouter] at hknown
        simp only [hraft, Option.some.injEq] at hknown
        exact Or.inl (by simp [hknown])
      | none =>
        rw [hrouter] at hknown
        simp [hraft] at hknown

/-- A call that has looked for the leader goes where it headed. -/
theorem heads_proceed {call : RouterCall} (h : Heads nodeId call) {leader : ℕ}
    (hphase : call.phase = .storing leader) :
    Heads nodeId { call with phase := .done (route nodeId (some leader)) } := by
  intro hrole hsteady known hknown hother
  rcases h hrole hsteady known hknown hother with hstoring | hdone
  · rw [hphase, RouterPhase.storing.injEq] at hstoring
    subst hstoring
    exact Or.inr (by simp [route, hother])
  · rw [hphase] at hdone
    exact absurd hdone (by simp)

/-- A call that retries began when raft knew no leader. -/
theorem heads_of_retrying {call : RouterCall} (h : Heads nodeId call)
    (hphase : call.phase = .retrying) (phase : RouterPhase) :
    Heads nodeId { call with phase } := by
  intro hrole hsteady known hknown hother
  rcases h hrole hsteady known hknown hother with hstoring | hdone
  · rw [hphase] at hstoring
    exact absurd hstoring (by simp)
  · rw [hphase] at hdone
    exact absurd hdone (by simp)

theorem forall_heads_set (h : ∀ call ∈ s.calls, Heads nodeId call) {i : ℕ} {call : RouterCall}
    (hcall : Heads nodeId call) : ∀ c ∈ s.calls.set i call, Heads nodeId c := by
  intro c hc
  rcases List.mem_or_eq_of_mem_set hc with hc | rfl
  · exact h c hc
  · exact hcall

theorem calls_track (hstep : s.track nodeId = some s') : s'.calls = s.calls := by
  unfold track at hstep
  split at hstep
  · exact absurd hstep (by simp)
  · exact absurd hstep (by simp)
  · split at hstep
    · obtain rfl := Option.some.inj hstep; rfl
    · obtain rfl := Option.some.inj hstep; rfl
    · obtain rfl := Option.some.inj hstep; rfl
    · obtain rfl := Option.some.inj hstep; rfl
    · exact absurd hstep (by simp)
  · obtain rfl := Option.some.inj hstep; rfl
  · obtain rfl := Option.some.inj hstep; rfl

theorem calls_onReady (hstep : s.step nodeId .onReady = some s') : s'.calls = s.calls := by
  rw [step] at hstep
  split at hstep
  · obtain rfl := Option.some.inj hstep; rfl
  · obtain rfl := Option.some.inj hstep; rfl

theorem heads_step (h : ∀ call ∈ s.calls, Heads nodeId call) {a : RouterAction}
    (ha : s.UpToDate nodeId a) (hstep : s.step nodeId a = some s') :
    ∀ call ∈ s'.calls, Heads nodeId call := by
  cases a with
  | raft ss =>
    obtain rfl := Option.some.inj hstep
    intro call hcall
    obtain ⟨call', hcall', rfl⟩ := List.mem_map.mp hcall
    exact (h call' hcall').observe _
  | onReady => rw [calls_onReady hstep]; exact h
  | startTracker =>
    rw [step, Option.ite_none_right_eq_some, Option.some.injEq] at hstep
    obtain ⟨-, rfl⟩ := hstep
    exact h
  | track => rw [calls_track hstep]; exact h
  | propose =>
    obtain rfl := Option.some.inj hstep
    intro call hcall
    rcases List.mem_append.mp hcall with hcall | hcall
    · exact h call hcall
    · rw [List.mem_singleton.mp hcall]
      -- here the router is up to date
      exact heads_propose ha
  | proceed i =>
    rw [step] at hstep
    split at hstep
    · exact absurd hstep (by simp)
    · next call hget =>
      have hcall := h call (List.mem_of_getElem? hget)
      split at hstep
      · exact absurd hstep (by simp)
      · next leader hphase =>
        obtain rfl := Option.some.inj hstep
        exact forall_heads_set h (heads_proceed hcall hphase)
      · next hphase =>
        split at hstep
        · obtain rfl := Option.some.inj hstep
          exact h
        · obtain rfl := Option.some.inj hstep
          exact forall_heads_set h (heads_of_retrying hcall hphase _)
  | giveUp i =>
    rw [step] at hstep
    split at hstep
    · exact absurd hstep (by simp)
    · next call hget =>
      rw [Option.ite_none_right_eq_some, Option.some.injEq] at hstep
      obtain ⟨hphase, rfl⟩ := hstep
      exact forall_heads_set h
        (heads_of_retrying (h call (List.mem_of_getElem? hget)) hphase _)

theorem forwards_of_heads (h : ∀ call ∈ s.calls, Heads nodeId call) : s.Forwards nodeId := by
  intro call hcall hrole hsteady leader hknown hother outcome hdone
  rcases h call hcall hrole hsteady leader hknown hother with hstoring | hforwarded
  · rw [hdone] at hstoring
    exact absurd hstoring (by simp)
  · rw [hdone, RouterPhase.done.injEq] at hforwarded
    exact hforwarded

/-- A call that is over stays as it is. -/
theorem mem_calls_step {call : RouterCall} (hcall : call ∈ s.calls) (hdone : call.isDone)
    {a : RouterAction} (hstep : s.step nodeId a = some s') : call ∈ s'.calls := by
  -- a call that goes on is not the one that is over
  have hset : ∀ {i : ℕ} {c c' : RouterCall}, s.calls[i]? = some c → ¬ c.isDone →
      call ∈ s.calls.set i c' := by
    intro i c c' hget hnot
    obtain ⟨j, hj⟩ := List.mem_iff_getElem?.mp hcall
    refine List.mem_iff_getElem?.mpr ⟨j, ?_⟩
    rw [List.getElem?_set_ne, hj]
    rintro rfl
    rw [hget, Option.some.injEq] at hj
    exact hnot (hj ▸ hdone)
  cases a with
  | raft ss =>
    obtain rfl := Option.some.inj hstep
    exact List.mem_map.mpr ⟨call, hcall, by simp [RouterCall.observe, hdone]⟩
  | onReady => rw [calls_onReady hstep]; exact hcall
  | startTracker =>
    rw [step, Option.ite_none_right_eq_some, Option.some.injEq] at hstep
    obtain ⟨-, rfl⟩ := hstep
    exact hcall
  | track => rw [calls_track hstep]; exact hcall
  | propose =>
    obtain rfl := Option.some.inj hstep
    exact List.mem_append_left _ hcall
  | proceed i =>
    rw [step] at hstep
    split at hstep
    · exact absurd hstep (by simp)
    · next c hget =>
      split at hstep
      · exact absurd hstep (by simp)
      · next leader hphase =>
        obtain rfl := Option.some.inj hstep
        exact hset hget (by simp [RouterCall.isDone, hphase])
      · next hphase =>
        split at hstep
        · obtain rfl := Option.some.inj hstep
          exact hcall
        · obtain rfl := Option.some.inj hstep
          exact hset hget (by simp [RouterCall.isDone, hphase])
  | giveUp i =>
    rw [step] at hstep
    split at hstep
    · exact absurd hstep (by simp)
    · next c hget =>
      rw [Option.ite_none_right_eq_some, Option.some.injEq] at hstep
      obtain ⟨hphase, rfl⟩ := hstep
      exact hset hget (by simp [RouterCall.isDone, hphase])

theorem Forwards.of_step {a : RouterAction} (h : s'.Forwards nodeId)
    (hstep : s.step nodeId a = some s') : s.Forwards nodeId := by
  intro call hcall hrole hsteady leader hknown hother outcome hdone
  have hover : call.isDone := by simp [RouterCall.isDone, hdone]
  exact h call (mem_calls_step hcall hover hstep) hrole hsteady leader hknown hother outcome hdone

/-- A call that begins with another leader in the router goes elsewhere. -/
theorem upToDate_of_forwards {a : RouterAction} (h : s'.Forwards nodeId)
    (hstep : s.step nodeId a = some s') : s.UpToDate nodeId a := by
  cases a with
  | propose =>
    intro hleader leader hraft hother
    cases hrouter : s.leaderId with
    | none => exact Or.inl rfl
    | some kept =>
      obtain rfl := Option.some.inj hstep
      have hcall : s.propose nodeId = {
          isLeader := false
          known := leaderIdOf s.raftLeader
          phase := .done (route nodeId (some kept)) } := by
        unfold propose
        rw [if_neg hleader, hrouter]
      have hforwarded := h (s.propose nodeId) (List.mem_append_right _ (List.mem_singleton_self _))
        (by rw [hcall]) (by rw [hcall]) leader (by rw [hcall, hraft]) hother
        (route nodeId (some kept)) (by rw [hcall])
      unfold route at hforwarded
      dsimp only at hforwarded
      split_ifs at hforwarded
      rw [RouterOutcome.forwarded.injEq] at hforwarded
      exact Or.inr (by rw [hforwarded])
  | _ => trivial

end

/-- In every run, all proposals made on a node that is not the leader are forwarded to the leader
that raft knows, as long as it does not change under the call, exactly when each of them is made
while the router has no leader or the same. -/
theorem forwards_iff_upToDate (nodeId : ℕ) {actions : List RouterAction} {s : Router}
    (hrun : run (step nodeId) {} actions = some s) :
    s.Forwards nodeId ↔ Along (step nodeId) (UpToDate nodeId) {} actions := by
  refine run_iff_along (I := fun s => ∀ call ∈ s.calls, Heads nodeId call)
    (K := fun _ _ => True) (fun s a s' h _ ha hstep => heads_step h ha hstep)
    (fun s h => forwards_of_heads h) (fun s a s' hstep h => h.of_step hstep)
    (fun s a s' _ _ hstep h => upToDate_of_forwards h hstep) ?_
    along_true hrun
  intro call hcall
  exact absurd hcall List.not_mem_nil

/-- A follower learns of its leader and makes a proposal. -/
def firstProposal : List RouterAction :=
  [.startTracker, .raft ⟨1, .follower⟩, .onReady, .propose, .proceed 0]

theorem forwards_first_proposal :
    ∃ s, run (step 3) {} firstProposal = some s ∧
      s.calls.map RouterCall.phase = [.done (.forwarded 1)] ∧ s.Forwards 3 := by
  have hcalls : (run (step 3) {} firstProposal).map (fun s => s.calls.map RouterCall.phase) =
      some [.done (.forwarded 1)] := by decide
  obtain ⟨s, hrun, hs⟩ := Option.map_eq_some_iff.mp hcalls
  exact ⟨s, hrun, hs, (forwards_iff_upToDate 3 hrun).mpr (by decide)⟩

/-- The leader changes from node 1 to node 2 while node 3 stays a follower; the next proposal of
node 3 still goes to node 1. -/
theorem forwards_to_old_leader :
    ∃ s, run (step 3) {} (firstProposal ++ [.raft ⟨2, .follower⟩, .onReady, .propose]) = some s ∧
      s.calls[1]? = some {
        isLeader := false
        known := some 2
        phase := .done (.forwarded 1) } ∧ ¬ s.Forwards 3 := by
  have hcalls : (run (step 3) {} (firstProposal ++ [.raft ⟨2, .follower⟩, .onReady,
      .propose])).map (fun s => s.calls[1]?) = some (some {
        isLeader := false
        known := some 2
        phase := .done (.forwarded 1) }) := by decide
  obtain ⟨s, hrun, hs⟩ := Option.map_eq_some_iff.mp hcalls
  refine ⟨s, hrun, hs, fun h => ?_⟩
  have hforwarded := h _ (List.mem_of_getElem? hs) rfl rfl 2 rfl (by decide) _ rfl
  exact absurd hforwarded (by decide)

end Router

end Raftoral

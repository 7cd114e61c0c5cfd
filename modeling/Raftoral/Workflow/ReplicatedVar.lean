import Raftoral.Raft.Codec
import Raftoral.Workflow.Cluster

/-!
# `ReplicatedVar`

The model of `workflow/replicated_var.rs`. The body of a workflow creates replicated variables
one after the other, from a value (`with_value`; `set` and `update` make the same call) or from a
computation (`with_computation`). Which one comes next depends on the values the earlier ones
have returned. A computation is a side effect: what it gives may differ every time.

`with_computation` runs the computation before it calls `set_checkpoint`, on every node that gets
there. An execution passes every step at most once, so a computation runs once, and on the owner,
exactly when no other node gets to a computed step.
-/

namespace Raftoral

/-- What the body of a workflow does next. -/
inductive VarStep (T : Type) where
  | withValue (key : String) (value : T)
  | withComputation (key : String)

/-- A workflow whose body creates replicated variables. -/
structure VarWorkflow (T : Type) where
  workflowId : String
  workflowType : String := ""
  version : ℕ := 1
  input : Bytes := []
  owner : ℕ
  body : List T → Option (VarStep T)

/-- The calls of `set_checkpoint` are made by the body. -/
def VarWorkflow.started {T : Type} (V : VarWorkflow T) : StartedWorkflow T where
  workflowId := V.workflowId
  workflowType := V.workflowType
  version := V.version
  input := V.input
  owner := V.owner
  program := []

/-- The cluster, and which node has run the computation of which step. -/
structure VarCluster (T : Type) where
  cluster : Cluster T
  invocations : List (ℕ × ℕ) := []

inductive VarAction (T : Type) where
  | cluster (a : ClusterAction)
  /-- The body of the workflow goes on; `computed` is what a computation gives. -/
  | create (nodeId : ℕ) (computed : T)

section
variable {T : Type}

/-- What the body does next on a node whose last call has returned. -/
def VarWorkflow.nextStep (V : VarWorkflow T) (n : WorkflowNode T) :
    Option (Execution T × VarStep T) :=
  match n.exec with
  | none => none
  | some e =>
    if e.error.isNone && e.calls.isEmpty then
      (V.body (e.returned.map Prod.snd)).map fun next => (e, next)
    else none

/-- A node calls `set_checkpoint`. -/
def Cluster.enterCall (s : Cluster T) (nodeId : ℕ) (e : Execution T) (call : String × T) :
    Cluster T :=
  s.update nodeId ((s.node nodeId).withExec { e with calls := [call] })

/-- `with_value` and `with_computation`, up to the call of `set_checkpoint`. -/
def VarCluster.create (V : VarWorkflow T) (s : VarCluster T) (nodeId : ℕ) (computed : T) :
    Option (VarCluster T) :=
  match V.nextStep (s.cluster.node nodeId) with
  | none => none
  | some (e, .withValue key value) =>
    some { s with cluster := s.cluster.enterCall nodeId e (key, value) }
  | some (e, .withComputation key) =>
    some {
      cluster := s.cluster.enterCall nodeId e (key, computed)
      invocations := s.invocations ++ [(nodeId, e.returned.length)] }

def VarCluster.step [SerdeJson T] (V : VarWorkflow T) (s : VarCluster T) :
    VarAction T → Option (VarCluster T)
  | .cluster a => (s.cluster.step V.started a).map fun cluster => { s with cluster }
  | .create nodeId computed => s.create V nodeId computed

def VarCluster.start (V : VarWorkflow T) : VarCluster T := { cluster := Cluster.start V.started }

/-- The computation of a step runs at most once over the whole cluster, and on the owner. -/
structure ComputedOnce (V : VarWorkflow T) (s : VarCluster T) : Prop where
  once : ∀ position, (s.invocations.filter fun x => x.2 = position).length ≤ 1
  owner : ∀ x ∈ s.invocations, x.1 = V.owner

/-- A node has got to a computed step. -/
def VarCluster.atComputation (V : VarWorkflow T) (s : VarCluster T) (nodeId : ℕ) : Bool :=
  match V.nextStep (s.cluster.node nodeId) with
  | some (_, .withComputation _) => true
  | _ => false

/-- Only the owner goes on from a computed step. -/
def VarCluster.OwnerComputes (V : VarWorkflow T) (s : VarCluster T) : VarAction T → Prop
  | .cluster _ => True
  | .create nodeId _ => s.atComputation V nodeId → nodeId = V.owner

instance (V : VarWorkflow T) (s : VarCluster T) (a : VarAction T) :
    Decidable (s.OwnerComputes V a) :=
  match a with
  | .cluster _ => isTrue trivial
  | .create _ _ => inferInstanceAs (Decidable (_ → _))

/-! ## Executions pass every step once -/

/-- The steps an execution has entered. -/
def Execution.entered (e : Execution T) : ℕ := e.returned.length + e.calls.length

theorem Execution.Advances.entered_eq {e e' : Execution T} (h : e.Advances e') :
    e'.entered = e.entered := by
  unfold Execution.entered
  rcases h with ⟨hreturned, hcalls⟩ | ⟨call, hcall, v, hreturned, hcalls⟩
  · rw [hreturned, hcalls]
  · rw [hreturned, hcalls, List.length_append, List.length_singleton, List.length_tail]
    have hpos : e.calls ≠ [] := by
      intro hnil
      rw [hnil] at hcall
      exact absurd hcall (by simp)
    have := List.length_pos_iff.mpr hpos
    omega

theorem VarWorkflow.nextStep_eq_some {V : VarWorkflow T} {n : WorkflowNode T} {e : Execution T}
    {next : VarStep T} (h : V.nextStep n = some (e, next)) :
    n.exec = some e ∧ e.calls = [] := by
  unfold VarWorkflow.nextStep at h
  split at h
  · exact absurd h (by simp)
  · next e' hexec =>
    rw [Option.ite_none_right_eq_some, Bool.and_eq_true, List.isEmpty_iff,
      Option.map_eq_some_iff] at h
    obtain ⟨⟨-, hcalls⟩, next', -, heq⟩ := h
    obtain ⟨rfl, -⟩ := Prod.mk.injEq .. ▸ heq
    exact ⟨hexec, hcalls⟩

/-- The computations of the owner were those of steps that it has entered, no two of one step. -/
structure InvocationInv (V : VarWorkflow T) (s : VarCluster T) : Prop where
  owner : ∀ x ∈ s.invocations, x.1 = V.owner
  entered : ∀ x ∈ s.invocations, ∃ e, (s.cluster.node V.owner).exec = some e ∧ x.2 < e.entered
  distinct : s.invocations.Pairwise fun x y => x.2 < y.2

variable {V : VarWorkflow T} {s s' : VarCluster T}

/-- What the body of the workflow does on a node. -/
theorem VarCluster.create_cases {i : ℕ} {computed : T} (h : s.create V i computed = some s') :
    ∃ e key, (s.cluster.node i).exec = some e ∧ e.calls = [] ∧
      ((∃ value, s' = { s with cluster := s.cluster.enterCall i e (key, value) }) ∨
        s.atComputation V i ∧ s' = {
          cluster := s.cluster.enterCall i e (key, computed)
          invocations := s.invocations ++ [(i, e.returned.length)] }) := by
  unfold VarCluster.create at h
  split at h
  · exact absurd h (by simp)
  · next e key value hnext =>
    obtain ⟨hexec, hcalls⟩ := VarWorkflow.nextStep_eq_some hnext
    exact ⟨e, key, hexec, hcalls, Or.inl ⟨value, (Option.some.inj h).symm⟩⟩
  · next e key hnext =>
    obtain ⟨hexec, hcalls⟩ := VarWorkflow.nextStep_eq_some hnext
    have hat : s.atComputation V i := by rw [VarCluster.atComputation, hnext]
    exact ⟨e, key, hexec, hcalls, Or.inr ⟨hat, (Option.some.inj h).symm⟩⟩

/-- A node that goes on from a computed step has run the computation. -/
theorem VarCluster.invocations_create {i : ℕ} {computed : T} (hat : s.atComputation V i)
    (h : s.create V i computed = some s') :
    ∃ position, s'.invocations = s.invocations ++ [(i, position)] := by
  unfold VarCluster.atComputation at hat
  unfold VarCluster.create at h
  split at hat
  · next e key hnext =>
    rw [hnext] at h
    exact ⟨e.returned.length, by rw [← Option.some.inj h]⟩
  · exact absurd hat (by simp)

/-- No step takes an invocation back. -/
theorem VarCluster.invocations_step [SerdeJson T] {a : VarAction T} (h : s.step V a = some s') :
    s.invocations <+: s'.invocations := by
  cases a with
  | cluster a =>
    obtain ⟨cluster, -, rfl⟩ := Option.map_eq_some_iff.mp h
    exact List.prefix_rfl
  | create i computed =>
    obtain ⟨e, key, -, -, ⟨value, rfl⟩ | ⟨-, rfl⟩⟩ := VarCluster.create_cases h
    · exact List.prefix_rfl
    · exact List.prefix_append _ _

namespace InvocationInv

/-- The execution of the owner has entered as many steps as before. -/
theorem of_entered (h : InvocationInv V s) (hsame : s'.invocations = s.invocations)
    (hentered : ∀ e, (s.cluster.node V.owner).exec = some e →
      ∃ e', (s'.cluster.node V.owner).exec = some e' ∧ e.entered ≤ e'.entered) :
    InvocationInv V s' := by
  refine ⟨?_, ?_, ?_⟩
  · rw [hsame]
    exact h.owner
  · intro x hx
    rw [hsame] at hx
    obtain ⟨e, hexec, hlt⟩ := h.entered x hx
    obtain ⟨e', hexec', hle⟩ := hentered e hexec
    exact ⟨e', hexec', Nat.lt_of_lt_of_le hlt hle⟩
  · rw [hsame]
    exact h.distinct

theorem cluster [SerdeJson T] (h : InvocationInv V s) {a : ClusterAction} {cluster : Cluster T}
    (hstep : s.cluster.step V.started a = some cluster) :
    InvocationInv V { s with cluster } := by
  refine h.of_entered rfl fun e hexec => ?_
  have hmoves := Cluster.moves_step hstep V.owner
  rw [hexec] at hmoves
  generalize hexec' : (cluster.node V.owner).exec = exec' at hmoves
  cases hmoves with
  | stay => exact ⟨e, rfl, Nat.le_refl _⟩
  | advance hadvances => exact ⟨_, rfl, hadvances.entered_eq.ge⟩

/-- A node enters a step. -/
theorem entered_update {i : ℕ} {e : Execution T} {call : String × T}
    (hexec : (s.cluster.node i).exec = some e) (hcalls : e.calls = []) (e₀ : Execution T)
    (h : (s.cluster.node V.owner).exec = some e₀) :
    ∃ e', ((s.cluster.enterCall i e call).node V.owner).exec = some e' ∧
      e₀.entered ≤ e'.entered := by
  show ∃ e', (Function.update s.cluster.node i _ V.owner).exec = some e' ∧ _
  rw [Function.update_apply]
  by_cases hi : V.owner = i
  · rw [if_pos hi]
    refine ⟨_, rfl, ?_⟩
    rw [hi, hexec, Option.some.injEq] at h
    subst h
    unfold Execution.entered
    rw [hcalls]
    exact Nat.le_add_right _ _
  · rw [if_neg hi]
    exact ⟨e₀, h, Nat.le_refl _⟩

theorem step [SerdeJson T] (h : InvocationInv V s) {a : VarAction T} (howner : s.OwnerComputes V a)
    (hstep : s.step V a = some s') : InvocationInv V s' := by
  cases a with
  | cluster a =>
    obtain ⟨cluster, hcluster, rfl⟩ := Option.map_eq_some_iff.mp hstep
    exact h.cluster hcluster
  | create i computed =>
    obtain ⟨e, key, hexec, hcalls, ⟨value, rfl⟩ | ⟨hat, rfl⟩⟩ := VarCluster.create_cases hstep
    · exact h.of_entered rfl (entered_update hexec hcalls)
    · obtain rfl := howner hat
      -- the computations so far were those of earlier steps
      have hearlier : ∀ x ∈ s.invocations, x.2 < e.returned.length := by
        intro x hx
        obtain ⟨e', hexec', hlt⟩ := h.entered x hx
        rw [hexec, Option.some.injEq] at hexec'
        subst hexec'
        simpa [Execution.entered, hcalls] using hlt
      refine ⟨?_, ?_, ?_⟩
      · intro x hx
        rcases List.mem_append.mp hx with hx | hx
        · exact h.owner x hx
        · rw [List.mem_singleton.mp hx]
      · intro x hx
        refine ⟨{ e with calls := [(key, computed)] }, ?_, ?_⟩
        · show (Function.update s.cluster.node V.owner _ V.owner).exec = _
          rw [Function.update_self]
          rfl
        · show x.2 < e.returned.length + 1
          rcases List.mem_append.mp hx with hx | hx
          · exact Nat.lt_succ_of_lt (hearlier x hx)
          · rw [List.mem_singleton.mp hx]
            exact Nat.lt_succ_self _
      · refine List.pairwise_append.mpr ⟨h.distinct, List.pairwise_singleton _ _, ?_⟩
        intro x hx y hy
        rw [List.mem_singleton.mp hy]
        exact hearlier x hx

theorem computedOnce (h : InvocationInv V s) : ComputedOnce V s := by
  refine ⟨fun position => ?_, h.owner⟩
  have hsorted := h.distinct.filter fun x => x.2 = position
  have hsame : ∀ x ∈ s.invocations.filter (fun x => x.2 = position), x.2 = position := by
    intro x hx
    simpa using (List.mem_filter.mp hx).2
  -- a list of one value that increases has at most one element
  generalize s.invocations.filter (fun x => x.2 = position) = l at hsorted hsame ⊢
  rcases l with _ | ⟨x, _ | ⟨y, l⟩⟩
  · exact Nat.zero_le 1
  · exact Nat.le_refl 1
  · have hlt : x.2 < y.2 := (List.pairwise_cons.mp hsorted).1 y List.mem_cons_self
    have hx := hsame x List.mem_cons_self
    have hy := hsame y (by simp)
    omega

end InvocationInv

theorem ComputedOnce.of_prefix (h : ComputedOnce V s') (hle : s.invocations <+: s'.invocations) :
    ComputedOnce V s := by
  refine ⟨fun position => ?_, fun x hx => h.owner x (hle.subset hx)⟩
  have hshorter := (hle.sublist.filter fun x => x.2 = position).length_le
  have := h.once position
  omega

end

open Transition

/-- In every run each computation runs at most once, and on the owner, exactly when only the
owner gets to a computed step. -/
theorem computed_once_iff {T : Type} [SerdeJson T] (V : VarWorkflow T)
    {actions : List (VarAction T)} {s : VarCluster T}
    (hrun : run (VarCluster.step V) (VarCluster.start V) actions = some s) :
    ComputedOnce V s ↔
      Along (VarCluster.step V) (VarCluster.OwnerComputes V) (VarCluster.start V) actions := by
  have hstart : InvocationInv V (VarCluster.start V) := by
    refine ⟨?_, ?_, List.Pairwise.nil⟩
    · exact fun x hx => absurd hx (by simp [VarCluster.start])
    · exact fun x hx => absurd hx (by simp [VarCluster.start])
  refine run_iff_along (K := fun _ _ => True) (fun s a s' hs _ howner hstep => hs.step howner hstep)
    (fun s hs => hs.computedOnce) (fun s a s' hstep h => h.of_prefix (s.invocations_step hstep))
    ?_ hstart along_true hrun
  -- a follower that goes on leaves an invocation of its own
  intro s a s' _ _ hstep honce
  cases a with
  | cluster a => trivial
  | create i computed =>
    intro hat
    obtain ⟨position, hinvoked⟩ := VarCluster.invocations_create hat hstep
    refine honce.owner (i, position) ?_
    rw [hinvoked]
    exact List.mem_append_right _ (List.mem_singleton_self _)

section
open Codec

/-- The body charges a card. -/
def payment : VarWorkflow String where
  workflowId := "w"
  owner := 1
  body
    | [] => some (.withComputation "payment")
    | _ => none

theorem computed_once_owner :
    ∃ s, run (VarCluster.step payment) (VarCluster.start payment)
        [.cluster (.apply 1), .cluster (.publish 1), .cluster (.apply 2), .cluster (.publish 2),
         .create 1 "charged"] = some s ∧
      s.invocations = [(1, 0)] ∧ ComputedOnce payment s := by
  have hrun : (run (VarCluster.step payment) (VarCluster.start payment)
      [.cluster (.apply 1), .cluster (.publish 1), .cluster (.apply 2), .cluster (.publish 2),
       .create 1 "charged"]).map VarCluster.invocations = some [(1, 0)] := by decide
  obtain ⟨s, hs, hinvocations⟩ := Option.map_eq_some_iff.mp hrun
  exact ⟨s, hs, hinvocations, (computed_once_iff payment hs).mpr (by decide)⟩

/-- Both nodes get to the step and run its computation. -/
theorem computed_twice :
    ∃ s, run (VarCluster.step payment) (VarCluster.start payment)
        [.cluster (.apply 1), .cluster (.publish 1), .cluster (.apply 2), .cluster (.publish 2),
         .create 1 "charged", .create 2 "charged again"] = some s ∧
      s.invocations = [(1, 0), (2, 0)] ∧ ¬ ComputedOnce payment s := by
  have hrun : (run (VarCluster.step payment) (VarCluster.start payment)
      [.cluster (.apply 1), .cluster (.publish 1), .cluster (.apply 2), .cluster (.publish 2),
       .create 1 "charged", .create 2 "charged again"]).map VarCluster.invocations =
        some [(1, 0), (2, 0)] := by decide
  obtain ⟨s, hs, hinvocations⟩ := Option.map_eq_some_iff.mp hrun
  refine ⟨s, hs, hinvocations, fun h => ?_⟩
  have htwice := h.once 0
  rw [hinvocations] at htwice
  exact absurd htwice (by decide)

end

end Raftoral

import Mathlib.Tactic

/-!
# Calls that plan on a snapshot of a replicated state

A replicated state is what a log of commands makes of an initial state. A call proposes a command
of its own, waits until its node has applied it, plans further commands on the state its node has
by then, and proposes them one by one. Many calls are under way at once, on many nodes: a node has
applied some part of the log, so a plan is made on the state at some position behind the call's own
command, and other commands come between a plan and its proposals.

* `Planner`, the commands and plans of the calls; a plan may depend on a choice outside the state;
* `step`, a new call, a decision, a proposal;
* `stateAt`, the state at a position of the log, and `pending`, what is planned and not yet
  proposed;
* `step_cases`: a step is one command more in the log, or a plan more that is pending.
-/

namespace Planning

/-- What calls of the kinds `K` propose to a replicated state `S` with commands `C`. -/
structure Planner (S C K O : Type*) where
  apply : S → C → S
  /-- The command is applied without an error. -/
  succeeds : S → C → Bool
  /-- What a call proposes first. -/
  command : K → C
  /-- What it proposes after that, if the choice is one the state allows. -/
  plan : K → S → O → Option (List C)

inductive Phase (C : Type*) where
  /-- The call's own command is at a position of the log. -/
  | waiting (position : ℕ)
  | executing (rest : List C)
deriving DecidableEq, Repr

structure Call (C K : Type*) where
  kind : K
  phase : Phase C
deriving DecidableEq, Repr

/-- What the call still has to propose. -/
def Call.rest {C K : Type*} (call : Call C K) : List C :=
  match call.phase with
  | .waiting _ => []
  | .executing rest => rest

structure State (S C K : Type*) where
  initial : S
  log : List C := []
  calls : List (Call C K) := []

inductive Op (K O : Type*) where
  | call (kind : K)
  /-- A call plans on the state at a position, its own command being applied. -/
  | decide (i position : ℕ) (choice : O)
  | propose (i : ℕ)
deriving DecidableEq, Repr

variable {S C K O : Type*}

namespace State

/-- The state after the first commands of the log. -/
def stateAt (P : Planner S C K O) (s : State S C K) (position : ℕ) : S :=
  (s.log.take position).foldl P.apply s.initial

/-- The state after the whole log. -/
def current (P : Planner S C K O) (s : State S C K) : S := s.log.foldl P.apply s.initial

/-- All that is planned and not yet proposed. -/
def pending (s : State S C K) : List C := s.calls.flatMap Call.rest

def kinds (s : State S C K) : List K := s.calls.map Call.kind

/-- What a decision plans. -/
def planned (P : Planner S C K O) (s : State S C K) (i position : ℕ) (choice : O) : List C :=
  ((s.calls[i]?).bind fun call => P.plan call.kind (s.stateAt P position) choice).getD []

/-- A call proposes a command: it is the next of the log. -/
def append (s : State S C K) (command : C) (calls : List (Call C K)) : State S C K :=
  { s with log := s.log ++ [command], calls }

end State

/-- The steps of the calls. -/
def step (P : Planner S C K O) (s : State S C K) : Op K O → Option (State S C K)
  | .call kind => some (s.append (P.command kind) (s.calls ++ [⟨kind, .waiting s.log.length⟩]))
  | .decide i position choice =>
    match s.calls[i]? with
    | some ⟨kind, .waiting own⟩ =>
      if own < position ∧ position ≤ s.log.length ∧ P.succeeds (s.stateAt P own) (P.command kind) then
        (P.plan kind (s.stateAt P position) choice).map fun commands =>
          { s with calls := s.calls.set i ⟨kind, .executing commands⟩ }
      else none
    | _ => none
  | .propose i =>
    match s.calls[i]? with
    | some ⟨kind, .executing (command :: rest)⟩ =>
      some (s.append command (s.calls.set i ⟨kind, .executing rest⟩))
    | _ => none

/-! ## The states along the log -/

namespace State

variable {P : Planner S C K O} {s : State S C K}

@[simp] theorem log_append (command : C) (calls : List (Call C K)) :
    (s.append command calls).log = s.log ++ [command] := rfl

@[simp] theorem initial_append (command : C) (calls : List (Call C K)) :
    (s.append command calls).initial = s.initial := rfl

@[simp] theorem current_append (command : C) (calls : List (Call C K)) :
    (s.append command calls).current P = P.apply (s.current P) command := by
  simp [current, append]

theorem stateAt_of_le {position : ℕ} (h : s.log.length ≤ position) :
    s.stateAt P position = s.current P := by
  rw [stateAt, List.take_of_length_le h, current]

theorem stateAt_succ {position : ℕ} {command : C} (h : s.log[position]? = some command) :
    s.stateAt P (position + 1) = P.apply (s.stateAt P position) command := by
  rw [stateAt, List.take_add_one, h, List.foldl_append]
  rfl

/-- The part of the log that was there does not change. -/
theorem stateAt_append {command : C} {calls : List (Call C K)} {position : ℕ}
    (h : position ≤ s.log.length) :
    (s.append command calls).stateAt P position = s.stateAt P position := by
  rw [stateAt, log_append, List.take_append_of_le_length h]
  rfl

/-- What holds along the log and behind the next command holds along the longer log. -/
theorem forall_stateAt_append {Q : S → Prop} {command : C} {calls : List (Call C K)}
    (h : ∀ position, Q (s.stateAt P position)) (hnext : Q (P.apply (s.current P) command))
    (position : ℕ) : Q ((s.append command calls).stateAt P position) := by
  by_cases hle : position ≤ s.log.length
  · rw [stateAt_append hle]
    exact h position
  · rw [stateAt_of_le (by rw [log_append, List.length_append, List.length_singleton]; omega),
      current_append]
    exact hnext

/-- What no command behind a position breaks holds from there on. -/
theorem stateAt_of_drop {Q : S → Prop} {p q : ℕ} (hle : p ≤ q)
    (hkeep : ∀ k command, p ≤ k → s.log[k]? = some command → Q (s.stateAt P k) →
      Q (P.apply (s.stateAt P k) command))
    (h : Q (s.stateAt P p)) : Q (s.stateAt P q) := by
  induction q, hle using Nat.le_induction with
  | base => exact h
  | succ k hk ih =>
    cases hcommand : s.log[k]? with
    | none =>
      have hend := List.getElem?_eq_none_iff.mp hcommand
      rw [stateAt_of_le (by omega), ← stateAt_of_le hend]
      exact ih
    | some command =>
      rw [stateAt_succ hcommand]
      exact hkeep k command hk hcommand ih

end State

/-! ## What a step does -/

theorem flatMap_set_perm {α β : Type*} {f : α → List β} {l : List α} {i : ℕ} {a b : α}
    (h : l[i]? = some a) : (f a ++ (l.set i b).flatMap f).Perm (f b ++ l.flatMap f) := by
  induction l generalizing i with
  | nil => simp at h
  | cons x l ih =>
    cases i with
    | zero =>
      obtain rfl : x = a := by simpa using h
      exact List.perm_append_comm_assoc (f x) (f b) (l.flatMap f)
    | succ i =>
      rw [List.set_cons_succ, List.flatMap_cons, List.flatMap_cons]
      have hrest : (f a ++ (l.set i b).flatMap f).Perm (f b ++ l.flatMap f) := ih (by simpa using h)
      calc (f a ++ (f x ++ (l.set i b).flatMap f)).Perm (f x ++ (f a ++ (l.set i b).flatMap f)) :=
            List.perm_append_comm_assoc _ _ _
        List.Perm _ (f x ++ (f b ++ l.flatMap f)) := hrest.append_left (f x)
        List.Perm _ (f b ++ (f x ++ l.flatMap f)) := List.perm_append_comm_assoc _ _ _

theorem countP_set_add {α : Type*} {p : α → Bool} {l : List α} {j : ℕ} {x : α}
    (hj : l[j]? = some x) (x' : α) :
    (l.set j x').countP p + (if p x then 1 else 0) = l.countP p + if p x' then 1 else 0 := by
  obtain ⟨hlt, rfl⟩ := List.getElem?_eq_some_iff.mp hj
  have hpos : p l[j] → 0 < l.countP p := fun h =>
    List.countP_pos_iff.mpr ⟨l[j], List.getElem_mem hlt, h⟩
  rw [List.countP_set hlt]
  split_ifs at * with h
  all_goals grind

theorem kinds_set {calls : List (Call C K)} {i : ℕ} {call : Call C K} {phase : Phase C}
    (h : calls[i]? = some call) :
    (calls.set i ⟨call.kind, phase⟩).map Call.kind = calls.map Call.kind := by
  induction calls generalizing i with
  | nil => simp at h
  | cons first calls ih =>
    cases i with
    | zero =>
      obtain rfl : first = call := by simpa using h
      rfl
    | succ i =>
      rw [List.set_cons_succ, List.map_cons, List.map_cons, ih (by simpa using h)]

/-- A step is one command more in the log, or a plan more that is pending. -/
theorem step_cases {P : Planner S C K O} {s s' : State S C K} {op : Op K O}
    (h : step P s op = some s') :
    (∃ kind calls, op = .call kind ∧ s' = s.append (P.command kind) calls ∧
      s'.kinds = s.kinds ++ [kind] ∧ s'.pending = s.pending) ∨
    (∃ i position choice kind calls, op = .decide i position choice ∧ kind ∈ s.kinds ∧
      position ≤ s.log.length ∧
      P.plan kind (s.stateAt P position) choice = some (s.planned P i position choice) ∧
      s' = { s with calls } ∧ s'.kinds = s.kinds ∧
      s'.pending.Perm (s.planned P i position choice ++ s.pending)) ∨
    (∃ i command calls, op = .propose i ∧ s' = s.append command calls ∧ s'.kinds = s.kinds ∧
      s.pending.Perm (command :: s'.pending)) := by
  cases op with
  | call kind =>
    obtain rfl := Option.some.inj h
    refine Or.inl ⟨kind, _, rfl, rfl, ?_, ?_⟩
    · simp [State.kinds, State.append]
    · simp [State.pending, State.append, Call.rest]
  | decide i position choice =>
    simp only [step] at h
    split at h
    · rename_i kind own hcall
      split at h
      · rename_i henabled
        obtain ⟨commands, hplan, rfl⟩ := Option.map_eq_some_iff.mp h
        have hplanned : s.planned P i position choice = commands := by
          rw [State.planned, hcall, Option.bind_some, hplan, Option.getD_some]
        refine Or.inr (Or.inl ⟨i, position, choice, kind, _, rfl, ?_, henabled.2.1, ?_, rfl,
          kinds_set hcall, ?_⟩)
        · exact List.mem_map.mpr ⟨_, List.mem_of_getElem? hcall, rfl⟩
        · rw [hplanned, hplan]
        · rw [hplanned]
          exact flatMap_set_perm (f := Call.rest) hcall
      · exact absurd h (by simp)
    · exact absurd h (by simp)
  | propose i =>
    simp only [step] at h
    split at h
    · rename_i kind command rest hcall
      obtain rfl := Option.some.inj h
      refine Or.inr (Or.inr ⟨i, command, _, rfl, rfl, kinds_set hcall, ?_⟩)
      have hperm : (command :: rest ++ (s.calls.set i ⟨kind, .executing rest⟩).flatMap Call.rest).Perm
          (rest ++ s.pending) := flatMap_set_perm (f := Call.rest) hcall
      have hmiddle : (rest ++ command :: (s.calls.set i ⟨kind, .executing rest⟩).flatMap
          Call.rest).Perm (command :: (rest ++
            (s.calls.set i ⟨kind, .executing rest⟩).flatMap Call.rest)) := List.perm_middle
      exact (List.perm_append_left_iff rest).mp (hperm.symm.trans hmiddle.symm)
    · exact absurd h (by simp)

end Planning

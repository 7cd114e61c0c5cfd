import Raftoral.Lib.Run

/-!
# Statements with early exits

A statement of an imperative function is a function on the state that says how it ended:
it reached its end, it left the function early with success, or it failed. The state is
kept in all three cases, as what was done before an exit stays done.

`block` runs statements one after the other and `forEach` is a loop over a list. The rules:

* `block_rel` and `forEach_rel`: a reflexive and transitive relation between the states
  before and after that every statement keeps is kept by the block, however it ends;
* `block_cons_next` and `block_append`: what an execution that reached its end went through;
* `block_keeps` and `forEach_keeps`: a view of the state that no statement changes;
* `block_view`: what a block does to a view of the state, one statement at a time;
* `turns` and `forEach_inv`: the turns a loop takes and the states they start in;
* `call`, the boundary of a function: its early exits end the function, not its caller;
* `forEach_next_iff_along`: a loop runs on exactly as long as each turn meets the condition
  under which the body reaches its end.
-/

/-- How a statement ended. -/
inductive Outcome (E : Type*) where
  | next
  | returned
  | failed (error : E)
deriving DecidableEq, Repr

/-- The function ended without an error. -/
def Outcome.isOk {E : Type*} : Outcome E → Bool
  | .next | .returned => true
  | .failed _ => false

/-- A statement. -/
abbrev Step (S E : Type*) := S → Outcome E × S

namespace Step

variable {S E α : Type*}

/-- Nothing to do. -/
def skip : Step S E := fun s => (.next, s)

/-- Change the state. -/
def modify (f : S → S) : Step S E := fun s => (.next, f s)

/-- Run the statements in order, up to the first that leaves or fails. -/
def block : List (Step S E) → Step S E
  | [], s => (.next, s)
  | a :: rest, s =>
    match a s with
    | (.next, s') => block rest s'
    | (.returned, s') => (.returned, s')
    | (.failed e, s') => (.failed e, s')

/-- A loop over a list. -/
def forEach (xs : List α) (body : α → Step S E) : Step S E := block (xs.map body)

/-- Call a function: leaving it early is the end of the call. -/
def call (f : Step S E) : Step S E := fun s =>
  match f s with
  | (.returned, s') => (.next, s')
  | r => r

@[simp] theorem block_nil (s : S) : (block [] s : Outcome E × S) = (.next, s) := rfl

theorem block_cons_of_next {a : Step S E} {rest : List (Step S E)} {s s' : S}
    (h : a s = (.next, s')) : block (a :: rest) s = block rest s' := by
  rw [block, h]

theorem block_cons_of_returned {a : Step S E} {rest : List (Step S E)} {s s' : S}
    (h : a s = (.returned, s')) : block (a :: rest) s = (.returned, s') := by
  rw [block, h]

theorem block_cons_of_failed {a : Step S E} {rest : List (Step S E)} {s s' : S} {e : E}
    (h : a s = (.failed e, s')) : block (a :: rest) s = (.failed e, s') := by
  rw [block, h]

/-- An execution that reaches the end of a block went through its first statement. -/
theorem block_cons_next {a : Step S E} {rest : List (Step S E)} {s t : S} :
    block (a :: rest) s = (.next, t) ↔
      ∃ s', a s = (.next, s') ∧ block rest s' = (.next, t) := by
  constructor
  · intro h
    rcases hs : a s with ⟨_ | _ | e, s'⟩
    · exact ⟨s', rfl, by rwa [block_cons_of_next hs] at h⟩
    · rw [block_cons_of_returned hs] at h
      exact absurd h (by simp)
    · rw [block_cons_of_failed hs] at h
      exact absurd h (by simp)
  · intro h
    obtain ⟨s', hs, hrest⟩ := h
    rw [block_cons_of_next hs, hrest]

theorem block_append {as bs : List (Step S E)} {s s' : S} (h : block as s = (.next, s')) :
    block (as ++ bs) s = block bs s' := by
  induction as generalizing s with
  | nil =>
    rw [block_nil, Prod.mk.injEq] at h
    rw [List.nil_append, h.2]
  | cons a as ih =>
    obtain ⟨s₁, hs₁, hrest⟩ := block_cons_next.mp h
    rw [List.cons_append, block_cons_of_next hs₁, ih hrest]

/-- A block that stops in its first part stops there. -/
theorem block_append_of_ne_next {as bs : List (Step S E)} {s : S}
    (h : (block as s).1 ≠ .next) : block (as ++ bs) s = block as s := by
  induction as generalizing s with
  | nil => exact absurd rfl h
  | cons a as ih =>
    rcases hs : a s with ⟨_ | _ | e, s'⟩
    · rw [List.cons_append, block_cons_of_next hs, block_cons_of_next hs]
      rw [block_cons_of_next hs] at h
      exact ih h
    · rw [List.cons_append, block_cons_of_returned hs, block_cons_of_returned hs]
    · rw [List.cons_append, block_cons_of_failed hs, block_cons_of_failed hs]

/-- An execution that reaches the end of a block went through its first part. -/
theorem block_append_next {as bs : List (Step S E)} {s t : S} :
    block (as ++ bs) s = (.next, t) ↔
      ∃ s', block as s = (.next, s') ∧ block bs s' = (.next, t) := by
  constructor
  · intro h
    by_cases hs : (block as s).1 = .next
    · have hfirst : block as s = (.next, (block as s).2) := Prod.ext hs rfl
      rw [block_append hfirst] at h
      exact ⟨_, hfirst, h⟩
    · rw [block_append_of_ne_next hs] at h
      rw [h] at hs
      exact absurd rfl hs
  · intro h
    obtain ⟨s', hs, hrest⟩ := h
    rw [block_append hs, hrest]

/-- A view of the state that every statement changes by a function when it goes on is changed by
all of them in turn. -/
theorem block_view {V : Type*} (view : S → V) (fs : List (V → V)) {as : List (Step S E)}
    (h : List.Forall₂ (fun f a => ∀ s s', a s = (.next, s') → view s' = f (view s)) fs as)
    {s s' : S} (hs : block as s = (.next, s')) :
    view s' = fs.foldl (fun v f => f v) (view s) := by
  induction h generalizing s with
  | nil =>
    rw [block_nil, Prod.mk.injEq] at hs
    rw [List.foldl_nil, hs.2]
  | cons hfirst _ ih =>
    obtain ⟨s₁, hs₁, hrest⟩ := block_cons_next.mp hs
    rw [List.foldl_cons, ← hfirst s s₁ hs₁]
    exact ih hrest

/-- What every statement keeps between the states before and after it, a block keeps. -/
theorem block_rel {R : S → S → Prop} (hrefl : ∀ s, R s s)
    (htrans : ∀ s t u, R s t → R t u → R s u) {steps : List (Step S E)}
    (h : ∀ a ∈ steps, ∀ s, R s (a s).2) (s : S) : R s (block steps s).2 := by
  induction steps generalizing s with
  | nil => exact hrefl s
  | cons a rest ih =>
    have ha := h a List.mem_cons_self s
    have hrest := ih fun b hb => h b (List.mem_cons_of_mem a hb)
    rcases hs : a s with ⟨_ | _ | e, s'⟩
    · rw [block_cons_of_next hs]
      rw [hs] at ha
      exact htrans s s' _ ha (hrest s')
    · rw [block_cons_of_returned hs]
      rwa [hs] at ha
    · rw [block_cons_of_failed hs]
      rwa [hs] at ha

theorem forEach_rel {R : S → S → Prop} (hrefl : ∀ s, R s s)
    (htrans : ∀ s t u, R s t → R t u → R s u) {xs : List α} {body : α → Step S E}
    (h : ∀ x ∈ xs, ∀ s, R s (body x s).2) (s : S) : R s (forEach xs body s).2 := by
  refine block_rel hrefl htrans ?_ s
  intro a ha
  obtain ⟨x, hx, rfl⟩ := List.mem_map.mp ha
  exact h x hx

/-- A view of the state that no statement changes is not changed by a block, however it ends. -/
theorem block_keeps {V : Type*} (view : S → V) {steps : List (Step S E)}
    (h : ∀ a ∈ steps, ∀ s, view (a s).2 = view s) (s : S) : view (block steps s).2 = view s :=
  block_rel (R := fun s t => view t = view s) (fun _ => rfl) (fun _ _ _ h₁ h₂ => h₂.trans h₁) h s

theorem forEach_keeps {V : Type*} (view : S → V) {xs : List α} {body : α → Step S E}
    (h : ∀ x ∈ xs, ∀ s, view (body x s).2 = view s) (s : S) : view (forEach xs body s).2 = view s :=
  forEach_rel (R := fun s t => view t = view s) (fun _ => rfl) (fun _ _ _ h₁ h₂ => h₂.trans h₁) h s

@[simp] theorem forEach_nil (body : α → Step S E) (s : S) :
    forEach [] body s = (.next, s) := rfl

theorem forEach_cons_of_next {x : α} {xs : List α} {body : α → Step S E} {s s' : S}
    (h : body x s = (.next, s')) : forEach (x :: xs) body s = forEach xs body s' :=
  block_cons_of_next h

/-- A block of statements that never leave the function does not either. -/
theorem block_ne_returned {steps : List (Step S E)}
    (h : ∀ a ∈ steps, ∀ s, (a s).1 ≠ .returned) (s : S) : (block steps s).1 ≠ .returned := by
  induction steps generalizing s with
  | nil => simp
  | cons a rest ih =>
    have ha := h a List.mem_cons_self s
    rcases hs : a s with ⟨_ | _ | e, s'⟩
    · rw [block_cons_of_next hs]
      exact ih (fun b hb => h b (List.mem_cons_of_mem a hb)) s'
    · rw [hs] at ha
      exact absurd rfl ha
    · rw [block_cons_of_failed hs]
      simp

/-- The state a statement goes on in, if it does. -/
def goOn (a : Step S E) (s : S) : Option S :=
  match a s with
  | (.next, s') => some s'
  | _ => none

theorem goOn_of_next {a : Step S E} {s s' : S} (h : a s = (.next, s')) : goOn a s = some s' := by
  rw [goOn, h]

theorem goOn_eq_some_iff {a : Step S E} {s s' : S} : goOn a s = some s' ↔ a s = (.next, s') := by
  unfold goOn
  rcases a s with ⟨_ | _ | e, t⟩ <;> simp

/-- What the first part of a block establishes and the second part keeps. -/
theorem block_append_inv {I : S → Prop} (as : List (Step S E)) {bs : List (Step S E)} {s : S}
    (hfirst : I (block as s).2)
    (hrest : ∀ s', goOn (block as) s = some s' → I s' → I (block bs s').2) :
    I (block (as ++ bs) s).2 := by
  rcases hs : block as s with ⟨_ | _ | e, s'⟩
  · rw [hs] at hfirst
    rw [block_append hs]
    exact hrest s' (goOn_of_next hs) hfirst
  all_goals
    rw [block_append_of_ne_next (by rw [hs]; simp)]
    exact hfirst

theorem block_singleton (a : Step S E) : block [a] = a := by
  funext s
  rcases hs : a s with ⟨_ | _ | e, s'⟩ <;> simp [block, hs]

/-- The turns a loop takes: each element with the state its turn starts in. -/
def turns (body : α → Step S E) : List α → S → List (α × S)
  | [], _ => []
  | x :: xs, s => (x, s) :: ((goOn (body x) s).map fun s' => turns body xs s').getD []

theorem fst_mem_of_mem_turns {body : α → Step S E} {xs : List α} {s : S} {t : α × S}
    (h : t ∈ turns body xs s) : t.1 ∈ xs := by
  induction xs generalizing s with
  | nil => exact absurd h List.not_mem_nil
  | cons x xs ih =>
    rw [turns] at h
    rcases List.mem_cons.mp h with rfl | h
    · exact List.mem_cons_self
    · cases hs : goOn (body x) s with
      | none => simp [hs] at h
      | some s' =>
        rw [hs] at h
        exact List.mem_cons_of_mem x (ih h)

/-- What every turn that is taken keeps, a loop keeps. -/
theorem forEach_inv {I : S → Prop} {xs : List α} {body : α → Step S E} {s : S} (hI : I s)
    (hturn : ∀ t ∈ turns body xs s, I t.2 → I (body t.1 t.2).2) : I (forEach xs body s).2 := by
  induction xs generalizing s with
  | nil => exact hI
  | cons x xs ih =>
    have hx : I (body x s).2 := hturn (x, s) List.mem_cons_self hI
    rw [forEach, List.map_cons]
    refine block_append_inv [body x] ?_ ?_
    · rw [block_singleton]
      exact hx
    · intro s' hs' hI'
      rw [block_singleton] at hs'
      refine ih hI' fun t ht => hturn t ?_
      rw [turns, hs']
      exact List.mem_cons_of_mem _ ht

/-- A loop runs on as long as every turn meets the condition under which the body reaches its
end. `G` is what the end state is known to have, and earlier states inherit it. -/
theorem forEach_next_iff_along {C : S → α → Prop} {G : S → Prop} {xs : List α}
    {body : α → Step S E} (hback : ∀ x s, G (body x s).2 → G s)
    (hiff : ∀ x ∈ xs, ∀ s, G (body x s).2 → ((body x s).1 = .next ↔ C s x)) {s : S}
    (hG : G (forEach xs body s).2) :
    (forEach xs body s).1 = .next ↔ Transition.Along (fun s x => goOn (body x) s) C s xs := by
  induction xs generalizing s with
  | nil => simp
  | cons x xs ih =>
    have hx := hiff x List.mem_cons_self s
    rcases hs : body x s with ⟨_ | _ | e, s'⟩
    · rw [forEach_cons_of_next hs] at hG ⊢
      have hG' : G s' := forEach_rel (R := fun s t => G t → G s) (fun _ h => h)
        (fun _ _ _ h₁ h₂ h => h₁ (h₂ h)) (fun y _ t => hback y t) s' hG
      have hC : C s x := (hx (by rwa [hs])).mp (by rw [hs])
      rw [ih (fun y hy => hiff y (List.mem_cons_of_mem x hy)) hG,
        Transition.along_cons_of_some (goOn_of_next hs)]
      exact ⟨fun h => ⟨hC, h⟩, fun h => h.2⟩
    all_goals
      -- the loop stopped in this turn, so the turn did not meet its condition
      have hstop : forEach (x :: xs) body s = body x s := by
        rw [forEach, List.map_cons, block, hs]
      rw [hstop] at hG ⊢
      rw [hx hG]
      refine ⟨fun hC => ?_, fun h => h.1⟩
      have hnext := (hx hG).mpr hC
      rw [hs] at hnext
      exact absurd hnext (by simp)

theorem call_snd (f : Step S E) (s : S) : (call f s).2 = (f s).2 := by
  unfold call
  rcases f s with ⟨_ | _ | e, s'⟩ <;> rfl

theorem call_next_iff {f : Step S E} {s : S} : (call f s).1 = .next ↔ (f s).1.isOk := by
  unfold call
  rcases f s with ⟨_ | _ | e, s'⟩ <;> simp [Outcome.isOk]

end Step

import Mathlib.Tactic

/-!
# Runs of a partial step function

A system is a partial step function `step : S → A → Option S`: an action that is not
enabled gives `none`. This file holds the rules the developments above it induct with:

* `run`, the end state of a list of actions;
* `Along`, "every step of the run meets a condition on the state it starts in";
* `run_induction`, the invariant rule: what every step that meets the condition keeps
  holds at the end of every run whose steps all meet it;
* `run_iff_along`, its converse for a property that a step outside the condition breaks;
* `always_iff_along`, the same for a property of every state on the way;
* `nondecreasing_iff_along`, the same for a quantity that never falls;
* `run_history`, the invariant rule for a property that mentions the actions so far;
* `exists_run_of_enabled`, that a system with an enabled choice for every input runs on;
* `settles_of_measure`, that an infinite run under a falling measure settles;
* `along_budget`, a bound on how often something is done as a condition on every step.

A run may be cut anywhere, so a property of every end state is a property of every
state a run passes through.
-/

namespace Transition

variable {S A : Type*}

/-- The state a list of actions leads to, if every one of them was enabled. -/
def run (step : S → A → Option S) : S → List A → Option S
  | s, [] => some s
  | s, a :: as => (step s a).bind fun s' => run step s' as

@[simp] theorem run_nil (step : S → A → Option S) (s : S) : run step s [] = some s := rfl

theorem run_cons {step : S → A → Option S} {s t : S} {a : A} {as : List A} :
    run step s (a :: as) = some t ↔ ∃ s', step s a = some s' ∧ run step s' as = some t := by
  rw [run, Option.bind_eq_some_iff]

/-- A system in which every action is enabled runs as a fold. -/
theorem run_some (f : S → A → S) (s : S) (as : List A) :
    run (fun s a => some (f s a)) s as = some (as.foldl f s) := by
  induction as generalizing s with
  | nil => rfl
  | cons a as ih => exact ih (f s a)

/-- Every step of the run from `s` over the actions is taken in a state that meets `C`. -/
def Along (step : S → A → Option S) (C : S → A → Prop) : S → List A → Prop
  | _, [] => True
  | s, a :: as => C s a ∧ ∀ s', step s a = some s' → Along step C s' as

@[simp] theorem along_nil (step : S → A → Option S) (C : S → A → Prop) (s : S) :
    Along step C s [] := trivial

theorem along_cons_of_some {step : S → A → Option S} {C : S → A → Prop} {s s' : S} {a : A}
    {as : List A} (h : step s a = some s') :
    Along step C s (a :: as) ↔ C s a ∧ Along step C s' as := by
  simp [Along, h]

/-- Whether a given run meets a decidable condition can be computed. -/
def Along.decide {step : S → A → Option S} {C : S → A → Prop} [∀ s a, Decidable (C s a)] :
    (s : S) → (as : List A) → Decidable (Along step C s as)
  | _, [] => isTrue trivial
  | s, a :: as =>
    match h : step s a with
    | none => decidable_of_iff (C s a) (by simp [Along, h])
    | some s' =>
      have : Decidable (Along step C s' as) := Along.decide s' as
      decidable_of_iff (C s a ∧ Along step C s' as) (along_cons_of_some h).symm

instance {step : S → A → Option S} {C : S → A → Prop} [∀ s a, Decidable (C s a)] (s : S)
    (as : List A) : Decidable (Along step C s as) := Along.decide s as

/-- A condition on the actions alone. -/
theorem along_of_forall {step : S → A → Option S} {C : A → Prop} {s : S} {as : List A}
    (h : ∀ a ∈ as, C a) : Along step (fun _ a => C a) s as := by
  induction as generalizing s with
  | nil => trivial
  | cons a as ih =>
    exact ⟨h a List.mem_cons_self, fun s' _ => ih fun b hb => h b (List.mem_cons_of_mem a hb)⟩

/-- No condition. -/
theorem along_true {step : S → A → Option S} {s : S} {as : List A} :
    Along step (fun _ _ => True) s as :=
  along_of_forall (C := fun _ => True) fun _ _ => trivial

theorem run_append {step : S → A → Option S} {s : S} {as bs : List A} :
    run step s (as ++ bs) = (run step s as).bind fun t => run step t bs := by
  induction as generalizing s with
  | nil => rfl
  | cons a as ih => simp only [List.cons_append, run, ih, Option.bind_assoc]

/-- A run that is cut in two meets a condition when both parts do. -/
theorem along_append {step : S → A → Option S} {C : S → A → Prop} {s t : S} {as bs : List A}
    (hrun : run step s as = some t) :
    Along step C s (as ++ bs) ↔ Along step C s as ∧ Along step C t bs := by
  induction as generalizing s with
  | nil =>
    rw [run_nil, Option.some.injEq] at hrun
    simp [hrun]
  | cons a as ih =>
    obtain ⟨s', hs', hrest⟩ := run_cons.mp hrun
    rw [List.cons_append, along_cons_of_some hs', along_cons_of_some hs', ih hrest, and_assoc]

/-- A quantity that only some actions raise, and only by one, stays within what those
actions can bring it to. -/
theorem along_budget {step : S → A → Option S} {p : A → Bool} {K : A → Prop} {f : S → ℕ} {B : ℕ}
    (hstep : ∀ s a s', K a → step s a = some s' → f s + (if p a then 1 else 0) < B →
      f s' ≤ f s + if p a then 1 else 0)
    {s : S} {as : List A} (hK : ∀ a ∈ as, K a) (hB : f s + as.countP p < B) :
    Along step (fun s a => f s + (if p a then 1 else 0) < B) s as := by
  induction as generalizing s with
  | nil => trivial
  | cons a as ih =>
    rw [List.countP_cons] at hB
    have hfirst : f s + (if p a then 1 else 0) < B := by omega
    refine ⟨hfirst, fun s' hs' => ih (fun b hb => hK b (List.mem_cons_of_mem a hb)) ?_⟩
    have hle := hstep s a s' (hK a List.mem_cons_self) hs' hfirst
    omega

theorem Along.and {step : S → A → Option S} {C D : S → A → Prop} {s : S} {as : List A}
    (h₁ : Along step C s as) (h₂ : Along step D s as) :
    Along step (fun s a => C s a ∧ D s a) s as := by
  induction as generalizing s with
  | nil => trivial
  | cons a as ih => exact ⟨⟨h₁.1, h₂.1⟩, fun s' hs' => ih (h₁.2 s' hs') (h₂.2 s' hs')⟩

theorem Along.mono {step : S → A → Option S} {C D : S → A → Prop} {s : S} {as : List A}
    (h : Along step C s as) (hCD : ∀ s a, C s a → D s a) : Along step D s as := by
  induction as generalizing s with
  | nil => trivial
  | cons a as ih => exact ⟨hCD s a h.1, fun s' hs' => ih (h.2 s' hs')⟩

/-- The invariant rule for a property of the state and of the actions that led to it: what every
step that meets the condition keeps holds at the end of every run whose steps all meet it. -/
theorem run_history {step : S → A → Option S} {C : S → A → Prop} {I : List A → S → Prop}
    (hstep : ∀ done s a s', I done s → C s a → step s a = some s' → I (done ++ [a]) s')
    {s t : S} {as : List A} (hI : I [] s) (hC : Along step C s as)
    (hrun : run step s as = some t) : I as t := by
  have hall : ∀ as done s, I done s → Along step C s as → run step s as = some t →
      I (done ++ as) t := by
    intro as
    induction as with
    | nil =>
      intro done s hI _ hrun
      rw [run_nil, Option.some.injEq] at hrun
      rw [List.append_nil, ← hrun]
      exact hI
    | cons a as ih =>
      intro done s hI hC hrun
      obtain ⟨s', hs', hrest⟩ := run_cons.mp hrun
      rw [List.append_cons]
      exact ih _ s' (hstep done s a s' hI hC.1 hs') (hC.2 s' hs') hrest
  exact hall as [] s hI hC hrun

/-- The invariant rule for a property of the state alone. -/
theorem run_induction {step : S → A → Option S} {C : S → A → Prop} {I : S → Prop}
    (hstep : ∀ s a s', I s → C s a → step s a = some s' → I s')
    {s t : S} {as : List A} (hI : I s) (hC : Along step C s as)
    (hrun : run step s as = some t) : I t :=
  run_history (I := fun _ s => I s) (fun _ => hstep) hI hC hrun

/-- A system that can take every input, with some choice, runs over every list of inputs. -/
theorem exists_run_of_enabled {B : Type*} {step : S → A × B → Option S}
    (henabled : ∀ s a, ∃ b s', step s (a, b) = some s') (s : S) (as : List A) :
    ∃ abs t, abs.map Prod.fst = as ∧ run step s abs = some t := by
  induction as generalizing s with
  | nil => exact ⟨[], s, rfl, rfl⟩
  | cons a as ih =>
    obtain ⟨b, s', hs'⟩ := henabled s a
    obtain ⟨abs, t, habs, hrest⟩ := ih s'
    exact ⟨(a, b) :: abs, t, by rw [List.map_cons, habs], run_cons.mpr ⟨s', hs', hrest⟩⟩

/-- When a condition is all that can go wrong: in runs that keep to the rules `K`, the
property holds at the end exactly when every step met the condition. -/
theorem run_iff_along {step : S → A → Option S} {K C : S → A → Prop} {I P : S → Prop}
    (hstep : ∀ s a s', I s → K s a → C s a → step s a = some s' → I s') (hP : ∀ s, I s → P s)
    (hback : ∀ s a s', step s a = some s' → P s' → P s)
    (hcond : ∀ s a s', I s → K s a → step s a = some s' → P s' → C s a)
    {s t : S} {as : List A} (hI : I s) (hK : Along step K s as) (hrun : run step s as = some t) :
    P t ↔ Along step C s as := by
  -- what holds at the end of a run holds in every state before
  have hearlier : ∀ {as : List A} {s : S}, run step s as = some t → P t → P s := by
    intro as
    induction as with
    | nil =>
      intro s hrun ht
      rw [run_nil, Option.some.injEq] at hrun
      exact hrun ▸ ht
    | cons a as ih =>
      intro s hrun ht
      obtain ⟨s', hs', hrest⟩ := run_cons.mp hrun
      exact hback s a s' hs' (ih hrest ht)
  -- the condition of the first step comes from the state behind it, that of the rest by induction
  induction as generalizing s with
  | nil =>
    rw [run_nil, Option.some.injEq] at hrun
    exact ⟨fun _ => trivial, fun _ => hrun ▸ hP s hI⟩
  | cons a as ih =>
    obtain ⟨s', hs', hrest⟩ := run_cons.mp hrun
    have htail := fun hC => ih (hstep s a s' hI hK.1 hC hs') (hK.2 s' hs') hrest
    rw [along_cons_of_some hs']
    constructor
    · intro ht
      have hC := hcond s a s' hI hK.1 hs' (hearlier hrest ht)
      exact ⟨hC, (htail hC).mp ht⟩
    · intro hC
      exact (htail hC.1).mpr hC.2

/-- When a step outside the condition breaks the property at once: in runs that keep to the
rules `K`, the property holds in every state the run passes through exactly when every step
met the condition. -/
theorem always_iff_along {step : S → A → Option S} {K C : S → A → Prop} {I P : S → Prop}
    (hstep : ∀ s a s', I s → K s a → C s a → step s a = some s' → I s') (hP : ∀ s, I s → P s)
    (hbreak : ∀ s a s', I s → K s a → step s a = some s' → P s' → C s a)
    {s t : S} {as : List A} (hI : I s) (hK : Along step K s as) (hrun : run step s as = some t) :
    (∀ as' u, as' <+: as → run step s as' = some u → P u) ↔ Along step C s as := by
  induction as generalizing s with
  | nil =>
    refine ⟨fun _ => trivial, fun _ as' u hprefix hu => ?_⟩
    rw [List.prefix_nil.mp hprefix, run_nil, Option.some.injEq] at hu
    exact hu ▸ hP s hI
  | cons a as ih =>
    obtain ⟨s', hs', hrest⟩ := run_cons.mp hrun
    have htail := fun hC => ih (hstep s a s' hI hK.1 hC hs') (hK.2 s' hs') hrest
    rw [along_cons_of_some hs']
    constructor
    · intro h
      have hC := hbreak s a s' hI hK.1 hs'
        (h [a] s' ⟨as, rfl⟩ (run_cons.mpr ⟨s', hs', rfl⟩))
      refine ⟨hC, (htail hC).mp fun as' u hprefix hu => ?_⟩
      exact h (a :: as') u (List.cons_prefix_cons.mpr ⟨rfl, hprefix⟩)
        (run_cons.mpr ⟨s', hs', hu⟩)
    · intro hC as' u hprefix hu
      cases as' with
      | nil =>
        rw [run_nil, Option.some.injEq] at hu
        exact hu ▸ hP s hI
      | cons b as' =>
        obtain ⟨rfl, hrestprefix⟩ := List.cons_prefix_cons.mp hprefix
        obtain ⟨s₁, hs₁, hu⟩ := run_cons.mp hu
        rw [hs', Option.some.injEq] at hs₁
        subst hs₁
        exact (htail hC.1).mpr hC.2 as' u hrestprefix hu

/-- A quantity never falls between two states of a run exactly when no step lowers it. -/
theorem nondecreasing_iff_along {step : S → A → Option S} {f : S → ℕ} {s : S} {as : List A} :
    (∀ as₁ as₂ u v, as₁ <+: as₂ → as₂ <+: as → run step s as₁ = some u →
      run step s as₂ = some v → f u ≤ f v) ↔
      Along step (fun s a => ∀ s', step s a = some s' → f s ≤ f s') s as := by
  constructor
  · intro h
    induction as generalizing s with
    | nil => trivial
    | cons a as ih =>
      refine ⟨fun s' hs' => ?_, fun s' hs' => ih fun as₁ as₂ u v h₁ h₂ hu hv => ?_⟩
      · have hone : run step s [a] = some s' := run_cons.mpr ⟨s', hs', rfl⟩
        exact h [] [a] s s' List.nil_prefix ⟨as, rfl⟩ rfl hone
      · exact h (a :: as₁) (a :: as₂) u v (List.cons_prefix_cons.mpr ⟨rfl, h₁⟩)
          (List.cons_prefix_cons.mpr ⟨rfl, h₂⟩) (run_cons.mpr ⟨s', hs', hu⟩)
          (run_cons.mpr ⟨s', hs', hv⟩)
  · rintro h as₁ as₂ u v ⟨bs, rfl⟩ ⟨cs, rfl⟩ hu hv
    rw [run_append, hu, Option.bind_some] at hv
    rw [List.append_assoc, along_append hu] at h
    obtain ⟨hbs, -⟩ := (along_append hv).mp h.2
    refine run_induction (I := fun t => f u ≤ f t) (fun t a t' ht hle hstep => ?_) (Nat.le_refl _)
      hbs hv
    exact ht.trans (hle t' hstep)

/-- A step relation between two systems that every step keeps relates the end states of
runs over the same actions. -/
theorem run_simulation {T : Type*} {step : S → A → Option S} {step' : T → A → Option T}
    {C : S → A → Prop} {R : S → T → Prop}
    (hstep : ∀ s t a, R s t → C s a → ∃ s' t', step s a = some s' ∧ step' t a = some t' ∧ R s' t')
    {s : S} {t : T} {as : List A} (hR : R s t) (hC : Along step C s as) :
    ∃ s' t', run step s as = some s' ∧ run step' t as = some t' ∧ R s' t' := by
  induction as generalizing s t with
  | nil => exact ⟨s, t, rfl, rfl, hR⟩
  | cons a as ih =>
    obtain ⟨s₁, t₁, hs, ht, h₁⟩ := hstep s t a hR hC.1
    obtain ⟨s₂, t₂, hs', ht', h₂⟩ := ih h₁ (hC.2 s₁ hs)
    exact ⟨s₂, t₂, run_cons.mpr ⟨s₁, hs, hs'⟩, run_cons.mpr ⟨t₁, ht, ht'⟩, h₂⟩

/-- An infinite run in which every step makes something smaller, until it settles, settles. -/
theorem settles_of_measure {s : ℕ → S} {Q : S → Prop} {μ : S → ℕ}
    (hless : ∀ i, ¬ Q (s i) → μ (s (i + 1)) < μ (s i)) (hstay : ∀ i, Q (s i) → Q (s (i + 1))) :
    ∃ N ≤ μ (s 0), ∀ i, N ≤ i → Q (s i) := by
  have hreach : ∀ n i, μ (s i) = n → ∃ N, N ≤ i + n ∧ Q (s N) := by
    intro n
    induction n using Nat.strong_induction_on with
    | _ n ih =>
      intro i hi
      by_cases hQ : Q (s i)
      · exact ⟨i, by omega, hQ⟩
      · have hlt := hless i hQ
        obtain ⟨N, hN, hQN⟩ := ih (μ (s (i + 1))) (by omega) (i + 1) rfl
        exact ⟨N, by omega, hQN⟩
  obtain ⟨N, hN, hQN⟩ := hreach (μ (s 0)) 0 rfl
  refine ⟨N, by omega, fun i hi => ?_⟩
  induction i, hi using Nat.le_induction with
  | base => exact hQN
  | succ i _ ih => exact hstay i ih

end Transition

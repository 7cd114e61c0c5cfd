import Mathlib.Tactic

/-!
# Replays of a log

Copies that apply the entries of one log in order. The state of a copy is that of a position in
the log: it moves on with what is handed out there, and entries that change nothing make no
difference. A lookup in such a state gives what the last entry left that wrote the key.
-/

namespace Replay

variable {σ ε κ ν : Type*}

/-- The part of a log that follows a position takes the state of this position further. -/
theorem foldl_take_of_prefix {step : σ → ε → σ} {log es : List ε} {p : ℕ}
    (h : es <+: log.drop p) (s : σ) :
    es.foldl step ((log.take p).foldl step s) = (log.take (p + es.length)).foldl step s := by
  rw [List.take_add, ← List.prefix_iff_eq_take.mp h, List.foldl_append]

/-- Entries that change nothing. -/
theorem foldl_take_of_idle {step : σ → ε → σ} {log : List ε} {p q : ℕ} (hpq : p ≤ q)
    (hidle : ∀ (j : ℕ) (e : ε), p ≤ j → j < q → log[j]? = some e → ∀ s, step s e = s) (s : σ) :
    (log.take q).foldl step s = (log.take p).foldl step s := by
  induction q, hpq using Nat.le_induction with
  | base => rfl
  | succ q hpq ih =>
    have hold := ih fun j e hj hlt => hidle j e hj (hlt.trans (Nat.lt_succ_self q))
    rw [List.take_add_one, List.foldl_append, hold]
    cases he : log[q]? with
    | none => rfl
    | some e => exact hidle q e hpq (Nat.lt_succ_self q) he _

/-! ## Lookups -/

section
variable {step : σ → ε → σ} {get : σ → κ → Option ν} {written : κ → ε → Option (Option ν)}

/-- A lookup gives what the last entry left that wrote the key: there is one if there was any
at or before it. -/
theorem exists_last_write (hget : ∀ s e k, get (step s e) k = (written k e).getD (get s k))
    {log : List ε} {k : κ} {p j : ℕ} {e : ε} (hj : j < p) (he : log[j]? = some e)
    (hwrites : (written k e).isSome) (s : σ) :
    ∃ (i : ℕ) (w : ε), j ≤ i ∧ i < p ∧ log[i]? = some w ∧
      written k w = some (get ((log.take p).foldl step s) k) ∧
      ∀ (l : ℕ) (x : ε), i < l → l < p → log[l]? = some x → written k x = none := by
  induction p with
  | zero => exact absurd hj (Nat.not_lt_zero j)
  | succ p ih =>
    rw [List.take_add_one, List.foldl_append]
    -- whether the last entry wrote the key
    cases hp : log[p]? with
    | none =>
      have hjp : j < p := by
        refine Nat.lt_of_le_of_ne (Nat.le_of_lt_succ hj) fun h => ?_
        rw [h, hp] at he
        exact absurd he (by simp)
      obtain ⟨i, w, hji, hip, hw, hwritten, hlater⟩ := ih hjp
      refine ⟨i, w, hji, hip.trans (Nat.lt_succ_self p), hw, hwritten, fun l x hl hlp hx => ?_⟩
      rcases Nat.lt_or_eq_of_le (Nat.le_of_lt_succ hlp) with hlp | rfl
      · exact hlater l x hl hlp hx
      · exact absurd (hx.symm.trans hp) (by simp)
    | some x =>
      have hlast : get (List.foldl step ((log.take p).foldl step s) (some x).toList) k =
          (written k x).getD (get ((log.take p).foldl step s) k) := hget _ x k
      cases hx : written k x with
      | some v =>
        refine ⟨p, x, Nat.le_of_lt_succ hj, Nat.lt_succ_self p, hp, ?_, fun l y hl hlp => ?_⟩
        · rw [hlast, hx, Option.getD_some]
        · omega
      | none =>
        have hjp : j < p := by
          refine Nat.lt_of_le_of_ne (Nat.le_of_lt_succ hj) fun h => ?_
          rw [h, hp, Option.some.injEq] at he
          rw [← he, hx] at hwrites
          exact absurd hwrites (by simp)
        obtain ⟨i, w, hji, hip, hw, hwritten, hlater⟩ := ih hjp
        refine ⟨i, w, hji, hip.trans (Nat.lt_succ_self p), hw, ?_, fun l y hl hlp hy => ?_⟩
        · rw [hlast, hx, Option.getD_none, hwritten]
        · rcases Nat.lt_or_eq_of_le (Nat.le_of_lt_succ hlp) with hlp | rfl
          · exact hlater l y hl hlp hy
          · rw [← Option.some.inj (hp.symm.trans hy), hx]

/-- A key that no entry has written is as it was. -/
theorem get_of_unwritten (hget : ∀ s e k, get (step s e) k = (written k e).getD (get s k))
    {es : List ε} {k : κ} (h : ∀ e ∈ es, written k e = none) (s : σ) :
    get (es.foldl step s) k = get s k := by
  induction es generalizing s with
  | nil => rfl
  | cons e es ih =>
    rw [List.foldl_cons, ih fun x hx => h x (List.mem_cons_of_mem e hx), hget,
      h e List.mem_cons_self, Option.getD_none]

end

end Replay

import Mathlib.Tactic

/-!
# Queues with a log

A queue that is consumed from its front, next to a log of all that was put into it. The pair may
be dropped, and made anew by the next value; and the queue may be reloaded from a log. `taken` is
what was consumed since the pair was made or reloaded.

* `Balanced`: what was taken and what is queued make up the log. Every operation keeps it, and
  the next value of a balanced cell is the one behind those taken;
* `exists_stale`: a cell whose queue is the whole log, but from which something was taken, hands
  out values when none is due any more.
-/

namespace QueueLog

/-- A queue, its log, and what was taken out. -/
structure Cell (V : Type*) where
  queue : Option (List V) := none
  log : Option (List V) := none
  taken : List V := []

inductive Op (V : Type*) where
  | push (v : V)
  | pop
  | drop
  | reload (log : Option (List V))

namespace Cell

variable {V : Type*}

/-- The value a pop returns. -/
def next (c : Cell V) : Option V := c.queue.bind List.head?

/-- The value behind those taken. -/
def due (c : Cell V) : Option V := (c.log.getD [])[c.taken.length]?

/-- A value that finds no queue makes a new one, from which nothing was taken. -/
def apply (c : Cell V) : Op V → Cell V
  | .push v =>
    { queue := some (c.queue.getD [] ++ [v])
      log := some (c.log.getD [] ++ [v])
      taken := if c.queue.isNone then [] else c.taken }
  | .pop => { c with queue := c.queue.map List.tail, taken := c.taken ++ c.next.toList }
  | .drop => { c with queue := none, log := none }
  | .reload log => { queue := log, log, taken := [] }

/-- Nothing is lost or duplicated. -/
structure Balanced (c : Cell V) : Prop where
  same : c.queue.isSome = c.log.isSome
  account : ∀ q l, c.queue = some q → c.log = some l → c.taken ++ q = l

theorem balanced_of_none {c : Cell V} (hq : c.queue = none) (hl : c.log = none) : c.Balanced := by
  refine ⟨by rw [hq, hl], fun q l hq' => ?_⟩
  rw [hq] at hq'
  exact absurd hq' (by simp)

theorem balanced_reload (log : Option (List V)) (taken : List V) (h : log = none ∨ taken = []) :
    ({ queue := log, log, taken } : Cell V).Balanced := by
  refine ⟨rfl, fun q l hq hl => ?_⟩
  rcases h with rfl | rfl
  · exact absurd hq (by simp)
  · simp only at hq hl
    rw [List.nil_append]
    exact Option.some.inj (hq.symm.trans hl)

theorem Balanced.apply {c : Cell V} (h : c.Balanced) (op : Op V) : (c.apply op).Balanced := by
  cases op with
  | push v =>
    refine ⟨rfl, fun q l hq hl => ?_⟩
    obtain rfl := Option.some.inj hq
    obtain rfl := Option.some.inj hl
    have hsame := h.same
    -- queue and log begin together or grow together
    cases hcq : c.queue with
    | none =>
      rw [hcq] at hsame
      simp [Cell.apply, hcq, Option.isNone_iff_eq_none.mp (by simpa using hsame.symm)]
    | some q =>
      rw [hcq] at hsame
      obtain ⟨l, hcl⟩ := Option.isSome_iff_exists.mp hsame.symm
      have haccount := h.account q l hcq hcl
      simp [Cell.apply, hcq, hcl, ← haccount]
  | pop =>
    refine ⟨?_, fun q l hq hl => ?_⟩
    · simp only [Cell.apply, Option.isSome_map]
      exact h.same
    · obtain ⟨q', hcq, rfl⟩ := Option.map_eq_some_iff.mp hq
      have haccount := h.account q' l hcq hl
      cases q' with
      | nil => simpa [Cell.apply, next, hcq] using haccount
      | cons v q' => simpa [Cell.apply, next, hcq] using haccount
  | drop => exact balanced_of_none rfl rfl
  | reload log => exact balanced_reload log [] (Or.inr rfl)

theorem Balanced.foldl {c : Cell V} (h : c.Balanced) (ops : List (Op V)) :
    (ops.foldl Cell.apply c).Balanced := by
  induction ops generalizing c with
  | nil => exact h
  | cons op ops ih => exact ih (h.apply op)

/-- A balanced cell returns what is due. -/
theorem Balanced.next_eq {c : Cell V} (h : c.Balanced) : c.next = c.due := by
  unfold next due
  have hsame := h.same
  cases hq : c.queue with
  | none =>
    rw [hq] at hsame
    rw [Option.isNone_iff_eq_none.mp (by simpa using hsame.symm : c.log.isNone)]
    rfl
  | some q =>
    rw [hq] at hsame
    obtain ⟨l, hl⟩ := Option.isSome_iff_exists.mp hsame.symm
    rw [hl, Option.getD_some, ← h.account q l hq hl, List.getElem?_append_right (Nat.le_refl _),
      Nat.sub_self, Option.bind_some, List.head?_eq_getElem?]

/-- Pops take the values one after the other. -/
theorem foldl_pop {c : Cell V} {q l : List V} (hq : c.queue = some q) (hl : c.log = some l) (j : ℕ) :
    (List.replicate j Op.pop).foldl Cell.apply c =
      { queue := some (q.drop j), log := some l, taken := c.taken ++ q.take j } := by
  induction j with
  | zero =>
    obtain ⟨queue, log, taken⟩ := c
    obtain rfl : queue = some q := hq
    obtain rfl : log = some l := hl
    simp
  | succ j ih =>
    rw [List.replicate_succ', List.foldl_append, ih]
    simp only [List.foldl_cons, List.foldl_nil, Cell.apply, next, Option.bind_some,
      Option.map_some, List.head?_drop, List.tail_drop, List.append_assoc]
    rw [List.take_add_one]

/-- Where something was taken out of a queue that is now the whole log, its last values are
handed out when none is due any more. -/
theorem exists_stale {l : List V} {taken : List V} (htaken : taken ≠ []) (v : V) :
    ∃ j, ((List.replicate j Op.pop).foldl Cell.apply
        (({ queue := some l, log := some l, taken } : Cell V).apply (.push v))).next ≠
      ((List.replicate j Op.pop).foldl Cell.apply
        (({ queue := some l, log := some l, taken } : Cell V).apply (.push v))).due := by
  have hpos : 0 < taken.length := List.length_pos_iff.mpr htaken
  refine ⟨(l ++ [v]).length - taken.length, ?_⟩
  rw [foldl_pop (q := l ++ [v]) (l := l ++ [v]) rfl rfl]
  have hlen : (l ++ [v]).length = l.length + 1 := by simp
  -- after these pops the queue has values left, but the log has none behind those taken
  have hsome : ((l ++ [v])[(l ++ [v]).length - taken.length]?).isSome := by
    rw [List.getElem?_eq_getElem (by omega)]
    rfl
  have hnone : (l ++ [v])[(taken ++ (l ++ [v]).take ((l ++ [v]).length - taken.length)).length]? =
      none := by
    rw [List.getElem?_eq_none_iff]
    simp only [List.length_append, List.length_take, List.length_singleton]
    omega
  have htaken' : (({ queue := some l, log := some l, taken } : Cell V).apply (.push v)).taken =
      taken := rfl
  simp only [next, due, htaken', Option.bind_some, List.head?_drop, Option.getD_some]
  rw [hnone]
  exact Option.isSome_iff_ne_none.mp hsome

end Cell

end QueueLog

import Mathlib.Tactic

/-!
# Switches

A yes-no fact that a list of events turns on, turns off or leaves alone. `replay` is the
fact after the events; it forgets where it started as soon as one event decides it.

A switch that is only ever told to go off while it is off already is `Steady`: once on, it
stays on.
-/

/-- What an event does to the fact. -/
inductive Switch where
  | on
  | off
  | keep
deriving DecidableEq, Repr

namespace Switch

def act : Switch → Bool → Bool
  | on, _ => true
  | off, _ => false
  | keep, b => b

@[simp] theorem act_on (b : Bool) : on.act b = true := rfl

@[simp] theorem act_off (b : Bool) : off.act b = false := rfl

@[simp] theorem act_keep (b : Bool) : keep.act b = b := rfl

/-- The fact after a list of events. -/
def replay (b : Bool) (events : List Switch) : Bool := events.foldl (fun b e => e.act b) b

@[simp] theorem replay_nil (b : Bool) : replay b [] = b := rfl

@[simp] theorem replay_cons (b : Bool) (e : Switch) (events : List Switch) :
    replay b (e :: events) = replay (e.act b) events := rfl

theorem replay_append (b : Bool) (events events' : List Switch) :
    replay b (events ++ events') = replay (replay b events) events' := List.foldl_append

/-- One deciding event makes the start irrelevant. -/
theorem replay_of_mem_off {events : List Switch} (h : off ∈ events) (b b' : Bool) :
    replay b events = replay b' events := by
  induction events generalizing b b' with
  | nil => exact absurd h (by simp)
  | cons e events ih =>
    rw [replay_cons, replay_cons]
    rcases List.mem_cons.mp h with rfl | h
    · rfl
    · exact ih h _ _

/-- Every event that turns the switch off finds it off. -/
def Steady (b : Bool) : List Switch → Prop
  | [] => True
  | e :: events => (e = off → b = false) ∧ Steady (e.act b) events

theorem steady_append {b : Bool} {events events' : List Switch} :
    Steady b (events ++ events') ↔ Steady b events ∧ Steady (replay b events) events' := by
  induction events generalizing b with
  | nil => simp [Steady]
  | cons e events ih =>
    rw [List.cons_append, Steady, Steady, ih, replay_cons, and_assoc]

/-- From on, a steady switch is never told to go off. -/
theorem Steady.off_notMem {events : List Switch} (h : Steady true events) : off ∉ events := by
  induction events with
  | nil => simp
  | cons e events ih =>
    cases e with
    | on => simpa using ih h.2
    | off => exact absurd (h.1 rfl) (by simp)
    | keep => simpa using ih h.2

end Switch

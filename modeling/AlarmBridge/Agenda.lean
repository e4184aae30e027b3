/-! Things that are due at given times, in order of time and, at one time, of planning. -/

set_option autoImplicit false

namespace AlarmBridge

/-- A task and the time in milliseconds at which it is due. -/
structure Due (τ : Type) where
  time : Nat
  task : τ
deriving Repr, DecidableEq, Inhabited

/-- What is due, the earliest first. -/
abbrev Agenda (τ : Type) := List (Due τ)

namespace Agenda

variable {τ : Type}

/-- An agenda with a task more, after those due no later. -/
def plan (time : Nat) (task : τ) : Agenda τ → Agenda τ
  | [] => [⟨time, task⟩]
  | d :: ds => if d.time ≤ time then d :: plan time task ds else ⟨time, task⟩ :: d :: ds

def dueBy (a : Agenda τ) (time : Nat) : List (Due τ) := a.takeWhile (·.time ≤ time)

def after (a : Agenda τ) (time : Nat) : Agenda τ := a.dropWhile (·.time ≤ time)

theorem dueBy_append_after (a : Agenda τ) (time : Nat) : a.dueBy time ++ a.after time = a :=
  List.takeWhile_append_dropWhile

end Agenda

end AlarmBridge

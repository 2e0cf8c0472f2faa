import Mathlib.Tactic.Common

/-!
# The two ends of a connection
-/

/-- The controlling end opens the connection, the controlled end accepts it. -/
inductive Side
  | controlling
  | controlled
deriving DecidableEq

namespace Side

def other : Side → Side
  | .controlling => .controlled
  | .controlled => .controlling

@[simp] theorem other_other (d : Side) : d.other.other = d := by cases d <;> rfl

@[simp] theorem other_ne (d : Side) : d.other ≠ d := by cases d <;> decide

@[simp] theorem ne_other (d : Side) : d ≠ d.other := by cases d <;> decide

theorem eq_or_eq_other (d d' : Side) : d' = d ∨ d' = d.other := by
  cases d <;> cases d' <;> simp [other]

end Side

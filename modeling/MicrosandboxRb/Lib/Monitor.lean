import Mathlib.Data.Nat.Basic

/-!
# Re-entrant monitors

A monitor is free, or it has been entered by one party, once or several times. The party can enter
it again; any other party has to wait until it has left as often as it has entered.

## Main results

* `depth_of_enter`, `depth_of_leave`: only the party that moves changes how often it is inside;
* `eq_of_depth_pos`: at most one party is inside;
* `exists_enter_iff`, `exists_leave_iff`: when a party can enter, and leave.
-/

/-- A re-entrant lock of the parties of a type. -/
inductive Monitor (ι : Type*) where
  | free
  /-- Entered once, and then again that many times. -/
  | held (owner : ι) (again : ℕ)
deriving DecidableEq

namespace Monitor

variable {ι : Type*} [DecidableEq ι]

/-- Enter, if the monitor is free or held by the same thread. -/
def enter : Monitor ι → ι → Option (Monitor ι)
  | .free, i => some (.held i 0)
  | .held owner again, i => if i = owner then some (.held owner (again + 1)) else none

/-- Leave once, as the thread that holds the monitor. -/
def leave : Monitor ι → ι → Option (Monitor ι)
  | .free, _ => none
  | .held owner 0, i => if i = owner then some .free else none
  | .held owner (again + 1), i => if i = owner then some (.held owner again) else none

/-- How often a party is inside. -/
def depth : Monitor ι → ι → ℕ
  | .free, _ => 0
  | .held owner again, i => if i = owner then again + 1 else 0

@[simp] theorem depth_free (i : ι) : (free : Monitor ι).depth i = 0 := rfl

/-- Only the thread that holds the monitor is inside. -/
@[simp] theorem depth_held_pos {owner i : ι} {again : ℕ} :
    0 < (held owner again).depth i ↔ i = owner := by
  by_cases hi : i = owner <;> simp [depth, hi]

variable {m m' : Monitor ι} {i j : ι}

/-- At most one party is inside. -/
theorem eq_of_depth_pos (hi : 0 < m.depth i) (hj : 0 < m.depth j) : i = j := by
  cases m with
  | free => cases hi
  | held owner again =>
    rw [depth_held_pos] at hi hj
    rw [hi, hj]

/-- An entry counts for the thread that makes it. -/
theorem depth_of_enter (h : m.enter i = some m') :
    m'.depth i = m.depth i + 1 ∧ ∀ j, j ≠ i → m'.depth j = m.depth j := by
  cases m with
  | free =>
    cases h
    exact ⟨by simp [depth], fun j hne => by simp [depth, hne]⟩
  | held owner again =>
    obtain ⟨rfl, hm⟩ := Option.ite_none_right_eq_some.mp h
    cases hm
    exact ⟨by simp [depth], fun j hne => by simp [depth, hne]⟩

/-- So does a leave. -/
theorem depth_of_leave (h : m.leave i = some m') :
    m'.depth i + 1 = m.depth i ∧ ∀ j, j ≠ i → m'.depth j = m.depth j := by
  cases m with
  | free => cases h
  | held owner again =>
    cases again with
    | zero =>
      obtain ⟨rfl, hm⟩ := Option.ite_none_right_eq_some.mp h
      cases hm
      exact ⟨by simp [depth], fun j hne => by simp [depth, hne]⟩
    | succ again =>
      obtain ⟨rfl, hm⟩ := Option.ite_none_right_eq_some.mp h
      cases hm
      exact ⟨by simp [depth], fun j hne => by simp [depth, hne]⟩

/-- A party can enter when no other party is inside. -/
theorem exists_enter_iff : (∃ m', m.enter i = some m') ↔ ∀ j, 0 < m.depth j → j = i := by
  cases m with
  | free => simp [enter]
  | held owner again =>
    by_cases hi : i = owner
    · simp [enter, hi]
    · simp [enter, hi, Ne.symm hi]

/-- A party can leave when it is inside. -/
theorem exists_leave_iff : (∃ m', m.leave i = some m') ↔ 0 < m.depth i := by
  cases m with
  | free => simp [leave]
  | held owner again =>
    cases again <;> simp [leave]

end Monitor

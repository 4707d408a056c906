import Mathlib.Data.List.Basic
import Mathlib.Algebra.Ring.Int.Defs
import Mathlib.Algebra.Ring.Nat

/-! Elements looked at in order, with the verdict on each. -/
namespace Paging

variable {α : Type}

/-- The elements whose verdict is true. -/
def accepted (xs : List α) (vs : List Bool) : List α := ((xs.zip vs).filter Prod.snd).map Prod.fst

@[simp] theorem accepted_nil (vs : List Bool) : accepted ([] : List α) vs = [] := rfl

@[simp] theorem accepted_cons_true (x : α) (xs : List α) (vs : List Bool) :
    accepted (x :: xs) (true :: vs) = x :: accepted xs vs := rfl

@[simp] theorem accepted_cons_false (x : α) (xs : List α) (vs : List Bool) :
    accepted (x :: xs) (false :: vs) = accepted xs vs := rfl

theorem accepted_append {xs ys : List α} {vs ws : List Bool} (h : xs.length = vs.length) :
    accepted (xs ++ ys) (vs ++ ws) = accepted xs vs ++ accepted ys ws := by
  simp [accepted, List.zip_append h]

theorem length_accepted {xs : List α} {vs : List Bool} (h : xs.length = vs.length) :
    (accepted xs vs).length = vs.count true := by
  induction xs generalizing vs with
  | nil =>
    rw [List.eq_nil_of_length_eq_zero h.symm]
    rfl
  | cons x xs ih =>
    cases vs with
    | nil => cases h
    | cons v vs =>
      have htail := ih (by simpa using h)
      cases v <;> simp [htail]

/-- Verdicts on elements that were not looked at change nothing, once the limit is reached. -/
theorem take_accepted_append {xs ys : List α} {vs ws : List Bool} {limit : ℕ}
    (hlen : xs.length = vs.length) (hle : (accepted xs vs).length ≤ limit)
    (hrest : (accepted xs vs).length < limit → ys = []) :
    (accepted (xs ++ ys) (vs ++ ws)).take (min limit (accepted (xs ++ ys) (vs ++ ws)).length) =
      accepted xs vs := by
  rw [accepted_append hlen]
  rcases Nat.lt_or_eq_of_le hle with hlt | heq
  · rw [hrest hlt, accepted_nil, List.append_nil, min_eq_right hle, List.take_length]
  · rw [List.length_append, ← heq, min_eq_left (Nat.le_add_right _ _), List.take_left]

end Paging

import Mathlib.Data.List.Basic
import Mathlib.Algebra.Ring.Int.Defs
import Mathlib.Algebra.Ring.Nat

/-! Go slices: a window of a backing array, into which `append` writes while there is room. -/
namespace Golang

/-- The window `[start, start + len)` of an array; the rest of the array is spare capacity. -/
structure Slice (α : Type) where
  array : List α
  start : Nat
  len : Nat
  bound : start + len ≤ array.length

namespace Slice

variable {α : Type} (s : Slice α)

def toList : List α := (s.array.drop s.start).take s.len

/-- A slice of all of its array. -/
def ofList (xs : List α) : Slice α := ⟨xs, 0, xs.length, by simp⟩

/-- `s[:j]`. -/
def upTo (j : Nat) (h : j ≤ s.len) : Slice α :=
  ⟨s.array, s.start, j, by have := s.bound; omega⟩

/-- `s[i:]`. -/
def since (i : Nat) (h : i ≤ s.len) : Slice α :=
  ⟨s.array, s.start + i, s.len - i, by have := s.bound; omega⟩

/-- The values written over the array from a position on. -/
def overwrite (array : List α) (pos : Nat) (vals : List α) : List α :=
  array.take pos ++ (vals ++ array.drop (pos + vals.length))

theorem length_overwrite {array vals : List α} {pos : Nat} (h : pos + vals.length ≤ array.length) :
    (overwrite array pos vals).length = array.length := by
  simp only [overwrite, List.length_append, List.length_take, List.length_drop]
  omega

/-- `append(s, vals...)`: into the array of `s` if the values fit, else into a new one. The values
are moved as by `memmove`, so they are the ones from before the call even if they lie in `s`. -/
def append (vals : List α) : Slice α :=
  if h : s.start + s.len + vals.length ≤ s.array.length then
    ⟨overwrite s.array (s.start + s.len) vals, s.start, s.len + vals.length, by
      rw [length_overwrite h]
      omega⟩
  else ofList (s.toList ++ vals)

variable {s}

@[simp] theorem toList_ofList (xs : List α) : (ofList xs).toList = xs := by
  simp [toList, ofList]

@[simp] theorem length_toList : s.toList.length = s.len := by
  have := s.bound
  simp only [toList, List.length_take, List.length_drop]
  omega

theorem toList_upTo {j : Nat} (h : j ≤ s.len) : (s.upTo j h).toList = s.toList.take j := by
  simp [toList, upTo, List.take_take, Nat.min_eq_left h]

theorem toList_since {i : Nat} (h : i ≤ s.len) : (s.since i h).toList = s.toList.drop i := by
  simp only [toList, since, List.drop_take, List.drop_drop]

/-- Appending is appending, wherever the values are written. -/
theorem toList_append (vals : List α) : (s.append vals).toList = s.toList ++ vals := by
  have hbound := s.bound
  unfold append
  split
  · rename_i hfits
    have hlen : (s.array.take (s.start + s.len)).length = s.start + s.len := by
      rw [List.length_take]
      omega
    have hdrop : (s.array.drop s.start).length = s.array.length - s.start := List.length_drop
    have hwindow : ((s.array.drop s.start).take s.len ++ vals).length = s.len + vals.length := by
      rw [List.length_append, List.length_take, hdrop, Nat.min_eq_left (by omega)]
    simp only [toList, overwrite]
    rw [List.drop_append_of_le_length (by omega), ← List.append_assoc, List.drop_take,
      Nat.add_sub_cancel_left, List.take_append_of_le_length (Nat.le_of_eq hwindow.symm),
      List.take_of_length_le (Nat.le_of_eq hwindow)]
  · exact toList_ofList _

end Slice

end Golang

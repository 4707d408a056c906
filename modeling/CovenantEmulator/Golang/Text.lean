import Mathlib.Data.List.Infix
import Mathlib.Algebra.Ring.Int.Defs
import Mathlib.Algebra.Ring.Nat

/-! Error texts: `strings.Contains`, `errors.Join`, `strconv.Atoi`. -/
namespace Golang

/-- `strings.Contains(s, substr)`. -/
def contains (s substr : String) : Bool := decide (substr.toList <:+: s.toList)

/-- The text of `errors.Join(err, e)`, where `none` is the nil error. -/
def joinErrors (err : Option String) (e : String) : String :=
  match err with
  | some err => err ++ "\n" ++ e
  | none => e

/-- The value of a run of decimal digits. -/
def decimal (digits : List Char) : Nat :=
  digits.foldl (fun n c => 10 * n + (c.toNat - '0'.toNat)) 0

/-- `strconv.Atoi` on a run of digits: out of range above the largest `int`. -/
def atoi (digits : List Char) : Option Nat :=
  if decimal digits ≤ 2 ^ 63 - 1 then some (decimal digits) else none

/-- A text without `c` inside `a c b` is inside one of the two parts. -/
theorem infix_append_cons {α : Type} {l a b : List α} {c : α} (hc : c ∉ l) :
    l <:+: a ++ c :: b ↔ l <:+: a ∨ l <:+: b := by
  rw [List.infix_append_iff]
  constructor
  · rintro (h | h | ⟨p, q, rfl, hp, hq⟩)
    · exact Or.inl h
    · rcases List.infix_cons_iff.mp h with hpre | h
      · cases l with
        | nil => exact Or.inl (List.nil_infix)
        | cons x l =>
          obtain ⟨rfl, -⟩ := List.cons_prefix_cons.mp hpre
          exact (hc (List.mem_cons_self)).elim
      · exact Or.inr h
    · cases q with
      | nil => exact Or.inl (by simpa using hp.isInfix)
      | cons x q =>
        obtain ⟨rfl, -⟩ := List.cons_prefix_cons.mp hq
        exact (hc (by simp)).elim
  · rintro (h | h)
    · exact Or.inl h
    · exact Or.inr (Or.inl (h.trans (List.suffix_cons c b).isInfix))

/-- Joining errors adds no occurrence of a text of one line. -/
theorem contains_joinErrors {substr : String} (hline : '\n' ∉ substr.toList)
    (err : Option String) (e : String) :
    contains (joinErrors err e) substr =
      ((err.map fun err => contains err substr).getD false || contains e substr) := by
  cases err with
  | none => simp [joinErrors]
  | some err =>
    have hcons : (err ++ "\n" ++ e).toList = err.toList ++ '\n' :: e.toList := by
      simp [String.toList_append]
    simp [contains, joinErrors, hcons, infix_append_cons hline]

end Golang

import CovenantEmulator.Golang.Relate

/-! Retried calls: what a function that repeats a call is assumed to do. -/
namespace Golang

/-- A function that calls `f` up to a number of times: it returns the first success, or the error
of the last attempt. -/
structure Retry (σ α : Type) where
  run : ℕ → Go σ α → Go σ α
  once : ∀ f, run 1 f = f
  again : ∀ n f, run (n + 2) f = Go.attempt f >>= fun res =>
    match res with
    | .ok a => pure a
    | .error _ => run (n + 1) f

namespace Retry

variable {σ τ α β : Type}

/-- The attempts that are left after the first. -/
def loopFrom (f : Go σ α) : ℕ → Go σ α
  | 0 => f
  | n + 1 => Go.attempt f >>= fun res =>
    match res with
    | .ok a => pure a
    | .error _ => loopFrom f n

/-- A loop does it. -/
def loop : Retry σ α where
  run n f := loopFrom f (n - 1)
  once _ := rfl
  again _ _ := rfl

/-- The first attempt may be the only one. -/
theorem run_of_ok (retry : Retry σ α) {f : Go σ α} {s s' : σ} {a : α} (h : f s = (.ok a, s'))
    (n : ℕ) : retry.run (n + 1) f s = (.ok a, s') := by
  cases n with
  | zero => rw [zero_add, retry.once, h]
  | succ n =>
    have hfirst : Go.attempt f s = (.ok (.ok a), s') := by
      rw [Go.attempt_apply, h]
      rfl
    rw [retry.again, Go.bind_of_ok hfirst]
    rfl

/-- What each attempt does from any state, and what composes, the whole does. -/
theorem triple (retry : Retry σ α) {f : Go σ α} {R : σ → σ → Prop}
    (htrans : ∀ {a b c}, R a b → R b c → R a c)
    (hf : ∀ s, Triple f s (fun _ s' => R s s') (fun s' => R s s')) (n : ℕ) (s : σ) :
    Triple (retry.run (n + 1) f) s (fun _ s' => R s s') (fun s' => R s s') := by
  induction n generalizing s with
  | zero => exact (retry.once f).symm ▸ hf s
  | succ n ih =>
    rw [retry.again]
    refine Triple.bind (Triple.attempt (R := fun _ s' => R s s') (hf s) (fun _ h _ => h)) ?_
    intro res s' h
    cases res with
    | ok a => exact h
    | error e => exact (ih s').mono (fun _ _ h' => htrans h h') (fun _ h' => htrans h h')

theorem not_panics (retry : Retry σ α) {f : Go σ α} (hf : ∀ s, ¬ (f s).1.Panics) (n : ℕ) (s : σ) :
    ¬ (retry.run (n + 1) f s).1.Panics := by
  induction n generalizing s with
  | zero => exact (retry.once f).symm ▸ hf s
  | succ n ih =>
    rw [retry.again, Go.bind_panics, Go.attempt_panics]
    rintro (h | ⟨res, s₁, -, h⟩)
    · exact hf s h
    · cases res with
      | ok a => exact h
      | error e => exact ih s₁ h

/-- Two retried calls end alike when each attempt does, from any related states. -/
theorem relates (retry : Retry σ α) (retry' : Retry τ β) {f : Go σ α} {g : Go τ β}
    {I : σ → τ → Prop} {Q : α → σ → β → τ → Prop} (h : ∀ s t, I s t → Relates f g s t Q I) (n : ℕ)
    {s : σ} {t : τ} (hI : I s t) :
    Relates (retry.run (n + 1) f) (retry'.run (n + 1) g) s t Q I := by
  induction n generalizing s t with
  | zero =>
    rw [zero_add, retry.once, retry'.once]
    exact h s t hI
  | succ n ih =>
    rw [retry.again, retry'.again]
    refine Relates.bind (h s t hI).attempt ?_
    intro r s' r' t' hr
    cases hr with
    | ok hQ => exact .ok hQ
    | error hI' => exact ih hI'

end Retry

end Golang

import CovenantEmulator.Golang.Outcome

/-! Two Go calls side by side: they end alike, in related states. -/
namespace Golang

/-- Both calls returned values in `Q`, or both failed in the same way in states in `F`. -/
inductive Alike {σ τ α β : Type} (Q : α → σ → β → τ → Prop) (F : σ → τ → Prop) :
    Outcome α × σ → Outcome β × τ → Prop
  | ok {a s b t} (h : Q a s b t) : Alike Q F (.ok a, s) (.ok b, t)
  | error {e s t} (h : F s t) : Alike Q F (.error e, s) (.error e, t)
  | panic {p s t} (h : F s t) : Alike Q F (.panic p, s) (.panic p, t)
  | diverged {s t} (h : F s t) : Alike Q F (.diverged, s) (.diverged, t)

/-- The errors of two calls as values. -/
inductive Attempted {σ τ α β : Type} (Q : α → σ → β → τ → Prop) (F : σ → τ → Prop) :
    Except String α → σ → Except String β → τ → Prop
  | ok {a s b t} (h : Q a s b t) : Attempted Q F (.ok a) s (.ok b) t
  | error {e s t} (h : F s t) : Attempted Q F (.error e) s (.error e) t

/-- From `s` and `t` the two calls end alike. -/
def Relates {σ τ α β : Type} (m : Go σ α) (n : Go τ β) (s : σ) (t : τ)
    (Q : α → σ → β → τ → Prop) (F : σ → τ → Prop) : Prop :=
  Alike Q F (m s) (n t)

namespace Relates

variable {σ τ α β α' β' : Type} {m : Go σ α} {n : Go τ β} {s : σ} {t : τ}
  {Q Q' : α → σ → β → τ → Prop} {F F' : σ → τ → Prop}

theorem mono (h : Relates m n s t Q F) (hQ : ∀ a s' b t', Q a s' b t' → Q' a s' b t')
    (hF : ∀ s' t', F s' t' → F' s' t') : Relates m n s t Q' F' := by
  unfold Relates at h ⊢
  generalize m s = r, n t = r' at h ⊢
  cases h with
  | ok h => exact .ok (hQ _ _ _ _ h)
  | error h => exact .error (hF _ _ h)
  | panic h => exact .panic (hF _ _ h)
  | diverged h => exact .diverged (hF _ _ h)

theorem pure {a : α} {b : β} (h : Q a s b t) :
    Relates (Pure.pure a : Go σ α) (Pure.pure b : Go τ β) s t Q F := .ok h

theorem fail {e : String} (h : F s t) :
    Relates (Go.fail e : Go σ α) (Go.fail e : Go τ β) s t Q F := .error h

/-- The same computation on both sides, away from the state. -/
theorem lift {o : Outcome α} {Q : α → σ → α → τ → Prop} (hQ : ∀ a, o = .ok a → Q a s a t)
    (hF : F s t) : Relates (Go.lift o : Go σ α) (Go.lift o : Go τ α) s t Q F := by
  cases o with
  | ok a => exact .ok (hQ a rfl)
  | error e => exact .error hF
  | panic p => exact .panic hF
  | diverged => exact .diverged hF

theorem bind {f : α → Go σ α'} {g : β → Go τ β'} {R : α' → σ → β' → τ → Prop}
    (h : Relates m n s t Q F)
    (hf : ∀ a s' b t', Q a s' b t' → Relates (f a) (g b) s' t' R F) :
    Relates (m >>= f) (n >>= g) s t R F := by
  unfold Relates at h ⊢
  rw [Go.bind_apply, Go.bind_apply]
  generalize m s = r, n t = r' at h ⊢
  cases h with
  | ok h => exact hf _ _ _ _ h
  | error h => exact .error h
  | panic h => exact .panic h
  | diverged h => exact .diverged h

/-- An error on both sides becomes the same value. -/
theorem attempt (h : Relates m n s t Q F) :
    Relates (Go.attempt m) (Go.attempt n) s t (Attempted Q F) F := by
  unfold Relates at h ⊢
  rw [Go.attempt_apply, Go.attempt_apply]
  generalize m s = r, n t = r' at h ⊢
  cases h with
  | ok h => exact .ok (.ok h)
  | error h => exact .ok (.error h)
  | panic h => exact .panic h
  | diverged h => exact .diverged h

theorem wrap {g : String → String} (h : Relates m n s t Q F) :
    Relates (Go.wrap g m) (Go.wrap g n) s t Q F := by
  unfold Relates at h ⊢
  unfold Go.wrap
  generalize m s = r, n t = r' at h ⊢
  cases h with
  | ok h => exact .ok h
  | error h => exact .error h
  | panic h => exact .panic h
  | diverged h => exact .diverged h

theorem modify {f : σ → σ} {g : τ → τ} {Q : Unit → σ → Unit → τ → Prop}
    (h : Q () (f s) () (g t)) : Relates (Go.modify f) (Go.modify g) s t Q F := .ok h

/-- Calls on one component of each side. -/
theorem zoom {υ ω : Type} {get : υ → σ} {put : υ → σ → υ} {get' : ω → τ} {put' : ω → τ → ω}
    {u : υ} {v : ω} {R : α → υ → β → ω → Prop} {G : υ → ω → Prop}
    (h : Relates m n (get u) (get' v) Q F)
    (hQ : ∀ a s' b t', Q a s' b t' → R a (put u s') b (put' v t'))
    (hF : ∀ s' t', F s' t' → G (put u s') (put' v t')) :
    Relates (Go.zoom get put m) (Go.zoom get' put' n) u v R G := by
  unfold Relates at h ⊢
  rw [Go.zoom_apply, Go.zoom_apply]
  generalize m (get u) = r, n (get' v) = r' at h ⊢
  cases h with
  | ok h => exact .ok (hQ _ _ _ _ h)
  | error h => exact .error (hF _ _ h)
  | panic h => exact .panic (hF _ _ h)
  | diverged h => exact .diverged (hF _ _ h)

theorem of_outcome_eq {m : Go σ α} {n : Go τ α} (h : (m s).1 = (n t).1) :
    Relates m n s t (fun a _ b _ => a = b) fun _ _ => True := by
  unfold Relates
  rcases hm : m s with ⟨a | e | p | _, s'⟩ <;> rcases hn : n t with ⟨b | e' | p' | _, t'⟩ <;>
    rw [hm, hn] at h <;> cases h
  · exact .ok rfl
  · exact .error trivial
  · exact .panic trivial
  · exact .diverged trivial

/-- What holds of the states however the calls end. -/
theorem final {R : σ → τ → Prop} (h : Relates m n s t Q F)
    (hQ : ∀ a s' b t', Q a s' b t' → R s' t') (hF : ∀ s' t', F s' t' → R s' t') :
    R (m s).2 (n t).2 := by
  unfold Relates at h
  generalize m s = r, n t = r' at h ⊢
  cases h with
  | ok h => exact hQ _ _ _ _ h
  | error h => exact hF _ _ h
  | panic h => exact hF _ _ h
  | diverged h => exact hF _ _ h

/-- When the right call returns, so does the left one, with a related value. -/
theorem of_right_ok {b : β} {t' : τ} (h : Relates m n s t Q F) (hn : n t = (.ok b, t')) :
    ∃ a s', m s = (.ok a, s') ∧ Q a s' b t' := by
  unfold Relates at h
  rw [hn] at h
  generalize m s = r at h ⊢
  cases h with
  | ok h => exact ⟨_, _, rfl, h⟩

/-- What both sides return is the same when related values are equal. -/
theorem outcome_eq {m : Go σ α} {n : Go τ α}
    (h : Relates m n s t (fun a _ b _ => a = b) F) : (m s).1 = (n t).1 := by
  unfold Relates at h
  generalize m s = r, n t = r' at h ⊢
  cases h with
  | ok h => exact congrArg Outcome.ok h
  | error h => rfl
  | panic h => rfl
  | diverged h => rfl

end Relates

end Golang

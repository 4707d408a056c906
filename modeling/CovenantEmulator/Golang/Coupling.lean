import CovenantEmulator.Golang.Relate

/-! Two Go calls over related states: with the same answers, with the same answers but for the texts
of their errors, and as long as the second call stays in bounds. -/
namespace Golang

/-- From related states both calls return the same value or fail in the same way, and leave related
states. -/
def Coupled {σ τ α : Type} (R : σ → τ → Prop) (m : Go σ α) (n : Go τ α) : Prop :=
  ∀ s t, R s t → Relates m n s t (fun a s' b t' => a = b ∧ R s' t') R

namespace Coupled

variable {σ τ α β : Type} {R : σ → τ → Prop} {m : Go σ α} {n : Go τ α}

theorem pure (a : α) : Coupled R (Pure.pure a : Go σ α) (Pure.pure a : Go τ α) :=
  fun _ _ h => .pure ⟨rfl, h⟩

theorem fail (e : String) : Coupled R (Go.fail e : Go σ α) (Go.fail e : Go τ α) :=
  fun _ _ h => .fail h

theorem lift (o : Outcome α) : Coupled R (Go.lift o : Go σ α) (Go.lift o : Go τ α) :=
  fun _ _ h => .lift (fun _ _ => ⟨rfl, h⟩) h

theorem bind {f : α → Go σ β} {g : α → Go τ β} (h : Coupled R m n)
    (hf : ∀ a, Coupled R (f a) (g a)) : Coupled R (m >>= f) (n >>= g) := by
  intro s t hR
  refine Relates.bind (h s t hR) ?_
  rintro a s' _ t' ⟨rfl, hR'⟩
  exact hf a s' t' hR'

theorem wrap {g : String → String} (h : Coupled R m n) :
    Coupled R (Go.wrap g m) (Go.wrap g n) :=
  fun s t hR => (h s t hR).wrap

theorem attempt (h : Coupled R m n) : Coupled R (Go.attempt m) (Go.attempt n) := by
  intro s t hR
  refine (h s t hR).attempt.mono ?_ fun _ _ h => h
  intro a s' b t' hab
  cases hab with
  | ok h => exact ⟨by rw [h.1], h.2⟩
  | error h => exact ⟨rfl, h⟩

/-- The same call on two components that agree. -/
theorem zoom {υ : Type} {get : σ → υ} {put : σ → υ → σ} {get' : τ → υ} {put' : τ → υ → τ}
    (m : Go υ α) (hget : ∀ {s t}, R s t → get s = get' t)
    (hput : ∀ {s t}, R s t → ∀ u, R (put s u) (put' t u)) :
    Coupled R (Go.zoom get put m) (Go.zoom get' put' m) := by
  intro s t hR
  unfold Relates
  rw [Go.zoom_apply, Go.zoom_apply, hget hR]
  rcases m (get' t) with ⟨a | e | p | _, u⟩
  · exact .ok ⟨rfl, hput hR u⟩
  · exact .error (hput hR u)
  · exact .panic (hput hR u)
  · exact .diverged (hput hR u)

end Coupled

/-- As `Coupled`, from these states, with two texts where both calls return an error. -/
inductive Echoed {σ τ α : Type} (R : σ → τ → Prop) : Outcome α × σ → Outcome α × τ → Prop
  | ok {a s t} (h : R s t) : Echoed R (.ok a, s) (.ok a, t)
  | error {e e' s t} (h : R s t) : Echoed R (.error e, s) (.error e', t)
  | panic {p s t} (h : R s t) : Echoed R (.panic p, s) (.panic p, t)
  | diverged {s t} (h : R s t) : Echoed R (.diverged, s) (.diverged, t)

def Echoes {σ τ α : Type} (R : σ → τ → Prop) (m : Go σ α) (n : Go τ α) (s : σ) (t : τ) : Prop :=
  Echoed R (m s) (n t)

namespace Echoes

variable {σ τ α β : Type} {R : σ → τ → Prop} {m : Go σ α} {n : Go τ α} {s : σ} {t : τ}

theorem wrap {g g' : String → String} (h : Echoes R m n s t) :
    Echoes R (Go.wrap g m) (Go.wrap g' n) s t := by
  unfold Echoes at h ⊢
  unfold Go.wrap
  generalize m s = r, n t = r' at h ⊢
  cases h with
  | ok h => exact .ok h
  | error h => exact .error h
  | panic h => exact .panic h
  | diverged h => exact .diverged h

theorem zoom {υ ω : Type} {S : υ → ω → Prop} {get : υ → σ} {put : υ → σ → υ} {get' : ω → τ}
    {put' : ω → τ → ω} {u : υ} {v : ω} (h : Echoes R m n (get u) (get' v))
    (hput : ∀ s' t', R s' t' → S (put u s') (put' v t')) :
    Echoes S (Go.zoom get put m) (Go.zoom get' put' n) u v := by
  unfold Echoes at h ⊢
  rw [Go.zoom_apply, Go.zoom_apply]
  generalize m (get u) = r, n (get' v) = r' at h ⊢
  cases h with
  | ok h => exact .ok (hput _ _ h)
  | error h => exact .error (hput _ _ h)
  | panic h => exact .panic (hput _ _ h)
  | diverged h => exact .diverged (hput _ _ h)

theorem map {f : α → β} (h : Echoes R m n s t) :
    Echoes R (m >>= fun a => Pure.pure (f a)) (n >>= fun a => Pure.pure (f a)) s t := by
  unfold Echoes at h ⊢
  rw [Go.bind_apply, Go.bind_apply]
  generalize m s = r, n t = r' at h ⊢
  cases h with
  | ok h => exact .ok h
  | error h => exact .error h
  | panic h => exact .panic h
  | diverged h => exact .diverged h

theorem of_relates (h : Relates m n s t (fun a s' b t' => a = b ∧ R s' t') R) :
    Echoes R m n s t := by
  unfold Relates at h
  unfold Echoes
  generalize m s = r, n t = r' at h ⊢
  cases h with
  | ok h =>
    obtain ⟨rfl, hR⟩ := h
    exact .ok hR
  | error h => exact .error h
  | panic h => exact .panic h
  | diverged h => exact .diverged h

theorem bind {f : α → Go σ β} {g : α → Go τ β} (h : Echoes R m n s t)
    (hf : ∀ a s' t', R s' t' → n t = (.ok a, t') → Echoes R (f a) (g a) s' t') :
    Echoes R (m >>= f) (n >>= g) s t := by
  unfold Echoes at h ⊢
  rw [Go.bind_apply, Go.bind_apply]
  generalize hr : m s = r, hr' : n t = r' at h ⊢
  cases h with
  | ok h => exact hf _ _ _ h hr'
  | error h => exact .error h
  | panic h => exact .panic h
  | diverged h => exact .diverged h

/-- Where only the value is used, the texts do not matter. -/
theorem attempt (h : Echoes R m n s t) :
    Relates (Go.attempt m) (Go.attempt n) s t
      (fun a s' b t' => a.toOption = b.toOption ∧ R s' t') R := by
  unfold Echoes at h
  unfold Relates
  rw [Go.attempt_apply, Go.attempt_apply]
  generalize m s = r, n t = r' at h ⊢
  cases h with
  | ok h => exact .ok ⟨rfl, h⟩
  | error h => exact .ok ⟨rfl, h⟩
  | panic h => exact .panic h
  | diverged h => exact .diverged h

end Echoes

theorem Go.attempt_zoom {σ υ α : Type} (get : υ → σ) (put : υ → σ → υ) (m : Go σ α) :
    Go.attempt (Go.zoom get put m) = Go.zoom get put (Go.attempt m) := by
  funext u
  simp

/-- Both calls come to an end, with a value or an error, in related states, or fail in the same
way. -/
def Ends {σ τ α β : Type} (R : σ → τ → Prop) (m : Go σ α) (n : Go τ β) (s : σ) (t : τ) : Prop :=
  Relates (Go.attempt m) (Go.attempt n) s t (fun _ s' _ t' => R s' t') R

theorem Ends.of_returns {σ τ α β : Type} {R : σ → τ → Prop} {m : Go σ α} {n : Go τ β} {s : σ}
    {t : τ} (hm : (m s).1.Returns) (hn : (n t).1.Returns) (h : R (m s).2 (n t).2) :
    Ends R m n s t := by
  obtain ⟨a, ha⟩ := hm.attempt
  obtain ⟨b, hb⟩ := hn.attempt
  have hleft : Go.attempt m s = (.ok a, (m s).2) := Prod.ext ha rfl
  have hright : Go.attempt n t = (.ok b, (n t).2) := Prod.ext hb rfl
  unfold Ends Relates
  rw [hleft, hright]
  exact .ok h

theorem Ends.zoom {σ τ υ ω α β : Type} {R : σ → τ → Prop} {S : υ → ω → Prop} {m : Go σ α}
    {n : Go τ β} {get : υ → σ} {put : υ → σ → υ} {get' : ω → τ} {put' : ω → τ → ω} {u : υ} {v : ω}
    (h : Ends R m n (get u) (get' v)) (hput : ∀ s' t', R s' t' → S (put u s') (put' v t')) :
    Ends S (Go.zoom get put m) (Go.zoom get' put' n) u v := by
  unfold Ends
  rw [Go.attempt_zoom, Go.attempt_zoom]
  exact Relates.zoom h (fun _ s' _ t' => hput s' t') hput

theorem Go.wrap_state {σ α : Type} (g : String → String) (m : Go σ α) (s : σ) :
    (Go.wrap g m s).2 = (m s).2 := by
  unfold Go.wrap
  rcases m s with ⟨_ | _ | _ | _, s'⟩ <;> rfl

theorem Go.map_state {σ α β : Type} (f : α → β) (m : Go σ α) (s : σ) :
    ((m >>= fun a => Pure.pure (f a)) s).2 = (m s).2 := by
  rw [Go.bind_apply]
  rcases m s with ⟨_ | _ | _ | _, s'⟩ <;> rfl

theorem Go.eq_of_attempt {σ α : Type} {m : Go σ α} {s s' : σ} {res : Except String α}
    (h : Go.attempt m s = (.ok res, s')) : m s = (.ofExcept res, s') := by
  rw [Go.attempt_apply] at h
  rcases hm : m s with ⟨a | e | p | _, s₁⟩ <;> rw [hm] at h <;> cases h <;> rfl

theorem Go.map_eq_ofExcept {σ α β : Type} {m : Go σ α} {f : α → β} {s s' : σ}
    {res : Except String β} (h : (m >>= fun a => Pure.pure (f a)) s = (.ofExcept res, s')) :
    (∃ a, res = .ok (f a) ∧ m s = (.ok a, s')) ∨ ∃ e, res = .error e ∧ m s = (.error e, s') := by
  rw [Go.bind_apply] at h
  generalize m s = r at h ⊢
  rcases r with ⟨a | e | p | _, s₁⟩ <;> cases res <;> cases h
  · exact .inl ⟨a, rfl, rfl⟩
  · exact .inr ⟨e, rfl, rfl⟩

theorem Go.attempt_state {σ α : Type} (m : Go σ α) (s : σ) :
    (Go.attempt m s).2 = (m s).2 := by
  rw [Go.attempt_apply]

/-! In bounds: `G` holds of the state that the second call leaves. -/
section
variable {σ τ α β : Type} {R : σ → τ → Prop} {G : τ → Prop} {m : Go σ α} {n : Go τ α} {s : σ}
  {t : τ}

/-- The second half of the second call decides whether it stays in bounds. -/
theorem Coupled.bind_echoes {f : α → Go σ β} {g : α → Go τ β} (h : Coupled R m n) (hR : R s t)
    (hf : ∀ a s' t', R s' t' → G (g a t').2 → Echoes R (f a) (g a) s' t')
    (hG : G ((n >>= g) t).2) : Echoes R (m >>= f) (n >>= g) s t := by
  have hmn := h s t hR
  unfold Relates at hmn
  unfold Echoes
  rw [Go.bind_apply] at hG
  rw [Go.bind_apply, Go.bind_apply]
  generalize m s = r, n t = r' at hmn hG ⊢
  cases hmn with
  | ok h =>
    obtain ⟨rfl, hR'⟩ := h
    exact hf _ _ _ hR' hG
  | error h => exact .error h
  | panic h => exact .panic h
  | diverged h => exact .diverged h

section
variable {α' β' : Type} {n : Go τ α'} {f : α → Go σ β} {g : α' → Go τ β'}
  {Q : α → σ → α' → τ → Prop} {Q' : β → σ → β' → τ → Prop} {F : σ → τ → Prop}

theorem Relates.bind_within (h : Relates m n s t Q F)
    (hf : ∀ a s' b t', Q a s' b t' → G (g b t').2 → Relates (f a) (g b) s' t' Q' F)
    (hG : G ((n >>= g) t).2) : Relates (m >>= f) (n >>= g) s t Q' F := by
  unfold Relates at h ⊢
  rw [Go.bind_apply] at hG
  rw [Go.bind_apply, Go.bind_apply]
  generalize m s = r, n t = r' at h hG ⊢
  cases h with
  | ok h => exact hf _ _ _ _ h hG
  | error h => exact .error h
  | panic h => exact .panic h
  | diverged h => exact .diverged h

/-- A run that ends in bounds was in bounds between its halves, if the second half does not come
back into bounds. -/
theorem Go.bind_back (hback : ∀ b t', G (g b t').2 → G t') (hG : G ((n >>= g) t).2) :
    G (n t).2 := by
  rw [Go.bind_apply] at hG
  revert hG
  rcases n t with ⟨b | _ | _ | _, t'⟩
  · exact hback b t'
  all_goals exact id

theorem Relates.bind_inside (h : G (n t).2 → Relates m n s t Q F)
    (hback : ∀ b t', G (g b t').2 → G t')
    (hf : ∀ a s' b t', Q a s' b t' → G (g b t').2 → Relates (f a) (g b) s' t' Q' F)
    (hG : G ((n >>= g) t).2) : Relates (m >>= f) (n >>= g) s t Q' F :=
  Relates.bind_within (h (Go.bind_back hback hG)) hf hG

/-- As `Relates.bind_inside`, for the ends of both calls. -/
theorem Ends.bind_inside (h : G (n t).2 → Relates m n s t Q R)
    (hback : ∀ b t', G (g b t').2 → G t')
    (hf : ∀ a s' b t', Q a s' b t' → G (g b t').2 → Ends R (f a) (g b) s' t')
    (hG : G ((n >>= g) t).2) : Ends R (m >>= f) (n >>= g) s t := by
  have hmn := h (Go.bind_back hback hG)
  unfold Relates at hmn
  unfold Ends Relates
  rw [Go.bind_apply] at hG
  rw [Go.attempt_apply, Go.attempt_apply, Go.bind_apply, Go.bind_apply]
  generalize m s = r, n t = r' at hmn hG ⊢
  cases hmn with
  | ok h => exact hf _ _ _ _ h hG
  | error h => exact .ok h
  | panic h => exact .panic h
  | diverged h => exact .diverged h

end

section
variable {ρ : Type} {f : ρ → Go σ β} {g : ρ → Go τ β} (hback : ∀ x t, G (g x t).2 → G t)
include hback

theorem Go.mapM_back (xs : List ρ) (t : τ) (hG : G (xs.mapM g t).2) : G t := by
  induction xs generalizing t with
  | nil => exact hG
  | cons x xs ih =>
    rw [List.mapM_cons] at hG
    refine hback x t (Go.bind_back (fun b t' hrest => ?_) hG)
    rw [Go.map_state] at hrest
    exact ih t' hrest

/-- A list of calls, one after the other. -/
theorem Relates.mapM_inside {xs : List ρ}
    (hf : ∀ x ∈ xs, ∀ s t, R s t → G (g x t).2 →
      Relates (f x) (g x) s t (fun a s' b t' => a = b ∧ R s' t') R) (hR : R s t)
    (hG : G (xs.mapM g t).2) :
    Relates (xs.mapM f) (xs.mapM g) s t (fun a s' b t' => a = b ∧ R s' t') R := by
  induction xs generalizing s t with
  | nil => exact .pure ⟨rfl, hR⟩
  | cons x xs ih =>
    rw [List.mapM_cons] at hG ⊢
    rw [List.mapM_cons]
    refine Relates.bind_inside (G := G) (hf x List.mem_cons_self s t hR) ?_ ?_ hG
    · intro b t' hrest
      rw [Go.map_state] at hrest
      exact Go.mapM_back hback xs t' hrest
    · rintro b s' _ t' ⟨rfl, hR'⟩ hrest
      rw [Go.map_state] at hrest
      refine Relates.bind (ih (fun y hy => hf y (List.mem_cons_of_mem x hy)) hR' hrest) ?_
      rintro bs s₂ _ t₂ ⟨rfl, hR₂⟩
      exact .pure ⟨rfl, hR₂⟩

end

end

end Golang

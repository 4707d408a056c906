import CovenantEmulator.Golang.Outcome

/-! Computations that read a shared value step by step, so that others can run in between. -/
namespace Golang

/-- Ended with an outcome, or about to read the value once more. -/
inductive Resumption (κ α : Type) where
  | done (o : Outcome α)
  | read (next : κ → Resumption κ α)

namespace Resumption

variable {κ α β : Type}

protected def bind : Resumption κ α → (α → Resumption κ β) → Resumption κ β
  | done (.ok a), f => f a
  | done (.error e), _ => done (.error e)
  | done (.panic p), _ => done (.panic p)
  | done .diverged, _ => done .diverged
  | read next, f => read fun x => (next x).bind f

instance : Monad (Resumption κ) where
  pure a := done (.ok a)
  bind := Resumption.bind

/-- One step that depends on the value. -/
def reading (f : κ → Outcome α) : Resumption κ α := read fun x => done (f x)

/-- The outcome when every step reads `x`. -/
def run (x : κ) : Resumption κ α → Outcome α
  | done o => o
  | read next => run x (next x)

/-- Every step that reads `x` ends the computation with an error. -/
def FailsOn (x : κ) : Resumption κ α → Prop
  | done _ => True
  | read next => (∃ e, next x = done (.error e)) ∧ ∀ y, FailsOn x (next y)

instance : LawfulMonad (Resumption κ) := LawfulMonad.mk' (Resumption κ)
  (fun m => by
    induction m with
    | done o => cases o <;> rfl
    | read next ih => exact congrArg read (funext ih))
  (fun _ _ => rfl)
  (fun m f g => by
    induction m with
    | done o => cases o <;> rfl
    | read next ih => exact congrArg read (funext ih))

@[simp] theorem run_done (x : κ) (o : Outcome α) : run x (done o) = o := rfl
@[simp] theorem run_pure (x : κ) (a : α) : run x (pure a : Resumption κ α) = .ok a := rfl
@[simp] theorem run_reading (x : κ) (f : κ → Outcome α) : run x (reading f) = f x := rfl

@[simp] theorem run_bind (x : κ) (m : Resumption κ α) (f : α → Resumption κ β) :
    run x (m >>= f) = (run x m >>= fun a => run x (f a)) := by
  induction m with
  | done o => cases o <;> rfl
  | read next ih => exact ih x

@[simp] theorem run_mapM (x : κ) (f : α → Resumption κ β) (xs : List α) :
    run x (xs.mapM f) = xs.mapM fun a => run x (f a) := by
  induction xs with
  | nil => rfl
  | cons a xs ih => simp only [List.mapM_cons, run_bind, run_pure, ih, Outcome.pure_eq]

theorem failsOn_reading {x : κ} {f : κ → Outcome α} {e : String} (h : f x = .error e) :
    FailsOn x (reading f) :=
  ⟨⟨e, congrArg done h⟩, fun _ => trivial⟩

theorem FailsOn.bind {x : κ} {m : Resumption κ α} {f : α → Resumption κ β} (hm : FailsOn x m)
    (hf : ∀ a, FailsOn x (f a)) : FailsOn x (m >>= f) := by
  induction m with
  | done o =>
    cases o with
    | ok a => exact hf a
    | _ => trivial
  | read next ih =>
    obtain ⟨⟨e, he⟩, hnext⟩ := hm
    refine ⟨⟨e, ?_⟩, fun y => ih y (hnext y)⟩
    change (next x).bind f = _
    rw [he]
    rfl

theorem FailsOn.mapM {x : κ} {f : α → Resumption κ β} (hf : ∀ a, FailsOn x (f a)) (xs : List α) :
    FailsOn x (xs.mapM f) := by
  induction xs with
  | nil => trivial
  | cons a xs ih =>
    rw [List.mapM_cons]
    exact (hf a).bind fun _ => ih.bind fun _ => trivial

end Resumption

end Golang

import Mathlib.Logic.Basic
import Mathlib.Data.List.Basic
import Mathlib.Data.List.Forall2
import Mathlib.Algebra.Ring.Int.Defs
import Mathlib.Algebra.Ring.Nat

/-! Go calls as state transformers, with the rules for their pre- and postconditions. -/
namespace Golang

/-- What a call can end in. A loop that never ends is `diverged`. -/
inductive Outcome (α : Type) where
  | ok (a : α)
  | error (e : String)
  | panic (msg : String)
  | diverged
  deriving DecidableEq, Repr

/-- The ends that are not a value. -/
inductive Halt where
  | error (e : String)
  | panic (msg : String)
  | diverged
  deriving DecidableEq, Repr

def Halt.outcome {α : Type} : Halt → Outcome α
  | .error e => .error e
  | .panic p => .panic p
  | .diverged => .diverged

/-- `maxAlloc` of the runtime on 64-bit platforms, in bytes. -/
def maxAlloc : Nat := 2 ^ 48

/-- The runtime can address that many elements of `size` bytes. -/
def Addressable (size cap : Nat) : Prop := size * cap ≤ maxAlloc

instance (size cap : Nat) : Decidable (Addressable size cap) :=
  inferInstanceAs (Decidable (_ ≤ _))

namespace Outcome

variable {α β : Type}

protected def bind (o : Outcome α) (f : α → Outcome β) : Outcome β :=
  match o with
  | .ok a => f a
  | .error e => .error e
  | .panic p => .panic p
  | .diverged => .diverged

instance : Monad Outcome where
  pure := .ok
  bind := Outcome.bind

instance : LawfulMonad Outcome := LawfulMonad.mk' Outcome
  (fun o => by cases o <;> rfl) (fun _ _ => rfl) (fun o _ _ => by cases o <;> rfl)

/-- A library call that returns a value or an error and never panics. -/
def ofExcept : Except String α → Outcome α
  | .ok a => .ok a
  | .error e => .error e

/-- `if err != nil` in the caller: the error becomes a value, a panic does not. -/
def attempt : Outcome α → Outcome (Except String α)
  | .ok a => .ok (.ok a)
  | .error e => .ok (.error e)
  | .panic p => .panic p
  | .diverged => .diverged

/-- `fmt.Errorf("...%w", err)` around the error of a call. -/
def wrap (f : String → String) : Outcome α → Outcome α
  | .error e => .error (f e)
  | o => o

/-- Following a pointer. -/
def deref : Option α → Outcome α
  | some a => .ok a
  | none => .panic "runtime error: invalid memory address or nil pointer dereference"

/-- The call panics. -/
def Panics : Outcome α → Prop
  | .panic _ => True
  | _ => False

/-- The call returns an error. -/
def Fails : Outcome α → Prop
  | .error _ => True
  | _ => False

/-- The call comes back to its caller, with a value or with an error. -/
def Returns : Outcome α → Prop
  | .ok _ | .error _ => True
  | _ => False

instance : (o : Outcome α) → Decidable o.Panics
  | .panic _ => isTrue trivial
  | .ok _ | .error _ | .diverged => isFalse id

@[simp] theorem pure_eq (a : α) : (pure a : Outcome α) = .ok a := rfl
@[simp] theorem bind_ok (a : α) (f : α → Outcome β) : (Outcome.ok a >>= f) = f a := rfl
@[simp] theorem bind_error (e : String) (f : α → Outcome β) :
    (Outcome.error e >>= f) = .error e := rfl
@[simp] theorem bind_panic (p : String) (f : α → Outcome β) :
    (Outcome.panic p >>= f) = .panic p := rfl
@[simp] theorem bind_diverged (f : α → Outcome β) :
    (Outcome.diverged >>= f) = .diverged := rfl
@[simp] theorem ofExcept_ok (a : α) : ofExcept (.ok a) = .ok a := rfl
@[simp] theorem ofExcept_error (e : String) :
    ofExcept (.error e : Except String α) = .error e := rfl

theorem bind_eq_ok {o : Outcome α} {f : α → Outcome β} {b : β} :
    (o >>= f) = .ok b ↔ ∃ a, o = .ok a ∧ f a = .ok b := by
  cases o <;> simp

theorem ofExcept_eq_ok {x : Except String α} {a : α} : ofExcept x = .ok a ↔ x = .ok a := by
  cases x <;> simp

theorem ofExcept_eq_error {x : Except String α} {e : String} :
    ofExcept x = .error e ↔ x = .error e := by
  cases x <;> simp [ofExcept]

theorem attempt_eq_ok {o : Outcome α} {a : α} :
    o.attempt = .ok (.ok a) ↔ o = .ok a := by
  cases o <;> simp [attempt]

theorem Returns.attempt {o : Outcome α} (h : o.Returns) : ∃ res, o.attempt = .ok res := by
  cases o with
  | ok a => exact ⟨.ok a, rfl⟩
  | error e => exact ⟨.error e, rfl⟩
  | panic p => exact h.elim
  | diverged => exact h.elim

theorem wrap_eq_ok {f : String → String} {o : Outcome α} {a : α} :
    o.wrap f = .ok a ↔ o = .ok a := by
  cases o <;> simp [wrap]

theorem bind_eq_error {o : Outcome α} {f : α → Outcome β} {e : String} :
    (o >>= f) = .error e ↔ o = .error e ∨ ∃ a, o = .ok a ∧ f a = .error e := by
  cases o <;> simp

/-- What follows matters only after a value. -/
theorem bind_congr_of_ok {o : Outcome α} {f g : α → Outcome β} (h : ∀ a, o = .ok a → f a = g a) :
    (o >>= f) = (o >>= g) := by
  cases o with
  | ok a => exact h a rfl
  | _ => rfl

/-- A wrapped error starts with the words it was wrapped in. -/
theorem wrap_ne_error {words e : String} (h : ¬ words.toList <+: e.toList) (o : Outcome α) :
    o.wrap (words ++ ·) ≠ .error e := by
  cases o with
  | error e' =>
    intro heq
    have htext : words ++ e' = e := by simpa [wrap] using heq
    exact h ⟨e'.toList, by rw [← htext, String.toList_append]⟩
  | _ => simp [wrap]

@[simp] theorem wrap_panics {f : String → String} {o : Outcome α} :
    (o.wrap f).Panics ↔ o.Panics := by
  cases o <;> simp [wrap, Panics]

/-- What neither succeeds nor panics nor goes on for ever is an error. -/
theorem error_of_others {o : Outcome α} (hok : ∀ a, o ≠ .ok a) (hpanic : ¬ o.Panics)
    (hends : o ≠ .diverged) : ∃ e, o = .error e := by
  cases o with
  | ok a => exact (hok a rfl).elim
  | error e => exact ⟨e, rfl⟩
  | panic p => exact (hpanic trivial).elim
  | diverged => exact (hends rfl).elim

theorem deref_eq_ok {p : Option α} {a : α} : deref p = .ok a ↔ p = some a := by
  cases p <;> simp [deref]

theorem bind_panics {o : Outcome α} {f : α → Outcome β} :
    (o >>= f).Panics ↔ o.Panics ∨ ∃ a, o = .ok a ∧ (f a).Panics := by
  cases o <;> simp [Panics]

@[simp] theorem ok_panics (a : α) : (ok a).Panics ↔ False := Iff.rfl
@[simp] theorem error_panics (e : String) : (error e : Outcome α).Panics ↔ False := Iff.rfl
@[simp] theorem panic_panics (p : String) : (panic p : Outcome α).Panics ↔ True := Iff.rfl

@[simp] theorem ofExcept_not_panics (x : Except String α) : ¬ (ofExcept x).Panics := by
  cases x <;> exact id

theorem bind_eq_diverged {o : Outcome α} {f : α → Outcome β} :
    (o >>= f) = .diverged ↔ o = .diverged ∨ ∃ a, o = .ok a ∧ f a = .diverged := by
  cases o <;> simp

@[simp] theorem wrap_eq_diverged {f : String → String} {o : Outcome α} :
    o.wrap f = .diverged ↔ o = .diverged := by
  cases o <;> simp [wrap]

@[simp] theorem ofExcept_ne_diverged (x : Except String α) : ofExcept x ≠ .diverged := by
  cases x <;> simp

@[simp] theorem deref_ne_diverged (p : Option α) : deref p ≠ .diverged := by
  cases p <;> simp [deref]

/-- Converting a list succeeds when every element converts, in order. -/
theorem mapM_eq_ok {f : α → Outcome β} {xs : List α} {ys : List β} :
    xs.mapM f = .ok ys ↔ List.Forall₂ (fun x y => f x = .ok y) xs ys := by
  induction xs generalizing ys with
  | nil => simp [eq_comm]
  | cons x xs ih =>
    rw [List.mapM_cons, bind_eq_ok]
    constructor
    · rintro ⟨y, hy, h⟩
      obtain ⟨ys', hys, h⟩ := bind_eq_ok.mp h
      cases h
      exact .cons hy (ih.mp hys)
    · intro h
      cases h with
      | cons hy hys => exact ⟨_, hy, bind_eq_ok.mpr ⟨_, ih.mpr hys, rfl⟩⟩

/-- Every element of a converted list has its image in the result. -/
theorem exists_of_mem_mapM {f : α → Outcome β} {xs : List α} {ys : List β}
    (h : xs.mapM f = .ok ys) {x : α} (hx : x ∈ xs) : ∃ y ∈ ys, f x = .ok y := by
  have hall := mapM_eq_ok.mp h
  clear h
  induction hall with
  | nil => simp at hx
  | cons hy _ ih =>
    rcases List.mem_cons.mp hx with rfl | hx
    · exact ⟨_, List.mem_cons_self, hy⟩
    · obtain ⟨y, hmem, hy⟩ := ih hx
      exact ⟨y, List.mem_cons_of_mem _ hmem, hy⟩

/-- Every element of the result is the image of one of the list. -/
theorem exists_of_mem_of_mapM {f : α → Outcome β} {xs : List α} {ys : List β}
    (h : xs.mapM f = .ok ys) {y : β} (hy : y ∈ ys) : ∃ x ∈ xs, f x = .ok y := by
  have hall := mapM_eq_ok.mp h
  clear h
  induction hall with
  | nil => simp at hy
  | cons hx _ ih =>
    rcases List.mem_cons.mp hy with rfl | hy
    · exact ⟨_, List.mem_cons_self, hx⟩
    · obtain ⟨x, hmem, hx⟩ := ih hy
      exact ⟨x, List.mem_cons_of_mem _ hmem, hx⟩

theorem exists_mapM_eq_ok {f : α → Outcome β} {xs : List α} :
    (∃ ys, xs.mapM f = .ok ys) ↔ ∀ x ∈ xs, ∃ y, f x = .ok y := by
  induction xs with
  | nil => simp
  | cons x xs ih =>
    simp only [List.mapM_cons, bind_eq_ok, List.forall_mem_cons, ← ih]
    constructor
    · rintro ⟨_, y, hy, ys, hys, -⟩
      exact ⟨⟨y, hy⟩, ys, hys⟩
    · rintro ⟨⟨y, hy⟩, ys, hys⟩
      exact ⟨y :: ys, y, hy, ys, hys, rfl⟩

theorem mapM_map_eq_ok {f : β → Outcome α} {g : α → β} {xs : List α}
    (h : ∀ x ∈ xs, f (g x) = .ok x) : (xs.map g).mapM f = .ok xs := by
  induction xs with
  | nil => rfl
  | cons x xs ih =>
    rw [List.map_cons, List.mapM_cons, h x List.mem_cons_self,
      ih fun y hy => h y (List.mem_cons_of_mem _ hy)]
    rfl

theorem mapM_not_panics {f : α → Outcome β} (hf : ∀ a, ¬ (f a).Panics) (xs : List α) :
    ¬ (xs.mapM f).Panics := by
  induction xs with
  | nil => exact id
  | cons x xs ih =>
    rw [List.mapM_cons]
    simp [bind_panics, hf, ih]

theorem mapM_ne_diverged {f : α → Outcome β} (hf : ∀ a, f a ≠ .diverged) (xs : List α) :
    xs.mapM f ≠ .diverged := by
  induction xs with
  | nil => simp
  | cons x xs ih =>
    rw [List.mapM_cons]
    simp [bind_eq_diverged, hf, ih]

/-- A call comes back unless it panics or never ends. -/
theorem returns_iff {o : Outcome α} : o.Returns ↔ ¬ o.Panics ∧ o ≠ .diverged := by
  cases o <;> simp [Returns, Panics]

@[simp] theorem ok_returns (a : α) : (ok a).Returns := trivial
@[simp] theorem error_returns (e : String) : (error e : Outcome α).Returns := trivial

@[simp] theorem ofExcept_returns (x : Except String α) : (ofExcept x).Returns := by
  cases x <;> trivial

@[simp] theorem wrap_returns {f : String → String} {o : Outcome α} :
    (o.wrap f).Returns ↔ o.Returns := by
  cases o <;> simp [wrap, Returns]

theorem bind_returns {o : Outcome α} {f : α → Outcome β} :
    (o >>= f).Returns ↔ o.Returns ∧ ∀ a, o = .ok a → (f a).Returns := by
  cases o <;> simp [Returns]

theorem mapM_returns {f : α → Outcome β} (hf : ∀ a, (f a).Returns) (xs : List α) :
    (xs.mapM f).Returns := by
  induction xs with
  | nil => trivial
  | cons x xs ih =>
    rw [List.mapM_cons]
    simp [bind_returns, hf, ih]

/-- How the call ended, when not with a value. -/
def halt : Outcome α → Option Halt
  | .ok _ => none
  | .error e => some (.error e)
  | .panic p => some (.panic p)
  | .diverged => some .diverged

theorem halt_eq_none {o : Outcome α} : o.halt = none ↔ ∃ a, o = .ok a := by
  cases o <;> simp [halt]

theorem halt_eq_some {o : Outcome α} {h : Halt} : o.halt = some h ↔ o = h.outcome := by
  cases o <;> cases h <;> simp [halt, Halt.outcome]

theorem bind_halt {o : Outcome α} {f : α → Outcome β} {h : Halt} :
    (o >>= f).halt = some h ↔ o.halt = some h ∨ ∃ a, o = .ok a ∧ (f a).halt = some h := by
  cases o <;> simp [halt]

/-- Slice and array indexing, with the runtime check. -/
def index (xs : List α) (i : Nat) : Outcome α :=
  match xs[i]? with
  | some x => .ok x
  | none => .panic "runtime error: index out of range"

@[simp] theorem index_ne_diverged (xs : List α) (i : Nat) : index xs i ≠ .diverged := by
  unfold index
  cases xs[i]? <;> simp

theorem index_ne_error {xs : List α} {i : Nat} {e : String} : index xs i ≠ .error e := by
  unfold index
  cases xs[i]? <;> simp

theorem index_eq_ok {xs : List α} {i : Nat} {x : α} : index xs i = .ok x ↔ xs[i]? = some x := by
  unfold index
  cases xs[i]? <;> simp

theorem index_panics {xs : List α} {i : Nat} : (index xs i).Panics ↔ xs.length ≤ i := by
  unfold index
  cases h : xs[i]? with
  | none => simpa [Panics] using h
  | some x =>
    obtain ⟨hlt, -⟩ := List.getElem?_eq_some_iff.mp h
    simp only [Panics, false_iff]
    omega

/-- `xs[i:j]`, with the runtime check. -/
def slice (xs : List α) (i j : Nat) : Outcome (List α) :=
  if i ≤ j ∧ j ≤ xs.length then .ok ((xs.take j).drop i)
  else .panic "runtime error: slice bounds out of range"

theorem slice_eq_ok {xs ys : List α} {i j : Nat} :
    slice xs i j = .ok ys ↔ (i ≤ j ∧ j ≤ xs.length) ∧ (xs.take j).drop i = ys := by
  unfold slice
  split <;> rename_i h <;> simp [h]

/-- `make([]T, 0, cap)` for elements of `size` bytes. Running out of memory within the range is
not modelled. -/
def makeSlice (size cap : Nat) : Outcome (List α) :=
  if Addressable size cap then .ok [] else .panic "runtime error: makeslice: cap out of range"

theorem makeSlice_of_addressable {size cap : Nat} (h : Addressable size cap) :
    makeSlice size cap = .ok ([] : List α) := if_pos h

theorem makeSlice_eq_ok {size cap : Nat} {xs : List α} :
    makeSlice size cap = .ok xs ↔ Addressable size cap ∧ xs = [] := by
  unfold makeSlice
  split <;> rename_i h <;> simp [h, eq_comm]

end Outcome

/-- A call that reads and writes the state `σ`. -/
def Go (σ α : Type) : Type := σ → Outcome α × σ

namespace Go

variable {σ τ α β : Type}

protected def bind (m : Go σ α) (f : α → Go σ β) : Go σ β := fun s =>
  match m s with
  | (.ok a, s') => f a s'
  | (.error e, s') => (.error e, s')
  | (.panic p, s') => (.panic p, s')
  | (.diverged, s') => (.diverged, s')

instance : Monad (Go σ) where
  pure a := fun s => (.ok a, s)
  bind := Go.bind

/-- A computation that does not touch the state. -/
def lift (o : Outcome α) : Go σ α := fun s => (o, s)

def fail (e : String) : Go σ α := lift (.error e)

/-- A call that only reads the state. -/
def reads (f : σ → Except String α) : Go σ α := fun s => (.ofExcept (f s), s)

def modify (f : σ → σ) : Go σ Unit := fun s => (.ok (), f s)

def attempt (m : Go σ α) : Go σ (Except String α) := fun s => ((m s).1.attempt, (m s).2)

/-- `fmt.Errorf("...%w", err)` around the error of a call. -/
def wrap (f : String → String) (m : Go σ α) : Go σ α := fun s =>
  match m s with
  | (.error e, s') => (.error (f e), s')
  | r => r

/-- Run a call on one component of the state. -/
def zoom (get : τ → σ) (put : τ → σ → τ) (m : Go σ α) : Go τ α := fun t =>
  ((m (get t)).1, put t (m (get t)).2)

@[simp] theorem pure_apply (a : α) (s : σ) : (pure a : Go σ α) s = (.ok a, s) := rfl
@[simp] theorem lift_apply (o : Outcome α) (s : σ) : (lift o : Go σ α) s = (o, s) := rfl
@[simp] theorem fail_apply (e : String) (s : σ) : (fail e : Go σ α) s = (.error e, s) := rfl
@[simp] theorem reads_apply (f : σ → Except String α) (s : σ) :
    reads f s = (.ofExcept (f s), s) := rfl
@[simp] theorem modify_apply (f : σ → σ) (s : σ) : modify f s = (.ok (), f s) := rfl
@[simp] theorem attempt_apply (m : Go σ α) (s : σ) :
    attempt m s = ((m s).1.attempt, (m s).2) := rfl
@[simp] theorem zoom_apply (get : τ → σ) (put : τ → σ → τ) (m : Go σ α) (t : τ) :
    zoom get put m t = ((m (get t)).1, put t (m (get t)).2) := rfl

theorem bind_apply (m : Go σ α) (f : α → Go σ β) (s : σ) :
    (m >>= f) s = match m s with
      | (.ok a, s') => f a s'
      | (.error e, s') => (.error e, s')
      | (.panic p, s') => (.panic p, s')
      | (.diverged, s') => (.diverged, s') := rfl

instance : LawfulMonad (Go σ) := LawfulMonad.mk' (Go σ)
  (fun m => by
    funext s
    change (m >>= fun a => pure (id a)) s = m s
    rw [bind_apply]
    rcases m s with ⟨_ | _ | _ | _, s'⟩ <;> rfl)
  (fun _ _ => rfl)
  (fun m _ _ => by
    funext s
    simp only [bind_apply]
    rcases m s with ⟨_ | _ | _ | _, s'⟩ <;> rfl)

theorem bind_of_ok {m : Go σ α} {f : α → Go σ β} {s s' : σ} {a : α} (h : m s = (.ok a, s')) :
    (m >>= f) s = f a s' := by
  simp [bind_apply, h]

theorem bind_of_error {m : Go σ α} {f : α → Go σ β} {s s' : σ} {e : String}
    (h : m s = (.error e, s')) : (m >>= f) s = (.error e, s') := by
  rw [bind_apply, h]

theorem bind_of_halt {m : Go σ α} {f : α → Go σ β} {s s' : σ} {h : Halt}
    (hm : m s = (h.outcome, s')) : (m >>= f) s = (h.outcome, s') := by
  rw [bind_apply, hm]
  cases h <;> rfl

theorem bind_keeps {m : Go σ α} {f : α → Go σ β} (hm : ∀ s, (m s).2 = s)
    (hf : ∀ a s, (f a s).2 = s) (s : σ) : ((m >>= f) s).2 = s := by
  rw [bind_apply]
  rcases h : m s with ⟨a | _ | _ | _, s'⟩
  · exact (hf a s').trans (by simpa [h] using hm s)
  all_goals simpa [h] using hm s

/-- A call returns only if its first part did, and the rest returned from there. -/
theorem bind_eq_ok {m : Go σ α} {f : α → Go σ β} {s s' : σ} {b : β} :
    (m >>= f) s = (.ok b, s') ↔ ∃ a s₁, m s = (.ok a, s₁) ∧ f a s₁ = (.ok b, s') := by
  rw [bind_apply]
  rcases m s with ⟨_ | _ | _ | _, s₁⟩ <;> simp

theorem pure_eq_ok {a b : α} {s s' : σ} :
    (pure a : Go σ α) s = (.ok b, s') ↔ a = b ∧ s = s' := by
  simp

theorem lift_eq_ok {o : Outcome α} {a : α} {s s' : σ} :
    lift o s = (.ok a, s') ↔ o = .ok a ∧ s = s' := by
  simp

theorem lift_eq_error {o : Outcome α} {e : String} {s s' : σ} :
    lift o s = (.error e, s') ↔ o = .error e ∧ s = s' := by
  simp

theorem zoom_eq_ok {get : τ → σ} {put : τ → σ → τ} {m : Go σ α} {a : α} {t t' : τ} :
    zoom get put m t = (.ok a, t') ↔ ∃ s, m (get t) = (.ok a, s) ∧ put t s = t' := by
  rw [zoom_apply]
  rcases m (get t) with ⟨_ | _ | _ | _, s⟩ <;> simp

theorem zoom_eq_error {get : τ → σ} {put : τ → σ → τ} {m : Go σ α} {e : String} {t t' : τ} :
    zoom get put m t = (.error e, t') ↔ ∃ s, m (get t) = (.error e, s) ∧ put t s = t' := by
  rw [zoom_apply]
  rcases m (get t) with ⟨_ | _ | _ | _, s⟩ <;> simp

theorem lift_ok_bind (a : α) (f : α → Go σ β) : (lift (.ok a) >>= f : Go σ β) = f a := rfl

/-- A panic comes from the first part, or from the rest after it returned. -/
theorem bind_panics {m : Go σ α} {f : α → Go σ β} {s : σ} :
    ((m >>= f) s).1.Panics ↔
      (m s).1.Panics ∨ ∃ a s₁, m s = (.ok a, s₁) ∧ (f a s₁).1.Panics := by
  rw [bind_apply]
  rcases m s with ⟨_ | _ | _ | _, s₁⟩ <;> simp [Outcome.Panics]

@[simp] theorem attempt_panics {m : Go σ α} {s : σ} :
    (attempt m s).1.Panics ↔ (m s).1.Panics := by
  rw [attempt_apply]
  rcases m s with ⟨_ | _ | _ | _, s₁⟩ <;> simp [Outcome.Panics, Outcome.attempt]

@[simp] theorem wrap_panics {g : String → String} {m : Go σ α} {s : σ} :
    (wrap g m s).1.Panics ↔ (m s).1.Panics := by
  unfold wrap
  rcases m s with ⟨_ | _ | _ | _, s₁⟩ <;> simp [Outcome.Panics]

@[simp] theorem lift_panics {o : Outcome α} {s : σ} : (lift o s).1.Panics ↔ o.Panics := Iff.rfl

/-- An error comes from the first part, or from the rest after it returned. -/
theorem bind_fails {m : Go σ α} {f : α → Go σ β} {s : σ} :
    ((m >>= f) s).1.Fails ↔
      (m s).1.Fails ∨ ∃ a s₁, m s = (.ok a, s₁) ∧ (f a s₁).1.Fails := by
  rw [bind_apply]
  rcases m s with ⟨_ | _ | _ | _, s₁⟩ <;> simp [Outcome.Fails]

@[simp] theorem wrap_fails {g : String → String} {m : Go σ α} {s : σ} :
    (wrap g m s).1.Fails ↔ (m s).1.Fails := by
  unfold wrap
  rcases m s with ⟨_ | _ | _ | _, s₁⟩ <;> simp [Outcome.Fails]

@[simp] theorem pure_not_fails (a : α) (s : σ) : ¬ ((pure a : Go σ α) s).1.Fails := id

@[simp] theorem fail_fails (e : String) (s : σ) : ((fail e : Go σ α) s).1.Fails := trivial

theorem bind_returns {m : Go σ α} {f : α → Go σ β} {s : σ} :
    ((m >>= f) s).1.Returns ↔
      (m s).1.Returns ∧ ∀ a s₁, m s = (.ok a, s₁) → (f a s₁).1.Returns := by
  rw [bind_apply]
  rcases m s with ⟨_ | _ | _ | _, s₁⟩ <;> simp [Outcome.Returns]

@[simp] theorem wrap_returns {g : String → String} {m : Go σ α} {s : σ} :
    (wrap g m s).1.Returns ↔ (m s).1.Returns := by
  unfold wrap
  rcases m s with ⟨_ | _ | _ | _, s₁⟩ <;> simp [Outcome.Returns]

theorem bind_eq_diverged {m : Go σ α} {f : α → Go σ β} {s : σ} :
    ((m >>= f) s).1 = .diverged ↔
      (m s).1 = .diverged ∨ ∃ a s₁, m s = (.ok a, s₁) ∧ (f a s₁).1 = .diverged := by
  rw [bind_apply]
  rcases m s with ⟨_ | _ | _ | _, s₁⟩ <;> simp

@[simp] theorem attempt_eq_diverged {m : Go σ α} {s : σ} :
    (attempt m s).1 = .diverged ↔ (m s).1 = .diverged := by
  rw [attempt_apply]
  rcases m s with ⟨_ | _ | _ | _, s₁⟩ <;> simp [Outcome.attempt]

/-- A loop panics at the first element whose turn panics. -/
theorem foldlM_panics {f : β → α → Go σ β} {xs : List α} {b : β} {s : σ} :
    (xs.foldlM f b s).1.Panics ↔ ∃ pre x post b' s', xs = pre ++ x :: post ∧
      pre.foldlM f b s = (.ok b', s') ∧ (f b' x s').1.Panics := by
  induction xs generalizing b s with
  | nil => simp [Outcome.Panics]
  | cons x xs ih =>
    rw [List.foldlM_cons, bind_panics]
    constructor
    · rintro (h | ⟨b₁, s₁, hx, h⟩)
      · exact ⟨[], x, xs, b, s, rfl, rfl, h⟩
      · obtain ⟨pre, y, post, b', s', rfl, hpre, hy⟩ := ih.mp h
        refine ⟨x :: pre, y, post, b', s', rfl, ?_, hy⟩
        rw [List.foldlM_cons, bind_of_ok hx]
        exact hpre
    · rintro ⟨pre, y, post, b', s', hxs, hpre, hy⟩
      cases pre with
      | nil =>
        cases hxs
        cases hpre
        exact Or.inl hy
      | cons z pre =>
        cases hxs
        rw [List.foldlM_cons] at hpre
        obtain ⟨b₁, s₁, hx, hpre⟩ := bind_eq_ok.mp hpre
        exact Or.inr ⟨b₁, s₁, hx, ih.mpr ⟨pre, y, post, b', s', rfl, hpre, hy⟩⟩

theorem wrap_eq_ok {g : String → String} {m : Go σ α} {s s' : σ} {a : α} :
    wrap g m s = (.ok a, s') ↔ m s = (.ok a, s') := by
  unfold wrap
  rcases m s with ⟨_ | _ | _ | _, s₁⟩ <;> simp

theorem bind_eq_error {m : Go σ α} {f : α → Go σ β} {s s' : σ} {e : String} :
    (m >>= f) s = (.error e, s') ↔
      m s = (.error e, s') ∨ ∃ a s₁, m s = (.ok a, s₁) ∧ f a s₁ = (.error e, s') := by
  rw [bind_apply]
  rcases m s with ⟨_ | _ | _ | _, s₁⟩ <;> simp

theorem wrap_eq_error {g : String → String} {m : Go σ α} {s s' : σ} {e : String} :
    wrap g m s = (.error e, s') ↔ ∃ e', m s = (.error e', s') ∧ g e' = e := by
  unfold wrap
  rcases m s with ⟨_ | _ | _ | _, s₁⟩ <;> simp [and_comm]

theorem attempt_ne_error {m : Go σ α} {s s' : σ} {e : String} :
    attempt m s ≠ (.error e, s') := by
  rw [attempt_apply]
  rcases m s with ⟨_ | _ | _ | _, s₁⟩ <;> simp [Outcome.attempt]

theorem attempt_eq_error {m : Go σ α} {s s' : σ} {e : String} :
    attempt m s = (.ok (.error e), s') ↔ m s = (.error e, s') := by
  rw [attempt_apply]
  rcases m s with ⟨_ | _ | _ | _, s₁⟩ <;> simp [Outcome.attempt]

/-- A loop ends with the error of the first element whose turn fails. -/
theorem foldlM_eq_error {f : β → α → Go σ β} {xs : List α} {b : β} {s s' : σ} {e : String}
    (h : xs.foldlM f b s = (.error e, s')) : ∃ pre x post b₁ s₁, xs = pre ++ x :: post ∧
      pre.foldlM f b s = (.ok b₁, s₁) ∧ f b₁ x s₁ = (.error e, s') := by
  induction xs generalizing b s with
  | nil => cases h
  | cons x xs ih =>
    rw [List.foldlM_cons] at h
    rcases bind_eq_error.mp h with h | ⟨b₁, s₁, hx, h⟩
    · exact ⟨[], x, xs, b, s, rfl, rfl, h⟩
    · obtain ⟨pre, y, post, b₂, s₂, rfl, hpre, hy⟩ := ih h
      refine ⟨x :: pre, y, post, b₂, s₂, rfl, ?_, hy⟩
      rw [List.foldlM_cons, bind_of_ok hx]
      exact hpre

theorem wrap_ne_error {words e : String} (h : ¬ words.toList <+: e.toList) {m : Go σ α}
    {s s' : σ} : wrap (words ++ ·) m s ≠ (.error e, s') := by
  intro heq
  obtain ⟨e', -, rfl⟩ := wrap_eq_error.mp heq
  exact h (by simp)

end Go

/-- From `s` the call ends in `Q`, or in `F` when it does not return a value. -/
def Triple {σ α : Type} (m : Go σ α) (s : σ) (Q : α → σ → Prop) (F : σ → Prop) : Prop :=
  match m s with
  | (.ok a, s') => Q a s'
  | (_, s') => F s'

namespace Triple

variable {σ τ α β : Type} {m : Go σ α} {s : σ} {Q Q' : α → σ → Prop} {F F' : σ → Prop}

theorem iff : Triple m s Q F ↔ (∀ a s', m s = (.ok a, s') → Q a s') ∧
    ((∀ a, (m s).1 ≠ .ok a) → F (m s).2) := by
  unfold Triple
  rcases m s with ⟨_ | _ | _ | _, s'⟩ <;> simp

theorem run (h : Triple m s Q F) {a : α} {s' : σ} (hm : m s = (.ok a, s')) : Q a s' :=
  (iff.mp h).1 a s' hm

/-- What holds however the call ends. -/
theorem final (h : Triple m s Q F) {R : σ → Prop} (hQ : ∀ a s', Q a s' → R s')
    (hF : ∀ s', F s' → R s') : R (m s).2 := by
  unfold Triple at h
  rcases hm : m s with ⟨_ | _ | _ | _, s'⟩ <;> rw [hm] at h
  · exact hQ _ _ h
  all_goals exact hF _ h

/-- With one condition on every way to end, a triple is a fact about the last state. -/
theorem state_iff : Triple m s (fun _ => F) F ↔ F (m s).2 := by
  refine ⟨fun h => h.final (fun _ _ h => h) fun _ h => h, fun h => ?_⟩
  unfold Triple
  rcases hm : m s with ⟨_ | _ | _ | _, s'⟩ <;> rw [hm] at h <;> exact h

theorem mono (h : Triple m s Q F) (hQ : ∀ a s', Q a s' → Q' a s')
    (hF : ∀ s', F s' → F' s') : Triple m s Q' F' := by
  unfold Triple at h ⊢
  rcases hm : m s with ⟨_ | _ | _ | _, s'⟩ <;> rw [hm] at h
  · exact hQ _ _ h
  all_goals exact hF _ h

theorem pure {a : α} (h : Q a s) : Triple (pure a) s Q F := h

theorem fail {e : String} (h : F s) : Triple (Go.fail e : Go σ α) s Q F := h

theorem lift {o : Outcome α} (hQ : ∀ a, o = .ok a → Q a s) (hF : F s) :
    Triple (Go.lift o) s Q F := by
  unfold Triple
  cases o with
  | ok a => exact hQ a rfl
  | _ => exact hF

theorem modify {f : σ → σ} {Q : Unit → σ → Prop} (h : Q () (f s)) :
    Triple (Go.modify f) s Q F := h

theorem bind {f : α → Go σ β} {R : β → σ → Prop} (hm : Triple m s Q F)
    (hf : ∀ a s', Q a s' → Triple (f a) s' R F) : Triple (m >>= f) s R F := by
  unfold Triple at hm
  unfold Triple
  rw [Go.bind_apply]
  rcases h : m s with ⟨_ | _ | _ | _, s'⟩ <;> rw [h] at hm
  · exact hf _ _ hm
  all_goals exact hm

theorem attempt {R : Except String α → σ → Prop} (h : Triple m s (fun a => R (.ok a)) F)
    (hF : ∀ s', F s' → ∀ e, R (.error e) s') : Triple (Go.attempt m) s R F := by
  unfold Triple at h ⊢
  rw [Go.attempt_apply]
  rcases hm : m s with ⟨_ | _ | _ | _, s'⟩ <;> rw [hm] at h
  · exact h
  · exact hF _ h _
  all_goals exact h

theorem wrap {g : String → String} (h : Triple m s Q F) : Triple (Go.wrap g m) s Q F := by
  unfold Triple at h ⊢
  unfold Go.wrap
  rcases hm : m s with ⟨_ | _ | _ | _, s'⟩ <;> rw [hm] at h <;> exact h

/-- A call on one component ends in what that call makes of the component. -/
theorem zoom {get : τ → σ} {put : τ → σ → τ} {t : τ} {R : α → τ → Prop} {G : τ → Prop}
    (hQ : ∀ a s', m (get t) = (.ok a, s') → R a (put t s')) (hF : G (put t (m (get t)).2)) :
    Triple (Go.zoom get put m) t R G := by
  unfold Triple
  rw [Go.zoom_apply]
  rcases hm : m (get t) with ⟨_ | _ | _ | _, s'⟩ <;> rw [hm] at hF
  · exact hQ _ _ hm
  all_goals exact hF

/-- Loop rule: the invariant speaks of the part of the list already consumed. -/
theorem foldlM {f : β → α → Go σ β} {xs : List α} {b : β} (I : List α → β → σ → Prop)
    (hI : I [] b s)
    (hf : ∀ pre x post b s, xs = pre ++ x :: post → I pre b s →
      Triple (f b x) s (I (pre ++ [x])) F) :
    Triple (xs.foldlM f b) s (I xs) F := by
  suffices H : ∀ (pre post : List α) (b : β) (s : σ), xs = pre ++ post → I pre b s →
      Triple (post.foldlM f b) s (I xs) F from H [] xs b s rfl hI
  intro pre post
  induction post generalizing pre with
  | nil =>
    intro b s hxs h
    simp only [List.append_nil] at hxs
    subst hxs
    exact h
  | cons x post ih =>
    intro b s hxs h
    rw [List.foldlM_cons]
    refine bind (hf pre x post b s hxs h) ?_
    intro b' s' h'
    exact ih (pre ++ [x]) b' s' (by simp [hxs]) h'

end Triple

end Golang

import Mathlib.Algebra.Order.Group.Nat
import Mathlib.Tactic.Push

/-! Labelled transition systems: invariants of reachable states, and progress of fair runs. -/
namespace Transition

variable {S L : Type}

/-- States reached by finitely many steps. -/
inductive Leads (step : S → L → S → Prop) (s : S) : S → Prop
  | refl : Leads step s s
  | tail {t u : S} {a : L} (h : Leads step s t) (hstep : step t a u) : Leads step s u

/-- A run, with stuttering where nothing happens. -/
structure Run (S L : Type) where
  state : ℕ → S
  event : ℕ → Option L

def Enabled (step : S → L → S → Prop) (a : L) (s : S) : Prop := ∃ t, step s a t

namespace Run

/-- Each event is a step. -/
structure Valid (step : S → L → S → Prop) (r : Run S L) : Prop where
  stutters : ∀ n, r.event n = none → r.state (n + 1) = r.state n
  steps : ∀ n a, r.event n = some a → step (r.state n) a (r.state (n + 1))

/-- An event of `own` that is possible again and again happens again and again; the others may
never happen. -/
def Fair (step : S → L → S → Prop) (own : L → Prop) (r : Run S L) : Prop :=
  ∀ a, own a → (∀ n, ∃ m ≥ n, Enabled step a (r.state m)) → ∀ n, ∃ m ≥ n, r.event m = some a

end Run

section
variable {step : S → L → S → Prop} {s t u : S} {P : S → Prop}

/-- What every step keeps holds wherever a run gets. -/
theorem Leads.invariant (hstep : ∀ s a t, P s → step s a t → P t) (h : Leads step s t)
    (hs : P s) : P t := by
  induction h with
  | refl => exact hs
  | tail _ hone ih => exact hstep _ _ _ ih hone

theorem Leads.eq_or_step (h : Leads step s t) :
    s = t ∨ ∃ a u, step s a u ∧ Leads step u t := by
  induction h with
  | refl => exact Or.inl rfl
  | tail _ hone ih =>
    rcases ih with rfl | ⟨a, u, hfirst, hrest⟩
    · exact Or.inr ⟨_, _, hone, .refl⟩
    · exact Or.inr ⟨a, u, hfirst, hrest.tail hone⟩

theorem Leads.trans (h : Leads step s t) (h' : Leads step t u) : Leads step s u := by
  induction h' with
  | refl => exact h
  | tail _ hone ih => exact ih.tail hone

end

namespace Run

variable {step : S → L → S → Prop} {own : L → Prop} {r : Run S L} {P : S → Prop} {m n : ℕ}

theorem Valid.succ (h : r.Valid step) (n : ℕ) :
    r.state (n + 1) = r.state n ∨
      ∃ a, r.event n = some a ∧ step (r.state n) a (r.state (n + 1)) := by
  cases he : r.event n with
  | none => exact Or.inl (h.stutters n he)
  | some a => exact Or.inr ⟨a, rfl, h.steps n a he⟩

theorem Valid.leads (h : r.Valid step) (hmn : m ≤ n) :
    Leads step (r.state m) (r.state n) := by
  induction n, hmn using Nat.le_induction with
  | base => exact .refl
  | succ n _ ih =>
    rcases h.succ n with heq | ⟨a, -, hstep⟩
    · rwa [heq]
    · exact ih.tail hstep

/-- What every step keeps holds from then on. -/
theorem Valid.stable (h : r.Valid step) (hstep : ∀ s a t, P s → step s a t → P t)
    (hmn : m ≤ n) (hm : P (r.state m)) : P (r.state n) :=
  (h.leads hmn).invariant hstep hm

theorem often_of_always {a : L} (h : ∀ k ≥ m, Enabled step a (r.state k)) (j : ℕ) :
    ∃ k ≥ j, Enabled step a (r.state k) :=
  ⟨max j m, le_max_left j m, h _ (le_max_right j m)⟩

/-- An event that stays possible until it happens does happen. -/
theorem Fair.happens (hfair : r.Fair step own) {a : L} (ha : own a) (n : ℕ)
    (h : ∀ m ≥ n, (∀ k, n ≤ k → k < m → r.event k ≠ some a) → Enabled step a (r.state m)) :
    ∃ m ≥ n, r.event m = some a := by
  by_contra hnever
  push Not at hnever
  have hpossible : ∀ k, ∃ m ≥ k, Enabled step a (r.state m) := by
    intro k
    refine ⟨max k n, le_max_left k n, h _ (le_max_right k n) ?_⟩
    exact fun j hj _ => hnever j hj
  obtain ⟨m, hm, he⟩ := hfair a ha hpossible n
  exact hnever m hm he

/-- Progress by a rank that never rises: where it stays, some event that lowers it is possible
again and again. -/
theorem Fair.eventually (hfair : r.Fair step own) {Q : S → Prop} (rank : S → ℕ) {n : ℕ}
    (hmono : ∀ m ≥ n, rank (r.state (m + 1)) ≤ rank (r.state m))
    (hhelp : ∀ m ≥ n, (∀ k ≥ m, ¬ Q (r.state k)) →
      (∀ k ≥ m, rank (r.state k) = rank (r.state m)) →
      ∃ a, own a ∧ (∀ j, ∃ k ≥ j, Enabled step a (r.state k)) ∧
        ∀ k ≥ m, r.event k = some a → rank (r.state (k + 1)) < rank (r.state k)) :
    ∃ m ≥ n, Q (r.state m) := by
  by_contra hnever
  push Not at hnever
  have hdown : ∀ m ≥ n, ∀ k ≥ m, rank (r.state k) ≤ rank (r.state m) := by
    intro m hm k hk
    induction k, hk using Nat.le_induction with
    | base => exact le_rfl
    | succ k hk ih => exact (hmono k (hm.trans hk)).trans ih
  have hfalls : ∀ m ≥ n, ∃ k ≥ m, rank (r.state k) < rank (r.state m) := by
    intro m hm
    by_contra hstays
    push Not at hstays
    have hsame : ∀ k ≥ m, rank (r.state k) = rank (r.state m) :=
      fun k hk => le_antisymm (hdown m hm k hk) (hstays k hk)
    obtain ⟨a, ha, hpossible, hlowers⟩ := hhelp m hm (fun k hk => hnever k (ge_trans hk hm)) hsame
    obtain ⟨k, hk, he⟩ := hfair a ha hpossible m
    have hlow := hlowers k hk he
    rw [hsame k hk, hsame (k + 1) (by omega)] at hlow
    exact lt_irrefl _ hlow
  have hnone : ∀ d, ∀ m ≥ n, rank (r.state m) < d → False := by
    intro d
    induction d with
    | zero => exact fun _ _ hd => Nat.not_lt_zero _ hd
    | succ d ih =>
      intro m hm hd
      obtain ⟨k, hk, hlt⟩ := hfalls m hm
      exact ih k (ge_trans hk hm) (by omega)
  exact hnone _ n le_rfl (Nat.lt_succ_self _)

/-- A step before a run. -/
def cons (s : S) (a : L) (r : Run S L) : Run S L where
  state
    | 0 => s
    | n + 1 => r.state n
  event
    | 0 => some a
    | n + 1 => r.event n

theorem Valid.cons {s : S} {a : L} (h : r.Valid step) (hs : step s a (r.state 0)) :
    (r.cons s a).Valid step where
  stutters n he := by
    cases n with
    | zero => cases he
    | succ n => exact h.stutters n he
  steps n b he := by
    cases n with
    | zero =>
      cases he
      exact hs
    | succ n => exact h.steps n b he

theorem Fair.cons (h : r.Fair step own) (s : S) (a : L) : (r.cons s a).Fair step own := by
  intro b hb hoften n
  have hoften' : ∀ n, ∃ m ≥ n, Enabled step b (r.state m) := by
    intro n
    obtain ⟨m, hm, henabled⟩ := hoften (n + 1)
    obtain ⟨m, rfl⟩ : ∃ k, m = k + 1 := ⟨m - 1, by omega⟩
    exact ⟨m, by omega, henabled⟩
  obtain ⟨m, hm, he⟩ := h b hb hoften' n
  exact ⟨m + 1, by omega, he⟩

/-- A valid and fair run from `s` that comes to `t`. -/
structure Ends (step : S → L → S → Prop) (own : L → Prop) (s t : S) (r : Run S L) : Prop where
  starts : r.state 0 = s
  valid : r.Valid step
  fair : r.Fair step own
  before : ∀ n, Leads step (r.state n) t
  ends : ∃ n, r.state n = t

theorem Ends.cons {s t u : S} {a : L} (h : r.Ends step own u t) (hs : step s a u) :
    (r.cons s a).Ends step own s t where
  starts := rfl
  valid := h.valid.cons (h.starts ▸ hs)
  fair := h.fair.cons s a
  before
    | 0 => Leads.trans (.tail .refl hs) (h.starts ▸ h.before 0)
    | n + 1 => h.before n
  ends := by
    obtain ⟨n, hn⟩ := h.ends
    exact ⟨n + 1, hn⟩

/-- Steps before a run, which it goes on from. -/
theorem Ends.prepend {s t u : S} (h : Leads step s u) (hr : r.Ends step own u t) :
    ∃ r' : Run S L, r'.Ends step own s t ∧ ∃ k, ∀ n, r'.state (k + n) = r.state n := by
  induction h generalizing r with
  | refl => exact ⟨r, hr, 0, fun n => by rw [Nat.zero_add]⟩
  | tail _ hone ih =>
    obtain ⟨r', hr', k, hk⟩ := ih (hr.cons hone)
    refine ⟨r', hr', k + 1, fun n => ?_⟩
    rw [Nat.add_assoc, Nat.add_comm 1 n]
    exact hk (n + 1)

/-- A finite run to a state where nothing is owed is a fair one. -/
theorem exists_ends (own : L → Prop) {s t : S} (h : Leads step s t)
    (hend : ∀ a, own a → ¬ Enabled step a t) : ∃ r : Run S L, r.Ends step own s t := by
  have hlast : (⟨fun _ => t, fun _ => none⟩ : Run S L).Ends step own t t := by
    refine ⟨rfl, ⟨fun _ _ => rfl, nofun⟩, ?_, fun _ => .refl, 0, rfl⟩
    intro a ha hoften n
    obtain ⟨m, -, henabled⟩ := hoften n
    exact absurd henabled (hend a ha)
  obtain ⟨r, hr, -⟩ := hlast.prepend h
  exact ⟨r, hr⟩

/-- A run along any schedule of steps that are always possible. -/
theorem exists_scheduled (schedule : ℕ → L) {s : S}
    (hstep : ∀ n s, P s → ∃ t, step s (schedule n) t ∧ P t) (hs : P s) :
    ∃ r : Run S L, r.state 0 = s ∧ r.Valid step ∧ (∀ n, r.event n = some (schedule n)) := by
  choose! next hnext using hstep
  let states (n : ℕ) : S := n.rec s fun n t => next n t
  have hstates : ∀ n, P (states n) := by
    intro n
    induction n with
    | zero => exact hs
    | succ n ih => exact (hnext n _ ih).2
  refine ⟨⟨states, fun n => some (schedule n)⟩, rfl, ⟨nofun, ?_⟩, fun _ => rfl⟩
  intro n a ha
  cases ha
  exact (hnext n _ (hstates n)).1

end Run

section
variable {α : Type} {f : α → ℕ} {threads : List α} {i : ℕ} {a : α}

/-- A quantity summed over the threads of a state. -/
def total (f : α → ℕ) : List α → ℕ
  | [] => 0
  | a :: threads => f a + total f threads

theorem total_concat (threads : List α) (a : α) :
    total f (threads ++ [a]) = total f threads + f a := by
  induction threads with
  | nil => simp [total]
  | cons b threads ih =>
    simp only [List.cons_append, total, ih]
    omega

theorem total_map {β : Type} (f : β → ℕ) (g : α → β) (threads : List α) :
    total f (threads.map g) = total (fun a => f (g a)) threads := by
  induction threads with
  | nil => rfl
  | cons a threads ih => simp only [List.map_cons, total, ih]

/-- One thread moves. -/
theorem total_set (h : threads[i]? = some a) (b : α) :
    total f (threads.set i b) + f a = total f threads + f b := by
  induction threads generalizing i with
  | nil => simp at h
  | cons c threads ih =>
    cases i with
    | zero =>
      obtain rfl : c = a := by simpa using h
      simp only [List.set_cons_zero, total]
      omega
    | succ i =>
      have := ih (i := i) (by simpa using h)
      simp only [List.set_cons_succ, total]
      omega

/-- One thread moves and keeps what `g` says of it. -/
theorem map_set_of_eq {β : Type} {g : α → β} (h : threads[i]? = some a) (b : α) (hb : g b = g a) :
    (threads.set i b).map g = threads.map g := by
  induction threads generalizing i with
  | nil => rfl
  | cons c threads ih =>
    cases i with
    | zero =>
      obtain rfl : c = a := by simpa using h
      simp [hb]
    | succ i =>
      have := ih (i := i) (by simpa using h)
      simp [this]

theorem total_eq_zero (h : ∀ a ∈ threads, f a = 0) : total f threads = 0 := by
  induction threads with
  | nil => rfl
  | cons a threads ih =>
    rw [total, h a List.mem_cons_self, ih fun b hb => h b (List.mem_cons_of_mem a hb)]

theorem le_total (h : threads[i]? = some a) : f a ≤ total f threads := by
  induction threads generalizing i with
  | nil => simp at h
  | cons b threads ih =>
    cases i with
    | zero =>
      obtain rfl : b = a := by simpa using h
      exact Nat.le_add_right ..
    | succ i =>
      have := ih (i := i) (by simpa using h)
      simp only [total]
      omega

end

end Transition

import Mathlib.Data.List.Basic

/-! Transactions of several messages: all of them or none, against each one that can. -/
namespace Ledger

section
variable {μ τ ε : Type} (exec : μ → τ → Except ε τ)

/-- The messages one after the other, all or none; the first that fails gives its position and
its error. -/
def execAll : List μ → τ → Except (ℕ × ε) τ
  | [], s => .ok s
  | m :: msgs, s =>
    match exec m s with
    | .error e => .error (0, e)
    | .ok s' => (execAll msgs s').mapError fun failed => (failed.1 + 1, failed.2)

/-- The messages one after the other, without those that fail. -/
def bestEffort : List μ → τ → τ
  | [], s => s
  | m :: msgs, s =>
    match exec m s with
    | .error _ => bestEffort msgs s
    | .ok s' => bestEffort msgs s'

/-- The messages that do not fail. -/
def executed : List μ → τ → List μ
  | [], _ => []
  | m :: msgs, s =>
    match exec m s with
    | .error _ => executed msgs s
    | .ok s' => m :: executed msgs s'

/-- The errors of the others, each with the number of messages executed before it. -/
def refusals : List μ → τ → List (ℕ × ε)
  | [], _ => []
  | m :: msgs, s =>
    match exec m s with
    | .error e => (0, e) :: refusals msgs s
    | .ok s' => (refusals msgs s').map fun failed => (failed.1 + 1, failed.2)

end

section
variable {μ τ ε : Type} {exec : μ → τ → Except ε τ} {m : μ} {msgs : List μ} {s s' : τ} {e : ε}
  {i : ℕ}

section
variable (h : exec m s = .error e)
include h

theorem execAll_cons_error : execAll exec (m :: msgs) s = .error (0, e) := by
  simp only [execAll, h]

theorem bestEffort_cons_error : bestEffort exec (m :: msgs) s = bestEffort exec msgs s := by
  simp only [bestEffort, h]

theorem executed_cons_error : executed exec (m :: msgs) s = executed exec msgs s := by
  simp only [executed, h]

theorem refusals_cons_error : refusals exec (m :: msgs) s = (0, e) :: refusals exec msgs s := by
  simp only [refusals, h]

end

section
variable (h : exec m s = .ok s')
include h

theorem execAll_cons_ok : execAll exec (m :: msgs) s =
    (execAll exec msgs s').mapError fun failed => (failed.1 + 1, failed.2) := by
  simp only [execAll, h]

theorem bestEffort_cons_ok : bestEffort exec (m :: msgs) s = bestEffort exec msgs s' := by
  simp only [bestEffort, h]

theorem executed_cons_ok : executed exec (m :: msgs) s = m :: executed exec msgs s' := by
  simp only [executed, h]

theorem refusals_cons_ok : refusals exec (m :: msgs) s =
    (refusals exec msgs s').map fun failed => (failed.1 + 1, failed.2) := by
  simp only [refusals, h]

end

theorem length_executed (exec : μ → τ → Except ε τ) (msgs : List μ) (s : τ) :
    (executed exec msgs s).length + (refusals exec msgs s).length = msgs.length := by
  induction msgs generalizing s with
  | nil => rfl
  | cons m msgs ih =>
    cases h : exec m s with
    | error e =>
      rw [executed_cons_error h, refusals_cons_error h, List.length_cons, List.length_cons, ← ih s]
      omega
    | ok s' =>
      rw [executed_cons_ok h, refusals_cons_ok h, List.length_map, List.length_cons,
        List.length_cons, ← ih s']
      omega

/-- Where every message is refused, nothing happens. -/
theorem bestEffort_of_executed_nil (h : executed exec msgs s = []) :
    bestEffort exec msgs s = s := by
  induction msgs with
  | nil => rfl
  | cons m msgs ih =>
    cases hm : exec m s with
    | error e =>
      rw [executed_cons_error hm] at h
      rw [bestEffort_cons_error hm, ih h]
    | ok s' => simp [executed_cons_ok hm] at h

/-- What a whole batch needs: no message is refused. -/
theorem execAll_of_refusals_nil (h : refusals exec msgs s = []) :
    execAll exec msgs s = .ok (bestEffort exec msgs s) ∧ executed exec msgs s = msgs := by
  induction msgs generalizing s with
  | nil => exact ⟨rfl, rfl⟩
  | cons m msgs ih =>
    cases hm : exec m s with
    | error e => simp [refusals_cons_error hm] at h
    | ok s' =>
      rw [refusals_cons_ok hm, List.map_eq_nil_iff] at h
      obtain ⟨hall, hsame⟩ := ih h
      rw [execAll_cons_ok hm, hall, bestEffort_cons_ok hm, executed_cons_ok hm, hsame]
      exact ⟨rfl, rfl⟩

/-- Without the message that fails first, the others do what they did with it. -/
theorem execAll_of_refusals_cons {rest : List (ℕ × ε)}
    (h : refusals exec msgs s = (i, e) :: rest) :
    execAll exec msgs s = .error (i, e) ∧ i < msgs.length ∧
      refusals exec (msgs.eraseIdx i) s = rest ∧
      bestEffort exec (msgs.eraseIdx i) s = bestEffort exec msgs s ∧
      executed exec (msgs.eraseIdx i) s = executed exec msgs s := by
  induction msgs generalizing s i rest with
  | nil => cases h
  | cons m msgs ih =>
    cases hm : exec m s with
    | error e' =>
      rw [refusals_cons_error hm] at h
      cases h
      rw [bestEffort_cons_error hm, executed_cons_error hm]
      exact ⟨execAll_cons_error hm, by simp, rfl, rfl, rfl⟩
    | ok s' =>
      rw [refusals_cons_ok hm] at h
      obtain ⟨⟨j, e'⟩, rest', hrest, hfirst, rfl⟩ := List.map_eq_cons_iff.mp h
      cases hfirst
      obtain ⟨hall, hlt, hrefusals, hbest, hexecuted⟩ := ih hrest
      rw [List.eraseIdx_cons_succ, execAll_cons_ok hm, hall, bestEffort_cons_ok hm,
        bestEffort_cons_ok hm, executed_cons_ok hm, executed_cons_ok hm, refusals_cons_ok hm,
        hbest, hexecuted, hrefusals]
      exact ⟨rfl, by simpa using hlt, rfl, rfl, rfl⟩

end

end Ledger

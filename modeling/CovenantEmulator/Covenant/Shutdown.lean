import CovenantEmulator.Covenant.DaemonSafety

/-! Fair runs of the daemon: which calls return, and what an interval that is not positive does. -/
namespace CovenantEmulator

open Golang Transition

/-- The steps that the scheduler owes the process. What is called, when the tickers fire, whether a
metrics server fails and what the rest of the world does is left open. -/
def DaemonEvent.own {ι : Type} : DaemonEvent ι → Prop
  | .call _ | .tick _ | .update _ | .serverFails _ | .signal | .outside => False
  | .proceed _ | .startInstr | .stopInstr | .newTicker _ | .tickEnd _ | .quit _ | .done _
  | .serverClosed _ => True

/-- The steps that take a loop or one of the two functions nearer to its end. -/
def DaemonEvent.advances {ι : Type} : DaemonEvent ι → Prop
  | .startInstr | .stopInstr | .newTicker _ | .quit _ | .done _ => True
  | _ => False

def Once.startRank : Once StartInstr → ℕ
  | .fresh => 12
  | .busy .add => 11
  | .busy .spawnSubmission => 10
  | .busy .spawnMetrics => 5
  | .done => 0

def Once.stopRank : Once StopInstr → ℕ
  | .fresh => 3
  | .busy .close => 2
  | .busy .wait => 1
  | .done => 0

/-- A loop may tick as often as it likes. -/
def LoopPc.rank : LoopPc → ℕ
  | .created => 4
  | .selecting | .ticking => 3
  | .leaving => 2
  | .finished => 0

def LoopPc.settled : LoopPc → LoopPc
  | .ticking => .selecting
  | pc => pc

section
variable {σ ι : Type}

def DaemonState.rank (s : DaemonState σ ι) : ℕ :=
  s.startOnce.startRank + s.stopOnce.stopRank + total (fun l => l.pc.rank) s.loops

/-- The same state but for ticks and for what the callers do. -/
structure SamePhase (s t : DaemonState σ ι) : Prop where
  start : t.startOnce = s.startOnce
  stop : t.stopOnce = s.stopOnce
  loops : t.loops.map (fun l => (l.kind, l.pc.settled)) =
    s.loops.map fun l => (l.kind, l.pc.settled)

theorem LoopPc.rank_settled (pc : LoopPc) : pc.settled.rank = pc.rank := by
  cases pc <;> rfl

theorem SamePhase.refl (s : DaemonState σ ι) : SamePhase s s := ⟨rfl, rfl, rfl⟩

theorem SamePhase.trans {s t u : DaemonState σ ι} (h : SamePhase s t) (h' : SamePhase t u) :
    SamePhase s u :=
  ⟨h'.start.trans h.start, h'.stop.trans h.stop, h'.loops.trans h.loops⟩

theorem SamePhase.symm {s t : DaemonState σ ι} (h : SamePhase s t) : SamePhase t s :=
  ⟨h.start.symm, h.stop.symm, h.loops.symm⟩

theorem SamePhase.rank {s t : DaemonState σ ι} (h : SamePhase s t) : t.rank = s.rank := by
  have hloops : ∀ s : DaemonState σ ι, total (fun l => l.pc.rank) s.loops =
      total (fun p => p.2.rank) (s.loops.map fun l => (l.kind, l.pc.settled)) := by
    intro s
    simp only [total_map, LoopPc.rank_settled]
  rw [DaemonState.rank, DaemonState.rank, h.start, h.stop, hloops, hloops, h.loops]

/-- A loop that has not got further is where it was, up to ticks. -/
theorem SamePhase.loop {s t : DaemonState σ ι} (h : SamePhase s t) {i : ℕ} {kind : LoopKind}
    {pc : LoopPc} (hi : s.loops[i]? = some ⟨kind, pc⟩) :
    ∃ pc', t.loops[i]? = some ⟨kind, pc'⟩ ∧ pc'.settled = pc.settled := by
  have hat := congrArg (·[i]?) h.loops
  simp only [List.getElem?_map, hi, Option.map_some, Option.map_eq_some_iff, Prod.mk.injEq] at hat
  obtain ⟨⟨kind', pc'⟩, hi', rfl, hpc⟩ := hat
  exact ⟨pc', hi', hpc⟩

/-- The loops that have returned are not running. -/
theorem SamePhase.running_eq_zero {s t : DaemonState σ ι} (h : SamePhase s t)
    (hloops : ∀ (i : ℕ) (kind : LoopKind) (pc : LoopPc), s.loops[i]? = some ⟨kind, pc⟩ →
      pc = .finished) : total Loop.running t.loops = 0 := by
  refine total_eq_zero fun l hl => ?_
  obtain ⟨i, hi⟩ := List.mem_iff_getElem?.mp hl
  obtain ⟨pc, hpc, hsettled⟩ := h.symm.loop hi
  rw [hloops i l.kind pc hpc] at hsettled
  have hfinished : l.pc = .finished := by
    cases hl : l.pc with
    | finished => rfl
    | created | selecting | ticking | leaving =>
      rw [hl] at hsettled
      cases hsettled
  rw [Loop.running, if_pos hfinished]

theorem rank_loopAt_lt {s : DaemonState σ ι} {i : ℕ} {kind : LoopKind} {pc pc' : LoopPc}
    (hi : s.loops[i]? = some ⟨kind, pc⟩) (hlt : pc'.rank < pc.rank) :
    (s.loopAt i kind pc').rank < s.rank := by
  have hsum := total_set (f := fun l : Loop => l.pc.rank) hi ⟨kind, pc'⟩
  simp only [DaemonState.rank, DaemonState.loopAt] at hsum ⊢
  omega

/-- How a loop gets from one place to the next. -/
inductive LoopStep (d : Daemon σ ι) (i : ℕ) (kind : LoopKind) :
    DaemonEvent ι → LoopPc → LoopPc → Prop
  | stays (a : DaemonEvent ι) (pc : LoopPc) : LoopStep d i kind a pc pc
  | newTicker (hpos : 0 < d.interval kind) : LoopStep d i kind (.newTicker i) .created .selecting
  | tick : LoopStep d i kind (.tick i) .selecting .ticking
  | tickEnd : LoopStep d i kind (.tickEnd i) .ticking .selecting
  | quit : LoopStep d i kind (.quit i) .selecting .leaving
  | done : LoopStep d i kind (.done i) .leaving .finished

theorem loopStep_of_set {d : Daemon σ ι} {s : DaemonState σ ι} {a : DaemonEvent ι} {i j : ℕ}
    {kind kind' : LoopKind} {pc pc' pc'' : LoopPc}
    (hi : s.loops[i]? = some ⟨kind, pc⟩) (hj : s.loops[j]? = some ⟨kind', pc'⟩)
    (hstep : i = j → LoopStep d j kind' a pc' pc'') :
    ∃ next, (s.loops.set j ⟨kind', pc''⟩)[i]? = some ⟨kind, next⟩ ∧
      LoopStep d i kind a pc next := by
  by_cases hij : i = j
  · subst hij
    obtain ⟨rfl, rfl⟩ : kind = kind' ∧ pc = pc' := by simpa [hi] using hj
    have hlt := (List.getElem?_eq_some_iff.mp hi).1
    exact ⟨pc'', by simp [hlt], hstep rfl⟩
  · refine ⟨pc, ?_, .stays a pc⟩
    rw [List.getElem?_set_ne (Ne.symm hij), hi]

/-- A goroutine is past the first statement of the call it is in. -/
inductive Enters (s t : DaemonState σ ι) (inside inside' : Bool) : Call → Prop
  | start (h : s.startOnce = .fresh) (h' : t.startOnce ≠ .fresh) : Enters s t inside inside' .start
  | stop (h : s.stopOnce = .fresh) (h' : t.stopOnce ≠ .fresh) : Enters s t inside inside' .stop
  | checkReadiness (h : inside = false) (h' : inside' = true) :
    Enters s t inside inside' .checkReadiness
  | stopServer (h : inside = false) (h' : inside' = true) : Enters s t inside inside' .stopServer

/-- `CheckReadiness` and `ps.Stop` are left from inside only. -/
theorem Enters.statements {s t : DaemonState σ ι} {inside inside' : Bool} {x : Call}
    (h : Enters s t inside inside' x) (hx : x = .checkReadiness ∨ x = .stopServer) :
    inside = false ∧ inside' = true := by
  cases h with
  | start _ _ | stop _ _ => simp at hx
  | checkReadiness h h' | stopServer h h' => exact ⟨h, h'⟩

theorem Daemon.addressed_todo (d : Daemon σ ι) (rest : List Call) (result : Except String Unit) :
    (d.addressed rest result).todo <:+ rest := by
  unfold Daemon.addressed
  split
  · exact List.nil_suffix
  · exact List.suffix_refl rest

end

section
variable {σ ι : Type} [DecidableEq ι] {d : Daemon σ ι} {s t : DaemonState σ ι}
  {a : DaemonEvent ι} {i : ℕ} {kind : LoopKind} {pc : LoopPc} {c : ι}

/-- No step leads back. -/
theorem Daemon.Move.descends (h : d.Move s a t) (hup : t.crashed = none) :
    t.rank < s.rank ∨ SamePhase s t ∧ ¬ a.advances := by
  cases h with
  | call _ | leaveStart _ _ | leaveStop _ _ | count _ | address _ | startServer _
  | awaitShutdown _ _ | shutdownServer _ | serverStopped _ _ | serverClosed _ | notRunning _ _
  | running _ _ | probe _ _ | update _ | signal | outside _ =>
    exact .inr ⟨⟨rfl, rfl, rfl⟩, id⟩
  | closeTwice _ _ | badTicker _ _ | tickPanics _ _ | doneTwice _ _ | serverFails _ _ _ =>
    cases hup
  | enterStart _ honce | add honce =>
    left
    simp only [DaemonState.rank, DaemonState.goes, honce, Once.startRank]
    omega
  | spawnSubmission honce | spawnMetrics honce =>
    left
    simp only [DaemonState.rank, total_concat, honce, Once.startRank, LoopPc.rank]
    omega
  | enterStop _ honce | close honce _ | wait honce _ =>
    left
    simp only [DaemonState.rank, DaemonState.goes, honce, Once.stopRank]
    omega
  | newTicker hi _ | quit hi _ | done hi _ => exact .inl (rank_loopAt_lt hi (by decide))
  | tick hi | tickEnd hi _ =>
    right
    exact ⟨⟨rfl, rfl, map_set_of_eq hi _ rfl⟩, id⟩

theorem Daemon.Move.loop (h : d.Move s a t) (hi : s.loops[i]? = some ⟨kind, pc⟩) :
    ∃ pc', t.loops[i]? = some ⟨kind, pc'⟩ ∧ LoopStep d i kind a pc pc' := by
  cases h with
  | spawnSubmission _ | spawnMetrics _ =>
    refine ⟨pc, ?_, .stays _ pc⟩
    exact List.getElem?_append_left (List.getElem?_eq_some_iff.mp hi).1 ▸ hi
  | newTicker hj hpos => exact loopStep_of_set hi hj fun _ => .newTicker hpos
  | tick hj => exact loopStep_of_set hi hj fun _ => .tick
  | tickEnd hj _ => exact loopStep_of_set hi hj fun _ => .tickEnd
  | quit hj _ => exact loopStep_of_set hi hj fun _ => .quit
  | done hj _ => exact loopStep_of_set hi hj fun _ => .done
  | _ => exact ⟨pc, hi, .stays _ pc⟩

theorem Daemon.Move.started (h : d.Move s a t) (hs : s.startOnce = .done) :
    t.startOnce = .done := by
  cases h with
  | enterStart _ honce | add honce | spawnSubmission honce | spawnMetrics honce =>
    cases honce.symm.trans hs
  | _ => exact hs

theorem Daemon.Move.signalled (h : d.Move s a t) (hs : s.shutdown = true) :
    t.shutdown = true := by
  cases h with
  | signal => rfl
  | _ => exact hs

/-- Nobody else touches a goroutine. -/
theorem Daemon.Move.routine (h : d.Move s a t) {r : Routine} (hc : s.routines c = some r)
    (ha : a ≠ .proceed c) : t.routines c = some r := by
  have hgoes : ∀ (s : DaemonState σ ι) {c' : ι} (r' : Routine), s.routines c = some r →
      a = .proceed c' → (s.goes c' r').routines c = some r := by
    intro s c' r' hc ha'
    rw [DaemonState.routines_goes_of_ne, hc]
    rintro rfl
    exact ha ha'
  cases h with
  | @call c' hidle =>
    rw [DaemonState.routines_goes_of_ne, hc]
    rintro rfl
    cases hidle.symm.trans hc
  | enterStart _ _ | leaveStart _ _ | enterStop _ _ | leaveStop _ _ | count _ | address _
  | startServer _ | awaitShutdown _ _ | shutdownServer _ | serverStopped _ _ | notRunning _ _
  | running _ _ | probe _ _ => exact hgoes _ _ hc rfl
  | _ => exact hc

/-- A goroutine that proceeds finishes the call it is in, or gets into it. -/
theorem Daemon.Move.proceed (h : d.Move s (.proceed c) t) {x : Call} {rest : List Call}
    {inside : Bool} {result : Except String Unit}
    (hc : s.routines c = some ⟨x :: rest, inside, result⟩) :
    ∃ r, t.routines c = some r ∧
      (r.todo <:+ rest ∨ r.todo = x :: rest ∧ Enters s t inside r.inside x) := by
  cases h with
  | enterStart hc' honce =>
    cases hc.symm.trans hc'
    exact ⟨_, DaemonState.routines_goes .., .inr ⟨rfl, .start honce nofun⟩⟩
  | enterStop hc' honce =>
    cases hc.symm.trans hc'
    exact ⟨_, DaemonState.routines_goes .., .inr ⟨rfl, .stop honce nofun⟩⟩
  | running hc' _ =>
    cases hc.symm.trans hc'
    exact ⟨_, DaemonState.routines_goes .., .inr ⟨rfl, .checkReadiness rfl rfl⟩⟩
  | shutdownServer hc' =>
    cases hc.symm.trans hc'
    exact ⟨_, DaemonState.routines_goes .., .inr ⟨rfl, .stopServer rfl rfl⟩⟩
  | count hc' =>
    cases hc.symm.trans hc'
    refine ⟨_, DaemonState.routines_goes .., .inl ?_⟩
    dsimp only
    split
    · exact List.nil_suffix
    · exact List.suffix_refl rest
  | address hc' =>
    cases hc.symm.trans hc'
    exact ⟨_, DaemonState.routines_goes .., .inl (d.addressed_todo rest result)⟩
  | leaveStart hc' _ | leaveStop hc' _ | startServer hc' | awaitShutdown hc' _
  | serverStopped hc' _ | notRunning hc' _ | probe hc' _ =>
    cases hc.symm.trans hc'
    exact ⟨_, DaemonState.routines_goes .., .inl (List.suffix_refl rest)⟩

end

section
variable {σ ι : Type} [DecidableEq ι]

theorem Daemon.Step.up {d : Daemon σ ι} {s t : DaemonState σ ι} (h : Leads d.Step s t)
    (ht : t.crashed = none) : s.crashed = none := by
  rcases h.eq_or_step with rfl | ⟨a, u, hstep, -⟩
  · exact ht
  · exact hstep.1

/-- A run from the start, with a fair scheduler. -/
structure Daemon.FairRun (d : Daemon σ ι) (w : World σ)
    (r : Run (DaemonState σ ι) (DaemonEvent ι)) : Prop where
  starts : r.state 0 = .init w
  valid : r.Valid d.Step
  fair : r.Fair d.Step DaemonEvent.own

/-- Nothing crashes, chain and signer answer, and a metrics server that is being stopped gets rid of
its connections. -/
structure Daemon.Works (d : Daemon σ ι) (r : Run (DaemonState σ ι) (DaemonEvent ι)) : Prop where
  up : ∀ n, (r.state n).crashed = none
  ticks : ∀ n, ∃ fuel w, d.ce.tick fuel (r.state n).world = (.ok (), w)
  probes : ∀ n, ∃ answer env, Go.attempt d.probe (r.state n).world.env = (.ok answer, env)
  drains : ∀ n c rest result, (r.state n).routines c = some ⟨.stopServer :: rest, true, result⟩ →
    ∃ m ≥ n, ∀ k ≥ m, d.idle c (r.state k).world.env

variable {d : Daemon σ ι} {w : World σ} {r : Run (DaemonState σ ι) (DaemonEvent ι)} {m n : ℕ}
  {c : ι} {rest : List Call}

theorem Daemon.FairRun.coherent (h : d.FairRun w r) (n : ℕ) : Coherent (r.state n) := by
  have hreach : d.Reachable w (r.state n) := by
    have := h.valid.leads (Nat.zero_le n)
    rwa [h.starts] at this
  exact hreach.coherent.1

theorem Daemon.FairRun.rank_succ (h : d.FairRun w r) (hup : ∀ n, (r.state n).crashed = none)
    (n : ℕ) : (r.state (n + 1)).rank < (r.state n).rank ∨ SamePhase (r.state n) (r.state (n + 1)) ∧
      ∀ a, r.event n = some a → ¬ a.advances := by
  cases he : r.event n with
  | none => exact .inr ⟨h.valid.stutters n he ▸ .refl _, nofun⟩
  | some a =>
    refine ((h.valid.steps n a he).2.descends (hup _)).imp_right fun ⟨hsame, ha⟩ => ⟨hsame, ?_⟩
    rintro _ ⟨rfl⟩
    exact ha

/-- Where the rank stays, so does the phase. -/
theorem Daemon.FairRun.samePhase (h : d.FairRun w r) (hup : ∀ n, (r.state n).crashed = none)
    (hsame : ∀ k ≥ m, (r.state k).rank = (r.state m).rank) {k : ℕ} (hk : m ≤ k) :
    SamePhase (r.state m) (r.state k) := by
  induction k, hk using Nat.le_induction with
  | base => exact .refl _
  | succ k hk ih =>
    rcases h.rank_succ hup k with hlt | ⟨hphase, -⟩
    · rw [hsame k hk, hsame (k + 1) (by omega)] at hlt
      exact absurd hlt (lt_irrefl _)
    · exact ih.trans hphase

/-- A tick that returns leads back to the `select`. -/
theorem Daemon.FairRun.selects (h : d.FairRun w r) (hw : d.Works r) {i : ℕ} {kind : LoopKind}
    (hi : (r.state n).loops[i]? = some ⟨kind, .ticking⟩) :
    ∃ m ≥ n, (r.state m).loops[i]? = some ⟨kind, .selecting⟩ := by
  have hkind : kind = .submission := (h.coherent n).ticking _ (List.mem_of_getElem? hi) rfl
  subst hkind
  -- The loop stays in its tick until the tick ends.
  have hticking : ∀ m ≥ n, (∀ k, n ≤ k → k < m → r.event k ≠ some (.tickEnd i)) →
      (r.state m).loops[i]? = some ⟨.submission, .ticking⟩ := by
    intro m hm
    induction m, hm using Nat.le_induction with
    | base => exact fun _ => hi
    | succ m hm ih =>
      intro hnone
      have hat := ih fun k hk hlt => hnone k hk (by omega)
      rcases h.valid.succ m with heq | ⟨a, he, -, hmove⟩
      · rwa [heq]
      · obtain ⟨pc, hpc, hstep⟩ := hmove.loop hat
        cases hstep with
        | stays => exact hpc
        | tickEnd => exact absurd he (hnone m hm (by omega))
  obtain ⟨m, hm, he⟩ := h.fair.happens (a := .tickEnd i) trivial n fun m hm hnone => by
    obtain ⟨fuel, w', htick⟩ := hw.ticks m
    exact ⟨_, hw.up m, .tickEnd (hticking m hm hnone) htick⟩
  obtain ⟨-, hmove⟩ := h.valid.steps m _ he
  refine ⟨m + 1, by omega, ?_⟩
  have hup := hw.up (m + 1)
  generalize r.state (m + 1) = t at hmove hup ⊢
  cases hmove with
  | tickEnd hj _ => simp [DaemonState.loopAt, (List.getElem?_eq_some_iff.mp hj).1]
  | tickPanics _ _ => cases hup

/-- The goroutine has not finished its first call. -/
def InCall (s : DaemonState σ ι) (c : ι) (todo : List Call) : Prop :=
  ∃ inside result, s.routines c = some ⟨todo, inside, result⟩

/-- A goroutine stays in its call or finishes it. -/
theorem Daemon.FairRun.inCall_succ (h : d.FairRun w r) {x : Call}
    (hc : InCall (r.state n) c (x :: rest)) :
    InCall (r.state (n + 1)) c (x :: rest) ∨
      ∃ todo, todo <:+ rest ∧ InCall (r.state (n + 1)) c todo := by
  obtain ⟨inside, result, hc⟩ := hc
  rcases h.valid.succ n with heq | ⟨a, -, -, hmove⟩
  · exact .inl ⟨inside, result, heq ▸ hc⟩
  · by_cases ha : a = .proceed c
    · subst ha
      obtain ⟨r', hr', hsuffix | ⟨htodo, -⟩⟩ := hmove.proceed hc
      · exact .inr ⟨r'.todo, hsuffix, r'.inside, r'.result, hr'⟩
      · exact .inl ⟨r'.inside, r'.result, htodo ▸ hr'⟩
    · exact .inl ⟨inside, result, hmove.routine hc ha⟩

/-- A call finishes if the goroutine in it can proceed from some time on, and then leaves it. -/
theorem Daemon.FairRun.leaves (h : d.FairRun w r) {x : Call}
    (hc : InCall (r.state n) c (x :: rest))
    (hready : (∀ k ≥ n, InCall (r.state k) c (x :: rest)) → ∃ m ≥ n, ∀ k ≥ m, ∀ inside result,
      (r.state k).routines c = some ⟨x :: rest, inside, result⟩ →
        Enabled d.Step (.proceed c) (r.state k) ∧
          ∀ t inside', ¬ Enters (r.state k) t inside inside' x) :
    ∃ m ≥ n, ∃ todo, todo <:+ rest ∧ InCall (r.state m) c todo := by
  by_contra hnever
  push Not at hnever
  have hstays : ∀ k ≥ n, InCall (r.state k) c (x :: rest) := by
    intro k hk
    induction k, hk using Nat.le_induction with
    | base => exact hc
    | succ k hk ih =>
      rcases h.inCall_succ ih with hstay | ⟨todo, hsuffix, hleft⟩
      · exact hstay
      · exact absurd hleft (hnever (k + 1) (by omega) todo hsuffix)
  obtain ⟨m, hm, hm'⟩ := hready hstays
  have henabled : ∀ k ≥ m, Enabled d.Step (.proceed c) (r.state k) := by
    intro k hk
    obtain ⟨inside, result, hin⟩ := hstays k (by omega)
    exact (hm' k hk inside result hin).1
  obtain ⟨k, hk, he⟩ := h.fair (.proceed c) trivial (Run.often_of_always henabled) m
  obtain ⟨inside, result, hin⟩ := hstays k (by omega)
  obtain ⟨r', hr', hsuffix | ⟨-, henters⟩⟩ := (h.valid.steps k _ he).2.proceed hin
  · exact hnever (k + 1) (by omega) r'.todo hsuffix ⟨r'.inside, r'.result, hr'⟩
  · exact (hm' k hk inside result hin).2 _ _ henters

/-- Progress by phases: as long as the goal is not reached and the phase stays, some step of the
process that ends the phase is possible again and again. -/
theorem Daemon.FairRun.eventually (h : d.FairRun w r) (hup : ∀ n, (r.state n).crashed = none)
    {Q : DaemonState σ ι → Prop}
    (hhelp : ∀ m ≥ n, (∀ k ≥ m, ¬ Q (r.state k)) → (∀ k ≥ m, SamePhase (r.state m) (r.state k)) →
      ∃ a, a.own ∧ (∀ j, ∃ k ≥ j, Enabled d.Step a (r.state k)) ∧
        (a.advances ∨ ∀ k ≥ m, r.event k = some a → ¬ SamePhase (r.state m) (r.state (k + 1)))) :
    ∃ m ≥ n, Q (r.state m) := by
  refine h.fair.eventually (Q := Q) DaemonState.rank ?_ ?_
  · intro m _
    rcases h.rank_succ hup m with hlt | ⟨hsame, -⟩
    · exact hlt.le
    · exact hsame.rank.le
  · intro m hm hnever hsame
    have hphase := fun k (hk : k ≥ m) => h.samePhase hup hsame hk
    obtain ⟨a, hown, hoften, hends⟩ := hhelp m hm hnever hphase
    refine ⟨a, hown, hoften, fun k hk he => ?_⟩
    rcases h.rank_succ hup k with hlt | ⟨-, hidle⟩
    · exact hlt
    · rcases hends with hadv | hends
      · exact absurd hadv (hidle a he)
      · exact absurd (hphase (k + 1) (by omega)) (hends k hk he)

/-- A goroutine that proceeds and stays in its call has got into it. -/
theorem Daemon.FairRun.enters (h : d.FairRun w r) {x : Call}
    (hc : ∀ k ≥ n, InCall (r.state k) c (x :: rest)) {k : ℕ} (hk : n ≤ k)
    (he : r.event k = some (.proceed c)) {inside : Bool} {result : Except String Unit}
    (hin : (r.state k).routines c = some ⟨x :: rest, inside, result⟩) :
    ∃ inside' result', (r.state (k + 1)).routines c = some ⟨x :: rest, inside', result'⟩ ∧
      Enters (r.state k) (r.state (k + 1)) inside inside' x := by
  obtain ⟨inside', result', hin'⟩ := hc (k + 1) (by omega)
  obtain ⟨r', hr', hstep⟩ := (h.valid.steps k _ he).2.proceed hin
  obtain rfl : r' = ⟨x :: rest, inside', result'⟩ := by simpa [hin'] using hr'.symm
  rcases hstep with hsuffix | ⟨-, henters⟩
  · have hlen := hsuffix.length_le
    rw [List.length_cons] at hlen
    omega
  · exact ⟨inside', result', hin', henters⟩

theorem enabled_startInstr {s : DaemonState σ ι} {next : StartInstr} (hup : s.crashed = none)
    (honce : s.startOnce = .busy next) : Enabled d.Step .startInstr s := by
  cases next with
  | add => exact ⟨_, hup, .add honce⟩
  | spawnSubmission => exact ⟨_, hup, .spawnSubmission honce⟩
  | spawnMetrics => exact ⟨_, hup, .spawnMetrics honce⟩

/-- The function of `Start` returns once a goroutine is in `Start`. -/
theorem Daemon.FairRun.startOnce_done (h : d.FairRun w r)
    (hup : ∀ n, (r.state n).crashed = none)
    (hc : ∀ k ≥ n, InCall (r.state k) c (.start :: rest)) :
    ∃ m ≥ n, (r.state m).startOnce = .done := by
  refine h.eventually (Q := fun s => s.startOnce = .done) hup ?_
  intro m hm hnever hphase
  cases honce : (r.state m).startOnce with
  | fresh =>
    refine ⟨.proceed c, trivial, Run.often_of_always (m := m) fun k hk => ?_,
      .inr fun k hk he hsame => ?_⟩
    · obtain ⟨inside, result, hin⟩ := hc k (by omega)
      exact ⟨_, hup k, .enterStart hin ((hphase k hk).start.trans honce)⟩
    · obtain ⟨inside, result, hin⟩ := hc k (by omega)
      obtain ⟨_, _, -, henters⟩ := h.enters hc (by omega) he hin
      cases henters with
      | start _ hnot => exact hnot (hsame.start.trans honce)
  | busy next =>
    refine ⟨.startInstr, trivial, Run.often_of_always (m := m) fun k hk => ?_, .inl trivial⟩
    exact enabled_startInstr (hup k) ((hphase k hk).start.trans honce)
  | done => exact absurd honce (hnever m le_rfl)

/-- While `Stop` waits, a loop that has not returned gets nearer to it. -/
theorem Daemon.FairRun.loop_helps (h : d.FairRun w r) (hw : d.Works r)
    (hphase : ∀ k ≥ m, SamePhase (r.state m) (r.state k))
    (hwait : (r.state m).stopOnce = .busy .wait) {i : ℕ} {kind : LoopKind} {pc : LoopPc}
    (hi : (r.state m).loops[i]? = some ⟨kind, pc⟩) (hpc : pc ≠ .finished) :
    ∃ a : DaemonEvent ι, a.own ∧ a.advances ∧ ∀ j, ∃ k ≥ j, Enabled d.Step a (r.state k) := by
  have hquit : ∀ k ≥ m, (r.state k).quit = true := by
    intro k hk
    rw [(h.coherent k).quit, (hphase k hk).stop, hwait]
    rfl
  have hat := fun k (hk : k ≥ m) => (hphase k hk).loop hi
  by_cases hselecting : pc.settled = .selecting
  · -- The loop may be in a tick, which returns.
    refine ⟨.quit i, trivial, trivial, fun j => ?_⟩
    obtain ⟨pc', hi', hpc'⟩ := hat (max j m) (le_max_right j m)
    rw [hselecting] at hpc'
    obtain ⟨k, hk, hk'⟩ : ∃ k ≥ max j m, (r.state k).loops[i]? = some ⟨kind, .selecting⟩ := by
      cases pc' with
      | selecting => exact ⟨_, le_rfl, hi'⟩
      | ticking => exact h.selects hw hi'
      | created | leaving | finished => cases hpc'
    have hkm : m ≤ k := (le_max_right j m).trans hk
    exact ⟨k, (le_max_left j m).trans hk, _, hw.up k, .quit hk' (hquit k hkm)⟩
  · have hstays : ∀ k ≥ m, (r.state k).loops[i]? = some ⟨kind, pc⟩ := by
      intro k hk
      obtain ⟨pc', hi', hpc'⟩ := hat k hk
      cases pc <;> cases pc' <;> simp_all [LoopPc.settled]
    cases pc with
    | created =>
      refine ⟨.newTicker i, trivial, trivial, Run.often_of_always (m := m) fun k hk => ?_⟩
      by_cases hpos : 0 < d.interval kind
      · exact ⟨_, hw.up k, .newTicker (hstays k hk) hpos⟩
      · exact ⟨_, hw.up k, .badTicker (hstays k hk) (Int64.not_lt.mp hpos)⟩
    | leaving =>
      refine ⟨.done i, trivial, trivial, Run.often_of_always (m := m) fun k hk => ?_⟩
      exact ⟨_, hw.up k, .done (hstays k hk) ((h.coherent k).wg_pos (hstays k hk) hpc)⟩
    | finished => exact absurd rfl hpc
    | selecting | ticking => exact absurd rfl hselecting

/-- The function of `Stop` returns once a goroutine is in `Stop`. -/
theorem Daemon.FairRun.stopOnce_done (h : d.FairRun w r) (hw : d.Works r)
    (hc : ∀ k ≥ n, InCall (r.state k) c (.stop :: rest)) :
    ∃ m ≥ n, (r.state m).stopOnce = .done := by
  refine h.eventually (Q := fun s => s.stopOnce = .done) hw.up ?_
  intro m hm hnever hphase
  cases honce : (r.state m).stopOnce with
  | fresh =>
    refine ⟨.proceed c, trivial, Run.often_of_always (m := m) fun k hk => ?_,
      .inr fun k hk he hsame => ?_⟩
    · obtain ⟨inside, result, hin⟩ := hc k (by omega)
      exact ⟨_, hw.up k, .enterStop hin ((hphase k hk).stop.trans honce)⟩
    · obtain ⟨inside, result, hin⟩ := hc k (by omega)
      obtain ⟨_, _, -, henters⟩ := h.enters hc (by omega) he hin
      cases henters with
      | stop _ hnot => exact hnot (hsame.stop.trans honce)
  | busy next =>
    cases next with
    | close =>
      refine ⟨.stopInstr, trivial, Run.often_of_always (m := m) fun k hk => ?_, .inl trivial⟩
      have hbusy := (hphase k hk).stop.trans honce
      refine ⟨_, hw.up k, .close hbusy ?_⟩
      rw [(h.coherent k).quit, hbusy]
      rfl
    | wait =>
      by_cases hloops : ∃ (i : ℕ) (kind : LoopKind) (pc : LoopPc),
          (r.state m).loops[i]? = some ⟨kind, pc⟩ ∧ pc ≠ .finished
      · obtain ⟨i, kind, pc, hi, hpc⟩ := hloops
        obtain ⟨a, hown, hadv, hoften⟩ := h.loop_helps hw hphase honce hi hpc
        exact ⟨a, hown, hoften, .inl hadv⟩
      · push Not at hloops
        cases hstart : (r.state m).startOnce with
        | busy next =>
          refine ⟨.startInstr, trivial, Run.often_of_always (m := m) fun k hk => ?_, .inl trivial⟩
          exact enabled_startInstr (hw.up k) ((hphase k hk).start.trans hstart)
        | fresh | done =>
          refine ⟨.stopInstr, trivial, Run.often_of_always (m := m) fun k hk => ?_, .inl trivial⟩
          refine ⟨_, hw.up k, .wait ((hphase k hk).stop.trans honce) ?_⟩
          rw [(h.coherent k).wg, (hphase k hk).start, hstart, (hphase k hk).running_eq_zero hloops]
          rfl
  | done => exact absurd honce (hnever m le_rfl)

/-- A call of two statements that a goroutine does not leave is past the first from some time on. -/
theorem Daemon.FairRun.inside (h : d.FairRun w r) {x : Call}
    (hx : x = .checkReadiness ∨ x = .stopServer)
    (hc : ∀ k ≥ n, InCall (r.state k) c (x :: rest))
    (henabled : ∀ k ≥ n, ∀ result, (r.state k).routines c = some ⟨x :: rest, false, result⟩ →
      Enabled d.Step (.proceed c) (r.state k)) :
    ∃ m ≥ n, ∀ k ≥ m, ∃ result, (r.state k).routines c = some ⟨x :: rest, true, result⟩ := by
  obtain ⟨m, hm, result, hin⟩ : ∃ m ≥ n, ∃ result,
      (r.state m).routines c = some ⟨x :: rest, true, result⟩ := by
    by_contra hnever
    push Not at hnever
    have hbefore : ∀ k ≥ n, ∃ result,
        (r.state k).routines c = some ⟨x :: rest, false, result⟩ := by
      intro k hk
      obtain ⟨inside, result, hin⟩ := hc k hk
      cases inside with
      | false => exact ⟨result, hin⟩
      | true => exact absurd hin (hnever k hk result)
    obtain ⟨k, hk, he⟩ := h.fair (.proceed c) trivial (Run.often_of_always fun k hk => by
      obtain ⟨result, hin⟩ := hbefore k hk
      exact henabled k hk result hin) n
    obtain ⟨result, hin⟩ := hbefore k hk
    obtain ⟨_, result', hin', henters⟩ := h.enters hc hk he hin
    exact hnever (k + 1) (by omega) result' ((henters.statements hx).2 ▸ hin')
  refine ⟨m, hm, fun k hk => ?_⟩
  induction k, hk using Nat.le_induction with
  | base => exact ⟨result, hin⟩
  | succ k hk ih =>
    obtain ⟨result, hin⟩ := ih
    rcases h.valid.succ k with heq | ⟨a, he, -, hmove⟩
    · exact ⟨result, heq ▸ hin⟩
    · by_cases ha : a = .proceed c
      · subst ha
        obtain ⟨_, _, -, henters⟩ := h.enters hc (by omega) he hin
        cases (henters.statements hx).1
      · exact ⟨result, hmove.routine hin ha⟩

/-- A readiness check gets inside, and leaves once the signer has answered. -/
theorem Daemon.FairRun.leaves_checkReadiness (h : d.FairRun w r) (hw : d.Works r)
    (hstays : ∀ k ≥ n, InCall (r.state k) c (.checkReadiness :: rest)) :
    ∃ m ≥ n, ∀ k ≥ m, ∀ inside result,
      (r.state k).routines c = some ⟨.checkReadiness :: rest, inside, result⟩ →
        Enabled d.Step (.proceed c) (r.state k) ∧
          ∀ t inside', ¬ Enters (r.state k) t inside inside' .checkReadiness := by
  obtain ⟨m, hm, hinside⟩ := h.inside (.inl rfl) hstays fun k _ result hin => by
    cases hquit : (r.state k).quit with
    | true => exact ⟨_, hw.up k, .notRunning hin hquit⟩
    | false => exact ⟨_, hw.up k, .running hin hquit⟩
  refine ⟨m, hm, fun k hk inside result hin' => ?_⟩
  obtain ⟨result', hin⟩ := hinside k hk
  cases hin.symm.trans hin'
  obtain ⟨answer, env, hprobe⟩ := hw.probes k
  refine ⟨⟨_, hw.up k, .probe hin hprobe⟩, fun _ _ henters => ?_⟩
  cases (henters.statements (.inl rfl)).1

/-- The goroutine that stops its metrics server leaves once the server has no connection. -/
theorem Daemon.FairRun.leaves_stopServer (h : d.FairRun w r) (hw : d.Works r)
    (hstays : ∀ k ≥ n, InCall (r.state k) c (.stopServer :: rest)) :
    ∃ m ≥ n, ∀ k ≥ m, ∀ inside result,
      (r.state k).routines c = some ⟨.stopServer :: rest, inside, result⟩ →
        Enabled d.Step (.proceed c) (r.state k) ∧
          ∀ t inside', ¬ Enters (r.state k) t inside inside' .stopServer := by
  obtain ⟨m, hm, hinside⟩ := h.inside (.inr rfl) hstays fun k _ result hin =>
    ⟨_, hw.up k, .shutdownServer hin⟩
  obtain ⟨result, hin⟩ := hinside m le_rfl
  obtain ⟨m', hm', hidle⟩ := hw.drains m c rest result hin
  refine ⟨m', by omega, fun k hk inside result hin' => ?_⟩
  obtain ⟨result', hin⟩ := hinside k (by omega)
  cases hin.symm.trans hin'
  refine ⟨⟨_, hw.up k, .serverStopped hin (hidle k hk)⟩, fun _ _ henters => ?_⟩
  cases (henters.statements (.inr rfl)).1

/-- Each call finishes. -/
theorem Daemon.FairRun.leaves_call (h : d.FairRun w r) (hw : d.Works r) {x : Call}
    (hc : InCall (r.state n) c (x :: rest))
    (hsignal : x = .awaitShutdown → ∃ m, (r.state m).shutdown = true) :
    ∃ m ≥ n, ∃ todo, todo <:+ rest ∧ InCall (r.state m) c todo := by
  refine h.leaves hc fun hstays => ?_
  cases x with
  | start =>
    obtain ⟨m, hm, hdone⟩ := h.startOnce_done hw.up hstays
    refine ⟨m, hm, fun k hk inside result hin => ?_⟩
    have hdone' : (r.state k).startOnce = .done :=
      h.valid.stable (P := fun s => s.startOnce = .done) (fun _ _ _ hs hstep => hstep.2.started hs)
        hk hdone
    refine ⟨⟨_, hw.up k, .leaveStart hin hdone'⟩, fun _ _ henters => ?_⟩
    cases henters with
    | start hfresh _ => cases hfresh.symm.trans hdone'
  | stop =>
    obtain ⟨m, hm, hdone⟩ := h.stopOnce_done hw hstays
    refine ⟨m, hm, fun k hk inside result hin => ?_⟩
    have hdone' : (r.state k).stopOnce = .done :=
      h.valid.stable (P := fun s => s.stopOnce = .done) (fun _ _ _ hs hstep => hstep.2.stopped hs)
        hk hdone
    refine ⟨⟨_, hw.up k, .leaveStop hin hdone'⟩, fun _ _ henters => ?_⟩
    cases henters with
    | stop hfresh _ => cases hfresh.symm.trans hdone'
  | checkReadiness => exact h.leaves_checkReadiness hw hstays
  | stopServer => exact h.leaves_stopServer hw hstays
  | count => exact ⟨n, le_rfl, fun k _ _ _ hin => ⟨⟨_, hw.up k, .count hin⟩, fun _ _ => nofun⟩⟩
  | address =>
    exact ⟨n, le_rfl, fun k _ _ _ hin => ⟨⟨_, hw.up k, .address hin⟩, fun _ _ => nofun⟩⟩
  | startServer =>
    exact ⟨n, le_rfl, fun k _ _ _ hin => ⟨⟨_, hw.up k, .startServer hin⟩, fun _ _ => nofun⟩⟩
  | awaitShutdown =>
    obtain ⟨m, hshutdown⟩ := hsignal rfl
    refine ⟨max m n, le_max_right m n, fun k hk inside result hin => ?_⟩
    have hshutdown' : (r.state k).shutdown = true :=
      h.valid.stable (P := fun s => s.shutdown = true)
        (fun _ _ _ hs hstep => hstep.2.signalled hs) ((le_max_left m n).trans hk) hshutdown
    exact ⟨⟨_, hw.up k, .awaitShutdown hin hshutdown'⟩, fun _ _ => nofun⟩

/-- Under a fair scheduler every call returns, `RunUntilShutdown` if the signal to shut down is
given. -/
theorem calls_return (d : Daemon σ ι) (w : World σ) {r : Run (DaemonState σ ι) (DaemonEvent ι)}
    (h : d.FairRun w r) (hw : d.Works r) {n : ℕ} {c : ι} {todo : List Call}
    (hc : InCall (r.state n) c todo)
    (hsignal : .awaitShutdown ∈ todo → ∃ m, (r.state m).shutdown = true) :
    ∃ m ≥ n, InCall (r.state m) c [] := by
  induction hlen : todo.length using Nat.strongRecOn generalizing todo n with
  | ind len ih =>
    cases todo with
    | nil => exact ⟨n, le_rfl, hc⟩
    | cons x rest =>
      obtain ⟨m, hm, todo', hsuffix, hc'⟩ := h.leaves_call hw hc
        fun hx => hsignal (hx ▸ List.mem_cons_self)
      have hshorter := hsuffix.length_le
      rw [List.length_cons] at hlen
      obtain ⟨m', hm', hreturned⟩ := ih todo'.length (by omega) hc'
        (fun hmem => hsignal (List.mem_cons_of_mem x (hsuffix.subset hmem))) rfl
      exact ⟨m', by omega, hreturned⟩

namespace Sample

/-- A server over a chain that answers no query. -/
abbrev quietServer : Daemon (Net MsgAddCovenantSigs (List String)) Unit :=
  server onePerTxController.toClientController

theorem quietServer_tick {w : World (Net MsgAddCovenantSigs (List String))} :
    quietServer.ce.tick 1 w = (.ok (), w) := rfl

theorem not_enabled_stopped {σ : Type} {cc : ClientController σ} {w : World σ}
    (a : DaemonEvent Unit) (ha : a.own) : ¬ Enabled (server cc).Step a (stopped w) := by
  rintro ⟨t, -, hmove⟩
  have hfinished : ∀ {i : ℕ} {kind : LoopKind} {pc : LoopPc},
      (stopped w).loops[i]? = some ⟨kind, pc⟩ → pc = .finished := by
    intro i kind pc hi
    have hmem := List.mem_of_getElem? hi
    simp only [stopped, stage, List.mem_cons, List.not_mem_nil, or_false, Loop.mk.injEq] at hmem
    rcases hmem with ⟨-, rfl⟩ | ⟨-, rfl⟩ <;> rfl
  cases hmove with
  | newTicker hi _ | badTicker hi _ | tickEnd hi _ | tickPanics hi _ | quit hi _ | done hi _
  | doneTwice hi _ => cases hfinished hi
  | add h | spawnSubmission h | spawnMetrics h | close h _ | closeTwice h _ | wait h _
  | serverClosed h => cases h
  | enterStart h _ | leaveStart h _ | enterStop h _ | leaveStop h _ | count h | address h
  | startServer h | awaitShutdown h _ | shutdownServer h | serverStopped h _ | notRunning h _
  | running h _ | probe h _ => cases h
  | call _ | tick _ | update _ | serverFails _ _ _ | signal | outside _ => exact ha

/-- The server comes back from `RunUntilShutdown`. -/
theorem server_returns : ∃ r, quietServer.FairRun (world ⟨[], []⟩ 10000) r ∧
    InCall (r.state 1) () Entry.runUntilShutdown.calls ∧ ∃ m, InCall (r.state m) () [] := by
  obtain ⟨r, hr⟩ := Run.exists_ends DaemonEvent.own
    ((server_starts.trans (server_ticks quietServer_tick)).trans server_stops) not_enabled_stopped
  have hall := hr.cons (s := .init (world ⟨[], []⟩ 10000)) ⟨rfl, .call (c := ()) rfl⟩
  have hworks : quietServer.Works (r.cons (.init (world ⟨[], []⟩ 10000)) (.call ())) :=
    ⟨fun n => Daemon.Step.up (hall.before n) rfl, fun n => ⟨1, _, quietServer_tick⟩,
      fun n => ⟨.ok (), _, rfl⟩, fun n _ _ _ _ => ⟨n, le_rfl, fun _ _ => trivial⟩⟩
  have hfair : quietServer.FairRun (world ⟨[], []⟩ 10000) _ := ⟨hall.starts, hall.valid, hall.fair⟩
  have hcalled : InCall ((r.cons (.init (world ⟨[], []⟩ 10000)) (.call ())).state 1) ()
      Entry.runUntilShutdown.calls := ⟨false, .ok (), by rw [Run.cons, hr.starts]; rfl⟩
  obtain ⟨m, -, hm⟩ := calls_return quietServer _ hfair hworks hcalled fun _ => by
    obtain ⟨n, hn⟩ := hall.ends
    exact ⟨n, by rw [hn]; rfl⟩
  exact ⟨_, hfair, hcalled, m, hm⟩

end Sample

/-- A goroutine stays in `Start` until the function of `Start` has returned. -/
theorem Daemon.Move.inCall_start {s t : DaemonState σ ι} {a : DaemonEvent ι} (h : d.Move s a t)
    (hc : InCall s c (.start :: rest)) (hnot : s.startOnce ≠ .done) :
    InCall t c (.start :: rest) := by
  obtain ⟨inside, result, hc⟩ := hc
  by_cases ha : a = .proceed c
  · subst ha
    cases h with
    | enterStart hc' _ =>
      cases hc.symm.trans hc'
      exact ⟨true, result, DaemonState.routines_goes ..⟩
    | leaveStart _ honce => exact absurd honce hnot
    | enterStop hc' _ | leaveStop hc' _ | count hc' | address hc' | startServer hc'
    | awaitShutdown hc' _ | shutdownServer hc' | serverStopped hc' _ | notRunning hc' _
    | running hc' _ | probe hc' _ => cases hc.symm.trans hc'
  · exact ⟨inside, result, h.routine hc ha⟩

/-- A loop whose interval is not positive gets no ticker. -/
theorem Daemon.Move.created {s t : DaemonState σ ι} {a : DaemonEvent ι} (h : d.Move s a t)
    {kind : LoopKind} (hbad : d.interval kind ≤ 0)
    (hs : ∀ l ∈ s.loops, l.kind = kind → l.pc = .created) :
    ∀ l ∈ t.loops, l.kind = kind → l.pc = .created := by
  cases h with
  | spawnSubmission _ | spawnMetrics _ =>
    intro l hl hkind
    rcases List.mem_append.mp hl with hl | hl
    · exact hs l hl hkind
    · rw [List.mem_singleton.mp hl]
  | newTicker hj hpos =>
    intro l hl hkind
    rcases List.mem_or_eq_of_mem_set hl with hl | rfl
    · exact hs l hl hkind
    · subst hkind
      exact absurd hpos (Int64.not_lt.mpr hbad)
  | tick hj | tickEnd hj _ | quit hj _ | done hj _ =>
    intro l hl hkind
    rcases List.mem_or_eq_of_mem_set hl with hl | rfl
    · exact hs l hl hkind
    · cases hs _ (List.mem_of_getElem? hj) hkind
  | _ => exact hs

theorem Daemon.FairRun.startOnce_done_of_called (h : d.FairRun w r)
    (hup : ∀ n, (r.state n).crashed = none) (hc : InCall (r.state n) c (.start :: rest)) :
    ∃ m, (r.state m).startOnce = .done := by
  by_contra hnever
  push Not at hnever
  have hstays : ∀ k ≥ n, InCall (r.state k) c (.start :: rest) := by
    intro k hk
    induction k, hk using Nat.le_induction with
    | base => exact hc
    | succ k _ ih =>
      rcases h.valid.succ k with heq | ⟨a, -, -, hmove⟩
      · rwa [heq]
      · exact hmove.inCall_start ih (hnever k)
  obtain ⟨m, -, hdone⟩ := h.startOnce_done hup hstays
  exact hnever m hdone

/-- Once `Start` has returned, each loop has a place, and keeps it. -/
theorem Daemon.FairRun.loop_created (h : d.FairRun w r) {kind : LoopKind}
    (hbad : d.interval kind ≤ 0) (hdone : (r.state m).startOnce = .done) :
    ∃ i : ℕ, ∀ k ≥ m, (r.state k).loops[i]? = some ⟨kind, .created⟩ := by
  have hcreated : ∀ k, ∀ l ∈ (r.state k).loops, l.kind = kind → l.pc = .created := by
    intro k
    refine h.valid.stable (P := fun s => ∀ l ∈ s.loops, l.kind = kind → l.pc = .created)
      (fun _ _ _ hs hstep => hstep.2.created hbad hs) (Nat.zero_le k) ?_
    rw [h.starts]
    simp [DaemonState.init]
  have hmem : kind ∈ (r.state m).loops.map Loop.kind := by
    rw [(h.coherent m).kinds, hdone]
    cases kind <;> simp [Once.spawned]
  obtain ⟨⟨_, pc⟩, hl, rfl⟩ := List.mem_map.mp hmem
  obtain ⟨i, hi⟩ := List.mem_iff_getElem?.mp hl
  refine ⟨i, fun k hk => ?_⟩
  induction k, hk using Nat.le_induction with
  | base =>
    obtain rfl : pc = .created := hcreated m _ hl rfl
    exact hi
  | succ k _ ih =>
    rcases h.valid.succ k with heq | ⟨a, -, -, hmove⟩
    · rwa [heq]
    · obtain ⟨pc', hpc, -⟩ := hmove.loop ih
      obtain rfl : pc' = .created := hcreated (k + 1) _ (List.mem_of_getElem? hpc) rfl
      exact hpc

/-- Once `Start` is called, a loop whose interval is not positive takes the process down: neither
`Validate` nor anything else looks at the intervals before `NewTicker`. -/
theorem unset_interval_crashes (d : Daemon σ ι) (w : World σ)
    {r : Run (DaemonState σ ι) (DaemonEvent ι)} (h : d.FairRun w r) (kind : LoopKind)
    (hbad : d.interval kind ≤ 0) {n : ℕ} {c : ι} {rest : List Call}
    (hc : InCall (r.state n) c (.start :: rest)) : ∃ m, (r.state m).crashed ≠ none := by
  by_contra hnone
  have hup : ∀ m, (r.state m).crashed = none := by simpa using hnone
  obtain ⟨m, hdone⟩ := h.startOnce_done_of_called hup hc
  obtain ⟨i, hstays⟩ := h.loop_created hbad hdone
  obtain ⟨k, hk, he⟩ := h.fair (.newTicker i) trivial
    (Run.often_of_always fun k hk => ⟨_, hup k, .badTicker (hstays k hk) hbad⟩) m
  obtain ⟨-, hmove⟩ := h.valid.steps k _ he
  have hup' := hup (k + 1)
  have hat := hstays (k + 1) (by omega)
  generalize r.state (k + 1) = t at hmove hup' hat
  cases hmove with
  | newTicker hj _ => simp [DaemonState.loopAt, (List.getElem?_eq_some_iff.mp hj).1] at hat
  | badTicker _ _ => cases hup'

namespace Sample

/-- A server whose file leaves both intervals out. -/
def unset : Daemon (Net MsgAddCovenantSigs (List MsgAddCovenantSigs)) Unit :=
  daemon babylon.toClientController (fun _ => .runUntilShutdown) 0

/-- `RunUntilShutdown` is about to call `Start`. -/
def starting : DaemonState (Net MsgAddCovenantSigs (List MsgAddCovenantSigs)) Unit :=
  stage start .fresh .fresh 0 false [.start, .awaitShutdown, .stopServer, .stop] false [] .serving

theorem reachable_starting : unset.Reachable start starting := by
  have h₀ : unset.Reachable start (.init start) := .refl
  have h₁ : unset.Reachable start (called start) := h₀.tail ⟨rfl, .call (c := ()) rfl⟩
  have h₂ : unset.Reachable start (stage start .fresh .fresh 0 false
      [.address, .startServer, .start, .awaitShutdown, .stopServer, .stop] false [] .absent) :=
    h₁.tail ⟨rfl, Daemon.Move.count (s := called start) (c := ()) rfl⟩
  have h₃ := h₂.tail ⟨rfl, .address (c := ()) rfl⟩
  exact h₃.tail ⟨rfl, .startServer (c := ()) rfl⟩

theorem starting_crashes : ∃ t, Leads unset.Step starting t ∧ t.crashed ≠ none := by
  have h₀ : Leads unset.Step starting starting := .refl
  have h₁ := h₀.tail ⟨rfl, .enterStart (c := ()) rfl rfl⟩
  have h₂ := h₁.tail ⟨rfl, .add rfl⟩
  have h₃ := h₂.tail ⟨rfl, .spawnSubmission rfl⟩
  have hbad : unset.interval .submission ≤ 0 := by decide
  exact ⟨_, h₃.tail ⟨rfl, .badTicker (i := 0) rfl hbad⟩, nofun⟩

/-- `Validate` accepts the configuration, and `RunUntilShutdown` goes down with it. -/
theorem unset_crashes : unset.config.toConfig.validate unset.parseIP = .ok unset.config ∧
    ∃ r n m, unset.FairRun start r ∧ InCall (r.state n) ()
      [.start, .awaitShutdown, .stopServer, .stop] ∧ (r.state m).crashed ≠ none := by
  obtain ⟨t, ht, hcrashed⟩ := starting_crashes
  obtain ⟨r, hr⟩ := Run.exists_ends DaemonEvent.own ht fun _ _ ⟨_, hup, _⟩ => hcrashed hup
  obtain ⟨r', hall, n, hn⟩ := hr.prepend reachable_starting
  have hfair : unset.FairRun start r' := ⟨hall.starts, hall.valid, hall.fair⟩
  have hstarting : InCall (r'.state n) () [.start, .awaitShutdown, .stopServer, .stop] :=
    ⟨false, .ok (), by rw [← Nat.add_zero n, hn, hr.starts]; rfl⟩
  obtain ⟨m, hm⟩ := unset_interval_crashes unset start hfair .submission (by decide) hstarting
  exact ⟨rfl, r', n, m, hfair, hstarting, hm⟩

end Sample

end

end CovenantEmulator

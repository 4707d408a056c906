import CovenantEmulator.Covenant.Daemon

/-! What holds of the daemon in every order of its steps. -/
namespace CovenantEmulator

open Golang Transition

/-- The loops spawned so far. -/
def Once.spawned : Once StartInstr → List LoopKind
  | .fresh | .busy .add | .busy .spawnSubmission => []
  | .busy .spawnMetrics => [.submission]
  | .done => [.submission, .metrics]

/-- The loops that the wait group counts and that are not spawned yet. -/
def Once.reserved : Once StartInstr → ℕ
  | .fresh | .busy .add | .done => 0
  | .busy .spawnSubmission => 2
  | .busy .spawnMetrics => 1

def Once.closed : Once StopInstr → Bool
  | .fresh | .busy .close => false
  | .busy .wait | .done => true

/-- `1` for a loop that has not returned. -/
def Loop.running (l : Loop) : ℕ := if l.pc = .finished then 0 else 1

section
variable {σ ι : Type}

/-- The bookkeeping of the emulator. -/
structure Coherent (s : DaemonState σ ι) : Prop where
  kinds : s.loops.map Loop.kind = s.startOnce.spawned
  wg : s.wg = s.startOnce.reserved + total Loop.running s.loops
  quit : s.quit = s.stopOnce.closed
  ticking : ∀ l ∈ s.loops, l.pc = .ticking → l.kind = .submission

/-- The crashes that are no fault of the bookkeeping. -/
def Daemon.Excused (d : Daemon σ ι) : Crash → Prop
  | .closeOfClosedChannel | .negativeWaitGroup => False
  | .prometheus err =>
    ∃ address s, d.metrics.address d.parseIP = .ok address ∧ d.listenFails address s err
  | .nonPositiveInterval kind => d.interval kind ≤ 0
  | .tick msg => ∃ fuel w, (d.ce.tick fuel w).1 = .panic msg

end

section
variable {σ ι : Type} {s : DaemonState σ ι} {i : ℕ} {kind : LoopKind} {pc pc' : LoopPc}

theorem Coherent.loopAt (h : Coherent s) (hi : s.loops[i]? = some ⟨kind, pc⟩)
    (hpc : pc ≠ .finished) (hpc' : pc' ≠ .finished) (htick : pc' = .ticking → kind = .submission) :
    Coherent (s.loopAt i kind pc') where
  kinds := (map_set_of_eq hi ⟨kind, pc'⟩ rfl).trans h.kinds
  wg := by
    have hsum := total_set (f := Loop.running) hi ⟨kind, pc'⟩
    simp only [Loop.running, if_neg hpc, if_neg hpc'] at hsum
    have hwg := h.wg
    simp only [DaemonState.loopAt]
    omega
  quit := h.quit
  ticking := by
    intro l hl hticking
    rcases List.mem_or_eq_of_mem_set hl with hl | rfl
    · exact h.ticking l hl hticking
    · exact htick hticking

/-- A loop that returns has not been counted out before. -/
theorem Coherent.wg_pos (h : Coherent s) (hi : s.loops[i]? = some ⟨kind, pc⟩)
    (hpc : pc ≠ .finished) : 0 < s.wg := by
  have hle := le_total (f := Loop.running) hi
  simp only [Loop.running, if_neg hpc] at hle
  have hwg := h.wg
  omega

theorem Coherent.done (h : Coherent s) (hi : s.loops[i]? = some ⟨kind, .leaving⟩) :
    Coherent ({ s with wg := s.wg - 1 }.loopAt i kind .finished) where
  kinds := (map_set_of_eq hi ⟨kind, .finished⟩ rfl).trans h.kinds
  wg := by
    have hsum := total_set (f := Loop.running) hi ⟨kind, .finished⟩
    simp only [Loop.running, reduceCtorEq, if_false, if_true] at hsum
    have hwg := h.wg
    simp only [DaemonState.loopAt]
    omega
  quit := h.quit
  ticking := by
    intro l hl hticking
    rcases List.mem_or_eq_of_mem_set hl with hl | rfl
    · exact h.ticking l hl hticking
    · cases hticking

/-- `go` of a loop that the wait group counts already. -/
theorem Coherent.spawn (h : Coherent s) {next : Once StartInstr}
    (hspawned : next.spawned = s.startOnce.spawned ++ [kind])
    (hreserved : s.startOnce.reserved = next.reserved + 1) :
    Coherent { s with loops := s.loops ++ [⟨kind, .created⟩], startOnce := next } where
  kinds := by
    simp only [List.map_append, h.kinds, hspawned, List.map_cons, List.map_nil]
  wg := by
    have hwg := h.wg
    simp only [total_concat, Loop.running, reduceCtorEq, if_false]
    omega
  quit := h.quit
  ticking := by
    intro l hl hticking
    rcases List.mem_append.mp hl with hl | hl
    · exact h.ticking l hl hticking
    · obtain rfl := List.mem_singleton.mp hl
      cases hticking

theorem coherent_init (w : World σ) : Coherent (.init w : DaemonState σ ι) :=
  ⟨rfl, rfl, rfl, by simp [DaemonState.init]⟩

/-- A loop that ticks is the first one. -/
theorem Coherent.eq_zero_of_ticking (h : Coherent s)
    (hi : s.loops[i]? = some ⟨kind, .ticking⟩) : i = 0 := by
  have hkind : kind = .submission := h.ticking _ (List.mem_of_getElem? hi) rfl
  have hat : (s.loops.map Loop.kind)[i]? = some .submission := by
    rw [List.getElem?_map, hi, hkind]
    rfl
  rw [h.kinds] at hat
  match i, s.startOnce, hat with
  | 0, _, _ => rfl
  | 1, .done, hat => simp [Once.spawned] at hat

end

section
variable {σ : Type} {w : World σ}

/-- The events of the trace are justified by delegations that the filter accepted. -/
def Vouched (ce : Emulator σ) (w : World σ) : Prop :=
  ∀ e ∈ w.trace, Justified ce w.paramsByVersion (Accepted ce w.paramsByVersion) e

theorem Vouched.tick {ce : Emulator σ} (hw : Vouched ce w) (fuel : ℕ) :
    Vouched ce (ce.tick fuel w).2 := by
  obtain ⟨dels, w₁, hquiet, hacc, hruns⟩ := tick_runs (B := fun _ => True) (respects_any ce.cc)
    (fun _ _ => trivial) w fuel (fun _ _ _ _ _ _ _ _ => trivial)
  obtain ⟨answers, hanswers, hparams⟩ := hquiet.trace
  obtain ⟨new, hnew, hjust⟩ := hruns.trace
  have hcache : ∀ {v P}, w.paramsByVersion v = some P →
      (ce.tick fuel w).2.paramsByVersion v = some P := fun h => hruns.cache (hquiet.cache h)
  intro e he
  rw [hnew, hanswers, List.mem_append, List.mem_append] at he
  rcases he with (he | he) | he
  · exact (hw e he).mono hcache fun _ hd => hd.mono hcache
  · obtain ⟨v, answer, rfl⟩ := hparams e he
    exact .paramsAnswer v answer
  · exact (hjust e he).mono (fun h => h) fun dlg hd => ((hacc dlg hd).1).mono hruns.cache

end

section
variable {σ ι : Type} [DecidableEq ι] {d : Daemon σ ι} {s t : DaemonState σ ι}
  {a : DaemonEvent ι} {w : World σ}

theorem Coherent.move (h : Coherent s) (hmove : d.Move s a t) : Coherent t := by
  cases hmove with
  | call _ | leaveStart _ _ | leaveStop _ _ | closeTwice _ _ | count _ | address _
  | startServer _ | awaitShutdown _ _ | shutdownServer _ | serverStopped _ _ | serverClosed _
  | serverFails _ _ _ | notRunning _ _ | running _ _ | probe _ _ | badTicker _ _ | tickPanics _ _
  | update _ | doneTwice _ _ | signal | outside _ =>
    exact ⟨h.kinds, h.wg, h.quit, h.ticking⟩
  | enterStart _ honce =>
    have hkinds := h.kinds
    have hwg := h.wg
    rw [honce] at hkinds hwg
    exact ⟨hkinds, hwg, h.quit, h.ticking⟩
  | add honce =>
    have hkinds := h.kinds
    have hwg := h.wg
    rw [honce] at hkinds hwg
    refine ⟨hkinds, ?_, h.quit, h.ticking⟩
    simp only [Once.reserved] at hwg ⊢
    omega
  | spawnSubmission honce => exact h.spawn (by rw [honce]; rfl) (by rw [honce]; rfl)
  | spawnMetrics honce => exact h.spawn (by rw [honce]; rfl) (by rw [honce]; rfl)
  | enterStop _ honce | wait honce _ =>
    have hquit := h.quit
    rw [honce] at hquit
    exact ⟨h.kinds, h.wg, hquit, h.ticking⟩
  | close _ _ => exact ⟨h.kinds, h.wg, rfl, h.ticking⟩
  | newTicker hi _ | quit hi _ => exact h.loopAt hi (by simp) (by simp) (by simp)
  | tick hi => exact h.loopAt hi (by simp) (by simp) (fun _ => rfl)
  | @tickEnd _ _ w hi _ =>
    have hw : Coherent { s with world := w } := ⟨h.kinds, h.wg, h.quit, h.ticking⟩
    exact hw.loopAt hi (by simp) (by simp) (by simp)
  | done hi _ => exact h.done hi

/-- The bookkeeping crashes nothing: the channel is closed once, and each loop is counted. -/
theorem Coherent.excused (h : Coherent s) (hup : s.crashed = none) (hmove : d.Move s a t)
    {cause : Crash} (hcrash : t.crashed = some cause) : d.Excused cause := by
  cases hmove with
  | closeTwice honce hclosed =>
    have hquit := h.quit
    rw [honce, hclosed] at hquit
    cases hquit
  | doneTwice hi hwg => exact absurd (h.wg_pos hi (by simp)) (by omega)
  | badTicker _ hbad =>
    cases hcrash
    exact hbad
  | tickPanics _ htick =>
    cases hcrash
    exact ⟨_, _, congrArg Prod.fst htick⟩
  | serverFails _ haddress hfails =>
    cases hcrash
    exact ⟨_, _, haddress, hfails⟩
  | _ => cases hup.symm.trans hcrash

theorem Daemon.Reachable.coherent (h : d.Reachable w s) :
    Coherent s ∧ ∀ cause, s.crashed = some cause → d.Excused cause := by
  refine Leads.invariant (P := fun s => Coherent s ∧
    ∀ cause, s.crashed = some cause → d.Excused cause) ?_ h
    ⟨coherent_init w, by simp [DaemonState.init]⟩
  rintro s a t ⟨hs, -⟩ ⟨hup, hmove⟩
  exact ⟨hs.move hmove, fun cause hcrash => hs.excused hup hmove hcrash⟩

/-- In every order of the steps: the process ends only by an interval that is not positive, by a
panic of a tick or by a metrics server that cannot listen, each loop is started at most once, at
most one tick runs, and the wait group counts the loops. -/
theorem daemon_safe (d : Daemon σ ι) (w : World σ) {s : DaemonState σ ι} (h : d.Reachable w s) :
    (∀ cause, s.crashed = some cause → d.Excused cause) ∧
      s.loops.map Loop.kind <+: [.submission, .metrics] ∧
      (∀ (i j : ℕ) (kind kind' : LoopKind), s.loops[i]? = some ⟨kind, .ticking⟩ →
        s.loops[j]? = some ⟨kind', .ticking⟩ → i = j) ∧
      s.wg = s.startOnce.reserved + total Loop.running s.loops := by
  obtain ⟨hs, hexcused⟩ := h.coherent
  refine ⟨hexcused, ?_, ?_, hs.wg⟩
  · rw [hs.kinds]
    rcases s.startOnce with _ | ⟨_ | _ | _⟩ | _ <;> decide
  · intro i j kind kind' hi hj
    rw [hs.eq_zero_of_ticking hi, hs.eq_zero_of_ticking hj]

namespace Sample

/-- The server goes down in its first tick, for an address that is taken. Its wait group counts two
loops then. -/
theorem prometheus_safe : ∃ s, (server babylon.toClientController).Reachable start s ∧
    s.crashed = some (.prometheus "bind: address already in use") ∧
    (server babylon.toClientController).Excused (.prometheus "bind: address already in use") ∧
    s.loops.map Loop.kind <+: [.submission, .metrics] ∧
    s.loops[0]? = some ⟨.submission, .ticking⟩ ∧
    s.wg = Once.reserved .done +
      total Loop.running [⟨.submission, .ticking⟩, ⟨.metrics, .selecting⟩] := by
  have hreach := reachable_prometheus babylon.toClientController start
  obtain ⟨hexcused, hkinds, -, hwg⟩ := daemon_safe _ start hreach
  exact ⟨_, hreach, rfl, hexcused _ rfl, hkinds, rfl, hwg⟩

end Sample

/-- What a step does to the emulator's world. -/
theorem Daemon.Move.world (h : d.Move s a t) : t.world = s.world ∨
    (∃ env, t.world = { s.world with env := env }) ∨
    ∃ (i : ℕ) (kind : LoopKind) (fuel : ℕ), s.loops[i]? = some ⟨kind, .ticking⟩ ∧
      t.world = (d.ce.tick fuel s.world).2 := by
  cases h with
  | probe _ _ | outside _ => exact .inr (.inl ⟨_, rfl⟩)
  | tickEnd hi htick | tickPanics hi htick =>
    exact .inr (.inr ⟨_, _, _, hi, (congrArg Prod.snd htick).symm⟩)
  | _ => exact .inl rfl

/-- Whatever is called and in whichever order: each request to the signer and each submission of the
daemon is for delegations that passed the filter and the checks. -/
theorem daemon_vouched (d : Daemon σ ι) {w : World σ} (hw : Vouched d.ce w)
    {s : DaemonState σ ι} (h : d.Reachable w s) : Vouched d.ce s.world := by
  refine Leads.invariant (P := fun s => Vouched d.ce s.world) ?_ h hw
  rintro s a t hs ⟨-, hmove⟩
  rcases hmove.world with heq | ⟨env, heq⟩ | ⟨_, _, fuel, -, heq⟩ <;> rw [heq]
  · exact hs
  · exact hs
  · exact hs.tick fuel

namespace Sample

/-- After a tick that has signed a delegation and submitted its entry. -/
theorem committed_vouched :
    (server babylon.toClientController).Reachable start (waits committedWorld .selecting) ∧
      Event.signing plainDelegation plainRequest ∈ committedWorld.trace ∧
      Event.submitting [plainEntry] ∈ committedWorld.trace ∧
      Vouched (server babylon.toClientController).ce committedWorld :=
  ⟨reachable_committed, by simp [committedWorld, World.signed, World.submitted],
    submitting_mem_trace _ _ _,
    daemon_vouched (server babylon.toClientController) (by intro e he; cases he)
      reachable_committed⟩

end Sample

end

/-- A goroutine that calls `Stop` calls `Start` before. -/
def StartFirst (todo : List Call) : Prop :=
  .stop ∈ todo → .start ∈ todo.takeWhile (· ≠ .stop)

theorem StartFirst.tail {x : Call} {rest : List Call} (h : StartFirst (x :: rest))
    (hx : x ≠ .start) : StartFirst rest := by
  intro hstop
  have hstart := h (List.mem_cons_of_mem _ hstop)
  rw [List.takeWhile_cons] at hstart
  split at hstart
  · rcases List.mem_cons.mp hstart with heq | hstart
    · exact absurd heq.symm hx
    · exact hstart
  · cases hstart

theorem not_startFirst_stop (rest : List Call) : ¬ StartFirst (.stop :: rest) := by
  intro h
  exact absurd (h List.mem_cons_self) (by simp)

theorem Entry.startFirst {e : Entry} (h : e ≠ .stop) : StartFirst e.calls := by
  cases e with
  | stop => exact absurd rfl h
  | start | checkReadiness | runUntilShutdown => simp [StartFirst, Entry.calls]

section
variable {σ ι : Type}

/-- `Stop` begins after `Start` has returned. -/
structure Ordered (s : DaemonState σ ι) : Prop where
  routines : ∀ c r, s.routines c = some r → StartFirst r.todo ∨ s.startOnce = .done
  stops : s.stopOnce ≠ .fresh → s.startOnce = .done
  counted : s.stopOnce = .done → s.wg = 0

variable {s : DaemonState σ ι}

theorem Ordered.fresh_of_busy {next : StartInstr} (h : Ordered s)
    (honce : s.startOnce = .busy next) : s.stopOnce = .fresh := by
  by_contra hstop
  cases honce.symm.trans (h.stops hstop)

theorem ordered_init (w : World σ) : Ordered (.init w : DaemonState σ ι) :=
  ⟨nofun, fun h => absurd rfl h, nofun⟩

theorem Ordered.finished (h : Ordered s) (hs : Coherent s) (hstop : s.stopOnce = .done) {l : Loop}
    (hl : l ∈ s.loops) : l.pc = .finished := by
  by_contra hpc
  obtain ⟨i, hi⟩ := List.mem_iff_getElem?.mp hl
  have hpos := hs.wg_pos hi hpc
  have hzero := h.counted hstop
  omega

end

section
variable {σ ι : Type} [DecidableEq ι] {d : Daemon σ ι} {s t : DaemonState σ ι}
  {a : DaemonEvent ι} {c : ι} {r : Routine}

theorem Ordered.goes (h : Ordered s) (hr : StartFirst r.todo ∨ s.startOnce = .done) :
    Ordered (s.goes c r) := by
  refine ⟨fun c' r' hr' => ?_, h.stops, h.counted⟩
  by_cases hc : c' = c
  · subst hc
    obtain rfl : r = r' := by simpa [DaemonState.goes] using hr'
    exact hr
  · exact h.routines c' r' (by simpa [DaemonState.goes, hc] using hr')

/-- A goroutine goes on to its next call. -/
theorem Ordered.next {x : Call} {rest : List Call} {inside : Bool}
    {result result' : Except String Unit} (h : Ordered s)
    (hc : s.routines c = some ⟨x :: rest, inside, result⟩) (hx : x ≠ .start) :
    Ordered (s.goes c ⟨rest, false, result'⟩) :=
  h.goes ((h.routines c _ hc).imp_left fun hfirst => hfirst.tail hx)

theorem Ordered.move (h : Ordered s) (hentry : ∀ c, d.entry c ≠ .stop) (hmove : d.Move s a t) :
    Ordered t := by
  cases hmove with
  | closeTwice _ _ | newTicker _ _ | badTicker _ _ | tick _ | tickEnd _ _ | tickPanics _ _
  | update _ | quit _ _ | doneTwice _ _ | serverClosed _ | serverFails _ _ _ | signal | outside _ =>
    exact ⟨h.routines, h.stops, h.counted⟩
  | @call c _ => exact h.goes (.inl (Entry.startFirst (hentry c)))
  | enterStart hc honce =>
    have hfirst := (h.routines _ _ hc).resolve_right (by simp [honce])
    have hbusy : Ordered { s with startOnce := .busy .add } := by
      refine ⟨fun c' r' hr' => .inl ?_, fun hstop => ?_, h.counted⟩
      · exact (h.routines c' r' hr').resolve_right (by simp [honce])
      · cases honce.symm.trans (h.stops hstop)
    exact hbusy.goes (.inl hfirst)
  | leaveStart _ honce => exact h.goes (.inr honce)
  | add honce | spawnSubmission honce =>
    have hfresh := h.fresh_of_busy honce
    refine ⟨fun c' r' hr' => .inl ?_, fun hstop => absurd hfresh hstop, fun hdone => ?_⟩
    · exact (h.routines c' r' hr').resolve_right (by simp [honce])
    · cases hfresh.symm.trans hdone
  | spawnMetrics _ => exact ⟨fun _ _ _ => .inr rfl, fun _ => rfl, h.counted⟩
  | enterStop hc honce =>
    have hstart := (h.routines _ _ hc).resolve_left (not_startFirst_stop _)
    exact Ordered.goes ⟨h.routines, fun _ => hstart, nofun⟩ (.inr hstart)
  | leaveStop hc _ => exact h.next hc (by simp)
  | close honce _ => exact ⟨h.routines, fun _ => h.stops (by simp [honce]), nofun⟩
  | wait honce hwg => exact ⟨h.routines, fun _ => h.stops (by simp [honce]), fun _ => hwg⟩
  | count hc =>
    refine Ordered.goes ⟨h.routines, h.stops, h.counted⟩ ?_
    split
    · exact .inl nofun
    · exact (h.routines _ _ hc).imp_left fun hfirst => hfirst.tail (by simp)
  | address hc =>
    unfold Daemon.addressed
    split
    · exact h.goes (.inl nofun)
    · exact h.next hc (by simp)
  | startServer hc => exact Ordered.next ⟨h.routines, h.stops, h.counted⟩ hc (by simp)
  | shutdownServer hc =>
    have hr := h.routines _ _ hc
    exact Ordered.goes ⟨h.routines, h.stops, h.counted⟩ hr
  | awaitShutdown hc _ | serverStopped hc _ | notRunning hc _ => exact h.next hc (by simp)
  | running hc _ =>
    have hr := h.routines _ _ hc
    exact h.goes hr
  | probe hc _ => exact Ordered.next ⟨h.routines, h.stops, h.counted⟩ hc (by simp)
  | done _ hwg =>
    refine ⟨h.routines, h.stops, fun hdone => ?_⟩
    have hzero := h.counted hdone
    omega

theorem Daemon.Move.stopped (h : d.Move s a t) (hs : s.stopOnce = .done) : t.stopOnce = .done := by
  cases h with
  | enterStop _ honce | close honce _ | closeTwice honce _ | wait honce _ =>
    cases honce.symm.trans hs
  | _ => exact hs

/-- Where `Stop` is left to `RunUntilShutdown`: once it has returned, both loops have returned, and
nothing is signed or submitted any more. -/
theorem stopped_daemon_quiet (d : Daemon σ ι) (hentry : ∀ c, d.entry c ≠ .stop) (w : World σ)
    {s t : DaemonState σ ι} (h : d.Reachable w s) (hstop : s.stopOnce = .done)
    (ht : Leads d.Step s t) :
    t.world.trace = s.world.trace ∧ t.loops.map Loop.kind = [.submission, .metrics] ∧
      ∀ l ∈ t.loops, l.pc = .finished := by
  have hordered : Ordered s := h.invariant (P := Ordered)
    (fun _ _ _ hs hstep => hs.move hentry hstep.2) (ordered_init w)
  have hall : Coherent t ∧ Ordered t ∧ t.stopOnce = .done ∧ t.world.trace = s.world.trace := by
    refine ht.invariant (P := fun t => Coherent t ∧ Ordered t ∧ t.stopOnce = .done ∧
      t.world.trace = s.world.trace) ?_ ⟨h.coherent.1, hordered, hstop, rfl⟩
    rintro t a u ⟨hcoherent, hordered, hdone, htrace⟩ ⟨-, hmove⟩
    refine ⟨hcoherent.move hmove, hordered.move hentry hmove, hmove.stopped hdone, ?_⟩
    rcases hmove.world with heq | ⟨env, heq⟩ | ⟨i, kind, fuel, hi, -⟩
    · rw [heq, htrace]
    · rw [heq, ← htrace]
    · cases hordered.finished hcoherent hdone (List.mem_of_getElem? hi)
  obtain ⟨hcoherent, hordered, hdone, htrace⟩ := hall
  refine ⟨htrace, ?_, fun l hl => hordered.finished hcoherent hdone hl⟩
  rw [hcoherent.kinds, hordered.stops (by simp [hdone])]
  rfl

namespace Sample

/-- The chain forgets what the server submitted before it was stopped. -/
def forgotten : DaemonState (Net MsgAddCovenantSigs (List MsgAddCovenantSigs)) Unit :=
  { stopped committedWorld with world := { committedWorld with env := ⟨[], []⟩ } }

/-- The delegation is not signed again. -/
theorem stopped_quiet :
    (server babylon.toClientController).Reachable start (stopped committedWorld) ∧
      Event.submitting [plainEntry] ∈ committedWorld.trace ∧
      Leads (server babylon.toClientController).Step (stopped committedWorld) forgotten ∧
      forgotten.world.trace = committedWorld.trace ∧
      forgotten.loops.map Loop.kind = [.submission, .metrics] ∧
      ∀ l ∈ forgotten.loops, l.pc = .finished := by
  have hreach : (server babylon.toClientController).Reachable start (stopped committedWorld) :=
    reachable_committed.trans server_stops
  have hlater : Leads (server babylon.toClientController).Step (stopped committedWorld)
      forgotten := Leads.refl.tail ⟨rfl, .outside trivial⟩
  exact ⟨hreach, submitting_mem_trace _ _ _, hlater,
    stopped_daemon_quiet _ (by simp [server, daemon]) start hreach rfl hlater⟩

end Sample

/-- Without that order nothing holds the loops back: a `Stop` that is called first returns, and a
later `Start` starts them all the same. -/
theorem ticks_after_stop (d : Daemon σ ι) (c c' : ι) (hc : d.entry c = .stop)
    (hc' : d.entry c' = .start) (hpos : 0 < d.config.queryInterval) (w : World σ) :
    ∃ s, d.Reachable w s ∧ s.routines c = some ⟨[], false, .ok ()⟩ ∧
      s.loops[0]? = some ⟨.submission, .ticking⟩ := by
  have hne : c ≠ c' := by
    rintro rfl
    cases hc.symm.trans hc'
  have hstopped : ∃ s, d.Reachable w s ∧ s.crashed = none ∧ s.startOnce = .fresh ∧
      s.routines c = some ⟨[], false, .ok ()⟩ ∧ s.routines c' = none ∧ s.loops = [] := by
    have h₀ : d.Reachable w (.init w) := .refl
    have h₁ := h₀.tail ⟨rfl, .call (c := c) rfl⟩
    rw [hc] at h₁
    have h₂ := h₁.tail ⟨rfl, .enterStop (DaemonState.routines_goes ..) rfl⟩
    have h₃ := h₂.tail ⟨rfl, .close rfl rfl⟩
    have h₄ := h₃.tail ⟨rfl, .wait rfl rfl⟩
    have h₅ := h₄.tail ⟨rfl, .leaveStop (DaemonState.routines_goes ..) rfl⟩
    refine ⟨_, h₅, rfl, rfl, DaemonState.routines_goes .., ?_, rfl⟩
    simp [DaemonState.goes, DaemonState.init, hne.symm]
  obtain ⟨s, h, hup, hfresh, hdone, hidle, hloops⟩ := hstopped
  have h₁ := h.tail ⟨hup, .call (c := c') hidle⟩
  rw [hc'] at h₁
  have h₂ := h₁.tail ⟨hup, .enterStart (DaemonState.routines_goes ..) hfresh⟩
  have h₃ := h₂.tail ⟨hup, .add rfl⟩
  have h₄ := h₃.tail ⟨hup, .spawnSubmission rfl⟩
  have hpos' : 0 < d.interval .submission := hpos
  have h₅ := h₄.tail ⟨hup, .newTicker (i := 0) (by simp [DaemonState.goes, hloops]) hpos'⟩
  have h₆ := h₅.tail ⟨hup, .tick (i := 0) (by simp [DaemonState.loopAt, DaemonState.goes, hloops])⟩
  refine ⟨_, h₆, ?_, ?_⟩
  · simp [DaemonState.goes, DaemonState.loopAt, hne, hdone]
  · simp [DaemonState.goes, DaemonState.loopAt, hloops]

namespace Sample

theorem tick_after_stop :
    ∃ s, (daemon babylon.toClientController id 15000000000).Reachable start s ∧
      s.routines .stop = some ⟨[], false, .ok ()⟩ ∧ s.loops[0]? = some ⟨.submission, .ticking⟩ :=
  ticks_after_stop (daemon babylon.toClientController id 15000000000) .stop .start rfl rfl
    (by decide) start

end Sample

end

end CovenantEmulator

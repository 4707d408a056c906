import CovenantEmulator.ClientController.AtomicChain
import CovenantEmulator.Config
import CovenantEmulator.Covenant.Resigning
import CovenantEmulator.Transition.Runs
import Mathlib.Logic.Function.Basic

/-! The daemon: `Start`, `Stop`, `CheckReadiness` and `RunUntilShutdown` in any number of
goroutines, and the two loops of the emulator, in every order of their steps. -/
namespace CovenantEmulator

open Golang Transition

/-- `sync.Once`: nobody has called `Do` yet, its function has an instruction to run, or it has
returned. -/
inductive Once (κ : Type) where
  | fresh
  | busy (next : κ)
  | done
  deriving DecidableEq, Repr

/-- The function that `Start` gives to `startOnce`. -/
inductive StartInstr where
  | add
  | spawnSubmission
  | spawnMetrics
  deriving DecidableEq, Repr

/-- The function that `Stop` gives to `stopOnce`. -/
inductive StopInstr where
  | close
  | wait
  deriving DecidableEq, Repr

/-- `covenantSigSubmissionLoop` and `metricsUpdateLoop`. -/
inductive LoopKind where
  | submission
  | metrics
  deriving DecidableEq, Repr

/-- A loop is before `NewTicker`, at its `select`, in a tick, before the deferred `Done`, or has
returned. -/
inductive LoopPc where
  | created
  | selecting
  | ticking
  | leaving
  | finished
  deriving DecidableEq, Repr

structure Loop where
  kind : LoopKind
  pc : LoopPc
  deriving DecidableEq, Repr

/-- The goroutine of `ps.Start`: not there yet, in `ListenAndServe`, in it after the call of
`Shutdown`, or returned with `ErrServerClosed`. -/
inductive ServerPc where
  | absent
  | serving
  | closing
  | returned
  deriving DecidableEq, Repr

/-- The calls of a goroutine; all but the first three are those of `RunUntilShutdown`, where
`startServer` is `go ps.Start()` and `stopServer` is `ps.Stop()`. -/
inductive Call where
  | start
  | stop
  | checkReadiness
  | count
  | address
  | startServer
  | awaitShutdown
  | stopServer
  deriving DecidableEq, Repr

inductive Entry where
  | start
  | stop
  | checkReadiness
  | runUntilShutdown
  deriving DecidableEq, Repr

/-- `RunUntilShutdown` stops its metrics server and the emulator in its deferred function. -/
def Entry.calls : Entry → List Call
  | .start => [.start]
  | .stop => [.stop]
  | .checkReadiness => [.checkReadiness]
  | .runUntilShutdown =>
    [.count, .address, .startServer, .start, .awaitShutdown, .stopServer, .stop]

/-- A goroutine: the calls it has not finished, whether it is inside the first of them, and what it
returns. -/
structure Routine where
  todo : List Call
  inside : Bool
  result : Except String Unit
  deriving Repr

/-- What ends the process; `prometheus` is the `Fatal` of `ps.Start`. -/
inductive Crash where
  | prometheus (err : String)
  | closeOfClosedChannel
  | negativeWaitGroup
  | nonPositiveInterval (kind : LoopKind)
  | tick (msg : String)
  deriving DecidableEq, Repr

structure DaemonState (σ ι : Type) where
  startOnce : Once StartInstr
  stopOnce : Once StopInstr
  wg : ℤ
  quit : Bool
  /-- The counter of the server. -/
  started : Int32
  /-- The interceptor's channel is closed. -/
  shutdown : Bool
  routines : ι → Option Routine
  loops : List Loop
  /-- The metrics server that each goroutine has made. -/
  servers : ι → ServerPc
  world : World σ
  crashed : Option Crash

inductive DaemonEvent (ι : Type) where
  | call (c : ι)
  | proceed (c : ι)
  | startInstr
  | stopInstr
  | newTicker (i : ℕ)
  | tick (i : ℕ)
  | tickEnd (i : ℕ)
  | update (i : ℕ)
  | quit (i : ℕ)
  | done (i : ℕ)
  | serverClosed (c : ι)
  | serverFails (c : ι)
  | signal
  | outside

/-- What the emulator is made of, what each goroutine runs, and what is left to the rest of the
world. -/
structure Daemon (σ ι : Type) where
  lib : BabylonLib
  retry : ParamsRetry σ
  config : ValidConfig
  metrics : MetricsConfig
  /-- A configuration without metrics is not valid. -/
  metrics_eq : config.metrics = some metrics
  cc : ClientController σ
  signer : Signer σ
  pk : PublicKey
  parseIP : String → Option Bytes
  entry : ι → Entry
  /-- `ListenAndServe` at an address may fail with this error before the server is shut down. -/
  listenFails : String → σ → String → Prop
  /-- No connection of the metrics server of a goroutine is active, so that `Shutdown` returns. -/
  idle : ι → σ → Prop
  outside : σ → σ → Prop

/-- `Address`. -/
def MetricsConfig.address (parseIP : String → Option Bytes) (cfg : MetricsConfig) :
    Except String String := do
  cfg.validate parseIP
  pure (cfg.host ++ ":" ++ toString cfg.port)

namespace DaemonState

variable {σ ι : Type}

def goes [DecidableEq ι] (s : DaemonState σ ι) (c : ι) (r : Routine) : DaemonState σ ι :=
  { s with routines := Function.update s.routines c (some r) }

theorem routines_goes [DecidableEq ι] (s : DaemonState σ ι) (c : ι) (r : Routine) :
    (s.goes c r).routines c = some r :=
  Function.update_self ..

theorem routines_goes_of_ne [DecidableEq ι] (s : DaemonState σ ι) {c c' : ι} (r : Routine)
    (h : c' ≠ c) : (s.goes c r).routines c' = s.routines c' :=
  Function.update_of_ne h ..

def serverAt [DecidableEq ι] (s : DaemonState σ ι) (c : ι) (pc : ServerPc) : DaemonState σ ι :=
  { s with servers := Function.update s.servers c pc }

def loopAt (s : DaemonState σ ι) (i : ℕ) (kind : LoopKind) (pc : LoopPc) : DaemonState σ ι :=
  { s with loops := s.loops.set i ⟨kind, pc⟩ }

def crash (s : DaemonState σ ι) (cause : Crash) : DaemonState σ ι :=
  { s with crashed := some cause }

/-- Nothing has been called. -/
def init (w : World σ) : DaemonState σ ι where
  startOnce := .fresh
  stopOnce := .fresh
  wg := 0
  quit := false
  started := 0
  shutdown := false
  routines _ := none
  loops := []
  servers _ := .absent
  world := w
  crashed := none

end DaemonState

namespace Daemon

variable {σ ι : Type}

def ce (d : Daemon σ ι) : Emulator σ :=
  configuredEmulator d.lib d.retry d.config d.cc d.signer d.pk

/-- The period of a loop's ticker. -/
def interval (d : Daemon σ ι) : LoopKind → Int64
  | .submission => d.config.queryInterval
  | .metrics => d.metrics.updateInterval

/-- The part of `CheckReadiness` after its `select`. -/
def probe (d : Daemon σ ι) : Go σ Unit := do
  let _ ← Go.wrap ("failed to get public key from covenant signer: " ++ ·)
    d.signer.pubKey
  pure ()

/-- `RunUntilShutdown` after its call of `Address`. -/
def addressed (d : Daemon σ ι) (rest : List Call) (result : Except String Unit) : Routine :=
  match d.metrics.address d.parseIP with
  | .error e => ⟨[], false, .error e⟩
  | .ok _ => ⟨rest, false, result⟩

/-- The steps of a process that has not crashed. A tick takes the world as it is when the tick
ends: what the rest of the world does during a tick is part of the answers it gives. -/
inductive Move [DecidableEq ι] (d : Daemon σ ι) (s : DaemonState σ ι) :
    DaemonEvent ι → DaemonState σ ι → Prop
  | call {c : ι} (h : s.routines c = none) :
    Move d s (.call c) (s.goes c ⟨(d.entry c).calls, false, .ok ()⟩)
  | enterStart {c : ι} {rest : List Call} {inside : Bool} {result : Except String Unit}
    (h : s.routines c = some ⟨.start :: rest, inside, result⟩) (honce : s.startOnce = .fresh) :
    Move d s (.proceed c)
      ({ s with startOnce := .busy .add }.goes c ⟨.start :: rest, true, result⟩)
  | leaveStart {c : ι} {rest : List Call} {inside : Bool} {result : Except String Unit}
    (h : s.routines c = some ⟨.start :: rest, inside, result⟩) (honce : s.startOnce = .done) :
    Move d s (.proceed c) (s.goes c ⟨rest, false, result⟩)
  | add (honce : s.startOnce = .busy .add) :
    Move d s .startInstr { s with wg := s.wg + 2, startOnce := .busy .spawnSubmission }
  | spawnSubmission (honce : s.startOnce = .busy .spawnSubmission) :
    Move d s .startInstr
      { s with loops := s.loops ++ [⟨.submission, .created⟩], startOnce := .busy .spawnMetrics }
  | spawnMetrics (honce : s.startOnce = .busy .spawnMetrics) :
    Move d s .startInstr
      { s with loops := s.loops ++ [⟨.metrics, .created⟩], startOnce := .done }
  | enterStop {c : ι} {rest : List Call} {inside : Bool} {result : Except String Unit}
    (h : s.routines c = some ⟨.stop :: rest, inside, result⟩) (honce : s.stopOnce = .fresh) :
    Move d s (.proceed c)
      ({ s with stopOnce := .busy .close }.goes c ⟨.stop :: rest, true, result⟩)
  | leaveStop {c : ι} {rest : List Call} {inside : Bool} {result : Except String Unit}
    (h : s.routines c = some ⟨.stop :: rest, inside, result⟩) (honce : s.stopOnce = .done) :
    Move d s (.proceed c) (s.goes c ⟨rest, false, result⟩)
  | close (honce : s.stopOnce = .busy .close) (hopen : s.quit = false) :
    Move d s .stopInstr { s with quit := true, stopOnce := .busy .wait }
  | closeTwice (honce : s.stopOnce = .busy .close) (hclosed : s.quit = true) :
    Move d s .stopInstr (s.crash .closeOfClosedChannel)
  | wait (honce : s.stopOnce = .busy .wait) (hwg : s.wg = 0) :
    Move d s .stopInstr { s with stopOnce := .done }
  | count {c : ι} {rest : List Call} {inside : Bool} {result : Except String Unit}
    (h : s.routines c = some ⟨.count :: rest, inside, result⟩) :
    Move d s (.proceed c) ({ s with started := s.started + 1 }.goes c
      ⟨if s.started + 1 ≠ 1 then [] else rest, false, result⟩)
  | address {c : ι} {rest : List Call} {inside : Bool} {result : Except String Unit}
    (h : s.routines c = some ⟨.address :: rest, inside, result⟩) :
    Move d s (.proceed c) (s.goes c (d.addressed rest result))
  | startServer {c : ι} {rest : List Call} {inside : Bool} {result : Except String Unit}
    (h : s.routines c = some ⟨.startServer :: rest, inside, result⟩) :
    Move d s (.proceed c) ((s.serverAt c .serving).goes c ⟨rest, false, result⟩)
  | awaitShutdown {c : ι} {rest : List Call} {inside : Bool} {result : Except String Unit}
    (h : s.routines c = some ⟨.awaitShutdown :: rest, inside, result⟩)
    (hshutdown : s.shutdown = true) :
    Move d s (.proceed c) (s.goes c ⟨rest, false, result⟩)
  | shutdownServer {c : ι} {rest : List Call} {result : Except String Unit}
    (h : s.routines c = some ⟨.stopServer :: rest, false, result⟩) :
    Move d s (.proceed c) ((s.serverAt c .closing).goes c ⟨.stopServer :: rest, true, result⟩)
  | serverStopped {c : ι} {rest : List Call} {result : Except String Unit}
    (h : s.routines c = some ⟨.stopServer :: rest, true, result⟩)
    (hidle : d.idle c s.world.env) : Move d s (.proceed c) (s.goes c ⟨rest, false, result⟩)
  | serverClosed {c : ι} (h : s.servers c = .closing) :
    Move d s (.serverClosed c) (s.serverAt c .returned)
  -- `ListenAndServe` may have begun to listen before `Shutdown`, and fail after it
  | serverFails {c : ι} {address err : String} (h : s.servers c = .serving ∨ s.servers c = .closing)
    (haddress : d.metrics.address d.parseIP = .ok address)
    (hfails : d.listenFails address s.world.env err) :
    Move d s (.serverFails c) (s.crash (.prometheus err))
  | notRunning {c : ι} {rest : List Call} {result : Except String Unit}
    (h : s.routines c = some ⟨.checkReadiness :: rest, false, result⟩) (hquit : s.quit = true) :
    Move d s (.proceed c) (s.goes c ⟨rest, false, .error "emulator is not running"⟩)
  | running {c : ι} {rest : List Call} {result : Except String Unit}
    (h : s.routines c = some ⟨.checkReadiness :: rest, false, result⟩) (hquit : s.quit = false) :
    Move d s (.proceed c) (s.goes c ⟨.checkReadiness :: rest, true, result⟩)
  | probe {c : ι} {rest : List Call} {result answer : Except String Unit} {env : σ}
    (h : s.routines c = some ⟨.checkReadiness :: rest, true, result⟩)
    (hprobe : Go.attempt d.probe s.world.env = (.ok answer, env)) :
    Move d s (.proceed c)
      ({ s with world := { s.world with env := env } }.goes c ⟨rest, false, answer⟩)
  | newTicker {i : ℕ} {kind : LoopKind} (h : s.loops[i]? = some ⟨kind, .created⟩)
    (hpos : 0 < d.interval kind) : Move d s (.newTicker i) (s.loopAt i kind .selecting)
  | badTicker {i : ℕ} {kind : LoopKind} (h : s.loops[i]? = some ⟨kind, .created⟩)
    (hbad : d.interval kind ≤ 0) : Move d s (.newTicker i) (s.crash (.nonPositiveInterval kind))
  | tick {i : ℕ} (h : s.loops[i]? = some ⟨.submission, .selecting⟩) :
    Move d s (.tick i) (s.loopAt i .submission .ticking)
  | tickEnd {i fuel : ℕ} {w : World σ} (h : s.loops[i]? = some ⟨.submission, .ticking⟩)
    (htick : d.ce.tick fuel s.world = (.ok (), w)) :
    Move d s (.tickEnd i) ({ s with world := w }.loopAt i .submission .selecting)
  | tickPanics {i fuel : ℕ} {w : World σ} {msg : String}
    (h : s.loops[i]? = some ⟨.submission, .ticking⟩)
    (htick : d.ce.tick fuel s.world = (.panic msg, w)) :
    Move d s (.tickEnd i) ({ s with world := w }.crash (.tick msg))
  | update {i : ℕ} (h : s.loops[i]? = some ⟨.metrics, .selecting⟩) : Move d s (.update i) s
  | quit {i : ℕ} {kind : LoopKind} (h : s.loops[i]? = some ⟨kind, .selecting⟩)
    (hquit : s.quit = true) : Move d s (.quit i) (s.loopAt i kind .leaving)
  | done {i : ℕ} {kind : LoopKind} (h : s.loops[i]? = some ⟨kind, .leaving⟩) (hwg : 0 < s.wg) :
    Move d s (.done i) ({ s with wg := s.wg - 1 }.loopAt i kind .finished)
  | doneTwice {i : ℕ} {kind : LoopKind} (h : s.loops[i]? = some ⟨kind, .leaving⟩)
    (hwg : s.wg ≤ 0) : Move d s (.done i) (s.crash .negativeWaitGroup)
  | signal : Move d s .signal { s with shutdown := true }
  | outside {env : σ} (henv : d.outside s.world.env env) :
    Move d s .outside { s with world := { s.world with env := env } }

def Step [DecidableEq ι] (d : Daemon σ ι) (s : DaemonState σ ι) (a : DaemonEvent ι)
    (t : DaemonState σ ι) : Prop :=
  s.crashed = none ∧ d.Move s a t

def Reachable [DecidableEq ι] (d : Daemon σ ι) (w : World σ) (s : DaemonState σ ι) : Prop :=
  Leads d.Step (.init w) s

end Daemon

namespace Sample

/-- A configuration with both intervals. -/
def daemonConfig (interval : Int64) : ValidConfig where
  queryInterval := interval
  delegationLimit := 100
  sigsBatchSize := 30
  maxRetiresBatchRemovingMsgs := 0
  bitcoinNetwork := "signet"
  metrics := some ⟨"127.0.0.1", 2112, interval⟩
  btcNetParams := .signet

section
variable {σ : Type}

/-- Goroutines over a chain. The address of the metrics server may be taken, and anything may happen
outside. -/
def daemon {ι : Type} (cc : ClientController σ) (entry : ι → Entry) (interval : Int64) :
    Daemon σ ι where
  lib := lib
  retry := .loop
  config := daemonConfig interval
  metrics := ⟨"127.0.0.1", 2112, interval⟩
  metrics_eq := rfl
  cc := cc
  signer := ⟨signer, pure covenantKey⟩
  pk := covenantKey
  parseIP _ := some [127, 0, 0, 1]
  entry := entry
  listenFails _ _ err := err = "bind: address already in use"
  idle _ _ := True
  outside _ _ := True

/-- A server that runs until it is shut down. -/
def server (cc : ClientController σ) : Daemon σ Unit :=
  daemon cc (fun _ => .runUntilShutdown) 15000000000

/-- `RunUntilShutdown` has been called. -/
def called (w : World σ) : DaemonState σ Unit :=
  DaemonState.goes (.init w) () ⟨Entry.runUntilShutdown.calls, false, .ok ()⟩

/-- A state of the server after its first step. -/
def stage (w : World σ) (startOnce : Once StartInstr) (stopOnce : Once StopInstr) (wg : ℤ)
    (quit : Bool) (todo : List Call) (inside : Bool) (loops : List Loop) (server : ServerPc) :
    DaemonState σ Unit where
  startOnce := startOnce
  stopOnce := stopOnce
  wg := wg
  quit := quit
  started := 1
  shutdown := decide (todo.length ≤ 2)
  routines _ := some ⟨todo, inside, .ok ()⟩
  loops := loops
  servers _ := server
  world := w
  crashed := none

/-- The server waits for the signal, with its first loop here. -/
def waits (w : World σ) (pc : LoopPc) : DaemonState σ Unit :=
  stage w .done .fresh 2 false [.awaitShutdown, .stopServer, .stop] false
    [⟨.submission, pc⟩, ⟨.metrics, .selecting⟩] .serving

def stopped (w : World σ) : DaemonState σ Unit :=
  stage w .done .done 0 true [] false [⟨.submission, .finished⟩, ⟨.metrics, .finished⟩] .returned

variable {cc : ClientController σ} {w w' : World σ}

theorem server_starts : Leads (server cc).Step (called w) (waits w .ticking) := by
  have hpos : ∀ kind, 0 < (server cc).interval kind := by
    intro kind
    cases kind <;> exact (by decide : (0 : Int64) < 15000000000)
  have h₁ : Leads (server cc).Step (called w) (stage w .fresh .fresh 0 false
      [.address, .startServer, .start, .awaitShutdown, .stopServer, .stop] false [] .absent) :=
    Leads.refl.tail ⟨rfl, Daemon.Move.count (s := called w) (c := ()) rfl⟩
  have h₂ := h₁.tail ⟨rfl, .address (c := ()) rfl⟩
  have h₃ := h₂.tail ⟨rfl, .startServer (c := ()) rfl⟩
  have h₄ : Leads (server cc).Step (called w) (stage w (.busy .add) .fresh 0 false
      [.start, .awaitShutdown, .stopServer, .stop] true [] .serving) :=
    h₃.tail ⟨rfl, .enterStart (DaemonState.routines_goes ..) rfl⟩
  have h₅ := h₄.tail ⟨rfl, .add rfl⟩
  have h₆ := h₅.tail ⟨rfl, .spawnSubmission rfl⟩
  have h₇ := h₆.tail ⟨rfl, .spawnMetrics rfl⟩
  have h₈ := h₇.tail ⟨rfl, .leaveStart (c := ()) rfl rfl⟩
  have h₉ := h₈.tail ⟨rfl, .newTicker (i := 0) rfl (hpos .submission)⟩
  have h₁₀ := h₉.tail ⟨rfl, .newTicker (i := 1) rfl (hpos .metrics)⟩
  exact h₁₀.tail ⟨rfl, .tick (i := 0) rfl⟩

theorem server_ticks (htick : (server cc).ce.tick 1 w = (.ok (), w')) :
    Leads (server cc).Step (waits w .ticking) (waits w' .selecting) :=
  Leads.refl.tail ⟨rfl, Daemon.Move.tickEnd (s := waits w .ticking) (i := 0) rfl htick⟩

theorem server_stops : Leads (server cc).Step (waits w .selecting) (stopped w) := by
  have h₀ : Leads (server cc).Step (waits w .selecting) (waits w .selecting) := .refl
  have h₁ := h₀.tail ⟨rfl, .signal⟩
  have h₂ := h₁.tail ⟨rfl, .awaitShutdown (c := ()) rfl rfl⟩
  have h₃ := h₂.tail ⟨rfl, .shutdownServer (c := ()) rfl⟩
  have h₄ := h₃.tail ⟨rfl, .serverStopped (c := ()) rfl trivial⟩
  have h₅ := h₄.tail ⟨rfl, .serverClosed (c := ()) rfl⟩
  have h₆ := h₅.tail ⟨rfl, .enterStop (c := ()) rfl rfl⟩
  have h₇ := h₆.tail ⟨rfl, .close rfl rfl⟩
  have h₈ := h₇.tail ⟨rfl, .quit (i := 0) rfl rfl⟩
  have h₉ := h₈.tail ⟨rfl, .quit (i := 1) rfl rfl⟩
  have h₁₀ := h₉.tail ⟨rfl, .done (i := 0) rfl (show (0 : ℤ) < 2 by decide)⟩
  have h₁₁ := h₁₀.tail ⟨rfl, .done (i := 1) rfl (show (0 : ℤ) < 1 by decide)⟩
  have h₁₂ := h₁₁.tail ⟨rfl, .wait rfl rfl⟩
  exact h₁₂.tail ⟨rfl, .leaveStop (c := ()) rfl rfl⟩

theorem reachable_waits (cc : ClientController σ) (w : World σ) :
    (server cc).Reachable w (waits w .ticking) :=
  (Leads.tail .refl ⟨rfl, .call (c := ()) rfl⟩ : (server cc).Reachable w (called w)).trans
    server_starts

/-- The address of the metrics server is taken while the loop ticks. -/
theorem reachable_prometheus (cc : ClientController σ) (w : World σ) :
    (server cc).Reachable w
      ((waits w .ticking).crash (.prometheus "bind: address already in use")) :=
  (reachable_waits cc w).tail ⟨rfl, .serverFails (c := ()) (.inl rfl) rfl rfl⟩

end

/-- The server over the chain of one delegation has signed it. -/
theorem reachable_committed :
    (server babylon.toClientController).Reachable start (waits committedWorld .selecting) :=
  (reachable_waits _ start).trans (server_ticks tick_babylon)

end Sample

end CovenantEmulator

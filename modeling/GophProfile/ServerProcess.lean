import GophProfile.Domain
import GophProfile.Library.Defer
import GophProfile.Library.Transition

/-! The server process from `config.Load` to its exit: what it opens, its two listeners, the
signals that reach it, and the way it stops. -/
namespace GophProfile.ServerProcess

open Domain Defer Transition

structure Settings where
  autoMigrate : Bool
  drainDelay : Int64

/-- What `run` closes when it returns, in the order in which it defers the closing. -/
inductive Resource where
  | signals | tracing | pool | broker | admin
  deriving DecidableEq

/-- The steps of `run` that may fail. -/
inductive Step where
  | config | logger | tracing | pool | migrate | storage | broker | publisher
  | registry | business | http | breakers
  deriving DecidableEq

/-- The error that `run` returns for a failed step. -/
def Step.failed (step : Step) (err : Err) : Err :=
  match step with
  | .config | .logger => err
  | .tracing => .errorf "tracing: %w" [] err
  | .pool => .errorf "postgres: %w" [] err
  | .migrate => .errorf "migrate: %w" [] err
  | .storage => .errorf "s3: %w" [] err
  | .broker => .errorf "rabbitmq: %w" [] err
  | .publisher => .errorf "rabbitmq publisher: %w" [] err
  | .registry => .errorf "metrics registry: %w" [] err
  | .business => .errorf "business metrics: %w" [] err
  | .http => .errorf "http metrics: %w" [] err
  | .breakers => .errorf "breaker metrics: %w" [] err

/-- A line of `run` before it serves: a step, or the closing of what a step has opened. -/
inductive Line where
  | try (step : Step)
  | defer (r : Resource)
  deriving DecidableEq

def startup (cfg : Settings) : List Line :=
  [.try .config,.try .logger,.defer .signals,.try .tracing,.defer .tracing,.try .pool,.defer .pool] ++
    (if cfg.autoMigrate then [.try .migrate] else []) ++
    [.try .storage,.try .broker,.defer .broker,.try .publisher,.try .registry,.try .business,.try .http,
      .try .breakers,.defer .admin]

/-- Where `run` is. -/
inductive Phase where
  | starting (rest : List Line)
  /-- In the `select` between the two listeners and the signal. -/
  | serving
  /-- The signal was taken and `stop` called. -/
  | leaving
  /-- `health.Drain` was called. -/
  | drained
  /-- In `waitDrain`. -/
  | pausing
  /-- In `srv.Shutdown`. -/
  | shutting
  /-- The deferred calls are made. -/
  | returning (result : Except Err Unit)
  | exited (result : Except Err Unit)
  /-- A signal came that nobody had asked for. -/
  | killed

inductive Listener where
  | idle | starting | listening | closed
  deriving DecidableEq

structure State where
  phase : Phase
  frame : Frame Resource
  /-- A signal cancels a context and does not kill. -/
  caught : Bool
  /-- `ctx` is done. -/
  interrupted : Bool
  /-- What readiness looks at. -/
  draining : Bool
  /-- The pause was waited for, or a second signal ended it. -/
  paused : Bool
  secondSignal : Bool
  main : Listener
  admin : Listener
  serverErr : Option Err
  adminErr : Option Err
  /-- `adminCtx` is done. -/
  adminStopped : Bool
  /-- Requests that the main listener let in and that are not answered yet. -/
  inFlight : Nat

def State.initial (cfg : Settings) : State where
  phase := .starting (startup cfg)
  frame := .empty
  caught := false
  interrupted := false
  draining := false
  paused := false
  secondSignal := false
  main := .idle
  admin := .idle
  serverErr := none
  adminErr := none
  adminStopped := false
  inFlight := 0

inductive Action where
  /-- The next line of the start, with the outcome of the step it tries. -/
  | next (outcome : Except Err Unit)
  | signal
  | mainListens | mainFails (err : Err)
  | adminListens | adminFails (err : Err)
  | accept | answer
  | takeServerErr | takeAdminErr | takeDone
  | drain | beginPause | skipPause | pauseOver | pauseCut
  | shutdown | shutdownFails (err : Err)
  | closeNext | adminCloses

/-- What the listener of the probes returns when it fails. -/
def adminUnavailable (err : Err) : Err := .errorf "служебный сервер недоступен: %w" [] err

def listenFailed (err : Err) : Err := .errorf "listen: %w" [] err
def adminListenFailed (err : Err) : Err := .errorf "admin listen: %w" [] err
def shutdownFailed (err : Err) : Err := .errorf "shutdown: %w" [] err

section
variable (cfg : Settings)

/-- One line of the start. -/
def State.line (s : State) (outcome : Except Err Unit) : List Line → State
  | [] => { s with phase := .serving, main := .starting, admin := .starting }
  | .try step :: rest =>
    match outcome with
    | .ok () => { s with phase := .starting rest }
    | .error err => { s with phase := .returning (.error (step.failed err)) }
  | .defer r :: rest =>
    { s with phase := .starting rest, frame := s.frame.defer r, caught := s.caught || r == .signals }

/-- A deferred call; `stop` and `stopAdmin` may have been called before. -/
def State.close (s : State) (result : Except Err Unit) : State :=
  match s.frame.next with
  | none => { s with phase := .exited result }
  | some frame =>
    { s with
      frame := frame
      caught := s.caught && s.frame.deferred.head? != some .signals
      adminStopped := s.adminStopped || s.frame.deferred.head? == some .admin }

/-- What a signal does. -/
def State.signal (s : State) : State :=
  match s.phase with
  | .pausing => { s with secondSignal := true }
  | .exited _ => s
  | _ => if s.caught then { s with interrupted := true } else { s with phase := .killed }

/-- `srv.Shutdown` closes the listener before it waits. -/
def State.shut (s : State) : State := { s with phase := .shutting, main := .closed }

/-- What one of the goroutines, the clients or the operator does, or what `run` does next. -/
def act (s : State) : Action → Option State
  | .next outcome => match s.phase with | .starting rest => some (s.line outcome rest) | _ => none
  | .signal => some s.signal
  | .mainListens => if s.main = .starting then some { s with main := .listening } else none
  | .mainFails err =>
    if s.main = .starting ∨ s.main = .listening then some { s with main := .closed, serverErr := some err } else none
  | .adminListens => if s.admin = .starting then some { s with admin := .listening } else none
  | .adminFails err =>
    if s.admin = .starting ∨ s.admin = .listening then some { s with admin := .closed, adminErr := some (adminUnavailable err) } else none
  | .accept => if s.main = .listening then some { s with inFlight := s.inFlight + 1 } else none
  | .answer => if 0 < s.inFlight then some { s with inFlight := s.inFlight - 1 } else none
  | .takeServerErr =>
    match s.phase, s.serverErr with
    | .serving, some err => some { s with phase := .returning (.error (listenFailed err)) }
    | _, _ => none
  | .takeAdminErr =>
    match s.phase, s.adminErr with
    | .serving, some err => some { s with phase := .returning (.error (adminListenFailed err)) }
    | _, _ => none
  | .takeDone =>
    match s.phase with
    | .serving => if s.interrupted then some { s with phase := .leaving, caught := false } else none
    | _ => none
  | .drain => match s.phase with | .leaving => some { s with phase := .drained, draining := true } | _ => none
  | .beginPause =>
    match s.phase with
    | .drained => if 0 < cfg.drainDelay then some { s with phase := .pausing } else none
    | _ => none
  | .skipPause =>
    match s.phase with
    | .drained => if 0 < cfg.drainDelay then none else some s.shut
    | _ => none
  | .pauseOver => match s.phase with | .pausing => some { s.shut with paused := true } | _ => none
  | .pauseCut =>
    match s.phase with
    | .pausing => if s.secondSignal then some { s.shut with paused := true } else none
    | _ => none
  | .shutdown =>
    match s.phase with
    | .shutting =>
      if s.inFlight = 0 then some { s with phase := .returning (.ok ()), adminStopped := true } else none
    | _ => none
  | .shutdownFails err =>
    match s.phase with
    | .shutting => some { s with phase := .returning (.error (shutdownFailed err)) }
    | _ => none
  | .closeNext => match s.phase with | .returning result => some (s.close result) | _ => none
  | .adminCloses =>
    if s.adminStopped ∧ (s.admin = .starting ∨ s.admin = .listening) then some { s with admin := .closed } else none

/-- Nothing happens in a process that is gone. -/
def step (s : State) (a : Action) : Option State :=
  match s.phase with
  | .exited _ | .killed => none
  | _ => act cfg s a

end

/-! ### What holds at each point -/

/-- The closing of every resource, in the order in which it is deferred. -/
def resources : List Resource := [.signals,.tracing,.pool,.broker,.admin]

def Line.resource : Line → Option Resource
  | .defer r => some r
  | .try _ => none

theorem startup_resources (cfg : Settings) : (startup cfg).filterMap Line.resource = resources := by
  unfold startup
  cases cfg.autoMigrate <;> rfl

/-- An error that `run` returns while its main listener may be serving. -/
def ServingError (err : Err) : Prop :=
  ∃ cause, err = listenFailed cause ∨ err = adminListenFailed cause ∨ err = shutdownFailed cause

/-- The pause before the shutdown is over, if there is one. -/
def Rested (cfg : Settings) (s : State) : Prop := 0 < cfg.drainDelay → s.paused = true

/-- The main listener is closed behind the switch of readiness, and nobody waits. -/
structure Stopped (cfg : Settings) (s : State) : Prop where
  interrupted : s.interrupted = true
  draining : s.draining = true
  rested : Rested cfg s
  closed : s.main = .closed
  answered : s.inFlight = 0

/-- How `run` got to its result. -/
def Ended (cfg : Settings) (s : State) : Except Err Unit → Prop
  | .ok () => Stopped cfg s
  | .error err => ServingError err ∨ (s.main = .idle ∧ s.inFlight = 0)

/-- Everything is open, and the service is up. -/
structure Up (s : State) : Prop where
  opened : s.frame.opened = resources
  frame : s.frame.Open
  running : s.adminStopped = false
  started : s.main ≠ .idle

def Phase.Fits (cfg : Settings) (s : State) : Phase → Prop
  | .starting rest => s.frame.opened ++ rest.filterMap Line.resource = resources ∧ s.frame.Open ∧
      s.main = .idle ∧ s.admin = .idle ∧ s.inFlight = 0 ∧ s.draining = false ∧ s.adminStopped = false
  | .serving => Up s ∧ s.draining = false
  | .leaving => Up s ∧ s.interrupted = true
  | .drained | .pausing => Up s ∧ s.interrupted = true ∧ s.draining = true
  | .shutting => Up s ∧ s.interrupted = true ∧ s.draining = true ∧ Rested cfg s ∧ s.main = .closed
  | .returning result => s.frame.opened <+: resources ∧ s.frame.Balanced ∧ Ended cfg s result
  | .exited result => s.frame.opened <+: resources ∧ s.frame.closed = s.frame.opened.reverse ∧ Ended cfg s result
  | .killed => True

structure Inv (cfg : Settings) (s : State) : Prop where
  fits : s.phase.Fits cfg s
  mainClosed : s.main = .closed → s.serverErr ≠ none ∨ (s.draining = true ∧ Rested cfg s)
  adminClosed : s.admin = .closed → s.adminErr ≠ none ∨ s.adminStopped = true
  drainingAfter : s.draining = true → s.interrupted = true

variable {cfg : Settings} {s t : State}

theorem initial_inv (cfg : Settings) : Inv cfg (.initial cfg) where
  fits := ⟨startup_resources cfg,open_empty,rfl,rfl,rfl,rfl,rfl⟩
  mainClosed := by intro h; cases h
  adminClosed := by intro h; cases h
  drainingAfter := by intro h; cases h

/-- A step that `run` itself does not take: what it can change. -/
structure Drift (s t : State) : Prop where
  phase : t.phase = s.phase
  frame : t.frame = s.frame
  draining : t.draining = s.draining
  paused : t.paused = s.paused
  adminStopped : t.adminStopped = s.adminStopped
  interrupted : s.interrupted = true → t.interrupted = true
  main : t.main = s.main ∨ (s.main ≠ .idle ∧ s.main ≠ .closed ∧ t.main ≠ .idle)
  admin : s.admin = .idle → t.admin = .idle
  inFlight : s.main = .idle ∨ s.main = .closed → t.inFlight ≤ s.inFlight

theorem Drift.idle (drift : Drift s t) (idle : s.main = .idle) : t.main = .idle := by
  rcases drift.main with same | ⟨other,-⟩
  · exact same.trans idle
  · exact absurd idle other

theorem Drift.started (drift : Drift s t) (started : s.main ≠ .idle) : t.main ≠ .idle := by
  rcases drift.main with same | ⟨-,-,other⟩
  · exact same ▸ started
  · exact other

theorem Drift.closed (drift : Drift s t) (closed : s.main = .closed) : t.main = .closed := by
  rcases drift.main with same | ⟨-,other,-⟩
  · exact same.trans closed
  · exact absurd closed other

theorem Drift.up (drift : Drift s t) (up : Up s) : Up t where
  opened := drift.frame ▸ up.opened
  frame := drift.frame ▸ up.frame
  running := drift.adminStopped.trans up.running
  started := drift.started up.started

theorem Drift.ended (drift : Drift s t) {result : Except Err Unit} (ended : Ended cfg s result) :
    Ended cfg t result := by
  cases result with
  | ok u =>
    exact ⟨drift.interrupted ended.interrupted,drift.draining.trans ended.draining,
      fun delay => drift.paused.trans (ended.rested delay),drift.closed ended.closed,
      Nat.le_zero.mp (ended.answered ▸ drift.inFlight (.inr ended.closed))⟩
  | error err =>
    rcases ended with serving | ⟨idle,empty⟩
    · exact .inl serving
    · exact .inr ⟨drift.idle idle,Nat.le_zero.mp (empty ▸ drift.inFlight (.inl idle))⟩

theorem Drift.fits (drift : Drift s t) {phase : Phase} (fits : phase.Fits cfg s) : phase.Fits cfg t := by
  cases phase with
  | starting rest =>
    obtain ⟨opened,frame,main,admin,empty,calm,running⟩ := fits
    exact ⟨drift.frame ▸ opened,drift.frame ▸ frame,drift.idle main,drift.admin admin,
      Nat.le_zero.mp (empty ▸ drift.inFlight (.inl main)),drift.draining.trans calm,
      drift.adminStopped.trans running⟩
  | serving => exact ⟨drift.up fits.1,drift.draining.trans fits.2⟩
  | leaving => exact ⟨drift.up fits.1,drift.interrupted fits.2⟩
  | drained => exact ⟨drift.up fits.1,drift.interrupted fits.2.1,drift.draining.trans fits.2.2⟩
  | pausing => exact ⟨drift.up fits.1,drift.interrupted fits.2.1,drift.draining.trans fits.2.2⟩
  | shutting =>
    obtain ⟨up,signalled,draining,rested,closed⟩ := fits
    exact ⟨drift.up up,drift.interrupted signalled,drift.draining.trans draining,
      fun delay => drift.paused.trans (rested delay),drift.closed closed⟩
  | returning result => exact ⟨drift.frame ▸ fits.1,drift.frame ▸ fits.2.1,drift.ended fits.2.2⟩
  | exited result => exact ⟨drift.frame ▸ fits.1,drift.frame ▸ fits.2.1,drift.ended fits.2.2⟩
  | killed => trivial

theorem Drift.inv (drift : Drift s t) (inv : Inv cfg s)
    (mainClosed : t.main = .closed → s.main = .closed ∧ t.serverErr = s.serverErr ∨ t.serverErr ≠ none)
    (adminClosed : t.admin = .closed → s.admin = .closed ∧ t.adminErr = s.adminErr ∨ t.adminErr ≠ none ∨
      t.adminStopped = true) : Inv cfg t where
  fits := drift.phase ▸ drift.fits inv.fits
  mainClosed closed := by
    rcases mainClosed closed with ⟨before,same⟩ | failed
    · rcases inv.mainClosed before with failed | ⟨draining,rested⟩
      · exact .inl (same ▸ failed)
      · exact .inr ⟨drift.draining.trans draining,fun delay => drift.paused.trans (rested delay)⟩
    · exact .inl failed
  adminClosed closed := by
    rcases adminClosed closed with ⟨before,same⟩ | failed | stopped
    · rcases inv.adminClosed before with failed | stopped
      · exact .inl (same ▸ failed)
      · exact .inr (drift.adminStopped.trans stopped)
    · exact .inl failed
    · exact .inr stopped
  drainingAfter draining := drift.interrupted (inv.drainingAfter (drift.draining ▸ draining))

theorem line_inv (inv : Inv cfg s) {rest : List Line} (here : s.phase = .starting rest)
    (outcome : Except Err Unit) : Inv cfg (s.line outcome rest) := by
  have fits := inv.fits
  rw [here] at fits
  obtain ⟨opened,frame,main,admin,idle,calm,running⟩ := fits
  cases rest with
  | nil =>
    have all : s.frame.opened = resources := by simpa using opened
    refine ⟨⟨⟨all,frame,running,?_⟩,calm⟩,?_,?_,inv.drainingAfter⟩
    all_goals intro h; cases h
  | cons line rest =>
    cases line with
    | «try» step =>
      cases outcome with
      | ok u => exact ⟨⟨opened,frame,main,admin,idle,calm,running⟩,inv.mainClosed,inv.adminClosed,inv.drainingAfter⟩
      | error err =>
        refine ⟨⟨⟨_,opened⟩,frame.balanced,.inr ⟨main,idle⟩⟩,inv.mainClosed,inv.adminClosed,inv.drainingAfter⟩
    | defer r =>
      have more : (s.frame.opened ++ [r]) ++ rest.filterMap Line.resource = resources := by
        simpa [Line.resource] using opened
      exact ⟨⟨more,frame.defer r,main,admin,idle,calm,running⟩,inv.mainClosed,inv.adminClosed,inv.drainingAfter⟩

theorem Ended.congr {result : Except Err Unit} (ended : Ended cfg s result)
    (interrupted : t.interrupted = s.interrupted)
    (draining : t.draining = s.draining) (paused : t.paused = s.paused) (main : t.main = s.main)
    (inFlight : t.inFlight = s.inFlight) : Ended cfg t result := by
  cases result with
  | ok u =>
    exact ⟨interrupted.trans ended.interrupted,draining.trans ended.draining,
      fun delay => paused.trans (ended.rested delay),main.trans ended.closed,inFlight.trans ended.answered⟩
  | error err => exact ended.imp_right fun idle => ⟨main.trans idle.1,inFlight.trans idle.2⟩

/-- A deferred call keeps what `run` has come to. -/
theorem close_inv (inv : Inv cfg s) {result : Except Err Unit} (here : s.phase = .returning result) :
    Inv cfg (s.close result) := by
  have fits := inv.fits
  rw [here] at fits
  obtain ⟨opened,balanced,ended⟩ := fits
  unfold State.close
  split
  · next none =>
    exact ⟨⟨opened,balanced.done none,ended.congr rfl rfl rfl rfl rfl⟩,inv.mainClosed,inv.adminClosed,
      inv.drainingAfter⟩
  · next frame taken =>
    obtain ⟨still,same,-⟩ := balanced.next taken
    refine ⟨?_,inv.mainClosed,?_,inv.drainingAfter⟩
    · show Phase.Fits cfg _ s.phase
      rw [here]
      exact ⟨same ▸ opened,still,ended.congr rfl rfl rfl rfl rfl⟩
    · intro closed
      rcases inv.adminClosed closed with failed | stopped
      · exact .inl failed
      · exact .inr (by simp [stopped])

/-! ### Every step keeps it -/

theorem signal_inv (inv : Inv cfg s) : Inv cfg s.signal := by
  unfold State.signal
  split
  · next here =>
    have drift : Drift s { s with secondSignal := true } :=
      ⟨rfl,rfl,rfl,rfl,rfl,id,.inl rfl,id,fun _ => le_rfl⟩
    exact drift.inv inv (fun closed => .inl ⟨closed,rfl⟩) fun closed => .inl ⟨closed,rfl⟩
  · exact inv
  · split
    · have drift : Drift s { s with interrupted := true } :=
        ⟨rfl,rfl,rfl,rfl,rfl,fun _ => rfl,.inl rfl,id,fun _ => le_rfl⟩
      exact drift.inv inv (fun closed => .inl ⟨closed,rfl⟩) fun closed => .inl ⟨closed,rfl⟩
    · exact ⟨trivial,inv.mainClosed,inv.adminClosed,inv.drainingAfter⟩

theorem Up.within (up : Up s) : s.frame.opened <+: resources := up.opened ▸ List.prefix_refl _

/-- `run` goes on from one of its points to the next. -/
theorem shut_inv (inv : Inv cfg s) (up : Up s) (interrupted : s.interrupted = true) (draining : s.draining = true)
    (rested : Rested cfg s) : Inv cfg s.shut where
  fits := ⟨⟨up.opened,up.frame,up.running,fun idle => by cases idle⟩,interrupted,draining,rested,rfl⟩
  mainClosed _ := .inr ⟨draining,rested⟩
  adminClosed := inv.adminClosed
  drainingAfter := inv.drainingAfter

theorem act_inv (inv : Inv cfg s) {a : Action} (taken : act cfg s a = some t) : Inv cfg t := by
  have fits := inv.fits
  cases a with
  | next outcome =>
    simp only [act] at taken
    split at taken
    · next rest here =>
      cases taken
      exact line_inv inv here outcome
    · contradiction
  | signal =>
    cases taken
    exact signal_inv inv
  | mainListens =>
    simp only [act] at taken
    split at taken
    · next starting =>
      cases taken
      have drift : Drift s { s with main := .listening } :=
        ⟨rfl,rfl,rfl,rfl,rfl,id,.inr (by simp [starting]),id,fun _ => le_rfl⟩
      exact drift.inv inv (fun closed => by cases closed) fun closed => .inl ⟨closed,rfl⟩
    · contradiction
  | mainFails err =>
    simp only [act] at taken
    split at taken
    · next up =>
      cases taken
      have drift : Drift s { s with main := .closed, serverErr := some err } := by
        refine ⟨rfl,rfl,rfl,rfl,rfl,id,.inr ?_,id,fun _ => le_rfl⟩
        rcases up with up | up <;> simp [up]
      exact drift.inv inv (fun _ => .inr (by simp)) fun closed => .inl ⟨closed,rfl⟩
    · contradiction
  | adminListens =>
    simp only [act] at taken
    split at taken
    · next starting =>
      cases taken
      have drift : Drift s { s with admin := .listening } :=
        ⟨rfl,rfl,rfl,rfl,rfl,id,.inl rfl,fun idle => by simp [starting] at idle,fun _ => le_rfl⟩
      exact drift.inv inv (fun closed => .inl ⟨closed,rfl⟩) fun closed => by cases closed
    · contradiction
  | adminFails err =>
    simp only [act] at taken
    split at taken
    · next up =>
      cases taken
      have drift : Drift s { s with admin := .closed, adminErr := some (adminUnavailable err) } := by
        refine ⟨rfl,rfl,rfl,rfl,rfl,id,.inl rfl,fun idle => ?_,fun _ => le_rfl⟩
        rcases up with up | up <;> simp [up] at idle
      exact drift.inv inv (fun closed => .inl ⟨closed,rfl⟩) fun _ => .inr (.inl (by simp))
    · contradiction
  | accept =>
    simp only [act] at taken
    split at taken
    · next listening =>
      cases taken
      have drift : Drift s { s with inFlight := s.inFlight + 1 } :=
        ⟨rfl,rfl,rfl,rfl,rfl,id,.inl rfl,id,fun idle => by simp [listening] at idle⟩
      exact drift.inv inv (fun closed => .inl ⟨closed,rfl⟩) fun closed => .inl ⟨closed,rfl⟩
    · contradiction
  | answer =>
    simp only [act] at taken
    split at taken
    · cases taken
      have drift : Drift s { s with inFlight := s.inFlight - 1 } :=
        ⟨rfl,rfl,rfl,rfl,rfl,id,.inl rfl,id,fun _ => Nat.sub_le _ _⟩
      exact drift.inv inv (fun closed => .inl ⟨closed,rfl⟩) fun closed => .inl ⟨closed,rfl⟩
    · contradiction
  | adminCloses =>
    simp only [act] at taken
    split at taken
    · next stopped =>
      cases taken
      have drift : Drift s { s with admin := .closed } := by
        refine ⟨rfl,rfl,rfl,rfl,rfl,id,.inl rfl,fun idle => ?_,fun _ => le_rfl⟩
        rcases stopped.2 with up | up <;> simp [up] at idle
      exact drift.inv inv (fun closed => .inl ⟨closed,rfl⟩) fun _ => .inr (.inr stopped.1)
    · contradiction
  | takeServerErr =>
    simp only [act] at taken
    split at taken
    · next err here found =>
      cases taken
      rw [here] at fits
      exact ⟨⟨fits.1.within,fits.1.frame.balanced,.inl ⟨err,.inl rfl⟩⟩,inv.mainClosed,inv.adminClosed,
        inv.drainingAfter⟩
    · contradiction
  | takeAdminErr =>
    simp only [act] at taken
    split at taken
    · next err here found =>
      cases taken
      rw [here] at fits
      exact ⟨⟨fits.1.within,fits.1.frame.balanced,.inl ⟨err,.inr (.inl rfl)⟩⟩,inv.mainClosed,inv.adminClosed,
        inv.drainingAfter⟩
    · contradiction
  | takeDone =>
    simp only [act] at taken
    split at taken
    · next here =>
      rw [here] at fits
      split at taken
      · next interrupted =>
        cases taken
        exact ⟨⟨⟨fits.1.opened,fits.1.frame,fits.1.running,fits.1.started⟩,interrupted⟩,inv.mainClosed,
          inv.adminClosed,inv.drainingAfter⟩
      · contradiction
    · contradiction
  | drain =>
    simp only [act] at taken
    split at taken
    · next here =>
      cases taken
      rw [here] at fits
      refine ⟨⟨⟨fits.1.opened,fits.1.frame,fits.1.running,fits.1.started⟩,fits.2,rfl⟩,?_,inv.adminClosed,
        fun _ => fits.2⟩
      intro closed
      rcases inv.mainClosed closed with failed | behind
      · exact .inl failed
      · exact .inr ⟨rfl,behind.2⟩
    · contradiction
  | beginPause =>
    simp only [act] at taken
    split at taken
    · next here =>
      rw [here] at fits
      split at taken
      · cases taken
        exact ⟨⟨⟨fits.1.opened,fits.1.frame,fits.1.running,fits.1.started⟩,fits.2⟩,inv.mainClosed,
          inv.adminClosed,inv.drainingAfter⟩
      · contradiction
    · contradiction
  | skipPause =>
    simp only [act] at taken
    split at taken
    · next here =>
      rw [here] at fits
      split at taken
      · contradiction
      · next none =>
        cases taken
        exact shut_inv inv fits.1 fits.2.1 fits.2.2 fun delay => absurd delay none
    · contradiction
  | pauseOver =>
    simp only [act] at taken
    split at taken
    · next here =>
      cases taken
      rw [here] at fits
      exact ⟨⟨⟨fits.1.opened,fits.1.frame,fits.1.running,fun idle => by cases idle⟩,fits.2.1,fits.2.2,
        fun _ => rfl,rfl⟩,fun _ => .inr ⟨fits.2.2,fun _ => rfl⟩,inv.adminClosed,inv.drainingAfter⟩
    · contradiction
  | pauseCut =>
    simp only [act] at taken
    split at taken
    · next here =>
      rw [here] at fits
      split at taken
      · cases taken
        exact ⟨⟨⟨fits.1.opened,fits.1.frame,fits.1.running,fun idle => by cases idle⟩,fits.2.1,fits.2.2,
          fun _ => rfl,rfl⟩,fun _ => .inr ⟨fits.2.2,fun _ => rfl⟩,inv.adminClosed,inv.drainingAfter⟩
      · contradiction
    · contradiction
  | shutdown =>
    simp only [act] at taken
    split at taken
    · next here =>
      rw [here] at fits
      obtain ⟨up,interrupted,draining,rested,closed⟩ := fits
      split at taken
      · next empty =>
        cases taken
        exact ⟨⟨up.within,up.frame.balanced,⟨interrupted,draining,rested,closed,empty⟩⟩,inv.mainClosed,
          fun _ => .inr rfl,inv.drainingAfter⟩
      · contradiction
    · contradiction
  | shutdownFails err =>
    simp only [act] at taken
    split at taken
    · next here =>
      cases taken
      rw [here] at fits
      exact ⟨⟨fits.1.within,fits.1.frame.balanced,.inl ⟨_,.inr (.inr rfl)⟩⟩,inv.mainClosed,inv.adminClosed,
        inv.drainingAfter⟩
    · contradiction
  | closeNext =>
    simp only [act] at taken
    split at taken
    · next result here =>
      cases taken
      exact close_inv inv here
    · contradiction

theorem step_inv (inv : Inv cfg s) {a : Action} (taken : step cfg s a = some t) : Inv cfg t := by
  unfold step at taken
  split at taken
  · contradiction
  · contradiction
  · exact act_inv inv taken

theorem reachable_inv (reached : Reachable (step cfg) (fun _ _ => True) (.initial cfg) s) : Inv cfg s :=
  reached.invariant (Inv cfg) (initial_inv cfg) fun _ _ _ _ inv _ taken => step_inv inv taken

theorem answer_all (n : Nat) (s : State) (shutting : s.phase = .shutting) (waiting : s.inFlight = n) :
    execute (step cfg) s (List.replicate n .answer) = some { s with inFlight := 0 } := by
  induction n generalizing s with
  | zero =>
    have same : { s with inFlight := 0 } = s := by rw [← waiting]
    rw [same]
    rfl
  | succ n ih =>
    have taken : step cfg s .answer = some { s with inFlight := n } := by
      simp [step,shutting,act,waiting]
    rw [List.replicate_succ,execute,taken]
    exact ih _ shutting rfl

/-- The deferred calls are made one after the other. -/
theorem close_all (cfg : Settings) (deferred : List Resource) (s : State) {result : Except Err Unit}
    (here : s.phase = .returning result) (waiting : s.frame.deferred = deferred) :
    ∃ t, execute (step cfg) s (List.replicate (deferred.length + 1) .closeNext) = some t ∧ t.phase = .exited result := by
  induction deferred generalizing s with
  | nil => exact ⟨{ s with phase := .exited result },by simp [execute,step,act,here,State.close,Frame.next,waiting],rfl⟩
  | cons r rest ih =>
    have taken : ∃ u, step cfg s .closeNext = some u ∧ u.phase = .returning result ∧ u.frame.deferred = rest := by
      simp [step,act,here,State.close,Frame.next,waiting]
    obtain ⟨u,taken,still,left⟩ := taken
    obtain ⟨t,closed,exited⟩ := ih u still left
    refine ⟨t,?_,exited⟩
    rw [List.length_cons,List.replicate_succ,execute,taken]
    exact closed

/-- What is left when the listener is closed: the requests, and what was deferred. -/
theorem finish (cfg : Settings) (s : State) (shutting : s.phase = .shutting) :
    ∃ actions t, execute (step cfg) s actions = some t ∧ t.phase = .exited (.ok ()) := by
  have taken : step cfg { s with inFlight := 0 } .shutdown =
      some { s with inFlight := 0, phase := .returning (.ok ()), adminStopped := true } := by
    simp [step,act,shutting]
  obtain ⟨t,closed,exited⟩ := close_all cfg s.frame.deferred
    { s with inFlight := 0, phase := .returning (.ok ()), adminStopped := true } rfl rfl
  refine ⟨List.replicate s.inFlight .answer ++ .shutdown :: List.replicate (s.frame.deferred.length + 1) .closeNext,t,
    execute_append (answer_all s.inFlight s shutting rfl) ?_,exited⟩
  rw [execute,taken]
  exact closed

def cleanly (s : State) : Bool :=
  match s.phase with
  | .exited (.ok ()) => true
  | _ => false

end GophProfile.ServerProcess

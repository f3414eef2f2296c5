import GophProfile.Shutdown
import GophProfile.Library.Defer

/-! The worker process from `config.Load` to its exit: what it opens, the group of its
goroutines with a consumer for each queue among them, and what a signal or a broken
subscription does to all of it. -/
namespace GophProfile.WorkerProcess

open Domain Defer Effect Transition RabbitMQ

/-- What `run` closes when it returns, in the order in which it defers the closing. -/
inductive Resource where
  | signals | tracing | pool | broker
  deriving DecidableEq

/-- The goroutines of the group. -/
inductive Routine where
  | consumer (k : Kind) | reconciler | admin
  deriving DecidableEq

/-- The steps of `run` that may fail. -/
inductive Step where
  | config | logger | tracing | pool | storage | broker | registry | business | breakers | publisher
  deriving DecidableEq

/-- The error that `run` returns for a failed step. -/
def Step.failed (step : Step) (err : Err) : Err :=
  match step with
  | .config | .logger => err
  | .tracing => .errorf "tracing: %w" [] err
  | .pool => .errorf "postgres: %w" [] err
  | .storage => .errorf "s3: %w" [] err
  | .broker => .errorf "rabbitmq: %w" [] err
  | .registry => .errorf "metrics registry: %w" [] err
  | .business => .errorf "business metrics: %w" [] err
  | .breakers => .errorf "breaker metrics: %w" [] err
  | .publisher => .errorf "rabbitmq publisher: %w" [] err

def consumerFailed (queue : GoString) (err : Err) : Err := .errorf "rabbitmq consumer %s: %w" [queue] err
def workerFailed (err : Err) : Err := .errorf "worker: %w" [] err

/-- A line of `run` before it waits for the group. -/
inductive Line where
  | try (step : Step)
  | defer (r : Resource)
  /-- `NewConsumer` and, if it succeeds, `group.Go`. -/
  | consume (k : Kind)
  | go (r : Routine)
  deriving DecidableEq

def startup : List Line :=
  [.try .config,.try .logger,.defer .signals,.try .tracing,.defer .tracing,.try .pool,.defer .pool,
    .try .storage,.try .broker,.defer .broker,.try .registry,.try .business,.try .breakers,.try .publisher,
    .consume .upload,.consume .delete,.go .reconciler,.go .admin]

/-- Where `run` is. -/
inductive Phase where
  | starting (rest : List Line)
  /-- In `group.Wait`. -/
  | waiting
  /-- The deferred calls are made. -/
  | returning (result : Except Err Unit)
  | exited (result : Except Err Unit)
  /-- A signal came that nobody had asked for. -/
  | killed

inductive Status where
  | idle | running | done
  deriving DecidableEq

structure State where
  phase : Phase
  frame : Frame Resource
  /-- A signal cancels a context and does not kill. -/
  caught : Bool
  signalled : Bool
  /-- `stop` was called. -/
  stopped : Bool
  routines : Routine → Status
  /-- The first error that a goroutine of the group returned. -/
  groupErr : Option Err
  queues : Kind → Consume.State

def State.initial (world : World) : State where
  phase := .starting startup
  frame := .empty
  caught := false
  signalled := false
  stopped := false
  routines := fun _ => .idle
  groupErr := none
  queues := fun _ => .initial world

/-- `groupCtx` is done. -/
def State.cancelled (s : State) : Bool := s.signalled || s.stopped || s.groupErr.isSome

inductive Action where
  /-- The next line of the start, with the outcome of the step it tries. -/
  | next (outcome : Except Err Unit)
  | signal
  /-- A step of a consumer, or of the broker with its queue. -/
  | queue (k : Kind) (a : Consume.Action)
  /-- The reconciler, the server and other workers share the dependencies. -/
  | others (world : World)
  | returns (r : Routine)
  | wait
  | closeNext

section
variable (P : Packages) (p : Worker.Processor) (t : Topology) (maxRetries : Int64)

def consumeStep (k : Kind) : Consume.State → Consume.Action → Option Consume.State :=
  Consume.step t (t.pair k).work (consumer t maxRetries) (Consume.handlerOf P p k)

/-- One line of the start. -/
def State.line (s : State) (outcome : Except Err Unit) : List Line → State
  | [] => { s with phase := .waiting }
  | .try step :: rest =>
    match outcome with
    | .ok () => { s with phase := .starting rest }
    | .error err => { s with phase := .returning (.error (step.failed err)) }
  | .defer r :: rest =>
    { s with phase := .starting rest, frame := s.frame.defer r, caught := s.caught || r == .signals }
  | .consume k :: rest =>
    match outcome with
    | .ok () =>
      { s with phase := .starting rest, routines := Function.update s.routines (.consumer k) .running }
    | .error err => { s with phase := .returning (.error (consumerFailed (t.pair k).work err)) }
  | .go r :: rest => { s with phase := .starting rest, routines := Function.update s.routines r .running }

/-- A deferred call; the one of the signals cancels the context. -/
def State.close (s : State) (result : Except Err Unit) : State :=
  match s.frame.next with
  | none => { s with phase := .exited result }
  | some frame =>
    { s with
      frame := frame
      caught := s.caught && s.frame.deferred.head? != some .signals
      stopped := s.stopped || s.frame.deferred.head? == some .signals }

def State.signal (s : State) : State :=
  if s.caught then { s with signalled := true } else { s with phase := .killed }

/-- The broker acts on a queue at any time; a consumer while it runs. -/
def State.permits (s : State) (k : Kind) : Consume.Action → Bool
  | .arrive _ | .deliver | .endDeliveries => true
  | .cancel => s.cancelled
  | .others _ | .close => false
  | _ => s.routines (.consumer k) == .running

/-- A queue has changed, and with it what both consumers work on. -/
def State.withQueue (s : State) (k : Kind) (q : Consume.State) : State :=
  { s with queues := fun other => if other = k then q else { s.queues other with world := q.world } }

/-- What a goroutine has returned. -/
def State.returned (s : State) : Routine → Option (Except Err Unit)
  | .consumer k =>
    match (s.queues k).point with
    | .returned result => some result
    | _ => none
  -- neither fails; a listener that does is logged
  | .reconciler => if s.cancelled then some (.ok ()) else none
  | .admin => some (.ok ())

/-- A consumer closes its channel before the group hears of it. -/
def State.ends (s : State) (r : Routine) (result : Except Err Unit) : State :=
  { s with
    routines := Function.update s.routines r .done
    groupErr := s.groupErr.or (match result with | .ok () => none | .error err => some err) }

def act (s : State) : Action → Option State
  | .next outcome => match s.phase with | .starting rest => some (s.line t outcome rest) | _ => none
  | .signal => some s.signal
  | .queue k a =>
    if s.permits k a then (consumeStep P p t maxRetries k (s.queues k) a).map (s.withQueue k) else none
  | .others world => some { s with queues := fun k => { s.queues k with world := world } }
  | .returns r =>
    match s.routines r, s.returned r with
    | .running, some result =>
      match r with
      | .consumer k => (consumeStep P p t maxRetries k (s.queues k) .close).map fun q => (s.withQueue k q).ends r result
      | _ => some (s.ends r result)
    | _, _ => none
  | .wait =>
    match s.phase with
    | .waiting =>
      if s.routines (.consumer .upload) = .done ∧ s.routines (.consumer .delete) = .done ∧
          s.routines .reconciler = .done ∧ s.routines .admin = .done then
        some { s with
          phase := .returning (match s.groupErr with | none => .ok () | some err => .error (workerFailed err)) }
      else none
    | _ => none
  | .closeNext => match s.phase with | .returning result => some (s.close result) | _ => none

/-- Nothing happens in a process that is gone. -/
def step (s : State) (a : Action) : Option State :=
  match s.phase with
  | .exited _ | .killed => none
  | _ => act P p t maxRetries s a

end

/-! ### How a consumer ends -/

section Consumer

open Consume

variable {t : Topology} {queue : GoString} {c : RabbitMQ.Consumer} {handler : GoString → Prog (Except Err Unit)}

/-- The subscription failed, or the broker ended it. -/
def Lost (queue : GoString) (err : Err) : Prop :=
  (∃ cause, err = .errorf "consume %s: %w" [queue] cause) ∨ err = .errorf "%w: очередь %s" [queue] errDeliveryClosed

/-- What has to be the case for a consumer to be at its end. -/
def Ending (queue : GoString) (cancelled : Bool) : Point → Prop
  | .unsubscribe | .returned (.ok ()) => cancelled = true
  | .returned (.error err) => Lost queue err
  | _ => True

theorem ending_handling (cancelled : Bool) (d : Consume.Delivery) (calls : Called) (rest : Prog (Except Err Unit)) :
    Ending queue cancelled (handling c d calls rest) := by
  cases rest <;> trivial

theorem ending_cancelled {cancelled : Bool} {point : Point} (ending : Ending queue cancelled point) :
    Ending queue true point := by
  cases point with
  | returned result => cases result with
    | ok u => rfl
    | error err => exact ending
  | unsubscribe => rfl
  | _ => trivial

/-- The steps of the routine itself; only `Close` closes the channel. -/
theorem consume_ends {s s' : Consume.State} {a : Consume.Action} (ending : Ending queue s.cancelled s.point)
    (taken : consume t queue c handler s s.point a = some s') :
    s'.cancelled = s.cancelled ∧ Ending queue s'.cancelled s'.point ∧ (s'.point = .closed ↔ a = .close) := by
  generalize here : s.point = point at taken ending
  unfold consume at taken
  split at taken
  case h_1 => cases taken; exact ⟨rfl,trivial,by simp⟩
  case h_2 err => cases taken; exact ⟨rfl,.inl ⟨err,rfl⟩,by simp⟩
  case h_3 =>
    split at taken
    · next cancelled => cases taken; exact ⟨rfl,cancelled,by simp⟩
    · contradiction
  case h_4 =>
    split at taken
    · cases taken; exact ⟨rfl,ending_handling _ _ _ _,by simp [handling_ne_closed]⟩
    · contradiction
  case h_5 =>
    split at taken
    · cases taken; exact ⟨rfl,trivial,by simp⟩
    · contradiction
  case h_6 =>
    cases taken
    refine ⟨rfl,?_,by simp⟩
    cases cancelled : s.cancelled with
    | true => rfl
    | false => exact .inr rfl
  case h_7 => cases taken; exact ⟨rfl,ending,by simp⟩
  case h_8 =>
    obtain ⟨result,-,rfl⟩ := Option.map_eq_some_iff.mp taken
    exact ⟨rfl,ending_handling _ _ _ _,by simp [handling_ne_closed]⟩
  case h_9 => cases taken; exact ⟨rfl,trivial,by simp⟩
  case h_10 => cases taken; exact ⟨rfl,trivial,by simp⟩
  case h_11 =>
    split at taken
    · contradiction
    · cases taken; exact ⟨rfl,trivial,by simp⟩
  case h_12 => cases taken; exact ⟨rfl,trivial,by simp⟩
  case h_13 => contradiction

/-- The error of a consumer that could not subscribe, its context being done already. -/
def notSubscribed (queue : GoString) : Err := .errorf "consume %s: %w" [queue] .canceled

/-- A consumer that nothing happens to but the cancellation. -/
def Quiet (queue : GoString) (s : Consume.State) : Point → Prop
  | .select | .handle _ _ _ | .settle _ _ _ _ _ => s.delivering = true ∨ s.cancelled = true
  | .recheck => s.cancelled = true
  | .returned (.error err) => err = notSubscribed queue
  | _ => True

theorem quiet_handling {s : Consume.State} (goes : s.delivering = true ∨ s.cancelled = true) (d : Consume.Delivery)
    (calls : Called) (rest : Prog (Except Err Unit)) : Quiet queue s (handling c d calls rest) := by
  cases rest <;> exact goes

theorem quiet_consume {s s' : Consume.State} {a : Consume.Action} (quiet : Quiet queue s s.point) (calm : Calm s a)
    (taken : consume t queue c handler s s.point a = some s') : Quiet queue s' s'.point := by
  generalize s.point = point at taken quiet
  unfold consume at taken
  split at taken
  case h_1 => cases taken; exact .inl rfl
  case h_2 err =>
    cases taken
    rcases calm with impossible | ⟨-,canceled⟩
    · contradiction
    · cases canceled
      rfl
  case h_3 => split at taken <;> cases taken; trivial
  case h_4 =>
    split at taken
    · cases taken
      have goes : s.delivering = true ∨ s.cancelled = true := quiet
      exact quiet_handling (s := { s with buffer := _, point := _ }) goes _ _ _
    · contradiction
  case h_5 =>
    split at taken
    · next ended =>
      cases taken
      have goes : s.delivering = true ∨ s.cancelled = true := quiet
      exact goes.resolve_left (by simp [ended.1])
    · contradiction
  case h_6 =>
    cases taken
    have cancelled : s.cancelled = true := quiet
    rw [cancelled]
    trivial
  case h_7 => cases taken; trivial
  case h_8 =>
    obtain ⟨result,-,rfl⟩ := Option.map_eq_some_iff.mp taken
    have goes : s.delivering = true ∨ s.cancelled = true := quiet
    exact quiet_handling (s := { s with world := _, point := _ }) goes _ _ _
  case h_9 => cases taken; exact quiet
  case h_10 => cases taken; exact quiet
  case h_11 =>
    split at taken
    · contradiction
    · cases taken; exact quiet
  case h_12 => cases taken; trivial
  case h_13 => contradiction

theorem quiet_stays {s s' : Consume.State} (quiet : Quiet queue s s.point) (point : s'.point = s.point)
    (goes : s.delivering = true → s'.delivering = true ∨ s'.cancelled = true)
    (cancelled : s.cancelled = true → s'.cancelled = true) : Quiet queue s' s'.point := by
  rw [point]
  generalize s.point = here at quiet
  cases here with
  | recheck => exact cancelled quiet
  | select => exact quiet.elim goes fun done => .inr (cancelled done)
  | handle => exact quiet.elim goes fun done => .inr (cancelled done)
  | settle => exact quiet.elim goes fun done => .inr (cancelled done)
  | returned result => cases result with
    | ok => trivial
    | error err => exact quiet
  | _ => trivial

theorem quiet_step {s s' : Consume.State} {a : Consume.Action} (quiet : Quiet queue s s.point) (calm : Calm s a)
    (taken : Consume.step t queue c handler s a = some s') : Quiet queue s' s'.point := by
  cases a with
  | arrive message => cases taken; exact quiet_stays quiet rfl .inl id
  | deliver =>
    simp only [Consume.step] at taken
    split at taken
    · cases taken; exact quiet_stays quiet rfl .inl id
    · contradiction
  | others world => cases taken; exact quiet_stays quiet rfl .inl id
  | cancel => cases taken; exact quiet_stays quiet rfl .inl fun _ => rfl
  | endDeliveries =>
    have cancelled : s.cancelled = true := calm
    cases taken
    exact quiet_stays quiet rfl (fun _ => .inr cancelled) id
  | _ => exact quiet_consume quiet calm taken

theorem quiet_run {world : World} {trace : List (Consume.State × Consume.Action × Consume.State)} {s : Consume.State}
    (run : Path (Consume.step t queue c handler) (.initial world) trace s)
    (calm : ∀ entry ∈ trace, Calm entry.1 entry.2.1) : Quiet queue s s.point := by
  induction run with
  | nil => trivial
  | snoc before taken ih =>
    exact quiet_step (ih fun entry member => calm entry (List.mem_append_left _ member))
      (calm _ (List.mem_append_right _ (List.mem_singleton.mpr rfl))) taken

end Consumer

/-! ### What holds at each point -/

/-- The closing of every resource, in the order in which it is deferred. -/
def resources : List Resource := [.signals,.tracing,.pool,.broker]

/-- The goroutines in the order in which they are started. -/
def group : List Routine := [.consumer .upload,.consumer .delete,.reconciler,.admin]

def Line.resource : Line → Option Resource
  | .defer r => some r
  | _ => none

def Line.routine : Line → Option Routine
  | .consume k => some (.consumer k)
  | .go r => some r
  | _ => none

theorem all_routines (r : Routine) : r ∈ group := by
  cases r with
  | consumer k => cases k <;> decide
  | _ => decide

theorem try_first {step : Step} {rest : List Line} (part : .try step :: rest <:+ startup) :
    rest.filterMap Line.routine = group := by
  rw [← List.mem_tails] at part
  simp only [startup,List.tails,List.mem_cons,List.cons.injEq,Line.try.injEq,reduceCtorEq,false_and,false_or,
    or_false,List.not_mem_nil] at part
  rcases part with ⟨-,rfl⟩ | ⟨-,rfl⟩ | ⟨-,rfl⟩ | ⟨-,rfl⟩ | ⟨-,rfl⟩ | ⟨-,rfl⟩ | ⟨-,rfl⟩ | ⟨-,rfl⟩ | ⟨-,rfl⟩ | ⟨-,rfl⟩ <;> rfl

theorem consume_first {k : Kind} {rest : List Line} (part : .consume k :: rest <:+ startup) :
    (k = .upload ∧ rest.filterMap Line.routine = [.consumer .delete,.reconciler,.admin]) ∨
      (k = .delete ∧ rest.filterMap Line.routine = [.reconciler,.admin]) := by
  rw [← List.mem_tails] at part
  simp only [startup,List.tails,List.mem_cons,List.cons.injEq,Line.consume.injEq,reduceCtorEq,false_and,false_or,
    or_false,List.not_mem_nil] at part
  rcases part with ⟨rfl,rfl⟩ | ⟨rfl,rfl⟩
  · exact .inl ⟨rfl,rfl⟩
  · exact .inr ⟨rfl,rfl⟩

section
variable (t : Topology)

/-- How `run` got to its result. -/
def Ended (s : State) : Except Err Unit → Prop
  | .ok () => s.signalled = true ∧ s.groupErr = none ∧ ∀ r, s.routines r = .done
  | .error err =>
    (∃ k cause, err = workerFailed cause ∧ Lost (t.pair k).work cause ∧ s.groupErr = some cause ∧
      ∀ r, s.routines r = .done) ∨
    (∃ step cause, err = Step.failed step cause ∧ ∀ r, s.routines r = .idle) ∨
    (∃ cause, err = consumerFailed (t.pair .upload).work cause ∧ ∀ r, s.routines r = .idle) ∨
    ∃ cause, err = consumerFailed (t.pair .delete).work cause ∧ ∀ r, r ≠ .consumer .upload → s.routines r = .idle

def Phase.Fits (s : State) : Phase → Prop
  | .starting rest => rest <:+ startup ∧ s.frame.opened ++ rest.filterMap Line.resource = resources ∧ s.frame.Open ∧
      s.stopped = false ∧ ∀ r, s.routines r = .idle ↔ r ∈ rest.filterMap Line.routine
  | .waiting => s.frame.opened = resources ∧ s.frame.Open ∧ s.stopped = false ∧ ∀ r, s.routines r ≠ .idle
  | .returning result => s.frame.opened <+: resources ∧ s.frame.Balanced ∧ Ended t s result
  | .exited result => s.frame.opened <+: resources ∧ s.frame.closed = s.frame.opened.reverse ∧ Ended t s result
  | .killed => True

/-- A consumer and its queue. -/
structure Consuming (s : State) (k : Kind) : Prop where
  ending : Ending (t.pair k).work (s.queues k).cancelled (s.queues k).point
  cancelled : (s.queues k).cancelled = true → s.cancelled = true
  idle : s.routines (.consumer k) = .idle → (s.queues k).point = .subscribe
  done : s.routines (.consumer k) = .done ↔ (s.queues k).point = .closed

structure Inv (s : State) : Prop where
  fits : s.phase.Fits t s
  consuming : ∀ k, Consuming t s k
  failed : ∀ err, s.groupErr = some err → ∃ k, Lost (t.pair k).work err ∧ s.routines (.consumer k) = .done
  regular : ∀ r, r ≠ .admin → s.routines r = .done → s.cancelled = true

end

section
variable {P : Packages} {p : Worker.Processor} {t : Topology} {maxRetries : Int64} {s u : State}

theorem initial_inv (world : World) : Inv t (.initial world) where
  fits := ⟨List.suffix_rfl,rfl,open_empty,rfl,fun r => ⟨fun _ => all_routines r,fun _ => rfl⟩⟩
  consuming k := ⟨trivial,(by intro h; cases h),fun _ => rfl,by constructor <;> intro h <;> cases h⟩
  failed := by intro err h; cases h
  regular := by intro r _ h; cases h

/-- A step that `run` itself does not take: what it can change. -/
structure Drift (s u : State) : Prop where
  phase : u.phase = s.phase
  frame : u.frame = s.frame
  stopped : u.stopped = s.stopped
  signalled : s.signalled = true → u.signalled = true
  routines : ∀ r, u.routines r = s.routines r ∨ (s.routines r = .running ∧ u.routines r = .done)
  groupErr : u.groupErr = s.groupErr ∨ (s.groupErr = none ∧ ∃ r, s.routines r = .running)

theorem Drift.idle_iff (drift : Drift s u) (r : Routine) : u.routines r = .idle ↔ s.routines r = .idle := by
  rcases drift.routines r with same | ⟨running,done⟩
  · rw [same]
  · simp [running,done]

theorem Drift.stays (drift : Drift s u) {r : Routine} (done : s.routines r = .done) : u.routines r = .done := by
  rcases drift.routines r with same | ⟨running,-⟩
  · exact same.trans done
  · rw [done] at running
    contradiction

theorem Drift.kept (drift : Drift s u) {err : Err} (failed : s.groupErr = some err) : u.groupErr = some err := by
  rcases drift.groupErr with same | ⟨none,-⟩
  · exact same.trans failed
  · rw [failed] at none
    contradiction

theorem Drift.cancelled (drift : Drift s u) (cancelled : s.cancelled = true) : u.cancelled = true := by
  simp only [State.cancelled,Bool.or_eq_true,Option.isSome_iff_exists] at cancelled ⊢
  rw [drift.stopped]
  rcases cancelled with (signalled | stopped) | ⟨err,failed⟩
  · exact .inl (.inl (drift.signalled signalled))
  · exact .inl (.inr stopped)
  · exact .inr ⟨err,drift.kept failed⟩

theorem Drift.ended (drift : Drift s u) {result : Except Err Unit} (ended : Ended t s result) : Ended t u result := by
  cases result with
  | ok =>
    obtain ⟨signalled,none,done⟩ := ended
    refine ⟨drift.signalled signalled,?_,fun r => drift.stays (done r)⟩
    rcases drift.groupErr with same | ⟨-,r,running⟩
    · exact same.trans none
    · rw [done r] at running
      contradiction
  | error err =>
    rcases ended with ⟨k,cause,same,lost,failed,done⟩ | ⟨step,cause,same,idle⟩ | ⟨cause,same,idle⟩ | ⟨cause,same,idle⟩
    · exact .inl ⟨k,cause,same,lost,drift.kept failed,fun r => drift.stays (done r)⟩
    · exact .inr (.inl ⟨step,cause,same,fun r => (drift.idle_iff r).mpr (idle r)⟩)
    · exact .inr (.inr (.inl ⟨cause,same,fun r => (drift.idle_iff r).mpr (idle r)⟩))
    · exact .inr (.inr (.inr ⟨cause,same,fun r other => (drift.idle_iff r).mpr (idle r other)⟩))

theorem Drift.fits (drift : Drift s u) (fits : s.phase.Fits t s) : u.phase.Fits t u := by
  rw [drift.phase]
  cases here : s.phase with
  | starting rest =>
    rw [here] at fits
    obtain ⟨part,opened,frame,stopped,idle⟩ := fits
    exact ⟨part,drift.frame ▸ opened,drift.frame ▸ frame,drift.stopped.trans stopped,
      fun r => (drift.idle_iff r).trans (idle r)⟩
  | waiting =>
    rw [here] at fits
    obtain ⟨opened,frame,stopped,started⟩ := fits
    exact ⟨drift.frame ▸ opened,drift.frame ▸ frame,drift.stopped.trans stopped,
      fun r => mt (drift.idle_iff r).mp (started r)⟩
  | returning result =>
    rw [here] at fits
    exact ⟨drift.frame ▸ fits.1,drift.frame ▸ fits.2.1,drift.ended fits.2.2⟩
  | exited result =>
    rw [here] at fits
    exact ⟨drift.frame ▸ fits.1,drift.frame ▸ fits.2.1,drift.ended fits.2.2⟩
  | killed => trivial

/-! ### Every step keeps it -/

/-- Nothing but the signals and the lines of `run` changes. -/
theorem Inv.congr (inv : Inv t s) (fits : u.phase.Fits t u) (routines : u.routines = s.routines)
    (groupErr : u.groupErr = s.groupErr) (queues : u.queues = s.queues)
    (cancelled : s.cancelled = true → u.cancelled = true) : Inv t u where
  fits := fits
  consuming k := by
    obtain ⟨ending,asked,idle,done⟩ := inv.consuming k
    rw [← queues] at ending asked idle done
    rw [← routines] at idle done
    exact ⟨ending,fun queue => cancelled (asked queue),idle,done⟩
  failed := by
    rw [routines,groupErr]
    exact inv.failed
  regular := by
    rw [routines]
    exact fun r other done => cancelled (inv.regular r other done)

theorem start_inv (inv : Inv t s) {r : Routine} {phase : Phase} (idle : s.routines r = .idle)
    (fits : phase.Fits t { s with phase := phase, routines := Function.update s.routines r .running }) :
    Inv t { s with phase := phase, routines := Function.update s.routines r .running } := by
  refine ⟨fits,fun k => ?_,fun err failed => ?_,fun other regular done => ?_⟩
  · obtain ⟨ending,asked,first,done⟩ := inv.consuming k
    refine ⟨ending,asked,fun still => ?_,?_⟩
    · by_cases same : Routine.consumer k = r
      · simp [same] at still
      · exact first (by simpa [Function.update_of_ne same] using still)
    · by_cases same : Routine.consumer k = r
      · subst same
        have fresh := first idle
        simp [fresh]
      · simpa [Function.update_of_ne same] using done
  · obtain ⟨k,lost,done⟩ := inv.failed err failed
    refine ⟨k,lost,?_⟩
    have other : Routine.consumer k ≠ r := by
      rintro rfl
      rw [idle] at done
      contradiction
    simpa [Function.update_of_ne other] using done
  · by_cases same : other = r
    · simp [same] at done
    · exact inv.regular other regular (by simpa [Function.update_of_ne same] using done)

/-- The start of a goroutine takes it off the lines still to come. -/
theorem start_fits {r : Routine} {rest : List Line} (part : rest <:+ startup)
    (before : ∀ other, s.routines other = .idle ↔ other ∈ r :: rest.filterMap Line.routine)
    (unique : (r :: rest.filterMap Line.routine).Nodup)
    (opened : s.frame.opened ++ rest.filterMap Line.resource = resources)
    (frame : s.frame.Open) (stopped : s.stopped = false) :
    Phase.Fits t { s with phase := .starting rest, routines := Function.update s.routines r .running }
      (.starting rest) := by
  refine ⟨part,opened,frame,stopped,fun other => ?_⟩
  by_cases same : other = r
  · subst same
    simpa using (List.nodup_cons.mp unique).1
  · simp [before other,same]

theorem routines_nodup {rest : List Line} (part : rest <:+ startup) : (rest.filterMap Line.routine).Nodup := by
  obtain ⟨before,whole⟩ := part
  have unique : (startup.filterMap Line.routine).Nodup := by decide
  rw [← whole,List.filterMap_append] at unique
  exact unique.of_append_right

/-- A line of the start. -/
theorem line_inv (inv : Inv t s) {rest : List Line} (here : s.phase = .starting rest) (outcome : Except Err Unit) :
    Inv t (s.line t outcome rest) := by
  have fits := inv.fits
  rw [here] at fits
  obtain ⟨part,opened,frame,stopped,idle⟩ := fits
  cases rest with
  | nil =>
    refine inv.congr ⟨(List.append_nil _).symm.trans opened,frame,stopped,fun r still => ?_⟩ rfl rfl rfl id
    have none := (idle r).mp still
    contradiction
  | cons line rest =>
    have shorter : rest <:+ startup := (List.suffix_cons line rest).trans part
    cases line with
    | «try» step =>
      cases outcome with
      | ok u => exact inv.congr ⟨shorter,opened,frame,stopped,idle⟩ rfl rfl rfl id
      | error err =>
        have untouched : ∀ r, s.routines r = .idle := fun r => by
          have all := try_first part
          exact (idle r).mpr (by simpa [List.filterMap_cons,Line.routine,all] using all_routines r)
        exact inv.congr ⟨⟨_,opened⟩,frame.balanced,.inr (.inl ⟨step,err,rfl,untouched⟩)⟩ rfl rfl rfl id
    | defer r =>
      have more : (s.frame.opened ++ [r]) ++ rest.filterMap Line.resource = resources := by
        simpa [Line.resource] using opened
      exact inv.congr ⟨shorter,more,frame.defer r,stopped,idle⟩ rfl rfl rfl id
    | consume k =>
      cases outcome with
      | ok u =>
        exact start_inv inv ((idle _).mpr (List.mem_cons_self)) (start_fits shorter idle (routines_nodup part) opened
          frame stopped)
      | error err =>
        have first : ∀ r, s.routines r = .idle ↔ r = .consumer k ∨ r ∈ rest.filterMap Line.routine := by
          simpa [List.filterMap_cons,Line.routine] using idle
        refine inv.congr ⟨⟨_,opened⟩,frame.balanced,.inr (.inr ?_)⟩ rfl rfl rfl id
        rcases consume_first part with ⟨rfl,left⟩ | ⟨rfl,left⟩
        · refine .inl ⟨err,rfl,fun r => (first r).mpr ?_⟩
          rw [left]
          simpa [group] using all_routines r
        · refine .inr ⟨err,rfl,fun r other => (first r).mpr ?_⟩
          rw [left]
          have all := all_routines r
          simp only [group,List.mem_cons,other,false_or] at all
          simpa using all
    | go r =>
      exact start_inv inv ((idle _).mpr (List.mem_cons_self)) (start_fits shorter idle (routines_nodup part) opened
        frame stopped)

/-- A deferred call keeps what `run` has come to. -/
theorem close_inv (inv : Inv t s) {result : Except Err Unit} (here : s.phase = .returning result) :
    Inv t (s.close result) := by
  have fits := inv.fits
  rw [here] at fits
  obtain ⟨opened,balanced,ended⟩ := fits
  unfold State.close
  split
  · next none => exact inv.congr ⟨opened,balanced.done none,ended⟩ rfl rfl rfl id
  · next frame taken =>
    obtain ⟨still,same,-⟩ := balanced.next taken
    refine inv.congr ?_ rfl rfl rfl ?_
    · show Phase.Fits t _ s.phase
      rw [here]
      exact ⟨same ▸ opened,still,ended⟩
    · intro cancelled
      simp only [State.cancelled,Bool.or_eq_true] at cancelled ⊢
      rcases cancelled with (signalled | stopped) | failed
      · exact .inl (.inl signalled)
      · exact .inl (.inr (.inl stopped))
      · exact .inr failed

theorem signal_inv (inv : Inv t s) : Inv t s.signal := by
  unfold State.signal
  split
  · have drift : Drift s { s with signalled := true } :=
      ⟨rfl,rfl,rfl,fun _ => rfl,fun _ => .inl rfl,.inl rfl⟩
    exact inv.congr (drift.fits inv.fits) rfl rfl rfl drift.cancelled
  · exact inv.congr trivial rfl rfl rfl id

/-- A step with a queue is one of the broker or of the context, or of a consumer that runs. -/
theorem queue_step {k : Kind} {a : Consume.Action} {q : Consume.State} (permitted : s.permits k a = true)
    (taken : consumeStep P p t maxRetries k (s.queues k) a = some q) :
    (q.point = (s.queues k).point ∧ (q.cancelled = (s.queues k).cancelled ∨ q.cancelled = true ∧ s.cancelled = true)) ∨
    (s.routines (.consumer k) = .running ∧ a ≠ .close ∧
      Consume.consume t (t.pair k).work (consumer t maxRetries) (Consume.handlerOf P p k) (s.queues k)
        (s.queues k).point a = some q) := by
  cases a with
  | arrive message => cases taken; exact .inl ⟨rfl,.inl rfl⟩
  | deliver =>
    simp only [consumeStep,Consume.step] at taken
    split at taken
    · cases taken; exact .inl ⟨rfl,.inl rfl⟩
    · contradiction
  | endDeliveries => cases taken; exact .inl ⟨rfl,.inl rfl⟩
  | cancel => cases taken; exact .inl ⟨rfl,.inr ⟨rfl,permitted⟩⟩
  | others => contradiction
  | close => contradiction
  | _ => exact .inr ⟨by simpa [State.permits] using permitted,by simp,taken⟩

theorem Consuming.queue {k : Kind} (before : Consuming t s k) {a : Consume.Action} {q : Consume.State}
    (permitted : s.permits k a = true) (taken : consumeStep P p t maxRetries k (s.queues k) a = some q) :
    Consuming t (s.withQueue k q) k := by
  have here : (s.withQueue k q).queues k = q := if_pos rfl
  obtain ⟨ending,asked,idle,done⟩ := before
  rcases queue_step permitted taken with ⟨point,same | ⟨cancelled,all⟩⟩ | ⟨running,other,taken⟩
  · exact ⟨by rw [here,point,same]; exact ending,by rw [here,same]; exact asked,by rw [here,point]; exact idle,
      by rw [here,point]; exact done⟩
  · exact ⟨by rw [here,point,cancelled]; exact ending_cancelled ending,fun _ => all,by rw [here,point]; exact idle,
      by rw [here,point]; exact done⟩
  · obtain ⟨cancelled,ends,closed⟩ := consume_ends ending taken
    refine ⟨by rw [here]; exact ends,by rw [here,cancelled]; exact asked,fun still => ?_,?_⟩
    · have still : s.routines (.consumer k) = .idle := still
      rw [running] at still
      contradiction
    · rw [here,closed]
      show s.routines (.consumer k) = .done ↔ _
      simp [running,other]

/-- The other queue sees nothing but what both work on. -/
theorem Consuming.beside {k other : Kind} (before : Consuming t s other) (different : other ≠ k) (q : Consume.State) :
    Consuming t (s.withQueue k q) other := by
  have here : (s.withQueue k q).queues other = { s.queues other with world := q.world } := if_neg different
  obtain ⟨ending,asked,idle,done⟩ := before
  exact ⟨by rw [here]; exact ending,by rw [here]; exact asked,by rw [here]; exact idle,by rw [here]; exact done⟩

theorem queue_inv (inv : Inv t s) {k : Kind} {a : Consume.Action} {q : Consume.State} (permitted : s.permits k a = true)
    (taken : consumeStep P p t maxRetries k (s.queues k) a = some q) : Inv t (s.withQueue k q) where
  fits := by
    have drift : Drift s (s.withQueue k q) := ⟨rfl,rfl,rfl,id,fun _ => .inl rfl,.inl rfl⟩
    exact drift.fits inv.fits
  consuming other := by
    by_cases same : other = k
    · subst same
      exact (inv.consuming other).queue permitted taken
    · exact (inv.consuming other).beside same q
  failed := inv.failed
  regular := inv.regular

theorem others_inv (inv : Inv t s) (world : World) :
    Inv t { s with queues := fun k => { s.queues k with world := world } } where
  fits := by
    have drift : Drift s { s with queues := fun k => { s.queues k with world := world } } :=
      ⟨rfl,rfl,rfl,id,fun _ => .inl rfl,.inl rfl⟩
    exact drift.fits inv.fits
  consuming k := by
    obtain ⟨ending,asked,idle,done⟩ := inv.consuming k
    exact ⟨ending,asked,idle,done⟩
  failed := inv.failed
  regular := inv.regular

/-- A goroutine returns to the group. -/
theorem ends_drift (s : State) {r : Routine} {result : Except Err Unit} (running : s.routines r = .running) :
    Drift s (s.ends r result) where
  phase := rfl
  frame := rfl
  stopped := rfl
  signalled := id
  routines other := by
    by_cases same : other = r
    · subst same
      exact .inr ⟨running,Function.update_self _ _ _⟩
    · exact .inl (Function.update_of_ne same _ _)
  groupErr := by
    cases failed : s.groupErr with
    | none => exact .inr ⟨rfl,r,running⟩
    | some err => exact .inl (by simp [State.ends,failed])

theorem ends_cancelled {s : State} {r : Routine} {result : Except Err Unit} (running : s.routines r = .running)
    (returned : result = .ok () → s.cancelled = true) : (s.ends r result).cancelled = true := by
  cases result with
  | ok => exact (ends_drift s running).cancelled (returned rfl)
  | error err => simp [State.cancelled,State.ends]

theorem returned_cancelled (inv : Inv t s) {r : Routine} {result : Except Err Unit} (regular : r ≠ .admin)
    (returned : s.returned r = some result) : result = .ok () → s.cancelled = true := by
  rintro rfl
  cases r with
  | consumer k =>
    simp only [State.returned] at returned
    split at returned
    · next point =>
      cases returned
      obtain ⟨ending,asked,-,-⟩ := inv.consuming k
      rw [point] at ending
      exact asked ending
    · contradiction
  | reconciler =>
    simp only [State.returned] at returned
    split at returned
    · assumption
    · contradiction
  | admin => exact absurd rfl regular

/-- What is known of the consumers when another goroutine returns. -/
theorem Consuming.ends {k : Kind} {r : Routine} (before : Consuming t s k) (other : Routine.consumer k ≠ r)
    (running : s.routines r = .running) (result : Except Err Unit) : Consuming t (s.ends r result) k := by
  obtain ⟨ending,asked,idle,done⟩ := before
  have same : (s.ends r result).routines (.consumer k) = s.routines (.consumer k) := Function.update_of_ne other _ _
  exact ⟨ending,fun queue => (ends_drift s running).cancelled (asked queue),by rw [same]; exact idle,
    by rw [same]; exact done⟩

theorem ends_inv (inv : Inv t s) {v : State} {r : Routine} {result : Except Err Unit} (beside : Drift s v)
    (routines : v.routines = s.routines) (groupErr : v.groupErr = s.groupErr) (running : s.routines r = .running)
    (returned : s.returned r = some result) (consuming : ∀ k, Consuming t (v.ends r result) k) :
    Inv t (v.ends r result) := by
  have drift : Drift v (v.ends r result) := ends_drift v (by rw [routines]; exact running)
  refine ⟨drift.fits (beside.fits inv.fits),consuming,fun err failed => ?_,fun other regular done => ?_⟩
  · cases before : s.groupErr with
    | some first =>
      have kept := drift.kept (groupErr.trans before)
      obtain rfl := Option.some.inj (kept.symm.trans failed)
      obtain ⟨k,lost,done⟩ := inv.failed first before
      exact ⟨k,lost,drift.stays (by rw [routines]; exact done)⟩
    | none =>
      simp only [State.ends,groupErr,before,Option.none_or] at failed
      cases result with
      | ok => contradiction
      | error err =>
        cases failed
        cases r with
        | consumer k =>
          simp only [State.returned] at returned
          split at returned
          · next point =>
            cases returned
            have ending := (inv.consuming k).ending
            rw [point] at ending
            exact ⟨k,ending,Function.update_self _ _ _⟩
          · contradiction
        | reconciler =>
          simp only [State.returned] at returned
          split at returned <;> cases returned
        | admin => cases returned
  · by_cases same : other = r
    · subst same
      exact ends_cancelled (by rw [routines]; exact running) fun ok =>
        beside.cancelled (returned_cancelled inv regular returned ok)
    · have done : v.routines other = .done := by simpa [State.ends,Function.update_of_ne same] using done
      rw [routines] at done
      exact drift.cancelled (beside.cancelled (inv.regular other regular done))

theorem returns_inv (inv : Inv t s) {r : Routine} (taken : act P p t maxRetries s (.returns r) = some u) : Inv t u := by
  simp only [act] at taken
  split at taken
  · next result running returned =>
    split at taken
    · next k =>
      obtain ⟨q,closing,rfl⟩ := Option.map_eq_some_iff.mp taken
      have drift : Drift s (s.withQueue k q) := ⟨rfl,rfl,rfl,id,fun _ => .inl rfl,.inl rfl⟩
      refine ends_inv inv drift rfl rfl running returned fun other => ?_
      by_cases same : other = k
      · subst same
        have here : ((s.withQueue other q).ends (.consumer other) result).queues other = q := if_pos rfl
        obtain ⟨ending,asked,-,-⟩ := inv.consuming other
        obtain ⟨cancelled,ends,closed⟩ := consume_ends ending closing
        have done : ((s.withQueue other q).ends (.consumer other) result).routines (.consumer other) = .done :=
          Function.update_self _ _ _
        refine ⟨by rw [here]; exact ends,?_,by simp [done],by rw [here,done]; simp [closed]⟩
        rw [here,cancelled]
        exact fun queue => (ends_drift (s.withQueue other q) running).cancelled (asked queue)
      · exact ((inv.consuming other).beside same q).ends (by simpa using same) running result
    · next other =>
      cases taken
      refine ends_inv inv ⟨rfl,rfl,rfl,id,fun _ => .inl rfl,.inl rfl⟩ rfl rfl running returned fun k => ?_
      exact (inv.consuming k).ends (fun same => other k same.symm) running result
  · contradiction

theorem act_inv (inv : Inv t s) {a : Action} (taken : act P p t maxRetries s a = some u) : Inv t u := by
  cases a with
  | next outcome =>
    simp only [act] at taken
    split at taken
    · next rest here =>
      cases taken
      exact line_inv inv here outcome
    · contradiction
  | signal =>
    cases taken
    exact signal_inv inv
  | queue k a =>
    simp only [act] at taken
    split at taken
    · next permitted =>
      obtain ⟨q,moved,rfl⟩ := Option.map_eq_some_iff.mp taken
      exact queue_inv inv permitted moved
    · contradiction
  | others world =>
    cases taken
    exact others_inv inv world
  | returns r => exact returns_inv inv taken
  | wait =>
    simp only [act] at taken
    split at taken
    · next here =>
      split at taken
      · next all =>
        cases taken
        have fits := inv.fits
        rw [here] at fits
        obtain ⟨opened,frame,stopped,-⟩ := fits
        have done : ∀ r, s.routines r = .done := by
          intro r
          cases r with
          | consumer k => cases k with
            | upload => exact all.1
            | delete => exact all.2.1
          | reconciler => exact all.2.2.1
          | admin => exact all.2.2.2
        refine inv.congr ⟨opened ▸ List.prefix_refl _,frame.balanced,?_⟩ rfl rfl rfl id
        cases failed : s.groupErr with
        | none =>
          have cancelled := inv.regular .reconciler (by decide) (done _)
          exact ⟨by simpa [State.cancelled,stopped,failed] using cancelled,rfl,done⟩
        | some err =>
          obtain ⟨k,lost,-⟩ := inv.failed err failed
          exact .inl ⟨k,err,rfl,lost,rfl,done⟩
      · contradiction
    · contradiction
  | closeNext =>
    simp only [act] at taken
    split at taken
    · next result here =>
      cases taken
      exact close_inv inv here
    · contradiction

theorem step_inv (inv : Inv t s) {a : Action} (taken : step P p t maxRetries s a = some u) : Inv t u := by
  unfold step at taken
  split at taken
  · contradiction
  · contradiction
  · exact act_inv inv taken

theorem reachable_inv {world : World}
    (reached : Reachable (step P p t maxRetries) (fun _ _ => True) (.initial world) s) :
    Inv t s :=
  reached.invariant (Inv t) (initial_inv world) fun _ _ _ _ inv _ taken => step_inv inv taken

/-! ### Each consumer runs as if alone -/

/-- What a step of the process is for the consumer of a queue. -/
def consumerAct (k : Kind) : State → Action → State → Option Consume.Action
  | _, .queue other a, u => some (if other = k then a else .others (u.queues k).world)
  | _, .others world, _ => some (.others world)
  | _, .returns (.consumer other), u => some (if other = k then .close else .others (u.queues k).world)
  | _, _, _ => none

theorem step_act {a : Action} (taken : step P p t maxRetries s a = some u) : act P p t maxRetries s a = some u := by
  unfold step at taken
  split at taken
  · contradiction
  · contradiction
  · exact taken

/-- A change of one queue is a step of its consumer, and only news to the other one. -/
theorem withQueue_step {k other : Kind} {a : Consume.Action} {q : Consume.State}
    (moved : consumeStep P p t maxRetries other (s.queues other) a = some q) :
    consumeStep P p t maxRetries k (s.queues k)
      (if other = k then a else .others ((s.withQueue other q).queues k).world) =
        some ((s.withQueue other q).queues k) := by
  by_cases same : other = k
  · subst same
    have here : (s.withQueue other q).queues other = q := if_pos rfl
    rw [if_pos rfl,here]
    exact moved
  · have here : (s.withQueue other q).queues k = { s.queues k with world := q.world } := if_neg fun h => same h.symm
    rw [if_neg same,here]
    rfl

theorem consumer_moves {k : Kind} {a : Action} {b : Consume.Action} (taken : step P p t maxRetries s a = some u)
    (does : consumerAct k s a u = some b) : consumeStep P p t maxRetries k (s.queues k) b = some (u.queues k) := by
  have taken := step_act taken
  cases a with
  | queue other a =>
    cases does
    simp only [act] at taken
    split at taken
    · obtain ⟨q,moved,rfl⟩ := Option.map_eq_some_iff.mp taken
      exact withQueue_step moved
    · contradiction
  | others world =>
    cases does
    cases taken
    rfl
  | returns r =>
    cases r with
    | consumer other =>
      cases does
      simp only [act] at taken
      split at taken
      · obtain ⟨q,moved,rfl⟩ := Option.map_eq_some_iff.mp taken
        exact withQueue_step moved
      · contradiction
    | _ => cases does
  | _ => cases does

theorem consumer_rests {k : Kind} {a : Action} (taken : step P p t maxRetries s a = some u)
    (does : consumerAct k s a u = none) : u.queues k = s.queues k := by
  have taken := step_act taken
  cases a with
  | next outcome =>
    simp only [act] at taken
    split at taken
    · cases taken
      unfold State.line
      split <;> (try split) <;> rfl
    · contradiction
  | signal =>
    cases taken
    unfold State.signal
    split <;> rfl
  | returns r =>
    cases r with
    | consumer other => cases does
    | _ =>
      simp only [act] at taken
      split at taken
      · cases taken
        rfl
      · contradiction
  | wait =>
    simp only [act] at taken
    split at taken
    · split at taken
      · cases taken
        rfl
      · contradiction
    · contradiction
  | closeNext =>
    simp only [act] at taken
    split at taken
    · cases taken
      unfold State.close
      split <;> rfl
    · contradiction
  | _ => cases does

/-- A run of the process is a run of each of its consumers. -/
theorem consumer_run {world : World} {trace : List (State × Action × State)}
    (run : Path (step P p t maxRetries) (.initial world) trace s) (k : Kind) :
    Path (consumeStep P p t maxRetries k) (.initial world)
      (trace.filterMap (partStep (fun s => s.queues k) (consumerAct k))) (s.queues k) :=
  run.part (fun s => s.queues k) (consumerAct k) (fun _ _ _ _ taken does => consumer_moves taken does)
    fun _ _ _ taken does => consumer_rests taken does

/-- Nothing fails but calls under a context that is done, and the broker keeps the
subscriptions. -/
def Calm (s : State) : Action → Prop
  | .queue k a => Consume.Calm (s.queues k) a
  | _ => True

instance : ∀ (s : State) (a : Action), Decidable (Calm s a)
  | s, .queue k a => inferInstanceAs (Decidable (Consume.Calm (s.queues k) a))
  | _, .next _ | _, .signal | _, .others _ | _, .returns _ | _, .wait | _, .closeNext => .isTrue trivial

/-- A call of a handler is interrupted. -/
def Action.interrupts (k : Kind) : Action → Bool
  | .queue other a => other == k && a.interrupts
  | _ => false

theorem calm_act {k : Kind} {a : Action} {b : Consume.Action} (calm : Calm s a) (does : consumerAct k s a u = some b) :
    Consume.Calm (s.queues k) b := by
  cases a with
  | queue other a =>
    cases does
    by_cases same : other = k
    · subst same
      rw [if_pos rfl]
      exact calm
    · rw [if_neg same]
      trivial
  | others world => cases does; trivial
  | returns r =>
    cases r with
    | consumer other =>
      cases does
      by_cases same : other = k
      · rw [if_pos same]
        trivial
      · rw [if_neg same]
        trivial
    | _ => cases does
  | _ => cases does

theorem interrupts_act {k : Kind} {a : Action} {b : Consume.Action} (does : consumerAct k s a u = some b) :
    b.interrupts = a.interrupts k := by
  cases a with
  | queue other a =>
    cases does
    by_cases same : other = k <;> simp [same,Action.interrupts,Consume.Action.interrupts]
  | others world => cases does; rfl
  | returns r =>
    cases r with
    | consumer other =>
      cases does
      by_cases same : other = k <;> simp [same,Action.interrupts,Consume.Action.interrupts]
    | _ => cases does
  | _ => cases does

theorem interrupts_silent {k : Kind} {a : Action} (does : consumerAct k s a u = none) : a.interrupts k = false := by
  cases a with
  | queue other a => cases does
  | _ => rfl

section Calm
variable {world : World} {trace : List (State × Action × State)}

theorem calm_consumer (calm : ∀ entry ∈ trace, Calm entry.1 entry.2.1) (k : Kind) :
    ∀ entry ∈ trace.filterMap (partStep (fun s => s.queues k) (consumerAct k)), Consume.Calm entry.1 entry.2.1 := by
  intro entry member
  obtain ⟨s,a,u,b,inside,does,rfl⟩ := mem_part.mp member
  exact calm_act (calm _ inside) does

theorem undisturbed_consumer (k : Kind) :
    (∀ entry ∈ trace.filterMap (partStep (fun s => s.queues k) (consumerAct k)), entry.2.1.interrupts = false) ↔
      ∀ entry ∈ trace, entry.2.1.interrupts k = false := by
  constructor
  · rintro all ⟨s,a,u⟩ member
    cases does : consumerAct k s a u with
    | none => exact interrupts_silent does
    | some b =>
      exact (interrupts_act does).symm.trans (all _ (mem_part.mpr ⟨s,a,u,b,member,does,rfl⟩))
  · intro all entry member
    obtain ⟨s,a,u,b,inside,does,rfl⟩ := mem_part.mp member
    exact (interrupts_act does).trans (all _ inside)

/-- The group fails only with what a consumer has returned. -/
theorem groupErr_step {a : Action} (taken : step P p t maxRetries s a = some u) : u.groupErr = s.groupErr ∨
    ∃ k err, (s.queues k).point = .returned (.error err) ∧ u.groupErr = some err := by
  have taken := step_act taken
  cases a with
  | next outcome =>
    simp only [act] at taken
    split at taken
    · cases taken
      unfold State.line
      split <;> (try split) <;> exact .inl rfl
    · contradiction
  | signal =>
    cases taken
    unfold State.signal
    split <;> exact .inl rfl
  | queue k a =>
    simp only [act] at taken
    split at taken
    · obtain ⟨q,-,rfl⟩ := Option.map_eq_some_iff.mp taken
      exact .inl rfl
    · contradiction
  | others world => cases taken; exact .inl rfl
  | wait =>
    simp only [act] at taken
    split at taken
    · split at taken
      · cases taken
        exact .inl rfl
      · contradiction
    · contradiction
  | closeNext =>
    simp only [act] at taken
    split at taken
    · cases taken
      unfold State.close
      split <;> exact .inl rfl
    · contradiction
  | returns r =>
    simp only [act] at taken
    split at taken
    · next result running returned =>
      have ended (v : State) (same : v.groupErr = s.groupErr) : (v.ends r result).groupErr = s.groupErr ∨
          ∃ k err, (s.queues k).point = .returned (.error err) ∧ (v.ends r result).groupErr = some err := by
        cases result with
        | ok => exact .inl (by simp [State.ends,same])
        | error err =>
          cases r with
          | consumer k =>
            simp only [State.returned] at returned
            split at returned
            · next point =>
              cases returned
              cases before : s.groupErr with
              | none => exact .inr ⟨k,err,point,by simp [State.ends,same,before]⟩
              | some first => exact .inl (by simp [State.ends,same,before])
            · contradiction
          | reconciler =>
            simp only [State.returned] at returned
            split at returned <;> cases returned
          | admin => cases returned
      split at taken
      · obtain ⟨q,-,rfl⟩ := Option.map_eq_some_iff.mp taken
        exact ended _ rfl
      · cases taken
        exact ended _ rfl
    · contradiction

theorem groupErr_run (run : Path (step P p t maxRetries) (.initial world) trace s)
    (calm : ∀ entry ∈ trace, Calm entry.1 entry.2.1) {err : Err} (failed : s.groupErr = some err) :
    ∃ k, err = notSubscribed (t.pair k).work := by
  induction run generalizing err with
  | nil => contradiction
  | @snoc trace s u a before taken ih =>
    have earlier : ∀ entry ∈ trace, Calm entry.1 entry.2.1 := fun entry member =>
      calm entry (List.mem_append_left _ member)
    rcases groupErr_step taken with same | ⟨k,new,point,now⟩
    · exact ih earlier (same ▸ failed)
    · cases now.symm.trans failed
      have quiet := quiet_run (consumer_run before k) (calm_consumer earlier k)
      rw [point] at quiet
      exact ⟨k,quiet⟩

end Calm

/-- The worker ends as a whole. A consumer or the reconciler returns only when the context of
the group is done, which a signal, the return of `run` or the first lost subscription brings
about; nothing is closed while a goroutine of the group runs, but when the second consumer
could not be made; and on exit everything that was opened is closed, the last first, without
an error exactly after a signal that all goroutines followed. -/
theorem process_ends {world : World}
    (reached : Reachable (step P p t maxRetries) (fun _ _ => True) (.initial world) s) :
    (∀ r, r ≠ .admin → s.routines r = .done → s.cancelled = true) ∧
    (∀ err, s.groupErr = some err → ∃ k, Lost (t.pair k).work err ∧ (s.queues k).point = .closed) ∧
    (s.frame.closed ≠ [] → s.phase = .killed ∨ (∀ r, s.routines r ≠ .running) ∨
      ∃ cause, s.phase = .returning (.error (consumerFailed (t.pair .delete).work cause)) ∨
        s.phase = .exited (.error (consumerFailed (t.pair .delete).work cause))) ∧
    ∀ result, s.phase = .exited result → s.frame.closed = s.frame.opened.reverse ∧ s.frame.opened <+: resources ∧
      Ended t s result := by
  have inv := reachable_inv reached
  refine ⟨inv.regular,fun err failed => ?_,fun begun => ?_,fun result here => ?_⟩
  · obtain ⟨k,lost,done⟩ := inv.failed err failed
    exact ⟨k,lost,(inv.consuming k).done.mp done⟩
  · have fits := inv.fits
    have ended {result : Except Err Unit} (ended : Ended t s result) : (∀ r, s.routines r ≠ .running) ∨
        ∃ cause, result = .error (consumerFailed (t.pair .delete).work cause) := by
      cases result with
      | ok => exact .inl fun r running => by simp [ended.2.2 r] at running
      | error err =>
        rcases ended with ⟨_,_,-,-,-,done⟩ | ⟨_,_,-,idle⟩ | ⟨_,-,idle⟩ | ⟨cause,rfl,-⟩
        · exact .inl fun r running => by simp [done r] at running
        · exact .inl fun r running => by simp [idle r] at running
        · exact .inl fun r running => by simp [idle r] at running
        · exact .inr ⟨cause,rfl⟩
    cases here : s.phase with
    | killed => exact .inl rfl
    | starting rest =>
      rw [here] at fits
      exact absurd fits.2.2.1.1 begun
    | waiting =>
      rw [here] at fits
      exact absurd fits.2.1.1 begun
    | returning result =>
      rw [here] at fits
      refine .inr ((ended fits.2.2).imp_right ?_)
      rintro ⟨cause,rfl⟩
      exact ⟨cause,.inl rfl⟩
    | exited result =>
      rw [here] at fits
      refine .inr ((ended fits.2.2).imp_right ?_)
      rintro ⟨cause,rfl⟩
      exact ⟨cause,.inr rfl⟩
  · have fits := inv.fits
    rw [here] at fits
    exact ⟨fits.2.1,fits.1,fits.2.2⟩

/-- A signal alone loses no message of either queue. Every call of a handler is answered by a
working dependency or interrupted after the cancellation, every settlement arrives, and the broker
keeps the subscriptions: then, once the goroutines are back, every message that came has been
handled or waits as it came, and none bears a trace of the shutdown unless a call of its handler
was interrupted; and the process fails only where the cancellation came before a consumer had
subscribed. -/
theorem shutdown_spares {world : World} {trace : List (State × Action × State)}
    (run : Path (step P p t maxRetries) (.initial world) trace s)
    (calm : ∀ entry ∈ trace, Calm entry.1 entry.2.1) :
    (∀ k, (∀ entry ∈ trace, entry.2.1.interrupts k = false) →
      Consume.Unharmed t (t.pair k).work (consumer t maxRetries) (Consume.handlerOf P p k) (s.queues k)) ∧
    ((∀ r, s.routines r = .done) →
      (∀ k, (∀ d ∈ (s.queues k).arrived, d ∈ (s.queues k).ready ∨ ∃ h ∈ (s.queues k).log, h.delivery = d) ∧
        (Consume.Unharmed t (t.pair k).work (consumer t maxRetries) (Consume.handlerOf P p k) (s.queues k) ↔
          ∀ entry ∈ trace, entry.2.1.interrupts k = false)) ∧
      ∀ result, s.phase = .exited result → result = .ok () ∨
        ∃ k, result = .error (workerFailed (notSubscribed (t.pair k).work))) := by
  have inv : Inv t s := reachable_inv (run.reachable fun _ _ => trivial)
  have spared (k : Kind) (undisturbed : ∀ entry ∈ trace, entry.2.1.interrupts k = false) :
      Consume.Unharmed t (t.pair k).work (consumer t maxRetries) (Consume.handlerOf P p k) (s.queues k) := by
    have strict := Consume.strict_handlerOf P p k
    have alone := consumer_run run k
    have calm := calm_consumer calm k
    exact (Consume.sound_run strict alone calm).unharmed fun call answered =>
      Consume.works_run strict alone calm ((undisturbed_consumer k).mpr undisturbed) answered
  refine ⟨spared,fun back => ⟨fun k => ?_,fun result here => ?_⟩⟩
  · have closed := (inv.consuming k).done.mp (back (.consumer k))
    have strict := Consume.strict_handlerOf P p k
    have alone := consumer_run run k
    have calm := calm_consumer calm k
    have sound := Consume.sound_run strict alone calm
    refine ⟨fun d arrived => ?_,fun unharmed => (undisturbed_consumer k).mp fun entry member => ?_,spared k⟩
    · rcases sound.kept d arrived with ready | buffered | held | logged
      · exact .inl ready
      · rw [(sound.closed closed).2] at buffered
        contradiction
      · rw [closed] at held
        contradiction
      · exact .inr logged
    · by_cases interrupts : entry.2.1.interrupts = true
      · obtain ⟨call,answered,interrupted⟩ := Consume.interrupted_run strict alone calm member interrupts
        exact absurd unharmed (sound.harmed (by rw [closed]; rfl) answered interrupted)
      · exact Bool.eq_false_iff.mpr interrupts
  · have fits := inv.fits
    rw [here] at fits
    cases result with
    | ok => exact .inl rfl
    | error err =>
      rcases fits.2.2 with ⟨_,_,rfl,-,failed,-⟩ | ⟨_,_,-,idle⟩ | ⟨_,-,idle⟩ | ⟨_,-,idle⟩
      · obtain ⟨k,rfl⟩ := groupErr_run run calm failed
        exact .inr ⟨k,rfl⟩
      · exact absurd (idle .admin) (by simp [back])
      · exact absurd (idle .admin) (by simp [back])
      · exact absurd (idle .admin (by decide)) (by simp [back])

end

/-! ### A worker with the standard settings -/

namespace Sample

open Consume.Sample (message topology processor)

def step : State → Action → Option State :=
  WorkerProcess.step GophProfile.Delivery.packages processor topology 3

def start : State := .initial GophProfile.Delivery.uploaded

/-- The signal comes amid the handling of an upload, which still gets to its end. -/
def actions : List Action :=
  List.replicate 19 (.next (.ok ())) ++
    [.queue .upload (.arrive (message 0)),.queue .upload (.subscribed (.ok ())),.queue .delete (.subscribed (.ok ())),
      .queue .upload .deliver,.queue .upload .take,.queue .upload (.called (.ok .none)),.signal,
      .queue .upload .cancel,.queue .delete .cancel,.queue .upload (.called (.ok .none)),
      .queue .upload (.called (.ok (.order [thumbnailSmall,thumbnailLarge]))),
      .queue .upload (.called (.ok .none)),.queue .upload (.called (.ok .none)),.queue .upload (.called (.ok .none)),
      .queue .upload (.settled true),.queue .upload .stop,.queue .upload (.unsubscribed (.ok ())),
      .returns (.consumer .upload),.queue .delete .stop,.queue .delete (.unsubscribed (.ok ())),
      .returns (.consumer .delete),.returns .reconciler,.returns .admin,.wait] ++
    List.replicate 5 .closeNext

def cleanly (s : State) : Bool :=
  match s.phase with
  | .exited (.ok ()) => true
  | _ => false

def finished (s : State) : Bool :=
  cleanly s && (s.queues .upload).log.any fun h => h.fate == .acknowledged && h.calls.length == 6

theorem exited_ok {s : State} (clean : cleanly s = true) : s.phase = .exited (.ok ()) := by
  unfold cleanly at clean
  split at clean
  · assumption
  · contradiction

end Sample

open Sample in
theorem process_ends_sample : ∃ s : State, s.phase = .exited (.ok ()) ∧ s.frame.closed = s.frame.opened.reverse ∧
    s.signalled = true ∧ ∀ r, s.routines r = .done := by
  obtain ⟨trace,s,path,-,met,-⟩ := exists_path Sample.step (fun _ _ => True) Sample.start Sample.actions cleanly
    (by decide +kernel)
  have exited := exited_ok met
  obtain ⟨closed,-,signalled,-,done⟩ := (process_ends (path.reachable fun _ _ => trivial)).2.2.2 _ exited
  exact ⟨s,exited,closed,signalled,done⟩

open Sample in
theorem shutdown_spares_sample : ∃ s : State, finished s = true ∧ ∀ d ∈ (s.queues .upload).arrived,
    d ∈ (s.queues .upload).ready ∨ ∃ h ∈ (s.queues .upload).log, h.delivery = d := by
  obtain ⟨trace,s,path,calm,met,-⟩ := exists_path Sample.step Calm Sample.start Sample.actions
    (fun s => finished s && group.all fun r => s.routines r == .done) (by decide +kernel)
  obtain ⟨done,back⟩ := Bool.and_eq_true_iff.mp met
  have back : ∀ r, s.routines r = .done := fun r => by
    simpa using List.all_eq_true.mp back r (all_routines r)
  exact ⟨s,done,(((shutdown_spares path calm).2 back).1 .upload).1⟩

end GophProfile.WorkerProcess

import GophProfile.Consumer
import GophProfile.Library.Transition
import Mathlib.Logic.Function.Basic

/-! The connection to the broker: `Connect` with its goroutine that watches and restores it,
and the calls of everybody who uses it. A section under the lock that makes no request of its
own is one step; only `enableConfirms` keeps the lock while it waits for an answer. -/
namespace GophProfile.RabbitMQ.Connection

open Transition

def connectAttempts : Nat := 10
def connectBaseDelay : Int64 := 500000000
def connectMaxDelay : Int64 := 10000000000

/-! ### What the client library keeps -/

structure Publication where
  /-- The call of `publish` that sent it. -/
  call : Nat
  exchange : GoString
  routingKey : GoString
  message : Message

structure Channel where
  opened : Bool
  confirming : Bool
  /-- What was published in confirm mode, by delivery tag. -/
  published : List Publication
  settled : List (Nat × Bool)

namespace Channel

def fresh : Channel := ⟨true,false,[],[]⟩

def shut (ch : Channel) : Channel := { ch with opened := false }

def confirm (ch : Channel) : Channel := { ch with confirming := true }

def publish (ch : Channel) (p : Publication) : Channel := { ch with published := ch.published ++ [p] }

def settle (ch : Channel) (tag : Nat) (acked : Bool) : Channel :=
  { ch with settled := (tag,acked) :: ch.settled }

/-- What a pending confirmation resolves to; on a closed channel it is not acknowledged. -/
def verdict (ch : Channel) (tag : Nat) : Option Bool :=
  match List.lookup tag ch.settled with
  | some acked => some acked
  | none => if ch.opened then none else some false

end Channel

/-- A connection of the library with the channel that `open` has opened on it. -/
structure Link where
  opened : Bool
  channel : Option Channel

namespace Link

def undialed : Link := ⟨false,none⟩
def dialed : Link := ⟨true,none⟩

/-- A connection that is closed or breaks takes its channels along. -/
def shut (l : Link) : Link := ⟨false,l.channel.map Channel.shut⟩

def withChannel (l : Link) (ch : Channel) : Link := { l with channel := some ch }

/-- The service channel, as long as requests on it can be answered. -/
def usable (l : Link) : Option Channel := if l.opened then l.channel.filter Channel.opened else none

end Link

/-- `amqp.ErrClosed` -/
def errClosed : Err := .new "Exception (504) Reason: %q" [lit "channel/connection is not open"]
def errConnectionClosed : Err := .new "соединение с брокером закрыто" []

/-! ### Control points -/

/-- The loop that an attempt to connect belongs to, and its variables. -/
structure Attempt where
  recovering : Bool
  number : Nat
  delay : Int64
  err : Option Err

def Attempt.next (a : Attempt) : Attempt :=
  { a with number := a.number + 1, delay := min (a.delay * 2) connectMaxDelay }

/-- `Connect`, and then the goroutine it starts. -/
inductive Keeper where
  | dial (a : Attempt)
  | openChannel (a : Attempt) (link : Nat)
  | declare (a : Attempt) (link : Nat)
  | readConfirms (a : Attempt) (link : Nat)
  | confirm (a : Attempt) (link : Nat)
  | abandon (a : Attempt) (link : Nat) (err : Err)
  | opened (a : Attempt) (link : Nat)
  | pause (a : Attempt)
  | failed (err : Option Err)
  | watch
  | watching (link : Nat)
  | noticed
  | discard (link : Nat)
  | leaving
  | ended

inductive Command where
  | newPublisher
  | publish (publisher : Nat) (ctx : TraceContext) (routingKey messageID body : GoString)
  | close
  | openChannel
  | check

inductive Reply where
  | publisher (result : Except Err Unit)
  | published (result : Except Err Unit)
  /-- Of the `Close` that found the connection open. -/
  | closed (result : Except Err Unit)
  | alreadyClosed
  | opened (result : Except Err Unit)
  | checked (result : Except Err Unit)

structure Job where
  publisher : Nat
  routingKey : GoString
  messageID : GoString
  message : Message

inductive Routine where
  | newPublisher
  | confirm
  | unlockConfirms (result : Except Err Unit)
  | publish (job : Job)
  | publishChannel (job : Job)
  | publishSend (job : Job) (channel : Nat)
  | publishWait (job : Job) (channel tag : Nat)
  | unlockPublisher (job : Job) (result : Except Err Unit)
  | close
  | closeWait (conn channel : Nat)
  | closeChannel (conn channel : Nat)
  | closeConn (conn : Nat)
  | openChannel
  | openChannelOn (conn : Nat)
  | check
  | done (reply : Reply)

/-! ### The state -/

structure State where
  conn : Option Nat
  channel : Option Nat
  confirms : Bool
  closed : Bool
  stop : Bool
  done : Bool
  /-- `enableConfirms` holds the lock. -/
  locked : Bool
  /-- The lock of each publisher. -/
  busy : Nat → Bool
  links : Nat → Link
  dialed : Nat
  keeper : Keeper
  calls : Nat → Option Routine

namespace State

def initial : State where
  conn := none
  channel := none
  confirms := false
  closed := false
  stop := false
  done := false
  locked := false
  busy := fun _ => false
  links := fun _ => .undialed
  dialed := 0
  keeper := .dial ⟨false,1,connectBaseDelay,none⟩
  calls := fun _ => none

def setLink (s : State) (link : Nat) (l : Link) : State :=
  { s with links := Function.update s.links link l }

def setCall (s : State) (slot : Nat) (r : Routine) : State :=
  { s with calls := Function.update s.calls slot (some r) }

def isClosed (s : State) : Bool :=
  s.closed || match s.conn with
    | some link => !(s.links link).opened
    | none => true

/-- `HealthChecker.Check` -/
def check (s : State) : Except Err Unit :=
  if s.isClosed then .error (.new "соединение с брокером разорвано" []) else .ok ()

end State

/-! ### The steps -/

/-- How a request is answered, or which case of a `select` is taken. -/
inductive Choice where
  | ok
  | fail (err : Err)
  | stop
  | timer
  | notify

/-- `reconnect` counts on before it waits, `Connect` after that. -/
def openFailed (a : Attempt) (err : Err) : Keeper :=
  .pause (if a.recovering then a.next else { a with err := some err })

def connectFailed (err : Err) : Err := .errorf "connect after %d attempts: %w" [lit "10"] err

def confirmsFailed (err : Err) : Err := .errorf "enable publisher confirms: %w" [] err

def keeperStep (s : State) (choice : Choice) : Option State :=
  match s.keeper, choice with
  | .dial a, .ok =>
    some { s.setLink s.dialed .dialed with dialed := s.dialed + 1, keeper := .openChannel a s.dialed }
  | .dial a, .fail err => some { s with keeper := openFailed a (.errorf "dial: %w" [] err) }
  | .openChannel a link, .ok =>
    if (s.links link).opened then
      some { s.setLink link ((s.links link).withChannel .fresh) with keeper := .declare a link }
    else none
  | .openChannel a link, .fail err =>
    some { s with keeper := .abandon a link (.errorf "open channel: %w" [] err) }
  | .declare a link, .ok =>
    if (s.links link).usable.isSome then some { s with keeper := .readConfirms a link } else none
  | .declare a link, .fail err => some { s with keeper := .abandon a link err }
  | .readConfirms a link, .ok =>
    if s.locked then none
    else some { s with keeper := if s.confirms then .confirm a link else .opened a link }
  | .confirm a link, .ok =>
    match (s.links link).usable with
    | some ch =>
      some { s.setLink link ((s.links link).withChannel ch.confirm) with keeper := .opened a link }
    | none => none
  | .confirm a link, .fail err => some { s with keeper := .abandon a link (confirmsFailed err) }
  | .abandon a link err, .ok =>
    some { s.setLink link (s.links link).shut with keeper := openFailed a err }
  -- `Connect` still has the value for itself, `reconnect` needs the lock
  | .opened a link, .ok =>
    if a.recovering then
      if s.locked then none
      else if s.closed then some { s with keeper := .discard link }
      else some { s with conn := some link, channel := some link, keeper := .watch }
    else some { s with conn := some link, channel := some link, keeper := .watch }
  | .pause a, .timer =>
    some { s with
      keeper :=
        if a.recovering then .dial a
        else if a.number < connectAttempts then .dial a.next
        else .failed (a.err.map connectFailed) }
  -- the context of `Connect` is done
  | .pause a, .fail err => if a.recovering then none else some { s with keeper := .failed (some err) }
  | .pause a, .stop => if a.recovering ∧ s.stop then some { s with keeper := .leaving } else none
  | .watch, .ok =>
    if s.locked then none else s.conn.map fun link => { s with keeper := .watching link }
  | .watching _, .stop => if s.stop then some { s with keeper := .leaving } else none
  | .watching link, .notify =>
    if (s.links link).opened then none else some { s with keeper := .noticed }
  | .noticed, .ok =>
    some { s with
      keeper := if s.stop then .leaving else .pause ⟨true,1,connectBaseDelay,none⟩ }
  | .discard link, .ok => some { s.setLink link (s.links link).shut with keeper := .leaving }
  | .leaving, .ok => some { s with done := true, keeper := .ended }
  | _, _ => none

def closeResult (answer : Except Err Unit) : Except Err Unit :=
  match answer with
  | .error err => if err.is errClosed then .ok () else .error (.errorf "close connection: %w" [] err)
  | .ok () => .ok ()

/-- `Close` of the library shuts a connection down whatever the broker answers. -/
def closeAnswer (l : Link) (choice : Choice) : Except Err Unit :=
  if l.opened then
    match choice with
    | .fail err => .error err
    | _ => .ok ()
  else .error errClosed

def callStep (t : Topology) (s : State) (slot : Nat) (r : Routine) (choice : Choice) : Option State :=
  match r, choice with
  | .newPublisher, .ok =>
    if s.locked then none else some ({ s with locked := true, confirms := true }.setCall slot .confirm)
  | .confirm, .ok =>
    s.channel.bind fun link => (s.links link).usable.map fun ch =>
      (s.setLink link ((s.links link).withChannel ch.confirm)).setCall slot (.unlockConfirms (.ok ()))
  | .confirm, .fail err => some (s.setCall slot (.unlockConfirms (.error (confirmsFailed err))))
  | .unlockConfirms result, .ok =>
    some ({ s with locked := false }.setCall slot (.done (.publisher result)))
  | .publish job, .ok =>
    if s.busy job.publisher then none
    else some ({ s with busy := Function.update s.busy job.publisher true }.setCall slot
      (.publishChannel job))
  | .publishChannel job, .ok =>
    if s.locked then none else s.channel.map fun link => s.setCall slot (.publishSend job link)
  | .publishSend job link, .ok =>
    (s.links link).usable.map fun ch =>
      if ch.confirming then
        (s.setLink link ((s.links link).withChannel
          (ch.publish ⟨slot,t.exchange,job.routingKey,job.message⟩))).setCall slot
            (.publishWait job link ch.published.length)
      else s.setCall slot (.unlockPublisher job (confirmed job.routingKey job.messageID (.ok .missing)))
  | .publishSend job _, .fail err =>
    some (s.setCall slot (.unlockPublisher job (confirmed job.routingKey job.messageID (.error err))))
  | .publishWait job link tag, .ok =>
    ((s.links link).channel.bind fun ch => ch.verdict tag).map fun acked =>
      s.setCall slot (.unlockPublisher job (confirmed job.routingKey job.messageID
        (.ok (if acked then .acked else .nacked))))
  | .publishWait job _ _, .fail err =>
    some (s.setCall slot (.unlockPublisher job
      (confirmed job.routingKey job.messageID (.ok (.waitFailed err)))))
  | .unlockPublisher job result, .ok =>
    some ({ s with busy := Function.update s.busy job.publisher false }.setCall slot
      (.done (.published result)))
  | .close, .ok =>
    if s.locked then none
    else if s.closed then some (s.setCall slot (.done .alreadyClosed))
    else s.conn.bind fun conn => s.channel.map fun channel =>
      { s with closed := true, stop := true }.setCall slot (.closeWait conn channel)
  | .closeWait conn channel, .ok =>
    if s.done then some (s.setCall slot (.closeChannel conn channel)) else none
  | .closeChannel conn channel, _ =>
    some ((s.setLink channel { s.links channel with
      channel := (s.links channel).channel.map Channel.shut }).setCall slot (.closeConn conn))
  | .closeConn conn, choice =>
    some ((s.setLink conn (s.links conn).shut).setCall slot
      (.done (.closed (closeResult (closeAnswer (s.links conn) choice)))))
  | .openChannel, .ok =>
    if s.locked then none
    else if s.closed then some (s.setCall slot (.done (.opened (.error errConnectionClosed))))
    else s.conn.map fun conn => s.setCall slot (.openChannelOn conn)
  | .openChannelOn conn, .ok =>
    if (s.links conn).opened then some (s.setCall slot (.done (.opened (.ok ())))) else none
  | .openChannelOn _, .fail err =>
    some (s.setCall slot (.done (.opened (.error (.errorf "open channel: %w" [] err)))))
  | .check, .ok => if s.locked then none else some (s.setCall slot (.done (.checked s.check)))
  | _, _ => none

def begin : Command → Routine
  | .newPublisher => .newPublisher
  | .publish publisher ctx routingKey messageID body =>
    .publish ⟨publisher,routingKey,messageID,publishing ctx messageID body⟩
  | .close => .close
  | .openChannel => .openChannel
  | .check => .check

/-- What the broker does by itself. -/
inductive Event where
  | broken (link : Nat)
  /-- A channel exception closes the service channel and leaves the connection open. -/
  | exception (link : Nat)
  | settle (link tag : Nat) (acked : Bool)

def brokerStep (s : State) : Event → Option State
  | .broken link =>
    if (s.links link).opened then some (s.setLink link (s.links link).shut) else none
  | .exception link =>
    (s.links link).usable.map fun ch => s.setLink link ((s.links link).withChannel ch.shut)
  | .settle link tag acked =>
    (s.links link).usable.bind fun ch =>
      if tag < ch.published.length ∧ List.lookup tag ch.settled = none then
        some (s.setLink link ((s.links link).withChannel (ch.settle tag acked)))
      else none

inductive Act where
  | keeper (choice : Choice)
  | start (slot : Nat) (command : Command)
  | advance (slot : Nat) (choice : Choice)
  | broker (event : Event)

/-- The publisher of a publication is one that `NewPublisher` has returned. -/
def State.permits (s : State) : Command → Bool
  | .publish publisher _ _ _ _ =>
    match s.calls publisher with
    | some (.done (.publisher (.ok ()))) => true
    | _ => false
  | _ => true

/-- There is nothing to call before `Connect` has returned. -/
def step (t : Topology) (s : State) : Act → Option State
  | .keeper choice => keeperStep s choice
  | .start slot command =>
    if s.conn.isSome ∧ (s.calls slot).isNone ∧ s.permits command = true then
      some (s.setCall slot (begin command))
    else none
  | .advance slot choice => (s.calls slot).bind fun r => callStep t s slot r choice
  | .broker event => brokerStep s event

abbrev Run (t : Topology) (trace : List (State × Act × State)) (s : State) : Prop :=
  Path (step t) State.initial trace s

end GophProfile.RabbitMQ.Connection

import GophProfile.Retries
import GophProfile.Worker
import GophProfile.World

/-! `Consume` as the worker runs it: the loop over the deliveries, the handler with every call
it makes, and the settlement, under a context that somebody may cancel at any moment. -/
namespace GophProfile.RabbitMQ.Consume

open Effect Transition

def errDeliveryClosed : Err := .new "канал доставки закрыт брокером" []

structure Delivery where
  tag : Nat
  message : Message

inductive Fate where
  | acknowledged | rejected | buried | unsettled
  deriving DecidableEq

/-- A handling with the calls of its handler, from the moment the broker has its outcome. -/
structure Handling where
  delivery : Delivery
  calls : Called
  result : Except Err Unit
  fate : Fate

/-- Where `Consume` is; a delivery in hand comes with the rest of its handler, or of
`handleDelivery`. -/
inductive Point where
  | subscribe
  | select
  /-- The deliveries have ended. -/
  | recheck
  | unsubscribe
  | handle (d : Delivery) (calls : Called) (rest : Prog (Except Err Unit))
  | settle (d : Delivery) (calls : Called) (result : Except Err Unit) (buried : Bool) (rest : Steps)
  | returned (result : Except Err Unit)
  /-- After `Close`. -/
  | closed

structure State where
  /-- The context is done. -/
  cancelled : Bool
  /-- The broker sends deliveries. -/
  delivering : Bool
  ready : List Delivery
  /-- Sent by the broker and not taken up. -/
  buffer : List Delivery
  /-- The settlement was lost. -/
  unacked : List Delivery
  /-- What was rejected or moved, in the other queues. -/
  elsewhere : List Copy
  point : Point
  world : World
  /-- Every message that ever came into the queue. -/
  arrived : List Delivery
  log : List Handling

def State.initial (world : World) : State where
  cancelled := false
  delivering := false
  ready := []
  buffer := []
  unacked := []
  elsewhere := []
  point := .subscribe
  world := world
  arrived := []
  log := []

inductive Action where
  /-- A message is new, or comes back from its retry queue. -/
  | arrive (message : Message)
  | deliver
  /-- Others work on the same dependencies. -/
  | others (world : World)
  | cancel
  | endDeliveries
  | subscribed (answer : Except Err Unit)
  | take
  | stop
  | drained
  | recheck
  | unsubscribed (answer : Except Err Unit)
  | called (choice : Choice)
  | settled (arrived : Bool)
  | published (answer : Except Err Unit) (arrived : Bool)
  | close

/-- `handleDelivery` after its handler. -/
def afterHandle (c : Consumer) (message : Message) (result : Except Err Unit) : Steps :=
  match c.handleDelivery message with
  | .call (.handle _) next => next result
  | rest => rest

def handling (c : Consumer) (d : Delivery) (calls : Called) (rest : Prog (Except Err Unit)) : Point :=
  match rest with
  | .done result => .settle d calls result false (afterHandle c d.message result)
  | .call call next => .handle d calls (.call call next)

variable (t : Topology) (queue : GoString) (c : Consumer) (handler : GoString → Prog (Except Err Unit))

def consume (s : State) : Point → Action → Option State
  | .subscribe, .subscribed (.ok ()) => some { s with delivering := true, point := .select }
  | .subscribe, .subscribed (.error err) =>
    some { s with point := .returned (.error (.errorf "consume %s: %w" [queue] err)) }
  | .select, .stop => if s.cancelled then some { s with point := .unsubscribe } else none
  | .select, .take =>
    match s.buffer with
    | d :: rest =>
      some { s with buffer := rest, point := handling c d [] (handler d.message.body) }
    | [] => none
  | .select, .drained =>
    if s.delivering = false ∧ s.buffer.isEmpty then some { s with point := .recheck } else none
  -- an end of the deliveries at a shutdown is regular
  | .recheck, .recheck =>
    some { s with point := .returned (if s.cancelled then .ok ()
      else .error (.errorf "%w: очередь %s" [queue] errDeliveryClosed)) }
  | .unsubscribe, .unsubscribed _ => some { s with delivering := false, point := .returned (.ok ()) }
  | .handle d calls (.call call next), .called choice =>
    (World.perform call choice s.world).map fun result =>
      { s with
        world := result.2
        point := handling c d (calls ++ [⟨call,result.1⟩]) (next result.1) }
  | .settle d calls result buried (.call .ack _), .settled arrived =>
    some { s with
      point := .select
      unacked := if arrived then s.unacked else d :: s.unacked
      log := if buried then s.log
        else s.log ++ [⟨d,calls,result,if arrived then .acknowledged else .unsettled⟩] }
  | .settle d calls result _ (.call (.nack requeue) _), .settled arrived =>
    some { s with
      point := .select
      ready := if arrived && requeue then d :: s.ready else s.ready
      unacked := if arrived then s.unacked else d :: s.unacked
      elsewhere := if arrived && !requeue then
        s.elsewhere ++ deadLettered t queue deathReasonRejected d.message else s.elsewhere
      log := s.log ++ [⟨d,calls,result,if arrived && !requeue then .rejected else .unsettled⟩] }
  | .settle d calls result _ (.call (.publish exchange key sent) next), .published answer arrived =>
    match answer, arrived with
    | .ok (), false => none
    | _, _ =>
      some { s with
        point := .settle d calls result arrived (next answer)
        elsewhere := if arrived then
          s.elsewhere ++ (t.route exchange key).map fun target => .queued target sent else s.elsewhere
        log := if arrived then s.log ++ [⟨d,calls,result,.buried⟩] else s.log }
  -- the broker delivers again what was not settled on a channel that is closed
  | .returned _, .close =>
    some { s with
      delivering := false
      ready := s.unacked ++ s.buffer ++ s.ready
      buffer := []
      unacked := []
      point := .closed }
  | _, _ => none

def step (s : State) : Action → Option State
  | .arrive message =>
    some { s with
      ready := s.ready ++ [⟨s.arrived.length,message⟩]
      arrived := s.arrived ++ [⟨s.arrived.length,message⟩] }
  | .deliver =>
    match s.delivering, s.ready with
    | true, d :: rest => some { s with ready := rest, buffer := s.buffer ++ [d] }
    | _, _ => none
  | .others world => some { s with world := world }
  | .cancel => some { s with cancelled := true }
  | .endDeliveries => some { s with delivering := false }
  | a => consume t queue c handler s s.point a

/-- The call returns `context.Canceled`. -/
def interrupting : Choice → Bool
  | .fail _ _ err => err == .canceled
  | .ok _ => false

/-- No dependency fails and the broker keeps the subscription; but calls that are made under
a context that is done may return `context.Canceled`. -/
def Calm (s : State) : Action → Prop
  | .endDeliveries => s.cancelled = true
  | .subscribed answer => answer = .ok () ∨ s.cancelled = true ∧ answer = .error .canceled
  | .called choice => choice.healthy = true ∨ s.cancelled = true ∧ interrupting choice = true
  | .settled arrived => arrived = true
  | .published answer arrived =>
    answer = .ok () ∨ s.cancelled = true ∧ answer = .error .canceled ∧ arrived = false
  | _ => True

instance : ∀ (s : State) (a : Action), Decidable (Calm s a)
  | s, .endDeliveries => inferInstanceAs (Decidable (s.cancelled = true))
  | s, .subscribed answer =>
    inferInstanceAs (Decidable (answer = .ok () ∨ s.cancelled = true ∧ answer = .error .canceled))
  | s, .called choice =>
    inferInstanceAs (Decidable (choice.healthy = true ∨ s.cancelled = true ∧ interrupting choice = true))
  | _, .settled arrived => inferInstanceAs (Decidable (arrived = true))
  | s, .published answer arrived =>
    inferInstanceAs
      (Decidable (answer = .ok () ∨ s.cancelled = true ∧ answer = .error .canceled ∧ arrived = false))
  | _, .arrive _ | _, .deliver | _, .others _ | _, .cancel | _, .take | _, .stop | _, .drained
  | _, .recheck | _, .unsubscribed _ | _, .close => .isTrue trivial

variable {t queue c handler}

/-! ### What a step can do -/

theorem afterHandle_error (message : Message) (err : Err) : afterHandle c message (.error err) =
    if deathCount message.headers ≥ c.maxRetries then c.toDeadLetter message else Consumer.reject := rfl

/-- `toDeadLetter` after its publication. -/
def afterPublish (answer : Except Err Unit) : Steps :=
  match answer with
  | .ok () => Consumer.acknowledge
  | .error _ => Consumer.reject

/-- Where `handleDelivery` can be once its handler has returned. -/
inductive Settling (c : Consumer) (message : Message) : Except Err Unit → Bool → Steps → Prop
  | acknowledge : Settling c message (.ok ()) false Consumer.acknowledge
  | bury (err : Err) : Settling c message (.error err) false (c.toDeadLetter message)
  | buried (err : Err) : Settling c message (.error err) true Consumer.acknowledge
  | reject (err : Err) (buried : Bool) : Settling c message (.error err) buried Consumer.reject

theorem settling_afterHandle (c : Consumer) (message : Message) (result : Except Err Unit) :
    Settling c message result false (afterHandle c message result) := by
  cases result with
  | ok => exact .acknowledge
  | error err =>
    rw [afterHandle_error]
    split
    · exact .bury err
    · exact .reject err false

/-- The delivery in hand. -/
def Point.holds : Point → Option Delivery
  | .handle d _ _ | .settle d _ _ _ _ => some d
  | _ => none

theorem handling_holds (d : Delivery) (calls : Called) (rest : Prog (Except Err Unit)) :
    (handling c d calls rest).holds = some d := by
  cases rest <;> rfl

/-- What the copies come from that a handling leaves in the other queues. -/
def Handling.copies (t : Topology) (queue : GoString) (c : Consumer) (h : Handling) : List Copy :=
  match h.fate with
  | .rejected => deadLettered t queue deathReasonRejected h.delivery.message
  | .buried =>
    (t.route c.exchange routingDead).map fun target =>
      .queued target { h.delivery.message with persistent := true }
  | _ => []

inductive Move (t : Topology) (queue : GoString) (c : Consumer)
    (handler : GoString → Prog (Except Err Unit)) (s : State) : Action → State → Prop where
  /-- A step with nothing in hand. -/
  | idle (a : Action) (p : Point) (delivering : Bool) (here : s.point.holds = none)
      (there : p.holds = none) (running : s.point ≠ .closed ∧ p ≠ .closed)
      (silent : ∀ choice, a ≠ .called choice) :
      Move t queue c handler s a { s with delivering := delivering, point := p }
  | took (d : Delivery) (rest : List Delivery) (here : s.point = .select) (first : s.buffer = d :: rest) :
      Move t queue c handler s .take
        { s with buffer := rest, point := handling c d [] (handler d.message.body) }
  | called (d : Delivery) (calls : Called) (call : Call) (next : call.Answer → Prog (Except Err Unit))
      (choice : Choice) (answer : call.Answer) (w : World)
      (here : s.point = .handle d calls (.call call next))
      (performed : World.perform call choice s.world = some (answer,w)) :
      Move t queue c handler s (.called choice)
        { s with world := w, point := handling c d (calls ++ [⟨call,answer⟩]) (next answer) }
  | acked (d : Delivery) (calls : Called) (result : Except Err Unit) (buried : Bool)
      (here : s.point = .settle d calls result buried Consumer.acknowledge) (arrived : Bool) :
      Move t queue c handler s (.settled arrived)
        { s with
          point := .select
          unacked := if arrived then s.unacked else d :: s.unacked
          log := if buried then s.log
            else s.log ++ [⟨d,calls,result,if arrived then .acknowledged else .unsettled⟩] }
  | nacked (d : Delivery) (calls : Called) (result : Except Err Unit) (buried : Bool)
      (here : s.point = .settle d calls result buried Consumer.reject) (arrived : Bool) :
      Move t queue c handler s (.settled arrived)
        { s with
          point := .select
          unacked := if arrived then s.unacked else d :: s.unacked
          elsewhere := if arrived then
            s.elsewhere ++ deadLettered t queue deathReasonRejected d.message else s.elsewhere
          log := s.log ++ [⟨d,calls,result,if arrived then .rejected else .unsettled⟩] }
  | published (d : Delivery) (calls : Called) (result : Except Err Unit) (buried : Bool)
      (here : s.point = .settle d calls result buried (c.toDeadLetter d.message))
      (answer : Except Err Unit) (arrived : Bool)
      (possible : answer = .ok () → arrived = true) :
      Move t queue c handler s (.published answer arrived)
        { s with
          point := .settle d calls result arrived (afterPublish answer)
          elsewhere := if arrived then
            s.elsewhere ++ (t.route c.exchange routingDead).map fun target =>
              .queued target { d.message with persistent := true } else s.elsewhere
          log := if arrived then s.log ++ [⟨d,calls,result,.buried⟩] else s.log }
  | closed (result : Except Err Unit) (here : s.point = .returned result) :
      Move t queue c handler s .close
        { s with
          delivering := false
          ready := s.unacked ++ s.buffer ++ s.ready
          buffer := []
          unacked := []
          point := .closed }

/-- A delivery is settled on the way that `handleDelivery` takes. -/
def Point.OnTheWay (c : Consumer) : Point → Prop
  | .settle d _ result buried rest => Settling c d.message result buried rest
  | _ => True

theorem onTheWay_handling (d : Delivery) (calls : Called) (rest : Prog (Except Err Unit)) :
    (handling c d calls rest).OnTheWay c := by
  cases rest with
  | done result => exact settling_afterHandle c d.message result
  | call => trivial

theorem consume_move {s s' : State} {a : Action} (way : s.point.OnTheWay c)
    (taken : consume t queue c handler s s.point a = some s') : Move t queue c handler s a s' := by
  generalize here : s.point = p at taken way
  cases p with
  | subscribe =>
    cases a with
    | subscribed answer =>
      cases answer with
      | ok =>
        cases taken
        exact .idle _ _ _ (by rw [here]; rfl) rfl (by simp [here]) nofun
      | error err =>
        cases taken
        exact .idle _ _ s.delivering (by rw [here]; rfl) rfl (by simp [here]) nofun
    | _ => contradiction
  | select =>
    cases a with
    | stop =>
      simp only [consume] at taken
      split at taken
      · cases taken
        exact .idle _ _ s.delivering (by rw [here]; rfl) rfl (by simp [here]) nofun
      · contradiction
    | take =>
      simp only [consume] at taken
      split at taken
      · next d rest first =>
        cases taken
        exact .took d rest here first
      · contradiction
    | drained =>
      simp only [consume] at taken
      split at taken
      · cases taken
        exact .idle _ _ s.delivering (by rw [here]; rfl) rfl (by simp [here]) nofun
      · contradiction
    | _ => contradiction
  | recheck =>
    cases a with
    | recheck =>
      cases taken
      exact .idle _ _ s.delivering (by rw [here]; rfl) rfl (by simp [here]) nofun
    | _ => contradiction
  | unsubscribe =>
    cases a with
    | unsubscribed answer =>
      cases taken
      exact .idle _ _ false (by rw [here]; rfl) rfl (by simp [here]) nofun
    | _ => contradiction
  | handle d calls rest =>
    cases rest with
    | done => cases a <;> contradiction
    | call call next =>
      cases a with
      | called choice =>
        obtain ⟨⟨answer,w⟩,performed,rfl⟩ := Option.map_eq_some_iff.mp taken
        exact .called d calls call next choice answer w here performed
      | _ => contradiction
  | settle d calls result buried rest =>
    have way : Settling c d.message result buried rest := way
    cases way with
    | acknowledge =>
      cases a with
      | settled arrived =>
        cases taken
        exact .acked d calls _ _ here arrived
      | _ => contradiction
    | buried err =>
      cases a with
      | settled arrived =>
        cases taken
        exact .acked d calls _ _ here arrived
      | _ => contradiction
    | reject err =>
      cases a with
      | settled arrived =>
        cases taken
        cases arrived with
        | true => exact .nacked d calls _ _ here true
        | false => exact .nacked d calls _ _ here false
      | _ => contradiction
    | bury err =>
      cases a with
      | published answer arrived =>
        cases arrived with
        | true =>
          cases answer with
          | ok => cases taken; exact .published d calls _ _ here (.ok ()) true fun _ => rfl
          | error e => cases taken; exact .published d calls _ _ here (.error e) true fun _ => rfl
        | false =>
          cases answer with
          | ok => contradiction
          | error e => cases taken; exact .published d calls _ _ here (.error e) false nofun
      | _ => contradiction
  | returned result =>
    cases a with
    | close =>
      cases taken
      exact .closed result here
    | _ => contradiction
  | closed => cases a <;> contradiction

end GophProfile.RabbitMQ.Consume

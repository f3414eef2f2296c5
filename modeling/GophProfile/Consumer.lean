import GophProfile.Publisher

/-! The consumer of the `rabbitmq` package with the topology it declares: which deliveries
are acknowledged, rejected into a retry, or moved to the queue of the dead. -/
namespace GophProfile.RabbitMQ

open Effect

/-! ### Queues and bindings -/

def routingDead : GoString := lit "avatar.dead"
def routingRetryProcess : GoString := lit "avatar.retry.process"
def routingRetryDelete : GoString := lit "avatar.retry.delete"

/-- `config.RabbitMQ`, as far as the topology reads it; the delay is in nanoseconds. -/
structure Settings where
  exchange : GoString
  queueProcess : GoString
  queueDelete : GoString
  queueRetry : GoString
  queueDead : GoString
  retryTTL : Int64

/-- What the environment leaves unset. -/
def Settings.standard : Settings where
  exchange := lit "avatars.exchange"
  queueProcess := lit "avatars.process"
  queueDelete := lit "avatars.delete"
  queueRetry := lit "avatars.retry"
  queueDead := lit "avatars.dead"
  retryTTL := 30000000000

structure Topology where
  exchange : GoString
  queueProcess : GoString
  queueDelete : GoString
  retryProcess : GoString
  retryDelete : GoString
  queueDead : GoString
  retryTTL : Int32

def maxInt32 : Int64 := 2147483647

def retryTTLMillis (d : Int64) : Int32 :=
  let ms := d / 1000000
  if ms > maxInt32 then maxInt32.toInt32 else if ms < 0 then 0 else ms.toInt32

def newTopology (cfg : Settings) : Topology where
  exchange := cfg.exchange
  queueProcess := cfg.queueProcess
  queueDelete := cfg.queueDelete
  retryProcess := cfg.queueRetry ++ lit ".process"
  retryDelete := cfg.queueRetry ++ lit ".delete"
  queueDead := cfg.queueDead
  retryTTL := retryTTLMillis cfg.retryTTL

/-- The arguments of a queue that the broker acts on. -/
structure Arguments where
  deadLetterExchange : Option GoString
  deadLetterRoutingKey : Option GoString
  messageTTL : Option Int32

def Arguments.none : Arguments := ⟨.none,.none,.none⟩

inductive Declaration where
  | exchange (name : GoString)
  | queue (name : GoString) (args : Arguments)
  | binding (queue key exchange : GoString)

structure Pair where
  work : GoString
  workKey : GoString
  retry : GoString
  retryKey : GoString
  returnsVia : GoString

namespace Topology

variable (t : Topology)

def pairs : List Pair :=
  [⟨t.queueProcess,routingUploaded,t.retryProcess,routingRetryProcess,routingUploaded⟩,
   ⟨t.queueDelete,routingDeleted,t.retryDelete,routingRetryDelete,routingDeleted⟩]

def declareAndBind (queue key : GoString) (args : Arguments) : List Declaration :=
  [.queue queue args,.binding queue key t.exchange]

/-- A work queue rejects into its own retry queue, which returns what has waited long enough. -/
def declarePair (p : Pair) : List Declaration :=
  t.declareAndBind p.work p.workKey ⟨some t.exchange,some p.retryKey,none⟩ ++
    t.declareAndBind p.retry p.retryKey ⟨some t.exchange,some p.returnsVia,some t.retryTTL⟩

def declare : List Declaration :=
  .exchange t.exchange :: t.pairs.flatMap t.declarePair ++
    t.declareAndBind t.queueDead routingDead .none

end Topology

/-! ### Messages -/

/-- A field of an AMQP table; types that nothing reads are `other`. -/
inductive Field where
  | str (text : GoString)
  | long (n : Int64)
  | table (entries : List (GoString × Field))
  | array (items : List Field)
  | other

/-- `amqp.Table` -/
abbrev Headers := List (GoString × Field)

structure Message where
  contentType : GoString
  messageID : GoString
  persistent : Bool
  headers : Headers
  body : GoString

/-- What the propagators of the trace context and of the baggage write. -/
structure TraceContext where
  traceparent : Option GoString
  tracestate : Option GoString
  baggage : Option GoString

def injectTrace (ctx : TraceContext) : Headers :=
  [(lit "traceparent",ctx.traceparent),(lit "tracestate",ctx.tracestate),
    (lit "baggage",ctx.baggage)].filterMap fun (name,value) => value.map fun text => (name,.str text)

/-- What `publish` sends for an event. -/
def publishing (ctx : TraceContext) (messageID body : GoString) : Message :=
  ⟨lit "application/json",messageID,true,injectTrace ctx,body⟩

def headerDeath : GoString := lit "x-death"
def deathReasonRejected : GoString := lit "rejected"

/-- What one entry of `x-death` adds to the count. -/
def rejections (entry : Field) : Int64 :=
  match entry with
  | .table death =>
    match List.lookup (lit "reason") death with
    | some (.str reason) =>
      if reason ≠ deathReasonRejected then 0
      else match List.lookup (lit "count") death with
        | some (.long count) => count
        | _ => 0
    | _ => 0
  | _ => 0

/-- Only rejections are counted: an expiry is the return from a retry queue. -/
def deathCount (headers : Headers) : Int64 :=
  match List.lookup headerDeath headers with
  | some (.array deaths) => deaths.foldl (fun total entry => total + rejections entry) 0
  | _ => 0

/-! ### One delivery -/

/-- What a consumer asks of the handler and of its channel. -/
inductive ConsumerCall where
  | handle (body : GoString)
  | ack
  | nack (requeue : Bool)
  | publish (exchange key : GoString) (message : Message)

abbrev Steps := Effect.Prog ConsumerCall (fun _ => Except Err Unit) Unit

structure Consumer where
  exchange : GoString
  maxRetries : Int64

namespace Consumer

variable (c : Consumer)

def acknowledge : Steps := do
  let _ ← request .ack
  return ()

def reject : Steps := do
  let _ ← request (.nack false)
  return ()

/-- The message is published first and acknowledged after that. -/
def toDeadLetter (d : Message) : Steps := do
  match ← request (.publish c.exchange routingDead { d with persistent := true }) with
  | .error _ => reject
  | .ok () => acknowledge

def handleDelivery (d : Message) : Steps := do
  match ← request (.handle d.body) with
  | .ok () => acknowledge
  | .error _ => if deathCount d.headers ≥ c.maxRetries then c.toDeadLetter d else reject

end Consumer

end GophProfile.RabbitMQ

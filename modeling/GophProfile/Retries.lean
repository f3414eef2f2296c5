import GophProfile.Consumer

/-! The retry machine: the copies of one message in the declared queues and in the hands
of the consumers. The broker routes by the declared bindings, moves what is rejected or
has expired to the dead-letter exchange of its queue, and delivers again what was not
settled. -/
namespace GophProfile.RabbitMQ

open Effect

/-! ### The broker -/

namespace Topology

variable (t : Topology)

def argumentsOf (queue : GoString) : Arguments :=
  (t.declare.findSome? fun
    | .queue name args => if name = queue then some args else none
    | _ => none).getD .none

/-- No binding has a wildcard, so a topic matches a key that is equal to it. -/
def route (exchange key : GoString) : List GoString :=
  t.declare.filterMap fun
    | .binding queue bound source => if source = exchange ∧ bound = key then some queue else none
    | _ => none

end Topology

def deathReasonExpired : GoString := lit "expired"

def isDeath (queue reason : GoString) : Field → Bool
  | .table death =>
    (match List.lookup (lit "queue") death with
      | some (.str q) => q == queue
      | _ => false) &&
    match List.lookup (lit "reason") death with
      | some (.str r) => r == reason
      | _ => false
  | _ => false

def countOf : Field → Int64
  | .table death =>
    match List.lookup (lit "count") death with
    | some (.long n) => n
    | _ => 0
  | _ => 0

def death (queue reason : GoString) (count : Int64) : Field :=
  .table [(lit "count",.long count),(lit "reason",.str reason),(lit "queue",.str queue)]

/-- The entry of the queue and the reason is counted up and moved to the front. -/
def recordDeath (queue reason : GoString) (deaths : List Field) : List Field :=
  match deaths.partition (isDeath queue reason) with
  | ([],others) => death queue reason 1 :: others
  | (old :: _,others) => death queue reason (countOf old + 1) :: others

def deathsOf (headers : Headers) : List Field :=
  match List.lookup headerDeath headers with
  | some (.array deaths) => deaths
  | _ => []

def withDeath (queue reason : GoString) (headers : Headers) : Headers :=
  (headerDeath,.array (recordDeath queue reason (deathsOf headers))) ::
    headers.filter fun field => field.1 ≠ headerDeath

inductive Copy where
  | queued (queue : GoString) (message : Message)
  /-- Delivered from a queue; the consumer still has these calls to make. -/
  | held (queue : GoString) (message : Message) (rest : Steps)

def Copy.message : Copy → Message
  | .queued _ message | .held _ message _ => message

/-- What happens to one copy. A call that reports an error may have arrived or not. -/
inductive Event where
  | deliver
  | expire
  | handled (result : Except Err Unit)
  | settled (arrived : Bool)
  | published (result : Except Err Unit) (arrived : Bool)

/-- What becomes of the copy, and how the handler ended if it ran. -/
structure Reaction where
  copies : List Copy
  ran : Option Bool

def deadLettered (t : Topology) (queue reason : GoString) (message : Message) : List Copy :=
  match (t.argumentsOf queue).deadLetterExchange,(t.argumentsOf queue).deadLetterRoutingKey with
  | some exchange,some key =>
    (t.route exchange key).map fun target =>
      .queued target { message with headers := withDeath queue reason message.headers }
  | _,_ => []

variable (t : Topology) (maxRetries : Int64)

/-- `NewConsumer` -/
def consumer : Consumer := ⟨t.exchange,maxRetries⟩

def react : Copy → Event → Option Reaction
  | .queued queue message, .deliver =>
    if queue = t.queueProcess ∨ queue = t.queueDelete then
      some ⟨[.held queue message ((consumer t maxRetries).handleDelivery message)],none⟩
    else none
  | .queued queue message, .expire =>
    if (t.argumentsOf queue).messageTTL.isSome then
      some ⟨deadLettered t queue deathReasonExpired message,none⟩
    else none
  | .held queue message (.call (.handle _) next), .handled result =>
    some ⟨[.held queue message (next result)],some (match result with | .ok () => true | .error _ => false)⟩
  -- the same delivery, with the same headers, comes back when a settlement is lost
  | .held queue message (.call .ack _), .settled arrived =>
    some ⟨if arrived then [] else [.queued queue message],none⟩
  | .held queue message (.call (.nack requeue) _), .settled arrived =>
    some ⟨if arrived && !requeue then deadLettered t queue deathReasonRejected message
      else [.queued queue message],none⟩
  | .held queue message (.call (.publish exchange key sent) next), .published result arrived =>
    match result, arrived with
    | .ok (), false => none
    | _, _ =>
      some ⟨.held queue message (next result) ::
        if arrived then (t.route exchange key).map fun target => .queued target sent else [],none⟩
  | _, _ => none

structure State where
  copies : List Copy
  /-- Calls of the handler, and whether one has succeeded. -/
  runs : Nat
  succeeded : Bool

structure Action where
  copy : Nat
  event : Event

def initial (queue : GoString) (message : Message) : State := ⟨[.queued queue message],0,false⟩

def State.after (s : State) (before later : List Copy) (r : Reaction) : State where
  copies := before ++ r.copies ++ later
  runs := s.runs + if r.ran.isSome then 1 else 0
  succeeded := s.succeeded || r.ran == some true

def step (s : State) (a : Action) : Option State :=
  match s.copies[a.copy]? with
  | none => none
  | some copy =>
    (react t maxRetries copy a.event).map (s.after (s.copies.take a.copy) (s.copies.drop (a.copy + 1)))

/-- No settlement and no publication fails. -/
def Event.faultless : Event → Bool
  | .settled arrived => arrived
  | .published result _ => match result with
    | .ok () => true
    | .error _ => false
  | _ => true

theorem step_cases {t : Topology} {maxRetries : Int64} {s s' : State} {a : Action}
    (taken : step t maxRetries s a = some s') : ∃ before copy later r,
      s.copies = before ++ copy :: later ∧ react t maxRetries copy a.event = some r ∧
        s' = s.after before later r := by
  unfold step at taken
  split at taken
  · contradiction
  · next copy found =>
    obtain ⟨r,reaction,rfl⟩ := Option.map_eq_some_iff.mp taken
    obtain ⟨inside,same⟩ := List.getElem?_eq_some_iff.mp found
    refine ⟨_,copy,_,r,?_,reaction,rfl⟩
    rw [← same,List.getElem_cons_drop,List.take_append_drop]

/-! ### The declared edges -/

/-- The two types of events, by the queue they are worked off from. -/
inductive Kind where
  | upload | delete
  deriving DecidableEq

def Kind.other : Kind → Kind
  | .upload => .delete
  | .delete => .upload

namespace Topology

def pair (t : Topology) : Kind → Pair
  | .upload => ⟨t.queueProcess,routingUploaded,t.retryProcess,routingRetryProcess,routingUploaded⟩
  | .delete => ⟨t.queueDelete,routingDeleted,t.retryDelete,routingRetryDelete,routingDeleted⟩

/-- All queues have different names. -/
def Distinct (t : Topology) : Prop :=
  [t.queueProcess,t.retryProcess,t.queueDelete,t.retryDelete,t.queueDead].Nodup

variable {t : Topology} (k : Kind)

theorem declare_eq (t : Topology) : t.declare =
    [.exchange t.exchange,
      .queue t.queueProcess ⟨some t.exchange,some routingRetryProcess,none⟩,
      .binding t.queueProcess routingUploaded t.exchange,
      .queue t.retryProcess ⟨some t.exchange,some routingUploaded,some t.retryTTL⟩,
      .binding t.retryProcess routingRetryProcess t.exchange,
      .queue t.queueDelete ⟨some t.exchange,some routingRetryDelete,none⟩,
      .binding t.queueDelete routingDeleted t.exchange,
      .queue t.retryDelete ⟨some t.exchange,some routingDeleted,some t.retryTTL⟩,
      .binding t.retryDelete routingRetryDelete t.exchange,
      .queue t.queueDead .none,
      .binding t.queueDead routingDead t.exchange] := rfl

theorem route_eq (key : GoString) : t.route t.exchange key =
    [(t.queueProcess,routingUploaded),(t.retryProcess,routingRetryProcess),
      (t.queueDelete,routingDeleted),(t.retryDelete,routingRetryDelete),(t.queueDead,routingDead)].filterMap
      fun (queue,bound) => if bound = key then some queue else none := by
  simp [route,declare_eq,List.filterMap_cons]

theorem route_work : t.route t.exchange (t.pair k).workKey = [(t.pair k).work] := by
  rw [route_eq]
  cases k <;> rfl

theorem route_retry : t.route t.exchange (t.pair k).retryKey = [(t.pair k).retry] := by
  rw [route_eq]
  cases k <;> rfl

theorem route_dead : t.route t.exchange routingDead = [t.queueDead] := by
  rw [route_eq]
  rfl

/-- A queue has the arguments it was declared with. -/
theorem argumentsOf_eq (distinct : t.Distinct) :
    t.argumentsOf t.queueProcess = ⟨some t.exchange,some routingRetryProcess,none⟩ ∧
    t.argumentsOf t.retryProcess = ⟨some t.exchange,some routingUploaded,some t.retryTTL⟩ ∧
    t.argumentsOf t.queueDelete = ⟨some t.exchange,some routingRetryDelete,none⟩ ∧
    t.argumentsOf t.retryDelete = ⟨some t.exchange,some routingDeleted,some t.retryTTL⟩ ∧
    t.argumentsOf t.queueDead = .none := by
  simp only [Distinct,List.nodup_cons,List.mem_cons,List.not_mem_nil,or_false,not_or] at distinct
  obtain ⟨⟨one,two,three,four⟩,⟨five,six,seven⟩,⟨eight,nine⟩,ten,-⟩ := distinct
  simp only [argumentsOf,declare_eq,List.findSome?_cons]
  simp [one,two,three,four,five,six,seven,eight,nine,ten]

theorem argumentsOf_work (distinct : t.Distinct) :
    t.argumentsOf (t.pair k).work = ⟨some t.exchange,some (t.pair k).retryKey,none⟩ := by
  cases k
  · exact (argumentsOf_eq distinct).1
  · exact (argumentsOf_eq distinct).2.2.1

theorem argumentsOf_retry (distinct : t.Distinct) :
    t.argumentsOf (t.pair k).retry = ⟨some t.exchange,some (t.pair k).workKey,some t.retryTTL⟩ := by
  cases k
  · exact (argumentsOf_eq distinct).2.1
  · exact (argumentsOf_eq distinct).2.2.2.1

end Topology

variable {t : Topology} {maxRetries : Int64} {k : Kind}

/-- A rejected message goes to the retry queue of its own type. -/
theorem deadLettered_work (distinct : t.Distinct) (reason : GoString) (message : Message) :
    deadLettered t (t.pair k).work reason message = [.queued (t.pair k).retry
      { message with headers := withDeath (t.pair k).work reason message.headers }] := by
  simp only [deadLettered,t.argumentsOf_work k distinct,t.route_retry k,List.map_cons,List.map_nil]

/-- An expired message goes back to the work queue of its own type. -/
theorem deadLettered_retry (distinct : t.Distinct) (reason : GoString) (message : Message) :
    deadLettered t (t.pair k).retry reason message = [.queued (t.pair k).work
      { message with headers := withDeath (t.pair k).retry reason message.headers }] := by
  simp only [deadLettered,t.argumentsOf_retry k distinct,t.route_work k,List.map_cons,List.map_nil]

/-! ### Nothing is lost, and nothing strays -/

open Consumer

theorem acknowledge_eq : acknowledge = .call .ack fun _ => .done () := rfl

theorem reject_eq : reject = .call (.nack false) fun _ => .done () := rfl

theorem handleDelivery_eq (c : Consumer) (message : Message) :
    c.handleDelivery message = .call (.handle message.body) fun result =>
      match result with
      | .ok () => acknowledge
      | .error _ =>
        if deathCount message.headers ≥ c.maxRetries then c.toDeadLetter message else reject := rfl

theorem toDeadLetter_eq (c : Consumer) (message : Message) :
    c.toDeadLetter message =
      .call (.publish c.exchange routingDead { message with persistent := true }) fun result =>
        match result with
        | .error _ => reject
        | .ok () => acknowledge := rfl

theorem handleDelivery_ne (c : Consumer) (message : Message) : c.handleDelivery message ≠ acknowledge := by
  rw [handleDelivery_eq,acknowledge_eq]
  simp

theorem toDeadLetter_ne (c : Consumer) (message : Message) : c.toDeadLetter message ≠ acknowledge := by
  rw [toDeadLetter_eq,acknowledge_eq]
  simp

theorem reject_ne : reject ≠ acknowledge := by
  rw [reject_eq,acknowledge_eq]
  simp

/-- Where a consumer can be with a delivery; nothing follows its settlement. -/
inductive Point (c : Consumer) (message : Message) : Steps → Prop
  | start : Point c message (c.handleDelivery message)
  | bury : Point c message (c.toDeadLetter message)
  | acknowledge : Point c message acknowledge
  | reject : Point c message reject

/-- A copy of an event of this type, where it may be. -/
def Copy.Placed (t : Topology) (maxRetries : Int64) (k : Kind) : Copy → Prop
  | .queued queue _ => queue = (t.pair k).work ∨ queue = (t.pair k).retry ∨ queue = t.queueDead
  | .held queue message rest => queue = (t.pair k).work ∧ Point (consumer t maxRetries) message rest

/-- The copy lies in the queue of the dead, where nobody takes it from. -/
def Copy.Dead (t : Topology) : Copy → Prop
  | .queued queue _ => queue = t.queueDead
  | .held _ _ _ => False

/-- The next thing that happens to the copy is its acknowledgement. -/
def Copy.Settling : Copy → Prop
  | .queued _ _ => False
  | .held _ _ rest => rest = acknowledge

structure Kept (t : Topology) (maxRetries : Int64) (k : Kind) (s : State) : Prop where
  placed : ∀ copy ∈ s.copies, copy.Placed t maxRetries k
  settling : ∀ copy ∈ s.copies, copy.Settling → s.succeeded = true ∨ ∃ dead ∈ s.copies, dead.Dead t
  present : s.succeeded = true ∨ s.copies ≠ []

/-- What a message is, wherever it has been. -/
def Message.Same (m m' : Message) : Prop := m.messageID = m'.messageID ∧ m.body = m'.body

/-- What one reaction can do to a copy that is in its place. -/
structure Reacts (t : Topology) (maxRetries : Int64) (k : Kind) (copy : Copy) (r : Reaction) : Prop where
  placed : ∀ new ∈ r.copies, new.Placed t maxRetries k
  undead : ¬copy.Dead t
  settling : ∀ new ∈ r.copies, new.Settling → r.ran = some true ∨ ∃ dead ∈ r.copies, dead.Dead t
  present : copy.Settling ∨ r.copies ≠ []
  same : ∀ new ∈ r.copies, new.message.Same copy.message

theorem Topology.dead_ne (distinct : t.Distinct) :
    t.queueDead ≠ (t.pair k).work ∧ t.queueDead ≠ (t.pair k).retry := by
  simp only [Topology.Distinct,List.nodup_cons,List.mem_cons,List.not_mem_nil,or_false,not_or] at distinct
  obtain ⟨⟨_,_,_,one⟩,⟨_,_,two⟩,⟨_,three⟩,four,-⟩ := distinct
  cases k
  · exact ⟨Ne.symm one,Ne.symm two⟩
  · exact ⟨Ne.symm three,Ne.symm four⟩

theorem Topology.retry_ne (distinct : t.Distinct) :
    ¬((t.pair k).retry = t.queueProcess ∨ (t.pair k).retry = t.queueDelete) := by
  simp only [Topology.Distinct,List.nodup_cons,List.mem_cons,List.not_mem_nil,or_false,not_or] at distinct
  obtain ⟨⟨one,_,two,_⟩,⟨three,_,_⟩,⟨four,_⟩,-⟩ := distinct
  cases k
  · exact not_or.mpr ⟨Ne.symm one,three⟩
  · exact not_or.mpr ⟨Ne.symm two,Ne.symm four⟩

theorem Topology.dead_unread (distinct : t.Distinct) :
    ¬(t.queueDead = t.queueProcess ∨ t.queueDead = t.queueDelete) :=
  not_or.mpr ⟨(Topology.dead_ne (k := .upload) distinct).1,(Topology.dead_ne (k := .delete) distinct).1⟩

/-- A copy that moves from one queue of its type to another, or is taken from one. -/
theorem Reacts.single {copy new : Copy} {ran : Option Bool} (undead : ¬copy.Dead t)
    (placed : new.Placed t maxRetries k) (settling : new.Settling → ran = some true)
    (same : new.message.Same copy.message) : Reacts t maxRetries k copy ⟨[new],ran⟩ where
  placed := by simpa using placed
  undead := undead
  settling := by
    intro other member settles
    obtain rfl := List.mem_singleton.mp member
    exact .inl (settling settles)
  present := .inr (by simp)
  same := by simpa using same

theorem reacts_queued (distinct : t.Distinct) {queue : GoString} {message : Message} {event : Event}
    {r : Reaction} (placed : (Copy.queued queue message).Placed t maxRetries k)
    (reaction : react t maxRetries (.queued queue message) event = some r) :
    Reacts t maxRetries k (.queued queue message) r := by
  have dead := t.dead_ne (k := k) distinct
  cases event <;> simp only [react,reduceCtorEq] at reaction
  case deliver =>
    split at reaction
    · next consumed =>
      cases reaction
      have here : queue = (t.pair k).work := by
        rcases placed with work | rfl | rfl
        · exact work
        · exact absurd consumed (t.retry_ne distinct)
        · exact absurd consumed (t.dead_unread distinct)
      subst here
      exact .single (Ne.symm dead.1) ⟨rfl,.start⟩ (fun settles => absurd settles (handleDelivery_ne _ _)) ⟨rfl,rfl⟩
    · contradiction
  case expire =>
    split at reaction
    · next expires =>
      cases reaction
      have here : queue = (t.pair k).retry := by
        rcases placed with rfl | retry | rfl
        · rw [t.argumentsOf_work k distinct] at expires
          contradiction
        · exact retry
        · rw [(t.argumentsOf_eq distinct).2.2.2.2] at expires
          contradiction
      subst here
      rw [deadLettered_retry distinct]
      exact .single (Ne.symm dead.2) (.inl rfl) False.elim ⟨rfl,rfl⟩
    · contradiction

theorem reacts_held (distinct : t.Distinct) {queue : GoString} {message : Message} {rest : Steps}
    {event : Event} {r : Reaction} (placed : (Copy.held queue message rest).Placed t maxRetries k)
    (reaction : react t maxRetries (.held queue message rest) event = some r) :
    Reacts t maxRetries k (.held queue message rest) r := by
  obtain ⟨rfl,point⟩ := placed
  have back : (Copy.queued (t.pair k).work message).Placed t maxRetries k := .inl rfl
  cases point with
  | start =>
    rw [handleDelivery_eq] at reaction
    cases event <;> simp only [react,reduceCtorEq] at reaction
    case handled result =>
      cases reaction
      rcases result with err | _
      · refine .single id ⟨rfl,?_⟩ ?_ ⟨rfl,rfl⟩
        · simp only
          split
          · exact .bury
          · exact .reject
        · intro settles
          simp only [Copy.Settling] at settles
          split at settles
          · exact absurd settles (toDeadLetter_ne _ _)
          · exact absurd settles reject_ne
      · exact .single id ⟨rfl,.acknowledge⟩ (fun _ => rfl) ⟨rfl,rfl⟩
  | bury =>
    rw [toDeadLetter_eq] at reaction
    cases event <;> simp only [react,reduceCtorEq] at reaction
    case published result arrived =>
      have route : t.route (consumer t maxRetries).exchange routingDead = [t.queueDead] := t.route_dead
      have grave : (Copy.queued t.queueDead { message with persistent := true }).Placed t maxRetries k :=
        .inr (.inr rfl)
      rcases result with err | _ <;> cases arrived
      · cases reaction
        exact .single id ⟨rfl,.reject⟩ (fun settles => absurd settles reject_ne) ⟨rfl,rfl⟩
      · cases reaction
        rw [if_pos rfl,route]
        refine ⟨by simpa using ⟨⟨rfl,.reject⟩,grave⟩,id,?_,.inr (by simp),by simp [Message.Same,Copy.message]⟩
        exact fun _ _ _ => .inr ⟨_,List.mem_cons_of_mem _ List.mem_cons_self,rfl⟩
      · contradiction
      · cases reaction
        rw [if_pos rfl,route]
        refine ⟨by simpa using ⟨⟨rfl,.acknowledge⟩,grave⟩,id,?_,.inr (by simp),by simp [Message.Same,Copy.message]⟩
        exact fun _ _ _ => .inr ⟨_,List.mem_cons_of_mem _ List.mem_cons_self,rfl⟩
  | acknowledge =>
    rw [acknowledge_eq] at reaction
    cases event <;> simp only [react,reduceCtorEq] at reaction
    case settled arrived =>
      cases reaction
      cases arrived with
      | false => exact .single id back False.elim ⟨rfl,rfl⟩
      | true => exact ⟨by simp,id,by simp,.inl rfl,by simp⟩
  | reject =>
    rw [reject_eq] at reaction
    cases event <;> simp only [react,reduceCtorEq] at reaction
    case settled arrived =>
      cases reaction
      cases arrived with
      | false => exact .single id back False.elim ⟨rfl,rfl⟩
      | true =>
        simp only [Bool.not_false,Bool.and_self,if_true,deadLettered_work distinct]
        exact .single id (.inr (.inl rfl)) False.elim ⟨rfl,rfl⟩

theorem reacts (distinct : t.Distinct) {copy : Copy} {event : Event} {r : Reaction}
    (placed : copy.Placed t maxRetries k) (reaction : react t maxRetries copy event = some r) :
    Reacts t maxRetries k copy r := by
  cases copy with
  | queued queue message => exact reacts_queued distinct placed reaction
  | held queue message rest => exact reacts_held distinct placed reaction

theorem kept_step (distinct : t.Distinct) {s s' : State} {a : Action} (kept : Kept t maxRetries k s)
    (taken : step t maxRetries s a = some s') : Kept t maxRetries k s' := by
  obtain ⟨before,copy,later,r,whole,reaction,rfl⟩ := step_cases taken
  have inside : copy ∈ s.copies := by
    rw [whole]
    simp
  have good := reacts distinct (kept.placed copy inside) reaction
  have others : ∀ other, other ∈ before ++ later → other ∈ s.copies := by
    intro other member
    rw [whole]
    rcases List.mem_append.mp member with left | right
    · exact List.mem_append_left _ left
    · exact List.mem_append_right _ (List.mem_cons_of_mem _ right)
  have split : ∀ other, other ∈ (s.after before later r).copies ↔
      other ∈ r.copies ∨ other ∈ before ++ later := by
    intro other
    simp only [State.after,List.mem_append]
    tauto
  -- a dead copy is never the one that reacts
  have grave : ∀ dead ∈ s.copies, dead.Dead t → dead ∈ (s.after before later r).copies := by
    intro dead member lies
    rw [whole] at member
    rw [split]
    rcases List.mem_append.mp member with left | right
    · exact .inr (List.mem_append_left _ left)
    · rcases List.mem_cons.mp right with rfl | rest
      · exact absurd lies good.undead
      · exact .inr (List.mem_append_right _ rest)
  have success : s.succeeded = true → (s.after before later r).succeeded = true := by
    intro done
    simp [State.after,done]
  refine ⟨?_,?_,?_⟩
  · intro other member
    rcases (split other).mp member with new | old
    · exact good.placed other new
    · exact kept.placed other (others other old)
  · intro other member settles
    rcases (split other).mp member with new | old
    · rcases good.settling other new settles with ran | ⟨dead,fresh,lies⟩
      · exact .inl (by simp [State.after,ran])
      · exact .inr ⟨dead,(split dead).mpr (.inl fresh),lies⟩
    · rcases kept.settling other (others other old) settles with done | ⟨dead,there,lies⟩
      · exact .inl (success done)
      · exact .inr ⟨dead,grave dead there lies,lies⟩
  · rcases good.present with settles | some
    · rcases kept.settling copy inside settles with done | ⟨dead,there,lies⟩
      · exact .inl (success done)
      · exact .inr (List.ne_nil_of_mem (grave dead there lies))
    · obtain ⟨new,fresh⟩ := List.exists_mem_of_ne_nil _ some
      exact .inr (List.ne_nil_of_mem ((split new).mpr (.inl fresh)))

theorem kept_initial (message : Message) : Kept t maxRetries k (initial (t.pair k).work message) where
  placed := by
    intro copy member
    obtain rfl := List.mem_singleton.mp member
    exact .inl rfl
  settling := by
    intro copy member settles
    obtain rfl := List.mem_singleton.mp member
    contradiction
  present := .inr (by simp [initial])

/-! ### The count of the broker and the runs of the handler -/

/-- The entries of a message that was rejected `n` times and has come back since. -/
def Rounds (t : Topology) (k : Kind) (n : Nat) (deaths : List Field) : Prop :=
  (n = 0 ∧ deaths = []) ∨ ∃ m, 0 < n ∧
    let rejected := death (t.pair k).work deathReasonRejected (.ofNat n)
    let expired := death (t.pair k).retry deathReasonExpired m
    deaths = [rejected] ∨ deaths = [rejected,expired] ∨ deaths = [expired,rejected]

theorem isDeath_death (queue reason queue' reason' : GoString) (n : Int64) :
    isDeath queue reason (death queue' reason' n) = (queue' == queue && reason' == reason) := rfl

theorem countOf_death (queue reason : GoString) (n : Int64) : countOf (death queue reason n) = n := rfl

theorem rejections_rejected (queue : GoString) (n : Int64) :
    rejections (death queue deathReasonRejected n) = n := rfl

theorem rejections_expired (queue : GoString) (n : Int64) :
    rejections (death queue deathReasonExpired n) = 0 := rfl

theorem deathsOf_withDeath (queue reason : GoString) (headers : Headers) :
    deathsOf (withDeath queue reason headers) = recordDeath queue reason (deathsOf headers) := by
  simp [deathsOf,withDeath]

theorem deathCount_eq (headers : Headers) :
    deathCount headers = (deathsOf headers).foldl (fun total entry => total + rejections entry) 0 := by
  unfold deathCount deathsOf
  cases List.lookup headerDeath headers with
  | none => rfl
  | some field => cases field <;> rfl

/-- The code counts exactly the rejections. -/
theorem Rounds.deathCount {n : Nat} {headers : Headers} (rounds : Rounds t k n (deathsOf headers)) :
    deathCount headers = .ofNat n := by
  rw [deathCount_eq]
  rcases rounds with ⟨rfl,none⟩ | ⟨m,_,one | two | three⟩
  · rw [none]
    rfl
  · rw [one]
    simp [rejections_rejected]
  · rw [two]
    simp [rejections_rejected,rejections_expired]
  · rw [three]
    simp [rejections_rejected,rejections_expired]

theorem Rounds.rejected {n : Nat} {headers : Headers} (rounds : Rounds t k n (deathsOf headers)) :
    Rounds t k (n + 1) (deathsOf (withDeath (t.pair k).work deathReasonRejected headers)) := by
  have next : (Int64.ofNat n + 1 : Int64) = .ofNat (n + 1) := by simp
  have other : (deathReasonExpired == deathReasonRejected) = false := by decide
  rw [deathsOf_withDeath]
  right
  rcases rounds with ⟨rfl,none⟩ | ⟨m,_,one | two | three⟩
  · exact ⟨0,Nat.succ_pos _,.inl (by rw [none]; rfl)⟩
  · refine ⟨m,Nat.succ_pos _,.inl ?_⟩
    simp [one,recordDeath,List.partition,List.partition.loop,isDeath_death,countOf_death]
  · refine ⟨m,Nat.succ_pos _,.inr (.inl ?_)⟩
    simp [two,recordDeath,List.partition,List.partition.loop,isDeath_death,countOf_death,other]
  · refine ⟨m,Nat.succ_pos _,.inr (.inl ?_)⟩
    simp [three,recordDeath,List.partition,List.partition.loop,isDeath_death,countOf_death,other]

theorem Rounds.expired {n : Nat} {headers : Headers} (rounds : Rounds t k n (deathsOf headers))
    (some : 0 < n) :
    Rounds t k n (deathsOf (withDeath (t.pair k).retry deathReasonExpired headers)) := by
  have other : (deathReasonRejected == deathReasonExpired) = false := by decide
  rw [deathsOf_withDeath]
  right
  rcases rounds with ⟨rfl,_⟩ | ⟨m,_,one | two | three⟩
  · contradiction
  · refine ⟨1,some,.inr (.inr ?_)⟩
    simp [one,recordDeath,List.partition,List.partition.loop,isDeath_death,other]
  · refine ⟨m + 1,some,.inr (.inr ?_)⟩
    simp [two,recordDeath,List.partition,List.partition.loop,isDeath_death,countOf_death,other]
  · refine ⟨m + 1,some,.inr (.inr ?_)⟩
    simp [three,recordDeath,List.partition,List.partition.loop,isDeath_death,countOf_death,other]

/-- A message that was published has no deaths behind it. -/
theorem rounds_publishing (ctx : TraceContext) (messageID body : GoString) :
    Rounds t k 0 (deathsOf (publishing ctx messageID body).headers) := by
  refine .inl ⟨rfl,?_⟩
  obtain ⟨traceparent,tracestate,baggage⟩ := ctx
  cases traceparent <;> cases tracestate <;> cases baggage <;> rfl

/-! ### A run without faults -/

/-- The retries a consumer allows, as a number. -/
def limit (maxRetries : Int64) : Nat := maxRetries.toInt.toNat

/-- The stages of a message that meets no fault, with a bound on the steps still ahead. -/
inductive Phase (t : Topology) (maxRetries : Int64) (k : Kind) : Nat → State → Prop
  | waiting {n : Nat} {m : Message} (within : n ≤ limit maxRetries)
      (rounds : Rounds t k n (deathsOf m.headers)) :
      Phase t maxRetries k (4 * (limit maxRetries - n) + 4) ⟨[.queued (t.pair k).work m],n,false⟩
  | handling {n : Nat} {m : Message} (within : n ≤ limit maxRetries)
      (rounds : Rounds t k n (deathsOf m.headers)) :
      Phase t maxRetries k (4 * (limit maxRetries - n) + 3)
        ⟨[.held (t.pair k).work m ((consumer t maxRetries).handleDelivery m)],n,false⟩
  | rejecting {n : Nat} {m : Message} (within : n < limit maxRetries)
      (rounds : Rounds t k n (deathsOf m.headers)) :
      Phase t maxRetries k (4 * (limit maxRetries - n) + 2)
        ⟨[.held (t.pair k).work m reject],n + 1,false⟩
  | resting {n : Nat} {m : Message} (within : n < limit maxRetries)
      (rounds : Rounds t k (n + 1) (deathsOf m.headers)) :
      Phase t maxRetries k (4 * (limit maxRetries - n) + 1)
        ⟨[.queued (t.pair k).retry m],n + 1,false⟩
  | burying {m : Message} :
      Phase t maxRetries k 2
        ⟨[.held (t.pair k).work m ((consumer t maxRetries).toDeadLetter m)],limit maxRetries + 1,false⟩
  | buried {m dead : Message} :
      Phase t maxRetries k 1
        ⟨[.held (t.pair k).work m acknowledge,.queued t.queueDead dead],limit maxRetries + 1,false⟩
  | dead {m : Message} :
      Phase t maxRetries k 0 ⟨[.queued t.queueDead m],limit maxRetries + 1,false⟩
  | done {n : Nat} {m : Message} (within : n ≤ limit maxRetries + 1) :
      Phase t maxRetries k 1 ⟨[.held (t.pair k).work m acknowledge],n,true⟩
  | spent {n : Nat} (within : n ≤ limit maxRetries + 1) : Phase t maxRetries k 0 ⟨[],n,true⟩

theorem singleton_split {α : Type} {x c : α} {before later : List α} (whole : [x] = before ++ c :: later) :
    before = [] ∧ c = x ∧ later = [] := by
  cases before with
  | nil => cases whole; exact ⟨rfl,rfl,rfl⟩
  | cons first rest => simp at whole

/-- The comparison of the code is the one of the numbers. -/
theorem deathCount_ge {n : Nat} {headers : Headers} (positive : 1 ≤ maxRetries)
    (within : n ≤ limit maxRetries) (rounds : Rounds t k n (deathsOf headers)) :
    deathCount headers ≥ maxRetries ↔ n = limit maxRetries := by
  have small := maxRetries.toInt_lt
  have low : 1 ≤ maxRetries.toInt := by simpa [Int64.le_iff_toInt_le] using positive
  unfold limit at within ⊢
  have exact_ : (Int64.ofNat n).toInt = n := Int64.toInt_ofNat_of_lt (by omega)
  rw [rounds.deathCount,ge_iff_le,Int64.le_iff_toInt_le,exact_]
  omega

/-- Nothing happens to a copy in the queue of the dead. -/
theorem react_dead (distinct : t.Distinct) (m : Message) (event : Event) :
    react t maxRetries (.queued t.queueDead m) event = none := by
  cases event <;> simp only [react]
  · exact if_neg (t.dead_unread distinct)
  · rw [(t.argumentsOf_eq distinct).2.2.2.2]
    rfl

/-- A fault-free step leads from stage to stage, and closer to the end. -/
theorem phase_step (distinct : t.Distinct) (positive : 1 ≤ maxRetries) {rank : Nat} {s s' : State}
    {a : Action} (phase : Phase t maxRetries k rank s) (faultless : a.event.faultless = true)
    (taken : step t maxRetries s a = some s') :
    ∃ rank', rank' < rank ∧ Phase t maxRetries k rank' s' := by
  obtain ⟨before,copy,later,r,whole,reaction,rfl⟩ := step_cases taken
  cases phase with
  | @waiting n m within rounds =>
    obtain ⟨rfl,rfl,rfl⟩ := singleton_split whole
    cases h : a.event <;> simp only [h,react,reduceCtorEq] at reaction
    case deliver =>
      split at reaction
      · cases reaction
        exact ⟨_,Nat.lt_succ_self _,.handling within rounds⟩
      · contradiction
    case expire =>
      rw [t.argumentsOf_work k distinct] at reaction
      contradiction
  | @handling n m within rounds =>
    obtain ⟨rfl,rfl,rfl⟩ := singleton_split whole
    rw [handleDelivery_eq] at reaction
    cases h : a.event <;> simp only [h,react,reduceCtorEq] at reaction
    case handled result =>
      cases reaction
      rcases result with err | _
      · by_cases last : n = limit maxRetries
        · have exhausted : deathCount m.headers ≥ (consumer t maxRetries).maxRetries :=
            (deathCount_ge positive within rounds).mpr last
          subst last
          refine ⟨2,by omega,?_⟩
          rw [if_pos exhausted]
          exact .burying
        · have more : ¬deathCount m.headers ≥ (consumer t maxRetries).maxRetries :=
            mt (deathCount_ge positive within rounds).mp last
          refine ⟨_,Nat.lt_succ_self _,?_⟩
          rw [if_neg more]
          exact .rejecting (by omega) rounds
      · exact ⟨1,by omega,.done (Nat.succ_le_succ within)⟩
  | @rejecting n m within rounds =>
    obtain ⟨rfl,rfl,rfl⟩ := singleton_split whole
    rw [reject_eq] at reaction
    cases h : a.event <;> simp only [h,react,reduceCtorEq] at reaction
    case settled arrived =>
      have arrives : arrived = true := by simpa [h,Event.faultless] using faultless
      subst arrives
      cases reaction
      refine ⟨_,Nat.lt_succ_self _,?_⟩
      simp only [Bool.not_false,Bool.and_self,if_true,deadLettered_work distinct]
      exact .resting within rounds.rejected
  | @resting n m within rounds =>
    obtain ⟨rfl,rfl,rfl⟩ := singleton_split whole
    cases h : a.event <;> simp only [h,react,reduceCtorEq] at reaction
    case deliver =>
      rw [if_neg (t.retry_ne distinct)] at reaction
      contradiction
    case expire =>
      rw [t.argumentsOf_retry k distinct] at reaction
      cases reaction
      refine ⟨4 * (limit maxRetries - (n + 1)) + 4,by omega,?_⟩
      rw [deadLettered_retry distinct]
      exact .waiting within (rounds.expired (Nat.succ_pos n))
  | @burying m =>
    obtain ⟨rfl,rfl,rfl⟩ := singleton_split whole
    rw [toDeadLetter_eq] at reaction
    cases h : a.event <;> simp only [h,react,reduceCtorEq] at reaction
    case published result arrived =>
      rcases result with err | _
      · simp [h,Event.faultless] at faultless
      · cases arrived with
        | false => contradiction
        | true =>
          cases reaction
          refine ⟨1,by omega,?_⟩
          have route : t.route (consumer t maxRetries).exchange routingDead = [t.queueDead] := t.route_dead
          simp only [if_true,route]
          exact .buried
  | @buried m dead =>
    cases before with
    | nil =>
      obtain ⟨rfl,rfl⟩ := List.cons.inj whole
      rw [acknowledge_eq] at reaction
      cases h : a.event <;> simp only [h,react,reduceCtorEq] at reaction
      case settled arrived =>
        have arrives : arrived = true := by simpa [h,Event.faultless] using faultless
        subst arrives
        cases reaction
        exact ⟨0,by omega,.dead⟩
    | cons first rest =>
      obtain ⟨-,whole⟩ := List.cons.inj whole
      obtain ⟨rfl,rfl,rfl⟩ := singleton_split whole
      exact absurd reaction (by rw [react_dead distinct]; simp)
  | @dead m =>
    obtain ⟨rfl,rfl,rfl⟩ := singleton_split whole
    exact absurd reaction (by rw [react_dead distinct]; simp)
  | @done n m within =>
    obtain ⟨rfl,rfl,rfl⟩ := singleton_split whole
    rw [acknowledge_eq] at reaction
    cases h : a.event <;> simp only [h,react,reduceCtorEq] at reaction
    case settled arrived =>
      have arrives : arrived = true := by simpa [h,Event.faultless] using faultless
      subst arrives
      cases reaction
      exact ⟨0,by omega,.spent within⟩
  | spent => simp at whole

theorem phase_runs {rank : Nat} {s : State} (phase : Phase t maxRetries k rank s) :
    s.runs ≤ limit maxRetries + 1 := by
  cases phase with
  | waiting within | handling within => exact Nat.le_succ_of_le within
  | rejecting within | resting within => exact Nat.le_succ_of_le within
  | burying | buried | dead => exact Nat.le_refl _
  | done within | spent within => exact within

/-- A message whose handler never succeeded stops only in the queue of the dead. -/
theorem phase_stuck (distinct : t.Distinct) {rank : Nat} {s : State} (phase : Phase t maxRetries k rank s)
    (stuck : ∀ a, a.event.faultless = true → step t maxRetries s a = none)
    (failed : s.succeeded = false) :
    s.runs = limit maxRetries + 1 ∧ ∃ m, s.copies = [.queued t.queueDead m] := by
  have consumed : (t.pair k).work = t.queueProcess ∨ (t.pair k).work = t.queueDelete := by
    cases k
    · exact .inl rfl
    · exact .inr rfl
  cases phase with
  | waiting within rounds =>
    have stays := stuck ⟨0,.deliver⟩ rfl
    simp [step,react,consumed] at stays
  | handling within rounds =>
    have stays := stuck ⟨0,.handled (.ok ())⟩ rfl
    simp [step,handleDelivery_eq,react] at stays
  | rejecting within rounds =>
    have stays := stuck ⟨0,.settled true⟩ rfl
    simp [step,reject_eq,react] at stays
  | resting within rounds =>
    have stays := stuck ⟨0,.expire⟩ rfl
    simp [step,react,t.argumentsOf_retry k distinct] at stays
  | burying =>
    have stays := stuck ⟨0,.published (.ok ()) true⟩ rfl
    simp [step,toDeadLetter_eq,react] at stays
  | buried =>
    have stays := stuck ⟨0,.settled true⟩ rfl
    simp [step,acknowledge_eq,react] at stays
  | dead => exact ⟨rfl,_,rfl⟩
  | done | spent => contradiction

open Transition

abbrev Trace := List (State × Action × State)

theorem phase_path (distinct : t.Distinct) (positive : 1 ≤ maxRetries) {rank : Nat} {s₀ s : State}
    {trace : Trace} (phase : Phase t maxRetries k rank s₀) (path : Path (step t maxRetries) s₀ trace s)
    (faultless : ∀ entry ∈ trace, entry.2.1.event.faultless = true) :
    ∃ rank', trace.length + rank' ≤ rank ∧ Phase t maxRetries k rank' s := by
  induction path with
  | nil => exact ⟨rank,by simp,phase⟩
  | snoc before taken ih =>
    obtain ⟨middle,bound,reached⟩ := ih fun entry member => faultless entry (List.mem_append_left _ member)
    have last := faultless _ (List.mem_append_right _ List.mem_cons_self)
    obtain ⟨rank',less,next⟩ := phase_step distinct positive reached last taken
    refine ⟨rank',?_,next⟩
    rw [List.length_append,List.length_singleton]
    omega

/-! ### The retry machine -/

def Copy.queue : Copy → GoString
  | .queued queue _ => queue
  | .held queue _ _ => queue

/-- The copy is in its work queue, in its retry queue, being handled, or in the queue of
the dead. -/
def Copy.AtHome (t : Topology) (k : Kind) : Copy → Prop
  | .queued queue _ => queue = (t.pair k).work ∨ queue = (t.pair k).retry ∨ queue = t.queueDead
  | .held queue _ _ => queue = (t.pair k).work

theorem Copy.Placed.home {copy : Copy} (placed : copy.Placed t maxRetries k) : copy.AtHome t k := by
  cases copy with
  | queued => exact placed
  | held => exact placed.1

theorem Topology.home_ne (distinct : t.Distinct) {queue : GoString}
    (home : queue = (t.pair k).work ∨ queue = (t.pair k).retry ∨ queue = t.queueDead) :
    queue ≠ (t.pair k.other).work ∧ queue ≠ (t.pair k.other).retry := by
  have dead := t.dead_ne (k := k.other) distinct
  simp only [Topology.Distinct,List.nodup_cons,List.mem_cons,List.not_mem_nil,or_false,not_or] at distinct
  obtain ⟨⟨_,two,three,_⟩,⟨four,five,_⟩,-⟩ := distinct
  rcases home with rfl | rfl | rfl
  · cases k
    · exact ⟨two,three⟩
    · exact ⟨Ne.symm two,Ne.symm four⟩
  · cases k
    · exact ⟨four,five⟩
    · exact ⟨Ne.symm three,Ne.symm five⟩
  · exact dead

/-- What a reaction keeps of the copy it is one of, a step keeps of all. -/
theorem every_step {s s' : State} {a : Action} {holds : Copy → Prop} (all : ∀ copy ∈ s.copies, holds copy)
    (fresh : ∀ copy ∈ s.copies, ∀ r, react t maxRetries copy a.event = some r → holds copy →
      ∀ new ∈ r.copies, holds new)
    (taken : step t maxRetries s a = some s') : ∀ copy ∈ s'.copies, holds copy := by
  obtain ⟨before,copy,later,r,whole,reaction,rfl⟩ := step_cases taken
  have inside : copy ∈ s.copies := by simp [whole]
  have middle := fresh copy inside r reaction (all copy inside)
  intro new member
  simp only [State.after,List.mem_append] at member
  rw [whole] at all
  rcases member with (left | here) | right
  · exact all new (by simp [left])
  · exact middle new here
  · exact all new (by simp [right])

/-- Whatever fails on the way, every copy is still the message. -/
theorem same_step (distinct : t.Distinct) {s s' : State} {a : Action} {m : Message} (kept : Kept t maxRetries k s)
    (all : ∀ copy ∈ s.copies, copy.message.Same m) (taken : step t maxRetries s a = some s') :
    ∀ copy ∈ s'.copies, copy.message.Same m := by
  refine every_step all (fun copy inside r reaction here new middle => ?_) taken
  have same := (reacts distinct (kept.placed copy inside) reaction).same new middle
  exact ⟨same.1.trans here.1,same.2.trans here.2⟩

theorem kept_run (distinct : t.Distinct) (ctx : TraceContext) (messageID body : GoString) {trace : Trace} {s : State}
    (path : Path (step t maxRetries) (initial (t.pair k).work (publishing ctx messageID body)) trace s) :
    Kept t maxRetries k s ∧ ∀ copy ∈ s.copies, copy.message.Same (publishing ctx messageID body) := by
  induction path with
  | nil =>
    refine ⟨kept_initial _,fun copy member => ?_⟩
    obtain rfl := List.mem_singleton.mp member
    exact ⟨rfl,rfl⟩
  | snoc _ taken ih => exact ⟨kept_step distinct ih.1 taken,same_step distinct ih.1 ih.2 taken⟩

/-- However often settlements and publications fail, a message is somewhere until its
handler has succeeded, never in a queue of the other type, and still itself. Without such faults it is
handled at most `maxRetries + 1` times, in a bounded number of steps, and when all these
runs fail exactly one copy of it ends in the queue of the dead. -/
theorem retries_bounded (distinct : t.Distinct) (positive : 1 ≤ maxRetries) (k : Kind)
    (ctx : TraceContext) (messageID body : GoString) {trace : Trace} {s : State}
    (path : Path (step t maxRetries) (initial (t.pair k).work (publishing ctx messageID body)) trace s) :
    (s.succeeded = false → ∃ copy ∈ s.copies, copy.AtHome t k) ∧
    (∀ copy ∈ s.copies, copy.queue ≠ (t.pair k.other).work ∧ copy.queue ≠ (t.pair k.other).retry ∧
      copy.message.messageID = messageID ∧ copy.message.body = body) ∧
    ((∀ entry ∈ trace, entry.2.1.event.faultless = true) →
      (s.runs : Int) ≤ maxRetries.toInt + 1 ∧ trace.length ≤ 4 * (limit maxRetries + 1) ∧
      ((∀ a, a.event.faultless = true → step t maxRetries s a = none) → s.succeeded = false →
        (s.runs : Int) = maxRetries.toInt + 1 ∧ ∃ m, s.copies = [.queued t.queueDead m])) := by
  obtain ⟨kept,same⟩ := kept_run distinct ctx messageID body path
  have whole : (limit maxRetries : Int) = maxRetries.toInt := by
    have low : 1 ≤ maxRetries.toInt := by simpa [Int64.le_iff_toInt_le] using positive
    unfold limit
    omega
  refine ⟨?_,?_,?_⟩
  · intro failed
    rcases kept.present with done | some
    · rw [failed] at done
      contradiction
    · obtain ⟨copy,member⟩ := List.exists_mem_of_ne_nil _ some
      exact ⟨copy,member,(kept.placed copy member).home⟩
  · intro copy member
    have home := (kept.placed copy member).home
    have apart : copy.queue ≠ (t.pair k.other).work ∧ copy.queue ≠ (t.pair k.other).retry := by
      cases copy with
      | queued => exact t.home_ne distinct home
      | held => exact t.home_ne distinct (.inl home)
    exact ⟨apart.1,apart.2,same copy member⟩
  · intro faultless
    obtain ⟨rank,bound,phase⟩ := phase_path distinct positive
      (.waiting (Nat.zero_le _) (rounds_publishing ctx messageID body)) path faultless
    have runs := phase_runs phase
    refine ⟨by omega,by omega,?_⟩
    intro stuck failed
    obtain ⟨all,buried⟩ := phase_stuck distinct phase stuck failed
    exact ⟨by omega,buried⟩

instance (t : Topology) : Decidable t.Distinct :=
  inferInstanceAs (Decidable (List.Nodup _))

def refusal : Err := .new "connection reset" []

/-- One retry is allowed, and both runs fail. -/
theorem retries_bounded_buried : ∃ (trace : Trace) (s : State),
    s.runs = 2 ∧ s.copies.length = 1 ∧ trace.length ≤ 8 ∧
      ∃ copy ∈ s.copies, copy.AtHome (newTopology .standard) .upload := by
  obtain ⟨trace,s,path,faultless,met,-⟩ := exists_path (step (newTopology .standard) 1)
    (fun _ a => a.event.faultless = true)
    (initial (newTopology .standard).queueProcess (publishing ⟨none,none,none⟩ [] []))
    [⟨0,.deliver⟩,⟨0,.handled (.error refusal)⟩,⟨0,.settled true⟩,⟨0,.expire⟩,⟨0,.deliver⟩,
      ⟨0,.handled (.error refusal)⟩,⟨0,.published (.ok ()) true⟩,⟨0,.settled true⟩]
    (fun s => s.runs == 2 && s.copies.length == 1 && !s.succeeded) (by decide +kernel)
  simp only [Bool.and_eq_true,beq_iff_eq,Bool.not_eq_true'] at met
  obtain ⟨⟨runs,copies⟩,failed⟩ := met
  obtain ⟨somewhere,-,bounded⟩ := retries_bounded (t := newTopology .standard) (by decide) (by decide)
    .upload ⟨none,none,none⟩ [] [] path
  have one : limit 1 = 1 := by decide
  have short := (bounded faultless).2.1
  rw [one] at short
  exact ⟨trace,s,runs,copies,short,somewhere failed⟩

end GophProfile.RabbitMQ

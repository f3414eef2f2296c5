import GophProfile.Retries

/-! The trace context on its way through the broker: what a delivery has to do with the span
that published its message, however often it is tried again. -/
namespace GophProfile.RabbitMQ

open Effect Transition

/-- `headerCarrier.Get` -/
def carrierGet (headers : Headers) (key : GoString) : GoString :=
  match List.lookup key headers with
  | some (.str text) => text
  | _ => []

def nonempty (text : GoString) : Option GoString := if text = [] then none else some text

/-- What the propagators read from the headers of a delivery. -/
def extracted (headers : Headers) : TraceContext where
  traceparent := nonempty (carrierGet headers (lit "traceparent"))
  tracestate := nonempty (carrierGet headers (lit "tracestate"))
  baggage := nonempty (carrierGet headers (lit "baggage"))

/-- No field is written without a text. -/
def TraceContext.Written (ctx : TraceContext) : Prop :=
  ctx.traceparent ≠ some [] ∧ ctx.tracestate ≠ some [] ∧ ctx.baggage ≠ some []

/-- The propagators that `SetupTracing` installs: a context without a valid span writes
nothing that is read as one. -/
structure Propagator where
  Span : Type
  inject : Option Span → TraceContext
  extract : TraceContext → Option Span
  written : ∀ span, (inject span).Written
  extract_inject : ∀ span, extract (inject span) = span

structure ConsumeSpan (Span : Type) where
  name : GoString
  messageID : GoString
  attempt : Int64
  parent : Option Span
  links : List Span

variable (g : Propagator)

/-- The first delivery continues the trace of the publication; a later one begins its own
and only refers to it. -/
def startConsumeSpan (queue : GoString) (d : Message) : ConsumeSpan g.Span :=
  let attempt := deathCount d.headers + 1
  let root : ConsumeSpan g.Span := ⟨lit "consume " ++ queue,d.messageID,attempt,none,[]⟩
  match g.extract (extracted d.headers) with
  | none => root
  | some origin => if attempt = 1 then { root with parent := some origin } else { root with links := [origin] }

/-- The span of the handling that ends with a step. -/
def spanOf (entry : State × Action × State) : Option (ConsumeSpan g.Span) :=
  match entry.2.1.event, entry.1.copies[entry.2.1.copy]? with
  | .handled _, some (.held queue message _) => some (startConsumeSpan g queue message)
  | _, _ => none

/-- The span of a message that has been tried so many times before. -/
def spanAt {Span : Type} (queue messageID : GoString) (origin : Option Span) (n : Nat) : ConsumeSpan Span where
  name := lit "consume " ++ queue
  messageID := messageID
  attempt := .ofNat (n + 1)
  parent := if n = 0 then origin else none
  links := if n = 0 then [] else origin.toList

/-! ### The headers -/

theorem lookup_withDeath {key : GoString} (other : key ≠ headerDeath) (queue reason : GoString) (headers : Headers) :
    List.lookup key (withDeath queue reason headers) = List.lookup key headers := by
  have beside : (key == headerDeath) = false := by simpa using other
  rw [withDeath,List.lookup_cons,beside]
  show List.lookup key (headers.filter fun field => field.1 ≠ headerDeath) = _
  induction headers with
  | nil => rfl
  | cons field headers ih =>
    by_cases dead : field.1 = headerDeath
    · rw [List.filter_cons_of_neg (by simpa using dead),ih,List.lookup_cons,dead,beside]
    · rw [List.filter_cons_of_pos (by simpa using dead),List.lookup_cons,List.lookup_cons,ih]

theorem extracted_withDeath (queue reason : GoString) (headers : Headers) :
    extracted (withDeath queue reason headers) = extracted headers := by
  have kept (key : GoString) (other : key ≠ headerDeath) :
      carrierGet (withDeath queue reason headers) key = carrierGet headers key := by
    rw [carrierGet,lookup_withDeath other,carrierGet]
  rw [extracted,kept _ (by decide),kept _ (by decide),kept _ (by decide),extracted]

/-- What `publish` writes is read again. -/
theorem extracted_publishing {ctx : TraceContext} (written : ctx.Written) (messageID body : GoString) :
    extracted (publishing ctx messageID body).headers = ctx := by
  obtain ⟨traceparent,tracestate,baggage⟩ := ctx
  obtain ⟨first,second,third⟩ := written
  have read {field : Option GoString} (filled : field ≠ some []) : nonempty (field.getD []) = field := by
    cases field with
    | none => rfl
    | some text => exact if_neg fun empty => filled (congrArg some empty)
  have whole : extracted (publishing ⟨traceparent,tracestate,baggage⟩ messageID body).headers =
      ⟨nonempty (traceparent.getD []),nonempty (tracestate.getD []),nonempty (baggage.getD [])⟩ := by
    cases traceparent <;> cases tracestate <;> cases baggage <;> rfl
  rw [whole,read first,read second,read third]

/-! ### The copies of a message -/

/-- A copy is the message with the deaths that the broker has counted. -/
structure Copy.Of (t : Topology) (k : Kind) (origin : Message) (copy : Copy) : Prop where
  messageID : copy.message.messageID = origin.messageID
  contentType : copy.message.contentType = origin.contentType
  body : copy.message.body = origin.body
  persistent : copy.message.persistent = true
  extracted : RabbitMQ.extracted copy.message.headers = RabbitMQ.extracted origin.headers
  rounds : ∃ n, Rounds t k n (deathsOf copy.message.headers) ∧ (copy.queue = (t.pair k).retry → 0 < n)

variable {g : Propagator} {t : Topology} {maxRetries : Int64} {k : Kind} {origin : Message}

theorem Topology.work_ne (distinct : t.Distinct) : (t.pair k).work ≠ (t.pair k).retry := by
  intro same
  have consumed : (t.pair k).work = t.queueProcess ∨ (t.pair k).work = t.queueDelete := by
    cases k
    · exact .inl rfl
    · exact .inr rfl
  rw [same] at consumed
  exact t.retry_ne distinct consumed

/-- The same message in another place. -/
theorem Copy.Of.moved {copy : Copy} (of : copy.Of t k origin) (new : Copy) (message : new.message = copy.message)
    (queue : new.queue = (t.pair k).retry → copy.queue = (t.pair k).retry) : new.Of t k origin := by
  obtain ⟨messageID,contentType,body,persistent,same,n,rounds,positive⟩ := of
  rw [← message] at messageID contentType body persistent same rounds
  exact ⟨messageID,contentType,body,persistent,same,n,rounds,fun there => positive (queue there)⟩

theorem Copy.Of.rejected {queue : GoString} {message : Message} {rest : Steps}
    (of : (Copy.held queue message rest).Of t k origin) : (Copy.queued (t.pair k).retry
      { message with headers := withDeath (t.pair k).work deathReasonRejected message.headers }).Of t k origin := by
  obtain ⟨messageID,contentType,body,persistent,same,n,rounds,-⟩ := of
  exact ⟨messageID,contentType,body,persistent,(extracted_withDeath _ _ _).trans same,n + 1,rounds.rejected,
    fun _ => Nat.succ_pos n⟩

theorem Copy.Of.expired (distinct : t.Distinct) {message : Message}
    (of : (Copy.queued (t.pair k).retry message).Of t k origin) : (Copy.queued (t.pair k).work
      { message with headers := withDeath (t.pair k).retry deathReasonExpired message.headers }).Of t k origin := by
  obtain ⟨messageID,contentType,body,persistent,same,n,rounds,positive⟩ := of
  refine ⟨messageID,contentType,body,persistent,(extracted_withDeath _ _ _).trans same,n,rounds.expired (positive rfl),
    fun there => absurd there (Topology.work_ne distinct)⟩

theorem reacts_of (distinct : t.Distinct) {copy : Copy} {event : Event} {r : Reaction}
    (placed : copy.Placed t maxRetries k) (of : copy.Of t k origin)
    (reaction : react t maxRetries copy event = some r) : ∀ new ∈ r.copies, new.Of t k origin := by
  have dead := t.dead_ne (k := k) distinct
  cases copy with
  | queued queue message =>
    cases event <;> simp only [react,reduceCtorEq] at reaction
    case deliver =>
      split at reaction
      · cases reaction
        simpa using of.moved (.held queue message _) rfl id
      · contradiction
    case expire =>
      split at reaction
      · next expires =>
        cases reaction
        have here : queue = (t.pair k).retry := by
          rcases placed with rfl | retry | rfl
          · rw [t.argumentsOf_work k distinct] at expires
            contradiction
          · exact retry
          · rw [(t.argumentsOf_eq distinct).2.2.2.2] at expires
            contradiction
        subst here
        simpa [deadLettered_retry distinct] using of.expired distinct
      · contradiction
  | held queue message rest =>
    obtain ⟨rfl,point⟩ := placed
    have stays (rest' : Steps) : (Copy.held (t.pair k).work message rest').Of t k origin := of.moved _ rfl id
    have back : (Copy.queued (t.pair k).work message).Of t k origin := of.moved _ rfl id
    cases point with
    | start =>
      rw [handleDelivery_eq] at reaction
      cases event <;> simp only [react,reduceCtorEq] at reaction
      cases reaction
      simpa using stays _
    | bury =>
      rw [toDeadLetter_eq] at reaction
      cases event <;> simp only [react,reduceCtorEq] at reaction
      case published result arrived =>
        have route : t.route (consumer t maxRetries).exchange routingDead = [t.queueDead] := t.route_dead
        have grave : (Copy.queued t.queueDead { message with persistent := true }).Of t k origin := by
          obtain ⟨messageID,contentType,body,-,same,n,rounds,-⟩ := of
          exact ⟨messageID,contentType,body,rfl,same,n,rounds,fun there => absurd there dead.2⟩
        rcases result with err | _ <;> cases arrived
        · cases reaction
          simpa using stays _
        · cases reaction
          simpa [route] using ⟨stays _,grave⟩
        · contradiction
        · cases reaction
          simpa [route] using ⟨stays _,grave⟩
    | acknowledge =>
      rw [acknowledge_eq] at reaction
      cases event <;> simp only [react,reduceCtorEq] at reaction
      case settled arrived =>
        cases reaction
        cases arrived
        · simpa using back
        · simp
    | reject =>
      rw [reject_eq] at reaction
      cases event <;> simp only [react,reduceCtorEq] at reaction
      case settled arrived =>
        cases reaction
        cases arrived with
        | false => simpa using back
        | true => simpa [deadLettered_work distinct] using of.rejected

/-- Whatever fails on the way, every copy is the message that was published. -/
theorem copies_step (distinct : t.Distinct) {s s' : State} {a : Action}
    (kept : Kept t maxRetries k s) (all : ∀ copy ∈ s.copies, copy.Of t k origin)
    (taken : step t maxRetries s a = some s') : ∀ copy ∈ s'.copies, copy.Of t k origin := by
  refine every_step all (fun copy inside r reaction of => ?_) taken
  exact reacts_of distinct (kept.placed copy inside) of reaction

theorem copies_run (distinct : t.Distinct) {trace : Trace} {s : State} (ctx : TraceContext) (messageID body : GoString)
    (path : Path (step t maxRetries) (initial (t.pair k).work (publishing ctx messageID body)) trace s) :
    Kept t maxRetries k s ∧ ∀ copy ∈ s.copies, copy.Of t k (publishing ctx messageID body) := by
  induction path with
  | nil =>
    refine ⟨kept_initial _,fun copy member => ?_⟩
    obtain rfl := List.mem_singleton.mp member
    exact ⟨rfl,rfl,rfl,rfl,rfl,0,rounds_publishing ctx messageID body,fun there => absurd there (Topology.work_ne distinct)⟩
  | snoc _ taken ih => exact ⟨kept_step distinct ih.1 taken,copies_step distinct ih.1 ih.2 taken⟩

/-! ### The spans of a message -/

theorem limit_lt (positive : 1 ≤ maxRetries) : (limit maxRetries : Int) = maxRetries.toInt := by
  have low : 1 ≤ maxRetries.toInt := by simpa [Int64.le_iff_toInt_le] using positive
  unfold limit
  omega

/-- A message rejected so many times is tried for the next time. -/
theorem startConsumeSpan_eq {n : Nat} {m : Message} (positive : 1 ≤ maxRetries) (within : n ≤ limit maxRetries)
    (rounds : Rounds t k n (deathsOf m.headers)) (queue : GoString) :
    startConsumeSpan g queue m = spanAt queue m.messageID (g.extract (extracted m.headers)) n := by
  have next : (Int64.ofNat n + 1 : Int64) = .ofNat (n + 1) := by simp
  have first : Int64.ofNat n = 0 ↔ n = 0 := by
    have small := maxRetries.toInt_lt
    have whole := limit_lt positive
    constructor
    · intro zero
      have values := congrArg Int64.toInt zero
      rw [Int64.toInt_ofNat_of_lt (by omega)] at values
      have none : (0 : Int64).toInt = 0 := by decide
      omega
    · rintro rfl
      rfl
  rw [startConsumeSpan,rounds.deathCount,next]
  cases found : g.extract (extracted m.headers) with
  | none => simp [spanAt]
  | some origin =>
    by_cases fresh : n = 0
    · simp [spanAt,fresh]
    · simp [spanAt,fresh,first]

/-- What is handled in a run without faults has been rejected as often as it was handled. -/
theorem phase_handle {rank : Nat} {s : State} (phase : Phase t maxRetries k rank s) {queue body : GoString}
    {m : Message} {next : Except Err Unit → Steps} (member : Copy.held queue m (.call (.handle body) next) ∈ s.copies) :
    queue = (t.pair k).work ∧ s.runs ≤ limit maxRetries ∧ Rounds t k s.runs (deathsOf m.headers) := by
  cases phase with
  | handling within rounds =>
    cases List.mem_singleton.mp member
    exact ⟨rfl,within,rounds⟩
  | waiting | resting | dead => cases List.mem_singleton.mp member
  | rejecting => simp [reject_eq] at member
  | burying => simp [toDeadLetter_eq] at member
  | buried => simp [acknowledge_eq] at member
  | done => simp [acknowledge_eq] at member
  | spent => contradiction

theorem react_ran {copy : Copy} {event : Event} {r : Reaction} (reaction : react t maxRetries copy event = some r) :
    (∃ result queue m body next, event = .handled result ∧ copy = .held queue m (.call (.handle body) next) ∧
      r.ran.isSome = true) ∨ ((∀ result, event ≠ .handled result) ∧ r.ran = none) := by
  unfold react at reaction
  split at reaction
  · split at reaction
    · cases reaction
      exact .inr ⟨by simp,rfl⟩
    · contradiction
  · split at reaction
    · cases reaction
      exact .inr ⟨by simp,rfl⟩
    · contradiction
  · cases reaction
    exact .inl ⟨_,_,_,_,_,rfl,rfl,rfl⟩
  · cases reaction
    exact .inr ⟨by simp,rfl⟩
  · cases reaction
    exact .inr ⟨by simp,rfl⟩
  · split at reaction
    · contradiction
    · cases reaction
      exact .inr ⟨by simp,rfl⟩
  · contradiction

/-- A step of a run without faults ends the next handling, or none. -/
theorem span_step (positive : 1 ≤ maxRetries) {rank : Nat} {s s' : State} {a : Action}
    (phase : Phase t maxRetries k rank s) (all : ∀ copy ∈ s.copies, copy.Of t k origin)
    (taken : step t maxRetries s a = some s') :
    (s'.runs = s.runs + 1 ∧ spanOf g (s,a,s') = some (spanAt (t.pair k).work origin.messageID
      (g.extract (extracted origin.headers)) s.runs)) ∨ (s'.runs = s.runs ∧ spanOf g (s,a,s') = none) := by
  unfold step at taken
  split at taken
  · contradiction
  · next copy found =>
    obtain ⟨r,reaction,rfl⟩ := Option.map_eq_some_iff.mp taken
    rcases react_ran reaction with ⟨result,queue,m,body,next,event,rfl,ran⟩ | ⟨other,ran⟩
    · have inside := List.mem_of_getElem? found
      obtain ⟨rfl,within,rounds⟩ := phase_handle phase inside
      obtain ⟨messageID,-,-,-,same,-⟩ := all _ inside
      have messageID : m.messageID = origin.messageID := messageID
      have same : extracted m.headers = extracted origin.headers := same
      refine .inl ⟨by simp [State.after,ran],?_⟩
      rw [← messageID,← same,← startConsumeSpan_eq positive within rounds]
      simp [spanOf,event,found]
    · refine .inr ⟨by simp [State.after,ran],?_⟩
      unfold spanOf
      split
      · next result _ _ _ event _ => exact absurd event (other result)
      · rfl

/-- The trace of a message. However much fails on the way, every copy of it carries the span
that published it, and a delivery is a child of that span until the first rejection, and
refers to it from then on. Without faults the handlings are counted one by one, and only the
first continues the trace. -/
theorem traces_follow (g : Propagator) (distinct : t.Distinct) (positive : 1 ≤ maxRetries) (k : Kind)
    (span : Option g.Span) (messageID body : GoString) {trace : Trace} {s : State}
    (path : Path (step t maxRetries) (initial (t.pair k).work (publishing (g.inject span) messageID body)) trace s) :
    (∀ copy ∈ s.copies, copy.message.messageID = messageID ∧ copy.message.body = body ∧
      extracted copy.message.headers = g.inject span ∧ ∀ queue,
        (startConsumeSpan g queue copy.message).attempt = deathCount copy.message.headers + 1 ∧
        (startConsumeSpan g queue copy.message).parent = (if deathCount copy.message.headers = 0 then span else none) ∧
        (startConsumeSpan g queue copy.message).links =
          (if deathCount copy.message.headers = 0 then [] else span.toList)) ∧
    ((∀ entry ∈ trace, entry.2.1.event.faultless = true) →
      trace.filterMap (spanOf g) = (List.range s.runs).map (spanAt (t.pair k).work messageID span)) := by
  have readable := extracted_publishing (g.written span) messageID body
  refine ⟨fun copy member => ?_,fun faultless => ?_⟩
  · obtain ⟨id,-,same,-,carried,-⟩ := (copies_run distinct _ messageID body path).2 copy member
    have carried := carried.trans readable
    refine ⟨id,same,carried,fun queue => ?_⟩
    rw [startConsumeSpan,carried,g.extract_inject]
    cases span with
    | none => simp
    | some origin =>
      by_cases fresh : deathCount copy.message.headers = 0
      · simp [fresh]
      · simp [fresh]
  · induction path with
    | nil => rfl
    | @snoc trace s s' a before taken ih =>
      have earlier : ∀ entry ∈ trace, entry.2.1.event.faultless = true := fun entry member =>
        faultless entry (List.mem_append_left _ member)
      obtain ⟨rank,-,phase⟩ := phase_path distinct positive
        (.waiting (Nat.zero_le _) (rounds_publishing _ messageID body)) before earlier
      have all := (copies_run distinct _ messageID body before).2
      rw [List.filterMap_append,ih earlier]
      rcases span_step (g := g) positive phase all taken with ⟨runs,handled⟩ | ⟨runs,none⟩
      · rw [readable,g.extract_inject] at handled
        rw [runs,List.range_succ,List.map_append]
        simp [handled]
        rfl
      · rw [runs]
        simp [none]

/-! ### A message that is tried twice -/

def hexes (width : Nat) (text : GoString) : Bool :=
  text.length == width && text.all fun b => (48 ≤ b && b ≤ 57) || (97 ≤ b && b ≤ 102)

/-- A `traceparent` of version 0 whose ids are not all zeros. -/
def isTraceparent (text : GoString) : Bool :=
  match text.splitOn 45 with
  | [version,traceID,spanID,flags] =>
    version == lit "00" && hexes 32 traceID && hexes 16 spanID && hexes 2 flags &&
      traceID.any (· ≠ 48) && spanID.any (· ≠ 48)
  | _ => false

/-- A span context as it is written. -/
def w3c : Propagator where
  Span := { text : GoString // isTraceparent text = true }
  inject span := ⟨span.map Subtype.val,none,none⟩
  extract ctx := ctx.traceparent.bind fun text => if valid : isTraceparent text = true then some ⟨text,valid⟩ else none
  written := by
    intro span
    refine ⟨?_,by simp,by simp⟩
    cases span with
    | none => simp
    | some span =>
      intro empty
      have empty : span.1 = [] := Option.some.inj empty
      have valid := span.2
      rw [empty] at valid
      contradiction
  extract_inject := by
    intro span
    cases span with
    | none => rfl
    | some span => simp [span.2]

def sampleSpan : w3c.Span := ⟨lit "00-0af7651916cd43dd8448eb211c80319c-b7ad6b7169203331-01",by decide⟩

def sampleTries : List Action :=
  [⟨0,.deliver⟩,⟨0,.handled (.error .unavailable)⟩,⟨0,.settled true⟩,⟨0,.expire⟩,⟨0,.deliver⟩,⟨0,.handled (.ok ())⟩,
    ⟨0,.settled true⟩]

theorem traces_follow_retry : ∃ trace s, Path (step (newTopology .standard) 3)
    (initial ((newTopology .standard).pair .upload).work
      (publishing (w3c.inject (some sampleSpan)) (lit "id") (lit "body"))) trace s ∧ s.runs = 2 ∧
    trace.filterMap (spanOf w3c) = [spanAt ((newTopology .standard).pair .upload).work (lit "id") (some sampleSpan) 0,
      spanAt ((newTopology .standard).pair .upload).work (lit "id") (some sampleSpan) 1] := by
  have distinct : (newTopology .standard).Distinct := by decide
  obtain ⟨trace,s,path,-,met,same⟩ := exists_path (step (newTopology .standard) 3) (fun _ _ => True)
    (initial ((newTopology .standard).pair .upload).work (publishing (w3c.inject (some sampleSpan)) (lit "id") (lit "body")))
    sampleTries (fun s => s.runs == 2) (by decide +kernel)
  have faultless : ∀ entry ∈ trace, entry.2.1.event.faultless = true := by
    intro entry member
    have action : entry.2.1 ∈ sampleTries := same ▸ List.mem_map_of_mem member
    have all : sampleTries.all (fun a => a.event.faultless) = true := by decide
    exact List.all_eq_true.mp all _ action
  have runs : s.runs = 2 := by simpa using met
  have spans := (traces_follow w3c distinct (by decide) .upload (some sampleSpan) (lit "id") (lit "body") path).2 faultless
  rw [runs] at spans
  exact ⟨trace,s,path,runs,spans⟩

end GophProfile.RabbitMQ

import GophProfile.Middleware

/-! What becomes of the requests: one of them, as its handler goes, and any number of them
at a time, over one set of metrics and one log. -/
namespace GophProfile.Middleware

open Effect

variable {C : Type} {A : C → Type} {writer : WrapResponseWriter A}

/-! ### What is picked out of the calls -/

def ownOf : (c : Call C) × c.Answer A → Option ((c : C) × A c)
  | ⟨.handler (.own c),answer⟩ => some ⟨c,answer⟩
  | _ => none

def countedOf : (c : Call C) × c.Answer A → Option (GoString × GoString × Nat)
  | ⟨.requestsInc method route status,_⟩ => some (method,route,status)
  | _ => none

def observedOf : (c : Call C) × c.Answer A → Option (GoString × GoString × Nat)
  | ⟨.durationObserve method route elapsed,_⟩ => some (method,route,elapsed)
  | _ => none

def lineOf : (c : Call C) × c.Answer A → Option Line
  | ⟨.log line,_⟩ => some line
  | _ => none

def clockOf : (c : Call C) × c.Answer A → Option Nat
  | ⟨.now,time⟩ => some time
  | _ => none

/-- A handler's own calls. -/
def saidOwn : (a : Act C) × a.Answer A → Option ((c : C) × A c)
  | ⟨.own c,answer⟩ => some ⟨c,answer⟩
  | _ => none

/-- What is picked is no status. -/
def Blind {β : Type} (pick : (c : Call C) × c.Answer A → Option β) : Prop :=
  ∀ code answer, pick ⟨.handler (.writeHeader code),answer⟩ = none

theorem blind_own : Blind (ownOf : (c : Call C) × c.Answer A → _) := fun _ _ => rfl
theorem blind_counted : Blind (countedOf : (c : Call C) × c.Answer A → _) := fun _ _ => rfl
theorem blind_observed : Blind (observedOf : (c : Call C) × c.Answer A → _) := fun _ _ => rfl
theorem blind_line : Blind (lineOf : (c : Call C) × c.Answer A → _) := fun _ _ => rfl
theorem blind_clock : Blind (clockOf : (c : Call C) × c.Answer A → _) := fun _ _ => rfl

theorem filterMap_others {β : Type} {pick : (c : Call C) × c.Answer A → Option β} (blind : Blind pick)
    (calls : Calls (Call C) (Call.Answer A)) :
    (calls.filter fun c => !isStatus c.1).filterMap pick = calls.filterMap pick := by
  induction calls with
  | nil => rfl
  | cons c calls ih =>
    obtain ⟨c,answer⟩ := c
    cases status : isStatus c with
    | false => simp [status,List.filterMap_cons,ih]
    | true =>
      rcases call_shape c with ⟨code,rfl⟩ | ⟨body,rfl⟩ | ⟨_,quiet⟩
      · simp [blind code answer,ih]
      · contradiction
      · rw [quiet] at status
        contradiction

theorem Alike.picked {β : Type} {begun : Bool} {calls inner : Calls (Call C) (Call.Answer A)}
    (alike : Alike begun calls inner) {pick : (c : Call C) × c.Answer A → Option β} (blind : Blind pick) :
    calls.filterMap pick = inner.filterMap pick := by
  rw [← filterMap_others blind,alike.others,filterMap_others blind]

/-! ### Each middleware -/

def lift (a : (a : Act C) × a.Answer A) : (c : Call C) × c.Answer A := ⟨.handler a.1,a.2⟩

theorem made_serve {handler : Handler C A} {calls : Calls (Call C) (Call.Answer A)} {exit : Exit}
    (made : Made (serve handler) calls (.done exit)) :
    ∃ said, Made handler said (.done exit) ∧ calls = said.map lift := by
  induction handler generalizing calls with
  | done value =>
    obtain ⟨rfl,same⟩ := Made.done made
    cases same
    exact ⟨[],.none _,rfl⟩
  | call a next ih =>
    rw [serve] at made
    obtain ⟨answer,rest,left,rfl⟩ := made.request
    obtain ⟨said,ran,rfl⟩ := ih answer left
    exact ⟨_,.call ran,rfl⟩

def secured : Calls (Call C) (Call.Answer A) :=
  securityHeaderValues.map fun header => ⟨.handler (.setHeader header.1 (some header.2)),()⟩

theorem made_securityHeaders {next : Program A Exit} {calls : Calls (Call C) (Call.Answer A)} {exit : Exit}
    (made : Made (securityHeaders next) calls (.done exit)) :
    ∃ inner, Made next inner (.done exit) ∧ calls = secured ++ inner := by
  simp only [securityHeaders,ask,request_bind] at made
  obtain ⟨_,_,first,rfl⟩ := made.request
  obtain ⟨_,_,second,rfl⟩ := first.request
  obtain ⟨_,inner,third,rfl⟩ := second.request
  exact ⟨inner,third,rfl⟩

/-- What `metrics` calls once the handler is through. -/
def settled (r : Request) (status started ended : Nat) : Exit → Calls (Call C) (Call.Answer A)
  | .returned => [⟨.requestsInc r.method (routeLabel r) status,()⟩,⟨.now,ended⟩,
      ⟨.durationObserve r.method (routeLabel r) (ended - started),()⟩,⟨.inFlightDec,()⟩]
  | .panicked _ => [⟨.inFlightDec,()⟩]

theorem made_metrics {r : Request} {next : Program A Exit} {calls : Calls (Call C) (Call.Answer A)} {exit : Exit}
    (made : Made (metrics writer r next) calls (.done exit)) :
    ∃ started ended outer inner, Made next inner (.done exit) ∧ Alike false outer inner ∧
      calls = ⟨.now,started⟩ :: ⟨.inFlightInc,()⟩ :: outer ++
        settled r (Wrapped.new.after inner).status started ended exit := by
  simp only [metrics,ask,request_bind] at made
  obtain ⟨started,_,counting,rfl⟩ := made.request
  obtain ⟨_,_,wrapping,rfl⟩ := counting.request
  obtain ⟨⟨left,ww⟩,outer,last,wrapped,ending,rfl⟩ := wrapping.bind
  obtain ⟨inner,ran,rfl,alike⟩ := writer.through wrapped
  cases left with
  | returned =>
    obtain ⟨_,_,first,rfl⟩ := ending.request
    obtain ⟨ended,_,second,rfl⟩ := first.request
    obtain ⟨_,_,third,rfl⟩ := second.request
    obtain ⟨_,_,fourth,rfl⟩ := third.request
    obtain ⟨rfl,same⟩ := fourth.done
    cases same
    exact ⟨started,ended,outer,inner,ran,alike,rfl⟩
  | panicked p =>
    obtain ⟨_,_,first,rfl⟩ := ending.request
    obtain ⟨rfl,same⟩ := first.done
    cases same
    exact ⟨started,0,outer,inner,ran,alike,rfl⟩

theorem made_requestLogger {r : Request} {next : Program A Exit} {calls : Calls (Call C) (Call.Answer A)}
    {exit : Exit} (made : Made (requestLogger writer r next) calls (.done exit)) :
    ∃ started ended outer inner, Made next inner (.done exit) ∧ Alike false outer inner ∧
      calls = ⟨.now,started⟩ :: outer ++ [⟨.now,ended⟩,⟨.log (.served r.method r.path
        (Wrapped.new.after inner).status (Wrapped.new.after inner).bytesWritten
        ((ended - started) / millisecond) r.requestID r.remoteAddr),()⟩] := by
  simp only [requestLogger,ask,request_bind] at made
  obtain ⟨started,_,wrapping,rfl⟩ := made.request
  obtain ⟨⟨left,ww⟩,outer,last,wrapped,ending,rfl⟩ := wrapping.bind
  obtain ⟨inner,ran,rfl,alike⟩ := writer.through wrapped
  obtain ⟨ended,_,first,rfl⟩ := ending.request
  obtain ⟨_,_,second,rfl⟩ := first.request
  obtain ⟨rfl,same⟩ := second.done
  cases same
  exact ⟨started,ended,outer,inner,ran,alike,rfl⟩

/-- What `recoverer` calls for a panic: `n` is how much of the error body is taken. -/
def recovered (r : Request) (n : Fin (internalError.length + 1)) : Exit → Calls (Call C) (Call.Answer A)
  | .panicked (.value text) => ⟨.log (.panicked text r.method r.path r.requestID),()⟩ ::
      ⟨.handler (.setHeader (lit "Content-Type") (some (lit "application/json; charset=utf-8"))),()⟩ ::
      ⟨.handler (.writeHeader 500),()⟩ :: ⟨.handler (.write internalError),n⟩ ::
      if n.val ≠ internalError.length then [⟨.log .unwritten,()⟩] else []
  | _ => []

/-- What is left of a panic above `recoverer`. -/
def Exit.recovered : Exit → Exit
  | .panicked .abort => .panicked .abort
  | _ => .returned

theorem made_recoverer {r : Request} {next : Program A Exit} {calls : Calls (Call C) (Call.Answer A)} {exit : Exit}
    (made : Made (recoverer r next) calls (.done exit)) :
    ∃ n left inner, Made next inner (.done left) ∧ exit = left.recovered ∧ calls = inner ++ recovered r n left := by
  obtain ⟨left,inner,last,ran,ending,rfl⟩ := made.bind
  cases left with
  | returned =>
    obtain ⟨rfl,same⟩ := ending.done
    cases same
    exact ⟨0,_,inner,ran,rfl,rfl⟩
  | panicked p =>
    cases p with
    | abort =>
      obtain ⟨rfl,same⟩ := ending.done
      cases same
      exact ⟨0,_,inner,ran,rfl,rfl⟩
    | value text =>
      simp only [ask,writeJSON,request_bind,call_bind] at ending
      obtain ⟨_,_,first,rfl⟩ := ending.request
      obtain ⟨_,_,second,rfl⟩ := first.request
      obtain ⟨_,_,third,rfl⟩ := second.request
      obtain ⟨n,_,fourth,rfl⟩ := third.request
      refine ⟨n,_,inner,ran,?_,?_⟩
      · split at fourth
        · obtain ⟨_,_,fifth,rfl⟩ := fourth.request
          obtain ⟨rfl,same⟩ := fifth.done
          cases same
          rfl
        · obtain ⟨rfl,same⟩ := fourth.done
          cases same
          rfl
      · split at fourth
        · next short =>
          obtain ⟨_,_,fifth,rfl⟩ := fourth.request
          obtain ⟨rfl,same⟩ := fifth.done
          rw [recovered,if_pos short]
        · next whole =>
          obtain ⟨rfl,same⟩ := fourth.done
          rw [recovered,if_neg whole]

/-- What `traceRoute` calls is about the span only. -/
def isSpan : Call C → Bool
  | .isRecording | .setName _ | .setAttributes _ => true
  | _ => false

theorem made_traceRoute {r : Request} {next : Program A Exit} {calls : Calls (Call C) (Call.Answer A)} {exit : Exit}
    (made : Made (traceRoute r next) calls (.done exit)) :
    ∃ inner last, Made next inner (.done exit) ∧ calls = inner ++ last ∧ ∀ c ∈ last, isSpan c.1 = true := by
  obtain ⟨left,inner,last,ran,ending,rfl⟩ := made.bind
  cases left with
  | panicked p =>
    obtain ⟨rfl,same⟩ := ending.done
    cases same
    exact ⟨inner,[],ran,rfl,by simp⟩
  | returned =>
    simp only [ask,request_bind] at ending
    split at ending
    · obtain ⟨rfl,same⟩ := ending.done
      cases same
      exact ⟨inner,[],ran,rfl,by simp⟩
    · obtain ⟨recording,_,first,rfl⟩ := ending.request
      split at first
      · obtain ⟨_,_,second,rfl⟩ := first.request
        obtain ⟨_,_,third,rfl⟩ := second.request
        obtain ⟨rfl,same⟩ := third.done
        cases same
        exact ⟨inner,_,ran,rfl,by simp [isSpan]⟩
      · obtain ⟨rfl,same⟩ := first.done
        cases same
        exact ⟨inner,_,ran,rfl,by simp [isSpan]⟩

/-! ### One request -/

/-- How a handler went: what it did, how it ended, and when. -/
structure Course (C : Type) (A : C → Type) where
  said : Calls (Act C) (Act.Answer A)
  exit : Exit
  /-- When the logger began and when it ended. -/
  begun : Nat
  ended : Nat
  /-- When the metrics began and when they ended, which they do for a handler that returns. -/
  started : Nat
  stopped : Nat
  /-- How much of the error body is taken, should it be sent. -/
  taken : Fin (internalError.length + 1)

namespace Course

variable (course : Course C A)

/-- What the handler has written: 0 stands for no status. -/
def written : Wrapped := Wrapped.new.after (course.said.map lift)

/-- The labels that the request is counted under. -/
def labels (r : Request) : Option (GoString × GoString × Nat) :=
  if course.exit = .returned then some (r.method,routeLabel r,course.written.status) else none

/-- The time it took, by the metrics. -/
def elapsed : Nat := course.stopped - course.started

/-- The time it took, by the log. -/
def durationMS : Nat := (course.ended - course.begun) / millisecond

/-- What the clock has answered. -/
def clock : List Nat :=
  if course.exit = .returned then [course.begun,course.started,course.stopped,course.ended]
  else [course.begun,course.started,course.ended]

def served (r : Request) : Line :=
  .served r.method r.path course.written.status course.written.bytesWritten course.durationMS r.requestID r.remoteAddr

/-- What is logged of a panic. -/
def panicLines (r : Request) : List Line :=
  match course.exit with
  | .panicked (.value text) => .panicked text r.method r.path r.requestID ::
      if course.taken.val ≠ internalError.length then [.unwritten] else []
  | _ => []

/-- The answer when the handler is left: what the handler has told, over the headers that
every answer carries. -/
def answer : Conn := (Conn.fresh.after (secured : Calls (Call C) (Call.Answer A))).told course.said

/-- The answer to the client. -/
def reply : Conn :=
  match course.exit with
  | .panicked (.value _) => ((course.answer.setHeader (lit "Content-Type")
      (some (lit "application/json; charset=utf-8"))).writeHeader 500).write (internalError.take course.taken)
  | _ => course.answer

end Course

/-- The calls made for a request are those that its course asks for. -/
structure Report (r : Request) (course : Course C A) (calls : Calls (Call C) (Call.Answer A)) : Prop where
  own : calls.filterMap ownOf = course.said.filterMap saidOwn
  counted : calls.filterMap countedOf = (course.labels r).toList
  observed : calls.filterMap observedOf = (course.labels r).toList.map fun l => (l.1,l.2.1,course.elapsed)
  lines : calls.filterMap lineOf = course.served r :: course.panicLines r
  clock : calls.filterMap clockOf = course.clock
  reply : Conn.fresh.after calls = course.reply

theorem after_append (conn : Conn) (first second : Calls (Call C) (Call.Answer A)) :
    conn.after (first ++ second) = (conn.after first).after second := List.foldl_append

theorem after_lift (conn : Conn) (said : Calls (Act C) (Act.Answer A)) :
    conn.after (said.map lift) = conn.told said := by
  rw [Conn.after,Conn.told,List.foldl_map]
  rfl

theorem after_wrapped {outer inner : Calls (Call C) (Call.Answer A)} (alike : Alike false outer inner) :
    Conn.fresh.after outer = Conn.fresh.after inner := alike.seen client Conn.fresh rfl

theorem wrapped_wrapped {outer inner : Calls (Call C) (Call.Answer A)} (alike : Alike false outer inner) :
    Wrapped.new.after outer = Wrapped.new.after inner := alike.seen wrapper Wrapped.new rfl

theorem span_picks {last : Calls (Call C) (Call.Answer A)} (spans : ∀ c ∈ last, isSpan c.1 = true) :
    last.filterMap ownOf = [] ∧ last.filterMap countedOf = [] ∧ last.filterMap observedOf = [] ∧
      last.filterMap lineOf = [] ∧ last.filterMap clockOf = [] ∧ ∀ conn : Conn, conn.after last = conn := by
  induction last with
  | nil => exact ⟨rfl,rfl,rfl,rfl,rfl,fun _ => rfl⟩
  | cons c last ih =>
    obtain ⟨c,answer⟩ := c
    have rest := ih fun c member => spans c (List.mem_cons_of_mem _ member)
    have here := spans _ List.mem_cons_self
    cases c with
    | isRecording | setName | setAttributes => exact rest
    | _ => contradiction

theorem lift_picks (said : Calls (Act C) (Act.Answer A)) :
    (said.map lift).filterMap ownOf = said.filterMap saidOwn ∧ (said.map lift).filterMap countedOf = [] ∧
      (said.map lift).filterMap observedOf = [] ∧ (said.map lift).filterMap lineOf = [] ∧
      (said.map lift).filterMap clockOf = [] := by
  induction said with
  | nil => exact ⟨rfl,rfl,rfl,rfl,rfl⟩
  | cons a said ih =>
    obtain ⟨a,answer⟩ := a
    cases a with
    | own c =>
      refine ⟨?_,ih.2⟩
      have both : ∀ rest rest' : List ((c : C) × A c), rest = rest' →
          (⟨c,answer⟩ :: rest : List ((c : C) × A c)) = ⟨c,answer⟩ :: rest' := fun _ _ same => by rw [same]
      exact both _ _ ih.1
    | setHeader | writeHeader | write => exact ih

theorem secured_written (calls : Calls (Call C) (Call.Answer A)) :
    Wrapped.new.after (secured ++ calls) = Wrapped.new.after calls := rfl

theorem settled_picks (r : Request) (status started ended : Nat) (exit : Exit) :
    (settled r status started ended exit : Calls (Call C) (Call.Answer A)).filterMap ownOf = [] ∧
      (settled r status started ended exit : Calls (Call C) (Call.Answer A)).filterMap lineOf = [] ∧
      (∀ conn : Conn, conn.after (settled r status started ended exit : Calls (Call C) (Call.Answer A)) = conn) ∧
      ∀ ww : Wrapped, ww.after (settled r status started ended exit : Calls (Call C) (Call.Answer A)) = ww := by
  cases exit with
  | returned | panicked => exact ⟨rfl,rfl,fun _ => rfl,fun _ => rfl⟩

theorem settled_counted (r : Request) (status started ended : Nat) (exit : Exit) :
    (settled r status started ended exit : Calls (Call C) (Call.Answer A)).filterMap countedOf =
        (if exit = .returned then some (r.method,routeLabel r,status) else none).toList ∧
      (settled r status started ended exit : Calls (Call C) (Call.Answer A)).filterMap observedOf =
        (if exit = .returned then some (r.method,routeLabel r,ended - started) else none).toList ∧
      (settled r status started ended exit : Calls (Call C) (Call.Answer A)).filterMap clockOf =
        if exit = .returned then [ended] else [] := by
  cases exit with
  | returned => exact ⟨rfl,rfl,rfl⟩
  | panicked p => exact ⟨rfl,rfl,rfl⟩

theorem recovered_picks (r : Request) (n : Fin (internalError.length + 1)) (exit : Exit) :
    (recovered r n exit : Calls (Call C) (Call.Answer A)).filterMap ownOf = [] ∧
      (recovered r n exit : Calls (Call C) (Call.Answer A)).filterMap countedOf = [] ∧
      (recovered r n exit : Calls (Call C) (Call.Answer A)).filterMap observedOf = [] ∧
      (recovered r n exit : Calls (Call C) (Call.Answer A)).filterMap clockOf = [] := by
  cases exit with
  | returned => exact ⟨rfl,rfl,rfl,rfl⟩
  | panicked p =>
    cases p with
    | abort => exact ⟨rfl,rfl,rfl,rfl⟩
    | value text =>
      rw [recovered]
      split <;> exact ⟨rfl,rfl,rfl,rfl⟩

theorem recovered_lines (r : Request) (course : Course C A) :
    (recovered r course.taken course.exit : Calls (Call C) (Call.Answer A)).filterMap lineOf = course.panicLines r := by
  rw [Course.panicLines]
  rcases course.exit with _ | _ | text
  · rfl
  · rfl
  · rw [recovered]
    split <;> rfl

theorem recovered_reply (r : Request) (course : Course C A) :
    course.answer.after (recovered r course.taken course.exit : Calls (Call C) (Call.Answer A)) = course.reply := by
  rw [Course.reply]
  rcases course.exit with _ | _ | text
  · rfl
  · rfl
  · rw [recovered]
    split <;> rfl

/-- Every request that is over went some course. -/
theorem chain_report {r : Request} {handler : Handler C A} {calls : Calls (Call C) (Call.Answer A)} {exit : Exit}
    (made : Made (chain writer r handler) calls (.done exit)) :
    ∃ course : Course C A, Made handler course.said (.done course.exit) ∧ exit = course.exit.recovered ∧
      Report r course calls := by
  obtain ⟨below,spans,tracing,rfl,only⟩ := made_traceRoute made
  obtain ⟨taken,left,logged,recovering,rfl,rfl⟩ := made_recoverer tracing
  obtain ⟨begun,ended,outer,measured,logging,alike,rfl⟩ := made_requestLogger recovering
  obtain ⟨started,stopped,outer',heads,counting,alike',rfl⟩ := made_metrics logging
  obtain ⟨mapped,handling,rfl⟩ := made_securityHeaders counting
  obtain ⟨said,ran,rfl⟩ := made_serve handling
  let course : Course C A := ⟨said,left,begun,ended,started,stopped,taken⟩
  -- the two wrapped writers have counted the same
  have status : Wrapped.new.after (secured ++ said.map lift) = course.written := secured_written _
  rw [status] at alike ⊢
  have both : Wrapped.new.after (⟨.now,started⟩ :: ⟨.inFlightInc,()⟩ :: outer' ++
      settled r course.written.status started stopped left) = course.written := by
    have inner : Wrapped.new.after outer' = course.written := (wrapped_wrapped alike').trans status
    have after : (Wrapped.new.after outer').after
        (settled r course.written.status started stopped left : Calls (Call C) (Call.Answer A)) =
        Wrapped.new.after outer' := (settled_picks r _ _ _ left).2.2.2 _
    rw [← inner] at after ⊢
    exact (List.foldl_append (f := Wrapped.call)).trans after
  rw [both]
  have spanned := span_picks only
  have recovery := recovered_picks (C := C) (A := A) r taken left
  have settling := settled_picks (C := C) (A := A) r course.written.status started stopped left
  have counting' := settled_counted (C := C) (A := A) r course.written.status started stopped left
  have lifted := lift_picks said
  refine ⟨course,ran,rfl,?_,?_,?_,?_,?_,?_⟩
  · simp only [List.filterMap_append,List.filterMap_cons,List.filterMap_nil,ownOf,alike.picked blind_own,
      alike'.picked blind_own,spanned,recovery,settling,lifted,List.append_nil]
    rfl
  · simp only [List.filterMap_append,List.filterMap_cons,List.filterMap_nil,countedOf,alike.picked blind_counted,
      alike'.picked blind_counted,spanned,recovery,counting',lifted,List.append_nil]
    rfl
  · simp only [List.filterMap_append,List.filterMap_cons,List.filterMap_nil,observedOf,alike.picked blind_observed,
      alike'.picked blind_observed,spanned,recovery,counting',lifted,List.append_nil]
    rw [Course.labels]
    split <;> rfl
  · simp only [List.filterMap_append,List.filterMap_cons,List.filterMap_nil,lineOf,alike.picked blind_line,
      alike'.picked blind_line,spanned,settling,lifted,List.append_nil]
    rw [← recovered_lines]
    rfl
  · simp only [List.filterMap_append,List.filterMap_cons,List.filterMap_nil,clockOf,alike.picked blind_clock,
      alike'.picked blind_clock,spanned,recovery,counting',lifted,List.append_nil]
    rw [Course.clock]
    split <;> rfl
  · rw [after_append,spanned.2.2.2.2.2,after_append,← recovered_reply r course]
    have answered : Conn.fresh.after (⟨.now,begun⟩ :: outer ++ [⟨.now,ended⟩,⟨.log (course.served r),()⟩]) =
        course.answer := by
      rw [after_append]
      have wrapped : Conn.fresh.after (⟨.now,begun⟩ :: outer) = course.answer := by
        have inner : Conn.fresh.after outer = _ := after_wrapped alike
        have heads : Conn.fresh.after outer' = _ := after_wrapped alike'
        have whole : Conn.fresh.after (⟨.now,started⟩ :: ⟨.inFlightInc,()⟩ :: outer' ++
            settled r course.written.status started stopped left) = Conn.fresh.after outer' := by
          rw [after_append]
          exact settling.2.2.1 _
        have told : Conn.fresh.after (secured ++ said.map lift) = course.answer := by
          rw [after_append,after_lift]
          rfl
        exact inner.trans (whole.trans (heads.trans told))
      rw [wrapped]
      rfl
    exact congrArg (Conn.after · _) answered

/-! ### Any number of requests -/

/-- The metrics of the server and its log. -/
structure World where
  inFlight : Int
  requests : GoString → GoString → Nat → Nat
  /-- What the histogram has observed, the first of it first. -/
  observed : List (GoString × GoString × Nat)
  lines : List Line

def World.fresh : World := ⟨0,fun _ _ _ => 0,[],[]⟩

def World.record (w : World) : Call C → World
  | .inFlightInc => { w with inFlight := w.inFlight + 1 }
  | .inFlightDec => { w with inFlight := w.inFlight - 1 }
  | .requestsInc method route status =>
    { w with
      requests := fun m r s =>
        if (m,r,s) = (method,route,status) then w.requests m r s + 1 else w.requests m r s }
  | .durationObserve method route elapsed => { w with observed := w.observed ++ [(method,route,elapsed)] }
  | .log line => { w with lines := w.lines ++ [line] }
  | _ => w

/-- A request and the handler that the router finds for it. -/
structure Arrival (C : Type) (A : C → Type) where
  request : Request
  handler : Handler C A

/-- The server: a request may arrive at any time, and the requests take their steps in any order. -/
def server (writer : WrapResponseWriter A) : Machine (Call C) (Call.Answer A) Exit (Program A Exit) World (Arrival C A)
    ((c : Call C) → c.Answer A) Unit where
  view := Prog.view
  start arrival := chain writer arrival.request arrival.handler
  perform c choice w := some (choice c,w.record c)
  environment _ _ := none

/-! ### The gauge -/

/-- Where a request stands with the gauge. -/
inductive Stage where
  | before | inside | after
  deriving DecidableEq

def stage : Stage → Call C → Option Stage
  | .before, .inFlightInc => some .inside
  | .inside, .inFlightDec => some .after
  | _, .inFlightInc => none
  | _, .inFlightDec => none
  | now, _ => some now

def level : Stage → Int
  | .inside => 1
  | _ => 0

def gauge : (c : Call C) × c.Answer A → Int
  | ⟨.inFlightInc,_⟩ => 1
  | ⟨.inFlightDec,_⟩ => -1
  | _ => 0

theorem level_stage {now later : Stage} {c : Call C} (stepped : stage now c = some later) (answer : c.Answer A) :
    level later = level now + gauge ⟨c,answer⟩ := by
  cases c with
  | inFlightInc | inFlightDec =>
    cases now <;> cases stepped
    rfl
  | _ =>
    cases now <;> cases stepped <;> rfl

theorem level_after {now later : Stage} {calls : Calls (Call C) (Call.Answer A)}
    (run : stageAfter stage now calls = some later) : (calls.map gauge).sum = level later - level now := by
  induction calls generalizing now with
  | nil =>
    cases run
    simp
  | cons c calls ih =>
    obtain ⟨middle,stepped,rest⟩ := Option.bind_eq_some_iff.mp run
    have counted : level middle = level now + gauge c := level_stage stepped c.2
    rw [List.map_cons,List.sum_cons,ih rest,counted]
    omega

theorem stage_handler (now : Stage) (a : Act C) : stage now (.handler a) = some now := by cases now <;> rfl

theorem obeys_serve (handler : Handler C A) (now : Stage) :
    Obeys stage (fun later _ => later = now) now (serve handler) := by
  induction handler with
  | done exit => rfl
  | call a next ih => exact ⟨now,stage_handler now a,ih⟩

theorem obeys_metrics (r : Request) {next : Program A Exit}
    (below : Obeys stage (fun later _ => later = .inside) .inside next) :
    Obeys stage (fun later _ => later = .after) .before (metrics writer r next) := by
  simp only [metrics,ask,request_bind]
  refine ⟨.before,rfl,fun started => ⟨.inside,rfl,fun _ => (writer.quiet stage_handler below).bind ?_⟩⟩
  rintro later ⟨exit,ww⟩ rfl
  cases exit with
  | returned => exact ⟨_,rfl,fun _ => ⟨_,rfl,fun _ => ⟨_,rfl,fun _ => ⟨_,rfl,fun _ => rfl⟩⟩⟩⟩
  | panicked p => exact ⟨_,rfl,fun _ => rfl⟩

theorem obeys_requestLogger (r : Request) {next : Program A Exit}
    (below : Obeys stage (fun later _ => later = .after) .before next) :
    Obeys stage (fun later _ => later = .after) .before (requestLogger writer r next) := by
  simp only [requestLogger,ask,request_bind]
  refine ⟨.before,rfl,fun started => (writer.quiet stage_handler below).bind ?_⟩
  rintro later ⟨exit,ww⟩ rfl
  exact ⟨_,rfl,fun _ => ⟨_,rfl,fun _ => rfl⟩⟩

theorem obeys_recoverer (r : Request) {next : Program A Exit}
    (below : Obeys stage (fun later _ => later = .after) .before next) :
    Obeys stage (fun later _ => later = .after) .before (recoverer r next) := by
  refine below.bind ?_
  rintro later exit rfl
  rcases exit with _ | _ | text
  · rfl
  · rfl
  · simp only [ask,writeJSON,request_bind,call_bind]
    refine ⟨_,rfl,fun _ => ⟨_,rfl,fun _ => ⟨_,rfl,fun _ => ⟨_,rfl,fun n => ?_⟩⟩⟩⟩
    beta_reduce
    split
    · exact ⟨_,rfl,fun _ => rfl⟩
    · rfl

theorem obeys_traceRoute (r : Request) {next : Program A Exit}
    (below : Obeys stage (fun later _ => later = .after) .before next) :
    Obeys stage (fun later _ => later = .after) .before (traceRoute r next) := by
  refine below.bind ?_
  rintro later exit rfl
  cases exit with
  | panicked p => rfl
  | returned =>
    simp only [ask,request_bind]
    split
    · rfl
    · refine ⟨_,rfl,fun recording => ?_⟩
      beta_reduce
      split
      · exact ⟨_,rfl,fun _ => ⟨_,rfl,fun _ => rfl⟩⟩
      · rfl

/-- The gauge goes up once for a request and down once, whatever the handler does. -/
theorem obeys_chain (r : Request) (handler : Handler C A) :
    Obeys stage (fun later _ => later = .after) .before (chain writer r handler) := by
  refine obeys_traceRoute r (obeys_recoverer r (obeys_requestLogger r (obeys_metrics r ?_)))
  exact ⟨_,rfl,fun _ => ⟨_,rfl,fun _ => ⟨_,rfl,fun _ => obeys_serve handler .inside⟩⟩⟩

/-- The request is counted in the gauge. -/
def Inside (calls : Calls (Call C) (Call.Answer A)) : Prop := stageAfter stage .before calls = some .inside

instance (calls : Calls (Call C) (Call.Answer A)) : Decidable (Inside calls) :=
  inferInstanceAs (Decidable (_ = _))

theorem gauge_inside {r : Request} {handler : Handler C A} {calls : Calls (Call C) (Call.Answer A)}
    {left : Program A Exit} (made : Made (chain writer r handler) calls left) :
    (calls.map gauge).sum = if Inside calls then 1 else 0 := by
  obtain ⟨later,after,_⟩ := (obeys_chain r handler).made made
  have same : Inside calls ↔ later = .inside := by
    unfold Inside
    rw [after]
    simp
  rw [level_after after]
  simp only [same]
  cases later <;> rfl

theorem outside_done {r : Request} {handler : Handler C A} {calls : Calls (Call C) (Call.Answer A)} {exit : Exit}
    (made : Made (chain writer r handler) calls (.done exit)) : ¬Inside calls := by
  obtain ⟨later,after,rfl⟩ := (obeys_chain r handler).made made
  unfold Inside
  rw [after]
  simp

/-! ### The accounts -/

/-- A request that is over: the slot it was served in, what arrived and the course it went. -/
structure Served (C : Type) (A : C → Type) where
  slot : Nat
  arrival : Arrival C A
  course : Course C A
  ran : Made arrival.handler course.said (.done course.exit)

namespace Served

variable (d : Served C A)

def counted : List (GoString × GoString × Nat) := (d.course.labels d.arrival.request).toList

def observed : List (GoString × GoString × Nat) := d.counted.map fun l => (l.1,l.2.1,d.course.elapsed)

def lines : List Line := d.course.served d.arrival.request :: d.course.panicLines d.arrival.request

end Served

variable {trace : Machine.Trace (Call C) (Call.Answer A) Exit World (Arrival C A) ((c : Call C) → c.Answer A) Unit}
  {s : Pool (Call C) (Call.Answer A) (Program A Exit) World}

theorem keeps_inFlight : Machine.Keeps (server writer) World.inFlight gauge where
  adds c choice w answer w' performed := by
    cases performed
    cases c with
    | inFlightInc => rfl
    | inFlightDec => exact Int.sub_eq_add_neg
    | _ => exact (add_zero _).symm
  rests _ _ _ moved := by contradiction

/-- One for a call that adds this item. -/
def tally {β : Type} [BEq β] (pick : (c : Call C) × c.Answer A → Option β) (item : β)
    (c : (c : Call C) × c.Answer A) : Nat := if pick c == some item then 1 else 0

theorem sum_tally {β : Type} [BEq β] [LawfulBEq β] (pick : (c : Call C) × c.Answer A → Option β) (item : β)
    (calls : Calls (Call C) (Call.Answer A)) :
    (calls.map (tally pick item)).sum = (calls.filterMap pick).count item := by
  induction calls with
  | nil => rfl
  | cons c calls ih =>
    rw [List.map_cons,List.sum_cons,ih,tally]
    cases picked : pick c with
    | none => simp [picked]
    | some other =>
      rw [List.filterMap_cons_some picked,List.count_cons,Option.some_beq_some,Nat.add_comm]

theorem keeps_requests (method route : GoString) (status : Nat) :
    Machine.Keeps (server writer) (fun w => w.requests method route status) (tally countedOf (method,route,status)) where
  adds c choice w answer w' performed := by
    cases performed
    cases c with
    | requestsInc m r st =>
      simp only [World.record,tally,countedOf,Option.some_beq_some,beq_iff_eq]
      by_cases same : (m,r,st) = (method,route,status)
      · rw [if_pos same.symm,if_pos same]
      · rw [if_neg (Ne.symm same),if_neg same]
        rfl
    | _ => exact (add_zero _).symm
  rests _ _ _ moved := by contradiction

theorem keeps_observed (item : GoString × GoString × Nat) :
    Machine.Keeps (server writer) (fun w => w.observed.count item) (tally observedOf item) where
  adds c choice w answer w' performed := by
    cases performed
    cases c with
    | durationObserve m r elapsed => simp [World.record,tally,observedOf,List.count_singleton]
    | _ => exact (add_zero _).symm
  rests _ _ _ moved := by contradiction

theorem keeps_lines (line : Line) :
    Machine.Keeps (server writer) (fun w => w.lines.count line) (tally lineOf line) where
  adds c choice w answer w' performed := by
    cases performed
    cases c with
    | log other => simp [World.record,tally,lineOf,List.count_singleton]
    | _ => exact (add_zero _).symm
  rests _ _ _ moved := by contradiction

/-- The gauge shows how many requests are inside. -/
theorem inFlight_inside (run : Transition.Path (server writer).step (Pool.initial .fresh) trace s)
    (records : Machine.Recorded (server writer) trace s) :
    s.world.inFlight = ((Machine.started trace).countP fun begun => decide (Inside (s.calls begun.1))) := by
  have sum := Machine.balance keeps_inFlight run records
  have each : ∀ begun ∈ Machine.started trace,
      ((s.calls begun.1).map gauge).sum = if Inside (s.calls begun.1) then 1 else 0 := by
    rintro ⟨i,arrival⟩ member
    obtain ⟨p,_,made⟩ := records.running i arrival member
    exact gauge_inside made
  rw [sum,List.map_congr_left each]
  clear each sum records
  generalize Machine.started trace = slots
  induction slots with
  | nil => rfl
  | cons begun slots ih =>
    have zero : World.fresh.inFlight = 0 := by rfl
    rw [zero] at ih ⊢
    rw [List.map_cons,List.sum_cons,List.countP_cons]
    by_cases inside : Inside (s.calls begun.1)
    · simp only [inside,decide_true,if_true]
      omega
    · simp only [inside,decide_false,Bool.false_eq_true,if_false]
      omega

theorem exists_served {slots : List (Nat × Arrival C A)} {calls : Nat → Calls (Call C) (Call.Answer A)}
    (through : ∀ begun ∈ slots, ∃ exit, Made (chain writer begun.2.request begun.2.handler) (calls begun.1) (.done exit)) :
    ∃ served : List (Served C A), served.map (fun d => (d.slot,d.arrival)) = slots ∧
      ∀ d ∈ served, Report d.arrival.request d.course (calls d.slot) := by
  induction slots with
  | nil => exact ⟨[],rfl,by simp⟩
  | cons begun slots ih =>
    obtain ⟨served,arrivals,reports⟩ := ih fun b member => through b (List.mem_cons_of_mem _ member)
    obtain ⟨exit,made⟩ := through begun List.mem_cons_self
    obtain ⟨course,ran,_,report⟩ := chain_report made
    refine ⟨⟨begun.1,begun.2,course,ran⟩ :: served,?_,?_⟩
    · rw [List.map_cons,arrivals]
    · exact List.forall_mem_cons.mpr ⟨report,reports⟩

/-- What the slots have recorded of one kind is what the courses come to. -/
theorem picked_served {β : Type} (pick : (c : Call C) × c.Answer A → Option β)
    {slots : List (Nat × Arrival C A)} {calls : Nat → Calls (Call C) (Call.Answer A)} {served : List (Served C A)}
    (arrivals : served.map (fun d => (d.slot,d.arrival)) = slots) {adds : Served C A → List β}
    (each : ∀ d ∈ served, (calls d.slot).filterMap pick = adds d) :
    (slots.map fun begun => (calls begun.1).filterMap pick) = served.map adds := by
  rw [← arrivals,List.map_map]
  exact List.map_congr_left each

/-- What the requests have added to one account. -/
theorem tallied {β : Type} [BEq β] [LawfulBEq β] {pick : (c : Call C) × c.Answer A → Option β} {item : β}
    {quantity : World → Nat} (keeps : Machine.Keeps (server writer) quantity (tally pick item))
    (run : Transition.Path (server writer).step (Pool.initial .fresh) trace s)
    (records : Machine.Recorded (server writer) trace s) (empty : quantity .fresh = 0) {served : List (Served C A)}
    {adds : Served C A → List β}
    (each : ((Machine.started trace).map fun begun => (s.calls begun.1).filterMap pick) = served.map adds) :
    quantity s.world = (served.flatMap adds).count item := by
  have items : (Machine.started trace).map (fun begun => ((s.calls begun.1).map (tally pick item)).sum) =
      (served.map adds).map (List.count item) := by
    rw [← each,List.map_map]
    exact List.map_congr_left fun begun _ => sum_tally pick item _
  rw [Machine.balance keeps run records,items,empty,Nat.zero_add,List.map_map,List.count_flatMap]

/-- Through every run, however its requests interleave, the gauge shows how many of them are
inside. Once all are over it is at zero, and the metrics and the log hold exactly what the
courses of the requests come to, each course being that of its slot's calls and timed by the
clock's answers: each request has its line in the log; a panic has one more, and yet another
where the error body was not taken whole, but a panic with `http.ErrAbortHandler` has none; and
only a request whose handler has returned is counted and timed. -/
theorem accounts_settle (run : Transition.Path (server writer).step (Pool.initial .fresh) trace s)
    (uncrashed : ∀ entry ∈ trace, ∀ slot, entry.2.1 ≠ .crash slot) :
    s.world.inFlight = ((Machine.started trace).countP fun begun => decide (Inside (s.calls begun.1))) ∧
      ((∀ begun ∈ Machine.started trace, ∃ exit, s.procs begun.1 = some (.done exit)) →
        s.world.inFlight = 0 ∧ ∃ served : List (Served C A),
          served.map (fun d => (d.slot,d.arrival)) = Machine.started trace ∧
          (∀ d ∈ served, Report d.arrival.request d.course (s.calls d.slot)) ∧
          (∀ method route status, s.world.requests method route status =
            (served.flatMap Served.counted).count (method,route,status)) ∧
          s.world.observed.Perm (served.flatMap Served.observed) ∧
          s.world.lines.Perm (served.flatMap Served.lines)) := by
  have records := Machine.recorded rfl run uncrashed
  refine ⟨inFlight_inside run records,fun through => ?_⟩
  have made : ∀ begun ∈ Machine.started trace, ∃ exit,
      Made (chain writer begun.2.request begun.2.handler) (s.calls begun.1) (.done exit) := by
    intro begun member
    obtain ⟨exit,ended⟩ := through begun member
    obtain ⟨p,running,made⟩ := records.running begun.1 begun.2 member
    cases running.symm.trans ended
    exact ⟨exit,made⟩
  refine ⟨?_,?_⟩
  · have none : ((Machine.started trace).countP fun begun => decide (Inside (s.calls begun.1))) = 0 := by
      rw [List.countP_eq_zero]
      intro begun member
      obtain ⟨exit,ended⟩ := made begun member
      simpa using outside_done ended
    rw [inFlight_inside run records,none]
    rfl
  · obtain ⟨served,arrivals,reports⟩ := exists_served made
    have counted := picked_served countedOf arrivals fun d member => (reports d member).counted
    have observed := picked_served observedOf arrivals fun d member => (reports d member).observed
    have lines := picked_served lineOf arrivals fun d member => (reports d member).lines
    refine ⟨served,arrivals,reports,fun method route status => ?_,?_,?_⟩
    · exact tallied (keeps_requests method route status) run records rfl counted
    · exact List.perm_iff_count.mpr fun item => tallied (keeps_observed item) run records rfl observed
    · exact List.perm_iff_count.mpr fun line => tallied (keeps_lines line) run records rfl lines

/-! ### A run -/

abbrev NoAnswer : Unit → Type := fun _ => Unit

/-- A handler that panics before it has written anything, and one that panics within its body. -/
def earlyPanic : Handler Unit NoAnswer := .done (.panicked (.value (lit "nil map")))

def latePanic : Handler Unit NoAnswer :=
  .call (.write (lit "half")) fun _ => .done (.panicked (.value (lit "index")))

def sampleRequest (path : GoString) : Request := ⟨lit "GET",path,lit "r",lit "10.0.0.1",path⟩

/-- Writes are taken whole, the clock stands still, and the spans are recorded. -/
def sampleAnswer : (c : Call Unit) → c.Answer NoAnswer
  | .handler (.own _) => ()
  | .handler (.setHeader _ _) => ()
  | .handler (.writeHeader _) => ()
  | .handler (.write body) => Fin.last body.length
  | .now => (0 : Nat)
  | .inFlightInc => ()
  | .inFlightDec => ()
  | .requestsInc _ _ _ => ()
  | .durationObserve _ _ _ => ()
  | .log _ => ()
  | .isRecording => true
  | .setName _ => ()
  | .setAttributes _ => ()

abbrev sampleServer := server (.documented : WrapResponseWriter NoAnswer)

abbrev SampleAction := Action (Arrival Unit NoAnswer) ((c : Call Unit) → c.Answer NoAnswer) Unit

def sampleSteps (slot n : Nat) : List SampleAction := List.replicate n (.advance slot sampleAnswer)

/-- The two requests one within the other. -/
def sampleActions : List SampleAction :=
  [.start 0 ⟨sampleRequest (lit "/a"),earlyPanic⟩] ++ sampleSteps 0 4 ++
    [.start 1 ⟨sampleRequest (lit "/b"),latePanic⟩] ++ sampleSteps 1 7 ++ sampleSteps 0 12 ++ sampleSteps 1 11

def isCrash : SampleAction → Bool
  | .crash _ => true
  | _ => false

def sampleOver (s : Pool (Call Unit) (Call.Answer NoAnswer) (Program NoAnswer Exit) World) : Bool :=
  match s.procs 0, s.procs 1 with
  | some (.done .returned), some (.done .returned) => true
  | _, _ => false

theorem exists_sample : ∃ trace s, Transition.Path sampleServer.step (Pool.initial .fresh) trace s ∧
    (∀ entry ∈ trace, ∀ slot, entry.2.1 ≠ .crash slot) ∧ sampleOver s = true ∧
      Machine.started trace = [(0,⟨sampleRequest (lit "/a"),earlyPanic⟩),(1,⟨sampleRequest (lit "/b"),latePanic⟩)] := by
  obtain ⟨trace,s,path,-,through,same⟩ := Transition.exists_path sampleServer.step (fun _ _ => True)
    (Pool.initial .fresh) sampleActions sampleOver (by rfl)
  refine ⟨trace,s,path,?_,through,?_⟩
  · intro entry member slot crash
    have action : entry.2.1 ∈ sampleActions := same ▸ List.mem_map_of_mem member
    have all : sampleActions.all (fun a => !isCrash a) = true := by rfl
    have calm := List.all_eq_true.mp all entry.2.1 action
    rw [crash] at calm
    contradiction
  · have begun : sampleActions.filterMap Machine.startOf =
        [(0,⟨sampleRequest (lit "/a"),earlyPanic⟩),(1,⟨sampleRequest (lit "/b"),latePanic⟩)] := by rfl
    rw [← begun,← same,List.filterMap_map]
    rfl

theorem accounts_settle_sample : ∃ trace s,
    Transition.Path sampleServer.step (Pool.initial .fresh) trace s ∧ s.world.inFlight = 0 ∧
      ∃ served : List (Served Unit NoAnswer), served.length = 2 ∧ s.world.lines.Perm (served.flatMap Served.lines) := by
  obtain ⟨trace,s,path,calm,through,begun⟩ := exists_sample
  have done : ∀ first ∈ Machine.started trace, ∃ exit, s.procs first.1 = some (.done exit) := by
    intro first member
    rw [begun] at member
    unfold sampleOver at through
    split at through
    · next zero one =>
      simp only [List.mem_cons,List.not_mem_nil,or_false] at member
      rcases member with rfl | rfl
      · exact ⟨_,zero⟩
      · exact ⟨_,one⟩
    · contradiction
  obtain ⟨settled,served,arrivals,-,-,-,lines⟩ := (accounts_settle path calm).2 done
  refine ⟨trace,s,path,settled,served,?_,lines⟩
  have count := congrArg List.length arrivals
  simpa [begun] using count

end GophProfile.Middleware

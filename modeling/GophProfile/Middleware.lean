import GophProfile.Response
import GophProfile.Library.Ledger

/-! The middleware of the router: what stands around the handler that a request is routed to.
A handler is a program over its response writer and whatever else it calls; a middleware makes
a handler of a handler. -/
namespace GophProfile.Middleware

open Effect

/-- What the middleware reads of a request. `pattern` is the pattern of its route, empty where
no route matches. -/
structure Request where
  method : GoString
  path : GoString
  requestID : GoString
  remoteAddr : GoString
  pattern : GoString
  deriving DecidableEq

/-- What a panic carries: an error that is `http.ErrAbortHandler`, or anything else. -/
inductive Panic where
  | abort
  | value (text : GoString)
  deriving DecidableEq

/-- How a handler ends. -/
inductive Exit where
  | returned
  | panicked (p : Panic)
  deriving DecidableEq

/-- The records of the log. -/
inductive Line where
  /-- «запрос обработан» -/
  | served (method path : GoString) (status bytes durationMS : Nat) (requestID remoteAddr : GoString)
  /-- «паника в обработчике» -/
  | panicked (value method path requestID : GoString)
  /-- «запись тела ответа» -/
  | unwritten
  deriving DecidableEq

/-- What a handler does: it uses its response writer, or calls something else. A header
without a value is deleted. -/
inductive Act (C : Type) where
  | own (c : C)
  | setHeader (name : GoString) (value : Option GoString)
  | writeHeader (code : Nat)
  | write (body : GoString)

inductive Call (C : Type) where
  | handler (a : Act C)
  | now
  | inFlightInc
  | inFlightDec
  | requestsInc (method route : GoString) (status : Nat)
  | durationObserve (method route : GoString) (elapsed : Nat)
  | log (line : Line)
  | isRecording
  | setName (name : GoString)
  | setAttributes (route : GoString)

variable {C : Type} {A : C → Type} {α β : Type}

/-- A write says how many bytes of the body it took. -/
@[reducible] def Act.Answer (A : C → Type) : Act C → Type
  | .own c => A c
  | .setHeader _ _ => Unit
  | .writeHeader _ => Unit
  | .write body => Fin (body.length + 1)

@[reducible] def Call.Answer (A : C → Type) : Call C → Type
  | .handler a => a.Answer A
  | .now => Nat
  | .inFlightInc => Unit
  | .inFlightDec => Unit
  | .requestsInc _ _ _ => Unit
  | .durationObserve _ _ _ => Unit
  | .log _ => Unit
  | .isRecording => Bool
  | .setName _ => Unit
  | .setAttributes _ => Unit

/-- What the router calls for a request. -/
abbrev Handler (C : Type) (A : C → Type) := Effect.Prog (Act C) (Act.Answer A) Exit

abbrev Program (A : C → Type) (α : Type) := Effect.Prog (Call C) (Call.Answer A) α

/-- One call. -/
def ask (c : Call C) : Program A (c.Answer A) := request c

/-- A handler where the middleware calls it. -/
def serve : Handler C A → Program A Exit
  | .done exit => .done exit
  | .call a next => .call (.handler a) fun answer => serve (next answer)

/-! ### A wrapped writer -/

/-- The statuses that do not begin the answer. -/
def isInformational (code : Nat) : Bool := 100 ≤ code && code ≤ 199 && code != 101

/-- What a wrapped writer keeps: `Status`, 0 before there is one, and `BytesWritten`. -/
structure Wrapped where
  status : Nat
  wroteHeader : Bool
  bytesWritten : Nat
  deriving DecidableEq

def Wrapped.new : Wrapped := ⟨0,false,0⟩

def Wrapped.writeHeader (ww : Wrapped) (code : Nat) : Wrapped :=
  if isInformational code || ww.wroteHeader then ww else { ww with status := code, wroteHeader := true }

def Wrapped.wrote (ww : Wrapped) (n : Nat) : Wrapped := { ww with bytesWritten := ww.bytesWritten + n }

/-- A program that is given the wrapped writer in place of the writer: a status after the
first is kept back, and a body is preceded by its status. -/
def wrap : Wrapped → Program A α → Program A (α × Wrapped)
  | ww, .done value => .done (value,ww)
  | ww, .call (.handler (.writeHeader code)) next =>
    if isInformational code || !ww.wroteHeader then
      .call (.handler (.writeHeader code)) fun answer => wrap (ww.writeHeader code) (next answer)
    else wrap ww (next ())
  | ww, .call (.handler (.write body)) next =>
    if ww.wroteHeader then
      .call (.handler (.write body)) fun n => wrap (ww.wrote n) (next n)
    else
      .call (.handler (.writeHeader 200)) fun _ =>
        .call (.handler (.write body)) fun n => wrap ((ww.writeHeader 200).wrote n) (next n)
  | ww, .call c next => .call c fun answer => wrap ww (next answer)

/-! ### The connection -/

/-- The answer as the client gets it: the headers set so far, the status with the headers
it was sent with, and the body. -/
structure Conn where
  headers : GoString → Option GoString
  sent : Option (Nat × (GoString → Option GoString))
  body : GoString

def Conn.fresh : Conn := ⟨fun _ => none,none,[]⟩

def Conn.setHeader (conn : Conn) (name : GoString) (value : Option GoString) : Conn :=
  { conn with headers := Function.update conn.headers name value }

def Conn.writeHeader (conn : Conn) (code : Nat) : Conn :=
  if isInformational code || conn.sent.isSome then conn else { conn with sent := some (code,conn.headers) }

def Conn.write (conn : Conn) (body : GoString) : Conn :=
  { conn.writeHeader 200 with body := conn.body ++ body }

def Conn.act (conn : Conn) : (a : Act C) → a.Answer A → Conn
  | .own _, _ => conn
  | .setHeader name value, _ => conn.setHeader name value
  | .writeHeader code, _ => conn.writeHeader code
  | .write body, n => conn.write (body.take n)

/-- What `net/http` answers when the handler is through: 200 where no status was sent. -/
def Conn.status (conn : Conn) : Nat := (conn.sent.map Prod.fst).getD 200

def Conn.call (conn : Conn) : (c : Call C) × c.Answer A → Conn
  | ⟨.handler a,answer⟩ => conn.act a answer
  | _ => conn

/-- The answer after the calls of the middleware. -/
def Conn.after (conn : Conn) (calls : Calls (Call C) (Call.Answer A)) : Conn := calls.foldl Conn.call conn

/-- The answer after what a handler has done. -/
def Conn.told (conn : Conn) (said : Calls (Act C) (Act.Answer A)) : Conn :=
  said.foldl (fun conn a => conn.act a.1 a.2) conn

/-! ### Those who see the calls of a program -/

/-- The call begins the answer. -/
def begins : Call C → Bool
  | .handler (.writeHeader code) => !isInformational code
  | .handler (.write _) => true
  | _ => false

def Wrapped.call (ww : Wrapped) : (c : Call C) × c.Answer A → Wrapped
  | ⟨.handler (.writeHeader code),_⟩ => ww.writeHeader code
  | ⟨.handler (.write _),n⟩ => (ww.writeHeader 200).wrote n.val
  | _ => ww

def Wrapped.after (ww : Wrapped) (calls : Calls (Call C) (Call.Answer A)) : Wrapped := calls.foldl Wrapped.call ww

/-- Whoever sees the calls and cares for the first status only. -/
structure Observer (A : C → Type) (O : Type) where
  sees : O → (c : Call C) × c.Answer A → O
  begun : O → Bool
  begins : ∀ o c, begun (sees o c) = (begun o || Middleware.begins c.1)
  again : ∀ o code, begun o = true → isInformational code = false →
    sees o ⟨.handler (.writeHeader code),()⟩ = o
  implied : ∀ o body n, begun o = false →
    sees (sees o ⟨.handler (.writeHeader 200),()⟩) ⟨.handler (.write body),n⟩ = sees o ⟨.handler (.write body),n⟩

theorem writeHeader_twice (conn : Conn) : (conn.writeHeader 200).writeHeader 200 = conn.writeHeader 200 := by
  unfold Conn.writeHeader
  cases sent : conn.sent <;> simp [isInformational,sent]

theorem wrapped_twice (ww : Wrapped) : (ww.writeHeader 200).writeHeader 200 = ww.writeHeader 200 := by
  unfold Wrapped.writeHeader
  cases wrote : ww.wroteHeader <;> simp [isInformational,wrote]

theorem writeHeader_begun (conn : Conn) (code : Nat) :
    (conn.writeHeader code).sent.isSome = (conn.sent.isSome || !isInformational code) := by
  unfold Conn.writeHeader
  cases informs : isInformational code <;> cases sent : conn.sent <;> simp [sent]

theorem wrapped_begun (ww : Wrapped) (code : Nat) :
    (ww.writeHeader code).wroteHeader = (ww.wroteHeader || !isInformational code) := by
  unfold Wrapped.writeHeader
  cases informs : isInformational code <;> cases wrote : ww.wroteHeader <;> simp [wrote]

/-- The client. -/
def client : Observer A Conn where
  sees := Conn.call
  begun conn := conn.sent.isSome
  begins conn c := by
    obtain ⟨c,answer⟩ := c
    cases c with
    | handler a =>
      cases a with
      | writeHeader code => exact writeHeader_begun conn code
      | write body => exact writeHeader_begun conn 200
      | own | setHeader => exact (Bool.or_false _).symm
    | _ => exact (Bool.or_false _).symm
  again conn code begun final := by
    have kept : conn.writeHeader code = conn := by
      unfold Conn.writeHeader
      rw [begun,Bool.or_true,if_pos rfl]
    exact kept
  implied conn body n _ := by
    have same : (conn.writeHeader 200).write (body.take n.val) = conn.write (body.take n.val) := by
      rw [Conn.write,writeHeader_twice,Conn.write]
      unfold Conn.writeHeader
      cases sent : conn.sent <;> simp [isInformational]
    exact same

/-- The wrapped writer of a middleware further out. -/
def wrapper : Observer A Wrapped where
  sees := Wrapped.call
  begun := Wrapped.wroteHeader
  begins ww c := by
    obtain ⟨c,answer⟩ := c
    cases c with
    | handler a =>
      cases a with
      | writeHeader code => exact wrapped_begun ww code
      | write body => exact wrapped_begun ww 200
      | own | setHeader => exact (Bool.or_false _).symm
    | _ => exact (Bool.or_false _).symm
  again ww code begun _ := by
    have kept : ww.writeHeader code = ww := by
      unfold Wrapped.writeHeader
      rw [begun,Bool.or_true,if_pos rfl]
    exact kept
  implied ww body n _ := by
    have same : ((ww.writeHeader 200).writeHeader 200).wrote n.val = (ww.writeHeader 200).wrote n.val := by
      rw [wrapped_twice]
    exact same

/-- The call sets a status. -/
def isStatus : Call C → Bool
  | .handler (.writeHeader _) => true
  | _ => false

@[simp] theorem isStatus_writeHeader (code : Nat) : isStatus (.handler (.writeHeader code) : Call C) = true := rfl
@[simp] theorem isStatus_write (body : GoString) : isStatus (.handler (.write body) : Call C) = false := rfl

/-- Apart from statuses that count for nothing the calls are the same. -/
structure Alike (begun : Bool) (calls inner : Calls (Call C) (Call.Answer A)) : Prop where
  others : calls.filter (fun c => !isStatus c.1) = inner.filter fun c => !isStatus c.1
  seen : ∀ {O : Type} (watch : Observer A O) (o : O), watch.begun o = begun →
    calls.foldl watch.sees o = inner.foldl watch.sees o

theorem Alike.nil (begun : Bool) : Alike begun ([] : Calls (Call C) (Call.Answer A)) [] := ⟨rfl,fun _ _ _ => rfl⟩

theorem Alike.cons {begun : Bool} {calls inner : Calls (Call C) (Call.Answer A)} (c : (c : Call C) × c.Answer A)
    (alike : Alike (begun || begins c.1) calls inner) : Alike begun (c :: calls) (c :: inner) where
  others := by simp only [List.filter_cons,alike.others]
  seen watch o same := by
    rw [List.foldl_cons,List.foldl_cons]
    exact alike.seen watch _ (by rw [watch.begins,same])

/-- A further status is kept back. -/
theorem Alike.again {calls inner : Calls (Call C) (Call.Answer A)} {code : Nat} (final : isInformational code = false)
    (alike : Alike true calls inner) : Alike true calls (⟨.handler (.writeHeader code),()⟩ :: inner) where
  others := by simpa using alike.others
  seen watch o same := by
    rw [List.foldl_cons,watch.again o code same final]
    exact alike.seen watch o same

/-- A body without a status is given one. -/
theorem Alike.implied {calls inner : Calls (Call C) (Call.Answer A)} {body : GoString} (n : Fin (body.length + 1))
    (alike : Alike true calls inner) :
    Alike false (⟨.handler (.writeHeader 200),()⟩ :: ⟨.handler (.write body),n⟩ :: calls)
      (⟨.handler (.write body),n⟩ :: inner) where
  others := by simp [alike.others]
  seen watch o same := by
    rw [List.foldl_cons,List.foldl_cons,List.foldl_cons,watch.implied o body n same]
    exact alike.seen watch _ (by rw [watch.begins,same]; rfl)

/-! ### What the wrapped writer leaves as it is -/

theorem wrap_other {c : Call C} (plain : begins c = false) (quiet : isStatus c = false) (ww : Wrapped)
    (next : c.Answer A → Program A α) :
    wrap ww (.call c next) = .call c fun answer => wrap ww (next answer) := by
  cases c with
  | handler a =>
    cases a with
    | writeHeader code => contradiction
    | write body => contradiction
    | own | setHeader => rfl
  | _ => rfl

theorem call_other {c : Call C} (plain : begins c = false) (quiet : isStatus c = false) (ww : Wrapped)
    (answer : c.Answer A) : ww.call ⟨c,answer⟩ = ww := by
  cases c with
  | handler a =>
    cases a with
    | writeHeader code => contradiction
    | write body => contradiction
    | own | setHeader => rfl
  | _ => rfl

/-- Every call either sets a status, or writes a body, or is neither. -/
theorem call_shape (c : Call C) : (∃ code, c = .handler (.writeHeader code)) ∨ (∃ body, c = .handler (.write body)) ∨
    begins c = false ∧ isStatus c = false := by
  cases c with
  | handler a =>
    cases a with
    | writeHeader code => exact .inl ⟨code,rfl⟩
    | write body => exact .inr (.inl ⟨body,rfl⟩)
    | own | setHeader => exact .inr (.inr ⟨rfl,rfl⟩)
  | _ => exact .inr (.inr ⟨rfl,rfl⟩)

/-- A program that is given the wrapped writer does what it does with the writer itself, and the
wrapped writer counts what the program has written. -/
theorem made_wrap {p : Program A α} {ww ww' : Wrapped} {calls : Calls (Call C) (Call.Answer A)} {value : α}
    (made : Made (wrap ww p) calls (.done (value,ww'))) :
    ∃ inner, Made p inner (.done value) ∧ ww' = ww.after inner ∧ Alike ww.wroteHeader calls inner := by
  induction p generalizing ww calls with
  | done result =>
    cases made
    exact ⟨[],.none _,rfl,.nil _⟩
  | call c next ih =>
    rcases call_shape c with ⟨code,rfl⟩ | ⟨body,rfl⟩ | ⟨plain,quiet⟩
    · by_cases final : (isInformational code || !ww.wroteHeader) = true
      · rw [wrap,if_pos final] at made
        obtain ⟨answer,rest,left,rfl⟩ := made.request
        obtain ⟨inner,ran,kept,alike⟩ := ih answer left
        refine ⟨_,.call ran,kept,.cons _ ?_⟩
        rw [wrapped_begun] at alike
        exact alike
      · rw [wrap,if_neg final] at made
        simp only [Bool.or_eq_true,Bool.not_eq_true',not_or,Bool.not_eq_false] at final
        obtain ⟨notInformational,wrote⟩ := final
        have ends := Bool.eq_false_iff.mpr notInformational
        obtain ⟨inner,ran,kept,alike⟩ := ih () made
        have still : ww.writeHeader code = ww := by
          unfold Wrapped.writeHeader
          rw [wrote,Bool.or_true,if_pos rfl]
        refine ⟨⟨.handler (.writeHeader code),()⟩ :: inner,.call ran,?_,?_⟩
        · rw [kept]
          exact congrArg (Wrapped.after · inner) still.symm
        · rw [wrote] at alike ⊢
          exact alike.again ends
    · cases wrote : ww.wroteHeader with
      | true =>
        rw [wrap,if_pos wrote] at made
        obtain ⟨n,rest,left,rfl⟩ := made.request
        obtain ⟨inner,ran,kept,alike⟩ := ih n left
        have still : ww.writeHeader 200 = ww := by
          unfold Wrapped.writeHeader
          rw [wrote,Bool.or_true,if_pos rfl]
        refine ⟨⟨.handler (.write body),n⟩ :: inner,.call ran,?_,.cons _ ?_⟩
        · rw [kept]
          exact congrArg (fun first => Wrapped.after (first.wrote n.val) inner) still.symm
        · have begun : (ww.wrote n.val).wroteHeader = true := wrote
          rw [begun] at alike
          exact alike
      | false =>
        rw [wrap,if_neg (by simp [wrote])] at made
        obtain ⟨_,rest,written,rfl⟩ := made.request
        obtain ⟨n,rest,left,rfl⟩ := written.request
        obtain ⟨inner,ran,kept,alike⟩ := ih n left
        have begun : ((ww.writeHeader 200).wrote n.val).wroteHeader = true := by
          have first := wrapped_begun ww 200
          rw [wrote] at first
          exact first
        rw [begun] at alike
        exact ⟨_,.call ran,kept,alike.implied n⟩
    · rw [wrap_other plain quiet] at made
      obtain ⟨answer,rest,left,rfl⟩ := made.request
      obtain ⟨inner,ran,kept,alike⟩ := ih answer left
      refine ⟨⟨c,answer⟩ :: inner,.call ran,?_,.cons _ ?_⟩
      · rw [Wrapped.after,List.foldl_cons,call_other plain quiet]
        exact kept
      · rw [plain,Bool.or_false]
        exact alike

/-- A wrapped writer makes no calls but on the writer. -/
theorem obeys_wrap {S : Type} {stage : S → Call C → Option S} (blind : ∀ now a, stage now (.handler a) = some now)
    {final : S → α → Prop} {now : S} {p : Program A α} (obeys : Obeys stage final now p) (ww : Wrapped) :
    Obeys stage (fun later result => final later result.1) now (wrap ww p) := by
  induction p generalizing now ww with
  | done value => exact obeys
  | call c next ih =>
    obtain ⟨later,stepped,rest⟩ := obeys
    rcases call_shape c with ⟨code,rfl⟩ | ⟨body,rfl⟩ | ⟨plain,quiet⟩
    · have same : now = later := Option.some.inj ((blind now _).symm.trans stepped)
      subst same
      rw [wrap]
      split
      · exact ⟨now,stepped,fun answer => ih answer (rest answer) _⟩
      · exact ih () (rest ()) _
    · have same : now = later := Option.some.inj ((blind now _).symm.trans stepped)
      subst same
      rw [wrap]
      split
      · exact ⟨now,stepped,fun n => ih n (rest n) _⟩
      · exact ⟨now,blind now _,fun _ => ⟨now,stepped,fun n => ih n (rest n) _⟩⟩
    · rw [wrap_other plain quiet]
      exact ⟨later,stepped,fun answer => ih answer (rest answer) _⟩

/-- `middleware.WrapResponseWriter`: what a handler does that is given a new one in place of its
writer, and what the wrapped writer says then. -/
structure WrapResponseWriter (A : C → Type) where
  serve : Program A Exit → Program A (Exit × Wrapped)
  /-- The handler does what it does without it, and is counted; statuses may be kept back or put
  before a body where nobody behind it can tell. -/
  through {next : Program A Exit} {calls : Calls (Call C) (Call.Answer A)} {exit : Exit} {ww : Wrapped} :
    Made (serve next) calls (.done (exit,ww)) →
      ∃ inner, Made next inner (.done exit) ∧ ww = Wrapped.new.after inner ∧ Alike false calls inner
  /-- It makes no calls but on the writer. -/
  quiet {S : Type} {stage : S → Call C → Option S} {final : S → Exit → Prop} {now : S} {next : Program A Exit} :
    (∀ now a, stage now (.handler a) = some now) → Obeys stage final now next →
      Obeys stage (fun later result => final later result.1) now (serve next)

/-- One that follows its documentation to the letter. -/
def WrapResponseWriter.documented : WrapResponseWriter A where
  serve := wrap .new
  through := made_wrap
  quiet blind obeys := obeys_wrap blind obeys .new

/-! ### The chain -/

variable (writer : WrapResponseWriter A)

def internalError : GoString := lit "\x7b\"error\":\"Internal error\"\x7d\n"

/-- `responder.JSON`, the value already encoded. -/
def writeJSON (status : Nat) (body : GoString) : Program A Unit := do
  ask (.handler (.setHeader (lit "Content-Type") (some (lit "application/json; charset=utf-8"))))
  ask (.handler (.writeHeader status))
  let n ← ask (.handler (.write body))
  if n.val ≠ body.length then ask (.log .unwritten) else return ()

def millisecond : Nat := 1000000

def requestLogger (r : Request) (next : Program A Exit) : Program A Exit := do
  let started ← ask .now
  let (exit,ww) ← writer.serve next
  let ended ← ask .now
  ask (.log (.served r.method r.path ww.status ww.bytesWritten ((ended - started) / millisecond)
    r.requestID r.remoteAddr))
  return exit

def recoverer (r : Request) (next : Program A Exit) : Program A Exit := do
  match ← next with
  | .returned => return .returned
  | .panicked .abort => return .panicked .abort
  | .panicked (.value text) =>
    ask (.log (.panicked text r.method r.path r.requestID))
    writeJSON 500 internalError
    return .returned

def unmatched : GoString := lit "unmatched"

def routeLabel (r : Request) : GoString := if r.pattern = [] then unmatched else r.pattern

def metrics (r : Request) (next : Program A Exit) : Program A Exit := do
  let started ← ask .now
  ask .inFlightInc
  let (exit,ww) ← writer.serve next
  match exit with
  | .panicked p =>
    ask .inFlightDec
    return .panicked p
  | .returned =>
    ask (.requestsInc r.method (routeLabel r) ww.status)
    let ended ← ask .now
    ask (.durationObserve r.method (routeLabel r) (ended - started))
    ask .inFlightDec
    return .returned

def securityHeaderValues : List (GoString × GoString) :=
  [(lit "X-Content-Type-Options",lit "nosniff"),(lit "X-Frame-Options",lit "DENY"),
    (lit "Referrer-Policy",lit "no-referrer")]

def securityHeaders (next : Program A Exit) : Program A Exit := do
  ask (.handler (.setHeader (lit "X-Content-Type-Options") (some (lit "nosniff"))))
  ask (.handler (.setHeader (lit "X-Frame-Options") (some (lit "DENY"))))
  ask (.handler (.setHeader (lit "Referrer-Policy") (some (lit "no-referrer"))))
  next

def traceRoute (r : Request) (next : Program A Exit) : Program A Exit := do
  match ← next with
  | .panicked p => return .panicked p
  | .returned =>
    if r.pattern = [] then return .returned
    else
      let recording ← ask .isRecording
      if recording then
        ask (.setName (r.method ++ lit " " ++ r.pattern))
        ask (.setAttributes r.pattern)
        return .returned
      else return .returned

/-- The middleware in the order of `NewRouter`. -/
def chain (r : Request) (handler : Handler C A) : Program A Exit :=
  traceRoute r (recoverer r (requestLogger writer r (metrics writer r (securityHeaders (serve handler)))))

end GophProfile.Middleware

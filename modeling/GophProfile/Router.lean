import GophProfile.Writing

/-! What the router puts before the handlers of the API and of the pages: the limits on the
requests of a minute, `cors` and the deadline of the request. -/
namespace GophProfile.Middleware

open Effect

/-- What the limiters look at besides the address of the connection. -/
structure Client where
  /-- The address that `ClientIP` has found, empty where it found none. -/
  ip : GoString
  /-- `X-User-ID` -/
  userID : GoString

/-- The limits of the configuration. Without an `UploadLimiter` uploads have none of their own. -/
structure RouterDeps where
  rateLimitRPM : Nat
  uploadLimiter : Option Nat

/-! ### The keys of the limiters -/

def colon : UInt8 := 58
def openBracket : UInt8 := 91
def closeBracket : UInt8 := 93

/-- The host that `net.SplitHostPort` finds: what stands before the last colon, without the
brackets of an address that has colons itself. -/
def splitHost (hostport : GoString) : Option GoString :=
  let port := hostport.reverse.takeWhile (· ≠ colon)
  let before := hostport.take (hostport.length - port.length - 1)
  let inside := (hostport.drop 1).takeWhile (· ≠ closeBracket)
  let bracketed := before.length = inside.length + 2
  if !hostport.contains colon then none
  else if hostport.head? = some openBracket then
    if !hostport.contains closeBracket || !bracketed || inside.contains openBracket ||
      port.contains openBracket || port.contains closeBracket then none
    else some inside
  else if before.contains colon || hostport.contains openBracket || hostport.contains closeBracket then none
  else some before

def remoteHost (r : Request) : GoString := (splitHost r.remoteAddr).getD r.remoteAddr

section Keys
variable (canonicalizeIP : GoString → GoString)

def clientIPKey (client : Client) (r : Request) : GoString :=
  canonicalizeIP (if client.ip = [] then remoteHost r else client.ip)

def userKey (client : Client) (r : Request) : GoString :=
  if client.userID ≠ [] then lit "user:" ++ client.userID else clientIPKey canonicalizeIP client r

end Keys

example : splitHost (lit "10.0.0.1:443") = some (lit "10.0.0.1") := by decide
example : splitHost (lit "[2001:db8::1]:443") = some (lit "2001:db8::1") := by decide
example : splitHost (lit "2001:db8::1") = none := by decide

/-! ### The middleware -/

def tooManyRequests (requestsPerMinute : Nat) : Response :=
  .error 429 "Too many requests" (.fields "Limit is %d requests per minute" [lit (toString requestsPerMinute)])

def rateLimiter (text : Body → GoString) (r : Request) (limiter : Limiter) (key : GoString) (next : RouterHandler) :
    RouterHandler :=
  .call (.own (.onLimit limiter key)) fun rate =>
    setHeaders rate.fields.list
      (if rate.limited then answer r.method text (tooManyRequests limiter.requestsPerMinute) else next)

/-- `cors` for the requests that it passes on. -/
def cors (next : RouterHandler) : RouterHandler :=
  .call (.own .actualRequest) fun fields => setHeaders fields.list next

/-- `middleware.Timeout`, which looks at the deadline when the handler is through. -/
def timeout (next : RouterHandler) : RouterHandler :=
  next >>= fun exit =>
    .call (.own .deadlineExceeded) fun passed =>
      if passed then .call (.writeHeader 504) fun _ => .done exit else .done exit

section Group
variable (canonicalizeIP : GoString → GoString) (deps : RouterDeps) (text : Body → GoString) (client : Client)
  (r : Request)

/-- What stands before every route of the group. -/
def group (next : RouterHandler) : RouterHandler :=
  rateLimiter text r (.address deps.rateLimitRPM) (clientIPKey canonicalizeIP client r)
    (rateLimiter text r (.user deps.rateLimitRPM) (userKey canonicalizeIP client r) (cors (timeout next)))

def uploadLimit (next : RouterHandler) : RouterHandler :=
  match deps.uploadLimiter with
  | none => next
  | some n => rateLimiter text r (.uploads n) (clientIPKey canonicalizeIP client r) next

/-- The limiters of a route, the first to be asked first. -/
def limitersOf (uploads : Bool) : List (Limiter × GoString) :=
  (.address deps.rateLimitRPM,clientIPKey canonicalizeIP client r) ::
    (.user deps.rateLimitRPM,userKey canonicalizeIP client r) ::
    if uploads then (deps.uploadLimiter.map fun n => (.uploads n,clientIPKey canonicalizeIP client r)).toList else []

end Group

/-- A handler that finds its answer by a program, and what it logs of an error before it answers it. -/
def handle (method : GoString) (text : Body → GoString) (remark : Response → Option GoString) :
    GophProfile.Prog Response → RouterHandler
  | .done r =>
    match remark r with
    | none => answer method text r
    | some message => .call (.own (.log message)) fun _ => answer method text r
  | .call c next => .call (.own (.service c)) fun result => handle method text remark (next result)

/-! ### Where an answer comes from -/

def serviceOf : (c : Asked) × c.Answer → Option ((c : GophProfile.Call) × c.Answer)
  | ⟨.service c,result⟩ => some ⟨c,result⟩
  | _ => none

/-- A limiter that was asked, and whether it refused. -/
def limitOf : (c : Asked) × c.Answer → Option ((Limiter × GoString) × Bool)
  | ⟨.onLimit limiter key,rate⟩ => some ((limiter,key),rate.limited)
  | _ => none

/-- The answer is that of the first limiter to refuse, and nothing else was done for it, or all
have let the request pass, and the answer is the endpoint's. -/
inductive Source (limiters : List (Limiter × GoString)) (program : GophProfile.Prog Response)
    (own : Calls Asked Asked.Answer) : Response → Prop
  | limited {passed later : List (Limiter × GoString)} {limiter : Limiter} {key : GoString} :
      limiters = passed ++ (limiter,key) :: later →
      own.filterMap limitOf = passed.map (·,false) ++ [((limiter,key),true)] → own.filterMap serviceOf = [] →
      Source limiters program own (tooManyRequests limiter.requestsPerMinute)
  | endpoint {r : Response} : own.filterMap limitOf = limiters.map (·,false) →
      Made program (own.filterMap serviceOf) (.done r) → Source limiters program own r

variable {limiters : List (Limiter × GoString)} {program : GophProfile.Prog Response}
  {calls other : Calls Asked Asked.Answer} {answered : Response}

theorem Source.congr (source : Source limiters program calls answered)
    (limits : other.filterMap limitOf = calls.filterMap limitOf)
    (services : other.filterMap serviceOf = calls.filterMap serviceOf) : Source limiters program other answered := by
  cases source with
  | limited listed refused idle => exact .limited listed (limits.trans refused) (services.trans idle)
  | endpoint passed ran =>
    rw [← services] at ran
    exact .endpoint (limits.trans passed) ran

/-- A limiter before the others has let the request pass. -/
theorem Source.behind {limiter : Limiter} {key : GoString} {rate : Rate} (pass : rate.limited = false)
    (source : Source limiters program calls answered) :
    Source ((limiter,key) :: limiters) program (⟨.onLimit limiter key,rate⟩ :: calls) answered := by
  have asked : (⟨.onLimit limiter key,rate⟩ :: calls : Calls Asked Asked.Answer).filterMap limitOf =
      ((limiter,key),false) :: calls.filterMap limitOf := by
    rw [← pass]
    rfl
  cases source with
  | @limited passed later last lastKey listed refused idle =>
    have split : (limiter,key) :: limiters = ((limiter,key) :: passed) ++ (last,lastKey) :: later :=
      congrArg (List.cons (limiter,key)) listed
    exact .limited split (asked.trans (congrArg (List.cons ((limiter,key),false)) refused)) idle
  | endpoint passed ran => exact .endpoint (asked.trans (congrArg (List.cons ((limiter,key),false)) passed)) ran

/-! ### What a handler behind them has done -/

variable {method : GoString} {text : Body → GoString} {remark : Response → Option GoString}
  {good : Calls Asked Asked.Answer → Response → Prop} {next : RouterHandler}

/-- Before the answer: calls, none of which is a record in the log, and headers of the middleware. -/
def Prelude (before : Deeds) : Prop :=
  ∀ a ∈ before, (∃ c, a.1 = .own c ∧ ∀ message, c ≠ .log message) ∨
    ∃ name value, a.1 = .setHeader name value ∧ name ∈ rateNames ++ corsNames

/-- After the answer: the deadline is looked at, and a status of its own only when it has passed. -/
inductive Late : Deeds → Prop
  | nothing : Late []
  | early {rest : Deeds} : Late rest → Late (⟨.own .deadlineExceeded,false⟩ :: rest)
  | passed {rest : Deeds} : Late rest → Late (⟨.own .deadlineExceeded,true⟩ :: ⟨.writeHeader 504,()⟩ :: rest)

theorem Late.append {first second : Deeds} (early : Late first) (late : Late second) : Late (first ++ second) := by
  induction early with
  | nothing => exact late
  | early _ ih => exact .early ih
  | passed _ ih => exact .passed ih

/-- The answer is what was written, with the remark on it. -/
def Told (method : GoString) (text : Body → GoString) (remark : Response → Option GoString) (r : Response)
    (said : Deeds) : Prop :=
  ∃ before rest after, Prelude before ∧ Written method text r rest ∧ Late after ∧
    said = before ++ ((remark r).toList.map logged).map ownAct ++ (headersOf method r).map setAct ++ rest ++ after

/-- The handler returns and has written one answer, a good one for the calls it has made. -/
def Replies (method : GoString) (text : Body → GoString) (remark : Response → Option GoString)
    (good : Calls Asked Asked.Answer → Response → Prop) (handler : RouterHandler) : Prop :=
  ∀ said exit, Made handler said (.done exit) →
    exit = .returned ∧ ∃ r, Told method text remark r said ∧ good (said.filterMap saidOwn) r

theorem Told.called {r : Response} {said : Deeds} (told : Told method text remark r said) {c : Asked}
    {result : c.Answer}
    (unlogged : ∀ message, c ≠ .log message) : Told method text remark r (⟨.own c,result⟩ :: said) := by
  obtain ⟨before,rest,after,prelude,written,late,rfl⟩ := told
  refine ⟨⟨.own c,result⟩ :: before,rest,after,?_,written,late,rfl⟩
  exact List.forall_mem_cons.mpr ⟨.inl ⟨c,rfl,unlogged⟩,prelude⟩

theorem Told.set {r : Response} {said : Deeds} (told : Told method text remark r said)
    {headers : List (GoString × GoString)}
    (harmless : ∀ header ∈ headers, header.1 ∈ rateNames ++ corsNames) :
    Told method text remark r (headers.map setAct ++ said) := by
  obtain ⟨before,rest,after,prelude,written,late,rfl⟩ := told
  refine ⟨headers.map setAct ++ before,rest,after,?_,written,late,by simp only [List.append_assoc]⟩
  intro a member
  rcases List.mem_append.mp member with set | here
  · obtain ⟨header,inside,rfl⟩ := List.mem_map.mp set
    exact .inr ⟨header.1,some header.2,rfl,harmless header inside⟩
  · exact prelude a here

theorem Told.later {r : Response} {said after : Deeds} (told : Told method text remark r said) (late : Late after) :
    Told method text remark r (said ++ after) := by
  obtain ⟨before,rest,first,prelude,written,early,rfl⟩ := told
  exact ⟨before,rest,first ++ after,prelude,written,early.append late,by simp only [List.append_assoc]⟩

theorem Replies.call {c : Asked} {next : c.Answer → RouterHandler} (unlogged : ∀ message, c ≠ .log message)
    (replies : ∀ result, Replies method text remark (fun own r => good (⟨c,result⟩ :: own) r) (next result)) :
    Replies method text remark good (.call (.own c) next) := by
  intro said exit made
  obtain ⟨result,rest,left,rfl⟩ := made.request
  obtain ⟨returned,r,told,fine⟩ := replies result rest exit left
  exact ⟨returned,r,told.called unlogged,fine⟩

theorem set_own (headers : List (GoString × GoString)) :
    (headers.map setAct : Deeds).filterMap saidOwn = [] := by
  induction headers with
  | nil => rfl
  | cons header headers ih => exact ih

theorem Replies.set {names : List GoString} (fields : Fields names) (harmless : names ⊆ rateNames ++ corsNames)
    (replies : Replies method text remark good next) :
    Replies method text remark good (setHeaders fields.list next) := by
  intro said exit made
  obtain ⟨rest,ran,rfl⟩ := made_setHeaders made
  obtain ⟨returned,r,told,fine⟩ := replies rest exit ran
  refine ⟨returned,r,told.set fun header member => harmless (fields.named header member),?_⟩
  rw [List.filterMap_append,set_own]
  exact fine

theorem Replies.mono {better : Calls Asked Asked.Answer → Response → Prop}
    (replies : Replies method text remark better next)
    (weaker : ∀ own r, better own r → good own r) : Replies method text remark good next := by
  intro said exit made
  obtain ⟨returned,r,told,fine⟩ := replies said exit made
  exact ⟨returned,r,told,weaker _ r fine⟩

/-- An answer asks no limiter and calls no dependency. -/
theorem Written.idle {r : Response} {rest : Deeds} (written : Written method text r rest) :
    (rest.filterMap saidOwn).filterMap limitOf = [] ∧ (rest.filterMap saidOwn).filterMap serviceOf = [] := by
  constructor <;> refine List.filterMap_eq_nil_iff.mpr fun c member => ?_
  all_goals
    rcases written.own c member with ⟨message,rfl⟩ | ⟨content,copied,rfl⟩ <;> rfl

theorem Replies.timeout (apart : ∀ own r passed, good own r → good (own ++ [⟨.deadlineExceeded,passed⟩]) r)
    (replies : Replies method text remark good next) : Replies method text remark good (timeout next) := by
  intro said exit made
  obtain ⟨left,first,second,ran,looking,rfl⟩ := made.bind
  obtain ⟨rfl,r,told,fine⟩ := replies first left ran
  obtain ⟨passed,rest,last,rfl⟩ := looking.request
  cases passed with
  | false =>
    obtain ⟨rfl,same⟩ := last.done
    cases same
    refine ⟨rfl,r,told.later (.early .nothing),?_⟩
    rw [List.filterMap_append]
    exact apart _ r false fine
  | true =>
    obtain ⟨_,_,ending,rfl⟩ := last.request
    obtain ⟨rfl,same⟩ := ending.done
    cases same
    refine ⟨rfl,r,told.later (.passed .nothing),?_⟩
    rw [List.filterMap_append]
    exact apart _ r true fine

variable {r : Response} {said before after : Deeds}

theorem Late.sets (late : Late after) (name : GoString) (value : Option GoString) :
    ∀ a ∈ after, a.1 ≠ .setHeader name value := by
  induction late with
  | nothing => simp
  | early _ ih => simpa using ih
  | passed _ ih => simpa using ih

theorem Late.told (late : Late after) (conn : Conn) : (conn.told after).body = conn.body := by
  induction late generalizing conn with
  | nothing => rfl
  | early _ ih => exact ih conn
  | passed _ ih => exact (ih (conn.writeHeader 504)).trans (writeHeader_body conn 504)

theorem Late.quiet (late : Late after) : (after.filterMap saidOwn).filterMap logOf = [] := by
  induction late with
  | nothing => rfl
  | early _ ih => exact ih
  | passed _ ih => exact ih

theorem kept_writeHeader {ww : Wrapped} (begun : ww.wroteHeader = true) (code : Nat) : ww.writeHeader code = ww := by
  rw [Wrapped.writeHeader,begun,Bool.or_true]
  rfl

/-- A status after the answer comes too late, -/
theorem Late.begun (late : Late after) {ww : Wrapped} (begun : ww.wroteHeader = true) :
    ww.after (after.map lift) = ww := by
  induction late with
  | nothing => rfl
  | early _ ih => exact ih
  | @passed rest _ ih =>
    have late : ww.after ((⟨.own .deadlineExceeded,true⟩ :: ⟨.writeHeader 504,()⟩ :: rest : Deeds).map lift) =
        (ww.writeHeader 504).after (rest.map lift) := rfl
    rw [late,kept_writeHeader begun]
    exact ih

/-- and without one it is the status. -/
theorem Late.unwritten (late : Late after) : Wrapped.new.after (after.map lift) = .new ∨
    Wrapped.new.after (after.map lift) = ⟨504,true,0⟩ ∧ ⟨.deadlineExceeded,true⟩ ∈ after.filterMap saidOwn := by
  induction late with
  | nothing => exact .inl rfl
  | early _ ih => exact ih.imp_right fun ⟨same,seen⟩ => ⟨same,List.mem_cons_of_mem _ seen⟩
  | passed rest _ => exact .inr ⟨rest.begun rfl,List.mem_cons_self⟩

theorem Prelude.quiet (prelude : Prelude before) : (before.filterMap saidOwn).filterMap logOf = [] := by
  induction before with
  | nil => rfl
  | cons a before ih =>
    rw [Prelude,List.forall_mem_cons] at prelude
    have rest := ih prelude.2
    obtain ⟨a,result⟩ := a
    rcases prelude.1 with ⟨c,rfl,unlogged⟩ | ⟨name,value,rfl,-⟩
    · cases c with
      | log message => exact absurd rfl (unlogged message)
      | service | onLimit | actualRequest | copyBody | deadlineExceeded => exact rest
    · exact rest

theorem Prelude.unsent (prelude : Prelude before) {conn : Conn} (unsent : conn.sent = none) :
    (conn.told before).sent = none ∧ (conn.told before).body = conn.body := by
  induction before generalizing conn with
  | nil => exact ⟨unsent,rfl⟩
  | cons a before ih =>
    rw [Prelude,List.forall_mem_cons] at prelude
    obtain ⟨a,result⟩ := a
    rcases prelude.1 with ⟨c,rfl,-⟩ | ⟨name,value,rfl,-⟩
    · exact ih prelude.2 unsent
    · have still : (conn.setHeader name value).sent = none := unsent
      exact ih prelude.2 still

theorem set_body (headers : List (GoString × GoString)) (conn : Conn) :
    (conn.told (headers.map setAct : Deeds)).body = conn.body := by
  induction headers generalizing conn with
  | nil => rfl
  | cons header headers ih => exact ih (conn.setHeader header.1 (some header.2))

/-- The status that the wrapped writer has in the end. -/
theorem Told.wrapped (told : Told method text remark r said) (final : Final r) :
    (Wrapped.new.after (said.map lift)).wroteHeader = true ∧ (Wrapped.new.after (said.map lift)).status = r.status ∨
      (∃ content, r.body = .bytes content) ∧
        (∀ conn : Conn, conn.sent = none → (conn.told said).body = conn.body) ∧
        (Wrapped.new.after (said.map lift) = .new ∨
          Wrapped.new.after (said.map lift) = ⟨504,true,0⟩ ∧ ⟨.deadlineExceeded,true⟩ ∈ said.filterMap saidOwn) := by
  obtain ⟨before,rest,after,prelude,written,late,rfl⟩ := told
  have split (ww : Wrapped) (first second : Deeds) :
      ww.after ((first ++ second).map lift) = (ww.after (first.map lift)).after (second.map lift) := by
    rw [List.map_append]
    exact List.foldl_append
  have begins : Wrapped.new.after (before.map lift) = .new := by
    refine after_quiet (fun a member => ?_) .new
    rcases prelude a member with ⟨c,same,-⟩ | ⟨name,value,same,-⟩
    · exact .inl ⟨c,same⟩
    · exact .inr ⟨name,value,same⟩
  have sets : Wrapped.new.after (((headersOf method r).map setAct : Deeds).map lift) = .new := by
    refine after_quiet (fun a member => ?_) .new
    obtain ⟨header,-,rfl⟩ := List.mem_map.mp member
    exact .inr ⟨header.1,some header.2,rfl⟩
  have remarks : Wrapped.new.after ((((remark r).toList.map logged).map ownAct : Deeds).map lift) = .new := by
    refine after_quiet (fun a member => ?_) .new
    obtain ⟨c,-,rfl⟩ := List.mem_map.mp member
    exact .inl ⟨c.1,rfl⟩
  rw [split,split,split,split,begins,remarks,sets]
  rcases written.wrapped final with ⟨stored,same,nothing⟩ | ⟨begun,same⟩
  · rw [same]
    refine .inr ⟨stored,fun conn unsent => ?_,late.unwritten.imp_right fun ⟨status,seen⟩ => ⟨status,?_⟩⟩
    · rw [told_append,told_append,told_append,told_append,told_own,late.told,nothing,set_body,(prelude.unsent unsent).2]
    · rw [List.filterMap_append]
      exact List.mem_append_right _ seen
  · rw [late.begun begun]
    exact .inl ⟨begun,same⟩

/-- The body, or a beginning of it and a record of that. -/
theorem Told.body (told : Told method text remark r said) {conn : Conn} (unsent : conn.sent = none) :
    ∃ taken, (conn.told said).body = conn.body ++ taken ∧ taken <+: bodyOf method text r ∧
      (said.filterMap saidOwn).filterMap logOf =
        (remark r).toList ++ if taken = bodyOf method text r then [] else complaints r := by
  obtain ⟨before,rest,after,prelude,written,late,rfl⟩ := told
  have begins := prelude.unsent unsent
  obtain ⟨taken,body,beginning,records⟩ :=
    written.told ((conn.told before).told ((headersOf method r).map setAct : Deeds))
  refine ⟨taken,?_,beginning,?_⟩
  · rw [told_append,told_append,told_append,told_append,told_own,late.told,body,set_body,begins.2]
  · simp only [List.filterMap_append,prelude.quiet,late.quiet,set_own,saidOwn_own,records,logged_texts,List.nil_append,
      List.append_nil]

theorem apart_middleware {header : GoString × GoString} (member : header ∈ securityHeaderValues) :
    header.1 ∉ rateNames ++ corsNames ++ headerNames := by
  revert member
  revert header
  decide

/-- The headers of the answer, and those of every answer. -/
theorem Told.headers (told : Told method text remark r said) {conn : Conn} (unsent : conn.sent = none) :
    (∀ header ∈ headersOf method r, Carries header (conn.told said)) ∧
      ∀ header ∈ securityHeaderValues, ∀ a ∈ said, ∀ value, a.1 ≠ .setHeader header.1 value := by
  obtain ⟨before,rest,after,prelude,written,late,rfl⟩ := told
  constructor
  · intro header member
    rw [told_append,told_append,told_append,told_append,told_own]
    have set := carries_set (A := Asked.Answer) (headersOf_distinct method r) member (prelude.unsent unsent).1
    exact (set.told fun a inside value => written.sets header.1 value a inside).told
      fun a inside value => late.sets header.1 value a inside
  · intro header member a inside value same
    have apart := apart_middleware member
    simp only [List.mem_append] at inside apart
    rcases inside with (((first | remarked) | set) | last) | later
    · rcases prelude a first with ⟨c,own,-⟩ | ⟨name,value',sets,named⟩
      · rw [own] at same
        contradiction
      · rw [sets] at same
        injection same with names
        rw [List.mem_append] at named
        exact apart (.inl (names ▸ named))
    · obtain ⟨c,-,rfl⟩ := List.mem_map.mp remarked
      contradiction
    · obtain ⟨other,among,rfl⟩ := List.mem_map.mp set
      have names : other.1 = header.1 := (Act.setHeader.inj same).1
      exact apart (.inr (names ▸ (headersOf_names method r).subset (List.mem_map_of_mem among)))
    · exact written.sets header.1 value a last same
    · exact late.sets header.1 value a later same

end GophProfile.Middleware

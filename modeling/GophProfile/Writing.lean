import GophProfile.Answers
import GophProfile.Redirect

/-! How the handlers write an answer: its headers, its status and its body, and a record in the
log where a write has failed. -/
namespace GophProfile.Middleware

open Effect

/-! ### What the handlers of the router call -/

/-- The rate limiters of the router, with what they allow in a minute. -/
inductive Limiter where
  | address (requestsPerMinute : Nat)
  | user (requestsPerMinute : Nat)
  | uploads (requestsPerMinute : Nat)
  deriving DecidableEq

def Limiter.requestsPerMinute : Limiter → Nat
  | .address n => n
  | .user n => n
  | .uploads n => n

/-- Headers that a middleware of another package sets, all of them among those it documents. -/
structure Fields (names : List GoString) where
  list : List (GoString × GoString)
  named : ∀ field ∈ list, field.1 ∈ names

/-- The headers of `httprate`. -/
def rateNames : List GoString :=
  [lit "X-RateLimit-Limit",lit "X-RateLimit-Remaining",lit "X-RateLimit-Reset",lit "X-RateLimit-Increment",
    lit "Retry-After"]

/-- The headers that `cors` sets for an actual request. -/
def corsNames : List GoString :=
  [lit "Vary",lit "Access-Control-Allow-Origin",lit "Access-Control-Allow-Credentials",
    lit "Access-Control-Expose-Headers"]

/-- What `httprate` makes of a request: the headers it sets, and whether the request is beyond the limit. -/
structure Rate where
  fields : Fields rateNames
  limited : Bool

/-- What `io.Copy` finds of a content on its way to the client. -/
structure Copied (content : GoString) where
  /-- The writer reads for itself, and has begun its answer before. -/
  direct : Bool
  /-- How much has come when the reading ends. -/
  read : Fin (content.length + 1)

inductive Asked where
  | service (c : GophProfile.Call)
  /-- A record of the handler in the log. -/
  | log (message : GoString)
  | onLimit (limiter : Limiter) (key : GoString)
  | actualRequest
  /-- The reading of an object that is copied to the client. -/
  | copyBody (content : GoString)
  /-- Whether the deadline of the request has passed. -/
  | deadlineExceeded

@[reducible] def Asked.Answer : Asked → Type
  | .service c => c.Answer
  | .log _ => Unit
  | .onLimit _ _ => Rate
  | .actualRequest => Fields corsNames
  | .copyBody content => Copied content
  | .deadlineExceeded => Bool

abbrev RouterHandler := Handler Asked Asked.Answer

/-- What a handler has done. -/
abbrev Deeds := Calls (Act Asked) (Act.Answer Asked.Answer)

/-! ### An answer -/

def isGet (method : GoString) : Bool := method = lit "GET"

/-- `http.Redirect` names a type of its own for methods whose answer has a page. -/
def contentTypeOf (method : GoString) (r : Response) : Option GoString :=
  if r.redirect.isSome ∧ r.contentType = none ∧ (isGet method ∨ method = lit "HEAD") then
    some (lit "text/html; charset=utf-8")
  else r.contentType

/-- The length of stored content and of the placeholder is told. -/
def contentLengthOf (r : Response) : Option Nat :=
  match r.body with
  | .bytes content => some content.length
  | _ => none

/-- The headers that the handlers set. -/
def headersOf (method : GoString) (r : Response) : List (GoString × GoString) :=
  ((contentTypeOf method r).map fun type => (lit "Content-Type",type)).toList ++
    ((contentLengthOf r).map fun length => (lit "Content-Length",lit (toString length))).toList ++
    (r.cacheControl.map fun rule => (lit "Cache-Control",lit rule)).toList ++
    (r.etag.map fun etag => (lit "ETag",etag)).toList ++
    (r.retryAfter.map fun seconds => (lit "Retry-After",decimal seconds)).toList ++
    (if r.fallback then [(lit "X-Avatar-Fallback",lit "true")] else []) ++
    (r.redirect.map fun target => (lit "Location",Web.location target)).toList

def setHeaders {C : Type} {A : C → Type} (headers : List (GoString × GoString)) (next : Handler C A) : Handler C A :=
  headers.foldr (fun header rest => .call (.setHeader header.1 (some header.2)) fun _ => rest) next

/-- The end of an answer of whose body the first `n` bytes have gone out: what is logged if it is not whole. -/
def finishBody (body message : GoString) (n : Nat) : RouterHandler :=
  if n = body.length then .done .returned else .call (.own (.log message)) fun _ => .done .returned

/-- A body in one write, and what is logged if the write fails. -/
def writeLogged (body message : GoString) : RouterHandler :=
  .call (.write body) fun n => finishBody body message n

/-- `responder.JSON`, the value already encoded. -/
def sendJSON (status : Nat) (body : GoString) : RouterHandler :=
  .call (.writeHeader status) fun _ => writeLogged body (lit "запись тела ответа")

/-- `Handler.render`, the page already built. -/
def render (status : Nat) (page : GoString) : RouterHandler :=
  .call (.writeHeader status) fun _ =>
    if page = [] then .done .returned else writeLogged page (lit "отправка страницы")

def contentCut : GoString := lit "отдача содержимого аватарки"

/-- The end of `serveContent`: without a status of its own, and when nothing comes, without a write
unless the writer reads for itself. -/
def copyContent (content : GoString) : RouterHandler :=
  .call (.own (.copyBody content)) fun copied =>
    if content.take copied.read = [] ∧ copied.direct = false then finishBody content contentCut 0
    else .call (.write (content.take copied.read)) fun n => finishBody content contentCut n

def sendFallback (content : GoString) : RouterHandler := writeLogged content (lit "отдача заглушки")

/-- The end of `http.Redirect`, whose failing write nobody hears of. -/
def redirect (method : GoString) (status : Nat) (target : GoString) : RouterHandler :=
  .call (.writeHeader status) fun _ =>
    if isGet method then .call (.write (Web.redirectPage target)) fun _ => .done .returned else .done .returned

def writeBody (method : GoString) (text : Body → GoString) (r : Response) : RouterHandler :=
  match r.body with
  | .bytes content => if r.fallback then sendFallback content else copyContent content
  | .empty =>
    match r.redirect with
    | some target => redirect method r.status target
    | none => .call (.writeHeader r.status) fun _ => .done .returned
  | .uploadPage _ _ _ | .galleryPage _ _ _ _ | .errorPage _ _ _ => render r.status (text r.body)
  | _ => sendJSON r.status (text r.body)

/-- An answer of a handler, written. -/
def answer (method : GoString) (text : Body → GoString) (r : Response) : RouterHandler :=
  setHeaders (headersOf method r) (writeBody method text r)

/-! ### What is written of an answer -/

/-- The whole of the body. -/
def bodyOf (method : GoString) (text : Body → GoString) (r : Response) : GoString :=
  match r.body with
  | .bytes content => content
  | .empty =>
    match r.redirect with
    | some target => if isGet method then Web.redirectPage target else []
    | none => []
  | body => text body

/-- What is logged of a body that was cut short. -/
def complaints (r : Response) : List GoString :=
  match r.body with
  | .bytes _ => [if r.fallback then lit "отдача заглушки" else contentCut]
  | .empty => []
  | .uploadPage _ _ _ | .galleryPage _ _ _ _ | .errorPage _ _ _ => [lit "отправка страницы"]
  | _ => [lit "запись тела ответа"]

def logged (message : GoString) : (c : Asked) × c.Answer := ⟨.log message,()⟩

def logOf : (c : Asked) × c.Answer → Option GoString
  | ⟨.log message,_⟩ => some message
  | _ => none

def ownAct {C : Type} {A : C → Type} (c : (c : C) × A c) : (a : Act C) × a.Answer A := ⟨.own c.1,c.2⟩

def setAct {C : Type} {A : C → Type} (header : GoString × GoString) : (a : Act C) × a.Answer A :=
  ⟨.setHeader header.1 (some header.2),()⟩

variable {method : GoString} {text : Body → GoString} {r : Response} {said : Deeds} {exit : Exit}

/-- The records of a write that took `n` bytes of a body. -/
def records (body : GoString) (n : Nat) (messages : List GoString) : Deeds :=
  if n = body.length then [] else messages.map fun message => ownAct (logged message)

/-- What is done for an answer once its headers are set. -/
inductive Written (method : GoString) (text : Body → GoString) (r : Response) : Deeds → Prop
  | unsent {content : GoString} (copied : Copied content) : r.body = .bytes content →
      Written method text r (⟨.own (.copyBody content),copied⟩ :: records content 0 (complaints r))
  | copied {content : GoString} (copied : Copied content) (n : Fin ((content.take copied.read).length + 1)) :
      r.body = .bytes content →
      Written method text r (⟨.own (.copyBody content),copied⟩ :: ⟨.write (content.take copied.read),n⟩ ::
        records content n (complaints r))
  | placeholder {content : GoString} (n : Fin (content.length + 1)) : r.body = .bytes content →
      Written method text r (⟨.write content,n⟩ :: records content n (complaints r))
  | status : bodyOf method text r = [] → Written method text r [⟨.writeHeader r.status,()⟩]
  | both {body : GoString} (n : Fin (body.length + 1)) : bodyOf method text r = body →
      Written method text r (⟨.writeHeader r.status,()⟩ :: ⟨.write body,n⟩ :: records body n (complaints r))

theorem made_setHeaders {C : Type} {A : C → Type} {headers : List (GoString × GoString)} {next : Handler C A}
    {said : Calls (Act C) (Act.Answer A)} (made : Made (setHeaders headers next) said (.done exit)) :
    ∃ rest, Made next rest (.done exit) ∧ said = headers.map setAct ++ rest := by
  induction headers generalizing said with
  | nil => exact ⟨said,made,rfl⟩
  | cons header headers ih =>
    obtain ⟨_,rest,left,rfl⟩ := made.request
    obtain ⟨last,ran,rfl⟩ := ih left
    exact ⟨last,ran,rfl⟩

/-! ### What the client gets of it -/

/-- The answer has a status of its own, and content goes out with the status that none stands for. -/
def Final (r : Response) : Prop := 200 ≤ r.status ∧ ∀ content, r.body = .bytes content → r.status = 200

theorem final_code {code : Nat} (final : 200 ≤ code) : isInformational code = false := by
  simp only [isInformational,Bool.and_eq_false_iff,decide_eq_false_iff_not]
  omega

theorem records_own {body : GoString} {n : Nat} {messages : List GoString} :
    ∀ a ∈ records body n messages, ∃ message, a = ownAct (logged message) := by
  intro a member
  rw [records] at member
  split at member
  · contradiction
  · obtain ⟨message,-,rfl⟩ := List.mem_map.mp member
    exact ⟨message,rfl⟩

theorem Written.sets (written : Written method text r said) (name : GoString) (value : Option GoString) :
    ∀ a ∈ said, a.1 ≠ .setHeader name value := by
  have recorded {body : GoString} {n : Nat} {messages : List GoString} :
      ∀ a ∈ records body n messages, a.1 ≠ .setHeader name value := by
    intro a member
    obtain ⟨message,rfl⟩ := records_own a member
    simp [ownAct]
  cases written with
  | status => simp
  | unsent copied _ => simpa using recorded
  | copied copied n _ => simpa using recorded
  | placeholder n _ => simpa using recorded
  | both n _ => simpa using recorded

/-- Own calls are nothing to the wrapped writer, and headers are not. -/
theorem after_quiet {C : Type} {A : C → Type} {acts : Calls (Act C) (Act.Answer A)}
    (quiet : ∀ a ∈ acts, (∃ c, a.1 = .own c) ∨ ∃ name value, a.1 = .setHeader name value) (ww : Wrapped) :
    ww.after (acts.map lift) = ww := by
  induction acts with
  | nil => rfl
  | cons a acts ih =>
    rw [List.forall_mem_cons] at quiet
    obtain ⟨a,result⟩ := a
    have here : ww.call (lift ⟨a,result⟩) = ww := by
      rcases quiet.1 with ⟨c,rfl⟩ | ⟨name,value,rfl⟩ <;> rfl
    rw [List.map_cons,Wrapped.after,List.foldl_cons,here]
    exact ih quiet.2

theorem records_quiet {body : GoString} {n : Nat} {messages : List GoString} :
    ∀ a ∈ records body n messages, (∃ c, a.1 = .own c) ∨ ∃ name value, a.1 = .setHeader name value := by
  intro a member
  obtain ⟨message,rfl⟩ := records_own a member
  exact .inl ⟨_,rfl⟩

theorem told_append {C : Type} {A : C → Type} (conn : Conn) (first second : Calls (Act C) (Act.Answer A)) :
    conn.told (first ++ second) = (conn.told first).told second := List.foldl_append

theorem told_own {C : Type} {A : C → Type} (conn : Conn) (calls : Calls C A) : conn.told (calls.map ownAct) = conn := by
  induction calls with
  | nil => rfl
  | cons c calls ih => exact ih

theorem saidOwn_own {C : Type} {A : C → Type} (calls : Calls C A) :
    (calls.map ownAct : Calls (Act C) (Act.Answer A)).filterMap saidOwn = calls := by
  induction calls with
  | nil => rfl
  | cons c calls ih => exact congrArg (List.cons c) ih

theorem writeHeader_body (conn : Conn) (code : Nat) : (conn.writeHeader code).body = conn.body := by
  unfold Conn.writeHeader
  split <;> rfl

theorem records_told (conn : Conn) (body : GoString) (n : Nat) (messages : List GoString) :
    conn.told (records body n messages) = conn := by
  rw [records]
  split
  · rfl
  · have own : (messages.map fun message => ownAct (logged message)) = (messages.map logged).map ownAct := by
      rw [List.map_map]
      rfl
    rw [own]
    exact told_own conn _

/-- The wrapped writer has the status of the answer, unless none of its content was written. -/
theorem Written.wrapped (written : Written method text r said) (final : Final r) :
    ((∃ content, r.body = .bytes content) ∧ Wrapped.new.after (said.map lift) = .new ∧
        ∀ conn : Conn, (conn.told said).body = conn.body) ∨
      (Wrapped.new.after (said.map lift)).wroteHeader = true ∧
        (Wrapped.new.after (said.map lift)).status = r.status := by
  have first : Wrapped.new.writeHeader r.status = ⟨r.status,true,0⟩ := by
    rw [Wrapped.writeHeader,final_code final.1]
    rfl
  have quiet (body : GoString) (n : Nat) (ww : Wrapped) :
      ww.after ((records body n (complaints r)).map lift) = ww := after_quiet records_quiet ww
  cases written with
  | @unsent content copied stored =>
    exact .inl ⟨⟨content,stored⟩,quiet content 0 .new,fun conn => congrArg Conn.body (records_told conn content 0 _)⟩
  | @copied content copied n stored =>
    have whole : Wrapped.new.after ((⟨.own (.copyBody content),copied⟩ :: ⟨.write (content.take copied.read),n⟩ ::
        records content n (complaints r) : Deeds).map lift) = (Wrapped.new.writeHeader 200).wrote n.val :=
      quiet content n _
    rw [whole,final.2 content stored]
    exact .inr ⟨rfl,rfl⟩
  | @placeholder content n stored =>
    have whole : Wrapped.new.after ((⟨.write content,n⟩ :: records content n (complaints r) : Deeds).map lift) =
        (Wrapped.new.writeHeader 200).wrote n.val := quiet content n _
    rw [whole,final.2 content stored]
    exact .inr ⟨rfl,rfl⟩
  | status _ =>
    have after : Wrapped.new.after (([⟨.writeHeader r.status,()⟩] : Deeds).map lift) = ⟨r.status,true,0⟩ := first
    rw [after]
    exact .inr ⟨rfl,rfl⟩
  | @both body n _ =>
    have whole : Wrapped.new.after ((⟨.writeHeader r.status,()⟩ :: ⟨.write body,n⟩ ::
        records body n (complaints r) : Deeds).map lift) =
          ((Wrapped.new.writeHeader r.status).writeHeader 200).wrote n.val := quiet body n _
    rw [whole,first]
    exact .inr ⟨rfl,rfl⟩

theorem logged_texts (messages : List GoString) : (messages.map logged).filterMap logOf = messages := by
  induction messages with
  | nil => rfl
  | cons message messages ih => exact congrArg (List.cons message) ih

/-- The calls of its own that an answer makes: it reads what is copied, and logs. -/
theorem Written.own (written : Written method text r said) : ∀ c ∈ said.filterMap saidOwn,
    (∃ message, c = logged message) ∨ ∃ content copied, c = ⟨.copyBody content,copied⟩ := by
  have recorded {body : GoString} {n : Nat} :
      ∀ c ∈ (records body n (complaints r)).filterMap saidOwn, ∃ message, c = logged message := by
    intro c member
    obtain ⟨a,inside,said⟩ := List.mem_filterMap.mp member
    obtain ⟨message,rfl⟩ := records_own a inside
    cases said
    exact ⟨message,rfl⟩
  intro c member
  cases written with
  | status => contradiction
  | placeholder n _ => exact .inl (recorded c member)
  | both n _ => exact .inl (recorded c member)
  | unsent copied _ | copied copied n _ =>
    rcases List.mem_cons.mp member with rfl | later
    · exact .inr ⟨_,copied,rfl⟩
    · exact .inl (recorded c later)

/-- A write cut short leaves a beginning of the body, and is told in the log. -/
theorem records_taken (body : GoString) {n : Nat} (bound : n ≤ body.length) (messages : List GoString) :
    ((records body n messages).filterMap saidOwn).filterMap logOf = if body.take n = body then [] else messages := by
  rw [records]
  by_cases whole : n = body.length
  · rw [if_pos whole,if_pos (List.take_of_length_le whole.ge)]
    rfl
  · have short : body.take n ≠ body := by
      intro same
      have length := congrArg List.length same
      rw [List.length_take] at length
      omega
    have own : (messages.map fun message => ownAct (logged message)) = (messages.map logged).map ownAct := by
      rw [List.map_map]
      rfl
    rw [if_neg whole,if_neg short,own,saidOwn_own,logged_texts]

/-- The client gets the body or a beginning of it, and then the log has a record of that. -/
theorem Written.told (written : Written method text r said) (conn : Conn) :
    ∃ taken, (conn.told said).body = conn.body ++ taken ∧ taken <+: bodyOf method text r ∧
      (said.filterMap saidOwn).filterMap logOf = if taken = bodyOf method text r then [] else complaints r := by
  have write (conn' : Conn) (body whole : GoString) (n : Fin (body.length + 1)) :
      ((conn'.write (body.take n)).told (records whole n (complaints r))).body = conn'.body ++ body.take n := by
    rw [records_told,Conn.write]
  cases written with
  | @unsent content copied stored =>
    have whole : bodyOf method text r = content := by rw [bodyOf,stored]
    rw [whole]
    refine ⟨[],?_,List.nil_prefix,records_taken content (Nat.zero_le _) _⟩
    rw [List.append_nil]
    exact congrArg Conn.body (records_told conn content 0 _)
  | @copied content copied n stored =>
    have whole : bodyOf method text r = content := by rw [bodyOf,stored]
    have bound : n.val ≤ copied.read.val ∧ n.val ≤ content.length := by
      have fits : n.val ≤ min copied.read.val content.length :=
        (Nat.le_of_lt_succ n.isLt).trans List.length_take.le
      omega
    have taken : (content.take copied.read).take n = content.take n := by
      rw [List.take_take,Nat.min_eq_left bound.1]
    rw [whole]
    refine ⟨content.take n,?_,List.take_prefix _ _,records_taken content bound.2 _⟩
    rw [← taken]
    exact write conn (content.take copied.read) content n
  | @placeholder content n stored =>
    have whole : bodyOf method text r = content := by rw [bodyOf,stored]
    rw [whole]
    exact ⟨content.take n,write conn content content n,List.take_prefix _ _,
      records_taken content (Nat.le_of_lt_succ n.isLt) _⟩
  | status blank =>
    rw [blank]
    exact ⟨[],(writeHeader_body conn r.status).trans (List.append_nil _).symm,List.nil_prefix,rfl⟩
  | @both body n same =>
    rw [same]
    refine ⟨body.take n,?_,List.take_prefix _ _,records_taken body (Nat.le_of_lt_succ n.isLt) _⟩
    rw [← writeHeader_body conn r.status]
    exact write (conn.writeHeader r.status) body body n

/-! ### The headers of an answer -/

def headerNames : List GoString :=
  [lit "Content-Type",lit "Content-Length",lit "Cache-Control",lit "ETag",lit "Retry-After",lit "X-Avatar-Fallback",
    lit "Location"]

theorem option_sublist {α : Type} (o : Option α) (name : GoString) (value : α → GoString) :
    ((o.map fun x => (name,value x)).toList.map Prod.fst).Sublist [name] := by
  cases o with
  | none => exact List.nil_sublist _
  | some x => exact List.Sublist.refl _

theorem headersOf_names (method : GoString) (r : Response) :
    ((headersOf method r).map Prod.fst).Sublist headerNames := by
  have marked : ((if r.fallback then [(lit "X-Avatar-Fallback",lit "true")] else []).map Prod.fst).Sublist
      [lit "X-Avatar-Fallback"] := by
    split
    · exact List.Sublist.refl _
    · exact List.nil_sublist _
  rw [headersOf]
  simp only [List.map_append]
  exact ((((((option_sublist _ _ _).append (option_sublist _ _ _)).append (option_sublist _ _ _)).append
    (option_sublist _ _ _)).append (option_sublist _ _ _)).append marked).append (option_sublist _ _ _)

theorem headersOf_distinct (method : GoString) (r : Response) : ((headersOf method r).map Prod.fst).Nodup :=
  (headersOf_names method r).nodup (by decide)

/-- The headers that are set one after the other are all there in the end. -/
theorem carries_set {C : Type} {A : C → Type} {headers : List (GoString × GoString)}
    (distinct : (headers.map Prod.fst).Nodup) {header : GoString × GoString} (member : header ∈ headers) {conn : Conn}
    (unsent : conn.sent = none) : Carries header (conn.told (headers.map setAct : Calls (Act C) (Act.Answer A))) := by
  induction headers generalizing conn with
  | nil => contradiction
  | cons first headers ih =>
    rw [List.map_cons,List.nodup_cons] at distinct
    rcases List.mem_cons.mp member with rfl | later
    · have here : Carries header (conn.setHeader header.1 (some header.2)) := by
        refine ⟨Function.update_self _ _ _,?_⟩
        intro sent begun
        rw [Conn.setHeader,unsent] at begun
        contradiction
      refine here.told ?_
      intro a set value same
      obtain ⟨other,inside,rfl⟩ := List.mem_map.mp set
      have names : other.1 = header.1 := (Act.setHeader.inj same).1
      exact distinct.1 (names ▸ List.mem_map_of_mem inside)
    · exact ih distinct.2 later unsent

end GophProfile.Middleware

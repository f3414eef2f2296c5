import GophProfile.Requests

/-! What the client of a request gets and what the log says of it. -/
namespace GophProfile.Middleware

open Effect

variable {C : Type} {A : C → Type} {writer : WrapResponseWriter A}

/-! ### What a handler tells -/

/-- The wrapped writer and the answer agree on what was told. -/
structure Agree (ww : Wrapped) (conn : Conn) : Prop where
  sent : conn.sent.map Prod.fst = if ww.wroteHeader then some ww.status else none
  length : conn.body.length = ww.bytesWritten

theorem Agree.writeHeader {ww : Wrapped} {conn : Conn} (agree : Agree ww conn) (code : Nat) :
    Agree (ww.writeHeader code) (conn.writeHeader code) := by
  obtain ⟨sent,length⟩ := agree
  unfold Wrapped.writeHeader Conn.writeHeader
  cases wrote : ww.wroteHeader with
  | true =>
    rw [wrote,if_pos rfl] at sent
    have begun : conn.sent.isSome = true := by
      rw [← Option.isSome_map (f := Prod.fst),sent]
      rfl
    simp only [Bool.or_true,begun,if_true]
    exact ⟨by rw [sent,wrote,if_pos rfl],length⟩
  | false =>
    rw [wrote] at sent
    have waiting : conn.sent = none := by simpa using sent
    rw [waiting]
    by_cases informs : isInformational code = true
    · simp only [informs,Bool.true_or,if_true]
      exact ⟨by simp [waiting,wrote],length⟩
    · simp only [informs,Bool.or_self,Option.isSome_none,Bool.false_eq_true,if_false]
      exact ⟨rfl,length⟩

theorem Agree.act {ww : Wrapped} {conn : Conn} (agree : Agree ww conn) (a : (a : Act C) × a.Answer A) :
    Agree (ww.call (lift a)) (conn.act a.1 a.2) := by
  obtain ⟨a,answer⟩ := a
  cases a with
  | own c => exact agree
  | setHeader name value => exact ⟨agree.sent,agree.length⟩
  | writeHeader code => exact agree.writeHeader code
  | write body =>
    have begun := agree.writeHeader 200
    refine ⟨begun.sent,?_⟩
    have same : (conn.writeHeader 200).body = conn.body := by
      unfold Conn.writeHeader
      split <;> rfl
    have kept : (ww.writeHeader 200).bytesWritten = ww.bytesWritten := by
      unfold Wrapped.writeHeader
      split <;> rfl
    have bound := answer.isLt
    have sizes := agree.length
    change (conn.body ++ body.take answer.val).length = (ww.writeHeader 200).bytesWritten + answer.val
    rw [kept,List.length_append,List.length_take]
    omega

theorem Agree.told {ww : Wrapped} {conn : Conn} (agree : Agree ww conn) (said : Calls (Act C) (Act.Answer A)) :
    Agree (ww.after (said.map lift)) (conn.told said) := by
  induction said generalizing ww conn with
  | nil => exact agree
  | cons a said ih => exact ih (agree.act a)

theorem Course.agree (course : Course C A) : Agree course.written course.answer :=
  Agree.told ⟨rfl,rfl⟩ course.said

/-- As long as no status is written, none is kept. -/
theorem unwritten_after (ww : Wrapped) (calls : Calls (Call C) (Call.Answer A))
    (blank : ww.wroteHeader = false → ww.status = 0) :
    (ww.after calls).wroteHeader = false → (ww.after calls).status = 0 := by
  induction calls generalizing ww with
  | nil => exact blank
  | cons c calls ih =>
    have kept : ∀ code, (ww.writeHeader code).wroteHeader = false → (ww.writeHeader code).status = 0 := by
      intro code
      unfold Wrapped.writeHeader
      split
      · exact blank
      · intro wrote
        contradiction
    obtain ⟨c,answer⟩ := c
    rcases call_shape c with ⟨code,rfl⟩ | ⟨body,rfl⟩ | ⟨plain,quiet⟩
    · exact ih (ww.writeHeader code) (kept code)
    · exact ih ((ww.writeHeader 200).wrote answer.val) (kept 200)
    · have same : ww.after (⟨c,answer⟩ :: calls) = ww.after calls := by
        rw [Wrapped.after,List.foldl_cons,call_other plain quiet]
        rfl
      rw [same]
      exact ih ww blank

/-! ### The headers of every answer -/

/-- The headers of the answer, those it was sent with or those it will be. -/
def Conn.sentHeaders (conn : Conn) : GoString → Option GoString := (conn.sent.map Prod.snd).getD conn.headers

/-- The header is set, and set in what is sent. -/
def Carries (header : GoString × GoString) (conn : Conn) : Prop :=
  conn.headers header.1 = some header.2 ∧ ∀ sent ∈ conn.sent, sent.2 header.1 = some header.2

variable {header : GoString × GoString} {conn : Conn}

theorem Carries.sent (carries : Carries header conn) : conn.sentHeaders header.1 = some header.2 := by
  rw [Conn.sentHeaders]
  cases sent : conn.sent with
  | none => exact carries.1
  | some before => exact carries.2 before sent

theorem Carries.writeHeader (carries : Carries header conn) (code : Nat) : Carries header (conn.writeHeader code) := by
  unfold Conn.writeHeader
  split
  · exact carries
  · refine ⟨carries.1,?_⟩
    rintro sent ⟨⟩
    exact carries.1

theorem Carries.setHeader (carries : Carries header conn) {name : GoString} (other : header.1 ≠ name)
    (value : Option GoString) : Carries header (conn.setHeader name value) :=
  ⟨(Function.update_of_ne other _ _).trans carries.1,carries.2⟩

theorem Carries.write (carries : Carries header conn) (body : GoString) : Carries header (conn.write body) :=
  carries.writeHeader 200

theorem Carries.told (carries : Carries header conn) {said : Calls (Act C) (Act.Answer A)}
    (leaves : ∀ a ∈ said, ∀ value, a.1 ≠ .setHeader header.1 value) : Carries header (conn.told said) := by
  induction said generalizing conn with
  | nil => exact carries
  | cons a said ih =>
    refine ih ?_ fun b member => leaves b (List.mem_cons_of_mem _ member)
    have here := leaves a List.mem_cons_self
    obtain ⟨a,answer⟩ := a
    cases a with
    | own c => exact carries
    | setHeader name value =>
      refine carries.setHeader ?_ value
      intro same
      exact here value (by rw [same])
    | writeHeader code => exact carries.writeHeader code
    | write body => exact carries.write _

theorem carries_secured (member : header ∈ securityHeaderValues) :
    Carries header (Conn.fresh.after (secured : Calls (Call C) (Call.Answer A))) := by
  refine ⟨?_,fun sent here => by contradiction⟩
  simp only [securityHeaderValues,List.mem_cons,List.not_mem_nil,or_false] at member
  rcases member with rfl | rfl | rfl <;> rfl

theorem contentType_apart (member : header ∈ securityHeaderValues) : header.1 ≠ lit "Content-Type" := by
  revert member
  revert header
  decide

/-! ### The answer of a request -/

/-- The handler has panicked with something to report. -/
def Exit.failed : Exit → Bool
  | .panicked (.value _) => true
  | _ => false

/-- How the answer of a request comes from the course it went. -/
structure Answered (course : Course C A) (conn : Conn) : Prop where
  /-- A status that the handler wrote stands, whatever came later. -/
  status : conn.status = if course.written.wroteHeader then course.written.status
    else if course.exit.failed then 500 else 200
  body : conn.body = course.answer.body ++ if course.exit.failed then internalError.take course.taken else []
  /-- The log says what the handler wrote, and 0 for no status. -/
  logged : course.written.bytesWritten = course.answer.body.length ∧
    (course.written.wroteHeader = false → course.written.status = 0)
  headers : ∀ header ∈ securityHeaderValues, (∀ a ∈ course.said, ∀ value, a.1 ≠ .setHeader header.1 value) →
    conn.sentHeaders header.1 = some header.2

theorem status_told (course : Course C A) : course.answer.status =
    if course.written.wroteHeader then course.written.status else 200 := by
  rw [Conn.status,course.agree.sent]
  split <;> rfl

theorem failed_reply {course : Course C A} (failed : course.exit.failed = true) :
    course.reply = ((course.answer.setHeader (lit "Content-Type")
      (some (lit "application/json; charset=utf-8"))).writeHeader 500).write (internalError.take course.taken) := by
  rw [Course.reply]
  rcases ended : course.exit with _ | _ | text
  · rw [ended] at failed
    contradiction
  · rw [ended] at failed
    contradiction
  · rfl

theorem plain_reply {course : Course C A} (plain : course.exit.failed = false) : course.reply = course.answer := by
  rw [Course.reply]
  rcases ended : course.exit with _ | _ | text
  · rfl
  · rfl
  · rw [ended] at plain
    contradiction

theorem write_status (conn : Conn) (code : Nat) (final : isInformational code = false) (body : GoString) :
    ((conn.writeHeader code).write body).status = if conn.sent.isSome then conn.status else code := by
  unfold Conn.write Conn.writeHeader Conn.status
  cases sent : conn.sent with
  | none => simp [final]
  | some before => simp [sent]

theorem write_body (conn : Conn) (code : Nat) (body : GoString) :
    ((conn.writeHeader code).write body).body = conn.body ++ body := by
  have same : (conn.writeHeader code).body = conn.body := by
    unfold Conn.writeHeader
    split <;> rfl
  rw [← same]
  rfl

theorem answered (course : Course C A) : Answered course course.reply := by
  have begun : course.answer.sent.isSome = course.written.wroteHeader := by
    rw [← Option.isSome_map (f := Prod.fst),course.agree.sent]
    cases course.written.wroteHeader <;> rfl
  refine ⟨?_,?_,⟨course.agree.length.symm,unwritten_after .new _ fun _ => rfl⟩,?_⟩
  · cases failed : course.exit.failed with
    | false => simpa [plain_reply failed] using status_told course
    | true =>
      rw [failed_reply failed,write_status _ 500 rfl]
      have told := status_told course
      have kept : (course.answer.setHeader (lit "Content-Type")
          (some (lit "application/json; charset=utf-8"))).status = course.answer.status := rfl
      rw [kept,told,if_pos rfl]
      have asked : (course.answer.setHeader (lit "Content-Type")
          (some (lit "application/json; charset=utf-8"))).sent.isSome = course.written.wroteHeader := begun
      rw [asked]
      cases course.written.wroteHeader <;> rfl
  · cases failed : course.exit.failed with
    | false => simp [plain_reply failed]
    | true =>
      rw [failed_reply failed,write_body,if_pos rfl]
      rfl
  · intro header member leaves
    have carries : Carries header course.answer := (carries_secured member).told leaves
    cases failed : course.exit.failed with
    | false =>
      rw [plain_reply failed]
      exact carries.sent
    | true =>
      rw [failed_reply failed]
      exact (((carries.setHeader (contentType_apart member) _).writeHeader 500).write _).sent

variable {trace : Machine.Trace (Call C) (Call.Answer A) Exit World (Arrival C A) ((c : Call C) → c.Answer A) Unit}
  {s : Pool (Call C) (Call.Answer A) (Program A Exit) World}

/-- Whatever the other requests do meanwhile, a request that is over went a course of its
handler: the middleware has made the handler's own calls and no others, the client has what
the handler told, and a panic is answered, or passed on, as its value asks for. -/
theorem answers_follow (run : Transition.Path (server writer).step (Pool.initial .fresh) trace s)
    (uncrashed : ∀ entry ∈ trace, ∀ slot, entry.2.1 ≠ .crash slot) {slot : Nat} {arrival : Arrival C A} {exit : Exit}
    (arrived : (slot,arrival) ∈ Machine.started trace) (ended : s.procs slot = some (.done exit)) :
    ∃ course : Course C A, Made arrival.handler course.said (.done course.exit) ∧ exit = course.exit.recovered ∧
      Report arrival.request course (s.calls slot) ∧ Answered course (Conn.fresh.after (s.calls slot)) := by
  obtain ⟨p,running,made⟩ := (Machine.recorded rfl run uncrashed).running slot arrival arrived
  cases running.symm.trans ended
  obtain ⟨course,ran,left,report⟩ := chain_report made
  exact ⟨course,ran,left,report,report.reply ▸ answered course⟩

theorem answers_follow_panic : ∃ trace s,
    Transition.Path sampleServer.step (Pool.initial .fresh) trace s ∧
      (Conn.fresh.after (s.calls 0)).status = 500 := by
  obtain ⟨trace,s,path,calm,through,begun⟩ := exists_sample
  have ended : s.procs 0 = some (.done .returned) := by
    unfold sampleOver at through
    split at through
    · next zero _ => exact zero
    · contradiction
  obtain ⟨course,ran,-,-,answered⟩ := answers_follow path calm (begun ▸ List.mem_cons_self) ended
  obtain ⟨silent,left⟩ := Made.done ran
  have exit : course.exit = .panicked (.value (lit "nil map")) := by
    injection left
  refine ⟨trace,s,path,?_⟩
  rw [answered.status,exit,Course.written,silent]
  rfl

end GophProfile.Middleware

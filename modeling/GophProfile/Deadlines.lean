import GophProfile.Breakers

/-! The condition on deadlines is exact: a guarded call that outlasts the deadline of its request is
counted as a failure of its dependency, whichever request makes it and whatever the dependency does. -/
namespace GophProfile

open Domain Effect

/-- The deadline of the context passed before the call was answered. -/
inductive Expired : (c : Call) → c.Answer → Prop
  | failed {c : Call} {answer : c.Answer} : c.guarded = true → World.failed c .deadlineExceeded = some answer →
    Expired c answer
  | unconfirmed (event : AvatarUploadEvent) : Expired (.publishUpload event) (.ok (.waitFailed .deadlineExceeded))

theorem expired_of_late {c : Call} {choice : Choice} {w w' : World} {answer : c.Answer} (guarded : c.guarded = true)
    (late : choice.late = true) (done : World.perform c choice w = some (answer,w')) : Expired c answer := by
  cases choice with
  | ok pick =>
    cases pick with
    | confirmation confirmation queued =>
      cases confirmation with
      | waitFailed err =>
        obtain rfl : err = .deadlineExceeded := by simpa [Choice.late] using late
        cases c <;> try contradiction
        simp only [World.perform,World.effect] at done
        split at done
        · contradiction
        · cases done
          exact .unconfirmed _
      | _ => contradiction
    | _ => contradiction
  | fail took pick err =>
    obtain rfl : err = .deadlineExceeded := by simpa [Choice.late] using late
    simp only [World.perform] at done
    split at done
    · obtain ⟨refusal,refused,rest⟩ := Option.bind_eq_some_iff.mp done
      have same : answer = refusal := by
        cases took with
        | true =>
          obtain ⟨_,_,equal⟩ := Option.map_eq_some_iff.mp rest
          exact (Prod.mk.inj equal).1.symm
        | false => exact (Prod.mk.inj (Option.some.inj rest)).1.symm
      exact .failed guarded (same ▸ refused)
    · contradiction

/-- An untimely step of the server answers a guarded call too late. -/
theorem untimely_step {P : Packages} {cfg : Config} {s s' : Server} {slot : Nat} {choice : Choice}
    (taken : (server P cfg).step s (.advance slot choice) = some s')
    (untimely : s.timely (.advance slot choice) = false) :
    ∃ (c : Call) (answer : c.Answer), s'.log = s.log ++ [(slot,⟨c,answer⟩)] ∧ Expired c answer := by
  obtain ⟨t,c,next,answer,w,running,seen,done,rfl⟩ := Machine.step_advance taken
  cases t with
  | done response => contradiction
  | call c' next' =>
    cases seen
    simp only [Server.timely,running,Bool.not_eq_false',Bool.and_eq_true] at untimely
    exact ⟨c,answer,rfl,expired_of_late untimely.1 untimely.2 done⟩

/-- Among the calls is one that outlasted its request. -/
def Delayed (calls : Called) : Prop := ∃ call ∈ calls, Expired call.1 call.2

/-- A failure of one of the dependencies is counted. -/
def Counted (calls : Called) : Prop := ∃ d, ⟨.report d .failure,()⟩ ∈ calls

theorem Delayed.append {first second : Called} (delayed : Delayed (first ++ second)) :
    Delayed first ∨ Delayed second := by
  obtain ⟨call,member,expired⟩ := delayed
  rcases List.mem_append.mp member with before | after
  · exact .inl ⟨call,before,expired⟩
  · exact .inr ⟨call,after,expired⟩

theorem not_delayed_nil : ¬Delayed [] := fun ⟨_,member,_⟩ => by contradiction

theorem delayed_cons {call : (c : Call) × c.Answer} {calls : Called} (prompt : ¬Expired call.1 call.2)
    (delayed : Delayed (call :: calls)) : Delayed calls := by
  obtain ⟨other,member,expired⟩ := delayed
  rcases List.mem_cons.mp member with rfl | later
  · exact absurd expired prompt
  · exact ⟨other,later,expired⟩

theorem Expired.guarded {c : Call} {answer : c.Answer} (expired : Expired c answer) : c.guarded = true := by
  cases expired with
  | failed guarded _ => exact guarded
  | unconfirmed event => rfl

/-- No answer to the call comes too late for a breaker. -/
theorem not_expired {c : Call} (direct : c.guarded = false) (answer : c.Answer) : ¬Expired c answer := by
  intro expired
  rw [expired.guarded] at direct
  contradiction

/-! ### Programs that count what is late -/

variable {α β : Type}

/-- Whatever the answers are, when a guarded call is late a failure is counted. -/
abbrev CountsLate (p : Prog α) : Prop := Ends (fun _ _ => True) p fun calls _ => Delayed calls → Counted calls

/-- What runs under the breaker of a dependency ends, when a call is late, with an error that the
breaker counts. -/
abbrev FailsLate (d : Dependency) (p : Prog (Except Err α)) : Prop :=
  Ends (fun _ _ => True) p fun calls result =>
    Delayed calls → (breakerOf d).classify (result.map fun _ => ()) = .failure

theorem countsLate_done (value : α) : CountsLate (.done value : Prog α) := fun delayed => absurd delayed not_delayed_nil

theorem CountsLate.bind {p : Prog α} {f : α → Prog β} (first : CountsLate p) (rest : ∀ value, CountsLate (f value)) :
    CountsLate (p >>= f) := by
  refine Ends.bind (first.mono fun calls value counts => (rest value).mono fun more result countsMore delayed => ?_)
  rcases delayed.append with before | after
  · obtain ⟨d,member⟩ := counts before
    exact ⟨d,List.mem_append_left _ member⟩
  · obtain ⟨d,member⟩ := countsMore after
    exact ⟨d,List.mem_append_right _ member⟩

theorem countsLate_ask {c : Call} (direct : c.guarded = false) : CountsLate (ask c) :=
  fun answer _ delayed => absurd (delayed_cons (not_expired direct answer) delayed) not_delayed_nil

/-- The breaker counts what its closure fails with. -/
theorem countsLate_call {d : Dependency} {fn : Prog (Except Err α)} (inner : FailsLate d fn) :
    CountsLate (Breaker.call (some (breakerOf d)) fn) := by
  have rejected : ∀ reason, CountsLate (Breaker.call.rejected (α := α) (breakerOf d) reason) := fun reason =>
    CountsLate.bind (countsLate_ask rfl) fun _ => countsLate_done _
  have executed : CountsLate ((breakerOf d).execute fn) := by
    intro admission _
    have unguarded : ¬Expired (.allow (breakerOf d).dependency) admission := not_expired rfl admission
    cases admission with
    | error err => exact fun delayed => absurd (delayed_cons unguarded delayed) not_delayed_nil
    | ok admitted =>
      have reported : Ends (fun _ _ => True)
          (fn >>= fun result => ask (.report (breakerOf d).dependency
            ((breakerOf d).classify (result.map fun _ => ()))) >>= fun _ => pure result)
          fun calls _ => Delayed (⟨.allow (breakerOf d).dependency,.ok admitted⟩ :: calls) →
            Counted (⟨.allow (breakerOf d).dependency,.ok admitted⟩ :: calls) := by
        refine Ends.bind (inner.mono fun calls result fails => ?_)
        intro _ _ delayed
        rcases (delayed_cons unguarded delayed).append with inside | after
        · refine ⟨(breakerOf d).dependency,List.mem_cons_of_mem _ (List.mem_append_right _ ?_)⟩
          rw [fails inside]
          exact List.mem_singleton.mpr rfl
        · exact absurd (delayed_cons (not_expired rfl _) after) not_delayed_nil
      exact reported
  refine executed.bind fun result => ?_
  cases result with
  | ok value => exact countsLate_done _
  | error err =>
    simp only
    split
    · exact rejected _
    · split
      · exact rejected _
      · exact countsLate_done _

theorem deadline_counted (d : Dependency) : (breakerOf d).classify (.error .deadlineExceeded) = .failure := by
  cases d <;> decide

/-- One statement or request whose late answer is wrapped. -/
theorem failsLate_result {d : Dependency} {c : Call} {result : c.Answer → Except Err α}
    (wrapped : ∀ answer, Expired c answer →
      ∃ format args, result answer = .error (.errorf format args .deadlineExceeded)) :
    FailsLate d (do return result (← ask c)) := by
  intro answer _ delayed
  obtain ⟨call,member,expired⟩ := delayed
  obtain rfl := List.mem_singleton.mp member
  obtain ⟨format,args,same⟩ := wrapped answer expired
  rw [same]
  exact (classify_errorf d format args _).trans (deadline_counted d)

/-! ### The operations of the server -/

theorem countsLate_create (a : Avatar) : CountsLate (guardedService.repo.create a) := by
  refine countsLate_call (d := .postgres) (failsLate_result fun answer expired => ?_)
  obtain ⟨-,⟨⟩⟩ := expired
  exact ⟨_,_,rfl⟩

theorem countsLate_getByID (id : UUID) : CountsLate (guardedService.repo.getByID id) := by
  refine countsLate_call (d := .postgres) (failsLate_result fun answer expired => ?_)
  obtain ⟨-,⟨⟩⟩ := expired
  exact ⟨_,_,rfl⟩

theorem countsLate_getCurrent (userID : GoString) : CountsLate (guardedService.repo.getCurrentByUserID userID) := by
  refine countsLate_call (d := .postgres) (failsLate_result fun answer expired => ?_)
  obtain ⟨-,⟨⟩⟩ := expired
  exact ⟨_,_,rfl⟩

theorem countsLate_listByUserID (userID : GoString) : CountsLate (guardedService.repo.listByUserID userID) := by
  refine countsLate_call (d := .postgres) (failsLate_result fun answer expired => ?_)
  obtain ⟨-,⟨⟩⟩ := expired
  exact ⟨_,_,rfl⟩

theorem failsLate_done {d : Dependency} (result : Except Err α) : FailsLate d (.done result) :=
  fun delayed => absurd delayed not_delayed_nil

/-- The second statement of a deletion asks why the first has matched no row. -/
theorem failsLate_conflict (id : UUID) (userID : GoString) : FailsLate .postgres (do
    return (.error (← Postgres.deleteConflict id userID) : Except Err (List GoString))) := by
  have asked : FailsLate .postgres (do
      return (.error (Postgres.conflictError id userID (← ask (.selectOwner id))) : Except Err (List GoString))) := by
    refine failsLate_result fun answer expired => ?_
    obtain ⟨-,⟨⟩⟩ := expired
    exact ⟨_,_,rfl⟩
  exact asked

theorem countsLate_softDelete (id : UUID) (userID : GoString) :
    CountsLate (guardedService.repo.softDelete id userID) := by
  refine countsLate_call (d := .postgres) ?_
  intro answer _
  rcases answer with err | ⟨s3Key,thumbs⟩
  · simp only [bind_eq,done_bind]
    split
    · next absent =>
      have prompt : ¬Expired (.updateDeleted id userID) (.error err) := by
        rintro ⟨-,⟨⟩⟩
        contradiction
      exact (failsLate_conflict id userID).mono fun calls result fails delayed => fails (delayed_cons prompt delayed)
    · rintro ⟨call,member,expired⟩
      obtain rfl := List.mem_singleton.mp member
      obtain ⟨-,⟨⟩⟩ := expired
      exact (classify_errorf ..).trans (deadline_counted _)
  · have prompt : ¬Expired (.updateDeleted id userID) (.ok (s3Key,thumbs)) := by rintro ⟨-,⟨⟩⟩
    simp only [bind_eq,done_bind]
    split
    · exact fun delayed => absurd (delayed_cons prompt delayed) not_delayed_nil
    · intro order _ delayed
      exact absurd (delayed_cons (not_expired rfl order) (delayed_cons prompt delayed)) not_delayed_nil

theorem countsLate_put (key : GoString) (object : Object) : CountsLate (guardedService.storage.put key object) := by
  refine countsLate_call (d := .s3) ?_
  unfold S3.put
  split
  · exact failsLate_done _
  · refine failsLate_result fun answer expired => ?_
    obtain ⟨-,⟨⟩⟩ := expired
    exact ⟨_,_,rfl⟩

theorem countsLate_get (key : GoString) : CountsLate (guardedService.storage.get key) := by
  refine countsLate_call (d := .s3) ?_
  unfold S3.get
  split
  · exact failsLate_done _
  · refine failsLate_result fun answer expired => ?_
    obtain ⟨-,⟨⟩⟩ := expired
    exact ⟨_,_,rfl⟩

theorem countsLate_delete (key : GoString) : CountsLate (guardedService.storage.delete key) := by
  refine countsLate_call (d := .s3) ?_
  unfold S3.delete
  split
  · exact failsLate_done _
  · refine failsLate_result fun answer expired => ?_
    obtain ⟨-,⟨⟩⟩ := expired
    exact ⟨_,_,rfl⟩

theorem countsLate_publishUpload (event : AvatarUploadEvent) :
    CountsLate (guardedService.publisher.publishUpload event) := by
  refine countsLate_call (d := .rabbitmq) (failsLate_result fun answer expired => ?_)
  cases expired with
  | failed _ refused =>
    cases refused
    exact ⟨_,_,rfl⟩
  | unconfirmed => exact ⟨_,_,rfl⟩

/-! ### The service and the handlers -/

/-- One operation and what is done after it. -/
theorem countsLate_then {p : Prog (Except Err α)} {f : Except Err α → Prog β} (first : CountsLate p)
    (failed : ∀ err, CountsLate (f (.error err))) (done : ∀ value, CountsLate (f (.ok value))) :
    CountsLate (p >>= f) := by
  refine first.bind fun result => ?_
  cases result with
  | ok value => exact done value
  | error err => exact failed err

theorem countsLate_upload (input : UploadInput) : CountsLate (guardedService.upload input) := by
  unfold AvatarService.upload
  split
  · exact countsLate_done _
  · refine (countsLate_ask rfl).bind fun id => ?_
    refine countsLate_then (countsLate_put _ _) (fun _ => countsLate_done _) fun _ => ?_
    refine countsLate_then (countsLate_create _) (fun _ => ?_) fun avatar => ?_
    · exact ((countsLate_delete _).bind fun _ => countsLate_done _).bind fun _ => countsLate_done _
    · exact (countsLate_publishUpload _).bind fun _ => countsLate_done _

theorem countsLate_openContent (a : Avatar) (size : GoString) : CountsLate (guardedService.openContent a size) := by
  refine (countsLate_get _).bind fun first => ?_
  unfold AvatarService.openOr
  split
  · exact countsLate_done _
  · split
    · exact countsLate_then (countsLate_get _) (fun _ => countsLate_done _) fun _ => countsLate_done _
    · exact countsLate_done _

theorem countsLate_currentMetadata (userID : GoString) : CountsLate (guardedService.currentMetadata userID) := by
  unfold AvatarService.currentMetadata
  split
  · exact countsLate_done _
  · exact countsLate_getCurrent userID

theorem countsLate_list (userID : GoString) : CountsLate (guardedService.list userID) := by
  unfold AvatarService.list
  split
  · exact countsLate_done _
  · exact countsLate_listByUserID userID

theorem countsLate_deleteAvatar (id : UUID) (userID : GoString) : CountsLate (guardedService.delete id userID) := by
  unfold AvatarService.delete
  split
  · exact countsLate_done _
  · refine countsLate_then (countsLate_softDelete id userID) (fun _ => countsLate_done _) fun keys => ?_
    exact ((countsLate_ask rfl).bind fun _ => countsLate_done _).bind fun _ => countsLate_done _

theorem countsLate_deleteCurrent (userID : GoString) : CountsLate (guardedService.deleteCurrent userID) :=
  countsLate_then (countsLate_currentMetadata userID) (fun _ => countsLate_done _)
    fun avatar => countsLate_deleteAvatar avatar.id userID

variable (P : Packages) (cfg : Config)

theorem countsLate_serveContent (a : Avatar) (size ifNoneMatch : GoString) :
    CountsLate (Rest.serveContent P cfg guardedService a size ifNoneMatch) := by
  unfold Rest.serveContent
  simp only
  split
  · exact countsLate_done _
  · refine (countsLate_openContent a size).bind fun result => ?_
    cases result <;> exact countsLate_done _

theorem Request.countsLate (r : Request) : CountsLate (r.handle P cfg) := by
  cases r with
  | upload userID image =>
    simp only [handle,Rest.upload]
    split
    · exact countsLate_done _
    · split
      · exact countsLate_done _
      · exact countsLate_then (countsLate_upload _) (fun _ => countsLate_done _) fun _ => countsLate_done _
  | webUpload form =>
    simp only [handle,Web.upload]
    split
    · exact countsLate_done _
    · split
      · exact countsLate_done _
      · split
        · exact countsLate_done _
        · exact countsLate_then (countsLate_upload _) (fun _ => countsLate_done _) fun _ => countsLate_done _
  | get r =>
    simp only [handle,Rest.get]
    split
    · exact countsLate_done _
    · split
      · exact countsLate_done _
      · exact countsLate_then (countsLate_getByID _) (fun _ => countsLate_done _)
          fun a => countsLate_serveContent P cfg a _ _
  | getCurrent r =>
    simp only [handle,Rest.getCurrent]
    split
    · exact countsLate_done _
    · refine countsLate_then (countsLate_currentMetadata _) (fun err => ?_)
        fun a => countsLate_serveContent P cfg a _ _
      simp only
      split <;> exact countsLate_done _
  | metadata avatarID =>
    simp only [handle,Rest.metadata]
    split
    · exact countsLate_done _
    · exact countsLate_then (countsLate_getByID _) (fun _ => countsLate_done _) fun _ => countsLate_done _
  | list userID =>
    exact countsLate_then (countsLate_list userID) (fun _ => countsLate_done _) fun _ => countsLate_done _
  | delete userID avatarID =>
    simp only [handle,Rest.delete]
    split
    · exact countsLate_done _
    · split
      · exact countsLate_done _
      · exact countsLate_then (countsLate_deleteAvatar _ userID) (fun _ => countsLate_done _) fun _ => countsLate_done _
  | deleteCurrent userID pathUser =>
    simp only [handle,Rest.deleteCurrent]
    split
    · exact countsLate_done _
    · split
      · exact countsLate_done _
      · exact countsLate_then (countsLate_deleteCurrent userID) (fun _ => countsLate_done _) fun _ => countsLate_done _
  | webGalleryLookup userID => exact countsLate_done _
  | webGallery userID =>
    exact countsLate_then (countsLate_list userID) (fun _ => countsLate_done _) fun _ => countsLate_done _
  | webDelete userID avatarID =>
    simp only [handle,Web.delete]
    split
    · exact countsLate_done _
    · split
      · exact countsLate_done _
      · exact countsLate_then (countsLate_deleteAvatar _ userID) (fun _ => countsLate_done _) fun _ => countsLate_done _

/-- Every complete run of a request in which a guarded call outlasts the deadline of the request
is counted as a failure of a dependency. -/
theorem late_request_counted {W : Type} {performs : (c : Call) → W → c.Answer → W → Prop} {w w' : W} {calls : Called}
    {r : Request} {response : Response} (run : Runs performs (r.handle P cfg) w calls response w')
    {call : (c : Call) × c.Answer} (member : call ∈ calls) (expired : Expired call.1 call.2) :
    ∃ d, ⟨.report d .failure,()⟩ ∈ calls := by
  exact (r.countsLate P cfg).runs (run.mono fun _ _ _ _ _ => trivial) ⟨call,member,expired⟩

end GophProfile

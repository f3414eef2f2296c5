import GophProfile.Cleanup
import GophProfile.ContentTags

/-! The current avatar of a user. A request for it looks up the metadata in one step and
the content in a later one; what it answers depends on what has become of the original
in between. -/
namespace GophProfile.CurrentAvatar

open Domain Effect Transition

variable {P : Packages} {cfg : Config} {breakers : Dependency → BreakerState}
variable {trace : Trace P} {s : State P}

/-- The slot serves a request for the current avatar of a valid user in an allowed size. -/
def Asked (trace : Trace P) (slot : Nat) (r : Rest.ContentRequest) (size : GoString) : Prop :=
  Machine.latest trace slot = some (.getCurrent r) ∧ validateUserID r.userID = .ok () ∧
    Rest.parseSize r = .ok size

/-- The avatar was the user's current one in a state of the run. -/
def WasCurrent (trace : Trace P) (userID : GoString) (avatar : Avatar) : Prop :=
  ∃ entry ∈ trace, ∃ row, (entry.1.world.liveOf userID).head? = some row ∧
    Postgres.scanAvatar (.ok row) = .ok avatar

inductive Pictured (trace : Trace P) (r : Rest.ContentRequest) (size : GoString) : Response → Prop where
  | placeholder (entry : State P × Act × State P) (member : entry ∈ trace)
      (none : entry.1.world.liveOf r.userID = []) : Pictured trace r size (Rest.writeFallback P)
  | unchanged (avatar : Avatar) (current : WasCurrent trace r.userID avatar) :
      Pictured trace r size (Rest.notModified (Rest.contentETag P avatar size))
  | picture (avatar : Avatar) (current : WasCurrent trace r.userID avatar) (key : GoString)
      (own : key ∈ ownKeys avatar.userID avatar.id) (object : Object)
      (entry : State P × Act × State P) (member : entry ∈ trace)
      (stored : entry.1.world.objects key = some object) :
      Pictured trace r size (Rest.content avatar (Rest.contentETag P avatar size) object)

theorem Pictured.status {r : Rest.ContentRequest} {size : GoString} {response : Response}
    (pictured : Pictured trace r size response) : response.status = 200 ∨ response.status = 304 := by
  cases pictured with
  | placeholder => exact .inl rfl
  | unchanged => exact .inr rfl
  | picture => exact .inl rfl

theorem WasCurrent.later {userID : GoString} {avatar : Avatar} (current : WasCurrent trace userID avatar)
    (entry : State P × Act × State P) : WasCurrent (trace ++ [entry]) userID avatar := by
  obtain ⟨e,member,found⟩ := current
  exact ⟨e,List.mem_append_left _ member,found⟩

theorem Pictured.later {r : Rest.ContentRequest} {size : GoString} {response : Response}
    (pictured : Pictured trace r size response) (entry : State P × Act × State P) :
    Pictured (trace ++ [entry]) r size response := by
  cases pictured with
  | placeholder e member none => exact .placeholder e (List.mem_append_left _ member) none
  | unchanged avatar current => exact .unchanged avatar (current.later entry)
  | picture avatar current key own object e member stored =>
    exact .picture avatar (current.later entry) key own object e (List.mem_append_left _ member) stored

/-- Every answered request for a current avatar got a picture, or was told that its copy
is up to date. -/
def Satisfied (trace : Trace P) (s : State P) : Prop :=
  ∀ slot r size response, Asked trace slot r size →
    s.procs slot = some (.done (.responded response)) → Pictured trace r size response

/-- No dependency fails a request for a current avatar. -/
def Answered (trace : Trace P) (_ : State P) (a : Act) : Prop :=
  ∀ slot choice r size, a = .advance slot choice → Asked trace slot r size → choice.healthy = true

/-- A step that reads the original for a request for a current avatar finds it there. -/
def InTime (trace : Trace P) (s : State P) (a : Act) : Prop :=
  ∀ slot choice r size avatar, a = .advance slot choice → Asked trace slot r size →
    (s.procs slot = some (.readOriginal avatar size) ∨
      s.procs slot = some (.readObject avatar size) ∧
        AvatarService.contentKey avatar size = avatar.s3Key) →
    s.world.objects avatar.s3Key ≠ none

/-! ### What the queries answer -/

theorem selectCurrent_healthy {w w' : World} {choice : Choice} {userID : GoString}
    {answer : Except Err Row} (healthy : choice.healthy = true)
    (done : World.perform (.selectCurrent userID) choice w = some (answer,w')) :
    answer = World.rowOr (w.liveOf userID).head? := by
  cases choice with
  | fail => contradiction
  | ok pick =>
    simp only [World.perform] at done
    cases pick <;> simp only [World.effect,reduceCtorEq] at done
    cases done
    rfl

theorem getObject_healthy {w w' : World} {choice : Choice} {key : GoString}
    {answer : Except Err Object} (healthy : choice.healthy = true)
    (done : World.perform (.getObject key) choice w = some (answer,w')) :
    (∃ object, w.objects key = some object ∧ answer = .ok object) ∨
      w.objects key = none ∧ answer = .error (.s3Error S3.codeNoSuchKey) := by
  cases choice with
  | fail => contradiction
  | ok pick =>
    simp only [World.perform] at done
    cases pick <;> simp only [World.effect,reduceCtorEq] at done
    split at done
    · next object found => cases done; exact .inl ⟨object,found,rfl⟩
    · next missing => cases done; exact .inr ⟨missing,rfl⟩

theorem getResult_missing (key : GoString) :
    S3.getResult key (.error (.s3Error S3.codeNoSuchKey)) =
      .error (.errorf "get object %s: %w" [key] .objectNotFound) := rfl

theorem missing_status (avatar : Avatar) (key : GoString) :
    (Rest.writeReadError cfg (AvatarService.openFailed avatar
      (.errorf "get object %s: %w" [key] .objectNotFound))).status = 404 := by
  simp [Rest.writeReadError,AvatarService.openFailed,Err.is,Response.error,Response.json,Response.plain]

/-- The metadata of a current avatar name its own objects, under keys the storage takes. -/
theorem WasCurrent.keys (run : Run P cfg breakers trace s) {userID : GoString} {avatar : Avatar}
    (current : WasCurrent trace userID avatar) {key : GoString}
    (used : key = avatar.s3Key ∨ ∃ size, key = AvatarService.contentKey avatar size) :
    key ∈ ownKeys avatar.userID avatar.id ∧ S3.validateKey key = .ok () := by
  obtain ⟨entry,member,row,first,scanned⟩ := current
  have reached := (run.entry (fun _ _ => True) (fun _ _ => trivial) member).1
  have inside := List.mem_of_head? first
  rw [World.liveOf,List.mem_insertionSort] at inside
  have found := Table.mem_iff_find.mp (List.mem_filter.mp inside).1
  have sound := ((Reaches.holds reached).1.rows row.id row found).1
  obtain ⟨_,thumbnails,same,decoded,rfl⟩ := Postgres.scanAvatar_ok scanned
  cases same
  have own : key ∈ ownKeys row.userID row.id := by
    rcases used with rfl | ⟨size,rfl⟩
    · rw [Postgres.toAvatar,sound.s3Key]
      exact List.mem_cons_self
    · exact contentKey_own sound scanned size
  exact ⟨own,sound.accepts own⟩

/-! ### A request from its start to its answer -/

/-- Where a request for a current avatar can be, and what it then knows. -/
def Serving (trace : Trace P) (r : Rest.ContentRequest) (size : GoString) : Thread P → Prop
  | .readCurrent r' size' => r' = r ∧ size' = size
  | .readObject avatar size' | .readOriginal avatar size' =>
    size' = size ∧ WasCurrent trace r.userID avatar
  | .done (.responded response) => Pictured trace r size response
  | _ => False

theorem Serving.later {r : Rest.ContentRequest} {size : GoString} {t : Thread P}
    (serving : Serving trace r size t) (entry : State P × Act × State P) :
    Serving (trace ++ [entry]) r size t := by
  cases t with
  | readCurrent => exact serving
  | readObject => exact ⟨serving.1,serving.2.later entry⟩
  | readOriginal => exact ⟨serving.1,serving.2.later entry⟩
  | done reply =>
    cases reply with
    | responded response => exact Pictured.later serving entry
    | _ => exact serving.elim
  | _ => exact serving.elim

theorem serving_start {r : Rest.ContentRequest} {size : GoString}
    (valid : validateUserID r.userID = .ok ()) (parsed : Rest.parseSize r = .ok size) :
    Serving trace r size (Thread.start (.getCurrent r) : Thread P) := by
  simp only [Thread.start,Thread.startGetCurrent,parsed,valid]
  exact ⟨rfl,rfl⟩

/-- From the metadata on: the copy is current, or the content is asked for. -/
theorem serving_serve {r : Rest.ContentRequest} {size : GoString} {avatar : Avatar}
    (current : WasCurrent trace r.userID avatar)
    (accepted : S3.validateKey (AvatarService.contentKey avatar size) = .ok ()) (ifNoneMatch : GoString) :
    Serving trace r size (Thread.serve cfg avatar size ifNoneMatch) := by
  unfold Thread.serve
  split
  · exact .unchanged avatar current
  · rw [accepted]
    exact ⟨rfl,current⟩

/-- From the answer of the metadata query on: the placeholder, or the avatar that is current. -/
theorem serving_selected {a : Act} {s' : State P} (run : Run P cfg breakers (trace ++ [(s,a,s')]) s')
    (r : Rest.ContentRequest) (size : GoString) :
    Serving (trace ++ [(s,a,s')]) r size
      (Thread.afterReadCurrent cfg r size (World.rowOr (s.world.liveOf r.userID).head?)) := by
  have here : (s,a,s') ∈ trace ++ [(s,a,s')] := List.mem_append_right _ (List.mem_singleton.mpr rfl)
  cases first : (s.world.liveOf r.userID).head? with
  | none =>
    have placeholder : (Thread.afterReadCurrent cfg r size (World.rowOr (none : Option Row)) : Thread P) =
        Thread.respond (Rest.writeFallback P) := by
      simp [Thread.afterReadCurrent,World.rowOr,Postgres.getCurrentResult,Postgres.scanAvatar,Err.is]
    rw [placeholder]
    exact .placeholder _ here (List.head?_eq_none_iff.mp first)
  | some row =>
    have member := List.mem_of_head? first
    rw [World.liveOf,List.mem_insertionSort] at member
    have found := Table.mem_iff_find.mp (List.mem_filter.mp member).1
    have reached := Run.reaches (Path.last run).1
    obtain ⟨thumbnails,decoded,-⟩ := ((Reaches.holds reached).1.rows row.id row found).1.readable
    have scanned : Postgres.scanAvatar (.ok row) = .ok (Postgres.toAvatar row thumbnails) := by
      simp [Postgres.scanAvatar,decoded]
    have current : WasCurrent (trace ++ [(s,a,s')]) r.userID (Postgres.toAvatar row thumbnails) :=
      ⟨_,here,row,first,scanned⟩
    have served : (Thread.afterReadCurrent cfg r size (World.rowOr (some row)) : Thread P) =
        Thread.serve cfg (Postgres.toAvatar row thumbnails) size r.ifNoneMatch := by
      simp [Thread.afterReadCurrent,World.rowOr,Postgres.getCurrentResult,scanned]
    rw [served]
    exact serving_serve current (current.keys run (.inr ⟨_,rfl⟩)).2 _

/-- What the next step of a request leads to, when it finds the original in time. -/
theorem serving_next {slot : Nat} {choice : Choice} {s' : State P}
    (run : Run P cfg breakers (trace ++ [(s,.advance slot choice,s')]) s')
    {r : Rest.ContentRequest} {size : GoString} {t : Thread P} {c : Call}
    {next : c.Answer → Thread P} {answer : c.Answer} {w : World}
    (asked : Asked trace slot r size) (answered : Answered trace s (.advance slot choice))
    (inTime : InTime trace s (.advance slot choice)) (running : s.procs slot = some t)
    (seen : t.view cfg = .call c next) (done : World.perform c choice s.world = some (answer,w))
    (serving : Serving trace r size t) :
    Serving (trace ++ [(s,.advance slot choice,s')]) r size (next answer) := by
  have healthy := answered slot choice r size rfl asked
  have here : (s,Action.advance slot choice,s') ∈ trace ++ [(s,.advance slot choice,s')] :=
    List.mem_append_right _ List.mem_cons_self
  cases t with
  | readCurrent r' size' =>
    obtain ⟨rfl,rfl⟩ := serving
    cases (show View.call _ _ = View.call c next from seen)
    rw [selectCurrent_healthy healthy done]
    exact serving_selected run r' size'
  | readObject avatar size' =>
    obtain ⟨rfl,earlier⟩ := serving
    cases (show View.call _ _ = View.call c next from seen)
    have current := earlier.later (s,Action.advance slot choice,s')
    rcases getObject_healthy healthy done with ⟨object,present,rfl⟩ | ⟨missing,rfl⟩
    · exact .picture avatar current _ (current.keys run (.inr ⟨_,rfl⟩)).1 object _ here present
    · simp only [getResult_missing,Thread.afterObject]
      by_cases same : AvatarService.contentKey avatar size' = avatar.s3Key
      · exact absurd (same ▸ missing) (inTime slot choice r size' avatar rfl asked (.inr ⟨running,same⟩))
      · rw [if_pos ⟨by simp [Err.is],same⟩,(current.keys run (.inl rfl)).2]
        exact ⟨rfl,current⟩
  | readOriginal avatar size' =>
    obtain ⟨rfl,earlier⟩ := serving
    cases (show View.call _ _ = View.call c next from seen)
    have current := earlier.later (s,Action.advance slot choice,s')
    rcases getObject_healthy healthy done with ⟨object,present,rfl⟩ | ⟨missing,rfl⟩
    · exact .picture avatar current _ (current.keys run (.inl rfl)).1 object _ here present
    · exact absurd missing (inTime slot choice r size' avatar rfl asked (.inl running))
  | done reply => contradiction
  | _ => exact serving.elim

theorem serving_run (run : Run P cfg breakers trace s) (answered : Throughout Answered trace)
    (inTime : Throughout InTime trace) {slot : Nat} {r : Rest.ContentRequest} {size : GoString}
    {t : Thread P} (asked : Asked trace slot r size) (running : s.procs slot = some t) :
    Serving trace r size t := by
  induction run generalizing slot r size t with
  | nil => simp [Pool.initial] at running
  | @snoc trace s s' a before taken ih =>
    obtain ⟨healthy,fine⟩ := throughout_snoc answered
    obtain ⟨early,soon⟩ := throughout_snoc inTime
    have whole : Run P cfg breakers (trace ++ [(s,a,s')]) s' := .snoc before taken
    -- unless the step starts a request in the slot, the request was there before
    have old : Machine.startedIn slot a = none → Asked trace slot r size := by
      intro idle
      obtain ⟨latest,rest⟩ := asked
      rw [Machine.latest_snoc,idle,Option.none_or] at latest
      exact ⟨latest,rest⟩
    have other : Machine.startedIn slot a = none → s.procs slot = some t →
        Serving (trace ++ [(s,a,s')]) r size t := by
      intro idle here
      exact (ih healthy early (old idle) here).later _
    cases a with
    | start slot' command =>
      obtain ⟨free,rfl⟩ := Machine.step_start taken
      rcases Pool.running_started running with ⟨rfl,rfl⟩ | ⟨different,running⟩
      · obtain ⟨latest,valid,parsed⟩ := asked
        rw [Machine.latest_snoc] at latest
        simp only [Machine.startedIn,↓reduceIte,Option.some_or,Option.some.injEq] at latest
        subst latest
        exact serving_start valid parsed
      · exact other (if_neg (Ne.symm different)) running
    | advance slot' choice =>
      obtain ⟨u,c,next,answer,w,acting,seen,performed,rfl⟩ := Machine.step_advance taken
      rcases Pool.running_answered running with ⟨rfl,rfl⟩ | ⟨_,running⟩
      · exact serving_next whole (old rfl) fine soon acting seen performed
          (ih healthy early (old rfl) acting)
      · exact other rfl running
    | crash slot' =>
      obtain ⟨_,rfl⟩ := Machine.step_crash taken
      exact other rfl (Pool.running_crashed running).2
    | environment event =>
      obtain ⟨w,moved,rfl⟩ := Machine.step_environment taken
      exact other rfl running

/-! ### Always a picture -/

/-- A request that comes too late for the original is answered 404. -/
theorem late_status {slot : Nat} {choice : Choice} {s' : State P} {avatar : Avatar} {size : GoString}
    (healthy : choice.healthy = true)
    (reads : s.procs slot = some (.readOriginal avatar size) ∨
      s.procs slot = some (.readObject avatar size) ∧
        AvatarService.contentKey avatar size = avatar.s3Key)
    (missing : s.world.objects avatar.s3Key = none)
    (taken : (system P cfg).step s (.advance slot choice) = some s') :
    ∃ response, s'.procs slot = some (.done (.responded response)) ∧ response.status = 404 := by
  obtain ⟨t,c,next,answer,w,running,seen,performed,rfl⟩ := Machine.step_advance taken
  have seen : t.view cfg = .call c next := seen
  have performed : World.perform c choice s.world = some (answer,w) := performed
  rcases reads with original | ⟨object,same⟩
  · obtain rfl := Option.some.inj (running.symm.trans original)
    cases (show View.call _ _ = View.call c next from seen)
    rcases getObject_healthy healthy performed with ⟨_,present,-⟩ | ⟨-,rfl⟩
    · rw [missing] at present
      contradiction
    · exact ⟨_,Pool.answered_same _ _ _ _ _ _,missing_status avatar avatar.s3Key⟩
  · obtain rfl := Option.some.inj (running.symm.trans object)
    cases (show View.call _ _ = View.call c next from seen)
    rcases getObject_healthy healthy performed with ⟨_,present,-⟩ | ⟨-,rfl⟩
    · rw [same,missing] at present
      contradiction
    · refine ⟨Rest.writeReadError cfg (AvatarService.openFailed avatar (.errorf "get object %s: %w"
        [AvatarService.contentKey avatar size] .objectNotFound)),?_,missing_status _ _⟩
      simp only [Pool.answered_same,getResult_missing,Thread.afterObject]
      rw [if_neg fun both => both.2 same]
      rfl

/-- A read that finds the original gone is answered with 404. -/
theorem inTime_of_satisfied (run : Run P cfg breakers trace s) (answered : Throughout Answered trace)
    (satisfied : ∀ before t, before <+: trace → Run P cfg breakers before t → Satisfied before t) :
    Throughout InTime trace := by
  rintro before s₁ a s₂ after rfl slot choice r size avatar rfl asked reads missing
  obtain ⟨earlier,taken⟩ := Path.before run
  have healthy := answered before s₁ _ s₂ after rfl slot choice r size rfl asked
  obtain ⟨response,finished,status⟩ := late_status healthy reads missing taken
  have still : Asked (before ++ [(s₁,.advance slot choice,s₂)]) slot r size := by
    obtain ⟨latest,rest⟩ := asked
    exact ⟨by rw [Machine.latest_snoc]; exact latest,rest⟩
  have pictured := satisfied (before ++ [(s₁,.advance slot choice,s₂)]) s₂ ⟨after,by simp⟩
    (.snoc earlier taken) slot r size response still finished
  have good := pictured.status
  omega

theorem satisfied_of_inTime (run : Run P cfg breakers trace s) (answered : Throughout Answered trace)
    (inTime : Throughout InTime trace) : Satisfied trace s :=
  fun _ _ _ _ asked finished => serving_run run answered inTime asked finished

/-- In a run in which no dependency fails the requests for current avatars, every one of them
is answered with a picture, in every state, if and only if none of them reads the original of
its avatar while the original is not there. -/
theorem always_pictured_iff (run : Run P cfg breakers trace s) (answered : Throughout Answered trace) :
    (∀ before t, before <+: trace → Run P cfg breakers before t → Satisfied before t) ↔
      Throughout InTime trace :=
  ⟨inTime_of_satisfied run answered,fun inTime _ _ part shorter =>
    satisfied_of_inTime shorter (answered.shorter part) (inTime.shorter part)⟩

/-! ### Concrete runs -/

def annCurrent : Rest.ContentRequest := ⟨[],lit "ann",[],[],[]⟩

/-- No read of an original finds it gone, whatever request it is for. -/
def originalThere (s : State P) : Act → Bool
  | .advance slot _ =>
    match s.procs slot with
    | some (.readOriginal avatar _) | some (.readObject avatar _) =>
      (s.world.objects avatar.s3Key).isSome
    | _ => true
  | _ => true

theorem inTime_of_there {a : Act} (there : originalThere s a = true) : InTime trace s a := by
  rintro slot choice r size avatar rfl - reads missing
  rcases reads with original | ⟨object,-⟩
  · simp [originalThere,original,missing] at there
  · simp [originalThere,object,missing] at there

theorem answered_of_calm {a : Act} (calm : Undisturbed s a) (trace : Trace P) : Answered trace s a :=
  fun slot choice _ _ equal _ => calm.1 slot choice equal

/-- The response that the slot 1 was answered with has this status. -/
def answeredWith (status : Nat) (s : State P) : Bool :=
  match s.procs 1 with
  | some (.done (.responded response)) => response.status == status
  | _ => false

theorem answeredWith_iff {status : Nat} : answeredWith status s = true ↔
    ∃ response, s.procs 1 = some (.done (.responded response)) ∧ response.status = status := by
  unfold answeredWith
  split
  · next response finished => simp [finished]
  · next other =>
    simp only [reduceCtorEq,false_iff]
    rintro ⟨response,finished,-⟩
    exact other response finished

/-- The avatar is deleted after the request has read its content. -/
theorem always_pictured_upload : ∃ trace s response,
    Run Packages.sample .standard (fun _ => .fresh 5) trace s ∧
      s.procs 1 = some (.done (.responded response)) ∧ response.status = 200 ∧
      Pictured trace annCurrent sizeOriginal response := by
  obtain ⟨trace,s,run,fine,met,same⟩ := Schedule.run
    (fun s a => Undisturbed s a ∧ originalThere s a = true)
    (Schedule.upload 0 (Schedule.input (lit "ann")) .nil ++
      [.start 1 (.getCurrent annCurrent),Schedule.answer 1 .none,Schedule.answer 1 .none] ++
      Schedule.delete 2 .nil (lit "ann") [] ++
      Schedule.clean 3 ⟨UUID.nil.string,[originalObjectKey (lit "ann") .nil]⟩)
    (answeredWith 200) (by decide +kernel)
  obtain ⟨response,finished,status⟩ := answeredWith_iff.mp met
  have answered : Throughout Answered trace :=
    Throughout.of_all fun entry member before => answered_of_calm (fine entry member).1 before
  have inTime : Throughout InTime trace :=
    Throughout.of_all fun entry member before => inTime_of_there (fine entry member).2
  have asked : Asked trace 1 annCurrent sizeOriginal := by
    refine ⟨?_,by decide,by decide⟩
    rw [Machine.latest_actions,same]
    rfl
  exact ⟨trace,s,response,run,finished,status,(always_pictured_iff run answered).mpr inTime trace s
    (List.prefix_refl trace) run 1 annCurrent sizeOriginal response asked finished⟩

/-- The avatar is deleted, and its file removed, after the request has its metadata. -/
def overtaken : List Act :=
  Schedule.upload 0 (Schedule.input (lit "ann")) .nil ++
    [.start 1 (.getCurrent annCurrent),Schedule.answer 1 .none] ++
    Schedule.delete 2 .nil (lit "ann") [] ++
    Schedule.clean 3 ⟨UUID.nil.string,[originalObjectKey (lit "ann") .nil]⟩ ++
    [Schedule.answer 1 .none]

theorem picture_missed : ¬∀ (P : Packages) (cfg : Config) (breakers : Dependency → BreakerState)
    (trace : Trace P) (s : State P), Run P cfg breakers trace s → Throughout Answered trace →
      Satisfied trace s := by
  intro all
  obtain ⟨trace,s,run,calm,met,same⟩ := Schedule.run Undisturbed overtaken (answeredWith 404)
    (by decide +kernel)
  obtain ⟨response,finished,status⟩ := answeredWith_iff.mp met
  have answered : Throughout Answered trace :=
    Throughout.of_all fun entry member before => answered_of_calm (calm entry member) before
  have asked : Asked trace 1 annCurrent sizeOriginal := by
    refine ⟨?_,by decide,by decide⟩
    rw [Machine.latest_actions,same]
    rfl
  have good := (all _ _ _ trace s run answered 1 annCurrent sizeOriginal response asked finished).status
  omega

end GophProfile.CurrentAvatar

import GophProfile.Consume
import GophProfile.Redelivery

/-! A shutdown of the worker: what the cancellation of its context costs the messages, in any
run of `Consume` whose dependencies work. -/
namespace GophProfile.RabbitMQ.Consume

open Domain Effect Transition

/-! ### What a handler makes of an interrupted call -/

/-- The call has returned `context.Canceled`. -/
def Interrupted (call : (c : Call) × c.Answer) : Prop := World.failed call.1 .canceled = some call.2

section Strict
variable {α β : Type} {sort : Err → Prop}

/-- A run with an interrupted call ends in an error of this sort. -/
def Fails (sort : Err → Prop) (calls : Called) (result : Except Err α) : Prop :=
  (∃ call ∈ calls, Interrupted call) → ∃ err, result = .error err ∧ sort err

/-- No run of the program gets over an interrupted call, whatever the others are answered. -/
def Strict (sort : Err → Prop) (p : Prog (Except Err α)) : Prop :=
  Ends (fun _ _ => True) p (Fails sort)

theorem strict_return (result : Except Err α) : Strict sort (.done result) := by
  rintro ⟨call,member,-⟩
  contradiction

theorem strict_ask {c : Call} {f : c.Answer → Except Err α}
    (failed : ∀ answer, World.failed c .canceled = some answer → ∃ err, f answer = .error err ∧ sort err) :
    Strict sort (ask c >>= fun answer => .done (f answer)) := by
  rintro answer - ⟨call,member,interrupted⟩
  obtain rfl := List.mem_singleton.mp member
  exact failed answer interrupted

theorem strict_then {other : Err → Prop} {p : Prog (Except Err α)} {f : Except Err α → Prog (Except Err β)}
    (first : Strict other p)
    (failed : ∀ err, other err → Ends (fun _ _ => True) (f (.error err)) fun _ result =>
      ∃ err, result = .error err ∧ sort err)
    (rest : ∀ result, Strict sort (f result)) : Strict sort (p >>= f) := by
  refine Ends.bind (first.mono fun calls result known => ?_)
  by_cases here : ∃ call ∈ calls, Interrupted call
  · obtain ⟨err,rfl,expected⟩ := known here
    exact (failed err expected).mono fun more result fails _ => fails
  · refine (rest result).mono fun more result later hit => later ?_
    obtain ⟨call,member,interrupted⟩ := hit
    rcases List.mem_append.mp member with early | late
    · exact absurd ⟨call,early,interrupted⟩ here
    · exact ⟨call,late,interrupted⟩

/-- After a call that cannot be interrupted. -/
theorem strict_silent {c : Call} {next : c.Answer → Prog (Except Err α)}
    (silent : World.failed c .canceled = none) (rest : ∀ answer, Strict sort (next answer)) :
    Strict sort (.call c next) := by
  intro answer _
  refine (rest answer).mono fun calls result known hit => known ?_
  obtain ⟨call,member,interrupted⟩ := hit
  rcases List.mem_cons.mp member with rfl | later
  · rw [Interrupted,silent] at interrupted
    contradiction
  · exact ⟨call,later,interrupted⟩

/-- The breakers let the interruption through, or refuse the call themselves. -/
theorem strict_breaker {b : Option Breaker} {fn : Prog (Except Err α)} (inner : Strict sort fn)
    (unavailable : ∀ format args, sort (.errorf format args .unavailable)) :
    Strict sort (Breaker.call b fn) := by
  cases b with
  | none => exact inner
  | some b =>
    have rejected : ∀ reason, Ends (fun _ _ => True) (Breaker.call.rejected (α := α) b reason)
        fun _ result => ∃ err, result = .error err ∧ sort err := by
      intro reason _ _
      exact ⟨_,rfl,unavailable _ _⟩
    have executed : Strict sort (b.execute fn) := by
      refine strict_silent rfl fun answer => ?_
      cases answer with
      | error err => exact strict_return _
      | ok =>
        refine strict_then (p := fn) inner ?_ fun result => strict_silent rfl fun _ => strict_return result
        intro err expected _ _
        exact ⟨err,rfl,expected⟩
    refine strict_then executed ?_ ?_
    · intro err expected
      simp only
      split
      · exact rejected _
      · split
        · exact rejected _
        · exact ⟨err,rfl,expected⟩
    · rintro (err | value)
      · simp only
        split
        · exact (rejected _).mono fun _ _ fails _ => fails
        · split
          · exact (rejected _).mono fun _ _ fails _ => fails
          · exact strict_return _
      · exact strict_return _

end Strict

/-! ### The handlers -/

section Handlers

/-- An error that does not say that the avatar is gone. -/
def Present (err : Err) : Prop := err.is .avatarNotFound = false

def AnyError (_ : Err) : Prop := True

theorem strict_getByID (r : Postgres.AvatarRepository) (id : UUID) : Strict Present (r.getByID id) := by
  refine strict_breaker (strict_ask ?_) fun format args => by simp [Present,Err.is]
  rintro answer ⟨⟩
  exact ⟨_,rfl,by simp [Present,Err.is]⟩

theorem strict_setProcessingStatus (r : Postgres.AvatarRepository) (id : UUID)
    (status : ProcessingStatus) : Strict AnyError (r.setProcessingStatus id status) := by
  refine strict_breaker (strict_ask ?_) fun _ _ => trivial
  rintro answer ⟨⟩
  exact ⟨_,rfl,trivial⟩

theorem strict_updateProcessingResult (r : Postgres.AvatarRepository) (id : UUID) (thumbnails : GoMap)
    (width height : Int64) : Strict AnyError (r.updateProcessingResult id thumbnails width height) := by
  refine strict_breaker (strict_ask ?_) fun _ _ => trivial
  rintro answer ⟨⟩
  exact ⟨_,rfl,trivial⟩

theorem strict_get (s : S3.Storage) (key : GoString) : Strict AnyError (s.get key) := by
  refine strict_breaker ?_ fun _ _ => trivial
  unfold S3.get
  split
  · exact strict_return _
  · refine strict_ask ?_
    rintro answer ⟨⟩
    obtain ⟨err,failed⟩ := S3.getResult_error key .canceled
    exact ⟨err,failed,trivial⟩

theorem strict_put (s : S3.Storage) (key : GoString) (object : Object) :
    Strict AnyError (s.put key object) := by
  refine strict_breaker ?_ fun _ _ => trivial
  unfold S3.put
  split
  · exact strict_return _
  · refine strict_ask ?_
    rintro answer ⟨⟩
    exact ⟨_,rfl,trivial⟩

/-- What failed in a batch stays in its result. -/
theorem ends_removeObjects (keys : List GoString) (errs : List Err) :
    Ends (fun _ _ => True) (S3.removeObjects keys errs) fun calls found =>
      (errs ≠ [] → found ≠ []) ∧ ((∃ call ∈ calls, Interrupted call) → found ≠ []) := by
  induction keys generalizing errs with
  | nil =>
    refine ⟨id,?_⟩
    rintro ⟨call,member,-⟩
    contradiction
  | cons key rest ih =>
    intro answer _
    cases removed : S3.removeResult key answer with
    | error err =>
      simp only [bind_eq,done_bind,removed]
      refine (ih (errs ++ [err])).mono fun calls found known => ?_
      have failed := known.1 (by simp)
      exact ⟨fun _ => failed,fun _ => failed⟩
    | ok =>
      simp only [bind_eq,done_bind,removed]
      refine (ih errs).mono fun calls found known => ⟨known.1,fun hit => known.2 ?_⟩
      obtain ⟨call,member,interrupted⟩ := hit
      rcases List.mem_cons.mp member with rfl | later
      · cases interrupted
        contradiction
      · exact ⟨call,later,interrupted⟩

theorem joinAll_error {errs : List Err} (some : errs ≠ []) : ∃ err, Err.joinAll errs = .error err := by
  cases errs with
  | nil => contradiction
  | cons first rest =>
    cases rest with
    | nil => exact ⟨first,rfl⟩
    | cons second more =>
      simp only [Err.joinAll]
      split
      · exact ⟨first,rfl⟩
      · exact ⟨_,rfl⟩

theorem strict_deleteMany (s : S3.Storage) (keys : List GoString) : Strict AnyError (s.deleteMany keys) := by
  refine strict_breaker ?_ fun _ _ => trivial
  unfold S3.deleteMany
  split
  · exact strict_return _
  · split
    · exact strict_return _
    · refine strict_silent rfl fun order => ?_
      refine Ends.bind (p := S3.removeObjects order.val []) ((ends_removeObjects order.val []).mono ?_)
      intro calls found known hit
      rw [List.append_nil] at hit
      obtain ⟨err,joined⟩ := joinAll_error (known.2 hit)
      exact ⟨err,joined,trivial⟩

variable (P : Packages) (p : Worker.Processor)

theorem strict_uploadEach (avatar : Avatar) (img : P.Image) (names : List GoString) (stored : GoMap) :
    Strict AnyError (Worker.uploadEach P p avatar img names stored) := by
  induction names generalizing stored with
  | nil => exact strict_return _
  | cons name rest ih =>
    unfold Worker.uploadEach
    split
    · exact strict_return _
    · refine strict_then (strict_put p.storage _ _) (fun err _ => ⟨err,rfl,trivial⟩) ?_
      rintro (err | done)
      · exact strict_return _
      · exact ih _

theorem strict_processUpload (event : AvatarUploadEvent) :
    Strict AnyError (Worker.processUpload P p event) := by
  unfold Worker.processUpload
  split
  · exact strict_return _
  next avatarID _ =>
  refine strict_then (strict_getByID p.repo avatarID) ?_ ?_
  · intro err present
    simp only [Present] at present
    simp only [present]
    exact ⟨err,rfl,trivial⟩
  rintro (err | avatar)
  · simp only
    split
    · exact strict_return _
    · exact strict_return _
  simp only
  split
  · exact strict_return _
  refine strict_then (strict_get p.storage avatar.s3Key) (fun err _ => ⟨err,rfl,trivial⟩) ?_
  rintro (err | object)
  · exact strict_return _
  simp only
  split
  · refine strict_then (strict_setProcessingStatus p.repo avatarID .failed)
      (fun err _ => ⟨err,rfl,trivial⟩) ?_
    rintro (err | done)
    · exact strict_return _
    · exact strict_return _
  · next img _ =>
    have thumbnails : Strict AnyError (Worker.uploadThumbnails P p avatar img) :=
      strict_silent rfl fun order => strict_uploadEach P p avatar img order.val []
    refine strict_then thumbnails (fun err _ => ⟨err,rfl,trivial⟩) ?_
    rintro (err | thumbnails)
    · exact strict_return _
    refine strict_then (strict_updateProcessingResult p.repo avatarID thumbnails _ _)
      (fun err _ => ⟨err,rfl,trivial⟩) ?_
    rintro (err | updated)
    · exact strict_return _
    · exact strict_return _

/-- The handler a queue of this type is consumed with. -/
def handlerOf (k : Kind) (body : GoString) : Prog (Except Err Unit) :=
  match k with
  | .upload => Worker.handleUpload P p body
  | .delete => Worker.handleDelete P p body

/-- A handler fails when one of its calls is interrupted, whichever it is. -/
theorem strict_handlerOf (k : Kind) (body : GoString) : Strict AnyError (handlerOf P p k body) := by
  cases k with
  | upload =>
    simp only [handlerOf,Worker.handleUpload]
    split
    · exact strict_return _
    · exact strict_processUpload P p _
  | delete =>
    simp only [handlerOf,Worker.handleDelete]
    split
    · exact strict_return _
    · exact strict_deleteMany p.storage _

end Handlers

/-! ### What a run keeps -/

/-- An answer that a dependency gives when it works. -/
def Works (call : Call) (answer : call.Answer) : Prop :=
  ∃ choice w w', choice.healthy = true ∧ World.perform call choice w = some (answer,w')

theorem rowOr_uncanceled (row : Option Row) : World.rowOr row ≠ .error .canceled := by
  cases row <;> exact nofun

theorem effect_uncanceled {call : Call} {pick : Pick} {w w' : World} {answer : call.Answer}
    (done : World.effect call pick w = some (answer,w')) : World.failed call .canceled ≠ some answer := by
  intro failed
  cases call <;> cases failed <;> cases pick <;> simp only [World.effect,reduceCtorEq] at done
  case selectByID.refl.none id => exact rowOr_uncanceled _ (congrArg Prod.fst (Option.some.inj done))
  case selectCurrent.refl.none userID => exact rowOr_uncanceled _ (congrArg Prod.fst (Option.some.inj done))
  case selectOwner.refl.none id =>
    cases found : w.live id <;> rw [found] at done <;> cases done
  case updateDeleted.refl.none id userID =>
    split at done
    · split at done <;> cases done
    · cases done
  case updateResult.refl.none =>
    split at done
    · split at done <;> cases done
    · cases done
  all_goals first | cases done | (split at done <;> cases done)

theorem works_uninterrupted {call : (c : Call) × c.Answer} (works : Works call.1 call.2) :
    ¬Interrupted call := by
  obtain ⟨choice,w,w',healthy,performed⟩ := works
  cases choice with
  | ok pick => exact effect_uncanceled performed
  | fail => contradiction

/-- A call that is broken off reports it. -/
theorem perform_interrupting {call : (c : Call) × c.Answer} {choice : Choice} {w w' : World}
    (interrupts : interrupting choice = true) (performed : World.perform call.1 choice w = some (call.2,w')) :
    Interrupted call := by
  cases choice with
  | ok => contradiction
  | fail took pick err =>
    obtain rfl : err = .canceled := by simpa [interrupting] using interrupts
    obtain ⟨answer,failed,rest⟩ := Option.bind_eq_some_iff.mp performed
    cases took with
    | false =>
      cases rest
      exact failed
    | true =>
      obtain ⟨result,-,same⟩ := Option.map_eq_some_iff.mp rest
      cases same
      exact failed

variable {t : Topology} {queue : GoString} {c : Consumer} {handler : GoString → Prog (Except Err Unit)}

/-- The calls so far and the rest of a handling: an interruption is not got over, and without
one they are a run of the handler over dependencies that work. -/
structure Followed (handler : GoString → Prog (Except Err Unit)) (d : Delivery) (calls : Called)
    (rest : Prog (Except Err Unit)) : Prop where
  strict : Ends (fun _ _ => True) rest fun more result => Fails AnyError (calls ++ more) result
  run : (∀ call ∈ calls, Works call.1 call.2) → ∀ more result,
    Runs (fun call (_ : Unit) answer _ => Works call answer) rest () more result () →
    Runs (fun call (_ : Unit) answer _ => Works call answer) (handler d.message.body) ()
      (calls ++ more) result ()

theorem Followed.start (strict : ∀ body, Strict AnyError (handler body)) (d : Delivery) :
    Followed handler d [] (handler d.message.body) where
  strict := strict d.message.body
  run := fun _ _ _ run => run

theorem Followed.next {d : Delivery} {calls : Called} {call : Call}
    {next : call.Answer → Prog (Except Err Unit)} (followed : Followed handler d calls (.call call next))
    (answer : call.Answer) : Followed handler d (calls ++ [⟨call,answer⟩]) (next answer) where
  strict := by
    refine (followed.strict answer trivial).mono fun more result known => ?_
    rw [List.append_assoc]
    exact known
  run := by
    intro works more result run
    have here : Works call answer := works ⟨call,answer⟩ (by simp)
    have whole := followed.run (fun call member => works call (List.mem_append_left _ member))
      (⟨call,answer⟩ :: more) result (.call here run)
    rw [List.append_assoc]
    exact whole

def Point.Sound (handler : GoString → Prog (Except Err Unit)) : Point → Prop
  | .handle d calls rest => Followed handler d calls rest
  | .settle d calls result _ _ => Followed handler d calls (.done result)
  | _ => True

theorem sound_handling {d : Delivery} {calls : Called} {rest : Prog (Except Err Unit)}
    (followed : Followed handler d calls rest) : (handling c d calls rest).Sound handler := by
  cases rest with
  | done result => exact followed
  | call => exact followed

/-- How a handling ends: it succeeds and is acknowledged, or fails and is counted. -/
def Handling.Complete (h : Handling) : Prop :=
  h.fate = .acknowledged ∧ h.result = .ok () ∨
    (h.fate = .rejected ∨ h.fate = .buried) ∧ ∃ err, h.result = .error err

/-- The message in hand lies in the queue of the dead already. -/
def Point.Buried (s : State) : Point → Prop
  | .settle d calls result buried _ => buried = true → ⟨d,calls,result,.buried⟩ ∈ s.log
  | _ => True

/-- A delivery waits unchanged, is in hand, or has been handled. -/
def State.Has (s : State) (d : Delivery) : Prop :=
  d ∈ s.ready ∨ d ∈ s.buffer ∨ s.point.holds = some d ∨ ∃ h ∈ s.log, h.delivery = d

theorem State.Has.mono {s s' : State} {d : Delivery} (has : s.Has d) (ready : s.ready ⊆ s'.ready)
    (buffer : s.buffer ⊆ s'.buffer) (held : s.point.holds = some d → s'.Has d) (log : s.log ⊆ s'.log) :
    s'.Has d := by
  rcases has with waiting | buffered | here | ⟨h,logged,same⟩
  · exact .inl (ready waiting)
  · exact .inr (.inl (buffer buffered))
  · exact held here
  · exact .inr (.inr (.inr ⟨h,log logged,same⟩))

structure Sound (t : Topology) (queue : GoString) (c : Consumer)
    (handler : GoString → Prog (Except Err Unit)) (s : State) : Prop where
  way : s.point.OnTheWay c
  point : s.point.Sound handler
  buried : s.point.Buried s
  complete : ∀ h ∈ s.log, h.Complete
  followed : ∀ h ∈ s.log, Followed handler h.delivery h.calls (.done h.result)
  moved : ∀ copy ∈ s.elsewhere, ∃ h ∈ s.log, copy ∈ h.copies t queue c
  kept : ∀ d ∈ s.arrived, s.Has d
  closed : s.point = .closed → s.delivering = false ∧ s.buffer = []

theorem sound_initial (world : World) : Sound t queue c handler (State.initial world) where
  way := trivial
  point := trivial
  buried := trivial
  complete := by
    intro h member
    contradiction
  followed := by
    intro h member
    contradiction
  moved := by
    intro copy member
    contradiction
  kept := by
    intro d member
    contradiction
  closed := nofun

/-- With nothing in hand there is nothing to say about it. -/
theorem Point.free (c : Consumer) (handler : GoString → Prog (Except Err Unit)) {p : Point}
    (none : p.holds = .none) (s : State) : p.OnTheWay c ∧ p.Sound handler ∧ p.Buried s := by
  cases p with
  | handle => contradiction
  | settle => contradiction
  | _ => exact ⟨trivial,trivial,trivial⟩

/-- Only a handling that succeeded, or whose message is buried already, is acknowledged. -/
theorem settling_acknowledge {message : Message} {result : Except Err Unit} {buried : Bool} {rest : Steps}
    (settling : Settling c message result buried rest) (acknowledges : rest = Consumer.acknowledge) :
    buried = false ∧ result = .ok () ∨ buried = true ∧ ∃ err, result = .error err := by
  cases settling with
  | acknowledge => exact .inl ⟨rfl,rfl⟩
  | bury => exact absurd acknowledges (toDeadLetter_ne _ _)
  | buried err => exact .inr ⟨rfl,err,rfl⟩
  | reject => exact absurd acknowledges reject_ne

theorem settling_error {message : Message} {result : Except Err Unit} {buried : Bool} {rest : Steps}
    (settling : Settling c message result buried rest) (fails : rest ≠ Consumer.acknowledge) :
    ∃ err, result = .error err := by
  cases settling with
  | acknowledge => exact absurd rfl fails
  | bury err => exact ⟨err,rfl⟩
  | buried err => exact ⟨err,rfl⟩
  | reject err => exact ⟨err,rfl⟩

/-- A handling that is over, with what it moved to another queue. -/
theorem Sound.record {s s' : State} {d : Delivery} {calls : Called} {result : Except Err Unit}
    {buried : Bool} {rest : Steps} (sound : Sound t queue c handler s)
    (here : s.point = .settle d calls result buried rest) {fate : Fate}
    (complete : Handling.Complete ⟨d,calls,result,fate⟩)
    (log : s'.log = s.log ++ [⟨d,calls,result,fate⟩])
    (moved : s'.elsewhere = s.elsewhere ++ Handling.copies t queue c ⟨d,calls,result,fate⟩)
    (way : s'.point.OnTheWay c) (point : s'.point.Sound handler) (buried : s'.point.Buried s')
    (kept : ∀ d' ∈ s'.arrived, s'.Has d') (closed : s'.point ≠ .closed) : Sound t queue c handler s' where
  way := way
  point := point
  buried := buried
  complete := by
    intro h member
    rw [log] at member
    rcases List.mem_append.mp member with old | new
    · exact sound.complete h old
    · obtain rfl := List.mem_singleton.mp new
      exact complete
  followed := by
    intro h member
    rw [log] at member
    rcases List.mem_append.mp member with old | new
    · exact sound.followed h old
    · obtain rfl := List.mem_singleton.mp new
      have followed := sound.point
      rw [here] at followed
      exact followed
  moved := by
    intro copy member
    rw [moved] at member
    rw [log]
    rcases List.mem_append.mp member with old | new
    · obtain ⟨h,logged,copied⟩ := sound.moved copy old
      exact ⟨h,List.mem_append_left _ logged,copied⟩
    · exact ⟨_,List.mem_append_right _ (List.mem_singleton.mpr rfl),new⟩
  kept := kept
  closed := fun same => absurd same closed

theorem buried_handling (d : Delivery) (calls : Called) (rest : Prog (Except Err Unit)) (s : State) :
    (handling c d calls rest).Buried s := by
  cases rest with
  | done => exact nofun
  | call => trivial

theorem handling_ne_closed (d : Delivery) (calls : Called) (rest : Prog (Except Err Unit)) :
    handling c d calls rest ≠ .closed := by
  cases rest <;> exact nofun

theorem settling_afterPublish (c : Consumer) (message : Message) {result : Except Err Unit} (err : Err)
    (failed : result = .error err) {answer : Except Err Unit} {arrived : Bool}
    (possible : answer = .ok () → arrived = true) :
    Settling c message result arrived (afterPublish answer) := by
  subst failed
  cases answer with
  | ok =>
    obtain rfl := possible rfl
    exact .buried err
  | error => exact .reject err arrived

theorem sound_move {s s' : State} {a : Action} (strict : ∀ body, Strict AnyError (handler body))
    (sound : Sound t queue c handler s) (calm : Calm s a) (move : Move t queue c handler s a s') :
    Sound t queue c handler s' := by
  have way := sound.way
  have point := sound.point
  cases move with
  | idle _ p delivering here there running _ =>
    have free := Point.free c handler there
    refine ⟨(free s).1,(free s).2.1,(free _).2.2,sound.complete,sound.followed,sound.moved,?_,
      fun same => absurd same running.2⟩
    refine fun d member => (sound.kept d member).mono (fun _ => id) (fun _ => id) ?_ fun _ => id
    rw [here]
    exact nofun
  | took d rest here first =>
    refine ⟨onTheWay_handling d [] _,sound_handling (.start strict d),buried_handling d [] _ _,
      sound.complete,sound.followed,sound.moved,?_,fun same => absurd same (handling_ne_closed d [] _)⟩
    intro d' member
    rcases sound.kept d' member with ready | buffered | held | logged
    · exact .inl ready
    · rw [first] at buffered
      rcases List.mem_cons.mp buffered with rfl | later
      · exact .inr (.inr (.inl (handling_holds _ _ _)))
      · exact .inr (.inl later)
    · rw [here] at held
      contradiction
    · exact .inr (.inr (.inr logged))
  | called d calls call next choice answer w here performed =>
    rw [here] at point
    refine ⟨onTheWay_handling d _ _,sound_handling (point.next answer),buried_handling d _ _ _,
      sound.complete,sound.followed,sound.moved,?_,fun same => absurd same (handling_ne_closed d _ _)⟩
    refine fun d' member => (sound.kept d' member).mono (fun _ => id) (fun _ => id) ?_ fun _ => id
    rw [here]
    rintro ⟨⟩
    exact .inr (.inr (.inl (handling_holds _ _ _)))
  | acked d calls result buried here arrived =>
    obtain rfl : arrived = true := calm
    rw [here] at way
    obtain ⟨rfl,rfl⟩ | ⟨rfl,err,rfl⟩ := settling_acknowledge way rfl
    · refine sound.record here (.inl ⟨rfl,rfl⟩) rfl (List.append_nil _).symm trivial trivial trivial ?_ nofun
      refine fun d' member => (sound.kept d' member).mono (fun _ => id) (fun _ => id) ?_
        (List.subset_append_left _ _)
      rw [here]
      rintro ⟨⟩
      exact .inr (.inr (.inr ⟨_,List.mem_append_right _ (List.mem_singleton.mpr rfl),rfl⟩))
    · have buried := sound.buried
      rw [here] at buried
      refine ⟨trivial,trivial,trivial,sound.complete,sound.followed,sound.moved,?_,nofun⟩
      refine fun d' member => (sound.kept d' member).mono (fun _ => id) (fun _ => id) ?_ fun _ => id
      rw [here]
      rintro ⟨⟩
      exact .inr (.inr (.inr ⟨_,buried rfl,rfl⟩))
  | nacked d calls result buried here arrived =>
    obtain rfl : arrived = true := calm
    rw [here] at way
    obtain ⟨err,failed⟩ := settling_error way reject_ne
    refine sound.record here (.inr ⟨.inl rfl,err,failed⟩) rfl rfl trivial trivial trivial ?_ nofun
    refine fun d' member => (sound.kept d' member).mono (fun _ => id) (fun _ => id) ?_
      (List.subset_append_left _ _)
    rw [here]
    rintro ⟨⟩
    exact .inr (.inr (.inr ⟨_,List.mem_append_right _ (List.mem_singleton.mpr rfl),rfl⟩))
  | published d calls result buried here answer arrived possible =>
    rw [here] at way point
    obtain ⟨err,failed⟩ := settling_error way (toDeadLetter_ne _ _)
    have settling := settling_afterPublish c d.message err failed possible
    cases arrived with
    | false =>
      refine ⟨settling,point,nofun,sound.complete,sound.followed,sound.moved,?_,nofun⟩
      refine fun d' member => (sound.kept d' member).mono (fun _ => id) (fun _ => id) ?_ fun _ => id
      rw [here]
      exact fun held => .inr (.inr (.inl held))
    | true =>
      refine sound.record here (.inr ⟨.inr rfl,err,failed⟩) rfl rfl settling point ?_ ?_ nofun
      · exact fun _ => List.mem_append_right _ (List.mem_singleton.mpr rfl)
      refine fun d' member => (sound.kept d' member).mono (fun _ => id) (fun _ => id) ?_
        (List.subset_append_left _ _)
      rw [here]
      exact fun held => .inr (.inr (.inl held))
  | closed result here =>
    refine ⟨trivial,trivial,trivial,sound.complete,sound.followed,sound.moved,?_,fun _ => ⟨rfl,rfl⟩⟩
    intro d member
    rcases sound.kept d member with ready | buffered | held | logged
    · exact .inl (by simp [ready])
    · exact .inl (by simp [buffered])
    · rw [here] at held
      contradiction
    · exact .inr (.inr (.inr logged))

theorem sound_step {s s' : State} {a : Action} (strict : ∀ body, Strict AnyError (handler body))
    (sound : Sound t queue c handler s) (calm : Calm s a)
    (taken : step t queue c handler s a = some s') : Sound t queue c handler s' := by
  cases a with
  | arrive message =>
    cases taken
    refine { sound with kept := ?_, closed := sound.closed }
    intro d member
    rcases List.mem_append.mp member with old | new
    · exact (sound.kept d old).mono (List.subset_append_left _ _) (fun _ => id)
        (fun held => .inr (.inr (.inl held))) fun _ => id
    · exact .inl (List.mem_append_right _ new)
  | deliver =>
    simp only [step] at taken
    split at taken
    · next d rest delivering waiting =>
      cases taken
      refine { sound with kept := ?_, closed := ?_ }
      · intro d' member
        rcases sound.kept d' member with ready | buffered | held | logged
        · rw [waiting] at ready
          rcases List.mem_cons.mp ready with rfl | later
          · exact .inr (.inl (by simp))
          · exact .inl later
        · exact .inr (.inl (List.mem_append_left _ buffered))
        · exact .inr (.inr (.inl held))
        · exact .inr (.inr (.inr logged))
      · intro closed
        have off := (sound.closed closed).1
        rw [off] at delivering
        contradiction
    · contradiction
  | others world =>
    cases taken
    exact { sound with }
  | cancel =>
    cases taken
    exact { sound with }
  | endDeliveries =>
    cases taken
    exact { sound with closed := fun closed => ⟨rfl,(sound.closed closed).2⟩ }
  | _ => exact sound_move strict sound calm (consume_move sound.way taken)

theorem sound_run {world : World} {trace : List (State × Action × State)} {s : State}
    (strict : ∀ body, Strict AnyError (handler body))
    (run : Path (step t queue c handler) (State.initial world) trace s)
    (calm : ∀ entry ∈ trace, Calm entry.1 entry.2.1) : Sound t queue c handler s :=
  (run.reachable calm).invariant _ (sound_initial world) fun _ _ _ _ sound permitted taken =>
    sound_step strict sound permitted taken

/-! ### The calls that were answered -/

def Point.calls : Point → Called
  | .handle _ calls _ | .settle _ calls _ _ _ => calls
  | _ => []

theorem Point.free_calls {p : Point} (none : p.holds = .none) : p.calls = [] := by
  cases p with
  | handle => contradiction
  | settle => contradiction
  | _ => rfl

theorem handling_calls (d : Delivery) (calls : Called) (rest : Prog (Except Err Unit)) :
    (handling c d calls rest).calls = calls := by
  cases rest <;> rfl

/-- A call of a handling, whether it is over or not. -/
def State.Answered (s : State) (call : (c : Call) × c.Answer) : Prop :=
  call ∈ s.point.calls ∨ ∃ h ∈ s.log, call ∈ h.calls

/-- The call that a step answers, if it answers one. -/
def Answers (s : State) (a : Action) (new : Option ((c : Call) × c.Answer)) : Prop :=
  match a with
  | .called choice => ∃ call w, new = some call ∧ World.perform call.1 choice s.world = some (call.2,w)
  | _ => new = none

theorem answered_move {s s' : State} {a : Action} (sound : Sound t queue c handler s)
    (move : Move t queue c handler s a s') :
    ∃ new, Answers s a new ∧ ∀ call, s'.Answered call ↔ s.Answered call ∨ new = some call := by
  cases move with
  | idle _ p delivering here there running silent =>
    refine ⟨none,?_,fun call => ?_⟩
    · cases a with
      | called choice => exact absurd rfl (silent choice)
      | _ => rfl
    · simp [State.Answered,Point.free_calls here,Point.free_calls there]
  | took d rest here first =>
    refine ⟨none,rfl,fun call => ?_⟩
    simp only [State.Answered]
    rw [handling_calls,here]
    simp [Point.calls]
  | called d calls call next choice answer w here performed =>
    refine ⟨some ⟨call,answer⟩,⟨⟨call,answer⟩,w,rfl,performed⟩,fun other => ?_⟩
    simp only [State.Answered]
    rw [handling_calls,here,List.mem_append,List.mem_singleton,Option.some.injEq,or_right_comm,
      eq_comm (b := other)]
    rfl
  | acked d calls result buried here arrived =>
    refine ⟨none,rfl,fun call => ?_⟩
    cases buried with
    | false => simp [State.Answered,here,Point.calls,or_and_right,exists_or,or_comm]
    | true =>
      have buried := sound.buried
      rw [here] at buried
      have inside : call ∈ calls → ∃ h ∈ s.log, call ∈ h.calls := fun member => ⟨_,buried rfl,member⟩
      simpa [State.Answered,here,Point.calls] using inside
  | nacked d calls result buried here arrived =>
    refine ⟨none,rfl,fun call => ?_⟩
    simp [State.Answered,here,Point.calls,or_and_right,exists_or,or_comm]
  | published d calls result buried here answer arrived possible =>
    refine ⟨none,rfl,fun call => ?_⟩
    cases arrived with
    | false => simp [State.Answered,here,Point.calls]
    | true =>
      simp only [State.Answered,here,Point.calls,if_true,List.mem_append,List.mem_singleton,
        or_and_right,exists_or,exists_eq_left,reduceCtorEq,or_false]
      constructor
      · rintro (held | logged | held)
        · exact .inl held
        · exact .inr logged
        · exact .inl held
      · rintro (held | logged)
        · exact .inl held
        · exact .inr (.inl logged)
  | closed result here => exact ⟨none,rfl,fun call => by simp [State.Answered,here,Point.calls]⟩

theorem answered_step {s s' : State} {a : Action} (sound : Sound t queue c handler s)
    (taken : step t queue c handler s a = some s') :
    ∃ new, Answers s a new ∧ ∀ call, s'.Answered call ↔ s.Answered call ∨ new = some call := by
  cases a with
  | arrive =>
    cases taken
    exact ⟨none,rfl,fun call => by simp [State.Answered]⟩
  | deliver =>
    simp only [step] at taken
    split at taken
    · cases taken
      exact ⟨none,rfl,fun call => by simp [State.Answered]⟩
    · contradiction
  | others =>
    cases taken
    exact ⟨none,rfl,fun call => by simp [State.Answered]⟩
  | cancel =>
    cases taken
    exact ⟨none,rfl,fun call => by simp [State.Answered]⟩
  | endDeliveries =>
    cases taken
    exact ⟨none,rfl,fun call => by simp [State.Answered]⟩
  | _ => exact answered_move sound (consume_move sound.way taken)

def Action.interrupts : Action → Bool
  | .called choice => interrupting choice
  | _ => false

section Run
variable {world : World} {trace : List (State × Action × State)} {s : State}

/-- While no call is interrupted, every answer is that of a dependency that works. -/
theorem works_run (strict : ∀ body, Strict AnyError (handler body))
    (run : Path (step t queue c handler) (State.initial world) trace s)
    (calm : ∀ entry ∈ trace, Calm entry.1 entry.2.1)
    (undisturbed : ∀ entry ∈ trace, entry.2.1.interrupts = false) {call : (c : Call) × c.Answer}
    (answered : s.Answered call) : Works call.1 call.2 := by
  induction run with
  | nil =>
    rcases answered with held | ⟨h,logged,-⟩
    · contradiction
    · contradiction
  | @snoc trace s s' a before taken ih =>
    have earlier : ∀ entry ∈ trace, entry ∈ trace ++ [(s,a,s')] := fun _ => List.mem_append_left _
    have now : (s,a,s') ∈ trace ++ [(s,a,s')] := List.mem_append_right _ (List.mem_singleton.mpr rfl)
    have sound := sound_run strict before fun entry member => calm entry (earlier entry member)
    obtain ⟨new,answers,calls⟩ := answered_step sound taken
    rcases (calls call).mp answered with old | rfl
    · exact ih (fun entry member => calm entry (earlier entry member))
        (fun entry member => undisturbed entry (earlier entry member)) old
    · cases a with
      | called choice =>
        obtain ⟨_,w,⟨⟩,performed⟩ := answers
        rcases calm _ now with healthy | ⟨-,interrupts⟩
        · exact ⟨choice,s.world,w,healthy,performed⟩
        · have undisturbed : interrupting choice = false := undisturbed _ now
          rw [undisturbed] at interrupts
          contradiction
      | _ => contradiction

/-- An interrupted call stays on record. -/
theorem interrupted_run (strict : ∀ body, Strict AnyError (handler body))
    (run : Path (step t queue c handler) (State.initial world) trace s)
    (calm : ∀ entry ∈ trace, Calm entry.1 entry.2.1) {entry : State × Action × State}
    (member : entry ∈ trace) (interrupts : entry.2.1.interrupts = true) :
    ∃ call, s.Answered call ∧ Interrupted call := by
  induction run with
  | nil => contradiction
  | @snoc trace s s' a before taken ih =>
    have earlier : ∀ entry ∈ trace, Calm entry.1 entry.2.1 := fun entry inside =>
      calm entry (List.mem_append_left _ inside)
    obtain ⟨new,answers,calls⟩ := answered_step (sound_run strict before earlier) taken
    rcases List.mem_append.mp member with old | new
    · obtain ⟨call,answered,interrupted⟩ := ih earlier old
      exact ⟨call,(calls call).mpr (.inl answered),interrupted⟩
    · obtain rfl := List.mem_singleton.mp new
      cases a with
      | called choice =>
        obtain ⟨call,w,rfl,performed⟩ := answers
        exact ⟨call,(calls call).mpr (.inr rfl),perform_interrupting interrupts performed⟩
      | _ => contradiction

end Run

/-! ### What the shutdown costs -/

/-- The handler fails although every call is answered by a dependency that works. -/
structure Handling.OwnFault (handler : GoString → Prog (Except Err Unit)) (h : Handling) : Prop where
  failed : ∃ err, h.result = .error err
  run : Runs (fun call (_ : Unit) answer _ => Works call answer) (handler h.delivery.message.body) ()
    h.calls h.result ()

/-- No message has been charged for the cancellation, and none is lost by it. -/
structure Unharmed (t : Topology) (queue : GoString) (c : Consumer)
    (handler : GoString → Prog (Except Err Unit)) (s : State) : Prop where
  settled : ∀ h ∈ s.log, h.fate = .acknowledged ∧ h.result = .ok () ∨ h.OwnFault handler
  /-- Into a retry, or to the dead. -/
  moved : ∀ copy ∈ s.elsewhere, ∃ h ∈ s.log, h.OwnFault handler ∧ copy ∈ h.copies t queue c
  kept : ∀ d ∈ s.arrived, s.Has d
  /-- What has not been handled is delivered again as it was. -/
  closed : s.point = .closed → ∀ d ∈ s.arrived, d ∈ s.ready ∨ ∃ h ∈ s.log, h.delivery = d

theorem Sound.unharmed {s : State} (sound : Sound t queue c handler s)
    (works : ∀ call, s.Answered call → Works call.1 call.2) : Unharmed t queue c handler s := by
  have own : ∀ h ∈ s.log, (h.fate = .rejected ∨ h.fate = .buried) → h.OwnFault handler := by
    intro h logged moved
    rcases sound.complete h logged with ⟨acknowledged,-⟩ | ⟨-,failed⟩
    · rw [acknowledged] at moved
      rcases moved with impossible | impossible <;> contradiction
    · have run := (sound.followed h logged).run (fun call member => works call (.inr ⟨h,logged,member⟩))
        [] h.result (.done h.result ())
      rw [List.append_nil] at run
      exact ⟨failed,run⟩
  constructor
  · intro h logged
    rcases sound.complete h logged with done | ⟨moved,-⟩
    · exact .inl done
    · exact .inr (own h logged moved)
  · intro copy member
    obtain ⟨h,logged,copied⟩ := sound.moved copy member
    refine ⟨h,logged,own h logged ?_,copied⟩
    cases fate : h.fate with
    | rejected => exact .inl rfl
    | buried => exact .inr rfl
    | _ =>
      simp only [Handling.copies,fate] at copied
      contradiction
  · exact sound.kept
  · intro closed d arrived
    rcases sound.kept d arrived with ready | buffered | held | logged
    · exact .inl ready
    · rw [(sound.closed closed).2] at buffered
      contradiction
    · rw [closed] at held
      contradiction
    · exact .inr logged

/-- A handling that was interrupted has cost its message an attempt. -/
theorem Sound.harmed {s : State} (sound : Sound t queue c handler s) (idle : s.point.holds = none)
    {call : (c : Call) × c.Answer} (answered : s.Answered call) (interrupted : Interrupted call) :
    ¬Unharmed t queue c handler s := by
  intro unharmed
  rcases answered with held | ⟨h,logged,inside⟩
  · rw [Point.free_calls idle] at held
    contradiction
  · rcases unharmed.settled h logged with ⟨-,succeeded⟩ | own
    · obtain ⟨err,failed,-⟩ := (sound.followed h logged).strict ⟨call,by simpa using inside,interrupted⟩
      rw [succeeded] at failed
      contradiction
    · obtain ⟨_,_,works⟩ := own.run.performed inside
      exact works_uninterrupted works interrupted

/-- Of a run in which only the context is cancelled no message bears a trace while no call of
a handler is interrupted, and once one was, it does as soon as nothing is in hand. -/
theorem shutdown_iff (P : Packages) (p : Worker.Processor) (t : Topology) (maxRetries : Int64) (k : Kind)
    {world : World} {trace : List (State × Action × State)} {s : State}
    (run : Path (step t (t.pair k).work (consumer t maxRetries) (handlerOf P p k)) (State.initial world) trace s)
    (calm : ∀ entry ∈ trace, Calm entry.1 entry.2.1) :
    ((∀ entry ∈ trace, entry.2.1.interrupts = false) →
      Unharmed t (t.pair k).work (consumer t maxRetries) (handlerOf P p k) s) ∧
    (s.point.holds = none →
      (Unharmed t (t.pair k).work (consumer t maxRetries) (handlerOf P p k) s ↔
        ∀ entry ∈ trace, entry.2.1.interrupts = false)) := by
  have strict := strict_handlerOf P p k
  have sound := sound_run strict run calm
  have enough : (∀ entry ∈ trace, entry.2.1.interrupts = false) →
      Unharmed t (t.pair k).work (consumer t maxRetries) (handlerOf P p k) s := fun undisturbed =>
    sound.unharmed fun call answered => works_run strict run calm undisturbed answered
  refine ⟨enough,fun idle => ⟨fun unharmed entry member => ?_,enough⟩⟩
  by_cases interrupts : entry.2.1.interrupts = true
  · obtain ⟨call,answered,interrupted⟩ := interrupted_run strict run calm member interrupts
    exact absurd unharmed (sound.harmed idle answered interrupted)
  · exact Bool.eq_false_iff.mpr interrupts

/-! ### A worker with the standard settings -/

namespace Sample

def topology : Topology := newTopology .standard

def processor : Worker.Processor := ⟨⟨none⟩,⟨none⟩,1000⟩

/-- The event of the uploaded avatar, rejected so many times before. -/
def message (rejected : Int64) : Message where
  contentType := lit "application/json"
  messageID := UUID.nil.string
  persistent := true
  headers := [(headerDeath,.array [death topology.queueProcess deathReasonRejected rejected])]
  body := GophProfile.Delivery.message

def step : State → Action → Option State :=
  Consume.step topology (topology.pair .upload).work (consumer topology 3)
    (handlerOf GophProfile.Delivery.packages processor .upload)

def start : State := .initial GophProfile.Delivery.uploaded

/-- The handling goes on to its end after the cancellation. -/
def finishing : List Action :=
  [.arrive (message 0),.subscribed (.ok ()),.deliver,.take,.called (.ok .none),.cancel,
    .called (.ok .none),.called (.ok (.order [thumbnailSmall,thumbnailLarge])),.called (.ok .none),
    .called (.ok .none),.called (.ok .none),.settled true,.stop,.unsubscribed (.ok ()),.close]

def finished (s : State) : Bool :=
  s.point.holds.isNone && s.log.any fun h => h.fate == .acknowledged && h.calls.length == 6

/-- The cancellation reaches the handler of a message that was never rejected, and of one that
was rejected as often as is allowed. -/
def interrupting : List Action :=
  [.arrive (message 0),.arrive (message 3),.subscribed (.ok ()),.deliver,.deliver,.take,
    .called (.ok .none),.cancel,.called (.fail false .none .canceled),.settled true,.take,
    .called (.fail false .none .canceled),.published (.ok ()) true,.settled true,.stop,
    .unsubscribed (.ok ()),.close]

/-- One message is in the retry queue with a rejection more, the other one is dead. -/
def charged (s : State) : Bool :=
  s.point.holds.isNone &&
    match s.elsewhere with
    | [.queued retry once,.queued dead _] =>
      retry == topology.retryProcess && deathCount once.headers == 1 && dead == topology.queueDead
    | _ => false

end Sample

open Sample in
/-- A shutdown amid a handling that still gets to its end. -/
theorem shutdown_iff_finishing : ∃ trace s, Path Sample.step Sample.start trace s ∧ finished s = true ∧
    Unharmed topology (topology.pair .upload).work (consumer topology 3)
      (handlerOf GophProfile.Delivery.packages processor .upload) s := by
  obtain ⟨trace,s,run,calm,done,same⟩ := exists_path Sample.step Calm start finishing finished
    (by decide +kernel)
  have undisturbed : ∀ entry ∈ trace, entry.2.1.interrupts = false := by
    intro entry member
    have action : entry.2.1 ∈ finishing := by
      rw [← same]
      exact List.mem_map_of_mem member
    have all : finishing.all (fun a => a.interrupts == false) = true := by decide
    simpa using List.all_eq_true.mp all _ action
  have idle : s.point.holds = none := by
    simp only [finished,Bool.and_eq_true,Option.isNone_iff_eq_none] at done
    exact done.1
  exact ⟨trace,s,run,done,((shutdown_iff _ _ _ _ _ run calm).2 idle).mpr undisturbed⟩

open Sample in
/-- The cancellation alone costs one message an attempt and the other one all it has. -/
theorem shutdown_charges : ∃ trace s, Path Sample.step Sample.start trace s ∧
    (∀ entry ∈ trace, Calm entry.1 entry.2.1) ∧ charged s = true ∧
    ¬Unharmed topology (topology.pair .upload).work (consumer topology 3)
      (handlerOf GophProfile.Delivery.packages processor .upload) s := by
  obtain ⟨trace,s,run,calm,done,same⟩ := exists_path Sample.step Calm start Sample.interrupting charged
    (by decide +kernel)
  have strict := strict_handlerOf GophProfile.Delivery.packages processor .upload
  have broken : Action.called (.fail false .none .canceled) ∈ Sample.interrupting := by
    simp [Sample.interrupting]
  rw [← same] at broken
  obtain ⟨entry,member,action⟩ := List.mem_map.mp broken
  obtain ⟨call,answered,interrupted⟩ := interrupted_run strict run calm member (by rw [action]; rfl)
  have idle : s.point.holds = none := by
    simp only [charged,Bool.and_eq_true,Option.isNone_iff_eq_none] at done
    exact done.1
  exact ⟨trace,s,run,calm,done,(sound_run strict run calm).harmed idle answered interrupted⟩

end GophProfile.RabbitMQ.Consume

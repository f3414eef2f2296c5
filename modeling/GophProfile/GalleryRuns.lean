import GophProfile.GalleryCalls
import GophProfile.Library.Placement
import GophProfile.Isolation

/-! The whole system as one gallery: servers, workers and the reconciler run at once, calls fail and
processes vanish, and still every answer is that of a gallery on which the calls were made one
after the other. -/
namespace GophProfile.Gallery

open Domain Effect Transition Linearizability

variable {P : Packages} {cfg : Config}

/-! ### Requests that only read -/

inductive Query where
  | metadata (id : UUID)
  | current (userID : GoString)
  | list (userID : GoString)

namespace Query

def op : Query → Op
  | .metadata id => .metadata id
  | .current userID => .current userID
  | .list userID => .list userID

/-- The service's own programs. -/
def program : Query → Prog Answer
  | .metadata id => do return shown (← service.metadata id)
  | .current userID => do return shown (← service.currentMetadata userID)
  | .list userID => do return listed (← service.list userID)

/-- The one statement a query makes. -/
def statement : Query → Call
  | .metadata id => .selectByID id
  | .current userID => .selectCurrent userID
  | .list userID => .selectByUser userID

def answer : (q : Query) → q.statement.Answer → Answer
  | .metadata id, row => shown (Postgres.getByIDResult id row)
  | .current userID, row => shown (Postgres.getCurrentResult userID row)
  | .list userID, rows => listed (Postgres.listResult userID rows)

/-- The user id that has to be valid. -/
def user : Query → Option GoString
  | .metadata _ => none
  | .current userID | .list userID => some userID

end Query

inductive Reading where
  | asked (q : Query)
  | told (a : Answer)

def Reading.program : Reading → Prog Answer
  | .asked q => .call q.statement fun x => .done (q.answer x)
  | .told a => .done a

def Query.start (q : Query) : Reading :=
  match q.user with
  | none => .asked q
  | some userID =>
    match validateUserID userID with
    | .error err => .told (refused err)
    | .ok () => .asked q

/-- The points of a query are those of the service's program. -/
theorem program_start (q : Query) : q.program = q.start.program := by
  cases q with
  | metadata id => rfl
  | current userID =>
    simp only [Query.program,Query.start,Query.user,AvatarService.currentMetadata]
    cases validateUserID userID <;> rfl
  | list userID =>
    simp only [Query.program,Query.start,Query.user,AvatarService.list]
    cases validateUserID userID <;> rfl

/-! ### The system with its readers -/

structure State (P : Packages) where
  pool : GophProfile.State P
  readers : Nat → Option Reading

inductive Action where
  | pool (a : Act)
  | ask (reader : Nat) (q : Query)
  | answer (reader : Nat) (choice : Choice)
  | leave (reader : Nat)

def start (breakers : Dependency → BreakerState) : State P :=
  ⟨Pool.initial (World.initial breakers),fun _ => none⟩

def State.setReader (s : State P) (reader : Nat) (r : Option Reading) : State P :=
  { s with readers := Function.update s.readers reader r }

def step (cfg : Config) (s : State P) : Action → Option (State P)
  | .pool a => ((system P cfg).step s.pool a).map fun pool => { s with pool := pool }
  | .ask reader q =>
    match s.readers reader with
    | none => some (s.setReader reader (some q.start))
    | some _ => none
  | .answer reader choice =>
    match s.readers reader with
    | some (.asked q) =>
      (World.perform q.statement choice s.pool.world).map fun result =>
        { pool := { s.pool with world := result.2 }
          readers := Function.update s.readers reader (some (.told (q.answer result.1))) }
    | _ => none
  | .leave reader =>
    match s.readers reader with
    | some (.asked _) => some (s.setReader reader none)
    | _ => none

/-! ### The calls that are seen from outside -/

abbrev Caller := Nat ⊕ Nat

abbrev Seen := Calls Caller Op Answer

/-- The call that a command begins with; what the two handlers of content ask first is one too. -/
def opOf (P : Packages) : Command → Option Op
  | .upload input => some (.upload input)
  | .delete id userID => some (.delete id userID)
  | .deleteCurrent userID => some (.current userID)
  | command =>
    match (Thread.start command : Thread P) with
    | .readSelect _ id _ => some (.metadata id)
    | .readCurrent r _ => some (.current r.userID)
    | _ => none

def finished : Thread P → Option Answer
  | .done (.uploaded result) => some (shown result)
  | .done (.deleted _ result) | .deleteDone _ _ result => some (ended result)
  | _ => none

def conclude (c : Seen) (caller : Caller) : Option Answer → Seen
  | some a => c.respond caller a
  | none => c

/-- What is seen of a process when a call of it is answered. `DeleteCurrent` makes two calls, and a
statement of a worker is a call by itself. -/
def noticed (c : Seen) (caller : Caller) (t : Thread P) (call : (c : Call) × c.Answer) (t' : Thread P) : Seen :=
  match t, call with
  | .currentSelect userID, ⟨.selectCurrent _,row⟩ =>
    match Postgres.getCurrentResult userID row with
    | .ok a => (c.respond caller (.avatar a)).invoke caller (.delete a.id userID)
    | .error err => c.respond caller (refused err)
  | .readSelect _ id _, ⟨.selectByID _,row⟩ => c.respond caller (shown (Postgres.getByIDResult id row))
  | .readCurrent r _, ⟨.selectCurrent _,row⟩ =>
    c.respond caller (shown (Postgres.getCurrentResult r.userID row))
  | .processUpdate _ id _ _, ⟨.updateResult _ _ width height,affected⟩ =>
    (c.invoke caller (.complete id width height)).respond caller (reported (Postgres.processingResult id affected))
  | .processStatus _ id, ⟨.updateStatus _ _,result⟩ =>
    (c.invoke caller (.fail id)).respond caller (ended (Postgres.statusResult id result))
  | _, _ => conclude c caller (finished t')

def invoked (c : Seen) (caller : Caller) : Option Op → Seen
  | some op => c.invoke caller op
  | none => c

def notice (c : Seen) : State P × Action × State P → Seen
  | (_,.pool (.start slot command),_) =>
    conclude (invoked c (.inl slot) (opOf P command)) (.inl slot) (finished (Thread.start command : Thread P))
  | (s,.pool (.advance slot _),s') =>
    match s.pool.procs slot, s'.pool.log.getLast?, s'.pool.procs slot with
    | some t, some (_,call), some t' => noticed c (.inl slot) t call t'
    | _, _, _ => c
  | (_,.pool (.crash slot),_) => c.leave (.inl slot)
  | (_,.pool (.environment _),_) => c
  | (_,.ask reader q,s') =>
    match s'.readers reader with
    | some (.told a) => (c.invoke (.inr reader) q.op).respond (.inr reader) a
    | _ => c.invoke (.inr reader) q.op
  | (_,.answer reader _,s') =>
    match s'.readers reader with
    | some (.told a) => c.respond (.inr reader) a
    | _ => c
  | (_,.leave reader,_) => c.leave (.inr reader)

/-- The calls of a run. -/
def seen (trace : List (State P × Action × State P)) : Seen := trace.foldl notice Calls.empty

theorem seen_snoc (trace : List (State P × Action × State P)) (entry : State P × Action × State P) :
    seen (trace ++ [entry]) = notice (seen trace) entry := by
  simp [seen]

/-! ### How far a call has come -/

section Standing
variable (c : Seen) (order : List (Nat × Op × Answer)) (caller : Caller) (w : World)

def Stands : Thread P → Prop
  | .uploadID input | .uploadPut input _ | .uploadCreate input _ => Waits c order caller (.upload input)
  | .uploadRemove input _ err => Placed c order caller (.upload input) (refused (AvatarService.uploadFailed err))
  | .uploadPublish avatar => ∃ input, Placed c order caller (.upload input) (.avatar avatar)
  | .currentSelect userID => validateUserID userID = .ok () ∧ Waits c order caller (.current userID)
  | .deleteUpdate id userID => validateUserID userID = .ok () ∧ Waits c order caller (.delete id userID)
  -- if the row was not there, the call stands already as one that has found nothing
  | .deleteOwner id userID => validateUserID userID = .ok () ∧
      (Placed c order caller (.delete id userID) .notFound ∨
        Waits c order caller (.delete id userID) ∧ Foreign w id userID)
  | .deleteIterate id userID _ _ | .deletePublish id userID _ => Placed c order caller (.delete id userID) .done
  | .readSelect _ id _ => Waits c order caller (.metadata id)
  | .readCurrent r _ => validateUserID r.userID = .ok () ∧ Waits c order caller (.current r.userID)
  | _ => True

end Standing

variable {c c' : Seen} {order order' : List (Nat × Op × Answer)} {caller other : Caller} {w w' : World}

theorem Stands.apart {t : Thread P} (stands : Stands c order other w t) (apart : Apart caller c order c' order')
    (different : other ≠ caller) (grows : World.Grows w w') : Stands c' order' other w' t := by
  have waits {op : Op} : Waits c order other op → Waits c' order' other op := apart.waits different
  have placed {op : Op} {r : Answer} : Placed c order other op r → Placed c' order' other op r :=
    apart.placed different
  cases t with
  | uploadID | uploadPut | uploadCreate | readSelect => exact waits stands
  | uploadRemove | deleteIterate | deletePublish => exact placed stands
  | uploadPublish =>
    obtain ⟨input,there⟩ := stands
    exact ⟨input,placed there⟩
  | currentSelect | deleteUpdate | readCurrent => exact ⟨stands.1,waits stands.2⟩
  | deleteOwner =>
    obtain ⟨valid,there | ⟨waiting,foreign⟩⟩ := stands
    · exact ⟨valid,.inl (placed there)⟩
    · exact ⟨valid,.inr ⟨waits waiting,foreign.grows grows⟩⟩
  | _ => trivial

/-! ### One call of a process -/

variable {faulty : Prop} {op : Op} {a : Answer} {t t' : Thread P}

/-- After a call of one process there is an order again, in which the process stands where it should. -/
def Goes (faulty : Prop) (caller : Caller) (c : Seen) (order : List (Nat × Op × Answer)) (c' : Seen) (w' : World)
    (t' : Thread P) : Prop :=
  ∃ order', Explains (Does faulty) empty c' order' w'.gallery ∧ Stands c' order' caller w' t' ∧
    Apart caller c order c' order'

section Goes
variable (e : Explains (Does faulty) empty c order w.gallery)
include e

theorem goes_silent (same : w'.gallery = w.gallery) (stands : Stands c order caller w' t') :
    Goes faulty caller c order c w' t' := ⟨order,same ▸ e,stands,.refl⟩

/-- The operation happens now, and its caller is still to be told. -/
theorem goes_effect (waits : Waits c order caller op) (does : Does faulty op w.gallery a w'.gallery)
    (stands : ∀ order', Placed c order' caller op a → Stands c order' caller w' t') :
    Goes faulty caller c order c w' t' := by
  obtain ⟨order',e',placed,apart⟩ := e.effect waits does
  exact ⟨order',e',stands order' placed,apart⟩

/-- It has happened, and its caller is told now. -/
theorem goes_told (same : w'.gallery = w.gallery) (placed : Placed c order caller op a)
    (stands : Stands (c.respond caller a) order caller w' t') :
    Goes faulty caller c order (c.respond caller a) w' t' := by
  obtain ⟨e',apart⟩ := e.respond placed
  exact ⟨order,same ▸ e',stands,apart⟩

/-- It happens, and its caller is told. -/
theorem goes_answered (waits : Waits c order caller op) (does : Does faulty op w.gallery a w'.gallery)
    (stands : ∀ order', Stands (c.respond caller a) order' caller w' t') :
    Goes faulty caller c order (c.respond caller a) w' t' := by
  obtain ⟨order',e',placed,apart⟩ := e.effect waits does
  obtain ⟨e'',apart'⟩ := e'.respond placed
  exact ⟨order',e'',stands order',apart.trans apart'⟩

/-- A call that is made, happens and is answered at once. -/
theorem goes_at_once (does : Does faulty op w.gallery a w'.gallery)
    (stands : ∀ order', Stands ((c.invoke caller op).respond caller a) order' caller w' t') :
    Goes faulty caller c order ((c.invoke caller op).respond caller a) w' t' := by
  obtain ⟨e',waits,apart⟩ := e.invoke caller op
  obtain ⟨order',e'',placed,apart'⟩ := e'.effect waits does
  obtain ⟨leads,apart''⟩ := e''.respond placed
  exact ⟨order',leads,stands order',(apart.trans apart').trans apart''⟩

end Goes

theorem upload_refused {input : UploadInput} {id : UUID} {err : Err} (ordered : w.Ordered)
    (absent : w.avatars.find id = none) (valid : validateUserID input.userID = .ok ())
    (refusal : S3.validateKey (originalObjectKey input.userID id) = .error err) :
    Does faulty (.upload input) w.gallery (refused (AvatarService.uploadFailed err)) w.gallery := by
  have dots : contains input.userID (lit "..") = true := by
    by_contra plain
    have accepted := (validateKey_original id valid).mpr (by simpa using plain)
    rw [refusal] at accepted
    contradiction
  have failed : refused (AvatarService.uploadFailed err) = .failed := by
    obtain ⟨format,args,rfl⟩ := validateKey_error refusal
    simp [refused,AvatarService.uploadFailed,Err.is]
  have does : Does faulty (.upload input) w.gallery _ _ :=
    .answered id w.now (admits_new ordered absent (.upload input))
  have applied : w.gallery.apply id w.now (.upload input) = (.failed,w.gallery) := by simp [apply,valid,dots]
  rw [applied] at does
  exact does.failing failed

/-- What is told that an avatar is not there has not changed anything. -/
theorem notFound_idle {id : UUID} {userID : GoString} (g g' : Gallery)
    (does : Does faulty (.delete id userID) g .notFound g') : g' = g := by
  generalize told : Answer.notFound = answer at does
  cases does with
  | answered id' now admits =>
    simp only [apply] at told ⊢
    split at told
    · rfl
    · next valid =>
      split at told
      · simp
      · next avatar found =>
        split at told <;> contradiction
  | lost => contradiction
  | cut => contradiction

/-! ### Points at which nobody waits for the gallery -/

def Quiet (t : Thread P) : Prop := finished t = none ∧ ∀ c order caller w, Stands c order caller w t

theorem quiet_responded (response : Response) : Quiet (Thread.respond response : Thread P) :=
  ⟨rfl,fun _ _ _ _ => trivial⟩

theorem quiet_afterOriginal (avatar : Avatar) (size : GoString) (result : Except Err Object) :
    Quiet (Thread.afterOriginal cfg avatar size result : Thread P) := by
  unfold Thread.afterOriginal
  split <;> exact quiet_responded _

theorem quiet_afterObject (avatar : Avatar) (size : GoString) (result : Except Err Object) :
    Quiet (Thread.afterObject cfg avatar size result : Thread P) := by
  unfold Thread.afterObject
  split
  · exact quiet_responded _
  · split
    · split
      · exact quiet_afterOriginal avatar size _
      · exact ⟨rfl,fun _ _ _ _ => trivial⟩
    · exact quiet_responded _

theorem quiet_serve (avatar : Avatar) (size ifNoneMatch : GoString) :
    Quiet (Thread.serve cfg avatar size ifNoneMatch : Thread P) := by
  unfold Thread.serve
  split
  · exact quiet_responded _
  · split
    · exact quiet_afterObject avatar size _
    · exact ⟨rfl,fun _ _ _ _ => trivial⟩

theorem quiet_background {kind : Thread.Kind} (background : kind = .process ∨ kind = .clean ∨ kind = .reconcile)
    (stays : Thread.Stays kind t) : Quiet t := by
  rcases stays with same | ⟨reply,rfl,same⟩
  · cases t <;> simp only [Thread.kind] at same <;> subst same <;> simp at background <;>
      exact ⟨rfl,fun _ _ _ _ => trivial⟩
  · cases reply <;> simp only [Thread.replyKind] at same <;> subst same <;> simp at background <;>
      exact ⟨rfl,fun _ _ _ _ => trivial⟩

theorem goes_quiet (e : Explains (Does faulty) empty c order w.gallery) (same : w'.gallery = w.gallery)
    (quiet : Quiet t') : Goes faulty caller c order (conclude c caller (finished t')) w' t' := by
  rw [quiet.1]
  exact goes_silent e same (quiet.2 _ _ _ _)

/-! ### The step -/

section Advance
variable {choice : Choice} (e : Explains (Does faulty) empty c order w.gallery) (sound : w.Sound)
  (ordered : w.Ordered) (troubled : choice.fails = true → faulty)
include e

include sound ordered in
theorem goes_uploadID {input : UploadInput} (valid : validateUserID input.userID = .ok ())
    (waits : Waits c order caller (.upload input)) {id : UUID}
    (done : World.perform .newUUID choice w = some (id,w')) :
    Goes faulty caller c order (conclude c caller (finished (Thread.afterID input id : Thread P))) w'
      (Thread.afterID input id : Thread P) := by
  have same : w'.gallery = w.gallery := World.perform_gallery rfl done
  unfold Thread.afterID
  split
  · next err refusal =>
    have absent : w.avatars.find id = none := by
      cases found : w.avatars.find id with
      | none => rfl
      | some r => exact absurd (sound.rows id r found).2 (World.perform_newUUID done).1
    have lost : Does faulty _ w.gallery _ w.gallery := upload_refused ordered absent valid refusal
    exact goes_answered e waits (same.symm ▸ lost) fun _ => trivial
  · exact goes_silent e same waits

include troubled in
theorem goes_uploadPut {input : UploadInput} {id : UUID} (waits : Waits c order caller (.upload input))
    {answer : Except Err Unit}
    (done : World.perform (.putObject (originalObjectKey input.userID id) (Thread.originalObject input)) choice w =
      some (answer,w')) :
    Goes faulty caller c order (conclude c caller (finished (Thread.afterPut input id answer : Thread P))) w'
      (Thread.afterPut input id answer : Thread P) := by
  have same : w'.gallery = w.gallery := World.perform_gallery rfl done
  rcases World.perform_split done with ⟨pick,effected⟩ | ⟨fails,⟨err,fault,failed⟩,-⟩
  · cases pick <;> simp only [World.effect,reduceCtorEq] at effected
    cases effected
    exact goes_silent e same waits
  · cases failed
    have lost : Does faulty (.upload input) w.gallery (refused (AvatarService.uploadFailed
        (.errorf "put object %s: %w" [originalObjectKey input.userID id] err))) w'.gallery :=
      same ▸ (Does.lost (troubled fails)).failing (refused_twice fault _ _ _ _)
    exact goes_answered e waits lost fun _ => trivial

include ordered troubled in
theorem goes_uploadCreate {input : UploadInput} {id : UUID} (ready : input.Ready w id)
    (absent : w.avatars.find id = none) (waits : Waits c order caller (.upload input))
    {answer : Except Err (Time × Time)}
    (done : World.perform (.insertAvatar (AvatarService.newAvatar input id) (Postgres.marshalThumbnails []))
      choice w = some (answer,w')) :
    Goes faulty caller c order (conclude c caller (finished (Thread.afterCreate input id answer : Thread P))) w'
      (Thread.afterCreate input id answer : Thread P) := by
  have does := insert_does ordered absent ready.1 ready.2.1 done troubled
  have accepted := (validateKey_original id ready.1).mpr ready.2.1
  cases created : Postgres.createResult (AvatarService.newAvatar input id) answer with
  | error err =>
    simp only [createdAs,created] at does
    simp only [Thread.afterCreate,created,accepted]
    exact goes_effect e waits does fun _ placed => placed
  | ok avatar =>
    simp only [createdAs,created] at does
    simp only [Thread.afterCreate,created]
    exact goes_effect e waits does fun _ placed => ⟨input,placed⟩

include sound ordered troubled in
/-- The first half of `DeleteCurrent` is answered, and the second begins. -/
theorem goes_currentSelect {userID : GoString} (valid : validateUserID userID = .ok ())
    (waits : Waits c order caller (.current userID)) {row : Except Err Row}
    (done : World.perform (.selectCurrent userID) choice w = some (row,w')) :
    Goes faulty caller c order (noticed c caller (.currentSelect userID : Thread P) ⟨.selectCurrent userID,row⟩
      (Thread.afterCurrent userID row)) w' (Thread.afterCurrent userID row : Thread P) := by
  have same : w'.gallery = w.gallery := World.perform_gallery rfl done
  have does := current_does sound ordered valid done troubled
  cases read : Postgres.getCurrentResult userID row with
  | error err =>
    simp only [noticed,Thread.afterCurrent,read] at does ⊢
    exact goes_answered e waits (same.symm ▸ does) fun _ => trivial
  | ok avatar =>
    simp only [noticed,Thread.afterCurrent,Thread.startDelete,valid,read] at does ⊢
    obtain ⟨order',e',placed,apart⟩ := e.effect waits does
    obtain ⟨e'',apart'⟩ := e'.respond placed
    obtain ⟨leads,waits',apart''⟩ := e''.invoke caller (.delete avatar.id userID)
    exact ⟨order',same.symm ▸ leads,⟨valid,waits'⟩,(apart.trans apart').trans apart''⟩

include sound ordered troubled in
theorem goes_deleteUpdate {id : UUID} {userID : GoString} (valid : validateUserID userID = .ok ())
    (waits : Waits c order caller (.delete id userID)) {answer : Except Err (GoString × Json)}
    (done : World.perform (.updateDeleted id userID) choice w = some (answer,w')) :
    Goes faulty caller c order (conclude c caller (finished (Thread.afterUpdate id userID answer : Thread P))) w'
      (Thread.afterUpdate id userID answer : Thread P) := by
  cases delete_does sound ordered valid done troubled with
  | hit s3Key thumbs thumbnails decoded does =>
    simp only [Thread.afterUpdate,decoded]
    exact goes_effect e waits does fun _ placed => placed
  | absent same does => exact goes_effect e waits does fun _ placed => ⟨valid,.inl placed⟩
  | foreign same foreign =>
    subst same
    exact goes_silent e rfl ⟨valid,.inr ⟨waits,foreign⟩⟩
  | fault err fault does =>
    simp only [Thread.afterUpdate,fault_noRows fault]
    exact goes_answered e waits (does.failing (refused_fault fault _ _)) fun _ => trivial

include sound ordered troubled in
theorem goes_deleteOwner {id : UUID} {userID : GoString} (valid : validateUserID userID = .ok ())
    (stands : Placed c order caller (.delete id userID) .notFound ∨
      Waits c order caller (.delete id userID) ∧ Foreign w id userID) {owner : Except Err GoString}
    (done : World.perform (.selectOwner id) choice w = some (owner,w')) :
    Goes faulty caller c order (c.respond caller (refused (Postgres.conflictError id userID owner))) w'
      (.deleteDone id userID (.error (Postgres.conflictError id userID owner)) : Thread P) := by
  have same : w'.gallery = w.gallery := World.perform_gallery rfl done
  have now {a : Answer} (does : Does faulty (.delete id userID) w.gallery a w.gallery) :
      Does faulty (.delete id userID) w.gallery a w'.gallery := by
    rw [same]
    exact does
  rcases owner_does sound ordered valid done troubled with ⟨told,does⟩ | ⟨-,does⟩
  · rw [told]
    rcases stands with placed | ⟨waits,foreign⟩
    · exact goes_told e same placed trivial
    · exact goes_answered e waits (now (does foreign)) fun _ => trivial
  · rcases stands with placed | ⟨waits,-⟩
    · -- the row has come meanwhile, and is somebody else's
      obtain ⟨order',e',waits,apart⟩ := e.retract placed notFound_idle
      obtain ⟨order'',e'',stands,apart'⟩ : Goes faulty caller c order' _ w' (.deleteDone id userID
          (.error (Postgres.conflictError id userID owner)) : Thread P) :=
        goes_answered e' waits (now does) fun _ => trivial
      exact ⟨order'',e'',stands,apart.trans apart'⟩
    · exact goes_answered e waits (now does) fun _ => trivial

include sound ordered troubled in
theorem goes_readSelect {r : Rest.ContentRequest} {id : UUID} {size : GoString}
    (waits : Waits c order caller (.metadata id)) {row : Except Err Row}
    (done : World.perform (.selectByID id) choice w = some (row,w')) :
    Goes faulty caller c order (c.respond caller (shown (Postgres.getByIDResult id row))) w'
      (Thread.afterSelect cfg r id size row : Thread P) := by
  have same : w'.gallery = w.gallery := World.perform_gallery rfl done
  have quiet : Quiet (Thread.afterSelect cfg r id size row : Thread P) := by
    unfold Thread.afterSelect
    split
    · exact quiet_responded _
    · exact quiet_serve _ _ _
  exact goes_answered e waits (same.symm ▸ metadata_does sound ordered done troubled) fun _ => quiet.2 _ _ _ _

include sound ordered troubled in
theorem goes_readCurrent {r : Rest.ContentRequest} {size : GoString} (valid : validateUserID r.userID = .ok ())
    (waits : Waits c order caller (.current r.userID)) {row : Except Err Row}
    (done : World.perform (.selectCurrent r.userID) choice w = some (row,w')) :
    Goes faulty caller c order (c.respond caller (shown (Postgres.getCurrentResult r.userID row))) w'
      (Thread.afterReadCurrent cfg r size row : Thread P) := by
  have same : w'.gallery = w.gallery := World.perform_gallery rfl done
  have quiet : Quiet (Thread.afterReadCurrent cfg r size row : Thread P) := by
    unfold Thread.afterReadCurrent
    split
    · split <;> exact quiet_responded _
    · exact quiet_serve _ _ _
  exact goes_answered e waits (same.symm ▸ current_does sound ordered valid done troubled) fun _ => quiet.2 _ _ _ _

include sound ordered troubled in
/-- Whatever a process does next, its call and the calls of the others go on. -/
theorem goes {call : Call} {next : call.Answer → Thread P} {answer : call.Answer} (knows : t.Sound w)
    (absent : ∀ id, t.inserting = some id → w.avatars.find id = none) (stands : Stands c order caller w t)
    (seen : t.view cfg = .call call next) (done : World.perform call choice w = some (answer,w')) :
    Goes faulty caller c order (noticed c caller t ⟨call,answer⟩ (next answer)) w' (next answer) := by
  have stays := Thread.kind_next seen answer
  cases t <;> simp only [Thread.view,reduceCtorEq] at seen <;> cases seen
  case uploadID input => exact goes_uploadID e sound ordered knows stands done
  case uploadPut input id => exact goes_uploadPut e troubled stands done
  case uploadCreate input id => exact goes_uploadCreate e ordered troubled knows (absent id rfl) stands done
  case uploadRemove input id err => exact goes_told e (World.perform_gallery rfl done) stands trivial
  case uploadPublish avatar =>
    obtain ⟨input,placed⟩ := stands
    exact goes_told e (World.perform_gallery rfl done) placed trivial
  case currentSelect userID => exact goes_currentSelect e sound ordered troubled stands.1 stands.2 done
  case deleteUpdate id userID => exact goes_deleteUpdate e sound ordered troubled stands.1 stands.2 done
  case deleteOwner id userID => exact goes_deleteOwner e sound ordered troubled stands.1 stands.2 done
  case deleteIterate id userID s3Key keys => exact goes_silent e (World.perform_gallery rfl done) stands
  case deletePublish id userID keys => exact goes_told e (World.perform_gallery rfl done) stands trivial
  case readSelect r id size => exact goes_readSelect e sound ordered troubled stands done
  case readCurrent r size => exact goes_readCurrent e sound ordered troubled stands.1 stands.2 done
  case readObject avatar size => exact goes_quiet e (World.perform_gallery rfl done) (quiet_afterObject _ _ _)
  case readOriginal avatar size => exact goes_quiet e (World.perform_gallery rfl done) (quiet_afterOriginal _ _ _)
  case processUpdate event id img thumbnails =>
    have proper : w.Proper _ := Thread.Sound.proper knows (show (Thread.processUpdate event id img thumbnails).view cfg =
      .call _ _ from rfl)
    have quiet : Quiet (Thread.afterResult event id answer : Thread P) := quiet_background (.inl rfl) stays
    exact goes_at_once e (complete_does sound ordered proper done troubled) fun _ => quiet.2 _ _ _ _
  case processStatus event id => exact goes_at_once e (fail_does sound ordered done troubled) fun _ => trivial
  all_goals exact goes_quiet e (World.perform_gallery rfl done) (quiet_background (by simp [Thread.kind]) stays)

end Advance

/-! ### Whole runs -/

theorem ordered_reached {breakers : Dependency → BreakerState} {s : GophProfile.State P}
    (reached : Reaches P cfg (fun _ _ => True) breakers s) : s.world.Ordered := by
  apply reached.invariant (fun s => s.world.Ordered) (World.initial_ordered breakers)
  intro s a s' _ ordered _ taken
  cases a with
  | start slot command =>
    obtain ⟨-,rfl⟩ := Machine.step_start taken
    exact ordered
  | advance slot choice =>
    obtain ⟨t,call,next,answer,w,-,-,performed,rfl⟩ := Machine.step_advance taken
    exact (World.perform_changed performed).ordered ordered
  | crash slot =>
    obtain ⟨-,rfl⟩ := Machine.step_crash taken
    exact ordered
  | environment event =>
    obtain ⟨w,moved,rfl⟩ := Machine.step_environment taken
    exact World.environment_ordered moved ordered

theorem query_reads (q : Query) {choice : Choice} {answer : q.statement.Answer}
    (done : World.perform q.statement choice w = some (answer,w')) : w' = w := by
  cases q <;> (cases World.perform_changed done; rfl)

/-- What a step is for the pool of processes. -/
def poolAct (_ : State P) : Action → State P → Option Act
  | .pool a, _ => some a
  | _, _ => none

variable {breakers : Dependency → BreakerState} {trace : List (State P × Action × State P)} {s s' : State P}

theorem pool_run (run : Path (step cfg) (start breakers) trace s) :
    Reaches P cfg (fun _ _ => True) breakers s.pool := by
  have alone : Path (system P cfg).step (start breakers : State P).pool _ s.pool := run.part State.pool poolAct ?_ ?_
  · exact Path.reachable alone fun _ _ => trivial
  · intro s a s' b taken act
    cases a with
    | pool a =>
      cases act
      obtain ⟨pool,moved,rfl⟩ := Option.map_eq_some_iff.mp taken
      exact moved
    | _ => contradiction
  · intro s a s' taken act
    cases a with
    | pool a => contradiction
    | ask reader q =>
      simp only [step] at taken
      split at taken
      · cases taken
        rfl
      · contradiction
    | answer reader choice =>
      simp only [step] at taken
      split at taken
      · next q asked =>
        obtain ⟨⟨answer,w⟩,performed,rfl⟩ := Option.map_eq_some_iff.mp taken
        rw [query_reads q performed]
      · contradiction
    | leave reader =>
      simp only [step] at taken
      split at taken
      · cases taken
        rfl
      · contradiction

/-- A call that the action fails. -/
def Action.fails : Action → Bool
  | .pool (.advance _ choice) | .answer _ choice => choice.fails
  | _ => false

/-- The calls of a run stand in an order that explains what has been answered, and whoever still
runs stands in it where it should. -/
structure Holds (faulty : Prop) (c : Seen) (order : List (Nat × Op × Answer)) (s : State P) : Prop where
  explains : Explains (Does faulty) empty c order s.pool.world.gallery
  threads : ∀ slot t, s.pool.procs slot = some t → Stands c order (.inl slot) s.pool.world t
  readers : ∀ reader q, s.readers reader = some (.asked q) →
    (∀ userID, q.user = some userID → validateUserID userID = .ok ()) ∧ Waits c order (.inr reader) q.op

/-- After a step of one caller the others stand where they stood. -/
theorem Holds.next (holds : Holds faulty c order s)
    (explains : Explains (Does faulty) empty c' order' s'.pool.world.gallery)
    (apart : Apart caller c order c' order') (grows : World.Grows s.pool.world s'.pool.world)
    (threads : ∀ slot t, s'.pool.procs slot = some t →
      Stands c' order' (.inl slot) s'.pool.world t ∨ .inl slot ≠ caller ∧ s.pool.procs slot = some t)
    (readers : ∀ reader q, s'.readers reader = some (.asked q) →
      (∀ userID, q.user = some userID → validateUserID userID = .ok ()) ∧ Waits c' order' (.inr reader) q.op ∨
        .inr reader ≠ caller ∧ s.readers reader = some (.asked q)) : Holds faulty c' order' s' where
  explains := explains
  threads slot t running := by
    rcases threads slot t running with now | ⟨other,before⟩
    · exact now
    · exact (holds.threads slot t before).apart apart other grows
  readers reader q asked := by
    rcases readers reader q asked with now | ⟨other,before⟩
    · exact now
    · obtain ⟨valid,waits⟩ := holds.readers reader q before
      exact ⟨valid,apart.waits other waits⟩

theorem refused_does {userID : GoString} {err : Err} (ordered : w.Ordered)
    (invalid : validateUserID userID = .error err)
    (names : ∀ id now, w.gallery.apply id now op = (.invalidUserID,w.gallery))
    (other : ∀ input, op = .upload input → validateUserID input.userID ≠ .ok ()) :
    Does faulty op w.gallery (refused err) w.gallery := by
  rw [refused_invalid invalid]
  exact Does.of_apply ordered other .nil (names _ _)

/-- A process that begins makes its first call, or has been refused already. -/
theorem goes_start (e : Explains (Does faulty) empty c order w.gallery) (ordered : w.Ordered) (command : Command) :
    Goes faulty caller c order (conclude (invoked c caller (opOf P command)) caller
      (finished (Thread.start command : Thread P))) w (Thread.start command : Thread P) := by
  have called (op : Op) {t : Thread P} (idle : finished t = none)
      (stands : Waits (c.invoke caller op) order caller op → Stands (c.invoke caller op) order caller w t) :
      Goes faulty caller c order (conclude (c.invoke caller op) caller (finished t)) w t := by
    obtain ⟨e',waits,apart⟩ := e.invoke caller op
    rw [idle]
    exact ⟨order,e',stands waits,apart⟩
  cases command with
  | upload input =>
    simp only [opOf,invoked,Thread.start,Thread.startUpload]
    split
    · next err invalid =>
      refine goes_at_once e (refused_does ordered invalid (by simp [apply,invalid]) ?_) fun _ => trivial
      intro input' same
      cases same
      simp [invalid]
    · exact called _ rfl id
  | delete id userID =>
    simp only [opOf,invoked,Thread.start,Thread.startDelete]
    split
    · next err invalid =>
      exact goes_at_once e (refused_does ordered invalid (by simp [apply,invalid]) (by simp)) fun _ => trivial
    · next valid => exact called _ rfl fun waits => ⟨valid,waits⟩
  | deleteCurrent userID =>
    simp only [opOf,invoked,Thread.start,Thread.startDeleteCurrent]
    split
    · next err invalid =>
      exact goes_at_once e (refused_does ordered invalid (by simp [apply,invalid]) (by simp)) fun _ => trivial
    · next valid => exact called _ rfl fun waits => ⟨valid,waits⟩
  | get r =>
    simp only [opOf,Thread.start,Thread.startGet]
    cases Rest.parseID P r.avatarID with
    | error response => exact goes_silent e rfl trivial
    | ok id =>
      cases Rest.parseSize r with
      | error response => exact goes_silent e rfl trivial
      | ok size => exact called (.metadata id) rfl fun waits => waits
  | getCurrent r =>
    simp only [opOf,Thread.start,Thread.startGetCurrent]
    cases Rest.parseSize r with
    | error response => exact goes_silent e rfl trivial
    | ok size =>
      cases valid : validateUserID r.userID with
      | error err => exact goes_silent e rfl trivial
      | ok => exact called (.current r.userID) rfl fun waits => ⟨valid,waits⟩
  | handleUpload maxPixels => exact goes_silent e rfl trivial
  | handleDelete => exact goes_silent e rfl trivial
  | reconcile age => exact goes_silent e rfl trivial

theorem query_does (sound : w.Sound) (ordered : w.Ordered) (q : Query)
    (valid : ∀ userID, q.user = some userID → validateUserID userID = .ok ()) {choice : Choice}
    {answer : q.statement.Answer} (done : World.perform q.statement choice w = some (answer,w'))
    (troubled : choice.fails = true → faulty) : Does faulty q.op w.gallery (q.answer answer) w.gallery := by
  cases q with
  | metadata id => exact metadata_does sound ordered done troubled
  | current userID => exact current_does sound ordered (valid userID rfl) done troubled
  | list userID => exact list_does sound ordered (valid userID rfl) done troubled

theorem holds_pool (holds : Holds faulty c order s)
    (reached : Reaches P cfg (fun _ _ => True) breakers s.pool) {a : Act}
    {pool : GophProfile.State P} (taken : (system P cfg).step s.pool a = some pool)
    (troubled : (Action.pool a).fails = true → faulty) :
    ∃ order', Holds faulty (notice c (s,.pool a,{ s with pool := pool })) order' { s with pool := pool } := by
  obtain ⟨sound,knows⟩ := reached.holds
  have ordered := ordered_reached reached
  cases a with
  | start slot command =>
    obtain ⟨free,rfl⟩ := Machine.step_start taken
    obtain ⟨order',explains,stands,apart⟩ : Goes faulty (.inl slot) c order _ s.pool.world (Thread.start command : Thread P) :=
      goes_start holds.explains ordered command
    refine ⟨order',holds.next explains apart (.refl _) (fun other t running => ?_) fun reader q asked => .inr ⟨by simp,asked⟩⟩
    rcases Pool.running_started running with ⟨rfl,rfl⟩ | ⟨different,running⟩
    · exact .inl stands
    · exact .inr ⟨by simpa using different,running⟩
  | advance slot choice =>
    obtain ⟨t,call,next,answer,w,running,seen,performed,rfl⟩ := Machine.step_advance taken
    have noticed : notice c (s,.pool (.advance slot choice),{ s with
        pool := s.pool.answered slot call answer (next answer) w }) =
          noticed c (.inl slot) t ⟨call,answer⟩ (next answer) := by
      simp [notice,running]
    obtain ⟨order',explains,stands,apart⟩ := goes holds.explains sound ordered troubled (knows slot t running)
      (fun id inserting => inserting_absent reached running inserting) (holds.threads slot t running) seen performed
    rw [noticed]
    refine ⟨order',holds.next explains apart (World.perform_changed performed).grows (fun other t' running' => ?_)
      fun reader q asked => .inr ⟨by simp,asked⟩⟩
    rcases Pool.running_answered running' with ⟨rfl,rfl⟩ | ⟨different,running'⟩
    · exact .inl stands
    · exact .inr ⟨by simpa using different,running'⟩
  | crash slot =>
    obtain ⟨-,rfl⟩ := Machine.step_crash taken
    obtain ⟨explains,apart⟩ := holds.explains.leave (.inl slot)
    refine ⟨order,holds.next explains apart (.refl _) (fun other t running => ?_) fun reader q asked => .inr ⟨by simp,asked⟩⟩
    obtain ⟨different,running⟩ := Pool.running_crashed running
    exact .inr ⟨by simpa using different,running⟩
  | environment event =>
    obtain ⟨w,moved,rfl⟩ := Machine.step_environment taken
    have same : w.gallery = s.pool.world.gallery := World.gallery_same (World.environment_avatars moved)
    refine ⟨order,same.symm ▸ holds.explains,fun slot t running => ?_,holds.readers⟩
    have alike : Apart (Sum.inr 0 : Caller) c order c order := .refl
    exact (holds.threads slot t running).apart alike (by simp) (World.environment_grows moved)

theorem Holds.step (holds : Holds faulty c order s) (reached : Reaches P cfg (fun _ _ => True) breakers s.pool)
    {a : Action} (taken : step cfg s a = some s') (troubled : a.fails = true → faulty) :
    ∃ order', Holds faulty (notice c (s,a,s')) order' s' := by
  obtain ⟨sound,-⟩ := reached.holds
  have ordered := ordered_reached reached
  -- the processes stand where they stood
  have threads (reader : Nat) {c' : Seen} {order' : List (Nat × Op × Answer)} : ∀ slot t, s.pool.procs slot = some t →
      Stands c' order' (.inl slot) s.pool.world t ∨ (Sum.inl slot : Caller) ≠ .inr reader ∧ s.pool.procs slot = some t :=
    fun slot t running => .inr ⟨by simp,running⟩
  -- and so do the other readers
  have others {reader other : Nat} {r : Option Reading} {q : Query} (different : other ≠ reader)
      (asked : Function.update s.readers reader r other = some (.asked q)) :
      (Sum.inr other : Caller) ≠ .inr reader ∧ s.readers other = some (.asked q) := by
    rw [Function.update_of_ne different] at asked
    exact ⟨by simpa using different,asked⟩
  cases a with
  | pool a =>
    obtain ⟨pool,moved,rfl⟩ := Option.map_eq_some_iff.mp taken
    exact holds_pool holds reached moved troubled
  | ask reader q =>
    simp only [Gallery.step] at taken
    split at taken
    · cases taken
      obtain ⟨explains,waits,apart⟩ := holds.explains.invoke (.inr reader) q.op
      cases began : q.start with
      | asked q' =>
        have whole : q' = q ∧ ∀ userID, q.user = some userID → validateUserID userID = .ok () := by
          unfold Query.start at began
          split at began
          · next anybody => exact ⟨(Reading.asked.inj began).symm,by simp [anybody]⟩
          · next userID named =>
            split at began
            · contradiction
            · next valid =>
              refine ⟨(Reading.asked.inj began).symm,fun user same => ?_⟩
              rw [named] at same
              cases same
              exact valid
        obtain ⟨rfl,valid⟩ := whole
        have noticed : notice c (s,.ask reader q',s.setReader reader (some (.asked q'))) =
            c.invoke (.inr reader) q'.op := by simp [notice,State.setReader]
        rw [noticed]
        refine ⟨order,holds.next explains apart (.refl _) (threads reader) fun other q asked => ?_⟩
        by_cases same : other = reader
        · subst same
          have here : q' = q := by simpa [State.setReader] using asked
          subst here
          exact .inl ⟨valid,waits⟩
        · exact .inr (others same asked)
      | told answer =>
        have refusal : ∃ userID err, validateUserID userID = .error err ∧ answer = refused err ∧ q.user = some userID := by
          unfold Query.start at began
          split at began
          · contradiction
          · next userID named =>
            split at began
            · next err invalid => exact ⟨userID,err,invalid,(Reading.told.inj began).symm,named⟩
            · contradiction
        obtain ⟨userID,err,invalid,rfl,named⟩ := refusal
        have does : Does faulty q.op s.pool.world.gallery (refused err) s.pool.world.gallery := by
          cases q with
          | metadata => contradiction
          | current =>
            cases named
            exact refused_does ordered invalid (by simp [apply,Query.op,invalid]) (by simp [Query.op])
          | list =>
            cases named
            exact refused_does ordered invalid (by simp [apply,Query.op,invalid]) (by simp [Query.op])
        obtain ⟨order',explains',placed,apart'⟩ := explains.effect waits does
        obtain ⟨explains'',apart''⟩ := explains'.respond placed
        have noticed : notice c (s,.ask reader q,s.setReader reader (some (.told (refused err)))) =
            (c.invoke (.inr reader) q.op).respond (.inr reader) (refused err) := by simp [notice,State.setReader]
        rw [noticed]
        refine ⟨order',holds.next explains'' ((apart.trans apart').trans apart'') (.refl _) (threads reader)
          fun other q asked => ?_⟩
        by_cases same : other = reader
        · subst same
          simp [State.setReader] at asked
        · exact .inr (others same asked)
    · contradiction
  | answer reader choice =>
    simp only [Gallery.step] at taken
    split at taken
    · next q asked =>
      obtain ⟨⟨answer,w⟩,performed,rfl⟩ := Option.map_eq_some_iff.mp taken
      obtain ⟨valid,waits⟩ := holds.readers reader q asked
      obtain rfl := query_reads q performed
      have does := query_does sound ordered q valid performed troubled
      obtain ⟨order',explains,placed,apart⟩ := holds.explains.effect waits does
      obtain ⟨explains',apart'⟩ := explains.respond placed
      refine ⟨order',?_⟩
      simp only [notice,Function.update_self]
      refine holds.next explains' (apart.trans apart') (.refl _) (threads reader) fun other q' asked' => ?_
      by_cases same : other = reader
      · subst same
        simp at asked'
      · exact .inr (others same asked')
    · contradiction
  | leave reader =>
    simp only [Gallery.step] at taken
    split at taken
    · cases taken
      obtain ⟨explains,apart⟩ := holds.explains.leave (.inr reader)
      refine ⟨order,holds.next explains apart (.refl _) (threads reader) fun other q asked => ?_⟩
      by_cases same : other = reader
      · subst same
        simp [State.setReader] at asked
      · exact .inr (others same asked)
    · contradiction

theorem holds_run (run : Path (step cfg) (start breakers) trace s)
    (troubled : ∀ entry ∈ trace, entry.2.1.fails = true → faulty) : ∃ order, Holds faulty (seen trace) order s := by
  induction run with
  | nil =>
    have gallery : (World.initial breakers).gallery = empty := rfl
    exact ⟨[],gallery ▸ .empty _ _,by simp [start,Pool.initial],by simp [start]⟩
  | snoc before taken ih =>
    obtain ⟨order,holds⟩ := ih fun entry member => troubled entry (List.mem_append_left _ member)
    rw [seen_snoc]
    exact holds.step (pool_run before) taken (troubled _ (List.mem_append_right _ List.mem_cons_self))

/-- Whatever the servers, the workers and the reconciler do at once, and whatever of it goes wrong,
the answers and the gallery that is left are those of calls made one after the other; without a
failing call none of them fails for it. The queries among them are the service's own programs. -/
theorem gallery_linearizable (faulty : Prop) (run : Path (step cfg) (start breakers) trace s)
    (troubled : ∀ entry ∈ trace, entry.2.1.fails = true → faulty) :
    Linearizable (Does faulty) empty (seen trace).history s.pool.world.gallery ∧
      ∀ q : Query, q.program = q.start.program := by
  obtain ⟨order,holds⟩ := holds_run run troubled
  exact ⟨⟨order,holds.explains.lin⟩,program_start⟩

namespace Sample

def ann : GoString := lit "ann"

/-- An upload, a look at it, its deletion, and another look. -/
def actions : List Action :=
  (Schedule.upload 0 (Schedule.input ann) Schedule.other).map .pool ++
    [.ask 0 (.list ann),.answer 0 (.ok .none)] ++
      (Schedule.delete 1 Schedule.other ann []).map .pool ++ [.ask 1 (.metadata Schedule.other),.answer 1 (.ok .none)]

def told (s : State Packages.sample) (reader : Nat) : Option Answer :=
  match s.readers reader with
  | some (.told a) => some a
  | _ => none

def looked (s : State Packages.sample) : Bool :=
  match told s 0, told s 1 with
  | some (.avatars [_]), some .notFound => true
  | _, _ => false

end Sample

theorem gallery_linearizable_sample : ∃ trace s,
    Path (step .standard) (start (P := Packages.sample) fun _ => .fresh 5) trace s ∧ Sample.looked s = true ∧
      Linearizable (Does False) empty (seen trace).history s.pool.world.gallery := by
  obtain ⟨trace,s,run,calm,met,-⟩ := exists_path (step .standard) (fun _ a => a.fails = false)
    (start (P := Packages.sample) fun _ => .fresh 5) Sample.actions Sample.looked (by decide +kernel)
  have untroubled : ∀ entry ∈ trace, entry.2.1.fails = true → False := by
    intro entry member fails
    rw [calm entry member] at fails
    contradiction
  exact ⟨trace,s,run,met,(gallery_linearizable False run untroubled).1⟩

end GophProfile.Gallery

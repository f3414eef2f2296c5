import GophProfile.Isolation

/-! Deletion: of all the requests that race for one avatar one wins, its UPDATE fixes the
list of keys it announces, and the others learn from their SELECT why they lost. -/
namespace GophProfile

open Domain Effect Transition

variable {P : Packages} {cfg : Config} {breakers : Dependency → BreakerState}

/-- No infrastructure failure: calls succeed and processes live. -/
def Undisturbed (_ : State P) (a : Act) : Prop :=
  (∀ slot choice, a = .advance slot choice → choice.healthy = true) ∧ ∀ slot, a ≠ .crash slot

/-! ### The announced keys -/

/-- The key list of an event: the original's key, then every thumbnail key the row has. -/
def KeysOf (r : Row) (keys : List GoString) : Prop :=
  ∃ rest thumbnails, keys = r.s3Key :: rest ∧
    Postgres.unmarshalThumbnails r.thumbnailS3Keys = .ok thumbnails ∧
    rest.Perm (thumbnails.map Prod.snd) ∧ keys.Nodup

theorem thumbnailKeys_names (userID : GoString) (id : UUID) :
    ((thumbnailKeys userID id).map Prod.fst).Nodup := by
  have names : (thumbnailKeys userID id).map Prod.fst = [thumbnailSmall,thumbnailLarge] := rfl
  rw [names]
  decide

theorem ownKeys_nodup {userID : GoString} (valid : validateUserID userID = .ok ()) (id : UUID) :
    (ownKeys userID id).Nodup := by
  have sizes_differ : thumbnailSmall ≠ thumbnailLarge := by decide
  have thumbnails : thumbnailObjectKey userID id thumbnailSmall ≠
      thumbnailObjectKey userID id thumbnailLarge :=
    fun same => sizes_differ (thumbnailObjectKey_inj valid valid same).2.2
  have small := original_ne_thumbnail valid valid id id thumbnailSmall
  have large := original_ne_thumbnail valid valid id id thumbnailLarge
  simp [ownKeys,thumbnailKeys,thumbnails,small,large]

/-- The whole map is announced as all of the avatar's keys. -/
theorem Row.Sound.announced {r : Row} (sound : r.Sound) {thumbnails : GoMap}
    (whole : thumbnails.Perm (thumbnailKeys r.userID r.id)) {order : List GoString}
    (ranged : order.Perm (thumbnails.map Prod.fst)) :
    (allS3Keys r.s3Key thumbnails order).Perm (ownKeys r.userID r.id) := by
  have unique := (whole.map Prod.fst).nodup_iff.mpr (thumbnailKeys_names r.userID r.id)
  obtain ⟨rest,keys,values⟩ := allS3Keys_perm r.s3Key unique ranged
  rw [keys,sound.s3Key]
  exact (values.trans (whole.map Prod.snd)).cons _

/-- A row that is in order announces its keys, in whatever order the map is ranged over. -/
theorem Row.Sound.keysOf {r : Row} (sound : r.Sound) {thumbnails : GoMap}
    (decoded : Postgres.unmarshalThumbnails r.thumbnailS3Keys = .ok thumbnails)
    {order : List GoString} (ranged : order.Perm (thumbnails.map Prod.fst)) :
    KeysOf r (allS3Keys r.s3Key thumbnails order) := by
  rcases sound.decoded decoded with rfl | whole
  · obtain ⟨rest,keys,values⟩ := allS3Keys_perm r.s3Key (by simp) ranged
    obtain rfl := List.Perm.eq_nil values
    exact ⟨[],[],keys,decoded,values,keys ▸ List.nodup_singleton _⟩
  · have unique := (whole.map Prod.fst).nodup_iff.mpr (thumbnailKeys_names r.userID r.id)
    obtain ⟨rest,keys,values⟩ := allS3Keys_perm r.s3Key unique ranged
    have all := sound.announced whole ranged
    exact ⟨rest,thumbnails,keys,decoded,values,all.nodup_iff.mpr (ownKeys_nodup sound.valid r.id)⟩

/-! ### What a deletion has behind it -/

abbrev Trace (P : Packages) := List (State P × Act × State P)

/-- The UPDATE of this request found the row live and its own. -/
def Won (trace : Trace P) (slot : Nat) (id : UUID) (userID : GoString) (r : Row) : Prop :=
  ∃ s choice s', (s,Action.advance slot choice,s') ∈ trace ∧
    s.procs slot = some (.deleteUpdate id userID) ∧ s.world.live id = some r ∧ r.userID = userID ∧
    s'.world.avatars.find id = some (r.deleted s.world.now)

/-- No step of this request has changed the row. -/
def Harmless (trace : Trace P) (slot : Nat) (id : UUID) : Prop :=
  ∀ s choice s', (s,Action.advance slot choice,s') ∈ trace →
    s'.world.avatars.find id = s.world.avatars.find id

/-- What the follow-up SELECT makes of the row it sees. -/
def Verdict (w : World) (id : UUID) (userID : GoString) (err : Err) : Prop :=
  ((∃ r, w.live id = some r ∧ r.userID ≠ userID) ∧ err.is .forbidden = true ∧
    err.is .avatarNotFound = false) ∨
  ((∀ r, w.live id = some r → r.userID = userID) ∧ err.is .avatarNotFound = true ∧
    err.is .forbidden = false)

/-- The request was refused for its user id, or by the SELECT after its UPDATE. -/
def Refused (trace : Trace P) (slot : Nat) (id : UUID) (userID : GoString) (err : Err) : Prop :=
  validateUserID userID = .error err ∨
  ∃ s choice s', (s,Action.advance slot choice,s') ∈ trace ∧
    s.procs slot = some (.deleteOwner id userID) ∧ Verdict s.world id userID err

def announcement (id : UUID) (keys : List GoString) : (c : Call) × c.Answer :=
  ⟨.publishDelete (AvatarService.deleteEvent id keys),.ok .acked⟩

def Thread.Past (trace : Trace P) (s : State P) (slot : Nat) : Thread P → Prop
  | .currentSelect _ => ∀ id, Harmless trace slot id
  | .deleteUpdate id _ => Harmless trace slot id
  | .deleteOwner id _ => Harmless trace slot id
  | .deleteIterate id userID s3Key keys =>
    ∃ r, Won trace slot id userID r ∧ r.Sound ∧ s3Key = r.s3Key ∧
      Postgres.unmarshalThumbnails r.thumbnailS3Keys = .ok keys
  | .deletePublish id userID keys => ∃ r, Won trace slot id userID r ∧ KeysOf r keys
  | .deleteDone id userID (.ok ()) =>
    ∃ r keys, Won trace slot id userID r ∧ KeysOf r keys ∧ (slot,announcement id keys) ∈ s.log
  | .deleteDone id userID (.error err) =>
    Harmless trace slot id ∧ Refused trace slot id userID err
  | _ => True

variable {trace : Trace P} {s s' : State P} {slot : Nat} {id : UUID} {userID : GoString}

theorem Won.later {r : Row} (won : Won trace slot id userID r) (entry : State P × Act × State P) :
    Won (trace ++ [entry]) slot id userID r := by
  obtain ⟨s₁,choice,s₂,member,rest⟩ := won
  exact ⟨s₁,choice,s₂,List.mem_append_left _ member,rest⟩

theorem Refused.later {err : Err} (refused : Refused trace slot id userID err)
    (entry : State P × Act × State P) : Refused (trace ++ [entry]) slot id userID err := by
  rcases refused with invalid | ⟨s₁,choice,s₂,member,rest⟩
  · exact .inl invalid
  · exact .inr ⟨s₁,choice,s₂,List.mem_append_left _ member,rest⟩

theorem Harmless.next (harmless : Harmless trace slot id) {a : Act}
    (last : s'.world.avatars.find id = s.world.avatars.find id) :
    Harmless (trace ++ [(s,a,s')]) slot id := by
  intro s₁ choice s₂ member
  rcases List.mem_append.mp member with old | new
  · exact harmless s₁ choice s₂ old
  · cases List.mem_singleton.mp new
    exact last

theorem Harmless.other (harmless : Harmless trace slot id) {a : Act}
    (elsewhere : ∀ choice, a ≠ .advance slot choice) : Harmless (trace ++ [(s,a,s')]) slot id := by
  intro s₁ choice s₂ member
  rcases List.mem_append.mp member with old | new
  · exact harmless s₁ choice s₂ old
  · cases List.mem_singleton.mp new
    exact absurd rfl (elsewhere choice)

theorem log_grows {a : Act} (taken : (system P cfg).step s a = some s') :
    ∀ entry ∈ s.log, entry ∈ s'.log := by
  intro entry member
  cases a with
  | start =>
    obtain ⟨_,rfl⟩ := Machine.step_start taken
    exact member
  | advance =>
    obtain ⟨_,_,_,_,_,_,_,_,rfl⟩ := Machine.step_advance taken
    exact List.mem_append_left _ member
  | crash =>
    obtain ⟨_,rfl⟩ := Machine.step_crash taken
    exact member
  | environment =>
    obtain ⟨_,_,rfl⟩ := Machine.step_environment taken
    exact member

theorem Thread.Past.other {a : Act} (taken : (system P cfg).step s a = some s')
    (elsewhere : ∀ choice, a ≠ .advance slot choice) {t : Thread P} (past : t.Past trace s slot) :
    t.Past (trace ++ [(s,a,s')]) s' slot := by
  cases t with
  | currentSelect => exact fun id => (past id).other elsewhere
  | deleteUpdate => exact Harmless.other past elsewhere
  | deleteOwner => exact Harmless.other past elsewhere
  | deleteIterate =>
    obtain ⟨r,won,rest⟩ := past
    exact ⟨r,won.later _,rest⟩
  | deletePublish =>
    obtain ⟨r,won,rest⟩ := past
    exact ⟨r,won.later _,rest⟩
  | deleteDone id userID result =>
    rcases result with err | _
    · exact ⟨past.1.other elsewhere,past.2.later _⟩
    · obtain ⟨r,keys,won,listed,logged⟩ := past
      exact ⟨r,keys,won.later _,listed,log_grows taken _ logged⟩
  | _ => trivial

/-- An operation that is no deletion, and a freshly started one, has nothing to show. -/
theorem Thread.past_of_kind {t : Thread P} (other : t.kind ≠ .delete) : t.Past trace s slot := by
  cases t with
  | currentSelect | deleteUpdate | deleteOwner | deleteIterate | deletePublish | deleteDone =>
    exact absurd rfl other
  | _ => trivial

theorem Thread.past_startDelete (harmless : Harmless trace slot id) :
    (startDelete id userID : Thread P).Past trace s slot := by
  unfold startDelete
  split
  · next err refused => exact ⟨harmless,.inl refused⟩
  · exact harmless

theorem Thread.past_start (command : Command) (unused : ∀ id, Harmless trace slot id) :
    (start command : Thread P).Past trace s slot := by
  cases command with
  | delete id userID => exact past_startDelete (unused id)
  | deleteCurrent userID =>
    simp only [start,startDeleteCurrent]
    split
    · trivial
    · exact unused
  | upload input => simp only [start,startUpload]; split <;> trivial
  | get r =>
    simp only [start,startGet]
    split
    · trivial
    · split <;> trivial
  | getCurrent r =>
    simp only [start,startGetCurrent]
    split
    · trivial
    · split <;> trivial
  | handleUpload | handleDelete | reconcile => trivial

theorem conflict_verdict (userID : GoString) {w w' : World} {choice : Choice} {answer : Except Err GoString}
    (healthy : choice.healthy = true)
    (done : World.perform (.selectOwner id) choice w = some (answer,w')) :
    w' = w ∧ Verdict w id userID (Postgres.conflictError id userID answer) := by
  cases choice with
  | fail => contradiction
  | ok pick =>
    simp only [World.perform] at done
    cases pick <;> simp only [World.effect,reduceCtorEq] at done
    cases found : w.live id with
    | none =>
      simp only [found,World.rowOr] at done
      cases done
      exact ⟨rfl,.inr ⟨by simp [found],rfl,rfl⟩⟩
    | some r =>
      simp only [found,World.rowOr] at done
      cases done
      refine ⟨rfl,?_⟩
      by_cases owner : r.userID = userID
      · refine .inr ⟨fun r' same => by rw [found] at same; cases same; exact owner,?_,?_⟩ <;>
          simp [Postgres.conflictError,Except.map,owner,Err.is]
      · refine .inl ⟨⟨r,found,owner⟩,?_,?_⟩ <;>
          simp [Postgres.conflictError,Except.map,owner,Err.is]

/-- Without a failure the UPDATE has matched the row or nothing. -/
theorem updateDeleted_healthy {w w' : World} {choice : Choice}
    {answer : Except Err (GoString × Json)} (healthy : choice.healthy = true)
    (done : World.perform (.updateDeleted id userID) choice w = some (answer,w')) :
    (answer = .error .noRows ∧ w' = w ∧ ∀ r, w.live id = some r → r.userID ≠ userID) ∨
      ∃ r, w.live id = some r ∧ r.userID = userID ∧
        answer = .ok (r.s3Key,r.thumbnailS3Keys) ∧ w' = w.write (r.deleted w.now) := by
  cases choice with
  | fail => contradiction
  | ok pick =>
    simp only [World.perform] at done
    cases pick <;> simp only [World.effect,reduceCtorEq] at done
    split at done
    · next r found =>
      split at done
      · next owner => cases done; exact .inr ⟨r,found,owner,rfl,rfl⟩
      · next other =>
        cases done
        exact .inl ⟨rfl,rfl,fun r' live => by rw [found] at live; cases live; exact other⟩
    · next none =>
      cases done
      exact .inl ⟨rfl,rfl,by simp [none]⟩

theorem publishDelete_healthy {w w' : World} {choice : Choice} {event : AvatarDeleteEvent}
    {answer : Except Err Confirmation} (healthy : choice.healthy = true)
    (done : World.perform (.publishDelete event) choice w = some (answer,w')) :
    answer = .ok .acked ∧ w' = w.queueDelete event := by
  cases choice with
  | fail => contradiction
  | ok pick =>
    simp only [World.perform] at done
    cases pick <;> simp only [World.effect,reduceCtorEq] at done
    next confirmation queued =>
      have acked : confirmation = .acked := by simpa [Choice.healthy] using healthy
      subst acked
      split at done
      · contradiction
      · next taken =>
        have queued : queued = true := by simpa using taken
        subst queued
        cases done
        exact ⟨rfl,rfl⟩

/-- One step of a deletion. -/
theorem Thread.Past.mine {choice : Choice} {t : Thread P} {c : Call} {next : c.Answer → Thread P}
    {answer : c.Answer} {w : World} (world : s.world.Sound) (healthy : choice.healthy = true)
    (running : s.procs slot = some t) (seen : t.view cfg = .call c next)
    (done : World.perform c choice s.world = some (answer,w)) (past : t.Past trace s slot) :
    (next answer).Past (trace ++ [(s,.advance slot choice,s.answered slot c answer (next answer) w)])
      (s.answered slot c answer (next answer) w) slot := by
  by_cases delete : (next answer).kind = .delete
  · have mine := kind_of_next seen delete (by decide)
    cases t <;> simp only [kind,reduceCtorEq] at mine <;> simp only [view,reduceCtorEq] at seen
    case currentSelect user =>
      cases seen
      have same : w = s.world := by cases World.perform_changed done; rfl
      have harmless : ∀ t : Thread P, ∀ id, Harmless
          (trace ++ [(s,.advance slot choice,s.answered slot (.selectCurrent user) answer t w)]) slot id := by
        intro t id
        refine (past id).next ?_
        rw [Pool.answered_world,same]
      simp only [afterCurrent]
      split
      · trivial
      · exact past_startDelete (harmless _ _)
    case deleteUpdate id user =>
      cases seen
      rcases updateDeleted_healthy healthy done with ⟨rfl,rfl,-⟩ | ⟨r,live,owner,rfl,rfl⟩
      · exact Harmless.next past rfl
      · obtain ⟨found,-⟩ := World.live_iff.mp live
        have row := (world.rows id r found).1
        have key : r.id = id := Table.find_key found
        obtain ⟨keys,decoded,-⟩ := row.readable
        simp only [afterUpdate,decoded]
        refine ⟨r,⟨s,choice,_,List.mem_append_right _ List.mem_cons_self,running,live,owner,?_⟩,row,
          rfl,decoded⟩
        rw [Pool.answered_world,World.find_write]
        simp [Row.deleted,key,found]
    case deleteOwner id user =>
      cases seen
      obtain ⟨rfl,verdict⟩ := conflict_verdict user healthy done
      exact ⟨Harmless.next past rfl,.inr ⟨s,choice,_,List.mem_append_right _ List.mem_cons_self,
        running,verdict⟩⟩
    case deleteIterate id user s3Key keys =>
      cases seen
      obtain ⟨r,won,row,rfl,decoded⟩ := past
      exact ⟨r,won.later _,row.keysOf decoded answer.property⟩
    case deletePublish id user keys =>
      cases seen
      obtain ⟨rfl,rfl⟩ := publishDelete_healthy healthy done
      obtain ⟨r,won,listed⟩ := past
      exact ⟨r,keys,won.later _,listed,List.mem_append_right _ List.mem_cons_self⟩
  · exact past_of_kind delete

theorem Thread.past {t : Thread P} (run : Run P cfg breakers trace s)
    (undisturbed : ∀ entry ∈ trace, Undisturbed entry.1 entry.2.1) (running : s.procs slot = some t) :
    t.Past trace s slot := by
  refine Machine.history (fun trace s slot t => t.Past trace s slot) run Undisturbed undisturbed
    ?_ ?_ ?_ running
  · intro trace s slot command before all free
    apply past_start
    intro id s₁ choice s₂ member
    have idle := Machine.unused before (fun entry inside => (all entry inside).2) free
    rcases List.mem_append.mp member with old | new
    · exact absurd rfl (idle _ old choice)
    · cases List.mem_singleton.mp new
  · intro trace s slot choice t c next answer w before all permitted running seen done past
    exact Past.mine (Run.reaches before).holds.1 (permitted.1 slot choice rfl) running seen done past
  · intro trace s s' a slot t taken elsewhere _ past
    exact Past.other taken elsewhere past

/-! ### One announcement -/

/-- A publication of the delete event of this avatar. -/
def announces (id : UUID) (entry : Nat × ((c : Call) × c.Answer)) : Bool :=
  match entry.2.1 with
  | .publishDelete event => event.avatarID == id.string
  | _ => false

def Succeeded (s : State P) (slot : Nat) (id : UUID) (userID : GoString) : Prop :=
  s.procs slot = some (.deleteDone id userID (.ok ()))

/-- Nobody has succeeded and nothing is announced, or one request has done both. -/
def Announced (id : UUID) (s : State P) : Prop :=
  (s.log.filter (announces id) = [] ∧ ∀ slot userID, ¬Succeeded s slot id userID) ∨
  ∃ slot userID keys, Succeeded s slot id userID ∧
    s.log.filter (announces id) = [(slot,announcement id keys)]

theorem Thread.succeeds_by {t : Thread P} {c : Call} {next : c.Answer → Thread P} {answer : c.Answer}
    (seen : t.view cfg = .call c next) (success : next answer = .deleteDone id userID (.ok ())) :
    ∃ keys, t = .deletePublish id userID keys := by
  have delete := kind_of_next (k := .delete) seen (by rw [success]; rfl) (by decide)
  cases t <;> simp only [kind,reduceCtorEq] at delete <;> simp only [view,reduceCtorEq] at seen <;>
    cases seen
  case currentSelect user =>
    simp only [afterCurrent,startDelete] at success
    split at success
    · cases success
    · split at success <;> cases success
  case deleteUpdate wanted user =>
    simp only [afterUpdate] at success
    split at success
    · split at success <;> cases success
    · split at success <;> cases success
  case deleteOwner => cases success
  case deleteIterate => cases success
  case deletePublish id' user keys =>
    cases success
    exact ⟨keys,rfl⟩

theorem announced_step {a : Act} (reached : Reaches P cfg Undisturbed breakers s)
    (announced : Announced id s) (permitted : Undisturbed s a)
    (taken : (system P cfg).step s a = some s') : Announced id s' := by
  have keep : s'.log.filter (announces id) = s.log.filter (announces id) →
      (∀ slot userID, Succeeded s' slot id userID ↔ Succeeded s slot id userID) → Announced id s' := by
    intro log same
    rcases announced with ⟨none,nobody⟩ | ⟨slot,userID,keys,success,one⟩
    · exact .inl ⟨log.trans none,fun slot userID now => nobody slot userID ((same slot userID).mp now)⟩
    · exact .inr ⟨slot,userID,keys,(same slot userID).mpr success,log.trans one⟩
  cases a with
  | start slot command =>
    obtain ⟨free,rfl⟩ := Machine.step_start taken
    refine keep rfl ?_
    intro other userID
    constructor
    · intro success
      rcases Pool.running_started success with ⟨rfl,equal⟩ | ⟨_,before⟩
      · have none := (Thread.tokens_start (P := P) command).2
        rw [show Thread.start command = _ from equal.symm] at none
        contradiction
      · exact before
    · intro success
      have different : other ≠ slot := by
        rintro rfl
        rw [Succeeded,free] at success
        contradiction
      exact (s.setProc_other _ different).trans success
  | crash slot => exact absurd rfl (permitted.2 slot)
  | environment event =>
    obtain ⟨_,_,rfl⟩ := Machine.step_environment taken
    exact keep rfl fun _ _ => Iff.rfl
  | advance slot choice =>
    obtain ⟨t,c,next,answer,w,running,seen,performed,rfl⟩ := Machine.step_advance taken
    have seen : t.view cfg = .call c next := seen
    have unfinished : ∀ userID, ¬Succeeded s slot id userID := by
      intro userID success
      rw [Succeeded,running] at success
      cases success
      cases seen
    by_cases mine : announces id (slot,⟨c,answer⟩) = true
    · -- the publication itself: nobody else holds the deletion of this avatar
      have called : ∃ event, c = .publishDelete event ∧ event.avatarID = id.string := by
        unfold announces at mine
        split at mine
        · next event called => exact ⟨event,called,by simpa using mine⟩
        · contradiction
      obtain ⟨event,rfl,text⟩ := called
      obtain ⟨id',userID,keys,rfl,rfl⟩ := Thread.call_publishDelete seen
      obtain rfl := UUID.string_injective text
      obtain ⟨rfl,rfl⟩ := publishDelete_healthy (permitted.1 slot choice rfl) performed
      cases seen
      rcases announced with ⟨none,nobody⟩ | ⟨winner,user,keys',success,one⟩
      · refine .inr ⟨slot,userID,keys,by simp [Succeeded],?_⟩
        rw [Pool.answered_log,List.filter_append,none]
        simp only [List.nil_append,List.filter_cons,mine,if_true,List.filter_nil]
        rfl
      · have same := deleter_unique reached success running rfl rfl
        subst same
        exact absurd success (unfinished user)
    · refine keep ?_ ?_
      · rw [Pool.answered_log,List.filter_append]
        simp [mine]
      · intro other userID
        constructor
        · intro success
          rcases Pool.running_answered success with ⟨rfl,equal⟩ | ⟨_,before⟩
          · obtain ⟨keys,rfl⟩ := Thread.succeeds_by seen equal.symm
            cases seen
            simp [announces,AvatarService.deleteEvent] at mine
          · exact before
        · intro success
          have different : other ≠ slot := by
            rintro rfl
            exact unfinished userID success
          exact (s.answered_other c answer _ w different).trans success

theorem announced (run : Run P cfg breakers trace s)
    (undisturbed : ∀ entry ∈ trace, Undisturbed entry.1 entry.2.1) (id : UUID) : Announced id s := by
  have reached : Reaches P cfg Undisturbed breakers s := Path.reachable run undisturbed
  refine Reachable.invariant (Announced id) (.inl ⟨rfl,?_⟩) ?_ reached
  · intro slot userID success
    simp [Succeeded,Pool.initial] at success
  · intro s a s' before held permitted taken
    exact announced_step before held permitted taken

/-- Of all the requests for one avatar at most one succeeds. It found the row live and
its own, and its event, the only one there is, lists the row's original and thumbnails at
that moment without repetition. Every other request leaves the row as it is, and is
refused for its user id or by what its SELECT saw. -/
theorem deletion_at_most_once (run : Run P cfg breakers trace s)
    (undisturbed : ∀ entry ∈ trace, Undisturbed entry.1 entry.2.1) (id : UUID) :
    (∀ i j u v, Succeeded s i id u → Succeeded s j id v → i = j) ∧
    (∀ i u, Succeeded s i id u → ∃ r keys, Won trace i id u r ∧ KeysOf r keys ∧
      s.log.filter (announces id) = [(i,announcement id keys)]) ∧
    (∀ entry ∈ s.log, announces id entry = true → ∃ u, Succeeded s entry.1 id u) ∧
    (∀ i u err, s.procs i = some (.deleteDone id u (.error err)) →
      Harmless trace i id ∧ Refused trace i id u err) := by
  have known := announced run undisturbed id
  refine ⟨?_,?_,?_,?_⟩
  · intro i j u v one two
    exact deleter_unique run.reaches one two rfl rfl
  · intro i u success
    obtain ⟨r,keys,won,listed,logged⟩ := Thread.past run undisturbed success
    refine ⟨r,keys,won,listed,?_⟩
    have inside : (i,announcement id keys) ∈ s.log.filter (announces id) :=
      List.mem_filter.mpr ⟨logged,by simp [announces,announcement,AvatarService.deleteEvent]⟩
    rcases known with ⟨none,_⟩ | ⟨slot,user,keys',_,one⟩
    · rw [none] at inside
      contradiction
    · rw [one] at inside ⊢
      rw [List.mem_singleton.mp inside]
  · intro entry member mine
    have inside : entry ∈ s.log.filter (announces id) := List.mem_filter.mpr ⟨member,mine⟩
    rcases known with ⟨none,_⟩ | ⟨slot,user,keys,success,one⟩
    · rw [none] at inside
      contradiction
    · rw [one] at inside
      obtain rfl := List.mem_singleton.mp inside
      exact ⟨user,success⟩
  · intro i u err failed
    exact Thread.past run undisturbed failed

/-! ### Three requests at once -/

def undisturbed : Act → Bool
  | .advance _ choice => choice.healthy
  | .crash _ => false
  | _ => true

theorem undisturbed_iff {s : State P} {a : Act} : undisturbed a = true ↔ Undisturbed s a := by
  cases a with
  | advance slot choice =>
    constructor
    · intro healthy
      exact ⟨fun _ _ same => by cases same; exact healthy,by simp⟩
    · intro good
      exact good.1 slot choice rfl
  | crash slot => exact ⟨fun crashed => absurd crashed Bool.false_ne_true,fun good => absurd rfl (good.2 slot)⟩
  | start => exact ⟨fun _ => ⟨by simp,by simp⟩,fun _ => rfl⟩
  | environment => exact ⟨fun _ => ⟨by simp,by simp⟩,fun _ => rfl⟩

instance (s : State P) (a : Act) : Decidable (Undisturbed s a) :=
  decidable_of_iff _ undisturbed_iff

def succeeded (s : State P) (slot : Nat) (id : UUID) (userID : GoString) : Bool :=
  match s.procs slot with
  | some (.deleteDone id' userID' (.ok ())) => decide (id' = id ∧ userID' = userID)
  | _ => false

theorem succeeded_iff {s : State P} {slot : Nat} {id : UUID} {userID : GoString} :
    succeeded s slot id userID = true ↔ Succeeded s slot id userID := by
  unfold succeeded Succeeded
  split
  · next id' userID' done => simp [done]
  · next other =>
    constructor
    · intro absurd
      contradiction
    · intro success
      exact absurd success (other id userID)

/-- The owner asks twice, a stranger once; the first UPDATE of the owner wins. -/
theorem deletion_at_most_once_race : ∃ trace s r keys,
    Run Packages.sample .standard (fun _ => .fresh 5) trace s ∧
      Won trace 1 .nil (lit "ann") r ∧ KeysOf r keys ∧
      s.log.filter (announces .nil) = [(1,announcement .nil keys)] := by
  obtain ⟨trace,s,run,calm,met,-⟩ := Schedule.run Undisturbed
    (Schedule.upload 0 (Schedule.input (lit "ann")) .nil ++
      [.start 1 (.delete .nil (lit "ann")),.start 2 (.delete .nil (lit "ann")),
        .start 3 (.delete .nil (lit "bob")),Schedule.answer 3 .none,Schedule.answer 3 .none,
        Schedule.answer 1 .none,Schedule.answer 2 .none,Schedule.answer 2 .none,
        Schedule.answer 1 (.order []),Schedule.answer 1 (.confirmation .acked true)])
    (fun s => succeeded s 1 .nil (lit "ann")) (by decide +kernel)
  have success : Succeeded s 1 .nil (lit "ann") := succeeded_iff.mp met
  obtain ⟨r,keys,won,listed,announced⟩ :=
    (deletion_at_most_once run calm .nil).2.1 1 (lit "ann") success
  exact ⟨trace,s,r,keys,run,won,listed,announced⟩

end GophProfile

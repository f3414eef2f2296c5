import GophProfile.Deletion

/-! Files of deleted avatars. Whatever is left of one has a removal still to come, as long
as nothing is stored behind the back of its deletion; so nothing is left when no handler
and no message of the avatar is. -/
namespace GophProfile

open Domain Effect Transition

variable {P : Packages} {cfg : Config} {allowed : State P → Act → Prop}
variable {breakers : Dependency → BreakerState}

/-! ### Removals still to come -/

/-- The operation has the removal of this object ahead of it. -/
def Thread.Removes (key : GoString) : Thread P → Prop
  | .deleteIterate _ _ s3Key keys =>
    ∀ order : List GoString, order.Perm (keys.map Prod.fst) → key ∈ allS3Keys s3Key keys order
  | .deletePublish _ _ keys => key ∈ keys
  | .cleanIterate event => key ∈ event.s3Keys
  | .cleanRemove _ next rest _ => key ∈ next :: rest
  | _ => False

def Awaited (s : State P) (key : GoString) : Prop :=
  (∃ slot t, s.procs slot = some t ∧ t.Removes key) ∨ ∃ event ∈ s.world.deletes, key ∈ event.s3Keys

theorem Awaited.mono {s s' : State P} {key : GoString} (awaited : Awaited s key)
    (procs : ∀ slot t, s.procs slot = some t → s'.procs slot = some t)
    (deletes : ∀ event ∈ s.world.deletes, event ∈ s'.world.deletes) : Awaited s' key := by
  rcases awaited with ⟨slot,t,running,removes⟩ | ⟨event,queued,listed⟩
  · exact .inl ⟨slot,t,procs slot t running,removes⟩
  · exact .inr ⟨event,deletes event queued,listed⟩

/-- The storage takes the keys of an avatar that has a row. -/
theorem Row.Sound.accepts {r : Row} (sound : r.Sound) {key : GoString} (own : key ∈ ownKeys r.userID r.id) :
    S3.validateKey key = .ok () := by
  rcases List.mem_cons.mp own with rfl | thumbnail
  · exact (validateKey_original r.id sound.valid).mpr sound.plain
  · obtain ⟨entry,member,rfl⟩ := List.mem_map.mp thumbnail
    rw [thumbnailKeys_eq] at member
    obtain ⟨name,built,rfl⟩ := List.mem_map.mp member
    exact (validateKey_thumbnail r.id sound.valid built).mpr sound.plain

theorem validateKeys_ok {keys : List GoString} (all : ∀ key ∈ keys, S3.validateKey key = .ok ()) :
    S3.validateKeys keys = .ok () := by
  induction keys with
  | nil => rfl
  | cons key rest ih =>
    rw [S3.validateKeys,all key List.mem_cons_self]
    exact ih fun other member => all other (List.mem_cons_of_mem _ member)

namespace Thread

variable {w w' : World} {choice : Choice} {key : GoString}

theorem removes_nextRemoval (event : AvatarDeleteEvent) {keys : List GoString} (inside : key ∈ keys)
    (errs : List Err) : (nextRemoval event keys errs : Thread P).Removes key := by
  cases keys with
  | nil => contradiction
  | cons next rest => exact inside

/-- The holder of a removal passes it on, or carries it out. -/
theorem removes_next {t : Thread P} {c : Call} {next : c.Answer → Thread P} {answer : c.Answer}
    (healthy : choice.healthy = true) (seen : t.view cfg = .call c next)
    (done : World.perform c choice w = some (answer,w')) (removes : t.Removes key)
    (present : w'.objects key ≠ none) :
    (next answer).Removes key ∨ ∃ event ∈ w'.deletes, key ∈ event.s3Keys := by
  cases t with
  | deleteIterate id userID s3Key keys =>
    cases seen
    exact .inl (removes answer.val answer.property)
  | deletePublish id userID keys =>
    cases seen
    obtain ⟨rfl,rfl⟩ := publishDelete_healthy healthy done
    exact .inr ⟨_,List.mem_cons_self,removes⟩
  | cleanIterate event =>
    cases seen
    exact .inl (removes_nextRemoval event (answer.property.mem_iff.mpr removes) [])
  | cleanRemove event removed rest errs =>
    cases seen
    have gone : w' = w.remove removed := by
      cases choice with
      | fail => contradiction
      | ok pick =>
        simp only [World.perform] at done
        cases pick <;> simp only [World.effect,reduceCtorEq] at done
        cases done
        rfl
    subst gone
    rcases List.mem_cons.mp removes with rfl | later
    · simp [World.remove] at present
    · simp only [afterRemoval]
      split <;> exact .inl (removes_nextRemoval event later _)
  | _ => exact removes.elim

/-- A message that is taken from the queue is in the hands of its handler. -/
theorem queued_next {t : Thread P} {c : Call} {next : c.Answer → Thread P} {answer : c.Answer}
    (world : w.Sound) (seen : t.view cfg = .call c next)
    (done : World.perform c choice w = some (answer,w'))
    {event : AvatarDeleteEvent} (queued : event ∈ w.deletes) (listed : key ∈ event.s3Keys) :
    (next answer).Removes key ∨ event ∈ w'.deletes := by
  cases World.perform_changed done with
  | receivedDelete =>
    have received : t = .cleanReceive := by
      cases t <;> simp only [view,View.call.injEq,reduceCtorEq,false_and] at seen
      rfl
    subst received
    cases seen
    obtain ⟨_,after⟩ := World.perform_receiveDelete done
    by_cases same : event = answer
    · subst same
      left
      obtain ⟨id,userID,_,⟨r,found,rfl,_⟩,own⟩ := world.deletes event queued
      obtain rfl : r.id = id := Table.find_key found
      have accepted := validateKeys_ok fun key member =>
        (world.rows r.id r found).1.accepts (own key member)
      have listing : event.s3Keys ≠ [] := List.ne_nil_of_mem listed
      simp only [startClean,if_neg listing,accepted]
      exact listed
    · right
      rw [after]
      exact (List.mem_erase_of_ne same).mpr queued
  | queuedDelete => exact .inr (List.mem_cons_of_mem _ queued)
  | requeuedDelete => exact .inr (List.mem_cons_of_mem _ queued)
  | _ => exact .inr queued

end Thread

variable {s : State P}

/-- A removal still to come stays so until it is carried out. -/
theorem awaited_next {slot : Nat} {choice : Choice} {t : Thread P} {c : Call}
    {next : c.Answer → Thread P} {answer : c.Answer} {w : World} {key : GoString}
    (world : s.world.Sound) (healthy : choice.healthy = true) (running : s.procs slot = some t)
    (seen : t.view cfg = .call c next) (done : World.perform c choice s.world = some (answer,w))
    (awaited : Awaited s key) (present : w.objects key ≠ none) :
    Awaited (s.answered slot c answer (next answer) w) key := by
  have mine : (next answer).Removes key → Awaited (s.answered slot c answer (next answer) w) key :=
    fun removes => .inl ⟨slot,_,s.answered_same slot c answer _ w,removes⟩
  rcases awaited with ⟨other,u,acting,removes⟩ | ⟨event,queued,listed⟩
  · by_cases same : other = slot
    · subst same
      obtain rfl := Option.some.inj (running.symm.trans acting)
      rcases Thread.removes_next healthy seen done removes present with passed | published
      · exact mine passed
      · exact .inr published
    · exact .inl ⟨other,u,(s.answered_other c answer _ w same).trans acting,removes⟩
  · rcases Thread.queued_next world seen done queued listed with taken | stays
    · exact mine taken
    · exact .inr ⟨event,stays,listed⟩

/-! ### What must not happen behind a deletion -/

/-- A thumbnail is not stored for a deleted row, unless its removal is still to come. -/
def PutCovered (s : State P) (a : Act) : Prop :=
  ∀ slot choice event id avatar img name buf rest thumbnails r, a = .advance slot choice →
    s.procs slot = some (.processPut event id avatar img name buf rest thumbnails) →
    s.world.avatars.find id = some r → r.deletedAt ≠ none →
    Awaited s (thumbnailObjectKey avatar.userID avatar.id name)

/-- A row is not deleted while a thumbnail is stored that it does not list. -/
def DeleteCovered (s : State P) (a : Act) : Prop :=
  ∀ slot choice id userID r, a = .advance slot choice →
    s.procs slot = some (.deleteUpdate id userID) → s.world.live id = some r → r.userID = userID →
    r.thumbnailS3Keys = Postgres.marshalThumbnails [] →
    ∀ name ∈ sizes, s.world.objects (thumbnailObjectKey userID id name) = none

/-- A step without a failure that goes round no deletion. -/
def Orderly (s : State P) (a : Act) : Prop := Undisturbed s a ∧ PutCovered s a ∧ DeleteCovered s a

/-- Everything that is left of a deleted avatar awaits its removal. -/
def Swept (s : State P) : Prop :=
  ∀ id r, s.world.avatars.find id = some r → r.deletedAt ≠ none →
    ∀ key ∈ ownKeys r.userID id, s.world.objects key ≠ none → Awaited s key

/-- The winner of a deletion removes all that is there. -/
theorem removes_deleted {slot : Nat} {choice : Choice} {r : Row} {w : World}
    {answer : Except Err (GoString × Json)} (world : s.world.Sound)
    (covered : DeleteCovered s (.advance slot choice)) (healthy : choice.healthy = true)
    (running : s.procs slot = some (.deleteUpdate r.id r.userID)) (live : s.world.live r.id = some r)
    (done : World.perform (.updateDeleted r.id r.userID) choice s.world = some (answer,w))
    {key : GoString} (own : key ∈ ownKeys r.userID r.id) (present : s.world.objects key ≠ none) :
    (Thread.afterUpdate r.id r.userID answer : Thread P).Removes key := by
  have row := (world.rows r.id r (World.live_iff.mp live).1).1
  have won : answer = .ok (r.s3Key,r.thumbnailS3Keys) := by
    cases choice with
    | fail => contradiction
    | ok pick =>
      simp only [World.perform] at done
      cases pick <;> simp only [World.effect,reduceCtorEq] at done
      rw [live] at done
      simp only [if_true] at done
      cases done
      rfl
  subst won
  rcases row.thumbs with empty | full
  · have original : key = r.s3Key := by
      rcases List.mem_cons.mp own with same | thumbnail
      · exact same.trans row.s3Key.symm
      · obtain ⟨entry,member,rfl⟩ := List.mem_map.mp thumbnail
        rw [thumbnailKeys_eq] at member
        obtain ⟨name,built,rfl⟩ := List.mem_map.mp member
        exact absurd (covered slot choice r.id r.userID r rfl running live rfl empty name built) present
    subst original
    simp only [Thread.afterUpdate,empty,Postgres.unmarshal_marshal]
    exact fun order _ => List.mem_cons_self
  · simp only [Thread.afterUpdate,full,Postgres.unmarshal_marshal]
    intro order ranged
    exact (row.announced (Postgres.sortedByKey_perm _) ranged).mem_iff.mpr own

/-- An object that appears for an avatar with a row is a thumbnail. -/
theorem thumbnail_stored {slot : Nat} {choice : Choice} {t : Thread P} {c : Call}
    {next : c.Answer → Thread P} {answer : c.Answer} {w : World}
    (reached : Reaches P cfg allowed breakers s) (running : s.procs slot = some t)
    (seen : t.view cfg = .call c next) (done : World.perform c choice s.world = some (answer,w))
    {id : UUID} {r : Row} (found : s.world.avatars.find id = some r) {key : GoString}
    (own : KeyOf id key) (was : s.world.objects key = none) (present : w.objects key ≠ none) :
    w.avatars = s.world.avatars ∧ ∃ event avatar img name buf rest thumbnails,
      t = .processPut event id avatar img name buf rest thumbnails ∧
        key = thumbnailObjectKey avatar.userID avatar.id name := by
  obtain ⟨world,threads⟩ := reached.holds
  have sound := threads slot t running
  cases World.perform_changed done with
  | put written object =>
    obtain rfl : key = written := by
      by_contra different
      simp only [World.put,Function.update_of_ne different] at present
      exact present was
    refine ⟨rfl,?_⟩
    rcases Thread.call_putObject seen with ⟨input,id',rfl,rfl,-⟩ |
      ⟨event,id',avatar,img,name,rest,thumbnails,rfl,rfl⟩
    · obtain rfl := own.unique (keyOf_original sound.1 id')
      have absent := inserting_absent reached running rfl
      rw [found] at absent
      contradiction
    · obtain ⟨⟨_,same,owner,has,user,_⟩,_⟩ := sound
      have valid := (world.rows id' owner has).1.valid
      have other := keyOf_thumbnail (user ▸ valid) avatar.id name
      obtain rfl := (own.unique other).trans same
      exact ⟨event,avatar,img,name,_,rest,thumbnails,rfl,rfl⟩
  | removed written =>
    by_cases here : key = written
    · subst here
      simp [World.remove] at present
    · simp only [World.remove,Function.update_of_ne here] at present
      exact absurd was present
  | _ => exact absurd was present

theorem swept_step {s' : State P} {a : Act} (reached : Reaches P cfg allowed breakers s)
    (orderly : Orderly s a) (taken : (system P cfg).step s a = some s') (swept : Swept s) :
    Swept s' := by
  obtain ⟨undisturbed,puts,deletes⟩ := orderly
  obtain ⟨world,threads⟩ := reached.holds
  cases a with
  | start slot command =>
    obtain ⟨free,rfl⟩ := Machine.step_start taken
    intro id r found deleted key own present
    refine (swept id r found deleted key own present).mono ?_ fun _ member => member
    intro other t running
    have different : other ≠ slot := by
      rintro rfl
      rw [free] at running
      contradiction
    exact (s.setProc_other _ different).trans running
  | crash slot => exact absurd rfl (undisturbed.2 slot)
  | environment event =>
    obtain ⟨w,moved,rfl⟩ := Machine.step_environment taken
    intro id r found deleted key own present
    have rows := World.environment_avatars moved
    have objects := World.environment_objects moved
    exact (swept id r (rows ▸ found) deleted key own (objects ▸ present)).mono (fun _ _ h => h)
      (World.environment_deletes moved)
  | advance slot choice =>
    obtain ⟨t,c,next,answer,w,running,seen,performed,rfl⟩ := Machine.step_advance taken
    have seen : t.view cfg = .call c next := seen
    have healthy := undisturbed.1 slot choice rfl
    have changed := World.perform_changed performed
    intro id r' found' deleted' key own present
    replace found' : w.avatars.find id = some r' := found'
    replace present : w.objects key ≠ none := present
    have keep := fun awaited => awaited_next world healthy running seen performed awaited present
    by_cases before : s.world.avatars.find id = none
    · -- a new row is not deleted
      obtain ⟨a,thumbs,rfl,rfl⟩ := changed.found_new before (by rw [found']; simp)
      cases changed with
      | nothing => rw [before] at found'; contradiction
      | inserted _ _ avatars done =>
        rw [World.find_inserted done,if_pos rfl] at found'
        cases found'
        exact absurd rfl deleted'
    · obtain ⟨r,found⟩ := Option.ne_none_iff_exists'.mp before
      obtain ⟨r'',found'',later⟩ := changed.grows.rows id r found
      obtain rfl := Option.some.inj (found''.symm.trans found')
      rw [later.userID] at own
      have row := (world.rows id r found).1
      have here : r.id = id := Table.find_key found
      by_cases was : s.world.objects key = none
      · obtain ⟨rows,event,avatar,img,name,buf,rest,thumbnails,rfl,rfl⟩ := thumbnail_stored reached
          running seen performed found (here ▸ Thread.keyOf_ownKeys row.valid (here.symm ▸ own)) was present
        rw [rows] at found'
        obtain rfl := Option.some.inj (found.symm.trans found')
        exact keep (puts slot choice event id avatar img name buf rest thumbnails r rfl running found deleted')
      · by_cases live : r.deletedAt = none
        · obtain rfl := changed.deletedAt_set found live found' deleted'
          obtain rfl := Thread.call_updateDeleted seen
          cases seen
          subst here
          have removes := removes_deleted world deletes healthy running
            (World.live_iff.mpr ⟨found,live⟩) performed own was
          exact .inl ⟨slot,_,s.answered_same slot _ answer _ w,removes⟩
        · exact keep (swept id r found live key own was)

/-! ### Nothing is left -/

/-- A deleted avatar whose event has been consumed, with no handler and no message left. -/
structure AtRest (s : State P) (id : UUID) (r : Row) : Prop where
  found : s.world.avatars.find id = some r
  deleted : r.deletedAt ≠ none
  announced : ∃ event ∈ s.world.sentDeletes, event.avatarID = id.string
  uploads : ∀ event ∈ s.world.uploads, event.avatarID ≠ id.string
  deletes : ∀ event ∈ s.world.deletes, event.avatarID ≠ id.string
  idle : ∀ slot t, s.procs slot = some t → t.kind = .process ∨ t.kind = .clean →
    t.subject ≠ some id.string

theorem swept_of_orderly (reached : Reaches P cfg Orderly breakers s) : Swept s := by
  refine Reachable.invariant Swept ?_ ?_ reached
  · intro id r found
    simp [Pool.initial,World.initial] at found
  · intro s a s' before swept orderly taken
    exact swept_step before orderly taken swept

theorem ownDelete_text {w : World} (world : w.Sound) {event : AvatarDeleteEvent} (own : w.OwnDelete event)
    {id : UUID} {key : GoString} (mine : KeyOf id key) (listed : key ∈ event.s3Keys) :
    event.avatarID = id.string := by
  obtain ⟨id',userID,text,⟨r,found,rfl,_⟩,keys⟩ := own
  have valid := (world.rows id' r found).1.valid
  obtain rfl := mine.unique (Thread.keyOf_ownKeys valid (keys key listed))
  exact text

/-- A removal to come is that of a deletion not announced yet, or of its handler. -/
theorem Thread.removes_own {w : World} (world : w.Sound) {t : Thread P} (sound : t.Sound w)
    {id : UUID} {key : GoString} (mine : KeyOf id key) (removes : t.Removes key) :
    t.announcing = some id ∨ (t.kind = .clean ∧ t.subject = some id.string) := by
  have announcing : ∀ {id' : UUID} {userID : GoString}, w.HasDeleted id' userID →
      key ∈ ownKeys userID id' → some id' = some id := by
    rintro id' userID ⟨r,found,rfl,_⟩ own
    have valid := (world.rows id' r found).1.valid
    rw [mine.unique (keyOf_ownKeys valid own)]
  cases t with
  | deleteIterate id' userID s3Key keys =>
    obtain ⟨has,rfl,entries⟩ := sound
    exact .inl (announcing has (sound_announced entries _ key (removes _ (.refl _))))
  | deletePublish id' userID keys => exact .inl (announcing sound.1 (sound.2 key removes))
  | cleanIterate event =>
    exact .inr ⟨rfl,congrArg some (ownDelete_text world sound mine removes)⟩
  | cleanRemove event next rest errs =>
    exact .inr ⟨rfl,congrArg some (ownDelete_text world sound.1 mine (sound.2 key removes))⟩
  | _ => exact removes.elim

/-- What is left of a deleted avatar awaits its removal, and nothing that removes is left. -/
theorem AtRest.gone {id : UUID} {r : Row} (rest : AtRest s id r) (reached : Reaches P cfg Orderly breakers s)
    {key : GoString} (own : key ∈ ownKeys r.userID id) : s.world.objects key = none := by
  by_contra present
  obtain ⟨world,threads⟩ := reached.holds
  have row := (world.rows id r rest.found).1
  have mine : KeyOf id key := Thread.keyOf_ownKeys row.valid own
  rcases swept_of_orderly reached id r rest.found rest.deleted key own present with
    ⟨slot,t,running,removes⟩ | ⟨event,queued,listed⟩
  · rcases Thread.removes_own world (threads slot t running) mine removes with announcing | ⟨clean,busy⟩
    · obtain ⟨event,sent,text⟩ := rest.announced
      exact announcing_unsent reached running announcing event sent text
    · exact rest.idle slot t running (.inr clean) busy
  · exact rest.deletes event queued (ownDelete_text world (world.deletes event queued) mine listed)

/-- In a run without failures in which nothing is stored behind the back of a deletion,
a deleted avatar at rest has no object left. -/
theorem deleted_leaves_nothing (reached : Reaches P cfg Orderly breakers s) {id : UUID} {r : Row}
    (rest : AtRest s id r) : ∀ key ∈ ownKeys r.userID id, s.world.objects key = none :=
  fun _ own => rest.gone reached own

/-! ### Two runs -/

/-- A thumbnail is stored for a live row only, and a row is deleted only once it lists
every thumbnail that is stored. -/
def promptly (s : State P) (a : Act) : Bool :=
  undisturbed a && match a with
  | .advance slot _ =>
    match s.procs slot with
    | some (.processPut _ id _ _ _ _ _ _) => (s.world.avatars.find id).all fun r => r.deletedAt.isNone
    | some (.deleteUpdate id userID) => (s.world.live id).all fun r =>
      (match r.thumbnailS3Keys with
        | .obj [] => false
        | _ => true) ||
      sizes.all fun name => (s.world.objects (thumbnailObjectKey userID id name)).isNone
    | _ => true
  | _ => true

theorem orderly_of_promptly {a : Act} (checked : promptly s a = true) : Orderly s a := by
  unfold promptly at checked
  rw [Bool.and_eq_true] at checked
  obtain ⟨calm,checked⟩ := checked
  refine ⟨undisturbed_iff.mp calm,?_,?_⟩
  · rintro slot choice event id avatar img name buf rest thumbnails r rfl running found deleted
    simp only [running,found,Option.all_some,Option.isNone_iff_eq_none] at checked
    exact absurd checked deleted
  · rintro slot choice id userID r rfl running live owner empty name built
    have nothing : r.thumbnailS3Keys = .obj [] := empty
    simp only [running,live,Option.all_some,nothing,Bool.false_or,List.all_eq_true,
      Option.isNone_iff_eq_none] at checked
    exact checked name built

def startsBelow (n : Nat) : Act → Bool
  | .start slot _ => decide (slot < n)
  | _ => true

/-- The avatar is at rest, as far as the first slots show. -/
def atRest (s : State P) (n : Nat) (id : UUID) : Bool :=
  ((s.world.avatars.find id).any fun r => r.deletedAt.isSome) &&
    s.world.sentDeletes.any (fun event => event.avatarID == id.string) &&
    s.world.uploads.isEmpty && s.world.deletes.isEmpty &&
    (List.range n).all fun slot => (s.procs slot).all fun t => t.kind != .process && t.kind != .clean

theorem atRest_of_test {trace : Trace P} (run : Run P cfg breakers trace s) {n : Nat} {id : UUID}
    (slots : (trace.map fun entry => entry.2.1).all (startsBelow n) = true)
    (tested : atRest s n id = true) : ∃ r, s.world.avatars.find id = some r ∧ AtRest s id r := by
  simp only [atRest,Bool.and_eq_true,Option.any_eq_true,List.any_eq_true,List.isEmpty_iff,beq_iff_eq,
    List.all_eq_true,List.mem_range] at tested
  obtain ⟨⟨⟨⟨⟨r,found,deleted⟩,announced⟩,uploads⟩,deletes⟩,idle⟩ := tested
  refine ⟨r,found,found,?_,announced,by simp [uploads],by simp [deletes],?_⟩
  · exact Option.isSome_iff_ne_none.mp deleted
  · intro slot t running busy
    by_cases low : slot < n
    · have quiet := idle slot low
      rw [running] at quiet
      rcases busy with process | clean
      · simp [process] at quiet
      · simp [clean] at quiet
    · have free : s.procs slot = none := by
        apply Machine.unstarted run
        intro entry member command started
        have below := List.all_eq_true.mp slots _ (List.mem_map_of_mem member)
        rw [started] at below
        simp only [startsBelow,decide_eq_true_eq] at below
        omega
      rw [free] at running
      contradiction

/-- An avatar is processed, deleted with its thumbnails listed, and cleaned up. -/
theorem deleted_leaves_nothing_processed : ∃ (s : State Packages.sample) (r : Row),
    AtRest s .nil r ∧ r.userID = lit "ann" ∧
      ∀ key ∈ ownKeys r.userID .nil, s.world.objects key = none := by
  obtain ⟨trace,s,run,orderly,met,actions⟩ := Schedule.run (fun s a => promptly s a = true)
    (Schedule.upload 0 (Schedule.input (lit "ann")) .nil ++
      Schedule.receive 1 1000 (Schedule.event (lit "ann") .nil) ++ Schedule.complete 1 ++
      Schedule.delete 2 .nil (lit "ann") [thumbnailSmall,thumbnailLarge] ++
      Schedule.clean 3 (Schedule.deletion (lit "ann") .nil))
    (fun s => atRest s 4 .nil && (s.world.avatars.find .nil).any fun r => r.userID == lit "ann")
    (by decide +kernel)
  rw [Bool.and_eq_true] at met
  obtain ⟨r,found,rest⟩ := atRest_of_test run (by rw [actions]; decide) met.1
  have user := met.2
  rw [found] at user
  have reached : Reaches Packages.sample .standard Orderly (fun _ => .fresh 5) s :=
    Path.reachable run fun entry member =>
      orderly_of_promptly (orderly entry member)
  exact ⟨s,r,rest,by simpa using user,deleted_leaves_nothing reached rest⟩

/-- A worker has read the picture when its avatar is deleted and cleaned up; then it
stores the thumbnails. -/
theorem thumbnails_outlive_deletion : ¬∀ (P : Packages) (cfg : Config)
    (breakers : Dependency → BreakerState) (s : State P) (id : UUID) (r : Row),
    Reaches P cfg Undisturbed breakers s → AtRest s id r →
      ∀ key ∈ ownKeys r.userID id, s.world.objects key = none := by
  intro all
  obtain ⟨trace,s,run,calm,met,actions⟩ := Schedule.run Undisturbed
    (Schedule.upload 0 (Schedule.input (lit "ann")) .nil ++
      Schedule.receive 1 1000 (Schedule.event (lit "ann") .nil) ++
      Schedule.delete 2 .nil (lit "ann") [] ++
      Schedule.clean 3 ⟨UUID.nil.string,[originalObjectKey (lit "ann") .nil]⟩ ++ Schedule.complete 1)
    (fun s => atRest s 4 .nil && (s.world.avatars.find .nil).any fun r =>
      (ownKeys r.userID .nil).any fun key => (s.world.objects key).isSome)
    (by decide +kernel)
  rw [Bool.and_eq_true] at met
  obtain ⟨r,found,rest⟩ := atRest_of_test run (by rw [actions]; decide) met.1
  have left := met.2
  rw [found] at left
  obtain ⟨key,own,present⟩ := List.any_eq_true.mp left
  have gone := all _ _ _ s .nil r (Path.reachable run calm) rest key own
  rw [gone] at present
  contradiction

end GophProfile

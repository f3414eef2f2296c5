import GophProfile.Tokens

/-! Avatars do not disturb each other: a step changes the row and the objects of the
avatar it works on, and nothing else. -/
namespace GophProfile

open Domain Effect Transition

variable {P : Packages} {cfg : Config} {allowed : State P → Act → Prop}
variable {breakers : Dependency → BreakerState}

/-- The row a statement writes. -/
def Call.row : Call → Option UUID
  | .insertAvatar a _ => some a.id
  | .updateDeleted id _ => some id
  | .updateResult id _ _ _ => some id
  | .updateStatus id _ => some id
  | _ => none

/-- The object a request writes or removes. -/
def Call.key : Call → Option GoString
  | .putObject key _ => some key
  | .removeObject key => some key
  | _ => none

namespace World

variable {w w' : World} {c : Call}

theorem Changed.row_frame (changed : Changed w c w') {id : UUID} (other : c.row ≠ some id) :
    w'.avatars.find id = w.avatars.find id := by
  have writes : ∀ r : Row, r.id ≠ id → (w.write r).avatars.find id = w.avatars.find id := by
    intro r different
    rw [find_write,if_neg (Ne.symm different)]
  cases changed with
  | inserted a thumbs avatars done =>
    have different : id ≠ a.id := fun same => other (same ▸ rfl)
    rw [find_inserted done,if_neg different]
  | deleted r => exact writes _ fun same => other (same ▸ rfl)
  | completed r => exact writes _ fun same => other (same ▸ rfl)
  | status r => exact writes _ fun same => other (same ▸ rfl)
  | _ => rfl

theorem Changed.object_frame (changed : Changed w c w') {key : GoString} (other : c.key ≠ some key) :
    w'.objects key = w.objects key := by
  cases changed with
  | put written object =>
    have different : key ≠ written := fun same => other (same ▸ rfl)
    exact Function.update_of_ne different _ _
  | removed written =>
    have different : key ≠ written := fun same => other (same ▸ rfl)
    exact Function.update_of_ne different _ _
  | _ => rfl

/-- Only a soft delete sets `deleted_at`. -/
theorem Changed.deletedAt_set (changed : Changed w c w') {id : UUID} {r r' : Row}
    (before : w.avatars.find id = some r) (live : r.deletedAt = none)
    (after : w'.avatars.find id = some r') (gone : r'.deletedAt ≠ none) :
    c = .updateDeleted id r.userID := by
  have kept : ∀ old new : Row, w.avatars.find old.id = some old → new.id = old.id →
      new.deletedAt = old.deletedAt → w'.avatars.find id = (w.write new).avatars.find id → False := by
    intro old new found same deleted write
    rw [after,find_write,same] at write
    split at write
    · next here =>
      subst here
      rw [found] at before write
      obtain rfl := Option.some.inj before
      obtain rfl := Option.some.inj write
      exact gone (deleted.trans live)
    · rw [before] at write
      obtain rfl := Option.some.inj write
      exact gone live
  cases changed with
  | deleted old found =>
    rw [find_write] at after
    split at after
    · next here =>
      have here : id = old.id := here
      subst here
      obtain rfl := Option.some.inj (found.symm.trans before)
      rfl
    · rw [before] at after
      obtain rfl := Option.some.inj after
      exact absurd live gone
  | completed old thumbs width height found => exact (kept old (old.completed thumbs width height w.now) found rfl rfl rfl).elim
  | status old status found => exact (kept old (old.withStatus status w.now) found rfl rfl rfl).elim
  | inserted a thumbs avatars done =>
    rw [find_inserted done] at after
    split at after
    · next here =>
      subst here
      rw [show w.avatars.find a.id = none from Table.insert_fresh done] at before
      contradiction
    · rw [before] at after
      obtain rfl := Option.some.inj after
      exact absurd live gone
  | _ =>
    obtain rfl := Option.some.inj (before.symm.trans after)
    exact absurd live gone

end World

namespace Thread

/-- The text of the id of the avatar an operation works on. -/
def subject : Thread P → Option GoString
  | .uploadPut _ id | .uploadCreate _ id | .uploadRemove _ id _ => some id.string
  | .uploadPublish avatar => some avatar.id.string
  | .deleteUpdate id _ | .deleteOwner id _ | .deleteIterate id _ _ _ | .deletePublish id _ _
  | .deleteDone id _ _ => some id.string
  | .readSelect _ id _ => some id.string
  | .readObject avatar _ | .readOriginal avatar _ => some avatar.id.string
  | .processSelect _ _ id | .processDownload _ _ id _ | .processIterate _ id _ _
  | .processPut _ id _ _ _ _ _ _ | .processUpdate _ id _ _ | .processStatus _ id => some id.string
  | .processSettle event _ => some event.avatarID
  | .cleanIterate event | .cleanRemove event _ _ _ | .cleanSettle event _ => some event.avatarID
  | .reconcilePublish avatar _ => some avatar.id.string
  | .done _ | .uploadID _ | .currentSelect _ | .readCurrent _ _ | .processReceive _ | .cleanReceive
  | .reconcileSelect _ | .reconcileCount _ _ => none

theorem call_row {t : Thread P} {c : Call} {next : c.Answer → Thread P} {id : UUID}
    (seen : t.view cfg = .call c next) (writes : c.row = some id) : t.subject = some id.string := by
  cases t <;> simp only [view,reduceCtorEq] at seen <;> cases seen <;>
    simp only [Call.row,reduceCtorEq,Option.some.injEq] at writes
  all_goals
    subst writes
    rfl

theorem keyOf_ownKeys {userID : GoString} {id : UUID} (valid : validateUserID userID = .ok ())
    {key : GoString} (own : key ∈ ownKeys userID id) : KeyOf id key := by
  rcases List.mem_cons.mp own with rfl | thumbnail
  · exact keyOf_original valid id
  · obtain ⟨entry,member,rfl⟩ := List.mem_map.mp thumbnail
    rw [thumbnailKeys_eq] at member
    obtain ⟨name,-,rfl⟩ := List.mem_map.mp member
    exact keyOf_thumbnail valid id name

/-- A storage request goes to an object of the avatar it works on. -/
theorem Sound.call_key {w : World} (world : w.Sound) {t : Thread P} (sound : t.Sound w) {c : Call}
    {next : c.Answer → Thread P} {key : GoString} (seen : t.view cfg = .call c next)
    (writes : c.key = some key) : ∃ id, t.subject = some id.string ∧ KeyOf id key := by
  cases t <;> simp only [view,reduceCtorEq] at seen <;> cases seen <;>
    simp only [Call.key,reduceCtorEq,Option.some.injEq] at writes
  case uploadPut input id => exact ⟨id,rfl,writes ▸ keyOf_original sound.1 id⟩
  case uploadRemove input id err => exact ⟨id,rfl,writes ▸ keyOf_original sound.1 id⟩
  case processPut event id avatar img name buf rest thumbnails =>
    obtain ⟨⟨-,same,r,found,user,-⟩,-⟩ := sound
    have valid := (world.rows id r found).1.valid
    rw [user] at valid
    exact ⟨id,rfl,writes ▸ same ▸ keyOf_thumbnail valid avatar.id name⟩
  case cleanRemove event removed rest errs =>
    obtain ⟨⟨id,userID,text,⟨r,found,user,-⟩,own⟩,inside⟩ := sound
    have valid := (world.rows id r found).1.valid
    rw [user] at valid
    refine ⟨id,by rw [subject,text],?_⟩
    exact writes ▸ keyOf_ownKeys valid (own removed (inside removed List.mem_cons_self))

end Thread

/-- What an avatar's row and its objects look like, whoever its user is. -/
def Untouched (w w' : World) (id : UUID) : Prop :=
  w'.avatars.find id = w.avatars.find id ∧
    ∀ userID, validateUserID userID = .ok () →
      w'.objects (originalObjectKey userID id) = w.objects (originalObjectKey userID id) ∧
      ∀ size, w'.objects (thumbnailObjectKey userID id size) =
        w.objects (thumbnailObjectKey userID id size)

/-- The user a deletion is requested by. -/
def Command.caller : Command → Option GoString
  | .delete _ userID | .deleteCurrent userID => some userID
  | _ => none

namespace Thread

def caller : Thread P → Option GoString
  | .currentSelect userID | .deleteUpdate _ userID | .deleteOwner _ userID
  | .deleteIterate _ userID _ _ | .deletePublish _ userID _ | .deleteDone _ userID _ => some userID
  | _ => none

theorem caller_start (command : Command) (userID : GoString)
    (calls : (start command : Thread P).caller = some userID) : command.caller = some userID := by
  cases command with
  | upload input => simp only [start,startUpload] at calls; split at calls <;> contradiction
  | delete id user => simp only [start,startDelete] at calls; split at calls <;> exact calls
  | deleteCurrent user =>
    simp only [start,startDeleteCurrent] at calls
    split at calls
    · contradiction
    · exact calls
  | get r =>
    simp only [start,startGet] at calls
    split at calls
    · contradiction
    · split at calls <;> contradiction
  | getCurrent r =>
    simp only [start,startGetCurrent] at calls
    split at calls
    · contradiction
    · split at calls <;> contradiction
  | handleUpload | handleDelete | reconcile => contradiction

theorem caller_kind {t : Thread P} {userID : GoString} (calls : t.caller = some userID) :
    t.kind = .delete := by
  cases t <;> simp only [caller,reduceCtorEq] at calls <;> rfl

/-- A deletion is carried through for the user that asked for it. -/
theorem caller_next {t : Thread P} {c : Call} {next : c.Answer → Thread P} {answer : c.Answer}
    {userID : GoString} (seen : t.view cfg = .call c next)
    (calls : (next answer).caller = some userID) : t.caller = some userID := by
  have delete := kind_of_next seen (caller_kind calls) (by decide)
  cases t <;> simp only [kind,reduceCtorEq] at delete <;> simp only [view,reduceCtorEq] at seen <;>
    cases seen
  case currentSelect user =>
    simp only [afterCurrent,startDelete] at calls
    split at calls
    · contradiction
    · split at calls <;> exact calls
  case deleteUpdate id user =>
    simp only [afterUpdate] at calls
    split at calls
    · split at calls <;> exact calls
    · split at calls <;> exact calls
  case deleteOwner => exact calls
  case deleteIterate => exact calls
  case deletePublish => exact calls

theorem call_updateDeleted {t : Thread P} {id : UUID} {userID : GoString}
    {next : (Call.updateDeleted id userID).Answer → Thread P}
    (seen : t.view cfg = .call (.updateDeleted id userID) next) : t = .deleteUpdate id userID := by
  cases t <;> simp only [view,View.call.injEq,reduceCtorEq,false_and] at seen
  case deleteUpdate =>
    cases seen.1
    rfl

end Thread

/-- A whole run of the system, from an empty world. -/
abbrev Run (P : Packages) (cfg : Config) (breakers : Dependency → BreakerState)
    (trace : List (State P × Act × State P)) (s : State P) : Prop :=
  Path (system P cfg).step (Pool.initial (World.initial breakers)) trace s

theorem Run.reaches {trace : List (State P × Act × State P)} {s : State P}
    (run : Run P cfg breakers trace s) : Reaches P cfg (fun _ _ => True) breakers s :=
  Path.reachable run fun _ _ => trivial

/-- A schedule for the sample packages that goes through under a guard. -/
theorem Schedule.run (allowed : State Packages.sample → Act → Prop) [∀ s a, Decidable (allowed s a)]
    (actions : List Act) (test : State Packages.sample → Bool)
    (met : (execute (guarded allowed (system Packages.sample .standard).step) idle actions).any test =
      true) :
    ∃ trace s, Run Packages.sample .standard (fun _ => .fresh 5) trace s ∧
      (∀ entry ∈ trace, allowed entry.1 entry.2.1) ∧ test s = true ∧
      trace.map (fun entry => entry.2.1) = actions :=
  exists_path (system Packages.sample .standard).step allowed idle actions test met

/-- A step of a process that works on another avatar. -/
theorem untouched_step {s s' : State P} {a : Act}
    (holds : s.world.Sound ∧ ∀ slot t, s.procs slot = some t → t.Sound s.world)
    (taken : (system P cfg).step s a = some s') (id : UUID)
    (elsewhere : ∀ slot choice t, a = .advance slot choice → s.procs slot = some t → t.subject ≠ some id.string) :
    Untouched s.world s'.world id := by
  obtain ⟨world,threads⟩ := holds
  cases a with
  | advance slot choice =>
    obtain ⟨t,c,next,answer,w,running,seen,performed,rfl⟩ := Machine.step_advance taken
    have seen : t.view cfg = .call c next := seen
    have changed := World.perform_changed performed
    have other := elsewhere slot choice t rfl running
    have objects : ∀ key, KeyOf id key → w.objects key = s.world.objects key := by
      intro key own
      apply changed.object_frame
      intro writes
      obtain ⟨id',subject,own'⟩ := (threads slot t running).call_key world seen writes
      exact other (own.unique own' ▸ subject)
    refine ⟨changed.row_frame fun writes => other (Thread.call_row seen writes),?_⟩
    intro userID valid
    exact ⟨objects _ (keyOf_original valid id),fun size => objects _ (keyOf_thumbnail valid id size)⟩
  | start slot command =>
    obtain ⟨_,rfl⟩ := Machine.step_start taken
    exact ⟨rfl,fun _ _ => ⟨rfl,fun _ => rfl⟩⟩
  | crash slot =>
    obtain ⟨_,rfl⟩ := Machine.step_crash taken
    exact ⟨rfl,fun _ _ => ⟨rfl,fun _ => rfl⟩⟩
  | environment event =>
    obtain ⟨w,moved,rfl⟩ := Machine.step_environment taken
    have rows := World.environment_avatars moved
    have objects := World.environment_objects moved
    exact ⟨by rw [rows],fun _ _ => ⟨by rw [objects],fun _ => by rw [objects]⟩⟩

/-- The step deletes a row for a request of its owner, the last that its slot was started with. -/
def ByOwner {S : Type} (trace : List (Pool Call Call.Answer S World × Act × Pool Call Call.Answer S World)) (a : Act)
    (r : Row) : Prop :=
  ∃ slot choice command, a = .advance slot choice ∧ Machine.latest trace slot = some command ∧
    command.caller = some r.userID

theorem deleted_byOwner {trace : List (State P × Act × State P)} {s s' : State P} {a : Act}
    (run : Run P cfg breakers trace s) (taken : (system P cfg).step s a = some s') {id : UUID} {r r' : Row}
    (before : s.world.avatars.find id = some r) (live : r.deletedAt = none)
    (after : s'.world.avatars.find id = some r') (gone : r'.deletedAt ≠ none) : ByOwner trace a r := by
  have unmoved (same : s'.world.avatars = s.world.avatars) : ByOwner trace a r := by
    rw [same] at after
    obtain rfl := Option.some.inj (before.symm.trans after)
    exact absurd live gone
  cases a with
  | advance slot choice =>
    obtain ⟨t,c,next,answer,w,running,seen,performed,rfl⟩ := Machine.step_advance taken
    have seen : t.view cfg = .call c next := seen
    obtain rfl := (World.perform_changed performed).deletedAt_set before live after gone
    obtain rfl := Thread.call_updateDeleted seen
    obtain ⟨command,latest,given⟩ := Machine.origin Thread.caller Command.caller
      Thread.caller_start (fun _ _ _ _ _ seen => Thread.caller_next seen) run running rfl
    exact ⟨slot,choice,command,rfl,latest,given⟩
  | start slot command =>
    obtain ⟨_,rfl⟩ := Machine.step_start taken
    exact unmoved rfl
  | crash slot =>
    obtain ⟨_,rfl⟩ := Machine.step_crash taken
    exact unmoved rfl
  | environment event =>
    obtain ⟨w,moved,rfl⟩ := Machine.step_environment taken
    exact unmoved (World.environment_avatars moved)

/-- After any run, the next step works on at most one avatar, leaves every other one
alone, and marks a row deleted only for a request of its owner. -/
theorem avatars_isolated {trace : List (State P × Act × State P)} {s s' : State P} {a : Act}
    (run : Run P cfg breakers trace s) (taken : (system P cfg).step s a = some s') :
    (∀ id, (∀ slot choice t, a = .advance slot choice → s.procs slot = some t →
        t.subject ≠ some id.string) → Untouched s.world s'.world id) ∧
    (∀ id r r', s.world.avatars.find id = some r → r.deletedAt = none →
      s'.world.avatars.find id = some r' → r'.deletedAt ≠ none →
      ∃ slot choice command, a = .advance slot choice ∧ Machine.latest trace slot = some command ∧
        command.caller = some r.userID) :=
  ⟨fun id elsewhere => untouched_step run.reaches.holds taken id elsewhere,
    fun _ _ _ before live after gone => deleted_byOwner run taken before live after gone⟩

/-- The UPDATE of a deletion, with a second avatar of the same user beside it. -/
theorem avatars_isolated_delete : ∃ trace s s',
    Run Packages.sample .standard (fun _ => .fresh 5) trace s ∧
      (system Packages.sample .standard).step s (Schedule.answer 2 .none) = some s' ∧
      (s.world.live Schedule.other).isSome = true ∧ Untouched s.world s'.world .nil := by
  obtain ⟨trace,s,run,-,met,-⟩ := Schedule.run (fun _ _ => True)
    (Schedule.upload 0 (Schedule.input (lit "ann")) .nil ++
      Schedule.upload 1 (Schedule.input (lit "ann")) Schedule.other ++
      [.start 2 (.delete Schedule.other (lit "ann"))])
    (fun s => (s.procs 2).any (fun t => t.subject == some Schedule.other.string) &&
      ((system Packages.sample .standard).step s (Schedule.answer 2 .none)).isSome &&
      (s.world.live Schedule.other).isSome)
    (by decide +kernel)
  simp only [Bool.and_eq_true] at met
  obtain ⟨⟨busy,steps⟩,live⟩ := met
  obtain ⟨s',taken⟩ := Option.isSome_iff_exists.mp steps
  refine ⟨trace,s,s',run,taken,live,(avatars_isolated run taken).1 .nil ?_⟩
  intro slot choice t acts running
  cases acts
  rw [running] at busy
  have subject : t.subject = some Schedule.other.string := by simpa using busy
  rw [subject]
  decide

end GophProfile

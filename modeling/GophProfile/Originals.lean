import GophProfile.Isolation

/-! Originals: a live row has its file, as long as the clean-up after a failed INSERT
only removes files that nothing refers to. -/
namespace GophProfile

open Domain Effect Transition

variable {P : Packages} {cfg : Config} {breakers : Dependency → BreakerState}

/-- Every live row has the object its `s3_key` names. -/
def Present (w : World) : Prop := ∀ id r, w.live id = some r → w.objects r.s3Key ≠ none

/-- The clean-up of an upload is not about to remove the original of a live row. -/
def OrphanGuarded (s : State P) (a : Act) : Prop :=
  ∀ slot choice input id err, a = .advance slot choice → choice.took = true →
    s.procs slot = some (.uploadRemove input id err) → s.world.live id = none

namespace World

variable {w w' : World} {c : Call}

/-- Where a row that is live after a call comes from. -/
theorem Changed.live_origin (changed : Changed w c w') {id : UUID} {r' : Row}
    (live : w'.live id = some r') :
    (∃ r, w.live id = some r ∧ r.s3Key = r'.s3Key) ∨
      ∃ a thumbs, c = .insertAvatar a thumbs ∧ id = a.id ∧ r'.s3Key = a.s3Key := by
  obtain ⟨found',alive'⟩ := live_iff.mp live
  by_cases before : w.avatars.find id = none
  · obtain ⟨a,thumbs,rfl,here⟩ := changed.found_new before (by rw [found']; simp)
    refine .inr ⟨a,thumbs,rfl,here,?_⟩
    cases changed with
    | nothing => rw [before] at found'; contradiction
    | inserted _ _ avatars done =>
      rw [find_inserted done,if_pos here] at found'
      cases found'
      rfl
  · obtain ⟨r,found⟩ := Option.ne_none_iff_exists'.mp before
    obtain ⟨r'',found'',later⟩ := changed.grows.rows id r found
    obtain rfl := Option.some.inj (found''.symm.trans found')
    refine .inl ⟨r,live_iff.mpr ⟨found,?_⟩,later.s3Key.symm⟩
    by_contra gone
    exact gone ((later.deletedAt gone).symm.trans alive')

theorem Changed.object_kept (changed : Changed w c w') {key : GoString}
    (present : w.objects key ≠ none) (keeps : c ≠ .removeObject key) : w'.objects key ≠ none := by
  cases changed with
  | put written object =>
    by_cases here : key = written
    · subst here
      simp [World.put]
    · simpa [World.put,here] using present
  | removed written =>
    have different : key ≠ written := fun same => keeps (same ▸ rfl)
    simpa [World.remove,different] using present
  | _ => exact present

end World

namespace Thread

theorem call_removeObject {t : Thread P} {key : GoString}
    {next : (Call.removeObject key).Answer → Thread P}
    (seen : t.view cfg = .call (.removeObject key) next) :
    (∃ input id err, t = .uploadRemove input id err ∧ key = originalObjectKey input.userID id) ∨
      ∃ event rest errs, t = .cleanRemove event key rest errs := by
  cases t <;> simp only [view,View.call.injEq,reduceCtorEq,false_and] at seen
  case uploadRemove input id err =>
    cases seen.1
    exact .inl ⟨input,id,err,rfl,rfl⟩
  case cleanRemove event removed rest errs =>
    cases seen.1
    exact .inr ⟨event,rest,errs,rfl⟩

/-- The clean-up is entered from the INSERT. -/
theorem uploadRemove_after {t : Thread P} {c : Call} {next : c.Answer → Thread P} {answer : c.Answer}
    {input : UploadInput} {id : UUID} {err : Err} (seen : t.view cfg = .call c next)
    (arrived : next answer = .uploadRemove input id err) : t = .uploadCreate input id := by
  have upload := kind_of_next (k := .upload) seen (by rw [arrived]; rfl) (by decide)
  cases t <;> simp only [kind,reduceCtorEq] at upload <;> simp only [view] at seen <;> cases seen
  case uploadID =>
    simp only [afterID] at arrived
    split at arrived <;> cases arrived
  case uploadPut =>
    simp only [afterPut] at arrived
    split at arrived <;> cases arrived
  case uploadCreate =>
    simp only [afterCreate] at arrived
    split at arrived
    · split at arrived <;> cases arrived
      rfl
    · cases arrived
  case uploadRemove => cases arrived
  case uploadPublish => cases arrived

end Thread

/-- Originals are there for the live rows and for the uploads about to insert one. -/
structure Kept (s : State P) : Prop where
  rows : Present s.world
  uploads : ∀ slot input id, s.procs slot = some (.uploadCreate input id) →
    s.world.objects (originalObjectKey input.userID id) ≠ none

/-- Whose original a removal takes: no live row's, and no unfinished upload's. -/
theorem removal_harmless {s : State P} {slot : Nat} {choice : Choice} {t : Thread P}
    {key : GoString} {next : (Call.removeObject key).Answer → Thread P}
    (reached : Reaches P cfg (fun _ _ => True) breakers s)
    (guarded : OrphanGuarded s (.advance slot choice)) (took : choice.took = true)
    (running : s.procs slot = some t) (seen : t.view cfg = .call (.removeObject key) next) :
    ∃ id, KeyOf id key ∧ s.world.live id = none ∧
      ∀ other input, s.procs other ≠ some (.uploadCreate input id) := by
  obtain ⟨world,threads⟩ := reached.holds
  have sound := threads slot t running
  rcases Thread.call_removeObject seen with ⟨input,id,err,rfl,rfl⟩ | ⟨event,rest,errs,rfl⟩
  · refine ⟨id,keyOf_original sound.1 id,guarded slot choice input id err rfl took running,?_⟩
    intro other input' running'
    have same := uploading_unique reached running' running rfl rfl
    subst same
    rw [running] at running'
    cases running'
  · obtain ⟨⟨id,userID,_,has,own⟩,inside⟩ := sound
    obtain ⟨r,found,rfl,deleted⟩ := has
    have valid := (world.rows id r found).1.valid
    refine ⟨id,Thread.keyOf_ownKeys valid (own key (inside key List.mem_cons_self)),
      Thread.live_none ⟨r,found,rfl,deleted⟩,?_⟩
    intro other input running'
    rw [inserting_absent reached running' rfl] at found
    contradiction

/-- An original that is there stays there as long as a live row or an unfinished upload
needs it. -/
theorem original_stays {s : State P} {slot : Nat} {choice : Choice} {t : Thread P} {c : Call}
    {next : c.Answer → Thread P} {answer : c.Answer} {w : World}
    (reached : Reaches P cfg (fun _ _ => True) breakers s)
    (guarded : OrphanGuarded s (.advance slot choice)) (running : s.procs slot = some t)
    (seen : t.view cfg = .call c next) (performed : World.perform c choice s.world = some (answer,w))
    {id : UUID} {key : GoString} (own : KeyOf id key) (there : s.world.objects key ≠ none)
    (needed : (∃ r, s.world.live id = some r) ∨
      ∃ other input, s.procs other = some (.uploadCreate input id)) : w.objects key ≠ none := by
  by_cases removes : c = .removeObject key
  · subst removes
    cases took : choice.took with
    | false =>
      rw [World.perform_lost took performed]
      exact there
    | true =>
      obtain ⟨id',own',dead,idle⟩ := removal_harmless reached guarded took running seen
      obtain rfl := own.unique own'
      rcases needed with ⟨r,live⟩ | ⟨other,input,uploading⟩
      · rw [dead] at live
        contradiction
      · exact absurd uploading (idle other input)
  · exact (World.perform_changed performed).object_kept there removes

theorem kept_step {s s' : State P} {a : Act} (reached : Reaches P cfg (fun _ _ => True) breakers s)
    (guarded : OrphanGuarded s a) (taken : (system P cfg).step s a = some s') (kept : Kept s) :
    Kept s' := by
  obtain ⟨world,threads⟩ := reached.holds
  cases a with
  | start slot command =>
    obtain ⟨_,rfl⟩ := Machine.step_start taken
    refine ⟨kept.rows,?_⟩
    intro other input id running
    rcases Pool.running_started running with ⟨rfl,equal⟩ | ⟨_,before⟩
    · have none := Thread.inserting_start (P := P) command
      rw [show Thread.start command = _ from equal.symm] at none
      contradiction
    · exact kept.uploads other input id before
  | crash slot =>
    obtain ⟨_,rfl⟩ := Machine.step_crash taken
    refine ⟨kept.rows,?_⟩
    intro other input id running
    exact kept.uploads other input id (Pool.running_crashed running).2
  | environment event =>
    obtain ⟨w,moved,rfl⟩ := Machine.step_environment taken
    have rows := World.environment_avatars moved
    have objects := World.environment_objects moved
    refine ⟨?_,?_⟩
    · intro id r live
      have before : s.world.live id = some r := by
        rw [World.live_iff] at live ⊢
        exact rows ▸ live
      show w.objects r.s3Key ≠ none
      rw [objects]
      exact kept.rows id r before
    · intro slot input id running
      show w.objects _ ≠ none
      rw [objects]
      exact kept.uploads slot input id running
  | advance slot choice =>
    obtain ⟨t,c,next,answer,w,running,seen,performed,rfl⟩ := Machine.step_advance taken
    have seen : t.view cfg = .call c next := seen
    have changed := World.perform_changed performed
    refine ⟨?_,?_⟩
    · intro id r' live
      show w.objects r'.s3Key ≠ none
      rcases changed.live_origin live with ⟨r,before,same⟩ | ⟨a,thumbs,rfl,rfl,key⟩
      · rw [← same]
        obtain ⟨found,-⟩ := World.live_iff.mp before
        have row := (world.rows id r found).1
        have here : r.id = id := Table.find_key found
        have own : KeyOf id r.s3Key := by
          rw [row.s3Key,here]
          exact keyOf_original row.valid id
        exact original_stays reached guarded running seen performed own (kept.rows id r before)
          (.inl ⟨r,before⟩)
      · obtain ⟨input,id,rfl,rfl⟩ := Thread.call_insertAvatar seen
        have sound := threads slot _ running
        rw [key]
        exact changed.object_kept (kept.uploads slot input id running) (by simp)
    · intro other input id arrived
      show w.objects _ ≠ none
      rcases Pool.running_answered arrived with ⟨rfl,equal⟩ | ⟨_,before⟩
      · obtain ⟨-,rfl⟩ := Thread.uploadCreate_after seen performed equal.symm
        simp [World.put]
      · have sound := threads other _ before
        exact original_stays reached guarded running seen performed (keyOf_original sound.1 id)
          (kept.uploads other input id before) (.inr ⟨other,input,before⟩)

/-- Every state of a run has the originals of its live rows. -/
def AllPresent (trace : List (State P × Act × State P)) (s : State P) : Prop :=
  (∀ entry ∈ trace, Present entry.1.world ∧ Present entry.2.2.world) ∧ Present s.world

theorem present_of_guarded {trace : List (State P × Act × State P)} {s : State P}
    (run : Run P cfg breakers trace s) (guarded : ∀ entry ∈ trace, OrphanGuarded entry.1 entry.2.1) :
    AllPresent trace s := by
  suffices all : (∀ entry ∈ trace, Present entry.1.world ∧ Present entry.2.2.world) ∧ Kept s from
    ⟨all.1,all.2.rows⟩
  induction run with
  | nil =>
    refine ⟨by simp,?_,by simp [Pool.initial]⟩
    intro id r live
    simp [Pool.initial,World.initial,World.live] at live
  | @snoc trace s s' a before taken ih =>
    obtain ⟨all,kept⟩ := ih fun entry member => guarded entry (List.mem_append_left _ member)
    have here := guarded _ (List.mem_append_right _ List.mem_cons_self)
    have after := kept_step (Run.reaches before) here taken kept
    refine ⟨?_,after⟩
    intro entry member
    rcases List.mem_append.mp member with old | new
    · exact all entry old
    · obtain rfl := List.mem_singleton.mp new
      exact ⟨kept.rows,after.rows⟩

/-- The row an upload cleans up after, if there is one, is its own. -/
theorem orphan_owner {s : State P} (reached : Reaches P cfg (fun _ _ => True) breakers s)
    {slot : Nat} {input : UploadInput} {id : UUID} {err : Err} {r : Row}
    (running : s.procs slot = some (.uploadRemove input id err))
    (found : s.world.avatars.find id = some r) : r.userID = input.userID := by
  induction reached generalizing slot input id err r with
  | start => simp [Pool.initial] at running
  | @next s s' a before _ taken ih =>
    cases a with
    | start slot' command =>
      obtain ⟨_,rfl⟩ := Machine.step_start taken
      rcases Pool.running_started running with ⟨rfl,equal⟩ | ⟨_,before⟩
      · have none := (Thread.tokens_start (P := P) command).1
        rw [show Thread.start command = _ from equal.symm] at none
        contradiction
      · exact ih before found
    | crash slot' =>
      obtain ⟨_,rfl⟩ := Machine.step_crash taken
      exact ih (Pool.running_crashed running).2 found
    | environment event =>
      obtain ⟨w,moved,rfl⟩ := Machine.step_environment taken
      exact ih running (World.environment_avatars moved ▸ found)
    | advance slot' choice =>
      obtain ⟨t,c,next,answer,w,acting,seen,performed,rfl⟩ := Machine.step_advance taken
      have seen : t.view cfg = .call c next := seen
      have changed := World.perform_changed performed
      replace found : w.avatars.find id = some r := found
      rcases Pool.running_answered running with ⟨rfl,equal⟩ | ⟨same,earlier⟩
      · obtain rfl := Thread.uploadRemove_after seen equal.symm
        have absent := inserting_absent before acting rfl
        cases (show View.call _ _ = View.call c next from seen)
        cases changed with
        | nothing => rw [absent] at found; contradiction
        | inserted _ _ avatars done =>
          rw [World.find_inserted done] at found
          split at found
          · cases found; rfl
          · rw [absent] at found; contradiction
      · by_cases absent : s.world.avatars.find id = none
        · obtain ⟨a,thumbs,rfl,rfl⟩ := changed.found_new absent (by rw [found]; simp)
          obtain ⟨input',id,rfl,rfl⟩ := Thread.call_insertAvatar seen
          exact absurd (uploading_unique before earlier acting rfl rfl) same
        · obtain ⟨old,old_found⟩ := Option.ne_none_iff_exists'.mp absent
          obtain ⟨r',found',later⟩ := changed.grows.rows id old old_found
          obtain rfl := Option.some.inj (found'.symm.trans found)
          exact later.userID.trans (ih earlier old_found)

/-- A clean-up that reaches the original of a live row leaves that row without it. -/
theorem guarded_of_present {trace : List (State P × Act × State P)} {s : State P}
    (run : Run P cfg breakers trace s) (present : AllPresent trace s) :
    ∀ entry ∈ trace, OrphanGuarded entry.1 entry.2.1 := by
  rintro ⟨s₁,a,s₂⟩ member slot choice input id err rfl took running
  obtain ⟨reached,taken⟩ := run.entry (fun _ _ => True) (fun _ _ => trivial) member
  obtain ⟨t,c,next,answer,w,acting,seen,performed,equal⟩ := Machine.step_advance taken
  have equal : s₂ = s₁.answered slot c answer (next answer) w := equal
  subst equal
  obtain rfl := Option.some.inj (running.symm.trans acting)
  cases (show View.call _ _ = View.call c next from seen)
  have after : Present w := (present.1 _ member).2
  by_contra alive
  obtain ⟨r,live⟩ := Option.ne_none_iff_exists'.mp alive
  obtain ⟨found,undeleted⟩ := World.live_iff.mp live
  obtain ⟨pick,answer',effected⟩ := World.perform_took took performed
  cases pick <;> simp only [World.effect,reduceCtorEq] at effected
  cases effected
  have row := ((Reaches.holds reached).1.rows id r found).1
  have here : r.id = id := Table.find_key found
  have owner := orphan_owner reached running found
  have gone : (s₁.world.remove (originalObjectKey input.userID id)).objects r.s3Key = none := by
    rw [row.s3Key,here,owner]
    simp [World.remove]
  exact after id r (World.live_iff.mpr ⟨found,undeleted⟩) gone

/-- A run keeps the original of every live row if and only if no clean-up in it removes
the original of a row that is live. -/
theorem originals_present_iff {trace : List (State P × Act × State P)} {s : State P}
    (run : Run P cfg breakers trace s) :
    AllPresent trace s ↔ ∀ entry ∈ trace, OrphanGuarded entry.1 entry.2.1 :=
  ⟨guarded_of_present run,present_of_guarded run⟩

/-! ### The guard on concrete runs -/

def orphanGuarded (s : State P) : Act → Bool
  | .advance slot choice =>
    match s.procs slot with
    | some (.uploadRemove _ id _) => !choice.took || (s.world.live id).isNone
    | _ => true
  | _ => true

theorem orphanGuarded_iff {s : State P} {a : Act} : orphanGuarded s a = true ↔ OrphanGuarded s a := by
  constructor
  · rintro checked slot choice input id err rfl took running
    simpa [orphanGuarded,running,took] using checked
  · intro guarded
    unfold orphanGuarded
    split
    · next slot choice =>
      split
      · next input id err running =>
        cases took : choice.took with
        | false => rfl
        | true => simpa using guarded slot choice input id err rfl took running
      · rfl
    · rfl

instance (s : State P) (a : Act) : Decidable (OrphanGuarded s a) :=
  decidable_of_iff _ orphanGuarded_iff

def createFailed (took : Bool) : List Act :=
  [.start 0 (.upload (Schedule.input (lit "ann"))),Schedule.answer 0 (.id .nil),
    Schedule.answer 0 .none,.advance 0 (.fail took .none .canceled),Schedule.answer 0 .none]

/-- An INSERT that failed without effect is cleaned up after, beside a live avatar. -/
theorem originals_present_orphan : ∃ trace s,
    Run Packages.sample .standard (fun _ => .fresh 5) trace s ∧
      (s.world.live Schedule.other).isSome = true ∧ AllPresent trace s := by
  obtain ⟨trace,s,run,guarded,live,-⟩ := Schedule.run OrphanGuarded
    (createFailed false ++ Schedule.upload 1 (Schedule.input (lit "ann")) Schedule.other)
    (fun s => (s.world.live Schedule.other).isSome) (by decide +kernel)
  exact ⟨trace,s,run,live,(originals_present_iff run).mpr guarded⟩

/-- An INSERT that was committed but reported as failed loses its original. -/
theorem committed_row_without_original : ¬∀ (P : Packages) (cfg : Config)
    (breakers : Dependency → BreakerState) (trace : List (State P × Act × State P)) (s : State P),
    Run P cfg breakers trace s → AllPresent trace s := by
  intro all
  obtain ⟨trace,s,run,-,broken,-⟩ := Schedule.run (fun _ _ => True) (createFailed true)
    (fun s => (s.world.live .nil).any fun r => (s.world.objects r.s3Key).isNone) (by decide +kernel)
  obtain ⟨r,live,missing⟩ := (Option.any_eq_true _ _).mp broken
  have present := (all _ _ _ trace s run).2 .nil r live
  exact present (Option.isNone_iff_eq_none.mp missing)

end GophProfile

import GophProfile.CurrentAvatar
import GophProfile.CurrentDeletion
import GophProfile.Originals
import GophProfile.Processing
import GophProfile.Programs

/-! What holds of the control points holds of the handlers' own programs. Beside every run of
the programs there is one of the control points that takes the same steps through the same
worlds, with the same calls and the same replies; what the programs have to meet is said there. -/
namespace GophProfile

open Domain Effect Transition

variable {P : Packages} {cfg : Config} {w₀ : World} {breakers : Dependency → BreakerState}

abbrev ProgramTrace := List (ProgramState × Act × ProgramState)

/-- The same steps, between related states. -/
abbrev Beside (cfg : Config) (trace : ProgramTrace) (trace' : Trace P) : Prop :=
  List.Forall₂ (Effect.Simulates.Beside (Follows cfg)) trace trace'

/-- The run of the control points beside a run of the programs. -/
structure Shadow (cfg : Config) (w₀ : World) (trace : ProgramTrace) (s : ProgramState) (trace' : Trace P)
    (s' : State P) : Prop where
  run : Path (system P cfg).step (Pool.initial w₀) trace' s'
  beside : Beside cfg trace trace'
  last : Effect.Simulates.Related (Follows cfg) s s'

theorem exists_shadow {trace : ProgramTrace} {s : ProgramState}
    (run : Path (programs P cfg).step (Pool.initial w₀) trace s) :
    ∃ (trace' : Trace P) (s' : State P), Shadow cfg w₀ trace s trace' s' := by
  obtain ⟨trace',s',run',beside,last⟩ := simulates.path run
  exact ⟨trace',s',run',beside,last⟩

section Runs
variable {trace : ProgramTrace} {s : ProgramState} {trace' : Trace P} {s' : State P}

/-- Step by step the worlds are the same. -/
theorem Beside.worlds (beside : Beside cfg trace trace') (holds : World → World → Prop) :
    (∀ entry ∈ trace, holds entry.1.world entry.2.2.world) ↔
      ∀ entry ∈ trace', holds entry.1.world entry.2.2.world := by
  induction beside with
  | nil => simp
  | cons here _ ih => simp only [List.forall_mem_cons,here.before.world,here.after.world,ih]

theorem Beside.latest (beside : Beside cfg trace trace') (slot : Nat) :
    Machine.latest trace slot = Machine.latest trace' slot := by
  have actions : trace.map (fun entry => entry.2.1) = trace'.map fun entry => entry.2.1 := by
    induction beside with
    | nil => rfl
    | cons here _ ih => rw [List.map_cons,List.map_cons,here.action,ih]
  rw [Machine.latest_actions,Machine.latest_actions,actions]

/-! ### Rows, objects and the originals -/

/-- In a run of the programs without failures in which nothing is stored behind the back of a
deletion, a deleted avatar at rest has no object left. -/
theorem programs_leave_nothing (reached : Reachable (programs P cfg).step (Permitted cfg (Orderly (P := P)))
      (Pool.initial (World.initial breakers)) s) {id : UUID} {r : Row}
    (rest : ∀ s' : State P, Effect.Simulates.Related (Follows cfg) s s' → AtRest s' id r) :
    ∀ key ∈ ownKeys r.userID id, s.world.objects key = none := by
  obtain ⟨s',reached',related⟩ := programs_reach reached
  intro key own
  rw [related.world]
  exact (rest s' related).gone reached' own

/-- Completed rows are final and thumbnails match the status all through a run of the programs,
exactly when no status UPDATE reaches a completed row. -/
theorem programs_settled_iff (shadow : Shadow cfg (World.initial breakers) trace s trace' s') :
    ((∀ entry ∈ trace, Final entry.1.world s.world) ∧
        (∀ entry ∈ trace, Matching entry.1.world ∧ Matching entry.2.2.world) ∧ Matching s.world) ↔
      ∀ entry ∈ trace', StatusGuarded entry.1 entry.2.1 := by
  rw [shadow.beside.worlds fun w _ => Final w s.world,shadow.beside.worlds fun w w' => Matching w ∧ Matching w',
    shadow.last.world]
  exact ⟨guarded_of_settled shadow.run,settled_of_guarded shadow.run⟩

/-- Live rows have their originals all through a run of the programs, exactly when no upload
that cleans up after itself has a live row. -/
theorem programs_present_iff (shadow : Shadow cfg (World.initial breakers) trace s trace' s') :
    ((∀ entry ∈ trace, Present entry.1.world ∧ Present entry.2.2.world) ∧ Present s.world) ↔
      ∀ entry ∈ trace', OrphanGuarded entry.1 entry.2.1 := by
  rw [shadow.beside.worlds fun w w' => Present w ∧ Present w',shadow.last.world]
  exact ⟨guarded_of_present shadow.run,present_of_guarded shadow.run⟩

/-- A step of the programs leaves every avatar alone but the one it works on, and deletes a row
only for a request of its owner. -/
theorem programs_isolated (shadow : Shadow cfg (World.initial breakers) trace s trace' s') {a : Act} {t : ProgramState}
    (taken : (programs P cfg).step s a = some t) :
    (∀ id : UUID, (∀ slot choice u, a = .advance slot choice → s'.procs slot = some u →
        u.subject ≠ some id.string) → Untouched s.world t.world id) ∧
    ∀ id r r', s.world.avatars.find id = some r → r.deletedAt = none →
      t.world.avatars.find id = some r' → r'.deletedAt ≠ none → ByOwner trace a r := by
  have both := simulates.step shadow.last a
  rw [taken] at both
  cases taken' : (system P cfg).step s' a with
  | none => rw [taken'] at both; cases both
  | some t' =>
    rw [taken'] at both
    cases both with
    | some after =>
      rw [shadow.last.world,after.world]
      refine ⟨fun id elsewhere => untouched_step (Run.reaches shadow.run).holds taken' id elsewhere,?_⟩
      intro id r r' before live later gone
      obtain ⟨slot,choice,command,acts,latest,given⟩ := deleted_byOwner shadow.run taken' before live later gone
      exact ⟨slot,choice,command,acts,(shadow.beside.latest slot).trans latest,given⟩

/-! ### Deletions -/

theorem replied_of_succeeded (shadow : Shadow cfg w₀ trace s trace' s') {slot : Nat} {id : UUID} {userID : GoString}
    (success : Succeeded s' slot id userID) :
    (programs P cfg).Replied s slot (.deleted userID (.ok ())) :=
  (simulates.replied shadow.last slot _).mpr ⟨_,success,rfl⟩

/-- In a run of the programs without a failure an avatar's deletion is announced at most once,
and by a call that has replied with success. -/
theorem programs_delete_once (shadow : Shadow cfg (World.initial breakers) trace s trace' s')
    (undisturbed : ∀ entry ∈ trace', Undisturbed entry.1 entry.2.1) (id : UUID) :
    (s.log.filter (announces id) = [] ∧ ∀ slot userID, ¬Succeeded s' slot id userID) ∨
      ∃ slot userID keys, (programs P cfg).Replied s slot (.deleted userID (.ok ())) ∧
        (∀ other user, Succeeded s' other id user → other = slot) ∧
        s.log.filter (announces id) = [(slot,announcement id keys)] := by
  rw [shadow.last.log]
  rcases announced shadow.run undisturbed id with quiet | ⟨slot,userID,keys,success,one⟩
  · exact .inl quiet
  · refine .inr ⟨slot,userID,keys,replied_of_succeeded shadow success,?_,one⟩
    intro other user success'
    exact deleter_unique (Run.reaches shadow.run) success' success rfl rfl

/-- What a program tells of a deletion that is over. -/
def programEnding : Prog Reply → Option CurrentDeletion.Ending
  | .done (.deleted _ result) => some (CurrentDeletion.ending result)
  | _ => none

def programResponses (s : ProgramState) (slot : Nat) :
    List (Linearizability.Event Nat CurrentDeletion.Op CurrentDeletion.Ending) :=
  ((s.procs slot).bind programEnding).toList.map (.respond slot)

def programEvents (entry : ProgramState × Act × ProgramState) :
    List (Linearizability.Event Nat CurrentDeletion.Op CurrentDeletion.Ending) :=
  match entry.2.1 with
  | .start slot command =>
    (CurrentDeletion.opOf command).toList.map (.invoke slot) ++ programResponses entry.2.2 slot
  | .advance slot _ => programResponses entry.2.2 slot
  | _ => []

/-- The calls and answers of a run of the programs, in the order of time. -/
def programHistory (trace : ProgramTrace) :
    List (Linearizability.Event Nat CurrentDeletion.Op CurrentDeletion.Ending) := trace.flatMap programEvents

/-- Both tell the same. -/
theorem follows_ending {p : Prog Reply} {t : Thread P} (follows : Follows cfg p t) :
    programEnding p = CurrentDeletion.endingOf cfg t := by
  have alike := follows.alike
  cases p with
  | done reply =>
    have seen : t.view cfg = .done reply := follows
    rw [CurrentDeletion.endingOf,seen]
    cases reply <;> rfl
  | call c next =>
    obtain ⟨next',seen,-⟩ := follows
    rw [CurrentDeletion.endingOf,seen]
    rfl

theorem related_responses {s : ProgramState} {s' : State P} (related : Effect.Simulates.Related (Follows cfg) s s')
    (slot : Nat) : programResponses s slot = CurrentDeletion.responses cfg s' slot := by
  have both := related.procs slot
  rw [programResponses,CurrentDeletion.responses]
  cases running : s.procs slot <;> cases running' : s'.procs slot <;> rw [running,running'] at both
  · rfl
  · cases both
  · cases both
  · cases both with
    | some follows => exact congrArg (fun e : Option _ => e.toList.map _) (follows_ending follows)

theorem Beside.history (beside : Beside cfg trace trace') :
    programHistory trace = CurrentDeletion.history cfg trace' := by
  induction beside with
  | nil => rfl
  | @cons entry entry' _ _ here _ ih =>
    have same : programEvents entry = CurrentDeletion.events cfg entry' := by
      obtain ⟨before,a,after⟩ := entry
      obtain ⟨before',a',after'⟩ := entry'
      obtain rfl : a = a' := here.action
      cases a with
      | start slot command => exact congrArg (_ ++ ·) (related_responses here.after slot)
      | advance slot choice => exact related_responses here.after slot
      | crash | environment => rfl
    rw [programHistory,CurrentDeletion.history,List.flatMap_cons,List.flatMap_cons,same]
    exact congrArg (CurrentDeletion.events cfg entry' ++ ·) ih

/-- In a run of the programs of one user's deletions, without a failure and in which no call of
`DeleteCurrent` is overtaken while the user has an avatar left, the calls look as if made one
after the other. -/
theorem programs_linearizable {userID : GoString} (readable : CurrentDeletion.Readable w₀)
    (shadow : Shadow cfg w₀ trace s trace' s')
    (deletes : ∀ entry ∈ trace', CurrentDeletion.Deletes userID entry.1 entry.2.1)
    (excused : Throughout (CurrentDeletion.Excused userID) trace') :
    Linearizability.Linearizable (CurrentDeletion.Does userID) (CurrentDeletion.liveAvatars w₀) (programHistory trace)
      (CurrentDeletion.liveAvatars s.world) := by
  rw [shadow.beside.history,shadow.last.world]
  exact (CurrentDeletion.linear_of_excused readable shadow.run deletes excused).1

/-! ### Pictures -/

theorem responded_done {s : State P} {slot : Nat} {response : Response}
    (finished : (system P cfg).Replied s slot (.responded response)) :
    s.procs slot = some (.done (.responded response)) := by
  obtain ⟨t,running,seen⟩ := finished
  have seen : t.view cfg = .done (.responded response) := seen
  cases t <;> simp only [Thread.view,View.done.injEq,reduceCtorEq] at seen
  rw [running,seen]

/-- When no read of the programs falls back from a missing thumbnail to an original that is still
there, a tag identifies the body it was issued for. -/
theorem programs_tags_identify (hash : Function.Injective P.sum256) (clock : Function.Injective P.utcString)
    (reached : Reachable (programs P cfg).step (Permitted cfg (NoFallback (P := P)))
      (Pool.initial (World.initial breakers)) s) {i j : Nat} {one two : Response} {etag : GoString}
    (first : (programs P cfg).Replied s i (.responded one)) (second : (programs P cfg).Replied s j (.responded two))
    (ok : one.status = 200) (ok' : two.status = 200) (tag : one.etag = some etag) (tag' : two.etag = some etag) :
    one.body = two.body := by
  obtain ⟨s',reached',related⟩ := programs_reach reached
  have first' := responded_done ((simulates.replied related i _).mp first)
  have second' := responded_done ((simulates.replied related j _).mp second)
  exact tagsIdentify_reached hash clock reached' i j one two etag first' second' ok ok' tag tag'

/-- In a run of the programs in which no dependency fails the requests for current avatars, and
none of them reads the original of its avatar while it is not there, each is answered with a
picture. -/
theorem programs_pictured (shadow : Shadow cfg (World.initial breakers) trace s trace' s')
    (answered : Throughout CurrentAvatar.Answered trace') (inTime : Throughout CurrentAvatar.InTime trace')
    {slot : Nat} {r : Rest.ContentRequest} {size : GoString} {response : Response}
    (asked : Machine.latest trace slot = some (.getCurrent r)) (valid : validateUserID r.userID = .ok ())
    (sized : Rest.parseSize r = .ok size) (finished : (programs P cfg).Replied s slot (.responded response)) :
    CurrentAvatar.Pictured trace' r size response := by
  have done := responded_done ((simulates.replied shadow.last slot _).mp finished)
  exact CurrentAvatar.satisfied_of_inTime shadow.run answered inTime slot r size response
    ⟨(shadow.beside.latest slot).symm.trans asked,valid,sized⟩ done

end Runs

end GophProfile

import GophProfile.CurrentAvatar
import GophProfile.Library.Linearizability

/-! Deletions of one user that race. Each looks like a single step on the user's avatars, but
`DeleteCurrent` reads the current avatar in one statement and deletes it in another; in
between somebody else may have deleted that very avatar. -/
namespace GophProfile.CurrentDeletion

open Domain Effect Transition Linearizability

variable {P : Packages} {cfg : Config} {userID : GoString}

/-! ### One call at a time -/

inductive Op where
  | delete (id : UUID)
  | deleteCurrent
  deriving DecidableEq

def Op.command (userID : GoString) : Op → Command
  | .delete id => .delete id userID
  | .deleteCurrent => .deleteCurrent userID

def opOf : Command → Option Op
  | .delete id _ => some (.delete id)
  | .deleteCurrent _ => some .deleteCurrent
  | _ => none

/-- What a caller tells apart by `errors.Is`. -/
inductive Ending where
  | deleted
  | notFound
  | forbidden
  | invalidUserID
  | failed
  deriving DecidableEq

def ending : Except Err Unit → Ending
  | .ok () => .deleted
  | .error err =>
    if err.is .avatarNotFound then .notFound
    else if err.is .forbidden then .forbidden
    else if err.is .invalidUserID then .invalidUserID
    else .failed

/-- Owner and creation time of the avatars that are not deleted. -/
abbrev Live := UUID → Option (GoString × Time)

/-- The user has no avatar left. -/
def Live.Nobody (live : Live) (userID : GoString) : Prop := ∀ id time, live id ≠ some (userID,time)

/-- No two avatars of the user were created at the same time. -/
def Live.Distinct (live : Live) (userID : GoString) : Prop :=
  ∀ id id' time, live id = some (userID,time) → live id' = some (userID,time) → id = id'

def liveAvatars (w : World) : Live := fun id => (w.live id).map fun r => (r.userID,r.createdAt)

/-- What a single call of the user does. -/
inductive Does (userID : GoString) : Op → Live → Ending → Live → Prop where
  | invalid (op : Op) (live : Live) (refused : validateUserID userID ≠ .ok ()) :
      Does userID op live .invalidUserID live
  | deleted {id : UUID} {live : Live} {time : Time} (valid : validateUserID userID = .ok ())
      (own : live id = some (userID,time)) :
      Does userID (.delete id) live .deleted (Function.update live id none)
  | foreign {id : UUID} {live : Live} {other : GoString} {time : Time}
      (valid : validateUserID userID = .ok ()) (there : live id = some (other,time))
      (different : other ≠ userID) : Does userID (.delete id) live .forbidden live
  | absent {id : UUID} {live : Live} (valid : validateUserID userID = .ok ())
      (none : live id = none) : Does userID (.delete id) live .notFound live
  | current {id : UUID} {live : Live} {time : Time} (valid : validateUserID userID = .ok ())
      (own : live id = some (userID,time))
      (latest : ∀ id' time', live id' = some (userID,time') → time' ≤ time) :
      Does userID .deleteCurrent live .deleted (Function.update live id none)
  | nobody {live : Live} (valid : validateUserID userID = .ok ()) (none : live.Nobody userID) :
      Does userID .deleteCurrent live .notFound live

/-- With distinct creation times there is one thing a call can do. -/
theorem does_unique {op : Op} {live live₁ live₂ : Live} {e₁ e₂ : Ending}
    (distinct : live.Distinct userID) (first : Does userID op live e₁ live₁)
    (second : Does userID op live e₂ live₂) : e₁ = e₂ ∧ live₁ = live₂ := by
  cases first with
  | invalid op live refused =>
    cases second with
    | invalid => exact ⟨rfl,rfl⟩
    | _ => contradiction
  | deleted valid own =>
    cases second with
    | deleted => exact ⟨rfl,rfl⟩
    | foreign _ there different =>
      cases own.symm.trans there
      exact absurd rfl different
    | absent _ none => exact absurd (own.symm.trans none) (by simp)
    | invalid => contradiction
  | foreign valid there different =>
    cases second with
    | foreign => exact ⟨rfl,rfl⟩
    | deleted _ own =>
      cases own.symm.trans there
      exact absurd rfl different
    | absent _ none => exact absurd (there.symm.trans none) (by simp)
    | invalid => contradiction
  | absent valid none =>
    cases second with
    | absent => exact ⟨rfl,rfl⟩
    | deleted _ own => exact absurd (own.symm.trans none) (by simp)
    | foreign _ there => exact absurd (there.symm.trans none) (by simp)
    | invalid => contradiction
  | @current id live time valid own latest =>
    cases second with
    | @current id' _ time' _ own' latest' =>
      have same : time = time' := le_antisymm (latest' id time own) (latest id' time' own')
      subst same
      rw [distinct id id' time own own']
      exact ⟨rfl,rfl⟩
    | nobody _ none => exact absurd own (none _ _)
    | invalid => contradiction
  | nobody valid none =>
    cases second with
    | nobody => exact ⟨rfl,rfl⟩
    | current _ own => exact absurd own (none _ _)
    | invalid => contradiction

theorem Does.left {op : Op} {live live' : Live} {e : Ending} (does : Does userID op live e live')
    {id : UUID} {x : GoString × Time} (left : live' id = some x) : live id = some x := by
  have update : ∀ {removed}, Function.update live removed none id = some x → live id = some x := by
    intro removed left
    by_cases same : id = removed
    · subst same
      simp at left
    · rwa [Function.update_of_ne same] at left
  cases does with
  | deleted | current => exact update left
  | _ => exact left

/-- While the user has an avatar left, no single call misses it. -/
theorem sequential_finds {q q' : Live} {order : List (Nat × Op × Ending)}
    (sequential : Sequential (Does userID) q order q') {id : UUID} {time : Time}
    (left : q' id = some (userID,time)) (slot : Nat) : (slot,.deleteCurrent,.notFound) ∉ order := by
  induction sequential with
  | nil => simp
  | snoc _ does ih =>
    intro member
    rcases List.mem_append.mp member with earlier | last
    · exact ih (does.left left) earlier
    · cases List.mem_singleton.mp last
      cases does with
      | nobody _ none => exact none id time left

/-! ### The avatars of the world -/

variable {w w' : World}

theorem liveAvatars_some {id : UUID} {owner : GoString} {time : Time} :
    liveAvatars w id = some (owner,time) ↔
      ∃ r, w.live id = some r ∧ r.userID = owner ∧ r.createdAt = time := by
  simp [liveAvatars]

/-- Nothing but deletions has happened to the live rows. -/
def Kept (w w' : World) : Prop := ∀ id r, w'.live id = some r → w.live id = some r

def Readable (w : World) : Prop :=
  ∀ id r, w.live id = some r → ∃ thumbnails, Postgres.unmarshalThumbnails r.thumbnailS3Keys = .ok thumbnails

theorem Kept.readable (kept : Kept w w') (readable : Readable w) : Readable w' :=
  fun id r live => readable id r (kept id r live)

theorem Kept.some (kept : Kept w w') {id : UUID} {x : GoString × Time}
    (live : liveAvatars w' id = some x) : liveAvatars w id = some x := by
  obtain ⟨r,found,same⟩ := Option.map_eq_some_iff.mp live
  exact Option.map_eq_some_iff.mpr ⟨r,kept id r found,same⟩

theorem live_deleted {r : Row} (live : w.live r.id = some r) (id : UUID) :
    (w.write (r.deleted w.now)).live id = if id = r.id then none else w.live id := by
  have found := (World.live_iff.mp live).1
  rw [World.live,World.find_write]
  by_cases same : id = r.id
  · subst same
    simp [Row.deleted,found,Row.live]
  · simp [Row.deleted,same,World.live]

theorem kept_deleted {r : Row} (live : w.live r.id = some r) : Kept w (w.write (r.deleted w.now)) := by
  intro id r' there
  rw [live_deleted live] at there
  split at there
  · contradiction
  · exact there

theorem liveAvatars_deleted {r : Row} (live : w.live r.id = some r) :
    liveAvatars (w.write (r.deleted w.now)) = Function.update (liveAvatars w) r.id none := by
  funext id
  rw [liveAvatars,live_deleted live]
  by_cases same : id = r.id
  · subst same
    simp
  · simp [same,liveAvatars]

/-- The statement for the current avatar finds a latest one, unless there is none. -/
theorem liveOf_head (w : World) (userID : GoString) :
    (w.liveOf userID).head? = none ∧ (liveAvatars w).Nobody userID ∨
      ∃ r, (w.liveOf userID).head? = some r ∧ w.live r.id = some r ∧ r.userID = userID ∧
        ∀ id time, liveAvatars w id = some (userID,time) → time ≤ r.createdAt := by
  have inside : ∀ r, r ∈ w.liveOf userID ↔ w.live r.id = some r ∧ r.userID = userID := by
    intro r
    rw [World.liveOf,List.mem_insertionSort,World.live_iff]
    simp [Row.live,Table.mem_iff_find,and_assoc]
  have member : ∀ id time, liveAvatars w id = some (userID,time) →
      ∃ r ∈ w.liveOf userID, r.createdAt = time := by
    intro id time live
    obtain ⟨r,found,owner,created⟩ := liveAvatars_some.mp live
    have key : r.id = id := Table.find_key (World.live_iff.mp found).1
    subst key
    exact ⟨r,(inside r).mpr ⟨found,owner⟩,created⟩
  have sorted : (w.liveOf userID).Pairwise fun a b => b.createdAt ≤ a.createdAt :=
    List.pairwise_insertionSort _ _
  cases listed : w.liveOf userID with
  | nil =>
    refine .inl ⟨rfl,fun id time live => ?_⟩
    obtain ⟨r,there,-⟩ := member id time live
    rw [listed] at there
    contradiction
  | cons r rest =>
    rw [listed] at sorted
    have first := (inside r).mp (by rw [listed]; exact List.mem_cons_self)
    refine .inr ⟨r,rfl,first.1,first.2,fun id time live => ?_⟩
    obtain ⟨r',there,rfl⟩ := member id time live
    rw [listed] at there
    rcases List.mem_cons.mp there with rfl | later
    · exact le_refl _
    · exact (List.pairwise_cons.mp sorted).1 r' later

/-! ### The steps of a call -/

/-- How far a call has come, with what it knows of the avatars. -/
def Doing (userID : GoString) (op : Op) (live : Live) : Thread P → Prop
  | .currentSelect user => user = userID ∧ validateUserID userID = .ok () ∧ op = .deleteCurrent
  | .deleteUpdate id user =>
    user = userID ∧ validateUserID userID = .ok () ∧
      (op = .delete id ∨ op = .deleteCurrent ∧ ∀ owner time, live id = some (owner,time) →
        owner = userID ∧ ∀ id' time', live id' = some (userID,time') → time' ≤ time)
  | .deleteOwner id user =>
    user = userID ∧ validateUserID userID = .ok () ∧
      (op = .delete id ∧ (∀ time, live id ≠ some (userID,time)) ∨ op = .deleteCurrent ∧ live id = none)
  | .deleteIterate _ user _ _ | .deletePublish _ user _ | .deleteDone _ user _
  | .done (.deleted user _) => user = userID
  | _ => False

theorem Doing.later {op : Op} {t : Thread P} (kept : Kept w w') (doing : Doing userID op (liveAvatars w) t) :
    Doing userID op (liveAvatars w') t := by
  cases t with
  | deleteUpdate id user =>
    obtain ⟨same,valid,direct | ⟨current,latest⟩⟩ := doing
    · exact ⟨same,valid,.inl direct⟩
    · refine ⟨same,valid,.inr ⟨current,fun owner time live => ?_⟩⟩
      obtain ⟨own,most⟩ := latest owner time (kept.some live)
      exact ⟨own,fun id' time' live' => most id' time' (kept.some live')⟩
  | deleteOwner id user =>
    obtain ⟨same,valid,⟨direct,none⟩ | ⟨current,none⟩⟩ := doing
    · exact ⟨same,valid,.inl ⟨direct,fun time live => none time (kept.some live)⟩⟩
    · refine ⟨same,valid,.inr ⟨current,?_⟩⟩
      cases live : liveAvatars w' id with
      | none => rfl
      | some x => exact absurd (none.symm.trans (kept.some live)) (by simp)
  | done reply =>
    cases reply with
    | deleted => exact doing
    | _ => exact doing.elim
  | currentSelect | deleteIterate | deletePublish | deleteDone => exact doing
  | _ => exact doing.elim

/-- `DeleteCurrent` looks for the owner only of an avatar that is gone. -/
theorem Doing.gone {live : Live} {id : UUID}
    (doing : Doing userID .deleteCurrent live (.deleteOwner id userID : Thread P)) : live id = none := by
  obtain ⟨-,-,⟨wrong,-⟩ | ⟨-,gone⟩⟩ := doing
  · contradiction
  · exact gone

/-- A step of a call. It takes effect where the UPDATE finds the row, or where a SELECT says
that there is nothing to delete. -/
inductive Moved (userID : GoString) (w : World) : Thread P → World → Thread P → Prop where
  | nobody (err : Err) (none : (liveAvatars w).Nobody userID) (told : ending (.error err) = .notFound) :
      Moved userID w (.currentSelect userID) w (.done (.deleted userID (.error err)))
  | picked (id : UUID) (time : Time) (own : liveAvatars w id = some (userID,time))
      (latest : ∀ id' time', liveAvatars w id' = some (userID,time') → time' ≤ time) :
      Moved userID w (.currentSelect userID) w (.deleteUpdate id userID)
  | won (id : UUID) (time : Time) (s3Key : GoString) (keys : GoMap) (w' : World)
      (own : liveAvatars w id = some (userID,time))
      (gone : liveAvatars w' = Function.update (liveAvatars w) id none) :
      Moved userID w (.deleteUpdate id userID) w' (.deleteIterate id userID s3Key keys)
  | missed (id : UUID) (none : ∀ time, liveAvatars w id ≠ some (userID,time)) :
      Moved userID w (.deleteUpdate id userID) w (.deleteOwner id userID)
  | foreign (id : UUID) (other : GoString) (time : Time) (err : Err)
      (there : liveAvatars w id = some (other,time)) (different : other ≠ userID)
      (told : ending (.error err) = .forbidden) :
      Moved userID w (.deleteOwner id userID) w (.deleteDone id userID (.error err))
  | absent (id : UUID) (err : Err)
      (none : ∀ other time, liveAvatars w id = some (other,time) → other = userID)
      (told : ending (.error err) = .notFound) :
      Moved userID w (.deleteOwner id userID) w (.deleteDone id userID (.error err))
  | ranged (id : UUID) (s3Key : GoString) (keys : GoMap) (all : List GoString) :
      Moved userID w (.deleteIterate id userID s3Key keys) w (.deletePublish id userID all)
  | published (id : UUID) (keys : List GoString) (w' : World) (same : liveAvatars w' = liveAvatars w) :
      Moved userID w (.deletePublish id userID keys) w' (.deleteDone id userID (.ok ()))

theorem moved {op : Op} {choice : Choice} {t : Thread P} {c : Call} {next : c.Answer → Thread P}
    {answer : c.Answer} (healthy : choice.healthy = true) (readable : Readable w)
    (doing : Doing userID op (liveAvatars w) t) (seen : t.view cfg = .call c next)
    (done : World.perform c choice w = some (answer,w')) :
    Moved userID w t w' (next answer) ∧ Kept w w' := by
  have still : Kept w w := fun _ _ live => live
  cases t with
  | currentSelect user =>
    obtain ⟨rfl,valid,-⟩ := doing
    cases (show View.call _ _ = View.call c next from seen)
    obtain rfl : w' = w := by cases World.perform_changed done; rfl
    rw [CurrentAvatar.selectCurrent_healthy healthy done]
    rcases liveOf_head w' user with ⟨first,none⟩ | ⟨r,first,live,owner,latest⟩
    · rw [first]
      exact ⟨.nobody _ none rfl,still⟩
    · obtain ⟨thumbnails,decoded⟩ := readable r.id r live
      have next : Thread.afterCurrent user (World.rowOr (some r)) = .deleteUpdate (P := P) r.id user := by
        simp [Thread.afterCurrent,World.rowOr,Postgres.getCurrentResult,Postgres.scanAvatar,decoded,
          Thread.startDelete,valid,Postgres.toAvatar]
      rw [first,next]
      exact ⟨.picked r.id r.createdAt (liveAvatars_some.mpr ⟨r,live,owner,rfl⟩) latest,still⟩
  | deleteUpdate id user =>
    obtain ⟨rfl,-⟩ := doing
    cases (show View.call _ _ = View.call c next from seen)
    rcases updateDeleted_healthy healthy done with ⟨rfl,rfl,none⟩ | ⟨r,live,owner,rfl,rfl⟩
    · refine ⟨.missed id fun time live => ?_,still⟩
      obtain ⟨r,there,owner,-⟩ := liveAvatars_some.mp live
      exact none r there owner
    · have key : r.id = id := Table.find_key (World.live_iff.mp live).1
      subst key
      obtain ⟨thumbnails,decoded⟩ := readable r.id r live
      simp only [Thread.afterUpdate,decoded]
      exact ⟨.won r.id r.createdAt _ _ _ (liveAvatars_some.mpr ⟨r,live,owner,rfl⟩)
        (liveAvatars_deleted live),kept_deleted live⟩
  | deleteOwner id user =>
    obtain ⟨rfl,-⟩ := doing
    cases (show View.call _ _ = View.call c next from seen)
    obtain ⟨rfl,verdict⟩ := conflict_verdict user healthy done
    rcases verdict with ⟨⟨r,live,other⟩,forbidden,found⟩ | ⟨none,absent,-⟩
    · refine ⟨.foreign id r.userID r.createdAt _ (liveAvatars_some.mpr ⟨r,live,rfl,rfl⟩) other ?_,still⟩
      simp [ending,forbidden,found]
    · refine ⟨.absent id _ (fun other time live => ?_) (by simp [ending,absent]),still⟩
      obtain ⟨r,there,rfl,-⟩ := liveAvatars_some.mp live
      exact none r there
  | deleteIterate id user s3Key keys =>
    obtain rfl := doing
    cases (show View.call _ _ = View.call c next from seen)
    obtain rfl : w' = w := by cases World.perform_changed done; rfl
    exact ⟨.ranged id s3Key keys _,still⟩
  | deletePublish id user keys =>
    obtain rfl := doing
    cases (show View.call _ _ = View.call c next from seen)
    obtain ⟨-,rfl⟩ := publishDelete_healthy healthy done
    exact ⟨.published id keys _ rfl,still⟩
  | done => contradiction
  | deleteDone => contradiction
  | _ => exact doing.elim

theorem Moved.doing {op : Op} {t t' : Thread P} (move : Moved userID w t w' t')
    (doing : Doing userID op (liveAvatars w) t) : Doing userID op (liveAvatars w') t' := by
  cases move with
  | picked id time own latest =>
    obtain ⟨-,valid,current⟩ := doing
    refine ⟨rfl,valid,.inr ⟨current,fun owner time' live => ?_⟩⟩
    cases own.symm.trans live
    exact ⟨rfl,latest⟩
  | missed id none =>
    obtain ⟨-,valid,direct | ⟨current,latest⟩⟩ := doing
    · exact ⟨rfl,valid,.inl ⟨direct,none⟩⟩
    · refine ⟨rfl,valid,.inr ⟨current,?_⟩⟩
      cases live : liveAvatars w id with
      | none => rfl
      | some x =>
        obtain ⟨rfl,-⟩ := latest x.1 x.2 live
        exact absurd live (none x.2)
  | _ => rfl

theorem doing_start (userID : GoString) (op : Op) (live : Live) :
    Doing userID op live (Thread.start (op.command userID) : Thread P) := by
  cases op with
  | delete id =>
    simp only [Op.command,Thread.start,Thread.startDelete]
    split
    · rfl
    · next valid => exact ⟨rfl,valid,.inl rfl⟩
  | deleteCurrent =>
    simp only [Op.command,Thread.start,Thread.startDeleteCurrent]
    split
    · rfl
    · next valid => exact ⟨rfl,valid,rfl⟩

/-! ### The calls of a run -/

def endingOf (cfg : Config) (t : Thread P) : Option Ending :=
  match t.view cfg with
  | .done (.deleted _ result) => some (ending result)
  | _ => none

/-- The answer that a step ends a call with. -/
def responses (cfg : Config) (s : State P) (slot : Nat) : List (Event Nat Op Ending) :=
  ((s.procs slot).bind (endingOf cfg)).toList.map (.respond slot)

def events (cfg : Config) (entry : State P × Act × State P) : List (Event Nat Op Ending) :=
  match entry.2.1 with
  | .start slot command =>
    (opOf command).toList.map (.invoke slot) ++ responses cfg entry.2.2 slot
  | .advance slot _ => responses cfg entry.2.2 slot
  | _ => []

/-- Calls and answers, in the order of time. -/
def history (cfg : Config) (trace : Trace P) : List (Event Nat Op Ending) := trace.flatMap (events cfg)

theorem history_snoc (trace : Trace P) (entry : State P × Act × State P) :
    history cfg (trace ++ [entry]) = history cfg trace ++ events cfg entry := by
  simp [history]

/-- The user's deletions and nothing else, without a failure. -/
def Deletes (userID : GoString) (s : State P) (a : Act) : Prop :=
  Undisturbed s a ∧ ∀ slot command, a = .start slot command → ∃ op : Op, command = op.command userID

/-- Of the calls of `DeleteCurrent` that found no avatar, each has met a moment in which
there was none. -/
def Told (cfg : Config) (userID : GoString) (trace : Trace P) (s : State P) : Prop :=
  ∀ slot t, Machine.latest trace slot = some (.deleteCurrent userID) → s.procs slot = some t →
    endingOf cfg t = some .notFound → ∃ entry ∈ trace,
      (∃ u, entry.1.procs slot = some u ∧ endingOf cfg u = none) ∧
        (liveAvatars entry.1.world).Nobody userID

/-- A `DeleteCurrent` whose avatar was deleted by another call goes on to its answer only
while the user has no avatar left. -/
def Excused (userID : GoString) (trace : Trace P) (s : State P) (a : Act) : Prop :=
  ∀ slot choice id, a = .advance slot choice → Machine.latest trace slot = some (.deleteCurrent userID) →
    s.procs slot = some (.deleteOwner id userID) → (liveAvatars s.world).Nobody userID

variable {trace : Trace P} {s s' : State P}

theorem latest_idle {slot : Nat} {a : Act} (idle : Machine.startedIn slot a = none) :
    Machine.latest (trace ++ [(s,a,s')]) slot = Machine.latest trace slot := by
  rw [Machine.latest_snoc,idle,Option.none_or]

theorem latest_start (slot : Nat) (command : Command) :
    Machine.latest (trace ++ [(s,.start slot command,s')]) slot = some command := by
  simp [Machine.latest_snoc,Machine.startedIn]

/-- A call of the history was started by a step of the run. -/
theorem invoked_started {slot : Nat} {op : Op} (invoked : .invoke slot op ∈ history cfg trace) :
    ∃ command, .start slot command ∈ trace.map (fun entry => entry.2.1) ∧ opOf command = some op := by
  obtain ⟨entry,member,inside⟩ := List.mem_flatMap.mp invoked
  have answers : ∀ other, Event.invoke slot op ∉ responses cfg entry.2.2 other := by
    simp [responses]
  unfold events at inside
  split at inside
  · next other command started =>
    rcases List.mem_append.mp inside with call | answer
    · obtain ⟨op',listed,same⟩ := List.mem_map.mp call
      cases same
      exact ⟨command,List.mem_map.mpr ⟨entry,member,started⟩,by simpa using listed⟩
    · exact absurd answer (answers other)
  · next other choice _ => exact absurd inside (answers other)
  · contradiction

/-- The history has the answer of every call that is over. -/
theorem responded {w₀ : World} (run : Path (system P cfg).step (Pool.initial w₀) trace s) {slot : Nat}
    {t : Thread P} {e : Ending} (running : s.procs slot = some t) (ended : endingOf cfg t = some e) :
    .respond slot e ∈ history cfg trace := by
  induction run generalizing slot t with
  | nil => simp [Pool.initial] at running
  | @snoc trace s s' a before taken ih =>
    rw [history_snoc]
    have now : s'.procs slot = some t → .respond slot e ∈ responses cfg s' slot := by
      intro here
      simp [responses,here,ended]
    cases a with
    | start other command =>
      obtain ⟨-,rfl⟩ := Machine.step_start taken
      rcases Pool.running_started running with ⟨rfl,-⟩ | ⟨-,old⟩
      · exact List.mem_append_right _ (List.mem_append_right _ (now running))
      · exact List.mem_append_left _ (ih old ended)
    | advance other choice =>
      obtain ⟨_,_,_,_,_,_,_,_,rfl⟩ := Machine.step_advance taken
      rcases Pool.running_answered running with ⟨rfl,-⟩ | ⟨-,old⟩
      · exact List.mem_append_right _ (now running)
      · exact List.mem_append_left _ (ih old ended)
    | crash other =>
      obtain ⟨-,rfl⟩ := Machine.step_crash taken
      exact List.mem_append_left _ (ih (Pool.running_crashed running).2 ended)
    | environment event =>
      obtain ⟨_,-,rfl⟩ := Machine.step_environment taken
      exact List.mem_append_left _ (ih running ended)

/-- What is known of the calls in any run of deletions. -/
structure Holds (cfg : Config) (userID : GoString) (trace : Trace P) (s : State P) : Prop where
  readable : Readable s.world
  doing : ∀ slot t, s.procs slot = some t → ∃ op : Op,
    Machine.latest trace slot = some (op.command userID) ∧ .invoke slot op ∈ history cfg trace ∧
      Doing userID op (liveAvatars s.world) t
  kept : ∀ entry ∈ trace, Kept entry.1.world s.world

theorem Holds.step {a : Act} (holds : Holds cfg userID trace s) (permitted : Deletes userID s a)
    (taken : (system P cfg).step s a = some s') : Holds cfg userID (trace ++ [(s,a,s')]) s' := by
  -- everything but the process that acts only sees avatars disappear
  have rest : Kept s.world s'.world → (∀ slot t, s'.procs slot = some t →
      Machine.startedIn slot a = none ∧ s.procs slot = some t ∨ ∃ op : Op,
        Machine.latest (trace ++ [(s,a,s')]) slot = some (op.command userID) ∧
          .invoke slot op ∈ history cfg (trace ++ [(s,a,s')]) ∧
            Doing userID op (liveAvatars s'.world) t) → Holds cfg userID (trace ++ [(s,a,s')]) s' := by
    intro kept procs
    refine ⟨kept.readable holds.readable,fun slot t running => ?_,fun entry member => ?_⟩
    · rcases procs slot t running with ⟨idle,before⟩ | now
      · obtain ⟨op,latest,invoked,doing⟩ := holds.doing slot t before
        refine ⟨op,(latest_idle idle).trans latest,?_,doing.later kept⟩
        rw [history_snoc]
        exact List.mem_append_left _ invoked
      · exact now
    · rcases List.mem_append.mp member with old | new
      · exact fun id r live => holds.kept entry old id r (kept id r live)
      · obtain rfl := List.mem_singleton.mp new
        exact kept
  cases a with
  | start slot command =>
    obtain ⟨op,rfl⟩ := permitted.2 slot command rfl
    obtain ⟨free,rfl⟩ := Machine.step_start taken
    refine rest (fun _ _ live => live) fun other t running => ?_
    rcases Pool.running_started running with ⟨rfl,rfl⟩ | ⟨different,running⟩
    · refine .inr ⟨op,latest_start _ _,?_,doing_start userID op _⟩
      rw [history_snoc]
      refine List.mem_append_right _ (List.mem_append_left _ ?_)
      cases op <;> exact List.mem_cons_self
    · exact .inl ⟨if_neg (Ne.symm different),running⟩
  | advance slot choice =>
    obtain ⟨t,c,next,answer,w,running,seen,performed,rfl⟩ := Machine.step_advance taken
    obtain ⟨op,latest,invoked,doing⟩ := holds.doing slot t running
    obtain ⟨move,kept⟩ := moved (permitted.1.1 slot choice rfl) holds.readable doing seen performed
    refine rest kept fun other u running' => ?_
    rcases Pool.running_answered running' with ⟨rfl,rfl⟩ | ⟨different,running'⟩
    · refine .inr ⟨op,(latest_idle rfl).trans latest,?_,move.doing doing⟩
      rw [history_snoc]
      exact List.mem_append_left _ invoked
    · exact .inl ⟨rfl,running'⟩
  | crash slot => exact absurd rfl (permitted.1.2 slot)
  | environment event =>
    obtain ⟨w,happened,rfl⟩ := Machine.step_environment taken
    have same := World.environment_avatars happened
    refine rest (fun id r live => ?_) fun other t running => .inl ⟨rfl,running⟩
    rwa [World.live,same] at live

theorem holds {w₀ : World} (readable : Readable w₀)
    (run : Path (system P cfg).step (Pool.initial w₀) trace s)
    (deletes : ∀ entry ∈ trace, Deletes userID entry.1 entry.2.1) : Holds cfg userID trace s := by
  induction run with
  | nil => exact ⟨readable,by simp [Pool.initial],by simp⟩
  | snoc before taken ih =>
    have earlier := ih fun entry member => deletes entry (List.mem_append_left _ member)
    exact earlier.step (deletes _ (List.mem_append_right _ List.mem_cons_self)) taken

/-! ### One after the other -/

/-- A call has its place in the order from the moment it takes effect. -/
def Placed (order : List (Nat × Op × Ending)) (slot : Nat) (op : Op) : Thread P → Prop
  | .deleteIterate _ _ _ _ | .deletePublish _ _ _ => (slot,op,.deleted) ∈ order
  | .deleteDone _ _ result | .done (.deleted _ result) => (slot,op,ending result) ∈ order
  | _ => slot ∉ order.map Prod.fst

theorem Placed.other {order : List (Nat × Op × Ending)} {slot : Nat} {op : Op} {t : Thread P}
    (placed : Placed order slot op t) {call : Nat × Op × Ending} (different : slot ≠ call.1) :
    Placed (order ++ [call]) slot op t := by
  have unplaced : slot ∉ order.map Prod.fst → slot ∉ (order ++ [call]).map Prod.fst := by
    intro fresh there
    rw [List.map_append] at there
    rcases List.mem_append.mp there with old | new
    · exact fresh old
    · exact different (List.mem_singleton.mp new)
  cases t with
  | deleteIterate | deletePublish | deleteDone => exact List.mem_append_left _ placed
  | done reply =>
    cases reply with
    | deleted => exact List.mem_append_left _ placed
    | _ => exact unplaced placed
  | _ => exact unplaced placed

/-- The order after a step of a call: the same, or with the call itself at its end. -/
def Extends (slot : Nat) (op : Op) (order order' : List (Nat × Op × Ending)) : Prop :=
  order' = order ∨ ∃ e, order' = order ++ [(slot,op,e)]

theorem Moved.placed (cfg : Config) {q : Live} {h : List (Event Nat Op Ending)} {order : List (Nat × Op × Ending)}
    {slot : Nat} {op : Op} {t t' : Thread P} (move : Moved userID w t w' t')
    (doing : Doing userID op (liveAvatars w) t) (invoked : .invoke slot op ∈ h)
    (excused : op = .deleteCurrent → ∀ id, t = .deleteOwner id userID → (liveAvatars w).Nobody userID)
    (lin : Linearizes (Does userID) q h order (liveAvatars w)) (placed : Placed order slot op t) :
    ∃ order', Extends slot op order order' ∧ Placed order' slot op t' ∧
      Linearizes (Does userID) q (h ++ (endingOf cfg t').toList.map (.respond slot)) order'
        (liveAvatars w') := by
  have fresh : ∀ {e}, (slot,op,e) ∈ order ++ [(slot,op,e)] :=
    List.mem_append_right _ List.mem_cons_self
  -- the call takes effect and is answered in one step
  have both : ∀ {e}, slot ∉ order.map Prod.fst → Does userID op (liveAvatars w) e (liveAvatars w) →
      Linearizes (Does userID) q (h ++ [.respond slot e]) (order ++ [(slot,op,e)]) (liveAvatars w) :=
    fun idle does => (lin.effect invoked idle does).respond fresh
  have silent : ∀ {order' live}, Linearizes (Does userID) q h order' live →
      Linearizes (Does userID) q (h ++ []) order' live := fun same => by rwa [List.append_nil]
  cases move with
  | nobody err none told =>
    obtain ⟨-,valid,rfl⟩ := doing
    refine ⟨_,.inr ⟨_,rfl⟩,fresh,?_⟩
    simp only [endingOf,Thread.view,told]
    exact both placed (.nobody valid none)
  | picked id => exact ⟨order,.inl rfl,placed,silent lin⟩
  | won id time s3Key keys w' own gone =>
    obtain ⟨-,valid,rfl | ⟨rfl,latest⟩⟩ := doing
    · refine ⟨_,.inr ⟨_,rfl⟩,fresh,silent (lin.effect invoked placed ?_)⟩
      rw [gone]
      exact .deleted valid own
    · refine ⟨_,.inr ⟨_,rfl⟩,fresh,silent (lin.effect invoked placed ?_)⟩
      rw [gone]
      exact .current valid own (latest userID time own).2
  | missed => exact ⟨order,.inl rfl,placed,silent lin⟩
  | foreign id other time err there different told =>
    obtain ⟨-,valid,⟨rfl,-⟩ | ⟨-,none⟩⟩ := doing
    · refine ⟨_,.inr ⟨_,rfl⟩,fresh,?_⟩
      simp only [endingOf,Thread.view,told]
      exact both placed (.foreign valid there different)
    · exact absurd (there.symm.trans none) (by simp)
  | absent id err none told =>
    obtain ⟨-,valid,⟨rfl,unowned⟩ | ⟨rfl,-⟩⟩ := doing
    · refine ⟨_,.inr ⟨_,rfl⟩,fresh,?_⟩
      simp only [endingOf,Thread.view,told]
      refine both placed (.absent valid ?_)
      cases live : liveAvatars w id with
      | none => rfl
      | some x =>
        obtain rfl := none x.1 x.2 live
        exact absurd live (unowned x.2)
    · refine ⟨_,.inr ⟨_,rfl⟩,fresh,?_⟩
      simp only [endingOf,Thread.view,told]
      exact both placed (.nobody valid (excused rfl id rfl))
  | ranged => exact ⟨order,.inl rfl,placed,silent lin⟩
  | published id keys w' same =>
    refine ⟨order,.inl rfl,placed,?_⟩
    rw [same]
    exact lin.respond placed

/-- Where a `DeleteCurrent` learns that there is no avatar, there is none. -/
theorem Moved.told {t t' : Thread P} (move : Moved userID w t w' t')
    (doing : Doing userID .deleteCurrent (liveAvatars w) t)
    (excused : ∀ id, t = .deleteOwner id userID → (liveAvatars w).Nobody userID)
    (missing : endingOf cfg t' = some .notFound) : (liveAvatars w).Nobody userID := by
  cases move with
  | nobody err none => exact none
  | foreign id other time err there => exact absurd (there.symm.trans doing.gone) (by simp)
  | absent id err none => exact excused id rfl
  | published => cases (show some Ending.deleted = some Ending.notFound from missing)
  | _ => contradiction

/-- An overtaken call is told that there is no avatar. -/
theorem Moved.overtaken {id : UUID} {t' : Thread P} (move : Moved userID w (.deleteOwner id userID) w' t')
    (doing : Doing userID .deleteCurrent (liveAvatars w) (.deleteOwner id userID : Thread P)) :
    endingOf cfg t' = some .notFound := by
  cases move with
  | foreign id other time err there => exact absurd (there.symm.trans doing.gone) (by simp)
  | absent id err none told => exact congrArg some told

theorem Moved.running {t t' : Thread P} (move : Moved userID w t w' t') : endingOf cfg t = none := by
  cases move <;> rfl

theorem ending_invalid {err : Err} (refused : validateUserID userID = .error err) :
    ending (.error err) = .invalidUserID := by
  unfold validateUserID at refused
  split at refused
  · cases refused; rfl
  · split at refused
    · cases refused; rfl
    · split at refused <;> cases refused
      rfl

/-- A call that starts has everything before it, or has been refused. -/
theorem start_cases (cfg : Config) (userID : GoString) (op : Op) :
    (endingOf cfg (Thread.start (op.command userID) : Thread P) = none ∧
      ∀ order slot, slot ∉ order.map Prod.fst →
        Placed order slot op (Thread.start (op.command userID) : Thread P)) ∨
    (validateUserID userID ≠ .ok () ∧
      endingOf cfg (Thread.start (op.command userID) : Thread P) = some .invalidUserID ∧
      ∀ order slot, (slot,op,.invalidUserID) ∈ order →
        Placed order slot op (Thread.start (op.command userID) : Thread P)) := by
  cases valid : validateUserID userID with
  | ok _ =>
    cases op with
    | delete id =>
      simp only [Op.command,Thread.start,Thread.startDelete,valid]
      exact .inl ⟨rfl,fun _ _ fresh => fresh⟩
    | deleteCurrent =>
      simp only [Op.command,Thread.start,Thread.startDeleteCurrent,valid]
      exact .inl ⟨rfl,fun _ _ fresh => fresh⟩
  | error err =>
    have told := ending_invalid valid
    cases op with
    | delete id =>
      simp only [Op.command,Thread.start,Thread.startDelete,valid]
      exact .inr ⟨by simp,congrArg some told,fun order slot there => by simpa [Placed,told] using there⟩
    | deleteCurrent =>
      simp only [Op.command,Thread.start,Thread.startDeleteCurrent,valid]
      exact .inr ⟨by simp,congrArg some told,fun order slot there => by simpa [Placed,told] using there⟩

theorem placed_start (cfg : Config) {q : Live} {h : List (Event Nat Op Ending)} {order : List (Nat × Op × Ending)}
    {slot : Nat} (op : Op) {live : Live} (lin : Linearizes (Does userID) q h order live)
    (fresh : slot ∉ order.map Prod.fst) :
    ∃ order', Extends slot op order order' ∧
      Placed order' slot op (Thread.start (op.command userID) : Thread P) ∧
      endingOf cfg (Thread.start (op.command userID) : Thread P) ≠ some .notFound ∧
      Linearizes (Does userID) q (h ++ ([.invoke slot op] ++
        (endingOf cfg (Thread.start (op.command userID) : Thread P)).toList.map (.respond slot))) order' live := by
  have called := lin.invoke fresh op
  rcases start_cases (P := P) cfg userID op with ⟨silent,placed⟩ | ⟨refused,told,placed⟩
  · rw [silent]
    refine ⟨order,.inl rfl,placed order slot fresh,nofun,?_⟩
    rw [Option.toList_none,List.map_nil,List.append_nil]
    exact called
  · rw [told]
    have here : (slot,op,Ending.invalidUserID) ∈ order ++ [(slot,op,.invalidUserID)] :=
      List.mem_append_right _ List.mem_cons_self
    refine ⟨_,.inr ⟨_,rfl⟩,placed _ slot here,by simp,?_⟩
    have effect := called.effect (List.mem_append_right _ List.mem_cons_self) fresh (.invalid op live refused)
    rw [← List.append_assoc]
    exact effect.respond here

/-- What holds of a run in which no call is overtaken without an excuse. -/
structure Serial (cfg : Config) (userID : GoString) (q : Live) (trace : Trace P) (s : State P)
    (order : List (Nat × Op × Ending)) : Prop where
  lin : Linearizes (Does userID) q (history cfg trace) order (liveAvatars s.world)
  placed : ∀ slot t op, s.procs slot = some t → Machine.latest trace slot = some (op.command userID) →
    Placed order slot op t
  free : ∀ slot, s.procs slot = none → slot ∉ order.map Prod.fst
  told : Told cfg userID trace s

theorem Op.command_injective (userID : GoString) : Function.Injective (Op.command userID) := by
  intro op op' same
  cases op <;> cases op' <;> cases same <;> rfl

/-- The slot that acts takes its place; all the others keep theirs. -/
theorem Serial.next {q : Live} {order order' : List (Nat × Op × Ending)} {slot : Nat} {op : Op}
    {a : Act} {t' : Thread P} (serial : Serial cfg userID q trace s order)
    (extends_ : Extends slot op order order') (placed : Placed order' slot op t')
    (latest : Machine.latest (trace ++ [(s,a,s')]) slot = some (op.command userID))
    (idle : ∀ other, other ≠ slot → Machine.startedIn other a = none)
    (here : s'.procs slot = some t') (others : ∀ other, other ≠ slot → s'.procs other = s.procs other)
    (lin : Linearizes (Does userID) q (history cfg (trace ++ [(s,a,s')])) order' (liveAvatars s'.world))
    (told : op = .deleteCurrent → endingOf cfg t' = some .notFound →
      (∃ u, s.procs slot = some u ∧ endingOf cfg u = none) ∧ (liveAvatars s.world).Nobody userID) :
    Serial cfg userID q (trace ++ [(s,a,s')]) s' order' where
  lin := lin
  placed := by
    intro other t op' running called
    by_cases same : other = slot
    · subst same
      obtain rfl := Option.some.inj (here.symm.trans running)
      obtain rfl := Op.command_injective userID (Option.some.inj (latest.symm.trans called))
      exact placed
    · rw [others other same] at running
      rw [latest_idle (idle other same)] at called
      have old := serial.placed other t op' running called
      rcases extends_ with rfl | ⟨e,rfl⟩
      · exact old
      · exact old.other same
  free := by
    intro other gone
    have same : other ≠ slot := by
      rintro rfl
      rw [here] at gone
      contradiction
    rw [others other same] at gone
    rcases extends_ with rfl | ⟨e,rfl⟩
    · exact serial.free other gone
    · intro there
      rw [List.map_append] at there
      rcases List.mem_append.mp there with old | new
      · exact serial.free other gone old
      · exact same (List.mem_singleton.mp new)
  told := by
    intro other t called running missing
    by_cases same : other = slot
    · subst same
      obtain rfl := Option.some.inj (here.symm.trans running)
      have current : op = .deleteCurrent :=
        Op.command_injective userID (Option.some.inj (latest.symm.trans called))
      exact ⟨_,List.mem_append_right _ List.mem_cons_self,told current missing⟩
    · rw [others other same] at running
      rw [latest_idle (idle other same)] at called
      obtain ⟨entry,member,met⟩ := serial.told other t called running missing
      exact ⟨entry,List.mem_append_left _ member,met⟩

theorem Serial.step {a : Act} {q : Live} {order : List (Nat × Op × Ending)}
    (holds : Holds cfg userID trace s) (serial : Serial cfg userID q trace s order)
    (permitted : Deletes userID s a) (excused : Excused userID trace s a)
    (taken : (system P cfg).step s a = some s') :
    ∃ order', Serial cfg userID q (trace ++ [(s,a,s')]) s' order' := by
  cases a with
  | start slot command =>
    obtain ⟨op,rfl⟩ := permitted.2 slot command rfl
    obtain ⟨free,rfl⟩ := Machine.step_start taken
    obtain ⟨order',extends_,placed,found,lin⟩ :=
      placed_start (P := P) cfg op serial.lin (serial.free slot free)
    refine ⟨order',serial.next extends_ placed (latest_start _ _)
      (fun other different => if_neg (Ne.symm different)) (Pool.setProc_same _ _ _)
      (fun other different => Pool.setProc_other _ _ different) ?_ (fun _ missing => absurd missing found)⟩
    rw [history_snoc]
    have called : opOf (op.command userID) = some op := by cases op <;> rfl
    simpa [events,called,responses,system] using lin
  | advance slot choice =>
    obtain ⟨t,c,next,answer,w,running,seen,performed,rfl⟩ := Machine.step_advance taken
    obtain ⟨op,latest,invoked,doing⟩ := holds.doing slot t running
    obtain ⟨move,kept⟩ := moved (permitted.1.1 slot choice rfl) holds.readable doing seen performed
    have none_left : op = .deleteCurrent → ∀ id, t = .deleteOwner id userID →
        (liveAvatars s.world).Nobody userID := by
      rintro rfl id rfl
      exact excused slot choice id rfl latest running
    obtain ⟨order',extends_,placed,lin⟩ :=
      move.placed cfg doing invoked none_left serial.lin (serial.placed slot t op running latest)
    refine ⟨order',serial.next extends_ placed ((latest_idle rfl).trans latest) (fun _ _ => rfl)
      (Pool.answered_same _ _ _ _ _ _) (fun other different => Pool.answered_other _ _ _ _ _ different)
      ?_ fun current missing => ?_⟩
    · rw [history_snoc]
      simpa [events,responses] using lin
    · subst current
      exact ⟨⟨t,running,move.running⟩,move.told doing (none_left rfl) missing⟩
  | crash slot => exact absurd rfl (permitted.1.2 slot)
  | environment event =>
    obtain ⟨w,happened,rfl⟩ := Machine.step_environment taken
    have same : liveAvatars w = liveAvatars s.world := by
      unfold liveAvatars World.live
      rw [World.environment_avatars happened]
    refine ⟨order,?_,fun slot t op running called => ?_,serial.free,fun slot t called running missing => ?_⟩
    · rw [history_snoc,show liveAvatars _ = _ from same]
      simpa [events] using serial.lin
    · exact serial.placed slot t op running ((latest_idle rfl).symm.trans called)
    · obtain ⟨entry,member,met⟩ := serial.told slot t ((latest_idle rfl).symm.trans called) running missing
      exact ⟨entry,List.mem_append_left _ member,met⟩

variable {w₀ : World}

theorem serial (readable : Readable w₀)
    (run : Path (system P cfg).step (Pool.initial w₀) trace s)
    (deletes : ∀ entry ∈ trace, Deletes userID entry.1 entry.2.1)
    (excused : Throughout (Excused userID) trace) :
    ∃ order, Serial cfg userID (liveAvatars w₀) trace s order := by
  induction run with
  | nil => exact ⟨[],.initial,by simp [Pool.initial],by simp,by simp [Told,Pool.initial]⟩
  | snoc before taken ih =>
    have earlier := fun entry member => deletes entry (List.mem_append_left _ member)
    obtain ⟨excused,last⟩ := throughout_snoc excused
    obtain ⟨order,serial⟩ := ih earlier excused
    exact serial.step (holds readable before earlier)
      (deletes _ (List.mem_append_right _ List.mem_cons_self)) last taken

/-- A call that is overtaken while the user has an avatar left was told wrong. -/
theorem excused_of_told (readable : Readable w₀)
    (run : Path (system P cfg).step (Pool.initial w₀) trace s)
    (deletes : ∀ entry ∈ trace, Deletes userID entry.1 entry.2.1)
    (told : ∀ before u, before <+: trace → Path (system P cfg).step (Pool.initial w₀) before u →
      Told cfg userID before u) : Throughout (Excused userID) trace := by
  rintro before s₁ a s₂ after rfl slot choice id rfl called running id' time left
  obtain ⟨earlier,taken⟩ := Path.before run
  have deletes' := fun entry member => deletes entry (List.mem_append_left _ member)
  have known := holds readable earlier deletes'
  have here := deletes (s₁,.advance slot choice,s₂) (by simp)
  obtain ⟨t,c,next,answer,w,running',seen,performed,rfl⟩ := Machine.step_advance taken
  obtain rfl := Option.some.inj (running.symm.trans running')
  obtain ⟨op,latest,-,doing⟩ := known.doing slot _ running
  have current : op = .deleteCurrent :=
    Op.command_injective userID (Option.some.inj (latest.symm.trans called))
  subst current
  have seen : Thread.view cfg (.deleteOwner id userID) = .call c next := seen
  obtain ⟨move,-⟩ := moved (here.1.1 slot choice rfl) known.readable doing seen performed
  have missing : endingOf cfg (next answer) = some .notFound := move.overtaken doing
  obtain ⟨entry,member,-,none⟩ := (told (before ++ [_]) _ ⟨after,by simp⟩ (.snoc earlier taken))
    slot _ ((latest_idle rfl).trans called) (Pool.answered_same _ _ _ _ _ _) missing
  -- the avatar that is left now was there in every state before
  rcases List.mem_append.mp member with old | new
  · exact none id' time ((known.kept entry old).some left)
  · obtain rfl := List.mem_singleton.mp new
    exact none id' time left

theorem linear_of_excused (readable : Readable w₀)
    (run : Path (system P cfg).step (Pool.initial w₀) trace s)
    (deletes : ∀ entry ∈ trace, Deletes userID entry.1 entry.2.1) (excused : Throughout (Excused userID) trace) :
    Linearizable (Does userID) (liveAvatars w₀) (history cfg trace) (liveAvatars s.world) ∧
      Told cfg userID trace s := by
  obtain ⟨order,serial⟩ := serial readable run deletes excused
  exact ⟨⟨order,serial.lin⟩,serial.told⟩

/-- In a run of the user's deletions alone, without a failure, the calls made so far always
look as if made one after the other, and none of them misses an avatar that was there all
the time, if and only if no call of `DeleteCurrent` is overtaken while the user has an
avatar left. -/
theorem linearizable_iff (readable : Readable w₀)
    (run : Path (system P cfg).step (Pool.initial w₀) trace s)
    (deletes : ∀ entry ∈ trace, Deletes userID entry.1 entry.2.1) :
    (∀ before u, before <+: trace → Path (system P cfg).step (Pool.initial w₀) before u →
      Linearizable (Does userID) (liveAvatars w₀) (history cfg before) (liveAvatars u.world) ∧
        Told cfg userID before u) ↔ Throughout (Excused userID) trace := by
  constructor
  · intro good
    exact excused_of_told readable run deletes fun before u part shorter => (good before u part shorter).2
  · intro excused before u part shorter
    have deletes' : ∀ entry ∈ before, Deletes userID entry.1 entry.2.1 :=
      fun entry member => deletes entry (part.subset member)
    exact linear_of_excused readable shorter deletes' (excused.shorter part)

/-! ### Concrete runs -/

def annRow (id : UUID) (created : Time) : Row :=
  .ofInsert (AvatarService.newAvatar (Schedule.input (lit "ann")) id) (.obj []) created

/-- Ann has two avatars. -/
def twoAvatars : World :=
  { World.initial fun _ => .fresh 5 with
    avatars := ⟨[annRow Schedule.other 1,annRow .nil 0],by decide⟩
    now := 2 }

theorem twoAvatars_live {id : UUID} {r : Row} (live : twoAvatars.live id = some r) :
    r.id = id ∧ (r = annRow Schedule.other 1 ∨ r = annRow .nil 0) := by
  have found := (World.live_iff.mp live).1
  have member := Table.find_mem found
  simp only [twoAvatars,List.mem_cons,List.not_mem_nil,or_false] at member
  exact ⟨Table.find_key found,member⟩

theorem twoAvatars_readable : Readable twoAvatars := by
  intro id r live
  rcases (twoAvatars_live live).2 with rfl | rfl <;> exact ⟨_,rfl⟩

theorem twoAvatars_distinct : (liveAvatars twoAvatars).Distinct (lit "ann") := by
  intro id id' time first second
  obtain ⟨r,live,-,created⟩ := liveAvatars_some.mp first
  obtain ⟨r',live',-,created'⟩ := liveAvatars_some.mp second
  obtain ⟨rfl,one⟩ := twoAvatars_live live
  obtain ⟨rfl,two⟩ := twoAvatars_live live'
  rw [← created'] at created
  rcases one with rfl | rfl <;> rcases two with rfl | rfl
  · rfl
  · contradiction
  · contradiction
  · rfl

def annDeletes : Act → Bool
  | .start _ (.delete _ user) | .start _ (.deleteCurrent user) => user == lit "ann"
  | .start _ _ | .crash _ => false
  | .advance _ choice => choice.healthy
  | .environment _ => true

theorem deletes_of_ann {s : State P} {a : Act} (ann : annDeletes a = true) : Deletes (lit "ann") s a := by
  refine ⟨⟨?_,?_⟩,?_⟩
  · rintro slot choice rfl
    exact ann
  · rintro slot rfl
    contradiction
  · rintro slot command rfl
    cases command with
    | delete id user => exact ⟨.delete id,by rw [Op.command,← beq_iff_eq.mp ann]⟩
    | deleteCurrent user => exact ⟨.deleteCurrent,by rw [Op.command,← beq_iff_eq.mp ann]⟩
    | _ => contradiction

/-- Whoever asks why its UPDATE missed finds every row deleted. -/
def nothingLeft (s : State P) : Act → Bool
  | .advance slot _ =>
    match s.procs slot with
    | some (.deleteOwner _ _) => s.world.avatars.rows.all fun r => !r.live
    | _ => true
  | _ => true

theorem excused_of_nothingLeft {trace : Trace P} {s : State P} {a : Act} (empty : nothingLeft s a = true) :
    Excused userID trace s a := by
  rintro slot choice id rfl - here id' time live
  simp only [nothingLeft,here,List.all_eq_true] at empty
  obtain ⟨r,there,-⟩ := liveAvatars_some.mp live
  obtain ⟨found,alive⟩ := World.live_iff.mp there
  have gone := empty r (Table.find_mem found)
  simp [Row.live,alive] at gone

/-- The second `DeleteCurrent` is overtaken by a `Delete`, and nothing is left then. -/
def excusedRace : List Act :=
  [.start 1 (.deleteCurrent (lit "ann")),.start 2 (.delete .nil (lit "ann")),
    .start 3 (.deleteCurrent (lit "ann")),Schedule.answer 1 .none,Schedule.answer 1 .none,
    Schedule.answer 3 .none,Schedule.answer 2 .none,Schedule.answer 3 .none,Schedule.answer 3 .none]

/-- Both find the same avatar. -/
def sameTarget : List Act :=
  [.start 1 (.deleteCurrent (lit "ann")),.start 2 (.deleteCurrent (lit "ann")),Schedule.answer 1 .none,
    Schedule.answer 2 .none,Schedule.answer 1 .none,Schedule.answer 2 .none,Schedule.answer 2 .none]

def endedWith (s : State P) (slot : Nat) (e : Ending) : Bool :=
  (s.procs slot).bind (endingOf .standard) == some e

theorem linearizable_race : ∃ (trace : Trace Packages.sample) (s : State Packages.sample),
    Path (system Packages.sample .standard).step (Pool.initial twoAvatars) trace s ∧
      endedWith s 3 .notFound = true ∧ Linearizable (Does (lit "ann")) (liveAvatars twoAvatars)
        (history .standard trace) (liveAvatars s.world) := by
  obtain ⟨trace,s,run,fine,met,-⟩ := exists_path (system Packages.sample .standard).step
    (fun s a => annDeletes a = true ∧ nothingLeft s a = true) (Pool.initial twoAvatars) excusedRace
    (fun s => endedWith s 3 .notFound) (by decide +kernel)
  have excused : Throughout (Excused (lit "ann")) trace :=
    Throughout.of_all fun entry member _ => excused_of_nothingLeft (fine entry member).2
  have good := (linearizable_iff twoAvatars_readable run
    fun entry member => deletes_of_ann (fine entry member).1).mpr excused
  exact ⟨trace,s,run,met,(good trace s List.prefix_rfl run).1⟩

theorem not_linearizable : ¬∀ (P : Packages) (cfg : Config) (userID : GoString) (w₀ : World)
    (trace : Trace P) (s : State P), Readable w₀ → (liveAvatars w₀).Distinct userID →
      Path (system P cfg).step (Pool.initial w₀) trace s →
      (∀ entry ∈ trace, Deletes userID entry.1 entry.2.1) →
      Linearizable (Does userID) (liveAvatars w₀) (history cfg trace) (liveAvatars s.world) := by
  intro claimed
  obtain ⟨trace,s,run,fine,met,same⟩ := exists_path (system Packages.sample .standard).step
    (fun _ a => annDeletes a = true) (Pool.initial twoAvatars) sameTarget
    (fun s => endedWith s 2 .notFound && decide (liveAvatars s.world .nil = some (lit "ann",0)))
    (by decide +kernel)
  rw [Bool.and_eq_true,decide_eq_true_eq,endedWith,beq_iff_eq] at met
  obtain ⟨t,running,ended⟩ := Option.bind_eq_some_iff.mp met.1
  obtain ⟨order,lin⟩ := claimed _ _ (lit "ann") twoAvatars trace s twoAvatars_readable
    twoAvatars_distinct run fun entry member => deletes_of_ann (fine entry member)
  obtain ⟨op,placed⟩ := lin.answered 2 .notFound (responded run running ended)
  obtain ⟨command,started,called⟩ := invoked_started (lin.invoked _ placed)
  have current : op = .deleteCurrent := by
    rw [same] at started
    simp only [sameTarget,Schedule.answer,List.mem_cons,Action.start.injEq,reduceCtorEq,true_and,
      List.not_mem_nil,or_false] at started
    rcases started with ⟨-,rfl⟩ | rfl <;> exact (Option.some.inj called).symm
  subst current
  exact sequential_finds lin.legal met.2 2 placed

end GophProfile.CurrentDeletion

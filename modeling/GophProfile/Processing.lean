import GophProfile.Isolation

/-! Processing: when `completed` is final. The UPDATE that completes a row is guarded by
its status, the one that marks it failed is not. -/
namespace GophProfile

open Domain Effect Transition

variable {P : Packages} {cfg : Config} {breakers : Dependency → BreakerState}

/-- What processing has recorded in a row. -/
structure Row.SameResult (r r' : Row) : Prop where
  status : r'.processingStatus = r.processingStatus
  thumbs : r'.thumbnailS3Keys = r.thumbnailS3Keys
  width : r'.width = r.width
  height : r'.height = r.height

theorem Row.SameResult.refl (r : Row) : r.SameResult r := ⟨rfl,rfl,rfl,rfl⟩

theorem Row.SameResult.trans {r r' r'' : Row} (one : r.SameResult r') (two : r'.SameResult r'') :
    r.SameResult r'' :=
  ⟨two.status.trans one.status,two.thumbs.trans one.thumbs,two.width.trans one.width,
    two.height.trans one.height⟩

/-- Every row that is completed stays as it is. -/
def Final (w w' : World) : Prop :=
  ∀ id r, w.avatars.find id = some r → r.processingStatus = .completed →
    ∃ r', w'.avatars.find id = some r' ∧ r.SameResult r'

/-- Thumbnails exist exactly for completed rows. -/
def Matching (w : World) : Prop :=
  ∀ id r, w.avatars.find id = some r →
    (r.thumbnailS3Keys ≠ .obj [] ↔ r.processingStatus = .completed)

/-- The step is not a status UPDATE that reaches a completed row. -/
def StatusGuarded (s : State P) (a : Act) : Prop :=
  ∀ slot choice event id r, a = .advance slot choice → choice.took = true →
    s.procs slot = some (.processStatus event id) → s.world.avatars.find id = some r →
    r.processingStatus ≠ .completed

theorem Final.refl (w : World) : Final w w := fun _ r found _ => ⟨r,found,.refl r⟩

theorem Final.trans {w w' w'' : World} (one : Final w w') (two : Final w' w'') : Final w w'' := by
  intro id r found completed
  obtain ⟨r',found',same⟩ := one id r found completed
  obtain ⟨r'',found'',same'⟩ := two id r' found' (same.status.trans completed)
  exact ⟨r'',found'',same.trans same'⟩

theorem Final.of_avatars {w w' : World} (same : w'.avatars = w.avatars) : Final w w' :=
  fun _ r found _ => ⟨r,same ▸ found,.refl r⟩

theorem Matching.of_avatars {w w' : World} (same : w'.avatars = w.avatars) (matching : Matching w) :
    Matching w' := fun id r found => matching id r (same ▸ found)

/-- An UPDATE that keeps completed rows as they are. -/
theorem Final.write {w : World} {r r' : Row} (found : w.avatars.find r.id = some r)
    (same : r'.id = r.id)
    (keeps : r.processingStatus = .completed → r.SameResult r') : Final w (w.write r') := by
  intro id old read completed
  rw [World.find_write,same]
  by_cases here : id = r.id
  · subst here
    obtain rfl := Option.some.inj (found.symm.trans read)
    exact ⟨r',by simp [found],keeps completed⟩
  · exact ⟨old,by simp [here,read],.refl old⟩

theorem Matching.write {w : World} {r r' : Row} (matching : Matching w)
    (found : w.avatars.find r.id = some r) (same : r'.id = r.id)
    (fits : r'.thumbnailS3Keys ≠ .obj [] ↔ r'.processingStatus = .completed) :
    Matching (w.write r') := by
  intro id old read
  rw [World.find_write,same] at read
  split at read
  · next here =>
    subst here
    rw [found] at read
    obtain rfl := Option.some.inj read
    exact fits
  · exact matching id old read

theorem marshal_full (userID : GoString) (id : UUID) :
    Postgres.marshalThumbnails (thumbnailKeys userID id) ≠ .obj [] := by
  intro empty
  have nothing : Postgres.sortedByKey (thumbnailKeys userID id) = [] := by
    simpa [Postgres.marshalThumbnails] using empty
  have perm := Postgres.sortedByKey_perm (thumbnailKeys userID id)
  rw [nothing] at perm
  have := perm.length_eq
  simp [thumbnailKeys] at this

namespace Thread

theorem call_updateStatus {t : Thread P} {id : UUID} {status : ProcessingStatus}
    {next : (Call.updateStatus id status).Answer → Thread P}
    (seen : t.view cfg = .call (.updateStatus id status) next) :
    (∃ event, t = .processStatus event id) ∧ status = .failed := by
  cases t <;> simp only [view,View.call.injEq,reduceCtorEq,false_and] at seen
  case processStatus event id' =>
    cases seen.1
    exact ⟨⟨event,rfl⟩,rfl⟩

end Thread

/-- One step with the guard keeps both properties. -/
theorem processing_step {s s' : State P} {a : Act} (reached : Reaches P cfg (fun _ _ => True) breakers s)
    (guarded : StatusGuarded s a) (taken : (system P cfg).step s a = some s')
    (matching : Matching s.world) : Final s.world s'.world ∧ Matching s'.world := by
  obtain ⟨world,threads⟩ := reached.holds
  cases a with
  | start slot command =>
    obtain ⟨_,rfl⟩ := Machine.step_start taken
    exact ⟨.refl _,matching⟩
  | crash slot =>
    obtain ⟨_,rfl⟩ := Machine.step_crash taken
    exact ⟨.refl _,matching⟩
  | environment event =>
    obtain ⟨w,moved,rfl⟩ := Machine.step_environment taken
    have rows := World.environment_avatars moved
    exact ⟨.of_avatars rows,matching.of_avatars rows⟩
  | advance slot choice =>
    obtain ⟨t,c,next,answer,w,running,seen,performed,rfl⟩ := Machine.step_advance taken
    have seen : t.view cfg = .call c next := seen
    have proper := (threads slot t running).proper seen
    show Final s.world w ∧ Matching w
    cases took : choice.took with
    | false =>
      obtain rfl := World.perform_lost took performed
      exact ⟨.refl _,matching⟩
    | true =>
      cases World.perform_changed performed with
      | inserted a thumbs avatars done =>
        obtain ⟨input,id,rfl,rfl⟩ := Thread.call_insertAvatar seen
        obtain ⟨_,_,_,rfl,_⟩ := proper
        constructor
        · intro other r found _
          have different : other ≠ id := by
            rintro rfl
            have absent : s.world.avatars.find other = none := Table.insert_fresh done
            rw [absent] at found
            contradiction
          refine ⟨r,?_,.refl r⟩
          rw [World.find_inserted done]
          exact (if_neg different).trans found
        · intro other r read
          rw [World.find_inserted done] at read
          split at read
          · obtain rfl := Option.some.inj read
            have empty : Postgres.marshalThumbnails [] = .obj [] := rfl
            simp [Row.ofInsert,AvatarService.newAvatar,empty]
          · exact matching other r read
      | deleted r found live =>
        exact ⟨.write found rfl fun _ => ⟨rfl,rfl,rfl,rfl⟩,matching.write found rfl (matching r.id r found)⟩
      | completed r thumbs width height found unfinished =>
        obtain ⟨r',found',rfl⟩ := proper
        refine ⟨.write found rfl fun completed => absurd completed unfinished,matching.write found rfl ?_⟩
        simp only [Row.completed,iff_true]
        exact marshal_full _ _
      | status r status found =>
        obtain ⟨⟨event,rfl⟩,rfl⟩ := Thread.call_updateStatus seen
        have unfinished := guarded slot choice event r.id r rfl took running found
        refine ⟨.write found rfl fun completed => absurd completed unfinished,matching.write found rfl ?_⟩
        have empty : ¬r.thumbnailS3Keys ≠ .obj [] := mt (matching r.id r found).mp unfinished
        simpa [Row.withStatus] using empty
      | _ => exact ⟨.of_avatars rfl,matching.of_avatars rfl⟩

/-- Completed rows are final and thumbnails match the status, all through a run. -/
def Settled (trace : List (State P × Act × State P)) (s : State P) : Prop :=
  (∀ entry ∈ trace, Final entry.1.world s.world) ∧
    (∀ entry ∈ trace, Matching entry.1.world ∧ Matching entry.2.2.world) ∧ Matching s.world

theorem settled_of_guarded {trace : List (State P × Act × State P)} {s : State P}
    (run : Run P cfg breakers trace s)
    (guarded : ∀ entry ∈ trace, StatusGuarded entry.1 entry.2.1) : Settled trace s := by
  induction run with
  | nil =>
    refine ⟨by simp,by simp,?_⟩
    intro id r found
    simp [Pool.initial,World.initial] at found
  | @snoc trace s s' a before taken ih =>
    obtain ⟨final,all,last⟩ := ih fun entry member => guarded entry (List.mem_append_left _ member)
    have here := guarded _ (List.mem_append_right _ List.mem_cons_self)
    obtain ⟨kept,matching⟩ := processing_step (Run.reaches before) here taken last
    refine ⟨?_,?_,matching⟩
    · intro entry member
      rcases List.mem_append.mp member with old | new
      · exact (final entry old).trans kept
      · obtain rfl := List.mem_singleton.mp new
        exact kept
    · intro entry member
      rcases List.mem_append.mp member with old | new
      · exact all entry old
      · obtain rfl := List.mem_singleton.mp new
        exact ⟨last,matching⟩

/-- A status UPDATE that reaches a completed row breaks the match. -/
theorem guarded_of_settled {trace : List (State P × Act × State P)} {s : State P}
    (run : Run P cfg breakers trace s) (settled : Settled trace s) :
    ∀ entry ∈ trace, StatusGuarded entry.1 entry.2.1 := by
  rintro ⟨s₁,a,s₂⟩ member slot choice event id r rfl took running found completed
  obtain ⟨_,taken⟩ := run.entry (fun _ _ => True) (fun _ _ => trivial) member
  obtain ⟨t,c,next,answer,w,running',seen,performed,equal⟩ := Machine.step_advance taken
  have equal : s₂ = s₁.answered slot c answer (next answer) w := equal
  subst equal
  obtain rfl := Option.some.inj (running.symm.trans running')
  cases (show View.call _ _ = View.call c next from seen)
  have before := (settled.2.1 _ member).1
  have after := (settled.2.1 _ member).2
  have written : w = s₁.world.write (r.withStatus .failed s₁.world.now) := by
    obtain ⟨pick,answer',effected⟩ := World.perform_took took performed
    cases pick <;> simp only [World.effect,reduceCtorEq] at effected
    rw [show s₁.world.avatars.find id = some r from found] at effected
    cases effected
    rfl
  have here : r.id = id := Table.find_key found
  have read : w.avatars.find id = some (r.withStatus .failed s₁.world.now) := by
    rw [written,World.find_write]
    simp [Row.withStatus,here,found]
  have thumbs := (before id r found).mpr completed
  have status := (after id _ read).mp thumbs
  cases status

/-- A run keeps completed rows final and their thumbnails matching if and only if no
`SetProcessingStatus` in it reaches a row that is completed already. -/
theorem completed_final_iff {trace : List (State P × Act × State P)} {s : State P}
    (run : Run P cfg breakers trace s) :
    Settled trace s ↔ ∀ entry ∈ trace, StatusGuarded entry.1 entry.2.1 :=
  ⟨guarded_of_settled run,settled_of_guarded run⟩

/-! ### The guard on concrete runs -/

def statusGuarded (s : State P) : Act → Bool
  | .advance slot choice =>
    match s.procs slot with
    | some (.processStatus _ id) =>
      !choice.took || (s.world.avatars.find id).all fun r => r.processingStatus != .completed
    | _ => true
  | _ => true

theorem statusGuarded_iff {s : State P} {a : Act} : statusGuarded s a = true ↔ StatusGuarded s a := by
  constructor
  · rintro checked slot choice event id r rfl took running found completed
    simp [statusGuarded,running,took,found,completed] at checked
  · intro guarded
    unfold statusGuarded
    split
    · next slot choice =>
      split
      · next event id running =>
        cases took : choice.took with
        | false => rfl
        | true =>
          cases found : s.world.avatars.find id with
          | none => rfl
          | some r => simpa using guarded slot choice event id r rfl took running found
      · rfl
    · rfl

instance (s : State P) (a : Act) : Decidable (StatusGuarded s a) :=
  decidable_of_iff _ statusGuarded_iff

/-- An upload and its processing. -/
theorem completed_final_processed : ∃ trace s,
    Run Packages.sample .standard (fun _ => .fresh 5) trace s ∧
      (s.world.avatars.rows.any fun r => r.processingStatus == .completed) = true ∧
      Settled trace s := by
  obtain ⟨trace,s,run,guarded,completed,-⟩ := Schedule.run StatusGuarded
    (Schedule.upload 0 (Schedule.input (lit "ann")) .nil ++
      Schedule.receive 1 1000 (Schedule.event (lit "ann") .nil) ++ Schedule.complete 1)
    (fun s => s.world.avatars.rows.any fun r => r.processingStatus == .completed)
    (by decide +kernel)
  exact ⟨trace,s,run,completed,(completed_final_iff run).mpr guarded⟩

/-- A failed row that lists thumbnails. -/
def mismatched (r : Row) : Bool :=
  r.processingStatus == .failed && match r.thumbnailS3Keys with
    | .obj [] => false
    | _ => true

/-- A worker with a low pixel limit refuses a picture, a second one with a higher limit
completes the avatar, and then the first marks it failed. -/
theorem completed_overwritten : ¬∀ (P : Packages) (cfg : Config) (breakers : Dependency → BreakerState)
    (trace : List (State P × Act × State P)) (s : State P),
    Run P cfg breakers trace s → Settled trace s := by
  intro all
  obtain ⟨trace,s,run,-,broken,-⟩ := Schedule.run (fun _ _ => True)
    (Schedule.upload 0 (Schedule.input (lit "ann")) .nil ++
      [.environment (.redeliverUpload (Schedule.event (lit "ann") .nil))] ++
      Schedule.receive 1 50 (Schedule.event (lit "ann") .nil) ++
      Schedule.receive 2 1000 (Schedule.event (lit "ann") .nil) ++ Schedule.complete 2 ++
      [Schedule.answer 1 .none])
    (fun s => (s.world.avatars.find .nil).any mismatched) (by decide +kernel)
  obtain ⟨r,found,mismatch⟩ := (Option.any_eq_true _ _).mp broken
  have settled := all _ _ _ trace s run
  have matching := settled.2.2 .nil r found
  simp only [mismatched,Bool.and_eq_true,beq_iff_eq] at mismatch
  have full : r.thumbnailS3Keys ≠ .obj [] := by
    intro empty
    rw [empty] at mismatch
    simp at mismatch
  rw [mismatch.1] at matching
  have := matching.mp full
  contradiction

end GophProfile

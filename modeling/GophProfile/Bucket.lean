import GophProfile.Domain
import GophProfile.Library.Rely

/-! How the storage comes to its bucket when any number of replicas start at once. -/
namespace GophProfile.S3.Bucket

open Domain Effect Transition

inductive Call where
  | bucketExists | makeBucket
  deriving DecidableEq

abbrev Call.Answer : Call → Type
  | .bucketExists => Except Err Bool
  | .makeBucket => Except Err Unit

def bucketExists : Effect.Prog Call Call.Answer (Except Err Bool) := request Call.bucketExists

def makeBucket : Effect.Prog Call Call.Answer (Except Err Unit) := request Call.makeBucket

def ensureBucket (bucket : GoString) : Effect.Prog Call Call.Answer (Except Err Unit) := do
  match ← bucketExists with
  | .error err => return .error (.errorf "check bucket %s: %w" [bucket] err)
  | .ok true => return .ok ()
  | .ok false =>
    match ← makeBucket with
    | .ok () => return .ok ()
    | .error err =>
      -- somebody else may have been faster
      match ← bucketExists with
      | .ok true => return .ok ()
      | _ => return .error (.errorf "create bucket %s: %w" [bucket] err)

def clientFailed (err : Err) : Err := .errorf "create client: %w" [] err

/-- `NewStorage`, with what `minio.New` says to the configuration. -/
def newStorage (bucket : GoString) : Except Err Unit → Effect.Prog Call Call.Answer (Except Err Unit)
  | .error err => return .error (clientFailed err)
  | .ok () => ensureBucket bucket

/-- What the storage has. -/
structure Storage where
  present : Bool
  /-- How often the bucket was created. -/
  created : Nat

def Storage.make (w : Storage) : Storage := ⟨true,if w.present then w.created else w.created + 1⟩

/-- A call that fails has taken effect or not. -/
inductive Choice where
  | ok
  | fail (took : Bool) (err : Err)

def alreadyOwned : Err := .s3Error (lit "BucketAlreadyOwnedByYou")

def perform : (c : Call) → Choice → Storage → Option (c.Answer × Storage)
  | .bucketExists, .ok, w => some (.ok w.present,w)
  | .bucketExists, .fail _ err, w => some (.error err,w)
  | .makeBucket, .ok, w => some (if w.present then .error alreadyOwned else .ok (),w.make)
  | .makeBucket, .fail took err, w => some (.error err,if took then w.make else w)

def replicas (bucket : GoString) : Machine Call Call.Answer (Except Err Unit)
    (Effect.Prog Call Call.Answer (Except Err Unit)) Storage
    (Except Err Unit) Choice Empty where
  view := Effect.Prog.view
  start := newStorage bucket
  perform := perform
  environment := fun event _ => nomatch event

/-- Nobody removes the bucket, and it is created once. -/
structure Grows (w w' : Storage) : Prop where
  stays : w.present = true → w'.present = true
  once : w.present = true → w'.created = w.created
  first : w'.created ≤ w.created + 1
  made : w'.created ≠ w.created → w'.present = true

theorem grows_refl (w : Storage) : Grows w w := ⟨id,fun _ => rfl,Nat.le_succ _,fun h => absurd rfl h⟩

theorem grows_trans {w w' w'' : Storage} (one : Grows w w') (two : Grows w' w'') : Grows w w'' where
  stays present := two.stays (one.stays present)
  once present := (two.once (one.stays present)).trans (one.once present)
  first := by
    by_cases same : w'.created = w.created
    · exact same ▸ two.first
    · rw [two.once (one.made same)]
      exact one.first
  made changed := by
    by_cases same : w'.created = w.created
    · exact two.made (same ▸ changed)
    · exact two.stays (one.made same)

theorem grows_make (w : Storage) : Grows w w.make where
  stays _ := rfl
  once present := by simp [Storage.make,present]
  first := by
    unfold Storage.make
    split <;> simp
  made _ := rfl

theorem perform_grows {c : Call} {choice : Choice} {answer : c.Answer} {w w' : Storage}
    (performed : perform c choice w = some (answer,w')) : Grows w w' := by
  cases c <;> cases choice <;> cases performed
  · exact grows_refl w
  · exact grows_refl w
  · exact grows_make w
  · split
    · exact grows_make w
    · exact grows_refl w

/-- An answer, whatever goes wrong with the call. -/
def Answers (c : Call) (w : Storage) (answer : c.Answer) (w' : Storage) : Prop :=
  ∃ choice, perform c choice w = some (answer,w')

def Served (c : Call) (w : Storage) (answer : c.Answer) (w' : Storage) : Prop := perform c .ok w = some (answer,w')

def Present (result : Except Err Unit) (w : Storage) : Prop := result = .ok () → w.present = true

theorem newStorage_present (bucket : GoString) (client : Except Err Unit) (w : Storage) :
    Relies Grows Answers Present (newStorage bucket client) w := by
  have failed (err : Err) (w : Storage) : Relies Grows Answers Present (.done (.error err)) w := fun _ _ => nofun
  have there (w : Storage) (present : w.present = true) : Relies Grows Answers Present (.done (.ok ())) w :=
    fun _ grown _ => grown.stays present
  have asked {w w' : Storage} {answer : Except Err Bool} (answered : Answers .bucketExists w answer w')
      (yes : answer = .ok true) : w'.present = true := by
    obtain ⟨choice,performed⟩ := answered
    cases choice <;> cases performed
    · exact Except.ok.inj yes
    · contradiction
  cases client with
  | error err => exact failed _ w
  | ok =>
    intro w₁ exists₁ w₂ _ first
    cases exists₁ with
    | error err => exact failed _ w₂
    | ok found =>
      cases found with
      | true => exact there w₂ (asked first rfl)
      | false =>
        intro w₃ made w₄ _ second
        cases made with
        | ok =>
          obtain ⟨choice,performed⟩ := second
          refine there w₄ ?_
          cases choice with
          | ok =>
            have after : w₄ = w₃.make := (congrArg Prod.snd (Option.some.inj performed)).symm
            exact after ▸ rfl
          | fail => cases performed
        | error err =>
          intro w₅ exists₂ w₆ _ third
          cases exists₂ with
          | error _ => exact failed _ w₆
          | ok found =>
            cases found with
            | true => exact there w₆ (asked third rfl)
            | false => exact failed _ w₆

/-- Only the client of the storage may have failed. -/
def Succeeds (client result : Except Err Unit) (_ : Storage) : Prop :=
  result = .ok () ∨ ∃ err, client = .error err ∧ result = .error (clientFailed err)

/-- While the storage answers only another replica can come first. -/
theorem newStorage_served (bucket : GoString) (client : Except Err Unit) (w : Storage) :
    Relies Grows Served (Succeeds client) (newStorage bucket client) w := by
  have done (w : Storage) : Relies Grows Served (Succeeds client) (.done (.ok ())) w := fun _ _ => .inl rfl
  have asked {w w' : Storage} {answer : Except Err Bool} (served : Served .bucketExists w answer w') :
      answer = .ok w.present := (congrArg Prod.fst (Option.some.inj served)).symm
  cases client with
  | error err => exact fun _ _ => .inr ⟨err,rfl,rfl⟩
  | ok =>
    intro w₁ exists₁ w₂ _ first
    rw [asked first]
    cases w₁.present with
    | true => exact done w₂
    | false =>
      intro w₃ made w₄ _ second
      have answer : made = if w₃.present then .error alreadyOwned else .ok () :=
        (congrArg Prod.fst (Option.some.inj second)).symm
      have after : w₄ = w₃.make := (congrArg Prod.snd (Option.some.inj second)).symm
      rw [answer]
      cases w₃.present with
      | false => exact done w₄
      | true =>
        -- the bucket is there from now on
        intro w₅ exists₂ w₆ grown third
        have present : w₅.present = true := grown.stays (after ▸ rfl)
        rw [asked third,present]
        exact done w₆

variable {bucket : GoString}

def faulty (bucket : GoString) : Rely (replicas bucket) fun _ _ => True where
  grows := Grows
  refl := grows_refl
  trans _ _ _ := grows_trans
  performs := Answers
  post _ := Present
  view := rfl
  started client w := newStorage_present bucket client w
  answered _ _ choice _ _ _ _ performed := ⟨choice,performed⟩
  performed _ _ _ _ _ performed := perform_grows performed
  moved event := nomatch event

abbrev Replicas := Pool Call Call.Answer (Effect.Prog Call Call.Answer (Except Err Unit)) Storage

abbrev Act := Action (Except Err Unit) Choice Empty

/-- The storage answers every call. -/
def Healthy (_ : Replicas) : Act → Prop
  | .advance _ choice => choice = .ok
  | _ => True

def healthy (bucket : GoString) : Rely (replicas bucket) Healthy where
  grows := Grows
  refl := grows_refl
  trans _ _ _ := grows_trans
  performs := Served
  post := Succeeds
  view := rfl
  started client w := newStorage_served bucket client w
  answered _ _ choice c _ _ may performed := by
    have answers : choice = .ok := may
    subst answers
    exact performed
  performed _ _ _ _ _ performed := perform_grows performed
  moved event := nomatch event

/-- Any number of replicas come to one bucket. Whatever fails, a replica that has its storage
has the bucket, which is created once at most; and while the storage answers, a replica fails
only for its own client, which could not be made, and not because another one was faster. -/
theorem replicas_share_bucket {w : Storage} {trace : List (Replicas × Act × Replicas)} {s : Replicas} {slot : Nat}
    {result : Except Err Unit} (run : Path (replicas bucket).step (Pool.initial w) trace s)
    (returned : s.procs slot = some (.done result)) :
    (result = .ok () → s.world.present = true) ∧ s.world.created ≤ w.created + 1 ∧
      ((∀ entry ∈ trace, Healthy entry.1 entry.2.1) → result = .ok () ∨
        ∃ err, Machine.latest trace slot = some (.error err) ∧ result = .error (clientFailed err)) := by
  refine ⟨?_,((faulty bucket).grown run).first,fun healthily => ?_⟩
  · obtain ⟨client,-,present⟩ := (faulty bucket).replied run (fun _ _ => trivial) returned
    exact present
  · obtain ⟨client,last,succeeds⟩ := (healthy bucket).replied run healthily returned
    rcases succeeds with ok | ⟨err,rfl,failed⟩
    · exact .inl ok
    · exact .inr ⟨err,last,failed⟩

def sampleRace : List Act :=
  [.start 0 (.ok ()),.start 1 (.ok ()),.advance 0 .ok,.advance 1 .ok,.advance 0 .ok,.advance 1 .ok,.advance 1 .ok]

def ready (s : Replicas) (slot : Nat) : Bool :=
  match s.procs slot with
  | some (.done (.ok ())) => true
  | _ => false

/-- Two replicas see no bucket, and both make it. -/
theorem replicas_share_race : ∃ s : Replicas, s.procs 0 = some (.done (.ok ())) ∧ s.procs 1 = some (.done (.ok ())) ∧
    s.world.present = true ∧ s.world.created ≤ 1 := by
  obtain ⟨trace,s,path,-,met,-⟩ := exists_path (replicas (lit "avatars")).step (fun _ _ => True)
    (Pool.initial ⟨false,0⟩) sampleRace (fun s => ready s 0 && ready s 1) (by decide +kernel)
  obtain ⟨first,second⟩ := Bool.and_eq_true_iff.mp met
  have returned {slot : Nat} (done : ready s slot = true) : s.procs slot = some (.done (.ok ())) := by
    unfold ready at done
    split at done
    · assumption
    · contradiction
  obtain ⟨present,once,-⟩ := replicas_share_bucket path (returned second)
  exact ⟨s,returned first,returned second,present rfl,once⟩

end GophProfile.S3.Bucket

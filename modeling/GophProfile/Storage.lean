import GophProfile.Isolation

/-! What has ever been stored: under an original's key one object only, and under a
thumbnail's key what the pure image functions make of that object. -/
namespace GophProfile

open Domain Effect Transition

variable {P : Packages} {cfg : Config} {allowed : State P → Act → Prop}
variable {breakers : Dependency → BreakerState}

/-! ### Every object comes from a PUT for an issued id -/

structure World.Stocked (w : World) : Prop where
  issued : ∀ entry ∈ w.stored, ∃ id ∈ w.issued, KeyOf id entry.1
  original : ∀ id r, w.avatars.find id = some r → ∃ object, (r.s3Key,object) ∈ w.stored
  objects : ∀ key object, w.objects key = some object → (key,object) ∈ w.stored

theorem World.initial_stocked (breakers : Dependency → BreakerState) : (initial breakers).Stocked := by
  constructor <;> simp [initial]

/-- Before the INSERT the original has been stored. -/
def Thread.Stocked (w : World) : Thread P → Prop
  | .uploadCreate input id => (originalObjectKey input.userID id,originalObject input) ∈ w.stored
  | _ => True

theorem Thread.stocked_of_kind {w : World} {t : Thread P}
    (other : ∀ input id, t ≠ .uploadCreate input id) : t.Stocked w := by
  cases t with
  | uploadCreate input id => exact absurd rfl (other input id)
  | _ => trivial

theorem World.Stocked.changed {w w' : World} {c : Call} (stocked : w.Stocked) (changed : World.Changed w c w')
    (puts : ∀ key object, c = .putObject key object → ∃ id ∈ w.issued, KeyOf id key)
    (inserts : ∀ a thumbs, c = .insertAvatar a thumbs → ∃ object, (a.s3Key,object) ∈ w.stored) :
    w'.Stocked := by
  have grows := changed.grows
  have writes : ∀ r r', w.avatars.find r.id = some r → r'.id = r.id → r'.s3Key = r.s3Key →
      (w.write r').Stocked := by
    intro r r' found same key
    refine ⟨stocked.issued,?_,stocked.objects⟩
    intro id old read
    rw [World.find_write,same] at read
    split at read
    · next here =>
      subst here
      rw [found] at read
      obtain rfl := Option.some.inj read
      rw [key]
      exact stocked.original r.id r found
    · exact stocked.original id old read
  cases changed with
  | issued id =>
    refine ⟨?_,stocked.original,stocked.objects⟩
    intro entry member
    obtain ⟨owner,known,own⟩ := stocked.issued entry member
    exact ⟨owner,List.mem_cons_of_mem _ known,own⟩
  | inserted a thumbs avatars done =>
    refine ⟨stocked.issued,?_,stocked.objects⟩
    intro id r read
    rw [World.find_inserted done] at read
    split at read
    · obtain rfl := Option.some.inj read
      exact inserts a thumbs rfl
    · exact stocked.original id r read
  | deleted r found => exact writes r _ found rfl rfl
  | completed r thumbs width height found => exact writes r _ found rfl rfl
  | status r status found => exact writes r _ found rfl rfl
  | put key object =>
    refine ⟨?_,?_,?_⟩
    · intro entry member
      rcases List.mem_cons.mp member with rfl | old
      · exact puts key object rfl
      · exact stocked.issued entry old
    · intro id r found
      obtain ⟨object',member⟩ := stocked.original id r found
      exact ⟨object',List.mem_cons_of_mem _ member⟩
    · intro other object' read
      by_cases here : other = key
      · subst here
        simp only [World.put,Function.update_self] at read
        cases read
        exact List.mem_cons_self
      · simp only [World.put,Function.update_of_ne here] at read
        exact List.mem_cons_of_mem _ (stocked.objects other object' read)
  | removed key =>
    refine ⟨stocked.issued,stocked.original,?_⟩
    intro other object read
    by_cases here : other = key
    · subst here
      simp [World.remove] at read
    · simp only [World.remove,Function.update_of_ne here] at read
      exact stocked.objects other object read
  | _ => exact ⟨stocked.issued,stocked.original,stocked.objects⟩

theorem World.Stocked.same {w w' : World} (stocked : w.Stocked) (avatars : w'.avatars = w.avatars)
    (objects : w'.objects = w.objects) (stored : w'.stored = w.stored) (issued : w'.issued = w.issued) :
    w'.Stocked where
  issued := by rw [stored,issued]; exact stocked.issued
  original := by rw [stored,avatars]; exact stocked.original
  objects := by rw [stored,objects]; exact stocked.objects

theorem World.environment_stored {w w' : World} {event : Event}
    (moved : environment event w = some w') : w'.stored = w.stored ∧ w'.issued = w.issued := by
  cases event <;> simp only [environment] at moved
  · cases moved; exact ⟨rfl,rfl⟩
  · split at moved <;> cases moved; exact ⟨rfl,rfl⟩
  · split at moved <;> cases moved; exact ⟨rfl,rfl⟩

/-- The outline with the history of the storage. -/
def stock (allowed : State P → Act → Prop) : (system P cfg).Outline allowed :=
  (ownership allowed).extend World.Stocked Thread.Stocked
    (by
      intro w w' t grows stocked
      cases t with
      | uploadCreate input id => exact grows.stored _ stocked
      | _ => trivial)
    (by
      intro w command _
      apply Thread.stocked_of_kind
      intro input id same
      have none := Thread.inserting_start (P := P) command
      rw [show Thread.start command = _ from same] at none
      contradiction)
    (by
      intro s slot choice t c next answer w _ holds stocked all running seen performed _
      have seen : t.view cfg = .call c next := seen
      obtain ⟨world,threads⟩ := holds
      have sound : t.Sound s.world := threads slot t running
      have changed := World.perform_changed performed
      constructor
      · apply stocked.changed changed
        · rintro key object rfl
          rcases Thread.call_putObject seen with ⟨input,id,rfl,rfl,rfl⟩ |
            ⟨event,id,avatar,img,name,rest,thumbnails,rfl,rfl⟩
          · exact ⟨id,sound.2.2,keyOf_original sound.1 id⟩
          · obtain ⟨⟨_,same,r,found,user,_⟩,_⟩ := sound
            have row : r.Sound ∧ id ∈ s.world.issued := world.rows id r found
            exact ⟨id,row.2,same ▸ keyOf_thumbnail (user ▸ row.1.valid) avatar.id name⟩
        · rintro a thumbs rfl
          obtain ⟨input,id,rfl,rfl⟩ := Thread.call_insertAvatar seen
          exact ⟨_,all slot _ running⟩
      · by_cases arrives : ∃ input id, next answer = .uploadCreate input id
        · obtain ⟨input,id,arrived⟩ := arrives
          obtain ⟨-,rfl⟩ := Thread.uploadCreate_after seen performed arrived
          rw [arrived]
          exact List.mem_cons_self
        · apply Thread.stocked_of_kind
          intro input id same
          exact arrives ⟨input,id,same⟩)
    (by
      intro event w w' stocked moved
      have stored := World.environment_stored moved
      exact stocked.same (World.environment_avatars moved) (World.environment_objects moved) stored.1
        stored.2)

/-! ### One PUT for each original -/

/-- An upload about to store its original. -/
def Thread.putting : Thread P → Option UUID
  | .uploadPut _ id => some id
  | _ => none

theorem Thread.putting_uploading {t : Thread P} {id : UUID} (holds : t.putting = some id) :
    t.uploading = some id := by
  cases t <;> simp only [putting,reduceCtorEq] at holds
  exact holds

/-- Only the draw of the id leads to the PUT of an original. -/
theorem Thread.putting_next {t : Thread P} {c : Call} {next : c.Answer → Thread P} {answer : c.Answer}
    {w w' : World} {choice : Choice} {id : UUID} (seen : t.view cfg = .call c next)
    (done : World.perform c choice w = some (answer,w')) (holds : (next answer).putting = some id) :
    id ∉ w.issued ∧ ∀ input id', t ≠ .uploadPut input id' := by
  have upload := kind_of_next seen (uploading_kind (putting_uploading holds)) (by decide)
  cases t <;> simp only [kind,reduceCtorEq] at upload <;> simp only [view] at seen <;> cases seen
  case uploadID input =>
    simp only [afterID] at holds
    split at holds
    · contradiction
    · cases holds
      exact ⟨(World.perform_newUUID done).1,by simp⟩
  case uploadPut =>
    simp only [afterPut] at holds
    split at holds <;> contradiction
  case uploadCreate =>
    simp only [afterCreate] at holds
    split at holds
    · split at holds <;> contradiction
    · contradiction
  case uploadRemove => contradiction
  case uploadPublish => contradiction

theorem World.Changed.stored_new {w w' : World} {c : Call} (changed : World.Changed w c w')
    {entry : GoString × Object} (member : entry ∈ w'.stored) :
    entry ∈ w.stored ∨ c = .putObject entry.1 entry.2 := by
  cases changed with
  | put key object =>
    rcases List.mem_cons.mp member with rfl | old
    · exact .inr rfl
    · exact .inl old
  | _ => exact .inl member

/-- Until an upload has stored its original, nothing is stored under its id. -/
theorem putting_unstored {s : State P} (reached : Reaches P cfg allowed breakers s) {i : Nat}
    {input : UploadInput} {id : UUID} (running : s.procs i = some (.uploadPut input id)) :
    ∀ entry ∈ s.world.stored, ¬KeyOf id entry.1 := by
  have unspent := (stock allowed).token_unspent Thread.putting
    (fun w id => ∃ entry ∈ w.stored, KeyOf id entry.1)
    ⟨World.initial_sound breakers,World.initial_stocked breakers⟩ ?start
    (fun before => fun first second one two =>
      uploading_unique before first second (Thread.putting_uploading one)
        (Thread.putting_uploading two))
    ?acquired ?spends ?moves reached running rfl
  · intro entry member own
    exact unspent ⟨entry,member,own⟩
  case start =>
    intro command
    cases holds : (Thread.start command : Thread P).putting with
    | none => exact holds
    | some id =>
      have none := (Thread.tokens_start (P := P) command).1
      rw [Thread.putting_uploading holds] at none
      contradiction
  case acquired =>
    intro w t c next choice answer w' known _ seen done id holds
    right
    rintro ⟨entry,member,own⟩
    obtain ⟨owner,issued,own'⟩ := known.2.issued entry member
    obtain rfl := own.unique own'
    exact (Thread.putting_next seen done holds).1 issued
  case spends =>
    rintro w t c next choice answer w' known asserted seen done id ⟨entry,member,own⟩
    have seen : t.view cfg = .call c next := seen
    have sound : t.Sound w := asserted.1
    rcases (World.perform_changed done).stored_new member with old | rfl
    · exact .inl ⟨entry,old,own⟩
    · rcases Thread.call_putObject seen with ⟨input,id',rfl,key,_⟩ |
        ⟨event,id',avatar,img,name,rest,thumbnails,rfl,key⟩
      · right
        have own' := keyOf_original sound.1 id'
        rw [← key] at own'
        obtain rfl := own.unique own'
        refine ⟨rfl,?_⟩
        intro again
        exact (Thread.putting_next seen done again).2 _ _ rfl
      · left
        obtain ⟨⟨_,same,r,found,user,_⟩,_⟩ := sound
        have world : w.Sound := known.1
        have row := (world.rows id' r found).1
        have here : r.id = id' := Table.find_key found
        have own' := keyOf_thumbnail (user ▸ row.valid) avatar.id name
        rw [← key] at own'
        obtain rfl := own.unique own'
        obtain ⟨object,stored⟩ := known.2.original id' r found
        refine ⟨_,stored,?_⟩
        rw [row.s3Key,here,same]
        exact keyOf_original row.valid id'
  case moves =>
    rintro event w w' moved id ⟨entry,member,own⟩
    rw [(World.environment_stored moved).1] at member
    exact ⟨entry,member,own⟩

/-! ### Thumbnails are a function of the original -/

structure World.Derived (w : World) (P : Packages) : Prop where
  single : ∀ userID id object object', validateUserID userID = .ok () →
    (originalObjectKey userID id,object) ∈ w.stored →
    (originalObjectKey userID id,object') ∈ w.stored → object = object'
  thumbnails : ∀ userID id name object, validateUserID userID = .ok () →
    (thumbnailObjectKey userID id name,object) ∈ w.stored → ∃ original img,
      (originalObjectKey userID id,original) ∈ w.stored ∧ P.decodeImage original.body = .ok img ∧
      Worker.encodeThumbnail P img (Worker.thumbnailSide name) = .ok object.body

theorem World.initial_derived (breakers : Dependency → BreakerState) : (initial breakers).Derived P := by
  constructor <;> simp [initial]

/-- The image a worker holds is that of the avatar's original. -/
def Decoded (w : World) (avatar : Avatar) (img : P.Image) : Prop :=
  ∃ original, (originalObjectKey avatar.userID avatar.id,original) ∈ w.stored ∧
    P.decodeImage original.body = .ok img

def Thread.Derived (w : World) : Thread P → Prop
  | .processIterate _ _ avatar img => Decoded w avatar img
  | .processPut _ _ avatar img name buf _ _ =>
    Decoded w avatar img ∧ Worker.encodeThumbnail P img (Worker.thumbnailSide name) = .ok buf
  | _ => True

theorem Thread.derived_of_kind {w : World} {t : Thread P} (other : t.kind ≠ .process) :
    t.Derived w := by
  cases t with
  | processIterate | processPut => exact absurd rfl other
  | _ => trivial

theorem Thread.derived_nextThumbnail {w : World} {event : AvatarUploadEvent} {id : UUID}
    {avatar : Avatar} {img : P.Image} (decoded : Decoded w avatar img) (names : List GoString)
    (thumbnails : GoMap) : (nextThumbnail event id avatar img names thumbnails).Derived w := by
  cases names with
  | nil => trivial
  | cons name rest =>
    simp only [nextThumbnail]
    split
    · trivial
    · next encoded =>
      split
      · trivial
      · exact ⟨decoded,encoded⟩

theorem Thread.kind_start_process (command : Command) :
    (start command : Thread P).kind = .process → ∃ maxPixels, command = .handleUpload maxPixels := by
  intro process
  cases command with
  | handleUpload maxPixels => exact ⟨maxPixels,rfl⟩
  | upload input =>
    simp only [start,startUpload] at process
    split at process <;> contradiction
  | delete id userID =>
    simp only [start,startDelete] at process
    split at process <;> contradiction
  | deleteCurrent userID =>
    simp only [start,startDeleteCurrent] at process
    split at process <;> contradiction
  | get r =>
    simp only [start,startGet] at process
    split at process
    · contradiction
    · split at process <;> contradiction
  | getCurrent r =>
    simp only [start,startGetCurrent] at process
    split at process
    · contradiction
    · split at process <;> contradiction
  | handleDelete | reconcile => contradiction

theorem Thread.derived_next {w w' : World} {choice : Choice} {t : Thread P} {c : Call}
    {next : c.Answer → Thread P} {answer : c.Answer} (world : w.Sound) (stocked : w.Stocked)
    (sound : t.Sound w) (derived : t.Derived w') (seen : t.view cfg = .call c next)
    (done : World.perform c choice w = some (answer,w')) : (next answer).Derived w' := by
  by_cases process : (next answer).kind = .process
  · have mine := kind_of_next seen process (by decide)
    cases t <;> simp only [kind,reduceCtorEq] at mine <;> simp only [view] at seen
    case processReceive => cases seen; simp only [startProcess]; split <;> trivial
    case processSelect =>
      cases seen
      simp only [afterProcessSelect]
      split
      · split <;> trivial
      · split
        · trivial
        · split <;> trivial
    case processDownload maxPixels event id avatar =>
      cases seen
      simp only [afterDownload]
      split
      · trivial
      · next object read =>
        split
        · trivial
        · next img decoded =>
          obtain ⟨_,same,r,found,user,key⟩ := sound
          have row := (world.rows id r found).1
          have here : r.id = id := Table.find_key found
          obtain rfl := S3.getResult_ok read
          obtain ⟨present,rfl⟩ := World.perform_getObject done
          refine ⟨object,?_,ImageProc.decode_ok P decoded⟩
          have stored := stocked.objects _ object present
          rw [← key,row.s3Key,here,user] at stored
          rw [same]
          exact stored
    case processIterate => cases seen; exact derived_nextThumbnail derived _ _
    case processPut =>
      cases seen
      simp only [afterThumbnail]
      split
      · trivial
      · exact derived_nextThumbnail derived.1 _ _
    case processUpdate => cases seen; simp only [afterResult]; split <;> trivial
    case processStatus => cases seen; trivial
    case processSettle => cases seen; trivial
  · exact derived_of_kind process

/-- The PUT of an original, the first object of its id. -/
theorem World.Derived.put_original {w : World} (derived : w.Derived P) {userID : GoString} {id : UUID}
    (valid : validateUserID userID = .ok ()) (first : ∀ entry ∈ w.stored, ¬KeyOf id entry.1)
    (object : Object) : (w.put (originalObjectKey userID id) object).Derived P where
  single := by
    intro u other o o' valid' one two
    have new : ∀ o, (originalObjectKey u other,o) = (originalObjectKey userID id,object) →
        (∀ o', (originalObjectKey u other,o') ∉ w.stored) ∧ o = object := by
      intro o equal
      obtain ⟨key,rfl⟩ := Prod.mk.inj equal
      obtain ⟨rfl,rfl⟩ := originalObjectKey_inj valid' valid key
      exact ⟨fun o' old => first _ old (keyOf_original valid' other),rfl⟩
    rcases List.mem_cons.mp one with here | old <;> rcases List.mem_cons.mp two with here' | old'
    · exact (new o here).2.trans (new o' here').2.symm
    · exact absurd old' ((new o here).1 o')
    · exact absurd old ((new o' here').1 o)
    · exact derived.single u other o o' valid' old old'
  thumbnails := by
    intro u other name o valid' member
    rcases List.mem_cons.mp member with here | old
    · exact absurd (Prod.mk.inj here).1.symm (original_ne_thumbnail valid valid' id other name)
    · obtain ⟨original,img,stored,rest⟩ := derived.thumbnails u other name o valid' old
      exact ⟨original,img,List.mem_cons_of_mem _ stored,rest⟩

/-- The PUT of a thumbnail made from the original. -/
theorem World.Derived.put_thumbnail {w : World} (derived : w.Derived P) {avatar : Avatar} {img : P.Image}
    {name : GoString} {object : Object} (valid : validateUserID avatar.userID = .ok ())
    (decoded : Decoded w avatar img)
    (encoded : Worker.encodeThumbnail P img (Worker.thumbnailSide name) = .ok object.body) :
    (w.put (thumbnailObjectKey avatar.userID avatar.id name) object).Derived P where
  single := by
    intro u other o o' valid' one two
    have old : ∀ o, (originalObjectKey u other,o) ∈
        (w.put (thumbnailObjectKey avatar.userID avatar.id name) object).stored →
        (originalObjectKey u other,o) ∈ w.stored := by
      intro o member
      rcases List.mem_cons.mp member with here | old
      · exact absurd (Prod.mk.inj here).1 (original_ne_thumbnail valid' valid other avatar.id name)
      · exact old
    exact derived.single u other o o' valid' (old o one) (old o' two)
  thumbnails := by
    intro u other size o valid' member
    rcases List.mem_cons.mp member with here | old
    · obtain ⟨key,rfl⟩ := Prod.mk.inj here
      obtain ⟨rfl,rfl,rfl⟩ := thumbnailObjectKey_inj valid' valid key
      obtain ⟨original,stored,unpacked⟩ := decoded
      exact ⟨original,img,List.mem_cons_of_mem _ stored,unpacked,encoded⟩
    · obtain ⟨original,img',stored,rest⟩ := derived.thumbnails u other size o valid' old
      exact ⟨original,img',List.mem_cons_of_mem _ stored,rest⟩

theorem World.Derived.same {w w' : World} (derived : w.Derived P) (stored : w'.stored = w.stored) :
    w'.Derived P where
  single := by rw [stored]; exact derived.single
  thumbnails := by rw [stored]; exact derived.thumbnails

theorem World.Changed.stored_same {w w' : World} {c : Call} (changed : World.Changed w c w')
    (keeps : ∀ key object, c ≠ .putObject key object) : w'.stored = w.stored := by
  cases changed with
  | put key object => exact absurd rfl (keeps key object)
  | _ => rfl

/-- The outline with the contents of the storage, for runs in which every step is known
to start from a reachable state. -/
def derivation (allowed : State P → Act → Prop) (breakers : Dependency → BreakerState) :
    (system P cfg).Outline fun s a => Reaches P cfg allowed breakers s ∧ allowed s a :=
  (stock _).extend (fun w => w.Derived P) Thread.Derived
    (by
      intro w w' t grows derived
      cases t with
      | processIterate event id avatar img =>
        obtain ⟨original,stored,unpacked⟩ := derived
        exact ⟨original,grows.stored _ stored,unpacked⟩
      | processPut event id avatar img name buf rest thumbnails =>
        obtain ⟨⟨original,stored,unpacked⟩,encoded⟩ := derived
        exact ⟨⟨original,grows.stored _ stored,unpacked⟩,encoded⟩
      | _ => trivial)
    (by
      intro w command _
      by_cases process : (Thread.start command : Thread P).kind = .process
      · obtain ⟨maxPixels,rfl⟩ := Thread.kind_start_process command process
        trivial
      · exact Thread.derived_of_kind process)
    (by
      intro s slot choice t c next answer w permitted holds derived all running seen performed grows
      have seen : t.view cfg = .call c next := seen
      have world : s.world.Sound := holds.1.1
      have sound : t.Sound s.world := (holds.2 slot t running).1
      have changed := World.perform_changed performed
      have mine : t.Derived s.world := all slot t running
      have later : t.Derived w := by
        cases t with
        | processIterate event id avatar img =>
          obtain ⟨original,stored,unpacked⟩ := mine
          exact ⟨original,grows.stored _ stored,unpacked⟩
        | processPut event id avatar img name buf rest thumbnails =>
          obtain ⟨⟨original,stored,unpacked⟩,encoded⟩ := mine
          exact ⟨⟨original,grows.stored _ stored,unpacked⟩,encoded⟩
        | _ => trivial
      refine ⟨?_,Thread.derived_next world holds.1.2 sound later seen performed⟩
      by_cases puts : ∃ key object, c = .putObject key object
      · obtain ⟨key,object,rfl⟩ := puts
        cases changed with
        | nothing => exact derived
        | put =>
          rcases Thread.call_putObject seen with ⟨input,id,rfl,rfl,rfl⟩ |
            ⟨event,id,avatar,img,name,rest,thumbnails,rfl,rfl⟩
          · exact derived.put_original sound.1 (putting_unstored permitted.1 running) _
          · obtain ⟨⟨_,_,r,found,user,_⟩,_⟩ := sound
            have valid := (world.rows id r found).1.valid
            exact derived.put_thumbnail (user ▸ valid) mine.1 mine.2
      · exact derived.same (changed.stored_same fun key object same => puts ⟨key,object,same⟩))
    (by
      intro event w w' derived moved
      exact derived.same (World.environment_stored moved).1)

end GophProfile

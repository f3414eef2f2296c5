import GophProfile.Storage

/-! Entity tags: when two answers with one tag carry the same bytes. A tag names a version
of a row and a size; the bytes come from the key that version gives the size, or from the
original when nothing is found there. -/
namespace GophProfile

open Domain Effect Transition

variable {P : Packages} {cfg : Config} {breakers : Dependency → BreakerState}

/-! ### Every version of a row has an instant of its own -/

structure World.Versioned (w : World) : Prop where
  current : ∀ id r, w.avatars.find id = some r → r ∈ w.written
  sound : ∀ r ∈ w.written, r.Sound
  past : ∀ r ∈ w.written, r.updatedAt < w.now
  instant : ∀ r ∈ w.written, ∀ r' ∈ w.written, r.updatedAt = r'.updatedAt → r = r'

namespace World

variable {w w' : World}

theorem initial_versioned (breakers : Dependency → BreakerState) : Versioned (initial breakers) := by
  constructor <;> simp [initial]

theorem Versioned.same (versioned : w.Versioned) (avatars : w'.avatars = w.avatars)
    (written : w'.written = w.written) (now : w.now ≤ w'.now) : w'.Versioned where
  current := by rw [avatars,written]; exact versioned.current
  sound := by rw [written]; exact versioned.sound
  past := by
    rw [written]
    exact fun r member => Nat.lt_of_lt_of_le (versioned.past r member) now
  instant := by rw [written]; exact versioned.instant

/-- A new version takes the instant at which it is written. -/
theorem Versioned.wrote (versioned : w.Versioned) {r : Row} (sound : r.Sound)
    (instant : r.updatedAt = w.now) (written : w'.written = r :: w.written) (now : w'.now = w.now + 1)
    (rows : ∀ id r', w'.avatars.find id = some r' → r' = r ∨ w.avatars.find id = some r') :
    w'.Versioned where
  current := by
    intro id r' found
    rw [written]
    rcases rows id r' found with rfl | old
    · exact List.mem_cons_self
    · exact List.mem_cons_of_mem _ (versioned.current id r' old)
  sound := by
    rw [written]
    exact List.forall_mem_cons.mpr ⟨sound,versioned.sound⟩
  past := by
    rw [written,now]
    intro r' member
    rcases List.mem_cons.mp member with rfl | old
    · exact instant ▸ Nat.lt_succ_self _
    · exact Nat.lt_succ_of_lt (versioned.past r' old)
  instant := by
    rw [written]
    intro r₁ one r₂ two same
    rcases List.mem_cons.mp one with rfl | old <;> rcases List.mem_cons.mp two with rfl | old'
    · rfl
    · exact absurd (same.symm.trans instant) (Nat.ne_of_lt (versioned.past r₂ old'))
    · exact absurd (same.trans instant) (Nat.ne_of_lt (versioned.past r₁ old))
    · exact versioned.instant r₁ old r₂ old' same

theorem Versioned.write (versioned : w.Versioned) {r r' : Row} (after : (w.write r').Sound)
    (found : w.avatars.find r.id = some r) (same : r'.id = r.id) (instant : r'.updatedAt = w.now) :
    (w.write r').Versioned := by
  have read : (w.write r').avatars.find r'.id = some r' := by
    rw [find_write,if_pos rfl,same,found]
    rfl
  refine versioned.wrote (after.rows _ _ read).1 instant rfl rfl ?_
  intro id old seen
  rw [find_write] at seen
  split at seen
  · obtain ⟨_,_,equal⟩ := Option.map_eq_some_iff.mp seen
    exact .inl equal.symm
  · exact .inr seen

theorem Versioned.changed {c : Call} (versioned : w.Versioned) (after : w'.Sound)
    (changed : Changed w c w') : w'.Versioned := by
  cases changed with
  | inserted a thumbs avatars done =>
    have read : (w.inserted avatars (Row.ofInsert a thumbs w.now)).avatars.find a.id = some _ :=
      (find_inserted done a.id).trans (if_pos rfl)
    refine versioned.wrote (after.rows _ _ read).1 rfl rfl rfl ?_
    intro id old seen
    rw [find_inserted done] at seen
    split at seen
    · exact .inl (Option.some.inj seen).symm
    · exact .inr seen
  | deleted r found => exact versioned.write after found rfl rfl
  | completed r thumbs width height found => exact versioned.write after found rfl rfl
  | status r status found => exact versioned.write after found rfl rfl
  | _ => exact versioned.same rfl rfl (Nat.le_refl _)

theorem Versioned.moved {event : Event} (versioned : w.Versioned)
    (moved : environment event w = some w') : w'.Versioned := by
  cases event <;> simp only [environment] at moved
  · cases moved
    exact versioned.same rfl rfl (Nat.le_succ _)
  · split at moved <;> cases moved
    exact versioned.same rfl rfl (Nat.le_refl _)
  · split at moved <;> cases moved
    exact versioned.same rfl rfl (Nat.le_refl _)

end World

/-! ### What an answer was made from -/

/-- The metadata are those of a version of the row, the size is one the API serves. -/
def Version (w : World) (avatar : Avatar) (size : GoString) : Prop :=
  (∃ r ∈ w.written, Postgres.scanAvatar (.ok r) = .ok avatar) ∧ size ∈ Rest.allowedSizes

/-- A tagged answer holds an object that was stored under the key of its version and size. -/
def Served (P : Packages) (w : World) (response : Response) : Prop :=
  response.status = 200 → ∀ etag, response.etag = some etag → ∃ avatar size object,
    Version w avatar size ∧ etag = Rest.contentETag P avatar size ∧
      (AvatarService.contentKey avatar size,object) ∈ w.stored ∧ response.body = .bytes object.body

/-- The step is not a read of the original, in place of a thumbnail that is gone, that
finds the original still there. -/
def NoFallback (s : State P) (a : Act) : Prop :=
  ∀ slot pick avatar size, a = .advance slot (.ok pick) →
    s.procs slot = some (.readOriginal avatar size) → s.world.objects avatar.s3Key = none

/-- Two answers with the same tag have the same body. -/
def TagsIdentify (s : State P) : Prop :=
  ∀ i j one two etag, s.procs i = some (.done (.responded one)) →
    s.procs j = some (.done (.responded two)) → one.status = 200 → two.status = 200 →
    one.etag = some etag → two.etag = some etag → one.body = two.body

namespace Thread

def Tagged (w : World) : Thread P → Prop
  | .readSelect _ _ size => size ∈ Rest.allowedSizes
  | .readCurrent _ size => size ∈ Rest.allowedSizes
  | .readObject avatar size => Version w avatar size
  | .readOriginal avatar size => Version w avatar size
  | .done (.responded response) => Served P w response
  | _ => True

variable {w : World}

theorem Tagged.grows {w' : World} (grows : World.Grows w w') {t : Thread P} (tagged : t.Tagged w) :
    t.Tagged w' := by
  have version : ∀ {avatar size}, Version w avatar size → Version w' avatar size := by
    rintro avatar size ⟨⟨r,member,scanned⟩,allowed⟩
    exact ⟨⟨r,grows.written r member,scanned⟩,allowed⟩
  cases t with
  | readSelect => exact tagged
  | readCurrent => exact tagged
  | readObject => exact version tagged
  | readOriginal => exact version tagged
  | done reply =>
    cases reply with
    | responded response =>
      intro status etag tag
      obtain ⟨avatar,size,object,made,same,stored,body⟩ := tagged status etag tag
      exact ⟨avatar,size,object,version made,same,grows.stored _ stored,body⟩
    | _ => trivial
  | _ => trivial

/-- Only the points and the answers of reading operations are concerned. -/
theorem tagged_of_kind {t : Thread P} (other : t.kind ≠ .read)
    (silent : ∀ response, t ≠ .done (.responded response)) : t.Tagged w := by
  cases t with
  | readSelect | readCurrent | readObject | readOriginal => exact absurd rfl other
  | done reply =>
    cases reply with
    | responded response => exact absurd rfl (silent response)
    | _ => trivial
  | _ => trivial

theorem tagged_untagged {response : Response} (untagged : response.etag = none) :
    (respond response : Thread P).Tagged w := by
  intro _ etag tag
  rw [untagged] at tag
  contradiction

theorem tagged_readError (err : Err) : (respond (Rest.writeReadError cfg err) : Thread P).Tagged w := by
  apply tagged_untagged
  unfold Rest.writeReadError
  split
  · rfl
  · split
    · rfl
    · split
      · rfl
      · split <;> rfl

theorem tagged_content {avatar : Avatar} {size : GoString} {object : Object}
    (version : Version w avatar size) (stored : (AvatarService.contentKey avatar size,object) ∈ w.stored) :
    (respond (Rest.content avatar (Rest.contentETag P avatar size) object) : Thread P).Tagged w := by
  intro _ etag tag
  exact ⟨avatar,size,object,version,(Option.some.inj tag).symm,stored,rfl⟩

theorem tagged_afterObject {avatar : Avatar} {size : GoString} {result : Except Err Object}
    (version : Version w avatar size)
    (found : ∀ object, result = .ok object → (AvatarService.contentKey avatar size,object) ∈ w.stored) :
    (afterObject cfg avatar size result : Thread P).Tagged w := by
  unfold afterObject
  split
  · next object => exact tagged_content version (found object rfl)
  · split
    · split
      · exact tagged_readError _
      · exact version
    · exact tagged_readError _

theorem tagged_serve {avatar : Avatar} {size ifNoneMatch : GoString} (version : Version w avatar size) :
    (serve cfg avatar size ifNoneMatch : Thread P).Tagged w := by
  unfold serve
  split
  · intro status
    have code : (Rest.notModified (Rest.contentETag P avatar size)).status = 304 := rfl
    rw [code] at status
    contradiction
  · split
    · exact tagged_afterObject version (by simp)
    · exact version

theorem parseSize_ok {r : Rest.ContentRequest} {size : GoString} (parsed : Rest.parseSize r = .ok size) :
    size ∈ Rest.allowedSizes := by
  unfold Rest.parseSize at parsed
  split at parsed
  · cases parsed
  · split at parsed
    · cases parsed
      exact List.mem_cons_self
    · split at parsed
      · next allowed => cases parsed; exact allowed
      · cases parsed

theorem parseSize_error {r : Rest.ContentRequest} {response : Response}
    (refused : Rest.parseSize r = .error response) : response.etag = none := by
  unfold Rest.parseSize at refused
  split at refused
  · cases refused
    rfl
  · split at refused
    · cases refused
    · split at refused <;> cases refused
      rfl

theorem parseID_error {text : GoString} {response : Response}
    (refused : Rest.parseID P text = .error response) : response.etag = none := by
  unfold Rest.parseID at refused
  split at refused <;> cases refused
  rfl

theorem tagged_start (command : Command) : (start command : Thread P).Tagged w := by
  cases command with
  | get r =>
    simp only [start,startGet]
    split
    · next refused => exact tagged_untagged (parseID_error refused)
    · split
      · next refused => exact tagged_untagged (parseSize_error refused)
      · next parsed => exact parseSize_ok parsed
  | getCurrent r =>
    simp only [start,startGetCurrent]
    split
    · next refused => exact tagged_untagged (parseSize_error refused)
    · next parsed =>
      split
      · exact tagged_untagged rfl
      · exact parseSize_ok parsed
  | upload input => simp only [start,startUpload]; split <;> trivial
  | delete id userID => simp only [start,startDelete]; split <;> trivial
  | deleteCurrent userID => simp only [start,startDeleteCurrent]; split <;> trivial
  | handleUpload | handleDelete | reconcile => trivial

/-- Where an answer to a reading operation leads, when no fallback finds the original. -/
theorem tagged_next {w' : World} {choice : Choice} {t : Thread P} {c : Call}
    {next : c.Answer → Thread P} {answer : c.Answer} (stocked : w.Stocked) (versioned : w.Versioned)
    (tagged : t.Tagged w)
    (unused : ∀ pick avatar size, choice = .ok pick → t = .readOriginal avatar size →
      w.objects avatar.s3Key = none)
    (seen : t.view cfg = .call c next) (done : World.perform c choice w = some (answer,w')) :
    (next answer).Tagged w' := by
  by_cases read : t.kind = .read
  · have later := tagged.grows (World.perform_changed done).grows
    cases t <;> simp only [kind,reduceCtorEq] at read <;> simp only [view] at seen
    case readSelect r id size =>
      cases seen
      simp only [afterSelect]
      split
      · exact tagged_readError _
      · next avatar read =>
        obtain ⟨row,thumbnails,rfl,decoded,rfl⟩ := Postgres.scanAvatar_ok (Postgres.getByIDResult_ok read)
        obtain ⟨found,rfl⟩ := World.perform_selectByID done
        have member := versioned.current id row (World.live_iff.mp found).1
        exact tagged_serve ⟨⟨row,member,Postgres.getByIDResult_ok read⟩,tagged⟩
    case readCurrent r size =>
      cases seen
      simp only [afterReadCurrent]
      split
      · split
        · exact tagged_untagged rfl
        · exact tagged_readError _
      · next avatar read =>
        obtain ⟨row,thumbnails,rfl,decoded,rfl⟩ := Postgres.scanAvatar_ok (Postgres.getCurrentResult_ok read)
        obtain ⟨found,_,rfl⟩ := World.perform_selectCurrent done
        have member := versioned.current row.id row (World.live_iff.mp found).1
        exact tagged_serve ⟨⟨row,member,Postgres.getCurrentResult_ok read⟩,tagged⟩
    case readObject avatar size =>
      cases seen
      apply tagged_afterObject later
      intro object read
      obtain rfl := S3.getResult_ok read
      obtain ⟨present,rfl⟩ := World.perform_getObject done
      exact stocked.objects _ object present
    case readOriginal avatar size =>
      cases seen
      simp only [afterOriginal]
      split
      · next object read =>
        obtain rfl := S3.getResult_ok read
        obtain ⟨present,rfl⟩ := World.perform_getObject done
        obtain ⟨pick,rfl,-⟩ := World.perform_effect done (by simp [World.failed])
        rw [unused pick avatar size rfl rfl] at present
        contradiction
      · exact tagged_readError _
  · apply tagged_of_kind
    · exact fun arrived => read (kind_of_next seen arrived (by decide))
    · exact fun response finished => read (replyKind_of_next seen finished)

end Thread

/-- The outline with the versions of the rows and the origin of every tagged answer. -/
def tagging (breakers : Dependency → BreakerState) :
    (system P cfg).Outline fun s a => Reaches P cfg NoFallback breakers s ∧ NoFallback s a :=
  (derivation NoFallback breakers).extend World.Versioned Thread.Tagged
    (fun grows tagged => Thread.Tagged.grows grows tagged)
    (fun _ command _ => Thread.tagged_start command)
    (by
      intro s slot choice t c next answer w permitted holds versioned all running seen performed _
      have seen : t.view cfg = .call c next := seen
      have world : s.world.Sound := holds.1.1.1
      have sound : t.Sound s.world := (holds.2 slot t running).1.1
      have after := world.changed (sound.proper seen) (World.perform_changed performed)
      refine ⟨versioned.changed after (World.perform_changed performed),?_⟩
      refine Thread.tagged_next holds.1.1.2 versioned (all slot t running) ?_ seen performed
      rintro pick avatar size rfl rfl
      exact permitted.2 slot pick avatar size rfl running)
    (fun _ _ _ versioned moved => versioned.moved moved)

/-! ### One tag, one key, one body -/

theorem bar_not_mem {size : GoString} (allowed : size ∈ Rest.allowedSizes) : (124 : UInt8) ∉ size := by
  revert size
  decide

/-- A tag says which version of which avatar it is for, and which size. -/
theorem contentETag_inj (hash : Function.Injective P.sum256) (clock : Function.Injective P.utcString)
    {a a' : Avatar} {size size' : GoString} (allowed : size ∈ Rest.allowedSizes)
    (allowed' : size' ∈ Rest.allowedSizes)
    (same : Rest.contentETag P a size = Rest.contentETag P a' size') :
    a.id = a'.id ∧ size = size' ∧ a.updatedAt = a'.updatedAt := by
  have bar : lit "|" = [124] := rfl
  simp only [Rest.contentETag,List.append_assoc] at same
  have hashes := List.append_cancel_right (List.append_cancel_left same)
  have texts := hash hashes
  rw [bar] at texts
  obtain ⟨ids,rest⟩ := Segments.append_separator_inj (UUID.not_mem rfl a.id) (UUID.not_mem rfl a'.id) texts
  obtain ⟨sizes,times⟩ := Segments.append_separator_inj (bar_not_mem allowed) (bar_not_mem allowed') rest
  exact ⟨UUID.string_injective ids,sizes,clock times⟩

/-- A size is served from a key of the avatar itself. -/
theorem contentKey_own {r : Row} {avatar : Avatar} (sound : r.Sound)
    (scanned : Postgres.scanAvatar (.ok r) = .ok avatar) (size : GoString) :
    AvatarService.contentKey avatar size ∈ ownKeys r.userID r.id := by
  obtain ⟨r',thumbnails,same,decoded,rfl⟩ := Postgres.scanAvatar_ok scanned
  cases same
  have original : r.s3Key ∈ ownKeys r.userID r.id := by
    rw [sound.s3Key]
    exact List.mem_cons_self
  unfold AvatarService.contentKey
  split
  · split
    · next key found =>
      have inside := sound.entries decoded (mem_of_lookup found)
      exact List.mem_cons_of_mem _ (List.mem_map_of_mem inside)
    · exact original
  · exact original

/-- Everything that was ever stored under a key of an avatar has the same bytes. -/
theorem World.Derived.body_unique {w : World} (derived : w.Derived P) {userID : GoString} {id : UUID}
    (valid : validateUserID userID = .ok ()) {key : GoString} (own : key ∈ ownKeys userID id)
    {object object' : Object} (one : (key,object) ∈ w.stored) (two : (key,object') ∈ w.stored) :
    object.body = object'.body := by
  rcases List.mem_cons.mp own with rfl | thumbnail
  · rw [derived.single userID id object object' valid one two]
  · obtain ⟨name,rfl⟩ : ∃ name, key = thumbnailObjectKey userID id name := by
      simp only [thumbnailKeys,List.map_cons,List.map_nil,List.mem_cons,List.not_mem_nil,or_false]
        at thumbnail
      rcases thumbnail with rfl | rfl
      · exact ⟨_,rfl⟩
      · exact ⟨_,rfl⟩
    obtain ⟨original,img,stored,unpacked,encoded⟩ := derived.thumbnails userID id name object valid one
    obtain ⟨original',img',stored',unpacked',encoded'⟩ :=
      derived.thumbnails userID id name object' valid two
    rw [derived.single userID id original original' valid stored stored',unpacked'] at unpacked
    cases unpacked
    rw [encoded] at encoded'
    exact Except.ok.inj encoded'

/-- One tag, one version of one row and one size, so one key, and one body under it. -/
theorem tagsIdentify_reached (hash : Function.Injective P.sum256)
    (clock : Function.Injective P.utcString) {s : State P}
    (reached : Reaches P cfg NoFallback breakers s) : TagsIdentify s := by
  obtain ⟨known,threads⟩ := (tagging breakers).reachable
    ⟨⟨⟨World.initial_sound breakers,World.initial_stocked breakers⟩,World.initial_derived breakers⟩,
      World.initial_versioned breakers⟩ reached.recorded
  have versioned : s.world.Versioned := known.2
  have derived : s.world.Derived P := known.1.2
  intro i j one two etag first second ok ok' tag tag'
  obtain ⟨avatar,size,object,⟨⟨r,member,scanned⟩,allowed⟩,made,stored,body⟩ :=
    (threads i _ first).2 ok etag tag
  obtain ⟨avatar',size',object',⟨⟨r',member',scanned'⟩,allowed'⟩,made',stored',body'⟩ :=
    (threads j _ second).2 ok' etag tag'
  obtain ⟨_,rfl,instants⟩ := contentETag_inj hash clock allowed allowed' (made.symm.trans made')
  -- one instant, one version of one row: the metadata are the same, and so is the key
  have versions : r = r' := by
    apply versioned.instant r member r' member'
    rw [← Postgres.scanAvatar_updatedAt scanned,← Postgres.scanAvatar_updatedAt scanned']
    exact instants
  subst versions
  obtain rfl := Except.ok.inj (scanned.symm.trans scanned')
  have row := versioned.sound r member
  rw [body,body',derived.body_unique row.valid (contentKey_own row scanned size) stored stored']

/-- When no read falls back from a missing thumbnail to an original that is still there,
a tag identifies the body it was issued for. -/
theorem tags_identify_bodies (hash : Function.Injective P.sum256)
    (clock : Function.Injective P.utcString) {s : State P}
    (reached : Reaches P cfg NoFallback breakers s) : TagsIdentify s :=
  tagsIdentify_reached hash clock reached

/-! ### The guard on concrete runs -/

def noFallback (s : State P) : Act → Bool
  | .advance slot (.ok _) =>
    match s.procs slot with
    | some (.readOriginal avatar _) => (s.world.objects avatar.s3Key).isNone
    | _ => true
  | _ => true

theorem noFallback_iff {s : State P} {a : Act} : noFallback s a = true ↔ NoFallback s a := by
  constructor
  · rintro checked slot pick avatar size rfl running
    simpa [noFallback,running] using checked
  · intro guarded
    unfold noFallback
    split
    · next slot pick =>
      split
      · next avatar size running => simpa using guarded slot pick avatar size rfl running
      · rfl
    · rfl

instance (s : State P) (a : Act) : Decidable (NoFallback s a) := decidable_of_iff _ noFallback_iff

def processed : List Act :=
  Schedule.upload 0 (Schedule.input (lit "ann")) .nil ++
    Schedule.receive 1 1000 (Schedule.event (lit "ann") .nil) ++ Schedule.complete 1

/-- The answers of the slots 2 and 3 are good ones with one tag. -/
def sameTag (s : State P) : Bool :=
  match s.procs 2, s.procs 3 with
  | some (.done (.responded one)), some (.done (.responded two)) =>
    one.status == 200 && two.status == 200 && one.etag.isSome && one.etag == two.etag
  | _, _ => false

theorem sameTag_cases {s : State P} (same : sameTag s = true) : ∃ one two etag,
    s.procs 2 = some (.done (.responded one)) ∧ s.procs 3 = some (.done (.responded two)) ∧
      one.status = 200 ∧ two.status = 200 ∧ one.etag = some etag ∧ two.etag = some etag := by
  unfold sameTag at same
  split at same
  · next one two first second =>
    simp only [Bool.and_eq_true,beq_iff_eq] at same
    obtain ⟨⟨⟨ok,ok'⟩,tagged⟩,tags⟩ := same
    obtain ⟨etag,tag⟩ := Option.isSome_iff_exists.mp tagged
    exact ⟨one,two,etag,first,second,ok,ok',tag,tags.symm.trans tag⟩
  · contradiction

/-- A thumbnail is served twice. -/
theorem tags_identify_thumbnail : ∃ (s : State Packages.sample) (one two : Response) (etag : GoString),
    s.procs 2 = some (.done (.responded one)) ∧ s.procs 3 = some (.done (.responded two)) ∧
      one.etag = some etag ∧ two.etag = some etag ∧ one.body = two.body := by
  obtain ⟨trace,s,run,guarded,met,-⟩ := Schedule.run NoFallback
    (processed ++ [.start 2 (Schedule.get .nil thumbnailSmall),Schedule.answer 2 .none,
      Schedule.answer 2 .none,.start 3 (Schedule.get .nil thumbnailSmall),Schedule.answer 3 .none,
      Schedule.answer 3 .none])
    sameTag (by decide +kernel)
  obtain ⟨one,two,etag,first,second,ok,ok',tag,tag'⟩ := sameTag_cases met
  have reached := Path.reachable run guarded
  exact ⟨s,one,two,etag,first,second,tag,tag',
    tags_identify_bodies Function.injective_id Packages.sample_utcString reached 2 3 one two etag
      first second ok ok' tag tag'⟩

def differentBodies (s : State P) : Bool :=
  match s.procs 2, s.procs 3 with
  | some (.done (.responded one)), some (.done (.responded two)) => one.body != two.body
  | _, _ => false

/-- The second reader looks up the metadata before the deletion and the thumbnail after
it, and is given the original under the tag of the thumbnail. -/
theorem original_under_thumbnail_tag : ¬∀ (P : Packages) (cfg : Config)
    (breakers : Dependency → BreakerState) (s : State P), Function.Injective P.sum256 →
      Function.Injective P.utcString → Reaches P cfg (fun _ _ => True) breakers s → TagsIdentify s := by
  intro all
  obtain ⟨trace,s,run,-,met,-⟩ := Schedule.run (fun _ _ => True)
    (processed ++ [.start 2 (Schedule.get .nil thumbnailSmall),Schedule.answer 2 .none,
        Schedule.answer 2 .none,.start 3 (Schedule.get .nil thumbnailSmall),Schedule.answer 3 .none] ++
      Schedule.delete 4 .nil (lit "ann") [thumbnailSmall,thumbnailLarge] ++
      Schedule.takeDelete 5 (Schedule.deletion (lit "ann") .nil)
        (Schedule.deletion (lit "ann") .nil).s3Keys.reverse ++
      [Schedule.answer 5 .none,Schedule.answer 5 .none,Schedule.answer 3 .none,Schedule.answer 3 .none])
    (fun s => sameTag s && differentBodies s) (by decide +kernel)
  rw [Bool.and_eq_true] at met
  obtain ⟨tags,differ⟩ := met
  obtain ⟨one,two,etag,first,second,ok,ok',tag,tag'⟩ := sameTag_cases tags
  unfold differentBodies at differ
  rw [first,second] at differ
  have same := all _ _ _ s Function.injective_id Packages.sample_utcString run.reaches 2 3 one two etag
    first second ok ok' tag tag'
  simp [same] at differ

end GophProfile

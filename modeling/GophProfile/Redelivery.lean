import GophProfile.Recovery

/-! Deliveries that are handled more than once. A handler may be cut off anywhere, or be
refused any of its calls, any number of times: the run that gets through leaves the same
rows and objects as a single undisturbed one. -/
namespace GophProfile

open Domain Effect

/-- A call takes effect and is answered, or, where calls can fail, is lost with any error:
a rejection by a breaker is one. -/
def Attempted (faulty : Bool) (c : Call) (w : World) (answer : c.Answer) (w' : World) : Prop :=
  (∃ pick, World.effect c pick w = some (answer,w')) ∨
    faulty = true ∧ w' = w ∧ ∃ err, World.failed c err = some answer

/-- The body of a message of one of the two queues. -/
inductive Delivery where
  | upload (body : GoString)
  | delete (body : GoString)

namespace Delivery

variable (P : Packages) (maxPixels : Int64)

def handle : Delivery → Prog (Except Err Unit)
  | .upload body => Worker.handleUpload P ⟨⟨none⟩,⟨none⟩,maxPixels⟩ body
  | .delete body => Worker.handleDelete P ⟨⟨none⟩,⟨none⟩,maxPixels⟩ body

/-- What one undisturbed run makes of the store. -/
def outcome : Delivery → Snapshot → Snapshot
  | .upload body, s =>
    match P.unmarshalUpload body with
    | .error _ => s
    | .ok event => uploadOutcome P maxPixels event s
  | .delete body, s =>
    match P.unmarshalDelete body with
    | .error _ => s
    | .ok event => deleteOutcome event s

/-- The original that an upload event is about has kept its bytes. -/
def Kept (d : Delivery) (first s : Snapshot) : Prop :=
  ∀ body event, d = .upload body → P.unmarshalUpload body = .ok event → OriginalKept P event first s

variable {P maxPixels}

theorem outcome_absorbs {d : Delivery} {first s : Snapshot}
    (toward : first.Toward (d.outcome P maxPixels first) s) (kept : d.Kept P first s) :
    d.outcome P maxPixels s = d.outcome P maxPixels first := by
  cases d with
  | upload body =>
    cases decoded : P.unmarshalUpload body with
    | error err =>
      simp only [outcome,decoded] at toward ⊢
      rcases toward.of_objects rfl with rfl | rfl <;> rfl
    | ok event =>
      simp only [outcome,decoded] at toward ⊢
      exact uploadOutcome_absorbs toward (kept body event rfl decoded)
  | delete body =>
    cases decoded : P.unmarshalDelete body with
    | error err =>
      simp only [outcome,decoded] at toward ⊢
      rcases toward.of_objects rfl with rfl | rfl <;> rfl
    | ok event =>
      simp only [outcome,decoded] at toward ⊢
      exact deleteOutcome_absorbs toward

end Delivery

/-! ### What a call does to the store -/

section Attempts
variable {faulty : Bool} {w w' : World}

theorem attempted_selectByID {id : UUID} {answer : Except Err Row}
    (attempted : Attempted faulty (.selectByID id) w answer w') :
    w' = w ∧ (answer = World.rowOr (w.live id) ∨ faulty = true ∧ ∃ err, answer = .error err) := by
  rcases attempted with ⟨pick,done⟩ | ⟨fault,rfl,err,refused⟩
  · cases pick <;> cases done
    exact ⟨rfl,.inl rfl⟩
  · cases refused
    exact ⟨rfl,.inr ⟨fault,err,rfl⟩⟩

theorem attempted_getObject {key : GoString} {answer : Except Err Object}
    (attempted : Attempted faulty (.getObject key) w answer w') :
    w' = w ∧ ((∃ object, w.objects key = some object ∧ answer = .ok object) ∨
      ∃ err, answer = .error err ∧ (w.objects key = none ∨ faulty = true)) := by
  rcases attempted with ⟨pick,done⟩ | ⟨fault,rfl,err,refused⟩
  · cases pick <;> simp only [World.effect,reduceCtorEq] at done
    cases stored : w.objects key <;> simp only [stored] at done <;> cases done
    · exact ⟨rfl,.inr ⟨_,rfl,.inl rfl⟩⟩
    · exact ⟨rfl,.inl ⟨_,rfl,rfl⟩⟩
  · cases refused
    exact ⟨rfl,.inr ⟨err,rfl,.inr fault⟩⟩

theorem attempted_putObject {key : GoString} {object : Object} {answer : Except Err Unit}
    (attempted : Attempted faulty (.putObject key object) w answer w') :
    (w' = w.put key object ∧ answer = .ok ()) ∨ (w' = w ∧ faulty = true ∧ ∃ err, answer = .error err) := by
  rcases attempted with ⟨pick,done⟩ | ⟨fault,rfl,err,refused⟩
  · cases pick <;> cases done
    exact .inl ⟨rfl,rfl⟩
  · cases refused
    exact .inr ⟨rfl,fault,err,rfl⟩

theorem attempted_removeObject {key : GoString} {answer : Except Err Unit}
    (attempted : Attempted faulty (.removeObject key) w answer w') :
    w' = w.remove key ∨ (w' = w ∧ faulty = true) := by
  rcases attempted with ⟨pick,done⟩ | ⟨fault,rfl,_⟩
  · cases pick <;> cases done
    exact .inl rfl
  · exact .inr ⟨rfl,fault⟩

theorem attempted_updateStatus {id : UUID} {status : ProcessingStatus} {r : Row}
    {answer : Except Err Unit} (found : w.avatars.find id = some r)
    (attempted : Attempted faulty (.updateStatus id status) w answer w') :
    w' = w.write (r.withStatus status w.now) ∨ (w' = w ∧ faulty = true) := by
  rcases attempted with ⟨pick,done⟩ | ⟨fault,rfl,_⟩
  · cases pick <;> simp only [World.effect,found,reduceCtorEq] at done
    cases done
    exact .inl rfl
  · exact .inr ⟨rfl,fault⟩

theorem attempted_updateResult {id : UUID} {thumbs : Json} {width height : Int64} {r : Row}
    {answer : Except Err Nat} (found : w.avatars.find id = some r)
    (unfinished : r.processingStatus ≠ .completed)
    (attempted : Attempted faulty (.updateResult id thumbs width height) w answer w') :
    w' = w.write (r.completed thumbs width height w.now) ∨ (w' = w ∧ faulty = true) := by
  rcases attempted with ⟨pick,done⟩ | ⟨fault,rfl,_⟩
  · cases pick <;> simp only [World.effect,found,unfinished,if_false,reduceCtorEq] at done
    cases done
    exact .inl rfl
  · exact .inr ⟨rfl,fault⟩

theorem attempted_iterate {keys : List GoString} {answer : { order : List GoString // order.Perm keys }}
    (attempted : Attempted faulty (.iterate keys) w answer w') : w' = w := by
  rcases attempted with ⟨pick,done⟩ | ⟨_,rfl,_⟩
  · cases pick <;> simp only [World.effect,reduceCtorEq] at done
    split at done
    · cases done
      rfl
    · contradiction
  · rfl

end Attempts

theorem snapshot_live (w : World) (id : UUID) : w.snapshot.live id = (w.live id).map Row.undated := by
  simp only [World.snapshot,Snapshot.live,World.live]
  cases w.avatars.find id with
  | none => rfl
  | some r => simp [Option.filter,Row.live,Row.undated,apply_ite]

/-- An UPDATE of the row that is there. -/
theorem snapshot_write {w : World} {r : Row} (r' : Row) (found : w.avatars.find r.id = some r)
    (same : r'.id = r.id) : (w.write r').snapshot = w.snapshot.setRow r.id r' := by
  refine Snapshot.ext (funext fun id => ?_) rfl
  simp only [World.snapshot,Snapshot.setRow,World.find_write,same]
  by_cases here : id = r.id
  · subst here
    simp [found]
  · simp [here]

/-! ### The handlers, wherever they are given up -/

variable {P : Packages} {maxPixels : Int64} {faulty : Bool}

/-- From the start of a run to its end the store is on the way to the outcome, and there
in the end if no call was lost. -/
abbrev Lands (faulty : Bool) (first last : Snapshot) {α : Type} (p : Prog α) (w : World) : Prop :=
  Safe (Attempted faulty) (fun w' => first.Toward last w'.snapshot)
    (fun _ w' => first.Toward last w'.snapshot ∧ (faulty = false → w'.snapshot = last)) p w

section Lands
variable {first last : Snapshot} {α β : Type} {w : World}

theorem lands_lost {value : α} (fault : faulty = true) (toward : first.Toward last w.snapshot) :
    Lands faulty first last (.done value) w :=
  ⟨toward,toward,fun clean => by simp [fault] at clean⟩

theorem lands_done {value : α} (done : w.snapshot = last) :
    Lands faulty first last (.done value) w :=
  ⟨.inr done,.inr done,fun _ => done⟩

theorem lands_then {p : Prog α} {f : α → Prog β} (landed : Lands faulty first last p w)
    (returns : ∀ value, ∃ result, f value = .done result) : Lands faulty first last (p >>= f) w := by
  refine Safe.bind landed fun value w' known => ?_
  obtain ⟨result,equal⟩ := returns value
  rw [equal]
  exact ⟨known.1,known⟩

end Lands

/-- The loop over the keys of a deletion, by induction on those still to be removed. -/
theorem removeObjects_lands {first last : Snapshot} {keys rest : List GoString} (errs : List Err) {w : World}
    (rows : w.snapshot.rows = last.rows) (same : last.rows = first.rows)
    (gone : ∀ key, last.objects key = if key ∈ keys then none else first.objects key)
    (objects : ∀ key, w.objects key = first.objects key ∨ w.objects key = last.objects key)
    (removed : faulty = false → ∀ key ∈ keys, key ∉ rest → w.objects key = none)
    (inside : ∀ key ∈ rest, key ∈ keys) : Lands faulty first last (S3.removeObjects rest errs) w := by
  have toward : ∀ w : World, w.snapshot.rows = last.rows →
      (∀ key, w.objects key = first.objects key ∨ w.objects key = last.objects key) →
      first.Toward last w.snapshot :=
    fun w rows objects => .inl ⟨rows.trans same,objects⟩
  induction rest generalizing w errs with
  | nil =>
    refine ⟨toward w rows objects,toward w rows objects,
      fun clean => Snapshot.ext rows (funext fun key => ?_)⟩
    by_cases listed : key ∈ keys
    · rw [gone,if_pos listed]
      exact removed clean key listed (by simp)
    · have kept := objects key
      rw [gone,if_neg listed,or_self] at kept
      rw [gone,if_neg listed]
      exact kept
  | cons key rest ih =>
    refine Safe.request (toward w rows objects) fun answer w' attempted => ?_
    have still : ∀ errs, Lands faulty first last (S3.removeObjects rest errs) w' := by
      intro errs
      have others := fun key member => inside key (List.mem_cons_of_mem _ member)
      rcases attempted_removeObject attempted with rfl | ⟨rfl,fault⟩
      · refine ih errs rows ?_ ?_ others
        · intro other
          by_cases here : other = key
          · subst here
            right
            rw [gone,if_pos (inside other List.mem_cons_self)]
            simp [World.remove]
          · simpa [World.remove,here] using objects other
        · intro clean other listed absent
          by_cases here : other = key
          · subst here
            simp [World.remove]
          · have before := removed clean other listed (by simp [here,absent])
            simpa [World.remove,here] using before
      · exact ih errs rows objects (fun clean => by simp [fault] at clean) others
    split
    · exact still _
    · exact still _

theorem processDelete_lands (event : AvatarDeleteEvent) (w : World) :
    Lands faulty w.snapshot (deleteOutcome event w.snapshot)
      (Worker.processDelete ⟨⟨none⟩,⟨none⟩,maxPixels⟩ event) w := by
  simp only [Worker.processDelete,S3.Storage.deleteMany,Breaker.call_none,S3.deleteMany]
  split
  · next empty =>
    refine lands_done (Snapshot.ext ?_ (funext fun key => ?_)) <;>
      simp [deleteOutcome,empty,S3.validateKeys]
  · cases accepted : S3.validateKeys event.s3Keys with
    | error err => exact lands_done (by simp only [deleteOutcome,accepted])
    | ok done =>
      have outcome : deleteOutcome event w.snapshot = { w.snapshot with
          objects := fun key => if key ∈ event.s3Keys then none else w.snapshot.objects key } := by
        simp only [deleteOutcome,accepted,List.contains_iff_mem]
      rw [outcome]
      refine Safe.request (Snapshot.toward_first _ _) fun order w' attempted => ?_
      obtain rfl := attempted_iterate attempted
      have listed := fun key => order.property.mem_iff (a := key)
      refine lands_then (removeObjects_lands [] rfl rfl (fun _ => rfl) (fun _ => .inl rfl) ?_ ?_)
        fun errs => ⟨_,rfl⟩
      · exact fun _ key member absent => absurd ((listed key).mpr member) absent
      · exact fun key member => (listed key).mp member

theorem encodeThumbnail_built (img : P.Image) {name : GoString} (built : name ∈ sizes) :
    ∃ buf, Worker.encodeThumbnail P img (Worker.thumbnailSide name) = .ok buf := by
  refine ImageProc.encodeJPEG_thumbnail P img _ ?_
  have pair : name = thumbnailSmall ∨ name = thumbnailLarge := by
    simpa [sizes,Worker.thumbnailSizes] using built
  rcases pair with rfl | rfl <;> decide

/-- Where the loop over the sizes ends, begun in `w`: all thumbnails are stored, or a call
was lost. -/
def Stores (faulty : Bool) (first last : Snapshot) (w : World) (all : GoMap) (result : Except Err GoMap)
    (w' : World) : Prop :=
  first.Toward last w'.snapshot ∧ w'.avatars = w.avatars ∧
    ((faulty = true ∧ ∃ err, result = .error err) ∨ (result = .ok all ∧ w'.objects = last.objects))

/-- The loop over the sizes, by induction on the thumbnails still to be stored. -/
theorem uploadEach_lands {first last : Snapshot} (avatar : Avatar) {img : P.Image} {names : List GoString}
    {thumbnails : GoMap} {w : World} (takes : storable avatar.userID avatar.id = true)
    (final : last.objects = (first.withThumbnails P avatar.userID avatar.id img).objects)
    (rows : w.snapshot.rows = first.rows)
    (objects : ∀ key, w.objects key = first.objects key ∨ w.objects key = last.objects key)
    (built : ∀ name ∈ sizes, name ∉ names →
      w.objects (thumbnailObjectKey avatar.userID avatar.id name) =
        last.objects (thumbnailObjectKey avatar.userID avatar.id name))
    (inside : ∀ name ∈ names, name ∈ sizes) :
    Safe (Attempted faulty) (fun w' => first.Toward last w'.snapshot)
      (Stores faulty first last w (thumbnails ++ names.map (thumbnailEntry avatar.userID avatar.id)))
      (Worker.uploadEach P ⟨⟨none⟩,⟨none⟩,maxPixels⟩ avatar img names thumbnails) w := by
  have toward : first.Toward last w.snapshot := .inl ⟨rows,objects⟩
  induction names generalizing w thumbnails with
  | nil =>
    refine ⟨toward,toward,rfl,.inr ⟨by simp,funext fun key => ?_⟩⟩
    by_cases thumbnail : ∃ name ∈ sizes, thumbnailObjectKey avatar.userID avatar.id name = key
    · obtain ⟨name,size,rfl⟩ := thumbnail
      exact built name size (by simp)
    · have other : ∀ name ∈ sizes, thumbnailObjectKey avatar.userID avatar.id name ≠ key :=
        fun name size same => thumbnail ⟨name,size,same⟩
      have unchanged := withThumbnails_other P first avatar.userID avatar.id img other
      rw [← final] at unchanged
      rcases objects key with old | new
      · exact old.trans unchanged.symm
      · exact new
  | cons name rest ih =>
    have size := inside name List.mem_cons_self
    obtain ⟨buf,encoded⟩ := encodeThumbnail_built img size
    have accepted : S3.validateKey (thumbnailObjectKey avatar.userID avatar.id name) = .ok () := by
      have same := (storable_iff avatar.userID avatar.id size).trans takes
      cases checked : S3.validateKey (thumbnailObjectKey avatar.userID avatar.id name) with
      | ok done => rfl
      | error err =>
        rw [checked] at same
        contradiction
    have wanted : last.objects (thumbnailObjectKey avatar.userID avatar.id name) =
        some ⟨buf,ImageProc.thumbnailMIME⟩ := by
      rw [final,withThumbnails_built P first avatar.userID avatar.id img size]
      simp only [thumbnailObject,encoded]
    simp only [Worker.uploadEach,encoded,S3.Storage.put,Breaker.call_none,S3.put,accepted]
    refine ⟨toward,fun answer w' attempted => ?_⟩
    rcases attempted_putObject attempted with ⟨rfl,rfl⟩ | ⟨rfl,fault,err,rfl⟩
    · obtain ⟨after,put⟩ : ∃ after, after = w.put (thumbnailObjectKey avatar.userID avatar.id name)
        ⟨buf,ImageProc.thumbnailMIME⟩ := ⟨_,rfl⟩
      have rows' : after.snapshot.rows = first.rows := by rw [put]; exact rows
      have avatars : after.avatars = w.avatars := by rw [put]; rfl
      have step : ∀ key, after.objects key =
          if key = thumbnailObjectKey avatar.userID avatar.id name then
            some ⟨buf,ImageProc.thumbnailMIME⟩ else w.objects key := by
        intro key
        simp [put,World.put,Function.update_apply]
      have objects' : ∀ key, after.objects key = first.objects key ∨
          after.objects key = last.objects key := by
        intro key
        rw [step]
        split
        · next here =>
          rw [here,wanted]
          exact .inr rfl
        · exact objects key
      have built' : ∀ other ∈ sizes, other ∉ rest →
          after.objects (thumbnailObjectKey avatar.userID avatar.id other) =
            last.objects (thumbnailObjectKey avatar.userID avatar.id other) := by
        intro other size absent
        rw [step]
        split
        · next here =>
          rw [here,wanted]
        · next different =>
          refine built other size ?_
          rw [List.mem_cons,not_or]
          exact ⟨fun same => different (congrArg _ same),absent⟩
      have others := fun other member => inside other (List.mem_cons_of_mem _ member)
      have later : Safe (Attempted faulty) _ _ (Worker.uploadEach P ⟨⟨none⟩,⟨none⟩,maxPixels⟩ avatar
          img rest (thumbnails ++ [thumbnailEntry avatar.userID avatar.id name])) after :=
        ih rows' objects' built' others (.inl ⟨rows',objects'⟩)
      rw [List.append_assoc] at later
      unfold Stores at later ⊢
      rw [avatars] at later
      rw [← put]
      exact later
    · exact ⟨toward,toward,rfl,.inl ⟨fault,_,rfl⟩⟩

/-- When the storage refuses the keys, the loop ends before its first PUT. -/
theorem uploadEach_refused (avatar : Avatar) (img : P.Image) {names : List GoString} (thumbnails : GoMap)
    (refuses : storable avatar.userID avatar.id = false) (perm : names.Perm sizes) (maxPixels : Int64) :
    ∃ err, Worker.uploadEach P ⟨⟨none⟩,⟨none⟩,maxPixels⟩ avatar img names thumbnails =
      .done (.error err) := by
  cases names with
  | nil => exact absurd perm.length_eq (by decide)
  | cons name rest =>
    have size : name ∈ sizes := perm.mem_iff.mp List.mem_cons_self
    obtain ⟨buf,encoded⟩ := encodeThumbnail_built img size
    have same := (storable_iff avatar.userID avatar.id size).trans refuses
    simp only [Worker.uploadEach,encoded,S3.Storage.put,Breaker.call_none,S3.put]
    cases checked : S3.validateKey (thumbnailObjectKey avatar.userID avatar.id name) with
    | error err => exact ⟨err,rfl⟩
    | ok done =>
      rw [checked] at same
      contradiction

/-- The UPDATE after the last thumbnail, in whichever order they were stored. -/
theorem completed_snapshot {w after : World} {r : Row} (img : P.Image) {names : List GoString}
    (found : after.avatars.find r.id = some r) (avatars : after.avatars = w.avatars)
    (stored : after.objects = (w.snapshot.withThumbnails P r.userID r.id img).objects)
    (perm : names.Perm sizes) :
    (after.write (r.completed (Postgres.marshalThumbnails
        ([] ++ names.map (thumbnailEntry r.userID r.id))) (ImageProc.dimensions P img).1
        (ImageProc.dimensions P img).2 after.now)).snapshot =
      (w.snapshot.withThumbnails P r.userID r.id img).setRow r.id
        (r.undated.completed (Postgres.marshalThumbnails (thumbnailKeys r.userID r.id))
          (ImageProc.dimensions P img).1 (ImageProc.dimensions P img).2 0) := by
  have rows : after.snapshot.rows = w.snapshot.rows := by simp only [World.snapshot,avatars]
  have written := snapshot_write (r.completed (Postgres.marshalThumbnails
    ([] ++ names.map (thumbnailEntry r.userID r.id))) (ImageProc.dimensions P img).1
    (ImageProc.dimensions P img).2 after.now) found rfl
  rw [written,List.nil_append,marshal_thumbnails r.userID r.id perm]
  refine Snapshot.ext ?_ stored
  rw [Snapshot.setRow,rows]
  rfl

/-- The run from the original on, by what the image decodes to. -/
theorem processOriginal_lands {event : AvatarUploadEvent} {id : UUID} {r : Row} {m : GoMap}
    {original : Object} {w : World} (found : w.avatars.find r.id = some r) (same : r.id = id)
    (unfinished : r.processingStatus ≠ .completed)
    (todo : Unfinished P event w.snapshot id r.undated original) :
    Lands faulty w.snapshot (uploadOutcome P maxPixels event w.snapshot)
      (match ImageProc.decode P original.body maxPixels with
        | .error _ => do
          match ← Postgres.setProcessingStatus id .failed with
          | .error statusErr => return .error statusErr
          | .ok () => return .ok ()
        | .ok img => do
          match ← Worker.uploadThumbnails P ⟨⟨none⟩,⟨none⟩,maxPixels⟩ (Postgres.toAvatar r m) img with
          | .error err => return .error err
          | .ok thumbnails =>
            match ← Postgres.updateProcessingResult id thumbnails (ImageProc.dimensions P img).1
              (ImageProc.dimensions P img).2 with
            | .error err => return .error err
            | .ok _ => return (.ok () : Except Err Unit)) w := by
  subst same
  have outcome := todo.outcome maxPixels
  cases decoded : ImageProc.decode P original.body maxPixels with
  | error err =>
    simp only [decoded] at outcome ⊢
    rw [outcome]
    refine ⟨Snapshot.toward_first _ _,fun answer w' attempted => ?_⟩
    simp only [bind_eq,done_bind,pure_eq]
    rcases attempted_updateStatus found attempted with rfl | ⟨rfl,fault⟩
    · have done := snapshot_write (r.withStatus .failed w.now) found rfl
      have landed : (w.write (r.withStatus .failed w.now)).snapshot =
          w.snapshot.setRow r.id (r.undated.withStatus .failed 0) := done
      split
      · exact lands_done landed
      · exact lands_done landed
    · split
      · exact lands_lost fault (Snapshot.toward_first _ _)
      · exact lands_lost fault (Snapshot.toward_first _ _)
  | ok img =>
    simp only [decoded] at outcome ⊢
    refine ⟨Snapshot.toward_first _ _,fun order w' attempted => ?_⟩
    obtain rfl := attempted_iterate attempted
    have perm : order.val.Perm sizes := order.property
    cases takes : storable r.userID r.id with
    | false =>
      have quiet : uploadOutcome P maxPixels event w'.snapshot = w'.snapshot := by
        rw [outcome]
        simp only [Row.undated,takes,Bool.false_eq_true,if_false]
      obtain ⟨err,refused⟩ := uploadEach_refused (Postgres.toAvatar r m) img [] takes perm maxPixels
      simp only [bind_eq,done_bind,refused]
      exact lands_done quiet.symm
    | true =>
      have outcome : uploadOutcome P maxPixels event w'.snapshot =
          (w'.snapshot.withThumbnails P r.userID r.id img).setRow r.id
            (r.undated.completed (Postgres.marshalThumbnails (thumbnailKeys r.userID r.id))
              (ImageProc.dimensions P img).1 (ImageProc.dimensions P img).2 0) := by
        rw [outcome]
        simp only [Row.undated,takes,if_true]
      rw [outcome]
      simp only [bind_eq,done_bind]
      refine Safe.bind (uploadEach_lands (Postgres.toAvatar r m) takes rfl rfl
        (fun _ => .inl rfl) ?_ fun name member => perm.mem_iff.mp member) fun result after known => ?_
      · exact fun name size absent => absurd (perm.mem_iff.mpr size) absent
      · obtain ⟨toward,avatars,⟨fault,err,rfl⟩ | ⟨rfl,stored⟩⟩ := known
        · exact lands_lost fault toward
        · have found' : after.avatars.find r.id = some r := by rw [avatars]; exact found
          refine ⟨toward,fun answer final attempted => ?_⟩
          simp only [bind_eq,done_bind,pure_eq]
          rcases attempted_updateResult found' unfinished attempted with rfl | ⟨rfl,fault⟩
          · have landed := completed_snapshot img found' avatars stored perm
            split
            · exact lands_done landed
            · exact lands_done landed
          · split
            · exact lands_lost fault toward
            · exact lands_lost fault toward

theorem processUpload_lands (event : AvatarUploadEvent) (w : World) :
    Lands faulty w.snapshot (uploadOutcome P maxPixels event w.snapshot)
      (Worker.processUpload P ⟨⟨none⟩,⟨none⟩,maxPixels⟩ event) w := by
  have start := Snapshot.toward_first w.snapshot (uploadOutcome P maxPixels event w.snapshot)
  unfold Worker.processUpload
  cases parsed : P.uuidParse event.avatarID with
  | error err => exact lands_done (by simp only [uploadOutcome,parsed])
  | ok id =>
    refine ⟨start,fun answer w' attempted => ?_⟩
    obtain ⟨rfl,answered⟩ := attempted_selectByID attempted
    simp only [bind_eq,done_bind,pure_eq]
    -- a lost call and an unreadable row end the run before anything is changed
    have ends : ∀ err : Err, Postgres.getByIDResult id answer = .error err →
        (faulty = true ∨ uploadOutcome P maxPixels event w'.snapshot = w'.snapshot) →
        Lands faulty w'.snapshot (uploadOutcome P maxPixels event w'.snapshot)
          (if err.is .avatarNotFound = true then .done (.ok ()) else .done (.error err) :
            Prog (Except Err Unit)) w' := by
      rintro err - (fault | quiet)
      · split
        · exact lands_lost fault start
        · exact lands_lost fault start
      · split
        · exact lands_done quiet.symm
        · exact lands_done quiet.symm
    rcases answered with rfl | ⟨fault,err,rfl⟩
    · have seen := snapshot_live w' id
      cases alive : w'.live id with
      | none =>
        rw [alive] at seen
        obtain ⟨err',failed⟩ := Postgres.getByIDResult_error id .noRows
        simp only [World.rowOr,failed]
        refine ends err' (by rw [alive]; exact failed) (.inr ?_)
        simp only [uploadOutcome,parsed,seen,Option.map_none]
      | some r =>
        rw [alive] at seen
        have found := (World.live_iff.mp alive).1
        have same : r.id = id := Table.find_key found
        cases decoded : Postgres.unmarshalThumbnails r.thumbnailS3Keys with
        | error err =>
          have failed : Postgres.getByIDResult id (.ok r) =
              .error (.errorf "get avatar %s: %w" [id.string] err) := by
            simp only [Postgres.getByIDResult,Postgres.scanAvatar,decoded]
          simp only [World.rowOr,failed]
          refine ends _ (by rw [alive]; exact failed) (.inr ?_)
          simp only [uploadOutcome,parsed,seen,Option.map_some,Row.undated,decoded]
        | ok m =>
          have read : Postgres.getByIDResult id (.ok r) = .ok (Postgres.toAvatar r m) := by
            simp only [Postgres.getByIDResult,Postgres.scanAvatar,decoded]
          simp only [World.rowOr,read]
          have processed : (Postgres.toAvatar r m).isProcessed = true ↔
              r.processingStatus = .completed := beq_iff_eq
          by_cases finished : r.processingStatus = .completed
          · rw [if_pos (processed.mpr finished)]
            refine lands_done ?_
            simp only [uploadOutcome,parsed,seen,Option.map_some,Row.undated,decoded,finished,if_true]
          · rw [if_neg (fun done => finished (processed.mp done))]
            have unfetched : w'.snapshot.fetch r.s3Key = none →
                w'.snapshot = uploadOutcome P maxPixels event w'.snapshot := by
              intro absent
              simp only [uploadOutcome,parsed,seen,Option.map_some,Row.undated,decoded,finished,
                absent,if_false]
            have key : (Postgres.toAvatar r m).s3Key = r.s3Key := rfl
            simp only [S3.Storage.get,Breaker.call_none,S3.get,key]
            cases accepted : S3.validateKey r.s3Key with
            | error err =>
              refine lands_done (unfetched ?_)
              simp [Snapshot.fetch,accepted,Except.isOk,Except.toBool]
            | ok done =>
              refine ⟨start,fun answer after attempted => ?_⟩
              have fetch : w'.snapshot.fetch r.s3Key = w'.objects r.s3Key := by
                simp [Snapshot.fetch,accepted,Except.isOk,Except.toBool,World.snapshot]
              obtain ⟨rfl,⟨original,present,rfl⟩ | ⟨err,rfl,missing⟩⟩ := attempted_getObject attempted
              · have todo : Unfinished P event after.snapshot id r.undated original :=
                  ⟨parsed,seen,⟨m,decoded⟩,finished,fetch.trans present⟩
                exact processOriginal_lands (same ▸ found) same finished todo
              · obtain ⟨err',failed⟩ := S3.getResult_error r.s3Key err
                simp only [bind_eq,done_bind,pure_eq,failed]
                rcases missing with absent | fault
                · exact lands_done (unfetched (fetch.trans absent))
                · exact lands_lost fault start
    · obtain ⟨err',failed⟩ := Postgres.getByIDResult_error id err
      rw [failed]
      exact ends err' failed (.inl fault)

theorem Delivery.lands (P : Packages) (maxPixels : Int64) (d : Delivery) (w : World) :
    Lands faulty w.snapshot (d.outcome P maxPixels w.snapshot) (d.handle P maxPixels) w := by
  cases d with
  | upload body =>
    cases decoded : P.unmarshalUpload body with
    | error err =>
      simp only [handle,Worker.handleUpload,outcome,decoded]
      exact lands_done rfl
    | ok event =>
      simp only [handle,Worker.handleUpload,outcome,decoded]
      exact processUpload_lands event w
  | delete body =>
    cases decoded : P.unmarshalDelete body with
    | error err =>
      simp only [handle,Worker.handleDelete,outcome,decoded]
      exact lands_done rfl
    | ok event =>
      simp only [handle,Worker.handleDelete,outcome,decoded]
      exact processDelete_lands event w

/-! ### Runs after runs -/

theorem Delivery.kept_refl (d : Delivery) (s : Snapshot) : d.Kept P s s := fun _ _ _ _ _ _ _ _ => rfl

/-- Runs given up one after another leave the store on the way to one outcome. -/
theorem Delivery.retried {d : Delivery} {w w' : World}
    (attempts : Retried (Attempted faulty) (fun w' => d.Kept P w.snapshot w'.snapshot)
      (d.handle P maxPixels) w w') :
    w.snapshot.Toward (d.outcome P maxPixels w.snapshot) w'.snapshot ∧ d.Kept P w.snapshot w'.snapshot := by
  refine attempts.invariant
    (fun w' => w.snapshot.Toward (d.outcome P maxPixels w.snapshot) w'.snapshot)
    (Snapshot.toward_first _ _) (d.kept_refl _) ?_
  intro before after toward kept cut
  have further := (lands P maxPixels d before).cutOff cut
  rw [outcome_absorbs toward kept] at further
  exact toward.trans further

/-- The original that an upload event is about is not one of its thumbnails. -/
def Delivery.Apart (P : Packages) (d : Delivery) (s : Snapshot) : Prop :=
  ∀ body event id r, d = .upload body → P.unmarshalUpload body = .ok event →
    P.uuidParse event.avatarID = .ok id → s.live id = some r →
    ∀ name ∈ sizes, thumbnailObjectKey r.userID id name ≠ r.s3Key

theorem Delivery.kept_of_apart {d : Delivery} {first s : Snapshot} (apart : d.Apart P first)
    (toward : first.Toward (d.outcome P maxPixels first) s) : d.Kept P first s := by
  rintro body event rfl decoded id r parsed live
  simp only [outcome,decoded] at toward
  have same := uploadOutcome_original maxPixels parsed live
    (apart body event id r rfl decoded parsed live)
  rcases toward with ⟨_,objects⟩ | rfl
  · rcases objects r.s3Key with old | new
    · rw [old]
    · rw [new,same]
  · rw [same]

/-- Then no run touches it, and nothing needs to be assumed of it. -/
theorem Delivery.retried_of_apart {d : Delivery} {w w' : World} (apart : d.Apart P w.snapshot)
    (attempts : Relation.ReflTransGen (CutOff (Attempted faulty) (d.handle P maxPixels)) w w') :
    Retried (Attempted faulty) (fun w' => d.Kept P w.snapshot w'.snapshot) (d.handle P maxPixels) w w' := by
  induction attempts with
  | refl => exact .refl
  | @tail before after _ cut ih =>
    obtain ⟨toward,kept⟩ := retried ih
    have further := (lands P maxPixels d before).cutOff cut
    rw [outcome_absorbs toward kept] at further
    exact .tail ih ⟨cut,kept_of_apart apart (toward.trans further)⟩

/-- Every row of the system keeps its original apart. -/
theorem Delivery.apart_of_sound (d : Delivery) {w : World} (sound : w.Sound) : d.Apart P w.snapshot := by
  rintro body event id r rfl decoded parsed live name size
  rw [snapshot_live] at live
  obtain ⟨r',alive,rfl⟩ := Option.map_eq_some_iff.mp live
  have found := (World.live_iff.mp alive).1
  have row := (sound.rows id r' found).1
  intro same
  have key : r'.s3Key = originalObjectKey r'.userID r'.id := row.s3Key
  exact original_ne_thumbnail row.valid row.valid r'.id id name (key.symm.trans same.symm)

/-- In a world of the system, the run that gets through reaches the outcome of the first. -/
theorem Delivery.settles {d : Delivery} {w w' last : World} {result : Except Err Unit}
    {calls : List ((c : Call) × c.Answer)} (sound : w.Sound)
    (attempts : Relation.ReflTransGen (CutOff (Attempted true) (d.handle P maxPixels)) w w')
    (again : Runs (Attempted false) (d.handle P maxPixels) w' calls result last) :
    last.snapshot = d.outcome P maxPixels w.snapshot := by
  obtain ⟨toward,kept⟩ := retried (retried_of_apart (d.apart_of_sound sound) attempts)
  rw [← outcome_absorbs toward kept]
  exact ((lands P maxPixels d w').runs again).2 rfl

/-- However often a delivery has been begun and given up, the run that gets through leaves
the rows, up to `updated_at`, and the objects of a single undisturbed run. -/
theorem redelivery_harmless (d : Delivery) {w w' last once : World} {result result' : Except Err Unit}
    {calls calls' : List ((c : Call) × c.Answer)}
    (attempts : Retried (Attempted true) (fun w' => d.Kept P w.snapshot w'.snapshot)
      (d.handle P maxPixels) w w')
    (again : Runs (Attempted false) (d.handle P maxPixels) w' calls result last)
    (alone : Runs (Attempted false) (d.handle P maxPixels) w calls' result' once) :
    last.snapshot = once.snapshot := by
  obtain ⟨toward,kept⟩ := Delivery.retried attempts
  have landed := ((Delivery.lands P maxPixels d w').runs again).2 rfl
  have direct := ((Delivery.lands P maxPixels d w).runs alone).2 rfl
  rw [landed,direct,Delivery.outcome_absorbs toward kept]

namespace Delivery

/-- How a call of an example goes: it takes effect, or is lost. -/
def attempt (c : Call) : Option Pick → World → Option (c.Answer × World)
  | some pick, w => World.effect c pick w
  | none, w => (World.failed c .deadlineExceeded).map fun answer => (answer,w)

theorem attempted_of_attempt (c : Call) (choice : Option Pick) (w : World) (answer : c.Answer) (w' : World)
    (done : attempt c choice w = some (answer,w')) : Attempted true c w answer w' := by
  cases choice with
  | some pick => exact .inl ⟨pick,done⟩
  | none =>
    obtain ⟨refusal,refused,equal⟩ := Option.map_eq_some_iff.mp done
    cases equal
    exact .inr ⟨rfl,rfl,.deadlineExceeded,refused⟩

def message : GoString :=
  lit "\x7b\"avatar_id\":\"00000000-0000-0000-0000-000000000000\",\"user_id\":\"ann\",\"s3_key\":\"avatars/ann/00000000-0000-0000-0000-000000000000/original\"\x7d"

/-- The sample functions with a decoder that knows one message. -/
def packages : Packages :=
  { Packages.sample with
    unmarshalUpload := fun body =>
      if body = message then .ok ⟨UUID.nil.string,lit "ann",originalObjectKey (lit "ann") .nil⟩
      else .error (.new "unexpected end of JSON input" []) }

/-- One avatar has been uploaded. -/
def uploaded : World :=
  { (World.initial fun _ => .fresh 5).put (originalObjectKey (lit "ann") .nil)
      ⟨Packages.samplePicture,lit "image/png"⟩ with
    avatars := ⟨[Row.ofInsert (AvatarService.newAvatar
      ⟨lit "ann",lit "a.png",lit "image/png",69,Packages.samplePicture⟩ .nil)
      (Postgres.marshalThumbnails []) 0],List.nodup_singleton _⟩ }

theorem uploaded_apart : (upload message).Apart packages uploaded.snapshot := by
  rintro body event id r - - - live name size same
  rw [snapshot_live] at live
  obtain ⟨r',alive,rfl⟩ := Option.map_eq_some_iff.mp live
  obtain rfl := List.mem_singleton.mp (Table.find_mem (World.live_iff.mp alive).1)
  have valid : validateUserID (lit "ann") = .ok () := by decide
  exact original_ne_thumbnail valid valid .nil id name same.symm

def run : Prog (Except Err Unit) := (upload message).handle packages 1000

/-- Up to the first thumbnail; up to an UPDATE that is lost; and to the end. -/
def cut : List (Option Pick) :=
  [some .none,some .none,some (.order [thumbnailLarge,thumbnailSmall]),some .none]

def refused : List (Option Pick) :=
  [some .none,some .none,some (.order [thumbnailSmall,thumbnailLarge]),some .none,some .none,none]

def whole : List Pick := [.none,.none,.order [thumbnailSmall,thumbnailLarge],.none,.none,.none]

def hasStatus (status : ProcessingStatus) (w : World) : Bool :=
  (w.avatars.find .nil).any fun r => r.processingStatus == status

end Delivery

open Delivery in
/-- An upload event is handled twice in vain and then to the end. -/
theorem redelivery_harmless_upload : ∃ w' last once : World,
    (w'.objects (thumbnailObjectKey (lit "ann") .nil thumbnailLarge)).isSome = true ∧
      hasStatus .pending w' = true ∧ hasStatus .completed last = true ∧ last.snapshot = once.snapshot := by
  have test : ((Prog.follow attempt cut run uploaded).any fun r =>
      (Prog.follow attempt refused run r.2).any fun r' =>
        (r'.2.objects (thumbnailObjectKey (lit "ann") .nil thumbnailLarge)).isSome &&
          hasStatus .pending r'.2 &&
          (Prog.follow (fun c pick w => World.effect c pick w) whole run r'.2).any fun r'' =>
            hasStatus .completed r''.2 && r''.1.isDone) = true := by decide +kernel
  have alone : ((Prog.follow (fun c pick w => World.effect c pick w) whole run uploaded).any
      fun r => r.1.isDone) = true := by decide +kernel
  obtain ⟨⟨p₁,w₁⟩,one,test⟩ := (Option.any_eq_true _ _).mp test
  obtain ⟨⟨p₂,w₂⟩,two,test⟩ := (Option.any_eq_true _ _).mp test
  simp only [Bool.and_eq_true] at test
  obtain ⟨⟨stored,pending⟩,test⟩ := test
  obtain ⟨⟨p₃,last⟩,three,test⟩ := (Option.any_eq_true _ _).mp test
  simp only [Bool.and_eq_true] at test
  obtain ⟨completed,done⟩ := test
  obtain ⟨⟨p₄,once⟩,four,done'⟩ := (Option.any_eq_true _ _).mp alone
  obtain ⟨value,rfl⟩ := Prog.isDone_iff.mp done
  obtain ⟨value',rfl⟩ := Prog.isDone_iff.mp done'
  have effects : ∀ c pick w answer w', World.effect c pick w = some (answer,w') →
      Attempted false c w answer w' := fun c pick w answer w' done => .inl ⟨pick,done⟩
  obtain ⟨calls,again⟩ := Prog.follow_runs effects three
  obtain ⟨calls',direct⟩ := Prog.follow_runs effects four
  have attempts : Relation.ReflTransGen (CutOff (Attempted true) run) uploaded w₂ :=
    (Relation.ReflTransGen.refl.tail (Prog.follow_cutOff attempted_of_attempt one)).tail
      (Prog.follow_cutOff attempted_of_attempt two)
  exact ⟨w₂,last,once,stored,pending,completed,
    redelivery_harmless (upload message) (retried_of_apart uploaded_apart attempts) again direct⟩

end GophProfile

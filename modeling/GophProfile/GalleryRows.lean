import GophProfile.Gallery
import GophProfile.Ownership

/-! The gallery that the table `avatars` stands for, and every statement as the operation of the
gallery that it is. -/
namespace GophProfile

open Domain

/-- What is shown of a row. -/
def picture (r : Row) : Option Avatar :=
  if r.live then (Postgres.scanAvatar (.ok r)).toOption else none

def World.gallery (w : World) : Gallery where
  avatars := w.avatars.rows.filterMap picture
  taken id := (w.avatars.find id).isSome

theorem Row.Sound.scanned {r : Row} (sound : r.Sound) :
    ∃ thumbnails, Postgres.scanAvatar (.ok r) = .ok (Postgres.toAvatar r thumbnails) := by
  obtain ⟨thumbnails,decoded,-⟩ := sound.readable
  exact ⟨thumbnails,by simp [Postgres.scanAvatar,decoded]⟩

theorem picture_live {r : Row} (sound : r.Sound) (live : r.live = true) :
    ∃ a, Postgres.scanAvatar (.ok r) = .ok a ∧ picture r = some a := by
  obtain ⟨thumbnails,scanned⟩ := sound.scanned
  exact ⟨_,scanned,by simp [picture,live,scanned,Except.toOption]⟩

theorem picture_deleted {r : Row} (deleted : r.live = false) : picture r = none := by
  simp [picture,deleted]

theorem picture_some {r : Row} {a : Avatar} (shown : picture r = some a) :
    r.live = true ∧ Postgres.scanAvatar (.ok r) = .ok a ∧ ∃ thumbnails, a = Postgres.toAvatar r thumbnails := by
  unfold picture at shown
  split at shown
  · next live =>
    cases scanned : Postgres.scanAvatar (.ok r) with
    | error err =>
      rw [scanned] at shown
      contradiction
    | ok b =>
      rw [scanned] at shown
      obtain rfl : b = a := Option.some.inj shown
      obtain ⟨r',thumbnails,same,-,rfl⟩ := Postgres.scanAvatar_ok scanned
      cases same
      exact ⟨live,rfl,thumbnails,rfl⟩
  · contradiction

/-- The keys of the two thumbnails stand in the order of their names. -/
theorem sortedByKey_thumbnailKeys (userID : GoString) (id : UUID) :
    Postgres.sortedByKey (thumbnailKeys userID id) = thumbnailKeys userID id := by
  have less : Postgres.bytesLE thumbnailSmall thumbnailLarge = true := by decide
  simp [Postgres.sortedByKey,thumbnailKeys,less]

/-! ### The order of the rows -/

/-- Rows stand in the order of their creation, and no time lies ahead. -/
structure World.Ordered (w : World) : Prop where
  newest : w.avatars.rows.Pairwise fun a b => b.createdAt < a.createdAt
  past : ∀ r ∈ w.avatars.rows, r.createdAt < w.now ∧ r.updatedAt < w.now

namespace World

variable {w w' : World}

theorem initial_ordered (breakers : Dependency → BreakerState) : Ordered (initial breakers) :=
  ⟨List.Pairwise.nil,by simp [initial,Table.empty]⟩

theorem Ordered.same (ordered : w.Ordered) (avatars : w'.avatars = w.avatars) (now : w.now ≤ w'.now) :
    w'.Ordered := by
  refine ⟨avatars ▸ ordered.newest,fun r member => ?_⟩
  obtain ⟨created,updated⟩ := ordered.past r (avatars ▸ member)
  exact ⟨Nat.lt_of_lt_of_le created now,Nat.lt_of_lt_of_le updated now⟩

/-- The only row of the table with the id of one that is there. -/
theorem row_unique {r x : Row} (found : w.avatars.find r.id = some r) (member : x ∈ w.avatars.rows)
    (same : x.id = r.id) : x = r := by
  have there := Table.mem_iff_find.mp member
  rw [same,found] at there
  exact (Option.some.inj there).symm

theorem Ordered.write (ordered : w.Ordered) {r r' : Row} (found : w.avatars.find r.id = some r)
    (id : r'.id = r.id) (created : r'.createdAt = r.createdAt) (updated : r'.updatedAt = w.now) :
    (w.write r').Ordered := by
  have times : ∀ x ∈ w.avatars.rows, (if x.id = r'.id then r' else x).createdAt = x.createdAt := by
    intro x member
    split
    · next same => rw [row_unique found member (same.trans id),created]
    · rfl
  constructor
  · apply List.pairwise_map.mpr
    apply ordered.newest.imp_of_mem
    intro a b first second later
    rw [times a first,times b second]
    exact later
  · intro x member
    obtain ⟨y,inside,rfl⟩ := List.mem_map.mp member
    obtain ⟨before,changed⟩ := ordered.past y inside
    rw [times y inside]
    refine ⟨Nat.lt_succ_of_lt before,?_⟩
    split
    · rw [updated]
      exact Nat.lt_succ_self _
    · exact Nat.lt_succ_of_lt changed

theorem Changed.ordered {c : Call} (changed : Changed w c w') (ordered : w.Ordered) : w'.Ordered := by
  cases changed with
  | inserted a thumbs avatars done =>
    have rows : avatars.rows = Row.ofInsert a thumbs w.now :: w.avatars.rows := Table.rows_insert done
    refine ⟨?_,fun r member => ?_⟩
    · rw [World.inserted,rows]
      exact List.pairwise_cons.mpr ⟨fun r member => (ordered.past r member).1,ordered.newest⟩
    · rw [World.inserted,rows] at member
      rcases List.mem_cons.mp member with rfl | old
      · exact ⟨Nat.lt_succ_self _,Nat.lt_succ_self _⟩
      · obtain ⟨created,updated⟩ := ordered.past r old
        exact ⟨Nat.lt_succ_of_lt created,Nat.lt_succ_of_lt updated⟩
  | deleted r found => exact ordered.write found rfl rfl rfl
  | completed r thumbs width height found => exact ordered.write found rfl rfl rfl
  | status r status found => exact ordered.write found rfl rfl rfl
  | _ => exact ordered.same rfl (Nat.le_refl _)

theorem environment_ordered {event : Event} (moved : environment event w = some w') (ordered : w.Ordered) :
    w'.Ordered := ordered.same (environment_avatars moved) (environment_grows moved).now

/-! ### What the statements that read show -/

theorem liveOf_ordered (ordered : w.Ordered) (userID : GoString) :
    w.liveOf userID = w.avatars.rows.filter fun r => r.live && r.userID == userID := by
  apply List.Pairwise.insertionSort_eq
  apply (ordered.newest.sublist List.filter_sublist).imp
  intro a b later
  exact Nat.le_of_lt later

theorem gallery_find (w : World) (id : UUID) : w.gallery.find id = (w.live id).bind picture := by
  have only : ∀ a, w.gallery.find id = some a → (w.live id).bind picture = some a := by
    intro a found
    have same : a.id = id := by simpa using List.find?_some found
    obtain ⟨r,member,shown⟩ := List.mem_filterMap.mp (List.mem_of_find?_eq_some found)
    obtain ⟨live,-,thumbnails,rfl⟩ := picture_some shown
    have here : w.avatars.find id = some r := same ▸ Table.mem_iff_find.mp member
    simp [World.live,here,live,shown,Option.filter]
  cases shown : (w.live id).bind picture with
  | none =>
    cases found : w.gallery.find id with
    | none => rfl
    | some a => exact absurd (only a found) (by simp [shown])
  | some a =>
    obtain ⟨r,live,seen⟩ := Option.bind_eq_some_iff.mp shown
    have found := (live_iff.mp live).1
    obtain rfl := Table.find_key found
    obtain ⟨-,-,thumbnails,rfl⟩ := picture_some seen
    have inside := List.mem_filterMap.mpr ⟨r,Table.find_mem found,seen⟩
    have some : (w.gallery.find r.id).isSome = true :=
      List.find?_isSome.mpr ⟨_,inside,by simp [Postgres.toAvatar]⟩
    obtain ⟨b,there⟩ := Option.isSome_iff_exists.mp some
    have same := only b there
    rw [shown] at same
    exact there.trans same.symm

section Reading
variable (sound : w.Sound)
include sound

/-- The answer of `SELECT … WHERE id = $1 AND deleted_at IS NULL`, scanned. -/
theorem scan_live (id : UUID) : Postgres.scanAvatar (rowOr (w.live id)) =
    (match w.gallery.find id with
    | some a => .ok a
    | none => .error .avatarNotFound) := by
  rw [gallery_find]
  cases there : w.live id with
  | none => simp [rowOr,Postgres.scanAvatar,Err.is]
  | some r =>
    obtain ⟨found,alive⟩ := live_iff.mp there
    obtain ⟨a,scanned,shown⟩ := picture_live (sound.rows id r found).1 (by simp [Row.live,alive])
    simp [rowOr,scanned,shown]

theorem scan_rows {rows : List Row} (inside : ∀ r ∈ rows, r ∈ w.avatars.rows) (userID : GoString) :
    Postgres.scanAvatars (rows.filter fun r => r.live && r.userID == userID) =
      .ok ((rows.filterMap picture).filter fun a => a.userID = userID) := by
  induction rows with
  | nil => rfl
  | cons r rest ih =>
    have tail := ih fun x member => inside x (List.mem_cons_of_mem _ member)
    have row := (sound.rows r.id r (Table.mem_iff_find.mp (inside r List.mem_cons_self))).1
    cases live : r.live with
    | false =>
      rw [List.filterMap_cons_none (picture_deleted live),← tail]
      simp [live]
    | true =>
      obtain ⟨a,scanned,shown⟩ := picture_live row live
      obtain ⟨-,-,thumbnails,rfl⟩ := picture_some shown
      rw [List.filterMap_cons_some shown]
      by_cases own : r.userID = userID
      · simp [live,own,Postgres.scanAvatars,scanned,tail,Postgres.toAvatar]
      · simp [live,own,tail,Postgres.toAvatar]

/-- The answer of `SELECT … WHERE user_id = $1 … ORDER BY created_at DESC`, scanned. -/
theorem scan_liveOf (ordered : w.Ordered) (userID : GoString) :
    Postgres.scanAvatars (w.liveOf userID) = .ok (w.gallery.ofUser userID) := by
  rw [liveOf_ordered ordered]
  exact scan_rows sound (fun _ => id) userID

/-- The same with `LIMIT 1`. -/
theorem scan_current (ordered : w.Ordered) (userID : GoString) :
    Postgres.scanAvatar (rowOr (w.liveOf userID).head?) =
      (match (w.gallery.ofUser userID).head? with
      | some a => .ok a
      | none => .error .avatarNotFound) := by
  have all := scan_liveOf sound ordered userID
  cases listed : w.liveOf userID with
  | nil =>
    rw [listed] at all
    rw [← Except.ok.inj all]
    simp [rowOr,Postgres.scanAvatar,Err.is]
  | cons r rest =>
    rw [listed,Postgres.scanAvatars] at all
    split at all
    · contradiction
    · next a scanned =>
      split at all
      · contradiction
      · next avatars later =>
        rw [← Except.ok.inj all]
        simpa [rowOr] using scanned

end Reading

/-! ### What the statements that write change -/

/-- An UPDATE of a row changes its picture, or takes it away. -/
theorem gallery_write {r r' : Row} {g : Avatar → Option Avatar} (found : w.avatars.find r.id = some r)
    (id : r'.id = r.id) (shown : picture r' = (picture r).bind g) :
    (w.write r').gallery = ⟨w.gallery.avatars.filterMap fun a => if a.id = r.id then g a else some a,
      w.gallery.taken⟩ := by
  apply Gallery.ext
  · simp only [gallery,write,Table.replace]
    rw [List.filterMap_map,List.filterMap_filterMap]
    apply List.filterMap_congr
    intro x member
    rw [Function.comp_apply,id]
    by_cases same : x.id = r.id
    · obtain rfl := row_unique found member same
      rw [if_pos same,shown]
      cases seen : picture x with
      | none => rfl
      | some a =>
        obtain ⟨-,-,thumbnails,rfl⟩ := picture_some seen
        simp [Postgres.toAvatar]
    · rw [if_neg same]
      cases seen : picture x with
      | none => rfl
      | some a =>
        obtain ⟨-,-,thumbnails,rfl⟩ := picture_some seen
        simp [Postgres.toAvatar,same]
  · funext other
    simp only [gallery]
    rw [find_write]
    split <;> simp

theorem gallery_changed {r r' : Row} {f : Avatar → Avatar} (found : w.avatars.find r.id = some r)
    (id : r'.id = r.id) (shown : picture r' = (picture r).map f) :
    (w.write r').gallery = w.gallery.change r.id f := by
  have seen : picture r' = (picture r).bind fun a => some (f a) := by
    rw [shown]
    cases picture r <;> rfl
  rw [gallery_write found id seen,Gallery.change]
  congr 1
  rw [← List.filterMap_eq_map]
  apply List.filterMap_congr
  intro a _
  rw [Function.comp_apply]
  split <;> rfl

theorem gallery_deleted {r : Row} (found : w.avatars.find r.id = some r) :
    (w.write (r.deleted w.now)).gallery = w.gallery.without r.id := by
  have gone : picture (r.deleted w.now) = (picture r).bind fun _ => none := by
    rw [picture_deleted (by simp [Row.live,Row.deleted])]
    cases picture r <;> rfl
  have id : (r.deleted w.now).id = r.id := rfl
  rw [gallery_write found id gone,Gallery.without]
  congr 1
  rw [← List.filterMap_eq_filter]
  apply List.filterMap_congr
  intro a _
  by_cases same : a.id = r.id <;> simp [Option.guard,same]

/-- The statement of a worker that has made the thumbnails; it leaves a completed row alone. -/
theorem gallery_completed {r : Row} (sound : r.Sound) (found : w.avatars.find r.id = some r)
    (width height : Int64) (unfinished : r.processingStatus ≠ .completed) :
    (w.write (r.completed (Postgres.marshalThumbnails (thumbnailKeys r.userID r.id)) width height w.now)).gallery =
      w.gallery.change r.id (Gallery.completed width height w.now) := by
  have id : (r.completed (Postgres.marshalThumbnails (thumbnailKeys r.userID r.id)) width height w.now).id = r.id := rfl
  refine gallery_changed found id ?_
  cases live : r.live with
  | false =>
    rw [picture_deleted live]
    exact picture_deleted live
  | true =>
    obtain ⟨a,scanned,shown⟩ := picture_live sound live
    obtain ⟨-,-,thumbnails,rfl⟩ := picture_some shown
    have processed : ¬(Postgres.toAvatar r thumbnails).isProcessed = true := by
      simpa [Avatar.isProcessed,Postgres.toAvatar] using unfinished
    have alive : (r.completed (Postgres.marshalThumbnails (thumbnailKeys r.userID r.id)) width height w.now).live =
      true := live
    rw [shown,picture,if_pos alive,Option.map_some,Gallery.completed,if_neg processed]
    simp [Postgres.scanAvatar,Row.completed,Postgres.unmarshal_marshal,sortedByKey_thumbnailKeys,Except.toOption,
      Postgres.toAvatar]

theorem gallery_failed {r : Row} (sound : r.Sound) (found : w.avatars.find r.id = some r) :
    (w.write (r.withStatus .failed w.now)).gallery = w.gallery.change r.id (Gallery.unreadable w.now) := by
  have id : (r.withStatus .failed w.now).id = r.id := rfl
  refine gallery_changed found id ?_
  cases live : r.live with
  | false =>
    rw [picture_deleted live]
    exact picture_deleted live
  | true =>
    obtain ⟨thumbnails,decoded,-⟩ := sound.readable
    have alive : (r.withStatus .failed w.now).live = true := live
    rw [picture,picture,if_pos alive,if_pos live]
    simp [Postgres.scanAvatar,Row.withStatus,decoded,Except.toOption,Gallery.unreadable,Postgres.toAvatar]

theorem gallery_inserted (input : UploadInput) (id : UUID) {avatars : Table Row.id}
    (done : w.avatars.insert (Row.ofInsert (AvatarService.newAvatar input id) (Postgres.marshalThumbnails []) w.now) =
      some avatars) :
    (w.inserted avatars (Row.ofInsert (AvatarService.newAvatar input id) (Postgres.marshalThumbnails []) w.now)).gallery =
      w.gallery.add (Gallery.added input id w.now) := by
  have shown : picture (Row.ofInsert (AvatarService.newAvatar input id) (Postgres.marshalThumbnails []) w.now) =
      some (Gallery.added input id w.now) := by
    simp [picture,Row.live,Row.ofInsert,Postgres.scanAvatar,Postgres.unmarshal_marshal,Postgres.sortedByKey,
      Except.toOption,Postgres.toAvatar,Gallery.added,AvatarService.newAvatar]
  apply Gallery.ext
  · simp only [gallery,Gallery.add,World.inserted]
    rw [Table.rows_insert done,List.filterMap_cons_some shown]
  · funext other
    simp only [gallery,Gallery.add]
    rw [find_inserted done]
    by_cases same : other = id
    · simp [same,Gallery.added,AvatarService.newAvatar]
    · simp [same,Gallery.added,AvatarService.newAvatar]

end World

end GophProfile

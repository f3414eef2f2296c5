import GophProfile.Service

/-! What the service is for, without its tables, objects and messages: a gallery of avatars in
which users put and delete their own, and workers report what they made of a picture. -/
namespace GophProfile

open Domain

/-- The avatars that are not deleted, newest first, and the ids that were ever given. -/
@[ext] structure Gallery where
  avatars : List Avatar
  taken : UUID → Bool

namespace Gallery

def empty : Gallery := ⟨[],fun _ => false⟩

section Operations
variable (g : Gallery)

def find (id : UUID) : Option Avatar := g.avatars.find? fun a => a.id = id

def ofUser (userID : GoString) : List Avatar := g.avatars.filter fun a => a.userID = userID

def add (a : Avatar) : Gallery := ⟨a :: g.avatars,fun id => decide (id = a.id) || g.taken id⟩

def without (id : UUID) : Gallery := { g with avatars := g.avatars.filter fun a => a.id ≠ id }

def change (id : UUID) (f : Avatar → Avatar) : Gallery :=
  { g with avatars := g.avatars.map fun a => if a.id = id then f a else a }

end Operations

inductive Op where
  | upload (input : UploadInput)
  | delete (id : UUID) (userID : GoString)
  | metadata (id : UUID)
  | current (userID : GoString)
  | list (userID : GoString)
  /-- A worker has made the thumbnails, or could not read the picture. -/
  | complete (id : UUID) (width height : Int64)
  | fail (id : UUID)

inductive Answer where
  | avatar (a : Avatar)
  | avatars (all : List Avatar)
  | done
  | notFound
  | forbidden
  | invalidUserID
  | failed

def added (input : UploadInput) (id : UUID) (now : Time) : Avatar :=
  { AvatarService.newAvatar input id with createdAt := now, updatedAt := now }

def completed (width height : Int64) (now : Time) (a : Avatar) : Avatar :=
  if a.isProcessed then a
  else
    { a with
      thumbnailS3Keys := thumbnailKeys a.userID a.id
      width := some width
      height := some height
      processingStatus := .completed
      updatedAt := now }

def unreadable (now : Time) (a : Avatar) : Avatar := { a with processingStatus := .failed, updatedAt := now }

def one : Option Avatar → Answer
  | some a => .avatar a
  | none => .notFound

/-- What an operation answers and leaves behind; `id` is the id that an upload draws, and `now`
the instant of the change. -/
def apply (g : Gallery) (id : UUID) (now : Time) : Op → Answer × Gallery
  | .upload input =>
    match validateUserID input.userID with
    | .error _ => (.invalidUserID,g)
    | .ok () =>
      -- the storage takes no key with two dots in it
      if contains input.userID (lit "..") then (.failed,g)
      else (.avatar (added input id now),g.add (added input id now))
  | .delete id' userID =>
    match validateUserID userID with
    | .error _ => (.invalidUserID,g)
    | .ok () =>
      match g.find id' with
      | none => (.notFound,g)
      | some a => if a.userID = userID then (.done,g.without id') else (.forbidden,g)
  | .metadata id' => (one (g.find id'),g)
  | .current userID =>
    match validateUserID userID with
    | .error _ => (.invalidUserID,g)
    | .ok () => (one (g.ofUser userID).head?,g)
  | .list userID =>
    match validateUserID userID with
    | .error _ => (.invalidUserID,g)
    | .ok () => (.avatars (g.ofUser userID),g)
  | .complete id' width height => (.done,g.change id' (completed width height now))
  | .fail id' => (.done,g.change id' (unreadable now))

/-- For a new avatar an id that was never given, and an instant after all changes so far. -/
structure Admits (g : Gallery) (op : Op) (id : UUID) (now : Time) : Prop where
  fresh : ∀ input, op = .upload input → validateUserID input.userID = .ok () → g.taken id = false
  later : ∀ a ∈ g.avatars, a.createdAt < now ∧ a.updatedAt < now

/-- One operation at a time. Where things go wrong it may fail, and has then happened or not. -/
inductive Does (faulty : Prop) (op : Op) (g : Gallery) : Answer → Gallery → Prop where
  | answered (id : UUID) (now : Time) (admits : g.Admits op id now) :
      Does faulty op g (g.apply id now op).1 (g.apply id now op).2
  | lost (fault : faulty) : Does faulty op g .failed g
  | cut (fault : faulty) (id : UUID) (now : Time) (admits : g.Admits op id now) :
      Does faulty op g .failed (g.apply id now op).2

/-! ### Galleries that come about -/

/-- No avatar stands twice, every id is taken, and the order is that of creation. -/
structure Tidy (g : Gallery) : Prop where
  once : (g.avatars.map Avatar.id).Nodup
  taken : ∀ a ∈ g.avatars, g.taken a.id = true
  newest : g.avatars.Pairwise fun a b => b.createdAt < a.createdAt

variable {g g' : Gallery}

theorem tidy_empty : empty.Tidy := ⟨by simp [empty],by simp [empty],by simp [empty]⟩

theorem Tidy.change (tidy : g.Tidy) (id : UUID) {f : Avatar → Avatar} (same : ∀ a, (f a).id = a.id)
    (created : ∀ a, (f a).createdAt = a.createdAt) : (g.change id f).Tidy := by
  have ids : (g.change id f).avatars.map Avatar.id = g.avatars.map Avatar.id := by
    rw [Gallery.change,List.map_map]
    apply List.map_congr_left
    intro a _
    by_cases here : a.id = id <;> simp [here,same]
  have times (a : Avatar) : (if a.id = id then f a else a).createdAt = a.createdAt := by
    split
    · exact created a
    · rfl
  refine ⟨ids ▸ tidy.once,fun a member => ?_,?_⟩
  · obtain ⟨b,inside,rfl⟩ := List.mem_map.mp member
    have there := tidy.taken b inside
    split
    · rw [same]
      exact there
    · exact there
  · apply List.pairwise_map.mpr
    apply tidy.newest.imp
    intro a b later
    rw [times,times]
    exact later

theorem Tidy.without (tidy : g.Tidy) (id : UUID) : (g.without id).Tidy where
  once := tidy.once.sublist (List.filter_sublist.map _)
  taken a member := tidy.taken a (List.mem_of_mem_filter member)
  newest := tidy.newest.sublist List.filter_sublist

theorem Tidy.add (tidy : g.Tidy) {a : Avatar} (fresh : g.taken a.id = false)
    (later : ∀ b ∈ g.avatars, b.createdAt < a.createdAt) : (g.add a).Tidy where
  once := by
    rw [Gallery.add,List.map_cons,List.nodup_cons]
    refine ⟨fun there => ?_,tidy.once⟩
    obtain ⟨b,member,same⟩ := List.mem_map.mp there
    have taken := tidy.taken b member
    rw [same,fresh] at taken
    contradiction
  taken b member := by
    rcases List.mem_cons.mp member with rfl | old
    · simp [Gallery.add]
    · simp [Gallery.add,tidy.taken b old]
  newest := List.pairwise_cons.mpr ⟨later,tidy.newest⟩

theorem completed_id (width height : Int64) (now : Time) (a : Avatar) :
    (completed width height now a).id = a.id ∧ (completed width height now a).createdAt = a.createdAt := by
  unfold completed
  split <;> exact ⟨rfl,rfl⟩

theorem Tidy.apply (tidy : g.Tidy) {op : Op} {id : UUID} {now : Time} (admits : g.Admits op id now) :
    (g.apply id now op).2.Tidy := by
  cases op with
  | upload input =>
    simp only [Gallery.apply]
    split
    · exact tidy
    · next valid =>
      split
      · exact tidy
      · exact tidy.add (admits.fresh input rfl valid) fun b member => (admits.later b member).1
  | delete id' userID =>
    simp only [Gallery.apply]
    split
    · exact tidy
    · split
      · exact tidy
      · split
        · exact tidy.without id'
        · exact tidy
  | metadata => exact tidy
  | current userID =>
    simp only [Gallery.apply]
    split <;> exact tidy
  | list userID =>
    simp only [Gallery.apply]
    split <;> exact tidy
  | complete id' width height =>
    exact tidy.change id' (fun a => (completed_id width height now a).1) fun a => (completed_id width height now a).2
  | fail id' => exact tidy.change id' (fun _ => rfl) fun _ => rfl

theorem Does.tidy {faulty : Prop} {op : Op} {answer : Answer} (done : Does faulty op g answer g')
    (tidy : g.Tidy) : g'.Tidy := by
  cases done with
  | answered id now admits => exact tidy.apply admits
  | lost => exact tidy
  | cut fault id now admits => exact tidy.apply admits

end Gallery

end GophProfile

import GophProfile.Library.Segments
import GophProfile.S3
import GophProfile.Worker

/-! Object keys: every key names the avatar it belongs to, and which keys of an
accepted user the storage takes. -/
namespace GophProfile

open Domain Segments

/-- The common shape of all keys the code builds. -/
def objectKey (userID : GoString) (avatarID : UUID) (name : GoString) : GoString :=
  lit "avatars" ++ 47 :: (userID ++ 47 :: (avatarID.string ++ 47 :: name))

theorem originalObjectKey_eq (userID : GoString) (avatarID : UUID) :
    originalObjectKey userID avatarID = objectKey userID avatarID (lit "original") := by
  have folder : lit "avatars/" = lit "avatars" ++ [47] := by decide
  have slash : lit "/" = [47] := by decide
  have last : lit "/original" = 47 :: lit "original" := by decide
  simp [originalObjectKey,objectKey,folder,slash,last]

theorem thumbnailObjectKey_eq (userID : GoString) (avatarID : UUID) (size : GoString) :
    thumbnailObjectKey userID avatarID size = objectKey userID avatarID (size ++ lit ".jpg") := by
  have folder : lit "avatars/" = lit "avatars" ++ [47] := by decide
  have slash : lit "/" = [47] := by decide
  simp [thumbnailObjectKey,objectKey,folder,slash]

/-- A byte outside the class of the pattern does not occur in an accepted user id. -/
theorem not_mem_of_valid {userID : GoString} {b : UInt8} (valid : validateUserID userID = .ok ())
    (outside : userIDByte b = false) : b ∉ userID := by
  intro member
  have := (validateUserID_ok valid).2.2 b member
  rw [outside] at this
  contradiction

theorem slash_not_mem {userID : GoString} (valid : validateUserID userID = .ok ()) :
    (47 : UInt8) ∉ userID := not_mem_of_valid valid rfl

theorem UUID.not_mem {b : UInt8} (outside : isHexOrDash b = false) (id : UUID) : b ∉ id.string := by
  intro member
  have := List.all_eq_true.mp id.digits b member
  rw [outside] at this
  contradiction

theorem UUID.string_ne_nil (id : UUID) : id.string ≠ [] := by
  intro empty
  have := id.length
  rw [show id.text = [] from empty] at this
  contradiction

/-- The three parts of a key can be read off it. -/
theorem objectKey_inj {u u' : GoString} {id id' : UUID} {name name' : GoString}
    (hu : (47 : UInt8) ∉ u) (hu' : (47 : UInt8) ∉ u')
    (same : objectKey u id name = objectKey u' id' name') : u = u' ∧ id = id' ∧ name = name' := by
  have inner := (List.cons.inj (List.append_cancel_left same)).2
  obtain ⟨users,rest⟩ := append_separator_inj hu hu' inner
  obtain ⟨texts,names⟩ := append_separator_inj (UUID.not_mem rfl id) (UUID.not_mem rfl id') rest
  exact ⟨users,UUID.string_injective texts,names⟩

/-- `key` is a key of the avatar `id`, whoever owns it. -/
def KeyOf (id : UUID) (key : GoString) : Prop :=
  ∃ userID name, (47 : UInt8) ∉ userID ∧ key = objectKey userID id name

theorem KeyOf.unique {id id' : UUID} {key : GoString} (one : KeyOf id key) (two : KeyOf id' key) :
    id = id' := by
  obtain ⟨u,name,hu,rfl⟩ := one
  obtain ⟨u',name',hu',same⟩ := two
  exact (objectKey_inj hu hu' same).2.1

theorem keyOf_original {userID : GoString} (valid : validateUserID userID = .ok ()) (id : UUID) :
    KeyOf id (originalObjectKey userID id) :=
  ⟨userID,_,slash_not_mem valid,originalObjectKey_eq userID id⟩

theorem keyOf_thumbnail {userID : GoString} (valid : validateUserID userID = .ok ()) (id : UUID)
    (size : GoString) : KeyOf id (thumbnailObjectKey userID id size) :=
  ⟨userID,_,slash_not_mem valid,thumbnailObjectKey_eq userID id size⟩

theorem thumbnailObjectKey_inj {u u' : GoString} (valid : validateUserID u = .ok ())
    (valid' : validateUserID u' = .ok ()) {id id' : UUID} {size size' : GoString}
    (same : thumbnailObjectKey u id size = thumbnailObjectKey u' id' size') :
    u = u' ∧ id = id' ∧ size = size' := by
  rw [thumbnailObjectKey_eq,thumbnailObjectKey_eq] at same
  obtain ⟨users,ids,names⟩ := objectKey_inj (slash_not_mem valid) (slash_not_mem valid') same
  exact ⟨users,ids,List.append_cancel_right names⟩

theorem originalObjectKey_inj {u u' : GoString} (valid : validateUserID u = .ok ())
    (valid' : validateUserID u' = .ok ()) {id id' : UUID}
    (same : originalObjectKey u id = originalObjectKey u' id') : u = u' ∧ id = id' := by
  rw [originalObjectKey_eq,originalObjectKey_eq] at same
  obtain ⟨users,ids,_⟩ := objectKey_inj (slash_not_mem valid) (slash_not_mem valid') same
  exact ⟨users,ids⟩

theorem original_ne_thumbnail {u u' : GoString} (valid : validateUserID u = .ok ())
    (valid' : validateUserID u' = .ok ()) (id id' : UUID) (size : GoString) :
    originalObjectKey u id ≠ thumbnailObjectKey u' id' size := by
  intro same
  rw [originalObjectKey_eq,thumbnailObjectKey_eq] at same
  have names := (objectKey_inj (slash_not_mem valid) (slash_not_mem valid') same).2.2
  have last := congrArg (fun l => l.getLast?) names
  rw [List.getLast?_append_of_ne_nil _ (by decide)] at last
  revert last
  decide

/-- The width of the column `s3_key`. -/
def s3KeyColumn : Nat := 500

theorem objectKey_length (userID : GoString) (id : UUID) (name : GoString) :
    (objectKey userID id name).length = userID.length + name.length + 46 := by
  have folder : (lit "avatars").length = 7 := by decide
  have text : id.string.length = 36 := id.length
  simp only [objectKey,List.length_append,List.length_cons,folder,text]
  omega

/-- A last segment of a hundred bytes fits the column under every accepted user id. -/
theorem objectKey_fits {userID name : GoString} (valid : validateUserID userID = .ok ()) (id : UUID)
    (short : name.length ≤ 100) : (objectKey userID id name).length ≤ s3KeyColumn := by
  have bounded : userID.length ≤ 255 := (validateUserID_ok valid).2.1
  rw [objectKey_length,s3KeyColumn]
  omega

theorem originalObjectKey_fits {userID : GoString} (valid : validateUserID userID = .ok ()) (id : UUID) :
    (originalObjectKey userID id).length ≤ s3KeyColumn := by
  rw [originalObjectKey_eq]
  exact objectKey_fits valid id (by decide)

theorem thumbnailObjectKey_fits {userID size : GoString} (valid : validateUserID userID = .ok ())
    (id : UUID) (built : size ∈ Worker.thumbnailSizes.map Prod.fst) :
    (thumbnailObjectKey userID id size).length ≤ s3KeyColumn := by
  have sizes : size = thumbnailSmall ∨ size = thumbnailLarge := by
    simpa [Worker.thumbnailSizes] using built
  rw [thumbnailObjectKey_eq]
  apply objectKey_fits valid id
  rcases sizes with rfl | rfl <;> decide

/-- A key tells its user, its avatar and its size, no key serves as two, and every key
the code builds fits its column. -/
theorem objectKeys_unambiguous {u v : GoString} (validU : validateUserID u = .ok ())
    (validV : validateUserID v = .ok ()) (a b : UUID) :
    (∀ s t, thumbnailObjectKey u a s = thumbnailObjectKey v b t → u = v ∧ a = b ∧ s = t) ∧
      (originalObjectKey u a = originalObjectKey v b → u = v ∧ a = b) ∧
      (∀ s, originalObjectKey u a ≠ thumbnailObjectKey v b s) ∧
      (originalObjectKey u a).length ≤ s3KeyColumn ∧
      ∀ size ∈ Worker.thumbnailSizes.map Prod.fst,
        (thumbnailObjectKey u a size).length ≤ s3KeyColumn := by
  refine ⟨?_,?_,?_,?_,?_⟩
  · intro s t same
    exact thumbnailObjectKey_inj validU validV same
  · intro same
    exact originalObjectKey_inj validU validV same
  · intro s
    exact original_ne_thumbnail validU validV a b s
  · exact originalObjectKey_fits validU a
  · intro size built
    exact thumbnailObjectKey_fits validU a built

theorem objectKeys_unambiguous_mail :
    (∀ s t, thumbnailObjectKey (lit "a.b@c") .nil s = thumbnailObjectKey (lit "a.b") .nil t →
        lit "a.b@c" = lit "a.b" ∧ UUID.nil = .nil ∧ s = t) ∧
      (originalObjectKey (lit "a.b@c") .nil = originalObjectKey (lit "a.b") .nil →
        lit "a.b@c" = lit "a.b" ∧ UUID.nil = .nil) ∧
      (∀ s, originalObjectKey (lit "a.b@c") .nil ≠ thumbnailObjectKey (lit "a.b") .nil s) ∧
      (originalObjectKey (lit "a.b@c") .nil).length ≤ s3KeyColumn ∧
      ∀ size ∈ Worker.thumbnailSizes.map Prod.fst,
        (thumbnailObjectKey (lit "a.b@c") .nil size).length ≤ s3KeyColumn :=
  objectKeys_unambiguous (by decide) (by decide) .nil .nil

/-! ### What the storage accepts -/

/-- A last segment that no key check can object to. -/
structure PlainName (name : GoString) : Prop where
  nonempty : name ≠ []
  noSlash : (47 : UInt8) ∉ name
  noDots : PairFree 46 46 name

theorem plainName_original : PlainName (lit "original") :=
  ⟨by decide,by decide,pairFree_of_first (by decide)⟩

theorem plainName_thumbnail {size : GoString} (built : size ∈ Worker.thumbnailSizes.map Prod.fst) :
    PlainName (size ++ lit ".jpg") := by
  have sizes : size = thumbnailSmall ∨ size = thumbnailLarge := by
    simpa [Worker.thumbnailSizes] using built
  have check : ∀ name : GoString, contains name (lit "..") = false → PairFree 46 46 name := by
    intro name absent
    by_contra found
    have inside : lit ".." <:+: name := pair_infix_iff.mpr found
    simp [contains,inside] at absent
  rcases sizes with rfl | rfl
  · exact ⟨by decide,by decide,check _ (by decide)⟩
  · exact ⟨by decide,by decide,check _ (by decide)⟩

theorem contains_dots_iff {s : GoString} : contains s (lit "..") = false ↔ PairFree 46 46 s := by
  rw [← not_iff_not,← pair_infix_iff]
  simp [contains,show lit ".." = [46,46] from rfl]

theorem dots_objectKey {userID name : GoString} (id : UUID) (plain : PlainName name) :
    contains (objectKey userID id name) (lit "..") = contains userID (lit "..") := by
  have folder : PairFree (46 : UInt8) 46 (lit "avatars") := pairFree_of_first (by decide)
  have text : PairFree (46 : UInt8) 46 id.string := pairFree_of_first (UUID.not_mem rfl id)
  rw [Bool.eq_iff_iff,← not_iff_not,Bool.not_eq_true,Bool.not_eq_true,contains_dots_iff,
    contains_dots_iff,objectKey,pairFree_separator (by decide) (by decide),
    pairFree_separator (by decide) (by decide),pairFree_separator (by decide) (by decide)]
  exact ⟨fun all => all.2.1,fun user => ⟨folder,user,text,plain.noDots⟩⟩

private theorem head_append_ne {l rest : GoString} (nonempty : l ≠ []) (clean : (47 : UInt8) ∉ l) :
    ∀ first ∈ (l ++ rest).head?, first ≠ 47 := by
  intro first member equal
  rw [List.head?_append_of_ne_nil _ nonempty] at member
  exact clean (equal ▸ List.mem_of_mem_head? member)

theorem slashes_objectKey {userID name : GoString} (id : UUID)
    (valid : validateUserID userID = .ok ()) (plain : PlainName name) :
    contains (objectKey userID id name) (lit "//") = false := by
  have last : PairFree (47 : UInt8) 47 name := pairFree_of_first plain.noSlash
  have nameStarts : ∀ first ∈ name.head?, first ≠ 47 := by
    intro first member equal
    exact plain.noSlash (equal ▸ List.mem_of_mem_head? member)
  have tail := pairFree_segments (UUID.not_mem rfl id) last nameStarts
  have middle := pairFree_segments (slash_not_mem valid) tail
    (head_append_ne (UUID.string_ne_nil id) (UUID.not_mem rfl id))
  have whole := pairFree_segments (a := lit "avatars") (by decide) middle
    (head_append_ne (validateUserID_ok valid).1 (slash_not_mem valid))
  have absent : ¬[(47 : UInt8),47] <:+: objectKey userID id name := by
    rw [pair_infix_iff,not_not]
    exact whole
  simpa [contains,show lit "//" = [47,47] from rfl] using absent

theorem validateKey_objectKey {userID name : GoString} (id : UUID)
    (valid : validateUserID userID = .ok ()) (plain : PlainName name) :
    S3.validateKey (objectKey userID id name) = .ok () ↔ contains userID (lit "..") = false := by
  have nonempty : objectKey userID id name ≠ [] := by simp [objectKey]
  have start : (lit "/").isPrefixOf (objectKey userID id name) = false := by
    simp [objectKey,show lit "avatars" = 97 :: lit "vatars" from rfl,
      show lit "/" = [47] from rfl,List.isPrefixOf]
  have slashes := slashes_objectKey id valid plain
  unfold S3.validateKey
  rw [if_neg nonempty,if_neg (by simp [start]),dots_objectKey id plain,slashes]
  cases contains userID (lit "..") <;> simp

/-- Of one avatar, the storage takes all keys or none, whatever its user id is. -/
theorem validateKey_same {userID name name' : GoString} (id : UUID) (plain : PlainName name)
    (plain' : PlainName name') :
    (S3.validateKey (objectKey userID id name)).isOk =
      (S3.validateKey (objectKey userID id name')).isOk := by
  have slashes : contains (objectKey userID id name) (lit "//") =
      contains (objectKey userID id name') (lit "//") := by
    have front : ∀ {last : GoString}, PlainName last →
        (contains (objectKey userID id last) (lit "//") = false ↔
          PairFree 47 47 (lit "avatars" ++ 47 :: (userID ++ 47 :: (id.string ++ [47])))) := by
      intro last plain
      have cut := pairFree_last (a := lit "avatars" ++ 47 :: (userID ++ 47 :: id.string)) plain.noSlash
      simp only [List.append_assoc,List.cons_append] at cut
      rw [← cut,← not_iff_not,← pair_infix_iff]
      simp [contains,objectKey,show lit "//" = [47,47] from rfl]
    rw [Bool.eq_iff_iff,← not_iff_not,Bool.not_eq_true,Bool.not_eq_true,front plain,front plain']
  have start : ∀ last, (lit "/").isPrefixOf (objectKey userID id last) = false := by
    intro last
    simp [objectKey,show lit "avatars" = 97 :: lit "vatars" from rfl,
      show lit "/" = [47] from rfl,List.isPrefixOf]
  have nonempty : ∀ last, objectKey userID id last ≠ [] := by simp [objectKey]
  have dots : contains (objectKey userID id name) (lit "..") =
      contains (objectKey userID id name') (lit "..") :=
    (dots_objectKey id plain).trans (dots_objectKey id plain').symm
  unfold S3.validateKey
  rw [if_neg (nonempty name),if_neg (nonempty name'),start,start,dots,slashes]
  cases contains (objectKey userID id name') (lit "..") <;>
    cases contains (objectKey userID id name') (lit "//") <;> rfl

theorem validateKey_error {key : GoString} {err : Err} (refused : S3.validateKey key = .error err) :
    ∃ format args, err = .new format args := by
  unfold S3.validateKey at refused
  split at refused
  · cases refused; exact ⟨_,_,rfl⟩
  · split at refused
    · cases refused; exact ⟨_,_,rfl⟩
    · split at refused
      · cases refused; exact ⟨_,_,rfl⟩
      · split at refused
        · cases refused; exact ⟨_,_,rfl⟩
        · cases refused

theorem validateKey_original {userID : GoString} (id : UUID) (valid : validateUserID userID = .ok ()) :
    S3.validateKey (originalObjectKey userID id) = .ok () ↔ contains userID (lit "..") = false := by
  rw [originalObjectKey_eq]
  exact validateKey_objectKey id valid plainName_original

theorem validateKey_thumbnail {userID size : GoString} (id : UUID)
    (valid : validateUserID userID = .ok ()) (built : size ∈ Worker.thumbnailSizes.map Prod.fst) :
    S3.validateKey (thumbnailObjectKey userID id size) = .ok () ↔
      contains userID (lit "..") = false := by
  rw [thumbnailObjectKey_eq]
  exact validateKey_objectKey id valid (plainName_thumbnail built)

/-- Of an accepted user id, the storage takes the original's key and every thumbnail's
if and only if the id has no two dots in a row. -/
theorem keys_accepted_iff {userID : GoString} (valid : validateUserID userID = .ok ()) (id : UUID)
    {size : GoString} (built : size ∈ Worker.thumbnailSizes.map Prod.fst) :
    (S3.validateKey (originalObjectKey userID id) = .ok () ∧
      S3.validateKey (thumbnailObjectKey userID id size) = .ok ()) ↔
      contains userID (lit "..") = false := by
  rw [validateKey_original id valid,validateKey_thumbnail id valid built,and_self]

theorem keys_accepted_iff_mail :
    (S3.validateKey (originalObjectKey (lit "a.b@c") .nil) = .ok () ∧
      S3.validateKey (thumbnailObjectKey (lit "a.b@c") .nil thumbnailSmall) = .ok ()) ↔
      contains (lit "a.b@c") (lit "..") = false :=
  keys_accepted_iff (by decide) .nil (by decide)

/-- The id check lets a name with two dots pass, the storage does not. -/
theorem dotted_user_refused :
    ¬∀ userID, validateUserID userID = .ok () → ∀ id, ∀ size ∈ Worker.thumbnailSizes.map Prod.fst,
      S3.validateKey (originalObjectKey userID id) = .ok () ∧
        S3.validateKey (thumbnailObjectKey userID id size) = .ok () := by
  intro all
  have original := (all (lit "a..b") (by decide) .nil thumbnailSmall (by decide)).1
  have dots : contains (lit "a..b") (lit "..") = true := by decide
  rw [validateKey_original .nil (by decide),dots] at original
  contradiction

end GophProfile

import GophProfile.Web
import Mathlib.Data.List.TakeWhile

/-! Where the pages send a browser, and which page of the router it arrives at. -/
namespace GophProfile.Web

open Domain

/-! ### What is sent as `Location` -/

def dot : GoString := [46]
def dotDot : GoString := [46,46]

/-- One name element of a path, over those kept so far, the last of them first. -/
def cleanElement (rooted : Bool) (kept : List GoString) (element : GoString) : List GoString :=
  if element = [] ∨ element = dot then kept
  else if element = dotDot then
    match kept with
    | [] => if rooted then [] else [dotDot]
    | last :: before => if last = dotDot then dotDot :: last :: before else before
  else element :: kept

/-- `path.Clean` -/
def pathClean (path : GoString) : GoString :=
  let rooted := (lit "/").isPrefixOf path
  let kept := (lit "/").intercalate ((path.splitOn 47).foldl (cleanElement rooted) []).reverse
  if rooted then 47 :: kept else if kept = [] then dot else kept

def hexEscapeNonASCII (s : GoString) : GoString :=
  s.flatMap fun b => if b < 128 then [b] else [37,lowerHexDigit (b / 16),lowerHexDigit (b % 16)]

/-- What `http.Redirect` makes of a target that begins with one slash, as every target of
the pages does. -/
def location (target : GoString) : GoString :=
  let url := target.takeWhile (· ≠ 63)
  let query := target.dropWhile (· ≠ 63)
  let cleaned := pathClean url
  let trailing := (lit "/").isSuffixOf url && !(lit "/").isSuffixOf cleaned
  hexEscapeNonASCII ((if trailing then cleaned ++ lit "/" else cleaned) ++ query)

/-- The same before its bytes beyond ASCII are escaped, as the page of the redirect shows it. -/
def redirectURL (target : GoString) : GoString :=
  let url := target.takeWhile (· ≠ 63)
  let query := target.dropWhile (· ≠ 63)
  let cleaned := pathClean url
  let trailing := (lit "/").isSuffixOf url && !(lit "/").isSuffixOf cleaned
  (if trailing then cleaned ++ lit "/" else cleaned) ++ query

theorem location_redirectURL (target : GoString) : location target = hexEscapeNonASCII (redirectURL target) := rfl

/-- `html.EscapeString`, as `http.Redirect` has it -/
def htmlEscape (s : GoString) : GoString :=
  s.flatMap fun b =>
    if b = 38 then lit "&amp;" else if b = 60 then lit "&lt;" else if b = 62 then lit "&gt;"
    else if b = 34 then lit "&#34;" else if b = 39 then lit "&#39;" else [b]

/-- The short page of a redirect with status 303. -/
def redirectPage (target : GoString) : GoString :=
  lit "<a href=\"" ++ htmlEscape (redirectURL target) ++ lit "\">See Other</a>.\n\n"

/-! ### The router -/

/-- One element of a pattern of the router. -/
inductive Pattern where
  | text (s : GoString)
  | param
  | rest

/-- The handlers of the GET routes. -/
inductive Page where
  | live | ready | get | metadata | getCurrent | list
  | uploadForm | galleryLookup | gallery
  | static | openAPI | docs | home
  deriving DecidableEq

/-- The GET routes of `NewRouter` and of `Handler.Routes`, mounted under `/web`. -/
def getRoutes : List (List Pattern × Page) :=
  [([.text (lit "livez")],.live),
   ([.text (lit "health")],.ready),
   ([.text (lit "readyz")],.ready),
   ([.text (lit "api"),.text (lit "v1"),.text (lit "avatars"),.param],.get),
   ([.text (lit "api"),.text (lit "v1"),.text (lit "avatars"),.param,.text (lit "metadata")],.metadata),
   ([.text (lit "api"),.text (lit "v1"),.text (lit "users"),.param,.text (lit "avatar")],.getCurrent),
   ([.text (lit "api"),.text (lit "v1"),.text (lit "users"),.param,.text (lit "avatars")],.list),
   ([.text (lit "web"),.text (lit "upload")],.uploadForm),
   ([.text (lit "web"),.text (lit "gallery")],.galleryLookup),
   ([.text (lit "web"),.text (lit "gallery"),.param],.gallery),
   ([.text (lit "static"),.rest],.static),
   ([.text (lit "openapi.yaml")],.openAPI),
   ([.text (lit "docs")],.docs),
   ([.text []],.home)]

/-- The values of the parameters where a path matches a pattern; an empty one matches
no parameter. -/
def matchRoute : List Pattern → List GoString → Option (List GoString)
  | [], [] => some []
  | .text s :: pattern, element :: path => if s = element then matchRoute pattern path else none
  | .param :: pattern, element :: path =>
    if element = [] then none else (matchRoute pattern path).map (element :: ·)
  | .rest :: _, element :: path => some [(lit "/").intercalate (element :: path)]
  | _, _ => none

def matchPage (path : GoString) (entry : List Pattern × Page) : Option (Page × List GoString) :=
  (matchRoute entry.1 ((path.splitOn 47).drop 1)).map fun params => (entry.2,params)

/-- The page that answers a GET of the path, with the values of its parameters. -/
def route (path : GoString) : Option (Page × List GoString) := getRoutes.findSome? (matchPage path)

/-! ### Redirects to the gallery -/

theorem pathByte_of_userIDByte {b : UInt8} (allowed : userIDByte b = true) : pathByte b = true := by
  simp only [userIDByte,Bool.or_eq_true] at allowed
  simp only [pathByte,Bool.or_eq_true,decide_eq_true_eq,List.mem_cons]
  simp only [beq_iff_eq] at allowed
  grind

/-- Escaping changes nothing in an accepted user id. -/
theorem pathEscape_valid {userID : GoString} (valid : validateUserID userID = .ok ()) :
    pathEscape userID = userID := by
  have bytes := (validateUserID_ok valid).2.2
  unfold pathEscape
  rw [List.flatMap_congr (g := fun b => [b])]
  · exact List.flatMap_singleton' userID
  · intro b member
    rw [if_pos (pathByte_of_userIDByte (bytes b member))]

theorem galleryPath_valid {userID : GoString} (valid : validateUserID userID = .ok ()) :
    galleryPath userID = lit "/web/gallery/" ++ userID := by
  rw [galleryPath,pathEscape_valid valid]

/-- The bytes of an accepted id are ASCII, and neither a slash nor a question mark. -/
theorem userIDByte_plain {b : UInt8} (allowed : userIDByte b = true) : b < 128 ∧ b ≠ 47 ∧ b ≠ 63 := by
  simp only [userIDByte,Bool.or_eq_true,beq_iff_eq] at allowed
  grind

theorem galleryPath_plain {userID : GoString} (valid : validateUserID userID = .ok ()) :
    ∀ b ∈ galleryPath userID, b < 128 ∧ b ≠ 63 := by
  intro b member
  rw [galleryPath_valid valid,List.mem_append] at member
  have clear : (lit "/web/gallery/").all (fun b => decide (b < 128) && b != 63) = true := by rfl
  rcases member with folder | inside
  · simpa using List.all_eq_true.mp clear b folder
  · have plain := userIDByte_plain ((validateUserID_ok valid).2.2 b inside)
    exact ⟨plain.1,plain.2.2⟩

theorem hexEscapeNonASCII_ascii {s : GoString} (ascii : ∀ b ∈ s, b < 128) : hexEscapeNonASCII s = s := by
  unfold hexEscapeNonASCII
  rw [List.flatMap_congr (g := fun b => [b])]
  · exact List.flatMap_singleton' s
  · intro b member
    rw [if_pos (ascii b member)]

/-- Below `/web/gallery` an id is one path name element. -/
theorem splitOn_gallery {userID : GoString} (single : (47 : UInt8) ∉ userID) :
    (lit "/web/gallery/" ++ userID).splitOn 47 = [[],lit "web",lit "gallery",userID] := by
  have parts : lit "/web/gallery/" ++ userID =
      [] ++ 47 :: (lit "web" ++ 47 :: (lit "gallery" ++ 47 :: userID)) := by rfl
  rw [parts,List.splitOn_append_cons_self_of_not_mem (by decide),
    List.splitOn_append_cons_self_of_not_mem (by decide),
    List.splitOn_append_cons_self_of_not_mem (by decide),List.splitOn_eq_singleton single]

theorem pathClean_gallery {userID : GoString} (nonempty : userID ≠ []) (single : (47 : UInt8) ∉ userID)
    (name : userID ≠ dot ∧ userID ≠ dotDot) :
    pathClean (lit "/web/gallery/" ++ userID) = lit "/web/gallery/" ++ userID := by
  have rooted : (lit "/").isPrefixOf (lit "/web/gallery/" ++ userID) = true := by rfl
  have last : cleanElement true [lit "gallery",lit "web"] userID =
      [userID,lit "gallery",lit "web"] := by
    simp [cleanElement,nonempty,name]
  have kept : ([[],lit "web",lit "gallery",userID].foldl (cleanElement true) []).reverse =
      [lit "web",lit "gallery",userID] := by
    have first : [[],lit "web",lit "gallery",userID].foldl (cleanElement true) [] =
        cleanElement true [lit "gallery",lit "web"] userID := by rfl
    rw [first,last]
    rfl
  have joined : (lit "/").intercalate ((lit "/web/gallery/" ++ userID).splitOn 47) =
      lit "/web/gallery/" ++ userID := List.intercalate_splitOn 47
  rw [splitOn_gallery single] at joined
  simp only [pathClean,rooted,splitOn_gallery single,kept,if_true]
  exact joined

theorem location_plain {target : GoString} (plain : ∀ b ∈ target, b < 128 ∧ b ≠ 63)
    (clean : pathClean target = target) : location target = target := by
  have whole : target.takeWhile (· ≠ 63) = target := by
    rw [List.takeWhile_eq_self_iff]
    intro b member
    simpa using (plain b member).2
  have none : target.dropWhile (· ≠ 63) = [] := by
    rw [List.dropWhile_eq_nil_iff]
    intro b member
    simpa using (plain b member).2
  simp only [location,whole,none,clean,Bool.and_not_self,Bool.false_eq_true,if_false,List.append_nil]
  exact hexEscapeNonASCII_ascii fun b member => (plain b member).1

theorem route_gallery {userID : GoString} (nonempty : userID ≠ []) (single : (47 : UInt8) ∉ userID) :
    route (lit "/web/gallery/" ++ userID) = some (.gallery,[userID]) := by
  simp +decide only [route,getRoutes,List.findSome?_cons,matchPage,splitOn_gallery single,
    List.drop_succ_cons,List.drop_zero,matchRoute,nonempty,if_true,if_false,Option.map_none,Option.map_some]

/-- An accepted id is led to its gallery, as one element of the path, just when it is
not one of the two names that stand for a folder. -/
theorem location_gallery_iff {userID : GoString} (valid : validateUserID userID = .ok ()) :
    (location (galleryPath userID) = lit "/web/gallery/" ++ userID ∧
      (location (galleryPath userID)).splitOn 47 = [[],lit "web",lit "gallery",userID] ∧
      route (location (galleryPath userID)) = some (.gallery,[userID])) ↔
      userID ≠ dot ∧ userID ≠ dotDot := by
  have nonempty := (validateUserID_ok valid).1
  have single : (47 : UInt8) ∉ userID := by
    intro member
    exact (userIDByte_plain ((validateUserID_ok valid).2.2 47 member)).2.1 rfl
  constructor
  · rintro ⟨kept,_,_⟩
    constructor
    · rintro rfl
      revert kept
      decide
    · rintro rfl
      revert kept
      decide
  · intro name
    have clean : pathClean (galleryPath userID) = galleryPath userID := by
      rw [galleryPath_valid valid]
      exact pathClean_gallery nonempty single name
    rw [location_plain (galleryPath_plain valid) clean,galleryPath_valid valid]
    exact ⟨rfl,splitOn_gallery single,route_gallery nonempty single⟩

theorem location_gallery_iff_mail :
    (location (galleryPath (lit "user+tag@example.com")) =
        lit "/web/gallery/" ++ lit "user+tag@example.com" ∧
      (location (galleryPath (lit "user+tag@example.com"))).splitOn 47 =
        [[],lit "web",lit "gallery",lit "user+tag@example.com"] ∧
      route (location (galleryPath (lit "user+tag@example.com"))) =
        some (.gallery,[lit "user+tag@example.com"])) ↔
      lit "user+tag@example.com" ≠ dot ∧ lit "user+tag@example.com" ≠ dotDot :=
  location_gallery_iff (by decide)

/-- The id of two dots is accepted, and led to a path that no page answers. -/
theorem location_gallery_dots :
    ¬∀ userID, validateUserID userID = .ok () →
      location (galleryPath userID) = lit "/web/gallery/" ++ userID ∧
        (location (galleryPath userID)).splitOn 47 = [[],lit "web",lit "gallery",userID] ∧
        route (location (galleryPath userID)) = some (.gallery,[userID]) := by
  intro all
  have routed := (all dotDot (by decide)).2.2
  have lost : route (location (galleryPath dotDot)) = none := by decide
  rw [lost] at routed
  contradiction

/-! ### The handlers that redirect -/

/-- A redirect of the answer goes to the gallery of this id, and the id is an accepted one. -/
def LeadsTo (userID : GoString) (response : Response) : Prop :=
  ∀ target, response.redirect = some target →
    validateUserID userID = .ok () ∧ target = galleryPath userID

theorem leadsTo_of_none {userID : GoString} {response : Response} (stays : response.redirect = none) :
    LeadsTo userID response := by
  intro target sent
  rw [stays] at sent
  contradiction

theorem leadsTo_gallery {userID : GoString} (valid : validateUserID userID = .ok ()) :
    LeadsTo userID (.seeOther (galleryPath userID)) := by
  rintro target ⟨⟩
  exact ⟨valid,rfl⟩

theorem galleryLookup_leadsTo (userID : GoString) : LeadsTo userID (galleryLookup userID) := by
  unfold galleryLookup
  split
  · exact leadsTo_of_none rfl
  · split
    · exact leadsTo_of_none rfl
    · next valid => exact leadsTo_gallery valid

variable (P : Packages) (cfg : Config) (s : AvatarService)
  {answers : (c : Call) → c.Answer → Prop}

theorem renderUploadError_redirect (userID : GoString) (err : Err) :
    (renderUploadError cfg userID err).redirect = none := by
  unfold renderUploadError
  repeat' split
  all_goals rfl

theorem renderDeleteError_redirect (err : Err) : (renderDeleteError cfg err).redirect = none := by
  unfold renderDeleteError
  repeat' split
  all_goals rfl

theorem upload_leadsTo (form : UploadForm) :
    Effect.Ends answers (upload cfg s form) fun _ response => LeadsTo form.userID response := by
  unfold upload
  split
  · exact leadsTo_of_none (renderUploadError_redirect cfg _ _)
  · split
    · exact leadsTo_of_none (renderUploadError_redirect cfg _ _)
    · next valid =>
      split
      · exact leadsTo_of_none (renderUploadError_redirect cfg _ _)
      · refine Effect.Ends.bind (Effect.Ends.of_forall fun calls result => ?_)
        cases result with
        | error err => exact leadsTo_of_none (renderUploadError_redirect cfg _ _)
        | ok avatar => exact leadsTo_gallery valid

theorem delete_leadsTo (userID avatarID : GoString) :
    Effect.Ends answers (delete P cfg s userID avatarID) fun _ response => LeadsTo userID response := by
  unfold delete
  split
  · exact leadsTo_of_none rfl
  · next valid =>
    split
    · exact leadsTo_of_none rfl
    · refine Effect.Ends.bind (Effect.Ends.of_forall fun calls result => ?_)
      cases result with
      | error err => exact leadsTo_of_none (renderDeleteError_redirect cfg err)
      | ok done => exact leadsTo_gallery valid

end GophProfile.Web

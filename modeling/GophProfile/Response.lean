import GophProfile.Calls

/-! What the HTTP handlers read of a request and answer, for the API and the pages. -/
namespace GophProfile

open Domain

structure Config where
  maxUploadBytes : Int64
  allowedMIME : List GoString
  /-- `Breaker.OpenTimeout`, in nanoseconds. -/
  openTimeout : Int64

/-- What the environment leaves unset. -/
def Config.standard : Config where
  maxUploadBytes := 10485760
  allowedMIME := [lit "image/jpeg",lit "image/png",lit "image/webp"]
  openTimeout := 30000000000

/-- `form.Image` -/
structure FormImage where
  name : GoString
  size : Int64
  mime : GoString
  body : GoString

/-- The details of an error answer: a fixed text, the text of an error, or a text with fields. -/
inductive Details where
  | text (s : String)
  | err (e : Err)
  | fields (format : String) (fields : List GoString)
  deriving DecidableEq

structure MetadataResponse where
  id : GoString
  userID : GoString
  fileName : GoString
  mimeType : GoString
  size : Int64
  dimensions : Option (Int64 × Int64)
  thumbnails : List (GoString × GoString)
  processingStatus : ProcessingStatus
  createdAt : Time
  updatedAt : Time
  deriving DecidableEq

structure GalleryItem where
  id : GoString
  fileName : GoString
  thumbnailURL : GoString
  originalURL : GoString
  created : Time
  statusLabel : String
  statusClass : String
  deriving DecidableEq

inductive Body where
  | empty
  | bytes (content : GoString)
  | error (message : String) (details : Details)
  | tooLarge (maxSize : Int64)
  | uploaded (id userID url : GoString) (status : String) (createdAt : Time)
  | metadata (m : MetadataResponse)
  | list (userID : GoString) (count : Nat) (avatars : List MetadataResponse)
  | uploadPage (userID : GoString) (maxUploadMB : Int64) (message : Details)
  | galleryPage (userID : GoString) (count : Nat) (avatars : List GalleryItem) (message : Details)
  | errorPage (status : Nat) (message : String) (details : Details)
  deriving DecidableEq

structure Response where
  status : Nat
  contentType : Option GoString
  cacheControl : Option String
  etag : Option GoString
  retryAfter : Option Int64
  /-- `X-Avatar-Fallback` -/
  fallback : Bool
  /-- The target handed to `http.Redirect`. -/
  redirect : Option GoString
  body : Body
  deriving DecidableEq

namespace Response

def plain (status : Nat) (body : Body) : Response where
  status := status
  contentType := none
  cacheControl := none
  etag := none
  retryAfter := none
  fallback := false
  redirect := none
  body := body

def json (status : Nat) (body : Body) : Response :=
  { plain status body with contentType := some (lit "application/json; charset=utf-8") }

def html (status : Nat) (body : Body) : Response :=
  { plain status body with contentType := some (lit "text/html; charset=utf-8") }

def error (status : Nat) (message : String) (details : Details) : Response :=
  json status (.error message details)

def seeOther (target : GoString) : Response :=
  { plain 303 .empty with redirect := some target }

end Response

/-- `int(d.Seconds())` -/
def wholeSeconds (nanoseconds : Int64) : Int64 := nanoseconds / 1000000000

end GophProfile

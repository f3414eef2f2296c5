import GophProfile.Breaker

/-! The `s3` package: the object storage over single storage requests. Every operation
checks its keys before it reaches the storage. -/
namespace GophProfile.S3

open Domain

def codeNoSuchKey : GoString := lit "NoSuchKey"

def validateKey (key : GoString) : Except Err Unit :=
  if key = [] then .error (.new "пустой ключ объекта" [])
  else if (lit "/").isPrefixOf key then
    .error (.new "ключ объекта не должен начинаться со слэша: %q" [key])
  else if contains key (lit "..") then
    .error (.new "ключ объекта не должен содержать \"..\": %q" [key])
  else if contains key (lit "//") then
    .error (.new "ключ объекта не должен содержать пустых сегментов: %q" [key])
  else .ok ()

/-- `minio.ToErrorResponse` looks at the error itself, not at what it wraps. -/
def isNotFound (err : Err) : Bool := err == .s3Error codeNoSuchKey

def putResult (key : GoString) : Except Err Unit → Except Err Unit
  | .error err => .error (.errorf "put object %s: %w" [key] err)
  | .ok () => .ok ()

def put (key : GoString) (object : Object) : Prog (Except Err Unit) :=
  match validateKey key with
  | .error err => return .error err
  | .ok () => do return putResult key (← ask (.putObject key object))

/-- `GetObject` is lazy: the request is made by `Stat`. -/
def getResult (key : GoString) : Except Err Object → Except Err Object
  | .error err =>
    if isNotFound err then .error (.errorf "get object %s: %w" [key] .objectNotFound)
    else .error (.errorf "stat object %s: %w" [key] err)
  | .ok object => .ok object

theorem getResult_ok {key : GoString} {answer : Except Err Object} {object : Object}
    (read : getResult key answer = .ok object) : answer = .ok object := by
  unfold getResult at read
  split at read
  · split at read <;> cases read
  · cases read
    rfl

theorem getResult_error (key : GoString) (err : Err) : ∃ err', getResult key (.error err) = .error err' := by
  simp only [getResult]
  split
  · exact ⟨_,rfl⟩
  · exact ⟨_,rfl⟩

def get (key : GoString) : Prog (Except Err Object) :=
  match validateKey key with
  | .error err => return .error err
  | .ok () => do return getResult key (← ask (.getObject key))

/-- Removing what is not there is no failure. -/
def removeResult (key : GoString) : Except Err Unit → Except Err Unit
  | .error err =>
    if isNotFound err then .ok () else .error (.errorf "delete object %s: %w" [key] err)
  | .ok () => .ok ()

def delete (key : GoString) : Prog (Except Err Unit) :=
  match validateKey key with
  | .error err => return .error err
  | .ok () => do return removeResult key (← ask (.removeObject key))

/-- The results of a batch removal, in the order the storage works it off. -/
def removeObjects : List GoString → List Err → Prog (List Err)
  | [], errs => return errs
  | key :: rest, errs => do
    match removeResult key (← ask (.removeObject key)) with
    | .error err => removeObjects rest (errs ++ [err])
    | .ok () => removeObjects rest errs

def validateKeys : List GoString → Except Err Unit
  | [] => .ok ()
  | key :: rest =>
    match validateKey key with
    | .error err => .error err
    | .ok () => validateKeys rest

def deleteMany (keys : List GoString) : Prog (Except Err Unit) :=
  if keys = [] then return .ok ()
  else match validateKeys keys with
    | .error err => return .error err
    | .ok () => do
      let order ← ask (.iterate keys)
      return Err.joinAll (← removeObjects order.val [])

structure Storage where
  breaker : Option Breaker

namespace Storage

variable (s : Storage)

def put (key : GoString) (object : Object) : Prog (Except Err Unit) :=
  Breaker.call s.breaker (S3.put key object)

def get (key : GoString) : Prog (Except Err Object) := Breaker.call s.breaker (S3.get key)

def delete (key : GoString) : Prog (Except Err Unit) := Breaker.call s.breaker (S3.delete key)

def deleteMany (keys : List GoString) : Prog (Except Err Unit) :=
  Breaker.call s.breaker (S3.deleteMany keys)

end Storage

end GophProfile.S3

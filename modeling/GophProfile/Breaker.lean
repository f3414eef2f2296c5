import GophProfile.Calls

/-! The `breaker` package: which errors count against a dependency, and how a call is
guarded. A nil breaker lets every call through. -/
namespace GophProfile

def Dependency.name : Dependency → GoString
  | .postgres => lit "postgres"
  | .s3 => lit "s3"
  | .rabbitmq => lit "rabbitmq"

/-- A breaker of one dependency; `healthyErr` is nil unless `WithHealthyErrors` set it. -/
structure Breaker where
  dependency : Dependency
  healthyErr : Option (Err → Bool)

namespace Breaker

def rejectOpen : GoString := lit "open"
def rejectProbing : GoString := lit "probing"

def isExcluded : Except Err Unit → Bool
  | .ok () => false
  | .error err => err.is .canceled

def isSuccessful (b : Breaker) : Except Err Unit → Bool
  | .ok () => true
  | .error err =>
    (match b.healthyErr with
      | some healthy => healthy err
      | none => false) ||
    err.is .avatarNotFound || err.is .objectNotFound || err.is .forbidden || err.is .invalidUserID

/-- gobreaker asks `IsExcluded` first and `IsSuccessful` second. -/
def classify (b : Breaker) (err : Except Err Unit) : Outcome :=
  if isExcluded err then .excluded else if b.isSuccessful err then .success else .failure

/-- `gobreaker.CircuitBreaker.Execute` -/
def execute {α : Type} (b : Breaker) (fn : Prog (Except Err α)) : Prog (Except Err α) := do
  match ← ask (.allow b.dependency) with
  | .error err => return .error err
  | .ok () =>
    let result ← fn
    ask (.report b.dependency (b.classify (result.map fun _ => ())))
    return result

/-- `Breaker.Do` and, with a result, `Call`. -/
def call {α : Type} (b : Option Breaker) (fn : Prog (Except Err α)) : Prog (Except Err α) :=
  match b with
  | none => fn
  | some b => do
    match ← b.execute fn with
    | .ok value => return .ok value
    | .error err =>
      if err.is .openState then rejected b rejectOpen
      else if err.is .tooManyRequests then rejected b rejectProbing
      else return .error err
where
  rejected (b : Breaker) (reason : GoString) : Prog (Except Err α) := do
    ask (.breakerRejected b.dependency reason)
    return .error (.errorf "%s (%s): %w" [b.dependency.name,reason] .unavailable)

@[simp] theorem call_none {α : Type} (fn : Prog (Except Err α)) : call none fn = fn := rfl

end Breaker

end GophProfile

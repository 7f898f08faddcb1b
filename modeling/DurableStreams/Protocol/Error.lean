/-!
# Errors of storage and protocol operations

The single error enum of `protocol/error.rs`, with the data each variant carries, and its mapping
to HTTP status codes. `Result` is the alias the storage code uses.
-/

namespace DurableStreams

/-- The single error type for all storage and protocol operations. -/
inductive Error where
  | notFound (name : String)
  | configMismatch
  | alreadyExists (name : String)
  | invalidOffset (message : String)
  | invalidStreamName (name : String)
  | contentTypeMismatch (expected actual : String)
  | streamClosed
  | sequenceRegression (expected actual : Nat)
  | sequenceGap (expected actual : Nat)
  | epochFenced (current received : Nat)
  | invalidProducerState (message : String)
  | memoryLimitExceeded
  | streamSizeLimitExceeded
  | invalidTtl (message : String)
  | conflictingExpiration
  | streamExpired
  | invalidJson (message : String)
  | emptyBody
  | invalidHeader (header reason : String)
  | seqOrderingViolation (last received : String)
  | storage (message : String)
  deriving DecidableEq, Repr

/-- The HTTP status code of an error. -/
def Error.statusCode : Error → Nat
  | .notFound _ | .streamExpired => 404
  | .configMismatch | .contentTypeMismatch .. | .streamClosed | .sequenceRegression ..
  | .sequenceGap .. | .seqOrderingViolation .. => 409
  | .epochFenced .. => 403
  | .memoryLimitExceeded | .streamSizeLimitExceeded => 413
  | .alreadyExists _ | .invalidOffset _ | .invalidStreamName _ | .invalidProducerState _
  | .invalidTtl _ | .conflictingExpiration | .invalidJson _ | .emptyBody | .invalidHeader .. => 400
  | .storage _ => 500

/-- The result of a storage or protocol operation. -/
abbrev Result (α : Type) := Except Error α

/-- A sequence that succeeds has succeeded in its first part. -/
theorem Result.bind_ok {α β : Type} {first : Result α} {after : α → Result β} {value : β}
    (h : first >>= after = .ok value) : ∃ middle, first = .ok middle ∧ after middle = .ok value := by
  cases first with
  | error error => exact nomatch h
  | ok middle => exact ⟨middle, rfl, h⟩

/-- A body that could be read. -/
theorem Result.body_ok {α : Type} {body : Except String α} {convert : String → Error} {bytes : α}
    (h : body.mapError convert = .ok bytes) : body = .ok bytes := by
  cases body with
  | error error => cases h
  | ok found => rw [Except.ok.inj h]

end DurableStreams

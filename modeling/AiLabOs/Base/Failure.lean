import AiLabOs.Base.Digest

/-!
# Failures

## Main definitions

* `FailureInfo`: the failure record every runtime shares
* `Raised`: the exceptions an operation can end with
-/

/-- `ErrorCategory`. -/
inductive ErrorCategory where
  | validation
  | notFound
  | alreadyExists
  | notConfigured
  | disabled
  | unavailable
  | timeout
  | cancelled
  | conflict
  | dependencyFailure
  | executionFailure
  | persistenceFailure
  | permissionDenied
  | unauthenticated
  | rateLimited
  | internal
deriving DecidableEq, Repr

/-- `FailureInfo`. Severity and cause type keep their defaults here and are left out. -/
structure FailureInfo where
  code : String
  category : ErrorCategory
  message : String
  component : String
  operation : String
  retryable : Bool := false
  traceId : String := ""
  details : Payload := []
deriving DecidableEq, Repr

/-- An exception: a classified failure, or one the code does not classify. -/
inductive Raised where
  | failure (info : FailureInfo)
  | valueError (message : String)
  | assertionError
  | integrityError
  | other (message : String)
deriving DecidableEq, Repr

/-- `str(exc)`. -/
def Raised.message : Raised → String
  | .failure info => info.message
  | .valueError m => m
  | .assertionError => ""
  | .integrityError => "UNIQUE constraint failed"
  | .other m => m

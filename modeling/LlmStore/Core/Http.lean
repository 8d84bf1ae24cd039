/-!
# Errors of request handlers
-/

namespace LlmStore

/-- `HTTPException(status_code=..., detail=...)`. -/
structure HTTPException where
  statusCode : Nat
  detail : String
  deriving DecidableEq

end LlmStore

import Mathlib.Init

/-!
# Errors

The exceptions the program raises: the hierarchy of `core/errors.py` and the builtin ones it
relies on. A pydantic validation error is a `ValueError`.
-/

namespace CyberBrain

/-- A raised exception, with its message. -/
inductive Exc
  | typeError (message : String)
  | valueError (message : String)
  | keyError (key : String)
  | overflowError (message : String)
  | zeroDivisionError (message : String)
  | runtimeError (message : String)
  | configurationError (message : String)
  | embeddingError (message : String)
  | storageError (message : String)
  | conflictError (message : String)
  | sensitiveDataError (message : String)
  | quotaExceededError (retryAfter : Int)
  deriving DecidableEq, Repr

end CyberBrain

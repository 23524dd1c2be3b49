import CyberBrain.Core.Errors
import CyberBrain.Foundation.Python

/-!
# Content

The normal form of stored content and its digest.
-/

namespace CyberBrain

open Python

/-- `normalize_content`. -/
def normalizeContent (content : String) : Except Exc String :=
  let normalized := strip (String.ofList (universalNewlines content.toList))
  if normalized = "" then .error (.valueError "content must not be empty") else .ok normalized

/-- `content_hash`. -/
def contentHash (py : Runtime) (content : String) : Except Exc String := do
  let normalized ← normalizeContent content
  .ok (py.sha256 normalized)

end CyberBrain

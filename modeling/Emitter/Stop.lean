/-!
# Ends without a result

An operation that gives no result either fails and says why, or breaks off in the
middle (`Stop`).  What breaks off has no error for its caller and no sentence for
its user.
-/

namespace Emitter

/-- How an operation ends that gives no result. -/
inductive Stop (ε : Type) where
  /-- It fails for a reason. -/
  | failure (cause : ε)
  /-- It breaks off. -/
  | breakdown
deriving DecidableEq, Repr

/-- The same end with another way to put the reason. -/
def Stop.map {ε ε' : Type} (f : ε → ε') : Stop ε → Stop ε'
  | failure cause => failure (f cause)
  | breakdown => breakdown

end Emitter

import Mathlib.Logic.Basic

/-!
# The coroutine runtime

What the framework sees of `bbt::coroutine`: the answers of a suspended wait.
-/

namespace BbtFramework

/-- The answers of `CoWaiter`.  The last two carry the number of their
enumerator, which one message of the framework prints. -/
inductive WaitStatus where
  | completed
  | timedOut
  | cancelled
  | runtimeUnavailable
  | invalidContext
  | alreadyWaiting (number : Int)
  | unknown (number : Int)
  deriving DecidableEq, Repr

end BbtFramework

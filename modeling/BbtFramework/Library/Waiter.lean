import Mathlib.Data.Bool.Basic

/-!
# Waiters that keep a notification

A coroutine registers its waiter, looks at its condition once more and suspends.  From the
registration on, a notification is kept until the coroutine looks for it, so a suspended
coroutine whose waiter is signalled goes on.  Before the registration a notification may
be lost.
-/

namespace BbtFramework.Library

structure Waiter where
  registered : Bool
  signalled : Bool
  deriving DecidableEq, Repr

namespace Waiter

def create : Waiter := ⟨false, false⟩

/-- What was kept of earlier notifications may be dropped here. -/
def register (waiter : Waiter) (keep : Bool) : Waiter :=
  ⟨true, waiter.signalled && keep⟩

/-- A notification; `keep` decides only before the registration. -/
def notify (waiter : Waiter) (keep : Bool) : Waiter :=
  { waiter with signalled := waiter.signalled || waiter.registered || keep }

/-- The end of the wait. -/
def release (waiter : Waiter) : Waiter :=
  { waiter with registered := false }

@[simp]
theorem registered_register (waiter : Waiter) (keep : Bool) :
    (waiter.register keep).registered = true := rfl

@[simp]
theorem registered_notify (waiter : Waiter) (keep : Bool) :
    (waiter.notify keep).registered = waiter.registered := rfl

/-- The promise of a waiter: it keeps what comes after the registration. -/
theorem signalled_notify {waiter : Waiter} (hregistered : waiter.registered = true)
    (keep : Bool) : (waiter.notify keep).signalled = true := by
  unfold notify
  rw [hregistered, Bool.or_true, Bool.true_or]

theorem signalled_of_register {waiter : Waiter} {keep : Bool}
    (hsignalled : (waiter.register keep).signalled = true) : waiter.signalled = true :=
  (Bool.and_eq_true_iff.mp hsignalled).1

end Waiter

end BbtFramework.Library

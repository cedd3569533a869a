import BbtFramework.Library.Program

/-!
# Readings that never go back

Calls of a pool report a quantity of the shared state at some moment of their own.  Where
no step takes the quantity back, a call that starts after another one has reported sees
no less than the other.
-/

namespace BbtFramework.Library

structure Reading (State View Value : Type) where
  read : State → Option Value
  told : View → Option Value
  le : Value → Value → Prop

variable {Act : Type} {Ans : Act → Type}
variable {Outcome State View Entry Choice Event Value : Type}

structure Reading.Kept (reading : Reading State View Value)
    (sys : System Act Ans Outcome State View Entry Choice Event)
    (guard : Pool Act Ans Outcome State View → PoolStep Entry Choice Event → Prop) : Prop where
  refl : ∀ value, reading.le value value
  trans : ∀ low middle high, reading.le low middle → reading.le middle high →
    reading.le low high
  fresh : reading.told sys.fresh = none
  keeps : ∀ pool label last, sys.machine.ReachableWhere guard pool → guard pool label →
    sys.next pool label = some last → ∀ value, reading.read pool.shared = some value →
      ∃ more, reading.read last.shared = some more ∧ reading.le value more
  told : ∀ pool thread choice act answer state,
    sys.Acts guard pool thread choice act answer state → ∀ value,
      reading.told (sys.discipline.after act answer (pool.views thread)) = some value →
      reading.told (pool.views thread) = some value ∨ reading.read state = some value

namespace Reading.Kept

variable {reading : Reading State View Value}
variable {sys : System Act Ans Outcome State View Entry Choice Event}
variable {guard : Pool Act Ans Outcome State View → PoolStep Entry Choice Event → Prop}
variable {post : Outcome → View → Prop} {pool last : Pool Act Ans Outcome State View}
variable {labels : List (PoolStep Entry Choice Event)} {value more : Value}

/-- Over a whole run. -/
theorem run (hkept : reading.Kept sys guard) (hreach : sys.machine.ReachableWhere guard pool)
    (hrun : sys.machine.Run guard pool labels last)
    (hvalue : reading.read pool.shared = some value) :
    ∃ more, reading.read last.shared = some more ∧ reading.le value more := by
  induction hrun with
  | refl => exact ⟨value, hvalue, hkept.refl value⟩
  | tail hbefore hguard hnext ih =>
      obtain ⟨middle, hmiddle, hle⟩ := ih
      obtain ⟨high, hhigh, hmore⟩ :=
        hkept.keeps _ _ _ (hreach.run hbefore) hguard hnext middle hmiddle
      exact ⟨high, hhigh, hkept.trans value middle high hle hmore⟩

/-- The state has not gone back behind what a thread has been told. -/
theorem behind (hkept : reading.Kept sys guard) (hsys : sys.Disciplined post)
    (hreach : sys.machine.ReachableWhere guard pool) :
    ∀ thread value, reading.told (pool.views thread) = some value →
      ∃ more, reading.read pool.shared = some more ∧ reading.le value more := by
  refine hreach.induct (motive := fun pool => ∀ thread value,
    reading.told (pool.views thread) = some value →
      ∃ more, reading.read pool.shared = some more ∧ reading.le value more) ?_ ?_
  · rintro pool ⟨state, -, rfl⟩ thread value htold
    cases hkept.fresh.symm.trans htold
  · intro pool label last hpool ih hguard hnext thread value htold
    have hold : reading.told (pool.views thread) = some value →
        ∃ more, reading.read last.shared = some more ∧ reading.le value more := by
      intro hbefore
      obtain ⟨middle, hmiddle, hle⟩ := ih thread value hbefore
      obtain ⟨high, hhigh, hmore⟩ := hkept.keeps pool label last hpool hguard hnext middle hmiddle
      exact ⟨high, hhigh, hkept.trans value middle high hle hmore⟩
    rcases hsys.view_step hpool hguard hnext thread with hsame | ⟨choice, act, answer, hacts, hview⟩
    · exact hold (hsame ▸ htold)
    · rw [hview] at htold
      rcases hkept.told _ _ _ _ _ _ hacts value htold with hbefore | hread
      · exact hold hbefore
      · exact ⟨value, hread, hkept.refl value⟩

/-- A thread that starts at some moment is told no less than the state had then. -/
theorem ahead (hkept : reading.Kept sys guard) (hsys : sys.Disciplined post)
    (hreach : sys.machine.ReachableWhere guard pool)
    (hrun : sys.machine.Run guard pool labels last)
    (hvalue : reading.read pool.shared = some value) {thread : Nat} (hnew : pool.count ≤ thread) :
    ∀ more, reading.told (last.views thread) = some more → reading.le value more := by
  induction hrun with
  | refl =>
      intro more htold
      rw [System.views_of_ge hreach thread hnew, hkept.fresh] at htold
      cases htold
  | tail hbefore hguard hnext ih =>
      intro more htold
      have hmiddle := hreach.run hbefore
      rcases hsys.view_step hmiddle hguard hnext thread with
        hsame | ⟨choice, act, answer, hacts, hview⟩
      · exact ih more (hsame ▸ htold)
      · rw [hview] at htold
        rcases hkept.told _ _ _ _ _ _ hacts more htold with hold | hread
        · exact ih more hold
        · obtain ⟨high, hhigh, hle⟩ := hkept.run hreach (hbefore.tail hguard hnext) hvalue
          cases Option.some.inj (hhigh.symm.trans hread)
          exact hle

/-- A thread that starts after another one has been told a value is told no less. -/
theorem never_back (hkept : reading.Kept sys guard) (hsys : sys.Disciplined post)
    (hreach : sys.machine.ReachableWhere guard pool)
    (hrun : sys.machine.Run guard pool labels last) {first second : Nat}
    (hfirst : reading.told (pool.views first) = some value) (hnew : pool.count ≤ second)
    (hsecond : reading.told (last.views second) = some more) : reading.le value more := by
  obtain ⟨middle, hmiddle, hle⟩ := hkept.behind hsys hreach first value hfirst
  exact hkept.trans value middle more hle
    (hkept.ahead hsys hreach hrun hmiddle hnew more hsecond)

end Reading.Kept

end BbtFramework.Library

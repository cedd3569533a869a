import BbtFramework.Library.Program

/-!
# Methods of an object

A program over one set of actions can run on an object that performs them by programs over
another: each action goes on from the state the last one has left the object in.  The
object's methods read and write its fields between their actions, and may leave early.
-/

namespace BbtFramework.Library

namespace Program

variable {Act Low : Type} {Ans : Act → Type} {LowAns : Low → Type} {Value Obj : Type}

/-- The program with every action performed by the object. -/
def interpretOn (handler : (act : Act) → Obj → Program Low LowAns (Ans act × Obj)) :
    Program Act Ans Value → Obj → Program Low LowAns (Value × Obj)
  | .done value, object => .done (value, object)
  | .call act next, object =>
      (handler act object).bind (fun answer => (next answer.1).interpretOn handler answer.2)

variable {View LowView : Type} {discipline : Discipline Act Ans View}
variable {low : Discipline Low LowAns LowView}
variable {handler : (act : Act) → Obj → Program Low LowAns (Ans act × Obj)}

theorem Follows.interpretOn {relates : View → Obj → LowView → Prop}
    (hhandler : ∀ act view object lowView, discipline.allows act view →
      relates view object lowView →
      Follows low (handler act object) lowView (fun answer last =>
        discipline.possible act answer.1 ∧
          relates (discipline.after act answer.1 view) answer.2 last))
    {program : Program Act Ans Value} {view : View} {object : Obj} {lowView : LowView}
    {post : Value → View → Prop} (hprogram : Follows discipline program view post)
    (hrelates : relates view object lowView) :
    Follows low (program.interpretOn handler object) lowView
      (fun answer lowLast => ∃ last, relates last answer.2 lowLast ∧ post answer.1 last) := by
  induction program generalizing view object lowView with
  | done value => exact ⟨view, hrelates, hprogram⟩
  | call act next ih =>
      refine andThen (hhandler act view object lowView hprogram.1 hrelates) ?_
      rintro answer last ⟨hpossible, hlast⟩
      exact ih answer.1 (hprogram.2 answer.1 hpossible) hlast

end Program

/-- A method takes the object and gives it back, with what it returns or with what it has
left early with. -/
def Method (Act : Type) (Ans : Act → Type) (Obj Leave Value : Type) : Type :=
  Obj → Program Act Ans (Except Leave Value × Obj)

namespace Method

variable {Act : Type} {Ans : Act → Type} {Obj Leave Value Other View : Type}

def bind (method : Method Act Ans Obj Leave Value)
    (next : Value → Method Act Ans Obj Leave Other) : Method Act Ans Obj Leave Other :=
  fun object => method object >>= fun ended =>
    match ended with
    | (.ok value, object) => next value object
    | (.error reason, object) => pure (.error reason, object)

instance : Monad (Method Act Ans Obj Leave) where
  pure := fun value object => pure (.ok value, object)
  bind := bind

/-- One action; it does not see the object. -/
def perform (act : Act) : Method Act Ans Obj Leave (Ans act) :=
  fun object => Program.ask act >>= fun answer => pure (.ok answer, object)

def get : Method Act Ans Obj Leave Obj :=
  fun object => pure (.ok object, object)

def modify (change : Obj → Obj) : Method Act Ans Obj Leave Unit :=
  fun object => pure (.ok (), change object)

def leave (reason : Leave) : Method Act Ans Obj Leave Value :=
  fun object => pure (.error reason, object)

/-- The method follows the discipline from `view` and `object` on; `post` accepts what it
returns in, and `left` what it is left early in. -/
def Meets (discipline : Discipline Act Ans View) (method : Method Act Ans Obj Leave Value)
    (view : View) (object : Obj) (post : Value → View → Obj → Prop)
    (left : View → Obj → Prop) : Prop :=
  Program.Follows discipline (method object) view (fun ended last =>
    match ended with
    | (.ok value, object) => post value last object
    | (.error _, object) => left last object)

namespace Meets

variable {discipline : Discipline Act Ans View} {view : View} {object : Obj}
variable {post : Value → View → Obj → Prop} {left : View → Obj → Prop}

theorem pure {value : Value} (hpost : post value view object) :
    Meets discipline (Pure.pure value : Method Act Ans Obj Leave Value) view object post left :=
  hpost

theorem leave {reason : Leave} (hleft : left view object) :
    Meets discipline (Method.leave reason : Method Act Ans Obj Leave Value) view object
      post left :=
  hleft

/-- One method and then another. -/
theorem bind {method : Method Act Ans Obj Leave Other}
    {next : Other → Method Act Ans Obj Leave Value}
    (hmethod : Meets discipline method view object
      (fun value middle object => Meets discipline (next value) middle object post left)
      left) :
    Meets discipline (method >>= next) view object post left := by
  refine Program.Follows.andThen hmethod ?_
  rintro ⟨value | value, object⟩ last hended
  · exact hended
  · exact hended

theorem mono {method : Method Act Ans Obj Leave Value}
    {strong : Value → View → Obj → Prop} {strongLeft : View → Obj → Prop}
    (hmethod : Meets discipline method view object strong strongLeft)
    (hpost : ∀ value last object, strong value last object → post value last object)
    (hleft : ∀ last object, strongLeft last object → left last object) :
    Meets discipline method view object post left := by
  refine Program.Follows.mono hmethod ?_
  rintro ⟨reason | value, object⟩ last hended
  · exact hleft last object hended
  · exact hpost value last object hended

/-- A method whose specification is known, and then another. -/
theorem andThen {method : Method Act Ans Obj Leave Other}
    {next : Other → Method Act Ans Obj Leave Value}
    {middle : Other → View → Obj → Prop} {midway : View → Obj → Prop}
    (hmethod : Meets discipline method view object middle midway)
    (hnext : ∀ value last object, middle value last object →
      Meets discipline (next value) last object post left)
    (hleft : ∀ last object, midway last object → left last object) :
    Meets discipline (method >>= next) view object post left :=
  bind (hmethod.mono hnext hleft)

/-- One action and then the rest. -/
theorem step {act : Act} {next : Ans act → Method Act Ans Obj Leave Value}
    (hallows : discipline.allows act view)
    (hnext : ∀ answer, discipline.possible act answer →
      Meets discipline (next answer) (discipline.after act answer view) object post left) :
    Meets discipline (perform act >>= next) view object post left :=
  ⟨hallows, hnext⟩

theorem read {next : Obj → Method Act Ans Obj Leave Value}
    (hnext : Meets discipline (next object) view object post left) :
    Meets discipline (get >>= next) view object post left :=
  hnext

/-- A change of the fields and then the rest. -/
theorem write {change : Obj → Obj} {next : Unit → Method Act Ans Obj Leave Value}
    (hnext : Meets discipline (next ()) view (change object) post left) :
    Meets discipline (modify change >>= next) view object post left :=
  hnext

theorem ite {cond : Prop} [Decidable cond] {yes no : Method Act Ans Obj Leave Value}
    (hyes : cond → Meets discipline yes view object post left)
    (hno : ¬cond → Meets discipline no view object post left) :
    Meets discipline (if cond then yes else no) view object post left := by
  split
  case isTrue h => exact hyes h
  case isFalse h => exact hno h

end Meets

end Method

end BbtFramework.Library

import BbtFramework.Error
import BbtFramework.Library.Program

/-!
# The stored orders and bills

The order and the settlement service of the cluster keep one document for each order id,
in a collection of their own.
-/

namespace BbtFramework.Ecommerce

open BbtFramework.Library

structure OrderRequest where
  orderId : String
  sku : String
  qty : Int64
  discountCents : Int64
  deriving DecidableEq

structure BillRequest where
  order : OrderRequest
  totalCents : Int64
  deriving DecidableEq

structure PriceResponse where
  unitCents : Int64
  instanceId : String

structure Record where
  orderId : String
  sku : String
  qty : Int64
  totalCents : Int64
  discountCents : Int64
  payableCents : Int64
  state : String
  catalogInstance : String
  orderInstance : String
  settlementInstance : String
  deriving DecidableEq

/-- A process of the cluster; `storage` says that it has its collection. -/
structure Node where
  instanceId : String
  storage : Bool
  deriving DecidableEq

def isTokenChar (c : Char) : Bool :=
  c.isAlphanum || c = '-' || c = '_'

def safeToken (value : String) : Bool :=
  value ≠ "" && value.length ≤ 80 && value.toList.all isTokenChar

section

variable [Infra]

def validateOrder (order : OrderRequest) : Except Error Unit :=
  if ¬safeToken order.orderId ∨ ¬safeToken order.sku ∨ order.qty ≤ 0 ∨
      order.discountCents < 0 then
    .error (makeError .invalidArgument "invalid id, sku, quantity or discount")
  else .ok ()

theorem validateOrder_eq_ok {order : OrderRequest} :
    validateOrder order = .ok () ↔ safeToken order.orderId = true ∧ safeToken order.sku = true ∧
      0 < order.qty ∧ 0 ≤ order.discountCents := by
  unfold validateOrder
  split
  case isTrue hbad =>
    constructor
    · intro hok
      cases hok
    · rintro ⟨hid, hsku, hqty, hdiscount⟩
      rcases hbad with hnot | hnot | hnot | hnot
      · exact absurd hid hnot
      · exact absurd hsku hnot
      · exact absurd hqty (Int64.not_lt.mpr hnot)
      · exact absurd hdiscount (Int64.not_le.mpr hnot)
  case isFalse hgood =>
    simp only [not_or, not_not, Int64.not_le, Int64.not_lt] at hgood
    exact ⟨fun _ => hgood, fun _ => rfl⟩

end

def samePayload (record : Record) (order : OrderRequest) : Bool :=
  record.orderId = order.orderId && record.sku = order.sku && record.qty = order.qty &&
    record.discountCents = order.discountCents

theorem samePayload_iff {record : Record} {order : OrderRequest} :
    samePayload record order = true ↔ record.orderId = order.orderId ∧ record.sku = order.sku ∧
      record.qty = order.qty ∧ record.discountCents = order.discountCents := by
  simp [samePayload, and_assoc]

inductive Collection where
  | orders
  | bills
  deriving DecidableEq, Repr

structure DbError where
  error : Error
  backendCode : Int
  deriving DecidableEq

def duplicateKey : Int := 11000

/-- What a handler does outside its own process: the commands to the collections, the calls
to the other services, and the reply of a settlement. -/
inductive ShopAct where
  | findOne (collection : Collection) (id : String)
  | insertOne (collection : Collection) (record : Record)
  | updateOne (id : String) (record : Record)
  | price (sku orderId : String)
  | settle (request : BillRequest)
  | reply (request : BillRequest) (bill : Record)
  deriving DecidableEq

@[reducible]
def ShopAct.Answer : ShopAct → Type
  | .findOne _ _ => Except DbError (Option Record)
  | .insertOne _ _ => Except DbError Unit
  | .updateOne _ _ => Except DbError Nat
  | .price _ _ => Except Error PriceResponse
  | .settle _ => Except Error Record
  | .reply _ _ => Unit

abbrev ShopOp :=
  Program ShopAct ShopAct.Answer

def asks (act : ShopAct) : ShopOp act.Answer :=
  Program.ask act

section

variable [Infra]

def readRecord (collection : Collection) (id : String) : ShopOp (Except Error Record) :=
  if ¬safeToken id then return .error (makeError .invalidArgument "invalid order id")
  else do
    let found : Except DbError (Option Record) ← asks (.findOne collection id)
    match found with
    | .error error => return .error error.error
    | .ok none => return .error (makeError .notFound "record not found")
    | .ok (some record) => return .ok record

def insertRecord (collection : Collection) (record : Record) : ShopOp (Except Error Record) :=
  if ¬safeToken record.orderId then
    return .error (makeError .invalidArgument "invalid order id")
  else do
    let inserted : Except DbError Unit ← asks (.insertOne collection record)
    match inserted with
    | .ok () => return .ok record
    | .error error =>
        if error.backendCode ≠ duplicateKey then return .error error.error
        else readRecord collection record.orderId

def markSettled (record : Record) : ShopOp (Except Error Unit) :=
  if ¬safeToken record.orderId then
    return .error (makeError .invalidArgument "invalid order id")
  else do
    let changed : Except DbError Nat ← asks (.updateOne record.orderId record)
    match changed with
    | .error error => return .error error.error
    | .ok found =>
        if found ≠ 1 then return .error (makeError .notFound "pending order missing")
        else return .ok ()

end

/-- A write that has not been confirmed. -/
inductive ShopWrite where
  | insert (collection : Collection) (record : Record)
  | update (id : String) (record : Record)
  deriving DecidableEq

/-- `floating` are the writes that have failed for their sender, `replies` the answers of
settlements with the requests they are for. -/
structure ShopWorld where
  orders : String → Option Record
  bills : String → Option Record
  floating : List ShopWrite
  replies : List (BillRequest × Record)

namespace ShopWorld

def empty : ShopWorld where
  orders := fun _ => none
  bills := fun _ => none
  floating := []
  replies := []

variable (world : ShopWorld)

def documents : Collection → String → Option Record
  | .orders => world.orders
  | .bills => world.bills

def put (collection : Collection) (record : Record) : ShopWorld :=
  match collection with
  | .orders => { world with orders := Function.update world.orders record.orderId (some record) }
  | .bills => { world with bills := Function.update world.bills record.orderId (some record) }

/-- A write is carried out; the key is unique, and nothing is updated that is not there. -/
def land : ShopWrite → ShopWorld
  | .insert collection record =>
      match world.documents collection record.orderId with
      | some _ => world
      | none => world.put collection record
  | .update id record =>
      match world.orders id with
      | some _ => { world with orders := Function.update world.orders id (some record) }
      | none => world

/-- A write is sent that nobody confirms. -/
def sent (write : ShopWrite) : ShopWorld :=
  { world with floating := world.floating ++ [write] }

def replied (request : BillRequest) (bill : Record) : ShopWorld :=
  { world with replies := world.replies ++ [(request, bill)] }

end ShopWorld

end BbtFramework.Ecommerce

/-
Subscription orders: `CompleteSubscriptionOrder`, `ExpireSubscriptionOrder` and
`PurchaseSubscriptionWithBalance` of `model/subscription.go`.

Each is one transaction, cut before every statement that locks a row, reads or commits.  A row that
is locked stays locked until the transaction is over, and nothing is seen of its writes before it
commits, so they are made in one step at the end; a transaction that fails is rolled back.

What a plain `SELECT` sees is up to the database.  PostgreSQL's transactions read what is committed
as the statement runs.  MySQL's, which are at `REPEATABLE READ`, all read from the view the first
plain `SELECT` has opened; a locking read sees what is committed and opens no view.  SQLite's begin
with `BEGIN IMMEDIATE`, one at a time.

The purchase limit is checked by a count of rows, a plain `SELECT`.  It comes after a lock of the
user's row in every case, but not always before any other plain `SELECT`.
-/
import JulongApi.Lib.Pool
import JulongApi.SubscriptionGroup
import JulongApi.TopUp

namespace JulongApi

/-! ### Rows -/

structure SalePlan extends GroupPlan where
  enabled : Bool
  priceAmount : ℚ
  allowBalancePay : Option Bool
deriving DecidableEq

structure SubscriptionOrder where
  tradeNo : String
  userId : Nat
  planId : Nat
  money : ℚ
  paymentMethod : String
  paymentProvider : PaymentProvider
  status : TopUpStatus
  createTime : Int
  completeTime : Int
  providerPayload : String
deriving DecidableEq

structure Buyer where
  id : Nat
  quota : Int
  group : String
deriving DecidableEq, Repr

structure SaleDB where
  users : Table Buyer.id
  orders : Table SubscriptionOrder.tradeNo
  topUps : Table TopUp.tradeNo
  subs : GroupSubscriptionTable

/-- What a transaction writes; `call` is the call it belongs to. -/
structure SaleChange where
  call : Option Nat
  user : Option Buyer
  order : Option SubscriptionOrder
  topUp : Option TopUp
  sub : Option GroupSubscription

/-- The rows are written, under keys that may be new. -/
def SaleChange.apply (change : SaleChange) (db : SaleDB) : SaleDB where
  users := change.user.elim db.users db.users.put
  orders := change.order.elim db.orders db.orders.put
  topUps := change.topUp.elim db.topUps db.topUps.put
  subs := change.sub.elim db.subs db.subs.put

/-- The tables after the changes of a log, the last one first. -/
def replaySales (init : SaleDB) (log : List SaleChange) : SaleDB :=
  log.foldr SaleChange.apply init

/-- `CountUserSubscriptionsByPlan`. -/
def countByPlan (subs : GroupSubscriptionTable) (userId planId : Nat) : Nat :=
  subs.rows.countP fun sub => decide (sub.userId = userId ∧ sub.planId = planId)

/-! ### Transactions -/

inductive Isolation where
  | readCommitted
  | repeatableRead
  /-- one at a time -/
  | immediate
deriving DecidableEq, Repr

structure SaleEnv where
  isolation : Isolation
  cal : PlanCalendar
  plans : Table fun plan : SalePlan => plan.id
  quotaPerUnit : ℚ

/-- `calcSubscriptionBalanceQuota`; `none` is an error. -/
def calcSubscriptionBalanceQuota (env : SaleEnv) (priceAmount : ℚ) : Option Int :=
  if priceAmount ≤ 0 then some 0
  else if env.quotaPerUnit ≤ 0 then none
  else walletQuotaFromDecimalStrict ⌈priceAmount * env.quotaPerUnit⌉

/-- The checks of `PurchaseSubscriptionWithBalance` on the plan, and the quota it takes. -/
def balanceQuota (env : SaleEnv) (plan : SalePlan) : Option Int :=
  if plan.enabled = false ∨ plan.priceAmount < 0 ∨ plan.allowBalancePay = some false then none
  else calcSubscriptionBalanceQuota env plan.priceAmount

/-- `upsertSubscriptionTopUpTx`; `none` is an error. -/
def upsertSubscriptionTopUp (topUps : Table TopUp.tradeNo) (order : SubscriptionOrder)
    (now : Int) : Option TopUp :=
  match topUps.find order.tradeNo with
  | none => some {
      tradeNo := order.tradeNo
      userId := order.userId
      amount := 0
      money := order.money
      paymentMethod := order.paymentMethod
      paymentProvider := .other ""
      completeTime := now
      status := .success }
  | some topUp =>
    if topUp.paymentMethod ≠ "" ∧ topUp.paymentMethod ≠ order.paymentMethod then none
    else some { topUp with
      money := order.money
      paymentMethod := order.paymentMethod
      completeTime := now
      status := .success }

/-- What `CompleteSubscriptionOrder` was called with. -/
structure CompleteArgs where
  tradeNo : String
  providerPayload : String
  expectedPaymentProvider : Option PaymentProvider
  actualPaymentMethod : String
deriving DecidableEq, Repr

/-- What a subscription is created for. -/
inductive Sale where
  | order (args : CompleteArgs) (order : SubscriptionOrder)
  /-- paid from the wallet -/
  | balance (requiredQuota : Int)
deriving DecidableEq

/-- The subscriptions a view shows, `none` when no view is open. -/
abbrev SaleView := Option GroupSubscriptionTable

inductive SaleStage where
  /-- `CompleteSubscriptionOrder`: the order is locked -/
  | complete (args : CompleteArgs)
  /-- the plan is looked up, outside the transaction -/
  | orderPlan (args : CompleteArgs) (order : SubscriptionOrder)
  /-- the user is locked -/
  | orderUser (args : CompleteArgs) (order : SubscriptionOrder) (plan : SalePlan)
  /-- `ExpireSubscriptionOrder`: the order is locked -/
  | expire (tradeNo : String) (expectedPaymentProvider : Option PaymentProvider)
  /-- it is saved -/
  | saveExpired (order : SubscriptionOrder)
  /-- `PurchaseSubscriptionWithBalance`: the plan is looked up, in the transaction -/
  | purchase (userId planId : Nat)
  /-- the user is locked and charged -/
  | charge (userId : Nat) (plan : SalePlan) (requiredQuota : Int) (view : SaleView)
  /-- `CreateUserSubscriptionFromPlanTx`: the subscriptions are counted -/
  | count (sale : Sale) (plan : SalePlan) (user : Buyer) (view : SaleView)
  /-- the rest, and the commit; the view that was open before the count -/
  | commit (sale : Sale) (plan : SalePlan) (user : Buyer) (view : SaleView)
  | done (ok : Bool)

namespace SaleStage

def locksOrder : SaleStage → Option String
  | orderPlan _ order | orderUser _ order _ | saveExpired order => some order.tradeNo
  | count (.order _ order) _ _ _ | commit (.order _ order) _ _ _ => some order.tradeNo
  | _ => none

def locksUser : SaleStage → Option Nat
  | count _ _ user _ | commit _ _ user _ => some user.id
  | _ => none

/-- The transaction is under way. -/
def isOpen : SaleStage → Bool
  | complete _ | expire _ _ | purchase _ _ | done _ => false
  | _ => true

end SaleStage

structure SubscriptionSales where
  db : SaleDB
  /-- the plans in the plan cache -/
  cached : List Nat
  calls : List SaleStage
  /-- what has been written, the last first -/
  log : List SaleChange

/-- What a transaction is given as it commits: the new row's id, the time, a new trade number. -/
structure CommitInput where
  id : Nat
  now : Int
  tradeNo : String
deriving DecidableEq, Repr

inductive SaleAct where
  /-- an order is placed at a payment provider -/
  | place (order : SubscriptionOrder)
  /-- a wallet moves -/
  | wallet (userId : Nat) (delta : Int)
  /-- a plan leaves the cache -/
  | evict (planId : Nat)
  | complete (args : CompleteArgs)
  | expire (tradeNo : String) (expectedPaymentProvider : Option PaymentProvider)
  | purchase (userId planId : Nat)
  /-- call `i` goes on; whether the database answers -/
  | advance (i : Nat) (dbOk : Bool) (input : CommitInput)
deriving DecidableEq

namespace SubscriptionSales

def idle (db : SaleDB) : SubscriptionSales := ⟨db, [], [], []⟩

def start (s : SubscriptionSales) (stage : SaleStage) : SubscriptionSales :=
  { s with calls := s.calls ++ [stage] }

def goOn (s : SubscriptionSales) (i : Nat) (stage : SaleStage) : SubscriptionSales :=
  { s with calls := s.calls.set i stage }

def write (s : SubscriptionSales) (change : SaleChange) : SubscriptionSales :=
  { s with db := change.apply s.db, log := change :: s.log }

def orderLocked (s : SubscriptionSales) (tradeNo : String) : Bool :=
  s.calls.any fun call => decide (call.locksOrder = some tradeNo)

def userLocked (s : SubscriptionSales) (userId : Nat) : Bool :=
  s.calls.any fun call => decide (call.locksUser = some userId)

/-- A transaction has to wait before it begins. -/
def busy (env : SaleEnv) (s : SubscriptionSales) : Bool :=
  decide (env.isolation = .immediate) && s.calls.any SaleStage.isOpen

/-- The view a plain `SELECT` opens where none is open. -/
def openView (env : SaleEnv) (s : SubscriptionSales) : SaleView :=
  if env.isolation = .repeatableRead then some s.db.subs else none

/-- What the commit of a sale writes, `none` if it fails. -/
def saleChange (env : SaleEnv) (s : SubscriptionSales) (i : Nat) (sale : Sale) (plan : SalePlan)
    (user : Buyer) (input : CommitInput) : Option SaleChange :=
  match calcPlanEndTime env.cal input.now plan.toGroupPlan with
  | none => none
  | some endUnix =>
    let (sub, group) := newUserSubscription env.cal plan.toGroupPlan input.id user.id user.group
      input.now endUnix
    if (s.db.subs.find sub.id).isSome then none
    else
      match sale with
      | .order args order =>
        (upsertSubscriptionTopUp s.db.topUps order input.now).map fun topUp => {
          call := some i
          user := some { user with group := group }
          order := some { order with
            status := .success
            completeTime := input.now
            providerPayload :=
              if args.providerPayload ≠ "" then args.providerPayload else order.providerPayload
            paymentMethod :=
              if args.actualPaymentMethod ≠ "" then args.actualPaymentMethod
              else order.paymentMethod }
          topUp := some topUp
          sub := some sub }
      | .balance requiredQuota =>
        if (s.db.orders.find input.tradeNo).isSome then none
        else some {
          call := some i
          user := some { user with group := group }
          order := some {
            tradeNo := input.tradeNo
            userId := user.id
            planId := plan.id
            money := plan.priceAmount
            paymentMethod := "balance"
            paymentProvider := .balance
            status := .success
            createTime := input.now
            completeTime := input.now
            providerPayload := s!"charged_quota={requiredQuota}" }
          topUp := none
          sub := some sub }

def advance (env : SaleEnv) (s : SubscriptionSales) (i : Nat) (dbOk : Bool) (input : CommitInput) :
    SaleStage → Option SubscriptionSales
  | .complete args =>
    if s.busy env || s.orderLocked args.tradeNo then none
    else
      match if dbOk then s.db.orders.find args.tradeNo else none with
      | none => some (s.goOn i (.done false))
      | some order =>
        if args.expectedPaymentProvider.any fun provider =>
            decide (order.paymentProvider ≠ provider) then some (s.goOn i (.done false))
        else if order.status = .success then some (s.goOn i (.done true))
        else if order.status ≠ .pending then some (s.goOn i (.done false))
        else some (s.goOn i (.orderPlan args order))
  | .orderPlan args order =>
    match if dbOk || decide (order.planId ∈ s.cached) then env.plans.find order.planId
      else none with
    | none => some (s.goOn i (.done false))
    | some plan =>
      some ({ s with cached := plan.id :: s.cached }.goOn i (.orderUser args order plan))
  | .orderUser args order plan =>
    if s.userLocked order.userId then none
    else
      match if dbOk then s.db.users.find order.userId else none with
      | none => some (s.goOn i (.done false))
      | some user => some (s.goOn i (.count (.order args order) plan user none))
  | .expire tradeNo expectedPaymentProvider =>
    if s.busy env || s.orderLocked tradeNo then none
    else
      match if dbOk then s.db.orders.find tradeNo else none with
      | none => some (s.goOn i (.done false))
      | some order =>
        if expectedPaymentProvider.any fun provider =>
            decide (order.paymentProvider ≠ provider) then some (s.goOn i (.done false))
        else if order.status ≠ .pending then some (s.goOn i (.done true))
        else some (s.goOn i (.saveExpired order))
  | .saveExpired order =>
    if dbOk then
      let order := { order with status := .expired, completeTime := input.now }
      some ((s.write ⟨some i, none, some order, none, none⟩).goOn i (.done true))
    else some (s.goOn i (.done false))
  | .purchase userId planId =>
    if s.busy env then none
    else
      -- a plan that is cached is not read, and no view is opened
      let hit := decide (planId ∈ s.cached)
      let view := if hit then none else s.openView env
      match if dbOk || hit then env.plans.find planId else none with
      | none => some (s.goOn i (.done false))
      | some plan =>
        let s := { s with cached := plan.id :: s.cached }
        match balanceQuota env plan with
        | none => some (s.goOn i (.done false))
        | some requiredQuota => some (s.goOn i (.charge userId plan requiredQuota view))
  | .charge userId plan requiredQuota view =>
    if s.userLocked userId then none
    else
      match if dbOk then s.db.users.find userId else none with
      | none => some (s.goOn i (.done false))
      | some user =>
        if 0 < requiredQuota ∧ user.quota < requiredQuota then some (s.goOn i (.done false))
        else
          let user :=
            if 0 < requiredQuota then { user with quota := user.quota - requiredQuota } else user
          some (s.goOn i (.count (.balance requiredQuota) plan user view))
  | .count sale plan user view =>
    if dbOk = false ∨ plan.id = 0 ∨ user.id = 0 then some (s.goOn i (.done false))
    else
      let subs := view.getD s.db.subs
      if 0 < plan.maxPurchasePerUser ∧
          plan.maxPurchasePerUser ≤ countByPlan subs user.id plan.id then
        some (s.goOn i (.done false))
      else some (s.goOn i (.commit sale plan user view))
  | .commit sale plan user _ =>
    match if dbOk then s.saleChange env i sale plan user input else none with
    | none => some (s.goOn i (.done false))
    | some change => some ((s.write change).goOn i (.done true))
  | .done _ => none

def step (env : SaleEnv) (s : SubscriptionSales) : SaleAct → Option SubscriptionSales
  | .place order =>
    if s.busy env ∨ order.status ≠ .pending ∨ (s.db.orders.find order.tradeNo).isSome then none
    else some (s.write ⟨none, none, some order, none, none⟩)
  | .wallet userId delta =>
    if s.busy env || s.userLocked userId then none
    else
      (s.db.users.find userId).map fun user =>
        s.write ⟨none, some { user with quota := user.quota + delta }, none, none, none⟩
  | .evict planId => some { s with cached := s.cached.filter fun id => decide (id ≠ planId) }
  | .complete args =>
    if args.tradeNo = "" then some (s.start (.done false)) else some (s.start (.complete args))
  | .expire tradeNo expectedPaymentProvider =>
    if tradeNo = "" then some (s.start (.done false))
    else some (s.start (.expire tradeNo expectedPaymentProvider))
  | .purchase userId planId =>
    if userId = 0 ∨ planId = 0 then some (s.start (.done false))
    else some (s.start (.purchase userId planId))
  | .advance i dbOk input =>
    match s.calls[i]? with
    | some call => s.advance env i dbOk input call
    | none => none

end SubscriptionSales

end JulongApi

/-
Top-up orders of `model/topup.go`.

A payment is an order, created pending when the user is sent to the provider.  It is
completed by the provider's callback, one routine for each provider, or by an
administrator, and it can be marked failed or expired.  Each of these is one transaction
that locks the order's row, so it is a function from the tables to a result and the tables;
an error leaves them as they were.

The routines differ in what they check, in what the order's `Amount` and `Money` mean to
them and in what else they write.  They share one shape, `completeTopUp`, and each is given
as this shape with its own arguments.
-/
import JulongApi.Lib.Machine
import JulongApi.Lib.Table
import JulongApi.Pricing
import JulongApi.Wallet

namespace JulongApi

/-! ### Rows -/

/-- `PaymentProviderEpay` and its siblings; older orders have none. -/
inductive PaymentProvider where
  | epay
  | stripe
  | creem
  | waffo
  | waffoPancake
  | balance
  | other (name : String)
deriving DecidableEq, Repr

inductive TopUpStatus where
  | pending
  | success
  | failed
  | expired
deriving DecidableEq, Repr

structure TopUp where
  tradeNo : String
  userId : Nat
  amount : Int
  money : ℚ
  paymentMethod : String
  paymentProvider : PaymentProvider
  completeTime : Int
  status : TopUpStatus
deriving DecidableEq

/-- The columns of `User` that a completion reads or writes. -/
structure TopUpUser where
  id : Nat
  quota : Int
  email : String
  stripeCustomer : String
deriving DecidableEq, Repr

structure TopUpDB where
  topUps : Table TopUp.tradeNo
  users : Table TopUpUser.id

namespace TopUpDB

/-- `tx.Save(topUp)` of a row read in the same transaction. -/
def saveTopUp (db : TopUpDB) (topUp : TopUp) : TopUpDB :=
  { db with topUps := db.topUps.save topUp }

/-- `creditTopUpQuota`, with the other columns it is given to update. -/
def creditTopUpQuota (db : TopUpDB) (userId : Nat) (creditedQuota : Int)
    (email stripeCustomer : TopUpUser → String) : Except TopUpError TopUpDB :=
  match topUpQuotaMaxCurrent creditedQuota with
  | .error e => .error e
  | .ok _ =>
    match db.users.find userId with
    | none => .error .recordNotFound
    | some user =>
      match JulongApi.creditTopUpQuota user.quota creditedQuota with
      | .error e => .error e
      | .ok quota => .ok { db with users := db.users.save { user with
          quota := quota
          email := email user
          stripeCustomer := stripeCustomer user } }

/-- A user's stored balance, `0` when there is no such user. -/
def quota (db : TopUpDB) (userId : Nat) : Int := ((db.users.find userId).map (·.quota)).getD 0

end TopUpDB

/-! ### Completing an order -/

/-- `WalletQuotaFromDecimalStrict`; `none` where the value would have to be saturated. -/
def walletQuotaFromDecimalStrict (d : ℚ) : Option Int :=
  match saturateQuotaBounded (roundHalfAway d) "WalletQuotaFromDecimal" maxWalletQuota
      (-maxWalletQuota) with
  | (quota, none) => some quota
  | (_, some _) => none

/-- What tells the completion routines apart. -/
structure Completion where
  /-- the provider the order must have; the administrator's routine checks none -/
  provider : Option PaymentProvider
  /-- a completed order is no error -/
  idempotent : Bool
  quotaToAdd : TopUp → Option Int
  /-- what the order's method becomes -/
  paymentMethod : TopUp → String := TopUp.paymentMethod
  /-- what is written to the user besides -/
  email : TopUpUser → String := TopUpUser.email
  stripeCustomer : TopUpUser → String := TopUpUser.stripeCustomer
  /-- the caller is told `top-up failed`, whatever the error -/
  hidesErrors : Bool

/-- The transaction of a completion: the quota credited, and the tables after it. -/
def completeTopUp (c : Completion) (now : Int) (tradeNo : String) (db : TopUpDB) :
    Except TopUpError (Int × TopUpDB) :=
  match db.topUps.find tradeNo with
  | none => .error .topUpNotFound
  | some topUp =>
    if c.provider.any (· ≠ topUp.paymentProvider) then .error .paymentMethodMismatch
    else if c.idempotent ∧ topUp.status = .success then .ok (0, db)
    else if topUp.status ≠ .pending then .error .topUpStatusInvalid
    else
      match c.quotaToAdd topUp with
      | none => .error .invalidTopUpQuota
      | some quotaToAdd =>
        if quotaToAdd ≤ 0 then .error .invalidTopUpQuota
        else
          let topUp' := { topUp with
            paymentMethod := c.paymentMethod topUp
            completeTime := now
            status := .success }
          ((db.saveTopUp topUp').creditTopUpQuota topUp.userId quotaToAdd c.email
            c.stripeCustomer).map (quotaToAdd, ·)

/-- The routine around the transaction; `dbOk` is whether its statements go through. -/
def rechargeWith (c : Completion) (dbOk : Bool) (now : Int) (tradeNo : String) (db : TopUpDB) :
    Except TopUpError Int × TopUpDB :=
  if tradeNo = "" then (.error .orderNumberNotProvided, db)
  else
    match if dbOk then completeTopUp c now tradeNo db else .error .database with
    | .error e => (.error (if c.hidesErrors then .topUpFailed else e), db)
    | .ok (quotaToAdd, db') => (.ok quotaToAdd, db')

/-- `Amount` in units of `QuotaPerUnit`. -/
def quotaFromUnits (quotaPerUnit : ℚ) (topUp : TopUp) : Option Int :=
  walletQuotaFromDecimalStrict (topUp.amount * quotaPerUnit)

/-- `Money` in units of `QuotaPerUnit`. -/
def quotaFromMoney (quotaPerUnit : ℚ) (topUp : TopUp) : Option Int :=
  walletQuotaFromDecimalStrict (topUp.money * quotaPerUnit)

/-- `RechargeEpay`: the order takes over the method that was really used. -/
def rechargeEpay (quotaPerUnit : ℚ) (actualPaymentMethod : String) : Completion where
  provider := some .epay
  idempotent := true
  quotaToAdd := quotaFromUnits quotaPerUnit
  paymentMethod t :=
    if actualPaymentMethod ≠ "" ∧ t.paymentMethod ≠ actualPaymentMethod then actualPaymentMethod
    else t.paymentMethod
  hidesErrors := false

/-- `Recharge`, for Stripe: the order's money counts, and a second call is an error. -/
def recharge (quotaPerUnit : ℚ) (customerId : String) : Completion where
  provider := some .stripe
  idempotent := false
  quotaToAdd := quotaFromMoney quotaPerUnit
  stripeCustomer _ := customerId
  hidesErrors := true

/-- `RechargeCreem`: the order's amount is the quota itself. -/
def rechargeCreem (customerEmail : String) : Completion where
  provider := some .creem
  idempotent := false
  quotaToAdd t := walletQuotaFromDecimalStrict t.amount
  email u := if customerEmail ≠ "" ∧ u.email = "" then customerEmail else u.email
  hidesErrors := true

def rechargeWaffo (quotaPerUnit : ℚ) : Completion where
  provider := some .waffo
  idempotent := true
  quotaToAdd := quotaFromUnits quotaPerUnit
  hidesErrors := true

def rechargeWaffoPancake (quotaPerUnit : ℚ) : Completion where
  provider := some .waffoPancake
  idempotent := true
  quotaToAdd := quotaFromUnits quotaPerUnit
  hidesErrors := true

/-- `ManualCompleteTopUp`: no provider is checked, and only Stripe is told apart. -/
def manualCompleteTopUp (quotaPerUnit : ℚ) : Completion where
  provider := none
  idempotent := true
  quotaToAdd t :=
    if t.paymentProvider = .stripe then quotaFromMoney quotaPerUnit t
    else quotaFromUnits quotaPerUnit t
  hidesErrors := false

/-- `UpdatePendingTopUpStatus`; `none` stands for an empty expected provider. -/
def updatePendingTopUpStatus (dbOk : Bool) (tradeNo : String)
    (expectedPaymentProvider : Option PaymentProvider) (targetStatus : TopUpStatus)
    (db : TopUpDB) : Except TopUpError Unit × TopUpDB :=
  if tradeNo = "" then (.error .orderNumberNotProvided, db)
  else if !dbOk then (.error .database, db)
  else
    match db.topUps.find tradeNo with
    | none => (.error .topUpNotFound, db)
    | some topUp =>
      if expectedPaymentProvider.any (· ≠ topUp.paymentProvider) then
        (.error .paymentMethodMismatch, db)
      else if topUp.status ≠ .pending then (.error .topUpStatusInvalid, db)
      else (.ok (), db.saveTopUp { topUp with status := targetStatus })

/-! ### Calls in any order -/

inductive TopUpCall where
  | rechargeEpay (actualPaymentMethod : String)
  | recharge (customerId : String)
  | rechargeCreem (customerEmail : String)
  | rechargeWaffo
  | rechargeWaffoPancake
  | manualCompleteTopUp
  | updatePendingTopUpStatus (expectedPaymentProvider : Option PaymentProvider)
      (targetStatus : TopUpStatus)
deriving DecidableEq, Repr

/-- The completion a call is, if it is one. -/
def TopUpCall.completion (quotaPerUnit : ℚ) : TopUpCall → Option Completion
  | .rechargeEpay method => some (JulongApi.rechargeEpay quotaPerUnit method)
  | .recharge customerId => some (JulongApi.recharge quotaPerUnit customerId)
  | .rechargeCreem email => some (JulongApi.rechargeCreem email)
  | .rechargeWaffo => some (JulongApi.rechargeWaffo quotaPerUnit)
  | .rechargeWaffoPancake => some (JulongApi.rechargeWaffoPancake quotaPerUnit)
  | .manualCompleteTopUp => some (JulongApi.manualCompleteTopUp quotaPerUnit)
  | .updatePendingTopUpStatus _ _ => none

/-- The provider whose callback the call is. -/
def TopUpCall.provider : TopUpCall → Option PaymentProvider
  | .rechargeEpay _ => some .epay
  | .recharge _ => some .stripe
  | .rechargeCreem _ => some .creem
  | .rechargeWaffo => some .waffo
  | .rechargeWaffoPancake => some .waffoPancake
  | .manualCompleteTopUp => none
  | .updatePendingTopUpStatus _ _ => none

/-- What a call leaves of the tables. -/
def TopUpCall.apply (quotaPerUnit : ℚ) (dbOk : Bool) (now : Int) (tradeNo : String)
    (db : TopUpDB) (call : TopUpCall) : TopUpDB :=
  match call with
  | .updatePendingTopUpStatus expected target =>
    (JulongApi.updatePendingTopUpStatus dbOk tradeNo expected target db).2
  | call =>
    match call.completion quotaPerUnit with
    | some c => (rechargeWith c dbOk now tradeNo db).2
    | none => db

/-- A call with its order; the unit price may have been changed since the last. -/
structure TopUpAct where
  call : TopUpCall
  tradeNo : String
  quotaPerUnit : ℚ
  dbOk : Bool
  now : Int
deriving DecidableEq

/-- A change of the wallet of an order's user during a call on the order. -/
structure Credit where
  act : TopUpAct
  amount : Int
  /-- the order before the call, and after it -/
  before : TopUp
  after : Option TopUp
deriving DecidableEq

structure TopUpSystem where
  db : TopUpDB
  credits : List Credit

namespace TopUpSystem

def start (db : TopUpDB) : TopUpSystem := ⟨db, []⟩

/-- What a call on an order did to the wallet of the order's user. -/
def creditOf (act : TopUpAct) (db db' : TopUpDB) : Option Credit :=
  match db.topUps.find act.tradeNo with
  | none => none
  | some order =>
    if db'.quota order.userId = db.quota order.userId then none
    else some
      { act := act
        amount := db'.quota order.userId - db.quota order.userId
        before := order
        after := db'.topUps.find act.tradeNo }

def step (s : TopUpSystem) (act : TopUpAct) : Option TopUpSystem :=
  let db := act.call.apply act.quotaPerUnit act.dbOk act.now act.tradeNo s.db
  some ⟨db, (creditOf act s.db db).toList ++ s.credits⟩

def creditsOf (s : TopUpSystem) (tradeNo : String) : List Credit :=
  s.credits.filter fun c => c.act.tradeNo = tradeNo

end TopUpSystem

end JulongApi

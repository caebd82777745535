/-
Everything that writes a user's wallet.

Requests reserve and settle, administrators and the gateway itself give quota back, a
payment or a redemption code credits it, a check-in awards some, an agent gets a charge
refunded, and the batch updater writes what has been queued.  They come from
`model/quota_reserve.go`, `model/user.go`, `model/topup.go`, `model/checkin.go`,
`model/redemption.go` and `model/utils.go`, and they share the one column.

Each is one statement on the column, or one addition to the batch store, so any
interleaving of them is a sequence of these actions.
-/
import JulongApi.BillingSession
import JulongApi.Lib.Machine

namespace JulongApi

/-! ### Credits -/

inductive TopUpError where
  /-- `payment order number not provided` -/
  | orderNumberNotProvided
  /-- `ErrTopUpNotFound` -/
  | topUpNotFound
  /-- `ErrPaymentMethodMismatch` -/
  | paymentMethodMismatch
  /-- `ErrTopUpStatusInvalid` -/
  | topUpStatusInvalid
  /-- `ErrInvalidTopUpQuota` -/
  | invalidTopUpQuota
  /-- `ErrTopUpQuotaLimitExceeded` -/
  | topUpQuotaLimitExceeded
  /-- `gorm.ErrRecordNotFound`, of the user -/
  | recordNotFound
  /-- whatever the driver reported -/
  | database
  /-- `top-up failed`: what the callbacks turn every error into -/
  | topUpFailed
deriving DecidableEq, Repr

/-- `topUpQuotaMaxCurrent`: the balance above which the credit does not fit. -/
def topUpQuotaMaxCurrent (creditedQuota : Int) : Except TopUpError Int :=
  if creditedQuota ≤ 0 ∨ maxWalletQuota < creditedQuota then .error .invalidTopUpQuota
  else .ok (maxWalletQuota - creditedQuota)

/-- `creditTopUpQuota` on the stored balance of a user that exists. -/
def creditTopUpQuota (quota creditedQuota : Int) : Except TopUpError Int :=
  match topUpQuotaMaxCurrent creditedQuota with
  | .error e => .error e
  | .ok maxCurrentQuota =>
    if quota ≤ maxCurrentQuota then .ok (quota + creditedQuota)
    else .error .topUpQuotaLimitExceeded

structure CheckinSetting where
  minQuota : Int
  maxQuota : Int
deriving DecidableEq, Repr

/-- `quotaAwarded` of `UserCheckin`, `roll` being what `rand.Intn` gave. -/
def CheckinSetting.quotaAwarded (setting : CheckinSetting) (roll : Nat) : Int :=
  if setting.minQuota < setting.maxQuota then setting.minQuota + roll else setting.minQuota

/-- `IncreaseUserQuota(id, quota, db)`: with `db` the batch store is passed by. -/
def increaseUserQuotaWith (db : Bool) (cfg : QuotaConfig) (r : QuotaReply) (c : QuotaColumn)
    (quota : Int) : Except QuotaError Unit × QuotaColumn :=
  increaseUserQuota { cfg with batchUpdateEnabled := cfg.batchUpdateEnabled && !db } r c quota

/-- The unguarded `quota + ?`. -/
def QuotaColumn.add (c : QuotaColumn) (dbOk : Bool) (delta : Int) : QuotaColumn :=
  if dbOk then { c with stored := c.stored + delta } else c

/-! ### The wallet of one user -/

structure WalletSystem where
  column : QuotaColumn
  /-- what the batch updater has taken out of its map and not written yet -/
  flushing : Option Int
deriving DecidableEq, Repr

/-- One statement on the column or one addition to the batch store. -/
inductive WalletAct where
  /-- `TryReserveUserQuota` -/
  | reserve (r : QuotaReply) (quota : Int)
  /-- `WalletFunding.Settle` -/
  | settle (r : QuotaReply) (delta : Int)
  /-- `IncreaseUserQuota` -/
  | increase (db : Bool) (r : QuotaReply) (quota : Int)
  /-- `creditTopUpQuota`, in a transaction that may be rolled back -/
  | creditTopUp (creditedQuota : Int) (committed : Bool)
  /-- `userCheckinWithTransaction`, or `userCheckinWithoutTransaction` on SQLite -/
  | checkin (sqlite : Bool) (setting : CheckinSetting) (roll : Nat) (r : QuotaReply)
  /-- the wallet update of `refundAgentRedemptionCharge` -/
  | refundAgent (refund : Int) (dbOk : Bool)
  /-- the batch updater takes its map -/
  | swap
  /-- ... and writes the user's entry -/
  | flush (dbOk : Bool)
deriving DecidableEq, Repr

namespace WalletSystem

def idle (quota : Int) : WalletSystem := ⟨⟨quota, 0⟩, none⟩

def step (cfg : QuotaConfig) (s : WalletSystem) : WalletAct → Option WalletSystem
  | .reserve r quota => some { s with column := (tryReserveUserQuota cfg r s.column quota).2 }
  | .settle r delta => some { s with column := (WalletFunding.settle cfg r s.column delta).2 }
  | .increase db r quota =>
    some { s with column := (increaseUserQuotaWith db cfg r s.column quota).2 }
  | .creditTopUp creditedQuota committed =>
    match creditTopUpQuota s.column.stored creditedQuota with
    | .ok quota =>
      some (if committed then { s with column := { s.column with stored := quota } } else s)
    | .error _ => some s
  | .checkin sqlite setting roll r =>
    if sqlite then
      some { s with
        column := (increaseUserQuotaWith true cfg r s.column (setting.quotaAwarded roll)).2 }
    else some { s with column := s.column.add r.dbOk (setting.quotaAwarded roll) }
  | .refundAgent refund dbOk => some { s with column := s.column.add dbOk refund }
  | .swap =>
    match s.flushing with
    | none => some ⟨{ s.column with pending := 0 }, some s.column.pending⟩
    | some _ => none
  | .flush dbOk =>
    match s.flushing with
    | some delta => some ⟨s.column.add dbOk delta, none⟩
    | none => none

end WalletSystem

end JulongApi

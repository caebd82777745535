/-
Subscriptions: the tables of `model/subscription.go` and the calls that charge them.

Every call below is one database transaction, written as a function from the tables
before it to its result and the tables after it; an error leaves the tables as they
were, because the transaction is rolled back.  The one call that is not a single
transaction is `refundSubscriptionPreConsume`: it runs
`PostConsumeUserSubscriptionDelta`, which commits on its own, in the middle of the
transaction that marks the record, and the definition keeps the two apart.

The primary key and the unique index on the request id are what `Table` carries, so
no call can build tables that violate them.
-/
import JulongApi.Lib.Int64
import JulongApi.Lib.Table
import JulongApi.Strings

namespace JulongApi

/-! ### Rows -/

/-- `NormalizeResetPeriod` of a plan's `QuotaResetPeriod`. -/
inductive ResetPeriod where
  | never
  | daily
  | weekly
  | monthly
  | custom
deriving DecidableEq, Repr

structure SubscriptionPlan where
  quotaResetPeriod : ResetPeriod
  quotaResetCustomSeconds : Int
deriving DecidableEq, Repr

inductive SubscriptionStatus where
  | active
  | expired
  | cancelled
deriving DecidableEq, Repr

structure UserSubscription where
  id : Nat
  userId : Nat
  planId : Nat
  /-- `0` is unlimited. -/
  amountTotal : Int
  amountUsed : Int
  startTime : Int
  endTime : Int
  status : SubscriptionStatus
  lastResetTime : Int
  nextResetTime : Int
deriving DecidableEq, Repr

inductive RecordStatus where
  | consumed
  | refunded
deriving DecidableEq, Repr

/-- The idempotency record of one request's pre-consume. -/
structure SubscriptionPreConsumeRecord where
  requestId : String
  userId : Nat
  userSubscriptionId : Nat
  preConsumed : Int
  status : RecordStatus
deriving DecidableEq, Repr

structure SubscriptionPreConsumeResult where
  userSubscriptionId : Nat
  preConsumed : Int
  amountTotal : Int
  amountUsedBefore : Int
  amountUsedAfter : Int
deriving DecidableEq, Repr

inductive SubscriptionError where
  | invalidUserId
  | requestIdEmpty
  | amountNotPositive
  | invalidUserSubscriptionId
  | invalidPlanId
  | alreadyRefunded
  | noActiveSubscription
  /-- `subscription quota insufficient, need=%d` -/
  | quotaInsufficient (need : Int)
  /-- `subscription used exceeds total, used=%d total=%d` -/
  | usedExceedsTotal (used total : Int)
  | recordNotFound
  | duplicateKey
  /-- whatever the driver reported -/
  | database
  /-- no error of the source: the call hangs in its reset loop and commits nothing -/
  | neverReturns
deriving DecidableEq, Repr

/-! ### Tables -/

abbrev SubscriptionTable := Table UserSubscription.id

/-- `subscription_pre_consume_records`, by the unique index on `request_id`. -/
abbrev RecordTable := Table SubscriptionPreConsumeRecord.requestId

structure SubscriptionDB where
  subs : SubscriptionTable
  records : RecordTable

namespace SubscriptionDB

/-- `tx.Save(&sub)` of a row read in the same transaction. -/
def saveSub (db : SubscriptionDB) (sub : UserSubscription) : SubscriptionDB :=
  { db with subs := db.subs.save sub }

/-- `tx.Save(&record)` of a row read in the same transaction. -/
def saveRecord (db : SubscriptionDB) (record : SubscriptionPreConsumeRecord) :
    SubscriptionDB :=
  { db with records := db.records.save record }

/-- `tx.Create(record)`: `none` is the unique index refusing the row. -/
def createRecord (db : SubscriptionDB) (record : SubscriptionPreConsumeRecord) :
    Option SubscriptionDB :=
  (db.records.insert record).map fun records => { db with records := records }

/-- `AmountUsed` of a row, `0` when there is none. -/
def amountUsed (db : SubscriptionDB) (id : Nat) : Int :=
  ((db.subs.find id).map (·.amountUsed)).getD 0

end SubscriptionDB

/-! ### The periodic reset -/

/--
The calendar of the server's time zone: the next midnight, the next Monday and the
next first of the month after a moment, in Unix seconds.
-/
structure Calendar where
  nextDay : Int → Int
  nextMonday : Int → Int
  nextMonth : Int → Int

/--
`calcNextResetTime`: `0` means that no further reset falls before `endUnix`.  A custom
period is multiplied into nanoseconds first, and the product wraps.
-/
def calcNextResetTime (cal : Calendar) (base : Int) (plan : SubscriptionPlan)
    (endUnix : Int) : Int :=
  let capped (next : Int) : Int := if 0 < endUnix ∧ endUnix < next then 0 else next
  match plan.quotaResetPeriod with
  | .never => 0
  | .daily => capped (cal.nextDay base)
  | .weekly => capped (cal.nextMonday base)
  | .monthly => capped (cal.nextMonth base)
  | .custom =>
    if plan.quotaResetCustomSeconds ≤ 0 then 0
    else capped (base + wrapInt64 (plan.quotaResetCustomSeconds * 10 ^ 9) / 10 ^ 9)

/--
The loop of `maybeResetUserSubscriptionWithPlanTx`: from `base`, step to the next
boundary while that boundary is not after `now`.  Returns the last `base`, the next
boundary after it, and whether the loop ran at all; `none` when `fuel` runs out.
-/
def advanceReset (cal : Calendar) (plan : SubscriptionPlan) (endUnix now : Int) :
    (fuel : Nat) → (base : Int) → Option (Int × Int × Bool)
  | 0, _ => none
  | fuel + 1, base =>
    let next := calcNextResetTime cal base plan endUnix
    if 0 < next ∧ next ≤ now then
      match advanceReset cal plan endUnix now fuel next with
      | none => none
      | some (base', next', _) => some (base', next', true)
    else some (base, next, false)

/--
As many steps as the loop can take without coming back to a boundary: all of them lie between zero
and `now`.
-/
def resetFuel (now base : Int) : Nat := (now - base).toNat + base.toNat + 1

/--
`maybeResetUserSubscriptionWithPlanTx`: the row as it is saved; `none` when the loop
stands still on one boundary and the call never comes back.
-/
def maybeResetUserSubscriptionWithPlanTx (cal : Calendar) (sub : UserSubscription)
    (plan : SubscriptionPlan) (now : Int) : Option UserSubscription :=
  if 0 < sub.nextResetTime ∧ now < sub.nextResetTime then some sub
  else if plan.quotaResetPeriod = .never then some sub
  else
    let baseUnix := if sub.lastResetTime ≤ 0 then sub.startTime else sub.lastResetTime
    match advanceReset cal plan sub.endTime now (resetFuel now baseUnix) baseUnix with
    | none => none
    | some (base, next, false) =>
      if sub.nextResetTime = 0 ∧ 0 < next then
        some { sub with nextResetTime := next, lastResetTime := base }
      else some sub
    | some (base, next, true) =>
      some { sub with amountUsed := 0, lastResetTime := base, nextResetTime := next }

/-! ### Charging -/

/-- Where the subscription calls look things up: plans by id, and the calendar. -/
structure SubscriptionEnv where
  plans : Nat → Option SubscriptionPlan
  calendar : Calendar

/-- How the database treats one transaction: `some e` fails it with `e`. -/
abbrev TxReply := Option SubscriptionError

/-- `ORDER BY end_time asc, id asc`. -/
def drawnBefore (a b : UserSubscription) : Prop :=
  a.endTime < b.endTime ∨ (a.endTime = b.endTime ∧ a.id ≤ b.id)

instance : DecidableRel drawnBefore := fun a b =>
  inferInstanceAs (Decidable (a.endTime < b.endTime ∨ (a.endTime = b.endTime ∧ a.id ≤ b.id)))

/-- The candidates `PreConsumeUserSubscription` locks. -/
def activeSubs (db : SubscriptionDB) (userId : Nat) (now : Int) : List UserSubscription :=
  (db.subs.rows.filter fun row =>
    row.userId == userId && row.status == .active && decide (now < row.endTime)).insertionSort
    drawnBefore

/-- One call of `PreConsumeUserSubscription`. -/
structure PreConsumeArgs where
  requestId : String
  userId : Nat
  amount : Int
  now : Int
deriving DecidableEq, Repr

/-- The record a call creates on the subscription it charges. -/
def PreConsumeArgs.record (args : PreConsumeArgs) (subId : Nat) :
    SubscriptionPreConsumeRecord where
  requestId := args.requestId
  userId := args.userId
  userSubscriptionId := subId
  preConsumed := args.amount
  status := .consumed

/--
The loop of `PreConsumeUserSubscription` over the locked candidates.  A candidate is
reset if it is due and skipped if too little of it remains; the first that fits gets
the record and the charge.  When the unique index refuses the record, the row already
there is looked up; `dupVisible` says whether this transaction can see it, which is
the database's business (its isolation level, and whether an error ends the
transaction).
-/
def preConsumeFrom (env : SubscriptionEnv) (args : PreConsumeArgs) (dupVisible : Bool) :
    SubscriptionDB → List UserSubscription →
      Except SubscriptionError SubscriptionPreConsumeResult × SubscriptionDB
  | db, [] => (.error (.quotaInsufficient args.amount), db)
  | db, candidate :: rest =>
    match env.plans candidate.planId with
    | none => (.error .invalidPlanId, db)
    | some plan =>
      match maybeResetUserSubscriptionWithPlanTx env.calendar candidate plan args.now with
      | none => (.error .neverReturns, db)
      | some sub =>
        let db := db.saveSub sub
        if 0 < sub.amountTotal ∧ sub.amountTotal - sub.amountUsed < args.amount then
          preConsumeFrom env args dupVisible db rest
        else
          match db.createRecord (args.record sub.id) with
          | none =>
            match if dupVisible then db.records.find args.requestId else none with
            | none => (.error .duplicateKey, db)
            | some dup =>
              if dup.status = .refunded then (.error .alreadyRefunded, db)
              else
                (.ok { userSubscriptionId := sub.id
                       preConsumed := dup.preConsumed
                       amountTotal := sub.amountTotal
                       amountUsedBefore := sub.amountUsed
                       amountUsedAfter := sub.amountUsed }, db)
          | some db =>
            let used := sub.amountUsed + args.amount
            (.ok { userSubscriptionId := sub.id
                   preConsumed := args.amount
                   amountTotal := sub.amountTotal
                   amountUsedBefore := sub.amountUsed
                   amountUsedAfter := used },
              db.saveSub { sub with amountUsed := used })

/-- The part of the transaction after the first lookup found no record. -/
def preConsumeLocked (env : SubscriptionEnv) (args : PreConsumeArgs) (dupVisible : Bool)
    (db : SubscriptionDB) :
    Except SubscriptionError SubscriptionPreConsumeResult × SubscriptionDB :=
  match activeSubs db args.userId args.now with
  | [] => (.error .noActiveSubscription, db)
  | candidates => preConsumeFrom env args dupVisible db candidates

/-- The answer when the first lookup finds the request's record. -/
def preConsumeExisting (db : SubscriptionDB) (existing : SubscriptionPreConsumeRecord) :
    Except SubscriptionError SubscriptionPreConsumeResult :=
  if existing.status = .refunded then .error .alreadyRefunded
  else
    match db.subs.find existing.userSubscriptionId with
    | none => .error .recordNotFound
    | some sub =>
      .ok { userSubscriptionId := sub.id
            preConsumed := existing.preConsumed
            amountTotal := sub.amountTotal
            amountUsedBefore := sub.amountUsed
            amountUsedAfter := sub.amountUsed }

/-- The argument checks before the transaction is opened. -/
def PreConsumeArgs.check (args : PreConsumeArgs) : Option SubscriptionError :=
  if args.userId = 0 then some .invalidUserId
  else if isBlank args.requestId then some .requestIdEmpty
  else if args.amount ≤ 0 then some .amountNotPositive
  else none

/-- `PreConsumeUserSubscription`, with nothing running beside it. -/
def preConsumeUserSubscription (env : SubscriptionEnv) (tx : TxReply) (args : PreConsumeArgs)
    (db : SubscriptionDB) :
    Except SubscriptionError SubscriptionPreConsumeResult × SubscriptionDB :=
  match args.check with
  | some e => (.error e, db)
  | none =>
    match tx with
    | some e => (.error e, db)
    | none =>
      match db.records.find args.requestId with
      | some existing => (preConsumeExisting db existing, db)
      | none =>
        match preConsumeLocked env args true db with
        | (.ok res, db') => (.ok res, db')
        | (.error e, _) => (.error e, db)

/-! ### Settling and refunding -/

/-- `PostConsumeUserSubscriptionDelta`: positive consumes more, negative gives back. -/
def postConsumeUserSubscriptionDelta (tx : TxReply) (db : SubscriptionDB)
    (userSubscriptionId : Nat) (delta : Int) : Except SubscriptionError Unit × SubscriptionDB :=
  if userSubscriptionId = 0 then (.error .invalidUserSubscriptionId, db)
  else if delta = 0 then (.ok (), db)
  else
    match tx with
    | some e => (.error e, db)
    | none =>
      match db.subs.find userSubscriptionId with
      | none => (.error .recordNotFound, db)
      | some sub =>
        let newUsed := max (sub.amountUsed + delta) 0
        if 0 < sub.amountTotal ∧ sub.amountTotal < newUsed then
          (.error (.usedExceedsTotal newUsed sub.amountTotal), db)
        else (.ok (), db.saveSub { sub with amountUsed := newUsed })

/--
Where one attempt of `RefundSubscriptionPreConsume` can fail: reading the record
under its lock, anywhere in the nested transaction, saving the record, committing.
-/
structure RefundFaults where
  lock : TxReply
  nested : TxReply
  save : TxReply
  commit : TxReply
deriving DecidableEq, Repr

/-- An attempt in which nothing fails. -/
def RefundFaults.none : RefundFaults := ⟨.none, .none, .none, .none⟩

/-- Saving the record as refunded and committing. -/
def markRefunded (f : RefundFaults) (record : SubscriptionPreConsumeRecord)
    (db : SubscriptionDB) : Except SubscriptionError Unit × SubscriptionDB :=
  match f.save, f.commit with
  | some e, _ => (.error e, db)
  | .none, some e => (.error e, db)
  | .none, .none => (.ok (), db.saveRecord { record with status := .refunded })

def refundSubscriptionPreConsume (f : RefundFaults) (requestId : String)
    (db : SubscriptionDB) : Except SubscriptionError Unit × SubscriptionDB :=
  if isBlank requestId then (.error .requestIdEmpty, db)
  else
    match f.lock with
    | some e => (.error e, db)
    | .none =>
      match db.records.find requestId with
      | .none => (.error .recordNotFound, db)
      | some record =>
        if record.status = .refunded then
          match f.commit with
          | some e => (.error e, db)
          | .none => (.ok (), db)
        else if record.preConsumed ≤ 0 then markRefunded f record db
        else
          match postConsumeUserSubscriptionDelta f.nested db record.userSubscriptionId
              (-record.preConsumed) with
          | (.error e, db') => (.error e, db')
          -- Committed on its own: rolling the record back does not undo it.
          | (.ok (), db') => markRefunded f record db'

/-- `ResetDueSubscriptions` on one row: locked, re-checked, reset. -/
def resetDueSubscription (env : SubscriptionEnv) (db : SubscriptionDB) (id : Nat) (now : Int) :
    SubscriptionDB :=
  match db.subs.find id with
  | none => db
  | some sub =>
    if 0 < sub.nextResetTime ∧ sub.nextResetTime ≤ now then
      match env.plans sub.planId with
      | none => db
      | some plan =>
        match maybeResetUserSubscriptionWithPlanTx env.calendar sub plan now with
        | none => db
        | some sub => db.saveSub sub
    else db

end JulongApi

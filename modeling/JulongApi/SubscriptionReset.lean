/-
One subscription with a periodic reset, from its creation on.

`CreateUserSubscriptionFromPlanTx` writes the first reset times, the periodic reset moves
them on (`maybeResetUserSubscriptionWithPlanTx`, in `Subscription`), and an administrator
may reset the amount used at any time and start the schedule afresh from there
(`resetUserSubscriptionTx`).  Each runs under a lock of the row, so each is one action; the
times at which they run never decrease.
-/
import JulongApi.Lib.Machine
import JulongApi.Lib.Orbit
import JulongApi.Subscription

namespace JulongApi

/-! ### The schedule of a plan -/

/-- The next period boundary of a plan after a moment, whatever the end of a subscription. -/
def SubscriptionPlan.boundary (plan : SubscriptionPlan) (cal : Calendar) (base : Int) : Int :=
  match plan.quotaResetPeriod with
  | .never => base
  | .daily => cal.nextDay base
  | .weekly => cal.nextMonday base
  | .monthly => cal.nextMonth base
  | .custom => base + plan.quotaResetCustomSeconds

/-- The plan has a periodic reset; a custom period has to be positive for that. -/
def SubscriptionPlan.Periodic (plan : SubscriptionPlan) : Prop :=
  plan.quotaResetPeriod ≠ .never ∧
    (plan.quotaResetPeriod = .custom → 0 < plan.quotaResetCustomSeconds)

/-- A custom period is at most some 292 years, so that it fits an `int64` of nanoseconds. -/
def SubscriptionPlan.Fits (plan : SubscriptionPlan) : Prop :=
  plan.quotaResetPeriod = .custom → plan.quotaResetCustomSeconds * 10 ^ 9 < 2 ^ 63

/--
From `start` to `last` the boundaries of the plan come in order: each lies after the moment it is
asked at, and a later moment has no earlier one.  `time.Date` and `AddDate` give such midnights
where the clock does not jump over one or show it twice.
-/
structure SubscriptionPlan.InOrder (plan : SubscriptionPlan) (cal : Calendar) (start last : Int) :
    Prop where
  ahead : ∀ base, start ≤ base → base ≤ last → base < plan.boundary cal base
  ordered : ∀ x y, start ≤ x → x ≤ y → y ≤ last → plan.boundary cal x ≤ plan.boundary cal y

/-! ### Creating and resetting -/

/-- The row `CreateUserSubscriptionFromPlanTx` creates at `now`, to end at `endUnix`. -/
def createUserSubscriptionFromPlan (cal : Calendar) (plan : SubscriptionPlan)
    (id userId planId : Nat) (amountTotal now endUnix : Int) : UserSubscription :=
  let nextReset := calcNextResetTime cal now plan endUnix
  let lastReset := if 0 < nextReset then now else 0
  { id := id
    userId := userId
    planId := planId
    amountTotal := amountTotal
    amountUsed := 0
    startTime := now
    endTime := endUnix
    status := .active
    lastResetTime := lastReset
    nextResetTime := nextReset }

/-- `resetUserSubscriptionTx`, the reset by an administrator. -/
def resetUserSubscriptionTx (cal : Calendar) (sub : UserSubscription) (plan : SubscriptionPlan)
    (now : Int) (advanceResetTime : Bool) : UserSubscription :=
  if advanceResetTime then
    let nextReset := calcNextResetTime cal now plan sub.endTime
    { sub with
      amountUsed := 0
      nextResetTime := nextReset
      lastResetTime := if 0 < nextReset then now else 0 }
  else { sub with amountUsed := 0 }

/-- Where the periodic reset counts from. -/
def UserSubscription.resetBase (sub : UserSubscription) : Int :=
  if sub.lastResetTime ≤ 0 then sub.startTime else sub.lastResetTime

/-- `advanced` of the periodic reset: whether it reaches a boundary and zeroes the amount used. -/
def resetAdvances (cal : Calendar) (sub : UserSubscription) (plan : SubscriptionPlan)
    (now : Int) : Bool :=
  if 0 < sub.nextResetTime ∧ now < sub.nextResetTime then false
  else if plan.quotaResetPeriod = .never then false
  else
    let next := calcNextResetTime cal sub.resetBase plan sub.endTime
    decide (0 < next ∧ next ≤ now)

/-! ### The system -/

structure ResetSystem where
  sub : UserSubscription
  /-- the latest time at which anything ran -/
  clock : Int
  /-- how often the periodic reset has zeroed the amount used -/
  zeroings : Nat

inductive ResetAct where
  /-- `maybeResetUserSubscriptionWithPlanTx` -/
  | maybeReset (now : Int)
  /-- any charge or refund -/
  | charge (delta : Int)
  /-- an administrator's reset, of a subscription that is active and has not ended -/
  | adminReset (now : Int) (advanceResetTime : Bool)
deriving DecidableEq, Repr

namespace ResetSystem

def start (cal : Calendar) (plan : SubscriptionPlan) (id userId planId : Nat)
    (amountTotal now endUnix : Int) : ResetSystem where
  sub := createUserSubscriptionFromPlan cal plan id userId planId amountTotal now endUnix
  clock := now
  zeroings := 0

def step (cal : Calendar) (plan : SubscriptionPlan) (s : ResetSystem) :
    ResetAct → Option ResetSystem
  | .maybeReset now =>
    if now < s.clock then none
    else
      match maybeResetUserSubscriptionWithPlanTx cal s.sub plan now with
      | none => none
      | some sub => some {
          sub := sub
          clock := now
          zeroings := s.zeroings + if resetAdvances cal s.sub plan now then 1 else 0 }
  | .charge delta =>
    some { s with sub := { s.sub with amountUsed := s.sub.amountUsed + delta } }
  | .adminReset now advanceResetTime =>
    if now < s.clock ∨ s.sub.status ≠ .active ∨ s.sub.endTime ≤ now then none
    else some { s with
      sub := resetUserSubscriptionTx cal s.sub plan now advanceResetTime
      clock := now }

end ResetSystem

end JulongApi

/-
The periodic reset on a server's clock: `calcNextResetTime` of `model/subscription.go` with the
server's time zone opened up, and the loop of `maybeResetUserSubscriptionWithPlanTx` over it.

Times are Unix seconds.  `Subscription` has the same two functions over any calendar; here midnights
are what `time.Date` and `AddDate` make of them in a zone (`calendarIn`).
-/
import JulongApi.Lib.Civil
import JulongApi.Lib.WallClock
import JulongApi.Subscription

namespace JulongApi

open WallClock Civil

/-- The date the wall clock shows, as a number of days. -/
def localDay (zone : Zone) (t : Int) : Int := zone.clock t / day

/-- `Weekday`, with Sunday as 0. -/
def weekday (d : Int) : Int := (d + 4) % 7

/-- `time.Date(…, 0, 0, 0, 0, loc)`, of a number of days. -/
def midnight (zone : Zone) (d : Int) : Int := zone.date (day * d)

/-- `AddDate(0, 0, n)`. -/
def addDays (zone : Zone) (t n : Int) : Int := zone.date (zone.clock t + day * n)

/-- `AddDate(0, 1, 0)`. -/
def addOneMonth (zone : Zone) (t : Int) : Int :=
  zone.date (day * addMonth (zone.clock t / day) + zone.clock t % day)

/-- The days until the next Monday, which is never the same day. -/
def daysUntilMonday (d : Int) : Int :=
  8 - (if weekday d = 0 then 7 else weekday d)

def calendarIn (zone : Zone) : Calendar where
  nextDay base := addDays zone (midnight zone (localDay zone base)) 1
  nextMonday base :=
    addDays zone (midnight zone (localDay zone base)) (daysUntilMonday (localDay zone base))
  nextMonth base := addOneMonth zone (midnight zone (monthStart (monthOf (localDay zone base))))

/-- `calcNextResetTime`, in the zone of `base`. -/
def calcNextResetTimeIn (zone : Zone) (base : Int) (plan : SubscriptionPlan) (endUnix : Int) :
    Int :=
  let capped (next : Int) : Int := if 0 < endUnix ∧ endUnix < next then 0 else next
  let today := localDay zone base
  match plan.quotaResetPeriod with
  | .never => 0
  | .daily => capped (addDays zone (midnight zone today) 1)
  | .weekly => capped (addDays zone (midnight zone today) (daysUntilMonday today))
  | .monthly => capped (addOneMonth zone (midnight zone (monthStart (monthOf today))))
  | .custom =>
    if plan.quotaResetCustomSeconds ≤ 0 then 0
    else capped (base + wrapInt64 (plan.quotaResetCustomSeconds * 10 ^ 9) / 10 ^ 9)

/-- The loop of `maybeResetUserSubscriptionWithPlanTx`, and what is over when it ends. -/
def catchUp (next : Int → Int) (now : Int) : (fuel : Nat) → (base : Int) →
    Option (Int × Int × Bool)
  | 0, _ => none
  | fuel + 1, base =>
    if 0 < next base ∧ next base ≤ now then
      (catchUp next now fuel (next base)).map fun result => (result.1, result.2.1, true)
    else some (base, next base, false)

/-- `maybeResetUserSubscriptionWithPlanTx`; nothing as long as the fuel does not suffice. -/
def maybeResetIn (zone : Zone) (sub : UserSubscription) (plan : SubscriptionPlan) (now : Int)
    (fuel : Nat) : Option UserSubscription :=
  if 0 < sub.nextResetTime ∧ now < sub.nextResetTime then some sub
  else if plan.quotaResetPeriod = .never then some sub
  else
    let baseUnix := if sub.lastResetTime ≤ 0 then sub.startTime else sub.lastResetTime
    (catchUp (fun base => calcNextResetTimeIn zone base plan sub.endTime) now fuel baseUnix).map
      fun result =>
        if result.2.2 then
          { sub with amountUsed := 0, lastResetTime := result.1, nextResetTime := result.2.1 }
        else if sub.nextResetTime = 0 ∧ 0 < result.2.1 then
          { sub with nextResetTime := result.2.1, lastResetTime := result.1 }
        else sub

/-- What the handlers that create and update a plan admit. -/
def SubscriptionPlan.Admitted (plan : SubscriptionPlan) : Prop :=
  plan.quotaResetPeriod = .custom →
    0 < plan.quotaResetCustomSeconds ∧ plan.quotaResetCustomSeconds < 2 ^ 63

end JulongApi

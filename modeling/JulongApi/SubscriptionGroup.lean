/-
The group a subscription gives its user: `CreateUserSubscriptionFromPlanTx` and what ends a
subscription, of `model/subscription.go`.

A plan may move its buyer to another group.  The group the buyer had is kept in the subscription,
and when the subscription ends it is looked up there: by `AdminInvalidateUserSubscription` and
`AdminDeleteUserSubscription` in the subscription they end, by `ExpireDueSubscriptions` in the one
that has expired last.

Each transaction is one action; one that fails is rolled back and is not an action.
`ExpireDueSubscriptions` has a transaction for each user it has found, in any order.
-/
import JulongApi.Lib.Machine
import JulongApi.SubscriptionReset
import JulongApi.Strings

namespace JulongApi

/-! ### Plans -/

inductive DurationUnit where
  | year
  | month
  | day
  | hour
  | custom
  | invalid
deriving DecidableEq, Repr

structure GroupPlan extends SubscriptionPlan where
  id : Nat
  durationUnit : DurationUnit
  durationValue : Int
  customSeconds : Int
  /-- `0` is unlimited. -/
  maxPurchasePerUser : Int
  upgradeGroup : String
  downgradeGroup : String
  totalAmount : Int
deriving DecidableEq, Repr

/-- The calendar, with `AddDate` of years and months. -/
structure PlanCalendar extends Calendar where
  addDate : Int → Int → Int → Int

/-- `Add` of so many units of `seconds` seconds, counted in an `int64` of nanoseconds. -/
def addDuration (start value seconds : Int) : Int :=
  start + wrapInt64 (value * (seconds * 10 ^ 9)) / 10 ^ 9

/-- `none` is an error. -/
def calcPlanEndTime (cal : PlanCalendar) (start : Int) (plan : GroupPlan) : Option Int :=
  if plan.durationValue ≤ 0 ∧ plan.durationUnit ≠ .custom then none
  else
    match plan.durationUnit with
    | .year => some (cal.addDate start plan.durationValue 0)
    | .month => some (cal.addDate start 0 plan.durationValue)
    | .day => some (addDuration start plan.durationValue (24 * 3600))
    | .hour => some (addDuration start plan.durationValue 3600)
    | .custom =>
      if plan.customSeconds ≤ 0 then none else some (addDuration start plan.customSeconds 1)
    | .invalid => none

/-! ### Rows -/

structure GroupSubscription extends UserSubscription where
  upgradeGroup : String
  prevUserGroup : String
  downgradeGroup : String
deriving DecidableEq, Repr

structure GroupUser where
  id : Nat
  group : String
deriving DecidableEq, Repr

abbrev GroupUserTable := Table GroupUser.id

abbrev GroupSubscriptionTable := Table fun sub : GroupSubscription => sub.id

namespace GroupSubscription

/-- The row is active and its time is over: what `ExpireDueSubscriptions` looks for. -/
def due (now : Int) (sub : GroupSubscription) : Bool :=
  decide (sub.status = .active ∧ 0 < sub.endTime ∧ sub.endTime ≤ now)

/-- The row keeps the user in a group. -/
def elevates (now : Int) (sub : GroupSubscription) : Bool :=
  decide (sub.status = .active ∧ now < sub.endTime ∧ sub.upgradeGroup ≠ "")

/-- The row has expired and has to do with groups. -/
def expiredTransition (sub : GroupSubscription) : Bool :=
  decide (sub.status = .expired ∧ (sub.downgradeGroup ≠ "" ∨ sub.upgradeGroup ≠ ""))

/-- `end_time desc, id desc`. -/
def After (sub other : GroupSubscription) : Prop :=
  other.endTime < sub.endTime ∨ sub.endTime = other.endTime ∧ other.id ≤ sub.id

instance : DecidableRel After := fun _ _ => inferInstanceAs (Decidable (_ ∨ _))

end GroupSubscription

/-- What `CreateUserSubscriptionFromPlanTx` creates, and the group it leaves the user in. -/
def newUserSubscription (cal : PlanCalendar) (plan : GroupPlan) (id userId : Nat)
    (currentGroup : String) (now endUnix : Int) : GroupSubscription × String :=
  let sub := createUserSubscriptionFromPlan cal.toCalendar plan.toSubscriptionPlan id userId plan.id
    plan.totalAmount now endUnix
  let upgradeGroup := trimSpace plan.upgradeGroup
  let moves := upgradeGroup ≠ "" ∧ currentGroup ≠ upgradeGroup
  ({ sub with
      upgradeGroup := upgradeGroup
      prevUserGroup := if moves then currentGroup else ""
      downgradeGroup := trimSpace plan.downgradeGroup },
    if moves then upgradeGroup else currentGroup)

/-- The group `downgradeUserGroupForSubscriptionTx` moves the user to, `none` if it does not. -/
def downgradeTarget (sub : GroupSubscription) (currentGroup : String) : Option String :=
  let downgradeGroup := trimSpace sub.downgradeGroup
  let upgradeGroup := trimSpace sub.upgradeGroup
  if downgradeGroup = "" ∧ upgradeGroup = "" then none
  else if downgradeGroup = "" ∧ currentGroup ≠ upgradeGroup then none
  else
    let target := if downgradeGroup = "" then trimSpace sub.prevUserGroup else downgradeGroup
    if target = "" ∨ target = currentGroup then none else some target

/-- The group `ExpireDueSubscriptions` moves the user to. -/
def expireTarget (lastExpired : GroupSubscription) (currentGroup : String) : Option String :=
  let downgradeGroup := trimSpace lastExpired.downgradeGroup
  let upgradeGroup := trimSpace lastExpired.upgradeGroup
  let prevGroup := trimSpace lastExpired.prevUserGroup
  if downgradeGroup = "" ∧ (upgradeGroup = "" ∨ prevGroup = "") then none
  else if downgradeGroup = "" ∧ currentGroup ≠ upgradeGroup then none
  else
    let target := if downgradeGroup = "" then prevGroup else downgradeGroup
    if target = "" ∨ target = currentGroup then none else some target

/-! ### The system -/

/-- A run of `ExpireDueSubscriptions`: the time it has read, and the users it has found. -/
structure ExpireSweep where
  now : Int
  userIds : List Nat
deriving DecidableEq, Repr

structure SubscriptionGroups where
  users : GroupUserTable
  subs : GroupSubscriptionTable
  sweeps : List ExpireSweep
  /-- the group a user had as the first of the subscriptions that overlap was created -/
  before : Nat → String

inductive SubscriptionGroupAct where
  /-- `CreateUserSubscriptionFromPlanTx`, for a purchase or a bind; `id` is the new row's -/
  | create (id userId : Nat) (plan : GroupPlan) (now : Int)
  /-- `ExpireDueSubscriptions` finds what is due -/
  | findDue (limit : Int) (now : Int)
  /-- its transaction for a user -/
  | expire (i : Nat) (userId : Nat)
  /-- `AdminInvalidateUserSubscription` -/
  | invalidate (id : Nat) (now : Int)
  /-- `AdminDeleteUserSubscription` -/
  | delete (id : Nat) (now : Int)
deriving DecidableEq, Repr

namespace SubscriptionGroups

def idle (users : GroupUserTable) : SubscriptionGroups where
  users := users
  subs := ⟨[], List.nodup_nil⟩
  sweeps := []
  before := fun userId => ((users.find userId).map GroupUser.group).getD ""

def hasActive (s : SubscriptionGroups) (userId : Nat) : Bool :=
  s.subs.rows.any fun sub => decide (sub.userId = userId ∧ sub.status = .active)

/-- `getUserGroupByIdTx`. -/
def groupOf (s : SubscriptionGroups) (userId : Nat) : String :=
  ((s.users.find userId).map GroupUser.group).getD ""

/-- The user is moved to a group, or not. -/
def setGroup (s : SubscriptionGroups) (userId : Nat) : Option String → SubscriptionGroups
  | none => s
  | some group => { s with users := s.users.save ⟨userId, group⟩ }

/-- `downgradeUserGroupForSubscriptionTx`. -/
def downgrade (s : SubscriptionGroups) (sub : GroupSubscription) (now : Int) :
    SubscriptionGroups :=
  if s.subs.rows.any fun other =>
      decide (other.userId = sub.userId ∧ other.id ≠ sub.id) && other.elevates now then s
  else s.setGroup sub.userId (downgradeTarget sub (s.groupOf sub.userId))

/-- The update of `ExpireDueSubscriptions` for a user. -/
def expired (userId : Nat) (now : Int) (sub : GroupSubscription) : GroupSubscription :=
  if sub.userId = userId ∧ sub.due now then { sub with status := .expired } else sub

theorem id_expired (userId : Nat) (now : Int) (sub : GroupSubscription) :
    (expired userId now sub).id = sub.id := by
  unfold expired
  split <;> rfl

/-- The expired subscription `ExpireDueSubscriptions` looks the group up in. -/
def lastExpired (subs : GroupSubscriptionTable) (userId : Nat) : Option GroupSubscription :=
  ((subs.rows.filter fun sub => decide (sub.userId = userId) && sub.expiredTransition).insertionSort
    GroupSubscription.After).head?

/-- The rows once the subscriptions of a user that are due are expired. -/
def expireRows (s : SubscriptionGroups) (userId : Nat) (now : Int) : GroupSubscriptionTable :=
  s.subs.mapRows (expired userId now) (id_expired userId now)

/-- The transaction of `ExpireDueSubscriptions` for a user. -/
def expireUser (s : SubscriptionGroups) (userId : Nat) (now : Int) : SubscriptionGroups :=
  let subs := s.expireRows userId now
  let s := { s with subs := subs }
  if subs.rows.any fun sub => decide (sub.userId = userId) && sub.elevates now then s
  else
    match lastExpired subs userId with
    | none => s
    | some sub => s.setGroup userId (expireTarget sub (s.groupOf userId))

/-- The users `ExpireDueSubscriptions` finds. -/
def dueUsers (s : SubscriptionGroups) (limit now : Int) : List Nat :=
  let limit := if limit ≤ 0 then 200 else limit
  let subs := ((s.subs.rows.filter (GroupSubscription.due now)).insertionSort
    fun a b => b.After a).take limit.toNat
  ((subs.map fun sub => sub.userId).filter fun userId => decide (0 < userId)).dedup

def countByPlan (s : SubscriptionGroups) (userId planId : Nat) : Nat :=
  s.subs.rows.countP fun sub => decide (sub.userId = userId ∧ sub.planId = planId)

def step (cal : PlanCalendar) (s : SubscriptionGroups) :
    SubscriptionGroupAct → Option SubscriptionGroups
  | .create id userId plan now =>
    match s.users.find userId, calcPlanEndTime cal now plan with
    | some user, some endUnix =>
      if plan.id = 0 ∨ userId = 0 then none
      else if 0 < plan.maxPurchasePerUser ∧
          plan.maxPurchasePerUser ≤ s.countByPlan userId plan.id then none
      else
        let (sub, group) := newUserSubscription cal plan id userId user.group now endUnix
        (s.subs.insert sub).map fun subs =>
          { s with
            users := s.users.save ⟨userId, group⟩
            subs := subs
            before :=
              if s.hasActive userId then s.before
              else Function.update s.before userId user.group }
    | _, _ => none
  | .findDue limit now => some { s with sweeps := s.sweeps ++ [⟨now, s.dueUsers limit now⟩] }
  | .expire i userId =>
    match s.sweeps[i]? with
    | none => none
    | some sweep =>
      if userId ∈ sweep.userIds then
        let sweeps := s.sweeps.set i { sweep with userIds := sweep.userIds.erase userId }
        some ({ s with sweeps := sweeps }.expireUser userId sweep.now)
      else none
  | .invalidate id now =>
    match s.subs.find id with
    | none => none
    | some sub =>
      let sub := { sub with status := .cancelled, endTime := now }
      some ({ s with subs := s.subs.save sub }.downgrade sub now)
  | .delete id now =>
    match s.subs.find id with
    | none => none
    | some sub =>
      let s := s.downgrade sub now
      some { s with subs := s.subs.erase id }

end SubscriptionGroups

end JulongApi

/-
What a task costs: `service/task_billing.go`, and the billing in the submission of
`controller/relay.go`.

A submission holds the estimated quota in a billing session (or holds nothing, when the
model is free), raises the hold to the final quota, writes the task with that quota, and
settles.  Later the quota is settled anew against what the task really used, any number of
times, or given back when the task has failed.

The task's quota is written back after each of these, in a statement that does not fail
here: what can fail is the money, and that is what the replies are about.  Log entries are
left out.
-/
import JulongApi.Lib.Machine
import JulongApi.Realtime

namespace JulongApi

/-! ### A task and the columns it is charged to -/

/-- The columns of `Task` that billing reads or writes. -/
structure BilledTask where
  quota : Int
  /-- `PrivateData.BillingSource`; a free model leaves it empty -/
  billingSource : Option BillingSource
  subscriptionId : Nat
  tokenId : Nat
deriving DecidableEq, Repr

/-- The stores of the request, the two `used_quota` columns, and the task. -/
structure TaskLedger where
  stores : Stores
  userUsed : QuotaColumn
  channelUsed : QuotaColumn
  task : BilledTask

/-- `UpdateUserUsedQuota` and `UpdateChannelUsedQuota`; an error is only logged. -/
def updateUsedQuota (cfg : QuotaConfig) (r : QuotaReply) (c : QuotaColumn) (quota : Int) :
    QuotaColumn :=
  (persistQuotaDelta cfg r c quota).2

/-! ### Submission -/

/-- Replies to the calls a submission makes once it has a result from upstream. -/
structure SubmitReplies where
  imageRequestCount : Int
  reserve : BillingSession.ReserveReplies
  settle : BillingSession.SettleReplies
  userUsed : QuotaReply
  channelUsed : QuotaReply
deriving DecidableEq, Repr

/-- `relayInfo.Billing.Reserve(result.Quota)`, if there is a session. -/
def reserveBilling (env : BillingEnv) (r : SubmitReplies) (quota : Int) (b : RelayBilling)
    (st : Stores) : Except NewAPIError Unit × RelayBilling × Stores :=
  match b with
  | .session s =>
    let (res, s', st') := s.reserveCall env ⟨r.imageRequestCount, quota, r.reserve⟩ st
    (res, .session s', st')
  | .noSession info => (.ok (), .noSession info, st)

def newTask (info : RelayInfo) (tokenId : Nat) (quota : Int) : BilledTask where
  quota := quota
  billingSource := info.billingSource
  subscriptionId := info.subscriptionId
  tokenId := tokenId

/--
`executeTaskSubmission` from the result on: `none` when no task is written.  A settlement
that fails leaves the task behind, and no usage is recorded.
-/
def submitTask (env : BillingEnv) (r : SubmitReplies) (tokenId : Nat) (quota : Int)
    (b : RelayBilling) (st : Stores) (userUsed channelUsed : QuotaColumn) :
    Option (Except RealtimeError Unit × TaskLedger) :=
  match reserveBilling env r quota b st with
  | (.error _, _, _) => none
  | (.ok (), b', st') =>
    let task := newTask b'.info tokenId quota
    match settleBilling env r.settle quota b' st' with
    | (.error e, _, st'') => some (.error e, ⟨st'', userUsed, channelUsed, task⟩)
    | (.ok (), _, st'') =>
      some (.ok (), {
        stores := st''
        userUsed := updateUsedQuota env.quota r.userUsed userUsed quota
        channelUsed := updateUsedQuota env.quota r.channelUsed channelUsed quota
        task := task })

/-! ### Adjusting a charge -/

structure AdjustReplies where
  funding : FundingReply
  /-- `resolveTokenKey` found the token -/
  tokenFound : Bool
  token : QuotaReply
  userUsed : QuotaReply
  channelUsed : QuotaReply
deriving DecidableEq, Repr

def taskIsSubscription (task : BilledTask) : Bool :=
  task.billingSource == some .subscription && decide (0 < task.subscriptionId)

/-- `taskAdjustFunding`: a positive delta charges, a negative one gives back. -/
def taskAdjustFunding (env : BillingEnv) (r : FundingReply) (task : BilledTask) (delta : Int)
    (st : Stores) : Except BillingError Unit × Stores :=
  if taskIsSubscription task then
    match postConsumeUserSubscriptionDelta r.tx st.subs task.subscriptionId delta with
    | (.error e, db) => (.error (.subscription e), { st with subs := db })
    | (.ok (), db) => (.ok (), { st with subs := db })
  else
    match (if 0 < delta then decreaseUserQuota env.quota r.quota st.wallet delta
      else increaseUserQuota env.quota r.quota st.wallet (-delta)) with
    | (.error e, c) => (.error (.quota e), { st with wallet := c })
    | (.ok (), c) => (.ok (), { st with wallet := c })

/-- `taskAdjustTokenQuota`: a token that is gone is left out, and an error is only logged. -/
def taskAdjustTokenQuota (env : BillingEnv) (r : AdjustReplies) (task : BilledTask) (delta : Int)
    (st : Stores) : Stores :=
  if task.tokenId = 0 ∨ delta = 0 then st
  else if r.tokenFound = false then st
  else if 0 < delta then
    { st with token := (decreaseTokenQuota env.quota r.token st.token delta).2 }
  else { st with token := (increaseTokenQuota env.quota r.token st.token (-delta)).2 }

namespace TaskLedger

/-- The token, the statistics and the task itself, after the funding source was moved. -/
def adjustRest (env : BillingEnv) (r : AdjustReplies) (delta quota : Int) (l : TaskLedger)
    (st : Stores) : TaskLedger where
  stores := taskAdjustTokenQuota env r l.task delta st
  userUsed := updateUsedQuota env.quota r.userUsed l.userUsed delta
  channelUsed := updateUsedQuota env.quota r.channelUsed l.channelUsed delta
  task := { l.task with quota := quota }

/-- `RefundTaskQuota`, and whether the funding source was refunded. -/
def refundTaskQuota (env : BillingEnv) (r : AdjustReplies) (l : TaskLedger) : Bool × TaskLedger :=
  if l.task.quota = 0 then (true, l)
  else
    match taskAdjustFunding env r.funding l.task (-l.task.quota) l.stores with
    | (.error _, st) => (false, { l with stores := st })
    | (.ok (), st) => (true, l.adjustRest env r (-l.task.quota) 0 st)

def recalculateTaskQuota (env : BillingEnv) (r : AdjustReplies) (actualQuota : Int)
    (l : TaskLedger) : TaskLedger :=
  if actualQuota < 0 then l
  else
    let quotaDelta := actualQuota - l.task.quota
    if quotaDelta = 0 then l
    else
      match taskAdjustFunding env r.funding l.task quotaDelta l.stores with
      | (.error _, st) => { l with stores := st }
      | (.ok (), st) => l.adjustRest env r quotaDelta actualQuota st

end TaskLedger

/-! ### A task's billing, call by call -/

inductive TaskBillingAct where
  | recalculate (actualQuota : Int) (r : AdjustReplies)
  | refund (r : AdjustReplies)
deriving DecidableEq, Repr

def TaskBillingAct.replies : TaskBillingAct → AdjustReplies
  | .recalculate _ r => r
  | .refund r => r

def TaskLedger.step (env : BillingEnv) (l : TaskLedger) : TaskBillingAct → Option TaskLedger
  | .recalculate actualQuota r => some (l.recalculateTaskQuota env r actualQuota)
  | .refund r => some (l.refundTaskQuota env r).2

end JulongApi

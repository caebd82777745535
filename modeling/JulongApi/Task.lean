/-
An asynchronous task: its row, the statements that change it, what a poll makes of it.

This file embeds the row of `model/task.go` with the statements that read and write it,
the pure part of the polling of `service/task_polling.go` (what an answer from upstream
does to the copy of a task in memory), and the decisions of `service/task_billing.go`
about a task that has reached its end.  The moving parts are in `TaskSystem.lean`.

`updated_at` is set by every update, as the ORM does it.  A guarded update that matches
its row counts as won: every one that moves a task to its end changes a column.
-/
import JulongApi.Lib.Table
import JulongApi.Pricing

namespace JulongApi

/-! ### The row -/

/-- `TaskStatus`; the column is a string, and the code tells six values apart. -/
inductive TaskStatus where
  | notStart
  | submitted
  | queued
  | inProgress
  | failure
  | success
  | other (name : String)
deriving DecidableEq, Repr

namespace TaskStatus

def terminal : TaskStatus → Bool
  | .failure => true
  | .success => true
  | _ => false

def knownPollStatus : TaskStatus → Bool
  | .other _ => false
  | _ => true

def isNonTerminalPollStatus (status : TaskStatus) : Bool :=
  status.knownPollStatus && !status.terminal

end TaskStatus

/-- `TaskRefundLegacyCutoff`: 2025-02-22 00:00:00 UTC. -/
def taskRefundLegacyCutoff : Int := 1740182400

/-- `TaskBillingContext`, as far as the end of a task reads it. -/
structure TaskBillingContext where
  /-- a `TieredSnapshot` was taken at submission -/
  tieredSnapshot : Bool
  perCallBilling : Bool
deriving DecidableEq, Repr

/-- The columns of `Task` that polling and billing read or write. -/
structure Task where
  id : Nat
  taskID : String
  upstreamTaskID : String
  status : TaskStatus
  progress : String
  quota : Int
  failReason : String
  submitTime : Int
  startTime : Int
  finishTime : Int
  updatedAt : Int
  resultURL : String
  data : String
  pluginState : String
  pollFailures : Nat
  billingContext : Option TaskBillingContext
deriving DecidableEq, Repr

namespace Task

def getUpstreamTaskID (t : Task) : String :=
  if t.upstreamTaskID ≠ "" then t.upstreamTaskID else t.taskID

/-- What the timeout sweep calls a task of the old system. -/
def isLegacy (t : Task) : Bool :=
  decide (0 < t.submitTime) && decide (t.submitTime < taskRefundLegacyCutoff)

/-- `Snapshot().Equal(...)`: no column that a poll writes differs. -/
def sameSnapshot (t u : Task) : Bool :=
  decide (t.status = u.status ∧ t.progress = u.progress ∧ t.startTime = u.startTime ∧
    t.finishTime = u.finishTime ∧ t.failReason = u.failReason ∧ t.resultURL = u.resultURL ∧
    t.data = u.data ∧ t.pluginState = u.pluginState ∧ t.pollFailures = u.pollFailures)

end Task

abbrev TaskTable := Table Task.id

/-! ### Statements -/

namespace TaskTable

def getTimedOutUnfinishedTasks (rows : TaskTable) (cutoffUnix : Int) (limit : Nat) : List Task :=
  ((rows.rows.filter fun t => t.progress ≠ "100%" ∧ t.status.terminal = false ∧
    t.submitTime < cutoffUnix).insertionSort fun t u => t.submitTime ≤ u.submitTime).take limit

def getUnrefundedFailedTasks (rows : TaskTable) (updatedBefore : Int) (limit : Nat) :
    List Task :=
  ((rows.rows.filter fun t => t.status = .failure ∧ t.quota ≠ 0 ∧
    t.updatedAt ≤ updatedBefore ∧
    (t.submitTime ≤ 0 ∨ taskRefundLegacyCutoff ≤ t.submitTime)).insertionSort
      fun t u => t.id ≤ u.id).take limit

def getAllUnFinishSyncTasks (rows : TaskTable) (limit : Nat) : List Task :=
  ((rows.rows.filter fun t => t.progress ≠ "100%" ∧ t.status.terminal = false).insertionSort
    fun t u => t.id ≤ u.id).take limit

/-- `UpdateWithStatus`: all columns of the copy, if the stored status still is `fromStatus`. -/
def updateWithStatus (rows : TaskTable) (dbOk : Bool) (now : Int) (t : Task)
    (fromStatus : TaskStatus) : Bool × TaskTable :=
  if dbOk then
    rows.update t.id (fun row => row.status = fromStatus) fun _ => { t with updatedAt := now }
  else (false, rows)

/-- `TaskBulkUpdateByID` to `FAILURE`, with a reason or without: by id alone. -/
def taskBulkUpdateByID (rows : TaskTable) (dbOk : Bool) (now : Int) (ids : List Nat)
    (failReason : Option String) : TaskTable :=
  if dbOk then
    rows.mapRows
      (fun row =>
        if row.id ∈ ids then
          { row with
            status := .failure
            progress := "100%"
            failReason := failReason.getD row.failReason
            updatedAt := now }
        else row)
      (by
        intro row
        split <;> rfl)
  else rows

/-- `UpdateQuota`; `none` when the statement fails. -/
def updateQuota (rows : TaskTable) (dbOk : Bool) (now : Int) (t : Task) : Option TaskTable :=
  if dbOk then
    some (rows.update t.id (fun _ => true) fun row =>
      { row with quota := t.quota, updatedAt := now }).2
  else none

def claimQuotaForRefund (rows : TaskTable) (dbOk : Bool) (now : Int) (id : Nat)
    (expectedQuota : Int) : Bool × TaskTable :=
  if expectedQuota = 0 then (false, rows)
  else if dbOk then
    rows.update id (fun row => row.quota = expectedQuota) fun row =>
      { row with quota := 0, updatedAt := now }
  else (false, rows)

/-- `RestoreQuotaAfterFailedRefund`; its result is only logged. -/
def restoreQuotaAfterFailedRefund (rows : TaskTable) (dbOk : Bool) (now : Int) (id : Nat)
    (quota : Int) : TaskTable :=
  if quota = 0 then rows
  else if dbOk then
    (rows.update id (fun row => row.quota = 0) fun row =>
      { row with quota := quota, updatedAt := now }).2
  else rows

end TaskTable

/-! ### What an answer from upstream does to the copy in memory -/

/-- `relaycommon.TaskInfo`, with the fields a batch answer adds. -/
structure TaskInfo where
  status : TaskStatus
  reason : String
  url : String
  progress : String
  completionTokens : Int
  totalTokens : Int
  pluginState : String
  /-- `BatchTaskResult.SubmitTime`, `StartTime` and `FinishTime`; zero when not reported -/
  submitTime : Int
  startTime : Int
  finishTime : Int
  /-- `BatchTaskResult.Data`, or the data of an answer in the gateway's own format -/
  data : Option String
deriving DecidableEq, Repr

def failTaskInfo (reason : String) : TaskInfo where
  status := .failure
  reason := reason
  url := ""
  progress := ""
  completionTokens := 0
  totalTokens := 0
  pluginState := ""
  submitTime := 0
  startTime := 0
  finishTime := 0
  data := none

/-- How one poll of one task came out, by HTTP class and parser. -/
inductive PollAnswer where
  /-- transport error, `401`/`403`, `429`/`5xx` or a hook that failed -/
  | failed
  /-- `404` or `410` -/
  | notFound
  /-- parsed; `otherClient` for the remaining `4xx` codes, `body` the redacted body -/
  | parsed (otherClient : Bool) (body : String) (info : TaskInfo)
deriving DecidableEq, Repr

/-- What a poll has made of a copy, and what is to be done with it. -/
structure Handled where
  task : Task
  /-- `UpdateWithStatus` is called, with the status the copy had before -/
  write : Bool
  /-- `finalizeTerminalTask` follows -/
  finalize : Bool
  /-- only if that update is won -/
  needsWin : Bool
  info : TaskInfo
deriving DecidableEq, Repr

/-- `TaskPollMaxFailures` and the server's own address. -/
structure PollConfig where
  taskPollMaxFailures : Int
  serverAddress : String
deriving DecidableEq, Repr

namespace Task

/-- `failTaskFromPoll`, up to its update. -/
def failTaskFromPoll (now : Int) (t : Task) (reason : String) : Handled where
  task := { t with
    status := .failure
    progress := "100%"
    finishTime := if t.finishTime = 0 then now else t.finishTime
    failReason := reason }
  write := true
  finalize := true
  needsWin := true
  info := failTaskInfo reason

/-- `recordPollFailure`, up to its update. -/
def recordPollFailure (cfg : PollConfig) (now : Int) (t : Task) : Handled :=
  let t := { t with pollFailures := t.pollFailures + 1 }
  if 0 < cfg.taskPollMaxFailures ∧ cfg.taskPollMaxFailures ≤ t.pollFailures then
    t.failTaskFromPoll now "Failed to query the upstream task status"
  else
    { task := t, write := true, finalize := false, needsWin := true, info := failTaskInfo "" }

/-- `BuildProxyURL`. -/
def proxyURL (cfg : PollConfig) (t : Task) : String :=
  cfg.serverAddress ++ "/v1/videos/" ++ t.taskID ++ "/content"

/-- The switch of `updateVideoSingleTask` on the parsed status. -/
def videoColumns (cfg : PollConfig) (now : Int) (info : TaskInfo) (t : Task) : Task :=
  match info.status with
  | .submitted => { t with progress := "10%" }
  | .queued => { t with progress := "20%" }
  | .inProgress =>
    { t with progress := "30%", startTime := if t.startTime = 0 then now else t.startTime }
  | .success =>
    { t with
      progress := "100%"
      finishTime := if t.finishTime = 0 then now else t.finishTime
      resultURL :=
        if info.url.startsWith "data:" then t.proxyURL cfg
        else if info.url ≠ "" then info.url
        else t.proxyURL cfg }
  | .failure =>
    { t with
      progress := "100%"
      finishTime := if t.finishTime = 0 then now else t.finishTime
      failReason := info.reason }
  | _ => t

/-- The progress `updateVideoSingleTask` ends with: a failure is complete whatever it says. -/
def videoProgress (info : TaskInfo) (t : Task) : String :=
  if info.status = .failure then "100%"
  else if info.progress ≠ "" then info.progress
  else t.progress

/-- A recognised answer in `updateVideoSingleTask`. -/
def videoResult (cfg : PollConfig) (now : Int) (body : String) (info : TaskInfo) (t : Task) :
    Handled :=
  let u := { t with
    data := body
    pluginState := if info.pluginState ≠ "" then info.pluginState else t.pluginState
    pollFailures := if info.status.isNonTerminalPollStatus then 0 else t.pollFailures
    status := info.status }
  let u := u.videoColumns cfg now info
  let u := { u with progress := videoProgress info u }
  let transition := info.status.terminal && decide (t.status ≠ info.status)
  { task := u
    write := transition || !t.sameSnapshot u
    finalize := info.status.terminal
    needsWin := transition
    info := info }

/-- The status a batch answer ends with: a reason makes it a failure. -/
def batchStatus (info : TaskInfo) : TaskStatus := if info.reason ≠ "" then .failure else info.status

/-- A recognised answer in `updateBatchTasks`. -/
def batchResult (info : TaskInfo) (t : Task) : Handled :=
  let status := batchStatus info
  let u := { t with
    pollFailures := if info.status.isNonTerminalPollStatus then 0 else t.pollFailures
    pluginState := if info.pluginState ≠ "" then info.pluginState else t.pluginState
    status := status
    failReason := if info.reason ≠ "" then info.reason else t.failReason
    submitTime := if info.submitTime ≠ 0 then info.submitTime else t.submitTime
    startTime := if info.startTime ≠ 0 then info.startTime else t.startTime
    finishTime := if info.finishTime ≠ 0 then info.finishTime else t.finishTime
    progress :=
      if status = .failure ∨ info.status = .success then "100%"
      else if info.progress ≠ "" then info.progress
      else t.progress
    data := info.data.getD t.data
    resultURL := if info.url ≠ "" then info.url else t.resultURL }
  { task := u
    write := true
    finalize := status.terminal && decide (t.status ≠ status)
    needsWin := true
    info := info }

/--
An answer that says nothing about the status.  The data of an answer in the gateway's own
format has been taken over by then.
-/
def unrecognized (cfg : PollConfig) (now : Int) (batch : Bool) (info : TaskInfo) (t : Task) :
    Handled :=
  if batch then t.recordPollFailure cfg now
  else { t with data := info.data.getD t.data }.recordPollFailure cfg now

/-- One poll of one task: `batch` says which of the two update functions it goes through. -/
def handlePoll (cfg : PollConfig) (now : Int) (batch : Bool) (t : Task) : PollAnswer → Handled
  | .failed => t.recordPollFailure cfg now
  | .notFound => t.failTaskFromPoll now "Upstream task not found"
  | .parsed otherClient body info =>
    if info.status.knownPollStatus = false then t.unrecognized cfg now batch info
    else if otherClient ∧ info.status.isNonTerminalPollStatus then
      t.unrecognized cfg now batch info
    else if batch then t.batchResult info
    else t.videoResult cfg now body info

end Task

/-! ### Billing at the end of a task -/

/-- What the adaptor, the task's expression and the ratio settings say about a finished task. -/
structure CompletionReply where
  /-- `EvaluateTaskCompletionUsage`; `none` when the expression fails -/
  usage : Option Int
  /-- `AdjustBillingOnComplete` -/
  adjusted : Int
  /-- the completion and total tokens it puts into the result, if it does -/
  hookTokens : Option (Int × Int)
  /-- model, group and other ratios multiplied; `none` when a token price does not apply -/
  tokenRatio : Option ℚ
deriving DecidableEq

/-- `RecalculateTaskQuotaByTokens`, up to the call of `RecalculateTaskQuota`. -/
def quotaByTokens (r : CompletionReply) (totalTokens : Int) : Option Int :=
  if totalTokens ≤ 0 then none
  else r.tokenRatio.map fun ratio => (saturateQuota (totalTokens * ratio) "QuotaFromFloat").1

/-- The result as `AdjustBillingOnComplete` leaves it. -/
def TaskInfo.afterHook (r : CompletionReply) (info : TaskInfo) : TaskInfo :=
  match r.hookTokens with
  | none => info
  | some (completionTokens, totalTokens) =>
    { info with completionTokens := completionTokens, totalTokens := totalTokens }

/-- `tokens` of `settleTaskBillingOnComplete`. -/
def TaskInfo.tokens (info : TaskInfo) : Int :=
  if info.totalTokens = 0 ∧ 0 < info.completionTokens then info.completionTokens
  else info.totalTokens

/--
`settleTaskBillingOnComplete`: whether settlement has taken over the billing, and the
quota it hands to `RecalculateTaskQuota`, if it gets that far.
-/
def settleTaskBillingOnComplete (r : CompletionReply) (t : Task) (info : TaskInfo) :
    Bool × Option Int :=
  match t.billingContext with
  | some ⟨true, _⟩ => if t.status = .failure then (false, none) else (true, r.usage)
  | some ⟨false, true⟩ => (false, none)
  | _ =>
    if 0 < r.adjusted then (true, some r.adjusted)
    else
      match quotaByTokens r (info.afterHook r).tokens with
      | none => (false, none)
      | some actual => (true, some actual)

end JulongApi

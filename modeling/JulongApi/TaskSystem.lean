/-
Many nodes at work on the same tasks.

Every node runs the same loop: fail what has timed out, refund the failed tasks that
still have a quota, poll the rest.  Each of these reads a list of rows and then works
through its copies, one database statement or one move of money at a time; between any
two of them any other node may do anything.  So the system is the table and a pool of
jobs, one for each copy in memory, and an action moves one job by one statement.

A copy of a polling pass goes back to its pass when it has been dealt with: the pass keys
its copies by upstream id, so a copy is handled once more when two tasks share one.

Whether a call on the funding source goes through depends on a wallet or subscription
that other requests use too; the answer is part of the action, and `ledger` is the
history of the moves that went through, positive for a charge.
-/
import JulongApi.Lib.Machine
import JulongApi.Task

namespace JulongApi

/-- `refundReconciliationGracePeriod` in seconds. -/
def refundReconciliationGracePeriod : Int := 30

/-- `refundReconciliationLimit`; the timeout sweep takes as many. -/
def refundReconciliationLimit : Nat := 100

/-- Where the work on one copy of a task stands. -/
inductive TaskJob where
  /-- a copy of a polling pass -/
  | loaded (t : Task)
  /-- a copy of the timeout sweep -/
  | timedOut (t : Task)
  /-- a copy of the sweep over unrefunded failed tasks -/
  | unrefunded (t : Task)
  /-- the terminal update is won, `finalizeTerminalTask` comes next -/
  | finalizing (t : Task) (info : TaskInfo)
  /-- in `RecalculateTaskQuota`, before the funding source is adjusted -/
  | settling (t : Task) (actualQuota : Int)
  /-- in `RefundTaskQuota` after a terminal update, before the money is given back -/
  | refunding (polled : Bool) (t : Task)
  /-- the money has been moved and `t.quota` is to be written -/
  | writing (polled : Bool) (t : Task)
  /-- ... and could not be written -/
  | unwritten (polled : Bool) (t : Task)
  /-- the sweep has claimed the quota of its copy and has not given it back yet -/
  | claimed (t : Task)
  /-- the sweep has given the claimed quota back and clears the row once more -/
  | clearing (t : Task)
  /-- the sweep could not give it back and is to restore it -/
  | restoring (t : Task)
  | done
deriving DecidableEq, Repr

structure TaskSystem where
  rows : TaskTable
  jobs : List TaskJob
  /-- moves of money, by task -/
  ledger : List (Nat × Int)

/-- One statement or one move of money; `dbOk` is whether the statement goes through. -/
inductive TaskAct where
  /-- `GetTimedOutUnfinishedTasks` -/
  | loadTimedOut (cutoffUnix : Int)
  /-- `GetUnrefundedFailedTasks` -/
  | loadUnrefunded (now : Int)
  /-- `GetAllUnFinishSyncTasks` -/
  | loadUnfinished (limit : Nat)
  /-- the update of the timeout sweep -/
  | timeOut (i : Nat) (now : Int) (dbOk : Bool)
  /-- `TaskBulkUpdateByID` on copies of polling passes; no reason is given for a missing id -/
  | bulkFail (ids : List Nat) (failReason : Option String) (now : Int) (dbOk : Bool)
  /-- the poll of a copy, and its update -/
  | poll (i : Nat) (batch : Bool) (answer : PollAnswer) (now : Int) (dbOk : Bool)
  /-- `finalizeTerminalTask`, up to the first move of money -/
  | finalize (i : Nat) (r : CompletionReply)
  /-- `taskAdjustFunding` of a settlement or a refund -/
  | moveFunding (i : Nat) (ok : Bool)
  /-- `UpdateQuota` after it -/
  | writeQuota (i : Nat) (now : Int) (dbOk : Bool)
  /-- `ClaimQuotaForRefund` -/
  | claim (i : Nat) (now : Int) (dbOk : Bool)
  /-- `RestoreQuotaAfterFailedRefund` -/
  | restore (i : Nat) (now : Int) (dbOk : Bool)
deriving DecidableEq

namespace TaskJob

/-- What is left to do with a copy that has been dealt with. -/
def release (polled : Bool) (t : Task) : TaskJob := if polled then .loaded t else .done

/-- The copy a polling pass has in its map and is not busy with. -/
def held : TaskJob → Option Task
  | .loaded t => some t
  | .unwritten true t => some t
  | _ => none

end TaskJob

/-- `reason` of `sweepTimedOutTasks`. -/
def timedOutReason : String := "Task timed out"

def timedOutLegacyReason : String :=
  "Task timed out (a task left by the old system is not refunded; " ++
    "contact the administrator)"

/-- The update of `sweepTimedOutTasks`: a task of the old system loses its quota with it. -/
def Task.timedOut (now : Int) (t : Task) : Task :=
  if t.isLegacy then
    { t with
      status := .failure
      progress := "100%"
      finishTime := now
      failReason := timedOutLegacyReason
      quota := 0 }
  else
    { t with
      status := .failure
      progress := "100%"
      finishTime := now
      failReason := timedOutReason }

/-- What `finalizeTerminalTask` goes on with. -/
def finalizeTerminalTask (r : CompletionReply) (t : Task) (info : TaskInfo) : TaskJob :=
  match settleTaskBillingOnComplete r t info with
  | (_, some actualQuota) =>
    -- `RecalculateTaskQuota` has nothing to do for a negative or an unchanged quota
    if actualQuota < 0 ∨ actualQuota = t.quota then .loaded t else .settling t actualQuota
  | (true, none) => .loaded t
  | (false, none) =>
    if t.status = .failure ∧ t.quota ≠ 0 then .refunding true t else .loaded t

namespace TaskSystem

/-- A table nobody is working on; every task has been charged the quota of its row. -/
def idle (rows : TaskTable) : TaskSystem :=
  ⟨rows, [], rows.rows.map fun t => (t.id, t.quota)⟩

def start (s : TaskSystem) (jobs : List TaskJob) : TaskSystem := { s with jobs := s.jobs ++ jobs }

def goOn (s : TaskSystem) (i : Nat) (job : TaskJob) : TaskSystem :=
  { s with jobs := s.jobs.set i job }

/-- The copy is one a bulk failure update takes: a missing upstream id gives no reason. -/
def bulkTakes (failReason : Option String) (id : Nat) (job : TaskJob) : Bool :=
  job.held.any fun t => t.id == id && (t.getUpstreamTaskID == "") == failReason.isNone

/-- The poll of a copy, up to and with its update. -/
def poll (s : TaskSystem) (i : Nat) (t : Task) (h : Handled) (now : Int) (dbOk : Bool) :
    TaskSystem :=
  if h.write then
    let (won, rows) := s.rows.updateWithStatus dbOk now h.task t.status
    { s with rows := rows }.goOn i
      (if h.finalize && (won || !h.needsWin) then .finalizing h.task h.info else .loaded h.task)
  else s.goOn i (if h.finalize then .finalizing h.task h.info else .loaded h.task)

def move (s : TaskSystem) (id : Nat) (delta : Int) : TaskSystem :=
  { s with ledger := (id, delta) :: s.ledger }

/-- `taskAdjustFunding`, in the settlement, the finalizer's refund and the sweep's. -/
def moveFunding (s : TaskSystem) (i : Nat) (ok : Bool) : TaskJob → Option TaskSystem
  | .settling t actualQuota =>
    if ok then
      some ((s.move t.id (actualQuota - t.quota)).goOn i
        (.writing true { t with quota := actualQuota }))
    else some (s.goOn i (.loaded t))
  | .refunding polled t =>
    if ok then
      some ((s.move t.id (-t.quota)).goOn i (.writing polled { t with quota := 0 }))
    else some (s.goOn i (.release polled t))
  | .claimed t =>
    if ok then some ((s.move t.id (-t.quota)).goOn i (.clearing { t with quota := 0 }))
    else some (s.goOn i (.restoring t))
  | _ => none

/-- `UpdateQuota` after the money has been moved. -/
def writeQuota (s : TaskSystem) (i : Nat) (now : Int) (dbOk : Bool) :
    TaskJob → Option TaskSystem
  | .writing polled t =>
    match s.rows.updateQuota dbOk now t with
    | some rows => some ({ s with rows := rows }.goOn i (.release polled t))
    | none => some (s.goOn i (.unwritten polled t))
  | .clearing t =>
    match s.rows.updateQuota dbOk now t with
    | some rows => some ({ s with rows := rows }.goOn i .done)
    | none => some (s.goOn i .done)
  | _ => none

def step (cfg : PollConfig) (s : TaskSystem) : TaskAct → Option TaskSystem
  | .loadTimedOut cutoffUnix =>
    some (s.start ((s.rows.getTimedOutUnfinishedTasks cutoffUnix
      refundReconciliationLimit).map .timedOut))
  | .loadUnrefunded now =>
    some (s.start ((s.rows.getUnrefundedFailedTasks (now - refundReconciliationGracePeriod)
      refundReconciliationLimit).map .unrefunded))
  | .loadUnfinished limit =>
    some (s.start ((s.rows.getAllUnFinishSyncTasks limit).map .loaded))
  | .timeOut i now dbOk =>
    match s.jobs[i]? with
    | some (.timedOut t) =>
      let (won, rows) := s.rows.updateWithStatus dbOk now (t.timedOut now) t.status
      some ({ s with rows := rows }.goOn i
        (if won && !t.isLegacy && t.quota != 0 then .refunding false (t.timedOut now)
        else .done))
    | _ => none
  | .bulkFail ids failReason now dbOk =>
    if ids.all fun id => s.jobs.any (bulkTakes failReason id) then
      some { s with rows := s.rows.taskBulkUpdateByID dbOk now ids failReason }
    else none
  | .poll i batch answer now dbOk =>
    match s.jobs[i]?.bind TaskJob.held with
    | some t =>
      if t.getUpstreamTaskID = "" then none
      else some (s.poll i t (t.handlePoll cfg now batch answer) now dbOk)
    | none => none
  | .finalize i r =>
    match s.jobs[i]? with
    | some (.finalizing t info) => some (s.goOn i (finalizeTerminalTask r t info))
    | _ => none
  | .moveFunding i ok =>
    match s.jobs[i]? with
    | some job => s.moveFunding i ok job
    | none => none
  | .writeQuota i now dbOk =>
    match s.jobs[i]? with
    | some job => s.writeQuota i now dbOk job
    | none => none
  | .claim i now dbOk =>
    match s.jobs[i]? with
    | some (.unrefunded t) =>
      let (claimed, rows) := s.rows.claimQuotaForRefund dbOk now t.id t.quota
      some ({ s with rows := rows }.goOn i (if claimed then .claimed t else .done))
    | _ => none
  | .restore i now dbOk =>
    match s.jobs[i]? with
    | some (.restoring t) =>
      some ({ s with
        rows := s.rows.restoreQuotaAfterFailedRefund dbOk now t.id t.quota }.goOn i .done)
    | _ => none

/-- The money moved on behalf of a task, the latest move first. -/
def moves (s : TaskSystem) (id : Nat) : List Int :=
  s.ledger.filterMap fun m => if m.1 = id then some m.2 else none

end TaskSystem

end JulongApi

/-
System tasks and the locks under which workers run them: `model/system_task.go`.

A task is taken up under the lock of its type, a row that names the task, the worker and
the time until which the lease lasts.  `ClaimSystemTask` takes the lock and then starts the
task, `ExpireStaleSystemTaskLocks` reads the stale locks and then fails their tasks and
deletes them, and the calls of a running task check the lock in the statement that writes.
None of these is a transaction: each statement commits by itself, and a call that reads the
clock reads it once, at its start.  So a call is cut after every statement.

Tasks are told apart by `task_id`; the numeric id `ClaimSystemTask` is given names the same
row.
-/
import JulongApi.Lib.Machine
import JulongApi.Lib.Table

namespace JulongApi

inductive SystemTaskStatus where
  | pending
  | running
  | succeeded
  | failed
deriving DecidableEq, Repr

structure SystemTask where
  taskID : String
  type : String
  status : SystemTaskStatus
  activeKey : Option String
  state : String
  result : String
  error : String
  lockedBy : String
  updatedAt : Int
deriving DecidableEq, Repr

structure SystemTaskLock where
  type : String
  taskID : String
  lockedBy : String
  lockedUntil : Int
  updatedAt : Int
deriving DecidableEq, Repr

/-- `system_tasks`, by the unique index on `task_id`. -/
abbrev SystemTaskTable := Table SystemTask.taskID

abbrev SystemTaskLockTable := Table SystemTaskLock.type

structure SystemTaskDB where
  tasks : SystemTaskTable
  locks : SystemTaskLockTable

/-! ### Statements -/

namespace SystemTaskDB

/-- `UPDATE system_tasks ... WHERE task_id = ?` and a guard, and whether it matched. -/
def updateTask (db : SystemTaskDB) (taskID : String) (guard : SystemTask → Bool)
    (f : SystemTask → SystemTask) : Bool × SystemTaskDB :=
  let (matched, tasks) := db.tasks.update taskID guard f
  (matched, { db with tasks := tasks })

/-- The row `ClaimSystemTask` looks for. -/
def isClaimable (taskType : String) (task : SystemTask) : Bool :=
  decide (task.type = taskType ∧ task.status = .pending)

/-- The update of `ClaimSystemTask` that starts the task. -/
def startTask (db : SystemTaskDB) (taskID taskType runnerID : String) (now : Int) :
    Bool × SystemTaskDB :=
  db.updateTask taskID (isClaimable taskType) fun task =>
    { task with
      status := .running
      lockedBy := runnerID
      updatedAt := now }

/-- The insert of `acquireSystemTaskLock`; `none` when the type is locked already. -/
def createLock (db : SystemTaskDB) (lock : SystemTaskLock) : Option SystemTaskDB :=
  (db.locks.insert lock).map fun locks => { db with locks := locks }

/-- The update of `acquireSystemTaskLock`, for a lock that is stale at `lock.updatedAt`. -/
def takeLock (db : SystemTaskDB) (lock : SystemTaskLock) : Bool × SystemTaskDB :=
  let (matched, locks) := db.locks.update lock.type
    (fun old => decide (old.lockedUntil < lock.updatedAt)) fun _ => lock
  (matched, { db with locks := locks })

/-- The `EXISTS` clause of `UpdateSystemTaskState` and `FinishSystemTask`. -/
def holdsLease (db : SystemTaskDB) (taskID lockedBy : String) (now : Int) : Bool :=
  db.locks.rows.any fun lock =>
    decide (lock.taskID = taskID ∧ lock.lockedBy = lockedBy ∧ now ≤ lock.lockedUntil)

/-- Which task `UpdateSystemTaskState` and `FinishSystemTask` write. -/
def isRunBy (db : SystemTaskDB) (lockedBy : String) (now : Int) (task : SystemTask) : Bool :=
  decide (task.status = .running ∧ task.lockedBy = lockedBy) &&
    db.holdsLease task.taskID lockedBy now

/-- `UpdateSystemTaskState`. -/
def updateState (db : SystemTaskDB) (taskID lockedBy state : String) (now : Int) :
    Bool × SystemTaskDB :=
  db.updateTask taskID (db.isRunBy lockedBy now) fun task =>
    { task with
      state := state
      updatedAt := now }

/-- The update of `FinishSystemTask`. -/
def finishTask (db : SystemTaskDB) (taskID lockedBy : String) (status : SystemTaskStatus)
    (result error : String) (now : Int) : Bool × SystemTaskDB :=
  db.updateTask taskID (db.isRunBy lockedBy now) fun task =>
    { task with
      status := status
      activeKey := none
      result := result
      error := error
      updatedAt := now }

/-- The locks `RenewSystemTaskLock` moves. -/
def renewed (taskID lockedBy : String) (lockUntil now : Int) (lock : SystemTaskLock) :
    SystemTaskLock :=
  if lock.taskID = taskID ∧ lock.lockedBy = lockedBy ∧ now ≤ lock.lockedUntil then
    { lock with
      lockedUntil := lockUntil
      updatedAt := now }
  else lock

theorem renewed_type (taskID lockedBy : String) (lockUntil now : Int) (lock : SystemTaskLock) :
    (renewed taskID lockedBy lockUntil now lock).type = lock.type := by
  unfold renewed
  split <;> rfl

/-- `RenewSystemTaskLock`. -/
def renewLock (db : SystemTaskDB) (taskID lockedBy : String) (lockUntil now : Int) :
    SystemTaskDB :=
  let locks := db.locks.mapRows (renewed taskID lockedBy lockUntil now)
    (renewed_type taskID lockedBy lockUntil now)
  { db with locks := locks }

/-- `MarkSystemTaskLeaseExpired`. -/
def markLeaseExpired (db : SystemTaskDB) (taskID : String) (now : Int) : Bool × SystemTaskDB :=
  db.updateTask taskID (fun task => decide (task.status = .running)) fun task =>
    { task with
      status := .failed
      activeKey := none
      error := "task lease expired"
      updatedAt := now }

/-- The locks `ExpireStaleSystemTaskLocks` reads. -/
def staleLocks (db : SystemTaskDB) (now : Int) : List SystemTaskLock :=
  db.locks.rows.filter fun lock => decide (lock.lockedUntil < now)

/-- The delete of `ExpireStaleSystemTaskLocks`, for a lock as it was read. -/
def deleteStaleLock (db : SystemTaskDB) (lock : SystemTaskLock) (now : Int) : SystemTaskDB :=
  { db with locks := db.locks.delete fun row =>
      decide (row.type = lock.type ∧ row.taskID = lock.taskID ∧ row.lockedBy = lock.lockedBy ∧
        row.lockedUntil < now) }

/-- `ReleaseSystemTaskLock`. -/
def releaseLock (db : SystemTaskDB) (taskID lockedBy : String) : SystemTaskDB :=
  { db with locks := db.locks.delete fun row =>
      decide (row.taskID = taskID ∧ row.lockedBy = lockedBy) }

/-- A lease on the task is live at `now`. -/
def leased (db : SystemTaskDB) (taskID : String) (now : Int) : Bool :=
  db.locks.rows.any fun lock => decide (lock.taskID = taskID ∧ now ≤ lock.lockedUntil)

/-- The worker that holds a live lease on the task at `now`, in the lock of its type. -/
def holder (db : SystemTaskDB) (task : SystemTask) (now : Int) : Option String :=
  (db.locks.find task.type).bind fun lock =>
    if lock.taskID = task.taskID ∧ now ≤ lock.lockedUntil then some lock.lockedBy else none

end SystemTaskDB

/-! ### Calls -/

/-- What `ClaimSystemTask` was called with, and the time it read. -/
structure ClaimArgs where
  taskID : String
  taskType : String
  runnerID : String
  lockUntil : Int
  now : Int
deriving DecidableEq, Repr

def ClaimArgs.lock (args : ClaimArgs) : SystemTaskLock where
  type := args.taskType
  taskID := args.taskID
  lockedBy := args.runnerID
  lockedUntil := args.lockUntil
  updatedAt := args.now

inductive ClaimStage where
  /-- before the lookup of the task -/
  | lookup
  /-- before the insert of the lock -/
  | lock
  /-- the insert was refused, before the lock is read -/
  | contend
  /-- the lock was stale and named `expiredTaskID`, before it is taken over -/
  | take (expiredTaskID : String)
  /-- it is taken over, before `MarkSystemTaskLeaseExpired` -/
  | expire (expiredTaskID : String)
  /-- before the task is started -/
  | start
deriving DecidableEq, Repr

inductive SystemTaskCall where
  /-- `ClaimSystemTask` -/
  | claiming (args : ClaimArgs) (stage : ClaimStage)
  /-- before `ReleaseSystemTaskLock`, at the end of a claim or of `FinishSystemTask` -/
  | releasing (taskID lockedBy : String)
  /-- `UpdateSystemTaskState` -/
  | updating (taskID lockedBy state : String) (now : Int)
  /-- `RenewSystemTaskLock` -/
  | renewing (taskID lockedBy : String) (lockUntil now : Int)
  /-- `FinishSystemTask` -/
  | finishing (taskID lockedBy : String) (status : SystemTaskStatus) (result error : String)
      (now : Int)
  /-- `ExpireStaleSystemTaskLocks` before it reads the stale locks -/
  | sweeping (now : Int)
  /-- ... before the task of the first of them is marked -/
  | marking (now : Int) (lock : SystemTaskLock) (rest : List SystemTaskLock)
  /-- ... and before that lock is deleted -/
  | deleting (now : Int) (lock : SystemTaskLock) (rest : List SystemTaskLock)
  | done
deriving DecidableEq, Repr

/-- A task was updated or finished by `worker`; `holder` is who held it at that moment. -/
structure TaskWrite where
  taskID : String
  worker : String
  holder : Option String
deriving DecidableEq, Repr

/-- A task was marked; `status` and `leased` are what it was at that moment. -/
structure TaskMark where
  taskID : String
  status : SystemTaskStatus
  leased : Bool
deriving DecidableEq, Repr

structure SystemTaskSystem where
  clock : Int
  db : SystemTaskDB
  calls : List SystemTaskCall
  /-- the updates and finishes that went through -/
  writes : List TaskWrite
  /-- the tasks that were failed because their lease had expired -/
  marks : List TaskMark

inductive SystemTaskAct where
  /-- time goes on -/
  | tick (time : Int)
  | claim (taskID taskType runnerID : String) (lockUntil : Int)
  | update (taskID lockedBy state : String)
  | renew (taskID lockedBy : String) (lockUntil : Int)
  | finish (taskID lockedBy : String) (status : SystemTaskStatus) (result error : String)
  | expireStale
  /-- the next statement of call `i`; `dbOk` is whether it goes through -/
  | advance (i : Nat) (dbOk : Bool)
deriving DecidableEq, Repr

namespace SystemTaskSystem

def idle (clock : Int) (tasks : SystemTaskTable) : SystemTaskSystem :=
  ⟨clock, ⟨tasks, ⟨[], List.nodup_nil⟩⟩, [], [], []⟩

def start (s : SystemTaskSystem) (call : SystemTaskCall) : SystemTaskSystem :=
  { s with calls := s.calls ++ [call] }

def goOn (s : SystemTaskSystem) (i : Nat) (call : SystemTaskCall) : SystemTaskSystem :=
  { s with calls := s.calls.set i call }

/-- The sweep goes on with the locks that are left. -/
def sweepNext (now : Int) : List SystemTaskLock → SystemTaskCall
  | [] => .done
  | lock :: rest => .marking now lock rest

/-- A statement of the worker `worker` on a task. -/
def write (s : SystemTaskSystem) (taskID worker : String) (result : Bool × SystemTaskDB) :
    SystemTaskSystem :=
  match s.db.tasks.find taskID with
  | some task =>
    if result.1 then
      { s with
        db := result.2
        writes := ⟨taskID, worker, s.db.holder task s.clock⟩ :: s.writes }
    else s
  | none => s

/-- `MarkSystemTaskLeaseExpired`. -/
def mark (s : SystemTaskSystem) (taskID : String) : SystemTaskSystem :=
  match s.db.tasks.find taskID with
  | some task =>
    let (matched, db) := s.db.markLeaseExpired taskID s.clock
    if matched then
      { s with
        db := db
        marks := ⟨taskID, task.status, s.db.leased taskID s.clock⟩ :: s.marks }
    else s
  | none => s

/-- The next statement of `ClaimSystemTask`. -/
def advanceClaim (s : SystemTaskSystem) (i : Nat) (dbOk : Bool) (args : ClaimArgs) :
    ClaimStage → SystemTaskSystem
  | .lookup =>
    match if dbOk then s.db.tasks.find args.taskID else none with
    | some task =>
      s.goOn i
        (if SystemTaskDB.isClaimable args.taskType task then .claiming args .lock else .done)
    | none => s.goOn i .done
  | .lock =>
    match if dbOk then s.db.createLock args.lock else none with
    | some db => { s with db := db }.goOn i (.claiming args .start)
    | none => s.goOn i (.claiming args .contend)
  | .contend =>
    match if dbOk then s.db.locks.find args.taskType else none with
    | some existing =>
      s.goOn i
        (if args.now ≤ existing.lockedUntil then .done
        else .claiming args (.take existing.taskID))
    | none => s.goOn i .done
  | .take expiredTaskID =>
    let (taken, db) := s.db.takeLock args.lock
    if dbOk && taken then
      { s with db := db }.goOn i
        (if expiredTaskID ≠ "" ∧ expiredTaskID ≠ args.taskID then
          .claiming args (.expire expiredTaskID)
        else .claiming args .start)
    else s.goOn i .done
  | .expire expiredTaskID =>
    if dbOk then (s.mark expiredTaskID).goOn i (.claiming args .start)
    else s.goOn i (.releasing args.taskID args.runnerID)
  | .start =>
    let (started, db) := s.db.startTask args.taskID args.taskType args.runnerID args.now
    if dbOk && started then { s with db := db }.goOn i .done
    else s.goOn i (.releasing args.taskID args.runnerID)

def advance (s : SystemTaskSystem) (i : Nat) (dbOk : Bool) :
    SystemTaskCall → Option SystemTaskSystem
  | .claiming args stage => some (s.advanceClaim i dbOk args stage)
  | .releasing taskID lockedBy =>
    if dbOk then some ({ s with db := s.db.releaseLock taskID lockedBy }.goOn i .done)
    else some (s.goOn i .done)
  | .updating taskID lockedBy state now =>
    if dbOk then
      some ((s.write taskID lockedBy (s.db.updateState taskID lockedBy state now)).goOn i .done)
    else some (s.goOn i .done)
  | .renewing taskID lockedBy lockUntil now =>
    if dbOk then
      some ({ s with db := s.db.renewLock taskID lockedBy lockUntil now }.goOn i .done)
    else some (s.goOn i .done)
  | .finishing taskID lockedBy status result error now =>
    if dbOk then
      let finished := s.db.finishTask taskID lockedBy status result error now
      some ((s.write taskID lockedBy finished).goOn i
        (if finished.1 then .releasing taskID lockedBy else .done))
    else some (s.goOn i .done)
  | .sweeping now =>
    if dbOk then some (s.goOn i (sweepNext now (s.db.staleLocks now)))
    else some (s.goOn i .done)
  | .marking now lock rest =>
    if dbOk then some ((s.mark lock.taskID).goOn i (.deleting now lock rest))
    else some (s.goOn i .done)
  | .deleting now lock rest =>
    if dbOk then
      some ({ s with db := s.db.deleteStaleLock lock now }.goOn i (sweepNext now rest))
    else some (s.goOn i .done)
  | .done => none

def step (s : SystemTaskSystem) : SystemTaskAct → Option SystemTaskSystem
  | .tick time => if s.clock ≤ time then some { s with clock := time } else none
  | .claim taskID taskType runnerID lockUntil =>
    some (s.start (.claiming ⟨taskID, taskType, runnerID, lockUntil, s.clock⟩ .lookup))
  | .update taskID lockedBy state => some (s.start (.updating taskID lockedBy state s.clock))
  | .renew taskID lockedBy lockUntil =>
    some (s.start (.renewing taskID lockedBy lockUntil s.clock))
  | .finish taskID lockedBy status result error =>
    some (s.start (.finishing taskID lockedBy status result error s.clock))
  | .expireStale => some (s.start (.sweeping s.clock))
  | .advance i dbOk =>
    match s.calls[i]? with
    | some call => s.advance i dbOk call
    | none => none

end SystemTaskSystem

end JulongApi

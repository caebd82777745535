/-
What a step of the system means for one task.

A step moves one job by one statement, so it changes at most the row of that job's task
and moves money for no other.  `TaskView` is what the system looks like from one task:
its row, the jobs, the moves of money made for it.  `TaskStep` says what can happen to
a view, and `step_view` that every step of the system is one of these for every task.

The invariants about a task are shown of views, against `TaskStep`; none of them opens
the transition function again.
-/
import JulongApi.Lib.Pool
import JulongApi.TaskSystem

namespace JulongApi

/-! ### What a poll makes of a copy -/

/-- The handled copy is still a copy of the task, and it is finalized only at its end. -/
structure Handled.Follows (h : Handled) (t : Task) : Prop where
  id : h.task.id = t.id
  quota : h.task.quota = t.quota
  terminal : h.finalize = true → h.task.status.terminal = true
  /-- for a task that was not at its end, only if the update is won -/
  wins : t.status.terminal = false → h.finalize = true → h.write = true ∧ h.needsWin = true

namespace Task

theorem failTaskFromPoll_follows (now : Int) (t : Task) (reason : String) :
    (t.failTaskFromPoll now reason).Follows t :=
  ⟨rfl, rfl, fun _ => rfl, fun _ _ => ⟨rfl, rfl⟩⟩

theorem recordPollFailure_follows (cfg : PollConfig) (now : Int) (t : Task) :
    (t.recordPollFailure cfg now).Follows t := by
  unfold recordPollFailure
  dsimp only
  split
  · exact ⟨rfl, rfl, fun _ => rfl, fun _ _ => ⟨rfl, rfl⟩⟩
  · exact ⟨rfl, rfl, by simp, by simp⟩

theorem videoColumns_same (cfg : PollConfig) (now : Int) (info : TaskInfo) (t : Task) :
    (t.videoColumns cfg now info).id = t.id ∧ (t.videoColumns cfg now info).quota = t.quota ∧
      (t.videoColumns cfg now info).status = t.status := by
  unfold videoColumns
  split <;> exact ⟨rfl, rfl, rfl⟩

theorem videoResult_follows (cfg : PollConfig) (now : Int) (body : String) (info : TaskInfo)
    (t : Task) : (t.videoResult cfg now body info).Follows t := by
  have hsame := videoColumns_same cfg now info { t with
    data := body
    pluginState := if info.pluginState ≠ "" then info.pluginState else t.pluginState
    pollFailures := if info.status.isNonTerminalPollStatus then 0 else t.pollFailures
    status := info.status }
  refine ⟨hsame.1, hsame.2.1, ?_, ?_⟩
  · intro hfin
    exact (congrArg TaskStatus.terminal hsame.2.2).trans hfin
  · intro hopen hfin
    have hinfo : info.status.terminal = true := hfin
    have hne : t.status ≠ info.status := by
      intro heq
      rw [heq, hinfo] at hopen
      exact absurd hopen (by simp)
    constructor <;> simp [videoResult, hinfo, hne]

theorem batchResult_follows (info : TaskInfo) (t : Task) : (t.batchResult info).Follows t := by
  refine ⟨rfl, rfl, ?_, fun _ _ => ⟨rfl, rfl⟩⟩
  intro hfin
  simp only [batchResult, Bool.and_eq_true] at hfin
  exact hfin.1

theorem unrecognized_follows (cfg : PollConfig) (now : Int) (batch : Bool) (info : TaskInfo)
    (t : Task) : (t.unrecognized cfg now batch info).Follows t := by
  unfold unrecognized
  split
  · exact recordPollFailure_follows cfg now t
  · have h := recordPollFailure_follows cfg now { t with data := info.data.getD t.data }
    exact ⟨h.id, h.quota, h.terminal, h.wins⟩

theorem handlePoll_follows (cfg : PollConfig) (now : Int) (batch : Bool) (t : Task)
    (answer : PollAnswer) : (t.handlePoll cfg now batch answer).Follows t := by
  cases answer with
  | failed => exact recordPollFailure_follows cfg now t
  | notFound => exact failTaskFromPoll_follows now t _
  | parsed otherClient body info =>
    unfold handlePoll
    dsimp only
    split
    · exact unrecognized_follows cfg now batch info t
    · split
      · exact unrecognized_follows cfg now batch info t
      · split
        · exact batchResult_follows info t
        · exact videoResult_follows cfg now body info t

@[simp] theorem timedOut_id (now : Int) (t : Task) : (t.timedOut now).id = t.id := by
  unfold timedOut
  split <;> rfl

@[simp] theorem timedOut_status (now : Int) (t : Task) : (t.timedOut now).status = .failure := by
  unfold timedOut
  split <;> rfl

theorem timedOut_quota {now : Int} {t : Task} (h : t.isLegacy = false) :
    (t.timedOut now).quota = t.quota := by
  unfold timedOut
  rw [if_neg (by simp [h])]

end Task

/-! ### What one task sees of the system -/

variable {u : Task} {v : TaskView}

namespace TaskJob

def task : TaskJob → Option Task
  | .loaded t => some t
  | .timedOut t => some t
  | .unrefunded t => some t
  | .finalizing t _ => some t
  | .settling t _ => some t
  | .refunding _ t => some t
  | .writing _ t => some t
  | .unwritten _ t => some t
  | .claimed t => some t
  | .clearing t => some t
  | .restoring t => some t
  | .done => none

def On (x : Nat) (job : TaskJob) : Prop := job.task.map Task.id = some x

/-- The job is a finalizer that has not recorded its outcome in the row. -/
def finalizer : TaskJob → Bool
  | .finalizing _ _ => true
  | .settling _ _ => true
  | .refunding _ _ => true
  | .writing _ _ => true
  | .unwritten _ _ => true
  | _ => false

theorem On.unique {x y : Nat} {job : TaskJob} (hx : job.On x) (hy : job.On y) : x = y :=
  Option.some.inj (hx.symm.trans hy)

theorem task_release {polled : Bool} {t : Task} (h : (release polled t).task = some u) : u = t := by
  cases polled with
  | false => simp [release, task] at h
  | true => exact (Option.some.inj h).symm

theorem task_of_held {job : TaskJob} {t : Task} (h : job.held = some t) : job.task = some t := by
  cases job with
  | loaded u => exact h
  | unwritten polled u =>
    cases polled with
    | false => simp [held] at h
    | true => exact h
  | _ => simp [held] at h

end TaskJob

/-- The row of a task, the jobs, and the money moved for the task. -/
structure TaskView where
  row : Task
  jobs : List TaskJob
  moves : List Int

/-- The system as task `x` sees it. -/
def TaskSystem.view (s : TaskSystem) (x : Nat) : Option TaskView :=
  (s.rows.find x).map fun row => ⟨row, s.jobs, s.moves x⟩

/-- A copy as it has just been read, with what its query asked for. -/
inductive Fresh (row : Task) : TaskJob → Prop where
  | loaded (hopen : row.status.terminal = false) : Fresh row (.loaded row)
  | timedOut (hopen : row.status.terminal = false) : Fresh row (.timedOut row)
  | unrefunded (hstatus : row.status = .failure) (hquota : row.quota ≠ 0)
      (hlegacy : row.isLegacy = false) : Fresh row (.unrefunded row)

/-- What can happen to job `i` of a task, to the row of the task, and to its money. -/
inductive JobStep (cfg : PollConfig) (i : Nat) (row : Task) :
    TaskAct → TaskJob → TaskJob → Task → List Int → Prop where
  | timeOutRefund {t : Task} {now : Int} (hstatus : row.status = t.status)
      (hlegacy : t.isLegacy = false) :
      JobStep cfg i row (.timeOut i now true) (.timedOut t) (.refunding false (t.timedOut now))
        { t.timedOut now with updatedAt := now } []
  | timeOutDone {t : Task} {now : Int} (hstatus : row.status = t.status) :
      JobStep cfg i row (.timeOut i now true) (.timedOut t) .done
        { t.timedOut now with updatedAt := now } []
  | timeOutLost {t : Task} {now : Int} {dbOk : Bool} :
      JobStep cfg i row (.timeOut i now dbOk) (.timedOut t) .done row []
  | pollWon {job : TaskJob} {t : Task} {batch : Bool} {answer : PollAnswer} {now : Int}
      (hheld : job.held = some t) (hstatus : row.status = t.status) :
      JobStep cfg i row (.poll i batch answer now true) job
        (.loaded (t.handlePoll cfg now batch answer).task)
        { (t.handlePoll cfg now batch answer).task with updatedAt := now } []
  | pollFinished {job : TaskJob} {t : Task} {batch : Bool} {answer : PollAnswer} {now : Int}
      (hheld : job.held = some t) (hstatus : row.status = t.status)
      (hfin : (t.handlePoll cfg now batch answer).finalize = true) :
      JobStep cfg i row (.poll i batch answer now true) job
        (.finalizing (t.handlePoll cfg now batch answer).task
          (t.handlePoll cfg now batch answer).info)
        { (t.handlePoll cfg now batch answer).task with updatedAt := now } []
  | pollKept {job : TaskJob} {t : Task} {batch : Bool} {answer : PollAnswer} {now : Int}
      {dbOk : Bool} (hheld : job.held = some t) :
      JobStep cfg i row (.poll i batch answer now dbOk) job
        (.loaded (t.handlePoll cfg now batch answer).task) row []
  /-- finalized without an update: only a copy that was at its end before -/
  | pollAgain {job : TaskJob} {t : Task} {batch : Bool} {answer : PollAnswer} {now : Int}
      {dbOk : Bool} (hheld : job.held = some t) (hend : t.status.terminal = true)
      (hfin : (t.handlePoll cfg now batch answer).finalize = true) :
      JobStep cfg i row (.poll i batch answer now dbOk) job
        (.finalizing (t.handlePoll cfg now batch answer).task
          (t.handlePoll cfg now batch answer).info) row []
  | finalizeKept {t : Task} {info : TaskInfo} {r : CompletionReply} :
      JobStep cfg i row (.finalize i r) (.finalizing t info) (.loaded t) row []
  | finalizeSettle {t : Task} {info : TaskInfo} {r : CompletionReply} {actualQuota : Int}
      (hactual : 0 ≤ actualQuota) :
      JobStep cfg i row (.finalize i r) (.finalizing t info) (.settling t actualQuota) row []
  | finalizeRefund {t : Task} {info : TaskInfo} {r : CompletionReply} :
      JobStep cfg i row (.finalize i r) (.finalizing t info) (.refunding true t) row []
  | settled {t : Task} {actualQuota : Int} :
      JobStep cfg i row (.moveFunding i true) (.settling t actualQuota)
        (.writing true { t with quota := actualQuota }) row [actualQuota - t.quota]
  | settleFailed {t : Task} {actualQuota : Int} :
      JobStep cfg i row (.moveFunding i false) (.settling t actualQuota) (.loaded t) row []
  | refunded {polled : Bool} {t : Task} :
      JobStep cfg i row (.moveFunding i true) (.refunding polled t)
        (.writing polled { t with quota := 0 }) row [-t.quota]
  | refundFailed {polled : Bool} {t : Task} :
      JobStep cfg i row (.moveFunding i false) (.refunding polled t) (.release polled t) row []
  | sweepRefunded {t : Task} :
      JobStep cfg i row (.moveFunding i true) (.claimed t) (.clearing { t with quota := 0 })
        row [-t.quota]
  | sweepFailed {t : Task} :
      JobStep cfg i row (.moveFunding i false) (.claimed t) (.restoring t) row []
  | written {polled : Bool} {t : Task} {now : Int} :
      JobStep cfg i row (.writeQuota i now true) (.writing polled t) (.release polled t)
        { row with quota := t.quota, updatedAt := now } []
  | unwritten {polled : Bool} {t : Task} {now : Int} :
      JobStep cfg i row (.writeQuota i now false) (.writing polled t) (.unwritten polled t)
        row []
  | cleared {t : Task} {now : Int} :
      JobStep cfg i row (.writeQuota i now true) (.clearing t) .done
        { row with quota := t.quota, updatedAt := now } []
  | uncleared {t : Task} {now : Int} :
      JobStep cfg i row (.writeQuota i now false) (.clearing t) .done row []
  | claimed {t : Task} {now : Int} (hquota : row.quota = t.quota) (hne : t.quota ≠ 0) :
      JobStep cfg i row (.claim i now true) (.unrefunded t) (.claimed t)
        { row with quota := 0, updatedAt := now } []
  | claimLost {t : Task} {now : Int} {dbOk : Bool} :
      JobStep cfg i row (.claim i now dbOk) (.unrefunded t) .done row []
  | restored {t : Task} {now : Int} (hzero : row.quota = 0) :
      JobStep cfg i row (.restore i now true) (.restoring t) .done
        { row with quota := t.quota, updatedAt := now } []
  | unrestored {t : Task} {now : Int} {dbOk : Bool} :
      JobStep cfg i row (.restore i now dbOk) (.restoring t) .done row []

inductive TaskStep (cfg : PollConfig) (x : Nat) : TaskAct → TaskView → TaskView → Prop where
  /-- a job of another task goes on -/
  | elsewhere {a : TaskAct} {v : TaskView} {i : Nat} {job job' : TaskJob}
      (hjob : v.jobs[i]? = some job) (hon : ¬job.On x) (hon' : ¬job'.On x) :
      TaskStep cfg x a v { v with jobs := v.jobs.set i job' }
  | load {a : TaskAct} {v : TaskView} {new : List TaskJob}
      (hfresh : ∀ job ∈ new, job.On x → Fresh v.row job) :
      TaskStep cfg x a v { v with jobs := v.jobs ++ new }
  | bulkFail {ids : List Nat} {failReason : Option String} {now : Int} {v : TaskView}
      (hid : x ∈ ids) :
      TaskStep cfg x (.bulkFail ids failReason now true) v
        { v with
          row := { v.row with
            status := .failure
            progress := "100%"
            failReason := failReason.getD v.row.failReason
            updatedAt := now } }
  | bulkElsewhere {ids : List Nat} {failReason : Option String} {now : Int} {dbOk : Bool}
      {v : TaskView} : TaskStep cfg x (.bulkFail ids failReason now dbOk) v v
  | job {a : TaskAct} {v : TaskView} {i : Nat} {job job' : TaskJob} {row' : Task}
      {moves : List Int} (hjob : v.jobs[i]? = some job) (hon : job.On x)
      (hon' : ∀ y, job'.On y → y = x) (hstep : JobStep cfg i v.row a job job' row' moves) :
      TaskStep cfg x a v ⟨row', v.jobs.set i job', moves ++ v.moves⟩

/-! ### What the statements do to a row -/

namespace TaskTable

variable {rows : TaskTable} {dbOk : Bool} {now : Int}

theorem updateWithStatus_cases (rows : TaskTable) (dbOk : Bool) (now : Int) (t : Task)
    (fromStatus : TaskStatus) :
    (∃ row, dbOk = true ∧ rows.find t.id = some row ∧ row.status = fromStatus ∧
      rows.updateWithStatus dbOk now t fromStatus =
        (true, rows.save { t with updatedAt := now })) ∨
    rows.updateWithStatus dbOk now t fromStatus = (false, rows) := by
  unfold updateWithStatus
  cases dbOk with
  | false => exact .inr rfl
  | true =>
    rcases rows.update_cases t.id (fun row => row.status = fromStatus)
      (fun _ => { t with updatedAt := now }) with ⟨row, hrow, hguard, heq⟩ | ⟨-, heq⟩
    · exact .inl ⟨row, rfl, hrow, by simpa using hguard, heq⟩
    · exact .inr heq

theorem claimQuotaForRefund_cases (rows : TaskTable) (dbOk : Bool) (now : Int) (id : Nat)
    (quota : Int) :
    (∃ row, dbOk = true ∧ quota ≠ 0 ∧ rows.find id = some row ∧ row.quota = quota ∧
      rows.claimQuotaForRefund dbOk now id quota =
        (true, rows.save { row with quota := 0, updatedAt := now })) ∨
    rows.claimQuotaForRefund dbOk now id quota = (false, rows) := by
  unfold claimQuotaForRefund
  by_cases hzero : quota = 0
  · rw [if_pos hzero]
    exact .inr rfl
  · rw [if_neg hzero]
    cases dbOk with
    | false => exact .inr rfl
    | true =>
      rcases rows.update_cases id (fun row => row.quota = quota)
        (fun row => { row with quota := 0, updatedAt := now }) with
        ⟨row, hrow, hguard, heq⟩ | ⟨-, heq⟩
      · exact .inl ⟨row, rfl, hzero, hrow, by simpa using hguard, heq⟩
      · exact .inr heq

theorem restoreQuotaAfterFailedRefund_cases (rows : TaskTable) (dbOk : Bool) (now : Int)
    (id : Nat) (quota : Int) :
    (∃ row, dbOk = true ∧ rows.find id = some row ∧ row.quota = 0 ∧
      rows.restoreQuotaAfterFailedRefund dbOk now id quota =
        rows.save { row with quota := quota, updatedAt := now }) ∨
    rows.restoreQuotaAfterFailedRefund dbOk now id quota = rows := by
  unfold restoreQuotaAfterFailedRefund
  by_cases hzero : quota = 0
  · rw [if_pos hzero]
    exact .inr rfl
  · rw [if_neg hzero]
    cases dbOk with
    | false => exact .inr rfl
    | true =>
      rcases rows.update_cases id (fun row => row.quota = 0)
        (fun row => { row with quota := quota, updatedAt := now }) with
        ⟨row, hrow, hguard, heq⟩ | ⟨-, heq⟩
      · exact .inl ⟨row, rfl, hrow, by simpa using hguard, congrArg Prod.snd heq⟩
      · exact .inr (congrArg Prod.snd heq)

theorem updateQuota_cases (rows : TaskTable) (dbOk : Bool) (now : Int) (t : Task) :
    (∃ row, dbOk = true ∧ rows.find t.id = some row ∧ rows.updateQuota dbOk now t =
      some (rows.save { row with quota := t.quota, updatedAt := now })) ∨
    (rows.find t.id = none ∧ rows.updateQuota dbOk now t = some rows) ∨
    (dbOk = false ∧ rows.updateQuota dbOk now t = none) := by
  unfold updateQuota
  cases dbOk with
  | false => exact .inr (.inr ⟨rfl, rfl⟩)
  | true =>
    rcases rows.update_cases t.id (fun _ => true)
      (fun row => { row with quota := t.quota, updatedAt := now }) with
      ⟨row, hrow, -, heq⟩ | ⟨hnone, heq⟩
    · exact .inl ⟨row, rfl, hrow, by rw [if_pos rfl, heq]⟩
    · refine .inr (.inl ⟨?_, by rw [if_pos rfl, heq]⟩)
      cases hfind : rows.find t.id with
      | none => rfl
      | some row => exact absurd (hnone row hfind) (by simp)

theorem find_taskBulkUpdateByID (rows : TaskTable) (now : Int) (ids : List Nat)
    (failReason : Option String) (x : Nat) :
    (rows.taskBulkUpdateByID true now ids failReason).find x =
      (rows.find x).map fun row =>
        if row.id ∈ ids then
          { row with
            status := .failure
            progress := "100%"
            failReason := failReason.getD row.failReason
            updatedAt := now }
        else row := by
  unfold taskBulkUpdateByID
  rw [if_pos rfl, Table.find_mapRows]

theorem mem_of_query {l : List Task} {r : Task → Task → Prop} [DecidableRel r] {n : Nat}
    {t : Task} (h : t ∈ (l.insertionSort r).take n) : t ∈ l :=
  (List.mem_insertionSort r).mp (List.mem_of_mem_take h)

variable {limit : Nat}

theorem mem_getTimedOutUnfinishedTasks {cutoffUnix : Int} {t : Task}
    (h : t ∈ rows.getTimedOutUnfinishedTasks cutoffUnix limit) :
    t ∈ rows.rows ∧ t.status.terminal = false := by
  have hmem := List.mem_filter.mp (mem_of_query h)
  simp only [decide_eq_true_eq] at hmem
  exact ⟨hmem.1, hmem.2.2.1⟩

theorem mem_getAllUnFinishSyncTasks {t : Task} (h : t ∈ rows.getAllUnFinishSyncTasks limit) :
    t ∈ rows.rows ∧ t.status.terminal = false := by
  have hmem := List.mem_filter.mp (mem_of_query h)
  simp only [decide_eq_true_eq] at hmem
  exact ⟨hmem.1, hmem.2.2⟩

theorem mem_getUnrefundedFailedTasks {updatedBefore : Int} {t : Task}
    (h : t ∈ rows.getUnrefundedFailedTasks updatedBefore limit) :
    t ∈ rows.rows ∧ t.status = .failure ∧ t.quota ≠ 0 ∧ t.isLegacy = false := by
  have hmem := List.mem_filter.mp (mem_of_query h)
  simp only [decide_eq_true_eq] at hmem
  obtain ⟨hrow, hstatus, hquota, -, hsubmit⟩ := hmem
  refine ⟨hrow, hstatus, hquota, ?_⟩
  simp only [Task.isLegacy, Bool.and_eq_false_iff, decide_eq_false_iff_not, not_lt]
  exact hsubmit

end TaskTable

/-! ### Every step is a step of every view -/

variable {cfg : PollConfig} {s t : TaskSystem} {a : TaskAct} {i k x : Nat}
  {job job' : TaskJob} {rows' : TaskTable} {ms : List Int}

/-- Job `i`, of task `k`, goes on: nothing but the row and the money of `k` changes. -/
structure LocalStep (cfg : PollConfig) (s : TaskSystem) (a : TaskAct) (t : TaskSystem)
    (i k : Nat) (job job' : TaskJob) (ms : List Int) : Prop where
  found : s.jobs[i]? = some job
  before : job.On k
  after : ∀ y, job'.On y → y = k
  jobs : t.jobs = s.jobs.set i job'
  ledger : t.ledger = ms.map (fun m => (k, m)) ++ s.ledger
  others : ∀ y, y ≠ k → t.rows.find y = s.rows.find y
  missing : s.rows.find k = none → t.rows.find k = none
  step : ∀ row, s.rows.find k = some row →
    ∃ row', t.rows.find k = some row' ∧ JobStep cfg i row a job job' row' ms

def MovesOneJob (cfg : PollConfig) (s : TaskSystem) (a : TaskAct) (t : TaskSystem) : Prop :=
  ∃ i k job job' ms, LocalStep cfg s a t i k job job' ms

theorem MovesOneJob.keep (job' : TaskJob) (ms : List Int) (hjob : s.jobs[i]? = some job)
    (hu : job.task = some u) (hu' : ∀ u', job'.task = some u' → u'.id = u.id)
    (hstep : ∀ row, s.rows.find u.id = some row → JobStep cfg i row a job job' row ms) :
    MovesOneJob cfg s a
      ⟨s.rows, s.jobs.set i job', ms.map (fun m => (u.id, m)) ++ s.ledger⟩ := by
  refine ⟨i, u.id, job, job', ms, hjob, congrArg (Option.map Task.id) hu, ?_, rfl, rfl,
    fun _ _ => rfl, fun hnone => hnone, fun row hrow => ⟨row, hrow, hstep row hrow⟩⟩
  intro y hy
  obtain ⟨u', htask, hid⟩ := Option.map_eq_some_iff.mp hy
  exact hid.symm.trans (hu' u' htask)

theorem MovesOneJob.save {row : Task} (job' : TaskJob) (new : Task) (hjob : s.jobs[i]? = some job)
    (hu : job.task = some u) (hu' : ∀ u', job'.task = some u' → u'.id = u.id) (hnew : new.id = u.id)
    (hrow : s.rows.find u.id = some row) (hstep : JobStep cfg i row a job job' new []) :
    MovesOneJob cfg s a ⟨s.rows.save new, s.jobs.set i job', s.ledger⟩ := by
  rw [← hnew] at hrow
  refine ⟨i, new.id, job, job', [], hjob, ?_, ?_, rfl, rfl, ?_, ?_, ?_⟩
  · rw [hnew]
    exact congrArg (Option.map Task.id) hu
  · intro y hy
    obtain ⟨u', htask, hid⟩ := Option.map_eq_some_iff.mp hy
    exact hid.symm.trans ((hu' u' htask).trans hnew.symm)
  · intro y hy
    exact Table.find_save_ne (Ne.symm hy)
  · intro hnone
    rw [hrow] at hnone
    exact absurd hnone (by simp)
  · intro row' hrow'
    cases hrow.symm.trans hrow'
    exact ⟨new, Table.find_save_self hrow, hstep⟩

theorem moves_append_self (l : List (Nat × Int)) (ms : List Int) :
    (ms.map (fun m => (k, m)) ++ l).filterMap (fun m => if m.1 = k then some m.2 else none) =
      ms ++ l.filterMap fun m => if m.1 = k then some m.2 else none := by
  rw [List.filterMap_append]
  congr 1
  induction ms with
  | nil => rfl
  | cons m rest ih => simp [ih]

theorem moves_append_ne (l : List (Nat × Int)) (ms : List Int) (hne : k ≠ x) :
    (ms.map (fun m => (k, m)) ++ l).filterMap (fun m => if m.1 = x then some m.2 else none) =
      l.filterMap fun m => if m.1 = x then some m.2 else none := by
  rw [List.filterMap_append]
  have hnil : (ms.map (fun m => (k, m))).filterMap
      (fun m => if m.1 = x then some m.2 else none) = [] := by
    induction ms with
    | nil => rfl
    | cons m rest ih => simp [hne]
  rw [hnil, List.nil_append]

theorem LocalStep.view (h : LocalStep cfg s a t i k job job' ms) (hv : s.view x = some v) :
    ∃ v', t.view x = some v' ∧ TaskStep cfg x a v v' := by
  unfold TaskSystem.view at hv ⊢
  obtain ⟨row, hrow, rfl⟩ := Option.map_eq_some_iff.mp hv
  by_cases hx : k = x
  · subst hx
    obtain ⟨row', hrow', hstep⟩ := h.step row hrow
    refine ⟨⟨row', s.jobs.set i job', ms ++ s.moves k⟩, ?_, .job h.found h.before h.after hstep⟩
    rw [hrow', Option.map_some, h.jobs, TaskSystem.moves, h.ledger, moves_append_self]
    rfl
  · have hrow' : t.rows.find x = some row := by rw [h.others x (Ne.symm hx), hrow]
    refine ⟨⟨row, s.jobs.set i job', s.moves x⟩, ?_, ?_⟩
    · rw [hrow', Option.map_some, h.jobs, TaskSystem.moves, h.ledger, moves_append_ne _ _ hx]
      rfl
    · exact .elsewhere h.found (fun hc => hx (h.before.unique hc)) fun hc => hx (h.after x hc).symm

/-! ### The steps, action by action -/

theorem timeOut_moves {now : Int} {dbOk : Bool}
    (h : TaskSystem.step cfg s (.timeOut i now dbOk) = some t) :
    MovesOneJob cfg s (.timeOut i now dbOk) t := by
  simp only [TaskSystem.step] at h
  split at h
  · rename_i u hjob
    cases h
    rcases s.rows.updateWithStatus_cases dbOk now (u.timedOut now) u.status with
      ⟨row, rfl, hrow, hstatus, heq⟩ | heq
    · rw [Task.timedOut_id] at hrow
      rw [heq]
      by_cases hrefund : (true && !u.isLegacy && u.quota != 0) = true
      · have hlegacy : u.isLegacy = false := by
          simp only [Bool.true_and, Bool.and_eq_true, Bool.not_eq_true'] at hrefund
          exact hrefund.1
        rw [if_pos hrefund]
        exact .save (.refunding false (u.timedOut now)) _ hjob rfl (by simp [TaskJob.task])
          (u.timedOut_id now) hrow (.timeOutRefund hstatus hlegacy)
      · rw [if_neg hrefund]
        exact .save .done _ hjob rfl (by simp [TaskJob.task]) (u.timedOut_id now) hrow
          (.timeOutDone hstatus)
    · rw [heq]
      exact .keep .done [] hjob rfl (by simp [TaskJob.task]) fun _ _ => .timeOutLost
  · simp at h

theorem Handled.Follows.ended {h : Handled} (hf : h.Follows u) (hfin : h.finalize = true)
    (hwin : h.write = true → h.needsWin = false) : u.status.terminal = true := by
  by_contra hopen
  rw [Bool.not_eq_true] at hopen
  have hwins := hf.wins hopen hfin
  rw [hwin hwins.1] at hwins
  exact absurd hwins.2 (by simp)

variable {batch : Bool} {answer : PollAnswer} {cond : TaskSystem → TaskAct → Prop}
  {acts : List TaskAct}

theorem pollCopy_moves {now : Int} {dbOk : Bool} (hjob : s.jobs[i]? = some job)
    (hheld : job.held = some u) :
    MovesOneJob cfg s (.poll i batch answer now dbOk)
      (s.poll i u (u.handlePoll cfg now batch answer) now dbOk) := by
  have hf := u.handlePoll_follows cfg now batch answer
  have htask : job.task = some u := TaskJob.task_of_held hheld
  have hkept : MovesOneJob cfg s (.poll i batch answer now dbOk)
      (s.goOn i (.loaded (u.handlePoll cfg now batch answer).task)) :=
    .keep _ [] hjob htask (by simp [TaskJob.task, hf.id]) fun _ _ => .pollKept hheld
  have hagain (hfin : (u.handlePoll cfg now batch answer).finalize = true)
      (hwin : (u.handlePoll cfg now batch answer).write = true →
        (u.handlePoll cfg now batch answer).needsWin = false) :
      MovesOneJob cfg s (.poll i batch answer now dbOk)
        (s.goOn i (.finalizing (u.handlePoll cfg now batch answer).task
          (u.handlePoll cfg now batch answer).info)) :=
    .keep _ [] hjob htask (by simp [TaskJob.task, hf.id])
      fun _ _ => .pollAgain hheld (hf.ended hfin hwin) hfin
  unfold TaskSystem.poll
  by_cases hwrite : (u.handlePoll cfg now batch answer).write = true
  · rw [if_pos hwrite]
    rcases s.rows.updateWithStatus_cases dbOk now (u.handlePoll cfg now batch answer).task
      u.status with ⟨row, rfl, hrow, hstatus, heq⟩ | heq
    · rw [hf.id] at hrow
      rw [heq]
      dsimp only
      split
      · rename_i hfin
        simp only [Bool.true_or, Bool.and_true] at hfin
        exact .save _ _ hjob htask (by simp [TaskJob.task, hf.id]) hf.id hrow
          (.pollFinished hheld hstatus hfin)
      · exact .save _ _ hjob htask (by simp [TaskJob.task, hf.id]) hf.id hrow
          (.pollWon hheld hstatus)
    · rw [heq]
      dsimp only
      split
      · rename_i hfin
        simp only [Bool.false_or, Bool.and_eq_true, Bool.not_eq_true'] at hfin
        exact hagain hfin.1 fun _ => hfin.2
      · exact hkept
  · rw [if_neg hwrite]
    split
    · next hfin => exact hagain hfin fun hw => absurd hw hwrite
    · exact hkept

theorem poll_moves {now : Int} {dbOk : Bool}
    (h : TaskSystem.step cfg s (.poll i batch answer now dbOk) = some t) :
    MovesOneJob cfg s (.poll i batch answer now dbOk) t := by
  simp only [TaskSystem.step] at h
  split at h
  · rename_i u hbind
    obtain ⟨job, hjob, hheld⟩ := Option.bind_eq_some_iff.mp hbind
    split at h
    · simp at h
    · cases h
      exact pollCopy_moves hjob hheld
  · simp at h

theorem finalize_moves {r : CompletionReply}
    (h : TaskSystem.step cfg s (.finalize i r) = some t) : MovesOneJob cfg s (.finalize i r) t := by
  simp only [TaskSystem.step] at h
  split at h
  · rename_i u info hjob
    cases h
    have hkept : MovesOneJob cfg s (.finalize i r) (s.goOn i (.loaded u)) :=
      .keep (.loaded u) [] hjob rfl (by simp [TaskJob.task]) fun _ _ => .finalizeKept
    unfold finalizeTerminalTask
    split
    · rename_i actualQuota _
      split
      · exact hkept
      · exact .keep (.settling u actualQuota) [] hjob rfl (by simp [TaskJob.task])
          fun _ _ => .finalizeSettle (by omega)
    · exact hkept
    · split
      · exact .keep (.refunding true u) [] hjob rfl (by simp [TaskJob.task])
          fun _ _ => .finalizeRefund
      · exact hkept
  · simp at h

theorem moveFunding_moves {ok : Bool} (h : TaskSystem.step cfg s (.moveFunding i ok) = some t) :
    MovesOneJob cfg s (.moveFunding i ok) t := by
  simp only [TaskSystem.step] at h
  split at h
  · rename_i job hjob
    cases job with
    | settling u actualQuota =>
      cases ok with
      | true =>
        cases h
        exact .keep (.writing true { u with quota := actualQuota }) [actualQuota - u.quota]
          hjob rfl (by simp [TaskJob.task]) fun _ _ => .settled
      | false =>
        cases h
        exact .keep (.loaded u) [] hjob rfl (by simp [TaskJob.task])
          fun _ _ => .settleFailed
    | refunding polled u =>
      cases ok with
      | true =>
        cases h
        exact .keep (.writing polled { u with quota := 0 }) [-u.quota] hjob rfl
          (by simp [TaskJob.task]) fun _ _ => .refunded
      | false =>
        cases h
        exact .keep (.release polled u) [] hjob rfl
          (fun _ hu' => congrArg Task.id (TaskJob.task_release hu'))
          fun _ _ => .refundFailed
    | claimed u =>
      cases ok with
      | true =>
        cases h
        exact .keep (.clearing { u with quota := 0 }) [-u.quota] hjob rfl
          (by simp [TaskJob.task]) fun _ _ => .sweepRefunded
      | false =>
        cases h
        exact .keep (.restoring u) [] hjob rfl (by simp [TaskJob.task])
          fun _ _ => .sweepFailed
    | _ => simp [TaskSystem.moveFunding] at h
  · simp at h

theorem writeQuota_moves {now : Int} {dbOk : Bool}
    (h : TaskSystem.step cfg s (.writeQuota i now dbOk) = some t) :
    MovesOneJob cfg s (.writeQuota i now dbOk) t := by
  simp only [TaskSystem.step] at h
  split at h
  · rename_i job hjob
    cases job with
    | writing polled u =>
      have hreleased : ∀ u', (TaskJob.release polled u).task = some u' → u'.id = u.id :=
        fun _ hu' => congrArg Task.id (TaskJob.task_release hu')
      simp only [TaskSystem.writeQuota] at h
      rcases s.rows.updateQuota_cases dbOk now u with
        ⟨row, rfl, hrow, heq⟩ | ⟨hnone, heq⟩ | ⟨rfl, heq⟩
      · rw [heq] at h
        cases h
        have hid : row.id = u.id := Table.key_of_find hrow
        exact .save (.release polled u) _ hjob rfl hreleased hid hrow .written
      · rw [heq] at h
        cases h
        exact .keep (.release polled u) [] hjob rfl hreleased fun row hrow => by
          simp [hnone] at hrow
      · rw [heq] at h
        cases h
        exact .keep (.unwritten polled u) [] hjob rfl (by simp [TaskJob.task])
          fun _ _ => .unwritten
    | clearing u =>
      simp only [TaskSystem.writeQuota] at h
      rcases s.rows.updateQuota_cases dbOk now u with
        ⟨row, rfl, hrow, heq⟩ | ⟨hnone, heq⟩ | ⟨rfl, heq⟩
      · rw [heq] at h
        cases h
        have hid : row.id = u.id := Table.key_of_find hrow
        exact .save .done _ hjob rfl (by simp [TaskJob.task]) hid hrow .cleared
      · rw [heq] at h
        cases h
        exact .keep .done [] hjob rfl (by simp [TaskJob.task]) fun row hrow => by
          simp [hnone] at hrow
      · rw [heq] at h
        cases h
        exact .keep .done [] hjob rfl (by simp [TaskJob.task]) fun _ _ => .uncleared
    | _ => simp [TaskSystem.writeQuota] at h
  · simp at h

theorem claim_moves {now : Int} {dbOk : Bool}
    (h : TaskSystem.step cfg s (.claim i now dbOk) = some t) :
    MovesOneJob cfg s (.claim i now dbOk) t := by
  simp only [TaskSystem.step] at h
  split at h
  · rename_i u hjob
    cases h
    rcases s.rows.claimQuotaForRefund_cases dbOk now u.id u.quota with
      ⟨row, rfl, hne, hrow, hquota, heq⟩ | heq
    · rw [heq]
      have hid : row.id = u.id := Table.key_of_find hrow
      exact .save (.claimed u) _ hjob rfl (by simp [TaskJob.task]) hid hrow
        (.claimed hquota hne)
    · rw [heq]
      exact .keep .done [] hjob rfl (by simp [TaskJob.task]) fun _ _ => .claimLost
  · simp at h

theorem restore_moves {now : Int} {dbOk : Bool}
    (h : TaskSystem.step cfg s (.restore i now dbOk) = some t) :
    MovesOneJob cfg s (.restore i now dbOk) t := by
  simp only [TaskSystem.step] at h
  split at h
  · rename_i u hjob
    cases h
    rcases s.rows.restoreQuotaAfterFailedRefund_cases dbOk now u.id u.quota with
      ⟨row, rfl, hrow, hzero, heq⟩ | heq
    · rw [heq]
      have hid : row.id = u.id := Table.key_of_find hrow
      exact .save .done _ hjob rfl (by simp [TaskJob.task]) hid hrow (.restored hzero)
    · rw [heq]
      exact .keep .done [] hjob rfl (by simp [TaskJob.task]) fun _ _ => .unrestored
  · simp at h

theorem start_view {new : List TaskJob} (hv : s.view x = some v)
    (hnew : ∀ job ∈ new, ∃ u ∈ s.rows.rows, job.task = some u ∧ Fresh u job) :
    ∃ v', (s.start new).view x = some v' ∧ TaskStep cfg x a v v' := by
  obtain ⟨row, hrow, rfl⟩ := Option.map_eq_some_iff.mp hv
  refine ⟨⟨row, s.jobs ++ new, s.moves x⟩, ?_, .load ?_⟩
  · exact Option.map_eq_some_iff.mpr ⟨row, hrow, rfl⟩
  · intro job hjob hon
    obtain ⟨u, hu, htask, hfresh⟩ := hnew job hjob
    have hid : u.id = x := by
      rw [TaskJob.On, htask] at hon
      exact Option.some.inj hon
    have hsame : u = row := by
      have hfind := Table.find_of_mem hu
      rw [hid, hrow] at hfind
      exact (Option.some.inj hfind).symm
    exact hsame ▸ hfresh

theorem bulkFail_view {ids : List Nat} {failReason : Option String} {now : Int} {dbOk : Bool}
    (hv : s.view x = some v) :
    ∃ v', TaskSystem.view { s with rows := s.rows.taskBulkUpdateByID dbOk now ids failReason } x =
      some v' ∧ TaskStep cfg x (.bulkFail ids failReason now dbOk) v v' := by
  obtain ⟨row, hrow, rfl⟩ := Option.map_eq_some_iff.mp hv
  cases dbOk with
  | false => exact ⟨_, hv, .bulkElsewhere⟩
  | true =>
    have hkey : row.id = x := Table.key_of_find hrow
    have hfind := s.rows.find_taskBulkUpdateByID now ids failReason x
    rw [hrow, Option.map_some] at hfind
    by_cases hid : row.id ∈ ids
    · rw [if_pos hid] at hfind
      exact ⟨_, Option.map_eq_some_iff.mpr ⟨_, hfind, rfl⟩, .bulkFail (hkey ▸ hid)⟩
    · rw [if_neg hid] at hfind
      exact ⟨_, Option.map_eq_some_iff.mpr ⟨_, hfind, rfl⟩, .bulkElsewhere⟩

theorem step_cases (h : TaskSystem.step cfg s a = some t) :
    (∃ new, t = s.start new ∧ ∀ job ∈ new, ∃ u ∈ s.rows.rows, job.task = some u ∧ Fresh u job) ∨
    (∃ ids failReason now dbOk, a = .bulkFail ids failReason now dbOk ∧
      t = { s with rows := s.rows.taskBulkUpdateByID dbOk now ids failReason }) ∨
    MovesOneJob cfg s a t := by
  cases a with
  | loadTimedOut cutoffUnix =>
    refine .inl ⟨_, (Option.some.inj h).symm, ?_⟩
    intro job hjob
    obtain ⟨u, hu, rfl⟩ := List.mem_map.mp hjob
    obtain ⟨hmem, hopen⟩ := TaskTable.mem_getTimedOutUnfinishedTasks hu
    exact ⟨u, hmem, rfl, .timedOut hopen⟩
  | loadUnrefunded now =>
    refine .inl ⟨_, (Option.some.inj h).symm, ?_⟩
    intro job hjob
    obtain ⟨u, hu, rfl⟩ := List.mem_map.mp hjob
    obtain ⟨hmem, hstatus, hquota, hlegacy⟩ := TaskTable.mem_getUnrefundedFailedTasks hu
    exact ⟨u, hmem, rfl, .unrefunded hstatus hquota hlegacy⟩
  | loadUnfinished limit =>
    refine .inl ⟨_, (Option.some.inj h).symm, ?_⟩
    intro job hjob
    obtain ⟨u, hu, rfl⟩ := List.mem_map.mp hjob
    obtain ⟨hmem, hopen⟩ := TaskTable.mem_getAllUnFinishSyncTasks hu
    exact ⟨u, hmem, rfl, .loaded hopen⟩
  | timeOut i now dbOk => exact .inr (.inr (timeOut_moves h))
  | bulkFail ids failReason now dbOk =>
    simp only [TaskSystem.step] at h
    split at h
    · exact .inr (.inl ⟨ids, failReason, now, dbOk, rfl, (Option.some.inj h).symm⟩)
    · simp at h
  | poll i batch answer now dbOk => exact .inr (.inr (poll_moves h))
  | finalize i r => exact .inr (.inr (finalize_moves h))
  | moveFunding i ok => exact .inr (.inr (moveFunding_moves h))
  | writeQuota i now dbOk => exact .inr (.inr (writeQuota_moves h))
  | claim i now dbOk => exact .inr (.inr (claim_moves h))
  | restore i now dbOk => exact .inr (.inr (restore_moves h))

/-- **Every step of the system is a step of what each task sees.** -/
theorem step_view (hv : s.view x = some v) (h : TaskSystem.step cfg s a = some t) :
    ∃ v', t.view x = some v' ∧ TaskStep cfg x a v v' := by
  rcases step_cases h with
    ⟨new, rfl, hnew⟩ | ⟨ids, failReason, now, dbOk, rfl, rfl⟩ | ⟨i, k, job, job', ms, hlocal⟩
  · exact start_view hv hnew
  · exact bulkFail_view hv
  · exact hlocal.view hv

theorem step_missing (hnone : s.rows.find x = none) (h : TaskSystem.step cfg s a = some t) :
    t.rows.find x = none := by
  rcases step_cases h with
    ⟨new, rfl, -⟩ | ⟨ids, failReason, now, dbOk, rfl, rfl⟩ | ⟨i, k, job, job', ms, hlocal⟩
  · exact hnone
  · cases dbOk with
    | false => exact hnone
    | true =>
      show (s.rows.taskBulkUpdateByID true now ids failReason).find x = none
      rw [TaskTable.find_taskBulkUpdateByID, hnone, Option.map_none]
  · by_cases hx : x = k
    · subst hx
      exact hlocal.missing hnone
    · rw [hlocal.others x hx, hnone]

theorem forall_on_set {P : TaskJob → Prop} {jobs : List TaskJob}
    (h : ∀ o ∈ jobs, o.On x → P o) (hself : job'.On x → P job') :
    ∀ o ∈ jobs.set i job', o.On x → P o := by
  intro o ho hon
  rcases Pool.mem_set_cases ho with rfl | ⟨k, -, hk⟩
  · exact hself hon
  · exact h o (List.mem_of_getElem? hk) hon

theorem view_eq_some (hv : s.view x = some v) :
    s.rows.find x = some v.row ∧ s.jobs = v.jobs ∧ s.moves x = v.moves := by
  obtain ⟨row, hrow, rfl⟩ := Option.map_eq_some_iff.mp hv
  exact ⟨hrow, rfl, rfl⟩

theorem view_of_find {row : Task} (hrow : s.rows.find x = some row) :
    s.view x = some ⟨row, s.jobs, s.moves x⟩ :=
  Option.map_eq_some_iff.mpr ⟨row, hrow, rfl⟩

theorem held_of_view (hv : s.view x = some v) (hjob : v.jobs[i]? = some job) (hon : job.On x)
    (hheld : job.held = some u) : s.jobs[i]?.bind TaskJob.held = some u ∧ u.id = x := by
  constructor
  · rw [(view_eq_some hv).2.1]
    exact Option.bind_eq_some_iff.mpr ⟨job, hjob, hheld⟩
  · rw [TaskJob.On, TaskJob.task_of_held hheld] at hon
    exact Option.some.inj hon

theorem run_view (Inv : TaskView → Prop)
    (hstep : ∀ s a v v', TaskSystem.view s x = some v → Inv v → cond s a →
      TaskStep cfg x a v v' → Inv v') (hv : s.view x = some v) (hinv : Inv v)
    (hmeets : Machine.Meets (TaskSystem.step cfg) cond s acts)
    (hrun : Machine.run (TaskSystem.step cfg) s acts = some t) :
    ∃ v', t.view x = some v' ∧ Inv v' := by
  refine Machine.run_invariant (fun s => ∃ v, s.view x = some v ∧ Inv v) ?_ acts s t
    ⟨v, hv, hinv⟩ hmeets hrun
  rintro s a t ⟨v, hv, hinv⟩ hcond hnext
  obtain ⟨v', hv', hview⟩ := step_view hv hnext
  exact ⟨v', hv', hstep s a v v' hv hinv hcond hview⟩

theorem reach_view (Inv : TaskView → Prop) {rows : TaskTable}
    (hidle : ∀ v, (TaskSystem.idle rows).view x = some v → Inv v)
    (hstep : ∀ s a v v', TaskSystem.view s x = some v → Inv v → cond s a →
      TaskStep cfg x a v v' → Inv v')
    (hmeets : Machine.Meets (TaskSystem.step cfg) cond (.idle rows) acts)
    (hrun : Machine.run (TaskSystem.step cfg) (.idle rows) acts = some s) (hv : s.view x = some v) :
    Inv v := by
  cases hstart : (TaskSystem.idle rows).view x with
  | none =>
    have hgone := Machine.run_preserves (fun s : TaskSystem => s.rows.find x = none)
      (fun _ _ _ => step_missing) (Option.map_eq_none_iff.mp hstart) hrun
    rw [(view_eq_some hv).1] at hgone
    exact absurd hgone (by simp)
  | some v₀ =>
    obtain ⟨v', hv', hinv⟩ := run_view Inv hstep hstart (hidle v₀ hstart) hmeets hrun
    cases hv.symm.trans hv'
    exact hinv

/-! ### A task for concrete runs -/

def sampleTask : Task where
  id := 1
  taskID := "task_1"
  upstreamTaskID := "upstream_1"
  status := .inProgress
  progress := "30%"
  quota := 10
  failReason := ""
  submitTime := 1800000000
  startTime := 1800000005
  finishTime := 0
  updatedAt := 1800000005
  resultURL := ""
  data := ""
  pluginState := ""
  pollFailures := 0
  billingContext := none

def sampleRows : TaskTable := ⟨[sampleTask], by decide⟩

def samplePollConfig : PollConfig where
  taskPollMaxFailures := 5
  serverAddress := "gateway"

/-- Neither the adaptor nor the tokens of the task say anything about its price. -/
def noAdjustment : CompletionReply where
  usage := none
  adjusted := 0
  hookTokens := none
  tokenRatio := none

end JulongApi

/-
Who may write a system task, and which tasks are failed for an expired lease.

The calls that update and finish a task check the lock in the statement that writes, against the
time their call has read; so a writer holds the task if its statement is not held up beyond the end
of the lease (`InTime`).  For that the lock of a task has to be of the task's own type, which is what
`Typed` carries along.  The sweep is different: it reads a lock, and the statement that fails the
task looks at the task alone.  In between another worker may have taken over the same lock for the
same task, or the old one renewed it (`Unheld`).  That neither happens is exactly what is needed
(`lease_safe_iff`).
-/
import JulongApi.Lib.Pool
import JulongApi.SystemTask

namespace JulongApi

variable {worker : String} {now : Int}

namespace SystemTaskDB

variable {db db' : SystemTaskDB} {taskID type : String} {guard : SystemTask → Bool}
  {f : SystemTask → SystemTask} {lock : SystemTaskLock}

/-! ### The type of a task -/

def TypeOf (db : SystemTaskDB) (taskID type : String) : Prop :=
  ∀ task ∈ db.tasks.rows, task.taskID = taskID → task.type = type

def SameTypes (db db' : SystemTaskDB) : Prop :=
  ∀ task ∈ db'.tasks.rows, ∃ old ∈ db.tasks.rows, old.taskID = task.taskID ∧ old.type = task.type

theorem SameTypes.of_tasks (h : db'.tasks = db.tasks) : SameTypes db db' :=
  fun task htask => ⟨task, h ▸ htask, rfl, rfl⟩

theorem TypeOf.mono (hsame : SameTypes db db') (h : db.TypeOf taskID type) :
    db'.TypeOf taskID type := by
  intro task htask hid
  obtain ⟨old, hold, hid', htype⟩ := hsame task htask
  exact htype ▸ h old hold (hid'.trans hid)

theorem sameTypes_updateTask (hf : ∀ task, (f task).taskID = task.taskID ∧
    (f task).type = task.type) : SameTypes db (db.updateTask taskID guard f).2 := by
  intro task htask
  rcases Table.mem_update htask with hold | ⟨old, hold, -, rfl⟩
  · exact ⟨task, hold, rfl, rfl⟩
  · exact ⟨old, hold, (hf old).1.symm, (hf old).2.symm⟩

def LocksTyped (db : SystemTaskDB) : Prop :=
  ∀ lock ∈ db.locks.rows, db.TypeOf lock.taskID lock.type

theorem locksTyped_updateTask (h : db.LocksTyped) (hf : ∀ task, (f task).taskID = task.taskID ∧
    (f task).type = task.type) : (db.updateTask taskID guard f).2.LocksTyped :=
  fun lock hlock => (h lock hlock).mono (sameTypes_updateTask hf)

theorem locksTyped_createLock (h : db.LocksTyped) (hlock : db.TypeOf lock.taskID lock.type)
    (hcreate : db.createLock lock = some db') : SameTypes db db' ∧ db'.LocksTyped := by
  unfold createLock at hcreate
  obtain ⟨locks, hinsert, rfl⟩ := Option.map_eq_some_iff.mp hcreate
  refine ⟨SameTypes.of_tasks rfl, fun row hrow => ?_⟩
  rcases Table.mem_insert hinsert hrow with rfl | hold
  · exact hlock
  · exact h row hold

theorem locksTyped_takeLock (h : db.LocksTyped) (hlock : db.TypeOf lock.taskID lock.type) :
    SameTypes db (db.takeLock lock).2 ∧ (db.takeLock lock).2.LocksTyped := by
  refine ⟨SameTypes.of_tasks rfl, fun row hrow => ?_⟩
  rcases Table.mem_update hrow with hold | ⟨-, -, -, rfl⟩
  · exact h row hold
  · exact hlock

theorem locksTyped_renewLock (h : db.LocksTyped) (lockedBy : String) (lockUntil now : Int) :
    (db.renewLock taskID lockedBy lockUntil now).LocksTyped := by
  intro row hrow
  obtain ⟨old, hold, rfl⟩ := List.mem_map.mp hrow
  unfold renewed
  split
  · exact h old hold
  · exact h old hold

theorem locksTyped_delete (h : db.LocksTyped) (p : SystemTaskLock → Bool) :
    LocksTyped { db with locks := db.locks.delete p } :=
  fun row hrow => h row (Table.mem_delete.mp hrow).1

/-! ### Leases -/

/-- The statement of a worker on its task: guarded by the lease, and leaving id and type alone. -/
def WorkerWrite (db : SystemTaskDB) (taskID worker : String) (now : Int)
    (result : Bool × SystemTaskDB) : Prop :=
  ∃ f : SystemTask → SystemTask, result = db.updateTask taskID (db.isRunBy worker now) f ∧
    ∀ task, (f task).taskID = task.taskID ∧ (f task).type = task.type

theorem workerWrite_updateState (db : SystemTaskDB) (taskID worker state : String) (now : Int) :
    db.WorkerWrite taskID worker now (db.updateState taskID worker state now) :=
  ⟨_, rfl, fun _ => ⟨rfl, rfl⟩⟩

theorem workerWrite_finishTask (db : SystemTaskDB) (taskID worker : String)
    (status : SystemTaskStatus) (result error : String) (now : Int) :
    db.WorkerWrite taskID worker now (db.finishTask taskID worker status result error now) :=
  ⟨_, rfl, fun _ => ⟨rfl, rfl⟩⟩

theorem holder_eq_some_iff (h : db.LocksTyped) {task : SystemTask} (htask : task ∈ db.tasks.rows) :
    db.holder task now = some worker ↔ db.holdsLease task.taskID worker now = true := by
  unfold holder holdsLease
  rw [List.any_eq_true]
  constructor
  · intro hholder
    obtain ⟨lock, hfind, hlock⟩ := Option.bind_eq_some_iff.mp hholder
    split at hlock
    next hleased =>
      exact ⟨lock, Table.mem_of_find hfind,
        decide_eq_true ⟨hleased.1, Option.some.inj hlock, hleased.2⟩⟩
    · cases hlock
  · rintro ⟨lock, hlock, hleased⟩
    obtain ⟨hid, hworker, huntil⟩ := of_decide_eq_true hleased
    have htype : task.type = lock.type := h lock hlock task htask hid.symm
    rw [htype, Table.find_of_mem hlock, Option.bind_some, if_pos ⟨hid, huntil⟩, hworker]

end SystemTaskDB

open SystemTaskDB

/-- The task that the next statement of a call is to fail. -/
def SystemTaskCall.marks : SystemTaskCall → Option String
  | .claiming _ (.expire expiredTaskID) => some expiredTaskID
  | .marking _ lock _ => some lock.taskID
  | _ => none

/-- The task that the next statement of a call is to write, for whom, and the time it has read. -/
def SystemTaskCall.writes : SystemTaskCall → Option (String × String × Int)
  | .updating taskID lockedBy _ now => some (taskID, lockedBy, now)
  | .finishing taskID lockedBy _ _ _ now => some (taskID, lockedBy, now)
  | _ => none

namespace SystemTaskSystem

variable {s t : SystemTaskSystem} {a : SystemTaskAct} {i : Nat} {call call' : SystemTaskCall}
  {db : SystemTaskDB}

/-! ### What is to be shown -/

def HoldsLease (s : SystemTaskSystem) (type worker : String) : Prop :=
  ∃ lock ∈ s.db.locks.rows, lock.type = type ∧ lock.lockedBy = worker ∧ s.clock ≤ lock.lockedUntil

structure Safe (s : SystemTaskSystem) : Prop where
  /-- There is one worker with a live lease on a type at most. -/
  exclusive : ∀ type w w', s.HoldsLease type w → s.HoldsLease type w' → w = w'
  /-- Whoever updated or finished a task held a live lease on it. -/
  writes : ∀ w ∈ s.writes, w.holder = some w.worker
  /-- A task that was failed for an expired lease was neither pending nor under a live lease. -/
  marks : ∀ m ∈ s.marks, m.status ≠ .pending ∧ m.leased = false

/--
A statement that fails a running task for an expired lease finds no live lease on it: since the
lock was read as stale nobody has taken it over for the same task, and nobody has renewed it.
-/
def Unheld (s : SystemTaskSystem) : SystemTaskAct → Prop
  | .advance i true => ∀ call taskID task, s.calls[i]? = some call → call.marks = some taskID →
      s.db.tasks.find taskID = some task → task.status = .running →
      s.db.leased taskID s.clock = false
  | _ => True

/--
A statement that updates or finishes a task, and finds a lease that was live when its call began,
finds it live still.
-/
def InTime (s : SystemTaskSystem) : SystemTaskAct → Prop
  | .advance i true => ∀ call taskID worker now task, s.calls[i]? = some call →
      call.writes = some (taskID, worker, now) → s.db.tasks.find taskID = some task →
      s.db.isRunBy worker now task = true → s.db.isRunBy worker s.clock task = true
  | _ => True

/-- The two things that may go wrong do not. -/
def Timely (s : SystemTaskSystem) (a : SystemTaskAct) : Prop := s.Unheld a ∧ s.InTime a

theorem exclusive_lease (s : SystemTaskSystem) {type w w' : String} (h : s.HoldsLease type w)
    (h' : s.HoldsLease type w') : w = w' := by
  obtain ⟨lock, hlock, htype, rfl, -⟩ := h
  obtain ⟨lock', hlock', htype', rfl, -⟩ := h'
  have hfind := Table.find_of_mem hlock
  have hfind' := Table.find_of_mem hlock'
  rw [htype] at hfind
  rw [htype', hfind] at hfind'
  rw [Option.some.inj hfind']

/-! ### Locks and claims are of the type of their task -/

def CallTyped (db : SystemTaskDB) : SystemTaskCall → Prop
  | .claiming args stage => stage ≠ .lookup → db.TypeOf args.taskID args.taskType
  | _ => True

theorem CallTyped.mono {db' : SystemTaskDB} (hsame : SameTypes db db') (h : CallTyped db call) :
    CallTyped db' call := by
  cases call with
  | claiming args stage => exact fun hstage => (h hstage).mono hsame
  | _ => trivial

structure Typed (s : SystemTaskSystem) : Prop where
  locks : s.db.LocksTyped
  calls : ∀ call ∈ s.calls, CallTyped s.db call

theorem typed_idle (clock : Int) (tasks : SystemTaskTable) : Typed (idle clock tasks) where
  locks := by
    intro lock hlock
    cases hlock
  calls := by
    intro call hcall
    cases hcall

theorem Typed.start (ok : Typed s) (hcall : CallTyped s.db call) : Typed (s.start call) where
  locks := ok.locks
  calls := by
    intro other hother
    rcases List.mem_append.mp hother with hold | hnew
    · exact ok.calls other hold
    · obtain rfl := List.mem_singleton.mp hnew
      exact hcall

theorem Typed.goOn (ok : Typed s) (hcalls : t.calls = s.calls) (hsame : SameTypes s.db t.db)
    (hlocks : t.db.LocksTyped) (hcall : CallTyped t.db call) : Typed (t.goOn i call) where
  locks := hlocks
  calls := by
    intro other hother
    rcases Pool.mem_set_cases hother with rfl | ⟨k, -, hk⟩
    · exact hcall
    · rw [hcalls] at hk
      exact (ok.calls other (List.mem_of_getElem? hk)).mono hsame

theorem Typed.idleStep (ok : Typed s) (hcall : CallTyped s.db call) : Typed (s.goOn i call) :=
  ok.goOn rfl (SameTypes.of_tasks rfl) ok.locks hcall

/-! ### The statements that write a task -/

variable {taskID : String} {result : Bool × SystemTaskDB} {dbOk : Bool}

theorem write_cases (hresult : s.db.WorkerWrite taskID worker now result) :
    (∃ task, s.db.tasks.find taskID = some task ∧ s.db.isRunBy worker now task = true ∧
      s.write taskID worker result = { s with
        db := result.2
        writes := ⟨taskID, worker, s.db.holder task s.clock⟩ :: s.writes }) ∨
      ((∀ task, s.db.tasks.find taskID = some task → s.db.isRunBy worker now task = false) ∧
        s.write taskID worker result = s) := by
  obtain ⟨f, rfl, -⟩ := hresult
  rcases s.db.tasks.update_cases taskID (s.db.isRunBy worker now) f with
    ⟨task, hfind, hguard, heq⟩ | ⟨hnone, heq⟩
  · refine .inl ⟨task, hfind, hguard, ?_⟩
    simp [write, updateTask, hfind, heq]
  · refine .inr ⟨hnone, ?_⟩
    simp only [write, updateTask, heq]
    split <;> simp

theorem mark_cases (s : SystemTaskSystem) (taskID : String) :
    (∃ task, s.db.tasks.find taskID = some task ∧ task.status = .running ∧
      s.mark taskID = { s with
        db := (s.db.markLeaseExpired taskID s.clock).2
        marks := ⟨taskID, .running, s.db.leased taskID s.clock⟩ :: s.marks }) ∨
      ((∀ task, s.db.tasks.find taskID = some task → task.status ≠ .running) ∧
        s.mark taskID = s) := by
  cases hfind : s.db.tasks.find taskID with
  | none => exact .inr ⟨by simp, by simp [mark, hfind]⟩
  | some task =>
    by_cases hrun : task.status = .running
    · refine .inl ⟨task, rfl, hrun, ?_⟩
      simp [mark, hfind, markLeaseExpired, updateTask, Table.update, hrun]
    · refine .inr ⟨fun other hother => Option.some.inj hother ▸ hrun, ?_⟩
      simp [mark, hfind, markLeaseExpired, updateTask, Table.update, hrun]

theorem write_frame (ok : Typed s) (hresult : s.db.WorkerWrite taskID worker now result) :
    (s.write taskID worker result).calls = s.calls ∧
      SameTypes s.db (s.write taskID worker result).db ∧
      (s.write taskID worker result).db.LocksTyped := by
  rcases write_cases hresult with ⟨task, -, -, heq⟩ | ⟨-, heq⟩
  · obtain ⟨f, rfl, hf⟩ := hresult
    rw [heq]
    exact ⟨rfl, sameTypes_updateTask hf, locksTyped_updateTask ok.locks hf⟩
  · rw [heq]
    exact ⟨rfl, SameTypes.of_tasks rfl, ok.locks⟩

theorem mark_frame (ok : Typed s) (taskID : String) :
    (s.mark taskID).calls = s.calls ∧ SameTypes s.db (s.mark taskID).db ∧
      (s.mark taskID).db.LocksTyped := by
  rcases s.mark_cases taskID with ⟨task, -, -, heq⟩ | ⟨-, heq⟩
  · rw [heq]
    exact ⟨rfl, sameTypes_updateTask fun _ => ⟨rfl, rfl⟩,
      locksTyped_updateTask ok.locks fun _ => ⟨rfl, rfl⟩⟩
  · rw [heq]
    exact ⟨rfl, SameTypes.of_tasks rfl, ok.locks⟩

/-! ### Steps -/

theorem callTyped_sweepNext (db : SystemTaskDB) (now : Int) (locks : List SystemTaskLock) :
    CallTyped db (sweepNext now locks) := by
  cases locks <;> trivial

theorem typed_advanceClaim (ok : Typed s) {args : ClaimArgs} {stage : ClaimStage}
    (hcall : CallTyped s.db (.claiming args stage)) (dbOk : Bool) :
    Typed (s.advanceClaim i dbOk args stage) := by
  cases stage with
  | lookup =>
    simp only [advanceClaim]
    split
    · rename_i task hfind
      by_cases hclaim : isClaimable args.taskType task = true
      · rw [if_pos hclaim]
        have hfind' : s.db.tasks.find args.taskID = some task := by
          cases dbOk <;> simp_all
        -- the id is unique, so the task found is the only one with it
        have htype : s.db.TypeOf args.taskID args.taskType := by
          intro other hother hid
          have hsame := Table.find_of_mem hother
          rw [hid, hfind'] at hsame
          cases hsame
          exact (of_decide_eq_true hclaim).1
        exact ok.idleStep fun _ => htype
      · rw [if_neg hclaim]
        exact ok.idleStep trivial
    · exact ok.idleStep trivial
  | lock =>
    have htype : s.db.TypeOf args.lock.taskID args.lock.type := hcall (by simp)
    simp only [advanceClaim]
    split
    · rename_i db hcreate
      have hcreate' : s.db.createLock args.lock = some db := by
        cases dbOk <;> simp_all
      obtain ⟨hsame, hlocks⟩ := locksTyped_createLock ok.locks htype hcreate'
      exact ok.goOn rfl hsame hlocks fun _ => htype.mono hsame
    · exact ok.idleStep fun _ => htype
  | contend =>
    have htype : s.db.TypeOf args.taskID args.taskType := hcall (by simp)
    simp only [advanceClaim]
    split
    · split
      · exact ok.idleStep trivial
      · exact ok.idleStep fun _ => htype
    · exact ok.idleStep trivial
  | take expiredTaskID =>
    have htype : s.db.TypeOf args.lock.taskID args.lock.type := hcall (by simp)
    obtain ⟨hsame, hlocks⟩ := locksTyped_takeLock ok.locks htype
    simp only [advanceClaim]
    split
    · refine ok.goOn rfl hsame hlocks ?_
      split
      · exact fun _ => htype.mono hsame
      · exact fun _ => htype.mono hsame
    · exact ok.idleStep trivial
  | expire expiredTaskID =>
    have htype : s.db.TypeOf args.taskID args.taskType := hcall (by simp)
    simp only [advanceClaim]
    split
    · obtain ⟨hcalls, hsame, hlocks⟩ := mark_frame ok expiredTaskID
      exact ok.goOn hcalls hsame hlocks fun _ => htype.mono hsame
    · exact ok.idleStep trivial
  | start =>
    simp only [advanceClaim]
    split
    · exact ok.goOn rfl (sameTypes_updateTask fun _ => ⟨rfl, rfl⟩)
        (locksTyped_updateTask ok.locks fun _ => ⟨rfl, rfl⟩) trivial
    · exact ok.idleStep trivial

theorem typed_advance (ok : Typed s) (hcall : CallTyped s.db call)
    (h : s.advance i dbOk call = some t) : Typed t := by
  cases call with
  | claiming args stage =>
    cases h
    exact typed_advanceClaim ok hcall dbOk
  | releasing taskID lockedBy =>
    cases dbOk <;> cases h
    · exact ok.idleStep trivial
    · exact ok.goOn rfl (SameTypes.of_tasks rfl) (locksTyped_delete ok.locks _) trivial
  | updating taskID lockedBy state now =>
    cases dbOk <;> cases h
    · exact ok.idleStep trivial
    · obtain ⟨hcalls, hsame, hlocks⟩ :=
        write_frame ok (workerWrite_updateState s.db taskID lockedBy state now)
      exact ok.goOn hcalls hsame hlocks trivial
  | renewing taskID lockedBy lockUntil now =>
    cases dbOk <;> cases h
    · exact ok.idleStep trivial
    · exact ok.goOn rfl (SameTypes.of_tasks rfl) (locksTyped_renewLock ok.locks _ _ _) trivial
  | finishing taskID lockedBy status result error now =>
    cases dbOk <;> cases h
    · exact ok.idleStep trivial
    · obtain ⟨hcalls, hsame, hlocks⟩ :=
        write_frame ok (workerWrite_finishTask s.db taskID lockedBy status result error now)
      refine ok.goOn hcalls hsame hlocks ?_
      split <;> trivial
  | sweeping now =>
    cases dbOk <;> cases h
    · exact ok.idleStep trivial
    · exact ok.idleStep (callTyped_sweepNext _ now _)
  | marking now lock rest =>
    cases dbOk <;> cases h
    · exact ok.idleStep trivial
    · obtain ⟨hcalls, hsame, hlocks⟩ := mark_frame ok lock.taskID
      exact ok.goOn hcalls hsame hlocks trivial
  | deleting now lock rest =>
    cases dbOk <;> cases h
    · exact ok.idleStep trivial
    · exact ok.goOn rfl (SameTypes.of_tasks rfl) (locksTyped_delete ok.locks _)
        (callTyped_sweepNext _ now rest)
  | done => cases h

theorem typed_step (ok : Typed s) (h : step s a = some t) : Typed t := by
  cases a with
  | tick time =>
    simp only [step] at h
    split at h
    · cases h
      exact ⟨ok.locks, ok.calls⟩
    · cases h
  | claim taskID taskType runnerID lockUntil =>
    cases h
    exact ok.start fun hstage => absurd rfl hstage
  | update taskID lockedBy state =>
    cases h
    exact ok.start trivial
  | renew taskID lockedBy lockUntil =>
    cases h
    exact ok.start trivial
  | finish taskID lockedBy status result error =>
    cases h
    exact ok.start trivial
  | expireStale =>
    cases h
    exact ok.start trivial
  | advance i dbOk =>
    simp only [step] at h
    cases hi : s.calls[i]? with
    | none => simp [hi] at h
    | some call =>
      simp only [hi] at h
      exact typed_advance ok (ok.calls call (List.mem_of_getElem? hi)) h

/-! ### What a step adds to the history -/

theorem unheld_of_call (hi : s.calls[i]? = some call) (hmarks : call.marks = none) :
    Unheld s (.advance i dbOk) := by
  cases dbOk with
  | false => trivial
  | true =>
    intro other taskID task hother hmarks'
    cases hi.symm.trans hother
    simp [hmarks] at hmarks'

theorem inTime_of_call (hi : s.calls[i]? = some call) (hwrites : call.writes = none) :
    InTime s (.advance i dbOk) := by
  cases dbOk with
  | false => trivial
  | true =>
    intro other taskID worker now task hother hwrites'
    cases hi.symm.trans hother
    simp [hwrites] at hwrites'

theorem timely_of_call (hi : s.calls[i]? = some call) (hmarks : call.marks = none)
    (hwrites : call.writes = none) : Timely s (.advance i dbOk) :=
  ⟨unheld_of_call hi hmarks, inTime_of_call hi hwrites⟩

/-- What one step adds: nothing, a write, or a mark. -/
def Adds (s : SystemTaskSystem) (a : SystemTaskAct) (t : SystemTaskSystem) : Prop :=
  (t.writes = s.writes ∧ t.marks = s.marks ∧ Timely s a) ∨
    (∃ w, t.writes = w :: s.writes ∧ t.marks = s.marks ∧
      (Timely s a ↔ w.holder = some w.worker)) ∨
    (∃ m, m.status = .running ∧ t.writes = s.writes ∧ t.marks = m :: s.marks ∧
      (Timely s a ↔ m.leased = false))

theorem adds_write (ok : Typed s) (hresult : s.db.WorkerWrite taskID worker now result)
    (hi : s.calls[i]? = some call) (hmarks : call.marks = none)
    (hwrites : call.writes = some (taskID, worker, now)) :
    Adds s (.advance i true) ((s.write taskID worker result).goOn i call') := by
  rcases write_cases hresult with ⟨task, hfind, hrun, heq⟩ | ⟨hidle, heq⟩
  · refine .inr (.inl ⟨⟨taskID, worker, s.db.holder task s.clock⟩, ?_, ?_, ?_⟩)
    · rw [heq]
      rfl
    · rw [heq]
      rfl
    · rw [holder_eq_some_iff ok.locks (Table.mem_of_find hfind)]
      have hlive : s.db.isRunBy worker s.clock task = true ↔
          s.db.holdsLease task.taskID worker s.clock = true := by
        unfold isRunBy at hrun ⊢
        rw [Bool.and_eq_true] at hrun ⊢
        exact and_iff_right hrun.1
      rw [← hlive]
      constructor
      · intro h
        exact h.2 call taskID worker now task hi hwrites hfind hrun
      · intro h
        refine ⟨unheld_of_call hi hmarks, ?_⟩
        intro other taskID' worker' now' task' hother hwrites' hfind' _
        cases hi.symm.trans hother
        obtain ⟨rfl, rfl, rfl⟩ : taskID = taskID' ∧ worker = worker' ∧ now = now' := by
          simpa using hwrites.symm.trans hwrites'
        cases hfind.symm.trans hfind'
        exact h
  · rw [heq]
    refine .inl ⟨rfl, rfl, unheld_of_call hi hmarks,
      fun other taskID' worker' now' task' hother hwrites' hfind' hrun => ?_⟩
    cases hi.symm.trans hother
    obtain ⟨rfl, rfl, rfl⟩ : taskID = taskID' ∧ worker = worker' ∧ now = now' := by
      simpa using hwrites.symm.trans hwrites'
    rw [hidle task' hfind'] at hrun
    cases hrun

theorem adds_mark (hi : s.calls[i]? = some call) (hmarks : call.marks = some taskID)
    (hwrites : call.writes = none) : Adds s (.advance i true) ((s.mark taskID).goOn i call') := by
  have hintime : InTime s (.advance i true) := inTime_of_call hi hwrites
  rcases s.mark_cases taskID with ⟨task, hfind, hrun, heq⟩ | ⟨hidle, heq⟩
  · refine .inr (.inr ⟨⟨taskID, .running, s.db.leased taskID s.clock⟩, rfl, ?_, ?_, ?_⟩)
    · rw [heq]
      rfl
    · rw [heq]
      rfl
    · constructor
      · intro h
        exact h.1 call taskID task hi hmarks hfind hrun
      · intro h
        refine ⟨fun other taskID' task' hother hmarks' _ _ => ?_, hintime⟩
        cases hi.symm.trans hother
        cases hmarks.symm.trans hmarks'
        exact h
  · rw [heq]
    refine .inl ⟨rfl, rfl, fun other taskID' task' hother hmarks' hfind hrun => ?_, hintime⟩
    cases hi.symm.trans hother
    cases hmarks.symm.trans hmarks'
    exact absurd hrun (hidle task' hfind)

theorem adds_advanceClaim {args : ClaimArgs} {stage : ClaimStage}
    (hi : s.calls[i]? = some (.claiming args stage)) :
    Adds s (.advance i dbOk) (s.advanceClaim i dbOk args stage) := by
  cases stage with
  | lookup =>
    have htimely : Timely s (.advance i dbOk) := timely_of_call hi rfl rfl
    simp only [advanceClaim]
    split <;> exact .inl ⟨rfl, rfl, htimely⟩
  | lock =>
    have htimely : Timely s (.advance i dbOk) := timely_of_call hi rfl rfl
    simp only [advanceClaim]
    split <;> exact .inl ⟨rfl, rfl, htimely⟩
  | contend =>
    have htimely : Timely s (.advance i dbOk) := timely_of_call hi rfl rfl
    simp only [advanceClaim]
    split <;> exact .inl ⟨rfl, rfl, htimely⟩
  | take expiredTaskID =>
    have htimely : Timely s (.advance i dbOk) := timely_of_call hi rfl rfl
    simp only [advanceClaim]
    split <;> exact .inl ⟨rfl, rfl, htimely⟩
  | expire expiredTaskID =>
    cases dbOk with
    | false => exact .inl ⟨rfl, rfl, trivial, trivial⟩
    | true => exact adds_mark hi rfl rfl
  | start =>
    have htimely : Timely s (.advance i dbOk) := timely_of_call hi rfl rfl
    simp only [advanceClaim]
    split <;> exact .inl ⟨rfl, rfl, htimely⟩

theorem adds_advance (ok : Typed s) (hi : s.calls[i]? = some call)
    (h : s.advance i dbOk call = some t) : Adds s (.advance i dbOk) t := by
  cases call with
  | claiming args stage =>
    cases h
    exact adds_advanceClaim hi
  | releasing taskID lockedBy =>
    have htimely : Timely s (.advance i dbOk) := timely_of_call hi rfl rfl
    cases dbOk <;> obtain rfl := Option.some.inj h <;> exact .inl ⟨rfl, rfl, htimely⟩
  | updating taskID lockedBy state now =>
    cases dbOk <;> cases h
    · exact .inl ⟨rfl, rfl, trivial, trivial⟩
    · exact adds_write ok (workerWrite_updateState s.db taskID lockedBy state now) hi rfl rfl
  | renewing taskID lockedBy lockUntil now =>
    have htimely : Timely s (.advance i dbOk) := timely_of_call hi rfl rfl
    cases dbOk <;> obtain rfl := Option.some.inj h <;> exact .inl ⟨rfl, rfl, htimely⟩
  | finishing taskID lockedBy status result error now =>
    cases dbOk <;> cases h
    · exact .inl ⟨rfl, rfl, trivial, trivial⟩
    · exact adds_write ok
        (workerWrite_finishTask s.db taskID lockedBy status result error now) hi rfl rfl
  | sweeping now =>
    have htimely : Timely s (.advance i dbOk) := timely_of_call hi rfl rfl
    cases dbOk <;> obtain rfl := Option.some.inj h <;> exact .inl ⟨rfl, rfl, htimely⟩
  | marking now lock rest =>
    cases dbOk <;> cases h
    · exact .inl ⟨rfl, rfl, trivial, trivial⟩
    · exact adds_mark hi rfl rfl
  | deleting now lock rest =>
    have htimely : Timely s (.advance i dbOk) := timely_of_call hi rfl rfl
    cases dbOk <;> obtain rfl := Option.some.inj h <;> exact .inl ⟨rfl, rfl, htimely⟩
  | done => cases h

theorem adds_step (ok : Typed s) (h : step s a = some t) : Adds s a t := by
  cases a with
  | tick time =>
    simp only [step] at h
    split at h
    · cases h
      exact .inl ⟨rfl, rfl, trivial, trivial⟩
    · cases h
  | advance i dbOk =>
    simp only [step] at h
    cases hi : s.calls[i]? with
    | none => simp [hi] at h
    | some call =>
      simp only [hi] at h
      exact adds_advance ok hi h
  | _ =>
    cases h
    exact .inl ⟨rfl, rfl, trivial, trivial⟩

theorem safe_step_iff (ok : Typed s) (hsafe : Safe s) (h : step s a = some t) :
    Safe t ↔ Timely s a := by
  have hexclusive : ∀ type w w', t.HoldsLease type w → t.HoldsLease type w' → w = w' :=
    fun _ _ _ => exclusive_lease t
  rcases adds_step ok h with ⟨hwrites, hmarks, htimely⟩ | ⟨w, hwrites, hmarks, hiff⟩ |
    ⟨m, hm, hwrites, hmarks, hiff⟩
  · refine iff_of_true ⟨hexclusive, ?_, ?_⟩ htimely
    · exact hwrites ▸ hsafe.writes
    · exact hmarks ▸ hsafe.marks
  · rw [hiff]
    constructor
    · intro hsafe'
      exact hsafe'.writes w (by rw [hwrites]; simp)
    · intro hholder
      refine ⟨hexclusive, ?_, hmarks ▸ hsafe.marks⟩
      rw [hwrites]
      exact List.forall_mem_cons.mpr ⟨hholder, hsafe.writes⟩
  · rw [hiff]
    constructor
    · intro hsafe'
      exact (hsafe'.marks m (by rw [hmarks]; simp)).2
    · intro hfree
      refine ⟨hexclusive, hwrites ▸ hsafe.writes, ?_⟩
      rw [hmarks]
      exact List.forall_mem_cons.mpr ⟨⟨by simp [hm], hfree⟩, hsafe.marks⟩

theorem timely_of_stuck (h : step s a = none) : Timely s a := by
  cases a with
  | advance i dbOk =>
    cases hi : s.calls[i]? with
    | none => cases dbOk <;> simp [Timely, Unheld, InTime, hi]
    | some call =>
      simp only [step, hi] at h
      obtain rfl : call = .done := by
        cases call <;> cases dbOk <;> simp [advance] at h ⊢
      exact timely_of_call hi rfl rfl
  | _ => exact ⟨trivial, trivial⟩

/--
**In every run there is one holder of a live lease for a type at most, only the holder of a task
updates or finishes it, and no task that is pending or under a live lease is failed for an
expired one, exactly as long as no statement that fails a task finds a live lease on it, and none
that updates or finishes it is held up beyond the end of the lease.**
-/
theorem lease_safe_iff (clock : Int) (tasks : SystemTaskTable) (acts : List SystemTaskAct) :
    Machine.Meets step Timely (idle clock tasks) acts ↔
      ∀ pre, pre <+: acts → ∀ s, Machine.run step (idle clock tasks) pre = some s → Safe s := by
  have hsafe : Safe (idle clock tasks) := by
    refine ⟨fun _ _ _ => exclusive_lease _, ?_, ?_⟩
    · intro w hw
      cases hw
    · intro m hm
      cases hm
  exact Machine.meets_iff_always_of Typed Safe (P := fun _ => True)
    (fun s a t ok _ h => typed_step ok h) (fun s a t ok hs _ h => safe_step_iff ok hs h)
    (fun s a h => timely_of_stuck h) acts (idle clock tasks) (typed_idle clock tasks) hsafe
    fun _ _ => trivial

def waitingTask : SystemTask where
  taskID := "systask_x"
  type := "log_cleanup"
  status := .pending
  activeKey := some "log_cleanup"
  state := ""
  result := ""
  error := ""
  lockedBy := ""
  updatedAt := 0

/--
Worker `a` takes the lock and is held up before it starts the task.  After a minute a sweep reads
the stale lock, and before it goes on worker `b` takes the lock over and starts the task.
-/
def overtakenSweep : List SystemTaskAct :=
  [.claim "systask_x" "log_cleanup" "a" 60, .advance 0 true, .advance 0 true, .tick 61,
    .expireStale, .advance 1 true,
    .claim "systask_x" "log_cleanup" "b" 121, .advance 2 true, .advance 2 true, .advance 2 true,
    .advance 2 true, .advance 2 true,
    .advance 1 true]

/-- Worker `a` runs the task under a lease of a minute, and its last statement is held up. -/
def lateFinish : List SystemTaskAct :=
  [.claim "systask_x" "log_cleanup" "a" 60, .advance 0 true, .advance 0 true, .advance 0 true,
    .finish "systask_x" "a" .succeeded "" "", .tick 1000, .advance 1 true]

theorem leased_task_expired :
    (∃ s, Machine.run step (idle 0 ⟨[waitingTask], by simp⟩) overtakenSweep = some s ∧
      s.HoldsLease "log_cleanup" "b" ∧
      s.db.tasks.rows.map (fun task => (task.status, task.lockedBy, task.error)) =
        [(.failed, "b", "task lease expired")] ∧
      s.marks = [⟨"systask_x", .running, true⟩] ∧ ¬Safe s) ∧
    ∃ s, Machine.run step (idle 0 ⟨[waitingTask], by simp⟩) lateFinish = some s ∧
      s.writes = [⟨"systask_x", "a", none⟩] ∧ ¬Safe s := by
  refine ⟨⟨_, rfl, ?_, rfl, rfl, fun hsafe => ?_⟩, _, rfl, rfl, fun hsafe => ?_⟩
  · exact ⟨_, .head _, rfl, rfl, by decide⟩
  · have hmark := hsafe.marks ⟨"systask_x", .running, true⟩ (.head _)
    simp at hmark
  · have hwrite := hsafe.writes ⟨"systask_x", "a", none⟩ (.head _)
    cases hwrite

end SystemTaskSystem

end JulongApi

/-
What a settlement has charged for a failed task, and when it stays charged.

A finalizer may settle the billing of a failed task instead of refunding it: the quota of
the row is then the price of what the upstream has done.  Nothing in the row tells such a
quota from one that waits for its refund, and the sweep over unrefunded failed tasks
takes both.  Only a task the sweep does not look at keeps its charge: one that was
submitted before the refund cutoff.

The proof is in two parts.  Up to the settlement, no sweep is at work on such a task and
no finalizer but the one that settles.  From there on only the settlement itself moves
money for the task.
-/
import JulongApi.Proofs.TaskSystem

namespace JulongApi

open Machine

variable {cfg : PollConfig} {s t : TaskSystem} {a : TaskAct} {i x : Nat} {v v' : TaskView}
  {row row' : Task} {job job' : TaskJob} {ms : List Int}

/-- No copy of task `x` is handled again after it has reached its end. -/
def HandlesOnce (x : Nat) (s : TaskSystem) : TaskAct → Prop
  | .poll i _ _ _ _ =>
    ∀ u, s.jobs[i]?.bind TaskJob.held = some u → u.id = x → u.status.terminal = false
  | _ => True

variable {u : Task} {polled : Bool} {moves : List Int} {actualQuota : Int}

theorem HandlesOnce.of_held {batch : Bool} {answer : PollAnswer} {now : Int} {dbOk : Bool}
    (hv : s.view x = some v) (h : HandlesOnce x s (.poll i batch answer now dbOk))
    (hjob : v.jobs[i]? = some job) (hon : job.On x) (hheld : job.held = some u) :
    u.status.terminal = false := by
  obtain ⟨hcopy, hid⟩ := held_of_view hv hjob hon hheld
  exact h u hcopy hid

theorem Task.isLegacy_congr {t : Task} (h : t.submitTime = u.submitTime) :
    t.isLegacy = u.isLegacy := by
  unfold Task.isLegacy
  rw [h]

/-! ### Before the settlement -/

/-- What a job has in common with the row it works on. -/
def JobAgrees (row : Task) : TaskJob → Prop
  | .loaded _ => True
  | .timedOut t => t.status.terminal = false
  | .finalizing t _ => row.status.terminal = true ∧ t.submitTime = row.submitTime
  | .settling t _ => row.status.terminal = true ∧ t.submitTime = row.submitTime
  | .refunding _ t => row.status.terminal = true ∧ t.submitTime = row.submitTime
  | .writing _ t => row.status.terminal = true ∧ t.submitTime = row.submitTime
  | .unwritten _ t => row.status.terminal = true ∧ t.submitTime = row.submitTime
  | .unrefunded _ => row.status.terminal = true ∧ row.isLegacy = false
  | .claimed _ => row.status.terminal = true ∧ row.isLegacy = false
  | .clearing _ => row.status.terminal = true ∧ row.isLegacy = false
  | .restoring _ => row.status.terminal = true ∧ row.isLegacy = false
  | .done => True

/-- A row that has ended stays ended, and keeps the time it was submitted. -/
def EndKept (row row' : Task) : Prop :=
  row.status.terminal = true →
    row'.status.terminal = true ∧ row'.submitTime = row.submitTime

theorem JobAgrees.of_endKept (h : JobAgrees row job) (hkept : EndKept row row') :
    JobAgrees row' job := by
  have hfinalizer : ∀ u : Task, row.status.terminal = true ∧ u.submitTime = row.submitTime →
      row'.status.terminal = true ∧ u.submitTime = row'.submitTime := by
    rintro u ⟨hend, hsubmit⟩
    exact ⟨(hkept hend).1, hsubmit.trans (hkept hend).2.symm⟩
  have hsweep : row.status.terminal = true ∧ row.isLegacy = false →
      row'.status.terminal = true ∧ row'.isLegacy = false := by
    rintro ⟨hend, hlegacy⟩
    exact ⟨(hkept hend).1, (Task.isLegacy_congr (hkept hend).2).trans hlegacy⟩
  cases job with
  | loaded u => trivial
  | done => trivial
  | timedOut u => exact h
  | finalizing u info => exact hfinalizer u h
  | settling u actualQuota => exact hfinalizer u h
  | refunding polled u => exact hfinalizer u h
  | writing polled u => exact hfinalizer u h
  | unwritten polled u => exact hfinalizer u h
  | _ => exact hsweep h

theorem JobAgrees.terminal (h : JobAgrees row job) (hfin : job.finalizer = true) :
    row.status.terminal = true := by
  cases job <;> simp [TaskJob.finalizer] at hfin <;> exact h.1

theorem JobAgrees.release : JobAgrees row (.release polled u) := by
  cases polled <;> trivial

theorem endKept_of_open (hstatus : row.status = u.status) (hopen : u.status.terminal = false) :
    EndKept row row' := by
  intro hend
  rw [hstatus, hopen] at hend
  exact absurd hend (by simp)

theorem endKept_of_same (hstatus : row'.status = row.status)
    (hsubmit : row'.submitTime = row.submitTime) : EndKept row row' :=
  fun hend => ⟨hstatus ▸ hend, hsubmit⟩

theorem JobStep.agrees (hv : s.view x = some v) (hcond : HandlesOnce x s a)
    (hjob : v.jobs[i]? = some job) (hon : job.On x) (hag : JobAgrees v.row job)
    (hstep : JobStep cfg i v.row a job job' row' ms) :
    EndKept v.row row' ∧ JobAgrees row' job' ∧
      (job'.finalizer = true → job.finalizer = true ∨ v.row.status.terminal = false) := by
  cases hstep with
  | @timeOutRefund u now hstatus _ =>
    refine ⟨endKept_of_open hstatus hag, ⟨?_, rfl⟩, fun _ => .inr (hstatus ▸ hag)⟩
    show (u.timedOut now).status.terminal = true
    rw [Task.timedOut_status, TaskStatus.terminal]
  | timeOutDone hstatus =>
    exact ⟨endKept_of_open hstatus hag, trivial, by simp [TaskJob.finalizer]⟩
  | pollWon hheld hstatus =>
    have hopen := hcond.of_held hv hjob hon hheld
    exact ⟨endKept_of_open hstatus hopen, trivial, by simp [TaskJob.finalizer]⟩
  | @pollFinished _ u batch answer now hheld hstatus hfin =>
    have hopen := hcond.of_held hv hjob hon hheld
    have hend := (u.handlePoll_follows cfg now batch answer).terminal hfin
    exact ⟨endKept_of_open hstatus hopen, ⟨hend, rfl⟩, fun _ => .inr (hstatus ▸ hopen)⟩
  | pollAgain hheld hend _ =>
    have hopen := hcond.of_held hv hjob hon hheld
    rw [hend] at hopen
    exact absurd hopen (by simp)
  | pollKept _ =>
    exact ⟨endKept_of_same rfl rfl, trivial, by simp [TaskJob.finalizer]⟩
  | refundFailed => exact ⟨endKept_of_same rfl rfl, .release, fun _ => .inl rfl⟩
  | written => exact ⟨endKept_of_same rfl rfl, .release, fun _ => .inl rfl⟩
  | timeOutLost => exact ⟨endKept_of_same rfl rfl, trivial, by simp [TaskJob.finalizer]⟩
  | finalizeKept => exact ⟨endKept_of_same rfl rfl, trivial, fun _ => .inl rfl⟩
  | settleFailed => exact ⟨endKept_of_same rfl rfl, trivial, fun _ => .inl rfl⟩
  | finalizeSettle _ => exact ⟨endKept_of_same rfl rfl, hag, fun _ => .inl rfl⟩
  | finalizeRefund => exact ⟨endKept_of_same rfl rfl, hag, fun _ => .inl rfl⟩
  | settled => exact ⟨endKept_of_same rfl rfl, hag, fun _ => .inl rfl⟩
  | refunded => exact ⟨endKept_of_same rfl rfl, hag, fun _ => .inl rfl⟩
  | unwritten => exact ⟨endKept_of_same rfl rfl, hag, fun _ => .inl rfl⟩
  | sweepRefunded => exact ⟨endKept_of_same rfl rfl, hag, by simp [TaskJob.finalizer]⟩
  | sweepFailed => exact ⟨endKept_of_same rfl rfl, hag, by simp [TaskJob.finalizer]⟩
  | claimed _ _ => exact ⟨endKept_of_same rfl rfl, hag, by simp [TaskJob.finalizer]⟩
  | _ => exact ⟨endKept_of_same rfl rfl, trivial, by simp [TaskJob.finalizer]⟩

def TaskJob.Finalizes (x : Nat) (job : TaskJob) : Prop := job.On x ∧ job.finalizer = true

/-- The jobs on a task agree with its row, and at most one of them is a finalizer. -/
structure Agreed (x : Nat) (v : TaskView) : Prop where
  jobs : ∀ job ∈ v.jobs, job.On x → JobAgrees v.row job
  one : Pool.AtMostOne (TaskJob.Finalizes x) v.jobs

theorem Agreed.none_of_open (h : Agreed x v) (hopen : v.row.status.terminal = false) :
    ∀ job ∈ v.jobs, ¬job.Finalizes x := by
  rintro job hjob ⟨hon, hfin⟩
  have hend := (h.jobs job hjob hon).terminal hfin
  rw [hopen] at hend
  exact absurd hend (by simp)

theorem TaskStep.agreed (h : Agreed x v) (hv : s.view x = some v) (hcond : HandlesOnce x s a)
    (hstep : TaskStep cfg x a v v') : Agreed x v' := by
  cases hstep with
  | elsewhere hjob hon hon' =>
    exact ⟨forall_on_set h.jobs fun hc => absurd hc hon',
      h.one.set hjob fun hc => absurd hc.1 hon'⟩
  | load hfresh =>
    refine ⟨?_, h.one.append ?_⟩
    · intro o ho hon
      rcases List.mem_append.mp ho with hold | hnew
      · exact h.jobs o hold hon
      · cases hfresh o hnew hon with
        | loaded _ => trivial
        | timedOut hopen => exact hopen
        | unrefunded hstatus _ hlegacy =>
          refine ⟨?_, hlegacy⟩
          rw [hstatus, TaskStatus.terminal]
    · rintro o ho ⟨hon, hfin⟩
      cases hfresh o ho hon with
      | _ => simp [TaskJob.finalizer] at hfin
  | bulkFail _ =>
    refine ⟨?_, h.one⟩
    intro o ho hon
    exact (h.jobs o ho hon).of_endKept fun _ => ⟨rfl, rfl⟩
  | bulkElsewhere => exact h
  | @job _ _ _ _ _ row' _ hjob hon _ hstep =>
    have hag := h.jobs _ (List.mem_of_getElem? hjob) hon
    obtain ⟨hkept, hself, hnew⟩ := hstep.agrees hv hcond hjob hon hag
    have hothers : ∀ o ∈ v.jobs, o.On x → JobAgrees row' o := by
      intro o ho hono
      exact (h.jobs o ho hono).of_endKept hkept
    refine ⟨forall_on_set hothers fun _ => hself, h.one.set hjob ?_⟩
    rintro ⟨-, hfin⟩
    rcases hnew hfin with hold | hopen
    · exact .inl ⟨hon, hold⟩
    · exact .inr (h.none_of_open hopen)

theorem agreed_idle {rows : TaskTable} (hv : (TaskSystem.idle rows).view x = some v) :
    Agreed x v := by
  have hjobs : v.jobs = [] := (view_eq_some hv).2.1.symm
  refine ⟨?_, ?_⟩
  · intro job hjob
    simp [hjobs] at hjob
  · intro i k a b hi
    simp [hjobs] at hi

/-! ### After the settlement -/

/-- A job that will move no money but the difference `delta`, on top of `base`. -/
def JobSettled (base : List Int) (delta : Int) (moves : List Int) : TaskJob → Prop
  | .loaded _ => True
  | .timedOut t => t.status.terminal = false
  | .settling t actualQuota => actualQuota - t.quota = delta ∧ moves = base
  | .writing _ _ => True
  | .unwritten _ _ => True
  | .done => True
  | _ => False

def TaskJob.Settles (x : Nat) (job : TaskJob) : Prop :=
  job.On x ∧ ∃ t actualQuota, job = .settling t actualQuota

/-- The task is settled, or one job is still to move the difference. -/
structure Settled (x : Nat) (base : List Int) (delta : Int) (v : TaskView) : Prop where
  ended : v.row.status.terminal = true
  legacy : v.row.isLegacy = true
  jobs : ∀ job ∈ v.jobs, job.On x → JobSettled base delta v.moves job
  one : Pool.AtMostOne (TaskJob.Settles x) v.jobs
  moves : v.moves = base ∨ v.moves = delta :: base

variable {base : List Int} {delta : Int}

theorem JobSettled.of_not_settles {moves' : List Int} (h : JobSettled base delta moves job)
    (hon : job.On x) (hnot : ¬job.Settles x) : JobSettled base delta moves' job := by
  cases job with
  | settling u actualQuota => exact absurd ⟨hon, u, actualQuota, rfl⟩ hnot
  | _ => exact h

theorem Settled.keep (h : Settled x base delta v) (hjob : v.jobs[i]? = some job)
    (hend : row'.status.terminal = true) (hsubmit : row'.submitTime = v.row.submitTime)
    (hself : JobSettled base delta v.moves job') (hnot : ¬job'.Settles x) :
    Settled x base delta ⟨row', v.jobs.set i job', [] ++ v.moves⟩ where
  ended := hend
  legacy := (Task.isLegacy_congr hsubmit).trans h.legacy
  jobs := forall_on_set h.jobs fun _ => hself
  one := h.one.set hjob fun hc => absurd hc hnot
  moves := h.moves

theorem Settled.move (h : Settled x base delta v)
    (hjob : v.jobs[i]? = some (.settling u actualQuota))
    (hon : (TaskJob.settling u actualQuota).On x) :
    Settled x base delta ⟨v.row, v.jobs.set i (.writing true { u with quota := actualQuota }),
      [actualQuota - u.quota] ++ v.moves⟩ where
  ended := h.ended
  legacy := h.legacy
  jobs := by
    have hself : (TaskJob.settling u actualQuota).Settles x := ⟨hon, u, actualQuota, rfl⟩
    intro o ho hono
    rcases Pool.mem_set_cases ho with rfl | ⟨k, hne, hk⟩
    · trivial
    · exact (h.jobs o (List.mem_of_getElem? hk) hono).of_not_settles hono
        (h.one.not_of_ne hjob hself hne hk)
  one := by
    refine h.one.set hjob ?_
    rintro ⟨-, w, q, hc⟩
    simp at hc
  moves := by
    obtain ⟨hdelta, hbase⟩ := h.jobs _ (List.mem_of_getElem? hjob) hon
    exact .inr (by rw [hdelta, hbase]; rfl)

theorem not_settles_release : ¬(TaskJob.release polled u).Settles x := by
  rintro ⟨-, w, q, hc⟩
  cases polled <;> simp [TaskJob.release] at hc

theorem JobSettled.release : JobSettled base delta moves (.release polled u) := by
  cases polled <;> trivial

theorem JobStep.settled_kept (h : Settled x base delta v) (hv : s.view x = some v)
    (hcond : HandlesOnce x s a) (hjob : v.jobs[i]? = some job) (hon : job.On x)
    (hstep : JobStep cfg i v.row a job job' row' ms) :
    Settled x base delta ⟨row', v.jobs.set i job', ms ++ v.moves⟩ := by
  have hself := h.jobs _ (List.mem_of_getElem? hjob) hon
  -- an update under the status of a copy that is not at its end finds the row ended
  have hlost : ∀ u : Task, v.row.status = u.status → u.status.terminal = false → False := by
    intro u hstatus hopen
    rw [← hstatus, h.ended] at hopen
    exact absurd hopen (by simp)
  cases hstep with
  | timeOutRefund hstatus _ => exact (hlost _ hstatus hself).elim
  | timeOutDone hstatus => exact (hlost _ hstatus hself).elim
  | pollWon hheld hstatus =>
    exact (hlost _ hstatus (hcond.of_held hv hjob hon hheld)).elim
  | pollFinished hheld hstatus _ =>
    exact (hlost _ hstatus (hcond.of_held hv hjob hon hheld)).elim
  | pollAgain hheld hend _ =>
    have hopen := hcond.of_held hv hjob hon hheld
    rw [hend] at hopen
    exact absurd hopen (by simp)
  | timeOutLost => exact h.keep hjob h.ended rfl trivial (by simp [TaskJob.Settles])
  | pollKept _ => exact h.keep hjob h.ended rfl trivial (by simp [TaskJob.Settles])
  | settled => exact h.move hjob hon
  | settleFailed => exact h.keep hjob h.ended rfl trivial (by simp [TaskJob.Settles])
  | written => exact h.keep hjob h.ended rfl .release not_settles_release
  | unwritten => exact h.keep hjob h.ended rfl trivial (by simp [TaskJob.Settles])
  | _ => exact hself.elim

theorem TaskStep.settled_kept (h : Settled x base delta v) (hv : s.view x = some v)
    (hcond : HandlesOnce x s a) (hstep : TaskStep cfg x a v v') : Settled x base delta v' := by
  cases hstep with
  | elsewhere hjob hon hon' =>
    exact ⟨h.ended, h.legacy, forall_on_set h.jobs fun hc => absurd hc hon',
      h.one.set hjob fun hc => absurd hc.1 hon', h.moves⟩
  | @load _ _ new hfresh =>
    -- every query passes over a task of the old system that has ended
    have hnone : ∀ o ∈ new, ¬o.On x := by
      intro o ho hon
      cases hfresh o ho hon with
      | loaded hopen => exact absurd (h.ended.symm.trans hopen) (by simp)
      | timedOut hopen => exact absurd (h.ended.symm.trans hopen) (by simp)
      | unrefunded _ _ hlegacy => exact absurd (h.legacy.symm.trans hlegacy) (by simp)
    refine ⟨h.ended, h.legacy, ?_, h.one.append fun o ho hc => hnone o ho hc.1, h.moves⟩
    intro o ho hon
    rcases List.mem_append.mp ho with hold | hnew
    · exact h.jobs o hold hon
    · exact absurd hon (hnone o hnew)
  | bulkFail _ => exact ⟨rfl, h.legacy, h.jobs, h.one, h.moves⟩
  | bulkElsewhere => exact h
  | job hjob hon _ hstep => exact hstep.settled_kept h hv hcond hjob hon

/-! ### Whole runs -/

theorem finalizeTerminalTask_settled {r : CompletionReply} {info : TaskInfo}
    (h : settleTaskBillingOnComplete r u info = (true, some actualQuota)) :
    finalizeTerminalTask r u info = .loaded u ∨
      finalizeTerminalTask r u info = .settling u actualQuota := by
  unfold finalizeTerminalTask
  rw [h]
  dsimp only
  split
  · exact .inl rfl
  · exact .inr rfl

theorem JobAgrees.settled (h : JobAgrees row job) (hfin : job.finalizer = false)
    (hlegacy : row.isLegacy = true) : JobSettled base delta moves job := by
  cases job with
  | loaded u => trivial
  | timedOut u => exact h
  | done => trivial
  | unrefunded u => exact absurd (hlegacy.symm.trans h.2) (by simp)
  | claimed u => exact absurd (hlegacy.symm.trans h.2) (by simp)
  | clearing u => exact absurd (hlegacy.symm.trans h.2) (by simp)
  | restoring u => exact absurd (hlegacy.symm.trans h.2) (by simp)
  | _ => simp [TaskJob.finalizer] at hfin

theorem Agreed.settled {info : TaskInfo} (h : Agreed x v)
    (hjob : v.jobs[i]? = some (.finalizing u info)) (hid : u.id = x) (hlegacy : u.isLegacy = true)
    (hjob' : job' = .loaded u ∨ job' = .settling u actualQuota) :
    Settled x v.moves (actualQuota - u.quota) { v with jobs := v.jobs.set i job' } := by
  have hon : (TaskJob.finalizing u info).On x := congrArg some hid
  obtain ⟨hend, hsubmit⟩ := h.jobs _ (List.mem_of_getElem? hjob) hon
  have hrow : v.row.isLegacy = true := (Task.isLegacy_congr hsubmit).symm.trans hlegacy
  have hothers : ∀ (k : Nat) (o : TaskJob), k ≠ i → v.jobs[k]? = some o → o.On x →
      o.finalizer = false := by
    intro k o hne hk hono
    by_contra hc
    rw [Bool.not_eq_false] at hc
    exact h.one.not_of_ne hjob ⟨hon, rfl⟩ hne hk ⟨hono, hc⟩
  refine ⟨hend, hrow, ?_, ?_, .inl rfl⟩
  · intro o ho hono
    rcases Pool.mem_set_cases ho with rfl | ⟨k, hne, hk⟩
    · rcases hjob' with rfl | rfl
      · trivial
      · exact ⟨rfl, rfl⟩
    · exact (h.jobs o (List.mem_of_getElem? hk) hono).settled (hothers k o hne hk hono) hrow
  · have hnone : Pool.AtMostOne (TaskJob.Settles x) v.jobs := by
      intro j k o p hj hk ho hp
      refine h.one j k o p hj hk ⟨ho.1, ?_⟩ ⟨hp.1, ?_⟩
      · obtain ⟨-, w, q, rfl⟩ := ho
        rfl
      · obtain ⟨-, w, q, rfl⟩ := hp
        rfl
    refine hnone.set hjob fun _ => .inr ?_
    rintro o ho ⟨hono, w, q, rfl⟩
    obtain ⟨k, hk⟩ := List.mem_iff_getElem?.mp ho
    by_cases hki : k = i
    · subst hki
      rw [hjob] at hk
      simp at hk
    · exact absurd (hothers k _ hki hk hono) (by simp [TaskJob.finalizer])

/--
**A settled charge stays.**  When the billing of a failed task has been taken over by the
settlement, and the task is one of the old system, the only money that is ever moved for
it afterwards is the difference the settlement itself asks for.
-/
theorem settled_charge_kept {rows : TaskTable} {before after : List TaskAct} {s' : TaskSystem}
    {u : Task} {info : TaskInfo} {r : CompletionReply} {actualQuota : Int}
    (honce : Meets (TaskSystem.step cfg) (HandlesOnce x) (.idle rows) before)
    (hreach : run (TaskSystem.step cfg) (.idle rows) before = some s)
    (hrow : s.rows.find x = some row)
    (hjob : s.jobs[i]? = some (.finalizing u info)) (hid : u.id = x)
    (hsettled : settleTaskBillingOnComplete r u info = (true, some actualQuota))
    (hlegacy : u.isLegacy = true)
    (hnext : TaskSystem.step cfg s (.finalize i r) = some s')
    (honce' : Meets (TaskSystem.step cfg) (HandlesOnce x) s' after)
    (hrun : run (TaskSystem.step cfg) s' after = some t) :
    t.moves x = s.moves x ∨ t.moves x = (actualQuota - u.quota) :: s.moves x := by
  have hv := view_of_find hrow
  have hagreed : Agreed x ⟨row, s.jobs, s.moves x⟩ :=
    reach_view (Agreed x) (fun _ => agreed_idle)
      (fun _ _ _ _ hv hag hcond hstep => hstep.agreed hag hv hcond) honce hreach hv
  have hgoOn : s' = s.goOn i (finalizeTerminalTask r u info) := by
    simp only [TaskSystem.step, hjob] at hnext
    exact (Option.some.inj hnext).symm
  subst hgoOn
  have hstart := hagreed.settled hjob hid hlegacy (finalizeTerminalTask_settled hsettled)
  obtain ⟨v', hv', hkept⟩ := run_view (Settled x (s.moves x) (actualQuota - u.quota))
    (fun _ _ _ _ hv hset hcond hstep => hstep.settled_kept hset hv hcond)
    (view_of_find (s := s.goOn i (finalizeTerminalTask r u info)) hrow) hstart honce' hrun
  rw [(view_eq_some hv').2.2]
  exact hkept.moves

/-- The reply of an adaptor that knows what the failed task has cost. -/
def adjustedReply : CompletionReply := { noAdjustment with adjusted := 5 }

def legacyTask : Task := { sampleTask with submitTime := 1700000000 }

def legacyRows : TaskTable := ⟨[legacyTask], by decide⟩

theorem legacy_settlement_kept :
    ∃ s s' t, run (TaskSystem.step samplePollConfig) (.idle legacyRows)
        [.loadUnfinished 10, .poll 0 false .notFound 1800000060 true] = some s ∧
      TaskSystem.step samplePollConfig s (.finalize 0 adjustedReply) = some s' ∧
      run (TaskSystem.step samplePollConfig) s' [.moveFunding 0 true,
        .writeQuota 0 1800000061 true, .loadUnrefunded 1800000120] = some t ∧
      (t.moves 1 = [10] ∨ t.moves 1 = [-5, 10]) := by
  have hpoll : ∀ s, s.jobs[0]? = some (.loaded legacyTask) →
      HandlesOnce 1 s (.poll 0 false .notFound 1800000060 true) := by
    intro s hjob u hu _
    rw [hjob] at hu
    obtain rfl : legacyTask = u := Option.some.inj hu
    rfl
  have honce : Meets (TaskSystem.step samplePollConfig) (HandlesOnce 1) (.idle legacyRows)
      [.loadUnfinished 10, .poll 0 false .notFound 1800000060 true] := by
    refine ⟨trivial, fun s₁ h₁ => ⟨hpoll s₁ ?_, fun _ _ => trivial⟩⟩
    cases h₁
    rfl
  exact ⟨_, _, _, rfl, rfl, rfl,
    @settled_charge_kept samplePollConfig _ _ 0 1 _ legacyRows _ [.moveFunding 0 true,
      .writeQuota 0 1800000061 true, .loadUnrefunded 1800000120] _ _ _ adjustedReply 5
      honce rfl rfl rfl rfl rfl rfl rfl
      ⟨trivial, fun _ _ => ⟨trivial, fun _ _ => ⟨trivial, fun _ _ => trivial⟩⟩⟩ rfl⟩

def tokenReply : CompletionReply := { noAdjustment with tokenRatio := some (1 / 2) }

/-- The upstream has failed, and reports what it has used until then. -/
def failedWithUsage : TaskInfo := { failTaskInfo "upstream failed" with totalTokens := 10 }

/-- A failed task is settled by its tokens from 10 to 5; the next sweep gives the 5 back. -/
theorem settled_charge_swept :
    settleTaskBillingOnComplete tokenReply
        (sampleTask.handlePoll samplePollConfig 1800000060 false
          (.parsed false "failed" failedWithUsage)).task failedWithUsage = (true, some 5) ∧
      (run (TaskSystem.step samplePollConfig) (.idle sampleRows)
        [.loadUnfinished 10, .poll 0 false (.parsed false "failed" failedWithUsage) 1800000060 true,
          .finalize 0 tokenReply, .moveFunding 0 true, .writeQuota 0 1800000061 true,
          .loadUnrefunded 1800000120, .claim 1 1800000120 true, .moveFunding 1 true]).map
        (fun s => s.moves 1) = some [-5, -5, 10] := by
  decide +kernel

end JulongApi

/-
No task is given back more than it was charged, if a quota is in one hand at a time.

A finalizer gives the money back first and writes the row afterwards; the sweep over
unrefunded failed tasks clears the row first and gives the money back afterwards.  Each
is safe by itself.  Together they are not: between a finalizer's refund and its write, or
after a write that failed, the row still shows the quota, and the sweep takes it once
more.  `RefundsOnce` is the condition that a claim of the sweep finds no finalizer at
work on its task, and that a copy that is handled again is not ahead of its row.

The invariant says who may hold how much of the money that is still charged: at most one
job at a time has a quota in hand, it is covered, and so is the quota of the row unless
the job has moved money that the row does not show yet.
-/
import JulongApi.Proofs.TaskSystem

namespace JulongApi

open Machine

/-! ### What is claimed -/

namespace TaskSystem

def charged (s : TaskSystem) (x : Nat) : Int := ((s.moves x).map fun m => max m 0).sum

def givenBack (s : TaskSystem) (x : Nat) : Int := ((s.moves x).map fun m => max (-m) 0).sum

end TaskSystem

namespace TaskJob

/-- The job is a sweep that has taken the quota out of the row. -/
def sweeper : TaskJob → Bool
  | .claimed _ => true
  | .restoring _ => true
  | _ => false

/-- The job has moved money that the row does not show. -/
def unrecorded : TaskJob → Bool
  | .writing _ _ => true
  | .unwritten _ _ => true
  | _ => false

def InHand (x : Nat) (job : TaskJob) : Prop :=
  job.On x ∧ (job.finalizer || job.sweeper) = true

theorem free_of_not_inHand {x : Nat} {job : TaskJob} (hon : job.On x) (h : ¬job.InHand x) :
    (job.finalizer || job.sweeper) = false := by
  by_contra hhand
  rw [Bool.not_eq_false] at hhand
  exact h ⟨hon, hhand⟩

theorem inHand_of_unrecorded {x : Nat} {job : TaskJob} (hon : job.On x)
    (h : job.unrecorded = true) : job.InHand x := by
  refine ⟨hon, ?_⟩
  cases job with
  | writing polled t => rfl
  | unwritten polled t => rfl
  | _ => simp [unrecorded] at h

end TaskJob

/-- Nothing takes a quota that somebody else has in hand. -/
def RefundsOnce (cfg : PollConfig) (x : Nat) (s : TaskSystem) : TaskAct → Prop
  -- a claim that would match finds no finalizer at work
  | .claim i _ dbOk =>
    dbOk = true → ∀ u row, s.jobs[i]? = some (.unrefunded u) → u.id = x →
      s.rows.find x = some row → row.quota = u.quota →
        ∀ job ∈ s.jobs, job.On x → job.finalizer = false
  -- a copy at its end is handled again only if it stays there, and is not ahead of its row
  | .poll i batch answer now _ =>
    ∀ u row, s.jobs[i]?.bind TaskJob.held = some u → u.id = x → u.status.terminal = true →
      s.rows.find x = some row →
        (u.handlePoll cfg now batch answer).task.status.terminal = true ∧
          row.status.terminal = true ∧ u.quota ≤ row.quota ∧
            ∀ job ∈ s.jobs, ¬job.InHand x
  | _ => True

/-! ### The invariant -/

/-- What a job on a task may rely on: `net` is what the task still has been charged. -/
def JobCovered (row : Task) (net : Int) : TaskJob → Prop
  | .loaded t =>
    0 ≤ t.quota ∧ (t.status.terminal = false → row.status.terminal = false → t.quota ≤ net)
  | .timedOut t =>
    0 ≤ t.quota ∧ t.status.terminal = false ∧ (row.status.terminal = false → t.quota ≤ net)
  | .unrefunded _ => row.status.terminal = true
  | .finalizing t _ =>
    row.status.terminal = true ∧ t.status.terminal = true ∧ 0 ≤ t.quota ∧ t.quota ≤ net
  | .settling t actualQuota =>
    row.status.terminal = true ∧ t.status.terminal = true ∧ 0 ≤ t.quota ∧ t.quota ≤ net ∧
      0 ≤ actualQuota
  | .refunding _ t =>
    row.status.terminal = true ∧ t.status.terminal = true ∧ 0 ≤ t.quota ∧ t.quota ≤ net
  | .writing _ t =>
    row.status.terminal = true ∧ t.status.terminal = true ∧ 0 ≤ t.quota ∧ t.quota ≤ net
  | .unwritten _ t => row.status.terminal = true ∧ t.status.terminal = true ∧ 0 ≤ t.quota
  | .claimed t => row.status.terminal = true ∧ row.quota = 0 ∧ 0 ≤ t.quota ∧ t.quota ≤ net
  | .restoring t => row.status.terminal = true ∧ row.quota = 0 ∧ 0 ≤ t.quota ∧ t.quota ≤ net
  | .clearing t => row.status.terminal = true ∧ t.quota = 0
  | .done => True

variable {cfg : PollConfig} {s t : TaskSystem} {a : TaskAct} {i x : Nat} {v v' : TaskView}
  {row row' : Task} {net net' : Int} {job job' : TaskJob} {ms : List Int}

theorem JobCovered.mono (h : JobCovered row net job)
    (hterm : row'.status.terminal = row.status.terminal)
    (hzero : row.status.terminal = true → row.quota = 0 → row'.quota = 0) :
    JobCovered row' net job := by
  cases job <;> simp only [JobCovered, hterm] at h ⊢ <;> try exact h
  · exact ⟨h.1, hzero h.1 h.2.1, h.2.2⟩
  · exact ⟨h.1, hzero h.1 h.2.1, h.2.2⟩

theorem JobCovered.of_terminal (h : JobCovered row net job)
    (hfree : (job.finalizer || job.sweeper) = false) (hterm : row'.status.terminal = true) :
    JobCovered row' net' job := by
  cases job <;> simp [JobCovered, TaskJob.finalizer, TaskJob.sweeper, hterm] at h hfree ⊢
  · exact h.1
  · exact ⟨h.1, h.2.1⟩
  · exact h.2

theorem JobCovered.terminal (h : JobCovered row net job)
    (hhand : (job.finalizer || job.sweeper) = true) : row.status.terminal = true := by
  cases job <;> simp [TaskJob.finalizer, TaskJob.sweeper] at hhand <;> exact h.1

structure Covered (x : Nat) (v : TaskView) : Prop where
  net_nonneg : 0 ≤ v.moves.sum
  quota_nonneg : 0 ≤ v.row.quota
  jobs : ∀ job ∈ v.jobs, job.On x → JobCovered v.row v.moves.sum job
  one : Pool.AtMostOne (TaskJob.InHand x) v.jobs
  stored : (∀ job ∈ v.jobs, job.On x → job.unrecorded = false) → v.row.quota ≤ v.moves.sum

variable {u : Task} {batch dbOk : Bool} {answer : PollAnswer} {now : Int}

namespace Covered

theorem free_of_open (h : Covered x v) (hopen : v.row.status.terminal = false) :
    ∀ job ∈ v.jobs, ¬job.InHand x := by
  rintro job hjob ⟨hon, hhand⟩
  have hterm := (h.jobs job hjob hon).terminal hhand
  rw [hopen] at hterm
  exact absurd hterm (by simp)

theorem stored_of_free (h : Covered x v) (hfree : ∀ job ∈ v.jobs, ¬job.InHand x) :
    v.row.quota ≤ v.moves.sum := by
  refine h.stored ?_
  intro job hjob hon
  by_contra hun
  rw [Bool.not_eq_false] at hun
  exact hfree job hjob (TaskJob.inHand_of_unrecorded hon hun)

theorem goOn (h : Covered x v) (hjob : v.jobs[i]? = some job)
    (hnet : 0 ≤ (ms ++ v.moves).sum) (hquota : 0 ≤ row'.quota)
    (hself : job'.On x → JobCovered row' (ms ++ v.moves).sum job')
    (hothers : ∀ (k : Nat) (o : TaskJob), k ≠ i → v.jobs[k]? = some o → o.On x →
      JobCovered row' (ms ++ v.moves).sum o)
    (hone : job'.InHand x → job.InHand x ∨ ∀ o ∈ v.jobs, ¬o.InHand x)
    (hstored : (job'.On x → job'.unrecorded = false) →
      (∀ (k : Nat) (o : TaskJob), k ≠ i → v.jobs[k]? = some o → o.On x → o.unrecorded = false) →
      row'.quota ≤ (ms ++ v.moves).sum) :
    Covered x ⟨row', v.jobs.set i job', ms ++ v.moves⟩ where
  net_nonneg := hnet
  quota_nonneg := hquota
  jobs := by
    intro o ho hon
    rcases Pool.mem_set_cases ho with rfl | ⟨k, hne, hk⟩
    · exact hself hon
    · exact hothers k o hne hk hon
  one := h.one.set hjob hone
  stored := by
    intro hall
    have hlt : i < v.jobs.length := (List.getElem?_eq_some_iff.mp hjob).1
    refine hstored (hall job' (List.mem_set hlt job')) ?_
    intro k o hne hk
    exact hall o (List.mem_of_getElem? ((List.getElem?_set_ne (Ne.symm hne)).trans hk))

theorem keep (h : Covered x v) (hjob : v.jobs[i]? = some job)
    (hself : job'.On x → JobCovered v.row v.moves.sum job')
    (hone : job'.InHand x → job.InHand x ∨ ∀ o ∈ v.jobs, ¬o.InHand x)
    (hun : job.unrecorded = true → job'.On x ∧ job'.unrecorded = true) :
    Covered x ⟨v.row, v.jobs.set i job', [] ++ v.moves⟩ := by
  refine h.goOn hjob h.net_nonneg h.quota_nonneg hself ?_ hone ?_
  · intro k o _ hk hon
    exact h.jobs o (List.mem_of_getElem? hk) hon
  · intro hjob' hothers
    refine h.stored ?_
    intro o ho hon'
    obtain ⟨k, hk⟩ := List.mem_iff_getElem?.mp ho
    by_cases hki : k = i
    · subst hki
      cases hjob.symm.trans hk
      by_contra hc
      rw [Bool.not_eq_false] at hc
      obtain ⟨hon', hrec⟩ := hun hc
      rw [hjob' hon'] at hrec
      exact absurd hrec (by simp)
    · exact hothers k o hki hk hon'

theorem pass (h : Covered x v) (hjob : v.jobs[i]? = some job) (hhand : job.InHand x)
    (hun : job.unrecorded = false) (hself : job'.On x → JobCovered v.row v.moves.sum job') :
    Covered x ⟨v.row, v.jobs.set i job', [] ++ v.moves⟩ :=
  h.keep hjob hself (fun _ => .inl hhand) (by simp [hun])

theorem drop (h : Covered x v) (hjob : v.jobs[i]? = some job) (hun : job.unrecorded = false) :
    Covered x ⟨v.row, v.jobs.set i .done, [] ++ v.moves⟩ := by
  refine h.keep hjob (fun _ => trivial) ?_ (by simp [hun])
  rintro ⟨-, hhand⟩
  simp [TaskJob.finalizer, TaskJob.sweeper] at hhand

theorem goOn_inHand (h : Covered x v) (hjob : v.jobs[i]? = some job) (hhand : job.InHand x)
    (hterm : row'.status.terminal = true) (hnet : 0 ≤ (ms ++ v.moves).sum)
    (hquota : 0 ≤ row'.quota)
    (hself : job'.On x → JobCovered row' (ms ++ v.moves).sum job')
    (hstored : (job'.On x → job'.unrecorded = false) → row'.quota ≤ (ms ++ v.moves).sum) :
    Covered x ⟨row', v.jobs.set i job', ms ++ v.moves⟩ := by
  refine h.goOn hjob hnet hquota hself ?_ (fun _ => .inl hhand) fun hrec _ => hstored hrec
  intro k o hne hk hon
  have hfree := TaskJob.free_of_not_inHand hon (h.one.not_of_ne hjob hhand hne hk)
  exact (h.jobs o (List.mem_of_getElem? hk) hon).of_terminal hfree hterm

theorem goOn_free (h : Covered x v) (hjob : v.jobs[i]? = some job)
    (hfree : ∀ o ∈ v.jobs, ¬o.InHand x)
    (hterm : v.row.status.terminal = true → row'.status.terminal = true)
    (hquota : 0 ≤ row'.quota) (hcovered : row'.quota ≤ v.moves.sum)
    (hself : job'.On x → JobCovered row' v.moves.sum job') :
    Covered x ⟨row', v.jobs.set i job', [] ++ v.moves⟩ := by
  refine h.goOn hjob h.net_nonneg hquota hself ?_ (fun _ => .inr hfree) fun _ _ => hcovered
  intro k o _ hk hon
  have hmem := List.mem_of_getElem? hk
  have hother := h.jobs o hmem hon
  have hnot := TaskJob.free_of_not_inHand hon (hfree o hmem)
  cases hrow' : row'.status.terminal with
  | true => exact hother.of_terminal hnot hrow'
  | false =>
    have hrow : v.row.status.terminal = false := by
      by_contra hc
      rw [Bool.not_eq_false] at hc
      rw [hterm hc] at hrow'
      exact absurd hrow' (by simp)
    exact hother.mono (hrow'.trans hrow.symm) (fun hc => by simp [hrow] at hc)

/-! ### What a copy that wins an update relies on -/

theorem timeOut_ready (h : Covered x v) (hjob : v.jobs[i]? = some (.timedOut u)) (hid : u.id = x)
    (hstatus : v.row.status = u.status) :
    0 ≤ u.quota ∧ u.quota ≤ v.moves.sum ∧ v.row.status.terminal = false := by
  obtain ⟨hnonneg, hopen, hle⟩ := h.jobs _ (List.mem_of_getElem? hjob) (congrArg some hid)
  have hrow : v.row.status.terminal = false := by rw [hstatus, hopen]
  exact ⟨hnonneg, hle hrow, hrow⟩

theorem held (h : Covered x v) (hjob : v.jobs[i]? = some job) (hon : job.On x)
    (hheld : job.held = some u) :
    0 ≤ u.quota ∧
      (u.status.terminal = false → job = .loaded u ∧
        (v.row.status.terminal = false → u.quota ≤ v.moves.sum)) := by
  have hcov := h.jobs _ (List.mem_of_getElem? hjob) hon
  cases job with
  | loaded w =>
    obtain rfl : w = u := Option.some.inj hheld
    exact ⟨hcov.1, fun hopen => ⟨rfl, hcov.2 hopen⟩⟩
  | unwritten polled w =>
    cases polled with
    | false => simp [TaskJob.held] at hheld
    | true =>
      obtain rfl : w = u := Option.some.inj hheld
      refine ⟨hcov.2.2, ?_⟩
      intro hopen
      rw [hcov.2.1] at hopen
      exact absurd hopen (by simp)
  | _ => simp [TaskJob.held] at hheld

theorem poll_again (hv : s.view x = some v)
    (hcond : RefundsOnce cfg x s (.poll i batch answer now dbOk)) (hjob : v.jobs[i]? = some job)
    (hon : job.On x) (hheld : job.held = some u) (hend : u.status.terminal = true) :
    (u.handlePoll cfg now batch answer).task.status.terminal = true ∧
      v.row.status.terminal = true ∧ u.quota ≤ v.row.quota ∧ ∀ job ∈ v.jobs, ¬job.InHand x := by
  obtain ⟨hrow, hjobs, -⟩ := view_eq_some hv
  obtain ⟨hcopy, hid⟩ := held_of_view hv hjob hon hheld
  have hagain := hcond u v.row hcopy hid hend hrow
  rw [hjobs] at hagain
  exact hagain

theorem poll_ready (h : Covered x v) (hv : s.view x = some v)
    (hcond : RefundsOnce cfg x s (.poll i batch answer now dbOk)) (hjob : v.jobs[i]? = some job)
    (hon : job.On x) (hheld : job.held = some u) (hstatus : v.row.status = u.status) :
    u.quota ≤ v.moves.sum ∧ (∀ job ∈ v.jobs, ¬job.InHand x) ∧
      (v.row.status.terminal = true →
        (u.handlePoll cfg now batch answer).task.status.terminal = true) := by
  cases hend : u.status.terminal with
  | true =>
    obtain ⟨hstays, -, hle, hfree⟩ := poll_again hv hcond hjob hon hheld hend
    exact ⟨hle.trans (h.stored_of_free hfree), hfree, fun _ => hstays⟩
  | false =>
    have hrow : v.row.status.terminal = false := by rw [hstatus, hend]
    obtain ⟨-, hle⟩ := (h.held hjob hon hheld).2 hend
    refine ⟨hle hrow, h.free_of_open hrow, ?_⟩
    intro hc
    rw [hrow] at hc
    exact absurd hc (by simp)

end Covered

/-! ### Every step keeps it -/

theorem claim_free (h : Covered x v) (hv : s.view x = some v)
    (hcond : RefundsOnce cfg x s (.claim i now true)) (hjob : v.jobs[i]? = some (.unrefunded u))
    (hid : u.id = x) (hquota : v.row.quota = u.quota) (hne : u.quota ≠ 0) :
    ∀ job ∈ v.jobs, ¬job.InHand x := by
  obtain ⟨hrow, hjobs, -⟩ := view_eq_some hv
  rintro job hmem ⟨hon, hhand⟩
  have hfinal := hcond rfl u v.row (hjobs ▸ hjob) hid hrow hquota job (hjobs ▸ hmem) hon
  have hcov := h.jobs job hmem hon
  -- a sweep that has claimed the quota has left zero in the row
  cases job with
  | claimed w => exact hne (hquota.symm.trans hcov.2.1)
  | restoring w => exact hne (hquota.symm.trans hcov.2.1)
  | _ => simp [TaskJob.finalizer, TaskJob.sweeper] at hhand hfinal

theorem JobCovered.release {polled : Bool} {u : Task} (hend : u.status.terminal = true)
    (hnonneg : 0 ≤ u.quota) : JobCovered row net (.release polled u) := by
  cases polled with
  | false => trivial
  | true =>
    refine ⟨hnonneg, ?_⟩
    intro hopen
    rw [hend] at hopen
    exact absurd hopen (by simp)

theorem timedOut_covered {u : Task} {now : Int} (hnonneg : 0 ≤ u.quota) (hle : u.quota ≤ net) :
    0 ≤ (u.timedOut now).quota ∧ (u.timedOut now).quota ≤ net := by
  unfold Task.timedOut
  split
  · exact ⟨le_refl 0, hnonneg.trans hle⟩
  · exact ⟨hnonneg, hle⟩

theorem pollKept_covered (h : Covered x v) (hv : s.view x = some v)
    (hcond : RefundsOnce cfg x s (.poll i batch answer now dbOk)) (hjob : v.jobs[i]? = some job)
    (hon : job.On x) (hheld : job.held = some u) :
    Covered x ⟨v.row, v.jobs.set i (.loaded (u.handlePoll cfg now batch answer).task),
      [] ++ v.moves⟩ := by
  have hf := u.handlePoll_follows cfg now batch answer
  obtain ⟨hnonneg, hcopy⟩ := h.held hjob hon hheld
  cases hend : u.status.terminal with
  | true =>
    obtain ⟨hstays, -, -, hfree⟩ := Covered.poll_again hv hcond hjob hon hheld hend
    refine h.keep hjob (fun _ => ⟨hf.quota.symm ▸ hnonneg, ?_⟩) (fun _ => .inr hfree) ?_
    · intro hopen
      rw [hstays] at hopen
      exact absurd hopen (by simp)
    · intro hun
      exact absurd (TaskJob.inHand_of_unrecorded hon hun)
        (hfree job (List.mem_of_getElem? hjob))
  | false =>
    obtain ⟨rfl, hle⟩ := hcopy hend
    refine h.keep hjob (fun _ => ⟨hf.quota.symm ▸ hnonneg, ?_⟩) ?_ (by simp [TaskJob.unrecorded])
    · intro _ hrow
      exact hf.quota.symm ▸ hle hrow
    · rintro ⟨-, hhand⟩
      simp [TaskJob.finalizer, TaskJob.sweeper] at hhand

theorem JobStep.covered (h : Covered x v) (hv : s.view x = some v) (hcond : RefundsOnce cfg x s a)
    (hjob : v.jobs[i]? = some job) (hon : job.On x)
    (hstep : JobStep cfg i v.row a job job' row' ms) :
    Covered x ⟨row', v.jobs.set i job', ms ++ v.moves⟩ := by
  have hcov := h.jobs job (List.mem_of_getElem? hjob) hon
  have hnet := h.net_nonneg
  have hsum : ∀ m : Int, ([m] ++ v.moves).sum = m + v.moves.sum := by simp
  cases hstep with
  | @timeOutRefund u now hstatus hlegacy =>
    obtain ⟨hnonneg, hle, hopen⟩ := h.timeOut_ready hjob (Option.some.inj hon) hstatus
    have hquota : (u.timedOut now).quota = u.quota := Task.timedOut_quota hlegacy
    have hend : (u.timedOut now).status.terminal = true := by
      rw [Task.timedOut_status, TaskStatus.terminal]
    refine h.goOn_free hjob (h.free_of_open hopen) (fun _ => hend) ?_ ?_ fun _ => ?_
    · exact hquota.symm ▸ hnonneg
    · exact hquota.symm ▸ hle
    · exact ⟨hend, hend, hquota.symm ▸ hnonneg, hquota.symm ▸ hle⟩
  | @timeOutDone u now hstatus =>
    obtain ⟨hnonneg, hle, hopen⟩ := h.timeOut_ready hjob (Option.some.inj hon) hstatus
    obtain ⟨hnonneg', hle'⟩ := @timedOut_covered v.moves.sum u now hnonneg hle
    refine h.goOn_free hjob (h.free_of_open hopen) (fun _ => ?_) hnonneg' hle' fun _ => trivial
    show (u.timedOut now).status.terminal = true
    rw [Task.timedOut_status, TaskStatus.terminal]
  | timeOutLost => exact h.drop hjob rfl
  | @pollWon _ u batch answer now hheld hstatus =>
    have hf := u.handlePoll_follows cfg now batch answer
    obtain ⟨hle, hfree, hstays⟩ := h.poll_ready hv hcond hjob hon hheld hstatus
    have hnonneg := (h.held hjob hon hheld).1
    refine h.goOn_free hjob hfree hstays ?_ ?_ fun _ => ⟨?_, fun _ _ => ?_⟩
    · exact hf.quota.symm ▸ hnonneg
    · exact hf.quota.symm ▸ hle
    · exact hf.quota.symm ▸ hnonneg
    · exact hf.quota.symm ▸ hle
  | @pollFinished _ u batch answer now hheld hstatus hfin =>
    have hf := u.handlePoll_follows cfg now batch answer
    obtain ⟨hle, hfree, hstays⟩ := h.poll_ready hv hcond hjob hon hheld hstatus
    have hnonneg := (h.held hjob hon hheld).1
    have hend := hf.terminal hfin
    refine h.goOn_free hjob hfree hstays ?_ ?_ fun _ => ⟨hend, hend, ?_, ?_⟩
    · exact hf.quota.symm ▸ hnonneg
    · exact hf.quota.symm ▸ hle
    · exact hf.quota.symm ▸ hnonneg
    · exact hf.quota.symm ▸ hle
  | pollKept hheld => exact pollKept_covered h hv hcond hjob hon hheld
  | @pollAgain _ u batch answer now _ hheld hend hfin =>
    have hf := u.handlePoll_follows cfg now batch answer
    obtain ⟨-, hrow, hle, hfree⟩ := Covered.poll_again hv hcond hjob hon hheld hend
    have hnonneg := (h.held hjob hon hheld).1
    have hstored := h.stored_of_free hfree
    refine h.goOn_free hjob hfree (fun _ => hrow) h.quota_nonneg hstored fun _ =>
      ⟨hrow, hf.terminal hfin, ?_, ?_⟩
    · exact hf.quota.symm ▸ hnonneg
    · exact hf.quota.symm ▸ hle.trans hstored
  | finalizeKept =>
    obtain ⟨-, hend, hnonneg, -⟩ := hcov
    exact h.pass hjob ⟨hon, rfl⟩ rfl fun _ => @JobCovered.release _ _ true _ hend hnonneg
  | finalizeSettle hactual =>
    obtain ⟨hrow, hend, hnonneg, hle⟩ := hcov
    exact h.pass hjob ⟨hon, rfl⟩ rfl fun _ => ⟨hrow, hend, hnonneg, hle, hactual⟩
  | finalizeRefund => exact h.pass hjob ⟨hon, rfl⟩ rfl fun _ => hcov
  | @settled u actualQuota =>
    obtain ⟨hrow, hend, hnonneg, hle, hactual⟩ := hcov
    refine h.goOn_inHand hjob ⟨hon, rfl⟩ hrow ?_ h.quota_nonneg ?_ ?_
    · rw [hsum]
      omega
    · intro _
      rw [hsum]
      exact ⟨hrow, hend, hactual, by show actualQuota ≤ _; omega⟩
    · intro hrec
      exact absurd (hrec hon) (by simp [TaskJob.unrecorded])
  | settleFailed =>
    obtain ⟨-, hend, hnonneg, -⟩ := hcov
    exact h.pass hjob ⟨hon, rfl⟩ rfl fun _ => @JobCovered.release _ _ true _ hend hnonneg
  | @refunded polled u =>
    obtain ⟨hrow, hend, hnonneg, hle⟩ := hcov
    refine h.goOn_inHand hjob ⟨hon, rfl⟩ hrow ?_ h.quota_nonneg ?_ ?_
    · rw [hsum]
      omega
    · intro _
      rw [hsum]
      exact ⟨hrow, hend, le_refl 0, by show (0 : Int) ≤ _; omega⟩
    · intro hrec
      exact absurd (hrec hon) (by simp [TaskJob.unrecorded])
  | refundFailed =>
    obtain ⟨-, hend, hnonneg, -⟩ := hcov
    exact h.pass hjob ⟨hon, rfl⟩ rfl fun _ => .release hend hnonneg
  | @sweepRefunded u =>
    obtain ⟨hrow, hzero, hnonneg, hle⟩ := hcov
    refine h.goOn_inHand hjob ⟨hon, rfl⟩ hrow ?_ h.quota_nonneg (fun _ => ⟨hrow, rfl⟩) ?_
    · rw [hsum]
      omega
    · intro _
      rw [hsum, hzero]
      omega
  | sweepFailed => exact h.pass hjob ⟨hon, rfl⟩ rfl fun _ => hcov
  | written =>
    obtain ⟨hrow, hend, hnonneg, hle⟩ := hcov
    exact h.goOn_inHand hjob ⟨hon, rfl⟩ hrow hnet hnonneg (fun _ => .release hend hnonneg)
      fun _ => hle
  | unwritten =>
    obtain ⟨hrow, hend, hnonneg, -⟩ := hcov
    exact h.keep hjob (fun _ => ⟨hrow, hend, hnonneg⟩) (fun _ => .inl ⟨hon, rfl⟩)
      fun _ => ⟨hon, rfl⟩
  | @cleared u now =>
    obtain ⟨hrow, hzero⟩ := hcov
    refine h.goOn hjob hnet hzero.ge (fun _ => trivial) ?_ ?_ fun _ _ => ?_
    · intro k o _ hk hon'
      exact (h.jobs o (List.mem_of_getElem? hk) hon').mono rfl fun _ _ => hzero
    · rintro ⟨-, hhand⟩
      simp [TaskJob.finalizer, TaskJob.sweeper] at hhand
    · show u.quota ≤ _
      rw [hzero]
      exact hnet
  | uncleared => exact h.drop hjob rfl
  | @claimed u now hquota hne =>
    have hfree := claim_free h hv hcond hjob (Option.some.inj hon) hquota hne
    have hstored := h.stored_of_free hfree
    refine h.goOn_free hjob hfree (fun hterm => hterm) (le_refl 0) hnet fun _ =>
      ⟨hcov, rfl, ?_, ?_⟩
    · exact hquota ▸ h.quota_nonneg
    · exact hquota ▸ hstored
  | claimLost => exact h.drop hjob rfl
  | restored _ =>
    obtain ⟨hrow, -, hnonneg, hle⟩ := hcov
    exact h.goOn_inHand hjob ⟨hon, rfl⟩ hrow hnet hnonneg (fun _ => trivial) fun _ => hle
  | unrestored => exact h.drop hjob rfl

theorem Covered.elsewhere (h : Covered x v) (hjob : v.jobs[i]? = some job) (hon : ¬job.On x)
    (hon' : ¬job'.On x) : Covered x { v with jobs := v.jobs.set i job' } where
  net_nonneg := h.net_nonneg
  quota_nonneg := h.quota_nonneg
  jobs := forall_on_set h.jobs fun hc => absurd hc hon'
  one := h.one.set hjob fun hc => absurd hc.1 hon'
  stored := by
    intro hall
    refine h.stored ?_
    intro o ho hono
    obtain ⟨k, hk⟩ := List.mem_iff_getElem?.mp ho
    have hne : i ≠ k := by
      rintro rfl
      cases hjob.symm.trans hk
      exact hon hono
    exact hall o (List.mem_of_getElem? ((List.getElem?_set_ne hne).trans hk)) hono

theorem Covered.load {new : List TaskJob} (h : Covered x v)
    (hfresh : ∀ job ∈ new, job.On x → Fresh v.row job) :
    Covered x { v with jobs := v.jobs ++ new } where
  net_nonneg := h.net_nonneg
  quota_nonneg := h.quota_nonneg
  jobs := by
    intro o ho hon
    rcases List.mem_append.mp ho with hold | hnew
    · exact h.jobs o hold hon
    · cases hfresh o hnew hon with
      | loaded hopen =>
        exact ⟨h.quota_nonneg, fun _ _ => h.stored_of_free (h.free_of_open hopen)⟩
      | timedOut hopen =>
        exact ⟨h.quota_nonneg, hopen, fun _ => h.stored_of_free (h.free_of_open hopen)⟩
      | unrefunded hstatus _ _ =>
        show v.row.status.terminal = true
        rw [hstatus, TaskStatus.terminal]
  one := by
    refine h.one.append ?_
    rintro o ho ⟨hon, hhand⟩
    cases hfresh o ho hon with
    | _ => simp [TaskJob.finalizer, TaskJob.sweeper] at hhand
  stored := by
    intro hall
    exact h.stored fun o ho => hall o (List.mem_append_left new ho)

theorem Covered.bulkFail (h : Covered x v) (hend : row'.status.terminal = true)
    (hquota : row'.quota = v.row.quota) : Covered x { v with row := row' } where
  net_nonneg := h.net_nonneg
  quota_nonneg := by
    show 0 ≤ row'.quota
    rw [hquota]
    exact h.quota_nonneg
  jobs := by
    intro o ho hon
    have hold := h.jobs o ho hon
    cases hrow : v.row.status.terminal with
    | true => exact hold.mono (hend.trans hrow.symm) fun _ hzero => hquota.trans hzero
    | false =>
      have hfree := TaskJob.free_of_not_inHand hon (h.free_of_open hrow o ho)
      exact hold.of_terminal hfree hend
  one := h.one
  stored := by
    intro hall
    show row'.quota ≤ _
    rw [hquota]
    exact h.stored hall

theorem TaskStep.covered (h : Covered x v) (hv : s.view x = some v) (hcond : RefundsOnce cfg x s a)
    (hstep : TaskStep cfg x a v v') : Covered x v' := by
  cases hstep with
  | elsewhere hjob hon hon' => exact h.elsewhere hjob hon hon'
  | load hfresh => exact h.load hfresh
  | bulkFail _ => exact h.bulkFail rfl rfl
  | bulkElsewhere => exact h
  | job hjob hon _ hstep => exact hstep.covered h hv hcond hjob hon

/-! ### Whole runs -/

theorem filterMap_of_find {l : List Task} (hkeys : (l.map Task.id).Nodup)
    (hrow : l.find? (fun u => decide (u.id = x)) = some row) :
    (l.map fun u => (u.id, u.quota)).filterMap (fun m => if m.1 = x then some m.2 else none) =
      [row.quota] := by
  induction l with
  | nil => simp at hrow
  | cons head rest ih =>
    simp only [List.map_cons, List.nodup_cons] at hkeys
    by_cases hid : head.id = x
    · rw [List.find?_cons_of_pos (by simpa using hid)] at hrow
      cases hrow
      have hrest : (rest.map fun u => (u.id, u.quota)).filterMap
          (fun m => if m.1 = x then some m.2 else none) = [] := by
        rw [List.filterMap_eq_nil_iff]
        intro m hm
        obtain ⟨u, hu, rfl⟩ := List.mem_map.mp hm
        have hne : u.id ≠ x := by
          intro hc
          exact hkeys.1 (hid.trans hc.symm ▸ List.mem_map_of_mem hu)
        simp [hne]
      simp [hid, hrest]
    · rw [List.find?_cons_of_neg (by simpa using hid)] at hrow
      simpa [hid] using ih hkeys.2 hrow

theorem idle_moves {rows : TaskTable} (hrow : rows.find x = some row) :
    (TaskSystem.idle rows).moves x = [row.quota] :=
  filterMap_of_find rows.keys hrow

theorem covered_idle {rows : TaskTable} (hrow : rows.find x = some row) (hquota : 0 ≤ row.quota)
    (hv : (TaskSystem.idle rows).view x = some v) : Covered x v := by
  have hstart : (TaskSystem.idle rows).rows.find x = some row := hrow
  rw [view_of_find hstart, idle_moves hrow] at hv
  cases hv
  have hsum : [row.quota].sum = row.quota := by simp
  refine ⟨?_, hquota, ?_, ?_, ?_⟩
  · show 0 ≤ [row.quota].sum
    rw [hsum]
    exact hquota
  · intro job hjob
    simp [TaskSystem.idle] at hjob
  · intro i k a b hi
    simp [TaskSystem.idle] at hi
  · intro _
    exact hsum.ge

theorem charged_sub_givenBack (s : TaskSystem) (x : Nat) :
    s.charged x - s.givenBack x = (s.moves x).sum := by
  unfold TaskSystem.charged TaskSystem.givenBack
  induction s.moves x with
  | nil => rfl
  | cons m rest ih =>
    simp only [List.map_cons, List.sum_cons]
    omega

/--
**No more is given back than was charged.**  In every run in which a claim of the sweep
finds no finalizer at work on the task, and no copy is handled again that is ahead of its
row, what has been given back for the task is covered by what it was charged.
-/
theorem givenBack_le_charged {rows : TaskTable} {acts : List TaskAct}
    (hrow : rows.find x = some row) (hquota : 0 ≤ row.quota)
    (honce : Meets (TaskSystem.step cfg) (RefundsOnce cfg x) (.idle rows) acts)
    (hrun : run (TaskSystem.step cfg) (.idle rows) acts = some s) :
    s.givenBack x ≤ s.charged x := by
  have hstart : (TaskSystem.idle rows).rows.find x = some row := hrow
  have hv := view_of_find hstart
  obtain ⟨v, hv', hcov⟩ := run_view (Covered x)
    (fun _ _ _ _ hv hcov hcond hstep => hstep.covered hcov hv hcond) hv
    (covered_idle hrow hquota hv) honce hrun
  have hnet : 0 ≤ (s.moves x).sum := by
    rw [(view_eq_some hv').2.2]
    exact hcov.net_nonneg
  have hsub := charged_sub_givenBack s x
  omega

/-- A task that fails and cannot be refunded, until the sweep comes. -/
def refundedBySweep : List TaskAct :=
  [.loadUnfinished 10, .poll 0 false .notFound 1800000060 true, .finalize 0 noAdjustment,
    .moveFunding 0 false, .loadUnrefunded 1800000120, .claim 1 1800000120 true,
    .moveFunding 1 true, .writeQuota 1 1800000121 true]

theorem sweep_refund_once :
    ∃ s, run (TaskSystem.step samplePollConfig) (.idle sampleRows) refundedBySweep = some s ∧
      s.givenBack 1 = 10 ∧ s.givenBack 1 ≤ s.charged 1 := by
  have hpoll : ∀ s, s.jobs[0]? = some (.loaded sampleTask) →
      RefundsOnce samplePollConfig 1 s (.poll 0 false .notFound 1800000060 true) := by
    intro s hjob u row hu _ hterm
    rw [hjob] at hu
    obtain rfl : sampleTask = u := Option.some.inj hu
    exact absurd hterm (by decide)
  have hclaim : ∀ s u w, s.jobs = [.loaded u, .unrefunded w] →
      RefundsOnce samplePollConfig 1 s (.claim 1 1800000120 true) := by
    intro s u w hjobs _ _ _ _ _ _ _ job hjob _
    rw [hjobs] at hjob
    rcases List.mem_pair.mp hjob with rfl | rfl <;> rfl
  have honce : Meets (TaskSystem.step samplePollConfig) (RefundsOnce samplePollConfig 1)
      (.idle sampleRows) refundedBySweep := by
    refine ⟨trivial, fun s₁ h₁ => ?_⟩
    cases h₁
    refine ⟨hpoll _ rfl, fun s₂ h₂ => ?_⟩
    cases h₂
    refine ⟨trivial, fun s₃ h₃ => ?_⟩
    cases h₃
    refine ⟨trivial, fun s₄ h₄ => ?_⟩
    cases h₄
    refine ⟨trivial, fun s₅ h₅ => ?_⟩
    cases h₅
    refine ⟨hclaim _ _ _ rfl, fun s₆ h₆ => ⟨trivial, fun s₇ _ => ⟨trivial, fun _ _ => trivial⟩⟩⟩
  exact ⟨_, rfl, rfl, @givenBack_le_charged samplePollConfig _ 1 sampleTask sampleRows
    refundedBySweep rfl (by decide) honce rfl⟩

/-- A task that fails, is refunded by its finalizer, and whose row cannot be written. -/
def refundedUnwritten : List TaskAct :=
  [.loadUnfinished 10, .poll 0 false .notFound 1800000060 true, .finalize 0 noAdjustment,
    .moveFunding 0 true, .writeQuota 0 1800000061 false]

/-- The next sweep gives the quota back once more. -/
theorem unwritten_refund_repeated :
    (run (TaskSystem.step samplePollConfig) (.idle sampleRows) (refundedUnwritten ++
      [.loadUnrefunded 1800000120, .claim 1 1800000120 true, .moveFunding 1 true])).map
        (fun s => (s.charged 1, s.givenBack 1)) = some (10, 20) :=
  rfl

end JulongApi

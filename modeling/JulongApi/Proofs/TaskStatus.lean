/-
The end of a task is final, except where it is overwritten by id.

Every update of a single copy is guarded by the status the copy was read with, so a copy
that is behind cannot move a task that has ended.  Two writers are not held by this.  A
bulk failure update names its rows by id alone and turns a stored success into a failure;
and a copy that a polling pass handles again starts from its own end.  `KeepsStatus`
excludes these two, and `terminal_status_kept` says that nothing else is in the way.
-/
import JulongApi.Proofs.TaskSystem

namespace JulongApi

open Machine

variable {cfg : PollConfig} {s t : TaskSystem} {a : TaskAct} {i x : Nat} {v v' : TaskView}

/-- The action does not overwrite the end of task `x`. -/
def KeepsStatus (cfg : PollConfig) (x : Nat) (s : TaskSystem) : TaskAct → Prop
  -- a bulk failure finds no stored success
  | .bulkFail ids _ _ dbOk =>
    dbOk = true → x ∈ ids → ∀ row, s.rows.find x = some row → row.status ≠ .success
  -- a copy that is at its end, and as the row is, gets the status it has
  | .poll i batch answer now dbOk =>
    dbOk = true → ∀ u row, s.jobs[i]?.bind TaskJob.held = some u → u.id = x →
      s.rows.find x = some row → row.status = u.status → u.status.terminal = true →
        (u.handlePoll cfg now batch answer).task.status = u.status
  | _ => True

/-! ### What a step does to the stored status -/

/-- Only the timeout sweep and a poll write a status, and only over the one they read. -/
theorem JobStep.status_cases {row row' : Task} {job job' : TaskJob} {ms : List Int}
    (h : JobStep cfg i row a job job' row' ms) :
    row'.status = row.status ∨ (∃ u, job = .timedOut u ∧ row.status = u.status) ∨
      ∃ u batch answer now, a = .poll i batch answer now true ∧ job.held = some u ∧
        row.status = u.status ∧ row'.status = (u.handlePoll cfg now batch answer).task.status := by
  cases h with
  | timeOutRefund hstatus _ => exact .inr (.inl ⟨_, rfl, hstatus⟩)
  | timeOutDone hstatus => exact .inr (.inl ⟨_, rfl, hstatus⟩)
  | pollWon hheld hstatus => exact .inr (.inr ⟨_, _, _, _, rfl, hheld, hstatus, rfl⟩)
  | pollFinished hheld hstatus _ => exact .inr (.inr ⟨_, _, _, _, rfl, hheld, hstatus, rfl⟩)
  | _ => exact .inl rfl

theorem JobStep.not_timedOut {row row' u : Task} {job : TaskJob} {ms : List Int} :
    ¬JobStep cfg i row a job (.timedOut u) row' ms := by
  intro h
  generalize hjob : TaskJob.timedOut u = job' at h
  cases h with
  | refundFailed =>
    next polled _ => cases polled <;> simp [TaskJob.release] at hjob
  | written =>
    next polled _ _ => cases polled <;> simp [TaskJob.release] at hjob
  | _ => simp at hjob

/-- The timeout sweep has only copies that were not at their end. -/
def SweepsOpen (x : Nat) (v : TaskView) : Prop :=
  ∀ u, TaskJob.timedOut u ∈ v.jobs → u.id = x → u.status.terminal = false

theorem TaskStep.sweepsOpen (hopen : SweepsOpen x v) (h : TaskStep cfg x a v v') :
    SweepsOpen x v' := by
  intro u hu hid
  have hon : (TaskJob.timedOut u).On x := congrArg some hid
  cases h with
  | elsewhere hjob _ hon' =>
    rcases Pool.mem_set_cases hu with rfl | ⟨k, -, hk⟩
    · exact absurd hon hon'
    · exact hopen u (List.mem_of_getElem? hk) hid
  | load hfresh =>
    rcases List.mem_append.mp hu with hold | hnew
    · exact hopen u hold hid
    · cases hfresh _ hnew hon with
      | timedOut hrow => exact hrow
  | bulkFail _ => exact hopen u hu hid
  | bulkElsewhere => exact hopen u hu hid
  | job hjob _ _ hstep =>
    rcases Pool.mem_set_cases hu with rfl | ⟨k, -, hk⟩
    · exact absurd hstep JobStep.not_timedOut
    · exact hopen u (List.mem_of_getElem? hk) hid

theorem TaskStep.status (hv : s.view x = some v) (hopen : SweepsOpen x v)
    (hterm : v.row.status.terminal = true) (hkeeps : KeepsStatus cfg x s a)
    (h : TaskStep cfg x a v v') : v'.row.status = v.row.status := by
  have hrow := (view_eq_some hv).1
  cases h with
  | elsewhere _ _ _ => rfl
  | load _ => rfl
  | bulkElsewhere => rfl
  | bulkFail hid =>
    have hne : v.row.status ≠ .success := hkeeps rfl hid v.row hrow
    cases hstatus : v.row.status with
    | failure => rfl
    | success => exact absurd hstatus hne
    | _ => simp [hstatus, TaskStatus.terminal] at hterm
  | @job _ _ i job _ _ _ hjob hon _ hstep =>
    rcases hstep.status_cases with
      hsame | ⟨u, rfl, hstatus⟩ | ⟨u, batch, answer, now, rfl, hheld, hstatus, hnew⟩
    · exact hsame
    · -- a copy of the sweep has lost against whoever ended the task
      have hid : u.id = x := Option.some.inj hon
      have hread := hopen u (List.mem_of_getElem? hjob) hid
      rw [← hstatus, hterm] at hread
      exact absurd hread (by simp)
    · obtain ⟨hcopy, hid⟩ := held_of_view hv hjob hon hheld
      rw [hnew, hstatus]
      exact hkeeps rfl u v.row hcopy hid hrow hstatus (hstatus ▸ hterm)

/-! ### Whole runs -/

theorem sweepsOpen_idle {rows : TaskTable} (hv : (TaskSystem.idle rows).view x = some v) :
    SweepsOpen x v := by
  intro u hu _
  rw [← (view_eq_some hv).2.1] at hu
  simp [TaskSystem.idle] at hu

/--
**The end of a task is final.**  Whatever the nodes have done, once a task is stored as
succeeded or failed every run whose actions keep its status leaves it as it is.
-/
theorem terminal_status_kept {rows : TaskTable} {before after : List TaskAct} {row : Task}
    (hreach : run (TaskSystem.step cfg) (.idle rows) before = some s)
    (hrow : s.rows.find x = some row) (hterm : row.status.terminal = true)
    (hkeeps : Meets (TaskSystem.step cfg) (KeepsStatus cfg x) s after)
    (hrun : run (TaskSystem.step cfg) s after = some t) :
    ∃ row', t.rows.find x = some row' ∧ row'.status = row.status := by
  have hv := view_of_find hrow
  have hopen : SweepsOpen x ⟨row, s.jobs, s.moves x⟩ :=
    reach_view (SweepsOpen x) (fun _ => sweepsOpen_idle)
      (fun _ _ _ _ _ hopen _ hview => hview.sweepsOpen hopen) (meets_true before _) hreach hv
  let Kept : TaskView → Prop := fun v => SweepsOpen x v ∧ v.row.status = row.status
  have hstep : ∀ s a v v', TaskSystem.view s x = some v → Kept v → KeepsStatus cfg x s a →
      TaskStep cfg x a v v' → Kept v' := by
    rintro s a v v' hv ⟨hopen, hsame⟩ hcond hview
    have hend : v.row.status.terminal = true := by rw [hsame, hterm]
    exact ⟨hview.sweepsOpen hopen, (hview.status hv hopen hend hcond).trans hsame⟩
  obtain ⟨v', hv', -, hsame⟩ := run_view Kept hstep hv ⟨hopen, rfl⟩ hkeeps hrun
  exact ⟨v'.row, (view_eq_some hv').1, hsame⟩

def sampleSuccess : PollAnswer :=
  .parsed false "done" { failTaskInfo "" with status := .success, url := "video_1.mp4" }

/-- Two passes have read the task, and the first has seen it succeed. -/
def succeededTwiceRead : List TaskAct :=
  [.loadUnfinished 10, .loadUnfinished 10, .poll 0 false sampleSuccess 1800000060 true]

/-- The second pass, told that the task is gone, cannot take the success back. -/
theorem stale_poll_keeps_success :
    ∃ s t row', run (TaskSystem.step samplePollConfig) (.idle sampleRows) succeededTwiceRead =
        some s ∧
      run (TaskSystem.step samplePollConfig) s [.poll 1 false .notFound 1800000061 true] =
        some t ∧
      t.rows.find 1 = some row' ∧ row'.status = .success := by
  have hstale : ∀ s, s.jobs[1]? = some (.loaded sampleTask) →
      KeepsStatus samplePollConfig 1 s (.poll 1 false .notFound 1800000061 true) := by
    intro s hjob _ u row hu _ _ _ hterm
    rw [hjob] at hu
    obtain rfl : sampleTask = u := Option.some.inj hu
    exact absurd hterm (by decide)
  obtain ⟨row', hrow', hstatus⟩ := @terminal_status_kept samplePollConfig _ _ 1 sampleRows
    succeededTwiceRead [.poll 1 false .notFound 1800000061 true] _ rfl rfl rfl
    ⟨hstale _ rfl, fun _ _ => trivial⟩ rfl
  exact ⟨_, _, row', rfl, rfl, hrow', hstatus⟩

/-- The second pass cannot look up the channel and fails its copies by id. -/
theorem bulkFail_overwrites_success :
    (run (TaskSystem.step samplePollConfig) (.idle sampleRows) succeededTwiceRead).bind
        (fun s => (s.rows.find 1).map Task.status) = some .success ∧
      (run (TaskSystem.step samplePollConfig) (.idle sampleRows) (succeededTwiceRead ++
        [.bulkFail [1]
          (some "Failed to get the channel information. Please contact the administrator")
          1800000061 true])).bind (fun s => (s.rows.find 1).map Task.status) = some .failure :=
  ⟨rfl, rfl⟩

end JulongApi

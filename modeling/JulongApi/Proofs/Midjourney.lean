/-
What is charged for a Midjourney task, and what is given back.

The quota a task was prepared with is never changed: submissions, passes and notifications
hold copies of the row and write them back at any time, but every copy carries the one
quota, so a stale write puts back what was there.  This is `Sound`, and it holds in every
run.  With it come two facts about the ledger: only the wallet is ever given anything back,
and a task without a quota is charged nothing.

What happens to a task that fails is then quickly said.  The four writers that can move it
to `FAILURE` give back nothing to the token and nothing to the statistics, so with a quota
the law can only hold for a task that none of them fails.  `Spared` is the invariant for
such a task; `Fails` names the step that ends it.

The proofs go through `Next`, which lists what a step can do once and for all.
-/
import JulongApi.Midjourney
import JulongApi.Lib.Pool
import JulongApi.Proofs.TaskBilling

namespace JulongApi

/-! ### Preparing a task -/

theorem MjHandler.task_not_finishedFailure (info : MjRelayInfo) (r : MjResponse) (channelId : Nat)
    (handler : MjHandler) : (handler.task info r channelId).1.finishedFailure = false := by
  cases handler with
  | swapFace submitTime now => rfl
  | submit action prompt now =>
    simp only [task, uploadedTask]
    split
    · rfl
    · unfold existingTask
      split
      · split
        · split
          · next hsuccess => simp [Midjourney.finishedFailure, hsuccess]
          · rfl
        · rfl
      · rfl

theorem prepareMidjourneyTaskBilling_spec (info : MjRelayInfo) (task : Midjourney) (quota : Int)
    (shouldBill : Bool) :
    (prepareMidjourneyTaskBilling info task quota shouldBill).2.finishedFailure =
        task.finishedFailure ∧
      0 ≤ (prepareMidjourneyTaskBilling info task quota shouldBill).2.quota := by
  unfold prepareMidjourneyTaskBilling
  split_ifs with hbill hneg hsub hchannel
  · exact ⟨rfl, le_refl 0⟩
  · exact ⟨rfl, le_refl 0⟩
  · exact ⟨rfl, le_refl 0⟩
  · exact ⟨rfl, not_lt.mp hneg⟩
  · exact ⟨rfl, not_lt.mp hneg⟩

theorem MjHandler.submission_task (info : MjRelayInfo) (handler : MjHandler) (r : MjResponse)
    (channelId : Nat) (quota : Int) (id : Nat) :
    (handler.submission info r channelId quota id).task =
      { (prepareMidjourneyTaskBilling info (handler.task info r channelId).1 quota
          (handler.task info r channelId).2).2 with id := id } := by
  unfold submission
  rcases hprep : prepareMidjourneyTaskBilling info (handler.task info r channelId).1 quota
    (handler.task info r channelId).2 with ⟨_ | _ | _, task⟩ <;> simp [hprep]

/-! ### Accounts -/

namespace MjSystem

variable {env : MjEnv} {c c' : QuotaColumn} {quota : Int}

theorem chargeWallet_ok (h : chargeWallet env c quota = (.ok (), c')) :
    c'.balance = c.balance - quota := by
  unfold chargeWallet at h
  split at h
  · have hmoved := (decreaseQuota_ok h).2.balance
    omega
  · have hmoved := (increaseUserQuota_ok h).2.balance
    omega

theorem chargeWallet_error {e : QuotaError} (h : chargeWallet env c quota = (.error e, c')) :
    quota ≤ 0 := by
  by_contra hpos
  have hdb : storesUp.dbOk = true := rfl
  obtain ⟨c'', hok, -⟩ := @decreaseQuota_of_dbOk env.quota storesUp c quota hdb
    (le_of_lt (not_le.mp hpos))
  rw [chargeWallet, if_pos (not_le.mp hpos), decreaseUserQuota, hok] at h
  simp at h

theorem chargeToken_ok (h : chargeToken env c quota = (.ok (), c')) :
    c'.balance = c.balance - quota := by
  unfold chargeToken at h
  split at h
  · have hmoved := (decreaseQuota_ok h).2.balance
    omega
  · have hmoved := (increaseTokenQuota_ok h).2.balance
    omega

/-! ### What a step can do -/

def Submits (a : MjAct) : Prop :=
  ∃ info handler r channelId quota id, a = .submit info handler r channelId quota id

/-- A pass that has done one thing more, without touching its copies. -/
def SamePass (p p' : MjPass) : Prop := p'.taskM = p.taskM ∧ p'.returning = p.returning

/-- The steps of the system, told apart by what they do to the tasks and to the ledger. -/
inductive Next (env : MjEnv) (s : MjSystem) : MjAct → MjSystem → Prop
  | submit {info handler r channelId quota id rows}
      (hrows : s.rows.insert (MjHandler.submission info handler r channelId quota id).task =
        some rows) :
      Next env s (.submit info handler r channelId quota id)
        { s with
          rows := rows
          submissions := s.submissions ++ [handler.submission info r channelId quota id] }
  | charge {i j j' account c} (hj : s.submissions[i]? = some j) (htask : j'.task = j.task)
      (hc : j.task.quota = 0 → c.balance = (s.books account).balance) :
      Next env s (.settle i)
        { s.post (.charge j.task.id) account c with submissions := s.submissions.set i j' }
  | quiet {i j j'} (hj : s.submissions[i]? = some j) (hid : j'.task.id = j.task.id)
      (hquota : 0 ≤ j.task.quota → j'.task.quota = j.task.quota) :
      Next env s (.settle i) { s with submissions := s.submissions.set i j' }
  | mark {i j j' copy} (hj : s.submissions[i]? = some j) (htask : j'.task = copy)
      (hid : copy.id = j.task.id) (hquota : copy.quota = j.task.quota) :
      Next env s (.settle i)
        { s with
          rows := updateBillingState s.rows copy
          submissions := s.submissions.set i j' }
  | load :
      Next env s .load
        { s with passes := s.passes ++ [MjPass.load (getAllUnFinishTasks s.rows)] }
  | failNull {i p p'} (hp : s.passes[i]? = some p) (hsame : SamePass p p') :
      Next env s (.failNull i)
        { s with
          rows := mjBulkUpdate s.rows (fun row => row.id ∈ p.nullTaskIds) none
          passes := s.passes.set i p' }
  | gone {i p p' channelId tasks} (hp : s.passes[i]? = some p) (hsame : SamePass p p')
      (htasks : p.taskChannelM.find channelId = some tasks) :
      Next env s (.channel i channelId .gone)
        { s with
          rows := mjBulkUpdate s.rows (fun row => row.mjId ∈ tasks.mjIds) (some channelGoneReason)
          passes := s.passes.set i p' }
  | answer {i p p' channelId reply} (hp : s.passes[i]? = some p) (hsame : SamePass p p') :
      Next env s (.channel i channelId reply) { s with passes := s.passes.set i p' }
  | skip {i p p' now} (hp : s.passes[i]? = some p) (hsame : SamePass p p') :
      Next env s (.item i now) { s with passes := s.passes.set i p' }
  | item {i p item rest task now} (hp : s.passes[i]? = some p)
      (hitem : p.responseItems = item :: rest) (htask : p.taskM.find item.mjId = some task)
      (hneed : checkMjTaskNeedUpdate env task (timedOut task item now) = true) :
      Next env s (.item i now)
        { s with
          rows := (updateWithStatus env s.rows (task.polled env (timedOut task item now))
            task.status).2
          passes := s.passes.set i { p with
            responseItems := rest
            taskM := p.taskM.save (task.polled env (timedOut task item now))
            returning :=
              if (updateWithStatus env s.rows (task.polled env (timedOut task item now))
                  task.status).1 && (timedOut task item now).failed &&
                  (task.polled env (timedOut task item now)).quota != 0 then
                some (task.polled env (timedOut task item now))
              else none } }
  | giveBack {i p p' task c} (hp : s.passes[i]? = some p) (hreturn : p.returning = some task)
      (htaskM : p'.taskM = p.taskM) (hdone : p'.returning = none)
      (hc : c.balance = (s.books (.wallet task.userId)).balance + task.quota) :
      Next env s (.giveBack i)
        ({ s with passes := s.passes.set i p' }.post (.giveBack task.id) (.wallet task.userId) c)
  | refused {i p p'} (hp : s.passes[i]? = some p) (htaskM : p'.taskM = p.taskM)
      (hdone : p'.returning = none) :
      Next env s (.giveBack i) { s with passes := s.passes.set i p' }
  | notifyRead {item task} (htask : task ∈ s.rows.rows) :
      Next env s (.notifyRead item) { s with notifies := s.notifies ++ [task.notified env item] }
  | notifyWrite {i copy} (hcopy : s.notifies[i]? = some copy) :
      Next env s (.notifyWrite i)
        { s with rows := s.rows.save copy, notifies := s.notifies.eraseIdx i }
  | other {account delta c} : Next env s (.other account delta) (s.post .other account c)

variable {s t : MjSystem} {a : MjAct} {i : Nat}

variable {j' : MjSubmission} {item : MidjourneyDto} {p' : MjPass} {copy : Midjourney}
  {account : MjAccount} {rows : Table Midjourney.id}

theorem next_settle {j : MjSubmission} {s' : MjSystem} (hj : s.submissions[i]? = some j)
    (h : s.settleNext env j = some (s', j')) :
    Next env s (.settle i) { s' with submissions := s.submissions.set i j' } := by
  unfold settleNext at h
  rcases hstage : j.stage with _ | _ | applied | _ | _ | _ | _ <;> simp only [hstage] at h
  · -- the wallet
    rcases hres : chargeWallet env (s.books (.wallet j.info.userId)) j.task.quota with
      ⟨e | ok, c⟩ <;> rw [hres] at h
    · cases h
      exact .quiet hj rfl fun hnonneg => (le_antisymm (chargeWallet_error hres) hnonneg).symm
    · cases h
      refine .charge hj rfl fun hzero => ?_
      rw [chargeWallet_ok hres, hzero, sub_zero]
  · -- the token, unless it is the playground
    split at h
    · cases h
      exact .quiet hj rfl fun _ => rfl
    · rcases hres : chargeToken env (s.books (.token j.info.tokenId)) j.task.quota with
        ⟨e | ok, c⟩ <;> rw [hres] at h
      · cases h
        exact .quiet hj rfl fun _ => rfl
      · cases h
        refine .charge hj rfl fun hzero => ?_
        rw [chargeToken_ok hres, hzero, sub_zero]
  · cases h
    exact .mark hj rfl rfl rfl
  · cases h
    exact .mark hj rfl rfl rfl
  · cases h
    refine .charge hj rfl fun hzero => ?_
    rw [(updateUsedQuota_moves rfl).balance, hzero, add_zero]
  · cases h
    refine .charge hj rfl fun hzero => ?_
    rw [(updateUsedQuota_moves rfl).balance, hzero, add_zero]
  · simp at h

theorem next_channel {p : MjPass} {channelId : Nat} {reply : MjChannelReply}
    (hp : s.passes[i]? = some p) (h : s.channelNext i p channelId reply = some t) :
    Next env s (.channel i channelId reply) t := by
  unfold channelNext at h
  split at h
  · simp at h
  · cases htasks : p.taskChannelM.find channelId with
    | none => simp [htasks] at h
    | some tasks =>
      simp only [htasks] at h
      cases reply with
      | gone =>
        cases h
        exact .gone hp ⟨rfl, rfl⟩ htasks
      | unreachable =>
        cases h
        exact .answer hp ⟨rfl, rfl⟩
      | items responseItems =>
        cases h
        exact .answer hp ⟨rfl, rfl⟩

theorem next_item {p : MjPass} {rest : List MidjourneyDto} {now : Int} (hp : s.passes[i]? = some p)
    (hitem : p.responseItems = item :: rest) :
    Next env s (.item i now)
      { s with
        rows := (pollItem env s.rows { p with responseItems := rest } item now).2
        passes :=
          s.passes.set i (pollItem env s.rows { p with responseItems := rest } item now).1 } := by
  unfold pollItem
  cases htask : p.taskM.find item.mjId with
  | none => exact .skip hp ⟨rfl, rfl⟩
  | some task =>
    dsimp only
    split
    · exact .skip hp ⟨rfl, rfl⟩
    · next hneed => exact .item hp hitem htask (by simpa using hneed)

theorem next_giveBack {p : MjPass} {task : Midjourney} (hp : s.passes[i]? = some p)
    (hreturn : p.returning = some task)
    (h : (match increaseUserQuota env.quota storesUp (s.books (.wallet task.userId)) task.quota with
      | (.ok (), c) => some ({ s with
          passes := s.passes.set i { p with returning := none } }.post (.giveBack task.id)
            (.wallet task.userId) c)
      | (.error _, _) => some { s with
          passes := s.passes.set i { p with returning := none } }) = some t) :
    Next env s (.giveBack i) t := by
  rcases hres : increaseUserQuota env.quota storesUp (s.books (.wallet task.userId)) task.quota with
    ⟨e | ok, c⟩ <;> rw [hres] at h
  · cases h
    exact .refused hp rfl rfl
  · cases h
    exact .giveBack hp hreturn rfl rfl (increaseUserQuota_ok hres).2.balance

theorem next_of_step (h : step env s a = some t) : Next env s a t := by
  cases a with
  | submit info handler r channelId quota id =>
    simp only [step] at h
    split at h
    · simp at h
    · split at h
      · simp at h
      · rename_i rows hrows
        cases h
        exact .submit hrows
  | settle i =>
    simp only [step] at h
    split at h
    · simp at h
    · rename_i j hj
      split at h
      · simp at h
      · rename_i s' j' hnext
        cases h
        exact next_settle hj hnext
  | load =>
    cases h
    exact .load
  | failNull i =>
    simp only [step] at h
    split at h
    · simp at h
    · rename_i p hp
      cases h
      exact .failNull hp ⟨rfl, rfl⟩
  | channel i channelId reply =>
    simp only [step] at h
    split at h
    · simp at h
    · next p hp => exact next_channel hp h
  | item i now =>
    simp only [step] at h
    split at h
    · simp at h
    · rename_i p hp
      split at h
      · rename_i item rest hitem _
        cases h
        exact next_item hp hitem
      · simp at h
  | giveBack i =>
    simp only [step] at h
    split at h
    · simp at h
    · rename_i p hp
      split at h
      · simp at h
      · next task hreturn => exact next_giveBack hp hreturn h
  | notifyRead item =>
    simp only [step] at h
    split at h
    · simp at h
    · rename_i task htask
      cases h
      exact .notifyRead (List.mem_of_mem_filter (List.argmin_mem htask))
  | notifyWrite i =>
    simp only [step] at h
    split at h
    · simp at h
    · rename_i copy hcopy
      cases h
      exact .notifyWrite hcopy
  | other account delta =>
    cases h
    exact .other

/-! ### One task, one quota -/

inductive Recorded (s : MjSystem) : Midjourney → Prop
  | row {task} (h : task ∈ s.rows.rows) : Recorded s task
  | submission {j} (h : j ∈ s.submissions) : Recorded s j.task
  | polled {p task} (hp : p ∈ s.passes) (h : task ∈ p.taskM.rows) : Recorded s task
  | returning {p task} (hp : p ∈ s.passes) (h : p.returning = some task) : Recorded s task
  | notify {task} (h : task ∈ s.notifies) : Recorded s task

def Traced (s : MjSystem) (task : Midjourney) : Prop :=
  ∃ old, Recorded s old ∧ old.id = task.id ∧ old.quota = task.quota

theorem Recorded.traced {task : Midjourney} (h : Recorded s task) : Traced s task :=
  ⟨task, h, rfl, rfl⟩

/-- What the ledger says of a task: nothing without a quota, and only wallets get anything back. -/
def MoveOK (s : MjSystem) (m : MjMove) : Prop :=
  ∀ id, m.cause = .charge id ∨ m.cause = .giveBack id →
    ∃ row, s.rows.find id = some row ∧ (row.quota = 0 → m.delta = 0) ∧
      (m.cause = .giveBack id → ∃ userId, m.account = .wallet userId)

structure Sound (s : MjSystem) : Prop where
  agree : ∀ task task', Recorded s task → Recorded s task' → task.id = task'.id →
    task.quota = task'.quota
  known : ∀ task, Recorded s task → ∃ row, s.rows.find task.id = some row
  nonneg : ∀ task, Recorded s task → 0 ≤ task.quota
  moves : ∀ m ∈ s.moves, MoveOK s m

/-- A step that submits nothing: no new task, and no task lost. -/
structure Follows (s t : MjSystem) : Prop where
  traced : ∀ task, Recorded t task → Traced s task
  kept : ∀ id row, s.rows.find id = some row → ∃ row', t.rows.find id = some row'

theorem recorded_of_find {id : Nat} {row : Midjourney} (h : s.rows.find id = some row) :
    Recorded s row :=
  .row (Table.mem_of_find h)

theorem Follows.quota_eq (hs : Sound s) (h : Follows s t) {id : Nat} {row row' : Midjourney}
    (hrow : s.rows.find id = some row) (hrow' : t.rows.find id = some row') :
    row'.quota = row.quota := by
  obtain ⟨old, hold, hid, hquota⟩ := h.traced row' (recorded_of_find hrow')
  have hsame : old.id = row.id := by
    rw [hid, Table.key_of_find hrow', Table.key_of_find hrow]
  rw [← hquota]
  exact hs.agree old row hold (recorded_of_find hrow) hsame

theorem Follows.moveOK (hs : Sound s) (h : Follows s t) {m : MjMove} (hm : MoveOK s m) :
    MoveOK t m := by
  intro id hcause
  obtain ⟨row, hrow, hzero, hwallet⟩ := hm id hcause
  obtain ⟨row', hrow'⟩ := h.kept id row hrow
  refine ⟨row', hrow', ?_, hwallet⟩
  rw [h.quota_eq hs hrow hrow']
  exact hzero

theorem Follows.sound (hs : Sound s) (h : Follows s t) (hmoves : ∀ m ∈ t.moves, MoveOK s m) :
    Sound t where
  agree := by
    intro task task' htask htask' hid
    obtain ⟨old, hold, hold_id, hold_quota⟩ := h.traced task htask
    obtain ⟨old', hold', hold_id', hold_quota'⟩ := h.traced task' htask'
    rw [← hold_quota, ← hold_quota']
    exact hs.agree old old' hold hold' (by rw [hold_id, hold_id', hid])
  known := by
    intro task htask
    obtain ⟨old, hold, hid, -⟩ := h.traced task htask
    obtain ⟨row, hrow⟩ := hs.known old hold
    exact h.kept task.id row (hid ▸ hrow)
  nonneg := by
    intro task htask
    obtain ⟨old, hold, -, hquota⟩ := h.traced task htask
    rw [← hquota]
    exact hs.nonneg old hold
  moves := fun m hm => h.moveOK hs (hmoves m hm)

/-! ### Who writes which rows -/

theorem updateBillingState_cases (rows : Table Midjourney.id) (copy : Midjourney) :
    updateBillingState rows copy = rows ∨
      ∃ row, rows.find copy.id = some row ∧ updateBillingState rows copy =
        rows.save { row with
          quota := copy.quota
          tokenId := copy.tokenId
          billingChannelId := copy.billingChannelId } := by
  unfold updateBillingState
  rcases rows.update_cases copy.id (fun _ => true) _ with ⟨row, hrow, -, heq⟩ | ⟨-, heq⟩
  · exact .inr ⟨row, hrow, by rw [heq]⟩
  · exact .inl (by rw [heq])

theorem updateWithStatus_cases (env : MjEnv) (rows : Table Midjourney.id) (copy : Midjourney)
    (fromStatus : String) :
    ((updateWithStatus env rows copy fromStatus).1 = false ∧
        (updateWithStatus env rows copy fromStatus).2 = rows) ∨
      ∃ row, rows.find copy.id = some row ∧ row.status = fromStatus ∧
        (updateWithStatus env rows copy fromStatus).1 = updateWins env row copy fromStatus ∧
        (updateWithStatus env rows copy fromStatus).2 = rows.save copy := by
  unfold updateWithStatus
  cases hrow : rows.find copy.id with
  | none => exact .inl ⟨rfl, rfl⟩
  | some row =>
    by_cases hstatus : row.status = fromStatus
    · exact .inr ⟨row, rfl, hstatus, rfl, if_pos hstatus⟩
    · exact .inl ⟨by simp [updateWins, hstatus], if_neg hstatus⟩

theorem polled_id (task : Midjourney) (item : MidjourneyDto) :
    (task.polled env item).id = task.id := by
  unfold Midjourney.polled
  split <;> rfl

theorem polled_quota (task : Midjourney) (item : MidjourneyDto) :
    (task.polled env item).quota = task.quota := by
  unfold Midjourney.polled
  split <;> rfl

theorem mem_load {tasks : List Midjourney} {P : Midjourney → Prop} :
    ∀ p : MjPass, (∀ task ∈ p.taskM.rows, P task) → (∀ task ∈ tasks, P task) →
      ∀ task ∈ (tasks.foldl MjPass.add p).taskM.rows, P task := by
  induction tasks with
  | nil =>
    intro p hp _
    exact hp
  | cons head rest ih =>
    intro p hp htasks
    have hadd : ∀ task ∈ (p.add head).taskM.rows, P task := by
      unfold MjPass.add
      split
      · exact hp
      · exact Table.forall_put hp (htasks head (by simp))
    exact ih (p.add head) hadd fun task h => htasks task (List.mem_cons_of_mem head h)

theorem returning_load (tasks : List Midjourney) :
    ∀ p : MjPass, p.returning = none → (tasks.foldl MjPass.add p).returning = none := by
  induction tasks with
  | nil =>
    intro p hp
    exact hp
  | cons head rest ih =>
    intro p hp
    refine ih (p.add head) ?_
    unfold MjPass.add
    split <;> exact hp

/-! ### Every step but a submission follows -/

structure PassTraced (s : MjSystem) (p : MjPass) : Prop where
  polled : ∀ task ∈ p.taskM.rows, Traced s task
  returning : ∀ task, p.returning = some task → Traced s task

theorem passTraced {p : MjPass} (h : p ∈ s.passes) : PassTraced s p :=
  ⟨fun _ htask => (Recorded.polled h htask).traced,
    fun _ htask => (Recorded.returning h htask).traced⟩

theorem PassTraced.same {p : MjPass} (h : PassTraced s p) (hsame : SamePass p p') :
    PassTraced s p' :=
  ⟨hsame.1 ▸ h.polled, hsame.2 ▸ h.returning⟩

theorem PassTraced.set (h : PassTraced s p') : ∀ p ∈ s.passes.set i p', PassTraced s p := by
  intro p hp
  rcases Pool.mem_set_cases hp with rfl | ⟨k, -, hk⟩
  · exact h
  · exact passTraced (List.mem_of_getElem? hk)

theorem traced_set (h : Traced s j'.task) : ∀ j ∈ s.submissions.set i j', Traced s j.task := by
  intro j hj
  rcases Pool.mem_set_cases hj with rfl | ⟨k, -, hk⟩
  · exact h
  · exact (Recorded.submission (List.mem_of_getElem? hk)).traced

theorem follows_of (hrows : ∀ task ∈ t.rows.rows, Traced s task)
    (hsubmissions : ∀ j ∈ t.submissions, Traced s j.task)
    (hpasses : ∀ p ∈ t.passes, PassTraced s p) (hnotifies : ∀ task ∈ t.notifies, Traced s task)
    (hkept : ∀ id row, s.rows.find id = some row → ∃ row', t.rows.find id = some row') :
    Follows s t where
  traced := by
    intro task h
    cases h with
    | row h => exact hrows task h
    | submission h => exact hsubmissions _ h
    | polled hp h => exact (hpasses _ hp).polled task h
    | returning hp h => exact (hpasses _ hp).returning task h
    | notify h => exact hnotifies task h
  kept := hkept

theorem traced_rows (s : MjSystem) : ∀ task ∈ s.rows.rows, Traced s task :=
  fun _ h => (Recorded.row h).traced

theorem traced_submissions (s : MjSystem) : ∀ j ∈ s.submissions, Traced s j.task :=
  fun _ h => (Recorded.submission h).traced

theorem traced_notifies (s : MjSystem) : ∀ task ∈ s.notifies, Traced s task :=
  fun _ h => (Recorded.notify h).traced

theorem kept_rows (h : t.rows = s.rows) :
    ∀ id row, s.rows.find id = some row → ∃ row', t.rows.find id = some row' :=
  fun _ row hrow => ⟨row, h ▸ hrow⟩

theorem kept_save (h : t.rows = s.rows.save copy) :
    ∀ id row, s.rows.find id = some row → ∃ row', t.rows.find id = some row' := by
  intro id row hrow
  rw [h]
  exact Table.exists_find_save hrow

variable {passes : List MjPass} {hit : Midjourney → Bool} {reason : Option String} {mjId : String}
  {delta : Int}

theorem follows_passes (h : ∀ p ∈ passes, PassTraced s p) : Follows s { s with passes := passes } :=
  follows_of (traced_rows s) (traced_submissions s) h (traced_notifies s) (kept_rows rfl)

theorem follows_submission (h : Traced s j'.task) :
    Follows s { s with submissions := s.submissions.set i j' } :=
  follows_of (traced_rows s) (traced_set h) (fun _ hp => passTraced hp) (traced_notifies s)
    (kept_rows rfl)

theorem follows_bulk (h : ∀ p ∈ passes, PassTraced s p) :
    Follows s { s with rows := mjBulkUpdate s.rows hit reason, passes := passes } := by
  refine follows_of ?_ (traced_submissions s) h (traced_notifies s) ?_
  · intro task htask
    obtain ⟨row, hrow, rfl⟩ := List.mem_map.mp htask
    refine ⟨row, .row hrow, ?_⟩
    split <;> exact ⟨rfl, rfl⟩
  · intro id row hrow
    exact ⟨_, by rw [mjBulkUpdate, Table.find_mapRows, hrow, Option.map_some]⟩

theorem follows_mark {j : MjSubmission} (hj : s.submissions[i]? = some j) (htask : j'.task = copy)
    (hid : copy.id = j.task.id) (hquota : copy.quota = j.task.quota) :
    Follows s { s with
      rows := updateBillingState s.rows copy
      submissions := s.submissions.set i j' } := by
  have htraced : Traced s copy :=
    ⟨j.task, .submission (List.mem_of_getElem? hj), hid.symm, hquota.symm⟩
  have hpasses : ∀ p ∈ s.passes, PassTraced s p := fun _ hp => passTraced hp
  rcases updateBillingState_cases s.rows copy with heq | ⟨row, hrow, heq⟩
  · refine follows_of ?_ (traced_set (htask ▸ htraced)) hpasses (traced_notifies s) (kept_rows heq)
    rw [heq]
    exact traced_rows s
  · refine follows_of ?_ (traced_set (htask ▸ htraced)) hpasses (traced_notifies s) (kept_save heq)
    rw [heq]
    refine Table.forall_save (traced_rows s) ?_
    obtain ⟨old, hold, hold_id, hold_quota⟩ := htraced
    exact ⟨old, hold, hold_id.trans (Table.key_of_find hrow).symm, hold_quota⟩

theorem traced_polled {p : MjPass} {task : Midjourney} (hp : s.passes[i]? = some p)
    (htask : p.taskM.find mjId = some task) (item : MidjourneyDto) :
    Traced s (task.polled env item) := by
  refine ⟨task, .polled (List.mem_of_getElem? hp) (Table.mem_of_find htask), ?_, ?_⟩
  · rw [polled_id]
  · rw [polled_quota]

theorem follows_item {p : MjPass} {task : Midjourney} (hp : s.passes[i]? = some p)
    (htask : p.taskM.find mjId = some task)
    (htaskM : p'.taskM = p.taskM.save (task.polled env item))
    (hreturn : ∀ copy, p'.returning = some copy → copy = task.polled env item) :
    Follows s { s with
      rows := (updateWithStatus env s.rows (task.polled env item) task.status).2
      passes := s.passes.set i p' } := by
  have htraced : Traced s (task.polled env item) := traced_polled hp htask item
  have hpass : PassTraced s p' := by
    refine ⟨?_, fun copy hcopy => hreturn copy hcopy ▸ htraced⟩
    rw [htaskM]
    exact Table.forall_save (passTraced (List.mem_of_getElem? hp)).polled htraced
  rcases updateWithStatus_cases env s.rows (task.polled env item) task.status with
    ⟨-, heq⟩ | ⟨row, -, -, -, heq⟩
  · refine follows_of ?_ (traced_submissions s) hpass.set (traced_notifies s) (kept_rows heq)
    rw [heq]
    exact traced_rows s
  · refine follows_of ?_ (traced_submissions s) hpass.set (traced_notifies s) (kept_save heq)
    rw [heq]
    exact Table.forall_save (traced_rows s) htraced

/-! ### Every run is sound -/

theorem Follows.post {u : MjSystem} (h : Follows s t) (hrows : u.rows = t.rows)
    (hsubmissions : u.submissions = t.submissions) (hpasses : u.passes = t.passes)
    (hnotifies : u.notifies = t.notifies) : Follows s u := by
  refine ⟨fun task htask => h.traced task ?_, fun id row hrow => hrows ▸ h.kept id row hrow⟩
  cases htask with
  | row hmem => exact .row (hrows ▸ hmem)
  | submission hmem => exact .submission (hsubmissions ▸ hmem)
  | polled hp hmem => exact .polled (hpasses ▸ hp) hmem
  | returning hp hmem => exact .returning (hpasses ▸ hp) hmem
  | notify hmem => exact .notify (hnotifies ▸ hmem)

theorem moveOK_charge (hs : Sound s) {task : Midjourney} (htask : Recorded s task)
    (hdelta : task.quota = 0 → delta = 0) : MoveOK s ⟨.charge task.id, account, delta⟩ := by
  intro id hcause
  obtain ⟨row, hrow⟩ := hs.known task htask
  rcases hcause with hid | hid
  · obtain rfl := MjCause.charge.inj hid
    refine ⟨row, hrow, fun hzero => hdelta ?_, by simp⟩
    rw [hs.agree task row htask (recorded_of_find hrow) (Table.key_of_find hrow).symm, hzero]
  · simp at hid

theorem moveOK_giveBack (hs : Sound s) {task : Midjourney} (htask : Recorded s task) {userId : Nat}
    (hdelta : task.quota = 0 → delta = 0) :
    MoveOK s ⟨.giveBack task.id, .wallet userId, delta⟩ := by
  intro id hcause
  obtain ⟨row, hrow⟩ := hs.known task htask
  rcases hcause with hid | hid
  · simp at hid
  · obtain rfl := MjCause.giveBack.inj hid
    refine ⟨row, hrow, fun hzero => hdelta ?_, fun _ => ⟨userId, rfl⟩⟩
    rw [hs.agree task row htask (recorded_of_find hrow) (Table.key_of_find hrow).symm, hzero]

theorem sound_submit (hs : Sound s) {j : MjSubmission} (hrows : s.rows.insert j.task = some rows)
    (hquota : 0 ≤ j.task.quota) :
    Sound { s with rows := rows, submissions := s.submissions ++ [j] } := by
  have hfresh : s.rows.find j.task.id = none := Table.find_of_insert hrows
  have hold : ∀ id row, s.rows.find id = some row → rows.find id = some row := by
    intro id row hrow
    have hne : j.task.id ≠ id := by
      rintro rfl
      simp [hfresh] at hrow
    rw [Table.find_insert_ne hrows hne, hrow]
  have hrecorded : ∀ task,
      Recorded { s with rows := rows, submissions := s.submissions ++ [j] } task →
        task = j.task ∨ Recorded s task := by
    intro task htask
    cases htask with
    | row hmem =>
      by_cases hid : j.task.id = task.id
      · have hfind := Table.find_of_mem hmem
        rw [← hid, Table.find_insert_self hrows] at hfind
        exact .inl (Option.some.inj hfind).symm
      · have hfind := Table.find_of_mem hmem
        rw [Table.find_insert_ne hrows hid] at hfind
        exact .inr (recorded_of_find hfind)
    | submission hmem =>
      rcases List.mem_append.mp hmem with hmem | hmem
      · exact .inr (.submission hmem)
      · exact .inl (by rw [List.mem_singleton.mp hmem])
    | polled hp hmem => exact .inr (.polled hp hmem)
    | returning hp hmem => exact .inr (.returning hp hmem)
    | notify hmem => exact .inr (.notify hmem)
  -- nothing recorded before has the new id
  have hne : ∀ task, Recorded s task → task.id ≠ j.task.id := by
    intro task htask hid
    obtain ⟨row, hrow⟩ := hs.known task htask
    simp [hid, hfresh] at hrow
  refine ⟨?_, ?_, ?_, ?_⟩
  · intro task task' htask htask' hid
    rcases hrecorded task htask with rfl | htask <;> rcases hrecorded task' htask' with rfl | htask'
    · rfl
    · exact absurd hid.symm (hne task' htask')
    · exact absurd hid (hne task htask)
    · exact hs.agree task task' htask htask' hid
  · intro task htask
    rcases hrecorded task htask with rfl | htask
    · exact ⟨j.task, Table.find_insert_self hrows⟩
    · obtain ⟨row, hrow⟩ := hs.known task htask
      exact ⟨row, hold task.id row hrow⟩
  · intro task htask
    rcases hrecorded task htask with rfl | htask
    · exact hquota
    · exact hs.nonneg task htask
  · intro m hm id hcause
    obtain ⟨row, hrow, hrest⟩ := hs.moves m hm id hcause
    exact ⟨row, hold id row hrow, hrest⟩

theorem next_follows (hs : Sound s) (h : Next env s a t)
    (ha : ¬Submits a) :
    Follows s t ∧ ∀ m ∈ t.moves, MoveOK s m := by
  cases h with
  | submit hrows => exact absurd ⟨_, _, _, _, _, _, rfl⟩ ha
  | @charge i j j' account c hj htask hc =>
    have hrec : Recorded s j.task := .submission (List.mem_of_getElem? hj)
    refine ⟨(follows_submission (htask.symm ▸ hrec.traced)).post rfl rfl rfl rfl, ?_⟩
    refine List.forall_mem_cons.mpr ⟨moveOK_charge hs hrec fun hzero => ?_, hs.moves⟩
    rw [hc hzero, sub_self]
  | @quiet i j j' hj hid hquota =>
    have hrec : Recorded s j.task := .submission (List.mem_of_getElem? hj)
    exact ⟨follows_submission ⟨j.task, hrec, hid.symm, (hquota (hs.nonneg _ hrec)).symm⟩,
      hs.moves⟩
  | mark hj htask hid hquota => exact ⟨follows_mark hj htask hid hquota, hs.moves⟩
  | load =>
    refine ⟨follows_passes ?_, hs.moves⟩
    intro p hp
    rcases List.mem_append.mp hp with hp | hp
    · exact passTraced hp
    · obtain rfl := List.mem_singleton.mp hp
      refine ⟨mem_load _ (by simp [MjPass.empty]) ?_, ?_⟩
      · intro task htask
        exact traced_rows s task (List.mem_of_mem_filter (List.mem_reverse.mp htask))
      · intro task htask
        rw [MjPass.load, returning_load _ _ rfl] at htask
        simp at htask
  | failNull hp hsame =>
    exact ⟨follows_bulk ((passTraced (List.mem_of_getElem? hp)).same hsame).set, hs.moves⟩
  | gone hp hsame htasks =>
    exact ⟨follows_bulk ((passTraced (List.mem_of_getElem? hp)).same hsame).set, hs.moves⟩
  | answer hp hsame =>
    exact ⟨follows_passes ((passTraced (List.mem_of_getElem? hp)).same hsame).set, hs.moves⟩
  | skip hp hsame =>
    exact ⟨follows_passes ((passTraced (List.mem_of_getElem? hp)).same hsame).set, hs.moves⟩
  | item hp hitem htask hneed =>
    refine ⟨follows_item hp htask rfl ?_, hs.moves⟩
    intro copy hcopy
    split at hcopy
    · exact (Option.some.inj hcopy).symm
    · simp at hcopy
  | @giveBack i p p' task c hp hreturn htaskM hdone hc =>
    have hmem : p ∈ s.passes := List.mem_of_getElem? hp
    have hpass : PassTraced s p' := by
      refine ⟨htaskM ▸ (passTraced hmem).polled, ?_⟩
      simp [hdone]
    refine ⟨(follows_passes hpass.set).post rfl rfl rfl rfl, ?_⟩
    refine List.forall_mem_cons.mpr
      ⟨moveOK_giveBack hs (.returning hmem hreturn) fun hzero => ?_, hs.moves⟩
    rw [hc, hzero, add_zero, sub_self]
  | @refused i p p' hp htaskM hdone =>
    have hpass : PassTraced s p' := by
      refine ⟨htaskM ▸ (passTraced (List.mem_of_getElem? hp)).polled, ?_⟩
      simp [hdone]
    exact ⟨follows_passes hpass.set, hs.moves⟩
  | @notifyRead item task htask =>
    refine ⟨follows_of (traced_rows s) (traced_submissions s) (fun _ hp => passTraced hp) ?_
      (kept_rows rfl), hs.moves⟩
    intro copy hcopy
    rcases List.mem_append.mp hcopy with hcopy | hcopy
    · exact traced_notifies s copy hcopy
    · obtain rfl := List.mem_singleton.mp hcopy
      exact ⟨task, .row htask, rfl, rfl⟩
  | @notifyWrite i copy hcopy =>
    have htraced : Traced s copy := traced_notifies s copy (List.mem_of_getElem? hcopy)
    exact ⟨follows_of (Table.forall_save (traced_rows s) htraced) (traced_submissions s)
      (fun _ hp => passTraced hp)
      (fun task htask => traced_notifies s task (List.mem_of_mem_eraseIdx htask))
      (kept_save rfl), hs.moves⟩
  | other =>
    refine ⟨(follows_passes fun _ hp => passTraced hp).post rfl rfl rfl rfl, ?_⟩
    refine List.forall_mem_cons.mpr ⟨?_, hs.moves⟩
    intro id hcause
    simp at hcause

theorem submission_nonneg (info : MjRelayInfo) (handler : MjHandler) (r : MjResponse)
    (channelId : Nat) (quota : Int) (id : Nat) :
    0 ≤ (handler.submission info r channelId quota id).task.quota := by
  rw [MjHandler.submission_task]
  exact (prepareMidjourneyTaskBilling_spec _ _ _ _).2

theorem sound_step (hs : Sound s) (h : step env s a = some t) : Sound t := by
  have hnext := next_of_step h
  by_cases ha : Submits a
  · obtain ⟨info, handler, r, channelId, quota, id, rfl⟩ := ha
    cases hnext with
    | submit hrows => exact sound_submit hs hrows (submission_nonneg _ _ _ _ _ _)
  · obtain ⟨hfollows, hmoves⟩ := next_follows hs hnext ha
    exact hfollows.sound hs hmoves

theorem sound_start (books : MjAccount → QuotaColumn) : Sound (start books) := by
  have hnone : ∀ task, ¬Recorded (start books) task := by
    intro task htask
    cases htask <;> simp_all [start]
  exact ⟨fun task _ h _ _ => absurd h (hnone task), fun task h => absurd h (hnone task),
    fun task h => absurd h (hnone task), by simp [start]⟩

/-! ### A task that nobody fails -/

/--
The step moves task `id` to a failure: a bulk update hits its row, a notification writes
`FAILURE` at the end, or a pass wins its update with an answer that is a failure.
-/
def Fails (env : MjEnv) (s : MjSystem) (id : Nat) : MjAct → Prop
  | .failNull i => ∃ p, s.passes[i]? = some p ∧ id ∈ p.nullTaskIds
  | .channel i channelId .gone => ∃ p tasks row, s.passes[i]? = some p ∧
      p.taskChannelM.find channelId = some tasks ∧ s.rows.find id = some row ∧
      row.mjId ∈ tasks.mjIds
  | .item i now => ∃ p item rest task row, s.passes[i]? = some p ∧
      p.responseItems = item :: rest ∧ p.taskM.find item.mjId = some task ∧ task.id = id ∧
      checkMjTaskNeedUpdate env task (timedOut task item now) = true ∧
      (timedOut task item now).failed = true ∧ s.rows.find id = some row ∧
      updateWins env row (task.polled env (timedOut task item now)) task.status = true
  | .notifyWrite i => ∃ copy, s.notifies[i]? = some copy ∧ copy.id = id ∧
      copy.finishedFailure = true
  | _ => False

/-- A task with a quota is not failed by the step. -/
def Keeps (env : MjEnv) (id : Nat) (s : MjSystem) (a : MjAct) : Prop :=
  ∀ row, s.rows.find id = some row → row.quota ≠ 0 → ¬Fails env s id a

/-- Nobody has failed the task, has given anything back for it, or is about to. -/
structure SparedTask (s : MjSystem) (id : Nat) (row : Midjourney) : Prop where
  row : row.finishedFailure = false
  moves : ∀ m ∈ s.moves, m.cause ≠ .giveBack id
  returning : ∀ p ∈ s.passes, ∀ task, p.returning = some task → task.id ≠ id

def Spared (id : Nat) (s : MjSystem) : Prop :=
  ∀ row, s.rows.find id = some row → row.quota ≠ 0 → SparedTask s id row

variable {id : Nat} {row row' : Midjourney}

theorem polled_not_failure {task : Midjourney} (h : item.failed = false) :
    (task.polled env item).finishedFailure = false := by
  unfold Midjourney.polled
  rw [if_neg (by simp [h])]
  simp only [MidjourneyDto.failed, decide_eq_false_iff_not, not_or, not_and] at h
  by_cases hend : item.progress = "100%"
  · have hstatus := h.2 hend
    simp [Midjourney.finishedFailure, Midjourney.answered, hstatus]
  · simp [Midjourney.finishedFailure, Midjourney.finished, Midjourney.answered, hend]

theorem eq_of_not_wins {fromStatus : String} (hstatus : row.status = fromStatus)
    (h : updateWins env row copy fromStatus = false) : row = copy := by
  simp only [updateWins, hstatus, beq_self_eq_true, Bool.true_and, Bool.or_eq_false_iff,
    bne_eq_false_iff_eq] at h
  exact h.2

theorem find_mjBulkUpdate (hrow : rows.find id = some row) (hmiss : hit row = false) :
    (mjBulkUpdate rows hit reason).find id = some row := by
  rw [mjBulkUpdate, Table.find_mapRows, hrow]
  simp [hmiss]

theorem updateBillingState_failure (hrow : rows.find id = some row)
    (hrow' : (updateBillingState rows copy).find id = some row') :
    row'.finishedFailure = row.finishedFailure := by
  have hfind := rows.find_update copy.id id (fun _ => true) (f := fun row => { row with
    quota := copy.quota
    tokenId := copy.tokenId
    billingChannelId := copy.billingChannelId }) fun _ => rfl
  rw [updateBillingState, hfind, hrow] at hrow'
  split at hrow' <;>
    · cases hrow'
      rfl

theorem next_row (h : Next env s a t) (hfails : ¬Fails env s id a)
    (ha : ¬Submits a)
    (hrow : s.rows.find id = some row) (hgood : row.finishedFailure = false)
    (hrow' : t.rows.find id = some row') : row'.finishedFailure = false := by
  have hsame : s.rows.find id = some row' → row'.finishedFailure = false := by
    intro hfound
    rw [hrow] at hfound
    exact Option.some.inj hfound ▸ hgood
  cases h with
  | submit hrows => exact absurd ⟨_, _, _, _, _, _, rfl⟩ ha
  | charge hj htask hc => exact hsame hrow'
  | quiet hj hid hquota => exact hsame hrow'
  | mark hj htask hid hquota => rw [updateBillingState_failure hrow hrow', hgood]
  | load => exact hsame hrow'
  | @failNull i p p' hp _ =>
    have hmiss : decide (row.id ∈ p.nullTaskIds) = false := by
      rw [Table.key_of_find hrow, decide_eq_false_iff_not]
      exact fun hmem => hfails ⟨p, hp, hmem⟩
    rw [find_mjBulkUpdate hrow hmiss] at hrow'
    exact Option.some.inj hrow' ▸ hgood
  | @gone i p p' channelId tasks hp _ htasks =>
    have hmiss : decide (row.mjId ∈ tasks.mjIds) = false := by
      rw [decide_eq_false_iff_not]
      exact fun hmem => hfails ⟨p, tasks, row, hp, htasks, hrow, hmem⟩
    rw [find_mjBulkUpdate hrow hmiss] at hrow'
    exact Option.some.inj hrow' ▸ hgood
  | answer hp _ => exact hsame hrow'
  | skip hp _ => exact hsame hrow'
  | @item i p item rest task now hp hitem htask hneed =>
    rcases updateWithStatus_cases env s.rows (task.polled env (timedOut task item now))
      task.status with ⟨-, heq⟩ | ⟨old, hold, hstatus, -, heq⟩
    · exact hsame (heq ▸ hrow')
    · simp only [heq] at hrow'
      by_cases hid : (task.polled env (timedOut task item now)).id = id
      · rw [hid, hrow] at hold
        cases hold
        rw [← hid, Table.find_save_self (hid.symm ▸ hrow)] at hrow'
        cases hrow'
        cases hfailed : (timedOut task item now).failed with
        | false => exact polled_not_failure hfailed
        | true =>
          -- a failure that counts is what `Fails` excludes
          have hwins : updateWins env row (task.polled env (timedOut task item now))
              task.status = false := by
            by_contra hwins
            exact hfails ⟨p, item, rest, task, row, hp, hitem, htask, polled_id task _ ▸ hid,
              hneed, hfailed, hrow, by simpa using hwins⟩
          exact eq_of_not_wins hstatus hwins ▸ hgood
      · rw [Table.find_save_ne hid] at hrow'
        exact hsame hrow'
  | giveBack hp hreturn htaskM hdone hc => exact hsame hrow'
  | refused hp htaskM hdone => exact hsame hrow'
  | notifyRead htask => exact hsame hrow'
  | @notifyWrite i copy hcopy =>
    by_cases hid : copy.id = id
    · simp only [← hid] at hrow'
      rw [Table.find_save_self (hid.symm ▸ hrow)] at hrow'
      obtain rfl := Option.some.inj hrow'
      by_contra hfailed
      exact hfails ⟨copy, hcopy, hid, by simpa using hfailed⟩
    · exact hsame ((Table.find_save_ne hid).symm.trans hrow')
  | other => exact hsame hrow'

theorem next_moves (h : Next env s a t) (hmoves : ∀ m ∈ s.moves, m.cause ≠ .giveBack id)
    (hreturning : ∀ p ∈ s.passes, ∀ task, p.returning = some task → task.id ≠ id) :
    ∀ m ∈ t.moves, m.cause ≠ .giveBack id := by
  cases h with
  | charge hj htask hc => exact List.forall_mem_cons.mpr ⟨by simp, hmoves⟩
  | @giveBack i p p' task c hp hreturn htaskM hdone hc =>
    have hne : task.id ≠ id := hreturning p (List.mem_of_getElem? hp) task hreturn
    exact List.forall_mem_cons.mpr ⟨by simpa using hne, hmoves⟩
  | other => exact List.forall_mem_cons.mpr ⟨by simp, hmoves⟩
  | _ => exact hmoves

theorem next_returning (h : Next env s a t) (hfails : ¬Fails env s id a)
    (hreturning : ∀ p ∈ s.passes, ∀ task, p.returning = some task → task.id ≠ id) :
    ∀ p ∈ t.passes, ∀ task, p.returning = some task → task.id ≠ id := by
  have hset : ∀ (i : Nat) (p' : MjPass), (∀ task, p'.returning = some task → task.id ≠ id) →
      ∀ p ∈ s.passes.set i p', ∀ task, p.returning = some task → task.id ≠ id := by
    intro i p' hp' p hp
    rcases Pool.mem_set_cases hp with rfl | ⟨k, -, hk⟩
    · exact hp'
    · exact hreturning p (List.mem_of_getElem? hk)
  have hsame : ∀ (i : Nat) (p p' : MjPass), s.passes[i]? = some p → SamePass p p' →
      ∀ p'' ∈ s.passes.set i p', ∀ task, p''.returning = some task → task.id ≠ id := by
    intro i p p' hp hsame
    exact hset i p' (hsame.2 ▸ hreturning p (List.mem_of_getElem? hp))
  cases h with
  | load =>
    intro p hp task htask
    rcases List.mem_append.mp hp with hp | hp
    · exact hreturning p hp task htask
    · rw [List.mem_singleton.mp hp, MjPass.load, returning_load _ _ rfl] at htask
      simp at htask
  | failNull hp h => exact hsame _ _ _ hp h
  | gone hp h htasks => exact hsame _ _ _ hp h
  | answer hp h => exact hsame _ _ _ hp h
  | skip hp h => exact hsame _ _ _ hp h
  | @item i p item rest task now hp hitem htask hneed =>
    refine hset _ _ ?_
    intro copy hcopy hid
    simp only [Option.ite_none_right_eq_some, Bool.and_eq_true, Option.some.injEq] at hcopy
    obtain ⟨⟨⟨hwon, hfailed⟩, -⟩, rfl⟩ := hcopy
    -- the pass is about to give back because it has won with a failure
    rcases updateWithStatus_cases env s.rows (task.polled env (timedOut task item now))
      task.status with ⟨hlost, -⟩ | ⟨row, hrow, -, hwins, -⟩
    · simp [hlost] at hwon
    · exact hfails ⟨p, item, rest, task, row, hp, hitem, htask, polled_id task _ ▸ hid, hneed,
        hfailed, hid ▸ hrow, hwins ▸ hwon⟩
  | giveBack hp hreturn htaskM hdone hc => exact hset _ _ (by simp [hdone])
  | refused hp htaskM hdone => exact hset _ _ (by simp [hdone])
  | _ => exact hreturning

theorem Follows.find_before (hs : Sound s) (h : Follows s t) (hrow' : t.rows.find id = some row') :
    ∃ row, s.rows.find id = some row ∧ row'.quota = row.quota := by
  obtain ⟨old, hold, hid, -⟩ := h.traced row' (recorded_of_find hrow')
  obtain ⟨row, hrow⟩ := hs.known old hold
  rw [hid, Table.key_of_find hrow'] at hrow
  exact ⟨row, hrow, h.quota_eq hs hrow hrow'⟩

theorem spared_submit (hs : Sound s) (hspared : Spared id s) {j : MjSubmission}
    (hrows : s.rows.insert j.task = some rows) (hgood : j.task.finishedFailure = false) :
    Spared id { s with rows := rows, submissions := s.submissions ++ [j] } := by
  intro row' hrow' hquota
  by_cases hid : j.task.id = id
  · subst hid
    have hfresh : s.rows.find j.task.id = none := Table.find_of_insert hrows
    refine ⟨?_, ?_, ?_⟩
    · rw [Table.find_insert_self hrows] at hrow'
      exact Option.some.inj hrow' ▸ hgood
    · intro m hm hcause
      obtain ⟨row, hrow, -⟩ := hs.moves m hm _ (.inr hcause)
      simp [hfresh] at hrow
    · intro p hp task htask heq
      obtain ⟨row, hrow⟩ := hs.known task (.returning hp htask)
      simp [heq, hfresh] at hrow
  · have hrow : s.rows.find id = some row' := (Table.find_insert_ne hrows hid).symm.trans hrow'
    obtain ⟨hrow_good, hmoves, hreturning⟩ := hspared row' hrow hquota
    exact ⟨hrow_good, hmoves, hreturning⟩

theorem spared_step (hs : Sound s) (hspared : Spared id s) (hkeeps : Keeps env id s a)
    (h : step env s a = some t) : Spared id t := by
  have hnext := next_of_step h
  by_cases ha : Submits a
  · obtain ⟨info, handler, r, channelId, quota, id', rfl⟩ := ha
    cases hnext with
    | submit hrows =>
      refine spared_submit hs hspared hrows ?_
      rw [MjHandler.submission_task]
      exact (prepareMidjourneyTaskBilling_spec _ _ _ _).1.trans
        (MjHandler.task_not_finishedFailure _ _ _ _)
  · intro row' hrow' hquota
    obtain ⟨row, hrow, hsame⟩ := (next_follows hs hnext ha).1.find_before hs hrow'
    rw [hsame] at hquota
    have hfails := hkeeps row hrow hquota
    obtain ⟨hgood, hmoves, hreturning⟩ := hspared row hrow hquota
    exact ⟨next_row hnext hfails ha hrow hgood hrow', next_moves hnext hmoves hreturning,
      next_returning hnext hfails hreturning⟩

/-! ### The law -/

/--
Once a task is finished as a failure, everything charged for it has been given back once;
once it is finished otherwise, nothing has.
-/
def Law (s : MjSystem) (id : Nat) : Prop :=
  ∀ row, s.rows.find id = some row → row.finished = true →
    (row.status = "FAILURE" → ∀ account, s.givenBack id account = (s.charged id account).map (-·)) ∧
    (row.status ≠ "FAILURE" → ∀ account, s.givenBack id account = [])

theorem givenBack_eq_nil
    (h : ∀ m ∈ s.moves, m.cause = .giveBack id → m.account = account → m.delta = 0) :
    s.givenBack id account = [] := by
  rw [givenBack, List.map_eq_nil_iff, List.filter_eq_nil_iff]
  intro m hm
  simp only [decide_eq_true_eq, not_and, not_not]
  exact h m hm

theorem charged_eq_nil (h : ∀ m ∈ s.moves, m.cause = .charge id → m.delta = 0) :
    s.charged id account = [] := by
  rw [charged, List.map_eq_nil_iff, List.filter_eq_nil_iff]
  intro m hm
  simp only [decide_eq_true_eq, not_and, not_not]
  exact fun hcause _ => h m hm hcause

theorem law_of_spared (hs : Sound s) (hspared : Spared id s) : s.Law id := by
  intro row hrow hfinished
  by_cases hquota : row.quota = 0
  · -- nothing was charged, and there is nothing to give back
    have hzero : ∀ m ∈ s.moves, m.cause = .charge id ∨ m.cause = .giveBack id → m.delta = 0 := by
      intro m hm hcause
      obtain ⟨row', hrow', hdelta, -⟩ := hs.moves m hm id hcause
      rw [hrow] at hrow'
      exact hdelta (Option.some.inj hrow' ▸ hquota)
    have hback : ∀ account, s.givenBack id account = [] := fun account =>
      givenBack_eq_nil fun m hm hcause _ => hzero m hm (.inr hcause)
    refine ⟨fun _ account => ?_, fun _ => hback⟩
    rw [hback, charged_eq_nil fun m hm hcause => hzero m hm (.inl hcause), List.map_nil]
  · obtain ⟨hgood, hmoves, -⟩ := hspared row hrow hquota
    refine ⟨fun hstatus => ?_, fun _ account => ?_⟩
    · simp [Midjourney.finishedFailure, hfinished, hstatus] at hgood
    · exact givenBack_eq_nil fun m hm hcause _ => absurd hcause (hmoves m hm)

theorem not_law_of_charged (hs : Sound s) (hrow : s.rows.find id = some row)
    (hfailed : row.finishedFailure = true) (haccount : ∀ userId, account ≠ .wallet userId)
    (hcharged : s.charged id account ≠ []) : ¬s.Law id := by
  intro hlaw
  simp only [Midjourney.finishedFailure, Bool.and_eq_true, beq_iff_eq] at hfailed
  have hback : s.givenBack id account = [] := by
    refine givenBack_eq_nil fun m hm hcause hacc => ?_
    obtain ⟨-, -, -, hwallet⟩ := hs.moves m hm id (.inr hcause)
    obtain ⟨userId, hwallet⟩ := hwallet hcause
    exact absurd (hacc.symm.trans hwallet) (haccount userId)
  have heq := (hlaw row hrow hfailed.1).1 hfailed.2 account
  rw [hback] at heq
  exact hcharged (List.map_eq_nil_iff.mp heq.symm)

/--
**What is given back for a task.** In every interleaving of submissions, passes and
notifications: if no step fails the task while it has a quota, then the law holds of it.  And
if the task is finished as a failure while its token or the statistics are charged for it,
then the law does not hold.
-/
theorem failure_gives_back (env : MjEnv) (books : MjAccount → QuotaColumn) (acts : List MjAct)
    (t : MjSystem) (id : Nat) (hrun : Machine.run (step env) (start books) acts = some t) :
    (Machine.Meets (step env) (Keeps env id) (start books) acts → t.Law id) ∧
      ∀ row account, t.rows.find id = some row → row.finishedFailure = true →
        (∀ userId, account ≠ .wallet userId) → t.charged id account ≠ [] → ¬t.Law id := by
  have hsound : Sound t :=
    Machine.run_preserves Sound (fun _ _ _ hs h => sound_step hs h) (sound_start books) hrun
  refine ⟨fun hmeets => ?_, fun row account hrow hfailed haccount hcharged =>
    not_law_of_charged hsound hrow hfailed haccount hcharged⟩
  have hstart : Sound (start books) ∧ Spared id (start books) := by
    refine ⟨sound_start books, ?_⟩
    intro row hrow
    simp [start, Table.find] at hrow
  have hinv := Machine.run_invariant (fun s => Sound s ∧ Spared id s)
    (fun s a t hs hkeeps h => ⟨sound_step hs.1 h, spared_step hs.1 hs.2 hkeeps h⟩)
    acts (start books) t hstart hmeets hrun
  exact law_of_spared hinv.1 hinv.2

/-! ### Two runs -/

def sampleEnv : MjEnv := ⟨⟨false, false⟩, true, fun _ => "[]"⟩

def sampleBooks : MjAccount → QuotaColumn := fun _ => ⟨1000, 0⟩

/-- A task of quota 500 is submitted and charged, then polled: upstream reports this status. -/
def samplePoll (status : String) : List MjAct :=
  [.submit ⟨1, 2, false, none, 3⟩ (.submit "IMAGINE" "a cat" 0) ⟨200, 1, "", "t", none⟩ 3 500 1,
    .settle 0, .settle 0, .settle 0, .settle 0, .settle 0, .load,
    .channel 0 3 (.items [⟨"t", "", "", 0, 0, 0, "", "", none, status, "100%", "", none, none⟩])] ++
  [.item 0 0]

/-- Upstream reports a success: the task stays paid for. -/
theorem failure_gives_back_sample : ∃ t,
    Machine.run (step sampleEnv) (start sampleBooks) (samplePoll "SUCCESS") = some t ∧
      t.charged 1 (.wallet 1) = [-500] ∧ t.Law 1 := by
  refine ⟨_, rfl, rfl, ?_⟩
  have hmeets : Machine.Meets (step sampleEnv) (Keeps sampleEnv 1) (start sampleBooks)
      (samplePoll "SUCCESS") := by
    refine Machine.meets_append (Machine.meets_of_forall _ ?_) fun t ht => ⟨?_, fun _ _ => trivial⟩
    · simp [Keeps, Fails]
    · cases ht
      rintro row hrow hquota ⟨p, item, rest, task, old, hp, hitem, htask, -, -, hfailed, -⟩
      cases hp
      obtain rfl := (List.cons.inj hitem).1
      cases htask
      exact absurd hfailed (by decide)
  exact (failure_gives_back sampleEnv sampleBooks _ _ 1 rfl).1 hmeets

/-- Upstream reports a failure: the wallet is given its quota back, and the token is not. -/
theorem failed_task_keeps_token_charge : ∃ t,
    Machine.run (step sampleEnv) (start sampleBooks) (samplePoll "FAILURE" ++ [.giveBack 0]) =
        some t ∧
      t.charged 1 (.token 2) = [-500] ∧ t.givenBack 1 (.wallet 1) = [500] ∧
      t.givenBack 1 (.token 2) = [] ∧ ¬t.Law 1 := by
  refine ⟨_, rfl, rfl, rfl, rfl, ?_⟩
  intro hlaw
  have hback := (hlaw _ rfl rfl).1 rfl (.token 2)
  exact absurd hback (by decide)

end MjSystem

end JulongApi

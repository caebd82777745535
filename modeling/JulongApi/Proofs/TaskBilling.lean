/-
A task has cost its quota.

The submission leaves the funding source, the token and the statistics charged with the
quota written into the task, whichever way it was opened.  After that every call either
changes nothing or moves all of them, and the quota, by one and the same difference
(`step_cases`), so that the quota stays what the task has cost, over any number of calls.

Two things are outside that law.  A token that is deleted meanwhile is left as it is, and a
wallet takes a refund only as far as its limit allows.
-/
import JulongApi.Proofs.Realtime
import JulongApi.Proofs.Session.Settle
import JulongApi.TaskBilling

namespace JulongApi

/-! ### Where a task is charged -/

/-- The row of the subscription a task is charged to; `none` is the wallet. -/
def BilledTask.account (task : BilledTask) : Option Nat :=
  if taskIsSubscription task then some task.subscriptionId else none

/-- Where the funding source of the task stands. -/
def TaskLedger.spent (l : TaskLedger) : Int :=
  match l.task.account with
  | some id => l.stores.subs.amountUsed id
  | none => -l.stores.wallet.balance

structure AdjustReplies.Up (r : AdjustReplies) : Prop where
  funding : r.funding.quota.dbOk = true
  tx : r.funding.tx = none
  token : r.token.dbOk = true
  userUsed : r.userUsed.dbOk = true
  channelUsed : r.channelUsed.dbOk = true

theorem account_of_linked {b : RelayBilling} (hlinked : b.Linked) (tokenId : Nat) (quota : Int)
    (hid : ∀ id, b.funding.account = some id → id ≠ 0) :
    (newTask b.info tokenId quota).account = b.funding.account := by
  unfold RelayBilling.Linked at hlinked
  unfold BilledTask.account taskIsSubscription newTask
  cases hf : b.funding with
  | wallet w =>
    rw [hf] at hlinked
    simp [hlinked, FundingSource.account]
  | subscription f =>
    rw [hf] at hlinked hid
    obtain ⟨hsource, hsub⟩ := hlinked
    have hpos : 0 < f.subscriptionId := Nat.pos_of_ne_zero (hid _ rfl)
    simp [hsource, hsub, hpos, FundingSource.account]

theorem TaskLedger.spent_eq {l : TaskLedger} {fs : FundingSource}
    (h : l.task.account = fs.account) : l.spent = fs.spent l.stores := by
  unfold TaskLedger.spent
  rw [h]
  cases fs <;> rfl

theorem FundingDrawn.of_account {cfg : QuotaConfig} {st₀ st : Stores} {base amount : Int}
    {f f' : FundingSource} (haccount : f.account = f'.account)
    (h : FundingDrawn cfg st₀ base st amount f) : FundingDrawn cfg st₀ base st amount f' := by
  cases f with
  | wallet w =>
    cases f' with
    | wallet w' => exact h
    | subscription f' => simp [FundingSource.account] at haccount
  | subscription f =>
    cases f' with
    | wallet w' => simp [FundingSource.account] at haccount
    | subscription f' =>
      have hid : f.subscriptionId = f'.subscriptionId := Option.some.inj haccount
      dsimp only [FundingDrawn] at h ⊢
      rw [← hid]
      exact h

/-! ### One adjustment -/

section Adjust

variable {env : BillingEnv} {task : BilledTask} {delta : Int} {st st' : Stores}
  {fs : FundingSource}

theorem taskAdjustFunding_eq_settle {r : FundingReply} (haccount : task.account = fs.account)
    (hdelta : delta ≠ 0) : taskAdjustFunding env r task delta st = fs.settle env r delta st := by
  unfold BilledTask.account at haccount
  unfold taskAdjustFunding
  cases fs with
  | wallet w =>
    have hwallet : taskIsSubscription task = false := by
      cases hsub : taskIsSubscription task with
      | false => rfl
      | true => simp [hsub, FundingSource.account] at haccount
    rw [hwallet]
    simp only [Bool.false_eq_true, if_false, FundingSource.settle, WalletFunding.settle, hdelta]
    by_cases hpos : 0 < delta
    · rw [if_pos hpos]
      rcases decreaseUserQuota env.quota r.quota st.wallet delta with ⟨_ | _, c⟩ <;> rfl
    · rw [if_neg hpos]
      rcases increaseUserQuota env.quota r.quota st.wallet (-delta) with ⟨_ | _, c⟩ <;> rfl
  | subscription f =>
    have hsub : taskIsSubscription task = true := by
      cases hsub : taskIsSubscription task with
      | true => rfl
      | false => simp [hsub, FundingSource.account] at haccount
    rw [hsub] at haccount ⊢
    have hid : task.subscriptionId = f.subscriptionId := Option.some.inj haccount
    simp only [if_true, FundingSource.settle, SubscriptionFunding.settle, hdelta, if_false, hid]
    rcases postConsumeUserSubscriptionDelta r.tx st.subs f.subscriptionId delta
      with ⟨_ | _, db⟩ <;> rfl

theorem taskAdjustFunding_error {r : FundingReply} {e : BillingError}
    (h : taskAdjustFunding env r task delta st = (.error e, st')) : st' = st := by
  unfold taskAdjustFunding at h
  split at h
  · split at h
    · rename_i hpost
      cases h
      rw [postConsume_error hpost]
    · simp at h
  · split at h
    · rename_i hmove
      cases h
      split at hmove
      · rw [decreaseQuota_error hmove]
      · rw [increaseUserQuota_error hmove]
    · simp at h

variable {r : AdjustReplies}

theorem taskAdjustTokenQuota_wallet :
    (taskAdjustTokenQuota env r task delta st).wallet = st.wallet := by
  unfold taskAdjustTokenQuota
  split_ifs <;> rfl

theorem taskAdjustTokenQuota_subs :
    (taskAdjustTokenQuota env r task delta st).subs = st.subs := by
  unfold taskAdjustTokenQuota
  split_ifs <;> rfl

theorem taskAdjustTokenQuota_moves (htask : task.tokenId ≠ 0) (hfound : r.tokenFound = true)
    (hdb : r.token.dbOk = true) :
    Moves env.quota st.token (taskAdjustTokenQuota env r task delta st).token (-delta) := by
  unfold taskAdjustTokenQuota
  by_cases hdelta : delta = 0
  · rw [if_pos (.inr hdelta), hdelta]
    exact Moves.refl env.quota st.token
  rw [if_neg (by simp [htask, hdelta]), if_neg (by simp [hfound])]
  by_cases hpos : 0 < delta
  · rw [if_pos hpos]
    obtain ⟨c, h, hmoves⟩ := @decreaseQuota_of_dbOk env.quota r.token st.token delta hdb hpos.le
    unfold decreaseTokenQuota
    rw [h]
    exact hmoves
  · rw [if_neg hpos]
    obtain ⟨c, h, hmoves⟩ := @increaseTokenQuota_of_dbOk env.quota r.token st.token (-delta) hdb
      (by omega)
    rw [h]
    exact hmoves

theorem updateUsedQuota_moves {cfg : QuotaConfig} {qr : QuotaReply} {c : QuotaColumn}
    (hdb : qr.dbOk = true) : Moves cfg c (updateUsedQuota cfg qr c delta) delta := by
  obtain ⟨c', h, hmoves⟩ := @persistQuotaDelta_of_dbOk cfg qr c hdb delta
  rw [updateUsedQuota, h]
  exact hmoves

end Adjust

/-! ### One call -/

namespace TaskLedger

variable {env : BillingEnv} {st : Stores} {base : Int} {fs : FundingSource} {l l' : TaskLedger}
  {a : TaskBillingAct} {r : AdjustReplies}

theorem step_cases (h : l.step env a = some l') :
    l' = l ∨ ∃ delta st', delta ≠ 0 ∧ 0 ≤ l.task.quota + delta ∧
      taskAdjustFunding env a.replies.funding l.task delta l.stores = (.ok (), st') ∧
      l' = l.adjustRest env a.replies delta (l.task.quota + delta) st' := by
  cases a with
  | recalculate actual r =>
    cases h
    unfold recalculateTaskQuota
    by_cases hneg : actual < 0
    · rw [if_pos hneg]
      exact .inl rfl
    rw [if_neg hneg]
    by_cases hdelta : actual - l.task.quota = 0
    · dsimp only
      rw [if_pos hdelta]
      exact .inl rfl
    dsimp only
    rw [if_neg hdelta]
    rcases hfund : taskAdjustFunding env r.funding l.task (actual - l.task.quota) l.stores
      with ⟨e | _, st'⟩
    · obtain rfl := taskAdjustFunding_error hfund
      exact .inl rfl
    · have hsum : l.task.quota + (actual - l.task.quota) = actual := by omega
      exact .inr ⟨_, st', hdelta, by omega, hfund, by rw [hsum]; rfl⟩
  | refund r =>
    cases h
    unfold refundTaskQuota
    by_cases hzero : l.task.quota = 0
    · rw [if_pos hzero]
      exact .inl rfl
    rw [if_neg hzero]
    rcases hfund : taskAdjustFunding env r.funding l.task (-l.task.quota) l.stores
      with ⟨e | _, st'⟩
    · obtain rfl := taskAdjustFunding_error hfund
      exact .inl rfl
    · have hsum : l.task.quota + -l.task.quota = 0 := by omega
      exact .inr ⟨_, st', by omega, by omega, hfund, by rw [hsum]; rfl⟩

structure Billed (env : BillingEnv) (st : Stores) (base : Int) (fs : FundingSource)
    (l : TaskLedger) : Prop where
  account : l.task.account = fs.account
  base_nonneg : 0 ≤ base
  quota_nonneg : 0 ≤ l.task.quota
  drawn : FundingDrawn env.quota st base l.stores l.task.quota fs

theorem Billed.adjustRest {delta : Int} {st' : Stores} (h : Billed env st base fs l)
    (hdelta : delta ≠ 0) (hnonneg : 0 ≤ l.task.quota + delta)
    (hfund : taskAdjustFunding env r.funding l.task delta l.stores = (.ok (), st')) :
    Billed env st base fs (l.adjustRest env r delta (l.task.quota + delta) st') ∧
      st'.token = l.stores.token := by
  have hbase := h.base_nonneg
  rw [taskAdjustFunding_eq_settle h.account hdelta] at hfund
  obtain ⟨htoken, hdrawn⟩ := BillingSession.settleFunding_ok h.drawn (fun _ _ => by omega) hfund
  refine ⟨⟨h.account, hbase, hnonneg, ?_⟩, htoken⟩
  cases fs with
  | wallet w =>
    have hwallet := @taskAdjustTokenQuota_wallet env l.task delta st' r
    show Moves env.quota st.wallet (taskAdjustTokenQuota env r l.task delta st').wallet _
    rw [hwallet]
    exact hdrawn
  | subscription f =>
    have hsubs := @taskAdjustTokenQuota_subs env l.task delta st' r
    dsimp only [FundingDrawn, TaskLedger.adjustRest] at hdrawn ⊢
    rw [hsubs]
    exact hdrawn

theorem billed_step (h : Billed env st base fs l) (hstep : l.step env a = some l') :
    Billed env st base fs l' := by
  rcases step_cases hstep with rfl | ⟨delta, st', hdelta, hnonneg, hfund, rfl⟩
  · exact h
  · exact (h.adjustRest hdelta hnonneg hfund).1

def TokenBilled (env : BillingEnv) (st : Stores) (l : TaskLedger) : Prop :=
  l.task.tokenId ≠ 0 ∧ Moves env.quota st.token l.stores.token (-l.task.quota)

theorem tokenBilled_step (hbilled : Billed env st base fs l) (h : TokenBilled env st l)
    (hfound : a.replies.tokenFound = true) (hup : a.replies.Up) (hstep : l.step env a = some l') :
    TokenBilled env st l' := by
  obtain ⟨hid, hmoves⟩ := h
  rcases step_cases hstep with rfl | ⟨delta, st', hdelta, hnonneg, hfund, rfl⟩
  · exact ⟨hid, hmoves⟩
  · have htoken := (hbilled.adjustRest hdelta hnonneg hfund).2
    have hmoved := @taskAdjustTokenQuota_moves env l.task delta st' a.replies hid hfound hup.token
    rw [htoken] at hmoved
    refine ⟨hid, ?_⟩
    show Moves env.quota st.token _ (-(l.task.quota + delta))
    rw [Int.neg_add]
    exact hmoves.trans hmoved

def UsedBilled (env : BillingEnv) (userUsed channelUsed : QuotaColumn) (l : TaskLedger) : Prop :=
  Moves env.quota userUsed l.userUsed l.task.quota ∧
    Moves env.quota channelUsed l.channelUsed l.task.quota

theorem usedBilled_step {userUsed channelUsed : QuotaColumn}
    (h : UsedBilled env userUsed channelUsed l) (hup : a.replies.Up)
    (hstep : l.step env a = some l') : UsedBilled env userUsed channelUsed l' := by
  obtain ⟨huser, hchannel⟩ := h
  rcases step_cases hstep with rfl | ⟨delta, st', -, -, -, rfl⟩
  · exact ⟨huser, hchannel⟩
  · exact ⟨huser.trans (updateUsedQuota_moves hup.userUsed),
      hchannel.trans (updateUsedQuota_moves hup.channelUsed)⟩

/-! ### The refund -/

/-- The funding source takes the refund: a subscription always, a wallet below its limit. -/
def Refundable (env : BillingEnv) (l : TaskLedger) : Prop :=
  l.task.account ≠ none ∨ walletRoom env.quota l.stores.wallet l.task.quota

theorem refund_of_refundable (h : Billed env st base fs l) (hup : r.Up)
    (hroom : l.Refundable env) :
    (l.refundTaskQuota env r).1 = true ∧ (l.refundTaskQuota env r).2.task.quota = 0 := by
  unfold refundTaskQuota
  by_cases hzero : l.task.quota = 0
  · rw [if_pos hzero]
    exact ⟨rfl, hzero⟩
  rw [if_neg hzero]
  have hpos : 0 < l.task.quota := by
    have := h.quota_nonneg
    omega
  have hfund : ∃ st', taskAdjustFunding env r.funding l.task (-l.task.quota) l.stores =
      (.ok (), st') := by
    have haccount := h.account
    have hdrawn := h.drawn
    unfold taskAdjustFunding
    cases hsub : taskIsSubscription l.task with
    | true =>
      simp only [BilledTask.account, hsub, if_true] at haccount
      cases fs with
      | wallet w => simp [FundingSource.account] at haccount
      | subscription f =>
        have hid : l.task.subscriptionId = f.subscriptionId := Option.some.inj haccount
        obtain ⟨hne, row, hfind, hrow, hused⟩ := hdrawn
        have hle : l.task.quota ≤ row.amountUsed := by
          have := h.base_nonneg
          omega
        obtain ⟨hpost, -, -⟩ := postConsume_give_back hne hfind hrow hpos hle
        rw [if_pos rfl, hup.tx, hid, hpost]
        exact ⟨_, rfl⟩
    | false =>
      have hwallet : walletRoom env.quota l.stores.wallet l.task.quota := by
        rcases hroom with hne | hwallet
        · simp [BilledTask.account, hsub] at hne
        · exact hwallet
      obtain ⟨c, hc, -⟩ := increaseUserQuota_of_room hup.funding hpos.le hwallet
      rw [if_neg (by simp), if_neg (by omega), neg_neg, hc]
      exact ⟨_, rfl⟩
  obtain ⟨st', hst'⟩ := hfund
  rw [hst']
  exact ⟨rfl, rfl⟩

theorem refund_of_not_refundable (hquota : 0 < l.task.quota) (hroom : ¬l.Refundable env) :
    l.refundTaskQuota env r = (false, l) := by
  have haccount : taskIsSubscription l.task = false := by
    cases hsub : taskIsSubscription l.task with
    | false => rfl
    | true => exact absurd (.inl (by simp [BilledTask.account, hsub])) hroom
  unfold refundTaskQuota
  rw [if_neg (by omega)]
  rcases hfund : taskAdjustFunding env r.funding l.task (-l.task.quota) l.stores with ⟨e | _, st'⟩
  · obtain rfl := taskAdjustFunding_error hfund
    rfl
  · exfalso
    unfold taskAdjustFunding at hfund
    rw [if_neg (by simp [haccount]), if_neg (by omega), neg_neg] at hfund
    rcases hmove : increaseUserQuota env.quota r.funding.quota l.stores.wallet l.task.quota
      with ⟨e | _, c⟩
    · rw [hmove] at hfund
      simp at hfund
    · have hsame := increaseUserQuota_of_no_room (fun h => hroom (.inr h))
        (r := r.funding.quota)
      rw [hmove] at hsame
      have hmoved := (increaseUserQuota_ok hmove).2.balance
      rw [show c = l.stores.wallet from hsame] at hmoved
      omega

end TaskLedger

/-! ### The submission -/

section Submit

variable {env : BillingEnv} {info : RelayInfo} {st st₁ st₂ : Stores} {base : Int}
  {b b₂ : RelayBilling} {o : Opening}

theorem live_reserveCall {s s' : BillingSession} {call : BillingSession.ReserveCall}
    (hlive : BillingSession.Live env info st base s st₁)
    (hlinked : (RelayBilling.session s).Linked)
    (h : s.reserveCall env call st₁ = (.ok (), s', st₂)) :
    BillingSession.Live env info st base s' st₂ ∧ (RelayBilling.session s').Linked ∧
      s'.funding.account = s.funding.account := by
  have hcount := hlive.withImageRequestCount call.imageRequestCount
  have haccount := @BillingSession.reserve_account env
    (s.withImageRequestCount call.imageRequestCount) st₁ call.replies call.targetQuota
  unfold BillingSession.reserveCall at h
  rw [h] at haccount
  cases hskip : (s.withImageRequestCount call.imageRequestCount).reserveSkips call.targetQuota with
  | true =>
    rw [BillingSession.reserve_skips hskip] at h
    cases h
    exact ⟨hcount, hlinked, haccount⟩
  | false =>
    obtain ⟨rfl, -, hlive'⟩ := hcount.reserve_ok hskip h
    exact ⟨hlive', Opening.linked_syncRelayInfo _, haccount⟩

theorem charged_reserveBilling {r : SubmitReplies} {quota : Int} (hvalid : o.Valid info st)
    (hopen : o.run env info st = some (b, st₁))
    (h : reserveBilling env r quota b st₁ = (.ok (), b₂, st₂)) :
    ∃ base held, Charged env info st base held b₂.funding b₂ st₂ held ∧
      ∀ (st' : Stores) (amount : Int), FundingDrawn env.quota st base st' amount b₂.funding →
        b₂.funding.spent st' - o.start env info st = amount := by
  cases o with
  | session source pr openQuota =>
    unfold Opening.run at hopen
    dsimp only at hopen
    split at hopen
    · rename_i s s₁ hsession
      obtain ⟨rfl, rfl⟩ := Prod.mk.inj (Option.some.inj hopen)
      obtain ⟨base, hlive, hspent⟩ := Opening.live_of_session hvalid hsession
      simp only [reserveBilling, Prod.mk.injEq] at h
      obtain ⟨hres, rfl, rfl⟩ := h
      rcases hcall : s.reserveCall env ⟨r.imageRequestCount, quota, r.reserve⟩ s₁
        with ⟨e | _, s₂, st₃⟩
      · rw [hcall] at hres
        simp at hres
      obtain ⟨hlive₂, hlinked, haccount⟩ :=
        live_reserveCall hlive (Opening.newSession_linked hvalid.1 hsession) hcall
      refine ⟨base, _, Opening.charged_of_live hlive₂ hlinked, ?_⟩
      intro st' amount hdrawn
      have hsame : s₂.funding.spent st' = s.funding.spent st' := by
        cases hf : s.funding with
        | wallet w =>
          rw [hf] at haccount
          cases hf₂ : s₂.funding with
          | wallet w₂ => rfl
          | subscription f₂ => simp [hf₂, FundingSource.account] at haccount
        | subscription f =>
          rw [hf] at haccount
          cases hf₂ : s₂.funding with
          | wallet w₂ => simp [hf₂, FundingSource.account] at haccount
          | subscription f₂ =>
            rw [hf₂] at haccount
            have hid : f₂.subscriptionId = f.subscriptionId := Option.some.inj haccount
            simp [FundingSource.spent, hid]
      show s₂.funding.spent st' - _ = amount
      rw [hsame]
      exact hspent st' amount (hdrawn.of_account haccount)
    · simp at hopen
  | free =>
    have hfree : b = .noSession info := (Prod.mk.inj (Option.some.inj hopen)).1.symm
    obtain ⟨base, held, hcharged, hspent⟩ := Opening.charged_of_run hvalid hopen
    subst hfree
    simp only [reserveBilling, Prod.mk.injEq, true_and] at h
    obtain ⟨rfl, rfl⟩ := h
    exact ⟨base, held, hcharged, hspent⟩

/-- **A submission that goes through has charged the quota of its task.** -/
theorem billed_submitTask {r : SubmitReplies} {tokenId : Nat} {quota : Int}
    {userUsed channelUsed : QuotaColumn} {l : TaskLedger} (hvalid : o.Valid info st)
    (hquota : 0 ≤ quota) (hopen : o.run env info st = some (b, st₁))
    (h : submitTask env r tokenId quota b st₁ userUsed channelUsed = some (.ok (), l)) :
    ∃ base fs, TaskLedger.Billed env st base fs l ∧ l.task.quota = quota ∧
      l.task.tokenId = tokenId ∧
      Moves env.quota st.token l.stores.token (-tokenShare info quota) ∧
      (r.userUsed.dbOk = true → r.channelUsed.dbOk = true →
        TaskLedger.UsedBilled env userUsed channelUsed l) ∧
      ∀ (st' : Stores) (amount : Int), FundingDrawn env.quota st base st' amount fs →
        fs.spent st' - o.start env info st = amount := by
  unfold submitTask at h
  split at h
  · simp at h
  next b₂ st₂ hreserve =>
  obtain ⟨base, held, hcharged, hspent⟩ := charged_reserveBilling hvalid hopen hreserve
  dsimp only at h
  split at h
  · simp at h
  next b₃ st₃ hsettle =>
  cases h
  obtain ⟨-, hdrawn, htoken⟩ := hcharged.settleBilling hquota le_rfl hsettle
  rw [show held + (quota - held) = quota by omega] at hdrawn htoken
  have hid : ∀ id, b₂.funding.account = some id → id ≠ 0 := by
    intro id haccount
    cases hf : b₂.funding with
    | wallet w => simp [hf, FundingSource.account] at haccount
    | subscription f =>
      rw [hf] at hdrawn haccount
      exact Option.some.inj haccount ▸ hdrawn.1
  refine ⟨base, b₂.funding, ⟨?_, hcharged.base_nonneg, hquota, hdrawn⟩, rfl, rfl, htoken, ?_,
    hspent⟩
  · exact account_of_linked hcharged.linked tokenId quota hid
  · intro huser hchannel
    exact ⟨updateUsedQuota_moves huser, updateUsedQuota_moves hchannel⟩

end Submit

/-! ### A whole run -/

namespace TaskLedger

/--
**A task has cost its quota**, the funding source, the token and the statistics alike, after the
submission and any number of calls that no store fails, as long as the token is there.  A refund
is taken exactly when the wallet has room for it, and then nothing is left charged.
-/
theorem task_costs_quota {env : BillingEnv} {info : RelayInfo} {st st₁ : Stores} {o : Opening}
    {b : RelayBilling} {r : SubmitReplies} {tokenId : Nat} {quota : Int}
    {userUsed channelUsed : QuotaColumn} {l₀ l : TaskLedger} {acts : List TaskBillingAct}
    (hvalid : o.Valid info st) (hquota : 0 ≤ quota) (hopen : o.run env info st = some (b, st₁))
    (hsubmit : submitTask env r tokenId quota b st₁ userUsed channelUsed = some (.ok (), l₀))
    (hused : r.userUsed.dbOk = true ∧ r.channelUsed.dbOk = true)
    (hup : ∀ a ∈ acts, a.replies.Up) (hrun : Machine.run (step env) l₀ acts = some l) :
    l.spent - o.start env info st = l.task.quota ∧
      l.userUsed.balance - userUsed.balance = l.task.quota ∧
      l.channelUsed.balance - channelUsed.balance = l.task.quota ∧
      (info.isPlayground = false → tokenId ≠ 0 → (∀ a ∈ acts, a.replies.tokenFound = true) →
        st.token.balance - l.stores.token.balance = l.task.quota) ∧
      ∀ r : AdjustReplies, r.Up →
        (l.Refundable env → (l.refundTaskQuota env r).1 = true ∧
          (l.refundTaskQuota env r).2.task.quota = 0 ∧
          (l.refundTaskQuota env r).2.spent = o.start env info st ∧
          (info.isPlayground = false → tokenId ≠ 0 →
            (∀ a ∈ acts, a.replies.tokenFound = true) → r.tokenFound = true →
            (l.refundTaskQuota env r).2.stores.token.balance = st.token.balance)) ∧
        (¬l.Refundable env → 0 < l.task.quota → l.refundTaskQuota env r = (false, l)) := by
  obtain ⟨base, fs, hbilled₀, hquota₀, hid₀, htoken₀, hused₀, hspent⟩ :=
    billed_submitTask hvalid hquota hopen hsubmit
  have hmeets : Machine.Meets (step env) (fun _ a => a.replies.Up) l₀ acts :=
    Machine.meets_of_forall l₀ fun a ha _ => hup a ha
  have hbilled : Billed env st base fs l ∧ UsedBilled env userUsed channelUsed l :=
    Machine.run_invariant (fun l => Billed env st base fs l ∧ UsedBilled env userUsed channelUsed l)
      (fun _ _ _ h hc hstep => ⟨billed_step h.1 hstep, usedBilled_step h.2 hc hstep⟩)
      acts l₀ l ⟨hbilled₀, hused₀ hused.1 hused.2⟩ hmeets hrun
  have hcost : ∀ l', Billed env st base fs l' → l'.spent - o.start env info st = l'.task.quota := by
    intro l' hl'
    rw [spent_eq hl'.account]
    exact hspent l'.stores l'.task.quota hl'.drawn
  have htokened : info.isPlayground = false → tokenId ≠ 0 →
      (∀ a ∈ acts, a.replies.tokenFound = true) → TokenBilled env st l := by
    intro hplay hid hfound
    have hstart : Billed env st base fs l₀ ∧ TokenBilled env st l₀ := by
      refine ⟨hbilled₀, hid₀.symm ▸ hid, ?_⟩
      rw [hquota₀]
      simpa [tokenShare, hplay] using htoken₀
    have hcond : Machine.Meets (step env)
        (fun _ a => a.replies.tokenFound = true ∧ a.replies.Up) l₀ acts :=
      Machine.meets_of_forall l₀ fun a ha _ => ⟨hfound a ha, hup a ha⟩
    exact (Machine.run_invariant (fun l => Billed env st base fs l ∧ TokenBilled env st l)
      (fun _ _ _ h hc hstep =>
        ⟨billed_step h.1 hstep, tokenBilled_step h.1 h.2 hc.1 hc.2 hstep⟩)
      acts l₀ l hstart hcond hrun).2
  refine ⟨hcost l hbilled.1, ?_, ?_, ?_, ?_⟩
  · rw [hbilled.2.1.balance]
    omega
  · rw [hbilled.2.2.balance]
    omega
  · intro hplay hid hfound
    rw [(htokened hplay hid hfound).2.balance]
    omega
  · intro r hr
    refine ⟨?_, fun hno hpos => refund_of_not_refundable hpos hno⟩
    intro hroom
    obtain ⟨htaken, hzero⟩ := refund_of_refundable hbilled.1 hr hroom
    have hafter : Billed env st base fs (l.refundTaskQuota env r).2 :=
      @billed_step env st base fs l _ (.refund r) hbilled.1 rfl
    have hcost' := hcost _ hafter
    refine ⟨htaken, hzero, by omega, ?_⟩
    intro hplay hid hfound hfound'
    have htoken' : TokenBilled env st (l.refundTaskQuota env r).2 :=
      @tokenBilled_step env st base fs l _ (.refund r) hbilled.1 (htokened hplay hid hfound)
        hfound' hr rfl
    rw [htoken'.2.balance, hzero]
    omega

/-! ### What is outside the law -/

def adjustUp : AdjustReplies where
  funding := BillingSession.fundingUp
  tokenFound := true
  token := BillingSession.quotaUp
  userUsed := BillingSession.quotaUp
  channelUsed := BillingSession.quotaUp

theorem adjustUp_up : adjustUp.Up := ⟨rfl, rfl, rfl, rfl, rfl⟩

def submitUp : SubmitReplies where
  imageRequestCount := 0
  reserve := ⟨BillingSession.fundingUp, BillingSession.quotaUp, BillingSession.fundingUp⟩
  settle := BillingSession.settleUp
  userUsed := BillingSession.quotaUp
  channelUsed := BillingSession.quotaUp

def tenHeld : Opening := .session .wallet BillingSession.preConsumeUp 10

/-- A submission that is estimated at 10, from a wallet with `balance` in it. -/
def submitTen (balance quota : Int) : Option (Except RealtimeError Unit × TaskLedger) :=
  match tenHeld.run BillingSession.plainEnv BillingSession.textInfo
      { BillingSession.plainStores with wallet := ⟨balance, 0⟩ } with
  | none => none
  | some (b, st) => submitTask BillingSession.plainEnv submitUp 1 quota b st ⟨0, 0⟩ ⟨0, 0⟩

/-- Settled at 25, then found to have cost 30, then found to have cost 20. -/
theorem task_costs_quota_sample : ∃ l₀ l, submitTen 1000 25 = some (.ok (), l₀) ∧
    Machine.run (step BillingSession.plainEnv) l₀
      [.recalculate 30 adjustUp, .recalculate 20 adjustUp] = some l ∧
    l.task.quota = 20 ∧ l.spent - -1000 = l.task.quota := by
  refine ⟨_, _, rfl, rfl, rfl, ?_⟩
  have hvalid : tenHeld.Valid BillingSession.textInfo BillingSession.plainStores :=
    ⟨by decide, BillingSession.plainStores_rowsOK, rfl⟩
  have hup : ∀ a ∈ [TaskBillingAct.recalculate 30 adjustUp, .recalculate 20 adjustUp],
      a.replies.Up := by
    intro a ha
    simp only [List.mem_cons, List.not_mem_nil, or_false] at ha
    rcases ha with rfl | rfl
    · exact adjustUp_up
    · exact adjustUp_up
  exact (@task_costs_quota BillingSession.plainEnv BillingSession.textInfo
    BillingSession.plainStores _ tenHeld _ submitUp 1 25 ⟨0, 0⟩ ⟨0, 0⟩ _ _ _ hvalid (by decide)
    rfl rfl ⟨rfl, rfl⟩ hup rfl).1

/--
No store fails, and yet: a refund beyond the wallet's limit is refused and the task stays
charged; the token of a task is deleted and does not follow; and a wallet that is over its limit
refuses what the settlement would give back, so that the task is written with a quota of 0 and
10 stay charged.
-/
theorem quota_not_cost :
    (∃ l₀ l, submitTen 1000 10 = some (.ok (), l₀) ∧
      Machine.run (step BillingSession.plainEnv) l₀
        [.recalculate (2 ^ 53) adjustUp, .refund adjustUp] = some l ∧
      ¬l.spent - -1000 = 0) ∧
    (∃ l₀ l, submitTen 1000 10 = some (.ok (), l₀) ∧
      Machine.run (step BillingSession.plainEnv) l₀
        [.recalculate 30 { adjustUp with tokenFound := false }] = some l ∧
      ¬1000 - l.stores.token.balance = l.task.quota) ∧
    (∃ e l, submitTen (2 ^ 53 + 100) 0 = some (.error e, l) ∧
      ¬l.spent - -(2 ^ 53 + 100) = l.task.quota) := by
  refine ⟨⟨_, _, rfl, rfl, ?_⟩, ⟨_, _, rfl, rfl, ?_⟩, ⟨_, _, rfl, ?_⟩⟩
  · decide
  · decide
  · decide

end TaskLedger

end JulongApi

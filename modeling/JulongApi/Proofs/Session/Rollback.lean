/-
What a failed call leaves behind.

`Reserve` and `preConsume` work on the funding source and the token one after the
other, and when the second refuses they compensate the first.  `FailsCleanly` says what
that is for: the call returns an error, stores and books are as they were, and a refund
made now does what it would have done before the call.

The compensation is a write of its own, so it can fail, and it undoes the books by
subtracting.  Subtracting undoes an addition; it does not undo an assignment, which is
how an image request books its draw on a wallet.  `ReserveUndone` is the exact line.
-/
import JulongApi.Proofs.Session.Live

namespace JulongApi

/-! ### Undoing a draw -/

section Undo

variable {cfg : QuotaConfig} {r : QuotaReply} {c c' : QuotaColumn} {delta : Int}

theorem increaseUserQuota_congr (h : Moves cfg c c' 0) (quota : Int) :
    (increaseUserQuota cfg r c' quota).2.balance = (increaseUserQuota cfg r c quota).2.balance := by
  have hbal : c'.balance = c.balance := by simpa using h.balance
  cases hb : cfg.batchUpdateEnabled with
  | false =>
    have hsame : c' = c := by
      have hstored := h.stored hb
      have hpending := h.pending hb
      obtain ⟨stored, pending⟩ := c
      obtain ⟨stored', pending'⟩ := c'
      simp only [QuotaColumn.mk.injEq]
      exact ⟨by simpa using hstored, hpending⟩
    rw [hsame]
  | true =>
    unfold increaseUserQuota
    simp only [hb, if_true]
    unfold QuotaColumn.balance at hbal
    split_ifs <;> simp only [QuotaColumn.balance] <;> omega

theorem WalletFunding.refund_congr (h : Moves cfg c c' 0) (w : WalletFunding) :
    (w.refund cfg r c').2.balance = (w.refund cfg r c).2.balance := by
  unfold WalletFunding.refund
  split
  · simpa using h.balance
  · exact increaseUserQuota_congr h w.consumed

/-- The credit that undoes a draw of `delta` on a wallet at `c` goes through. -/
def WalletUndo (cfg : QuotaConfig) (r : QuotaReply) (c : QuotaColumn) (delta : Int) : Prop :=
  delta ≤ maxWalletQuota ∧
    (cfg.batchUpdateEnabled = false → r.dbOk = true ∧ c.stored ≤ maxWalletQuota)

theorem increaseUserQuota_undo (hdraw : Moves cfg c c' (-delta)) (hpos : 0 < delta) :
    (WalletUndo cfg r c delta ∧ ∃ c'', increaseUserQuota cfg r c' delta = (.ok (), c'') ∧
        Moves cfg c c'' 0) ∨
      (¬WalletUndo cfg r c delta ∧ ∃ e, increaseUserQuota cfg r c' delta = (.error e, c')) := by
  unfold WalletUndo
  rcases h : increaseUserQuota cfg r c' delta with ⟨e | _, c''⟩
  · refine .inr ⟨?_, e, by rw [increaseUserQuota_error h]⟩
    rintro ⟨hmax, hdb⟩
    unfold increaseUserQuota at h
    rw [if_neg (by omega), if_neg (by omega)] at h
    split at h
    · simp at h
    · rename_i hb
      obtain ⟨hok, hlim⟩ := hdb (by simpa using hb)
      have hstored := hdraw.stored (by simpa using hb)
      simp only [hok, Bool.not_true, Bool.false_eq_true, if_false] at h
      rw [if_pos (by omega)] at h
      simp at h
  · have hmoves := hdraw.trans (increaseUserQuota_ok h).2
    rw [Int.add_left_neg] at hmoves
    refine .inl ⟨?_, c'', rfl, hmoves⟩
    unfold increaseUserQuota at h
    split_ifs at h with hneg hmax hb hdb hlim <;>
      simp only [Prod.mk.injEq, reduceCtorEq, false_and] at h
    · exact ⟨by omega, by simp [hb]⟩
    · refine ⟨by omega, fun hbatch => ⟨by simpa using hdb, ?_⟩⟩
      have hstored := hdraw.stored hbatch
      omega

theorem increaseTokenQuota_undo (hdraw : Moves cfg c c' (-delta)) (hpos : 0 < delta) :
    ((cfg.batchUpdateEnabled = false → r.dbOk = true) ∧
        ∃ c'', increaseTokenQuota cfg r c' delta = (.ok (), c'') ∧ Moves cfg c c'' 0) ∨
      (¬(cfg.batchUpdateEnabled = false → r.dbOk = true) ∧
        ∃ e, increaseTokenQuota cfg r c' delta = (.error e, c')) := by
  rcases h : increaseTokenQuota cfg r c' delta with ⟨e | _, c''⟩
  · unfold increaseTokenQuota at h
    rw [if_neg (by omega)] at h
    have hsame := persistQuotaDelta_error h
    subst hsame
    refine .inr ⟨?_, e, rfl⟩
    intro hdb
    unfold persistQuotaDelta at h
    split at h
    · simp at h
    · rename_i hb
      rw [hdb (by simpa using hb)] at h
      simp at h
  · have hmoves := hdraw.trans (increaseTokenQuota_ok h).2
    rw [Int.add_left_neg] at hmoves
    refine .inl ⟨?_, c'', rfl, hmoves⟩
    intro hb
    unfold increaseTokenQuota persistQuotaDelta at h
    rw [if_neg (by omega), hb] at h
    by_cases hdb : r.dbOk = true
    · exact hdb
    · simp [hdb] at h

theorem saveSub_undo {db : SubscriptionDB} {id : Nat} {row : UserSubscription}
    (hfind : db.subs.find id = some row) (hrow : RowOK row) (hpos : 0 < delta) :
    (db.saveSub (row.addUsed delta)).saveSub ((row.addUsed delta).addUsed (-delta)) = db := by
  have hback : (row.addUsed delta).addUsed (-delta) = row := by
    have hnonneg := hrow.used_nonneg
    have hused : max (max (row.amountUsed + delta) 0 + -delta) 0 = row.amountUsed := by omega
    show { row with amountUsed := max (max (row.amountUsed + delta) 0 + -delta) 0 } = row
    rw [hused]
  have hid : row.id = id := Table.key_of_find hfind
  subst hid
  rw [hback]
  have hkeys : UserSubscription.id (row.addUsed delta) = row.id := rfl
  unfold SubscriptionDB.saveSub
  simp only
  rw [Table.save_save hkeys, Table.save_of_find hfind]

end Undo

namespace BillingSession

variable {env : BillingEnv} {s s' : BillingSession} {st st' : Stores}

/-! ### Stores and books as they were -/

structure SameFunds (st st' : Stores) : Prop where
  wallet : st'.wallet.balance = st.wallet.balance
  token : st'.token.balance = st.token.balance
  subs : ∀ id, st'.subs.amountUsed id = st.subs.amountUsed id

structure SameBooks (s s' : BillingSession) : Prop where
  preConsumedQuota : s'.preConsumedQuota = s.preConsumedQuota
  tokenConsumed : s'.tokenConsumed = s.tokenConsumed
  extraReserved : s'.extraReserved = s.extraReserved
  funding : s'.funding = s.funding

/-- The call returned an error and left no trace, and a refund does what it did before. -/
structure FailsCleanly (env : BillingEnv) (s : BillingSession) (st : Stores)
    (out : Except NewAPIError Unit × BillingSession × Stores) : Prop where
  error : ∃ e, out.1 = .error e
  funds : SameFunds st out.2.2
  books : SameBooks s out.2.1
  refund : ∀ r, SameFunds (s.refund env r st).2 (out.2.1.refund env r out.2.2).2

theorem SameFunds.refl (st : Stores) : SameFunds st st := ⟨rfl, rfl, fun _ => rfl⟩

variable {c : QuotaColumn}

theorem refund_congr (hmoves : Moves env.quota st.wallet c 0) (r : RefundReplies) :
    SameFunds (s.refund env r st).2 (s.refund env r { st with wallet := c }).2 := by
  unfold refund
  split
  · exact ⟨by simpa using hmoves.balance, rfl, fun _ => rfl⟩
  · cases hf : s.funding with
    | wallet w =>
      refine ⟨?_, ?_, ?_⟩
      · rw [refundFunds_wallet hf, refundFunds_wallet hf]
        exact WalletFunding.refund_congr hmoves w
      · rw [refundFunds_token, refundFunds_token]
      · intro id
        rw [refundFunds_subs_of_wallet hf, refundFunds_subs_of_wallet hf]
    | subscription f =>
      refine ⟨?_, ?_, ?_⟩
      · rw [refundFunds_wallet_of_subscription hf, refundFunds_wallet_of_subscription hf]
        simpa using hmoves.balance
      · rw [refundFunds_token, refundFunds_token]
      · intro id
        rw [refundFunds_subs hf, refundFunds_subs hf]

/-! ### `Reserve` -/

section Reserve

variable {r : ReserveReplies} {target delta : Int} {fr : FundingReply}

def ReserveFundingFails (env : BillingEnv) (r : ReserveReplies) (target : Int)
    (s : BillingSession) (st : Stores) : Prop :=
  ∃ e, (s.reserveFunding env r.funding (target - s.preConsumedQuota) s.imageRequest st).1 =
    .error e

def ReserveTokenFails (env : BillingEnv) (r : ReserveReplies) (target : Int)
    (s : BillingSession) (st : Stores) : Prop :=
  ∃ s₁ st₁ e, s.reserveFunding env r.funding (target - s.preConsumedQuota) s.imageRequest st =
      (.ok (), s₁, st₁) ∧
    (s₁.reserveToken env r.token (target - s.preConsumedQuota) st₁).1 = .error e

/-- The write that compensates a draw of `delta` goes through. -/
def RollsBack (env : BillingEnv) (r : FundingReply) (delta : Int) (s : BillingSession)
    (st : Stores) : Prop :=
  match s.funding with
  | .wallet _ => WalletUndo env.quota r.quota st.wallet delta
  | .subscription _ => r.tx = none

/-- Subtracting the draw from the books brings them back. -/
def BooksUndo (s : BillingSession) : Prop :=
  match s.funding with
  | .wallet w => s.imageRequest = true → w.consumed = 0
  | .subscription _ => True

theorem rollback_wallet {w : WalletFunding} (hf : s.funding = .wallet w) (hpos : 0 < delta)
    (hdraw : Moves env.quota st.wallet c (-delta)) :
    (RollsBack env fr delta s st ∧ ∃ c', Moves env.quota st.wallet c' 0 ∧
      ({ s with funding := bookReserve delta s.imageRequest s.funding }).rollbackFundingReserve
          env fr delta { st with wallet := c } =
        ({ s with funding := .wallet { w with
            consumed := (if s.imageRequest then delta else w.consumed + delta) - delta } },
          { st with wallet := c' })) ∨
      (¬RollsBack env fr delta s st ∧
        (({ s with funding := bookReserve delta s.imageRequest s.funding }).rollbackFundingReserve
          env fr delta { st with wallet := c }).2.wallet.balance = st.wallet.balance - delta) := by
  unfold RollsBack rollbackFundingReserve
  rw [hf]
  simp only [bookReserve]
  rcases increaseUserQuota_undo hdraw hpos with ⟨hundo, c', hc', hmoves⟩ | ⟨hno, e, he⟩
  · refine .inl ⟨hundo, c', hmoves, ?_⟩
    rw [hc']
  · refine .inr ⟨hno, ?_⟩
    rw [he]
    show c.balance = st.wallet.balance - delta
    rw [hdraw.balance]
    omega

theorem rollback_subscription {f : SubscriptionFunding} (hf : s.funding = .subscription f)
    (hpos : 0 < delta) (hid : f.subscriptionId ≠ 0) {row : UserSubscription}
    (hfind : st.subs.subs.find f.subscriptionId = some row) (hrow : RowOK row)
    (hle : 0 < row.amountTotal → (row.addUsed delta).amountUsed ≤ row.amountTotal) :
    (RollsBack env fr delta s st ∧
      s.rollbackFundingReserve env fr delta
        { st with subs := st.subs.saveSub (row.addUsed delta) } = (s, st)) ∨
      (¬RollsBack env fr delta s st ∧
        (s.rollbackFundingReserve env fr delta
          { st with subs := st.subs.saveSub (row.addUsed delta) }).2.subs.amountUsed
            f.subscriptionId = row.amountUsed + delta) := by
  have hnonneg := hrow.used_nonneg
  have hused : (row.addUsed delta).amountUsed = row.amountUsed + delta := by
    show max (row.amountUsed + delta) 0 = row.amountUsed + delta
    omega
  have hfind' : (st.subs.saveSub (row.addUsed delta)).subs.find f.subscriptionId =
      some (row.addUsed delta) := find_addUsed hfind
  unfold RollsBack rollbackFundingReserve
  rw [hf]
  simp only
  cases htx : fr.tx with
  | none =>
    obtain ⟨hpost, -, -⟩ :=
      postConsume_give_back hid hfind' (hrow.addUsed hle) hpos (by omega)
    refine .inl ⟨rfl, ?_⟩
    rw [hpost, saveSub_undo hfind hrow hpos]
  | some e =>
    refine .inr ⟨by simp, ?_⟩
    have herr : (postConsumeUserSubscriptionDelta (some e) (st.subs.saveSub (row.addUsed delta))
        f.subscriptionId (-delta)).2 = st.subs.saveSub (row.addUsed delta) := by
      unfold postConsumeUserSubscriptionDelta
      rw [if_neg hid, if_neg (by omega)]
    rw [herr, SubscriptionDB.amountUsed_of_find hfind', hused]

theorem reserve_of_funding_fails (hskip : s.reserveSkips target = false)
    (hfail : ReserveFundingFails env r target s st) :
    ∃ e, s.reserve env r target st = (.error e, s, st) := by
  obtain ⟨e, he⟩ := hfail
  rcases h : s.reserveFunding env r.funding (target - s.preConsumedQuota) s.imageRequest st
    with ⟨res, s₁, st₁⟩
  rw [h] at he
  obtain rfl : res = .error e := he
  obtain ⟨rfl, rfl⟩ := reserveFunding_error h
  refine ⟨e, ?_⟩
  unfold reserve
  rw [hskip]
  simp only [Bool.false_eq_true, if_false, h]

theorem reserve_of_token_fails (hskip : s.reserveSkips target = false) {s₁ : BillingSession}
    {st₁ : Stores} {e : NewAPIError}
    (hfund : s.reserveFunding env r.funding (target - s.preConsumedQuota) s.imageRequest st =
      (.ok (), s₁, st₁))
    (htok : (s₁.reserveToken env r.token (target - s.preConsumedQuota) st₁).1 = .error e) :
    s.reserve env r target st = (.error e,
      s₁.rollbackFundingReserve env r.rollback (target - s.preConsumedQuota) st₁) := by
  rcases h : s₁.reserveToken env r.token (target - s.preConsumedQuota) st₁ with ⟨res, st₂⟩
  rw [h] at htok
  obtain rfl : res = .error e := htok
  obtain ⟨rfl, -⟩ := reserveToken_error h
  unfold reserve
  rw [hskip]
  simp only [Bool.false_eq_true, if_false, hfund, h]

theorem failsCleanly_of_same {e : NewAPIError} (hmoves : Moves env.quota st.wallet c 0) :
    FailsCleanly env s st (.error e, s, { st with wallet := c }) :=
  ⟨⟨e, rfl⟩, ⟨by simpa using hmoves.balance, rfl, fun _ => rfl⟩, ⟨rfl, rfl, rfl, rfl⟩,
    refund_congr hmoves⟩

/--
**A failed reserve leaves no trace exactly when** the funding step was the one that
failed, or the compensating write goes through and the books undo by subtraction.
-/
theorem reserve_failsCleanly_iff (hrows : RowsOK st.subs)
    (hskip : s.reserveSkips target = false)
    (hfail : ReserveFundingFails env r target s st ∨ ReserveTokenFails env r target s st) :
    FailsCleanly env s st (s.reserve env r target st) ↔
      ReserveFundingFails env r target s st ∨
        (RollsBack env r.rollback (target - s.preConsumedQuota) s st ∧ BooksUndo s) := by
  have hpos : 0 < target - s.preConsumedQuota := by
    have := (reserveSkips_false hskip).2.2.1
    omega
  rcases hfail with hfund | ⟨s₁, st₁, e, hfund, htok⟩
  · obtain ⟨e, he⟩ := reserve_of_funding_fails hskip hfund
    rw [he]
    exact ⟨fun _ => .inl hfund, fun _ => failsCleanly_of_same (Moves.refl _ _)⟩
  -- the token refused: everything turns on the rollback
  have hnot : ¬ReserveFundingFails env r target s st := by
    rintro ⟨e', he'⟩
    rw [hfund] at he'
    simp at he'
  rw [reserve_of_token_fails hskip hfund htok]
  cases hf : s.funding with
  | wallet w =>
    obtain ⟨rfl, c, rfl, hdraw⟩ := reserveFunding_wallet_ok hf hpos hfund
    have hbooks : BooksUndo s ↔ (s.imageRequest = true → w.consumed = 0) := by
      unfold BooksUndo
      rw [hf]
    rcases rollback_wallet hf hpos hdraw with ⟨hback, c', hmoves, hroll⟩ | ⟨hno, hbal⟩
    · rw [hroll]
      constructor
      · intro hclean
        refine .inr ⟨hback, hbooks.mpr fun himage => ?_⟩
        have hfunding := hclean.books.funding
        simp only [hf, himage, if_true, FundingSource.wallet.injEq] at hfunding
        have hconsumed := congrArg WalletFunding.consumed hfunding
        simp only [sub_self] at hconsumed
        exact hconsumed.symm
      · rintro (hfails | ⟨-, hundo⟩)
        · exact absurd hfails hnot
        · have hconsumed : (if s.imageRequest = true then target - s.preConsumedQuota
              else w.consumed + (target - s.preConsumedQuota)) -
              (target - s.preConsumedQuota) = w.consumed := by
            split
            · rename_i himage
              rw [hbooks.mp hundo himage]
              omega
            · omega
          rw [hconsumed, show ({ w with consumed := w.consumed } : WalletFunding) = w from rfl,
            ← hf]
          exact failsCleanly_of_same hmoves
    · constructor
      · intro hclean
        have hsame := hclean.funds.wallet
        rw [hbal] at hsame
        omega
      · rintro (hfails | ⟨hback, -⟩)
        · exact absurd hfails hnot
        · exact absurd hback hno
  | subscription f =>
    obtain ⟨rfl, hid, row, hfind, rfl, hle⟩ := reserveFunding_subscription_ok hf hpos hfund
    have hbooks : BooksUndo s₁ := by
      unfold BooksUndo
      rw [hf]
      trivial
    rcases rollback_subscription hf hpos hid hfind (hrows.of_find hfind) hle with
      ⟨hback, hroll⟩ | ⟨hno, hused⟩
    · rw [hroll]
      exact ⟨fun _ => .inr ⟨hback, hbooks⟩, fun _ => failsCleanly_of_same (Moves.refl _ _)⟩
    · constructor
      · intro hclean
        have hsame := hclean.funds.subs f.subscriptionId
        rw [hused, SubscriptionDB.amountUsed_of_find hfind] at hsame
        omega
      · rintro (hfails | ⟨hback, -⟩)
        · exact absurd hfails hnot
        · exact absurd hback hno

end Reserve

/-! ### `preConsume` -/

section PreConsume

variable {info : RelayInfo} {quota : Int} {r : PreConsumeReplies} {source : BillingSource}

def PreConsumeTokenFails (env : BillingEnv) (r : PreConsumeReplies) (quota : Int)
    (s : BillingSession) (st : Stores) : Prop :=
  ∃ e, (preConsumeToken env r (s.effectiveQuota env r quota) s st).1 = .error e

/-- The token step goes through and the funding step comes back with an error. -/
def PreConsumeFundingFails (env : BillingEnv) (r : PreConsumeReplies) (quota : Int)
    (s : BillingSession) (st : Stores) : Prop :=
  ∃ c e, preConsumeToken env r (s.effectiveQuota env r quota) s st = (.ok (), c) ∧
    (s.funding.preConsume env r.funding (s.effectiveQuota env r quota)
      { st with token := c }).1 = .error e ∧ e ≠ .subscription .neverReturns

theorem refund_of_nothing_drawn {rr : RefundReplies} (htoken : s.tokenConsumed = 0)
    (hfunding : ∀ f, s.funding = .subscription f → f.preConsumed = 0) :
    (s.refund env rr st).2 = st := by
  have hneeds : s.needsRefundLocked = false := by
    unfold needsRefundLocked
    rw [htoken]
    cases hf : s.funding with
    | wallet w => simp
    | subscription f => simp [hfunding f hf]
  unfold refund
  rw [if_pos (by simp [hneeds])]

theorem opening_eq (source : BillingSource) (info : RelayInfo) (quota : Int) :
    ∃ funding, (opening source info quota).1 = fresh info funding ∧
      ∀ f, funding = .subscription f → f.preConsumed = 0 := by
  cases source with
  | wallet => exact ⟨_, rfl, by simp⟩
  | subscription =>
    refine ⟨_, rfl, ?_⟩
    intro f hf
    simp only [FundingSource.subscription.injEq] at hf
    rw [← hf]
    rfl

theorem effectiveQuota_pos_of_fails
    (h : PreConsumeFundingFails env r (opening source info quota).2
      (opening source info quota).1 st) :
    0 < (opening source info quota).1.effectiveQuota env r (opening source info quota).2 := by
  obtain ⟨c, e, -, herr, -⟩ := h
  cases source with
  | wallet =>
    by_contra hle
    simp only [opening, ofWallet, fresh, FundingSource.preConsume] at herr hle
    rw [WalletFunding.preConsume_nonpos (not_lt.mp hle)] at herr
    simp at herr
  | subscription =>
    show 0 < (ofSubscription info quota).effectiveQuota env r (subConsume quota)
    unfold effectiveQuota
    rw [shouldTrust_ofSubscription]
    exact subConsume_pos quota

/-- The credit that gives the token back what the failed call took from it. -/
def TokenUndo (env : BillingEnv) (r : PreConsumeReplies) (info : RelayInfo) : Prop :=
  info.isPlayground = false ∧ (env.quota.batchUpdateEnabled = false → r.rollback.dbOk = true)

/--
**A failed `preConsume` leaves no trace exactly when** the token step was the one that
failed, or there is a token and the write that gives it its quota back goes through.
-/
theorem preConsume_failsCleanly_iff
    (hfail : PreConsumeTokenFails env r (opening source info quota).2
        (opening source info quota).1 st ∨
      PreConsumeFundingFails env r (opening source info quota).2
        (opening source info quota).1 st) :
    FailsCleanly env (opening source info quota).1 st (newSession source env r info quota st) ↔
      PreConsumeTokenFails env r (opening source info quota).2
        (opening source info quota).1 st ∨ TokenUndo env r info := by
  have hpositive : PreConsumeFundingFails env r (opening source info quota).2
      (opening source info quota).1 st → _ := effectiveQuota_pos_of_fails
  unfold newSession
  obtain ⟨funding, hopening, hnothing⟩ := opening_eq source info quota
  rw [hopening] at hfail hpositive ⊢
  generalize (opening source info quota).2 = asked at hfail hpositive ⊢
  rw [preConsume_fresh_eq]
  rcases hfail with htok | hfund
  · -- the token refused, and the funding source was never asked
    obtain ⟨e, he⟩ := id htok
    rcases h : preConsumeToken env r ((fresh info funding).effectiveQuota env r asked)
      (fresh info funding) st with ⟨res, c⟩
    rw [h] at he
    obtain rfl : res = .error e := he
    have hc : c = st.token := by
      unfold preConsumeToken at h
      split at h
      · exact preConsumeTokenQuota_error h
      · simp at h
    subst hc
    refine ⟨fun _ => .inl htok, fun _ => ⟨⟨_, rfl⟩, SameFunds.refl st, ⟨rfl, rfl, rfl, rfl⟩, ?_⟩⟩
    intro rr
    rw [refund_of_nothing_drawn rfl hnothing]
    exact ⟨by rw [refund_of_nothing_drawn rfl hnothing],
      by rw [refund_of_nothing_drawn rfl hnothing],
      fun _ => by rw [refund_of_nothing_drawn rfl hnothing]⟩
  · have hpos := hpositive hfund
    obtain ⟨c, e, h, herr, -⟩ := hfund
    generalize hamount : (fresh info funding).effectiveQuota env r asked = amount
      at h herr hpos ⊢
    have hnot : ¬PreConsumeTokenFails env r asked (fresh info funding) st := by
      rintro ⟨e', he'⟩
      rw [hamount, h] at he'
      simp at he'
    have hdraw : Moves env.quota st.token c (-tokenShare info amount) := by
      unfold preConsumeToken at h
      rw [if_pos hpos] at h
      exact preConsumeTokenQuota_ok h
    rw [h]
    rcases hres : (fresh info funding).funding.preConsume env r.funding amount
      { st with token := c } with ⟨res, f', st₁⟩
    rw [hres] at herr
    obtain rfl : res = .error e := herr
    obtain ⟨rfl, rfl⟩ := FundingSource.preConsume_error hres
    simp only [preConsumeFunding, hres]
    by_cases hplay : info.isPlayground = true
    · -- no token in the playground, yet the books keep the amount
      rw [if_neg (by simp [fresh, hplay])]
      constructor
      · intro hclean
        have hsame := hclean.books.tokenConsumed
        simp only [fresh] at hsame
        omega
      · rintro (hfails | hundo)
        · exact absurd hfails hnot
        · rw [hundo.1] at hplay
          exact absurd hplay (by simp)
    · replace hplay : info.isPlayground = false := by simpa using hplay
      rw [if_pos ⟨by show 0 < max amount 0; omega, hplay⟩, max_eq_left (le_of_lt hpos)]
      have hdraw' : Moves env.quota st.token c (-amount) := by
        simpa [tokenShare, hplay] using hdraw
      rcases increaseTokenQuota_undo (r := r.rollback) hdraw' hpos with
        ⟨hdb, c', hc', hmoves⟩ | ⟨hno, e', he'⟩
      · simp only [hc']
        refine ⟨fun _ => .inr ⟨hplay, hdb⟩, fun _ => ⟨⟨_, rfl⟩, ?_, ⟨rfl, rfl, rfl, rfl⟩, ?_⟩⟩
        · exact ⟨rfl, by simpa using hmoves.balance, fun _ => rfl⟩
        · intro rr
          rw [refund_of_nothing_drawn rfl hnothing, refund_of_nothing_drawn rfl hnothing]
          exact ⟨rfl, by simpa using hmoves.balance, fun _ => rfl⟩
      · simp only [he']
        constructor
        · intro hclean
          have hsame := hclean.funds.token
          simp only [hdraw'.balance] at hsame
          omega
        · rintro (hfails | hundo)
          · exact absurd hfails hnot
          · exact absurd hundo.2 hno

end PreConsume

/-! ### Both calls -/

/--
**A failed call leaves no trace, except where its compensation cannot undo it.**
For every session and every state of the stores: a `Reserve` whose funding or token
step fails, and the `preConsume` that opens a session.
-/
theorem failed_call_clean_iff (env : BillingEnv) (st : Stores) :
    (∀ (s : BillingSession) (r : ReserveReplies) (target : Int),
      RowsOK st.subs → s.reserveSkips target = false →
      ReserveFundingFails env r target s st ∨ ReserveTokenFails env r target s st →
      (FailsCleanly env s st (s.reserve env r target st) ↔
        ReserveFundingFails env r target s st ∨
          (RollsBack env r.rollback (target - s.preConsumedQuota) s st ∧ BooksUndo s))) ∧
    (∀ (source : BillingSource) (info : RelayInfo) (quota : Int) (r : PreConsumeReplies),
      PreConsumeTokenFails env r (opening source info quota).2
          (opening source info quota).1 st ∨
        PreConsumeFundingFails env r (opening source info quota).2
          (opening source info quota).1 st →
      (FailsCleanly env (opening source info quota).1 st
          (newSession source env r info quota st) ↔
        PreConsumeTokenFails env r (opening source info quota).2
          (opening source info quota).1 st ∨ TokenUndo env r info)) :=
  ⟨fun _ _ _ hrows hskip hfail => reserve_failsCleanly_iff hrows hskip hfail,
    fun _ _ _ _ hfail => preConsume_failsCleanly_iff hfail⟩

def quotaDown : QuotaReply := ⟨none, false, none, false⟩

def tokenDown : ReserveReplies := ⟨fundingUp, quotaDown, fundingUp⟩

def tenOf (info : RelayInfo) : BillingSession × Stores :=
  (newSession .wallet plainEnv preConsumeUp info 10 plainStores).2

theorem tenOf_tokenFails (image : Bool) :
    ReserveTokenFails plainEnv tokenDown 30 (tenOf { imageInfo with isImageRequest := image }).1
      (tenOf { imageInfo with isImageRequest := image }).2 := by
  cases image
  · exact ⟨_, _, _, rfl, rfl⟩
  · exact ⟨_, _, _, rfl, rfl⟩

/-- The books of an image request are lost in the rollback, and 10 with them. -/
theorem image_reserve_not_clean :
    RowsOK (tenOf imageInfo).2.subs ∧ (tenOf imageInfo).1.reserveSkips 30 = false ∧
      ReserveTokenFails plainEnv tokenDown 30 (tenOf imageInfo).1 (tenOf imageInfo).2 ∧
      ¬FailsCleanly plainEnv (tenOf imageInfo).1 (tenOf imageInfo).2
        ((tenOf imageInfo).1.reserve plainEnv tokenDown 30 (tenOf imageInfo).2) := by
  refine ⟨plainStores_rowsOK, rfl, tenOf_tokenFails true, ?_⟩
  intro hclean
  exact absurd hclean.books.funding (by decide)

/-- A text request fails cleanly at the same point. -/
theorem text_reserve_clean :
    FailsCleanly plainEnv (tenOf textInfo).1 (tenOf textInfo).2
      ((tenOf textInfo).1.reserve plainEnv tokenDown 30 (tenOf textInfo).2) := by
  have hback : RollsBack plainEnv tokenDown.rollback 20 (tenOf textInfo).1 (tenOf textInfo).2 := by
    show (20 : Int) ≤ maxWalletQuota ∧ (false = false → true = true ∧ (990 : Int) ≤ maxWalletQuota)
    decide
  have hundo : BooksUndo (tenOf textInfo).1 := by
    show false = true → (10 : Int) = 0
    decide
  exact ((failed_call_clean_iff plainEnv (tenOf textInfo).2).1 (tenOf textInfo).1 tokenDown 30
    plainStores_rowsOK rfl (.inr (tenOf_tokenFails false))).mpr (.inr ⟨hback, hundo⟩)

end BillingSession

end JulongApi

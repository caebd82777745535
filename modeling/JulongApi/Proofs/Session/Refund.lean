/-
A refund after any number of reserves, and when it returns everything.

The run is `preConsume`, then reserves that all succeed, then `Refund`.  What the
wallet's books say at the end is the `Escrow.book` of the draws the calls made, because
an image request writes its draw over `consumed` while any other request adds to it.
What was drawn is their `Escrow.total`.  The refund pays out the book, so the wallet
comes back to where it started exactly when the two agree and the credit is within the
wallet's limit.

A subscription keeps the two parts of what it drew in two places, and they always add
up; there the only thing that can stand between the first value and the last is a
periodic reset that fell due when the session was opened.
-/
import JulongApi.Lib.Machine
import JulongApi.Lib.Escrow
import JulongApi.Proofs.Session.Live

namespace JulongApi.BillingSession

/-! ### The run -/

def reserveStep (env : BillingEnv) (p : BillingSession × Stores) (call : ReserveCall) :
    Option (BillingSession × Stores) :=
  match reserveCall env call p.1 p.2 with
  | (.ok (), s, st) => some (s, st)
  | (.error _, _, _) => none

structure RefundReplies.NoFailure (r : RefundReplies) : Prop where
  funding : r.funding.dbOk = true
  attempts : ∀ i, r.attempts i = .none
  extra : r.extra = none
  token : r.token.dbOk = true

/-- Funding source and token stand where they stood in `st₀`. -/
structure Restored (s : BillingSession) (st₀ st : Stores) : Prop where
  funding : s.funding.spent st = s.funding.spent st₀
  token : st.token.balance = st₀.token.balance

/-! ### The draws of a run, from its inputs alone -/

/-- Whether `Reserve` takes the request for an image request at this call. -/
def ReserveCall.image (info : RelayInfo) (call : ReserveCall) : Bool :=
  info.isImageRequest || decide (0 < call.imageRequestCount)

/--
The draws the calls make on a wallet that holds `held`: a call draws what its target
exceeds the holding by, and not at all from a trusted user unless for an image.
-/
def draws (info : RelayInfo) : (trusted : Bool) → (held : Int) → List ReserveCall →
    List (Escrow.Draw Int)
  | _, _, [] => []
  | trusted, held, call :: rest =>
    if (trusted && !call.image info) || decide (call.targetQuota ≤ held) then
      draws info trusted held rest
    else ⟨call.image info, call.targetQuota - held⟩ :: draws info false call.targetQuota rest

theorem draws_pos (info : RelayInfo) : ∀ {calls : List ReserveCall} {trusted : Bool} {held : Int},
    ∀ d ∈ draws info trusted held calls, 0 < d.amount := by
  intro calls
  induction calls with
  | nil =>
    intro trusted held d hd
    simp [draws] at hd
  | cons call rest ih =>
    intro trusted held d hd
    unfold draws at hd
    split at hd
    · exact ih d hd
    · rename_i hgo
      rcases List.mem_cons.mp hd with rfl | hrest
      · simp only [Bool.or_eq_true, decide_eq_true_eq, not_or, not_le] at hgo
        show 0 < call.targetQuota - held
        omega
      · exact ih d hrest

variable {env : BillingEnv} {info : RelayInfo} {st₀ : Stores} {base : Int}
  {s s' : BillingSession} {st st' : Stores}

structure WalletBooks (s : BillingSession) (userId : Nat) (consumed : Int) : Prop where
  funding : s.funding = .wallet ⟨userId, consumed⟩
  token : s.tokenConsumed = s.preConsumedQuota

theorem imageRequest_withImageRequestCount (h : Live env info st₀ base s st)
    (call : ReserveCall) :
    (s.withImageRequestCount call.imageRequestCount).imageRequest = call.image info := by
  unfold imageRequest ReserveCall.image
  rw [← h.isImageRequest]
  rfl

theorem reserveSkips_withImageRequestCount (h : Live env info st₀ base s st)
    (call : ReserveCall) :
    (s.withImageRequestCount call.imageRequestCount).reserveSkips call.targetQuota =
      ((s.trusted && !call.image info) || decide (call.targetQuota ≤ s.preConsumedQuota)) := by
  unfold reserveSkips
  rw [imageRequest_withImageRequestCount h]
  show (s.settled || s.refunded || (s.trusted && !call.image info) ||
    decide (call.targetQuota ≤ s.preConsumedQuota)) = _
  rw [h.unsettled, h.unrefunded]
  simp

theorem reserveStep_some (h : Live env info st₀ base s st) {call : ReserveCall}
    (hstep : reserveStep env (s, st) call = some (s', st')) :
    Live env info st₀ base s' st' ∧ st'.subs.records = st.subs.records ∧
      ((((s.trusted && !call.image info) ||
          decide (call.targetQuota ≤ s.preConsumedQuota)) = true ∧
        s' = s.withImageRequestCount call.imageRequestCount ∧ st' = st) ∨
      (((s.trusted && !call.image info) ||
          decide (call.targetQuota ≤ s.preConsumedQuota)) = false ∧
        s' = (s.withImageRequestCount call.imageRequestCount).reserved
          (call.targetQuota - s.preConsumedQuota))) := by
  have hlive := h.withImageRequestCount call.imageRequestCount
  have hskips := reserveSkips_withImageRequestCount h call
  unfold reserveStep reserveCall at hstep
  split at hstep
  · rename_i s₁ st₁ hres
    cases hstep
    cases hskip : (s.withImageRequestCount call.imageRequestCount).reserveSkips
        call.targetQuota with
    | true =>
      rw [reserve_skips hskip] at hres
      cases hres
      exact ⟨hlive, rfl, .inl ⟨hskips.symm.trans hskip, rfl, rfl⟩⟩
    | false =>
      obtain ⟨heq, hrecords, hlive'⟩ := hlive.reserve_ok hskip hres
      exact ⟨hlive', hrecords, .inr ⟨hskips.symm.trans hskip, heq⟩⟩
  · simp at hstep

/-! ### Wallet -/

theorem run_wallet : ∀ {calls : List ReserveCall} {s : BillingSession} {st : Stores}
    {userId : Nat} {consumed : Int}, Live env info st₀ base s st →
    WalletBooks s userId consumed →
    Machine.run (reserveStep env) (s, st) calls = some (s', st') →
    Live env info st₀ base s' st' ∧
      WalletBooks s' userId
        (Escrow.book consumed (draws info s.trusted s.preConsumedQuota calls)) ∧
      s'.preConsumedQuota =
        Escrow.total s.preConsumedQuota (draws info s.trusted s.preConsumedQuota calls) := by
  intro calls
  induction calls with
  | nil =>
    intro s st userId consumed hlive hbooks hrun
    cases hrun
    refine ⟨hlive, ?_, ?_⟩
    · simpa [draws, Escrow.book] using hbooks
    · simp [draws]
  | cons call rest ih =>
    intro s st userId consumed hlive hbooks hrun
    obtain ⟨⟨s₁, st₁⟩, hstep, hrest⟩ := Machine.run_cons _ hrun
    obtain ⟨hlive₁, -, ⟨hskip, rfl, rfl⟩ | ⟨hgo, rfl⟩⟩ := reserveStep_some hlive hstep
    · have hbooks₁ : WalletBooks (s.withImageRequestCount call.imageRequestCount) userId
          consumed := ⟨hbooks.funding, hbooks.token⟩
      have hih := ih hlive₁ hbooks₁ hrest
      unfold draws
      rw [if_pos hskip]
      exact hih
    · -- trust ends with the first draw, whichever kind of request makes it
      have htrusted : ((s.withImageRequestCount call.imageRequestCount).reserved
          (call.targetQuota - s.preConsumedQuota)).trusted = false := by
        rw [reserved_trusted, imageRequest_withImageRequestCount hlive]
        exact (Bool.or_eq_false_iff.mp hgo).1
      have hquota : ((s.withImageRequestCount call.imageRequestCount).reserved
          (call.targetQuota - s.preConsumedQuota)).preConsumedQuota = call.targetQuota := by
        rw [reserved_preConsumedQuota]
        show s.preConsumedQuota + (call.targetQuota - s.preConsumedQuota) = call.targetQuota
        omega
      have hbooks₁ : WalletBooks ((s.withImageRequestCount call.imageRequestCount).reserved
          (call.targetQuota - s.preConsumedQuota)) userId
          (if call.image info then call.targetQuota - s.preConsumedQuota
            else consumed + (call.targetQuota - s.preConsumedQuota)) := by
        refine ⟨?_, ?_⟩
        · rw [reserved_funding, imageRequest_withImageRequestCount hlive]
          show bookReserve _ _ s.funding = _
          rw [hbooks.funding, bookReserve]
        · rw [reserved_tokenConsumed, reserved_preConsumedQuota]
          show s.tokenConsumed + _ = s.preConsumedQuota + _
          rw [hbooks.token]
      have hih := ih hlive₁ hbooks₁ hrest
      rw [htrusted, hquota] at hih
      unfold draws
      rw [if_neg (by simp [hgo]), Escrow.book, Escrow.total_cons,
        show s.preConsumedQuota + (call.targetQuota - s.preConsumedQuota) = call.targetQuota
          by omega]
      exact hih

theorem refund_of_tokenConsumed {w : WalletFunding} {r : RefundReplies}
    (hfunding : s.funding = .wallet w) (h : s.tokenConsumed = 0) :
    (s.refund env r st).2 = st := by
  have hneeds : s.needsRefundLocked = false := by
    unfold needsRefundLocked
    rw [hfunding, h]
    simp
  unfold refund
  rw [if_pos (by simp [hneeds])]

theorem refund_live {r : RefundReplies} (h : Live env info st₀ base s st)
    (hneeds : 0 < s.tokenConsumed) : (s.refund env r st).2 = s.refundFunds env r st := by
  have hlocked : s.needsRefundLocked = true := by
    unfold needsRefundLocked
    rw [h.unsettled, h.unrefunded, h.fundingUnsettled, if_neg (by simp), if_pos hneeds]
  unfold refund
  rw [h.unsettled, h.unrefunded, hlocked]
  rfl

section RefundFunds

variable {r : RefundReplies}

theorem refundFunds_token_balance (h : Live env info st₀ base s st)
    (htoken : s.tokenConsumed = s.preConsumedQuota) (hr : r.token.dbOk = true) :
    (s.refundFunds env r st).token.balance = st₀.token.balance := by
  have hbal := h.token.balance
  have hnonneg := h.nonneg
  rw [refundFunds_token]
  unfold tokenShare at hbal
  rw [← h.isPlayground] at hbal
  by_cases hplay : s.relayInfo.isPlayground = true
  · rw [if_neg (by simp [hplay]), hbal, if_pos hplay]
    omega
  · rw [if_neg hplay] at hbal
    by_cases hpos : 0 < s.tokenConsumed
    · rw [if_pos ⟨hpos, by simpa using hplay⟩]
      obtain ⟨c, hc, hmoves⟩ : ∃ c, increaseTokenQuota env.quota r.token st.token
          s.tokenConsumed = (.ok (), c) ∧ Moves env.quota st.token c s.tokenConsumed :=
        increaseTokenQuota_of_dbOk hr (le_of_lt hpos)
      rw [hc, hmoves.balance, hbal, htoken]
      omega
    · rw [if_neg (fun hc => hpos hc.1), hbal]
      omega

end RefundFunds

theorem WalletFunding.refund_balance {cfg : QuotaConfig} {r : QuotaReply} {w : WalletFunding}
    {c : QuotaColumn} (hdb : r.dbOk = true) :
    (w.refund cfg r c).2.balance = c.balance + w.consumed ∧ 0 < w.consumed ∧
        walletRoom cfg c w.consumed ∨
      (w.refund cfg r c).2.balance = c.balance ∧
        (w.consumed ≤ 0 ∨ ¬walletRoom cfg c w.consumed) := by
  unfold WalletFunding.refund
  by_cases hle : w.consumed ≤ 0
  · rw [if_pos hle]
    exact .inr ⟨rfl, .inl hle⟩
  · rw [if_neg hle]
    by_cases hroom : walletRoom cfg c w.consumed
    · obtain ⟨c', hc', hmoves⟩ := increaseUserQuota_of_room hdb (by omega) hroom
      rw [hc']
      exact .inl ⟨hmoves.balance, by omega, hroom⟩
    · rw [increaseUserQuota_of_no_room hroom]
      exact .inr ⟨rfl, .inr hroom⟩

/-- **The wallet gets everything back exactly when its books and its limit allow it.** -/
theorem refund_wallet {r : RefundReplies} {userId : Nat} {consumed : Int}
    (h : Live env info st₀ base s st) (hbooks : WalletBooks s userId consumed)
    (hr : r.NoFailure) :
    Restored s st₀ (s.refund env r st).2 ↔
      s.preConsumedQuota = 0 ∨ (consumed = s.preConsumedQuota ∧
        s.preConsumedQuota ≤ maxWalletQuota ∧
        (env.quota.batchUpdateEnabled = false → st₀.wallet.stored ≤ maxWalletQuota)) := by
  have hdrawn : Moves env.quota st₀.wallet st.wallet (-s.preConsumedQuota) := by
    have := h.funding
    rwa [hbooks.funding] at this
  have hbal := hdrawn.balance
  have hnonneg := h.nonneg
  by_cases hzero : s.preConsumedQuota = 0
  · rw [refund_of_tokenConsumed hbooks.funding (hbooks.token.trans hzero)]
    refine ⟨fun _ => .inl hzero, fun _ => ⟨?_, ?_⟩⟩
    · rw [hbooks.funding]
      show -st.wallet.balance = -st₀.wallet.balance
      omega
    · rw [h.token.balance, hzero]
      simp [tokenShare]
  have hpos : 0 < s.tokenConsumed := by
    rw [hbooks.token]
    omega
  rw [refund_live h hpos]
  have htoken := refundFunds_token_balance h hbooks.token hr.token
  have hwallet : (s.refundFunds env r st).wallet =
      ((⟨userId, consumed⟩ : WalletFunding).refund env.quota r.funding st.wallet).2 :=
    refundFunds_wallet hbooks.funding
  have hrestored : Restored s st₀ (s.refundFunds env r st) ↔
      (s.refundFunds env r st).wallet.balance = st₀.wallet.balance := by
    constructor
    · intro hres
      have hspent := hres.funding
      rw [hbooks.funding] at hspent
      exact neg_inj.mp hspent
    · intro hres
      refine ⟨?_, htoken⟩
      rw [hbooks.funding]
      exact congrArg Neg.neg hres
  rw [hrestored, hwallet]
  have hroom : walletRoom env.quota st.wallet s.preConsumedQuota ↔
      s.preConsumedQuota ≤ maxWalletQuota ∧
        (env.quota.batchUpdateEnabled = false → st₀.wallet.stored ≤ maxWalletQuota) := by
    unfold walletRoom
    refine and_congr_right fun _ => ?_
    refine forall_congr' fun hb => ?_
    have := hdrawn.stored hb
    omega
  rw [← hroom]
  obtain ⟨hgiven, hcpos, hok⟩ | ⟨hgiven, hno⟩ :=
    WalletFunding.refund_balance (w := ⟨userId, consumed⟩) (c := st.wallet) hr.funding
  · rw [hgiven, hbal]
    constructor
    · intro heq
      have hc : consumed = s.preConsumedQuota := by
        show (⟨userId, consumed⟩ : WalletFunding).consumed = _
        omega
      exact .inr ⟨hc, hc ▸ hok⟩
    · rintro (hz | ⟨hc, -⟩)
      · exact absurd hz hzero
      · show _ + _ + consumed = _
        omega
  · rw [hgiven, hbal]
    constructor
    · intro heq
      omega
    · rintro (hz | ⟨rfl, hok⟩)
      · exact absurd hz hzero
      · rcases hno with hle | hnot
        · replace hle : s.preConsumedQuota ≤ 0 := hle
          omega
        · exact absurd hok hnot

/-! ### Subscription -/

theorem run_subscription : ∀ {calls : List ReserveCall} {s : BillingSession} {st : Stores}
    {f : SubscriptionFunding}, Live env info st₀ base s st → SubscriptionBooks s st f →
    s.tokenConsumed = s.preConsumedQuota →
    Machine.run (reserveStep env) (s, st) calls = some (s', st') →
    Live env info st₀ base s' st' ∧ SubscriptionBooks s' st' f ∧
      s'.tokenConsumed = s'.preConsumedQuota := by
  intro calls
  induction calls with
  | nil =>
    intro s st f hlive hbooks htoken hrun
    cases hrun
    exact ⟨hlive, hbooks, htoken⟩
  | cons call rest ih =>
    intro s st f hlive hbooks htoken hrun
    obtain ⟨⟨s₁, st₁⟩, hstep, hrest⟩ := Machine.run_cons _ hrun
    obtain ⟨hlive₁, hrecords, ⟨-, rfl, rfl⟩ | ⟨hgo, rfl⟩⟩ := reserveStep_some hlive hstep
    · have hbooks₁ : SubscriptionBooks (s.withImageRequestCount call.imageRequestCount) st₁ f :=
        ⟨hbooks.funding, hbooks.preConsumed_pos, hbooks.extra_nonneg, hbooks.total,
          hbooks.subscriptionId, hbooks.requestId, hbooks.record⟩
      have htoken₁ : (s.withImageRequestCount call.imageRequestCount).tokenConsumed =
          (s.withImageRequestCount call.imageRequestCount).preConsumedQuota := htoken
      exact ih hlive₁ hbooks₁ htoken₁ hrest
    · have hpos : 0 < call.targetQuota - s.preConsumedQuota := by
        have := (Bool.or_eq_false_iff.mp hgo).2
        simp only [decide_eq_false_iff_not, not_le] at this
        omega
      have hfunding : ((s.withImageRequestCount call.imageRequestCount).reserved
          (call.targetQuota - s.preConsumedQuota)).funding = .subscription f := by
        rw [reserved_funding]
        show bookReserve _ _ s.funding = _
        rw [hbooks.funding, bookReserve]
      refine ih hlive₁ ⟨hfunding, hbooks.preConsumed_pos, ?_, ?_, ?_, hbooks.requestId, ?_⟩ ?_
        hrest
      · rw [reserved_extraReserved]
        show 0 ≤ s.extraReserved + _
        have := hbooks.extra_nonneg
        omega
      · rw [reserved_extraReserved, reserved_preConsumedQuota]
        show f.preConsumed + (s.extraReserved + _) = s.preConsumedQuota + _
        have := hbooks.total
        omega
      · refine syncRelayInfo_subscriptionId ?_
        rw [← syncRelayInfo_funding]
        exact hfunding
      · rw [hrecords]
        exact hbooks.record
      · rw [reserved_tokenConsumed, reserved_preConsumedQuota]
        show s.tokenConsumed + _ = s.preConsumedQuota + _
        rw [htoken]

theorem refund_subscription {r : RefundReplies} {f : SubscriptionFunding}
    (h : Live env info st₀ base s st) (hbooks : SubscriptionBooks s st f)
    (htoken : s.tokenConsumed = s.preConsumedQuota) (hr : r.NoFailure) :
    (s.refund env r st).2.subs.amountUsed f.subscriptionId = base ∧
      (s.refund env r st).2.token.balance = st₀.token.balance := by
  have hpos : 0 < s.tokenConsumed := by
    have := hbooks.preConsumed_pos
    have := hbooks.extra_nonneg
    have := hbooks.total
    omega
  rw [refund_live h hpos]
  refine ⟨?_, refundFunds_token_balance h htoken hr.token⟩
  have hdrawn := h.funding
  rw [hbooks.funding] at hdrawn
  obtain ⟨hid, row, hfind, hrow, hused⟩ := hdrawn
  obtain ⟨record, hrecord, hrid, hrpre, hrstatus⟩ := hbooks.record
  have hbase := h.base_nonneg
  have htotal := hbooks.total
  have hextra := hbooks.extra_nonneg
  -- first the pre-consume, through its record
  have hfirst : (f.refund r.attempts st.subs).2 =
      (st.subs.saveSub (row.addUsed (-f.preConsumed))).saveRecord
        { record with status := .refunded } := by
    have hone := refundSubscriptionPreConsume_none hbooks.requestId hrecord hrstatus
      (by rw [hrpre]; exact hbooks.preConsumed_pos) (by rw [hrid]; exact hid)
      (by rw [hrid]; exact hfind) hrow (by rw [hrpre]; omega)
    have hp := hbooks.preConsumed_pos
    unfold SubscriptionFunding.refund refundWithRetry retryFrom
    rw [if_neg (by omega)]
    simp only [hr.attempts, hone, hrpre]
  obtain ⟨-, hused₁, hrow₁⟩ := postConsume_give_back hid hfind hrow hbooks.preConsumed_pos
    (by omega)
  have hfind₁ : (f.refund r.attempts st.subs).2.subs.find f.subscriptionId =
      some (row.addUsed (-f.preConsumed)) := by
    rw [hfirst]
    exact find_addUsed hfind
  -- then what was reserved on top of it
  rw [refundFunds_subs hbooks.funding, hbooks.subscriptionId, hr.extra]
  by_cases hmore : 0 < s.extraReserved
  · rw [if_pos ⟨hmore, hid⟩]
    obtain ⟨hpost, hused₂, -⟩ := postConsume_give_back hid hfind₁ hrow₁ hmore (by omega)
    rw [hpost, SubscriptionDB.amountUsed_of_find (find_addUsed hfind₁), hused₂]
    omega
  · rw [if_neg (fun hc => hmore hc.1), SubscriptionDB.amountUsed_of_find hfind₁, hused₁]
    omega

/-! ### When everything comes back -/

/--
The condition, from the inputs of the run.  On a wallet: nothing was drawn, or no image
request drew while something was held and the whole is within the wallet's limit.  On a
subscription: opening the session did not reset the row it charged.
-/
def RefundCondition (env : BillingEnv) (info : RelayInfo) (quota : Int)
    (r : PreConsumeReplies) (st : Stores) (calls : List ReserveCall) : BillingSource → Prop
  | .wallet =>
    let held := (ofWallet info).effectiveQuota env r quota
    let drawn := draws info ((ofWallet info).shouldTrust env r.tokenQuota) held calls
    Escrow.total held drawn = 0 ∨ (Escrow.NoOverwrite held drawn ∧
      Escrow.total held drawn ≤ maxWalletQuota ∧
      (env.quota.batchUpdateEnabled = false → st.wallet.stored ≤ maxWalletQuota))
  | .subscription =>
    ∀ row sub, charged env.subscription (subscriptionArgs info quota r.funding.now)
      (activeSubs st.subs info.userId r.funding.now) = some (row, sub) →
      sub.amountUsed = row.amountUsed

/--
**A refund returns everything exactly when no image request drew on a held wallet.**
For every session, every quota it was opened with and every run of successful reserves.
-/
theorem refund_restores_iff {source : BillingSource} {quota : Int} {r : PreConsumeReplies}
    {calls : List ReserveCall} {rr : RefundReplies} {s₁ : BillingSession} {st₁ : Stores}
    (hquota : 0 ≤ quota) (hrows : RowsOK st.subs)
    (hfresh : st.subs.records.find info.requestId = none)
    (hopen : newSession source env r info quota st = (.ok (), s₁, st₁))
    (hrun : Machine.run (reserveStep env) (s₁, st₁) calls = some (s', st'))
    (hr : rr.NoFailure) :
    Restored s' st (s'.refund env rr st').2 ↔
      RefundCondition env info quota r st calls source := by
  cases source with
  | wallet =>
    obtain ⟨hlive, rfl⟩ := newSession_wallet hquota hopen
    have hnonneg : 0 ≤ (ofWallet info).effectiveQuota env r quota :=
      effectiveQuota_nonneg hquota
    have hbooks : WalletBooks ((ofWallet info).preConsumed env r quota
        (.wallet ⟨info.userId, (ofWallet info).effectiveQuota env r quota⟩)) info.userId
        ((ofWallet info).effectiveQuota env r quota) :=
      ⟨by simp [preConsumed], by simp [preConsumed]⟩
    obtain ⟨hlive', hbooks', hquota'⟩ := run_wallet hlive hbooks hrun
    rw [refund_wallet hlive' hbooks' hr, hquota']
    simp only [preConsumed, syncRelayInfo_trusted, syncRelayInfo_preConsumedQuota]
    rw [Escrow.book_eq_total_iff hnonneg (draws_pos info)]
    rfl
  | subscription =>
    obtain ⟨row, sub, f, hcharged, hid, hbefore, hlive, hbooks, htoken⟩ :=
      newSession_subscription hrows hfresh hopen
    obtain ⟨hlive', hbooks', htoken'⟩ := run_subscription hlive hbooks htoken hrun
    obtain ⟨hused, htok⟩ := refund_subscription hlive' hbooks' htoken' hr
    have hcond : RefundCondition env info quota r st calls .subscription ↔
        sub.amountUsed = row.amountUsed := by
      unfold RefundCondition
      rw [hcharged]
      constructor
      · intro h
        exact h row sub rfl
      · intro heq row' sub' hsame
        cases hsame
        exact heq
    rw [hcond, ← hbefore, ← hid]
    constructor
    · intro hres
      have hfund := hres.funding
      rw [hbooks'.funding] at hfund
      exact hused.symm.trans hfund
    · intro heq
      refine ⟨?_, htok⟩
      rw [hbooks'.funding]
      exact hused.trans heq

/-! ### An image request that is reserved for twice -/

section ImageRequest

def refundUp : RefundReplies := ⟨quotaUp, fun _ => .none, none, quotaUp⟩

theorem refundUp_noFailure : refundUp.NoFailure := ⟨rfl, fun _ => rfl, rfl, rfl⟩

def imageRun : Option (BillingSession × Stores) :=
  Machine.run (reserveStep plainEnv)
    (newSession .wallet plainEnv preConsumeUp imageInfo 10 plainStores).2 [reserveUp 30]

/-- Opened with 10 and reserved up to 30, the session gives 20 back. -/
theorem image_refund_short :
    0 ≤ (10 : Int) ∧ RowsOK plainStores.subs ∧
      plainStores.subs.records.find imageInfo.requestId = none ∧ refundUp.NoFailure ∧
      (newSession .wallet plainEnv preConsumeUp imageInfo 10 plainStores).1 = .ok () ∧
      ∃ p, imageRun = some p ∧ (p.1.refund plainEnv refundUp p.2).2.wallet.balance = 990 ∧
        ¬Restored p.1 plainStores (p.1.refund plainEnv refundUp p.2).2 := by
  refine ⟨by decide, plainStores_rowsOK, rfl, refundUp_noFailure, rfl, _, rfl, rfl, ?_⟩
  intro hres
  exact absurd hres.funding (by decide)

/-- The same two calls for a request that is not for an image return everything. -/
theorem plain_refund_restores :
    ∃ p, Machine.run (reserveStep plainEnv)
        (newSession .wallet plainEnv preConsumeUp textInfo 10 plainStores).2
        [reserveUp 30] = some p ∧
      Restored p.1 plainStores (p.1.refund plainEnv refundUp p.2).2 := by
  have hcond : RefundCondition plainEnv textInfo 10 preConsumeUp plainStores [reserveUp 30]
      .wallet := by
    refine Or.inr ⟨⟨?_, trivial⟩, by decide, fun _ => by decide⟩
    intro hover
    exact absurd hover (by decide)
  refine ⟨_, rfl, ?_⟩
  exact (refund_restores_iff (by decide) plainStores_rowsOK rfl rfl rfl
    refundUp_noFailure).mpr hcond

end ImageRequest

end JulongApi.BillingSession

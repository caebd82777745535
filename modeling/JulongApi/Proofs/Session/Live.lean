/-
A session between its opening and its end, in step with the stores.

`Live` ties the one number every later call computes with, `preConsumedQuota`, to what
has really left the funding source and the token since the session was opened.  It is
established by a successful `preConsume` and kept by every reserve that goes through.

`SubscriptionBooks` adds what a refund of a subscription relies on: the record of the
pre-consume is there, and the two amounts the refund returns separately make up the
whole.
-/
import JulongApi.Proofs.BillingSession

namespace JulongApi.BillingSession

/-- The session is open and `preConsumedQuota` is what it has drawn since `st₀`. -/
structure Live (env : BillingEnv) (info : RelayInfo) (st₀ : Stores) (base : Int)
    (s : BillingSession) (st : Stores) : Prop where
  unsettled : s.settled = false
  unrefunded : s.refunded = false
  fundingUnsettled : s.fundingSettled = false
  isPlayground : s.relayInfo.isPlayground = info.isPlayground
  isImageRequest : s.relayInfo.isImageRequest = info.isImageRequest
  base_nonneg : 0 ≤ base
  nonneg : 0 ≤ s.preConsumedQuota
  funding : FundingDrawn env.quota st₀ base st s.preConsumedQuota s.funding
  token : Moves env.quota st₀.token st.token (-tokenShare info s.preConsumedQuota)

/-- What the refund of a subscription session relies on. -/
structure SubscriptionBooks (s : BillingSession) (st : Stores) (f : SubscriptionFunding) :
    Prop where
  funding : s.funding = .subscription f
  preConsumed_pos : 0 < f.preConsumed
  extra_nonneg : 0 ≤ s.extraReserved
  total : f.preConsumed + s.extraReserved = s.preConsumedQuota
  subscriptionId : s.relayInfo.subscriptionId = f.subscriptionId
  requestId : isBlank f.requestId = false
  record : ∃ record, st.subs.records.find f.requestId = some record ∧
    record.userSubscriptionId = f.subscriptionId ∧ record.preConsumed = f.preConsumed ∧
    record.status = .consumed

variable {env : BillingEnv} {info : RelayInfo} {st₀ : Stores} {base : Int}
  {s s' : BillingSession} {st st' : Stores}

/-! ### A reserve keeps the session live -/

theorem Live.withImageRequestCount (h : Live env info st₀ base s st) (count : Int) :
    Live env info st₀ base (s.withImageRequestCount count) st :=
  ⟨h.unsettled, h.unrefunded, h.fundingUnsettled, h.isPlayground, h.isImageRequest,
    h.base_nonneg, h.nonneg, h.funding, h.token⟩

theorem Live.tokenShare_eq (h : Live env info st₀ base s st) (amount : Int) :
    tokenShare s.relayInfo amount = tokenShare info amount := by
  unfold tokenShare
  rw [h.isPlayground]

theorem Live.reserve_ok (h : Live env info st₀ base s st) {r : ReserveReplies} {target : Int}
    (hskip : s.reserveSkips target = false)
    (hres : s.reserve env r target st = (.ok (), s', st')) :
    s' = s.reserved (target - s.preConsumedQuota) ∧ st'.subs.records = st.subs.records ∧
      Live env info st₀ base s' st' := by
  have hbase : 0 ≤ base + s.preConsumedQuota := by
    have := h.base_nonneg
    have := h.nonneg
    omega
  obtain ⟨rfl, hrecords, hfunding, htoken⟩ :=
    BillingSession.reserve_ok hskip hbase h.funding hres
  obtain ⟨-, -, hlt, -⟩ := reserveSkips_false hskip
  have hquota : (s.reserved (target - s.preConsumedQuota)).preConsumedQuota = target := by
    rw [reserved_preConsumedQuota]
    omega
  refine ⟨rfl, hrecords, ?_⟩
  refine ⟨?_, ?_, ?_, ?_, ?_, h.base_nonneg, ?_, ?_, ?_⟩
  · simpa [reserved] using h.unsettled
  · simpa [reserved] using h.unrefunded
  · simpa [reserved] using h.fundingUnsettled
  · simpa [reserved] using h.isPlayground
  · simpa [reserved] using h.isImageRequest
  · have := h.nonneg
    omega
  · rw [hquota]
    exact hfunding
  · rw [hquota]
    rw [h.tokenShare_eq] at htoken
    have hsum := h.token.trans htoken
    rwa [← Int.neg_add, ← tokenShare_add,
      show s.preConsumedQuota + (target - s.preConsumedQuota) = target by omega] at hsum

/-! ### Opening a session -/

variable {quota : Int} {r : PreConsumeReplies}

theorem newSession_wallet (hquota : 0 ≤ quota)
    (h : newSession .wallet env r info quota st = (.ok (), s, st')) :
    Live env info st 0 s st' ∧
      s = (ofWallet info).preConsumed env r quota
        (.wallet ⟨info.userId, (ofWallet info).effectiveQuota env r quota⟩) := by
  obtain ⟨c, funding', htoken, hfund, rfl⟩ := preConsume_ok hquota h
  have hnonneg : 0 ≤ (ofWallet info).effectiveQuota env r quota := effectiveQuota_nonneg hquota
  change 0 ≤ (fresh info (.wallet ⟨info.userId, 0⟩)).effectiveQuota env r quota at hnonneg
  generalize hq : (fresh info (.wallet ⟨info.userId, 0⟩)).effectiveQuota env r quota = amount
    at htoken hfund hnonneg
  have hq' : (ofWallet info).effectiveQuota env r quota = amount := hq
  obtain ⟨w, c', hres, rfl, rfl⟩ := FundingSource.preConsume_wallet_ok hfund
  -- the wallet's books and its column both say `amount`, also when that is zero
  have hwallet : w = ⟨info.userId, amount⟩ ∧ Moves env.quota st.wallet c' (-amount) := by
    by_cases hpos : 0 < amount
    · obtain ⟨rfl, hmoves⟩ := WalletFunding.preConsume_ok hres hpos
      exact ⟨rfl, hmoves⟩
    · obtain rfl : amount = 0 := by omega
      rw [WalletFunding.preConsume_nonpos (le_refl 0)] at hres
      cases hres
      exact ⟨rfl, by simpa using Moves.refl env.quota st.wallet⟩
  obtain ⟨rfl, hmoves⟩ := hwallet
  refine ⟨?_, by rw [hq']; rfl⟩
  refine ⟨?_, ?_, ?_, ?_, ?_, le_refl 0, ?_, ?_, ?_⟩
  · simp [preConsumed, fresh]
  · simp [preConsumed, fresh]
  · simp [preConsumed, fresh]
  · simp [preConsumed, fresh]
  · simp [preConsumed, fresh]
  · simpa [preConsumed, hq] using hnonneg
  · simpa [preConsumed, hq, FundingDrawn] using hmoves
  · simpa [preConsumed, hq] using htoken

theorem shouldTrust_ofSubscription (tokenQuota : Int) :
    (ofSubscription info quota).shouldTrust env tokenQuota = false := by
  unfold shouldTrust
  split
  · rfl
  split
  · rfl
  split
  · rfl
  split
  · rfl
  · rfl

theorem subConsume_pos (quota : Int) : 0 < subConsume quota := by
  unfold subConsume
  split <;> omega

/-- What `trySubscription` asks `PreConsumeUserSubscription` for. -/
def subscriptionArgs (info : RelayInfo) (quota now : Int) : PreConsumeArgs :=
  ⟨info.requestId, info.userId, subConsume quota, now⟩

theorem newSession_subscription (hrows : RowsOK st.subs)
    (hfresh : st.subs.records.find info.requestId = none)
    (h : newSession .subscription env r info quota st = (.ok (), s, st')) :
    ∃ row sub f, charged env.subscription (subscriptionArgs info quota r.funding.now)
        (activeSubs st.subs info.userId r.funding.now) = some (row, sub) ∧
      f.subscriptionId = row.id ∧ st.subs.amountUsed row.id = row.amountUsed ∧
      Live env info st sub.amountUsed s st' ∧ SubscriptionBooks s st' f ∧
      s.tokenConsumed = s.preConsumedQuota := by
  have hquota : 0 ≤ subConsume quota := le_of_lt (subConsume_pos quota)
  obtain ⟨c, funding', htoken, hfund, rfl⟩ := preConsume_ok hquota h
  have hq : (fresh info (.subscription (subscriptionFunding info quota))).effectiveQuota env r
      (subConsume quota) = subConsume quota := by
    unfold effectiveQuota
    rw [show (fresh info (.subscription (subscriptionFunding info quota))).shouldTrust env
      r.tokenQuota = false from shouldTrust_ofSubscription r.tokenQuota]
    rfl
  rw [hq] at htoken
  obtain ⟨res, db', hp, rfl, rfl⟩ := FundingSource.preConsume_subscription_ok hfund
  obtain ⟨hblank, hamount, row, sub, hcharged, hch⟩ := preConsumeUserSubscription_ok hfresh hp
  obtain ⟨hmem, hfits, plan, -, hsub⟩ := mem_of_charged hcharged
  have hrow : row ∈ st.subs.subs.rows := mem_activeSubs hmem
  have hok : RowOK sub := (hrows row hrow).maybeReset hsub
  have hid : sub.id = row.id := maybeReset_id hsub
  have hfid : ((subscriptionFunding info quota).filled res).subscriptionId = sub.id := hch.id
  refine ⟨row, sub, (subscriptionFunding info quota).filled res, hcharged, hfid.trans hid,
    ?_, ?_, ?_, ?_⟩
  · exact SubscriptionDB.amountUsed_of_find (Table.find_of_mem hrow)
  · refine ⟨?_, ?_, ?_, ?_, ?_, hok.used_nonneg, ?_, ?_, ?_⟩
    · simp [preConsumed, fresh]
    · simp [preConsumed, fresh]
    · simp [preConsumed, fresh]
    · simp [preConsumed, fresh]
    · simp [preConsumed, fresh]
    · simpa [preConsumed, hq] using hquota
    · have hne : sub.id ≠ 0 := Nat.pos_iff_ne_zero.mp hok.id_pos
      simp only [preConsumed, syncRelayInfo_funding, syncRelayInfo_preConsumedQuota, hq]
      refine ⟨?_, { sub with amountUsed := sub.amountUsed + subConsume quota }, ?_,
        hok.charge hfits hamount, rfl⟩
      · exact hfid.symm ▸ hne
      · exact hfid.symm ▸ hch.row
    · simpa [preConsumed, hq] using htoken
  · refine ⟨?_, ?_, ?_, ?_, ?_, hblank, ?_⟩
    · simp [preConsumed]
    · show 0 < res.preConsumed
      rw [hch.preConsumed]
      exact hamount
    · simp [preConsumed, fresh]
    · simp only [preConsumed, syncRelayInfo_extraReserved, syncRelayInfo_preConsumedQuota, hq]
      show res.preConsumed + 0 = subConsume quota
      rw [hch.preConsumed, Int.add_zero]
      rfl
    · exact syncRelayInfo_subscriptionId rfl
    · exact ⟨_, hch.record, hch.id.symm, hch.preConsumed.symm, rfl⟩
  · simp [preConsumed]

/-! ### A small server to try the theorems on -/

def plainEnv : BillingEnv where
  quota := ⟨false, false⟩
  subscription :=
    { plans := fun _ => some ⟨.never, 0⟩
      calendar := ⟨(· + 1), (· + 1), (· + 1)⟩ }
  trustQuota := none

def imageInfo : RelayInfo where
  requestId := "r"
  userId := 1
  isPlayground := false
  tokenUnlimited := false
  forcePreConsume := false
  isImageRequest := true
  imageRequestCount := 0
  userQuota := 1000
  finalPreConsumedQuota := 0
  billingSource := none
  subscriptionId := 0
  subscriptionPreConsumed := 0
  subscriptionPostDelta := 0
  subscriptionAmountTotal := 0
  subscriptionAmountUsedAfterPreConsume := 0

def textInfo : RelayInfo := { imageInfo with isImageRequest := false }

def plainStores : Stores where
  wallet := ⟨1000, 0⟩
  token := ⟨1000, 0⟩
  subs := ⟨⟨[], by simp⟩, ⟨[], by simp⟩⟩

def quotaUp : QuotaReply := ⟨none, false, none, true⟩

def fundingUp : FundingReply := ⟨quotaUp, none, 0⟩

def preConsumeUp : PreConsumeReplies := ⟨1000, quotaUp, fundingUp, quotaUp⟩

def reserveUp (target : Int) : ReserveCall := ⟨0, target, ⟨fundingUp, quotaUp, fundingUp⟩⟩

theorem plainStores_rowsOK : RowsOK plainStores.subs := by
  intro row hrow
  simp [plainStores] at hrow

end JulongApi.BillingSession

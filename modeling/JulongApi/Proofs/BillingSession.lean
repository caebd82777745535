/-
What each method of a billing session does to the session and to the stores.

A session spends from two places at once, its funding source and the token, and it
keeps its own books about both.  The lemmas below read a method's result back into
what moved: `FundingDrawn` says how much has left the funding source, `tokenShare`
how much of it the token carries (nothing in the playground), and the `_ok` and
`_error` lemmas say which fields of the session follow.

The theorems about whole runs use these and never unfold a method again.
-/
import JulongApi.BillingSession
import JulongApi.Proofs.Quota
import JulongApi.Proofs.Subscription

namespace JulongApi

def tokenShare (info : RelayInfo) (amount : Int) : Int :=
  if info.isPlayground then 0 else amount

theorem tokenShare_add (info : RelayInfo) (a b : Int) :
    tokenShare info (a + b) = tokenShare info a + tokenShare info b := by
  unfold tokenShare
  split <;> rfl

/-- Where the funding source stands: what the wallet is short of, what the row has used. -/
def FundingSource.spent (st : Stores) : FundingSource → Int
  | .wallet _ => -st.wallet.balance
  | .subscription f => st.subs.amountUsed f.subscriptionId

/-- What the funding source draws on: the wallet, or the row of that id. -/
def FundingSource.account : FundingSource → Option Nat
  | .wallet _ => none
  | .subscription f => some f.subscriptionId

/--
`amount` has left the funding source since the stores were `st₀`; for a subscription,
since its row stood at `base`.
-/
def FundingDrawn (cfg : QuotaConfig) (st₀ : Stores) (base : Int) (st : Stores) (amount : Int) :
    FundingSource → Prop
  | .wallet _ => Moves cfg st₀.wallet st.wallet (-amount)
  | .subscription f =>
    f.subscriptionId ≠ 0 ∧ ∃ row, st.subs.subs.find f.subscriptionId = some row ∧
      RowOK row ∧ row.amountUsed = base + amount

variable {st₀ : Stores} {base : Int} {e : BillingError} {f : SubscriptionFunding}

theorem FundingDrawn.spent {cfg : QuotaConfig} {st : Stores} {amount : Int} {f : FundingSource}
    (h : FundingDrawn cfg st₀ base st amount f)
    (hbase : ∀ id, f.account = some id → st₀.subs.amountUsed id = base) :
    f.spent st = f.spent st₀ + amount := by
  cases f with
  | wallet w =>
    have hbal := Moves.balance h
    show -st.wallet.balance = -st₀.wallet.balance + amount
    omega
  | subscription f =>
    obtain ⟨-, row, hfind, -, hused⟩ := h
    show st.subs.amountUsed f.subscriptionId = st₀.subs.amountUsed f.subscriptionId + amount
    rw [SubscriptionDB.amountUsed_of_find hfind, hbase _ rfl, hused]

/-! ### The token -/

section Token

variable {cfg : QuotaConfig} {r : QuotaReply} {info : RelayInfo} {c c' : QuotaColumn}
  {quota : Int}

theorem preConsumeTokenQuota_ok (h : preConsumeTokenQuota cfg r info c quota = (.ok (), c')) :
    Moves cfg c c' (-tokenShare info quota) := by
  unfold preConsumeTokenQuota at h
  split at h
  · simp at h
  split at h
  · rename_i hplay
    cases h
    simpa [tokenShare, hplay] using Moves.refl cfg c
  next hplay =>
  split at h
  · simp at h
  · simp at h
  · rename_i hres
    cases h
    simpa [tokenShare, hplay] using tryReserveTokenQuota_true hres

theorem preConsumeTokenQuota_error (h : preConsumeTokenQuota cfg r info c quota = (.error e, c')) :
    c' = c := by
  unfold preConsumeTokenQuota at h
  split at h
  · exact (Prod.mk.inj h).2.symm
  split at h
  · simp at h
  split at h
  · rename_i hres
    cases h
    exact tryReserveTokenQuota_not_true hres (by simp)
  · rename_i hres
    cases h
    exact tryReserveTokenQuota_not_true hres (by simp)
  · simp at h

end Token

/-! ### The funding source -/

section Funding

variable {cfg : QuotaConfig} {env : BillingEnv} {r : QuotaReply} {c c' : QuotaColumn}
  {w w' : WalletFunding} {amount : Int}

theorem WalletFunding.preConsume_ok
    (h : w.preConsume cfg r c amount = (.ok (), w', c')) (hpos : 0 < amount) :
    w' = { w with consumed := amount } ∧ Moves cfg c c' (-amount) := by
  unfold WalletFunding.preConsume at h
  rw [if_neg (by omega)] at h
  split at h
  · simp at h
  · simp at h
  · rename_i hres
    cases h
    exact ⟨rfl, tryReserveQuota_true hres⟩

theorem WalletFunding.preConsume_nonpos (h : amount ≤ 0) :
    w.preConsume cfg r c amount = (.ok (), w, c) := by
  unfold WalletFunding.preConsume
  rw [if_pos h]

theorem WalletFunding.preConsume_error (h : w.preConsume cfg r c amount = (.error e, w', c')) :
    w' = w ∧ c' = c := by
  unfold WalletFunding.preConsume at h
  split at h
  · simp at h
  split at h
  · rename_i hres
    cases h
    exact ⟨rfl, tryReserveQuota_not_true hres (by simp)⟩
  · rename_i hres
    cases h
    exact ⟨rfl, tryReserveQuota_not_true hres (by simp)⟩
  · simp at h

theorem WalletFunding.settle_ok {delta : Int}
    (h : WalletFunding.settle cfg r c delta = (.ok (), c')) : Moves cfg c c' (-delta) := by
  unfold WalletFunding.settle at h
  split at h
  · rename_i hzero
    cases h
    simpa [hzero] using Moves.refl cfg c
  split at h
  · exact (decreaseQuota_ok h).2
  · exact (increaseUserQuota_ok h).2

variable {st' : Stores} {f' : FundingSource}

theorem FundingSource.preConsume_wallet_ok {fr : FundingReply} {st : Stores}
    (h : (FundingSource.wallet w).preConsume env fr amount st = (.ok (), f', st')) :
    ∃ w' c', w.preConsume env.quota fr.quota st.wallet amount = (.ok (), w', c') ∧
      f' = .wallet w' ∧ st' = { st with wallet := c' } := by
  simp only [FundingSource.preConsume, Prod.mk.injEq] at h
  obtain ⟨hres, rfl, rfl⟩ := h
  refine ⟨_, _, ?_, rfl, rfl⟩
  rw [← hres]

def SubscriptionFunding.filled (f : SubscriptionFunding) (res : SubscriptionPreConsumeResult) :
    SubscriptionFunding :=
  { f with
    subscriptionId := res.userSubscriptionId
    preConsumed := res.preConsumed
    amountTotal := res.amountTotal
    amountUsedAfter := res.amountUsedAfter }

theorem FundingSource.preConsume_subscription_ok {fr : FundingReply} {st : Stores}
    (h : (FundingSource.subscription f).preConsume env fr amount st = (.ok (), f', st')) :
    ∃ res db', preConsumeUserSubscription env.subscription fr.tx
        ⟨f.requestId, f.userId, f.amount, fr.now⟩ st.subs = (.ok res, db') ∧
      f' = .subscription (f.filled res) ∧ st' = { st with subs := db' } := by
  simp only [FundingSource.preConsume, SubscriptionFunding.preConsume, Prod.mk.injEq] at h
  obtain ⟨hres, rfl, rfl⟩ := h
  rcases hp : preConsumeUserSubscription env.subscription fr.tx
      ⟨f.requestId, f.userId, f.amount, fr.now⟩ st.subs with ⟨_ | res, db'⟩
  · rw [hp] at hres
    simp [Except.mapError] at hres
  · exact ⟨res, db', rfl, rfl, rfl⟩

theorem FundingSource.preConsume_error {fr : FundingReply} {st : Stores} {f : FundingSource}
    (h : f.preConsume env fr amount st = (.error e, f', st')) : f' = f ∧ st' = st := by
  cases f with
  | wallet w =>
    simp only [FundingSource.preConsume, Prod.mk.injEq] at h
    obtain ⟨hres, rfl, rfl⟩ := h
    rcases hw : w.preConsume env.quota fr.quota st.wallet amount with ⟨_ | _, w', c'⟩
    · obtain ⟨rfl, rfl⟩ := WalletFunding.preConsume_error hw
      exact ⟨rfl, rfl⟩
    · rw [hw] at hres
      simp at hres
  | subscription f =>
    simp only [FundingSource.preConsume, SubscriptionFunding.preConsume, Prod.mk.injEq] at h
    obtain ⟨hres, rfl, rfl⟩ := h
    rcases hp : preConsumeUserSubscription env.subscription fr.tx
        ⟨f.requestId, f.userId, f.amount, fr.now⟩ st.subs with ⟨_ | _, db'⟩
    · rw [preConsumeUserSubscription_error hp]
      exact ⟨rfl, rfl⟩
    · rw [hp] at hres
      simp [Except.mapError] at hres

end Funding

namespace BillingSession

variable {env : BillingEnv} {s s' : BillingSession} {st st' : Stores}

/-! ### `syncRelayInfo` writes to the relay info only -/

@[simp] theorem syncRelayInfo_funding : s.syncRelayInfo.funding = s.funding := by
  unfold syncRelayInfo
  split <;> rfl

@[simp] theorem syncRelayInfo_preConsumedQuota :
    s.syncRelayInfo.preConsumedQuota = s.preConsumedQuota := by
  unfold syncRelayInfo
  split <;> rfl

@[simp] theorem syncRelayInfo_tokenConsumed :
    s.syncRelayInfo.tokenConsumed = s.tokenConsumed := by
  unfold syncRelayInfo
  split <;> rfl

@[simp] theorem syncRelayInfo_extraReserved :
    s.syncRelayInfo.extraReserved = s.extraReserved := by
  unfold syncRelayInfo
  split <;> rfl

@[simp] theorem syncRelayInfo_trusted : s.syncRelayInfo.trusted = s.trusted := by
  unfold syncRelayInfo
  split <;> rfl

@[simp] theorem syncRelayInfo_fundingSettled :
    s.syncRelayInfo.fundingSettled = s.fundingSettled := by
  unfold syncRelayInfo
  split <;> rfl

@[simp] theorem syncRelayInfo_settled : s.syncRelayInfo.settled = s.settled := by
  unfold syncRelayInfo
  split <;> rfl

@[simp] theorem syncRelayInfo_refunded : s.syncRelayInfo.refunded = s.refunded := by
  unfold syncRelayInfo
  split <;> rfl

@[simp] theorem syncRelayInfo_isPlayground :
    s.syncRelayInfo.relayInfo.isPlayground = s.relayInfo.isPlayground := by
  unfold syncRelayInfo
  split <;> rfl

@[simp] theorem syncRelayInfo_isImageRequest :
    s.syncRelayInfo.relayInfo.isImageRequest = s.relayInfo.isImageRequest := by
  unfold syncRelayInfo
  split <;> rfl

theorem syncRelayInfo_subscriptionId (h : s.funding = .subscription f) :
    s.syncRelayInfo.relayInfo.subscriptionId = f.subscriptionId := by
  unfold syncRelayInfo
  simp [h]

/-! ### Reserving more -/

variable {w : WalletFunding}

section Reserve

variable {delta : Int} {fr : FundingReply} {requireAvailableQuota : Bool}

/-- What a successful reserve does to the funding source's own books. -/
def bookReserve (delta : Int) (image : Bool) : FundingSource → FundingSource
  | .wallet w => .wallet { w with consumed := if image then delta else w.consumed + delta }
  | .subscription f => .subscription f

theorem reserveFunding_wallet_ok (hf : s.funding = .wallet w) (hpos : 0 < delta)
    (h : s.reserveFunding env fr delta requireAvailableQuota st = (.ok (), s', st')) :
    s' = { s with funding := bookReserve delta requireAvailableQuota s.funding } ∧
      ∃ c, st' = { st with wallet := c } ∧ Moves env.quota st.wallet c (-delta) := by
  unfold reserveFunding at h
  simp only [hf] at h ⊢
  cases requireAvailableQuota with
  | true =>
    simp only [if_true] at h
    split at h
    · simp at h
    · simp at h
    · rename_i w' c hres
      cases h
      obtain ⟨rfl, hmoves⟩ := WalletFunding.preConsume_ok hres hpos
      exact ⟨rfl, c, rfl, hmoves⟩
  | false =>
    simp only [Bool.false_eq_true, if_false] at h
    split at h
    · simp at h
    · rename_i c hres
      cases h
      exact ⟨rfl, c, rfl, (decreaseQuota_ok hres).2⟩

theorem reserveFunding_subscription_ok (hf : s.funding = .subscription f) (hpos : 0 < delta)
    (h : s.reserveFunding env fr delta requireAvailableQuota st = (.ok (), s', st')) :
    s' = s ∧ f.subscriptionId ≠ 0 ∧ ∃ row, st.subs.subs.find f.subscriptionId = some row ∧
      st' = { st with subs := st.subs.saveSub (row.addUsed delta) } ∧
      (0 < row.amountTotal → (row.addUsed delta).amountUsed ≤ row.amountTotal) := by
  unfold reserveFunding at h
  simp only [hf] at h
  split at h
  · simp at h
  · rename_i db hres
    cases h
    obtain ⟨hid, ⟨hzero, -⟩ | ⟨row, hrow, rfl, hle⟩⟩ := postConsume_ok hres
    · omega
    · exact ⟨rfl, hid, row, hrow, rfl, hle⟩

theorem reserveFunding_ok {amount : Int} (hpos : 0 < delta) (hbase : 0 ≤ base + amount)
    (hdrawn : FundingDrawn env.quota st₀ base st amount s.funding)
    (h : s.reserveFunding env fr delta requireAvailableQuota st = (.ok (), s', st')) :
    s' = { s with funding := bookReserve delta requireAvailableQuota s.funding } ∧
      st'.token = st.token ∧ st'.subs.records = st.subs.records ∧
      FundingDrawn env.quota st₀ base st' (amount + delta) s'.funding := by
  cases hf : s.funding with
  | wallet w =>
    obtain ⟨rfl, c, rfl, hmoves⟩ := reserveFunding_wallet_ok hf hpos h
    rw [hf] at hdrawn ⊢
    replace hdrawn : Moves env.quota st₀.wallet st.wallet (-amount) := hdrawn
    refine ⟨rfl, rfl, rfl, ?_⟩
    show Moves env.quota st₀.wallet c (-(amount + delta))
    rw [Int.neg_add]
    exact hdrawn.trans hmoves
  | subscription f =>
    obtain ⟨rfl, hid, row, hfind, rfl, hle⟩ := reserveFunding_subscription_ok hf hpos h
    rw [hf] at hdrawn
    obtain ⟨-, row', hfind', hrow, hused⟩ := hdrawn
    obtain rfl : row = row' := Option.some.inj (hfind.symm.trans hfind')
    refine ⟨?_, rfl, rfl, ?_⟩
    · rw [bookReserve, ← hf]
    · rw [hf]
      refine ⟨hid, row.addUsed delta, find_addUsed hfind, hrow.addUsed hle, ?_⟩
      show max (row.amountUsed + delta) 0 = base + (amount + delta)
      omega

theorem reserveFunding_error {e : NewAPIError}
    (h : s.reserveFunding env fr delta requireAvailableQuota st = (.error e, s', st')) :
    s' = s ∧ st' = st := by
  unfold reserveFunding at h
  cases hf : s.funding with
  | wallet w =>
    simp only [hf] at h
    split at h
    · split at h
      · rename_i hres
        cases h
        obtain ⟨rfl, rfl⟩ := WalletFunding.preConsume_error hres
        exact ⟨by rw [← hf], rfl⟩
      · rename_i hres
        cases h
        obtain ⟨rfl, rfl⟩ := WalletFunding.preConsume_error hres
        exact ⟨by rw [← hf], rfl⟩
      · simp at h
    · split at h
      · rename_i hres
        cases h
        obtain rfl := decreaseQuota_error hres
        exact ⟨rfl, rfl⟩
      · simp at h
  | subscription f =>
    simp only [hf] at h
    split at h
    · rename_i hres
      cases h
      rw [postConsume_error hres]
      exact ⟨rfl, rfl⟩
    · simp at h

/-! A reserve never changes which account the session draws on. -/

theorem bookReserve_account (delta : Int) (image : Bool) (f : FundingSource) :
    (bookReserve delta image f).account = f.account := by
  cases f <;> rfl

theorem rollbackFundingReserve_account :
    (s.rollbackFundingReserve env fr delta st).1.funding.account = s.funding.account := by
  unfold rollbackFundingReserve
  cases hf : s.funding with
  | wallet w =>
    dsimp only
    split
    · rw [hf]
    · rfl
  | subscription f =>
    dsimp only
    rw [hf]

theorem reserveFunding_account (hpos : 0 < delta)
    (h : s.reserveFunding env fr delta requireAvailableQuota st = (.ok (), s', st')) :
    s'.funding.account = s.funding.account := by
  cases hf : s.funding with
  | wallet w =>
    obtain ⟨rfl, -⟩ := reserveFunding_wallet_ok hf hpos h
    rw [bookReserve_account, hf]
  | subscription f =>
    obtain ⟨rfl, -⟩ := reserveFunding_subscription_ok hf hpos h
    rw [hf]

theorem reserveToken_ok {r : QuotaReply} (hpos : 0 < delta)
    (h : s.reserveToken env r delta st = (.ok (), st')) :
    ∃ c, st' = { st with token := c } ∧
      Moves env.quota st.token c (-tokenShare s.relayInfo delta) := by
  unfold reserveToken at h
  split at h
  · rename_i hskip
    cases h
    have hplay : s.relayInfo.isPlayground = true := by
      rcases hskip with hle | hplay
      · omega
      · exact hplay
    refine ⟨st.token, rfl, ?_⟩
    simpa [tokenShare, hplay] using Moves.refl env.quota st.token
  · split at h
    · simp at h
    · rename_i c hres
      cases h
      exact ⟨c, rfl, preConsumeTokenQuota_ok hres⟩

theorem reserveToken_error {r : QuotaReply} {e : NewAPIError}
    (h : s.reserveToken env r delta st = (.error e, st')) :
    st' = st ∧ s.relayInfo.isPlayground = false := by
  unfold reserveToken at h
  split at h
  · simp at h
  · rename_i hgo
    split at h
    · rename_i hres
      cases h
      rw [preConsumeTokenQuota_error hres]
      exact ⟨rfl, by simpa using fun hplay => hgo (Or.inr hplay)⟩
    · simp at h

variable {r : ReserveReplies} {target : Int}

/--
A reserve fails in one of two ways: the funding source refuses and nothing has
happened, or the token refuses and the funding source is rolled back.
-/
theorem reserve_error {e : NewAPIError} (h : s.reserve env r target st = (.error e, s', st')) :
    s.reserveSkips target = false ∧
      ((s' = s ∧ st' = st ∧ (s.reserveFunding env r.funding (target - s.preConsumedQuota)
          s.imageRequest st).1 = .error e) ∨
        ∃ s₁ st₁, s.reserveFunding env r.funding (target - s.preConsumedQuota)
            s.imageRequest st = (.ok (), s₁, st₁) ∧
          s₁.reserveToken env r.token (target - s.preConsumedQuota) st₁ = (.error e, st₁) ∧
          (s', st') = s₁.rollbackFundingReserve env r.rollback
            (target - s.preConsumedQuota) st₁) := by
  unfold reserve at h
  split at h
  · simp at h
  next hskip =>
  refine ⟨by simpa using hskip, ?_⟩
  dsimp only at h
  split at h
  · rename_i hfund
    simp only [Prod.mk.injEq] at h
    obtain ⟨he, rfl, rfl⟩ := h
    obtain ⟨rfl, rfl⟩ := reserveFunding_error hfund
    exact .inl ⟨rfl, rfl, by rw [hfund, he]⟩
  · rename_i s₁ st₁ hfund
    split at h
    · rename_i st₂ htok
      simp only [Prod.mk.injEq] at h
      obtain ⟨he, rfl, rfl⟩ := h
      obtain ⟨rfl, -⟩ := reserveToken_error htok
      exact .inr ⟨s₁, _, hfund, he ▸ htok, rfl⟩
    · simp at h

def reserved (delta : Int) (s : BillingSession) : BillingSession :=
  { s with
    funding := bookReserve delta s.imageRequest s.funding
    preConsumedQuota := s.preConsumedQuota + delta
    tokenConsumed := s.tokenConsumed + delta
    extraReserved := s.extraReserved + delta
    trusted := s.trusted && !s.imageRequest }.syncRelayInfo

@[simp] theorem reserved_funding (delta : Int) :
    (s.reserved delta).funding = bookReserve delta s.imageRequest s.funding := by
  simp [reserved]

@[simp] theorem reserved_preConsumedQuota (delta : Int) :
    (s.reserved delta).preConsumedQuota = s.preConsumedQuota + delta := by
  simp [reserved]

@[simp] theorem reserved_tokenConsumed (delta : Int) :
    (s.reserved delta).tokenConsumed = s.tokenConsumed + delta := by
  simp [reserved]

@[simp] theorem reserved_extraReserved (delta : Int) :
    (s.reserved delta).extraReserved = s.extraReserved + delta := by
  simp [reserved]

@[simp] theorem reserved_trusted (delta : Int) :
    (s.reserved delta).trusted = (s.trusted && !s.imageRequest) := by
  simp [reserved]

theorem reserve_skips (hskip : s.reserveSkips target = true) :
    s.reserve env r target st = (.ok (), s, st) := by
  unfold reserve
  rw [if_pos hskip]

theorem reserveSkips_false (h : s.reserveSkips target = false) :
    s.settled = false ∧ s.refunded = false ∧ s.preConsumedQuota < target ∧
      (s.trusted = true → s.imageRequest = true) := by
  simp only [reserveSkips, Bool.or_eq_false_iff, Bool.and_eq_false_iff, decide_eq_false_iff_not,
    not_le, Bool.not_eq_false'] at h
  obtain ⟨⟨⟨hs, hr⟩, ht⟩, hlt⟩ := h
  refine ⟨hs, hr, hlt, ?_⟩
  intro htrusted
  rcases ht with hf | hi
  · rw [htrusted] at hf
    exact absurd hf (by simp)
  · exact hi

theorem reserve_account : (s.reserve env r target st).2.1.funding.account = s.funding.account := by
  cases hskip : s.reserveSkips target with
  | true => rw [reserve_skips hskip]
  | false =>
    have hpos : 0 < target - s.preConsumedQuota := by
      have := (reserveSkips_false hskip).2.2.1
      omega
    unfold reserve
    rw [hskip]
    simp only [Bool.false_eq_true, if_false]
    split
    · next hfund => rw [(reserveFunding_error hfund).1]
    · rename_i s₁ st₁ hfund
      have hacc := reserveFunding_account hpos hfund
      split
      · rw [← hacc]
        exact rollbackFundingReserve_account
      · rw [← hacc]
        simp

theorem reserve_ok (hskip : s.reserveSkips target = false) (hbase : 0 ≤ base + s.preConsumedQuota)
    (hdrawn : FundingDrawn env.quota st₀ base st s.preConsumedQuota s.funding)
    (h : s.reserve env r target st = (.ok (), s', st')) :
    s' = s.reserved (target - s.preConsumedQuota) ∧ st'.subs.records = st.subs.records ∧
      FundingDrawn env.quota st₀ base st' target s'.funding ∧
      Moves env.quota st.token st'.token
        (-tokenShare s.relayInfo (target - s.preConsumedQuota)) := by
  have hpos : 0 < target - s.preConsumedQuota := by
    have := (reserveSkips_false hskip).2.2.1
    omega
  unfold reserve at h
  rw [hskip] at h
  simp only [Bool.false_eq_true, if_false] at h
  split at h
  · simp at h
  next s₁ st₁ hfund =>
  obtain ⟨rfl, htoken, hrecords, hdrawn'⟩ := reserveFunding_ok hpos hbase hdrawn hfund
  split at h
  · simp at h
  next st₂ htok =>
  cases h
  obtain ⟨c, rfl, hmoves⟩ := reserveToken_ok hpos htok
  refine ⟨rfl, hrecords, ?_, ?_⟩
  · simp only [syncRelayInfo_funding]
    rwa [show s.preConsumedQuota + (target - s.preConsumedQuota) = target by omega] at hdrawn'
  · rw [← htoken]
    exact hmoves

end Reserve

/-! ### Opening -/

section Open

variable {info : RelayInfo} {quota : Int} {r : PreConsumeReplies}

/-- What `preConsume` takes of `quota`: nothing from a trusted user. -/
def effectiveQuota (env : BillingEnv) (r : PreConsumeReplies) (quota : Int)
    (s : BillingSession) : Int :=
  if s.shouldTrust env r.tokenQuota then 0 else quota

def preConsumed (env : BillingEnv) (r : PreConsumeReplies) (quota : Int) (s : BillingSession)
    (funding : FundingSource) : BillingSession :=
  { s with
    funding := funding
    preConsumedQuota := s.effectiveQuota env r quota
    tokenConsumed := s.effectiveQuota env r quota
    trusted := s.shouldTrust env r.tokenQuota }.syncRelayInfo

theorem effectiveQuota_nonneg (hquota : 0 ≤ quota) : 0 ≤ s.effectiveQuota env r quota := by
  unfold effectiveQuota
  split
  · exact le_refl 0
  · exact hquota

theorem preConsumeFunding_ok {amount : Int}
    (h : s.preConsumeFunding env r amount st = (.ok (), s', st')) :
    ∃ funding, s.funding.preConsume env r.funding amount st = (.ok (), funding, st') ∧
      s' = { s with funding := funding, preConsumedQuota := amount }.syncRelayInfo := by
  unfold preConsumeFunding at h
  split at h
  · dsimp only at h
    split at h <;> simp at h
  · rename_i funding st₁ hres
    cases h
    exact ⟨funding, hres, rfl⟩

/-- The token step of `preConsume`, taken only when something is asked for. -/
def preConsumeToken (env : BillingEnv) (r : PreConsumeReplies) (amount : Int)
    (s : BillingSession) (st : Stores) : Except BillingError Unit × QuotaColumn :=
  if 0 < amount then preConsumeTokenQuota env.quota r.token s.relayInfo st.token amount
  else (.ok (), st.token)

theorem preConsume_fresh_eq {funding : FundingSource} :
    (fresh info funding).preConsume env r quota st =
      match preConsumeToken env r ((fresh info funding).effectiveQuota env r quota)
          (fresh info funding) st with
      | (.error e, c) =>
        (.error ⟨e, .preConsumeTokenQuotaFailed, 403⟩,
          { fresh info funding with
            trusted := (fresh info funding).shouldTrust env r.tokenQuota },
          { st with token := c })
      | (.ok (), c) =>
        preConsumeFunding env r ((fresh info funding).effectiveQuota env r quota)
          { fresh info funding with
            trusted := (fresh info funding).shouldTrust env r.tokenQuota
            tokenConsumed := max ((fresh info funding).effectiveQuota env r quota) 0 }
          { st with token := c } := by
  unfold preConsume preConsumeToken effectiveQuota
  cases htrust : (fresh info funding).shouldTrust env r.tokenQuota with
  | true => simp [fresh]
  | false =>
    simp only [Bool.false_eq_true, if_false]
    by_cases hpos : 0 < quota
    · rw [if_pos hpos, if_pos hpos, max_eq_left (le_of_lt hpos)]
      rfl
    · rw [if_neg hpos, if_neg hpos, max_eq_right (not_lt.mp hpos)]
      rfl

theorem preConsumeToken_ok {amount : Int} {c : QuotaColumn} (hamount : 0 ≤ amount)
    (h : preConsumeToken env r amount s st = (.ok (), c)) :
    Moves env.quota st.token c (-tokenShare s.relayInfo amount) := by
  unfold preConsumeToken at h
  split at h
  · exact preConsumeTokenQuota_ok h
  · rename_i hle
    obtain rfl : amount = 0 := by omega
    cases h
    simpa [tokenShare] using Moves.refl env.quota st.token

theorem preConsume_ok {funding : FundingSource} (hquota : 0 ≤ quota)
    (h : (fresh info funding).preConsume env r quota st = (.ok (), s', st')) :
    ∃ c funding', Moves env.quota st.token c
        (-tokenShare info ((fresh info funding).effectiveQuota env r quota)) ∧
      funding.preConsume env r.funding ((fresh info funding).effectiveQuota env r quota)
        { st with token := c } = (.ok (), funding', st') ∧
      s' = (fresh info funding).preConsumed env r quota funding' := by
  have hnonneg : 0 ≤ (fresh info funding).effectiveQuota env r quota :=
    effectiveQuota_nonneg hquota
  rw [preConsume_fresh_eq] at h
  split at h
  · simp at h
  · rename_i c htok
    obtain ⟨funding', hfund, rfl⟩ := preConsumeFunding_ok h
    refine ⟨c, funding', preConsumeToken_ok hnonneg htok, hfund, ?_⟩
    rw [max_eq_left hnonneg]
    rfl

end Open

/-! ### Settling -/

section Settle

variable {delta : Int}

theorem settleToken_ok {cfg : QuotaConfig} {r : QuotaReply} {info : RelayInfo}
    {c c' : QuotaColumn} (h : settleToken cfg r info delta c = (.ok (), c')) :
    Moves cfg c c' (-tokenShare info delta) := by
  unfold settleToken at h
  unfold tokenShare
  split at h
  · rename_i hplay
    cases h
    rw [if_pos hplay]
    exact Moves.refl cfg c
  next hplay =>
  rw [if_neg hplay]
  split at h
  · exact (decreaseQuota_ok h).2
  · exact (increaseTokenQuota_ok h).2

theorem settleFunding_ok {amount : Int} {fr : FundingReply} {f : FundingSource}
    (hdrawn : FundingDrawn env.quota st₀ base st amount f)
    (hroom : ∀ id, f.account = some id → 0 ≤ base + (amount + delta))
    (h : f.settle env fr delta st = (.ok (), st')) :
    st'.token = st.token ∧ FundingDrawn env.quota st₀ base st' (amount + delta) f := by
  cases f with
  | wallet w =>
    simp only [FundingSource.settle, Prod.mk.injEq] at h
    obtain ⟨hres, rfl⟩ := h
    rcases hw : WalletFunding.settle env.quota fr.quota st.wallet delta with ⟨_ | _, c⟩
    · rw [hw] at hres
      simp [Except.mapError] at hres
    · refine ⟨rfl, ?_⟩
      show Moves env.quota st₀.wallet c (-(amount + delta))
      rw [Int.neg_add]
      exact Moves.trans hdrawn (WalletFunding.settle_ok hw)
  | subscription f =>
    obtain ⟨hid, row, hfind, hrow, hused⟩ := hdrawn
    simp only [FundingSource.settle, SubscriptionFunding.settle, Prod.mk.injEq] at h
    obtain ⟨hres, rfl⟩ := h
    by_cases hzero : delta = 0
    · rw [if_pos hzero]
      exact ⟨rfl, hid, row, hfind, hrow, by omega⟩
    rw [if_neg hzero] at hres ⊢
    rcases hp : postConsumeUserSubscriptionDelta fr.tx st.subs f.subscriptionId delta
      with ⟨_ | _, db⟩
    · rw [hp] at hres
      simp [Except.mapError] at hres
    · obtain ⟨-, ⟨hdelta, -⟩ | ⟨row', hrow', rfl, hle⟩⟩ := postConsume_ok hp
      · exact absurd hdelta hzero
      · obtain rfl : row' = row := Option.some.inj (hrow'.symm.trans hfind)
        refine ⟨rfl, hid, row'.addUsed delta, find_addUsed hfind, hrow.addUsed hle, ?_⟩
        show max (row'.amountUsed + delta) 0 = base + (amount + delta)
        have := hroom f.subscriptionId rfl
        omega

theorem settle_ok {amount actual : Int} {r : SettleReplies} (hopen : s.settled = false)
    (hfundingOpen : s.fundingSettled = false)
    (hdrawn : FundingDrawn env.quota st₀ base st amount s.funding)
    (hroom : ∀ id, s.funding.account = some id →
      0 ≤ base + (amount + (actual - s.preConsumedQuota)))
    (hres : s.settle env r actual st = (.ok (), s', st')) :
    s'.settled = true ∧ s'.funding = s.funding ∧
      FundingDrawn env.quota st₀ base st' (amount + (actual - s.preConsumedQuota)) s.funding ∧
      Moves env.quota st.token st'.token
        (-tokenShare s.relayInfo (actual - s.preConsumedQuota)) := by
  unfold settle at hres
  rw [hopen, hfundingOpen] at hres
  simp only [Bool.false_eq_true, if_false] at hres
  split at hres
  · rename_i hzero
    cases hres
    rw [hzero, Int.add_zero]
    refine ⟨rfl, rfl, hdrawn, ?_⟩
    simpa [tokenShare] using Moves.refl env.quota st.token
  split at hres
  · simp at hres
  next st₁ hfund =>
  obtain ⟨htoken, hdrawn₁⟩ := settleFunding_ok hdrawn hroom hfund
  unfold settleRest at hres
  rcases htok : settleToken env.quota r.token s.relayInfo (actual - s.preConsumedQuota) st₁.token
    with ⟨_ | _, c⟩
  · simp only [htok, Except.mapError] at hres
    simp at hres
  · simp only [htok, Prod.mk.injEq] at hres
    obtain ⟨-, rfl, rfl⟩ := hres
    refine ⟨rfl, rfl, ?_, ?_⟩
    · cases hf : s.funding with
      | wallet w =>
        rw [hf] at hdrawn₁
        exact hdrawn₁
      | subscription f =>
        rw [hf] at hdrawn₁
        exact hdrawn₁
    · rw [← htoken]
      exact settleToken_ok htok

end Settle

/-! ### Refunding, store by store -/

section RefundFunds

variable {r : RefundReplies}

theorem refundFunds_wallet (hfunding : s.funding = .wallet w) :
    (s.refundFunds env r st).wallet = (w.refund env.quota r.funding st.wallet).2 := by
  unfold refundFunds
  rw [hfunding]
  simp only [FundingSource.refund, FundingSource.source, reduceCtorEq, false_and, and_false,
    if_false]
  split <;> rfl

theorem refundFunds_subs (hfunding : s.funding = .subscription f) :
    (s.refundFunds env r st).subs =
      if 0 < s.extraReserved ∧ s.relayInfo.subscriptionId ≠ 0 then
        (postConsumeUserSubscriptionDelta r.extra (f.refund r.attempts st.subs).2
          s.relayInfo.subscriptionId (-s.extraReserved)).2
      else (f.refund r.attempts st.subs).2 := by
  unfold refundFunds
  rw [hfunding]
  simp only [FundingSource.refund, FundingSource.source, true_and]
  split <;> split <;> rfl

theorem refundFunds_token :
    (s.refundFunds env r st).token =
      if 0 < s.tokenConsumed ∧ s.relayInfo.isPlayground = false then
        (increaseTokenQuota env.quota r.token st.token s.tokenConsumed).2
      else st.token := by
  have hfund : (s.funding.refund env r.funding r.attempts st).token = st.token := by
    cases s.funding <;> rfl
  unfold refundFunds
  dsimp only
  split_ifs <;> simp only [hfund]

theorem refundFunds_subs_of_wallet (hfunding : s.funding = .wallet w) :
    (s.refundFunds env r st).subs = st.subs := by
  unfold refundFunds
  rw [hfunding]
  simp only [FundingSource.refund, FundingSource.source, reduceCtorEq, false_and, and_false,
    if_false]
  split <;> rfl

theorem refundFunds_wallet_of_subscription (hfunding : s.funding = .subscription f) :
    (s.refundFunds env r st).wallet = st.wallet := by
  unfold refundFunds
  rw [hfunding]
  simp only [FundingSource.refund, FundingSource.source, true_and]
  split <;> split <;> rfl

end RefundFunds

end BillingSession

end JulongApi

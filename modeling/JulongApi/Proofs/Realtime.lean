/-
What a realtime session charges, and what it records.

A session is charged twice over.  `preConsumeUsage` takes the quota of every turn as the
turn ends, and at the end `SettleBilling` brings the session that was opened before the
connection from what it held to the quota of the summed usage, not knowing of the turns:
what it subtracts is only what the opening took.  So the whole session costs the recorded
quota plus the quota of every turn.

`Meter` says which turns a list of messages makes, without any billing in it.  `Charged`
ties the stores to the turns charged so far, and one turn moves it by that turn's quota;
the rest is arithmetic.
-/
import JulongApi.Realtime
import JulongApi.Proofs.Pricing
import JulongApi.Proofs.Session.Live

namespace JulongApi

/-! ### The turns of a session -/

/-- A turn: what it used, and the ratio settings it was charged under. -/
structure Turn where
  ratios : RatioSetting
  usage : RealtimeUsage

/-- What decides which turns a session makes: the usage counted since the last one. -/
structure Meter where
  info : RealtimeMeta
  localUsage : RealtimeUsage
deriving DecidableEq

namespace Meter

def initial : Meter := ⟨.initial, .zero⟩

/-- One message: the meter after it and the turn it ends, or `none` if it ends the session. -/
def onMessage (counters : TokenCounters) (m : Meter) :
    RealtimeState.Message → Option (Meter × Option Turn)
  | .client event =>
    (countTokenRealtime counters (m.info.afterClient event) event).map fun n =>
      (⟨m.info.afterClient event, m.localUsage.addInput n.1 n.2⟩, none)
  | .target (.responseDone none) _ => none
  | .target (.responseDone (some (some usage))) r =>
    some (⟨m.info, .zero⟩, some ⟨r.ratios, usage⟩)
  | .target (.responseDone (some none)) r =>
    (countTokenRealtime counters m.info (.responseDone (some none))).map fun n =>
      (⟨{ m.info with isFirstRequest := false }, .zero⟩,
        some ⟨r.ratios, m.localUsage.addInput n.1 n.2⟩)
  | .target (.sessionUpdated none) _ => some (m, none)
  | .target (.sessionUpdated (some session)) _ =>
    some (⟨{ m.info with
      inputAudioFormat :=
        RealtimeState.getStringIfEmpty session.inputAudioFormat m.info.inputAudioFormat
      outputAudioFormat :=
        RealtimeState.getStringIfEmpty session.outputAudioFormat m.info.outputAudioFormat },
      m.localUsage⟩, none)
  | .target event _ =>
    (countTokenRealtime counters m.info event).map fun n =>
      (⟨m.info, m.localUsage.addOutput n.1 n.2⟩, none)

/-- The turn the end of the session makes of what is still counted. -/
def leftover (ratios : RatioSetting) (m : Meter) : List Turn :=
  if m.localUsage.totalTokens = 0 then [] else [⟨ratios, m.localUsage⟩]

/-- The turns of a session; `last` are the ratios its end finds. -/
def turns (counters : TokenCounters) (last : RatioSetting) :
    List RealtimeState.Message → Meter → List Turn
  | [], m => m.leftover last
  | msg :: rest, m =>
    match m.onMessage counters msg with
    | none => m.leftover last
    | some (m', turn) => turn.toList ++ turns counters last rest m'

end Meter

def PriceInfo.turnInfo (p : PriceInfo) (t : Turn) : QuotaInfo :=
  p.turnQuotaInfo t.ratios ((p.turnGroupRatio t.ratios).getD 0) t.usage

def PriceInfo.turnPrice (p : PriceInfo) (t : Turn) : ℚ := (p.turnInfo t).price t.ratios

def PriceInfo.turnQuota (p : PriceInfo) (t : Turn) : Int :=
  (calculateAudioQuota t.ratios (p.turnInfo t)).1

def PriceInfo.PositiveRatios (p : PriceInfo) (ratios : RatioSetting) : Prop :=
  0 < ratios.getModelRatio p.originModelName ∧
    ∀ g, p.turnGroupRatio ratios = some g → 0 < g

variable {p' : PriceInfo}

namespace PriceInfo

variable {p : PriceInfo} {t : Turn}

theorem turnInfo_ratio_ne_zero (hpos : p.PositiveRatios t.ratios) {g : ℚ}
    (hg : p.turnGroupRatio t.ratios = some g) : (p.turnInfo t).ratio ≠ 0 := by
  have hgroup : 0 < g := hpos.2 g hg
  unfold turnInfo
  rw [hg]
  exact mul_ne_zero hgroup.ne' hpos.1.ne'

/-- The pricing of a session stays as it is: a turn only settles the group, and notes a clamp. -/
structure Same (p p' : PriceInfo) : Prop where
  group : p'.turnGroup = p.turnGroup
  rest : ∃ g clamp, p' = { p with usingGroup := g, quotaClamp := clamp }

theorem Same.refl (p : PriceInfo) : p.Same p := ⟨rfl, p.usingGroup, p.quotaClamp, rfl⟩

theorem Same.trans {p'' : PriceInfo} (h : p.Same p') (h' : p'.Same p'') : p.Same p'' := by
  obtain ⟨g, clamp, rfl⟩ := h.rest
  obtain ⟨g', clamp', rfl⟩ := h'.rest
  exact ⟨h'.group.trans h.group, g', clamp', rfl⟩

theorem Same.turnGroupRatio (h : p.Same p') (ratios : RatioSetting) :
    p'.turnGroupRatio ratios = p.turnGroupRatio ratios := by
  have hgroup := h.group
  obtain ⟨g, clamp, rfl⟩ := h.rest
  unfold PriceInfo.turnGroupRatio turnBaseRatio
  rw [hgroup]

theorem Same.turnInfo (h : p.Same p') (t : Turn) : p'.turnInfo t = p.turnInfo t := by
  unfold PriceInfo.turnInfo
  rw [h.turnGroupRatio]
  obtain ⟨g, clamp, rfl⟩ := h.rest
  rfl

theorem Same.turnQuota (h : p.Same p') (t : Turn) : p'.turnQuota t = p.turnQuota t := by
  unfold PriceInfo.turnQuota
  rw [h.turnInfo]

theorem Same.usePrice (h : p.Same p') : p'.usePrice = p.usePrice := by
  obtain ⟨g, clamp, rfl⟩ := h.rest
  rfl

theorem same_settled (p : PriceInfo) (clamp : Option QuotaClamp) :
    p.Same ({ p with usingGroup := p.turnGroup }.noteQuotaClamp clamp) := by
  refine ⟨?_, ?_⟩
  · unfold noteQuotaClamp turnGroup
    cases p.autoGroup <;> split <;> rfl
  · unfold noteQuotaClamp
    split
    · exact ⟨_, _, rfl⟩
    · exact ⟨_, _, rfl⟩

end PriceInfo

/-! ### The request's billing -/

namespace RelayBilling

/-- Where the request is charged; without a session that is the wallet. -/
def funding : RelayBilling → FundingSource
  | .session s => s.funding
  | .noSession info => .wallet { userId := info.userId, consumed := 0 }

def Linked (b : RelayBilling) : Prop :=
  match b.funding with
  | .wallet _ => b.info.billingSource ≠ some .subscription
  | .subscription f =>
    b.info.billingSource = some .subscription ∧ b.info.subscriptionId = f.subscriptionId

/-- Not settled yet, and `held` is what the settlement will take into account. -/
def Unsettled (held : Int) : RelayBilling → Prop
  | .session s => s.settled = false ∧ s.fundingSettled = false ∧ s.preConsumedQuota = held
  | .noSession info => info.finalPreConsumedQuota = 0 ∧ held = 0

/-- A charge past the session leaves one trace on it, the running `SubscriptionPostDelta`. -/
def withPostDelta (b : RelayBilling) (d : Int) : RelayBilling :=
  b.setInfo { b.info with subscriptionPostDelta := d }

variable {b : RelayBilling} {d : Int}

@[simp] theorem withPostDelta_funding : (b.withPostDelta d).funding = b.funding := by
  cases b <;> rfl

@[simp] theorem withPostDelta_info :
    (b.withPostDelta d).info = { b.info with subscriptionPostDelta := d } := by
  cases b <;> rfl

theorem Linked.withPostDelta (h : b.Linked) : (b.withPostDelta d).Linked := by
  unfold Linked at h ⊢
  rw [withPostDelta_funding, withPostDelta_info]
  exact h

theorem Unsettled.withPostDelta {held : Int} (h : b.Unsettled held) :
    (b.withPostDelta d).Unsettled held := by
  cases b with
  | session s => exact h
  | noSession info => exact h

end RelayBilling

/--
Since `st₀` the request has cost `amount`: `held` from its opening, the rest from the
turns, which the settlement will not know of.
-/
structure Charged (env : BillingEnv) (info : RelayInfo) (st₀ : Stores) (base held : Int)
    (fs : FundingSource) (b : RelayBilling) (st : Stores) (amount : Int) : Prop where
  base_nonneg : 0 ≤ base
  funding : b.funding = fs
  linked : b.Linked
  unsettled : b.Unsettled held
  isPlayground : b.info.isPlayground = info.isPlayground
  drawn : FundingDrawn env.quota st₀ base st amount b.funding
  token : Moves env.quota st₀.token st.token (-tokenShare info amount)

variable {b' : RelayBilling}

section Charge

variable {env : BillingEnv} {info : RelayInfo} {st₀ st st' : Stores} {fs : FundingSource}
  {base held amount quota : Int} {b : RelayBilling}

theorem Charged.tokenShare_eq (h : Charged env info st₀ base held fs b st amount) (n : Int) :
    tokenShare b.info n = tokenShare info n := by
  unfold tokenShare
  rw [h.isPlayground]

variable {info' : RelayInfo}

theorem postConsumeFunding_ok {r : FundingReply} (hlinked : b.Linked)
    (hdrawn : FundingDrawn env.quota st₀ base st amount b.funding) (hquota : 0 ≤ quota)
    (h : postConsumeFunding env r quota b.info st = (.ok (), info', st')) :
    (∃ d, info' = { b.info with subscriptionPostDelta := d }) ∧ st'.token = st.token ∧
      FundingDrawn env.quota st₀ base st' (amount + quota) b.funding := by
  unfold postConsumeFunding at h
  unfold RelayBilling.Linked at hlinked
  cases hf : b.funding with
  | wallet w =>
    rw [hf] at hlinked hdrawn
    rw [if_neg hlinked] at h
    split at h
    · simp at h
    next c hmove =>
    cases h
    refine ⟨⟨b.info.subscriptionPostDelta, rfl⟩, rfl, ?_⟩
    have hmoves : Moves env.quota st.wallet c (-quota) := by
      split at hmove
      · exact (decreaseQuota_ok hmove).2
      · exact (increaseUserQuota_ok hmove).2
    show Moves env.quota st₀.wallet c (-(amount + quota))
    rw [Int.neg_add]
    exact Moves.trans hdrawn hmoves
  | subscription f =>
    rw [hf] at hlinked hdrawn
    obtain ⟨hsource, hid⟩ := hlinked
    obtain ⟨hne, row, hfind, hrow, hused⟩ := hdrawn
    rw [if_pos hsource, if_neg (hid ▸ hne)] at h
    split at h
    · rename_i hzero
      cases h
      refine ⟨⟨b.info.subscriptionPostDelta, rfl⟩, rfl, hne, row, hfind, hrow, ?_⟩
      omega
    next hnezero =>
    split at h
    · simp at h
    next db hpost =>
    cases h
    refine ⟨⟨b.info.subscriptionPostDelta + quota, rfl⟩, rfl, hne, ?_⟩
    rw [hid] at hpost
    obtain ⟨-, ⟨hzero, -⟩ | ⟨row', hrow', rfl, hle⟩⟩ := postConsume_ok hpost
    · exact absurd hzero hnezero
    obtain rfl : row' = row := Option.some.inj (hrow'.symm.trans hfind)
    refine ⟨row'.addUsed quota, find_addUsed hfind, hrow.addUsed hle, ?_⟩
    show max (row'.amountUsed + quota) 0 = base + (amount + quota)
    have := hrow.used_nonneg
    omega

theorem Charged.postConsumeQuota (h : Charged env info st₀ base held fs b st amount)
    {r : PostConsumeReplies} (hquota : 0 ≤ quota)
    (hres : JulongApi.postConsumeQuota env r quota b.info st = (.ok (), info', st')) :
    Charged env info st₀ base held fs (b.setInfo info') st' (amount + quota) := by
  unfold JulongApi.postConsumeQuota at hres
  split at hres
  · simp at hres
  next info₁ st₁ hfund =>
  obtain ⟨⟨d, rfl⟩, htoken, hdrawn⟩ := postConsumeFunding_ok h.linked h.drawn hquota hfund
  split at hres
  · simp at hres
  next c htok =>
  cases hres
  refine ⟨h.base_nonneg, ?_, h.linked.withPostDelta, h.unsettled.withPostDelta, ?_, ?_, ?_⟩
  · exact b.withPostDelta_funding.trans h.funding
  · exact (congrArg RelayInfo.isPlayground b.withPostDelta_info).trans h.isPlayground
  · show FundingDrawn env.quota st₀ base _ (amount + quota) (b.withPostDelta d).funding
    rw [RelayBilling.withPostDelta_funding]
    cases hf : b.funding with
    | wallet w =>
      rw [hf] at hdrawn
      exact hdrawn
    | subscription f =>
      rw [hf] at hdrawn
      exact hdrawn
  · have hmoves := BillingSession.settleToken_ok htok
    rw [htoken] at hmoves
    have hshare : tokenShare { b.info with subscriptionPostDelta := d } quota =
        tokenShare info quota := h.tokenShare_eq quota
    rw [hshare] at hmoves
    have hboth := h.token.trans hmoves
    rwa [← Int.neg_add, ← tokenShare_add] at hboth

theorem Charged.settleBilling (h : Charged env info st₀ base held fs b st amount)
    {r : BillingSession.SettleReplies} {actual : Int} (hactual : 0 ≤ actual) (hheld : held ≤ amount)
    (hres : JulongApi.settleBilling env r actual b st = (.ok (), b', st')) :
    b'.funding = fs ∧ FundingDrawn env.quota st₀ base st' (amount + (actual - held)) fs ∧
      Moves env.quota st₀.token st'.token (-tokenShare info (amount + (actual - held))) := by
  have hbase := h.base_nonneg
  obtain rfl := h.funding
  cases b with
  | session s =>
    obtain ⟨hsettled, hfundingSettled, rfl⟩ := h.unsettled
    rcases hs : s.settle env r actual st with ⟨e | _, s₁, st₁⟩
    · simp [JulongApi.settleBilling, hs, Except.mapError] at hres
    · simp only [JulongApi.settleBilling, hs, Prod.mk.injEq] at hres
      obtain ⟨-, rfl, rfl⟩ := hres
      obtain ⟨-, hfunding, hdrawn, htoken⟩ :=
        BillingSession.settle_ok hsettled hfundingSettled h.drawn (fun _ _ => by omega) hs
      refine ⟨hfunding, hdrawn, ?_⟩
      have hshare : tokenShare s.relayInfo (actual - s.preConsumedQuota) =
          tokenShare info (actual - s.preConsumedQuota) := h.tokenShare_eq _
      rw [hshare] at htoken
      have hboth := h.token.trans htoken
      rwa [← Int.neg_add, ← tokenShare_add] at hboth
  | noSession info₁ =>
    obtain ⟨hfinal, rfl⟩ := h.unsettled
    unfold JulongApi.settleBilling at hres
    dsimp only at hres
    rw [hfinal] at hres
    split at hres
    · rename_i hzero
      cases hres
      rw [hzero, Int.add_zero]
      exact ⟨rfl, h.drawn, h.token⟩
    · rcases hp : JulongApi.postConsumeQuota env ⟨r.funding, r.token⟩ (actual - 0) info₁ st
        with ⟨res, info₂, st₂⟩
      simp only [hp, Prod.mk.injEq] at hres
      obtain ⟨rfl, rfl, rfl⟩ := hres
      have hcharged := h.postConsumeQuota (by omega) hp
      exact ⟨hcharged.funding, hcharged.funding ▸ hcharged.drawn, hcharged.token⟩

end Charge

/-! ### One turn -/

namespace RealtimeState

/-- Where a session stands that was opened on `st₀`: what its turns cost is `amount - held`. -/
structure Metered (env : BillingEnv) (info : RelayInfo) (p : PriceInfo) (st₀ : Stores)
    (base held : Int) (fs : FundingSource) (s : RealtimeState) (amount : Int) : Prop where
  /-- `usage` is cleared with every turn it makes -/
  usage : s.usage = .zero
  price : p.Same s.price
  charged : Charged env info st₀ base held fs s.billing s.stores amount

def meter (s : RealtimeState) : Meter := ⟨s.info, s.localUsage⟩

@[simp] theorem meter_localUsage (s : RealtimeState) : s.meter.localUsage = s.localUsage := rfl

variable {env : BillingEnv} {counters : TokenCounters} {info : RelayInfo} {p : PriceInfo}
  {st₀ : Stores} {fs : FundingSource} {base held amount : Int} {s s' : RealtimeState}

variable {r : PreWssReplies} {event : RealtimeEvent}

theorem preWssConsumeQuota_ok {usage : RealtimeUsage} {q q' : PriceInfo} {b : RelayBilling}
    {st st' : Stores} (hprice : q.usePrice = false)
    (h : preWssConsumeQuota env r usage q b st = (.ok (), q', b', st')) :
    ∃ g info', q.turnGroupRatio r.ratios = some g ∧ q.Same q' ∧ b' = b.setInfo info' ∧
      postConsumeQuota env r.post (q.turnQuota ⟨r.ratios, usage⟩) b.info st =
        (.ok (), info', st') := by
  unfold preWssConsumeQuota at h
  rw [if_neg (by simp [hprice])] at h
  split at h
  · simp at h
  · simp at h
  have hsame : q.Same { q with usingGroup := q.turnGroup } := by
    refine ⟨?_, ⟨_, _, rfl⟩⟩
    unfold PriceInfo.turnGroup
    cases q.autoGroup <;> rfl
  dsimp only at h
  split at h
  · simp at h
  next g hg =>
  split at h
  · simp at h
  split at h
  · simp at h
  rw [hsame.turnGroupRatio] at hg
  simp only [Prod.mk.injEq] at h
  obtain ⟨hres, rfl, rfl, rfl⟩ := h
  refine ⟨g, _, hg, q.same_settled _, rfl, ?_⟩
  have hquota : q.turnQuota ⟨r.ratios, usage⟩ =
      (calculateAudioQuota r.ratios (q.turnQuotaInfo r.ratios g usage)).1 := by
    unfold PriceInfo.turnQuota PriceInfo.turnInfo
    rw [show (Turn.mk r.ratios usage).ratios = r.ratios from rfl, hg]
    rfl
  rw [hquota]
  exact Prod.ext hres rfl

/-- A turn whose quota is zero exactly when its price is between nothing and a half. -/
def Priced (p : PriceInfo) (t : Turn) : Prop :=
  0 ≤ p.turnQuota t ∧ (p.turnQuota t = 0 ↔ 0 < p.turnPrice t ∧ p.turnPrice t < 1 / 2)

theorem preConsumeUsage_ok {usage : RealtimeUsage}
    (hres : s.preConsumeUsage env r usage = (.ok (), s')) (hprice : p.usePrice = false)
    (hpos : p.PositiveRatios r.ratios) (hsame : p.Same s.price)
    (hcharged : Charged env info st₀ base held fs s.billing s.stores amount) :
    Priced p ⟨r.ratios, usage⟩ ∧ s'.info = s.info ∧ s'.usage = s.usage ∧
      s'.localUsage = s.localUsage ∧ p.Same s'.price ∧
      Charged env info st₀ base held fs s'.billing s'.stores
        (amount + p.turnQuota ⟨r.ratios, usage⟩) := by
  rcases hpre : preWssConsumeQuota env r usage s.price s.billing s.stores with ⟨res, q, b, st⟩
  simp only [RealtimeState.preConsumeUsage, hpre, Prod.mk.injEq] at hres
  obtain ⟨rfl, rfl⟩ := hres
  obtain ⟨g, info', hg, hsame', rfl, hpost⟩ :=
    preWssConsumeQuota_ok (hsame.usePrice.trans hprice) hpre
  rw [hsame.turnGroupRatio] at hg
  rw [hsame.turnQuota] at hpost
  have husePrice : (p.turnInfo ⟨r.ratios, usage⟩).usePrice = false := hprice
  have hratio : (p.turnInfo ⟨r.ratios, usage⟩).ratio ≠ 0 :=
    PriceInfo.turnInfo_ratio_ne_zero hpos hg
  have hquota : 0 ≤ p.turnQuota ⟨r.ratios, usage⟩ :=
    calculateAudioQuota_nonneg husePrice hratio
  refine ⟨⟨hquota, calculateAudioQuota_eq_zero_iff husePrice hratio⟩, rfl, rfl, rfl,
    hsame.trans hsame', ?_⟩
  exact hcharged.postConsumeQuota hquota hpost

/-! ### One message -/

def Message.Positive (p : PriceInfo) : Message → Prop
  | .client _ => True
  | .target _ r => p.PositiveRatios r.ratios

theorem zero_add (u : RealtimeUsage) : RealtimeUsage.zero.add u = u := by
  unfold RealtimeUsage.zero RealtimeUsage.add
  simp

theorem Metered.of_counted (h : Metered env info p st₀ base held fs s amount) (i : RealtimeMeta)
    (u : RealtimeUsage) :
    Metered env info p st₀ base held fs { s with info := i, localUsage := u } amount :=
  ⟨h.usage, h.price, h.charged⟩

def Counted : RealtimeEvent → Prop
  | .responseDone _ => False
  | .sessionUpdated _ => False
  | _ => True

theorem onTarget_counted (h : Counted event) (r : PreWssReplies) :
    s.onTarget env counters r event =
      match countTokenRealtime counters s.info event with
      | none => (some .countFailed, s)
      | some (textToken, audioToken) =>
        (none, { s with localUsage := s.localUsage.addOutput textToken audioToken }) := by
  cases event with
  | responseDone _ => exact h.elim
  | sessionUpdated _ => exact h.elim
  | _ => rfl

theorem onMessage_counted (h : Counted event) (r : PreWssReplies) :
    s.meter.onMessage counters (.target event r) =
      (countTokenRealtime counters s.info event).map fun n =>
        (⟨s.info, s.localUsage.addOutput n.1 n.2⟩, none) := by
  cases event with
  | responseDone _ => exact h.elim
  | sessionUpdated _ => exact h.elim
  | _ => rfl

theorem Metered.onTarget_counted (h : Metered env info p st₀ base held fs s amount)
    (hevent : Counted event) (hres : s.onTarget env counters r event = (none, s')) :
    ∃ turn, s.meter.onMessage counters (.target event r) = some (s'.meter, turn) ∧
      (∀ t ∈ turn.toList, Priced p t) ∧
      Metered env info p st₀ base held fs s' (amount + (turn.toList.map p.turnQuota).sum) := by
  rw [RealtimeState.onTarget_counted hevent] at hres
  rw [onMessage_counted hevent]
  split at hres
  · simp at hres
  next hn =>
  cases hres
  refine ⟨none, ?_, by simp, by simpa using h.of_counted _ _⟩
  rw [hn]
  rfl

theorem onTarget_stop (hevent : Counted event) {stop : Stop}
    (hres : s.onTarget env counters r event = (some stop, s')) :
    s.meter.onMessage counters (.target event r) = none ∧ ∃ i, s' = { s with info := i } := by
  rw [RealtimeState.onTarget_counted hevent] at hres
  rw [onMessage_counted hevent]
  split at hres
  · rename_i hn
    refine ⟨?_, s.info, (Prod.mk.inj hres).2.symm⟩
    rw [hn]
    rfl
  · simp at hres

variable {msg : Message} {s₂ s₃ : RealtimeState}

theorem Metered.handle (h : Metered env info p st₀ base held fs s amount)
    (hprice : p.usePrice = false) (hpos : msg.Positive p)
    (hres : s.handle env counters msg = (none, s')) :
    ∃ turn, s.meter.onMessage counters msg = some (s'.meter, turn) ∧
      (∀ t ∈ turn.toList, Priced p t) ∧
      Metered env info p st₀ base held fs s' (amount + (turn.toList.map p.turnQuota).sum) := by
  cases msg with
  | client event =>
    change s.onClient counters event = _ at hres
    unfold onClient at hres
    dsimp only at hres
    split at hres
    · simp at hres
    next hn =>
    cases hres
    refine ⟨none, ?_, by simp, by simpa using h.of_counted _ _⟩
    show (countTokenRealtime counters (s.info.afterClient event) event).map _ = _
    rw [hn]
    rfl
  | target event r =>
    change s.onTarget env counters r event = _ at hres
    cases event with
    | responseDone response =>
      rcases response with _ | _ | usage
      · simp [onTarget] at hres
      · -- the usage was counted here, and `response.done` itself counts the tools
        unfold onTarget at hres
        dsimp only at hres
        split at hres
        · simp at hres
        next textToken audioToken hn =>
        split at hres
        · simp at hres
        next s₁ hturn =>
        cases hres
        obtain ⟨hpriced, hinfo, husage, -, hsame, hcharged⟩ :=
          preConsumeUsage_ok hturn hprice hpos h.price h.charged
        refine ⟨some ⟨r.ratios, s.localUsage.addInput textToken audioToken⟩, ?_,
          by simpa using hpriced, husage.trans h.usage, hsame, by simpa using hcharged⟩
        show (countTokenRealtime counters s.info (.responseDone (some none))).map _ = _
        rw [hn]
        simp only [Option.map_some, meter, hinfo]
      · unfold onTarget at hres
        dsimp only at hres
        rw [h.usage, zero_add] at hres
        split at hres
        · simp at hres
        next s₁ hturn =>
        cases hres
        obtain ⟨hpriced, hinfo, -, -, hsame, hcharged⟩ :=
          preConsumeUsage_ok hturn hprice hpos h.price h.charged
        refine ⟨some ⟨r.ratios, usage⟩, ?_, by simpa using hpriced, rfl, hsame,
          by simpa using hcharged⟩
        show some _ = some (meter _, _)
        simp only [meter, hinfo]
    | sessionUpdated session =>
      cases session with
      | none =>
        cases hres
        exact ⟨none, rfl, by simp, by simpa using h⟩
      | some session =>
        cases hres
        exact ⟨none, rfl, by simp, by simpa using h.of_counted _ _⟩
    | _ => exact h.onTarget_counted (by trivial) hres

theorem handle_stop {stop : Stop} (hres : s.handle env counters msg = (some stop, s'))
    (hstop : ∀ e, stop ≠ .consumeFailed e) :
    s.meter.onMessage counters msg = none ∧ ∃ i, s' = { s with info := i } := by
  cases msg with
  | client event =>
    change s.onClient counters event = _ at hres
    unfold onClient at hres
    dsimp only at hres
    split at hres
    · rename_i hn
      refine ⟨?_, s.info.afterClient event, (Prod.mk.inj hres).2.symm⟩
      show (countTokenRealtime counters (s.info.afterClient event) event).map _ = _
      rw [hn]
      rfl
    · simp at hres
  | target event r =>
    change s.onTarget env counters r event = _ at hres
    cases event with
    | responseDone response =>
      rcases response with _ | _ | usage
      · exact ⟨rfl, s.info, (Prod.mk.inj hres).2.symm⟩
      · unfold onTarget at hres
        dsimp only at hres
        split at hres
        · rename_i hn
          refine ⟨?_, s.info, (Prod.mk.inj hres).2.symm⟩
          show (countTokenRealtime counters s.info (.responseDone (some none))).map _ = _
          rw [hn]
          rfl
        · split at hres
          · exact absurd (Option.some.inj (Prod.mk.inj hres).1).symm (hstop _)
          · simp at hres
      · unfold onTarget at hres
        dsimp only at hres
        split at hres
        · exact absurd (Option.some.inj (Prod.mk.inj hres).1).symm (hstop _)
        · simp at hres
    | sessionUpdated session => cases session <;> simp [onTarget] at hres
    | _ => exact onTarget_stop (by trivial) hres

/-! ### The whole session -/

theorem Metered.leftover (h : Metered env info p st₀ base held fs s amount)
    (hprice : p.usePrice = false) {r : EndReplies} (hlast : p.PositiveRatios r.localUsage.ratios)
    (husage : s.chargeLeftover env r.usage s.usage = (.ok (), s₂))
    (hlocal : s₂.chargeLeftover env r.localUsage s₂.localUsage = (.ok (), s₃)) :
    (∀ t ∈ s.meter.leftover r.localUsage.ratios, Priced p t) ∧ p.Same s₃.price ∧
      Charged env info st₀ base held fs s₃.billing s₃.stores
        (amount + ((s.meter.leftover r.localUsage.ratios).map p.turnQuota).sum) := by
  unfold chargeLeftover at husage hlocal
  rw [h.usage, if_neg (by decide)] at husage
  cases husage
  unfold Meter.leftover
  by_cases hzero : s.localUsage.totalTokens = 0
  · rw [if_neg (by simpa using hzero)] at hlocal
    cases hlocal
    rw [if_pos (show s.meter.localUsage.totalTokens = 0 from hzero)]
    exact ⟨by simp, h.price, by simpa using h.charged⟩
  · rw [if_pos hzero] at hlocal
    obtain ⟨hpriced, -, -, -, hsame, hcharged⟩ :=
      preConsumeUsage_ok hlocal hprice hlast h.price h.charged
    rw [if_neg (show ¬s.meter.localUsage.totalTokens = 0 from hzero)]
    exact ⟨by simpa using hpriced, hsame, by simpa using hcharged⟩

theorem Metered.handleAll (hprice : p.usePrice = false) {r : EndReplies} {stop : Option Stop}
    {s₁ : RealtimeState} (hlast : p.PositiveRatios r.localUsage.ratios) :
    ∀ (messages : List Message) {s : RealtimeState} {amount : Int},
      Metered env info p st₀ base held fs s amount → (∀ msg ∈ messages, msg.Positive p) →
      s.handleAll env counters messages = (stop, s₁) → (∀ e, stop ≠ some (.consumeFailed e)) →
      s₁.chargeLeftover env r.usage s₁.usage = (.ok (), s₂) →
      s₂.chargeLeftover env r.localUsage s₂.localUsage = (.ok (), s₃) →
      (∀ t ∈ s.meter.turns counters r.localUsage.ratios messages, Priced p t) ∧
        p.Same s₃.price ∧
        Charged env info st₀ base held fs s₃.billing s₃.stores
          (amount +
            ((s.meter.turns counters r.localUsage.ratios messages).map p.turnQuota).sum) := by
  intro messages
  induction messages with
  | nil =>
    intro s amount h _ hall _ husage hlocal
    cases hall
    exact h.leftover hprice hlast husage hlocal
  | cons msg rest ih =>
    intro s amount h hpos hall hstop husage hlocal
    unfold RealtimeState.handleAll at hall
    unfold Meter.turns
    split at hall
    · rename_i stopped s' hmsg
      cases hall
      obtain ⟨hnone, i, rfl⟩ := handle_stop hmsg fun e he => hstop e (by rw [he])
      rw [hnone]
      have hleft := (h.of_counted i s.localUsage).leftover hprice hlast husage hlocal
      exact hleft
    · rename_i s' hmsg
      obtain ⟨turn, hsome, hpriced, h'⟩ := h.handle hprice (hpos msg (by simp)) hmsg
      rw [hsome]
      obtain ⟨hrest, hsame, hcharged⟩ :=
        ih h' (fun m hm => hpos m (List.mem_cons_of_mem _ hm)) hall hstop husage hlocal
      refine ⟨?_, hsame, ?_⟩
      · intro t ht
        rcases List.mem_append.mp ht with ht | ht
        · exact hpriced t ht
        · exact hrest t ht
      · rw [List.map_append, List.sum_append, ← Int.add_assoc]
        exact hcharged

end RealtimeState

/-! ### From the opening to the settlement -/

/-- How the request was opened: with a session, or without one because its group was free. -/
inductive Opening where
  | session (source : BillingSource) (r : BillingSession.PreConsumeReplies) (quota : Int)
  | free

namespace Opening

def run (env : BillingEnv) (info : RelayInfo) (st : Stores) :
    Opening → Option (RelayBilling × Stores)
  | .session source r quota =>
    match BillingSession.newSession source env r info quota st with
    | (.ok (), s, st') => some (.session s, st')
    | (.error _, _, _) => none
  | .free => some (.noSession info, st)

/--
Where the funding source stood.  The opening of a subscription first runs the reset that
has fallen due, if one has, and charges after it.
-/
def start (env : BillingEnv) (info : RelayInfo) (st : Stores) : Opening → Int
  | .session .subscription r quota =>
    match charged env.subscription
        (BillingSession.subscriptionArgs info quota r.funding.now)
        (activeSubs st.subs info.userId r.funding.now) with
    | some (_, sub) => sub.amountUsed
    | none => 0
  | _ => -st.wallet.balance

/-- What the callers see to: no negative quota, a new request id, a new `RelayInfo`. -/
def Valid (info : RelayInfo) (st : Stores) : Opening → Prop
  | .session _ _ quota =>
    0 ≤ quota ∧ RowsOK st.subs ∧ st.subs.records.find info.requestId = none
  | .free => info.billingSource = none ∧ info.finalPreConsumedQuota = 0

variable {env : BillingEnv} {info : RelayInfo} {st st' : Stores} {b : RelayBilling}
  {o : Opening}

theorem linked_syncRelayInfo (s : BillingSession) :
    (RelayBilling.session s.syncRelayInfo).Linked := by
  unfold RelayBilling.Linked RelayBilling.funding RelayBilling.info BillingSession.syncRelayInfo
  cases hf : s.funding with
  | wallet w => simp [FundingSource.source]
  | subscription f => simp [FundingSource.source]

variable {s : BillingSession}

variable {source : BillingSource} {r : BillingSession.PreConsumeReplies} {quota : Int}

theorem newSession_linked (hquota : 0 ≤ quota)
    (h : BillingSession.newSession source env r info quota st = (.ok (), s, st')) :
    (RelayBilling.session s).Linked := by
  cases source with
  | wallet =>
    obtain ⟨c, funding, -, -, rfl⟩ := BillingSession.preConsume_ok hquota h
    exact linked_syncRelayInfo _
  | subscription =>
    have hpos : 0 ≤ BillingSession.subConsume quota := (BillingSession.subConsume_pos quota).le
    obtain ⟨c, funding, -, -, rfl⟩ := BillingSession.preConsume_ok hpos h
    exact linked_syncRelayInfo _

theorem charged_of_live {base : Int} (hlive : BillingSession.Live env info st base s st')
    (hlinked : (RelayBilling.session s).Linked) :
    Charged env info st base s.preConsumedQuota s.funding (.session s) st' s.preConsumedQuota :=
  ⟨hlive.base_nonneg, rfl, hlinked, ⟨hlive.unsettled, hlive.fundingUnsettled, rfl⟩,
    hlive.isPlayground, hlive.funding, hlive.token⟩

theorem live_of_session (hvalid : (session source r quota).Valid info st)
    (hopen : BillingSession.newSession source env r info quota st = (.ok (), s, st')) :
    ∃ base, BillingSession.Live env info st base s st' ∧
      ∀ (st'' : Stores) (amount : Int), FundingDrawn env.quota st base st'' amount s.funding →
        s.funding.spent st'' - (session source r quota).start env info st = amount := by
  obtain ⟨hquota, hrows, hfresh⟩ := hvalid
  cases source with
  | wallet =>
    obtain ⟨hlive, rfl⟩ := BillingSession.newSession_wallet hquota hopen
    refine ⟨0, hlive, ?_⟩
    intro st'' amount hdrawn
    have hbal := Moves.balance hdrawn
    show -st''.wallet.balance - -st.wallet.balance = amount
    omega
  | subscription =>
    obtain ⟨row, sub, f, hcharged, -, -, hlive, hbooks, -⟩ :=
      BillingSession.newSession_subscription hrows hfresh hopen
    refine ⟨sub.amountUsed, hlive, ?_⟩
    intro st'' amount hdrawn
    rw [hbooks.funding] at hdrawn ⊢
    obtain ⟨-, row', hfind, -, hused⟩ := hdrawn
    have hstart : (session .subscription r quota).start env info st = sub.amountUsed := by
      simp [start, hcharged]
    rw [hstart]
    show st''.subs.amountUsed f.subscriptionId - sub.amountUsed = amount
    rw [SubscriptionDB.amountUsed_of_find hfind, hused]
    omega

theorem charged_of_run (hvalid : o.Valid info st) (h : o.run env info st = some (b, st')) :
    ∃ base held, Charged env info st base held b.funding b st' held ∧
      ∀ (st'' : Stores) (amount : Int), FundingDrawn env.quota st base st'' amount b.funding →
        b.funding.spent st'' - o.start env info st = amount := by
  cases o with
  | session source r quota =>
    unfold run at h
    dsimp only at h
    split at h
    · rename_i s st₁ hopen
      cases h
      obtain ⟨base, hlive, hspent⟩ := live_of_session hvalid hopen
      exact ⟨base, _, charged_of_live hlive (newSession_linked hvalid.1 hopen), hspent⟩
    · simp at h
  | free =>
    obtain ⟨hsource, hfinal⟩ := hvalid
    cases h
    refine ⟨0, 0, ⟨le_refl 0, rfl, ?_, ⟨hfinal, rfl⟩, rfl, ?_, ?_⟩, ?_⟩
    · show info.billingSource ≠ some .subscription
      simp [hsource]
    · exact Moves.refl env.quota st.wallet
    · simpa [tokenShare] using Moves.refl env.quota st.token
    · intro st'' amount hdrawn
      have hbal := Moves.balance hdrawn
      show -st''.wallet.balance - -st.wallet.balance = amount
      omega

end Opening

/-- No billing call of the session failed. -/
structure RealtimeOutcome.Clean (o : RealtimeOutcome) : Prop where
  stop : ∀ e, o.stop ≠ some (.consumeFailed e)
  usageLeft : o.usageLeft = .ok ()
  localUsageLeft : o.localUsageLeft = .ok ()
  settled : o.settled = .ok ()

section Session

variable {env : BillingEnv} {counters : TokenCounters} {info : RelayInfo} {p : PriceInfo}
  {st st₁ : Stores} {b : RelayBilling} {opening : Opening} {messages : List RealtimeState.Message}
  {r : EndReplies}

/-- The request is priced by ratios, and the ratios of the settlement are positive. -/
structure RatioMode (p : PriceInfo) : Prop where
  usePrice : p.usePrice = false
  finalUsePrice : p.priceData.usePrice = false
  tieredSettle : p.tieredSettle = none
  modelRatio : 0 < p.priceData.modelRatio
  groupRatio : 0 < p.priceData.groupRatio

theorem finalQuota_nonneg (hmode : RatioMode p) (hsame : p.Same p') (ratios : RatioSetting)
    (usage : RealtimeUsage) : 0 ≤ finalQuota ratios p' usage := by
  obtain ⟨g, clamp, rfl⟩ := hsame.rest
  unfold finalQuota
  split
  · exact le_refl 0
  · simp only [hmode.tieredSettle]
    refine calculateAudioQuota_nonneg hmode.finalUsePrice ?_
    exact mul_ne_zero hmode.groupRatio.ne' hmode.modelRatio.ne'

theorem realtimeSession_charge (hvalid : opening.Valid info st)
    (hopen : opening.run env info st = some (b, st₁)) (hmode : RatioMode p)
    (hpos : ∀ msg ∈ messages, msg.Positive p) (hlast : p.PositiveRatios r.localUsage.ratios)
    {o : RealtimeOutcome}
    (ho : realtimeSession env counters messages r (.initial p b st₁) = o) (hclean : o.Clean) :
    (∀ t ∈ Meter.initial.turns counters r.localUsage.ratios messages,
        RealtimeState.Priced p t) ∧
      o.billing.funding.spent o.stores - opening.start env info st = o.quota +
        ((Meter.initial.turns counters r.localUsage.ratios messages).map p.turnQuota).sum ∧
      st.token.balance - o.stores.token.balance = tokenShare info (o.quota +
        ((Meter.initial.turns counters r.localUsage.ratios messages).map p.turnQuota).sum) := by
  obtain ⟨base, held, hcharged, hspent⟩ := Opening.charged_of_run hvalid hopen
  have hmetered : RealtimeState.Metered env info p st base held b.funding (.initial p b st₁)
      held :=
    ⟨rfl, PriceInfo.Same.refl p, hcharged⟩
  rcases hall : (RealtimeState.initial p b st₁).handleAll env counters messages with ⟨stop, s₁⟩
  rcases husage : s₁.chargeLeftover env r.usage s₁.usage with ⟨usageLeft, s₂⟩
  rcases hlocal : s₂.chargeLeftover env r.localUsage s₂.localUsage with ⟨localUsageLeft, s₃⟩
  rcases hsettle : settleBilling env r.settle (finalQuota r.ratios s₃.price s₃.sumUsage)
    s₃.billing s₃.stores with ⟨settled, b', st'⟩
  simp only [realtimeSession, hall, husage, hlocal, hsettle] at ho
  subst ho
  obtain ⟨hstop, rfl, rfl, rfl⟩ := hclean
  obtain ⟨hpriced, hsame, hfinal⟩ :=
    RealtimeState.Metered.handleAll hmode.usePrice hlast messages hmetered hpos hall hstop
      husage hlocal
  set turns := Meter.initial.turns counters r.localUsage.ratios messages with hturns
  change ∀ t ∈ turns, RealtimeState.Priced p t at hpriced
  change Charged env info st base held b.funding s₃.billing s₃.stores
    (held + (turns.map p.turnQuota).sum) at hfinal
  have hsum : 0 ≤ (turns.map p.turnQuota).sum := by
    refine List.sum_nonneg ?_
    intro q hq
    obtain ⟨t, ht, rfl⟩ := List.mem_map.mp hq
    exact (hpriced t ht).1
  obtain ⟨hfunding, hdrawn, htoken⟩ :=
    hfinal.settleBilling (finalQuota_nonneg hmode hsame r.ratios s₃.sumUsage) (by omega) hsettle
  have htotal : held + (turns.map p.turnQuota).sum +
      (finalQuota r.ratios s₃.price s₃.sumUsage - held) =
        finalQuota r.ratios s₃.price s₃.sumUsage + (turns.map p.turnQuota).sum := by
    omega
  rw [htotal] at hdrawn htoken
  refine ⟨hpriced, ?_, ?_⟩
  · dsimp only
    rw [hfunding]
    exact hspent st' _ hdrawn
  · have hbal := htoken.balance
    dsimp only
    omega

theorem sum_turnQuota_eq_zero_iff : ∀ turns : List Turn,
    (∀ t ∈ turns, RealtimeState.Priced p t) →
    0 ≤ (turns.map p.turnQuota).sum ∧ ((turns.map p.turnQuota).sum = 0 ↔
      ∀ t ∈ turns, 0 < p.turnPrice t ∧ p.turnPrice t < 1 / 2) := by
  intro turns
  induction turns with
  | nil =>
    intro _
    simp
  | cons t rest ih =>
    intro hpriced
    obtain ⟨hnonneg, hzero⟩ := hpriced t (by simp)
    obtain ⟨hrest, hrestZero⟩ := ih fun t' ht' => hpriced t' (List.mem_cons_of_mem _ ht')
    rw [List.map_cons, List.sum_cons]
    refine ⟨by omega, ?_⟩
    constructor
    · intro hsum
      have hboth : p.turnQuota t = 0 ∧ (rest.map p.turnQuota).sum = 0 := by omega
      intro t' ht'
      rcases List.mem_cons.mp ht' with rfl | ht'
      · exact hzero.mp hboth.1
      · exact hrestZero.mp hboth.2 t' ht'
    · intro hall
      have hhead := hzero.mpr (hall t (by simp))
      have htail := hrestZero.mpr fun t' ht' => hall t' (List.mem_cons_of_mem _ ht')
      omega

/--
**A realtime session costs what it records only if its turns cost nothing.**  Every turn
is charged when it ends and once more, as part of the summed usage, by the settlement.
-/
theorem realtime_charge_iff (hvalid : opening.Valid info st)
    (hopen : opening.run env info st = some (b, st₁)) (hmode : RatioMode p)
    (hpos : ∀ msg ∈ messages, msg.Positive p) (hlast : p.PositiveRatios r.localUsage.ratios)
    {o : RealtimeOutcome}
    (ho : realtimeSession env counters messages r (.initial p b st₁) = o) (hclean : o.Clean) :
    (o.billing.funding.spent o.stores - opening.start env info st = o.quota ∧
        st.token.balance - o.stores.token.balance = tokenShare info o.quota) ↔
      ∀ t ∈ Meter.initial.turns counters r.localUsage.ratios messages,
        0 < p.turnPrice t ∧ p.turnPrice t < 1 / 2 := by
  obtain ⟨hpriced, hfunding, htoken⟩ :=
    realtimeSession_charge hvalid hopen hmode hpos hlast ho hclean
  obtain ⟨-, hzero⟩ := sum_turnQuota_eq_zero_iff _ hpriced
  rw [hfunding, htoken, ← hzero]
  constructor
  · rintro ⟨hsum, -⟩
    omega
  · intro hsum
    rw [hsum, Int.add_zero]
    exact ⟨rfl, rfl⟩

end Session

/-! ### Two sessions of one turn -/

section OneTurn

def unitRatios : RatioSetting where
  getModelRatio := fun _ => 1
  getCompletionRatio := fun _ => 1
  getAudioRatio := fun _ => 1
  getAudioCompletionRatio := fun _ => 1
  getGroupRatio := fun _ => 1
  getGroupGroupRatio := fun _ _ => none
  quotaPerUnit := 500000

def centRatios : RatioSetting := { unitRatios with getModelRatio := fun _ => 1 / 100 }

def plainPrice (modelRatio : ℚ) : PriceInfo where
  usePrice := false
  originModelName := "gpt-realtime"
  upstreamModelName := "gpt-realtime"
  usingGroup := "default"
  userGroup := "default"
  autoGroup := none
  userGroupRatioAdjustmentEnabled := false
  userGroupRatioAdjustment := 0
  priceData := ⟨false, 0, modelRatio, 1, ⟨none, none⟩⟩
  tieredSettle := none
  quotaClamp := none

def turnUp (ratios : RatioSetting) : PreWssReplies where
  ratios := ratios
  userQuota := some 1000
  token := some ⟨false, 1000⟩
  post := ⟨BillingSession.fundingUp, BillingSession.quotaUp⟩

def endUp (ratios : RatioSetting) : EndReplies where
  usage := turnUp ratios
  localUsage := turnUp ratios
  ratios := ratios
  settle := ⟨BillingSession.fundingUp, BillingSession.quotaUp⟩

def tenTokens : RealtimeUsage := ⟨10, 10, 0, ⟨0, 10, 0⟩, ⟨0, 0⟩⟩

def oneTurn (ratios : RatioSetting) : List RealtimeState.Message :=
  [.target (.responseDone (some (some tenTokens))) (turnUp ratios)]

def plainCounters : TokenCounters where
  count := fun s => s.length
  countAudioTokenInput := fun _ _ => some 1
  countAudioTokenOutput := fun _ _ => some 1

/-- The session is opened on the wallet with a pre-consume of five. -/
def fiveHeld : Opening := .session .wallet BillingSession.preConsumeUp 5

def fiveHeldRun : RelayBilling × Stores :=
  ((fiveHeld.run BillingSession.plainEnv BillingSession.textInfo BillingSession.plainStores).getD
    (.noSession BillingSession.textInfo, BillingSession.plainStores))

def oneTurnOutcome (ratios : RatioSetting) (modelRatio : ℚ) : RealtimeOutcome :=
  realtimeSession BillingSession.plainEnv plainCounters (oneTurn ratios) (endUp ratios)
    (.initial (plainPrice modelRatio) fiveHeldRun.1 fiveHeldRun.2)

theorem fiveHeld_run : fiveHeld.run BillingSession.plainEnv BillingSession.textInfo
    BillingSession.plainStores = some (fiveHeldRun.1, fiveHeldRun.2) := rfl

theorem fiveHeld_valid :
    fiveHeld.Valid BillingSession.textInfo BillingSession.plainStores :=
  ⟨by decide, BillingSession.plainStores_rowsOK, rfl⟩

theorem plainPrice_ratioMode {modelRatio : ℚ} (h : 0 < modelRatio) :
    RatioMode (plainPrice modelRatio) :=
  ⟨rfl, rfl, rfl, h, by norm_num [plainPrice]⟩

theorem plainPrice_positive {modelRatio : ℚ} {ratios : RatioSetting}
    (hmodel : 0 < ratios.getModelRatio "gpt-realtime")
    (hgroup : (plainPrice modelRatio).turnGroupRatio ratios = some 1) :
    (plainPrice modelRatio).PositiveRatios ratios := by
  refine ⟨hmodel, ?_⟩
  intro g hg
  obtain rfl : 1 = g := Option.some.inj (hgroup.symm.trans hg)
  norm_num

theorem oneTurn_positive {p : PriceInfo} {ratios : RatioSetting}
    (h : p.PositiveRatios ratios) : ∀ msg ∈ oneTurn ratios, msg.Positive p := by
  intro msg hmsg
  obtain rfl := List.mem_singleton.mp hmsg
  exact h

/-- With ratios of one, ten tokens are recorded as ten and cost twenty. -/
theorem oneTurn_charged_twice :
    fiveHeld.Valid BillingSession.textInfo BillingSession.plainStores ∧
      RatioMode (plainPrice 1) ∧ (plainPrice 1).PositiveRatios unitRatios ∧
      (oneTurnOutcome unitRatios 1).Clean ∧ (oneTurnOutcome unitRatios 1).quota = 10 ∧
      (oneTurnOutcome unitRatios 1).billing.funding.spent (oneTurnOutcome unitRatios 1).stores -
        fiveHeld.start BillingSession.plainEnv BillingSession.textInfo
          BillingSession.plainStores = 20 ∧
      BillingSession.plainStores.token.balance -
        (oneTurnOutcome unitRatios 1).stores.token.balance = 20 := by
  have hstop : (oneTurnOutcome unitRatios 1).stop = none := by decide +kernel
  have hclean : (oneTurnOutcome unitRatios 1).Clean :=
    ⟨fun e => hstop ▸ (Option.some_ne_none _).symm, by decide +kernel,
      by decide +kernel, by decide +kernel⟩
  have hgroup : (plainPrice 1).turnGroupRatio unitRatios = some 1 := by decide +kernel
  exact ⟨fiveHeld_valid, plainPrice_ratioMode one_pos, plainPrice_positive one_pos hgroup,
    hclean, by decide +kernel, by decide +kernel, by decide +kernel⟩

/-- At a hundredth of the price the turn rounds to nothing, and the books agree. -/
theorem cheap_turn_charged_once :
    (oneTurnOutcome centRatios (1 / 100)).billing.funding.spent
        (oneTurnOutcome centRatios (1 / 100)).stores -
      fiveHeld.start BillingSession.plainEnv BillingSession.textInfo
        BillingSession.plainStores = (oneTurnOutcome centRatios (1 / 100)).quota := by
  have hratio : (0 : ℚ) < 1 / 100 := by norm_num
  have hgroup : (plainPrice (1 / 100)).turnGroupRatio centRatios = some 1 := by decide +kernel
  have hpositive := plainPrice_positive hratio hgroup
  have hstop : (oneTurnOutcome centRatios (1 / 100)).stop = none := by decide +kernel
  have hclean : (oneTurnOutcome centRatios (1 / 100)).Clean :=
    ⟨fun e => hstop ▸ (Option.some_ne_none _).symm, by decide +kernel,
      by decide +kernel, by decide +kernel⟩
  have hcheap : ∀ t ∈ Meter.initial.turns plainCounters centRatios (oneTurn centRatios),
      0 < (plainPrice (1 / 100)).turnPrice t ∧ (plainPrice (1 / 100)).turnPrice t < 1 / 2 := by
    intro t ht
    obtain rfl : t = ⟨centRatios, tenTokens⟩ := List.mem_singleton.mp ht
    exact ⟨by decide +kernel, by decide +kernel⟩
  exact ((realtime_charge_iff fiveHeld_valid fiveHeld_run (plainPrice_ratioMode hratio)
    (oneTurn_positive hpositive) hpositive rfl hclean).mpr hcheap).1

end OneTurn

end JulongApi

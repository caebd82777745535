/-
A settlement charges what was used, and ends the session.

Between its opening and its settlement a session may reserve any number of times, and
any of these calls may fail.  `Live` survives them all as long as the compensating write
of a failed call goes through, so when `Settle` comes, the difference it computes from
`preConsumedQuota` is the difference between what has left the stores and what should
have.  From then on `settled` is set, and every method looks at it first.
-/
import JulongApi.Lib.Machine
import JulongApi.Proofs.Session.Rollback

namespace JulongApi.BillingSession

variable {env : BillingEnv} {info : RelayInfo} {st₀ : Stores} {base : Int}
  {s s' : BillingSession} {st st' : Stores}

/-! ### Reserves, whether they succeed or fail -/

/-- A reserve as a step: whatever it returns, this is what it leaves. -/
def reserveAny (env : BillingEnv) (p : BillingSession × Stores) (call : ReserveCall) :
    Option (BillingSession × Stores) :=
  some (reserveCall env call p.1 p.2).2

/-- If the call fails, its compensating write goes through. -/
def CompensatesFailure (env : BillingEnv) (p : BillingSession × Stores) (call : ReserveCall) :
    Prop :=
  (reserveCall env call p.1 p.2).1 ≠ .ok () →
    RollsBack env call.replies.rollback (call.targetQuota - p.1.preConsumedQuota) p.1 p.2

theorem Live.rollback (h : Live env info st₀ base s st) {fr fr' : FundingReply} {delta : Int}
    {s₁ : BillingSession} {st₁ : Stores} (hpos : 0 < delta)
    (hback : RollsBack env fr' delta s st)
    (hfund : s.reserveFunding env fr delta s.imageRequest st = (.ok (), s₁, st₁)) :
    Live env info st₀ base (s₁.rollbackFundingReserve env fr' delta st₁).1
      (s₁.rollbackFundingReserve env fr' delta st₁).2 := by
  have hdrawn := h.funding
  cases hf : s.funding with
  | wallet w =>
    rw [hf] at hdrawn
    obtain ⟨rfl, c, rfl, hdraw⟩ := reserveFunding_wallet_ok hf hpos hfund
    rcases rollback_wallet hf hpos hdraw with ⟨-, c', hmoves, hroll⟩ | ⟨hno, -⟩
    · rw [hroll]
      refine ⟨h.unsettled, h.unrefunded, h.fundingUnsettled, h.isPlayground,
        h.isImageRequest, h.base_nonneg, h.nonneg, ?_, h.token⟩
      show Moves env.quota st₀.wallet c' (-s.preConsumedQuota)
      replace hdrawn : Moves env.quota st₀.wallet st.wallet (-s.preConsumedQuota) := hdrawn
      simpa using hdrawn.trans hmoves
    · exact absurd hback hno
  | subscription f =>
    rw [hf] at hdrawn
    obtain ⟨-, row', hfind', hrow, -⟩ := hdrawn
    obtain ⟨rfl, hid, row, hfind, rfl, hle⟩ := reserveFunding_subscription_ok hf hpos hfund
    obtain rfl : row = row' := Option.some.inj (hfind.symm.trans hfind')
    rcases rollback_subscription hf hpos hid hfind hrow hle with ⟨-, hroll⟩ | ⟨hno, -⟩
    · rw [hroll]
      exact h
    · exact absurd hback hno

theorem Live.reserve_error (h : Live env info st₀ base s st) {r : ReserveReplies} {target : Int}
    {e : NewAPIError}
    (hback : RollsBack env r.rollback (target - s.preConsumedQuota) s st)
    (hres : s.reserve env r target st = (.error e, s', st')) : Live env info st₀ base s' st' := by
  obtain ⟨hskip, ⟨rfl, rfl, -⟩ | ⟨s₁, st₁, hfund, -, hroll⟩⟩ := BillingSession.reserve_error hres
  · exact h
  · have hpos : 0 < target - s.preConsumedQuota := by
      have := (reserveSkips_false hskip).2.2.1
      omega
    have hlive := h.rollback hpos hback hfund
    rw [← hroll] at hlive
    exact hlive

theorem Live.reserveAny (h : Live env info st₀ base s st) {call : ReserveCall}
    (hcomp : CompensatesFailure env (s, st) call)
    (hstep : BillingSession.reserveAny env (s, st) call = some (s', st')) :
    Live env info st₀ base s' st' := by
  have hlive := h.withImageRequestCount call.imageRequestCount
  have hout := Option.some.inj hstep
  unfold CompensatesFailure at hcomp
  unfold reserveCall at hout hcomp
  rcases hres : (s.withImageRequestCount call.imageRequestCount).reserve env call.replies
      call.targetQuota st with ⟨e | _, s₁, st₁⟩
  · rw [hres] at hout hcomp
    cases hout
    have hback : RollsBack env call.replies.rollback
        (call.targetQuota - (s.withImageRequestCount call.imageRequestCount).preConsumedQuota)
        (s.withImageRequestCount call.imageRequestCount) st := hcomp (by simp)
    exact hlive.reserve_error hback hres
  · rw [hres] at hout
    cases hout
    cases hskip : (s.withImageRequestCount call.imageRequestCount).reserveSkips
        call.targetQuota with
    | true =>
      rw [reserve_skips hskip] at hres
      cases hres
      exact hlive
    | false => exact (hlive.reserve_ok hskip hres).2.2

variable {calls : List ReserveCall} {p p' : BillingSession × Stores}

theorem Live.run_reserveAny (h : Live env info st₀ base p.1 p.2)
    (hcomp : Machine.Meets (BillingSession.reserveAny env) (CompensatesFailure env) p calls)
    (hrun : Machine.run (BillingSession.reserveAny env) p calls = some p') :
    Live env info st₀ base p'.1 p'.2 := by
  have hstep : ∀ (p : BillingSession × Stores) (call : ReserveCall) (p' : BillingSession × Stores),
      Live env info st₀ base p.1 p.2 → CompensatesFailure env p call →
      BillingSession.reserveAny env p call = some p' → Live env info st₀ base p'.1 p'.2 :=
    fun p call p' hlive hc hs => hlive.reserveAny hc hs
  exact Machine.run_invariant (fun p => Live env info st₀ base p.1 p.2) hstep calls p p'
    h hcomp hrun

theorem run_reserveAny_account (hrun : Machine.run (reserveAny env) p calls = some p') :
    p'.1.funding.account = p.1.funding.account := by
  refine Machine.run_preserves (fun q => q.1.funding.account = p.1.funding.account) ?_ rfl hrun
  intro q call q' hq hstep
  cases hstep
  rw [← hq]
  exact reserve_account

/-! ### The settlement -/

theorem Live.settle_ok (h : Live env info st₀ base s st) {r : SettleReplies} {actual : Int}
    (hroom : ∀ id, s.funding.account = some id → 0 ≤ base + actual)
    (hres : s.settle env r actual st = (.ok (), s', st')) :
    s'.settled = true ∧ s'.funding = s.funding ∧
      FundingDrawn env.quota st₀ base st' actual s.funding ∧
      Moves env.quota st₀.token st'.token (-tokenShare info actual) := by
  have hsum : s.preConsumedQuota + (actual - s.preConsumedQuota) = actual := by omega
  obtain ⟨hsettled, hfunding, hdrawn, htoken⟩ :=
    BillingSession.settle_ok h.unsettled h.fundingUnsettled h.funding (by rwa [hsum]) hres
  rw [hsum] at hdrawn
  refine ⟨hsettled, hfunding, hdrawn, ?_⟩
  rw [h.tokenShare_eq] at htoken
  have hboth := h.token.trans htoken
  rwa [← Int.neg_add, ← tokenShare_add, hsum] at hboth

/-! ### Afterwards -/

theorem settle_of_settled (h : s.settled = true) (r : SettleReplies) (actual : Int) :
    s.settle env r actual st = (.ok (), s, st) := by
  unfold settle
  rw [if_pos h]

theorem refund_of_settled (h : s.settled = true) (r : RefundReplies) :
    s.refund env r st = (s, st) := by
  unfold refund
  rw [if_pos (by simp [h])]

theorem apply_of_settled (env : BillingEnv) (h : p.1.settled = true) (call : Call) :
    (call.apply env p).2 = p.2 ∧ (call.apply env p).1.settled = true := by
  cases call with
  | reserve call =>
    have hskip : (p.1.withImageRequestCount call.imageRequestCount).reserveSkips
        call.targetQuota = true := by
      unfold reserveSkips
      simp [withImageRequestCount, h]
    have hcall : (Call.reserve call).apply env p =
        (p.1.withImageRequestCount call.imageRequestCount, p.2) := by
      show (reserveCall env call p.1 p.2).2 = _
      unfold reserveCall
      rw [reserve_skips hskip]
    rw [hcall]
    exact ⟨rfl, h⟩
  | settle r actual =>
    have hcall : (Call.settle r actual).apply env p = p := by
      show (p.1.settle env r actual p.2).2 = p
      rw [settle_of_settled h]
    rw [hcall]
    exact ⟨rfl, h⟩
  | refund r =>
    have hcall : (Call.refund r).apply env p = p := by
      show p.1.refund env r p.2 = p
      rw [refund_of_settled h]
    rw [hcall]
    exact ⟨rfl, h⟩

/-- **Settled is absorbing**, for any calls in any order. -/
theorem settled_absorbing : ∀ (later : List Call) {p : BillingSession × Stores},
    p.1.settled = true → (later.foldl (Call.apply env) p).2 = p.2 := by
  intro later
  induction later with
  | nil =>
    intro p _
    rfl
  | cons call rest ih =>
    intro p h
    obtain ⟨hstores, hsettled⟩ := apply_of_settled env h call
    rw [List.foldl_cons, ih hsettled, hstores]

/-! ### The whole session -/

/--
What a subscription adds to the conditions: the row the session was opened on was not
reset there, and it has used at least as much as a negative `actual` would give back.
-/
def SettleCondition (env : BillingEnv) (info : RelayInfo) (quota : Int) (r : PreConsumeReplies)
    (st : Stores) (actual : Int) : BillingSource → Prop
  | .wallet => True
  | .subscription =>
    ∀ row sub, charged env.subscription (subscriptionArgs info quota r.funding.now)
      (activeSubs st.subs info.userId r.funding.now) = some (row, sub) →
      sub.amountUsed = row.amountUsed ∧ 0 ≤ row.amountUsed + actual

/--
**A settled session has charged what was used, once and for all.**  Reserves may fail on
the way; what they must not do is fail without being compensated.
-/
theorem settle_charges_actual {source : BillingSource} {quota : Int} {r : PreConsumeReplies}
    {calls : List ReserveCall} {sr : SettleReplies} {actual : Int} {s₁ s₂ s₃ : BillingSession}
    {st₁ st₂ st₃ : Stores} (hquota : 0 ≤ quota) (hrows : RowsOK st.subs)
    (hfresh : st.subs.records.find info.requestId = none)
    (hopen : newSession source env r info quota st = (.ok (), s₁, st₁))
    (hcomp : Machine.Meets (reserveAny env) (CompensatesFailure env) (s₁, st₁) calls)
    (hrun : Machine.run (reserveAny env) (s₁, st₁) calls = some (s₂, st₂))
    (hsettle : s₂.settle env sr actual st₂ = (.ok (), s₃, st₃))
    (hcond : SettleCondition env info quota r st actual source) :
    s₃.funding.spent st₃ = s₃.funding.spent st + actual ∧
      st₃.token.balance = st.token.balance - tokenShare info actual ∧
      ∀ later : List Call, (later.foldl (Call.apply env) (s₃, st₃)).2 = st₃ := by
  -- the session is live on some base, which is where its row stood before
  have hlive : ∃ base, Live env info st base s₁ st₁ ∧
      ∀ id, s₁.funding.account = some id → st.subs.amountUsed id = base ∧ 0 ≤ base + actual := by
    cases source with
    | wallet =>
      obtain ⟨hlive, rfl⟩ := newSession_wallet hquota hopen
      refine ⟨0, hlive, ?_⟩
      intro id hid
      simp [preConsumed, FundingSource.account] at hid
    | subscription =>
      obtain ⟨row, sub, f, hcharged, hid, hbefore, hlive, hbooks, -⟩ :=
        newSession_subscription hrows hfresh hopen
      obtain ⟨hreset, hroom⟩ := hcond row sub hcharged
      refine ⟨sub.amountUsed, hlive, ?_⟩
      intro id haccount
      rw [hbooks.funding] at haccount
      obtain rfl : f.subscriptionId = id := Option.some.inj haccount
      rw [hid, hbefore, hreset]
      exact ⟨rfl, hroom⟩
  obtain ⟨base, hlive₁, hbase⟩ := hlive
  have hlive₂ := hlive₁.run_reserveAny hcomp hrun
  have haccount : s₂.funding.account = s₁.funding.account := run_reserveAny_account hrun
  obtain ⟨hsettled, hfunding, hdrawn, htoken⟩ :=
    hlive₂.settle_ok (fun id hid => (hbase id (haccount ▸ hid)).2) hsettle
  refine ⟨?_, ?_, fun later => settled_absorbing later hsettled⟩
  · rw [hfunding]
    exact hdrawn.spent fun id hid => (hbase id (haccount ▸ hid)).1
  · rw [htoken.balance]
    omega

/-! ### Why each condition is there -/

section Conditions

/-- The net change of the funding source over opening, reserves and a settlement. -/
def netCharge (source : BillingSource) (env : BillingEnv) (r : PreConsumeReplies)
    (info : RelayInfo) (quota : Int) (calls : List ReserveCall) (sr : SettleReplies)
    (actual : Int) (st : Stores) : Option Int :=
  match newSession source env r info quota st with
  | (.error _, _, _) => none
  | (.ok (), s₁, st₁) =>
    match Machine.run (reserveAny env) (s₁, st₁) calls with
    | none => none
    | some (s₂, st₂) =>
      match s₂.settle env sr actual st₂ with
      | (.error _, _, _) => none
      | (.ok (), s₃, st₃) => some (s₃.funding.spent st₃ - s₃.funding.spent st)

def fiveOfHundred : UserSubscription where
  id := 1
  userId := 1
  planId := 1
  amountTotal := 100
  amountUsed := 5
  startTime := 0
  endTime := 1000
  status := .active
  lastResetTime := 0
  nextResetTime := 10

def subscribedStores : Stores :=
  { plainStores with subs := ⟨⟨[fiveOfHundred], by simp⟩, ⟨[], List.nodup_nil⟩⟩ }

theorem subscribedStores_rowsOK : RowsOK subscribedStores.subs := by
  intro row hrow
  obtain rfl : row = fiveOfHundred := by simpa [subscribedStores] using hrow
  exact ⟨by decide, by decide, by decide⟩

def tenSecondEnv : BillingEnv :=
  { plainEnv with subscription := { plainEnv.subscription with
      plans := fun _ => some ⟨.custom, 10⟩ } }

def settleUp : SettleReplies := ⟨fundingUp, quotaUp⟩

/-- A call whose token step fails, and whose compensating write fails too. -/
def uncompensated : ReserveCall := ⟨0, 30, ⟨fundingUp, quotaDown, ⟨quotaDown, none, 0⟩⟩⟩

def preConsumeAt15 : PreConsumeReplies :=
  { preConsumeUp with funding := { fundingUp with now := 15 } }

/--
Three sessions whose settlement succeeds and whose charge is not the actual amount: a
reserve that failed without being compensated, a reset that fell due at the opening, and
a negative amount that gives back more than the row has used.
-/
theorem settle_not_actual :
    plainStores.subs.records.find textInfo.requestId = none ∧
      RowsOK plainStores.subs ∧ RowsOK subscribedStores.subs ∧
      netCharge .wallet plainEnv preConsumeUp textInfo 10 [uncompensated] settleUp 10
        plainStores = some 30 ∧
      netCharge .subscription tenSecondEnv preConsumeAt15 textInfo 10 [] settleUp 10
        subscribedStores = some 5 ∧
      netCharge .subscription plainEnv preConsumeUp textInfo 10 [] settleUp (-20)
        subscribedStores = some (-5) :=
  ⟨rfl, plainStores_rowsOK, subscribedStores_rowsOK, by decide, by decide, by decide⟩

/-- A session of 10 that reserves up to 30 and fails, compensated, on the way to 50. -/
def textCalls : List ReserveCall := [reserveUp 30, ⟨0, 50, tokenDown⟩]

def textReserved : BillingSession × Stores :=
  ((Machine.run (reserveAny plainEnv) (tenOf textInfo) textCalls).getD (tenOf textInfo))

def textSettled : Except BillingError Unit × BillingSession × Stores :=
  textReserved.1.settle plainEnv settleUp 25 textReserved.2

/-- It charges 25. -/
theorem settle_charges_actual_text :
    textSettled.2.2.wallet.balance = 975 ∧
      textSettled.2.1.funding.spent textSettled.2.2 =
        textSettled.2.1.funding.spent plainStores + 25 := by
  have hopen : newSession .wallet plainEnv preConsumeUp textInfo 10 plainStores =
      (.ok (), (tenOf textInfo).1, (tenOf textInfo).2) := rfl
  have hback : CompensatesFailure plainEnv
      (reserveCall plainEnv (reserveUp 30) (tenOf textInfo).1 (tenOf textInfo).2).2
      ⟨0, 50, tokenDown⟩ := by
    intro _
    show (20 : Int) ≤ maxWalletQuota ∧ (false = false → true = true ∧ (970 : Int) ≤ maxWalletQuota)
    decide
  have hmeets : Machine.Meets (reserveAny plainEnv) (CompensatesFailure plainEnv)
      ((tenOf textInfo).1, (tenOf textInfo).2) textCalls := by
    refine ⟨fun hno => absurd rfl hno, ?_⟩
    intro p hp
    cases hp
    exact ⟨hback, fun _ _ => trivial⟩
  have hrun : Machine.run (reserveAny plainEnv) ((tenOf textInfo).1, (tenOf textInfo).2)
      textCalls = some (textReserved.1, textReserved.2) := rfl
  have hsettle : textReserved.1.settle plainEnv settleUp 25 textReserved.2 =
      (.ok (), textSettled.2.1, textSettled.2.2) := rfl
  have hcond : SettleCondition plainEnv textInfo 10 preConsumeUp plainStores 25 .wallet :=
    trivial
  exact ⟨by decide, (settle_charges_actual (by decide) plainStores_rowsOK rfl hopen hmeets hrun
    hsettle hcond).1⟩

end Conditions

end JulongApi.BillingSession

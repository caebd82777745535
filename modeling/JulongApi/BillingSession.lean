/-
The billing session of one request: pre-consume, reserve more, settle or refund.

This file embeds `service/funding_source.go` and `service/billing_session.go`.  A
session is a value, and each method takes it together with the stores and returns
both; what the stores answer comes in as a reply, as in `Quota.lean` and
`Subscription.lean`.  The mutex of the source makes every method atomic, and the
refund the source hands to a goroutine is its last act on the session, so it is run
in place.

Left out are the log lines, the notification mails and the plan's title, which no
method reads back.
-/
import JulongApi.Quota
import JulongApi.Subscription

namespace JulongApi

/-! ### What a session works on -/

/-- The rows a request can touch: the user's wallet, its token, its subscriptions. -/
structure Stores where
  wallet : QuotaColumn
  token : QuotaColumn
  subs : SubscriptionDB

structure BillingEnv where
  quota : QuotaConfig
  subscription : SubscriptionEnv
  /-- `TrustQuotaUSD * QuotaPerUnit`; `none` when that is not a finite number. -/
  trustQuota : Option ℚ

/-- `BillingSourceWallet` and `BillingSourceSubscription`. -/
inductive BillingSource where
  | wallet
  | subscription
deriving DecidableEq, Repr

/-- The fields of `relaycommon.RelayInfo` that billing reads and writes. -/
structure RelayInfo where
  requestId : String
  userId : Nat
  isPlayground : Bool
  tokenUnlimited : Bool
  forcePreConsume : Bool
  /-- `Request` is a `*dto.ImageRequest`. -/
  isImageRequest : Bool
  imageRequestCount : Int
  userQuota : Int
  finalPreConsumedQuota : Int
  billingSource : Option BillingSource
  subscriptionId : Nat
  subscriptionPreConsumed : Int
  subscriptionPostDelta : Int
  subscriptionAmountTotal : Int
  subscriptionAmountUsedAfterPreConsume : Int
deriving DecidableEq, Repr

/-- The errors the funding source and the token can give. -/
inductive BillingError where
  | quota (e : QuotaError)
  | subscription (e : SubscriptionError)
  /-- `ErrInsufficientWalletQuota` -/
  | insufficientWalletQuota
  /-- `token quota is not enough, ... need quota: %s` -/
  | tokenQuotaNotEnough (need : Int)
deriving DecidableEq, Repr

inductive ErrorCode where
  | preConsumeTokenQuotaFailed
  | insufficientUserQuota
  | updateDataError
deriving DecidableEq, Repr

structure NewAPIError where
  err : BillingError
  errorCode : ErrorCode
  statusCode : Nat
deriving DecidableEq, Repr

/-! ### `funding_source.go` -/

/-- How the store behind the funding source answers one call, and when it is made. -/
structure FundingReply where
  quota : QuotaReply
  tx : TxReply
  now : Int
deriving DecidableEq, Repr

structure WalletFunding where
  userId : Nat
  consumed : Int
deriving DecidableEq, Repr

structure SubscriptionFunding where
  requestId : String
  userId : Nat
  /-- what `PreConsume` draws, whatever it is asked for -/
  amount : Int
  subscriptionId : Nat
  preConsumed : Int
  amountTotal : Int
  amountUsedAfter : Int
deriving DecidableEq, Repr

namespace WalletFunding

/-- `WalletFunding.PreConsume`: on success `consumed` becomes the amount of this call. -/
def preConsume (cfg : QuotaConfig) (r : QuotaReply) (w : WalletFunding) (c : QuotaColumn)
    (amount : Int) : Except BillingError Unit × WalletFunding × QuotaColumn :=
  if amount ≤ 0 then (.ok (), w, c)
  else
    match tryReserveUserQuota cfg r c amount with
    | (.error e, c') => (.error (.quota e), w, c')
    | (.ok false, c') => (.error .insufficientWalletQuota, w, c')
    | (.ok true, c') => (.ok (), { w with consumed := amount }, c')

def settle (cfg : QuotaConfig) (r : QuotaReply) (c : QuotaColumn) (delta : Int) :
    Except QuotaError Unit × QuotaColumn :=
  if delta = 0 then (.ok (), c)
  else if 0 < delta then decreaseUserQuota cfg r c delta
  else increaseUserQuota cfg r c (-delta)

def refund (cfg : QuotaConfig) (r : QuotaReply) (w : WalletFunding) (c : QuotaColumn) :
    Except QuotaError Unit × QuotaColumn :=
  if w.consumed ≤ 0 then (.ok (), c)
  else increaseUserQuota cfg r c w.consumed

end WalletFunding

/-- The attempts of `refundWithRetry` from number `i` on, with `left` more to follow. -/
def retryFrom {σ ε : Type} (fn : Nat → σ → Except ε Unit × σ) :
    (left i : Nat) → σ → Except ε Unit × σ
  | 0, i, s => fn i s
  | left + 1, i, s =>
    match fn i s with
    | (.ok (), s') => (.ok (), s')
    | (.error _, s') => retryFrom fn left (i + 1) s'

/-- `refundWithRetry`: three attempts, stopping at the first that succeeds. -/
def refundWithRetry {σ ε : Type} (fn : Nat → σ → Except ε Unit × σ) (s : σ) :
    Except ε Unit × σ :=
  retryFrom fn 2 0 s

namespace SubscriptionFunding

/-- `SubscriptionFunding.PreConsume`; its argument is ignored by the source too. -/
def preConsume (env : SubscriptionEnv) (r : FundingReply) (f : SubscriptionFunding)
    (db : SubscriptionDB) :
    Except SubscriptionError Unit × SubscriptionFunding × SubscriptionDB :=
  match preConsumeUserSubscription env r.tx ⟨f.requestId, f.userId, f.amount, r.now⟩ db with
  | (.error e, db') => (.error e, f, db')
  | (.ok res, db') =>
    (.ok (), { f with subscriptionId := res.userSubscriptionId
                      preConsumed := res.preConsumed
                      amountTotal := res.amountTotal
                      amountUsedAfter := res.amountUsedAfter }, db')

def settle (tx : TxReply) (f : SubscriptionFunding) (db : SubscriptionDB) (delta : Int) :
    Except SubscriptionError Unit × SubscriptionDB :=
  if delta = 0 then (.ok (), db)
  else postConsumeUserSubscriptionDelta tx db f.subscriptionId delta

def refund (attempts : Nat → RefundFaults) (f : SubscriptionFunding) (db : SubscriptionDB) :
    Except SubscriptionError Unit × SubscriptionDB :=
  if f.preConsumed ≤ 0 then (.ok (), db)
  else refundWithRetry (fun i => refundSubscriptionPreConsume (attempts i) f.requestId) db

end SubscriptionFunding

/-- The two implementations of `FundingSource`. -/
inductive FundingSource where
  | wallet (w : WalletFunding)
  | subscription (f : SubscriptionFunding)
deriving DecidableEq, Repr

namespace FundingSource

def source : FundingSource → BillingSource
  | .wallet _ => .wallet
  | .subscription _ => .subscription

def preConsume (env : BillingEnv) (r : FundingReply) (amount : Int) (st : Stores) :
    FundingSource → Except BillingError Unit × FundingSource × Stores
  | .wallet w =>
    let (res, w', c) := w.preConsume env.quota r.quota st.wallet amount
    (res, .wallet w', { st with wallet := c })
  | .subscription f =>
    let (res, f', db) := f.preConsume env.subscription r st.subs
    (res.mapError .subscription, .subscription f', { st with subs := db })

def settle (env : BillingEnv) (r : FundingReply) (delta : Int) (st : Stores) :
    FundingSource → Except BillingError Unit × Stores
  | .wallet _ =>
    let (res, c) := WalletFunding.settle env.quota r.quota st.wallet delta
    (res.mapError .quota, { st with wallet := c })
  | .subscription f =>
    let (res, db) := f.settle r.tx st.subs delta
    (res.mapError .subscription, { st with subs := db })

/-- `Refund()`; an error is only logged by its caller. -/
def refund (env : BillingEnv) (r : QuotaReply) (attempts : Nat → RefundFaults) (st : Stores) :
    FundingSource → Stores
  | .wallet w => { st with wallet := (w.refund env.quota r st.wallet).2 }
  | .subscription f => { st with subs := (f.refund attempts st.subs).2 }

end FundingSource

/-! ### `billing_session.go` -/

structure BillingSession where
  relayInfo : RelayInfo
  funding : FundingSource
  preConsumedQuota : Int
  tokenConsumed : Int
  extraReserved : Int
  trusted : Bool
  fundingSettled : Bool
  settled : Bool
  refunded : Bool
deriving DecidableEq, Repr

/-- `PreConsumeTokenQuota`: the playground has no token to charge. -/
def preConsumeTokenQuota (cfg : QuotaConfig) (r : QuotaReply) (info : RelayInfo)
    (c : QuotaColumn) (quota : Int) : Except BillingError Unit × QuotaColumn :=
  if quota < 0 then (.error (.quota .quotaNegative), c)
  else if info.isPlayground then (.ok (), c)
  else
    match tryReserveTokenQuota cfg r c quota info.tokenUnlimited with
    | (.error e, c') => (.error (.quota e), c')
    | (.ok false, c') => (.error (.tokenQuotaNotEnough quota), c')
    | (.ok true, c') => (.ok (), c')

namespace BillingSession

/-- A session as `tryWallet` and `trySubscription` build it, before `preConsume`. -/
def fresh (info : RelayInfo) (funding : FundingSource) : BillingSession where
  relayInfo := info
  funding := funding
  preConsumedQuota := 0
  tokenConsumed := 0
  extraReserved := 0
  trusted := false
  fundingSettled := false
  settled := false
  refunded := false

/-- The session of `tryWallet`. -/
def ofWallet (info : RelayInfo) : BillingSession :=
  fresh info (.wallet { userId := info.userId, consumed := 0 })

/-- `subConsume`: a subscription is never asked for less than one unit. -/
def subConsume (quota : Int) : Int := if quota ≤ 0 then 1 else quota

/-- The funding source of `trySubscription`. -/
def subscriptionFunding (info : RelayInfo) (quota : Int) : SubscriptionFunding where
  requestId := info.requestId
  userId := info.userId
  amount := subConsume quota
  subscriptionId := 0
  preConsumed := 0
  amountTotal := 0
  amountUsedAfter := 0

/-- The session of `trySubscription`. -/
def ofSubscription (info : RelayInfo) (quota : Int) : BillingSession :=
  fresh info (.subscription (subscriptionFunding info quota))

def syncRelayInfo (s : BillingSession) : BillingSession :=
  let info := { s.relayInfo with
    finalPreConsumedQuota := s.preConsumedQuota
    billingSource := some s.funding.source }
  match s.funding with
  | .subscription f =>
    { s with relayInfo := { info with
        subscriptionId := f.subscriptionId
        subscriptionPreConsumed := f.preConsumed + s.extraReserved
        subscriptionPostDelta := 0
        subscriptionAmountTotal := f.amountTotal
        subscriptionAmountUsedAfterPreConsume := f.amountUsedAfter + s.extraReserved } }
  | .wallet _ =>
    { s with relayInfo := { info with
        subscriptionId := 0
        subscriptionPreConsumed := 0 } }

/-- `shouldTrust`; `tokenQuota` is the context's `token_quota`. -/
def shouldTrust (env : BillingEnv) (tokenQuota : Int) (s : BillingSession) : Bool :=
  if s.relayInfo.forcePreConsume then false
  else
    match env.trustQuota with
    | none => false
    | some trustQuota =>
      if trustQuota ≤ 0 then false
      else if !(s.relayInfo.tokenUnlimited || decide (trustQuota < tokenQuota)) then false
      else
        match s.funding.source with
        | .wallet => decide (trustQuota < s.relayInfo.userQuota)
        | .subscription => false

/-- Replies to the calls of `preConsume`: token, funding source, token rollback. -/
structure PreConsumeReplies where
  tokenQuota : Int
  token : QuotaReply
  funding : FundingReply
  rollback : QuotaReply
deriving DecidableEq, Repr

/-- How `preConsume` reports a funding error to its caller. -/
def fundingAPIError (e : BillingError) : NewAPIError :=
  match e with
  | .insufficientWalletQuota => ⟨e, .insufficientUserQuota, 403⟩
  | .subscription .noActiveSubscription => ⟨e, .insufficientUserQuota, 403⟩
  | .subscription (.quotaInsufficient _) => ⟨e, .insufficientUserQuota, 403⟩
  | _ => ⟨e, .updateDataError, 500⟩

/-- The second half of `preConsume`: the funding source, after the token. -/
def preConsumeFunding (env : BillingEnv) (r : PreConsumeReplies) (effectiveQuota : Int)
    (s : BillingSession) (st : Stores) :
    Except NewAPIError Unit × BillingSession × Stores :=
  match s.funding.preConsume env r.funding effectiveQuota st with
  | (.error e, funding, st') =>
    let s : BillingSession := { s with funding := funding }
    if 0 < s.tokenConsumed ∧ s.relayInfo.isPlayground = false then
      let (_, token) := increaseTokenQuota env.quota r.rollback st'.token s.tokenConsumed
      (.error (fundingAPIError e), { s with tokenConsumed := 0 }, { st' with token := token })
    else (.error (fundingAPIError e), s, st')
  | (.ok (), funding, st') =>
    (.ok (), { s with funding := funding, preConsumedQuota := effectiveQuota }.syncRelayInfo,
      st')

/-- `preConsume`: trust bypass, then the token, then the funding source. -/
def preConsume (env : BillingEnv) (r : PreConsumeReplies) (quota : Int)
    (s : BillingSession) (st : Stores) :
    Except NewAPIError Unit × BillingSession × Stores :=
  let trust := s.shouldTrust env r.tokenQuota
  let s := if trust then { s with trusted := true } else s
  let effectiveQuota := if trust then 0 else quota
  if 0 < effectiveQuota then
    match preConsumeTokenQuota env.quota r.token s.relayInfo st.token effectiveQuota with
    | (.error e, token) =>
      (.error ⟨e, .preConsumeTokenQuotaFailed, 403⟩, s, { st with token := token })
    | (.ok (), token) =>
      preConsumeFunding env r effectiveQuota { s with tokenConsumed := effectiveQuota }
        { st with token := token }
  else preConsumeFunding env r effectiveQuota s st

structure SettleReplies where
  funding : FundingReply
  token : QuotaReply
deriving DecidableEq, Repr

/-- The token half of a settlement; the playground has none. -/
def settleToken (cfg : QuotaConfig) (r : QuotaReply) (info : RelayInfo) (delta : Int)
    (c : QuotaColumn) : Except QuotaError Unit × QuotaColumn :=
  if info.isPlayground then (.ok (), c)
  else if 0 < delta then decreaseTokenQuota cfg r c delta
  else increaseTokenQuota cfg r c (-delta)

/-- `Settle` after the funding source has been committed. -/
def settleRest (env : BillingEnv) (r : SettleReplies) (delta : Int) (s : BillingSession)
    (st : Stores) : Except BillingError Unit × BillingSession × Stores :=
  let (res, token) := settleToken env.quota r.token s.relayInfo delta st.token
  let info :=
    if s.funding.source = .subscription then
      { s.relayInfo with subscriptionPostDelta := s.relayInfo.subscriptionPostDelta + delta }
    else s.relayInfo
  (res.mapError .quota, { s with relayInfo := info, settled := true },
    { st with token := token })

def settle (env : BillingEnv) (r : SettleReplies) (actualQuota : Int) (s : BillingSession)
    (st : Stores) : Except BillingError Unit × BillingSession × Stores :=
  if s.settled then (.ok (), s, st)
  else
    let delta := actualQuota - s.preConsumedQuota
    if delta = 0 then (.ok (), { s with settled := true }, st)
    else if s.fundingSettled then settleRest env r delta s st
    else
      match s.funding.settle env r.funding delta st with
      | (.error e, st') => (.error e, s, st')
      | (.ok (), st') => settleRest env r delta { s with fundingSettled := true } st'

def needsRefundLocked (s : BillingSession) : Bool :=
  if s.settled || s.refunded || s.fundingSettled then false
  else if 0 < s.tokenConsumed then true
  else
    match s.funding with
    | .subscription f => decide (0 < f.preConsumed)
    | .wallet _ => false

structure RefundReplies where
  funding : QuotaReply
  attempts : Nat → RefundFaults
  extra : TxReply
  token : QuotaReply

/-- The body `Refund` hands to its goroutine. -/
def refundFunds (env : BillingEnv) (r : RefundReplies) (s : BillingSession) (st : Stores) :
    Stores :=
  let st := s.funding.refund env r.funding r.attempts st
  let st :=
    if 0 < s.extraReserved ∧ s.funding.source = .subscription ∧ s.relayInfo.subscriptionId ≠ 0
    then
      { st with subs := (postConsumeUserSubscriptionDelta r.extra st.subs
          s.relayInfo.subscriptionId (-s.extraReserved)).2 }
    else st
  if 0 < s.tokenConsumed ∧ s.relayInfo.isPlayground = false then
    { st with token := (increaseTokenQuota env.quota r.token st.token s.tokenConsumed).2 }
  else st

def refund (env : BillingEnv) (r : RefundReplies) (s : BillingSession) (st : Stores) :
    BillingSession × Stores :=
  if s.settled || s.refunded || !s.needsRefundLocked then (s, st)
  else ({ s with refunded := true }, refundFunds env r s st)

/-- Replies to the calls of `Reserve`: funding source, token, funding rollback. -/
structure ReserveReplies where
  funding : FundingReply
  token : QuotaReply
  rollback : FundingReply
deriving DecidableEq, Repr

/-- What `Reserve` takes for an image request. -/
def imageRequest (s : BillingSession) : Bool :=
  s.relayInfo.isImageRequest || decide (0 < s.relayInfo.imageRequestCount)

def reserveFunding (env : BillingEnv) (r : FundingReply) (delta : Int)
    (requireAvailableQuota : Bool) (s : BillingSession) (st : Stores) :
    Except NewAPIError Unit × BillingSession × Stores :=
  match s.funding with
  | .wallet w =>
    if requireAvailableQuota then
      match w.preConsume env.quota r.quota st.wallet delta with
      | (.error .insufficientWalletQuota, w', c) =>
        (.error ⟨.insufficientWalletQuota, .insufficientUserQuota, 403⟩,
          { s with funding := .wallet w' }, { st with wallet := c })
      | (.error e, w', c) =>
        (.error ⟨e, .updateDataError, 500⟩, { s with funding := .wallet w' },
          { st with wallet := c })
      | (.ok (), w', c) => (.ok (), { s with funding := .wallet w' }, { st with wallet := c })
    else
      match decreaseUserQuota env.quota r.quota st.wallet delta with
      | (.error e, c) => (.error ⟨.quota e, .updateDataError, 500⟩, s, { st with wallet := c })
      | (.ok (), c) =>
        (.ok (), { s with funding := .wallet { w with consumed := w.consumed + delta } },
          { st with wallet := c })
  | .subscription f =>
    match postConsumeUserSubscriptionDelta r.tx st.subs f.subscriptionId delta with
    | (.error e, db) =>
      (.error ⟨.subscription e, .insufficientUserQuota, 403⟩, s, { st with subs := db })
    | (.ok (), db) => (.ok (), s, { st with subs := db })

/-- `rollbackFundingReserve`; a failure is only logged. -/
def rollbackFundingReserve (env : BillingEnv) (r : FundingReply) (delta : Int)
    (s : BillingSession) (st : Stores) : BillingSession × Stores :=
  match s.funding with
  | .wallet w =>
    match increaseUserQuota env.quota r.quota st.wallet delta with
    | (.error _, c) => (s, { st with wallet := c })
    | (.ok (), c) =>
      ({ s with funding := .wallet { w with consumed := w.consumed - delta } },
        { st with wallet := c })
  | .subscription f =>
    (s, { st with
      subs := (postConsumeUserSubscriptionDelta r.tx st.subs f.subscriptionId (-delta)).2 })

def reserveToken (env : BillingEnv) (r : QuotaReply) (delta : Int) (s : BillingSession)
    (st : Stores) : Except NewAPIError Unit × Stores :=
  if delta ≤ 0 ∨ s.relayInfo.isPlayground then (.ok (), st)
  else
    match preConsumeTokenQuota env.quota r s.relayInfo st.token delta with
    | (.error e, token) =>
      (.error ⟨e, .preConsumeTokenQuotaFailed, 403⟩, { st with token := token })
    | (.ok (), token) => (.ok (), { st with token := token })

/-- The guard of `Reserve`: the call returns at once, with no error. -/
def reserveSkips (s : BillingSession) (targetQuota : Int) : Bool :=
  s.settled || s.refunded || (s.trusted && !s.imageRequest) ||
    decide (targetQuota ≤ s.preConsumedQuota)

def reserve (env : BillingEnv) (r : ReserveReplies) (targetQuota : Int) (s : BillingSession)
    (st : Stores) : Except NewAPIError Unit × BillingSession × Stores :=
  if s.reserveSkips targetQuota then (.ok (), s, st)
  else
    let delta := targetQuota - s.preConsumedQuota
    match reserveFunding env r.funding delta s.imageRequest s st with
    | (.error e, s', st') => (.error e, s', st')
    | (.ok (), s', st') =>
      match reserveToken env r.token delta s' st' with
      | (.error e, st'') =>
        let (s'', st''') := rollbackFundingReserve env r.rollback delta s' st''
        (.error e, s'', st''')
      | (.ok (), st'') =>
        (.ok (), { s' with
          preConsumedQuota := s'.preConsumedQuota + delta
          tokenConsumed := s'.tokenConsumed + delta
          extraReserved := s'.extraReserved + delta
          trusted := s'.trusted && !s'.imageRequest }.syncRelayInfo, st'')

/-! ### A session from its opening on -/

/-- The session as `tryWallet` or `trySubscription` makes it, and what it asks for. -/
def opening (source : BillingSource) (info : RelayInfo) (quota : Int) : BillingSession × Int :=
  match source with
  | .wallet => (ofWallet info, quota)
  | .subscription => (ofSubscription info quota, subConsume quota)

/-- The session through its `preConsume`. -/
def newSession (source : BillingSource) (env : BillingEnv) (r : PreConsumeReplies)
    (info : RelayInfo) (quota : Int) (st : Stores) :
    Except NewAPIError Unit × BillingSession × Stores :=
  (opening source info quota).1.preConsume env r (opening source info quota).2 st

/--
A call of `Reserve`.  The relay raises `ImageRequestCount` between calls, on the
`RelayInfo` the session points to, so each call comes with the count it finds there.
-/
structure ReserveCall where
  imageRequestCount : Int
  targetQuota : Int
  replies : ReserveReplies
deriving DecidableEq, Repr

/-- The session as a call finds it. -/
def withImageRequestCount (s : BillingSession) (count : Int) : BillingSession :=
  { s with relayInfo := { s.relayInfo with imageRequestCount := count } }

def reserveCall (env : BillingEnv) (call : ReserveCall) (s : BillingSession) (st : Stores) :
    Except NewAPIError Unit × BillingSession × Stores :=
  (s.withImageRequestCount call.imageRequestCount).reserve env call.replies call.targetQuota st

inductive Call where
  | reserve (call : ReserveCall)
  | settle (r : SettleReplies) (actualQuota : Int)
  | refund (r : RefundReplies)

/-- What a call leaves, whether or not it returned an error. -/
def Call.apply (env : BillingEnv) (p : BillingSession × Stores) : Call → BillingSession × Stores
  | .reserve call => (reserveCall env call p.1 p.2).2
  | .settle r actualQuota => (p.1.settle env r actualQuota p.2).2
  | .refund r => p.1.refund env r p.2

end BillingSession

end JulongApi

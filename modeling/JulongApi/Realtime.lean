/-
A realtime session: metering the events, charging each turn, settling at the end.

This file embeds `OpenaiRealtimeHandler` and `preConsumeUsage` of
`relay/channel/openai/relay_realtime.go`, `CountTokenRealtime` of
`service/token_counter.go`, `PreWssConsumeQuota`, `PostWssConsumeQuota` and
`PostConsumeQuota` of `service/quota.go`, and `SettleBilling` of `service/billing.go`.

The two readers of the source take messages off their sockets independently; an event
is handled as a whole here, so a list of events is one order in which they were handled.
An event that stops its reader ends the session, and so does the end of the list: the
handler cares no further why it was left.  Token counters are given, and so is what the
stores and the ratio settings answer each time they are asked.

Left out are the log lines, the used-quota counters (which are handed the same quota as
the consume log) and the mails of the notifications.
-/
import JulongApi.Pricing
import JulongApi.BillingSession

namespace JulongApi

/-! ### Usage -/

/-- `dto.InputTokenDetails`, as far as a realtime session fills it. -/
structure InputTokenDetails where
  cachedTokens : Int
  textTokens : Int
  audioTokens : Int
deriving DecidableEq, Repr

structure OutputTokenDetails where
  textTokens : Int
  audioTokens : Int
deriving DecidableEq, Repr

structure RealtimeUsage where
  totalTokens : Int
  inputTokens : Int
  outputTokens : Int
  inputTokenDetails : InputTokenDetails
  outputTokenDetails : OutputTokenDetails
deriving DecidableEq, Repr

namespace RealtimeUsage

/-- `&dto.RealtimeUsage{}`. -/
def zero : RealtimeUsage := ⟨0, 0, 0, ⟨0, 0, 0⟩, ⟨0, 0⟩⟩

/-- The field-by-field `+=` of the source. -/
def add (u v : RealtimeUsage) : RealtimeUsage where
  totalTokens := u.totalTokens + v.totalTokens
  inputTokens := u.inputTokens + v.inputTokens
  outputTokens := u.outputTokens + v.outputTokens
  inputTokenDetails :=
    { cachedTokens := u.inputTokenDetails.cachedTokens + v.inputTokenDetails.cachedTokens
      textTokens := u.inputTokenDetails.textTokens + v.inputTokenDetails.textTokens
      audioTokens := u.inputTokenDetails.audioTokens + v.inputTokenDetails.audioTokens }
  outputTokenDetails :=
    { textTokens := u.outputTokenDetails.textTokens + v.outputTokenDetails.textTokens
      audioTokens := u.outputTokenDetails.audioTokens + v.outputTokenDetails.audioTokens }

def addInput (u : RealtimeUsage) (textToken audioToken : Int) : RealtimeUsage :=
  { u with
    totalTokens := u.totalTokens + (textToken + audioToken)
    inputTokens := u.inputTokens + (textToken + audioToken)
    inputTokenDetails := { u.inputTokenDetails with
      textTokens := u.inputTokenDetails.textTokens + textToken
      audioTokens := u.inputTokenDetails.audioTokens + audioToken } }

def addOutput (u : RealtimeUsage) (textToken audioToken : Int) : RealtimeUsage :=
  { u with
    totalTokens := u.totalTokens + (textToken + audioToken)
    outputTokens := u.outputTokens + (textToken + audioToken)
    outputTokenDetails :=
      { textTokens := u.outputTokenDetails.textTokens + textToken
        audioTokens := u.outputTokenDetails.audioTokens + audioToken } }

end RealtimeUsage

/-! ### Events, and what they count for -/

/-- `dto.RealtimeSession`; a tool is its `%v` rendering, which is all that is counted. -/
structure RealtimeSession where
  instructions : String
  inputAudioFormat : String
  outputAudioFormat : String
  tools : Option (List String)
deriving DecidableEq, Repr

/-- `dto.RealtimeItem`: its type, and the type and text of each content. -/
structure RealtimeItem where
  type : String
  content : List (String × String)
deriving DecidableEq, Repr

/-- `dto.RealtimeEvent`, one constructor for each type the code tells apart. -/
inductive RealtimeEvent where
  | sessionUpdate (session : Option RealtimeSession)
  | inputAudioBufferAppend (audio : String)
  | conversationItemCreated (item : Option RealtimeItem)
  | responseAudioDelta (delta : String)
  /-- `response.audio_transcript.delta` and `response.function_call_arguments.delta` -/
  | responseTextDelta (delta : String)
  /-- the outer option is the `Response` pointer, the inner one its `Usage` -/
  | responseDone (response : Option (Option RealtimeUsage))
  /-- `session.updated` and `session.created` -/
  | sessionUpdated (session : Option RealtimeSession)
  | other
deriving DecidableEq, Repr

/-- `tokenkit.Count` for the upstream model, and the audio counters, which may fail. -/
structure TokenCounters where
  count : String → Int
  countAudioTokenInput : (audio format : String) → Option Int
  countAudioTokenOutput : (audio format : String) → Option Int

/-- The fields of `RelayInfo` that counting reads and events change. -/
structure RealtimeMeta where
  inputAudioFormat : String
  outputAudioFormat : String
  realtimeTools : List String
  isFirstRequest : Bool
deriving DecidableEq, Repr

/-- `GenRelayInfoWs`. -/
def RealtimeMeta.initial : RealtimeMeta where
  inputAudioFormat := "pcm16"
  outputAudioFormat := "pcm16"
  realtimeTools := []
  isFirstRequest := true

/-- What a client's event leaves on `RelayInfo`: a `session.update` brings new tools. -/
def RealtimeMeta.afterClient (info : RealtimeMeta) : RealtimeEvent → RealtimeMeta
  | .sessionUpdate (some session) =>
    { info with realtimeTools := session.tools.getD info.realtimeTools }
  | _ => info

/-- `CountTokenRealtime`: text and audio tokens, or `none` for audio it cannot read. -/
def countTokenRealtime (counters : TokenCounters) (info : RealtimeMeta) :
    RealtimeEvent → Option (Int × Int)
  | .sessionUpdate none => some (0, 0)
  | .sessionUpdate (some session) => some (counters.count session.instructions, 0)
  | .responseAudioDelta delta =>
    (counters.countAudioTokenOutput delta info.outputAudioFormat).map fun atk => (0, atk)
  | .responseTextDelta delta => some (counters.count delta, 0)
  | .inputAudioBufferAppend audio =>
    (counters.countAudioTokenInput audio info.inputAudioFormat).map fun atk => (0, atk)
  | .conversationItemCreated none => some (0, 0)
  | .conversationItemCreated (some item) =>
    if item.type = "message" then
      some (((item.content.filter fun c => c.1 = "input_text").map
        fun c => counters.count c.2).sum, 0)
    else some (0, 0)
  | .responseDone _ =>
    if info.isFirstRequest then some (0, 0)
    else some ((info.realtimeTools.map fun tool => 8 + counters.count tool).sum, 0)
  | .sessionUpdated _ => some (0, 0)
  | .other => some (0, 0)

/-! ### `PostConsumeQuota` -/

inductive RealtimeError where
  /-- `GetUserQuota` or `GetTokenByKey` failed -/
  | lookup
  /-- `ErrInvalidUserGroupRatioAdjustment` -/
  | invalidUserGroupRatioAdjustment
  /-- `user quota is not enough, user quota: %s, need quota: %s` -/
  | userQuotaNotEnough (userQuota need : Int)
  /-- `token quota is not enough, token remain quota: %s, need quota: %s` -/
  | tokenQuotaNotEnough (remainQuota need : Int)
  /-- `subscription id is missing` -/
  | subscriptionIdMissing
  | billing (e : BillingError)
deriving DecidableEq, Repr

/-- Replies to the two writes of `PostConsumeQuota`. -/
structure PostConsumeReplies where
  funding : FundingReply
  token : QuotaReply
deriving DecidableEq, Repr

/-- The first half of `postConsumeQuotaWithResult`: wallet or subscription. -/
def postConsumeFunding (env : BillingEnv) (r : FundingReply) (quota : Int) (info : RelayInfo)
    (st : Stores) : Except RealtimeError Unit × RelayInfo × Stores :=
  if info.billingSource = some .subscription then
    if info.subscriptionId = 0 then (.error .subscriptionIdMissing, info, st)
    else if quota = 0 then (.ok (), info, st)
    else
      match postConsumeUserSubscriptionDelta r.tx st.subs info.subscriptionId quota with
      | (.error e, db) => (.error (.billing (.subscription e)), info, { st with subs := db })
      | (.ok (), db) =>
        (.ok (), { info with subscriptionPostDelta := info.subscriptionPostDelta + quota },
          { st with subs := db })
  else
    match (if 0 < quota then decreaseUserQuota env.quota r.quota st.wallet quota
      else increaseUserQuota env.quota r.quota st.wallet (-quota)) with
    | (.error e, c) => (.error (.billing (.quota e)), info, { st with wallet := c })
    | (.ok (), c) => (.ok (), info, { st with wallet := c })

/-- `PostConsumeQuota`; its token half is the one `Settle` has. -/
def postConsumeQuota (env : BillingEnv) (r : PostConsumeReplies) (quota : Int)
    (info : RelayInfo) (st : Stores) : Except RealtimeError Unit × RelayInfo × Stores :=
  match postConsumeFunding env r.funding quota info st with
  | (.error e, info', st') => (.error e, info', st')
  | (.ok (), info', st') =>
    match BillingSession.settleToken env.quota r.token info' quota st'.token with
    | (.error e, c) => (.error (.billing (.quota e)), info', { st' with token := c })
    | (.ok (), c) => (.ok (), info', { st' with token := c })

/-! ### The request's billing -/

/--
`relayInfo`, and the session it points to if there is one.  The session points back, so
the one `RelayInfo` they share is kept inside it.
-/
inductive RelayBilling where
  | session (s : BillingSession)
  | noSession (info : RelayInfo)
deriving DecidableEq, Repr

namespace RelayBilling

def info : RelayBilling → RelayInfo
  | .session s => s.relayInfo
  | .noSession info => info

def setInfo (info : RelayInfo) : RelayBilling → RelayBilling
  | .session s => .session { s with relayInfo := info }
  | .noSession _ => .noSession info

end RelayBilling

def settleBilling (env : BillingEnv) (r : BillingSession.SettleReplies) (actualQuota : Int)
    (b : RelayBilling) (st : Stores) : Except RealtimeError Unit × RelayBilling × Stores :=
  match b with
  | .session s =>
    let (res, s', st') := s.settle env r actualQuota st
    (res.mapError .billing, .session s', st')
  | .noSession info =>
    if actualQuota - info.finalPreConsumedQuota = 0 then (.ok (), .noSession info, st)
    else
      let (res, info', st') := postConsumeQuota env ⟨r.funding, r.token⟩
        (actualQuota - info.finalPreConsumedQuota) info st
      (res, .noSession info', st')

/-! ### Charging a turn -/

/-- `PriceData`, as far as `PostWssConsumeQuota` reads it. -/
structure PriceData where
  usePrice : Bool
  modelPrice : ℚ
  modelRatio : ℚ
  groupRatio : ℚ
  modelTokenAdjustment : ModelTokenAdjustment

/-- What pricing reads off `RelayInfo` and the request's context. -/
structure PriceInfo where
  usePrice : Bool
  originModelName : String
  upstreamModelName : String
  usingGroup : String
  userGroup : String
  /-- the context's `auto_group` -/
  autoGroup : Option String
  userGroupRatioAdjustmentEnabled : Bool
  userGroupRatioAdjustment : ℚ
  priceData : PriceData
  /-- `TryTieredSettle`; `none` unless the request has a `tiered_expr` snapshot -/
  tieredSettle : Option (RealtimeUsage → Int)
  quotaClamp : Option QuotaClamp

/-- `noteQuotaClamp`: the first one stays. -/
def PriceInfo.noteQuotaClamp (p : PriceInfo) (clamp : Option QuotaClamp) : PriceInfo :=
  match p.quotaClamp with
  | some _ => p
  | none => { p with quotaClamp := clamp }

/-- The part of a `GetTokenByKey` result that a turn looks at. -/
structure TokenQuota where
  unlimitedQuota : Bool
  remainQuota : Int
deriving DecidableEq, Repr

structure PreWssReplies where
  ratios : RatioSetting
  userQuota : Option Int
  token : Option TokenQuota
  post : PostConsumeReplies

namespace PriceInfo

def turnGroup (p : PriceInfo) : String := p.autoGroup.getD p.usingGroup

/-- `actualGroupRatio` of a turn, before the user's own adjustment. -/
def turnBaseRatio (p : PriceInfo) (ratios : RatioSetting) : ℚ :=
  (ratios.getGroupGroupRatio p.userGroup p.turnGroup).getD (ratios.getGroupRatio p.turnGroup)

/-- `actualGroupRatio` of a turn. -/
def turnGroupRatio (p : PriceInfo) (ratios : RatioSetting) : Option ℚ :=
  applyUserGroupRatioAdjustment (p.turnBaseRatio ratios) p.userGroupRatioAdjustmentEnabled
    p.userGroupRatioAdjustment

/-- The `QuotaInfo` of a turn: today's ratios of the model that was asked for. -/
def turnQuotaInfo (p : PriceInfo) (ratios : RatioSetting) (groupRatio : ℚ)
    (usage : RealtimeUsage) : QuotaInfo where
  inputDetails := ⟨usage.inputTokenDetails.textTokens, usage.inputTokenDetails.audioTokens⟩
  outputDetails := ⟨usage.outputTokenDetails.textTokens, usage.outputTokenDetails.audioTokens⟩
  modelName := p.originModelName
  usePrice := p.usePrice
  modelPrice := 0
  modelRatio := ratios.getModelRatio p.originModelName
  groupRatio := groupRatio
  modelTokenAdjustment := p.priceData.modelTokenAdjustment

/-- The `QuotaInfo` of the settlement: the frozen ratios of the model that answered. -/
def finalQuotaInfo (p : PriceInfo) (usage : RealtimeUsage) : QuotaInfo where
  inputDetails := ⟨usage.inputTokenDetails.textTokens, usage.inputTokenDetails.audioTokens⟩
  outputDetails := ⟨usage.outputTokenDetails.textTokens, usage.outputTokenDetails.audioTokens⟩
  modelName := p.upstreamModelName
  usePrice := p.priceData.usePrice
  modelPrice := p.priceData.modelPrice
  modelRatio := p.priceData.modelRatio
  groupRatio := p.priceData.groupRatio
  modelTokenAdjustment := p.priceData.modelTokenAdjustment

end PriceInfo

def preWssConsumeQuota (env : BillingEnv) (r : PreWssReplies) (usage : RealtimeUsage)
    (p : PriceInfo) (b : RelayBilling) (st : Stores) :
    Except RealtimeError Unit × PriceInfo × RelayBilling × Stores :=
  if p.usePrice then (.ok (), p, b, st)
  else
    match r.userQuota, r.token with
    | none, _ => (.error .lookup, p, b, st)
    | some _, none => (.error .lookup, p, b, st)
    | some userQuota, some token =>
      let p := { p with usingGroup := p.turnGroup }
      match p.turnGroupRatio r.ratios with
      | none => (.error .invalidUserGroupRatioAdjustment, p, b, st)
      | some groupRatio =>
        let (quota, clamp) :=
          calculateAudioQuota r.ratios (p.turnQuotaInfo r.ratios groupRatio usage)
        let p := p.noteQuotaClamp clamp
        if userQuota < quota then (.error (.userQuotaNotEnough userQuota quota), p, b, st)
        else if token.unlimitedQuota = false ∧ token.remainQuota < quota then
          (.error (.tokenQuotaNotEnough token.remainQuota quota), p, b, st)
        else
          let (res, info, st') := postConsumeQuota env r.post quota b.info st
          (res, p, b.setInfo info, st')

/-- Everything a session of `OpenaiRealtimeHandler` reads and changes. -/
structure RealtimeState where
  info : RealtimeMeta
  usage : RealtimeUsage
  localUsage : RealtimeUsage
  sumUsage : RealtimeUsage
  price : PriceInfo
  billing : RelayBilling
  stores : Stores

namespace RealtimeState

/-- `preConsumeUsage`: the turn goes into the sum first, and is then charged. -/
def preConsumeUsage (env : BillingEnv) (r : PreWssReplies) (usage : RealtimeUsage)
    (s : RealtimeState) : Except RealtimeError Unit × RealtimeState :=
  let (res, p, b, st) := preWssConsumeQuota env r usage s.price s.billing s.stores
  (res, { s with
    sumUsage := s.sumUsage.add usage, price := p, billing := b, stores := st })

/-! ### The handler -/

inductive Stop where
  /-- `error counting text token: %v` -/
  | countFailed
  /-- `response.done` without a response: `panic in target reader: %v` -/
  | panicked
  /-- `error consume usage: %v` -/
  | consumeFailed (e : RealtimeError)
deriving DecidableEq, Repr

/-- A message, from either side, with the replies for the charge it may bring. -/
inductive Message where
  | client (event : RealtimeEvent)
  | target (event : RealtimeEvent) (r : PreWssReplies)

/-- The client reader's part of the loop. -/
def onClient (counters : TokenCounters) (event : RealtimeEvent) (s : RealtimeState) :
    Option Stop × RealtimeState :=
  let s := { s with info := s.info.afterClient event }
  match countTokenRealtime counters s.info event with
  | none => (some .countFailed, s)
  | some (textToken, audioToken) =>
    (none, { s with localUsage := s.localUsage.addInput textToken audioToken })

def getStringIfEmpty (str defaultStr : String) : String := if str = "" then defaultStr else str

/-- The target reader's part of the loop. -/
def onTarget (env : BillingEnv) (counters : TokenCounters) (r : PreWssReplies)
    (event : RealtimeEvent) (s : RealtimeState) : Option Stop × RealtimeState :=
  match event with
  | .responseDone none => (some .panicked, s)
  | .responseDone (some (some realtimeUsage)) =>
    let s := { s with usage := s.usage.add realtimeUsage }
    match s.preConsumeUsage env r s.usage with
    | (.error e, s') => (some (.consumeFailed e), s')
    | (.ok (), s') => (none, { s' with usage := .zero, localUsage := .zero })
  | .responseDone (some none) =>
    match countTokenRealtime counters s.info event with
    | none => (some .countFailed, s)
    | some (textToken, audioToken) =>
      let s := { s with
        info := { s.info with isFirstRequest := false }
        localUsage := s.localUsage.addInput textToken audioToken }
      match s.preConsumeUsage env r s.localUsage with
      | (.error e, s') => (some (.consumeFailed e), s')
      | (.ok (), s') => (none, { s' with localUsage := .zero })
  | .sessionUpdated none => (none, s)
  | .sessionUpdated (some session) =>
    (none, { s with info := { s.info with
      inputAudioFormat := getStringIfEmpty session.inputAudioFormat s.info.inputAudioFormat
      outputAudioFormat :=
        getStringIfEmpty session.outputAudioFormat s.info.outputAudioFormat } })
  | event =>
    match countTokenRealtime counters s.info event with
    | none => (some .countFailed, s)
    | some (textToken, audioToken) =>
      (none, { s with localUsage := s.localUsage.addOutput textToken audioToken })

def handle (env : BillingEnv) (counters : TokenCounters) (s : RealtimeState) :
    Message → Option Stop × RealtimeState
  | .client event => s.onClient counters event
  | .target event r => s.onTarget env counters r event

/-- The messages one after another, until one of them stops its reader. -/
def handleAll (env : BillingEnv) (counters : TokenCounters) :
    List Message → RealtimeState → Option Stop × RealtimeState
  | [], s => (none, s)
  | m :: rest, s =>
    match s.handle env counters m with
    | (some stop, s') => (some stop, s')
    | (none, s') => handleAll env counters rest s'

/-- The end of the handler: a leftover of either kind is one more turn. -/
def chargeLeftover (env : BillingEnv) (r : PreWssReplies) (usage : RealtimeUsage)
    (s : RealtimeState) : Except RealtimeError Unit × RealtimeState :=
  if usage.totalTokens ≠ 0 then s.preConsumeUsage env r usage else (.ok (), s)

end RealtimeState

/-- Replies to the calls made after the last message. -/
structure EndReplies where
  usage : PreWssReplies
  localUsage : PreWssReplies
  /-- the ratio settings `PostWssConsumeQuota` finds -/
  ratios : RatioSetting
  settle : BillingSession.SettleReplies

/-- What a session leaves: the errors it met, the quota it recorded, the state it ends in. -/
structure RealtimeOutcome where
  stop : Option RealtimeState.Stop
  usageLeft : Except RealtimeError Unit
  localUsageLeft : Except RealtimeError Unit
  /-- `Quota` of the consume log -/
  quota : Int
  settled : Except RealtimeError Unit
  billing : RelayBilling
  stores : Stores

/-- The quota of `PostWssConsumeQuota`. -/
def finalQuota (ratios : RatioSetting) (p : PriceInfo) (usage : RealtimeUsage) : Int :=
  if usage.totalTokens = 0 then 0
  else
    match p.tieredSettle with
    | some tiered => tiered usage
    | none => (calculateAudioQuota ratios (p.finalQuotaInfo usage)).1

/-- `OpenaiRealtimeHandler`, then `PostWssConsumeQuota` on the summed usage. -/
def realtimeSession (env : BillingEnv) (counters : TokenCounters)
    (messages : List RealtimeState.Message) (r : EndReplies) (s : RealtimeState) :
    RealtimeOutcome :=
  let (stop, s₁) := s.handleAll env counters messages
  let (usageLeft, s₂) := s₁.chargeLeftover env r.usage s₁.usage
  let (localUsageLeft, s₃) := s₂.chargeLeftover env r.localUsage s₂.localUsage
  let quota := finalQuota r.ratios s₃.price s₃.sumUsage
  let (settled, b, st) := settleBilling env r.settle quota s₃.billing s₃.stores
  { stop := stop, usageLeft := usageLeft, localUsageLeft := localUsageLeft, quota := quota,
    settled := settled, billing := b, stores := st }

def RealtimeState.initial (p : PriceInfo) (b : RelayBilling) (st : Stores) : RealtimeState where
  info := .initial
  usage := .zero
  localUsage := .zero
  sumUsage := .zero
  price := p
  billing := b
  stores := st

end JulongApi

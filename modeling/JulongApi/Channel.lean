/-
Channels: `model/channel.go`, `model/channel_constraint.go`, and the settings the channel
filters read from `relaykit/dto/channel_settings.go`.

A channel keeps its decoded settings and other info; decoding, and the repair of settings that
do not decode, are left out.  Weights and priorities are what the columns hold.  The keys a
channel caches are those its `Key` column decodes to.
-/
import JulongApi.Lib.Table
import JulongApi.Strings

namespace JulongApi.Channels

/-! ### Statuses and kinds -/

def channelStatusEnabled : Int := 1

def channelStatusManuallyDisabled : Int := 2

def channelStatusAutoDisabled : Int := 3

def channelTypeOpenAI : Int := 1

def channelTypeCodex : Int := 57

def channelTypeAdvancedCustom : Int := 58

def channelTypeSub2API : Int := 59

def channelTypeNewAPI : Int := 60

def channelTypeTaskPlugin : Int := 61

def channelTypeVLLM : Int := 62

def channelTypeSGLang : Int := 63

def isAdvancedCustomChannel (channelType : Int) : Bool :=
  decide (channelType ∈ [channelTypeAdvancedCustom, channelTypeVLLM, channelTypeSGLang])

/-! ### Settings -/

structure VideoModelConfig where
  enabled : Option Bool
deriving DecidableEq, Repr

structure ChannelSettings where
  gatewayProvider : String
  /-- `VideoModelConfigs`, by model -/
  videoModelConfigs : List (String × VideoModelConfig)
  taskPluginKey : String
  taskExtendPluginKeys : List String
  responsesWebSocketEnabled : Bool
deriving DecidableEq, Repr

def ChannelSettings.bindsTaskPlugin (s : ChannelSettings) (key : String) : Bool :=
  decide (key ≠ "" ∧ (s.taskPluginKey = key ∨ key ∈ s.taskExtendPluginKeys))

structure AdvancedCustomRoute where
  incomingPath : String
  converter : String
  models : List String
deriving DecidableEq, Repr

def AdvancedCustomRoute.isNative (r : AdvancedCustomRoute) : Bool :=
  decide (trimSpace r.converter ∈ ["", "none"])

structure AdvancedCustomConfig where
  routes : List AdvancedCustomRoute
deriving DecidableEq, Repr

/-- `regexp.Compile`: nothing for an invalid pattern, and else what it matches. -/
abbrev Regexp := String → Option (String → Bool)

def matchAdvancedCustomRouteModelRule (regexp : Regexp) (rule model : String) : Bool :=
  match cutPrefix rule "re:" with
  | none => decide (rule = model)
  | some pattern =>
    if pattern = "" then false
    else
      match regexp pattern with
      | none => false
      | some re => re model

def normalizeAdvancedCustomRouteModels (models : List String) : List String :=
  (models.map trimSpace).filter (· ≠ "")

def matchAdvancedCustomRouteModel (regexp : Regexp) (models : List String) (model : String) : Bool :=
  let normalizedModels := normalizeAdvancedCustomRouteModels models
  normalizedModels.isEmpty ||
    normalizedModels.any fun rule => matchAdvancedCustomRouteModelRule regexp rule model

def matchAdvancedCustomIncomingPathTemplate (configuredPath requestPath : String) : Bool :=
  match cut configuredPath "\x7bmodel\x7d" with
  | none => decide (configuredPath = requestPath)
  | some (start, stop) =>
    if (cut stop "\x7bmodel\x7d").isSome then false
    else
      match cutPrefix requestPath start, cutSuffix requestPath stop with
      | some rest, some _ =>
        let model := (cutSuffix rest stop).getD rest
        decide (model ≠ "" ∧ '/' ∉ model.toList)
      | _, _ => false

def matchAdvancedCustomIncomingPath (configuredPath requestPath : String) : Bool :=
  matchAdvancedCustomIncomingPathTemplate configuredPath requestPath ||
    match cut configuredPath ":generateContent" with
    | none => false
    | some (start, stop) =>
      matchAdvancedCustomIncomingPathTemplate (start ++ ":streamGenerateContent" ++ stop)
        requestPath

def AdvancedCustomConfig.matchPathForModel (regexp : Regexp) (c : AdvancedCustomConfig)
    (requestPath model : String) : Option AdvancedCustomRoute :=
  c.routes.find? fun route =>
    matchAdvancedCustomIncomingPath (trimSpace route.incomingPath) requestPath &&
      matchAdvancedCustomRouteModel regexp route.models (trimSpace model)

def getAdvancedCustomPreset (channelType : Int) : Option AdvancedCustomConfig :=
  if channelType ≠ channelTypeVLLM ∧ channelType ≠ channelTypeSGLang then none
  else
    let routes := ["/v1/chat/completions", "/v1/completions", "/v1/responses", "/v1/embeddings",
      "/v1/messages", "/v1/models"].map fun path => AdvancedCustomRoute.mk path "none" []
    let reranks := ["/v1/rerank", "/rerank"].map fun path =>
      AdvancedCustomRoute.mk path "jina_rerank_to_sglang" []
    some ⟨if channelType = channelTypeSGLang then routes ++ reranks else routes⟩

/-! ### Channels -/

inductive MultiKeyMode where
  | random
  | polling
  | other (text : String)
deriving DecidableEq, Repr

/-- The maps of a channel's keys, by index. -/
abbrev KeyMap (α : Type) := List (Int × α)

def KeyMap.get {α : Type} (m : KeyMap α) (i : Int) : Option α := m.lookup i

def KeyMap.delete {α : Type} (m : KeyMap α) (i : Int) : KeyMap α := m.filter fun entry => entry.1 ≠ i

def KeyMap.set {α : Type} (m : KeyMap α) (i : Int) (a : α) : KeyMap α := (i, a) :: m.delete i

structure ChannelInfo where
  isMultiKey : Bool
  multiKeySize : Int
  multiKeyStatusList : KeyMap Int
  multiKeyDisabledReason : KeyMap String
  multiKeyDisabledTime : KeyMap Int
  multiKeyPollingIndex : Int
  multiKeyMode : MultiKeyMode
deriving DecidableEq, Repr

/-- What the status flow keeps in `OtherInfo`. -/
structure OtherInfo where
  statusReason : Option String
  statusTime : Option Int
deriving DecidableEq, Repr

structure ChannelOtherSettings where
  advancedCustom : Option AdvancedCustomConfig
deriving DecidableEq, Repr

structure Channel where
  id : Int
  type : Int
  key : String
  status : Int
  weight : Option Nat
  models : String
  group : String
  priority : Option Int
  tag : Option String
  otherInfo : Option OtherInfo
  setting : Option ChannelSettings
  otherSettings : Option ChannelOtherSettings
  channelInfo : ChannelInfo
deriving DecidableEq, Repr

def Channel.getPriority (channel : Channel) : Int := channel.priority.getD 0

def Channel.getWeight (channel : Channel) : Nat := channel.weight.getD 0

def Channel.getModels (channel : Channel) : List String :=
  if channel.models = "" then [] else split (trimChar channel.models ',') ','

def Channel.getSetting (channel : Channel) : ChannelSettings :=
  channel.setting.getD ⟨"", [], "", [], false⟩

/-- `GetOtherSettings().AdvancedCustom`. -/
def Channel.getAdvancedCustom (channel : Channel) : Option AdvancedCustomConfig :=
  match getAdvancedCustomPreset channel.type with
  | some preset => some preset
  | none => channel.otherSettings.bind (·.advancedCustom)

def Channel.getOtherInfo (channel : Channel) : OtherInfo := channel.otherInfo.getD ⟨none, none⟩

/-- `json.Unmarshal` into a list of raw values: nothing when the text is no array. -/
abbrev RawArray := String → Option (List String)

def Channel.getKeys (rawArray : RawArray) (channel : Channel) : List String :=
  if channel.key = "" then []
  else
    let lines := split (trimChar channel.key '\n') '\n'
    let trimmed := trimSpace channel.key
    if (cutPrefix trimmed "[").isSome then (rawArray trimmed).getD lines else lines

abbrev ChannelTable := Table (fun channel : Channel => channel.id)

/-! ### Filters -/

inductive ChannelFilterKind where
  | requestPath
  | taskPluginIdentity
  | responsesWebSocket
  | other (text : String)
deriving DecidableEq, Repr

structure ChannelFilter where
  kind : ChannelFilterKind
  requestPath : String
  taskPluginKey : String
  taskPluginKeys : List String
  taskPluginChannelTypes : List Int
deriving DecidableEq, Repr

def suanliGatewayProvider : String := "suanliai"

def suanliVideoPluginKey : String := "suanliai-video"

/-- The part of `channelMatchesFilter` about a task plugin. -/
def channelMatchesTaskPlugin (ch : Channel) (modelName : String) (filter : ChannelFilter) : Bool :=
  if filter.taskPluginKey = "" then decide (ch.type ≠ channelTypeTaskPlugin)
  else if ch.type = channelTypeTaskPlugin ∨ ch.type = channelTypeNewAPI then
    let bound := ch.getSetting.bindsTaskPlugin filter.taskPluginKey ||
      filter.taskPluginKeys.any ch.getSetting.bindsTaskPlugin
    if filter.taskPluginKey = suanliVideoPluginKey then
      if ch.getSetting.gatewayProvider ≠ suanliGatewayProvider then false
      else
        match ch.getSetting.videoModelConfigs.lookup modelName with
        | some { enabled := some false } => false
        | _ => bound
    else bound
  else decide (ch.type ∈ filter.taskPluginChannelTypes)

def channelMatchesFilter (regexp : Regexp) (ch : Channel) (modelName : String)
    (filter : ChannelFilter) : Bool :=
  match filter.kind with
  | .requestPath =>
    if filter.requestPath = "" ∨ isAdvancedCustomChannel ch.type = false then true
    else
      match ch.getAdvancedCustom with
      | none => false
      | some config => (config.matchPathForModel regexp filter.requestPath modelName).isSome
  | .taskPluginIdentity => channelMatchesTaskPlugin ch modelName filter
  | .responsesWebSocket =>
    if ch.getSetting.responsesWebSocketEnabled = false then false
    else if ch.type ∈ [channelTypeOpenAI, channelTypeCodex, channelTypeSub2API,
        channelTypeNewAPI] then true
    else if ch.type = channelTypeAdvancedCustom then
      match ch.getAdvancedCustom with
      | none => false
      | some config =>
        match config.matchPathForModel regexp "/v1/responses" modelName with
        | none => false
        | some route => route.isNative
    else false
  | .other _ => true

def filterEvalOrder : List ChannelFilterKind :=
  [.requestPath, .taskPluginIdentity, .responsesWebSocket]

/-- The kind of the first filter that is violated, in the order of evaluation. -/
def channelSatisfiesFilters (regexp : Regexp) (ch : Channel) (modelName : String)
    (filters : List ChannelFilter) : Option ChannelFilterKind :=
  filterEvalOrder.find? fun kind =>
    filters.any fun filter =>
      decide (filter.kind = kind) && !channelMatchesFilter regexp ch modelName filter

end JulongApi.Channels

/-
Status updates of a channel and of its keys: `UpdateChannelStatus` of `model/channel.go`.

The cached channel and the stored row are updated one after the other, each by
`handlerMultiKeyUpdate` on its own copy.  No call to the database fails.
-/
import JulongApi.ChannelCache

namespace JulongApi.Channels

def channelStatusReasonAllKeysDisabled : String := "All keys are disabled"

/-! ### Keys -/

/-- The status of a key; a key that is not in the list is enabled. -/
def ChannelInfo.keyStatus (info : ChannelInfo) (index : Int) : Int :=
  (info.multiKeyStatusList.get index).getD channelStatusEnabled

/-- `hasEnabledMultiKey`, of as many keys. -/
def hasEnabledMultiKey (keys : List String) (info : ChannelInfo) : Bool :=
  (List.range keys.length).any fun i => info.keyStatus i = channelStatusEnabled

/-- The status, with its reason and its time in the other info. -/
def Channel.setStatus (channel : Channel) (status : Int) (reason : String) (now : Int) : Channel :=
  { channel with
    status := status
    otherInfo := some ⟨some reason, some now⟩ }

/-- The status of one key; the reason and the time of a disabled key are kept. -/
def ChannelInfo.setKeyStatus (info : ChannelInfo) (keyIndex status : Int) (reason : String)
    (now : Int) : ChannelInfo :=
  if status = channelStatusEnabled then
    { info with multiKeyStatusList := info.multiKeyStatusList.delete keyIndex }
  else
    { info with
      multiKeyStatusList := info.multiKeyStatusList.set keyIndex status
      multiKeyDisabledReason := info.multiKeyDisabledReason.set keyIndex reason
      multiKeyDisabledTime := info.multiKeyDisabledTime.set keyIndex now }

def handlerMultiKeyUpdate (rawArray : RawArray) (channel : Channel) (usingKey : String)
    (status : Int) (reason : String) (now : Int) : Channel :=
  let keys := channel.getKeys rawArray
  if keys.isEmpty then { channel with status := status }
  else
    match keys.idxOf? usingKey with
    | none => if usingKey ≠ "" then channel else channel.setStatus status reason now
    | some keyIndex =>
      let info := channel.channelInfo.setKeyStatus keyIndex status reason now
      let channel := { channel with channelInfo := info }
      if hasEnabledMultiKey keys info = false then
        channel.setStatus channelStatusAutoDisabled channelStatusReasonAllKeysDisabled now
      else if status = channelStatusEnabled then
        { channel with status := channelStatusEnabled }
      else channel

/-! ### The cache and the tables -/

structure ChannelStore where
  memoryCacheEnabled : Bool
  cache : ChannelCache
  channels : ChannelTable
  abilities : AbilityTable

/-- The channel a cached channel was changed into; the map holds pointers. -/
def ChannelCache.put (cache : ChannelCache) (id : Int) (channel : Channel) : ChannelCache :=
  { cache with channelsIDM := fun i => if i = id then some channel else cache.channelsIDM i }

def ChannelTable.saveStatusState (channels : ChannelTable) (channel : Channel) : ChannelTable :=
  match channels.find channel.id with
  | none => channels
  | some row =>
    channels.save {
      row with
      status := channel.status
      otherInfo := channel.otherInfo
      channelInfo :=
        if channel.channelInfo.isMultiKey then channel.channelInfo else row.channelInfo }

/-- The arguments of `UpdateChannelStatus`, and the time it is called at. -/
structure StatusUpdate where
  channelId : Int
  usingKey : String
  status : Int
  reason : String
  now : Int
deriving DecidableEq, Repr

/-- The update of the cache; `none` when the call ends there. -/
def updateCachedStatus (rawArray : RawArray) (cache : ChannelCache) (u : StatusUpdate) :
    Option ChannelCache :=
  match cache.channelsIDM u.channelId with
  | none => none
  | some cached =>
    if cached.channelInfo.isMultiKey then
      let after := handlerMultiKeyUpdate rawArray cached u.usingKey u.status u.reason u.now
      let cache := cache.put u.channelId after
      some <|
        if cached.status ≠ after.status then
          cache.cacheUpdateChannelStatus u.channelId after.status
        else cache
    else if cached.status = u.status then none
    else some (cache.cacheUpdateChannelStatus u.channelId u.status)

/-- A manual operation replaces the reason that all keys are disabled. -/
def overridesKeyExhaustion (channel : Channel) (u : StatusUpdate) : Bool :=
  decide (channel.channelInfo.isMultiKey ∧ u.usingKey = "" ∧
    u.status = channelStatusManuallyDisabled ∧ u.reason ≠ channelStatusReasonAllKeysDisabled ∧
    channel.getOtherInfo.statusReason = some channelStatusReasonAllKeysDisabled)

/-- The update of the row and of the abilities, and whether there was one. -/
def updateStoredStatus (rawArray : RawArray) (s : ChannelStore) (u : StatusUpdate) :
    ChannelStore × Bool :=
  match s.channels.find u.channelId with
  | none => (s, false)
  | some channel =>
    if channel.status = u.status ∧ overridesKeyExhaustion channel u = false then (s, false)
    else
      let after :=
        if channel.channelInfo.isMultiKey then
          handlerMultiKeyUpdate rawArray channel u.usingKey u.status u.reason u.now
        else channel.setStatus u.status u.reason u.now
      let shouldUpdateAbilities :=
        !channel.channelInfo.isMultiKey || decide (channel.status ≠ after.status)
      let abilities :=
        if shouldUpdateAbilities then
          s.abilities.updateAbilityStatus u.channelId (decide (u.status = channelStatusEnabled))
        else s.abilities
      let saved :=
        { s with channels := s.channels.saveStatusState after, abilities := abilities }
      (saved, true)

def ChannelStore.updateChannelStatus (rawArray : RawArray) (s : ChannelStore) (u : StatusUpdate) :
    ChannelStore × Bool :=
  if s.memoryCacheEnabled then
    match updateCachedStatus rawArray s.cache u with
    | none => (s, false)
    | some cache => updateStoredStatus rawArray { s with cache := cache } u
  else updateStoredStatus rawArray s u

end JulongApi.Channels

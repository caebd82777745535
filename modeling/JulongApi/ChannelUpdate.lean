/-
Writing a channel back: `Channel.Update` of `model/channel.go`.

`Updates` with a struct leaves a column alone where the struct holds the zero value of its
type.  The columns are those of the channel model.
-/
import JulongApi.ChannelStatus

namespace JulongApi.Channels

def ChannelInfo.zero : ChannelInfo where
  isMultiKey := false
  multiKeySize := 0
  multiKeyStatusList := []
  multiKeyDisabledReason := []
  multiKeyDisabledTime := []
  multiKeyPollingIndex := 0
  multiKeyMode := .other ""

/-- The row after `DB.Model(channel).Updates(channel)`. -/
def Channel.updates (row channel : Channel) : Channel where
  id := row.id
  type := if channel.type = 0 then row.type else channel.type
  key := if channel.key = "" then row.key else channel.key
  status := if channel.status = 0 then row.status else channel.status
  weight := channel.weight.or row.weight
  models := if channel.models = "" then row.models else channel.models
  group := if channel.group = "" then row.group else channel.group
  priority := channel.priority.or row.priority
  tag := channel.tag.or row.tag
  otherInfo := channel.otherInfo.or row.otherInfo
  setting := channel.setting.or row.setting
  otherSettings := channel.otherSettings.or row.otherSettings
  channelInfo := if channel.channelInfo = .zero then row.channelInfo else channel.channelInfo

/-- The keys `Update` counts: an array that is empty is split into lines after all. -/
def countedKeys (rawArray : RawArray) (keyStr : String) : List String :=
  if keyStr = "" then []
  else
    let trimmed := trimSpace keyStr
    let keys := if (cutPrefix trimmed "[").isSome then (rawArray trimmed).getD [] else []
    if keys.isEmpty then split (trimChar keyStr '\n') '\n' else keys

/-- The size of a multi-key channel, and no status for an index beyond it. -/
def Channel.recountKeys (rawArray : RawArray) (existing : Option Channel) (channel : Channel) :
    Channel :=
  if channel.channelInfo.isMultiKey then
    let keyStr :=
      if channel.key ≠ "" then channel.key else (existing.map (·.key)).getD ""
    let size : Int := (countedKeys rawArray keyStr).length
    { channel with
      channelInfo := {
        channel.channelInfo with
        multiKeySize := size
        multiKeyStatusList :=
          channel.channelInfo.multiKeyStatusList.filter fun entry => entry.1 < size } }
  else channel

def ChannelStore.update (rawArray : RawArray) (s : ChannelStore) (channel : Channel) :
    ChannelStore :=
  let existing := s.channels.find channel.id
  let channel := channel.recountKeys rawArray existing
  match existing with
  | none => { s with abilities := s.abilities.updateAbilities channel }
  | some row =>
    let saved := row.updates channel
    { s with
      channels := s.channels.save saved
      abilities := s.abilities.updateAbilities saved }

/-- `InitChannelCache`, which does nothing when the memory cache is off; after a panic the cache
is the one before. -/
def ChannelStore.syncCache (s : ChannelStore) : ChannelStore :=
  if s.memoryCacheEnabled then
    { s with cache := (initChannelCache s.cache s.channels s.abilities.rows).getD s.cache }
  else s

end JulongApi.Channels

/-
The callers that read and write the key statuses of a channel: `GetNextEnabledKey` and
`SaveChannelInfo` of `model/channel.go`, `UpdateChannelStatus`, and `ManageMultiKeys` of
`controller/channel.go`.

All three hold the channel's polling lock while they write, so a write is one step.  The first
and the last write the row they loaded before they took the lock: loading is a step of its own.
Permissions, the audit and the answers are left out, and with them `get_key_status`.
-/
import JulongApi.ChannelUpdate

namespace JulongApi.Channels

/-! ### The next key -/

structure KeyChoice where
  key : String
  index : Nat
  /-- the channel info that is saved when the memory cache is off -/
  save : Option ChannelInfo
deriving DecidableEq, Repr

inductive NextKeyError where
  | noKeysAvailable
  | noEnabledKeys
  | getChannelFailed
deriving DecidableEq, Repr

/-- `GetNextEnabledKey` on a loaded channel; `current` is what `CacheGetChannelInfo` returns, and
`rand.Intn` gives `random % n`. -/
def Channel.getNextEnabledKey (rawArray : RawArray) (channel : Channel)
    (current : Option ChannelInfo) (random : Nat) : Except NextKeyError KeyChoice :=
  if channel.channelInfo.isMultiKey = false then .ok ⟨channel.key, 0, none⟩
  else
    let keys := channel.getKeys rawArray
    let getStatus := channel.channelInfo.keyStatus
    let enabledIdx :=
      (List.range keys.length).filter fun i : Nat => getStatus i = channelStatusEnabled
    let choose := fun (idx : Nat) (save : Option ChannelInfo) =>
      KeyChoice.mk (keys.getD idx "") idx save
    if keys.isEmpty then .error .noKeysAvailable
    else
      match enabledIdx with
      | [] => .error .noEnabledKeys
      | first :: _ =>
        match channel.channelInfo.multiKeyMode with
        | .random => .ok (choose (enabledIdx.getD (random % enabledIdx.length) first) none)
        | .other _ => .ok (choose first none)
        | .polling =>
          match current with
          | none => .error .getChannelFailed
          | some channelInfo =>
            let polling := channelInfo.multiKeyPollingIndex
            let start :=
              if polling < 0 ∨ (keys.length : Int) ≤ polling then 0 else polling.toNat
            let next := (List.range keys.length).find? fun i : Nat =>
              getStatus ((start + i) % keys.length : Nat) = channelStatusEnabled
            match next with
            | none => .ok (choose first (some channel.channelInfo))
            | some i =>
              let idx := (start + i) % keys.length
              .ok (choose idx (some {
                channel.channelInfo with
                multiKeyPollingIndex := ((idx + 1) % keys.length : Nat) }))

/-! ### Managing the keys -/

inductive MultiKeyAction where
  | disableKey (keyIndex : Option Int)
  | enableKey (keyIndex : Option Int)
  | enableAllKeys
  | disableAllKeys
  | deleteKey (keyIndex : Option Int)
  | deleteDisabledKeys
  | other (action : String)
deriving DecidableEq, Repr

/-- The entries of the indices that are kept, at their new indices. -/
def KeyMap.reindex {α : Type} (m : KeyMap α) (kept : List Nat) (keep : Nat → Bool) : KeyMap α :=
  kept.zipIdx.filterMap fun entry =>
    if keep entry.1 then (m.get entry.1).map fun a => ((entry.2 : Int), a) else none

/-- The channel with the keys of the kept indices alone. -/
def Channel.keepKeys (rawArray : RawArray) (channel : Channel) (kept : List Nat)
    (keepNote : Nat → Bool) : Channel :=
  let keys := channel.getKeys rawArray
  let info := channel.channelInfo
  { channel with
    key := "\n".intercalate (kept.map fun i => keys.getD i "")
    channelInfo := {
      info with
      multiKeySize := kept.length
      multiKeyStatusList :=
        info.multiKeyStatusList.reindex kept fun i : Nat => info.keyStatus i ≠ channelStatusEnabled
      multiKeyDisabledTime := info.multiKeyDisabledTime.reindex kept keepNote
      multiKeyDisabledReason := info.multiKeyDisabledReason.reindex kept keepNote } }

/-- `disableMultiKeyChannelIfUnavailable`. -/
def Channel.disableIfUnavailable (rawArray : RawArray) (channel : Channel) (now : Int) : Channel :=
  if hasEnabledMultiKey (channel.getKeys rawArray) channel.channelInfo then channel
  else if channel.status ≠ channelStatusEnabled then channel
  else
    channel.setStatus channelStatusManuallyDisabled channelStatusReasonAllKeysDisabled now

/-- `restoreMultiKeyChannelIfAvailable`. -/
def Channel.restoreIfAvailable (rawArray : RawArray) (channel : Channel) (now : Int) : Channel :=
  if channel.status ≠ channelStatusManuallyDisabled ∨
      hasEnabledMultiKey (channel.getKeys rawArray) channel.channelInfo = false then channel
  else if channel.getOtherInfo.statusReason ≠ some channelStatusReasonAllKeysDisabled then channel
  else channel.setStatus channelStatusEnabled "" now

/-- The key index of a request, if it is there and in range. -/
def requireKeyIndex (channel : Channel) (missing : String) (keyIndex : Option Int) :
    Except String Int :=
  match keyIndex with
  | none => .error missing
  | some keyIndex =>
    if keyIndex < 0 ∨ channel.channelInfo.multiKeySize ≤ keyIndex then
      .error "Key index out of range"
    else .ok keyIndex

/-- The indices below the size whose key is enabled. -/
def ChannelInfo.enabledIndices (info : ChannelInfo) : List Nat :=
  (List.range info.multiKeySize.toNat).filter fun i : Nat =>
    info.keyStatus i = channelStatusEnabled

/-- What an action makes of the keys and their statuses. -/
def Channel.changeKeys (rawArray : RawArray) (channel : Channel) :
    MultiKeyAction → Except String Channel
  | .disableKey keyIndex => do
      let keyIndex ← requireKeyIndex channel "No key index specified to disable" keyIndex
      let info := channel.channelInfo
      let statusList := info.multiKeyStatusList.set keyIndex channelStatusManuallyDisabled
      return { channel with channelInfo := { info with multiKeyStatusList := statusList } }
  | .enableKey keyIndex => do
      let keyIndex ← requireKeyIndex channel "No key index specified to enable" keyIndex
      let info := channel.channelInfo
      let enabled := {
        info with
        multiKeyStatusList := info.multiKeyStatusList.delete keyIndex
        multiKeyDisabledTime := info.multiKeyDisabledTime.delete keyIndex
        multiKeyDisabledReason := info.multiKeyDisabledReason.delete keyIndex }
      return { channel with channelInfo := enabled }
  | .enableAllKeys =>
    let enabled := {
      channel.channelInfo with
      multiKeyStatusList := []
      multiKeyDisabledTime := []
      multiKeyDisabledReason := [] }
    .ok { channel with channelInfo := enabled }
  | .disableAllKeys =>
    let info := channel.channelInfo
    if info.enabledIndices.isEmpty then .error "No keys to disable"
    else
      let statusList := info.enabledIndices.foldl
        (fun (m : KeyMap Int) (i : Nat) => m.set i channelStatusManuallyDisabled)
        info.multiKeyStatusList
      .ok { channel with channelInfo := { info with multiKeyStatusList := statusList } }
  | .deleteKey keyIndex => do
      let keyIndex ← requireKeyIndex channel "No key index specified to delete" keyIndex
      let kept := (List.range (channel.getKeys rawArray).length).filter fun i : Nat =>
        (i : Int) ≠ keyIndex
      if kept.isEmpty then .error "Cannot delete the last key"
      else .ok (channel.keepKeys rawArray kept fun _ => true)
  | .deleteDisabledKeys =>
    let info := channel.channelInfo
    let kept := (List.range (channel.getKeys rawArray).length).filter fun i : Nat =>
      info.keyStatus i ≠ channelStatusAutoDisabled
    if kept.length = (channel.getKeys rawArray).length then
      .error "No auto-disabled keys to delete"
    else
      .ok (channel.keepKeys rawArray kept fun i : Nat => info.keyStatus i ≠ channelStatusEnabled)
  | .other _ => .error "Unsupported operation"

/-- What an action makes of the loaded channel, before it is saved. -/
def Channel.manage (rawArray : RawArray) (channel : Channel) (action : MultiKeyAction)
    (now : Int) : Except String Channel :=
  if channel.channelInfo.isMultiKey = false then .error "This channel is not in multi-key mode"
  else
    (channel.changeKeys rawArray action).map fun channel =>
      match action with
      | .enableKey _ | .enableAllKeys => channel.restoreIfAvailable rawArray now
      | _ => channel.disableIfUnavailable rawArray now

/-! ### The callers of one channel -/

inductive KeyAct where
  /-- a caller loads the row -/
  | load
  /-- the caller who loaded at `slot` asks for the next key -/
  | poll (slot random : Nat)
  /-- the caller who loaded at `slot` manages the keys -/
  | manage (slot : Nat) (action : MultiKeyAction) (now : Int)
  | update (usingKey : String) (status : Int) (reason : String) (now : Int)
deriving DecidableEq, Repr

structure KeySystem where
  channelId : Int
  store : ChannelStore
  /-- the rows that callers have loaded and not yet used -/
  loaded : List Channel

def KeySystem.row (s : KeySystem) : Option Channel := s.store.channels.find s.channelId

def ChannelTable.saveChannelInfo (channels : ChannelTable) (id : Int) (info : ChannelInfo) :
    ChannelTable :=
  match channels.find id with
  | none => channels
  | some row => channels.save { row with channelInfo := info }

def ChannelStore.cacheGetChannelInfo (s : ChannelStore) (id : Int) : Option ChannelInfo :=
  (if s.memoryCacheEnabled then s.cache.channelsIDM id else s.channels.find id).map (·.channelInfo)

def KeySystem.step (rawArray : RawArray) (s : KeySystem) : KeyAct → Option KeySystem
  | .load => s.row.map fun row => { s with loaded := s.loaded ++ [row] }
  | .poll slot random =>
    s.loaded[slot]?.map fun channel =>
      let left := { s with loaded := s.loaded.eraseIdx slot }
      let current := s.store.cacheGetChannelInfo s.channelId
      match channel.getNextEnabledKey rawArray current random with
      | .ok { save := some info, .. } =>
        if s.store.memoryCacheEnabled then left
        else
          let channels := s.store.channels.saveChannelInfo s.channelId info
          { left with store := { s.store with channels := channels } }
      | _ => left
  | .manage slot action now =>
    s.loaded[slot]?.map fun channel =>
      let left := { s with loaded := s.loaded.eraseIdx slot }
      match channel.manage rawArray action now with
      | .error _ => left
      | .ok channel => { left with store := (s.store.update rawArray channel).syncCache }
  | .update usingKey status reason now =>
    let result := s.store.updateChannelStatus rawArray ⟨s.channelId, usingKey, status, reason, now⟩
    some { s with store := result.1 }

end JulongApi.Channels

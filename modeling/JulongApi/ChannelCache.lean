/-
The channel cache: `model/channel_cache.go`, and the candidate filter of
`model/channel_constraint.go`.

The two Go maps of the index are one function to the inner map of a group, if the group has
one; writing to an inner map that is not there is the panic.  The parsed custom configurations
that only the pricing page reads are left out, and `RoutingMatchModelName` is a parameter.
-/
import JulongApi.Ability
import JulongApi.Lib.Except

namespace JulongApi.Channels

/-- `group2model2channels`. -/
abbrev ChannelIndex := String → Option (String → List Int)

structure ChannelCache where
  group2model2channels : ChannelIndex
  channelsIDM : Int → Option Channel

def ChannelCache.empty : ChannelCache := ⟨fun _ => none, fun _ => none⟩

/-- The inner maps that exist are those of the groups of the abilities. -/
def ChannelIndex.ofAbilities (abilities : List Ability) : ChannelIndex := fun group =>
  if group ∈ abilities.map (·.group) then some fun _ => [] else none

/-- The pairs of a group and a model under which a channel is listed. -/
def Channel.entries (channel : Channel) : List (String × String) :=
  (split channel.group ',').product channel.getModels

/-- Append an id to the list of a group and a model; `none` is the write to a nil map. -/
def ChannelIndex.add (index : ChannelIndex) (group model : String) (id : Int) :
    Option ChannelIndex :=
  match index group with
  | none => none
  | some models =>
    some fun g =>
      if g = group then
        some fun m => if m = model then models m ++ [id] else models m
      else index g

def ChannelIndex.addEntries (id : Int) : ChannelIndex → List (String × String) → Option ChannelIndex
  | index, [] => some index
  | index, (group, model) :: rest =>
    (index.add group model id).bind fun index => index.addEntries id rest

def ChannelIndex.addChannels : ChannelIndex → List Channel → Option ChannelIndex
  | index, [] => some index
  | index, channel :: rest =>
    if channel.status ≠ channelStatusEnabled then index.addChannels rest
    else (index.addEntries channel.id channel.entries).bind fun index => index.addChannels rest

/-- Whether `a` may stand before `b` in a list sorted by priority. -/
def ChannelTable.ranks (channels : ChannelTable) (a b : Int) : Bool :=
  let priority := fun id => ((channels.find id).map (·.getPriority)).getD 0
  decide (priority b ≤ priority a)

/-- The polling index a channel keeps from the cache before. -/
def keepPollingIndex (old : ChannelCache) (channel : Channel) : Channel :=
  if channel.channelInfo.isMultiKey ∧ channel.channelInfo.multiKeyMode = .polling then
    match old.channelsIDM channel.id with
    | some oldChannel =>
      if oldChannel.channelInfo.isMultiKey ∧ oldChannel.channelInfo.multiKeyMode = .polling then
        { channel with
          channelInfo := {
            channel.channelInfo with
            multiKeyPollingIndex := oldChannel.channelInfo.multiKeyPollingIndex } }
      else channel
    | none => channel
  else channel

/-- `InitChannelCache`, from what it has read of the two tables; `none` is the panic. -/
def initChannelCache (old : ChannelCache) (channels : ChannelTable) (abilities : List Ability) :
    Option ChannelCache :=
  ((ChannelIndex.ofAbilities abilities).addChannels channels.rows).map fun index => {
    group2model2channels := fun group =>
      (index group).map fun models model =>
        (models model).insertionSort fun a b => channels.ranks a b = true
    channelsIDM := fun id => (channels.find id).map (keepPollingIndex old) }

/-! ### Status updates -/

def ChannelCache.cacheUpdateChannelStatus (cache : ChannelCache) (id status : Int) :
    ChannelCache where
  channelsIDM := fun i =>
    if i = id then (cache.channelsIDM i).map fun channel => { channel with status := status }
    else cache.channelsIDM i
  group2model2channels :=
    if status ≠ channelStatusEnabled then
      fun group => (cache.group2model2channels group).map fun models model =>
        -- the loop over the list stops at the first id it has removed
        (models model).erase id
    else cache.group2model2channels

def ChannelCache.updateAll (cache : ChannelCache) (updates : List (Int × Int)) : ChannelCache :=
  updates.foldl (fun cache update => cache.cacheUpdateChannelStatus update.1 update.2) cache

/-! ### Selection -/

/-- The ids under a group and a model; reading a nil map gives none. -/
def ChannelCache.candidates (cache : ChannelCache) (group model : String) : List Int :=
  match cache.group2model2channels group with
  | none => []
  | some models => models model

def candidatePassesKindFilters (regexp : Regexp) (ch : Option Channel) (modelName : String)
    (kind : ChannelFilterKind) (filters : List ChannelFilter) : Bool :=
  match ch with
  | none => decide (kind = .requestPath)
  | some ch => filters.all fun filter => channelMatchesFilter regexp ch modelName filter

/-- The loop of `filterCandidateIDs` over the kinds: what is kept, and the kind that emptied it. -/
def ChannelCache.filterByKinds (regexp : Regexp) (cache : ChannelCache) (modelName : String)
    (filters : List ChannelFilter) :
    List ChannelFilterKind → List Int → List Int × Option ChannelFilterKind
  | [], kept => (kept, none)
  | kind :: rest, kept =>
    let kindFilters := filters.filter (·.kind = kind)
    if kindFilters.isEmpty then cache.filterByKinds regexp modelName filters rest kept
    else
      let next := kept.filter fun id =>
        candidatePassesKindFilters regexp (cache.channelsIDM id) modelName kind kindFilters
      if !kept.isEmpty && next.isEmpty then (next, some kind)
      else cache.filterByKinds regexp modelName filters rest next

def ChannelCache.filterCandidateIDs (regexp : Regexp) (cache : ChannelCache) (ids : List Int)
    (modelName : String) (filters : List ChannelFilter) : List Int × Option ChannelFilterKind :=
  if ids.isEmpty then (ids, none)
  else cache.filterByKinds regexp modelName filters filterEvalOrder ids

inductive SelectError where
  /-- `database consistency error: channel #%d does not exist, please contact the administrator` -/
  | missing (id : Int)
  /-- `no channel found, group: %s, model: %s, priority: %d` -/
  | noChannel (group model : String) (priority : Int)
  /-- `channel not found` -/
  | notFound
deriving DecidableEq, Repr

/-- The last loop of `GetRandomSatisfiedChannel`. -/
def pickByWeight (smoothingFactor smoothingAdjustment : Nat) :
    List Channel → Int → Except SelectError Channel
  | [], _ => .error .notFound
  | channel :: rest, randomWeight =>
    let randomWeight :=
      randomWeight - ((channel.getWeight * smoothingFactor + smoothingAdjustment : Nat) : Int)
    if randomWeight < 0 then .ok channel
    else pickByWeight smoothingFactor smoothingAdjustment rest randomWeight

/-- The choice among the channels of one priority; `rand.Intn` gives `random % totalWeight`. -/
def selectByWeight (targetChannels : List Channel) (random : Nat) : Except SelectError Channel :=
  let sumWeight := (targetChannels.map (·.getWeight)).sum
  if sumWeight = 0 then
    pickByWeight 1 100 targetChannels (random % (targetChannels.length * 100) : Nat)
  else
    let smoothingFactor := if sumWeight / targetChannels.length < 10 then 100 else 1
    pickByWeight smoothingFactor 0 targetChannels (random % (sumWeight * smoothingFactor) : Nat)

/-- A cached channel, or the error that it is not there. -/
def ChannelCache.require (cache : ChannelCache) (id : Int) : Except SelectError Channel :=
  match cache.channelsIDM id with
  | some channel => .ok channel
  | none => .error (.missing id)

/-- The priorities that occur, the highest first. -/
def sortedUniquePriorities (channels : List Channel) : List Int :=
  (channels.map (·.getPriority)).dedup.insertionSort (· ≥ ·)

/-- The priority of a retry: one lower for each retry, and the lowest from then on. -/
def targetPriority (priorities : List Int) (retry : Nat) : Int :=
  priorities.getD (if priorities.length ≤ retry then priorities.length - 1 else retry) 0

/-- The choice among two channels or more. -/
def ChannelCache.selectAmong (cache : ChannelCache) (group model : String) (retry random : Nat)
    (ids : List Int) : Except SelectError (Option Channel) := do
  let channels ← ids.mapM cache.require
  let priority := targetPriority (sortedUniquePriorities channels) retry
  let targetChannels := channels.filter (·.getPriority = priority)
  if targetChannels.isEmpty then .error (.noChannel group model priority)
  else (selectByWeight targetChannels random).map some

/-- The ids that are left: of the exact model name, or else of the normalized one. -/
def ChannelCache.satisfyingIDs (regexp : Regexp) (routingMatchModelName : String → String)
    (cache : ChannelCache) (group model : String) (filters : List ChannelFilter) : List Int :=
  let channels := (cache.filterCandidateIDs regexp (cache.candidates group model) model filters).1
  if channels.isEmpty then
    (cache.filterCandidateIDs regexp (cache.candidates group (routingMatchModelName model))
      model filters).1
  else channels

/-- The choice among the ids that are left. -/
def ChannelCache.choose (cache : ChannelCache) (group model : String) (retry random : Nat) :
    List Int → Except SelectError (Option Channel)
  | [] => .ok none
  | [id] => (cache.require id).map some
  | id :: next :: rest => cache.selectAmong group model retry random (id :: next :: rest)

/-- `GetRandomSatisfiedChannel` with the memory cache enabled. -/
def ChannelCache.getRandomSatisfiedChannel (regexp : Regexp)
    (routingMatchModelName : String → String) (cache : ChannelCache) (group model : String)
    (retry : Nat) (filters : List ChannelFilter) (random : Nat) :
    Except SelectError (Option Channel) :=
  cache.choose group model retry random
    (cache.satisfyingIDs regexp routingMatchModelName group model filters)

end JulongApi.Channels

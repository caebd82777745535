/-
Selection without the memory cache: `GetChannel` of `model/ability.go`.

A query on the abilities answers with the rows in some order that fits its `ORDER BY`.
-/
import JulongApi.ChannelCache

namespace JulongApi.Channels

/-- The rows of a group and a model that are enabled, the highest priority first. -/
def AbilityTable.enabledFor (abilities : AbilityTable) (group model : String) : List Ability :=
  let rows := abilities.rows.filter fun ability =>
    ability.group = group ∧ ability.model = model ∧ ability.enabled = true
  (rows.insertionSort fun a b => b.weight ≤ a.weight).insertionSort fun a b =>
    b.priority.getD 0 ≤ a.priority.getD 0

def filterAbilitiesByConstraints (regexp : Regexp) (channels : ChannelTable)
    (abilities : List Ability) (modelName : String) (filters : List ChannelFilter) : List Ability :=
  abilities.filter fun ability =>
    match channels.find ability.channelId with
    | none => false
    | some channel => (channelSatisfiesFilters regexp channel modelName filters).isNone

/-- The loop of `GetChannel` over the abilities: the id it stops at, or zero. -/
def pickAbility : List Ability → Int → Int
  | [], _ => 0
  | ability :: rest, weight =>
    let weight := weight - ((ability.weight : Int) + 10)
    if weight ≤ 0 then ability.channelId else pickAbility rest weight

/-- The choice among abilities; `GetRandomInt` gives `random % weightSum`. -/
def chooseAbility (abilities : List Ability) (retry random : Nat) : Int :=
  let priorities :=
    (abilities.map fun ability => ability.priority.getD 0).dedup.insertionSort (· ≥ ·)
  let abilities := abilities.filter fun ability =>
    ability.priority.getD 0 = targetPriority priorities retry
  let weightSum := (abilities.map fun ability => ability.weight + 10).sum
  pickAbility abilities (random % weightSum : Nat)

def getChannel (regexp : Regexp) (channels : ChannelTable) (abilities : AbilityTable)
    (group model : String) (retry : Nat) (filters : List ChannelFilter) (random : Nat) :
    Except SelectError (Option Channel) :=
  let candidates := filterAbilitiesByConstraints regexp channels (abilities.enabledFor group model)
    model filters
  if candidates.isEmpty then .ok none
  else
    match channels.find (chooseAbility candidates retry random) with
    | none => .error (.missing (chooseAbility candidates retry random))
    | some channel => .ok (some channel)

end JulongApi.Channels

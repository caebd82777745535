/-
Abilities: `model/ability.go`.

An ability is a row for a channel, a group and a model.  Rows whose key is taken are passed
over on creation, as `OnConflict{DoNothing: true}` has it.
-/
import JulongApi.Channel

namespace JulongApi.Channels

structure Ability where
  group : String
  model : String
  channelId : Int
  enabled : Bool
  priority : Option Int
  weight : Nat
  tag : Option String
deriving DecidableEq, Repr

/-- The primary key of an ability. -/
def Ability.key (ability : Ability) : String × String × Int :=
  (ability.group, ability.model, ability.channelId)

abbrev AbilityTable := Table Ability.key

/-- The ability of a channel for a model and a group. -/
def Channel.ability (channel : Channel) (model group : String) : Ability where
  group := group
  model := model
  channelId := channel.id
  enabled := decide (channel.status = channelStatusEnabled)
  -- a nil pointer is stored as the column's default
  priority := some channel.getPriority
  weight := channel.getWeight
  tag := channel.tag

/-- The loops over the models and the groups; `abilitySet` holds the keys already met. -/
def Channel.collectAbilities (channel : Channel) :
    List String → List (String × String) → List Ability
  | _, [] => []
  | abilitySet, (model, group) :: rest =>
    let key := group ++ "|" ++ model
    if key ∈ abilitySet then channel.collectAbilities abilitySet rest
    else channel.ability model group :: channel.collectAbilities (key :: abilitySet) rest

/-- The abilities of a channel for the models of a list. -/
def Channel.abilities (channel : Channel) (models : List String) : List Ability :=
  channel.collectAbilities [] (models.product (split channel.group ','))

def AbilityTable.createAll (table : AbilityTable) (abilities : List Ability) : AbilityTable :=
  abilities.foldl (fun table ability => (table.insert ability).getD table) table

def AbilityTable.deleteAbilities (table : AbilityTable) (channelId : Int) : AbilityTable :=
  table.delete fun ability => ability.channelId = channelId

/-- `AddAbilities`: the models are split as they are. -/
def AbilityTable.addAbilities (table : AbilityTable) (channel : Channel) : AbilityTable :=
  table.createAll (channel.abilities (split channel.models ','))

/-- `UpdateAbilities`: the models are those of `GetModels`. -/
def AbilityTable.updateAbilities (table : AbilityTable) (channel : Channel) : AbilityTable :=
  (table.deleteAbilities channel.id).createAll (channel.abilities channel.getModels)

def AbilityTable.updateAbilityStatus (table : AbilityTable) (channelId : Int) (status : Bool) :
    AbilityTable :=
  table.mapRows
    (fun ability =>
      if ability.channelId = channelId then { ability with enabled := status } else ability)
    fun ability => by split <;> rfl

end JulongApi.Channels

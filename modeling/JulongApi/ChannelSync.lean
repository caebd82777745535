/-
The sync of the channel cache among the writers of the two tables: `InitChannelCache`,
`Channel.Insert`, `Channel.Update`, `EditChannelByTag` and `FixAbility`, on any node.

A step is one statement or one transaction.  A writer changes the channels first and has its
statements on the abilities still to run; a sync reads the channels in one step and the
abilities in another.  No statement fails.
-/
import JulongApi.ChannelUpdate

namespace JulongApi.Channels

def chunk {α : Type} (size : Nat) (l : List α) : List (List α) :=
  (List.range ((l.length + size - 1) / size)).map fun i => (l.drop (i * size)).take size

/-! ### Edits by tag -/

structure TagEdit where
  newTag : Option String
  models : Option String
  group : Option String
  priority : Option Int
  weight : Option Nat
deriving DecidableEq, Repr

def TagEdit.updatedTag (edit : TagEdit) (tag : String) : String := edit.newTag.getD tag

def TagEdit.updateData (edit : TagEdit) (tag : String) : Channel where
  id := 0
  type := 0
  key := ""
  status := 0
  weight := edit.weight
  models := edit.models.getD ""
  group := edit.group.getD ""
  priority := edit.priority
  tag := if edit.newTag = some tag then none else edit.newTag
  otherInfo := none
  setting := none
  otherSettings := none
  channelInfo := .zero

def TagEdit.shouldReCreateAbilities (edit : TagEdit) : Bool :=
  decide (edit.models.getD "" ≠ "" ∨ edit.group.getD "" ≠ "")

def ChannelTable.editByTag (channels : ChannelTable) (tag : String) (edit : TagEdit) :
    ChannelTable :=
  channels.mapRows
    (fun row => if row.tag = some tag then row.updates (edit.updateData tag) else row)
    fun row => by split <;> rfl

def AbilityTable.updateAbilityByTag (abilities : AbilityTable) (tag : String) (edit : TagEdit) :
    AbilityTable :=
  abilities.mapRows
    (fun ability =>
      if ability.tag = some tag then
        { ability with
          tag := edit.newTag.or ability.tag
          priority := edit.priority.or ability.priority
          weight := if edit.weight.getD 0 = 0 then ability.weight else edit.weight.getD 0 }
      else ability)
    fun ability => by split <;> rfl

/-! ### Writers -/

/-- A statement or a transaction on the abilities. -/
inductive AbilityWrite where
  | create (abilities : List Ability)
  | deleteFor (ids : List Int)
  | replace (channel : Channel)
  | editTag (tag : String) (edit : TagEdit)
deriving DecidableEq, Repr

def AbilityWrite.apply (abilities : AbilityTable) : AbilityWrite → AbilityTable
  | .create new => abilities.createAll new
  | .deleteFor ids => abilities.delete fun ability => decide (ability.channelId ∈ ids)
  | .replace channel => abilities.updateAbilities channel
  | .editTag tag edit => abilities.updateAbilityByTag tag edit

/-- `AddAbilities`, fifty rows to a statement. -/
def Channel.addWrites (channel : Channel) : List AbilityWrite :=
  (chunk 50 (channel.abilities (split channel.models ','))).map .create

/-- `FixAbility` once it has read the channels. -/
def fixWrites (channels : List Channel) : List AbilityWrite :=
  (chunk 50 channels).flatMap fun part =>
    .deleteFor (part.map (·.id)) :: part.flatMap (·.addWrites)

inductive WriterStage where
  /-- `Update` has still to read the row back -/
  | reload (channel : Channel)
  /-- `EditChannelByTag` has still to read the channels of the tag -/
  | readTag (tag : String)
  /-- `FixAbility` has still to read the channels -/
  | readAll
  | write (writes : List AbilityWrite)
deriving DecidableEq, Repr

structure Writer where
  /-- the channels the writer has in hand -/
  ids : List Int
  stage : WriterStage
deriving DecidableEq, Repr

/-! ### The system -/

structure SyncSystem where
  channels : ChannelTable
  abilities : AbilityTable
  writers : List Writer
  /-- what the syncs under way have read of the channels -/
  reading : List ChannelTable
  crashed : Bool

inductive SyncAct where
  | insert (channel : Channel)
  | update (channel : Channel)
  | editByTag (tag : String) (edit : TagEdit)
  | fixAbility
  /-- the writer at `slot` goes on -/
  | go (slot : Nat)
  | readChannels
  /-- the sync at `slot` reads the abilities and builds the cache -/
  | readAbilities (slot : Nat)
deriving DecidableEq, Repr

def ChannelTable.tagged (channels : ChannelTable) (tag : String) : List Channel :=
  channels.rows.filter (·.tag = some tag)

/-- The read a writer has still to do: the writes that follow, and the channels it takes in hand. -/
def Writer.read (channels : ChannelTable) (w : Writer) : WriterStage → Writer
  | .reload channel =>
    let row := (channels.find channel.id).getD channel
    { w with stage := .write [.replace row] }
  | .readTag tag =>
    let tagged := channels.tagged tag
    ⟨w.ids ++ tagged.map (·.id), .write (tagged.map .replace)⟩
  | .readAll => ⟨w.ids ++ channels.rows.map (·.id), .write (fixWrites channels.rows)⟩
  | .write _ => w

def SyncSystem.start (s : SyncSystem) (w : Writer) : SyncSystem :=
  { s with writers := s.writers ++ [w] }

def SyncSystem.go (s : SyncSystem) (slot : Nat) (w : Writer) : SyncSystem :=
  match w.stage with
  | .write [] => { s with writers := s.writers.eraseIdx slot }
  | .write (op :: rest) =>
    { s with
      abilities := op.apply s.abilities
      writers := s.writers.set slot { w with stage := .write rest } }
  | stage => { s with writers := s.writers.set slot (w.read s.channels stage) }

def SyncSystem.step (rawArray : RawArray) (s : SyncSystem) : SyncAct → Option SyncSystem
  | .insert channel =>
    (s.channels.insert channel).map fun channels =>
      SyncSystem.start { s with channels := channels } ⟨[channel.id], .write channel.addWrites⟩
  | .update channel =>
    let existing := s.channels.find channel.id
    let channels :=
      match existing with
      | none => s.channels
      | some row => s.channels.save (row.updates (channel.recountKeys rawArray existing))
    some (SyncSystem.start { s with channels := channels } ⟨[channel.id], .reload channel⟩)
  | .editByTag tag edit =>
    let ids := (s.channels.tagged tag).map (·.id)
    let stage :=
      if edit.shouldReCreateAbilities then WriterStage.readTag (edit.updatedTag tag)
      else .write [.editTag tag edit]
    some (SyncSystem.start { s with channels := s.channels.editByTag tag edit } ⟨ids, stage⟩)
  | .fixAbility =>
    let ids := s.channels.rows.map (·.id)
    some (SyncSystem.start { s with abilities := ⟨[], List.nodup_nil⟩ } ⟨ids, .readAll⟩)
  | .go slot => s.writers[slot]?.map fun w => s.go slot w
  | .readChannels => some { s with reading := s.reading ++ [s.channels] }
  | .readAbilities slot =>
    s.reading[slot]?.map fun channels =>
      let left := { s with reading := s.reading.eraseIdx slot }
      -- whether there is a panic does not depend on the cache before
      match initChannelCache .empty channels s.abilities.rows with
      | none => { left with crashed := true }
      | some _ => left

end JulongApi.Channels

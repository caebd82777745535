/-
Edits of the keys of a multi-key channel: `UpdateChannel` of `controller/channel.go` with its key
modes, and the deletions of `ManageMultiKeys`.

Of a patch only what reaches the row is kept: the channel it carries, the mode of the keys and how
they are given.  The checks of `UpdateChannel` that do not look at the keys are left out.
-/
import JulongApi.MultiKey

namespace JulongApi.Channels

def channelTypeVertexAi : Int := 41

def vertexKeyTypeAPIKey : String := "api_key"

/-! ### Keys of Vertex AI -/

/-- An element of a decoded array: a string, or a value with its encoding. -/
inductive VertexValue where
  | text (value : String)
  | other (encoded : Except String String)

/-- `common.Unmarshal` into a list of any values. -/
abbrev VertexArray := String → Except String (List VertexValue)

inductive VertexKeysError where
  /-- `Batch-adding Vertex AI keys requires a JSON array, for example ... Check the input: ...` -/
  | notAnArray (error : String)
  /-- `Failed to encode Vertex AI key JSON: ...` -/
  | encode (error : String)
  /-- `Vertex AI keys for batch adding cannot be empty` -/
  | empty
deriving DecidableEq, Repr

def VertexValue.keyStr : VertexValue → Except VertexKeysError String
  | .text value => .ok (trimSpace value)
  | .other (.ok encoded) => .ok encoded
  | .other (.error error) => .error (.encode error)

def getVertexArrayKeys (vertexArray : VertexArray) (keys : String) :
    Except VertexKeysError (List String) :=
  if keys = "" then .ok []
  else
    match vertexArray keys with
    | .error error => .error (.notAnArray error)
    | .ok keyArray => do
        let cleanKeys := (← keyArray.mapM VertexValue.keyStr).filter (· ≠ "")
        if cleanKeys.isEmpty then .error .empty else .ok cleanKeys

/-! ### `UpdateChannel` -/

structure PatchChannel where
  /-- the columns of the request; a column that is not given holds its zero value -/
  channel : Channel
  /-- `MultiKeyMode`, where it is given and not empty -/
  multiKeyMode : Option MultiKeyMode
  keyMode : Option String
  /-- `GetOtherSettings().VertexKeyType` -/
  vertexKeyType : String
deriving DecidableEq, Repr

/-- The keys `UpdateChannel` finds in the row; an array that does not decode has none. -/
def existingKeys (rawArray : RawArray) (key : String) : List String :=
  let trimmed := trimSpace key
  if (cutPrefix trimmed "[").isSome then (rawArray trimmed).getD []
  else split (trimChar key '\n') '\n'

def PatchChannel.newKeys (vertexArray : VertexArray) (patch : PatchChannel) :
    Except VertexKeysError (List String) :=
  let key := patch.channel.key
  if patch.channel.type = channelTypeVertexAi ∧ patch.vertexKeyType ≠ vertexKeyTypeAPIKey then
    if (cutPrefix (trimSpace key) "[").isSome then getVertexArrayKeys vertexArray key
    else .ok [key]
  else .ok (((split key '\n').map trimSpace).filter (· ≠ ""))

/-- The map `seen` before the new keys. -/
def seenKeys (existing : List String) : List String :=
  (existing.map trimSpace).filter (· ≠ "")

/-- The loop that drops the new keys already seen. -/
def dedupedNewKeys : List String → List String → List String
  | _, [] => []
  | seen, key :: rest =>
    let normalized := trimSpace key
    if normalized = "" ∨ normalized ∈ seen then dedupedNewKeys seen rest
    else normalized :: dedupedNewKeys (normalized :: seen) rest

/-- The channel `UpdateChannel` hands to `Update`. -/
def PatchChannel.prepare (rawArray : RawArray) (vertexArray : VertexArray) (origin : Channel)
    (patch : PatchChannel) : Except VertexKeysError Channel :=
  let channelInfo := {
    origin.channelInfo with
    multiKeyMode := patch.multiKeyMode.getD origin.channelInfo.multiKeyMode }
  let channel := { patch.channel with channelInfo := channelInfo }
  if channelInfo.isMultiKey = true ∧ patch.keyMode = some "append" ∧ origin.key ≠ "" then do
    let newKeys ← patch.newKeys vertexArray
    let existing := existingKeys rawArray origin.key
    let allKeys := existing ++ dedupedNewKeys (seenKeys existing) newKeys
    return { channel with key := "\n".intercalate allKeys }
  else .ok channel

/-! ### Edits -/

inductive KeyEdit where
  | deleteKey (keyIndex : Int)
  | deleteDisabledKeys
  | update (patch : PatchChannel)
deriving DecidableEq, Repr

inductive KeyEditError where
  /-- there is no channel with the id of the request -/
  | channelNotFound
  | manage (message : String)
  /-- `Failed to parse appended keys: ...` -/
  | append (error : VertexKeysError)
deriving DecidableEq, Repr

/-- The channel that is saved for an edit of a row. -/
def KeyEdit.prepare (rawArray : RawArray) (vertexArray : VertexArray) (row : Channel) (now : Int) :
    KeyEdit → Except KeyEditError Channel
  | .deleteKey keyIndex =>
    (row.manage rawArray (.deleteKey (some keyIndex)) now).mapError .manage
  | .deleteDisabledKeys => (row.manage rawArray .deleteDisabledKeys now).mapError .manage
  | .update patch =>
    -- the request names the row by its id
    let patch := { patch with channel := { patch.channel with id := row.id } }
    (patch.prepare rawArray vertexArray row).mapError .append

/-- A request that edits the keys of a channel. -/
def ChannelStore.editKeys (rawArray : RawArray) (vertexArray : VertexArray) (s : ChannelStore)
    (id : Int) (edit : KeyEdit) (now : Int) : Except KeyEditError ChannelStore :=
  match s.channels.find id with
  | none => .error .channelNotFound
  | some row =>
    (edit.prepare rawArray vertexArray row now).map fun channel =>
      (s.update rawArray channel).syncCache

end JulongApi.Channels

/-
What a Midjourney request asks for: `CoverPlusActionToNormalAction` and `ConvertSimpleChangeParams`
of `service/midjourney.go`.

An index that is out of range is a panic, which is `none`.  Of a request the fields are left out
that neither function reads or writes.
-/
import JulongApi.Strings

namespace JulongApi.MidjourneyAction

structure MidjourneyRequest where
  customId : String
  action : String
  index : Int
  taskId : String
deriving DecidableEq, Repr

/-- What `MidjourneyErrorWrapper` makes of a code and a description. -/
structure MidjourneyResponse where
  code : Int
  description : String
deriving DecidableEq, Repr

def mjRequestError : Int := 4

/-! ### Simple changes -/

/-- The end of `ConvertSimpleChangeParams`: the one character behind the first, as the index.  A
byte that begins a longer character is no digit either. -/
def changeIndex (changeParams : MidjourneyRequest) (action : List Char) :
    Option (Option MidjourneyRequest) :=
  action[1]?.map fun digit =>
    match atoi (String.singleton digit) with
    | none => none
    | some index =>
      if index < 1 ∨ index > 4 then none else some { changeParams with index := index }

def convertSimpleChangeParams (content : String) : Option (Option MidjourneyRequest) :=
  match split content ' ' with
  | [taskId, change] =>
    let action := (toLower change).toList
    action[0]?.bind fun first =>
      if first = 'u' then changeIndex ⟨"", "UPSCALE", 0, taskId⟩ action
      else if first = 'v' then changeIndex ⟨"", "VARIATION", 0, taskId⟩ action
      else if action = ['r'] then some (some ⟨"", "REROLL", 0, taskId⟩)
      else some none
  | _ => some none

/-! ### Custom ids -/

/-- `strings.Split(customId, "::")`. -/
def splitCustomId : List Char → List (List Char)
  | [] => [[]]
  | ':' :: ':' :: rest => [] :: splitCustomId rest
  | c :: rest => (splitCustomId rest).modifyHead (c :: ·)

def splits (customId : String) : List String := (splitCustomId customId.toList).map String.ofList

/-- The piece that is taken for the action. -/
def actionOf (splits : List String) : Option String :=
  splits[1]?.bind fun action => if action = "JOB" then splits[2]? else some action

/-- The action with the index that is read from a piece. -/
def withIndex (midjRequest : MidjourneyRequest) (action piece : String) :
    MidjourneyRequest × Option MidjourneyResponse :=
  match atoi piece with
  | none => (midjRequest, some ⟨mjRequestError, "index_parse_failed"⟩)
  | some index => ({ midjRequest with index := index, action := action }, none)

/-- `CoverPlusActionToNormalAction`: the request as it leaves it, and the error. -/
def coverPlusActionToNormalAction (midjRequest : MidjourneyRequest) :
    Option (MidjourneyRequest × Option MidjourneyResponse) :=
  let customId := midjRequest.customId
  if customId = "" then
    some (midjRequest, some ⟨mjRequestError, "custom_id_is_required"⟩)
  else
    let splits := splits customId
    (actionOf splits).bind fun action =>
      let normal := fun name => some ({ midjRequest with action := name, index := 1 }, none)
      if action = "" then some (midjRequest, some ⟨mjRequestError, "unknown_action"⟩)
      else if contains action "upsample" then
        splits[3]?.map fun piece => withIndex midjRequest "UPSCALE" piece
      else if contains action "variation" then
        let midjRequest := { midjRequest with index := 1 }
        if action = "variation" then
          splits[3]?.map fun piece => withIndex midjRequest "VARIATION" piece
        else if action = "low_variation" then normal "LOW_VARIATION"
        else if action = "high_variation" then normal "HIGH_VARIATION"
        else some (midjRequest, none)
      else if contains action "pan" then normal "PAN"
      else if contains action "reroll" then normal "REROLL"
      else if action = "Outpaint" then normal "ZOOM"
      else if action = "CustomZoom" then normal "CUSTOM_ZOOM"
      else if action = "Inpaint" then normal "INPAINT"
      else some (midjRequest, some ⟨mjRequestError, "unknown_action:" ++ customId⟩)

end JulongApi.MidjourneyAction

/-
The texts of an email campaign: `renderEmailCampaignTemplate` of `service/email_campaign.go`.

The loop ranges over a map, so the order of the placeholders is a parameter.  The name of the system
and the local time of a timestamp are taken from outside.
-/
import JulongApi.Lib.Replace

namespace JulongApi.EmailTemplate

open Replace

/-- The keys of the map `values`. -/
inductive Field where
  | username | displayName | email | systemName | subscriptionName | subscriptionEndTime
  | daysRemaining
deriving DecidableEq, Repr

def Field.all : List Field :=
  [.username, .displayName, .email, .systemName, .subscriptionName, .subscriptionEndTime,
    .daysRemaining]

def Field.placeholder : Field → String
  | .username => "\x7b\x7busername\x7d\x7d"
  | .displayName => "\x7b\x7bdisplay_name\x7d\x7d"
  | .email => "\x7b\x7bemail\x7d\x7d"
  | .systemName => "\x7b\x7bsystem_name\x7d\x7d"
  | .subscriptionName => "\x7b\x7bsubscription_name\x7d\x7d"
  | .subscriptionEndTime => "\x7b\x7bsubscription_end_time\x7d\x7d"
  | .daysRemaining => "\x7b\x7bdays_remaining\x7d\x7d"

/-- The columns of an `EmailDelivery` that a text shows. -/
structure EmailDelivery where
  username : String
  displayName : String
  email : String
  subscriptionTitle : String
  subscriptionEndTime : Int
deriving DecidableEq, Repr

structure Env where
  systemName : String
  /-- `time.Unix(…, 0).Format("2006-01-02 15:04:05")` -/
  format : Int → String

def daysRemaining (delivery : EmailDelivery) (now : Int) : Int :=
  if delivery.subscriptionEndTime > 0 then
    let seconds := delivery.subscriptionEndTime - now
    if seconds > 0 then (seconds + 24 * 60 * 60 - 1).tdiv (24 * 60 * 60) else 0
  else 0

def Env.endTime (env : Env) (delivery : EmailDelivery) : String :=
  if delivery.subscriptionEndTime > 0 then env.format delivery.subscriptionEndTime else ""

def Env.values (env : Env) (delivery : EmailDelivery) (now : Int) : Field → String
  | .username => delivery.username
  | .displayName => delivery.displayName
  | .email => delivery.email
  | .systemName => env.systemName
  | .subscriptionName => delivery.subscriptionTitle
  | .subscriptionEndTime => env.endTime delivery
  | .daysRemaining => toString (daysRemaining delivery now)

/-- `html.EscapeString`. -/
def escapeString (s : String) : String :=
  String.ofList (s.toList.flatMap fun c =>
    if c = '&' then "&amp;".toList
    else if c = '\'' then "&#39;".toList
    else if c = '<' then "&lt;".toList
    else if c = '>' then "&gt;".toList
    else if c = '"' then "&#34;".toList
    else [c])

/-- `strings.ReplaceAll`, of a text that is not empty. -/
def replaceAll (s old new : String) : String :=
  String.ofList (Replace.replaceAll old.toList new.toList s.toList)

/-- A delivery, and how its texts are written. -/
structure Rendering where
  env : Env
  delivery : EmailDelivery
  now : Int
  escapeHTML : Bool

/-- What the loop puts in the place of a placeholder. -/
def Rendering.value (r : Rendering) (field : Field) : String :=
  let value := r.env.values r.delivery r.now field
  if r.escapeHTML then escapeString value else value

/-- The loop over the placeholders, in the order of the map. -/
def renderFields (r : Rendering) (order : List Field) (template : String) : String :=
  order.foldl (fun result field => replaceAll result field.placeholder (r.value field)) template

/-- The result for one order of the map. -/
def renderEmailCampaignTemplate (r : Rendering) (order : {order : List Field // order.Perm Field.all})
    (template : String) : String :=
  renderFields r order.1 template

/-! ### What is claimed of it -/

/-- How often a placeholder stands in a text. -/
def placesOf (field : Field) (text : String) : Nat :=
  occurrences field.placeholder.toList text.toList

/-- The template with the places of some fields filled at once. -/
def fillFields (r : Rendering) (fields : List Field) (template : String) : String :=
  String.ofList (filled (fun field => field.placeholder.toList) (fun field => (r.value field).toList)
    Field.all fields template.toList)

/-- Whatever the order, each placeholder is replaced where the template has it, and nowhere else,
and the result is the template filled at once. -/
structure Rendering.Simultaneous (r : Rendering) (template : String) : Prop where
  once : ∀ (order : {order : List Field // order.Perm Field.all}) before field after,
    order.1 = before ++ field :: after →
      placesOf field (renderFields r before template) = placesOf field template
  atOnce : ∀ order, renderEmailCampaignTemplate r order template = fillFields r Field.all template

/-- No value spells a placeholder, with the text around it: when all others are filled, it stands in
the text as often as in the template. -/
def Rendering.SpellsNone (r : Rendering) (template : String) : Prop :=
  ∀ field, placesOf field (fillFields r (Field.all.erase field) template) = placesOf field template

end JulongApi.EmailTemplate

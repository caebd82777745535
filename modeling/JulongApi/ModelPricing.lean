/-
The prices of models: `model/model_pricing_config.go`, and the keys of plugin expressions in
`setting/billing_setting/tiered_billing.go`.

A row holds the object that its text stands for, or nothing if the text is no object.  The store
runs the transactions one after the other, so a call is one step of it; the caches that a node
refreshes after its commit are left out.  Where the code goes over a map, entries are taken in the
order of their keys.
-/
import JulongApi.Lib.SortedMap
import JulongApi.Strings

namespace JulongApi.ModelPricing

abbrev Object (ν : Type) := SortedMap String ν

/-- A JSON value; arrays and objects are kept as their texts. -/
inductive Value where
  | null
  | bool (value : Bool)
  | number (value : Float)
  | string (value : String)
  | other (text : String)

inductive Field where
  | plain (value : Value)
  /-- an object, such as the expressions of plugins -/
  | group (entries : Object Value)

abbrev PricingValues := Object Field

/-- The option maps, by their keys. -/
abbrev PricingMaps := String → Object Value

def pluginBillingExprOption : String := "billing_setting.plugin_billing_expr"

def billingModeOption : String := "billing_setting.billing_mode"

def billingExprOption : String := "billing_setting.billing_expr"

def subscriptionOption : String := "billing_setting.per_request_subscription_allowed"

def modelPricingOptionKeys : List String := [
  "AudioCompletionRatio", "AudioRatio", "CacheRatio", "CompletionRatio",
  "CreateCacheRatio", "ImageRatio", "ModelPrice", "ModelRatio",
  billingExprOption, billingModeOption, subscriptionOption, pluginBillingExprOption]

def builtinBillingExpr : List (String × String) := [
  ("gpt-image-2",
    "tier(\"standard\", p * 5 + cr * 1.25 + img * 8 + img_cr * 2 + c * 30)"),
  ("gpt-image-2.5-sunburst",
    "tier(\"standard\", p * 5 + cr * 1.25 + img * 8 + img_cr * 2 + c * 30)"),
  ("gpt-image-2.5-flare",
    "tier(\"standard\", p * 5 + cr * 1.25 + img * 8 + img_cr * 2 + c * 30)"),
  ("gpt-6-astra",
    "len <= 272000 ? tier(\"standard\", p * 10 + c * 50 + cr * 1 + cc * 12.5) : " ++
      "tier(\"long_context\", p * 20 + c * 75 + cr * 2 + cc * 25)")]

def getBuiltinBillingExpr (name : String) : Option String := builtinBillingExpr.lookup name

/-! ### Plugins -/

def pluginBillingExprKey (pluginKey model : String) : String := pluginKey ++ "::" ++ model

def splitPluginBillingExprKey (key : String) : Option (String × String) :=
  match cut key "::" with
  | none => none
  | some (plugin, model) =>
    if validPluginKey plugin = false ∨ trimSpace model = "" then none else some (plugin, model)

/-- `jsplugin.LoadedPlugin`: a manifest is only loaded if its key is valid. -/
structure LoadedPlugin where
  key : String
  valid : validPluginKey key = true
  models : List String

/-- What a node validates prices with. -/
structure Node where
  /-- the plugins of its routing generation, by ascending keys -/
  plugins : List LoadedPlugin
  /-- `ResolveTaskModelAlias`: the key of a plugin, and the model as it declares it -/
  resolveTaskModelAlias : String → Option (String × String)
  /-- the error of `billingexpr.CompileFromCache` -/
  compile : String → Option String
  /-- whether `billingexpr.UsedUsageKeys` gives any -/
  usesUsage : String → Bool
  /-- the error of `billing_setting.SmokeTestExpr` -/
  smokeTestExpr : String → Option String
  /-- the error of `billing_setting.SmokeTestTaskExpr`, with the usage of a plugin for a model -/
  smokeTestTaskExpr : LoadedPlugin → String → String → Option String

def Node.get (node : Node) (key : String) : Option LoadedPlugin :=
  node.plugins.find? fun plugin => plugin.key = key

def Node.pluginsByModel (node : Node) (model : String) : List LoadedPlugin :=
  node.plugins.filter fun plugin => model ∈ plugin.models

def Node.sharedModel (node : Node) (model : String) : Bool :=
  (node.pluginsByModel model).length ≥ 2

/-! ### The values of a model -/

/-- The expressions that the plugins have for a model. -/
def pluginVariants (entries : Object Value) (name : String) : Object Value :=
  SortedMap.empty.setAll (entries.entries.filterMap fun (variant, expression) =>
    match splitPluginBillingExprKey variant with
    | some (plugin, model) => if model = name then some (plugin, expression) else none
    | none => none)

def pricingField (entries : Object Value) (key name : String) : Option Field :=
  if key = pluginBillingExprOption then
    let variants := pluginVariants entries name
    if variants.isEmpty then none else some (.group variants)
  else (entries.get name).map .plain

def modelPricingValues (values : PricingMaps) (name : String) : PricingValues :=
  modelPricingOptionKeys.foldl (fun result key =>
    match pricingField (values key) key name with
    | some field => result.set key field
    | none => result) .empty

/-- What the code does with JSON, and the built-in tables. -/
structure Codec where
  /-- `ModelPricingVersion`: the hash of the text -/
  version : PricingValues → String
  /-- the text of an object -/
  objectText : Object Value → String
  /-- `defaultPricingMaps` -/
  defaults : PricingMaps

def Field.stored (codec : Codec) : Field → Value
  | .plain value => value
  | .group entries => .other (codec.objectText entries)

def Field.entries : Option Field → Object Value
  | some (.group entries) => entries
  | some (.plain _) | none => .empty

/-- What becomes of one option map. -/
def replaceEntries (codec : Codec) (entries : Object Value) (key name : String)
    (draft : PricingValues) : Object Value :=
  if key = pluginBillingExprOption then
    let kept := entries.filter fun variant _ =>
      match splitPluginBillingExprKey variant with
      | some (_, model) => model ≠ name
      | none => true
    kept.setAll ((Field.entries (draft.get key)).entries.map fun (plugin, expression) =>
      (pluginBillingExprKey plugin name, expression))
  else
    match draft.get key with
    | some field => (entries.delete name).set name (field.stored codec)
    | none => entries.delete name

def replaceModelPricing (codec : Codec) (values : PricingMaps) (name : String)
    (draft : PricingValues) : PricingMaps :=
  modelPricingOptionKeys.foldl (fun values key =>
    Function.update values key (replaceEntries codec (values key) key name draft)) values

/-! ### Validation -/

def Value.isString (value : Value) (text : String) : Bool :=
  match value with
  | .string own => own == text
  | _ => false

def Field.isString (field : Field) (text : String) : Bool :=
  match field with
  | .plain value => value.isString text
  | .group _ => false

def failIf : Option String → Except String Unit
  | some message => .error message
  | none => .ok ()

def validateVariant (node : Node) (name : String) (previousVariants : Object Value)
    (key : String) (value : Value) : Except String Unit :=
  match value with
  | .string expression =>
    if trimSpace expression = "" then
      .error ("model " ++ name ++ ": plugin " ++ key ++ ": billing expression is required")
    else
      let declared := (node.get key).filter fun plugin => name ∈ plugin.models
      if (previousVariants.get key).any (·.isString expression) ∧
          (declared.isNone ∨ node.sharedModel name = false) then .ok ()
      else
        match declared with
        | none => .error ("model " ++ name ++ ": plugin " ++ key ++
            " does not declare this model")
        | some plugin => failIf ((node.smokeTestTaskExpr plugin name expression).map fun message =>
          "model " ++ name ++ ": plugin " ++ key ++ ": " ++ message)
  | _ => .error ("model " ++ name ++ ": plugin " ++ key ++ ": billing expression is required")

/-- The expression of the model, as the plugins that provide it use it. -/
def validateExpression (node : Node) (name expression : String) (unchanged : Bool)
    (variants previousVariants : Object Value) : Except String Unit :=
  let fail := fun error : Option String =>
    failIf (error.map fun message => "model " ++ name ++ ": " ++ message)
  let plugins := node.pluginsByModel name
  if plugins ≠ [] then
    plugins.forM fun plugin =>
      if (variants.get plugin.key).isSome ∨
          (unchanged = true ∧ (previousVariants.get plugin.key).isNone ∧ plugins.length = 1) then
        .ok ()
      else
        failIf ((node.smokeTestTaskExpr plugin name expression).map fun message =>
          "model " ++ name ++ ": plugin " ++ plugin.key ++ ": " ++ message)
  else
    match node.resolveTaskModelAlias name with
    | some (pluginKey, declared) =>
      match node.get pluginKey with
      | some plugin =>
        if unchanged = false ∨ node.sharedModel declared = true then
          fail (node.smokeTestTaskExpr plugin declared expression)
        else .ok ()
      | none => fail (node.smokeTestExpr expression)
    | none =>
      if unchanged = false ∨ node.usesUsage expression = false then
        fail (node.smokeTestExpr expression)
      else .ok ()

/-- One field of a draft, other than the expressions of plugins. -/
def validateField (node : Node) (name : String) (values previous : PricingValues)
    (key : String) (field : Field) : Except String Unit :=
  if key = pluginBillingExprOption then .ok ()
  else if key ∉ modelPricingOptionKeys then .error ("unsupported pricing field: " ++ key)
  else if key = subscriptionOption then
    match field with
    | .plain (.bool _) => .ok ()
    | _ => .error (key ++ " must be a boolean")
  else if key = billingModeOption then
    if field.isString "ratio" ∨ field.isString "tiered_expr" then .ok ()
    else .error "invalid billing mode"
  else if key = billingExprOption then
    match field with
    | .plain (.string expression) =>
      if trimSpace expression = "" then .error "billing expression is required"
      else
        match node.compile expression with
        | some message => .error ("model " ++ name ++ ": " ++ message)
        | none => validateExpression node name expression
            ((previous.get key).any (·.isString expression))
            (Field.entries (values.get pluginBillingExprOption))
            (Field.entries (previous.get pluginBillingExprOption))
    | _ => .error "billing expression is required"
  else
    match field with
    | .plain (.number number) =>
      if number.isNaN || number.isInf || decide (number < 0) then
        .error (key ++ " must be a finite, non-negative number")
      else .ok ()
    | _ => .error (key ++ " must be a finite, non-negative number")

def validateVariants (node : Node) (name : String) (values previous : PricingValues) :
    Except String Unit :=
  match values.get pluginBillingExprOption with
  | none => .ok ()
  | some (.plain _) => .error "plugin billing expressions must be a plugin-to-expression object"
  | some (.group variants) =>
    variants.entries.forM fun (key, value) =>
      validateVariant node name (Field.entries (previous.get pluginBillingExprOption)) key value

def validateModelPricing (node : Node) (name : String) (values previous : PricingValues) :
    Except String Unit := do
  if trimSpace name = "" then .error "model name is required" else .ok ()
  validateVariants node name values previous
  values.entries.forM fun (key, field) => validateField node name values previous key field
  if (values.get billingModeOption).any (·.isString "tiered_expr") ∧
      (values.get billingExprOption).isNone ∧ (getBuiltinBillingExpr name).isNone then
    .error "billing expression is required"
  else .ok ()

/-! ### The store -/

/-- `Option`. -/
structure Row where
  key : String
  value : Option (Object Value)

abbrev Store := List Row

inductive Failure where
  /-- `select model pricing changes before saving` -/
  | noChanges
  /-- `duplicate model pricing change` -/
  | duplicate
  /-- `ErrModelPricingConflict` -/
  | conflict
  /-- a row or an update that is no JSON object -/
  | malformed (key : String)
  | invalid (message : String)

/-- `readModelPricingMaps`: of several rows of one key the last one counts. -/
def readModelPricingMaps (codec : Codec) (store : Store) : Except Failure PricingMaps :=
  store.foldlM (fun values row =>
    if row.key ∈ modelPricingOptionKeys then
      match row.value with
      | some entries => .ok (Function.update values row.key entries)
      | none => .error (.malformed row.key)
    else .ok values) codec.defaults

/-- Rows for the options that have none. -/
def createMissing (codec : Codec) (store : Store) : Store :=
  store ++ (modelPricingOptionKeys.filter fun key => store.all fun row => row.key ≠ key).map
    fun key => ⟨key, some (codec.defaults key)⟩

def writeMaps (store : Store) (values : PricingMaps) : Store :=
  store.map fun row =>
    if row.key ∈ modelPricingOptionKeys then { row with value := some (values row.key) } else row

def mutateModelPricingOptions (codec : Codec) (store : Store)
    (mutate : PricingMaps → Except Failure PricingMaps) : Except Failure Store := do
  let values ← readModelPricingMaps codec store
  let values ← mutate values
  .ok (writeMaps (createMissing codec store) values)

/-! ### Calls -/

structure ModelPricingChange where
  modelName : String
  expectedVersion : String
  pricing : PricingValues
  reset : Bool := false

/-- The draft that a change brings; a reset brings the defaults. -/
def ModelPricingChange.draft (codec : Codec) (change : ModelPricingChange) : PricingValues :=
  if change.reset then modelPricingValues codec.defaults change.modelName else change.pricing

/-- The checks before the transaction. -/
def checkChanges : List String → List ModelPricingChange → Except Failure Unit
  | _, [] => .ok ()
  | seen, change :: rest =>
    if change.modelName ∈ seen then .error .duplicate
    else if change.expectedVersion = "" then .error .conflict
    else checkChanges (change.modelName :: seen) rest

def validate (node : Node) (name : String) (values previous : PricingValues) :
    Except Failure Unit :=
  (validateModelPricing node name values previous).mapError .invalid

def applyChange (codec : Codec) (node : Node) (values : PricingMaps)
    (change : ModelPricingChange) : Except Failure PricingMaps :=
  let previous := modelPricingValues values change.modelName
  if codec.version previous ≠ change.expectedVersion then .error .conflict
  else do
    let pricing := change.draft codec
    validate node change.modelName pricing previous
    .ok (replaceModelPricing codec values change.modelName pricing)

def updateModelPricing (codec : Codec) (node : Node) (changes : List ModelPricingChange)
    (store : Store) : Except Failure Store :=
  if changes = [] then .error .noChanges
  else do
    checkChanges [] changes
    mutateModelPricingOptions codec store fun values =>
      changes.foldlM (applyChange codec node) values

/-- The models that the keys of an option map belong to. -/
def entryNames (key : String) (entries : Object Value) : Except Failure (List String) :=
  if key = pluginBillingExprOption then
    entries.keys.mapM fun variant =>
      match splitPluginBillingExprKey variant with
      | some (_, model) => .ok model
      | none => .error (.invalid ("invalid plugin billing expression key: " ++ variant))
  else .ok entries.keys

/-- One option of `UpdateModelPricingOptions`, with the models that it is about. -/
def applyUpdate (state : PricingMaps × List String) (update : String × Option (Object Value)) :
    Except Failure (PricingMaps × List String) :=
  let (values, names) := state
  let (key, entries) := update
  if key ∉ modelPricingOptionKeys then .error (.invalid ("unsupported pricing field: " ++ key))
  else
    match entries with
    | none => .error (.malformed key)
    | some entries => do
        let before ← entryNames key (values key)
        let after ← entryNames key entries
        .ok (Function.update values key entries, names ++ before ++ after)

def updateModelPricingOptions (codec : Codec) (node : Node)
    (updates : Object (Option (Object Value))) (store : Store) : Except Failure Store :=
  mutateModelPricingOptions codec store fun previous => do
    let (values, names) ← updates.entries.foldlM applyUpdate (previous, [])
    names.forM fun name =>
      validate node name (modelPricingValues values name) (modelPricingValues previous name)
    .ok values

/-! ### Runs -/

inductive Call where
  | pricing (node : Node) (changes : List ModelPricingChange)
  | options (node : Node) (updates : Object (Option (Object Value)))

def Call.transaction (codec : Codec) (store : Store) : Call → Except Failure Store
  | .pricing node changes => updateModelPricing codec node changes store
  | .options node updates => updateModelPricingOptions codec node updates store

/-- A transaction that fails changes nothing. -/
def Call.run (codec : Codec) (store : Store) (call : Call) : Store :=
  match call.transaction codec store with
  | .ok committed => committed
  | .error _ => store

end JulongApi.ModelPricing

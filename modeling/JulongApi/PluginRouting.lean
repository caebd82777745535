/-
Routing generations of plugins: what `pkg/jsplugin/routing.go` builds of the plugins in effect, and
which of them it admits.

A map of plugins is a table by their keys.  Go ranges over a map in any order, which is a parameter
here.  Of a plugin only the parts of its manifest that routing looks at are kept, with what
`normalizeV1Meta` has checked of them.
-/
import JulongApi.RoutePattern
import JulongApi.Lib.Table

namespace JulongApi.PluginRouting

/-! ### Host protocols -/

structure HostProtocolOperation where
  methods : List String
  path : String
  modelField : String
deriving DecidableEq, Repr

structure HostProtocolDefinition where
  name : String
  operations : List HostProtocolOperation
deriving DecidableEq, Repr

def hostProtocols : List HostProtocolDefinition :=
  [⟨"openai_responses",
      [⟨["POST"], "/v1/responses", "model"⟩, ⟨["GET"], "/v1/responses/:response_id", ""⟩]⟩,
    ⟨"openai_video",
      [⟨["POST"], "/v1/videos", "model"⟩, ⟨["GET"], "/v1/videos/:task_id", ""⟩,
        ⟨["GET", "HEAD"], "/v1/videos/:task_id/content", ""⟩]⟩,
    ⟨"openai_image",
      [⟨["POST"], "/v1/images/generations", "model"⟩, ⟨["POST"], "/v1/images/edits", "model"⟩]⟩]

def hostProtocol (name : String) : Option HostProtocolDefinition :=
  hostProtocols.find? fun definition => definition.name = name

/-! ### Manifests -/

structure Route where
  method : String
  path : String
deriving DecidableEq, Repr

structure ProtocolClaim where
  name : String
  models : List String
deriving DecidableEq, Repr

structure Meta where
  key : String
  models : List String
  channelTypes : List Int
  routes : List Route
  protocols : List ProtocolClaim
deriving DecidableEq, Repr

def asciiFold (s : String) : String := String.ofList (s.toList.map Char.toLower)

def channelTypeTaskPlugin : Int := 61

def channelTypeNewAPI : Int := 60

/-- What the route index goes by. -/
def Route.indexKey (route : Route) : Except RoutePathError String :=
  routePathShape route.path >>= fun shape => .ok (route.method ++ " " ++ shape)

/-- Whether `validateRoute` accepts the method and the path. -/
def validateRoute (route : Route) : Bool :=
  route.method ∈ ["GET", "POST", "PUT", "PATCH", "DELETE"] &&
    (normalizeRoutePath route.path).toOption = some route.path &&
    (intersectingReservedNamespace route.path).isNone

def validateModelScope (models : List String) : Bool :=
  (models.all fun model => trimSpace model ≠ "" && trimSpace model = model) &&
    decide (models.map asciiFold).Nodup

/-- Whether `normalizeV1Meta` accepts the parts of a manifest. -/
def validateV1Meta (manifest : Meta) : Bool :=
  validPluginKey manifest.key && manifest.models ≠ [] &&
    (manifest.channelTypes.all fun channelType =>
      0 < channelType && channelType ≠ channelTypeTaskPlugin && channelType ≠ channelTypeNewAPI) &&
    decide manifest.channelTypes.Nodup &&
    validateModelScope manifest.models &&
    manifest.routes.all validateRoute &&
    decide ((manifest.routes.map fun route => route.indexKey.toOption).Nodup) &&
    (manifest.protocols.all fun claim =>
      (hostProtocol claim.name).isSome && validateModelScope claim.models &&
        claim.models.all fun model => model ∈ manifest.models) &&
    decide (manifest.protocols.map ProtocolClaim.name).Nodup

/-- A plugin that was loaded, and the address it is known by. -/
structure LoadedPlugin extends Meta where
  pointer : Nat
  valid : validateV1Meta toMeta = true
deriving DecidableEq, Repr

abbrev PluginMap := Table fun plugin : LoadedPlugin => plugin.key

def PluginMap.empty : PluginMap := ⟨[], .nil⟩

/-- An order in which Go ranges over the keys of a map. -/
structure MapOrder where
  range : List String → List String
  perm : ∀ keys, (range keys).Perm keys

/-! ### Generations -/

structure RouteBinding where
  plugin : LoadedPlugin
  route : Route
deriving DecidableEq, Repr

structure ProtocolBinding where
  plugin : LoadedPlugin
  protocol : String
  operation : HostProtocolOperation
  model : String
deriving DecidableEq, Repr

structure RoutingGeneration where
  number : Nat
  byKey : String → Option LoadedPlugin
  byModel : String → Option LoadedPlugin
  modelPlugins : String → List LoadedPlugin
  canonicalModelByFold : String → Option String
  byChannelType : Int → Option LoadedPlugin
  routeIndex : String → Option RouteBinding
  protocolIndex : String → List ProtocolBinding
  plugins : List LoadedPlugin
  routes : List RouteBinding
  /-- the routes of the inner router, once there is one -/
  runtime : Option (List RouteBinding)
  retainCurrent : List String

def RoutingGeneration.empty (number : Nat) : RoutingGeneration where
  number := number
  byKey := fun _ => none
  byModel := fun _ => none
  modelPlugins := fun _ => []
  canonicalModelByFold := fun _ => none
  byChannelType := fun _ => none
  routeIndex := fun _ => none
  protocolIndex := fun _ => []
  plugins := []
  routes := []
  runtime := none
  retainCurrent := []

def endpointIndexKey (method path model : String) : String :=
  method ++ "\x00" ++ path ++ "\x00" ++ model

inductive RoutingError where
  | model (plugin model other existing : String)
  | channelType (plugin : String) (channelType : Int) (other : String)
  | path (error : RoutePathError)
  | route (plugin : String) (route : Route) (other : String) (otherRoute : Route)
  | protocol (plugin method path model other : String)
deriving DecidableEq, Repr

def addModel (plugin : LoadedPlugin) (generation : RoutingGeneration) (model : String) :
    Except RoutingError RoutingGeneration :=
  let generation := { generation with
    modelPlugins := Function.update generation.modelPlugins model
      (generation.modelPlugins model ++ [plugin])
    byModel :=
      if (generation.byModel model).isSome then generation.byModel
      else Function.update generation.byModel model (some plugin) }
  match generation.canonicalModelByFold (asciiFold model) with
  | some existing =>
    if existing ≠ model then
      let other := ((generation.byModel existing).getD plugin).key
      .error (.model plugin.key model other existing)
    else .ok generation
  | none =>
    .ok { generation with
      canonicalModelByFold :=
        Function.update generation.canonicalModelByFold (asciiFold model) (some model) }

/-- Channel types that are passed over. -/
def skipped (channelType : Int) : Bool := channelType = 0 || channelType = channelTypeTaskPlugin

def addChannelType (plugin : LoadedPlugin) (generation : RoutingGeneration) (channelType : Int) :
    Except RoutingError RoutingGeneration :=
  if skipped channelType then .ok generation
  else
    match generation.byChannelType channelType with
    | some other => .error (.channelType plugin.key channelType other.key)
    | none =>
      .ok { generation with
        byChannelType := Function.update generation.byChannelType channelType (some plugin) }

def addRoute (plugin : LoadedPlugin) (generation : RoutingGeneration) (route : Route) :
    Except RoutingError RoutingGeneration :=
  match route.indexKey with
  | .error error => .error (.path error)
  | .ok indexKey =>
    match generation.routeIndex indexKey with
    | some other => .error (.route plugin.key route other.plugin.key other.route)
    | none =>
      let binding : RouteBinding := ⟨plugin, route⟩
      .ok { generation with
        routeIndex := Function.update generation.routeIndex indexKey (some binding)
        routes := generation.routes ++ [binding] }

/-- The endpoints of a plugin: its claims, their operations with a model field, the methods of these,
and the models that are bound. -/
def LoadedPlugin.endpoints (plugin : LoadedPlugin) : List (String × ProtocolBinding) :=
  plugin.protocols.flatMap fun claim =>
    let operations := ((hostProtocol claim.name).map HostProtocolDefinition.operations).getD []
    let boundModels := if claim.models ≠ [] then claim.models else plugin.models
    (operations.filter fun operation => operation.modelField ≠ "").flatMap fun operation =>
      operation.methods.flatMap fun method =>
        boundModels.map fun model => (method, ⟨plugin, claim.name, operation, model⟩)

def addEndpoint (plugin : LoadedPlugin) (generation : RoutingGeneration)
    (endpoint : String × ProtocolBinding) : Except RoutingError RoutingGeneration :=
  let (method, binding) := endpoint
  let indexKey := endpointIndexKey method binding.operation.path binding.model
  let bindings := generation.protocolIndex indexKey
  match bindings.head? with
  | some other =>
    if binding.protocol ≠ other.protocol then
      .error (.protocol plugin.key method binding.operation.path binding.model other.plugin.key)
    else
      .ok { generation with
        protocolIndex :=
          Function.update generation.protocolIndex indexKey (bindings ++ [binding]) }
  | none =>
    .ok { generation with
      protocolIndex := Function.update generation.protocolIndex indexKey (bindings ++ [binding]) }

/-- One turn of the loop of `buildRoutingGenerationFromPlugins`. -/
def addPlugin (generation : RoutingGeneration) (plugin : LoadedPlugin) :
    Except RoutingError RoutingGeneration :=
  let generation := { generation with
    byKey := Function.update generation.byKey plugin.key (some plugin)
    plugins := generation.plugins ++ [plugin] }
  plugin.models.foldlM (addModel plugin) generation >>= fun generation =>
    plugin.channelTypes.foldlM (addChannelType plugin) generation >>= fun generation =>
      plugin.routes.foldlM (addRoute plugin) generation >>= fun generation =>
        plugin.endpoints.foldlM (addEndpoint plugin) generation

def sortStrings (keys : List String) : List String := keys.insertionSort (· ≤ ·)

/-- The plugins of a map in the order of their keys. -/
def PluginMap.inOrder (order : MapOrder) (plugins : PluginMap) : List LoadedPlugin :=
  (sortStrings (order.range (plugins.rows.map (·.key)))).filterMap plugins.find

def buildRoutingGenerationFromPlugins (order : MapOrder) (effective : PluginMap) (number : Nat) :
    Except RoutingError RoutingGeneration :=
  (effective.inOrder order).foldlM addPlugin (.empty number)

def effectivePlugins (factory override : PluginMap) : PluginMap :=
  override.rows.foldl Table.put factory

/-- What stands for a key: the override, or the factory plugin where there is none. -/
def IsCandidate (factory override : PluginMap) (key : String) (p : LoadedPlugin) : Prop :=
  (override.find key).or (factory.find key) = some p

/-! ### Admission -/

/-- The orders of the ranges over maps in `buildRoutingGenerationAdmitting`: over no plugins, over the
candidates, and over the accepted plugins in the turn of a candidate and of an incumbent. -/
structure MapOrders where
  initial : MapOrder
  candidates : MapOrder
  trial : String → MapOrder
  fallback : String → MapOrder

/-- The state of the loops of `buildRoutingGenerationAdmitting`. -/
structure Admission where
  accepted : PluginMap
  generation : RoutingGeneration
  routingErrors : String → Option RoutingError
  rejectedKeys : List String

/-- A candidate is admitted if a generation can be built with it. -/
def Admission.tryCandidate (orders : MapOrders) (number : Nat) (candidates : PluginMap)
    (s : Admission) (key : String) : Admission :=
  match candidates.find key with
  | none => s
  | some candidate =>
    match buildRoutingGenerationFromPlugins (orders.trial key) (s.accepted.put candidate) number with
    | .ok trial => { s with accepted := s.accepted.put candidate, generation := trial }
    | .error trialErr =>
      { s with
        accepted := (s.accepted.put candidate).erase key
        routingErrors := Function.update s.routingErrors key (some trialErr)
        rejectedKeys := s.rejectedKeys ++ [key] }

/-- The plugin that served before takes the place of a rejected one, if a generation can be built
with it. -/
def Admission.tryIncumbent (orders : MapOrders) (number : Nat) (candidates currentByKey : PluginMap)
    (retainCurrent : List String) (s : Admission) (key : String) : Admission :=
  match currentByKey.find key with
  | none => s
  | some incumbent =>
    if key ∉ retainCurrent ∨ candidates.find key = some incumbent then s
    else
      match buildRoutingGenerationFromPlugins (orders.fallback key) (s.accepted.put incumbent)
        number with
      | .ok fallback => { s with accepted := s.accepted.put incumbent, generation := fallback }
      | .error _ => { s with accepted := (s.accepted.put incumbent).erase key }

/-- The plugins of the generation that is served, by their keys. -/
def currentByKey (current : Option RoutingGeneration) : PluginMap :=
  match current with
  | none => .empty
  | some generation => generation.plugins.foldl Table.put .empty

/-- The keys of the candidates that did not change, of those that did, and of the new ones. -/
def orderedKeys (order : MapOrder) (candidates current : PluginMap) : List String :=
  let keys := order.range (candidates.rows.map (·.key))
  let unchangedKeys := keys.filter fun key =>
    (current.find key).isSome && candidates.find key = current.find key
  let changedKeys := keys.filter fun key =>
    (current.find key).isSome && candidates.find key ≠ current.find key
  let newKeys := keys.filter fun key => (current.find key).isNone
  sortStrings unchangedKeys ++ sortStrings changedKeys ++ sortStrings newKeys

def buildRoutingGenerationAdmitting (orders : MapOrders) (factory override : PluginMap)
    (number : Nat) (current : Option RoutingGeneration) (retainCurrent : List String) :
    Except RoutingError (RoutingGeneration × (String → Option RoutingError)) :=
  let candidates := effectivePlugins factory override
  let currentByKey := currentByKey current
  buildRoutingGenerationFromPlugins orders.initial .empty number >>= fun generation =>
    let start : Admission := ⟨.empty, generation, fun _ => none, []⟩
    let first := (orderedKeys orders.candidates candidates currentByKey).foldl
      (Admission.tryCandidate orders number candidates) start
    let last := first.rejectedKeys.foldl
      (Admission.tryIncumbent orders number candidates currentByKey retainCurrent) first
    .ok ({ last.generation with retainCurrent := retainCurrent }, last.routingErrors)

/-! ### Conflicts -/

/-- The index key of an endpoint. -/
def endpointKey (endpoint : String × ProtocolBinding) : String :=
  endpointIndexKey endpoint.1 endpoint.2.operation.path endpoint.2.model

/-- Two plugins cannot be served together: they spell a model differently, they claim one channel
type, they declare routes of one shape, or they serve one endpoint under different protocols. -/
def Conflict (p q : LoadedPlugin) : Prop :=
  (∃ model ∈ p.models, ∃ other ∈ q.models, asciiFold model = asciiFold other ∧ model ≠ other) ∨
  (∃ channelType ∈ p.channelTypes, channelType ∈ q.channelTypes) ∨
  (∃ route ∈ p.routes, ∃ other ∈ q.routes, route.indexKey.toOption = other.indexKey.toOption) ∨
  (∃ endpoint ∈ p.endpoints, ∃ other ∈ q.endpoints,
    endpointKey endpoint = endpointKey other ∧ endpoint.2.protocol ≠ other.2.protocol)

instance (p q : LoadedPlugin) : Decidable (Conflict p q) :=
  inferInstanceAs (Decidable (_ ∨ _ ∨ _ ∨ _))

/-- Every two plugins of a generation can be served together. -/
def RoutingGeneration.ConflictFree (generation : RoutingGeneration) : Prop :=
  (generation.plugins.map (·.key)).Nodup ∧
    ∀ p ∈ generation.plugins, ∀ q ∈ generation.plugins, p.key ≠ q.key → ¬Conflict p q

end JulongApi.PluginRouting

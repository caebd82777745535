/-
The inner router of plugin routes: what `router/plugin-router.go` publishes.

Plugins whose routes meet a route of the host or of a plugin accepted before are left out, and what
served before them stays if its own routes meet none.  The generation is built again of what was
accepted, with an engine that has its routes.  A plugin at whose route Gin panics is blocked, and
all of it is done again.

Gin is not part of the repository: whether a registration panics is a parameter, and so is the order
of a range over a map.
-/
import JulongApi.PluginRouting

namespace JulongApi.PluginRouting

/-- A route of the host, which Gin has registered. -/
structure StaticRoute where
  method : String
  path : String
  registered : GinPath path

structure PluginGenerationBuilder where
  staticRoutes : List StaticRoute
  /-- the error of `configure` -/
  configureErr : Option String
  /-- registering a route panics, after these -/
  panics : List RouteBinding → RouteBinding → Bool

/-! ### Validation -/

/-- Why a plugin is rejected from public routes. -/
inductive PublicRouteError where
  | static (route : Route) (method path : String)
  | overlap (route right : Route)
  | wildcardNames (route right : Route)
  | taken (route : Route) (other : String) (otherRoute : Route)
  | incompatible (route : Route) (other : String) (otherRoute : Route)
  | panicked (plugin : String)
deriving DecidableEq, Repr

/-- The first loop of `validatePlugin`. -/
def staticRouteError (b : PluginGenerationBuilder) (plugin : LoadedPlugin) :
    Option PublicRouteError :=
  plugin.routes.findSome? fun route =>
    b.staticRoutes.findSome? fun staticRoute =>
      if routeIntersectsStaticRoute route.path staticRoute.path then
        some (.static route staticRoute.method staticRoute.path)
      else none

/-- The second loop, over the routes of the plugin itself. -/
def ownRouteError : List Route → Option PublicRouteError
  | [] => none
  | left :: rest =>
    (rest.findSome? fun right =>
      if left.method ≠ right.method then none
      else if routePatternsIntersect left.path right.path then some (.overlap left right)
      else if !routesGinCompatible left.path right.path then some (.wildcardNames left right)
      else none).or (ownRouteError rest)

/-- The third loop, for one of the accepted plugins. -/
def otherRouteError (plugin other : LoadedPlugin) : Option PublicRouteError :=
  if other.key = plugin.key then none
  else
    plugin.routes.findSome? fun route =>
      other.routes.findSome? fun otherRoute =>
        if routePatternsIntersect route.path otherRoute.path then
          some (.taken route other.key otherRoute)
        else if route.method = otherRoute.method && !routesGinCompatible route.path otherRoute.path
        then some (.incompatible route other.key otherRoute)
        else none

def validatePlugin (b : PluginGenerationBuilder) (order : MapOrder) (plugin : LoadedPlugin)
    (accepted : PluginMap) : Option PublicRouteError :=
  (staticRouteError b plugin).or <| (ownRouteError plugin.routes).or <|
    ((order.range (accepted.rows.map (·.key))).filterMap accepted.find).findSome?
      (otherRouteError plugin)

/-! ### Admission -/

/-- The state of the loops of `admitPlugins`. -/
structure PublicAdmission where
  accepted : PluginMap
  routingErrors : String → Option PublicRouteError
  rejectedKeys : List String

/-- The plugins that serve, if the generation has a router. -/
def servingByKey (current : Option RoutingGeneration) : PluginMap :=
  match current with
  | none => .empty
  | some generation =>
    if generation.runtime.isSome then generation.plugins.foldl Table.put .empty else .empty

/-- The keys of the plugins that serve already, of those that take the place of one, and of the new
ones. -/
def publicKeys (plugins : List LoadedPlugin) (serving : PluginMap) : List String :=
  let unchanged := plugins.filter fun plugin => serving.find plugin.key = some plugin
  let changed := plugins.filter fun plugin =>
    (serving.find plugin.key).isSome && serving.find plugin.key ≠ some plugin
  let fresh := plugins.filter fun plugin => (serving.find plugin.key).isNone
  sortStrings (unchanged.map (·.key)) ++ sortStrings (changed.map (·.key)) ++
    sortStrings (fresh.map (·.key))

/-- One turn of the first loop of `admitPlugins`. -/
def PublicAdmission.tryPlugin (b : PluginGenerationBuilder) (orders : MapOrders)
    (candidate : RoutingGeneration) (blocked : List LoadedPlugin) (s : PublicAdmission)
    (key : String) : PublicAdmission :=
  match candidate.byKey key with
  | none => s
  | some plugin =>
    let rejected (error : PublicRouteError) : PublicAdmission := { s with
      routingErrors := Function.update s.routingErrors key (some error)
      rejectedKeys := s.rejectedKeys ++ [key] }
    if plugin ∈ blocked then rejected (.panicked plugin.key)
    else
      match validatePlugin b (orders.trial key) plugin s.accepted with
      | some error => rejected error
      | none => { s with accepted := s.accepted.put plugin }

/-- One turn of the second loop. -/
def PublicAdmission.tryServing (b : PluginGenerationBuilder) (orders : MapOrders)
    (candidate : RoutingGeneration) (serving : PluginMap) (blocked : List LoadedPlugin)
    (s : PublicAdmission) (key : String) : PublicAdmission :=
  match serving.find key with
  | none => s
  | some incumbent =>
    if candidate.byKey key = some incumbent ∨ key ∉ candidate.retainCurrent then s
    else if incumbent ∈ blocked then
      { s with
        routingErrors :=
          Function.update s.routingErrors key (some (.panicked incumbent.key)) }
    else
      match validatePlugin b (orders.fallback key) incumbent s.accepted with
      | some _ => s
      | none => { s with accepted := s.accepted.put incumbent }

def admitPlugins (b : PluginGenerationBuilder) (orders : MapOrders) (candidate : RoutingGeneration)
    (current : Option RoutingGeneration) (blocked : List LoadedPlugin) : PublicAdmission :=
  let serving := servingByKey current
  let start : PublicAdmission := ⟨.empty, fun _ => none, []⟩
  let first := (publicKeys candidate.plugins serving).foldl
    (PublicAdmission.tryPlugin b orders candidate blocked) start
  first.rejectedKeys.foldl (PublicAdmission.tryServing b orders candidate serving blocked) first

/-! ### The generation and its engine -/

inductive RebuildError where
  | absent (plugin : String)
  | duplicate (plugin : String)
  | routing (error : RoutingError)
deriving DecidableEq, Repr

/-- The loop of `RebuildWithPlugins`. -/
def collectPlugin (g : RoutingGeneration) (byKey : PluginMap) (plugin : LoadedPlugin) :
    Except RebuildError PluginMap :=
  if (g.byKey plugin.key).isNone then .error (.absent plugin.key)
  else if (byKey.find plugin.key).isSome then .error (.duplicate plugin.key)
  else .ok (byKey.put plugin)

def buildRoutingGeneration (order : MapOrder) (factory override : PluginMap) (number : Nat) :
    Except RoutingError RoutingGeneration :=
  buildRoutingGenerationFromPlugins order (effectivePlugins factory override) number

def RoutingGeneration.rebuildWithPlugins (order : MapOrder) (g : RoutingGeneration)
    (plugins : List LoadedPlugin) : Except RebuildError RoutingGeneration :=
  plugins.foldlM (collectPlugin g) .empty >>= fun byKey =>
    match buildRoutingGeneration order byKey .empty g.number with
    | .error error => .error (.routing error)
    | .ok rebuilt => .ok { rebuilt with retainCurrent := g.retainCurrent }

inductive EngineError where
  | configure (error : String)
  | panicked (offender : String)
deriving DecidableEq, Repr

def EngineError.offender : EngineError → String
  | configure _ => ""
  | panicked offender => offender

/-- The loop of `buildInnerEngine`. -/
def registerRoutes (b : PluginGenerationBuilder) (registered : List RouteBinding) :
    List RouteBinding → Except EngineError (List RouteBinding)
  | [] => .ok registered
  | binding :: rest =>
    if b.panics registered binding then .error (.panicked binding.plugin.key)
    else registerRoutes b (registered ++ [binding]) rest

def buildInnerEngine (b : PluginGenerationBuilder) (generation : RoutingGeneration) :
    Except EngineError (List RouteBinding) :=
  match b.configureErr with
  | some error => .error (.configure error)
  | none => registerRoutes b [] generation.routes

/-! ### Preparation -/

inductive PrepareError where
  | rebuild (error : RebuildError)
  | engine (error : EngineError)
  | absent (offender : String)
deriving DecidableEq, Repr

/-- `PreparedRoutingGeneration`. -/
structure Prepared where
  generation : RoutingGeneration
  errors : String → Option PublicRouteError

/-- How a round of `prepare` ends: with its result, or with one more plugin blocked. -/
inductive Round where
  | result (result : Except PrepareError Prepared)
  | again (blocked : List LoadedPlugin)

section Prepare

variable (b : PluginGenerationBuilder) (orders : List LoadedPlugin → MapOrders)
  (candidate : RoutingGeneration) (current : Option RoutingGeneration)

/-- What the builder accepts once these plugins are blocked. -/
def acceptedPlugins (blocked : List LoadedPlugin) : PublicAdmission :=
  admitPlugins b (orders blocked) candidate current blocked

def prepareRound (blocked : List LoadedPlugin) : Round :=
  let admission := acceptedPlugins b orders candidate current blocked
  let order := (orders blocked).candidates
  match candidate.rebuildWithPlugins order (admission.accepted.inOrder order) with
  | .error error => .result (.error (.rebuild error))
  | .ok filtered =>
    match buildInnerEngine b filtered with
    | .ok engine =>
      .result (.ok ⟨{ filtered with runtime := some engine }, admission.routingErrors⟩)
    | .error error =>
      if error.offender = "" then .result (.error (.engine error))
      else
        match admission.accepted.find error.offender with
        | none => .result (.error (.absent error.offender))
        | some failedPlugin => .again (failedPlugin :: blocked)

/-- The loop of `prepare`, for so many rounds. -/
def prepareRounds : Nat → List LoadedPlugin → Option (Except PrepareError Prepared)
  | 0, _ => none
  | fuel + 1, blocked =>
    match prepareRound b orders candidate current blocked with
    | .result result => some result
    | .again blocked => prepareRounds fuel blocked

/-- `prepare` ends with this result. -/
def Prepares (result : Except PrepareError Prepared) : Prop :=
  ∃ fuel, prepareRounds b orders candidate current fuel [] = some result

/-- The plugins that are blocked in the rounds of `prepare`. -/
inductive RoundOf : List LoadedPlugin → Prop
  | first : RoundOf []
  | next {blocked blocked' : List LoadedPlugin} (h : RoundOf blocked)
      (hround : prepareRound b orders candidate current blocked = .again blocked') : RoundOf blocked'

/-- A plugin that is put back in this round conflicts with no other that is accepted. -/
def RestoresConsistent (blocked : List LoadedPlugin) : Prop :=
  ∀ p ∈ (acceptedPlugins b orders candidate current blocked).accepted.rows, p ∉ candidate.plugins →
    ∀ q ∈ (acceptedPlugins b orders candidate current blocked).accepted.rows, q.key ≠ p.key →
      ¬Conflict p q

end Prepare

end JulongApi.PluginRouting

/-
Paths of plugin routes: what `pkg/jsplugin/routing.go` accepts of them, and how
`router/plugin-router.go` tells whether two of them may match one request.

A path is cut at its slashes.  A segment that starts with a colon is a parameter, and one that
starts with an asterisk takes all that is left of the path.
-/
import JulongApi.Strings
import JulongApi.Lib.Except

namespace JulongApi.PluginRouting

/-- The segments after the first slash. -/
def segmentsOf (path : String) : List String := split (trimPrefix path "/") '/'

/-! ### Paths of declarations -/

/-- `pathNamePattern`. -/
def pathName (name : String) : Bool :=
  match name.toList with
  | [] => false
  | c :: rest => (c.isAlpha || c = '_') && rest.all fun c => c.isAlphanum || c = '_'

def staticSegment (segment : String) : Bool :=
  segment ≠ "" && segment.toList.all fun c => c.isAlphanum || c ∈ ['.', '_', '~', '-']

/-- The errors of `NormalizeRoutePath`, which name the path and these segments. -/
inductive RoutePathError where
  | notAbsolute
  | root
  | query
  | emptySegment
  | dotSegment
  | invalidParameter (segment : String)
  | repeated (name : String)
  | invalidCatchAll
  | invalidSegment (segment : String)
deriving DecidableEq, Repr

/-- The loop of `NormalizeRoutePath`. -/
def checkSegments (seenNames : List String) : List String → Except RoutePathError Unit
  | [] => .ok ()
  | segment :: rest =>
    if segment = "" ∧ rest = [] then .ok ()
    else if segment = "." ∨ segment = ".." then .error .dotSegment
    else
      match cutPrefix segment ":" with
      | some name =>
        if !pathName name then .error (.invalidParameter segment)
        else if name ∈ seenNames then .error (.repeated name)
        else checkSegments (name :: seenNames) rest
      | none =>
        match cutPrefix segment "*" with
        | some name =>
          if rest ≠ [] || !pathName name then .error .invalidCatchAll
          else if name ∈ seenNames then .error (.repeated name)
          else checkSegments (name :: seenNames) rest
        | none =>
          if !staticSegment segment then .error (.invalidSegment segment)
          else checkSegments seenNames rest

def normalizeRoutePath (routePath : String) : Except RoutePathError String :=
  if !hasPrefix routePath "/" then .error .notAbsolute
  else if routePath = "/" then .error .root
  else if routePath.toList.any (· ∈ ['?', '#', '%']) then .error .query
  else if contains routePath "//" then .error .emptySegment
  else checkSegments [] (segmentsOf routePath) >>= fun _ => .ok routePath

def routePathShape (routePath : String) : Except RoutePathError String :=
  normalizeRoutePath routePath >>= fun normalized =>
    .ok ("/" ++ "/".intercalate ((segmentsOf normalized).map fun segment =>
      if hasPrefix segment ":" then ":" else if hasPrefix segment "*" then "*" else segment))

/-! ### Reserved namespaces -/

def reservedRouteNamespaces : List String :=
  ["/api", "/assets", "/setup", "/v1/tasks", "/console", "/login", "/forbidden", "/sign-in",
    "/sign-up", "/forgot-password", "/oauth", "/otp", "/register", "/reset", "/privacy-policy",
    "/user-agreement", "/about", "/pricing", "/rankings", "/user", "/401", "/403", "/404", "/500",
    "/503", "/chat2link", "/system-settings", "/channels", "/chat", "/dashboard", "/errors", "/keys",
    "/models", "/playground", "/profile", "/redemption-codes", "/subscriptions", "/system-info",
    "/task-plugins", "/usage-logs", "/users", "/wallet"]

/-- The loop of `routePatternIntersectsNamespace`. -/
def segmentsMeetNamespace : List String → List String → Bool
  | _, [] => true
  | [], _ :: _ => false
  | routeSegment :: rest, namespaceSegment :: namespaceRest =>
    if hasPrefix routeSegment "*" then true
    else if !hasPrefix routeSegment ":" && routeSegment ≠ namespaceSegment then false
    else segmentsMeetNamespace rest namespaceRest

def routePatternIntersectsNamespace (routePath reserved : String) : Bool :=
  segmentsMeetNamespace (split (trimChar (trimPrefix routePath "/") '/') '/') (segmentsOf reserved)

def intersectingReservedNamespace (routePath : String) : Option String :=
  reservedRouteNamespaces.find? (routePatternIntersectsNamespace routePath)

/-! ### Two patterns -/

structure RoutePatternSegment where
  value : String
  dynamic : Bool
  catchAll : Bool
deriving DecidableEq, Repr

def RoutePatternSegment.of (part : String) : RoutePatternSegment where
  value := part
  dynamic := hasPrefix part ":" || hasPrefix part "*"
  catchAll := hasPrefix part "*"

def parseRoutePattern (routePath : String) : List RoutePatternSegment :=
  (segmentsOf routePath).map .of

def segmentsIntersect : List RoutePatternSegment → List RoutePatternSegment → Bool
  | [], [] => true
  | [], _ :: _ | _ :: _, [] => false
  | left :: leftRest, right :: rightRest =>
    if left.catchAll || right.catchAll then true
    else if !left.dynamic && !right.dynamic && left.value ≠ right.value then false
    else if (left.dynamic && right.value = "") || (right.dynamic && left.value = "") then false
    else segmentsIntersect leftRest rightRest

def routePatternsIntersect (leftPath rightPath : String) : Bool :=
  segmentsIntersect (parseRoutePattern leftPath) (parseRoutePattern rightPath)

def segmentsGinCompatible : List RoutePatternSegment → List RoutePatternSegment → Bool
  | left :: leftRest, right :: rightRest =>
    if !left.dynamic && !right.dynamic then
      if left.value ≠ right.value then true else segmentsGinCompatible leftRest rightRest
    else if left.dynamic && right.dynamic then
      if left.value ≠ right.value then false else segmentsGinCompatible leftRest rightRest
    else true
  | [], _ | _ :: _, [] => true

def routesGinCompatible (leftPath rightPath : String) : Bool :=
  segmentsGinCompatible (parseRoutePattern leftPath) (parseRoutePattern rightPath)

/-- The end of `routeIntersectsStaticRoute`: with one slash more, or one less. -/
def routeIntersectsAlternate (pluginPath staticPath : String) : Bool :=
  if staticPath = "/" then false
  else
    match cutSuffix staticPath "/" with
    | some alternate => routePatternsIntersect pluginPath alternate
    | none => routePatternsIntersect pluginPath (staticPath ++ "/")

def routeIntersectsStaticRoute (pluginPath staticPath : String) : Bool :=
  if routePatternsIntersect pluginPath staticPath then true
  else
    match lastIndex staticPath "/*" with
    | some catchAllIndex =>
      if catchAllIndex + 2 < staticPath.toList.length then
        let start := String.ofList (staticPath.toList.take catchAllIndex)
        routePatternsIntersect pluginPath start || routePatternsIntersect pluginPath (start ++ "/")
      else routeIntersectsAlternate pluginPath staticPath
    | none => routeIntersectsAlternate pluginPath staticPath

/-! ### What Gin registers -/

/-- A catch-all comes last, and has a name. -/
def GinSegments : List String → Prop
  | [] => True
  | segment :: rest =>
    (hasPrefix segment "*" = true → rest = [] ∧ segment ≠ "*") ∧ GinSegments rest

instance decidableGinSegments : ∀ segments : List String, Decidable (GinSegments segments)
  | [] => isTrue trivial
  | segment :: rest =>
    have : Decidable (GinSegments rest) := decidableGinSegments rest
    inferInstanceAs (Decidable ((hasPrefix segment "*" = true → rest = [] ∧ segment ≠ "*") ∧
      GinSegments rest))

def GinPath (path : String) : Prop := hasPrefix path "/" = true ∧ GinSegments (segmentsOf path)

instance (path : String) : Decidable (GinPath path) := inferInstanceAs (Decidable (_ ∧ _))

/-! ### Requests -/

/-- A static segment matches itself, a parameter a segment that is not empty, and a catch-all
whatever comes after its slash. -/
def segmentsMatch : List String → List String → Bool
  | [], [] => true
  | [], _ :: _ | _ :: _, [] => false
  | part :: parts, segment :: segments =>
    if hasPrefix part "*" then true
    else if hasPrefix part ":" then segment ≠ "" && segmentsMatch parts segments
    else part = segment && segmentsMatch parts segments

def Matches (pattern path : String) : Prop :=
  hasPrefix path "/" = true ∧ segmentsMatch (segmentsOf pattern) (segmentsOf path) = true

def InNamespace (reserved path : String) : Prop :=
  path = reserved ∨ hasPrefix path (reserved ++ "/") = true

/-- What holds of a path as it is, or with one slash more or less at its end. -/
def UpToSlash (holds : String → Prop) (path : String) : Prop :=
  holds path ∨ holds (path ++ "/") ∨ ∃ shorter, path = shorter ++ "/" ∧ holds shorter

end JulongApi.PluginRouting

/-
What the inner router serves, and when a generation is published at all.

The plugins that a round accepts are apart (`Separate`): no request is matched by routes of two of
them, nor by a route of the host.  A round gives a generation unless a plugin that was put back
conflicts with another one, and rounds come to an end because each blocks one more plugin
(`prepare_ends`).
-/
import JulongApi.PluginRouter
import JulongApi.Proofs.PluginAdmission

namespace JulongApi.PluginRouting

variable {p : LoadedPlugin}

section Validation

variable {b : PluginGenerationBuilder} {order : MapOrder} {plugin : LoadedPlugin}
  {accepted : PluginMap}

/-! ### Validation -/

/-- A plugin whose routes meet neither a route of the host nor one another. -/
structure Clear (b : PluginGenerationBuilder) (plugin : LoadedPlugin) : Prop where
  static : ∀ route ∈ plugin.routes, ∀ staticRoute ∈ b.staticRoutes,
    routeIntersectsStaticRoute route.path staticRoute.path = false
  own : plugin.routes.Pairwise fun left right =>
    left.method = right.method → routePatternsIntersect left.path right.path = false

def Apart (p q : LoadedPlugin) : Prop :=
  ∀ route ∈ p.routes, ∀ other ∈ q.routes, ∀ path, Matches route.path path → ¬Matches other.path path

theorem Apart.symm {q : LoadedPlugin} (h : Apart p q) : Apart q p :=
  fun route hroute other hother path hmatch hmatch' => h other hother route hroute path hmatch' hmatch

theorem staticRouteError_none (h : staticRouteError b plugin = none) :
    ∀ route ∈ plugin.routes, ∀ staticRoute ∈ b.staticRoutes,
      routeIntersectsStaticRoute route.path staticRoute.path = false := by
  intro route hroute staticRoute hstatic
  have hnone := List.findSome?_eq_none_iff.mp (List.findSome?_eq_none_iff.mp h route hroute)
    staticRoute hstatic
  by_contra hmeets
  rw [if_pos (Bool.not_eq_false _ ▸ hmeets)] at hnone
  cases hnone

theorem ownRouteError_none : ∀ {routes : List Route}, ownRouteError routes = none →
    routes.Pairwise fun left right =>
      left.method = right.method → routePatternsIntersect left.path right.path = false := by
  intro routes
  induction routes with
  | nil => exact fun _ => .nil
  | cons left rest ih =>
    intro h
    unfold ownRouteError at h
    obtain ⟨hleft, hrest⟩ := Option.or_eq_none_iff.mp h
    refine .cons (fun right hright hmethod => ?_) (ih hrest)
    have hnone := List.findSome?_eq_none_iff.mp hleft right hright
    rw [if_neg (not_not.mpr hmethod)] at hnone
    by_contra hmeets
    rw [if_pos (Bool.not_eq_false _ ▸ hmeets)] at hnone
    cases hnone

theorem otherRouteError_none {other : LoadedPlugin} (h : otherRouteError plugin other = none)
    (hkey : other.key ≠ plugin.key) : Apart plugin other := by
  intro route hroute otherRoute hother path hmatch hmatch'
  unfold otherRouteError at h
  rw [if_neg hkey] at h
  have hnone := List.findSome?_eq_none_iff.mp (List.findSome?_eq_none_iff.mp h route hroute)
    otherRoute hother
  rw [if_pos (hmatch.intersect hmatch')] at hnone
  cases hnone

theorem mem_inRange (hp : p ∈ accepted.rows) :
    p ∈ (order.range (accepted.rows.map (·.key))).filterMap accepted.find :=
  List.mem_filterMap.mpr ⟨p.key, (order.perm _).mem_iff.mpr (List.mem_map_of_mem hp),
    Table.find_of_mem hp⟩

theorem validatePlugin_none (h : validatePlugin b order plugin accepted = none) :
    Clear b plugin ∧ ∀ other ∈ accepted.rows, other.key ≠ plugin.key → Apart plugin other := by
  unfold validatePlugin at h
  obtain ⟨hstatic, h⟩ := Option.or_eq_none_iff.mp h
  obtain ⟨hown, hothers⟩ := Option.or_eq_none_iff.mp h
  refine ⟨⟨staticRouteError_none hstatic, ownRouteError_none hown⟩, fun other hother hkey => ?_⟩
  exact otherRouteError_none (List.findSome?_eq_none_iff.mp hothers other (mem_inRange hother)) hkey

/-- What is accepted meets neither the host nor one another. -/
structure Separate (b : PluginGenerationBuilder) (accepted : PluginMap) : Prop where
  clear : ∀ p ∈ accepted.rows, Clear b p
  apart : ∀ p ∈ accepted.rows, ∀ q ∈ accepted.rows, p.key ≠ q.key → Apart p q

theorem Separate.put (h : Separate b accepted)
    (hvalid : validatePlugin b order plugin accepted = none) :
    Separate b (accepted.put plugin) := by
  obtain ⟨hclear, hapart⟩ := validatePlugin_none hvalid
  constructor
  · exact Table.forall_put h.clear hclear
  · intro p hp q hq hkeys
    obtain rfl | ⟨hp', hpkey⟩ := Table.mem_put hp
    · obtain rfl | ⟨hq', hqkey⟩ := Table.mem_put hq
      · exact absurd rfl hkeys
      · exact hapart q hq' hqkey.symm
    · obtain rfl | ⟨hq', hqkey⟩ := Table.mem_put hq
      · exact (hapart p hp' hpkey.symm).symm
      · exact h.apart p hp' q hq' hkeys

end Validation

section Admission

variable {b : PluginGenerationBuilder} {orders : MapOrders} {candidate : RoutingGeneration}
  {serving : PluginMap} {blocked : List LoadedPlugin}

/-! ### Admission -/

theorem tryPlugin_cases (b : PluginGenerationBuilder) (orders : MapOrders)
    (candidate : RoutingGeneration) (blocked : List LoadedPlugin) (s : PublicAdmission)
    (key : String) :
    s.tryPlugin b orders candidate blocked key = s ∨
    (∃ plugin error, candidate.byKey key = some plugin ∧
      s.tryPlugin b orders candidate blocked key =
        { s with
          routingErrors := Function.update s.routingErrors key (some error)
          rejectedKeys := s.rejectedKeys ++ [key] }) ∨
    ∃ plugin, candidate.byKey key = some plugin ∧ plugin ∉ blocked ∧
      validatePlugin b (orders.trial key) plugin s.accepted = none ∧
      s.tryPlugin b orders candidate blocked key =
        { s with accepted := s.accepted.put plugin } := by
  unfold PublicAdmission.tryPlugin
  cases hfind : candidate.byKey key with
  | none => exact .inl rfl
  | some plugin =>
    dsimp only
    by_cases hblocked : plugin ∈ blocked
    · rw [if_pos hblocked]
      exact .inr (.inl ⟨plugin, _, rfl, rfl⟩)
    · rw [if_neg hblocked]
      cases hvalid : validatePlugin b (orders.trial key) plugin s.accepted with
      | some error => exact .inr (.inl ⟨plugin, error, rfl, rfl⟩)
      | none => exact .inr (.inr ⟨plugin, rfl, hblocked, hvalid, rfl⟩)

theorem tryServing_cases (b : PluginGenerationBuilder) (orders : MapOrders)
    (candidate : RoutingGeneration) (serving : PluginMap) (blocked : List LoadedPlugin)
    (s : PublicAdmission) (key : String) :
    (s.tryServing b orders candidate serving blocked key).accepted = s.accepted ∨
    ∃ incumbent, serving.find key = some incumbent ∧ incumbent ∉ blocked ∧
      validatePlugin b (orders.fallback key) incumbent s.accepted = none ∧
      (s.tryServing b orders candidate serving blocked key).accepted =
        s.accepted.put incumbent := by
  unfold PublicAdmission.tryServing
  cases hfind : serving.find key with
  | none => exact .inl rfl
  | some incumbent =>
    dsimp only
    by_cases hskip : candidate.byKey key = some incumbent ∨ key ∉ candidate.retainCurrent
    · rw [if_pos hskip]
      exact .inl rfl
    · rw [if_neg hskip]
      by_cases hblocked : incumbent ∈ blocked
      · rw [if_pos hblocked]
        exact .inl rfl
      · rw [if_neg hblocked]
        cases hvalid : validatePlugin b (orders.fallback key) incumbent s.accepted with
        | some error => exact .inl rfl
        | none => exact .inr ⟨incumbent, rfl, hblocked, hvalid, rfl⟩

theorem separate_admitPlugins (b : PluginGenerationBuilder) (orders : MapOrders)
    (candidate : RoutingGeneration) (current : Option RoutingGeneration)
    (blocked : List LoadedPlugin) :
    Separate b (admitPlugins b orders candidate current blocked).accepted := by
  have hempty : Separate b PluginMap.empty :=
    ⟨fun _ hp => (by cases hp), fun _ hp => (by cases hp)⟩
  unfold admitPlugins
  refine List.foldlRecOn (motive := fun s : PublicAdmission => Separate b s.accepted) _ _ ?_
    fun s hs key _ => ?_
  · refine List.foldlRecOn (motive := fun s : PublicAdmission => Separate b s.accepted) _ _ hempty
      fun s hs key _ => ?_
    obtain heq | ⟨_, _, _, heq⟩ | ⟨plugin, _, _, hvalid, heq⟩ :=
      tryPlugin_cases b orders candidate blocked s key
    · rw [heq]
      exact hs
    · rw [heq]
      exact hs
    · rw [heq]
      exact hs.put hvalid
  · obtain heq | ⟨plugin, _, _, hvalid, heq⟩ :=
      tryServing_cases b orders candidate (servingByKey current) blocked s key
    · rw [heq]
      exact hs
    · rw [heq]
      exact hs.put hvalid

end Admission

/-! ### The generation of a round -/

section Rebuild

variable {order : MapOrder} {g rebuilt : RoutingGeneration} {accepted : PluginMap}

theorem collectPlugin_ok {byKey byKey' : PluginMap} {plugin : LoadedPlugin}
    (h : collectPlugin g byKey plugin = .ok byKey') :
    (byKey.find plugin.key = none) ∧ byKey' = byKey.put plugin := by
  unfold collectPlugin at h
  obtain ⟨habsent, h⟩ := guard_eq_ok.mp h
  obtain ⟨hduplicate, h⟩ := guard_eq_ok.mp h
  rw [Bool.not_eq_true, Option.isSome_eq_false_iff, Option.isNone_iff_eq_none] at hduplicate
  exact ⟨hduplicate, (Except.ok.inj h).symm⟩

theorem collect_perm {plugins : List LoadedPlugin} {byKey : PluginMap}
    (h : plugins.foldlM (collectPlugin g) .empty = .ok byKey) : byKey.rows.Perm plugins :=
  foldlM_ok_induct (fun (t : PluginMap) l => t.rows.Perm l)
    (fun t l plugin t' ht hok => by
      obtain ⟨hfree, rfl⟩ := collectPlugin_ok hok
      rw [Table.rows_put_of_find_none hfree]
      exact (ht.cons plugin).trans (List.perm_append_singleton plugin l).symm)
    (l := []) (.refl []) h

theorem rebuild_ok (h : g.rebuildWithPlugins order (accepted.inOrder order) = .ok rebuilt) :
    ∃ (byKey : PluginMap) (built : RoutingGeneration), byKey.rows.Perm accepted.rows ∧
      buildRoutingGenerationFromPlugins order byKey g.number = .ok built ∧
      rebuilt = { built with retainCurrent := g.retainCurrent } := by
  unfold RoutingGeneration.rebuildWithPlugins at h
  obtain ⟨byKey, hcollect, h⟩ := bind_eq_ok.mp h
  cases hbuild : buildRoutingGeneration order byKey .empty g.number with
  | error e =>
    rw [hbuild] at h
    cases h
  | ok built =>
    rw [hbuild] at h
    exact ⟨byKey, built, (collect_perm hcollect).trans perm_inOrder, hbuild,
      (Except.ok.inj h).symm⟩

theorem registerRoutes_cases (b : PluginGenerationBuilder) :
    ∀ (routes registered : List RouteBinding),
      registerRoutes b registered routes = .ok (registered ++ routes) ∨
        ∃ binding ∈ routes,
          registerRoutes b registered routes = .error (.panicked binding.plugin.key) := by
  intro routes
  induction routes with
  | nil =>
    intro registered
    rw [List.append_nil]
    exact .inl rfl
  | cons binding rest ih =>
    intro registered
    unfold registerRoutes
    by_cases hpanics : b.panics registered binding = true
    · rw [if_pos hpanics]
      exact .inr ⟨binding, by simp, rfl⟩
    · rw [if_neg hpanics]
      obtain hok | ⟨other, hother, herror⟩ := ih (registered ++ [binding])
      · rw [hok, List.append_assoc]
        exact .inl rfl
      · exact .inr ⟨other, List.mem_cons_of_mem _ hother, herror⟩

end Rebuild

section Rounds

variable {b : PluginGenerationBuilder} {orders : List LoadedPlugin → MapOrders}
  {candidate : RoutingGeneration} {current : Option RoutingGeneration} {blocked : List LoadedPlugin}

/-! ### What is published -/

/-- A generation that a round gives has the routes of what was accepted, and its engine has them
too. -/
theorem round_ok {prepared : Prepared}
    (h : prepareRound b orders candidate current blocked = .result (.ok prepared)) :
    ∃ plugins : List LoadedPlugin,
      plugins.Perm (acceptedPlugins b orders candidate current blocked).accepted.rows ∧
      prepared.generation.routes = plugins.flatMap LoadedPlugin.bindings ∧
      prepared.generation.runtime = some prepared.generation.routes := by
  unfold prepareRound at h
  dsimp only at h
  cases hrebuild : candidate.rebuildWithPlugins (orders blocked).candidates
      ((acceptedPlugins b orders candidate current blocked).accepted.inOrder
        (orders blocked).candidates) with
  | error e =>
    rw [hrebuild] at h
    cases h
  | ok filtered =>
    rw [hrebuild] at h
    dsimp only at h
    obtain ⟨byKey, built, hperm, hbuilt, rfl⟩ := rebuild_ok hrebuild
    have hroutes : built.routes = (byKey.inOrder (orders blocked).candidates).flatMap
        LoadedPlugin.bindings := (indexed_of_build hbuilt).routes
    cases hengine : buildInnerEngine b { built with retainCurrent := candidate.retainCurrent } with
    | error e =>
      rw [hengine] at h
      dsimp only at h
      by_cases hempty : e.offender = ""
      · rw [if_pos hempty] at h
        cases h
      · rw [if_neg hempty] at h
        split at h <;> cases h
    | ok engine =>
      rw [hengine] at h
      have hprepared := Round.result.inj h
      cases hprepared
      refine ⟨_, perm_inOrder.trans hperm, hroutes, ?_⟩
      unfold buildInnerEngine at hengine
      cases hconfigure : b.configureErr with
      | some e =>
        rw [hconfigure] at hengine
        cases hengine
      | none =>
        rw [hconfigure] at hengine
        dsimp only at hengine
        obtain hok | ⟨_, _, herror⟩ := registerRoutes_cases b built.routes []
        · rw [hok] at hengine
          cases hengine
          rfl
        · rw [herror] at hengine
          cases hengine

variable {result : Except PrepareError Prepared}

theorem rounds_result : ∀ {fuel : Nat} {blocked},
    RoundOf b orders candidate current blocked →
    prepareRounds b orders candidate current fuel blocked = some result →
      ∃ blocked, RoundOf b orders candidate current blocked ∧
        prepareRound b orders candidate current blocked = .result result := by
  intro fuel
  induction fuel with
  | zero => exact fun _ h => (by cases h)
  | succ fuel ih =>
    intro blocked hround h
    unfold prepareRounds at h
    cases hthis : prepareRound b orders candidate current blocked with
    | result result' =>
      rw [hthis] at h
      refine ⟨blocked, hround, ?_⟩
      rw [hthis, Option.some.inj h]
    | again blocked' =>
      rw [hthis] at h
      exact ih (hround.next hthis) h

theorem pairwise_bindings {plugins : List LoadedPlugin} {accepted : PluginMap}
    (hperm : plugins.Perm accepted.rows) (h : Separate b accepted) (path : String) :
    (∀ r ∈ plugins.flatMap LoadedPlugin.bindings, ∀ r' ∈ plugins.flatMap LoadedPlugin.bindings,
      Matches r.route.path path → Matches r'.route.path path → r.plugin = r'.plugin) ∧
    (plugins.flatMap LoadedPlugin.bindings).Pairwise fun r r' =>
      r.route.method = r'.route.method → Matches r.route.path path → ¬Matches r'.route.path path := by
  have hkeys : plugins.Pairwise fun p q => p.key ≠ q.key := by
    have hnodup := (hperm.map (·.key)).nodup_iff.mpr accepted.keys
    rw [List.nodup_iff_pairwise_ne, List.pairwise_map] at hnodup
    exact hnodup
  constructor
  · intro r hr r' hr' hmatch hmatch'
    obtain ⟨p, hp, hr⟩ := List.mem_flatMap.mp hr
    obtain ⟨q, hq, hr'⟩ := List.mem_flatMap.mp hr'
    obtain ⟨route, hroute, rfl⟩ := List.mem_map.mp hr
    obtain ⟨route', hroute', rfl⟩ := List.mem_map.mp hr'
    show p = q
    have hp' := hperm.mem_iff.mp hp
    have hq' := hperm.mem_iff.mp hq
    by_cases hsame : p.key = q.key
    · have hpfind := Table.find_of_mem hp'
      have hqfind := Table.find_of_mem hq'
      rw [hsame, hqfind] at hpfind
      exact (Option.some.inj hpfind).symm
    · exact absurd hmatch' (h.apart p hp' q hq' hsame route hroute route' hroute' path hmatch)
  · rw [List.pairwise_flatMap]
    constructor
    · intro p hp
      unfold LoadedPlugin.bindings
      rw [List.pairwise_map]
      refine (h.clear p (hperm.mem_iff.mp hp)).own.imp fun hown hmethod hmatch hmatch' => ?_
      have hmeets := hown hmethod
      rw [hmatch.intersect hmatch'] at hmeets
      cases hmeets
    · refine hkeys.imp_of_mem fun hp hq hne r hr r' hr' _ hmatch => ?_
      obtain ⟨route, hroute, rfl⟩ := List.mem_map.mp hr
      obtain ⟨route', hroute', rfl⟩ := List.mem_map.mp hr'
      exact h.apart _ (hperm.mem_iff.mp hp) _ (hperm.mem_iff.mp hq) hne route hroute route' hroute'
        path hmatch

theorem Clear.not_host (h : Clear b p) {route : Route} (hroute : route ∈ p.routes) {path : String}
    (hmatch : Matches route.path path) :
    (∀ reserved ∈ reservedRouteNamespaces, ¬UpToSlash (InNamespace reserved) path) ∧
      ∀ staticRoute ∈ b.staticRoutes, ¬UpToSlash (Matches staticRoute.path) path := by
  obtain ⟨habsolute, hplain, hreserved, -⟩ := p.route_valid hroute
  constructor
  · intro reserved hmem hin
    have hnone := List.find?_eq_none.mp hreserved reserved hmem
    exact hnone (hmatch.intersectsReserved hplain habsolute hmem hin)
  · intro staticRoute hstatic htakes
    have hmeets := h.static route hroute staticRoute hstatic
    rw [hmatch.intersectsStatic staticRoute.registered hplain htakes] at hmeets
    cases hmeets

/-! ### What a round accepts -/

theorem servingByKey_mem {key : String} (h : (servingByKey current).find key = some p) :
    ∃ g, current = some g ∧ p ∈ g.plugins := by
  cases current with
  | none => cases h
  | some g =>
    refine ⟨g, rfl, ?_⟩
    unfold servingByKey at h
    dsimp only at h
    have hputs : ∀ (l : List LoadedPlugin) (t : PluginMap),
        ∀ q ∈ (l.foldl Table.put t).rows, q ∈ t.rows ∨ q ∈ l := by
      intro l
      induction l with
      | nil => exact fun _ _ hq => .inl hq
      | cons a rest ih =>
        intro t q hq
        obtain hq | hq := ih (t.put a) q hq
        · obtain rfl | ⟨hq, -⟩ := Table.mem_put hq
          · exact .inr (by simp)
          · exact .inl hq
        · exact .inr (List.mem_cons_of_mem _ hq)
    by_cases hruntime : g.runtime.isSome = true
    · rw [if_pos hruntime] at h
      obtain hin | hin := hputs g.plugins .empty p (Table.mem_of_find h)
      · cases hin
      · exact hin
    · rw [if_neg hruntime] at h
      cases h

/-- A plugin that is accepted: it is not blocked, it is a candidate or it serves, and the candidate
has one of its key. -/
structure Eligible (candidate : RoutingGeneration) (current : Option RoutingGeneration)
    (blocked : List LoadedPlugin) (p : LoadedPlugin) : Prop where
  notBlocked : p ∉ blocked
  source : p ∈ candidate.plugins ∨ ∃ g, current = some g ∧ p ∈ g.plugins
  present : ∃ q, candidate.byKey p.key = some q

section Candidate

variable (hcandidate : ∀ key p, candidate.byKey key = some p ↔ p ∈ candidate.plugins ∧ p.key = key)

include hcandidate in
theorem eligible_admitPlugins (b : PluginGenerationBuilder) (orders : MapOrders)
    (blocked : List LoadedPlugin) :
    ∀ p ∈ (admitPlugins b orders candidate current blocked).accepted.rows,
      Eligible candidate current blocked p := by
  -- the keys of the second loop are keys of the candidate
  have hfirst : ∀ keys : List String, ∀ s : PublicAdmission,
      (∀ p ∈ s.accepted.rows, Eligible candidate current blocked p) →
      (∀ key ∈ s.rejectedKeys, ∃ q, candidate.byKey key = some q) →
      (∀ p ∈ (keys.foldl (PublicAdmission.tryPlugin b orders candidate blocked) s).accepted.rows,
        Eligible candidate current blocked p) ∧
      ∀ key ∈ (keys.foldl (PublicAdmission.tryPlugin b orders candidate blocked) s).rejectedKeys,
        ∃ q, candidate.byKey key = some q := by
    intro keys
    induction keys with
    | nil => exact fun s haccepted hrejected => ⟨haccepted, hrejected⟩
    | cons key keys ih =>
      intro s haccepted hrejected
      rw [List.foldl_cons]
      obtain heq | ⟨plugin, error, hfind, heq⟩ | ⟨plugin, hfind, hblocked, -, heq⟩ :=
        tryPlugin_cases b orders candidate blocked s key
      · rw [heq]
        exact ih s haccepted hrejected
      · rw [heq]
        refine ih _ haccepted fun k hk => ?_
        obtain hk | hk := List.mem_append.mp hk
        · exact hrejected k hk
        · exact ⟨plugin, List.mem_singleton.mp hk ▸ hfind⟩
      · rw [heq]
        obtain ⟨hmem, hkey⟩ := (hcandidate key plugin).mp hfind
        exact ih _ (Table.forall_put haccepted ⟨hblocked, .inl hmem, plugin, hkey ▸ hfind⟩) hrejected
  obtain ⟨haccepted, hrejected⟩ := hfirst (publicKeys candidate.plugins (servingByKey current))
    ⟨.empty, fun _ => none, []⟩ (fun _ hp => (by cases hp)) fun _ hkey => (by cases hkey)
  refine List.foldlRecOn
    (motive := fun s : PublicAdmission => ∀ p ∈ s.accepted.rows, Eligible candidate current blocked p)
    _ _ haccepted fun s hs key hkey => ?_
  obtain heq | ⟨p, hfind, hblocked, -, heq⟩ :=
    tryServing_cases b orders candidate (servingByKey current) blocked s key
  · rw [heq]
    exact hs
  · rw [heq]
    have hpkey : p.key = key := PluginMap.key_of_find hfind
    exact Table.forall_put hs ⟨hblocked, .inr (servingByKey_mem hfind), hpkey ▸ hrejected key hkey⟩

theorem rebuild_ok_iff (order : MapOrder) {g : RoutingGeneration} {accepted : PluginMap}
    (hpresent : ∀ p ∈ accepted.rows, ∃ q, g.byKey p.key = some q) :
    (∃ rebuilt, g.rebuildWithPlugins order (accepted.inOrder order) = .ok rebuilt) ↔
      accepted.ConflictFree := by
  have hconflicts : ∀ byKey : PluginMap, byKey.rows.Perm accepted.rows →
      (byKey.ConflictFree ↔ accepted.ConflictFree) := by
    intro byKey hperm
    unfold PluginMap.ConflictFree
    simp only [hperm.mem_iff]
  constructor
  · rintro ⟨rebuilt, hrebuilt⟩
    obtain ⟨byKey, built, hperm, hbuilt, -⟩ := rebuild_ok hrebuilt
    exact (hconflicts byKey hperm).mp ((build_ok_iff order g.number).mp ⟨built, hbuilt⟩)
  · intro hfree
    have hcollect : ∃ byKey, (accepted.inOrder order).foldlM (collectPlugin g) .empty = .ok byKey := by
      refine (foldlM_ok_iff (fun (t : PluginMap) l => t.rows.Perm l)
        (P := fun p => ∃ q, g.byKey p.key = some q) (R := fun p q => p.key ≠ q.key)
        (fun t l p t' ht hok => ?_) (fun t l p hp ht => ?_) (fun p hp => ?_) (l := [])
        (.refl [])).mpr ⟨?_, fun _ hx => (by cases hx)⟩
      · obtain ⟨hfree, rfl⟩ := collectPlugin_ok hok
        rw [Table.rows_put_of_find_none hfree]
        exact (ht.cons p).trans (List.perm_append_singleton p l).symm
      · constructor
        · rintro ⟨t', hok⟩ q hq heq
          have hfind := Table.find_of_mem (ht.mem_iff.mpr hq)
          rw [heq, (collectPlugin_ok hok).1] at hfind
          cases hfind
        · intro hnone
          obtain ⟨q, hq⟩ := hp
          have hfree : t.find p.key = none := by
            cases hfind : t.find p.key with
            | none => rfl
            | some other =>
              exact absurd (PluginMap.key_of_find hfind)
                (hnone other (ht.mem_iff.mp (Table.mem_of_find hfind)))
          refine ⟨t.put p, ?_⟩
          unfold collectPlugin
          rw [hq, hfree]
          rfl
      · exact hpresent p (perm_inOrder.mem_iff.mp hp)
      · have hperm : (accepted.inOrder order).Perm accepted.rows := perm_inOrder
        have hkeys := (hperm.map (·.key)).nodup_iff.mpr accepted.keys
        rw [List.nodup_iff_pairwise_ne, List.pairwise_map] at hkeys
        exact hkeys
    obtain ⟨byKey, hcollect⟩ := hcollect
    obtain ⟨built, hbuilt⟩ := (build_ok_iff order g.number).mpr
      ((hconflicts byKey ((collect_perm hcollect).trans perm_inOrder)).mpr hfree)
    have hbuilt' : buildRoutingGeneration order byKey .empty g.number = .ok built := hbuilt
    refine ⟨{ built with retainCurrent := g.retainCurrent }, ?_⟩
    unfold RoutingGeneration.rebuildWithPlugins
    rw [hcollect, ok_bind, hbuilt']

include hcandidate in
theorem round_cases (orders : List LoadedPlugin → MapOrders) (current : Option RoutingGeneration)
    (blocked : List LoadedPlugin) (hconfigure : b.configureErr = none) :
    (¬(acceptedPlugins b orders candidate current blocked).accepted.ConflictFree ∧
      ∃ e, prepareRound b orders candidate current blocked = .result (.error e)) ∨
    (acceptedPlugins b orders candidate current blocked).accepted.ConflictFree ∧
      ((∃ prepared, prepareRound b orders candidate current blocked = .result (.ok prepared)) ∨
        ∃ failed, Eligible candidate current blocked failed ∧
          prepareRound b orders candidate current blocked = .again (failed :: blocked)) := by
  have heligible : ∀ p ∈ (acceptedPlugins b orders candidate current blocked).accepted.rows,
      Eligible candidate current blocked p := eligible_admitPlugins hcandidate b _ blocked
  have hrebuilds := rebuild_ok_iff (orders blocked).candidates
    fun p hp => (heligible p hp).present
  unfold prepareRound
  dsimp only
  cases hrebuild : candidate.rebuildWithPlugins (orders blocked).candidates
      ((acceptedPlugins b orders candidate current blocked).accepted.inOrder
        (orders blocked).candidates) with
  | error e =>
    refine .inl ⟨fun hfree => ?_, ⟨_, rfl⟩⟩
    obtain ⟨rebuilt, hrebuilt⟩ := hrebuilds.mpr hfree
    rw [hrebuild] at hrebuilt
    cases hrebuilt
  | ok filtered =>
    refine .inr ⟨hrebuilds.mp ⟨filtered, hrebuild⟩, ?_⟩
    obtain ⟨byKey, built, hperm, hbuilt, rfl⟩ := rebuild_ok hrebuild
    have hroutes : built.routes = (byKey.inOrder (orders blocked).candidates).flatMap
        LoadedPlugin.bindings := (indexed_of_build hbuilt).routes
    dsimp only
    unfold buildInnerEngine
    rw [hconfigure]
    dsimp only
    obtain hok | ⟨binding, hbinding, herror⟩ := registerRoutes_cases b built.routes []
    · rw [hok]
      exact .inl ⟨_, rfl⟩
    · rw [hroutes] at hbinding
      obtain ⟨p, hp, hbinding⟩ := List.mem_flatMap.mp hbinding
      obtain ⟨route, -, rfl⟩ := List.mem_map.mp hbinding
      have hp : p ∈ (acceptedPlugins b orders candidate current blocked).accepted.rows :=
        (perm_inOrder.trans hperm).mem_iff.mp hp
      have hoffender : (EngineError.panicked p.key).offender ≠ "" := p.key_ne_empty
      have hfind : (acceptedPlugins b orders candidate current blocked).accepted.find
          (EngineError.panicked p.key).offender = some p := Table.find_of_mem hp
      rw [herror]
      dsimp only
      rw [if_neg hoffender, hfind]
      exact .inr ⟨p, heligible p hp, rfl⟩

/-! ### The rounds -/

def roundPool (candidate : RoutingGeneration) (current : Option RoutingGeneration) :
    List LoadedPlugin :=
  candidate.plugins ++ (current.map (·.plugins)).getD []

theorem Eligible.mem_pool (h : Eligible candidate current blocked p) :
    p ∈ roundPool candidate current := by
  obtain hp | ⟨g, rfl, hp⟩ := h.source
  · exact List.mem_append_left _ hp
  · exact List.mem_append_right _ hp

include hcandidate in
theorem prepareRounds_ends (orders : List LoadedPlugin → MapOrders)
    (current : Option RoutingGeneration) (hconfigure : b.configureErr = none) :
    ∀ (fuel : Nat) (blocked),
    blocked.Nodup → blocked ⊆ roundPool candidate current →
    (roundPool candidate current).length < fuel + blocked.length →
      ∃ result, prepareRounds b orders candidate current fuel blocked = some result := by
  intro fuel
  induction fuel with
  | zero =>
    intro blocked hnodup hpool hlength
    have hle := (List.subperm_of_subset hnodup hpool).length_le
    omega
  | succ fuel ih =>
    intro blocked hnodup hpool hlength
    unfold prepareRounds
    obtain ⟨-, e, hround⟩ | ⟨-, ⟨prepared, hround⟩ | ⟨failed, hfailed, hround⟩⟩ :=
      round_cases hcandidate orders current blocked hconfigure
    · rw [hround]
      exact ⟨_, rfl⟩
    · rw [hround]
      exact ⟨_, rfl⟩
    · rw [hround]
      refine ih (failed :: blocked) (.cons (fun h => ?_) hnodup) ?_ ?_
      · exact absurd h hfailed.notBlocked
      · exact List.cons_subset.mpr ⟨hfailed.mem_pool, hpool⟩
      · rw [List.length_cons]
        omega

theorem prepareRounds_mono : ∀ {fuel more : Nat} {blocked},
    prepareRounds b orders candidate current fuel blocked = some result → fuel ≤ more →
      prepareRounds b orders candidate current more blocked = some result := by
  intro fuel
  induction fuel with
  | zero => exact fun h => (by cases h)
  | succ fuel ih =>
    intro more blocked h hle
    obtain ⟨more, rfl⟩ := Nat.exists_eq_add_of_le' (Nat.le_trans (Nat.succ_pos fuel) hle)
    unfold prepareRounds at h ⊢
    cases hround : prepareRound b orders candidate current blocked with
    | result result' =>
      rw [hround] at h
      exact h
    | again blocked' =>
      rw [hround] at h
      exact ih h (by omega)

theorem Prepares.unique {result' : Except PrepareError Prepared}
    (h : Prepares b orders candidate current result)
    (h' : Prepares b orders candidate current result') : result = result' := by
  obtain ⟨fuel, h⟩ := h
  obtain ⟨fuel', h'⟩ := h'
  have hmax := prepareRounds_mono h (Nat.le_max_left fuel fuel')
  rw [prepareRounds_mono h' (Nat.le_max_right fuel fuel')] at hmax
  exact (Option.some.inj hmax).symm

theorem RoundOf.leads (h : Prepares b orders candidate current result)
    (hround : RoundOf b orders candidate current blocked) :
    ∃ fuel, prepareRounds b orders candidate current fuel blocked = some result := by
  induction hround with
  | first => exact h
  | next _ hagain ih =>
    obtain ⟨fuel, hfuel⟩ := ih
    cases fuel with
    | zero => cases hfuel
    | succ fuel =>
      unfold prepareRounds at hfuel
      rw [hagain] at hfuel
      exact ⟨fuel, hfuel⟩

theorem conflictFree_iff_consistent (hfree : candidate.ConflictFree) :
    (acceptedPlugins b orders candidate current blocked).accepted.ConflictFree ↔
      RestoresConsistent b orders candidate current blocked := by
  constructor
  · exact fun h p hp _ q hq hne => h p hp q hq hne.symm
  · intro h p hp q hq hne
    by_cases hpc : p ∈ candidate.plugins
    · by_cases hqc : q ∈ candidate.plugins
      · exact hfree.2 p hpc q hqc hne
      · exact fun hconflict => h q hq hqc p hp hne hconflict.symm
    · exact h p hp hpc q hq hne.symm

end Candidate

end Rounds

/-! ### A host with one route -/

def coreHost : PluginGenerationBuilder where
  staticRoutes := [⟨"GET", "/core/:id", by decide +kernel⟩]
  configureErr := none
  panics := fun _ _ => false

def listedRounds : List LoadedPlugin → MapOrders := fun _ => .listed

def alpha : LoadedPlugin :=
  ⟨⟨"alpha", ["m"], [5], [⟨"GET", "/alpha/:id"⟩], []⟩, 0, by decide +kernel⟩

/-- An update of alpha for another channel type, with a route that the host has. -/
def alphaUpdate : LoadedPlugin :=
  ⟨⟨"alpha", ["m"], [6], [⟨"GET", "/core/fixed"⟩], []⟩, 1, by decide +kernel⟩

def beta : LoadedPlugin := ⟨⟨"beta", ["n"], [5], [⟨"GET", "/beta/:id"⟩], []⟩, 2, by decide +kernel⟩

theorem alpha_admitted : (buildRoutingGenerationAdmitting .listed .empty ⟨[alpha], by decide⟩ 1 none
    ["alpha"]).toOption.isSome = true := by decide +kernel

def alphaCandidate : RoutingGeneration := (Option.get _ alpha_admitted).1

theorem alpha_prepared : ((prepareRounds coreHost listedRounds alphaCandidate none 1 []).bind
    (·.toOption)).isSome = true := by decide +kernel

def alphaPublished : Prepared := Option.get _ alpha_prepared

theorem alpha_publishes :
    Prepares coreHost listedRounds alphaCandidate none (.ok alphaPublished) :=
  ⟨1, eq_some_ok_get alpha_prepared⟩

theorem lone_admitted : (buildRoutingGenerationAdmitting .listed .empty ⟨[alphaUpdate], by decide⟩
    2 (some alphaPublished.generation) ["alpha"]).toOption.isSome = true := by decide +kernel

def loneCandidate : RoutingGeneration := (Option.get _ lone_admitted).1

theorem update_admitted : (buildRoutingGenerationAdmitting .listed .empty
    ⟨[alphaUpdate, beta], by decide⟩ 2 (some alphaPublished.generation)
    ["alpha", "beta"]).toOption.isSome = true := by decide +kernel

def updateCandidate : RoutingGeneration := (Option.get _ update_admitted).1

section Published

variable {b : PluginGenerationBuilder} {orders : List LoadedPlugin → MapOrders}
  {candidate : RoutingGeneration} {current : Option RoutingGeneration}

/-- Whose a request is, in a generation that is published: one plugin's and one route's for each
method, and neither the host's nor in a reserved namespace. -/
theorem published_owned {prepared : Prepared}
    (h : Prepares b orders candidate current (.ok prepared)) (path : String) :
    prepared.generation.runtime = some prepared.generation.routes ∧
    (∀ r ∈ prepared.generation.routes, ∀ r' ∈ prepared.generation.routes,
      Matches r.route.path path → Matches r'.route.path path → r.plugin = r'.plugin) ∧
    (prepared.generation.routes.Pairwise fun r r' =>
      r.route.method = r'.route.method → Matches r.route.path path →
        ¬Matches r'.route.path path) ∧
    ∀ r ∈ prepared.generation.routes, Matches r.route.path path →
      (∀ reserved ∈ reservedRouteNamespaces, ¬UpToSlash (InNamespace reserved) path) ∧
        ∀ staticRoute ∈ b.staticRoutes, ¬UpToSlash (Matches staticRoute.path) path := by
  obtain ⟨fuel, hfuel⟩ := h
  obtain ⟨blocked, -, hround⟩ := rounds_result .first hfuel
  obtain ⟨plugins, hperm, hroutes, hruntime⟩ := round_ok hround
  have hseparate : Separate b (acceptedPlugins b orders candidate current blocked).accepted :=
    separate_admitPlugins ..
  obtain ⟨howner, hone⟩ := pairwise_bindings hperm hseparate path
  refine ⟨hruntime, ?_, ?_, ?_⟩
  · rw [hroutes]
    exact howner
  · rw [hroutes]
    exact hone
  · rw [hroutes]
    intro r hr hmatch
    obtain ⟨p, hp, hr⟩ := List.mem_flatMap.mp hr
    obtain ⟨route, hroute, rfl⟩ := List.mem_map.mp hr
    exact (hseparate.clear p (hperm.mem_iff.mp hp)).not_host hroute hmatch

theorem published_owned_alpha :
    (alphaPublished.generation.routes.map fun r => r.route.path) = ["/alpha/:id"] ∧
      ∀ r ∈ alphaPublished.generation.routes, Matches r.route.path "/alpha/7" →
        ∀ staticRoute ∈ coreHost.staticRoutes, ¬UpToSlash (Matches staticRoute.path) "/alpha/7" := by
  refine ⟨by decide +kernel, fun r hr hmatch => ?_⟩
  exact ((published_owned alpha_publishes "/alpha/7").2.2.2 r hr hmatch).2

/-- `prepare` ends, and with a generation exactly if in none of its rounds a plugin that is put back
conflicts with another that is accepted. -/
theorem prepare_ok_iff {admitting : MapOrders} {factory override : PluginMap} {number : Nat}
    {served : Option RoutingGeneration} {retainCurrent : List String}
    {errors : String → Option RoutingError}
    (hcandidate : buildRoutingGenerationAdmitting admitting factory override number served
      retainCurrent = .ok (candidate, errors))
    (hconfigure : b.configureErr = none) :
    ∃ result, (∀ other, Prepares b orders candidate current other ↔ other = result) ∧
      ((∃ prepared, result = .ok prepared) ↔
        ∀ blocked, RoundOf b orders candidate current blocked →
          RestoresConsistent b orders candidate current blocked) := by
  obtain ⟨hfree, hkeyed⟩ := admitting_built _ _ _ _ _ _ hcandidate
  obtain ⟨result, hresult⟩ := prepareRounds_ends hkeyed orders current
    hconfigure ((roundPool candidate current).length + 1) [] .nil (List.nil_subset _) (by simp)
  have hprepares : Prepares b orders candidate current result := ⟨_, hresult⟩
  refine ⟨result, fun other => ⟨fun h => h.unique hprepares, fun h => h ▸ hprepares⟩, ?_⟩
  constructor
  · rintro ⟨prepared, rfl⟩ blocked hround
    rw [← conflictFree_iff_consistent hfree]
    obtain ⟨hconflict, e, hends⟩ | ⟨hconsistent, -⟩ :=
      round_cases hkeyed orders current blocked hconfigure
    · -- the result of this round would be that of all
      obtain ⟨fuel, hfuel⟩ := hround.leads hprepares
      cases fuel with
      | zero => cases hfuel
      | succ fuel =>
        unfold prepareRounds at hfuel
        rw [hends] at hfuel
        cases hfuel
    · exact hconsistent
  · intro hall
    obtain ⟨blocked, hround, hends⟩ := rounds_result .first hresult
    have hconsistent := (conflictFree_iff_consistent hfree).mpr (hall blocked hround)
    obtain ⟨hconflict, -⟩ | ⟨-, ⟨prepared, hok⟩ | ⟨failed, -, hagain⟩⟩ :=
      round_cases hkeyed orders current blocked hconfigure
    · exact absurd hconsistent hconflict
    · rw [hends] at hok
      exact ⟨prepared, Round.result.inj hok⟩
    · rw [hends] at hagain
      cases hagain

/-- The update alone is turned down, and what serves is put back for it. -/
theorem prepare_ok_iff_alpha : ∃ prepared,
    Prepares coreHost listedRounds loneCandidate (some alphaPublished.generation) (.ok prepared) ∧
      alpha ∈ prepared.generation.plugins ∧ alpha ∉ loneCandidate.plugins := by
  have hadmitted := eq_ok_get lone_admitted
  obtain ⟨hfree, hkeyed⟩ := admitting_built _ _ _ _ _ _ hadmitted
  have hprepare : ∃ result,
      (∀ other, Prepares coreHost listedRounds loneCandidate (some alphaPublished.generation) other ↔
        other = result) ∧
        ((∃ prepared, result = .ok prepared) ↔ ∀ blocked,
          RoundOf coreHost listedRounds loneCandidate (some alphaPublished.generation) blocked →
            RestoresConsistent coreHost listedRounds loneCandidate
              (some alphaPublished.generation) blocked) :=
    prepare_ok_iff hadmitted rfl
  obtain ⟨result, hresult, hiff⟩ := hprepare
  have hkeys : ∀ p ∈ loneCandidate.plugins, p.key = "alpha" := by decide +kernel
  obtain ⟨prepared, rfl⟩ := hiff.mpr fun blocked _ p hp _ q hq hne => by
    -- all that is accepted has the key of the update
    obtain ⟨_, hp⟩ := (eligible_admitPlugins hkeyed coreHost _ blocked p hp).present
    obtain ⟨_, hq⟩ := (eligible_admitPlugins hkeyed coreHost _ blocked q hq).present
    obtain ⟨hp, hpkey⟩ := (hkeyed _ _).mp hp
    obtain ⟨hq, hqkey⟩ := (hkeyed _ _).mp hq
    rw [← hpkey, ← hqkey, hkeys _ hp, hkeys _ hq] at hne
    exact absurd rfl hne
  have hends : (prepareRounds coreHost listedRounds loneCandidate
      (some alphaPublished.generation) 1 []).map (fun result => result.toOption.any fun prepared =>
        decide (alpha ∈ prepared.generation.plugins)) = some true := by decide +kernel
  obtain ⟨result, hround, hmem⟩ := Option.map_eq_some_iff.mp hends
  obtain rfl := (hresult _).mp ⟨1, hround⟩
  exact ⟨prepared, (hresult _).mpr rfl, of_decide_eq_true hmem, by decide +kernel⟩

/-- What serves is put back for an update whose route is the host's, and takes the channel type from
a new plugin: nothing is published. -/
theorem rejected_update_freezes :
    ¬∀ (b : PluginGenerationBuilder) (orders : List LoadedPlugin → MapOrders) (admitting : MapOrders)
      (factory override : PluginMap) (number : Nat) (current : Option RoutingGeneration)
      (retainCurrent : List String) (candidate : RoutingGeneration)
      (errors : String → Option RoutingError),
      b.configureErr = none →
      (∀ g, current = some g → ∃ first served prepared,
        Prepares b orders first served (.ok prepared) ∧ g = prepared.generation) →
      buildRoutingGenerationAdmitting admitting factory override number current retainCurrent =
        .ok (candidate, errors) →
      ∃ prepared, Prepares b orders candidate current (.ok prepared) := by
  intro h
  obtain ⟨prepared, hprepared⟩ := h coreHost listedRounds .listed .empty
    ⟨[alphaUpdate, beta], by decide⟩ 2 (some alphaPublished.generation) ["alpha", "beta"]
    updateCandidate _ rfl
    (fun g hg => ⟨alphaCandidate, none, alphaPublished, alpha_publishes, (Option.some.inj hg).symm⟩)
    (eq_ok_get update_admitted)
  have hfails : (prepareRounds coreHost listedRounds updateCandidate
      (some alphaPublished.generation) 1 []).map (fun result => result.toOption.isSome) =
        some false := by decide +kernel
  obtain ⟨result, hresult, hnone⟩ := Option.map_eq_some_iff.mp hfails
  have hsame := hprepared.unique ⟨1, hresult⟩
  rw [← hsame] at hnone
  cases hnone

end Published

end JulongApi.PluginRouting

/-
Which plugins are admitted to a routing generation.

A generation is built of plugins exactly if no two of them conflict (`build_ok_iff`): what its
indexes hold is what the plugins so far have brought (`Indexed`), and each turn of a loop fails only
for that.
-/
import JulongApi.PluginRouting
import JulongApi.Proofs.RoutePattern

namespace JulongApi.PluginRouting

/-! ### What a valid manifest says -/

section Valid

variable (p : LoadedPlugin)

theorem LoadedPlugin.checks :
    (∀ c ∈ p.channelTypes, skipped c = false) ∧ p.channelTypes.Nodup ∧
    (p.models.map asciiFold).Nodup ∧ (∀ route ∈ p.routes, validateRoute route = true) ∧
    (p.routes.map fun route => route.indexKey.toOption).Nodup ∧
    ∀ claim ∈ p.protocols, (hostProtocol claim.name).isSome = true := by
  have hvalid := p.valid
  unfold validateV1Meta validateModelScope at hvalid
  simp only [Bool.and_eq_true, decide_eq_true_eq, List.all_eq_true] at hvalid
  obtain ⟨⟨⟨⟨⟨⟨⟨⟨-, -⟩, htypes⟩, hnodup⟩, -, hfold⟩, hroutes⟩, hkeys⟩, hclaims⟩, -⟩ := hvalid
  refine ⟨fun c hc => ?_, hnodup, hfold, hroutes, hkeys, fun claim hmem => (hclaims claim hmem).1.1⟩
  obtain ⟨⟨hpos, htask⟩, -⟩ := htypes c hc
  unfold skipped
  rw [decide_eq_false (by omega), decide_eq_false htask]
  rfl

theorem LoadedPlugin.key_ne_empty : p.key ≠ "" := by
  intro hempty
  have hvalid := p.valid
  unfold validateV1Meta validPluginKey at hvalid
  rw [hempty] at hvalid
  simp at hvalid

theorem LoadedPlugin.route_valid {route : Route} (hmem : route ∈ p.routes) :
    hasPrefix route.path "/" = true ∧ Plain (segmentsOf route.path) ∧
      intersectingReservedNamespace route.path = none ∧ ∃ key, route.indexKey = .ok key := by
  have hvalid := p.checks.2.2.2.1 route hmem
  unfold validateRoute at hvalid
  rw [Bool.and_eq_true, Bool.and_eq_true, decide_eq_true_eq] at hvalid
  obtain ⟨⟨-, hpath⟩, hreserved⟩ := hvalid
  have hok : normalizeRoutePath route.path = .ok route.path := by
    cases hnormal : normalizeRoutePath route.path with
    | error e =>
      rw [hnormal] at hpath
      cases hpath
    | ok path =>
      rw [hnormal] at hpath
      rw [Option.some.inj (of_decide_eq_true hpath)]
  obtain ⟨-, habsolute, hplain⟩ := normalizeRoutePath_ok hok
  refine ⟨habsolute, hplain, Option.isNone_iff_eq_none.mp hreserved, ?_⟩
  unfold Route.indexKey routePathShape
  rw [hok]
  exact ⟨_, rfl⟩

end Valid

/-! ### What the indexes hold -/

structure Contents where
  plugins : List LoadedPlugin
  models : List String
  types : List Int
  routes : List RouteBinding
  endpoints : List (String × ProtocolBinding)

def LoadedPlugin.bindings (p : LoadedPlugin) : List RouteBinding := p.routes.map fun route => ⟨p, route⟩

def Contents.of (plugins : List LoadedPlugin) : Contents where
  plugins := plugins
  models := plugins.flatMap (·.models)
  types := plugins.flatMap (·.channelTypes)
  routes := plugins.flatMap LoadedPlugin.bindings
  endpoints := plugins.flatMap LoadedPlugin.endpoints

def keyIndex (plugins : List LoadedPlugin) : String → Option LoadedPlugin :=
  plugins.foldl (fun index plugin => Function.update index plugin.key (some plugin)) fun _ => none

structure Indexed (g : RoutingGeneration) (c : Contents) : Prop where
  plugins : g.plugins = c.plugins
  byKey : g.byKey = keyIndex c.plugins
  routes : g.routes = c.routes
  modelOf : ∀ fold model, g.canonicalModelByFold fold = some model →
    model ∈ c.models ∧ asciiFold model = fold
  ofModel : ∀ model ∈ c.models, g.canonicalModelByFold (asciiFold model) = some model
  types : ∀ t, skipped t = false → ((∃ p, g.byChannelType t = some p) ↔ t ∈ c.types)
  routeIndex : ∀ key, (∃ b, g.routeIndex key = some b) ↔ ∃ b ∈ c.routes, b.route.indexKey = .ok key
  endpointOf : ∀ key, ∀ b ∈ g.protocolIndex key, ∃ endpoint ∈ c.endpoints,
    endpointKey endpoint = key ∧ endpoint.2.protocol = b.protocol
  ofEndpoint : ∀ endpoint ∈ c.endpoints, ∃ b, (g.protocolIndex (endpointKey endpoint)).head? = some b ∧
    b.protocol = endpoint.2.protocol

theorem indexed_empty (number : Nat) : Indexed (.empty number) (.of []) where
  plugins := rfl
  byKey := rfl
  routes := rfl
  modelOf := by intro _ _ h; cases h
  ofModel := by intro _ h; cases h
  types := by
    intro t _
    exact ⟨fun ⟨_, h⟩ => (by cases h), fun h => (by cases h)⟩
  routeIndex := by
    intro key
    exact ⟨fun ⟨_, h⟩ => (by cases h), fun ⟨_, h, _⟩ => (by cases h)⟩
  endpointOf := by intro _ _ h; cases h
  ofEndpoint := by intro _ h; cases h

variable {model : String} {e : String × ProtocolBinding}

section Add

variable {g t : RoutingGeneration} {c : Contents} {p : LoadedPlugin}

/-! ### One model -/

theorem addModel_ok_iff (h : Indexed g c) :
    (∃ t, addModel p g model = .ok t) ↔
      ∀ other ∈ c.models, asciiFold other = asciiFold model → other = model := by
  unfold addModel
  dsimp only
  cases hfound : g.canonicalModelByFold (asciiFold model) with
  | none =>
    refine ⟨fun _ other hother hfold => ?_, fun _ => ⟨_, rfl⟩⟩
    have hthere := h.ofModel other hother
    rw [hfold, hfound] at hthere
    cases hthere
  | some existing =>
    dsimp only
    obtain ⟨hexisting, hfold⟩ := h.modelOf _ _ hfound
    by_cases hsame : existing ≠ model
    · rw [if_pos hsame]
      exact ⟨fun ⟨_, hok⟩ => (by cases hok), fun hall => absurd (hall existing hexisting hfold) hsame⟩
    · rw [if_neg hsame]
      refine ⟨fun _ other hother hfold' => ?_, fun _ => ⟨_, rfl⟩⟩
      have hthere := h.ofModel other hother
      rw [hfold', hfound] at hthere
      cases hthere
      exact not_not.mp hsame

theorem addModel_indexed (h : Indexed g c) (hok : addModel p g model = .ok t) :
    Indexed t { c with models := c.models ++ [model] } := by
  have hall := (addModel_ok_iff h).mp ⟨t, hok⟩
  unfold addModel at hok
  dsimp only at hok
  have hofModel : ∀ index : String → Option String, index (asciiFold model) = some model →
      (∀ fold, fold ≠ asciiFold model → index fold = g.canonicalModelByFold fold) →
      ∀ other ∈ c.models ++ [model], index (asciiFold other) = some other := by
    intro index hself hothers other hother
    obtain hother | hother := List.mem_append.mp hother
    · by_cases hfold : asciiFold other = asciiFold model
      · rw [hall other hother hfold]
        exact hself
      · rw [hothers _ hfold]
        exact h.ofModel other hother
    · obtain rfl := List.mem_singleton.mp hother
      exact hself
  cases hfound : g.canonicalModelByFold (asciiFold model) with
  | none =>
    rw [hfound] at hok
    cases hok
    exact {
      plugins := h.plugins
      byKey := h.byKey
      routes := h.routes
      modelOf := by
        intro fold other hother
        by_cases hfold : fold = asciiFold model
        · subst hfold
          have hself : Function.update g.canonicalModelByFold (asciiFold model) (some model)
              (asciiFold model) = some model := Function.update_self ..
          cases hself.symm.trans hother
          exact ⟨by simp, rfl⟩
        · have hbefore : g.canonicalModelByFold fold = some other :=
            (Function.update_of_ne hfold _ _).symm.trans hother
          obtain ⟨hmem, heq⟩ := h.modelOf _ _ hbefore
          exact ⟨List.mem_append_left _ hmem, heq⟩
      ofModel := hofModel _ (Function.update_self ..) fun _ hne => Function.update_of_ne hne _ _
      types := h.types
      routeIndex := h.routeIndex
      endpointOf := h.endpointOf
      ofEndpoint := h.ofEndpoint }
  | some existing =>
    rw [hfound] at hok
    obtain ⟨hsame, hok⟩ := guard_eq_ok.mp hok
    rw [not_not.mp hsame] at hfound
    cases hok
    exact {
      plugins := h.plugins
      byKey := h.byKey
      routes := h.routes
      modelOf := fun fold other hother =>
        ⟨List.mem_append_left _ (h.modelOf _ _ hother).1, (h.modelOf _ _ hother).2⟩
      ofModel := hofModel _ hfound fun _ _ => rfl
      types := h.types
      routeIndex := h.routeIndex
      endpointOf := h.endpointOf
      ofEndpoint := h.ofEndpoint }

/-! ### One channel type -/

theorem addChannelType_ok_iff {type : Int} (hskipped : skipped type = false) (h : Indexed g c) :
    (∃ t, addChannelType p g type = .ok t) ↔ ∀ other ∈ c.types, other ≠ type := by
  unfold addChannelType
  rw [if_neg (by rw [hskipped]; exact Bool.false_ne_true)]
  have htypes := h.types type hskipped
  cases hfound : g.byChannelType type with
  | none =>
    refine ⟨fun _ other hother => ?_, fun _ => ⟨_, rfl⟩⟩
    rintro rfl
    obtain ⟨q, hq⟩ := htypes.mpr hother
    rw [hfound] at hq
    cases hq
  | some q =>
    refine ⟨fun ⟨_, hok⟩ => (by cases hok), fun hall => ?_⟩
    exact absurd rfl (hall type (htypes.mp ⟨q, hfound⟩))

theorem addChannelType_indexed {type : Int} (h : Indexed g c)
    (hok : addChannelType p g type = .ok t) :
    Indexed t { c with types := c.types ++ [type] } := by
  unfold addChannelType at hok
  by_cases hskipped : skipped type = true
  · rw [if_pos hskipped] at hok
    cases hok
    exact { h with
      types := by
        intro other hother
        have hne : other ≠ type := by
          rintro rfl
          exact absurd (hother.symm.trans hskipped) Bool.false_ne_true
        rw [List.mem_append, List.mem_singleton, or_iff_left hne]
        exact h.types other hother }
  · rw [if_neg hskipped] at hok
    cases hfound : g.byChannelType type with
    | some q =>
      rw [hfound] at hok
      cases hok
    | none =>
      rw [hfound] at hok
      cases hok
      exact {
        plugins := h.plugins
        byKey := h.byKey
        routes := h.routes
        modelOf := h.modelOf
        ofModel := h.ofModel
        types := by
          intro other hother
          show (∃ q, Function.update g.byChannelType type (some p) other = some q) ↔ _
          rw [List.mem_append, List.mem_singleton]
          by_cases hsame : other = type
          · subst hsame
            rw [Function.update_self]
            exact ⟨fun _ => .inr rfl, fun _ => ⟨p, rfl⟩⟩
          · rw [Function.update_of_ne hsame, or_iff_left hsame]
            exact h.types other hother
        routeIndex := h.routeIndex
        endpointOf := h.endpointOf
        ofEndpoint := h.ofEndpoint }

/-! ### One route -/

theorem addRoute_ok_iff {b : RouteBinding} (hkey : ∃ key, b.route.indexKey = .ok key)
    (h : Indexed g c) :
    (∃ t, addRoute b.plugin g b.route = .ok t) ↔
      ∀ other ∈ c.routes, other.route.indexKey ≠ b.route.indexKey := by
  obtain ⟨key, hkey⟩ := hkey
  unfold addRoute
  rw [hkey]
  dsimp only
  have hindex := h.routeIndex key
  cases hfound : g.routeIndex key with
  | none =>
    refine ⟨fun _ other hother hsame => ?_, fun _ => ⟨_, rfl⟩⟩
    obtain ⟨q, hq⟩ := hindex.mpr ⟨other, hother, hsame⟩
    rw [hfound] at hq
    cases hq
  | some q =>
    refine ⟨fun ⟨_, hok⟩ => (by cases hok), fun hall => ?_⟩
    obtain ⟨other, hother, hsame⟩ := hindex.mp ⟨q, hfound⟩
    exact absurd hsame (hall other hother)

theorem addRoute_indexed {b : RouteBinding} (h : Indexed g c)
    (hok : addRoute b.plugin g b.route = .ok t) :
    Indexed t { c with routes := c.routes ++ [b] } := by
  unfold addRoute at hok
  cases hkey : b.route.indexKey with
  | error e =>
    rw [hkey] at hok
    cases hok
  | ok key =>
    rw [hkey] at hok
    dsimp only at hok
    cases hfound : g.routeIndex key with
    | some q =>
      rw [hfound] at hok
      cases hok
    | none =>
      rw [hfound] at hok
      cases hok
      exact {
        plugins := h.plugins
        byKey := h.byKey
        routes := congrArg (· ++ [b]) h.routes
        modelOf := h.modelOf
        ofModel := h.ofModel
        types := h.types
        routeIndex := by
          intro other
          show (∃ q, Function.update g.routeIndex key (some b) other = some q) ↔
            ∃ q ∈ c.routes ++ [b], q.route.indexKey = .ok other
          by_cases hsame : other = key
          · subst hsame
            rw [Function.update_self]
            exact ⟨fun _ => ⟨b, by simp, hkey⟩, fun _ => ⟨b, rfl⟩⟩
          · rw [Function.update_of_ne hsame]
            refine (h.routeIndex other).trans ⟨fun ⟨q, hq, heq⟩ => ?_, fun ⟨q, hq, heq⟩ => ?_⟩
            · exact ⟨q, List.mem_append_left _ hq, heq⟩
            · obtain hq | hq := List.mem_append.mp hq
              · exact ⟨q, hq, heq⟩
              · rw [List.mem_singleton.mp hq, hkey] at heq
                exact absurd (Except.ok.inj heq).symm hsame
        endpointOf := h.endpointOf
        ofEndpoint := h.ofEndpoint }

/-! ### One endpoint -/

theorem Indexed.endpoint (h : Indexed g c)
    (hsame : ∀ b, (g.protocolIndex (endpointKey e)).head? = some b → b.protocol = e.2.protocol) :
    Indexed
      { g with
        protocolIndex := Function.update g.protocolIndex (endpointKey e)
          (g.protocolIndex (endpointKey e) ++ [e.2]) }
      { c with endpoints := c.endpoints ++ [e] } where
  plugins := h.plugins
  byKey := h.byKey
  routes := h.routes
  modelOf := h.modelOf
  ofModel := h.ofModel
  types := h.types
  routeIndex := h.routeIndex
  endpointOf := by
    intro key b hb
    have hbefore : b ∈ g.protocolIndex key → ∃ endpoint ∈ c.endpoints ++ [e],
        endpointKey endpoint = key ∧ endpoint.2.protocol = b.protocol := by
      intro hb
      obtain ⟨endpoint, hmem, heq⟩ := h.endpointOf key b hb
      exact ⟨endpoint, List.mem_append_left _ hmem, heq⟩
    by_cases hkey : key = endpointKey e
    · subst hkey
      have hb' : b ∈ g.protocolIndex (endpointKey e) ++ [e.2] := by
        have hself : Function.update g.protocolIndex (endpointKey e)
            (g.protocolIndex (endpointKey e) ++ [e.2]) (endpointKey e) = _ :=
          Function.update_self ..
        exact hself ▸ hb
      obtain hb' | hb' := List.mem_append.mp hb'
      · exact hbefore hb'
      · rw [List.mem_singleton.mp hb']
        exact ⟨e, by simp, rfl, rfl⟩
    · refine hbefore ?_
      have hother : Function.update g.protocolIndex (endpointKey e)
          (g.protocolIndex (endpointKey e) ++ [e.2]) key = g.protocolIndex key :=
        Function.update_of_ne hkey _ _
      exact hother ▸ hb
  ofEndpoint := by
    intro endpoint hmem
    show ∃ b, (Function.update g.protocolIndex (endpointKey e)
      (g.protocolIndex (endpointKey e) ++ [e.2]) (endpointKey endpoint)).head? = some b ∧ _
    obtain hmem | hmem := List.mem_append.mp hmem
    · obtain ⟨b, hhead, hprotocol⟩ := h.ofEndpoint endpoint hmem
      refine ⟨b, ?_, hprotocol⟩
      by_cases hkey : endpointKey endpoint = endpointKey e
      · rw [hkey] at hhead ⊢
        rw [Function.update_self, List.head?_append, hhead]
        rfl
      · rw [Function.update_of_ne hkey]
        exact hhead
    · rw [List.mem_singleton.mp hmem, Function.update_self, List.head?_append]
      cases hhead : (g.protocolIndex (endpointKey e)).head? with
      | none => exact ⟨e.2, rfl, rfl⟩
      | some b => exact ⟨b, rfl, hsame b hhead⟩

theorem addEndpoint_new (hhead : (g.protocolIndex (endpointKey e)).head? = none) :
    addEndpoint p g e = .ok { g with
      protocolIndex := Function.update g.protocolIndex (endpointKey e)
        (g.protocolIndex (endpointKey e) ++ [e.2]) } := by
  unfold addEndpoint
  dsimp only
  rw [show (g.protocolIndex (endpointIndexKey e.1 e.2.operation.path e.2.model)).head? = none
    from hhead]
  rfl

theorem addEndpoint_beside {b : ProtocolBinding}
    (hhead : (g.protocolIndex (endpointKey e)).head? = some b) :
    addEndpoint p g e =
      if e.2.protocol ≠ b.protocol then
        .error (.protocol p.key e.1 e.2.operation.path e.2.model b.plugin.key)
      else
        .ok { g with
          protocolIndex := Function.update g.protocolIndex (endpointKey e)
            (g.protocolIndex (endpointKey e) ++ [e.2]) } := by
  unfold addEndpoint
  dsimp only
  rw [show (g.protocolIndex (endpointIndexKey e.1 e.2.operation.path e.2.model)).head? = some b
    from hhead]
  rfl

theorem addEndpoint_ok_iff (h : Indexed g c) :
    (∃ t, addEndpoint p g e = .ok t) ↔
      ∀ other ∈ c.endpoints, endpointKey other = endpointKey e →
        other.2.protocol = e.2.protocol := by
  cases hhead : (g.protocolIndex (endpointKey e)).head? with
  | none =>
    refine ⟨fun _ other hother hsame => ?_, fun _ => ⟨_, addEndpoint_new hhead⟩⟩
    obtain ⟨b, hb, -⟩ := h.ofEndpoint other hother
    rw [hsame, hhead] at hb
    cases hb
  | some b =>
    rw [addEndpoint_beside hhead]
    obtain ⟨first, hfirst, hkey, hprotocol⟩ :=
      h.endpointOf _ b (List.mem_of_mem_head? hhead)
    by_cases hdiffer : e.2.protocol ≠ b.protocol
    · rw [if_pos hdiffer]
      refine ⟨fun hok => ?_, fun hall => ?_⟩
      · obtain ⟨_, hok⟩ := hok
        cases hok
      · exact absurd ((hall first hfirst hkey).symm.trans hprotocol) hdiffer
    · rw [if_neg hdiffer]
      refine ⟨fun _ other hother hsame => ?_, fun _ => ⟨_, rfl⟩⟩
      obtain ⟨b', hb', hprotocol'⟩ := h.ofEndpoint other hother
      rw [hsame, hhead] at hb'
      rw [← hprotocol', ← Option.some.inj hb']
      exact (not_not.mp hdiffer).symm

theorem addEndpoint_indexed (h : Indexed g c) (hok : addEndpoint p g e = .ok t) :
    Indexed t { c with endpoints := c.endpoints ++ [e] } := by
  cases hhead : (g.protocolIndex (endpointKey e)).head? with
  | none =>
    rw [addEndpoint_new hhead] at hok
    cases hok
    refine h.endpoint fun b hb => ?_
    rw [hhead] at hb
    cases hb
  | some b =>
    rw [addEndpoint_beside hhead] at hok
    obtain ⟨hdiffer, ⟨⟩⟩ := guard_eq_ok.mp hok
    refine h.endpoint fun b' hb' => ?_
    rw [hhead] at hb'
    cases hb'
    exact (not_not.mp hdiffer).symm

end Add

/-! ### The endpoints of one plugin -/

/-- Every endpoint with a model field: the protocol, the method and the path. -/
def modelEndpoints : List (String × String × String) :=
  hostProtocols.flatMap fun definition =>
    (definition.operations.filter fun operation => operation.modelField ≠ "").flatMap
      fun operation => operation.methods.map fun method => (definition.name, method, operation.path)

theorem modelEndpoints_plain : ∀ e ∈ modelEndpoints,
    '\x00' ∉ e.2.1.toList ∧ '\x00' ∉ e.2.2.toList := by decide +kernel

theorem modelEndpoints_unique : ∀ e ∈ modelEndpoints, ∀ e' ∈ modelEndpoints,
    e.2 = e'.2 → e.1 = e'.1 := by decide +kernel

theorem mem_modelEndpoints {p : LoadedPlugin} (h : e ∈ p.endpoints) :
    (e.2.protocol, e.1, e.2.operation.path) ∈ modelEndpoints := by
  obtain ⟨claim, -, h⟩ := List.mem_flatMap.mp h
  obtain ⟨operation, hoperation, h⟩ := List.mem_flatMap.mp h
  obtain ⟨method, hmethod, h⟩ := List.mem_flatMap.mp h
  obtain ⟨model, -, rfl⟩ := List.mem_map.mp h
  obtain ⟨hoperation, hfield⟩ := List.mem_filter.mp hoperation
  cases hprotocol : hostProtocol claim.name with
  | none =>
    rw [hprotocol] at hoperation
    cases hoperation
  | some definition =>
    rw [hprotocol] at hoperation
    have hfind : (hostProtocols.find? fun d => d.name = claim.name) = some definition := hprotocol
    have htrue := List.find?_some hfind
    have hname : definition.name = claim.name := of_decide_eq_true htrue
    refine List.mem_flatMap.mpr ⟨definition, List.mem_of_find?_eq_some hprotocol, ?_⟩
    refine List.mem_flatMap.mpr ⟨operation, List.mem_filter.mpr ⟨hoperation, hfield⟩, ?_⟩
    exact List.mem_map.mpr ⟨method, hmethod, by rw [hname]⟩

theorem splitOn_endpointKey {method path : String} (hmethod : '\x00' ∉ method.toList)
    (hpath : '\x00' ∉ path.toList) :
    (endpointIndexKey method path model).toList.splitOn '\x00' =
      method.toList :: path.toList :: model.toList.splitOn '\x00' := by
  have hlist : (endpointIndexKey method path model).toList =
      method.toList ++ '\x00' :: (path.toList ++ '\x00' :: model.toList) := by
    unfold endpointIndexKey
    simp only [String.toList_append, List.append_assoc]
    rfl
  rw [hlist, List.splitOn_append_cons_self_of_not_mem hmethod,
    List.splitOn_append_cons_self_of_not_mem hpath]

theorem endpoints_agree {p q : LoadedPlugin} {e' : String × ProtocolBinding} (h : e ∈ p.endpoints)
    (h' : e' ∈ q.endpoints) (hkey : endpointKey e = endpointKey e') :
    e.2.protocol = e'.2.protocol := by
  have hmem := mem_modelEndpoints h
  have hmem' := mem_modelEndpoints h'
  obtain ⟨hmethod, hpath⟩ := modelEndpoints_plain _ hmem
  obtain ⟨hmethod', hpath'⟩ := modelEndpoints_plain _ hmem'
  have hsplit := congrArg (fun key : String => key.toList.splitOn '\x00') hkey
  unfold endpointKey at hsplit
  rw [splitOn_endpointKey hmethod hpath, splitOn_endpointKey hmethod' hpath'] at hsplit
  obtain ⟨hm, hrest⟩ := List.cons.inj hsplit
  obtain ⟨hp, -⟩ := List.cons.inj hrest
  refine modelEndpoints_unique _ hmem _ hmem' ?_
  exact Prod.ext (String.toList_inj.mp hm) (String.toList_inj.mp hp)

/-! ### One plugin -/

section Plugin

variable {g t : RoutingGeneration} {c : Contents} {p : LoadedPlugin}

theorem addModels_ok_iff (h : Indexed g c) :
    (∃ t, p.models.foldlM (addModel p) g = .ok t) ↔
      ∀ other ∈ c.models, ∀ model ∈ p.models,
        asciiFold other = asciiFold model → other = model := by
  have hown : p.models.Pairwise fun m n => asciiFold m = asciiFold n → m = n := by
    have hnodup := p.checks.2.2.1
    rw [List.nodup_iff_pairwise_ne, List.pairwise_map] at hnodup
    exact hnodup.imp fun hne heq => absurd heq hne
  exact (foldlM_ok_iff (f := addModel p) (fun t l => Indexed t { c with models := l })
    (P := fun _ => True) (R := fun m n => asciiFold m = asciiFold n → m = n)
    (fun _ _ _ _ hs hok => addModel_indexed hs hok) (fun _ _ _ _ hs => addModel_ok_iff hs)
    (fun _ _ => trivial) h).trans (and_iff_right hown)

theorem addChannelTypes_ok_iff (h : Indexed g c) :
    (∃ t, p.channelTypes.foldlM (addChannelType p) g = .ok t) ↔
      ∀ other ∈ c.types, ∀ type ∈ p.channelTypes, other ≠ type := by
  have hown : p.channelTypes.Pairwise fun m n => m ≠ n :=
    List.nodup_iff_pairwise_ne.mp p.checks.2.1
  exact (foldlM_ok_iff (f := addChannelType p) (fun t l => Indexed t { c with types := l })
    (P := fun type => skipped type = false) (R := fun m n => m ≠ n)
    (fun _ _ _ _ hs hok => addChannelType_indexed hs hok)
    (fun _ _ _ ha hs => addChannelType_ok_iff ha hs) p.checks.1 h).trans (and_iff_right hown)

theorem addRoutes_eq : p.routes.foldlM (addRoute p) g =
    p.bindings.foldlM (fun g b => addRoute b.plugin g b.route) g := by
  unfold LoadedPlugin.bindings
  rw [List.foldlM_map]

theorem addRoutes_ok_iff (h : Indexed g c) :
    (∃ t, p.routes.foldlM (addRoute p) g = .ok t) ↔
      ∀ other ∈ c.routes, ∀ b ∈ p.bindings, other.route.indexKey ≠ b.route.indexKey := by
  have hkeyed : ∀ b ∈ p.bindings, ∃ key, b.route.indexKey = .ok key := by
    intro b hb
    obtain ⟨route, hroute, rfl⟩ := List.mem_map.mp hb
    exact (p.route_valid hroute).2.2.2
  have hown : p.bindings.Pairwise fun b b' => b.route.indexKey ≠ b'.route.indexKey := by
    have hnodup := p.checks.2.2.2.2.1
    rw [List.nodup_iff_pairwise_ne, List.pairwise_map] at hnodup
    unfold LoadedPlugin.bindings
    rw [List.pairwise_map]
    exact hnodup.imp fun hne heq => hne (congrArg Except.toOption heq)
  rw [addRoutes_eq]
  exact (foldlM_ok_iff (f := fun g (b : RouteBinding) => addRoute b.plugin g b.route)
    (fun t l => Indexed t { c with routes := l })
    (P := fun b => ∃ key, b.route.indexKey = .ok key)
    (R := fun b b' => b.route.indexKey ≠ b'.route.indexKey)
    (fun _ _ _ _ hs hok => addRoute_indexed hs hok) (fun _ _ _ ha hs => addRoute_ok_iff ha hs)
    hkeyed h).trans (and_iff_right hown)

theorem addEndpoints_ok_iff (h : Indexed g c) :
    (∃ t, p.endpoints.foldlM (addEndpoint p) g = .ok t) ↔
      ∀ other ∈ c.endpoints, ∀ e ∈ p.endpoints,
        endpointKey other = endpointKey e → other.2.protocol = e.2.protocol := by
  have hown : p.endpoints.Pairwise fun e e' =>
      endpointKey e = endpointKey e' → e.2.protocol = e'.2.protocol :=
    List.pairwise_of_forall_mem_list fun e he e' he' => endpoints_agree he he'
  exact (foldlM_ok_iff (f := addEndpoint p) (fun t l => Indexed t { c with endpoints := l })
    (P := fun _ => True)
    (R := fun e e' => endpointKey e = endpointKey e' → e.2.protocol = e'.2.protocol)
    (fun _ _ _ _ hs hok => addEndpoint_indexed hs hok) (fun _ _ _ _ hs => addEndpoint_ok_iff hs)
    (fun _ _ => trivial) h).trans (and_iff_right hown)

theorem Indexed.start (h : Indexed g c) (p : LoadedPlugin) :
    Indexed
      { g with
        byKey := Function.update g.byKey p.key (some p)
        plugins := g.plugins ++ [p] }
      { c with plugins := c.plugins ++ [p] } where
  plugins := congrArg (· ++ [p]) h.plugins
  byKey := by
    unfold keyIndex
    rw [List.foldl_append, h.byKey]
    rfl
  routes := h.routes
  modelOf := h.modelOf
  ofModel := h.ofModel
  types := h.types
  routeIndex := h.routeIndex
  endpointOf := h.endpointOf
  ofEndpoint := h.ofEndpoint

theorem addPlugin_eq_ok : addPlugin g p = .ok t ↔ ∃ g₁ g₂ g₃,
    p.models.foldlM (addModel p)
      { g with
        byKey := Function.update g.byKey p.key (some p)
        plugins := g.plugins ++ [p] } = .ok g₁ ∧
    p.channelTypes.foldlM (addChannelType p) g₁ = .ok g₂ ∧
    p.routes.foldlM (addRoute p) g₂ = .ok g₃ ∧ p.endpoints.foldlM (addEndpoint p) g₃ = .ok t := by
  unfold addPlugin
  simp only [bind_eq_ok, ← exists_and_left]

def Contents.add (c : Contents) (p : LoadedPlugin) : Contents where
  plugins := c.plugins ++ [p]
  models := c.models ++ p.models
  types := c.types ++ p.channelTypes
  routes := c.routes ++ p.bindings
  endpoints := c.endpoints ++ p.endpoints

theorem Indexed.models (h : Indexed g c) (hok : p.models.foldlM (addModel p) g = .ok t) :
    Indexed t { c with models := c.models ++ p.models } :=
  foldlM_ok_induct (fun t l => Indexed t { c with models := l })
    (fun _ _ _ _ hs hok => addModel_indexed hs hok) h hok

theorem Indexed.channelTypes (h : Indexed g c)
    (hok : p.channelTypes.foldlM (addChannelType p) g = .ok t) :
    Indexed t { c with types := c.types ++ p.channelTypes } :=
  foldlM_ok_induct (fun t l => Indexed t { c with types := l })
    (fun _ _ _ _ hs hok => addChannelType_indexed hs hok) h hok

theorem Indexed.bindings (h : Indexed g c) (hok : p.routes.foldlM (addRoute p) g = .ok t) :
    Indexed t { c with routes := c.routes ++ p.bindings } := by
  rw [addRoutes_eq] at hok
  exact foldlM_ok_induct (fun t l => Indexed t { c with routes := l })
    (fun _ _ _ _ hs hok => addRoute_indexed hs hok) h hok

theorem Indexed.endpoints (h : Indexed g c) (hok : p.endpoints.foldlM (addEndpoint p) g = .ok t) :
    Indexed t { c with endpoints := c.endpoints ++ p.endpoints } :=
  foldlM_ok_induct (fun t l => Indexed t { c with endpoints := l })
    (fun _ _ _ _ hs hok => addEndpoint_indexed hs hok) h hok

theorem Indexed.add (h : Indexed g c) (hok : addPlugin g p = .ok t) : Indexed t (c.add p) := by
  obtain ⟨g₁, g₂, g₃, hmodels, htypes, hroutes, hendpoints⟩ := addPlugin_eq_ok.mp hok
  exact (((h.start p).models hmodels).channelTypes htypes |>.bindings hroutes).endpoints hendpoints

theorem Contents.of_concat (plugins : List LoadedPlugin) (p : LoadedPlugin) :
    Contents.of (plugins ++ [p]) = (Contents.of plugins).add p := by
  unfold Contents.of Contents.add
  simp only [List.flatMap_append, List.flatMap_singleton]

theorem addPlugin_ok_iff {plugins : List LoadedPlugin} (h : Indexed g (.of plugins)) :
    (∃ t, addPlugin g p = .ok t) ↔ ∀ q ∈ plugins, ¬Conflict q p := by
  have hmodels := addModels_ok_iff (p := p) (h.start p)
  constructor
  · rintro ⟨t, hok⟩ q hq
    obtain ⟨g₁, g₂, g₃, hok₁, hok₂, hok₃, hok₄⟩ := addPlugin_eq_ok.mp hok
    have h₁ := (h.start p).models hok₁
    have h₂ := h₁.channelTypes hok₂
    rintro (⟨m, hm, n, hn, hfold, hne⟩ | ⟨type, htype, htype'⟩ | ⟨r, hr, r', hr', hkey⟩ |
      ⟨e, he, e', he', hkey, hne⟩)
    · have hmem : m ∈ plugins.flatMap (·.models) := List.mem_flatMap.mpr ⟨q, hq, hm⟩
      exact hne (hmodels.mp ⟨g₁, hok₁⟩ m hmem n hn hfold)
    · have hmem : type ∈ plugins.flatMap (·.channelTypes) := List.mem_flatMap.mpr ⟨q, hq, htype⟩
      exact (addChannelTypes_ok_iff h₁).mp ⟨g₂, hok₂⟩ type hmem type htype' rfl
    · have hmem : (⟨q, r⟩ : RouteBinding) ∈ plugins.flatMap LoadedPlugin.bindings :=
        List.mem_flatMap.mpr ⟨q, hq, List.mem_map_of_mem hr⟩
      have hown : (⟨p, r'⟩ : RouteBinding) ∈ p.bindings := List.mem_map_of_mem hr'
      refine (addRoutes_ok_iff h₂).mp ⟨g₃, hok₃⟩ _ hmem _ hown ?_
      obtain ⟨key, hrKey⟩ := (q.route_valid hr).2.2.2
      obtain ⟨key', hrKey'⟩ := (p.route_valid hr').2.2.2
      rw [hrKey, hrKey'] at hkey
      show r.indexKey = r'.indexKey
      rw [hrKey, hrKey', Option.some.inj hkey]
    · exact hne (endpoints_agree he he' hkey)
  · intro hnone
    obtain ⟨g₁, hok₁⟩ := hmodels.mpr fun m hm n hn hfold => by
      obtain ⟨q, hq, hm⟩ := List.mem_flatMap.mp hm
      by_contra hne
      exact hnone q hq (.inl ⟨m, hm, n, hn, hfold, hne⟩)
    have h₁ := (h.start p).models hok₁
    obtain ⟨g₂, hok₂⟩ := (addChannelTypes_ok_iff (p := p) h₁).mpr fun type htype type' htype' => by
      rintro rfl
      obtain ⟨q, hq, htype⟩ := List.mem_flatMap.mp htype
      exact hnone q hq (.inr (.inl ⟨type, htype, htype'⟩))
    have h₂ := h₁.channelTypes hok₂
    obtain ⟨g₃, hok₃⟩ := (addRoutes_ok_iff (p := p) h₂).mpr fun b hb b' hb' hkey => by
      obtain ⟨q, hq, hb⟩ := List.mem_flatMap.mp hb
      obtain ⟨r, hr, rfl⟩ := List.mem_map.mp hb
      obtain ⟨r', hr', rfl⟩ := List.mem_map.mp hb'
      exact hnone q hq (.inr (.inr (.inl ⟨r, hr, r', hr', congrArg Except.toOption hkey⟩)))
    obtain ⟨t, hok₄⟩ := (addEndpoints_ok_iff (p := p) (h₂.bindings hok₃)).mpr
      fun e he e' he' hkey => by
        obtain ⟨q, hq, he⟩ := List.mem_flatMap.mp he
        exact endpoints_agree he he' hkey
    exact ⟨t, addPlugin_eq_ok.mpr ⟨g₁, g₂, g₃, hok₁, hok₂, hok₃, hok₄⟩⟩

end Plugin

/-! ### Generations -/

theorem Conflict.symm {p q : LoadedPlugin} (h : Conflict p q) : Conflict q p := by
  obtain ⟨m, hm, n, hn, hfold, hne⟩ | ⟨type, htype, htype'⟩ | ⟨r, hr, r', hr', hkey⟩ |
    ⟨e, he, e', he', hkey, hne⟩ := h
  · exact .inl ⟨n, hn, m, hm, hfold.symm, hne.symm⟩
  · exact .inr (.inl ⟨type, htype', htype⟩)
  · exact .inr (.inr (.inl ⟨r', hr', r, hr, hkey.symm⟩))
  · exact .inr (.inr (.inr ⟨e', he', e, he, hkey.symm, hne.symm⟩))

theorem PluginMap.key_of_find {plugins : PluginMap} {key : String} {p : LoadedPlugin}
    (h : plugins.find key = some p) : p.key = key :=
  @Table.key_of_find _ _ _ (fun plugin : LoadedPlugin => plugin.key) _ _ _ h

def PluginMap.ConflictFree (plugins : PluginMap) : Prop :=
  ∀ p ∈ plugins.rows, ∀ q ∈ plugins.rows, p.key ≠ q.key → ¬Conflict p q

theorem sortStrings_eq {keys keys' : List String} (h : keys.Perm keys') :
    sortStrings keys = sortStrings keys' := by
  have hperm : (sortStrings keys).Perm (sortStrings keys') :=
    ((List.perm_insertionSort _ keys).trans h).trans (List.perm_insertionSort _ keys').symm
  exact hperm.eq_of_pairwise (fun _ _ _ _ hab hba => le_antisymm hab hba)
    (List.pairwise_insertionSort _ keys) (List.pairwise_insertionSort _ keys')

section Order

variable {order order' : MapOrder} {plugins : PluginMap} {number : Nat} {g : RoutingGeneration}

theorem inOrder_eq : plugins.inOrder order = plugins.inOrder order' := by
  unfold PluginMap.inOrder
  rw [sortStrings_eq ((order.perm _).trans (order'.perm _).symm)]

theorem perm_inOrder : (plugins.inOrder order).Perm plugins.rows := by
  have hfind : ∀ rows : List LoadedPlugin, (∀ row ∈ rows, row ∈ plugins.rows) →
      (rows.map (·.key)).filterMap plugins.find = rows := by
    intro rows
    induction rows with
    | nil => exact fun _ => rfl
    | cons row rest ih =>
      intro hrows
      obtain ⟨hrow, hrest⟩ := List.forall_mem_cons.mp hrows
      rw [List.map_cons, List.filterMap_cons, Table.find_of_mem hrow, ih hrest]
  have hperm : (sortStrings (order.range (plugins.rows.map (·.key)))).Perm
      (plugins.rows.map (·.key)) := (List.perm_insertionSort _ _).trans (order.perm _)
  have hall := hperm.filterMap plugins.find
  rw [hfind plugins.rows fun _ h => h] at hall
  exact hall

theorem build_eq (order order' : MapOrder) :
    buildRoutingGenerationFromPlugins order plugins number =
      buildRoutingGenerationFromPlugins order' plugins number := by
  unfold buildRoutingGenerationFromPlugins
  rw [inOrder_eq]

theorem build_ok_iff (order : MapOrder) (number : Nat) :
    (∃ g, buildRoutingGenerationFromPlugins order plugins number = .ok g) ↔
      plugins.ConflictFree := by
  have hbuild : (∃ g, buildRoutingGenerationFromPlugins order plugins number = .ok g) ↔
      (plugins.inOrder order).Pairwise fun p q => ¬Conflict p q := by
    exact (foldlM_ok_iff (f := addPlugin) (fun g l => Indexed g (.of l))
      (P := fun _ => True) (R := fun p q => ¬Conflict p q)
      (fun _ l p _ hs hok => Contents.of_concat l p ▸ hs.add hok)
      (fun _ _ _ _ hs => addPlugin_ok_iff hs) (fun _ _ => trivial)
      (indexed_empty number)).trans ⟨fun h => h.1, fun h => ⟨h, by simp⟩⟩
  have hsymm : ∀ {p q : LoadedPlugin}, ¬Conflict p q → ¬Conflict q p :=
    fun hnot hconflict => hnot hconflict.symm
  rw [hbuild, perm_inOrder.pairwise_iff hsymm]
  constructor
  · intro hpairwise p hp q hq hne
    have : Std.Symm fun p q : LoadedPlugin => ¬Conflict p q := ⟨fun _ _ => hsymm⟩
    exact hpairwise.forall hp hq fun heq => hne (congrArg (·.key) heq)
  · intro hfree
    have hkeys := plugins.keys
    rw [List.nodup_iff_pairwise_ne, List.pairwise_map] at hkeys
    exact hkeys.imp_of_mem fun hp hq hne => hfree _ hp _ hq hne

theorem indexed_of_build (h : buildRoutingGenerationFromPlugins order plugins number = .ok g) :
    Indexed g (.of (plugins.inOrder order)) :=
  foldlM_ok_induct (fun g l => Indexed g (.of l))
    (fun _ l p _ hs hok => Contents.of_concat l p ▸ hs.add hok) (indexed_empty number) h

theorem mem_plugins_of_build (h : buildRoutingGenerationFromPlugins order plugins number = .ok g)
    (p : LoadedPlugin) : p ∈ g.plugins ↔ p ∈ plugins.rows := by
  rw [(indexed_of_build h).plugins]
  exact perm_inOrder.mem_iff

theorem keyIndex_concat (l : List LoadedPlugin) (p : LoadedPlugin) :
    keyIndex (l ++ [p]) = Function.update (keyIndex l) p.key (some p) := by
  unfold keyIndex
  rw [List.foldl_append]
  rfl

theorem keyIndex_iff {l : List LoadedPlugin} (h : (l.map (·.key)).Nodup) {key : String}
    {p : LoadedPlugin} : keyIndex l key = some p ↔ p ∈ l ∧ p.key = key := by
  induction l using List.reverseRecOn with
  | nil => exact ⟨fun h => (by cases h), fun h => (by cases h.1)⟩
  | append_singleton l last ih =>
    rw [List.map_append, List.nodup_append] at h
    rw [keyIndex_concat, List.mem_append, List.mem_singleton]
    by_cases hkey : key = last.key
    · subst hkey
      rw [Function.update_self]
      constructor
      · intro heq
        cases heq
        exact ⟨.inr rfl, rfl⟩
      · rintro ⟨hmem | rfl, heq⟩
        · exact absurd heq (h.2.2 _ (List.mem_map_of_mem hmem) _ (by simp))
        · rfl
    · rw [Function.update_of_ne hkey, ih h.1]
      refine and_congr_left fun heq => (or_iff_left ?_).symm
      rintro rfl
      exact hkey heq.symm

theorem byKey_of_build (h : buildRoutingGenerationFromPlugins order plugins number = .ok g)
    (key : String) : g.byKey key = plugins.find key := by
  have hkeys : ((plugins.inOrder order).map (·.key)).Nodup :=
    (perm_inOrder.map _).nodup_iff.mpr plugins.keys
  refine Option.ext fun p => ?_
  rw [(indexed_of_build h).byKey]
  refine (keyIndex_iff hkeys).trans ⟨fun ⟨hmem, heq⟩ => ?_, fun hfind => ?_⟩
  · rw [← heq]
    exact Table.find_of_mem (perm_inOrder.mem_iff.mp hmem)
  · exact ⟨perm_inOrder.mem_iff.mpr (Table.mem_of_find hfind),
      PluginMap.key_of_find hfind⟩

end Order

end JulongApi.PluginRouting

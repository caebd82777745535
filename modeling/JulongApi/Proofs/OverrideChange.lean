/-
What the operations change that go by a wildcard path.

Where every path that is generated leads to its place, an operation changes the matched places and
no others: none of them holds another, and a change leaves every place apart from it.
-/
import JulongApi.Proofs.OverridePlaces

namespace JulongApi.Override

open JsonTree

variable {F : Type} {lib : PathLibrary F}

/-! ### A change of all matched places -/

def ChangedTo (change : PathChange F) (old new : Option (Json F)) : Prop :=
  change old = .ok none ∧ new = old ∨ ∃ value, change old = .ok (some value) ∧ new = some value

variable {change : PathChange F} {result : Json F} {path : String}

variable {doc data : Json F} {components paths : List String} {steps : List Step}
  {text : TextLibrary F} {op : ParamOperation F}

theorem changeValue_eq_ok (hlib : lib.Documented anyName)
    (hpath : LeadsTo path doc components steps) (h : lib.changeValue change doc path = .ok result) :
    change (doc.at steps) = .ok none ∧ result = doc ∨
      ∃ value, change (doc.at steps) = .ok (some value) ∧
        doc.change (fun _ => some value) steps = some result := by
  unfold PathLibrary.changeValue at h
  rw [hlib.get doc path components hpath.spells, getAt_of_locate hpath.located] at h
  have hclear := entersText_of_locate hpath.located
  cases hchange : change (doc.at steps) with
  | error error =>
    rw [hchange] at h
    cases h
  | ok new =>
    rw [hchange] at h
    cases new with
    | none =>
      cases h
      exact .inl ⟨rfl, rfl⟩
    | some value =>
      dsimp only at h
      have hset := setAt_of_locate value hpath.located
      cases hdoc : doc.change (fun _ => some value) steps with
      | none =>
        rw [hdoc] at hset
        obtain ⟨message, hfails⟩ := hlib.setFails doc path components value hpath.spells hclear hset
        rw [hfails] at h
        cases h
      | some new =>
        rw [hdoc] at hset
        rw [hlib.set doc path components value new hpath.spells hclear hset] at h
        cases h
        exact .inr ⟨value, rfl, hdoc⟩

theorem changeValue_changed (hlib : lib.Documented anyName)
    (hpath : LeadsTo path doc components steps) (h : lib.changeValue change doc path = .ok result) :
    ChangedTo change (doc.at steps) (result.at steps) ∧
      (∀ other, Apart steps other → result.at other = doc.at other) ∧
      ∀ other components', Apart steps other → locate components' doc = some other →
        locate components' result = some other := by
  rcases changeValue_eq_ok hlib hpath h with ⟨hchange, rfl⟩ | ⟨value, hchange, hnew⟩
  · exact ⟨.inl ⟨hchange, rfl⟩, fun _ _ => rfl, fun _ _ _ hlocate => hlocate⟩
  · exact ⟨.inr ⟨value, hchange, at_change_self hnew⟩,
      fun other hapart => at_change_apart hapart hnew,
      fun other components' hapart hlocate => locate_change_apart hapart hnew hlocate⟩

theorem changed_run (hlib : lib.Documented anyName) (change : PathChange F)
    (components : String → List String) (place : String → List Step) :
    ∀ {paths : List String} {doc result : Json F},
      (∀ path ∈ paths, LeadsTo path doc (components path) (place path)) →
      paths.Pairwise (fun path other => Apart (place path) (place other)) →
      paths.foldlM (lib.changeValue change) doc = .ok result →
        (∀ path ∈ paths, ChangedTo change (doc.at (place path)) (result.at (place path))) ∧
          ∀ other, (∀ path ∈ paths, Apart (place path) other) → result.at other = doc.at other := by
  intro paths
  induction paths with
  | nil =>
    intro doc result _ _ h
    cases h
    exact ⟨fun _ hmem => (by cases hmem), fun _ _ => rfl⟩
  | cons path rest ih =>
    intro doc result hpaths hapart h
    obtain ⟨hpath, hrest⟩ := List.forall_mem_cons.mp hpaths
    obtain ⟨hfirst, hapart⟩ := List.pairwise_cons.mp hapart
    rw [List.foldlM_cons] at h
    cases hnext : lib.changeValue change doc path with
    | error error =>
      rw [hnext] at h
      cases h
    | ok next =>
      rw [hnext] at h
      obtain ⟨hchanged, hothers, hlocated⟩ := changeValue_changed hlib hpath hnext
      have hleads : ∀ path ∈ rest, LeadsTo path next (components path) (place path) := by
        intro path hmem
        have hleads := hrest path hmem
        exact ⟨hleads.joined, hleads.read, hlocated _ _ (hfirst path hmem) hleads.located⟩
      obtain ⟨hchangedRest, hothersRest⟩ := ih hleads hapart h
      constructor
      · refine List.forall_mem_cons.mpr ⟨?_, ?_⟩
        · rw [hothersRest _ fun other hmem => (hfirst other hmem).symm]
          exact hchanged
        · intro other hmem
          rw [← hothers _ (hfirst other hmem)]
          exact hchangedRest other hmem
      · intro other hall
        obtain ⟨hpathApart, hrestApart⟩ := List.forall_mem_cons.mp hall
        rw [hothersRest other hrestApart, hothers other hpathApart]

theorem applyChange_exact (hlib : lib.Documented anyName)
    (hwildcard : contains (lib.processNegativeIndex data path) "*" = true)
    (hexpand : lib.expandWildcardPaths data (lib.processNegativeIndex data path) = .ok paths)
    (hplain : PlainPlaces (lib.processNegativeIndex data path) data)
    (h : lib.applyChange change data path = .ok result) :
    (∀ generated steps, GeneratedFor (lib.processNegativeIndex data path) data generated steps →
        ChangedTo change (data.at steps) (result.at steps)) ∧
      ∀ other, (∀ generated steps,
          GeneratedFor (lib.processNegativeIndex data path) data generated steps →
            Apart steps other) → result.at other = data.at other := by
  have hmem := mem_expand_iff hexpand
  have hmatched : ∀ generated ∈ paths, ∃ components, generated = ".".intercalate components ∧
      Matched (split (lib.processNegativeIndex data path) '.') data components
        (placeOf data generated) ∧
      LeadsTo generated data (componentsOf generated) (placeOf data generated) := by
    intro generated hgenerated
    obtain ⟨steps, components, hmatched, rfl⟩ := (hmem generated).mp hgenerated
    have hleads := hmatched.leadsTo (hplain components steps hmatched)
    rw [hleads.componentsOf_eq, hleads.placeOf_eq]
    exact ⟨components, rfl, hmatched, hleads⟩
  have hapart : paths.Pairwise
      (fun path other => Apart (placeOf data path) (placeOf data other)) := by
    refine (nodup_expand hexpand).imp_of_mem fun {first second} hfirst hsecond hne => ?_
    obtain ⟨components, rfl, hmatched₁, -⟩ := hmatched first hfirst
    obtain ⟨others, rfl, hmatched₂, -⟩ := hmatched second hsecond
    exact hmatched₁.apart hmatched₂ fun h => hne (by rw [h])
  obtain ⟨hchanged, hothers⟩ := changed_run hlib change componentsOf (placeOf data)
    (fun generated hgenerated => (hmatched generated hgenerated).choose_spec.2.2) hapart
    (applyPaths_eq_ok hwildcard hexpand h)
  constructor
  · rintro generated steps ⟨components, hmatch, rfl⟩
    have hleads := hmatch.leadsTo (hplain components steps hmatch)
    have hgenerated := (hmem _).mpr ⟨steps, components, hmatch, rfl⟩
    have hresult := hchanged _ hgenerated
    rw [hleads.placeOf_eq] at hresult
    exact hresult
  · intro other hall
    refine hothers other fun generated hgenerated => ?_
    obtain ⟨components, hjoined, hmatch, -⟩ := hmatched generated hgenerated
    exact hall generated _ ⟨components, hmatch, hjoined⟩

/-- **The paths of a wildcard lead to the places they were generated for exactly where all of them
are plain**, and then an operation changes these places alone. -/
theorem wildcard_exact_iff (hlib : lib.Documented anyName) {data : Json F} {path : String}
    {paths : List String} (hexpand : lib.expandWildcardPaths data path = .ok paths) :
    (∀ generated, generated ∈ paths ↔ ∃ steps, GeneratedFor path data generated steps) ∧
      ((∀ generated ∈ paths, ∀ steps, GeneratedFor path data generated steps →
          Addresses generated data steps) ↔ PlainPlaces path data) ∧
      (PlainPlaces path data → contains path "*" = true →
        ∀ (change : PathChange F) (opPath : String) (result : Json F),
          lib.processNegativeIndex data opPath = path →
          lib.applyChange change data opPath = .ok result →
            (∀ generated steps, GeneratedFor path data generated steps →
              ChangedTo change (data.at steps) (result.at steps)) ∧
            ∀ other, (∀ generated steps, GeneratedFor path data generated steps →
              Apart steps other) → result.at other = data.at other) := by
  refine ⟨mem_expand_iff hexpand, ⟨?_, ?_⟩, ?_⟩
  · intro h components steps hmatched
    have hgenerated : GeneratedFor path data (".".intercalate components) steps :=
      ⟨components, hmatched, rfl⟩
    exact hmatched.addresses_iff.mp
      (h _ ((mem_expand_iff hexpand _).mpr ⟨steps, hgenerated⟩) steps hgenerated)
  · rintro hplain generated - steps ⟨components, hmatched, rfl⟩
    exact hmatched.addresses_iff.mpr (hplain components steps hmatched)
  · rintro hplain hwildcard change opPath result rfl hresult
    exact applyChange_exact hlib hwildcard hexpand hplain hresult

/-- **Each mode makes of every matched place what it makes of the value there**, and leaves all
others. -/
theorem applyOperation_exact (hlib : lib.Documented anyName)
    (hwildcard : contains (lib.processNegativeIndex data op.path) "*" = true)
    (hexpand : lib.expandWildcardPaths data (lib.processNegativeIndex data op.path) = .ok paths)
    (hplain : PlainPlaces (lib.processNegativeIndex data op.path) data)
    (h : lib.applyOperation text op data = some (.ok result)) :
    ∃ change, op.change lib text = some change ∧
      (∀ generated steps,
        GeneratedFor (lib.processNegativeIndex data op.path) data generated steps →
          ChangedTo change (data.at steps) (result.at steps)) ∧
      ∀ other, (∀ generated steps,
          GeneratedFor (lib.processNegativeIndex data op.path) data generated steps →
            Apart steps other) → result.at other = data.at other := by
  obtain ⟨change, hchange, hresult⟩ := Option.map_eq_some_iff.mp h
  exact ⟨change, hchange, applyChange_exact hlib hwildcard hexpand hplain hresult⟩

/-- Only `set` adds a value where none is: every other mode fails there. -/
theorem change_missing (h : op.change lib text = some change) :
    op.mode = "set" ∨ change none = .error (.unsupported "Null") := by
  unfold ParamOperation.change at h
  by_cases hset : op.mode = "set"
  · exact .inl hset
  · split at h
    · exact absurd ‹_› hset
    all_goals cases h
    all_goals exact .inr rfl

def twoStrings : Json Nat := .object [("a", .scalar (.string "x")), ("b", .scalar (.string "y"))]

/-- A field whose name is an ordinary word is reached. -/
theorem plain_names_reached :
    Addresses "a" twoStrings [.field "a"] ∧ Addresses "b" twoStrings [.field "b"] := by
  have hexact := @wildcard_exact_iff Nat plainLibrary (plainLibrary_documented anyName) twoStrings
    "*" ["a", "b"] (by decide +kernel)
  have hstar : trimSpace "*" = "*" := by decide +kernel
  suffices hplain : PlainPlaces "*" twoStrings by
    have hreached := hexact.2.1.mpr hplain
    exact ⟨hreached "a" (by simp) _ ⟨["a"], .anyField hstar rfl (.root _), rfl⟩,
      hreached "b" (by simp) _ ⟨["b"], .anyField hstar rfl (.root _), rfl⟩⟩
  intro components steps hmatched
  cases hmatched with
  | anyField _ hchild hrest =>
    cases hrest
    have hname := mem_sortedKeys.mpr ⟨_, hchild⟩
    have hkeys : sortedKeys [("a", (.scalar (.string "x") : Json Nat)),
      ("b", .scalar (.string "y"))] = ["a", "b"] := by decide +kernel
    rw [hkeys] at hname
    simp only [List.mem_cons, List.not_mem_nil, or_false] at hname
    rcases hname with rfl | rfl
    · exact ⟨by decide +kernel, .cons (by decide +kernel : PlainComponent "a") .nil⟩
    · exact ⟨by decide +kernel, .cons (by decide +kernel : PlainComponent "b") .nil⟩
  | field _ hne => exact absurd rfl hne
  | newField _ hne => exact absurd rfl hne

/-- The field `a.b` is not reached by the path that is generated for it. -/
theorem dotted_name_missed : ¬ ∀ (data : Json Nat) (path : String) (paths : List String),
    plainLibrary.expandWildcardPaths data path = .ok paths →
      ∀ generated ∈ paths, ∀ steps, GeneratedFor path data generated steps →
        Addresses generated data steps := by
  intro hall
  have h := hall (.object [("a.b", .scalar (.number 1))]) "*" ["a.b"] (by decide +kernel) "a.b"
    (by decide) [.field "a.b"]
    ⟨["a.b"], .anyField (by decide) rfl (.root _), by decide⟩
  obtain ⟨components, hread, hlocate⟩ := h
  have hcomponents : readPath "a.b" = some ["a", "b"] := by decide
  rw [hcomponents] at hread
  cases hread
  cases hlocate

end JulongApi.Override

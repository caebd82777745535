/-
What admission keeps of the candidates and of the plugins that served before.

The first loop admits candidates (`Admitted`), the second puts back what served before
(`Restored`).  A plugin is turned away only for a conflict with one that has been admitted, and what
has been admitted stays, so the conflict is there at the end.
-/
import JulongApi.Proofs.PluginRouting

namespace JulongApi.PluginRouting

variable {plugins : PluginMap} {g : RoutingGeneration} {key : String} {p : LoadedPlugin}

section Admission

variable (orders : MapOrders) {number : Nat} {candidates serving : PluginMap}

/-! ### One more plugin -/

theorem PluginMap.ConflictFree.put_iff {c : LoadedPlugin} (h : plugins.ConflictFree)
    (hfree : plugins.find c.key = none) :
    PluginMap.ConflictFree (plugins.put c) ↔ ∀ q ∈ plugins.rows, ¬Conflict q c := by
  have hmem : ∀ p, p ∈ (plugins.put c).rows ↔ p = c ∨ p ∈ plugins.rows := fun p =>
    Table.mem_put_of_find_none hfree
  have hne : ∀ q ∈ plugins.rows, q.key ≠ c.key := by
    intro q hq heq
    have hfind := Table.find_of_mem hq
    rw [heq, hfree] at hfind
    cases hfind
  constructor
  · intro hput q hq
    exact hput q ((hmem q).mpr (.inr hq)) c ((hmem c).mpr (.inl rfl)) (hne q hq)
  · intro hnone p hp q hq hkeys
    obtain rfl | hp' := (hmem p).mp hp
    · obtain rfl | hq' := (hmem q).mp hq
      · exact absurd rfl hkeys
      · exact fun hconflict => hnone q hq' hconflict.symm
    · obtain rfl | hq' := (hmem q).mp hq
      · exact hnone p hp'
      · exact h p hp' q hq' hkeys

theorem build_put (order' : MapOrder) {order : MapOrder} {c : LoadedPlugin}
    (h : buildRoutingGenerationFromPlugins order plugins number = .ok g)
    (hfree : plugins.find c.key = none) :
    (∃ trial, buildRoutingGenerationFromPlugins order' (plugins.put c) number = .ok trial) ∨
      (∃ e, buildRoutingGenerationFromPlugins order' (plugins.put c) number = .error e) ∧
        ∃ q ∈ plugins.rows, Conflict q c := by
  cases hbuild : buildRoutingGenerationFromPlugins order' (plugins.put c) number with
  | ok trial => exact .inl ⟨trial, rfl⟩
  | error e =>
    refine .inr ⟨⟨e, rfl⟩, ?_⟩
    by_contra hnone
    have hall : ∀ q ∈ plugins.rows, ¬Conflict q c := fun q hq hconflict => hnone ⟨q, hq, hconflict⟩
    have hput := (PluginMap.ConflictFree.put_iff ((build_ok_iff order number).mp ⟨g, h⟩) hfree).mpr hall
    obtain ⟨trial, htrial⟩ := (build_ok_iff order' number).mpr hput
    rw [hbuild] at htrial
    cases htrial

/-! ### The candidates -/

/-- What the first loop has done of the keys it has seen. -/
structure Admitted (candidates : PluginMap) (number : Nat) (s : Admission) (seen : List String) :
    Prop where
  built : ∃ order, buildRoutingGenerationFromPlugins order s.accepted number = .ok s.generation
  candidate : ∀ p ∈ s.accepted.rows, p.key ∈ seen ∧ candidates.find p.key = some p
  nodup : s.rejectedKeys.Nodup
  rejected : ∀ key, key ∈ s.rejectedKeys ↔ (s.routingErrors key).isSome = true
  rejectedSeen : ∀ key ∈ s.rejectedKeys, key ∈ seen ∧ ∃ c, candidates.find key = some c
  verdict : ∀ key ∈ seen, ∀ c, candidates.find key = some c →
    key ∉ s.rejectedKeys ∧ c ∈ s.accepted.rows ∨
      key ∈ s.rejectedKeys ∧ c ∉ s.accepted.rows ∧ ∃ q ∈ s.accepted.rows, Conflict q c

variable {s : Admission} {seen : List String}

theorem tryCandidate_cases (hfresh : key ∉ seen) (h : Admitted candidates number s seen) :
    (candidates.find key = none ∧ s.tryCandidate orders number candidates key = s) ∨
    (∃ c trial, candidates.find key = some c ∧ s.accepted.find c.key = none ∧
      (∃ order, buildRoutingGenerationFromPlugins order (s.accepted.put c) number = .ok trial) ∧
      s.tryCandidate orders number candidates key =
        { s with accepted := s.accepted.put c, generation := trial }) ∨
    ∃ c e, candidates.find key = some c ∧ (∃ q ∈ s.accepted.rows, Conflict q c) ∧
      s.tryCandidate orders number candidates key =
        { s with
          routingErrors := Function.update s.routingErrors key (some e)
          rejectedKeys := s.rejectedKeys ++ [key] } := by
  unfold Admission.tryCandidate
  cases hfind : candidates.find key with
  | none => exact .inl ⟨rfl, rfl⟩
  | some c =>
    have hkey : c.key = key := PluginMap.key_of_find hfind
    have hfree : s.accepted.find c.key = none := by
      cases hthere : s.accepted.find c.key with
      | none => rfl
      | some p =>
        have hp : p.key = c.key := PluginMap.key_of_find hthere
        have hseen := (h.candidate p (Table.mem_of_find hthere)).1
        rw [hp, hkey] at hseen
        exact absurd hseen hfresh
    obtain ⟨order, hbuilt⟩ := h.built
    obtain ⟨trial, htrial⟩ | ⟨⟨e, he⟩, hconflict⟩ :=
      build_put (orders.trial key) hbuilt hfree
    · refine .inr (.inl ⟨c, trial, rfl, hfree, ⟨_, htrial⟩, ?_⟩)
      dsimp only
      rw [htrial]
    · refine .inr (.inr ⟨c, e, rfl, hconflict, ?_⟩)
      have herase := Table.erase_put_of_find_none hfree
      rw [hkey] at herase
      dsimp only
      rw [he, herase]

theorem Admitted.tryCandidate (hfresh : key ∉ seen) (h : Admitted candidates number s seen) :
    Admitted candidates number (s.tryCandidate orders number candidates key) (seen ++ [key]) := by
  have hseen : ∀ k ∈ seen, k ∈ seen ++ [key] := fun k hk => List.mem_append_left _ hk
  have hself : key ∈ seen ++ [key] := by simp
  have hnew : key ∉ s.rejectedKeys := fun hmem => hfresh (h.rejectedSeen key hmem).1
  obtain ⟨hnone, heq⟩ | ⟨c, trial, hfind, hfree, hbuilt, heq⟩ | ⟨c, e, hfind, hconflict, heq⟩ :=
    tryCandidate_cases orders hfresh h
  · rw [heq]
    exact { h with
      candidate := fun p hp => ⟨hseen _ (h.candidate p hp).1, (h.candidate p hp).2⟩
      rejectedSeen := fun k hk => ⟨hseen _ (h.rejectedSeen k hk).1, (h.rejectedSeen k hk).2⟩
      verdict := by
        intro k hk c hc
        obtain hk | hk := List.mem_append.mp hk
        · exact h.verdict k hk c hc
        · rw [List.mem_singleton.mp hk, hnone] at hc
          cases hc }
  · have hkey : c.key = key := PluginMap.key_of_find hfind
    have hmem : ∀ p, p ∈ (s.accepted.put c).rows ↔ p = c ∨ p ∈ s.accepted.rows := fun p =>
      Table.mem_put_of_find_none hfree
    rw [heq]
    exact {
      built := hbuilt
      candidate := by
        intro p hp
        obtain rfl | hp := (hmem p).mp hp
        · rw [hkey]
          exact ⟨hself, hfind⟩
        · exact ⟨hseen _ (h.candidate p hp).1, (h.candidate p hp).2⟩
      nodup := h.nodup
      rejected := h.rejected
      rejectedSeen := fun k hk => ⟨hseen _ (h.rejectedSeen k hk).1, (h.rejectedSeen k hk).2⟩
      verdict := by
        intro k hk d hd
        by_cases hsame : k = key
        · subst hsame
          cases hfind.symm.trans hd
          exact .inl ⟨hnew, (hmem c).mpr (.inl rfl)⟩
        · have hk : k ∈ seen := by
            obtain hk | hk := List.mem_append.mp hk
            · exact hk
            · exact absurd (List.mem_singleton.mp hk) hsame
          obtain ⟨hnot, hin⟩ | ⟨hrejected, hout, q, hq, hconflict⟩ := h.verdict k hk d hd
          · exact .inl ⟨hnot, (hmem d).mpr (.inr hin)⟩
          · refine .inr ⟨hrejected, fun hd' => ?_, q, (hmem q).mpr (.inr hq), hconflict⟩
            obtain rfl | hd' := (hmem d).mp hd'
            · have hdkey : d.key = k :=
                PluginMap.key_of_find hd
              exact hsame (hdkey.symm.trans hkey)
            · exact hout hd' }
  · have hkey : c.key = key := PluginMap.key_of_find hfind
    have hout : c ∉ s.accepted.rows := fun hc => hfresh (hkey ▸ (h.candidate c hc).1)
    rw [heq]
    exact {
      built := h.built
      candidate := fun p hp => ⟨hseen _ (h.candidate p hp).1, (h.candidate p hp).2⟩
      nodup := by
        show (s.rejectedKeys ++ [key]).Nodup
        rw [List.nodup_append]
        refine ⟨h.nodup, by simp, fun k hk k' hk' heq => ?_⟩
        rw [heq, List.mem_singleton.mp hk'] at hk
        exact hnew hk
      rejected := by
        intro k
        show k ∈ s.rejectedKeys ++ [key] ↔ (Function.update s.routingErrors key (some e) k).isSome = true
        rw [List.mem_append, List.mem_singleton]
        by_cases hsame : k = key
        · subst hsame
          rw [Function.update_self]
          exact ⟨fun _ => rfl, fun _ => .inr rfl⟩
        · rw [Function.update_of_ne hsame, or_iff_left hsame]
          exact h.rejected k
      rejectedSeen := by
        intro k hk
        obtain hk | hk := List.mem_append.mp hk
        · exact ⟨hseen _ (h.rejectedSeen k hk).1, (h.rejectedSeen k hk).2⟩
        · rw [List.mem_singleton.mp hk]
          exact ⟨hself, c, hfind⟩
      verdict := by
        intro k hk d hd
        by_cases hsame : k = key
        · subst hsame
          cases hfind.symm.trans hd
          exact .inr ⟨List.mem_append_right _ (by simp), hout, hconflict⟩
        · have hk : k ∈ seen := by
            obtain hk | hk := List.mem_append.mp hk
            · exact hk
            · exact absurd (List.mem_singleton.mp hk) hsame
          obtain ⟨hnot, hin⟩ | ⟨hrejected, hrest⟩ := h.verdict k hk d hd
          · refine .inl ⟨fun hk' => ?_, hin⟩
            obtain hk' | hk' := List.mem_append.mp hk'
            · exact hnot hk'
            · exact hsame (List.mem_singleton.mp hk')
          · exact .inr ⟨List.mem_append_left _ hrejected, hrest⟩ }

theorem mem_tryCandidate (hfresh : key ∉ seen) (h : Admitted candidates number s seen) :
    ∀ p ∈ s.accepted.rows, p ∈ (s.tryCandidate orders number candidates key).accepted.rows := by
  intro p hp
  obtain ⟨-, heq⟩ | ⟨c, trial, -, hfree, -, heq⟩ | ⟨c, e, -, -, heq⟩ :=
    tryCandidate_cases orders hfresh h
  · rw [heq]
    exact hp
  · rw [heq]
    exact (Table.mem_put_of_find_none hfree).mpr (.inr hp)
  · rw [heq]
    exact hp

theorem Admitted.foldl {keys : List String} (hkeys : (seen ++ keys).Nodup)
    (h : Admitted candidates number s seen) :
    Admitted candidates number (keys.foldl (Admission.tryCandidate orders number candidates) s)
        (seen ++ keys) ∧
      ∀ p ∈ s.accepted.rows,
        p ∈ (keys.foldl (Admission.tryCandidate orders number candidates) s).accepted.rows :=
  foldl_induct (fun t l => Admitted candidates number t l ∧
      ∀ p ∈ s.accepted.rows, p ∈ t.accepted.rows) (P := fun _ => True)
    (fun _ _ _ _ hfresh ht => ⟨ht.1.tryCandidate orders hfresh,
      fun p hp => mem_tryCandidate orders hfresh ht.1 p (ht.2 p hp)⟩)
    (fun _ _ => trivial) hkeys ⟨h, fun _ hp => hp⟩

theorem Admitted.unchanged (h : Admitted candidates number s seen) (hserving : serving.ConflictFree)
    (hseen : ∀ key ∈ seen, ∃ p, candidates.find key = some p ∧ serving.find key = some p)
    (hkey : key ∈ seen) (hp : candidates.find key = some p) : p ∈ s.accepted.rows := by
  have hserved : ∀ k ∈ seen, ∀ q, candidates.find k = some q → q ∈ serving.rows := by
    intro k hk q hq
    obtain ⟨q', hq', hthere⟩ := hseen k hk
    rw [hq] at hq'
    rw [Option.some.inj hq']
    exact Table.mem_of_find hthere
  obtain ⟨-, hin⟩ | ⟨-, hout, q, hq, hconflict⟩ := h.verdict key hkey p hp
  · exact hin
  · obtain ⟨hqseen, hqfind⟩ := h.candidate q hq
    refine absurd hconflict (hserving q (hserved _ hqseen q hqfind) p (hserved key hkey p hp) ?_)
    intro hsame
    rw [hsame, PluginMap.key_of_find hp, hp] at hqfind
    rw [Option.some.inj hqfind] at hout
    exact hout hq

/-! ### The incumbents -/

/-- What the second loop has done of the keys it has seen, after the first. -/
structure Restored (candidates serving : PluginMap) (retainCurrent : List String) (number : Nat)
    (first s : Admission) (seen : List String) : Prop where
  built : ∃ order, buildRoutingGenerationFromPlugins order s.accepted number = .ok s.generation
  errors : s.routingErrors = first.routingErrors
  kept : ∀ p ∈ first.accepted.rows, p ∈ s.accepted.rows
  incumbent : ∀ p ∈ s.accepted.rows, p ∈ first.accepted.rows ∨
    p.key ∈ seen ∧ serving.find p.key = some p ∧ candidates.find p.key ≠ some p
  verdict : ∀ key ∈ seen, ∀ p, serving.find key = some p → key ∈ retainCurrent →
    candidates.find key ≠ some p →
      p ∈ s.accepted.rows ∨ ∃ q ∈ s.accepted.rows, q.key ≠ p.key ∧ Conflict q p

variable {first : Admission} {retainCurrent all : List String}

theorem tryIncumbent_cases (hfirst : Admitted candidates number first all)
    (hrejected : key ∈ first.rejectedKeys) (hfresh : key ∉ seen)
    (h : Restored candidates serving retainCurrent number first s seen) :
    ((∀ p, serving.find key = some p → key ∈ retainCurrent → candidates.find key = some p) ∧
      s.tryIncumbent orders number candidates serving retainCurrent key = s) ∨
    (∃ p fallback, serving.find key = some p ∧ candidates.find key ≠ some p ∧
      s.accepted.find p.key = none ∧
      (∃ order, buildRoutingGenerationFromPlugins order (s.accepted.put p) number = .ok fallback) ∧
      s.tryIncumbent orders number candidates serving retainCurrent key =
        { s with accepted := s.accepted.put p, generation := fallback }) ∨
    ∃ p, serving.find key = some p ∧ (∃ q ∈ s.accepted.rows, q.key ≠ p.key ∧ Conflict q p) ∧
      s.tryIncumbent orders number candidates serving retainCurrent key = s := by
  unfold Admission.tryIncumbent
  cases hfind : serving.find key with
  | none => exact .inl ⟨fun _ h => (by cases h), rfl⟩
  | some p =>
    dsimp only
    by_cases hskip : key ∉ retainCurrent ∨ candidates.find key = some p
    · rw [if_pos hskip]
      refine .inl ⟨fun p' hp' hretain => ?_, rfl⟩
      obtain hskip | hskip := hskip
      · exact absurd hretain hskip
      · cases hp'
        exact hskip
    · rw [if_neg hskip]
      obtain ⟨-, hchanged⟩ := not_or.mp hskip
      have hkey : p.key = key := PluginMap.key_of_find hfind
      have hfree : ∀ q ∈ s.accepted.rows, q.key ≠ key := by
        intro q hq hqkey
        obtain hqfirst | ⟨hqseen, -⟩ := h.incumbent q hq
        · -- a rejected candidate is not among the admitted ones
          obtain ⟨hqall, hqfind⟩ := hfirst.candidate q hqfirst
          obtain ⟨hnot, -⟩ | ⟨-, hout, -⟩ := hfirst.verdict _ hqall q hqfind
          · exact hnot (hqkey.symm ▸ hrejected)
          · exact hout hqfirst
        · exact hfresh (hqkey ▸ hqseen)
      have hnone : s.accepted.find p.key = none := by
        cases hthere : s.accepted.find p.key with
        | none => rfl
        | some q =>
          refine absurd ?_ (hfree q (Table.mem_of_find hthere))
          exact (PluginMap.key_of_find hthere).trans hkey
      obtain ⟨order, hbuilt⟩ := h.built
      obtain ⟨fallback, hfallback⟩ | ⟨⟨e, he⟩, q, hq, hconflict⟩ :=
        build_put (orders.fallback key) hbuilt hnone
      · refine .inr (.inl ⟨p, fallback, rfl, hchanged, hnone, ⟨_, hfallback⟩, ?_⟩)
        rw [hfallback]
      · refine .inr (.inr ⟨p, rfl, ⟨q, hq, ?_, hconflict⟩, ?_⟩)
        · rw [hkey]
          exact hfree q hq
        · have herase := Table.erase_put_of_find_none hnone
          rw [hkey] at herase
          rw [he]
          dsimp only
          rw [herase]

theorem Restored.tryIncumbent (hfirst : Admitted candidates number first all)
    (hrejected : key ∈ first.rejectedKeys) (hfresh : key ∉ seen)
    (h : Restored candidates serving retainCurrent number first s seen) :
    Restored candidates serving retainCurrent number first
      (s.tryIncumbent orders number candidates serving retainCurrent key) (seen ++ [key]) := by
  have hincumbent : ∀ p ∈ s.accepted.rows, p ∈ first.accepted.rows ∨
      p.key ∈ seen ++ [key] ∧ serving.find p.key = some p ∧ candidates.find p.key ≠ some p := by
    intro p hp
    obtain hp | ⟨hseen, hrest⟩ := h.incumbent p hp
    · exact .inl hp
    · exact .inr ⟨List.mem_append_left _ hseen, hrest⟩
  obtain ⟨hskip, heq⟩ | ⟨p, fallback, hfind, hchanged, hfree, hbuilt, heq⟩ | ⟨p, hfind, hconflict, heq⟩ :=
    tryIncumbent_cases orders hfirst hrejected hfresh h
  · rw [heq]
    exact { h with
      incumbent := hincumbent
      verdict := by
        intro k hk p hp hretain hne
        obtain hk | hk := List.mem_append.mp hk
        · exact h.verdict k hk p hp hretain hne
        · obtain rfl := List.mem_singleton.mp hk
          exact absurd (hskip p hp hretain) hne }
  · have hkey : p.key = key := PluginMap.key_of_find hfind
    have hmem : ∀ q, q ∈ (s.accepted.put p).rows ↔ q = p ∨ q ∈ s.accepted.rows := fun q =>
      Table.mem_put_of_find_none hfree
    rw [heq]
    exact {
      built := hbuilt
      errors := h.errors
      kept := fun q hq => (hmem q).mpr (.inr (h.kept q hq))
      incumbent := by
        intro q hq
        obtain rfl | hq := (hmem q).mp hq
        · rw [hkey]
          exact .inr ⟨by simp, hfind, hchanged⟩
        · exact hincumbent q hq
      verdict := by
        intro k hk q hq hretain hne
        obtain hk | hk := List.mem_append.mp hk
        · obtain hin | ⟨q', hq', hrest⟩ := h.verdict k hk q hq hretain hne
          · exact .inl ((hmem q).mpr (.inr hin))
          · exact .inr ⟨q', (hmem q').mpr (.inr hq'), hrest⟩
        · obtain rfl := List.mem_singleton.mp hk
          cases hfind.symm.trans hq
          exact .inl ((hmem p).mpr (.inl rfl)) }
  · rw [heq]
    exact { h with
      incumbent := hincumbent
      verdict := by
        intro k hk q hq hretain hne
        obtain hk | hk := List.mem_append.mp hk
        · exact h.verdict k hk q hq hretain hne
        · obtain rfl := List.mem_singleton.mp hk
          cases hfind.symm.trans hq
          exact .inr hconflict }

theorem Restored.foldl (hfirst : Admitted candidates number first all) :
    Restored candidates serving retainCurrent number first
      (first.rejectedKeys.foldl
        (Admission.tryIncumbent orders number candidates serving retainCurrent) first)
      first.rejectedKeys :=
  foldl_induct (fun s l => Restored candidates serving retainCurrent number first s l)
    (P := fun key => key ∈ first.rejectedKeys) (l := [])
    (fun _ _ _ hrejected hfresh h => h.tryIncumbent orders hfirst hrejected hfresh) (fun _ h => h)
    hfirst.nodup
    { built := hfirst.built
      errors := rfl
      kept := fun _ hp => hp
      incumbent := fun _ hp => .inl hp
      verdict := fun _ hkey => (by cases hkey) }

end Admission

/-! ### The order of the keys -/

section Keys

variable {order order' : MapOrder} {candidates candidates' serving : PluginMap}

theorem perm_sortStrings (keys : List String) : (sortStrings keys).Perm keys :=
  List.perm_insertionSort _ keys

theorem mem_range :
    key ∈ order.range (candidates.rows.map (·.key)) ↔ ∃ p, candidates.find key = some p := by
  rw [(order.perm _).mem_iff, List.mem_map]
  constructor
  · rintro ⟨p, hp, rfl⟩
    exact ⟨p, Table.find_of_mem hp⟩
  · rintro ⟨p, hp⟩
    exact ⟨p, Table.mem_of_find hp, PluginMap.key_of_find hp⟩

theorem orderedKeys_split (order : MapOrder) (candidates serving : PluginMap) : ∃ unchanged rest,
    orderedKeys order candidates serving = unchanged ++ rest ∧ (unchanged ++ rest).Nodup ∧
    (∀ key, key ∈ unchanged ↔ ∃ p, candidates.find key = some p ∧ serving.find key = some p) ∧
    ∀ key, key ∈ unchanged ++ rest ↔ ∃ p, candidates.find key = some p := by
  have hrange : (order.range (candidates.rows.map (·.key))).Nodup :=
    (order.perm _).nodup_iff.mpr candidates.keys
  have hsorted : ∀ test : String → Bool,
      (sortStrings ((order.range (candidates.rows.map (·.key))).filter test)).Nodup :=
    fun test => (perm_sortStrings _).nodup_iff.mpr (hrange.filter test)
  have hmem : ∀ (test : String → Bool) key,
      key ∈ sortStrings ((order.range (candidates.rows.map (·.key))).filter test) ↔
        (∃ p, candidates.find key = some p) ∧ test key = true := by
    intro test key
    rw [(perm_sortStrings _).mem_iff, List.mem_filter, mem_range]
  refine ⟨_, _, (List.append_assoc ..), ?_, fun key => ?_, fun key => ?_⟩
  · rw [List.nodup_append, List.nodup_append]
    refine ⟨hsorted _, ⟨hsorted _, hsorted _, fun k hk k' hk' heq => ?_⟩, fun k hk k' hk' heq => ?_⟩
    · subst heq
      have hchanged := ((hmem _ k).mp hk).2
      have hnew := ((hmem _ k).mp hk').2
      rw [Option.isNone_iff_eq_none] at hnew
      rw [hnew] at hchanged
      cases hchanged
    · subst heq
      have hunchanged := ((hmem _ k).mp hk).2
      rw [Bool.and_eq_true, decide_eq_true_eq] at hunchanged
      obtain hk' | hk' := List.mem_append.mp hk'
      · have hchanged := ((hmem _ k).mp hk').2
        rw [Bool.and_eq_true, decide_eq_true_eq] at hchanged
        exact hchanged.2 hunchanged.2
      · have hnew := ((hmem _ k).mp hk').2
        rw [Option.isNone_iff_eq_none] at hnew
        rw [hnew] at hunchanged
        cases hunchanged.1
  · rw [hmem, Bool.and_eq_true, decide_eq_true_eq, Option.isSome_iff_exists]
    constructor
    · rintro ⟨⟨p, hp⟩, -, heq⟩
      exact ⟨p, hp, heq.symm.trans hp⟩
    · rintro ⟨p, hp, hthere⟩
      exact ⟨⟨p, hp⟩, ⟨p, hthere⟩, hp.trans hthere.symm⟩
  · rw [List.mem_append, List.mem_append, hmem, hmem, hmem]
    constructor
    · rintro (⟨h, -⟩ | ⟨h, -⟩ | ⟨h, -⟩) <;> exact h
    · intro h
      by_cases hserving : (serving.find key).isSome = true
      · by_cases hsame : candidates.find key = serving.find key
        · exact .inl ⟨h, by rw [hserving, decide_eq_true hsame]; rfl⟩
        · exact .inr (.inl ⟨h, by rw [hserving, decide_eq_true hsame]; rfl⟩)
      · rw [Bool.not_eq_true, Option.isSome_eq_false_iff] at hserving
        exact .inr (.inr ⟨h, hserving⟩)

theorem orderedKeys_eq (order order' : MapOrder)
    (h : ∀ key, candidates.find key = candidates'.find key) :
    orderedKeys order candidates serving = orderedKeys order' candidates' serving := by
  have hperm : (order.range (candidates.rows.map (·.key))).Perm
      (order'.range (candidates'.rows.map (·.key))) :=
    ((order.perm _).trans ((Table.perm_of_find_eq h).map _)).trans (order'.perm _).symm
  unfold orderedKeys
  simp only [h]
  rw [sortStrings_eq (hperm.filter _), sortStrings_eq (hperm.filter _),
    sortStrings_eq (hperm.filter _)]

end Keys

/-! ### The plugins that are served -/

theorem PluginMap.find_empty (key : String) : PluginMap.empty.find key = none := rfl

theorem find_currentByKey (h : g.ConflictFree) :
    (currentByKey (some g)).find key = some p ↔ p ∈ g.plugins ∧ p.key = key := by
  show Table.find (g.plugins.foldl Table.put PluginMap.empty) key = some p ↔ _
  have hkeyed : ∀ {t : PluginMap}, t.rows = g.plugins →
      (t.find key = some p ↔ p ∈ g.plugins ∧ p.key = key) := by
    intro t ht
    rw [← ht]
    constructor
    · exact fun hfind => ⟨Table.mem_of_find hfind, PluginMap.key_of_find hfind⟩
    · rintro ⟨hmem, rfl⟩
      exact Table.find_of_mem hmem
  rw [Table.find_foldl_put key h.1, PluginMap.find_empty, Option.or_none]
  exact hkeyed (t := ⟨g.plugins, h.1⟩) rfl

theorem conflictFree_currentByKey {current : Option RoutingGeneration}
    (h : ∀ g, current = some g → g.ConflictFree) : (currentByKey current).ConflictFree := by
  cases current with
  | none => exact fun _ hp => (by cases hp)
  | some g =>
    have hg := h g rfl
    intro p hp q hq
    have hp' := (find_currentByKey hg).mp (Table.find_of_mem hp)
    have hq' := (find_currentByKey hg).mp (Table.find_of_mem hq)
    exact hg.2 p hp'.1 q hq'.1

theorem find_effectivePlugins (factory override : PluginMap) (key : String) :
    (effectivePlugins factory override).find key = (override.find key).or (factory.find key) :=
  Table.find_foldl_put key override.keys

theorem isCandidate_iff {factory override : PluginMap} :
    IsCandidate factory override key p ↔ (effectivePlugins factory override).find key = some p := by
  rw [find_effectivePlugins]
  rfl

theorem conflictFree_of_build {order : MapOrder} {number : Nat}
    (h : buildRoutingGenerationFromPlugins order plugins number = .ok g) : g.ConflictFree := by
  constructor
  · rw [(indexed_of_build h).plugins]
    exact (perm_inOrder.map _).nodup_iff.mpr plugins.keys
  · intro p hp q hq
    exact (build_ok_iff order number).mp ⟨g, h⟩ p ((mem_plugins_of_build h p).mp hp) q
      ((mem_plugins_of_build h q).mp hq)

/-! ### The order of the ranges -/

theorem tryCandidate_eq (orders orders' : MapOrders) {number : Nat}
    {candidates candidates' : PluginMap}
    (h : ∀ key, candidates.find key = candidates'.find key) :
    Admission.tryCandidate orders number candidates =
      Admission.tryCandidate orders' number candidates' := by
  funext s key
  unfold Admission.tryCandidate
  rw [h]
  cases candidates'.find key with
  | none => rfl
  | some c =>
    dsimp only
    rw [build_eq _ (orders'.trial key)]

theorem tryIncumbent_eq (orders orders' : MapOrders) {number : Nat}
    {candidates candidates' serving : PluginMap} {retainCurrent : List String}
    (h : ∀ key, candidates.find key = candidates'.find key) :
    Admission.tryIncumbent orders number candidates serving retainCurrent =
      Admission.tryIncumbent orders' number candidates' serving retainCurrent := by
  funext s key
  unfold Admission.tryIncumbent
  rw [h]
  cases serving.find key with
  | none => rfl
  | some p =>
    dsimp only
    rw [build_eq _ (orders'.fallback key)]

theorem admitting_eq (orders orders' : MapOrders) {factory factory' override override' : PluginMap}
    (number : Nat) (current : Option RoutingGeneration) (retainCurrent : List String)
    (hfactory : factory.rows.Perm factory'.rows) (hoverride : override.rows.Perm override'.rows) :
    buildRoutingGenerationAdmitting orders factory override number current retainCurrent =
      buildRoutingGenerationAdmitting orders' factory' override' number current retainCurrent := by
  have h : ∀ key, (effectivePlugins factory override).find key =
      (effectivePlugins factory' override').find key := by
    intro key
    rw [find_effectivePlugins, find_effectivePlugins, Table.find_eq_of_perm hfactory,
      Table.find_eq_of_perm hoverride]
  unfold buildRoutingGenerationAdmitting
  dsimp only
  rw [build_eq _ orders'.initial, orderedKeys_eq _ orders'.candidates h,
    tryCandidate_eq orders orders' h, tryIncumbent_eq orders orders' h]

/-! ### Admission -/

section Admitting

variable (orders : MapOrders) (factory override : PluginMap) (number : Nat)
  (current : Option RoutingGeneration) (retainCurrent : List String)

theorem admitting_ok :
    ∃ first last : Admission, ∃ seen,
      buildRoutingGenerationAdmitting orders factory override number current retainCurrent =
        .ok ({ last.generation with retainCurrent := retainCurrent }, last.routingErrors) ∧
      Admitted (effectivePlugins factory override) number first seen ∧
      Restored (effectivePlugins factory override) (currentByKey current) retainCurrent number first
        last first.rejectedKeys ∧
      (∀ key, key ∈ seen ↔ ∃ p, (effectivePlugins factory override).find key = some p) ∧
      ((currentByKey current).ConflictFree → ∀ key p,
        (effectivePlugins factory override).find key = some p →
        (currentByKey current).find key = some p → p ∈ first.accepted.rows) := by
  obtain ⟨unchanged, rest, hkeys, hnodup, hunchanged, hseen⟩ := orderedKeys_split
    orders.candidates (effectivePlugins factory override) (currentByKey current)
  obtain ⟨g, hg⟩ := (build_ok_iff orders.initial number).mpr
    fun p (hp : p ∈ PluginMap.empty.rows) => (by cases hp)
  have hstart : Admitted (effectivePlugins factory override) number ⟨.empty, g, fun _ => none, []⟩ [] :=
    { built := ⟨_, hg⟩
      candidate := fun _ hp => (by cases hp)
      nodup := .nil
      rejected := fun _ => ⟨fun hkey => (by cases hkey), fun hkey => (by cases hkey)⟩
      rejectedSeen := fun _ hkey => (by cases hkey)
      verdict := fun _ hkey => (by cases hkey) }
  have hnodup' : ([] ++ unchanged).Nodup := (List.nodup_append.mp hnodup).1
  obtain ⟨hfirst, -⟩ := hstart.foldl orders hnodup'
  obtain ⟨hall, hkept⟩ := hfirst.foldl orders hnodup
  refine ⟨_, _, unchanged ++ rest, ?_, hall, .foldl orders hall, hseen,
    fun hserving key p hp hserved => hkept p ?_⟩
  · unfold buildRoutingGenerationAdmitting
    dsimp only
    rw [hg, ok_bind, hkeys, List.foldl_append]
  · exact hfirst.unchanged hserving (fun k hk => (hunchanged k).mp hk)
      ((hunchanged key).mpr ⟨p, hp, hserved⟩) hp

/-- A generation that admission builds: its plugins do not conflict, and it knows them by their
keys. -/
theorem admitting_built {candidate : RoutingGeneration} {errors : String → Option RoutingError}
    (h : buildRoutingGenerationAdmitting orders factory override number current retainCurrent =
      .ok (candidate, errors)) :
    candidate.ConflictFree ∧
      ∀ key p, candidate.byKey key = some p ↔ p ∈ candidate.plugins ∧ p.key = key := by
  obtain ⟨first, last, seen, heq, -, hlast, -⟩ :=
    admitting_ok orders factory override number current retainCurrent
  obtain ⟨order, hbuilt⟩ := hlast.built
  rw [heq] at h
  have hcandidate : { last.generation with retainCurrent := retainCurrent } = candidate :=
    congrArg Prod.fst (Except.ok.inj h)
  rw [← hcandidate]
  have hfree : last.generation.ConflictFree := conflictFree_of_build hbuilt
  refine ⟨hfree, fun key p => ?_⟩
  show last.generation.byKey key = some p ↔ p ∈ last.generation.plugins ∧ p.key = key
  rw [byKey_of_build hbuilt, mem_plugins_of_build hbuilt]
  constructor
  · exact fun hfind => ⟨Table.mem_of_find hfind, PluginMap.key_of_find hfind⟩
  · rintro ⟨hmem, rfl⟩
    exact Table.find_of_mem hmem

/-- The generation that admission builds: it is free of conflicts, it has every plugin that did not
change and every candidate that conflicts with no other, the errors are about the candidates that
are not in it, whoever was turned away conflicts with a plugin of it, and neither the order in which
Go ranges over a map nor that of the rows of a map matters. -/
theorem admitting_admits (hcurrent : ∀ g, current = some g → g.ConflictFree) :
    ∃ generation errors,
      buildRoutingGenerationAdmitting orders factory override number current retainCurrent =
        .ok (generation, errors) ∧
      generation.ConflictFree ∧
      (∀ key p, IsCandidate factory override key p →
        (∃ g, current = some g ∧ p ∈ g.plugins) → generation.byKey key = some p) ∧
      (∀ key p, IsCandidate factory override key p →
        (∀ other q, IsCandidate factory override other q → other ≠ key → ¬Conflict q p) →
        generation.byKey key = some p) ∧
      (∀ key, (errors key).isSome = true ↔
        ∃ p, IsCandidate factory override key p ∧ generation.byKey key ≠ some p) ∧
      (∀ key p, (errors key).isSome = true → IsCandidate factory override key p →
        ∃ q ∈ generation.plugins, q.key ≠ key ∧ Conflict q p) ∧
      (∀ g, current = some g → ∀ p ∈ g.plugins, (errors p.key).isSome = true →
        p.key ∈ retainCurrent → generation.byKey p.key = some p ∨
          ∃ q ∈ generation.plugins, q.key ≠ p.key ∧ Conflict q p) ∧
      ∀ orders' factory' override', factory.rows.Perm factory'.rows →
        override.rows.Perm override'.rows →
        buildRoutingGenerationAdmitting orders' factory' override' number current retainCurrent =
          .ok (generation, errors) := by
  simp only [isCandidate_iff]
  obtain ⟨first, last, seen, heq, hfirst, hlast, hseen, hunchanged⟩ :=
    admitting_ok orders factory override number current retainCurrent
  have hunchanged := hunchanged (conflictFree_currentByKey hcurrent)
  obtain ⟨order, hbuilt⟩ := hlast.built
  have hmem : ∀ p, p ∈ last.generation.plugins ↔ p ∈ last.accepted.rows := mem_plugins_of_build hbuilt
  have hby : ∀ key, last.generation.byKey key = last.accepted.find key := byKey_of_build hbuilt
  have hadmitted : ∀ key p, (effectivePlugins factory override).find key = some p →
      p ∈ first.accepted.rows → last.generation.byKey key = some p := by
    intro key p hp hin
    rw [hby, ← PluginMap.key_of_find hp]
    exact Table.find_of_mem (hlast.kept p hin)
  have hserving : ∀ g, current = some g → ∀ p ∈ g.plugins,
      (currentByKey current).find p.key = some p := by
    intro g hg p hp
    rw [hg]
    exact (find_currentByKey (hcurrent g hg)).mpr ⟨hp, rfl⟩
  have hconflict : ∀ key p, key ∈ first.rejectedKeys →
      (effectivePlugins factory override).find key = some p →
      p ∉ first.accepted.rows ∧ ∃ q ∈ first.accepted.rows, q.key ≠ key ∧ Conflict q p := by
    intro key p hkey hp
    obtain ⟨hnot, -⟩ | ⟨-, hout, q, hq, hqp⟩ := hfirst.verdict key ((hseen key).mpr ⟨p, hp⟩) p hp
    · exact absurd hkey hnot
    · refine ⟨hout, q, hq, fun hsame => hout ?_, hqp⟩
      have hqfind := (hfirst.candidate q hq).2
      rw [hsame, hp] at hqfind
      rw [Option.some.inj hqfind]
      exact hq
  have hfree : last.generation.ConflictFree := conflictFree_of_build hbuilt
  refine ⟨_, _, heq, hfree, ?_, ?_, ?_, ?_, ?_, ?_⟩
  · rintro key p hp ⟨g, hg, hmem⟩
    refine hadmitted key p hp (hunchanged key p hp ?_)
    rw [← PluginMap.key_of_find hp]
    exact hserving g hg p hmem
  · intro key p hp hnone
    obtain ⟨-, hin⟩ | ⟨hrejected, -, -⟩ := hfirst.verdict key ((hseen key).mpr ⟨p, hp⟩) p hp
    · exact hadmitted key p hp hin
    · obtain ⟨-, q, hq, hne, hqp⟩ := hconflict key p hrejected hp
      exact absurd hqp (hnone q.key q (hfirst.candidate q hq).2 hne)
  · intro key
    rw [hlast.errors, ← hfirst.rejected]
    constructor
    · intro hkey
      obtain ⟨-, p, hp⟩ := hfirst.rejectedSeen key hkey
      refine ⟨p, hp, fun hserved => ?_⟩
      -- neither loop has put the candidate there
      have hpkey := PluginMap.key_of_find hp
      have hin : p ∈ last.accepted.rows := Table.mem_of_find ((hby key).symm.trans hserved)
      obtain hin | ⟨-, -, hchanged⟩ := hlast.incumbent p hin
      · exact (hconflict key p hkey hp).1 hin
      · rw [hpkey] at hchanged
        exact hchanged hp
    · rintro ⟨p, hp, hout⟩
      obtain ⟨-, hin⟩ | ⟨hrejected, -⟩ := hfirst.verdict key ((hseen key).mpr ⟨p, hp⟩) p hp
      · exact absurd (hadmitted key p hp hin) hout
      · exact hrejected
  · intro key p herror hp
    rw [hlast.errors, ← hfirst.rejected] at herror
    obtain ⟨-, q, hq, hrest⟩ := hconflict key p herror hp
    exact ⟨q, (hmem q).mpr (hlast.kept q hq), hrest⟩
  · intro g hg p hp herror hretain
    rw [hlast.errors, ← hfirst.rejected] at herror
    have hchanged : (effectivePlugins factory override).find p.key ≠ some p := fun hsame =>
      (hconflict p.key p herror hsame).1 (hunchanged p.key p hsame (hserving g hg p hp))
    obtain hin | ⟨q, hq, hrest⟩ :=
      hlast.verdict p.key herror p (hserving g hg p hp) hretain hchanged
    · refine .inl ?_
      show last.generation.byKey p.key = some p
      rw [hby]
      exact Table.find_of_mem hin
    · exact .inr ⟨q, (hmem q).mpr hq, hrest⟩
  · intro orders' factory' override' hfactory hoverride
    rw [← admitting_eq orders orders' number current retainCurrent hfactory hoverride]
    exact heq

end Admitting

/-- A map ranged over as it is listed. -/
def MapOrder.listed : MapOrder := ⟨fun keys => keys, fun _ => .refl _⟩

def MapOrders.listed : MapOrders := ⟨.listed, .listed, fun _ => .listed, fun _ => .listed⟩

/-- A plugin with one model and one channel type. -/
def LoadedPlugin.small (pointer : Nat) (key model : String) (channelType : Int)
    (valid : validateV1Meta ⟨key, [model], [channelType], [], []⟩ = true) : LoadedPlugin :=
  ⟨⟨key, [model], [channelType], [], []⟩, pointer, valid⟩

/-- A plugin that serves already stays, with two new ones for one channel type beside it. -/
theorem admitting_admits_alpha :
    let alpha := LoadedPlugin.small 0 "alpha" "m" 1 (by decide)
    let beta := LoadedPlugin.small 1 "beta" "n" 2 (by decide)
    let gamma := LoadedPlugin.small 2 "gamma" "o" 2 (by decide)
    let current := { RoutingGeneration.empty 1 with plugins := [alpha] }
    current.ConflictFree ∧
      ∃ generation errors,
        buildRoutingGenerationAdmitting .listed .empty ⟨[alpha, beta, gamma], by decide⟩ 2
          (some current) ["alpha"] = .ok (generation, errors) ∧
        generation.byKey "alpha" = some alpha ∧ (errors "alpha").isSome = false := by
  intro alpha beta gamma current
  have hcurrent : current.ConflictFree := by
    refine ⟨List.nodup_singleton _, fun p hp q hq hne => ?_⟩
    rw [List.mem_singleton.mp hp, List.mem_singleton.mp hq] at hne
    exact absurd rfl hne
  obtain ⟨generation, errors, heq, -, hunchanged, -, herrors, -⟩ :=
    admitting_admits .listed .empty ⟨[alpha, beta, gamma], by decide⟩ 2 (some current) ["alpha"]
      fun g hg => Option.some.inj hg ▸ hcurrent
  have halpha : generation.byKey "alpha" = some alpha :=
    hunchanged "alpha" alpha rfl ⟨current, rfl, List.mem_singleton.mpr rfl⟩
  refine ⟨hcurrent, generation, errors, heq, halpha, ?_⟩
  rw [← Bool.not_eq_true, herrors]
  rintro ⟨p, hp, hout⟩
  rw [← Option.some.inj hp] at hout
  exact hout halpha

end JulongApi.PluginRouting

/-
What a selection from the memory cache comes to.

A list of ids only holds ids of cached channels, the priority of a retry is that of some channel,
and the draw stays below the total weight: so no selection fails, and it finds a channel wherever
one is left.
-/
import JulongApi.Proofs.ChannelWeights

namespace JulongApi.Channels

theorem selectByWeight_ok {channels : List Channel} (hsome : channels ≠ []) (random : Nat) :
    ∃ channel, selectByWeight channels random = .ok channel := by
  have hlength : 0 < channels.length := List.length_pos_iff.mpr hsome
  have hpos : 0 < totalWeight channels := by
    unfold totalWeight smoothingFactor
    dsimp only
    split
    · omega
    · split <;> omega
  have hmod : selectByWeight channels random =
      selectByWeight channels (random % totalWeight channels) := by
    unfold selectByWeight totalWeight smoothingFactor
    dsimp only
    split
    · rw [Nat.mul_one, Nat.mod_mod]
    · rw [Nat.mod_mod]
  obtain ⟨channel, -, hchannel⟩ :=
    memory_never_falls_through channels (Nat.mod_lt random hpos)
  exact ⟨channel, hmod.trans hchannel⟩

variable {regexp : Regexp} {normalize : String → String} {old cache : ChannelCache}
  {channels : ChannelTable} {abilities : List Ability} {group model : String}
  {filters : List ChannelFilter}

theorem choose_ok {ids : List Int} {retry random : Nat} (hids : ids ≠ [])
    (hcached : ∀ id ∈ ids, ∃ channel, cache.require id = .ok channel) :
    ∃ channel, cache.choose group model retry random ids = .ok (some channel) := by
  cases ids with
  | nil => exact absurd rfl hids
  | cons id rest =>
    cases rest with
    | nil =>
      obtain ⟨channel, hchannel⟩ := hcached id (List.mem_singleton_self id)
      exact ⟨channel, map_eq_ok.mpr hchannel⟩
    | cons next rest =>
      obtain ⟨found, hfound, -⟩ := mapM_eq_ok hcached
      have hsome : found ≠ [] := by
        obtain ⟨channel, hchannel, -⟩ := (mapM_ok_imp hfound).1 id (List.mem_cons_self ..)
        exact List.ne_nil_of_mem hchannel
      have htarget : (found.filter fun c => c.getPriority =
          targetPriority (sortedUniquePriorities found) retry) ≠ [] := by
        obtain ⟨c, hc, hpriority⟩ :=
          List.mem_map.mp (mem_of_target (l := found.map (·.getPriority)) (by simpa) retry)
        exact List.ne_nil_of_mem (List.mem_filter.mpr ⟨hc, decide_eq_true hpriority⟩)
      obtain ⟨channel, hchannel⟩ := selectByWeight_ok htarget random
      refine ⟨channel, ?_⟩
      change cache.selectAmong group model retry random (id :: next :: rest) = .ok (some channel)
      unfold ChannelCache.selectAmong
      rw [hfound, ok_bind]
      dsimp only
      rw [if_neg (by simpa using htarget), hchannel]
      rfl

/-- After a sync, every selection is answered: with no channel where none can be selected, and
otherwise with one of the priority that the retry asks for. -/
theorem getRandomSatisfiedChannel_spec
    (hcache : initChannelCache old channels abilities = some cache) (retry random : Nat) :
    (selectable regexp normalize channels group model filters = [] ∧
      cache.getRandomSatisfiedChannel regexp normalize group model retry filters random =
        .ok none) ∨
    ∃ channel, cache.getRandomSatisfiedChannel regexp normalize group model retry filters random =
        .ok (some channel) ∧
      ∃ row ∈ selectable regexp normalize channels group model filters,
        channel = keepPollingIndex old row ∧ row.getPriority =
          priorityOf (selectable regexp normalize channels group model filters) retry := by
  have hids := fun id => @mem_satisfyingIDs regexp normalize old cache channels abilities group
    model filters hcache id
  by_cases hnone : cache.satisfyingIDs regexp normalize group model filters = []
  · refine .inl ⟨List.eq_nil_iff_forall_not_mem.mpr fun channel hin => ?_, ?_⟩
    · have := (hids channel.id).mpr ⟨channel, hin, rfl⟩
      rw [hnone] at this
      cases this
    · unfold ChannelCache.getRandomSatisfiedChannel
      rw [hnone]
      rfl
  · have hcached : ∀ id channel, cache.channelsIDM id = some channel →
        ∃ row, channels.find id = some row ∧ keepPollingIndex old row = channel := by
      intro id channel h
      rw [initChannelCache_cached hcache] at h
      exact Option.map_eq_some_iff.mp h
    obtain ⟨channel, hchannel⟩ := @choose_ok cache group model _ retry random hnone fun id hid => by
      obtain ⟨row, hrow, rfl⟩ := (hids id).mp hid
      refine ⟨keepPollingIndex old row, require_eq_ok.mpr ?_⟩
      rw [initChannelCache_cached hcache, Table.find_of_mem (selectable_row hrow), Option.map_some]
    refine .inr ⟨channel, hchannel, ?_⟩
    obtain ⟨row, hrow, hid, hpriority, -⟩ :=
      (getRandomSatisfiedChannel_iff hcache).mp ⟨random, channel, hchannel, rfl⟩
    refine ⟨row, hrow, ?_, hpriority⟩
    obtain ⟨id, -, hstored⟩ := choose_cached hchannel
    obtain ⟨other, hother, rfl⟩ := hcached id channel hstored
    have hfind := Table.find_of_mem (selectable_row hrow)
    rw [hid, keepPollingIndex_id, Table.key_of_find hother, hother] at hfind
    rw [Option.some.inj hfind]

/-- After a sync and any updates of channels, no selection fails, and none is given only where no
id is left. -/
theorem selection_never_fails (hcache : initChannelCache old channels abilities = some cache)
    (updates : List (Int × Int)) (retry random : Nat) :
    ∃ answer, (cache.updateAll updates).getRandomSatisfiedChannel regexp normalize group model retry
        filters random = .ok answer ∧
      (answer = none ↔
        (cache.updateAll updates).satisfyingIDs regexp normalize group model filters = []) := by
  by_cases hnone : (cache.updateAll updates).satisfyingIDs regexp normalize group model filters = []
  · refine ⟨none, ?_, by simp [hnone]⟩
    unfold ChannelCache.getRandomSatisfiedChannel
    rw [hnone]
    rfl
  · suffices hcached : ∀ id ∈ (cache.updateAll updates).satisfyingIDs regexp normalize group model
        filters, ∃ channel, (cache.updateAll updates).require id = .ok channel by
      obtain ⟨channel, hchannel⟩ := choose_ok hnone hcached
      exact ⟨some channel, hchannel, by simp [hnone]⟩
    intro id hid
    obtain ⟨m, hsubset⟩ :=
      satisfyingIDs_subset regexp normalize (cache.updateAll updates) group model filters
    have hlisted := List.count_pos_iff.mpr (hsubset hid)
    rw [candidates_eq, updateAll_occurrences, initChannelCache_occurrences hcache] at hlisted
    cases hfind : channels.find id with
    | none => simp [hfind] at hlisted
    | some row =>
      have hsome : (cache.channelsIDM id).isSome := by
        rw [initChannelCache_cached hcache, hfind]
        rfl
      obtain ⟨channel, hchannel⟩ := Option.isSome_iff_exists.mp (updateAll_cached updates hsome)
      exact ⟨channel, require_eq_ok.mpr hchannel⟩

def pairCache : ChannelCache := (initChannelCache .empty pairTable pairAbilities.rows).get (by rfl)

theorem pairCache_synced : initChannelCache .empty pairTable pairAbilities.rows = some pairCache :=
  (Option.some_get _).symm

/-- With the second channel disabled, the first one is found. -/
theorem selection_never_fails_pair : ∃ answer, (pairCache.updateAll [(2, 2)]).getRandomSatisfiedChannel
    (fun _ => none) (fun m => m) "default" "m" 0 [] 5 = .ok answer ∧ answer ≠ none := by
  obtain ⟨answer, hanswer, hnone⟩ := @selection_never_fails (fun _ => none) (fun m => m) _ _ _ _
    "default" "m" [] pairCache_synced [(2, 2)] 0 5
  exact ⟨answer, hanswer, hnone.not.mpr (by decide)⟩

end JulongApi.Channels

/-
A disabled channel in the cache.

Selection looks at the id lists alone, so what matters is how often an id stands in a list.
Building puts it there once for each pair of a group and a model its row lists, an update to
another status takes it out once, and nothing puts it back before the next sync.
-/
import JulongApi.ChannelCache

namespace JulongApi.Channels

/-! ### What building puts into a list -/

def ChannelIndex.occurrences (index : ChannelIndex) (group model : String) (id : Int) : Nat :=
  match index group with
  | none => 0
  | some models => (models model).count id

variable {group model : String} {id : Int} {channels : List Channel} {old cache : ChannelCache}
  {abilities : List Ability} {regexp : Regexp} {filters : List ChannelFilter} {ids : List Int}
  {random retry : Nat} {channel : Channel}

theorem ChannelIndex.add_occurrences {index index' : ChannelIndex}
    (h : index.add group model id = some index') (g m : String) (i : Int) :
    index'.occurrences g m i =
      index.occurrences g m i +
        if i = id then (if (group, model) == (g, m) then 1 else 0) else 0 := by
  unfold ChannelIndex.add at h
  split at h
  · cases h
  · next models hmodels =>
    cases h
    simp only [occurrences]
    by_cases hg : g = group
    · subst hg
      rw [if_pos rfl, hmodels]
      by_cases hm : m = model
      · subst hm
        by_cases hi : i = id
        · simp [hi]
        · simp [hi, Ne.symm hi]
      · simp [hm, Ne.symm hm]
    · rw [if_neg hg]
      simp [Ne.symm hg]

theorem ChannelIndex.addEntries_occurrences {entries : List (String × String)} :
    ∀ {index index' : ChannelIndex}, index.addEntries id entries = some index' →
      ∀ (g m : String) (i : Int), index'.occurrences g m i =
        index.occurrences g m i + if i = id then entries.count (g, m) else 0 := by
  induction entries with
  | nil =>
    intro index index' h g m i
    cases h
    simp
  | cons entry rest ih =>
    obtain ⟨group, model⟩ := entry
    intro index index' h g m i
    obtain ⟨mid, hmid, hrest⟩ := Option.bind_eq_some_iff.mp h
    rw [ih hrest, ChannelIndex.add_occurrences hmid, List.count_cons]
    by_cases hi : i = id
    · simp only [hi, if_true]
      omega
    · simp [hi]

/-- An enabled channel is put into a list once for each time it lists the pair. -/
def Channel.listed (channel : Channel) (group model : String) : Nat :=
  if channel.status = channelStatusEnabled then channel.entries.count (group, model) else 0

theorem ChannelIndex.addChannels_occurrences :
    ∀ {index index' : ChannelIndex}, index.addChannels channels = some index' →
      ∀ (g m : String) (i : Int), index'.occurrences g m i = index.occurrences g m i +
        ((channels.filter (·.id = i)).map (·.listed g m)).sum := by
  induction channels with
  | nil =>
    intro index index' h g m i
    cases h
    simp
  | cons channel rest ih =>
    intro index index' h g m i
    unfold ChannelIndex.addChannels at h
    split at h
    · next hstatus =>
      rw [ih h]
      by_cases hi : channel.id = i
      · simp [hi, Channel.listed, hstatus]
      · simp [hi]
    · next hstatus =>
      obtain ⟨mid, hmid, hrest⟩ := Option.bind_eq_some_iff.mp h
      rw [ih hrest, ChannelIndex.addEntries_occurrences hmid]
      have hon : channel.status = channelStatusEnabled := not_not.mp hstatus
      by_cases hi : channel.id = i
      · subst hi
        simp [Channel.listed, hon]
        omega
      · simp [hi, Ne.symm hi]

theorem ChannelIndex.ofAbilities_occurrences (abilities : List Ability) (g m : String) (i : Int) :
    (ChannelIndex.ofAbilities abilities).occurrences g m i = 0 := by
  unfold occurrences ofAbilities
  split
  · rfl
  · next models h =>
    split at h
    · cases h
      rfl
    · cases h

theorem filter_id_of_find (channels : ChannelTable) (id : Int) :
    channels.rows.filter (·.id = id) = (channels.find id).toList := by
  obtain ⟨rows, keys⟩ := channels
  simp only [Table.find]
  induction rows with
  | nil => rfl
  | cons head rest ih =>
    simp only [List.map_cons, List.nodup_cons] at keys
    by_cases hid : head.id = id
    · have hnone : rest.filter (·.id = id) = [] := by
        refine List.filter_eq_nil_iff.mpr fun other hother => ?_
        intro heq
        have hsame : other.id = head.id := (of_decide_eq_true heq).trans hid.symm
        exact keys.1 (hsame ▸ List.mem_map_of_mem hother)
      simp [hid, hnone]
    · simpa [hid] using ih keys.2

theorem initChannelCache_occurrences {channels : ChannelTable}
    (h : initChannelCache old channels abilities = some cache) (g m : String) (i : Int) :
    cache.group2model2channels.occurrences g m i =
      ((channels.find i).map (·.listed g m)).getD 0 := by
  obtain ⟨index, hindex, hcache⟩ := Option.map_eq_some_iff.mp h
  have hsorted : cache.group2model2channels.occurrences g m i = index.occurrences g m i := by
    rw [← hcache]
    simp only [ChannelIndex.occurrences]
    cases index g with
    | none => rfl
    | some models => exact (List.perm_insertionSort _ _).count_eq i
  rw [hsorted, ChannelIndex.addChannels_occurrences hindex, ChannelIndex.ofAbilities_occurrences,
    filter_id_of_find]
  cases channels.find i <;> simp

/-! ### What updates take out of it -/

def removals (id : Int) (updates : List (Int × Int)) : Nat :=
  updates.countP fun update => update.1 = id ∧ update.2 ≠ channelStatusEnabled

theorem cacheUpdateChannelStatus_occurrences (cache : ChannelCache) (id status : Int)
    (g m : String) (i : Int) :
    (cache.cacheUpdateChannelStatus id status).group2model2channels.occurrences g m i =
      cache.group2model2channels.occurrences g m i -
        if id = i ∧ status ≠ channelStatusEnabled then 1 else 0 := by
  unfold ChannelCache.cacheUpdateChannelStatus
  by_cases hstatus : status = channelStatusEnabled
  · simp [hstatus]
  · simp only [ChannelIndex.occurrences, ne_eq, hstatus, not_false_eq_true, if_true, and_true]
    cases cache.group2model2channels g with
    | none => simp
    | some models =>
      simp only [Option.map_some, List.count_erase]
      by_cases hi : id = i <;> simp [hi]

theorem updateAll_occurrences (updates : List (Int × Int)) : ∀ (cache : ChannelCache)
    (g m : String) (i : Int),
    (cache.updateAll updates).group2model2channels.occurrences g m i =
      cache.group2model2channels.occurrences g m i - removals i updates := by
  induction updates with
  | nil =>
    intro cache g m i
    simp [ChannelCache.updateAll, removals]
  | cons update rest ih =>
    intro cache g m i
    have hstep : (cache.updateAll (update :: rest)) =
        (cache.cacheUpdateChannelStatus update.1 update.2).updateAll rest := rfl
    have hcons : removals i (update :: rest) = removals i rest +
        if update.1 = i ∧ update.2 ≠ channelStatusEnabled then 1 else 0 := by
      simp only [removals, List.countP_cons, decide_eq_true_eq]
    rw [hstep, ih, cacheUpdateChannelStatus_occurrences, hcons]
    omega

/-! ### What selection returns -/

def ChannelCache.Keyed (cache : ChannelCache) : Prop :=
  ∀ id channel, cache.channelsIDM id = some channel → channel.id = id

theorem initChannelCache_keyed {channels : ChannelTable}
    (h : initChannelCache old channels abilities = some cache) : cache.Keyed := by
  obtain ⟨index, -, hcache⟩ := Option.map_eq_some_iff.mp h
  intro id channel hchannel
  rw [← hcache] at hchannel
  obtain ⟨row, hrow, rfl⟩ := Option.map_eq_some_iff.mp hchannel
  have hid : row.id = id := Table.key_of_find hrow
  have hkeep : (keepPollingIndex old row).id = row.id := by
    unfold keepPollingIndex
    split
    · split
      · split <;> rfl
      · rfl
    · rfl
  rw [hkeep, hid]

theorem updateAll_keyed (updates : List (Int × Int)) : ∀ {cache : ChannelCache},
    cache.Keyed → (cache.updateAll updates).Keyed := by
  induction updates with
  | nil => exact fun h => h
  | cons update rest ih =>
    intro cache h
    refine ih fun id channel hchannel => ?_
    simp only [ChannelCache.cacheUpdateChannelStatus] at hchannel
    split at hchannel
    · obtain ⟨before, hbefore, rfl⟩ := Option.map_eq_some_iff.mp hchannel
      exact h id before hbefore
    · exact h id channel hchannel

theorem filterByKinds_subset {modelName : String} {kinds : List ChannelFilterKind} :
    ∀ {kept : List Int},
    (cache.filterByKinds regexp modelName filters kinds kept).1 ⊆ kept := by
  induction kinds with
  | nil =>
    intro kept
    exact List.Subset.refl kept
  | cons kind rest ih =>
    intro kept
    simp only [ChannelCache.filterByKinds]
    split
    · exact ih
    · split
      · exact List.filter_subset_self _
      · exact fun _ h => List.filter_subset_self _ (ih h)

theorem filterCandidateIDs_subset {modelName : String} :
    (cache.filterCandidateIDs regexp ids modelName filters).1 ⊆ ids := by
  unfold ChannelCache.filterCandidateIDs
  split
  · exact List.Subset.refl ids
  · exact filterByKinds_subset

theorem filterCandidateIDs_nil (regexp : Regexp) (cache : ChannelCache) (ids : List Int)
    (modelName : String) : (cache.filterCandidateIDs regexp ids modelName []).1 = ids := by
  unfold ChannelCache.filterCandidateIDs
  split <;> rfl

theorem mem_of_pickByWeight {factor adjustment : Nat} :
    ∀ {random channel}, pickByWeight factor adjustment channels random = .ok channel →
      channel ∈ channels := by
  induction channels with
  | nil =>
    intro random channel h
    cases h
  | cons head rest ih =>
    intro random channel h
    simp only [pickByWeight] at h
    split at h
    · cases h
      simp
    · exact List.mem_cons_of_mem _ (ih h)

theorem mem_of_selectByWeight (h : selectByWeight channels random = .ok channel) :
    channel ∈ channels := by
  simp only [selectByWeight] at h
  split at h
  · exact mem_of_pickByWeight h
  · exact mem_of_pickByWeight h

theorem map_eq_ok {α ε : Type} {result : Except ε α} {a : α} :
    result.map some = .ok (some a) ↔ result = .ok a := by
  cases result <;> simp [Except.map]

theorem require_eq_ok : cache.require id = .ok channel ↔ cache.channelsIDM id = some channel := by
  unfold ChannelCache.require
  cases cache.channelsIDM id <;> simp

theorem selectAmong_cached
    (h : cache.selectAmong group model retry random ids = .ok (some channel)) :
    ∃ id ∈ ids, cache.channelsIDM id = some channel := by
  obtain ⟨channels, hchannels, h⟩ := bind_eq_ok.mp h
  simp only [] at h
  split at h
  · cases h
  · have hmem := List.mem_of_mem_filter (mem_of_selectByWeight (map_eq_ok.mp h))
    obtain ⟨id, hid, hfound⟩ := (mapM_ok_imp hchannels).2 channel hmem
    exact ⟨id, hid, require_eq_ok.mp hfound⟩

theorem satisfyingIDs_subset (regexp : Regexp) (normalize : String → String) (cache : ChannelCache)
    (group model : String) (filters : List ChannelFilter) :
    ∃ m, cache.satisfyingIDs regexp normalize group model filters ⊆ cache.candidates group m := by
  unfold ChannelCache.satisfyingIDs
  simp only []
  split
  · exact ⟨normalize model, filterCandidateIDs_subset⟩
  · exact ⟨model, filterCandidateIDs_subset⟩

theorem choose_cached (h : cache.choose group model retry random ids = .ok (some channel)) :
    ∃ id ∈ ids, cache.channelsIDM id = some channel := by
  match ids with
  | [] => cases h
  | [id] =>
    exact ⟨id, by simp, require_eq_ok.mp (map_eq_ok.mp h)⟩
  | id :: next :: rest => exact selectAmong_cached h

/-! ### Disabled channels -/

theorem candidates_eq (cache : ChannelCache) (group model : String) (id : Int) :
    (cache.candidates group model).count id =
      cache.group2model2channels.occurrences group model id := by
  unfold ChannelCache.candidates ChannelIndex.occurrences
  cases cache.group2model2channels group <;> rfl

theorem not_selected_of_once {normalize : String → String} (hkeyed : cache.Keyed)
    (honce : ∀ g m i, cache.group2model2channels.occurrences g m i ≤ 1) {updates : List (Int × Int)}
    {status : Int} (hupdate : (id, status) ∈ updates) (hstatus : status ≠ channelStatusEnabled)
    (h : (cache.updateAll updates).getRandomSatisfiedChannel regexp normalize group model retry
      filters random = .ok (some channel)) : channel.id ≠ id := by
  intro hid
  obtain ⟨m, hsub⟩ := satisfyingIDs_subset regexp normalize (cache.updateAll updates) group model
    filters
  obtain ⟨key, hkey, hcached⟩ := choose_cached h
  have hsame : channel.id = key := updateAll_keyed updates hkeyed key channel hcached
  have hcount : 0 < ((cache.updateAll updates).candidates group m).count id := by
    rw [← hid, hsame]
    exact List.count_pos_iff.mpr (hsub hkey)
  rw [candidates_eq, updateAll_occurrences] at hcount
  have hremoved : 0 < removals id updates := by
    refine List.countP_pos_iff.mpr ⟨(id, status), hupdate, ?_⟩
    simpa using hstatus
  have := honce group m id
  omega

/-- The updates that take all other ids out of a list, and all but one of `id`. -/
def isolate (id : Int) (ids : List Int) : List (Int × Int) :=
  (ids.erase id).map fun i => (i, channelStatusManuallyDisabled)

theorem removals_isolate (id i : Int) (ids : List Int) :
    removals i (isolate id ids) = (ids.erase id).count i := by
  unfold removals isolate
  rw [List.countP_map, List.count_eq_countP]
  refine List.countP_congr fun other _ => ?_
  simp [channelStatusManuallyDisabled, channelStatusEnabled]

theorem candidates_isolate
    (hmem : id ∈ cache.candidates group model) :
    (cache.updateAll (isolate id (cache.candidates group model))).candidates group model = [id] := by
  refine List.perm_singleton.mp (List.perm_iff_count.mpr fun i => ?_)
  rw [candidates_eq, updateAll_occurrences, ← candidates_eq, removals_isolate, List.count_erase,
    List.count_singleton]
  have hpos : 0 < (cache.candidates group model).count id := List.count_pos_iff.mpr hmem
  by_cases hi : id = i
  · subst hi
    simp
    omega
  · simp [hi]

theorem updateAll_cached (updates : List (Int × Int)) : ∀ {cache : ChannelCache} {id : Int},
    (cache.channelsIDM id).isSome → ((cache.updateAll updates).channelsIDM id).isSome := by
  induction updates with
  | nil =>
    intro cache id h
    exact h
  | cons update rest ih =>
    intro cache id h
    refine ih ?_
    simp only [ChannelCache.cacheUpdateChannelStatus]
    split <;> simpa using h

/-- A list that holds an id twice: there are updates to another status after which it is
selected. -/
theorem selected_of_twice (regexp : Regexp) (normalize : String → String) (hkeyed : cache.Keyed)
    (htwice : 2 ≤ cache.group2model2channels.occurrences group model id)
    (hcached : (cache.channelsIDM id).isSome) :
    ∃ updates, (id, channelStatusManuallyDisabled) ∈ updates ∧ ∃ channel,
      (cache.updateAll updates).getRandomSatisfiedChannel regexp normalize group model 0 [] 0 =
        .ok (some channel) ∧ channel.id = id := by
  rw [← candidates_eq] at htwice
  have hmem : id ∈ cache.candidates group model := List.count_pos_iff.mp (by omega)
  have herase : id ∈ (cache.candidates group model).erase id := by
    refine List.count_pos_iff.mp ?_
    rw [List.count_erase_self]
    omega
  refine ⟨isolate id (cache.candidates group model), List.mem_map_of_mem herase, ?_⟩
  obtain ⟨channel, hchannel⟩ := Option.isSome_iff_exists.mp
    (updateAll_cached (isolate id (cache.candidates group model)) hcached)
  refine ⟨channel, ?_, updateAll_keyed _ hkeyed id channel hchannel⟩
  have hids : (cache.updateAll (isolate id (cache.candidates group model))).satisfyingIDs regexp
      normalize group model [] = [id] := by
    unfold ChannelCache.satisfyingIDs
    simp [filterCandidateIDs_nil, candidates_isolate hmem]
  unfold ChannelCache.getRandomSatisfiedChannel
  rw [hids]
  simp [ChannelCache.choose, ChannelCache.require, hchannel, Except.map]

theorem initChannelCache_once_iff {channels : ChannelTable}
    (h : initChannelCache old channels abilities = some cache) :
    (∀ g m i, cache.group2model2channels.occurrences g m i ≤ 1) ↔
      ∀ channel ∈ channels.rows, channel.status = channelStatusEnabled → channel.entries.Nodup := by
  constructor
  · intro honce channel hchannel hon
    refine List.nodup_iff_count_le_one.mpr fun pair => ?_
    have := honce pair.1 pair.2 channel.id
    rw [initChannelCache_occurrences h, Table.find_of_mem hchannel] at this
    simpa [Channel.listed, hon] using this
  · intro hnodup g m i
    rw [initChannelCache_occurrences h]
    cases hfind : channels.find i with
    | none => simp
    | some channel =>
      simp only [Option.map_some, Option.getD_some, Channel.listed]
      split
      · next hon =>
        exact List.nodup_iff_count_le_one.mp (hnodup channel (Table.mem_of_find hfind) hon) (g, m)
      · omega

/-- A channel an update has set to another status is selected by nothing before the next sync,
whatever the updates, exactly when no enabled row lists a pair of a group and a model twice. -/
theorem disabled_never_selected_iff {regexp : Regexp} {normalize : String → String}
    {old cache : ChannelCache} {channels : ChannelTable} {abilities : List Ability}
    (h : initChannelCache old channels abilities = some cache) :
    (∀ (updates : List (Int × Int)) (id status : Int), (id, status) ∈ updates →
      status ≠ channelStatusEnabled →
      ∀ (group model : String) (retry : Nat) (filters : List ChannelFilter) (random : Nat)
        (channel : Channel),
        (cache.updateAll updates).getRandomSatisfiedChannel regexp normalize group model retry
          filters random = .ok (some channel) → channel.id ≠ id) ↔
      ∀ channel ∈ channels.rows, channel.status = channelStatusEnabled →
        channel.entries.Nodup := by
  rw [← initChannelCache_once_iff h]
  constructor
  · intro hnever g m i
    by_contra htwice
    have hcached : (cache.channelsIDM i).isSome := by
      obtain ⟨index, -, hcache⟩ := Option.map_eq_some_iff.mp h
      rw [← hcache, Option.isSome_map]
      rw [initChannelCache_occurrences h] at htwice
      cases hfind : channels.find i with
      | none =>
        rw [hfind] at htwice
        simp at htwice
      | some channel => rfl
    obtain ⟨updates, hmem, channel, hselected, hid⟩ :=
      selected_of_twice regexp normalize (initChannelCache_keyed h) (not_le.mp htwice) hcached
    exact hnever updates i channelStatusManuallyDisabled hmem (by decide) g m 0 [] 0 channel
      hselected hid
  · intro honce updates id status hupdate hstatus group model retry filters random channel hsel
    exact not_selected_of_once (initChannelCache_keyed h) honce hupdate hstatus hsel

/-! ### A row that lists a model twice -/

def sampleChannel (id : Int) (models : String) : Channel where
  id := id
  type := channelTypeOpenAI
  key := "k"
  status := channelStatusEnabled
  weight := none
  models := models
  group := "default"
  priority := none
  tag := none
  otherInfo := none
  setting := none
  otherSettings := none
  channelInfo := ⟨false, 0, [], [], [], 0, .random⟩

def sampleAbility (id : Int) (model : String) : Ability where
  group := "default"
  model := model
  channelId := id
  enabled := true
  priority := some 0
  weight := 0
  tag := none

def tableOf (channel : Channel) : ChannelTable := ⟨[channel], by simp⟩

theorem initChannelCache_sample (channel : Channel) (abilities : List Ability)
    (h : ((ChannelIndex.ofAbilities abilities).addChannels [channel]).isSome) :
    ∃ cache, initChannelCache .empty (tableOf channel) abilities = some cache := by
  obtain ⟨index, hindex⟩ := Option.isSome_iff_exists.mp h
  exact ⟨_, Option.map_eq_some_iff.mpr ⟨index, hindex, rfl⟩⟩

/-- With each model listed once, a disabled channel is not selected. -/
theorem disabled_never_selected_sample : ∃ cache : ChannelCache,
    initChannelCache .empty (tableOf (sampleChannel 7 "m,n")) [sampleAbility 7 "m"] = some cache ∧
      ∀ (retry random : Nat) (channel : Channel),
        (cache.updateAll [(7, channelStatusAutoDisabled)]).getRandomSatisfiedChannel
          (fun _ => none) (fun model => model) "default" "m" retry [] random = .ok (some channel) →
          channel.id ≠ 7 := by
  obtain ⟨cache, hcache⟩ := initChannelCache_sample (sampleChannel 7 "m,n")
    [sampleAbility 7 "m"] (by decide)
  refine ⟨cache, hcache, fun retry random channel h => ?_⟩
  refine (disabled_never_selected_iff hcache).mpr ?_ [(7, channelStatusAutoDisabled)] 7
    channelStatusAutoDisabled (List.mem_singleton_self _) (by decide) "default" "m" retry [] random
    channel h
  intro row hrow hon
  obtain rfl : row = sampleChannel 7 "m,n" := List.mem_singleton.mp hrow
  decide

/-- A row whose models are `m,m` is still selected after it was disabled. -/
theorem repeated_model_selected :
    ¬ ∀ (old cache : ChannelCache) (channels : ChannelTable) (abilities : List Ability),
      initChannelCache old channels abilities = some cache →
      ∀ (updates : List (Int × Int)) (id status : Int), (id, status) ∈ updates →
      status ≠ channelStatusEnabled →
      ∀ (group model : String) (retry : Nat) (filters : List ChannelFilter) (random : Nat)
        (channel : Channel),
        (cache.updateAll updates).getRandomSatisfiedChannel (fun _ => none) (fun model => model)
          group model retry filters random = .ok (some channel) → channel.id ≠ id := by
  intro h
  have hselected : (initChannelCache .empty (tableOf (sampleChannel 7 "m,m"))
      [sampleAbility 7 "m"]).map (fun cache =>
        (cache.updateAll [(7, channelStatusAutoDisabled)]).getRandomSatisfiedChannel
          (fun _ => none) (fun model => model) "default" "m" 0 [] 0) =
      some (.ok (some { sampleChannel 7 "m,m" with status := channelStatusAutoDisabled })) := by
    rfl
  obtain ⟨cache, hcache, hrun⟩ := Option.map_eq_some_iff.mp hselected
  exact h .empty cache _ _ hcache [(7, channelStatusAutoDisabled)] 7 channelStatusAutoDisabled
    (List.mem_singleton_self _) (by decide) "default" "m" 0 [] 0 _ hrun rfl

end JulongApi.Channels

/-
The two ways of selecting a channel, compared.

Both filter the candidates of a group and a model, take the priority of the retry, and choose by
weight.  What each can return is said first for a list of candidates: the database adds ten to
every weight and can return all of them, the memory cache passes over a weight of zero unless all
weights are.
-/
import JulongApi.ChannelSelect
import JulongApi.Proofs.ChannelSync

namespace JulongApi.Channels

/-! ### Choosing by weight -/

variable {channel : Channel} {ability : Ability} {l : List Int} {retry : Nat} {id : Int}
  {sep : Char} {text : List Char}

section Pick

variable {factor adjustment : Nat}

/-- What the loop of the memory cache subtracts for a channel. -/
def effectiveWeight (factor adjustment : Nat) (channel : Channel) : Nat :=
  channel.getWeight * factor + adjustment

theorem pickByWeight_reaches (hweight : 0 < effectiveWeight factor adjustment channel)
    {after : List Channel} : ∀ {before : List Channel},
    pickByWeight factor adjustment (before ++ channel :: after)
      ((before.map (effectiveWeight factor adjustment)).sum : Nat) = .ok channel := by
  intro before
  induction before with
  | nil =>
    unfold effectiveWeight at hweight
    simp only [List.nil_append, pickByWeight, List.map_nil, List.sum_nil]
    rw [if_pos (by omega)]
  | cons head rest ih =>
    have hrest : (((head :: rest).map (effectiveWeight factor adjustment)).sum : Nat) -
        ((head.getWeight * factor + adjustment : Nat) : Int) =
          ((rest.map (effectiveWeight factor adjustment)).sum : Nat) := by
      simp only [List.map_cons, List.sum_cons, effectiveWeight]
      push_cast
      ring
    simp only [List.cons_append, pickByWeight, hrest]
    rw [if_neg (by omega), ih]

theorem effectiveWeight_of_pick : ∀ {channels : List Channel} {random : Int},
    0 ≤ random → pickByWeight factor adjustment channels random = .ok channel →
      0 < effectiveWeight factor adjustment channel := by
  intro channels
  induction channels with
  | nil =>
    intro random _ h
    cases h
  | cons head rest ih =>
    intro random hrandom h
    simp only [pickByWeight] at h
    split at h
    · next hneg =>
      cases h
      unfold effectiveWeight
      omega
    · next hpos => exact ih (by omega) h

theorem sum_effectiveWeight (channels : List Channel) :
    (channels.map (effectiveWeight factor adjustment)).sum =
      (channels.map (·.getWeight)).sum * factor + channels.length * adjustment := by
  induction channels with
  | nil => simp
  | cons head rest ih =>
    simp only [List.map_cons, List.sum_cons, ih, List.length_cons, effectiveWeight]
    ring

theorem pickByWeight_of_mem {channels : List Channel} {total : Nat} (hmem : channel ∈ channels)
    (hweight : 0 < effectiveWeight factor adjustment channel)
    (htotal : total = (channels.map (effectiveWeight factor adjustment)).sum) :
    ∃ random : Nat, pickByWeight factor adjustment channels (random % total : Nat) =
      .ok channel := by
  obtain ⟨before, after, rfl⟩ := List.append_of_mem hmem
  refine ⟨(before.map (effectiveWeight factor adjustment)).sum, ?_⟩
  have hlt : (before.map (effectiveWeight factor adjustment)).sum < total := by
    rw [htotal, List.map_append, List.sum_append, List.map_cons, List.sum_cons]
    omega
  rw [Nat.mod_eq_of_lt hlt]
  exact pickByWeight_reaches hweight

end Pick

/-- What a choice by weight can return: every channel with a weight, and every channel when there
are no weights. -/
theorem selectByWeight_iff {channels : List Channel} :
    (∃ random, selectByWeight channels random = .ok channel) ↔
      channel ∈ channels ∧
        (0 < channel.getWeight ∨ ∀ other ∈ channels, other.getWeight = 0) := by
  constructor
  · rintro ⟨random, h⟩
    refine ⟨mem_of_selectByWeight h, ?_⟩
    simp only [selectByWeight] at h
    split at h
    · next hsum =>
      exact .inr fun other hother =>
        List.sum_eq_zero_iff_forall_eq_nat.mp hsum _ (List.mem_map_of_mem hother)
    · have hweight := effectiveWeight_of_pick (by omega) h
      refine .inl ?_
      unfold effectiveWeight at hweight
      by_contra hzero
      have hnone : channel.getWeight = 0 := by omega
      simp [hnone] at hweight
  · rintro ⟨hmem, hweight⟩
    simp only [selectByWeight]
    split
    · next hsum =>
      refine pickByWeight_of_mem hmem (by unfold effectiveWeight; omega) ?_
      rw [sum_effectiveWeight, hsum]
      ring
    · next hsum =>
      have hpos : 0 < channel.getWeight := by
        refine hweight.resolve_right fun hall => hsum (List.sum_eq_zero_iff_forall_eq_nat.mpr ?_)
        intro weight hweight
        obtain ⟨other, hother, rfl⟩ := List.mem_map.mp hweight
        exact hall other hother
      refine pickByWeight_of_mem hmem ?_ ?_
      · unfold effectiveWeight
        split <;> omega
      · rw [sum_effectiveWeight]
        ring

theorem pickAbility_reaches {after : List Ability} : ∀ {before : List Ability},
    pickAbility (before ++ ability :: after)
      (((before.map fun a => a.weight + 10).sum + 1 : Nat) : Int) = ability.channelId := by
  intro before
  induction before with
  | nil =>
    simp only [List.nil_append, pickAbility, List.map_nil, List.sum_nil]
    rw [if_pos (by push_cast; omega)]
  | cons head rest ih =>
    have hrest : ((((head :: rest).map fun a => a.weight + 10).sum + 1 : Nat) : Int) -
        ((head.weight : Int) + 10) = (((rest.map fun a => a.weight + 10).sum + 1 : Nat) : Int) := by
      simp only [List.map_cons, List.sum_cons]
      push_cast
      ring
    simp only [List.cons_append, pickAbility, hrest]
    rw [if_neg (by omega), ih]

theorem mem_of_pickAbility {abilities : List Ability} : ∀ {random : Int}, abilities ≠ [] →
    random < ((abilities.map fun a => a.weight + 10).sum : Nat) →
      ∃ ability ∈ abilities, pickAbility abilities random = ability.channelId := by
  induction abilities with
  | nil =>
    intro random hsome
    exact absurd rfl hsome
  | cons head rest ih =>
    intro random _ h
    simp only [List.map_cons, List.sum_cons] at h
    simp only [pickAbility]
    split
    · exact ⟨head, by simp, rfl⟩
    · next hpos =>
      have hrest : rest ≠ [] := by
        rintro rfl
        simp only [List.map_nil, List.sum_nil] at h
        omega
      obtain ⟨ability, hability, heq⟩ := @ih (random - (head.weight + 10)) hrest (by omega)
      exact ⟨ability, List.mem_cons_of_mem _ hability, heq⟩

/-! ### The priority of a retry -/

def uniqueSorted (priorities : List Int) : List Int := priorities.dedup.insertionSort (· ≥ ·)

theorem uniqueSorted_congr {l' : List Int} (h : ∀ p, p ∈ l ↔ p ∈ l') :
    uniqueSorted l = uniqueSorted l' := by
  have hdedup : l.dedup.Perm l'.dedup :=
    (List.perm_ext_iff_of_nodup l.nodup_dedup l'.nodup_dedup).mpr fun p => by
      rw [List.mem_dedup, List.mem_dedup, h]
  have hperm : (uniqueSorted l).Perm (uniqueSorted l') :=
    ((List.perm_insertionSort _ _).trans hdedup).trans (List.perm_insertionSort _ _).symm
  exact hperm.eq_of_sortedGE List.sortedGE_insertionSort List.sortedGE_insertionSort

theorem targetPriority_mem {priorities : List Int} (h : priorities ≠ []) (retry : Nat) :
    targetPriority priorities retry ∈ priorities := by
  have hpos : 0 < priorities.length := List.length_pos_iff.mpr h
  unfold targetPriority
  rw [List.getD_eq_getElem?_getD]
  split
  · rw [List.getElem?_eq_getElem (by omega)]
    exact List.getElem_mem _
  · rw [List.getElem?_eq_getElem (by omega)]
    exact List.getElem_mem _

theorem uniqueSorted_ne_nil (h : l ≠ []) : uniqueSorted l ≠ [] := by
  obtain ⟨p, hp⟩ := List.exists_mem_of_ne_nil l h
  refine List.ne_nil_of_mem (a := p) ?_
  rw [uniqueSorted, List.mem_insertionSort, List.mem_dedup]
  exact hp

theorem mem_of_target (h : l ≠ []) (retry : Nat) : targetPriority (uniqueSorted l) retry ∈ l := by
  have hmem := targetPriority_mem (uniqueSorted_ne_nil h) retry
  rwa [uniqueSorted, List.mem_insertionSort, List.mem_dedup] at hmem

/-! ### Choosing among candidates -/

theorem chooseAbility_iff {abilities : List Ability} (hcandidates : abilities ≠ []) :
    (∃ random, chooseAbility abilities retry random = id) ↔
      ∃ ability ∈ abilities, ability.priority.getD 0 =
        targetPriority (uniqueSorted (abilities.map fun a => a.priority.getD 0)) retry ∧
        ability.channelId = id := by
  have htarget := mem_of_target (l := abilities.map fun a => a.priority.getD 0)
    (by simpa using hcandidates) retry
  unfold chooseAbility uniqueSorted at *
  simp only []
  generalize targetPriority
    ((abilities.map fun a => a.priority.getD 0).dedup.insertionSort (· ≥ ·)) retry = target at *
  have hsome : (abilities.filter fun a => a.priority.getD 0 = target) ≠ [] := by
    obtain ⟨ability, hability, hpriority⟩ := List.mem_map.mp htarget
    exact List.ne_nil_of_mem (List.mem_filter.mpr ⟨hability, decide_eq_true hpriority⟩)
  constructor
  · rintro ⟨random, rfl⟩
    have hpos : 0 < ((abilities.filter fun a => a.priority.getD 0 = target).map
        fun a => a.weight + 10).sum := by
      obtain ⟨head, rest, heq⟩ := List.exists_cons_of_ne_nil hsome
      rw [heq, List.map_cons, List.sum_cons]
      omega
    have hlt : ((random % ((abilities.filter fun a => a.priority.getD 0 = target).map
        fun a => a.weight + 10).sum : Nat) : Int) < (((abilities.filter fun a =>
          a.priority.getD 0 = target).map fun a => a.weight + 10).sum : Nat) := by
      exact_mod_cast Nat.mod_lt random hpos
    obtain ⟨ability, hability, heq⟩ := mem_of_pickAbility hsome hlt
    obtain ⟨hmem, hpriority⟩ := List.mem_filter.mp hability
    exact ⟨ability, hmem, of_decide_eq_true hpriority, heq.symm⟩
  · rintro ⟨ability, hmem, hpriority, rfl⟩
    have hin : ability ∈ abilities.filter fun a => a.priority.getD 0 = target :=
      List.mem_filter.mpr ⟨hmem, decide_eq_true hpriority⟩
    obtain ⟨before, after, heq⟩ := List.append_of_mem hin
    rw [heq]
    refine ⟨(before.map fun a => a.weight + 10).sum + 1, ?_⟩
    rw [Nat.mod_eq_of_lt]
    · exact pickAbility_reaches
    · rw [List.map_append, List.sum_append, List.map_cons, List.sum_cons]
      omega

def Returnable (channels : List Channel) (retry : Nat) (channel : Channel) : Prop :=
  channel ∈ channels ∧
    channel.getPriority = targetPriority (uniqueSorted (channels.map (·.getPriority))) retry ∧
    (0 < channel.getWeight ∨
      ∀ other ∈ channels, other.getPriority = channel.getPriority → other.getWeight = 0)

theorem selectAmong_iff {cache : ChannelCache} {group model : String} {ids : List Int}
    {channels : List Channel} (hchannels : ids.mapM cache.require = .ok channels)
    (hsome : channels ≠ []) :
    (∃ random, cache.selectAmong group model retry random ids = .ok (some channel)) ↔
      Returnable channels retry channel := by
  have htarget := mem_of_target (l := channels.map (·.getPriority)) (by simpa using hsome) retry
  unfold Returnable
  have hselect : ∀ random, cache.selectAmong group model retry random ids = .ok (some channel) ↔
      selectByWeight (channels.filter fun c => c.getPriority =
        targetPriority (uniqueSorted (channels.map (·.getPriority))) retry) random =
          .ok channel := by
    intro random
    unfold ChannelCache.selectAmong
    rw [hchannels]
    simp only [ok_bind]
    have hnonempty : (channels.filter fun c => c.getPriority =
        targetPriority (sortedUniquePriorities channels) retry).isEmpty = false := by
      obtain ⟨c, hc, hpriority⟩ := List.mem_map.mp htarget
      refine List.isEmpty_eq_false_iff.mpr (List.ne_nil_of_mem (a := c) ?_)
      exact List.mem_filter.mpr ⟨hc, decide_eq_true hpriority⟩
    rw [if_neg (by simp [hnonempty]), map_eq_ok]
    exact Iff.rfl
  simp only [hselect, selectByWeight_iff, List.mem_filter, decide_eq_true_eq]
  constructor
  · rintro ⟨⟨hmem, hpriority⟩, hweight⟩
    refine ⟨hmem, hpriority, hweight.imp_right fun hall other hother hsame => ?_⟩
    exact hall other ⟨hother, hsame.trans hpriority⟩
  · rintro ⟨hmem, hpriority, hweight⟩
    refine ⟨⟨hmem, hpriority⟩, hweight.imp_right fun hall other hother => ?_⟩
    exact hall other hother.1 (hother.2.trans hpriority.symm)

theorem choose_iff {cache : ChannelCache} {group model : String} {ids : List Int}
    {channels : List Channel} (hchannels : ids.mapM cache.require = .ok channels) :
    (∃ random, cache.choose group model retry random ids = .ok (some channel)) ↔
      Returnable channels retry channel := by
  match ids with
  | [] =>
    cases hchannels
    simp [ChannelCache.choose, Returnable]
  | [id] =>
    rw [List.mapM_cons] at hchannels
    obtain ⟨only, honly, h⟩ := bind_eq_ok.mp hchannels
    have hlist : channels = [only] := by
      simpa [eq_comm] using h
    subst hlist
    have htarget := mem_of_target (l := [only].map (·.getPriority)) (by simp) retry
    simp only [List.map_cons, List.map_nil, List.mem_singleton] at htarget
    simp only [ChannelCache.choose, honly, Except.map, Except.ok.injEq, Option.some.injEq,
      exists_const, Returnable, List.mem_singleton, List.map_cons, List.map_nil, htarget]
    constructor
    · rintro rfl
      refine ⟨rfl, rfl, ?_⟩
      by_cases hweight : 0 < only.getWeight
      · exact .inl hweight
      · refine .inr fun other hother _ => ?_
        rw [hother]
        omega
    · rintro ⟨rfl, -⟩
      rfl
  | id :: next :: rest =>
    refine selectAmong_iff hchannels ?_
    obtain ⟨channel, hchannel, -⟩ := (mapM_ok_imp hchannels).1 id (by simp)
    exact List.ne_nil_of_mem hchannel

/-! ### The models of a column -/

theorem mem_split {m text : String} : m ∈ split text sep ↔ m.toList ∈ text.toList.splitOn sep := by
  unfold split
  rw [List.mem_map]
  constructor
  · rintro ⟨piece, hpiece, rfl⟩
    simpa using hpiece
  · intro h
    exact ⟨m.toList, h, String.ofList_toList⟩

theorem mem_of_mem_splitOn {c : Char} : ∀ {piece : List Char},
    piece ∈ text.splitOn sep → c ∈ piece → c ∈ text := by
  induction text with
  | nil => simp
  | cons head rest ih =>
    intro piece hpiece hc
    rw [List.splitOn_cons_eq_if_modifyHead] at hpiece
    split at hpiece
    · rcases List.mem_cons.mp hpiece with rfl | hpiece
      · cases hc
      · exact List.mem_cons_of_mem _ (ih hpiece hc)
    · obtain ⟨first, others, heq⟩ := List.exists_cons_of_ne_nil (List.splitOn_ne_nil sep rest)
      rw [heq, List.modifyHead_cons] at hpiece
      rcases List.mem_cons.mp hpiece with rfl | hpiece
      · rcases List.mem_cons.mp hc with rfl | hc
        · simp
        · exact List.mem_cons_of_mem _ (ih (by simp [heq]) hc)
      · exact List.mem_cons_of_mem _ (ih (by simp [heq, hpiece]) hc)

theorem mem_splitOn_dropWhile {piece : List Char} (hpiece : piece ≠ []) :
    piece ∈ (text.dropWhile (· == sep)).splitOn sep ↔ piece ∈ text.splitOn sep := by
  induction text with
  | nil => simp
  | cons head rest ih =>
    by_cases hsep : head == sep
    · rw [List.dropWhile_cons, if_pos hsep, ih, List.splitOn_cons_eq_if_modifyHead, if_pos hsep,
        List.mem_cons, or_iff_right hpiece]
    · rw [List.dropWhile_cons, if_neg hsep]

theorem mem_splitOn_dropEnd {piece : List Char} (hpiece : piece ≠ []) :
    piece ∈ (text.reverse.dropWhile (· == sep)).reverse.splitOn sep ↔
      piece ∈ text.splitOn sep := by
  induction text using List.reverseRecOn with
  | nil => simp
  | append_singleton rest last ih =>
    rw [List.reverse_append, List.reverse_singleton, List.singleton_append]
    by_cases hsep : last == sep
    · rw [List.dropWhile_cons, if_pos hsep, ih, List.splitOn_append_cons_of_beq _ _ hsep]
      simp [hpiece]
    · rw [List.dropWhile_cons, if_neg hsep, List.reverse_cons, List.reverse_reverse]

theorem mem_getModels {m : String} (hm : m ≠ "") :
    m ∈ channel.getModels ↔ m ∈ split channel.models ',' := by
  have hpiece : m.toList ≠ [] := by simpa using hm
  unfold Channel.getModels
  split
  · next hempty =>
    rw [hempty]
    simp [mem_split, hpiece]
  · rw [mem_split, mem_split, trimChar, String.toList_ofList, mem_splitOn_dropEnd hpiece,
      mem_splitOn_dropWhile hpiece]

/-! ### The abilities of a channel -/

def abilityKey (pair : String × String) : String := pair.2 ++ "|" ++ pair.1

theorem collectAbilities_mem {model group : String} {pairs : List (String × String)} :
    ∀ {met : List String},
    (∀ p ∈ pairs, abilityKey p = abilityKey (model, group) → p = (model, group)) →
      (model, group) ∈ pairs → abilityKey (model, group) ∉ met →
        channel.ability model group ∈ channel.collectAbilities met pairs := by
  induction pairs with
  | nil =>
    intro met _ hpair
    cases hpair
  | cons head rest ih =>
    intro met hinj hpair hnew
    have hrest : ∀ p ∈ rest, abilityKey p = abilityKey (model, group) → p = (model, group) :=
      fun p hp => hinj p (List.mem_cons_of_mem _ hp)
    by_cases hhead : head = (model, group)
    · subst hhead
      have hfresh : group ++ "|" ++ model ∉ met := hnew
      simp only [Channel.collectAbilities]
      rw [if_neg hfresh]
      exact List.mem_cons_self
    · have hin : (model, group) ∈ rest := (List.mem_cons.mp hpair).resolve_left (Ne.symm hhead)
      have hkey : abilityKey (model, group) ≠ abilityKey head := fun hsame =>
        hhead (hinj head (by simp) hsame.symm)
      simp only [Channel.collectAbilities]
      split
      · exact ih hrest hin hnew
      · refine List.mem_cons_of_mem _ (ih hrest hin ?_)
        rw [List.mem_cons, not_or]
        exact ⟨hkey, hnew⟩

theorem abilityKey_inj {p q : String × String} (hp : '|' ∉ p.2.toList) (hq : '|' ∉ q.2.toList)
    (hsame : abilityKey p = abilityKey q) : p = q := by
  have hlists : p.2.toList ++ '|' :: p.1.toList = q.2.toList ++ '|' :: q.1.toList := by
    have h := congrArg String.toList hsame
    simpa [abilityKey] using h
  have hsplit := congrArg (List.splitOn '|') hlists
  rw [List.splitOn_append_cons_self_of_not_mem hp, List.splitOn_append_cons_self_of_not_mem hq]
    at hsplit
  have hgroup : p.2 = q.2 := String.toList_inj.mp (List.cons.inj hsplit).1
  rw [hgroup] at hlists
  have hmodel := String.toList_inj.mp (List.cons.inj (List.append_cancel_left hlists)).2
  exact Prod.ext hmodel hgroup

theorem mem_abilities (hgroup : '|' ∉ channel.group.toList)
    {models : List String} :
    ability ∈ channel.abilities models ↔
      ∃ model ∈ models, ∃ group ∈ split channel.group ',', ability = channel.ability model group := by
  have hfree : ∀ group ∈ split channel.group ',', '|' ∉ group.toList := fun group hin hbar =>
    hgroup (mem_of_mem_splitOn (mem_split.mp hin) hbar)
  unfold Channel.abilities
  constructor
  · intro h
    obtain ⟨⟨model, group⟩, hpair, rfl⟩ := mem_collectAbilities h
    obtain ⟨hmodel, hin⟩ := List.pair_mem_product.mp hpair
    exact ⟨model, hmodel, group, hin, rfl⟩
  · rintro ⟨model, hmodel, group, hin, rfl⟩
    refine collectAbilities_mem (fun p hp hsame => ?_)
      (List.pair_mem_product.mpr ⟨hmodel, hin⟩) (by simp)
    exact abilityKey_inj (hfree p.2 (List.mem_product.mp hp).2) (hfree group hin) hsame

/-! ### The channels that match -/

theorem channelSatisfiesFilters_iff {regexp : Regexp} {model : String}
    {filters : List ChannelFilter} :
    channelSatisfiesFilters regexp channel model filters = none ↔
      ∀ kind ∈ filterEvalOrder, ∀ filter ∈ filters, filter.kind = kind →
        channelMatchesFilter regexp channel model filter = true := by
  unfold channelSatisfiesFilters
  rw [List.find?_eq_none]
  refine forall₂_congr fun kind _ => ?_
  simp only [List.any_eq_true, Bool.and_eq_true, decide_eq_true_eq, Bool.not_eq_eq_eq_not,
    Bool.not_true, not_exists, not_and, Bool.not_eq_false]

theorem mem_filterByKinds {regexp : Regexp} {cache : ChannelCache} {model : String}
    {filters : List ChannelFilter} (hchannel : cache.channelsIDM id = some channel)
    {kinds : List ChannelFilterKind} :
    ∀ {kept : List Int}, id ∈ (cache.filterByKinds regexp model filters kinds kept).1 ↔
      id ∈ kept ∧ ∀ kind ∈ kinds, ∀ filter ∈ filters, filter.kind = kind →
        channelMatchesFilter regexp channel model filter = true := by
  induction kinds with
  | nil => simp [ChannelCache.filterByKinds]
  | cons kind rest ih =>
    intro kept
    have hpasses : candidatePassesKindFilters regexp (cache.channelsIDM id) model kind
        (filters.filter (·.kind = kind)) = true ↔ ∀ filter ∈ filters, filter.kind = kind →
          channelMatchesFilter regexp channel model filter = true := by
      simp [hchannel, candidatePassesKindFilters, imp_iff_not_or]
    simp only [ChannelCache.filterByKinds, List.forall_mem_cons]
    split
    · next hempty =>
      rw [ih]
      have hnone : ∀ filter ∈ filters, filter.kind = kind →
          channelMatchesFilter regexp channel model filter = true := by
        intro filter hfilter hkind
        have hin : filter ∈ filters.filter (·.kind = kind) :=
          List.mem_filter.mpr ⟨hfilter, decide_eq_true hkind⟩
        rw [List.isEmpty_iff.mp hempty] at hin
        cases hin
      exact and_congr_right fun _ => (and_iff_right hnone).symm
    · split
      · next hstop =>
        have hempty := List.isEmpty_iff.mp (Bool.and_eq_true_iff.mp hstop).2
        rw [hempty]
        refine iff_of_false (by simp) ?_
        rintro ⟨hkept, hkind, -⟩
        have hin : id ∈ kept.filter fun id => candidatePassesKindFilters regexp
            (cache.channelsIDM id) model kind (filters.filter (·.kind = kind)) :=
          List.mem_filter.mpr ⟨hkept, hpasses.mpr hkind⟩
        rw [hempty] at hin
        cases hin
      · rw [ih, List.mem_filter, hpasses, and_assoc]

/-- The channels of the table that are enabled, are listed under a group and a model, and match
the filters. -/
def matching (regexp : Regexp) (channels : ChannelTable) (group listed model : String)
    (filters : List ChannelFilter) : List Channel :=
  channels.rows.filter fun channel =>
    channel.status = channelStatusEnabled ∧ (group, listed) ∈ channel.entries ∧
      channelSatisfiesFilters regexp channel model filters = none

theorem mem_matching {regexp : Regexp} {channels : ChannelTable} {group listed model : String}
    {filters : List ChannelFilter} :
    channel ∈ matching regexp channels group listed model filters ↔ channel ∈ channels.rows ∧
      channel.status = channelStatusEnabled ∧ (group, listed) ∈ channel.entries ∧
        channelSatisfiesFilters regexp channel model filters = none := by
  rw [matching, List.mem_filter, decide_eq_true_eq]

def priorityOf (channels : List Channel) (retry : Nat) : Int :=
  targetPriority (uniqueSorted (channels.map (·.getPriority))) retry

/-! ### What the database returns -/

/-- The abilities are those that `AddAbilities` or `UpdateAbilities` makes of the channels. -/
structure Derived (channels : ChannelTable) (abilities : AbilityTable) : Prop where
  made : ∀ channel ∈ channels.rows, ∃ models,
    (models = split channel.models ',' ∨ models = channel.getModels) ∧
      ∀ ability, ability ∈ abilities.rows ∧ ability.channelId = channel.id ↔
        ability ∈ channel.abilities models
  owned : ∀ ability ∈ abilities.rows, ∃ channel ∈ channels.rows, channel.id = ability.channelId

section Database

variable {regexp : Regexp} {channels : ChannelTable} {abilities : AbilityTable}
  {group model : String} {filters : List ChannelFilter}

theorem mem_enabledFor : ability ∈ abilities.enabledFor group model ↔
    ability ∈ abilities.rows ∧ ability.group = group ∧ ability.model = model ∧
      ability.enabled = true := by
  simp only [AbilityTable.enabledFor, List.mem_insertionSort, List.mem_filter, decide_eq_true_eq]

theorem mem_candidates_iff (hderived : Derived channels abilities)
    (hgroups : ∀ channel ∈ channels.rows, '|' ∉ channel.group.toList) (hmodel : model ≠ "")
    {ability : Ability} :
    ability ∈ filterAbilitiesByConstraints regexp channels (abilities.enabledFor group model)
        model filters ↔
      ∃ channel ∈ matching regexp channels group model model filters,
        ability = channel.ability model group := by
  have hlisted : ∀ channel ∈ channels.rows, ∀ a : Ability, a.group = group → a.model = model →
      (a ∈ abilities.rows ∧ a.channelId = channel.id ↔
        (group, model) ∈ channel.entries ∧ a = channel.ability model group) := by
    intro channel hchannel a ha hm
    obtain ⟨models, hmodels, hmade⟩ := hderived.made channel hchannel
    have hnames : model ∈ models ↔ model ∈ channel.getModels := by
      rcases hmodels with rfl | rfl
      · exact (mem_getModels hmodel).symm
      · exact Iff.rfl
    rw [hmade, mem_abilities (hgroups channel hchannel), Channel.entries, List.pair_mem_product,
      ← hnames]
    constructor
    · rintro ⟨m, hin, g, hg, rfl⟩
      obtain rfl : g = group := ha
      obtain rfl : m = model := hm
      exact ⟨⟨hg, hin⟩, rfl⟩
    · rintro ⟨⟨hg, hin⟩, rfl⟩
      exact ⟨model, hin, group, hg, rfl⟩
  unfold filterAbilitiesByConstraints
  rw [List.mem_filter, mem_enabledFor]
  constructor
  · rintro ⟨⟨hrow, ha, hm, hon⟩, hfilters⟩
    obtain ⟨channel, hchannel, hid⟩ := hderived.owned ability hrow
    obtain ⟨hentry, rfl⟩ := (hlisted channel hchannel ability ha hm).mp ⟨hrow, hid.symm⟩
    have hfind : channels.find channel.id = some channel := Table.find_of_mem hchannel
    refine ⟨channel, mem_matching.mpr ⟨hchannel, of_decide_eq_true hon, hentry, ?_⟩, rfl⟩
    simpa [Channel.ability, hfind] using hfilters
  · rintro ⟨channel, hmatching, rfl⟩
    obtain ⟨hchannel, hon, hentry, hsatisfies⟩ := mem_matching.mp hmatching
    have hfind : channels.find channel.id = some channel := Table.find_of_mem hchannel
    have hrow := ((hlisted channel hchannel (channel.ability model group) rfl rfl).mpr
      ⟨hentry, rfl⟩).1
    refine ⟨⟨hrow, rfl, rfl, decide_eq_true hon⟩, ?_⟩
    simp [Channel.ability, hfind, hsatisfies]

theorem getChannel_iff (hderived : Derived channels abilities)
    (hgroups : ∀ channel ∈ channels.rows, '|' ∉ channel.group.toList) (hmodel : model ≠ "")
    {retry : Nat} {id : Int} :
    (∃ random channel, getChannel regexp channels abilities group model retry filters random =
        .ok (some channel) ∧ channel.id = id) ↔
      ∃ channel ∈ matching regexp channels group model model filters, channel.id = id ∧
        channel.getPriority =
          priorityOf (matching regexp channels group model model filters) retry := by
  have hcandidates := fun ability => @mem_candidates_iff regexp channels abilities group model
    filters hderived hgroups hmodel ability
  unfold getChannel priorityOf
  simp only []
  generalize filterAbilitiesByConstraints regexp channels (abilities.enabledFor group model) model
    filters = candidates at *
  generalize hrows : matching regexp channels group model model filters = rows at *
  have hpriorities : uniqueSorted (candidates.map fun a => a.priority.getD 0) =
      uniqueSorted (rows.map (·.getPriority)) := by
    refine uniqueSorted_congr fun p => ?_
    simp only [List.mem_map, hcandidates]
    constructor
    · rintro ⟨_, ⟨channel, hchannel, rfl⟩, rfl⟩
      exact ⟨channel, hchannel, rfl⟩
    · rintro ⟨channel, hchannel, rfl⟩
      exact ⟨_, ⟨channel, hchannel, rfl⟩, rfl⟩
  have hfound : ∀ channel ∈ rows, channels.find channel.id = some channel := fun channel hin =>
    Table.find_of_mem (mem_matching.mp (hrows ▸ hin)).1
  by_cases hempty : candidates = []
  · subst hempty
    refine iff_of_false (by simp) ?_
    rintro ⟨channel, hin, -⟩
    have := (hcandidates (channel.ability model group)).mpr ⟨channel, hin, rfl⟩
    cases this
  · have hchosen : ∀ i : Int, (∃ random, chooseAbility candidates retry random = i) ↔
        ∃ channel ∈ rows, channel.id = i ∧ channel.getPriority =
          targetPriority (uniqueSorted (rows.map (·.getPriority))) retry := by
      intro i
      rw [chooseAbility_iff hempty, hpriorities]
      constructor
      · rintro ⟨ability, hability, hpriority, hid⟩
        obtain ⟨channel, hin, rfl⟩ := (hcandidates ability).mp hability
        exact ⟨channel, hin, hid, hpriority⟩
      · rintro ⟨channel, hin, hid, hpriority⟩
        exact ⟨_, (hcandidates _).mpr ⟨channel, hin, rfl⟩, hpriority, hid⟩
    rw [← hchosen]
    simp only [List.isEmpty_iff, hempty, if_false]
    constructor
    · rintro ⟨random, channel, hget, hid⟩
      refine ⟨random, ?_⟩
      split at hget
      · cases hget
      · next hfind =>
        cases hget
        rw [← hid]
        exact (Table.key_of_find hfind).symm
    · rintro ⟨random, rfl⟩
      obtain ⟨channel, hin, hid, -⟩ := (hchosen _).mp ⟨random, rfl⟩
      refine ⟨random, channel, ?_, hid⟩
      rw [← hid, hfound channel hin]

end Database

/-! ### What the memory cache returns -/

section Memory

variable {regexp : Regexp} {normalize : String → String} {old cache : ChannelCache}
  {channels : ChannelTable} {abilities : List Ability} {group model listed : String}
  {filters : List ChannelFilter}

theorem keepPollingIndex_eq (old : ChannelCache) (channel : Channel) :
    ∃ info, keepPollingIndex old channel = { channel with channelInfo := info } := by
  unfold keepPollingIndex
  split
  · split
    · split
      · exact ⟨_, rfl⟩
      · exact ⟨channel.channelInfo, rfl⟩
    · exact ⟨channel.channelInfo, rfl⟩
  · exact ⟨channel.channelInfo, rfl⟩

theorem keepPollingIndex_matches (channel : Channel) :
    channelMatchesFilter regexp (keepPollingIndex old channel) model =
      channelMatchesFilter regexp channel model := by
  obtain ⟨info, hinfo⟩ := keepPollingIndex_eq old channel
  rw [hinfo]
  rfl

@[simp] theorem keepPollingIndex_id (channel : Channel) :
    (keepPollingIndex old channel).id = channel.id := by
  obtain ⟨info, hinfo⟩ := keepPollingIndex_eq old channel
  rw [hinfo]

@[simp] theorem keepPollingIndex_getPriority (channel : Channel) :
    (keepPollingIndex old channel).getPriority = channel.getPriority := by
  obtain ⟨info, hinfo⟩ := keepPollingIndex_eq old channel
  rw [hinfo]
  rfl

@[simp] theorem keepPollingIndex_getWeight (channel : Channel) :
    (keepPollingIndex old channel).getWeight = channel.getWeight := by
  obtain ⟨info, hinfo⟩ := keepPollingIndex_eq old channel
  rw [hinfo]
  rfl

theorem initChannelCache_cached (hcache : initChannelCache old channels abilities = some cache)
    (id : Int) : cache.channelsIDM id = (channels.find id).map (keepPollingIndex old) := by
  obtain ⟨index, -, heq⟩ := Option.map_eq_some_iff.mp hcache
  rw [← heq]

theorem mem_candidates (hcache : initChannelCache old channels abilities = some cache) :
    id ∈ cache.candidates group listed ↔ ∃ channel, channels.find id = some channel ∧
      channel.status = channelStatusEnabled ∧ (group, listed) ∈ channel.entries := by
  rw [← List.count_pos_iff, candidates_eq, initChannelCache_occurrences hcache]
  cases channels.find id with
  | none => simp
  | some channel =>
    simp only [Option.map_some, Option.getD_some, Channel.listed, Option.some.injEq,
      exists_eq_left']
    split
    · next hon => simp [hon, List.count_pos_iff]
    · next hoff => simp [hoff]

theorem mem_filterCandidateIDs (hcache : initChannelCache old channels abilities = some cache) :
    id ∈ (cache.filterCandidateIDs regexp (cache.candidates group listed) model filters).1 ↔
      ∃ channel ∈ matching regexp channels group listed model filters, channel.id = id := by
  have hkept : id ∈ (cache.filterCandidateIDs regexp (cache.candidates group listed) model
      filters).1 ↔ id ∈ (cache.filterByKinds regexp model filters filterEvalOrder
        (cache.candidates group listed)).1 := by
    unfold ChannelCache.filterCandidateIDs
    split
    · next hempty =>
      have hnone := List.isEmpty_iff.mp hempty
      rw [hnone]
      refine iff_of_false (by simp) fun h => ?_
      cases filterByKinds_subset h
    · exact Iff.rfl
  rw [hkept]
  constructor
  · intro h
    obtain ⟨channel, hfind, hon, hentry⟩ := (mem_candidates hcache).mp (filterByKinds_subset h)
    have hcached : cache.channelsIDM id = some (keepPollingIndex old channel) := by
      rw [initChannelCache_cached hcache, hfind, Option.map_some]
    have hfilters := ((mem_filterByKinds hcached).mp h).2
    rw [keepPollingIndex_matches] at hfilters
    exact ⟨channel, mem_matching.mpr ⟨Table.mem_of_find hfind, hon, hentry,
      channelSatisfiesFilters_iff.mpr hfilters⟩, Table.key_of_find hfind⟩
  · rintro ⟨channel, hmatching, rfl⟩
    obtain ⟨hrow, hon, hentry, hsatisfies⟩ := mem_matching.mp hmatching
    have hfind : channels.find channel.id = some channel := Table.find_of_mem hrow
    have hcached : cache.channelsIDM channel.id = some (keepPollingIndex old channel) := by
      rw [initChannelCache_cached hcache, hfind, Option.map_some]
    refine (mem_filterByKinds hcached).mpr
      ⟨(mem_candidates hcache).mpr ⟨channel, hfind, hon, hentry⟩, ?_⟩
    rw [keepPollingIndex_matches]
    exact channelSatisfiesFilters_iff.mp hsatisfies

def selectable (regexp : Regexp) (normalize : String → String) (channels : ChannelTable)
    (group model : String) (filters : List ChannelFilter) : List Channel :=
  if (matching regexp channels group model model filters).isEmpty then
    matching regexp channels group (normalize model) model filters
  else matching regexp channels group model model filters

theorem mem_satisfyingIDs (hcache : initChannelCache old channels abilities = some cache)
    {id : Int} :
    id ∈ cache.satisfyingIDs regexp normalize group model filters ↔
      ∃ channel ∈ selectable regexp normalize channels group model filters, channel.id = id := by
  have hempty : (cache.filterCandidateIDs regexp (cache.candidates group model) model
      filters).1.isEmpty = (matching regexp channels group model model filters).isEmpty := by
    rw [Bool.eq_iff_iff, List.isEmpty_iff, List.isEmpty_iff, List.eq_nil_iff_forall_not_mem,
      List.eq_nil_iff_forall_not_mem]
    simp only [mem_filterCandidateIDs hcache]
    constructor
    · exact fun h channel hin => h channel.id ⟨channel, hin, rfl⟩
    · rintro h id ⟨channel, hin, -⟩
      exact h channel hin
  unfold ChannelCache.satisfyingIDs selectable
  simp only [hempty]
  split
  · exact mem_filterCandidateIDs hcache
  · exact mem_filterCandidateIDs hcache

theorem selectable_row (h : channel ∈ selectable regexp normalize channels group model filters) :
    channel ∈ channels.rows := by
  unfold selectable at h
  split at h
  · exact (mem_matching.mp h).1
  · exact (mem_matching.mp h).1

/-- The memory cache returns the channels of the priority that the retry asks for, and of these
one without weight only if none has a weight. -/
theorem getRandomSatisfiedChannel_iff
    (hcache : initChannelCache old channels abilities = some cache) {retry : Nat} {id : Int} :
    (∃ random channel, cache.getRandomSatisfiedChannel regexp normalize group model retry filters
        random = .ok (some channel) ∧ channel.id = id) ↔
      ∃ channel ∈ selectable regexp normalize channels group model filters, channel.id = id ∧
        channel.getPriority =
          priorityOf (selectable regexp normalize channels group model filters) retry ∧
        (0 < channel.getWeight ∨
          ∀ other ∈ selectable regexp normalize channels group model filters,
            other.getPriority = channel.getPriority → other.getWeight = 0) := by
  have hids := fun id => @mem_satisfyingIDs regexp normalize old cache channels abilities group
    model filters hcache id
  have hrows : ∀ channel ∈ selectable regexp normalize channels group model filters,
      channels.find channel.id = some channel := fun channel hin =>
    Table.find_of_mem (selectable_row hin)
  unfold ChannelCache.getRandomSatisfiedChannel priorityOf
  generalize cache.satisfyingIDs regexp normalize group model filters = ids at *
  generalize selectable regexp normalize channels group model filters = rows at *
  have hrequire : ∀ i, ∀ channel ∈ rows, channel.id = i →
      cache.require i = .ok (keepPollingIndex old channel) := by
    rintro i channel hin rfl
    rw [require_eq_ok, initChannelCache_cached hcache, hrows channel hin, Option.map_some]
  have hall : ∀ i ∈ ids, ∃ channel, cache.require i = .ok channel := by
    intro i hi
    obtain ⟨channel, hin, hid⟩ := (hids i).mp hi
    exact ⟨_, hrequire i channel hin hid⟩
  obtain ⟨cached, hcached, hmem⟩ := mapM_eq_ok hall
  -- the cached channels are the rows, with their polling indexes kept
  have hcopies : ∀ channel, channel ∈ cached ↔ ∃ row ∈ rows, keepPollingIndex old row = channel := by
    intro channel
    rw [hmem]
    constructor
    · rintro ⟨i, hi, hreq⟩
      obtain ⟨row, hin, hid⟩ := (hids i).mp hi
      rw [hrequire i row hin hid] at hreq
      exact ⟨row, hin, Except.ok.inj hreq⟩
    · rintro ⟨row, hin, rfl⟩
      exact ⟨row.id, (hids _).mpr ⟨row, hin, rfl⟩, hrequire _ row hin rfl⟩
  have hpriorities : uniqueSorted (cached.map (·.getPriority)) =
      uniqueSorted (rows.map (·.getPriority)) := by
    refine uniqueSorted_congr fun p => ?_
    simp only [List.mem_map, hcopies]
    constructor
    · rintro ⟨_, ⟨row, hin, rfl⟩, rfl⟩
      exact ⟨row, hin, by simp⟩
    · rintro ⟨row, hin, rfl⟩
      exact ⟨_, ⟨row, hin, rfl⟩, by simp⟩
  rw [exists_comm]
  simp only [exists_and_right, choose_iff hcached, Returnable, hpriorities, hcopies]
  constructor
  · rintro ⟨_, ⟨⟨row, hin, rfl⟩, hpriority, hweight⟩, rfl⟩
    refine ⟨row, hin, by simp, by simpa using hpriority, ?_⟩
    refine hweight.imp (by simp) fun hnone other hother hsame => ?_
    simpa using hnone _ ⟨other, hother, rfl⟩ (by simpa using hsame)
  · rintro ⟨row, hin, rfl, hpriority, hweight⟩
    refine ⟨_, ⟨⟨row, hin, rfl⟩, by simpa using hpriority, ?_⟩, by simp⟩
    refine hweight.imp (by simp) ?_
    rintro hnone _ ⟨other, hother, rfl⟩ hsame
    simpa using hnone other hother (by simpa using hsame)

end Memory

/-! ### The two compared -/

/-- A channel without weight, beside one of its priority that has a weight. -/
def PassedOver (channels : List Channel) (id : Int) : Prop :=
  ∃ channel ∈ channels, channel.id = id ∧ channel.getWeight = 0 ∧
    ∃ other ∈ channels, other.getPriority = channel.getPriority ∧ 0 < other.getWeight

/-- After a sync, the memory cache returns what the database returns, except for the channels
it passes over. -/
theorem memory_returns_iff (regexp : Regexp) (normalize : String → String)
    {old cache : ChannelCache} {channels : ChannelTable} {abilities : AbilityTable}
    (hderived : Derived channels abilities)
    (hcache : initChannelCache old channels abilities.rows = some cache)
    (hgroups : ∀ channel ∈ channels.rows, '|' ∉ channel.group.toList)
    (group model : String) (hmodel : model ≠ "") (filters : List ChannelFilter)
    -- some channel is listed under the name itself, or none under the normalized one either
    (hname : matching regexp channels group model model filters ≠ [] ∨
      matching regexp channels group (normalize model) model filters = [])
    (retry : Nat) (id : Int) :
    (∃ random channel, cache.getRandomSatisfiedChannel regexp normalize group model retry filters
        random = .ok (some channel) ∧ channel.id = id) ↔
      (∃ random channel, getChannel regexp channels abilities group model retry filters random =
        .ok (some channel) ∧ channel.id = id) ∧
        ¬PassedOver (matching regexp channels group model model filters) id := by
  have hselectable : selectable regexp normalize channels group model filters =
      matching regexp channels group model model filters := by
    unfold selectable
    split
    · next hempty =>
      have hnil := List.isEmpty_iff.mp hempty
      rw [hname.resolve_left (not_not.mpr hnil), hnil]
    · rfl
  have hrow : ∀ channel ∈ matching regexp channels group model model filters,
      channels.find channel.id = some channel := fun channel hin =>
    Table.find_of_mem (mem_matching.mp hin).1
  rw [getRandomSatisfiedChannel_iff hcache, getChannel_iff hderived hgroups hmodel, hselectable]
  constructor
  · rintro ⟨channel, hin, hid, hpriority, hweight⟩
    refine ⟨⟨channel, hin, hid, hpriority⟩, ?_⟩
    rintro ⟨passed, hpassed, hpassedId, hnone, other, hother, hsame, hpos⟩
    have hthe : passed = channel := by
      have h := hrow passed hpassed
      rw [hpassedId, ← hid, hrow channel hin] at h
      exact (Option.some.inj h).symm
    subst hthe
    rcases hweight with hweight | hall
    · omega
    · have := hall other hother hsame
      omega
  · rintro ⟨⟨channel, hin, hid, hpriority⟩, hkept⟩
    refine ⟨channel, hin, hid, hpriority, ?_⟩
    by_contra hneither
    rw [not_or] at hneither
    obtain ⟨hnone, hsome⟩ := hneither
    push Not at hsome
    obtain ⟨other, hother, hsame, hpos⟩ := hsome
    exact hkept ⟨channel, hin, hid, by omega, other, hother, hsame, by omega⟩

/-! ### Two channels of one priority -/

def weighted (id : Int) (weight : Nat) : Channel :=
  { sampleChannel id "m" with weight := some weight }

def weightedAbility (id : Int) (weight : Nat) : Ability :=
  { sampleAbility id "m" with weight := weight }

def pairTable : ChannelTable := ⟨[weighted 1 0, weighted 2 5], by decide⟩

theorem no_abilities : (([] : List Ability).map Ability.key).Nodup := List.nodup_nil

def pairAbilities : AbilityTable :=
  (AbilityTable.addAbilities ⟨[], no_abilities⟩ (weighted 1 0)).addAbilities (weighted 2 5)

theorem pairAbilities_rows : pairAbilities.rows = [weightedAbility 2 5, weightedAbility 1 0] := by
  rfl

theorem pair_derived : Derived pairTable pairAbilities := by
  constructor
  · intro channel hchannel
    refine ⟨split channel.models ',', .inl rfl, fun ability => ?_⟩
    rw [pairAbilities_rows]
    rcases List.mem_pair.mp hchannel with rfl | rfl
    · have hown : (weighted 1 0).abilities (split (weighted 1 0).models ',') =
          [weightedAbility 1 0] := by rfl
      rw [hown, List.mem_singleton, List.mem_pair]
      constructor
      · rintro ⟨rfl | rfl, hid⟩
        · exact absurd hid (by decide)
        · rfl
      · rintro rfl
        exact ⟨.inr rfl, rfl⟩
    · have hown : (weighted 2 5).abilities (split (weighted 2 5).models ',') =
          [weightedAbility 2 5] := by rfl
      rw [hown, List.mem_singleton, List.mem_pair]
      constructor
      · rintro ⟨rfl | rfl, hid⟩
        · rfl
        · exact absurd hid (by decide)
      · rintro rfl
        exact ⟨.inl rfl, rfl⟩
  · intro ability hability
    rw [pairAbilities_rows] at hability
    rcases List.mem_pair.mp hability with rfl | rfl
    · exact ⟨weighted 2 5, by decide, rfl⟩
    · exact ⟨weighted 1 0, by decide, rfl⟩

theorem pair_matching : matching (fun _ => none) pairTable "default" "m" "m" [] =
    [weighted 1 0, weighted 2 5] := by
  decide

theorem pair_synced :
    ∃ cache, initChannelCache .empty pairTable pairAbilities.rows = some cache := by
  have h : ((ChannelIndex.ofAbilities pairAbilities.rows).addChannels pairTable.rows).isSome := by
    decide
  obtain ⟨index, hindex⟩ := Option.isSome_iff_exists.mp h
  exact ⟨_, Option.map_eq_some_iff.mpr ⟨index, hindex, rfl⟩⟩

/-- The memory cache returns the channel with the weight and not the one without. -/
theorem memory_returns_pair : ∃ cache, initChannelCache .empty pairTable pairAbilities.rows =
    some cache ∧ (∃ random channel, cache.getRandomSatisfiedChannel (fun _ => none) (fun m => m)
      "default" "m" 0 [] random = .ok (some channel) ∧ channel.id = 2) ∧
      ¬∃ random channel, cache.getRandomSatisfiedChannel (fun _ => none) (fun m => m)
        "default" "m" 0 [] random = .ok (some channel) ∧ channel.id = 1 := by
  obtain ⟨cache, hcache⟩ := pair_synced
  have hreturns := memory_returns_iff (fun _ => none) (fun m => m) pair_derived hcache (by decide)
    "default" "m" (by decide) [] (.inl (by rw [pair_matching]; simp)) 0
  refine ⟨cache, hcache, (hreturns 2).mpr ⟨⟨0, weighted 2 5, by rfl, rfl⟩, ?_⟩, ?_⟩
  · rw [pair_matching]
    rintro ⟨channel, hin, hid, hnone, -⟩
    rcases List.mem_pair.mp hin with rfl | rfl
    · exact absurd hid (by decide)
    · exact absurd hnone (by decide)
  · intro hfirst
    refine ((hreturns 1).mp hfirst).2 ?_
    rw [pair_matching]
    exact ⟨weighted 1 0, by simp, rfl, rfl, weighted 2 5, by simp, rfl, by decide⟩

/-- The database returns a channel without weight that the memory cache never returns. -/
theorem weightless_returned_by_database : ¬ ∀ (regexp : Regexp) (normalize : String → String)
    (old cache : ChannelCache) (channels : ChannelTable) (abilities : AbilityTable),
    Derived channels abilities → initChannelCache old channels abilities.rows = some cache →
    ∀ (group model : String) (retry : Nat) (filters : List ChannelFilter) (id : Int),
      (∃ random channel, cache.getRandomSatisfiedChannel regexp normalize group model retry filters
        random = .ok (some channel) ∧ channel.id = id) ↔
      ∃ random channel, getChannel regexp channels abilities group model retry filters random =
        .ok (some channel) ∧ channel.id = id := by
  intro hsame
  obtain ⟨cache, hcache⟩ := pair_synced
  obtain ⟨random, channel, hget, hid⟩ := (hsame (fun _ => none) (fun m => m) .empty cache pairTable
    pairAbilities pair_derived hcache "default" "m" 0 [] 1).mpr ⟨16, weighted 1 0, by rfl, rfl⟩
  obtain ⟨row, hin, hrow, -, hweight⟩ :=
    (getRandomSatisfiedChannel_iff hcache).mp ⟨random, channel, hget, hid⟩
  have hselectable : selectable (fun _ => none) (fun m => m) pairTable "default" "m" [] =
      [weighted 1 0, weighted 2 5] := by
    unfold selectable
    rw [pair_matching]
    rfl
  rw [hselectable] at hin hweight
  rcases List.mem_pair.mp hin with rfl | rfl
  · rcases hweight with hpos | hall
    · exact absurd hpos (by decide)
    · exact absurd (hall (weighted 2 5) (by simp) rfl) (by decide)
  · exact absurd hrow (by decide)

end JulongApi.Channels

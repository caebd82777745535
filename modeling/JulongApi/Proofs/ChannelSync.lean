/-
A sync between the two writes of a writer.

The groups of the index come from the abilities, and the channels are put into it from what was
read before.  A group is there when a channel that lists it has its abilities, and a channel has
them unless a writer has it in hand: what the writer has still to write gives them back.
-/
import JulongApi.Lib.Machine
import JulongApi.Lib.Pool
import JulongApi.ChannelSync
import JulongApi.Proofs.ChannelCache

namespace JulongApi.Channels

/-! ### When building the index panics -/

variable {channels : List Channel} {channel row : Channel} {op : AbilityWrite}

namespace ChannelIndex

variable {index index' : ChannelIndex} {group model : String} {id : Int}

theorem add_isSome : (index.add group model id).isSome = (index group).isSome := by
  unfold ChannelIndex.add
  cases index group <;> rfl

theorem add_groups (h : index.add group model id = some index') (g : String) :
    (index' g).isSome = (index g).isSome := by
  unfold ChannelIndex.add at h
  split at h
  · cases h
  · next models hmodels =>
    cases h
    dsimp only
    split
    · next hg =>
      rw [hg, hmodels]
      rfl
    · rfl

variable {entries : List (String × String)}

theorem addEntries_groups : ∀ {index index' : ChannelIndex},
    index.addEntries id entries = some index' → ∀ g, (index' g).isSome = (index g).isSome := by
  induction entries with
  | nil =>
    intro index index' h g
    cases h
    rfl
  | cons entry rest ih =>
    intro index index' h g
    obtain ⟨mid, hmid, hrest⟩ := Option.bind_eq_some_iff.mp h
    rw [ih hrest, add_groups hmid]

theorem addEntries_isSome_iff : ∀ {index : ChannelIndex},
    (index.addEntries id entries).isSome ↔ ∀ entry ∈ entries, (index entry.1).isSome := by
  induction entries with
  | nil =>
    intro index
    simp [addEntries]
  | cons entry rest ih =>
    intro index
    simp only [addEntries, List.forall_mem_cons]
    cases hadd : index.add entry.1 entry.2 id with
    | none =>
      have hnone : (index entry.1).isSome = false := by
        rw [← add_isSome, hadd]
        rfl
      simp [hnone]
    | some mid =>
      have hsome : (index entry.1).isSome = true := by
        rw [← add_isSome, hadd]
        rfl
      simp [hsome, ih, add_groups hadd]

/-- Every group a channel has an entry for is there, if the channel is enabled. -/
def Holds (index : ChannelIndex) (channel : Channel) : Prop :=
  channel.status = channelStatusEnabled → ∀ entry ∈ channel.entries, (index entry.1).isSome

theorem holds_congr (h : ∀ g, (index' g).isSome = (index g).isSome) (channel : Channel) :
    index'.Holds channel ↔ index.Holds channel := by
  simp only [Holds, h]

theorem addChannels_isSome_iff : ∀ {index : ChannelIndex},
    (index.addChannels channels).isSome ↔ ∀ channel ∈ channels, index.Holds channel := by
  induction channels with
  | nil =>
    intro index
    simp [addChannels]
  | cons channel rest ih =>
    intro index
    simp only [addChannels, List.forall_mem_cons]
    split
    · next hoff =>
      have hholds : index.Holds channel := fun hon => absurd hon hoff
      simp [ih, hholds]
    · next hon =>
      have hiff : index.Holds channel ↔ (index.addEntries channel.id channel.entries).isSome := by
        rw [addEntries_isSome_iff]
        exact ⟨fun h => h (not_not.mp hon), fun h _ => h⟩
      rw [hiff]
      cases hadd : index.addEntries channel.id channel.entries with
      | none => simp
      | some mid =>
        simp only [Option.bind_some, Option.isSome_some, true_and, ih]
        simp only [holds_congr (addEntries_groups hadd)]

end ChannelIndex

/-- A list of groups names every group that the channel is put under. -/
def Channel.Indexed (channel : Channel) (groups : List String) : Prop :=
  channel.status = channelStatusEnabled → channel.getModels ≠ [] →
    ∀ group ∈ split channel.group ',', group ∈ groups

theorem ofAbilities_isSome (abilities : List Ability) (group : String) :
    (ChannelIndex.ofAbilities abilities group).isSome ↔ group ∈ abilities.map (·.group) := by
  unfold ChannelIndex.ofAbilities
  split <;> simp_all

theorem initChannelCache_isSome_iff {old : ChannelCache} {channels : ChannelTable}
    {abilities : List Ability} : (initChannelCache old channels abilities).isSome ↔
      ∀ channel ∈ channels.rows, channel.Indexed (abilities.map (·.group)) := by
  unfold initChannelCache
  rw [Option.isSome_map, ChannelIndex.addChannels_isSome_iff]
  refine forall₂_congr fun channel _ => imp_congr_right fun _ => ?_
  simp only [ofAbilities_isSome, Channel.entries]
  constructor
  · intro h hmodels group hgroup
    obtain ⟨model, hmodel⟩ := List.exists_mem_of_ne_nil _ hmodels
    exact h (group, model) (List.mem_product.mpr ⟨hgroup, hmodel⟩)
  · intro h entry hentry
    obtain ⟨hgroup, hmodel⟩ := List.mem_product.mp hentry
    exact h (List.ne_nil_of_mem hmodel) entry.1 hgroup

/-! ### What the writes do to the groups of a channel -/

def AbilityTable.HasGroup (table : AbilityTable) (id : Int) (group : String) : Prop :=
  ∃ ability ∈ table.rows, ability.channelId = id ∧ ability.group = group

theorem createAll_hasGroup {abilities : List Ability} : ∀ {table : AbilityTable} {id : Int}
    {group : String}, (table.createAll abilities).HasGroup id group ↔
      table.HasGroup id group ∨ ∃ a ∈ abilities, a.channelId = id ∧ a.group = group := by
  induction abilities with
  | nil =>
    intro table id group
    simp [AbilityTable.createAll]
  | cons head rest ih =>
    intro table id group
    have hstep : table.createAll (head :: rest) =
        AbilityTable.createAll ((table.insert head).getD table) rest := rfl
    rw [hstep, ih]
    have hone : AbilityTable.HasGroup ((table.insert head).getD table) id group ↔
        table.HasGroup id group ∨ head.channelId = id ∧ head.group = group := by
      unfold Table.insert
      split
      · next htaken =>
        -- the row whose key is taken has the same channel and group
        simp only [Option.getD_none]
        constructor
        · exact .inl
        · rintro (h | ⟨hid, hgroup⟩)
          · exact h
          · obtain ⟨row, hrow, hkey⟩ := List.mem_map.mp htaken
            simp only [Ability.key, Prod.mk.injEq] at hkey
            exact ⟨row, hrow, hkey.2.2.trans hid, hkey.1.trans hgroup⟩
      · simp only [Option.getD_some, AbilityTable.HasGroup, List.exists_mem_cons_iff]
        exact or_comm
    rw [hone, List.exists_mem_cons_iff, or_assoc]

variable {table : AbilityTable} {models : List String} {α : Type} {size : Nat} {l : List α}

theorem delete_hasGroup {p : Int → Bool} {id : Int} {group : String} :
    AbilityTable.HasGroup (table.delete fun ability => p ability.channelId) id group ↔
      table.HasGroup id group ∧ p id = false := by
  constructor
  · rintro ⟨ability, hability, rfl, hgroup⟩
    obtain ⟨hrow, hkeep⟩ := List.mem_filter.mp hability
    exact ⟨⟨ability, hrow, rfl, hgroup⟩, by simpa using hkeep⟩
  · rintro ⟨⟨ability, hrow, rfl, hgroup⟩, hkeep⟩
    exact ⟨ability, List.mem_filter.mpr ⟨hrow, by simp [hkeep]⟩, rfl, hgroup⟩

theorem mem_collectAbilities : ∀ {pairs : List (String × String)}
    {abilitySet : List String} {ability : Ability},
    ability ∈ channel.collectAbilities abilitySet pairs →
      ∃ pair ∈ pairs, ability = channel.ability pair.1 pair.2 := by
  intro pairs
  induction pairs with
  | nil =>
    intro abilitySet ability h
    simp [Channel.collectAbilities] at h
  | cons head rest ih =>
    intro abilitySet ability h
    obtain ⟨model, group⟩ := head
    simp only [Channel.collectAbilities] at h
    split at h
    · obtain ⟨pair, hpair, heq⟩ := ih h
      exact ⟨pair, List.mem_cons_of_mem _ hpair, heq⟩
    · rcases List.mem_cons.mp h with rfl | h
      · exact ⟨(model, group), by simp, rfl⟩
      · obtain ⟨pair, hpair, heq⟩ := ih h
        exact ⟨pair, List.mem_cons_of_mem _ hpair, heq⟩

theorem collectAbilities_groups {model : String} {more : List (String × String)} :
    ∀ {groups : List String} {abilitySet : List String} {group : String}, group ∈ groups →
      group ++ "|" ++ model ∉ abilitySet →
      channel.ability model group ∈
        channel.collectAbilities abilitySet (groups.map (fun g => (model, g)) ++ more) := by
  intro groups
  induction groups with
  | nil =>
    intro abilitySet group h
    cases h
  | cons head rest ih =>
    intro abilitySet group h hfresh
    simp only [List.map_cons, List.cons_append, Channel.collectAbilities]
    by_cases heq : head = group
    · subst heq
      rw [if_neg hfresh]
      exact List.mem_cons_self
    · have hrest : group ∈ rest := by
        rcases List.mem_cons.mp h with rfl | h
        · exact absurd rfl heq
        · exact h
      split
      · exact ih hrest hfresh
      · refine List.mem_cons_of_mem _ (ih hrest ?_)
        rw [List.mem_cons, not_or]
        refine ⟨fun hkey => heq ?_, hfresh⟩
        have hlists := congrArg String.toList hkey
        simp only [String.toList_append] at hlists
        have htrim := List.append_cancel_right (List.append_cancel_right hlists)
        exact (String.toList_inj.mp htrim).symm

theorem abilities_hasGroup (hmodels : models ≠ []) {group : String}
    (hgroup : group ∈ split channel.group ',') :
    ∃ a ∈ channel.abilities models, a.channelId = channel.id ∧ a.group = group := by
  obtain ⟨model, rest, rfl⟩ := List.exists_cons_of_ne_nil hmodels
  refine ⟨channel.ability model group, ?_, rfl, rfl⟩
  unfold Channel.abilities
  have hproduct : (model :: rest).product (split channel.group ',') =
      (split channel.group ',').map (fun g => (model, g)) ++
        rest.product (split channel.group ',') := rfl
  rw [hproduct]
  exact collectAbilities_groups hgroup List.not_mem_nil

theorem abilities_id {ability : Ability} (h : ability ∈ channel.abilities models) :
    ability.channelId = channel.id := by
  obtain ⟨pair, -, rfl⟩ := mem_collectAbilities h
  rfl

/-- What a write makes of the groups of the channels. -/
def AbilityWrite.after (has : Int → String → Prop) : AbilityWrite → Int → String → Prop
  | .create new, id, group => has id group ∨ ∃ a ∈ new, a.channelId = id ∧ a.group = group
  | .deleteFor ids, id, group => has id group ∧ id ∉ ids
  | .replace channel, id, group =>
    id ≠ channel.id ∧ has id group ∨
      id = channel.id ∧ ∃ a ∈ channel.abilities channel.getModels, a.group = group
  | .editTag _ _, id, group => has id group

def AbilityWrite.ids : AbilityWrite → List Int
  | .create new => new.map (·.channelId)
  | .deleteFor ids => ids
  | .replace channel => [channel.id]
  | .editTag _ _ => []

theorem apply_hasGroup (op : AbilityWrite) (id : Int) (group : String) :
    (op.apply table).HasGroup id group ↔ op.after table.HasGroup id group := by
  cases op with
  | create new => exact createAll_hasGroup
  | deleteFor ids =>
    have h := @delete_hasGroup table (fun i => decide (i ∈ ids)) id group
    simpa [AbilityWrite.apply, AbilityWrite.after] using h
  | replace channel =>
    simp only [AbilityWrite.apply, AbilityTable.updateAbilities, createAll_hasGroup,
      AbilityWrite.after]
    have hdelete := @delete_hasGroup table (fun i => decide (i = channel.id)) id group
    have hleft : (AbilityTable.deleteAbilities table channel.id).HasGroup id group ↔
        id ≠ channel.id ∧ table.HasGroup id group := by
      rw [AbilityTable.deleteAbilities, hdelete, and_comm]
      simp
    rw [hleft]
    refine or_congr_right ⟨?_, ?_⟩
    · rintro ⟨a, ha, rfl, hgroup⟩
      exact ⟨abilities_id ha, a, ha, hgroup⟩
    · rintro ⟨rfl, a, ha, hgroup⟩
      exact ⟨a, ha, abilities_id ha, hgroup⟩
  | editTag tag edit =>
    simp only [AbilityWrite.after, AbilityTable.HasGroup]
    constructor
    · rintro ⟨a, ha, hid, hgroup⟩
      obtain ⟨before, hbefore, rfl⟩ := List.mem_map.mp ha
      refine ⟨before, hbefore, ?_⟩
      split at hid <;> simp_all
    · rintro ⟨a, ha, hid, hgroup⟩
      refine ⟨_, List.mem_map_of_mem ha, ?_⟩
      split <;> exact ⟨hid, hgroup⟩

namespace AbilityWrite

variable {has has' : Int → String → Prop} {id : Int} {group : String}

theorem after_of_notMem (h : id ∉ op.ids) : op.after has id group ↔ has id group := by
  cases op with
  | create new =>
    refine ⟨?_, .inl⟩
    rintro (hhas | ⟨a, ha, rfl, -⟩)
    · exact hhas
    · exact absurd (List.mem_map_of_mem ha) h
  | deleteFor ids => exact ⟨And.left, fun hhas => ⟨hhas, h⟩⟩
  | replace channel =>
    have hne : id ≠ channel.id := by simpa [ids] using h
    simp [after, hne]
  | editTag tag edit => exact Iff.rfl

theorem after_congr (op : AbilityWrite) (h : has id group ↔ has' id group) :
    op.after has id group ↔ op.after has' id group := by
  cases op <;> simp only [after, h]

def allAfter (has : Int → String → Prop) (ops : List AbilityWrite) : Int → String → Prop :=
  ops.foldl (fun has op => op.after has) has

theorem allAfter_congr (ops : List AbilityWrite) : ∀ {has has' : Int → String → Prop},
    (has id group ↔ has' id group) → (allAfter has ops id group ↔ allAfter has' ops id group) := by
  induction ops with
  | nil =>
    intro has has' h
    exact h
  | cons op rest ih =>
    intro has has' h
    exact ih (op.after_congr h)

theorem allAfter_append (first second : List AbilityWrite) :
    allAfter has (first ++ second) = allAfter (allAfter has first) second := by
  simp [allAfter]

theorem allAfter_creates (chunks : List (List Ability)) : ∀ {has : Int → String → Prop},
    (allAfter has (chunks.map .create) id group ↔
      has id group ∨ ∃ new ∈ chunks, ∃ a ∈ new, a.channelId = id ∧ a.group = group) := by
  induction chunks with
  | nil =>
    intro has
    simp [allAfter]
  | cons new rest ih =>
    intro has
    have hstep : allAfter has ((new :: rest).map .create) =
        allAfter ((create new).after has) (rest.map .create) := rfl
    rw [hstep, ih]
    simp only [after, List.exists_mem_cons_iff, or_assoc]

theorem allAfter_replaces : ∀ {has : Int → String → Prop},
    (∀ c ∈ channels, c.id = id → ∃ a ∈ c.abilities c.getModels, a.group = group) →
    (has id group ∨ ∃ c ∈ channels, c.id = id) →
    allAfter has (channels.map .replace) id group := by
  induction channels with
  | nil =>
    intro has _ h
    rcases h with h | ⟨c, hc, -⟩
    · exact h
    · cases hc
  | cons head rest ih =>
    intro has hall h
    refine ih (fun c hc => hall c (List.mem_cons_of_mem _ hc)) ?_
    by_cases hid : id = head.id
    · exact .inl (.inr ⟨hid, hall head (by simp) hid.symm⟩)
    · rcases h with h | ⟨c, hc, hcid⟩
      · exact .inl (.inl ⟨hid, h⟩)
      · rcases List.mem_cons.mp hc with rfl | hc
        · exact absurd hcid.symm hid
        · exact .inr ⟨c, hc, hcid⟩

end AbilityWrite

theorem mem_chunk (hsize : 0 < size) {a : α} (h : a ∈ l) : ∃ part ∈ chunk size l, a ∈ part := by
  obtain ⟨i, hi, rfl⟩ := List.mem_iff_getElem.mp h
  refine ⟨(l.drop (i / size * size)).take size, List.mem_map.mpr ⟨i / size, ?_, rfl⟩, ?_⟩
  · refine List.mem_range.mpr ((Nat.div_lt_iff_lt_mul hsize).mpr ?_)
    have := Nat.lt_div_mul_add hsize (a := l.length + size - 1)
    omega
  · have hmod : i % size < size := Nat.mod_lt i hsize
    have hsplit : i / size * size + i % size = i := Nat.div_add_mod' i size
    refine List.mem_iff_getElem?.mpr ⟨i % size, ?_⟩
    rw [List.getElem?_take_of_lt hmod, List.getElem?_drop, hsplit, List.getElem?_eq_getElem hi]

theorem chunk_subset {part : List α} (h : part ∈ chunk size l) : part ⊆ l := by
  obtain ⟨i, -, rfl⟩ := List.mem_map.mp h
  exact fun a ha => List.mem_of_mem_drop (List.mem_of_mem_take ha)

/-! ### Channels with their abilities -/

/-- Every group of a channel that lists a model has an ability of it. -/
def Channel.Covered (channel : Channel) (has : Int → String → Prop) : Prop :=
  channel.getModels ≠ [] → ∀ group ∈ split channel.group ',', has channel.id group

theorem Channel.Covered.congr {has has' : Int → String → Prop} (h : channel.Covered has)
    (hsame : ∀ group, has' channel.id group ↔ has channel.id group) : channel.Covered has' :=
  fun hmodels group hgroup => (hsame group).mpr (h hmodels group hgroup)

open AbilityWrite (allAfter allAfter_congr allAfter_append allAfter_creates allAfter_replaces)

theorem split_ne_nil (text : String) (sep : Char) : split text sep ≠ [] := by
  simp [split, List.splitOn_ne_nil]

theorem addWrites_groups {group : String} (hgroup : group ∈ split channel.group ',') :
    ∃ new ∈ chunk 50 (channel.abilities (split channel.models ',')), ∃ a ∈ new,
      a.channelId = channel.id ∧ a.group = group := by
  obtain ⟨a, ha, hid, hg⟩ := abilities_hasGroup (split_ne_nil channel.models ',') hgroup
  obtain ⟨new, hnew, hmem⟩ := mem_chunk (by decide : 0 < 50) ha
  exact ⟨new, hnew, a, hmem, hid, hg⟩

theorem covered_addWrites (channel : Channel) (has : Int → String → Prop) :
    channel.Covered (allAfter has channel.addWrites) := by
  intro _ group hgroup
  exact (allAfter_creates _).mpr (.inr (addWrites_groups hgroup))

theorem addWrites_ids (h : op ∈ channel.addWrites) : op.ids ⊆ [channel.id] := by
  obtain ⟨new, hnew, rfl⟩ := List.mem_map.mp h
  intro id hid
  obtain ⟨a, ha, rfl⟩ := List.mem_map.mp hid
  rw [abilities_id (chunk_subset hnew ha)]
  exact List.mem_singleton_self _

theorem covered_replaces (hrow : row ∈ channels) (hone : ∀ c ∈ channels, c.id = row.id → c = row)
    (has : Int → String → Prop) : row.Covered (allAfter has (channels.map .replace)) := by
  intro hmodels group hgroup
  refine allAfter_replaces (fun c hc hid => ?_) (.inr ⟨row, hrow, rfl⟩)
  obtain rfl := hone c hc hid
  obtain ⟨a, ha, -, hg⟩ := abilities_hasGroup hmodels hgroup
  exact ⟨a, ha, hg⟩

theorem allAfter_fixPart {part : List Channel} {has : Int → String → Prop} {id : Int}
    {group : String} (hall : ∀ c ∈ part, c.id = id → group ∈ split c.group ',')
    (h : has id group ∨ ∃ c ∈ part, c.id = id) :
    allAfter has (.deleteFor (part.map (·.id)) :: part.flatMap (·.addWrites)) id group := by
  have hwrites : part.flatMap (·.addWrites) =
      (part.flatMap fun c => chunk 50 (c.abilities (split c.models ','))).map .create := by
    rw [List.map_flatMap]
    rfl
  have hstep : allAfter has (.deleteFor (part.map (·.id)) :: part.flatMap (·.addWrites)) =
      allAfter ((AbilityWrite.deleteFor (part.map (·.id))).after has)
        (part.flatMap (·.addWrites)) := rfl
  rw [hstep, hwrites, allAfter_creates]
  by_cases hin : ∃ c ∈ part, c.id = id
  · obtain ⟨c, hc, rfl⟩ := hin
    obtain ⟨new, hnew, hfound⟩ := addWrites_groups (hall c hc rfl)
    exact .inr ⟨new, List.mem_flatMap.mpr ⟨c, hc, hnew⟩, hfound⟩
  · have hhas : has id group := h.resolve_right hin
    refine .inl ⟨hhas, fun hmem => hin ?_⟩
    obtain ⟨c, hc, hid⟩ := List.mem_map.mp hmem
    exact ⟨c, hc, hid⟩

theorem allAfter_fixParts (parts : List (List Channel)) : ∀ {has : Int → String → Prop} {id : Int}
    {group : String}, (∀ part ∈ parts, ∀ c ∈ part, c.id = id → group ∈ split c.group ',') →
    (has id group ∨ ∃ part ∈ parts, ∃ c ∈ part, c.id = id) →
    allAfter has (parts.flatMap fun part =>
      .deleteFor (part.map (·.id)) :: part.flatMap (·.addWrites)) id group := by
  induction parts with
  | nil =>
    intro has id group _ h
    rcases h with h | ⟨part, hpart, -⟩
    · exact h
    · cases hpart
  | cons part rest ih =>
    intro has id group hall h
    rw [List.flatMap_cons, allAfter_append]
    refine ih (fun p hp => hall p (List.mem_cons_of_mem _ hp)) ?_
    have hfirst := @allAfter_fixPart part has id group (hall part (by simp))
    rcases h with h | ⟨p, hp, hfound⟩
    · exact .inl (hfirst (.inl h))
    · rcases List.mem_cons.mp hp with rfl | hp
      · exact .inl (hfirst (.inr hfound))
      · exact .inr ⟨p, hp, hfound⟩

theorem covered_fixWrites (hrow : row ∈ channels) (hone : ∀ c ∈ channels, c.id = row.id → c = row)
    (has : Int → String → Prop) : row.Covered (allAfter has (fixWrites channels)) := by
  intro _ group hgroup
  obtain ⟨part, hpart, hmem⟩ := mem_chunk (by decide : 0 < 50) hrow
  refine allAfter_fixParts _ (fun part hpart c hc hid => ?_) (.inr ⟨part, hpart, row, hmem, rfl⟩)
  obtain rfl := hone c (chunk_subset hpart hc) hid
  exact hgroup

theorem fixWrites_ids (h : op ∈ fixWrites channels) : op.ids ⊆ channels.map (·.id) := by
  obtain ⟨part, hpart, hop⟩ := List.mem_flatMap.mp h
  have hsub : part.map (·.id) ⊆ channels.map (·.id) := List.map_subset _ (chunk_subset hpart)
  rcases List.mem_cons.mp hop with rfl | hop
  · exact hsub
  · obtain ⟨c, hc, hop⟩ := List.mem_flatMap.mp hop
    intro id hid
    obtain rfl := List.mem_singleton.mp (addWrites_ids hop hid)
    exact hsub (List.mem_map_of_mem hc)

/-! ### The invariant -/

/-- The writes a writer has still to do cover the channels it has in hand. -/
def Writer.Sound (channels : ChannelTable) (has : Int → String → Prop) (w : Writer) : Prop :=
  match w.stage with
  | .reload channel => w.ids = [channel.id]
  | .readTag tag => ∀ row ∈ channels.rows, row.id ∈ w.ids → row.tag = some tag
  | .readAll => True
  | .write ops =>
    (∀ op ∈ ops, op.ids ⊆ w.ids) ∧
      ∀ row ∈ channels.rows, row.id ∈ w.ids → row.Covered (allAfter has ops)

def SyncSystem.Settled (s : SyncSystem) (row : Channel) : Prop := ∀ w ∈ s.writers, row.id ∉ w.ids

structure SyncSystem.Inv (s : SyncSystem) : Prop where
  /-- A channel that no writer has in hand has its abilities. -/
  settled : ∀ row ∈ s.channels.rows, s.Settled row → row.Covered s.abilities.HasGroup
  /-- No two writers have one channel in hand. -/
  apart : ∀ id, Pool.AtMostOne (fun w : Writer => id ∈ w.ids) s.writers
  sound : ∀ w ∈ s.writers, w.Sound s.channels s.abilities.HasGroup

theorem Writer.Sound.frame {w : Writer} {channels channels' : ChannelTable}
    {has has' : Int → String → Prop} (h : w.Sound channels has)
    (hrows : ∀ row ∈ channels'.rows, row.id ∈ w.ids → row ∈ channels.rows)
    (hsame : ∀ row ∈ channels'.rows, row.id ∈ w.ids → ∀ group,
      has' row.id group ↔ has row.id group) : w.Sound channels' has' := by
  unfold Writer.Sound at h ⊢
  split
  · next hstage =>
    rw [hstage] at h
    exact h
  · next hstage =>
    rw [hstage] at h
    exact fun row hrow hid => h row (hrows row hrow hid) hid
  · trivial
  · next ops hstage =>
    rw [hstage] at h
    refine ⟨h.1, fun row hrow hid => (h.2 row (hrows row hrow hid) hid).congr fun group => ?_⟩
    exact allAfter_congr ops (hsame row hrow hid group)

/-! ### Steps that take turns -/

/-- No writer has one of the channels in hand, save the writer at `slot`. -/
def SyncSystem.FreeBut (s : SyncSystem) (slot : Nat) (ids : List Int) : Prop :=
  ∀ (j : Nat) (w : Writer), j ≠ slot → s.writers[j]? = some w → List.Disjoint ids w.ids

def SyncSystem.Free (s : SyncSystem) (ids : List Int) : Prop :=
  ∀ w ∈ s.writers, List.Disjoint ids w.ids

/-- A writer takes no channel in hand that another has; and when a sync reads the abilities, each
group of an enabled channel it has read is listed by a channel that no writer has in hand. -/
def SyncSystem.Orderly (s : SyncSystem) : SyncAct → Prop
  | .insert channel | .update channel => s.Free [channel.id]
  | .editByTag tag _ => s.Free ((s.channels.tagged tag).map (·.id))
  | .fixAbility => s.Free (s.channels.rows.map (·.id))
  | .go slot => ∀ w, s.writers[slot]? = some w →
      match w.stage with
      | .readTag tag => s.FreeBut slot ((s.channels.tagged tag).map (·.id))
      | .readAll => s.FreeBut slot (s.channels.rows.map (·.id))
      | _ => True
  | .readChannels => True
  | .readAbilities slot => ∀ channels, s.reading[slot]? = some channels →
      ∀ channel ∈ channels.rows, channel.status = channelStatusEnabled → channel.getModels ≠ [] →
        ∀ group ∈ split channel.group ',', ∃ row ∈ s.channels.rows,
          s.Settled row ∧ row.getModels ≠ [] ∧ group ∈ split row.group ','

section Steps

variable {rawArray : RawArray} {s s' : SyncSystem} {w w' : Writer}

theorem inv_start (hinv : s.Inv) (hwriters : s'.writers = s.writers ++ [w]) (hfree : s.Free w.ids)
    (hrows : ∀ row ∈ s'.channels.rows, row.id ∉ w.ids → row ∈ s.channels.rows)
    (hsame : ∀ row ∈ s'.channels.rows, row.id ∉ w.ids → ∀ group,
      s'.abilities.HasGroup row.id group ↔ s.abilities.HasGroup row.id group)
    (hsound : w.Sound s'.channels s'.abilities.HasGroup) : s'.Inv where
  settled row hrow hsettled := by
    have hout : row.id ∉ w.ids := hsettled w (by simp [hwriters])
    have hbefore : s.Settled row := fun w' hw' => hsettled w' (by simp [hwriters, hw'])
    exact (hinv.settled row (hrows row hrow hout) hbefore).congr (hsame row hrow hout)
  apart id := by
    rw [hwriters]
    exact (hinv.apart id).push fun hid v hv hid' => hfree v hv hid hid'
  sound v hv := by
    rw [hwriters] at hv
    rcases List.mem_append.mp hv with hv | hv
    · have hdisjoint : ∀ id, id ∈ v.ids → id ∉ w.ids := fun id hid hid' => hfree v hv hid' hid
      exact (hinv.sound v hv).frame (fun row hrow hid => hrows row hrow (hdisjoint row.id hid))
        fun row hrow hid => hsame row hrow (hdisjoint row.id hid)
    · obtain rfl := List.mem_singleton.mp hv
      exact hsound

variable {slot : Nat} {tag : String}

theorem inv_go (hinv : s.Inv) (hw : s.writers[slot]? = some w)
    (hwriters : s'.writers = s.writers.set slot w') (hchannels : s'.channels = s.channels)
    (hids : w.ids ⊆ w'.ids) (hfree : s.FreeBut slot w'.ids) (hsame : ∀ id, id ∉ w.ids → ∀ group,
      s'.abilities.HasGroup id group ↔ s.abilities.HasGroup id group)
    (hsound : w'.Sound s'.channels s'.abilities.HasGroup) : s'.Inv where
  settled row hrow hsettled := by
    have hnew : w' ∈ s'.writers := by
      rw [hwriters]
      exact List.mem_of_getElem? (List.getElem?_set_self (List.getElem?_eq_some_iff.mp hw).1)
    have hout : row.id ∉ w.ids := fun hid => hsettled w' hnew (hids hid)
    have hbefore : s.Settled row := by
      intro v hv hid
      obtain ⟨j, hj⟩ := List.mem_iff_getElem?.mp hv
      by_cases hslot : j = slot
      · subst hslot
        cases hj.symm.trans hw
        exact hout hid
      · refine hsettled v ?_ hid
        rw [hwriters]
        refine List.mem_of_getElem? (i := j) ?_
        rw [List.getElem?_set_ne (Ne.symm hslot), hj]
    rw [hchannels] at hrow
    exact (hinv.settled row hrow hbefore).congr (hsame row.id hout)
  apart id := by
    rw [hwriters]
    refine (hinv.apart id).set hw fun hid => ?_
    by_cases hold : id ∈ w.ids
    · exact .inl hold
    · refine .inr fun v hv hid' => ?_
      obtain ⟨j, hj⟩ := List.mem_iff_getElem?.mp hv
      by_cases hslot : j = slot
      · subst hslot
        cases hj.symm.trans hw
        exact hold hid'
      · exact hfree j v hslot hj hid hid'
  sound v hv := by
    rw [hwriters] at hv
    rcases Pool.mem_set_cases hv with rfl | ⟨j, hslot, hj⟩
    · exact hsound
    · have hmem := List.mem_of_getElem? hj
      refine (hinv.sound v hmem).frame (fun row hrow _ => hchannels ▸ hrow) fun row _ hid => ?_
      exact hsame row.id fun hid' => hfree j v hslot hj (hids hid') hid

theorem inv_end (hinv : s.Inv) (hw : s.writers[slot]? = some w) (hstage : w.stage = .write []) :
    SyncSystem.Inv { s with writers := s.writers.eraseIdx slot } where
  settled row hrow hsettled := by
    by_cases hid : row.id ∈ w.ids
    · have hsound := hinv.sound w (List.mem_of_getElem? hw)
      unfold Writer.Sound at hsound
      rw [hstage] at hsound
      exact hsound.2 row hrow hid
    · refine hinv.settled row hrow fun v hv hid' => ?_
      obtain ⟨j, hj⟩ := List.mem_iff_getElem?.mp hv
      by_cases hslot : j = slot
      · subst hslot
        cases hj.symm.trans hw
        exact hid hid'
      · exact hsettled v (List.mem_eraseIdx_iff_getElem?.mpr ⟨j, hslot, hj⟩) hid'
  apart id := (hinv.apart id).eraseIdx slot
  sound v hv := hinv.sound v (List.mem_of_mem_eraseIdx hv)

theorem row_unique {channels : ChannelTable} {c : Channel} (hc : c ∈ channels.rows)
    (hrow : row ∈ channels.rows) (hid : c.id = row.id) : c = row := by
  have hfind : channels.find c.id = some c := Table.find_of_mem hc
  rw [hid, Table.find_of_mem hrow] at hfind
  exact (Option.some.inj hfind).symm

theorem read_sound (hsound : w.Sound s.channels s.abilities.HasGroup) :
    (w.read s.channels w.stage).Sound s.channels s.abilities.HasGroup := by
  unfold Writer.Sound at hsound
  cases hstage : w.stage with
  | reload channel =>
    rw [hstage] at hsound
    have hid : ((s.channels.find channel.id).getD channel).id = channel.id := by
      cases hfind : s.channels.find channel.id with
      | none => rfl
      | some row => exact Table.key_of_find hfind
    refine ⟨?_, fun row hrow hin => ?_⟩
    · intro op hop
      obtain rfl := List.mem_singleton.mp hop
      change [((s.channels.find channel.id).getD channel).id] ⊆ w.ids
      rw [hid, hsound]
      exact List.Subset.refl _
    · change row.id ∈ w.ids at hin
      rw [hsound, List.mem_singleton] at hin
      have hfind : s.channels.find channel.id = some row := hin ▸ Table.find_of_mem hrow
      rw [hfind]
      exact covered_replaces (List.mem_singleton_self row)
        (fun c hc _ => List.mem_singleton.mp hc) _
  | readTag tag =>
    rw [hstage] at hsound
    refine ⟨?_, fun row hrow hin => ?_⟩
    · intro op hop
      obtain ⟨c, hc, rfl⟩ := List.mem_map.mp hop
      intro id hid
      obtain rfl := List.mem_singleton.mp hid
      exact List.mem_append_right _ (List.mem_map_of_mem hc)
    · have htag : row.tag = some tag := by
        rcases List.mem_append.mp hin with hold | hnew
        · exact hsound row hrow hold
        · obtain ⟨c, hc, hid⟩ := List.mem_map.mp hnew
          obtain ⟨hmem, htag⟩ := List.mem_filter.mp hc
          obtain rfl := row_unique hmem hrow hid
          exact of_decide_eq_true htag
      have hmem : row ∈ s.channels.tagged tag :=
        List.mem_filter.mpr ⟨hrow, decide_eq_true htag⟩
      exact covered_replaces hmem
        (fun c hc hid => row_unique (List.mem_of_mem_filter hc) hrow hid) _
  | readAll =>
    refine ⟨?_, fun row hrow _ => ?_⟩
    · intro op hop
      exact List.subset_append_of_subset_right _ (fixWrites_ids hop)
    · exact covered_fixWrites hrow (fun c hc hid => row_unique hc hrow hid) _
  | write ops =>
    rw [hstage] at hsound
    unfold Writer.Sound Writer.read
    rw [hstage]
    exact hsound

theorem inv_go_step (hinv : s.Inv) (hw : s.writers[slot]? = some w)
    (horderly : s.Orderly (.go slot)) : (s.go slot w).Inv := by
  have hsound := hinv.sound w (List.mem_of_getElem? hw)
  have hothers : s.FreeBut slot w.ids := fun j v hj hv id hid hid' =>
    hj ((hinv.apart id j slot v w hv hw hid' hid))
  have hread := read_sound hsound
  unfold SyncSystem.go
  cases hstage : w.stage with
  | reload channel =>
    rw [hstage] at hread
    exact inv_go hinv hw rfl rfl (List.Subset.refl _) hothers (fun _ _ _ => Iff.rfl) hread
  | readTag tag =>
    rw [hstage] at hread
    have hfree := horderly w hw
    rw [hstage] at hfree
    refine inv_go hinv hw rfl rfl (List.subset_append_left _ _) ?_ (fun _ _ _ => Iff.rfl) hread
    intro j v hj hv id hid hid'
    rcases List.mem_append.mp hid with hold | hnew
    · exact hothers j v hj hv hold hid'
    · exact hfree j v hj hv hnew hid'
  | readAll =>
    rw [hstage] at hread
    have hfree := horderly w hw
    rw [hstage] at hfree
    refine inv_go hinv hw rfl rfl (List.subset_append_left _ _) ?_ (fun _ _ _ => Iff.rfl) hread
    intro j v hj hv id hid hid'
    rcases List.mem_append.mp hid with hold | hnew
    · exact hothers j v hj hv hold hid'
    · exact hfree j v hj hv hnew hid'
  | write ops =>
    cases ops with
    | nil => exact inv_end hinv hw hstage
    | cons op rest =>
      unfold Writer.Sound at hsound
      rw [hstage] at hsound
      obtain ⟨hids, hcovered⟩ := hsound
      refine inv_go hinv hw rfl rfl (List.Subset.refl _) hothers ?_ ?_
      · intro id hid group
        have hout : id ∉ op.ids := fun h => hid (hids op (by simp) h)
        exact (apply_hasGroup op id group).trans (AbilityWrite.after_of_notMem hout)
      · refine ⟨fun other hother => hids other (by simp [hother]), fun row hrow hin => ?_⟩
        refine (hcovered row hrow hin).congr fun group => ?_
        exact allAfter_congr rest (apply_hasGroup op row.id group)

theorem tag_editByTag (edit : TagEdit) (h : row.tag = some tag) :
    (row.updates (edit.updateData tag)).tag = some (edit.updatedTag tag) := by
  simp only [Channel.updates, TagEdit.updateData, TagEdit.updatedTag, h]
  cases edit.newTag with
  | none => rfl
  | some newTag =>
    by_cases hsame : newTag = tag
    · simp [hsame]
    · simp [hsame]

variable {edit : TagEdit} {a : SyncAct}

theorem covered_editByTag {has : Int → String → Prop} (hkeep : edit.shouldReCreateAbilities = false)
    (h : row.Covered has) : (row.updates (edit.updateData tag)).Covered has := by
  have hempty : edit.models.getD "" = "" ∧ edit.group.getD "" = "" := by
    simpa [TagEdit.shouldReCreateAbilities] using hkeep
  have hmodels : (row.updates (edit.updateData tag)).models = row.models := if_pos hempty.1
  have hgroup : (row.updates (edit.updateData tag)).group = row.group := if_pos hempty.2
  unfold Channel.Covered Channel.getModels at h ⊢
  rw [hmodels, hgroup]
  exact h

theorem inv_editByTag (hinv : s.Inv) (hfree : s.Free ((s.channels.tagged tag).map (·.id)))
    (h : s.step rawArray (.editByTag tag edit) = some s') : s'.Inv := by
  cases h
  have hold : ∀ row ∈ (s.channels.editByTag tag edit).rows, ∃ before ∈ s.channels.rows,
      before.id = row.id ∧ row = if before.tag = some tag then
        before.updates (edit.updateData tag) else before := by
    intro row hrow
    obtain ⟨before, hbefore, rfl⟩ := List.mem_map.mp hrow
    refine ⟨before, hbefore, ?_, rfl⟩
    split <;> rfl
  have htagged : ∀ row ∈ (s.channels.editByTag tag edit).rows,
      row.id ∈ (s.channels.tagged tag).map (·.id) → ∃ before ∈ s.channels.tagged tag,
        row = before.updates (edit.updateData tag) := by
    intro row hrow hid
    obtain ⟨before, hbefore, hsame, heq⟩ := hold row hrow
    obtain ⟨c, hc, hcid⟩ := List.mem_map.mp hid
    obtain rfl := row_unique (List.mem_of_mem_filter hc) hbefore (hcid.trans hsame.symm)
    have htag := of_decide_eq_true (List.mem_filter.mp hc).2
    rw [if_pos htag] at heq
    exact ⟨c, hc, heq⟩
  refine inv_start (w := ⟨(s.channels.tagged tag).map (·.id), _⟩) hinv rfl hfree ?_
    (fun _ _ _ _ => Iff.rfl) ?_
  · intro row hrow hout
    obtain ⟨before, hbefore, hsame, heq⟩ := hold row hrow
    split at heq
    · next htag =>
      refine absurd (List.mem_map.mpr ⟨before, ?_, hsame⟩) hout
      exact List.mem_filter.mpr ⟨hbefore, decide_eq_true htag⟩
    · exact heq ▸ hbefore
  · unfold Writer.Sound
    by_cases hrecreate : edit.shouldReCreateAbilities = true
    · simp only [hrecreate, if_true]
      intro row hrow hid
      obtain ⟨before, hbefore, rfl⟩ := htagged row hrow hid
      exact tag_editByTag edit (of_decide_eq_true (List.mem_filter.mp hbefore).2)
    · simp only [hrecreate]
      refine ⟨fun op hop => ?_, fun row hrow hid => ?_⟩
      · obtain rfl := List.mem_singleton.mp hop
        exact List.nil_subset _
      · obtain ⟨before, hbefore, rfl⟩ := htagged row hrow hid
        have hsettled : s.Settled before := fun w hw hin =>
          hfree w hw (List.mem_map_of_mem hbefore) hin
        exact covered_editByTag (by simpa using hrecreate)
          (hinv.settled before (List.mem_of_mem_filter hbefore) hsettled)

theorem inv_step (hinv : s.Inv) (horderly : s.Orderly a) (h : s.step rawArray a = some s') :
    s'.Inv := by
  cases a with
  | insert channel =>
    obtain ⟨channels, hinsert, rfl⟩ := Option.map_eq_some_iff.mp h
    refine inv_start (w := ⟨[channel.id], _⟩) hinv rfl horderly ?_ (fun _ _ _ _ => Iff.rfl) ?_
    · intro row hrow hout
      rcases Table.mem_insert hinsert hrow with rfl | hold
      · exact absurd (List.mem_singleton_self _) hout
      · exact hold
    · refine ⟨fun op hop => addWrites_ids hop, fun row hrow hid => ?_⟩
      have hmem : channel ∈ channels.rows := by simp [Table.rows_of_insert hinsert]
      obtain rfl := row_unique hrow hmem (List.mem_singleton.mp hid)
      exact covered_addWrites row _
  | update channel =>
    cases h
    refine inv_start (w := ⟨[channel.id], .reload channel⟩) hinv rfl horderly ?_
      (fun _ _ _ _ => Iff.rfl) rfl
    intro row hrow hout
    unfold SyncSystem.start at hrow
    dsimp only at hrow
    split at hrow
    · exact hrow
    · next before hbefore =>
      rcases Table.mem_save hrow with rfl | hold
      · have hid : before.id = channel.id := Table.key_of_find hbefore
        exact absurd (List.mem_singleton.mpr hid) hout
      · exact hold
  | editByTag tag edit => exact inv_editByTag hinv horderly h
  | fixAbility =>
    cases h
    have hfree : s.Free (s.channels.rows.map (·.id)) := horderly
    refine inv_start hinv rfl hfree (fun row hrow _ => hrow) ?_ trivial
    intro row hrow hout
    exact absurd (List.mem_map_of_mem hrow) hout
  | go slot =>
    obtain ⟨w, hw, rfl⟩ := Option.map_eq_some_iff.mp h
    exact inv_go_step hinv hw horderly
  | readChannels =>
    cases h
    exact ⟨hinv.settled, hinv.apart, hinv.sound⟩
  | readAbilities slot =>
    obtain ⟨channels, hslot, rfl⟩ := Option.map_eq_some_iff.mp h
    dsimp only
    split
    · exact ⟨hinv.settled, hinv.apart, hinv.sound⟩
    · exact ⟨hinv.settled, hinv.apart, hinv.sound⟩

theorem crashed_step (hinv : s.Inv) (horderly : s.Orderly a) (hcrashed : s.crashed = false)
    (h : s.step rawArray a = some s') : s'.crashed = false := by
  cases a with
  | readAbilities slot =>
    obtain ⟨channels, hslot, rfl⟩ := Option.map_eq_some_iff.mp h
    have hsome : (initChannelCache .empty channels s.abilities.rows).isSome := by
      refine initChannelCache_isSome_iff.mpr fun channel hchannel hon hmodels group hgroup => ?_
      obtain ⟨row, hrow, hsettled, hlists, hin⟩ :=
        horderly channels hslot channel hchannel hon hmodels group hgroup
      obtain ⟨ability, hability, -, rfl⟩ := hinv.settled row hrow hsettled hlists group hin
      exact List.mem_map_of_mem hability
    obtain ⟨cache, hcache⟩ := Option.isSome_iff_exists.mp hsome
    simp only [hcache]
    exact hcrashed
  | insert channel =>
    obtain ⟨channels, -, rfl⟩ := Option.map_eq_some_iff.mp h
    exact hcrashed
  | go slot =>
    obtain ⟨w, -, rfl⟩ := Option.map_eq_some_iff.mp h
    unfold SyncSystem.go
    split <;> exact hcrashed
  | update _ | editByTag _ _ | fixAbility | readChannels =>
    cases h
    exact hcrashed

/-- Nothing is under way, and every channel has its abilities. -/
structure SyncSystem.Consistent (s : SyncSystem) : Prop where
  writers : s.writers = []
  crashed : s.crashed = false
  covered : ∀ row ∈ s.channels.rows, row.Covered s.abilities.HasGroup

/-- In every run in which no two writers have one channel in hand, and in which at each sync the
groups that it has read are listed by channels no writer has in hand, no sync writes to an inner
map that is missing. -/
theorem sync_never_panics (rawArray : RawArray) (hs : s.Consistent) (acts : List SyncAct)
    (horderly : Machine.Meets (SyncSystem.step rawArray) SyncSystem.Orderly s acts)
    (hrun : Machine.run (SyncSystem.step rawArray) s acts = some s') : s'.crashed = false := by
  have hstart : s.Inv := by
    refine ⟨fun row hrow _ => hs.covered row hrow, fun id => ?_, fun w hw => ?_⟩
    · intro i k a b hi
      simp [hs.writers] at hi
    · simp [hs.writers] at hw
  have hstep : ∀ (s : SyncSystem) (a : SyncAct) (t : SyncSystem), (s.Inv ∧ s.crashed = false) →
      s.Orderly a → s.step rawArray a = some t → t.Inv ∧ t.crashed = false :=
    fun s a t hs ho ht => ⟨inv_step hs.1 ho ht, crashed_step hs.1 ho hs.2 ht⟩
  exact (Machine.run_invariant _ hstep acts s s' ⟨hstart, hs.crashed⟩ horderly hrun).2

end Steps

/-! ### A channel that is being inserted -/

theorem sampleAbility_keys : ([sampleAbility 7 "m"].map Ability.key).Nodup := by simp

def syncedSystem : SyncSystem where
  channels := tableOf (sampleChannel 7 "m")
  abilities := ⟨[sampleAbility 7 "m"], sampleAbility_keys⟩
  writers := []
  reading := []
  crashed := false

theorem syncedSystem_consistent : syncedSystem.Consistent := by
  refine ⟨rfl, rfl, fun row hrow _ group hgroup => ?_⟩
  obtain rfl : row = sampleChannel 7 "m" := List.mem_singleton.mp hrow
  obtain rfl : group = "default" := by
    have hsplit : split (sampleChannel 7 "m").group ',' = ["default"] := by decide
    rw [hsplit] at hgroup
    exact List.mem_singleton.mp hgroup
  exact ⟨sampleAbility 7 "m", List.mem_singleton_self _, rfl, rfl⟩

/-- An insert that is under way, into a group that another channel lists. -/
def insertBeside : List SyncAct := [.insert (sampleChannel 8 "n"), .readChannels, .readAbilities 0]

theorem meets_insertBeside :
    Machine.Meets (SyncSystem.step fun _ => none) SyncSystem.Orderly syncedSystem insertBeside := by
  refine ⟨fun w hw => absurd hw List.not_mem_nil, fun t₁ h₁ => ⟨trivial, fun t₂ h₂ =>
    ⟨?_, fun _ _ => trivial⟩⟩⟩
  cases h₁
  cases h₂
  intro channels hslot channel hchannel _ _ group hgroup
  cases hslot
  have hgroups : channel.group = "default" := by
    have hall : ∀ channel ∈ [sampleChannel 8 "n", sampleChannel 7 "m"],
        channel.group = "default" := by decide
    exact hall channel hchannel
  rw [hgroups] at hgroup
  refine ⟨sampleChannel 7 "m", ?_, ?_, by decide, hgroup⟩
  · decide
  · intro w hw
    obtain rfl := List.mem_singleton.mp hw
    decide

/-- A sync while a channel of the group is being inserted. -/
theorem sync_never_panics_sample : ∃ t, Machine.run (SyncSystem.step fun _ => none) syncedSystem
    insertBeside = some t ∧ t.writers ≠ [] ∧ t.crashed = false := by
  refine ⟨_, rfl, by decide, ?_⟩
  exact sync_never_panics (fun _ => none) syncedSystem_consistent insertBeside meets_insertBeside rfl

/-- A sync between the two statements of an insert, of a channel in a group of its own. -/
theorem insert_crashes_sync :
    ¬ ∀ (s : SyncSystem), s.Consistent → ∀ (acts : List SyncAct) (t : SyncSystem),
      Machine.run (SyncSystem.step fun _ => none) s acts = some t → t.crashed = false := by
  intro h
  have hrun := h ⟨⟨[], by simp⟩, ⟨[], by simp⟩, [], [], false⟩
    ⟨rfl, rfl, fun row hrow => absurd hrow List.not_mem_nil⟩
    [.insert (sampleChannel 7 "m"), .readChannels, .readAbilities 0] _ rfl
  exact absurd hrun (by decide)

end JulongApi.Channels

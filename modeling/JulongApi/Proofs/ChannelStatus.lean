/-
The cached channel and the stored row under status updates.

Both copies are changed by one function of the keys, the status and the key statuses, so they
stay equal as long as both are changed.  The row alone has an early return, and the copies
drift apart when the cached channel was changed before it.
-/
import JulongApi.Lib.Machine
import JulongApi.ChannelStatus
import JulongApi.Proofs.ChannelCache

namespace JulongApi.Channels

/-! ### Key statuses -/

namespace KeyMap

variable {α : Type} {m : KeyMap α} {i j : Int} {a : α}

@[simp] theorem get_delete_self : (m.delete i).get i = none := by
  unfold KeyMap.get KeyMap.delete
  refine List.lookup_eq_none_iff.mpr fun entry hentry => ?_
  have hne := of_decide_eq_true (List.mem_filter.mp hentry).2
  simpa using fun h : i = entry.1 => hne h.symm

theorem get_filter {p : Int → Bool} (h : p j = true) :
    KeyMap.get (m.filter fun entry => p entry.1) j = m.get j := by
  unfold KeyMap.get
  induction m with
  | nil => rfl
  | cons entry rest ih =>
    by_cases hp : p entry.1 = true
    · rw [List.filter_cons_of_pos (p := fun entry : Int × α => p entry.1) hp, List.lookup_cons,
        List.lookup_cons, ih]
    · have hj : (j == entry.1) = false := by
        refine beq_eq_false_iff_ne.mpr fun heq => hp ?_
        rw [← heq, h]
      rw [List.filter_cons_of_neg (p := fun entry : Int × α => p entry.1) hp, ih,
        List.lookup_cons, hj]

theorem get_delete_ne (h : j ≠ i) : (m.delete i).get j = m.get j :=
  get_filter (p := fun k => decide (k ≠ i)) (decide_eq_true h)

@[simp] theorem get_set_self : (m.set i a).get i = some a := by
  simp [KeyMap.get, KeyMap.set]

theorem get_set_ne (h : j ≠ i) : (m.set i a).get j = m.get j := by
  have hne : (j == i) = false := by simpa using h
  have hdelete := get_delete_ne (m := m) h
  simp only [KeyMap.get, KeyMap.set, List.lookup_cons, hne] at hdelete ⊢
  exact hdelete

end KeyMap

theorem keyStatus_setKeyStatus (info : ChannelInfo) (keyIndex status : Int) (reason : String)
    (now i : Int) :
    (info.setKeyStatus keyIndex status reason now).keyStatus i =
      if i = keyIndex then status else info.keyStatus i := by
  unfold ChannelInfo.setKeyStatus ChannelInfo.keyStatus
  by_cases hi : i = keyIndex
  · subst hi
    by_cases hon : status = channelStatusEnabled
    · simp [hon]
    · simp [hon]
  · by_cases hon : status = channelStatusEnabled
    · simp [hon, hi, KeyMap.get_delete_ne hi]
    · simp [hon, hi, KeyMap.get_set_ne hi]

variable {keys : List String} {info : ChannelInfo}

theorem hasEnabledMultiKey_iff :
    hasEnabledMultiKey keys info = true ↔
      ∃ i < keys.length, info.keyStatus (i : Nat) = channelStatusEnabled := by
  simp [hasEnabledMultiKey]

theorem hasEnabledMultiKey_congr {info' : ChannelInfo}
    (h : ∀ i, info.keyStatus i = info'.keyStatus i) :
    hasEnabledMultiKey keys info = hasEnabledMultiKey keys info' := by
  simp only [hasEnabledMultiKey, h]

/-! ### One copy -/

/-- Two copies agree on the status of the channel and of every key. -/
def SameStatus (a b : Channel) : Prop :=
  a.status = b.status ∧ ∀ i, a.channelInfo.keyStatus i = b.channelInfo.keyStatus i

variable {other : Channel}

section Handler

variable (rawArray : RawArray) (channel : Channel) (usingKey : String) (status : Int)
  (reason : String) (now : Int)

theorem setKeyStatus_isMultiKey (info : ChannelInfo) (keyIndex : Int) :
    (info.setKeyStatus keyIndex status reason now).isMultiKey = info.isMultiKey := by
  unfold ChannelInfo.setKeyStatus
  split <;> rfl

theorem handler_frame : ∃ newStatus otherInfo info,
    handlerMultiKeyUpdate rawArray channel usingKey status reason now =
      { channel with status := newStatus, otherInfo := otherInfo, channelInfo := info } ∧
      info.isMultiKey = channel.channelInfo.isMultiKey := by
  simp only [handlerMultiKeyUpdate, Channel.setStatus]
  split
  · exact ⟨_, _, _, rfl, rfl⟩
  · split
    · split
      · exact ⟨_, _, _, rfl, rfl⟩
      · exact ⟨_, _, _, rfl, rfl⟩
    · split
      · exact ⟨_, _, _, rfl, setKeyStatus_isMultiKey _ _ _ _ _⟩
      · split
        · exact ⟨_, _, _, rfl, setKeyStatus_isMultiKey _ _ _ _ _⟩
        · exact ⟨_, _, _, rfl, setKeyStatus_isMultiKey _ _ _ _ _⟩

theorem handler_id :
    (handlerMultiKeyUpdate rawArray channel usingKey status reason now).id = channel.id := by
  obtain ⟨_, _, _, h, -⟩ := handler_frame rawArray channel usingKey status reason now
  rw [h]

theorem handler_key :
    (handlerMultiKeyUpdate rawArray channel usingKey status reason now).key = channel.key := by
  obtain ⟨_, _, _, h, -⟩ := handler_frame rawArray channel usingKey status reason now
  rw [h]

theorem handler_isMultiKey :
    (handlerMultiKeyUpdate rawArray channel usingKey status reason now).channelInfo.isMultiKey =
      channel.channelInfo.isMultiKey := by
  obtain ⟨_, _, _, h, hmulti⟩ := handler_frame rawArray channel usingKey status reason now
  rw [h]
  exact hmulti

variable {rawArray channel usingKey status reason now}

theorem getKeys_congr (h : channel.key = other.key) :
    channel.getKeys rawArray = other.getKeys rawArray := by
  simp only [Channel.getKeys, h]

theorem handler_sameStatus (hkey : channel.key = other.key) (h : SameStatus channel other) :
    SameStatus (handlerMultiKeyUpdate rawArray channel usingKey status reason now)
      (handlerMultiKeyUpdate rawArray other usingKey status reason now) := by
  obtain ⟨hstatus, hkeys⟩ := h
  simp only [handlerMultiKeyUpdate, getKeys_congr hkey]
  split
  · exact ⟨rfl, hkeys⟩
  · split
    · split
      · exact ⟨hstatus, hkeys⟩
      · exact ⟨rfl, hkeys⟩
    · next keyIndex _ =>
      have hset : ∀ i, (channel.channelInfo.setKeyStatus keyIndex status reason now).keyStatus i =
          (other.channelInfo.setKeyStatus keyIndex status reason now).keyStatus i := by
        intro i
        rw [keyStatus_setKeyStatus, keyStatus_setKeyStatus, hkeys]
      rw [hasEnabledMultiKey_congr hset]
      split
      · exact ⟨rfl, hset⟩
      · split
        · exact ⟨rfl, hset⟩
        · exact ⟨hstatus, hset⟩

/-- An update that has the status already changes the copy: the key has another status, or no
key is enabled and the status is not the one the update then gives. -/
def KeyDrifts (rawArray : RawArray) (channel : Channel) (usingKey : String) (status : Int) : Prop :=
  ∃ keyIndex : Nat, (channel.getKeys rawArray).idxOf? usingKey = some keyIndex ∧
    (channel.channelInfo.keyStatus keyIndex ≠ status ∨
      (status ≠ channelStatusAutoDisabled ∧
        hasEnabledMultiKey (channel.getKeys rawArray) channel.channelInfo = false))

theorem handler_found {keyIndex : Nat}
    (hindex : (channel.getKeys rawArray).idxOf? usingKey = some keyIndex) :
    SameStatus (handlerMultiKeyUpdate rawArray channel usingKey status reason now)
      { channel with
        status :=
          if hasEnabledMultiKey (channel.getKeys rawArray)
              (channel.channelInfo.setKeyStatus keyIndex status reason now) = false then
            channelStatusAutoDisabled
          else if status = channelStatusEnabled then channelStatusEnabled
          else channel.status
        channelInfo := channel.channelInfo.setKeyStatus keyIndex status reason now } := by
  have hsome : (channel.getKeys rawArray).isEmpty = false := by
    cases hkeys : channel.getKeys rawArray with
    | nil => simp [hkeys] at hindex
    | cons _ _ => rfl
  simp only [handlerMultiKeyUpdate, hsome, hindex, Bool.false_eq_true, if_false, Channel.setStatus]
  split
  · exact ⟨rfl, fun _ => rfl⟩
  · split
    · exact ⟨rfl, fun _ => rfl⟩
    · exact ⟨rfl, fun _ => rfl⟩

theorem handler_notFound (hstatus : channel.status = status)
    (hindex : (channel.getKeys rawArray).idxOf? usingKey = none) :
    SameStatus (handlerMultiKeyUpdate rawArray channel usingKey status reason now) channel := by
  simp only [handlerMultiKeyUpdate, hindex]
  split
  · exact ⟨hstatus.symm, fun _ => rfl⟩
  · split
    · exact ⟨rfl, fun _ => rfl⟩
    · exact ⟨hstatus.symm, fun _ => rfl⟩

variable {a b : Channel}

theorem SameStatus.trans {c : Channel} (hab : SameStatus a b) (hbc : SameStatus b c) :
    SameStatus a c :=
  ⟨hab.1.trans hbc.1, fun i => (hab.2 i).trans (hbc.2 i)⟩

theorem SameStatus.symm (h : SameStatus a b) : SameStatus b a :=
  ⟨h.1.symm, fun i => (h.2 i).symm⟩

theorem handler_keeps_iff (reason : String) (now : Int) (hstatus : channel.status = status) :
    SameStatus (handlerMultiKeyUpdate rawArray channel usingKey status reason now) channel ↔
      ¬ KeyDrifts rawArray channel usingKey status := by
  cases hindex : (channel.getKeys rawArray).idxOf? usingKey with
  | none =>
    have hnot : ¬ KeyDrifts rawArray channel usingKey status := by
      rintro ⟨keyIndex, hsome, -⟩
      rw [hindex] at hsome
      cases hsome
    exact ⟨fun _ => hnot, fun _ => handler_notFound hstatus hindex⟩
  | some keyIndex =>
    have hfound := @handler_found rawArray channel usingKey status reason now keyIndex hindex
    have hset := keyStatus_setKeyStatus channel.channelInfo keyIndex status reason now
    constructor
    · rintro hsame ⟨k, hk, hdrift⟩
      cases hindex.symm.trans hk
      have hkept := hfound.symm.trans hsame
      have hkeys : ∀ i, (channel.channelInfo.setKeyStatus keyIndex status reason now).keyStatus i =
          channel.channelInfo.keyStatus i := hkept.2
      rcases hdrift with hdiff | ⟨hauto, hnone⟩
      · refine hdiff ?_
        rw [← hkeys keyIndex, hset, if_pos rfl]
      · have hchanged := hkept.1
        simp only [hasEnabledMultiKey_congr hkeys, hnone, if_true] at hchanged
        exact hauto (hstatus.symm.trans hchanged.symm)
    · intro hnot
      have hkey : channel.channelInfo.keyStatus keyIndex = status := by
        by_contra hdiff
        exact hnot ⟨keyIndex, hindex, .inl hdiff⟩
      have hkeys : ∀ i, (channel.channelInfo.setKeyStatus keyIndex status reason now).keyStatus i =
          channel.channelInfo.keyStatus i := by
        intro i
        rw [hset]
        split
        · next hi => rw [hi, hkey]
        · rfl
      refine hfound.trans ⟨?_, hkeys⟩
      simp only [hasEnabledMultiKey_congr hkeys]
      split
      · next hnone =>
        by_contra hauto
        refine hnot ⟨keyIndex, hindex, .inr ⟨fun h => hauto ?_, hnone⟩⟩
        rw [hstatus, h]
      · split
        · next hon => rw [hstatus, hon]
        · rfl

end Handler

/-! ### The two copies -/

section Store

variable (rawArray : RawArray) {s : ChannelStore} {u : StatusUpdate} {cached row : Channel}

def updated (rawArray : RawArray) (channel : Channel) (u : StatusUpdate) : Channel :=
  handlerMultiKeyUpdate rawArray channel u.usingKey u.status u.reason u.now

/-- The row has the status already, and the update ends before it changes the row. -/
def Unchanged (row : Channel) (u : StatusUpdate) : Prop :=
  row.status = u.status ∧ overridesKeyExhaustion row u = false

theorem updateCachedStatus_self {cache : ChannelCache}
    (hcached : cache.channelsIDM u.channelId = some cached)
    (hmulti : cached.channelInfo.isMultiKey = true) :
    ∃ cache', updateCachedStatus rawArray cache u = some cache' ∧
      cache'.channelsIDM u.channelId = some (updated rawArray cached u) := by
  simp only [updateCachedStatus, hcached, hmulti, if_true]
  refine ⟨_, rfl, ?_⟩
  split <;> simp [ChannelCache.put, ChannelCache.cacheUpdateChannelStatus, updated]

variable {id : Int}

theorem updateCachedStatus_other {cache cache' : ChannelCache} (hother : u.channelId ≠ id)
    (h : updateCachedStatus rawArray cache u = some cache') :
    cache'.channelsIDM id = cache.channelsIDM id := by
  have hne : id ≠ u.channelId := Ne.symm hother
  unfold updateCachedStatus at h
  split at h
  · cases h
  · split at h
    · cases h
      split <;> simp [ChannelCache.put, ChannelCache.cacheUpdateChannelStatus, hne]
    · split at h
      · cases h
      · cases h
        simp [ChannelCache.cacheUpdateChannelStatus, hne]

theorem saveStatusState_self {channels : ChannelTable} (hrow : channels.find id = some row)
    (hmulti : row.channelInfo.isMultiKey = true) :
    (channels.saveStatusState (updated rawArray row u)).find id =
      some (updated rawArray row u) := by
  have hid : row.id = id := Table.key_of_find hrow
  obtain ⟨status, otherInfo, info, hafter, hinfo⟩ :=
    handler_frame rawArray row u.usingKey u.status u.reason u.now
  have hfind : channels.find (updated rawArray row u).id = some row := by
    rw [updated, handler_id, hid, hrow]
  unfold ChannelTable.saveStatusState
  simp only [hfind]
  have hsaved : ({ row with
      status := (updated rawArray row u).status
      otherInfo := (updated rawArray row u).otherInfo
      channelInfo :=
        if (updated rawArray row u).channelInfo.isMultiKey = true then
          (updated rawArray row u).channelInfo
        else row.channelInfo } : Channel) = updated rawArray row u := by
    simp [updated, hafter, hinfo, hmulti]
  rw [hsaved]
  have hkey : (updated rawArray row u).id = id := by rw [updated, handler_id, hid]
  rw [← hkey]
  exact Table.find_save_self hfind

variable {channel : Channel} {t : ChannelStore}

theorem saveStatusState_other {channels : ChannelTable} (hother : channel.id ≠ id) :
    (channels.saveStatusState channel).find id = channels.find id := by
  unfold ChannelTable.saveStatusState
  split
  · rfl
  · next hrow =>
    have hid := Table.key_of_find hrow
    exact Table.find_save_ne (hid.trans_ne hother)

theorem updateStoredStatus_unchanged (hrow : s.channels.find u.channelId = some row)
    (h : Unchanged row u) : (updateStoredStatus rawArray s u).1 = s := by
  have hearly : row.status = u.status ∧ overridesKeyExhaustion row u = false := h
  simp only [updateStoredStatus, hrow, if_pos hearly]

theorem updateStoredStatus_changed (hrow : s.channels.find u.channelId = some row)
    (hmulti : row.channelInfo.isMultiKey = true) (h : ¬ Unchanged row u) :
    (updateStoredStatus rawArray s u).1 =
      { s with
        channels := s.channels.saveStatusState (updated rawArray row u)
        abilities :=
          if row.status = (updated rawArray row u).status then s.abilities
          else s.abilities.updateAbilityStatus u.channelId
            (decide (u.status = channelStatusEnabled)) } := by
  have hearly : ¬ (row.status = u.status ∧ overridesKeyExhaustion row u = false) := h
  simp only [updateStoredStatus, hrow, if_neg hearly, hmulti, updated]
  by_cases hstatus :
      row.status = (handlerMultiKeyUpdate rawArray row u.usingKey u.status u.reason u.now).status
  · simp [hstatus]
  · simp [hstatus]

/-- The abilities of a channel are all enabled or all disabled, as `enabled` says. -/
def AbilityTable.Follow (table : AbilityTable) (channelId : Int) (enabled : Bool) : Prop :=
  ∀ ability ∈ table.rows, ability.channelId = channelId → ability.enabled = enabled

theorem updateAbilityStatus_self (table : AbilityTable) (channelId : Int) (enabled : Bool) :
    (table.updateAbilityStatus channelId enabled).Follow channelId enabled := by
  intro ability hability hid
  obtain ⟨before, hbefore, rfl⟩ := List.mem_map.mp hability
  by_cases hsame : before.channelId = channelId
  · simp [hsame]
  · simp only [hsame, if_false] at hid

theorem updateAbilityStatus_other {table : AbilityTable} {channelId : Int} {status enabled : Bool}
    (hother : channelId ≠ id) :
    (table.updateAbilityStatus channelId status).Follow id enabled ↔ table.Follow id enabled := by
  constructor
  · intro h ability hability hid
    refine h ability ?_ hid
    refine List.mem_map.mpr ⟨ability, hability, ?_⟩
    rw [if_neg (hid.trans_ne hother.symm)]
  · intro h ability hability hid
    obtain ⟨before, hbefore, rfl⟩ := List.mem_map.mp hability
    by_cases hsame : before.channelId = channelId
    · simp only [hsame, if_true] at hid
      exact absurd hid hother
    · simp only [hsame, if_false] at hid ⊢
      exact h before hbefore hid

theorem updateStoredStatus_cache :
    (updateStoredStatus rawArray s u).1.cache = s.cache ∧
      (updateStoredStatus rawArray s u).1.memoryCacheEnabled = s.memoryCacheEnabled := by
  unfold updateStoredStatus
  split
  · exact ⟨rfl, rfl⟩
  · split <;> exact ⟨rfl, rfl⟩

theorem updateStoredStatus_other (hother : u.channelId ≠ id) :
    (updateStoredStatus rawArray s u).1.channels.find id = s.channels.find id ∧
      ∀ enabled, (updateStoredStatus rawArray s u).1.abilities.Follow id enabled ↔
        s.abilities.Follow id enabled := by
  unfold updateStoredStatus
  split
  · exact ⟨rfl, fun _ => Iff.rfl⟩
  · next channel hrow =>
    have hid : channel.id = u.channelId := Table.key_of_find hrow
    split
    · exact ⟨rfl, fun _ => Iff.rfl⟩
    · refine ⟨saveStatusState_other ?_, fun enabled => ?_⟩
      · split
        · rw [handler_id, hid]
          exact hother
        · exact hid.trans_ne hother
      · dsimp only
        by_cases hupdate : (!channel.channelInfo.isMultiKey || decide (channel.status ≠
            (if channel.channelInfo.isMultiKey = true then
              handlerMultiKeyUpdate rawArray channel u.usingKey u.status u.reason u.now
            else channel.setStatus u.status u.reason u.now).status)) = true
        · rw [if_pos hupdate]
          exact updateAbilityStatus_other hother
        · rw [if_neg hupdate]

/-! ### Runs -/

/-- The cached channel and the row are copies of one multi-key channel. -/
structure Copies (s : ChannelStore) (id : Int) (cached row : Channel) : Prop where
  hcached : s.cache.channelsIDM id = some cached
  hrow : s.channels.find id = some row
  key : cached.key = row.key
  cachedMulti : cached.channelInfo.isMultiKey = true
  rowMulti : row.channelInfo.isMultiKey = true

/-- The memory cache is on, and the cache and the table both hold the channel. -/
def Cached (id : Int) (s : ChannelStore) : Prop :=
  s.memoryCacheEnabled = true ∧ ∃ cached row, Copies s id cached row

/-- The copies agree, and the abilities are enabled as the row is. -/
def Agree (id : Int) (s : ChannelStore) : Prop :=
  ∃ cached row, s.cache.channelsIDM id = some cached ∧ s.channels.find id = some row ∧
    SameStatus cached row ∧ s.abilities.Follow id (decide (row.status = channelStatusEnabled))

def updateStep (rawArray : RawArray) (s : ChannelStore) (u : StatusUpdate) : Option ChannelStore :=
  some (s.updateChannelStatus rawArray u).1

/-- A call that drifts: it ends before it changes the row, which has the status already, and it
has changed the cached channel. -/
def Drifts (rawArray : RawArray) (id : Int) (s : ChannelStore) (u : StatusUpdate) : Prop :=
  u.channelId = id ∧ ∃ row, s.channels.find id = some row ∧ Unchanged row u ∧
    KeyDrifts rawArray row u.usingKey u.status

theorem keyDrifts_congr (hkey : channel.key = other.key) (h : SameStatus channel other)
    (usingKey : String) (status : Int) :
    KeyDrifts rawArray channel usingKey status ↔ KeyDrifts rawArray other usingKey status := by
  unfold KeyDrifts
  simp only [getKeys_congr hkey, h.2, hasEnabledMultiKey_congr h.2]

theorem updated_status (row : Channel) (hchanged : row.status ≠ (updated rawArray row u).status) :
    (updated rawArray row u).status = channelStatusEnabled ↔ u.status = channelStatusEnabled := by
  unfold updated at *
  cases hindex : (row.getKeys rawArray).idxOf? u.usingKey with
  | none =>
    have hsame : (handlerMultiKeyUpdate rawArray row u.usingKey u.status u.reason u.now).status =
        u.status := by
      simp only [handlerMultiKeyUpdate, hindex, Channel.setStatus] at hchanged ⊢
      by_cases hempty : (row.getKeys rawArray).isEmpty = true
      · simp only [hempty, if_true]
      · simp only [hempty] at hchanged ⊢
        by_cases hkey : u.usingKey ≠ ""
        · simp [hkey] at hchanged
        · simp [hkey]
    rw [hsame]
  | some keyIndex =>
    have hfound := (@handler_found rawArray row u.usingKey u.status u.reason u.now keyIndex
      hindex).1
    rw [hfound] at hchanged ⊢
    by_cases hon : u.status = channelStatusEnabled
    · have hsome : hasEnabledMultiKey (row.getKeys rawArray)
          (row.channelInfo.setKeyStatus keyIndex u.status u.reason u.now) = true := by
        obtain ⟨hlt, -⟩ := List.idxOf?_eq_some_iff.mp hindex
        refine hasEnabledMultiKey_iff.mpr ⟨keyIndex, hlt, ?_⟩
        rw [keyStatus_setKeyStatus, if_pos rfl, hon]
      rw [hon] at hsome ⊢
      simp [hsome]
    · simp only [hon, if_false, iff_false] at hchanged ⊢
      split
      · decide
      · next hsome => simp [hsome] at hchanged

theorem updateStep_self (hmemory : s.memoryCacheEnabled = true)
    (hcopies : Copies s u.channelId cached row) :
    ∃ t, (s.updateChannelStatus rawArray u).1 = t ∧ t.memoryCacheEnabled = true ∧
      t.cache.channelsIDM u.channelId = some (updated rawArray cached u) ∧
      ((Unchanged row u ∧ t.channels.find u.channelId = some row ∧ t.abilities = s.abilities) ∨
        (¬ Unchanged row u ∧ t.channels.find u.channelId = some (updated rawArray row u) ∧
          t.abilities =
            if row.status = (updated rawArray row u).status then s.abilities
            else s.abilities.updateAbilityStatus u.channelId
              (decide (u.status = channelStatusEnabled)))) := by
  obtain ⟨cache, hcache, hafter⟩ :=
    updateCachedStatus_self rawArray hcopies.hcached hcopies.cachedMulti
  refine ⟨_, rfl, ?_⟩
  unfold ChannelStore.updateChannelStatus
  rw [if_pos hmemory, hcache]
  dsimp only
  have hrow : ({ s with cache := cache } : ChannelStore).channels.find u.channelId = some row :=
    hcopies.hrow
  by_cases hunchanged : Unchanged row u
  · rw [updateStoredStatus_unchanged rawArray hrow hunchanged]
    exact ⟨hmemory, hafter, .inl ⟨hunchanged, hcopies.hrow, rfl⟩⟩
  · rw [updateStoredStatus_changed rawArray hrow hcopies.rowMulti hunchanged]
    exact ⟨hmemory, hafter, .inr ⟨hunchanged,
      saveStatusState_self rawArray hcopies.hrow hcopies.rowMulti, rfl⟩⟩

theorem updateStep_other (hother : u.channelId ≠ id) :
    ∃ t, (s.updateChannelStatus rawArray u).1 = t ∧
      t.memoryCacheEnabled = s.memoryCacheEnabled ∧
      t.cache.channelsIDM id = s.cache.channelsIDM id ∧
      t.channels.find id = s.channels.find id ∧
      ∀ enabled, t.abilities.Follow id enabled ↔ s.abilities.Follow id enabled := by
  refine ⟨_, rfl, ?_⟩
  unfold ChannelStore.updateChannelStatus
  split
  · split
    · exact ⟨rfl, rfl, rfl, fun _ => Iff.rfl⟩
    · next cache hcache =>
      have hstored := updateStoredStatus_other rawArray (s := { s with cache := cache }) hother
      refine ⟨(updateStoredStatus_cache rawArray).2, ?_, hstored.1, hstored.2⟩
      rw [(updateStoredStatus_cache rawArray).1]
      exact updateCachedStatus_other rawArray hother hcache
  · have hstored := updateStoredStatus_other rawArray (s := s) hother
    refine ⟨(updateStoredStatus_cache rawArray).2, ?_, hstored.1, hstored.2⟩
    rw [(updateStoredStatus_cache rawArray).1]

theorem cached_step (hbase : Cached id s) (h : updateStep rawArray s u = some t) : Cached id t := by
  cases h
  obtain ⟨hmemory, cached, row, hcopies⟩ := hbase
  by_cases hid : u.channelId = id
  · subst hid
    obtain ⟨t, ht, hmemory', hcached, hrow⟩ := updateStep_self rawArray hmemory hcopies
    rw [ht]
    have hmulti : (updated rawArray cached u).channelInfo.isMultiKey = true := by
      rw [updated, handler_isMultiKey, hcopies.cachedMulti]
    have hkey : (updated rawArray cached u).key = row.key := by
      rw [updated, handler_key, hcopies.key]
    rcases hrow with ⟨-, hrow, -⟩ | ⟨-, hrow, -⟩
    · exact ⟨hmemory', _, _, hcached, hrow, hkey, hmulti, hcopies.rowMulti⟩
    · refine ⟨hmemory', _, _, hcached, hrow, ?_, hmulti, ?_⟩
      · rw [hkey, updated, handler_key]
      · rw [updated, handler_isMultiKey, hcopies.rowMulti]
  · obtain ⟨t, ht, hmemory', hcached, hrow, -⟩ := updateStep_other rawArray (s := s) hid
    rw [ht]
    exact ⟨hmemory'.trans hmemory, cached, row, hcached.trans hcopies.hcached,
      hrow.trans hcopies.hrow, hcopies.key, hcopies.cachedMulti, hcopies.rowMulti⟩

theorem agree_step_iff (hbase : Cached id s) (hagree : Agree id s)
    (h : updateStep rawArray s u = some t) : Agree id t ↔ ¬ Drifts rawArray id s u := by
  cases h
  obtain ⟨hmemory, cached, row, hcopies⟩ := hbase
  obtain ⟨cached', row', hcached', hrow', hsame, hfollow⟩ := hagree
  obtain rfl := Option.some.inj (hcached'.symm.trans hcopies.hcached)
  obtain rfl := Option.some.inj (hrow'.symm.trans hcopies.hrow)
  by_cases hid : u.channelId = id
  · subst hid
    obtain ⟨t, ht, -, hcached, hrow⟩ := updateStep_self rawArray hmemory hcopies
    rw [ht]
    rcases hrow with ⟨hunchanged, hrow, habilities⟩ | ⟨hunchanged, hrow, habilities⟩
    · -- only the cached channel was updated
      have hdrifts : Drifts rawArray u.channelId s u ↔
          KeyDrifts rawArray cached' u.usingKey u.status := by
        rw [keyDrifts_congr rawArray hcopies.key hsame]
        constructor
        · rintro ⟨-, other, hother, -, hdrift⟩
          cases hother.symm.trans hcopies.hrow
          exact hdrift
        · exact fun h => ⟨rfl, _, hcopies.hrow, hunchanged, h⟩
      rw [hdrifts, ← handler_keeps_iff u.reason u.now (hsame.1.trans hunchanged.1)]
      constructor
      · rintro ⟨a, b, ha, hb, hab, -⟩
        cases ha.symm.trans hcached
        cases hb.symm.trans hrow
        exact hab.trans hsame.symm
      · intro hkept
        exact ⟨_, _, hcached, hrow, hkept.trans hsame, habilities ▸ hfollow⟩
    · -- both copies were updated
      have hnot : ¬ Drifts rawArray u.channelId s u := by
        rintro ⟨-, other, hother, hearly, -⟩
        obtain rfl := Option.some.inj (hother.symm.trans hcopies.hrow)
        exact hunchanged hearly
      refine ⟨fun _ => hnot, fun _ => ⟨_, _, hcached, hrow, ?_, ?_⟩⟩
      · exact handler_sameStatus hcopies.key hsame
      · rw [habilities]
        split
        · next hstatus => exact hstatus ▸ hfollow
        · next hstatus =>
          have hiff := updated_status rawArray row' hstatus
          have hdecide : decide ((updated rawArray row' u).status = channelStatusEnabled) =
              decide (u.status = channelStatusEnabled) := decide_eq_decide.mpr hiff
          rw [hdecide]
          exact updateAbilityStatus_self _ _ _
  · obtain ⟨t, ht, -, hcached, hrow, hfollow'⟩ :=
      updateStep_other rawArray (s := s) hid
    rw [ht]
    refine ⟨fun _ hdrifts => hid hdrifts.1, fun _ => ?_⟩
    exact ⟨_, _, hcached.trans hcached', hrow.trans hrow', hsame, (hfollow' _).mpr hfollow⟩

/-- From copies that agree, after each call of a run the cached channel and the row agree on the
channel's status and on the status of every key, and the abilities are enabled exactly when the
row is, if and only if no call of the run drifts. -/
theorem status_agrees_iff {id : Int} (hcached : Cached id s) (hagree : Agree id s)
    (calls : List StatusUpdate) :
    Machine.Meets (updateStep rawArray) (fun s u => ¬ Drifts rawArray id s u) s calls ↔
      ∀ pre, pre <+: calls → ∀ t, Machine.run (updateStep rawArray) s pre = some t →
        Agree id t := by
  have hbase : ∀ (s : ChannelStore) (u : StatusUpdate) (t : ChannelStore), Cached id s → True →
      updateStep rawArray s u = some t → Cached id t :=
    fun s u t hs _ ht => cached_step rawArray hs ht
  have hstep : ∀ (s : ChannelStore) (u : StatusUpdate) (t : ChannelStore), Cached id s →
      Agree id s → True → updateStep rawArray s u = some t →
      (Agree id t ↔ ¬ Drifts rawArray id s u) :=
    fun s u t hs ha _ ht => agree_step_iff rawArray hs ha ht
  refine Machine.meets_iff_always_of (Cached id) (Agree id) hbase hstep ?_ calls s hcached hagree
    fun _ _ => trivial
  intro s u hstuck
  cases hstuck

end Store

/-! ### A key that is enabled again -/

def twoKeyChannel : Channel :=
  { sampleChannel 7 "m" with
    key := "a\nb"
    channelInfo := ⟨true, 2, [], [], [], 0, .polling⟩ }

def twoKeyStore : ChannelStore where
  memoryCacheEnabled := true
  cache := { ChannelCache.empty with channelsIDM := (tableOf twoKeyChannel).find }
  channels := tableOf twoKeyChannel
  abilities := ⟨[sampleAbility 7 "m"], by simp⟩

theorem twoKeyStore_cached : Cached 7 twoKeyStore :=
  ⟨rfl, twoKeyChannel, twoKeyChannel, rfl, rfl, rfl, rfl, rfl⟩

theorem twoKeyStore_agree : Agree 7 twoKeyStore := by
  refine ⟨twoKeyChannel, twoKeyChannel, rfl, rfl, ⟨rfl, fun _ => rfl⟩, ?_⟩
  intro ability hability _
  obtain rfl : ability = sampleAbility 7 "m" := List.mem_singleton.mp hability
  rfl

def keyUpdate (usingKey : String) (status : Int) : StatusUpdate := ⟨7, usingKey, status, "r", 0⟩

/-- One key is disabled: the copies agree. -/
theorem status_agrees_sample : ∃ t, Machine.run (updateStep fun _ => none) twoKeyStore
    [keyUpdate "a" channelStatusAutoDisabled] = some t ∧ Agree 7 t := by
  refine ⟨_, rfl, ?_⟩
  refine (status_agrees_iff (fun _ => none) twoKeyStore_cached twoKeyStore_agree
    [keyUpdate "a" channelStatusAutoDisabled]).mp ⟨?_, fun _ _ => trivial⟩ _ List.prefix_rfl _ rfl
  rintro ⟨-, row, hrow, hunchanged, -⟩
  cases hrow
  exact absurd hunchanged.1 (by decide)

/-- The key is enabled again while its channel is enabled: only the cached channel changes. -/
theorem enabled_key_disagrees :
    ¬ ∀ (s : ChannelStore) (id : Int), Cached id s → Agree id s →
      ∀ (calls : List StatusUpdate) (t : ChannelStore),
        Machine.run (updateStep fun _ => none) s calls = some t → Agree id t := by
  intro h
  obtain ⟨cached, row, hcached, hrow, hsame, -⟩ := h twoKeyStore 7 twoKeyStore_cached
    twoKeyStore_agree [keyUpdate "a" channelStatusAutoDisabled, keyUpdate "a" channelStatusEnabled]
    _ rfl
  cases hcached
  cases hrow
  exact absurd (hsame.2 0) (by decide)

end JulongApi.Channels

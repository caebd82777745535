/-
Key statuses that several callers write.

A caller that loaded the row before it took the lock writes the key statuses back as it loaded
them.  The keys that calls have disabled are kept in a ledger beside the system, and nothing is
lost as long as every caller that writes had loaded each of these keys as disabled.
-/
import JulongApi.Lib.Machine
import JulongApi.MultiKey
import JulongApi.Proofs.ChannelStatus

namespace JulongApi.Channels

/-! ### Disabled keys -/

def DisabledIn (keys : List String) (info : ChannelInfo) (key : String) : Prop :=
  ∃ i : Nat, keys[i]? = some key ∧ info.keyStatus i ≠ channelStatusEnabled

variable {key : String} {row : Channel}

variable {info : ChannelInfo} {random : Nat}

theorem DisabledIn.mono {keys : List String} {info' : ChannelInfo} (h : DisabledIn keys info key)
    (hinfo : ∀ i : Nat, keys[i]? = some key → info.keyStatus i ≠ channelStatusEnabled →
      info'.keyStatus i ≠ channelStatusEnabled) : DisabledIn keys info' key := by
  obtain ⟨i, hkey, hoff⟩ := h
  exact ⟨i, hkey, hinfo i hkey hoff⟩

section Loaded

variable (rawArray : RawArray)

def Channel.releasedBy (channel : Channel) : MultiKeyAction → List String
  | .enableKey (some keyIndex) | .deleteKey (some keyIndex) =>
    (channel.getKeys rawArray)[keyIndex.toNat]?.toList
  | .enableAllKeys => channel.getKeys rawArray
  | .deleteDisabledKeys =>
    (List.range (channel.getKeys rawArray).length).filterMap fun i : Nat =>
      if channel.channelInfo.keyStatus i = channelStatusAutoDisabled then
        (channel.getKeys rawArray)[i]?
      else none
  | _ => []

def Channel.disabledBy (channel : Channel) : MultiKeyAction → List String
  | .disableKey (some keyIndex) => (channel.getKeys rawArray)[keyIndex.toNat]?.toList
  | .disableAllKeys =>
    channel.channelInfo.enabledIndices.filterMap fun i => (channel.getKeys rawArray)[i]?
  | _ => []

def Channel.keptBy (channel : Channel) : MultiKeyAction → Option (List Nat)
  | .deleteKey (some keyIndex) =>
    some ((List.range (channel.getKeys rawArray).length).filter fun i : Nat =>
      (i : Int) ≠ keyIndex)
  | .deleteDisabledKeys =>
    some ((List.range (channel.getKeys rawArray).length).filter fun i : Nat =>
      channel.channelInfo.keyStatus i ≠ channelStatusAutoDisabled)
  | _ => none

/-- The keys of the kept indices, written as lines, are read back as they are. -/
def Channel.ReadsBack (channel : Channel) (kept : List Nat) : Prop :=
  (channel.keepKeys rawArray kept fun _ => true).getKeys rawArray =
    kept.map fun i => (channel.getKeys rawArray).getD i ""

variable {rawArray} {channel after : Channel} {action : MultiKeyAction} {now : Int}

/-! ### What an action keeps -/

theorem disableIfUnavailable_frame (channel : Channel) (now : Int) :
    (channel.disableIfUnavailable rawArray now).key = channel.key ∧
      (channel.disableIfUnavailable rawArray now).id = channel.id ∧
      (channel.disableIfUnavailable rawArray now).channelInfo = channel.channelInfo := by
  unfold Channel.disableIfUnavailable
  split
  · exact ⟨rfl, rfl, rfl⟩
  · split <;> exact ⟨rfl, rfl, rfl⟩

theorem restoreIfAvailable_frame (channel : Channel) (now : Int) :
    (channel.restoreIfAvailable rawArray now).key = channel.key ∧
      (channel.restoreIfAvailable rawArray now).id = channel.id ∧
      (channel.restoreIfAvailable rawArray now).channelInfo = channel.channelInfo := by
  unfold Channel.restoreIfAvailable
  split
  · exact ⟨rfl, rfl, rfl⟩
  · split <;> exact ⟨rfl, rfl, rfl⟩

theorem requireKeyIndex_eq_ok {missing : String} {keyIndex : Option Int} {index : Int}
    (h : requireKeyIndex channel missing keyIndex = .ok index) :
    keyIndex = some index ∧ 0 ≤ index := by
  unfold requireKeyIndex at h
  split at h
  · cases h
  · split at h
    · cases h
    · next hrange =>
      cases h
      exact ⟨rfl, by omega⟩

theorem get_reindex {α : Type} (m : KeyMap α) (keep : Nat → Bool) : ∀ {kept : List Nat} {j i : Nat},
    kept[j]? = some i → keep i = true → (m.reindex kept keep).get j = m.get i := by
  suffices h : ∀ (kept : List Nat) (start j i : Nat), kept[j]? = some i → keep i = true →
      List.lookup ((start + j : Nat) : Int) ((kept.zipIdx start).filterMap fun entry =>
        if keep entry.1 then (m.get entry.1).map fun a => ((entry.2 : Int), a) else none) =
        m.get i by
    intro kept j i hkept hkeep
    simpa [KeyMap.reindex, KeyMap.get] using h kept 0 j i hkept hkeep
  intro kept
  induction kept with
  | nil =>
    intro start j i hkept
    simp at hkept
  | cons head rest ih =>
    intro start j i hkept hkeep
    rw [List.zipIdx_cons, List.filterMap_cons]
    cases j with
    | zero =>
      obtain rfl : head = i := by simpa using hkept
      simp only [hkeep, if_true, Nat.add_zero]
      cases hget : m.get head with
      | some a => simp
      | none =>
        -- the indices that follow are greater
        refine List.lookup_eq_none_iff.mpr fun entry hentry => ?_
        obtain ⟨⟨old, new⟩, hmem, hentry⟩ := List.mem_filterMap.mp hentry
        have hge : start + 1 ≤ new := (List.mk_mem_zipIdx_iff_le_and_getElem?_sub.mp hmem).1
        split at hentry
        · obtain ⟨a, -, rfl⟩ := Option.map_eq_some_iff.mp hentry
          simp
          omega
        · cases hentry
    | succ j =>
      have hrest := ih (start + 1) j i (by simpa using hkept) hkeep
      rw [show start + 1 + j = start + (j + 1) by omega] at hrest
      rw [← hrest]
      by_cases hhead : keep head = true
      · simp only [hhead, if_true]
        cases m.get head with
        | none => rfl
        | some a =>
          have hne : (((start + (j + 1) : Nat) : Int) == (start : Int)) = false := by
            simp
            omega
          rw [Option.map_some, List.lookup_cons, hne]
      · simp only [hhead]
        rfl

theorem manage_eq_ok (h : channel.manage rawArray action now = .ok after) :
    channel.channelInfo.isMultiKey = true ∧ ∃ changed,
      channel.changeKeys rawArray action = .ok changed ∧ after.key = changed.key ∧
        after.id = changed.id ∧ after.channelInfo = changed.channelInfo := by
  unfold Channel.manage at h
  obtain ⟨hmulti, h⟩ := guard_eq_ok.mp h
  cases hchange : channel.changeKeys rawArray action with
  | error e =>
    rw [hchange] at h
    cases h
  | ok changed =>
    rw [hchange] at h
    refine ⟨by simpa using hmulti, changed, rfl, ?_⟩
    have hafter := Except.ok.inj h
    rw [← hafter]
    cases action with
    | enableKey _ => exact restoreIfAvailable_frame changed now
    | enableAllKeys => exact restoreIfAvailable_frame changed now
    | _ => exact disableIfUnavailable_frame changed now

variable {changed : Channel} {u : StatusUpdate}

theorem changeKeys_frame (h : channel.changeKeys rawArray action = .ok changed) :
    changed.id = channel.id ∧
      changed.channelInfo.isMultiKey = channel.channelInfo.isMultiKey := by
  cases action with
  | disableKey keyIndex | enableKey keyIndex =>
    obtain ⟨index, hindex, h⟩ := bind_eq_ok.mp h
    cases h
    exact ⟨rfl, rfl⟩
  | enableAllKeys =>
    cases h
    exact ⟨rfl, rfl⟩
  | disableAllKeys | deleteDisabledKeys =>
    simp only [Channel.changeKeys] at h
    split at h
    · cases h
    · cases h
      exact ⟨rfl, rfl⟩
  | deleteKey keyIndex =>
    obtain ⟨index, hindex, h⟩ := bind_eq_ok.mp h
    simp only [] at h
    split at h
    · cases h
    · cases h
      exact ⟨rfl, rfl⟩
  | other text => cases h

theorem countedKeys_eq {keys : List String} (hkeys : channel.getKeys rawArray = keys)
    (hsome : keys ≠ []) : countedKeys rawArray channel.key = keys := by
  subst hkeys
  unfold Channel.getKeys at hsome ⊢
  unfold countedKeys
  by_cases hempty : channel.key = ""
  · simp [hempty] at hsome
  · simp only [hempty, if_false] at hsome ⊢
    by_cases hbracket : (cutPrefix (trimSpace channel.key) "[").isSome = true
    · simp only [hbracket, if_true] at hsome ⊢
      cases harray : rawArray (trimSpace channel.key) with
      | none => simp
      | some keys =>
        rw [harray] at hsome
        cases keys with
        | nil => simp at hsome
        | cons head rest => rfl
    · simp only [hbracket]
      rfl

theorem recountKeys_frame (rawArray : RawArray) (existing : Option Channel) (channel : Channel) :
    (channel.recountKeys rawArray existing).key = channel.key ∧
      (channel.recountKeys rawArray existing).channelInfo.isMultiKey =
        channel.channelInfo.isMultiKey := by
  unfold Channel.recountKeys
  split <;> exact ⟨rfl, rfl⟩

/-- `Update` writes the key statuses of a multi-key channel, and its keys unless there are
none. -/
theorem updates_multi (hmulti : channel.channelInfo.isMultiKey = true) :
    (row.updates channel).channelInfo = channel.channelInfo := by
  refine if_neg fun hzero => ?_
  rw [hzero] at hmulti
  cases hmulti

variable {s : ChannelStore}

theorem find_update (hrow : s.channels.find channel.id = some row) :
    (s.update rawArray channel).channels.find channel.id =
      some (row.updates (channel.recountKeys rawArray (some row))) := by
  have hrowId : row.id = channel.id := Table.key_of_find hrow
  have hid : (row.updates (channel.recountKeys rawArray (some row))).id = channel.id := hrowId
  have hold : s.channels.find (row.updates (channel.recountKeys rawArray (some row))).id =
      some row := by
    rw [hid, hrow]
  simp only [ChannelStore.update, hrow]
  rw [← hid]
  exact Table.find_save_self hold

theorem syncCache_channels (s : ChannelStore) : s.syncCache.channels = s.channels := by
  unfold ChannelStore.syncCache
  split <;> rfl

end Loaded

/-! ### The ledger -/

section Ledger

variable (rawArray : RawArray)

/-- The system, and the keys that calls have disabled and no later call enabled or deleted. -/
structure Ledger where
  system : KeySystem
  disabled : List String

def KeySystem.statusUpdate (s : KeySystem) (usingKey : String) (status : Int) (reason : String)
    (now : Int) : StatusUpdate :=
  ⟨s.channelId, usingKey, status, reason, now⟩

/-- What a call enables or deletes, and what it disables. -/
def KeySystem.effect (s : KeySystem) : KeyAct → List String × List String
  | .load | .poll _ _ => ([], [])
  | .manage slot action now =>
    match s.loaded[slot]? with
    | none => ([], [])
    | some channel =>
      match channel.manage rawArray action now with
      | .error _ => ([], [])
      | .ok _ => (channel.releasedBy rawArray action, channel.disabledBy rawArray action)
  | .update usingKey status reason now =>
    let u := s.statusUpdate usingKey status reason now
    if (s.store.updateChannelStatus rawArray u).2 = false then ([], [])
    else if status = channelStatusEnabled then ([usingKey], [])
    else
      match s.row with
      | none => ([], [])
      | some row => ([], if usingKey ∈ row.getKeys rawArray then [usingKey] else [])

def Ledger.step (t : Ledger) (a : KeyAct) : Option Ledger :=
  (t.system.step rawArray a).map fun system => {
    system := system
    disabled :=
      t.disabled.filter (· ∉ (t.system.effect rawArray a).1) ++ (t.system.effect rawArray a).2 }

/-- Every key of the ledger is disabled in the stored row. -/
def Ledger.Kept (t : Ledger) : Prop :=
  ∀ key ∈ t.disabled, ∃ row, t.system.row = some row ∧
    DisabledIn (row.getKeys rawArray) row.channelInfo key

/-- What a caller is about to write back holds every key of the ledger as disabled that the call
does not itself enable or delete; a deletion writes keys that read back as they are. -/
def Ledger.Current (t : Ledger) : KeyAct → Prop
  | .load | .update _ _ _ _ => True
  | .poll slot _ =>
    t.system.store.memoryCacheEnabled = true ∨
      ∀ channel row, t.system.loaded[slot]? = some channel → t.system.row = some row →
        channel.channelInfo.multiKeyMode = .polling →
        ∀ key ∈ t.disabled, DisabledIn (row.getKeys rawArray) channel.channelInfo key
  | .manage slot action now =>
    ∀ channel, t.system.loaded[slot]? = some channel →
      (channel.manage rawArray action now).isOk = true →
      ∀ key ∈ t.disabled, key ∉ channel.releasedBy rawArray action →
        DisabledIn (channel.getKeys rawArray) channel.channelInfo key ∧
          ∀ kept, channel.keptBy rawArray action = some kept → channel.ReadsBack rawArray kept

variable {rawArray} {s s' : KeySystem}

variable {slot : Nat} {a : KeyAct}

end Ledger

/-! ### A poll that writes back what it loaded -/

end JulongApi.Channels

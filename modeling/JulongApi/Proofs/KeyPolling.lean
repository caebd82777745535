/-
Polling takes the enabled keys in turn.

The keys that are to come are the enabled ones from the saved index on, around the list.  A call
takes the first of them and saves the index behind it, which puts that key last.
-/
import JulongApi.MultiKey
import JulongApi.Proofs.ChannelStatus
import Mathlib.Data.List.Rotate

namespace JulongApi.Channels

/-- The indices below `n` from `start` on, around the end. -/
def around (n start : Nat) : List Nat := (List.range n).map fun i => (start + i) % n

theorem around_eq_rotate (n start : Nat) : around n start = (List.range n).rotate start := by
  refine List.ext_getElem (by simp [around]) fun i hi _ => ?_
  rw [List.getElem_rotate]
  simp [around, Nat.add_comm]

variable {x : Nat} {rest : List Nat}

/-- Behind the first index that satisfies a condition, that index comes last. -/
theorem filter_around_succ {n start : Nat} {p : Nat → Bool}
    (h : (around n start).filter p = x :: rest) :
    (around n ((x + 1) % n)).filter p = rest ++ [x] := by
  have hfind : (around n start).find? p = some x := by
    rw [← List.head?_filter, h]
    rfl
  obtain ⟨hx, before, after, hsplit, hbefore⟩ := List.find?_eq_some_iff_append.mp hfind
  have hnone : before.filter p = [] :=
    List.filter_eq_nil_iff.mpr fun i hi => by simpa using hbefore i hi
  rw [hsplit, List.filter_append, hnone, List.nil_append, List.filter_cons_of_pos hx] at h
  -- `x` stands behind what comes before it
  have hn : before.length < n := by
    have hlength := congrArg List.length hsplit
    simp only [around, List.length_map, List.length_range, List.length_append,
      List.length_cons] at hlength
    omega
  have hindex : (start + before.length) % n = x := by
    have hget : (around n start)[before.length]? = some x := by
      rw [hsplit]
      simp
    simpa [around, hn] using hget
  have hrotate : around n ((x + 1) % n) = after ++ (before ++ [x]) := by
    have hlist : around n start = (before ++ [x]) ++ after := by
      rw [hsplit, List.append_assoc]
      rfl
    have hnext : (x + 1) % n = (start + (before ++ [x]).length) % n := by
      rw [← hindex, Nat.mod_add_mod, List.length_append, Nat.add_assoc]
      rfl
    have hmod := List.rotate_mod (List.range n) (start + (before ++ [x]).length)
    rw [List.length_range, ← List.rotate_rotate, ← around_eq_rotate n start, hlist,
      List.rotate_append_length_eq] at hmod
    rw [around_eq_rotate, hnext, hmod]
  rw [hrotate, List.filter_append, List.filter_append, hnone, List.nil_append,
    List.filter_cons_of_pos hx, List.filter_nil, (List.cons.inj h).2]

section Polling

variable (rawArray : RawArray)

def Channel.isEnabledKey (channel : Channel) (i : Nat) : Bool :=
  decide (channel.channelInfo.keyStatus i = channelStatusEnabled)

def Channel.enabledKeys (channel : Channel) : List Nat :=
  (List.range (channel.getKeys rawArray).length).filter channel.isEnabledKey

def ChannelInfo.pollingStart (info : ChannelInfo) (n : Nat) : Nat :=
  if info.multiKeyPollingIndex < 0 ∨ (n : Int) ≤ info.multiKeyPollingIndex then 0
  else info.multiKeyPollingIndex.toNat

/-- The enabled keys, from the polling index on. -/
def Channel.keysToCome (channel : Channel) : List Nat :=
  let n := (channel.getKeys rawArray).length
  (around n (channel.channelInfo.pollingStart n)).filter channel.isEnabledKey

/-- Calls one after the other, each on what the one before it has saved. -/
def Channel.pollKeys : Nat → Channel → Except NextKeyError (List Nat)
  | 0, _ => .ok []
  | calls + 1, channel => do
    let choice ← channel.getNextEnabledKey rawArray (some channel.channelInfo) 0
    let rest ← Channel.pollKeys calls
      { channel with channelInfo := choice.save.getD channel.channelInfo }
    return choice.index :: rest

variable {rawArray} {channel : Channel}

theorem pollingStart_natCast (info : ChannelInfo) {n next : Nat} (h : next < n) :
    ChannelInfo.pollingStart { info with multiKeyPollingIndex := next } n = next := by
  rw [ChannelInfo.pollingStart, if_neg (by dsimp only; omega)]
  exact Int.toNat_natCast next

theorem keysToCome_pos (h : channel.keysToCome rawArray = x :: rest) :
    0 < (channel.getKeys rawArray).length := by
  by_contra hnone
  have hin := (List.mem_filter.mp (h ▸ List.mem_cons_self : x ∈ channel.keysToCome rawArray)).1
  rw [Nat.eq_zero_of_not_pos hnone] at hin
  cases hin

theorem getKeys_channelInfo (info : ChannelInfo) :
    ({ channel with channelInfo := info } : Channel).getKeys rawArray = channel.getKeys rawArray :=
  rfl

/-- The key that was taken comes last. -/
theorem keysToCome_saved (h : channel.keysToCome rawArray = x :: rest) :
    Channel.keysToCome rawArray { channel with channelInfo := {
      channel.channelInfo with
      multiKeyPollingIndex := ((x + 1) % (channel.getKeys rawArray).length : Nat) } } =
        rest ++ [x] := by
  have hlt := Nat.mod_lt (x + 1) (keysToCome_pos h)
  have hstart := pollingStart_natCast channel.channelInfo hlt
  rw [Channel.keysToCome]
  simp only [getKeys_channelInfo]
  rw [hstart]
  exact filter_around_succ h

theorem getNextEnabledKey_polling (hmulti : channel.channelInfo.isMultiKey = true)
    (hpolling : channel.channelInfo.multiKeyMode = .polling)
    (h : channel.keysToCome rawArray = x :: rest) (random : Nat) :
    ∃ choice, channel.getNextEnabledKey rawArray (some channel.channelInfo) random = .ok choice ∧
      choice.index = x ∧ choice.save = some {
        channel.channelInfo with
        multiKeyPollingIndex := ((x + 1) % (channel.getKeys rawArray).length : Nat) } := by
  obtain ⟨hin, hx⟩ := List.mem_filter.mp (h ▸ List.mem_cons_self : x ∈ channel.keysToCome rawArray)
  have hpos := keysToCome_pos h
  obtain ⟨first, others, henabled⟩ : ∃ first others,
      (List.range (channel.getKeys rawArray).length).filter (fun i : Nat =>
        channel.channelInfo.keyStatus i = channelStatusEnabled) = first :: others := by
    refine List.exists_cons_of_ne_nil (List.ne_nil_of_mem (List.mem_filter.mpr ⟨?_, hx⟩))
    obtain ⟨i, -, rfl⟩ := List.mem_map.mp hin
    exact List.mem_range.mpr (Nat.mod_lt _ hpos)
  unfold Channel.keysToCome ChannelInfo.pollingStart around at h
  have hfind := congrArg List.head? h
  rw [List.head?_filter, List.find?_map, List.head?_cons] at hfind
  obtain ⟨i, hi, hindex⟩ := Option.map_eq_some_iff.mp hfind
  unfold Channel.getNextEnabledKey
  dsimp only
  rw [if_neg (by simp [hmulti]), if_neg (by simpa using List.length_pos_iff.mp hpos), henabled,
    hpolling]
  dsimp only
  simp only [Function.comp_def, Channel.isEnabledKey] at hi
  rw [hi]
  exact ⟨_, rfl, hindex, by rw [hindex]⟩

/-- As many calls as there are keys to come take them in turn. -/
theorem pollKeys_eq_take (calls : Nat) : ∀ {channel : Channel},
    channel.channelInfo.isMultiKey = true → channel.channelInfo.multiKeyMode = .polling →
      calls ≤ (channel.keysToCome rawArray).length →
        channel.pollKeys rawArray calls = .ok ((channel.keysToCome rawArray).take calls) := by
  induction calls with
  | zero => exact fun _ _ _ => rfl
  | succ calls ih =>
    intro channel hmulti hpolling hcalls
    cases hcome : channel.keysToCome rawArray with
    | nil =>
      rw [hcome] at hcalls
      cases hcalls
    | cons x rest =>
      rw [hcome, List.length_cons] at hcalls
      obtain ⟨choice, hchoice, hindex, hsave⟩ :=
        getNextEnabledKey_polling hmulti hpolling hcome 0
      have hnext : Channel.keysToCome rawArray
          { channel with channelInfo := choice.save.getD channel.channelInfo } = rest ++ [x] := by
        rw [hsave]
        exact keysToCome_saved hcome
      unfold Channel.pollKeys
      rw [hchoice, ok_bind, ih (by rw [hsave]; exact hmulti) (by rw [hsave]; exact hpolling)
        (by rw [hnext, List.length_append]; omega), hnext, hindex,
        List.take_append_of_le_length (by omega)]
      rfl

/-- **From any saved index on, as many calls in polling mode as there are enabled keys take each of
them once.** -/
theorem polled_in_turn (hmulti : channel.channelInfo.isMultiKey = true)
    (hpolling : channel.channelInfo.multiKeyMode = .polling) :
    ∃ picked, channel.pollKeys rawArray (channel.enabledKeys rawArray).length = .ok picked ∧
      picked.Perm (channel.enabledKeys rawArray) := by
  have hperm : (channel.keysToCome rawArray).Perm (channel.enabledKeys rawArray) := by
    unfold Channel.keysToCome
    dsimp only
    rw [around_eq_rotate]
    exact (List.rotate_perm _ _).filter _
  refine ⟨_, pollKeys_eq_take _ hmulti hpolling hperm.length_eq.ge, ?_⟩
  rw [← hperm.length_eq, List.take_length]
  exact hperm

end Polling

theorem polled_in_turn_two : ∃ picked,
    twoKeyChannel.pollKeys (fun _ => none) 2 = .ok picked ∧ picked.Perm [0, 1] :=
  @polled_in_turn (fun _ => none) twoKeyChannel rfl rfl

end JulongApi.Channels

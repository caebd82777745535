/-
What an edit of the keys leaves in the row.

An edit hands `Update` a text and key statuses.  The text is read back as the keys that were joined
where they are lines that survive the trimming and do not look like an array; an empty text is not
written at all.  The statuses are carried by index, so a deletion has to move them, and a text that
replaces the keys leaves them where they stood.
-/
import JulongApi.KeyEdit
import JulongApi.Lib.Lines
import JulongApi.Proofs.MultiKey
import JulongApi.Proofs.Strings

namespace JulongApi.Channels

/-! ### Keys as lines -/

def readKeys (rawArray : RawArray) (text : String) : List String :=
  if text = "" then []
  else
    let lines := split (trimChar text '\n') '\n'
    let trimmed := trimSpace text
    if (cutPrefix trimmed "[").isSome then (rawArray trimmed).getD lines else lines

theorem getKeys_eq (rawArray : RawArray) (channel : Channel) :
    channel.getKeys rawArray = readKeys rawArray channel.key := rfl

/-- The values of an array stand in its text, with a comma between two of them and brackets
around. -/
def RawArray.Inside (rawArray : RawArray) : Prop :=
  ∀ text values, rawArray text = some values →
    (values.map fun value => value.length + 1).sum < text.length

def IsKeyArray (rawArray : RawArray) (text : String) : Prop :=
  (cutPrefix (trimSpace text) "[").isSome = true ∧ (rawArray (trimSpace text)).isSome = true

structure KeyLines (rawArray : RawArray) (keys : List String) : Prop where
  /-- a key is one line -/
  line : ∀ key ∈ keys, '\n' ∉ key.toList
  head : keys.head? ≠ some ""
  last : keys.getLast? ≠ some ""
  notArray : ¬ IsKeyArray rawArray ("\n".intercalate keys)

theorem toList_joinKeys (keys : List String) :
    ("\n".intercalate keys).toList = Lines.write '\n' (keys.map String.toList) := by
  rw [String.toList_intercalate]
  rfl

theorem split_trimChar (text : String) :
    split (trimChar text '\n') '\n' = (Lines.read '\n' text.toList).map String.ofList := by
  simp only [split, trimChar, String.toList_ofList, Lines.read, Lines.trim]

variable {text key : String} {kept : List Nat} {j i : Nat}

theorem not_newline_of_mem_lines (h : key ∈ split (trimChar text '\n') '\n') :
    '\n' ∉ key.toList := by
  rw [split_trimChar] at h
  obtain ⟨piece, hpiece, rfl⟩ := List.mem_map.mp h
  rw [String.toList_ofList]
  exact Lines.not_mem_of_mem_splitOn hpiece

section Read

variable {rawArray : RawArray} {keys : List String}

theorem array_lt_keys (hinside : rawArray.Inside) {values : List String} (hkeys : keys ≠ [])
    (harray : rawArray (trimSpace ("\n".intercalate keys)) = some values) :
    (values.map fun value => value.length + 1).sum < (keys.map fun key => key.length + 1).sum := by
  have hvalues := hinside _ _ harray
  have htrim := length_trimSpace_le ("\n".intercalate keys)
  have hwrite : (Lines.write '\n' (keys.map String.toList)).length + 1
      = ((keys.map String.toList).map fun piece => piece.length + 1).sum :=
    Lines.length_write (by simpa)
  rw [← toList_joinKeys, String.length_toList, List.map_map] at hwrite
  have hlength : (keys.map ((fun piece => piece.length + 1) ∘ String.toList))
      = keys.map fun key => key.length + 1 := by
    refine List.map_congr_left ?_
    intro key _
    rw [Function.comp_apply, String.length_toList]
  rw [hlength] at hwrite
  omega

theorem readKeys_lines (htext : text ≠ "") (hnot : ¬ IsKeyArray rawArray text) :
    readKeys rawArray text = split (trimChar text '\n') '\n' := by
  unfold readKeys
  rw [if_neg htext]
  by_cases hbracket : (cutPrefix (trimSpace text) "[").isSome = true
  · have hnone : rawArray (trimSpace text) = none := by
      cases harray : rawArray (trimSpace text) with
      | none => rfl
      | some values => exact absurd ⟨hbracket, by rw [harray]; rfl⟩ hnot
    simp [hbracket, hnone]
  · simp [hbracket]

theorem readKeys_array (htext : text ≠ "") (harray : IsKeyArray rawArray text) :
    rawArray (trimSpace text) = some (readKeys rawArray text) := by
  obtain ⟨values, hvalues⟩ := Option.isSome_iff_exists.mp harray.2
  unfold readKeys
  simp [htext, harray.1, hvalues]

/-- **The keys that are read back from their lines.** -/
theorem readKeys_join_iff (hinside : rawArray.Inside) (htext : "\n".intercalate keys ≠ "") :
    readKeys rawArray ("\n".intercalate keys) = keys ↔ KeyLines rawArray keys := by
  have hkeys : keys ≠ [] := by
    intro hnil
    exact htext (by rw [hnil, String.intercalate_nil])
  have hwritten : Lines.write '\n' (keys.map String.toList) ≠ [] := by
    rw [← toList_joinKeys]
    exact fun h => htext (String.toList_eq_nil_iff.mp h)
  have hlines : split (trimChar ("\n".intercalate keys) '\n') '\n' = keys
      ↔ Lines.read '\n' (Lines.write '\n' (keys.map String.toList)) = keys.map String.toList := by
    rw [split_trimChar, toList_joinKeys]
    constructor
    · intro h
      have h' := congrArg (List.map String.toList) h
      simpa [List.map_map, Function.comp_def] using h'
    · intro h
      rw [h, List.map_map]
      simp [Function.comp_def]
  have hread := Lines.read_write_iff hwritten
  have hhead : (keys.map String.toList).head? = some [] ↔ keys.head? = some "" := by
    cases keys <;> simp
  have hlast : (keys.map String.toList).getLast? = some [] ↔ keys.getLast? = some "" := by
    rw [List.getLast?_map]
    cases keys.getLast? <;> simp
  constructor
  · intro h
    have hnot : ¬ IsKeyArray rawArray ("\n".intercalate keys) := by
      intro harray
      have hvalues := readKeys_array htext harray
      rw [h] at hvalues
      exact absurd (array_lt_keys hinside hkeys hvalues) (Nat.lt_irrefl _)
    rw [readKeys_lines htext hnot] at h
    obtain ⟨hline, hfirst, hend⟩ := hread.mp (hlines.mp h)
    exact ⟨fun key hkey => hline _ (List.mem_map_of_mem hkey), fun h => hfirst (hhead.mpr h),
      fun h => hend (hlast.mpr h), hnot⟩
  · rintro ⟨hline, hfirst, hend, hnot⟩
    rw [readKeys_lines htext hnot]
    refine hlines.mpr (hread.mpr ⟨?_, fun h => hfirst (hhead.mp h), fun h => hend (hlast.mp h)⟩)
    intro piece hpiece
    obtain ⟨key, hkey, rfl⟩ := List.mem_map.mp hpiece
    exact hline key hkey

end Read

/-! ### The row that is saved -/

section Saved

variable {rawArray : RawArray} {s : ChannelStore} {row channel : Channel}

/-- **What `Update` leaves.**  An empty text leaves the keys, and the statuses are those of the
channel that is saved. -/
theorem saved_of_update (hrow : s.channels.find channel.id = some row)
    (hmulti : channel.channelInfo.isMultiKey = true) :
    ∃ stored, (s.update rawArray channel).syncCache.channels.find channel.id = some stored ∧
      stored.getKeys rawArray =
        (if channel.key = "" then row.getKeys rawArray else readKeys rawArray channel.key) ∧
      ∀ j < (stored.getKeys rawArray).length,
        stored.channelInfo.keyStatus j = channel.channelInfo.keyStatus j := by
  obtain ⟨hkey, hmulti'⟩ := recountKeys_frame rawArray (some row) channel
  have hstored : (row.updates (channel.recountKeys rawArray (some row))).key
      = if channel.key = "" then row.key else channel.key := by
    simp only [Channel.updates, hkey]
  refine ⟨row.updates (channel.recountKeys rawArray (some row)), ?_, ?_, ?_⟩
  · rw [syncCache_channels]
    exact find_update hrow
  · rw [getKeys_eq, hstored]
    by_cases hempty : channel.key = ""
    · rw [if_pos hempty, if_pos hempty, getKeys_eq]
    · rw [if_neg hempty, if_neg hempty]
  · intro j hj
    have hsome : (row.updates (channel.recountKeys rawArray (some row))).getKeys rawArray ≠ [] := by
      intro hnil
      rw [hnil] at hj
      simp at hj
    have hcounted := countedKeys_eq rfl hsome
    have htext : (row.updates (channel.recountKeys rawArray (some row))).key
        = if channel.key ≠ "" then channel.key else ((some row).map (·.key)).getD "" := by
      rw [hstored]
      by_cases hempty : channel.key = "" <;> simp [hempty]
    rw [htext] at hcounted
    rw [updates_multi (hmulti'.trans hmulti)]
    -- the recount drops nothing below the number of keys
    unfold Channel.recountKeys ChannelInfo.keyStatus
    simp only [hmulti, if_true, hcounted]
    rw [KeyMap.get_filter (p := fun k => decide (k < _)) (decide_eq_true (by exact_mod_cast hj))]

theorem get_reindex_none {α : Type} (m : KeyMap α) (keep : Nat → Bool) (hkept : kept[j]? = some i)
    (hkeep : keep i = false) : (m.reindex kept keep).get j = none := by
  refine List.lookup_eq_none_iff.mpr ?_
  intro entry hentry
  obtain ⟨⟨old, new⟩, hmem, hentry⟩ := List.mem_filterMap.mp hentry
  obtain ⟨hold, hentry⟩ := Option.ite_none_right_eq_some.mp hentry
  obtain ⟨a, -, rfl⟩ := Option.map_eq_some_iff.mp hentry
  have hne : j ≠ new := by
    rintro rfl
    have hget := List.mem_zipIdx_iff_getElem?.mp hmem
    rw [hkept] at hget
    cases hget
    rw [hkeep] at hold
    cases hold
  simpa using hne

theorem keepKeys_keyStatus {keepNote : Nat → Bool}
    (hkept : kept[j]? = some i) :
    (row.keepKeys rawArray kept keepNote).channelInfo.keyStatus j = row.channelInfo.keyStatus i := by
  by_cases hoff : row.channelInfo.keyStatus i ≠ channelStatusEnabled
  · have hget := get_reindex row.channelInfo.multiKeyStatusList
      (fun i : Nat => decide (row.channelInfo.keyStatus i ≠ channelStatusEnabled)) hkept
      (decide_eq_true hoff)
    exact congrArg (fun status => Option.getD status channelStatusEnabled) hget
  · have hget := get_reindex_none row.channelInfo.multiKeyStatusList
      (fun i : Nat => decide (row.channelInfo.keyStatus i ≠ channelStatusEnabled)) hkept
      (decide_eq_false hoff)
    have hon : row.channelInfo.keyStatus i = channelStatusEnabled := not_not.mp hoff
    rw [hon]
    exact congrArg (fun status => Option.getD status channelStatusEnabled) hget

end Saved

/-! ### What an edit is to leave -/

/-- The keys of a row at some of its indices, each with its index. -/
def survivors (rawArray : RawArray) (row : Channel) (kept : List Nat) :
    List (String × Option Nat) :=
  kept.map fun i => ((row.getKeys rawArray).getD i "", some i)

def appendedKeys (rawArray : RawArray) (vertexArray : VertexArray) (row : Channel)
    (patch : PatchChannel) : List String :=
  dedupedNewKeys (seenKeys (row.getKeys rawArray))
    ((patch.newKeys vertexArray).toOption.getD [])

/-- The keys an append writes: those that are found in the row, and the new ones. -/
def writtenKeys (rawArray : RawArray) (vertexArray : VertexArray) (row : Channel)
    (patch : PatchChannel) : List String :=
  let existing := existingKeys rawArray row.key
  existing ++ dedupedNewKeys (seenKeys existing) ((patch.newKeys vertexArray).toOption.getD [])

/-- The keys an edit is to leave, a key that survives with the index it had. -/
def KeyEdit.intended (rawArray : RawArray) (vertexArray : VertexArray) (row : Channel) :
    KeyEdit → List (String × Option Nat)
  | .deleteKey keyIndex =>
    survivors rawArray row
      ((List.range (row.getKeys rawArray).length).filter fun i : Nat => (i : Int) ≠ keyIndex)
  | .deleteDisabledKeys =>
    survivors rawArray row ((List.range (row.getKeys rawArray).length).filter fun i : Nat =>
      row.channelInfo.keyStatus i ≠ channelStatusAutoDisabled)
  | .update patch =>
    if patch.keyMode = some "append" then
      survivors rawArray row (List.range (row.getKeys rawArray).length) ++
        (appendedKeys rawArray vertexArray row patch).map fun key => (key, none)
    -- a request without keys leaves them
    else if patch.channel.key = "" then
      survivors rawArray row (List.range (row.getKeys rawArray).length)
    else (readKeys rawArray patch.channel.key).map fun key => (key, none)

/-- The status of a key that was written at an index: enabled for a key that was not in the list,
and else one that the key had. -/
def StatusOfKey (rawArray : RawArray) (row : Channel) (key : String) (status : Int) : Prop :=
  (key ∉ row.getKeys rawArray → status = channelStatusEnabled) ∧
    (key ∈ row.getKeys rawArray → ∃ i : Nat, (row.getKeys rawArray)[i]? = some key ∧
      status = row.channelInfo.keyStatus i)

/-- The row that is stored after an edit of `row` has the keys of the plan, with their
statuses. -/
structure Carries (rawArray : RawArray) (row stored : Channel) (plan : List (String × Option Nat)) :
    Prop where
  keys : stored.getKeys rawArray = plan.map (·.1)
  survivor : ∀ (j : Nat) key (i : Nat), plan[j]? = some (key, some i) →
    stored.channelInfo.keyStatus j = row.channelInfo.keyStatus i
  fresh : ∀ (j : Nat) key, plan[j]? = some (key, none) →
    StatusOfKey rawArray row key (stored.channelInfo.keyStatus j)

/-- Keys that are written in place of those of a row and read back. -/
def Restores (rawArray : RawArray) (row : Channel) (written intended : List String) : Prop :=
  ("\n".intercalate written ≠ "" ∧ written = intended ∧ KeyLines rawArray written) ∨
    -- an empty text is not written
    ("\n".intercalate written = "" ∧ intended = row.getKeys rawArray)

/-- **The condition under which an edit leaves what it is to leave.** -/
def KeyEdit.Faithful (rawArray : RawArray) (vertexArray : VertexArray) (row : Channel) (edit : KeyEdit) :
    Prop :=
  match edit with
  | .deleteKey _ | .deleteDisabledKeys =>
    let kept := (edit.intended rawArray vertexArray row).map (·.1)
    Restores rawArray row kept kept
  | .update patch =>
    let keys := row.getKeys rawArray
    if patch.keyMode = some "append" then
      let appended := appendedKeys rawArray vertexArray row patch
      Restores rawArray row (writtenKeys rawArray vertexArray row patch) (keys ++ appended) ∧
        -- no status of an earlier key waits at the index of a new one
        ∀ j, keys.length ≤ j → j < keys.length + appended.length →
          row.channelInfo.keyStatus j = channelStatusEnabled
    else
      patch.channel.key = "" ∨
        -- the statuses stay at their indices
        ∀ (j : Nat) key, (readKeys rawArray patch.channel.key)[j]? = some key →
          StatusOfKey rawArray row key (row.channelInfo.keyStatus j)

section Edits

variable {rawArray : RawArray} {vertexArray : VertexArray} {row stored channel : Channel}

theorem restores_iff (hinside : rawArray.Inside) (keys : List String) :
    (if "\n".intercalate keys = "" then row.getKeys rawArray
      else readKeys rawArray ("\n".intercalate keys)) = keys
      ↔ Restores rawArray row keys keys := by
  unfold Restores
  by_cases htext : "\n".intercalate keys = ""
  · simp [htext, eq_comm]
  · rw [if_neg htext, readKeys_join_iff hinside htext]
    simp [htext]

theorem survivors_getElem? (h : (survivors rawArray row kept)[j]? = some (key, some i)) :
    kept[j]? = some i := by
  rw [survivors, List.getElem?_map] at h
  obtain ⟨i', hi, hpair⟩ := Option.map_eq_some_iff.mp h
  rw [hi]
  have hsome := congrArg Prod.snd hpair
  simpa using hsome

theorem survivors_not_fresh : (survivors rawArray row kept)[j]? ≠ some (key, none) := by
  intro h
  rw [survivors, List.getElem?_map] at h
  obtain ⟨i, -, hpair⟩ := Option.map_eq_some_iff.mp h
  cases hpair

theorem survivors_keys (kept : List Nat) :
    (survivors rawArray row kept).map (·.1)
      = kept.map fun i => (row.getKeys rawArray).getD i "" := by
  rw [survivors, List.map_map]
  rfl

theorem survivors_all :
    (survivors rawArray row (List.range (row.getKeys rawArray).length)).map (·.1)
      = row.getKeys rawArray := by
  rw [survivors_keys]
  refine List.ext_getElem? ?_
  intro j
  rw [List.getElem?_map]
  by_cases hj : j < (row.getKeys rawArray).length
  · rw [List.getElem?_range hj]
    simp [hj]
  · rw [List.getElem?_eq_none (by simpa using hj), List.getElem?_eq_none (by omega)]
    rfl

theorem carries_iff {plan : List (String × Option Nat)}
    (hstatus : ∀ j < (stored.getKeys rawArray).length,
      stored.channelInfo.keyStatus j = channel.channelInfo.keyStatus j) :
    Carries rawArray row stored plan ↔
      stored.getKeys rawArray = plan.map (·.1) ∧
        (∀ (j : Nat) key (i : Nat), plan[j]? = some (key, some i) →
          channel.channelInfo.keyStatus j = row.channelInfo.keyStatus i) ∧
        ∀ (j : Nat) key, plan[j]? = some (key, none) →
          StatusOfKey rawArray row key (channel.channelInfo.keyStatus j) := by
  have hlt : stored.getKeys rawArray = plan.map (·.1) → ∀ (j : Nat) entry,
      plan[j]? = some entry → j < (stored.getKeys rawArray).length := by
    intro hkeys j entry hentry
    rw [hkeys, List.length_map]
    exact (List.getElem?_eq_some_iff.mp hentry).1
  constructor
  · intro h
    refine ⟨h.keys, ?_, ?_⟩
    · intro j key i hentry
      rw [← hstatus j (hlt h.keys j _ hentry)]
      exact h.survivor j key i hentry
    · intro j key hentry
      rw [← hstatus j (hlt h.keys j _ hentry)]
      exact h.fresh j key hentry
  · rintro ⟨hkeys, hsurvivor, hfresh⟩
    refine ⟨hkeys, ?_, ?_⟩
    · intro j key i hentry
      rw [hstatus j (hlt hkeys j _ hentry)]
      exact hsurvivor j key i hentry
    · intro j key hentry
      rw [hstatus j (hlt hkeys j _ hentry)]
      exact hfresh j key hentry

/-! ### Deletions -/

theorem deletion_carries_iff (hinside : rawArray.Inside) {keepNote : Nat → Bool}
    (hkey : channel.key = (row.keepKeys rawArray kept keepNote).key)
    (hinfo : channel.channelInfo = (row.keepKeys rawArray kept keepNote).channelInfo)
    (hkeys : stored.getKeys rawArray =
      if channel.key = "" then row.getKeys rawArray else readKeys rawArray channel.key)
    (hstatus : ∀ j < (stored.getKeys rawArray).length,
      stored.channelInfo.keyStatus j = channel.channelInfo.keyStatus j) :
    Carries rawArray row stored (survivors rawArray row kept) ↔
      Restores rawArray row ((survivors rawArray row kept).map (·.1))
        ((survivors rawArray row kept).map (·.1)) := by
  have htext : channel.key = "\n".intercalate ((survivors rawArray row kept).map (·.1)) := by
    rw [hkey, survivors_keys]
    rfl
  rw [carries_iff hstatus, hkeys, htext, restores_iff hinside, and_iff_left]
  refine ⟨?_, fun j key h => absurd h survivors_not_fresh⟩
  intro j key i hentry
  rw [hinfo]
  exact keepKeys_keyStatus (survivors_getElem? hentry)

/-! ### Appends -/

theorem mem_dedupedNewKeys : ∀ {newKeys seen : List String},
    key ∈ dedupedNewKeys seen newKeys ↔
      key ≠ "" ∧ key ∉ seen ∧ key ∈ newKeys.map trimSpace := by
  intro newKeys
  induction newKeys with
  | nil => intro seen; simp [dedupedNewKeys]
  | cons head rest ih =>
    intro seen
    rw [dedupedNewKeys]
    by_cases hhead : trimSpace head = "" ∨ trimSpace head ∈ seen
    · rw [if_pos hhead, ih, List.map_cons, List.mem_cons]
      constructor
      · rintro ⟨hne, hseen, hmem⟩
        exact ⟨hne, hseen, .inr hmem⟩
      · rintro ⟨hne, hseen, rfl | hmem⟩
        · exact absurd hhead (by simp [hne, hseen])
        · exact ⟨hne, hseen, hmem⟩
    · rw [not_or] at hhead
      rw [if_neg (by simpa using hhead), List.mem_cons, ih, List.map_cons, List.mem_cons,
        List.mem_cons]
      constructor
      · rintro (rfl | ⟨hne, hseen, hmem⟩)
        · exact ⟨hhead.1, hhead.2, .inl rfl⟩
        · exact ⟨hne, fun h => hseen (.inr h), .inr hmem⟩
      · rintro ⟨hne, hseen, rfl | hmem⟩
        · exact .inl rfl
        · by_cases heq : key = trimSpace head
          · exact .inl heq
          · exact .inr ⟨hne, by simp [heq, hseen], hmem⟩

theorem nodup_dedupedNewKeys : ∀ (newKeys seen : List String),
    (dedupedNewKeys seen newKeys).Nodup := by
  intro newKeys
  induction newKeys with
  | nil => intro seen; exact List.nodup_nil
  | cons head rest ih =>
    intro seen
    rw [dedupedNewKeys]
    by_cases hhead : trimSpace head = "" ∨ trimSpace head ∈ seen
    · rw [if_pos hhead]
      exact ih seen
    · rw [if_neg hhead, List.nodup_cons]
      refine ⟨?_, ih _⟩
      intro hmem
      exact (mem_dedupedNewKeys.mp hmem).2.1 (by simp)

theorem mem_seenKeys {existing : List String} :
    key ∈ seenKeys existing ↔ key ≠ "" ∧ key ∈ existing.map trimSpace := by
  unfold seenKeys
  rw [List.mem_filter, decide_eq_true_eq, and_comm]

/-- Keys that are read back as lines of a row and further keys of their own are lines
themselves. -/
theorem keyLines_of_read (hinside : rawArray.Inside) {written lines rest : List String}
    (hnodup : written.Nodup) (hne : "" ∉ written) (hlines : ∀ key ∈ lines, '\n' ∉ key.toList)
    (hsub : ∀ key ∈ written, key ∈ lines.map trimSpace ∨ key ∈ rest)
    (htext : "\n".intercalate written ≠ "")
    (hread : readKeys rawArray ("\n".intercalate written) = lines ++ rest) :
    KeyLines rawArray written := by
  have hwritten : written ≠ [] := by
    intro hnil
    exact htext (by rw [hnil, String.intercalate_nil])
  have hnot : ¬ IsKeyArray rawArray ("\n".intercalate written) := by
    intro harray
    have hvalues := readKeys_array htext harray
    rw [hread] at hvalues
    have hlt := array_lt_keys hinside hwritten hvalues
    -- the keys all fit into what is read
    obtain ⟨found, hperm, hfound⟩ := List.subperm_of_subset hnodup
      fun key hkey => List.mem_append.mpr (hsub key hkey)
    have hwithin := (hfound.map fun key => key.length + 1).sum_le_sum fun n _ => Nat.zero_le n
    have hsame := (hperm.map fun key : String => key.length + 1).sum_eq
    have htrimmed : ((lines.map trimSpace).map fun key => key.length + 1).sum
        ≤ (lines.map fun key => key.length + 1).sum := by
      rw [List.map_map]
      refine List.sum_le_sum ?_
      intro key _
      have hkey := length_trimSpace_le key
      simp only [Function.comp_apply]
      omega
    rw [List.map_append, List.sum_append] at hlt hwithin
    omega
  rw [readKeys_lines htext hnot] at hread
  have hrest : ∀ key ∈ rest, '\n' ∉ key.toList := by
    intro key hkey
    have hmem : key ∈ split (trimChar ("\n".intercalate written) '\n') '\n' := by
      rw [hread]
      exact List.mem_append_right _ hkey
    exact not_newline_of_mem_lines hmem
  refine ⟨?_, ?_, ?_, hnot⟩
  · intro key hkey
    rcases hsub key hkey with hmem | hmem
    · obtain ⟨line, hline, rfl⟩ := List.mem_map.mp hmem
      exact fun h => hlines line hline (mem_of_mem_trimSpace h)
    · exact hrest key hmem
  · exact fun h => hne (List.mem_of_head? h)
  · exact fun h => hne (List.mem_of_getLast? h)

/-- The keys that are found in a row: those it has, unless its text looks like an array and does
not decode. -/
theorem existingKeys_cases (hrow : row.key ≠ "") :
    existingKeys rawArray row.key = row.getKeys rawArray ∨
      existingKeys rawArray row.key = [] ∧
        ∀ key ∈ row.getKeys rawArray, '\n' ∉ key.toList := by
  unfold existingKeys
  rw [getKeys_eq]
  by_cases hbracket : (cutPrefix (trimSpace row.key) "[").isSome = true
  · cases harray : rawArray (trimSpace row.key) with
    | some values =>
      left
      simp [readKeys, hrow, hbracket, harray]
    | none =>
      right
      have hnot : ¬ IsKeyArray rawArray row.key := by
        intro h
        rw [IsKeyArray, harray] at h
        cases h.2
      refine ⟨by simp [hbracket, harray], ?_⟩
      rw [readKeys_lines hrow hnot]
      exact fun key hkey => not_newline_of_mem_lines hkey
  · left
    simp [readKeys, hrow, hbracket]

variable {patch : PatchChannel}

theorem writtenKeys_of_ok {newKeys : List String} (hnew : patch.newKeys vertexArray = .ok newKeys) :
    writtenKeys rawArray vertexArray row patch
      = existingKeys rawArray row.key
        ++ dedupedNewKeys (seenKeys (existingKeys rawArray row.key)) newKeys := by
  unfold writtenKeys
  rw [hnew]
  rfl

theorem append_keys_iff (hinside : rawArray.Inside) (hrow : row.key ≠ "") (patch : PatchChannel) :
    (if "\n".intercalate (writtenKeys rawArray vertexArray row patch) = "" then
        row.getKeys rawArray
      else readKeys rawArray ("\n".intercalate (writtenKeys rawArray vertexArray row patch)))
        = row.getKeys rawArray ++ appendedKeys rawArray vertexArray row patch ↔
      Restores rawArray row (writtenKeys rawArray vertexArray row patch)
        (row.getKeys rawArray ++ appendedKeys rawArray vertexArray row patch) := by
  rcases @existingKeys_cases rawArray _ hrow with hexisting | ⟨hexisting, hlines⟩
  · have hsame : writtenKeys rawArray vertexArray row patch
        = row.getKeys rawArray ++ appendedKeys rawArray vertexArray row patch := by
      unfold writtenKeys appendedKeys
      rw [hexisting]
    rw [← hsame]
    exact restores_iff hinside _
  · have hwritten : writtenKeys rawArray vertexArray row patch
        = dedupedNewKeys [] ((patch.newKeys vertexArray).toOption.getD []) := by
      unfold writtenKeys
      rw [hexisting]
      rfl
    generalize writtenKeys rawArray vertexArray row patch = written at hwritten ⊢
    unfold Restores
    by_cases htext : "\n".intercalate written = ""
    · rw [if_pos htext]
      constructor
      · intro hnone
        exact .inr ⟨htext, hnone.symm⟩
      · rintro (⟨hsome, -⟩ | ⟨-, hnone⟩)
        · exact absurd htext hsome
        · exact hnone.symm
    · rw [if_neg htext]
      constructor
      · intro hread
        have hnodup : written.Nodup := by
          rw [hwritten]
          exact nodup_dedupedNewKeys _ []
        have hne : "" ∉ written := by
          rw [hwritten]
          exact fun h => (mem_dedupedNewKeys.mp h).1 rfl
        have hsub : ∀ key ∈ written, key ∈ (row.getKeys rawArray).map trimSpace ∨
            key ∈ appendedKeys rawArray vertexArray row patch := by
          intro key hkey
          rw [hwritten] at hkey
          obtain ⟨hempty, -, hmem⟩ := mem_dedupedNewKeys.mp hkey
          by_cases hseen : key ∈ seenKeys (row.getKeys rawArray)
          · exact .inl (mem_seenKeys.mp hseen).2
          · exact .inr (mem_dedupedNewKeys.mpr ⟨hempty, hseen, hmem⟩)
        have hkeys := keyLines_of_read hinside hnodup hne hlines hsub htext hread
        have hback := (readKeys_join_iff hinside htext).mpr hkeys
        exact .inl ⟨htext, by rw [← hback, hread], hkeys⟩
      · rintro (⟨-, hsame, hkeys⟩ | ⟨hempty, -⟩)
        · rw [(readKeys_join_iff hinside htext).mpr hkeys, hsame]
        · exact absurd hempty htext

theorem not_mem_of_appended (h : key ∈ appendedKeys rawArray vertexArray row patch) :
    key ∉ row.getKeys rawArray := by
  intro hmem
  obtain ⟨hempty, hseen, hnew⟩ := mem_dedupedNewKeys.mp h
  obtain ⟨raw, -, rfl⟩ := List.mem_map.mp hnew
  refine hseen (mem_seenKeys.mpr ⟨hempty, List.mem_map.mpr ⟨_, hmem, ?_⟩⟩)
  exact trimSpace_trimSpace raw

theorem survivors_all_status
    (h : (survivors rawArray row (List.range (row.getKeys rawArray).length))[j]?
      = some (key, some i)) : i = j := by
  have hrange := survivors_getElem? h
  obtain ⟨hlt, hget⟩ := List.getElem?_eq_some_iff.mp hrange
  rw [← hget, List.getElem_range]

@[simp] theorem length_survivors (kept : List Nat) :
    (survivors rawArray row kept).length = kept.length := by
  simp [survivors]

theorem appended_getElem? {appended : List String} :
    (survivors rawArray row (List.range (row.getKeys rawArray).length) ++
        appended.map fun key => (key, (none : Option Nat)))[j]? = some (key, none)
      ↔ (row.getKeys rawArray).length ≤ j ∧
          appended[j - (row.getKeys rawArray).length]? = some key := by
  by_cases hj : j < (row.getKeys rawArray).length
  · rw [List.getElem?_append_left (by simpa using hj)]
    constructor
    · intro h
      exact absurd h survivors_not_fresh
    · intro h
      omega
  · rw [List.getElem?_append_right (by simpa using hj), length_survivors, List.length_range,
      List.getElem?_map]
    have hle : (row.getKeys rawArray).length ≤ j := by omega
    simp [hle]

theorem appended_enabled_iff (patch : PatchChannel) :
    (∀ (j : Nat) key,
        (survivors rawArray row (List.range (row.getKeys rawArray).length) ++
          (appendedKeys rawArray vertexArray row patch).map
            fun key => (key, (none : Option Nat)))[j]? = some (key, none) →
        StatusOfKey rawArray row key (row.channelInfo.keyStatus j)) ↔
      ∀ j, (row.getKeys rawArray).length ≤ j →
        j < (row.getKeys rawArray).length + (appendedKeys rawArray vertexArray row patch).length →
          row.channelInfo.keyStatus j = channelStatusEnabled := by
  constructor
  · intro h j hle hlt
    have hget : j - (row.getKeys rawArray).length
        < (appendedKeys rawArray vertexArray row patch).length := by omega
    have hkey := List.getElem?_eq_getElem hget
    have hstatus := h j _ (appended_getElem?.mpr ⟨hle, hkey⟩)
    exact hstatus.1 (not_mem_of_appended (List.getElem_mem hget))
  · intro h j key hentry
    obtain ⟨hle, hkey⟩ := appended_getElem?.mp hentry
    obtain ⟨hlt, hget⟩ := List.getElem?_eq_some_iff.mp hkey
    have hnew : key ∉ row.getKeys rawArray := by
      rw [← hget]
      exact not_mem_of_appended (List.getElem_mem hlt)
    exact ⟨fun _ => h j hle (by omega), fun hmem => absurd hmem hnew⟩

/-! ### `UpdateChannel` -/

theorem prepare_eq_ok (hmulti : row.channelInfo.isMultiKey = true) (hrow : row.key ≠ "")
    (h : patch.prepare rawArray vertexArray row = .ok channel) :
    channel.id = patch.channel.id ∧ channel.channelInfo.isMultiKey = true ∧
      (∀ j, channel.channelInfo.keyStatus j = row.channelInfo.keyStatus j) ∧
      channel.key =
        if patch.keyMode = some "append" then
          "\n".intercalate (writtenKeys rawArray vertexArray row patch)
        else patch.channel.key := by
  unfold PatchChannel.prepare at h
  dsimp only at h
  split at h
  · next hcond =>
    obtain ⟨newKeys, hnew, h⟩ := bind_eq_ok.mp h
    have hchannel := Except.ok.inj h
    rw [if_pos hcond.2.1, writtenKeys_of_ok hnew, ← hchannel]
    refine ⟨rfl, hmulti, fun _ => rfl, ?_⟩
    dsimp only
  · next hcond =>
    cases h
    have hmode : patch.keyMode ≠ some "append" := fun hmode => hcond ⟨hmulti, hmode, hrow⟩
    rw [if_neg hmode]
    exact ⟨rfl, hmulti, fun _ => rfl, rfl⟩

theorem update_carries_iff (hinside : rawArray.Inside) (hrow : row.key ≠ "")
    (hinfo : ∀ j, channel.channelInfo.keyStatus j = row.channelInfo.keyStatus j)
    (htext : channel.key =
      if patch.keyMode = some "append" then
        "\n".intercalate (writtenKeys rawArray vertexArray row patch)
      else patch.channel.key) (hkeys : stored.getKeys rawArray =
      if channel.key = "" then row.getKeys rawArray else readKeys rawArray channel.key)
    (hstatus : ∀ j < (stored.getKeys rawArray).length,
      stored.channelInfo.keyStatus j = channel.channelInfo.keyStatus j) :
    Carries rawArray row stored ((KeyEdit.update patch).intended rawArray vertexArray row) ↔
      (KeyEdit.update patch).Faithful rawArray vertexArray row := by
  rw [carries_iff hstatus, hkeys]
  simp only [hinfo]
  unfold KeyEdit.intended KeyEdit.Faithful
  dsimp only
  by_cases hmode : patch.keyMode = some "append"
  · rw [if_pos hmode] at htext
    rw [if_pos hmode, if_pos hmode, htext, List.map_append, survivors_all, List.map_map,
      show ((fun entry : String × Option Nat => entry.1) ∘ fun key => (key, none)) = id from rfl,
      List.map_id, append_keys_iff hinside hrow patch, appended_enabled_iff]
    refine and_congr_right fun _ => and_iff_right ?_
    intro j key i hentry
    by_cases hj : j < (row.getKeys rawArray).length
    · rw [List.getElem?_append_left (by simpa using hj)] at hentry
      rw [survivors_all_status hentry]
    · rw [List.getElem?_append_right (by simpa using hj), List.getElem?_map] at hentry
      obtain ⟨_, -, hpair⟩ := Option.map_eq_some_iff.mp hentry
      cases hpair
  · rw [if_neg hmode] at htext
    rw [if_neg hmode, if_neg hmode, htext]
    by_cases hempty : patch.channel.key = ""
    · rw [if_pos hempty, if_pos hempty, survivors_all]
      refine iff_of_true ⟨rfl, ?_, fun j key h => absurd h survivors_not_fresh⟩ (.inl hempty)
      intro j key i hentry
      rw [survivors_all_status hentry]
    · rw [if_neg hempty, if_neg hempty, List.map_map,
        show ((fun entry : String × Option Nat => entry.1) ∘ fun key => (key, none)) = id from rfl,
        List.map_id, or_iff_right hempty]
      have hentry : ∀ (j : Nat) key (origin : Option Nat),
          ((readKeys rawArray patch.channel.key).map
            fun key => (key, (none : Option Nat)))[j]? = some (key, origin)
          ↔ (readKeys rawArray patch.channel.key)[j]? = some key ∧ origin = none := by
        intro j key origin
        rw [List.getElem?_map]
        cases (readKeys rawArray patch.channel.key)[j]? with
        | none => simp
        | some found => simp [eq_comm]
      simp only [hentry, reduceCtorEq, and_false, false_implies, implies_true, true_and, and_true]

/-! ### All edits -/

theorem mapError_eq_ok {α ε ε' : Type} {x : Except ε α} {f : ε → ε'} {a : α}
    (h : x.mapError f = .ok a) : x = .ok a := by
  cases x with
  | error e => cases h
  | ok b => exact congrArg Except.ok (Except.ok.inj h)

theorem deletion_eq_ok {action : MultiKeyAction} {now : Int}
    (hkept : channel.keptBy rawArray action = some kept) {after : Channel}
    (h : channel.manage rawArray action now = .ok after) :
    ∃ keepNote, after.id = channel.id ∧ after.channelInfo.isMultiKey = true ∧
      after.key = (channel.keepKeys rawArray kept keepNote).key ∧
      after.channelInfo = (channel.keepKeys rawArray kept keepNote).channelInfo := by
  obtain ⟨hmulti, changed, hchange, hkey, hid, hinfo⟩ := manage_eq_ok h
  obtain ⟨hid', hmulti'⟩ := changeKeys_frame hchange
  have hchanged : ∃ keepNote, changed = channel.keepKeys rawArray kept keepNote := by
    cases action with
    | deleteKey keyIndex =>
      obtain ⟨index, hindex, hkeep⟩ := bind_eq_ok.mp hchange
      obtain ⟨rfl, -⟩ := requireKeyIndex_eq_ok hindex
      simp only [] at hkeep
      split at hkeep
      · cases hkeep
      · cases hkeep
        cases hkept
        exact ⟨_, rfl⟩
    | deleteDisabledKeys =>
      simp only [Channel.changeKeys] at hchange
      split at hchange
      · cases hchange
      · cases hchange
        cases hkept
        exact ⟨_, rfl⟩
    | _ => cases hkept
  obtain ⟨keepNote, rfl⟩ := hchanged
  exact ⟨keepNote, hid.trans hid', by rw [hinfo, hmulti', hmulti], hkey, hinfo⟩

/-- **An edit leaves the keys and the statuses it is to leave exactly where it is faithful.** -/
theorem edit_carries_iff (hinside : rawArray.Inside) {s s' : ChannelStore} {id : Int}
    {edit : KeyEdit} {now : Int} (hfind : s.channels.find id = some row)
    (hmulti : row.channelInfo.isMultiKey = true) (hrow : row.key ≠ "")
    (hedit : s.editKeys rawArray vertexArray id edit now = .ok s') :
    ∃ stored, s'.channels.find id = some stored ∧
      (Carries rawArray row stored (edit.intended rawArray vertexArray row) ↔
        edit.Faithful rawArray vertexArray row) := by
  obtain rfl : row.id = id := Table.key_of_find hfind
  unfold ChannelStore.editKeys at hedit
  rw [hfind] at hedit
  dsimp only at hedit
  cases hprepare : edit.prepare rawArray vertexArray row now with
  | error e =>
    rw [hprepare] at hedit
    cases hedit
  | ok channel =>
    rw [hprepare] at hedit
    cases hedit
    cases edit with
    | deleteKey keyIndex =>
      obtain ⟨keepNote, hid, hmulti', hkey, hinfo⟩ :=
        deletion_eq_ok rfl (mapError_eq_ok hprepare)
      rw [← hid] at hfind ⊢
      obtain ⟨stored, hstored, hkeys, hstatus⟩ :=
        @saved_of_update rawArray _ _ _ hfind hmulti'
      exact ⟨stored, hstored, deletion_carries_iff hinside hkey hinfo hkeys hstatus⟩
    | deleteDisabledKeys =>
      obtain ⟨keepNote, hid, hmulti', hkey, hinfo⟩ :=
        deletion_eq_ok rfl (mapError_eq_ok hprepare)
      rw [← hid] at hfind ⊢
      obtain ⟨stored, hstored, hkeys, hstatus⟩ :=
        @saved_of_update rawArray _ _ _ hfind hmulti'
      exact ⟨stored, hstored, deletion_carries_iff hinside hkey hinfo hkeys hstatus⟩
    | update patch =>
      obtain ⟨hid, hmulti', hinfo, htext⟩ :=
        prepare_eq_ok hmulti hrow (mapError_eq_ok hprepare)
      have hid' : channel.id = row.id := hid
      rw [← hid'] at hfind ⊢
      obtain ⟨stored, hstored, hkeys, hstatus⟩ :=
        @saved_of_update rawArray _ _ _ hfind hmulti'
      exact ⟨stored, hstored, update_carries_iff hinside hrow hinfo htext hkeys hstatus⟩

end Edits

/-- The channel of the keys `a` and `b`, some of them disabled automatically. -/
def disabledKeysChannel (disabled : List Int) : Channel :=
  { twoKeyChannel with
    channelInfo := {
      twoKeyChannel.channelInfo with
      multiKeyStatusList := disabled.map fun i => (i, channelStatusAutoDisabled) } }

def disabledKeysStore (disabled : List Int) : ChannelStore :=
  { twoKeyStore with
    memoryCacheEnabled := false
    channels := ⟨[disabledKeysChannel disabled], by simp⟩ }

theorem noArray_inside : RawArray.Inside fun _ => none := by
  intro text values h
  cases h

/-- The key `a` is deleted and `b` is left. -/
theorem deleted_key_carried : ∃ s' stored,
    (disabledKeysStore [0]).editKeys (fun _ => none) (fun _ => .error "") 7 .deleteDisabledKeys 0
        = .ok s' ∧
      s'.channels.find 7 = some stored ∧ stored.getKeys (fun _ => none) = ["b"] ∧
      (Carries (fun _ => none) (disabledKeysChannel [0]) stored
          (KeyEdit.deleteDisabledKeys.intended (fun _ => none) (fun _ => .error "")
            (disabledKeysChannel [0])) ↔
        KeyEdit.deleteDisabledKeys.Faithful (fun _ => none) (fun _ => .error "")
          (disabledKeysChannel [0])) := by
  obtain ⟨stored, hstored, hiff⟩ := @edit_carries_iff (fun _ => none) (fun _ => .error "")
    (disabledKeysChannel [0]) noArray_inside (disabledKeysStore [0]) _ 7 .deleteDisabledKeys 0 rfl
    rfl (by decide) rfl
  refine ⟨_, stored, rfl, hstored, ?_, hiff⟩
  cases hstored
  decide +kernel

/-- Where all keys are disabled automatically, deleting them enables all of them. -/
theorem all_disabled_enabled : ¬ ∀ (rawArray : RawArray) (vertexArray : VertexArray),
    rawArray.Inside → ∀ (s s' : ChannelStore) (id : Int) (edit : KeyEdit) (now : Int)
      (row stored : Channel),
      s.channels.find id = some row → row.channelInfo.isMultiKey = true → row.key ≠ "" →
        s.editKeys rawArray vertexArray id edit now = .ok s' →
          s'.channels.find id = some stored →
            Carries rawArray row stored (edit.intended rawArray vertexArray row) := by
  intro hall
  have h := hall (fun _ => none) (fun _ => .error "") noArray_inside (disabledKeysStore [0, 1]) _ 7
    .deleteDisabledKeys 0 (disabledKeysChannel [0, 1]) _ rfl rfl (by decide) rfl rfl
  have hkeys := h.keys
  revert hkeys
  decide +kernel

end JulongApi.Channels

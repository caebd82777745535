/-
What the batch updater keeps of the deltas it is given.

A delta is in a map, in the hands of a flush, or in its row.  Taking a map moves it from
the first place to the second, a write that goes through from the second to the third,
and neither changes the sum of the three (`step_total`).  The sum changes when a record
is added, by its value.

Two things break this: a write that fails, because the flush forgets the entry, and a sum
that leaves the range of an `int`, because it is cut off.  Without them nothing is lost or
written twice, whatever the order (`stored_add_pending`).
-/
import JulongApi.BatchUpdate

namespace JulongApi

/-! ### Maps -/

namespace BatchStore

variable {store : BatchStore} {id id' : Nat} {value : Int}

@[simp] theorem get_empty : get empty id = 0 := rfl

theorem get_put_self : get (store.put (id, value)) id = value := by
  have hfind : (store.put (id, value)).find id = some (id, value) :=
    store.find_put_self (id, value)
  rw [get, hfind]
  rfl

theorem get_put_ne (h : id ≠ id') : get (store.put (id, value)) id' = store.get id' := by
  have hfind : (store.put (id, value)).find id' = store.find id' := Table.find_put_ne h
  rw [get, hfind]
  rfl

theorem get_erase : get (store.erase id') id = if id = id' then 0 else store.get id := by
  by_cases h : id = id'
  · subst h
    rw [if_pos rfl, get, Table.find_erase_self]
    rfl
  · rw [if_neg h, get, Table.find_erase_ne (Ne.symm h)]
    rfl

/-- The record can be added without leaving the range of an `int`. -/
def Fits (store : BatchStore) (id : Nat) (value : Int) : Prop :=
  ∀ entry, store.find id = some entry → -2 ^ 63 ≤ entry.2 + value ∧ entry.2 + value < 2 ^ 63

theorem get_addNewRecord_self (h : store.Fits id value) :
    (store.addNewRecord id value).get id = store.get id + value := by
  unfold addNewRecord
  split
  · rename_i hnone
    have hget : store.get id = 0 := by rw [get, hnone]; rfl
    rw [get_put_self, hget, zero_add]
  · rename_i key old hsome
    obtain ⟨hlow, hhigh⟩ := h _ hsome
    have hwrap : wrapInt64 (old + value) = old + value := wrapInt64_eq ⟨hlow, hhigh⟩
    have hget : store.get id = old := by rw [get, hsome]; rfl
    simp only [hwrap]
    rw [if_neg (by omega), get_put_self, hget]

theorem get_addNewRecord_ne (h : id ≠ id') :
    (store.addNewRecord id value).get id' = store.get id' := by
  unfold addNewRecord
  split
  · exact get_put_ne h
  · dsimp only
    split <;> exact get_put_ne h

end BatchStore

/-! ### Rows -/

variable {types : List BatchUpdateType}

namespace BatchDB

variable {db : BatchDB} {type : BatchUpdateType} {id id' : Nat}

/-- The columns of `types` under `id'` have been moved by `delta`, and nothing else has. -/
def Moved (db db' : BatchDB) (types : List BatchUpdateType) (id' : Nat)
    (delta : BatchUpdateType → Int) : Prop :=
  ∀ type id, db'.stored type id =
    (db.stored type id).map (· + if type ∈ types ∧ id = id' then delta type else 0)

theorem find_update_column {ρ : Type} {key : ρ → Nat} (t : Table key) {f : ρ → ρ}
    (hf : ∀ row, key (f row) = key row) (column : ρ → Int) (delta : Int)
    (hcolumn : ∀ row, column (f row) = column row + delta) :
    ((t.update id' (fun _ => true) f).2.find id).map column =
      ((t.find id).map column).map (· + if id = id' then delta else 0) := by
  rw [Table.find_update t id' id _ hf]
  by_cases hid : id = id'
  · simp [hid, Function.comp_def, hcolumn]
  · simp [hid, Function.comp_def]

theorem increaseTokenQuota_moved (delta : BatchUpdateType → Int) :
    Moved db (db.increaseTokenQuota true id' (delta .tokenQuota)) [.tokenQuota] id' delta := by
  intro type id
  cases type with
  | tokenQuota =>
    simp only [List.mem_singleton, true_and]
    refine find_update_column db.tokens ?_ (·.remainQuota) (delta .tokenQuota) ?_ <;>
      exact fun _ => rfl
  | _ => simp [stored, increaseTokenQuota, Function.comp_def]

theorem updateChannelUsedQuota_moved (delta : BatchUpdateType → Int) :
    Moved db (db.updateChannelUsedQuota true id' (delta .channelUsedQuota)) [.channelUsedQuota]
      id' delta := by
  intro type id
  cases type with
  | channelUsedQuota =>
    simp only [List.mem_singleton, true_and]
    refine find_update_column db.channels ?_ (·.usedQuota) (delta .channelUsedQuota) ?_ <;>
      exact fun _ => rfl
  | _ => simp [stored, updateChannelUsedQuota, Function.comp_def]

theorem moved_self {delta : BatchUpdateType → Int} (h : ∀ type ∈ types, delta type = 0) :
    Moved db db types id' delta := by
  intro type id
  have hzero : (if type ∈ types ∧ id = id' then delta type else 0) = 0 := by
    split
    · next hmem => exact h type hmem.1
    · rfl
  simp [hzero]

theorem updateUser_moved (delta : BatchUpdateType → Int) :
    Moved db (db.updateUserQuotaUsedQuotaAndRequestCount true id' (delta .userQuota)
        (delta .usedQuota) (delta .requestCount))
      [.userQuota, .usedQuota, .requestCount] id' delta := by
  unfold updateUserQuotaUsedQuotaAndRequestCount
  split
  · rename_i hzero
    apply moved_self
    simpa using hzero
  · rw [if_pos rfl]
    intro type id
    cases type with
    | userQuota =>
      simp only [List.mem_cons, List.not_mem_nil, reduceCtorEq, true_or, true_and]
      refine find_update_column db.users ?_ (·.quota) (delta .userQuota) ?_ <;> exact fun _ => rfl
    | usedQuota =>
      simp only [List.mem_cons, List.not_mem_nil, reduceCtorEq, true_or, or_true, true_and]
      refine find_update_column db.users ?_ (·.usedQuota) (delta .usedQuota) ?_ <;>
        exact fun _ => rfl
    | requestCount =>
      simp only [List.mem_cons, List.not_mem_nil, reduceCtorEq, true_or, or_true, true_and]
      refine find_update_column db.users ?_ (·.requestCount) (delta .requestCount) ?_ <;>
        exact fun _ => rfl
    | _ => simp [stored, Function.comp_def]

end BatchDB

/-! ### One step -/

namespace BatchSystem

variable {s t : BatchSystem} {a : BatchAct} {type : BatchUpdateType} {id : Nat}

def total (s : BatchSystem) (type : BatchUpdateType) (id : Nat) : Int :=
  (s.db.stored type id).getD 0 + s.pending type id

/--
Nothing is lost in this step: a record added stays within the range of an `int`, and a
write that does not go through had nothing to write.
-/
def Keeps (s : BatchSystem) : BatchAct → Prop
  | .addNewRecord type id value => (s.stores type).Fits id value
  | .writeToken id dbOk =>
    dbOk = false → ∀ f, s.flush = some f → (f.taken .tokenQuota).get id = 0
  | .writeChannel id dbOk =>
    dbOk = false → ∀ f, s.flush = some f → (f.taken .channelUsedQuota).get id = 0
  | .writeUser id dbOk =>
    dbOk = false → ∀ f, s.flush = some f →
      ∀ type ∈ [BatchUpdateType.userQuota, .usedQuota, .requestCount],
        (f.taken type).get id = 0
  | _ => True

theorem get_drop (f : Flush) (types : List BatchUpdateType) (id' : Nat) :
    ((f.drop types id').taken type).get id =
      if type ∈ types ∧ id = id' then 0 else (f.taken type).get id := by
  unfold Flush.drop
  by_cases htype : type ∈ types
  · simp [htype, BatchStore.get_erase]
  · simp [htype]

variable {f : Flush} {db : BatchDB} {id' : Nat} {type' : BatchUpdateType} {dbOk : Bool}

theorem total_write (hf : s.flush = some f)
    (hdb : s.db.Moved db types id' fun type => (f.taken type).get id')
    (hrow : (s.db.stored type id).isSome) :
    (db.stored type id).isSome ∧
      total { s with db := db, flush := some (f.drop types id') } type id = total s type id := by
  obtain ⟨v, hv⟩ := Option.isSome_iff_exists.mp hrow
  have hnew := hdb type id
  rw [hv, Option.map_some] at hnew
  refine ⟨by rw [hnew]; rfl, ?_⟩
  simp only [total, pending, hnew, hv, hf, Option.getD_some, get_drop]
  by_cases hmem : type ∈ types ∧ id = id'
  · obtain ⟨htype, rfl⟩ := hmem
    simp only [htype, true_and, if_true]
    omega
  · rw [if_neg hmem, if_neg hmem]
    omega

/-- A map still to be taken has not been taken. -/
def FlushOK (s : BatchSystem) : Prop :=
  ∀ f, s.flush = some f →
    f.left.Nodup ∧ ∀ type ∈ f.left, ∀ id, (f.taken type).get id = 0

theorem total_addNewRecord {value : Int} (hfits : (s.stores type').Fits id' value) :
    total { s with stores := Function.update s.stores type'
                     ((s.stores type').addNewRecord id' value) } type id =
      total s type id + recorded type id (.addNewRecord type' id' value) := by
  simp only [total, pending, recorded]
  by_cases htype : type' = type
  · subst htype
    rw [Function.update_self]
    by_cases hid : id' = id
    · subst hid
      rw [BatchStore.get_addNewRecord_self hfits, if_pos ⟨rfl, rfl⟩]
      omega
    · rw [BatchStore.get_addNewRecord_ne hid, if_neg (fun h => hid h.2)]
      omega
  · rw [Function.update_of_ne (Ne.symm htype), if_neg (fun h => htype h.1)]
    omega

variable {left : List BatchUpdateType} {taken : BatchUpdateType → BatchStore}

theorem total_swap (hf : s.flush = some ⟨type' :: left, taken⟩) (hok : s.FlushOK) :
    total { s with stores := Function.update s.stores type' .empty
                   flush := some ⟨left, Function.update taken type' (s.stores type')⟩ } type id =
      total s type id := by
  simp only [total, pending, hf]
  by_cases htype : type = type'
  · subst htype
    have hzero : (taken type).get id = 0 := (hok _ hf).2 type (by simp) id
    rw [Function.update_self, Function.update_self, hzero, BatchStore.get_empty]
    omega
  · rw [Function.update_of_ne htype, Function.update_of_ne htype]

theorem flushOK_swap (hf : s.flush = some ⟨type' :: left, taken⟩) (hok : s.FlushOK) :
    FlushOK { s with stores := Function.update s.stores type' .empty
                     flush := some ⟨left, Function.update taken type' (s.stores type')⟩ } := by
  intro f hf'
  cases hf'
  obtain ⟨hnodup, hzero⟩ := hok _ hf
  obtain ⟨hnot, hrest⟩ := List.nodup_cons.mp hnodup
  refine ⟨hrest, ?_⟩
  intro type hmem id
  have hne : type ≠ type' := fun h => hnot (h ▸ hmem)
  show (Function.update taken type' (s.stores type') type).get id = 0
  rw [Function.update_of_ne hne]
  exact hzero type (List.mem_cons_of_mem _ hmem) id

theorem get_of_written (h : f.written type = true) : (f.taken type).get id = 0 := by
  have hrows : (f.taken type).rows = [] := by simpa [Flush.written] using h
  rw [BatchStore.get, Table.find, hrows]
  rfl

theorem total_finish (hf : s.flush = some f) (hwritten : BatchUpdateType.all.all f.written = true) :
    total { s with flush := none } type id = total s type id := by
  have hall : f.written type = true := by
    apply List.all_eq_true.mp hwritten
    cases type <;> decide
  simp only [total, pending, hf]
  rw [get_of_written hall]

theorem flushOK_drop (hleft : f.left = []) :
    FlushOK { s with db := db, flush := some (f.drop types id') } := by
  intro f' hf'
  cases hf'
  have hnone : (f.drop types id').left = [] := hleft
  rw [hnone]
  exact ⟨List.nodup_nil, fun _ h => absurd h (by simp)⟩

/-- What a state needs for a step to account for the column of `type` under `id`. -/
structure Counted (s : BatchSystem) (type : BatchUpdateType) (id : Nat) : Prop where
  row : (s.db.stored type id).isSome
  flush : s.FlushOK

theorem writeToken_moved (h : dbOk = false → (f.taken .tokenQuota).get id' = 0) :
    s.db.Moved (s.db.increaseTokenQuota dbOk id' ((f.taken .tokenQuota).get id')) [.tokenQuota]
      id' fun type => (f.taken type).get id' := by
  cases dbOk with
  | true => exact BatchDB.increaseTokenQuota_moved fun type => (f.taken type).get id'
  | false => exact BatchDB.moved_self (by simpa using h rfl)

theorem writeChannel_moved (h : dbOk = false → (f.taken .channelUsedQuota).get id' = 0) :
    s.db.Moved (s.db.updateChannelUsedQuota dbOk id' ((f.taken .channelUsedQuota).get id'))
      [.channelUsedQuota] id' fun type => (f.taken type).get id' := by
  cases dbOk with
  | true => exact BatchDB.updateChannelUsedQuota_moved fun type => (f.taken type).get id'
  | false => exact BatchDB.moved_self (by simpa using h rfl)

theorem writeUser_moved
    (h : dbOk = false → ∀ type ∈ [BatchUpdateType.userQuota, .usedQuota, .requestCount],
      (f.taken type).get id' = 0) :
    s.db.Moved (s.db.updateUserQuotaUsedQuotaAndRequestCount dbOk id'
        ((f.taken .userQuota).get id') ((f.taken .usedQuota).get id')
        ((f.taken .requestCount).get id'))
      [.userQuota, .usedQuota, .requestCount] id' fun type => (f.taken type).get id' := by
  cases dbOk with
  | true => exact BatchDB.updateUser_moved fun type => (f.taken type).get id'
  | false =>
    have hzero := h rfl
    have hsame : s.db.updateUserQuotaUsedQuotaAndRequestCount false id'
        ((f.taken .userQuota).get id') ((f.taken .usedQuota).get id')
        ((f.taken .requestCount).get id') = s.db := by
      simp [BatchDB.updateUserQuotaUsedQuotaAndRequestCount]
    rw [hsame]
    exact BatchDB.moved_self hzero

/-- **A step that loses nothing changes the sum by what it records.** -/
theorem step_total (hs : s.Counted type id) (hkeeps : s.Keeps a) (h : s.step a = some t) :
    t.Counted type id ∧ t.total type id = s.total type id + recorded type id a := by
  cases a with
  | addNewRecord type' id' value =>
    cases h
    exact ⟨⟨hs.row, hs.flush⟩, total_addNewRecord hkeeps⟩
  | begin =>
    simp only [step] at h
    split at h
    · rename_i hnone
      cases h
      split
      · refine ⟨⟨hs.row, ?_⟩, ?_⟩
        · intro f hf
          cases hf
          exact ⟨by decide, fun _ _ _ => rfl⟩
        · simp [total, pending, take, hnone, recorded]
      · exact ⟨hs, (add_zero _).symm⟩
    · simp at h
  | swap =>
    simp only [step] at h
    split at h
    · rename_i type' left taken hf
      cases h
      exact ⟨⟨hs.row, flushOK_swap hf hs.flush⟩,
        (total_swap hf hs.flush).trans (add_zero _).symm⟩
    · simp at h
  | writeToken id' dbOk =>
    simp only [step] at h
    split at h
    · rename_i f hf
      obtain ⟨hguard, ⟨⟩⟩ := Option.ite_none_right_eq_some.mp h
      obtain ⟨hrow, htotal⟩ := total_write hf
        (writeToken_moved fun hbad => hkeeps hbad f hf) hs.row
      exact ⟨⟨hrow, flushOK_drop hguard.1⟩, htotal.trans (add_zero _).symm⟩
    · simp at h
  | writeChannel id' dbOk =>
    simp only [step] at h
    split at h
    · rename_i f hf
      obtain ⟨hguard, ⟨⟩⟩ := Option.ite_none_right_eq_some.mp h
      obtain ⟨hrow, htotal⟩ := total_write hf
        (writeChannel_moved fun hbad => hkeeps hbad f hf) hs.row
      exact ⟨⟨hrow, flushOK_drop hguard.1⟩, htotal.trans (add_zero _).symm⟩
    · simp at h
  | writeUser id' dbOk =>
    simp only [step] at h
    split at h
    · rename_i f hf
      obtain ⟨hguard, ⟨⟩⟩ := Option.ite_none_right_eq_some.mp h
      obtain ⟨hrow, htotal⟩ := total_write hf
        (writeUser_moved fun hbad => hkeeps hbad f hf) hs.row
      exact ⟨⟨hrow, flushOK_drop hguard.1⟩, htotal.trans (add_zero _).symm⟩
    · simp at h
  | finish =>
    simp only [step] at h
    split at h
    · rename_i f hf
      obtain ⟨hguard, ⟨⟩⟩ := Option.ite_none_right_eq_some.mp h
      exact ⟨⟨hs.row, fun f hf => absurd hf (by simp)⟩,
        (total_finish hf hguard.2).trans (add_zero _).symm⟩
    · simp at h

/-! ### A whole run -/

theorem counted_idle {v : Int} (h : db.stored type id = some v) : (idle db).Counted type id :=
  ⟨by simp [idle, h], fun f hf => absurd hf (by simp [idle])⟩

/-- **No delta is lost or written twice, as long as every write goes through.** -/
theorem stored_add_pending {db : BatchDB} {acts : List BatchAct} {v : Int}
    (hrow : db.stored type id = some v)
    (hkeeps : Machine.Meets step Keeps (idle db) acts)
    (hrun : Machine.run step (idle db) acts = some t) :
    ∃ w, t.db.stored type id = some w ∧
      w + t.pending type id = v + (acts.map (recorded type id)).sum := by
  have hcounted := counted_idle hrow
  have hstep : ∀ s a t, Counted s type id → Keeps s a → step s a = some t →
      Counted t type id ∧ total t type id = total s type id + recorded type id a :=
    fun s a t hs hk h => step_total hs hk h
  have hsum := Machine.run_sum (fun s => Counted s type id) (fun s => total s type id)
    (recorded type id) hstep acts (idle db) t hcounted hkeeps hrun
  have hfinal : Counted t type id :=
    Machine.run_invariant (fun s => Counted s type id)
      (fun s a t hs hk h => (hstep s a t hs hk h).1) acts (idle db) t hcounted hkeeps hrun
  obtain ⟨w, hw⟩ := Option.isSome_iff_exists.mp hfinal.row
  refine ⟨w, hw, ?_⟩
  have hstart : total (idle db) type id = v := by
    simp [total, pending, idle, hrow]
  rw [hstart] at hsum
  simpa only [total, hw, Option.getD_some] using hsum

def sampleColumns : BatchDB where
  users := ⟨[⟨1, 100, 0, 0⟩], by decide⟩
  tokens := ⟨[], by decide⟩
  channels := ⟨[], by decide⟩

def sampleFlush (dbOk : Bool) : List BatchAct :=
  [.begin, .swap, .swap, .swap, .swap, .swap, .writeUser 1 dbOk, .finish]

theorem stored_add_pending_sample : ∃ t,
    Machine.run step (idle sampleColumns)
      (.addNewRecord .userQuota 1 10 :: sampleFlush true) = some t ∧
    t.db.stored .userQuota 1 = some 110 ∧
    ∃ w, t.db.stored .userQuota 1 = some w ∧ w + t.pending .userQuota 1 = 100 + 10 := by
  refine ⟨_, rfl, rfl, ?_⟩
  have hfits : Keeps (idle sampleColumns) (.addNewRecord .userQuota 1 10) := by
    intro entry hentry
    simp [idle, BatchStore.empty, Table.find] at hentry
  have hflush : ∀ a ∈ sampleFlush true, ∀ s, Keeps s a := by
    simp [sampleFlush, Keeps]
  have hmeets : Machine.Meets step Keeps (idle sampleColumns)
      (.addNewRecord .userQuota 1 10 :: sampleFlush true) :=
    ⟨hfits, fun t _ => Machine.meets_of_forall t hflush⟩
  exact stored_add_pending (v := 100) rfl hmeets rfl

/-- A user's statement fails during the flush, and the 10 recorded for it are gone. -/
theorem failed_write_loses_delta : ∃ t,
    Machine.run step (idle sampleColumns)
      (.addNewRecord .userQuota 1 10 :: sampleFlush false) = some t ∧
    ¬∃ w, t.db.stored .userQuota 1 = some w ∧
      w + t.pending .userQuota 1 = 100 +
        ((.addNewRecord .userQuota 1 10 :: sampleFlush false).map
          (recorded .userQuota 1)).sum := by
  refine ⟨_, rfl, ?_⟩
  rintro ⟨w, hw, hsum⟩
  obtain rfl : (100 : Int) = w := Option.some.inj hw
  exact absurd hsum (by decide)

end BatchSystem

end JulongApi

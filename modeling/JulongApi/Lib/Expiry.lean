/-
Key-value stores whose entries expire.

An entry is there until its time has passed, if it was given one; one whose time had already come
as it was set is not there at all.  Entries that have passed are kept in the table and not found by
a lookup, so letting time go on changes nothing in the store.
-/
import JulongApi.Lib.Table

namespace Expiry

structure Entry (κ ν : Type) where
  key : κ
  value : ν
  /-- the last moment at which the entry is there; `none` if it does not expire -/
  expireAt : Option Int
deriving DecidableEq, Repr

def Entry.live {κ ν : Type} (now : Int) (entry : Entry κ ν) : Bool :=
  match entry.expireAt with
  | none => true
  | some time => decide (now ≤ time)

abbrev Store (κ ν : Type) := Table (Entry.key : Entry κ ν → κ)

variable {κ ν : Type} [DecidableEq κ]

def empty : Store κ ν := ⟨[], List.nodup_nil⟩

def get (store : Store κ ν) (now : Int) (k : κ) : Option ν :=
  ((store.find k).filter (Entry.live now)).map Entry.value

def set (store : Store κ ν) (k : κ) (value : ν) : Store κ ν := store.put ⟨k, value, none⟩

/-- Set a key that expires after `time`. -/
def setUntil (store : Store κ ν) (now : Int) (k : κ) (value : ν) (time : Int) : Store κ ν :=
  if time ≤ now then store.erase k else store.put ⟨k, value, some time⟩

/-- Give a key that is there another time to expire at. -/
def expire (store : Store κ ν) (now : Int) (k : κ) (time : Int) : Store κ ν :=
  match get store now k with
  | none => store
  | some value => setUntil store now k value time

/-- Change the value of a key that is there; it expires when it would have. -/
def modify (store : Store κ ν) (now : Int) (k : κ) (f : ν → ν) : Store κ ν :=
  match (store.find k).filter (Entry.live now) with
  | none => store
  | some entry => store.put { entry with value := f entry.value }

/-! ### Lookups -/

variable {store : Store κ ν} {now now' time : Int} {k k' : κ} {value : ν}

theorem get_eq_some : get store now k = some value ↔
    ∃ entry, store.find k = some entry ∧ entry.live now = true ∧ entry.value = value := by
  unfold get
  simp only [Option.map_eq_some_iff, Option.filter_eq_some_iff]
  constructor
  · rintro ⟨entry, ⟨hfind, hlive⟩, rfl⟩
    exact ⟨entry, hfind, hlive, rfl⟩
  · rintro ⟨entry, hfind, hlive, rfl⟩
    exact ⟨entry, ⟨hfind, hlive⟩, rfl⟩

omit [DecidableEq κ] in
theorem Entry.live_of_le {entry : Entry κ ν} (hle : now ≤ now') (h : entry.live now' = true) :
    entry.live now = true := by
  unfold live at h ⊢
  split at h
  · rfl
  · simp only [decide_eq_true_eq] at h ⊢
    exact Int.le_trans hle h

theorem find_set_self : (set store k value).find k = some ⟨k, value, none⟩ :=
  store.find_put_self ⟨k, value, none⟩

theorem find_set_ne (h : k ≠ k') : (set store k value).find k' = store.find k' :=
  Table.find_put_ne h

theorem find_setUntil_ne (h : k ≠ k') :
    (setUntil store now k value time).find k' = store.find k' := by
  unfold setUntil
  split
  · exact Table.find_erase_ne h
  · exact Table.find_put_ne h

theorem find_setUntil_self :
    (setUntil store now k value time).find k =
      if time ≤ now then none else some ⟨k, value, some time⟩ := by
  unfold setUntil
  split
  · exact Table.find_erase_self store k
  · exact store.find_put_self ⟨k, value, some time⟩

theorem get_set_self : get (set store k value) now k = some value :=
  get_eq_some.mpr ⟨_, find_set_self, rfl, rfl⟩

theorem get_set_ne (h : k ≠ k') : get (set store k value) now k' = get store now k' := by
  unfold get
  rw [find_set_ne h]

/-! ### All entries -/

def Permanent (store : Store κ ν) : Prop := ∀ entry ∈ store.rows, entry.expireAt = none

omit [DecidableEq κ] in
theorem permanent_empty : Permanent (empty : Store κ ν) := fun _ hentry => by simp [empty] at hentry

theorem Permanent.set (h : Permanent store) : Permanent (set store k value) :=
  Table.forall_put h rfl

theorem Permanent.get_eq (h : Permanent store) : get store now k = get store now' k := by
  unfold get
  cases hfind : store.find k with
  | none => rfl
  | some entry =>
    have hlive : ∀ time : Int, entry.live time = true := by
      intro time
      rw [Entry.live, h entry (Table.mem_of_find hfind)]
    rw [Option.filter_some_pos (hlive now), Option.filter_some_pos (hlive now')]

theorem forall_setUntil {P : Entry κ ν → Prop} (h : ∀ entry ∈ store.rows, P entry)
    (hnew : P ⟨k, value, some time⟩) :
    ∀ entry ∈ (setUntil store now k value time).rows, P entry := by
  unfold setUntil
  split
  · exact fun entry hentry => h entry (List.mem_of_mem_filter hentry)
  · exact Table.forall_put h hnew

end Expiry

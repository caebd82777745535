/-
A stream of blocks that are started under an index, grow, and are stopped.

A reader keeps the blocks it has been told of.  A block is started once; what is said of it must be
of its kind, and is said until it is stopped.  Of some kinds at most one block may be open at a
time.  `apply` is what the reader makes of one such action, and refuses what does not fit; `Whole`
says that all blocks are stopped and that their indexes are the first ones.

What a writer knows of the reader is a slot for each index (`Holds`), and each action changes one
slot.
-/
import JulongApi.Lib.Table

namespace JulongApi.BlockStream

structure Block (κ : Type) where
  index : Nat
  kind : κ
  opened : Bool
deriving DecidableEq, Repr

abbrev Blocks (κ : Type) := Table (fun block : Block κ => block.index)

/-- What a writer says of a block. -/
inductive Act (κ : Type) where
  | start (index : Nat) (kind : κ)
  | delta (index : Nat) (kind : κ)
  | stop (index : Nat)
deriving DecidableEq, Repr

variable {κ : Type}

def Blocks.none : Blocks κ := ⟨[], List.nodup_nil⟩

/-- `lone` are the kinds of which at most one block is open at a time. -/
def apply [DecidableEq κ] (lone : κ → Bool) (blocks : Blocks κ) : Act κ → Option (Blocks κ)
  | .start index kind =>
    if blocks.find index = Option.none ∧
        (lone kind = true → ∀ block ∈ blocks.rows, lone block.kind = true →
          block.opened = false) then
      some (blocks.put ⟨index, kind, true⟩)
    else Option.none
  | .delta index kind =>
    if blocks.find index = some ⟨index, kind, true⟩ then some blocks else Option.none
  | .stop index =>
    match blocks.find index with
    | some block =>
      if block.opened then some (blocks.put { block with opened := false }) else Option.none
    | Option.none => Option.none

def Whole (blocks : Blocks κ) : Prop :=
  (∀ block ∈ blocks.rows, block.opened = false) ∧
    ∀ index < blocks.rows.length, (blocks.find index).isSome = true

instance (blocks : Blocks κ) : Decidable (Whole blocks) := instDecidableAnd

/-! ### Slots -/

/-- What has become of an index. -/
inductive Slot (κ : Type) where
  | unused
  | opened (kind : κ)
  | closed
deriving DecidableEq, Repr

def slot (blocks : Blocks κ) (index : Nat) : Slot κ :=
  match blocks.find index with
  | some block => if block.opened then .opened block.kind else .closed
  | Option.none => .unused

/-- The writer's account of the reader's blocks. -/
def Holds (blocks : Blocks κ) (f : Nat → Slot κ) : Prop := ∀ index, slot blocks index = f index

section Holds

variable {lone : κ → Bool} {blocks : Blocks κ} {f g : Nat → Slot κ} {index : Nat} {kind : κ}

theorem Holds.congr (h : Holds blocks f) (hsame : ∀ i, g i = f i) : Holds blocks g :=
  fun i => (h i).trans (hsame i).symm

theorem slot_put (blocks : Blocks κ) (block : Block κ) (index : Nat) :
    slot (blocks.put block) index = if index = block.index then
      (if block.opened then .opened block.kind else .closed) else slot blocks index := by
  unfold slot
  by_cases h : index = block.index
  · subst h
    have hself : (blocks.put block).find block.index = some block :=
      Table.find_put_self blocks block
    rw [hself, if_pos rfl]
  · have hother : (blocks.put block).find index = blocks.find index :=
      Table.find_put_ne (Ne.symm h)
    rw [hother, if_neg h]

theorem find_of_slot_opened (h : slot blocks index = .opened kind) :
    blocks.find index = some ⟨index, kind, true⟩ := by
  unfold slot at h
  cases hfind : blocks.find index with
  | none =>
    rw [hfind] at h
    cases h
  | some block =>
    rw [hfind] at h
    dsimp only at h
    have hindex : block.index = index := Table.key_of_find hfind
    split at h
    · next hopened =>
      cases h
      rw [← hindex, ← hopened]
    · cases h

variable {block : Block κ}

theorem slot_of_mem (h : block ∈ blocks.rows) (hopened : block.opened = true) :
    slot blocks block.index = .opened block.kind := by
  have hfind : blocks.find block.index = some block := Table.find_of_mem h
  unfold slot
  rw [hfind]
  exact if_pos hopened

theorem Holds.start [DecidableEq κ] (h : Holds blocks f) (hunused : f index = .unused)
    (halone : lone kind = true → ∀ i other, f i = .opened other → lone other = false)
    (hself : g index = .opened kind) (hothers : ∀ i, i ≠ index → g i = f i) :
    ∃ blocks', apply lone blocks (.start index kind) = some blocks' ∧ Holds blocks' g := by
  have hnone : blocks.find index = Option.none := by
    have hslot := (h index).trans hunused
    unfold slot at hslot
    cases hfind : blocks.find index with
    | none => rfl
    | some block =>
      rw [hfind] at hslot
      dsimp only at hslot
      split at hslot <;> cases hslot
  have hclosed : lone kind = true → ∀ block ∈ blocks.rows, lone block.kind = true →
      block.opened = false := by
    intro hlone block hblock hkind
    by_contra hopened
    rw [Bool.not_eq_false] at hopened
    have hslot := slot_of_mem hblock hopened
    rw [h block.index] at hslot
    rw [halone hlone _ _ hslot] at hkind
    cases hkind
  refine ⟨_, if_pos ⟨hnone, hclosed⟩, fun i => ?_⟩
  rw [slot_put]
  by_cases hi : i = index
  · subst hi
    rw [if_pos rfl, if_pos rfl, hself]
  · rw [if_neg hi, h i, hothers i hi]

theorem Holds.delta [DecidableEq κ] (h : Holds blocks f) (hopened : f index = .opened kind) :
    apply lone blocks (.delta index kind) = some blocks :=
  if_pos (find_of_slot_opened ((h index).trans hopened))

theorem Holds.stop [DecidableEq κ] (h : Holds blocks f) (hopened : f index = .opened kind)
    (hself : g index = .closed) (hothers : ∀ i, i ≠ index → g i = f i) :
    ∃ blocks', apply lone blocks (.stop index) = some blocks' ∧ Holds blocks' g := by
  have hfind := find_of_slot_opened ((h index).trans hopened)
  refine ⟨blocks.put ⟨index, kind, false⟩, by simp [apply, hfind], fun i => ?_⟩
  rw [slot_put]
  by_cases hi : i = index
  · subst hi
    rw [if_pos rfl, hself]
    rfl
  · rw [if_neg hi, h i, hothers i hi]

theorem slot_ne_unused_of_mem (h : block ∈ blocks.rows) : slot blocks block.index ≠ .unused := by
  have hfind : blocks.find block.index = some block := Table.find_of_mem h
  unfold slot
  rw [hfind]
  dsimp only
  split <;> simp

theorem slot_eq_unused_iff : slot blocks index = .unused ↔ blocks.find index = Option.none := by
  unfold slot
  cases blocks.find index with
  | none => simp
  | some block =>
    dsimp only
    split <;> simp

theorem index_lt_of_filled (hfilled : ∀ i < blocks.rows.length, (blocks.find i).isSome = true)
    (h : block ∈ blocks.rows) : block.index < blocks.rows.length := by
  have hsubset : List.range blocks.rows.length ⊆ blocks.rows.map (·.index) := by
    intro i hi
    obtain ⟨other, hother⟩ := Option.isSome_iff_exists.mp (hfilled i (List.mem_range.mp hi))
    have hmem : other ∈ blocks.rows := Table.mem_of_find hother
    have hindex : other.index = i := Table.key_of_find hother
    exact List.mem_map.mpr ⟨other, hmem, hindex⟩
  have hperm := (List.nodup_range.subperm hsubset).perm_of_length_le
    (by rw [List.length_map, List.length_range])
  exact List.mem_range.mp (hperm.mem_iff.mpr (List.mem_map_of_mem h))

theorem Holds.whole_iff (h : Holds blocks f) :
    Whole blocks ↔ (∀ i kind, f i ≠ .opened kind) ∧
      ∀ i j, i ≤ j → f i = .unused → f j = .unused := by
  constructor
  · rintro ⟨hclosed, hfilled⟩
    constructor
    · intro i kind hopened
      have hfind := find_of_slot_opened ((h i).trans hopened)
      have hmem : (⟨i, kind, true⟩ : Block κ) ∈ blocks.rows := Table.mem_of_find hfind
      cases hclosed _ hmem
    · intro i j hle hunused
      have hnone := slot_eq_unused_iff.mp ((h i).trans hunused)
      have hi : blocks.rows.length ≤ i := by
        by_contra hlt
        have hsome := hfilled i (not_le.mp hlt)
        rw [hnone] at hsome
        cases hsome
      rw [← h j, slot_eq_unused_iff]
      by_contra hfound
      obtain ⟨block, hblock⟩ := Option.ne_none_iff_exists'.mp hfound
      have hmem : block ∈ blocks.rows := Table.mem_of_find hblock
      have hindex : block.index = j := Table.key_of_find hblock
      have hlt := index_lt_of_filled hfilled hmem
      omega
  · rintro ⟨hclosed, hrow⟩
    refine ⟨fun block hblock => ?_, fun i hi => ?_⟩
    · by_contra hopened
      rw [Bool.not_eq_false] at hopened
      exact hclosed block.index block.kind ((h _).symm.trans (slot_of_mem hblock hopened))
    · by_contra hnone
      have hunused : f i = .unused := by
        rw [← h i, slot_eq_unused_iff]
        exact Option.not_isSome_iff_eq_none.mp hnone
      have hsubset : blocks.rows.map (·.index) ⊆ List.range i := by
        intro j hj
        obtain ⟨block, hblock, rfl⟩ := List.mem_map.mp hj
        refine List.mem_range.mpr (not_le.mp fun hle => ?_)
        exact slot_ne_unused_of_mem hblock ((h _).trans (hrow i _ hle hunused))
      have hle := (blocks.keys.subperm hsubset).length_le
      rw [List.length_map, List.length_range] at hle
      omega

end Holds

/-! ### Slots in a list -/

section Listed

variable {l : List (Slot κ)} {x : Slot κ} {i : Nat}

def listed (l : List (Slot κ)) (i : Nat) : Slot κ := l[i]?.getD .unused

theorem listed_append_unused : listed (l ++ [.unused]) i = listed l i := by
  unfold listed
  by_cases hi : i < l.length
  · rw [List.getElem?_append_left hi]
  · rw [List.getElem?_append_right (not_lt.mp hi), List.getElem?_eq_none (not_lt.mp hi)]
    cases i - l.length <;> rfl

theorem listed_append_ne (hi : i ≠ l.length) : listed (l ++ [x]) i = listed l i := by
  unfold listed
  by_cases hlt : i < l.length
  · rw [List.getElem?_append_left hlt]
  · rw [List.getElem?_eq_none (by simp; omega), List.getElem?_eq_none (by omega)]

@[simp] theorem listed_length : listed l l.length = .unused := by
  unfold listed
  rw [List.getElem?_eq_none le_rfl]
  rfl

theorem listed_middle_self {rest : List (Slot κ)} : listed (l ++ x :: rest) l.length = x := by
  unfold listed
  rw [List.getElem?_append_right le_rfl, Nat.sub_self]
  rfl

theorem listed_middle_ne {y : Slot κ} {rest : List (Slot κ)} (hi : i ≠ l.length) :
    listed (l ++ x :: rest) i = listed (l ++ y :: rest) i := by
  unfold listed
  by_cases hlt : i < l.length
  · rw [List.getElem?_append_left hlt, List.getElem?_append_left hlt]
  · rw [List.getElem?_append_right (not_lt.mp hlt), List.getElem?_append_right (not_lt.mp hlt)]
    obtain ⟨k, hk⟩ : ∃ k, i - l.length = k + 1 := ⟨i - l.length - 1, by omega⟩
    rw [hk, List.getElem?_cons_succ, List.getElem?_cons_succ]

theorem listed_set_self (hi : i < l.length) : listed (l.set i x) i = x := by
  unfold listed
  rw [List.getElem?_set_self hi]
  rfl

theorem listed_set_ne {j : Nat} (hj : j ≠ i) : listed (l.set i x) j = listed l j := by
  unfold listed
  rw [List.getElem?_set_ne (Ne.symm hj)]

theorem mem_of_listed (h : listed l i = x) (hx : x ≠ .unused) : x ∈ l := by
  unfold listed at h
  cases hget : l[i]? with
  | none =>
    rw [hget] at h
    exact absurd h.symm hx
  | some y =>
    rw [hget] at h
    obtain rfl : y = x := h
    exact List.mem_of_getElem? hget

theorem Holds.whole_listed_iff {blocks : Blocks κ} (h : Holds blocks (listed l))
    (hclosed : ∀ kind, .opened kind ∉ l) :
    Whole blocks ↔ l.Pairwise fun x y => x = .unused → y = .unused := by
  rw [h.whole_iff, List.pairwise_iff_getElem]
  constructor
  · rintro ⟨-, hrow⟩ i j hi hj hlt hunused
    have hfirst : listed l i = .unused := by
      unfold listed
      rw [List.getElem?_eq_getElem hi, hunused]
      rfl
    have hsecond := hrow i j (Nat.le_of_lt hlt) hfirst
    unfold listed at hsecond
    rwa [List.getElem?_eq_getElem hj] at hsecond
  · intro hrow
    constructor
    · intro i kind hopened
      exact hclosed kind (mem_of_listed hopened (by simp))
    · intro i j hle hunused
      by_cases hj : j < l.length
      · by_cases heq : i = j
        · exact heq ▸ hunused
        · have hi : i < l.length := by omega
          unfold listed at hunused ⊢
          rw [List.getElem?_eq_getElem hi] at hunused
          rw [List.getElem?_eq_getElem hj]
          exact hrow i j hi hj (by omega) hunused
      · unfold listed
        rw [List.getElem?_eq_none (not_lt.mp hj)]
        rfl

end Listed

end JulongApi.BlockStream

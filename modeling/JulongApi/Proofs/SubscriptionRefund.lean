/-
Retrying a refund that is two transactions.

`refundWithRetry` may only be used on functions that undo themselves when they fail; its
own comment says so.  `RefundSubscriptionPreConsume` is not one of them.  The amount is
given back by `PostConsumeUserSubscriptionDelta`, which commits its own transaction, and
only then is the record saved and the outer transaction committed.  If that fails, the
record still says `consumed`, and the next attempt gives the amount back again.

`reductions` counts how often the amount has been taken off the row.  The count depends
on the faults alone, and it is one exactly when no attempt is made after the nested
transaction has committed once, or none of those gets as far again.
-/
import JulongApi.BillingSession
import JulongApi.Proofs.Subscription

namespace JulongApi

/-! ### One attempt -/

/-- The attempt gets through its nested transaction. -/
def RefundFaults.Passes (f : RefundFaults) : Prop := f.lock = .none ∧ f.nested = .none

/-- The attempt also gets through what comes after it. -/
def RefundFaults.Completes (f : RefundFaults) : Prop := f.save = .none ∧ f.commit = .none

instance (f : RefundFaults) : Decidable f.Passes :=
  inferInstanceAs (Decidable (f.lock = .none ∧ f.nested = .none))

instance (f : RefundFaults) : Decidable f.Completes :=
  inferInstanceAs (Decidable (f.save = .none ∧ f.commit = .none))

/--
The attempt takes the recorded amount off the row: it reaches the nested transaction,
and that commits.
-/
def reduces (f : RefundFaults) (requestId : String) (db : SubscriptionDB) : Bool :=
  match f.lock, db.records.find requestId with
  | .none, some record =>
    decide (record.status = .consumed) && decide (0 < record.preConsumed) &&
      (postConsumeUserSubscriptionDelta f.nested db record.userSubscriptionId
        (-record.preConsumed)).1.toBool
  | _, _ => false

/-- How often the attempts of `retryFrom` take the amount off the row. -/
def reductions (attempts : Nat → RefundFaults) (requestId : String) :
    (left i : Nat) → SubscriptionDB → Nat
  | 0, i, db => (reduces (attempts i) requestId db).toNat
  | left + 1, i, db =>
    (reduces (attempts i) requestId db).toNat +
      match refundSubscriptionPreConsume (attempts i) requestId db with
      | (.ok (), _) => 0
      | (.error _, db') => reductions attempts requestId left (i + 1) db'

/-- A committed pre-consume: its record, and the row it was charged to. -/
structure Refundable (requestId : String) (record : SubscriptionPreConsumeRecord)
    (row : UserSubscription) (db : SubscriptionDB) : Prop where
  notBlank : isBlank requestId = false
  find : db.records.find requestId = some record
  status : record.status = .consumed
  positive : 0 < record.preConsumed
  charged : db.subs.find record.userSubscriptionId = some row
  rowOK : RowOK row

variable {requestId : String} {record : SubscriptionPreConsumeRecord} {row : UserSubscription}
  {db : SubscriptionDB} {f : RefundFaults}

theorem Refundable.id_ne_zero (h : Refundable requestId record row db) :
    record.userSubscriptionId ≠ 0 := by
  have hid : row.id = record.userSubscriptionId := Table.key_of_find h.charged
  have hpos := h.rowOK.id_pos
  omega

theorem Refundable.postConsume (h : Refundable requestId record row db) :
    postConsumeUserSubscriptionDelta none db record.userSubscriptionId (-record.preConsumed) =
        (.ok (), db.saveSub (row.addUsed (-record.preConsumed))) ∧
      Refundable requestId record (row.addUsed (-record.preConsumed))
        (db.saveSub (row.addUsed (-record.preConsumed))) := by
  have hpos := h.positive
  have hnonneg := h.rowOK.used_nonneg
  have hroom : 0 < row.amountTotal →
      (row.addUsed (-record.preConsumed)).amountUsed ≤ row.amountTotal := by
    intro htotal
    have hle := h.rowOK.used_le htotal
    show max (row.amountUsed + -record.preConsumed) 0 ≤ row.amountTotal
    omega
  refine ⟨postConsume_of_room h.id_ne_zero (by omega) h.charged hroom, ?_⟩
  exact ⟨h.notBlank, h.find, h.status, hpos, find_addUsed h.charged, h.rowOK.addUsed hroom⟩

theorem Refundable.attempt_fails (h : Refundable requestId record row db) (hf : ¬f.Passes) :
    (∃ e, refundSubscriptionPreConsume f requestId db = (.error e, db)) ∧
      reduces f requestId db = false := by
  have hpos := h.positive
  unfold refundSubscriptionPreConsume reduces
  rw [h.notBlank]
  simp only [Bool.false_eq_true, if_false]
  cases hlock : f.lock with
  | some e => exact ⟨⟨e, rfl⟩, rfl⟩
  | none =>
    cases hnested : f.nested with
    | none => exact absurd ⟨hlock, hnested⟩ hf
    | some e =>
      have hpost : postConsumeUserSubscriptionDelta (some e) db record.userSubscriptionId
          (-record.preConsumed) = (.error e, db) := by
        unfold postConsumeUserSubscriptionDelta
        rw [if_neg h.id_ne_zero, if_neg (by omega)]
      simp only [h.find, h.status, reduceCtorEq, if_false, hpost]
      rw [if_neg (by omega)]
      exact ⟨⟨e, rfl⟩, by simp [Except.toBool]⟩

theorem Refundable.attempt_passes (h : Refundable requestId record row db) (hf : f.Passes) :
    refundSubscriptionPreConsume f requestId db =
        markRefunded f record (db.saveSub (row.addUsed (-record.preConsumed))) ∧
      reduces f requestId db = true := by
  have hpos := h.positive
  obtain ⟨hlock, hnested⟩ := hf
  unfold refundSubscriptionPreConsume reduces
  rw [h.notBlank]
  simp only [Bool.false_eq_true, if_false, hlock, h.find, h.status, reduceCtorEq, hnested,
    h.postConsume.1]
  rw [if_neg (by omega)]
  exact ⟨rfl, by simp [Except.toBool, hpos]⟩

theorem markRefunded_completes (hf : f.Completes) :
    markRefunded f record db = (.ok (), db.saveRecord { record with status := .refunded }) := by
  unfold markRefunded
  rw [hf.1, hf.2]

theorem markRefunded_not_completes (hf : ¬f.Completes)
    (record : SubscriptionPreConsumeRecord) (db : SubscriptionDB) :
    ∃ e, markRefunded f record db = (.error e, db) := by
  unfold markRefunded
  cases hsave : f.save with
  | some e => exact ⟨e, rfl⟩
  | none =>
    cases hcommit : f.commit with
    | some e => exact ⟨e, rfl⟩
    | none => exact absurd ⟨hsave, hcommit⟩ hf

/-! ### All attempts -/

/-- The count, from the faults alone. -/
def passes (attempts : Nat → RefundFaults) : (left i : Nat) → Nat
  | 0, i => if (attempts i).Passes then 1 else 0
  | left + 1, i =>
    if (attempts i).Passes then
      if (attempts i).Completes then 1 else 1 + passes attempts left (i + 1)
    else passes attempts left (i + 1)

theorem reductions_of_error {attempts : Nat → RefundFaults} {left i : Nat}
    {e : SubscriptionError} {db' : SubscriptionDB}
    (h : refundSubscriptionPreConsume (attempts i) requestId db = (.error e, db')) :
    reductions attempts requestId (left + 1) i db =
      (reduces (attempts i) requestId db).toNat +
        reductions attempts requestId left (i + 1) db' := by
  rw [reductions]
  simp only [h]

theorem max_sub_mul {used amount : Int} (n : Nat) (hamount : 0 < amount) :
    max (max (used + -amount) 0 - n * amount) 0 =
      max (used - ((1 + n : Nat) : Int) * amount) 0 := by
  have hexpand : ((1 + n : Nat) : Int) * amount = amount + n * amount := by
    rw [Nat.cast_add, Nat.cast_one, Int.add_mul, Int.one_mul]
  have hmul : 0 ≤ (n : Int) * amount :=
    Int.mul_nonneg (Int.natCast_nonneg n) (le_of_lt hamount)
  rw [hexpand]
  omega

/-- What all attempts from number `i` on do together. -/
structure RetryOutcome (attempts : Nat → RefundFaults) (requestId : String)
    (record : SubscriptionPreConsumeRecord) (row : UserSubscription) (left i : Nat)
    (db : SubscriptionDB) : Prop where
  count : reductions attempts requestId left i db = passes attempts left i
  used : (retryFrom (fun i => refundSubscriptionPreConsume (attempts i) requestId) left i
      db).2.amountUsed record.userSubscriptionId =
    max (row.amountUsed - passes attempts left i * record.preConsumed) 0
  ok : (retryFrom (fun i => refundSubscriptionPreConsume (attempts i) requestId) left i db).1 =
    .ok () → 1 ≤ passes attempts left i

theorem Refundable.outcome_last (attempts : Nat → RefundFaults) (i : Nat)
    (h : Refundable requestId record row db) :
    RetryOutcome attempts requestId record row 0 i db := by
  have hnonneg := h.rowOK.used_nonneg
  have hbefore := SubscriptionDB.amountUsed_of_find h.charged
  by_cases hf : (attempts i).Passes
  · obtain ⟨hres, hreduces⟩ := h.attempt_passes hf
    have hafter : ((markRefunded (attempts i) record
        (db.saveSub (row.addUsed (-record.preConsumed)))).2).amountUsed
          record.userSubscriptionId = max (row.amountUsed - record.preConsumed) 0 := by
      have hsaved : (markRefunded (attempts i) record
          (db.saveSub (row.addUsed (-record.preConsumed)))).2.subs =
          (db.saveSub (row.addUsed (-record.preConsumed))).subs := by
        by_cases hc : (attempts i).Completes
        · rw [markRefunded_completes hc]
          rfl
        · obtain ⟨e, he⟩ := markRefunded_not_completes hc record
            (db.saveSub (row.addUsed (-record.preConsumed)))
          rw [he]
      unfold SubscriptionDB.amountUsed
      rw [hsaved, find_addUsed h.charged]
      rfl
    have hcount : passes attempts 0 i = 1 := if_pos hf
    refine ⟨?_, ?_, ?_⟩
    · rw [reductions, hreduces, hcount]
      rfl
    · rw [retryFrom, hres, hafter, hcount]
      omega
    · intro _
      rw [hcount]
  · obtain ⟨⟨e, hres⟩, hreduces⟩ := h.attempt_fails hf
    have hcount : passes attempts 0 i = 0 := if_neg hf
    refine ⟨?_, ?_, ?_⟩
    · rw [reductions, hreduces, hcount]
      rfl
    · rw [retryFrom, hres, hbefore, hcount]
      omega
    · intro hok
      rw [retryFrom, hres] at hok
      simp at hok

/-- Every attempt and those after it, by induction on how many are left. -/
theorem Refundable.outcome (attempts : Nat → RefundFaults) :
    ∀ (left i : Nat) {row : UserSubscription} {db : SubscriptionDB},
      Refundable requestId record row db →
      RetryOutcome attempts requestId record row left i db := by
  intro left
  induction left with
  | zero =>
    intro i row db h
    exact h.outcome_last attempts i
  | succ left ih =>
    intro i row db h
    by_cases hf : (attempts i).Passes
    · obtain ⟨hres, hreduces⟩ := h.attempt_passes hf
      by_cases hc : (attempts i).Completes
      · -- the attempt succeeds and ends the loop
        rw [markRefunded_completes hc] at hres
        have hlast := h.outcome_last attempts i
        have hcount : passes attempts (left + 1) i = passes attempts 0 i := by
          rw [passes, passes, if_pos hf, if_pos hf, if_pos hc]
        have hretry : retryFrom (fun i => refundSubscriptionPreConsume (attempts i) requestId)
            (left + 1) i db = retryFrom (fun i => refundSubscriptionPreConsume (attempts i)
              requestId) 0 i db := by
          rw [retryFrom, retryFrom, hres]
        refine ⟨?_, ?_, ?_⟩
        · rw [hcount, ← hlast.count, reductions, reductions, hres]
          rfl
        · rw [hretry, hcount]
          exact hlast.used
        · rw [hretry, hcount]
          exact hlast.ok
      · -- the row is reduced, the record is not marked, and the loop goes on
        obtain ⟨e, he⟩ := markRefunded_not_completes hc record
          (db.saveSub (row.addUsed (-record.preConsumed)))
        rw [he] at hres
        have hnext := ih (i + 1) h.postConsume.2
        have hcount : passes attempts (left + 1) i = 1 + passes attempts left (i + 1) := by
          rw [passes, if_pos hf, if_neg hc]
        refine ⟨?_, ?_, ?_⟩
        · rw [reductions_of_error hres, hreduces, hnext.count, hcount]
          rfl
        · rw [retryFrom, hres, hnext.used, hcount]
          exact max_sub_mul _ h.positive
        · intro _
          rw [hcount]
          omega
    · obtain ⟨⟨e, hres⟩, hreduces⟩ := h.attempt_fails hf
      have hnext := ih (i + 1) h
      have hcount : passes attempts (left + 1) i = passes attempts left (i + 1) := by
        rw [passes, if_neg hf]
      refine ⟨?_, ?_, ?_⟩
      · rw [reductions_of_error hres, hreduces, hnext.count, hcount]
        simp
      · rw [retryFrom, hres, hcount]
        exact hnext.used
      · intro hok
        rw [retryFrom, hres] at hok
        rw [hcount]
        exact hnext.ok hok

/-! ### Once -/

/--
The first attempt that gets through its nested transaction also gets through what comes
after it, or no later attempt gets through its own.
-/
def RetriesSafely (attempts : Nat → RefundFaults) : (left i : Nat) → Prop
  | 0, _ => True
  | left + 1, i =>
    if (attempts i).Passes then
      (attempts i).Completes ∨ ∀ j ≤ left, ¬(attempts (i + 1 + j)).Passes
    else RetriesSafely attempts left (i + 1)

theorem passes_eq_zero_iff (attempts : Nat → RefundFaults) :
    ∀ (left i : Nat), passes attempts left i = 0 ↔ ∀ j ≤ left, ¬(attempts (i + j)).Passes := by
  intro left
  induction left with
  | zero =>
    intro i
    rw [passes]
    constructor
    · intro hzero j hj
      obtain rfl : j = 0 := by omega
      intro hf
      rw [Nat.add_zero] at hf
      rw [if_pos hf] at hzero
      omega
    · intro hnone
      exact if_neg (hnone 0 (Nat.le_refl 0))
  | succ left ih =>
    intro i
    rw [passes]
    constructor
    · intro hzero j hj
      by_cases hf : (attempts i).Passes
      · rw [if_pos hf] at hzero
        split at hzero <;> omega
      · rw [if_neg hf] at hzero
        rcases Nat.eq_zero_or_pos j with rfl | hpos
        · exact hf
        · have hrest := (ih (i + 1)).mp hzero (j - 1) (by omega)
          rwa [show i + 1 + (j - 1) = i + j by omega] at hrest
    · intro hnone
      have hf : ¬(attempts i).Passes := hnone 0 (Nat.zero_le _)
      rw [if_neg hf]
      refine (ih (i + 1)).mpr ?_
      intro j hj
      rw [show i + 1 + j = i + (j + 1) by omega]
      exact hnone (j + 1) (by omega)

theorem passes_le_one_iff (attempts : Nat → RefundFaults) :
    ∀ (left i : Nat), passes attempts left i ≤ 1 ↔ RetriesSafely attempts left i := by
  intro left
  induction left with
  | zero =>
    intro i
    rw [passes, RetriesSafely]
    split <;> simp
  | succ left ih =>
    intro i
    rw [passes, RetriesSafely]
    by_cases hf : (attempts i).Passes
    · rw [if_pos hf, if_pos hf]
      by_cases hc : (attempts i).Completes
      · rw [if_pos hc]
        simp [hc]
      · rw [if_neg hc, ← passes_eq_zero_iff attempts left (i + 1)]
        constructor
        · intro hle
          exact .inr (by omega)
        · rintro (hcompletes | hzero)
          · exact absurd hcompletes hc
          · omega
    · rw [if_neg hf, if_neg hf]
      exact ih (i + 1)

/--
**A retried refund gives the amount back once exactly when no attempt repeats a nested
transaction that has committed.**  `reductions` is what happens to the row: the amount
used goes down by that many times the recorded amount.
-/
theorem refund_once_iff {attempts : Nat → RefundFaults}
    (h : Refundable requestId record row db) :
    (refundWithRetry (fun i => refundSubscriptionPreConsume (attempts i) requestId)
        db).2.amountUsed record.userSubscriptionId =
      max (row.amountUsed - reductions attempts requestId 2 0 db * record.preConsumed) 0 ∧
    ((reductions attempts requestId 2 0 db ≤ 1 ∧
        ((refundWithRetry (fun i => refundSubscriptionPreConsume (attempts i) requestId) db).1 =
          .ok () → reductions attempts requestId 2 0 db = 1)) ↔
      RetriesSafely attempts 2 0) := by
  have hout := h.outcome attempts 2 0
  unfold refundWithRetry
  rw [hout.count]
  refine ⟨hout.used, ?_⟩
  rw [← passes_le_one_iff]
  constructor
  · intro honce
    exact honce.1
  · intro hle
    refine ⟨hle, ?_⟩
    intro hok
    have hpos := hout.ok hok
    omega

/-! ### A record that cannot be saved -/

def thirtyUsed : UserSubscription where
  id := 1
  userId := 1
  planId := 1
  amountTotal := 100
  amountUsed := 30
  startTime := 0
  endTime := 1000
  status := .active
  lastResetTime := 0
  nextResetTime := 0

def tenRecorded : SubscriptionPreConsumeRecord := ⟨"r", 1, 1, 10, .consumed⟩

def chargedDB : SubscriptionDB := ⟨⟨[thirtyUsed], by simp⟩, ⟨[tenRecorded], by simp⟩⟩

theorem chargedDB_refundable : Refundable "r" tenRecorded thirtyUsed chargedDB :=
  ⟨by decide, rfl, rfl, by decide, rfl, by decide, by decide, by decide⟩

/-- Saving the record fails in the first attempt, and nothing fails in the second. -/
def saveFailsOnce : Nat → RefundFaults
  | 0 => { RefundFaults.none with save := some .database }
  | _ + 1 => .none

/-- The retry reports success and 20 have been given back for a charge of 10. -/
theorem refunded_twice :
    Refundable "r" tenRecorded thirtyUsed chargedDB ∧
      (refundWithRetry (fun i => refundSubscriptionPreConsume (saveFailsOnce i) "r")
        chargedDB).1 = .ok () ∧
      reductions saveFailsOnce "r" 2 0 chargedDB = 2 ∧
      (refundWithRetry (fun i => refundSubscriptionPreConsume (saveFailsOnce i) "r")
        chargedDB).2.amountUsed 1 = 10 :=
  ⟨chargedDB_refundable, rfl, by decide, by decide⟩

/-- The nested transaction fails in the first attempt, and nothing fails in the second. -/
def nestedFailsOnce : Nat → RefundFaults
  | 0 => { RefundFaults.none with nested := some .database }
  | _ + 1 => .none

theorem refund_once_nested :
    reductions nestedFailsOnce "r" 2 0 chargedDB ≤ 1 ∧
      ((refundWithRetry (fun i => refundSubscriptionPreConsume (nestedFailsOnce i) "r")
        chargedDB).1 = .ok () → reductions nestedFailsOnce "r" 2 0 chargedDB = 1) := by
  have hsafe : RetriesSafely nestedFailsOnce 2 0 := by
    rw [RetriesSafely, if_neg (by decide), RetriesSafely, if_pos (by decide)]
    exact .inl (by decide)
  exact (refund_once_iff chargedDB_refundable).2.mpr hsafe

end JulongApi

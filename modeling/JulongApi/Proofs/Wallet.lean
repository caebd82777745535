/-
The ceiling of a wallet.

Three writers carry the ceiling in their statement: a direct increase, a top-up and the
check-in on SQLite.  Reservations and charges only lower the balance.  What is left are
three unguarded additions: the check-in in a transaction, the refund to an agent and the
batch updater.  Each step keeps the balance under the ceiling exactly when it is not one
of these three landing above it (`step_capped_iff`), and so does a run
(`wallet_capped_iff`).
-/
import JulongApi.Wallet
import JulongApi.Proofs.Quota

namespace JulongApi

section Column

variable {cfg : QuotaConfig} {r : QuotaReply} {c : QuotaColumn} {quota : Int}

/-! ### Calls on the column -/

theorem persistQuotaDelta_stored_le {delta : Int} (h : delta ≤ 0) :
    (persistQuotaDelta cfg r c delta).2.stored ≤ c.stored := by
  unfold persistQuotaDelta
  split
  · exact le_refl _
  · split
    · exact le_refl _
    · show c.stored + delta ≤ c.stored
      omega

theorem reserveQuotaDB_stored_le (h : 0 ≤ quota) :
    (reserveQuotaDB r c quota).2.stored ≤ c.stored := by
  unfold reserveQuotaDB
  split
  · exact le_refl _
  · split
    · show c.stored - quota ≤ c.stored
      omega
    · exact le_refl _

theorem tryReserveQuota_stored_le : (tryReserveQuota cfg r c quota).2.stored ≤ c.stored := by
  unfold tryReserveQuota
  split
  · exact le_refl _
  next hneg =>
  have hquota : 0 ≤ quota := not_lt.mp hneg
  split
  · exact le_refl _
  split
  · exact reserveQuotaDB_stored_le hquota
  split
  · exact reserveQuotaDB_stored_le hquota
  · exact reserveQuotaDB_stored_le hquota
  · exact le_refl _
  · have hle : (persistQuotaDelta cfg r c (-quota)).2.stored ≤ c.stored :=
      persistQuotaDelta_stored_le (by omega)
    split
    · next hpersist => rwa [hpersist] at hle
    · next hpersist => rwa [hpersist] at hle

theorem decreaseQuota_stored_le : (decreaseQuota cfg r c quota).2.stored ≤ c.stored := by
  unfold decreaseQuota
  split
  · exact le_refl _
  · exact persistQuotaDelta_stored_le (by omega)

theorem increaseUserQuota_capped (h : c.stored ≤ maxWalletQuota) :
    (increaseUserQuota cfg r c quota).2.stored ≤ maxWalletQuota := by
  unfold increaseUserQuota
  split
  · exact h
  split
  · exact h
  split
  · exact h
  split
  · exact h
  split
  · show c.stored + quota ≤ maxWalletQuota
    omega
  · exact h

theorem settle_capped {delta : Int} (h : c.stored ≤ maxWalletQuota) :
    (WalletFunding.settle cfg r c delta).2.stored ≤ maxWalletQuota := by
  unfold WalletFunding.settle
  split
  · exact h
  split
  · exact decreaseQuota_stored_le.trans h
  · exact increaseUserQuota_capped h

theorem creditTopUpQuota_capped {stored credited after : Int}
    (h : creditTopUpQuota stored credited = .ok after) :
    0 < credited ∧ after = stored + credited ∧ after ≤ maxWalletQuota := by
  unfold creditTopUpQuota topUpQuotaMaxCurrent at h
  split at h
  · simp at h
  · rename_i hmax
    split at hmax
    · simp at hmax
    · cases hmax
      split at h
      · cases h
        omega
      · simp at h

end Column

/-! ### One step -/

namespace WalletSystem

variable {cfg : QuotaConfig} {s t : WalletSystem} {a : WalletAct}

def Capped (s : WalletSystem) : Prop := s.column.stored ≤ maxWalletQuota

def Fits (s : WalletSystem) (dbOk : Bool) (delta : Int) : Prop :=
  dbOk = true → s.column.stored + delta ≤ maxWalletQuota

/-- None of the unguarded additions lands above the ceiling. -/
def Admits (s : WalletSystem) : WalletAct → Prop
  | .checkin false setting roll r => s.Fits r.dbOk (setting.quotaAwarded roll)
  | .refundAgent refund dbOk => s.Fits dbOk refund
  | .flush dbOk => ∀ delta, s.flushing = some delta → s.Fits dbOk delta
  | _ => True

theorem add_capped_iff {dbOk : Bool} {delta : Int} {c : QuotaColumn} {flushing : Option Int}
    (h : c.stored ≤ maxWalletQuota) :
    (c.add dbOk delta).stored ≤ maxWalletQuota ↔ Fits ⟨c, flushing⟩ dbOk delta := by
  unfold QuotaColumn.add Fits
  cases dbOk with
  | true => simp
  | false => simpa using h

/-- **A step stays under the ceiling exactly when its addition fits.** -/
theorem step_capped_iff (hs : s.Capped) (h : step cfg s a = some t) :
    t.Capped ↔ s.Admits a := by
  cases a with
  | reserve r quota =>
    cases h
    exact iff_of_true (tryReserveQuota_stored_le.trans hs) trivial
  | settle r delta =>
    cases h
    exact iff_of_true (settle_capped hs) trivial
  | increase db r quota =>
    cases h
    exact iff_of_true (increaseUserQuota_capped hs) trivial
  | creditTopUp credited committed =>
    refine iff_of_true ?_ trivial
    simp only [step] at h
    split at h
    · rename_i after hcredit
      cases h
      split
      · exact (creditTopUpQuota_capped hcredit).2.2
      · exact hs
    · cases h
      exact hs
  | checkin sqlite setting roll r =>
    cases sqlite with
    | true =>
      cases h
      exact iff_of_true (increaseUserQuota_capped hs) trivial
    | false =>
      cases h
      exact add_capped_iff hs
  | refundAgent refund dbOk =>
    cases h
    exact add_capped_iff hs
  | swap =>
    refine iff_of_true ?_ trivial
    simp only [step] at h
    split at h
    · cases h
      exact hs
    · simp at h
  | flush dbOk =>
    simp only [step] at h
    split at h
    · rename_i delta hflushing
      cases h
      have hiff : (s.column.add dbOk delta).stored ≤ maxWalletQuota ↔ s.Fits dbOk delta :=
        add_capped_iff hs
      refine hiff.trans ⟨?_, fun hall => hall delta hflushing⟩
      intro hfits delta' hdelta'
      cases hflushing.symm.trans hdelta'
      exact hfits
    · simp at h

theorem admits_of_stuck (h : step cfg s a = none) : s.Admits a := by
  cases a with
  | flush dbOk =>
    intro delta hdelta
    simp [step, hdelta] at h
  | checkin sqlite setting roll r => cases sqlite <;> simp [step] at h
  | refundAgent refund dbOk => simp [step] at h
  | _ => trivial

/-! ### A whole run -/

/--
**A wallet stays under its ceiling all the way exactly when no unguarded addition lands above
it.**
-/
theorem wallet_capped_iff {quota : Int} {acts : List WalletAct}
    (hcap : quota ≤ maxWalletQuota) :
    (∀ pre, pre <+: acts → ∀ t, Machine.run (step cfg) (idle quota) pre = some t →
      t.column.stored ≤ maxWalletQuota) ↔ Machine.Meets (step cfg) Admits (idle quota) acts := by
  have hstep : ∀ s a t, Capped s → step cfg s a = some t → (Capped t ↔ Admits s a) :=
    fun s a t hs h => step_capped_iff hs h
  exact (Machine.meets_iff_always Capped hstep (fun s a h => admits_of_stuck h) acts (idle quota)
    hcap).symm

def sampleRefund (quota : Int) : List WalletAct :=
  [.increase false ⟨none, false, none, true⟩ quota, .swap, .flush true]

theorem wallet_capped_sample : ∃ t,
    Machine.run (step ⟨true, true⟩) (idle 100) (sampleRefund 10) = some t ∧
    t.column.stored = 110 ∧ t.column.stored ≤ maxWalletQuota := by
  refine ⟨_, rfl, rfl, ?_⟩
  have hmeets : Machine.Meets (step ⟨true, true⟩) Admits (idle 100) (sampleRefund 10) := by
    refine ⟨trivial, fun s₁ h₁ => ⟨trivial, fun s₂ h₂ => ?_⟩⟩
    cases h₁
    cases h₂
    refine ⟨?_, fun s₃ _ => trivial⟩
    intro delta hdelta _
    obtain rfl : (10 : Int) = delta := Option.some.inj hdelta
    decide
  exact (wallet_capped_iff (by decide)).mpr hmeets _ List.prefix_rfl _ rfl

/-- A wallet at its ceiling, and a refund of 1 that the batch store has accepted. -/
theorem flush_exceeds_ceiling : ∃ t,
    Machine.run (step ⟨true, true⟩) (idle maxWalletQuota) (sampleRefund 1) = some t ∧
    ¬t.column.stored ≤ maxWalletQuota :=
  ⟨_, rfl, by decide⟩

end WalletSystem

end JulongApi

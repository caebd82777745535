/-
What the quota calls do to a balance.

Each call either moves the balance by exactly the amount it names or leaves the
column as it found it; which of the two is read off its result.  `Moves` says the
first, and it also records the one thing the wallet's upper limit needs: outside
batch mode nothing is ever queued, so the stored column carries the whole change.
-/
import JulongApi.Quota

namespace JulongApi

/-- The column went from `c` to `c'` with its balance changed by `delta`. -/
structure Moves (cfg : QuotaConfig) (c c' : QuotaColumn) (delta : Int) : Prop where
  balance : c'.balance = c.balance + delta
  pending : cfg.batchUpdateEnabled = false → c'.pending = c.pending

namespace Moves

variable {cfg : QuotaConfig} {c c' c'' : QuotaColumn} {d e : Int}

theorem refl (cfg : QuotaConfig) (c : QuotaColumn) : Moves cfg c c 0 :=
  ⟨by simp, fun _ => rfl⟩

theorem trans (h : Moves cfg c c' d) (h' : Moves cfg c' c'' e) : Moves cfg c c'' (d + e) := by
  refine ⟨?_, fun hb => (h'.pending hb).trans (h.pending hb)⟩
  rw [h'.balance, h.balance, Int.add_assoc]

theorem stored (h : Moves cfg c c' d) (hb : cfg.batchUpdateEnabled = false) :
    c'.stored = c.stored + d := by
  have hbal := h.balance
  have hpend := h.pending hb
  unfold QuotaColumn.balance at hbal
  omega

end Moves

variable {cfg : QuotaConfig} {r : QuotaReply} {c c' : QuotaColumn} {quota : Int}

/-! ### Writes -/

theorem persistQuotaDelta_ok {delta : Int}
    (h : persistQuotaDelta cfg r c delta = (.ok (), c')) : Moves cfg c c' delta := by
  unfold persistQuotaDelta at h
  split at h
  · rename_i hb
    cases h
    exact ⟨by simp [QuotaColumn.balance, Int.add_assoc], by simp [hb]⟩
  · split at h
    · simp at h
    · cases h
      exact ⟨by simp only [QuotaColumn.balance]; omega, fun _ => rfl⟩

theorem persistQuotaDelta_error {delta : Int} {e : QuotaError}
    (h : persistQuotaDelta cfg r c delta = (.error e, c')) : c' = c := by
  unfold persistQuotaDelta at h
  split at h
  · simp at h
  · split at h
    · exact (Prod.mk.inj h).2.symm
    · simp at h

theorem persistQuotaDelta_of_dbOk (hdb : r.dbOk = true) (delta : Int) :
    ∃ c', persistQuotaDelta cfg r c delta = (.ok (), c') ∧ Moves cfg c c' delta := by
  have hres : ∃ c', persistQuotaDelta cfg r c delta = (.ok (), c') := by
    unfold persistQuotaDelta
    cases cfg.batchUpdateEnabled <;> simp [hdb]
  obtain ⟨c', hc'⟩ := hres
  exact ⟨c', hc', persistQuotaDelta_ok hc'⟩

theorem decreaseQuota_of_dbOk (hdb : r.dbOk = true) (hq : 0 ≤ quota) :
    ∃ c', decreaseQuota cfg r c quota = (.ok (), c') ∧ Moves cfg c c' (-quota) := by
  unfold decreaseQuota
  rw [if_neg (not_lt.mpr hq)]
  exact persistQuotaDelta_of_dbOk hdb (-quota)

theorem decreaseQuota_ok (h : decreaseQuota cfg r c quota = (.ok (), c')) :
    0 ≤ quota ∧ Moves cfg c c' (-quota) := by
  unfold decreaseQuota at h
  split at h
  · simp at h
  · next hneg => exact ⟨by omega, persistQuotaDelta_ok h⟩

theorem decreaseQuota_error {e : QuotaError}
    (h : decreaseQuota cfg r c quota = (.error e, c')) : c' = c := by
  unfold decreaseQuota at h
  split at h
  · exact (Prod.mk.inj h).2.symm
  · exact persistQuotaDelta_error h

theorem increaseTokenQuota_ok (h : increaseTokenQuota cfg r c quota = (.ok (), c')) :
    0 ≤ quota ∧ Moves cfg c c' quota := by
  unfold increaseTokenQuota at h
  split at h
  · simp at h
  · next hneg => exact ⟨by omega, persistQuotaDelta_ok h⟩

theorem increaseTokenQuota_of_dbOk (hdb : r.dbOk = true) (hq : 0 ≤ quota) :
    ∃ c', increaseTokenQuota cfg r c quota = (.ok (), c') ∧ Moves cfg c c' quota := by
  unfold increaseTokenQuota
  rw [if_neg (not_lt.mpr hq)]
  exact persistQuotaDelta_of_dbOk hdb quota

theorem increaseUserQuota_ok (h : increaseUserQuota cfg r c quota = (.ok (), c')) :
    0 ≤ quota ∧ Moves cfg c c' quota := by
  unfold increaseUserQuota at h
  split_ifs at h with hneg hmax hb hdb hlim <;>
    simp only [Prod.mk.injEq, reduceCtorEq, false_and, true_and] at h
  · subst h
    exact ⟨by omega, ⟨by simp [QuotaColumn.balance, Int.add_assoc], by simp [hb]⟩⟩
  · subst h
    exact ⟨by omega, ⟨by simp only [QuotaColumn.balance]; omega, fun _ => rfl⟩⟩

theorem increaseUserQuota_error {e : QuotaError}
    (h : increaseUserQuota cfg r c quota = (.error e, c')) : c' = c := by
  unfold increaseUserQuota at h
  split_ifs at h <;> simp only [Prod.mk.injEq, reduceCtorEq, false_and] at h <;>
    exact h.2.symm

def walletRoom (cfg : QuotaConfig) (c : QuotaColumn) (quota : Int) : Prop :=
  quota ≤ maxWalletQuota ∧ (cfg.batchUpdateEnabled = false → c.stored ≤ maxWalletQuota - quota)

theorem increaseUserQuota_of_no_room (hroom : ¬walletRoom cfg c quota) :
    (increaseUserQuota cfg r c quota).2 = c := by
  rcases h : increaseUserQuota cfg r c quota with ⟨_ | _, c'⟩
  · exact increaseUserQuota_error h
  · exfalso
    apply hroom
    unfold increaseUserQuota at h
    split_ifs at h with hneg hmax hb hdb hlim <;>
      simp only [Prod.mk.injEq, reduceCtorEq, false_and, true_and] at h
    · exact ⟨by omega, by simp [hb]⟩
    · exact ⟨by omega, fun _ => hlim⟩

theorem increaseUserQuota_of_room (hdb : r.dbOk = true) (hq : 0 ≤ quota)
    (hroom : walletRoom cfg c quota) :
    ∃ c', increaseUserQuota cfg r c quota = (.ok (), c') ∧ Moves cfg c c' quota := by
  have hmax := hroom.1
  have hres : ∃ c', increaseUserQuota cfg r c quota = (.ok (), c') := by
    unfold increaseUserQuota
    rw [if_neg (by omega), if_neg (by omega)]
    cases hb : cfg.batchUpdateEnabled with
    | true => simp
    | false => simp [hdb, hroom.2 hb]
  obtain ⟨c', hc'⟩ := hres
  exact ⟨c', hc', (increaseUserQuota_ok hc').2⟩

/-! ### Reservations -/

theorem reserveQuotaDB_true (h : reserveQuotaDB r c quota = (.ok true, c')) :
    Moves cfg c c' (-quota) := by
  unfold reserveQuotaDB at h
  split_ifs at h <;> simp only [Prod.mk.injEq, reduceCtorEq, false_and, true_and] at h
  · subst h
    exact ⟨by simp only [QuotaColumn.balance]; omega, fun _ => rfl⟩
  · simp at h

variable {res : Except QuotaError Bool}

theorem reserveQuotaDB_not_true (h : reserveQuotaDB r c quota = (res, c')) (hres : res ≠ .ok true) :
    c' = c := by
  unfold reserveQuotaDB at h
  split_ifs at h
  · exact (Prod.mk.inj h).2.symm
  · exact absurd (Prod.mk.inj h).1.symm hres
  · exact (Prod.mk.inj h).2.symm

theorem tryReserveQuota_true (h : tryReserveQuota cfg r c quota = (.ok true, c')) :
    Moves cfg c c' (-quota) := by
  unfold tryReserveQuota at h
  split_ifs at h with hneg hzero hredis
  · simp at h
  · cases h
    simpa [hzero] using Moves.refl cfg c
  · exact reserveQuotaDB_true h
  · split at h
    · exact reserveQuotaDB_true h
    · exact reserveQuotaDB_true h
    · simp at h
    · split at h
      · rename_i hp
        cases h
        exact persistQuotaDelta_ok hp
      · simp at h

theorem tryReserveQuota_not_true (h : tryReserveQuota cfg r c quota = (res, c'))
    (hres : res ≠ .ok true) : c' = c := by
  unfold tryReserveQuota at h
  split_ifs at h with hneg hzero hredis
  · exact (Prod.mk.inj h).2.symm
  · exact (Prod.mk.inj h).2.symm
  · exact reserveQuotaDB_not_true h hres
  · split at h
    · exact reserveQuotaDB_not_true h hres
    · exact reserveQuotaDB_not_true h hres
    · exact (Prod.mk.inj h).2.symm
    · split at h
      · exact absurd (Prod.mk.inj h).1.symm hres
      · rename_i hp
        cases h
        exact persistQuotaDelta_error hp

theorem tryReserveTokenQuota_true {unlimited : Bool}
    (h : tryReserveTokenQuota cfg r c quota unlimited = (.ok true, c')) :
    Moves cfg c c' (-quota) := by
  unfold tryReserveTokenQuota at h
  split_ifs at h with hneg hzero hunl
  · simp at h
  · cases h
    simpa [hzero] using Moves.refl cfg c
  · split at h
    · rename_i hd
      cases h
      exact (decreaseQuota_ok hd).2
    · simp at h
  · exact tryReserveQuota_true h

theorem tryReserveTokenQuota_not_true {unlimited : Bool}
    (h : tryReserveTokenQuota cfg r c quota unlimited = (res, c')) (hres : res ≠ .ok true) :
    c' = c := by
  unfold tryReserveTokenQuota at h
  split_ifs at h with hneg hzero hunl
  · exact (Prod.mk.inj h).2.symm
  · exact (Prod.mk.inj h).2.symm
  · split at h
    · exact absurd (Prod.mk.inj h).1.symm hres
    · rename_i hd
      cases h
      exact decreaseQuota_error hd
  · exact tryReserveQuota_not_true h hres

end JulongApi

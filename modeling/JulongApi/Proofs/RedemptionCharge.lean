/-
What an agent pays for redemption codes.

The price of a batch is the quota of its codes at the agent's discount, rounded up.  The
charge is worked out in an `int64`, and the largest batch the handler lets through costs
more than that holds, so the two are equal exactly as long as the product fits.

Creating the codes books the charge twice: it leaves the wallet, and it is written down on
the codes in parts (`agentChargeShare`), so that deleting them can give it back.
-/
import JulongApi.Proofs.RedemptionRefund

namespace JulongApi

/-! ### The charge -/

theorem ceil_percent (x : Int) : ⌈(x : ℚ) / 100⌉ = (x + 99) / 100 := by
  rw [Int.ceil_eq_iff]
  have hlow : 100 * ((x + 99) / 100) < x + 100 := by omega
  have hhigh : x ≤ 100 * ((x + 99) / 100) := by omega
  constructor
  · rw [lt_div_iff₀ (by norm_num), sub_mul, one_mul, sub_lt_iff_lt_add]
    exact_mod_cast (mul_comm ((x + 99) / 100) 100).trans_lt hlow
  · rw [div_le_iff₀ (by norm_num)]
    exact_mod_cast hhigh.trans_eq (mul_comm 100 ((x + 99) / 100))

/-- What `count` codes of `quota` cost at a discount, in percent of their quota. -/
def redemptionPrice (quota count discount : Int) : Int :=
  ⌈((quota * count * discount : Int) : ℚ) / 100⌉

theorem redemptionPrice_nonneg {quota count discount : Int} (hquota : 0 < quota)
    (hcount : 0 < count) (hdiscount : 0 ≤ discount) :
    0 ≤ redemptionPrice quota count discount := by
  have hproduct : 0 ≤ quota * count * discount :=
    mul_nonneg (mul_nonneg hquota.le hcount.le) hdiscount
  unfold redemptionPrice
  rw [ceil_percent]
  omega

theorem calculateAgentRedemptionCharge_eq_iff {quota count discount : Int} (hquota : 0 < quota)
    (hcount : 0 < count) (hdiscount : 0 ≤ discount) :
    calculateAgentRedemptionCharge quota count discount = redemptionPrice quota count discount ↔
      quota * count * discount + 99 < 2 ^ 63 := by
  have hproduct : 0 ≤ quota * count * discount :=
    mul_nonneg (mul_nonneg hquota.le hcount.le) hdiscount
  unfold calculateAgentRedemptionCharge redemptionPrice
  rw [ceil_percent]
  by_cases hfree : discount = 0
  · subst hfree
    simp
  rw [if_neg (by omega)]
  generalize quota * count * discount = product at hproduct
  unfold wrapInt64
  by_cases hfits : product + 99 < 2 ^ 63
  · have hwrap : (product + 99 + 2 ^ 63) % 2 ^ 64 - 2 ^ 63 = product + 99 := by omega
    rw [hwrap, Int.tdiv_eq_ediv_of_nonneg (by omega)]
    exact iff_of_true rfl hfits
  · refine iff_of_false (fun heq => ?_) hfits
    -- what is left of a product that does not fit is at least 2 ^ 64 below it
    have hlost : (product + 99 + 2 ^ 63) % 2 ^ 64 - 2 ^ 63 ≤ product + 99 - 2 ^ 64 := by omega
    generalize (product + 99 + 2 ^ 63) % 2 ^ 64 - 2 ^ 63 = left at heq hlost
    by_cases hleft : 0 ≤ left
    · rw [Int.tdiv_eq_ediv_of_nonneg hleft] at heq
      omega
    · have hneg : left.tdiv 100 ≤ 0 := by
        rw [← neg_nonneg, ← Int.neg_tdiv]
        exact Int.tdiv_nonneg (by omega) (by omega)
      omega

namespace RedemptionDB

variable {db db' : RedemptionDB} {req : AddRedemptionRequest} {userId : Nat} {charge now : Int}

/-- What the handler has checked when an agent's request gets its charge. -/
structure Admits (req : AddRedemptionRequest) (user : RedemptionUser) : Prop where
  quota_pos : 0 < req.quota
  quota_le : req.quota ≤ maxWalletQuota
  count_pos : 0 < req.count
  count_le : req.count ≤ 100
  discount_nonneg : 0 ≤ user.agentDiscount
  discount_le : user.agentDiscount ≤ 100

variable {user : RedemptionUser}

theorem addRedemptionCharge_agent {role : Int} (hrole : role < roleAdminUser)
    (huser : db.users.find userId = some user)
    (h : addRedemptionCharge db userId role req now = some charge) :
    Admits req user ∧
      charge = calculateAgentRedemptionCharge req.quota req.count user.agentDiscount := by
  unfold addRedemptionCharge at h
  rw [huser, if_neg (not_le.mpr hrole)] at h
  obtain ⟨hname, h⟩ := Option.ite_none_left_eq_some.mp h
  obtain ⟨hquota, h⟩ := Option.ite_none_left_eq_some.mp h
  obtain ⟨hcount, h⟩ := Option.ite_none_left_eq_some.mp h
  obtain ⟨hmax, h⟩ := Option.ite_none_left_eq_some.mp h
  obtain ⟨hexpired, h⟩ := Option.ite_none_left_eq_some.mp h
  dsimp only at h
  obtain ⟨hagent, h⟩ := Option.ite_none_left_eq_some.mp h
  obtain ⟨hnever, h⟩ := Option.ite_none_left_eq_some.mp h
  obtain ⟨hdiscount, h⟩ := Option.ite_none_left_eq_some.mp h
  refine ⟨?_, (Option.some.inj h).symm⟩
  constructor <;> omega

/-! ### The wallet and the codes -/

theorem chargeWallet_some (huser : db.users.find userId = some user) (hcharge : 0 ≤ charge)
    (h : db.chargeWallet userId charge = some db') :
    ∃ user', db'.users.find userId = some user' ∧ user'.quota = user.quota - charge := by
  have hid : user.id = userId := Table.key_of_find huser
  unfold chargeWallet at h
  rw [huser] at h
  by_cases hpos : 0 < charge
  · rw [if_pos hpos] at h
    dsimp only at h
    by_cases henough : charge ≤ user.quota
    · rw [if_pos henough] at h
      cases h
      obtain rfl := hid
      have hnew : (db.users.save { user with quota := user.quota - charge }).find user.id =
          some { user with quota := user.quota - charge } :=
        @Table.find_save_self _ _ _ _ _ { user with quota := user.quota - charge } _ huser
      exact ⟨_, hnew, rfl⟩
    · simp [henough] at h
  · rw [if_neg hpos] at h
    cases h
    exact ⟨user, huser, by omega⟩

theorem chargeWallet_isSome (huser : db.users.find userId = some user)
    (henough : charge ≤ user.quota) :
    ∃ charged, db.chargeWallet userId charge = some charged ∧
      charged.redemptions = db.redemptions := by
  unfold chargeWallet
  rw [huser]
  by_cases hpos : 0 < charge
  · rw [if_pos hpos]
    dsimp only
    rw [if_pos henough]
    exact ⟨_, rfl, rfl⟩
  · rw [if_neg hpos]
    exact ⟨db, rfl, rfl⟩

theorem createCodes_rows : ∀ {codes : List (Nat × String)} {i : Nat} {db : RedemptionDB},
    createCodes req userId charge now i codes db = some db' →
    db'.users = db.users ∧ ∃ created, db'.redemptions.rows = created ++ db.redemptions.rows ∧
      created.length = codes.length ∧
      (0 < charge → (created.map (·.agentCharge)).sum =
        chargeShareSum charge req.count (i + codes.length) - chargeShareSum charge req.count i) ∧
      (charge ≤ 0 → (created.map (·.agentCharge)).sum = 0) := by
  intro codes
  induction codes with
  | nil =>
    intro i db h
    cases h
    exact ⟨rfl, [], rfl, rfl, by simp, by simp⟩
  | cons head rest ih =>
    obtain ⟨newId, key⟩ := head
    intro i db h
    obtain ⟨redemptions, hinsert, h⟩ := createCodes_cons h
    obtain ⟨husers, created, hrows, hlength, hsum, hfree⟩ := ih h
    refine ⟨husers, created ++ [req.code userId charge now i newId key], ?_, ?_, ?_, ?_⟩
    · rw [hrows, Table.rows_of_insert hinsert, List.append_assoc]
      rfl
    · rw [List.length_append, hlength]
      rfl
    · intro hpos
      have hsucc := chargeShareSum_succ hpos req.count i
      have hindex : i + 1 + rest.length = i + ((newId, key) :: rest).length := by
        rw [List.length_cons]
        omega
      rw [List.map_append, List.sum_append, hsum hpos, hindex, List.map_singleton,
        List.sum_singleton]
      show _ + agentChargeShare charge req.count i = _
      omega
    · intro hle
      rw [List.map_append, List.sum_append, hfree hle, List.map_singleton, List.sum_singleton]
      show 0 + agentChargeShare charge req.count i = 0
      rw [agentChargeShare, if_neg (not_lt.mpr hle), add_zero]

/-- Ids and keys that nothing has yet, each given to one code. -/
structure Fresh (db : RedemptionDB) (codes : List (Nat × String)) : Prop where
  ids : ∀ code ∈ codes, db.redemptions.find code.1 = none
  keys : ∀ code ∈ codes, ∀ row ∈ db.redemptions.rows, row.key ≠ code.2
  distinct : codes.Pairwise fun a b => a.1 ≠ b.1 ∧ a.2 ≠ b.2

theorem createCodes_isSome : ∀ {codes : List (Nat × String)} {i : Nat} {db : RedemptionDB},
    db.Fresh codes → ∃ db', createCodes req userId charge now i codes db = some db' := by
  intro codes
  induction codes with
  | nil => exact fun _ => ⟨_, rfl⟩
  | cons head rest ih =>
    obtain ⟨newId, key⟩ := head
    intro i db hfresh
    obtain ⟨hapart, hdistinct⟩ := List.pairwise_cons.mp hfresh.distinct
    have hkey : db.redemptions.rows.any (·.key = key) = false := by
      simp only [List.any_eq_false, decide_eq_true_eq]
      exact hfresh.keys (newId, key) (by simp)
    obtain ⟨redemptions, hinsert⟩ : ∃ redemptions,
        db.redemptions.insert (req.code userId charge now i newId key) = some redemptions := by
      refine Option.ne_none_iff_exists'.mp fun hnone => ?_
      obtain ⟨old, hold⟩ := Table.insert_eq_none hnone
      exact absurd (hold.symm.trans (hfresh.ids (newId, key) (by simp))) (by simp)
    have hrest : Fresh { db with redemptions := redemptions } rest := by
      refine ⟨fun code hcode => ?_, fun code hcode row hrow => ?_, hdistinct⟩
      · have hne : newId ≠ code.1 := (hapart code hcode).1
        have hold := Table.find_insert_ne hinsert hne
        exact hold.trans (hfresh.ids code (List.mem_cons_of_mem _ hcode))
      · obtain rfl | hrow := Table.mem_insert hinsert hrow
        · exact (hapart code hcode).2
        · exact hfresh.keys code (List.mem_cons_of_mem _ hcode) row hrow
    obtain ⟨db', hdb'⟩ := ih hrest
    refine ⟨db', ?_⟩
    unfold createCodes
    rw [hkey, hinsert]
    exact hdb'

/-- What creating codes does when it charges `price` for them: the wallet is down by it, the codes
have it on record between them, and it goes through if the wallet covers it. -/
structure ChargesFor (db : RedemptionDB) (userId : Nat) (req : AddRedemptionRequest)
    (charge now price : Int) : Prop where
  wallet : ∀ {user codes db'}, db.users.find userId = some user →
    db.createRedemptionsWithWalletCharge userId req charge now codes = some db' →
    ∃ user', db'.users.find userId = some user' ∧ user'.quota = user.quota - price
  codes : ∀ {codes db'},
    db.createRedemptionsWithWalletCharge userId req charge now codes = some db' →
    ∃ created, db'.redemptions.rows = created ++ db.redemptions.rows ∧
      created.length = req.count ∧ (created.map (·.agentCharge)).sum = price
  succeeds : ∀ {user codes}, userId ≠ 0 → db.users.find userId = some user → price ≤ user.quota →
    codes.length = req.count → db.Fresh codes →
    ∃ db', db.createRedemptionsWithWalletCharge userId req charge now codes = some db'

theorem chargesFor_self (hcharge : 0 ≤ charge) (hcount : 0 < req.count) :
    db.ChargesFor userId req charge now charge := by
  constructor
  · intro user codes db' huser h
    unfold createRedemptionsWithWalletCharge at h
    split at h
    · simp at h
    split at h
    · simp at h
    next charged hcharged =>
    obtain ⟨husers, -⟩ := createCodes_rows h
    rw [husers]
    exact chargeWallet_some huser hcharge hcharged
  · intro codes db' h
    obtain ⟨-, hlength, charged, hsame, hcodes⟩ := createRedemptions_some h
    obtain ⟨-, created, hrows, hcreated, hsum, hfree⟩ := createCodes_rows hcodes
    refine ⟨created, hsame ▸ hrows, hcreated.trans hlength, ?_⟩
    obtain hpos | hzero := hcharge.lt_or_eq
    · rw [hsum hpos, hlength, zero_add, chargeShareSum_count hcount, chargeShareSum_zero hcount,
        sub_zero]
    · rw [hfree hzero.ge, hzero]
  · intro user codes hid huser henough hlength hfresh
    obtain ⟨charged, hcharged, hsame⟩ := chargeWallet_isSome huser henough
    have hfresh' : charged.Fresh codes :=
      ⟨hsame.symm ▸ hfresh.ids, hsame.symm ▸ hfresh.keys, hfresh.distinct⟩
    unfold createRedemptionsWithWalletCharge
    rw [if_neg (by omega), hcharged]
    exact createCodes_isSome hfresh'

/--
An agent's request that the handler admits is charged its exact price, which leaves the wallet and
is on record on the codes, if and only if the product of the three factors fits an `int64`.
-/
theorem agent_charged_price_iff (db : RedemptionDB) (agent : Nat) (user : RedemptionUser)
    (role : Int) (req : AddRedemptionRequest) (now charge : Int)
    (huser : db.users.find agent = some user) (hrole : role < roleAdminUser)
    (hcharge : addRedemptionCharge db agent role req now = some charge) :
    (charge = redemptionPrice req.quota req.count user.agentDiscount ∧
        db.ChargesFor agent req charge now
          (redemptionPrice req.quota req.count user.agentDiscount)) ↔
      req.quota * req.count * user.agentDiscount + 99 < 2 ^ 63 := by
  obtain ⟨hadmits, rfl⟩ := addRedemptionCharge_agent hrole huser hcharge
  have hcount : (0 : Int) < req.count := by exact_mod_cast hadmits.count_pos
  rw [← calculateAgentRedemptionCharge_eq_iff hadmits.quota_pos hcount hadmits.discount_nonneg]
  refine ⟨fun h => h.1, fun heq => ⟨heq, ?_⟩⟩
  have hnonneg :=
    redemptionPrice_nonneg hadmits.quota_pos hcount hadmits.discount_nonneg
  rw [heq]
  exact chargesFor_self hnonneg hadmits.count_pos

/-- A batch of `sampleTens` at the discount of `sampleAgent` costs 10. -/
theorem agent_charged_price_tens :
    redemptionPrice 10 2 50 = 10 ∧
      RedemptionDB.ChargesFor RedemptionSystem.sampleAgent 2 RedemptionSystem.sampleTens 10 0
        (redemptionPrice 10 2 50) := by
  have hprice : (10 : Int) = redemptionPrice 10 2 50 := by
    unfold redemptionPrice
    rw [ceil_percent]
    rfl
  refine ⟨hprice.symm, ?_⟩
  exact ((agent_charged_price_iff RedemptionSystem.sampleAgent 2 ⟨2, 100, 1, true, 50⟩ 1
    RedemptionSystem.sampleTens 0 10 rfl (by decide) rfl).mpr (by decide)).2

def largestBatch : AddRedemptionRequest := ⟨"gift", maxWalletQuota, 100, 0⟩

/-- The handler admits the largest batch, and the charge it arrives at is negative. -/
theorem largest_batch_not_charged :
    addRedemptionCharge ⟨⟨[], by decide⟩, ⟨[⟨2, 100, 1, true, 100⟩], by decide⟩⟩ 2 1
        largestBatch 0 = some (-21617278211378479) ∧
      (-21617278211378479) ≠ redemptionPrice maxWalletQuota 100 100 := by
  refine ⟨by decide, ?_⟩
  unfold redemptionPrice
  rw [ceil_percent]
  decide

end RedemptionDB

end JulongApi

/-
What agents are refunded for redemption codes, against what they were charged.

Each code carries the part of the charge that went to it, so what may still be refunded is
the sum of these parts over the codes that are not deleted (`outstanding`).  Creating codes
moves a charge into that sum, deleting moves a part out of it, and nothing else touches it.

This needs that a refund is of a part on record.  A part of zero reads like a part that was
never recorded, and then the refund is worked out from the present discount instead.
-/
import JulongApi.Proofs.Redemption

namespace JulongApi

/-- What the deletion of a code may still refund to an agent. -/
def Redemption.held (agent : Nat) (r : Redemption) : Int :=
  if r.userId = agent ∧ r.deleted = false then max r.agentCharge 0 else 0

theorem Redemption.held_nonneg (agent : Nat) (r : Redemption) : 0 ≤ r.held agent := by
  unfold held
  split
  · exact Int.le_max_right _ _
  · rfl

def refundSum (agent : Nat) (refunds : List Refund) : Int :=
  (refunds.map fun r => if r.agent = agent then r.amount else 0).sum

theorem refundSum_append (agent : Nat) (xs ys : List Refund) :
    refundSum agent (xs ++ ys) = refundSum agent xs + refundSum agent ys := by
  simp [refundSum]

/-! ### The parts of a charge -/

/-- What the first `i` codes of a request got of the charge. -/
def chargeShareSum (charge : Int) (count i : Nat) : Int :=
  i * (charge / count) + min (i : Int) (charge % count)

variable {charge : Int} {r : Redemption}

theorem chargeShareSum_succ (hpos : 0 < charge) (count i : Nat) :
    chargeShareSum charge count (i + 1) =
      chargeShareSum charge count i + agentChargeShare charge count i := by
  unfold chargeShareSum agentChargeShare
  rw [if_pos hpos]
  have hdistrib : ((i + 1 : Nat) : Int) * (charge / count) =
      i * (charge / count) + charge / count := by
    rw [Nat.cast_succ, add_mul, one_mul]
  split <;> omega

variable {count : Nat}

theorem chargeShareSum_count (hcount : 0 < count) : chargeShareSum charge count count = charge := by
  unfold chargeShareSum
  have hcount' : (0 : Int) < count := by exact_mod_cast hcount
  have hlt : charge % count < count := Int.emod_lt_of_pos charge hcount'
  have hdiv := Int.mul_ediv_add_emod charge count
  rw [min_eq_right hlt.le]
  exact hdiv

theorem chargeShareSum_zero (hcount : 0 < count) : chargeShareSum charge count 0 = 0 := by
  unfold chargeShareSum
  have hcount' : (count : Int) ≠ 0 := by exact_mod_cast hcount.ne'
  have hnonneg : 0 ≤ charge % count := Int.emod_nonneg charge hcount'
  simp [hnonneg]

theorem agentChargeShare_nonneg (charge : Int) (count i : Nat) :
    0 ≤ agentChargeShare charge count i := by
  unfold agentChargeShare
  split
  · rename_i hpos
    have hdiv : 0 ≤ charge / (count : Int) := Int.ediv_nonneg hpos.le (Int.natCast_nonneg count)
    split <;> omega
  · rfl

/-! ### What may still be refunded -/

namespace RedemptionDB

variable {db db' : RedemptionDB} {agent id : Nat}

def outstanding (db : RedemptionDB) (agent : Nat) : Int :=
  (db.redemptions.rows.map (Redemption.held agent)).sum

theorem outstanding_softDelete (ids : List Nat) :
    (db.softDelete ids).outstanding agent ≤ db.outstanding agent := by
  unfold outstanding softDelete
  dsimp only [Table.mapRows]
  rw [List.map_map]
  refine List.sum_le_sum ?_
  intro r _
  simp only [Function.comp_apply]
  split
  · have hzero : Redemption.held agent { r with deleted := true } = 0 := by
      simp [Redemption.held]
    rw [hzero]
    exact r.held_nonneg agent
  · rfl

variable {key : String} {codes : List (Nat × String)} {copy : Redemption}

theorem outstanding_redeem {userId : Nat} {now : Int} {r : Redemption}
    (h : db.redeem key userId now = some (r, db')) :
    db'.outstanding agent = db.outstanding agent := by
  obtain ⟨hfind, -, -, hsaved⟩ := redeem_saves h
  have hsum : ((db.redemptions.save (redeemedRow r userId now)).rows.map
      (Redemption.held agent)).sum = db.outstanding agent - Redemption.held agent r +
        Redemption.held agent (redeemedRow r userId now) := Table.sum_save _ hfind
  have hheld : Redemption.held agent (redeemedRow r userId now) = Redemption.held agent r := rfl
  rw [outstanding, hsaved, hsum, hheld, sub_add_cancel]

variable {req : AddRedemptionRequest} {userId : Nat} {now : Int}

/-- `total i` is what the first `i` codes are charged. -/
theorem outstanding_createCodes (total : Nat → Int)
    (htotal : ∀ i, total (i + 1) = total i + agentChargeShare charge req.count i) :
    ∀ {codes : List (Nat × String)} {i : Nat} {db : RedemptionDB},
      createCodes req userId charge now i codes db = some db' →
      db'.outstanding agent = db.outstanding agent +
        if userId = agent then total (i + codes.length) - total i else 0 := by
  intro codes
  induction codes with
  | nil =>
    intro i db h
    cases h
    simp
  | cons head rest ih =>
    obtain ⟨newId, key⟩ := head
    intro i db h
    obtain ⟨redemptions, hinsert, h⟩ := createCodes_cons h
    rw [ih h]
    have hinserted : outstanding { db with redemptions := redemptions } agent =
        Redemption.held agent (req.code userId charge now i newId key) + db.outstanding agent :=
      Table.sum_insert (Redemption.held agent) hinsert
    have hshare := agentChargeShare_nonneg charge req.count i
    have hheld : Redemption.held agent (req.code userId charge now i newId key) =
        if userId = agent then agentChargeShare charge req.count i else 0 := by
      simp [Redemption.held, AddRedemptionRequest.code, hshare]
    have hsucc := htotal i
    have hlength : i + 1 + rest.length = i + ((newId, key) :: rest).length := by
      rw [List.length_cons]
      omega
    rw [hinserted, hheld, hlength]
    split <;> omega

theorem outstanding_create {req : AddRedemptionRequest} {userId : Nat} {charge now : Int}
    (h : db.createRedemptionsWithWalletCharge userId req charge now codes = some db') :
    db'.outstanding agent =
      db.outstanding agent + if 0 < charge ∧ userId = agent then charge else 0 := by
  obtain ⟨hcount, hlength, charged, hrows, hcodes⟩ := createRedemptions_some h
  have hsame : charged.outstanding agent = db.outstanding agent := by
    rw [outstanding, hrows]
    rfl
  by_cases hpos : 0 < charge
  · rw [outstanding_createCodes _ (chargeShareSum_succ hpos req.count) hcodes, hsame, hlength,
      zero_add, chargeShareSum_count hcount, chargeShareSum_zero hcount, sub_zero]
    simp [hpos]
  · have hfree : ∀ i, (0 : Int) = 0 + agentChargeShare charge req.count i := fun i => by
      simp [agentChargeShare, hpos]
    rw [outstanding_createCodes (fun _ => 0) hfree hcodes, hsame]
    simp [hpos]

/-! ### Copies and their rows -/

/-- As long as a row is not deleted, it keeps its creator and its part of the charge. -/
def Follows (r row : Redemption) : Prop :=
  row.deleted = false → r.deleted = false ∧ row.userId = r.userId ∧ row.agentCharge = r.agentCharge

theorem Follows.trans {row row' : Redemption} (h : Follows r row) (h' : Follows row row') :
    Follows r row' := by
  intro hlive
  obtain ⟨hlive', huser', hcharge'⟩ := h' hlive
  obtain ⟨hlive'', huser, hcharge⟩ := h hlive'
  exact ⟨hlive'', huser'.trans huser, hcharge'.trans hcharge⟩

def Agrees (db : RedemptionDB) (r : Redemption) : Prop :=
  ∃ row, db.redemptions.find r.id = some row ∧ Follows r row

def Evolves (db db' : RedemptionDB) : Prop :=
  ∀ id row, db.redemptions.find id = some row →
    ∃ row', db'.redemptions.find id = some row' ∧ Follows row row'

theorem follows_self (r : Redemption) : Follows r r := fun h => ⟨h, rfl, rfl⟩

theorem Evolves.of_eq (h : db'.redemptions = db.redemptions) : Evolves db db' := by
  intro id row hfind
  exact ⟨row, h ▸ hfind, follows_self row⟩

theorem Agrees.evolve (hr : Agrees db r) (h : Evolves db db') : Agrees db' r := by
  obtain ⟨row, hfind, hfollows⟩ := hr
  obtain ⟨row', hfind', hfollows'⟩ := h _ _ hfind
  exact ⟨row', hfind', hfollows.trans hfollows'⟩

theorem agrees_of_mem (h : r ∈ db.redemptions.rows) : Agrees db r :=
  ⟨r, Table.find_of_mem h, follows_self r⟩

theorem agrees_readForUpdate {edit : RedemptionEdit}
    (h : db.readForUpdate id edit now = some copy) : Agrees db copy := by
  unfold readForUpdate live at h
  cases hfind : db.redemptions.find id with
  | none => simp [hfind] at h
  | some r =>
    obtain rfl : r.id = id := Table.key_of_find hfind
    cases hdeleted : r.deleted with
    | true => simp [hfind, hdeleted] at h
    | false =>
      simp only [hfind, hdeleted, Bool.false_eq_true, if_false] at h
      split at h
      · cases h
        exact ⟨r, hfind, fun _ => ⟨rfl, rfl, rfl⟩⟩
      · split at h
        · simp at h
        · cases h
          exact ⟨r, hfind, fun _ => ⟨rfl, rfl, rfl⟩⟩

theorem evolves_redeem (h : db.redeem key userId now = some (r, db')) : Evolves db db' := by
  obtain ⟨hold, -, -, hsaved⟩ := redeem_saves h
  intro id row hfind
  rw [hsaved]
  by_cases hid : r.id = id
  · subst hid
    cases hold.symm.trans hfind
    refine ⟨redeemedRow r userId now, ?_, follows_self r⟩
    have hkey : db.redemptions.find (redeemedRow r userId now).id = some r := hfind
    exact Table.find_save_self hkey
  · have hkey : (redeemedRow r userId now).id ≠ id := hid
    exact ⟨row, (Table.find_save_ne hkey).trans hfind, follows_self row⟩

theorem evolves_update (hcopy : Agrees db copy) : Evolves db (db.update copy) := by
  intro id row hfind
  unfold update
  split
  · exact ⟨row, hfind, follows_self row⟩
  dsimp only
  rw [Table.find_update]
  swap
  · exact fun _ => rfl
  by_cases hid : id = copy.id
  · rw [if_pos hid, hfind, Option.map_some]
    refine ⟨_, rfl, ?_⟩
    obtain ⟨row', hfind', hfollows⟩ := hcopy
    cases hfind.symm.trans (hid ▸ hfind')
    cases hdeleted : row.deleted with
    | true => simp [follows_self]
    | false =>
      obtain ⟨-, -, hcharge⟩ := hfollows hdeleted
      intro _
      simp [hdeleted, hcharge]
  · rw [if_neg hid]
    exact ⟨row, hfind, follows_self row⟩

theorem outstanding_update (hcopy : Agrees db copy) :
    (db.update copy).outstanding agent = db.outstanding agent := by
  unfold update
  split
  · rfl
  unfold outstanding
  dsimp only
  refine Table.sum_update (Redemption.held agent) (fun _ => rfl) ?_
  intro row hfind hlive
  obtain ⟨row', hfind', hfollows⟩ := hcopy
  cases hfind.symm.trans hfind'
  obtain ⟨-, -, hcharge⟩ := hfollows (by simpa using hlive)
  simp [Redemption.held, hcharge]

theorem evolves_softDelete (ids : List Nat) : Evolves db (db.softDelete ids) := by
  intro id row hfind
  unfold softDelete
  dsimp only
  rw [Table.find_mapRows, hfind, Option.map_some]
  refine ⟨_, rfl, ?_⟩
  split
  · intro hlive
    simp at hlive
  · exact follows_self row

theorem evolves_createCodes :
    ∀ {codes : List (Nat × String)} {i : Nat} {db : RedemptionDB},
      createCodes req userId charge now i codes db = some db' → Evolves db db' := by
  intro codes
  induction codes with
  | nil =>
    intro i db h
    cases h
    exact Evolves.of_eq rfl
  | cons head rest ih =>
    obtain ⟨newId, key⟩ := head
    intro i db h
    obtain ⟨redemptions, hinsert, h⟩ := createCodes_cons h
    intro id row hfind
    refine ih h id row ?_
    have hne : newId ≠ id := by
      rintro rfl
      have hfree : db.redemptions.find newId = none := Table.find_of_insert hinsert
      simp [hfree] at hfind
    exact (Table.find_insert_ne hinsert hne).trans hfind

theorem evolves_create
    (h : db.createRedemptionsWithWalletCharge userId req charge now codes = some db') :
    Evolves db db' := by
  obtain ⟨-, -, charged, hsame, hcodes⟩ := createRedemptions_some h
  intro id row hfind
  exact evolves_createCodes hcodes id row (hsame.symm ▸ hfind)

theorem find_refund_ne (hid : r.id ≠ id) :
    (db.refundAgentRedemptionCharge r).2.redemptions.find id = db.redemptions.find id := by
  unfold refundAgentRedemptionCharge
  split
  · rfl
  · dsimp only
    rw [Table.find_update]
    swap
    · exact fun _ => rfl
    rw [if_neg (Ne.symm hid)]

theorem find_refundAll_of_not_mem : ∀ {rows : List Redemption} {db : RedemptionDB},
    id ∉ rows.map (·.id) →
    (refundAll rows db).2.redemptions.find id = db.redemptions.find id := by
  intro rows
  induction rows with
  | nil => intro db _; rfl
  | cons r rest ih =>
    intro db hid
    have hne : r.id ≠ id := fun h => hid (by simp [h])
    have hrest : id ∉ rest.map (·.id) := fun h => hid (by simp [List.mem_map.mp h])
    show (refundAll rest (db.refundAgentRedemptionCharge r).2).2.redemptions.find id = _
    rw [ih hrest, find_refund_ne hne]

theorem evolves_deleteRows (rows : List Redemption) : Evolves db (db.deleteRows rows).2 := by
  intro id row hfind
  by_cases hid : id ∈ rows.map (·.id)
  · have hcode : (db.deleteRows rows).2.code id = some (row.status, true) := by
      rw [code_deleteRows, if_pos hid, code_of_find hfind]
      rfl
    cases hfind' : (db.deleteRows rows).2.redemptions.find id with
    | none => simp [code, hfind'] at hcode
    | some row' =>
      have hdeleted : row'.deleted = true := by
        rw [code_of_find hfind'] at hcode
        simp only [Option.some.injEq, Prod.mk.injEq] at hcode
        exact hcode.2
      exact ⟨row', rfl, fun hlive => by simp [hdeleted] at hlive⟩
  · have hsame : (refundAll rows db).2.redemptions.find id = some row :=
      (find_refundAll_of_not_mem hid).trans hfind
    exact evolves_softDelete (rows.map (·.id)) id row hsame

/-! ### Refunds of recorded charges -/

/--
The refund of a code is on record: it has a part of the charge and is still to be deleted, or
its agent has no discount from which a refund could be worked out.
-/
def Recorded (db : RedemptionDB) (r : Redemption) : Prop :=
  r.status ≠ .used → ∀ creator, db.users.find r.userId = some creator → creator.isAgent = true →
    (0 < r.agentCharge ∧ (db.live r.id).isSome) ∨
      (r.agentCharge ≤ 0 ∧ creator.agentDiscount = 0)

theorem fallbackRefund_zero (quota : Int) : fallbackRefund quota 0 = 0 := by
  rw [fallbackRefund, mul_zero]
  rfl

theorem agentRefund_recorded {a : Nat} {x : Int} (hr : db.Recorded r)
    (h : db.agentRefund r = some (a, x)) :
    a = r.userId ∧ x = r.agentCharge ∧ 0 < r.agentCharge ∧ (db.live r.id).isSome := by
  unfold agentRefund at h
  split at h
  · simp at h
  next hnone =>
  split at h
  · simp at h
  next creator hcreator =>
  split at h
  · simp at h
  next hagent =>
  have hused : r.status ≠ .used := fun hc => hnone (.inr hc)
  have hid : creator.id = r.userId := Table.key_of_find hcreator
  rcases hr hused creator hcreator (by simpa using hagent) with ⟨hpos, hlive⟩ | ⟨hfree, hzero⟩
  · simp only [not_le.mpr hpos, if_false, Option.some.injEq, Prod.mk.injEq] at h
    exact ⟨h.1.symm.trans hid, h.2.symm, hpos, hlive⟩
  · simp [hfree, hzero, fallbackRefund_zero] at h

theorem agentRefund_after (r r' : Redemption) :
    (db.refundAgentRedemptionCharge r).2.agentRefund r' = db.agentRefund r' := by
  unfold refundAgentRedemptionCharge
  split
  · rfl
  next agent refund hrefund =>
    unfold agentRefund
    dsimp only
    rw [Table.find_update]
    swap
    · exact fun _ => rfl
    cases db.users.find r'.userId with
    | none => simp
    | some creator =>
      simp only [Option.map_some, if_true]
      by_cases hcreator : r'.userId = agent
      · rw [if_pos hcreator]
      · rw [if_neg hcreator]

/-- The refund for a row, if there is one, is of the part the row holds. -/
def Covered (db : RedemptionDB) (r : Redemption) : Prop :=
  ∀ a x, db.agentRefund r = some (a, x) → a = r.userId ∧ x = r.agentCharge ∧ 0 < r.agentCharge ∧
    ∃ row, db.redemptions.find r.id = some row ∧ row.deleted = false ∧ row.userId = r.userId ∧
      row.agentCharge = r.agentCharge

theorem Covered.of_recorded (hr : db.Recorded r) (hagrees : db.Agrees r) : db.Covered r := by
  intro a x h
  obtain ⟨ha, hx, hpos, hlive⟩ := agentRefund_recorded hr h
  obtain ⟨row, hfind, hfollows⟩ := hagrees
  have hdeleted : row.deleted = false := by
    cases hdeleted : row.deleted with
    | false => rfl
    | true => simp [live, hfind, hdeleted] at hlive
  obtain ⟨-, huser, hcharge⟩ := hfollows hdeleted
  exact ⟨ha, hx, hpos, row, hfind, hdeleted, huser, hcharge⟩

theorem Covered.after {r' : Redemption} (hr : db.Covered r') (hne : r.id ≠ r'.id) :
    (db.refundAgentRedemptionCharge r).2.Covered r' := by
  intro a x h
  rw [agentRefund_after] at h
  rw [find_refund_ne hne]
  exact hr a x h

theorem outstanding_refund {r : Redemption} (hr : db.Covered r) :
    refundSum agent (db.refundAgentRedemptionCharge r).1 +
      (db.refundAgentRedemptionCharge r).2.outstanding agent = db.outstanding agent := by
  unfold refundAgentRedemptionCharge
  split
  · simp [refundSum]
  · rename_i a x hrefund
    obtain ⟨rfl, rfl, hpos, row, hfind, hlive, huser, hcharge⟩ := hr _ _ hrefund
    have hkey : row.id = r.id := Table.key_of_find hfind
    have hupdate : (db.redemptions.update r.id (fun row => !row.deleted) fun row =>
        { row with agentCharge := 0 }).2 = db.redemptions.save { row with agentCharge := 0 } := by
      rw [Table.update, hfind]
      simp [hlive]
    have hold : db.redemptions.find (Redemption.id { row with agentCharge := 0 }) = some row :=
      hkey ▸ hfind
    have hsum : ((db.redemptions.save { row with agentCharge := 0 }).rows.map
        (Redemption.held agent)).sum = db.outstanding agent - Redemption.held agent row +
          Redemption.held agent { row with agentCharge := 0 } := Table.sum_save _ hold
    have hzero : Redemption.held agent { row with agentCharge := 0 } = 0 := by
      simp [Redemption.held]
    have hheld : Redemption.held agent row =
        if r.userId = agent then r.agentCharge else 0 := by
      simp [Redemption.held, hlive, huser, hcharge, hpos.le]
    have hone : refundSum agent [⟨r.id, r.userId, r.agentCharge⟩] =
        if r.userId = agent then r.agentCharge else 0 := by
      simp [refundSum]
    rw [hone]
    unfold outstanding at hsum ⊢
    dsimp only
    rw [hupdate, hsum, hzero, hheld]
    omega

theorem outstanding_refundAll : ∀ {rows : List Redemption} {db : RedemptionDB},
    (rows.map (·.id)).Nodup → (∀ r ∈ rows, db.Covered r) →
    refundSum agent (refundAll rows db).1 + (refundAll rows db).2.outstanding agent =
      db.outstanding agent := by
  intro rows
  induction rows with
  | nil =>
    intro db _ _
    simp [refundAll, refundSum]
  | cons r rest ih =>
    intro db hnodup hcovered
    rw [List.map_cons, List.nodup_cons] at hnodup
    have hrest : ∀ r' ∈ rest, (db.refundAgentRedemptionCharge r).2.Covered r' := by
      intro r' hr'
      refine (hcovered r' (List.mem_cons_of_mem _ hr')).after ?_
      intro heq
      exact hnodup.1 (heq ▸ List.mem_map_of_mem hr')
    have htail := ih hnodup.2 hrest
    have hhead := @outstanding_refund db agent r (hcovered r (by simp))
    show refundSum agent ((db.refundAgentRedemptionCharge r).1 ++
        (refundAll rest (db.refundAgentRedemptionCharge r).2).1) +
      (refundAll rest (db.refundAgentRedemptionCharge r).2).2.outstanding agent = _
    rw [refundSum_append]
    omega

/-- **Deleting codes refunds no more than what may still be refunded.** -/
theorem outstanding_deleteRows {rows : List Redemption} (hnodup : (rows.map (·.id)).Nodup)
    (hcovered : ∀ r ∈ rows, db.Covered r) :
    refundSum agent (db.deleteRows rows).1 + (db.deleteRows rows).2.outstanding agent ≤
      db.outstanding agent := by
  have hall := @outstanding_refundAll agent rows db hnodup hcovered
  have hdelete := @outstanding_softDelete (refundAll rows db).2 agent (rows.map (·.id))
  show refundSum agent (refundAll rows db).1 +
      ((refundAll rows db).2.softDelete (rows.map (·.id))).outstanding agent ≤ _
  omega

end RedemptionDB

/-! ### One step -/

namespace RedemptionSystem

variable {s t : RedemptionSystem} {a : RedemptionAct} {agent : Nat}

/-- What is refunded and what may still be is covered by the charges. -/
structure Charged (s : RedemptionSystem) (agent : Nat) : Prop where
  bound : s.totalRefunded agent + s.db.outstanding agent ≤ s.totalCharged agent
  edits : ∀ copy ∈ s.edits, s.db.Agrees copy
  sweeps : ∀ rows ∈ s.sweeps, (rows.map (·.id)).Nodup ∧ ∀ r ∈ rows, s.db.Agrees r

def OnRecord (s : RedemptionSystem) : RedemptionAct → Prop
  | .deleteByIds ids => ∀ r ∈ s.db.rowsByIds ids, s.db.Recorded r
  | .deleteInvalid i => ∀ rows, s.sweeps[i]? = some rows → ∀ r ∈ rows, s.db.Recorded r
  | _ => True

variable {db : RedemptionDB}

theorem nodup_filter_ids (p : Redemption → Bool) :
    ((db.redemptions.rows.filter p).map (·.id)).Nodup :=
  db.redemptions.keys.sublist (List.filter_sublist.map _)

theorem agrees_filter {p : Redemption → Bool} (h : r ∈ db.redemptions.rows.filter p) :
    db.Agrees r :=
  RedemptionDB.agrees_of_mem (List.mem_filter.mp h).1

theorem Charged.of_evolves (hs : s.Charged agent) (hevolves : s.db.Evolves t.db)
    (hedits : ∀ copy ∈ t.edits, copy ∈ s.edits) (hsweeps : ∀ rows ∈ t.sweeps, rows ∈ s.sweeps)
    (hbound : t.totalRefunded agent + t.db.outstanding agent ≤ t.totalCharged agent) :
    t.Charged agent := by
  refine ⟨hbound, ?_, ?_⟩
  · intro copy hcopy
    exact (hs.edits copy (hedits copy hcopy)).evolve hevolves
  · intro rows hrows
    obtain ⟨hnodup, hagrees⟩ := hs.sweeps rows (hsweeps rows hrows)
    exact ⟨hnodup, fun r hr => (hagrees r hr).evolve hevolves⟩

theorem totalRefunded_append (refunds : List Refund) (db : RedemptionDB)
    (sweeps : List (List Redemption)) :
    totalRefunded { s with db := db, sweeps := sweeps, refunds := refunds ++ s.refunds } agent =
      refundSum agent refunds + s.totalRefunded agent :=
  refundSum_append agent refunds s.refunds

theorem totalCharged_charged (creatorId : Nat) (charge : Int) (db : RedemptionDB) :
    totalCharged { s with db := db, charges := s.charged creatorId charge } agent =
      s.totalCharged agent + if 0 < charge ∧ creatorId = agent then charge else 0 := by
  unfold totalCharged charged
  by_cases hpos : 0 < charge
  · simp [hpos, add_comm]
  · simp [hpos]

theorem Charged.deleteRows {rows : List Redemption} {sweeps : List (List Redemption)}
    (hs : s.Charged agent) (hnodup : (rows.map (·.id)).Nodup)
    (hagrees : ∀ r ∈ rows, s.db.Agrees r) (hrecorded : ∀ r ∈ rows, s.db.Recorded r)
    (hsweeps : ∀ rows ∈ sweeps, rows ∈ s.sweeps) :
    Charged { s with
      db := (s.db.deleteRows rows).2
      sweeps := sweeps
      refunds := (s.db.deleteRows rows).1 ++ s.refunds } agent := by
  refine hs.of_evolves (RedemptionDB.evolves_deleteRows rows) (fun _ h => h) hsweeps ?_
  rw [totalRefunded_append]
  have hcovered : ∀ r ∈ rows, s.db.Covered r :=
    fun r hr => .of_recorded (hrecorded r hr) (hagrees r hr)
  have hdelete := @RedemptionDB.outstanding_deleteRows s.db agent rows hnodup hcovered
  have hbound := hs.bound
  show refundSum agent (s.db.deleteRows rows).1 + s.totalRefunded agent +
      (s.db.deleteRows rows).2.outstanding agent ≤ s.totalCharged agent
  omega

/-- **A step whose refunds are on record keeps refunds covered by charges.** -/
theorem charged_step (hs : s.Charged agent) (hrecord : s.OnRecord a) (h : step s a = some t) :
    t.Charged agent := by
  cases step_cases h with
  | @add creatorId role req now charge codes db hcharge hcreate =>
    refine hs.of_evolves (RedemptionDB.evolves_create hcreate) (fun _ h => h) (fun _ h => h) ?_
    rw [totalCharged_charged]
    have hcreated := @RedemptionDB.outstanding_create s.db db agent _ _ _ _ _ hcreate
    have hbound := hs.bound
    show s.totalRefunded agent + db.outstanding agent ≤ _
    omega
  | @redeem key userId now r db hredeem =>
    refine hs.of_evolves (RedemptionDB.evolves_redeem hredeem) (fun _ h => h) (fun _ h => h) ?_
    have hsame := @RedemptionDB.outstanding_redeem s.db db agent _ _ _ _ hredeem
    show s.totalRefunded agent + db.outstanding agent ≤ s.totalCharged agent
    exact hsame ▸ hs.bound
  | editRead hread =>
    refine ⟨hs.bound, ?_, hs.sweeps⟩
    intro copy hcopy
    rcases List.mem_append.mp hcopy with hold | hnew
    · exact hs.edits copy hold
    · obtain rfl := List.mem_singleton.mp hnew
      exact RedemptionDB.agrees_readForUpdate hread
  | @editWrite i copy hcopy =>
    have hagrees := hs.edits copy (List.mem_of_getElem? hcopy)
    refine hs.of_evolves (RedemptionDB.evolves_update hagrees)
      (fun _ h => List.mem_of_mem_eraseIdx h) (fun _ h => h) ?_
    have hsame := @RedemptionDB.outstanding_update s.db agent copy hagrees
    show s.totalRefunded agent + (s.db.update copy).outstanding agent ≤ s.totalCharged agent
    exact hsame ▸ hs.bound
  | deleteByIds ids =>
    exact hs.deleteRows (nodup_filter_ids _) (fun _ hr => agrees_filter hr) hrecord
      fun _ h => h
  | readInvalid now =>
    refine ⟨hs.bound, hs.edits, ?_⟩
    intro rows hrows
    rcases List.mem_append.mp hrows with hold | hnew
    · exact hs.sweeps rows hold
    · obtain rfl := List.mem_singleton.mp hnew
      exact ⟨nodup_filter_ids _, fun _ hr => agrees_filter hr⟩
  | @deleteInvalid i rows hrows =>
    obtain ⟨hnodup, hagrees⟩ := hs.sweeps rows (List.mem_of_getElem? hrows)
    exact hs.deleteRows hnodup hagrees (hrecord rows hrows) fun _ h => List.mem_of_mem_eraseIdx h
  | batchDelete ids =>
    refine hs.of_evolves (RedemptionDB.evolves_softDelete ids) (fun _ h => h) (fun _ h => h) ?_
    have hless := @RedemptionDB.outstanding_softDelete s.db agent ids
    have hbound := hs.bound
    show s.totalRefunded agent + (s.db.softDelete ids).outstanding agent ≤ s.totalCharged agent
    omega
  | users ha => exact hs.of_evolves (.of_eq rfl) (fun _ h => h) (fun _ h => h) hs.bound

/-! ### A whole history -/

/--
**An agent is never refunded more than the wallet was charged**, in every history that begins
without codes and in which every code that is deleted has its refund on record.
-/
theorem refunded_le_charged {db : RedemptionDB} {acts : List RedemptionAct}
    (hempty : db.redemptions.rows = [])
    (hrecord : Machine.Meets step OnRecord (start db) acts)
    (hrun : Machine.run step (start db) acts = some t) :
    t.totalRefunded agent ≤ t.totalCharged agent := by
  have hstart : Charged (start db) agent := by
    refine ⟨?_, fun copy h => by simp [start] at h, fun rows h => by simp [start] at h⟩
    simp [start, totalRefunded, totalCharged, RedemptionDB.outstanding, hempty]
  have ht := Machine.run_invariant (fun s => Charged s agent)
    (fun s a t hs hc h => charged_step hs hc h) acts (start db) t hstart hrecord hrun
  have hheld : 0 ≤ t.db.outstanding agent := by
    refine List.sum_nonneg ?_
    intro x hx
    obtain ⟨r, -, rfl⟩ := List.mem_map.mp hx
    exact r.held_nonneg agent
  have hbound := ht.bound
  omega

/-- An agent with a discount of 50 and a wallet of 100, and no codes. -/
def sampleAgent : RedemptionDB where
  redemptions := ⟨[], by decide⟩
  users := ⟨[⟨2, 100, 1, true, 50⟩], by decide⟩

def sampleTens : AddRedemptionRequest := ⟨"gift", 10, 2, 0⟩

def sampleOnes : AddRedemptionRequest := ⟨"gift", 1, 2, 0⟩

theorem refunded_le_charged_sample : ∃ t,
    Machine.run step (start sampleAgent)
      [.add 2 1 sampleTens 0 [(1, "a"), (2, "b")], .deleteByIds [1]] = some t ∧
    t.totalCharged 2 = 10 ∧ t.totalRefunded 2 = 5 ∧ t.totalRefunded 2 ≤ t.totalCharged 2 := by
  refine ⟨_, rfl, rfl, rfl, ?_⟩
  have hmeets : Machine.Meets step OnRecord (start sampleAgent)
      [.add 2 1 sampleTens 0 [(1, "a"), (2, "b")], .deleteByIds [1]] := by
    refine ⟨trivial, fun s₁ h₁ => ⟨?_, fun _ _ => trivial⟩⟩
    cases h₁
    intro r hr hstatus creator hcreator hagent
    obtain rfl : r = sampleTens.code 2 10 0 0 1 "a" := List.mem_singleton.mp hr
    exact .inl ⟨by decide, rfl⟩
  exact @refunded_le_charged _ 2 sampleAgent _ rfl hmeets rfl

/-- Two codes cost 1 between them, so one has a part of 1 and the other of 0; deleting both
refunds 1 for either. -/
theorem zero_part_refunded : ∃ t,
    Machine.run step (start sampleAgent)
      [.add 2 1 sampleOnes 0 [(1, "a"), (2, "b")], .deleteByIds [1, 2]] = some t ∧
    ¬t.totalRefunded 2 ≤ t.totalCharged 2 :=
  ⟨_, rfl, by decide⟩

end RedemptionSystem

end JulongApi

/-
What the subscription calls do to a row and to the records.

`RowOK` is the invariant of one row: a positive id, and `AmountUsed` between zero and
the total when there is one.  Each call is characterised once, by what a result `ok`
or `error` says about the tables, and everything later (sessions, interleavings,
retries) is assembled from these statements.

The search of `PreConsumeUserSubscription` for a row to draw from is a function of the
rows it locked; `charged` names its outcome, and `preConsumeFrom_ok` says that the
call charges that row and no other.
-/
import JulongApi.Subscription

namespace JulongApi

/-! ### Rows -/

structure RowOK (row : UserSubscription) : Prop where
  id_pos : 0 < row.id
  used_nonneg : 0 ≤ row.amountUsed
  used_le : 0 < row.amountTotal → row.amountUsed ≤ row.amountTotal

def RowsOK (db : SubscriptionDB) : Prop := ∀ row ∈ db.subs.rows, RowOK row

variable {row : UserSubscription} {requestId : String}

theorem RowsOK.of_find {db : SubscriptionDB} (h : RowsOK db) {id : Nat}
    (hfind : db.subs.find id = some row) : RowOK row :=
  h row (Table.mem_of_find hfind)

theorem RowsOK.saveSub {db : SubscriptionDB} (h : RowsOK db) (hrow : RowOK row) :
    RowsOK (db.saveSub row) :=
  Table.forall_save h hrow

theorem RowsOK.saveRecord {db : SubscriptionDB} (h : RowsOK db)
    (record : SubscriptionPreConsumeRecord) : RowsOK (db.saveRecord record) := h

theorem RowsOK.createRecord {db db' : SubscriptionDB} (h : RowsOK db)
    {record : SubscriptionPreConsumeRecord} (hc : db.createRecord record = some db') :
    RowsOK db' := by
  obtain ⟨records, _, rfl⟩ := Option.map_eq_some_iff.mp hc
  exact h

/-! ### Lookups after a write -/

namespace SubscriptionDB

variable {db db' : SubscriptionDB} {sub old : UserSubscription}
  {record : SubscriptionPreConsumeRecord}

@[simp] theorem saveSub_records : (db.saveSub sub).records = db.records := rfl

theorem find_saveSub (h : db.subs.find sub.id = some old) :
    (db.saveSub sub).subs.find sub.id = some sub :=
  Table.find_save_self h

theorem find_saveSub_ne {id : Nat} (h : sub.id ≠ id) :
    (db.saveSub sub).subs.find id = db.subs.find id :=
  Table.find_save_ne h

theorem exists_find_saveSub {id : Nat} (h : ∃ row, db.subs.find id = some row) :
    ∃ row, (db.saveSub sub).subs.find id = some row := by
  by_cases hid : sub.id = id
  · subst hid
    obtain ⟨row, hrow⟩ := h
    exact ⟨sub, find_saveSub hrow⟩
  · rw [find_saveSub_ne hid]
    exact h

theorem amountUsed_of_find {id : Nat} (h : db.subs.find id = some sub) :
    db.amountUsed id = sub.amountUsed := by
  simp [amountUsed, h]

theorem createRecord_subs (h : db.createRecord record = some db') : db'.subs = db.subs := by
  obtain ⟨records, _, rfl⟩ := Option.map_eq_some_iff.mp h
  rfl

theorem find_createRecord (h : db.createRecord record = some db') :
    db'.records.find record.requestId = some record := by
  obtain ⟨records, hins, rfl⟩ := Option.map_eq_some_iff.mp h
  exact Table.find_insert_self hins

theorem find_createRecord_ne (h : db.createRecord record = some db')
    (hne : record.requestId ≠ requestId) :
    db'.records.find requestId = db.records.find requestId := by
  obtain ⟨records, hins, rfl⟩ := Option.map_eq_some_iff.mp h
  exact Table.find_insert_ne hins hne

theorem createRecord_fresh (h : db.createRecord record = some db') :
    db.records.find record.requestId = none := by
  obtain ⟨records, hins, rfl⟩ := Option.map_eq_some_iff.mp h
  exact Table.find_of_insert hins

theorem find_saveRecord {old : SubscriptionPreConsumeRecord}
    (h : db.records.find record.requestId = some old) :
    (db.saveRecord record).records.find record.requestId = some record :=
  Table.find_save_self h

theorem find_saveRecord_ne (h : record.requestId ≠ requestId) :
    (db.saveRecord record).records.find requestId = db.records.find requestId :=
  Table.find_save_ne h

theorem createRecord_eq_none (h : db.createRecord record = none) :
    ∃ old, db.records.find record.requestId = some old :=
  Table.insert_eq_none (Option.map_eq_none_iff.mp h)

end SubscriptionDB

/-! ### The periodic reset -/

section Reset

variable {cal : Calendar} {sub sub' : UserSubscription} {plan : SubscriptionPlan} {now : Int}

theorem maybeReset_frame
    (h : maybeResetUserSubscriptionWithPlanTx cal sub plan now = some sub') :
    ∃ used last next, (used = sub.amountUsed ∨ used = 0) ∧
      sub' = { sub with amountUsed := used, lastResetTime := last, nextResetTime := next } := by
  unfold maybeResetUserSubscriptionWithPlanTx at h
  split at h
  · cases h
    exact ⟨_, _, _, .inl rfl, rfl⟩
  split at h
  · cases h
    exact ⟨_, _, _, .inl rfl, rfl⟩
  dsimp only at h
  split at h
  · simp at h
  · split at h
    · cases h
      exact ⟨sub.amountUsed, _, _, .inl rfl, rfl⟩
    · cases h
      exact ⟨_, _, _, .inl rfl, rfl⟩
  · cases h
    exact ⟨0, _, _, .inr rfl, rfl⟩

theorem maybeReset_id (h : maybeResetUserSubscriptionWithPlanTx cal sub plan now = some sub') :
    sub'.id = sub.id := by
  obtain ⟨_, _, _, -, rfl⟩ := maybeReset_frame h
  rfl

theorem RowOK.maybeReset (hsub : RowOK sub)
    (h : maybeResetUserSubscriptionWithPlanTx cal sub plan now = some sub') : RowOK sub' := by
  obtain ⟨used, _, _, hused, rfl⟩ := maybeReset_frame h
  have hnonneg := hsub.used_nonneg
  refine ⟨hsub.id_pos, ?_, ?_⟩
  · show 0 ≤ used
    omega
  · intro htotal
    have hle := hsub.used_le htotal
    replace htotal : 0 < sub.amountTotal := htotal
    show used ≤ sub.amountTotal
    omega

end Reset

theorem RowsOK.resetDueSubscription {env : SubscriptionEnv} {db : SubscriptionDB}
    (h : RowsOK db) (id : Nat) (now : Int) : RowsOK (resetDueSubscription env db id now) := by
  unfold JulongApi.resetDueSubscription
  split
  · exact h
  · rename_i sub hfind
    split
    · split
      · exact h
      · split
        · exact h
        · next hreset => exact h.saveSub ((h.of_find hfind).maybeReset hreset)
    · exact h

/-! ### Settling a delta -/

section PostConsume

variable {tx : TxReply} {db db' : SubscriptionDB} {id : Nat} {delta : Int}

/-- The row a delta leaves behind. -/
def UserSubscription.addUsed (sub : UserSubscription) (delta : Int) : UserSubscription :=
  { sub with amountUsed := max (sub.amountUsed + delta) 0 }

theorem find_addUsed {sub : UserSubscription} (h : db.subs.find id = some sub) :
    (db.saveSub (sub.addUsed delta)).subs.find id = some (sub.addUsed delta) := by
  have hid : sub.id = id := Table.key_of_find h
  subst hid
  have hfind : db.subs.find (sub.addUsed delta).id = some sub := h
  exact SubscriptionDB.find_saveSub hfind

theorem postConsume_ok (h : postConsumeUserSubscriptionDelta tx db id delta = (.ok (), db')) :
    id ≠ 0 ∧ ((delta = 0 ∧ db' = db) ∨
      ∃ sub, db.subs.find id = some sub ∧ db' = db.saveSub (sub.addUsed delta) ∧
        (0 < sub.amountTotal → (sub.addUsed delta).amountUsed ≤ sub.amountTotal)) := by
  unfold postConsumeUserSubscriptionDelta at h
  split at h
  · simp at h
  next hid =>
  refine ⟨hid, ?_⟩
  split at h
  · next hzero => exact .inl ⟨hzero, (Prod.mk.inj h).2.symm⟩
  split at h
  · simp at h
  split at h
  · simp at h
  next sub hfind =>
  dsimp only at h
  split at h
  · simp at h
  next hle =>
  refine .inr ⟨sub, hfind, (Prod.mk.inj h).2.symm, ?_⟩
  intro htotal
  show max (sub.amountUsed + delta) 0 ≤ sub.amountTotal
  omega

theorem postConsume_error {e : SubscriptionError}
    (h : postConsumeUserSubscriptionDelta tx db id delta = (.error e, db')) : db' = db := by
  unfold postConsumeUserSubscriptionDelta at h
  split at h
  · exact (Prod.mk.inj h).2.symm
  split at h
  · simp at h
  split at h
  · exact (Prod.mk.inj h).2.symm
  split at h
  · exact (Prod.mk.inj h).2.symm
  · dsimp only at h
    split at h
    · exact (Prod.mk.inj h).2.symm
    · simp at h

theorem postConsume_of_room {sub : UserSubscription} (hid : id ≠ 0) (hdelta : delta ≠ 0)
    (hfind : db.subs.find id = some sub)
    (hroom : 0 < sub.amountTotal → (sub.addUsed delta).amountUsed ≤ sub.amountTotal) :
    postConsumeUserSubscriptionDelta none db id delta =
      (.ok (), db.saveSub (sub.addUsed delta)) := by
  unfold postConsumeUserSubscriptionDelta
  rw [if_neg hid, if_neg hdelta]
  simp only [hfind]
  rw [if_neg]
  · rfl
  · rintro ⟨htotal, hlt⟩
    exact absurd (hroom htotal) (not_le.mpr hlt)

theorem postConsume_give_back {sub : UserSubscription} {amount : Int} (hid : id ≠ 0)
    (hfind : db.subs.find id = some sub) (hsub : RowOK sub) (hpos : 0 < amount)
    (hle : amount ≤ sub.amountUsed) :
    postConsumeUserSubscriptionDelta none db id (-amount) =
      (.ok (), db.saveSub (sub.addUsed (-amount))) ∧
      (sub.addUsed (-amount)).amountUsed = sub.amountUsed - amount ∧
      RowOK (sub.addUsed (-amount)) := by
  have hused : (sub.addUsed (-amount)).amountUsed = sub.amountUsed - amount := by
    show max (sub.amountUsed + -amount) 0 = sub.amountUsed - amount
    omega
  have hroom : 0 < sub.amountTotal →
      (sub.addUsed (-amount)).amountUsed ≤ sub.amountTotal := by
    intro htotal
    have := hsub.used_le htotal
    omega
  refine ⟨postConsume_of_room hid (by omega) hfind hroom, hused, ?_⟩
  exact ⟨hsub.id_pos, le_max_right _ _, hroom⟩

theorem postConsume_records :
    (postConsumeUserSubscriptionDelta tx db id delta).2.records = db.records := by
  rcases h : postConsumeUserSubscriptionDelta tx db id delta with ⟨_ | _, db'⟩
  · rw [postConsume_error h]
  · rcases (postConsume_ok h).2 with ⟨-, rfl⟩ | ⟨sub, -, rfl, -⟩ <;> rfl

theorem RowOK.addUsed {sub : UserSubscription} (h : RowOK sub)
    (hle : 0 < sub.amountTotal → (sub.addUsed delta).amountUsed ≤ sub.amountTotal) :
    RowOK (sub.addUsed delta) :=
  ⟨h.id_pos, le_max_right _ _, hle⟩

theorem RowsOK.postConsume (h : RowsOK db) :
    RowsOK (postConsumeUserSubscriptionDelta tx db id delta).2 := by
  rcases hres : postConsumeUserSubscriptionDelta tx db id delta with ⟨_ | _, db'⟩
  · rw [postConsume_error hres]
    exact h
  · rcases (postConsume_ok hres).2 with ⟨-, rfl⟩ | ⟨sub, hfind, rfl, hle⟩
    · exact h
    · exact h.saveSub ((h.of_find hfind).addUsed hle)

end PostConsume

/-! ### Refunding -/

theorem refundSubscriptionPreConsume_none {db : SubscriptionDB}
    {record : SubscriptionPreConsumeRecord} {sub : UserSubscription}
    (hblank : isBlank requestId = false) (hrecord : db.records.find requestId = some record)
    (hstatus : record.status = .consumed) (hpos : 0 < record.preConsumed)
    (hid : record.userSubscriptionId ≠ 0)
    (hfind : db.subs.find record.userSubscriptionId = some sub) (hsub : RowOK sub)
    (hle : record.preConsumed ≤ sub.amountUsed) :
    refundSubscriptionPreConsume .none requestId db =
      (.ok (), (db.saveSub (sub.addUsed (-record.preConsumed))).saveRecord
        { record with status := .refunded }) := by
  obtain ⟨hpost, -, -⟩ := postConsume_give_back hid hfind hsub hpos hle
  unfold refundSubscriptionPreConsume
  rw [hblank]
  simp only [Bool.false_eq_true, if_false, RefundFaults.none, hrecord, hstatus, reduceCtorEq]
  rw [if_neg (by omega), hpost]
  rfl

/-! ### Charging -/

section PreConsume

variable {env : SubscriptionEnv} {args : PreConsumeArgs} {dupVisible : Bool}

def fits (args : PreConsumeArgs) (sub : UserSubscription) : Prop :=
  ¬(0 < sub.amountTotal ∧ sub.amountTotal - sub.amountUsed < args.amount)

instance : DecidablePred (fits args) := fun sub =>
  inferInstanceAs
    (Decidable ¬(0 < sub.amountTotal ∧ sub.amountTotal - sub.amountUsed < args.amount))

theorem RowOK.charge {sub : UserSubscription} (h : RowOK sub) (hfits : fits args sub)
    (hamount : 0 < args.amount) :
    RowOK { sub with amountUsed := sub.amountUsed + args.amount } := by
  have hused := h.used_nonneg
  unfold fits at hfits
  refine ⟨h.id_pos, ?_, ?_⟩
  · show 0 ≤ sub.amountUsed + args.amount
    omega
  · intro htotal
    show sub.amountUsed + args.amount ≤ sub.amountTotal
    replace htotal : 0 < sub.amountTotal := htotal
    omega

/--
The candidate the search ends at, with the row as it stands there after the reset:
the first that fits; none if a plan is missing or a reset hangs before that.
-/
def charged (env : SubscriptionEnv) (args : PreConsumeArgs) :
    List UserSubscription → Option (UserSubscription × UserSubscription)
  | [] => none
  | candidate :: rest =>
    match env.plans candidate.planId with
    | none => none
    | some plan =>
      match maybeResetUserSubscriptionWithPlanTx env.calendar candidate plan args.now with
      | none => none
      | some sub => if fits args sub then some (candidate, sub) else charged env args rest

theorem mem_of_charged {sub : UserSubscription} :
    ∀ {candidates : List UserSubscription}, charged env args candidates = some (row, sub) →
      row ∈ candidates ∧ fits args sub ∧ ∃ plan, env.plans row.planId = some plan ∧
        maybeResetUserSubscriptionWithPlanTx env.calendar row plan args.now = some sub := by
  intro candidates
  induction candidates with
  | nil =>
    intro h
    simp [charged] at h
  | cons candidate rest ih =>
    intro h
    unfold charged at h
    split at h
    · simp at h
    next plan hplan =>
    split at h
    · simp at h
    next sub hreset =>
    split at h
    · rename_i hfits
      cases h
      exact ⟨by simp, hfits, plan, hplan, hreset⟩
    · obtain ⟨hmem, hrest⟩ := ih h
      exact ⟨List.mem_cons_of_mem _ hmem, hrest⟩

/-- What a successful charge of `sub` leaves: its record, and the row with the amount added. -/
structure Charges (args : PreConsumeArgs) (sub : UserSubscription)
    (res : SubscriptionPreConsumeResult) (db' : SubscriptionDB) : Prop where
  id : res.userSubscriptionId = sub.id
  preConsumed : res.preConsumed = args.amount
  record : db'.records.find args.requestId = some (args.record sub.id)
  row : db'.subs.find sub.id = some { sub with amountUsed := sub.amountUsed + args.amount }

variable {res : SubscriptionPreConsumeResult}

/--
**A first call charges the row the search ends at.**  The tables must hold the rows
the search was given; the earlier candidates it skipped stay in them, reset if due.
-/
theorem preConsumeFrom_ok {db' : SubscriptionDB} :
    ∀ {candidates : List UserSubscription} {db : SubscriptionDB},
      (∀ row ∈ candidates, ∃ old, db.subs.find row.id = some old) →
      db.records.find args.requestId = none →
      preConsumeFrom env args dupVisible db candidates = (.ok res, db') →
      ∃ row sub, charged env args candidates = some (row, sub) ∧ Charges args sub res db' := by
  intro candidates
  induction candidates with
  | nil =>
    intro db _ _ h
    simp [preConsumeFrom] at h
  | cons candidate rest ih =>
    intro db hrows hfresh h
    unfold preConsumeFrom at h
    split at h
    · simp at h
    next plan hplan =>
    split at h
    · simp at h
    next sub hreset =>
    dsimp only at h
    have hsaved : ∀ row ∈ candidate :: rest,
        ∃ old, (db.saveSub sub).subs.find row.id = some old :=
      fun row hrow => SubscriptionDB.exists_find_saveSub (hrows row hrow)
    unfold charged
    simp only [hplan, hreset]
    split at h
    · rename_i hskip
      rw [if_neg (by unfold fits; exact not_not.mpr hskip)]
      exact ih (fun row hrow => hsaved row (List.mem_cons_of_mem _ hrow)) hfresh h
    · rename_i hfits
      rw [if_pos (show fits args sub from hfits)]
      split at h
      · rename_i hdup
        obtain ⟨old, hold⟩ := SubscriptionDB.createRecord_eq_none hdup
        rw [SubscriptionDB.saveSub_records] at hold
        exact absurd (hfresh.symm.trans hold) (by simp)
      · rename_i db₁ hcreate
        cases h
        obtain ⟨old, hold⟩ := hsaved candidate (by simp)
        refine ⟨candidate, sub, rfl, rfl, rfl, SubscriptionDB.find_createRecord hcreate, ?_⟩
        have hfound : db₁.subs.find sub.id = some old := by
          rw [SubscriptionDB.createRecord_subs hcreate, maybeReset_id hreset]
          exact hold
        exact SubscriptionDB.find_saveSub hfound

theorem mem_activeSubs {db : SubscriptionDB} {userId : Nat} {now : Int}
    (h : row ∈ activeSubs db userId now) : row ∈ db.subs.rows := by
  unfold activeSubs at h
  rw [List.mem_insertionSort] at h
  exact (List.mem_filter.mp h).1

theorem preConsumeLocked_ok {db db' : SubscriptionDB}
    (hfresh : db.records.find args.requestId = none)
    (h : preConsumeLocked env args dupVisible db = (.ok res, db')) :
    ∃ row sub, charged env args (activeSubs db args.userId args.now) = some (row, sub) ∧
      Charges args sub res db' := by
  have hrows : ∀ row ∈ activeSubs db args.userId args.now,
      ∃ old, db.subs.find row.id = some old :=
    fun row hrow => ⟨row, Table.find_of_mem (mem_activeSubs hrow)⟩
  unfold preConsumeLocked at h
  split at h
  · simp at h
  · exact preConsumeFrom_ok hrows hfresh h

theorem PreConsumeArgs.check_eq_none (h : args.check = none) :
    args.userId ≠ 0 ∧ isBlank args.requestId = false ∧ 0 < args.amount := by
  unfold PreConsumeArgs.check at h
  split_ifs at h with huser hblank hamount
  exact ⟨huser, by simpa using hblank, by omega⟩

/-- **The first successful call of a request charges exactly one row.** -/
theorem preConsumeUserSubscription_ok {tx : TxReply} {db db' : SubscriptionDB}
    (hfresh : db.records.find args.requestId = none)
    (h : preConsumeUserSubscription env tx args db = (.ok res, db')) :
    isBlank args.requestId = false ∧ 0 < args.amount ∧
      ∃ row sub, charged env args (activeSubs db args.userId args.now) = some (row, sub) ∧
        Charges args sub res db' := by
  unfold preConsumeUserSubscription at h
  split at h
  · simp at h
  next hcheck =>
  obtain ⟨-, hblank, hamount⟩ := PreConsumeArgs.check_eq_none hcheck
  refine ⟨hblank, hamount, ?_⟩
  split at h
  · simp at h
  rw [hfresh] at h
  dsimp only at h
  split at h
  · rename_i db₁ hlocked
    cases h
    exact preConsumeLocked_ok hfresh hlocked
  · simp at h

theorem preConsumeUserSubscription_error {tx : TxReply} {db db' : SubscriptionDB}
    {e : SubscriptionError} (h : preConsumeUserSubscription env tx args db = (.error e, db')) :
    db' = db := by
  unfold preConsumeUserSubscription at h
  split at h
  · exact (Prod.mk.inj h).2.symm
  split at h
  · exact (Prod.mk.inj h).2.symm
  split at h
  · exact (Prod.mk.inj h).2.symm
  split at h
  · simp at h
  · exact (Prod.mk.inj h).2.symm

end PreConsume

end JulongApi

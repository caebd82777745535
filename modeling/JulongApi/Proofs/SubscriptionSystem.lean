/-
What holds of the subscription tables under every interleaving.

Two things are shown.  The bounds of `RowOK` survive every action of every caller, so
they hold in every reachable state.  And the record of a request is created once: the
unique index sees to it that a second caller never charges, whatever it read before.

What a second caller is told is another matter.  It looks the record up when the index
refuses its own, but answers with the subscription it was about to charge; that is the
recorded one only if the search ended at the same row again.
-/
import JulongApi.SubscriptionSystem
import JulongApi.Proofs.Subscription

namespace JulongApi

/-! ### The bounds, transaction by transaction -/

variable {args : PreConsumeArgs} {dupVisible : Bool} {db db' : SubscriptionDB} {f : RefundFaults}
  {act : SubscriptionAct} {res : SubscriptionPreConsumeResult}

theorem RowsOK.preConsumeFrom {env : SubscriptionEnv} (hamount : 0 < args.amount) :
    ∀ {candidates : List UserSubscription} {db : SubscriptionDB}, RowsOK db →
      (∀ row ∈ candidates, RowOK row) →
      RowsOK (preConsumeFrom env args dupVisible db candidates).2 := by
  intro candidates
  induction candidates with
  | nil =>
    intro db hdb _
    exact hdb
  | cons candidate rest ih =>
    intro db hdb hrows
    unfold JulongApi.preConsumeFrom
    split
    · exact hdb
    split
    · exact hdb
    next sub hreset =>
    have hsub : RowOK sub := (hrows candidate (by simp)).maybeReset hreset
    have hsaved : RowsOK (db.saveSub sub) := hdb.saveSub hsub
    dsimp only
    split
    · exact ih hsaved fun row hrow => hrows row (List.mem_cons_of_mem _ hrow)
    next hfits =>
    split
    · split
      · exact hsaved
      · split
        · exact hsaved
        · exact hsaved
    · next db₁ hcreate => exact (hsaved.createRecord hcreate).saveSub (hsub.charge hfits hamount)

theorem RowsOK.preConsumeLocked {env : SubscriptionEnv} (hamount : 0 < args.amount)
    (h : RowsOK db) : RowsOK (preConsumeLocked env args dupVisible db).2 := by
  unfold JulongApi.preConsumeLocked
  split
  · exact h
  · exact h.preConsumeFrom hamount fun row hrow => h row (mem_activeSubs hrow)

theorem RowsOK.markRefunded (h : RowsOK db) (f : RefundFaults)
    (record : SubscriptionPreConsumeRecord) : RowsOK (markRefunded f record db).2 := by
  unfold JulongApi.markRefunded
  split
  · exact h
  · exact h
  · exact h.saveRecord _

namespace SubscriptionSystem

variable {env : SubscriptionEnv} {s t : SubscriptionSystem}

/-! ### The calls are their steps

Cutting a call in two changes nothing when nobody comes between the halves.
-/

theorem lookup_locked_eq (hidle : s.waiting = []) (args : PreConsumeArgs) (tx : TxReply) :
    (match (s.lookup args).waiting with
      | [] => (s.lookup args).db
      | args' :: _ => ((s.lookup args).locked env args' true tx).db) =
      (preConsumeUserSubscription env tx args s.db).2 := by
  unfold SubscriptionSystem.lookup preConsumeUserSubscription
  cases hcheck : args.check with
  | some e =>
    simp only
    rw [hidle]
  | none =>
    simp only
    cases hfind : s.db.records.find args.requestId with
    | some existing =>
      simp only
      rcases preConsumeExisting s.db existing with e | res
      · simp only [hidle]
        cases tx <;> rfl
      · simp only [SubscriptionSystem.answer, hidle]
        cases tx <;> rfl
    | none =>
      simp only [SubscriptionSystem.locked]
      cases tx with
      | some e => rfl
      | none =>
        simp only
        rcases preConsumeLocked env args true s.db with ⟨_ | res, db⟩
        · rfl
        · simp only
          split <;> rfl

theorem refundInner_refundOuter_eq (hidle : s.refunding = []) (f : RefundFaults)
    (requestId : String) :
    (match (s.refundInner f requestId).refunding with
      | [] => (s.refundInner f requestId).db
      | record :: _ => (markRefunded f record (s.refundInner f requestId).db).2) =
      (refundSubscriptionPreConsume f requestId s.db).2 := by
  unfold SubscriptionSystem.refundInner refundSubscriptionPreConsume
  by_cases hblank : isBlank requestId = true
  · rw [if_pos hblank, if_pos hblank, hidle]
  rw [if_neg hblank, if_neg hblank]
  cases hlock : f.lock with
  | some e =>
    simp only
    rw [hidle]
  | none =>
    simp only
    cases hfind : s.db.records.find requestId with
    | none =>
      simp only
      rw [hidle]
    | some record =>
      simp only
      by_cases hstatus : record.status = .refunded
      · rw [if_pos hstatus, if_pos hstatus, hidle]
        cases f.commit <;> rfl
      rw [if_neg hstatus, if_neg hstatus]
      by_cases hzero : record.preConsumed ≤ 0
      · rw [if_pos hzero, if_pos hzero]
      rw [if_neg hzero, if_neg hzero]
      rcases hres : postConsumeUserSubscriptionDelta f.nested s.db record.userSubscriptionId
        (-record.preConsumed) with ⟨e | _, db⟩
      · simp only
        rw [hidle, postConsume_error hres]
      · rfl

/-! ### The bounds over whole runs -/

theorem step_locked {i : Nat} {tx : TxReply} (h : s.step env (.locked i dupVisible tx) = some t) :
    ∃ args, s.waiting[i]? = some args ∧
      t = { s with waiting := s.waiting.eraseIdx i }.locked env args dupVisible tx := by
  simp only [SubscriptionSystem.step] at h
  split at h
  · simp at h
  · next args hargs => exact ⟨args, hargs, (Option.some.inj h).symm⟩

theorem step_refundInner {requestId : String} (h : s.step env (.refundInner f requestId) = some t) :
    t = s.refundInner f requestId := by
  simp only [SubscriptionSystem.step] at h
  split at h
  · simp at h
  · exact (Option.some.inj h).symm

theorem step_refundOuter {i : Nat} (h : s.step env (.refundOuter i f) = some t) :
    ∃ record, s.refunding[i]? = some record ∧
      t = { s with
        refunding := s.refunding.eraseIdx i
        db := (markRefunded f record s.db).2 } := by
  simp only [SubscriptionSystem.step] at h
  split at h
  · simp at h
  · next record hrecord => exact ⟨record, hrecord, (Option.some.inj h).symm⟩

/-- Rows within their bounds, and callers that have passed their argument checks. -/
structure Sound (s : SubscriptionSystem) : Prop where
  rows : RowsOK s.db
  waiting : ∀ args ∈ s.waiting, args.check = none

theorem Sound.lookup (h : s.Sound) (args : PreConsumeArgs) : (s.lookup args).Sound := by
  unfold SubscriptionSystem.lookup
  split
  · exact h
  next hcheck =>
  split
  · refine ⟨h.rows, ?_⟩
    intro other hother
    rcases List.mem_cons.mp hother with rfl | hold
    · exact hcheck
    · exact h.waiting other hold
  · split
    · exact h
    · exact ⟨h.rows, h.waiting⟩

theorem Sound.locked (h : s.Sound) (hargs : args.check = none) (dupVisible : Bool) (tx : TxReply) :
    (s.locked env args dupVisible tx).Sound := by
  have hamount := (PreConsumeArgs.check_eq_none hargs).2.2
  have hdb : RowsOK (preConsumeLocked env args dupVisible s.db).2 :=
    h.rows.preConsumeLocked hamount
  unfold SubscriptionSystem.locked
  split
  · exact h
  split
  · exact h
  · rename_i res db hres
    rw [hres] at hdb
    split
    · exact ⟨hdb, h.waiting⟩
    · exact ⟨hdb, h.waiting⟩

theorem Sound.refundInner (h : s.Sound) (f : RefundFaults) (requestId : String) :
    (s.refundInner f requestId).Sound := by
  unfold SubscriptionSystem.refundInner
  split
  · exact h
  split
  · exact h
  split
  · exact h
  next record _ =>
  split
  · exact h
  split
  · exact ⟨h.rows, h.waiting⟩
  have hdb : RowsOK (postConsumeUserSubscriptionDelta f.nested s.db record.userSubscriptionId
      (-record.preConsumed)).2 := h.rows.postConsume
  split
  · exact h
  · rename_i db hres
    rw [hres] at hdb
    exact ⟨hdb, h.waiting⟩

theorem Sound.step (h : s.Sound) (hstep : s.step env act = some t) : t.Sound := by
  cases act with
  | lookup args =>
    cases hstep
    exact h.lookup args
  | locked i dupVisible tx =>
    obtain ⟨args, hargs, rfl⟩ := step_locked hstep
    have hmem : args ∈ s.waiting := List.mem_of_getElem? hargs
    have hrest : Sound { s with waiting := s.waiting.eraseIdx i } :=
      ⟨h.rows, fun other hother => h.waiting other (List.mem_of_mem_eraseIdx hother)⟩
    exact hrest.locked (h.waiting args hmem) dupVisible tx
  | postConsume tx id delta =>
    cases hstep
    exact ⟨h.rows.postConsume, h.waiting⟩
  | refundInner f requestId =>
    obtain rfl := step_refundInner hstep
    exact h.refundInner f requestId
  | refundOuter i f =>
    obtain ⟨record, -, rfl⟩ := step_refundOuter hstep
    exact ⟨h.rows.markRefunded f record, h.waiting⟩
  | reset id now =>
    cases hstep
    exact ⟨h.rows.resetDueSubscription id now, h.waiting⟩

theorem Sound.run (h : s.Sound) {acts : List SubscriptionAct}
    (hrun : Machine.run (SubscriptionSystem.step env) s acts = some t) : t.Sound :=
  Machine.run_preserves Sound (fun _ _ _ hs hstep => hs.step hstep) h hrun

/--
**No interleaving takes a subscription out of its bounds.**  From tables whose rows are
within them, every state any callers can reach has `0 ≤ AmountUsed ≤ AmountTotal` on
every row with a total.
-/
theorem amountUsed_bounded {db : SubscriptionDB} {acts : List SubscriptionAct} (hdb : RowsOK db)
    (hrun : Machine.run (step env) (idle db) acts = some t) :
    ∀ row ∈ t.db.subs.rows, 0 < row.amountTotal →
      0 ≤ row.amountUsed ∧ row.amountUsed ≤ row.amountTotal := by
  intro row hrow htotal
  have hsound : t.Sound := Sound.run ⟨hdb, by simp [idle]⟩ hrun
  have hok := hsound.rows row hrow
  exact ⟨hok.used_nonneg, hok.used_le htotal⟩

/-! ### Two subscriptions to try it on -/

def subOf (id : Nat) (total endTime : Int) : UserSubscription where
  id := id
  userId := 1
  planId := 1
  amountTotal := total
  amountUsed := 0
  startTime := 0
  endTime := endTime
  status := .active
  lastResetTime := 0
  nextResetTime := 0

def neverEnv : SubscriptionEnv where
  plans := fun _ => some ⟨.never, 0⟩
  calendar := ⟨(· + 1), (· + 1), (· + 1)⟩

def twoSubs : SubscriptionDB :=
  ⟨⟨[subOf 1 10 100, subOf 2 100 200], by decide⟩, ⟨[], List.nodup_nil⟩⟩

theorem twoSubs_rowsOK : RowsOK twoSubs := by
  intro row hrow
  have hcases : row = subOf 1 10 100 ∨ row = subOf 2 100 200 := by
    simpa [twoSubs] using hrow
  rcases hcases with rfl | rfl
  · exact ⟨by decide, by decide, by decide⟩
  · exact ⟨by decide, by decide, by decide⟩

def tenOfR : PreConsumeArgs := ⟨"r", 1, 10, 0⟩

/-- A charge of 10, its refund, and a second refund, all within the bounds. -/
theorem amountUsed_bounded_refund :
    ∃ t, Machine.run (step neverEnv) (idle twoSubs)
        [.lookup tenOfR, .locked 0 true none, .refundInner .none "r", .refundOuter 0 .none,
          .refundInner .none "r"] = some t ∧
      ∀ row ∈ t.db.subs.rows, 0 < row.amountTotal →
        0 ≤ row.amountUsed ∧ row.amountUsed ≤ row.amountTotal := by
  have hrun : ∃ t, Machine.run (step neverEnv) (idle twoSubs)
      [.lookup tenOfR, .locked 0 true none, .refundInner .none "r", .refundOuter 0 .none,
        .refundInner .none "r"] = some t := ⟨_, rfl⟩
  obtain ⟨t, ht⟩ := hrun
  exact ⟨t, ht, amountUsed_bounded twoSubs_rowsOK ht⟩

end SubscriptionSystem

/-- Where the record of a request says it was charged, and how much. -/
def SubscriptionDB.chargeOf (db : SubscriptionDB) (requestId : String) : Option (Nat × Int) :=
  (db.records.find requestId).map fun record => (record.userSubscriptionId, record.preConsumed)

theorem SubscriptionDB.chargeOf_congr (h : db'.records = db.records) (requestId : String) :
    db'.chargeOf requestId = db.chargeOf requestId := by
  unfold SubscriptionDB.chargeOf
  rw [h]

theorem resetDueSubscription_records (env : SubscriptionEnv) (db : SubscriptionDB) (id : Nat)
    (now : Int) : (resetDueSubscription env db id now).records = db.records := by
  unfold resetDueSubscription
  split
  · rfl
  split
  · split
    · rfl
    · split
      · rfl
      · rfl
  · rfl

theorem markRefunded_chargeOf {record : SubscriptionPreConsumeRecord}
    (h : db.chargeOf record.requestId = some (record.userSubscriptionId, record.preConsumed))
    (requestId : String) :
    (markRefunded f record db).2.chargeOf requestId = db.chargeOf requestId := by
  unfold markRefunded
  split
  · rfl
  · rfl
  · by_cases hid : record.requestId = requestId
    · subst hid
      obtain ⟨old, hold, -⟩ := Option.map_eq_some_iff.mp h
      have hfind : (db.saveRecord { record with status := .refunded }).records.find
          record.requestId = some { record with status := .refunded } :=
        SubscriptionDB.find_saveRecord hold
      rw [h]
      unfold SubscriptionDB.chargeOf
      rw [hfind]
      rfl
    · have hfind : (db.saveRecord { record with status := .refunded }).records.find requestId =
          db.records.find requestId := SubscriptionDB.find_saveRecord_ne hid
      unfold SubscriptionDB.chargeOf
      rw [hfind]

/--
What the part under the row locks does to the records when it succeeds: it creates the
request's record together with a charge, or it finds the record there, charges nothing,
and answers with the row its search ended at.
-/
def RecordsCharge (args : PreConsumeArgs) (dupVisible : Bool)
    (found : Option (UserSubscription × UserSubscription)) (res : SubscriptionPreConsumeResult)
    (db db' : SubscriptionDB) : Prop :=
  (db.chargeOf args.requestId = none ∧
    (∀ requestId, db'.chargeOf requestId = if requestId = args.requestId then
      some (res.userSubscriptionId, args.amount) else db.chargeOf requestId) ∧
    res.preConsumed = args.amount ∧
    res.amountUsedAfter = res.amountUsedBefore + args.amount) ∨
  ∃ row sub amount, db.chargeOf args.requestId = some (row, amount) ∧
    dupVisible = true ∧ db'.records = db.records ∧ res.preConsumed = amount ∧
    res.amountUsedAfter = res.amountUsedBefore ∧
    found = some sub ∧ res.userSubscriptionId = sub.1.id

theorem preConsumeFrom_chargeOf {env : SubscriptionEnv} :
    ∀ {candidates : List UserSubscription} {db : SubscriptionDB},
      preConsumeFrom env args dupVisible db candidates = (.ok res, db') →
      RecordsCharge args dupVisible (charged env args candidates) res db db' := by
  intro candidates
  induction candidates with
  | nil =>
    intro db h
    simp [preConsumeFrom] at h
  | cons candidate rest ih =>
    intro db h
    unfold preConsumeFrom at h
    split at h
    · simp at h
    next plan hplan =>
    split at h
    · simp at h
    next sub hreset =>
    dsimp only at h
    have hcharged : charged env args (candidate :: rest) =
        if fits args sub then some (candidate, sub) else charged env args rest := by
      simp only [charged, hplan, hreset]
    rw [hcharged]
    split at h
    · rename_i hskip
      rw [if_neg (show ¬fits args sub from not_not.mpr hskip)]
      have hrest := ih h
      exact hrest
    next hfits =>
    rw [if_pos (show fits args sub from hfits)]
    split at h
    · rename_i hdup
      split at h
      · simp at h
      next dup hseen =>
      split at h
      · simp at h
      cases h
      cases dupVisible with
      | false => simp at hseen
      | true =>
        refine .inr ⟨dup.userSubscriptionId, (candidate, sub), dup.preConsumed, ?_, rfl, rfl,
          rfl, rfl, rfl, maybeReset_id hreset⟩
        have hfind : db.records.find args.requestId = some dup := by simpa using hseen
        unfold SubscriptionDB.chargeOf
        rw [hfind]
        rfl
    · rename_i db₁ hcreate
      cases h
      have hfresh : db.records.find args.requestId = none :=
        SubscriptionDB.createRecord_fresh hcreate
      refine .inl ⟨by unfold SubscriptionDB.chargeOf; rw [hfresh]; rfl, ?_, rfl, rfl⟩
      intro requestId
      unfold SubscriptionDB.chargeOf
      rw [SubscriptionDB.saveSub_records]
      by_cases hid : requestId = args.requestId
      · subst hid
        have hfind : db₁.records.find args.requestId = some (args.record sub.id) :=
          SubscriptionDB.find_createRecord hcreate
        rw [if_pos rfl, hfind]
        rfl
      · have hne : (args.record sub.id).requestId ≠ requestId := Ne.symm hid
        rw [if_neg hid, SubscriptionDB.find_createRecord_ne hcreate hne]
        rfl

theorem preConsumeLocked_chargeOf {env : SubscriptionEnv}
    (h : preConsumeLocked env args dupVisible db = (.ok res, db')) :
    RecordsCharge args dupVisible (charged env args (activeSubs db args.userId args.now)) res db
      db' := by
  unfold preConsumeLocked at h
  split at h
  · simp at h
  · exact preConsumeFrom_chargeOf h

namespace SubscriptionSystem

variable {env : SubscriptionEnv} {s t : SubscriptionSystem} {requestId : String}

/-! ### One charge -/

/-- The charges the history knows of a request are the one its record names, or none. -/
structure Recorded (requestId : String) (s : SubscriptionSystem) : Prop where
  charges : s.charges.filter (fun c => c.requestId = requestId) =
    ((s.db.chargeOf requestId).map fun c => ⟨requestId, c.1, c.2⟩).toList
  waiting : ∀ args ∈ s.waiting, args.check = none
  /-- a refund holds the record as it is in the table -/
  refunding : ∀ record ∈ s.refunding,
    s.db.chargeOf record.requestId = some (record.userSubscriptionId, record.preConsumed)

theorem Recorded.of_records (h : Recorded requestId s) (hrecords : db.records = s.db.records)
    {refunding : List SubscriptionPreConsumeRecord}
    (hrefunding : ∀ record ∈ refunding, record ∈ s.refunding) :
    Recorded requestId { s with db := db, refunding := refunding } := by
  refine ⟨?_, h.waiting, ?_⟩
  · rw [SubscriptionDB.chargeOf_congr hrecords]
    exact h.charges
  · intro record hrecord
    rw [SubscriptionDB.chargeOf_congr hrecords]
    exact h.refunding record (hrefunding record hrecord)

theorem Recorded.lookup (h : Recorded requestId s) (args : PreConsumeArgs) :
    Recorded requestId (s.lookup args) := by
  unfold SubscriptionSystem.lookup
  split
  · exact h
  next hcheck =>
  split
  · refine ⟨h.charges, ?_, h.refunding⟩
    intro other hother
    rcases List.mem_cons.mp hother with rfl | hold
    · exact hcheck
    · exact h.waiting other hold
  · split
    · exact h
    · exact ⟨h.charges, h.waiting, h.refunding⟩

theorem Recorded.locked (h : Recorded requestId s) (hargs : args.check = none) (dupVisible : Bool)
    (tx : TxReply) : Recorded requestId (s.locked env args dupVisible tx) := by
  have hamount := (PreConsumeArgs.check_eq_none hargs).2.2
  unfold SubscriptionSystem.locked
  split
  · exact h
  split
  · exact h
  next res db hres =>
  rcases preConsumeLocked_chargeOf hres with ⟨hfresh, hcharge, -, hused⟩ |
    ⟨_, _, _, -, -, hrecords, -, hused, -, -⟩
  · -- the record is new: the history gains the charge it names
    rw [if_neg (by omega)]
    refine ⟨?_, h.waiting, ?_⟩
    · show (Charge.mk args.requestId res.userSubscriptionId args.amount :: s.charges).filter
        (fun c => c.requestId = requestId) = ((db.chargeOf requestId).map _).toList
      rw [hcharge, List.filter_cons]
      by_cases hid : args.requestId = requestId
      · subst hid
        have hnone := h.charges
        rw [hfresh] at hnone
        simp only [decide_true, if_true, hnone]
        rfl
      · rw [if_neg (by simpa using hid), if_neg (Ne.symm hid)]
        exact h.charges
    · intro record hrecord
      show db.chargeOf record.requestId = _
      have hold := h.refunding record hrecord
      rw [hcharge, if_neg]
      · exact hold
      · intro hid
        rw [hid, hfresh] at hold
        simp at hold
  · rw [if_pos hused]
    have hsame := h.of_records hrecords fun _ hrecord => hrecord
    exact ⟨hsame.charges, hsame.waiting, hsame.refunding⟩

theorem refundInner_frame {rid : String} :
    (s.refundInner f rid).db.records = s.db.records ∧
      (s.refundInner f rid).returned = s.returned := by
  unfold SubscriptionSystem.refundInner
  split
  · exact ⟨rfl, rfl⟩
  split
  · exact ⟨rfl, rfl⟩
  split
  · exact ⟨rfl, rfl⟩
  next record _ =>
  split
  · exact ⟨rfl, rfl⟩
  split
  · exact ⟨rfl, rfl⟩
  have hrecords : (postConsumeUserSubscriptionDelta f.nested s.db
      record.userSubscriptionId (-record.preConsumed)).2.records = s.db.records :=
    postConsume_records
  split
  · exact ⟨rfl, rfl⟩
  · rename_i hres
    rw [hres] at hrecords
    exact ⟨hrecords, rfl⟩

theorem Recorded.refundInner (h : Recorded requestId s) (f : RefundFaults) (rid : String) :
    Recorded requestId (s.refundInner f rid) := by
  unfold SubscriptionSystem.refundInner
  split
  · exact h
  split
  · exact h
  split
  · exact h
  next record hfind =>
  have hrid : record.requestId = rid := Table.key_of_find hfind
  have hjoin : Recorded requestId { s with refunding := record :: s.refunding } := by
    refine ⟨h.charges, h.waiting, ?_⟩
    intro other hother
    rcases List.mem_cons.mp hother with rfl | hold
    · show s.db.chargeOf other.requestId = _
      unfold SubscriptionDB.chargeOf
      rw [hrid, hfind]
      rfl
    · exact h.refunding other hold
  split
  · exact h
  split
  · exact hjoin
  split
  · exact h
  · rename_i db hres
    have hrecords : (postConsumeUserSubscriptionDelta f.nested s.db
        record.userSubscriptionId (-record.preConsumed)).2.records = s.db.records :=
      postConsume_records
    rw [hres] at hrecords
    exact hjoin.of_records hrecords fun _ hrecord => hrecord

theorem Recorded.step (h : Recorded requestId s) (hstep : s.step env act = some t) :
    Recorded requestId t := by
  cases act with
  | lookup args =>
    cases hstep
    exact h.lookup args
  | locked i dupVisible tx =>
    obtain ⟨args, hargs, rfl⟩ := step_locked hstep
    have hmem : args ∈ s.waiting := List.mem_of_getElem? hargs
    have hrest : Recorded requestId { s with waiting := s.waiting.eraseIdx i } :=
      ⟨h.charges, fun other hother => h.waiting other (List.mem_of_mem_eraseIdx hother),
        h.refunding⟩
    exact hrest.locked (h.waiting args hmem) dupVisible tx
  | postConsume tx id delta =>
    cases hstep
    exact h.of_records postConsume_records fun _ hrecord => hrecord
  | refundInner f rid =>
    obtain rfl := step_refundInner hstep
    exact h.refundInner f rid
  | refundOuter i f =>
    obtain ⟨record, hrecord, rfl⟩ := step_refundOuter hstep
    have hheld := h.refunding record (List.mem_of_getElem? hrecord)
    refine ⟨?_, h.waiting, ?_⟩
    · rw [markRefunded_chargeOf hheld]
      exact h.charges
    · intro other hother
      rw [markRefunded_chargeOf hheld]
      exact h.refunding other (List.mem_of_mem_eraseIdx hother)
  | reset id now =>
    cases hstep
    exact h.of_records (resetDueSubscription_records env s.db id now) fun _ hrecord => hrecord

/-! ### What callers are told -/

/-- Every result given for the request names the charge on its record. -/
def Truthful (requestId : String) (s : SubscriptionSystem) : Prop :=
  ∀ ret ∈ s.returned, ret.requestId = requestId →
    s.db.chargeOf requestId = some (ret.result.userSubscriptionId, ret.result.preConsumed)

/--
A caller that falls back on the record of another call has searched its way to the row
which that record names.
-/
def FallbackAgrees (env : SubscriptionEnv) (requestId : String) (s : SubscriptionSystem) :
    SubscriptionAct → Prop
  | .locked i true none =>
    ∀ args, s.waiting[i]? = some args → args.requestId = requestId →
      ∀ id amount, s.db.chargeOf requestId = some (id, amount) →
        ∀ row sub, charged env args (activeSubs s.db args.userId args.now) = some (row, sub) →
          row.id = id
  | _ => True

theorem Truthful.answer (h : Truthful requestId s) {rid : String} (hres : rid = requestId →
      s.db.chargeOf requestId = some (res.userSubscriptionId, res.preConsumed)) :
    Truthful requestId (s.answer rid res) := by
  intro ret hret hrid
  rcases List.mem_cons.mp hret with rfl | hold
  · exact hres hrid
  · exact h ret hold hrid

theorem Truthful.of_chargeOf (h : Truthful requestId s) {t : SubscriptionSystem}
    (hreturned : t.returned = s.returned)
    (hcharge : ∀ c, s.db.chargeOf requestId = some c → t.db.chargeOf requestId = some c) :
    Truthful requestId t := by
  intro ret hret hrid
  rw [hreturned] at hret
  exact hcharge _ (h ret hret hrid)

theorem preConsumeExisting_ok {existing : SubscriptionPreConsumeRecord}
    (h : preConsumeExisting db existing = .ok res) :
    res.userSubscriptionId = existing.userSubscriptionId ∧
      res.preConsumed = existing.preConsumed := by
  unfold preConsumeExisting at h
  split at h
  · simp at h
  split at h
  · simp at h
  · rename_i sub hfind
    cases h
    have hkey : sub.id = existing.userSubscriptionId := Table.key_of_find hfind
    exact ⟨hkey, rfl⟩

theorem Truthful.lookup (h : Truthful requestId s) (args : PreConsumeArgs) :
    Truthful requestId (s.lookup args) := by
  unfold SubscriptionSystem.lookup
  split
  · exact h
  split
  · exact h
  next existing hfind =>
  split
  · exact h
  · rename_i res hres
    obtain ⟨hid, hpre⟩ := preConsumeExisting_ok hres
    refine h.answer fun hrid => ?_
    subst hrid
    unfold SubscriptionDB.chargeOf
    rw [hfind, hid, hpre]
    rfl

theorem Truthful.locked (h : Truthful requestId s) (hargs : args.check = none) {tx : TxReply}
    (hagrees : dupVisible = true → tx = none → args.requestId = requestId →
      ∀ id amount, s.db.chargeOf requestId = some (id, amount) →
        ∀ row sub, charged env args (activeSubs s.db args.userId args.now) = some (row, sub) →
          row.id = id) : Truthful requestId (s.locked env args dupVisible tx) := by
  have hamount := (PreConsumeArgs.check_eq_none hargs).2.2
  unfold SubscriptionSystem.locked
  split
  · exact h
  split
  · exact h
  next res db hres =>
  rcases preConsumeLocked_chargeOf hres with ⟨hfresh, hcharge, hpre, hused⟩ |
    ⟨id, sub, amount, hdup, hvisible, hrecords, hpre, hused, hcharged, hid⟩
  · rw [if_neg (by omega)]
    refine Truthful.answer ?_ ?_
    · refine h.of_chargeOf rfl fun c hc => ?_
      show db.chargeOf requestId = some c
      rw [hcharge, if_neg]
      · exact hc
      · intro hrid
        rw [hrid, hfresh] at hc
        simp at hc
    · intro hrid
      show db.chargeOf requestId = _
      rw [hcharge, if_pos hrid.symm, hpre]
  · rw [if_pos hused]
    have hsame : ∀ rid, db.chargeOf rid = s.db.chargeOf rid :=
      fun rid => SubscriptionDB.chargeOf_congr hrecords rid
    refine Truthful.answer ?_ ?_
    · refine h.of_chargeOf rfl fun c hc => ?_
      show db.chargeOf requestId = some c
      rw [hsame, hc]
    · intro hrid
      show db.chargeOf requestId = _
      rw [hsame, hid, hpre]
      subst hrid
      rw [hdup, hagrees hvisible rfl rfl id amount hdup sub.1 sub.2 hcharged]

theorem Truthful.step (h : Truthful requestId s) (hrec : Recorded requestId s)
    (hagrees : FallbackAgrees env requestId s act) (hstep : s.step env act = some t) :
    Truthful requestId t := by
  cases act with
  | lookup args =>
    cases hstep
    exact h.lookup args
  | locked i dupVisible tx =>
    obtain ⟨args, hargs, rfl⟩ := step_locked hstep
    have hmem : args ∈ s.waiting := List.mem_of_getElem? hargs
    have hrest : Truthful requestId { s with waiting := s.waiting.eraseIdx i } := h
    refine hrest.locked (hrec.waiting args hmem) ?_
    rintro rfl rfl hrid
    exact hagrees args hargs hrid
  | postConsume tx id delta =>
    cases hstep
    refine h.of_chargeOf rfl fun c hc => ?_
    rw [← hc]
    exact SubscriptionDB.chargeOf_congr postConsume_records requestId
  | refundInner f rid =>
    obtain rfl := step_refundInner hstep
    have hsame : (s.refundInner f rid).db.records = s.db.records ∧
        (s.refundInner f rid).returned = s.returned := refundInner_frame
    refine h.of_chargeOf hsame.2 fun c hc => ?_
    rw [← hc]
    exact SubscriptionDB.chargeOf_congr hsame.1 requestId
  | refundOuter i f =>
    obtain ⟨record, hrecord, rfl⟩ := step_refundOuter hstep
    refine h.of_chargeOf rfl fun c hc => ?_
    rw [← hc]
    exact markRefunded_chargeOf (hrec.refunding record (List.mem_of_getElem? hrecord)) _
  | reset id now =>
    cases hstep
    refine h.of_chargeOf rfl fun c hc => ?_
    rw [← hc]
    exact SubscriptionDB.chargeOf_congr (resetDueSubscription_records env s.db id now) requestId

/-! ### Both, over whole runs -/

theorem recorded_idle (hfresh : db.records.find requestId = none) :
    Recorded requestId (idle db) := by
  refine ⟨?_, by simp [idle], by simp [idle]⟩
  show [] = ((db.chargeOf requestId).map _).toList
  unfold SubscriptionDB.chargeOf
  rw [hfresh]
  rfl

theorem Recorded.charges_le_one (h : Recorded requestId s) :
    (s.charges.filter fun c => c.requestId = requestId).length ≤ 1 := by
  rw [h.charges]
  cases s.db.chargeOf requestId <;> simp

/-- The result names a charge that was made, and the record of it. -/
def NamesTheCharge (requestId : String) (s : SubscriptionSystem)
    (res : SubscriptionPreConsumeResult) : Prop :=
  Charge.mk requestId res.userSubscriptionId res.preConsumed ∈ s.charges ∧
    ∃ record, s.db.records.find requestId = some record ∧
      record.userSubscriptionId = res.userSubscriptionId ∧ record.preConsumed = res.preConsumed

theorem Truthful.namesTheCharge (h : Truthful requestId s) (hrec : Recorded requestId s)
    {ret : Returned} (hret : ret ∈ s.returned) (hrid : ret.requestId = requestId) :
    NamesTheCharge requestId s ret.result := by
  have hcharge := h ret hret hrid
  refine ⟨?_, ?_⟩
  · have hmem : Charge.mk requestId ret.result.userSubscriptionId ret.result.preConsumed ∈
        s.charges.filter fun c => c.requestId = requestId := by
      rw [hrec.charges, hcharge]
      simp
    exact (List.mem_filter.mp hmem).1
  · obtain ⟨record, hfind, heq⟩ := Option.map_eq_some_iff.mp hcharge
    simp only [Prod.mk.injEq] at heq
    exact ⟨record, hfind, heq⟩

/--
**A request is charged at most once, in every interleaving**; and where every fallback
ends at the recorded row, every call that succeeds is told the charge that was made.
-/
theorem one_charge_and_told {db : SubscriptionDB} {acts : List SubscriptionAct}
    (hfresh : db.records.find requestId = none)
    (hrun : Machine.run (step env) (idle db) acts = some t) :
    (t.charges.filter fun c => c.requestId = requestId).length ≤ 1 ∧
      (Machine.Meets (step env) (FallbackAgrees env requestId) (idle db) acts →
        ∀ ret ∈ t.returned, ret.requestId = requestId →
          NamesTheCharge requestId t ret.result) := by
  have hidle : Recorded requestId (idle db) := recorded_idle hfresh
  have hrec : Recorded requestId t :=
    Machine.run_preserves (Recorded requestId) (fun _ _ _ hs hstep => hs.step hstep) hidle hrun
  refine ⟨hrec.charges_le_one, ?_⟩
  intro hmeets
  -- carried together: the answers refer to the record, so the record must stay put
  have hboth : Recorded requestId t ∧ Truthful requestId t :=
    Machine.run_invariant (fun s => Recorded requestId s ∧ Truthful requestId s)
      (fun _ _ _ hs hcond hstep => ⟨hs.1.step hstep, hs.2.step hs.1 hcond hstep⟩)
      acts (idle db) t ⟨hidle, by intro ret hret; simp [idle] at hret⟩ hmeets hrun
  exact fun ret hret hrid => hboth.2.namesTheCharge hrec hret hrid

/-- Two callers that both find no record; the first takes the whole first subscription. -/
def twoCallers : List SubscriptionAct :=
  [.lookup tenOfR, .lookup tenOfR, .locked 0 true none, .locked 0 true none]

/-- The second caller is told subscription 2, and subscription 1 was charged. -/
theorem told_another_subscription :
    twoSubs.records.find "r" = none ∧
      ∃ t, Machine.run (step neverEnv) (idle twoSubs) twoCallers = some t ∧
        t.charges = [⟨"r", 1, 10⟩] ∧
        t.returned.map (fun ret => (ret.requestId, ret.result.userSubscriptionId)) =
          [("r", 2), ("r", 1)] ∧
        ¬∀ ret ∈ t.returned, ret.requestId = "r" → NamesTheCharge "r" t ret.result := by
  refine ⟨rfl, _, rfl, rfl, rfl, ?_⟩
  intro hall
  have hsecond := (hall _ (List.mem_cons_self ..) rfl).1
  exact absurd hsecond (by decide)

/-- A second call that comes after the first has committed is told the same. -/
theorem one_charge_and_told_later :
    ∃ t, Machine.run (step neverEnv) (idle twoSubs)
        [.lookup tenOfR, .locked 0 true none, .lookup tenOfR] = some t ∧
      (t.charges.filter fun c => c.requestId = "r").length ≤ 1 ∧
      ∀ ret ∈ t.returned, ret.requestId = "r" → NamesTheCharge "r" t ret.result := by
  have hrun : ∃ t, Machine.run (step neverEnv) (idle twoSubs)
      [.lookup tenOfR, .locked 0 true none, .lookup tenOfR] = some t := ⟨_, rfl⟩
  obtain ⟨t, ht⟩ := hrun
  have hfresh : twoSubs.records.find "r" = none := rfl
  obtain ⟨hone, htold⟩ := one_charge_and_told hfresh ht
  refine ⟨t, ht, hone, htold ?_⟩
  refine ⟨trivial, fun s₁ h₁ => ⟨?_, fun s₂ _ => ⟨trivial, fun _ _ => trivial⟩⟩⟩
  cases h₁
  intro args _ _ id amount hcharge
  have hnone : ((idle twoSubs).lookup tenOfR).db.chargeOf "r" = none := rfl
  rw [hnone] at hcharge
  simp at hcharge

end SubscriptionSystem

end JulongApi

/-
Paid orders, failed purchases and the purchase limit.

An order that is completed is locked and pending until it is saved as paid, so it is completed
once, and what is not paid has given no subscription.  A purchase writes nothing before it commits.

The limit rests on the lock of the user: whoever counts the user's subscriptions under it counts
all there are, and nobody adds one before the counting transaction is over.  A purchase that has
read its plan from the database before it locked the user counts in the view that read has opened,
and may miss subscriptions committed since.  That is the only way past the limit
(`sales_sound_iff`), and MySQL's default isolation the only one with such views
(`sales_sound_of_isolation`).
-/
import JulongApi.SubscriptionOrder
import JulongApi.Proofs.SubscriptionReset

namespace JulongApi

/-! ### Counting -/

theorem countByPlan_put {subs : GroupSubscriptionTable} {sub : GroupSubscription}
    (hfree : subs.find sub.id = none) (userId planId : Nat) :
    countByPlan (subs.put sub) userId planId =
      countByPlan subs userId planId +
        if sub.userId = userId ∧ sub.planId = planId then 1 else 0 := by
  have hrows : (subs.put sub).rows = sub :: subs.rows := Table.rows_put_of_find_none hfree
  unfold countByPlan
  rw [hrows, List.countP_cons]
  simp only [decide_eq_true_eq]

namespace SubscriptionSales

variable {env : SaleEnv} {init : SaleDB} {s t : SubscriptionSales} {i : Nat}
  {call stage : SaleStage} {change : SaleChange}

/-! ### What is to be shown -/

/-- The trade number of the order a subscription was created for. -/
def soldFor (change : SaleChange) : Option String :=
  if change.sub.isSome then change.order.map SubscriptionOrder.tradeNo else none

def Limited (env : SaleEnv) (subs : GroupSubscriptionTable) : Prop :=
  ∀ plan ∈ env.plans.rows, 0 < plan.maxPurchasePerUser → ∀ userId,
    (countByPlan subs userId plan.id : Int) ≤ plan.maxPurchasePerUser

structure Sound (env : SaleEnv) (init : SaleDB) (s : SubscriptionSales) : Prop where
  /-- an order has at most one subscription -/
  once : (s.log.filterMap soldFor).Nodup
  /-- an order that is not paid has none -/
  unpaid : ∀ order ∈ s.db.orders.rows, order.status ≠ .success →
    order.tradeNo ∉ s.log.filterMap soldFor
  /-- the tables are what the log has made of them -/
  replays : s.db = replaySales init s.log
  /-- what has failed has written nothing -/
  failed : ∀ i, s.calls[i]? = some (.done false) → ∀ change ∈ s.log, change.call ≠ some i
  limit : Limited env s.db.subs

/--
A sale that commits, and has counted in a view which was open before its user was locked, has room
among the subscriptions that are committed as well.
-/
def SeesAll (env : SaleEnv) (s : SubscriptionSales) : SaleAct → Prop
  | .advance i true input =>
    ∀ sale plan user view, s.calls[i]? = some (.commit sale plan user (some view)) →
      (s.saleChange env i sale plan user input).isSome → 0 < plan.maxPurchasePerUser →
        (countByPlan s.db.subs user.id plan.id : Int) < plan.maxPurchasePerUser
  | _ => True

/-- `SeesAll`, as a check of the stage that commits. -/
def seesAll (env : SaleEnv) (s : SubscriptionSales) : SaleAct → Bool
  | .advance i true input =>
    match s.calls[i]? with
    | some (.commit sale plan user (some _)) =>
      decide ((s.saleChange env i sale plan user input).isSome → 0 < plan.maxPurchasePerUser →
        (countByPlan s.db.subs user.id plan.id : Int) < plan.maxPurchasePerUser)
    | _ => true
  | _ => true

theorem seesAll_iff (env : SaleEnv) (s : SubscriptionSales) (a : SaleAct) :
    s.seesAll env a = true ↔ SeesAll env s a := by
  unfold seesAll SeesAll
  split
  · split
    · next hcall =>
      rw [hcall, decide_eq_true_iff]
      refine ⟨fun hroom sale plan user view h => ?_, fun hroom => hroom _ _ _ _ rfl⟩
      cases h
      exact hroom
    · next hcall =>
      refine iff_of_true rfl fun sale plan user view h => ?_
      exact absurd h (hcall sale plan user view)
  · exact iff_of_true rfl trivial

instance (env : SaleEnv) (s : SubscriptionSales) (a : SaleAct) : Decidable (SeesAll env s a) :=
  decidable_of_iff _ (seesAll_iff env s a)

/-! ### What holds in every run -/

def Pending (db : SaleDB) (order : SubscriptionOrder) : Prop :=
  db.orders.find order.tradeNo = some order ∧ order.status = .pending

def SaleInv (db : SaleDB) : Sale → Prop
  | .order _ order => Pending db order
  | .balance _ => True

/-- What a call knows while it holds its locks. -/
def StageInv (env : SaleEnv) (db : SaleDB) : SaleStage → Prop
  | .orderPlan _ order | .saveExpired order => Pending db order
  | .orderUser _ order plan => Pending db order ∧ plan ∈ env.plans.rows
  | .charge _ plan _ view => plan ∈ env.plans.rows ∧ (view ≠ none → env.isolation = .repeatableRead)
  | .count sale plan _ view =>
    SaleInv db sale ∧ plan ∈ env.plans.rows ∧ (view ≠ none → env.isolation = .repeatableRead)
  | .commit sale plan user view =>
    SaleInv db sale ∧ plan ∈ env.plans.rows ∧
      (view ≠ none → env.isolation = .repeatableRead) ∧
      (view = none → 0 < plan.maxPurchasePerUser →
        (countByPlan db.subs user.id plan.id : Int) < plan.maxPurchasePerUser)
  | _ => True

variable {db : SaleDB} {ok dbOk : Bool} {tradeNo : String} {userId : Nat}
  {order : SubscriptionOrder} {sale : Sale} {plan : SalePlan} {user : Buyer} {input : CommitInput}
  {a : SaleAct}

theorem StageInv.frame {db' : SaleDB} (h : StageInv env db stage)
    (horders : ∀ tradeNo, stage.locksOrder = some tradeNo →
      db'.orders.find tradeNo = db.orders.find tradeNo)
    (hsubs : ∀ userId, stage.locksUser = some userId → ∀ planId,
      countByPlan db'.subs userId planId = countByPlan db.subs userId planId) :
    StageInv env db' stage := by
  have hpending : ∀ order : SubscriptionOrder, stage.locksOrder = some order.tradeNo →
      Pending db order → Pending db' order :=
    fun order hlocks hpending => ⟨(horders _ hlocks).trans hpending.1, hpending.2⟩
  cases stage with
  | orderPlan args order => exact hpending order rfl h
  | saveExpired order => exact hpending order rfl h
  | orderUser args order plan => exact ⟨hpending order rfl h.1, h.2⟩
  | charge userId plan requiredQuota view => exact h
  | count sale plan user view =>
    refine ⟨?_, h.2⟩
    cases sale with
    | order args order => exact hpending order rfl h.1
    | balance requiredQuota => trivial
  | commit sale plan user view =>
    obtain ⟨hsale, hplan, hview, hroom⟩ := h
    refine ⟨?_, hplan, hview, fun hnone hmax => ?_⟩
    · cases sale with
      | order args order => exact hpending order rfl hsale
      | balance requiredQuota => trivial
    · rw [hsubs user.id rfl]
      exact hroom hnone hmax
  | complete | expire | purchase | done => trivial

structure Base (env : SaleEnv) (init : SaleDB) (s : SubscriptionSales) : Prop where
  replays : s.db = replaySales init s.log
  ordersOnce : ∀ tradeNo,
    Pool.AtMostOne (fun call : SaleStage => call.locksOrder = some tradeNo) s.calls
  usersOnce : ∀ userId, Pool.AtMostOne (fun call : SaleStage => call.locksUser = some userId) s.calls
  stages : ∀ call ∈ s.calls, StageInv env s.db call
  logged : ∀ change ∈ s.log, ∀ i, change.call = some i → s.calls[i]? = some (.done true)
  paid : ∀ tradeNo ∈ s.log.filterMap soldFor,
    ∃ order, s.db.orders.find tradeNo = some order ∧ order.status = .success
  once : (s.log.filterMap soldFor).Nodup

theorem Base.sound (h : Base env init s) (hlimit : Limited env s.db.subs) : Sound env init s where
  once := h.once
  unpaid := by
    intro order horder hstatus hsold
    obtain ⟨row, hrow, hpaid⟩ := h.paid order.tradeNo hsold
    rw [Table.find_of_mem horder] at hrow
    rw [Option.some.inj hrow] at hstatus
    exact hstatus hpaid
  replays := h.replays
  failed := by
    intro i hi change hchange hcall
    have hdone := h.logged change hchange i hcall
    rw [hi] at hdone
    simp at hdone
  limit := hlimit

/-! ### Steps without a write -/

structure Fits (env : SaleEnv) (s : SubscriptionSales) (call stage : SaleStage) : Prop where
  orders : ∀ tradeNo, stage.locksOrder = some tradeNo →
    call.locksOrder = some tradeNo ∨ s.orderLocked tradeNo = false
  users : ∀ userId, stage.locksUser = some userId →
    call.locksUser = some userId ∨ s.userLocked userId = false
  knows : StageInv env s.db stage

theorem Fits.done : Fits env s call (.done ok) :=
  ⟨by simp [SaleStage.locksOrder], by simp [SaleStage.locksUser], trivial⟩

/-- A stage that holds the pending order it has read has come to it under a free lock. -/
theorem Fits.pending {tradeNo : String} (hfree : ¬(s.busy env || s.orderLocked tradeNo) = true)
    (hread : (if dbOk then s.db.orders.find tradeNo else none) = some order)
    (hpending : ¬order.status ≠ .pending) (horder : stage.locksOrder = some order.tradeNo)
    (huser : stage.locksUser = none) (hknows : Pending s.db order → StageInv env s.db stage) :
    Fits env s call stage := by
  have hfind : s.db.orders.find tradeNo = some order := (Option.ite_none_right_eq_some.mp hread).2
  have hkey : order.tradeNo = tradeNo := Table.key_of_find hfind
  refine ⟨fun locked hlocks => .inr ?_, fun userId hlocks => ?_,
    hknows ⟨hkey ▸ hfind, not_not.mp hpending⟩⟩
  · cases horder.symm.trans hlocks
    rw [hkey]
    simpa using (Bool.or_eq_false_iff.mp (Bool.not_eq_true _ ▸ hfree)).2
  · cases huser.symm.trans hlocks

theorem not_locksOrder (h : s.orderLocked tradeNo = false) :
    ∀ call ∈ s.calls, call.locksOrder ≠ some tradeNo := by
  intro call hcall hlocks
  exact List.any_eq_false.mp h call hcall (decide_eq_true hlocks)

theorem not_locksUser (h : s.userLocked userId = false) :
    ∀ call ∈ s.calls, call.locksUser ≠ some userId := by
  intro call hcall hlocks
  exact List.any_eq_false.mp h call hcall (decide_eq_true hlocks)

theorem Base.goOn (h : Base env init s) (hi : s.calls[i]? = some call) (hcall : call ≠ .done true)
    (hfits : Fits env s call stage) : Base env init (s.goOn i stage) where
  replays := h.replays
  ordersOnce := by
    intro tradeNo
    refine (h.ordersOnce tradeNo).set hi fun hlocks => ?_
    rcases hfits.orders tradeNo hlocks with hold | hfree
    · exact .inl hold
    · exact .inr (not_locksOrder hfree)
  usersOnce := by
    intro userId
    refine (h.usersOnce userId).set hi fun hlocks => ?_
    rcases hfits.users userId hlocks with hold | hfree
    · exact .inl hold
    · exact .inr (not_locksUser hfree)
  stages := by
    intro other hother
    rcases Pool.mem_set_cases hother with rfl | ⟨k, -, hk⟩
    · exact hfits.knows
    · exact h.stages other (List.mem_of_getElem? hk)
  logged := by
    intro change hchange k hk
    have hdone := h.logged change hchange k hk
    have hne : i ≠ k := by
      rintro rfl
      exact hcall (Option.some.inj (hi.symm.trans hdone))
    show (s.calls.set i stage)[k]? = _
    rw [List.getElem?_set_ne hne]
    exact hdone
  paid := h.paid
  once := h.once

theorem Base.start (h : Base env init s) (horder : stage.locksOrder = none)
    (huser : stage.locksUser = none) (hstage : StageInv env s.db stage) :
    Base env init (s.start stage) where
  replays := h.replays
  ordersOnce := by
    intro tradeNo
    refine (h.ordersOnce tradeNo).append fun other hother => ?_
    rw [List.mem_singleton.mp hother, horder]
    simp
  usersOnce := by
    intro userId
    refine (h.usersOnce userId).append fun other hother => ?_
    rw [List.mem_singleton.mp hother, huser]
    simp
  stages := by
    intro other hother
    rcases List.mem_append.mp hother with hold | hnew
    · exact h.stages other hold
    · rw [List.mem_singleton.mp hnew]
      exact hstage
  logged := by
    intro change hchange k hk
    have hdone := h.logged change hchange k hk
    show (s.calls ++ [stage])[k]? = _
    rw [List.getElem?_append_left (List.getElem?_eq_some_iff.mp hdone).1]
    exact hdone
  paid := h.paid
  once := h.once

/-! ### Steps that write -/

theorem Base.pending_of_locked (h : Base env init s) (hcall : call ∈ s.calls)
    (hlocks : call.locksOrder = some tradeNo) :
    ∃ order, s.db.orders.find tradeNo = some order ∧ order.status = .pending := by
  have hstage := h.stages call hcall
  have hfound : ∀ order : SubscriptionOrder, Pending s.db order → order.tradeNo = tradeNo →
      ∃ order, s.db.orders.find tradeNo = some order ∧ order.status = .pending := by
    rintro order ⟨hfind, hpending⟩ rfl
    exact ⟨order, hfind, hpending⟩
  cases call with
  | orderPlan args order => exact hfound order hstage (Option.some.inj hlocks)
  | saveExpired order => exact hfound order hstage (Option.some.inj hlocks)
  | orderUser args order plan => exact hfound order hstage.1 (Option.some.inj hlocks)
  | count sale plan user view =>
    cases sale with
    | order args order => exact hfound order hstage.1 (Option.some.inj hlocks)
    | balance requiredQuota => simp [SaleStage.locksOrder] at hlocks
  | commit sale plan user view =>
    cases sale with
    | order args order => exact hfound order hstage.1 (Option.some.inj hlocks)
    | balance requiredQuota => simp [SaleStage.locksOrder] at hlocks
  | complete | expire | purchase | charge | done => simp [SaleStage.locksOrder] at hlocks

theorem Base.order_free (h : Base env init s) (hi : s.calls[i]? = some call)
    (hlocks : call.locksOrder = some tradeNo) :
    ∀ other ∈ (s.goOn i (.done ok)).calls, other.locksOrder ≠ some tradeNo := by
  intro other hother hlocks'
  rcases Pool.mem_set_cases hother with rfl | ⟨k, hk, hold⟩
  · simp [SaleStage.locksOrder] at hlocks'
  · exact (h.ordersOnce tradeNo).not_of_ne hi hlocks hk hold hlocks'

theorem Base.user_free (h : Base env init s) (hi : s.calls[i]? = some call)
    (hlocks : call.locksUser = some userId) :
    ∀ other ∈ (s.goOn i (.done ok)).calls, other.locksUser ≠ some userId := by
  intro other hother hlocks'
  rcases Pool.mem_set_cases hother with rfl | ⟨k, hk, hold⟩
  · simp [SaleStage.locksUser] at hlocks'
  · exact (h.usersOnce userId).not_of_ne hi hlocks hk hold hlocks'

theorem find_apply_ne (hne : ∀ order, change.order = some order → order.tradeNo ≠ tradeNo) :
    (change.apply db).orders.find tradeNo = db.orders.find tradeNo := by
  unfold SaleChange.apply
  cases horder : change.order with
  | none => rfl
  | some order => exact Table.find_put_ne (hne order horder)

theorem find_apply_self (horder : change.order = some order) :
    (change.apply db).orders.find order.tradeNo = some order := by
  unfold SaleChange.apply
  rw [horder]
  exact db.orders.find_put_self order

theorem countByPlan_apply {planId : Nat}
    (hsub : ∀ sub, change.sub = some sub → db.subs.find sub.id = none ∧ sub.userId ≠ userId) :
    countByPlan (change.apply db).subs userId planId = countByPlan db.subs userId planId := by
  unfold SaleChange.apply
  cases hchange : change.sub with
  | none => rfl
  | some sub =>
    obtain ⟨hfree, hne⟩ := hsub sub hchange
    show countByPlan (db.subs.put sub) userId planId = _
    rw [countByPlan_put hfree, if_neg fun h => hne h.1, Nat.add_zero]

/-- Nobody has locked what is written; a subscription is written with an order that is paid. -/
structure Writes (s : SubscriptionSales) (change : SaleChange) : Prop where
  call : ∀ i, change.call = some i → s.calls[i]? = some (.done true)
  order : ∀ order, change.order = some order →
    (∀ call ∈ s.calls, call.locksOrder ≠ some order.tradeNo) ∧
      order.tradeNo ∉ s.log.filterMap soldFor
  sub : ∀ sub, change.sub = some sub →
    s.db.subs.find sub.id = none ∧ (∀ call ∈ s.calls, call.locksUser ≠ some sub.userId) ∧
      ∃ order, change.order = some order ∧ order.status = .success

theorem Base.write (h : Base env init s) (hwrites : Writes s change) :
    Base env init (s.write change) where
  replays := by
    show change.apply s.db = change.apply (replaySales init s.log)
    rw [h.replays]
  ordersOnce := h.ordersOnce
  usersOnce := h.usersOnce
  stages := by
    intro call hcall
    refine (h.stages call hcall).frame (fun tradeNo hlocks => ?_) fun userId hlocks planId => ?_
    · refine find_apply_ne fun order horder heq => ?_
      exact (hwrites.order order horder).1 call hcall (heq ▸ hlocks)
    · refine countByPlan_apply fun sub hsub => ⟨(hwrites.sub sub hsub).1, fun heq => ?_⟩
      exact (hwrites.sub sub hsub).2.1 call hcall (heq ▸ hlocks)
  logged := by
    intro other hother i hi
    rcases List.mem_cons.mp hother with rfl | hold
    · exact hwrites.call i hi
    · exact h.logged other hold i hi
  paid := by
    intro tradeNo hsold
    show ∃ order, (change.apply s.db).orders.find tradeNo = some order ∧ order.status = .success
    have hcases : soldFor change = some tradeNo ∨ tradeNo ∈ s.log.filterMap soldFor := by
      obtain ⟨other, hother, hfor⟩ := List.mem_filterMap.mp hsold
      rcases List.mem_cons.mp hother with rfl | hold
      · exact .inl hfor
      · exact .inr (List.mem_filterMap.mpr ⟨other, hold, hfor⟩)
    rcases hcases with hnew | hold
    · unfold soldFor at hnew
      split at hnew
      next hsome =>
        obtain ⟨sub, hsub⟩ := Option.isSome_iff_exists.mp hsome
        obtain ⟨-, -, order, horder, hpaid⟩ := hwrites.sub sub hsub
        rw [horder] at hnew
        cases hnew
        exact ⟨order, find_apply_self horder, hpaid⟩
      · simp at hnew
    · obtain ⟨row, hrow, hpaid⟩ := h.paid tradeNo hold
      refine ⟨row, (find_apply_ne fun order horder heq => ?_).trans hrow, hpaid⟩
      exact (hwrites.order order horder).2 (heq ▸ hold)
  once := by
    show ((change :: s.log).filterMap soldFor).Nodup
    cases hfor : soldFor change with
    | none =>
      rw [List.filterMap_cons_none hfor]
      exact h.once
    | some tradeNo =>
      rw [List.filterMap_cons_some hfor]
      refine List.nodup_cons.mpr ⟨?_, h.once⟩
      unfold soldFor at hfor
      split at hfor
      · obtain ⟨order, horder, rfl⟩ := Option.map_eq_some_iff.mp hfor
        exact (hwrites.order order horder).2
      · simp at hfor

theorem saleChange_spec (h : s.saleChange env i sale plan user input = some change) :
    ∃ sub order, change.call = some i ∧ change.sub = some sub ∧ change.order = some order ∧
      sub.userId = user.id ∧ sub.planId = plan.id ∧ s.db.subs.find sub.id = none ∧
      order.status = .success ∧
      match sale with
      | .order _ old => order.tradeNo = old.tradeNo
      | .balance _ => s.db.orders.find order.tradeNo = none := by
  unfold saleChange at h
  split at h
  · simp at h
  next endUnix hend =>
  dsimp only at h
  split at h
  · simp at h
  next hfree =>
  have hfree' := Option.not_isSome_iff_eq_none.mp hfree
  cases sale with
  | order args old =>
    obtain ⟨topUp, -, rfl⟩ := Option.map_eq_some_iff.mp h
    exact ⟨_, _, rfl, rfl, rfl, rfl, rfl, hfree', rfl, rfl⟩
  | balance requiredQuota =>
    dsimp only at h
    split at h
    · simp at h
    next hnew =>
      cases h
      exact ⟨_, _, rfl, rfl, rfl, rfl, rfl, hfree', rfl,
        Option.not_isSome_iff_eq_none.mp hnew⟩

theorem getElem?_goOn (hi : s.calls[i]? = some call) :
    (s.goOn i stage).calls[i]? = some stage := by
  have hlt := (List.getElem?_eq_some_iff.mp hi).1
  show (s.calls.set i stage)[i]? = _
  simp [hlt]

theorem Base.commit (h : Base env init s) {view : SaleView}
    (hi : s.calls[i]? = some (.commit sale plan user view))
    (hchange : s.saleChange env i sale plan user input = some change) :
    Base env init ((s.write change).goOn i (.done true)) := by
  obtain ⟨sub, order, hcall, hsub, horder, huser, -, hfree, hpaid, hsale⟩ :=
    saleChange_spec hchange
  have hdone : Base env init (s.goOn i (.done true)) := h.goOn hi (by simp) .done
  have hknows : SaleInv s.db sale := (h.stages _ (List.mem_of_getElem? hi)).1
  refine hdone.write ⟨fun k hk => ?_, fun new hnew => ?_, fun new hnew => ?_⟩
  · rw [← Option.some.inj (hcall.symm.trans hk)]
    exact getElem?_goOn hi
  · cases horder.symm.trans hnew
    cases sale with
    | order args old =>
      have hsame : order.tradeNo = old.tradeNo := hsale
      rw [hsame]
      refine ⟨h.order_free hi rfl, fun hsold => ?_⟩
      obtain ⟨row, hrow, hsuccess⟩ := h.paid _ hsold
      obtain ⟨hfind, hpending⟩ := hknows
      rw [hfind] at hrow
      rw [← Option.some.inj hrow, hpending] at hsuccess
      simp at hsuccess
    | balance requiredQuota =>
      have hnone : s.db.orders.find order.tradeNo = none := hsale
      refine ⟨fun other hother hlocks => ?_, fun hsold => ?_⟩
      · rcases Pool.mem_set_cases hother with rfl | ⟨k, -, hold⟩
        · simp [SaleStage.locksOrder] at hlocks
        · obtain ⟨row, hrow, -⟩ := h.pending_of_locked (List.mem_of_getElem? hold) hlocks
          rw [hnone] at hrow
          simp at hrow
      · obtain ⟨row, hrow, -⟩ := h.paid _ hsold
        rw [hnone] at hrow
        simp at hrow
  · cases hsub.symm.trans hnew
    refine ⟨hfree, ?_, order, horder, hpaid⟩
    rw [huser]
    exact h.user_free hi rfl

theorem Base.saveExpired (h : Base env init s) {new : SubscriptionOrder}
    (hi : s.calls[i]? = some (.saveExpired order)) (hnew : new.tradeNo = order.tradeNo) :
    Base env init ((s.write ⟨some i, none, some new, none, none⟩).goOn i (.done true)) := by
  have hdone : Base env init (s.goOn i (.done true)) := h.goOn hi (by simp) .done
  obtain ⟨hfind, hpending⟩ : Pending s.db order := h.stages _ (List.mem_of_getElem? hi)
  refine hdone.write ⟨fun k hk => ?_, fun saved hsaved => ?_, fun sub hsub => by simp at hsub⟩
  · cases hk
    exact getElem?_goOn hi
  · cases hsaved
    rw [hnew]
    refine ⟨h.order_free hi rfl, fun hsold => ?_⟩
    obtain ⟨row, hrow, hsuccess⟩ := h.paid _ hsold
    rw [hfind] at hrow
    rw [← Option.some.inj hrow, hpending] at hsuccess
    simp at hsuccess

theorem Base.place (h : Base env init s) (hfree : s.db.orders.find order.tradeNo = none) :
    Base env init (s.write ⟨none, none, some order, none, none⟩) := by
  refine h.write ⟨fun k hk => by simp at hk, fun new hnew => ?_, fun sub hsub => by simp at hsub⟩
  cases hnew
  refine ⟨fun call hcall hlocks => ?_, fun hsold => ?_⟩
  · obtain ⟨row, hrow, -⟩ := h.pending_of_locked hcall hlocks
    rw [hfree] at hrow
    simp at hrow
  · obtain ⟨row, hrow, -⟩ := h.paid _ hsold
    rw [hfree] at hrow
    simp at hrow

theorem Base.wallet (h : Base env init s) :
    Base env init (s.write ⟨none, some user, none, none, none⟩) :=
  h.write ⟨fun k hk => by simp at hk, fun order horder => by simp at horder,
    fun sub hsub => by simp at hsub⟩

theorem Base.cache (h : Base env init s) {cached : List Nat} :
    Base env init { s with cached := cached } :=
  ⟨h.replays, h.ordersOnce, h.usersOnce, h.stages, h.logged, h.paid, h.once⟩

theorem view_of_openView (h : s.openView env ≠ none) : env.isolation = .repeatableRead := by
  unfold openView at h
  by_contra hiso
  rw [if_neg hiso] at h
  exact h rfl

inductive Moves (env : SaleEnv) (s : SubscriptionSales) (i : Nat) (dbOk : Bool)
    (input : CommitInput) (call : SaleStage) : SubscriptionSales → Prop
  /-- nothing is written -/
  | goOn (cached : List Nat) (stage : SaleStage) (hcall : call ≠ .done true)
      (hfits : Fits env s call stage) :
      Moves env s i dbOk input call ({ s with cached := cached }.goOn i stage)
  | expire (order new : SubscriptionOrder) (hcall : call = .saveExpired order)
      (hnew : new.tradeNo = order.tradeNo) :
      Moves env s i dbOk input call
        ((s.write ⟨some i, none, some new, none, none⟩).goOn i (.done true))
  | sell (sale : Sale) (plan : SalePlan) (user : Buyer) (view : SaleView) (change : SaleChange)
      (hcall : call = .commit sale plan user view) (hok : dbOk = true)
      (hchange : s.saleChange env i sale plan user input = some change) :
      Moves env s i dbOk input call ((s.write change).goOn i (.done true))

theorem moves_of_advance (hknows : StageInv env s.db call)
    (hstep : s.advance env i dbOk input call = some t) : Moves env s i dbOk input call t := by
  have hstop : ∀ ok, call ≠ .done true → Moves env s i dbOk input call (s.goOn i (.done ok)) :=
    fun ok hcall => .goOn s.cached (.done ok) hcall .done
  cases call with
  | complete args =>
    simp only [SubscriptionSales.advance] at hstep
    split at hstep
    · simp at hstep
    next hfree =>
    split at hstep
    · cases hstep
      exact hstop false (by simp)
    next order hread =>
    split at hstep
    · cases hstep
      exact hstop false (by simp)
    split at hstep
    · cases hstep
      exact hstop true (by simp)
    split at hstep
    · cases hstep
      exact hstop false (by simp)
    next hpending =>
      cases hstep
      exact .goOn s.cached _ (by simp) (.pending hfree hread hpending rfl rfl fun held => held)
  | orderPlan args order =>
    simp only [SubscriptionSales.advance] at hstep
    split at hstep
    · cases hstep
      exact hstop false (by simp)
    next plan hread =>
      cases hstep
      have hplan : plan ∈ env.plans.rows :=
        Table.mem_of_find (Option.ite_none_right_eq_some.mp hread).2
      exact .goOn (plan.id :: s.cached) _ (by simp)
        ⟨fun tradeNo hlocks => .inl hlocks, by simp [SaleStage.locksUser], hknows, hplan⟩
  | orderUser args order plan =>
    simp only [SubscriptionSales.advance] at hstep
    split at hstep
    · simp at hstep
    next hfree =>
    split at hstep
    · cases hstep
      exact hstop false (by simp)
    next user hread =>
      cases hstep
      have hid : user.id = order.userId :=
        Table.key_of_find (Option.ite_none_right_eq_some.mp hread).2
      refine .goOn s.cached _ (by simp) ⟨fun tradeNo hlocks => .inl hlocks,
        fun userId hlocks => .inr ?_, hknows.1, hknows.2, by simp⟩
      cases hlocks
      rw [hid]
      exact Bool.not_eq_true _ ▸ hfree
  | expire tradeNo expectedPaymentProvider =>
    simp only [SubscriptionSales.advance] at hstep
    split at hstep
    · simp at hstep
    next hfree =>
    split at hstep
    · cases hstep
      exact hstop false (by simp)
    next order hread =>
    split at hstep
    · cases hstep
      exact hstop false (by simp)
    split at hstep
    · cases hstep
      exact hstop true (by simp)
    next hpending =>
      cases hstep
      exact .goOn s.cached _ (by simp) (.pending hfree hread hpending rfl rfl fun held => held)
  | saveExpired order =>
    simp only [SubscriptionSales.advance] at hstep
    split at hstep
    · cases hstep
      exact .expire order _ rfl rfl
    · cases hstep
      exact hstop false (by simp)
  | purchase userId planId =>
    simp only [SubscriptionSales.advance] at hstep
    split at hstep
    · simp at hstep
    split at hstep
    · cases hstep
      exact hstop false (by simp)
    next plan hread =>
    have hplan : plan ∈ env.plans.rows :=
      Table.mem_of_find (Option.ite_none_right_eq_some.mp hread).2
    split at hstep
    · cases hstep
      exact .goOn (plan.id :: s.cached) _ (by simp) .done
    · cases hstep
      refine .goOn (plan.id :: s.cached) _ (by simp) ⟨by simp [SaleStage.locksOrder],
        by simp [SaleStage.locksUser], hplan, fun hview => ?_⟩
      split at hview
      · exact absurd rfl hview
      · exact view_of_openView hview
  | charge userId plan requiredQuota view =>
    simp only [SubscriptionSales.advance] at hstep
    split at hstep
    · simp at hstep
    next hfree =>
    split at hstep
    · cases hstep
      exact hstop false (by simp)
    next user hread =>
    have hid : user.id = userId := Table.key_of_find (Option.ite_none_right_eq_some.mp hread).2
    split at hstep
    · cases hstep
      exact hstop false (by simp)
    · cases hstep
      refine .goOn s.cached _ (by simp) ⟨by simp [SaleStage.locksOrder],
        fun locked hlocks => .inr ?_, trivial, hknows⟩
      have hsame : locked = userId := by
        rw [← hid, ← Option.some.inj hlocks]
        split <;> rfl
      rw [hsame]
      exact Bool.not_eq_true _ ▸ hfree
  | count sale plan user view =>
    simp only [SubscriptionSales.advance] at hstep
    split at hstep
    · cases hstep
      exact hstop false (by simp)
    split at hstep
    · cases hstep
      exact hstop false (by simp)
    next hroom =>
      cases hstep
      refine .goOn s.cached _ (by simp) ⟨fun tradeNo hlocks => .inl ?_,
        fun userId hlocks => .inl hlocks, hknows.1, hknows.2.1, hknows.2.2, fun hview hmax => ?_⟩
      · cases sale with
        | order args order => exact hlocks
        | balance requiredQuota => simp [SaleStage.locksOrder] at hlocks
      · -- no view is open, so the count is of what is committed
        subst hview
        exact Int.not_le.mp fun hle => hroom ⟨hmax, hle⟩
  | commit sale plan user view =>
    simp only [SubscriptionSales.advance] at hstep
    split at hstep
    · cases hstep
      exact hstop false (by simp)
    next change hchange =>
      cases hstep
      split at hchange
      next hok => exact .sell sale plan user view change rfl hok hchange
      · simp at hchange
  | done ok => simp [SubscriptionSales.advance] at hstep

theorem Base.advance (h : Base env init s) (hi : s.calls[i]? = some call)
    (hstep : s.advance env i dbOk input call = some t) : Base env init t := by
  cases moves_of_advance (h.stages call (List.mem_of_getElem? hi)) hstep with
  | goOn cached stage hcall hfits =>
    exact h.cache.goOn hi hcall ⟨hfits.orders, hfits.users, hfits.knows⟩
  | expire order new hcall hnew => exact h.saveExpired (hcall ▸ hi) hnew
  | sell sale plan user view change hcall hok hchange => exact h.commit (hcall ▸ hi) hchange

theorem base_step (h : Base env init s) (hstep : step env s a = some t) : Base env init t := by
  cases a with
  | place order =>
    simp only [step] at hstep
    split at hstep
    · simp at hstep
    next hfree =>
      cases hstep
      have hnone : ¬(s.db.orders.find order.tradeNo).isSome = true :=
        fun hsome => hfree (.inr (.inr hsome))
      exact h.place (Option.not_isSome_iff_eq_none.mp hnone)
  | wallet userId delta =>
    simp only [step] at hstep
    split at hstep
    · simp at hstep
    · obtain ⟨user, -, rfl⟩ := Option.map_eq_some_iff.mp hstep
      exact h.wallet
  | evict planId =>
    cases hstep
    exact h.cache
  | complete args =>
    simp only [step] at hstep
    split at hstep
    · cases hstep
      exact h.start rfl rfl trivial
    · cases hstep
      exact h.start rfl rfl trivial
  | expire tradeNo expectedPaymentProvider =>
    simp only [step] at hstep
    split at hstep
    · cases hstep
      exact h.start rfl rfl trivial
    · cases hstep
      exact h.start rfl rfl trivial
  | purchase userId planId =>
    simp only [step] at hstep
    split at hstep
    · cases hstep
      exact h.start rfl rfl trivial
    · cases hstep
      exact h.start rfl rfl trivial
  | advance i dbOk input =>
    simp only [step] at hstep
    split at hstep
    next call hi => exact h.advance hi hstep
    · simp at hstep

/-! ### The limit -/

theorem limited_sell_iff (h : Base env init s) (hlimit : Limited env s.db.subs) {view : SaleView}
    (hi : s.calls[i]? = some (.commit sale plan user view))
    (hchange : s.saleChange env i sale plan user input = some change) :
    Limited env (s.write change).db.subs ↔ s.SeesAll env (.advance i true input) := by
  obtain ⟨sub, order, -, hsub, -, huser, hplanId, hfree, -, -⟩ := saleChange_spec hchange
  obtain ⟨-, hplan, -, hroom⟩ := h.stages _ (List.mem_of_getElem? hi)
  have hcount : ∀ userId planId, countByPlan (s.write change).db.subs userId planId =
      countByPlan s.db.subs userId planId +
        if user.id = userId ∧ plan.id = planId then 1 else 0 := by
    intro userId planId
    have hput : (s.write change).db.subs = s.db.subs.put sub := by
      show change.sub.elim s.db.subs s.db.subs.put = _
      rw [hsub]
      rfl
    rw [hput, countByPlan_put hfree, huser, hplanId]
  constructor
  · intro hall sale' plan' user' view' hi' _ hmax
    obtain ⟨rfl, rfl, rfl, rfl⟩ := SaleStage.commit.inj (Option.some.inj (hi.symm.trans hi'))
    have hle := hall plan hplan hmax user.id
    rw [hcount, if_pos ⟨rfl, rfl⟩] at hle
    omega
  · intro hsees plan' hplan' hmax userId
    by_cases hsame : user.id = userId ∧ plan.id = plan'.id
    · obtain ⟨rfl, hid⟩ := hsame
      have hfound : env.plans.find plan.id = some plan := Table.find_of_mem hplan
      have hfound' : env.plans.find plan'.id = some plan' := Table.find_of_mem hplan'
      rw [← hid, hfound] at hfound'
      cases hfound'
      have hlt : (countByPlan s.db.subs user.id plan.id : Int) < plan.maxPurchasePerUser := by
        cases view with
        | none => exact hroom rfl hmax
        | some view => exact hsees sale plan user view hi (by rw [hchange]; rfl) hmax
      rw [hcount, if_pos ⟨rfl, rfl⟩]
      omega
    · rw [hcount, if_neg hsame, Nat.add_zero]
      exact hlimit plan' hplan' hmax userId

theorem limited_advance_iff (h : Base env init s) (hlimit : Limited env s.db.subs)
    (hi : s.calls[i]? = some call) (hstep : s.advance env i dbOk input call = some t) :
    Limited env t.db.subs ↔ s.SeesAll env (.advance i dbOk input) := by
  -- where no sale commits there is nothing to see
  have hnothing : (∀ sale plan user view, call = .commit sale plan user view → dbOk = true →
      s.saleChange env i sale plan user input = none) → s.SeesAll env (.advance i dbOk input) := by
    intro hnone
    cases dbOk with
    | false => trivial
    | true =>
      intro sale plan user view hi' hsome _
      have hcall := Option.some.inj (hi.symm.trans hi')
      rw [hnone sale plan user (some view) hcall rfl] at hsome
      simp at hsome
  cases call with
  | commit sale plan user view =>
    simp only [SubscriptionSales.advance] at hstep
    split at hstep
    next hchange =>
      cases hstep
      refine iff_of_true hlimit (hnothing ?_)
      rintro sale' plan' user' view' hcall rfl
      obtain ⟨rfl, rfl, rfl, rfl⟩ := SaleStage.commit.inj hcall
      simpa using hchange
    next change hchange =>
      cases hstep
      split at hchange
      next hok =>
        subst hok
        exact limited_sell_iff h hlimit hi hchange
      · simp at hchange
  | _ =>
    refine iff_of_true ?_ (hnothing (by simp))
    cases moves_of_advance (h.stages _ (List.mem_of_getElem? hi)) hstep with
    | goOn cached stage hcall hfits => exact hlimit
    | expire order new hcall hnew => exact hlimit
    | sell sale plan user view change hcall hok hchange => simp at hcall

theorem subs_step (ha : ∀ i dbOk input, a ≠ .advance i dbOk input) (hstep : step env s a = some t) :
    t.db.subs = s.db.subs := by
  cases a with
  | place order =>
    simp only [step] at hstep
    split at hstep
    · simp at hstep
    · cases hstep
      rfl
  | wallet userId delta =>
    simp only [step] at hstep
    split at hstep
    · simp at hstep
    · obtain ⟨user, -, rfl⟩ := Option.map_eq_some_iff.mp hstep
      rfl
  | evict planId =>
    cases hstep
    rfl
  | complete args =>
    simp only [step] at hstep
    split at hstep <;> rw [← Option.some.inj hstep] <;> rfl
  | expire tradeNo expectedPaymentProvider =>
    simp only [step] at hstep
    split at hstep <;> rw [← Option.some.inj hstep] <;> rfl
  | purchase userId planId =>
    simp only [step] at hstep
    split at hstep <;> rw [← Option.some.inj hstep] <;> rfl
  | advance i dbOk input => exact absurd rfl (ha i dbOk input)

theorem sound_step_iff (h : Base env init s) (hsound : Sound env init s)
    (hstep : step env s a = some t) : Sound env init t ↔ s.SeesAll env a := by
  have hbase : Base env init t := base_step h hstep
  have hiff : Sound env init t ↔ Limited env t.db.subs :=
    ⟨fun ht => ht.limit, fun ht => hbase.sound ht⟩
  rw [hiff]
  cases a with
  | advance i dbOk input =>
    simp only [step] at hstep
    split at hstep
    next call hi => exact limited_advance_iff h hsound.limit hi hstep
    · simp at hstep
  | _ =>
    refine iff_of_true ?_ trivial
    rw [subs_step (by simp) hstep]
    exact hsound.limit

theorem seesAll_of_stuck (h : step env s a = none) : s.SeesAll env a := by
  cases a with
  | advance i dbOk input =>
    cases dbOk with
    | false => trivial
    | true =>
      intro sale plan user view hi hsome _
      obtain ⟨change, hchange⟩ := Option.isSome_iff_exists.mp hsome
      simp [step, hi, SubscriptionSales.advance, hchange] at h
  | _ => trivial

theorem base_idle {db : SaleDB} : Base env db (idle db) where
  replays := rfl
  ordersOnce := fun _ i k a b hi => by simp [idle] at hi
  usersOnce := fun _ i k a b hi => by simp [idle] at hi
  stages := fun call hcall => by simp [idle] at hcall
  logged := fun change hchange => by simp [idle] at hchange
  paid := fun tradeNo hsold => by simp [idle] at hsold
  once := List.nodup_nil

/--
**In every run of callbacks, expiries and balance purchases an order has one subscription at most
and none unless it is paid, what fails writes nothing, and no plan is held more often than it
allows, exactly as long as no purchase commits that has missed, in a view from before its user was
locked, subscriptions that leave it no room.**
-/
theorem sales_sound_iff (env : SaleEnv) (db : SaleDB) (acts : List SaleAct)
    (hlimit : Limited env db.subs) :
    Machine.Meets (step env) (SeesAll env) (idle db) acts ↔
      ∀ pre, pre <+: acts → ∀ s, Machine.run (step env) (idle db) pre = some s →
        Sound env db s :=
  Machine.meets_iff_always_of (Base env db) (Sound env db) (P := fun _ => True)
    (fun _ _ _ h _ hstep => base_step h hstep)
    (fun _ _ _ h hsound _ hstep => sound_step_iff h hsound hstep)
    (fun _ _ hnone => seesAll_of_stuck hnone) acts (idle db) base_idle (base_idle.sound hlimit)
    fun _ _ => trivial

theorem sales_sound_of_isolation {db : SaleDB} {acts : List SaleAct}
    (hiso : env.isolation ≠ .repeatableRead) (hlimit : Limited env db.subs)
    (hrun : Machine.run (step env) (idle db) acts = some s) : Sound env db s := by
  have hstep : ∀ s a t, Base env db s ∧ Sound env db s → step env s a = some t →
      Base env db t ∧ Sound env db t := by
    rintro s a t ⟨h, hsound⟩ hstep
    refine ⟨base_step h hstep, (sound_step_iff h hsound hstep).mpr ?_⟩
    cases a with
    | advance i dbOk input =>
      cases dbOk with
      | false => trivial
      | true =>
        intro sale plan user view hi
        obtain ⟨-, -, hview, -⟩ := h.stages _ (List.mem_of_getElem? hi)
        exact absurd (hview (by simp)) hiso
    | _ => trivial
  exact (Machine.run_preserves _ hstep ⟨base_idle, base_idle.sound hlimit⟩ hrun).2

def oncePlan : SalePlan where
  quotaResetPeriod := .never
  quotaResetCustomSeconds := 0
  id := 1
  durationUnit := .day
  durationValue := 30
  customSeconds := 0
  maxPurchasePerUser := 1
  upgradeGroup := ""
  downgradeGroup := ""
  totalAmount := 0
  enabled := true
  priceAmount := 2
  allowBalancePay := none

def mysqlEnv : SaleEnv where
  isolation := .repeatableRead
  cal := { ResetSystem.sampleCalendar with addDate := fun start _ _ => start }
  plans := ⟨[oncePlan], by simp⟩
  quotaPerUnit := 500000

def pendingOrder : SubscriptionOrder where
  tradeNo := "t1"
  userId := 7
  planId := 1
  money := 2
  paymentMethod := "alipay"
  paymentProvider := .epay
  status := .pending
  createTime := 0
  completeTime := 0
  providerPayload := ""

def pendingDB : SaleDB where
  users := ⟨[⟨7, 2000000, "default"⟩], by simp⟩
  orders := ⟨[pendingOrder], by simp⟩
  topUps := ⟨[], List.nodup_nil⟩
  subs := ⟨[], List.nodup_nil⟩

/--
A balance purchase reads its plan from the database; the callback for the pending order runs; the
purchase goes on.
-/
def overtakenPurchase : List SaleAct :=
  [.purchase 7 1, .advance 0 true ⟨0, 0, ""⟩,
    .complete ⟨"t1", "", none, ""⟩, .advance 1 true ⟨0, 0, ""⟩, .advance 1 true ⟨0, 0, ""⟩,
    .advance 1 true ⟨0, 0, ""⟩, .advance 1 true ⟨0, 0, ""⟩, .advance 1 true ⟨1, 100, ""⟩,
    .advance 0 true ⟨0, 0, ""⟩, .advance 0 true ⟨0, 0, ""⟩, .advance 0 true ⟨2, 101, "t2"⟩]

theorem limited_pendingDB : Limited mysqlEnv pendingDB.subs := by
  intro plan hplan _ userId
  obtain rfl := List.mem_singleton.mp hplan
  simp [countByPlan, pendingDB, oncePlan]

theorem run_overtakenPurchase :
    ∃ s, Machine.run (step mysqlEnv) (idle pendingDB) overtakenPurchase = some s ∧
      countByPlan s.db.subs 7 1 = 2 ∧ ¬Sound mysqlEnv pendingDB s := by
  have hcount : (Machine.run (step mysqlEnv) (idle pendingDB) overtakenPurchase).map (fun s =>
      countByPlan s.db.subs 7 1) = some 2 := by decide +kernel
  obtain ⟨s, hrun, hs⟩ := Option.map_eq_some_iff.mp hcount
  refine ⟨s, hrun, hs, fun hsound => ?_⟩
  have hle := hsound.limit oncePlan (List.mem_singleton.mpr rfl) (by decide) 7
  have hid : oncePlan.id = 1 := rfl
  rw [hid, hs] at hle
  exact absurd hle (by decide)

/-- The user has bought the plan twice. -/
theorem overtaken_purchase_exceeds_limit :
    Limited mysqlEnv pendingDB.subs ∧
      ∃ s, Machine.run (step mysqlEnv) (idle pendingDB) overtakenPurchase = some s ∧
        countByPlan s.db.subs 7 1 = 2 ∧ ¬Sound mysqlEnv pendingDB s :=
  ⟨limited_pendingDB, run_overtakenPurchase⟩

/-- Where a statement sees what has been committed, the purchase is turned down in the same run. -/
theorem sales_sound_of_isolation_overtaken : ∃ s,
    Machine.run (step { mysqlEnv with isolation := .readCommitted }) (idle pendingDB)
      (overtakenPurchase.take 10) = some s ∧
        Sound { mysqlEnv with isolation := .readCommitted } pendingDB s := by
  have hruns : (Machine.run (step { mysqlEnv with isolation := .readCommitted }) (idle pendingDB)
      (overtakenPurchase.take 10)).isSome := by decide +kernel
  obtain ⟨s, hrun⟩ := Option.isSome_iff_exists.mp hruns
  exact ⟨s, hrun, sales_sound_of_isolation (by decide) limited_pendingDB hrun⟩

/-- The purchase alone: its plan, the charge, the count, and the commit. -/
def lonePurchase : List SaleAct :=
  [.purchase 7 1, .advance 0 true ⟨0, 0, ""⟩, .advance 0 true ⟨0, 0, ""⟩, .advance 0 true ⟨0, 0, ""⟩,
    .advance 0 true ⟨2, 101, "t2"⟩]

theorem meets_lonePurchase :
    Machine.Meets (step mysqlEnv) (SeesAll mysqlEnv) (idle pendingDB) lonePurchase := by
  decide +kernel

/-- One purchase within the limit, and one that is overtaken. -/
theorem sales_sound_overtaken :
    (∃ s, Machine.run (step mysqlEnv) (idle pendingDB) lonePurchase = some s ∧
      countByPlan s.db.subs 7 1 = 1 ∧ Sound mysqlEnv pendingDB s) ∧
      ¬Machine.Meets (step mysqlEnv) (SeesAll mysqlEnv) (idle pendingDB) overtakenPurchase := by
  constructor
  · have hcount : (Machine.run (step mysqlEnv) (idle pendingDB) lonePurchase).map (fun s =>
        countByPlan s.db.subs 7 1) = some 1 := by decide +kernel
    obtain ⟨s, hrun, hs⟩ := Option.map_eq_some_iff.mp hcount
    exact ⟨s, hrun, hs, (sales_sound_iff mysqlEnv pendingDB lonePurchase limited_pendingDB).mp
      meets_lonePurchase lonePurchase (List.prefix_refl _) s hrun⟩
  · intro hmeets
    obtain ⟨s, hrun, -, hexceeds⟩ := run_overtakenPurchase
    have halways :=
      (sales_sound_iff mysqlEnv pendingDB overtakenPurchase limited_pendingDB).mp hmeets
    exact hexceeds (halways overtakenPurchase (List.prefix_refl _) s hrun)

end SubscriptionSales

end JulongApi

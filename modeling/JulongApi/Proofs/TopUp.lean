/-
What a call on a top-up order can do.

Every call does one of three things (`apply_cases`): nothing, mark a pending order, or
complete a pending one and credit its user.  An order that is no longer pending is left
alone from then on, so an order is credited at most once and never after it was marked
(`credited_once`).

The second half compares the administrator's completion with the callbacks.  The two
routines credit the same for every provider but one: a Creem order holds the quota itself
in its amount, and the administrator's routine multiplies it like the others
(`manual_eq_callback_iff`).
-/
import JulongApi.TopUp
import JulongApi.Proofs.Pricing
import JulongApi.Proofs.Wallet

namespace JulongApi

/-! ### Crediting a user -/

namespace TopUpDB

variable {db db' : TopUpDB} {userId : Nat} {quota : Int} {email customer : TopUpUser → String}

@[simp] theorem saveTopUp_users (topUp : TopUp) : (db.saveTopUp topUp).users = db.users := rfl

@[simp] theorem quota_saveTopUp (topUp : TopUp) : (db.saveTopUp topUp).quota userId =
    db.quota userId := rfl

def Room (db : TopUpDB) (userId : Nat) (quota : Int) : Prop :=
  0 < quota ∧ quota ≤ maxWalletQuota ∧
    ∃ user, db.users.find userId = some user ∧ user.quota ≤ maxWalletQuota - quota

theorem creditTopUpQuota_ok (h : db.creditTopUpQuota userId quota email customer = .ok db') :
    db.Room userId quota ∧ db'.topUps = db.topUps ∧
      db'.quota userId = db.quota userId + quota := by
  unfold creditTopUpQuota at h
  split at h
  · simp at h
  next maxCurrent hmax =>
  split at h
  · simp at h
  next user hfind =>
  split at h
  · simp at h
  next after hcredit =>
  cases h
  obtain ⟨hpos, hafter, hcap⟩ := creditTopUpQuota_capped hcredit
  have hle : quota ≤ maxWalletQuota := by
    unfold topUpQuotaMaxCurrent at hmax
    split at hmax
    · simp at hmax
    · omega
  refine ⟨⟨hpos, hle, user, hfind, by omega⟩, rfl, ?_⟩
  have hsaved : (db.users.save ⟨user.id, after, email user, customer user⟩).find user.id =
      some ⟨user.id, after, email user, customer user⟩ :=
    Table.find_save_self ((Table.key_of_find hfind).symm ▸ hfind)
  rw [Table.key_of_find hfind] at hsaved
  simp only [TopUpDB.quota, Table.key_of_find hfind]
  rw [hsaved, hfind]
  exact hafter

theorem creditTopUpQuota_of_room (email customer : TopUpUser → String)
    (h : db.Room userId quota) :
    ∃ db', db.creditTopUpQuota userId quota email customer = .ok db' := by
  obtain ⟨hpos, hle, user, hfind, hroom⟩ := h
  have hmax : topUpQuotaMaxCurrent quota = .ok (maxWalletQuota - quota) := by
    unfold topUpQuotaMaxCurrent
    rw [if_neg (by omega)]
  have hcredit : JulongApi.creditTopUpQuota user.quota quota = .ok (user.quota + quota) := by
    unfold JulongApi.creditTopUpQuota
    rw [hmax]
    exact if_pos hroom
  unfold creditTopUpQuota
  simp only [hmax, hfind, hcredit]
  exact ⟨_, rfl⟩

end TopUpDB

/-! ### What a call can do -/

/-- What becomes of the tables in a call on an order. -/
inductive TopUpStep (act : TopUpAct) (db db' : TopUpDB) : Prop where
  | same (h : db' = db)
  | marked (order : TopUp) (target : TopUpStatus)
      (found : db.topUps.find act.tradeNo = some order) (pending : order.status = .pending)
      (h : db' = db.saveTopUp { order with status := target })
  | completed (order order' : TopUp) (quota : Int)
      (found : db.topUps.find act.tradeNo = some order) (pending : order.status = .pending)
      (provider : act.call = .manualCompleteTopUp ∨
        act.call.provider = some order.paymentProvider)
      (key : order'.tradeNo = order.tradeNo) (success : order'.status = .success)
      (topUps : db'.topUps = db.topUps.save order') (pos : 0 < quota)
      (credited : db'.quota order.userId = db.quota order.userId + quota)

def TopUp.complete (c : Completion) (now : Int) (topUp : TopUp) : TopUp :=
  { topUp with
    paymentMethod := c.paymentMethod topUp
    completeTime := now
    status := .success }

/-- The completion passes its checks and knows what to credit. -/
structure Completes (c : Completion) (order : TopUp) (quota : Int) : Prop where
  provider : c.provider = none ∨ c.provider = some order.paymentProvider
  pending : order.status = .pending
  amount : c.quotaToAdd order = some quota

section Complete

variable {c : Completion} {now : Int} {tradeNo : String} {db db' : TopUpDB} {order : TopUp}
  {quota : Int}

theorem provider_matches {expected : Option PaymentProvider} {provider : PaymentProvider} :
    expected.any (· ≠ provider) = false ↔ expected = none ∨ expected = some provider := by
  cases expected with
  | none => simp
  | some p => simp

theorem completeTopUp_ok (h : completeTopUp c now tradeNo db = .ok (quota, db')) :
    db' = db ∨ ∃ order, db.topUps.find tradeNo = some order ∧ Completes c order quota ∧
      0 < quota ∧
      (db.saveTopUp (order.complete c now)).creditTopUpQuota order.userId quota c.email
        c.stripeCustomer = .ok db' := by
  unfold completeTopUp at h
  split at h
  · simp at h
  next order hfind =>
  split at h
  · simp at h
  next hprovider =>
  split at h
  · simp only [Except.ok.injEq, Prod.mk.injEq] at h
    exact .inl h.2.symm
  split at h
  · simp at h
  next hpending =>
  split at h
  · simp at h
  next amount hamount =>
  split at h
  · simp at h
  next hpos =>
  cases hcredit : (db.saveTopUp (order.complete c now)).creditTopUpQuota order.userId amount
      c.email c.stripeCustomer with
  | error e =>
    simp only [TopUp.complete] at hcredit
    simp [hcredit, Except.map] at h
  | ok after =>
    simp only [TopUp.complete] at hcredit
    simp only [hcredit, Except.map, Except.ok.injEq, Prod.mk.injEq] at h
    obtain ⟨rfl, rfl⟩ := h
    have hmatches := provider_matches.mp (Bool.eq_false_of_not_eq_true hprovider)
    exact .inr ⟨order, hfind, ⟨hmatches, not_not.mp hpending, hamount⟩, not_le.mp hpos, hcredit⟩

theorem completeTopUp_of_room (hfind : db.topUps.find tradeNo = some order)
    (hc : Completes c order quota) (hroom : db.Room order.userId quota) :
    ∃ db', completeTopUp c now tradeNo db = .ok (quota, db') ∧
      (db.saveTopUp (order.complete c now)).creditTopUpQuota order.userId quota c.email
        c.stripeCustomer = .ok db' := by
  have hroom' : (db.saveTopUp (order.complete c now)).Room order.userId quota := hroom
  obtain ⟨db', hcredit⟩ := TopUpDB.creditTopUpQuota_of_room c.email c.stripeCustomer hroom'
  refine ⟨db', ?_, hcredit⟩
  have hpos : ¬quota ≤ 0 := not_le.mpr hroom.1
  unfold completeTopUp
  simp only [hfind, provider_matches.mpr hc.provider, hc.pending, hc.amount]
  simp only [TopUp.complete] at hcredit
  simp [hpos, hcredit, Except.map]

end Complete

section Apply

variable {call : TopUpCall} {unit : ℚ} {c : Completion}

theorem completion_provider (h : call.completion unit = some c) : c.provider = call.provider := by
  cases call <;> first | cases h; rfl | simp [TopUpCall.completion] at h

theorem apply_completion (h : call.completion unit = some c) (dbOk : Bool) (now : Int)
    (tradeNo : String) (db : TopUpDB) :
    call.apply unit dbOk now tradeNo db = (rechargeWith c dbOk now tradeNo db).2 := by
  cases call <;> first | cases h; rfl | simp [TopUpCall.completion] at h

theorem manual_of_provider_none (h : call.completion unit = some c) (hnone : c.provider = none) :
    call = .manualCompleteTopUp := by
  rw [completion_provider h] at hnone
  cases call with
  | manualCompleteTopUp => rfl
  | updatePendingTopUpStatus expected target => simp [TopUpCall.completion] at h
  | _ => simp [TopUpCall.provider] at hnone

theorem rechargeWith_cases {act : TopUpAct} {db : TopUpDB}
    (h : act.call.completion act.quotaPerUnit = some c) :
    TopUpStep act db (rechargeWith c act.dbOk act.now act.tradeNo db).2 := by
  unfold rechargeWith
  split
  · exact .same rfl
  split
  · exact .same rfl
  next quota db' hcomplete =>
  split at hcomplete
  · rcases completeTopUp_ok hcomplete with rfl | ⟨order, hfind, hc, hpos, hcredit⟩
    · exact .same rfl
    · obtain ⟨-, htopUps, hquota⟩ := TopUpDB.creditTopUpQuota_ok hcredit
      have hprovider : act.call = .manualCompleteTopUp ∨
          act.call.provider = some order.paymentProvider := by
        rcases hc.provider with hnone | hsome
        · exact .inl (manual_of_provider_none h hnone)
        · exact .inr ((completion_provider h).symm.trans hsome)
      exact .completed order (order.complete c act.now) quota hfind hc.pending hprovider rfl rfl
        htopUps hpos hquota
  · simp at hcomplete

/-- **A call does nothing, marks a pending order, or completes one and credits its user.** -/
theorem apply_cases (act : TopUpAct) (db : TopUpDB) :
    TopUpStep act db (act.call.apply act.quotaPerUnit act.dbOk act.now act.tradeNo db) := by
  cases hcompletion : act.call.completion act.quotaPerUnit with
  | some c =>
    rw [apply_completion hcompletion]
    exact rechargeWith_cases hcompletion
  | none =>
    obtain ⟨expected, target, hcall⟩ :
        ∃ expected target, act.call = .updatePendingTopUpStatus expected target := by
      cases hcall : act.call with
      | updatePendingTopUpStatus expected target => exact ⟨expected, target, rfl⟩
      | _ => simp [hcall, TopUpCall.completion] at hcompletion
    rw [hcall]
    show TopUpStep act db
      (updatePendingTopUpStatus act.dbOk act.tradeNo expected target db).2
    unfold updatePendingTopUpStatus
    split
    · exact .same rfl
    split
    · exact .same rfl
    split
    · exact .same rfl
    next order hfind =>
    split
    · exact .same rfl
    split
    · exact .same rfl
    next hpending => exact .marked order target hfind (not_not.mp hpending) rfl

end Apply

/-! ### A whole run -/

namespace TopUpSystem

variable {s t : TopUpSystem} {act : TopUpAct} {tradeNo : String}

/-- The credit came from a completion of a pending order, and from the right one. -/
structure CreditOK (c : Credit) : Prop where
  before : c.before.status = .pending
  after : ∃ order, c.after = some order ∧ order.status = .success
  pos : 0 < c.amount
  provider : c.act.call = .manualCompleteTopUp ∨
    c.act.call.provider = some c.before.paymentProvider

/-- What is true of an order and the credits for it, at any time. -/
structure OrderOK (s : TopUpSystem) (tradeNo : String) : Prop where
  once : (s.creditsOf tradeNo).length ≤ 1
  done : s.creditsOf tradeNo ≠ [] →
    ∃ order, s.db.topUps.find tradeNo = some order ∧ order.status = .success
  credits : ∀ c ∈ s.creditsOf tradeNo, CreditOK c

theorem creditOf_act {db db' : TopUpDB} {c : Credit} (h : creditOf act db db' = some c) :
    c.act = act := by
  unfold creditOf at h
  split at h
  · simp at h
  · split at h
    · simp at h
    · cases h
      rfl

theorem step_db (h : step s act = some t) : TopUpStep act s.db t.db := by
  cases h
  exact apply_cases act s.db

theorem step_creditsOf (h : step s act = some t) :
    t.creditsOf tradeNo =
      if act.tradeNo = tradeNo then (creditOf act s.db t.db).toList ++ s.creditsOf tradeNo
      else s.creditsOf tradeNo := by
  cases h
  unfold creditsOf
  rw [List.filter_append]
  cases hcredit : creditOf act s.db
      (act.call.apply act.quotaPerUnit act.dbOk act.now act.tradeNo s.db) with
  | none => simp
  | some c =>
    have hc : c.act = act := creditOf_act hcredit
    by_cases hkey : act.tradeNo = tradeNo
    · simp [hc, hkey]
    · simp [hc, hkey]

theorem creditOf_same {db db' : TopUpDB} (h : ∀ userId, db'.quota userId = db.quota userId) :
    creditOf act db db' = none := by
  unfold creditOf
  split
  · rfl
  · rw [if_pos (h _)]

theorem find_of_ne {db db' : TopUpDB} (h : TopUpStep act db db') (hne : act.tradeNo ≠ tradeNo) :
    db'.topUps.find tradeNo = db.topUps.find tradeNo := by
  cases h with
  | same h => rw [h]
  | marked order target found pending h =>
    have hkey : order.tradeNo ≠ tradeNo := by
      rw [Table.key_of_find found]
      exact hne
    rw [h]
    exact Table.find_save_ne hkey
  | completed order order' quota found pending provider key success topUps pos credited =>
    have hkey : order'.tradeNo ≠ tradeNo := by
      rw [key, Table.key_of_find found]
      exact hne
    rw [topUps]
    exact Table.find_save_ne hkey

theorem settled_step {order : TopUp} (hfind : s.db.topUps.find tradeNo = some order)
    (hsettled : order.status ≠ .pending) (h : step s act = some t) :
    t.db.topUps.find tradeNo = some order ∧ t.creditsOf tradeNo = s.creditsOf tradeNo := by
  have hstep := step_db h
  rw [step_creditsOf h]
  by_cases hkey : act.tradeNo = tradeNo
  · subst hkey
    rw [if_pos rfl]
    cases hstep with
    | same hsame =>
      rw [hsame, creditOf_same fun _ => rfl]
      exact ⟨hfind, rfl⟩
    | marked order₁ target found pending hdb =>
      cases hfind.symm.trans found
      exact absurd pending hsettled
    | completed order₁ order' quota found pending provider key success topUps pos credited =>
      cases hfind.symm.trans found
      exact absurd pending hsettled
  · rw [if_neg hkey]
    exact ⟨(find_of_ne hstep hkey).trans hfind, rfl⟩

theorem orderOK_of_nil (h : s.creditsOf tradeNo = []) : s.OrderOK tradeNo :=
  ⟨by simp [h], fun hne => absurd h hne, by simp [h]⟩

theorem orderOK_first {db : TopUpDB} (hstep : TopUpStep act db t.db)
    (hcredits : t.creditsOf act.tradeNo = (creditOf act db t.db).toList) :
    t.OrderOK act.tradeNo := by
  cases hstep with
  | same h =>
    have hnone : creditOf act db t.db = none := creditOf_same fun _ => by rw [h]
    rw [hnone] at hcredits
    exact orderOK_of_nil hcredits
  | marked order target found pending h =>
    have hnone : creditOf act db t.db = none := creditOf_same fun _ => by rw [h]; rfl
    rw [hnone] at hcredits
    exact orderOK_of_nil hcredits
  | completed order order' quota found pending provider key success topUps pos credited =>
    have hfind : t.db.topUps.find act.tradeNo = some order' := by
      have hold : db.topUps.find order'.tradeNo = some order := by
        rw [key, Table.key_of_find found, found]
      rw [topUps, ← Table.key_of_find found, ← key]
      exact Table.find_save_self hold
    have hsome : creditOf act db t.db = some
        { act := act, amount := quota, before := order, after := some order' } := by
      unfold creditOf
      rw [found]
      dsimp only
      rw [if_neg (by omega), credited, hfind]
      simp
    rw [hsome] at hcredits
    refine ⟨by simp [hcredits], fun _ => ⟨order', hfind, success⟩, ?_⟩
    rw [hcredits]
    intro c hc
    obtain rfl := List.mem_singleton.mp hc
    exact ⟨pending, ⟨order', rfl, success⟩, pos, provider⟩

theorem orderOK_step (hs : s.OrderOK tradeNo) (h : step s act = some t) : t.OrderOK tradeNo := by
  by_cases hcredited : s.creditsOf tradeNo = []
  · have hcredits : t.creditsOf tradeNo = _ := step_creditsOf h
    by_cases hkey : act.tradeNo = tradeNo
    · subst hkey
      rw [if_pos rfl, hcredited, List.append_nil] at hcredits
      exact orderOK_first (step_db h) hcredits
    · rw [if_neg hkey, hcredited] at hcredits
      exact orderOK_of_nil hcredits
  · obtain ⟨order, hfind, hsuccess⟩ := hs.done hcredited
    obtain ⟨hfind', hcredits⟩ := settled_step hfind (by simp [hsuccess]) h
    refine ⟨?_, fun _ => ⟨order, hfind', hsuccess⟩, ?_⟩
    · rw [hcredits]
      exact hs.once
    · rw [hcredits]
      exact hs.credits

theorem settled_run {order : TopUp} (hsettled : order.status ≠ .pending) {acts : List TopUpAct}
    (hfind : s.db.topUps.find tradeNo = some order) (hrun : Machine.run step s acts = some t) :
    t.creditsOf tradeNo = s.creditsOf tradeNo := by
  have hstep : ∀ u act v,
      (u.db.topUps.find tradeNo = some order ∧ u.creditsOf tradeNo = s.creditsOf tradeNo) →
      step u act = some v →
      v.db.topUps.find tradeNo = some order ∧ v.creditsOf tradeNo = s.creditsOf tradeNo := by
    intro u act v hu h
    obtain ⟨hfind', hcredits⟩ := settled_step hu.1 hsettled h
    exact ⟨hfind', hcredits.trans hu.2⟩
  exact (Machine.run_preserves _ hstep ⟨hfind, rfl⟩ hrun).2

/--
**An order is credited at most once**, by a call that moved it out of the pending status and
whose provider is the order's own unless it is the administrator's; an order that was marked
failed or expired is not credited afterwards.
-/
theorem credited_once {db : TopUpDB} {pre post : List TopUpAct}
    (hpre : Machine.run step (start db) pre = some s) (hpost : Machine.run step s post = some t) :
    (t.creditsOf tradeNo).length ≤ 1 ∧
      (∀ c ∈ t.creditsOf tradeNo, c.before.status = .pending ∧
        (∃ order, c.after = some order ∧ order.status = .success) ∧
        (c.act.call = .manualCompleteTopUp ∨
          c.act.call.provider = some c.before.paymentProvider)) ∧
      ∀ order, s.db.topUps.find tradeNo = some order →
        order.status = .failed ∨ order.status = .expired →
        t.creditsOf tradeNo = s.creditsOf tradeNo := by
  have hstep : ∀ s act t, OrderOK s tradeNo → step s act = some t → OrderOK t tradeNo :=
    fun s act t hs h => orderOK_step hs h
  have hs : s.OrderOK tradeNo := Machine.run_preserves _ hstep (orderOK_of_nil rfl) hpre
  have ht : t.OrderOK tradeNo := Machine.run_preserves _ hstep hs hpost
  refine ⟨ht.once, ?_, ?_⟩
  · intro c hc
    obtain ⟨hbefore, hafter, -, hprovider⟩ := ht.credits c hc
    exact ⟨hbefore, hafter, hprovider⟩
  · intro order hfind hmarked
    refine settled_run ?_ hfind hpost
    rcases hmarked with h | h <;> simp [h]

def sampleOrder (provider : PaymentProvider) (amount : Int) : TopUpDB where
  topUps := ⟨[⟨"order", 1, amount, 10, "", provider, 0, .pending⟩], by simp⟩
  users := ⟨[⟨1, 0, "", ""⟩], by simp⟩

def sampleAct (call : TopUpCall) : TopUpAct := ⟨call, "order", 500000, true, 0⟩

theorem credited_once_sample : ∃ s t,
    Machine.run step (start (sampleOrder .epay 2)) [sampleAct (.rechargeEpay "")] = some s ∧
    Machine.run step s [sampleAct (.rechargeEpay ""), sampleAct .manualCompleteTopUp] = some t ∧
    (t.creditsOf "order").map (·.amount) = [1000000] ∧ (t.creditsOf "order").length ≤ 1 := by
  refine ⟨_, _, rfl, rfl, by decide +kernel, ?_⟩
  exact (@credited_once _ _ "order" (sampleOrder .epay 2) [sampleAct (.rechargeEpay "")]
    [sampleAct (.rechargeEpay ""), sampleAct .manualCompleteTopUp] rfl rfl).1

/-- The administrator completes an order of Epay, whose callback this is not. -/
theorem manual_credits_any_provider : ∃ t c,
    Machine.run step (start (sampleOrder .epay 2)) [sampleAct .manualCompleteTopUp] = some t ∧
    c ∈ t.creditsOf "order" ∧ c.act.call.provider ≠ some c.before.paymentProvider := by
  refine ⟨_, ⟨sampleAct .manualCompleteTopUp, 1000000, ⟨"order", 1, 2, 10, "", .epay, 0, .pending⟩,
    some ⟨"order", 1, 2, 10, "", .epay, 0, .success⟩⟩, rfl, ?_, by decide⟩
  decide +kernel

end TopUpSystem

/-! ### The administrator's routine and the callbacks -/

theorem roundHalfAway_intCast (n : Int) : roundHalfAway n = n := by
  unfold roundHalfAway
  have hhalf : ∀ k : Int, ⌊(k : ℚ) + 1 / 2⌋ = k := by
    intro k
    rw [Int.floor_eq_iff]
    constructor <;> norm_num
  split
  · exact hhalf n
  · have hneg := hhalf (-n)
    push_cast at hneg
    rw [hneg, neg_neg]

theorem walletQuotaFromDecimalStrict_eq (d : ℚ) :
    walletQuotaFromDecimalStrict d =
      if -maxWalletQuota ≤ roundHalfAway d ∧ roundHalfAway d ≤ maxWalletQuota then
        some (roundHalfAway d)
      else none := by
  unfold walletQuotaFromDecimalStrict saturateQuotaBounded
  rw [truncate_intCast]
  norm_cast
  by_cases hhigh : maxWalletQuota < roundHalfAway d
  · rw [if_pos hhigh, if_neg (by omega)]
  · by_cases hlow : roundHalfAway d < -maxWalletQuota
    · rw [if_neg hhigh, if_pos hlow, if_neg (by omega)]
    · rw [if_neg hhigh, if_neg hlow, if_pos (by omega)]

namespace TopUpDB

variable {db : TopUpDB} {order : TopUp} {call : TopUpCall} {unit : ℚ} {now : Int}

def Creditable (db : TopUpDB) (order : TopUp) (quota : Int) : Prop :=
  order.tradeNo ≠ "" ∧ db.Room order.userId quota

/-- What a call on the order, with the store up, adds to the wallet of the order's user. -/
def credited (db : TopUpDB) (order : TopUp) (unit : ℚ) (now : Int) (call : TopUpCall) : Int :=
  (call.apply unit true now order.tradeNo db).quota order.userId - db.quota order.userId

theorem credited_eq {c : Completion} {d : ℚ} (hcall : call.completion unit = some c)
    (hfind : db.topUps.find order.tradeNo = some order) (hpending : order.status = .pending)
    (hprovider : c.provider = none ∨ c.provider = some order.paymentProvider)
    (hd : c.quotaToAdd order = walletQuotaFromDecimalStrict d) :
    (db.Creditable order (roundHalfAway d) → db.credited order unit now call = roundHalfAway d) ∧
      (¬db.Creditable order (roundHalfAway d) → db.credited order unit now call = 0) := by
  rw [walletQuotaFromDecimalStrict_eq] at hd
  unfold credited
  rw [apply_completion hcall]
  unfold rechargeWith
  rw [if_pos rfl]
  constructor
  · rintro ⟨hnumber, hroom⟩
    have hrange : -maxWalletQuota ≤ roundHalfAway d ∧ roundHalfAway d ≤ maxWalletQuota :=
      ⟨by have := hroom.1; unfold maxWalletQuota; omega, hroom.2.1⟩
    rw [if_pos hrange] at hd
    obtain ⟨db', hcomplete, hcredit⟩ :=
      @completeTopUp_of_room c now _ db order _ hfind ⟨hprovider, hpending, hd⟩ hroom
    obtain ⟨-, -, hquota⟩ := creditTopUpQuota_ok hcredit
    rw [if_neg hnumber, hcomplete]
    show db'.quota order.userId - db.quota order.userId = _
    rw [hquota, quota_saveTopUp]
    omega
  · intro hnot
    split
    · exact sub_self _
    next hnumber =>
    split
    · exact sub_self _
    next quota db' hcomplete =>
    rcases completeTopUp_ok hcomplete with rfl | ⟨order', hfind', hc, -, hcredit⟩
    · exact sub_self _
    · cases hfind.symm.trans hfind'
      have hamount := hc.amount
      rw [hd] at hamount
      split at hamount
      · cases hamount
        have hroom : db.Room order.userId (roundHalfAway d) := (creditTopUpQuota_ok hcredit).1
        exact absurd ⟨hnumber, hroom⟩ hnot
      · simp at hamount

theorem credited_eq_iff {q q' x x' : Int}
    (h : (db.Creditable order q → x = q) ∧ (¬db.Creditable order q → x = 0))
    (h' : (db.Creditable order q' → x' = q') ∧ (¬db.Creditable order q' → x' = 0)) :
    x = x' ↔ q = q' ∨ (¬db.Creditable order q ∧ ¬db.Creditable order q') := by
  by_cases hq : db.Creditable order q <;> by_cases hq' : db.Creditable order q'
  · rw [h.1 hq, h'.1 hq']
    simp [hq]
  · have hpos : 0 < q := hq.2.1
    have hne : q ≠ q' := fun heq => hq' (heq ▸ hq)
    rw [h.1 hq, h'.2 hq']
    simp [hq, hne]
    omega
  · have hpos : 0 < q' := hq'.2.1
    have hne : q ≠ q' := fun heq => hq (heq ▸ hq')
    rw [h.2 hq, h'.1 hq']
    simp [hq', hne]
    omega
  · rw [h.2 hq, h'.2 hq']
    simp [hq, hq']

def callbackValue (unit : ℚ) (order : TopUp) : ℚ :=
  if order.paymentProvider = .stripe then order.money * unit
  else if order.paymentProvider = .creem then order.amount
  else order.amount * unit

def manualValue (unit : ℚ) (order : TopUp) : ℚ :=
  if order.paymentProvider = .stripe then order.money * unit else order.amount * unit

theorem callback_quotaToAdd (h : call.provider = some order.paymentProvider) :
    ∃ c, call.completion unit = some c ∧ c.provider = some order.paymentProvider ∧
      c.quotaToAdd order = walletQuotaFromDecimalStrict (callbackValue unit order) := by
  unfold callbackValue
  cases call with
  | manualCompleteTopUp => simp [TopUpCall.provider] at h
  | updatePendingTopUpStatus expected target => simp [TopUpCall.provider] at h
  | _ =>
    have hprovider := (Option.some.inj h).symm
    rw [hprovider]
    exact ⟨_, rfl, rfl, rfl⟩

theorem manual_quotaToAdd :
    (manualCompleteTopUp unit).quotaToAdd order =
      walletQuotaFromDecimalStrict (manualValue unit order) := by
  unfold manualValue
  by_cases hstripe : order.paymentProvider = .stripe
  · rw [if_pos hstripe]
    exact if_pos hstripe
  · rw [if_neg hstripe]
    exact if_neg hstripe

/--
**The administrator's routine and the callback credit the same amount for a pending order,
unless the order is Creem's** and the amount and the multiplied amount differ, one of them
being an amount that can be credited.
-/
theorem manual_eq_callback_iff (now' : Int) (hfind : db.topUps.find order.tradeNo = some order)
    (hpending : order.status = .pending) (hcall : call.provider = some order.paymentProvider) :
    db.credited order unit now .manualCompleteTopUp = db.credited order unit now' call ↔
      (order.paymentProvider = .creem →
        roundHalfAway (order.amount * unit) = order.amount ∨
          (¬db.Creditable order (roundHalfAway (order.amount * unit)) ∧
            ¬db.Creditable order order.amount)) := by
  obtain ⟨c, hcompletion, hprovider, hvalue⟩ := @callback_quotaToAdd order call unit hcall
  have hmanual := @credited_eq db order .manualCompleteTopUp unit now _ _ rfl hfind hpending
    (.inl rfl) manual_quotaToAdd
  have hcallback := @credited_eq db order call unit now' _ _ hcompletion hfind hpending
    (.inr hprovider) hvalue
  rw [credited_eq_iff hmanual hcallback]
  unfold manualValue callbackValue
  by_cases hcreem : order.paymentProvider = .creem
  · simp [hcreem, roundHalfAway_intCast]
  · simp [hcreem]

/-- An order of Epay, whose amount is multiplied on both paths. -/
theorem manual_eq_callback_sample :
    (TopUpSystem.sampleOrder .epay 2).credited ⟨"order", 1, 2, 10, "", .epay, 0, .pending⟩ 500000 0
        .manualCompleteTopUp =
      (TopUpSystem.sampleOrder .epay 2).credited ⟨"order", 1, 2, 10, "", .epay, 0, .pending⟩
        500000 0 (.rechargeEpay "") := by
  refine (manual_eq_callback_iff 0 ?_ rfl rfl).mpr ?_
  · decide +kernel
  · intro hcreem
    simp at hcreem

/-- A Creem order over a quota of 1000: the callback credits 1000, the administrator 500000000. -/
theorem manual_multiplies_creem :
    (TopUpSystem.sampleOrder .creem 1000).credited ⟨"order", 1, 1000, 10, "", .creem, 0, .pending⟩
        500000 0 .manualCompleteTopUp = 500000000 ∧
      (TopUpSystem.sampleOrder .creem 1000).credited
        ⟨"order", 1, 1000, 10, "", .creem, 0, .pending⟩ 500000 0 (.rechargeCreem "") = 1000 := by
  decide +kernel

end TopUpDB

end JulongApi

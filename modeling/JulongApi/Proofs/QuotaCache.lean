/-
Reservations against a cache stay within the balance, as long as nothing is let out twice.

The balance is the column plus what the batch store owes it.  Part of it is spoken for: by
the cache, which may grant all it holds; by reservations the cache has granted and that are
not in the column yet; and by amounts that are still to be credited to the cache.  What is
left is the `room`.  A reservation moves quota from one part to another, so it leaves the
room alone, and as long as the room is not negative neither is the balance.

Three steps do not move quota but let it out.  A snapshot that is published hands the cache
what the column says, whether or not the batch store or a reservation under way has a claim
on it.  The conditional update in the database grants what the cache may have granted
already.  And a token's cache is credited before its column.  `Fits` says that what they
let out is not more than the room.
-/
import JulongApi.QuotaCache
import JulongApi.Lib.Pool
import JulongApi.Proofs.Quota

namespace JulongApi

/-- What a reservation has been granted by the cache and has not yet taken from the column. -/
def Reservation.held (j : Reservation) : Int :=
  match j.point with
  | .persist => j.quota
  | .compensate => j.quota
  | _ => 0

/-- What the cache is still to be credited of an increase. -/
def Increase.owed (j : Increase) : Int :=
  match j.point with
  | .credit => j.amount
  | _ => 0

namespace CachedQuota

def inCache (s : CachedQuota) : Int := max 0 (s.cache.getD 0)

def held (s : CachedQuota) : Int := (s.reservations.map Reservation.held).sum

def owed (s : CachedQuota) : Int := (s.increases.map Increase.owed).sum

def room (s : CachedQuota) : Int := s.balance - s.inCache - s.held - s.owed

/-- What a step lets out, it lets out within the room; and a flush does not lose a delta. -/
def Fits (env : CacheEnv) (s : CachedQuota) : CachedQuotaAct → Prop
  | .go i r => ∀ j, s.reservations[i]? = some j →
      (∀ snapshot, j.point = .publish snapshot → r.redisOk = true →
        ¬(env.owner = .user ∧ r.pending = true) → publishes env.owner s.fence s.cache = true →
          snapshot ≤ s.room) ∧
      (j.point = .fallback → r.dbOk = true → j.quota ≤ s.column.stored → j.quota ≤ s.room)
  | .fillPublish i => ∀ snapshot, s.fills[i]? = some snapshot →
      publishes env.owner s.fence s.cache = true → snapshot ≤ s.room
  | .increaseCredit i redisOk => ∀ j, s.increases[i]? = some j → j.point ≠ .credit →
      redisOk = true → s.cache.isSome = true → j.amount ≤ s.room
  | .flushWrite i dbOk => ∀ delta, s.flushing[i]? = some delta → dbOk = true ∨ delta = 0
  | _ => True

/-- The invariant: there is room, and the books are right. -/
structure Sound (granted : Int) (s : CachedQuota) : Prop where
  room : 0 ≤ s.room
  account : s.balance + s.reserved = granted + s.increased
  quotas : ∀ j ∈ s.reservations, 0 ≤ j.quota
  amounts : ∀ j ∈ s.increases, 0 ≤ j.amount

variable {env : CacheEnv} {s t : CachedQuota} {granted : Int}

theorem held_nonneg (h : ∀ j ∈ s.reservations, 0 ≤ j.quota) : 0 ≤ s.held := by
  refine List.sum_nonneg fun x hx => ?_
  obtain ⟨j, hj, rfl⟩ := List.mem_map.mp hx
  have hquota := h j hj
  unfold Reservation.held
  split <;> omega

theorem owed_nonneg (h : ∀ j ∈ s.increases, 0 ≤ j.amount) : 0 ≤ s.owed := by
  refine List.sum_nonneg fun x hx => ?_
  obtain ⟨j, hj, rfl⟩ := List.mem_map.mp hx
  have hamount := h j hj
  unfold Increase.owed
  split <;> omega

theorem Sound.balance_nonneg (h : Sound granted s) : 0 ≤ s.balance := by
  have hroom := h.room
  have hheld := held_nonneg h.quotas
  have howed := owed_nonneg h.amounts
  have hcache : 0 ≤ s.inCache := le_max_left _ _
  unfold CachedQuota.room at hroom
  omega

/-! ### One step of a reservation -/

/-- A step of a job left everything else alone, and moved what was reserved to the balance. -/
structure Booked (s s' : CachedQuota) : Prop where
  reservations : s'.reservations = s.reservations
  increases : s'.increases = s.increases
  balance : s'.balance + s'.reserved - s'.increased = s.balance + s.reserved - s.increased

/-- The room a step of a job takes, `before` and `after` being what the job holds. -/
def Spends (s s' : CachedQuota) (before after : Int) : Prop :=
  0 ≤ s.room → 0 ≤ s.room + (s'.balance - s'.inCache - after) - (s.balance - s.inCache - before)

theorem booked_self (s : CachedQuota) : Booked s s := ⟨rfl, rfl, rfl⟩

theorem booked_cache (s : CachedQuota) (cache : Option Int) : Booked s { s with cache := cache } :=
  ⟨rfl, rfl, rfl⟩

variable {before quota : Int} {point : ReservePoint} {redisOk dbOk : Bool} {s' : CachedQuota}
  {r : ReserveAnswer} {i : Nat} {j : Reservation}

variable {after snapshot amount : Int} {cache : Option Int} {column : QuotaColumn} {fence : Bool}

theorem spends_self (h : after ≤ before) : Spends s s before after := by
  intro hroom
  omega

theorem spends_cache (h : 0 ≤ s.room → max 0 (cache.getD 0) + after ≤ s.room + s.inCache + before) :
    Spends s { s with cache := cache } before after := by
  intro hroom
  have hcache := h hroom
  have hbalance : ({ s with cache := cache } : CachedQuota).balance = s.balance := rfl
  have hin : ({ s with cache := cache } : CachedQuota).inCache = max 0 (cache.getD 0) := rfl
  rw [hbalance, hin]
  omega

theorem afterScript_cases (quota : Int) (onMiss : ReservePoint) (redisOk : Bool) :
    (∃ q, s.cache = some q ∧ quota ≤ q ∧
        s.afterScript quota onMiss redisOk = ({ s with cache := some (q - quota) }, .persist)) ∨
      ∃ point, s.afterScript quota onMiss redisOk = (s, point) ∧
        (point = .fallback ∨ point = onMiss ∨ point = .done false) := by
  unfold afterScript
  split
  · exact .inr ⟨.fallback, rfl, .inl rfl⟩
  · cases hcache : s.cache with
    | none => exact .inr ⟨onMiss, rfl, .inr (.inl rfl)⟩
    | some q =>
      by_cases hlt : q < quota
      · simp only [reserveScript, if_pos hlt]
        exact .inr ⟨.done false, rfl, .inr (.inr rfl)⟩
      · simp only [reserveScript, if_neg hlt]
        exact .inl ⟨q, rfl, not_lt.mp hlt, rfl⟩

theorem afterScript_spends {onMiss : ReservePoint} (hquota : 0 ≤ quota)
    (hmiss : ∀ quota, (Reservation.mk quota onMiss).held = 0)
    (h : s.afterScript quota onMiss redisOk = (s', point)) :
    Booked s s' ∧ Spends s s' 0 (Reservation.mk quota point).held := by
  rcases afterScript_cases (s := s) quota onMiss redisOk with
    ⟨q, hcache, hle, heq⟩ | ⟨point', heq, hpoint⟩
  · rw [heq] at h
    cases h
    refine ⟨booked_cache s _, spends_cache fun hroom => ?_⟩
    simp only [inCache, hcache, Option.getD_some, Reservation.held]
    omega
  · rw [heq] at h
    cases h
    refine ⟨booked_self s, spends_self ?_⟩
    rcases hpoint with rfl | rfl | rfl
    · exact le_refl 0
    · exact (hmiss quota).le
    · exact le_refl 0

theorem publish_spends (h : publishes env.owner s.fence s.cache = true → snapshot ≤ s.room) :
    Spends s { s with cache := publishScript env.owner s.fence s.cache snapshot } 0 0 := by
  refine spends_cache fun hroom => ?_
  unfold publishScript
  split
  · rename_i hpub
    have hle := h hpub
    have hcache : 0 ≤ s.inCache := le_max_left _ _
    simp only [Option.getD_some]
    omega
  · show s.inCache + 0 ≤ s.room + s.inCache + 0
    omega

theorem afterPublish_spends (hfits : r.redisOk = true → ¬(env.owner = .user ∧ r.pending = true) →
      publishes env.owner s.fence s.cache = true → snapshot ≤ s.room)
    (h : s.afterPublish env snapshot r = (s', point)) :
    Booked s s' ∧ Spends s s' 0 (Reservation.mk quota point).held := by
  unfold afterPublish at h
  split at h
  · cases h
    exact ⟨booked_self s, spends_self (le_refl 0)⟩
  · rename_i hredis
    split at h
    · cases h
      exact ⟨booked_self s, spends_self (le_refl 0)⟩
    · rename_i hpending
      cases h
      exact ⟨booked_cache s _, publish_spends (hfits (by simpa using hredis) hpending)⟩

theorem afterHydrate_held (r : ReserveAnswer) (quota : Int) :
    (Reservation.mk quota (s.afterHydrate env r)).held = 0 := by
  unfold afterHydrate
  split
  · rfl
  · split
    · rfl
    · split <;> rfl

theorem booked_column (h : column.balance = s.column.balance - quota) :
    Booked s { s with column := column, reserved := s.reserved + quota } ∧
      ∀ before after, (0 ≤ s.room → quota + after ≤ s.room + before) →
        Spends s { s with column := column, reserved := s.reserved + quota } before after := by
  have hbalance : ({ s with column := column, reserved := s.reserved + quota } :
      CachedQuota).balance = s.balance - quota := by
    show column.balance + s.flushing.sum = s.column.balance + s.flushing.sum - quota
    omega
  refine ⟨⟨rfl, rfl, ?_⟩, ?_⟩
  · rw [hbalance]
    show s.balance - quota + (s.reserved + quota) - s.increased = _
    omega
  · intro before after hle hroom
    have hspent := hle hroom
    rw [hbalance]
    show 0 ≤ s.room + (s.balance - quota - s.inCache - after) - _
    omega

theorem persist_spends (h : s.reserveNext env ⟨quota, .persist⟩ r = some (s', point)) :
    Booked s s' ∧ Spends s s' quota (Reservation.mk quota point).held := by
  simp only [reserveNext] at h
  rcases hres : persistQuotaDelta env.quota (answer r.dbOk) s.column (-quota) with
    ⟨e | ok, column⟩ <;> rw [hres] at h
  · cases h
    exact ⟨booked_self s, spends_self (le_refl quota)⟩
  · cases h
    have hpaid : column.balance = s.column.balance - quota := (persistQuotaDelta_ok hres).balance
    obtain ⟨hbooked, hspends⟩ := booked_column hpaid
    refine ⟨hbooked, hspends _ _ fun hroom => ?_⟩
    simp only [Reservation.held]
    omega

theorem compensate_spends (hquota : 0 ≤ quota)
    (h : s.reserveNext env ⟨quota, .compensate⟩ r = some (s', point)) :
    Booked s s' ∧ Spends s s' quota (Reservation.mk quota point).held := by
  simp only [reserveNext] at h
  split at h
  · cases h
    refine ⟨booked_cache s _, spends_cache fun hroom => ?_⟩
    simp only [inCache, deltaScript, Reservation.held]
    cases s.cache with
    | none =>
      simp only [Option.map_none, Option.getD_none]
      omega
    | some q =>
      simp only [Option.map_some, Option.getD_some]
      omega
  · cases h
    exact ⟨booked_self s, spends_self hquota⟩

theorem fallback_spends (hfits : r.dbOk = true → quota ≤ s.column.stored → quota ≤ s.room)
    (h : s.reserveNext env ⟨quota, .fallback⟩ r = some (s', point)) :
    Booked s s' ∧ Spends s s' 0 (Reservation.mk quota point).held := by
  simp only [reserveNext, reserveQuotaDB, answer] at h
  split at h
  · rename_i column hres
    cases h
    split_ifs at hres with hdb hle
    · simp only [Prod.mk.injEq, reduceCtorEq, false_and] at hres
    · cases hres
      have hfit : quota ≤ s.room := hfits (by simpa using hdb) hle
      have hpaid : ({ s.column with stored := s.column.stored - quota } : QuotaColumn).balance =
          s.column.balance - quota := by
        simp only [QuotaColumn.balance]
        omega
      obtain ⟨hbooked, hspends⟩ := booked_column hpaid
      refine ⟨hbooked, hspends _ _ fun hroom => ?_⟩
      simp only [Reservation.held]
      omega
    · simp at hres
  · cases h
    exact ⟨booked_self s, spends_self (le_refl 0)⟩

/-- **A step of a reservation that fits keeps to the room.** -/
theorem reserveNext_spends (hquota : 0 ≤ j.quota) (hj : s.reservations[i]? = some j)
    (hfits : Fits env s (.go i r)) (h : s.reserveNext env j r = some (s', point)) :
    Booked s s' ∧ Spends s s' j.held { j with point := point }.held := by
  obtain ⟨quota, at'⟩ := j
  obtain ⟨hpublish, hfallback⟩ := hfits _ hj
  cases at' with
  | reserve =>
    exact afterScript_spends hquota (fun _ => rfl) (Option.some.inj h)
  | hydrate =>
    cases h
    exact ⟨booked_self s, spends_self (afterHydrate_held r quota).le⟩
  | publish snapshot =>
    exact afterPublish_spends (hpublish snapshot rfl) (Option.some.inj h)
  | again =>
    exact afterScript_spends hquota (fun _ => rfl) (Option.some.inj h)
  | persist => exact persist_spends h
  | compensate => exact compensate_spends hquota h
  | fallback => exact fallback_spends (hfallback rfl) h
  | done _ => simp [reserveNext] at h

/-! ### One step of an increase -/

theorem writeIncrease_ok {c c' : QuotaColumn} {j : Increase}
    (h : writeIncrease env c j dbOk = (.ok (), c')) : c'.balance = c.balance + j.amount := by
  unfold writeIncrease at h
  split at h
  · exact (increaseUserQuota_ok h).2.balance
  · exact (increaseTokenQuota_ok h).2.balance

theorem increaseNext_spends {j : Increase} {point : IncreasePoint} (hamount : 0 ≤ j.amount)
    (h : s.increaseNext env j dbOk = some (s', point)) :
    Booked s s' ∧ Spends s s' j.owed { j with point := point }.owed := by
  obtain ⟨amount, direct, at'⟩ := j
  cases at' with
  | write credited =>
    simp only [increaseNext] at h
    rcases hres : writeIncrease env s.column ⟨amount, direct, .write credited⟩ dbOk with
      ⟨e | ok, column⟩ <;> rw [hres] at h
    · cases h
      refine ⟨booked_self s, spends_self ?_⟩
      split <;> exact le_refl 0
    · cases h
      have hpaid : column.balance = s.column.balance + amount := writeIncrease_ok hres
      have hbalance : ({ s with column := column, increased := s.increased + amount } :
          CachedQuota).balance = s.balance + amount := by
        show column.balance + s.flushing.sum = s.column.balance + s.flushing.sum + amount
        omega
      refine ⟨⟨rfl, rfl, ?_⟩, ?_⟩
      · rw [hbalance]
        show s.balance + amount + s.reserved - (s.increased + amount) = _
        omega
      · intro hroom
        rw [hbalance]
        show 0 ≤ s.room + (s.balance + amount - s.inCache - _) - (s.balance - s.inCache - 0)
        simp only at hamount
        split
        · show 0 ≤ s.room + (s.balance + amount - s.inCache - 0) - (s.balance - s.inCache - 0)
          omega
        · show 0 ≤ s.room + (s.balance + amount - s.inCache - amount) - _
          omega
  | credit => simp [increaseNext] at h
  | creditOnly => simp [increaseNext] at h
  | done => simp [increaseNext] at h

theorem credited_spends (hamount : 0 ≤ amount) (hbefore : 0 ≤ before)
    (hfits : redisOk = true → s.cache.isSome = true → amount ≤ s.room + before)
    (hs' : s' = if redisOk then { s with cache := deltaScript s.cache amount } else s) :
    Booked s s' ∧ Spends s s' before 0 := by
  subst hs'
  split
  · rename_i hredis
    refine ⟨booked_cache s _, spends_cache fun hroom => ?_⟩
    cases hcache : s.cache with
    | none =>
      simp only [inCache, hcache, deltaScript, Option.map_none, Option.getD_none]
      omega
    | some q =>
      have hfit := hfits hredis (by simp [hcache])
      simp only [inCache, hcache, deltaScript, Option.map_some, Option.getD_some]
      omega
  · exact ⟨booked_self s, spends_self hbefore⟩

theorem creditNext_spends {j : Increase} {point : IncreasePoint} (hroom : 0 ≤ s.room)
    (hamount : 0 ≤ j.amount) (hj : s.increases[i]? = some j)
    (hfits : Fits env s (.increaseCredit i redisOk))
    (h : s.creditNext env j redisOk = some (s', point)) :
    Booked s s' ∧ Spends s s' j.owed { j with point := point }.owed := by
  obtain ⟨amount, direct, at'⟩ := j
  have hfit := hfits _ hj
  simp only at hamount hfit
  cases at' with
  | write credited =>
    cases credited with
    | true => simp [creditNext] at h
    | false =>
      simp only [creditNext] at h
      split at h
      · cases h
        refine credited_spends hamount (le_refl 0) (fun hredis hwarm => ?_) rfl
        exact (hfit (by simp) hredis hwarm).trans_eq (add_zero s.room).symm
      · simp at h
  | credit =>
    cases h
    refine credited_spends hamount hamount (fun _ _ => ?_) rfl
    simp only [Increase.owed]
    omega
  | creditOnly =>
    cases h
    refine credited_spends hamount (le_refl 0) (fun hredis hwarm => ?_) rfl
    exact (hfit (by simp) hredis hwarm).trans_eq (add_zero s.room).symm
  | done => simp [creditNext] at h

/-! ### Runs -/

theorem step_go (h : step env s (.go i r) = some t) :
    ∃ j s' point, s.reservations[i]? = some j ∧ s.reserveNext env j r = some (s', point) ∧
      t = { s' with reservations := s.reservations.set i { j with point := point } } := by
  simp only [step] at h
  split at h
  · simp at h
  · rename_i j hj
    split at h
    · simp at h
    · next s' point hnext => exact ⟨j, s', point, hj, hnext, (Option.some.inj h).symm⟩

theorem step_increaseWrite (h : step env s (.increaseWrite i dbOk) = some t) :
    ∃ j s' point, s.increases[i]? = some j ∧ s.increaseNext env j dbOk = some (s', point) ∧
      t = { s' with increases := s.increases.set i { j with point := point } } := by
  simp only [step] at h
  split at h
  · simp at h
  · rename_i j hj
    split at h
    · simp at h
    · next s' point hnext => exact ⟨j, s', point, hj, hnext, (Option.some.inj h).symm⟩

theorem step_increaseCredit (h : step env s (.increaseCredit i redisOk) = some t) :
    ∃ j s' point, s.increases[i]? = some j ∧ s.creditNext env j redisOk = some (s', point) ∧
      t = { s' with increases := s.increases.set i { j with point := point } } := by
  simp only [step] at h
  split at h
  · simp at h
  · rename_i j hj
    split at h
    · simp at h
    · next s' point hnext => exact ⟨j, s', point, hj, hnext, (Option.some.inj h).symm⟩

theorem step_increase {direct : Bool} (h : step env s (.increase amount direct) = some t) :
    0 ≤ amount ∧ t = { s with increases := s.increases ++ [⟨amount, direct, .write false⟩] } := by
  simp only [step] at h
  split at h
  · simp at h
  · next hneg => exact ⟨not_lt.mp hneg, (Option.some.inj h).symm⟩

theorem sound_reservation (hs : Sound granted s) (hj : s.reservations[i]? = some j)
    (h : Booked s s' ∧ Spends s s' j.held { j with point := point }.held) :
    Sound granted { s' with reservations := s.reservations.set i { j with point := point } } := by
  obtain ⟨⟨-, hincreases, hbooks⟩, hspends⟩ := h
  have hquota : 0 ≤ j.quota := hs.quotas j (List.mem_of_getElem? hj)
  refine ⟨?_, ?_, ?_, hincreases ▸ hs.amounts⟩
  · have hroom := hspends hs.room
    have hsum := Pool.sum_set Reservation.held (b := { j with point := point }) hj
    show 0 ≤ s'.balance - s'.inCache -
      ((s.reservations.set i { j with point := point }).map Reservation.held).sum -
      (s'.increases.map Increase.owed).sum
    rw [hsum, hincreases]
    unfold CachedQuota.room held owed at hroom
    omega
  · have haccount := hs.account
    show s'.balance + s'.reserved = granted + s'.increased
    omega
  · intro k hk
    rcases Pool.mem_set_cases hk with rfl | ⟨n, -, hn⟩
    · exact hquota
    · exact hs.quotas k (List.mem_of_getElem? hn)

theorem sound_increase {j : Increase} {point : IncreasePoint} (hs : Sound granted s)
    (hj : s.increases[i]? = some j)
    (h : Booked s s' ∧ Spends s s' j.owed { j with point := point }.owed) :
    Sound granted { s' with increases := s.increases.set i { j with point := point } } := by
  obtain ⟨⟨hreservations, -, hbooks⟩, hspends⟩ := h
  have hamount : 0 ≤ j.amount := hs.amounts j (List.mem_of_getElem? hj)
  refine ⟨?_, ?_, hreservations ▸ hs.quotas, ?_⟩
  · have hroom := hspends hs.room
    have hsum := Pool.sum_set Increase.owed (b := { j with point := point }) hj
    show 0 ≤ s'.balance - s'.inCache - (s'.reservations.map Reservation.held).sum -
      ((s.increases.set i { j with point := point }).map Increase.owed).sum
    rw [hsum, hreservations]
    unfold CachedQuota.room held owed at hroom
    omega
  · have haccount := hs.account
    show s'.balance + s'.reserved = granted + s'.increased
    omega
  · intro k hk
    rcases Pool.mem_set_cases hk with rfl | ⟨n, -, hn⟩
    · exact hamount
    · exact hs.amounts k (List.mem_of_getElem? hn)

theorem sound_cache {fills : List Int} (hs : Sound granted s)
    (h : max 0 (cache.getD 0) ≤ s.room + s.inCache) :
    Sound granted { s with cache := cache, fence := fence, fills := fills } := by
  refine ⟨?_, hs.account, hs.quotas, hs.amounts⟩
  show 0 ≤ s.balance - max 0 (cache.getD 0) - s.held - s.owed
  unfold CachedQuota.room at h
  omega

theorem sound_cold (hs : Sound granted s) :
    Sound granted { s with cache := none, fence := fence } := by
  refine sound_cache hs ?_
  have hroom := hs.room
  have hcache : 0 ≤ s.inCache := le_max_left _ _
  simp only [Option.getD_none]
  omega

theorem sound_flush {flushing : List Int} (hs : Sound granted s)
    (h : column.balance + flushing.sum = s.balance) :
    Sound granted { s with column := column, flushing := flushing } := by
  have hbalance : ({ s with column := column, flushing := flushing } : CachedQuota).balance =
    s.balance := h
  refine ⟨?_, ?_, hs.quotas, hs.amounts⟩
  · show 0 ≤ ({ s with column := column, flushing := flushing } : CachedQuota).balance -
      s.inCache - s.held - s.owed
    rw [hbalance]
    exact hs.room
  · rw [hbalance]
    exact hs.account

theorem sound_step {a : CachedQuotaAct} (hs : Sound granted s) (hfits : Fits env s a)
    (h : step env s a = some t) : Sound granted t := by
  cases a with
  | begin quota =>
    simp only [step] at h
    split at h
    · simp at h
    · split at h
      · exact Option.some.inj h ▸ hs
      · rename_i hneg _
        cases h
        refine ⟨?_, hs.account, ?_, hs.amounts⟩
        · have hheld : (Reservation.mk quota
              (if env.quota.redisEnabled then .reserve else .fallback)).held = 0 := by
            split <;> rfl
          show 0 ≤ s.balance - s.inCache - ((s.reservations ++ [_]).map Reservation.held).sum -
            s.owed
          rw [List.map_append, List.sum_append, List.map_singleton, List.sum_singleton, hheld,
            add_zero]
          exact hs.room
        · intro j hj
          rcases List.mem_append.mp hj with hj | hj
          · exact hs.quotas j hj
          · rw [List.mem_singleton.mp hj]
            exact not_lt.mp hneg
  | go i r =>
    obtain ⟨j, s', point, hj, hnext, rfl⟩ := step_go h
    exact sound_reservation hs hj
      (reserveNext_spends (hs.quotas j (List.mem_of_getElem? hj)) hj hfits hnext)
  | fillRead =>
    simp only [step] at h
    split at h
    · cases h
      exact ⟨hs.room, hs.account, hs.quotas, hs.amounts⟩
    · simp at h
  | fillPublish i =>
    simp only [step] at h
    split at h
    · simp at h
    · rename_i snapshot hsnapshot
      cases h
      refine sound_cache hs ?_
      have hspent := publish_spends (hfits snapshot hsnapshot) hs.room
      have hroom := hs.room
      show ({ s with cache := publishScript env.owner s.fence s.cache snapshot } :
        CachedQuota).inCache ≤ _
      have hbalance : ({ s with cache := publishScript env.owner s.fence s.cache snapshot } :
        CachedQuota).balance = s.balance := rfl
      omega
  | increase amount direct =>
    obtain ⟨hamount, rfl⟩ := step_increase h
    refine ⟨?_, hs.account, hs.quotas, ?_⟩
    · show 0 ≤ s.balance - s.inCache - s.held - ((s.increases ++ [_]).map Increase.owed).sum
      rw [List.map_append, List.sum_append]
      exact hs.room.trans_eq (by simp [CachedQuota.room, owed, Increase.owed])
    · intro j hj
      rcases List.mem_append.mp hj with hj | hj
      · exact hs.amounts j hj
      · rw [List.mem_singleton.mp hj]
        exact hamount
  | increaseWrite i dbOk =>
    obtain ⟨j, s', point, hj, hnext, rfl⟩ := step_increaseWrite h
    exact sound_increase hs hj
      (increaseNext_spends (hs.amounts j (List.mem_of_getElem? hj)) hnext)
  | increaseCredit i redisOk =>
    obtain ⟨j, s', point, hj, hnext, rfl⟩ := step_increaseCredit h
    exact sound_increase hs hj
      (creditNext_spends hs.room (hs.amounts j (List.mem_of_getElem? hj)) hj hfits hnext)
  | swap =>
    cases h
    refine sound_flush hs ?_
    simp only [QuotaColumn.balance, balance, List.sum_append, List.sum_singleton]
    omega
  | flushWrite i dbOk =>
    simp only [step] at h
    split at h
    · simp at h
    · rename_i delta hdelta
      cases h
      refine sound_flush hs ?_
      have hsum := Pool.sum_eraseIdx id hdelta
      simp only [List.map_id, id] at hsum
      rcases hfits delta hdelta with hok | hzero
      · rw [if_pos hok]
        simp only [QuotaColumn.balance, balance]
        omega
      · have hbalance : (if dbOk then { s.column with stored := s.column.stored + delta }
            else s.column).balance = s.column.balance := by
          split <;> simp [QuotaColumn.balance, hzero]
        rw [hbalance]
        simp only [balance]
        omega
  | evict =>
    cases h
    exact sound_cold hs
  | raiseFence =>
    cases h
    exact sound_cold hs
  | dropFence =>
    cases h
    exact ⟨hs.room, hs.account, hs.quotas, hs.amounts⟩

theorem sound_start {balance : Int} (h : 0 ≤ balance) : Sound balance (start balance) := by
  refine ⟨?_, ?_, by simp [start], by simp [start]⟩
  · show 0 ≤ (balance + 0 + 0) - max 0 0 - 0 - 0
    omega
  · show balance + 0 + 0 + 0 = balance + 0
    omega

/--
**Reservations stay within the balance.** In every interleaving whose steps let nothing out
beyond the room: database balance and pending deltas are never negative together, and what is
reserved is at most what was granted and given back.
-/
theorem reserved_within_balance (env : CacheEnv) (granted : Int) (acts : List CachedQuotaAct)
    (t : CachedQuota) (hgranted : 0 ≤ granted)
    (hmeets : Machine.Meets (step env) (Fits env) (start granted) acts)
    (hrun : Machine.run (step env) (start granted) acts = some t) :
    0 ≤ t.balance ∧ t.reserved - t.increased ≤ granted := by
  have hsound : Sound granted t :=
    Machine.run_invariant (Sound granted) (fun _ _ _ hs hfits h => sound_step hs hfits h)
      acts (start granted) t (sound_start hgranted) hmeets hrun
  have hbalance := hsound.balance_nonneg
  have haccount := hsound.account
  exact ⟨hbalance, by omega⟩

/-! ### Two runs -/

def sampleEnv : CacheEnv := ⟨⟨true, true⟩, .user⟩

def allUp : ReserveAnswer := ⟨true, true, false, false⟩

/-- Reservation number `i`, from a cold cache to its end: everything there is. -/
def reserveHundred (i : Nat) : List CachedQuotaAct :=
  [.begin 100, .go i allUp, .go i allUp, .go i allUp, .go i allUp, .go i allUp]

theorem fits_go (hj : s.reservations[i]? = some j)
    (hpublish : ∀ snapshot, j.point ≠ .publish snapshot) (hfallback : j.point ≠ .fallback) :
    Fits env s (.go i r) := by
  intro k hk
  cases hj.symm.trans hk
  exact ⟨fun snapshot h => absurd h (hpublish snapshot), fun h => absurd h hfallback⟩

/-- A reservation of 50 from a cold cache, and before it is written another from the warm one. -/
def reserveTwice : List CachedQuotaAct :=
  [.begin 50, .go 0 allUp, .go 0 allUp, .go 0 allUp, .go 0 allUp, .begin 50, .go 1 allUp,
    .go 0 allUp, .go 1 allUp]

/-- What is published is what there is, and both find their 50 in the cache. -/
theorem reserved_within_balance_sample : ∃ t,
    Machine.run (step sampleEnv) (start 100) reserveTwice = some t ∧
      t.reserved = 100 ∧ 0 ≤ t.balance ∧ t.reserved - t.increased ≤ 100 := by
  refine ⟨_, rfl, rfl, ?_⟩
  have hmeets : Machine.Meets (step sampleEnv) (Fits sampleEnv) (start 100) reserveTwice := by
    refine ⟨trivial, fun s₁ h₁ => ?_⟩
    cases h₁
    refine ⟨fits_go (j := ⟨50, .reserve⟩) rfl (by simp) (by simp), fun s₂ h₂ => ?_⟩
    cases h₂
    refine ⟨fits_go (j := ⟨50, .hydrate⟩) rfl (by simp) (by simp), fun s₃ h₃ => ?_⟩
    cases h₃
    refine ⟨?_, fun s₄ h₄ => ?_⟩
    · intro j hj
      cases hj
      refine ⟨fun snapshot hpoint _ _ _ => ?_, fun hpoint => absurd hpoint (by decide)⟩
      obtain rfl := ReservePoint.publish.inj hpoint
      decide
    cases h₄
    refine ⟨fits_go (j := ⟨50, .again⟩) rfl (by simp) (by simp), fun s₅ h₅ => ?_⟩
    cases h₅
    refine ⟨trivial, fun s₆ h₆ => ?_⟩
    cases h₆
    refine ⟨fits_go (j := ⟨50, .reserve⟩) rfl (by simp) (by simp), fun s₇ h₇ => ?_⟩
    cases h₇
    refine ⟨fits_go (j := ⟨50, .persist⟩) rfl (by simp) (by simp), fun s₈ h₈ => ?_⟩
    cases h₈
    exact ⟨fits_go (j := ⟨50, .persist⟩) rfl (by simp) (by simp), fun _ _ => trivial⟩
  exact reserved_within_balance sampleEnv 100 _ _ (by decide) hmeets rfl

/-- The hash is evicted before the flush: the column still says 100, and 100 are reserved again. -/
theorem evicted_cache_reserves_twice : ∃ t,
    Machine.run (step sampleEnv) (start 100) (reserveHundred 0 ++ [.evict] ++ reserveHundred 1) =
        some t ∧
      t.reserved = 200 ∧ t.balance = -100 ∧ ¬(0 ≤ t.balance ∧ t.reserved - t.increased ≤ 100) := by
  refine ⟨_, rfl, rfl, rfl, ?_⟩
  rintro ⟨hbalance, -⟩
  exact absurd hbalance (by decide)

end CachedQuota

end JulongApi

/-
Reserving quota against a cache: `model/quota_reserve.go`, and how `model/user_cache.go`
and `model/token_cache.go` fill the hash that it reads.

One balance, a user's wallet or a token, is kept in three places: its column, the batch
store with what a flush has taken out of it and not yet written, and the `Quota` (or
`RemainQuota`) field of a Redis hash.  A reservation is decided by whichever of them it
reaches.  Every script and every statement is an action of its own; what Redis and the
database answer to it is part of the action, and the hash may expire at any time.

`cache` is the field as the scripts see it, `none` when they would report a miss.  A
settlement and an unlimited token are charged without a look at the balance; these charges
are no reservations, and an unlimited token has no balance to speak of.  Neither is part of
the system.
-/
import JulongApi.Lib.Machine
import JulongApi.Wallet

namespace JulongApi

/-- Whose balance it is. -/
inductive QuotaOwner where
  | user
  | token
deriving DecidableEq, Repr

structure CacheEnv where
  quota : QuotaConfig
  owner : QuotaOwner
deriving DecidableEq, Repr

/-! ### Scripts -/

/-- `userQuotaReserveScript` and `tokenQuotaReserveScript`. -/
def reserveScript (cache : Option Int) (amount : Int) : CacheQuotaResult × Option Int :=
  match cache with
  | none => (.miss, none)
  | some quota => if quota < amount then (.insufficient, cache) else (.ok, some (quota - amount))

/-- `userQuotaDeltaScript` and `tokenQuotaDeltaScript`; a hash that is not there stays away. -/
def deltaScript (cache : Option Int) (delta : Int) : Option Int := cache.map (· + delta)

/-- The script lets a snapshot in: the hash is cold, and no token fence is up. -/
def publishes (owner : QuotaOwner) (fence : Bool) (cache : Option Int) : Bool :=
  cache.isNone && !(owner == .token && fence)

/-- `writeUserCache` with its quota, and `cacheInitToken`. -/
def publishScript (owner : QuotaOwner) (fence : Bool) (cache : Option Int) (snapshot : Int) :
    Option Int :=
  if publishes owner fence cache then some snapshot else cache

/-! ### Jobs -/

/-- Where a reservation stands: what it does next. -/
inductive ReservePoint where
  /-- the first run of the script -/
  | reserve
  /-- the miss: the database is read for a snapshot -/
  | hydrate
  | publish (snapshot : Int)
  /-- the second run of the script -/
  | again
  /-- the cache has granted; the delta is written -/
  | persist
  /-- the delta was not written; the cache gets it back -/
  | compensate
  /-- the conditional update in the database -/
  | fallback
  | done (reserved : Bool)
deriving DecidableEq, Repr

structure Reservation where
  quota : Int
  point : ReservePoint
deriving DecidableEq, Repr

/-- How the next step of a reservation is answered. -/
structure ReserveAnswer where
  redisOk : Bool
  dbOk : Bool
  /-- `GetUserCache` finds a hash it accepts -/
  cached : Bool
  /-- `ErrUserAuthCachePending`, for a user -/
  pending : Bool
deriving DecidableEq, Repr

/-- Where an increase stands; the cache is credited in a goroutine. -/
inductive IncreasePoint where
  /-- the column is next; a token's cache may have been credited already -/
  | write (credited : Bool)
  /-- the column has it, the cache is next -/
  | credit
  /-- the column was not written, and the token's cache is credited all the same -/
  | creditOnly
  | done
deriving DecidableEq, Repr

structure Increase where
  amount : Int
  /-- `db` of `IncreaseUserQuota`: not to the batch store -/
  direct : Bool
  point : IncreasePoint
deriving DecidableEq, Repr

/-! ### The system -/

structure CachedQuota where
  column : QuotaColumn
  /-- deltas a flush has taken and not yet written -/
  flushing : List Int
  cache : Option Int
  /-- the token's mutation fence -/
  fence : Bool
  reservations : List Reservation
  /-- snapshots read by others than a reservation -/
  fills : List Int
  increases : List Increase
  /-- the reservations that succeeded, and the increases -/
  reserved : Int
  increased : Int
deriving DecidableEq, Repr

inductive CachedQuotaAct where
  /-- `TryReserveUserQuota` or `TryReserveTokenQuota` is called -/
  | begin (quota : Int)
  /-- its next step -/
  | go (i : Nat) (r : ReserveAnswer)
  /-- any other reader finds no hash and reads the database -/
  | fillRead
  /-- ... and publishes what it has read -/
  | fillPublish (i : Nat)
  /-- `IncreaseUserQuota` or `IncreaseTokenQuota` is called: a refund -/
  | increase (amount : Int) (direct : Bool)
  | increaseWrite (i : Nat) (dbOk : Bool)
  | increaseCredit (i : Nat) (redisOk : Bool)
  /-- `batchUpdate` takes the pending delta -/
  | swap
  /-- ... and writes it -/
  | flushWrite (i : Nat) (dbOk : Bool)
  /-- the hash expires, is evicted or is invalidated -/
  | evict
  /-- `invalidateTokenCacheForMutation` -/
  | raiseFence
  | dropFence
deriving DecidableEq, Repr

namespace CachedQuota

/-- A balance that is in the database alone. -/
def start (balance : Int) : CachedQuota where
  column := ⟨balance, 0⟩
  flushing := []
  cache := none
  fence := false
  reservations := []
  fills := []
  increases := []
  reserved := 0
  increased := 0

/-- Database balance plus pending deltas. -/
def balance (s : CachedQuota) : Int := s.column.balance + s.flushing.sum

def answer (ok : Bool) : QuotaReply := ⟨none, false, none, ok⟩

/-- The script is run: the first time a miss is hydrated, the second time it is final. -/
def afterScript (s : CachedQuota) (quota : Int) (onMiss : ReservePoint) (redisOk : Bool) :
    CachedQuota × ReservePoint :=
  if redisOk = false then (s, .fallback)
  else
    match reserveScript s.cache quota with
    | (.miss, _) => (s, onMiss)
    | (.insufficient, _) => (s, .done false)
    | (.ok, cache) => ({ s with cache := cache }, .persist)

/-- A miss is hydrated by `GetUserCache`, or by `GetTokenByKey` from the database. -/
def afterHydrate (env : CacheEnv) (s : CachedQuota) (r : ReserveAnswer) : ReservePoint :=
  if env.owner = .user ∧ s.cache.isSome ∧ r.redisOk ∧ r.cached then .again
  else if r.dbOk = false then .fallback
  else if env.owner = .user ∧ r.pending then .fallback
  else .publish s.column.stored

/-- The snapshot is published; an error of Redis is only logged, a newer version is not. -/
def afterPublish (env : CacheEnv) (s : CachedQuota) (snapshot : Int) (r : ReserveAnswer) :
    CachedQuota × ReservePoint :=
  if r.redisOk = false then (s, .again)
  else if env.owner = .user ∧ r.pending then (s, .fallback)
  else ({ s with cache := publishScript env.owner s.fence s.cache snapshot }, .again)

/-- The next step of `TryReserveUserQuota` or `TryReserveTokenQuota`. -/
def reserveNext (env : CacheEnv) (s : CachedQuota) (j : Reservation) (r : ReserveAnswer) :
    Option (CachedQuota × ReservePoint) :=
  match j.point with
  | .reserve => some (s.afterScript j.quota .hydrate r.redisOk)
  | .hydrate => some (s, s.afterHydrate env r)
  | .publish snapshot => some (s.afterPublish env snapshot r)
  | .again => some (s.afterScript j.quota .fallback r.redisOk)
  | .persist =>
    match persistQuotaDelta env.quota (answer r.dbOk) s.column (-j.quota) with
    | (.ok (), column) =>
      some ({ s with column := column, reserved := s.reserved + j.quota }, .done true)
    | (.error _, _) => some (s, .compensate)
  | .compensate =>
    if r.redisOk then some ({ s with cache := deltaScript s.cache j.quota }, .done false)
    else some (s, .done false)
  | .fallback =>
    match reserveQuotaDB (answer r.dbOk) s.column j.quota with
    | (.ok true, column) =>
      some ({ s with column := column, reserved := s.reserved + j.quota }, .done true)
    | (_, _) => some (s, .done false)
  | .done _ => none

/-- The statement of an increase, and where that leaves it. -/
def writeIncrease (env : CacheEnv) (c : QuotaColumn) (j : Increase) (dbOk : Bool) :
    Except QuotaError Unit × QuotaColumn :=
  match env.owner with
  | .user => increaseUserQuotaWith j.direct env.quota (answer dbOk) c j.amount
  | .token => increaseTokenQuota env.quota (answer dbOk) c j.amount

def increaseNext (env : CacheEnv) (s : CachedQuota) (j : Increase) (dbOk : Bool) :
    Option (CachedQuota × IncreasePoint) :=
  match j.point with
  | .write credited =>
    match writeIncrease env s.column j dbOk with
    | (.ok (), column) =>
      some ({ s with column := column, increased := s.increased + j.amount },
        if credited || !env.quota.redisEnabled then .done else .credit)
    | (.error _, _) =>
      -- a user's goroutine is started only once the statement went through
      some (s, if env.owner = .token ∧ env.quota.redisEnabled ∧ credited = false then
        .creditOnly else .done)
  | _ => none

/-- `increaseCredit`: a token's goroutine may run ahead of the statement. -/
def creditNext (env : CacheEnv) (s : CachedQuota) (j : Increase) (redisOk : Bool) :
    Option (CachedQuota × IncreasePoint) :=
  let s' := if redisOk then { s with cache := deltaScript s.cache j.amount } else s
  match j.point with
  | .write false =>
    if env.owner = .token ∧ env.quota.redisEnabled then some (s', .write true) else none
  | .credit => some (s', .done)
  | .creditOnly => some (s', .done)
  | _ => none

def step (env : CacheEnv) (s : CachedQuota) : CachedQuotaAct → Option CachedQuota
  | .begin quota =>
    if quota < 0 then none
    else if quota = 0 then some s
    else
      let point := if env.quota.redisEnabled then .reserve else .fallback
      some { s with reservations := s.reservations ++ [⟨quota, point⟩] }
  | .go i r =>
    match s.reservations[i]? with
    | none => none
    | some j =>
      match s.reserveNext env j r with
      | none => none
      | some (s', point) =>
        some { s' with reservations := s.reservations.set i { j with point := point } }
  | .fillRead =>
    if env.quota.redisEnabled then some { s with fills := s.fills ++ [s.column.stored] } else none
  | .fillPublish i =>
    match s.fills[i]? with
    | none => none
    | some snapshot =>
      some { s with
        cache := publishScript env.owner s.fence s.cache snapshot
        fills := s.fills.eraseIdx i }
  | .increase amount direct =>
    if amount < 0 then none
    else some { s with increases := s.increases ++ [⟨amount, direct, .write false⟩] }
  | .increaseWrite i dbOk =>
    match s.increases[i]? with
    | none => none
    | some j =>
      match s.increaseNext env j dbOk with
      | none => none
      | some (s', point) =>
        some { s' with increases := s.increases.set i { j with point := point } }
  | .increaseCredit i redisOk =>
    match s.increases[i]? with
    | none => none
    | some j =>
      match s.creditNext env j redisOk with
      | none => none
      | some (s', point) =>
        some { s' with increases := s.increases.set i { j with point := point } }
  | .swap =>
    some { s with
      column := { s.column with pending := 0 }
      flushing := s.flushing ++ [s.column.pending] }
  | .flushWrite i dbOk =>
    match s.flushing[i]? with
    | none => none
    | some delta =>
      some { s with
        column := if dbOk then { s.column with stored := s.column.stored + delta } else s.column
        flushing := s.flushing.eraseIdx i }
  | .evict => some { s with cache := none }
  | .raiseFence => some { s with fence := true, cache := none }
  | .dropFence => some { s with fence := false }

end CachedQuota

end JulongApi

/-
Quota columns, and the calls that move them.

A wallet (`users.quota`) and a token (`tokens.remain_quota`) are both a stored
column plus whatever `addNewRecord` has queued for it in the batch store; the
amount a user or a token really has left is the sum of the two.  This file embeds
`common/quota_math.go` (the bounds), `model/quota_reserve.go` and the quota calls of
`model/user.go` and `model/token.go`.

What Redis and the database answer is not ours to decide, so every call takes it
as an argument, a `QuotaReply`: the theorems quantify over all of them.  The Redis
hash itself holds no money of its own (a reservation it grants is persisted at once,
or undone), so only its answers appear here; the file `QuotaCache` opens it up.  The
user's and the token's rows exist for as long as a request runs.
-/
import Mathlib

namespace JulongApi

/-! ### Bounds of `common/quota_math.go` -/

/-- `MaxQuota`: the largest charge of a single request. -/
def maxQuota : Int := 2 ^ 31 - 1

def minQuota : Int := -2 ^ 31

/-- `MaxWalletQuota`: the largest amount a wallet mutation may carry. -/
def maxWalletQuota : Int := 2 ^ 53 - 1

/-! ### Columns, settings, replies -/

/-- A quota column and the delta the batch updater still owes it. -/
structure QuotaColumn where
  stored : Int
  pending : Int
deriving DecidableEq, Repr

/-- What is really left in the column. -/
def QuotaColumn.balance (c : QuotaColumn) : Int := c.stored + c.pending

/-- `common.RedisEnabled` and `common.BatchUpdateEnabled`. -/
structure QuotaConfig where
  redisEnabled : Bool
  batchUpdateEnabled : Bool
deriving DecidableEq, Repr

inductive CacheQuotaResult where
  | insufficient
  | ok
  | miss
deriving DecidableEq, Repr

/--
How the stores answer one quota call: what the Lua script returned (`none` is a
Redis error), whether a miss could be hydrated, what the script returned after
that, and whether the database statement went through.
-/
structure QuotaReply where
  script : Option CacheQuotaResult
  hydrated : Bool
  scriptAgain : Option CacheQuotaResult
  dbOk : Bool
deriving DecidableEq, Repr

inductive QuotaError where
  /-- `quota cannot be negative` -/
  | quotaNegative
  /-- `wallet quota exceeds %d` -/
  | walletQuotaExceeds
  /-- `ErrWalletQuotaLimitExceeded` -/
  | walletQuotaLimitExceeded
  /-- whatever the driver reported -/
  | database
deriving DecidableEq, Repr

/-! ### Reserving: the balance is checked and debited in one operation -/

/-- The script's answer, asked a second time when a miss was hydrated. -/
def cacheTryReserve (r : QuotaReply) : Option CacheQuotaResult :=
  if r.script = some .miss ∧ r.hydrated then r.scriptAgain else r.script

/-- The conditional update `... WHERE quota >= ?`; it does not see the batch store. -/
def reserveQuotaDB (r : QuotaReply) (c : QuotaColumn) (quota : Int) :
    Except QuotaError Bool × QuotaColumn :=
  if !r.dbOk then (.error .database, c)
  else if quota ≤ c.stored then (.ok true, { c with stored := c.stored - quota })
  else (.ok false, c)

/-- Persisting a delta the cache has granted: queued in batch mode, written otherwise. -/
def persistQuotaDelta (cfg : QuotaConfig) (r : QuotaReply) (c : QuotaColumn) (delta : Int) :
    Except QuotaError Unit × QuotaColumn :=
  if cfg.batchUpdateEnabled then (.ok (), { c with pending := c.pending + delta })
  else if !r.dbOk then (.error .database, c)
  else (.ok (), { c with stored := c.stored + delta })

/-- The shape `TryReserveUserQuota` and `TryReserveTokenQuota` share. -/
def tryReserveQuota (cfg : QuotaConfig) (r : QuotaReply) (c : QuotaColumn) (quota : Int) :
    Except QuotaError Bool × QuotaColumn :=
  if quota < 0 then (.error .quotaNegative, c)
  else if quota = 0 then (.ok true, c)
  else if !cfg.redisEnabled then reserveQuotaDB r c quota
  else
    match cacheTryReserve r with
    | none => reserveQuotaDB r c quota
    | some .miss => reserveQuotaDB r c quota
    | some .insufficient => (.ok false, c)
    | some .ok =>
      -- A failed write is compensated in the cache, which leaves the column alone.
      match persistQuotaDelta cfg r c (-quota) with
      | (.ok (), c') => (.ok true, c')
      | (.error e, c') => (.error e, c')

def tryReserveUserQuota := tryReserveQuota

/-! ### Unconditional moves -/

/-- The shape of `DecreaseUserQuota` and `DecreaseTokenQuota`: no balance check. -/
def decreaseQuota (cfg : QuotaConfig) (r : QuotaReply) (c : QuotaColumn) (quota : Int) :
    Except QuotaError Unit × QuotaColumn :=
  if quota < 0 then (.error .quotaNegative, c)
  else persistQuotaDelta cfg r c (-quota)

/-- `DecreaseUserQuota(id, quota, false)`: the balance may go below zero. -/
def decreaseUserQuota := decreaseQuota

def decreaseTokenQuota := decreaseQuota

def increaseTokenQuota (cfg : QuotaConfig) (r : QuotaReply) (c : QuotaColumn) (quota : Int) :
    Except QuotaError Unit × QuotaColumn :=
  if quota < 0 then (.error .quotaNegative, c)
  else persistQuotaDelta cfg r c quota

/--
`IncreaseUserQuota(id, quota, false)`.  Unlike its token sibling it refuses an
amount beyond `MaxWalletQuota`, and outside batch mode the update is guarded by
`quota <= MaxWalletQuota - amount`.
-/
def increaseUserQuota (cfg : QuotaConfig) (r : QuotaReply) (c : QuotaColumn) (quota : Int) :
    Except QuotaError Unit × QuotaColumn :=
  if quota < 0 then (.error .quotaNegative, c)
  else if maxWalletQuota < quota then (.error .walletQuotaExceeds, c)
  else if cfg.batchUpdateEnabled then (.ok (), { c with pending := c.pending + quota })
  else if !r.dbOk then (.error .database, c)
  else if c.stored ≤ maxWalletQuota - quota then
    (.ok (), { c with stored := c.stored + quota })
  else (.error .walletQuotaLimitExceeded, c)

/-- `TryReserveTokenQuota`: an unlimited token skips the balance check, not the debit. -/
def tryReserveTokenQuota (cfg : QuotaConfig) (r : QuotaReply) (c : QuotaColumn) (quota : Int)
    (unlimited : Bool) : Except QuotaError Bool × QuotaColumn :=
  if quota < 0 then (.error .quotaNegative, c)
  else if quota = 0 then (.ok true, c)
  else if unlimited then
    match decreaseTokenQuota cfg r c quota with
    | (.ok (), c') => (.ok true, c')
    | (.error e, c') => (.error e, c')
  else tryReserveQuota cfg r c quota

end JulongApi

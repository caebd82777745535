/-
The rate limiter of one process: `common/rate-limit.go`.

Time is in nanoseconds, and a request is recorded at a whole second.  Every method holds the lock
from before it reads the clock, so a call is one step; the sweeper gets its time from a ticker, and
may come late with it.  The map of the entries and the list of the recently active keys hold the
same entries, and are one list here, the most recently active key first.
-/
import JulongApi.Lib.Machine

namespace JulongApi.RateLimit

def unix (time : Int) : Int := time / 1000000000

/-- `rateLimitQueue.removeExpired`, of requests from the oldest to the newest. -/
def removeExpired (now duration : Int) (requests : List Int) : List Int :=
  match requests.head?, requests.getLast? with
  | some head, some tail =>
    if now - head < duration then requests
    else if now - tail ≥ duration then []
    else requests.dropWhile fun timestamp => now - timestamp ≥ duration
  | _, _ => requests

/-- `rateLimitEntry`. -/
structure Entry where
  key : String
  lastActive : Int
  requests : List Int
deriving DecidableEq, Repr

/-- What a recorded request was: one that `Request` accepted, or one that completed. -/
inductive Kind where
  | accepted
  | completed
deriving DecidableEq, Repr

structure Recorded where
  kind : Kind
  key : String
  /-- in seconds -/
  timestamp : Int
deriving DecidableEq, Repr

/-- `RateLimitReservation`. -/
structure Reservation where
  key : String
  /-- whether `once` has run -/
  done : Bool
deriving DecidableEq, Repr

/-- `InMemoryRateLimiter`, with what its callers hold and what has been recorded so far. -/
structure Limiter where
  /-- what the first `Init` set -/
  expirationDuration : Int
  lru : List Entry
  reservations : String → Int
  clock : Int
  /-- the reservations that were handed out, in their order -/
  handles : List Reservation
  log : List Recorded

def Limiter.init (expirationDuration clock : Int) : Limiter where
  expirationDuration := expirationDuration
  lru := []
  reservations := fun _ => 0
  clock := clock
  handles := []
  log := []

/-- The requests that are in the entry of a key. -/
def Limiter.queue (limiter : Limiter) (key : String) : List Int :=
  match limiter.lru.find? fun entry => entry.key = key with
  | some entry => entry.requests
  | none => []

/-- `touchEntry`, with what the caller makes of the requests. -/
def Limiter.touchEntry (limiter : Limiter) (key : String) (now : Int)
    (update : List Int → List Int) : Limiter :=
  { limiter with
    lru := ⟨key, now, update (limiter.queue key)⟩ ::
      limiter.lru.filter fun entry => entry.key ≠ key }

/-- `deleteExpiredEntries`: from the end of the list, up to the first active key. -/
def Limiter.deleteExpiredEntries (limiter : Limiter) (now : Int) : Limiter :=
  if limiter.expirationDuration ≤ 0 then limiter
  else
    { limiter with
      lru := (limiter.lru.reverse.dropWhile fun entry =>
        now - entry.lastActive ≥ limiter.expirationDuration).reverse }

def Limiter.request (limiter : Limiter) (key : String) (maxRequestNum duration now : Int) :
    Limiter :=
  let requests := removeExpired (unix now) duration (limiter.queue key)
  if requests.length < maxRequestNum then
    { limiter.touchEntry key now fun requests =>
        removeExpired (unix now) duration requests ++ [unix now] with
      log := limiter.log ++ [⟨.accepted, key, unix now⟩] }
  else limiter.touchEntry key now (removeExpired (unix now) duration)

def Limiter.reserve (limiter : Limiter) (key : String) (maxRequests duration now : Int) :
    Limiter :=
  let limiter := limiter.touchEntry key now (removeExpired (unix now) duration)
  if (limiter.queue key).length + limiter.reservations key ≥ maxRequests then limiter
  else
    { limiter with
      reservations := Function.update limiter.reservations key (limiter.reservations key + 1)
      handles := limiter.handles ++ [⟨key, false⟩] }

def Limiter.complete (limiter : Limiter) (handle : Nat) (success : Bool) (now : Int) : Limiter :=
  match limiter.handles[handle]? with
  | some ⟨key, false⟩ =>
    let limiter := { limiter with
      reservations := Function.update limiter.reservations key (limiter.reservations key - 1)
      handles := limiter.handles.set handle ⟨key, true⟩ }
    if success then
      { limiter.touchEntry key now fun requests => requests ++ [unix now] with
        log := limiter.log ++ [⟨.completed, key, unix now⟩] }
    else limiter
  | _ => limiter

inductive Act where
  | request (key : String) (maxRequestNum duration now : Int)
  | reserve (key : String) (maxRequests duration now : Int)
  | complete (handle : Nat) (success : Bool) (now : Int)
  /-- a tick that the sweeper gets at `now` -/
  | sweep (tick now : Int)
deriving DecidableEq, Repr

def Act.now : Act → Int
  | .request _ _ _ now => now
  | .reserve _ _ _ now => now
  | .complete _ _ now => now
  | .sweep _ now => now

def step (limiter : Limiter) (act : Act) : Option Limiter :=
  if act.now < limiter.clock then none
  else
    let limiter := { limiter with clock := act.now }
    match act with
    | .request key maxRequestNum duration now =>
      some (limiter.request key maxRequestNum duration now)
    | .reserve key maxRequests duration now =>
      some (limiter.reserve key maxRequests duration now)
    | .complete handle success now => some (limiter.complete handle success now)
    | .sweep tick now =>
      if tick ≤ now then some (limiter.deleteExpiredEntries tick) else none

/-! ### What the limiter is for -/

/-- The times at which requests of one kind were recorded under a key. -/
def Limiter.recorded (limiter : Limiter) (kind : Kind) (key : String) : List Int :=
  (limiter.log.filter fun record => record.kind = kind && record.key = key).map (·.timestamp)

/-- How many of them lie in the `duration` seconds from `start` on. -/
def within (start duration : Int) (times : List Int) : Nat :=
  times.countP fun time => decide (start ≤ time) && decide (time < start + duration)

/-- The reservations of a key that are not completed. -/
def Limiter.outstanding (limiter : Limiter) (key : String) : Nat :=
  limiter.handles.countP fun handle => decide (handle.key = key) && !handle.done

/-- No window of a key holds more than the maximum; the requests that are still running count
towards every window that has not ended. -/
def Limiter.Bounded (limiter : Limiter) (key : String) (most duration : Int) : Prop :=
  ∀ start,
    within start duration (limiter.recorded .accepted key) ≤ max most 0 ∧
    within start duration (limiter.recorded .completed key) +
      (if start ≤ unix limiter.clock ∧ unix limiter.clock < start + duration then
        (limiter.outstanding key : Int) else 0) ≤ max most 0

/-- A key is used with one maximum and one window. -/
def Act.Uses (key : String) (most duration : Int) : Act → Prop
  | .request own max window _ => own = key → max = most ∧ window = duration
  | .reserve own max window _ => own = key → max = most ∧ window = duration
  | .complete _ _ _ => True
  | .sweep _ _ => True

/-- A sweep drops the entry of a key only after its window. -/
def Spares (key : String) (duration : Int) (limiter : Limiter) : Act → Prop
  | .sweep tick now =>
    tick ≤ now → ∀ entry ∈ limiter.lru, entry.key = key → 0 < limiter.expirationDuration →
      limiter.expirationDuration ≤ tick - entry.lastActive →
      ∀ timestamp ∈ entry.requests, duration ≤ unix now - timestamp
  | _ => True

end JulongApi.RateLimit

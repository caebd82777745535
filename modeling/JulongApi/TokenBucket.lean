/-
The limit on all requests of a user: the token bucket of `redisRateLimitHandler` in
`middleware/model-rate-limit.go`, and its script `common/limiter/lua/rate_limit.lua`.

A script is one atomic step, which reads the clock of the server; the clock is in microseconds, and
the script takes its seconds.  Numbers are exact.  What was executed is kept beside the bucket, the
newest first.
-/
import JulongApi.Lib.Machine

namespace JulongApi.TokenBucket

/-! ### The parameters of the script -/

def maxInt64 : Int := 2 ^ 63 - 1

def rateLimitDurationSeconds (durationMinutes : Int) : Int :=
  if durationMinutes ≤ 0 then 0
  else if durationMinutes > maxInt64 / 60 then maxInt64
  else durationMinutes * 60

def rateLimitCapacity (count durationSeconds : Int) : Int :=
  if count ≤ 0 ∨ durationSeconds ≤ 0 then 0
  else if count > maxInt64 / durationSeconds then maxInt64
  else count * durationSeconds

/-- The options of `Allow`, with their defaults. -/
structure Config where
  capacity : Int := 10
  rate : Int := 1
  requested : Int := 1
deriving DecidableEq, Repr

/-- How `redisRateLimitHandler` asks for a token, where it limits the requests at all. -/
def totalLimit (durationMinutes totalMaxCount : Int) : Option Config :=
  let duration := rateLimitDurationSeconds durationMinutes
  if totalMaxCount > 0 then
    some {
      capacity := rateLimitCapacity totalMaxCount duration
      rate := totalMaxCount
      requested := duration }
  else none

/-! ### The script -/

/-- The fields of the key. -/
structure Bucket where
  tokens : Int
  lastTime : Int
deriving DecidableEq, Repr

/-- The seconds of `redis.call('TIME')`. -/
def seconds (time : Int) : Int := time / 1000000

/-- The tokens that are there before the request is looked at. -/
def Config.refilled (config : Config) (bucket : Option Bucket) (nowInSeconds : Int) : Int :=
  match bucket with
  | none => config.capacity
  | some bucket =>
    let elapsed := nowInSeconds - bucket.lastTime
    let addTokens := elapsed * config.rate
    min config.capacity (bucket.tokens + addTokens)

structure Execution where
  time : Int
  /-- the tokens before the request -/
  tokens : Int
  allowed : Bool
  /-- what is stored -/
  bucket : Bucket
deriving DecidableEq, Repr

def Config.execute (config : Config) (bucket : Option Bucket) (time : Int) : Execution :=
  let nowInSeconds := seconds time
  let tokens := config.refilled bucket nowInSeconds
  let allowed := decide (tokens ≥ config.requested)
  { time := time
    tokens := tokens
    allowed := allowed
    bucket := {
      tokens := if allowed then tokens - config.requested else tokens
      lastTime := nowInSeconds } }

/-! ### Runs -/

structure State where
  clock : Int
  bucket : Option Bucket
  /-- the newest first -/
  log : List Execution
deriving DecidableEq, Repr

def State.start (clock : Int) : State where
  clock := clock
  bucket := none
  log := []

/-- The script at a time of the server, which does not go back. -/
def step (config : Config) (s : State) (time : Int) : Option State :=
  if time < s.clock then none
  else
    let execution := config.execute s.bucket time
    some { clock := time, bucket := some execution.bucket, log := execution :: s.log }

/-! ### What is claimed of a run -/

def Config.cost (config : Config) (execution : Execution) : Int :=
  if execution.allowed then config.requested else 0

def Config.admitted (config : Config) (log : List Execution) : Int := (log.map config.cost).sum

/-- The executions in an interval of so many seconds. -/
def inInterval (start length : Int) (log : List Execution) : List Execution :=
  log.filter fun execution =>
    start ≤ execution.time && execution.time ≤ start + length * 1000000

/-- A request is rejected for want of tokens: behind the last time that the bucket was full, what
was in it and what came to it, without what was admitted, is less than the request. -/
def Config.Justified (config : Config) (rejected : Execution) (older : List Execution) : Prop :=
  ∃ since full rest, older = since ++ full :: rest ∧
    full.tokens = config.capacity ∧ (∀ execution ∈ since, execution.tokens ≠ config.capacity) ∧
    config.capacity + config.rate * (seconds rejected.time - seconds full.time)
      - config.admitted (since ++ [full]) < config.requested

/-- What is promised of the executions of a bucket. -/
structure Config.Limited (config : Config) (log : List Execution) : Prop where
  stored : ∀ execution ∈ log,
    0 ≤ execution.bucket.tokens ∧ execution.bucket.tokens ≤ config.capacity
  bounded : ∀ start length : Int, 0 ≤ length →
    config.admitted (inInterval start length log) ≤ config.capacity + config.rate * length
  justified : ∀ newer rejected older, log = newer ++ rejected :: older →
    rejected.allowed = false → config.Justified rejected older

end JulongApi.TokenBucket

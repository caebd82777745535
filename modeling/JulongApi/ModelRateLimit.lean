/-
The limit on the successful requests of a user: `redisRateLimitHandler` of
`middleware/model-rate-limit.go`, for any number of nodes.

A request looks at the list of the user's successes, runs, and is then put on the list.  Each
command to Redis is an action of its own, and so is every look at the clock; time is in
milliseconds, as the stamps on the list are.  Whether a request passes the total limit and how it
ends is part of the action.  What has been recorded is kept beside the list, the newest first.
-/
import JulongApi.TokenBucket
import JulongApi.Lib.Int64

namespace JulongApi.ModelRateLimit

structure Limits where
  durationMinutes : Int
  successMaxCount : Int
deriving DecidableEq, Repr

def Limits.duration (limits : Limits) : Int :=
  TokenBucket.rateLimitDurationSeconds limits.durationMinutes

/-- The time to live of the list.  A `time.Duration` counts nanoseconds, and `EXPIRE` is given whole
seconds, but one for less than that. -/
def Limits.expiration (limits : Limits) : Int :=
  let nanoseconds := wrapInt64 (limits.durationMinutes * 60000000000)
  if 0 < nanoseconds ∧ nanoseconds < 1000000000 then 1000
  else nanoseconds.tdiv 1000000000 * 1000

/-- A request, before its next statement. -/
inductive Request where
  /-- the list was not shorter than the limit -/
  | indexing
  /-- it has read the oldest entry of the list -/
  | timing (oldTime : Int)
  /-- it was found to be one too many -/
  | refusing
  | running
  /-- it was successful -/
  | recording
  | pushing (now : Int)
  | trimming
  | expiring
  | done
deriving DecidableEq, Repr

structure State where
  clock : Int
  /-- the newest first -/
  list : List Int
  expireAt : Option Int
  requests : List Request
  log : List Int
deriving DecidableEq, Repr

inductive Act where
  | tick (now : Int)
  /-- a request asks for the length of the list -/
  | arrive
  | work (request : Nat)
  | finish (request : Nat) (success : Bool)
deriving DecidableEq, Repr

def State.put (s : State) (i : Nat) (request : Request) : State :=
  { s with requests := s.requests.set i request }

def State.expire (limits : Limits) (s : State) : State :=
  if s.list = [] then s
  else if limits.expiration ≤ 0 then { s with list := [], expireAt := none }
  else { s with expireAt := some (s.clock + limits.expiration) }

/-- The list is gone once its time is over. -/
def State.tick (s : State) (now : Int) : State :=
  if s.expireAt.any (· < now) then { s with clock := now, list := [], expireAt := none }
  else { s with clock := now }

/-- `checkRedisRateLimit`, up to the length. -/
def State.arrive (limits : Limits) (s : State) : State :=
  { s with requests := s.requests ++
      [if limits.successMaxCount = 0 then .running
        else if s.list.length < limits.successMaxCount then .running
        else .indexing] }

/-- Whether the oldest entry is in the window. -/
def Limits.reached (limits : Limits) (oldTime nowTime : Int) : Prop :=
  (nowTime - oldTime).tdiv 1000 < limits.duration

instance (limits : Limits) (oldTime nowTime : Int) : Decidable (limits.reached oldTime nowTime) :=
  inferInstanceAs (Decidable (_ < _))

def State.work (limits : Limits) (s : State) (i : Nat) : Option State :=
  match s.requests[i]? with
  | some .indexing =>
    match s.list.getLast? with
    | some oldTime => some (s.put i (.timing oldTime))
    -- no time is parsed from an empty answer
    | none => some (s.put i .done)
  | some (.timing oldTime) =>
    some (s.put i (if limits.reached oldTime s.clock then .refusing else .running))
  | some .refusing => some ((s.expire limits).put i .done)
  | some .recording => some (s.put i (.pushing s.clock))
  | some (.pushing now) =>
    some { s.put i .trimming with list := now :: s.list, log := now :: s.log }
  | some .trimming =>
    some { s.put i .expiring with list := s.list.take limits.successMaxCount.toNat }
  | some .expiring => some ((s.expire limits).put i .done)
  | some .running | some .done | none => none

/-- A request is over, or was refused for the total limit. -/
def State.finish (limits : Limits) (s : State) (i : Nat) (success : Bool) : Option State :=
  match s.requests[i]? with
  | some .running =>
    some (s.put i (if success = true ∧ limits.successMaxCount ≠ 0 then .recording else .done))
  | _ => none

def step (limits : Limits) (s : State) : Act → Option State
  | .tick now => if now < s.clock then none else some (s.tick now)
  | .arrive => some (s.arrive limits)
  | .work i => s.work limits i
  | .finish i success => s.finish limits i success

def State.start (clock : Int) : State where
  clock := clock
  list := []
  expireAt := none
  requests := []
  log := []

/-! ### What is claimed of the limit -/

def Limits.window (limits : Limits) : Int := limits.duration * 1000

/-- The duration fits a `time.Duration`, which up to 292 years do. -/
def Limits.Fits (limits : Limits) : Prop := FitsInt64 (limits.durationMinutes * 60000000000)

/-- The successes in the window up to a time. -/
def within (window time : Int) (log : List Int) : Nat :=
  log.countP fun stamp => time - window < stamp ∧ stamp ≤ time

/-- No window has more successes than the limit, if there is one. -/
def State.Bounded (limits : Limits) (s : State) : Prop :=
  ∀ time, within limits.window time s.log ≤ limits.successMaxCount.toNat

/-- A request that may still be put on the list. -/
def Request.pending : Request → Bool
  | .running | .recording | .pushing _ => true
  | .indexing | .timing _ | .refusing | .trimming | .expiring | .done => false

/-- A request that is on the list and has not yet set its time to live. -/
def Request.pushed : Request → Bool
  | .trimming | .expiring => true
  | .indexing | .timing _ | .refusing | .running | .recording | .pushing _ | .done => false

/-- There is room for one more success beside the recent ones and those that may come. -/
def State.Room (limits : Limits) (s : State) : Prop :=
  (s.log.countP fun stamp => s.clock - limits.window < stamp) +
    s.requests.countP Request.pending < limits.successMaxCount

instance (limits : Limits) (s : State) : Decidable (s.Room limits) :=
  inferInstanceAs (Decidable (_ < _))

/-- A request passes while no other one is under way, and what it has read is still so, or while
there is room for it; and a success is not pushed after a later one. -/
def Request.Spares (limits : Limits) (s : State) (i : Nat) : Request → Prop
  | .timing oldTime =>
    ¬limits.reached oldTime s.clock →
      ((∀ request ∈ s.requests.set i .done, request = .done) ∧
        s.list.getLast? = some oldTime) ∨ s.Room limits
  | .pushing now => ∀ stamp ∈ s.log, stamp ≤ now
  | .indexing | .refusing | .running | .recording | .trimming | .expiring | .done => True

instance (limits : Limits) (s : State) (i : Nat) :
    ∀ request : Request, Decidable (request.Spares limits s i)
  | .timing _ => inferInstanceAs (Decidable (_ → _ ∨ _))
  | .pushing _ => inferInstanceAs (Decidable (∀ stamp ∈ s.log, _))
  | .indexing | .refusing | .running | .recording | .trimming | .expiring | .done =>
    inferInstanceAs (Decidable True)

/-- The same of a request that passes at once; and the list does not expire while a success on it
still has to set its time to live. -/
def Spares (limits : Limits) (s : State) : Act → Prop
  | .tick now =>
    (∃ request ∈ s.requests, request.pushed = true) → ∀ time ∈ s.expireAt, now ≤ time
  | .arrive =>
    s.list.length < limits.successMaxCount →
      (∀ request ∈ s.requests, request = .done) ∨ s.Room limits
  | .work i => ∀ request ∈ s.requests[i]?, request.Spares limits s i
  | .finish _ _ => True

instance (limits : Limits) (s : State) : ∀ a : Act, Decidable (Spares limits s a)
  | .tick _ => inferInstanceAs (Decidable (_ → ∀ time ∈ s.expireAt, _))
  | .arrive => inferInstanceAs (Decidable (_ → _ ∨ _))
  | .work i => inferInstanceAs (Decidable (∀ request ∈ s.requests[i]?, _))
  | .finish _ _ => inferInstanceAs (Decidable True)

end JulongApi.ModelRateLimit

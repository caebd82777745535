/-
Refreshing a session: `RotateUserSessionRefresh` of `model/user_session.go`.

A call presents the hash it holds and the one to put in its place.  It reads the row, and the
statement that rotates is conditional on the hash being still the current one; where it is not, the
call starts over, three times in all.  The hash before the current one is let pass for a while, and
after that its being presented means that it was stolen, and the session is revoked.

Each statement commits by itself, so a call is cut after every statement.  The cache is not opened
up here: what a write to it answers is part of the action.  `history` is what the statements have
done to the rows.
-/
import JulongApi.Lib.Machine
import JulongApi.UserSession

namespace JulongApi

/-- What `RotateUserSessionRefresh` was called with; `now` and `graceSeconds` are its own. -/
structure RotateArgs where
  userID : Int
  sid : String
  presentedHash : String
  nextHash : String
  now : Int
  graceSeconds : Int
deriving DecidableEq, Repr

namespace RotateArgs

/-- The update that rotates the hashes of a row, for the session as it was read. -/
def rotate (args : RotateArgs) (session row : UserSession) : UserSession :=
  { row with
    previousRefreshHash := session.refreshHash
    previousValidUntil := args.now + args.graceSeconds
    refreshHash := args.nextHash
    lastActiveAt := args.now }

/-- The row under the session id, if it is the user's. -/
def isOf (args : RotateArgs) (row : UserSession) : Bool := decide (row.userID = args.userID)

/-- Which row the conditional update rotates. -/
def canRotate (args : RotateArgs) (row : UserSession) : Bool :=
  args.isOf row && row.isActive args.now && decide (row.refreshHash = args.presentedHash)

/-- The presented hash is the one before the current one, and its grace period is over. -/
def Replays (args : RotateArgs) (session : UserSession) : Prop :=
  session.refreshHash ≠ args.presentedHash ∧ session.previousRefreshHash = args.presentedHash ∧
    session.previousValidUntil < args.now

end RotateArgs

inductive RotateOutcome where
  | rotated (session : UserSession)
  | invalid
  | inactive
  | refreshInvalid
  | refreshRace (session : UserSession)
  | refreshReuse
  | notFound
  /-- an error of the database, or of the cache before the row was touched -/
  | failed
deriving DecidableEq, Repr

inductive RotateStage where
  /-- before it reads the row; it may start over `retries` times more -/
  | reading (retries : Nat)
  /-- the presented hash was the current one, before the conditional update -/
  | updating (retries : Nat) (session : UserSession)
  /-- rotated, before the session is written to the cache -/
  | caching (session : UserSession)
  /-- that came too late, before `confirmUserSessionActiveSnapshot` -/
  | confirming (session : UserSession)
  /-- the presented hash was replayed, before the deny fence is written -/
  | fencing (session : UserSession)
  /-- before the session is revoked -/
  | revoking (session : UserSession)
  /-- revoked, before the final tombstone is written -/
  | finishing
  | done (outcome : RotateOutcome)
deriving DecidableEq, Repr

structure RotateCall where
  args : RotateArgs
  stage : RotateStage
  /-- the session as the call has last read it -/
  seen : Option UserSession
deriving DecidableEq, Repr

/-- The call has read an active session, and found its hash to be replayed. -/
def RotateCall.Late (call : RotateCall) : Prop :=
  ∃ session, call.seen = some session ∧ session.isActive call.args.now = true ∧
    call.args.Replays session

inductive SessionEvent where
  | rotated (args : RotateArgs) (session : UserSession)
  /-- `seen` is the session as the call had read it -/
  | reused (args : RotateArgs) (seen : UserSession)
  | revoked (sid : String) (now : Int) (reason : String)
deriving DecidableEq, Repr

namespace SessionEvent

def sid : SessionEvent → String
  | rotated args _ | reused args _ => args.sid
  | revoked sid _ _ => sid

def Revokes (sid : String) : SessionEvent → Prop
  | rotated _ _ => False
  | reused args _ => args.sid = sid
  | revoked sid' _ _ => sid' = sid

/-- What it makes of the row it is about. -/
def write : SessionEvent → UserSession → UserSession
  | rotated args session, row => args.rotate session row
  | reused args _, row => row.revoke args.now "refresh_reuse"
  | revoked _ now reason, row => row.revoke now reason

/-- What it makes of any row. -/
def apply (e : SessionEvent) (row : UserSession) : UserSession :=
  if e.sid = row.sid then e.write row else row

/-- What a history makes of a row. -/
def replay (history : List SessionEvent) (row : UserSession) : UserSession :=
  history.foldr apply row

/-- The hashes of a session that were rotated, the last one first. -/
def rotatedHashes (sid : String) : List SessionEvent → List String
  | [] => []
  | rotated args _ :: earlier =>
    if args.sid = sid then args.presentedHash :: rotatedHashes sid earlier
    else rotatedHashes sid earlier
  | _ :: earlier => rotatedHashes sid earlier

end SessionEvent

/-- What `writeUserSessionCache` answers. -/
inductive SessionCacheReply where
  | ok
  | invalid
  | stale
  | inactive
  | failed
deriving DecidableEq, Repr

/-- A call has returned the rotated session; `before` is what had happened to the rows by then. -/
structure RotateSuccess where
  args : RotateArgs
  cache : SessionCacheReply
  before : List SessionEvent

structure RotationSystem where
  sessions : UserSessionTable
  calls : List RotateCall
  /-- what happened to the rows, the last event first -/
  history : List SessionEvent
  successes : List RotateSuccess

inductive RotationAct where
  /-- `clock` is the time the call reads where it is given none, `grace` is in nanoseconds -/
  | rotate (userID : Int) (sid presentedHash nextHash : String) (now grace clock : Int)
  /-- the next statement of call `i`: the database's answer, the cache's, and the time -/
  | advance (i : Nat) (dbOk : Bool) (cache : SessionCacheReply) (clock : Int)
  /-- another call revokes the session -/
  | revoke (sid : String) (now : Int) (reason : String)
deriving DecidableEq, Repr

namespace RotationSystem

def idle (sessions : UserSessionTable) : RotationSystem := ⟨sessions, [], [], []⟩

/-- `RotateUserSessionRefresh` up to its loop. -/
def newCall (userID : Int) (sid presentedHash nextHash : String) (now grace clock : Int) :
    RotateCall :=
  let args : RotateArgs :=
    { userID := userID
      sid := sid
      presentedHash := presentedHash
      nextHash := nextHash
      now := if now ≤ 0 then clock else now
      graceSeconds := grace.tdiv (10 ^ 9) }
  if userID ≤ 0 ∨ sid = "" ∨ presentedHash = "" ∨ nextHash = "" ∨ presentedHash = nextHash then
    ⟨args, .done .invalid, none⟩
  else if args.graceSeconds < 0 then ⟨args, .done .invalid, none⟩
  else ⟨args, .reading 2, none⟩

def goOn (s : RotationSystem) (i : Nat) (call : RotateCall) (stage : RotateStage) :
    RotationSystem :=
  { s with calls := s.calls.set i { call with stage := stage } }

/-- Call `i` returns `session`, when the cache has given this answer. -/
def succeed (s : RotationSystem) (i : Nat) (call : RotateCall) (session : UserSession)
    (cache : SessionCacheReply) : RotationSystem :=
  { s.goOn i call (.done (.rotated session)) with
    successes := ⟨call.args, cache, s.history⟩ :: s.successes }

/-- A statement that `event` tells of is applied to the rows it matches. -/
def write (s : RotationSystem) (event : SessionEvent) (guard : UserSession → Bool) :
    Bool × RotationSystem :=
  let (matched, sessions) := s.sessions.update event.sid guard event.write
  if matched then (true, { s with sessions := sessions, history := event :: s.history })
  else (false, s)

/-- Where a call goes on that has read its session. -/
def classify (args : RotateArgs) (retries : Nat) (session : UserSession) : RotateStage :=
  if !session.isActive args.now then .done .inactive
  else if session.refreshHash = args.presentedHash then .updating retries session
  else if session.previousRefreshHash = "" ∨ session.previousRefreshHash ≠ args.presentedHash then
    .done .refreshInvalid
  else if args.now ≤ session.previousValidUntil then .done (.refreshRace session)
  else .fencing session

/-- The call starts over, if it still may. -/
def retry : Nat → RotateStage
  | 0 => .done .refreshInvalid
  | retries + 1 => .reading retries

/-- The count of `confirmUserSessionActiveSnapshot`. -/
def confirms (s : RotationSystem) (session : UserSession) (clock : Int) : Bool :=
  s.sessions.rows.any fun row =>
    decide (row.sid = session.sid ∧ row.userID = session.userID ∧ row.version = session.version ∧
      row.userAuthVersion = session.userAuthVersion) && row.isActive clock

def advance (s : RotationSystem) (i : Nat) (dbOk : Bool) (cache : SessionCacheReply) (clock : Int)
    (call : RotateCall) : Option RotationSystem :=
  match call.stage with
  | .reading retries =>
    match if dbOk then some (s.sessions.find call.args.sid) else none with
    | none => some (s.goOn i call (.done .failed))
    | some none => some (s.goOn i call (.done .notFound))
    | some (some row) =>
      if !call.args.isOf row then some (s.goOn i call (.done .notFound))
      else
        some (s.goOn i { call with seen := some row.afterFind }
          (classify call.args retries row.afterFind))
  | .updating retries session =>
    if !dbOk then some (s.goOn i call (.done .failed))
    else
      let (matched, s) := s.write (.rotated call.args session) call.args.canRotate
      if matched then some (s.goOn i call (.caching (call.args.rotate session session)))
      else some (s.goOn i call (retry retries))
  | .caching session =>
    match cache with
    | .stale => some (s.goOn i call (.confirming session))
    | .inactive => some (s.goOn i call (.done .inactive))
    | _ => some (s.succeed i call session cache)
  | .confirming session =>
    if !dbOk then some (s.goOn i call (.done .failed))
    else if s.confirms session clock then some (s.succeed i call session .stale)
    else some (s.goOn i call (.done .inactive))
  | .fencing session =>
    if cache = .ok then some (s.goOn i call (.revoking session))
    else some (s.goOn i call (.done .failed))
  | .revoking session =>
    if !dbOk then some (s.goOn i call (.done .failed))
    else
      let (matched, s) := s.write (.reused call.args session) fun row =>
        call.args.isOf row && row.isActive call.args.now
      if matched then some (s.goOn i call .finishing)
      else some (s.goOn i call (.done .inactive))
  | .finishing => some (s.goOn i call (.done .refreshReuse))
  | .done _ => none

def step (s : RotationSystem) : RotationAct → Option RotationSystem
  | .rotate userID sid presentedHash nextHash now grace clock =>
    some { s with
      calls := s.calls ++ [newCall userID sid presentedHash nextHash now grace clock] }
  | .advance i dbOk cache clock =>
    match s.calls[i]? with
    | some call => s.advance i dbOk cache clock call
    | none => none
  | .revoke sid now reason =>
    some (s.write (.revoked sid now reason) fun row => decide (row.status = .active)).2

end RotationSystem

end JulongApi

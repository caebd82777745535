/-
Cached sessions: `GetUserSessionCached` and the revocations of `model/user_session.go`.

A session is read from the cache, and a miss is filled from the database.  A fill may be late: the
row it has read may have been revoked since.  So a revocation first writes a deny fence, then
revokes the row, then writes a tombstone, over neither of which an active snapshot is written; and
an active snapshot is written to expire at a deadline that was taken before the row was read.

Time is in nanoseconds, and the cache counts milliseconds.  Each statement and each script runs at
a time of its own, and so does each reading of the clock; a call is cut before every one of them.
-/
import JulongApi.Lib.Expiry
import JulongApi.Lib.Machine
import JulongApi.UserSessionRotation

namespace JulongApi

def userSessionCacheSchema : Int := 2

def userSessionRevokeBatchSize : Nat := 500

structure UserSessionCacheEntry where
  sid : String
  userID : Int
  version : Int
  userAuthVersion : Int
  status : UserSessionStatus
  loginMethod : String
  ip : String
  userAgent : String
  deviceID : String
  createdAt : Int
  lastActiveAt : Int
  expiresAt : Int
  revokedAt : Int
  revokedReason : String
  cacheSchema : Int
deriving DecidableEq, Repr

def UserSession.cacheEntry (session : UserSession) : UserSessionCacheEntry where
  sid := session.sid
  userID := session.userID
  version := session.version
  userAuthVersion := session.userAuthVersion
  status := session.status
  loginMethod := session.loginMethod
  ip := session.ip
  userAgent := session.userAgent
  deviceID := session.deviceID
  createdAt := session.createdAt
  lastActiveAt := session.lastActiveAt
  expiresAt := session.expiresAt
  revokedAt := session.revokedAt
  revokedReason := session.revokedReason
  cacheSchema := userSessionCacheSchema

namespace UserSessionCacheEntry

def session (entry : UserSessionCacheEntry) : UserSession where
  sid := entry.sid
  userID := entry.userID
  version := entry.version
  userAuthVersion := entry.userAuthVersion
  status := entry.status
  refreshHash := ""
  previousRefreshHash := ""
  previousValidUntil := 0
  loginMethod := entry.loginMethod
  ip := entry.ip
  userAgent := entry.userAgent
  deviceID := entry.deviceID
  createdAt := entry.createdAt
  lastActiveAt := entry.lastActiveAt
  expiresAt := entry.expiresAt
  revokedAt := entry.revokedAt
  revokedReason := entry.revokedReason

/-- The snapshot denies the session. -/
def denies (entry : UserSessionCacheEntry) : Bool :=
  decide (entry.status = .revoking ∨ entry.status = .revoked)

end UserSessionCacheEntry

/-! ### The cache -/

/-- The sessions in the cache, under their ids. -/
abbrev SessionCache := Expiry.Store String UserSessionCacheEntry

def milli : Int := 10 ^ 6

def second : Int := 10 ^ 9

/-- `userCacheTTLSeconds`, in nanoseconds. -/
def userCacheTTL (syncFrequency : Int) : Int :=
  (if syncFrequency ≤ 0 then 60 else syncFrequency) * second

/-- The time to live of a snapshot that denies its session, in milliseconds. -/
def denyExpiration (syncFrequency clock expiresAt : Int) : Int :=
  let ttl := min (expiresAt * second - clock) (userCacheTTL syncFrequency)
  let ttl := if ttl ≤ 0 then second else ttl
  if ttl / milli ≤ 0 then 1 else ttl / milli

/-- `writeUserSessionCache` up to its script: the `redisExpiration` it computes. -/
def redisExpiration (syncFrequency clock : Int) (entry : UserSessionCacheEntry)
    (cacheDeadline : Option Int) : Except SessionCacheReply Int :=
  if entry.status = .active then
    match cacheDeadline with
    | none => .error .invalid
    | some deadline =>
      if deadline - clock ≤ 0 then .error .stale
      else if entry.expiresAt * second - clock ≤ 0 then .error .inactive
      else
        let cacheExpiresAt := min deadline (entry.expiresAt * second)
        if cacheExpiresAt - clock < milli then .error .stale else .ok (cacheExpiresAt / milli)
  else .ok (denyExpiration syncFrequency clock entry.expiresAt)

/-- The script of `writeUserSessionCache`. -/
def evalSessionScript (cache : SessionCache) (nowMs : Int) (entry : UserSessionCacheEntry)
    (expiration : Int) : Bool × SessionCache :=
  let current := Expiry.get cache nowMs entry.sid
  if entry.status = .active ∧ (current.map UserSessionCacheEntry.denies).getD false then
    (false, cache)
  else if entry.version < (current.map UserSessionCacheEntry.version).getD 0 then (false, cache)
  else if entry.status = .active then
    (true, Expiry.setUntil cache nowMs entry.sid entry expiration)
  else (true, Expiry.setUntil cache nowMs entry.sid entry (nowMs + expiration))

/-- `getUserSessionCache` for an entry that was found; `none` when the entry is of no use. -/
def checkSessionEntry (clock : Int) (sid : String) (entry : UserSessionCacheEntry) :
    Option (Except SessionCacheReply UserSession) :=
  if entry.cacheSchema ≠ userSessionCacheSchema ∨ entry.sid ≠ sid ∨ entry.userID ≤ 0 ∨
      entry.version ≤ 0 ∨ entry.userAuthVersion ≤ 0 then
    none
  else if entry.status ≠ .active ∨ entry.revokedAt ≠ 0 ∨ entry.expiresAt ≤ clock / second then
    some (.error .inactive)
  else some (.ok entry.session)

/-! ### Calls -/

/-- What `RevokeUserSession` was called with, and the time it read. -/
structure RevokeArgs where
  userID : Int
  sid : String
  reason : String
  now : Int
deriving DecidableEq, Repr

/-- What `revokeUserSessions` was called with, the time it read, and what it has revoked. -/
structure BulkRevokeArgs where
  userID : Int
  excludedSID : String
  deviceIDs : List String
  reason : String
  now : Int
  revoked : List String
deriving DecidableEq, Repr

/-- What a call does once a write to the cache is over. -/
inductive AfterWrite where
  /-- `GetUserSessionCached` returns the session -/
  | fill (session : UserSession)
  /-- `GetUserSessionCached` returns that it is inactive -/
  | deny
  /-- `RevokeUserSession` revokes the row -/
  | fence (args : RevokeArgs) (candidate : UserSession)
  /-- `RevokeUserSession` returns -/
  | tombstone (sid : String)
  /-- `revokeUserSessions` writes the other fences, then revokes the rows -/
  | bulkFence (args : BulkRevokeArgs) (candidates rest : List UserSession)
  /-- `revokeUserSessions` writes the other tombstones, then looks for more sessions -/
  | bulkTombstone (args : BulkRevokeArgs) (sid : String) (rest : List UserSession)
deriving DecidableEq, Repr

/-- Where a write to the cache stands. -/
inductive WriteStage where
  /-- before it reads the clock -/
  | prepare
  /-- before its script -/
  | eval (expiration : Int)
  /-- an active snapshot is written, before the clock is read again -/
  | complete
deriving DecidableEq, Repr

inductive SessionOutcome where
  | active (session : UserSession)
  | inactive
  | revoked (sids : List String)
  | failed
deriving DecidableEq, Repr

inductive SessionStage where
  /-- `GetUserSessionCached`, before the lookup in the cache -/
  | lookup (sid : String)
  /-- an entry was found, before the clock is read -/
  | check (sid : String) (entry : UserSessionCacheEntry)
  /-- before the deadline is taken -/
  | capture (sid : String)
  /-- before the row is read -/
  | read (sid : String) (deadline : Int)
  /-- before the clock is read -/
  | judge (session : UserSession) (deadline : Int)
  /-- in `writeUserSessionCache` -/
  | write (entry : UserSessionCacheEntry) (deadline : Option Int) (stage : WriteStage)
      (after : AfterWrite)
  /-- before `confirmUserSessionActiveSnapshot` -/
  | confirm (session : UserSession)
  /-- `RevokeUserSession`, before the row is read -/
  | candidate (args : RevokeArgs)
  /-- its transaction -/
  | revoke (args : RevokeArgs) (candidate : UserSession)
  /-- `revokeUserSessions`, before the rows are read -/
  | candidates (args : BulkRevokeArgs)
  /-- its transaction -/
  | bulkRevoke (args : BulkRevokeArgs) (candidates : List UserSession)
  | done (outcome : SessionOutcome)
deriving DecidableEq, Repr

structure SessionCall where
  stage : SessionStage
  /-- the call reads a session whose revocation had returned before it began -/
  late : Bool
deriving DecidableEq, Repr

structure SessionSystem where
  /-- nanoseconds since the epoch -/
  clock : Int
  sessions : UserSessionTable
  cache : SessionCache
  calls : List SessionCall
  /-- the sessions whose revocation has returned success -/
  revoked : List String

inductive SessionAct where
  /-- time goes on -/
  | tick (time : Int)
  /-- `GetUserSessionCached` -/
  | get (sid : String)
  /-- `RevokeUserSession` -/
  | revoke (userID : Int) (sid reason : String)
  /-- `revokeUserSessions` -/
  | revokeAll (userID : Int) (excludedSID : String) (deviceIDs : List String) (reason : String)
  /-- call `i` goes on; whether the database and the cache answer -/
  | advance (i : Nat) (dbOk cacheOk : Bool)
deriving DecidableEq, Repr

namespace SessionAct

/-- The cache answers. -/
def cacheSucceeds : SessionAct → Bool
  | advance _ _ cacheOk => cacheOk
  | _ => true

end SessionAct

namespace SessionSystem

def idle (clock : Int) (sessions : UserSessionTable) : SessionSystem :=
  ⟨clock, sessions, Expiry.empty, [], []⟩

def nowMs (s : SessionSystem) : Int := s.clock / milli

def start (s : SessionSystem) (stage : SessionStage) (late : Bool) : SessionSystem :=
  { s with calls := s.calls ++ [⟨stage, late⟩] }

def goOn (s : SessionSystem) (i : Nat) (call : SessionCall) (stage : SessionStage) :
    SessionSystem :=
  { s with calls := s.calls.set i { call with stage := stage } }

/-- `writeUserSessionDenyFence` and the final tombstone: a snapshot that denies the session. -/
def denyEntry (session : UserSession) (status : UserSessionStatus) (now : Int) (reason : String) :
    UserSessionCacheEntry :=
  { session.cacheEntry with
    status := status
    revokedAt := now
    revokedReason := reason }

/-- The next fence of `revokeUserSessions`, or its transaction. -/
def nextFence (args : BulkRevokeArgs) (candidates : List UserSession) :
    List UserSession → SessionStage
  | [] => .bulkRevoke args candidates
  | session :: rest =>
    .write (denyEntry session .revoking args.now args.reason) none .prepare
      (.bulkFence args candidates rest)

/-- The next tombstone of `revokeUserSessions`, or its next batch. -/
def nextTombstone (args : BulkRevokeArgs) : List UserSession → SessionStage
  | [] => .candidates args
  | session :: rest =>
    .write (denyEntry session .revoked args.now args.reason) none .prepare
      (.bulkTombstone args session.sid rest)

/-- How a call goes on after `writeUserSessionCache`; the sessions it has revoked if it returns. -/
def afterWrite (reply : SessionCacheReply) : AfterWrite → SessionStage × List String
  | .fill session =>
    match reply with
    | .stale => (.confirm session, [])
    | .inactive => (.done .inactive, [])
    | _ => (.done (.active session), [])
  | .deny => (.done .inactive, [])
  | .fence args candidate =>
    if reply = .ok then (.revoke args candidate, []) else (.done .failed, [])
  | .tombstone sid => (.done (.revoked [sid]), [sid])
  | .bulkFence args candidates rest =>
    if reply = .ok then (nextFence args candidates rest, []) else (.done .failed, [])
  | .bulkTombstone args sid rest =>
    (nextTombstone { args with revoked := sid :: args.revoked } rest, [])

def written (s : SessionSystem) (i : Nat) (call : SessionCall) (reply : SessionCacheReply)
    (after : AfterWrite) : SessionSystem :=
  let (stage, revoked) := afterWrite reply after
  { s with revoked := revoked ++ s.revoked }.goOn i call stage

/-- The next step of `writeUserSessionCache`. -/
def advanceWrite (syncFrequency : Int) (s : SessionSystem) (i : Nat) (cacheOk : Bool)
    (call : SessionCall) (entry : UserSessionCacheEntry) (deadline : Option Int)
    (after : AfterWrite) : WriteStage → SessionSystem
  | .prepare =>
    match redisExpiration syncFrequency s.clock entry deadline with
    | .ok expiration => s.goOn i call (.write entry deadline (.eval expiration) after)
    | .error reply => s.written i call reply after
  | .eval expiration =>
    if !cacheOk then s.written i call .failed after
    else
      let (done, cache) := evalSessionScript s.cache s.nowMs entry expiration
      if !done then s.written i call .inactive after
      else if entry.status = .active then
        { s with cache := cache }.goOn i call (.write entry deadline .complete after)
      else { s with cache := cache }.written i call .ok after
  | .complete =>
    match deadline with
    | some deadline =>
      if deadline ≤ s.clock then s.written i call .stale after
      else if entry.expiresAt * second ≤ s.clock then s.written i call .inactive after
      else s.written i call .ok after
    | none => s.written i call .ok after

/-- The count of `confirmUserSessionActiveSnapshot`. -/
def confirms (s : SessionSystem) (session : UserSession) : Bool :=
  decide (session.sid ≠ "" ∧ 0 < session.userID ∧ 0 < session.version ∧
    0 < session.userAuthVersion) &&
    s.sessions.rows.any fun row =>
      decide (row.sid = session.sid ∧ row.userID = session.userID ∧ row.version = session.version ∧
        row.userAuthVersion = session.userAuthVersion) && row.isActive (s.clock / second)

/-- The sessions `revokeUserSessions` finds. -/
def candidatesOf (s : SessionSystem) (args : BulkRevokeArgs) : List UserSession :=
  ((s.sessions.rows.filter fun row =>
      decide (row.userID = args.userID ∧ row.status = .active ∧ args.now < row.expiresAt ∧
        (args.excludedSID = "" ∨ row.sid ≠ args.excludedSID) ∧
        (args.deviceIDs = [] ∨ row.deviceID ∈ args.deviceIDs))).mergeSort
    fun a b => decide (a.sid ≤ b.sid)).take userSessionRevokeBatchSize

/-- The rows the transaction of `revokeUserSessions` finds active. -/
def lockedOf (s : SessionSystem) (candidates : List UserSession) : List UserSession :=
  s.sessions.rows.filter fun row =>
    decide (row.sid ∈ candidates.map UserSession.sid ∧ row.status = .active)

/-- What the update of `revokeUserSessions` makes of a row. -/
def bulkRevoked (args : BulkRevokeArgs) (sids : List String) (row : UserSession) : UserSession :=
  if row.sid ∈ sids ∧ row.status = .active then row.revoke args.now args.reason else row

theorem sid_bulkRevoked (args : BulkRevokeArgs) (sids : List String) (row : UserSession) :
    (bulkRevoked args sids row).sid = row.sid := by
  unfold bulkRevoked
  split <;> rfl

/-- The update of `revokeUserSessions`. -/
def bulkRevoke (args : BulkRevokeArgs) (sids : List String) (sessions : UserSessionTable) :
    UserSessionTable :=
  sessions.mapRows (bulkRevoked args sids) (sid_bulkRevoked args sids)

def advance (syncFrequency : Int) (s : SessionSystem) (i : Nat) (dbOk cacheOk : Bool)
    (call : SessionCall) : Option SessionSystem :=
  match call.stage with
  | .lookup sid =>
    match if cacheOk then Expiry.get s.cache s.nowMs sid else none with
    | some entry => some (s.goOn i call (.check sid entry))
    | none => some (s.goOn i call (.capture sid))
  | .check sid entry =>
    match checkSessionEntry s.clock sid entry with
    | some (.ok session) => some (s.goOn i call (.done (.active session)))
    | some (.error _) => some (s.goOn i call (.done .inactive))
    | none => some (s.goOn i call (.capture sid))
  | .capture sid => some (s.goOn i call (.read sid (s.clock + userCacheTTL syncFrequency)))
  | .read sid deadline =>
    match if dbOk then s.sessions.find sid else none with
    | some row => some (s.goOn i call (.judge row.afterFind deadline))
    | none => some (s.goOn i call (.done .failed))
  | .judge session deadline =>
    if session.isActive (s.clock / second) then
      some (s.goOn i call (.write session.cacheEntry (some deadline) .prepare (.fill session)))
    else
      let entry := { session.cacheEntry with status := .revoked }
      some (s.goOn i call (.write entry none .prepare .deny))
  | .write entry deadline stage after =>
    some (s.advanceWrite syncFrequency i cacheOk call entry deadline after stage)
  | .confirm session =>
    if !dbOk then some (s.goOn i call (.done .failed))
    else if s.confirms session then some (s.goOn i call (.done (.active session)))
    else some (s.goOn i call (.done .inactive))
  | .candidate args =>
    match if dbOk then some (s.sessions.find args.sid) else none with
    | none => some (s.goOn i call (.done .failed))
    | some none => some (s.goOn i call (.done (.revoked [])))
    | some (some row) =>
      if row.userID ≠ args.userID ∨ row.isActive args.now = false then
        some (s.goOn i call (.done (.revoked [])))
      else
        let candidate := row.afterFind
        some (s.goOn i call
          (.write (denyEntry candidate .revoking args.now args.reason) none .prepare
            (.fence args candidate)))
  | .revoke args candidate =>
    if !dbOk then some (s.goOn i call (.done .failed))
    else
      let (revoked, sessions) := s.sessions.update args.sid
        (fun row => decide (row.userID = args.userID) && row.isActive args.now)
        (UserSession.revoke args.now args.reason)
      if revoked then
        some ({ s with sessions := sessions }.goOn i call
          (.write (denyEntry candidate .revoked args.now args.reason) none .prepare
            (.tombstone args.sid)))
      else some (s.goOn i call (.done (.revoked [])))
  | .candidates args =>
    if !dbOk then some (s.goOn i call (.done .failed))
    else
      let candidates := s.candidatesOf args
      if candidates = [] then
        some ({ s with revoked := args.revoked ++ s.revoked }.goOn i call
          (.done (.revoked args.revoked)))
      else some (s.goOn i call (nextFence args (candidates.map UserSession.afterFind)
        (candidates.map UserSession.afterFind)))
  | .bulkRevoke args candidates =>
    if !dbOk then some (s.goOn i call (.done .failed))
    else
      let locked := s.lockedOf candidates
      let sessions := bulkRevoke args (locked.map UserSession.sid) s.sessions
      some ({ s with sessions := sessions }.goOn i call
        (nextTombstone args (locked.map UserSession.afterFind)))
  | .done _ => none

def step (syncFrequency : Int) (s : SessionSystem) : SessionAct → Option SessionSystem
  | .tick time => if s.clock ≤ time then some { s with clock := time } else none
  | .get sid =>
    if sid = "" then some (s.start (.done .failed) false)
    else some (s.start (.lookup sid) (decide (sid ∈ s.revoked)))
  | .revoke userID sid reason =>
    if userID ≤ 0 ∨ sid = "" then some (s.start (.done .failed) false)
    else some (s.start (.candidate ⟨userID, sid, reason, s.clock / second⟩) false)
  | .revokeAll userID excludedSID deviceIDs reason =>
    if userID ≤ 0 then some (s.start (.done .failed) false)
    else
      some (s.start (.candidates ⟨userID, excludedSID, deviceIDs, reason, s.clock / second, []⟩)
        false)
  | .advance i dbOk cacheOk =>
    match s.calls[i]? with
    | some call => s.advance syncFrequency i dbOk cacheOk call
    | none => none

end SessionSystem

end JulongApi

/-
The cached user: `model/user_auth_cache.go`, and how `model/user_cache.go` reads and fills the
hash.

Beside the hash of a user two more keys are in Redis: a pending fence, written before a
transaction that raises the user's authentication version and gone after a while, and the
committed floor, which does not expire.  A hash below either is not returned, and a snapshot below
either is not written.

Each statement and each script is an action of its own, and a call is cut before every one of
them.  A call that locks the row keeps the lock until its transaction is over; on SQLite, which has
no `FOR UPDATE`, the transaction has the whole database from its beginning.  Redis is enabled and
keeps what it was given; its time is in milliseconds.
-/
import JulongApi.Lib.Expiry
import JulongApi.Lib.Machine
import JulongApi.Lib.Pool
import JulongApi.QuotaCache

namespace JulongApi

def userCacheSchemaVersion : Int := 4

def userCacheTTLSeconds (syncFrequency : Int) : Int :=
  if syncFrequency ≤ 0 then 60 else syncFrequency

def userAuthFenceTTLSeconds (syncFrequency : Int) : Int :=
  let cacheTTL := userCacheTTLSeconds syncFrequency
  let extra := max cacheTTL 60
  cacheTTL + extra

/-- What the row of a user and the hash have in common. -/
structure UserProfile where
  id : Int
  group : String
  groupRatioAdjustmentEnabled : Bool
  /-- in decimal -/
  groupRatioAdjustment : String
  email : String
  status : Int
  role : Int
  username : String
  setting : String
  requestContentLoggingEnabled : Bool
  authVersion : Int
deriving DecidableEq, Repr

structure UserRow extends UserProfile where
  quota : Int
  deleted : Bool
deriving DecidableEq, Repr

structure UserBase extends UserProfile where
  quota : Int
  cacheSchema : Int
deriving DecidableEq, Repr

/-- The hash `user:<id>`. -/
structure UserHash extends UserProfile where
  quota : Option Int
  cacheSchema : Int
deriving DecidableEq, Repr

abbrev UserTable := Table fun row : UserRow => row.id

def UserRow.toBaseUser (user : UserRow) : UserBase :=
  { user.toUserProfile with
    quota := user.quota
    cacheSchema := userCacheSchemaVersion }

/-- `RedisHGetObj` into a `UserBase`; a field that is not there is left at zero. -/
def UserHash.scan (hash : UserHash) : UserBase :=
  { hash.toUserProfile with
    quota := hash.quota.getD 0
    cacheSchema := hash.cacheSchema }

/-- The fields `updateUserCacheField` is called with. -/
inductive UserCacheField where
  | group
  | email
  | username
  | setting
deriving DecidableEq, Repr

def UserHash.setField (field : UserCacheField) (value : String) (hash : UserHash) : UserHash :=
  match field with
  | .group => { hash with group := value, cacheSchema := userCacheSchemaVersion }
  | .email => { hash with email := value, cacheSchema := userCacheSchemaVersion }
  | .username => { hash with username := value, cacheSchema := userCacheSchemaVersion }
  | .setting => { hash with setting := value, cacheSchema := userCacheSchemaVersion }

/-! ### Scripts -/

structure UserAuthKeys where
  hashes : Expiry.Store Int UserHash
  /-- `auth:user:fence:<id>` -/
  fences : Expiry.Store Int Int
  /-- `auth:user:version:<id>` -/
  floors : Expiry.Store Int Int

namespace UserAuthKeys

def pending (keys : UserAuthKeys) (now userId : Int) : Int :=
  (Expiry.get keys.fences now userId).getD 0

def committed (keys : UserAuthKeys) (now userId : Int) : Int :=
  (Expiry.get keys.floors now userId).getD 0

def current (keys : UserAuthKeys) (now userId : Int) : Int :=
  ((Expiry.get keys.hashes now userId).map fun hash => hash.authVersion).getD 0

/-- The script of `publishCommittedUserAuthVersion`: raise the floor, and drop a fence it covers. -/
def publish (keys : UserAuthKeys) (now userId incoming : Int) : UserAuthKeys :=
  { keys with
    floors :=
      if keys.committed now userId < incoming then Expiry.set keys.floors userId incoming
      else keys.floors
    fences :=
      if 0 < keys.pending now userId ∧ keys.pending now userId ≤ incoming then
        keys.fences.erase userId
      else keys.fences }

/-- The version is below the fence, the floor or the hash. -/
def refuses (keys : UserAuthKeys) (now userId incoming : Int) : Bool :=
  decide (incoming < keys.pending now userId ∨ incoming < keys.committed now userId ∨
    incoming < keys.current now userId)

/-- The hash `writeUserCache` makes of a snapshot. -/
def hashOf (user : UserBase) (includeQuota : Bool) (old : Option UserHash) : UserHash :=
  let quota := old.bind UserHash.quota
  { user.toUserProfile with
    quota := if includeQuota && quota.isNone then some user.quota else quota
    cacheSchema := user.cacheSchema }

/-- The script of `writeUserCache`. -/
def writeUserCache (syncFrequency : Int) (keys : UserAuthKeys) (now : Int) (user : UserBase)
    (includeQuota : Bool) : Bool × UserAuthKeys :=
  if keys.refuses now user.id user.authVersion then (false, keys)
  else
    let keys := keys.publish now user.id user.authVersion
    let old := Expiry.get keys.hashes now user.id
    if !includeQuota && old.isNone then (true, keys)
    else
      let time := now + userCacheTTLSeconds syncFrequency * 1000
      (true, { keys with
        hashes := Expiry.setUntil keys.hashes now user.id (hashOf user includeQuota old) time })

/-- The script of `updateUserCacheFieldAtVersion`. -/
def updateField (keys : UserAuthKeys) (now userId : Int) (field : UserCacheField) (value : String)
    (incoming : Int) : Bool × UserAuthKeys :=
  if keys.refuses now userId incoming then (false, keys)
  else
    let current := keys.current now userId
    let keys := keys.publish now userId incoming
    if (Expiry.get keys.hashes now userId).isNone then (true, keys)
    else if current ≠ incoming then (true, keys)
    else
      (true, { keys with
        hashes := Expiry.modify keys.hashes now userId (UserHash.setField field value) })

/-- The fence would stay for good. -/
def fenceStays (keys : UserAuthKeys) (userId : Int) : Bool :=
  match keys.fences.find userId with
  | none => false
  | some fence => fence.expireAt.isNone

/-- The script of `SetUserAuthVersionFence`. -/
def setFence (syncFrequency : Int) (keys : UserAuthKeys) (now userId incoming : Int) :
    UserAuthKeys :=
  let current := keys.pending now userId
  let time := now + userAuthFenceTTLSeconds syncFrequency * 1000
  if current < incoming then
    { keys with fences := Expiry.setUntil keys.fences now userId incoming time }
  else if current = incoming then
    { keys with fences := Expiry.expire keys.fences now userId time }
  else if keys.fenceStays userId then
    { keys with fences := Expiry.expire keys.fences now userId time }
  else keys

/-- `getUserAuthVersionFloor`. -/
def floor (keys : UserAuthKeys) (now userId : Int) : Int :=
  max (max 0 (keys.pending now userId)) (keys.committed now userId)

end UserAuthKeys

/-! ### Calls -/

/-- What the caller of `IncrementUserAuthVersionWithTx` does beside it, and how it publishes. -/
inductive UserAuthChange where
  /-- the row is changed; `PublishUserAuthCache` -/
  | update (user : UserProfile)
  /-- the row is changed and read back; `updateUserCache` -/
  | edit (user : UserProfile)
  /-- the row is deleted, softly or not; `publishCommittedUserAuthVersion` -/
  | delete (hard : Bool)
deriving DecidableEq, Repr

structure IncrementArgs where
  userId : Int
  change : UserAuthChange
deriving DecidableEq, Repr

inductive UserAuthStage where
  /-- `GetUserCache`: the hash is read -/
  | lookup (userId : Int)
  /-- the floor is read for the hash that was found -/
  | check (userId : Int) (user : UserBase)
  /-- the row is read -/
  | load (userId : Int)
  /-- the floor is read for the row that was found -/
  | guard (user : UserRow)
  | populate (user : UserRow)
  /-- `IncrementUserAuthVersionWithTx`: the row is locked and read; attempts that are left -/
  | lock (args : IncrementArgs) (attempts : Nat) (locked : Bool)
  /-- the fence is set, after the version that was read -/
  | fence (args : IncrementArgs) (attempts : Nat) (read : Int)
  /-- the version is updated -/
  | update (args : IncrementArgs) (attempts : Nat) (read : Int)
  /-- the caller's transaction comes to its end -/
  | commit (args : IncrementArgs) (next : Int)
  | publishCommitted (userId next : Int)
  /-- `PublishUserAuthCache`, after the version it is called for: the row is read -/
  | reload (userId : Int) (next : Option Int)
  /-- `updateUserCache` -/
  | refresh (user : UserBase) (next : Option Int)
  /-- `updateUserCacheField`: the version is read -/
  | fieldVersion (userId : Int) (field : UserCacheField) (value : String)
  | field (userId : Int) (field : UserCacheField) (value : String) (version : Int)
  /-- `RefreshUserGroupCache`: the group is read -/
  | groupLoad (userId : Int)
  /-- it is written; attempts that are left -/
  | groupWrite (userId : Int) (attempts : Nat) (group : String) (version : Int)
  /-- the row is read again -/
  | groupVerify (userId : Int) (attempts : Nat) (group : String) (version : Int)
  /-- `InvalidateUserCache` -/
  | invalidate (userId : Int)
  /-- `GetUserCache` returns -/
  | got (userId : Int) (user : UserBase)
  /-- a call returns without a user, and whether it succeeds -/
  | done (ok : Bool)
deriving DecidableEq, Repr

/-- What comes of a statement or a script. -/
inductive Effect where
  | ok
  /-- it takes effect and its reply is lost -/
  | lost
  | failed
deriving DecidableEq, Repr

structure UserAuthSystem where
  /-- milliseconds -/
  clock : Int
  users : UserTable
  keys : UserAuthKeys
  calls : List UserAuthStage
  /-- the versions that have been published, each with its user -/
  published : List (Int × Int)

inductive UserAuthAct where
  /-- time goes on -/
  | tick (time : Int)
  /-- another transaction changes the row without a look at the version -/
  | edit (row : UserRow)
  /-- `InitializeUserAuthVersions` -/
  | initVersions
  /-- the `Quota` field of a hash moves -/
  | quotaDelta (userId delta : Int)
  /-- `GetUserCache` -/
  | get (userId : Int)
  /-- a transaction that raises the version -/
  | increment (args : IncrementArgs)
  /-- `PublishUserAuthCache` by itself -/
  | reload (userId : Int)
  | updateField (userId : Int) (field : UserCacheField) (value : String)
  | refreshGroup (userId : Int)
  | invalidate (userId : Int)
  /-- call `i` goes on -/
  | advance (i : Nat) (effect : Effect)
deriving DecidableEq, Repr

namespace UserAuthStage

/-- The user whose row the call has locked. -/
def locks : UserAuthStage → Option Int
  | lock args _ locked => if locked then some args.userId else none
  | fence args _ _ => some args.userId
  | update args _ _ => some args.userId
  | commit args _ => some args.userId
  | _ => none

end UserAuthStage

namespace UserAuthSystem

def idle (clock : Int) (users : UserTable) : UserAuthSystem :=
  ⟨clock, users, ⟨Expiry.empty, Expiry.empty, Expiry.empty⟩, [], []⟩

def start (s : UserAuthSystem) (stage : UserAuthStage) : UserAuthSystem :=
  { s with calls := s.calls ++ [stage] }

def goOn (s : UserAuthSystem) (i : Nat) (stage : UserAuthStage) : UserAuthSystem :=
  { s with calls := s.calls.set i stage }

/-- A call has locked the row of the user. -/
def locked (s : UserAuthSystem) (userId : Int) : Bool :=
  s.calls.any fun call => decide (call.locks = some userId)

def getUserById (s : UserAuthSystem) (userId : Int) : Option UserRow :=
  if userId = 0 then none else (s.users.find userId).filter fun row => !row.deleted

/-- The published floor of a user. -/
def floor (s : UserAuthSystem) (userId : Int) : Int := s.keys.committed s.clock userId

/-- `cacheGetUserBase` up to the floor. -/
def cached (s : UserAuthSystem) (userId : Int) : Option UserBase :=
  ((Expiry.get s.keys.hashes s.clock userId).map UserHash.scan).filter fun user =>
    decide (user.id = userId ∧ user.cacheSchema = userCacheSchemaVersion ∧ 0 < user.authVersion)

/-- A write to Redis: its effect, and how the call goes on. -/
def write (s : UserAuthSystem) (i : Nat) (effect : Effect) (keys : UserAuthKeys)
    (published : List (Int × Int)) (ok failed : UserAuthStage) : UserAuthSystem :=
  match effect with
  | .ok => { s with keys := keys, published := published ++ s.published }.goOn i ok
  | .lost => { s with keys := keys, published := published ++ s.published }.goOn i failed
  | .failed => s.goOn i failed

/-- The row the transaction leaves, `none` when it is gone. -/
def changed (row : UserRow) (next : Int) : UserAuthChange → Option UserRow
  | .update user | .edit user =>
    if row.deleted then some { row with authVersion := next }
    else
      some { user with
        id := row.id
        authVersion := next
        quota := row.quota
        deleted := false }
  | .delete hard =>
    if hard then none else some { row with authVersion := next, deleted := true }

/-- The rows a transaction leaves. -/
def committedRows (users : UserTable) (userId : Int) : Option UserRow → UserTable
  | some new => users.save new
  | none => users.erase userId

/-- How the caller publishes. -/
def publication (userId next : Int) (row : Option UserRow) : UserAuthChange → UserAuthStage
  | .update _ => .reload userId (some next)
  | .edit _ =>
    match row with
    | some row => .refresh row.toBaseUser (some next)
    | none => .done false
  | .delete _ => .publishCommitted userId next

/-- The row is read back and not found. -/
def unread (row : UserRow) : UserAuthChange → Bool
  | .edit _ => row.deleted
  | _ => false

/-- The transaction comes to its end; it may have been rolled back. -/
def commit (s : UserAuthSystem) (i : Nat) (effect : Effect) (args : IncrementArgs) (next : Int) :
    UserAuthSystem :=
  match (s.users.find args.userId).filter fun row => !unread row args.change with
  | none => s.goOn i (.done false)
  | some row =>
    let new := changed row next args.change
    let users := committedRows s.users args.userId new
    match effect with
    | .ok => { s with users := users }.goOn i (publication args.userId next new args.change)
    | .lost => { s with users := users }.goOn i (.done false)
    | .failed => s.goOn i (.done false)

/-- The versions a call of `updateUserCache` publishes. -/
def publishes (userId : Int) (next : Option Int) : List (Int × Int) :=
  next.toList.map fun version => (userId, version)

def advance (syncFrequency : Int) (s : UserAuthSystem) (i : Nat) (effect : Effect) :
    UserAuthStage → Option UserAuthSystem
  | .lookup userId =>
    match if effect = .ok then s.cached userId else none with
    | some user => some (s.goOn i (.check userId user))
    | none => some (s.goOn i (.load userId))
  | .check userId user =>
    if effect = .ok ∧ s.keys.floor s.clock userId ≤ user.authVersion then
      some (s.goOn i (.got userId user))
    else some (s.goOn i (.load userId))
  | .load userId =>
    match if effect = .ok then s.getUserById userId else none with
    | some user => some (s.goOn i (.guard user))
    | none => some (s.goOn i (.done false))
  | .guard user =>
    if effect = .ok ∧ user.authVersion < s.keys.floor s.clock user.id then
      some (s.goOn i (.done false))
    else some (s.goOn i (.populate user))
  | .populate user =>
    -- any error but a refusal is logged, and the row is returned
    let returned := .got user.id user.toBaseUser
    if user.id ≤ 0 ∨ user.authVersion ≤ 0 then some (s.goOn i returned)
    else
      match s.keys.writeUserCache syncFrequency s.clock user.toBaseUser true with
      | (true, keys) => some (s.write i effect keys [] returned returned)
      | (false, _) => some (s.goOn i (if effect = .ok then .done false else returned))
  | .lock args attempts locked =>
    if !locked && s.locked args.userId then none
    else
      match if effect = .ok then s.users.find args.userId else none with
      | some row => some (s.goOn i (.fence args attempts row.authVersion))
      | none => some (s.goOn i (.done false))
  | .fence args attempts read =>
    let next := max read 1 + 1
    let keys := s.keys.setFence syncFrequency s.clock args.userId next
    some (s.write i effect keys [] (.update args attempts read) (.done false))
  | .update args attempts read =>
    if effect ≠ .ok then some (s.goOn i (.done false))
    else if (s.users.find args.userId).map (fun row => row.authVersion) = some read then
      some (s.goOn i (.commit args (max read 1 + 1)))
    else if attempts ≤ 1 then some (s.goOn i (.done false))
    else some (s.goOn i (.lock args (attempts - 1) true))
  | .commit args next => some (s.commit i effect args next)
  | .publishCommitted userId next =>
    let keys := s.keys.publish s.clock userId next
    some (s.write i effect keys [(userId, next)] (.done true) (.done false))
  | .reload userId next =>
    match if effect = .ok then s.getUserById userId else none with
    | some user => some (s.goOn i (.refresh user.toBaseUser next))
    | none => some (s.goOn i (.done false))
  | .refresh user next =>
    if user.id ≤ 0 then some (s.goOn i (.done true))
    else if user.authVersion ≤ 0 then some (s.goOn i (.done false))
    else
      match s.keys.writeUserCache syncFrequency s.clock user false with
      | (true, keys) =>
        some (s.write i effect keys (publishes user.id next) (.done true) (.done false))
      | (false, _) => some (s.goOn i (.done false))
  | .fieldVersion userId field value =>
    match if effect = .ok then s.getUserById userId else none with
    | some user =>
      if user.authVersion ≤ 0 then some (s.goOn i (.done false))
      else some (s.goOn i (.field userId field value user.authVersion))
    | none => some (s.goOn i (.done false))
  | .field userId field value version =>
    if userId ≤ 0 ∨ version ≤ 0 then some (s.goOn i (.done false))
    else
      match s.keys.updateField s.clock userId field value version with
      | (true, keys) => some (s.write i effect keys [] (.done true) (.done false))
      | (false, _) => some (s.goOn i (.done false))
  | .groupLoad userId =>
    match if effect = .ok then s.getUserById userId else none with
    | some user => some (s.goOn i (.groupWrite userId 3 user.group user.authVersion))
    | none => some (s.goOn i (.done false))
  | .groupWrite userId attempts group version =>
    if version ≤ 0 then some (s.goOn i (.done false))
    else
      -- after the last attempt the group is written and an error returned
      let next :=
        match attempts with
        | 0 => .done false
        | attempts + 1 => .groupVerify userId attempts group version
      match s.keys.updateField s.clock userId .group group version with
      | (true, keys) => some (s.write i effect keys [] next (.done false))
      | (false, _) => some (s.goOn i (.done false))
  | .groupVerify userId attempts group version =>
    match if effect = .ok then s.getUserById userId else none with
    | some user =>
      if user.authVersion = version ∧ user.group = group then some (s.goOn i (.done true))
      else some (s.goOn i (.groupWrite userId attempts user.group user.authVersion))
    | none => some (s.goOn i (.done false))
  | .invalidate userId =>
    let keys := { s.keys with hashes := s.keys.hashes.erase userId }
    some (s.write i effect keys [] (.done true) (.done false))
  | .got _ _ => none
  | .done _ => none

/-- `InitializeUserAuthVersions` of a row. -/
def initialized (row : UserRow) : UserRow :=
  if row.authVersion < 1 then { row with authVersion := 1 } else row

theorem id_initialized (row : UserRow) : (initialized row).id = row.id := by
  unfold initialized
  split <;> rfl

def step (syncFrequency : Int) (s : UserAuthSystem) : UserAuthAct → Option UserAuthSystem
  | .tick time => if s.clock ≤ time then some { s with clock := time } else none
  | .edit row =>
    match s.users.find row.id with
    | none => none
    | some old =>
      if s.locked row.id then none
      else some { s with users := s.users.save { row with authVersion := old.authVersion } }
  | .initVersions =>
    if s.users.rows.any fun row => s.locked row.id then none
    else some { s with users := s.users.mapRows initialized id_initialized }
  | .quotaDelta userId delta =>
    let hashes := Expiry.modify s.keys.hashes s.clock userId fun hash =>
      { hash with quota := deltaScript hash.quota delta }
    some { s with keys := { s.keys with hashes := hashes } }
  | .get userId => some (s.start (.lookup userId))
  | .increment args =>
    if args.userId ≤ 0 then some (s.start (.done false))
    else some (s.start (.lock args 3 false))
  | .reload userId => some (s.start (.reload userId none))
  | .updateField userId field value => some (s.start (.fieldVersion userId field value))
  | .refreshGroup userId =>
    if userId ≤ 0 then some (s.start (.done false)) else some (s.start (.groupLoad userId))
  | .invalidate userId => some (s.start (.invalidate userId))
  | .advance i effect =>
    match s.calls[i]? with
    | some call => s.advance syncFrequency i effect call
    | none => none

end UserAuthSystem

end JulongApi

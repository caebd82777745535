/-
Redemption codes: `model/redemption.go` and `controller/redemption.go`.

An administrator or an agent creates codes; an agent pays for them from the wallet, at a
discount.  A user redeems a code and is credited its quota.  An administrator edits codes
and deletes them, and for a code that was not used the agent's charge is refunded.

Redeeming, creating and deleting by id are transactions on locked rows, so each is one
action; one that fails leaves no trace and is no action.  Two operations are not atomic.
An edit reads the code and writes it back later, and the sweep over invalid codes reads
them without a lock before it refunds and deletes.  Both leave copies in memory, and
anything may happen between the two halves.
-/
import JulongApi.Lib.Machine
import JulongApi.Lib.Table
import JulongApi.Subscription
import JulongApi.Wallet

namespace JulongApi

/-! ### Rows -/

/-- `RedemptionCodeStatusEnabled` and its siblings. -/
inductive RedemptionStatus where
  | enabled
  | disabled
  | used
deriving DecidableEq, Repr

structure Redemption where
  id : Nat
  /-- the creator -/
  userId : Nat
  key : String
  status : RedemptionStatus
  name : String
  quota : Int
  createdTime : Int
  redeemedTime : Int
  usedUserId : Nat
  /-- `0` never expires. -/
  expiredTime : Int
  agentCharge : Int
  /-- `DeletedAt` is set -/
  deleted : Bool
deriving DecidableEq, Repr

/-- The columns of `User` that the codes read or write. -/
structure RedemptionUser where
  id : Nat
  quota : Int
  role : Int
  isAgent : Bool
  agentDiscount : Int
deriving DecidableEq, Repr

def roleAdminUser : Int := 10

structure RedemptionDB where
  redemptions : Table Redemption.id
  users : Table RedemptionUser.id

/-- `ExpiredTime != 0 && ExpiredTime < now`. -/
def Redemption.expired (r : Redemption) (now : Int) : Bool :=
  r.expiredTime != 0 && decide (r.expiredTime < now)

/-- The body of an update request; with a status it is a `status_only` one. -/
structure RedemptionEdit where
  name : String
  quota : Int
  expiredTime : Int
  statusOnly : Option RedemptionStatus
deriving DecidableEq, Repr

/-- A refund that was made: the code, the agent, the amount. -/
structure Refund where
  code : Nat
  agent : Nat
  amount : Int
deriving DecidableEq, Repr

/-! ### Creating -/

/-- `calculateAgentRedemptionCharge`: the product is an `int64`. -/
def calculateAgentRedemptionCharge (quota count discount : Int) : Int :=
  if quota ≤ 0 ∨ count ≤ 0 ∨ discount ≤ 0 then 0
  else (wrapInt64 (quota * count * discount + 99)).tdiv 100

/-- The body of a create request. -/
structure AddRedemptionRequest where
  name : String
  quota : Int
  count : Nat
  expiredTime : Int
deriving DecidableEq, Repr

/-- `validateExpiredTime`. -/
def validExpiredTime (expired now : Int) : Bool := expired == 0 || !decide (expired < now)

/-- The charge `AddRedemption` arrives at; `none` is a refusal. -/
def addRedemptionCharge (db : RedemptionDB) (creatorId : Nat) (role : Int)
    (req : AddRedemptionRequest) (now : Int) : Option Int :=
  if req.name.length = 0 ∨ 20 < req.name.length then none
  else if req.quota ≤ 0 then none
  else if req.count = 0 ∨ 100 < req.count then none
  else if maxWalletQuota < req.quota then none
  else if validExpiredTime req.expiredTime now = false then none
  else if roleAdminUser ≤ role then some 0
  else
    match db.users.find creatorId with
    | none => none
    | some user =>
      if user.isAgent = false then none
      else if req.expiredTime ≠ 0 then none
      else if user.agentDiscount < 0 ∨ 100 < user.agentDiscount then none
      else some (calculateAgentRedemptionCharge req.quota req.count user.agentDiscount)

/-- The part of the charge that goes to code number `i`. -/
def agentChargeShare (charge : Int) (count i : Nat) : Int :=
  if 0 < charge then charge / count + (if (i : Int) < charge % count then 1 else 0) else 0

/-- Code number `i` of a request, under the id and key it gets. -/
def AddRedemptionRequest.code (req : AddRedemptionRequest) (userId : Nat) (charge now : Int)
    (i id : Nat) (key : String) : Redemption where
  id := id
  userId := userId
  key := key
  status := .enabled
  name := req.name
  quota := req.quota
  createdTime := now
  redeemedTime := 0
  usedUserId := 0
  expiredTime := req.expiredTime
  agentCharge := agentChargeShare charge req.count i
  deleted := false

namespace RedemptionDB

def live (db : RedemptionDB) (id : Nat) : Option Redemption :=
  match db.redemptions.find id with
  | some r => if r.deleted then none else some r
  | none => none

/-- The wallet update of `CreateRedemptionsWithWalletCharge`. -/
def chargeWallet (db : RedemptionDB) (userId : Nat) (charge : Int) : Option RedemptionDB :=
  if 0 < charge then
    match db.users.find userId with
    | none => none
    | some user =>
      if charge ≤ user.quota then
        some { db with users := db.users.save { user with quota := user.quota - charge } }
      else none
  else some db

/-- The loop that creates the codes; both the id and the key have to be free. -/
def createCodes (req : AddRedemptionRequest) (userId : Nat) (charge now : Int) :
    (i : Nat) → List (Nat × String) → RedemptionDB → Option RedemptionDB
  | _, [], db => some db
  | i, (id, key) :: rest, db =>
    if db.redemptions.rows.any (·.key = key) then none
    else
      match db.redemptions.insert (req.code userId charge now i id key) with
      | none => none
      | some redemptions =>
        createCodes req userId charge now (i + 1) rest { db with redemptions := redemptions }

/-- `CreateRedemptionsWithWalletCharge`, with the ids and keys the codes get. -/
def createRedemptionsWithWalletCharge (db : RedemptionDB) (userId : Nat)
    (req : AddRedemptionRequest) (charge now : Int) (codes : List (Nat × String)) :
    Option RedemptionDB :=
  if userId = 0 ∨ req.count = 0 ∨ codes.length ≠ req.count then none
  else
    match db.chargeWallet userId charge with
    | none => none
    | some db => createCodes req userId charge now 0 codes db

/-! ### Redeeming -/

/-- Agents may only redeem what an administrator created. -/
def mayRedeem (db : RedemptionDB) (redeemer : RedemptionUser) (r : Redemption) : Bool :=
  if redeemer.isAgent then
    match db.users.find r.userId with
    | none => false
    | some creator => decide (0 < r.userId) && decide (roleAdminUser ≤ creator.role)
  else true

/-- `Redeem`: the code and the tables after it, if it goes through. -/
def redeem (db : RedemptionDB) (key : String) (userId : Nat) (now : Int) :
    Option (Redemption × RedemptionDB) :=
  if key = "" ∨ userId = 0 then none
  else
    match db.redemptions.rows.find? fun r => r.key = key ∧ r.deleted = false with
    | none => none
    | some r =>
      if r.status ≠ .enabled ∨ r.expired now then none
      else
        match db.users.find userId with
        | none => none
        | some redeemer =>
          if db.mayRedeem redeemer r = false then none
          else
            match creditTopUpQuota redeemer.quota r.quota with
            | .error _ => none
            | .ok quota =>
              some (r, {
                redemptions := db.redemptions.save { r with
                  redeemedTime := now
                  status := .used
                  usedUserId := userId }
                users := db.users.save { redeemer with quota := quota } })

/-! ### Editing -/

/-- `UpdateRedemption` up to its write: the copy as it will be written. -/
def readForUpdate (db : RedemptionDB) (id : Nat) (edit : RedemptionEdit) (now : Int) :
    Option Redemption :=
  match db.live id with
  | none => none
  | some r =>
    match edit.statusOnly with
    | some status => some { r with status := status }
    | none =>
      if edit.quota ≤ 0 ∨ maxWalletQuota < edit.quota ∨
          validExpiredTime edit.expiredTime now = false then none
      else some { r with
        name := edit.name
        quota := edit.quota
        expiredTime := edit.expiredTime }

/-- `Redemption.Update`: six columns of the copy, to the live row. -/
def update (db : RedemptionDB) (copy : Redemption) : RedemptionDB :=
  if copy.quota ≤ 0 ∨ maxWalletQuota < copy.quota then db
  else
    { db with redemptions := (db.redemptions.update copy.id (fun row => !row.deleted) fun row =>
        { row with
          name := copy.name
          status := copy.status
          quota := copy.quota
          redeemedTime := copy.redeemedTime
          expiredTime := copy.expiredTime
          agentCharge := copy.agentCharge }).2 }

/-! ### Deleting -/

/-- The refund of a code without a recorded charge: worked out from the present settings. -/
def fallbackRefund (quota agentDiscount : Int) : Int :=
  (wrapInt64 (quota * agentDiscount + 99)).tdiv 100

/-- What `refundAgentRedemptionCharge` decides: the creator and the refund, if there is one. -/
def agentRefund (db : RedemptionDB) (r : Redemption) : Option (Nat × Int) :=
  if r.userId = 0 ∨ r.status = .used then none
  else
    match db.users.find r.userId with
    | none => none
    | some creator =>
      if creator.isAgent = false then none
      else
        let refund :=
          if r.agentCharge ≤ 0 then fallbackRefund r.quota creator.agentDiscount
          else r.agentCharge
        if refund ≤ 0 then none else some (creator.id, refund)

def refundAgentRedemptionCharge (db : RedemptionDB) (r : Redemption) :
    List Refund × RedemptionDB :=
  match db.agentRefund r with
  | none => ([], db)
  | some (agent, refund) =>
    ([⟨r.id, agent, refund⟩],
      { users := (db.users.update agent (fun _ => true) fun user =>
          { user with quota := user.quota + refund }).2
        redemptions := (db.redemptions.update r.id (fun row => !row.deleted) fun row =>
          { row with agentCharge := 0 }).2 })

/-- The loop of the two deletions. -/
def refundAll : List Redemption → RedemptionDB → List Refund × RedemptionDB
  | [], db => ([], db)
  | r :: rest, db =>
    let (refunds, db) := db.refundAgentRedemptionCharge r
    let (refunds', db) := refundAll rest db
    (refunds ++ refunds', db)

/-- `tx.Delete`: a soft delete of live rows. -/
def softDelete (db : RedemptionDB) (ids : List Nat) : RedemptionDB :=
  let redemptions := db.redemptions.mapRows
    (fun row => if row.id ∈ ids then { row with deleted := true } else row)
    (by
      intro row
      split <;> rfl)
  { db with redemptions := redemptions }

/-- Refunding and deleting rows that have been read. -/
def deleteRows (db : RedemptionDB) (rows : List Redemption) : List Refund × RedemptionDB :=
  let (refunds, db) := refundAll rows db
  (refunds, db.softDelete (rows.map (·.id)))

/-- The rows `DeleteRedemptionsByIds` locks. -/
def rowsByIds (db : RedemptionDB) (ids : List Nat) : List Redemption :=
  db.redemptions.rows.filter fun r => r.deleted = false ∧ r.id ∈ ids

/-- The rows `DeleteInvalidRedemptions` reads. -/
def invalidRows (db : RedemptionDB) (now : Int) : List Redemption :=
  db.redemptions.rows.filter fun r => r.deleted = false ∧
    (r.status = .used ∨ r.status = .disabled ∨ (r.status = .enabled ∧ r.expired now))

end RedemptionDB

/-! ### The system -/

structure RedemptionSystem where
  db : RedemptionDB
  /-- edited copies that are yet to be written -/
  edits : List Redemption
  /-- what sweeps over invalid codes have read -/
  sweeps : List (List Redemption)
  /-- the codes that were credited, and to whom -/
  credits : List (Nat × Nat)
  /-- what agents' wallets were charged for codes -/
  charges : List (Nat × Int)
  refunds : List Refund

inductive RedemptionAct where
  /-- `AddRedemption` -/
  | add (creatorId : Nat) (role : Int) (req : AddRedemptionRequest) (now : Int)
      (codes : List (Nat × String))
  | redeem (key : String) (userId : Nat) (now : Int)
  /-- `UpdateRedemption`, up to its write -/
  | editRead (id : Nat) (edit : RedemptionEdit) (now : Int)
  /-- ... and its write -/
  | editWrite (i : Nat)
  /-- `DeleteRedemptionsByIds` -/
  | deleteByIds (ids : List Nat)
  /-- `DeleteInvalidRedemptions`, its read -/
  | readInvalid (now : Int)
  /-- ... and what it does with the rows -/
  | deleteInvalid (i : Nat)
  /-- `BatchDeleteRedemptions` -/
  | batchDelete (ids : List Nat)
  /-- an administrator changes a user's settings -/
  | configure (id : Nat) (role : Int) (isAgent : Bool) (agentDiscount : Int)
  /-- anything else that moves a wallet -/
  | moveWallet (id : Nat) (delta : Int)
deriving DecidableEq, Repr

namespace RedemptionSystem

/-- Codes nobody has touched yet. -/
def start (db : RedemptionDB) : RedemptionSystem := ⟨db, [], [], [], [], []⟩

/-- The wallet was charged for codes, if it was. -/
def charged (s : RedemptionSystem) (userId : Nat) (charge : Int) : List (Nat × Int) :=
  if 0 < charge then (userId, charge) :: s.charges else s.charges

def step (s : RedemptionSystem) : RedemptionAct → Option RedemptionSystem
  | .add creatorId role req now codes =>
    match addRedemptionCharge s.db creatorId role req now with
    | none => none
    | some charge =>
      match s.db.createRedemptionsWithWalletCharge creatorId req charge now codes with
      | none => none
      | some db => some { s with db := db, charges := s.charged creatorId charge }
  | .redeem key userId now =>
    match s.db.redeem key userId now with
    | none => none
    | some (r, db) => some { s with db := db, credits := (r.id, userId) :: s.credits }
  | .editRead id edit now =>
    match s.db.readForUpdate id edit now with
    | none => none
    | some copy => some { s with edits := s.edits ++ [copy] }
  | .editWrite i =>
    match s.edits[i]? with
    | none => none
    | some copy => some { s with db := s.db.update copy, edits := s.edits.eraseIdx i }
  | .deleteByIds ids =>
    let (refunds, db) := s.db.deleteRows (s.db.rowsByIds ids)
    some { s with db := db, refunds := refunds ++ s.refunds }
  | .readInvalid now => some { s with sweeps := s.sweeps ++ [s.db.invalidRows now] }
  | .deleteInvalid i =>
    match s.sweeps[i]? with
    | none => none
    | some rows =>
      let (refunds, db) := s.db.deleteRows rows
      some { s with
        db := db
        sweeps := s.sweeps.eraseIdx i
        refunds := refunds ++ s.refunds }
  | .batchDelete ids => some { s with db := s.db.softDelete ids }
  | .configure id role isAgent agentDiscount =>
    some { s with db := { s.db with
      users := (s.db.users.update id (fun _ => true) fun user =>
        { user with role := role, isAgent := isAgent, agentDiscount := agentDiscount }).2 } }
  | .moveWallet id delta =>
    some { s with db := { s.db with
      users := (s.db.users.update id (fun _ => true) fun user =>
        { user with quota := user.quota + delta }).2 } }

def creditCount (s : RedemptionSystem) (code : Nat) : Nat :=
  s.credits.countP fun c => c.1 = code

def refundsFor (s : RedemptionSystem) (code : Nat) : List Refund :=
  s.refunds.filter fun r => r.code = code

/-- What an agent's wallet was charged for codes. -/
def totalCharged (s : RedemptionSystem) (agent : Nat) : Int :=
  (s.charges.map fun c => if c.1 = agent then c.2 else 0).sum

def totalRefunded (s : RedemptionSystem) (agent : Nat) : Int :=
  (s.refunds.map fun r => if r.agent = agent then r.amount else 0).sum

end RedemptionSystem

end JulongApi

/-
The batch updater of `model/utils.go`.

With batch updates on, a change of a counter is not written but added to a map of its
type, `addNewRecord`, and a goroutine writes the maps out every few seconds,
`batchUpdate`.  The flush takes one map after the other, each under its own lock, and
then writes one row after the other; requests go on adding records all the while.  So
the system is the maps, what the flush has taken and not yet written, and the tables,
and an action is one locked section or one statement.

A statement that fails is logged and forgotten; whether it does is part of the action.
Which row of a map comes next is the runtime's choice, so the action names it.
-/
import JulongApi.Lib.Machine
import JulongApi.Lib.Table
import JulongApi.Subscription

namespace JulongApi

/-! ### The maps -/

/-- `BatchUpdateTypeUserQuota` to `BatchUpdateTypeRequestCount`. -/
inductive BatchUpdateType where
  | userQuota
  | tokenQuota
  | usedQuota
  | channelUsedQuota
  | requestCount
deriving DecidableEq, Repr

/-- The types in the order `batchUpdate` goes through them. -/
def BatchUpdateType.all : List BatchUpdateType :=
  [.userQuota, .tokenQuota, .usedQuota, .channelUsedQuota, .requestCount]

/-- A map from ids to pending deltas. -/
abbrev BatchStore := Table (Prod.fst : Nat × Int → Nat)

namespace BatchStore

def empty : BatchStore := ⟨[], List.nodup_nil⟩

/-- Indexing a Go map: `0` where there is no entry. -/
def get (store : BatchStore) (id : Nat) : Int := ((store.find id).map Prod.snd).getD 0

/-- `math.MaxInt` and `math.MinInt`. -/
def maxInt : Int := 2 ^ 63 - 1

def minInt : Int := -2 ^ 63

/-- `addNewRecord` on the map of its type: a sum that would wrap is cut off instead. -/
def addNewRecord (store : BatchStore) (id : Nat) (value : Int) : BatchStore :=
  match store.find id with
  | none => store.put (id, value)
  | some (_, old) =>
    let sum := wrapInt64 (old + value)
    if (0 < value ∧ sum < old) ∨ (value < 0 ∧ old < sum) then
      store.put (id, if 0 < value then maxInt else minInt)
    else store.put (id, sum)

end BatchStore

/-! ### The rows a flush writes -/

structure UserColumns where
  id : Nat
  quota : Int
  usedQuota : Int
  requestCount : Int
deriving DecidableEq, Repr

structure TokenColumns where
  id : Nat
  remainQuota : Int
  usedQuota : Int
deriving DecidableEq, Repr

structure ChannelColumns where
  id : Nat
  usedQuota : Int
deriving DecidableEq, Repr

structure BatchDB where
  users : Table UserColumns.id
  tokens : Table TokenColumns.id
  channels : Table ChannelColumns.id

namespace BatchDB

/-- `increaseTokenQuota`; its error is only logged by the flush. -/
def increaseTokenQuota (db : BatchDB) (dbOk : Bool) (id : Nat) (quota : Int) : BatchDB :=
  if dbOk then
    { db with tokens := (db.tokens.update id (fun _ => true) fun row =>
        { row with remainQuota := row.remainQuota + quota
                   usedQuota := row.usedQuota - quota }).2 }
  else db

def updateChannelUsedQuota (db : BatchDB) (dbOk : Bool) (id : Nat) (quota : Int) : BatchDB :=
  if dbOk then
    { db with channels := (db.channels.update id (fun _ => true) fun row =>
        { row with usedQuota := row.usedQuota + quota }).2 }
  else db

/-- `updateUserQuotaUsedQuotaAndRequestCount`: three columns in one statement. -/
def updateUserQuotaUsedQuotaAndRequestCount (db : BatchDB) (dbOk : Bool) (id : Nat)
    (quota usedQuota requestCount : Int) : BatchDB :=
  if quota = 0 ∧ usedQuota = 0 ∧ requestCount = 0 then db
  else if dbOk then
    { db with users := (db.users.update id (fun _ => true) fun row =>
        { row with quota := row.quota + quota
                   usedQuota := row.usedQuota + usedQuota
                   requestCount := row.requestCount + requestCount }).2 }
  else db

/-- The column a type of record is meant for; `none` when there is no such row. -/
def stored (db : BatchDB) (type : BatchUpdateType) (id : Nat) : Option Int :=
  match type with
  | .userQuota => (db.users.find id).map (·.quota)
  | .tokenQuota => (db.tokens.find id).map (·.remainQuota)
  | .usedQuota => (db.users.find id).map (·.usedQuota)
  | .channelUsedQuota => (db.channels.find id).map (·.usedQuota)
  | .requestCount => (db.users.find id).map (·.requestCount)

end BatchDB

/-! ### The updater at work -/

/-- A run of `batchUpdate`: the maps it has yet to take, what it took and has yet to write. -/
structure Flush where
  left : List BatchUpdateType
  taken : BatchUpdateType → BatchStore

structure BatchSystem where
  stores : BatchUpdateType → BatchStore
  flush : Option Flush
  db : BatchDB

inductive BatchAct where
  | addNewRecord (type : BatchUpdateType) (id : Nat) (value : Int)
  /-- the check for data that `batchUpdate` begins with -/
  | begin
  /-- the next map is taken and an empty one put in its place -/
  | swap
  | writeToken (id : Nat) (dbOk : Bool)
  | writeChannel (id : Nat) (dbOk : Bool)
  | writeUser (id : Nat) (dbOk : Bool)
  /-- `batchUpdate` returns -/
  | finish
deriving DecidableEq, Repr

namespace Flush

/-- Nothing of this type is left to write. -/
def written (f : Flush) (type : BatchUpdateType) : Bool := (f.taken type).rows.isEmpty

/-- `userIDs` holds the id. -/
def hasUser (f : Flush) (id : Nat) : Bool :=
  [.userQuota, .usedQuota, .requestCount].any fun type => ((f.taken type).find id).isSome

/-- The entries under `id` of the given types have been dealt with. -/
def drop (f : Flush) (types : List BatchUpdateType) (id : Nat) : Flush :=
  { f with taken := fun type =>
      if type ∈ types then (f.taken type).erase id else f.taken type }

end Flush

namespace BatchSystem

def idle (db : BatchDB) : BatchSystem := ⟨fun _ => .empty, none, db⟩

def hasData (s : BatchSystem) : Bool :=
  BatchUpdateType.all.any fun type => !(s.stores type).rows.isEmpty

/-- A flush that has yet to take all five maps. -/
def take (s : BatchSystem) : BatchSystem :=
  { s with flush := some ⟨BatchUpdateType.all, fun _ => .empty⟩ }

def step (s : BatchSystem) : BatchAct → Option BatchSystem
  | .addNewRecord type id value =>
    some { s with
      stores := Function.update s.stores type ((s.stores type).addNewRecord id value) }
  | .begin =>
    -- the five maps are looked at one by one, but none loses an entry meanwhile
    match s.flush with
    | none => some (if s.hasData then s.take else s)
    | some _ => none
  | .swap =>
    match s.flush with
    | some ⟨type :: left, taken⟩ =>
      some { s with
        stores := Function.update s.stores type .empty
        flush := some ⟨left, Function.update taken type (s.stores type)⟩ }
    | _ => none
  | .writeToken id dbOk =>
    match s.flush with
    | some f =>
      if f.left = [] ∧ ((f.taken .tokenQuota).find id).isSome then
        some { s with
          db := s.db.increaseTokenQuota dbOk id ((f.taken .tokenQuota).get id)
          flush := some (f.drop [.tokenQuota] id) }
      else none
    | none => none
  | .writeChannel id dbOk =>
    match s.flush with
    | some f =>
      if f.left = [] ∧ f.written .tokenQuota ∧
          ((f.taken .channelUsedQuota).find id).isSome then
        some { s with
          db := s.db.updateChannelUsedQuota dbOk id ((f.taken .channelUsedQuota).get id)
          flush := some (f.drop [.channelUsedQuota] id) }
      else none
    | none => none
  | .writeUser id dbOk =>
    match s.flush with
    | some f =>
      if f.left = [] ∧ f.written .tokenQuota ∧ f.written .channelUsedQuota ∧
          f.hasUser id then
        some { s with
          db := s.db.updateUserQuotaUsedQuotaAndRequestCount dbOk id
            ((f.taken .userQuota).get id) ((f.taken .usedQuota).get id)
            ((f.taken .requestCount).get id)
          flush := some (f.drop [.userQuota, .usedQuota, .requestCount] id) }
      else none
    | none => none
  | .finish =>
    match s.flush with
    | some f =>
      if f.left = [] ∧ BatchUpdateType.all.all f.written then some { s with flush := none }
      else none
    | none => none

/-- The delta the updater still owes a column: in the map, or taken and not written. -/
def pending (s : BatchSystem) (type : BatchUpdateType) (id : Nat) : Int :=
  (s.stores type).get id + match s.flush with
    | some f => (f.taken type).get id
    | none => 0

/-- What a call of `addNewRecord` records for a column; nothing for any other action. -/
def recorded (type : BatchUpdateType) (id : Nat) : BatchAct → Int
  | .addNewRecord type' id' value => if type' = type ∧ id' = id then value else 0
  | _ => 0

end BatchSystem

end JulongApi

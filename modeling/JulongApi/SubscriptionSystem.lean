/-
Many callers at once on the subscription tables.

A call of `model/subscription.go` is one transaction or two, and the database runs
transactions one after another on the rows they lock.  What can come between two steps
of one call is everything else, so the calls are cut where that matters:
`PreConsumeUserSubscription` between its first lookup and the part under the row locks,
and `RefundSubscriptionPreConsume` between the nested transaction, which commits on its
own, and the commit of the outer one.

A run is a list of actions.  Which caller moves next, how the clock stands and which
statement fails are all in the action.  `charges` and `returned` are the history of the
system: what was put on a subscription, and what callers were told.
-/
import JulongApi.Lib.Machine
import JulongApi.Subscription

namespace JulongApi

/-- A charge that was put on a subscription. -/
structure Charge where
  requestId : String
  userSubscriptionId : Nat
  amount : Int
deriving DecidableEq, Repr

/-- A call that came back with a result. -/
structure Returned where
  requestId : String
  result : SubscriptionPreConsumeResult
deriving DecidableEq, Repr

structure SubscriptionSystem where
  db : SubscriptionDB
  /-- pre-consumes whose first lookup found no record -/
  waiting : List PreConsumeArgs
  /-- refunds whose nested transaction has committed, with the record they hold -/
  refunding : List SubscriptionPreConsumeRecord
  charges : List Charge
  returned : List Returned

inductive SubscriptionAct where
  /-- a call of `PreConsumeUserSubscription`, up to its first lookup -/
  | lookup (args : PreConsumeArgs)
  /-- the rest of the call of the `i`-th waiting caller -/
  | locked (i : Nat) (dupVisible : Bool) (tx : TxReply)
  /-- `PostConsumeUserSubscriptionDelta` -/
  | postConsume (tx : TxReply) (userSubscriptionId : Nat) (delta : Int)
  /-- `RefundSubscriptionPreConsume`, through its nested transaction -/
  | refundInner (f : RefundFaults) (requestId : String)
  /-- the end of the `i`-th refund -/
  | refundOuter (i : Nat) (f : RefundFaults)
  /-- `ResetDueSubscriptions` on one row -/
  | reset (id : Nat) (now : Int)
deriving DecidableEq, Repr

namespace SubscriptionSystem

def idle (db : SubscriptionDB) : SubscriptionSystem := ⟨db, [], [], [], []⟩

/-- A caller was given a result. -/
def answer (s : SubscriptionSystem) (requestId : String) (res : SubscriptionPreConsumeResult) :
    SubscriptionSystem :=
  { s with returned := ⟨requestId, res⟩ :: s.returned }

/-- The first lookup of a call. -/
def lookup (s : SubscriptionSystem) (args : PreConsumeArgs) : SubscriptionSystem :=
  match args.check with
  | some _ => s
  | none =>
    match s.db.records.find args.requestId with
    | none => { s with waiting := args :: s.waiting }
    | some existing =>
      match preConsumeExisting s.db existing with
      | .error _ => s
      | .ok res => s.answer args.requestId res

/--
The part under the row locks.  A call that charged tells so in its result: the amount
used is another after it than before.
-/
def locked (env : SubscriptionEnv) (s : SubscriptionSystem) (args : PreConsumeArgs)
    (dupVisible : Bool) (tx : TxReply) : SubscriptionSystem :=
  match tx with
  | some _ => s
  | none =>
    match preConsumeLocked env args dupVisible s.db with
    | (.error _, _) => s
    | (.ok res, db) =>
      if res.amountUsedAfter = res.amountUsedBefore then
        { s with db := db }.answer args.requestId res
      else
        { s with
          db := db
          charges := ⟨args.requestId, res.userSubscriptionId, args.amount⟩ ::
            s.charges }.answer args.requestId res

/-- A refund up to the commit of its nested transaction. -/
def refundInner (s : SubscriptionSystem) (f : RefundFaults) (requestId : String) :
    SubscriptionSystem :=
  if isBlank requestId then s
  else
    match f.lock with
    | some _ => s
    | .none =>
      match s.db.records.find requestId with
      | .none => s
      | some record =>
        if record.status = .refunded then s
        else if record.preConsumed ≤ 0 then { s with refunding := record :: s.refunding }
        else
          match postConsumeUserSubscriptionDelta f.nested s.db record.userSubscriptionId
              (-record.preConsumed) with
          | (.error _, _) => s
          | (.ok (), db) => { s with db := db, refunding := record :: s.refunding }

def step (env : SubscriptionEnv) (s : SubscriptionSystem) :
    SubscriptionAct → Option SubscriptionSystem
  | .lookup args => some (s.lookup args)
  | .locked i dupVisible tx =>
    match s.waiting[i]? with
    | none => none
    | some args =>
      some ({ s with waiting := s.waiting.eraseIdx i }.locked env args dupVisible tx)
  | .postConsume tx id delta =>
    some { s with db := (postConsumeUserSubscriptionDelta tx s.db id delta).2 }
  | .refundInner f requestId =>
    -- the record is locked while another refund of it is under way
    if s.refunding.any fun record => record.requestId == requestId then none
    else some (s.refundInner f requestId)
  | .refundOuter i f =>
    match s.refunding[i]? with
    | none => none
    | some record =>
      some { s with
        refunding := s.refunding.eraseIdx i
        db := (markRefunded f record s.db).2 }
  | .reset id now => some { s with db := resetDueSubscription env s.db id now }

end SubscriptionSystem

end JulongApi

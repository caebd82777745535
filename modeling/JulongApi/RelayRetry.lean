/-
The retry loop of a relayed request: `RetryParam` and `CacheGetRandomSatisfiedChannel` of
`service/channel_select.go`, and the loop of `Relay` with its `getChannel` in
`controller/relay.go`.

What the channel table answers is part of an attempt, and so are what the attempt comes to and
what is decided of a retry.  Logging, the request policy and the texts of errors are left out.
-/
import JulongApi.ChannelCache

namespace JulongApi.Relay

open Channels

/-! ### The parameters of a retry -/

structure RetryParam where
  tokenGroup : String
  modelName : String
  retry : Option Nat
  resetNextTry : Bool
deriving DecidableEq, Repr

def RetryParam.getRetry (p : RetryParam) : Nat := p.retry.getD 0

def RetryParam.setRetry (p : RetryParam) (retry : Nat) : RetryParam :=
  { p with retry := some retry }

def RetryParam.increaseRetry (p : RetryParam) : RetryParam :=
  if p.resetNextTry then { p with resetNextTry := false }
  else { p with retry := some (p.getRetry + 1) }

def RetryParam.resetRetryNextTry (p : RetryParam) : RetryParam := { p with resetNextTry := true }

/-- What selection reads from the request context, and what it keeps there. -/
structure RequestContext where
  /-- `GetRequestAutoGroups` -/
  autoGroups : List String
  crossGroupRetry : Bool
  filters : List ChannelFilter
  autoGroup : Option String
  autoGroupIndex : Option Nat
  autoGroupRetryIndex : Option Nat
deriving DecidableEq, Repr

/-! ### Selection -/

/-- The answers of `model.GetRandomSatisfiedChannel` during an attempt, by the position of the
group that is asked for.  The database may answer with a channel and an error both. -/
abbrev Selection :=
  Nat → String → String → Nat → List ChannelFilter → Option Channel × Option SelectError

inductive SelectionError where
  /-- `auto groups is not enabled` -/
  | autoGroupsNotEnabled
  | select (err : SelectError)
deriving DecidableEq, Repr

/-- What `CacheGetRandomSatisfiedChannel` returns, and what it leaves behind. -/
structure Selected where
  channel : Option Channel
  selectGroup : String
  err : Option SelectionError
  param : RetryParam
  ctx : RequestContext

/-- The loop over the auto groups, from position `i` on. -/
def selectAutoGroup (retryTimes : Nat) (select : Selection) (startGroupIndex : Nat)
    (param : RetryParam) (ctx : RequestContext) : Nat → List String → Selected
  | _, [] => ⟨none, param.tokenGroup, none, param, ctx⟩
  | i, autoGroup :: rest =>
    let priorityRetry := if i > startGroupIndex then 0 else param.getRetry
    match (select i autoGroup param.modelName priorityRetry ctx.filters).1 with
    | none =>
      selectAutoGroup retryTimes select startGroupIndex (param.setRetry 0)
        { ctx with autoGroupIndex := some (i + 1), autoGroupRetryIndex := some 0 } (i + 1) rest
    | some channel =>
      let ctx := { ctx with autoGroup := some autoGroup }
      if ctx.crossGroupRetry ∧ priorityRetry ≥ retryTimes then
        ⟨some channel, autoGroup, none, (param.setRetry 0).resetRetryNextTry,
          { ctx with autoGroupIndex := some (i + 1) }⟩
      else ⟨some channel, autoGroup, none, param, { ctx with autoGroupIndex := some i }⟩

def cacheGetRandomSatisfiedChannel (retryTimes : Nat) (select : Selection) (param : RetryParam)
    (ctx : RequestContext) : Selected :=
  if param.tokenGroup = "auto" then
    if ctx.autoGroups.isEmpty then
      ⟨none, param.tokenGroup, some .autoGroupsNotEnabled, param, ctx⟩
    else
      let startGroupIndex := ctx.autoGroupIndex.getD 0
      selectAutoGroup retryTimes select startGroupIndex param ctx startGroupIndex
        (ctx.autoGroups.drop startGroupIndex)
  else
    match select 0 param.tokenGroup param.modelName param.getRetry ctx.filters with
    | (_, some err) => ⟨none, param.tokenGroup, some (.select err), param, ctx⟩
    | (channel, none) => ⟨channel, param.tokenGroup, none, param, ctx⟩

/-! ### The loop -/

/-- How an attempt goes on once a channel is there. -/
inductive Outcome where
  /-- `HandleGroupRatio` or `SetupContextForSelectedChannel` fails -/
  | setupFailed
  /-- billing for the group fails, or the body cannot be read -/
  | notSent
  | success
  /-- the channel fails, and the decision is to retry or not -/
  | failed (retry : Bool)
deriving DecidableEq, Repr

structure Attempt where
  select : Selection
  /-- whether the handler has got as far as `InitChannelMeta` -/
  initChannelMeta : Bool
  outcome : Outcome

structure RelayLoop where
  param : RetryParam
  ctx : RequestContext
  /-- whether `info.ChannelMeta` is set -/
  channelMeta : Bool
  /-- the selections that have returned a channel, with their groups -/
  selections : List (String × Channel)
  stopped : Bool

/-- `getChannel`, and whether there is a channel to send to: that of the context the first time,
and a selected one from then on. -/
def RelayLoop.getChannel (retryTimes : Nat) (s : RelayLoop) (a : Attempt) : Bool × RelayLoop :=
  if s.channelMeta = false then (true, s)
  else
    let selected := cacheGetRandomSatisfiedChannel retryTimes a.select s.param s.ctx
    let s := { s with param := selected.param, ctx := selected.ctx }
    match selected.channel with
    | none => (false, s)
    | some channel =>
      (a.outcome ≠ .setupFailed,
        { s with selections := s.selections ++ [(selected.selectGroup, channel)] })

def RelayLoop.step (retryTimes : Nat) (s : RelayLoop) (a : Attempt) : Option RelayLoop :=
  if s.stopped ∨ retryTimes < s.param.getRetry then none
  else
    match s.getChannel retryTimes a with
    | (false, s) => some { s with stopped := true }
    | (true, s) =>
      let s := { s with channelMeta := s.channelMeta || a.initChannelMeta }
      match a.outcome with
      | .failed true => some { s with param := s.param.increaseRetry }
      | _ => some { s with stopped := true }

/-- The loop as `Relay` enters it. -/
def RelayLoop.start (tokenGroup modelName : String) (ctx : RequestContext) : RelayLoop where
  param := ⟨tokenGroup, modelName, some 0, false⟩
  ctx := ctx
  channelMeta := false
  selections := []
  stopped := false

end JulongApi.Relay

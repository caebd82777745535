/-
Midjourney tasks: `model/midjourney.go`, `service/midjourney.go`, the polling pass of
`controller/midjourney.go` and the handlers of `relay/mjproxy_handler.go`.

A submission calls upstream, prepares the task's billing, inserts the task and then
charges: the wallet, the token, the task's billing columns, and the two `used_quota`
statistics, one statement after the other.  Passes poll upstream for whatever is not at
`100%` and work on copies of the rows they have read.  Upstream may also notify, which
reads a row and writes it back whole.  Every statement is an action of its own, so
submissions, passes and notifications interleave in every way.

The stores do not fail.  What is left to chance is upstream: what it answers to a
submission, which items it lists, what it notifies.  A task's status and progress are
texts that upstream chooses, so they stay texts.  The look at the wallet before a
submission only turns requests away and is left out, and so are logs.
-/
import JulongApi.Lib.Machine
import JulongApi.Lib.Table
import JulongApi.TaskBilling

namespace JulongApi

/-! ### Rows, answers, settings -/

structure Midjourney where
  id : Nat
  code : Int
  userId : Nat
  action : String
  mjId : String
  prompt : String
  promptEn : String
  description : String
  state : String
  submitTime : Int
  startTime : Int
  finishTime : Int
  imageUrl : String
  videoUrl : String
  videoUrls : String
  status : String
  progress : String
  failReason : String
  channelId : Nat
  quota : Int
  buttons : String
  properties : String
  tokenId : Nat
  billingChannelId : Nat
deriving DecidableEq, Repr

/-- The fields of `dto.MidjourneyDto` that are read; what is `nil` is `none`. -/
structure MidjourneyDto where
  mjId : String
  promptEn : String
  state : String
  submitTime : Int
  startTime : Int
  finishTime : Int
  imageUrl : String
  videoUrl : String
  videoUrls : Option (List String)
  status : String
  progress : String
  failReason : String
  /-- as `common.Marshal` writes them -/
  buttons : Option String
  properties : Option String
deriving DecidableEq, Repr

structure MjEnv where
  quota : QuotaConfig
  /-- `RowsAffected` counts a matched row that keeps its values; MySQL does not -/
  countsUnchangedRows : Bool
  /-- `common.Marshal` of a list of URLs -/
  marshalUrls : Option (List String) → String

/-- The fields of `RelayInfo` that Midjourney billing reads. -/
structure MjRelayInfo where
  userId : Nat
  tokenId : Nat
  isPlayground : Bool
  billingSource : Option BillingSource
  /-- `0` without `ChannelMeta` -/
  channelId : Nat
deriving DecidableEq, Repr

def storesUp : QuotaReply := ⟨none, false, none, true⟩

namespace Midjourney

/-- The task is finished: no pass will load it. -/
def finished (task : Midjourney) : Bool := task.progress == "100%"

/-- Finished, with status `FAILURE`. -/
def finishedFailure (task : Midjourney) : Bool := task.finished && task.status == "FAILURE"

def getBillingChannelId (task : Midjourney) : Nat :=
  if 0 < task.billingChannelId then task.billingChannelId else task.channelId

end Midjourney

/-! ### Submission -/

/-- `properties` of a response with code 21; a value that is not a string is `none`. -/
structure MjExisting where
  imageUrl : Option String
  status : Option String
deriving DecidableEq, Repr

/-- What upstream answers to a submission. -/
structure MjResponse where
  statusCode : Nat
  code : Int
  description : String
  result : String
  properties : Option MjExisting
deriving DecidableEq, Repr

/-- The two handlers that submit, with what they take from the request and the clock. -/
inductive MjHandler where
  /-- `RelaySwapFace` -/
  | swapFace (submitTime now : Int)
  /-- `RelayMidjourneySubmit` -/
  | submit (action prompt : String) (now : Int)
deriving DecidableEq, Repr

/-- The row literal of `RelaySwapFace`. -/
def swapFaceTask (info : MjRelayInfo) (r : MjResponse) (channelId : Nat) (submitTime now : Int) :
    Midjourney where
  id := 0
  code := r.code
  userId := info.userId
  action := "SWAP_FACE"
  mjId := r.result
  prompt := "InsightFace"
  promptEn := ""
  description := r.description
  state := ""
  submitTime := submitTime
  startTime := now
  finishTime := 0
  imageUrl := ""
  videoUrl := ""
  videoUrls := ""
  status := ""
  progress := "0%"
  failReason := ""
  channelId := channelId
  quota := 0
  buttons := ""
  properties := ""
  tokenId := 0
  billingChannelId := 0

/-- The row literal of `RelayMidjourneySubmit`, with the reason of a response that is an error. -/
def submittedTask (info : MjRelayInfo) (r : MjResponse) (channelId : Nat) (action prompt : String)
    (now : Int) : Midjourney :=
  { swapFaceTask info r channelId now 0 with
    action := action
    prompt := prompt
    failReason := if r.code ≠ 1 ∧ r.code ≠ 21 ∧ r.code ≠ 22 then r.description else "" }

/-- Code 21, the task exists: its picture and status, and the code the handler goes on with. -/
def existingTask (r : MjResponse) (now : Int) (task : Midjourney) : Int × Midjourney :=
  match r.properties with
  | some ⟨some imageUrl, some status⟩ =>
    if r.code = 21 then
      if status = "SUCCESS" then
        (1, { task with
          imageUrl := imageUrl
          status := status
          progress := "100%"
          startTime := now
          finishTime := now })
      else (r.code, { task with imageUrl := imageUrl, status := status })
    else (r.code, task)
  | _ => (r.code, task)

/-- An upload is finished with its submission. -/
def uploadedTask (action : String) : Int × Midjourney → Midjourney
  | (code, task) =>
    if code = 1 ∧ action = "UPLOAD" then { task with progress := "100%", status := "SUCCESS" }
    else task

/-- The task a handler builds, and whether it should be billed. -/
def MjHandler.task (info : MjRelayInfo) (r : MjResponse) (channelId : Nat) :
    MjHandler → Midjourney × Bool
  | .swapFace submitTime now =>
    (swapFaceTask info r channelId submitTime now, decide (r.statusCode = 200 ∧ r.code = 1))
  | .submit action prompt now =>
    let task := submittedTask info r channelId action prompt now
    let consumeQuota := decide (action ≠ "INPAINT" ∧ action ≠ "CUSTOM_ZOOM" ∧
      (r.code = 1 ∨ r.code = 21 ∨ r.code = 22))
    (uploadedTask action (existingTask r now task), consumeQuota && decide (r.statusCode = 200))

inductive MjBillingError where
  /-- `quota cannot be negative` -/
  | quotaNegative
  /-- `legacy Midjourney billing does not support subscriptions` -/
  | subscription
deriving DecidableEq, Repr

def prepareMidjourneyTaskBilling (info : MjRelayInfo) (task : Midjourney) (quota : Int)
    (shouldBill : Bool) : Except MjBillingError Bool × Midjourney :=
  let task := { task with quota := 0, tokenId := 0, billingChannelId := 0 }
  if shouldBill = false then (.ok false, task)
  else if quota < 0 then (.error .quotaNegative, task)
  else if info.billingSource = some .subscription then (.error .subscription, task)
  else
    (.ok true, { task with
      quota := quota
      billingChannelId := if 0 < info.channelId then info.channelId else task.channelId })

/-- Where a settlement stands: the statement it makes next. -/
inductive MjStage where
  | wallet
  | token
  /-- `UpdateBillingState` after a charge, and whether the token was charged -/
  | mark (tokenApplied : Bool)
  /-- `UpdateBillingState` after a charge that failed -/
  | clear
  | userUsed
  | channelUsed
  | done
deriving DecidableEq, Repr

structure MjSubmission where
  info : MjRelayInfo
  task : Midjourney
  stage : MjStage
deriving DecidableEq, Repr

/-- A handler up to its insert; an error in the preparation is only logged. -/
def MjHandler.submission (info : MjRelayInfo) (handler : MjHandler) (r : MjResponse)
    (channelId : Nat) (quota : Int) (id : Nat) : MjSubmission :=
  let (task, shouldBill) := handler.task info r channelId
  match prepareMidjourneyTaskBilling info task quota shouldBill with
  | (.ok true, task) => ⟨info, { task with id := id }, .wallet⟩
  | (_, task) => ⟨info, { task with id := id }, .done⟩

/-! ### Polling -/

/-- The tasks of one channel, in `taskChannelM`. -/
structure MjChannelTasks where
  channelId : Nat
  mjIds : List String
deriving DecidableEq, Repr

/-- A polling pass: what it has loaded, and what it has yet to do. -/
structure MjPass where
  nullTaskIds : List Nat
  taskM : Table Midjourney.mjId
  taskChannelM : Table MjChannelTasks.channelId
  /-- the answer of the channel at hand -/
  responseItems : List MidjourneyDto
  /-- a task whose update was won and whose quota is about to be returned -/
  returning : Option Midjourney

namespace MjPass

def empty : MjPass := ⟨[], ⟨[], by simp⟩, ⟨[], by simp⟩, [], none⟩

/-- The ids listed for a channel so far. -/
def mjIds (p : MjPass) (channelId : Nat) : List String :=
  ((p.taskChannelM.find channelId).map (·.mjIds)).getD []

/-- The loop body that sorts the loaded tasks; a later task takes the place of an earlier one. -/
def add (p : MjPass) (task : Midjourney) : MjPass :=
  if task.mjId = "" then { p with nullTaskIds := p.nullTaskIds ++ [task.id] }
  else
    { p with
      taskM := p.taskM.put task
      taskChannelM := p.taskChannelM.put
        ⟨task.channelId, p.mjIds task.channelId ++ [task.mjId]⟩ }

def load (tasks : List Midjourney) : MjPass := tasks.foldl add empty

end MjPass

/-- `GetAllUnFinishTasks`; the table holds its newest row first. -/
def getAllUnFinishTasks (rows : Table Midjourney.id) : List Midjourney :=
  (rows.rows.filter fun task => !task.finished).reverse

/-- `GetByOnlyMJId`: the first of them. -/
def getByOnlyMJId (rows : Table Midjourney.id) (mjId : String) : Option Midjourney :=
  (rows.rows.filter fun task => task.mjId = mjId).argmin Midjourney.id

/-- What a pass learns about a channel's tasks. -/
inductive MjChannelReply where
  /-- `CacheGetChannel` does not find the channel -/
  | gone
  /-- the request failed, or its body did not parse -/
  | unreachable
  | items (responseItems : List MidjourneyDto)
deriving DecidableEq, Repr

/-- A task that has taken over an hour has failed. -/
def timedOut (task : Midjourney) (item : MidjourneyDto) (now : Int) : MidjourneyDto :=
  if 3600000 < now - task.submitTime ∧ task.progress ≠ "100%" then
    { item with failReason := "Upstream task timed out (over 1 hour)", status := "FAILURE" }
  else item

/-- The comparison of `VideoUrls` in `checkMjTaskNeedUpdate`. -/
def videoUrlsNeedUpdate (env : MjEnv) (task : Midjourney) (item : MidjourneyDto) : Bool :=
  match item.videoUrls with
  | some (_ :: _) => decide (task.videoUrls ≠ env.marshalUrls item.videoUrls)
  | _ => decide (task.videoUrls ≠ "")

def checkMjTaskNeedUpdate (env : MjEnv) (task : Midjourney) (item : MidjourneyDto) : Bool :=
  decide (task.code ≠ 1 ∨ task.progress ≠ item.progress ∨ task.promptEn ≠ item.promptEn ∨
    task.state ≠ item.state ∨ task.submitTime ≠ item.submitTime ∨
    task.startTime ≠ item.startTime ∨ task.finishTime ≠ item.finishTime ∨
    task.imageUrl ≠ item.imageUrl ∨ task.status ≠ item.status ∨
    task.failReason ≠ item.failReason ∨ (task.progress ≠ "100%" ∧ item.failReason ≠ "") ∨
    task.videoUrl ≠ item.videoUrl) || videoUrlsNeedUpdate env task item

/-- The copy with what upstream reports of it. -/
def Midjourney.answered (env : MjEnv) (task : Midjourney) (item : MidjourneyDto) : Midjourney :=
  { task with
    code := 1
    progress := item.progress
    promptEn := item.promptEn
    state := item.state
    submitTime := item.submitTime
    startTime := item.startTime
    finishTime := item.finishTime
    imageUrl := item.imageUrl
    status := item.status
    failReason := item.failReason
    properties := item.properties.getD task.properties
    buttons := item.buttons.getD task.buttons
    videoUrl := item.videoUrl
    videoUrls := match item.videoUrls with
      | some (_ :: _) => env.marshalUrls item.videoUrls
      | _ => "" }

/-- The answer is a failure: a reason before the end, or `FAILURE` at the end. -/
def MidjourneyDto.failed (item : MidjourneyDto) : Bool :=
  decide ((item.progress ≠ "100%" ∧ item.failReason ≠ "") ∨
    (item.progress = "100%" ∧ item.status = "FAILURE"))

/-- The copy as it is written: one that failed is at `100%`. -/
def Midjourney.polled (env : MjEnv) (task : Midjourney) (item : MidjourneyDto) : Midjourney :=
  if item.failed then { task.answered env item with progress := "100%" }
  else task.answered env item

/-- A conditional update of `row` to `copy` counts as won. -/
def updateWins (env : MjEnv) (row copy : Midjourney) (fromStatus : String) : Bool :=
  row.status == fromStatus && (env.countsUnchangedRows || row != copy)

/-- `UpdateWithStatus`: the whole row, where the status is still `fromStatus`. -/
def updateWithStatus (env : MjEnv) (rows : Table Midjourney.id) (copy : Midjourney)
    (fromStatus : String) : Bool × Table Midjourney.id :=
  match rows.find copy.id with
  | none => (false, rows)
  | some row =>
    (updateWins env row copy fromStatus,
      if row.status = fromStatus then rows.save copy else rows)

/-- One response item: the pass and the table after it. -/
def pollItem (env : MjEnv) (rows : Table Midjourney.id) (p : MjPass) (item : MidjourneyDto)
    (now : Int) : MjPass × Table Midjourney.id :=
  match p.taskM.find item.mjId with
  | none => (p, rows)
  | some task =>
    let item := timedOut task item now
    if checkMjTaskNeedUpdate env task item = false then (p, rows)
    else
      let copy := task.polled env item
      let (won, rows) := updateWithStatus env rows copy task.status
      ({ p with
        taskM := p.taskM.save copy
        returning := if won && item.failed && copy.quota != 0 then some copy else none }, rows)

/-! ### Bulk updates and notifications -/

/-- `MjBulkUpdateByTaskIds` and `MjBulkUpdate`: the rows that match are failed. -/
def mjBulkUpdate (rows : Table Midjourney.id) (hit : Midjourney → Bool)
    (failReason : Option String) : Table Midjourney.id :=
  rows.mapRows
    (fun row => if hit row then { row with
      status := "FAILURE"
      progress := "100%"
      failReason := failReason.getD row.failReason } else row)
    (by
      intro row
      split <;> rfl)

/-- The reason a pass writes when it cannot find the channel. -/
def channelGoneReason : String :=
  "Failed to get the channel information. Please contact the administrator"

/-- The row as `RelayMidjourneyNotify` will write it. -/
def Midjourney.notified (env : MjEnv) (task : Midjourney) (item : MidjourneyDto) : Midjourney :=
  { task with
    progress := item.progress
    promptEn := item.promptEn
    state := item.state
    submitTime := item.submitTime
    startTime := item.startTime
    finishTime := item.finishTime
    imageUrl := item.imageUrl
    videoUrl := item.videoUrl
    videoUrls := env.marshalUrls item.videoUrls
    status := item.status
    failReason := item.failReason }

/-- `UpdateBillingState`: three columns of the copy. -/
def updateBillingState (rows : Table Midjourney.id) (copy : Midjourney) : Table Midjourney.id :=
  (rows.update copy.id (fun _ => true) fun row =>
    { row with
      quota := copy.quota
      tokenId := copy.tokenId
      billingChannelId := copy.billingChannelId }).2

/-! ### The system -/

/-- What a task is charged to. -/
inductive MjAccount where
  | wallet (userId : Nat)
  | token (tokenId : Nat)
  | userUsed (userId : Nat)
  | channelUsed (channelId : Nat)
deriving DecidableEq, Repr

/-- On whose behalf an account was moved. -/
inductive MjCause where
  | charge (task : Nat)
  | giveBack (task : Nat)
  | other
deriving DecidableEq, Repr

structure MjMove where
  cause : MjCause
  account : MjAccount
  delta : Int
deriving DecidableEq, Repr

structure MjSystem where
  rows : Table Midjourney.id
  submissions : List MjSubmission
  passes : List MjPass
  /-- notifications between their read and their write -/
  notifies : List Midjourney
  books : MjAccount → QuotaColumn
  /-- what was moved, and why -/
  moves : List MjMove

inductive MjAct where
  /-- a submission, up to its insert; `id` is what the row gets -/
  | submit (info : MjRelayInfo) (handler : MjHandler) (r : MjResponse) (channelId : Nat)
      (quota : Int) (id : Nat)
  /-- the next statement of a settlement -/
  | settle (i : Nat)
  /-- a pass begins, with `GetAllUnFinishTasks` -/
  | load
  /-- a pass fails the tasks without an id -/
  | failNull (i : Nat)
  /-- a pass turns to a channel -/
  | channel (i channelId : Nat) (reply : MjChannelReply)
  /-- a pass takes up the next response item -/
  | item (i : Nat) (now : Int)
  /-- a pass returns the quota of the task it has just failed -/
  | giveBack (i : Nat)
  /-- `RelayMidjourneyNotify`, up to its write -/
  | notifyRead (item : MidjourneyDto)
  /-- ... and its write -/
  | notifyWrite (i : Nat)
  /-- anything else that moves an account -/
  | other (account : MjAccount) (delta : Int)
deriving DecidableEq, Repr

namespace MjSystem

def start (books : MjAccount → QuotaColumn) : MjSystem := ⟨⟨[], by simp⟩, [], [], [], books, []⟩

/-- An account gets a new column; the ledger records by how much that moves it. -/
def post (s : MjSystem) (cause : MjCause) (account : MjAccount) (c : QuotaColumn) : MjSystem :=
  { s with
    books := Function.update s.books account c
    moves := ⟨cause, account, c.balance - (s.books account).balance⟩ :: s.moves }

/-- The wallet statement of `postConsumeQuotaWithResult`. -/
def chargeWallet (env : MjEnv) (c : QuotaColumn) (quota : Int) :
    Except QuotaError Unit × QuotaColumn :=
  if 0 < quota then decreaseUserQuota env.quota storesUp c quota
  else increaseUserQuota env.quota storesUp c (-quota)

/-- The token statement of `postConsumeQuotaWithResult`. -/
def chargeToken (env : MjEnv) (c : QuotaColumn) (quota : Int) :
    Except QuotaError Unit × QuotaColumn :=
  if 0 < quota then decreaseTokenQuota env.quota storesUp c quota
  else increaseTokenQuota env.quota storesUp c (-quota)

/-- The next statement of `SettleMidjourneyTaskBilling`, or of the handler after it. -/
def settleNext (env : MjEnv) (s : MjSystem) (j : MjSubmission) : Option (MjSystem × MjSubmission) :=
  let task := j.task
  match j.stage with
  | .wallet =>
    match chargeWallet env (s.books (.wallet j.info.userId)) task.quota with
    | (.ok (), c) =>
      some (s.post (.charge task.id) (.wallet j.info.userId) c, { j with stage := .token })
    | (.error _, _) =>
      some (s, { j with
        task := { task with quota := 0, tokenId := 0, billingChannelId := 0 }
        stage := .clear })
  | .token =>
    if j.info.isPlayground then some (s, { j with stage := .mark false })
    else
      match chargeToken env (s.books (.token j.info.tokenId)) task.quota with
      | (.ok (), c) =>
        some (s.post (.charge task.id) (.token j.info.tokenId) c,
          { j with stage := .mark true })
      | (.error _, _) => some (s, { j with stage := .mark false })
  | .mark tokenApplied =>
    let task := { task with tokenId := if tokenApplied then j.info.tokenId else 0 }
    some ({ s with rows := updateBillingState s.rows task },
      { j with task := task, stage := .userUsed })
  | .clear =>
    some ({ s with rows := updateBillingState s.rows task }, { j with stage := .done })
  | .userUsed =>
    let account := .userUsed j.info.userId
    some (s.post (.charge task.id) account
      (updateUsedQuota env.quota storesUp (s.books account) task.quota),
      { j with stage := .channelUsed })
  | .channelUsed =>
    let account := .channelUsed task.getBillingChannelId
    some (s.post (.charge task.id) account
      (updateUsedQuota env.quota storesUp (s.books account) task.quota),
      { j with stage := .done })
  | .done => none

/-- A pass turns to a channel once it is through with the one before. -/
def channelNext (s : MjSystem) (i : Nat) (p : MjPass) (channelId : Nat) (reply : MjChannelReply) :
    Option MjSystem :=
  if p.nullTaskIds ≠ [] ∨ p.responseItems ≠ [] ∨ p.returning.isSome then none
  else
    match p.taskChannelM.find channelId with
    | none => none
    | some tasks =>
      let p := { p with taskChannelM := p.taskChannelM.erase channelId }
      match reply with
      | .gone =>
        some { s with
          rows := mjBulkUpdate s.rows (fun row => row.mjId ∈ tasks.mjIds)
            (some channelGoneReason)
          passes := s.passes.set i p }
      | .unreachable => some { s with passes := s.passes.set i p }
      | .items items => some { s with passes := s.passes.set i { p with responseItems := items } }

def step (env : MjEnv) (s : MjSystem) : MjAct → Option MjSystem
  | .submit info handler r channelId quota id =>
    let j := handler.submission info r channelId quota id
    if id = 0 then none
    else
      match s.rows.insert j.task with
      | none => none
      | some rows => some { s with rows := rows, submissions := s.submissions ++ [j] }
  | .settle i =>
    match s.submissions[i]? with
    | none => none
    | some j =>
      match s.settleNext env j with
      | none => none
      | some (s', j') => some { s' with submissions := s.submissions.set i j' }
  | .load => some { s with passes := s.passes ++ [MjPass.load (getAllUnFinishTasks s.rows)] }
  | .failNull i =>
    match s.passes[i]? with
    | none => none
    | some p =>
      some { s with
        rows := mjBulkUpdate s.rows (fun row => row.id ∈ p.nullTaskIds) none
        passes := s.passes.set i { p with nullTaskIds := [] } }
  | .channel i channelId reply =>
    match s.passes[i]? with
    | none => none
    | some p => s.channelNext i p channelId reply
  | .item i now =>
    match s.passes[i]? with
    | none => none
    | some p =>
      match p.responseItems, p.returning with
      | item :: rest, none =>
        let (p', rows) := pollItem env s.rows { p with responseItems := rest } item now
        some { s with rows := rows, passes := s.passes.set i p' }
      | _, _ => none
  | .giveBack i =>
    match s.passes[i]? with
    | none => none
    | some p =>
      match p.returning with
      | none => none
      | some task =>
        let s' := { s with passes := s.passes.set i { p with returning := none } }
        match increaseUserQuota env.quota storesUp (s.books (.wallet task.userId))
            task.quota with
        | (.ok (), c) => some (s'.post (.giveBack task.id) (.wallet task.userId) c)
        | (.error _, _) => some s'
  | .notifyRead item =>
    match getByOnlyMJId s.rows item.mjId with
    | none => none
    | some task => some { s with notifies := s.notifies ++ [task.notified env item] }
  | .notifyWrite i =>
    match s.notifies[i]? with
    | none => none
    | some copy => some { s with rows := s.rows.save copy, notifies := s.notifies.eraseIdx i }
  | .other account delta =>
    some (s.post .other account { s.books account with
      stored := (s.books account).stored + delta })

/-- What a task was charged, account by account. -/
def charged (s : MjSystem) (id : Nat) (account : MjAccount) : List Int :=
  (s.moves.filter fun m => m.cause = .charge id ∧ m.account = account ∧ m.delta ≠ 0).map (·.delta)

def givenBack (s : MjSystem) (id : Nat) (account : MjAccount) : List Int :=
  (s.moves.filter fun m => m.cause = .giveBack id ∧ m.account = account ∧ m.delta ≠ 0).map
    (·.delta)

end MjSystem

end JulongApi

/-
Which upstream is asked about which task: the polling pass of `service/task_polling.go`.

`RunTaskPollingOnce` groups the unfinished tasks by platform, files those of a platform under
their upstream ids and lists the ids by channel, then asks each channel about the ids on its
list.  What an answer does to a task is in `Task` and what other nodes do meanwhile in
`TaskSystem`; here it is followed where requests and answers go.

The channels of a platform are polled by goroutines of their own and maps are walked in any
order, so the events of a pass are a multiset.  The pass is not cancelled, and the two sweeps
before it have run.  Progress reports are left out.
-/
import JulongApi.Task

namespace JulongApi.TaskPolling

def taskPlatformMidjourney : String := "mj"

/-- A task as a pass loads it. -/
structure SyncTask extends Task where
  platform : String
  channelId : Int
  /-- `PrivateData.Key`: the channel's key the task was submitted with, where it was kept. -/
  key : String
deriving DecidableEq

/-- The columns of `Channel` that a poll reads. -/
structure Channel where
  type : Int
  baseURL : Option String
  key : String
  proxy : String
deriving DecidableEq, Repr

/-- How an adaptor wants to be asked. -/
inductive FetchMode where
  | batch
  | single
deriving DecidableEq, Repr

/-- How the request for all tasks of a channel came out. -/
inductive BatchAnswer where
  /-- transport error, `401`/`403`, `429`/`5xx` or a hook that failed -/
  | failed
  /-- `404` or `410` -/
  | notFound
  /-- the items by upstream id -/
  | parsed (otherClient : Bool) (items : List (String × TaskInfo))
deriving DecidableEq, Repr

def BatchAnswer.names : BatchAnswer → List String
  | .parsed _ items => items.map (·.1)
  | _ => []

/-- What a pass finds around it. -/
structure PollEnv where
  /-- `GetTaskAdaptorFunc`; `none` until it is wired. -/
  getTaskAdaptorFunc : Option (String → Option FetchMode)
  cacheGetChannel : Int → Option Channel
  getChannelBaseURL : Int → String
  /-- What is answered for the task at a position of a channel's list. -/
  answer : String → Int → Nat → PollAnswer
  batchAnswer : String → Int → BatchAnswer

/-- What a request is made with. -/
structure Credentials where
  baseURL : String
  key : String
  proxy : String
deriving DecidableEq, Repr

inductive PollEvent where
  /-- `FetchTask` or `FetchBatchTasks` -/
  | fetch (credentials : Credentials) (tasks : List SyncTask)
  /-- what the upstream of a channel answered for an id is taken over into a task -/
  | write (channelId : Int) (upstreamID : String) (answer : PollAnswer) (task : SyncTask)
  /-- `TaskBulkUpdateByID` to `FAILURE` -/
  | bulkFail (ids : List Nat) (failReason : Option String)
deriving DecidableEq

structure TaskPollSummary where
  unfinishedTasks : Nat := 0
  platformsScanned : Nat := 0
  nullTasksFailed : Nat := 0
deriving DecidableEq, Repr

/-! ### Tasks by channel and by upstream id -/

/-- The maps of one platform. -/
structure PlatformPass where
  taskM : String → Option SyncTask
  /-- The keys of `taskChannelM`. -/
  channelIds : List Int
  taskChannelM : Int → List String
  nullTaskIds : List Nat

namespace PlatformPass

def empty : PlatformPass := ⟨fun _ => none, [], fun _ => [], []⟩

def add (pass : PlatformPass) (task : SyncTask) : PlatformPass :=
  let upstreamID := task.getUpstreamTaskID
  if upstreamID = "" then { pass with nullTaskIds := pass.nullTaskIds ++ [task.id] }
  else
    { pass with
      taskM := Function.update pass.taskM upstreamID (some task)
      channelIds :=
        if task.channelId ∈ pass.channelIds then pass.channelIds
        else pass.channelIds ++ [task.channelId]
      taskChannelM := Function.update pass.taskChannelM task.channelId
        (pass.taskChannelM task.channelId ++ [upstreamID]) }

def ofTasks (tasks : List SyncTask) : PlatformPass := tasks.foldl add empty

end PlatformPass

/-! ### One channel -/

namespace PollEnv

def getBaseURL (env : PollEnv) (ch : Channel) : String :=
  match ch.baseURL with
  | none => ""
  | some url => if url = "" then env.getChannelBaseURL ch.type else url

/-- The requests to a channel differ by their key alone. -/
def credentials (env : PollEnv) (ch : Channel) (key : String) : Credentials where
  baseURL := if env.getBaseURL ch = "" then env.getChannelBaseURL ch.type else env.getBaseURL ch
  key := key
  proxy := ch.proxy

def getTaskAdaptor (env : PollEnv) (platform : String) : Option FetchMode :=
  env.getTaskAdaptorFunc.bind fun getTaskAdaptor => getTaskAdaptor platform

end PollEnv

def channelMissingReason : String :=
  "Failed to get the channel information. Please contact the administrator"

/-- What both update functions do where the channel cannot be had. -/
def failTasks (taskIds : List String) (taskM : String → Option SyncTask) : List PollEvent :=
  [.bulkFail (taskIds.filterMap fun upstreamID => (taskM upstreamID).map (·.id))
    (some channelMissingReason)]

def updateBatchTasks (env : PollEnv) (platform : String) (channelId : Int)
    (taskIds : List String) (taskM : String → Option SyncTask) : List PollEvent :=
  match env.cacheGetChannel channelId with
  | none => failTasks taskIds taskM
  | some ch =>
    let tasks := taskIds.filterMap taskM
    .fetch (env.credentials ch ch.key) tasks ::
      match env.batchAnswer platform channelId with
      | .failed =>
        tasks.map fun task => .write channelId task.getUpstreamTaskID .failed task
      | .notFound =>
        tasks.map fun task => .write channelId task.getUpstreamTaskID .notFound task
      | .parsed otherClient items =>
        -- An id on no list is ignored; one on another channel's list is not.
        items.filterMap fun item => (taskM item.1).map fun task =>
          .write channelId item.1 (.parsed otherClient "" item.2) task

def updateVideoSingleTask (env : PollEnv) (ch : Channel) (channelId : Int)
    (taskM : String → Option SyncTask) (taskId : String) (answer : PollAnswer) : List PollEvent :=
  match taskM taskId with
  | none => []
  | some task =>
    [.fetch (env.credentials ch (if task.key ≠ "" then task.key else ch.key)) [task],
      .write channelId taskId answer task]

def updateVideoTasks (env : PollEnv) (platform : String) (channelId : Int)
    (taskIds : List String) (taskM : String → Option SyncTask) : List PollEvent :=
  match env.cacheGetChannel channelId with
  | none => failTasks taskIds taskM
  | some ch =>
    if (env.getTaskAdaptor platform).isNone then []
    else
      taskIds.zipIdx.flatMap fun entry =>
        updateVideoSingleTask env ch channelId taskM entry.1
          (env.answer platform channelId entry.2)

/-! ### One pass -/

def dispatchPlatformUpdate (env : PollEnv) (platform : String) (pass : PlatformPass) :
    List PollEvent :=
  if platform = taskPlatformMidjourney then []
  else
    pass.channelIds.flatMap fun channelId =>
      match env.getTaskAdaptor platform with
      | some .batch =>
        updateBatchTasks env platform channelId (pass.taskChannelM channelId) pass.taskM
      | _ => updateVideoTasks env platform channelId (pass.taskChannelM channelId) pass.taskM

def pollPlatform (env : PollEnv) (platform : String) (tasks : List SyncTask) : List PollEvent :=
  let pass := PlatformPass.ofTasks tasks
  (if pass.nullTaskIds = [] then [] else [.bulkFail pass.nullTaskIds none]) ++
    dispatchPlatformUpdate env platform pass

def platformTask (allTasks : List SyncTask) (platform : String) : List SyncTask :=
  allTasks.filter fun task => task.platform = platform

/-- `RunTaskPollingOnce`, on the tasks it has loaded. -/
def runTaskPollingOnce (env : PollEnv) (allTasks : List SyncTask) :
    TaskPollSummary × Multiset PollEvent :=
  if env.getTaskAdaptorFunc.isNone then ({}, 0)
  else
    let platforms := (allTasks.map (·.platform)).dedup
    ({ unfinishedTasks := allTasks.length
       platformsScanned := platforms.length
       nullTasksFailed := (allTasks.filter fun task => task.getUpstreamTaskID = "").length },
      (platforms.flatMap fun platform =>
        pollPlatform env platform (platformTask allTasks platform) : List PollEvent))

end JulongApi.TaskPolling

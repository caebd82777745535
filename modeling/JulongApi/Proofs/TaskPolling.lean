/-
Every task is polled through its own channel, where upstream ids tell the tasks apart.

The map a platform's channels share has one task for an upstream id: the last one loaded
(`Grouped`).  What a pass asks and what it writes goes through that map (`fetch_inv`,
`write_inv`).  So two tasks of one platform that share an id are both asked about as the later
one, by the channels of both, and the earlier one is never polled.  Where ids are distinct, a
task is found again by its own channel alone; what is left to go wrong is a task that nobody can
be asked about, and a batch answer that names a task of another channel
(`polled_as_owned_iff`).
-/
import JulongApi.TaskPolling

namespace JulongApi.TaskPolling

/-! ### The maps of a platform -/

/-- What the maps hold of the tasks that have been filed. -/
structure Grouped (tasks : List SyncTask) (pass : PlatformPass) : Prop where
  /-- An upstream id leads to a task that has it. -/
  found : ∀ id task, pass.taskM id = some task →
    task ∈ tasks ∧ task.getUpstreamTaskID = id ∧ id ≠ ""
  /-- Every id leads somewhere, but to one task only. -/
  filed : ∀ task ∈ tasks, task.getUpstreamTaskID ≠ "" →
    (pass.taskM task.getUpstreamTaskID).isSome
  listed : ∀ channelId id, id ∈ pass.taskChannelM channelId ↔
    ∃ task ∈ tasks, task.channelId = channelId ∧ task.getUpstreamTaskID = id ∧ id ≠ ""
  channels : ∀ channelId, channelId ∈ pass.channelIds ↔ ∃ id, id ∈ pass.taskChannelM channelId

theorem Grouped.empty : Grouped [] PlatformPass.empty where
  found := by
    intro id task h
    cases h
  filed := by simp
  listed := by simp [PlatformPass.empty]
  channels := by simp [PlatformPass.empty]

variable {tasks : List SyncTask} {task : SyncTask}

variable {pass : PlatformPass}

theorem Grouped.add_null (h : Grouped tasks pass) (hnull : task.getUpstreamTaskID = "") :
    Grouped (tasks ++ [task]) (pass.add task) := by
  unfold PlatformPass.add
  rw [if_pos hnull]
  constructor
  · intro id other hfound
    obtain ⟨hmem, hid⟩ := h.found id other hfound
    exact ⟨List.mem_append_left _ hmem, hid⟩
  · intro other hmem hid
    obtain hmem | hmem := List.mem_append.mp hmem
    · exact h.filed other hmem hid
    · rw [List.mem_singleton.mp hmem] at hid
      exact absurd hnull hid
  · intro channelId id
    rw [h.listed]
    constructor
    · rintro ⟨other, hmem, hother⟩
      exact ⟨other, List.mem_append_left _ hmem, hother⟩
    · rintro ⟨other, hmem, hchannel, hid, hne⟩
      obtain hmem | hmem := List.mem_append.mp hmem
      · exact ⟨other, hmem, hchannel, hid, hne⟩
      · rw [List.mem_singleton.mp hmem, hnull] at hid
        exact absurd hid.symm hne
  · exact h.channels

theorem Grouped.add_filed (h : Grouped tasks pass) (hid : task.getUpstreamTaskID ≠ "") :
    Grouped (tasks ++ [task]) (pass.add task) := by
  unfold PlatformPass.add
  rw [if_neg hid]
  have hlast : task ∈ tasks ++ [task] := List.mem_append_right _ (List.mem_singleton_self task)
  constructor
  · intro id other hfound
    dsimp only at hfound
    by_cases hsame : id = task.getUpstreamTaskID
    · rw [hsame, Function.update_self] at hfound
      cases hfound
      exact ⟨hlast, hsame.symm, hsame ▸ hid⟩
    · rw [Function.update_of_ne hsame] at hfound
      obtain ⟨hmem, hother⟩ := h.found id other hfound
      exact ⟨List.mem_append_left _ hmem, hother⟩
  · intro other hmem hne
    dsimp only
    by_cases hsame : other.getUpstreamTaskID = task.getUpstreamTaskID
    · rw [hsame, Function.update_self]
      rfl
    · rw [Function.update_of_ne hsame]
      obtain hmem | hmem := List.mem_append.mp hmem
      · exact h.filed other hmem hne
      · exact absurd (congrArg (·.getUpstreamTaskID) (List.mem_singleton.mp hmem)) hsame
  · intro channelId id
    dsimp only
    have hmem_or : ∀ other, other ∈ tasks ++ [task] ↔ other ∈ tasks ∨ other = task := by
      intro other
      rw [List.mem_append, List.mem_singleton]
    by_cases hchannel : channelId = task.channelId
    · rw [hchannel, Function.update_self, List.mem_append, List.mem_singleton, h.listed]
      constructor
      · rintro (⟨other, hmem, hother⟩ | rfl)
        · exact ⟨other, (hmem_or other).mpr (.inl hmem), hother⟩
        · exact ⟨task, hlast, rfl, rfl, hid⟩
      · rintro ⟨other, hmem, hother⟩
        obtain hmem | rfl := (hmem_or other).mp hmem
        · exact .inl ⟨other, hmem, hother⟩
        · exact .inr hother.2.1.symm
    · rw [Function.update_of_ne hchannel, h.listed]
      constructor
      · rintro ⟨other, hmem, hother⟩
        exact ⟨other, (hmem_or other).mpr (.inl hmem), hother⟩
      · rintro ⟨other, hmem, hother⟩
        obtain hmem | rfl := (hmem_or other).mp hmem
        · exact ⟨other, hmem, hother⟩
        · exact absurd hother.1.symm hchannel
  · intro channelId
    dsimp only
    have hkeys : channelId ∈ (if task.channelId ∈ pass.channelIds then pass.channelIds
        else pass.channelIds ++ [task.channelId]) ↔
        channelId ∈ pass.channelIds ∨ channelId = task.channelId := by
      by_cases hknown : task.channelId ∈ pass.channelIds
      · rw [if_pos hknown]
        constructor
        · exact .inl
        · rintro (hmem | rfl)
          · exact hmem
          · exact hknown
      · rw [if_neg hknown, List.mem_append, List.mem_singleton]
    rw [hkeys]
    by_cases hchannel : channelId = task.channelId
    · rw [hchannel, Function.update_self]
      exact iff_of_true (.inr rfl)
        ⟨task.getUpstreamTaskID, List.mem_append_right _ (List.mem_singleton_self _)⟩
    · rw [Function.update_of_ne hchannel, or_iff_left hchannel, h.channels]

theorem grouped_ofTasks (tasks : List SyncTask) : Grouped tasks (PlatformPass.ofTasks tasks) := by
  induction tasks using List.reverseRecOn with
  | nil => exact Grouped.empty
  | append_singleton tasks task ih =>
    unfold PlatformPass.ofTasks
    rw [List.foldl_append, List.foldl_cons, List.foldl_nil]
    by_cases hid : task.getUpstreamTaskID = ""
    · exact ih.add_null hid
    · exact ih.add_filed hid

/-! ### What a pass asks and what it writes -/

section

variable {env : PollEnv} {allTasks : List SyncTask}

def passOf (allTasks : List SyncTask) (platform : String) : PlatformPass :=
  PlatformPass.ofTasks (platformTask allTasks platform)

structure Asked (env : PollEnv) (allTasks : List SyncTask) (platform : String) (mode : FetchMode)
    (channelId : Int) (ch : Channel) : Prop where
  notMidjourney : platform ≠ taskPlatformMidjourney
  adaptor : env.getTaskAdaptor platform = some mode
  channel : env.cacheGetChannel channelId = some ch
  listed : channelId ∈ (passOf allTasks platform).channelIds

theorem grouped_passOf (allTasks : List SyncTask) (platform : String) :
    Grouped (platformTask allTasks platform) (passOf allTasks platform) :=
  grouped_ofTasks _

variable {platform id : String} {channelId : Int}

theorem mem_platformTask :
    task ∈ platformTask allTasks platform ↔ task ∈ allTasks ∧ task.platform = platform := by
  unfold platformTask
  rw [List.mem_filter, decide_eq_true_eq]

theorem exists_of_listed (h : channelId ∈ (passOf allTasks platform).channelIds) :
    ∃ task ∈ allTasks, task.platform = platform := by
  obtain ⟨id, hid⟩ := ((grouped_passOf allTasks platform).channels channelId).mp h
  obtain ⟨task, hmem, -⟩ := ((grouped_passOf allTasks platform).listed channelId id).mp hid
  exact ⟨task, mem_platformTask.mp hmem⟩

/-- What one channel of a platform is asked and answers. -/
def channelEvents (env : PollEnv) (allTasks : List SyncTask) (platform : String) (channelId : Int) :
    FetchMode → List PollEvent
  | .batch => updateBatchTasks env platform channelId
      ((passOf allTasks platform).taskChannelM channelId) (passOf allTasks platform).taskM
  | .single => updateVideoTasks env platform channelId
      ((passOf allTasks platform).taskChannelM channelId) (passOf allTasks platform).taskM

variable {event : PollEvent} {ch : Channel}

theorem asked_of_mem_update (hfail : ∀ ids reason, event ≠ .bulkFail ids reason)
    (hplatform : platform ≠ taskPlatformMidjourney)
    (hlisted : channelId ∈ (passOf allTasks platform).channelIds)
    (hmem : event ∈ match env.getTaskAdaptor platform with
      | some .batch => updateBatchTasks env platform channelId
          ((passOf allTasks platform).taskChannelM channelId) (passOf allTasks platform).taskM
      | _ => updateVideoTasks env platform channelId
          ((passOf allTasks platform).taskChannelM channelId) (passOf allTasks platform).taskM) :
    ∃ mode ch, Asked env allTasks platform mode channelId ch ∧
      event ∈ channelEvents env allTasks platform channelId mode := by
  cases hchannel : env.cacheGetChannel channelId with
  | none =>
    have hbulk : ∀ ids taskM, event ∉ failTasks ids taskM := by
      intro ids taskM h
      exact hfail _ _ (List.mem_singleton.mp h)
    unfold updateBatchTasks updateVideoTasks at hmem
    rw [hchannel] at hmem
    split at hmem
    · exact absurd hmem (hbulk _ _)
    · exact absurd hmem (hbulk _ _)
  | some ch =>
    cases hadaptor : env.getTaskAdaptor platform with
    | none =>
      rw [hadaptor] at hmem
      dsimp only at hmem
      unfold updateVideoTasks at hmem
      rw [hchannel, hadaptor] at hmem
      cases hmem
    | some mode =>
      refine ⟨mode, ch, ⟨hplatform, hadaptor, hchannel, hlisted⟩, ?_⟩
      rw [hadaptor] at hmem
      cases mode with
      | batch => exact hmem
      | single => exact hmem

theorem mem_events_iff (hfail : ∀ ids reason, event ≠ .bulkFail ids reason) :
    event ∈ (runTaskPollingOnce env allTasks).2 ↔
      ∃ platform mode channelId ch, Asked env allTasks platform mode channelId ch ∧
        event ∈ channelEvents env allTasks platform channelId mode := by
  unfold runTaskPollingOnce
  constructor
  · intro hmem
    by_cases hwired : env.getTaskAdaptorFunc.isNone = true
    · rw [if_pos hwired] at hmem
      exact absurd hmem (Multiset.notMem_zero event)
    · rw [if_neg hwired] at hmem
      dsimp only at hmem
      rw [Multiset.mem_coe, List.mem_flatMap] at hmem
      obtain ⟨platform, -, hmem⟩ := hmem
      unfold pollPlatform at hmem
      obtain hmem | hmem := List.mem_append.mp hmem
      · split at hmem
        · cases hmem
        · exact absurd (List.mem_singleton.mp hmem) (hfail _ _)
      · unfold dispatchPlatformUpdate at hmem
        split at hmem
        · cases hmem
        · rename_i hplatform
          obtain ⟨channelId, hlisted, hmem⟩ := List.mem_flatMap.mp hmem
          obtain ⟨mode, ch, hasked, hevent⟩ :=
            asked_of_mem_update hfail hplatform hlisted hmem
          exact ⟨platform, mode, channelId, ch, hasked, hevent⟩
  · rintro ⟨platform, mode, channelId, ch, hasked, hmem⟩
    have hwired : ¬env.getTaskAdaptorFunc.isNone = true := by
      intro hnone
      have hadaptor := hasked.adaptor
      unfold PollEnv.getTaskAdaptor at hadaptor
      rw [Option.isNone_iff_eq_none.mp hnone] at hadaptor
      cases hadaptor
    obtain ⟨task, htask, hplatform⟩ := exists_of_listed hasked.listed
    rw [if_neg hwired]
    dsimp only
    rw [Multiset.mem_coe, List.mem_flatMap]
    refine ⟨platform, List.mem_dedup.mpr (List.mem_map.mpr ⟨task, htask, hplatform⟩), ?_⟩
    unfold pollPlatform
    refine List.mem_append_right _ ?_
    unfold dispatchPlatformUpdate
    rw [if_neg hasked.notMidjourney, hasked.adaptor]
    refine List.mem_flatMap.mpr ⟨channelId, hasked.listed, ?_⟩
    cases mode with
    | batch => exact hmem
    | single => exact hmem

/-! ### Requests -/

/-- A request is about tasks that the channel's ids lead to, with its own credentials or, for a
single task, with the key that task was submitted with. -/
theorem fetch_inv {credentials : Credentials}
    (h : PollEvent.fetch credentials tasks ∈ (runTaskPollingOnce env allTasks).2) :
    ∃ platform mode channelId ch, Asked env allTasks platform mode channelId ch ∧
      ∀ task ∈ tasks,
        (∃ id ∈ (passOf allTasks platform).taskChannelM channelId,
          (passOf allTasks platform).taskM id = some task) ∧
        (credentials = env.credentials ch ch.key ∨
          task.key ≠ "" ∧ credentials = env.credentials ch task.key) := by
  obtain ⟨platform, mode, channelId, ch, hasked, hmem⟩ := (mem_events_iff (by simp)).mp h
  refine ⟨platform, mode, channelId, ch, hasked, ?_⟩
  cases mode with
  | batch =>
    change _ ∈ updateBatchTasks _ _ _ _ _ at hmem
    unfold updateBatchTasks at hmem
    rw [hasked.channel] at hmem
    dsimp only at hmem
    obtain hhead | htail := List.mem_cons.mp hmem
    · injection hhead with hcredentials htasks
      subst htasks
      intro task htask
      obtain ⟨id, hid, hfound⟩ := List.mem_filterMap.mp htask
      exact ⟨⟨id, hid, hfound⟩, .inl hcredentials⟩
    · split at htail <;> simp at htail
  | single =>
    change _ ∈ updateVideoTasks _ _ _ _ _ at hmem
    unfold updateVideoTasks at hmem
    rw [hasked.channel, hasked.adaptor] at hmem
    obtain ⟨⟨id, i⟩, hentry, hmem⟩ := List.mem_flatMap.mp hmem
    have hid := List.mem_zipIdx_iff_getElem?.mp hentry
    unfold updateVideoSingleTask at hmem
    dsimp only at hmem
    split at hmem
    · cases hmem
    · rename_i found hfound
      obtain hhead | htail := List.mem_cons.mp hmem
      · injection hhead with hcredentials htasks
        subst htasks
        intro task htask
        rw [List.mem_singleton] at htask
        subst htask
        refine ⟨⟨id, List.mem_of_getElem? hid, hfound⟩, ?_⟩
        by_cases hkey : task.key = ""
        · rw [if_neg (not_not.mpr hkey)] at hcredentials
          exact .inl hcredentials
        · rw [if_pos hkey] at hcredentials
          exact .inr ⟨hkey, hcredentials⟩
      · simp at htail

theorem fetch_intro {mode : FetchMode} (hasked : Asked env allTasks platform mode channelId ch)
    (hid : id ∈ (passOf allTasks platform).taskChannelM channelId)
    (hfound : (passOf allTasks platform).taskM id = some task) :
    ∃ credentials tasks,
      PollEvent.fetch credentials tasks ∈ (runTaskPollingOnce env allTasks).2 ∧ task ∈ tasks := by
  cases mode with
  | batch =>
    refine ⟨env.credentials ch ch.key,
      ((passOf allTasks platform).taskChannelM channelId).filterMap
        (passOf allTasks platform).taskM,
      (mem_events_iff (by simp)).mpr ⟨platform, .batch, channelId, ch, hasked, ?_⟩,
      List.mem_filterMap.mpr ⟨id, hid, hfound⟩⟩
    change _ ∈ updateBatchTasks _ _ _ _ _
    unfold updateBatchTasks
    rw [hasked.channel]
    exact List.mem_cons_self
  | single =>
    obtain ⟨i, hi⟩ := List.mem_iff_getElem?.mp hid
    refine ⟨env.credentials ch (if task.key ≠ "" then task.key else ch.key), [task],
      (mem_events_iff (by simp)).mpr ⟨platform, .single, channelId, ch, hasked, ?_⟩,
      List.mem_singleton_self task⟩
    change _ ∈ updateVideoTasks _ _ _ _ _
    unfold updateVideoTasks
    rw [hasked.channel, hasked.adaptor]
    refine List.mem_flatMap.mpr ⟨(id, i), List.mem_zipIdx_iff_getElem?.mpr hi, ?_⟩
    unfold updateVideoSingleTask
    dsimp only
    rw [hfound]
    exact List.mem_cons_self

/-! ### Answers -/

/-- An answer is taken over into the task its id leads to; the channel was asked about the id,
or its batch answer has it unasked. -/
theorem write_inv {answer : PollAnswer}
    (h : PollEvent.write channelId id answer task ∈ (runTaskPollingOnce env allTasks).2) :
    ∃ platform mode ch, Asked env allTasks platform mode channelId ch ∧
      (passOf allTasks platform).taskM id = some task ∧
      (id ∈ (passOf allTasks platform).taskChannelM channelId ∨
        mode = .batch ∧ id ∈ (env.batchAnswer platform channelId).names) := by
  obtain ⟨platform, mode, other, ch, hasked, hmem⟩ := (mem_events_iff (by simp)).mp h
  cases mode with
  | batch =>
    change _ ∈ updateBatchTasks _ _ _ _ _ at hmem
    unfold updateBatchTasks at hmem
    rw [hasked.channel] at hmem
    dsimp only at hmem
    obtain hhead | htail := List.mem_cons.mp hmem
    · cases hhead
    · -- a request that failed as a whole is written to every task asked about
      have hall : ∀ whole : PollAnswer,
          PollEvent.write channelId id answer task ∈
            (((passOf allTasks platform).taskChannelM other).filterMap
              (passOf allTasks platform).taskM).map
              (fun task => PollEvent.write other task.getUpstreamTaskID whole task) →
          ∃ platform mode ch, Asked env allTasks platform mode channelId ch ∧
            (passOf allTasks platform).taskM id = some task ∧
            (id ∈ (passOf allTasks platform).taskChannelM channelId ∨
              mode = .batch ∧ id ∈ (env.batchAnswer platform channelId).names) := by
        intro whole hmap
        obtain ⟨found, hfound, heq⟩ := List.mem_map.mp hmap
        injection heq with hchannel hid hanswer htask
        subst hchannel htask hid
        obtain ⟨listed, hlisted, htaskM⟩ := List.mem_filterMap.mp hfound
        have hid := ((grouped_passOf allTasks platform).found listed _ htaskM).2.1
        rw [hid]
        exact ⟨platform, .batch, ch, hasked, htaskM, .inl hlisted⟩
      split at htail
      · exact hall _ htail
      · exact hall _ htail
      · rename_i otherClient items hanswer
        obtain ⟨item, hitem, heq⟩ := List.mem_filterMap.mp htail
        obtain ⟨found, hfound, heq⟩ := Option.map_eq_some_iff.mp heq
        injection heq with hchannel hid hwritten htask
        subst hchannel htask hid
        refine ⟨platform, .batch, ch, hasked, hfound, .inr ⟨rfl, ?_⟩⟩
        rw [hanswer]
        exact List.mem_map_of_mem hitem
  | single =>
    change _ ∈ updateVideoTasks _ _ _ _ _ at hmem
    unfold updateVideoTasks at hmem
    rw [hasked.channel, hasked.adaptor] at hmem
    obtain ⟨⟨listed, i⟩, hentry, hmem⟩ := List.mem_flatMap.mp hmem
    have hlisted := List.mem_of_getElem? (List.mem_zipIdx_iff_getElem?.mp hentry)
    unfold updateVideoSingleTask at hmem
    dsimp only at hmem
    split at hmem
    · cases hmem
    · rename_i found hfound
      obtain hhead | htail := List.mem_cons.mp hmem
      · cases hhead
      · injection List.mem_singleton.mp htail with hchannel hid hwritten htask
        subst hchannel htask hid
        exact ⟨platform, .single, ch, hasked, hfound, .inl hlisted⟩

theorem write_intro (hasked : Asked env allTasks platform .batch channelId ch)
    (hid : id ∈ (env.batchAnswer platform channelId).names)
    (hfound : (passOf allTasks platform).taskM id = some task) :
    ∃ answer, PollEvent.write channelId id answer task ∈ (runTaskPollingOnce env allTasks).2 := by
  cases hanswer : env.batchAnswer platform channelId with
  | failed =>
    rw [hanswer] at hid
    cases hid
  | notFound =>
    rw [hanswer] at hid
    cases hid
  | parsed otherClient items =>
    rw [hanswer] at hid
    obtain ⟨item, hitem, rfl⟩ := List.mem_map.mp hid
    refine ⟨.parsed otherClient "" item.2,
      (mem_events_iff (by simp)).mpr ⟨platform, .batch, channelId, ch, hasked, ?_⟩⟩
    change _ ∈ updateBatchTasks _ _ _ _ _
    unfold updateBatchTasks
    rw [hasked.channel]
    dsimp only
    rw [hanswer]
    refine List.mem_cons_of_mem _ (List.mem_filterMap.mpr ⟨item, hitem, ?_⟩)
    rw [hfound]
    rfl

/-! ### Each through its own channel -/

/-- Credentials of the task's own channel: with the channel's key or the one kept with it. -/
def OwnCredentials (env : PollEnv) (task : SyncTask) (credentials : Credentials) : Prop :=
  ∃ ch, env.cacheGetChannel task.channelId = some ch ∧
    (credentials = env.credentials ch ch.key ∨
      task.key ≠ "" ∧ credentials = env.credentials ch task.key)

/-- A pass asks about every task with an upstream id, through its own channel, and takes an
answer over into the task alone that the channel was asked about. -/
structure PolledAsOwned (env : PollEnv) (allTasks : List SyncTask) : Prop where
  polled : ∀ task ∈ allTasks, task.getUpstreamTaskID ≠ "" → ∃ credentials tasks,
    PollEvent.fetch credentials tasks ∈ (runTaskPollingOnce env allTasks).2 ∧ task ∈ tasks
  own : ∀ credentials tasks,
    PollEvent.fetch credentials tasks ∈ (runTaskPollingOnce env allTasks).2 →
      ∀ task ∈ tasks, OwnCredentials env task credentials
  written : ∀ channelId id answer task,
    PollEvent.write channelId id answer task ∈ (runTaskPollingOnce env allTasks).2 →
      task.channelId = channelId ∧ task.getUpstreamTaskID = id

/-- Upstream ids tell the tasks of a platform apart, there is somebody to ask about each, and
no batch answer has a task of another channel. -/
structure ToldApart (env : PollEnv) (allTasks : List SyncTask) : Prop where
  distinct : ∀ task ∈ allTasks, ∀ other ∈ allTasks, task.platform = other.platform →
    task.getUpstreamTaskID = other.getUpstreamTaskID → task.getUpstreamTaskID ≠ "" → task = other
  reachable : ∀ task ∈ allTasks, task.getUpstreamTaskID ≠ "" →
    task.platform ≠ taskPlatformMidjourney ∧ (env.getTaskAdaptor task.platform).isSome ∧
      (env.cacheGetChannel task.channelId).isSome
  answered : ∀ task ∈ allTasks, ∀ other ∈ allTasks, task.platform = other.platform →
    task.getUpstreamTaskID ≠ "" → other.getUpstreamTaskID ≠ "" →
      env.getTaskAdaptor task.platform = some .batch →
        task.getUpstreamTaskID ∈ (env.batchAnswer task.platform other.channelId).names →
          task.channelId = other.channelId

theorem taskM_of_distinct
    (hdistinct : ∀ task ∈ allTasks, ∀ other ∈ allTasks, task.platform = other.platform →
      task.getUpstreamTaskID = other.getUpstreamTaskID → task.getUpstreamTaskID ≠ "" →
        task = other) (hmem : task ∈ allTasks) (hid : task.getUpstreamTaskID ≠ "") :
    (passOf allTasks task.platform).taskM task.getUpstreamTaskID = some task := by
  have hgrouped := grouped_passOf allTasks task.platform
  have hfiled := hgrouped.filed task (mem_platformTask.mpr ⟨hmem, rfl⟩) hid
  obtain ⟨found, hfound⟩ := Option.isSome_iff_exists.mp hfiled
  obtain ⟨hfoundMem, hfoundId, -⟩ := hgrouped.found _ found hfound
  obtain ⟨hfoundAll, hplatform⟩ := mem_platformTask.mp hfoundMem
  rw [hfound, hdistinct task hmem found hfoundAll hplatform.symm hfoundId.symm hid]

theorem channel_of_listed
    (hdistinct : ∀ task ∈ allTasks, ∀ other ∈ allTasks, task.platform = other.platform →
      task.getUpstreamTaskID = other.getUpstreamTaskID → task.getUpstreamTaskID ≠ "" →
        task = other) (hlisted : id ∈ (passOf allTasks platform).taskChannelM channelId)
    (hfound : (passOf allTasks platform).taskM id = some task) : task.channelId = channelId := by
  have hgrouped := grouped_passOf allTasks platform
  obtain ⟨other, hother, hchannel, hotherId, hne⟩ := (hgrouped.listed channelId id).mp hlisted
  obtain ⟨hmem, hid, -⟩ := hgrouped.found id task hfound
  obtain ⟨hotherAll, hotherPlatform⟩ := mem_platformTask.mp hother
  obtain ⟨hall, hplatform⟩ := mem_platformTask.mp hmem
  have hsame : task = other :=
    hdistinct task hall other hotherAll (hplatform.trans hotherPlatform.symm)
      (hid.trans hotherId.symm) (hid ▸ hne)
  rw [hsame, hchannel]

theorem listed_of_mem (hmem : task ∈ allTasks) (hid : task.getUpstreamTaskID ≠ "") :
    task.getUpstreamTaskID ∈ (passOf allTasks task.platform).taskChannelM task.channelId ∧
      task.channelId ∈ (passOf allTasks task.platform).channelIds := by
  have hgrouped := grouped_passOf allTasks task.platform
  have hlisted : task.getUpstreamTaskID ∈
      (passOf allTasks task.platform).taskChannelM task.channelId :=
    (hgrouped.listed _ _).mpr ⟨task, mem_platformTask.mpr ⟨hmem, rfl⟩, rfl, rfl, hid⟩
  exact ⟨hlisted, (hgrouped.channels _).mpr ⟨_, hlisted⟩⟩

theorem taskM_of_polled (h : PolledAsOwned env allTasks) (hmem : task ∈ allTasks)
    (hid : task.getUpstreamTaskID ≠ "") :
    ∃ mode channelId ch, Asked env allTasks task.platform mode channelId ch ∧
      task.getUpstreamTaskID ∈ (passOf allTasks task.platform).taskChannelM channelId ∧
      (passOf allTasks task.platform).taskM task.getUpstreamTaskID = some task := by
  obtain ⟨credentials, tasks, hfetch, htask⟩ := h.polled task hmem hid
  obtain ⟨platform, mode, channelId, ch, hasked, hall⟩ := fetch_inv hfetch
  obtain ⟨⟨id, hlisted, hfound⟩, -⟩ := hall task htask
  obtain ⟨hfoundMem, rfl, -⟩ := (grouped_passOf allTasks platform).found id task hfound
  obtain ⟨-, rfl⟩ := mem_platformTask.mp hfoundMem
  exact ⟨mode, channelId, ch, hasked, hlisted, hfound⟩

theorem ToldApart.of_polled (h : PolledAsOwned env allTasks) : ToldApart env allTasks := by
  have hdistinct : ∀ task ∈ allTasks, ∀ other ∈ allTasks, task.platform = other.platform →
      task.getUpstreamTaskID = other.getUpstreamTaskID → task.getUpstreamTaskID ≠ "" →
        task = other := by
    intro task htask other hother hplatform hsame hid
    obtain ⟨-, -, -, -, -, hfound⟩ := taskM_of_polled h htask hid
    obtain ⟨-, -, -, -, -, hotherFound⟩ := taskM_of_polled h hother (hsame ▸ hid)
    rw [← hplatform, ← hsame, hfound] at hotherFound
    exact Option.some_injective _ hotherFound
  refine ⟨hdistinct, ?_, ?_⟩
  · intro task htask hid
    obtain ⟨mode, channelId, ch, hasked, hlisted, hfound⟩ := taskM_of_polled h htask hid
    refine ⟨hasked.notMidjourney, by rw [hasked.adaptor]; rfl, ?_⟩
    rw [channel_of_listed hdistinct hlisted hfound, hasked.channel]
    rfl
  · intro task htask other hother hplatform hid hotherId hbatch hnames
    obtain ⟨mode, channelId, ch, hasked, hlisted, hfound⟩ := taskM_of_polled h hother hotherId
    have hchannel := channel_of_listed hdistinct hlisted hfound
    have hmode : mode = .batch := by
      have hadaptor := hasked.adaptor
      rw [← hplatform, hbatch] at hadaptor
      exact (Option.some_injective _ hadaptor).symm
    subst hmode
    rw [hplatform, hchannel] at hnames
    obtain ⟨-, -, -, -, -, htaskFound⟩ := taskM_of_polled h htask hid
    rw [hplatform] at htaskFound
    obtain ⟨answer, hwrite⟩ := write_intro hasked hnames htaskFound
    rw [(h.written _ _ _ _ hwrite).1, hchannel]

theorem PolledAsOwned.of_toldApart (h : ToldApart env allTasks) :
    PolledAsOwned env allTasks := by
  constructor
  · intro task htask hid
    obtain ⟨hplatform, hadaptor, hchannel⟩ := h.reachable task htask hid
    obtain ⟨mode, hmode⟩ := Option.isSome_iff_exists.mp hadaptor
    obtain ⟨ch, hch⟩ := Option.isSome_iff_exists.mp hchannel
    obtain ⟨hlisted, hids⟩ := listed_of_mem htask hid
    exact fetch_intro ⟨hplatform, hmode, hch, hids⟩ hlisted
      (taskM_of_distinct h.distinct htask hid)
  · intro credentials tasks hfetch task htask
    obtain ⟨platform, mode, channelId, ch, hasked, hall⟩ := fetch_inv hfetch
    obtain ⟨⟨id, hlisted, hfound⟩, hcredentials⟩ := hall task htask
    have hchannel := channel_of_listed h.distinct hlisted hfound
    exact ⟨ch, hchannel ▸ hasked.channel, hcredentials⟩
  · intro channelId id answer task hwrite
    obtain ⟨platform, mode, ch, hasked, hfound, hsource⟩ := write_inv hwrite
    have hgrouped := grouped_passOf allTasks platform
    obtain ⟨hmem, rfl, hne⟩ := hgrouped.found id task hfound
    refine ⟨?_, rfl⟩
    obtain hlisted | ⟨rfl, hnames⟩ := hsource
    · exact channel_of_listed h.distinct hlisted hfound
    · obtain ⟨hall, rfl⟩ := mem_platformTask.mp hmem
      -- the channel was asked about some task of its own, and the answer has this one
      obtain ⟨listed, hlisted⟩ := (hgrouped.channels channelId).mp hasked.listed
      obtain ⟨other, hother, rfl, rfl, hotherNe⟩ := (hgrouped.listed _ _).mp hlisted
      obtain ⟨hotherAll, hotherPlatform⟩ := mem_platformTask.mp hother
      exact h.answered task hall other hotherAll hotherPlatform.symm hne hotherNe hasked.adaptor
        hnames

/-- A pass polls every task through its own channel, if and only if the tasks are told apart. -/
theorem polled_as_owned_iff (env : PollEnv) (allTasks : List SyncTask) :
    PolledAsOwned env allTasks ↔ ToldApart env allTasks :=
  ⟨ToldApart.of_polled, PolledAsOwned.of_toldApart⟩

end

/-! ### Two tasks of one id -/

def countedTask (id : Nat) (channelId : Int) : SyncTask where
  id := id
  taskID := "task_" ++ toString id
  upstreamTaskID := "17"
  status := .inProgress
  progress := "30%"
  quota := 100
  failReason := ""
  submitTime := 1800000000
  startTime := 0
  finishTime := 0
  updatedAt := 1800000000
  resultURL := ""
  data := ""
  pluginState := ""
  pollFailures := 0
  billingContext := none
  platform := "suno"
  channelId := channelId
  key := ""

def twoGateways : PollEnv where
  getTaskAdaptorFunc := some fun _ => some .single
  cacheGetChannel := fun channelId =>
    if channelId = 1 then some ⟨36, some "https://one.example", "key-one", ""⟩
    else if channelId = 2 then some ⟨36, some "https://two.example", "key-two", ""⟩
    else none
  getChannelBaseURL := fun _ => ""
  answer := fun _ _ _ => .notFound
  batchAnswer := fun _ _ => .failed

/-- Both gateways have a task 17: the first one is asked about the second one's, and nobody
about the first one's. -/
theorem shared_id_not_polled :
    PollEvent.fetch ⟨"https://one.example", "key-one", ""⟩ [countedTask 2 2] ∈
        (runTaskPollingOnce twoGateways [countedTask 1 1, countedTask 2 2]).2 ∧
      ¬PolledAsOwned twoGateways [countedTask 1 1, countedTask 2 2] := by
  refine ⟨by decide +kernel, fun h => ?_⟩
  obtain ⟨-, -, -, -, -, hfound⟩ :=
    taskM_of_polled h (List.mem_cons_self : countedTask 1 1 ∈ _) (by decide)
  exact absurd hfound (by decide +kernel)

end JulongApi.TaskPolling

/-
The order in which failing attempts go through the auto groups.

A group is left when the retry in it has reached the global limit, whatever levels it has, and a
retry behind the last level asks for the last level again.  What is still to be tried is
`remaining`: a selection finds its first entry and leaves the others.
-/
import JulongApi.Proofs.ChannelAnswers
import JulongApi.Proofs.RelayRetry

namespace JulongApi.Relay

open Channels

/-- A request that goes from group to group, and the priorities it finds there. -/
structure AutoRequest where
  retryTimes : Nat
  modelName : String
  filters : List ChannelFilter
  groups : List String
  /-- the highest first -/
  levels : String → List Int

namespace AutoRequest

variable (r : AutoRequest)

/-! ### What is still to be tried -/

/-- The attempts in a group from a retry on: none where there is no channel, and otherwise one for
each retry up to the limit. -/
def turns (retry : Nat) (group : String) : List (String × Int) :=
  if r.levels group = [] then []
  else (List.range' retry (r.retryTimes + 1 - retry)).map fun retry =>
    (group, targetPriority (r.levels group) retry)

/-- The attempts from a retry in the first group on. -/
def remaining (retry : Nat) : List String → List (String × Int)
  | [] => []
  | group :: rest => r.turns retry group ++ rest.flatMap (r.turns 0)

/-- The levels are what a selection answers from. -/
def Answered (select : Selection) : Prop :=
  ∀ i group retry,
    (r.levels group = [] → (select i group r.modelName retry r.filters).1 = none) ∧
      (r.levels group ≠ [] → ∃ channel,
        (select i group r.modelName retry r.filters).1 = some channel ∧
          channel.getPriority = targetPriority (r.levels group) retry)

structure Made (param : RetryParam) (ctx : RequestContext) : Prop where
  auto : param.tokenGroup = "auto"
  model : param.modelName = r.modelName
  flag : param.resetNextTry = false
  groups : ctx.autoGroups = r.groups
  filters : ctx.filters = r.filters
  cross : ctx.crossGroupRetry = true

/-- What a selection has found, and what the increment after it leaves to the next one. -/
structure Finds (retry : Nat) (selected : Selected) (head : String × Int)
    (tail : List (String × Int)) : Prop where
  channel : ∃ channel, selected.channel = some channel ∧
    (selected.selectGroup, channel.getPriority) = head
  made : r.Made selected.param.increaseRetry selected.ctx
  tail : r.remaining selected.param.increaseRetry.getRetry
    (r.groups.drop (selected.ctx.autoGroupIndex.getD 0)) = tail
  first : retry = 0 → 0 < r.retryTimes → selected.param.increaseRetry.getRetry = 1

variable {r}

theorem remaining_zero (groups : List String) :
    r.remaining 0 groups = groups.flatMap (r.turns 0) := by
  cases groups <;> rfl

theorem turns_cons {retry : Nat} {group : String} (hlevels : r.levels group ≠ [])
    (hretry : retry ≤ r.retryTimes) :
    r.turns retry group =
      (group, targetPriority (r.levels group) retry) :: r.turns (retry + 1) group := by
  unfold turns
  rw [if_neg hlevels, if_neg hlevels,
    show r.retryTimes + 1 - retry = r.retryTimes - retry + 1 by omega, List.range'_succ,
    List.map_cons, show r.retryTimes + 1 - (retry + 1) = r.retryTimes - retry by omega]

theorem turns_past (group : String) : r.turns (r.retryTimes + 1) group = [] := by
  simp [turns]

variable {select : Selection} {order : List (String × Int)} {t : RelayLoop} {a : Attempt}

theorem selectAutoGroup_finds (hselect : r.Answered select) {start : Nat} :
    ∀ {rest : List String} {i : Nat} {param : RetryParam} {ctx : RequestContext},
      r.groups.drop i = rest → r.Made param ctx → param.getRetry ≤ r.retryTimes →
        (i > start → param.getRetry = 0) →
          (r.remaining param.getRetry rest = [] ∧
            (selectAutoGroup r.retryTimes select start param ctx i rest).channel = none) ∨
          ∃ head tail, r.remaining param.getRetry rest = head :: tail ∧
            r.Finds param.getRetry (selectAutoGroup r.retryTimes select start param ctx i rest)
              head tail := by
  intro rest
  induction rest with
  | nil => exact fun _ _ _ _ => .inl ⟨rfl, rfl⟩
  | cons group rest ih =>
    intro i param ctx hrest hmade hretry hmoved
    have hnext : r.groups.drop (i + 1) = rest := by
      rw [← List.tail_drop, hrest, List.tail_cons]
    have hpriority : (if i > start then 0 else param.getRetry) = param.getRetry := by
      by_cases hi : i > start
      · rw [if_pos hi, hmoved hi]
      · rw [if_neg hi]
    have hanswer := hselect i group param.getRetry
    rw [← hmade.model, ← hmade.filters] at hanswer
    unfold selectAutoGroup
    dsimp only
    rw [hpriority]
    by_cases hlevels : r.levels group = []
    · rw [hanswer.1 hlevels]
      have hskip : r.remaining param.getRetry (group :: rest) = r.remaining 0 rest := by
        rw [remaining_zero, remaining, turns, if_pos hlevels, List.nil_append]
      rw [hskip]
      refine (@ih (i + 1) (param.setRetry 0)
        { ctx with autoGroupIndex := some (i + 1), autoGroupRetryIndex := some 0 } hnext
        ⟨hmade.auto, hmade.model, hmade.flag, hmade.groups, hmade.filters, hmade.cross⟩
        (Nat.zero_le _) fun _ => rfl).imp_right ?_
      rintro ⟨head, tail, hcons, h⟩
      exact ⟨head, tail, hcons, h.channel, h.made, h.tail, fun _ => h.first rfl⟩
    · obtain ⟨channel, hchannel, hlevel⟩ := hanswer.2 hlevels
      rw [hchannel]
      refine .inr ⟨_, _, by rw [remaining, turns_cons hlevels hretry, List.cons_append], ?_⟩
      dsimp only
      by_cases hlast : param.getRetry ≥ r.retryTimes
      · -- the last retry in the group
        rw [if_pos ⟨hmade.cross, hlast⟩]
        refine ⟨⟨channel, rfl, by rw [hlevel]⟩,
          ⟨hmade.auto, hmade.model, rfl, hmade.groups, hmade.filters, hmade.cross⟩, ?_, by omega⟩
        rw [show param.getRetry = r.retryTimes by omega, turns_past, List.nil_append,
          ← remaining_zero]
        exact congrArg _ hnext
      · rw [if_neg fun h => hlast h.2]
        have hone : param.increaseRetry = param.setRetry (param.getRetry + 1) :=
          if_neg (by rw [hmade.flag]; exact Bool.false_ne_true)
        refine ⟨⟨channel, rfl, by rw [hlevel]⟩, ?_, ?_, ?_⟩
        · rw [hone]
          exact ⟨hmade.auto, hmade.model, hmade.flag, hmade.groups, hmade.filters, hmade.cross⟩
        · dsimp only
          rw [hone]
          exact congrArg _ hrest
        · intro hzero _
          rw [hone, hzero]
          rfl

/-- A selection finds the first of what remains, if there is one. -/
theorem select_finds (hselect : r.Answered select) {param : RetryParam} {ctx : RequestContext}
    (hmade : r.Made param ctx) (hretry : param.getRetry ≤ r.retryTimes) :
    (r.remaining param.getRetry (r.groups.drop (ctx.autoGroupIndex.getD 0)) = [] ∧
      (cacheGetRandomSatisfiedChannel r.retryTimes select param ctx).channel = none) ∨
    ∃ head tail,
      r.remaining param.getRetry (r.groups.drop (ctx.autoGroupIndex.getD 0)) = head :: tail ∧
        r.Finds param.getRetry (cacheGetRandomSatisfiedChannel r.retryTimes select param ctx)
          head tail := by
  unfold cacheGetRandomSatisfiedChannel
  rw [if_pos hmade.auto, hmade.groups]
  by_cases hempty : r.groups.isEmpty = true
  · rw [if_pos hempty, List.isEmpty_iff.mp hempty, List.drop_nil]
    exact .inl ⟨rfl, rfl⟩
  · rw [if_neg hempty]
    exact selectAutoGroup_finds hselect rfl hmade hretry fun h => absurd h (Nat.lt_irrefl _)

/-! ### The loop -/

/-- The selections of the loop, as groups and priorities. -/
def trace (s : RelayLoop) : List (String × Int) :=
  s.selections.map fun selection => (selection.1, selection.2.getPriority)

/-- The loop has tried a part of an order; all of it, once it has found no channel; and before
that, what it will find is the rest. -/
structure Following (r : AutoRequest) (order : List (String × Int)) (s : RelayLoop) : Prop where
  part : trace s <+: order
  all : s.stopped = true → trace s = order
  rest : s.stopped = false → s.param.getRetry ≤ r.retryTimes → s.channelMeta = true ∧
    r.Made s.param s.ctx ∧ trace s ++ r.remaining s.param.getRetry
      (r.groups.drop (s.ctx.autoGroupIndex.getD 0)) = order

/-- An attempt that reaches its channel, fails, and is retried. -/
structure Failing (r : AutoRequest) (a : Attempt) : Prop where
  outcome : a.outcome = .failed true
  begun : a.initChannelMeta = true
  answered : r.Answered a.select

theorem following_step {s : RelayLoop} (h : r.Following order s) (ha : r.Failing a)
    (hstep : s.step r.retryTimes a = some t) : r.Following order t := by
  unfold RelayLoop.step at hstep
  obtain ⟨hend, hstep⟩ := Option.ite_none_left_eq_some.mp hstep
  rw [not_or, Bool.not_eq_true, not_lt] at hend
  obtain ⟨hbegun, hmade, hrest⟩ := h.rest hend.1 hend.2
  unfold RelayLoop.getChannel at hstep
  rw [if_neg (by simp [hbegun])] at hstep
  dsimp only at hstep
  rcases select_finds ha.answered hmade hend.2 with ⟨hnil, hnone⟩ | ⟨head, tail, hcons, hfinds⟩
  · rw [hnone] at hstep
    cases hstep
    rw [hnil, List.append_nil] at hrest
    exact ⟨h.part, fun _ => hrest, fun hgo => absurd hgo Bool.noConfusion⟩
  · obtain ⟨channel, hchannel, hhead⟩ := hfinds.channel
    rw [hchannel] at hstep
    simp only [ha.outcome, ne_eq, reduceCtorEq, not_false_eq_true, decide_true] at hstep
    cases hstep
    have htrace : ∀ u : RelayLoop, u.selections = s.selections ++
        [((cacheGetRandomSatisfiedChannel r.retryTimes a.select s.param s.ctx).selectGroup,
          channel)] → trace u = trace s ++ [head] := by
      intro u hu
      rw [trace, hu, List.map_append, List.map_singleton, hhead]
      rfl
    rw [hcons, List.append_cons] at hrest
    refine ⟨⟨tail, ?_⟩, fun hstop => ?_, fun _ _ => ⟨?_, hfinds.made, ?_⟩⟩
    · rw [htrace _ rfl, hrest]
    · exact absurd (hend.1.symm.trans hstop) Bool.noConfusion
    · rw [hbegun]
      rfl
    · rw [htrace _ rfl, hfinds.tail, hrest]

theorem following_run {attempts : List Attempt} :
    ∀ {s t : RelayLoop}, r.Following order s → (∀ a ∈ attempts, r.Failing a) →
      Machine.run (RelayLoop.step r.retryTimes) s attempts = some t → r.Following order t := by
  induction attempts with
  | nil =>
    intro s t h _ hrun
    cases hrun
    exact h
  | cons a rest ih =>
    intro s t h hfailing hrun
    obtain ⟨mid, hmid, hrest⟩ := Machine.run_cons _ hrun
    exact ih (following_step h (hfailing a (List.mem_cons_self ..)) hmid)
      (fun b hb => hfailing b (List.mem_cons_of_mem _ hb)) hrest

/-- The first attempt has the channel of the context, and leaves what the selection of that channel
has left. -/
theorem following_first {selected : Selected} {head : String × Int} {tail : List (String × Int)}
    (hfinds : r.Finds 0 selected head tail) (ha : r.Failing a)
    (hstep : (RelayLoop.start "auto" r.modelName selected.ctx).step r.retryTimes a = some t) :
    r.Following tail t := by
  have hget : (RelayLoop.start "auto" r.modelName selected.ctx).getChannel r.retryTimes a =
      (true, .start "auto" r.modelName selected.ctx) := rfl
  unfold RelayLoop.step at hstep
  rw [if_neg (by simp [RelayLoop.start, RetryParam.getRetry]), hget] at hstep
  simp only [ha.outcome] at hstep
  cases hstep
  refine ⟨List.nil_prefix, fun h => absurd h Bool.noConfusion, fun _ hretry => ⟨ha.begun, ?_, ?_⟩⟩
  · exact ⟨rfl, rfl, rfl, hfinds.made.groups, hfinds.made.filters, hfinds.made.cross⟩
  · rw [← hfinds.tail, hfinds.first rfl hretry]
    rfl

end AutoRequest

/-! ### From the distributor on -/

/-- What the memory cache answers during an attempt, with a draw for each group. -/
def cacheSelection (regexp : Regexp) (normalize : String → String) (cache : ChannelCache)
    (random : Nat → Nat) : Selection := fun i group model retry filters =>
  match cache.getRandomSatisfiedChannel regexp normalize group model retry filters (random i) with
  | .ok channel => (channel, none)
  | .error err => (none, some err)

def autoRequest (regexp : Regexp) (normalize : String → String) (channels : ChannelTable)
    (retryTimes : Nat) (modelName : String) (ctx : RequestContext) : AutoRequest where
  retryTimes := retryTimes
  modelName := modelName
  filters := ctx.filters
  groups := ctx.autoGroups
  levels := fun group => uniqueSorted
    ((selectable regexp normalize channels group modelName ctx.filters).map (·.getPriority))

section Order

variable {regexp : Regexp} {normalize : String → String} {old cache : ChannelCache}
  {channels : ChannelTable} {abilities : List Ability} {retryTimes : Nat} {modelName : String}
  {ctx : RequestContext}

theorem cacheSelection_answered (hcache : initChannelCache old channels abilities = some cache)
    (random : Nat → Nat) :
    (autoRequest regexp normalize channels retryTimes modelName ctx).Answered
      (cacheSelection regexp normalize cache random) := by
  intro i group retry
  have hspec := @getRandomSatisfiedChannel_spec regexp normalize old cache channels abilities group
    modelName ctx.filters hcache retry (random i)
  unfold cacheSelection autoRequest
  dsimp only
  rcases hspec with ⟨hnone, hget⟩ | ⟨channel, hget, row, hrow, rfl, hpriority⟩
  · rw [hget]
    exact ⟨fun _ => rfl, fun hsome => absurd (by rw [hnone]; rfl) hsome⟩
  · rw [hget]
    refine ⟨fun hnil => absurd hnil (uniqueSorted_ne_nil ?_), fun _ => ⟨_, rfl, ?_⟩⟩
    · exact List.ne_nil_of_mem (List.mem_map_of_mem hrow)
    · rw [keepPollingIndex_getPriority, hpriority]
      rfl

/-- A request whose every attempt fails, while the channel cache stays as it was synced: it goes
through the groups in their order, and in each that has channels through one attempt for every
retry up to the limit, at the level of the retry or at the lowest; and when it finds no channel
any more, it has made all of these attempts. -/
theorem failing_attempts_order (hcache : initChannelCache old channels abilities = some cache)
    {random : Nat → Nat} {channel : Channel} {first : Selected} {attempts : List Attempt}
    {s : RelayLoop} (hcross : ctx.crossGroupRetry = true) (hfresh : ctx.autoGroupIndex = none)
    (hfirst : cacheGetRandomSatisfiedChannel retryTimes (cacheSelection regexp normalize cache random)
      ⟨"auto", modelName, some 0, false⟩ ctx = first)
    (hchannel : first.channel = some channel)
    (hfailing : ∀ a ∈ attempts, a.outcome = .failed true ∧ a.initChannelMeta = true ∧
      ∃ random, a.select = cacheSelection regexp normalize cache random)
    (hrun : Machine.run (RelayLoop.step retryTimes) (.start "auto" modelName first.ctx) attempts =
      some s) :
    let r := autoRequest regexp normalize channels retryTimes modelName ctx
    (first.selectGroup, channel.getPriority) :: AutoRequest.trace s <+:
        ctx.autoGroups.flatMap (r.turns 0) ∧
      (s.stopped = true → (first.selectGroup, channel.getPriority) :: AutoRequest.trace s =
        ctx.autoGroups.flatMap (r.turns 0)) := by
  intro r
  have hmade : r.Made ⟨"auto", modelName, some 0, false⟩ ctx := ⟨rfl, rfl, rfl, rfl, rfl, hcross⟩
  rcases AutoRequest.select_finds (cacheSelection_answered hcache random) hmade (Nat.zero_le _) with
    ⟨-, hnone⟩ | ⟨head, tail, hcons, hfinds⟩
  · rw [show cacheGetRandomSatisfiedChannel r.retryTimes _ _ ctx = first from hfirst, hchannel]
      at hnone
    cases hnone
  rw [show cacheGetRandomSatisfiedChannel r.retryTimes _ _ ctx = first from hfirst] at hfinds
  obtain ⟨_, hfound, rfl⟩ := hfinds.channel
  cases hchannel.symm.trans hfound
  rw [hfresh] at hcons
  rw [← AutoRequest.remaining_zero, show r.remaining 0 ctx.autoGroups = _ from hcons]
  have hloop : AutoRequest.trace s <+: tail ∧ (s.stopped = true → AutoRequest.trace s = tail) := by
    cases attempts with
    | nil =>
      cases hrun
      exact ⟨List.nil_prefix, fun h => absurd h Bool.noConfusion⟩
    | cons a rest =>
      have hfails : ∀ b ∈ a :: rest, r.Failing b := fun b hb => by
        obtain ⟨houtcome, hbegun, random, hselect⟩ := hfailing b hb
        exact ⟨houtcome, hbegun, hselect ▸ cacheSelection_answered hcache random⟩
      obtain ⟨mid, hmid, hrest⟩ := Machine.run_cons _ hrun
      have h : r.Following tail s := AutoRequest.following_run
        (AutoRequest.following_first hfinds (hfails a (List.mem_cons_self ..)) hmid)
        (fun b hb => hfails b (List.mem_cons_of_mem _ hb)) hrest
      exact ⟨h.part, h.all⟩
  exact ⟨List.cons_prefix_cons.mpr ⟨rfl, hloop.1⟩, fun h => by rw [hloop.2 h]⟩

end Order

/-- The channels are those of the second group. -/
def pairSelection : Selection := cacheSelection (fun _ => none) (fun m => m) pairCache fun _ => 0

def pairFirst : Selected :=
  cacheGetRandomSatisfiedChannel 1 pairSelection ⟨"auto", "m", some 0, false⟩ twoGroups

theorem failing_attempts_order_pair : ∃ s, Machine.run (RelayLoop.step 1)
    (.start "auto" "m" pairFirst.ctx) (List.replicate 3 ⟨pairSelection, true, .failed true⟩) =
      some s ∧ ("default", 0) :: AutoRequest.trace s = [("default", 0), ("default", 0)] := by
  have hruns : (Machine.run (RelayLoop.step 1) (.start "auto" "m" pairFirst.ctx)
      (List.replicate 3 ⟨pairSelection, true, .failed true⟩)).map RelayLoop.stopped = some true := rfl
  obtain ⟨s, hrun, hstopped⟩ := Option.map_eq_some_iff.mp hruns
  have hselect : pairSelection = cacheSelection (fun _ => none) (fun m => m) pairCache fun _ => 0 :=
    rfl
  have hchannel : pairFirst.channel = some (weighted 2 5) := rfl
  have hfirst : cacheGetRandomSatisfiedChannel 1 (cacheSelection (fun _ => none) (fun m => m)
    pairCache fun _ => 0) ⟨"auto", "m", some 0, false⟩ twoGroups = pairFirst := rfl
  refine ⟨s, hrun, (failing_attempts_order pairCache_synced rfl rfl hfirst hchannel
    (fun a ha => ?_) hrun).2 hstopped⟩
  rw [List.eq_of_mem_replicate ha]
  exact ⟨rfl, rfl, _, hselect⟩

end JulongApi.Relay

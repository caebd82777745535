/-
The retry loop of a request is bounded, although selection sets its counter back.

What is left of the loop is `left`: a full turn of retries for each group from the stored
position on, and what the counter has not yet used of the present one.  A selection that sets
the counter back has moved on by a group, so every attempt that does not stop the loop lowers it
(`left_lt_of_group`, `left_lt_of_retry`), and a channel is returned only while a group is left.
-/
import JulongApi.Lib.Machine
import JulongApi.RelayRetry
import JulongApi.Proofs.ChannelCache

namespace JulongApi.Relay

open Channels

/-! ### What is left of the loop -/

/-- What is left of `n` groups at position `k` and retry `r`. -/
def left (retryTimes n k r : Nat) : Nat := (n - k) * (retryTimes + 1) + (retryTimes + 1 - r)

variable {n k r : Nat} {s : RelayLoop} {attempts : List Attempt}

theorem left_lt_of_group {retryTimes j r' : Nat} (hgroup : k < n) (hmoved : k < j)
    (hretry : r ≤ retryTimes) : left retryTimes n j r' < left retryTimes n k r := by
  have hfewer : (n - j + 1) * (retryTimes + 1) ≤ (n - k) * (retryTimes + 1) :=
    Nat.mul_le_mul_right _ (by omega)
  have hturn : (n - j + 1) * (retryTimes + 1) = (n - j) * (retryTimes + 1) + (retryTimes + 1) := by
    ring
  unfold left
  omega

theorem left_lt_of_retry {retryTimes : Nat} (hretry : r ≤ retryTimes) :
    left retryTimes n k (r + 1) < left retryTimes n k r := by
  unfold left
  omega

theorem left_of_group {retryTimes : Nat} (hgroup : k < n) (hretry : r ≤ retryTimes) :
    retryTimes + 1 < left retryTimes n k r := by
  have hone : 1 * (retryTimes + 1) ≤ (n - k) * (retryTimes + 1) :=
    Nat.mul_le_mul_right _ (by omega)
  unfold left
  omega

theorem left_start (retryTimes n k : Nat) :
    left retryTimes n k 0 ≤ n * (retryTimes + 1) + (retryTimes + 1) := by
  have h : (n - k) * (retryTimes + 1) ≤ n * (retryTimes + 1) :=
    Nat.mul_le_mul_right _ (by omega)
  unfold left
  omega

/-! ### What a selection does -/

/-- The position from which the next selection searches; without auto groups there is one. -/
def position (param : RetryParam) (ctx : RequestContext) : Nat :=
  if param.tokenGroup = "auto" then ctx.autoGroupIndex.getD 0 else 0

def groupCount (param : RetryParam) (ctx : RequestContext) : Nat :=
  if param.tokenGroup = "auto" then ctx.autoGroups.length else 1

/-- A stored position is followed by no lower one. -/
def IndexLE (ctx ctx' : RequestContext) : Prop :=
  ∀ k, ctx.autoGroupIndex = some k → ∃ k', ctx'.autoGroupIndex = some k' ∧ k ≤ k'

theorem IndexLE.refl (ctx : RequestContext) : IndexLE ctx ctx := fun k h => ⟨k, h, Nat.le_refl k⟩

theorem IndexLE.trans {a b c : RequestContext} (hab : IndexLE a b) (hbc : IndexLE b c) :
    IndexLE a c := by
  intro k hk
  obtain ⟨k', hk', hle⟩ := hab k hk
  obtain ⟨k'', hk'', hle'⟩ := hbc k' hk'
  exact ⟨k'', hk'', hle.trans hle'⟩

structure Kept (param param' : RetryParam) (ctx ctx' : RequestContext) : Prop where
  tokenGroup : param'.tokenGroup = param.tokenGroup
  autoGroups : ctx'.autoGroups = ctx.autoGroups
  index : IndexLE ctx ctx'

/-- What a selection that returns a channel leaves to the next increment of the counter: it has
moved on by a group, or the counter goes up by one. -/
structure Advanced (param param' : RetryParam) (ctx ctx' : RequestContext) : Prop where
  group : position param ctx < groupCount param ctx
  onward : position param ctx < position param' ctx' ∨
    position param' ctx' = position param ctx ∧ param'.resetNextTry = false ∧
      param'.getRetry = param.getRetry

section Select

variable {retryTimes : Nat} {select : Selection}

theorem selectAutoGroup_kept {start : Nat} : ∀ {groups : List String} {i : Nat}
    {param : RetryParam} {ctx : RequestContext} {selected : Selected},
    selectAutoGroup retryTimes select start param ctx i groups = selected →
      (∀ k, ctx.autoGroupIndex = some k → k ≤ i) →
        Kept param selected.param ctx selected.ctx := by
  intro groups
  induction groups with
  | nil =>
    rintro i param ctx selected rfl _
    exact ⟨rfl, rfl, .refl ctx⟩
  | cons autoGroup rest ih =>
    rintro i param ctx selected h hindex
    simp only [selectAutoGroup] at h
    generalize (if i > start then 0 else param.getRetry) = priorityRetry at h
    split at h
    · have hnext := ih h fun k hk => by
        cases hk
        exact Nat.le_refl _
      refine ⟨hnext.tokenGroup, hnext.autoGroups, fun k hk => ?_⟩
      obtain ⟨k', hk', hle⟩ := hnext.index (i + 1) rfl
      exact ⟨k', hk', by have := hindex k hk; omega⟩
    · split at h
      · subst h
        exact ⟨rfl, rfl, fun k hk => ⟨i + 1, rfl, by have := hindex k hk; omega⟩⟩
      · subst h
        exact ⟨rfl, rfl, fun k hk => ⟨i, rfl, hindex k hk⟩⟩

/-- The loop over the groups: it stops at some position, and there it either goes on to the next
or stays with the counter it has used. -/
theorem selectAutoGroup_channel {start : Nat} : ∀ {groups : List String} {i : Nat}
    {param : RetryParam} {ctx : RequestContext} {selected : Selected} {channel : Channel},
    selectAutoGroup retryTimes select start param ctx i groups = selected →
      selected.channel = some channel → param.resetNextTry = false →
      ∃ j, i ≤ j ∧ j < i + groups.length ∧
        (selected.ctx.autoGroupIndex = some (j + 1) ∨
          selected.ctx.autoGroupIndex = some j ∧ selected.param.resetNextTry = false ∧
            (j = i → selected.param.getRetry = param.getRetry)) := by
  intro groups
  induction groups with
  | nil =>
    rintro i param ctx selected channel rfl hchannel
    cases hchannel
  | cons autoGroup rest ih =>
    rintro i param ctx selected channel h hchannel hflag
    simp only [selectAutoGroup] at h
    generalize (if i > start then 0 else param.getRetry) = priorityRetry at h
    split at h
    · obtain ⟨j, hle, hlt, hstored⟩ := ih h hchannel hflag
      refine ⟨j, by omega, by simp only [List.length_cons]; omega, ?_⟩
      refine hstored.imp_right fun hstay => ⟨hstay.1, hstay.2.1, fun hj => ?_⟩
      omega
    · refine ⟨i, Nat.le_refl i, by simp, ?_⟩
      split at h
      · subst h
        exact .inl rfl
      · subst h
        exact .inr ⟨rfl, hflag, fun _ => rfl⟩

variable {param : RetryParam} {ctx : RequestContext}

theorem select_kept : Kept param
    (cacheGetRandomSatisfiedChannel retryTimes select param ctx).param ctx
    (cacheGetRandomSatisfiedChannel retryTimes select param ctx).ctx := by
  unfold cacheGetRandomSatisfiedChannel
  split
  · split
    · exact ⟨rfl, rfl, .refl ctx⟩
    · refine selectAutoGroup_kept rfl fun k hk => ?_
      rw [hk]
      exact Nat.le_refl k
  · split
    · exact ⟨rfl, rfl, .refl ctx⟩
    · exact ⟨rfl, rfl, .refl ctx⟩

theorem select_advanced {channel : Channel}
    (hchannel : (cacheGetRandomSatisfiedChannel retryTimes select param ctx).channel = some channel)
    (hflag : param.resetNextTry = false) :
    Advanced param (cacheGetRandomSatisfiedChannel retryTimes select param ctx).param ctx
      (cacheGetRandomSatisfiedChannel retryTimes select param ctx).ctx := by
  have hkept := @select_kept retryTimes select param ctx
  generalize hselected : cacheGetRandomSatisfiedChannel retryTimes select param ctx = selected at *
  unfold cacheGetRandomSatisfiedChannel at hselected
  by_cases hauto : param.tokenGroup = "auto"
  · rw [if_pos hauto] at hselected
    have hposition : position param ctx = ctx.autoGroupIndex.getD 0 := if_pos hauto
    have hnext : position selected.param selected.ctx = selected.ctx.autoGroupIndex.getD 0 :=
      if_pos (hkept.tokenGroup.trans hauto)
    have hcount : groupCount param ctx = ctx.autoGroups.length := if_pos hauto
    split at hselected
    · subst hselected
      cases hchannel
    · obtain ⟨j, hle, hlt, hstored⟩ := selectAutoGroup_channel hselected hchannel hflag
      rw [List.length_drop] at hlt
      constructor
      · omega
      · rw [hposition, hnext]
        rcases hstored with hmoved | ⟨hstay, hno, hretry⟩
        · rw [hmoved, Option.getD_some]
          omega
        · rw [hstay, Option.getD_some]
          by_cases hj : j = ctx.autoGroupIndex.getD 0
          · exact .inr ⟨hj, hno, hretry hj⟩
          · omega
  · rw [if_neg hauto] at hselected
    have hposition : position param ctx = 0 := if_neg hauto
    have hcount : groupCount param ctx = 1 := if_neg hauto
    split at hselected
    · subst hselected
      cases hchannel
    · subst hselected
      exact ⟨by omega, .inr ⟨rfl, hflag, rfl⟩⟩

end Select

/-! ### What an attempt does -/

theorem Advanced.left_lt {retryTimes : Nat} {param param' : RetryParam} {ctx ctx' : RequestContext}
    (h : Advanced param param' ctx ctx') (hcount : groupCount param ctx = n)
    (hretry : param.getRetry ≤ retryTimes) :
    left retryTimes n (position param'.increaseRetry ctx') param'.increaseRetry.getRetry <
      left retryTimes n (position param ctx) param.getRetry := by
  have hsame : position param'.increaseRetry ctx' = position param' ctx' := by
    unfold position RetryParam.increaseRetry
    split <;> rfl
  rw [hsame]
  rcases h.onward with hmoved | ⟨hstay, hflag, hsameRetry⟩
  · exact left_lt_of_group (hcount ▸ h.group) hmoved hretry
  · have hnext : param'.increaseRetry.getRetry = param.getRetry + 1 := by
      rw [← hsameRetry, RetryParam.increaseRetry, hflag]
      rfl
    rw [hstay, hnext]
    exact left_lt_of_retry hretry

def RelayLoop.left (retryTimes : Nat) (s : RelayLoop) : Nat :=
  if s.stopped then 0
  else Relay.left retryTimes (groupCount s.param s.ctx) (position s.param s.ctx) s.param.getRetry

/-- How many channels the loop may still be given. -/
def RelayLoop.allowance (retryTimes : Nat) (s : RelayLoop) : Nat :=
  s.left retryTimes - (retryTimes + 1)

structure Turn (retryTimes : Nat) (s t : RelayLoop) : Prop where
  kept : Kept s.param t.param s.ctx t.ctx
  flag : t.stopped = false → t.param.resetNextTry = false
  lower : t.left retryTimes < s.left retryTimes
  paid : t.selections.length + t.allowance retryTimes ≤
    s.selections.length + s.allowance retryTimes

theorem RelayLoop.left_pos {retryTimes : Nat} (hrunning : s.stopped = false)
    (hretry : s.param.getRetry ≤ retryTimes) : 0 < s.left retryTimes := by
  unfold RelayLoop.left Relay.left
  rw [hrunning, if_neg (by simp)]
  omega

theorem increaseRetry_flag (param : RetryParam) : (param.increaseRetry).resetNextTry = false := by
  unfold RetryParam.increaseRetry
  split
  · rfl
  · next h => simpa using h

theorem increaseRetry_tokenGroup (param : RetryParam) :
    (param.increaseRetry).tokenGroup = param.tokenGroup := by
  unfold RetryParam.increaseRetry
  split <;> rfl

theorem groupCount_kept {param param' : RetryParam} {ctx ctx' : RequestContext}
    (h : Kept param param' ctx ctx') : groupCount param' ctx' = groupCount param ctx := by
  unfold groupCount
  rw [h.tokenGroup, h.autoGroups]

/-- What `getChannel` does: without selecting it changes nothing, and a channel is selected only
where a group is left. -/
theorem getChannel_cases {retryTimes : Nat} {s : RelayLoop} {a : Attempt}
    (hflag : s.param.resetNextTry = false) {found : Bool} {t : RelayLoop}
    (h : s.getChannel retryTimes a = (found, t)) :
    t = s ∨ Kept s.param t.param s.ctx t.ctx ∧ t.stopped = s.stopped ∧
      (found = false ∧ t.selections = s.selections ∨
        t.selections.length = s.selections.length + 1 ∧ Advanced s.param t.param s.ctx t.ctx) := by
  unfold RelayLoop.getChannel at h
  split at h
  · cases h
    exact .inl rfl
  · simp only [] at h
    have hkept := @select_kept retryTimes a.select s.param s.ctx
    split at h
    · cases h
      exact .inr ⟨hkept, rfl, .inl ⟨rfl, rfl⟩⟩
    · next channel hchannel =>
      cases h
      exact .inr ⟨hkept, rfl, .inr ⟨by simp, select_advanced hchannel hflag⟩⟩

theorem Turn.stop {retryTimes : Nat} {s t : RelayLoop} (hrunning : s.stopped = false)
    (hretry : s.param.getRetry ≤ retryTimes) (hkept : Kept s.param t.param s.ctx t.ctx)
    (hselected : t.selections.length ≤ s.selections.length ∨
      t.selections.length = s.selections.length + 1 ∧ Advanced s.param t.param s.ctx t.ctx)
    (hstopped : t.stopped = true) : Turn retryTimes s t where
  kept := hkept
  flag := fun h => absurd (hstopped.symm.trans h) (by simp)
  lower := by
    have hnone : t.left retryTimes = 0 := if_pos hstopped
    rw [hnone]
    exact s.left_pos hrunning hretry
  paid := by
    have hnone : t.allowance retryTimes = 0 := by
      rw [RelayLoop.allowance, RelayLoop.left, if_pos hstopped, Nat.zero_sub]
    rw [hnone]
    rcases hselected with hsame | ⟨hone, hadvanced⟩
    · omega
    · have hleft : retryTimes + 1 < s.left retryTimes := by
        rw [RelayLoop.left, hrunning]
        exact left_of_group hadvanced.group hretry
      unfold RelayLoop.allowance
      omega

theorem Turn.goOn {retryTimes : Nat} {t : RelayLoop} {param : RetryParam}
    (hrunning : s.stopped = false) (hretry : s.param.getRetry ≤ retryTimes)
    (hkept : Kept s.param param s.ctx t.ctx) (hparam : t.param = param.increaseRetry)
    (hgone : t.stopped = false)
    (hselected : param = s.param ∧ t.ctx = s.ctx ∧ s.param.resetNextTry = false ∧
        t.selections = s.selections ∨
      t.selections.length = s.selections.length + 1 ∧ Advanced s.param param s.ctx t.ctx) :
    Turn retryTimes s t := by
  have hkept' : Kept s.param t.param s.ctx t.ctx := by
    refine ⟨?_, hkept.autoGroups, hkept.index⟩
    rw [hparam, increaseRetry_tokenGroup, hkept.tokenGroup]
  have hleft : s.left retryTimes = Relay.left retryTimes (groupCount s.param s.ctx)
      (position s.param s.ctx) s.param.getRetry := by
    rw [RelayLoop.left, hrunning]
    rfl
  have hleft' : t.left retryTimes = Relay.left retryTimes (groupCount s.param s.ctx)
      (position param.increaseRetry t.ctx) param.increaseRetry.getRetry := by
    rw [RelayLoop.left, hgone, groupCount_kept hkept', hparam]
    rfl
  have hlower : t.left retryTimes < s.left retryTimes := by
    rw [hleft, hleft']
    rcases hselected with ⟨rfl, hctx, hflag, -⟩ | ⟨-, hadvanced⟩
    · have hstep : s.param.increaseRetry = s.param.setRetry (s.param.getRetry + 1) := by
        rw [RetryParam.increaseRetry, if_neg (by simp [hflag])]
        rfl
      rw [hctx, hstep]
      exact left_lt_of_retry hretry
    · exact hadvanced.left_lt rfl hretry
  refine ⟨hkept', fun _ => hparam ▸ increaseRetry_flag param, hlower, ?_⟩
  rcases hselected with ⟨-, -, -, hsame⟩ | ⟨hone, hadvanced⟩
  · rw [hsame]
    unfold RelayLoop.allowance
    omega
  · have hgroup : retryTimes + 1 < s.left retryTimes :=
      hleft ▸ left_of_group hadvanced.group hretry
    unfold RelayLoop.allowance
    omega

theorem step_turn {retryTimes : Nat} {s t : RelayLoop} {a : Attempt}
    (hflag : s.stopped = false → s.param.resetNextTry = false)
    (h : s.step retryTimes a = some t) : Turn retryTimes s t := by
  unfold RelayLoop.step at h
  obtain ⟨hgo, h⟩ := Option.ite_none_left_eq_some.mp h
  rw [not_or, Bool.not_eq_true, Nat.not_lt] at hgo
  obtain ⟨hrunning, hretry⟩ := hgo
  have hcases := fun found mid => @getChannel_cases retryTimes s a (hflag hrunning) found mid
  -- a turn that stops has selected a channel or not
  have hstop : ∀ {found : Bool} {mid : RelayLoop}, s.getChannel retryTimes a = (found, mid) →
      ∀ t : RelayLoop, t.param = mid.param → t.ctx = mid.ctx → t.selections = mid.selections →
        t.stopped = true → Turn retryTimes s t := by
    intro found mid hmid t hparam hctx hselections hstopped
    rcases hcases found mid hmid with rfl | ⟨hkept, -, hselected⟩
    · refine Turn.stop hrunning hretry ?_ (.inl (by rw [hselections])) hstopped
      rw [hparam, hctx]
      exact ⟨rfl, rfl, .refl _⟩
    · refine Turn.stop hrunning hretry (by rw [hparam, hctx]; exact hkept) ?_ hstopped
      rw [hselections, hparam, hctx]
      exact hselected.imp_left fun hsame => by rw [hsame.2]
  split at h
  · next mid hmid =>
    cases h
    exact hstop hmid _ rfl rfl rfl rfl
  · next mid hmid =>
    simp only [] at h
    split at h
    · cases h
      rcases hcases true mid hmid with rfl | ⟨hkept, hsame, hselected⟩
      · exact Turn.goOn hrunning hretry ⟨rfl, rfl, .refl _⟩ rfl hrunning
          (.inl ⟨rfl, rfl, hflag hrunning, rfl⟩)
      · refine Turn.goOn hrunning hretry hkept rfl (hsame.trans hrunning) (.inr ?_)
        exact hselected.resolve_left fun hno => by simp at hno
    · cases h
      exact hstop hmid _ rfl rfl rfl rfl

/-! ### What a run does -/

/-- What a run of turns has come to, from where it began. -/
structure Progress (retryTimes : Nat) (s t : RelayLoop) (turns : Nat) : Prop where
  kept : Kept s.param t.param s.ctx t.ctx
  flag : t.stopped = false → t.param.resetNextTry = false
  lower : t.left retryTimes + turns ≤ s.left retryTimes
  paid : t.selections.length + t.allowance retryTimes ≤
    s.selections.length + s.allowance retryTimes

theorem run_progress {retryTimes : Nat} : ∀ {s t : RelayLoop},
    (s.stopped = false → s.param.resetNextTry = false) →
      Machine.run (RelayLoop.step retryTimes) s attempts = some t →
        Progress retryTimes s t attempts.length := by
  induction attempts with
  | nil =>
    intro s t hflag hrun
    obtain rfl : s = t := by simpa using hrun
    exact ⟨⟨rfl, rfl, .refl _⟩, hflag, by simp, Nat.le_refl _⟩
  | cons a rest ih =>
    intro s t hflag hrun
    obtain ⟨mid, hmid, hrest⟩ := Machine.run_cons _ hrun
    have hturn := step_turn hflag hmid
    have hprogress := ih hturn.flag hrest
    constructor
    · exact ⟨hprogress.kept.tokenGroup.trans hturn.kept.tokenGroup,
        hprogress.kept.autoGroups.trans hturn.kept.autoGroups,
        hturn.kept.index.trans hprogress.kept.index⟩
    · exact hprogress.flag
    · have := hturn.lower
      have := hprogress.lower
      rw [List.length_cons]
      omega
    · exact hprogress.paid.trans hturn.paid

theorem start_left (retryTimes : Nat) (tokenGroup modelName : String) (ctx : RequestContext) :
    (RelayLoop.start tokenGroup modelName ctx).left retryTimes ≤
      groupCount (RelayLoop.start tokenGroup modelName ctx).param ctx * (retryTimes + 1) +
        (retryTimes + 1) := by
  exact left_start retryTimes _ _

theorem turns_bounded {retryTimes : Nat} {tokenGroup modelName : String} {ctx : RequestContext}
    (hrun : Machine.run (RelayLoop.step retryTimes) (.start tokenGroup modelName ctx) attempts =
      some s) :
    attempts.length ≤
      groupCount (RelayLoop.start tokenGroup modelName ctx).param ctx * (retryTimes + 1) +
        (retryTimes + 1) := by
  have hprogress := run_progress (fun _ => rfl) hrun
  have := hprogress.lower
  have := start_left retryTimes tokenGroup modelName ctx
  omega

theorem selections_length_le {retryTimes : Nat} {tokenGroup modelName : String}
    {ctx : RequestContext}
    (hrun : Machine.run (RelayLoop.step retryTimes) (.start tokenGroup modelName ctx) attempts =
      some s) :
    s.selections.length ≤
      groupCount (RelayLoop.start tokenGroup modelName ctx).param ctx * (retryTimes + 1) := by
  have hpaid := (run_progress (fun _ => rfl) hrun).paid
  have hleft := start_left retryTimes tokenGroup modelName ctx
  have hnone : (RelayLoop.start tokenGroup modelName ctx).selections.length = 0 := rfl
  rw [hnone] at hpaid
  unfold RelayLoop.allowance at hpaid
  omega

/-- With `n` auto groups, at most `n * (retryTimes + 1)` selections return a channel, the loop
stops, and no turn lowers the stored group index. -/
theorem auto_selections_bounded {retryTimes : Nat} {modelName : String} {ctx : RequestContext}
    {attempts : List Attempt} {s : RelayLoop}
    (hrun : Machine.run (RelayLoop.step retryTimes) (.start "auto" modelName ctx) attempts =
      some s) :
    s.selections.length ≤ ctx.autoGroups.length * (retryTimes + 1) ∧
      attempts.length ≤ (ctx.autoGroups.length + 1) * (retryTimes + 1) ∧
      ∀ done rest mid, done ++ rest = attempts →
        Machine.run (RelayLoop.step retryTimes) (.start "auto" modelName ctx) done = some mid →
          ∀ k, mid.ctx.autoGroupIndex = some k →
            ∃ k', s.ctx.autoGroupIndex = some k' ∧ k ≤ k' := by
  refine ⟨selections_length_le hrun, ?_, ?_⟩
  · have hturns := turns_bounded hrun
    have hcount : groupCount (RelayLoop.start "auto" modelName ctx).param ctx =
        ctx.autoGroups.length := rfl
    rw [hcount] at hturns
    rw [Nat.add_mul, Nat.one_mul]
    exact hturns
  · intro done rest mid hsplit hdone
    subst hsplit
    have hflag := (run_progress (fun _ => rfl) hdone).flag
    have hrest : Machine.run (RelayLoop.step retryTimes) mid rest = some s := by
      rw [← Machine.run_append hdone, hrun]
    exact (run_progress hflag hrest).kept.index

/-! ### Two groups, with two retries each -/

def twoGroups : RequestContext where
  autoGroups := ["vip", "default"]
  crossGroupRetry := true
  filters := []
  autoGroup := none
  autoGroupIndex := none
  autoGroupRetryIndex := none

/-- An attempt that finds a channel wherever it asks, fails, and is retried. -/
def failing : Attempt where
  select := fun _ _ _ _ _ => (some (sampleChannel 7 "m"), none)
  initChannelMeta := true
  outcome := .failed true

/-- The channel of the context, one of the first group and two of the second; then the groups
are exhausted. -/
theorem twoGroups_selections_bounded : ∃ s, Machine.run (RelayLoop.step 1)
    (.start "auto" "m" twoGroups) (List.replicate 5 failing) = some s ∧
      s.selections.map (·.1) = ["vip", "default", "default"] ∧ s.stopped = true ∧
      s.selections.length ≤ 2 * (1 + 1) ∧ s.ctx.autoGroupIndex = some 2 := by
  refine ⟨_, rfl, rfl, rfl, ?_, rfl⟩
  exact (@auto_selections_bounded 1 "m" twoGroups (List.replicate 5 failing) _ rfl).1

end JulongApi.Relay

/-
The reset schedule of a subscription.

The row remembers where its schedule counts from and the next boundary, and the two belong
together: a next reset time is the boundary after the base (`OnSchedule`).  From that follow
what the periodic reset leaves behind and that it returns.

The base also bounds how often the reset has zeroed the amount used: every zeroing moves the
base over a boundary of the plan, so there are no more zeroings than boundaries between the
start and the base.  An administrator's reset that finds no further boundary before the end
throws the base back to the start, and then boundaries are crossed a second time.
-/
import JulongApi.Proofs.Subscription
import JulongApi.SubscriptionReset

namespace JulongApi

/-! ### Boundaries -/

section Boundary

variable {cal : Calendar} {plan : SubscriptionPlan}

theorem inOrder_custom (hplan : plan.Periodic) (hcustom : plan.quotaResetPeriod = .custom)
    (start last : Int) : plan.InOrder cal start last := by
  have hpos := hplan.2 hcustom
  have hboundary : ∀ base, plan.boundary cal base = base + plan.quotaResetCustomSeconds := by
    intro base
    rw [SubscriptionPlan.boundary, hcustom]
  refine ⟨fun base _ _ => ?_, fun x y _ hxy _ => ?_⟩
  · rw [hboundary]
    omega
  · rw [hboundary, hboundary]
    omega

theorem calcNextResetTime_eq (hplan : plan.Periodic) (hfits : plan.Fits) (base endUnix : Int) :
    calcNextResetTime cal base plan endUnix =
      if 0 < endUnix ∧ endUnix < plan.boundary cal base then 0 else plan.boundary cal base := by
  obtain ⟨hnever, hcustom⟩ := hplan
  unfold calcNextResetTime SubscriptionPlan.boundary
  cases hperiod : plan.quotaResetPeriod with
  | never => exact absurd hperiod hnever
  | daily => rfl
  | weekly => rfl
  | monthly => rfl
  | custom =>
    have hpos := hcustom hperiod
    have hlt := hfits hperiod
    have hwrap : wrapInt64 (plan.quotaResetCustomSeconds * 10 ^ 9) / 10 ^ 9 =
        plan.quotaResetCustomSeconds := by
      rw [wrapInt64_eq ⟨by omega, by omega⟩]
      omega
    simp only [not_le.mpr hpos, if_false, hwrap]

theorem calcNextResetTime_cases (hplan : plan.Periodic) (hfits : plan.Fits) {base endUnix : Int}
    (hlt : base < plan.boundary cal base) (hbase : 0 < base) (hend : 0 < endUnix) :
    (calcNextResetTime cal base plan endUnix = 0 ∧ endUnix < plan.boundary cal base) ∨
      (calcNextResetTime cal base plan endUnix = plan.boundary cal base ∧
        0 < calcNextResetTime cal base plan endUnix ∧
        calcNextResetTime cal base plan endUnix ≤ endUnix) := by
  rw [calcNextResetTime_eq hplan hfits]
  by_cases hafter : endUnix < plan.boundary cal base
  · rw [if_pos ⟨hend, hafter⟩]
    exact .inl ⟨rfl, hafter⟩
  · rw [if_neg (fun h => hafter h.2)]
    exact .inr ⟨rfl, by omega, by omega⟩

end Boundary

/-! ### The loop -/

section Loop

variable {cal : Calendar} {plan : SubscriptionPlan} {start last endUnix now : Int}

theorem advanceReset_spec (hplan : plan.Periodic) (hfits : plan.Fits)
    (horder : plan.InOrder cal start last) (hstart : 0 < start) (hend : 0 < endUnix)
    (hlast : endUnix ≤ last) :
    ∀ {fuel : Nat} {base base' next : Int} {advanced : Bool}, start ≤ base → base ≤ last →
      advanceReset cal plan endUnix now fuel base = some (base', next, advanced) →
      next = calcNextResetTime cal base' plan endUnix ∧ ¬(0 < next ∧ next ≤ now) ∧
        advanced = decide (0 < calcNextResetTime cal base plan endUnix ∧
          calcNextResetTime cal base plan endUnix ≤ now) ∧
        (advanced = false → base' = base) ∧
        (advanced = true → plan.boundary cal base ≤ base' ∧ base' ≤ now ∧ base' ≤ last) := by
  intro fuel
  induction fuel with
  | zero =>
    intro base base' next advanced _ _ h
    simp [advanceReset] at h
  | succ fuel ih =>
    intro base base' next advanced hbase hbase_last h
    unfold advanceReset at h
    dsimp only at h
    split at h
    · rename_i hnext
      split at h
      · simp at h
      next base₂ next₂ advanced₂ hrec =>
      cases h
      have hlt := horder.ahead base hbase hbase_last
      obtain ⟨hboundary, -, hcapped⟩ :
          calcNextResetTime cal base plan endUnix = plan.boundary cal base ∧
            0 < calcNextResetTime cal base plan endUnix ∧
            calcNextResetTime cal base plan endUnix ≤ endUnix := by
        rcases calcNextResetTime_cases hplan hfits hlt (hstart.trans_le hbase) hend with
          ⟨hzero, -⟩ | hsome
        · omega
        · exact hsome
      obtain ⟨hlater, hbeyond, -, hstays, hpasses⟩ := ih (by omega) (by omega) hrec
      refine ⟨hlater, hbeyond, by simp [hnext], by simp, ?_⟩
      intro _
      cases advanced₂ with
      | false =>
        have hbase₂ := hstays rfl
        omega
      | true =>
        have hpass := hpasses rfl
        have hlt₂ := horder.ahead (calcNextResetTime cal base plan endUnix) (by omega) (by omega)
        omega
    · rename_i hnext
      cases h
      refine ⟨rfl, hnext, by simp [hnext], fun _ => rfl, by simp⟩

theorem advanceReset_ne_none (hplan : plan.Periodic) (hfits : plan.Fits)
    (horder : plan.InOrder cal start last) (hstart : 0 < start) (hend : 0 < endUnix)
    (hlast : endUnix ≤ last) :
    ∀ {fuel : Nat} {base : Int}, start ≤ base → base ≤ last → (now - base).toNat < fuel →
      advanceReset cal plan endUnix now fuel base ≠ none := by
  intro fuel
  induction fuel with
  | zero =>
    intro base _ _ hfuel
    omega
  | succ fuel ih =>
    intro base hbase hbase_last hfuel
    unfold advanceReset
    dsimp only
    split
    · rename_i hnext
      have hlt := horder.ahead base hbase hbase_last
      have hcases := calcNextResetTime_cases hplan hfits hlt (hstart.trans_le hbase) hend
      have hrec := @ih (calcNextResetTime cal base plan endUnix) (by omega) (by omega) (by omega)
      split
      · next hnone => exact absurd hnone hrec
      · simp
    · simp

end Loop

/-! ### One run of the periodic reset -/

structure OnSchedule (cal : Calendar) (plan : SubscriptionPlan) (sub : UserSubscription) :
    Prop where
  inOrder : plan.InOrder cal sub.startTime (max sub.startTime sub.endTime)
  start_pos : 0 < sub.startTime
  end_pos : 0 < sub.endTime
  start_le : sub.startTime ≤ sub.resetBase
  base_le : sub.resetBase ≤ max sub.startTime sub.endTime
  next : sub.nextResetTime = 0 ∨ (0 < sub.nextResetTime ∧
    sub.nextResetTime = calcNextResetTime cal sub.resetBase plan sub.endTime)

def ResetDone (cal : Calendar) (plan : SubscriptionPlan) (sub : UserSubscription) (now : Int) :
    Prop :=
  (sub.nextResetTime = 0 ∧ calcNextResetTime cal sub.resetBase plan sub.endTime = 0) ∨
    (0 < sub.nextResetTime ∧ now < sub.nextResetTime)

section Reset

variable {cal : Calendar} {plan : SubscriptionPlan} {sub sub' : UserSubscription} {now : Int}

theorem resetBase_of_pos (h : 0 < sub.lastResetTime) : sub.resetBase = sub.lastResetTime := by
  unfold UserSubscription.resetBase
  rw [if_neg (not_le.mpr h)]

theorem OnSchedule.cases (hsub : OnSchedule cal plan sub) (hplan : plan.Periodic)
    (hfits : plan.Fits) {base : Int} (hbase : sub.startTime ≤ base)
    (hlast : base ≤ max sub.startTime sub.endTime) :
    (calcNextResetTime cal base plan sub.endTime = 0 ∧ sub.endTime < plan.boundary cal base) ∨
      (calcNextResetTime cal base plan sub.endTime = plan.boundary cal base ∧
        0 < calcNextResetTime cal base plan sub.endTime ∧
        calcNextResetTime cal base plan sub.endTime ≤ sub.endTime) :=
  calcNextResetTime_cases hplan hfits (hsub.inOrder.ahead base hbase hlast)
    (hsub.start_pos.trans_le hbase) hsub.end_pos

/-- The loop of a run comes to an end. -/
theorem OnSchedule.loop (hsub : OnSchedule cal plan sub) (hplan : plan.Periodic)
    (hfits : plan.Fits) (now : Int) :
    ∃ base' next advanced,
      advanceReset cal plan sub.endTime now (resetFuel now sub.resetBase) sub.resetBase =
        some (base', next, advanced) ∧
      next = calcNextResetTime cal base' plan sub.endTime ∧ ¬(0 < next ∧ next ≤ now) ∧
      advanced = decide (0 < calcNextResetTime cal sub.resetBase plan sub.endTime ∧
        calcNextResetTime cal sub.resetBase plan sub.endTime ≤ now) ∧
      (advanced = false → base' = sub.resetBase) ∧
      (advanced = true → plan.boundary cal sub.resetBase ≤ base' ∧ base' ≤ now ∧
        base' ≤ max sub.startTime sub.endTime) := by
  have hfuel : (now - sub.resetBase).toNat < resetFuel now sub.resetBase := by
    unfold resetFuel
    omega
  have hlast := le_max_right sub.startTime sub.endTime
  have hreturns := @advanceReset_ne_none cal plan _ _ _ now hplan hfits hsub.inOrder hsub.start_pos
    hsub.end_pos hlast _ _ hsub.start_le hsub.base_le hfuel
  obtain ⟨⟨base', next, advanced⟩, hloop⟩ := Option.ne_none_iff_exists'.mp hreturns
  exact ⟨base', next, advanced, hloop, advanceReset_spec hplan hfits hsub.inOrder hsub.start_pos
    hsub.end_pos hlast hsub.start_le hsub.base_le hloop⟩

theorem maybeReset_of_done (hsub : OnSchedule cal plan sub) (hplan : plan.Periodic)
    (hfits : plan.Fits) (hdone : ResetDone cal plan sub now) :
    maybeResetUserSubscriptionWithPlanTx cal sub plan now = some sub := by
  rcases hdone with ⟨hzero, hnone⟩ | hlater
  · unfold maybeResetUserSubscriptionWithPlanTx
    rw [if_neg (by omega), if_neg hplan.1]
    obtain ⟨base', next, advanced, hloop, hnext, -, hadvanced, hstays, -⟩ :=
      hsub.loop hplan hfits now
    obtain rfl : advanced = false := by simpa [hnone] using hadvanced
    obtain rfl := hstays rfl
    unfold UserSubscription.resetBase at hloop
    dsimp only
    rw [hloop]
    simp [hnext, hnone]
  · unfold maybeResetUserSubscriptionWithPlanTx
    rw [if_pos hlater]

theorem onSchedule_moved {base next : Int} {used : Int} (hsub : OnSchedule cal plan sub)
    (hstart : sub.startTime ≤ base) (hlast : base ≤ max sub.startTime sub.endTime)
    (hnext : next = 0 ∨ (0 < next ∧ next = calcNextResetTime cal base plan sub.endTime)) :
    OnSchedule cal plan
      { sub with amountUsed := used, lastResetTime := base, nextResetTime := next } := by
  have hpos := hsub.start_pos
  have hbase : UserSubscription.resetBase
      { sub with amountUsed := used, lastResetTime := base, nextResetTime := next } = base :=
    resetBase_of_pos (hpos.trans_le hstart)
  refine ⟨hsub.inOrder, hpos, hsub.end_pos, hbase.symm ▸ hstart, hbase.symm ▸ hlast, ?_⟩
  rw [hbase]
  exact hnext

/-- How far one run moves the base: over a boundary when it zeroes, and else not at all. -/
structure Moved (cal : Calendar) (plan : SubscriptionPlan) (sub sub' : UserSubscription)
    (now : Int) : Prop where
  startTime : sub'.startTime = sub.startTime
  stays : resetAdvances cal sub plan now = false →
    sub'.resetBase = sub.resetBase ∧ sub'.amountUsed = sub.amountUsed
  passes : resetAdvances cal sub plan now = true →
    plan.boundary cal sub.resetBase ≤ sub'.resetBase ∧ sub'.resetBase ≤ now ∧ sub'.amountUsed = 0

/-- **What a run of the periodic reset does.** -/
theorem maybeReset_spec (hsub : OnSchedule cal plan sub) (hplan : plan.Periodic)
    (hfits : plan.Fits) (now : Int) :
    ∃ sub', maybeResetUserSubscriptionWithPlanTx cal sub plan now = some sub' ∧
      OnSchedule cal plan sub' ∧ ResetDone cal plan sub' now ∧ Moved cal plan sub sub' now := by
  by_cases hearly : 0 < sub.nextResetTime ∧ now < sub.nextResetTime
  · have hstill : resetAdvances cal sub plan now = false := by
      unfold resetAdvances
      rw [if_pos hearly]
    refine ⟨sub, maybeReset_of_done hsub hplan hfits (.inr hearly), hsub, .inr hearly, rfl,
      fun _ => ⟨rfl, rfl⟩, ?_⟩
    intro hadvances
    simp [hstill] at hadvances
  have hbase : 0 < sub.resetBase := hsub.start_pos.trans_le hsub.start_le
  obtain ⟨base', next, advanced, hloop, hnext, hbeyond, hadvanced, hstays, hpasses⟩ :=
    hsub.loop hplan hfits now
  have hflag : resetAdvances cal sub plan now = advanced := by
    unfold resetAdvances
    rw [if_neg hearly, if_neg hplan.1]
    exact hadvanced.symm
  have hcall : maybeResetUserSubscriptionWithPlanTx cal sub plan now =
      if advanced then
        some { sub with amountUsed := 0, lastResetTime := base', nextResetTime := next }
      else if sub.nextResetTime = 0 ∧ 0 < next then
        some { sub with nextResetTime := next, lastResetTime := base' }
      else some sub := by
    have hloop' := hloop
    unfold UserSubscription.resetBase at hloop'
    unfold maybeResetUserSubscriptionWithPlanTx
    rw [if_neg hearly, if_neg hplan.1]
    dsimp only
    rw [hloop']
    cases advanced <;> rfl
  cases advanced with
  | false =>
    rw [if_neg Bool.false_ne_true] at hcall
    obtain rfl := hstays rfl
    -- a next reset time that has come would have been reached by the loop
    have hzero : sub.nextResetTime = 0 := by
      rcases hsub.next with hzero | ⟨hpos, heq⟩
      · exact hzero
      · omega
    by_cases hsome : 0 < next
    · have hsub' := @onSchedule_moved cal plan sub sub.resetBase next sub.amountUsed hsub
        hsub.start_le hsub.base_le (.inr ⟨hsome, hnext⟩)
      have hlater : now < next := by omega
      refine ⟨_, hcall.trans (if_pos ⟨hzero, hsome⟩), hsub', .inr ⟨hsome, hlater⟩, rfl, ?_, ?_⟩
      · exact fun _ => ⟨resetBase_of_pos hbase, rfl⟩
      · simp [hflag]
    · have hnone : calcNextResetTime cal sub.resetBase plan sub.endTime = 0 := by
        rcases hsub.cases hplan hfits hsub.start_le hsub.base_le with ⟨hnone, -⟩ | ⟨-, hpos, -⟩
        · exact hnone
        · omega
      refine ⟨sub, hcall.trans (if_neg fun h => hsome h.2), hsub, .inl ⟨hzero, hnone⟩, rfl,
        fun _ => ⟨rfl, rfl⟩, ?_⟩
      simp [hflag]
  | true =>
    rw [if_pos rfl] at hcall
    obtain ⟨hpass, hnow, hlast⟩ := hpasses rfl
    have hlt := hsub.inOrder.ahead _ hsub.start_le hsub.base_le
    have hstart := hsub.start_le
    have hstart' : sub.startTime ≤ base' := by omega
    have hbase' : 0 < base' := by omega
    have hcases := hsub.cases hplan hfits hstart' hlast
    have hbase₂ : UserSubscription.resetBase
        { sub with amountUsed := 0, lastResetTime := base', nextResetTime := next } = base' :=
      resetBase_of_pos hbase'
    refine ⟨_, hcall, onSchedule_moved hsub hstart' hlast ?_, ?_, rfl, by simp [hflag], ?_⟩
    · rcases hcases with ⟨hnone, -⟩ | ⟨-, hpos, -⟩
      · exact .inl (hnext.trans hnone)
      · exact .inr ⟨hnext ▸ hpos, hnext⟩
    · unfold ResetDone
      rw [hbase₂]
      show (next = 0 ∧ _) ∨ (0 < next ∧ now < next)
      rcases hcases with ⟨hnone, -⟩ | ⟨-, hpos, -⟩
      · exact .inl ⟨hnext.trans hnone, hnone⟩
      · exact .inr ⟨hnext ▸ hpos, by omega⟩
    · intro _
      exact ⟨hbase₂.symm ▸ hpass, hbase₂.symm ▸ hnow, rfl⟩

theorem next_of_done (hsub : OnSchedule cal plan sub) (hplan : plan.Periodic) (hfits : plan.Fits)
    (hdone : ResetDone cal plan sub now) :
    sub.nextResetTime = 0 ∨ (now < sub.nextResetTime ∧ sub.nextResetTime ≤ sub.endTime) := by
  rcases hdone with ⟨hzero, -⟩ | ⟨hpos, hlater⟩
  · exact .inl hzero
  · refine .inr ⟨hlater, ?_⟩
    rcases hsub.next with hzero | ⟨-, heq⟩
    · omega
    · rcases hsub.cases hplan hfits hsub.start_le hsub.base_le with ⟨hnone, -⟩ | ⟨-, -, hle⟩
      · omega
      · exact heq ▸ hle

end Reset

/-! ### One step -/

namespace ResetSystem

variable {cal : Calendar} {plan : SubscriptionPlan} {s t : ResetSystem} {a : ResetAct}

/-- The row is on schedule, and the base bounds the zeroings. -/
structure Sound (cal : Calendar) (plan : SubscriptionPlan) (s : ResetSystem) : Prop where
  schedule : OnSchedule cal plan s.sub
  base_le : s.sub.resetBase ≤ s.clock
  bound : s.zeroings ≤ Orbit.crossings (plan.boundary cal) s.sub.startTime s.sub.resetBase

/--
A reset by an administrator that starts the schedule afresh finds a further boundary before
the end, or has no boundary to throw back: the base has not left the start, or none has passed.
-/
def Onward (cal : Calendar) (plan : SubscriptionPlan) (s : ResetSystem) : ResetAct → Prop
  | .adminReset now true =>
    0 < calcNextResetTime cal now plan s.sub.endTime ∨ s.sub.resetBase = s.sub.startTime ∨
      now < plan.boundary cal s.sub.startTime
  | _ => True

theorem sound_maybeReset {now : Int} (hplan : plan.Periodic) (hfits : plan.Fits)
    (hs : s.Sound cal plan) (h : step cal plan s (.maybeReset now) = some t) :
    t.Sound cal plan := by
  simp only [step] at h
  split at h
  · simp at h
  next hclock =>
  obtain ⟨sub', hcall, hschedule, -, hmoved⟩ := maybeReset_spec hs.schedule hplan hfits now
  rw [hcall] at h
  cases h
  have hbase := hs.base_le
  have hbound := hs.bound
  refine ⟨hschedule, ?_, ?_⟩
  · show sub'.resetBase ≤ now
    cases hflag : resetAdvances cal s.sub plan now with
    | false => rw [(hmoved.stays hflag).1]; omega
    | true => exact (hmoved.passes hflag).2.1
  · show s.zeroings + (if resetAdvances cal s.sub plan now then 1 else 0) ≤
      Orbit.crossings (plan.boundary cal) sub'.startTime sub'.resetBase
    rw [hmoved.startTime]
    cases hflag : resetAdvances cal s.sub plan now with
    | false =>
      rw [(hmoved.stays hflag).1]
      simpa using hbound
    | true =>
      have hlast := hs.schedule.base_le
      have hcrossed := Orbit.crossings_succ_le
        (fun z hz hz' => hs.schedule.inOrder.ahead z hz (hz'.trans hlast))
        (fun z hz hz' => hs.schedule.inOrder.ordered z _ hz hz' hlast) hs.schedule.start_le
        (hmoved.passes hflag).1
      simp only [if_true]
      omega

theorem sound_adminReset {now : Int} {advance : Bool} (hplan : plan.Periodic) (hfits : plan.Fits)
    (hs : s.Sound cal plan) (honward : s.Onward cal plan (.adminReset now advance))
    (h : step cal plan s (.adminReset now advance) = some t) : t.Sound cal plan := by
  simp only [step] at h
  split at h
  · simp at h
  next hguard =>
  cases h
  have hbase := hs.base_le
  have hbound := hs.bound
  have horder := hs.schedule.inOrder
  have hstart := hs.schedule.start_pos
  have hstart_le := hs.schedule.start_le
  have hend := hs.schedule.end_pos
  have hclock : s.clock ≤ now := by
    by_contra hlt
    exact hguard (.inl (by omega))
  have hended : now < s.sub.endTime := by
    by_contra hlt
    exact hguard (.inr (.inr (by omega)))
  cases advance with
  | false =>
    have hbase' : UserSubscription.resetBase { s.sub with amountUsed := 0 } =
        s.sub.resetBase := rfl
    exact ⟨⟨horder, hstart, hend, hbase' ▸ hstart_le, hbase' ▸ hs.schedule.base_le,
      hbase' ▸ hs.schedule.next⟩, hbase'.symm ▸ hbase.trans hclock, hbase'.symm ▸ hbound⟩
  | true =>
    have hnow : s.sub.startTime ≤ now := by omega
    have hlast : now ≤ max s.sub.startTime s.sub.endTime := by omega
    by_cases hnext : 0 < calcNextResetTime cal now plan s.sub.endTime
    · -- the schedule starts afresh from now
      have hrow : resetUserSubscriptionTx cal s.sub plan now true =
          { s.sub with
            amountUsed := 0
            lastResetTime := now
            nextResetTime := calcNextResetTime cal now plan s.sub.endTime } := by
        unfold resetUserSubscriptionTx
        simp [hnext]
      have hbase' : UserSubscription.resetBase (resetUserSubscriptionTx cal s.sub plan now true) =
          now := by
        rw [hrow]
        exact resetBase_of_pos (hstart.trans_le hnow)
      refine ⟨?_, hbase'.le, ?_⟩
      · exact hrow.symm ▸ onSchedule_moved hs.schedule hnow hlast (.inr ⟨hnext, rfl⟩)
      show s.zeroings ≤ Orbit.crossings (plan.boundary cal) _ _
      rw [hbase', hrow]
      exact hbound.trans (Orbit.crossings_mono (hbase.trans hclock))
    · -- back to the start, with nothing zeroed so far
      have hfirst := horder.ahead s.sub.startTime le_rfl (le_max_left ..)
      have hzero : s.zeroings = 0 := by
        have hbefore : s.sub.resetBase < plan.boundary cal s.sub.startTime := by
          rcases honward with hpos | hsame | hearly
          · exact absurd hpos hnext
          · omega
          · omega
        rw [Orbit.crossings_eq_zero hbefore] at hbound
        omega
      have hnone : calcNextResetTime cal now plan s.sub.endTime = 0 := by
        rcases hs.schedule.cases hplan hfits hnow hlast with ⟨hnone, -⟩ | ⟨-, hpos, -⟩
        · exact hnone
        · exact absurd hpos hnext
      have hrow : resetUserSubscriptionTx cal s.sub plan now true =
          { s.sub with amountUsed := 0, lastResetTime := 0, nextResetTime := 0 } := by
        unfold resetUserSubscriptionTx
        simp [hnone]
      have hbase' : UserSubscription.resetBase (resetUserSubscriptionTx cal s.sub plan now true) =
          s.sub.startTime := by
        rw [hrow]
        rfl
      refine ⟨⟨?_, ?_, ?_, ?_, ?_, ?_⟩, ?_, ?_⟩
      · exact hrow.symm ▸ horder
      · exact hrow.symm ▸ hstart
      · exact hrow.symm ▸ hend
      · rw [hbase', hrow]
      · rw [hbase', hrow]
        exact le_max_left ..
      · rw [hrow]
        exact .inl rfl
      · show UserSubscription.resetBase (resetUserSubscriptionTx cal s.sub plan now true) ≤ now
        omega
      · show s.zeroings ≤ _
        omega

/-- **A step that throws no boundary back keeps the schedule.** -/
theorem sound_step (hplan : plan.Periodic) (hfits : plan.Fits) (hs : s.Sound cal plan)
    (honward : s.Onward cal plan a) (h : step cal plan s a = some t) : t.Sound cal plan := by
  cases a with
  | maybeReset now => exact sound_maybeReset hplan hfits hs h
  | charge delta =>
    cases h
    have hrow := hs.schedule
    exact ⟨⟨hrow.inOrder, hrow.start_pos, hrow.end_pos, hrow.start_le, hrow.base_le, hrow.next⟩,
      hs.base_le, hs.bound⟩
  | adminReset now advance => exact sound_adminReset hplan hfits hs honward h

/-! ### From the creation on -/

theorem sound_start (hplan : plan.Periodic) (hfits : plan.Fits) {id userId planId : Nat}
    {amountTotal now endUnix : Int} (horder : plan.InOrder cal now (max now endUnix))
    (hnow : 0 < now) (hend : 0 < endUnix) :
    Sound cal plan (start cal plan id userId planId amountTotal now endUnix) := by
  have hbase : (start cal plan id userId planId amountTotal now endUnix).sub.resetBase = now := by
    unfold UserSubscription.resetBase start createUserSubscriptionFromPlan
    by_cases hnext : 0 < calcNextResetTime cal now plan endUnix
    · simp [hnext]
    · simp [hnext]
  refine ⟨⟨horder, hnow, hend, hbase.ge, hbase.le.trans (le_max_left ..), ?_⟩, hbase.le,
    Nat.zero_le _⟩
  rw [hbase]
  have hlt := horder.ahead now le_rfl (le_max_left ..)
  rcases calcNextResetTime_cases hplan hfits hlt hnow hend with ⟨hnone, -⟩ | ⟨-, hpos, -⟩
  · exact .inl hnone
  · exact .inr ⟨hpos, rfl⟩

/--
**The reset of a subscription keeps to its schedule**, in every run in which no administrator's
reset throws a boundary back, when the boundaries of the plan come in order for as long as the
subscription lasts: the periodic reset returns, leaves no next reset time or one after `now` and not
after the end, changes nothing when it runs again, and has zeroed the amount used no more often than
boundaries of the plan have passed.
-/
theorem resets_on_schedule (hplan : plan.Periodic) (hfits : plan.Fits)
    {id userId planId : Nat} {amountTotal began endUnix : Int}
    (horder : plan.InOrder cal began (max began endUnix)) (hbegan : 0 < began)
    (hend : 0 < endUnix) {acts : List ResetAct}
    (honward : Machine.Meets (step cal plan) (Onward cal plan)
      (start cal plan id userId planId amountTotal began endUnix) acts)
    (hrun : Machine.run (step cal plan)
      (start cal plan id userId planId amountTotal began endUnix) acts = some t) :
    t.zeroings ≤ Orbit.crossings (plan.boundary cal) t.sub.startTime t.clock ∧
      ∀ now, t.clock ≤ now →
        ∃ sub', maybeResetUserSubscriptionWithPlanTx cal t.sub plan now = some sub' ∧
          (sub'.nextResetTime = 0 ∨
            (now < sub'.nextResetTime ∧ sub'.nextResetTime ≤ sub'.endTime)) ∧
          maybeResetUserSubscriptionWithPlanTx cal sub' plan now = some sub' := by
  have ht := Machine.run_invariant (Sound cal plan)
    (fun s a t hs hc h => sound_step hplan hfits hs hc h) acts _ t
    (sound_start hplan hfits horder hbegan hend) honward hrun
  refine ⟨ht.bound.trans (Orbit.crossings_mono ht.base_le), ?_⟩
  intro now _
  obtain ⟨sub', hcall, hschedule, hdone, -⟩ := maybeReset_spec ht.schedule hplan hfits now
  exact ⟨sub', hcall, next_of_done hschedule hplan hfits hdone,
    maybeReset_of_done hschedule hplan hfits hdone⟩

def sampleCalendar : Calendar where
  nextDay x := (x / 86400 + 1) * 86400
  nextMonday x := ((x / 86400 + 3) / 7 * 7 + 4) * 86400
  nextMonth x := max 2678400 (x + 1)

def sampleDaily : SubscriptionPlan := ⟨.daily, 0⟩

theorem inOrder_daily (start last : Int) : sampleDaily.InOrder sampleCalendar start last where
  ahead := by
    intro base _ _
    show base < (base / 86400 + 1) * 86400
    omega
  ordered := by
    intro x y _ hxy _
    show (x / 86400 + 1) * 86400 ≤ (y / 86400 + 1) * 86400
    omega

/-- Four days from 1000 on, with an administrator's reset in the second. -/
theorem resets_on_schedule_sample : ∃ t,
    Machine.run (step sampleCalendar sampleDaily)
      (start sampleCalendar sampleDaily 1 1 1 500 1000 346600)
      [.charge 30, .adminReset 90000 true, .charge 20, .maybeReset 300000] = some t ∧
    t.zeroings = 1 ∧
    t.zeroings ≤
      Orbit.crossings (sampleDaily.boundary sampleCalendar) t.sub.startTime t.clock := by
  refine ⟨_, rfl, rfl, ?_⟩
  have hmeets : Machine.Meets (step sampleCalendar sampleDaily)
      (Onward sampleCalendar sampleDaily)
      (start sampleCalendar sampleDaily 1 1 1 500 1000 346600)
      [.charge 30, .adminReset 90000 true, .charge 20, .maybeReset 300000] := by
    refine ⟨trivial, fun s₁ h₁ =>
      ⟨?_, fun _ _ => ⟨trivial, fun _ _ => ⟨trivial, fun _ _ => trivial⟩⟩⟩⟩
    cases h₁
    exact .inl (by decide)
  have hplan : sampleDaily.Periodic := ⟨by decide, fun h => by cases h⟩
  have hfits : sampleDaily.Fits := fun h => by cases h
  exact (@resets_on_schedule sampleCalendar sampleDaily _ hplan hfits 1 1 1 500 1000 346600
    (inOrder_daily _ _) (by decide) (by decide) _ hmeets rfl).1

def sampleHundred : SubscriptionPlan := ⟨.custom, 100⟩

/-- Boundaries pass at 1100 and 1200; the reset at 1210 finds none before 1250, and the next run
zeroes the amount used a third time. -/
theorem admin_reset_repeats_boundaries : ∃ t,
    Machine.run (step sampleCalendar sampleHundred)
      (start sampleCalendar sampleHundred 1 1 1 500 1000 1250)
      [.maybeReset 1100, .maybeReset 1200, .adminReset 1210 true, .maybeReset 1211] = some t ∧
    ¬t.zeroings ≤
      Orbit.crossings (sampleHundred.boundary sampleCalendar) t.sub.startTime t.clock :=
  ⟨_, rfl, by decide⟩

end ResetSystem

end JulongApi

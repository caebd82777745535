/-
When the next reset is later than the one before.

A custom period is a number of seconds that is multiplied into nanoseconds; it gets ahead exactly if
the product, wrapped to 64 bits, is a second at least.  A calendar period gets ahead of every base
time in the zones in which none of its midnights is misdated (`WallClock.lt_date_iff`); for a week
the midnight before the last day of it counts as well, for `AddDate` goes on from whatever clock
time `time.Date` has found (`ShortSunday`).

`calcNextResetTimeIn_ahead_iff` puts these together, with the loop: where every reset is later than
its base, the loop comes to an end, and in a zone without misdated midnights it is the one of
`Subscription`.
-/
import JulongApi.SubscriptionClock

namespace JulongApi

open WallClock Civil

variable {zone : Zone} {plan : SubscriptionPlan} {base t d k : Int}

/-! ### Days -/

theorem localDay_spec (zone : Zone) (t : Int) :
    day * localDay zone t ≤ zone.clock t ∧ zone.clock t < day * localDay zone t + day := by
  unfold localDay day
  omega

theorem localDay_eq (h : day * d ≤ zone.clock t) (h' : zone.clock t < day * d + day) :
    localDay zone t = d := by
  unfold localDay day at *
  omega

theorem mul_day_add (d n : Int) : day * (d + n) = day * d + day * n := by ring

theorem daysUntilMonday_spec (d : Int) : 1 ≤ daysUntilMonday d ∧ daysUntilMonday d ≤ 7 ∧
    weekday (d + daysUntilMonday d) = 1 ∧ (daysUntilMonday d = 1 ↔ weekday d = 0) := by
  unfold daysUntilMonday weekday
  split <;> omega

theorem daysUntilMonday_pred (h : weekday d = 1) : daysUntilMonday (d - 1) = 1 := by
  have hsunday : weekday (d - 1) = 0 := by
    unfold weekday at *
    omega
  exact (daysUntilMonday_spec (d - 1)).2.2.2.mpr hsunday

theorem lt_addDays_of_shown (hfine : ¬zone.Misdated (day * (d + k)))
    (hskip : ¬∃ t before after, zone.Skips t before after (day * d)) (hk : 1 ≤ k) (hk' : k ≤ 7)
    (ht : localDay zone t = d) : t < addDays zone (midnight zone d) k := by
  have hday := day_pos
  obtain ⟨hlo, hhi⟩ := localDay_spec zone t
  rw [ht] at hlo hhi
  have hsum := mul_day_add d k
  have hweek : day ≤ day * k ∧ day * k ≤ 7 * day := by
    unfold day
    omega
  unfold addDays midnight
  rcases zone.date_cases (day * d) with hexact | ⟨u, b, a, hskips, -⟩ | ⟨u, b, a, heast, -, hclock⟩
  · rw [hexact, ← hsum]
    exact Zone.lt_date hfine (by omega)
  · exact absurd ⟨u, b, a, hskips⟩ hskip
  · rw [hclock]
    refine Zone.lt_date (fun hmisdated => ?_) (by
      have hfrom := heast.from_le
      have hto := heast.lt_to
      omega)
    -- a setting of the clock in the west would follow one in the east
    obtain ⟨⟨hb, hb'⟩, ha, ha'⟩ := heast.sets.bounds
    have hjump := heast.sets.jump
    obtain ⟨hsets, hle, hfrom, hto⟩ := heast
    have hforward := hsets.setsForward (by omega)
    have hpositive : 0 < (zone.lookup u).offset := by
      have hafter : zone.offset u = a := hsets.after
      unfold Zone.offset at hafter
      omega
    obtain ⟨v, before, after, hs | hr⟩ := hmisdated
    · have hstay := zone.east u (v - 1) hforward hpositive (by have := hs.west; omega)
        (by have := hs.from_le; have := hs.sets.bounds; omega)
      have hbefore : (zone.lookup (v - 1)).offset = before := hs.sets.before
      have hwest := hs.west
      have hfrom' := hs.from_le
      omega
    · have hstay := zone.east u v hforward hpositive (by have := hr.west; omega)
        (by have := hr.to_lt; have := hr.sets.bounds; omega)
      have hafter : (zone.lookup v).offset = after := hr.sets.after
      have hwest := hr.west
      have hto' := hr.to_lt
      omega

theorem exists_addDays_le (h : zone.Misdated (day * d)) :
    ∃ t, localDay zone t = d - 1 ∧ addDays zone (midnight zone (d - 1)) 1 ≤ t ∧
      addDays zone (midnight zone (d - 1)) 1 ≠ 0 := by
  have hday := day_pos
  have hsum : day * (d - 1) = day * d - day := by ring
  obtain ⟨t, hlt, hle, hdate⟩ := h.exists_le
  obtain ⟨v, hv, hlo, hhi⟩ := h.exists_transition
  have hexact : zone.clock (zone.date (day * (d - 1))) = day * (d - 1) :=
    Zone.clock_date_of_near hv (by omega)
  have htarget : addDays zone (midnight zone (d - 1)) 1 = zone.date (day * d) := by
    unfold addDays midnight
    rw [hexact, hsum]
    congr 1
    ring
  refine ⟨t, localDay_eq (by omega) (by omega), ?_, ?_⟩
  · rw [htarget]
    exact hdate
  · rw [htarget]
    exact h.date_ne_zero

/-! ### Sundays that begin late -/

/-- Midnight of day `d` is jumped over in the west, and some of the day is left. -/
structure ShortDay (zone : Zone) (d t before after : Int) : Prop where
  skips : zone.Skips t before after (day * d)
  part : t + after < day * d + day
  /-- The clock time a day after the instant that stands for midnight is not jumped over too. -/
  target : day * d + day - (after - before) < t ∨ t + after ≤ day * d + day - (after - before)

def ShortSunday (zone : Zone) (d : Int) : Prop :=
  weekday d = 0 ∧ ∃ t before after, ShortDay zone d t before after

variable {before after : Int}

theorem midnight_of_skips (h : zone.Skips t before after (day * d)) :
    midnight zone d = day * d - after ∧
      zone.clock (midnight zone d) = day * d - (after - before) := by
  have hdate := h.date_eq
  obtain ⟨⟨hb, hb'⟩, ha, ha'⟩ := h.sets.bounds
  obtain ⟨hsets, hwest, hfrom, hto⟩ := h
  have hoff : zone.offset (day * d - after) = before :=
    hsets.offset_before (by omega) (by omega)
  refine ⟨hdate, ?_⟩
  unfold midnight
  rw [hdate, Zone.clock, hoff]
  omega

theorem ShortDay.exists_le (h : ShortDay zone d t before after) :
    ∃ u, localDay zone u = d ∧ addDays zone (midnight zone d) 1 ≤ u := by
  have hday := day_pos
  obtain ⟨hskips, hpart, htarget⟩ := h
  obtain ⟨-, hclock⟩ := midnight_of_skips hskips
  obtain ⟨⟨hb, hb'⟩, ha, ha'⟩ := hskips.sets.bounds
  have hjump := hskips.sets.jump
  obtain ⟨hsets, hwest, hfrom, hto⟩ := hskips
  -- the last second of the day
  have hoff : zone.offset (day * d + day - 1 - after) = after :=
    hsets.offset_after (by omega) (by omega)
  have hlast : zone.clock (day * d + day - 1 - after) = day * d + day - 1 := by
    rw [Zone.clock, hoff]
    omega
  refine ⟨day * d + day - 1 - after, localDay_eq (by omega) (by omega), ?_⟩
  unfold addDays
  rw [hclock]
  have hwall : day * d - (after - before) + day * 1 = day * d + day - (after - before) := by ring
  rw [hwall]
  generalize hY : day * d + day - (after - before) = wall at htarget ⊢
  -- another setting of the clock is ten days away
  have hsame : ∀ v, IsTransition zone.lookup v → v < wall + day → wall < v + day → v = t := by
    intro v hv hlo hhi
    exact Zone.transitions_eq hsets.transition hv (by omega) (by omega)
  rcases zone.date_cases wall with hexact | ⟨v, b, a, hs, hdate, -⟩ | ⟨v, b, a, hs, -, -⟩
  · by_contra hlt
    have hbound := @Zone.offset_bounds zone (zone.date wall)
    have hafter : zone.offset (zone.date wall) = after := by
      unfold Zone.clock at hexact
      exact hsets.offset_after (by omega) (by omega)
    rw [Zone.clock, hafter] at hexact
    omega
  · have hbounds := hs.sets.bounds
    have hv := hsame v hs.sets.transition (by have := hs.from_le; omega) (by have := hs.west; omega)
    have hafter : a = after := by rw [← hs.sets.after, hv, hsets.after]
    rw [hdate, hafter]
    omega
  · have hbounds := hs.sets.bounds
    have hv := hsame v hs.sets.transition (by have := hs.east; omega) (by have := hs.lt_to; omega)
    have hafter : a = after := by rw [← hs.sets.after, hv, hsets.after]
    have heast := hs.east
    have hlt := hs.lt_to
    omega

theorem clock_not_skipped (hsets : zone.Sets t before after) (u : Int) :
    ¬(t + before ≤ zone.clock u ∧ zone.clock u < t + after) := by
  have hday := day_pos
  rintro ⟨hle, hlt⟩
  have hbound := @Zone.offset_bounds zone u
  have hbounds := hsets.bounds
  unfold Zone.clock at hle hlt
  by_cases hu : u < t
  · have hoff : zone.offset u = before := hsets.offset_before (by omega) hu
    omega
  · have hoff : zone.offset u = after := hsets.offset_after (by omega) (by omega)
    omega

theorem lt_addDays_of_long (hskips : zone.Skips t before after (day * d))
    (hlong : ¬ShortDay zone d t before after) {u : Int} (hu : localDay zone u = d) :
    u < addDays zone (midnight zone d) 1 := by
  have hday := day_pos
  obtain ⟨hlo, hhi⟩ := localDay_spec zone u
  rw [hu] at hlo hhi
  obtain ⟨-, hclock⟩ := midnight_of_skips hskips
  obtain ⟨⟨hb, hb'⟩, ha, ha'⟩ := hskips.sets.bounds
  have hsets := hskips.sets
  have hwest := hskips.west
  have hfrom := hskips.from_le
  have hto := hskips.lt_to
  have hjump := hsets.jump
  have hshown := clock_not_skipped hsets u
  have hbound := @Zone.offset_bounds zone u
  -- the day is shown after the jump only
  have hafter : t ≤ u := by
    by_contra hlt
    have hoff : zone.offset u = before := hsets.offset_before (by
      unfold Zone.clock at hlo
      omega) (by omega)
    unfold Zone.clock at hlo hshown
    omega
  have hoff : zone.offset u = after := hsets.offset_after hafter (by
    unfold Zone.clock at hhi
    omega)
  rw [Zone.clock, hoff] at hlo hhi hshown
  have hpart : t + after < day * d + day := by omega
  have htarget : t ≤ day * d + day - (after - before) ∧
      day * d + day - (after - before) < t + after := by
    by_contra hnot
    exact hlong ⟨hskips, hpart, by omega⟩
  -- then the clock time a day later is jumped over as well, and put after the jump
  unfold addDays
  rw [hclock]
  have hwall : day * d - (after - before) + day * 1 = day * d + day - (after - before) := by ring
  rw [hwall]
  generalize hY : day * d + day - (after - before) = wall at htarget ⊢
  have hsame : ∀ v, IsTransition zone.lookup v → v < wall + day → wall < v + day → v = t := by
    intro v hv hlo hhi
    exact Zone.transitions_eq hsets.transition hv (by omega) (by omega)
  rcases zone.date_cases wall with hexact | ⟨v, b, a, hs, -, -⟩ | ⟨v, b, a, hs, hdate, -⟩
  · refine absurd ?_ (clock_not_skipped hsets (zone.date wall))
    rw [hexact]
    omega
  · have hbounds := hs.sets.bounds
    have hv := hsame v hs.sets.transition (by have := hs.from_le; omega) (by have := hs.west; omega)
    have hwest' := hs.west
    omega
  · have hbounds := hs.sets.bounds
    have hv := hsame v hs.sets.transition (by have := hs.east; omega) (by have := hs.lt_to; omega)
    have hbefore : b = before := by rw [← hs.sets.before, hv, hsets.before]
    rw [hdate, hbefore]
    omega

theorem lt_addDays_of_skips (hskips : zone.Skips t before after (day * d)) (hk : 2 ≤ k)
    (hk' : k ≤ 7) {u : Int} (hu : localDay zone u = d) : u < addDays zone (midnight zone d) k := by
  have hday := day_pos
  obtain ⟨hlo, hhi⟩ := localDay_spec zone u
  rw [hu] at hlo hhi
  obtain ⟨-, hclock⟩ := midnight_of_skips hskips
  obtain ⟨⟨hb, hb'⟩, ha, ha'⟩ := hskips.sets.bounds
  have hsets := hskips.sets
  have hwest := hskips.west
  have hfrom := hskips.from_le
  have hto := hskips.lt_to
  have hjump := hsets.jump
  have hweek : 2 * day ≤ day * k ∧ day * k ≤ 7 * day := by
    unfold day
    omega
  unfold addDays
  rw [hclock]
  refine Zone.lt_date (fun hmisdated => ?_) (by omega)
  obtain ⟨v, hv, hlo', hhi'⟩ := hmisdated.exists_transition
  have hapart := Zone.transitions_apart hsets.transition hv (by omega)
  omega

/-! ### Months -/

theorem monthOf_pred (k : Int) : monthOf (monthStart (k + 1) - 1) = k := by
  have hsucc := monthStart_succ k
  exact monthOf_eq (by omega) (by omega)

theorem lt_addOneMonth (hfine : ∀ k, ¬zone.Misdated (day * monthStart k))
    (ht : monthOf (localDay zone t) = k) : t < addOneMonth zone (midnight zone (monthStart k)) := by
  have hday := day_pos
  obtain ⟨hlo, hhi⟩ := localDay_spec zone t
  obtain ⟨-, hmonth⟩ := monthOf_spec (localDay zone t)
  rw [ht] at hmonth
  have hlength := monthStart_succ k
  have hclockLt : zone.clock t < day * monthStart (k + 1) := by
    unfold day at *
    omega
  unfold addOneMonth midnight
  rcases zone.date_cases (day * monthStart k) with
    hexact | ⟨u, b, a, hskips, -⟩ | ⟨u, b, a, heast, -, hclock⟩
  · have hdiv : day * monthStart k / day = monthStart k + 0 := by
      unfold day
      omega
    have hmod : day * monthStart k % day = 0 := by
      unfold day
      omega
    rw [hexact, hdiv, hmod, addMonth_eq (by omega) (by omega), add_zero, add_zero]
    exact Zone.lt_date (hfine (k + 1)) hclockLt
  · exact absurd ⟨u, b, a, .inl hskips⟩ (hfine k)
  · obtain ⟨⟨hb, hb'⟩, ha, ha'⟩ := heast.sets.bounds
    have hjump := heast.sets.jump
    obtain ⟨hsets, hle, hfrom, hto⟩ := heast
    -- the jump is by a day at most, so the clock shows the first or the second
    obtain ⟨n, hn, hn', hdiv⟩ : ∃ n : Int, 0 ≤ n ∧ n < 28 ∧
        (day * monthStart k + (a - b)) / day = monthStart k + n := by
      refine ⟨(a - b) / day, ?_, ?_, ?_⟩ <;>
      · unfold day at *
        omega
    rw [hclock, hdiv, addMonth_eq hn hn']
    have hwall : day * (monthStart (k + 1) + n) + (day * monthStart k + (a - b)) % day =
        day * monthStart (k + 1) + (a - b) := by
      unfold day at *
      omega
    rw [hwall]
    refine Zone.lt_date (fun hmisdated => ?_) (by omega)
    have hforward := hsets.setsForward (by omega)
    have hpositive : 0 < (zone.lookup u).offset := by
      have hafter : zone.offset u = a := hsets.after
      unfold Zone.offset at hafter
      omega
    have hmonthDays : day * monthStart k + 28 * day ≤ day * monthStart (k + 1) ∧
        day * monthStart (k + 1) ≤ day * monthStart k + 31 * day := by
      unfold day
      omega
    obtain ⟨v, before, after, hs | hr⟩ := hmisdated
    · have hwest := hs.west
      have hfrom' := hs.from_le
      have hbounds := hs.sets.bounds
      have hstay := zone.east u (v - 1) hforward hpositive (by omega) (by omega)
      have hbefore : (zone.lookup (v - 1)).offset = before := hs.sets.before
      omega
    · have hwest := hr.west
      have hto' := hr.to_lt
      have hbounds := hr.sets.bounds
      have hstay := zone.east u v hforward hpositive (by omega) (by omega)
      have hafter : (zone.lookup v).offset = after := hr.sets.after
      omega

theorem exists_addOneMonth_le_of_shown (h : zone.Misdated (day * monthStart (k + 1)))
    (hexact : zone.clock (midnight zone (monthStart k)) = day * monthStart k) :
    ∃ t, monthOf (localDay zone t) = k ∧
      addOneMonth zone (midnight zone (monthStart k)) ≤ t ∧
      addOneMonth zone (midnight zone (monthStart k)) ≠ 0 := by
  obtain ⟨t, hlt, hle, hdate⟩ := h.exists_le
  have htarget : addOneMonth zone (midnight zone (monthStart k)) =
      zone.date (day * monthStart (k + 1)) := by
    have hdiv : day * monthStart k / day = monthStart k + 0 := by
      unfold day
      omega
    have hmod : day * monthStart k % day = 0 := by
      unfold day
      omega
    unfold addOneMonth
    rw [hexact, hdiv, hmod, addMonth_eq (by omega) (by omega), add_zero, add_zero]
  have hpred : day * (monthStart (k + 1) - 1) = day * monthStart (k + 1) - day := by ring
  have hlocal : localDay zone t = monthStart (k + 1) - 1 := localDay_eq (by omega) (by omega)
  refine ⟨t, ?_, ?_, ?_⟩
  · rw [hlocal]
    exact monthOf_pred k
  · rw [htarget]
    exact hdate
  · rw [htarget]
    exact h.date_ne_zero

theorem clock_midnight_of_skips (h : zone.Skips t before after (day * monthStart (k + 1))) :
    zone.clock (midnight zone (monthStart k)) = day * monthStart k := by
  have hday := day_pos
  obtain ⟨⟨hb, hb'⟩, ha, ha'⟩ := h.sets.bounds
  obtain ⟨hsets, hwest, hfrom, hto⟩ := h
  have hforward := hsets.setsForward (by omega)
  have hnegative : (zone.lookup (t - 1)).offset < 0 := by
    have hbefore : zone.offset (t - 1) = before := hsets.before
    unfold Zone.offset at hbefore
    omega
  have hlength := monthStart_succ k
  have hmonthDays : day * monthStart k + 28 * day ≤ day * monthStart (k + 1) ∧
      day * monthStart (k + 1) ≤ day * monthStart k + 31 * day := by
    unfold day
    omega
  unfold midnight
  rcases zone.date_cases (day * monthStart k) with
    hexact | ⟨u, b, a, hs, -⟩ | ⟨u, b, a, hs, -⟩
  · exact hexact
  · have hbounds := hs.sets.bounds
    obtain ⟨hsets', hwest', hfrom', hto'⟩ := hs
    have hapart := zone.apart u t (hsets'.setsForward (by omega)) hforward hnegative (by omega)
    omega
  · have hbounds := hs.sets.bounds
    obtain ⟨hsets', heast', hfrom', hto'⟩ := hs
    have hapart := zone.apart u t (hsets'.setsForward (by omega)) hforward hnegative (by omega)
    omega

theorem exists_addOneMonth_le (h : zone.Misdated (day * monthStart k)) :
    ∃ t, addOneMonth zone (midnight zone (monthStart (monthOf (localDay zone t)))) ≤ t ∧
      addOneMonth zone (midnight zone (monthStart (monthOf (localDay zone t)))) ≠ 0 := by
  have hday := day_pos
  have hof : ∀ {k}, zone.Misdated (day * monthStart (k + 1)) →
      zone.clock (midnight zone (monthStart k)) = day * monthStart k →
        ∃ t, addOneMonth zone (midnight zone (monthStart (monthOf (localDay zone t)))) ≤ t ∧
          addOneMonth zone (midnight zone (monthStart (monthOf (localDay zone t)))) ≠ 0 := by
    intro k hmisdated hexact
    obtain ⟨t, ht, hle, hne⟩ := exists_addOneMonth_le_of_shown hmisdated hexact
    exact ⟨t, by rw [ht]; exact hle, by rw [ht]; exact hne⟩
  obtain ⟨j, rfl⟩ : ∃ j, j + 1 = k := ⟨k - 1, by ring⟩
  obtain ⟨v, before, after, hs | hr⟩ := h
  · exact hof ⟨v, before, after, .inl hs⟩ (clock_midnight_of_skips hs)
  · -- the clock is set back; the month before may have begun with a jump
    rcases zone.date_cases (day * monthStart j) with
      hexact | ⟨u, b, a, hs, -⟩ | ⟨u, b, a, hs, -⟩
    · exact hof ⟨v, before, after, .inr hr⟩ hexact
    · obtain ⟨i, rfl⟩ : ∃ i, i + 1 = j := ⟨j - 1, by ring⟩
      exact hof ⟨u, b, a, .inl hs⟩ (clock_midnight_of_skips hs)
    · exfalso
      have hlength := monthStart_succ j
      have hmonthDays : day * monthStart j + 28 * day ≤ day * monthStart (j + 1) ∧
          day * monthStart (j + 1) ≤ day * monthStart j + 31 * day := by
        unfold day
        omega
      have hbounds := hs.sets.bounds
      obtain ⟨hsets, heast, hfrom, hto⟩ := hs
      have hpositive : 0 < (zone.lookup u).offset := by
        have hafter : zone.offset u = a := hsets.after
        unfold Zone.offset at hafter
        omega
      have hwest := hr.west
      have hto' := hr.to_lt
      have hbounds' := hr.sets.bounds
      have hstay := zone.east u v (hsets.setsForward (by omega)) hpositive (by omega) (by omega)
      have hafter : (zone.lookup v).offset = after := hr.sets.after
      omega

/-! ### Plans -/

/-- Every reset is none, or later than its base. -/
def SubscriptionPlan.GetsAhead (zone : Zone) (plan : SubscriptionPlan) : Prop :=
  ∀ base endUnix, calcNextResetTimeIn zone base plan endUnix = 0 ∨
    base < calcNextResetTimeIn zone base plan endUnix

/-- The loop of the periodic reset comes to an end, whatever the subscription and the time. -/
def SubscriptionPlan.CatchesUp (zone : Zone) (plan : SubscriptionPlan) : Prop :=
  ∀ sub now, ∃ fuel, (maybeResetIn zone sub plan now fuel).isSome = true

/-- A custom period is a second or more when it has been wrapped, and a calendar period meets no
midnight that is misdated. -/
def SubscriptionPlan.Sound (zone : Zone) (plan : SubscriptionPlan) : Prop :=
  match plan.quotaResetPeriod with
  | .never => True
  | .daily => ∀ d, ¬zone.Misdated (day * d)
  | .weekly => ∀ d, (weekday d = 1 → ¬zone.Misdated (day * d)) ∧ ¬ShortSunday zone d
  | .monthly => ∀ k, ¬zone.Misdated (day * monthStart k)
  | .custom => 10 ^ 9 ≤ wrapInt64 (plan.quotaResetCustomSeconds * 10 ^ 9)

theorem capped_iff {next : Int} :
    (∀ endUnix : Int, (if 0 < endUnix ∧ endUnix < next then 0 else next) = 0 ∨
      base < if 0 < endUnix ∧ endUnix < next then 0 else next) ↔ next = 0 ∨ base < next := by
  constructor
  · intro hall
    simpa using hall 0
  · intro hnext endUnix
    split
    · exact .inl rfl
    · exact hnext

theorem getsAhead_daily (hplan : plan.quotaResetPeriod = .daily) :
    plan.GetsAhead zone ↔ ∀ d, ¬zone.Misdated (day * d) := by
  have hiff : plan.GetsAhead zone ↔ ∀ base,
      addDays zone (midnight zone (localDay zone base)) 1 = 0 ∨
        base < addDays zone (midnight zone (localDay zone base)) 1 := by
    unfold SubscriptionPlan.GetsAhead calcNextResetTimeIn
    rw [hplan]
    exact forall_congr' fun base => capped_iff
  rw [hiff]
  constructor
  · intro hall d hmisdated
    obtain ⟨t, ht, hle, hne⟩ := exists_addDays_le hmisdated
    rcases hall t with hzero | hlt
    · rw [ht] at hzero
      exact hne hzero
    · rw [ht] at hlt
      omega
  · intro hfine base
    refine .inr (lt_addDays_of_shown (hfine _) ?_ le_rfl (by decide) rfl)
    rintro ⟨t, before, after, hskips⟩
    exact hfine _ ⟨t, before, after, .inl hskips⟩

theorem getsAhead_weekly (hplan : plan.quotaResetPeriod = .weekly) :
    plan.GetsAhead zone ↔
      ∀ d, (weekday d = 1 → ¬zone.Misdated (day * d)) ∧ ¬ShortSunday zone d := by
  have hiff : plan.GetsAhead zone ↔ ∀ base,
      addDays zone (midnight zone (localDay zone base)) (daysUntilMonday (localDay zone base)) = 0 ∨
        base <
          addDays zone (midnight zone (localDay zone base))
            (daysUntilMonday (localDay zone base)) := by
    unfold SubscriptionPlan.GetsAhead calcNextResetTimeIn
    rw [hplan]
    exact forall_congr' fun base => capped_iff
  rw [hiff]
  constructor
  · intro hall d
    constructor
    · intro hmonday hmisdated
      obtain ⟨t, ht, hle, hne⟩ := exists_addDays_le hmisdated
      have hnext := hall t
      rw [ht, daysUntilMonday_pred hmonday] at hnext
      omega
    · rintro ⟨hsunday, t, before, after, hshort⟩
      have hday := day_pos
      obtain ⟨u, hu, hle⟩ := hshort.exists_le
      have hone : daysUntilMonday d = 1 := (daysUntilMonday_spec d).2.2.2.mpr hsunday
      have hnext := hall u
      rw [hu, hone] at hnext
      rcases hnext with hzero | hlt
      · -- the epoch is not on a Sunday
        have hbounds := @Zone.offset_bounds zone 0
        obtain ⟨-, hclock⟩ := midnight_of_skips hshort.skips
        have hjump := hshort.skips.sets.jump
        have hlt := hshort.skips.lt_to
        have hfrom := hshort.skips.from_le
        unfold addDays at hzero
        rw [hclock] at hzero
        have hdate := @Zone.date_bounds zone (day * d - (after - before) + day * 1)
        rw [hzero] at hdate
        unfold weekday at hsunday
        unfold day at *
        omega
      · omega
  · intro hfine base
    right
    obtain ⟨hone, hseven, hmonday, hlast⟩ := daysUntilMonday_spec (localDay zone base)
    by_cases hskip : ∃ t before after, zone.Skips t before after (day * localDay zone base)
    · obtain ⟨t, before, after, hskips⟩ := hskip
      by_cases hk : daysUntilMonday (localDay zone base) = 1
      · rw [hk]
        refine lt_addDays_of_long hskips (fun hshort => ?_) rfl
        exact (hfine _).2 ⟨hlast.mp hk, t, before, after, hshort⟩
      · exact lt_addDays_of_skips hskips (by omega) hseven rfl
    · exact lt_addDays_of_shown ((hfine _).1 hmonday) hskip hone hseven rfl

theorem getsAhead_monthly (hplan : plan.quotaResetPeriod = .monthly) :
    plan.GetsAhead zone ↔ ∀ k, ¬zone.Misdated (day * monthStart k) := by
  have hiff : plan.GetsAhead zone ↔ ∀ base,
      addOneMonth zone (midnight zone (monthStart (monthOf (localDay zone base)))) = 0 ∨
        base < addOneMonth zone (midnight zone (monthStart (monthOf (localDay zone base)))) := by
    unfold SubscriptionPlan.GetsAhead calcNextResetTimeIn
    rw [hplan]
    exact forall_congr' fun base => capped_iff
  rw [hiff]
  constructor
  · intro hall k hmisdated
    obtain ⟨t, hle, hne⟩ := exists_addOneMonth_le hmisdated
    rcases hall t with hzero | hlt
    · exact hne hzero
    · omega
  · intro hfine base
    exact .inr (lt_addOneMonth hfine rfl)

theorem getsAhead_custom (hplan : plan.quotaResetPeriod = .custom)
    (hadmitted : plan.Admitted) :
    plan.GetsAhead zone ↔ 10 ^ 9 ≤ wrapInt64 (plan.quotaResetCustomSeconds * 10 ^ 9) := by
  obtain ⟨hpos, -⟩ := hadmitted hplan
  generalize hw : wrapInt64 (plan.quotaResetCustomSeconds * 10 ^ 9) = w
  have hiff : plan.GetsAhead zone ↔ ∀ base : Int,
      base + w / 10 ^ 9 = 0 ∨ base < base + w / 10 ^ 9 := by
    unfold SubscriptionPlan.GetsAhead calcNextResetTimeIn
    rw [hplan]
    have hnot : ¬plan.quotaResetCustomSeconds ≤ 0 := by omega
    simp only [if_neg hnot, hw]
    exact forall_congr' fun base => capped_iff
  rw [hiff]
  constructor
  · intro hall
    rcases hall (1 - w / 10 ^ 9) with hzero | hlt
    · omega
    · omega
  · intro hsecond base
    right
    omega

theorem getsAhead_iff (hadmitted : plan.Admitted) : plan.GetsAhead zone ↔ plan.Sound zone := by
  unfold SubscriptionPlan.Sound
  cases hplan : plan.quotaResetPeriod with
  | never =>
    refine iff_of_true (fun base endUnix => .inl ?_) trivial
    unfold calcNextResetTimeIn
    rw [hplan]
  | daily => exact getsAhead_daily hplan
  | weekly => exact getsAhead_weekly hplan
  | monthly => exact getsAhead_monthly hplan
  | custom => exact getsAhead_custom hplan hadmitted

/-! ### The loop -/

theorem calcNextResetTime_calendarIn (base : Int) (plan : SubscriptionPlan) (endUnix : Int) :
    calcNextResetTime (calendarIn zone) base plan endUnix =
      calcNextResetTimeIn zone base plan endUnix := by
  unfold calcNextResetTime calcNextResetTimeIn
  cases plan.quotaResetPeriod <;> rfl

theorem advanceReset_calendarIn (plan : SubscriptionPlan) (endUnix now : Int) :
    ∀ (fuel : Nat) (base : Int), advanceReset (calendarIn zone) plan endUnix now fuel base =
      catchUp (fun base => calcNextResetTimeIn zone base plan endUnix) now fuel base := by
  intro fuel
  induction fuel with
  | zero => exact fun _ => rfl
  | succ fuel ih =>
    intro base
    unfold advanceReset catchUp
    dsimp only
    rw [calcNextResetTime_calendarIn, ih]
    split
    · cases catchUp (fun base => calcNextResetTimeIn zone base plan endUnix) now fuel
        (calcNextResetTimeIn zone base plan endUnix) <;> rfl
    · rfl

/-- The periodic reset over a calendar is the one on the clock of its zone. -/
theorem maybeReset_calendarIn (sub : UserSubscription) (plan : SubscriptionPlan) (now : Int) :
    maybeResetUserSubscriptionWithPlanTx (calendarIn zone) sub plan now =
      maybeResetIn zone sub plan now (resetFuel now
        (if sub.lastResetTime ≤ 0 then sub.startTime else sub.lastResetTime)) := by
  unfold maybeResetUserSubscriptionWithPlanTx maybeResetIn
  dsimp only
  rw [advanceReset_calendarIn]
  generalize catchUp _ now _ _ = result
  split
  · rfl
  split
  · rfl
  rcases result with _ | ⟨base, next, advanced⟩
  · rfl
  cases advanced with
  | false => exact (apply_ite some (sub.nextResetTime = 0 ∧ 0 < next) _ sub).symm
  | true => rfl

theorem catchUp_isSome {next : Int → Int} (hnext : ∀ base, next base = 0 ∨ base < next base)
    (now : Int) : ∀ (fuel : Nat) (base : Int), (now - base).toNat < fuel →
      (catchUp next now fuel base).isSome = true := by
  intro fuel
  induction fuel with
  | zero => intro base h; omega
  | succ fuel ih =>
    intro base h
    unfold catchUp
    split
    · rename_i hon
      have hahead := hnext base
      rw [Option.isSome_map]
      exact ih (next base) (by omega)
    · rfl

theorem SubscriptionPlan.GetsAhead.catchesUp (h : plan.GetsAhead zone) : plan.CatchesUp zone := by
  intro sub now
  unfold maybeResetIn
  split
  · exact ⟨0, rfl⟩
  · split
    · exact ⟨0, rfl⟩
    · dsimp only
      generalize (if sub.lastResetTime ≤ 0 then sub.startTime else sub.lastResetTime) = baseUnix
      refine ⟨(now - baseUnix).toNat + 1, ?_⟩
      rw [Option.isSome_map]
      exact catchUp_isSome (fun base => h base sub.endTime) now _ _ (Nat.lt_succ_self _)

/--
Every reset is none or later than its base, and the loop comes to an end, exactly if the plan is
sound in the server's zone.
-/
theorem calcNextResetTimeIn_ahead_iff (zone : Zone) (plan : SubscriptionPlan)
    (hadmitted : plan.Admitted) :
    plan.GetsAhead zone ∧ plan.CatchesUp zone ↔ plan.Sound zone := by
  rw [← getsAhead_iff hadmitted]
  exact ⟨fun h => h.1, fun h => ⟨h, h.catchesUp⟩⟩

/-! ### Zones and plans -/

/-- The first plan to overflow: its nanoseconds are a multiple of 2 to the 64. -/
def wrappedPlan : SubscriptionPlan := ⟨.custom, 2 ^ 55⟩

def dailyPlan : SubscriptionPlan := ⟨.daily, 0⟩

def utc : Zone := .fixed 0 (by decide)

/-- Havana in the year 2026: at 05:00 UTC on the 8th of March the clock goes from 00:00 to 01:00. -/
def havana : Zone :=
  .once 1772946000 (-18000) (-14400) (by decide) (by decide) (by decide) (by decide)

theorem not_misdated_havana {wall : Int} (h : wall < 1772928000 ∨ 1772931600 ≤ wall) :
    ¬havana.Misdated wall := by
  have hsets : ∀ {t before after}, havana.Sets t before after →
      t = 1772946000 ∧ before = -18000 ∧ after = -14400 := by
    intro t before after hsets
    have hthere : havana.Sets 1772946000 (-18000) (-14400) := Zone.sets_once _ _ _ _
    obtain rfl : t = 1772946000 := Zone.isTransition_once hsets.transition
    exact ⟨rfl, hsets.before.symm.trans hthere.before, hsets.after.symm.trans hthere.after⟩
  rintro ⟨t, before, after, hskips | hrepeats⟩
  · obtain ⟨rfl, rfl, rfl⟩ := hsets hskips.sets
    have hfrom := hskips.from_le
    have hto := hskips.lt_to
    omega
  · obtain ⟨rfl, rfl, rfl⟩ := hsets hrepeats.sets
    have hto := hrepeats.to_lt
    have hfrom := hrepeats.lt_from
    omega

/-- In Havana a daily reset is sometimes not later than its base, a monthly one always is. -/
theorem havana_daily_not_ahead : ¬(dailyPlan.GetsAhead havana ∧ dailyPlan.CatchesUp havana) ∧
    SubscriptionPlan.GetsAhead havana ⟨.monthly, 0⟩ ∧
      SubscriptionPlan.CatchesUp havana ⟨.monthly, 0⟩ := by
  constructor
  · intro h
    have hsound :=
      (calcNextResetTimeIn_ahead_iff havana dailyPlan (by intro hcustom; cases hcustom)).mp h
    -- the midnight before the 8th of March
    refine hsound 20520 ⟨1772946000, -18000, -14400, .inl ⟨Zone.sets_once _ _ _ _, ?_, ?_, ?_⟩⟩ <;>
    · unfold day
      omega
  · refine (calcNextResetTimeIn_ahead_iff havana _ (by intro hcustom; cases hcustom)).mpr ?_
    intro k
    refine not_misdated_havana ?_
    -- the month of the 8th of March begins on another day
    have hne : monthStart k ≠ 20520 := by
      intro heq
      have hlength := monthStart_succ k
      have hmonth : monthOf 20520 = k := monthOf_eq (by omega) (by omega)
      rw [← hmonth] at heq
      exact absurd heq (by decide)
    unfold day
    omega

def dueSubscription : UserSubscription where
  id := 1
  userId := 1
  planId := 1
  amountTotal := 500
  amountUsed := 0
  startTime := 100
  endTime := 0
  status := .active
  lastResetTime := 100
  nextResetTime := 100

theorem wrappedPlan_stands_still (base : Int) :
    calcNextResetTimeIn utc base wrappedPlan 0 = base := by
  have hwrap : wrapInt64 (wrappedPlan.quotaResetCustomSeconds * 10 ^ 9) = 0 := by decide
  have hnot : ¬wrappedPlan.quotaResetCustomSeconds ≤ 0 := by decide
  unfold calcNextResetTimeIn
  simp only [show wrappedPlan.quotaResetPeriod = .custom from rfl, if_neg hnot, hwrap]
  simp

/-- With 2 to the 55 seconds a reset is due at the time of the last one, and the loop goes on. -/
theorem wrapped_plan_never_catches_up :
    ¬∀ (zone : Zone) (plan : SubscriptionPlan), plan.Admitted →
      plan.GetsAhead zone ∧ plan.CatchesUp zone := by
  intro hall
  obtain ⟨-, hends⟩ := hall utc wrappedPlan fun _ => by decide
  obtain ⟨fuel, hfuel⟩ := hends dueSubscription 200
  have hloop : ∀ fuel, catchUp (fun base => calcNextResetTimeIn utc base wrappedPlan 0) 200 fuel 100 =
      none := by
    intro fuel
    induction fuel with
    | zero => rfl
    | succ fuel ih =>
      unfold catchUp
      rw [wrappedPlan_stands_still, if_pos (by decide), ih]
      rfl
  unfold maybeResetIn at hfuel
  rw [if_neg (by decide), if_neg (by decide)] at hfuel
  dsimp only at hfuel
  rw [if_neg (by decide), show dueSubscription.lastResetTime = 100 from rfl,
    show dueSubscription.endTime = 0 from rfl, hloop fuel] at hfuel
  cases hfuel

end JulongApi

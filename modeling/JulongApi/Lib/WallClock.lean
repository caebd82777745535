/-
Clocks on the wall: time zones, and the instant that stands for a wall clock time.

An instant is a number of seconds.  A zone gives for every instant the span of time around it in
which its offset stays, and the wall clock shows the instant moved by the offset.  A wall clock time
may be shown twice or not at all, where the clock is set; `date` is how Go's `time.Date` chooses an
instant for it all the same.

What matters is whether `date` of a wall clock time comes after all instants at which the clock
shows less.  It does unless the clock jumps over the time, or back across it, at an instant that is
a larger number than the time itself, which is to say west of Greenwich (`lt_date_iff`).
-/
import Mathlib.Tactic.Linarith

namespace WallClock

def day : Int := 86400

theorem day_pos : 0 < day := by decide

/-- A time in which the offset from UTC stays; without a bound it has none on that side. -/
structure Span where
  offset : Int
  start : Option Int
  stop : Option Int
deriving DecidableEq, Repr

def Span.contains (span : Span) (t : Int) : Bool :=
  span.start.all (fun a => decide (a ≤ t)) && span.stop.all fun b => decide (t < b)

def IsTransition (lookup : Int → Span) (t : Int) : Prop := (lookup t).start = some t

def SetsForward (lookup : Int → Span) (t : Int) : Prop :=
  IsTransition lookup t ∧ (lookup (t - 1)).offset < (lookup t).offset

/-- A time zone, with what those of the time zone database keep to, but for eight that have set their
clocks twice within eight days. -/
structure Zone where
  lookup : Int → Span
  contains_lookup : ∀ t, (lookup t).contains t = true
  lookup_eq : ∀ t u, (lookup t).contains u = true → lookup u = lookup t
  /-- Offsets are less than a day. -/
  offset_lt : ∀ t, -day < (lookup t).offset ∧ (lookup t).offset < day
  /-- Between two settings of the clock there are eight days. -/
  long : ∀ t a b, (lookup t).start = some a → (lookup t).stop = some b → a + 8 * day ≤ b
  /-- The clock is set by a day at most. -/
  jump : ∀ t, IsTransition lookup t → (lookup t).offset - (lookup (t - 1)).offset ≤ day ∧
    (lookup (t - 1)).offset - (lookup t).offset ≤ day
  /-- In the west it is not set forward twice within 33 days. -/
  apart : ∀ t u, SetsForward lookup t → SetsForward lookup u → (lookup (u - 1)).offset < 0 →
    t < u → t + 33 * day ≤ u
  /-- Nor does a zone go west within forty days after it was set forward in the east. -/
  east : ∀ t u, SetsForward lookup t → 0 < (lookup t).offset → t ≤ u → u < t + 40 * day →
    0 ≤ (lookup u).offset
  /-- No clock was set on the first of January 1970. -/
  epoch : ∀ t, IsTransition lookup t → 0 < t → t < day →
    (lookup (t - 1)).offset = (lookup t).offset

namespace Zone

variable (zone : Zone)

def offset (t : Int) : Int := (zone.lookup t).offset

def clock (t : Int) : Int := t + zone.offset t

/-- `time.Date`, of the wall clock time as a number of seconds. -/
def date (wall : Int) : Int :=
  let offset := zone.offset wall
  if offset = 0 then wall
  else
    let utc := wall - offset
    wall - (if (zone.lookup wall).contains utc then offset else zone.offset utc)

/-- The offset is set at `t`, from `before` to `after`. -/
structure Sets (t before after : Int) : Prop where
  transition : IsTransition zone.lookup t
  before : zone.offset (t - 1) = before
  after : zone.offset t = after

/-- The clock jumps over `wall`, and that at an instant that is a larger number. -/
structure Skips (t before after wall : Int) : Prop where
  sets : zone.Sets t before after
  west : wall < t
  from_le : t + before ≤ wall
  lt_to : wall < t + after

/-- The clock is set back across `wall`, and that at an instant that is a larger number. -/
structure Repeats (t before after wall : Int) : Prop where
  sets : zone.Sets t before after
  west : wall < t
  to_lt : t + after < wall
  lt_from : wall < t + before

/-- Some instant at which the clock shows less than `wall` is not before `date wall`. -/
def Misdated (wall : Int) : Prop :=
  ∃ t before after, zone.Skips t before after wall ∨ zone.Repeats t before after wall

end Zone

variable {zone : Zone} {t u wall before after : Int}

/-! ### Spans -/

theorem Span.contains_iff {span : Span} : span.contains t = true ↔
    (∀ a, span.start = some a → a ≤ t) ∧ ∀ b, span.stop = some b → t < b := by
  cases hstart : span.start <;> cases hstop : span.stop <;> simp [Span.contains, hstart, hstop]

namespace Zone

theorem start_le {a : Int} (h : (zone.lookup t).start = some a) : a ≤ t :=
  (Span.contains_iff.mp (zone.contains_lookup t)).1 a h

theorem lt_stop {b : Int} (h : (zone.lookup t).stop = some b) : t < b :=
  (Span.contains_iff.mp (zone.contains_lookup t)).2 b h

theorem lookup_after (h : IsTransition zone.lookup t) (hle : t ≤ u) (hlt : u < t + 8 * day) :
    zone.lookup u = zone.lookup t := by
  refine zone.lookup_eq t u (Span.contains_iff.mpr ⟨fun a ha => ?_, fun b hb => ?_⟩)
  · cases h.symm.trans ha
    exact hle
  · have hlong := zone.long t t b h hb
    omega

theorem stop_before (h : IsTransition zone.lookup t) : (zone.lookup (t - 1)).stop = some t := by
  have hout : (zone.lookup (t - 1)).contains t ≠ true := by
    intro hcontains
    have hsame := zone.lookup_eq (t - 1) t hcontains
    have hstart : (zone.lookup (t - 1)).start = some t := by
      rw [← hsame]
      exact h
    have hle : t ≤ t - 1 := start_le hstart
    omega
  cases hstop : (zone.lookup (t - 1)).stop with
  | none =>
    refine absurd (Span.contains_iff.mpr ⟨fun a ha => ?_, fun b hb => ?_⟩) hout
    · have hle := start_le ha
      omega
    · rw [hstop] at hb
      cases hb
  | some b =>
    have hlt := lt_stop hstop
    by_contra hne
    have hb : b ≠ t := fun heq => hne (by rw [heq])
    refine hout (Span.contains_iff.mpr ⟨fun a ha => ?_, fun b' hb' => ?_⟩)
    · have hle := start_le ha
      omega
    · cases hstop.symm.trans hb'
      omega

theorem lookup_before (h : IsTransition zone.lookup t) (hle : t - 8 * day ≤ u) (hlt : u < t) :
    zone.lookup u = zone.lookup (t - 1) := by
  have hstop := stop_before h
  refine zone.lookup_eq (t - 1) u (Span.contains_iff.mpr ⟨fun a ha => ?_, fun b hb => ?_⟩)
  · have hlong := zone.long (t - 1) a t ha hstop
    omega
  · cases hstop.symm.trans hb
    exact hlt

theorem transitions_apart (h : IsTransition zone.lookup t) (h' : IsTransition zone.lookup u)
    (hlt : t < u) : t + 8 * day ≤ u := by
  by_contra hclose
  have hsame := lookup_after h hlt.le (by omega)
  have heq : some u = some t := by
    rw [← show (zone.lookup u).start = some u from h', hsame]
    exact h
  have htu := Option.some.inj heq
  omega

theorem transitions_eq (h : IsTransition zone.lookup t) (h' : IsTransition zone.lookup u)
    (hlo : u < t + 8 * day) (hhi : t < u + 8 * day) : u = t := by
  rcases lt_trichotomy t u with hlt | heq | hgt
  · have hapart := transitions_apart h h' hlt
    omega
  · exact heq.symm
  · have hapart := transitions_apart h' h hgt
    omega

theorem lookup_eq_or_transition (hlt : t < u) :
    zone.lookup u = zone.lookup t ∨ ∃ v, IsTransition zone.lookup v ∧ t < v ∧ v ≤ u := by
  by_cases hcontains : (zone.lookup u).contains t = true
  · exact .inl (zone.lookup_eq u t hcontains).symm
  · cases hstart : (zone.lookup u).start with
    | none =>
      refine absurd (Span.contains_iff.mpr ⟨fun a ha => ?_, fun b hb => ?_⟩) hcontains
      · rw [hstart] at ha
        cases ha
      · exact hlt.trans (lt_stop hb)
    | some v =>
      have hle : v ≤ u := start_le hstart
      have hbetween : t < v := by
        by_contra hge
        refine hcontains (Span.contains_iff.mpr ⟨fun a ha => ?_, fun b hb => ?_⟩)
        · cases hstart.symm.trans ha
          omega
        · exact hlt.trans (lt_stop hb)
      have hsame : zone.lookup v = zone.lookup u := by
        refine zone.lookup_eq u v (Span.contains_iff.mpr ⟨fun a ha => ?_, fun b hb => ?_⟩)
        · cases hstart.symm.trans ha
          exact le_rfl
        · exact hle.trans_lt (lt_stop hb)
      refine .inr ⟨v, ?_, hbetween, hle⟩
      rw [IsTransition, hsame]
      exact hstart

theorem offset_bounds (t : Int) : -day < zone.offset t ∧ zone.offset t < day := zone.offset_lt t

namespace Sets

variable (h : zone.Sets t before after)
include h

theorem offset_before (hle : t - 8 * day ≤ u) (hlt : u < t) : zone.offset u = before := by
  rw [← h.before]
  exact congrArg Span.offset (lookup_before h.transition hle hlt)

theorem offset_after (hle : t ≤ u) (hlt : u < t + 8 * day) : zone.offset u = after := by
  rw [← h.after]
  exact congrArg Span.offset (lookup_after h.transition hle hlt)

theorem bounds : (-day < before ∧ before < day) ∧ -day < after ∧ after < day := by
  constructor
  · rw [← h.before]
    exact offset_bounds _
  · rw [← h.after]
    exact offset_bounds _

theorem jump : after - before ≤ day ∧ before - after ≤ day := by
  rw [← h.before, ← h.after]
  exact zone.jump t h.transition

theorem setsForward (hlt : before < after) : SetsForward zone.lookup t := by
  refine ⟨h.transition, ?_⟩
  rw [← h.before, ← h.after] at hlt
  exact hlt

end Sets

theorem sets_of_transition (h : IsTransition zone.lookup t) :
    zone.Sets t (zone.offset (t - 1)) (zone.offset t) := ⟨h, rfl, rfl⟩

/-! ### What `date` gives -/

/-- The clock jumps over `wall`, at an instant that is not a larger number. -/
structure SkipsEast (zone : Zone) (t before after wall : Int) : Prop where
  sets : zone.Sets t before after
  east : t ≤ wall
  from_le : t + before ≤ wall
  lt_to : wall < t + after

theorem date_of_not_contains (hzero : zone.offset wall ≠ 0)
    (hout : (zone.lookup wall).contains (wall - zone.offset wall) ≠ true) :
    ∃ t before after, zone.Sets t before after ∧
      ((wall < t ∧ t + before ≤ wall ∧ zone.date wall = wall - after) ∨
        (t ≤ wall ∧ wall < t + after ∧ zone.date wall = wall - before)) := by
  have hbounds := @offset_bounds zone wall
  have hdate : zone.date wall = wall - zone.offset (wall - zone.offset wall) := by
    unfold date
    rw [if_neg hzero]
    exact congrArg (wall - ·) (if_neg hout)
  have hne : zone.lookup (wall - zone.offset wall) ≠ zone.lookup wall := by
    intro heq
    exact hout (heq ▸ zone.contains_lookup _)
  have hday := day_pos
  rcases lt_trichotomy wall (wall - zone.offset wall) with hlt | heq | hgt
  · rcases @lookup_eq_or_transition zone _ _ hlt with hsame | ⟨v, hv, hlo, hhi⟩
    · exact absurd hsame hne
    · have hsets := sets_of_transition hv
      have hbefore : zone.offset wall = zone.offset (v - 1) :=
        hsets.offset_before (by omega) hlo
      have hafter : zone.offset (wall - zone.offset wall) = zone.offset v :=
        hsets.offset_after hhi (by omega)
      refine ⟨v, _, _, hsets, .inl ⟨hlo, by omega, ?_⟩⟩
      rw [hdate, hafter]
  · omega
  · rcases @lookup_eq_or_transition zone _ _ hgt with hsame | ⟨v, hv, hlo, hhi⟩
    · exact absurd hsame.symm hne
    · have hsets := sets_of_transition hv
      have hafter : zone.offset wall = zone.offset v := hsets.offset_after hhi (by omega)
      have hbefore : zone.offset (wall - zone.offset wall) = zone.offset (v - 1) :=
        hsets.offset_before (by omega) hlo
      refine ⟨v, _, _, hsets, .inr ⟨hhi, by omega, ?_⟩⟩
      rw [hdate, hbefore]

theorem date_cases (zone : Zone) (wall : Int) :
    zone.clock (zone.date wall) = wall ∨
      (∃ t before after, zone.Skips t before after wall ∧ zone.date wall = wall - after ∧
        zone.clock (zone.date wall) = wall - (after - before)) ∨
      ∃ t before after, zone.SkipsEast t before after wall ∧ zone.date wall = wall - before ∧
        zone.clock (zone.date wall) = wall + (after - before) := by
  have hday := day_pos
  by_cases hzero : zone.offset wall = 0
  · have hdate : zone.date wall = wall := by
      unfold date
      exact if_pos hzero
    left
    rw [hdate, clock, hzero, add_zero]
  · by_cases hin : (zone.lookup wall).contains (wall - zone.offset wall) = true
    · have hdate : zone.date wall = wall - zone.offset wall := by
        unfold date
        rw [if_neg hzero]
        exact congrArg (wall - ·) (if_pos hin)
      have hsame : zone.offset (wall - zone.offset wall) = zone.offset wall :=
        congrArg Span.offset (zone.lookup_eq wall _ hin)
      left
      rw [hdate, clock, hsame]
      omega
    · obtain ⟨v, b, a, hsets, ⟨hwest, hfrom, hdate⟩ | ⟨heast, hto, hdate⟩⟩ :=
        date_of_not_contains hzero hin
      · obtain ⟨⟨hb, hb'⟩, ha, ha'⟩ := hsets.bounds
        by_cases hskip : wall < v + a
        · have hoff : zone.offset (wall - a) = b := hsets.offset_before (by omega) (by omega)
          refine .inr (.inl ⟨v, b, a, ⟨hsets, hwest, hfrom, hskip⟩, hdate, ?_⟩)
          rw [hdate, clock, hoff]
          omega
        · have hoff : zone.offset (wall - a) = a := hsets.offset_after (by omega) (by omega)
          left
          rw [hdate, clock, hoff]
          omega
      · obtain ⟨⟨hb, hb'⟩, ha, ha'⟩ := hsets.bounds
        by_cases hskip : v + b ≤ wall
        · have hoff : zone.offset (wall - b) = a := hsets.offset_after (by omega) (by omega)
          refine .inr (.inr ⟨v, b, a, ⟨hsets, heast, hskip, hto⟩, hdate, ?_⟩)
          rw [hdate, clock, hoff]
          omega
        · have hoff : zone.offset (wall - b) = b := hsets.offset_before (by omega) (by omega)
          left
          rw [hdate, clock, hoff]
          omega

theorem date_bounds (wall : Int) : wall - day < zone.date wall ∧ zone.date wall < wall + day := by
  have hday := day_pos
  have hbound := @offset_bounds zone (zone.date wall)
  rcases date_cases zone wall with hexact | ⟨v, b, a, hskip, hdate, -⟩ | ⟨v, b, a, hskip, hdate, -⟩
  · unfold clock at hexact
    omega
  · have hbounds := hskip.sets.bounds
    omega
  · have hbounds := hskip.sets.bounds
    omega

theorem clock_date_of_near (h : IsTransition zone.lookup t)
    (hnear : wall + day ≤ t ∧ t < wall + 7 * day ∨ t + day ≤ wall ∧ wall < t + 7 * day) :
    zone.clock (zone.date wall) = wall := by
  have hno : ∀ v before after, zone.Sets v before after → v < wall + day → wall < v + day →
      False := by
    intro v before after hsets hlo hhi
    have hsame := transitions_eq h hsets.transition (by omega) (by omega)
    omega
  rcases date_cases zone wall with hexact | ⟨v, b, a, hskip, -, -⟩ | ⟨v, b, a, hskip, -, -⟩
  · exact hexact
  · obtain ⟨⟨hb, -⟩, -⟩ := hskip.sets.bounds
    have hfrom := hskip.from_le
    have hwest := hskip.west
    exact absurd (hno v b a hskip.sets (by omega) (by omega)) id
  · obtain ⟨-, -, ha⟩ := hskip.sets.bounds
    have hto := hskip.lt_to
    have heast := hskip.east
    exact absurd (hno v b a hskip.sets (by omega) (by omega)) id

/-! ### Which instants come before it -/

theorem Skips.date_eq (h : zone.Skips t before after wall) : zone.date wall = wall - after := by
  obtain ⟨⟨hb, hb'⟩, ha, ha'⟩ := h.sets.bounds
  obtain ⟨hsets, hwest, hfrom, hto⟩ := h
  have hoff : zone.offset wall = before := hsets.offset_before (by omega) hwest
  have hzero : zone.offset wall ≠ 0 := by omega
  have hout : (zone.lookup wall).contains (wall - zone.offset wall) ≠ true := by
    intro hin
    have hsame := zone.lookup_eq wall _ hin
    have hsame' := lookup_after hsets.transition (u := wall - zone.offset wall) (by omega) (by omega)
    have hequal : after = before := by
      rw [← hsets.after, ← hoff]
      exact congrArg Span.offset (hsame'.symm.trans hsame)
    omega
  have hutc : zone.offset (wall - zone.offset wall) = after :=
    hsets.offset_after (by omega) (by omega)
  unfold date
  rw [if_neg hzero]
  refine (congrArg (wall - ·) (if_neg hout)).trans ?_
  rw [hutc]

theorem Repeats.date_eq (h : zone.Repeats t before after wall) :
    zone.date wall = wall - before := by
  obtain ⟨⟨hb, hb'⟩, ha, ha'⟩ := h.sets.bounds
  obtain ⟨hsets, hwest, hto, hfrom⟩ := h
  have hjump := hsets.jump
  have hoff : zone.offset wall = before := hsets.offset_before (by omega) hwest
  by_cases hzero : zone.offset wall = 0
  · unfold date
    rw [if_pos hzero]
    omega
  · have hin : (zone.lookup wall).contains (wall - zone.offset wall) = true := by
      have hsame := lookup_before hsets.transition (u := wall) (by omega) hwest
      have hsame' := lookup_before hsets.transition (u := wall - zone.offset wall) (by omega)
        (by omega)
      rw [hsame, ← hsame']
      exact zone.contains_lookup _
    unfold date
    rw [if_neg hzero]
    refine (congrArg (wall - ·) (if_pos hin)).trans ?_
    rw [hoff]

theorem lt_date (hfine : ¬zone.Misdated wall) (hclock : zone.clock t < wall) :
    t < zone.date wall := by
  have hday := day_pos
  by_contra hle
  have hbound := @offset_bounds zone t
  have hbound' := @offset_bounds zone (zone.date wall)
  unfold clock at hclock
  rcases date_cases zone wall with hexact | ⟨v, b, a, hskip, -, -⟩ | ⟨v, b, a, hskip, hdate, hshown⟩
  · unfold clock at hexact
    have hne : zone.date wall ≠ t := by
      intro heq
      rw [heq] at hexact
      omega
    have hlt : zone.date wall < t := by omega
    rcases @lookup_eq_or_transition zone _ _ hlt with hsame | ⟨v, hv, hlo, hhi⟩
    · have hoff : zone.offset t = zone.offset (zone.date wall) := congrArg Span.offset hsame
      omega
    · -- the clock is set back between the two
      have hsets := sets_of_transition hv
      have hbefore : zone.offset (zone.date wall) = zone.offset (v - 1) :=
        hsets.offset_before (by omega) hlo
      have hafter : zone.offset t = zone.offset v := hsets.offset_after hhi (by omega)
      have hbounds := hsets.bounds
      by_cases hwest : wall < v
      · exact hfine ⟨v, _, _, .inr ⟨hsets, hwest, by omega, by omega⟩⟩
      · have hoff : zone.offset wall = zone.offset v := hsets.offset_after (by omega) (by omega)
        by_cases hzero : zone.offset wall = 0
        · have hdate : zone.date wall = wall := by
            unfold date
            exact if_pos hzero
          omega
        · have hin : (zone.lookup wall).contains (wall - zone.offset wall) = true := by
            have hsame := lookup_after hv (u := wall) (by omega) (by omega)
            have hsame' := lookup_after hv (u := wall - zone.offset wall) (by omega) (by omega)
            rw [hsame, ← hsame']
            exact zone.contains_lookup _
          have hdate : zone.date wall = wall - zone.offset wall := by
            unfold date
            rw [if_neg hzero]
            exact congrArg (wall - ·) (if_pos hin)
          omega
  · exact hfine ⟨v, b, a, .inl hskip⟩
  · obtain ⟨⟨hb, hb'⟩, ha, ha'⟩ := hskip.sets.bounds
    obtain ⟨hsets, heast, hfrom, hto⟩ := hskip
    have hoff : zone.offset t = a := hsets.offset_after (by omega) (by omega)
    omega

theorem Misdated.exists_le (h : zone.Misdated wall) :
    ∃ t, zone.clock t < wall ∧ wall - day ≤ zone.clock t ∧ zone.date wall ≤ t := by
  obtain ⟨t, before, after, hskip | hrepeat⟩ := h
  · have hdate := hskip.date_eq
    obtain ⟨⟨hb, hb'⟩, ha, ha'⟩ := hskip.sets.bounds
    obtain ⟨hsets, hwest, hfrom, hto⟩ := hskip
    have hjump := hsets.jump
    refine ⟨t - 1, ?_, ?_, ?_⟩
    · rw [clock, hsets.before]
      omega
    · rw [clock, hsets.before]
      omega
    · omega
  · have hdate := hrepeat.date_eq
    obtain ⟨⟨hb, hb'⟩, ha, ha'⟩ := hrepeat.sets.bounds
    obtain ⟨hsets, hwest, hto, hfrom⟩ := hrepeat
    have hjump := hsets.jump
    refine ⟨t, ?_, ?_, ?_⟩
    · rw [clock, hsets.after]
      omega
    · rw [clock, hsets.after]
      omega
    · omega

theorem Misdated.exists_transition (h : zone.Misdated wall) :
    ∃ t, IsTransition zone.lookup t ∧ wall < t ∧ t < wall + day := by
  obtain ⟨t, before, after, hskip | hrepeat⟩ := h
  · obtain ⟨⟨hb, -⟩, -⟩ := hskip.sets.bounds
    have hfrom := hskip.from_le
    exact ⟨t, hskip.sets.transition, hskip.west, by omega⟩
  · obtain ⟨-, ha, -⟩ := hrepeat.sets.bounds
    have hto := hrepeat.to_lt
    exact ⟨t, hrepeat.sets.transition, hrepeat.west, by omega⟩

theorem Misdated.date_ne_zero {d : Int} (h : zone.Misdated (day * d)) : zone.date (day * d) ≠ 0 := by
  -- the offset would be a multiple of a day, and so zero
  have hmultiple : ∀ offset, -day < offset → offset < day → day * d = offset → day * d = 0 := by
    intro offset hlo hhi heq
    unfold day at *
    omega
  obtain ⟨t, before, after, hskip | hrepeat⟩ := h
  · intro hzero
    rw [hskip.date_eq] at hzero
    obtain ⟨⟨hb, hb'⟩, ha, ha'⟩ := hskip.sets.bounds
    obtain ⟨hsets, hwest, hfrom, hto⟩ := hskip
    have hepoch := hmultiple after ha ha' (by omega)
    have hsame := zone.epoch t hsets.transition (by omega) (by omega)
    have hequal : before = after := by
      rw [← hsets.before, ← hsets.after]
      exact hsame
    omega
  · intro hzero
    rw [hrepeat.date_eq] at hzero
    obtain ⟨⟨hb, hb'⟩, ha, ha'⟩ := hrepeat.sets.bounds
    obtain ⟨hsets, hwest, hto, hfrom⟩ := hrepeat
    have hepoch := hmultiple before hb hb' (by omega)
    have hsame := zone.epoch t hsets.transition (by omega) (by omega)
    have hequal : before = after := by
      rw [← hsets.before, ← hsets.after]
      exact hsame
    omega

/-! ### Zones with at most one setting of the clock -/

def fixed (offset : Int) (h : -day < offset ∧ offset < day) : Zone where
  lookup := fun _ => ⟨offset, none, none⟩
  contains_lookup := fun _ => rfl
  lookup_eq := fun _ _ _ => rfl
  offset_lt := fun _ => h
  long := fun _ _ _ hstart => by cases hstart
  jump := fun _ h => by cases h
  apart := fun _ _ h => by cases h.1
  east := fun _ _ h => by cases h.1
  epoch := fun _ h => by cases h

def onceSpan (t before after u : Int) : Span :=
  if u < t then ⟨before, none, some t⟩ else ⟨after, some t, none⟩

theorem isTransition_once {t before after u : Int}
    (h : IsTransition (onceSpan t before after) u) : u = t := by
  unfold IsTransition onceSpan at h
  split at h
  · cases h
  · exact (Option.some.inj h).symm

def once (t before after : Int) (hbefore : -day < before ∧ before < day)
    (hafter : -day < after ∧ after < day)
    (hjump : after - before ≤ day ∧ before - after ≤ day) (hepoch : ¬(0 < t ∧ t < day)) :
    Zone where
  lookup := onceSpan t before after
  contains_lookup := by
    intro u
    unfold onceSpan
    split
    · next h => simpa [Span.contains] using h
    · next h => simpa [Span.contains] using h
  lookup_eq := by
    intro u v h
    unfold onceSpan at h ⊢
    split at h
    · rename_i hlt
      have hv : v < t := by simpa [Span.contains] using h
      rw [if_pos hv, if_pos hlt]
    · rename_i hlt
      have hv : ¬v < t := by simpa [Span.contains] using h
      rw [if_neg hv, if_neg hlt]
  offset_lt := by
    intro u
    unfold onceSpan
    split
    · exact hbefore
    · exact hafter
  long := by
    intro u a b hstart hstop
    unfold onceSpan at hstart hstop
    split at hstart
    · cases hstart
    · rename_i hlt
      rw [if_neg hlt] at hstop
      cases hstop
  jump := by
    intro u hu
    obtain rfl := isTransition_once hu
    have hlt : u - 1 < u := by omega
    unfold onceSpan
    rw [if_pos hlt, if_neg (lt_irrefl u)]
    exact hjump
  apart := by
    intro u v hu hv _ hlt
    obtain rfl := isTransition_once hu.1
    obtain rfl := isTransition_once hv.1
    omega
  east := by
    intro u v hu hpos hle _
    obtain rfl := isTransition_once hu.1
    unfold onceSpan at hpos ⊢
    rw [if_neg (lt_irrefl u)] at hpos
    rw [if_neg (by omega)]
    exact hpos.le
  epoch := by
    intro u hu hlo hhi
    obtain rfl := isTransition_once hu
    exact absurd ⟨hlo, hhi⟩ hepoch

theorem sets_once {t before after : Int} (hbefore : -day < before ∧ before < day)
    (hafter : -day < after ∧ after < day)
    (hjump : after - before ≤ day ∧ before - after ≤ day) (hepoch : ¬(0 < t ∧ t < day)) :
    (once t before after hbefore hafter hjump hepoch).Sets t before after where
  transition := by
    show (onceSpan t before after t).start = some t
    unfold onceSpan
    rw [if_neg (lt_irrefl t)]
  before := by
    show (onceSpan t before after (t - 1)).offset = before
    unfold onceSpan
    rw [if_pos (by omega)]
  after := by
    show (onceSpan t before after t).offset = after
    unfold onceSpan
    rw [if_neg (lt_irrefl t)]

end Zone

end WallClock

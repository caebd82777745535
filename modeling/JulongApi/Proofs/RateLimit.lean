/-
A window of a key never holds more than the maximum, as long as no sweep drops the key before its
window is over.

`Inv` says that the entry of the key holds what was recorded under it, without a beginning that has
expired.  What the code counts is then at least what lies in the window that ends now
(`within_le_length`), and this is all that `Request` and `Reserve` need.

The other way round, `Backed` says that the entry holds nothing else, whatever the sweeps do: so
what is rejected has found its window full.
-/
import JulongApi.RateLimit

namespace JulongApi.RateLimit

/-! ### Queues -/

section Queues

variable {limiter : Limiter} {key own : String} {now duration : Int} {requests : List Int}

theorem queue_touchEntry (update : List Int → List Int) :
    (limiter.touchEntry own now update).queue key =
      if key = own then update (limiter.queue own) else limiter.queue key := by
  unfold Limiter.touchEntry
  by_cases hkey : key = own
  · subst hkey
    rw [if_pos rfl]
    unfold Limiter.queue
    rw [List.find?_cons_of_pos (by simp)]
  · rw [if_neg hkey]
    have hfind : ∀ entries : List Entry,
        (entries.filter fun entry => entry.key ≠ own).find? (fun entry => entry.key = key) =
          entries.find? fun entry => entry.key = key := by
      intro entries
      rw [List.find?_filter]
      congr 1
      funext entry
      by_cases hown : entry.key = key
      · simp [hown, hkey]
      · simp [hown]
    unfold Limiter.queue
    dsimp only
    rw [List.find?_cons_of_neg (by simpa using Ne.symm hkey), hfind]

theorem dropWhile_spec : ∀ {requests : List Int}, requests.Pairwise (· ≤ ·) →
    ∃ dropped, requests = dropped ++
        requests.dropWhile (fun timestamp => decide (now - timestamp ≥ duration)) ∧
      (∀ timestamp ∈ dropped, duration ≤ now - timestamp) ∧
      ∀ timestamp ∈ requests.dropWhile (fun timestamp => decide (now - timestamp ≥ duration)),
        now - timestamp < duration := by
  intro requests
  induction requests with
  | nil => exact fun _ => ⟨[], rfl, by simp, by simp⟩
  | cons head rest ih =>
    intro hsorted
    obtain ⟨hhead, hrest⟩ := List.pairwise_cons.mp hsorted
    rw [List.dropWhile_cons]
    by_cases hexpired : now - head ≥ duration
    · rw [if_pos (decide_eq_true hexpired)]
      obtain ⟨dropped, heq, hdropped, hkept⟩ := ih hrest
      refine ⟨head :: dropped, congrArg (head :: ·) heq, fun timestamp hmem => ?_, hkept⟩
      obtain rfl | hmem := List.mem_cons.mp hmem
      · exact hexpired
      · exact hdropped timestamp hmem
    · rw [if_neg (by simpa using hexpired)]
      refine ⟨[], rfl, by simp, fun timestamp hmem => ?_⟩
      obtain rfl | hmem := List.mem_cons.mp hmem
      · omega
      · have := hhead timestamp hmem
        omega

theorem removeExpired_spec (hsorted : requests.Pairwise (· ≤ ·)) :
    ∃ dropped, requests = dropped ++ removeExpired now duration requests ∧
      (∀ timestamp ∈ dropped, duration ≤ now - timestamp) ∧
      ∀ timestamp ∈ removeExpired now duration requests, now - timestamp < duration := by
  cases requests with
  | nil => exact ⟨[], rfl, by simp, by simp [removeExpired]⟩
  | cons head rest =>
    obtain ⟨hhead, hrest⟩ := List.pairwise_cons.mp hsorted
    have hlast : (head :: rest).getLast? = some ((head :: rest).getLast (by simp)) :=
      List.getLast?_eq_some_getLast _
    generalize (head :: rest).getLast (by simp) = tail at hlast
    have htail : ∀ timestamp ∈ head :: rest, timestamp ≤ tail := by
      obtain ⟨before, hbefore⟩ := List.getLast?_eq_some_iff.mp hlast
      rw [hbefore] at hsorted ⊢
      intro timestamp hmem
      obtain hmem | hmem := List.mem_append.mp hmem
      · exact (List.pairwise_append.mp hsorted).2.2 timestamp hmem tail (by simp)
      · rw [List.mem_singleton.mp hmem]
    unfold removeExpired
    rw [List.head?_cons, hlast]
    dsimp only
    by_cases hfresh : now - head < duration
    · rw [if_pos hfresh]
      refine ⟨[], rfl, by simp, fun timestamp hmem => ?_⟩
      obtain rfl | hmem := List.mem_cons.mp hmem
      · exact hfresh
      · have := hhead timestamp hmem
        omega
    · rw [if_neg hfresh]
      by_cases hall : now - tail ≥ duration
      · rw [if_pos hall]
        refine ⟨head :: rest, by simp, fun timestamp hmem => ?_, by simp⟩
        have := htail timestamp hmem
        omega
      · rw [if_neg hall]
        exact dropWhile_spec hsorted

end Queues

/-! ### Windows -/

section Windows

variable {start duration now time : Int} {times more : List Int}

theorem within_append :
    within start duration (times ++ more) =
      within start duration times + within start duration more := List.countP_append

theorem within_singleton :
    within start duration [time] = if start ≤ time ∧ time < start + duration then 1 else 0 := by
  unfold within
  rw [List.countP_singleton]
  simp

theorem within_eq_zero (h : ∀ time ∈ times, time < start ∨ start + duration ≤ time) :
    within start duration times = 0 := by
  refine List.countP_eq_zero.mpr fun time hmem => ?_
  have := h time hmem
  simp only [Bool.and_eq_true, decide_eq_true_eq, not_and, not_lt]
  omega

theorem within_le_last (htimes : ∀ time ∈ times, time ≤ now) (hstart : now < start + duration) :
    within start duration times ≤ within (now - duration + 1) duration times := by
  refine List.countP_mono_left fun time hmem h => ?_
  have := htimes time hmem
  simp only [Bool.and_eq_true, decide_eq_true_eq] at h ⊢
  omega

theorem within_advance {later : Int} (htimes : ∀ time ∈ times, time ≤ now) (hlater : now ≤ later) :
    within (later - duration + 1) duration times ≤
      within (now - duration + 1) duration times := by
  refine List.countP_mono_left fun time hmem h => ?_
  have := htimes time hmem
  simp only [Bool.and_eq_true, decide_eq_true_eq] at h ⊢
  omega

end Windows

/-! ### The invariant -/

def Limiter.times (limiter : Limiter) (key : String) : List Int :=
  (limiter.log.filter fun record => record.key = key).map (·.timestamp)

structure Inv (key : String) (most duration : Int) (limiter : Limiter) : Prop where
  sorted : (limiter.times key).Pairwise (· ≤ ·)
  past : ∀ time ∈ limiter.times key, time ≤ unix limiter.clock
  /-- The entry holds what was recorded, without a beginning that has expired. -/
  queue : ∃ dropped, limiter.times key = dropped ++ limiter.queue key ∧
    ∀ time ∈ dropped, duration ≤ unix limiter.clock - time
  held : limiter.reservations key = limiter.outstanding key
  accepted : ∀ start, within start duration (limiter.recorded .accepted key) ≤ max most 0
  completed : ∀ start, within start duration (limiter.recorded .completed key) ≤ max most 0
  level : 0 < duration →
    within (unix limiter.clock - duration + 1) duration (limiter.recorded .completed key) +
      (limiter.outstanding key : Int) ≤ max most 0

/-- The entry of a key holds nothing but requests that were recorded under it, in their order. -/
structure Backed (key : String) (limiter : Limiter) : Prop where
  queue : (limiter.queue key).Sublist (limiter.times key)
  sorted : (limiter.times key).Pairwise (· ≤ ·)
  past : ∀ time ∈ limiter.times key, time ≤ unix limiter.clock
  held : limiter.reservations key = limiter.outstanding key

variable {window maxRequests tick : Int}

section Invariant

variable {limiter after : Limiter} {kind : Kind} {key own : String} {most duration now : Int}

theorem unix_mono {earlier later : Int} (h : earlier ≤ later) : unix earlier ≤ unix later := by
  unfold unix
  omega

theorem recorded_sublist : (limiter.recorded kind key).Sublist (limiter.times key) := by
  unfold Limiter.recorded Limiter.times
  refine List.Sublist.map _ ?_
  have hfilter : (limiter.log.filter fun record => record.kind = kind && record.key = key) =
      (limiter.log.filter fun record => record.key = key).filter fun record =>
        record.kind = kind := by
    rw [List.filter_filter]
  rw [hfilter]
  exact List.filter_sublist

theorem Inv.past_recorded (inv : Inv key most duration limiter) :
    ∀ time ∈ limiter.recorded kind key, time ≤ unix limiter.clock :=
  fun time hmem => inv.past time (recorded_sublist.subset hmem)

theorem Inv.bounded (inv : Inv key most duration limiter) : limiter.Bounded key most duration := by
  refine fun start => ⟨inv.accepted start, ?_⟩
  by_cases hnow : start ≤ unix limiter.clock ∧ unix limiter.clock < start + duration
  · rw [if_pos hnow]
    have hlevel := inv.level (by omega)
    have hlast := within_le_last (@Inv.past_recorded _ .completed _ _ _ inv) hnow.2
    omega
  · rw [if_neg hnow]
    have := inv.completed start
    omega

theorem Inv.within_le_length (inv : Inv key most duration limiter) {start : Int}
    (hstart : unix limiter.clock < start + duration) :
    within start duration (limiter.recorded kind key) ≤
      (removeExpired (unix limiter.clock) duration (limiter.queue key)).length := by
  obtain ⟨dropped, htimes, hdropped⟩ := inv.queue
  have hsorted := inv.sorted
  rw [htimes] at hsorted
  obtain ⟨removed, hqueue, hremoved, -⟩ := @removeExpired_spec (unix limiter.clock) duration _
    (List.pairwise_append.mp hsorted).2.1
  have hexpired : ∀ times : List Int,
      (∀ time ∈ times, duration ≤ unix limiter.clock - time) → within start duration times = 0 := by
    intro times h
    refine within_eq_zero fun time hmem => ?_
    have := h time hmem
    omega
  have hcount : within start duration (limiter.times key) ≤
      (removeExpired (unix limiter.clock) duration (limiter.queue key)).length := by
    rw [htimes, within_append, hexpired dropped hdropped]
    generalize removeExpired (unix limiter.clock) duration (limiter.queue key) = left at hqueue ⊢
    rw [hqueue, within_append, hexpired removed hremoved, Nat.zero_add, Nat.zero_add]
    exact List.countP_le_length
  exact recorded_sublist.countP_le.trans hcount

theorem Inv.advance (inv : Inv key most duration limiter) (hnow : limiter.clock ≤ now) :
    Inv key most duration { limiter with clock := now } := by
  have hunix := unix_mono hnow
  obtain ⟨dropped, htimes, hdropped⟩ := inv.queue
  exact {
    sorted := inv.sorted
    past := fun time hmem => (inv.past time hmem).trans hunix
    queue := ⟨dropped, htimes, fun time hmem => by
      have := hdropped time hmem
      show duration ≤ unix now - time
      omega⟩
    held := inv.held
    accepted := inv.accepted
    completed := inv.completed
    level := fun hduration => by
      have hlevel := inv.level hduration
      have hpast := @within_advance duration _ _ _ (@Inv.past_recorded _ .completed _ _ _ inv) hunix
      show (within (unix now - duration + 1) duration (limiter.recorded .completed key) : Int) +
        limiter.outstanding key ≤ max most 0
      omega }

theorem Inv.touch (inv : Inv key most duration limiter)
    {update : List Int → List Int} {now : Int}
    (hupdate : own = key → update = removeExpired (unix limiter.clock) duration) :
    Inv key most duration (limiter.touchEntry own now update) := by
  obtain ⟨dropped, htimes, hdropped⟩ := inv.queue
  exact {
    sorted := inv.sorted
    past := inv.past
    queue := by
      rw [queue_touchEntry]
      by_cases hkey : key = own
      · rw [if_pos hkey, ← hkey, hupdate hkey.symm]
        have hsorted := inv.sorted
        rw [htimes] at hsorted
        obtain ⟨removed, hqueue, hremoved, -⟩ := @removeExpired_spec (unix limiter.clock) duration _
          (List.pairwise_append.mp hsorted).2.1
        refine ⟨dropped ++ removed, ?_, fun time hmem => ?_⟩
        · rw [List.append_assoc, ← hqueue]
          exact htimes
        · obtain hmem | hmem := List.mem_append.mp hmem
          · exact hdropped time hmem
          · exact hremoved time hmem
      · rw [if_neg hkey]
        exact ⟨dropped, htimes, hdropped⟩
    held := inv.held
    accepted := inv.accepted
    completed := inv.completed
    level := inv.level }

theorem touchEntry_touchEntry {first second : List Int → List Int} :
    (limiter.touchEntry own now first).touchEntry own now second =
      limiter.touchEntry own now fun requests => second (first requests) := by
  have hqueue : (limiter.touchEntry own now first).queue own = first (limiter.queue own) := by
    rw [queue_touchEntry, if_pos rfl]
  unfold Limiter.touchEntry at hqueue ⊢
  dsimp only at hqueue ⊢
  rw [hqueue, List.filter_cons_of_neg (by simp), List.filter_filter]
  simp

theorem times_append {time : Int} (h : after.log = limiter.log ++ [⟨kind, own, time⟩]) :
    after.times key = limiter.times key ++ if own = key then [time] else [] := by
  unfold Limiter.times
  rw [h, List.filter_append, List.map_append]
  by_cases hkey : own = key <;> simp [hkey]

theorem outstanding_reserved (h : after.handles = limiter.handles ++ [⟨own, false⟩]) :
    after.outstanding key = limiter.outstanding key + if own = key then 1 else 0 := by
  unfold Limiter.outstanding
  rw [h, List.countP_append, List.countP_singleton]
  by_cases hkey : own = key <;> simp [hkey]

variable {handle : Nat}

theorem outstanding_released (hhandle : limiter.handles[handle]? = some ⟨own, false⟩)
    (h : after.handles = limiter.handles.set handle ⟨own, true⟩) :
    (after.outstanding key : Int) = limiter.outstanding key - if own = key then 1 else 0 := by
  obtain ⟨hlt, hget⟩ := List.getElem?_eq_some_iff.mp hhandle
  unfold Limiter.outstanding
  rw [h, List.countP_set hlt, hget]
  by_cases hkey : own = key
  · have hpos : 0 < limiter.handles.countP fun handle =>
        decide (handle.key = key) && !handle.done :=
      List.countP_pos_iff.mpr ⟨⟨own, false⟩, List.mem_of_getElem? hhandle, by simp [hkey]⟩
    simp only [hkey, decide_true, Bool.not_false, Bool.and_self, if_true, Bool.not_true,
      Bool.and_false, Bool.false_eq_true, if_false, Nat.add_zero]
    omega
  · simp [hkey]

theorem Backed.reserved (h : Backed key limiter) :
    Backed key { limiter with
      reservations := Function.update limiter.reservations own (limiter.reservations own + 1)
      handles := limiter.handles ++ [⟨own, false⟩] } := by
  refine ⟨h.queue, h.sorted, h.past, ?_⟩
  rw [@outstanding_reserved limiter _ key own rfl]
  by_cases hkey : own = key
  · subst hkey
    simp [h.held]
  · simp [hkey, Ne.symm hkey, h.held]

theorem Backed.released (h : Backed key limiter)
    (hhandle : limiter.handles[handle]? = some ⟨own, false⟩) :
    Backed key { limiter with
      reservations := Function.update limiter.reservations own (limiter.reservations own - 1)
      handles := limiter.handles.set handle ⟨own, true⟩ } := by
  refine ⟨h.queue, h.sorted, h.past, ?_⟩
  rw [@outstanding_released limiter _ key own handle hhandle rfl]
  by_cases hkey : own = key
  · subst hkey
    simp [h.held]
  · simp [hkey, Ne.symm hkey, h.held]

theorem Backed.record (h : Backed key limiter) (hclock : limiter.clock = now) :
    Backed key
      { limiter.touchEntry own now fun requests => requests ++ [unix now] with
        log := limiter.log ++ [⟨kind, own, unix now⟩] } := by
  generalize hafter : ({ limiter.touchEntry own now fun requests => requests ++ [unix now] with
    log := limiter.log ++ [⟨kind, own, unix now⟩] } : Limiter) = after
  have hqueue : after.queue key =
      if key = own then limiter.queue own ++ [unix now] else limiter.queue key := by
    rw [← hafter]
    exact queue_touchEntry fun requests => requests ++ [unix now]
  have htimes := @times_append limiter after kind key own (unix now) (by rw [← hafter])
  have hheld : after.reservations key = after.outstanding key := by
    rw [← hafter]
    exact h.held
  have hnow : after.clock = now := by
    rw [← hafter]
    exact hclock
  have hpast := h.past
  rw [hclock] at hpast
  by_cases hkey : own = key
  · rw [if_pos hkey] at htimes
    rw [if_pos hkey.symm, hkey] at hqueue
    refine ⟨?_, ?_, fun time hmem => ?_, hheld⟩
    · rw [hqueue, htimes]
      exact h.queue.append_right _
    · rw [htimes, List.pairwise_append]
      exact ⟨h.sorted, List.pairwise_singleton _ _, by simpa using hpast⟩
    · rw [htimes, List.mem_append, List.mem_singleton] at hmem
      rw [hnow]
      exact hmem.elim (hpast time) fun h => h.le
  · rw [if_neg hkey, List.append_nil] at htimes
    rw [if_neg (Ne.symm hkey)] at hqueue
    refine ⟨?_, ?_, ?_, hheld⟩
    · rw [hqueue, htimes]
      exact h.queue
    · rw [htimes]
      exact h.sorted
    · rw [htimes, hnow]
      exact hpast

theorem Inv.backed (inv : Inv key most duration limiter) : Backed key limiter where
  queue := by
    obtain ⟨dropped, htimes, -⟩ := inv.queue
    rw [htimes]
    exact List.sublist_append_right _ _
  sorted := inv.sorted
  past := inv.past
  held := inv.held

theorem Inv.record (inv : Inv key most duration limiter) (hclock : limiter.clock = now)
    (hroom : own = key → ∀ start, start ≤ unix now → unix now < start + duration →
      within start duration (limiter.recorded kind key) + 1 ≤ max most 0)
    (hopen : own = key → kind = .completed → 0 < duration →
      within (unix now - duration + 1) duration (limiter.recorded .completed key) + 1 +
        (limiter.outstanding key : Int) ≤ max most 0) :
    Inv key most duration
      { limiter.touchEntry own now fun requests => requests ++ [unix now] with
        log := limiter.log ++ [⟨kind, own, unix now⟩] } := by
  obtain ⟨dropped, htimes, hdropped⟩ := inv.queue
  generalize hafter : ({ limiter.touchEntry own now fun requests => requests ++ [unix now] with
    log := limiter.log ++ [⟨kind, own, unix now⟩] } : Limiter) = after
  have hnow : after.clock = limiter.clock := by rw [← hafter]; rfl
  have hqueue : after.queue key =
      if key = own then limiter.queue own ++ [unix now] else limiter.queue key := by
    rw [← hafter]
    exact queue_touchEntry fun requests => requests ++ [unix now]
  have htimes' := @times_append limiter after kind key own (unix now) (by rw [← hafter])
  have hrecorded : ∀ other, after.recorded other key =
      limiter.recorded other key ++ if kind = other ∧ own = key then [unix now] else [] := by
    intro other
    rw [← hafter]
    show ((limiter.log ++ [_]).filter _).map _ = _
    rw [List.filter_append, List.map_append]
    by_cases hkey : kind = other ∧ own = key
    · simp [hkey, Limiter.recorded]
    · rw [if_neg hkey]
      simp [hkey, Limiter.recorded]
  have hheld : after.outstanding key = limiter.outstanding key := by rw [← hafter]; rfl
  have hbacked := @Backed.record _ kind key own _ inv.backed hclock
  rw [hafter] at hbacked
  rw [hclock] at hnow hdropped
  have hwithin : ∀ other start, (within start duration (after.recorded other key) : Int) =
      within start duration (limiter.recorded other key) +
        if (kind = other ∧ own = key) ∧ start ≤ unix now ∧ unix now < start + duration then 1
        else 0 := by
    intro other start
    rw [hrecorded, within_append]
    by_cases hkey : kind = other ∧ own = key
    · rw [if_pos hkey, within_singleton]
      by_cases hin : start ≤ unix now ∧ unix now < start + duration <;> simp [hkey, hin]
    · simp [hkey, within]
  have hroom' : ∀ other start, within start duration (limiter.recorded other key) ≤ max most 0 →
      within start duration (after.recorded other key) ≤ max most 0 := by
    intro other start hle
    rw [hwithin]
    by_cases hin : (kind = other ∧ own = key) ∧ start ≤ unix now ∧ unix now < start + duration
    · obtain ⟨⟨rfl, hkey⟩, hstart, hend⟩ := hin
      have := hroom hkey start hstart hend
      rw [if_pos ⟨⟨rfl, hkey⟩, hstart, hend⟩]
      exact this
    · rw [if_neg hin]
      simpa using hle
  constructor
  · exact hbacked.sorted
  · exact hbacked.past
  · rw [hnow, hqueue, htimes']
    refine ⟨dropped, ?_, hdropped⟩
    by_cases hkey : own = key
    · rw [if_pos hkey, if_pos hkey.symm, hkey, htimes, List.append_assoc]
    · rw [if_neg hkey, if_neg (Ne.symm hkey), htimes, List.append_nil]
  · exact hbacked.held
  · exact fun start => hroom' .accepted start (inv.accepted start)
  · exact fun start => hroom' .completed start (inv.completed start)
  · intro hduration
    have hlevel := inv.level hduration
    rw [hclock] at hlevel
    rw [hnow, hheld, hwithin]
    by_cases hin : (kind = .completed ∧ own = key) ∧ unix now - duration + 1 ≤ unix now ∧
        unix now < unix now - duration + 1 + duration
    · rw [if_pos hin]
      exact hopen hin.1.2 hin.1.1 hduration
    · rw [if_neg hin]
      simpa using hlevel

theorem Inv.request (inv : Inv key most duration limiter) (hclock : limiter.clock = now)
    {maxRequestNum : Int} (huses : own = key → maxRequestNum = most ∧ window = duration) :
    Inv key most duration (limiter.request own maxRequestNum window now) := by
  have htouched : Inv key most duration
      (limiter.touchEntry own now (removeExpired (unix now) window)) := by
    refine inv.touch fun hkey => ?_
    rw [hclock, (huses hkey).2]
  unfold Limiter.request
  dsimp only
  by_cases hroom : (removeExpired (unix now) window (limiter.queue own)).length < maxRequestNum
  · rw [if_pos hroom]
    have hrecord := @Inv.record _ .accepted key own most duration now htouched hclock
      (fun hkey start hstart hend => ?_) (fun _ h => by cases h)
    · rw [touchEntry_touchEntry] at hrecord
      exact hrecord
    · obtain ⟨rfl, rfl⟩ := huses hkey
      have hle := @Inv.within_le_length _ .accepted _ _ _ inv start (by rw [hclock]; exact hend)
      rw [hclock, ← hkey] at hle
      rw [← hkey]
      show (within start window (limiter.recorded .accepted own) : Int) + 1 ≤ max maxRequestNum 0
      omega
  · rw [if_neg hroom]
    exact htouched

theorem Inv.reserve (inv : Inv key most duration limiter) (hclock : limiter.clock = now)
    (huses : own = key → maxRequests = most ∧ window = duration) :
    Inv key most duration (limiter.reserve own maxRequests window now) := by
  have htouched : Inv key most duration
      (limiter.touchEntry own now (removeExpired (unix now) window)) := by
    refine inv.touch fun hkey => ?_
    rw [hclock, (huses hkey).2]
  have hqueue : (limiter.touchEntry own now (removeExpired (unix now) window)).queue own =
      removeExpired (unix now) window (limiter.queue own) := by
    rw [queue_touchEntry, if_pos rfl]
  have hlength : own = key → unix now < unix now - duration + 1 + duration →
      within (unix now - duration + 1) duration (limiter.recorded .completed key) ≤
        ((limiter.touchEntry own now (removeExpired (unix now) window)).queue own).length := by
    intro hkey hnow
    have hle := @Inv.within_le_length _ .completed _ _ _ inv (unix now - duration + 1)
      (by rw [hclock]; exact hnow)
    rw [hclock] at hle
    rw [hqueue, (huses hkey).2, hkey]
    exact hle
  unfold Limiter.reserve
  dsimp only
  have hrecorded : ∀ kind, (limiter.touchEntry own now
      (removeExpired (unix now) window)).recorded kind key = limiter.recorded kind key :=
    fun _ => rfl
  have htouchedClock : (limiter.touchEntry own now
      (removeExpired (unix now) window)).clock = now := hclock
  generalize limiter.touchEntry own now (removeExpired (unix now) window) = touched
    at htouched hlength hrecorded htouchedClock ⊢
  by_cases hfull : (touched.queue own).length + touched.reservations own ≥ maxRequests
  · rw [if_pos hfull]
    exact htouched
  · rw [if_neg hfull]
    exact { htouched with
      held := htouched.backed.reserved.held
      level := fun hduration => by
        have hlevel := htouched.level hduration
        rw [@outstanding_reserved touched _ key own rfl]
        show (within (unix touched.clock - duration + 1) duration
          (touched.recorded .completed key) : Int) + _ ≤ _
        by_cases hkey : own = key
        · rw [if_pos hkey]
          have hheld := htouched.held
          obtain ⟨rfl, rfl⟩ := huses hkey
          subst hkey
          rw [htouchedClock] at hlevel ⊢
          have := hlength rfl (by omega)
          rw [hrecorded]
          push_cast
          omega
        · rw [if_neg hkey]
          simpa using hlevel }

theorem Inv.complete (inv : Inv key most duration limiter) (hclock : limiter.clock = now)
    (handle : Nat) (success : Bool) :
    Inv key most duration (limiter.complete handle success now) := by
  unfold Limiter.complete
  cases hhandle : limiter.handles[handle]? with
  | none => exact inv
  | some reservation =>
    obtain ⟨own, done⟩ := reservation
    cases done with
    | true => exact inv
    | false =>
      dsimp only
      have houtstanding := @outstanding_released limiter { limiter with
        reservations := Function.update limiter.reservations own (limiter.reservations own - 1)
        handles := limiter.handles.set handle ⟨own, true⟩ } key own handle hhandle rfl
      have hinv : Inv key most duration { limiter with
          reservations := Function.update limiter.reservations own (limiter.reservations own - 1)
          handles := limiter.handles.set handle ⟨own, true⟩ } := { inv with
        held := (inv.backed.released hhandle).held
        level := fun hduration => by
          have hlevel := inv.level hduration
          rw [houtstanding]
          refine le_trans ?_ hlevel
          by_cases hkey : own = key
          · rw [if_pos hkey]
            exact Int.add_le_add_left (Int.sub_le_self _ (by decide)) _
          · rw [if_neg hkey, Int.sub_zero]
            exact le_rfl }
      cases success with
      | false => exact hinv
      | true =>
        -- the place of the reservation is the place of the completed request
        refine hinv.record hclock (fun hkey start hstart hend => ?_) fun hkey _ hduration => ?_
        · have hlevel := inv.level (by omega)
          have hlast := within_le_last (@Inv.past_recorded _ .completed _ _ _ inv)
            (by rw [hclock]; exact hend)
          rw [if_pos hkey] at houtstanding
          show (within start duration (limiter.recorded .completed key) : Int) + 1 ≤ max most 0
          omega
        · have hlevel := inv.level hduration
          rw [hclock] at hlevel
          rw [houtstanding, if_pos hkey]
          show (within (unix now - duration + 1) duration (limiter.recorded .completed key) : Int) +
            1 + _ ≤ max most 0
          omega

theorem Inv.sweep (inv : Inv key most duration limiter) (hclock : limiter.clock = now)
    (htick : tick ≤ now) (hspares : Spares key duration limiter (.sweep tick now)) :
    Inv key most duration (limiter.deleteExpiredEntries tick) := by
  unfold Limiter.deleteExpiredEntries
  by_cases hnever : limiter.expirationDuration ≤ 0
  · rw [if_pos hnever]
    exact inv
  · rw [if_neg hnever]
    obtain ⟨dropped, htimes, hdropped⟩ := inv.queue
    generalize hafter : ({ limiter with
        lru := (limiter.lru.reverse.dropWhile fun entry =>
          decide (tick - entry.lastActive ≥ limiter.expirationDuration)).reverse } : Limiter) = after
    have hsplit : limiter.lru = after.lru ++ (limiter.lru.reverse.takeWhile fun entry =>
        decide (tick - entry.lastActive ≥ limiter.expirationDuration)).reverse := by
      rw [← hafter]
      dsimp only
      rw [← List.reverse_append, List.takeWhile_append_dropWhile, List.reverse_reverse]
    have hqueue : after.queue key = limiter.queue key ∨
        after.queue key = [] ∧ ∀ time ∈ limiter.queue key, duration ≤ unix now - time := by
      unfold Limiter.queue
      rw [hsplit, List.find?_append]
      cases hkept : after.lru.find? fun entry => entry.key = key with
      | some entry => exact .inl rfl
      | none =>
        rw [Option.none_or]
        cases hgone : (limiter.lru.reverse.takeWhile fun entry =>
            decide (tick - entry.lastActive ≥ limiter.expirationDuration)).reverse.find?
              fun entry => entry.key = key with
        | none => exact .inl rfl
        | some entry =>
          refine .inr ⟨rfl, ?_⟩
          have hmem := List.mem_reverse.mp (List.mem_of_find?_eq_some hgone)
          have hkey := List.find?_some hgone
          have hexpired := List.mem_takeWhile_imp hmem
          exact hspares htick entry (List.mem_reverse.mp ((List.takeWhile_sublist _).subset hmem))
            (of_decide_eq_true hkey) (by omega) (of_decide_eq_true hexpired)
    have hkept : ∃ dropped, limiter.times key = dropped ++ after.queue key ∧
        ∀ time ∈ dropped, duration ≤ unix limiter.clock - time := by
      obtain hsame | ⟨hempty, hexpired⟩ := hqueue
      · rw [hsame]
        exact inv.queue
      · rw [hempty, htimes]
        refine ⟨_, (List.append_nil _).symm, fun time hmem => ?_⟩
        obtain hmem | hmem := List.mem_append.mp hmem
        · exact hdropped time hmem
        · rw [hclock]
          exact hexpired time hmem
    subst hafter
    exact { inv with queue := hkept }

theorem Inv.step (inv : Inv key most duration limiter) {act : Act} {after : Limiter}
    (huses : act.Uses key most duration) (hspares : Spares key duration limiter act)
    (hstep : step limiter act = some after) : Inv key most duration after := by
  unfold RateLimit.step at hstep
  obtain ⟨hearly, hstep⟩ := Option.ite_none_left_eq_some.mp hstep
  have hinv : Inv key most duration { limiter with clock := act.now } :=
    inv.advance (not_lt.mp hearly)
  cases act with
  | request own maxRequestNum window now =>
    cases hstep
    exact hinv.request rfl huses
  | reserve own maxRequests window now =>
    cases hstep
    exact hinv.reserve rfl huses
  | complete handle success now =>
    cases hstep
    exact hinv.complete rfl handle success
  | sweep tick now =>
    obtain ⟨htick, ⟨⟩⟩ := Option.ite_none_right_eq_some.mp hstep
    exact hinv.sweep rfl htick hspares

theorem inv_init (expirationDuration clock : Int) :
    Inv key most duration (Limiter.init expirationDuration clock) where
  sorted := .nil
  past := fun _ h => by cases h
  queue := ⟨[], rfl, fun _ h => by cases h⟩
  held := rfl
  accepted := fun _ => le_max_right _ _
  completed := fun _ => le_max_right _ _
  level := fun _ => le_max_right _ _

end Invariant

/-! ### Runs -/

section Runs

variable {key : String} {most duration expirationDuration clock : Int} {acts : List Act}
  {limiter : Limiter}

/-- In a run that uses a key with one maximum and one window, and whose sweeps spare its entry until
the window is over, no window holds more than the maximum. -/
theorem bounded_of_spares (huses : ∀ act ∈ acts, act.Uses key most duration)
    (hspares : Machine.Meets step (Spares key duration) (.init expirationDuration clock) acts)
    (hrun : Machine.run step (.init expirationDuration clock) acts = some limiter) :
    limiter.Bounded key most duration := by
  have hinv : ∀ (acts : List Act) (start : Limiter), (∀ act ∈ acts, act.Uses key most duration) →
      Inv key most duration start → Machine.Meets step (Spares key duration) start acts →
      Machine.run step start acts = some limiter → Inv key most duration limiter := by
    intro acts
    induction acts with
    | nil =>
      intro start _ hinv _ hrun
      cases hrun
      exact hinv
    | cons act rest ih =>
      intro start huses hinv hspares hrun
      obtain ⟨next, hnext, hrest⟩ := Machine.run_cons step hrun
      exact ih next (fun other hother => huses other (List.mem_cons_of_mem _ hother))
        (hinv.step (huses act List.mem_cons_self) hspares.1 hnext) (hspares.2 next hnext) hrest
  exact (hinv acts _ huses (inv_init _ _) hspares hrun).bounded

/-- One request an hour, with the idle-expiry period of the other limiters: 20 minutes. -/
def hourly (now : Int) : Act := .request "MRRL1" 1 3600 (now * 1000000000)

theorem bounded_of_spares_hourly :
    ∃ limiter, Machine.run step (.init 1200000000000 0) [hourly 0, hourly 10] = some limiter ∧
      limiter.Bounded "MRRL1" 1 3600 := by
  refine ⟨_, rfl, ?_⟩
  refine @bounded_of_spares "MRRL1" 1 3600 1200000000000 0 [hourly 0, hourly 10] _ ?_ ?_ rfl
  · intro act hact
    obtain rfl | rfl := List.mem_pair.mp hact <;> exact fun _ => ⟨rfl, rfl⟩
  · exact ⟨trivial, fun _ _ => ⟨trivial, fun _ _ => trivial⟩⟩

/-- After 40 idle minutes the key is gone, and a second request of the hour is accepted. -/
theorem swept_not_bounded :
    ∃ limiter, Machine.run step (.init 1200000000000 0)
        [hourly 0, .sweep 2400000000000 2400000000000, hourly 2460] = some limiter ∧
      ¬ limiter.Bounded "MRRL1" 1 3600 := by
  refine ⟨_, rfl, fun h => ?_⟩
  have hwindow := (h 0).1
  revert hwindow
  decide

end Runs

/-! ### A long idle-expiry period -/

section Long

variable {limiter after : Limiter} {key : String} {duration expirationDuration clock now : Int}
  {act : Act} {acts : List Act}

/-- No request of an entry is later than its last use. -/
structure Active (expirationDuration : Int) (limiter : Limiter) : Prop where
  period : limiter.expirationDuration = expirationDuration
  used : ∀ entry ∈ limiter.lru, entry.lastActive ≤ limiter.clock ∧
    ∀ timestamp ∈ entry.requests, timestamp ≤ unix entry.lastActive

theorem removeExpired_sublist {now duration : Int} {requests : List Int} :
    (removeExpired now duration requests).Sublist requests := by
  unfold removeExpired
  cases requests.head? with
  | none => exact List.Sublist.refl _
  | some head =>
    cases requests.getLast? with
    | none => exact List.Sublist.refl _
    | some tail =>
      dsimp only
      split_ifs
      · exact List.Sublist.refl _
      · exact List.nil_sublist _
      · exact List.dropWhile_sublist _

theorem Active.touch (h : Active expirationDuration limiter) (own : String)
    {update : List Int → List Int}
    (hupdate : ∀ requests, (∀ timestamp ∈ requests, timestamp ≤ unix limiter.clock) →
      ∀ timestamp ∈ update requests, timestamp ≤ unix limiter.clock) :
    Active expirationDuration (limiter.touchEntry own limiter.clock update) := by
  refine ⟨h.period, fun entry hentry => ?_⟩
  obtain rfl | hentry := List.mem_cons.mp hentry
  · refine ⟨le_refl _, hupdate _ fun timestamp hmem => ?_⟩
    unfold Limiter.queue at hmem
    cases hfind : limiter.lru.find? fun entry => entry.key = own with
    | none =>
      rw [hfind] at hmem
      cases hmem
    | some entry =>
      rw [hfind] at hmem
      obtain ⟨hactive, htimes⟩ := h.used entry (List.mem_of_find?_eq_some hfind)
      exact (htimes timestamp hmem).trans (unix_mono hactive)
  · exact h.used entry (List.mem_of_mem_filter hentry)

theorem Active.step (h : Active expirationDuration limiter) (hstep : step limiter act = some after) :
    Active expirationDuration after := by
  unfold RateLimit.step at hstep
  obtain ⟨hearly, hstep⟩ := Option.ite_none_left_eq_some.mp hstep
  have hadvanced : Active expirationDuration { limiter with clock := act.now } :=
    ⟨h.period, fun entry hentry =>
      ⟨(h.used entry hentry).1.trans (not_lt.mp hearly), (h.used entry hentry).2⟩⟩
  have hremoved : ∀ (now window : Int) (requests : List Int),
      (∀ timestamp ∈ requests, timestamp ≤ unix now) →
      ∀ timestamp ∈ removeExpired (unix now) window requests, timestamp ≤ unix now :=
    fun _ _ _ h timestamp hmem => h timestamp (removeExpired_sublist.subset hmem)
  have happended : ∀ (now : Int) (requests : List Int),
      (∀ timestamp ∈ requests, timestamp ≤ unix now) →
      ∀ timestamp ∈ requests ++ [unix now], timestamp ≤ unix now := by
    intro now requests h timestamp hmem
    obtain hmem | hmem := List.mem_append.mp hmem
    · exact h timestamp hmem
    · rw [List.mem_singleton.mp hmem]
  cases act with
  | request own maxRequestNum window now =>
    cases hstep
    unfold Limiter.request
    dsimp only
    split_ifs
    · have htouched := hadvanced.touch own fun requests h =>
        happended now _ (hremoved now window requests h)
      exact ⟨htouched.period, htouched.used⟩
    · exact hadvanced.touch own (hremoved now window)
  | reserve own maxRequests window now =>
    cases hstep
    unfold Limiter.reserve
    dsimp only
    have htouched := hadvanced.touch own (hremoved now window)
    split_ifs
    · exact htouched
    · exact ⟨htouched.period, htouched.used⟩
  | complete handle success now =>
    cases hstep
    unfold Limiter.complete
    dsimp only
    split
    · rename_i own _
      split_ifs
      · have htouched := hadvanced.touch own (happended now)
        exact ⟨htouched.period, htouched.used⟩
      · exact ⟨hadvanced.period, hadvanced.used⟩
    · exact hadvanced
  | sweep tick now =>
    dsimp only at hstep
    split_ifs at hstep
    cases hstep
    unfold Limiter.deleteExpiredEntries
    split_ifs
    · exact hadvanced
    · refine ⟨hadvanced.period, fun entry hentry => hadvanced.used entry ?_⟩
      exact List.mem_reverse.mp
        ((List.dropWhile_sublist _).subset (List.mem_reverse.mp hentry))

theorem spares_of_long (hlong : expirationDuration ≤ 0 ∨ duration * 1000000000 ≤ expirationDuration)
    (acts : List Act) :
    Machine.Meets step (Spares key duration) (.init expirationDuration clock) acts := by
  refine Machine.meets_of_invariant (Active expirationDuration) (fun s a t h _ hstep => h.step hstep)
    (fun limiter act h _ => ?_) acts _ ⟨rfl, fun _ h => by cases h⟩ (Machine.meets_true acts _)
  cases act with
  | sweep tick now =>
    intro htick entry hentry _ hperiod hexpired timestamp hmem
    have hused := (h.used entry hentry).2 timestamp hmem
    have hduration : duration * 1000000000 ≤ expirationDuration := by
      obtain hnever | hlong := hlong
      · exact absurd hperiod (by rw [h.period]; omega)
      · exact hlong
    rw [h.period] at hexpired
    unfold unix at hused ⊢
    omega
  | request own maxRequestNum window now => trivial
  | reserve own maxRequests window now => trivial
  | complete handle success now => trivial

/-- With an hour of idle expiry the sweep between two requests of the hour spares the key. -/
theorem spares_of_long_hourly : Machine.Meets step (Spares "MRRL1" 3600) (.init 3600000000000 0)
    [hourly 0, .sweep 2400000000000 2400000000000, hourly 2460] :=
  spares_of_long (.inr (by decide)) _

end Long

/-! ### Rejections -/

section Rejected

variable {limiter after : Limiter} {key own : String} {duration expirationDuration clock now : Int}
  {kind : Kind} {act : Act} {acts : List Act}

theorem Backed.touch (h : Backed key limiter) {update : List Int → List Int}
    (hupdate : ∀ requests, (update requests).Sublist requests) :
    Backed key (limiter.touchEntry own now update) where
  queue := by
    rw [queue_touchEntry]
    by_cases hkey : key = own
    · rw [if_pos hkey, ← hkey]
      exact (hupdate _).trans h.queue
    · rw [if_neg hkey]
      exact h.queue
  sorted := h.sorted
  past := h.past
  held := h.held

theorem queue_of_front {kept : List Entry} (h : kept <+: limiter.lru) :
    (({ limiter with lru := kept } : Limiter).queue key).Sublist (limiter.queue key) := by
  obtain ⟨gone, hgone⟩ := h
  unfold Limiter.queue
  dsimp only
  rw [← hgone, List.find?_append]
  cases kept.find? fun entry : Entry => entry.key = key with
  | some entry => exact List.Sublist.refl _
  | none => exact List.nil_sublist _

theorem Backed.sweep (h : Backed key limiter) : Backed key (limiter.deleteExpiredEntries tick) := by
  unfold Limiter.deleteExpiredEntries
  split_ifs
  · exact h
  refine ⟨(queue_of_front ?_).trans h.queue, h.sorted, h.past, h.held⟩
  simpa using List.reverse_prefix.mpr (List.dropWhile_suffix (fun entry : Entry =>
    decide (tick - entry.lastActive ≥ limiter.expirationDuration)) (l := limiter.lru.reverse))

theorem Backed.reserve (h : Backed key limiter) :
    Backed key (limiter.reserve own maxRequests window now) := by
  have htouched : Backed key (limiter.touchEntry own now (removeExpired (unix now) window)) :=
    h.touch fun _ => removeExpired_sublist
  unfold Limiter.reserve
  dsimp only
  split_ifs
  · exact htouched
  exact htouched.reserved

theorem Backed.complete (h : Backed key limiter) (hclock : limiter.clock = now) (handle : Nat)
    (success : Bool) : Backed key (limiter.complete handle success now) := by
  unfold Limiter.complete
  cases hhandle : limiter.handles[handle]? with
  | none => exact h
  | some reservation =>
    obtain ⟨own, done⟩ := reservation
    cases done with
    | true => exact h
    | false =>
      have hreleased := h.released hhandle
      cases success with
      | false => exact hreleased
      | true => exact hreleased.record hclock

theorem Backed.step (h : Backed key limiter) (hstep : step limiter act = some after) :
    Backed key after := by
  unfold RateLimit.step at hstep
  obtain ⟨hearly, hstep⟩ := Option.ite_none_left_eq_some.mp hstep
  have hadvanced : Backed key { limiter with clock := act.now } :=
    ⟨h.queue, h.sorted, fun time hmem => (h.past time hmem).trans (unix_mono (not_lt.mp hearly)),
      h.held⟩
  cases act with
  | request own maxRequestNum window now =>
    cases hstep
    have htouched := @Backed.touch _ key own now hadvanced (removeExpired (unix now) window)
      fun _ => removeExpired_sublist
    unfold Limiter.request
    dsimp only
    split_ifs
    · have hrecord := @Backed.record _ .accepted key own now htouched rfl
      rw [touchEntry_touchEntry] at hrecord
      exact hrecord
    · exact htouched
  | reserve own maxRequests window now =>
    cases hstep
    exact hadvanced.reserve
  | complete handle success now =>
    cases hstep
    exact hadvanced.complete rfl handle success
  | sweep tick now =>
    dsimp only at hstep
    split_ifs at hstep
    cases hstep
    exact hadvanced.sweep

theorem Backed.length_le_within (h : Backed key limiter) (hnow : limiter.clock ≤ now) :
    (removeExpired (unix now) duration (limiter.queue key)).length ≤
      within (unix now - duration + 1) duration (limiter.times key) := by
  have hsublist := (@removeExpired_sublist (unix now) duration _).trans h.queue
  obtain ⟨-, -, -, hfresh⟩ :=
    @removeExpired_spec (unix now) duration _ (h.sorted.sublist h.queue)
  rw [← List.countP_eq_length.mpr fun time hmem => ?_]
  · exact hsublist.countP_le
  · have hpast := (h.past time (hsublist.subset hmem)).trans (unix_mono hnow)
    have := hfresh time hmem
    simp only [Bool.and_eq_true, decide_eq_true_eq]
    omega

/-- **Nothing is rejected without need**: whatever was called before, a rejected request finds as
many requests in the window that ends with it as its maximum allows, and a rejected reservation
finds them together with the reservations that are not completed. -/
theorem rejected_of_full
    (hrun : Machine.run step (.init expirationDuration clock) acts = some limiter)
    (hnow : limiter.clock ≤ now) (most : Int) :
    ((limiter.request key most duration now).log = limiter.log →
      most ≤ within (unix now - duration + 1) duration (limiter.times key)) ∧
    ((limiter.reserve key most duration now).handles = limiter.handles →
      most ≤ within (unix now - duration + 1) duration (limiter.times key) +
        limiter.outstanding key) := by
  have h : Backed key limiter := Machine.run_preserves (Backed key) (fun _ _ _ h => h.step)
    ⟨List.Sublist.refl _, .nil, List.forall_mem_nil _, rfl⟩ hrun
  have hlength := @Backed.length_le_within _ key duration now h hnow
  constructor
  · intro hrejected
    unfold Limiter.request at hrejected
    dsimp only at hrejected
    split_ifs at hrejected with hroom
    · exact absurd hrejected (by simp)
    · omega
  · intro hrejected
    unfold Limiter.reserve at hrejected
    dsimp only at hrejected
    rw [queue_touchEntry, if_pos rfl] at hrejected
    have hheld := h.held
    split_ifs at hrejected with hfull
    · have : (limiter.touchEntry key now (removeExpired (unix now) duration)).reservations key =
        limiter.reservations key := rfl
      omega
    · exact absurd hrejected (by simp [Limiter.touchEntry])

theorem rejected_of_full_hourly : ∃ limiter, Machine.run step (.init 1200000000000 0)
    [hourly 0] = some limiter ∧
      (1 : Int) ≤ within (unix 10000000000 - 3600 + 1) 3600 (limiter.times "MRRL1") :=
  ⟨_, rfl, (@rejected_of_full _ "MRRL1" 3600 1200000000000 0 10000000000 [hourly 0] rfl
    (by decide) 1).1 rfl⟩

end Rejected

end JulongApi.RateLimit

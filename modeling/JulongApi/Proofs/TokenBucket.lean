/-
The token bucket admits no more than it holds and gains, and rejects no request without need.

Two facts are carried along a run.  What is stored is what was in the bucket when it was last full
and what came to it, without what was admitted since; and what was admitted since any time, together
with what is stored, is at most what a full bucket holds and what came since that time.
-/
import JulongApi.TokenBucket

namespace JulongApi.TokenBucket

theorem seconds_mono {earlier later : Int} (h : earlier ≤ later) :
    seconds earlier ≤ seconds later :=
  Int.ediv_le_ediv (by decide) h

theorem seconds_add (time length : Int) :
    seconds (time + length * 1000000) = seconds time + length :=
  Int.add_mul_ediv_right time length (by decide)

/-! ### The parameters -/

/-- A bucket that can be filled, and holds a request when it is full. -/
structure Config.Fits (config : Config) : Prop where
  requested_pos : 0 < config.requested
  requested_le : config.requested ≤ config.capacity
  rate_nonneg : 0 ≤ config.rate

theorem rateLimitDurationSeconds_pos {durationMinutes : Int} (h : 0 < durationMinutes) :
    0 < rateLimitDurationSeconds durationMinutes ∧
      rateLimitDurationSeconds durationMinutes ≤ maxInt64 := by
  unfold rateLimitDurationSeconds
  rw [if_neg (by omega)]
  split <;> simp only [maxInt64] at * <;> omega

theorem le_rateLimitCapacity {count durationSeconds : Int} (hcount : 0 < count)
    (hduration : 0 < durationSeconds) (hmax : durationSeconds ≤ maxInt64) :
    durationSeconds ≤ rateLimitCapacity count durationSeconds := by
  unfold rateLimitCapacity
  rw [if_neg (by omega)]
  split
  · exact hmax
  · exact le_mul_of_one_le_left hduration.le hcount

theorem totalLimit_fits {durationMinutes totalMaxCount : Int} {config : Config}
    (hduration : 0 < durationMinutes)
    (h : totalLimit durationMinutes totalMaxCount = some config) : config.Fits := by
  unfold totalLimit at h
  by_cases hcount : totalMaxCount > 0
  · obtain ⟨hpos, hmax⟩ := rateLimitDurationSeconds_pos hduration
    simp only [if_pos hcount, Option.some.injEq] at h
    rw [← h]
    exact ⟨hpos, le_rateLimitCapacity hcount hpos hmax, hcount.le⟩
  · simp [hcount] at h

/-! ### One execution -/

section Execute

variable {config : Config} {bucket : Option Bucket} {time : Int}

theorem admitted_nil : config.admitted [] = 0 := rfl

theorem admitted_cons (execution : Execution) (log : List Execution) :
    config.admitted (execution :: log) = config.cost execution + config.admitted log := by
  rw [Config.admitted, List.map_cons, List.sum_cons, Config.admitted]

theorem execute_tokens_le : (config.execute bucket time).tokens ≤ config.capacity := by
  cases bucket with
  | none => exact le_refl _
  | some bucket => exact min_le_left _ _

theorem execute_stored : (config.execute bucket time).bucket.tokens
    + config.cost (config.execute bucket time) = (config.execute bucket time).tokens := by
  unfold Config.cost
  by_cases hallowed : config.refilled bucket (seconds time) ≥ config.requested
  · simp [Config.execute, hallowed]
  · simp [Config.execute, hallowed]

theorem cost_nonneg (hfits : config.Fits) (execution : Execution) : 0 ≤ config.cost execution := by
  unfold Config.cost
  split
  · exact hfits.requested_pos.le
  · exact le_refl _

theorem execute_stored_nonneg (h : 0 ≤ (config.execute bucket time).tokens) :
    0 ≤ (config.execute bucket time).bucket.tokens := by
  have hstored : (config.execute bucket time).bucket.tokens
      = if (config.execute bucket time).tokens ≥ config.requested then
          (config.execute bucket time).tokens - config.requested
        else (config.execute bucket time).tokens := by
    simp [Config.execute]
  rw [hstored]
  split <;> omega

theorem execute_rejected (h : (config.execute bucket time).allowed = false) :
    (config.execute bucket time).tokens < config.requested := by
  have hallowed : (config.execute bucket time).allowed
      = decide ((config.execute bucket time).tokens ≥ config.requested) := rfl
  rw [hallowed, decide_eq_false_iff_not] at h
  omega

theorem execute_refilled (bucket : Bucket) : (config.execute (some bucket) time).tokens
    = min config.capacity
        (bucket.tokens + (seconds time - bucket.lastTime) * config.rate) := rfl

end Execute

/-! ### The invariant -/

/-- What is stored comes from the last time that the bucket was full. -/
def Config.SinceFull (config : Config) (log : List Execution) (bucket : Bucket) : Prop :=
  ∃ since full rest, log = since ++ full :: rest ∧
    full.tokens = config.capacity ∧ (∀ execution ∈ since, execution.tokens ≠ config.capacity) ∧
    bucket.tokens = config.capacity + config.rate * (bucket.lastTime - seconds full.time)
      - config.admitted (since ++ [full])

/-- What was admitted from a time on, and what is stored. -/
def Config.Potential (config : Config) (s : State) (bucket : Bucket) : Prop :=
  ∀ start ≤ s.clock,
    config.admitted (s.log.filter fun execution => start ≤ execution.time) + bucket.tokens
      ≤ config.capacity + config.rate * (bucket.lastTime - seconds start)

structure Config.Holds (config : Config) (s : State) (bucket : Bucket) : Prop where
  tokens_nonneg : 0 ≤ bucket.tokens
  lastTime : bucket.lastTime = seconds s.clock
  sinceFull : config.SinceFull s.log bucket
  potential : config.Potential s bucket

structure Config.Inv (config : Config) (s : State) : Prop where
  past : ∀ execution ∈ s.log, execution.time ≤ s.clock
  empty : s.bucket = none → s.log = []
  holds : ∀ bucket, s.bucket = some bucket → config.Holds s bucket
  limited : config.Limited s.log

section Step

variable {config : Config} {s : State} {time : Int}

theorem limited_nil (hfits : config.Fits) : config.Limited [] where
  stored := by simp
  bounded := by
    intro start length hlength
    have hgained := mul_nonneg hfits.rate_nonneg hlength
    have hcapacity := hfits.requested_pos.le.trans hfits.requested_le
    show (0 : Int) ≤ _
    omega
  justified := by simp

theorem inv_start (hfits : config.Fits) (clock : Int) : config.Inv (State.start clock) where
  past := by simp [State.start]
  empty := fun _ => rfl
  holds := by simp [State.start]
  limited := limited_nil hfits

theorem Config.Inv.refill_cases (hinv : config.Inv s) :
    (s.bucket = none ∧ s.log = [] ∧ (config.execute s.bucket time).tokens = config.capacity) ∨
      ∃ bucket, s.bucket = some bucket ∧ config.Holds s bucket ∧
        (config.execute s.bucket time).tokens = min config.capacity
          (bucket.tokens + config.rate * (seconds time - seconds s.clock)) := by
  cases hbucket : s.bucket with
  | none => exact .inl ⟨rfl, hinv.empty hbucket, rfl⟩
  | some bucket =>
    have h := hinv.holds bucket hbucket
    refine .inr ⟨bucket, rfl, h, ?_⟩
    rw [execute_refilled, h.lastTime, mul_comm]

theorem Config.Inv.tokens_nonneg (hfits : config.Fits) (hinv : config.Inv s)
    (htime : s.clock ≤ time) : 0 ≤ (config.execute s.bucket time).tokens := by
  have hcapacity := hfits.requested_pos.le.trans hfits.requested_le
  rcases @Config.Inv.refill_cases config s time hinv with ⟨-, -, htokens⟩ | ⟨bucket, -, h, htokens⟩
  · omega
  · have hgained := mul_nonneg hfits.rate_nonneg (sub_nonneg.mpr (seconds_mono htime))
    have hstored := h.tokens_nonneg
    rw [htokens]
    omega

theorem Config.Inv.tokens_sinceFull (hinv : config.Inv s) :
    (config.execute s.bucket time).tokens = config.capacity ∨
      ((config.execute s.bucket time).tokens ≠ config.capacity ∧
        config.SinceFull s.log ⟨(config.execute s.bucket time).tokens, seconds time⟩) := by
  by_cases hfull : (config.execute s.bucket time).tokens = config.capacity
  · exact .inl hfull
  · refine .inr ⟨hfull, ?_⟩
    rcases @Config.Inv.refill_cases config s time hinv with ⟨-, -, htokens⟩ | ⟨bucket, -, h, htokens⟩
    · exact absurd htokens hfull
    · obtain ⟨since, full, rest, hlog, hcapacity, hsince, hstored⟩ := h.sinceFull
      refine ⟨since, full, rest, hlog, hcapacity, hsince, ?_⟩
      have hbelow : (config.execute s.bucket time).tokens
          = bucket.tokens + config.rate * (seconds time - seconds s.clock) := by omega
      show (config.execute s.bucket time).tokens = _
      rw [hbelow, hstored, h.lastTime]
      linarith [mul_add config.rate (seconds time - seconds s.clock)
        (seconds s.clock - seconds full.time)]

theorem Config.Inv.sinceFull_step (hinv : config.Inv s) :
    config.SinceFull (config.execute s.bucket time :: s.log)
      (config.execute s.bucket time).bucket := by
  have hstored : (config.execute s.bucket time).bucket.tokens
      + config.cost (config.execute s.bucket time) = (config.execute s.bucket time).tokens :=
    execute_stored
  have htime : (config.execute s.bucket time).bucket.lastTime = seconds time := rfl
  rcases @Config.Inv.tokens_sinceFull config s time hinv with hfull | ⟨hbelow, hsinceFull⟩
  · refine ⟨[], config.execute s.bucket time, s.log, rfl, hfull, by simp, ?_⟩
    have hself : seconds (config.execute s.bucket time).time = seconds time := rfl
    rw [List.nil_append, admitted_cons, admitted_nil, htime, hself, sub_self, mul_zero]
    omega
  · obtain ⟨since, full, rest, hlog, hcapacity, hsince, htokens⟩ := hsinceFull
    refine ⟨config.execute s.bucket time :: since, full, rest, by rw [hlog]; rfl, hcapacity, ?_, ?_⟩
    · intro execution hexecution
      rcases List.mem_cons.mp hexecution with rfl | hmem
      · exact hbelow
      · exact hsince execution hmem
    · rw [List.cons_append, admitted_cons, htime]
      have htokens : (config.execute s.bucket time).tokens
          = config.capacity + config.rate * (seconds time - seconds full.time)
            - config.admitted (since ++ [full]) := htokens
      omega

theorem Config.Inv.tokens_potential (hfits : config.Fits) (hinv : config.Inv s)
    {start : Int} (hstart : start ≤ time) :
    config.admitted (s.log.filter fun execution => start ≤ execution.time)
        + (config.execute s.bucket time).tokens
      ≤ config.capacity + config.rate * (seconds time - seconds start) := by
  by_cases hclock : start ≤ s.clock
  · rcases @Config.Inv.refill_cases config s time hinv with ⟨-, hlog, -⟩ | ⟨bucket, -, h, htokens⟩
    · have hgained := mul_nonneg hfits.rate_nonneg (sub_nonneg.mpr (seconds_mono hstart))
      have hcapacity := @execute_tokens_le config s.bucket time
      rw [hlog, List.filter_nil, admitted_nil]
      omega
    · have hbefore := h.potential start hclock
      rw [h.lastTime] at hbefore
      have hmin : (config.execute s.bucket time).tokens
          ≤ bucket.tokens + config.rate * (seconds time - seconds s.clock) := by omega
      linarith [mul_add config.rate (seconds time - seconds s.clock)
        (seconds s.clock - seconds start)]
  · have hnone : (s.log.filter fun execution => start ≤ execution.time) = [] := by
      rw [List.filter_eq_nil_iff]
      intro execution hexecution
      have hpast := hinv.past execution hexecution
      simp only [decide_eq_true_eq]
      omega
    have hgained := mul_nonneg hfits.rate_nonneg (sub_nonneg.mpr (seconds_mono hstart))
    have hcapacity := @execute_tokens_le config s.bucket time
    rw [hnone, admitted_nil]
    omega

theorem Config.Inv.potential_step (hfits : config.Fits) (hinv : config.Inv s)
    {start : Int} (hstart : start ≤ time) :
    config.admitted ((config.execute s.bucket time :: s.log).filter
        fun execution => start ≤ execution.time) + (config.execute s.bucket time).bucket.tokens
      ≤ config.capacity + config.rate * (seconds time - seconds start) := by
  have hkept : decide (start ≤ (config.execute s.bucket time).time) = true := decide_eq_true hstart
  have hstored := @execute_stored config s.bucket time
  have hbefore := hinv.tokens_potential hfits hstart
  have hfilter : (config.execute s.bucket time :: s.log).filter
        (fun execution => start ≤ execution.time)
      = config.execute s.bucket time :: s.log.filter fun execution => start ≤ execution.time :=
    List.filter_cons_of_pos hkept
  rw [hfilter, admitted_cons]
  omega

/-! ### What is promised -/

theorem Config.Inv.bounded_step (hfits : config.Fits) (hinv : config.Inv s)
    (htime : s.clock ≤ time) (start length : Int) (hlength : 0 ≤ length) :
    config.admitted (inInterval start length (config.execute s.bucket time :: s.log))
      ≤ config.capacity + config.rate * length := by
  by_cases hinside : start ≤ time ∧ time ≤ start + length * 1000000
  · have hall : inInterval start length (config.execute s.bucket time :: s.log)
        = (config.execute s.bucket time :: s.log).filter
            fun execution => start ≤ execution.time := by
      refine List.filter_congr fun execution hexecution => ?_
      have hpast : execution.time ≤ time := by
        rcases List.mem_cons.mp hexecution with rfl | hmem
        · exact le_refl _
        · exact (hinv.past execution hmem).trans htime
      have hend : execution.time ≤ start + length * 1000000 := hpast.trans hinside.2
      simp [hend]
    have hpotential := hinv.potential_step hfits hinside.1
    have hstored := execute_stored_nonneg (hinv.tokens_nonneg hfits htime)
    have hseconds := seconds_mono hinside.2
    rw [seconds_add] at hseconds
    have hgained : config.rate * (seconds time - seconds start) ≤ config.rate * length :=
      mul_le_mul_of_nonneg_left (by omega) hfits.rate_nonneg
    rw [hall]
    omega
  · have hskip : inInterval start length (config.execute s.bucket time :: s.log)
        = inInterval start length s.log := by
      refine List.filter_cons_of_neg ?_
      rw [Bool.and_eq_true, decide_eq_true_eq, decide_eq_true_eq]
      exact hinside
    rw [hskip]
    exact hinv.limited.bounded start length hlength

theorem Config.Inv.justified_step (hfits : config.Fits) (hinv : config.Inv s)
    (hrejected : (config.execute s.bucket time).allowed = false) :
    config.Justified (config.execute s.bucket time) s.log := by
  have hwant := execute_rejected hrejected
  have hrequested := hfits.requested_le
  rcases @Config.Inv.tokens_sinceFull config s time hinv with hfull | ⟨-, hsinceFull⟩
  · omega
  · obtain ⟨since, full, rest, hlog, hcapacity, hsince, htokens⟩ := hsinceFull
    refine ⟨since, full, rest, hlog, hcapacity, hsince, ?_⟩
    exact htokens.symm.trans_lt hwant

theorem Config.Inv.limited_step (hfits : config.Fits) (hinv : config.Inv s)
    (htime : s.clock ≤ time) : config.Limited (config.execute s.bucket time :: s.log) where
  stored := by
    intro execution hexecution
    rcases List.mem_cons.mp hexecution with rfl | hmem
    · have hstored := @execute_stored config s.bucket time
      have hcost := cost_nonneg hfits (config.execute s.bucket time)
      have hcapacity := @execute_tokens_le config s.bucket time
      exact ⟨execute_stored_nonneg (hinv.tokens_nonneg hfits htime), by omega⟩
    · exact hinv.limited.stored execution hmem
  bounded := hinv.bounded_step hfits htime
  justified := by
    intro newer rejected older hlog hrejected
    cases newer with
    | nil =>
      obtain ⟨rfl, rfl⟩ := List.cons.inj hlog
      exact hinv.justified_step hfits hrejected
    | cons _ newer =>
      exact hinv.limited.justified newer rejected older (List.cons.inj hlog).2 hrejected

theorem Config.Inv.step (hfits : config.Fits) (hinv : config.Inv s) {t : State}
    (hstep : TokenBucket.step config s time = some t) : config.Inv t := by
  unfold TokenBucket.step at hstep
  by_cases hlate : time < s.clock
  · simp [hlate] at hstep
  · rw [if_neg hlate] at hstep
    have htime : s.clock ≤ time := by omega
    cases hstep
    refine ⟨?_, ?_, ?_, hinv.limited_step hfits htime⟩
    · intro execution hexecution
      rcases List.mem_cons.mp hexecution with rfl | hmem
      · exact le_refl _
      · exact (hinv.past execution hmem).trans htime
    · intro hnone
      cases hnone
    · intro bucket hbucket
      cases hbucket
      exact ⟨execute_stored_nonneg (hinv.tokens_nonneg hfits htime), rfl, hinv.sinceFull_step,
        fun start hstart => hinv.potential_step hfits hstart⟩

end Step

/-- **The bucket keeps to its capacity, admits in no interval more than a full bucket and what comes
to it, and rejects for want of tokens only.** -/
theorem bucket_limited {durationMinutes totalMaxCount : Int} {config : Config}
    (hduration : 0 < durationMinutes)
    (hconfig : totalLimit durationMinutes totalMaxCount = some config) {clock : Int}
    {times : List Int} {s : State}
    (hrun : Machine.run (step config) (State.start clock) times = some s) :
    config.Limited s.log := by
  have hfits := totalLimit_fits hduration hconfig
  have hstep : ∀ (s : State) (time : Int) (t : State), config.Inv s →
      TokenBucket.step config s time = some t → config.Inv t :=
    fun s time t hinv hstep => hinv.step hfits hstep
  exact (Machine.run_preserves config.Inv hstep (inv_start hfits clock) hrun).limited

def onePerMinute : Config := { capacity := 60, rate := 1, requested := 60 }

/-- A request, one half a minute later that is rejected, and one after a minute. -/
def threeRequests : List Execution :=
  [⟨60000000, 60, true, ⟨0, 60⟩⟩, ⟨30000000, 30, false, ⟨30, 30⟩⟩, ⟨0, 60, true, ⟨0, 0⟩⟩]

theorem bucket_limited_sample : onePerMinute.Limited threeRequests := by
  have hconfig : totalLimit 1 1 = some onePerMinute := by decide
  have hrun : Machine.run (step onePerMinute) (State.start 0) [0, 30000000, 60000000]
      = some ⟨60000000, some ⟨0, 60⟩, threeRequests⟩ := by decide
  exact bucket_limited (by decide) hconfig hrun

end JulongApi.TokenBucket

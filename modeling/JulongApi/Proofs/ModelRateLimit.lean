/-
The limit on successful requests holds as long as no request passes for which there is no room.

While other requests are under way, there has to be room in fact; a request alone is told so by the
list (`Inv.room_of_short`, `Inv.room_of_old`), for what is no longer on the list is either out of
the window or older than as many entries as the limit allows (`Inv.kept`).
-/
import JulongApi.ModelRateLimit
import JulongApi.Lib.Parties

namespace JulongApi.ModelRateLimit

variable {limits : Limits} {s : State} {i : Nat} {old new : Request}

/-! ### Windows -/

theorem Limits.Fits.expiration (h : limits.Fits) :
    limits.expiration = limits.durationMinutes * 60 * 1000 := by
  have hshort : ¬(0 < limits.durationMinutes * 60000000000 ∧
      limits.durationMinutes * 60000000000 < 1000000000) := by omega
  have hseconds : limits.durationMinutes * 60000000000 =
      limits.durationMinutes * 60 * 1000000000 := by ring
  unfold Limits.expiration
  dsimp only
  rw [wrapInt64_eq h, if_neg hshort, hseconds, Int.mul_tdiv_cancel _ (by decide)]

theorem Limits.Fits.window (h : limits.Fits) :
    limits.window = if limits.expiration ≤ 0 then 0 else limits.expiration := by
  have hmax : ¬limits.durationMinutes > TokenBucket.maxInt64 / 60 := by
    have hfits := h.2
    simp only [TokenBucket.maxInt64]
    omega
  rw [h.expiration]
  unfold Limits.window Limits.duration TokenBucket.rateLimitDurationSeconds
  by_cases hpos : limits.durationMinutes ≤ 0
  · rw [if_pos hpos, if_pos (by omega), Int.zero_mul]
  · rw [if_neg hpos, if_neg hmax, if_neg (by omega)]

theorem old_of_not_reached {oldTime nowTime : Int} (hle : oldTime ≤ nowTime)
    (h : ¬limits.reached oldTime nowTime) : oldTime + limits.window ≤ nowTime := by
  unfold Limits.reached at h
  rw [Int.tdiv_eq_ediv_of_nonneg (by omega)] at h
  unfold Limits.window
  omega

theorem within_cons (window time stamp : Int) (log : List Int) :
    within window time (stamp :: log) =
      within window time log + if time - window < stamp ∧ stamp ≤ time then 1 else 0 := by
  unfold within
  rw [List.countP_cons]
  simp only [decide_eq_true_eq]

variable {time clock : Int} {request : Request} {t : State}

theorem within_le_recent {window : Int} {log : List Int} (hle : clock ≤ time) :
    within window time log ≤ log.countP fun stamp => clock - window < stamp := by
  refine List.countP_mono_left fun stamp _ hin => ?_
  rw [decide_eq_true_eq] at hin ⊢
  omega

theorem countP_old {window : Int} {rest : List Int} (h : ∀ stamp ∈ rest, stamp + window ≤ clock) :
    (rest.countP fun stamp => clock - window < stamp) = 0 := by
  rw [List.countP_eq_zero]
  intro stamp hmem
  have hold := h stamp hmem
  rw [decide_eq_true_eq]
  omega

/-! ### The invariant -/

/-- What is known of a request: with no limit nothing is put on the list. -/
def Request.Sound (limits : Limits) (clock : Int) : Request → Prop
  | .running => 0 ≤ limits.successMaxCount
  | .timing _ | .refusing | .recording | .trimming | .expiring => 0 < limits.successMaxCount
  | .pushing now => 0 < limits.successMaxCount ∧ now ≤ clock
  | .indexing | .done => True

theorem Request.Sound.later (h : request.Sound limits clock) (hle : clock ≤ time) :
    request.Sound limits time := by
  cases request with
  | pushing now => exact ⟨h.1, h.2.trans hle⟩
  | running => exact h
  | timing => exact h
  | refusing => exact h
  | recording => exact h
  | trimming => exact h
  | expiring => exact h
  | indexing => trivial
  | done => trivial

/-- Whether the stamp of a request that may still be recorded may be at a time, or before it. -/
def Request.due (clock time : Int) : Request → Bool
  | .running | .recording => clock ≤ time
  | .pushing now => now ≤ time
  | .indexing | .timing _ | .refusing | .trimming | .expiring | .done => false

theorem Request.pending_of_due (h : request.due clock time = true) : request.pending = true := by
  cases request with
  | running => rfl
  | recording => rfl
  | pushing now => rfl
  | timing => exact h
  | refusing => exact h
  | trimming => exact h
  | expiring => exact h
  | indexing => exact h
  | done => exact h

theorem Request.due_earlier {clock' : Int} (hle : clock ≤ clock')
    (h : request.due clock' time = true) : request.due clock time = true := by
  cases request with
  | running => exact decide_eq_true (hle.trans (of_decide_eq_true h))
  | recording => exact decide_eq_true (hle.trans (of_decide_eq_true h))
  | pushing now => exact h
  | timing => exact h
  | refusing => exact h
  | trimming => exact h
  | expiring => exact h
  | indexing => exact h
  | done => exact h

structure Inv (limits : Limits) (s : State) : Prop where
  sound : ∀ request ∈ s.requests, request.Sound limits s.clock
  none : ¬0 < limits.successMaxCount → s.log = []
  /-- the successes of a window, with those that may yet come to it -/
  bounded : 0 < limits.successMaxCount → ∀ time,
    within limits.window time s.log + s.requests.countP (Request.due s.clock time) ≤
      limits.successMaxCount.toNat
  past : ∀ stamp ∈ s.log, stamp ≤ s.clock
  sorted : s.log.Pairwise fun newer older => older ≤ newer
  /-- what the list does not hold is out of the window, or older than a list of full length -/
  kept : ∃ rest, s.log = s.list ++ rest ∧
    (limits.successMaxCount.toNat ≤ s.list.length ∨
      ∀ stamp ∈ rest, stamp + limits.window ≤ s.clock)
  trimmed : (∀ request ∈ s.requests, request ≠ .trimming) →
    s.list.length ≤ limits.successMaxCount.toNat
  /-- the list outlives what is on it -/
  covered : (∀ request ∈ s.requests, request.pushed = false) → s.list ≠ [] →
    ∃ time, s.expireAt = some time ∧ ∀ stamp ∈ s.log, stamp + limits.window ≤ time

theorem Inv.isBounded (h : Inv limits s) : s.Bounded limits := by
  intro time
  by_cases hpos : 0 < limits.successMaxCount
  · have hle := h.bounded hpos time
    omega
  · rw [h.none hpos]
    exact Nat.zero_le _

theorem inv_start (limits : Limits) (clock : Int) : Inv limits (.start clock) where
  sound := by intro _ h; cases h
  none := fun _ => rfl
  bounded := fun _ _ => Nat.zero_le _
  past := by intro _ h; cases h
  sorted := List.Pairwise.nil
  kept := ⟨[], rfl, .inr (by intro _ h; cases h)⟩
  trimmed := fun _ => Nat.zero_le _
  covered := fun _ h => absurd rfl h

/-! ### What the list tells a request that is alone -/

theorem pending_of_done {requests : List Request} (h : ∀ request ∈ requests, request = .done) :
    requests.countP Request.pending = 0 := by
  rw [List.countP_eq_zero]
  intro request hmem
  rw [h request hmem]
  exact Bool.false_ne_true

theorem Inv.room_of_short (h : Inv limits s) (hidle : s.requests.countP Request.pending = 0)
    (hshort : s.list.length < limits.successMaxCount) : s.Room limits := by
  obtain ⟨rest, hlog, hrest⟩ := h.kept
  have hold : ∀ stamp ∈ rest, stamp + limits.window ≤ s.clock := by
    obtain hfull | hold := hrest
    · omega
    · exact hold
  have hle : (s.list.countP fun stamp => s.clock - limits.window < stamp) ≤ s.list.length :=
    List.countP_le_length
  unfold State.Room
  rw [hlog, List.countP_append, countP_old hold, hidle]
  omega

theorem Inv.room_of_old {oldTime : Int} (h : Inv limits s)
    (hidle : s.requests.countP Request.pending = 0) (hpos : 0 < limits.successMaxCount)
    (htrimmed : ∀ request ∈ s.requests, request ≠ .trimming)
    (hlast : s.list.getLast? = some oldTime) (hpast : ¬limits.reached oldTime s.clock) :
    s.Room limits := by
  obtain ⟨rest, hlog, -⟩ := h.kept
  obtain ⟨front, hlist⟩ := List.getLast?_eq_some_iff.mp hlast
  have hmem : oldTime ∈ s.log := by
    rw [hlog, hlist]
    simp
  have hold := old_of_not_reached (h.past oldTime hmem) hpast
  -- what is not on the list is older than the last entry
  have hrest : ∀ stamp ∈ rest, stamp + limits.window ≤ s.clock := by
    intro stamp hstamp
    have hsorted := h.sorted
    rw [hlog, hlist] at hsorted
    have hle := (List.pairwise_append.mp hsorted).2.2 oldTime (by simp) stamp hstamp
    omega
  have hone : ([oldTime].countP fun stamp => s.clock - limits.window < stamp) = 0 :=
    countP_old (by simpa using hold)
  have hle : (front.countP fun stamp => s.clock - limits.window < stamp) ≤ front.length :=
    List.countP_le_length
  have hlength : s.list.length = front.length + 1 := by
    rw [hlist, List.length_append, List.length_singleton]
  have hfits := h.trimmed htrimmed
  unfold State.Room
  rw [hlog, hlist, List.countP_append, List.countP_append, countP_old hrest, hone, hidle]
  omega

theorem Inv.bounded_of_room (h : Inv limits s) (hpos : 0 < limits.successMaxCount)
    (hroom : s.Room limits) (time : Int) :
    within limits.window time s.log + s.requests.countP (Request.due s.clock time) +
      (Request.due s.clock time .running).toNat ≤ limits.successMaxCount.toNat := by
  by_cases hle : s.clock ≤ time
  · have hwithin : within limits.window time s.log ≤ _ := within_le_recent hle
    have hdue : s.requests.countP (Request.due s.clock time) ≤
        s.requests.countP Request.pending :=
      List.countP_mono_left fun _ _ => Request.pending_of_due
    have hone : (Request.due s.clock time .running).toNat ≤ 1 := Bool.toNat_le _
    unfold State.Room at hroom
    omega
  · have hzero : Request.due s.clock time .running = false := decide_eq_false hle
    rw [hzero]
    exact h.bounded hpos time

/-! ### What the actions keep -/

theorem Inv.put (h : Inv limits s) (hi : s.requests[i]? = some old)
    (hnew : new.Sound limits s.clock)
    (hbounded : 0 < limits.successMaxCount → ∀ time,
      within limits.window time s.log + (s.requests.set i new).countP (Request.due s.clock time) ≤
        limits.successMaxCount.toNat)
    (htrimming : old ≠ .trimming) (hpushed : old.pushed = true → new.pushed = true) :
    Inv limits (s.put i new) where
  sound := Parties.forall_set h.sound hnew
  none := h.none
  bounded := hbounded
  past := h.past
  sorted := h.sorted
  kept := h.kept
  trimmed := fun hall => h.trimmed (Parties.forall_of_set hi htrimming hall)
  covered := by
    intro hall hne
    have hold : old.pushed = false := by
      by_contra hold
      have hnew' := hall new (Parties.mem_set hi)
      rw [hpushed (Bool.not_eq_false _ ▸ hold)] at hnew'
      cases hnew'
    exact h.covered (Parties.forall_of_set hi hold hall) hne

theorem Inv.bounded_set (h : Inv limits s) (hi : s.requests[i]? = some old)
    (hdue : ∀ time, new.due s.clock time = true → old.due s.clock time = true)
    (hpos : 0 < limits.successMaxCount) (time : Int) :
    within limits.window time s.log + (s.requests.set i new).countP (Request.due s.clock time) ≤
      limits.successMaxCount.toNat := by
  have hbefore := h.bounded hpos time
  have hcount := Parties.countP_set (Request.due s.clock time) new hi
  have hle : (new.due s.clock time).toNat ≤ (old.due s.clock time).toNat := by
    by_cases hnew : new.due s.clock time = true
    · rw [hnew, hdue time hnew]
    · rw [Bool.not_eq_true] at hnew
      rw [hnew]
      exact Nat.zero_le _
  omega

theorem Inv.pass (h : Inv limits s) (hi : s.requests[i]? = some old)
    (hold : old.pending = false) (htrimming : old ≠ .trimming) (hpushed : old.pushed = false)
    (hpos : 0 < limits.successMaxCount) (hroom : s.Room limits) :
    Inv limits (s.put i .running) := by
  have hnot : old.pushed ≠ true := fun htrue => Bool.false_ne_true (hpushed.symm.trans htrue)
  refine h.put hi (le_of_lt hpos) (fun _ time => ?_) htrimming fun htrue => absurd htrue hnot
  have hafter := h.bounded_of_room hpos hroom time
  have hcount := Parties.countP_set (Request.due s.clock time) .running hi
  have hzero : old.due s.clock time = false := by
    by_contra hdue
    rw [Request.pending_of_due (Bool.not_eq_false _ ▸ hdue)] at hold
    cases hold
  rw [hzero, Bool.toNat_false] at hcount
  omega

theorem Inv.arrive (h : Inv limits s) (hcond : Spares limits s .arrive) :
    Inv limits (s.arrive limits) := by
  have hnotDone : ∀ {P : Request → Prop} {request : Request},
      (∀ party ∈ s.requests ++ [request], P party) → ∀ party ∈ s.requests, P party :=
    fun hall party hmem => hall party (List.mem_append_left _ hmem)
  -- whatever becomes of the request, the list is left alone
  have harrive : ∀ request : Request, request.Sound limits s.clock →
      (0 < limits.successMaxCount → ∀ time,
        within limits.window time s.log + s.requests.countP (Request.due s.clock time) +
          (request.due s.clock time).toNat ≤ limits.successMaxCount.toNat) →
      Inv limits { s with requests := s.requests ++ [request] } := by
    intro request hsound hbounded
    exact {
      sound := by
        intro party hmem
        obtain hmem | hmem := List.mem_append.mp hmem
        · exact h.sound party hmem
        · obtain rfl := List.mem_singleton.mp hmem
          exact hsound
      none := h.none
      bounded := by
        intro hpos time
        have hafter := hbounded hpos time
        have hone : [request].countP (Request.due s.clock time) =
            (request.due s.clock time).toNat := by
          rw [List.countP_singleton]
          cases request.due s.clock time <;> rfl
        show within limits.window time s.log +
          (s.requests ++ [request]).countP (Request.due s.clock time) ≤ _
        rw [List.countP_append, hone]
        omega
      past := h.past
      sorted := h.sorted
      kept := h.kept
      trimmed := fun hall => h.trimmed (hnotDone hall)
      covered := fun hall => h.covered (hnotDone hall) }
  unfold State.arrive
  by_cases hzero : limits.successMaxCount = 0
  · rw [if_pos hzero]
    exact harrive .running (le_of_eq hzero.symm) fun hpos => by omega
  · rw [if_neg hzero]
    by_cases hshort : s.list.length < limits.successMaxCount
    · rw [if_pos hshort]
      have hroom : s.Room limits := by
        obtain halone | hroom := hcond hshort
        · exact h.room_of_short (pending_of_done halone) hshort
        · exact hroom
      exact harrive .running (show 0 ≤ limits.successMaxCount by omega) fun hpos time =>
        h.bounded_of_room hpos hroom time
    · rw [if_neg hshort]
      exact harrive .indexing trivial fun hpos time => h.bounded hpos time

theorem Inv.expire (h : Inv limits s) (hfits : limits.Fits) (hi : s.requests[i]? = some old)
    (htrimming : old ≠ .trimming) :
    Inv limits ((s.expire limits).put i .done) := by
  have hbounded : 0 < limits.successMaxCount → ∀ time,
      within limits.window time s.log +
        (s.requests.set i .done).countP (Request.due s.clock time) ≤
          limits.successMaxCount.toNat :=
    h.bounded_set hi fun time hdone => by cases hdone
  have htrimmed : (∀ request ∈ s.requests.set i .done, request ≠ .trimming) →
      s.list.length ≤ limits.successMaxCount.toNat :=
    fun hall => h.trimmed (Parties.forall_of_set hi htrimming hall)
  have hsound : ∀ request ∈ s.requests.set i .done, request.Sound limits s.clock :=
    Parties.forall_set h.sound trivial
  unfold State.expire
  by_cases hempty : s.list = []
  · rw [if_pos hempty]
    exact {
      sound := hsound
      none := h.none
      bounded := hbounded
      past := h.past
      sorted := h.sorted
      kept := h.kept
      trimmed := htrimmed
      covered := fun _ hne => absurd hempty hne }
  · rw [if_neg hempty]
    by_cases hnonpos : limits.expiration ≤ 0
    · rw [if_pos hnonpos]
      exact {
        sound := hsound
        none := h.none
        bounded := hbounded
        past := h.past
        sorted := h.sorted
        kept := by
          refine ⟨s.log, rfl, .inr fun stamp hmem => ?_⟩
          rw [hfits.window, if_pos hnonpos, Int.add_zero]
          exact h.past stamp hmem
        trimmed := fun _ => Nat.zero_le _
        covered := fun _ hne => absurd rfl hne }
    · rw [if_neg hnonpos]
      exact {
        sound := hsound
        none := h.none
        bounded := hbounded
        past := h.past
        sorted := h.sorted
        kept := h.kept
        trimmed := htrimmed
        covered := by
          refine fun _ _ => ⟨s.clock + limits.expiration, rfl, fun stamp hmem => ?_⟩
          rw [hfits.window, if_neg hnonpos]
          exact Int.add_le_add_right (h.past stamp hmem) _ }

theorem Inv.push {now : Int} (h : Inv limits s) (hi : s.requests[i]? = some (.pushing now))
    (horder : ∀ stamp ∈ s.log, stamp ≤ now) :
    Inv limits { s.put i .trimming with list := now :: s.list, log := now :: s.log } := by
  obtain ⟨hpos, hnow⟩ : 0 < limits.successMaxCount ∧ now ≤ s.clock :=
    h.sound _ (List.mem_of_getElem? hi)
  have hmem : Request.trimming ∈ s.requests.set i .trimming := Parties.mem_set hi
  exact {
    sound := Parties.forall_set h.sound hpos
    none := fun hnot => absurd hpos hnot
    bounded := by
      intro _ time
      have hbefore := h.bounded hpos time
      have hcount := Parties.countP_set (Request.due s.clock time) .trimming hi
      have hzero : (Request.due s.clock time .trimming).toNat = 0 := rfl
      have hone : (if time - limits.window < now ∧ now ≤ time then 1 else 0) ≤
          (Request.due s.clock time (.pushing now)).toNat := by
        by_cases hin : time - limits.window < now ∧ now ≤ time
        · have hdue : Request.due s.clock time (.pushing now) = true := decide_eq_true hin.2
          rw [if_pos hin, hdue]
          rfl
        · rw [if_neg hin]
          exact Nat.zero_le _
      show within limits.window time (now :: s.log) +
        (s.requests.set i .trimming).countP (Request.due s.clock time) ≤ _
      rw [within_cons]
      omega
    past := by
      intro stamp hstamp
      obtain rfl | hstamp := List.mem_cons.mp hstamp
      · exact hnow
      · exact h.past stamp hstamp
    sorted := List.Pairwise.cons horder h.sorted
    kept := by
      obtain ⟨rest, hlog, hrest⟩ := h.kept
      refine ⟨rest, congrArg (now :: ·) hlog, ?_⟩
      obtain hfull | hold := hrest
      · exact .inl (Nat.le_succ_of_le hfull)
      · exact .inr hold
    trimmed := fun hall => absurd rfl (hall _ hmem)
    covered := fun hall => by cases hall _ hmem }

theorem Inv.trim (h : Inv limits s) (hi : s.requests[i]? = some .trimming) :
    Inv limits { s.put i .expiring with
      list := s.list.take limits.successMaxCount.toNat } := by
  have hmem : Request.expiring ∈ s.requests.set i .expiring := Parties.mem_set hi
  have hpos : 0 < limits.successMaxCount := h.sound _ (List.mem_of_getElem? hi)
  exact {
    sound := Parties.forall_set h.sound hpos
    none := h.none
    bounded := h.bounded_set hi fun time hdue => by cases hdue
    past := h.past
    sorted := h.sorted
    kept := by
      obtain ⟨rest, hlog, hrest⟩ := h.kept
      refine ⟨s.list.drop limits.successMaxCount.toNat ++ rest, ?_, ?_⟩
      · show s.log = s.list.take limits.successMaxCount.toNat ++ _
        rw [← List.append_assoc, List.take_append_drop]
        exact hlog
      · by_cases hfull : limits.successMaxCount.toNat ≤ s.list.length
        · left
          show _ ≤ (s.list.take limits.successMaxCount.toNat).length
          rw [List.length_take, Nat.min_eq_left hfull]
        · obtain hfull' | hold := hrest
          · exact absurd hfull' hfull
          · right
            rw [List.drop_of_length_le (by omega), List.nil_append]
            exact hold
    trimmed := fun _ => List.length_take_le _ _
    covered := fun hall => by cases hall _ hmem }

theorem Inv.tick {now : Int} (h : Inv limits s) (hle : s.clock ≤ now)
    (hcond : Spares limits s (.tick now)) : Inv limits (s.tick now) := by
  have hsound : ∀ request ∈ s.requests, request.Sound limits now :=
    fun request hmem => (h.sound request hmem).later hle
  have hbounded : 0 < limits.successMaxCount → ∀ time,
      within limits.window time s.log + s.requests.countP (Request.due now time) ≤
        limits.successMaxCount.toNat := by
    intro hpos time
    have hbefore := h.bounded hpos time
    have hdue : s.requests.countP (Request.due now time) ≤
        s.requests.countP (Request.due s.clock time) :=
      List.countP_mono_left fun _ _ => Request.due_earlier hle
    omega
  have hpast : ∀ stamp ∈ s.log, stamp ≤ now := fun stamp hmem => (h.past stamp hmem).trans hle
  obtain ⟨rest, hlog, hrest⟩ := h.kept
  have hkept : limits.successMaxCount.toNat ≤ s.list.length ∨
      ∀ stamp ∈ rest, stamp + limits.window ≤ now :=
    hrest.imp_right fun hold stamp hmem => (hold stamp hmem).trans hle
  unfold State.tick
  by_cases hexpired : s.expireAt.any (· < now) = true
  · rw [if_pos hexpired]
    obtain ⟨time, htime, hover⟩ := (Option.any_eq_true _ _).mp hexpired
    have hnone : ∀ request ∈ s.requests, request.pushed = false := by
      intro request hmem
      by_contra hpushed
      have hin := hcond ⟨request, hmem, Bool.not_eq_false _ ▸ hpushed⟩ time htime
      exact absurd (of_decide_eq_true hover) (not_lt.mpr hin)
    exact {
      sound := hsound
      none := h.none
      bounded := hbounded
      past := hpast
      sorted := h.sorted
      kept := by
        by_cases hempty : s.list = []
        · rw [hempty] at hlog hkept
          exact ⟨rest, hlog, hkept⟩
        · obtain ⟨time', htime', hcovered⟩ := h.covered hnone hempty
          obtain rfl : time = time' := Option.some.inj (htime.symm.trans htime')
          refine ⟨s.log, rfl, .inr fun stamp hmem => ?_⟩
          exact (hcovered stamp hmem).trans (le_of_lt (of_decide_eq_true hover))
      trimmed := fun _ => Nat.zero_le _
      covered := fun _ hne => absurd rfl hne }
  · rw [if_neg hexpired]
    exact {
      sound := hsound
      none := h.none
      bounded := hbounded
      past := hpast
      sorted := h.sorted
      kept := ⟨rest, hlog, hkept⟩
      trimmed := h.trimmed
      covered := h.covered }

theorem Inv.work (h : Inv limits s) (hfits : limits.Fits) (hcond : Spares limits s (.work i))
    (hstep : s.work limits i = some t) : Inv limits t := by
  unfold State.work at hstep
  cases hi : s.requests[i]? with
  | none =>
    rw [hi] at hstep
    cases hstep
  | some request =>
    rw [hi] at hstep
    have hspares : request.Spares limits s i := hcond request hi
    have hsound : request.Sound limits s.clock := h.sound _ (List.mem_of_getElem? hi)
    cases request with
    | indexing =>
      dsimp only at hstep
      cases hlast : s.list.getLast? with
      | none =>
        rw [hlast] at hstep
        cases hstep
        exact h.put hi trivial (h.bounded_set hi fun _ hdue => by cases hdue) (by simp)
          fun hpushed => by cases hpushed
      | some oldTime =>
        rw [hlast] at hstep
        cases hstep
        -- with no limit there would be no list
        have hpos : 0 < limits.successMaxCount := by
          by_contra hnot
          obtain ⟨rest, hlog, -⟩ := h.kept
          rw [h.none hnot] at hlog
          rw [(List.append_eq_nil_iff.mp hlog.symm).1] at hlast
          cases hlast
        exact h.put hi hpos (h.bounded_set hi fun _ hdue => by cases hdue) (by simp)
          fun hpushed => by cases hpushed
    | timing oldTime =>
      cases hstep
      by_cases hreached : limits.reached oldTime s.clock
      · rw [if_pos hreached]
        exact h.put hi hsound (h.bounded_set hi fun _ hdue => by cases hdue) (by simp)
          fun hpushed => by cases hpushed
      · rw [if_neg hreached]
        have hroom : s.Room limits := by
          obtain ⟨halone, hlast⟩ | hroom := hspares hreached
          · have hothers : ∀ request ∈ s.requests.set i .done,
                ¬request.pending = true ∧ request ≠ .trimming := by
              intro party hmem
              rw [halone party hmem]
              exact ⟨Bool.false_ne_true, by simp⟩
            have hall : ∀ request ∈ s.requests, ¬request.pending = true ∧ request ≠ .trimming :=
              Parties.forall_of_set hi ⟨Bool.false_ne_true, by simp⟩ hothers
            have hidle : s.requests.countP Request.pending = 0 :=
              List.countP_eq_zero.mpr fun request hmem => (hall request hmem).1
            have htrimmed : ∀ request ∈ s.requests, request ≠ .trimming :=
              fun request hmem => (hall request hmem).2
            exact h.room_of_old hidle hsound htrimmed hlast hreached
          · exact hroom
        exact h.pass hi rfl (by simp) rfl hsound hroom
    | refusing =>
      cases hstep
      exact h.expire hfits hi (by simp)
    | recording =>
      cases hstep
      exact h.put hi ⟨hsound, le_refl _⟩ (h.bounded_set hi fun _ hdue => hdue) (by simp)
        fun hpushed => by cases hpushed
    | pushing now =>
      cases hstep
      exact h.push hi hspares
    | trimming =>
      cases hstep
      exact h.trim hi
    | expiring =>
      cases hstep
      exact h.expire hfits hi (by simp)
    | running => cases hstep
    | done => cases hstep

theorem Inv.finish {success : Bool} (h : Inv limits s)
    (hstep : s.finish limits i success = some t) : Inv limits t := by
  unfold State.finish at hstep
  cases hi : s.requests[i]? with
  | none =>
    rw [hi] at hstep
    cases hstep
  | some request =>
    rw [hi] at hstep
    have hsound : request.Sound limits s.clock := h.sound _ (List.mem_of_getElem? hi)
    cases request with
    | running =>
      cases hstep
      by_cases hsuccess : success = true ∧ limits.successMaxCount ≠ 0
      · rw [if_pos hsuccess]
        have hpos : 0 < limits.successMaxCount := lt_of_le_of_ne hsound (Ne.symm hsuccess.2)
        exact h.put hi hpos (h.bounded_set hi fun _ hdue => hdue) (by simp)
          fun hpushed => by cases hpushed
      · rw [if_neg hsuccess]
        exact h.put hi trivial (h.bounded_set hi fun _ hdue => by cases hdue) (by simp)
          fun hpushed => by cases hpushed
    | indexing => cases hstep
    | timing => cases hstep
    | refusing => cases hstep
    | recording => cases hstep
    | pushing => cases hstep
    | trimming => cases hstep
    | expiring => cases hstep
    | done => cases hstep

theorem Inv.step {a : Act} (hfits : limits.Fits) (h : Inv limits s) (hcond : Spares limits s a)
    (hstep : ModelRateLimit.step limits s a = some t) : Inv limits t := by
  cases a with
  | tick now =>
    unfold ModelRateLimit.step at hstep
    obtain ⟨hback, ⟨⟩⟩ := Option.ite_none_left_eq_some.mp hstep
    exact h.tick (not_lt.mp hback) hcond
  | arrive =>
    cases hstep
    exact h.arrive hcond
  | work i => exact h.work hfits hcond hstep
  | finish i success => exact h.finish hstep

/-- Where no request passes without room, the limit holds in every window. -/
theorem successes_bounded_of_spares {clock : Int} {acts : List Act} {t : State}
    (hfits : limits.Fits) (hmeets : Machine.Meets (step limits) (Spares limits) (.start clock) acts)
    (hrun : Machine.run (step limits) (.start clock) acts = some t) : t.Bounded limits := by
  have hinv : Inv limits t := Machine.run_invariant (Inv limits) (fun _ _ _ => Inv.step hfits) acts
    (.start clock) t (inv_start limits clock) hmeets hrun
  exact hinv.isBounded

def succeed (i : Nat) : List Act :=
  [.finish i true, .work i, .work i, .work i, .work i]

/-- Three requests that come while no other one is under way; the second comes too soon. -/
def oneByOne : List Act :=
  [.arrive] ++ succeed 0 ++ [.tick 31000, .arrive, .work 1, .work 1, .work 1,
    .tick 61000, .arrive, .work 2, .work 2] ++ succeed 2

theorem oneByOne_bounded : ∃ t, Machine.run (step ⟨1, 1⟩) (.start 1000) oneByOne = some t ∧
    t.log = [61000, 1000] ∧ t.Bounded ⟨1, 1⟩ := by
  have hruns : (Machine.run (step ⟨1, 1⟩) (.start 1000) oneByOne).map State.log =
      some [61000, 1000] := by rfl
  obtain ⟨t, hrun, hlog⟩ := Option.map_eq_some_iff.mp hruns
  exact ⟨t, hrun, hlog, successes_bounded_of_spares ⟨by decide, by decide⟩ (by decide +kernel) hrun⟩

/-- Two requests look at the list before the first of them is on it. -/
def overlapping : List Act := [.arrive, .arrive] ++ succeed 0 ++ succeed 1

theorem overlapping_not_bounded : ∃ t, Machine.run (step ⟨1, 1⟩) (.start 1000) overlapping = some t ∧
    t.log = [1000, 1000] ∧ ¬t.Bounded ⟨1, 1⟩ := by
  have hruns : (Machine.run (step ⟨1, 1⟩) (.start 1000) overlapping).map State.log =
      some [1000, 1000] := by rfl
  obtain ⟨t, hrun, hlog⟩ := Option.map_eq_some_iff.mp hruns
  refine ⟨t, hrun, hlog, fun hbounded => ?_⟩
  have htwo := hbounded 1000
  rw [hlog] at htwo
  exact absurd htwo (by decide)

end JulongApi.ModelRateLimit

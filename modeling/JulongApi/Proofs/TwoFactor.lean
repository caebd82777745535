/-
What the second factor guards against, as long as attempts do not get in each other's way.

A wrong code that is checked is either in the counter of the row or waits to be (`Inv.room`); the row
an attempt has read is a fair warning of the lock until a failure locks it under its feet
(`Attempt.Sound`).
-/
import JulongApi.TwoFactor
import JulongApi.Lib.Parties

namespace JulongApi.TwoFactor

/-! ### The lock -/

variable {lockedUntil : Option Int} {now : Int}

theorem locked_earlier {later : Int} (hle : now ≤ later) (h : locked lockedUntil later = true) :
    locked lockedUntil now = true := by
  cases lockedUntil with
  | none => exact h
  | some time =>
    unfold locked at h ⊢
    simp only [decide_eq_true_eq] at h ⊢
    omega

theorem unlocked_later {later : Int} (hle : now ≤ later) (h : locked lockedUntil now = false) :
    locked lockedUntil later = false := by
  by_contra hlocked
  have hnow := locked_earlier hle (Bool.not_eq_false _ ▸ hlocked)
  exact absurd (h.symm.trans hnow) Bool.false_ne_true

/-! ### What is known of an attempt -/

/-- What an attempt has read of the row does not hide a lock. -/
def Attempt.Sound (rowLockedUntil : Option Int) (clock : Int) : Attempt → Prop
  | .loaded _ lockedUntil | .checking _ lockedUntil =>
    ∀ time, clock ≤ time → locked rowLockedUntil time = true → locked lockedUntil time = true
  | .marking _ | .succeeding => locked rowLockedUntil clock = false
  | .comparing _ _ _ lockedUntil now => now ≤ clock ∧ locked lockedUntil now = false
  | .counting _ _ | .updating _ _ _ _ | .done => True

/-- An attempt whose wrong code is still to be counted.  One that has read the row locked will leave
it uncounted. -/
def Attempt.live (clock : Int) : Attempt → Bool
  | .counting wrong _ | .comparing wrong _ _ _ _ => wrong
  | .updating wrong _ _ lockedUntil => wrong && !locked lockedUntil clock
  | .loaded _ _ | .checking _ _ | .marking _ | .succeeding | .done => false

section Attempts

variable {attempt : Attempt} {rowLockedUntil rowLockedUntil' : Option Int} {clock time : Int}

theorem Attempt.Sound.later (h : attempt.Sound rowLockedUntil clock) (hle : clock ≤ time) :
    attempt.Sound rowLockedUntil time := by
  cases attempt with
  | loaded => exact fun t ht hrow => h t (Int.le_trans hle ht) hrow
  | checking => exact fun t ht hrow => h t (Int.le_trans hle ht) hrow
  | marking => exact unlocked_later hle h
  | succeeding => exact unlocked_later hle h
  | comparing => exact ⟨Int.le_trans h.1 hle, h.2⟩
  | counting => trivial
  | updating => trivial
  | done => trivial

theorem Attempt.Sound.unlock (h : attempt.Sound rowLockedUntil clock)
    (hrow : locked rowLockedUntil' clock = false) : attempt.Sound rowLockedUntil' clock := by
  have hnever : ∀ time, clock ≤ time → locked rowLockedUntil' time ≠ true := by
    intro time htime hlocked
    exact absurd ((unlocked_later htime hrow).symm.trans hlocked) Bool.false_ne_true
  cases attempt with
  | loaded => exact fun time htime hlocked => absurd hlocked (hnever time htime)
  | checking => exact fun time htime hlocked => absurd hlocked (hnever time htime)
  | marking => exact hrow
  | succeeding => exact hrow
  | comparing => exact h
  | counting => trivial
  | updating => trivial
  | done => trivial

theorem Attempt.Sound.lock (h : attempt.Sound rowLockedUntil clock)
    (hopened : attempt.opened = false) : attempt.Sound rowLockedUntil' clock := by
  cases attempt with
  | loaded => cases hopened
  | checking => cases hopened
  | marking => cases hopened
  | succeeding => cases hopened
  | comparing => exact h
  | counting => trivial
  | updating => trivial
  | done => trivial

theorem Attempt.live_later (hle : clock ≤ time) (h : attempt.live clock = true) :
    attempt.live time = true := by
  cases attempt with
  | updating wrong tries failedAttempts lockedUntil =>
    unfold Attempt.live at h ⊢
    rw [Bool.and_eq_true, Bool.not_eq_true'] at h ⊢
    exact ⟨h.1, unlocked_later hle h.2⟩
  | counting => exact h
  | comparing => exact h
  | loaded => exact h
  | checking => exact h
  | marking => exact h
  | succeeding => exact h
  | done => exact h

theorem Attempt.waiting_of_live (h : attempt.live clock = true) : attempt.waiting = true := by
  cases attempt with
  | updating wrong tries failedAttempts lockedUntil => exact (Bool.and_eq_true _ _ ▸ h).1
  | counting => exact h
  | comparing => exact h
  | loaded => exact h
  | checking => exact h
  | marking => exact h
  | succeeding => exact h
  | done => exact h

end Attempts

/-! ### The invariant -/

def State.live (s : State) : Nat := s.attempts.countP (Attempt.live s.clock)

theorem State.live_le_waiting (s : State) : s.live ≤ s.waiting :=
  List.countP_mono_left fun _ _ => Attempt.waiting_of_live

structure Inv (s : State) : Prop where
  /-- a wrong code is in the counter, or on its way there -/
  room : fresh s.events ≤ min s.failedAttempts 4 + s.live
  bound : fresh s.events ≤ maxFailAttempts
  /-- while the row is locked no wrong code is checked -/
  lock : locked s.lockedUntil s.clock = true → fresh s.events = 0
  sound : ∀ attempt ∈ s.attempts, attempt.Sound s.lockedUntil s.clock
  wrong : .wrong true ∉ s.events
  success : .success true ∉ s.events
  nodup : (accepted s.events).Nodup
  /-- an accepted code stays used -/
  used : ∀ codeId ∈ accepted s.events, ∀ row ∈ s.codes, row.id = codeId → row.isUsed = true

theorem Inv.guarded {s : State} (h : Inv s) : s.Guarded :=
  ⟨h.bound, h.wrong, h.success, h.nodup⟩

section Step

variable {s : State} {i : Nat} {old new : Attempt}

theorem Inv.put (h : Inv s) (hi : s.attempts[i]? = some old)
    (hnew : new.Sound s.lockedUntil s.clock)
    (hlive : old.live s.clock = true → new.live s.clock = true ∨ fresh s.events = 0) :
    Inv (s.put i new) where
  room := by
    show fresh s.events ≤ min s.failedAttempts 4 + (s.attempts.set i new).countP (Attempt.live s.clock)
    have hcount := Parties.countP_set (Attempt.live s.clock) new hi
    have hroom : fresh s.events ≤ min s.failedAttempts 4 + s.attempts.countP (Attempt.live s.clock) :=
      h.room
    by_cases hold : old.live s.clock = true
    · obtain hnew' | hnone := hlive hold
      · rw [hold, hnew'] at hcount
        omega
      · omega
    · rw [Bool.not_eq_true] at hold
      rw [hold, Bool.toNat_false] at hcount
      omega
  bound := h.bound
  lock := h.lock
  sound := Parties.forall_set h.sound hnew
  wrong := h.wrong
  success := h.success
  nodup := h.nodup
  used := h.used

theorem Inv.fail (h : Inv s) (hi : s.attempts[i]? = some old) (hold : old.live s.clock = false)
    (hunlocked : locked s.lockedUntil s.clock = false)
    (hroom : s.waiting = 0 ∨ s.failedAttempts + s.waiting < maxFailAttempts) :
    Inv (s.fail i) where
  room := by
    show fresh s.events + 1 ≤ min s.failedAttempts 4 +
      (s.attempts.set i (.counting true 5)).countP (Attempt.live s.clock)
    have hcount := Parties.countP_set (Attempt.live s.clock) (.counting true 5) hi
    have hbefore : fresh s.events ≤
      min s.failedAttempts 4 + s.attempts.countP (Attempt.live s.clock) := h.room
    have hone : (Attempt.live s.clock (.counting true 5)).toNat = 1 := rfl
    rw [hold, hone, Bool.toNat_false] at hcount
    omega
  bound := by
    show fresh s.events + 1 ≤ 5
    have hbefore := h.room
    have hle := s.live_le_waiting
    unfold maxFailAttempts at hroom
    omega
  lock := fun hlocked => absurd (hunlocked.symm.trans hlocked) Bool.false_ne_true
  sound := Parties.forall_set h.sound trivial
  wrong := by
    show .wrong true ∉ .wrong (locked s.lockedUntil s.clock) :: s.events
    rw [hunlocked, List.mem_cons, not_or]
    exact ⟨by simp, h.wrong⟩
  success := by
    show .success true ∉ .wrong (locked s.lockedUntil s.clock) :: s.events
    rw [List.mem_cons, not_or]
    exact ⟨by simp, h.success⟩
  nodup := h.nodup
  used := h.used

theorem Inv.mark {codeId : Int} (h : Inv s) (hi : s.attempts[i]? = some (.marking codeId)) :
    Inv (s.mark i codeId) := by
  have hunlocked : locked s.lockedUntil s.clock = false :=
    h.sound _ (List.mem_of_getElem? hi)
  unfold State.mark
  by_cases hany : (s.codes.any fun row => row.id = codeId && !row.isUsed) = true
  · rw [if_pos hany]
    have hput : Inv (s.put i .succeeding) := h.put hi hunlocked fun hlive => by cases hlive
    obtain ⟨row, hrow, hunused⟩ := List.any_eq_true.mp hany
    rw [Bool.and_eq_true, decide_eq_true_eq, Bool.not_eq_true'] at hunused
    have hnew : codeId ∉ accepted s.events := by
      intro hmem
      have hused := h.used codeId hmem row hrow hunused.1
      exact absurd (hunused.2.symm.trans hused) Bool.false_ne_true
    exact {
      room := hput.room
      bound := hput.bound
      lock := hput.lock
      sound := hput.sound
      wrong := by
        rw [List.mem_cons, not_or]
        exact ⟨by simp, h.wrong⟩
      success := by
        rw [List.mem_cons, not_or]
        exact ⟨by simp, h.success⟩
      nodup := List.nodup_cons.mpr ⟨hnew, h.nodup⟩
      used := by
        intro usedId hmem row hrow hid
        obtain ⟨row', hrow', rfl⟩ := List.mem_map.mp hrow
        by_cases hmatch : row'.id = codeId ∧ row'.isUsed = false
        · rw [if_pos hmatch]
        · rw [if_neg hmatch] at hid ⊢
          obtain rfl | hmem := List.mem_cons.mp hmem
          · by_contra hnot
            exact hmatch ⟨hid, Bool.not_eq_true _ ▸ hnot⟩
          · exact h.used usedId hmem row' hrow' hid }
  · rw [if_neg hany]
    exact h.put hi trivial fun hlive => by cases hlive

theorem Inv.increment {wrong : Bool} {tries failedAttempts : Nat} (h : Inv s)
    (hi : s.attempts[i]? = some (.comparing wrong tries failedAttempts lockedUntil now))
    (hopened : s.failedAttempts = failedAttempts → locked s.lockedUntil now = false →
      maxFailAttempts ≤ failedAttempts + 1 → ∀ attempt ∈ s.attempts, attempt.opened = false) :
    Inv (s.increment i wrong tries failedAttempts lockedUntil now) := by
  obtain ⟨hnow, hread⟩ : now ≤ s.clock ∧ locked lockedUntil now = false :=
    h.sound _ (List.mem_of_getElem? hi)
  unfold State.increment
  by_cases hsame : s.failedAttempts = failedAttempts ∧ locked s.lockedUntil now = false
  · rw [if_pos hsame]
    by_cases hfull : failedAttempts + 1 ≥ maxFailAttempts
    · rw [if_pos hfull]
      have hclosed := hopened hsame.1 hsame.2 hfull
      exact {
        room := Nat.zero_le _
        bound := Nat.zero_le _
        lock := fun _ => rfl
        sound := Parties.forall_set (fun attempt hmem => (h.sound attempt hmem).lock (hclosed attempt hmem))
          trivial
        wrong := by
          rw [List.mem_cons, not_or]
          exact ⟨by simp, h.wrong⟩
        success := by
          rw [List.mem_cons, not_or]
          exact ⟨by simp, h.success⟩
        nodup := h.nodup
        used := h.used }
    · rw [if_neg hfull]
      have hunlocked : locked lockedUntil s.clock = false := unlocked_later hnow hread
      exact {
        room := by
          show fresh s.events ≤ min (failedAttempts + 1) 4 +
            (s.attempts.set i .done).countP (Attempt.live s.clock)
          have hcount := Parties.countP_set (Attempt.live s.clock) .done hi
          have hone : (Attempt.live s.clock
            (.comparing wrong tries failedAttempts lockedUntil now)).toNat ≤ 1 := Bool.toNat_le _
          have hzero : (Attempt.live s.clock .done).toNat = 0 := rfl
          have hbefore : fresh s.events ≤
            min s.failedAttempts 4 + s.attempts.countP (Attempt.live s.clock) := h.room
          have hsmall : failedAttempts + 1 < 5 := Nat.lt_of_not_ge hfull
          rw [hsame.1] at hbefore
          omega
        bound := h.bound
        lock := fun hlocked => absurd (hunlocked.symm.trans hlocked) Bool.false_ne_true
        sound := Parties.forall_set (fun attempt hmem => (h.sound attempt hmem).unlock hunlocked) trivial
        wrong := h.wrong
        success := h.success
        nodup := h.nodup
        used := h.used }
  · rw [if_neg hsame]
    exact h.put hi trivial fun hlive => .inl hlive

theorem Inv.succeed (h : Inv s) (hi : s.attempts[i]? = some .succeeding) :
    Inv { s.put i .done with
      failedAttempts := 0
      lockedUntil := none
      events := .success (locked s.lockedUntil s.clock) :: s.events } where
  room := Nat.zero_le _
  bound := Nat.zero_le _
  lock := fun _ => rfl
  sound := Parties.forall_set (fun attempt hmem => (h.sound attempt hmem).unlock rfl) trivial
  wrong := by
    rw [List.mem_cons, not_or]
    exact ⟨by simp, h.wrong⟩
  success := by
    have hunlocked : locked s.lockedUntil s.clock = false :=
      h.sound _ (List.mem_of_getElem? hi)
    rw [hunlocked, List.mem_cons, not_or]
    exact ⟨by simp, h.success⟩
  nodup := h.nodup
  used := h.used

theorem Inv.check {input : Input} {right : Bool} (h : Inv s)
    (hi : s.attempts[i]? = some (.checking input lockedUntil))
    (hunlocked : locked s.lockedUntil s.clock = false) (hroom : s.findsWrong right input = true →
      s.waiting = 0 ∨ s.failedAttempts + s.waiting < maxFailAttempts) :
    Inv (s.check i right input) := by
  cases input with
  | numeric =>
    show Inv (if right then s.put i .succeeding else s.fail i)
    by_cases hright : right = true
    · rw [if_pos hright]
      exact h.put hi hunlocked fun hlive => by cases hlive
    · rw [if_neg hright]
      exact h.fail hi rfl hunlocked (hroom (by simpa [State.findsWrong] using hright))
  | backup code =>
    unfold State.check
    dsimp only
    cases hmatch : s.matching code with
    | some row => exact h.put hi hunlocked fun hlive => by cases hlive
    | none =>
      refine h.fail hi rfl hunlocked (hroom ?_)
      show (s.matching code).isNone = true
      rw [hmatch]
      rfl
  | malformed => exact h.put hi trivial fun hlive => by cases hlive

theorem Inv.work {right : Bool} {t : State} (h : Inv s) (hcond : Orderly s (.work i right))
    (hstep : s.work i right = some t) : Inv t := by
  unfold State.work at hstep
  cases hi : s.attempts[i]? with
  | none =>
    rw [hi] at hstep
    cases hstep
  | some attempt =>
    rw [hi] at hstep
    have horderly : attempt.Orderly s right := hcond attempt hi
    cases attempt with
    | loaded input lockedUntil =>
      cases hstep
      by_cases hlocked : locked lockedUntil s.clock = true
      · rw [if_pos hlocked]
        exact h.put hi trivial fun hlive => by cases hlive
      · rw [if_neg hlocked]
        have hsound := h.sound _ (List.mem_of_getElem? hi)
        cases input with
        | numeric => exact h.put hi hsound fun hlive => by cases hlive
        | backup code => exact h.put hi hsound fun hlive => by cases hlive
        | malformed => exact h.put hi trivial fun hlive => by cases hlive
    | checking input lockedUntil =>
      cases hstep
      by_cases hlocked : locked lockedUntil s.clock = true
      · rw [if_pos hlocked]
        exact h.put hi trivial fun hlive => by cases hlive
      · rw [if_neg hlocked]
        -- what it has read would tell of a lock
        have hunlocked : locked s.lockedUntil s.clock = false := by
          by_contra hrow
          have hsound := h.sound _ (List.mem_of_getElem? hi)
          exact hlocked (hsound s.clock (Int.le_refl _) (Bool.not_eq_false _ ▸ hrow))
        exact h.check hi hunlocked (horderly (Bool.not_eq_true _ ▸ hlocked))
    | marking codeId =>
      cases hstep
      exact h.mark hi
    | counting wrong tries =>
      cases tries with
      | zero =>
        cases hstep
        obtain rfl : wrong = false := horderly rfl
        exact h.put hi trivial fun hlive => by cases hlive
      | succ tries =>
        cases hstep
        refine h.put hi trivial fun hlive => ?_
        by_cases hlocked : locked s.lockedUntil s.clock = true
        · exact .inr (h.lock hlocked)
        · left
          show (wrong && !locked s.lockedUntil s.clock) = true
          rw [Bool.not_eq_true] at hlocked
          rw [hlocked, Bool.not_false, Bool.and_true]
          exact hlive
    | updating wrong tries failedAttempts lockedUntil =>
      cases hstep
      by_cases hlocked : locked lockedUntil s.clock = true
      · rw [if_pos hlocked]
        refine h.put hi trivial fun hlive => ?_
        have hlive' : (wrong && !locked lockedUntil s.clock) = true := hlive
        rw [hlocked, Bool.not_true, Bool.and_false] at hlive'
        cases hlive'
      · rw [if_neg hlocked]
        have hunlocked : locked lockedUntil s.clock = false := Bool.not_eq_true _ ▸ hlocked
        exact h.put hi ⟨Int.le_refl _, hunlocked⟩ fun hlive => .inl (Attempt.waiting_of_live hlive)
    | comparing wrong tries failedAttempts lockedUntil now =>
      cases hstep
      exact h.increment hi horderly
    | succeeding =>
      cases hstep
      exact h.succeed hi
    | done => cases hstep

theorem Inv.step {a : Act} {t : State} (h : Inv s) (hcond : Orderly s a)
    (hstep : TwoFactor.step s a = some t) : Inv t := by
  cases a with
  | tick now =>
    unfold TwoFactor.step at hstep
    obtain ⟨hback, ⟨⟩⟩ := Option.ite_none_left_eq_some.mp hstep
    have hle : s.clock ≤ now := Int.not_lt.mp hback
    exact {
      room := by
        have hmono : s.live ≤ s.attempts.countP (Attempt.live now) :=
          List.countP_mono_left fun _ _ => Attempt.live_later hle
        exact Nat.le_trans h.room (Nat.add_le_add_left hmono _)
      bound := h.bound
      lock := fun hlocked => h.lock (locked_earlier hle hlocked)
      sound := fun attempt hmem => (h.sound attempt hmem).later hle
      wrong := h.wrong
      success := h.success
      nodup := h.nodup
      used := h.used }
  | load input =>
    cases hstep
    exact {
      room := by
        show fresh s.events ≤ min s.failedAttempts 4 +
          (s.attempts ++ [Attempt.loaded input s.lockedUntil]).countP (Attempt.live s.clock)
        have hbefore : fresh s.events ≤
          min s.failedAttempts 4 + s.attempts.countP (Attempt.live s.clock) := h.room
        rw [List.countP_append]
        omega
      bound := h.bound
      lock := h.lock
      sound := by
        intro attempt hmem
        obtain hmem | hmem := List.mem_append.mp hmem
        · exact h.sound attempt hmem
        · obtain rfl := List.mem_singleton.mp hmem
          exact fun _ _ hlocked => hlocked
      wrong := h.wrong
      success := h.success
      nodup := h.nodup
      used := h.used }
  | work i right => exact h.work hcond hstep

end Step

theorem inv_start {s : State} (hattempts : s.attempts = []) (hevents : s.events = []) : Inv s where
  room := by rw [hevents]; exact Nat.zero_le _
  bound := by rw [hevents]; exact Nat.zero_le _
  lock := by rw [hevents]; exact fun _ => rfl
  sound := by rw [hattempts]; simp
  wrong := by rw [hevents]; simp
  success := by rw [hevents]; simp
  nodup := by rw [hevents]; exact List.nodup_nil
  used := by rw [hevents]; intro _ h; cases h

/-- Attempts that keep out of each other's way are guarded against. -/
theorem guarded_of_orderly {s t : State} {acts : List Act} (hattempts : s.attempts = [])
    (hevents : s.events = []) (hmeets : Machine.Meets step Orderly s acts)
    (hrun : Machine.run step s acts = some t) : t.Guarded := by
  have hinv : Inv t := Machine.run_invariant Inv (fun _ _ _ => Inv.step) acts s t
    (inv_start hattempts hevents) hmeets hrun
  exact hinv.guarded

def start : State where
  clock := 1000
  failedAttempts := 1
  lockedUntil := none
  codes := [⟨7, "ABCD-1234", false⟩]
  attempts := []
  events := []

/-- One attempt after the other: a wrong code, then the backup code. -/
def inTurn : List Act :=
  [.load .numeric, .work 0 false, .work 0 false, .work 0 false, .work 0 false, .work 0 false,
    .tick 1060, .load (.backup "ABCD-1234"), .work 1 false, .work 1 false, .work 1 false,
    .work 1 false]

theorem inTurn_guarded : ∃ t, Machine.run step start inTurn = some t ∧
    t.events = [.success false, .accepted 7, .wrong false] ∧ t.Guarded := by
  have hruns : (Machine.run step start inTurn).map State.events =
      some [.success false, .accepted 7, .wrong false] := by rfl
  obtain ⟨t, hrun, hevents⟩ := Option.map_eq_some_iff.mp hruns
  exact ⟨t, hrun, hevents, guarded_of_orderly rfl rfl (by decide +kernel) hrun⟩

/-- Attempts that have all read the row before the first of them checks its code. -/
def loaded (attempts : Nat) : List Act :=
  List.replicate attempts (.load .numeric) ++
    (List.range attempts).map fun i => .work i false

def atOnce : List Act := loaded 6 ++ (List.range 6).map fun i => .work i false

/-- Four wrong codes are counted and lock the row; then an attempt that has read it before has its
right code accepted. -/
def lateSuccess : List Act :=
  loaded 5 ++ (List.range 4).flatMap (fun i => List.replicate 4 (.work i false)) ++
    [.work 4 true, .work 4 true]

theorem atOnce_not_guarded :
    (∃ t, Machine.run step start atOnce = some t ∧ fresh t.events = 6 ∧ ¬t.Guarded) ∧
    ∃ t, Machine.run step start lateSuccess = some t ∧ .success true ∈ t.events ∧
      t.failedAttempts = 0 ∧ t.lockedUntil = none ∧ ¬t.Guarded := by
  constructor
  · have hruns : (Machine.run step start atOnce).map (fun t => fresh t.events) = some 6 := by rfl
    obtain ⟨t, hrun, hsix⟩ := Option.map_eq_some_iff.mp hruns
    refine ⟨t, hrun, hsix, fun hguarded => ?_⟩
    have hle : fresh t.events ≤ 5 := hguarded.1
    omega
  · have hruns : (Machine.run step start lateSuccess).map
        (fun t => (t.events, t.failedAttempts, t.lockedUntil)) =
          some ([.success true, .lock, .wrong false, .wrong false, .wrong false, .wrong false],
            0, none) := by rfl
    obtain ⟨t, hrun, hend⟩ := Option.map_eq_some_iff.mp hruns
    obtain ⟨hevents, hfailed, hlocked⟩ := Prod.mk.inj hend |>.imp_right Prod.mk.inj
    have hmem : .success true ∈ t.events := by
      rw [hevents]
      exact List.mem_cons_self
    exact ⟨t, hrun, hmem, hfailed, hlocked, fun hguarded => hguarded.2.2.1 hmem⟩

/-! ### Backup codes, whatever the attempts do -/

section Codes

variable {s t : State} {i : Nat} {right : Bool}

/-- No backup code is accepted twice, and an accepted one stays used. -/
structure CodesOnce (s : State) : Prop where
  nodup : (accepted s.events).Nodup
  used : ∀ codeId ∈ accepted s.events, ∀ row ∈ s.codes, row.id = codeId → row.isUsed = true

theorem CodesOnce.mark {codeId : Int} (h : CodesOnce s) : CodesOnce (s.mark i codeId) := by
  unfold State.mark
  by_cases hany : (s.codes.any fun row => row.id = codeId && !row.isUsed) = true
  · rw [if_pos hany]
    obtain ⟨row, hrow, hunused⟩ := List.any_eq_true.mp hany
    rw [Bool.and_eq_true, decide_eq_true_eq, Bool.not_eq_true'] at hunused
    refine ⟨List.nodup_cons.mpr ⟨fun hmem => ?_, h.nodup⟩, fun usedId hmem row hrow hid => ?_⟩
    · have hused := h.used codeId hmem row hrow hunused.1
      exact absurd (hunused.2.symm.trans hused) Bool.false_ne_true
    · obtain ⟨row', hrow', rfl⟩ := List.mem_map.mp hrow
      by_cases hmatch : row'.id = codeId ∧ row'.isUsed = false
      · rw [if_pos hmatch]
      · rw [if_neg hmatch] at hid ⊢
        obtain rfl | hmem := List.mem_cons.mp hmem
        · by_contra hnot
          exact hmatch ⟨hid, Bool.not_eq_true _ ▸ hnot⟩
        · exact h.used usedId hmem row' hrow' hid
  · rw [if_neg hany]
    exact ⟨h.nodup, h.used⟩

/-- Only the update of a backup code touches the codes, or accepts one. -/
theorem work_codes (hstep : s.work i right = some t) : (∃ codeId, t = s.mark i codeId) ∨
    t.codes = s.codes ∧ accepted t.events = accepted s.events := by
  unfold State.work at hstep
  split at hstep
  · cases hstep
    split
    · exact .inr ⟨rfl, rfl⟩
    · split <;> exact .inr ⟨rfl, rfl⟩
  · rename_i input _ _
    cases hstep
    split
    · exact .inr ⟨rfl, rfl⟩
    · cases input with
      | numeric => cases right <;> exact .inr ⟨rfl, rfl⟩
      | backup code =>
        unfold State.check
        dsimp only
        split <;> exact .inr ⟨rfl, rfl⟩
      | malformed => exact .inr ⟨rfl, rfl⟩
  · exact .inl ⟨_, (Option.some.inj hstep).symm⟩
  · exact .inr (by rw [← Option.some.inj hstep]; exact ⟨rfl, rfl⟩)
  · exact .inr (by rw [← Option.some.inj hstep]; exact ⟨rfl, rfl⟩)
  · cases hstep
    split <;> exact .inr ⟨rfl, rfl⟩
  · cases hstep
    unfold State.increment
    split_ifs <;> exact .inr ⟨rfl, rfl⟩
  · exact .inr (by rw [← Option.some.inj hstep]; exact ⟨rfl, rfl⟩)
  · cases hstep
  · cases hstep

theorem CodesOnce.step {a : Act} (h : CodesOnce s) (hstep : TwoFactor.step s a = some t) :
    CodesOnce t := by
  cases a with
  | tick now =>
    simp only [TwoFactor.step] at hstep
    split_ifs at hstep
    cases hstep
    exact ⟨h.nodup, h.used⟩
  | load input =>
    cases hstep
    exact ⟨h.nodup, h.used⟩
  | work i right =>
    rcases work_codes hstep with ⟨codeId, rfl⟩ | ⟨hcodes, hevents⟩
    · exact h.mark
    · exact ⟨hevents ▸ h.nodup, by rw [hcodes, hevents]; exact h.used⟩

/-- However attempts interleave, a backup code is accepted once at most, and used from then on. -/
theorem backup_code_accepted_once {acts : List Act} (hevents : s.events = [])
    (hrun : Machine.run TwoFactor.step s acts = some t) :
    (accepted t.events).Nodup ∧
      ∀ codeId ∈ accepted t.events, ∀ row ∈ t.codes, row.id = codeId → row.isUsed = true := by
  have hstart : CodesOnce s := by
    constructor <;> rw [hevents]
    · exact List.nodup_nil
    · intro _ h
      cases h
  have h : CodesOnce t := Machine.run_preserves CodesOnce (fun _ _ _ => CodesOnce.step) hstart hrun
  exact ⟨h.nodup, h.used⟩

/-- Two attempts that have both found the code before either of them marks it. -/
def racing : List Act :=
  [.load (.backup "ABCD-1234"), .load (.backup "ABCD-1234"), .work 0 false, .work 1 false,
    .work 0 false, .work 1 false, .work 0 false, .work 1 false]

theorem backup_code_accepted_once_racing : ∃ t, Machine.run TwoFactor.step start racing = some t ∧
    accepted t.events = [7] ∧ (accepted t.events).Nodup := by
  have hruns : (Machine.run TwoFactor.step start racing).map (fun t => accepted t.events) =
      some [7] := by rfl
  obtain ⟨t, hrun, haccepted⟩ := Option.map_eq_some_iff.mp hruns
  exact ⟨t, hrun, haccepted, (backup_code_accepted_once rfl hrun).1⟩

end Codes

end JulongApi.TwoFactor

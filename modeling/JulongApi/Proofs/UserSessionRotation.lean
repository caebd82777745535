/-
A refresh hash is exchanged once for every time it is put in place, and a stolen one ends the session.

The row of a session is what its history makes of it (`Inv.rows`), so what has to be shown is which
histories there are (`Allowed`): a rotation finds its hash to be the current one, and a call that
revokes had read a row whose previous hash it holds.  After a rotation its hash is no longer the
current one, so before it is rotated again some call has put it back (`put_back`).  A call that has
read its hash as replayed goes on to revoke the session, whatever happens to the row meanwhile
(`revoked_of_seen`).
-/
import JulongApi.Lib.Pool
import JulongApi.UserSessionRotation

namespace JulongApi

open SessionEvent

variable {init : UserSessionTable} {history past : List SessionEvent} {e : SessionEvent}
  {row : UserSession} {sid : String}

variable {args : RotateArgs} {call : RotateCall}

variable {seen : UserSession}

namespace SessionEvent

/-! ### What a history makes of a row -/

@[simp] theorem replay_nil (row : UserSession) : replay [] row = row := rfl

@[simp] theorem replay_cons (e : SessionEvent) (history : List SessionEvent) (row : UserSession) :
    replay (e :: history) row = e.apply (replay history row) := rfl

theorem replay_append (later earlier : List SessionEvent) (row : UserSession) :
    replay (later ++ earlier) row = replay later (replay earlier row) :=
  List.foldr_append ..

theorem apply_of_sid (h : e.sid = row.sid) : e.apply row = e.write row := if_pos h

theorem apply_of_ne (h : e.sid ≠ row.sid) : e.apply row = row := if_neg h

theorem write_frame (e : SessionEvent) (row : UserSession) :
    (e.write row).sid = row.sid ∧ (e.write row).userID = row.userID ∧
      (e.write row).expiresAt = row.expiresAt ∧
      ((e.write row).status = row.status ∧ (e.write row).revokedAt = row.revokedAt ∨
        (e.write row).status = .revoked) := by
  cases e with
  | rotated args session => exact ⟨rfl, rfl, rfl, .inl ⟨rfl, rfl⟩⟩
  | reused args seen => exact ⟨rfl, rfl, rfl, .inr rfl⟩
  | revoked sid now reason => exact ⟨rfl, rfl, rfl, .inr rfl⟩

theorem apply_frame (e : SessionEvent) (row : UserSession) :
    (e.apply row).sid = row.sid ∧ (e.apply row).userID = row.userID ∧
      (e.apply row).expiresAt = row.expiresAt ∧
      ((e.apply row).status = row.status ∧ (e.apply row).revokedAt = row.revokedAt ∨
        (e.apply row).status = .revoked) := by
  unfold apply
  split
  · exact e.write_frame row
  · exact ⟨rfl, rfl, rfl, .inl ⟨rfl, rfl⟩⟩

theorem replay_frame (history : List SessionEvent) (row : UserSession) :
    (replay history row).sid = row.sid ∧ (replay history row).userID = row.userID ∧
      (replay history row).expiresAt = row.expiresAt ∧
      ((replay history row).status = row.status ∧ (replay history row).revokedAt = row.revokedAt ∨
        (replay history row).status = .revoked) := by
  induction history with
  | nil => exact ⟨rfl, rfl, rfl, .inl ⟨rfl, rfl⟩⟩
  | cons e history ih =>
    rw [replay_cons]
    obtain ⟨hsid, huser, hexpires, hstatus⟩ := ih
    obtain ⟨hsid', huser', hexpires', hstatus'⟩ := e.apply_frame (replay history row)
    refine ⟨hsid'.trans hsid, huser'.trans huser, hexpires'.trans hexpires, ?_⟩
    rcases hstatus' with ⟨hsame, hat⟩ | hrevoked
    · rcases hstatus with ⟨hsame', hat'⟩ | hrevoked
      · exact .inl ⟨hsame.trans hsame', hat.trans hat'⟩
      · exact .inr (hsame.trans hrevoked)
    · exact .inr hrevoked

theorem replay_of_revoked (h : row.status = .revoked) : (replay history row).status = .revoked := by
  rcases (replay_frame history row).2.2.2 with ⟨hsame, -⟩ | hrevoked
  · exact hsame.trans h
  · exact hrevoked

theorem replay_of_isActive {now : Int} (h : row.isActive now = true) :
    (replay history row).isActive now = true ∨ (replay history row).status = .revoked := by
  obtain ⟨-, -, hexpires, ⟨hsame, hat⟩ | hrevoked⟩ := replay_frame history row
  · left
    unfold UserSession.isActive at h ⊢
    rwa [hexpires, hsame, hat]
  · exact .inr hrevoked

theorem replay_of_revokes (he : e ∈ history) (hrevokes : e.Revokes row.sid) :
    (replay history row).status = .revoked := by
  obtain ⟨later, earlier, rfl⟩ := List.append_of_mem he
  rw [replay_append, replay_cons]
  refine replay_of_revoked ?_
  have hsid := (replay_frame earlier row).1
  cases e with
  | rotated args session => exact hrevokes.elim
  | reused args seen =>
    rw [apply_of_sid (e := reused args seen) (hrevokes.trans hsid.symm)]
    rfl
  | revoked sid now reason =>
    rw [apply_of_sid (e := revoked sid now reason) (hrevokes.trans hsid.symm)]
    rfl

/-! ### Histories -/

def rowAt (init : UserSessionTable) (history : List SessionEvent) (sid : String) :
    Option UserSession :=
  (init.find sid).map (replay history)

theorem sid_of_rowAt (h : rowAt init history sid = some row) : row.sid = sid := by
  obtain ⟨row₀, hrow₀, rfl⟩ := Option.map_eq_some_iff.mp h
  exact (replay_frame history row₀).1.trans (Table.key_of_find hrow₀)

/-- A call has read a row that shows its hash to be replayed. -/
def Seen (init : UserSessionTable) (history : List SessionEvent) (args : RotateArgs)
    (seen : UserSession) : Prop :=
  ∃ past row, past <:+ history ∧ rowAt init past args.sid = some row ∧ seen = row.afterFind ∧
    args.isOf row = true ∧ row.isActive args.now = true ∧ args.Replays seen

def Allowed (init : UserSessionTable) (history : List SessionEvent) : SessionEvent → Prop
  | rotated args _ => ∃ row, rowAt init history args.sid = some row ∧ args.canRotate row = true
  | reused args seen => Seen init history args seen
  | revoked _ _ _ => True

theorem Seen.cons (h : Seen init history args seen) (e : SessionEvent) :
    Seen init (e :: history) args seen := by
  obtain ⟨past, row, hpast, hrest⟩ := h
  exact ⟨past, row, hpast.trans (List.suffix_cons e history), hrest⟩

/-- A hash that has become the current one was put in its place by a rotation. -/
theorem put_back {hash : String} : ∀ {between : List SessionEvent},
    (replay between row).refreshHash = hash → row.refreshHash ≠ hash →
      ∃ args session, rotated args session ∈ between ∧ args.sid = row.sid ∧
        args.nextHash = hash := by
  intro between
  induction between with
  | nil => exact fun h hne => absurd h hne
  | cons e between ih =>
    intro h hne
    by_cases hbefore : (replay between row).refreshHash = hash
    · obtain ⟨args, session, hmem, hrest⟩ := ih hbefore hne
      exact ⟨args, session, List.mem_cons_of_mem e hmem, hrest⟩
    · rw [replay_cons, apply] at h
      split at h
      next hsid =>
        rw [(replay_frame between row).1] at hsid
        cases e with
        | rotated args session => exact ⟨args, session, List.mem_cons_self .., hsid, h⟩
        | reused args seen => exact absurd h hbefore
        | revoked sid now reason => exact absurd h hbefore
      · exact absurd h hbefore

end SessionEvent

/-! ### Calls -/

/-- What `RotateUserSessionRefresh` asks of the two hashes. -/
def RotateArgs.Valid (args : RotateArgs) : Prop :=
  args.presentedHash ≠ "" ∧ args.presentedHash ≠ args.nextHash

def RotateCall.Inv (init : UserSessionTable) (history : List SessionEvent) (call : RotateCall) :
    Prop :=
  match call.stage with
  | .reading _ => call.args.Valid ∧ ¬call.Late
  | .updating _ session => call.args.Valid ∧ ¬call.Late ∧ session.sid = call.args.sid
  | .caching session | .confirming session =>
    ¬call.Late ∧ session.sid = call.args.sid ∧ ∃ read, rotated call.args read ∈ history
  | .done (.rotated _) => ¬call.Late
  | .fencing session | .revoking session => Seen init history call.args session
  | .done .failed => True
  | .finishing | .done _ =>
    call.Late → ∃ row, rowAt init history call.args.sid = some row ∧ row.status = .revoked

theorem RotateCall.Inv.cons (h : call.Inv init history) (e : SessionEvent) :
    call.Inv init (e :: history) := by
  have hrotated : (∃ read, rotated call.args read ∈ history) →
      ∃ read, rotated call.args read ∈ e :: history :=
    fun ⟨read, hmem⟩ => ⟨read, List.mem_cons_of_mem e hmem⟩
  have hrevoked : (call.Late →
        ∃ row, rowAt init history call.args.sid = some row ∧ row.status = .revoked) →
      call.Late →
        ∃ row, rowAt init (e :: history) call.args.sid = some row ∧ row.status = .revoked := by
    intro hend hlate
    obtain ⟨row, hrow, hstatus⟩ := hend hlate
    obtain ⟨row₀, hrow₀, rfl⟩ := Option.map_eq_some_iff.mp hrow
    refine ⟨_, Option.map_eq_some_iff.mpr ⟨row₀, hrow₀, rfl⟩, ?_⟩
    exact (replay_of_revoked hstatus : (replay [e] _).status = .revoked)
  unfold RotateCall.Inv at h ⊢
  cases hstage : call.stage with
  | reading retries => simpa only [hstage] using h
  | updating retries session => simpa only [hstage] using h
  | caching session =>
    simp only [hstage] at h ⊢
    exact ⟨h.1, h.2.1, hrotated h.2.2⟩
  | confirming session =>
    simp only [hstage] at h ⊢
    exact ⟨h.1, h.2.1, hrotated h.2.2⟩
  | fencing session =>
    simp only [hstage] at h ⊢
    exact h.cons e
  | revoking session =>
    simp only [hstage] at h ⊢
    exact h.cons e
  | finishing =>
    simp only [hstage] at h ⊢
    exact hrevoked h
  | done outcome =>
    cases outcome with
    | rotated session => simpa only [hstage] using h
    | failed => trivial
    | _ =>
      simp only [hstage] at h ⊢
      exact hrevoked h

/-- The stages of a call that need not have read a session. -/
def RotateStage.Unread : RotateStage → Prop
  | .reading _ | .done .invalid | .done .notFound | .done .failed => True
  | _ => False

/-- What a call has seen of its session is the row at an earlier time. -/
def RotateCall.HasRead (init : UserSessionTable) (history : List SessionEvent)
    (call : RotateCall) : Prop :=
  ∃ session past row, call.seen = some session ∧ past <:+ history ∧
    rowAt init past call.args.sid = some row ∧ session = row.afterFind

theorem RotateCall.HasRead.cons (h : call.HasRead init history) (e : SessionEvent) :
    call.HasRead init (e :: history) := by
  obtain ⟨session, past, row, hseen, hpast, hrest⟩ := h
  exact ⟨session, past, row, hseen, hpast.trans (List.suffix_cons e history), hrest⟩

namespace RotationSystem

variable {s t : RotationSystem} {a : RotationAct}

/-- A call that returned success had rotated, and the session was not revoked then if the call had
to look. -/
def Succeeded (r : RotateSuccess) : Prop :=
  (∃ read, rotated r.args read ∈ r.before) ∧ r.cache ≠ .inactive ∧
    (r.cache = .stale → ∀ e ∈ r.before, ¬e.Revokes r.args.sid)

structure Inv (init : UserSessionTable) (s : RotationSystem) : Prop where
  rows : ∀ sid, s.sessions.find sid = rowAt init s.history sid
  allowed : ∀ e earlier, e :: earlier <:+ s.history → Allowed init earlier e
  changed : ∀ args session, rotated args session ∈ s.history → args.presentedHash ≠ args.nextHash
  calls : ∀ call ∈ s.calls, call.Inv init s.history
  read : ∀ call ∈ s.calls, call.HasRead init s.history ∨ call.stage.Unread
  successes : ∀ r ∈ s.successes, Succeeded r
  recorded : ∀ call ∈ s.calls, ∀ session, call.stage = .done (.rotated session) →
    ∃ r ∈ s.successes, r.args = call.args

theorem inv_idle : (idle init).Inv init where
  rows := fun sid => by simp [idle, rowAt, show replay [] = id from rfl]
  allowed := by simp [idle]
  changed := by simp [idle]
  calls := by simp [idle]
  read := by simp [idle]
  successes := by simp [idle]
  recorded := by simp [idle]

/-! ### The statements -/

theorem write_cases (s : RotationSystem) (e : SessionEvent) (guard : UserSession → Bool) :
    (∃ row sessions, s.sessions.find e.sid = some row ∧ guard row = true ∧
      s.write e guard = (true, { s with sessions := sessions, history := e :: s.history }) ∧
      ∀ sid, sessions.find sid = (s.sessions.find sid).map e.apply) ∨
    (s.write e guard = (false, s) ∧ ∀ row, s.sessions.find e.sid = some row → guard row = false) := by
  have hsid : ∀ row, (e.write row).sid = row.sid := fun row => (e.write_frame row).1
  rcases s.sessions.update_cases e.sid guard e.write with ⟨row, hfind, hguard, heq⟩ | ⟨hnone, heq⟩
  · refine .inl ⟨row, _, hfind, hguard, by simp only [write, heq, if_true]; rfl, fun sid => ?_⟩
    have hupdate := s.sessions.find_update e.sid sid guard hsid
    rw [heq] at hupdate
    rw [hupdate]
    by_cases hk : sid = e.sid
    · subst hk
      rw [if_pos rfl, hfind, Option.map_some, Option.map_some, if_pos hguard]
      rw [apply_of_sid (Table.key_of_find hfind).symm]
    · rw [if_neg hk]
      cases hother : s.sessions.find sid with
      | none => rfl
      | some other =>
        rw [Option.map_some, apply_of_ne]
        rw [Table.key_of_find hother]
        exact Ne.symm hk
  · exact .inr ⟨by simp [write, heq], hnone⟩

theorem Inv.write (h : s.Inv init) {sessions : UserSessionTable}
    (hfind : ∀ sid, sessions.find sid = (s.sessions.find sid).map e.apply)
    (hallowed : Allowed init s.history e)
    (hchanged : ∀ args session, e = rotated args session → args.presentedHash ≠ args.nextHash) :
    Inv init { s with sessions := sessions, history := e :: s.history } where
  rows := fun sid => by
    rw [hfind sid, h.rows sid]
    unfold rowAt
    rw [Option.map_map]
    rfl
  allowed := fun e' earlier hsuffix => by
    rcases List.suffix_cons_iff.mp hsuffix with heq | hold
    · obtain ⟨rfl, rfl⟩ := List.cons.inj heq
      exact hallowed
    · exact h.allowed e' earlier hold
  changed := fun args session hmem => by
    rcases List.mem_cons.mp hmem with heq | hold
    · exact hchanged args session heq.symm
    · exact h.changed args session hold
  calls := fun call hcall => (h.calls call hcall).cons e
  read := fun call hcall => (h.read call hcall).imp_left fun hread => hread.cons e
  successes := h.successes
  recorded := h.recorded

variable {i : Nat} {session : UserSession} {earlier : List SessionEvent}

theorem Inv.goOn (h : s.Inv init) (stage : RotateStage)
    (hcall : RotateCall.Inv init s.history { call with stage := stage })
    (hread : call.HasRead init s.history ∨ stage.Unread)
    (hstage : ∀ session, stage ≠ .done (.rotated session)) : (s.goOn i call stage).Inv init where
  rows := h.rows
  allowed := h.allowed
  changed := h.changed
  calls := fun other hother => by
    rcases Pool.mem_set_cases hother with rfl | ⟨k, -, hold⟩
    · exact hcall
    · exact h.calls other (List.mem_of_getElem? hold)
  read := fun other hother => by
    rcases Pool.mem_set_cases hother with rfl | ⟨k, -, hold⟩
    · exact hread
    · exact h.read other (List.mem_of_getElem? hold)
  successes := h.successes
  recorded := fun other hother session hrotated => by
    rcases Pool.mem_set_cases hother with rfl | ⟨k, -, hold⟩
    · exact absurd hrotated (hstage session)
    · exact h.recorded other (List.mem_of_getElem? hold) session hrotated

variable {cache : SessionCacheReply} {clock : Int}

theorem Inv.succeed (h : s.Inv init) (hlate : ¬call.Late) (hread : call.HasRead init s.history)
    (hsucceeded : Succeeded ⟨call.args, cache, s.history⟩) :
    (s.succeed i call session cache).Inv init where
  rows := h.rows
  allowed := h.allowed
  changed := h.changed
  calls := fun other hother => by
    rcases Pool.mem_set_cases hother with rfl | ⟨k, -, hold⟩
    · exact hlate
    · exact h.calls other (List.mem_of_getElem? hold)
  read := fun other hother => by
    rcases Pool.mem_set_cases hother with rfl | ⟨k, -, hold⟩
    · exact .inl hread
    · exact h.read other (List.mem_of_getElem? hold)
  successes := List.forall_mem_cons.mpr ⟨hsucceeded, h.successes⟩
  recorded := fun other hother session' hrotated => by
    rcases Pool.mem_set_cases hother with rfl | ⟨k, -, hold⟩
    · exact ⟨_, List.mem_cons_self .., rfl⟩
    · obtain ⟨r, hr, hargs⟩ := h.recorded other (List.mem_of_getElem? hold) session' hrotated
      exact ⟨r, List.mem_cons_of_mem _ hr, hargs⟩

/-- Where a call goes on that has read its session. -/
theorem inv_classify (retries : Nat) (hvalid : args.Valid)
    (hrow : rowAt init history args.sid = some row) (hof : args.isOf row = true) :
    RotateCall.Inv init history
      ⟨args, classify args retries row.afterFind, some row.afterFind⟩ := by
  have hlate : ∀ {stage}, RotateCall.Late ⟨args, stage, some row.afterFind⟩ →
      row.afterFind.isActive args.now = true ∧ args.Replays row.afterFind := by
    rintro stage ⟨session, hseen, hactive, hreplays⟩
    cases hseen
    exact ⟨hactive, hreplays⟩
  unfold classify
  by_cases hactive : row.afterFind.isActive args.now = true
  · rw [if_neg (by simp [hactive])]
    by_cases hcurrent : row.afterFind.refreshHash = args.presentedHash
    · rw [if_pos hcurrent]
      exact ⟨hvalid, fun hl => (hlate hl).2.1 hcurrent, (sid_of_rowAt hrow : row.sid = args.sid)⟩
    rw [if_neg hcurrent]
    by_cases hprevious : row.afterFind.previousRefreshHash = "" ∨
        row.afterFind.previousRefreshHash ≠ args.presentedHash
    · rw [if_pos hprevious]
      intro hl
      have hsame := (hlate hl).2.2.1
      rcases hprevious with hempty | hother
      · exact absurd (hsame.symm.trans hempty) hvalid.1
      · exact absurd hsame hother
    rw [if_neg hprevious]
    rw [not_or, not_not] at hprevious
    by_cases hgrace : args.now ≤ row.afterFind.previousValidUntil
    · rw [if_pos hgrace]
      exact fun hl => absurd (hlate hl).2.2.2 (Int.not_lt.mpr hgrace)
    · rw [if_neg hgrace]
      exact ⟨history, row, List.suffix_rfl, hrow, rfl, hof, hactive, hcurrent, hprevious.2,
        Int.not_le.mp hgrace⟩
  · rw [if_pos (by simp [hactive])]
    exact fun hl => absurd (hlate hl).1 hactive

theorem revoked_of_seen (hseen : Seen init history args seen)
    (hguard : ∀ row, rowAt init history args.sid = some row →
      (args.isOf row && row.isActive args.now) = false) :
    ∃ row, rowAt init history args.sid = some row ∧ row.status = .revoked := by
  obtain ⟨past, row, ⟨later, rfl⟩, hrow, -, hof, hactive, -⟩ := hseen
  obtain ⟨row₀, hrow₀, rfl⟩ := Option.map_eq_some_iff.mp hrow
  have hnow : rowAt init (later ++ past) args.sid = some (replay later (replay past row₀)) := by
    unfold rowAt
    rw [hrow₀, Option.map_some, replay_append]
  refine ⟨_, hnow, ?_⟩
  have hcases : (replay later (replay past row₀)).isActive args.now = true ∨
      (replay later (replay past row₀)).status = .revoked := replay_of_isActive hactive
  rcases hcases with hstill | hrevoked
  · have hblocked := hguard _ hnow
    unfold RotateArgs.isOf at hof hblocked
    rw [(replay_frame later _).2.1, hof, hstill] at hblocked
    exact absurd hblocked (by decide)
  · exact hrevoked

/-- A session whose row is active was not revoked. -/
theorem not_revokes (h : s.Inv init) (hconfirms : s.confirms session clock = true) :
    ∀ e ∈ s.history, ¬e.Revokes session.sid := by
  intro e he hrevokes
  obtain ⟨row, hmem, hrow⟩ := List.any_eq_true.mp hconfirms
  rw [Bool.and_eq_true, decide_eq_true_eq] at hrow
  have hfind := h.rows row.sid ▸ Table.find_of_mem hmem
  obtain ⟨row₀, hrow₀, rfl⟩ := Option.map_eq_some_iff.mp hfind
  have hsid := (replay_frame s.history row₀).1
  have hstatus : (replay s.history row₀).status = .revoked :=
    replay_of_revokes he (hsid ▸ hrow.1.1 ▸ hrevokes)
  rw [UserSession.not_isActive hstatus] at hrow
  simp at hrow

/-! ### One step -/

/-- The conditional update of a rotation. -/
theorem Inv.update (h : s.Inv init) {dbOk : Bool} {retries : Nat} {seen : Option UserSession}
    (hcall : RotateCall.Inv init s.history ⟨args, .updating retries session, seen⟩)
    (hread : ∀ {stage}, RotateCall.HasRead init s.history ⟨args, stage, seen⟩)
    (hstep : s.advance i dbOk cache clock ⟨args, .updating retries session, seen⟩ = some t) :
    t.Inv init := by
  obtain ⟨hvalid, hlate, hsid⟩ : args.Valid ∧ _ := hcall
  dsimp only [RotationSystem.advance] at hstep
  split at hstep
  · cases hstep
    exact h.goOn (.done .failed) trivial (.inr trivial) (by simp)
  rcases s.write_cases (.rotated args session) args.canRotate with
    ⟨row, sessions, hfind, hguard, heq, hfind'⟩ | ⟨heq, -⟩
  · rw [heq] at hstep
    cases hstep
    have hallowed : Allowed init s.history (.rotated args session) :=
      ⟨row, h.rows args.sid ▸ hfind, hguard⟩
    refine (h.write hfind' hallowed ?_).goOn _ ?_ (.inl (hread.cons _)) (by simp)
    · intro args' session' hevent
      obtain ⟨rfl, -⟩ := SessionEvent.rotated.inj hevent
      exact hvalid.2
    · exact ⟨hlate, hsid, session, List.mem_cons_self ..⟩
  · rw [heq] at hstep
    cases hstep
    cases retries with
    | zero =>
      exact h.goOn (.done .refreshInvalid) (fun hl => absurd hl hlate)
        (.inl hread) (by simp)
    | succ retries =>
      exact h.goOn (.reading retries) ⟨hvalid, hlate⟩ (.inr trivial) (by simp)

/-- The conditional update of a revocation. -/
theorem Inv.revoke (h : s.Inv init) {dbOk : Bool} {seen : Option UserSession}
    (hseen : Seen init s.history args session)
    (hread : ∀ {stage}, RotateCall.HasRead init s.history ⟨args, stage, seen⟩)
    (hstep : s.advance i dbOk cache clock ⟨args, .revoking session, seen⟩ = some t) :
    t.Inv init := by
  dsimp only [RotationSystem.advance] at hstep
  split at hstep
  · cases hstep
    exact h.goOn (.done .failed) trivial (.inr trivial) (by simp)
  rcases s.write_cases (.reused args session)
    (fun row => args.isOf row && row.isActive args.now) with
    ⟨row, sessions, hfind, hguard, heq, hfind'⟩ | ⟨heq, hblocked⟩
  · rw [heq] at hstep
    cases hstep
    refine (h.write hfind' hseen (by simp)).goOn (.finishing) (fun _ => ?_)
      (.inl (hread.cons _)) (by simp)
    have hrow : rowAt init s.history args.sid = some row := h.rows args.sid ▸ hfind
    obtain ⟨row₀, hrow₀, rfl⟩ := Option.map_eq_some_iff.mp hrow
    refine ⟨_, Option.map_eq_some_iff.mpr ⟨row₀, hrow₀, rfl⟩, ?_⟩
    exact replay_of_revokes (List.mem_cons_self ..) (Table.key_of_find hrow₀).symm
  · rw [heq] at hstep
    cases hstep
    refine h.goOn (.done .inactive) (fun _ => revoked_of_seen hseen ?_)
      (.inl hread) (by simp)
    exact fun row hrow => hblocked row (h.rows args.sid ▸ hrow)

theorem Inv.advance (h : s.Inv init) {dbOk : Bool} (hi : s.calls[i]? = some call)
    (hstep : s.advance i dbOk cache clock call = some t) : t.Inv init := by
  have hmem : call ∈ s.calls := List.mem_of_getElem? hi
  have hcall := h.calls call hmem
  have hread := h.read call hmem
  obtain ⟨args, stage, seen⟩ := call
  have hread' : ¬stage.Unread → ∀ next, RotateCall.HasRead init s.history ⟨args, next, seen⟩ :=
    fun hstage _ => hread.resolve_right hstage
  cases stage with
  | reading retries =>
    obtain ⟨hvalid, hlate⟩ : args.Valid ∧ _ := hcall
    dsimp only [RotationSystem.advance] at hstep
    split at hstep
    · cases hstep
      exact h.goOn (.done .failed) trivial (.inr trivial) (by simp)
    · cases hstep
      exact h.goOn (.done .notFound) (fun hl => absurd hl hlate) (.inr trivial) (by simp)
    next row hfound =>
    have hrow : rowAt init s.history args.sid = some row := by
      rw [← h.rows]
      split at hfound
      · exact Option.some.inj hfound
      · simp at hfound
    split at hstep
    · cases hstep
      exact h.goOn (.done .notFound) (fun hl => absurd hl hlate) (.inr trivial) (by simp)
    next hof =>
    rw [Bool.not_eq_true, Bool.not_eq_false'] at hof
    cases hstep
    refine h.goOn _ (inv_classify retries hvalid hrow hof)
      (.inl ⟨_, s.history, row, rfl, List.suffix_rfl, hrow, rfl⟩) ?_
    intro session
    unfold classify
    split
    · simp
    split
    · simp
    split
    · simp
    · split <;> simp
  | updating retries session => exact h.update hcall (hread' id _) hstep
  | caching session =>
    obtain ⟨hlate, hsid, hrotated⟩ : _ ∧ session.sid = args.sid ∧ _ := hcall
    dsimp only [RotationSystem.advance] at hstep
    split at hstep
    · cases hstep
      exact h.goOn (.confirming session) ⟨hlate, hsid, hrotated⟩ (.inl (hread' id _))
        (by simp)
    · cases hstep
      exact h.goOn (.done .inactive) (fun hl => absurd hl hlate) (.inl (hread' id _))
        (by simp)
    next hstale hinactive =>
      cases hstep
      exact h.succeed hlate (hread' id _)
        ⟨hrotated, hinactive, fun hcache => absurd hcache hstale⟩
  | confirming session =>
    obtain ⟨hlate, hsid, hrotated⟩ : _ ∧ session.sid = args.sid ∧ _ := hcall
    dsimp only [RotationSystem.advance] at hstep
    split at hstep
    · cases hstep
      exact h.goOn (.done .failed) trivial (.inr trivial) (by simp)
    split at hstep
    next hconfirms =>
      cases hstep
      refine h.succeed hlate (hread' id _) ⟨hrotated, by simp, fun _ => ?_⟩
      exact hsid ▸ not_revokes h hconfirms
    · cases hstep
      exact h.goOn (.done .inactive) (fun hl => absurd hl hlate) (.inl (hread' id _))
        (by simp)
  | fencing session =>
    dsimp only [RotationSystem.advance] at hstep
    split at hstep
    · cases hstep
      exact h.goOn (.revoking session) hcall (.inl (hread' id _)) (by simp)
    · cases hstep
      exact h.goOn (.done .failed) trivial (.inr trivial) (by simp)
  | revoking session => exact h.revoke hcall (hread' id _) hstep
  | finishing =>
    dsimp only [RotationSystem.advance] at hstep
    cases hstep
    exact h.goOn (.done .refreshReuse) hcall (.inl (hread' id _)) (by simp)
  | done outcome => simp [RotationSystem.advance] at hstep

theorem inv_newCall (userID : Int) (sid presentedHash nextHash : String) (now grace clock : Int) :
    (newCall userID sid presentedHash nextHash now grace clock).Inv init history ∧
      (newCall userID sid presentedHash nextHash now grace clock).stage.Unread := by
  have hlate : ∀ {args : RotateArgs} {stage : RotateStage},
      ¬RotateCall.Late ⟨args, stage, none⟩ := by
    rintro args stage ⟨session, hseen, -⟩
    cases hseen
  unfold newCall
  dsimp only
  split
  · exact ⟨fun hl => absurd hl hlate, trivial⟩
  next hvalid =>
  split
  · exact ⟨fun hl => absurd hl hlate, trivial⟩
  · refine ⟨⟨⟨fun heq => ?_, fun heq => ?_⟩, hlate⟩, trivial⟩
    · exact hvalid (.inr (.inr (.inl heq)))
    · exact hvalid (.inr (.inr (.inr (.inr heq))))

theorem inv_step (h : s.Inv init) (hstep : step s a = some t) : t.Inv init := by
  cases a with
  | rotate userID sid presentedHash nextHash now grace clock =>
    cases hstep
    obtain ⟨hcall, hunread⟩ :=
      @inv_newCall init s.history userID sid presentedHash nextHash now grace clock
    refine ⟨h.rows, h.allowed, h.changed, ?_, ?_, h.successes, ?_⟩
    · exact List.forall_mem_append.mpr ⟨h.calls, List.forall_mem_singleton.mpr hcall⟩
    · exact List.forall_mem_append.mpr ⟨h.read, List.forall_mem_singleton.mpr (.inr hunread)⟩
    · refine List.forall_mem_append.mpr ⟨h.recorded, List.forall_mem_singleton.mpr ?_⟩
      intro session hrotated
      rw [hrotated] at hunread
      exact hunread.elim
  | advance i dbOk cache clock =>
    simp only [step] at hstep
    split at hstep
    next call hcall => exact h.advance hcall hstep
    · simp at hstep
  | revoke sid now reason =>
    cases hstep
    rcases s.write_cases (.revoked sid now reason) (fun row => decide (row.status = .active)) with
      ⟨row, sessions, -, -, heq, hfind'⟩ | ⟨heq, -⟩
    · rw [heq]
      exact h.write hfind' trivial (by simp)
    · rw [heq]
      exact h

/-! ### What is to be shown -/

structure Safe (init : UserSessionTable) (s : RotationSystem) (sid : String) : Prop where
  /-- the row is what the history says -/
  row : s.sessions.find sid = (init.find sid).map (replay s.history)
  /-- a hash that was rotated is rotated again only when a call has put it back in between -/
  once : ∀ args session between args' session' earlier,
    rotated args session :: (between ++ rotated args' session' :: earlier) <:+ s.history →
    args.sid = sid → args'.sid = sid → args'.presentedHash = args.presentedHash →
    ∃ back read, rotated back read ∈ between ∧ back.sid = sid ∧ back.nextHash = args.presentedHash
  /-- a call that rotates holds the current hash of a session that is active, -/
  rotates : ∀ args session earlier, rotated args session :: earlier <:+ s.history →
    args.sid = sid → ∃ row, (init.find sid).map (replay earlier) = some row ∧
      row.refreshHash = args.presentedHash ∧ row.isActive args.now = true
  /-- and one that revokes had read a row whose previous hash it holds after the grace period -/
  revokes : ∀ args seen earlier, reused args seen :: earlier <:+ s.history → args.sid = sid →
    ∃ past row, past <:+ earlier ∧ (init.find sid).map (replay past) = some row ∧
      seen = row.afterFind ∧ args.Replays seen
  /-- a call that has come to an end has read the row, unless it was refused or failed; -/
  read : ∀ call ∈ s.calls, call.args.sid = sid → ∀ outcome, call.stage = .done outcome →
    outcome = .invalid ∨ outcome = .notFound ∨ outcome = .failed ∨
      ∃ session past row, call.seen = some session ∧ past <:+ s.history ∧
        (init.find sid).map (replay past) = some row ∧ session = row.afterFind
  /-- and if the session it read was active, and its hash the previous one after the grace period,
  then the session is revoked, unless the call failed -/
  replayed : ∀ call ∈ s.calls, call.args.sid = sid → call.Late →
    ∀ outcome, call.stage = .done outcome → outcome ≠ .failed →
      ∃ row, s.sessions.find sid = some row ∧ row.status = .revoked
  /-- a call that succeeds has rotated before, and the session was not revoked by then if the cache
  had made the call look -/
  succeeded : ∀ call ∈ s.calls, call.args.sid = sid → ∀ session,
    call.stage = .done (.rotated session) → ∃ r ∈ s.successes, r.args = call.args
  successes : ∀ r ∈ s.successes, r.args.sid = sid →
    (∃ read, rotated r.args read ∈ r.before) ∧ r.cache ≠ .inactive ∧
      (r.cache = .stale → ∀ e ∈ r.before, ¬e.Revokes sid)
  /-- and none rotates once the session is revoked -/
  final : ∀ args session earlier, rotated args session :: earlier <:+ s.history →
    args.sid = sid → ∀ e ∈ earlier, ¬e.Revokes sid

theorem Inv.rotates (h : s.Inv init) (hsuffix : rotated args session :: earlier <:+ s.history) :
    ∃ row, rowAt init earlier args.sid = some row ∧ row.refreshHash = args.presentedHash ∧
      row.isActive args.now = true := by
  obtain ⟨row, hrow, hguard⟩ := h.allowed _ _ hsuffix
  simp only [RotateArgs.canRotate, Bool.and_eq_true, decide_eq_true_eq] at hguard
  exact ⟨row, hrow, hguard.2, hguard.1.2⟩

theorem Inv.final (h : s.Inv init) (hsuffix : rotated args session :: earlier <:+ s.history) :
    ∀ e ∈ earlier, ¬e.Revokes args.sid := by
  intro e he hrevokes
  obtain ⟨row, hrow, -, hactive⟩ := h.rotates hsuffix
  obtain ⟨row₀, hrow₀, rfl⟩ := Option.map_eq_some_iff.mp hrow
  have hstatus := replay_of_revokes he ((Table.key_of_find hrow₀).symm ▸ hrevokes)
  rw [UserSession.not_isActive hstatus] at hactive
  simp at hactive

theorem Inv.once (h : s.Inv init) {args' : RotateArgs} {session' : UserSession}
    {between : List SessionEvent}
    (hsuffix : rotated args session :: (between ++ rotated args' session' :: earlier) <:+ s.history)
    (hsid : args'.sid = args.sid) (hhash : args'.presentedHash = args.presentedHash) :
    ∃ back read, rotated back read ∈ between ∧ back.sid = args.sid ∧
      back.nextHash = args.presentedHash := by
  obtain ⟨row, hrow, hcurrent, -⟩ := h.rotates hsuffix
  obtain ⟨row₀, hrow₀, rfl⟩ := Option.map_eq_some_iff.mp hrow
  rw [replay_append] at hcurrent
  have hsid₀ : (replay earlier row₀).sid = args.sid :=
    (replay_frame earlier row₀).1.trans (Table.key_of_find hrow₀)
  have hafter : (replay (rotated args' session' :: earlier) row₀).refreshHash = args'.nextHash := by
    rw [replay_cons, apply_of_sid (e := rotated args' session') (hsid.trans hsid₀.symm)]
    rfl
  have hmem : rotated args' session' ∈ s.history :=
    hsuffix.subset (List.mem_cons_of_mem _ (List.mem_append_right _ (List.mem_cons_self ..)))
  have hgone : (replay (rotated args' session' :: earlier) row₀).refreshHash ≠
      args.presentedHash := by
    rw [hafter, ← hhash]
    exact (h.changed args' session' hmem).symm
  obtain ⟨back, read, hback, hbsid, hnext⟩ := put_back hcurrent hgone
  have hrowsid := (replay_frame (rotated args' session' :: earlier) row₀).1
  exact ⟨back, read, hback, hbsid.trans (hrowsid.trans (Table.key_of_find hrow₀)), hnext⟩

theorem Inv.safe (h : s.Inv init) (sid : String) : s.Safe init sid where
  row := h.rows sid
  once := by
    rintro args session between args' session' earlier hsuffix rfl hsid hhash
    exact h.once hsuffix hsid hhash
  rotates := by
    rintro args session earlier hsuffix rfl
    exact h.rotates hsuffix
  revokes := by
    rintro args seen earlier hsuffix rfl
    obtain ⟨past, row, hpast, hrow, hread, -, -, hreplays⟩ := h.allowed _ _ hsuffix
    exact ⟨past, row, hpast, hrow, hread, hreplays⟩
  read := by
    rintro call hcall rfl outcome hstage
    rcases h.read call hcall with hread | hunread
    · exact .inr (.inr (.inr hread))
    · rw [hstage] at hunread
      cases outcome with
      | invalid => exact .inl rfl
      | notFound => exact .inr (.inl rfl)
      | failed => exact .inr (.inr (.inl rfl))
      | _ => exact hunread.elim
  replayed := by
    rintro call hcall rfl hlate outcome hstage hfailed
    have hinv := h.calls call hcall
    unfold RotateCall.Inv at hinv
    rw [hstage] at hinv
    rw [h.rows]
    cases outcome with
    | failed => exact absurd rfl hfailed
    | rotated session => exact absurd hlate hinv
    | _ => exact hinv hlate
  succeeded := fun call hcall _ session hstage => h.recorded call hcall session hstage
  successes := by
    rintro r hr rfl
    exact h.successes r hr
  final := by
    rintro args session earlier hsuffix rfl
    exact h.final hsuffix

/--
However the calls that refresh a session interleave: a hash is rotated once for every time it is put
in place; a hash that is neither the current nor the previous one does nothing; and one that is
presented after its grace period ends the session.
-/
theorem rotation_safe {acts : List RotationAct}
    (hrun : Machine.run step (idle init) acts = some s) (sid : String) : s.Safe init sid :=
  (Machine.run_preserves (Inv init) (fun _ _ _ => inv_step) inv_idle hrun).safe sid

def sampleSession : UserSession where
  sid := "s1"
  userID := 7
  version := 1
  userAuthVersion := 1
  status := .active
  refreshHash := "h0"
  previousRefreshHash := ""
  previousValidUntil := 0
  loginMethod := "password"
  ip := ""
  userAgent := ""
  deviceID := ""
  createdAt := 1
  lastActiveAt := 1
  expiresAt := 1000
  revokedAt := 0
  revokedReason := ""

def sampleSessions : UserSessionTable := ⟨[sampleSession], List.nodup_singleton _⟩

/-- A call at `now`, which rotates where the hash is the current one and has no grace to give. -/
def presents (presentedHash nextHash : String) (now : Int) : RotationAct :=
  .rotate 7 "s1" presentedHash nextHash now 0 now

/-- The next statement of a call goes through. -/
def goesOn (i : Nat) : RotationAct := .advance i true .ok 0

/-- Two calls read the first hash, one of them rotates it, and it is presented again too late. -/
def sampleRun : List RotationAct :=
  [ presents "h0" "h1" 100, presents "h0" "h1" 100, goesOn 0, goesOn 1, goesOn 0, goesOn 1, goesOn 0,
    presents "h0" "h1" 200, goesOn 2, goesOn 2, goesOn 2, goesOn 2 ]

theorem rotation_safe_sample : ∃ s, Machine.run step (idle sampleSessions) sampleRun = some s ∧
    s.Safe sampleSessions "s1" ∧ rotatedHashes "s1" s.history = ["h0"] ∧
    s.calls.map (fun call => decide (call.stage = .done .refreshReuse)) = [false, false, true] ∧
    s.sessions.rows.map UserSession.status = [.revoked] :=
  ⟨_, rfl, @rotation_safe sampleSessions _ sampleRun rfl "s1", rfl, rfl, rfl⟩

/-- The first hash comes back and is rotated again. -/
def putBack : List RotationAct :=
  [ presents "h0" "h1" 100, goesOn 0, goesOn 0, presents "h1" "h0" 101, goesOn 1, goesOn 1,
    presents "h0" "h2" 102, goesOn 2, goesOn 2 ]

/-- The call that has rotated returns after another one has revoked the session. -/
def returnsLate : List RotationAct :=
  [ presents "h0" "h1" 100, goesOn 0, goesOn 0, presents "h0" "h2" 101, goesOn 1, goesOn 1, goesOn 1,
    goesOn 0 ]

/-- The first hash is replayed, and the fence cannot be written. -/
def fenceFails : List RotationAct :=
  [ presents "h0" "h1" 100, goesOn 0, goesOn 0, presents "h0" "h2" 101, goesOn 1,
    .advance 1 true .failed 101 ]

/-- It is replayed when the session has expired. -/
def replayedExpired : List RotationAct :=
  [ presents "h0" "h1" 100, goesOn 0, goesOn 0, presents "h0" "h2" 1000, goesOn 1 ]

/-- Its being replayed is found out, and before the session is revoked the next hash is rotated. -/
def overtakenReplay : List RotationAct :=
  [ presents "h0" "h1" 100, goesOn 0, goesOn 0, presents "h0" "h2" 101, goesOn 1, goesOn 1,
    presents "h1" "h3" 101, goesOn 2, goesOn 2 ]

/--
A hash may be rotated twice, a call may return its session after the revocation, a replay may fail
or come when the session has expired, and what revokes the session may be no longer its previous
hash.
-/
theorem replays_and_returns :
    (∃ s, Machine.run step (idle sampleSessions) putBack = some s ∧
      rotatedHashes "s1" s.history = ["h0", "h1", "h0"]) ∧
    (∃ s, Machine.run step (idle sampleSessions) returnsLate = some s ∧
      ∃ r ∈ s.successes, ∃ e ∈ r.before, e.Revokes "s1") ∧
    (∃ s, Machine.run step (idle sampleSessions) fenceFails = some s ∧
      s.sessions.rows.map UserSession.status = [.active] ∧
      ∃ call ∈ s.calls, call.Late ∧ call.stage = .done .failed) ∧
    (∃ s, Machine.run step (idle sampleSessions) replayedExpired = some s ∧
      s.sessions.rows.map UserSession.status = [.active] ∧
      ∃ call ∈ s.calls, (∃ session, call.seen = some session ∧ call.args.Replays session) ∧
        call.stage = .done .inactive) ∧
    ∃ s t, Machine.run step (idle sampleSessions) overtakenReplay = some s ∧
      s.sessions.rows.map (fun row => (row.refreshHash, row.previousRefreshHash)) =
        [("h3", "h1")] ∧
      step s (goesOn 1) = some t ∧ (∃ args seen, t.history.head? = some (.reused args seen) ∧
        args.presentedHash = "h0") ∧ t.sessions.rows.map UserSession.status = [.revoked] := by
  refine ⟨⟨_, rfl, rfl⟩, ⟨_, rfl, ?_⟩, ⟨_, rfl, rfl, ?_⟩, ⟨_, rfl, rfl, ?_⟩,
    ⟨_, _, rfl, rfl, rfl, ⟨_, _, rfl, rfl⟩, rfl⟩⟩
  · exact ⟨_, .head _, _, .head _, rfl⟩
  · exact ⟨_, .tail _ (.head _), ⟨_, rfl, rfl, by decide, by decide, by decide⟩, rfl⟩
  · exact ⟨_, .tail _ (.head _), ⟨_, rfl, by decide, by decide, by decide⟩, rfl⟩

end RotationSystem

end JulongApi

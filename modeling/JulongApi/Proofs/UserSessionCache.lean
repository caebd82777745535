/-
A session that was revoked is not found active again.

What can bring a revoked session back is a fill that read the row before and is late.  Its snapshot
expires at a deadline that is at most one cache lifetime ahead (`FillOk`), and a snapshot that
denies the session, written later, lives as long (`deny_covers`).  So once such a snapshot is
written every fill under way finds the session denied, or its own snapshot expired (`Sealed`); and
as the row is revoked there are no new ones.
-/
import JulongApi.Lib.Pool
import JulongApi.UserSessionCache

namespace JulongApi

/-! ### Times -/

theorem userCacheTTL_pos (syncFrequency : Int) :
    ∃ seconds, 0 < seconds ∧ userCacheTTL syncFrequency = seconds * second := by
  refine ⟨if syncFrequency ≤ 0 then 60 else syncFrequency, ?_, rfl⟩
  split
  · decide
  · omega

theorem denyExpiration_pos (syncFrequency clock expiresAt : Int) :
    0 < denyExpiration syncFrequency clock expiresAt := by
  unfold denyExpiration
  dsimp only
  split_ifs <;> omega

variable {clock : Int} {args : BulkRevokeArgs} {row : UserSession}

variable {now : Int}

/--
A snapshot that denies its session and was begun at `clock` outlives, but for the last millisecond,
every active one under way when it is written at `now`.
-/
theorem deny_covers {syncFrequency expiresAt bound : Int} (hclock : clock ≤ now)
    (hdeadline : bound ≤ (now + userCacheTTL syncFrequency) / milli)
    (hexpires : bound ≤ expiresAt * second / milli) :
    bound - 1 ≤ now / milli + denyExpiration syncFrequency clock expiresAt := by
  obtain ⟨seconds, hpos, httl⟩ := userCacheTTL_pos syncFrequency
  unfold denyExpiration
  rw [httl] at hdeadline ⊢
  simp only [milli, second] at hdeadline hexpires ⊢
  split_ifs <;> omega

/-! ### Rows -/

def Knows (sessions : UserSessionTable) (sid : String) (version expiresAt : Int) : Prop :=
  ∃ row, sessions.find sid = some row ∧ row.version = version ∧ row.expiresAt = expiresAt

def IsRevoked (sessions : UserSessionTable) (sid : String) : Prop :=
  ∃ row, sessions.find sid = some row ∧ row.status = .revoked

/-- Rows may have been revoked in between. -/
def Kept (sessions sessions' : UserSessionTable) : Prop :=
  ∀ sid row, sessions.find sid = some row → ∃ row', sessions'.find sid = some row' ∧
    row'.version = row.version ∧ row'.expiresAt = row.expiresAt ∧
    (row.status = .revoked → row'.status = .revoked)

section Rows

variable {sessions sessions' : UserSessionTable} {sid : String} {version expiresAt : Int}

theorem Kept.refl (sessions : UserSessionTable) : Kept sessions sessions :=
  fun _ row hfind => ⟨row, hfind, rfl, rfl, id⟩

theorem Knows.mono (hkept : Kept sessions sessions') (h : Knows sessions sid version expiresAt) :
    Knows sessions' sid version expiresAt := by
  obtain ⟨row, hfind, rfl, rfl⟩ := h
  obtain ⟨row', hfind', hversion, hexpires, -⟩ := hkept sid row hfind
  exact ⟨row', hfind', hversion, hexpires⟩

theorem IsRevoked.mono (hkept : Kept sessions sessions') (h : IsRevoked sessions sid) :
    IsRevoked sessions' sid := by
  obtain ⟨row, hfind, hstatus⟩ := h
  obtain ⟨row', hfind', -, -, hrevoked⟩ := hkept sid row hfind
  exact ⟨row', hfind', hrevoked hstatus⟩

theorem kept_update (sessions : UserSessionTable) (sid : String) (guard : UserSession → Bool)
    (now : Int) (reason : String) :
    Kept sessions (sessions.update sid guard (UserSession.revoke now reason)).2 ∧
      ((sessions.update sid guard (UserSession.revoke now reason)).1 = true →
        IsRevoked (sessions.update sid guard (UserSession.revoke now reason)).2 sid) := by
  have hfind := fun k => sessions.find_update sid k guard (f := UserSession.revoke now reason)
    fun _ => rfl
  constructor
  · intro k row hrow
    rw [hfind k]
    by_cases hk : k = sid
    · rw [if_pos hk, hrow, Option.map_some]
      split
      · exact ⟨_, rfl, rfl, rfl, fun _ => rfl⟩
      · exact ⟨row, rfl, rfl, rfl, id⟩
    · rw [if_neg hk]
      exact ⟨row, hrow, rfl, rfl, id⟩
  · intro hmatched
    rcases sessions.update_cases sid guard (UserSession.revoke now reason) with
      ⟨row, hrow, hguard, -⟩ | ⟨-, heq⟩
    · refine ⟨row.revoke now reason, ?_, rfl⟩
      rw [hfind sid, if_pos rfl, hrow, Option.map_some, if_pos hguard]
    · rw [heq] at hmatched
      simp at hmatched

theorem kept_bulkRevoked (sessions : UserSessionTable) (args : BulkRevokeArgs)
    (sids : List String) :
    Kept sessions (SessionSystem.bulkRevoke args sids sessions) := by
  intro sid row hrow
  unfold SessionSystem.bulkRevoke
  rw [Table.find_mapRows, hrow]
  refine ⟨_, rfl, ?_⟩
  unfold SessionSystem.bulkRevoked
  split
  · exact ⟨rfl, rfl, fun _ => rfl⟩
  · exact ⟨rfl, rfl, id⟩

theorem isRevoked_bulkRevoked {sids : List String} (hrow : row ∈ sessions.rows)
    (hsid : row.sid ∈ sids) (hactive : row.status = .active) :
    IsRevoked (SessionSystem.bulkRevoke args sids sessions) row.sid := by
  unfold SessionSystem.bulkRevoke
  refine ⟨_, by rw [Table.find_mapRows, Table.find_of_mem hrow]; rfl, ?_⟩
  unfold SessionSystem.bulkRevoked
  rw [if_pos ⟨hsid, hactive⟩]
  rfl

end Rows

/-! ### Fills under way -/

theorem denies_iff {entry : UserSessionCacheEntry} :
    entry.denies = true ↔ entry.status ≠ .active := by
  unfold UserSessionCacheEntry.denies
  cases entry.status <;> decide

/-- The session of which an active snapshot is to be written, and when that one expires at most. -/
def SessionStage.fill : SessionStage → Option (String × Int)
  | judge session deadline =>
    if session.status = .active then
      some (session.sid, min deadline (session.expiresAt * second) / milli)
    else none
  | write entry (some deadline) .prepare _ =>
    if entry.status = .active then
      some (entry.sid, min deadline (entry.expiresAt * second) / milli)
    else none
  | write entry _ (.eval expiration) _ =>
    if entry.status = .active then some (entry.sid, expiration) else none
  | _ => none

theorem SessionStage.fill_judge (session : UserSession) (deadline : Int) :
    (judge session deadline).fill =
      if session.status = .active then
        some (session.sid, min deadline (session.expiresAt * second) / milli)
      else none := rfl

theorem SessionStage.fill_eval (entry : UserSessionCacheEntry) (deadline : Option Int)
    (expiration : Int) (after : AfterWrite) :
    (write entry deadline (.eval expiration) after).fill =
      if entry.status = .active then some (entry.sid, expiration) else none := by
  cases deadline <;> rfl

theorem SessionStage.fill_of_denies {entry : UserSessionCacheEntry} (h : entry.status ≠ .active)
    (deadline : Option Int) (stage : WriteStage) (after : AfterWrite) :
    (write entry deadline stage after).fill = none := by
  cases deadline <;> cases stage <;> simp [fill, h]

namespace SessionSystem

variable {syncFrequency : Int} {s t u : SessionSystem} {sid : String} {bound : Int} {i : Nat}
  {call : SessionCall} {stage : SessionStage} {entry : UserSessionCacheEntry}

/-- A fill under way will have expired within the lifetime of the cache, or of its session. -/
def FillOk (syncFrequency : Int) (s : SessionSystem) (sid : String) (bound : Int) : Prop :=
  bound ≤ (s.clock + userCacheTTL syncFrequency) / milli ∧
    ∃ row, s.sessions.find sid = some row ∧ bound ≤ row.expiresAt * second / milli

/-- A fill with this expiry would find its snapshot expired, or the session denied. -/
def Shut (s : SessionSystem) (sid : String) (bound : Int) : Prop :=
  bound ≤ s.nowMs ∨ ∃ found time, s.cache.find sid = some found ∧ found.value.status ≠ .active ∧
    found.expireAt = some time ∧ bound - 1 ≤ time

/-- The session is revoked, and nobody will find it active in the cache. -/
structure Sealed (s : SessionSystem) (sid : String) : Prop where
  revoked : IsRevoked s.sessions sid
  cached : ∀ found, s.cache.find sid = some found → found.value.status = .active →
    found.live s.nowMs = false
  shut : ∀ call ∈ s.calls, ∀ bound, call.stage.fill = some (sid, bound) → s.Shut sid bound

/-- What later states keep of earlier ones. -/
structure Grows (s t : SessionSystem) : Prop where
  clock : s.clock ≤ t.clock
  sessions : Kept s.sessions t.sessions
  isSealed : ∀ sid, s.Sealed sid → t.Sealed sid

theorem FillOk.mono (hgrows : Grows s t) (h : FillOk syncFrequency s sid bound) :
    FillOk syncFrequency t sid bound := by
  obtain ⟨hdeadline, row, hfind, hexpires⟩ := h
  obtain ⟨row', hfind', -, hsame, -⟩ := hgrows.sessions sid row hfind
  refine ⟨hdeadline.trans ?_, row', hfind', hsame ▸ hexpires⟩
  have hclock := hgrows.clock
  unfold milli
  omega

variable {time : Int} {candidates rest : List UserSession} {writeStage : WriteStage}

theorem grows_tick (hle : s.clock ≤ time) : Grows s { s with clock := time } where
  clock := hle
  sessions := Kept.refl _
  isSealed := fun sid hsealed => by
    have hnow : s.nowMs ≤ time / milli := Int.ediv_le_ediv (by decide) hle
    refine ⟨hsealed.revoked, fun found hfound hactive => ?_, fun call hcall bound hfill => ?_⟩
    · by_contra hlive
      rw [Bool.not_eq_false] at hlive
      have hthen := Expiry.Entry.live_of_le hnow hlive
      rw [hsealed.cached found hfound hactive] at hthen
      simp at hthen
    · rcases hsealed.shut call hcall bound hfill with hexpired | hdenied
      · exact .inl (hexpired.trans hnow)
      · exact .inr hdenied

variable {sessions : UserSessionTable} {cache : SessionCache} {nowMs expiration : Int}
  {session : UserSession} {after : AfterWrite} {deadline : Option Int} {dbOk cacheOk : Bool}

theorem grows_sessions (hkept : Kept s.sessions sessions) :
    Grows s { s with sessions := sessions } where
  clock := le_rfl
  sessions := hkept
  isSealed := fun _ hsealed => ⟨hsealed.revoked.mono hkept, hsealed.cached, hsealed.shut⟩

theorem grows_start {late : Bool} (hfill : stage.fill = none) : Grows s (s.start stage late) where
  clock := le_rfl
  sessions := Kept.refl _
  isSealed := fun sid hsealed => by
    refine ⟨hsealed.revoked, hsealed.cached, fun other hother bound hbound => ?_⟩
    rcases List.mem_append.mp hother with hold | hnew
    · exact hsealed.shut other hold bound hbound
    · obtain rfl := List.mem_singleton.mp hnew
      rw [hfill] at hbound
      simp at hbound

theorem grows_goOn (hi : s.calls[i]? = some call) {revoked : List String}
    (hfill : ∀ sid bound, stage.fill = some (sid, bound) → IsRevoked s.sessions sid →
      call.stage.fill = some (sid, bound)) :
    Grows s ({ s with revoked := revoked }.goOn i call stage) where
  clock := le_rfl
  sessions := Kept.refl _
  isSealed := fun sid hsealed => by
    refine ⟨hsealed.revoked, hsealed.cached, fun other hother bound hbound => ?_⟩
    rcases Pool.mem_set_cases hother with rfl | ⟨k, -, hold⟩
    · have hbefore := hfill sid bound hbound hsealed.revoked
      exact hsealed.shut call (List.mem_of_getElem? hi) bound hbefore
    · exact hsealed.shut other (List.mem_of_getElem? hold) bound hbound

/-! ### The script -/

def CacheOk (cache : SessionCache) (sessions : UserSessionTable) : Prop :=
  ∀ found ∈ cache.rows, found.value.sid = found.key ∧
    Knows sessions found.value.sid found.value.version found.value.expiresAt

theorem version_of_cacheOk (hcache : CacheOk cache sessions)
    (hentry : Knows sessions entry.sid entry.version entry.expiresAt)
    {current : UserSessionCacheEntry} (hget : Expiry.get cache nowMs entry.sid = some current) :
    current.version = entry.version := by
  obtain ⟨found, hfind, -, rfl⟩ := Expiry.get_eq_some.mp hget
  obtain ⟨hsid, row, hrow, hversion, -⟩ := hcache found (Table.mem_of_find hfind)
  obtain ⟨row', hrow', hversion', -⟩ := hentry
  rw [hsid, Table.key_of_find hfind, hrow'] at hrow
  cases hrow
  exact hversion.symm.trans hversion'

theorem cacheOk_setUntil (hcache : CacheOk cache sessions)
    (hentry : Knows sessions entry.sid entry.version entry.expiresAt) :
    CacheOk (Expiry.setUntil cache nowMs entry.sid entry time) sessions :=
  Expiry.forall_setUntil hcache ⟨rfl, hentry⟩

theorem eval_deny (hcache : CacheOk cache sessions)
    (hentry : Knows sessions entry.sid entry.version entry.expiresAt)
    (hstatus : entry.status ≠ .active) (hversion : 0 ≤ entry.version) :
    evalSessionScript cache nowMs entry expiration =
      (true, Expiry.setUntil cache nowMs entry.sid entry (nowMs + expiration)) := by
  have hnewer : ¬entry.version <
      ((Expiry.get cache nowMs entry.sid).map UserSessionCacheEntry.version).getD 0 := by
    cases hget : Expiry.get cache nowMs entry.sid with
    | none => exact Int.not_lt.mpr hversion
    | some current =>
      have hsame := version_of_cacheOk hcache hentry hget
      simp [hsame]
  unfold evalSessionScript
  simp only [hstatus, false_and, if_false, hnewer]

theorem eval_active (cache : SessionCache) (nowMs expiration : Int)
    (hstatus : entry.status = .active) :
    evalSessionScript cache nowMs entry expiration = (false, cache) ∨
      evalSessionScript cache nowMs entry expiration =
        (true, Expiry.setUntil cache nowMs entry.sid entry expiration) ∧
      ∀ found, cache.find entry.sid = some found → found.value.status ≠ .active →
        found.live nowMs = false := by
  unfold evalSessionScript
  dsimp only
  split
  · exact .inl rfl
  next hdenied =>
  split
  · exact .inl rfl
  refine .inr ⟨rfl, fun found hfound hdeny => ?_⟩
  by_contra hlive
  rw [Bool.not_eq_false] at hlive
  have hget : Expiry.get cache nowMs entry.sid = some found.value :=
    Expiry.get_eq_some.mpr ⟨found, hfound, hlive, rfl⟩
  refine hdenied ⟨hstatus, ?_⟩
  rw [hget]
  exact denies_iff.mpr hdeny

theorem grows_eval_deny
    (hfills : ∀ call ∈ s.calls, ∀ sid bound, call.stage.fill = some (sid, bound) →
      FillOk syncFrequency s sid bound)
    (hentry : Knows s.sessions entry.sid entry.version entry.expiresAt)
    (hstatus : entry.status ≠ .active) (hclock : clock ≤ s.clock)
    (hexpiration : expiration = denyExpiration syncFrequency clock entry.expiresAt) :
    Grows s { s with
        cache := Expiry.setUntil s.cache s.nowMs entry.sid entry (s.nowMs + expiration) } ∧
      (IsRevoked s.sessions entry.sid → Sealed { s with
        cache := Expiry.setUntil s.cache s.nowMs entry.sid entry (s.nowMs + expiration) }
          entry.sid) := by
  have hpos : 0 < expiration := hexpiration ▸ denyExpiration_pos syncFrequency clock entry.expiresAt
  have hself : (Expiry.setUntil s.cache s.nowMs entry.sid entry (s.nowMs + expiration)).find
      entry.sid = some ⟨entry.sid, entry, some (s.nowMs + expiration)⟩ := by
    rw [Expiry.find_setUntil_self, if_neg (by omega)]
  have hsealed : IsRevoked s.sessions entry.sid → Sealed { s with
      cache := Expiry.setUntil s.cache s.nowMs entry.sid entry (s.nowMs + expiration) }
        entry.sid := by
    intro hrevoked
    refine ⟨hrevoked, fun found hfound hactive => ?_, fun call hcall bound hfill => ?_⟩
    · cases hself.symm.trans hfound
      exact absurd hactive hstatus
    · obtain ⟨hdeadline, row, hrow, hexpires⟩ := hfills call hcall _ _ hfill
      obtain ⟨row', hrow', -, hsame⟩ := hentry
      cases hrow'.symm.trans hrow
      rw [hsame] at hexpires
      refine .inr ⟨_, _, hself, hstatus, rfl, ?_⟩
      rw [hexpiration]
      exact deny_covers hclock hdeadline hexpires
  refine ⟨⟨le_rfl, Kept.refl _, fun sid h => ?_⟩, hsealed⟩
  by_cases hsid : entry.sid = sid
  · subst hsid
    exact hsealed h.revoked
  · have hother : (Expiry.setUntil s.cache s.nowMs entry.sid entry (s.nowMs + expiration)).find sid =
        s.cache.find sid := Expiry.find_setUntil_ne hsid
    refine ⟨h.revoked, fun found hfound => h.cached found (hother ▸ hfound), ?_⟩
    intro call hcall bound hfill
    rcases h.shut call hcall bound hfill with hexpired | ⟨found, time, hfound, hrest⟩
    · exact .inl hexpired
    · exact .inr ⟨found, time, hother.symm ▸ hfound, hrest⟩

theorem grows_eval_active (hstatus : entry.status = .active) (hcall : call ∈ s.calls)
    (hfill : call.stage.fill = some (entry.sid, expiration)) :
    Grows s { s with cache := (evalSessionScript s.cache s.nowMs entry expiration).2 } := by
  refine ⟨le_rfl, Kept.refl _, fun sid h => ?_⟩
  rcases eval_active s.cache s.nowMs expiration hstatus with heq | ⟨heq, hfree⟩
  · rw [heq]
    exact h
  rw [heq]
  by_cases hsid : entry.sid = sid
  · subst hsid
    -- a snapshot that denies the session would be there still
    have hgone : ∀ bound, s.Shut entry.sid bound → bound ≤ s.nowMs := by
      rintro bound (hexpired | ⟨found, time, hfound, hdeny, htime, hbound⟩)
      · exact hexpired
      · have hdead := hfree found hfound hdeny
        unfold Expiry.Entry.live at hdead
        rw [htime] at hdead
        simp only [decide_eq_false_iff_not] at hdead
        omega
    have hexpired := hgone expiration (h.shut call hcall expiration hfill)
    refine ⟨h.revoked, fun found hfound => ?_, fun other hother bound hbound => ?_⟩
    · rw [Expiry.find_setUntil_self, if_pos hexpired] at hfound
      simp at hfound
    · exact .inl (hgone bound (h.shut other hother bound hbound))
  · have hother : (Expiry.setUntil s.cache s.nowMs entry.sid entry expiration).find sid =
        s.cache.find sid := Expiry.find_setUntil_ne hsid
    refine ⟨h.revoked, fun found hfound => h.cached found (hother ▸ hfound), ?_⟩
    intro other hmem bound hbound
    rcases h.shut other hmem bound hbound with hexpired | ⟨found, time, hfound, hrest⟩
    · exact .inl hexpired
    · exact .inr ⟨found, time, hother.symm ▸ hfound, hrest⟩

/-! ### Calls -/

/-- The table has the row of a session that was read. -/
def KnowsSession (s : SessionSystem) (session : UserSession) : Prop :=
  Knows s.sessions session.sid session.version session.expiresAt

/-- What is known of a call whose write to the cache is under way. -/
def AfterInv (s : SessionSystem) (entry : UserSessionCacheEntry) : AfterWrite → Prop
  | .fill _ => entry.status = .active
  | .deny => entry.status ≠ .active
  | .fence args candidate =>
    entry.status ≠ .active ∧ KnowsSession s candidate ∧ candidate.sid = args.sid
  | .tombstone sid => entry.status ≠ .active ∧ entry.sid = sid ∧ IsRevoked s.sessions sid
  | .bulkFence args _ rest =>
    entry.status ≠ .active ∧ (∀ session ∈ rest, KnowsSession s session) ∧
      ∀ sid ∈ args.revoked, s.Sealed sid
  | .bulkTombstone args sid rest =>
    entry.status ≠ .active ∧ entry.sid = sid ∧ IsRevoked s.sessions sid ∧
      (∀ session ∈ rest, KnowsSession s session ∧ IsRevoked s.sessions session.sid) ∧
      ∀ sid ∈ args.revoked, s.Sealed sid

def WriteInv (syncFrequency : Int) (s : SessionSystem) (entry : UserSessionCacheEntry) :
    WriteStage → Prop
  | .prepare => True
  | .eval expiration =>
    entry.status ≠ .active → ∃ clock, clock ≤ s.clock ∧
      expiration = denyExpiration syncFrequency clock entry.expiresAt
  | .complete => entry.status = .active

def StageInv (syncFrequency : Int) (s : SessionSystem) : SessionStage → Prop
  | .read _ deadline => deadline ≤ s.clock + userCacheTTL syncFrequency
  | .judge session _ => KnowsSession s session
  | .write entry _ stage after =>
    Knows s.sessions entry.sid entry.version entry.expiresAt ∧ AfterInv s entry after ∧
      WriteInv syncFrequency s entry stage
  | .revoke args candidate => KnowsSession s candidate ∧ candidate.sid = args.sid
  | .candidates args | .bulkRevoke args _ => ∀ sid ∈ args.revoked, s.Sealed sid
  | _ => True

/-- What is known of a call that reads a session whose revocation has returned. -/
def LateInv (s : SessionSystem) : SessionStage → Prop
  | .lookup sid | .capture sid | .read sid _ => s.Sealed sid
  | .check sid entry => s.Sealed sid ∧ entry.status ≠ .active
  | .judge session _ => session.status ≠ .active
  | .write _ _ _ after => after = .deny
  | .done outcome => ∀ session, outcome ≠ .active session
  | _ => False

theorem KnowsSession.mono (hgrows : Grows s t) (h : KnowsSession s session) :
    KnowsSession t session :=
  Knows.mono hgrows.sessions h

theorem AfterInv.mono (hgrows : Grows s t) (h : AfterInv s entry after) :
    AfterInv t entry after := by
  cases after with
  | fill session => exact h
  | deny => exact h
  | fence args candidate => exact ⟨h.1, h.2.1.mono hgrows, h.2.2⟩
  | tombstone sid => exact ⟨h.1, h.2.1, h.2.2.mono hgrows.sessions⟩
  | bulkFence args candidates rest =>
    exact ⟨h.1, fun session hsession => (h.2.1 session hsession).mono hgrows,
      fun sid hsid => hgrows.isSealed sid (h.2.2 sid hsid)⟩
  | bulkTombstone args sid rest =>
    obtain ⟨hstatus, hsid, hrevoked, hrest, hsealed⟩ := h
    refine ⟨hstatus, hsid, hrevoked.mono hgrows.sessions, fun session hsession => ?_,
      fun sid hsid => hgrows.isSealed sid (hsealed sid hsid)⟩
    exact ⟨(hrest session hsession).1.mono hgrows, (hrest session hsession).2.mono hgrows.sessions⟩

theorem WriteInv.mono (hgrows : Grows s t) {stage : WriteStage}
    (h : WriteInv syncFrequency s entry stage) : WriteInv syncFrequency t entry stage := by
  cases stage with
  | prepare => trivial
  | eval expiration =>
    intro hstatus
    obtain ⟨clock, hclock, heq⟩ := h hstatus
    exact ⟨clock, hclock.trans hgrows.clock, heq⟩
  | complete => exact h

theorem StageInv.mono (hgrows : Grows s t) (h : StageInv syncFrequency s stage) :
    StageInv syncFrequency t stage := by
  cases stage with
  | read sid deadline => exact h.trans (Int.add_le_add_right hgrows.clock _)
  | judge session deadline => exact KnowsSession.mono hgrows h
  | write entry deadline stage after =>
    obtain ⟨hentry, hafter, hwrite⟩ := h
    exact ⟨hentry.mono hgrows.sessions, hafter.mono hgrows, hwrite.mono hgrows⟩
  | revoke args candidate => exact ⟨h.1.mono hgrows, h.2⟩
  | candidates args => exact fun sid hsid => hgrows.isSealed sid (h sid hsid)
  | bulkRevoke args candidates => exact fun sid hsid => hgrows.isSealed sid (h sid hsid)
  | _ => trivial

theorem LateInv.mono (hgrows : Grows s t) (h : LateInv s stage) : LateInv t stage := by
  cases stage with
  | lookup sid => exact hgrows.isSealed sid h
  | check sid entry => exact ⟨hgrows.isSealed sid h.1, h.2⟩
  | capture sid => exact hgrows.isSealed sid h
  | read sid deadline => exact hgrows.isSealed sid h
  | _ => exact h

structure Inv (syncFrequency : Int) (s : SessionSystem) : Prop where
  versions : ∀ row ∈ s.sessions.rows, 0 < row.version
  cache : CacheOk s.cache s.sessions
  fills : ∀ call ∈ s.calls, ∀ sid bound, call.stage.fill = some (sid, bound) →
    FillOk syncFrequency s sid bound
  stages : ∀ call ∈ s.calls, StageInv syncFrequency s call.stage
  revoked : ∀ sid ∈ s.revoked, s.Sealed sid
  late : ∀ call ∈ s.calls, call.late = true → LateInv s call.stage

theorem inv_idle (hversions : ∀ row ∈ sessions.rows, 0 < row.version) :
    Inv syncFrequency (idle clock sessions) where
  versions := hversions
  cache := by simp [idle, CacheOk, Expiry.empty]
  fills := by simp [idle]
  stages := by simp [idle]
  revoked := by simp [idle]
  late := by simp [idle]

theorem Inv.grow (h : Inv syncFrequency s) (hgrows : Grows s t) (hcalls : t.calls = s.calls)
    (hrevoked : t.revoked = s.revoked) (hversions : ∀ row ∈ t.sessions.rows, 0 < row.version)
    (hcache : CacheOk t.cache t.sessions) : Inv syncFrequency t where
  versions := hversions
  cache := hcache
  fills := fun call hcall sid bound hfill =>
    (h.fills call (hcalls ▸ hcall) sid bound hfill).mono hgrows
  stages := fun call hcall => (h.stages call (hcalls ▸ hcall)).mono hgrows
  revoked := fun sid hsid => hgrows.isSealed sid (h.revoked sid (hrevoked ▸ hsid))
  late := fun call hcall hlate => (h.late call (hcalls ▸ hcall) hlate).mono hgrows

theorem Inv.start (h : Inv syncFrequency s) {late : Bool} (hfill : stage.fill = none)
    (hstage : StageInv syncFrequency s stage) (hlate : late = true → LateInv s stage) :
    Inv syncFrequency (s.start stage late) := by
  have hgrows : Grows s (s.start stage late) := grows_start hfill
  have hmem : ∀ {p : SessionCall → Prop}, (∀ call ∈ s.calls, p call) → p ⟨stage, late⟩ →
      ∀ call ∈ (s.start stage late).calls, p call := by
    intro p hold hnew call hcall
    rcases List.mem_append.mp hcall with hmem | hmem
    · exact hold call hmem
    · exact List.mem_singleton.mp hmem ▸ hnew
  refine ⟨h.versions, h.cache, hmem (fun call hcall sid bound hbound => ?_) ?_, hmem ?_ ?_, ?_,
    hmem ?_ ?_⟩
  · exact (h.fills call hcall sid bound hbound).mono hgrows
  · intro sid bound hbound
    rw [hfill] at hbound
    simp at hbound
  · exact fun call hcall => (h.stages call hcall).mono hgrows
  · exact hstage.mono hgrows
  · exact fun sid hsid => hgrows.isSealed sid (h.revoked sid hsid)
  · exact fun call hcall hold => (h.late call hcall hold).mono hgrows
  · exact fun hnew => (hlate hnew).mono hgrows

theorem Inv.goOn (h : Inv syncFrequency s) (revoked : List String) (stage : SessionStage)
    (hi : s.calls[i]? = some call)
    (hfill : ∀ sid bound, stage.fill = some (sid, bound) →
      FillOk syncFrequency s sid bound ∧
        (IsRevoked s.sessions sid → call.stage.fill = some (sid, bound)))
    (hstage : StageInv syncFrequency s stage)
    (hlate : LateInv s call.stage → LateInv s stage)
    (hrevoked : ∀ sid ∈ revoked, s.Sealed sid) :
    Inv syncFrequency ({ s with revoked := revoked ++ s.revoked }.goOn i call stage) := by
  have hgrows : Grows s ({ s with revoked := revoked ++ s.revoked }.goOn i call stage) :=
    grows_goOn hi fun sid bound hbound => (hfill sid bound hbound).2
  have hmem : ∀ {p : SessionCall → Prop}, (∀ call ∈ s.calls, p call) → p ⟨stage, call.late⟩ →
      ∀ other ∈ (s.goOn i call stage).calls, p other := by
    intro p hold hnew other hother
    rcases Pool.mem_set_cases hother with rfl | ⟨k, -, hk⟩
    · exact hnew
    · exact hold other (List.mem_of_getElem? hk)
  refine ⟨h.versions, h.cache, hmem (fun call hcall sid bound hbound => ?_) ?_, hmem ?_ ?_, ?_,
    hmem ?_ ?_⟩
  · exact (h.fills call hcall sid bound hbound).mono hgrows
  · exact fun sid bound hbound => (hfill sid bound hbound).1.mono hgrows
  · exact fun call hcall => (h.stages call hcall).mono hgrows
  · exact hstage.mono hgrows
  · intro sid hsid
    rcases List.mem_append.mp hsid with hnew | hold
    · exact hgrows.isSealed sid (hrevoked sid hnew)
    · exact hgrows.isSealed sid (h.revoked sid hold)
  · exact fun call hcall hold => (h.late call hcall hold).mono hgrows
  · exact fun hnew => (hlate (h.late call (List.mem_of_getElem? hi) hnew)).mono hgrows

theorem Inv.goOn_of_none (h : Inv syncFrequency s) (hi : s.calls[i]? = some call)
    (hfill : stage.fill = none) (hstage : StageInv syncFrequency s stage)
    (hlate : LateInv s call.stage → LateInv s stage) :
    Inv syncFrequency (s.goOn i call stage) :=
  h.goOn [] stage hi (fun sid bound hbound => by rw [hfill] at hbound; simp at hbound) hstage hlate
    (by simp)

/-! ### Writes to the cache -/

theorem stageInv_nextFence (hrest : ∀ session ∈ rest, KnowsSession s session)
    (hsealed : ∀ sid ∈ args.revoked, s.Sealed sid) :
    (nextFence args candidates rest).fill = none ∧
      StageInv syncFrequency s (nextFence args candidates rest) := by
  cases rest with
  | nil => exact ⟨rfl, hsealed⟩
  | cons session rest =>
    have hstatus : (denyEntry session .revoking args.now args.reason).status ≠ .active := by
      simp [denyEntry]
    refine ⟨rfl, hrest session (List.mem_cons_self ..), ⟨hstatus, ?_, hsealed⟩, trivial⟩
    exact fun other hother => hrest other (List.mem_cons_of_mem _ hother)

theorem stageInv_nextTombstone
    (hrest : ∀ session ∈ rest, KnowsSession s session ∧ IsRevoked s.sessions session.sid)
    (hsealed : ∀ sid ∈ args.revoked, s.Sealed sid) :
    (nextTombstone args rest).fill = none ∧
      StageInv syncFrequency s (nextTombstone args rest) := by
  cases rest with
  | nil => exact ⟨rfl, hsealed⟩
  | cons session rest =>
    have hstatus : (denyEntry session .revoked args.now args.reason).status ≠ .active := by
      simp [denyEntry]
    obtain ⟨hsession, hrevoked⟩ := hrest session (List.mem_cons_self ..)
    refine ⟨rfl, hsession, ⟨hstatus, rfl, hrevoked, ?_, hsealed⟩, trivial⟩
    exact fun other hother => hrest other (List.mem_cons_of_mem _ hother)

/--
A write is over.  If it was to deny a session, it has: a tombstone that could not be written would
not keep the session from being found.
-/
theorem Inv.written (h : Inv syncFrequency s) (hi : s.calls[i]? = some call)
    {reply : SessionCacheReply} (hcall : call.stage = .write entry deadline writeStage after)
    (hafter : AfterInv s entry after)
    (hdone : entry.status ≠ .active → IsRevoked s.sessions entry.sid → s.Sealed entry.sid) :
    Inv syncFrequency (s.written i call reply after) := by
  have hlate : ∀ {next : SessionStage}, (after = .deny → LateInv s next) →
      LateInv s call.stage → LateInv s next := by
    intro next hnext hold
    rw [hcall] at hold
    exact hnext hold
  cases after with
  | fill session =>
    cases reply with
    | stale => exact h.goOn_of_none hi rfl trivial (hlate (by simp))
    | _ => exact h.goOn_of_none hi rfl trivial (hlate (by simp))
  | deny => exact h.goOn_of_none hi rfl trivial (hlate fun _ => by simp [LateInv])
  | fence args candidate =>
    obtain ⟨-, hcandidate⟩ := hafter
    unfold SessionSystem.written afterWrite
    by_cases hok : reply = .ok
    · simp only [hok, if_true]
      exact h.goOn_of_none hi rfl hcandidate (hlate (by simp))
    · simp only [hok, if_false]
      exact h.goOn_of_none hi rfl trivial (hlate (by simp))
  | tombstone sid =>
    obtain ⟨hstatus, rfl, hrevoked⟩ := hafter
    have hsealed : ∀ sid ∈ [entry.sid], s.Sealed sid :=
      List.forall_mem_singleton.mpr (hdone hstatus hrevoked)
    exact h.goOn [entry.sid] (.done (.revoked [entry.sid])) hi
      (fun sid bound hbound => by simp [SessionStage.fill] at hbound) trivial (hlate (by simp))
      hsealed
  | bulkFence args candidates rest =>
    obtain ⟨-, hrest, hsealed⟩ := hafter
    unfold SessionSystem.written afterWrite
    by_cases hok : reply = .ok
    · simp only [hok, if_true]
      obtain ⟨hfill, hstage⟩ : (nextFence args candidates rest).fill = none ∧
          StageInv syncFrequency s (nextFence args candidates rest) :=
        stageInv_nextFence hrest hsealed
      exact h.goOn_of_none hi hfill hstage (hlate (by simp))
    · simp only [hok, if_false]
      exact h.goOn_of_none hi rfl trivial (hlate (by simp))
  | bulkTombstone args sid rest =>
    obtain ⟨hstatus, rfl, hrevoked, hrest, hsealed⟩ := hafter
    have hsealed' : ∀ sid ∈ entry.sid :: args.revoked, s.Sealed sid :=
      List.forall_mem_cons.mpr ⟨hdone hstatus hrevoked, hsealed⟩
    let args' := { args with revoked := entry.sid :: args.revoked }
    obtain ⟨hfill, hstage⟩ : (nextTombstone args' rest).fill = none ∧
        StageInv syncFrequency s (nextTombstone args' rest) :=
      stageInv_nextTombstone hrest hsealed'
    exact h.goOn_of_none hi hfill hstage (hlate (by simp))

theorem Inv.prepare (h : Inv syncFrequency s) (hi : s.calls[i]? = some call)
    (hcall : call.stage = .write entry deadline .prepare after) :
    Inv syncFrequency (s.advanceWrite syncFrequency i true call entry deadline after .prepare) := by
  have hmem : call ∈ s.calls := List.mem_of_getElem? hi
  have hinv := h.stages call hmem
  rw [hcall] at hinv
  obtain ⟨hentry, hafter, -⟩ := hinv
  have hlate : ∀ {next : WriteStage}, LateInv s call.stage →
      LateInv s (.write entry deadline next after) := by
    intro next hold
    rw [hcall] at hold
    exact hold
  unfold SessionSystem.advanceWrite redisExpiration
  dsimp only
  by_cases hstatus : entry.status = .active
  · have hover : ∀ reply, Inv syncFrequency (s.written i call reply after) :=
      fun reply => h.written hi hcall hafter fun hdenies => absurd hstatus hdenies
    rw [if_pos hstatus]
    cases deadline with
    | none => exact hover .invalid
    | some deadline =>
      dsimp only
      split_ifs
      · exact hover .stale
      · exact hover .inactive
      · exact hover .stale
      -- the expiry is the one the fill was known to have
      have hfill : call.stage.fill =
          some (entry.sid, min deadline (entry.expiresAt * second) / milli) := by
        rw [hcall]
        exact if_pos hstatus
      refine h.goOn [] _ hi (fun sid bound hnew => ?_)
        (show StageInv _ _ (.write _ _ (.eval _) _) from
          ⟨hentry, hafter, fun hdenies => absurd hstatus hdenies⟩) hlate (by simp)
      rw [SessionStage.fill_eval, if_pos hstatus] at hnew
      exact ⟨h.fills call hmem sid bound (hfill.trans hnew), fun _ => hfill.trans hnew⟩
  · rw [if_neg hstatus]
    refine h.goOn_of_none hi (SessionStage.fill_of_denies hstatus ..) ⟨hentry, hafter, fun _ => ?_⟩
      hlate
    exact ⟨s.clock, le_rfl, rfl⟩

theorem Inv.eval (h : Inv syncFrequency s) (hi : s.calls[i]? = some call)
    (hcall : call.stage = .write entry deadline (.eval expiration) after) :
    Inv syncFrequency
      (s.advanceWrite syncFrequency i true call entry deadline after (.eval expiration)) := by
  have hmem : call ∈ s.calls := List.mem_of_getElem? hi
  have hinv := h.stages call hmem
  rw [hcall] at hinv
  obtain ⟨hentry, hafter, hdeny⟩ := hinv
  unfold SessionSystem.advanceWrite
  simp only [Bool.not_true, Bool.false_eq_true, if_false]
  by_cases hstatus : entry.status = .active
  · have hfill : call.stage.fill = some (entry.sid, expiration) := by
      rw [hcall, SessionStage.fill_eval, if_pos hstatus]
    have hgrows := grows_eval_active hstatus hmem hfill
    rcases eval_active s.cache s.nowMs expiration hstatus with heq | ⟨heq, -⟩
    · rw [heq]
      simp only [Bool.not_false, if_true]
      exact h.written hi hcall hafter fun hdenies => absurd hstatus hdenies
    · rw [heq] at hgrows ⊢
      simp only [Bool.not_true, Bool.false_eq_true, if_false, hstatus, if_true]
      have hnext := h.grow hgrows rfl rfl h.versions (cacheOk_setUntil h.cache hentry)
      refine hnext.goOn_of_none hi ?_ ⟨hentry, hafter.mono hgrows, hstatus⟩ (fun hold => ?_)
      · cases deadline <;> rfl
      · rw [hcall] at hold
        exact hold
  · obtain ⟨clock, hclock, hexpiration⟩ := hdeny hstatus
    have hpos : 0 ≤ entry.version := by
      obtain ⟨row, hrow, hversion, -⟩ := hentry
      exact hversion ▸ (h.versions row (Table.mem_of_find hrow)).le
    rw [eval_deny h.cache hentry hstatus hpos]
    simp only [Bool.not_true, Bool.false_eq_true, if_false, hstatus]
    obtain ⟨hgrows, hsealed⟩ := grows_eval_deny h.fills hentry hstatus hclock hexpiration
    have hnext := h.grow hgrows rfl rfl h.versions (cacheOk_setUntil h.cache hentry)
    exact hnext.written hi hcall (hafter.mono hgrows) fun _ hrevoked => hsealed hrevoked

theorem Inv.advanceWrite (h : Inv syncFrequency s) (hi : s.calls[i]? = some call)
    (hcall : call.stage = .write entry deadline writeStage after) :
    Inv syncFrequency (s.advanceWrite syncFrequency i true call entry deadline after writeStage) := by
  cases writeStage with
  | prepare => exact h.prepare hi hcall
  | eval expiration => exact h.eval hi hcall
  | complete =>
    have hinv := h.stages call (List.mem_of_getElem? hi)
    rw [hcall] at hinv
    obtain ⟨-, hafter, hstatus⟩ := hinv
    have hover : ∀ reply, Inv syncFrequency (s.written i call reply after) :=
      fun reply => h.written hi hcall hafter fun hdenies => absurd hstatus hdenies
    unfold SessionSystem.advanceWrite
    cases deadline with
    | none => exact hover .ok
    | some deadline =>
      dsimp only
      split_ifs
      · exact hover .stale
      · exact hover .inactive
      · exact hover .ok

/-! ### One step -/

theorem knowsSession_of_mem (h : row ∈ s.sessions.rows) : KnowsSession s row.afterFind :=
  ⟨row, Table.find_of_mem h, rfl, rfl⟩

theorem status_of_isActive (h : session.isActive now = true) : session.status = .active := by
  unfold UserSession.isActive at h
  exact (of_decide_eq_true h).1

theorem Sealed.denies (h : s.Sealed sid) (hget : Expiry.get s.cache s.nowMs sid = some entry) :
    entry.status ≠ .active := by
  obtain ⟨found, hfound, hlive, rfl⟩ := Expiry.get_eq_some.mp hget
  intro hactive
  rw [h.cached found hfound hactive] at hlive
  simp at hlive

theorem Sealed.not_active (h : s.Sealed sid) (hrow : s.sessions.find sid = some row) :
    row.status ≠ .active := by
  obtain ⟨row', hrow', hstatus⟩ := h.revoked
  cases hrow.symm.trans hrow'
  rw [hstatus]
  decide

section

variable (h : Inv syncFrequency s) (hi : s.calls[i]? = some call)
  (hstep : s.advance syncFrequency i dbOk cacheOk call = some t)

include h hi hstep

theorem Inv.lookup (hcall : call.stage = .lookup sid) : Inv syncFrequency t := by
  unfold SessionSystem.advance at hstep
  rw [hcall] at hstep
  dsimp only at hstep
  split at hstep
  next entry hentry =>
    cases hstep
    refine h.goOn_of_none hi rfl trivial fun hlate => ?_
    rw [hcall] at hlate
    refine ⟨hlate, Sealed.denies hlate ?_⟩
    split at hentry
    · exact hentry
    · simp at hentry
  · cases hstep
    refine h.goOn_of_none hi rfl trivial fun hlate => ?_
    rw [hcall] at hlate
    exact hlate

theorem Inv.check (hcall : call.stage = .check sid entry) : Inv syncFrequency t := by
  unfold SessionSystem.advance at hstep
  rw [hcall] at hstep
  dsimp only at hstep
  split at hstep
  next session hok =>
    cases hstep
    refine h.goOn_of_none hi rfl trivial fun hlate => ?_
    -- only an active entry is returned
    rw [hcall] at hlate
    unfold checkSessionEntry at hok
    rw [if_pos (show entry.status ≠ .active ∨ _ from .inl hlate.2)] at hok
    split at hok <;> simp at hok
  · cases hstep
    exact h.goOn_of_none hi rfl trivial fun _ => by simp [LateInv]
  · cases hstep
    refine h.goOn_of_none hi rfl trivial fun hlate => ?_
    rw [hcall] at hlate
    exact hlate.1

theorem Inv.read {deadline : Int} (hcall : call.stage = .read sid deadline) :
    Inv syncFrequency t := by
  have hdeadline : deadline ≤ s.clock + userCacheTTL syncFrequency := by
    have hinv := h.stages call (List.mem_of_getElem? hi)
    rw [hcall] at hinv
    exact hinv
  unfold SessionSystem.advance at hstep
  rw [hcall] at hstep
  dsimp only at hstep
  split at hstep
  next row hread =>
    cases hstep
    have hrow : s.sessions.find sid = some row := (Option.ite_none_right_eq_some.mp hread).2
    refine h.goOn [] (.judge row.afterFind deadline) hi (fun sid' bound hfill => ?_)
      (knowsSession_of_mem (Table.mem_of_find hrow)) (fun hlate => ?_) (by simp)
    · rw [SessionStage.fill_judge] at hfill
      split at hfill
      next hactive =>
        cases hfill
        have hkey : row.sid = sid := Table.key_of_find hrow
        refine ⟨⟨?_, row, hkey ▸ hrow, ?_⟩, fun hrevoked => ?_⟩
        · exact Int.ediv_le_ediv (by decide) ((min_le_left _ _).trans hdeadline)
        · exact Int.ediv_le_ediv (by decide) (min_le_right _ _)
        · obtain ⟨row', hrow', hstatus⟩ := hrevoked
          have hsame : row' = row := by
            rw [UserSession.sid_afterFind, hkey, hrow] at hrow'
            exact (Option.some.inj hrow').symm
          rw [hsame] at hstatus
          exact absurd (hstatus.symm.trans hactive) (by decide)
      · simp at hfill
    · rw [hcall] at hlate
      exact (Sealed.not_active hlate hrow : row.status ≠ .active)
  · cases hstep
    exact h.goOn_of_none hi rfl trivial fun _ => by simp [LateInv]

theorem Inv.judge {deadline : Int} (hcall : call.stage = .judge session deadline) :
    Inv syncFrequency t := by
  have hmem : call ∈ s.calls := List.mem_of_getElem? hi
  have hknows : KnowsSession s session := by
    have hinv := h.stages call hmem
    rw [hcall] at hinv
    exact hinv
  unfold SessionSystem.advance at hstep
  rw [hcall] at hstep
  dsimp only at hstep
  split at hstep
  next hactive =>
    cases hstep
    have hstatus := status_of_isActive hactive
    refine h.goOn [] (.write session.cacheEntry (some deadline) .prepare (.fill session)) hi
      (fun sid' bound hfill => ?_) ⟨hknows, hstatus, trivial⟩ (fun hlate => ?_) (by simp)
    · -- the fill is the one the call had as it read the row
      have hbefore : call.stage.fill = some (sid', bound) := by
        rw [hcall]
        exact hfill
      exact ⟨h.fills call hmem sid' bound hbefore, fun _ => hbefore⟩
    · rw [hcall] at hlate
      exact absurd hstatus hlate
  · cases hstep
    refine h.goOn_of_none hi rfl ?_ fun _ => rfl
    exact ⟨hknows, by simp [AfterInv], trivial⟩

theorem Inv.revokeRow {args : RevokeArgs} {candidate : UserSession}
    (hcall : call.stage = .revoke args candidate) : Inv syncFrequency t := by
  obtain ⟨hknows, hsid⟩ : KnowsSession s candidate ∧ candidate.sid = args.sid := by
    have hinv := h.stages call (List.mem_of_getElem? hi)
    rw [hcall] at hinv
    exact hinv
  have hlate : ∀ {u : SessionSystem} {next : SessionStage}, LateInv u call.stage →
      LateInv u next := by
    intro u next hlate
    rw [hcall] at hlate
    exact hlate.elim
  unfold SessionSystem.advance at hstep
  rw [hcall] at hstep
  dsimp only at hstep
  split at hstep
  · cases hstep
    exact h.goOn_of_none hi rfl trivial hlate
  split at hstep
  next hmatched =>
    cases hstep
    obtain ⟨hkept, hrevoked⟩ := kept_update s.sessions args.sid
      (fun row => decide (row.userID = args.userID) && row.isActive args.now) args.now args.reason
    have hgrows := grows_sessions hkept
    have hnext := h.grow hgrows rfl rfl (fun row hrow => ?_) fun found hfound =>
      ⟨(h.cache found hfound).1, (h.cache found hfound).2.mono hkept⟩
    · refine hnext.goOn_of_none hi rfl ⟨hknows.mono hgrows, ⟨by simp [denyEntry], hsid, ?_⟩, trivial⟩
        hlate
      exact hrevoked hmatched
    · rcases Table.mem_update hrow with hold | ⟨old, hold, -, rfl⟩
      · exact h.versions row hold
      · exact h.versions old hold
  · cases hstep
    exact h.goOn_of_none hi rfl trivial hlate

theorem Inv.bulkRevokeRows (hcall : call.stage = .bulkRevoke args candidates) :
    Inv syncFrequency t := by
  have hsealed : ∀ sid ∈ args.revoked, s.Sealed sid := by
    have hinv := h.stages call (List.mem_of_getElem? hi)
    rw [hcall] at hinv
    exact hinv
  have hlate : ∀ {u : SessionSystem} {next : SessionStage}, LateInv u call.stage →
      LateInv u next := by
    intro u next hlate
    rw [hcall] at hlate
    exact hlate.elim
  unfold SessionSystem.advance at hstep
  rw [hcall] at hstep
  dsimp only at hstep
  split at hstep
  · cases hstep
    exact h.goOn_of_none hi rfl trivial hlate
  cases hstep
  have hkept := kept_bulkRevoked s.sessions args ((s.lockedOf candidates).map UserSession.sid)
  have hgrows := grows_sessions hkept
  generalize hsessions :
    bulkRevoke args ((s.lockedOf candidates).map UserSession.sid) s.sessions = sessions
  rw [hsessions] at hkept hgrows
  have hlocked : ∀ session ∈ (s.lockedOf candidates).map UserSession.afterFind,
      KnowsSession { s with sessions := sessions } session ∧ IsRevoked sessions session.sid := by
    intro session hsession
    obtain ⟨row, hrow, rfl⟩ := List.mem_map.mp hsession
    obtain ⟨hmem, hactive⟩ := List.mem_filter.mp hrow
    refine ⟨Knows.mono hkept (knowsSession_of_mem hmem), ?_⟩
    have hrevoked : IsRevoked
        (bulkRevoke args ((s.lockedOf candidates).map UserSession.sid) s.sessions) row.sid :=
      isRevoked_bulkRevoked hmem (List.mem_map_of_mem hrow) (of_decide_eq_true hactive).2
    exact hsessions ▸ hrevoked
  have hnext := h.grow hgrows rfl rfl (fun row hrow => ?_) fun found hfound =>
    ⟨(h.cache found hfound).1, (h.cache found hfound).2.mono hkept⟩
  · obtain ⟨hfill, hstage⟩ : _ ∧ StageInv syncFrequency _ _ :=
      stageInv_nextTombstone hlocked fun sid hsid => hgrows.isSealed sid (hsealed sid hsid)
    exact hnext.goOn_of_none hi hfill hstage hlate
  · rw [← hsessions] at hrow
    obtain ⟨old, hold, rfl⟩ := List.mem_map.mp hrow
    unfold bulkRevoked
    split
    · exact h.versions old hold
    · exact h.versions old hold

end

theorem mem_candidatesOf (h : session ∈ s.candidatesOf args) : session ∈ s.sessions.rows :=
  (List.mem_filter.mp (List.mem_mergeSort.mp (List.mem_of_mem_take h))).1

theorem Inv.advance (h : Inv syncFrequency s) (hi : s.calls[i]? = some call)
    (hstep : s.advance syncFrequency i dbOk true call = some t) : Inv syncFrequency t := by
  have hinv := h.stages call (List.mem_of_getElem? hi)
  have hlate := h.late call (List.mem_of_getElem? hi)
  cases hcall : call.stage with
  | lookup sid => exact h.lookup hi hstep hcall
  | check sid entry => exact h.check hi hstep hcall
  | read sid deadline => exact h.read hi hstep hcall
  | judge session deadline => exact h.judge hi hstep hcall
  | revoke args candidate => exact h.revokeRow hi hstep hcall
  | bulkRevoke args candidates => exact h.bulkRevokeRows hi hstep hcall
  | capture sid =>
    unfold SessionSystem.advance at hstep
    rw [hcall] at hstep
    cases hstep
    refine h.goOn_of_none hi rfl le_rfl fun hlate => ?_
    rw [hcall] at hlate
    exact hlate
  | write entry deadline stage after =>
    unfold SessionSystem.advance at hstep
    rw [hcall] at hstep
    cases hstep
    exact h.advanceWrite hi hcall
  | confirm session =>
    unfold SessionSystem.advance at hstep
    rw [hcall] at hstep
    have hnever : ∀ {next : SessionStage}, LateInv s call.stage → LateInv s next := by
      intro next hlate
      rw [hcall] at hlate
      exact hlate.elim
    dsimp only at hstep
    split at hstep
    · cases hstep
      exact h.goOn_of_none hi rfl trivial hnever
    split at hstep
    · cases hstep
      exact h.goOn_of_none hi rfl trivial hnever
    · cases hstep
      exact h.goOn_of_none hi rfl trivial hnever
  | candidate args =>
    unfold SessionSystem.advance at hstep
    rw [hcall] at hstep
    have hnever : ∀ {next : SessionStage}, LateInv s call.stage → LateInv s next := by
      intro next hlate
      rw [hcall] at hlate
      exact hlate.elim
    dsimp only at hstep
    split at hstep
    · cases hstep
      exact h.goOn_of_none hi rfl trivial hnever
    · cases hstep
      exact h.goOn_of_none hi rfl trivial hnever
    next row hread =>
    have hrow : s.sessions.find args.sid = some row :=
      Option.some.inj (Option.ite_none_right_eq_some.mp hread).2
    split at hstep
    · cases hstep
      exact h.goOn_of_none hi rfl trivial hnever
    · cases hstep
      have hknows := knowsSession_of_mem (Table.mem_of_find hrow)
      refine h.goOn_of_none hi rfl ⟨hknows, ⟨by simp [denyEntry], hknows, ?_⟩, trivial⟩ hnever
      exact (Table.key_of_find hrow : row.sid = args.sid)
  | candidates args =>
    rw [hcall] at hinv
    unfold SessionSystem.advance at hstep
    rw [hcall] at hstep
    have hnever : ∀ {next : SessionStage}, LateInv s call.stage → LateInv s next := by
      intro next hlate
      rw [hcall] at hlate
      exact hlate.elim
    dsimp only at hstep
    split at hstep
    · cases hstep
      exact h.goOn_of_none hi rfl trivial hnever
    split at hstep
    · cases hstep
      exact h.goOn args.revoked (.done (.revoked args.revoked)) hi
        (fun sid bound hbound => by simp [SessionStage.fill] at hbound) trivial hnever hinv
    · cases hstep
      have hknows : ∀ session ∈ (s.candidatesOf args).map UserSession.afterFind,
          KnowsSession s session := by
        intro session hsession
        obtain ⟨row, hrow, rfl⟩ := List.mem_map.mp hsession
        exact knowsSession_of_mem (mem_candidatesOf hrow)
      let candidates := (s.candidatesOf args).map UserSession.afterFind
      obtain ⟨hfill, hstage⟩ : (nextFence args candidates candidates).fill = none ∧
          StageInv syncFrequency s (nextFence args candidates candidates) :=
        stageInv_nextFence hknows hinv
      exact h.goOn_of_none hi hfill hstage hnever
  | done outcome =>
    unfold SessionSystem.advance at hstep
    rw [hcall] at hstep
    simp at hstep

theorem inv_step {a : SessionAct} (h : Inv syncFrequency s) (ha : a.cacheSucceeds = true)
    (hstep : step syncFrequency s a = some t) : Inv syncFrequency t := by
  cases a with
  | tick time =>
    simp only [step] at hstep
    split at hstep
    next hle =>
      cases hstep
      exact h.grow (grows_tick hle) rfl rfl h.versions h.cache
    · simp at hstep
  | get sid =>
    simp only [step] at hstep
    split at hstep
    · cases hstep
      exact h.start rfl trivial (by simp)
    · cases hstep
      refine h.start rfl trivial fun hlate => ?_
      exact h.revoked sid (of_decide_eq_true hlate)
  | revoke userID sid reason =>
    simp only [step] at hstep
    split at hstep
    · cases hstep
      exact h.start rfl trivial (by simp)
    · cases hstep
      exact h.start rfl trivial (by simp)
  | revokeAll userID excludedSID deviceIDs reason =>
    simp only [step] at hstep
    split at hstep
    · cases hstep
      exact h.start rfl trivial (by simp)
    · cases hstep
      exact h.start rfl (fun sid hsid => by simp at hsid) (by simp)
  | advance i dbOk cacheOk =>
    obtain rfl : cacheOk = true := ha
    simp only [step] at hstep
    split at hstep
    next call hi => exact h.advance hi hstep
    · simp at hstep

/--
Whatever fills are under way and however late they are: as long as the cache answers, a call that
reads a session after its revocation has returned does not find it active.
-/
theorem revoked_stays_out {clock : Int} {sessions : UserSessionTable} {acts : List SessionAct}
    (hversions : ∀ row ∈ sessions.rows, 0 < row.version)
    (hcache : ∀ a ∈ acts, a.cacheSucceeds = true)
    (hrun : Machine.run (step syncFrequency) (idle clock sessions) acts = some s) :
    ∀ call ∈ s.calls, call.late = true → ∀ session, call.stage ≠ .done (.active session) := by
  have hstep : ∀ s a t, Inv syncFrequency s → a.cacheSucceeds = true →
      step syncFrequency s a = some t → Inv syncFrequency t :=
    fun _ _ _ hi ha ht => inv_step hi ha ht
  have hinv : Inv syncFrequency s :=
    Machine.run_invariant (Inv syncFrequency) hstep acts _ s (inv_idle hversions)
      (Machine.meets_of_forall _ fun a ha _ => hcache a ha) hrun
  intro call hcall hlate session hstage
  have hnever := hinv.late call hcall hlate
  rw [hstage] at hnever
  exact hnever session rfl

def sampleSession : UserSession where
  sid := "s1"
  userID := 7
  version := 1
  userAuthVersion := 1
  status := .active
  refreshHash := "h0"
  previousRefreshHash := ""
  previousValidUntil := 0
  loginMethod := "password"
  ip := ""
  userAgent := ""
  deviceID := ""
  createdAt := 1
  lastActiveAt := 1
  expiresAt := 1000
  revokedAt := 0
  revokedReason := ""

/-- A fill has read the row as the session is revoked; a call after that reads the session. -/
def sampleRun : List SessionAct :=
  .get "s1" :: List.replicate 3 (.advance 0 true true) ++
    .revoke 7 "s1" "logout" :: List.replicate 6 (.advance 1 true true) ++
    List.replicate 3 (.advance 0 true true) ++
    .get "s1" :: List.replicate 2 (.advance 2 true true)

theorem revoked_stays_out_sample : ∃ s,
    Machine.run (step 60) (idle (100 * second) ⟨[sampleSession], by simp⟩) sampleRun = some s ∧
      (∀ call ∈ s.calls, call.late = true → ∀ session, call.stage ≠ .done (.active session)) ∧
      s.calls = [⟨.done .inactive, false⟩, ⟨.done (.revoked ["s1"]), false⟩,
        ⟨.done .inactive, true⟩] := by
  have hcalls : (Machine.run (step 60) (idle (100 * second) ⟨[sampleSession], by simp⟩)
      sampleRun).map SessionSystem.calls = some [⟨.done .inactive, false⟩,
        ⟨.done (.revoked ["s1"]), false⟩, ⟨.done .inactive, true⟩] := by decide +kernel
  obtain ⟨s, hrun, hs⟩ := Option.map_eq_some_iff.mp hcalls
  exact ⟨s, hrun, revoked_stays_out (by decide) (by decide) hrun, hs⟩

end SessionSystem

end JulongApi

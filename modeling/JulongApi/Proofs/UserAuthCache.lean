/-
No read of a user goes back behind a published version.

The floor is only ever raised to a version the database has, and the version of a row only grows:
the lock lets one transaction at a time raise it, from the version it has read.  So a late fill
never raises the floor above the database, and whoever reads the row finds at least the floor.  A
hash may be older than that, and it is the floor, read after it, that keeps it from being returned.
-/
import JulongApi.UserAuthCache

namespace JulongApi

/-! ### Scripts -/

namespace UserAuthKeys

variable {syncFrequency now now' id userId incoming version : Int} {keys keys' : UserAuthKeys}

theorem committed_congr (h : keys'.floors = keys.floors) :
    keys'.committed now id = keys.committed now id := by
  rw [committed, committed, h]

theorem committed_of_permanent (h : Expiry.Permanent keys.floors) :
    keys.committed now id = keys.committed now' id := by
  rw [committed, committed, h.get_eq]

theorem committed_publish_self :
    (keys.publish now userId incoming).committed now userId =
      max (keys.committed now userId) incoming := by
  by_cases hlt : keys.committed now userId < incoming
  · have hnew : (keys.publish now userId incoming).committed now userId = incoming := by
      have hfloors : (keys.publish now userId incoming).floors =
          Expiry.set keys.floors userId incoming := if_pos hlt
      rw [committed, hfloors, Expiry.get_set_self, Option.getD_some]
    rw [hnew, max_eq_right (Int.le_of_lt hlt)]
  · have hold : (keys.publish now userId incoming).committed now userId =
        keys.committed now userId := committed_congr (if_neg hlt)
    rw [hold, max_eq_left (Int.not_lt.mp hlt)]

theorem committed_publish_ne (h : userId ≠ id) :
    (keys.publish now userId incoming).committed now id = keys.committed now id := by
  unfold committed publish
  dsimp only
  split
  · rw [Expiry.get_set_ne h]
  · rfl

theorem permanent_publish (h : Expiry.Permanent keys.floors) :
    Expiry.Permanent (keys.publish now userId incoming).floors := by
  unfold publish
  dsimp only
  split
  · exact h.set
  · exact h

theorem floors_setFence :
    (keys.setFence syncFrequency now userId incoming).floors = keys.floors := by
  unfold setFence
  dsimp only
  split
  · rfl
  split
  · rfl
  split <;> rfl

theorem floors_writeUserCache {user : UserBase} {includeQuota : Bool}
    (h : keys.writeUserCache syncFrequency now user includeQuota = (true, keys')) :
    keys'.floors = (keys.publish now user.id user.authVersion).floors := by
  unfold writeUserCache at h
  split at h
  · simp at h
  · dsimp only at h
    split at h
    · rw [← (Prod.mk.inj h).2]
    · rw [← (Prod.mk.inj h).2]

theorem floors_updateField {field : UserCacheField} {value : String}
    (h : keys.updateField now userId field value incoming = (true, keys')) :
    keys'.floors = (keys.publish now userId incoming).floors := by
  unfold updateField at h
  split at h
  · simp at h
  · dsimp only at h
    split at h
    · rw [← (Prod.mk.inj h).2]
    split at h
    · rw [← (Prod.mk.inj h).2]
    · rw [← (Prod.mk.inj h).2]

theorem committed_le_floor : keys.committed now userId ≤ keys.floor now userId :=
  le_max_right _ _

end UserAuthKeys

namespace UserAuthSystem

/-! ### What the calls know of the rows -/

/-- The row of the user, if it is there, has come to the version. -/
def Reached (users : UserTable) (userId version : Int) : Prop :=
  ∀ row, users.find userId = some row → version ≤ row.authVersion

/-- The row of the user, if it is there, is at the version. -/
def Held (users : UserTable) (userId version : Int) : Prop :=
  ∀ row, users.find userId = some row → row.authVersion = version

/-- No row has gone back to an older version, and none is new. -/
def Grows (users users' : UserTable) : Prop :=
  ∀ userId row', users'.find userId = some row' →
    ∃ row, users.find userId = some row ∧ row.authVersion ≤ row'.authVersion

variable {users users' : UserTable} {userId version : Int} {keys : UserAuthKeys}
  {published : List (Int × Int)} {effect : Effect} {ok failed : UserAuthStage} {row user : UserRow}

theorem Reached.mono (h : Reached users userId version) (hgrows : Grows users users') :
    Reached users' userId version := by
  intro row' hrow'
  obtain ⟨row, hrow, hle⟩ := hgrows userId row' hrow'
  exact (h row hrow).trans hle

/-- What a call has read is not newer than the row, and not older if the call holds the lock. -/
def StageInv (users : UserTable) : UserAuthStage → Prop
  | .guard user | .populate user => Reached users user.id user.authVersion
  | .fence args _ read | .update args _ read => Held users args.userId read
  | .commit args next => ∃ read, Held users args.userId read ∧ next = max read 1 + 1
  | .publishCommitted userId next => 0 < next ∧ Reached users userId next
  | .reload userId next => ∀ version ∈ next, 0 < version ∧ Reached users userId version
  | .refresh user next =>
    Reached users user.id user.authVersion ∧
      ∀ version ∈ next, 0 < version ∧ version ≤ user.authVersion
  | .field userId _ _ version | .groupWrite userId _ _ version
  | .groupVerify userId _ _ version => Reached users userId version
  | _ => True

theorem StageInv.mono {stage : UserAuthStage} (h : StageInv users stage)
    (hgrows : Grows users users')
    (hheld : ∀ userId, stage.locks = some userId → ∀ version, Held users userId version →
      Held users' userId version) : StageInv users' stage := by
  cases stage with
  | guard user => exact Reached.mono h hgrows
  | populate user => exact Reached.mono h hgrows
  | fence args attempts read => exact hheld args.userId rfl read h
  | update args attempts read => exact hheld args.userId rfl read h
  | commit args next =>
    obtain ⟨read, hread, hnext⟩ := h
    exact ⟨read, hheld args.userId rfl read hread, hnext⟩
  | publishCommitted userId next => exact ⟨h.1, h.2.mono hgrows⟩
  | reload userId next =>
    exact fun version hversion => ⟨(h version hversion).1, (h version hversion).2.mono hgrows⟩
  | refresh user next => exact ⟨h.1.mono hgrows, h.2⟩
  | field userId field value version => exact Reached.mono h hgrows
  | groupWrite userId attempts group version => exact Reached.mono h hgrows
  | groupVerify userId attempts group version => exact Reached.mono h hgrows
  | lookup | check | load | lock | fieldVersion | groupLoad | invalidate | got | done => trivial

/-- What `GetUserCache` may return, or has returned, is not behind the versions `F`. -/
def Fresh (F : Int → Int) : UserAuthStage → Prop
  | .guard user | .populate user => F user.id ≤ max 0 user.authVersion
  | .got userId user => F userId ≤ max 0 user.authVersion
  | _ => True

/--
The floors are at the database's versions at most, and the calls from `n` on return users that are
not behind `F`, above which the floors are.
-/
structure Inv (F : Int → Int) (n : Nat) (s : UserAuthSystem) : Prop where
  permanent : Expiry.Permanent s.keys.floors
  reached : ∀ userId, F userId ≤ s.floor userId
  below : ∀ row ∈ s.users.rows, s.floor row.id ≤ max 0 row.authVersion
  once : ∀ userId, Pool.AtMostOne (fun call : UserAuthStage => call.locks = some userId) s.calls
  stages : ∀ call ∈ s.calls, StageInv s.users call
  fresh : ∀ i call, n ≤ i → s.calls[i]? = some call → Fresh F call
  published : ∀ p ∈ s.published, 0 < p.2 ∧ p.2 ≤ s.floor p.1

variable {syncFrequency : Int} {F : Int → Int} {n i : Nat} {s t : UserAuthSystem}
  {call stage : UserAuthStage}

theorem not_locks_of_not_locked (h : s.locked userId = false) :
    ∀ call ∈ s.calls, call.locks ≠ some userId := by
  intro call hcall hlocks
  have hnone := List.any_eq_false.mp h call hcall
  exact hnone (decide_eq_true hlocks)

/-! ### What a call goes on to -/

structure Fits (F : Int → Int) (n : Nat) (s : UserAuthSystem) (i : Nat)
    (call stage : UserAuthStage) : Prop where
  locks : ∀ userId, stage.locks = some userId → call.locks = some userId ∨ s.locked userId = false
  knows : StageInv s.users stage
  fresh : n ≤ i → Fresh F stage

theorem Fits.done {ok : Bool} : Fits F n s i call (.done ok) :=
  ⟨by simp [UserAuthStage.locks], trivial, fun _ => trivial⟩

theorem Inv.goOn (h : Inv F n s) (hi : s.calls[i]? = some call) (hfits : Fits F n s i call stage) :
    Inv F n (s.goOn i stage) where
  permanent := h.permanent
  reached := h.reached
  below := h.below
  once := by
    intro userId
    refine (h.once userId).set hi fun hlocks => ?_
    rcases hfits.locks userId hlocks with hcall | hfree
    · exact .inl hcall
    · exact .inr (not_locks_of_not_locked hfree)
  stages := by
    intro other hother
    rcases Pool.mem_set_cases hother with rfl | ⟨k, -, hk⟩
    · exact hfits.knows
    · exact h.stages other (List.mem_of_getElem? hk)
  fresh := by
    intro k other hk hother
    rcases Pool.getElem?_set_cases hother with ⟨rfl, rfl⟩ | ⟨-, hold⟩
    · exact hfits.fresh hk
    · exact h.fresh k other hk hold
  published := h.published

theorem Inv.start (h : Inv F n s) (hlocks : stage.locks = none) (hstage : StageInv s.users stage)
    (hfresh : Fresh F stage) : Inv F n (s.start stage) where
  permanent := h.permanent
  reached := h.reached
  below := h.below
  once := fun userId => (h.once userId).append fun other hother => by
    rw [List.mem_singleton.mp hother, hlocks]
    simp
  stages := by
    intro other hother
    rcases List.mem_append.mp hother with hold | hnew
    · exact h.stages other hold
    · rw [List.mem_singleton.mp hnew]
      exact hstage
  fresh := by
    intro k other hk hother
    rw [UserAuthSystem.start, List.getElem?_append] at hother
    split at hother
    · exact h.fresh k other hk hother
    · rw [List.mem_singleton.mp (List.mem_of_getElem? hother)]
      exact hfresh
  published := h.published

/-! ### Redis -/

theorem Inv.keep (h : Inv F n s) (hfloors : keys.floors = s.keys.floors) :
    Inv F n { s with keys := keys } := by
  have hfloor : ∀ userId, keys.committed s.clock userId = s.keys.committed s.clock userId :=
    fun userId => UserAuthKeys.committed_congr hfloors
  exact {
    permanent := hfloors ▸ h.permanent
    reached := fun userId => (h.reached userId).trans (hfloor userId).ge
    below := fun row hrow => (hfloor row.id).le.trans (h.below row hrow)
    once := h.once
    stages := h.stages
    fresh := h.fresh
    published := fun p hp => ⟨(h.published p hp).1, (h.published p hp).2.trans (hfloor p.1).ge⟩ }

theorem Inv.publish (h : Inv F n s) (hversion : Reached s.users userId version)
    (hfloors : keys.floors = (s.keys.publish s.clock userId version).floors)
    (hpublished : ∀ p ∈ published, p.1 = userId ∧ 0 < p.2 ∧ p.2 ≤ version) :
    Inv F n { s with keys := keys, published := published ++ s.published } := by
  have hself : keys.committed s.clock userId = max (s.floor userId) version := by
    rw [UserAuthKeys.committed_congr hfloors, UserAuthKeys.committed_publish_self]
    rfl
  have hother : ∀ id, userId ≠ id → keys.committed s.clock id = s.floor id := by
    intro id hne
    rw [UserAuthKeys.committed_congr hfloors, UserAuthKeys.committed_publish_ne hne]
    rfl
  have hmono : ∀ id, s.floor id ≤ keys.committed s.clock id := by
    intro id
    by_cases heq : userId = id
    · subst heq
      rw [hself]
      exact le_max_left _ _
    · exact (hother id heq).ge
  refine ⟨?_, fun id => (h.reached id).trans (hmono id), ?_, h.once, h.stages, h.fresh, ?_⟩
  · rw [hfloors]
    exact UserAuthKeys.permanent_publish h.permanent
  · intro row hrow
    show keys.committed s.clock row.id ≤ max 0 row.authVersion
    by_cases heq : userId = row.id
    · rw [← heq, hself]
      have hrow' : s.users.find userId = some row := heq ▸ Table.find_of_mem hrow
      have hfloor : s.floor userId ≤ max 0 row.authVersion := heq ▸ h.below row hrow
      exact max_le hfloor ((hversion row hrow').trans (le_max_right _ _))
    · rw [hother row.id heq]
      exact h.below row hrow
  · intro p hp
    show 0 < p.2 ∧ p.2 ≤ keys.committed s.clock p.1
    rcases List.mem_append.mp hp with hnew | hold
    · obtain ⟨huser, hpos, hle⟩ := hpublished p hnew
      rw [huser, hself]
      exact ⟨hpos, hle.trans (le_max_right _ _)⟩
    · exact ⟨(h.published p hold).1, (h.published p hold).2.trans (hmono p.1)⟩

theorem Inv.write (h : Inv F n s) (hi : s.calls[i]? = some call)
    (hkeys : Inv F n { s with keys := keys, published := published ++ s.published })
    (hok : Fits F n s i call ok) (hfailed : Fits F n s i call failed) :
    Inv F n (s.write i effect keys published ok failed) := by
  unfold UserAuthSystem.write
  cases effect with
  | ok => exact hkeys.goOn hi ⟨hok.locks, hok.knows, hok.fresh⟩
  | lost => exact hkeys.goOn hi ⟨hfailed.locks, hfailed.knows, hfailed.fresh⟩
  | failed => exact h.goOn hi hfailed

/-! ### Rows -/

theorem id_of_find (h : users.find userId = some row) : row.id = userId := by
  have hkey := Table.key_of_find h
  exact hkey

theorem find_of_getUserById (h : s.getUserById userId = some user) :
    s.users.find userId = some user := by
  unfold getUserById at h
  split at h
  · simp at h
  · exact (Option.filter_eq_some_iff.mp h).1

theorem reached_of_find (h : s.users.find userId = some user) :
    Reached s.users userId user.authVersion := by
  intro row hrow
  rw [h] at hrow
  rw [Option.some.inj hrow]

theorem Inv.reached_row (h : Inv F n s) (hfind : s.users.find userId = some user) :
    F userId ≤ max 0 user.authVersion := by
  have hid : user.id = userId := id_of_find hfind
  have hbelow := h.below user (Table.mem_of_find hfind)
  rw [hid] at hbelow
  exact (h.reached userId).trans hbelow

theorem Inv.rows (h : Inv F n s) (hgrows : Grows s.users users)
    (hheld : ∀ call ∈ s.calls, ∀ userId, call.locks = some userId → ∀ version,
      Held s.users userId version → Held users userId version) :
    Inv F n { s with users := users } where
  permanent := h.permanent
  reached := h.reached
  below := by
    intro row hrow
    obtain ⟨old, hold, hle⟩ := hgrows row.id row (Table.find_of_mem hrow)
    have hid : old.id = row.id := id_of_find hold
    have hfloor : s.floor row.id ≤ max 0 old.authVersion := by
      rw [← hid]
      exact h.below old (Table.mem_of_find hold)
    exact hfloor.trans (max_le_max le_rfl hle)
  once := h.once
  stages := fun other hother =>
    (h.stages other hother).mono hgrows (hheld other hother)
  fresh := h.fresh
  published := h.published

variable {new : UserRow} {next : Int} {args : IncrementArgs} {attempts : Nat}

theorem grows_save (hfind : users.find new.id = some row)
    (hle : row.authVersion ≤ new.authVersion) : Grows users (users.save new) := by
  intro userId row' hrow'
  by_cases heq : new.id = userId
  · subst heq
    rw [Table.find_save_self hfind] at hrow'
    exact ⟨row, hfind, Option.some.inj hrow' ▸ hle⟩
  · have hother : (users.save new).find userId = users.find userId := Table.find_save_ne heq
    rw [hother] at hrow'
    exact ⟨row', hrow', le_rfl⟩

theorem grows_erase : Grows users (users.erase userId) := by
  intro id row' hrow'
  by_cases heq : userId = id
  · rw [heq, Table.find_erase_self] at hrow'
    simp at hrow'
  · rw [Table.find_erase_ne heq] at hrow'
    exact ⟨row', hrow', le_rfl⟩

theorem Held.of_find_eq (h : Held users userId version)
    (heq : users'.find userId = users.find userId) : Held users' userId version := by
  intro row hrow
  rw [heq] at hrow
  exact h row hrow

theorem changed_spec {change : UserAuthChange} (h : changed row next change = some new) :
    new.id = row.id ∧ new.authVersion = next := by
  unfold changed at h
  split at h
  · split at h
    · cases h
      exact ⟨rfl, rfl⟩
    · cases h
      exact ⟨rfl, rfl⟩
  · split at h
    · cases h
      exact ⟨rfl, rfl⟩
    · cases h
      exact ⟨rfl, rfl⟩
  · split at h
    · simp at h
    · cases h
      exact ⟨rfl, rfl⟩

theorem find_committedRows_ne {id : Int} {new : Option UserRow}
    (hnew : ∀ row ∈ new, row.id = userId) (hne : userId ≠ id) :
    (committedRows users userId new).find id = users.find id := by
  cases new with
  | none => exact Table.find_erase_ne hne
  | some row =>
    have hid : row.id ≠ id := (hnew row rfl).trans_ne hne
    exact Table.find_save_ne hid

theorem Inv.commit (h : Inv F n s) (hi : s.calls[i]? = some call)
    (hcall : call = .commit args next) : Inv F n (s.commit i effect args next) := by
  obtain ⟨read, hread, hnext⟩ : ∃ read, Held s.users args.userId read ∧ next = max read 1 + 1 := by
    have hstage := h.stages call (List.mem_of_getElem? hi)
    rw [hcall] at hstage
    exact hstage
  have hdone : Inv F n (s.goOn i (.done false)) := h.goOn hi .done
  unfold UserAuthSystem.commit
  split
  · exact hdone
  next row hrow =>
  have hfind : s.users.find args.userId = some row := (Option.filter_eq_some_iff.mp hrow).1
  have hid : row.id = args.userId := id_of_find hfind
  have hversion : row.authVersion = read := hread row hfind
  generalize hnew : changed row next args.change = new
  dsimp only
  have hspec : ∀ row' ∈ new, row'.id = args.userId ∧ row'.authVersion = next := by
    intro row' hrow'
    obtain ⟨hsame, hauth⟩ := changed_spec (hnew.trans hrow')
    exact ⟨hsame.trans hid, hauth⟩
  have hgrows : Grows s.users (committedRows s.users args.userId new) := by
    cases new with
    | none => exact grows_erase
    | some row' =>
      obtain ⟨hsame, hauth⟩ := hspec row' rfl
      exact grows_save (hsame ▸ hfind) (by omega)
  -- the call has the lock, so the other calls know nothing of the row that could fail now
  have hothers : ∀ other ∈ (s.goOn i (.done false)).calls, ∀ userId, other.locks = some userId →
      ∀ version, Held s.users userId version →
        Held (committedRows s.users args.userId new) userId version := by
    intro other hother userId hlocks version hheld
    rcases Pool.mem_set_cases hother with rfl | ⟨k, hk, hold⟩
    · simp [UserAuthStage.locks] at hlocks
    · have hne : args.userId ≠ userId := by
        rintro rfl
        exact (h.once args.userId).not_of_ne hi (by rw [hcall]; rfl) hk hold hlocks
      exact hheld.of_find_eq (find_committedRows_ne (fun row' hrow' => (hspec row' hrow').1) hne)
  have hrows := hdone.rows hgrows hothers
  cases effect with
  | failed => exact hdone
  | lost => exact hrows
  | ok =>
    have hi' : (s.calls.set i (.done false))[i]? = some (.done false) := by
      have hlt := (List.getElem?_eq_some_iff.mp hi).1
      simp [hlt]
    have hfits : Fits F n { s.goOn i (.done false) with
        users := committedRows s.users args.userId new } i (.done false)
        (publication args.userId next new args.change) := by
      have hpos : 0 < next := by omega
      have hreached : Reached (committedRows s.users args.userId new) args.userId next := by
        intro row' hrow'
        cases new with
        | none =>
          rw [committedRows, Table.find_erase_self] at hrow'
          simp at hrow'
        | some saved =>
          obtain ⟨hsame, hauth⟩ := hspec saved rfl
          have hsaved : (s.users.save saved).find saved.id = some saved :=
            Table.find_save_self (hsame ▸ hfind)
          rw [hsame] at hsaved
          rw [Option.some.inj (hsaved.symm.trans hrow')] at hauth
          exact hauth.ge
      cases hchange : args.change with
      | update user =>
        refine ⟨by simp [publication, UserAuthStage.locks], ?_, fun _ => trivial⟩
        intro version hversion'
        cases hversion'
        exact ⟨hpos, hreached⟩
      | edit user =>
        cases new with
        | none => exact Fits.done
        | some saved =>
          obtain ⟨hsame, hauth⟩ := hspec saved rfl
          refine ⟨by simp [publication, UserAuthStage.locks], ⟨?_, ?_⟩, fun _ => trivial⟩
          · show Reached _ saved.id saved.authVersion
            rw [hsame, hauth]
            exact hreached
          · intro version hversion'
            cases hversion'
            exact ⟨hpos, hauth.ge⟩
      | delete hard =>
        exact ⟨by simp [publication, UserAuthStage.locks], ⟨hpos, hreached⟩, fun _ => trivial⟩
    have hgone := hrows.goOn hi' hfits
    simp only [UserAuthSystem.goOn, List.set_set] at hgone ⊢
    exact hgone

/-! ### Steps -/

theorem Fits.of_free (hlocks : stage.locks = none) (hstage : StageInv s.users stage)
    (hfresh : n ≤ i → Fresh F stage) : Fits F n s i call stage :=
  ⟨by simp [hlocks], hstage, hfresh⟩

theorem Inv.writePublished (h : Inv F n s) (hi : s.calls[i]? = some call)
    (hversion : Reached s.users userId version)
    (hfloors : keys.floors = (s.keys.publish s.clock userId version).floors)
    (hpublished : ∀ p ∈ published, p.1 = userId ∧ 0 < p.2 ∧ p.2 ≤ version)
    (hok : Fits F n s i call ok) (hfailed : Fits F n s i call failed) :
    Inv F n (s.write i effect keys published ok failed) :=
  h.write hi (h.publish hversion hfloors hpublished) hok hfailed

theorem Inv.writeKept (h : Inv F n s) (hi : s.calls[i]? = some call)
    (hfloors : keys.floors = s.keys.floors) (hok : Fits F n s i call ok)
    (hfailed : Fits F n s i call failed) : Inv F n (s.write i effect keys [] ok failed) :=
  h.write hi (h.keep hfloors) hok hfailed

theorem find_of_read (h : (if effect = .ok then s.getUserById userId else none) = some user) :
    s.users.find userId = some user := by
  split at h
  · exact find_of_getUserById h
  · simp at h

section

variable (h : Inv F n s) (hi : s.calls[i]? = some call)
  (hstep : s.advance syncFrequency i effect call = some t)

include h hi hstep

theorem Inv.get
    (hcall : call = .lookup userId ∨ (∃ user, call = .check userId user) ∨ call = .load userId) :
    Inv F n t := by
  have hload : Fits F n s i call (.load userId) := .of_free rfl trivial fun _ => trivial
  rcases hcall with rfl | ⟨user, rfl⟩ | rfl
  · simp only [advance] at hstep
    split at hstep
    · cases hstep
      exact h.goOn hi (.of_free rfl trivial fun _ => trivial)
    · cases hstep
      exact h.goOn hi hload
  · simp only [advance] at hstep
    split at hstep
    next hfloor =>
      -- the hash may be old, but it is at the floor as the floor is read
      cases hstep
      refine h.goOn hi (.of_free rfl trivial fun _ => ?_)
      have hle : s.floor userId ≤ user.authVersion :=
        UserAuthKeys.committed_le_floor.trans hfloor.2
      exact (h.reached userId).trans (hle.trans (le_max_right _ _))
    · cases hstep
      exact h.goOn hi hload
  · simp only [advance] at hstep
    split at hstep
    next user hread =>
      cases hstep
      have hfind := find_of_read hread
      have hid : user.id = userId := id_of_find hfind
      refine h.goOn hi (.of_free rfl ?_ fun _ => ?_)
      · show Reached s.users user.id user.authVersion
        rw [hid]
        exact reached_of_find hfind
      · show F user.id ≤ max 0 user.authVersion
        rw [hid]
        exact h.reached_row hfind
    · cases hstep
      exact h.goOn hi .done

theorem Inv.fill (hcall : call = .guard user ∨ call = .populate user) : Inv F n t := by
  have hknows : Reached s.users user.id user.authVersion := by
    have hstage := h.stages call (List.mem_of_getElem? hi)
    rcases hcall with rfl | rfl <;> exact hstage
  have hfresh : n ≤ i → F user.id ≤ max 0 user.authVersion := by
    intro hn
    have hcalls := h.fresh i call hn hi
    rcases hcall with rfl | rfl <;> exact hcalls
  have hgot : Fits F n s i call (.got user.id user.toBaseUser) := .of_free rfl trivial hfresh
  rcases hcall with rfl | rfl
  · simp only [advance] at hstep
    split at hstep
    · cases hstep
      exact h.goOn hi .done
    · cases hstep
      exact h.goOn hi (.of_free rfl hknows hfresh)
  · simp only [advance] at hstep
    split at hstep
    · cases hstep
      exact h.goOn hi hgot
    split at hstep
    next hwrite =>
      cases hstep
      exact h.writePublished hi hknows (UserAuthKeys.floors_writeUserCache hwrite) (by simp) hgot
        hgot
    · cases hstep
      split
      · exact h.goOn hi .done
      · exact h.goOn hi hgot

theorem Inv.increment (hcall : call.locks = some args.userId) {read : Int}
    (hstage : call = .fence args attempts read ∨ call = .update args attempts read) :
    Inv F n t := by
  have hheld : Held s.users args.userId read := by
    have hknows := h.stages call (List.mem_of_getElem? hi)
    rcases hstage with rfl | rfl <;> exact hknows
  have hstays : ∀ {stage : UserAuthStage}, stage.locks = some args.userId →
      ∀ userId, stage.locks = some userId → call.locks = some userId ∨ s.locked userId = false :=
    fun hlocks userId hstage => .inl (hcall.trans (hlocks.symm.trans hstage))
  rcases hstage with rfl | rfl
  · simp only [advance] at hstep
    cases hstep
    exact h.writeKept hi UserAuthKeys.floors_setFence ⟨hstays rfl, hheld, fun _ => trivial⟩ .done
  · simp only [advance] at hstep
    split at hstep
    · cases hstep
      exact h.goOn hi .done
    split at hstep
    · cases hstep
      exact h.goOn hi ⟨hstays rfl, ⟨read, hheld, rfl⟩, fun _ => trivial⟩
    split at hstep
    · cases hstep
      exact h.goOn hi .done
    · cases hstep
      exact h.goOn hi ⟨hstays rfl, trivial, fun _ => trivial⟩

theorem Inv.refresh {user : UserBase} {next : Option Int} (hcall : call = .refresh user next) :
    Inv F n t := by
  subst hcall
  obtain ⟨hknows, hnext⟩ := h.stages _ (List.mem_of_getElem? hi)
  simp only [advance] at hstep
  split at hstep
  · cases hstep
    exact h.goOn hi .done
  split at hstep
  · cases hstep
    exact h.goOn hi .done
  split at hstep
  next hwrite =>
    cases hstep
    refine h.writePublished hi hknows (UserAuthKeys.floors_writeUserCache hwrite) ?_ .done .done
    intro p hp
    obtain ⟨version, hversion, rfl⟩ := List.mem_map.mp hp
    exact ⟨rfl, hnext version (Option.mem_toList.mp hversion)⟩
  · cases hstep
    exact h.goOn hi .done

theorem Inv.group {group : String} (hcall : call = .groupWrite userId attempts group version ∨
    call = .groupVerify userId attempts group version) : Inv F n t := by
  rcases hcall with rfl | rfl
  · have hknows : Reached s.users userId version := h.stages _ (List.mem_of_getElem? hi)
    simp only [advance] at hstep
    split at hstep
    · cases hstep
      exact h.goOn hi .done
    split at hstep
    next hwrite =>
      cases hstep
      refine h.writePublished hi hknows (UserAuthKeys.floors_updateField hwrite) (by simp) ?_ .done
      cases attempts with
      | zero => exact .done
      | succ attempts => exact .of_free rfl hknows fun _ => trivial
    · cases hstep
      exact h.goOn hi .done
  · simp only [advance] at hstep
    split at hstep
    next user hread =>
      split at hstep
      · cases hstep
        exact h.goOn hi .done
      · cases hstep
        exact h.goOn hi (.of_free rfl (reached_of_find (find_of_read hread)) fun _ => trivial)
    · cases hstep
      exact h.goOn hi .done

end

theorem Inv.advance (h : Inv F n s) (hi : s.calls[i]? = some call)
    (hstep : s.advance syncFrequency i effect call = some t) : Inv F n t := by
  have hknows := h.stages call (List.mem_of_getElem? hi)
  cases call with
  | lookup userId => exact h.get hi hstep (.inl rfl)
  | check userId user => exact h.get hi hstep (.inr (.inl ⟨user, rfl⟩))
  | load userId => exact h.get hi hstep (.inr (.inr rfl))
  | guard user => exact h.fill hi hstep (.inl rfl)
  | populate user => exact h.fill hi hstep (.inr rfl)
  | fence args attempts read => exact h.increment hi hstep rfl (.inl rfl)
  | update args attempts read => exact h.increment hi hstep rfl (.inr rfl)
  | refresh user next => exact h.refresh hi hstep rfl
  | groupWrite userId attempts group version => exact h.group hi hstep (.inl rfl)
  | groupVerify userId attempts group version => exact h.group hi hstep (.inr rfl)
  | groupLoad userId =>
    simp only [UserAuthSystem.advance] at hstep
    split at hstep
    next user hread =>
      cases hstep
      exact h.goOn hi (.of_free rfl (reached_of_find (find_of_read hread)) fun _ => trivial)
    · cases hstep
      exact h.goOn hi .done
  | lock args attempts locked =>
    simp only [UserAuthSystem.advance] at hstep
    split at hstep
    · simp at hstep
    next hfree =>
    split at hstep
    next row hread =>
      cases hstep
      refine h.goOn hi ⟨fun userId hlocks => ?_, fun row' hrow' => ?_, fun _ => trivial⟩
      · cases hlocks
        cases locked with
        | true => exact .inl rfl
        | false => exact .inr (by simpa using hfree)
      · split at hread
        · rw [Option.some.inj (hrow'.symm.trans hread)]
        · simp at hread
    · cases hstep
      exact h.goOn hi .done
  | commit args next =>
    cases hstep
    exact h.commit hi rfl
  | publishCommitted userId next =>
    cases hstep
    refine h.writePublished hi hknows.2 rfl ?_ .done .done
    intro p hp
    rw [List.mem_singleton.mp hp]
    exact ⟨rfl, hknows.1, le_rfl⟩
  | reload userId next =>
    simp only [UserAuthSystem.advance] at hstep
    split at hstep
    next user hread =>
      cases hstep
      have hfind := find_of_read hread
      have hid : user.id = userId := id_of_find hfind
      refine h.goOn hi (.of_free rfl ⟨?_, fun version hversion => ?_⟩ fun _ => trivial)
      · show Reached s.users user.id user.authVersion
        rw [hid]
        exact reached_of_find hfind
      · exact ⟨(hknows version hversion).1, (hknows version hversion).2 user hfind⟩
    · cases hstep
      exact h.goOn hi .done
  | fieldVersion userId field value =>
    simp only [UserAuthSystem.advance] at hstep
    split at hstep
    next user hread =>
      split at hstep
      · cases hstep
        exact h.goOn hi .done
      · cases hstep
        exact h.goOn hi (.of_free rfl (reached_of_find (find_of_read hread)) fun _ => trivial)
    · cases hstep
      exact h.goOn hi .done
  | field userId field value version =>
    simp only [UserAuthSystem.advance] at hstep
    split at hstep
    · cases hstep
      exact h.goOn hi .done
    split at hstep
    next hwrite =>
      cases hstep
      exact h.writePublished hi hknows (UserAuthKeys.floors_updateField hwrite) (by simp) .done
        .done
    · cases hstep
      exact h.goOn hi .done
  | invalidate userId =>
    cases hstep
    exact h.writeKept hi rfl .done .done
  | got userId user => simp [UserAuthSystem.advance] at hstep
  | done ok => simp [UserAuthSystem.advance] at hstep

theorem le_initialized (row : UserRow) : row.authVersion ≤ (initialized row).authVersion := by
  unfold initialized
  split
  next hlt => exact Int.le_of_lt hlt
  · exact le_rfl

theorem inv_step {a : UserAuthAct} (h : Inv F n s) (hstep : step syncFrequency s a = some t) :
    Inv F n t := by
  cases a with
  | tick time =>
    simp only [step] at hstep
    split at hstep
    · cases hstep
      have hfloor : ∀ userId, s.keys.committed time userId = s.floor userId :=
        fun userId => UserAuthKeys.committed_of_permanent h.permanent
      refine ⟨h.permanent, ?_, ?_, h.once, h.stages, h.fresh, ?_⟩
      · exact fun userId => (h.reached userId).trans (hfloor userId).ge
      · exact fun row hrow => (hfloor row.id).le.trans (h.below row hrow)
      · exact fun p hp => ⟨(h.published p hp).1, (h.published p hp).2.trans (hfloor p.1).ge⟩
    · simp at hstep
  | edit row =>
    simp only [step] at hstep
    split at hstep
    · simp at hstep
    next old hfind =>
    split at hstep
    · simp at hstep
    next hfree =>
    cases hstep
    have hgrows : Grows s.users (s.users.save { row with authVersion := old.authVersion }) :=
      grows_save hfind le_rfl
    refine h.rows hgrows fun call hcall userId hlocks version => ?_
    have hne : row.id ≠ userId := by
      rintro rfl
      exact not_locks_of_not_locked (Bool.not_eq_true _ ▸ hfree) call hcall hlocks
    exact fun hheld => hheld.of_find_eq (Table.find_save_ne hne)
  | initVersions =>
    simp only [step] at hstep
    split at hstep
    · simp at hstep
    next hfree =>
    cases hstep
    refine h.rows (fun userId row' hrow' => ?_) fun call hcall userId hlocks version hheld => ?_
    · rw [Table.find_mapRows] at hrow'
      obtain ⟨row, hrow, rfl⟩ := Option.map_eq_some_iff.mp hrow'
      exact ⟨row, hrow, le_initialized row⟩
    · -- a row that is there is not locked
      cases hfind : s.users.find userId with
      | none => exact hheld.of_find_eq (by rw [Table.find_mapRows, hfind]; rfl)
      | some row =>
        have hid : row.id = userId := id_of_find hfind
        have hany := List.any_eq_false.mp (Bool.not_eq_true _ ▸ hfree) row
          (Table.mem_of_find hfind)
        rw [hid] at hany
        exact absurd hlocks
          (not_locks_of_not_locked (Bool.not_eq_true _ ▸ hany) call hcall)
  | quotaDelta userId delta =>
    cases hstep
    exact h.keep rfl
  | get userId =>
    cases hstep
    exact h.start rfl trivial trivial
  | increment args =>
    simp only [step] at hstep
    split at hstep
    · cases hstep
      exact h.start rfl trivial trivial
    · cases hstep
      exact h.start rfl trivial trivial
  | reload userId =>
    cases hstep
    exact h.start rfl (fun version hversion => by simp at hversion) trivial
  | updateField userId field value =>
    cases hstep
    exact h.start rfl trivial trivial
  | refreshGroup userId =>
    simp only [step] at hstep
    split at hstep
    · cases hstep
      exact h.start rfl trivial trivial
    · cases hstep
      exact h.start rfl trivial trivial
  | invalidate userId =>
    cases hstep
    exact h.start rfl trivial trivial
  | advance i effect =>
    simp only [step] at hstep
    split at hstep
    next call hi => exact h.advance hi hstep
    · simp at hstep

theorem inv_idle {clock : Int} :
    Inv (fun _ => 0) 0 (idle clock users) where
  permanent := Expiry.permanent_empty
  reached := fun _ => le_rfl
  below := fun _ _ => le_max_left _ _
  once := fun _ i k a b hi => by simp [idle] at hi
  stages := fun call hcall => by simp [idle] at hcall
  fresh := fun i call _ hi => by simp [idle] at hi
  published := fun p hp => by simp [idle] at hp

theorem Inv.rebase (h : Inv F n s) : Inv s.floor s.calls.length s where
  permanent := h.permanent
  reached := fun _ => le_rfl
  below := h.below
  once := h.once
  stages := h.stages
  fresh := fun i call hn hi => by
    have hlt := (List.getElem?_eq_some_iff.mp hi).1
    omega
  published := h.published

/--
The floor of a user never goes down, and `GetUserCache`, called after a version was published, does
not return the user at a version below it.
-/
theorem auth_version_safe {clock : Int} {users : UserTable} {before after : List UserAuthAct}
    (hbefore : Machine.run (step syncFrequency) (idle clock users) before = some s)
    (hafter : Machine.run (step syncFrequency) s after = some t) :
    (∀ userId, s.floor userId ≤ t.floor userId) ∧
      ∀ i userId user, s.calls.length ≤ i → t.calls[i]? = some (.got userId user) →
        ∀ version, (userId, version) ∈ s.published → version ≤ user.authVersion := by
  have hs : Inv (fun _ => 0) 0 s :=
    Machine.run_preserves _ (fun _ _ _ hi ht => inv_step hi ht) inv_idle hbefore
  have ht : Inv s.floor s.calls.length t :=
    Machine.run_preserves _ (fun _ _ _ hi ht => inv_step hi ht) hs.rebase hafter
  refine ⟨ht.reached, fun i userId user hn hi version hversion => ?_⟩
  obtain ⟨hpos, hle⟩ : 0 < version ∧ version ≤ s.floor userId := hs.published _ hversion
  have hfresh : s.floor userId ≤ max 0 user.authVersion := ht.fresh i _ hn hi
  omega

def sampleProfile (group : String) (authVersion : Int) : UserProfile where
  id := 7
  group := group
  groupRatioAdjustmentEnabled := false
  groupRatioAdjustment := "0"
  email := ""
  status := 1
  role := 1
  username := "ann"
  setting := ""
  requestContentLoggingEnabled := false
  authVersion := authVersion

def sampleUsers : UserTable := ⟨[⟨sampleProfile "default" 1, 100, false⟩], by simp⟩

/-- A fill has read the row, and the version after it is published. -/
def sampleBefore : List UserAuthAct :=
  .get 7 :: List.replicate 3 (.advance 0 .ok) ++
    .increment ⟨7, .update (sampleProfile "vip" 0)⟩ :: List.replicate 6 (.advance 1 .ok)

def sampleAfter : List UserAuthAct :=
  [.advance 0 .ok, .get 7, .advance 2 .ok, .advance 2 .ok, .advance 2 .ok, .advance 2 .ok]

theorem auth_version_safe_sample : ∃ s t,
    Machine.run (step 60) (idle 0 sampleUsers) sampleBefore = some s ∧
      Machine.run (step 60) s sampleAfter = some t ∧
      ((∀ userId, s.floor userId ≤ t.floor userId) ∧
        ∀ i userId user, s.calls.length ≤ i → t.calls[i]? = some (.got userId user) →
          ∀ version, (userId, version) ∈ s.published → version ≤ user.authVersion) ∧
      s.published = [(7, 2)] ∧
      t.calls = [.done false, .done true,
        .got 7 ⟨sampleProfile "vip" 2, 100, userCacheSchemaVersion⟩] := by
  have hruns : (Machine.run (step 60) (idle 0 sampleUsers) sampleBefore).map (fun s =>
      (s.published, (Machine.run (step 60) s sampleAfter).map UserAuthSystem.calls)) =
        some ([(7, 2)], some [.done false, .done true,
          .got 7 ⟨sampleProfile "vip" 2, 100, userCacheSchemaVersion⟩]) := by decide +kernel
  obtain ⟨s, hbefore, hs⟩ := Option.map_eq_some_iff.mp hruns
  obtain ⟨hpublished, hcalls⟩ := Prod.mk.inj hs
  obtain ⟨t, hafter, ht⟩ := Option.map_eq_some_iff.mp hcalls
  exact ⟨s, t, hbefore, hafter, auth_version_safe hbefore hafter, hpublished, ht⟩

end UserAuthSystem

end JulongApi

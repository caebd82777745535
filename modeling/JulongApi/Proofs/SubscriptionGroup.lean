/-
The group of a user who has no subscription left.

Only the subscription that is looked at as the last one ends can give the group back, and it knows
the group its user had as it was created.  With one subscription at a time that is enough.  With
several that overlap it is not: one bought on top of another of the same group has noted no group
at all, and one bought on top of another group has noted that one.  `Unwinds` says of every step
what has to be noted where for the group to be given back, and it is exact (`group_restored_iff`).
-/
import JulongApi.SubscriptionGroup
import JulongApi.Proofs.SubscriptionReset

namespace JulongApi

variable {sub : GroupSubscription} {group : String}

namespace GroupSubscription

/-- The subscription has moved the user into the group, out of another one. -/
def Lifted (sub : GroupSubscription) (group : String) : Prop :=
  trimSpace sub.upgradeGroup ≠ "" ∧ trimSpace sub.upgradeGroup = group ∧
    trimSpace sub.prevUserGroup ≠ ""

instance (sub : GroupSubscription) (group : String) : Decidable (sub.Lifted group) :=
  inferInstanceAs (Decidable (_ ∧ _ ∧ _))

/-- The subscription notes the group `before` for a user in `group`, if it notes one. -/
def Restores (sub : GroupSubscription) (group before : String) : Prop :=
  (sub.Lifted group → trimSpace sub.prevUserGroup = before) ∧
    (¬sub.Lifted group → group = before)

def restored (sub : GroupSubscription) (group : String) : String :=
  if sub.Lifted group then trimSpace sub.prevUserGroup else group

theorem restored_eq_iff {before : String} :
    sub.restored group = before ↔ sub.Restores group before := by
  unfold restored Restores
  by_cases hlifted : sub.Lifted group
  · simp [hlifted]
  · simp [hlifted]

end GroupSubscription

theorem downgradeTarget_getD (hdown : trimSpace sub.downgradeGroup = "") :
    (downgradeTarget sub group).getD group = sub.restored group := by
  unfold downgradeTarget GroupSubscription.restored GroupSubscription.Lifted
  simp only [hdown, true_and, if_true]
  by_cases hup : trimSpace sub.upgradeGroup = ""
  · simp [hup]
  by_cases hgroup : group = trimSpace sub.upgradeGroup
  · subst hgroup
    by_cases hprev : trimSpace sub.prevUserGroup = ""
    · simp [hprev]
    by_cases hsame : trimSpace sub.prevUserGroup = trimSpace sub.upgradeGroup
    · simp [hup, hsame]
    · simp [hup, hprev, hsame]
  · simp [hup, hgroup, Ne.symm hgroup]

theorem expireTarget_getD (hdown : trimSpace sub.downgradeGroup = "") :
    (expireTarget sub group).getD group = sub.restored group := by
  unfold expireTarget GroupSubscription.restored GroupSubscription.Lifted
  simp only [hdown, true_and, if_true]
  by_cases hup : trimSpace sub.upgradeGroup = ""
  · simp [hup]
  by_cases hprev : trimSpace sub.prevUserGroup = ""
  · simp [hprev]
  by_cases hgroup : group = trimSpace sub.upgradeGroup
  · subst hgroup
    by_cases hsame : trimSpace sub.prevUserGroup = trimSpace sub.upgradeGroup
    · simp [hup, hsame]
    · simp [hup, hprev, hsame]
  · simp [hup, hprev, hgroup, Ne.symm hgroup]

namespace SubscriptionGroups

variable {cal : PlanCalendar} {s t : SubscriptionGroups} {userId : Nat} {now : Int}

/-! ### What is to be shown -/

def Idle (s : SubscriptionGroups) (userId : Nat) : Prop :=
  ∀ sub ∈ s.subs.rows, sub.userId = userId → sub.status ≠ .active

/-- Users without an active subscription are in the group they had before. -/
def Restored (s : SubscriptionGroups) : Prop :=
  ∀ userId user, s.users.find userId = some user → s.Idle userId → user.group = s.before userId

def Plain (s : SubscriptionGroups) : Prop :=
  ∀ sub ∈ s.subs.rows, trimSpace sub.downgradeGroup = ""

def NoDowngrade : SubscriptionGroupAct → Prop
  | .create _ _ plan _ => trimSpace plan.downgradeGroup = ""
  | _ => True

/-- The subscription of the user that has expired last, once those that are due have. -/
def lastToExpire (s : SubscriptionGroups) (userId : Nat) (now : Int) : Option GroupSubscription :=
  ((s.subs.rows.filter fun sub =>
      decide (sub.userId = userId ∧ (sub.status = .expired ∨ sub.due now = true) ∧
        (sub.downgradeGroup ≠ "" ∨ sub.upgradeGroup ≠ ""))).insertionSort
    GroupSubscription.After).head?

/--
Where the step ends the last active subscription of a user, or looks at an ended one while none is
active, the subscription it looks at has moved the user into the group he is in, out of the group he
had before; or it has not, and he is in that group.
-/
def Unwinds (s : SubscriptionGroups) : SubscriptionGroupAct → Prop
  | .create _ _ _ _ => True
  | .findDue _ _ => True
  | .expire i userId =>
    ∀ sweep, s.sweeps[i]? = some sweep → userId ∈ sweep.userIds →
      ∀ user, s.users.find userId = some user →
        (∀ sub ∈ s.subs.rows, sub.userId = userId → sub.status = .active →
          sub.due sweep.now = true) →
        match s.lastToExpire userId sweep.now with
        | none => user.group = s.before userId
        | some sub => sub.Restores user.group (s.before userId)
  | .invalidate id _ | .delete id _ =>
    ∀ sub, s.subs.find id = some sub → ∀ user, s.users.find sub.userId = some user →
      (∀ other ∈ s.subs.rows, other.userId = sub.userId → other.id ≠ id →
        other.status ≠ .active) →
      sub.Restores user.group (s.before sub.userId)

/-! ### One user's step -/

theorem restored_iff_of_user (userId : Nat) (h : s.Restored) (hbefore : t.before = s.before)
    (husers : ∀ id, id ≠ userId → t.users.find id = s.users.find id)
    (hsubs : ∀ sub, sub.userId ≠ userId → (sub ∈ t.subs.rows ↔ sub ∈ s.subs.rows)) :
    t.Restored ↔ ∀ user, t.users.find userId = some user → t.Idle userId →
      user.group = s.before userId := by
  constructor
  · intro ht user hfind hidle
    rw [← hbefore]
    exact ht userId user hfind hidle
  · intro huser id user hfind hidle
    rw [hbefore]
    by_cases hid : id = userId
    · subst hid
      exact huser user hfind hidle
    · refine h id user ((husers id hid).symm.trans hfind) fun sub hsub hsame => ?_
      exact hidle sub ((hsubs sub (hsame.trans_ne hid)).mpr hsub) hsame

variable {user : GroupUser} {target : Option String} {id : Nat} {a : SubscriptionGroupAct}

theorem find_setGroup (hfind : s.users.find userId = some user) :
    (s.setGroup userId target).users.find userId = some ⟨userId, target.getD user.group⟩ := by
  obtain ⟨id, old⟩ := user
  obtain rfl : id = userId := Table.key_of_find hfind
  cases target with
  | none => exact hfind
  | some group =>
    have hsaved : (s.users.save ⟨id, group⟩).find id = some ⟨id, group⟩ :=
      Table.find_save_self hfind
    exact hsaved

theorem find_setGroup_ne (hid : id ≠ userId) :
    (s.setGroup userId target).users.find id = s.users.find id := by
  cases target with
  | none => rfl
  | some group => exact Table.find_save_ne (Ne.symm hid)

theorem subs_setGroup : (s.setGroup userId target).subs = s.subs := by
  cases target <;> rfl

theorem before_setGroup : (s.setGroup userId target).before = s.before := by
  cases target <;> rfl

theorem groupOf_eq (hfind : s.users.find userId = some user) : s.groupOf userId = user.group := by
  rw [groupOf, hfind]
  rfl

/-! ### Expiry -/

theorem after_expired (sub other : GroupSubscription) :
    (expired userId now sub).After (expired userId now other) ↔ sub.After other := by
  unfold expired
  split <;> split <;> exact Iff.rfl

theorem status_expired (sub : GroupSubscription) (huser : sub.userId = userId) :
    (expired userId now sub).status =
      if sub.due now then .expired else sub.status := by
  unfold expired
  by_cases hdue : sub.due now = true
  · simp [huser, hdue]
  · simp [hdue]

theorem expired_of_ne (hne : sub.userId ≠ userId) : expired userId now sub = sub := by
  unfold expired
  rw [if_neg fun h => hne h.1]

theorem expired_frame (userId : Nat) (now : Int) (sub : GroupSubscription) :
    (expired userId now sub).userId = sub.userId ∧
      (expired userId now sub).upgradeGroup = sub.upgradeGroup ∧
      (expired userId now sub).prevUserGroup = sub.prevUserGroup ∧
      (expired userId now sub).downgradeGroup = sub.downgradeGroup := by
  unfold expired
  split <;> simp

theorem lastExpired_expireRows :
    lastExpired (s.expireRows userId now) userId =
      (s.lastToExpire userId now).map (expired userId now) := by
  have hfilter : (s.subs.rows.map (expired userId now)).filter (fun sub =>
      decide (sub.userId = userId) && sub.expiredTransition) =
        (s.subs.rows.filter fun sub =>
          decide (sub.userId = userId ∧ (sub.status = .expired ∨ sub.due now = true) ∧
            (sub.downgradeGroup ≠ "" ∨ sub.upgradeGroup ≠ ""))).map (expired userId now) := by
    rw [List.filter_map]
    congr 1
    refine List.filter_congr fun sub _ => ?_
    obtain ⟨huser, hup, -, hdown⟩ := expired_frame userId now sub
    by_cases hid : sub.userId = userId
    · simp only [Function.comp_apply, GroupSubscription.expiredTransition, huser, hup, hdown, hid,
        status_expired sub hid]
      by_cases hdue : sub.due now = true
      · simp [hdue]
      · simp [hdue]
    · simp [huser, hid]
  unfold lastExpired expireRows lastToExpire
  show (((s.subs.rows.map (expired userId now)).filter _).insertionSort _).head? = _
  rw [hfilter, ← List.map_insertionSort GroupSubscription.After GroupSubscription.After
    (expired userId now) _ fun a _ b _ => (after_expired a b).symm, List.head?_map]

theorem idle_expireRows_iff :
    (∀ sub ∈ (s.expireRows userId now).rows, sub.userId = userId → sub.status ≠ .active) ↔
      ∀ sub ∈ s.subs.rows, sub.userId = userId → sub.status = .active → sub.due now = true := by
  constructor
  · intro h sub hsub huser hactive
    by_contra hdue
    have hnone := h _ (List.mem_map_of_mem hsub) ((expired_frame userId now sub).1.trans huser)
    rw [status_expired sub huser, if_neg hdue] at hnone
    exact hnone hactive
  · intro h new hnew huser
    obtain ⟨sub, hsub, rfl⟩ := List.mem_map.mp hnew
    have huser' : sub.userId = userId := (expired_frame userId now sub).1.symm.trans huser
    rw [status_expired sub huser']
    by_cases hdue : sub.due now = true
    · rw [if_pos hdue]
      decide
    · rw [if_neg hdue]
      exact fun hactive => hdue (h sub hsub huser' hactive)

theorem mem_expireRows_of_ne (hne : sub.userId ≠ userId) :
    sub ∈ (s.expireRows userId now).rows ↔ sub ∈ s.subs.rows := by
  constructor
  · intro hsub
    obtain ⟨old, hold, rfl⟩ := List.mem_map.mp hsub
    rw [(expired_frame userId now old).1] at hne
    rw [expired_of_ne hne]
    exact hold
  · intro hsub
    have hmem := List.mem_map_of_mem (f := expired userId now) hsub
    rwa [expired_of_ne hne] at hmem

theorem restored_setGroup_iff (u : SubscriptionGroups) (h : s.Restored) (husers : u.users = s.users)
    (hbefore : u.before = s.before)
    (hsubs : ∀ sub, sub.userId ≠ userId → (sub ∈ u.subs.rows ↔ sub ∈ s.subs.rows))
    (target : Option String) :
    (u.setGroup userId target).Restored ↔
      ∀ user, s.users.find userId = some user → u.Idle userId →
        target.getD user.group = s.before userId := by
  have hidle : (u.setGroup userId target).Idle userId ↔ u.Idle userId := by
    unfold Idle
    rw [subs_setGroup]
  refine (restored_iff_of_user userId h (before_setGroup.trans hbefore) (fun id hid => ?_)
    fun sub hne => ?_).trans ?_
  · rw [find_setGroup_ne hid, husers]
  · rw [subs_setGroup]
    exact hsubs sub hne
  rw [← husers, hidle]
  constructor
  · intro hall user hfind
    exact hall _ (find_setGroup hfind)
  · intro hall user' hfind' hu
    cases hfind : u.users.find userId with
    | some user =>
      rw [← Option.some.inj ((find_setGroup hfind).symm.trans hfind')]
      exact hall user hfind hu
    | none =>
      -- nobody is there to be moved
      have hnone : (u.setGroup userId target).users.find userId = none := by
        cases target with
        | none => exact hfind
        | some group =>
          have hsame : u.users.save ⟨userId, group⟩ = u.users :=
            Table.save_of_find_none hfind
          show (u.users.save ⟨userId, group⟩).find userId = none
          rw [hsame]
          exact hfind
      rw [hnone] at hfind'
      simp at hfind'

theorem restored_congr {sub' : GroupSubscription} (hup : sub'.upgradeGroup = sub.upgradeGroup)
    (hprev : sub'.prevUserGroup = sub.prevUserGroup) (group : String) :
    sub'.restored group = sub.restored group := by
  have hlifted : sub'.Lifted group ↔ sub.Lifted group := by
    unfold GroupSubscription.Lifted
    rw [hup, hprev]
  unfold GroupSubscription.restored
  rw [hprev, if_congr hlifted rfl rfl]

theorem restored_expireUser (h : s.Restored) (hplain : s.Plain) :
    (s.expireUser userId now).Restored ↔
      ∀ user, s.users.find userId = some user →
        (∀ sub ∈ s.subs.rows, sub.userId = userId → sub.status = .active →
          sub.due now = true) →
        match s.lastToExpire userId now with
        | none => user.group = s.before userId
        | some sub => sub.Restores user.group (s.before userId) := by
  -- however the user is moved once the rows are marked
  have hmoved : ∀ target : Option String,
      (({ s with subs := s.expireRows userId now } : SubscriptionGroups).setGroup userId
        target).Restored ↔
      ∀ user, s.users.find userId = some user →
        (∀ sub ∈ s.subs.rows, sub.userId = userId → sub.status = .active → sub.due now = true) →
        target.getD user.group = s.before userId := by
    intro target
    refine (restored_setGroup_iff { s with subs := s.expireRows userId now } h rfl rfl
      (fun sub => mem_expireRows_of_ne) target).trans ?_
    exact forall_congr' fun user => imp_congr_right fun _ => imp_congr_left idle_expireRows_iff
  unfold expireUser
  dsimp only
  split
  next hother =>
    obtain ⟨sub, hsub, hkeeps⟩ := List.any_eq_true.mp hother
    have hundue : ¬∀ sub ∈ s.subs.rows, sub.userId = userId → sub.status = .active →
        sub.due now = true := by
      intro hall
      simp only [Bool.and_eq_true, decide_eq_true_eq, GroupSubscription.elevates] at hkeeps
      exact idle_expireRows_iff.mpr hall sub hsub hkeeps.1 hkeeps.2.1
    refine (hmoved none).trans ?_
    constructor
    · exact fun _ user _ hall => absurd hall hundue
    · exact fun _ user _ hall => absurd hall hundue
  · rw [lastExpired_expireRows]
    cases hlast : s.lastToExpire userId now with
    | none => exact hmoved none
    | some sub =>
      have hmem : sub ∈ s.subs.rows := by
        have hsorted := List.mem_of_mem_head? (Option.mem_def.mpr hlast)
        exact (List.mem_filter.mp ((List.mem_insertionSort _).mp hsorted)).1
      obtain ⟨-, hup, hprev, hdown⟩ := expired_frame userId now sub
      have hrestored : ∀ group, (expireTarget (expired userId now sub) group).getD group =
          sub.restored group := by
        intro group
        rw [expireTarget_getD (hdown ▸ hplain sub hmem), restored_congr hup hprev]
      refine (hmoved _).trans ?_
      refine forall_congr' fun user => forall_congr' fun hfind => imp_congr_right fun _ => ?_
      have hgroup : ({ s with subs := s.expireRows userId now } : SubscriptionGroups).groupOf
          userId = user.group := groupOf_eq hfind
      rw [hgroup, hrestored]
      exact GroupSubscription.restored_eq_iff

/-! ### An end by an administrator -/

theorem restored_downgrade_iff (u : SubscriptionGroups) (h : s.Restored)
    (husers : u.users = s.users) (hbefore : u.before = s.before)
    (hsubs : ∀ other, other.userId ≠ sub.userId → (other ∈ u.subs.rows ↔ other ∈ s.subs.rows))
    (hdown : trimSpace sub.downgradeGroup = "") :
    (u.downgrade sub now).Restored ↔
      ∀ user, s.users.find sub.userId = some user → u.Idle sub.userId →
        sub.Restores user.group (s.before sub.userId) := by
  unfold downgrade
  split
  next hother =>
    obtain ⟨other, hmem, hkeeps⟩ := List.any_eq_true.mp hother
    have hbusy : ¬u.Idle sub.userId := by
      intro hidle
      simp only [Bool.and_eq_true, decide_eq_true_eq, GroupSubscription.elevates] at hkeeps
      exact hidle other hmem hkeeps.1.1 hkeeps.2.1
    refine (restored_setGroup_iff u h husers hbefore hsubs none).trans ?_
    constructor
    · exact fun _ user _ hidle => absurd hidle hbusy
    · exact fun _ user _ hidle => absurd hidle hbusy
  · refine (restored_setGroup_iff u h husers hbefore hsubs _).trans ?_
    refine forall_congr' fun user => forall_congr' fun hfind => imp_congr_right fun _ => ?_
    rw [groupOf_eq (husers ▸ hfind), downgradeTarget_getD hdown]
    exact GroupSubscription.restored_eq_iff

theorem subs_downgrade : (s.downgrade sub now).subs = s.subs := by
  unfold downgrade
  split
  · rfl
  · exact subs_setGroup

theorem downgrade_erase (sub : GroupSubscription) :
    { s.downgrade sub now with subs := (s.downgrade sub now).subs.erase sub.id } =
      ({ s with subs := s.subs.erase sub.id } : SubscriptionGroups).downgrade sub now := by
  have hany : ((s.subs.erase sub.id).rows.any fun other =>
      decide (other.userId = sub.userId ∧ other.id ≠ sub.id) && other.elevates now) =
        s.subs.rows.any fun other =>
          decide (other.userId = sub.userId ∧ other.id ≠ sub.id) && other.elevates now := by
    show (s.subs.rows.filter fun other => decide (other.id ≠ sub.id)).any _ = _
    rw [List.any_filter]
    congr 1
    funext other
    by_cases hid : other.id = sub.id
    · simp [hid]
    · simp [hid]
  rw [subs_downgrade]
  unfold downgrade
  dsimp only
  rw [hany]
  split
  · rfl
  · show _ = ({ s with subs := s.subs.erase sub.id } : SubscriptionGroups).setGroup sub.userId
      (downgradeTarget sub (s.groupOf sub.userId))
    cases downgradeTarget sub (s.groupOf sub.userId) <;> rfl

theorem restored_invalidate_iff (h : s.Restored) (hplain : s.Plain)
    (hfind : s.subs.find id = some sub) :
    (({ s with subs := s.subs.save { sub with status := .cancelled, endTime := now } } :
        SubscriptionGroups).downgrade { sub with status := .cancelled, endTime := now } now).Restored ↔
      ∀ user, s.users.find sub.userId = some user →
        (∀ other ∈ s.subs.rows, other.userId = sub.userId → other.id ≠ id →
          other.status ≠ .active) →
        sub.Restores user.group (s.before sub.userId) := by
  have hid : sub.id = id := by
    have hkey := Table.key_of_find hfind
    exact hkey
  have hmem : sub ∈ s.subs.rows := Table.mem_of_find hfind
  generalize hended : ({ sub with status := .cancelled, endTime := now } : GroupSubscription) = ended
  have huser : ended.userId = sub.userId := by rw [← hended]
  have hsame : ended.id = sub.id := by rw [← hended]
  have hothers : ∀ other : GroupSubscription, other.userId ≠ ended.userId →
      (other ∈ (s.subs.save ended).rows ↔ other ∈ s.subs.rows) := by
    intro other hne
    constructor
    · intro hother
      rcases Table.mem_save hother with rfl | hold
      · exact absurd rfl hne
      · exact hold
    · intro hother
      refine Table.mem_save_of_ne hother fun heq => hne ?_
      have hfind' : s.subs.find other.id = some other := Table.find_of_mem hother
      have hother' : other.id = id := heq.symm.trans (hsame.trans hid)
      rw [hother', hfind] at hfind'
      rw [← Option.some.inj hfind', huser]
  have hdown : trimSpace ended.downgradeGroup = "" := by
    rw [← hended]
    exact hplain sub hmem
  refine (restored_downgrade_iff { s with subs := s.subs.save ended } h rfl rfl hothers hdown).trans ?_
  have hidle : (∀ other ∈ (s.subs.save ended).rows, other.userId = sub.userId →
      other.status ≠ .active) ↔ ∀ other ∈ s.subs.rows, other.userId = sub.userId → other.id ≠ id →
        other.status ≠ .active := by
    constructor
    · intro hall other hother hu hne
      exact hall other (Table.mem_save_of_ne hother fun heq =>
        hne (heq.symm.trans (hsame.trans hid))) hu
    · intro hall other hother hu
      by_cases hother' : other.id = id
      · have hfound : (s.subs.save ended).find ended.id = some ended :=
          Table.find_save_self (hsame.trans hid ▸ hfind)
        have hfound' : (s.subs.save ended).find other.id = some other := Table.find_of_mem hother
        rw [hother', ← hid, ← hsame, hfound] at hfound'
        rw [← Option.some.inj hfound', ← hended]
        simp
      · rcases Table.mem_save hother with rfl | hold
        · exact absurd (hsame.trans hid) hother'
        · exact hall other hold hu hother'
  have hrestores : ∀ group before, ended.Restores group before ↔ sub.Restores group before := by
    intro group before
    rw [← hended]
    exact Iff.rfl
  rw [huser]
  refine forall_congr' fun user => imp_congr_right fun _ => ?_
  exact (imp_congr_left hidle).trans (imp_congr_right fun _ => hrestores _ _)

theorem restored_delete_iff (h : s.Restored) (hplain : s.Plain)
    (hfind : s.subs.find id = some sub) :
    ({ s.downgrade sub now with subs := (s.downgrade sub now).subs.erase id } :
        SubscriptionGroups).Restored ↔
      ∀ user, s.users.find sub.userId = some user →
        (∀ other ∈ s.subs.rows, other.userId = sub.userId → other.id ≠ id →
          other.status ≠ .active) →
        sub.Restores user.group (s.before sub.userId) := by
  obtain rfl : sub.id = id := by
    have hkey := Table.key_of_find hfind
    exact hkey
  have hmem : sub ∈ s.subs.rows := Table.mem_of_find hfind
  have hothers : ∀ other : GroupSubscription, other.userId ≠ sub.userId →
      (other ∈ (s.subs.erase sub.id).rows ↔ other ∈ s.subs.rows) := by
    intro other hne
    refine Table.mem_erase.trans (and_iff_left_of_imp fun hother heq => hne ?_)
    have hfind' : s.subs.find other.id = some other := Table.find_of_mem hother
    have heq' : other.id = sub.id := heq
    rw [heq', hfind] at hfind'
    rw [← Option.some.inj hfind']
  rw [downgrade_erase]
  refine (restored_downgrade_iff { s with subs := s.subs.erase sub.id } h rfl rfl hothers
    (hplain sub hmem)).trans ?_
  have hidle : (∀ other ∈ (s.subs.erase sub.id).rows, other.userId = sub.userId →
      other.status ≠ .active) ↔ ∀ other ∈ s.subs.rows, other.userId = sub.userId →
        other.id ≠ sub.id → other.status ≠ .active := by
    constructor
    · intro hall other hother hu hne
      exact hall other (Table.mem_erase.mpr ⟨hother, hne⟩) hu
    · intro hall other hother hu
      obtain ⟨hold, hne⟩ := Table.mem_erase.mp hother
      exact hall other hold hu hne
  exact forall_congr' fun user => imp_congr_right fun _ => imp_congr_left hidle

/-! ### Runs -/

theorem restored_create (h : s.Restored) {subs : GroupSubscriptionTable}
    (hfind : s.users.find userId = some user) (hinsert : s.subs.insert sub = some subs)
    (huser : sub.userId = userId) (hactive : sub.status = .active) :
    ({ s with
        users := s.users.save ⟨userId, group⟩
        subs := subs
        before :=
          if s.hasActive userId then s.before
          else Function.update s.before userId user.group } : SubscriptionGroups).Restored := by
  have hmem : ∀ other, other ∈ s.subs.rows ∨ other = sub → other ∈ subs.rows := by
    intro other hother
    rw [Table.rows_of_insert hinsert]
    rcases hother with hold | rfl
    · exact List.mem_cons_of_mem _ hold
    · exact List.mem_cons_self
  intro id found hfound hidle
  have hne : id ≠ userId := by
    rintro rfl
    exact hidle sub (hmem sub (.inr rfl)) huser hactive
  have hkept : (s.users.save ⟨userId, group⟩).find id = s.users.find id :=
    Table.find_save_ne (Ne.symm hne)
  have hgroup : found.group = s.before id :=
    h id found (hkept.symm.trans hfound) fun other hother hsame =>
      hidle other (hmem other (.inl hother)) hsame
  dsimp only
  split
  · exact hgroup
  · rw [Function.update_of_ne hne]
    exact hgroup

theorem plain_setGroup (h : s.Plain) : (s.setGroup userId target).Plain := by
  unfold Plain
  rwa [subs_setGroup]

theorem plain_downgrade (h : s.Plain) : (s.downgrade sub now).Plain := by
  unfold downgrade
  split
  · exact h
  · exact plain_setGroup h

theorem plain_expireUser (h : s.Plain) : (s.expireUser userId now).Plain := by
  have hrows : ({ s with subs := s.expireRows userId now } : SubscriptionGroups).Plain := by
    intro sub hsub
    obtain ⟨old, hold, rfl⟩ := List.mem_map.mp hsub
    rw [(expired_frame userId now old).2.2.2]
    exact h old hold
  unfold expireUser
  dsimp only
  split
  · exact hrows
  · split
    · exact hrows
    · exact plain_setGroup hrows

theorem plain_step (h : s.Plain) (ha : NoDowngrade a) (hstep : step cal s a = some t) :
    t.Plain := by
  cases a with
  | create id userId plan now =>
    simp only [step] at hstep
    split at hstep
    next user endUnix hfind hend =>
      split at hstep
      · simp at hstep
      split at hstep
      · simp at hstep
      obtain ⟨subs, hinsert, rfl⟩ := Option.map_eq_some_iff.mp hstep
      intro sub hsub
      rcases Table.mem_insert hinsert hsub with rfl | hold
      · show trimSpace (trimSpace plan.downgradeGroup) = ""
        rw [show trimSpace plan.downgradeGroup = "" from ha]
        rfl
      · exact h sub hold
    · simp at hstep
  | findDue limit now =>
    cases hstep
    exact h
  | expire i userId =>
    simp only [step] at hstep
    split at hstep
    · simp at hstep
    split at hstep
    · cases hstep
      exact plain_expireUser h
    · simp at hstep
  | invalidate id now =>
    simp only [step] at hstep
    split at hstep
    · simp at hstep
    next sub hfind =>
      cases hstep
      refine plain_downgrade fun other hother => ?_
      rcases Table.mem_save hother with rfl | hold
      · exact h sub (Table.mem_of_find hfind)
      · exact h other hold
  | delete id now =>
    simp only [step] at hstep
    split at hstep
    · simp at hstep
    next sub hfind =>
      cases hstep
      intro other hother
      exact plain_downgrade h other (Table.mem_erase.mp hother).1

theorem restored_step_iff (hplain : s.Plain) (h : s.Restored) (hstep : step cal s a = some t) :
    t.Restored ↔ s.Unwinds a := by
  cases a with
  | create id userId plan now =>
    simp only [step] at hstep
    split at hstep
    next user endUnix hfind hend =>
      split at hstep
      · simp at hstep
      split at hstep
      · simp at hstep
      obtain ⟨subs, hinsert, rfl⟩ := Option.map_eq_some_iff.mp hstep
      exact iff_of_true (restored_create h hfind hinsert rfl rfl) trivial
    · simp at hstep
  | findDue limit now =>
    cases hstep
    exact iff_of_true h trivial
  | expire i userId =>
    simp only [step] at hstep
    split at hstep
    · simp at hstep
    next sweep hsweep =>
    split at hstep
    next hmem =>
      cases hstep
      refine (restored_expireUser (s := { s with
        sweeps := s.sweeps.set i { sweep with userIds := sweep.userIds.erase userId } })
        h hplain).trans ?_
      constructor
      · intro hall sweep' hsweep' _
        cases hsweep.symm.trans hsweep'
        exact hall
      · intro hall
        exact hall sweep hsweep hmem
    · simp at hstep
  | invalidate id now =>
    simp only [step] at hstep
    split at hstep
    · simp at hstep
    next sub hfind =>
      cases hstep
      refine (restored_invalidate_iff h hplain hfind).trans ?_
      constructor
      · intro hall sub' hfind'
        cases hfind.symm.trans hfind'
        exact hall
      · intro hall
        exact hall sub hfind
  | delete id now =>
    simp only [step] at hstep
    split at hstep
    · simp at hstep
    next sub hfind =>
      cases hstep
      refine (restored_delete_iff h hplain hfind).trans ?_
      constructor
      · intro hall sub' hfind'
        cases hfind.symm.trans hfind'
        exact hall
      · intro hall
        exact hall sub hfind

theorem unwinds_of_stuck (h : step cal s a = none) : s.Unwinds a := by
  cases a with
  | create id userId plan now => trivial
  | findDue limit now => trivial
  | expire i userId =>
    intro sweep hsweep hmem
    simp only [step, hsweep, if_pos hmem] at h
    simp at h
  | invalidate id now =>
    intro sub hfind
    simp [step, hfind] at h
  | delete id now =>
    intro sub hfind
    simp [step, hfind] at h

theorem restored_idle {users : GroupUserTable} : (idle users).Restored := by
  intro userId user hfind _
  have hfind' : users.find userId = some user := hfind
  show user.group = ((users.find userId).map GroupUser.group).getD ""
  rw [hfind']
  rfl

/--
**A user who has no active subscription left is in the group he had before the first of those that
overlapped, all through a run of purchases, binds, expiries and ends, exactly if every step that
looks for that group finds it noted.**
-/
theorem group_restored_iff (cal : PlanCalendar) (users : GroupUserTable)
    (acts : List SubscriptionGroupAct) (hplans : ∀ a ∈ acts, NoDowngrade a) :
    Machine.Meets (step cal) Unwinds (idle users) acts ↔
      ∀ pre, pre <+: acts → ∀ t, Machine.run (step cal) (idle users) pre = some t → t.Restored := by
  refine Machine.meets_iff_always_of Plain Restored (P := NoDowngrade) ?_ ?_ ?_ acts (idle users) ?_
    restored_idle hplans
  · exact fun _ _ _ h ha hstep => plain_step h ha hstep
  · exact fun _ _ _ hplain h _ hstep => restored_step_iff hplain h hstep
  · exact fun _ _ hnone => unwinds_of_stuck hnone
  · exact fun sub hsub => by simp [idle] at hsub

def vipPlan : GroupPlan where
  quotaResetPeriod := .never
  quotaResetCustomSeconds := 0
  id := 1
  durationUnit := .day
  durationValue := 30
  customSeconds := 0
  maxPurchasePerUser := 0
  upgradeGroup := "vip"
  downgradeGroup := ""
  totalAmount := 0

def plainCalendar : PlanCalendar := { ResetSystem.sampleCalendar with addDate := fun start _ _ => start }

def oneUser : GroupUserTable := ⟨[⟨7, "default"⟩], by simp⟩

/-- The plan is bought again a day before it ends, and both months end. -/
def renewedMonth : List SubscriptionGroupAct :=
  [.create 1 7 vipPlan 0, .create 2 7 vipPlan 2505600, .findDue 0 2592000, .expire 0 7,
    .findDue 0 5097600, .expire 1 7]

theorem noDowngrade_renewedMonth : ∀ a ∈ renewedMonth, NoDowngrade a := by
  have hplan : trimSpace vipPlan.downgradeGroup = "" := rfl
  simp [renewedMonth, NoDowngrade, hplan]

theorem run_renewedMonth :
    ∃ t, Machine.run (step plainCalendar) (idle oneUser) renewedMonth = some t ∧
      t.users.rows = [⟨7, "vip"⟩] ∧ t.before 7 = "default" ∧ t.hasActive 7 = false ∧
        ¬t.Restored := by
  have hends : (Machine.run (step plainCalendar) (idle oneUser) renewedMonth).map (fun t =>
      (t.users.find 7, t.users.rows, t.before 7, t.hasActive 7)) =
        some (some ⟨7, "vip"⟩, [⟨7, "vip"⟩], "default", false) := by decide +kernel
  obtain ⟨t, hrun, ht⟩ := Option.map_eq_some_iff.mp hends
  obtain ⟨hfind, hrows, hbefore, hactive⟩ : t.users.find 7 = some ⟨7, "vip"⟩ ∧
      t.users.rows = [⟨7, "vip"⟩] ∧ t.before 7 = "default" ∧ t.hasActive 7 = false := by
    simpa using ht
  refine ⟨t, hrun, hrows, hbefore, hactive, fun hrestored => ?_⟩
  have hidle : t.Idle 7 := by
    intro sub hsub huser hstatus
    exact List.any_eq_false.mp hactive sub hsub (decide_eq_true ⟨huser, hstatus⟩)
  have hgroup := hrestored 7 ⟨7, "vip"⟩ hfind hidle
  rw [hbefore] at hgroup
  exact absurd hgroup (by decide)

/-- The user stays in `vip` for good: the second month has noted no group. -/
theorem renewed_month_keeps_group :
    (∀ a ∈ renewedMonth, NoDowngrade a) ∧
      ∃ t, Machine.run (step plainCalendar) (idle oneUser) renewedMonth = some t ∧
        t.users.rows = [⟨7, "vip"⟩] ∧ t.before 7 = "default" ∧ t.hasActive 7 = false ∧
          ¬t.Restored :=
  ⟨noDowngrade_renewedMonth, run_renewedMonth⟩

/-- One month is bought, and ends. -/
def oneMonth : List SubscriptionGroupAct :=
  [.create 1 7 vipPlan 0, .findDue 0 2592000, .expire 0 7]

theorem meets_oneMonth :
    Machine.Meets (step plainCalendar) Unwinds (idle oneUser) oneMonth := by
  refine ⟨trivial, fun s₁ h₁ => ⟨trivial, fun s₂ h₂ => ⟨?_, fun _ _ => trivial⟩⟩⟩
  have hrun : Machine.run (step plainCalendar) (idle oneUser)
      [.create 1 7 vipPlan 0, .findDue 0 2592000] = some s₂ := by
    simp [Machine.run, h₁, h₂]
  have hends : (Machine.run (step plainCalendar) (idle oneUser)
      [.create 1 7 vipPlan 0, .findDue 0 2592000]).map (fun t => (t.sweeps[0]?.map (·.now),
        t.users.find 7, t.before 7, (t.lastToExpire 7 2592000).map (·.restored "vip"))) =
      some (some 2592000, some ⟨7, "vip"⟩, "default", some "default") := by decide +kernel
  rw [hrun] at hends
  simp only [Option.map_some, Option.some.injEq, Prod.mk.injEq] at hends
  obtain ⟨hsweeps, hfind, hbefore, hlast⟩ := hends
  intro sweep hsweep _ user huser _
  rw [hsweep, Option.map_some, Option.some.injEq] at hsweeps
  cases hfind.symm.trans huser
  obtain ⟨sub, hsub, hrestored⟩ := Option.map_eq_some_iff.mp hlast
  rw [hsweeps, hsub, hbefore]
  exact GroupSubscription.restored_eq_iff.mp hrestored

/-- After one month the user is in his group again, after a renewed one he is not. -/
theorem group_restored_renewed :
    (∀ t, Machine.run (step plainCalendar) (idle oneUser) oneMonth = some t → t.Restored) ∧
      ¬Machine.Meets (step plainCalendar) Unwinds (idle oneUser) renewedMonth := by
  constructor
  · intro t hrun
    have hplans : ∀ a ∈ oneMonth, NoDowngrade a := by
      have hplan : trimSpace vipPlan.downgradeGroup = "" := rfl
      simp [oneMonth, NoDowngrade, hplan]
    exact (group_restored_iff plainCalendar oneUser oneMonth hplans).mp meets_oneMonth oneMonth
      (List.prefix_refl _) t hrun
  · intro hmeets
    obtain ⟨t, hrun, -, -, -, hlost⟩ := run_renewedMonth
    have halways := (group_restored_iff plainCalendar oneUser renewedMonth
      noDowngrade_renewedMonth).mp hmeets
    exact hlost (halways renewedMonth (List.prefix_refl _) t hrun)

end SubscriptionGroups

end JulongApi

/-
Who gets a delivery when a campaign is dispatched.

The batches are read by position.  A user who stays in the list is reached as long as no change
leaves fewer recipients before the user than have been read: the first row of the user then never
falls behind the position.  What a user is sent twice is told apart by its key, so a user with one
subscription has one delivery.
-/
import JulongApi.EmailDispatch

namespace JulongApi.EmailDispatch

variable {campaign : Campaign} {validAddress : String → Bool} {now : Int}

/-! ### The list -/

instance : Std.Total listedBefore where
  total := by
    intro first second
    unfold listedBefore
    omega

instance : IsTrans EmailRecipientCandidate listedBefore where
  trans := by
    intro first second third
    unfold listedBefore
    omega

theorem candidates_sorted (tables : Tables) :
    (candidates campaign tables now).Pairwise listedBefore :=
  List.pairwise_insertionSort listedBefore _

/-- The first row of a user, and those of smaller users before it. -/
structure FirstRow (campaign : Campaign) (now : Int) (tables : Tables) (userId : Int)
    (before : List EmailRecipientCandidate) (row : EmailRecipientCandidate)
    (after : List EmailRecipientCandidate) : Prop where
  listed : candidates campaign tables now = before ++ row :: after
  own : row.userId = userId
  smaller : ∀ candidate ∈ before, candidate.userId < userId

variable {tables : Tables} {userId subscriptionId endTime : Int} {deliveries : List EmailDelivery}
  {row : EmailDelivery} {s t : State}

theorem exists_firstRow (h : satisfies campaign now tables userId) :
    ∃ before row after, FirstRow campaign now tables userId before row after := by
  obtain ⟨candidate, hmem, hown⟩ := h
  have hsorted := @candidates_sorted campaign now tables
  revert hsorted
  generalize hlist : candidates campaign tables now = list at hmem
  intro hsorted
  suffices hsplit : ∃ before row after, list = before ++ row :: after ∧ row.userId = userId ∧
      ∀ candidate ∈ before, candidate.userId < userId by
    obtain ⟨before, row, after, hsplit, hrow, hbefore⟩ := hsplit
    exact ⟨before, row, after, hlist.trans hsplit, hrow, hbefore⟩
  clear hlist
  induction list with
  | nil => cases hmem
  | cons first rest ih =>
    by_cases hfirst : first.userId = userId
    · exact ⟨[], first, rest, rfl, hfirst, by simp⟩
    · obtain ⟨hle, hrest⟩ := List.pairwise_cons.mp hsorted
      have hlater : candidate ∈ rest := by
        rcases List.mem_cons.mp hmem with rfl | hlater
        · exact absurd hown hfirst
        · exact hlater
      obtain ⟨before, row, after, rfl, hrow, hbefore⟩ := ih hlater hrest
      refine ⟨first :: before, row, after, rfl, hrow, ?_⟩
      intro other hother
      rcases List.mem_cons.mp hother with rfl | hother
      · have hless := hle candidate hlater
        unfold listedBefore at hless
        omega
      · exact hbefore other hother

theorem FirstRow.ahead {before after : List EmailRecipientCandidate} {row : EmailRecipientCandidate}
    (h : FirstRow campaign now tables userId before row after) :
    (candidates campaign tables now).filter (fun candidate => candidate.userId < userId)
      = before := by
  have hbefore : before.filter (fun candidate => candidate.userId < userId) = before :=
    List.filter_eq_self.mpr fun candidate hmem => decide_eq_true (h.smaller candidate hmem)
  have hrest : (row :: after).filter (fun candidate => candidate.userId < userId) = [] := by
    rw [List.filter_eq_nil_iff]
    intro candidate hmem
    have hsorted := @candidates_sorted campaign now tables
    rw [h.listed, List.pairwise_append] at hsorted
    have hge : userId ≤ candidate.userId := by
      rcases List.mem_cons.mp hmem with rfl | hmem
      · exact h.own.ge
      · have hless := (List.pairwise_cons.mp hsorted.2.1).1 candidate hmem
        have hown := h.own
        unfold listedBefore at hless
        omega
    simpa using hge
  rw [h.listed, List.filter_append, hbefore, hrest, List.append_nil]

/-! ### The deliveries -/

theorem createEmailDelivery_subset {delivery : EmailDelivery} (h : row ∈ deliveries) :
    row ∈ createEmailDelivery deliveries delivery := by
  unfold createEmailDelivery
  split
  · exact h
  · exact List.mem_append_left _ h

theorem createEmailDeliveries_subset : ∀ {new deliveries : List EmailDelivery},
    row ∈ deliveries → row ∈ createEmailDeliveries deliveries new := by
  intro new
  induction new with
  | nil => exact fun h => h
  | cons delivery rest ih => exact fun h => ih (createEmailDelivery_subset h)

theorem hasDelivery_subset {new : List EmailDelivery} (h : hasDelivery campaign deliveries userId) :
    hasDelivery campaign (createEmailDeliveries deliveries new) userId := by
  obtain ⟨row, hrow, hids⟩ := h
  exact ⟨row, createEmailDeliveries_subset hrow, hids⟩

theorem sound_createEmailDelivery (h : campaign.Sound deliveries)
    (candidate : EmailRecipientCandidate) :
    campaign.Sound (createEmailDelivery deliveries (campaign.delivery validAddress candidate)) := by
  unfold createEmailDelivery
  by_cases hany : (deliveries.any fun row =>
      row.dedupeKey = (campaign.delivery validAddress candidate).dedupeKey) = true
  · rw [if_pos hany]
    exact h
  · rw [if_neg hany]
    refine ⟨?_, ?_, ?_⟩
    · rw [List.map_append, List.nodup_append]
      refine ⟨h.unique, List.nodup_singleton _, ?_⟩
      intro key hkey other hother heq
      obtain ⟨row, hrow, rfl⟩ := List.mem_map.mp hkey
      rw [List.map_singleton, List.mem_singleton] at hother
      exact hany (List.any_eq_true.mpr ⟨row, hrow, decide_eq_true (heq.trans hother)⟩)
    · intro row hrow
      rcases List.mem_append.mp hrow with hrow | hrow
      · exact h.keyed row hrow
      · obtain rfl := List.mem_singleton.mp hrow
        exact ⟨campaign.conditional, rfl⟩
    · intro row hrow hid
      rcases List.mem_append.mp hrow with hrow | hrow
      · exact h.own row hrow hid
      · obtain rfl := List.mem_singleton.mp hrow
        rfl

theorem sound_createEmailDeliveries : ∀ {batch : List EmailRecipientCandidate}
    {deliveries : List EmailDelivery}, campaign.Sound deliveries →
      campaign.Sound
        (createEmailDeliveries deliveries (batch.map (campaign.delivery validAddress))) := by
  intro batch
  induction batch with
  | nil => exact fun h => h
  | cons candidate rest ih => exact fun h => ih (sound_createEmailDelivery h candidate)

theorem dedupeKey_ids {conditional conditional' : Bool}
    {campaignId campaignId' userId' subscriptionId' endTime' : Int}
    (h : dedupeKeyOf conditional campaignId userId subscriptionId endTime
      = dedupeKeyOf conditional' campaignId' userId' subscriptionId' endTime') :
    campaignId = campaignId' ∧ userId = userId' := by
  have hfirst : ∀ (conditional : Bool) (campaignId userId subscriptionId endTime : Int),
      (dedupeKeyOf conditional campaignId userId subscriptionId endTime).take 2
        = [campaignId, userId] := by
    intro conditional campaignId userId subscriptionId endTime
    cases conditional <;> rfl
  have htake := congrArg (List.take 2) h
  rw [hfirst, hfirst] at htake
  simpa using htake

theorem hasDelivery_createEmailDelivery (h : campaign.Sound deliveries)
    (candidate : EmailRecipientCandidate) :
    hasDelivery campaign
      (createEmailDelivery deliveries (campaign.delivery validAddress candidate))
      candidate.userId := by
  unfold createEmailDelivery
  by_cases hany : (deliveries.any fun row =>
      row.dedupeKey = (campaign.delivery validAddress candidate).dedupeKey) = true
  · rw [if_pos hany]
    obtain ⟨row, hrow, hkey⟩ := List.any_eq_true.mp hany
    obtain ⟨conditional, hown⟩ := h.keyed row hrow
    exact ⟨row, hrow, dedupeKey_ids (hown.symm.trans (of_decide_eq_true hkey))⟩
  · rw [if_neg hany]
    exact ⟨_, List.mem_append_right _ (List.mem_singleton_self _), rfl, rfl⟩

theorem hasDelivery_createEmailDeliveries {candidate : EmailRecipientCandidate} :
    ∀ {batch : List EmailRecipientCandidate} {deliveries : List EmailDelivery},
      campaign.Sound deliveries → candidate ∈ batch →
        hasDelivery campaign
          (createEmailDeliveries deliveries (batch.map (campaign.delivery validAddress)))
          candidate.userId := by
  intro batch
  induction batch with
  | nil => exact fun _ h => by cases h
  | cons first rest ih =>
    intro deliveries hsound hmem
    rcases List.mem_cons.mp hmem with rfl | hmem
    · have hhas := @hasDelivery_createEmailDelivery campaign validAddress _ hsound candidate
      exact @hasDelivery_subset campaign _ _ (rest.map (campaign.delivery validAddress)) hhas
    · exact ih (sound_createEmailDelivery hsound first) hmem

/-! ### Runs -/

theorem sound_step {act : Act} (hsound : campaign.Sound s.deliveries)
    (hstep : step validAddress campaign now s act = some t) : campaign.Sound t.deliveries := by
  cases act with
  | batch =>
    simp only [step] at hstep
    split at hstep
    · cases hstep
    · cases hstep
      exact sound_createEmailDeliveries hsound
  | change tables =>
    simp only [step] at hstep
    split at hstep
    · cases hstep
    · cases hstep
      exact hsound

/-- The user has a delivery, or the first row of the user is still to come. -/
def Ahead (campaign : Campaign) (now : Int) (userId : Int) (s : State) : Prop :=
  hasDelivery campaign s.deliveries userId ∨
    s.finished = false ∧ ∃ before row after,
      FirstRow campaign now s.tables userId before row after ∧ s.offset ≤ before.length

theorem ahead_batch (hsound : campaign.Sound s.deliveries) (hahead : Ahead campaign now userId s)
    (hstep : step validAddress campaign now s .batch = some t) : Ahead campaign now userId t := by
  simp only [step] at hstep
  split at hstep
  · cases hstep
  cases hstep
  rcases hahead with hhas | ⟨-, before, row, after, hfirst, hoffset⟩
  · exact .inl (hasDelivery_subset hhas)
  · have hbatch : listEmailRecipientCandidates campaign s.tables now s.offset
        emailCampaignCandidateBatchSize = (before.drop s.offset ++ row :: after).take 500 := by
      rw [listEmailRecipientCandidates, hfirst.listed, List.drop_append_of_le_length hoffset]
      rfl
    by_cases hinside : before.length < s.offset + emailCampaignCandidateBatchSize
    · left
      have hmem : row ∈ (before.drop s.offset ++ row :: after).take 500 := by
        have hlength : (before.drop s.offset).length < 500 := by
          rw [List.length_drop]
          simp only [emailCampaignCandidateBatchSize] at hinside
          omega
        rw [List.take_append, List.mem_append]
        right
        obtain ⟨n, hn⟩ := Nat.exists_eq_add_of_lt hlength
        rw [hn, Nat.add_assoc, Nat.add_sub_cancel_left, List.take_succ_cons]
        exact List.mem_cons_self
      have hhas := @hasDelivery_createEmailDeliveries campaign validAddress row _ _ hsound hmem
      rw [hfirst.own] at hhas
      dsimp only
      rw [hbatch]
      exact hhas
    · right
      refine ⟨?_, before, row, after, hfirst, Nat.le_of_not_lt hinside⟩
      simp only [emailCampaignCandidateBatchSize] at hinside
      rw [hbatch, decide_eq_false_iff_not, List.length_take, List.length_append, List.length_drop,
        emailCampaignCandidateBatchSize]
      omega

theorem ahead_change (hstays : satisfies campaign now tables userId)
    (hkeeps : KeepsPlace campaign now userId s (.change tables))
    (hstep : step validAddress campaign now s (.change tables) = some t) :
    Ahead campaign now userId t := by
  simp only [step] at hstep
  split at hstep
  · cases hstep
  next hopen =>
  cases hstep
  rcases hkeeps with hhas | hoffset
  · exact .inl hhas
  · obtain ⟨before, row, after, hfirst⟩ := exists_firstRow hstays
    rw [hfirst.ahead] at hoffset
    exact .inr ⟨Bool.eq_false_iff.mpr hopen, before, row, after, hfirst, hoffset⟩

theorem meets_and {first second : State → Act → Prop} : ∀ {acts : List Act} {s : State},
    Machine.Meets (step validAddress campaign now) first s acts →
    Machine.Meets (step validAddress campaign now) second s acts →
      Machine.Meets (step validAddress campaign now) (fun s a => first s a ∧ second s a) s acts := by
  intro acts
  induction acts with
  | nil => exact fun _ _ => trivial
  | cons act rest ih =>
    intro s hfirst hsecond
    exact ⟨⟨hfirst.1, hsecond.1⟩, fun t ht => ih (hfirst.2 t ht) (hsecond.2 t ht)⟩

theorem reached_of_stays {acts : List Act} (hsound : campaign.Sound deliveries)
    (hrun : Machine.run (step validAddress campaign now) (State.start tables deliveries) acts
      = some t)
    (hkeeps : Machine.Meets (step validAddress campaign now) (KeepsPlace campaign now userId)
      (State.start tables deliveries) acts)
    (hsatisfies : SatisfiesAll validAddress campaign now (State.start tables deliveries) acts
      userId) (hfinished : t.finished = true) : hasDelivery campaign t.deliveries userId := by
  have hmeets := meets_and hkeeps hsatisfies.2
  obtain ⟨before, row, after, hfirst⟩ := exists_firstRow hsatisfies.1
  have hstart : Ahead campaign now userId (State.start tables deliveries) :=
    .inr ⟨rfl, before, row, after, hfirst, Nat.zero_le _⟩
  have hend := Machine.run_invariant
    (fun s => campaign.Sound s.deliveries ∧ Ahead campaign now userId s) (fun s act u hinv hcond
      hstep => by
        refine ⟨sound_step hinv.1 hstep, ?_⟩
        cases act with
        | batch => exact ahead_batch hinv.1 hinv.2 hstep
        | change tables => exact ahead_change hcond.2 hcond.1 hstep)
    acts _ t ⟨hsound, hstart⟩ hmeets hrun
  rcases hend.2 with hhas | ⟨hopen, -⟩
  · exact hhas
  · rw [hfinished] at hopen
    cases hopen

theorem sameRecipient_le_one : ∀ {deliveries},
    campaign.Sound deliveries →
      (deliveries.filter (sameRecipient campaign userId subscriptionId endTime)).length ≤ 1 := by
  intro deliveries hsound
  by_contra hmore
  have hkeys : ∀ row ∈ deliveries.filter (sameRecipient campaign userId subscriptionId endTime),
      row.dedupeKey = dedupeKeyOf campaign.conditional campaign.id userId subscriptionId endTime := by
    intro row hrow
    obtain ⟨hmem, hsame⟩ := List.mem_filter.mp hrow
    simp only [sameRecipient, Bool.and_eq_true, decide_eq_true_eq, Bool.or_eq_true,
      Bool.not_eq_true'] at hsame
    rw [hsound.own row hmem hsame.1.1, hsame.1.1, hsame.1.2]
    rcases hsame.2 with hmode | ⟨hid, htime⟩
    · rw [hmode]
      rfl
    · rw [hid, htime]
  have hnodup := (List.filter_sublist (p := sameRecipient campaign userId subscriptionId endTime)
    (l := deliveries)).map (·.dedupeKey) |>.nodup hsound.unique
  rw [List.map_congr_left hkeys, List.map_const', List.nodup_replicate] at hnodup
  exact hmore hnodup

theorem mem_createEmailDeliveries : ∀ {new deliveries : List EmailDelivery},
    row ∈ createEmailDeliveries deliveries new → row ∈ deliveries ∨ row ∈ new := by
  intro new
  induction new with
  | nil => exact fun h => .inl h
  | cons delivery rest ih =>
    intro deliveries h
    rcases ih h with hmem | hmem
    · unfold createEmailDelivery at hmem
      split at hmem
      · exact .inl hmem
      · rcases List.mem_append.mp hmem with hmem | hmem
        · exact .inl hmem
        · exact .inr (List.mem_singleton.mp hmem ▸ List.mem_cons_self)
    · exact .inr (List.mem_cons_of_mem _ hmem)

theorem oneRecipient_step {act : Act}
    (hone : OneRecipient campaign userId subscriptionId endTime s.deliveries)
    (hlists : ListsOnly campaign now userId subscriptionId endTime s act)
    (hstep : step validAddress campaign now s act = some t) :
    OneRecipient campaign userId subscriptionId endTime t.deliveries := by
  cases act with
  | batch =>
    simp only [step] at hstep
    split at hstep
    · cases hstep
    cases hstep
    intro row hrow hid huser
    rcases mem_createEmailDeliveries hrow with hold | hnew
    · exact hone row hold hid huser
    · obtain ⟨candidate, hcandidate, rfl⟩ := List.mem_map.mp hnew
      cases hmode : campaign.conditional with
      | false => simp [sameRecipient, hmode, hid, huser]
      | true =>
        obtain ⟨hsubscription, htime⟩ := hlists hmode candidate hcandidate huser
        simp [sameRecipient, Campaign.delivery, hsubscription, htime, huser.symm]
  | change tables =>
    simp only [step] at hstep
    split at hstep
    · cases hstep
    cases hstep
    exact hone

/-- **A dispatch makes no delivery twice for a recipient, and so none for a user who is one; and it
reaches a user who stays in the list when the changes keep the user's place.** -/
theorem dispatch_reaches {tables : Tables} {deliveries : List EmailDelivery} {acts : List Act}
    {t : State} (hsound : campaign.Sound deliveries)
    (hrun : Machine.run (step validAddress campaign now) (State.start tables deliveries) acts
      = some t) (userId : Int) :
    (∀ subscriptionId endTime,
      (t.deliveries.filter (sameRecipient campaign userId subscriptionId endTime)).length ≤ 1 ∧
      (OneRecipient campaign userId subscriptionId endTime deliveries →
        Machine.Meets (step validAddress campaign now)
          (ListsOnly campaign now userId subscriptionId endTime) (State.start tables deliveries)
          acts →
        (t.deliveries.filter fun row =>
          row.campaignId = campaign.id && row.userId = userId).length ≤ 1)) ∧
    (t.finished = true →
      SatisfiesAll validAddress campaign now (State.start tables deliveries) acts userId →
      Machine.Meets (step validAddress campaign now) (KeepsPlace campaign now userId)
        (State.start tables deliveries) acts →
      hasDelivery campaign t.deliveries userId) := by
  have hsteps : ∀ (s : State) (act : Act) (u : State), campaign.Sound s.deliveries →
      step validAddress campaign now s act = some u → campaign.Sound u.deliveries :=
    fun s act u hinv hstep => sound_step hinv hstep
  have hend := Machine.run_preserves (fun s : State => campaign.Sound s.deliveries) hsteps
    hsound hrun
  refine ⟨fun subscriptionId endTime => ⟨sameRecipient_le_one hend, fun hone hlists => ?_⟩, ?_⟩
  · have honly := Machine.run_invariant
      (fun s : State => OneRecipient campaign userId subscriptionId endTime s.deliveries)
      (fun s act u hinv hcond hstep => oneRecipient_step hinv hcond hstep) acts _ t hone hlists hrun
    refine le_trans (le_of_eq ?_)
      (@sameRecipient_le_one campaign userId subscriptionId endTime _ hend)
    refine congrArg List.length (List.filter_congr fun row hrow => ?_)
    cases hown : row.campaignId = campaign.id && row.userId = userId with
    | true =>
      simp only [Bool.and_eq_true, decide_eq_true_eq] at hown
      exact (honly row hrow hown.1 hown.2).symm
    | false => simp [sameRecipient, hown]
  · exact fun hfinished hsatisfies hkeeps =>
      reached_of_stays hsound hrun hkeeps hsatisfies hfinished

def toAll : Campaign where
  id := 7
  audience := .allUsers

def usersFrom (first : Nat) : Tables where
  users := (List.range' first (502 - first)).map fun n => ⟨n, "a@b.c", true, false⟩
  subscriptions := []

/-- The first of 501 users has another address, and one more has registered. -/
def movedUsers : Tables where
  users := ⟨1, "new@b.c", true, false⟩ :: (usersFrom 2).users ++ [⟨502, "n@b.c", true, false⟩]
  subscriptions := []

theorem satisfies_of_any
    (h : (candidates campaign tables now).any (fun candidate => candidate.userId = userId) = true) :
    satisfies campaign now tables userId := by
  obtain ⟨candidate, hmem, huser⟩ := List.any_eq_true.mp h
  exact ⟨candidate, hmem, of_decide_eq_true huser⟩

theorem run_two_batches {next : Tables} {batch last : List EmailRecipientCandidate}
    (hfirst : listEmailRecipientCandidates campaign tables now 0 500 = batch)
    (hfull : batch.length = 500)
    (hsecond : listEmailRecipientCandidates campaign next now 500 500 = last)
    (hshort : last.length < 500) :
    Machine.run (step validAddress campaign now) (State.start tables [])
      [.batch, .change next, .batch]
        = some ⟨next, 1000, createEmailDeliveries []
          ((batch ++ last).map (campaign.delivery validAddress)), true⟩ := by
  simp [Machine.run, step, State.start, emailCampaignCandidateBatchSize, hfirst, hfull, hsecond,
    hshort, createEmailDeliveries]

theorem dispatch_reaches_sample : ∃ t,
    Machine.run (step (fun _ => true) toAll 0) (State.start (usersFrom 1) [])
      [.batch, .change movedUsers, .batch] = some t ∧
    hasDelivery toAll t.deliveries 501 ∧
    (t.deliveries.filter fun row => row.campaignId = toAll.id && row.userId = 501).length ≤ 1 := by
  have hfull : (listEmailRecipientCandidates toAll (usersFrom 1) 0 0 500).length = 500 := by
    decide +kernel
  have hshort : (listEmailRecipientCandidates toAll movedUsers 0 500 500).length < 500 := by
    decide +kernel
  have hstart : satisfies toAll 0 (usersFrom 1) 501 := satisfies_of_any (by decide +kernel)
  have hmoved : satisfies toAll 0 movedUsers 501 := satisfies_of_any (by decide +kernel)
  have hplace : 500 ≤ ((candidates toAll movedUsers 0).filter fun candidate =>
      candidate.userId < 501).length := by
    decide +kernel
  generalize hbatch : listEmailRecipientCandidates toAll (usersFrom 1) 0 0 500 = batch at hfull
  generalize hlast : listEmailRecipientCandidates toAll movedUsers 0 500 500 = last at hshort
  have hrun := @run_two_batches toAll (fun _ => true) 0 _ _ _ _ hbatch hfull hlast hshort
  have hsound : toAll.Sound [] := ⟨List.nodup_nil, by simp, by simp⟩
  have hreaches := dispatch_reaches hsound hrun 501
  refine ⟨_, hrun, hreaches.2 rfl ⟨hstart, trivial, fun _ _ => ⟨hmoved, fun _ _ => ⟨trivial,
    fun _ _ => trivial⟩⟩⟩ ⟨trivial, fun t ht => ⟨.inr ?_, fun _ _ => ⟨trivial,
    fun _ _ => trivial⟩⟩⟩, (hreaches.1 0 0).2 (by simp [OneRecipient]) ?_⟩
  · cases ht
    exact hplace
  · refine Machine.meets_of_forall _ fun act _ s => ?_
    cases act with
    | batch => exact fun hmode => by cases hmode
    | change tables => trivial

/-- The user 501 is never listed, when the user 1 is deleted after the first batch. -/
theorem stable_user_skipped : ¬ ∀ (campaign : Campaign) (validAddress : String → Bool) (now : Int)
    (tables : Tables) (acts : List Act) (t : State),
    Machine.run (step validAddress campaign now) (State.start tables []) acts = some t →
      t.finished = true → ∀ userId,
        SatisfiesAll validAddress campaign now (State.start tables []) acts userId →
          hasDelivery campaign t.deliveries userId ∧
            (t.deliveries.filter fun row =>
              row.campaignId = campaign.id && row.userId = userId).length ≤ 1 := by
  intro hall
  have hfirst : (listEmailRecipientCandidates toAll (usersFrom 1) 0 0 500).length = 500 := by
    decide +kernel
  have hsecond : listEmailRecipientCandidates toAll (usersFrom 2) 0 500 500 = [] := by
    decide +kernel
  have hmissing : (listEmailRecipientCandidates toAll (usersFrom 1) 0 0 500).all
      (fun candidate => candidate.userId ≠ 501) = true := by
    decide +kernel
  have hstart : satisfies toAll 0 (usersFrom 1) 501 := satisfies_of_any (by decide +kernel)
  have hlater : satisfies toAll 0 (usersFrom 2) 501 := satisfies_of_any (by decide +kernel)
  generalize hbatch : listEmailRecipientCandidates toAll (usersFrom 1) 0 0 500 = batch
    at hfirst hmissing
  have hrun := @run_two_batches toAll (fun _ => true) 0 _ _ batch [] hbatch hfirst hsecond
    (by decide)
  have hhas := (hall toAll (fun _ => true) 0 (usersFrom 1) _ _ hrun rfl 501
    ⟨hstart, trivial, fun _ _ => ⟨hlater, fun _ _ => ⟨trivial, fun _ _ => trivial⟩⟩⟩).1
  obtain ⟨row, hrow, -, huser⟩ := hhas
  rw [List.append_nil] at hrow
  rcases mem_createEmailDeliveries hrow with hmem | hmem
  · cases hmem
  · obtain ⟨candidate, hcandidate, rfl⟩ := List.mem_map.mp hmem
    have hne := List.all_eq_true.mp hmissing candidate hcandidate
    exact of_decide_eq_true hne huser

def expiringSoon : Campaign where
  id := 8
  audience := .subscriptionExpiring 3

def twoExpiring : Tables where
  users := [⟨1, "a@b.c", true, false⟩]
  subscriptions := [⟨4, 1, true, 1000⟩, ⟨5, 1, true, 2000⟩]

/-- A user with two subscriptions is reminded of each. -/
theorem two_reminders :
    (Machine.run (step (fun _ => true) expiringSoon 0) (State.start twoExpiring []) [.batch]).map
      (fun t => t.deliveries.map fun row => (row.userId, row.subscriptionId))
        = some [(1, 4), (1, 5)] := by
  decide +kernel

end JulongApi.EmailDispatch

/-
A campaign closes only over deliveries that are done, as long as workers leave each other's campaigns
alone.

Every statement of a worker changes deliveries of the campaign it works on only (`rowsOf`), so what
it knows of them (`Pc.Known`) is not disturbed by the others; `Inv.work` says this once, for any
statement of a worker that takes up no new campaign.
-/
import JulongApi.EmailCampaign

namespace JulongApi.EmailCampaign

/-! ### The deliveries of a campaign -/

def rowsOf (deliveries : DeliveryTable) (campaignId : Int) : List Delivery :=
  deliveries.rows.filter fun row => row.campaignId = campaignId

section Rows

variable {deliveries deliveries' : DeliveryTable} {campaignId other : Int} {row : Delivery}
  {f : Delivery → Delivery}

theorem mem_rowsOf :
    row ∈ rowsOf deliveries campaignId ↔ row ∈ deliveries.rows ∧ row.campaignId = campaignId := by
  unfold rowsOf
  rw [List.mem_filter, decide_eq_true_eq]

theorem deliveryStats_congr (h : rowsOf deliveries' campaignId = rowsOf deliveries campaignId) :
    deliveryStats deliveries' campaignId = deliveryStats deliveries campaignId := by
  have hcount : ∀ (deliveries : DeliveryTable) (status : DeliveryStatus),
      countDeliveries deliveries campaignId status =
        ((rowsOf deliveries campaignId).countP fun row => row.status = status : Int) := by
    intro deliveries status
    unfold countDeliveries rowsOf
    rw [List.countP_filter]
    simp only [Bool.and_comm]
  have hall : ∀ deliveries : DeliveryTable,
      (deliveries.rows.countP fun row => row.campaignId = campaignId) =
        (rowsOf deliveries campaignId).length := fun _ => List.countP_eq_length_filter
  unfold deliveryStats
  rw [hcount, hcount, hcount, hcount, hcount, hcount, hall, hall, h]

theorem rowsOf_mapRows (hid : ∀ row, (f row).id = row.id)
    (hf : ∀ row, (f row).campaignId = row.campaignId) :
    rowsOf (deliveries.mapRows f hid) campaignId = (rowsOf deliveries campaignId).map f := by
  unfold rowsOf Table.mapRows
  dsimp only
  rw [List.filter_map]
  congr 2
  funext row
  simp [hf]

theorem rowsOf_mapRows_other (hid : ∀ row, (f row).id = row.id)
    (hf : ∀ row, (f row).campaignId = row.campaignId)
    (hsame : ∀ row ∈ deliveries.rows, row.campaignId = other → f row = row) :
    rowsOf (deliveries.mapRows f hid) other = rowsOf deliveries other := by
  rw [rowsOf_mapRows hid hf]
  refine List.map_congr_left (fun row hrow => ?_) |>.trans (List.map_id _)
  obtain ⟨hmem, hown⟩ := mem_rowsOf.mp hrow
  exact hsame row hmem hown

theorem eq_of_id {row' : Delivery} (hrow : row ∈ deliveries.rows) (hrow' : row' ∈ deliveries.rows)
    (h : row.id = row'.id) : row = row' := by
  have hfind := Table.find_of_mem hrow
  have hfind' := Table.find_of_mem hrow'
  have hsame : deliveries.find row.id = deliveries.find row'.id := by rw [h]
  exact Option.some.inj (hfind.symm.trans (hsame.trans hfind'))

variable {now : Int}

theorem rowsOf_createDelivery {candidate : Candidate}
    (h : createDelivery campaignId now deliveries candidate = some deliveries') :
    (∀ other, other ≠ campaignId → rowsOf deliveries' other = rowsOf deliveries other) ∧
    ∀ row ∈ rowsOf deliveries' campaignId,
      row ∈ rowsOf deliveries campaignId ∨ row.status ≠ .sending := by
  unfold createDelivery at h
  by_cases hthere : (deliveries.rows.any fun row => row.dedupeKey = candidate.dedupeKey) = true
  · rw [if_pos hthere] at h
    cases h
    exact ⟨fun _ _ => rfl, fun row hrow => .inl hrow⟩
  · rw [if_neg hthere] at h
    have hrows := Table.rows_of_insert h
    unfold rowsOf
    rw [hrows]
    constructor
    · intro other hne
      rw [List.filter_cons_of_neg (by simpa using Ne.symm hne)]
    · intro row hrow
      rw [List.filter_cons_of_pos (by simp)] at hrow
      obtain rfl | hrow := List.mem_cons.mp hrow
      · right
        cases candidate.valid <;> simp
      · exact .inl hrow

theorem rowsOf_foldlM_create : ∀ {recipients : List Candidate}
    {deliveries : DeliveryTable},
    recipients.foldlM (createDelivery campaignId now) deliveries = some deliveries' →
    (∀ other, other ≠ campaignId → rowsOf deliveries' other = rowsOf deliveries other) ∧
    ∀ row ∈ rowsOf deliveries' campaignId,
      row ∈ rowsOf deliveries campaignId ∨ row.status ≠ .sending := by
  intro recipients
  induction recipients with
  | nil =>
    intro deliveries h
    cases h
    exact ⟨fun _ _ => rfl, fun row hrow => .inl hrow⟩
  | cons candidate rest ih =>
    intro deliveries h
    rw [List.foldlM_cons] at h
    obtain ⟨middle, hmiddle, h⟩ := Option.bind_eq_some_iff.mp h
    obtain ⟨hothers, hown⟩ := rowsOf_createDelivery hmiddle
    obtain ⟨hothers', hown'⟩ := ih h
    refine ⟨fun other hne => (hothers' other hne).trans (hothers other hne), fun row hrow => ?_⟩
    obtain hrow | hnew := hown' row hrow
    · exact hown row hrow
    · exact .inr hnew

end Rows

/-! ### The invariant -/

/-- What a worker knows of the deliveries of its campaign before its next statement. -/
def Pc.Known (deliveries : DeliveryTable) (campaignId : Int) : Pc → Prop
  | .recover | .fail => True
  | .reset | .create | .list => ∀ row ∈ rowsOf deliveries campaignId, row.status ≠ .sending
  | .claim batch =>
    (∀ row ∈ rowsOf deliveries campaignId, row.status ≠ .sending) ∧
    ∀ delivery ∈ batch, ∃ row ∈ rowsOf deliveries campaignId, row.id = delivery.id
  | .send delivery batch =>
    (∀ row ∈ rowsOf deliveries campaignId, row.status = .sending → row.id = delivery.id) ∧
    ∀ own ∈ delivery :: batch, ∃ row ∈ rowsOf deliveries campaignId, row.id = own.id
  | .mark delivery status batch =>
    (∀ row ∈ rowsOf deliveries campaignId, row.status = .sending → row.id = delivery.id) ∧
    status.final = true ∧
    ∀ own ∈ delivery :: batch, ∃ row ∈ rowsOf deliveries campaignId, row.id = own.id
  | .count => ∀ row ∈ rowsOf deliveries campaignId, row.status.final = true
  | .finish stats =>
    (∀ row ∈ rowsOf deliveries campaignId, row.status.final = true) ∧
    stats = deliveryStats deliveries campaignId

/-- A row of a closed campaign is right about its deliveries. -/
def Campaign.Right (deliveries : DeliveryTable) (campaign : Campaign) : Prop :=
  (∀ row ∈ rowsOf deliveries campaign.id, row.status.final = true) ∧
  campaign.recipientCount = (deliveryStats deliveries campaign.id).recipientCount ∧
  campaign.successCount = (deliveryStats deliveries campaign.id).successCount ∧
  campaign.failedCount = (deliveryStats deliveries campaign.id).failedCount ∧
  campaign.skippedCount = (deliveryStats deliveries campaign.id).skippedCount

structure Inv (s : State) : Prop where
  /-- A campaign is held by one worker at most, and once. -/
  alone : ∀ {w w' id}, id ∈ (s.workers w).held → id ∈ (s.workers w').held → w = w'
  once : ∀ w, (s.workers w).held.Nodup
  /-- A closed campaign is held by none. -/
  free : ∀ campaign ∈ s.campaigns.rows, campaign.status.closed = true →
    ∀ w, campaign.id ∉ (s.workers w).held
  right : ∀ campaign ∈ s.campaigns.rows, campaign.status.closed = true →
    campaign.Right s.deliveries
  known : ∀ {w now campaign pc rest}, s.workers w = .dispatching now campaign pc rest →
    pc.Known s.deliveries campaign.id

section Invariant

variable {s t : State} {w : Nat} {worker : Worker} {campaigns : CampaignTable}
  {deliveries deliveries' : DeliveryTable} {clock now : Int} {campaign : Campaign}
  {rest : List Campaign} {pc : Pc} {input : Input}

theorem closed_iff_right :
    s.Closed ↔ ∀ campaign ∈ s.campaigns.rows, campaign.status.closed = true →
      campaign.Right s.deliveries := by
  unfold State.Closed Campaign.Right
  refine forall₃_congr fun campaign _ _ => and_congr_left fun _ => ?_
  constructor
  · intro h row hrow
    obtain ⟨hmem, hown⟩ := mem_rowsOf.mp hrow
    exact h row hmem hown
  · exact fun h row hmem hown => h row (mem_rowsOf.mpr ⟨hmem, hown⟩)

variable {campaignId : Int}

theorem Pc.Known.congr (h : pc.Known deliveries campaignId)
    (hrows : rowsOf deliveries' campaignId = rowsOf deliveries campaignId) :
    pc.Known deliveries' campaignId := by
  unfold Pc.Known at h ⊢
  cases pc with
  | recover => trivial
  | fail => trivial
  | finish stats =>
    dsimp only at h ⊢
    rw [hrows]
    exact ⟨h.1, h.2.trans (deliveryStats_congr hrows).symm⟩
  | reset | create | list | claim | send | mark | count =>
    dsimp only at h ⊢
    rw [hrows]
    exact h

theorem Campaign.Right.congr (h : campaign.Right deliveries)
    (hrows : rowsOf deliveries' campaign.id = rowsOf deliveries campaign.id) :
    campaign.Right deliveries' := by
  unfold Campaign.Right at h ⊢
  rw [hrows, deliveryStats_congr hrows]
  exact h

theorem Inv.work (inv : Inv s)
    (hheld : worker.held.Sublist (s.workers w).held)
    (hrows : ∀ id, id ∉ (s.workers w).held → rowsOf deliveries id = rowsOf s.deliveries id)
    (hcampaigns : ∀ row ∈ campaigns.rows, row.status.closed = true → row ∈ s.campaigns.rows ∨
      row.id ∈ (s.workers w).held ∧ row.id ∉ worker.held ∧ row.Right deliveries)
    (hknown : ∀ {now campaign pc rest}, worker = .dispatching now campaign pc rest →
      pc.Known deliveries campaign.id) :
    Inv ⟨clock, campaigns, deliveries, Function.update s.workers w worker⟩ := by
  have hworkers : ∀ w', (Function.update s.workers w worker w').held.Sublist
      (s.workers w').held := by
    intro w'
    by_cases hw : w' = w
    · rw [hw, Function.update_self]
      exact hheld
    · rw [Function.update_of_ne hw]
  constructor
  · intro w' w'' id h h'
    exact inv.alone ((hworkers w').subset h) ((hworkers w'').subset h')
  · exact fun w' => (inv.once w').sublist (hworkers w')
  · intro row hrow hclosed w' hmem
    obtain hold | ⟨hown, hleft, -⟩ := hcampaigns row hrow hclosed
    · exact inv.free row hold hclosed w' ((hworkers w').subset hmem)
    · obtain rfl := inv.alone ((hworkers w').subset hmem) hown
      have hnow : row.id ∈ (Function.update s.workers w' worker w').held := hmem
      rw [Function.update_self] at hnow
      exact hleft hnow
  · intro row hrow hclosed
    obtain hold | ⟨-, -, hright⟩ := hcampaigns row hrow hclosed
    · exact (inv.right row hold hclosed).congr (hrows row.id (inv.free row hold hclosed w))
    · exact hright
  · intro w' now campaign pc rest hworker
    by_cases hw : w' = w
    · rw [hw] at hworker
      exact hknown (by simpa using hworker)
    · have hother : s.workers w' = .dispatching now campaign pc rest := by
        simpa [Function.update_of_ne hw] using hworker
      refine (inv.known hother).congr (hrows campaign.id fun hmem => hw ?_)
      exact inv.alone (by rw [hother]; exact List.mem_cons_self) hmem

theorem Inv.go {pc' : Pc} (inv : Inv s) (hworker : s.workers w = .dispatching now campaign pc rest)
    (hrows : ∀ id, id ≠ campaign.id → rowsOf deliveries id = rowsOf s.deliveries id)
    (hknown : pc'.Known deliveries campaign.id) :
    Inv { s.setWorker w (.dispatching now campaign pc' rest) with deliveries := deliveries } := by
  refine inv.work ?_ (fun id hid => hrows id fun heq => hid ?_) (fun row hrow _ => .inl hrow) ?_
  · rw [hworker]
    exact List.Sublist.refl _
  · rw [hworker, heq]
    exact List.mem_cons_self
  · intro now' campaign' pc'' rest' heq
    cases heq
    exact hknown

theorem Inv.leave (inv : Inv s) (hworker : s.workers w = .dispatching now campaign pc rest)
    (hnext : worker = .idle ∨ worker = .next now rest)
    (hcampaigns : ∀ row ∈ campaigns.rows, row.status.closed = true → row ∈ s.campaigns.rows ∨
      row.id = campaign.id ∧ row.Right s.deliveries) :
    Inv { s.setWorker w worker with campaigns := campaigns } := by
  have honce := inv.once w
  have hheld : (s.workers w).held = campaign.id :: rest.map (·.id) := by rw [hworker]; rfl
  rw [hheld] at honce
  have hworkerHeld : worker.held.Sublist (rest.map (·.id)) := by
    obtain rfl | rfl := hnext
    · exact List.nil_sublist _
    · cases rest <;> exact List.Sublist.refl _
  refine inv.work ?_ (fun _ _ => rfl) (fun row hrow hclosed => ?_) ?_
  · rw [hheld]
    exact hworkerHeld.trans (List.sublist_cons_self _ _)
  · obtain hold | ⟨hid, hright⟩ := hcampaigns row hrow hclosed
    · exact .inl hold
    · refine .inr ⟨?_, ?_, hright⟩
      · rw [hheld, hid]
        exact List.mem_cons_self
      · rw [hid]
        exact fun hmem => (List.nodup_cons.mp honce).1 (hworkerHeld.subset hmem)
  · intro now' campaign' pc' rest' heq
    obtain rfl | rfl := hnext
    · cases heq
    · cases rest with
      | nil => cases heq
      | cons first rest =>
        cases heq
        trivial

theorem mem_pendingDeliveries {row : Delivery} (h : row ∈ pendingDeliveries deliveries campaignId) :
    row ∈ rowsOf deliveries campaignId := by
  have hmem := (List.perm_insertionSort _ _).mem_iff.mp (List.mem_of_mem_take h)
  rw [List.mem_filter, Bool.and_eq_true, decide_eq_true_eq] at hmem
  exact mem_rowsOf.mpr ⟨hmem.1, hmem.2.1⟩

theorem pendingDeliveries_eq_nil (h : pendingDeliveries deliveries campaignId = []) :
    ∀ row ∈ rowsOf deliveries campaignId, row.status ≠ .pending := by
  intro row hrow hpending
  unfold pendingDeliveries at h
  rw [List.take_eq_nil_iff] at h
  obtain hzero | hempty := h
  · cases hzero
  · have hmem : row ∈ deliveries.rows.filter fun row =>
        row.campaignId = campaignId && row.status = .pending := by
      obtain ⟨hmem, hown⟩ := mem_rowsOf.mp hrow
      simp [hmem, hown, hpending]
    rw [← (List.perm_insertionSort (fun a b : Delivery => a.id ≤ b.id) _).mem_iff, hempty] at hmem
    cases hmem

variable {f : Delivery → Delivery} {batch : List Delivery} {hid : ∀ row, (f row).id = row.id}

theorem rowsOf_id_other {delivery : Delivery} {id : Int} (hne : id ≠ campaign.id)
    (howned : ∃ row ∈ rowsOf deliveries campaign.id, row.id = delivery.id)
    (hcampaign : ∀ row, (f row).campaignId = row.campaignId)
    (hf : ∀ row, row.id ≠ delivery.id → f row = row) :
    rowsOf (deliveries.mapRows f hid) id = rowsOf deliveries id := by
  refine rowsOf_mapRows_other hid hcampaign fun row hmem hrow => hf row fun hsame => hne ?_
  obtain ⟨own, hown, hownId⟩ := howned
  obtain ⟨hownMem, hownCampaign⟩ := mem_rowsOf.mp hown
  rw [← hrow, eq_of_id hmem hownMem (hsame.trans hownId.symm), hownCampaign]

theorem owned_map (hcampaign : ∀ row, (f row).campaignId = row.campaignId)
    (h : ∀ own ∈ batch, ∃ row ∈ rowsOf deliveries campaignId, row.id = own.id) :
    ∀ own ∈ batch, ∃ row ∈ rowsOf (deliveries.mapRows f hid) campaignId, row.id = own.id := by
  intro own hown
  obtain ⟨row, hrow, hrowId⟩ := h own hown
  refine ⟨f row, ?_, (hid row).trans hrowId⟩
  rw [rowsOf_mapRows hid hcampaign]
  exact List.mem_map_of_mem hrow

/-! ### The statements of a dispatch -/

theorem rowsOf_recoverDeliveries_other {staleBefore : Int} {id : Int} (hne : id ≠ campaignId) :
    rowsOf (recoverDeliveries deliveries campaignId staleBefore clock) id = rowsOf deliveries id :=
  rowsOf_mapRows_other _ (fun row => by split <;> rfl) fun row _ hrow =>
    if_neg fun h => hne (hrow.symm.trans h.1)

theorem recoverDeliveries_not_sending {staleBefore campaignId : Int}
    (hquiet : ∀ row ∈ rowsOf deliveries campaignId, row.status = .sending →
      row.updatedAt < staleBefore) :
    ∀ row ∈ rowsOf (recoverDeliveries deliveries campaignId staleBefore clock) campaignId,
      row.status ≠ .sending := by
  intro row hrow
  unfold recoverDeliveries at hrow
  rw [rowsOf_mapRows _ (fun row => by split <;> rfl)] at hrow
  obtain ⟨old, hold, rfl⟩ := List.mem_map.mp hrow
  obtain ⟨-, hown⟩ := mem_rowsOf.mp hold
  by_cases hsending : old.status = .sending
  · rw [if_pos ⟨hown, hsending, hquiet old hold hsending⟩]
    simp
  · rw [if_neg fun h => hsending h.2.1]
    exact hsending

theorem rowsOf_resetRetryable_other {id : Int} (hne : id ≠ campaignId) :
    rowsOf (resetRetryable deliveries campaignId clock) id = rowsOf deliveries id :=
  rowsOf_mapRows_other _ (fun row => by split <;> rfl) fun row _ hrow =>
    if_neg fun h => hne (hrow.symm.trans h.1)

theorem resetRetryable_not_sending
    (h : ∀ row ∈ rowsOf deliveries campaignId, row.status ≠ .sending) :
    ∀ row ∈ rowsOf (resetRetryable deliveries campaignId clock) campaignId,
      row.status ≠ .sending := by
  intro row hrow
  unfold resetRetryable at hrow
  rw [rowsOf_mapRows _ (fun row => by split <;> rfl)] at hrow
  obtain ⟨old, hold, rfl⟩ := List.mem_map.mp hrow
  split
  · simp
  · exact h old hold

theorem claimDelivery_sending {campaignId id : Int}
    (h : ∀ row ∈ rowsOf deliveries campaignId, row.status ≠ .sending) :
    ∀ row ∈ rowsOf (claimDelivery deliveries id clock) campaignId, row.status = .sending →
      row.id = id ∧ deliveries.rows.any (fun row => row.id = id && row.status = .pending) := by
  intro row hrow hsending
  unfold claimDelivery at hrow
  rw [rowsOf_mapRows _ (fun row => by split <;> rfl)] at hrow
  obtain ⟨old, hold, rfl⟩ := List.mem_map.mp hrow
  by_cases hclaimed : old.id = id ∧ old.status = .pending
  · rw [if_pos hclaimed]
    refine ⟨hclaimed.1, List.any_eq_true.mpr ⟨old, (mem_rowsOf.mp hold).1, ?_⟩⟩
    simp [hclaimed]
  · rw [if_neg hclaimed] at hsending
    exact absurd hsending (h old hold)

theorem finishDelivery_not_sending {id : Int} {status : DeliveryStatus}
    (hfinal : status.final = true)
    (h : ∀ row ∈ rowsOf deliveries campaignId, row.status = .sending → row.id = id) :
    ∀ row ∈ rowsOf (finishDelivery deliveries id status clock) campaignId,
      row.status ≠ .sending := by
  intro row hrow
  unfold finishDelivery at hrow
  rw [rowsOf_mapRows _ (fun row => by split <;> rfl)] at hrow
  obtain ⟨old, hold, rfl⟩ := List.mem_map.mp hrow
  by_cases hmarked : old.id = id ∧ old.status = .sending
  · rw [if_pos hmarked]
    intro hsending
    have hstatus : status = .sending := hsending
    rw [hstatus] at hfinal
    cases hfinal
  · rw [if_neg hmarked]
    exact fun hsending => hmarked ⟨h old hold hsending, hsending⟩

theorem owned_claimDelivery {campaignId id : Int} {batch : List Delivery}
    (h : ∀ own ∈ batch, ∃ row ∈ rowsOf deliveries campaignId, row.id = own.id) :
    ∀ own ∈ batch, ∃ row ∈ rowsOf (claimDelivery deliveries id clock) campaignId,
      row.id = own.id := owned_map (fun row => by split <;> rfl) h

theorem owned_finishDelivery {id : Int} {status : DeliveryStatus}
    (h : ∀ own ∈ batch, ∃ row ∈ rowsOf deliveries campaignId, row.id = own.id) :
    ∀ own ∈ batch, ∃ row ∈ rowsOf (finishDelivery deliveries id status clock) campaignId,
      row.id = own.id := owned_map (fun row => by split <;> rfl) h

theorem Inv.dispatchFails (inv : Inv s)
    (hworker : s.workers w = .dispatching now campaign pc rest)
    (hstep : s.dispatch w now campaign rest pc .error = some t) : Inv t := by
  have hknown := inv.known hworker
  have hfail : Inv (s.setWorker w (.dispatching now campaign .fail rest)) :=
    inv.go hworker (fun _ _ => rfl) trivial
  have hidle : Inv (s.setWorker w .idle) :=
    inv.leave hworker (.inl rfl) fun row hrow _ => .inl hrow
  cases pc with
  | claim batch => cases batch <;> rw [← Option.some.inj hstep] <;> exact hfail
  | send delivery batch =>
    cases hstep
    exact inv.go hworker (fun _ _ => rfl) ⟨hknown.1, rfl, hknown.2⟩
  | finish stats =>
    cases hstep
    exact hidle
  | fail =>
    cases hstep
    exact hidle
  | _ =>
    cases hstep
    exact hfail

theorem Inv.dispatchCreate {recipients : List Candidate} {more : Bool} (inv : Inv s)
    (hworker : s.workers w = .dispatching now campaign .create rest)
    (hstep : s.dispatch w now campaign rest .create (.candidates recipients more) = some t) :
    Inv t := by
  have hknown := inv.known hworker
  obtain ⟨created, hcreated, hstep⟩ := Option.bind_eq_some_iff.mp hstep
  obtain ⟨hothers, hown⟩ := rowsOf_foldlM_create hcreated
  cases hstep
  have hnone : ∀ row ∈ rowsOf created campaign.id, row.status ≠ .sending := by
    intro row hrow
    obtain hold | hnew := hown row hrow
    · exact hknown row hold
    · exact hnew
  refine inv.go hworker hothers ?_
  cases more <;> exact hnone

theorem Inv.dispatchOk (inv : Inv s)
    (hworker : s.workers w = .dispatching now campaign pc rest)
    (hquiet : pc = .recover → ∀ row ∈ rowsOf s.deliveries campaign.id,
      row.status = .sending → row.updatedAt < now - 10 * 60)
    (hstep : s.dispatch w now campaign rest pc .ok = some t) : Inv t := by
  have hknown := inv.known hworker
  have hsame : ∀ id, id ≠ campaign.id → rowsOf s.deliveries id = rowsOf s.deliveries id :=
    fun _ _ => rfl
  cases pc with
  | recover =>
    cases hstep
    refine inv.go hworker (fun id hne => rowsOf_recoverDeliveries_other hne) ?_
    have hnone := @recoverDeliveries_not_sending s.deliveries s.clock _ _ (hquiet rfl)
    cases campaign.conditional <;> exact hnone
  | reset =>
    cases hstep
    exact inv.go hworker (fun id hne => rowsOf_resetRetryable_other hne)
      (resetRetryable_not_sending hknown)
  | create => cases hstep
  | list =>
    cases hstep
    refine inv.go hworker hsame ?_
    by_cases hempty : pendingDeliveries s.deliveries campaign.id = []
    · rw [if_pos hempty]
      intro row hrow
      have hpending := pendingDeliveries_eq_nil hempty row hrow
      have hsending := hknown row hrow
      cases hstatus : row.status <;> simp_all [DeliveryStatus.final]
    · rw [if_neg hempty]
      exact ⟨hknown, fun delivery hmem => ⟨delivery, mem_pendingDeliveries hmem, rfl⟩⟩
  | claim batch =>
    obtain ⟨hnone, howned⟩ := hknown
    cases batch with
    | nil =>
      cases hstep
      exact inv.go hworker hsame hnone
    | cons delivery batch =>
      cases hstep
      have hsending := @claimDelivery_sending s.deliveries s.clock campaign.id delivery.id hnone
      have howned' := @owned_claimDelivery s.deliveries s.clock _ delivery.id _ howned
      refine inv.go hworker (fun id hne => rowsOf_id_other hne
        (howned delivery List.mem_cons_self) (fun row => by split <;> rfl)
        fun row hrow => if_neg fun h => hrow h.1) ?_
      by_cases hclaimed : (s.deliveries.rows.any fun row =>
          row.id = delivery.id && row.status = .pending) = true
      · rw [if_pos hclaimed]
        exact ⟨fun row hrow h => (hsending row hrow h).1, howned'⟩
      · rw [if_neg hclaimed]
        exact ⟨fun row hrow h => hclaimed (hsending row hrow h).2,
          fun own hown => howned' own (List.mem_cons_of_mem _ hown)⟩
  | send delivery batch =>
    cases hstep
    exact inv.go hworker hsame ⟨hknown.1, rfl, hknown.2⟩
  | mark delivery status batch =>
    obtain ⟨hsending, hfinal, howned⟩ := hknown
    cases hstep
    refine inv.go hworker (fun id hne => rowsOf_id_other hne
      (howned delivery List.mem_cons_self) (fun row => by split <;> rfl)
      fun row hrow => if_neg fun h => hrow h.1) ⟨finishDelivery_not_sending hfinal hsending, ?_⟩
    exact fun own hown => owned_finishDelivery howned own (List.mem_cons_of_mem _ hown)
  | count =>
    cases hstep
    exact inv.go hworker hsame ⟨hknown, rfl⟩
  | finish stats =>
    obtain ⟨hfinal, rfl⟩ := hknown
    cases hstep
    refine inv.leave hworker (.inr rfl) fun row hrow hclosed => ?_
    obtain ⟨old, hold, rfl⟩ := List.mem_map.mp hrow
    by_cases hfinish : old.id = campaign.id ∧ old.status = .running
    · rw [if_pos hfinish] at hclosed ⊢
      rw [← hfinish.1] at hfinal ⊢
      exact .inr ⟨rfl, hfinal, rfl, rfl, rfl, rfl⟩
    · rw [if_neg hfinish]
      exact .inl hold
  | fail =>
    cases hstep
    refine inv.leave hworker (.inl rfl) fun row hrow hclosed => ?_
    obtain ⟨old, hold, rfl⟩ := List.mem_map.mp hrow
    by_cases hfailed : old.id = campaign.id ∧ old.status = .running
    · rw [if_pos hfailed] at hclosed
      cases hmode : campaign.conditional <;> rw [hmode] at hclosed <;> cases hclosed
    · rw [if_neg hfailed]
      exact .inl hold

theorem Inv.dispatch (inv : Inv s) (hworker : s.workers w = .dispatching now campaign pc rest)
    (hquiet : pc = .recover → input = .ok → ∀ row ∈ rowsOf s.deliveries campaign.id,
      row.status = .sending → row.updatedAt < now - 10 * 60)
    (hstep : s.dispatch w now campaign rest pc input = some t) : Inv t := by
  cases input with
  | ok => exact inv.dispatchOk hworker (fun hpc => hquiet hpc rfl) hstep
  | error => exact inv.dispatchFails hworker hstep
  | candidates recipients more =>
    cases pc with
    | create => exact inv.dispatchCreate hworker hstep
    | claim batch => cases batch <;> cases hstep
    | _ => cases hstep

/-! ### Claiming campaigns -/

theorem closed_of_mapRows {f : Campaign → Campaign} {hid : ∀ row, (f row).id = row.id}
    (hf : ∀ row, f row = row ∨ (f row).status.closed = false) :
    ∀ row ∈ (s.campaigns.mapRows f hid).rows, row.status.closed = true →
      row ∈ s.campaigns.rows := by
  intro row hrow hclosed
  obtain ⟨old, hold, rfl⟩ := List.mem_map.mp hrow
  obtain hsame | hopen := hf old
  · rw [hsame]
    exact hold
  · rw [hopen] at hclosed
    cases hclosed

theorem Inv.workless (inv : Inv s) (hheld : worker.held.Sublist (s.workers w).held)
    (hworker : ∀ {now campaign pc rest}, worker = .dispatching now campaign pc rest → pc = .recover)
    (hcampaigns : ∀ row ∈ campaigns.rows, row.status.closed = true → row ∈ s.campaigns.rows) :
    Inv { s.setWorker w worker with campaigns := campaigns } := by
  refine inv.work hheld (fun _ _ => rfl) (fun row hrow h => .inl (hcampaigns row hrow h)) ?_
  intro now campaign pc rest heq
  rw [hworker heq]
  trivial

theorem Inv.claim (inv : Inv s) (hheld : worker.held = (s.workers w).held ++ [campaign.id])
    (hclaiming : ∀ now campaign pc rest, worker ≠ .dispatching now campaign pc rest)
    (hclaimable : s.campaigns.rows.any (claimable campaign) = true)
    (halone : ∀ other, campaign.id ∉ (s.workers other).held) :
    Inv { s.setWorker w worker with campaigns := claimCampaign s.campaigns campaign now } := by
  have hworkers : ∀ w', (Function.update s.workers w worker w').held =
      (s.workers w').held ++ if w' = w then [campaign.id] else [] := by
    intro w'
    by_cases hw : w' = w
    · rw [hw, Function.update_self, if_pos rfl, hheld]
    · rw [Function.update_of_ne hw, if_neg hw, List.append_nil]
  have hcases : ∀ {w' id}, id ∈ (Function.update s.workers w worker w').held →
      id ∈ (s.workers w').held ∨ w' = w ∧ id = campaign.id := by
    intro w' id hmem
    rw [hworkers, List.mem_append] at hmem
    refine hmem.imp_right fun hmem => ?_
    by_cases hw : w' = w
    · rw [if_pos hw, List.mem_singleton] at hmem
      exact ⟨hw, hmem⟩
    · rw [if_neg hw] at hmem
      cases hmem
  have hclosed : ∀ row ∈ (claimCampaign s.campaigns campaign now).rows,
      row.status.closed = true → row ∈ s.campaigns.rows ∧ row.id ≠ campaign.id := by
    intro row hrow h
    have hold := closed_of_mapRows (fun row => ?_) row hrow h
    · refine ⟨hold, fun hsame => ?_⟩
      obtain ⟨own, hown, hmatch⟩ := List.any_eq_true.mp hclaimable
      obtain ⟨old, hmem, rfl⟩ := List.mem_map.mp hrow
      have hownId : own.id = campaign.id := by
        unfold claimable at hmatch
        rw [Bool.and_eq_true, Bool.and_eq_true, decide_eq_true_eq] at hmatch
        exact hmatch.1.1
      -- the row of that id is the one that was claimed, and so it is running
      by_cases hclaimed : claimable campaign old = true
      · rw [if_pos hclaimed] at h
        cases h
      · rw [if_neg hclaimed] at hsame
        have hfind := Table.find_of_mem hmem
        have hfindOwn := Table.find_of_mem hown
        have hkeys : s.campaigns.find old.id = s.campaigns.find own.id := by
          rw [hsame, hownId]
        cases hfind.symm.trans (hkeys.trans hfindOwn)
        exact hclaimed hmatch
    · by_cases hclaimed : claimable campaign row = true
      · rw [if_pos hclaimed]
        exact .inr rfl
      · rw [if_neg hclaimed]
        exact .inl rfl
  constructor
  · intro w' w'' id h h'
    obtain hold | ⟨hw, hid⟩ := hcases h
    · obtain hold' | ⟨hw', hid'⟩ := hcases h'
      · exact inv.alone hold hold'
      · rw [hid'] at hold
        exact absurd hold (halone w')
    · obtain hold' | ⟨hw', -⟩ := hcases h'
      · rw [hid] at hold'
        exact absurd hold' (halone w'')
      · rw [hw, hw']
  · intro w'
    show (Function.update s.workers w worker w').held.Nodup
    rw [hworkers]
    by_cases hw : w' = w
    · rw [if_pos hw]
      refine List.nodup_append.mpr ⟨inv.once w', List.nodup_singleton _, fun id hid id' hid' => ?_⟩
      rw [List.mem_singleton.mp hid']
      exact fun heq => halone w' (heq ▸ hid)
    · rw [if_neg hw, List.append_nil]
      exact inv.once w'
  · intro row hrow h w' hmem
    obtain ⟨hold, hne⟩ := hclosed row hrow h
    obtain hmem' | ⟨-, hid⟩ := hcases hmem
    · exact inv.free row hold h w' hmem'
    · exact hne hid
  · intro row hrow h
    exact inv.right row (hclosed row hrow h).1 h
  · intro w' now' campaign' pc rest h
    have hworker : Function.update s.workers w worker w' = .dispatching now' campaign' pc rest := h
    by_cases hw : w' = w
    · rw [hw, Function.update_self] at hworker
      exact absurd hworker (hclaiming _ _ _ _)
    · rw [Function.update_of_ne hw] at hworker
      exact inv.known hworker

theorem Inv.worked (inv : Inv s) (hquiet : Undisturbed s (.work w input))
    (hstep : s.work w input = some t) : Inv t := by
  unfold State.work at hstep
  have hidle : Inv (s.setWorker w .idle) :=
    inv.workless (List.nil_sublist _) (fun heq => by cases heq) fun row hrow _ => hrow
  cases hworker : s.workers w with
  | idle =>
    rw [hworker] at hstep
    cases hstep
  | recovering now found =>
    rw [hworker] at hstep
    cases input with
    | ok =>
      cases found with
      | nil =>
        cases hstep
        exact inv.workless (List.nil_sublist _) (fun heq => by cases heq) fun row hrow _ => hrow
      | cons id found =>
        cases hstep
        refine inv.workless (List.nil_sublist _) (fun heq => by cases heq)
          (closed_of_mapRows fun row => ?_)
        split
        · right
          cases row.conditional <;> rfl
        · exact .inl rfl
    | error =>
      cases found <;> rw [← Option.some.inj hstep] <;> exact hidle
    | candidates recipients more => cases found <;> cases hstep
  | claiming now due claimed =>
    rw [hworker] at hstep
    cases input with
    | ok =>
      cases due with
      | nil =>
        cases hstep
        refine inv.workless ?_ (fun {now' campaign' pc rest'} heq => ?_) fun row hrow _ => hrow
        · rw [hworker]
          cases claimed <;> exact List.Sublist.refl _
        · cases claimed with
          | nil => cases heq
          | cons first rest =>
            cases heq
            rfl
      | cons campaign due =>
        cases hstep
        unfold Undisturbed at hquiet
        dsimp only at hquiet
        rw [hworker] at hquiet
        by_cases hclaimable : s.campaigns.rows.any (claimable campaign) = true
        · rw [if_pos hclaimable]
          refine inv.claim ?_ (fun _ _ _ _ heq => by cases heq) hclaimable (hquiet hclaimable)
          rw [hworker]
          exact List.map_append
        · rw [if_neg hclaimable]
          refine inv.workless ?_ (fun heq => by cases heq) (closed_of_mapRows fun row => ?_)
          · rw [hworker]
            exact List.Sublist.refl _
          · split
            · exact .inr rfl
            · exact .inl rfl
    | error =>
      cases due <;> rw [← Option.some.inj hstep] <;> exact hidle
    | candidates recipients more => cases due <;> cases hstep
  | dispatching now campaign pc rest =>
    rw [hworker] at hstep
    refine inv.dispatch hworker (fun hpc hinput row hrow hsending => ?_) hstep
    rw [hinput] at hquiet
    unfold Undisturbed at hquiet
    dsimp only at hquiet
    rw [hworker, hpc] at hquiet
    obtain ⟨hmem, hown⟩ := mem_rowsOf.mp hrow
    exact hquiet row hmem hown hsending

theorem Inv.retried (inv : Inv s) (hstep : s.retry campaignId = some t) : Inv t := by
  unfold State.retry at hstep
  cases hfind : s.campaigns.find campaignId with
  | none =>
    rw [hfind] at hstep
    cases hstep
  | some campaign =>
    rw [hfind] at hstep
    obtain ⟨hclosed, ⟨⟩⟩ := Option.ite_none_right_eq_some.mp hstep
    have hid := Table.key_of_find hfind
    have hstatus : campaign.status.closed = true := by
      obtain h | h := hclosed.2 <;> rw [h] <;> rfl
    have hfree := inv.free campaign (Table.mem_of_find hfind) hstatus
    rw [hid] at hfree
    have hrows : ∀ id, id ≠ campaignId → rowsOf (s.deliveries.mapRows (fun row =>
        if row.campaignId = campaignId ∧ row.status = .failed then
          { row with status := .pending, updatedAt := s.clock }
        else row) fun row => by split <;> rfl) id = rowsOf s.deliveries id := by
      intro id hne
      exact rowsOf_mapRows_other _ (fun row => by split <;> rfl) fun row _ hrow =>
        if_neg fun h => hne (hrow.symm.trans h.1)
    have hold : ∀ row ∈ (s.campaigns.mapRows (fun row =>
        if row.id = campaignId then
          { row with status := .scheduled, nextRunAt := s.clock, updatedAt := s.clock }
        else row) fun row => by split <;> rfl).rows, row.status.closed = true →
        row ∈ s.campaigns.rows ∧ row.id ≠ campaignId := by
      intro row hrow h
      obtain ⟨old, hmem, rfl⟩ := List.mem_map.mp hrow
      by_cases hsame : old.id = campaignId
      · rw [if_pos hsame] at h
        cases h
      · rw [if_neg hsame]
        exact ⟨hmem, hsame⟩
    constructor
    · exact inv.alone
    · exact inv.once
    · exact fun row hrow h => inv.free row (hold row hrow h).1 h
    · exact fun row hrow h =>
        (inv.right row (hold row hrow h).1 h).congr (hrows row.id (hold row hrow h).2)
    · intro w now own pc rest hworker
      refine (inv.known hworker).congr (hrows own.id fun heq => hfree w ?_)
      have hworker' : s.workers w = .dispatching now own pc rest := hworker
      rw [hworker', ← heq]
      exact List.mem_cons_self

theorem Inv.step {act : Act} (inv : Inv s) (hquiet : Undisturbed s act)
    (hstep : step s act = some t) : Inv t := by
  unfold EmailCampaign.step at hstep
  cases act with
  | tick now =>
    obtain ⟨-, ⟨⟩⟩ := Option.ite_none_left_eq_some.mp hstep
    exact ⟨inv.alone, inv.once, inv.free, inv.right, inv.known⟩
  | begin w =>
    obtain ⟨-, ⟨⟩⟩ := Option.ite_none_right_eq_some.mp hstep
    exact inv.workless (List.nil_sublist _) (fun heq => by cases heq) fun row hrow _ => hrow
  | work w input => exact inv.worked hquiet hstep
  | crash w =>
    cases hstep
    exact inv.workless (List.nil_sublist _) (fun heq => by cases heq) fun row hrow _ => hrow
  | retry campaignId => exact inv.retried hstep

end Invariant

/-! ### Runs -/

structure Start (s : State) : Prop where
  idle : ∀ w, s.workers w = .idle
  closed : s.Closed

theorem Start.inv {s : State} (start : Start s) : Inv s where
  alone := fun {w _ _} h => by
    rw [start.idle w] at h
    cases h
  once := fun w => by
    rw [start.idle w]
    exact List.nodup_nil
  free := fun _ _ _ w h => by
    rw [start.idle w] at h
    cases h
  right := closed_iff_right.mp start.closed
  known := fun {w _ _ _ _} h => by
    rw [start.idle w] at h
    cases h

/-- In a run whose workers leave each other's campaigns alone, a closed campaign has no delivery left
to do and counts its deliveries. -/
theorem closed_of_undisturbed {s t : State} {acts : List Act} (start : Start s)
    (hquiet : Machine.Meets step Undisturbed s acts) (hrun : Machine.run step s acts = some t) :
    t.Closed := by
  have hinv := Machine.run_invariant Inv (fun _ _ _ inv hquiet hstep => inv.step hquiet hstep)
    acts s t start.inv hquiet hrun
  exact closed_iff_right.mpr hinv.right

/-! ### A mail that takes longer than a campaign may -/

def campaign : Campaign where
  id := 1
  conditional := false
  status := .scheduled
  nextRunAt := 1000
  lastRunAt := 0
  updatedAt := 1000
  recipientCount := 0
  successCount := 0
  failedCount := 0
  skippedCount := 0

def start : State where
  clock := 1000
  campaigns := ⟨[campaign], by decide⟩
  deliveries := ⟨[], by decide⟩
  workers := fun _ => .idle

def recipient : Candidate := ⟨7, "1:5", true⟩

/-- A worker begins, claims the campaign and makes up its deliveries. -/
def opening (w : Nat) : List Act :=
  [.begin w, .work w .ok, .work w .ok, .work w .ok, .work w .ok,
    .work w (.candidates [recipient] false)]

theorem start_start : Start start where
  idle := fun _ => rfl
  closed := by
    intro campaign hmem hclosed
    obtain rfl := List.mem_singleton.mp hmem
    cases hclosed

def quietRun : List Act := opening 0 ++ List.replicate 8 (.work 0 .ok)

theorem quietRun_undisturbed : Machine.Meets step Undisturbed start quietRun := by
  refine ⟨trivial, fun _ h => ?_⟩
  cases h
  refine ⟨trivial, fun _ h => ?_⟩
  cases h
  refine ⟨fun _ other => ?_, fun _ h => ?_⟩
  · by_cases hother : other = 0
    · subst hother
      exact List.not_mem_nil
    · have hidle : Function.update (Function.update start.workers 0 (.recovering 1000 [])) 0
          (.claiming 1000 (dueCampaigns start.campaigns 1000) []) other = .idle := by
        rw [Function.update_of_ne hother, Function.update_of_ne hother]
        rfl
      intro hmem
      have hheld : campaign.id ∈ (Worker.idle).held := hidle ▸ hmem
      cases hheld
  cases h
  refine ⟨trivial, fun _ h => ?_⟩
  cases h
  refine ⟨fun _ hmem => absurd hmem List.not_mem_nil, fun _ h => ?_⟩
  cases h
  iterate 8
    refine ⟨trivial, fun _ h => ?_⟩
    cases h
  exact ⟨trivial, fun _ _ => trivial⟩

theorem closed_of_undisturbed_start :
    ∃ t, Machine.run step start quietRun = some t ∧ t.Closed := by
  have hsome : (Machine.run step start quietRun).isSome = true := by rfl
  obtain ⟨t, ht⟩ := Option.isSome_iff_exists.mp hsome
  exact ⟨t, ht, closed_of_undisturbed start_start quietRun_undisturbed ht⟩

/-- A worker crashes while it sends, 500 seconds after it claimed the campaign; 601 seconds after the
claim another one takes the campaign over. -/
def takeover : List Act :=
  opening 0 ++ [.tick 1500, .work 0 .ok, .work 0 .ok, .crash 0, .tick 1601, .begin 1] ++
    List.replicate 5 (.work 1 .ok) ++ [.work 1 (.candidates [recipient] false)] ++
    List.replicate 3 (.work 1 .ok)

/-- The campaign is completed while its delivery is still marked as being sent. -/
theorem takeover_not_closed :
    ∃ t, Machine.run step start takeover = some t ∧ ¬ t.Closed := by
  have hrows : (Machine.run step start takeover).map
      (fun t => (t.campaigns.rows.map fun row => (row.id, row.status),
        t.deliveries.rows.map fun row => (row.campaignId, row.status))) =
      some ([(1, .completed)], [(1, .sending)]) := by rfl
  cases hrun : Machine.run step start takeover with
  | none =>
    rw [hrun] at hrows
    cases hrows
  | some t =>
    rw [hrun] at hrows
    obtain ⟨hcampaigns, hdeliveries⟩ := Prod.mk.inj (Option.some.inj hrows)
    obtain ⟨campaign, rest, hcampaign, hstatus, -⟩ := List.map_eq_cons_iff.mp hcampaigns
    obtain ⟨delivery, others, hdelivery, hsending, -⟩ := List.map_eq_cons_iff.mp hdeliveries
    obtain ⟨hid, hstatus⟩ := Prod.mk.inj hstatus
    obtain ⟨hown, hsending⟩ := Prod.mk.inj hsending
    refine ⟨t, rfl, fun h => ?_⟩
    have hfinal := (h campaign (by rw [hcampaign]; exact List.mem_cons_self)
      (by rw [hstatus]; rfl)).1 delivery (by rw [hdelivery]; exact List.mem_cons_self)
      (hown.trans hid.symm)
    rw [hsending] at hfinal
    cases hfinal

end JulongApi.EmailCampaign

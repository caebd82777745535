/-
No payment is invoiced twice, and no invoice is completed without having been sent.

That a request id has one unreleased item is the unique index of the table of items; what has to be
shown is that the items say the truth about their applications.  An operation on an application
rewrites its row and perhaps releases its items, and `sound_save` is the one lemma about all of
them.  `Tracked` relates the rows to what has happened: as long as an application is open, a time
in `email_sending_at` is that of a delivery that began and was not cancelled since.
-/
import JulongApi.Invoice
import JulongApi.Lib.Pool

namespace JulongApi

/-! ### The amount of an application -/

theorem wrapInt64_of_range {x : Int} (hlow : -2 ^ 63 ≤ x) (hhigh : x < 2 ^ 63) :
    wrapInt64 x = x := by
  unfold wrapInt64
  omega

theorem foldl_amountQuota : ∀ (selected : List InvoiceCredit) (amountQuota : Int), 0 ≤ amountQuota →
    (∀ credit ∈ selected, 0 < credit.quota ∧ credit.quota ≤ 2 * maxWalletQuota) →
    amountQuota + selected.length * (2 * maxWalletQuota) < 2 ^ 63 →
    selected.foldl (fun amountQuota credit => wrapInt64 (amountQuota + credit.quota)) amountQuota =
      amountQuota + (selected.map InvoiceCredit.quota).sum := by
  intro selected
  induction selected with
  | nil =>
    intro amountQuota _ _ _
    simp
  | cons credit rest ih =>
    intro amountQuota hnonneg hquota hroom
    obtain ⟨hpos, hle⟩ := hquota credit (List.mem_cons_self ..)
    have hrest : ∀ c ∈ rest, 0 < c.quota ∧ c.quota ≤ 2 * maxWalletQuota :=
      fun c hc => hquota c (List.mem_cons_of_mem _ hc)
    have hroom' : amountQuota + credit.quota + rest.length * (2 * maxWalletQuota) < 2 ^ 63 := by
      rw [List.length_cons] at hroom
      push_cast at hroom
      linarith
    have hmax : (0 : Int) ≤ 2 * maxWalletQuota := by decide
    have hlen : (0 : Int) ≤ rest.length * (2 * maxWalletQuota) :=
      mul_nonneg (Int.natCast_nonneg _) hmax
    have hwrap : wrapInt64 (amountQuota + credit.quota) = amountQuota + credit.quota :=
      wrapInt64_of_range (by linarith) (by linarith)
    rw [List.foldl_cons, hwrap, ih _ (by linarith) hrest hroom', List.map_cons, List.sum_cons,
      add_assoc]

variable {allowedSources : List String} {logs : List QuotaLog} {userID : Int} {now : Moment}

theorem quota_of_loadInvoiceCredits {credit : InvoiceCredit}
    (h : credit ∈ loadInvoiceCredits allowedSources logs userID) :
    0 < credit.quota ∧ credit.quota ≤ 2 * maxWalletQuota := by
  unfold loadInvoiceCredits at h
  split at h
  · simp at h
  · obtain ⟨log, hlog, hcredit⟩ := List.mem_filterMap.mp h
    have hquota : credit.quota = log.quota := by
      unfold invoiceCreditOf at hcredit
      split at hcredit
      · simp at hcredit
      · split at hcredit
        · simp at hcredit
        · rw [← Option.some.inj hcredit]
    have hpos := (List.mem_filter.mp (List.mem_of_mem_take hlog)).2
    simp only [decide_eq_true_eq] at hpos
    exact ⟨hquota ▸ hpos.2.2, hquota ▸ log.quota_le⟩

theorem length_of_invoiceRequestSet {requestIDs requestSet : List String}
    (h : invoiceRequestSet userID requestIDs = .ok requestSet) :
    requestIDs.length ≤ maxInvoiceItems := by
  unfold invoiceRequestSet at h
  split at h
  · simp at h
  · next hvalid => exact Nat.le_of_not_lt fun hlt => hvalid (.inr (.inr hlt))

namespace InvoiceDraft

/-- What `CreateInvoiceApplication` is about to insert is a new application over the credits. -/
def WellFormed (draft : InvoiceDraft) : Prop :=
  draft.application.amountQuota = (draft.selected.map InvoiceCredit.quota).sum ∧
    draft.application.status = .pending ∧ draft.application.emailSendingAt = 0

end InvoiceDraft

theorem InvoiceRequest.draft_wellFormed {request : InvoiceRequest} {draft : InvoiceDraft}
    (h : request.draft allowedSources logs = .ok draft) : draft.WellFormed := by
  unfold InvoiceRequest.draft at h
  split at h
  · simp at h
  next requestSet hset =>
  dsimp only at h
  split at h
  · simp at h
  next hselected =>
  have hlength := length_of_invoiceRequestSet hset
  have hamount := foldl_amountQuota
    ((loadInvoiceCredits allowedSources logs request.userID).filter fun credit =>
      decide (credit.requestID ∈ requestSet)) 0 le_rfl
    (fun credit hcredit => quota_of_loadInvoiceCredits (List.mem_filter.mp hcredit).1) (by
      rw [not_or, not_not] at hselected
      rw [hselected.1]
      have hcount : (request.requestIDs.length : Int) ≤ 100 := by exact_mod_cast hlength
      have hbound := mul_le_mul_of_nonneg_right hcount (show (0 : Int) ≤ 2 * maxWalletQuota by decide)
      calc (0 : Int) + request.requestIDs.length * (2 * maxWalletQuota)
          ≤ 100 * (2 * maxWalletQuota) := by linarith
        _ < 2 ^ 63 := by decide)
  rw [zero_add] at hamount
  split at h
  · cases h
    exact ⟨hamount, rfl, rfl⟩
  · cases h
    exact ⟨hamount, rfl, rfl⟩
  · simp at h

/-! ### Items and their applications -/

namespace InvoiceDB

variable {db db' : InvoiceDB} {id : Int} {old new : InvoiceApplication}

def itemsOf (db : InvoiceDB) (id : Int) : List InvoiceItem :=
  db.items.rows.filter fun item => decide (item.applicationID = id)

structure Sound (db : InvoiceDB) : Prop where
  items : ∀ item ∈ db.items.rows, ∃ application,
    db.applications.find item.applicationID = some application ∧
      (item.releasedAt = 0 → application.status ≠ .rejected ∧ application.status ≠ .cancelled)
  amounts : ∀ application ∈ db.applications.rows,
    application.amountQuota = ((db.itemsOf application.id).map InvoiceItem.quota).sum

/--
A row that is rewritten with the amount it had, while the items are rewritten by `f`, keeps the
tables sound if `f` releases what the new status may not claim.
-/
theorem sound_save (h : db.Sound) (happs : db'.applications = db.applications.save new)
    (hfind : db.applications.find new.id = some old) (hamount : new.amountQuota = old.amountQuota)
    {f : InvoiceItem → InvoiceItem} (hrows : db'.items.rows = db.items.rows.map f)
    (hf : ∀ item, (f item).applicationID = item.applicationID ∧ (f item).quota = item.quota)
    (hclaim : ∀ item, (f item).releasedAt = 0 → item.releasedAt = 0 ∧
      (item.applicationID = new.id → new.status ≠ .rejected ∧ new.status ≠ .cancelled)) :
    db'.Sound := by
  constructor
  · intro item hitem
    rw [hrows] at hitem
    obtain ⟨before, hbefore, rfl⟩ := List.mem_map.mp hitem
    obtain ⟨application, hfound, hstatus⟩ := h.items before hbefore
    rw [happs, (hf before).1]
    by_cases hid : new.id = before.applicationID
    · refine ⟨new, hid ▸ Table.find_save_self hfind, fun hrel => ?_⟩
      exact (hclaim before hrel).2 hid.symm
    · refine ⟨application, (Table.find_save_ne hid).trans hfound, fun hrel => ?_⟩
      exact hstatus (hclaim before hrel).1
  · have hsum : ∀ id, ((db'.itemsOf id).map InvoiceItem.quota).sum =
        ((db.itemsOf id).map InvoiceItem.quota).sum := by
      intro id
      unfold itemsOf
      rw [hrows, List.filter_map, List.map_map]
      have hquota : InvoiceItem.quota ∘ f = InvoiceItem.quota := funext fun item => (hf item).2
      have hfilter : (fun item => decide (InvoiceItem.applicationID item = id)) ∘ f =
          fun item => decide (item.applicationID = id) := by
        funext item
        simp only [Function.comp_apply, (hf item).1]
      rw [hquota, hfilter]
    intro application happ
    rw [happs] at happ
    rw [hsum]
    rcases Table.mem_save happ with rfl | hold
    · have hkey : old.id = application.id := Table.key_of_find hfind
      rw [hamount, h.amounts old (Table.mem_of_find hfind), hkey]
    · exact h.amounts application hold

theorem sound_save_only (h : db.Sound) (happs : db'.applications = db.applications.save new)
    (hitems : db'.items = db.items) (hfind : db.applications.find new.id = some old)
    (hamount : new.amountQuota = old.amountQuota)
    (hstatus : new.status ≠ .rejected ∧ new.status ≠ .cancelled) : db'.Sound :=
  sound_save (f := id) h happs hfind hamount (by rw [hitems, List.map_id]) (fun _ => ⟨rfl, rfl⟩)
    fun _ hrel => ⟨hrel, fun _ => hstatus⟩

theorem sound_release (h : db.Sound) {frozenUntil : Int}
    (hrelease : (db.saveApplication new).releaseItems id now.unixNano frozenUntil = .ok db')
    (hid : new.id = id) (hfind : db.applications.find new.id = some old)
    (hamount : new.amountQuota = old.amountQuota) :
    db'.Sound ∧ db'.applications = db.applications.save new := by
  unfold releaseItems at hrelease
  split at hrelease
  next items hmap =>
    cases hrelease
    refine ⟨sound_save h rfl hfind hamount (Table.rows_of_tryMap hmap) (fun item => ?_)
      fun item hrel => ?_, rfl⟩
    · unfold released
      split <;> exact ⟨rfl, rfl⟩
    · unfold released at hrel
      split at hrel
      · exact absurd hrel now.pos.ne'
      · next hother => exact ⟨hrel, fun happ => absurd ⟨happ.trans hid, hrel⟩ hother⟩
  · simp at hrelease

theorem sound_insert (h : db.Sound) {draft : InvoiceDraft} (hdraft : draft.WellFormed)
    (hinsert : draft.insert db id = .ok db') :
    db'.Sound ∧ db.applications.insert { draft.application with id := id } =
      some db'.applications := by
  unfold InvoiceDraft.insert at hinsert
  split at hinsert
  · simp at hinsert
  next applications happs =>
  split at hinsert
  · simp at hinsert
  next items hitems =>
  cases hinsert
  obtain ⟨hamount, hstatus, -⟩ := hdraft
  have hfree : db.applications.find id = none := Table.find_of_insert happs
  have hrows := Table.rows_of_insertAll hitems
  refine ⟨⟨?_, ?_⟩, happs⟩
  · intro item hitem
    rw [hrows, List.mem_append, List.mem_reverse] at hitem
    rcases hitem with hnew | hold
    · obtain ⟨credit, -, rfl⟩ := List.mem_map.mp hnew
      refine ⟨_, Table.find_insert_self happs, fun _ => ?_⟩
      rw [hstatus]
      exact ⟨by decide, by decide⟩
    · obtain ⟨application, hfound, hclaim⟩ := h.items item hold
      refine ⟨application, (Table.find_insert_ne happs ?_).trans hfound, hclaim⟩
      rintro rfl
      exact absurd (hfree.symm.trans hfound) (by simp)
  · -- the new items are those of the new application, which had none before
    intro application happ
    unfold itemsOf
    rw [hrows, List.filter_append, List.map_append, List.sum_append]
    rcases Table.mem_insert happs happ with rfl | hold
    · have hnew : (draft.selected.map (draft.item id)).reverse.filter
          (fun item => decide (item.applicationID = id)) =
            (draft.selected.map (draft.item id)).reverse := by
        refine List.filter_eq_self.mpr fun item hitem => ?_
        obtain ⟨credit, -, rfl⟩ := List.mem_map.mp (List.mem_reverse.mp hitem)
        exact decide_eq_true rfl
      have hnone : db.items.rows.filter (fun item => decide (item.applicationID = id)) = [] := by
        refine List.filter_eq_nil_iff.mpr fun item hitem hid => ?_
        obtain ⟨application, hfound, -⟩ := h.items item hitem
        rw [of_decide_eq_true hid, hfree] at hfound
        simp at hfound
      rw [hnew, hnone, List.map_reverse, List.sum_reverse, List.map_map]
      rw [List.map_nil, List.sum_nil, add_zero]
      exact hamount
    · have hne : application.id ≠ id := by
        intro hid
        have hfound := Table.find_of_mem hold
        rw [hid, hfree] at hfound
        simp at hfound
      have hnone : (draft.selected.map (draft.item id)).reverse.filter
          (fun item => decide (item.applicationID = application.id)) = [] := by
        refine List.filter_eq_nil_iff.mpr fun item hitem hid => ?_
        obtain ⟨credit, -, rfl⟩ := List.mem_map.mp (List.mem_reverse.mp hitem)
        exact hne (of_decide_eq_true hid).symm
      rw [hnone, List.map_nil, List.sum_nil, zero_add]
      exact h.amounts application hold

end InvoiceDB

/-! ### Deliveries -/

namespace InvoiceEvent

def application : InvoiceEvent → Int
  | began id _ | cancelled id _ | completed id _ | withdrawn id => id

/-- The delivery has begun, and was not cancelled since. -/
def Open (events : List InvoiceEvent) (id emailSendingAt : Int) : Prop :=
  ∃ since before, events = since ++ began id emailSendingAt :: before ∧
    cancelled id emailSendingAt ∉ since

def Delivered (events : List InvoiceEvent) : Prop :=
  ∀ later id emailSendingAt earlier, events = later ++ completed id emailSendingAt :: earlier →
    Open earlier id emailSendingAt

/-- The application was completed, and was not withdrawn since. -/
def Completed (events : List InvoiceEvent) (id : Int) : Prop :=
  ∃ since emailSendingAt before, events = since ++ completed id emailSendingAt :: before ∧
    withdrawn id ∉ since

variable {events : List InvoiceEvent} {e : InvoiceEvent} {id emailSendingAt : Int}

theorem open_began : Open (began id emailSendingAt :: events) id emailSendingAt :=
  ⟨[], events, rfl, by simp⟩

theorem Open.cons (h : Open events id emailSendingAt) (hne : cancelled id emailSendingAt ≠ e) :
    Open (e :: events) id emailSendingAt := by
  obtain ⟨since, before, rfl, hsince⟩ := h
  exact ⟨e :: since, before, rfl, List.not_mem_cons_of_ne_of_not_mem hne hsince⟩

theorem completed_now : Completed (completed id emailSendingAt :: events) id :=
  ⟨[], emailSendingAt, events, rfl, by simp⟩

theorem Completed.cons (h : Completed events id) (hne : withdrawn id ≠ e) :
    Completed (e :: events) id := by
  obtain ⟨since, emailSendingAt, before, rfl, hsince⟩ := h
  exact ⟨e :: since, emailSendingAt, before, rfl, List.not_mem_cons_of_ne_of_not_mem hne hsince⟩

theorem delivered_nil : Delivered [] := by
  intro later id emailSendingAt earlier h
  simp at h

theorem Delivered.cons (h : Delivered events)
    (hopen : ∀ id emailSendingAt, e = completed id emailSendingAt →
      Open events id emailSendingAt) : Delivered (e :: events) := by
  intro later id emailSendingAt earlier heq
  cases later with
  | nil =>
    obtain ⟨rfl, rfl⟩ := List.cons.inj heq
    exact hopen id emailSendingAt rfl
  | cons first later =>
    obtain ⟨-, htail⟩ := List.cons.inj heq
    exact h later id emailSendingAt earlier htail

end InvoiceEvent

open InvoiceEvent

/-- What the rows say of deliveries has happened. -/
structure InvoiceDB.Tracked (db : InvoiceDB) (events : List InvoiceEvent) : Prop where
  sending : ∀ application ∈ db.applications.rows, application.status.isTerminal = false →
    application.emailSendingAt ≠ 0 → Open events application.id application.emailSendingAt
  completed : ∀ application ∈ db.applications.rows, application.status = .completed →
    Completed events application.id

namespace InvoiceDB

variable {db db' : InvoiceDB} {events : List InvoiceEvent} {e : InvoiceEvent}
  {new : InvoiceApplication}

theorem tracked_save (h : db.Tracked events) (happs : db'.applications = db.applications.save new)
    (hsending : new.status.isTerminal = false → new.emailSendingAt ≠ 0 →
      Open events new.id new.emailSendingAt)
    (hcompleted : new.status = .completed → Completed events new.id) : db'.Tracked events := by
  constructor
  · intro application happ
    rw [happs] at happ
    rcases Table.mem_save happ with rfl | hold
    · exact hsending
    · exact h.sending application hold
  · intro application happ
    rw [happs] at happ
    rcases Table.mem_save happ with rfl | hold
    · exact hcompleted
    · exact h.completed application hold

theorem tracked_save_cons (h : db.Tracked events)
    (happs : db'.applications = db.applications.save new) (hevent : e.application = new.id)
    {old : InvoiceApplication} (hfind : db.applications.find new.id = some old)
    (hsending : new.status.isTerminal = false → new.emailSendingAt ≠ 0 →
      Open (e :: events) new.id new.emailSendingAt)
    (hcompleted : new.status = .completed → Completed (e :: events) new.id) :
    db'.Tracked (e :: events) := by
  -- the rows of other applications are not those the event is about
  have hother : ∀ application ∈ db'.applications.rows, application = new ∨
      application ∈ db.applications.rows ∧ e.application ≠ application.id := by
    intro application happ
    have hmem := Table.find_of_mem happ
    rw [happs] at happ hmem
    by_cases hid : new.id = application.id
    · rw [← hid, Table.find_save_self hfind] at hmem
      exact .inl (Option.some.inj hmem).symm
    · rw [Table.find_save_ne hid] at hmem
      exact .inr ⟨Table.mem_of_find hmem, hevent ▸ hid⟩
  constructor
  · intro application happ hopen hne
    rcases hother application happ with rfl | ⟨hold, hid⟩
    · exact hsending hopen hne
    · exact (h.sending application hold hopen hne).cons fun heq => hid (heq ▸ rfl)
  · intro application happ hstatus
    rcases hother application happ with rfl | ⟨hold, hid⟩
    · exact hcompleted hstatus
    · exact (h.completed application hold hstatus).cons fun heq => hid (heq ▸ rfl)

end InvoiceDB

/-! ### The store -/

def InvoiceCall.draft : InvoiceCall → Option InvoiceDraft
  | countClaimed draft | countFrozen draft | insert draft => some draft
  | done => none

namespace InvoiceSystem

variable {s t : InvoiceSystem} {a : InvoiceAct}

/-- What is to be shown of the invoice store. -/
structure Sound (s : InvoiceSystem) : Prop where
  /-- a request id belongs to at most one unreleased item -/
  unreleased : ∀ requestID, (s.db.items.rows.countP fun item =>
    decide (item.sourceRequestID = requestID ∧ item.releasedAt = 0)) ≤ 1
  /-- an unreleased item's application is neither rejected nor cancelled -/
  claimed : ∀ item ∈ s.db.items.rows, item.releasedAt = 0 →
    ∃ application, s.db.applications.find item.applicationID = some application ∧
      application.status ≠ .rejected ∧ application.status ≠ .cancelled
  /-- the amount of an application is the sum of its items -/
  amounts : ∀ application ∈ s.db.applications.rows,
    application.amountQuota = ((s.db.itemsOf application.id).map InvoiceItem.quota).sum
  /-- an application that is completed was completed by a delivery, -/
  completed : ∀ application ∈ s.db.applications.rows, application.status = .completed →
    Completed s.events application.id
  /-- and every such delivery had begun and was not cancelled -/
  delivered : Delivered s.events

structure Inv (s : InvoiceSystem) : Prop where
  sound : s.db.Sound
  tracked : s.db.Tracked s.events
  delivered : Delivered s.events
  drafts : ∀ call ∈ s.calls, ∀ draft, call.draft = some draft → draft.WellFormed

theorem countP_unreleased (items : Table InvoiceItem.sourceActive) (requestID : String) :
    (items.rows.countP fun item =>
      decide (item.sourceRequestID = requestID ∧ item.releasedAt = 0)) ≤ 1 := by
  have hcount : (items.rows.countP fun item =>
      decide (item.sourceRequestID = requestID ∧ item.releasedAt = 0)) =
        (items.rows.map InvoiceItem.sourceActive).count (requestID, 0) := by
    rw [List.count, List.countP_map]
    congr 1
    funext item
    exact Bool.eq_iff_iff.mpr (by simp [InvoiceItem.sourceActive])
  rw [hcount]
  exact List.nodup_iff_count_le_one.mp items.keys _

theorem Inv.toSound (h : s.Inv) : s.Sound where
  unreleased := countP_unreleased s.db.items
  claimed := fun item hitem hrel =>
    let ⟨application, hfind, hstatus⟩ := h.sound.items item hitem
    ⟨application, hfind, hstatus hrel⟩
  amounts := h.sound.amounts
  completed := h.tracked.completed
  delivered := h.delivered

theorem inv_empty : empty.Inv where
  sound := ⟨by simp [empty, InvoiceDB.empty], by simp [empty, InvoiceDB.empty]⟩
  tracked := ⟨by simp [empty, InvoiceDB.empty], by simp [empty, InvoiceDB.empty]⟩
  delivered := delivered_nil
  drafts := by simp [empty]

/-! ### What the operations do -/

theorem not_terminal {status : InvoiceStatus} (h : status.isTerminal = false) :
    status ≠ .rejected ∧ status ≠ .cancelled ∧ status ≠ .completed := by
  cases status <;> simp_all [InvoiceStatus.isTerminal]

theorem Inv.cancel (h : s.Inv) (id userID : Int) (now : Moment) :
    (s.commit (s.db.cancelApplication id userID now) []).Inv := by
  cases hop : s.db.cancelApplication id userID now with
  | error err => exact h
  | ok db =>
    unfold InvoiceDB.cancelApplication at hop
    split at hop
    · simp at hop
    next application hfind =>
    split at hop
    · simp at hop
    split at hop
    · simp at hop
    obtain rfl := Table.key_of_find hfind
    obtain ⟨hsound, happs⟩ := InvoiceDB.sound_release h.sound hop rfl hfind rfl
    refine ⟨hsound, ?_, h.delivered, h.drafts⟩
    exact InvoiceDB.tracked_save h.tracked happs
      (fun hopen => absurd hopen (by simp [InvoiceStatus.isTerminal]))
      fun hcompleted => absurd hcompleted (by simp)

theorem Inv.update (h : s.Inv) (id : Int) (status : InvoiceStatus) (adminNote : String)
    (rejectionFreezeHours : Int) (now released : Moment) :
    (s.commit (s.db.updateApplication id status adminNote rejectionFreezeHours now released)
      []).Inv := by
  cases hop : s.db.updateApplication id status adminNote rejectionFreezeHours now released with
  | error err => exact h
  | ok db =>
    unfold InvoiceDB.updateApplication at hop
    split at hop
    · simp at hop
    next hvalid =>
    rw [not_or] at hvalid
    split at hop
    · simp at hop
    next application hfind =>
    split at hop
    · simp at hop
    next hopen =>
    rw [Bool.not_eq_true] at hopen
    split at hop
    · simp at hop
    dsimp only at hop
    obtain rfl := Table.key_of_find hfind
    have hmem := Table.mem_of_find hfind
    have htracked : ∀ {db : InvoiceDB}, db.applications = s.db.applications.save
        { application with status := status, adminNote := adminNote, completedAt := 0 } →
        db.Tracked s.events := fun happs =>
      InvoiceDB.tracked_save h.tracked happs (fun _ => h.tracked.sending application hmem hopen)
        fun hcompleted => absurd hcompleted hvalid.1
    split at hop
    · obtain ⟨hsound, happs⟩ := InvoiceDB.sound_release h.sound hop rfl hfind rfl
      exact ⟨hsound, htracked happs, h.delivered, h.drafts⟩
    · next hrejected =>
      cases hop
      have hstatus : status ≠ .rejected :=
        fun heq => hrejected ⟨(not_terminal hopen).1, heq⟩
      refine ⟨?_, htracked rfl, h.delivered, h.drafts⟩
      exact InvoiceDB.sound_save_only h.sound rfl rfl hfind rfl ⟨hstatus, hvalid.2⟩

theorem Inv.beginEmail (h : s.Inv) (id : Int) (now : Moment) :
    (s.commit (s.db.beginEmailDelivery id now) [.began id now.unix]).Inv := by
  cases hop : s.db.beginEmailDelivery id now with
  | error err => exact h
  | ok db =>
    unfold InvoiceDB.beginEmailDelivery at hop
    split at hop
    next matched applications hupdate =>
    rcases s.db.applications.update_cases id
      (fun application => !application.status.isTerminal &&
        decide (application.emailSendingAt = 0 ∨
          application.emailSendingAt ≤ now.unix - invoiceEmailLockSeconds))
      (fun application => { application with emailSendingAt := now.unix }) with
      ⟨application, hfind, hguard, heq⟩ | ⟨-, heq⟩
    · cases hupdate.symm.trans heq
      cases hop
      obtain rfl := Table.key_of_find hfind
      rw [Bool.and_eq_true, Bool.not_eq_true'] at hguard
      obtain ⟨hrejected, hcancelled, hcompleted⟩ := not_terminal hguard.1
      refine ⟨?_, ?_, h.delivered.cons (by simp), h.drafts⟩
      · exact InvoiceDB.sound_save_only h.sound rfl rfl hfind rfl ⟨hrejected, hcancelled⟩
      · exact InvoiceDB.tracked_save_cons h.tracked rfl rfl hfind (fun _ _ => open_began)
          fun hstatus => absurd hstatus hcompleted
    · cases hupdate.symm.trans heq
      simp only [Bool.false_eq_true, if_false] at hop
      split at hop
      · simp at hop
      · split at hop <;> simp at hop

theorem Inv.cancelEmail (h : s.Inv) (id emailSendingAt : Int) :
    (s.commit (.ok (s.db.cancelEmailDelivery id emailSendingAt))
      [.cancelled id emailSendingAt]).Inv := by
  have hdelivered : Delivered (.cancelled id emailSendingAt :: s.events) :=
    h.delivered.cons (by simp)
  unfold InvoiceDB.cancelEmailDelivery
  rcases s.db.applications.update_cases id
    (fun application => decide (application.emailSendingAt = emailSendingAt) &&
      !application.status.isTerminal)
    (fun application => { application with emailSendingAt := 0 }) with
    ⟨application, hfind, hguard, heq⟩ | ⟨hnone, heq⟩
  · rw [heq]
    obtain rfl := Table.key_of_find hfind
    rw [Bool.and_eq_true, Bool.not_eq_true'] at hguard
    obtain ⟨hrejected, hcancelled, hcompleted⟩ := not_terminal hguard.2
    refine ⟨?_, ?_, hdelivered, h.drafts⟩
    · exact InvoiceDB.sound_save_only h.sound rfl rfl hfind rfl ⟨hrejected, hcancelled⟩
    · exact InvoiceDB.tracked_save_cons h.tracked rfl rfl hfind (fun _ hne => absurd rfl hne)
        fun hstatus => absurd hstatus hcompleted
  · -- the delivery is not one that an open application is waiting for
    rw [heq]
    refine ⟨h.sound, ⟨?_, ?_⟩, hdelivered, h.drafts⟩
    · intro application happ hopen hne
      refine (h.tracked.sending application happ hopen hne).cons fun hevent => ?_
      obtain ⟨hid, hsending⟩ := InvoiceEvent.cancelled.inj hevent
      have hfind : s.db.applications.find id = some application := hid ▸ Table.find_of_mem happ
      have hguard := hnone application hfind
      rw [hopen, decide_eq_true hsending] at hguard
      exact absurd hguard (by decide)
    · exact fun application happ hstatus =>
        (h.tracked.completed application happ hstatus).cons (by simp)

theorem Inv.completeEmail (h : s.Inv) (id emailSendingAt : Int) (adminNote : String)
    (attachment : InvoiceAttachment) (now : Moment) :
    (s.commit (s.db.completeEmailDelivery id emailSendingAt adminNote attachment now)
      [.completed id emailSendingAt]).Inv := by
  cases hop : s.db.completeEmailDelivery id emailSendingAt adminNote attachment now with
  | error err => exact h
  | ok db =>
    unfold InvoiceDB.completeEmailDelivery at hop
    split at hop
    · simp at hop
    next application hfind =>
    split at hop
    · simp at hop
    next hopen =>
    rw [Bool.not_eq_true] at hopen
    split at hop
    · simp at hop
    next hsending =>
    rw [not_or, not_not] at hsending
    obtain ⟨hne, rfl⟩ := hsending
    dsimp only at hop
    split at hop
    · simp at hop
    next attachments hattachments =>
    cases hop
    obtain rfl := Table.key_of_find hfind
    refine ⟨?_, ?_, ?_, h.drafts⟩
    · exact InvoiceDB.sound_save_only h.sound rfl rfl hfind rfl ⟨by simp, by simp⟩
    · exact InvoiceDB.tracked_save_cons h.tracked rfl rfl hfind
        (fun hstatus => absurd hstatus (by simp [InvoiceStatus.isTerminal])) fun _ => completed_now
    · refine h.delivered.cons fun id emailSendingAt hevent => ?_
      obtain ⟨rfl, rfl⟩ := InvoiceEvent.completed.inj hevent
      exact h.tracked.sending application (Table.mem_of_find hfind) hopen hne

theorem Inv.withdraw (h : s.Inv) (id : Int) :
    (s.commit (s.db.withdrawCompleted id) [.withdrawn id]).Inv := by
  cases hop : s.db.withdrawCompleted id with
  | error err => exact h
  | ok db =>
    unfold InvoiceDB.withdrawCompleted at hop
    split at hop
    · simp at hop
    next application hfind =>
    split at hop
    · simp at hop
    cases hop
    obtain rfl := Table.key_of_find hfind
    refine ⟨?_, ?_, h.delivered.cons (by simp), h.drafts⟩
    · exact InvoiceDB.sound_save_only h.sound rfl rfl hfind rfl ⟨by simp, by simp⟩
    · exact InvoiceDB.tracked_save_cons h.tracked rfl rfl hfind (fun _ hne => absurd rfl hne)
        fun hstatus => absurd hstatus (by simp)

theorem Inv.insert (h : s.Inv) {draft : InvoiceDraft} (hdraft : draft.WellFormed) (id : Int) :
    (s.commit (draft.insert s.db id) []).Inv := by
  cases hop : draft.insert s.db id with
  | error err => exact h
  | ok db =>
    obtain ⟨hsound, happs⟩ := InvoiceDB.sound_insert h.sound hdraft hop
    obtain ⟨-, hstatus, hsending⟩ := hdraft
    refine ⟨hsound, ⟨?_, ?_⟩, h.delivered, h.drafts⟩
    · intro application happ hopen hne
      rcases Table.mem_insert happs happ with rfl | hold
      · exact absurd hsending hne
      · exact h.tracked.sending application hold hopen hne
    · intro application happ hcompleted
      rcases Table.mem_insert happs happ with rfl | hold
      · exact absurd (hstatus.symm.trans hcompleted) (by decide)
      · exact h.tracked.completed application hold hcompleted

/-! ### One step -/

variable {i : Nat} {call : InvoiceCall}

theorem Inv.goOn (h : s.Inv) (hcall : ∀ draft, call.draft = some draft → draft.WellFormed) :
    (s.goOn i call).Inv := by
  refine ⟨h.sound, h.tracked, h.delivered, fun other hother => ?_⟩
  rcases Pool.mem_set_cases hother with rfl | ⟨k, -, hold⟩
  · exact hcall
  · exact h.drafts other (List.mem_of_getElem? hold)

theorem Inv.advance (h : s.Inv) {id : Int} {dbOk : Bool}
    (hcall : ∀ draft, call.draft = some draft → draft.WellFormed)
    (hstep : s.advance i now id dbOk call = some t) : t.Inv := by
  have hdone : ∀ draft, InvoiceCall.done.draft = some draft → draft.WellFormed := by
    intro draft hdraft
    simp [InvoiceCall.draft] at hdraft
  cases call with
  | countClaimed draft =>
    cases hstep
    refine h.goOn ?_
    split
    · exact hcall
    · exact hdone
  | countFrozen draft =>
    cases hstep
    refine h.goOn ?_
    split
    · exact hcall
    · exact hdone
  | insert draft =>
    simp only [InvoiceSystem.advance] at hstep
    split at hstep
    · cases hstep
      exact (h.insert (hcall draft rfl) id).goOn hdone
    · cases hstep
      exact h.goOn hdone
  | done => simp [InvoiceSystem.advance] at hstep

theorem inv_step (h : s.Inv) (hstep : step s a = some t) : t.Inv := by
  cases a with
  | create request allowedSources logs =>
    simp only [step] at hstep
    split at hstep
    next draft hdraft =>
      cases hstep
      refine ⟨h.sound, h.tracked, h.delivered, fun call hcall => ?_⟩
      rcases List.mem_append.mp hcall with hold | hnew
      · exact h.drafts call hold
      · obtain rfl := List.mem_singleton.mp hnew
        intro draft' heq
        cases heq
        exact InvoiceRequest.draft_wellFormed hdraft
    · cases hstep
      exact h
  | advance i now id dbOk =>
    simp only [step] at hstep
    split at hstep
    next call hcall => exact h.advance (h.drafts call (List.mem_of_getElem? hcall)) hstep
    · simp at hstep
  | cancel id userID now =>
    cases hstep
    exact h.cancel id userID now
  | update id status adminNote rejectionFreezeHours now released =>
    cases hstep
    exact h.update id status adminNote rejectionFreezeHours now released
  | beginEmail id now =>
    cases hstep
    exact h.beginEmail id now
  | cancelEmail id emailSendingAt =>
    cases hstep
    exact h.cancelEmail id emailSendingAt
  | completeEmail id emailSendingAt adminNote attachment now =>
    cases hstep
    exact h.completeEmail id emailSendingAt adminNote attachment now
  | withdraw id =>
    cases hstep
    exact h.withdraw id

/--
Whatever the operations on invoices are and however they interleave, no request id is in two
unreleased items, no rejected or cancelled application claims any, every amount is the sum of its
items, and what is completed has been delivered.
-/
theorem invoices_sound {acts : List InvoiceAct} (hrun : Machine.run step empty acts = some s) :
    s.Sound :=
  (Machine.run_preserves Inv (fun _ _ _ => inv_step) inv_empty hrun).toSound

def sampleRun : List InvoiceAct :=
  let log : QuotaLog := ⟨7, 8, 500, "r1", 10, some "redemption", by decide⟩
  let noon : Moment := ⟨1000 * 10 ^ 9, by decide⟩
  [ .create ⟨7, "a@b", "CNY", 100, [" r1"], []⟩ ["redemption"] [log],
    .advance 0 noon 0 true,
    .advance 0 noon 0 true,
    .advance 0 noon 1 true,
    .beginEmail 1 noon,
    .completeEmail 1 1000 "" ⟨0, "f", "pdf", [], 0⟩ noon ]

theorem invoices_sound_sample : ∃ s, Machine.run step empty sampleRun = some s ∧ s.Sound ∧
    s.events = [.completed 1 1000, .began 1 1000] ∧
    s.db.items.rows.map InvoiceItem.sourceActive = [("r1", 0)] := by
  refine ⟨_, rfl, ?_, rfl, rfl⟩
  exact invoices_sound (show Machine.run step empty sampleRun = some _ from rfl)

end InvoiceSystem

end JulongApi

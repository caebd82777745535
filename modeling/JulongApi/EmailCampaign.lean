/-
Email campaigns: the workers of `service/email_campaign.go` on the tables of
`model/email_campaign.go`.

Each statement is an action of its own; what a worker's environment decides (the recipients of a
campaign, whether a mail is sent, whether a statement fails or the context is cancelled) is part of
the action, and a worker may crash before every statement.  Time is in seconds.  The texts and the
recipients of a campaign, and who may edit it, are left out.
-/
import JulongApi.Lib.Machine
import JulongApi.Lib.Table

namespace JulongApi.EmailCampaign

inductive CampaignStatus where
  | draft | scheduled | active | running | completed | partialFailed | paused
deriving DecidableEq, Repr

inductive DeliveryStatus where
  | pending | sending | sent | failed | skipped
deriving DecidableEq, Repr

/-- A row of `email_campaigns`. -/
structure Campaign where
  id : Int
  /-- `mode = conditional` -/
  conditional : Bool
  status : CampaignStatus
  nextRunAt : Int
  lastRunAt : Int
  updatedAt : Int
  recipientCount : Int
  successCount : Int
  failedCount : Int
  skippedCount : Int
deriving DecidableEq, Repr

/-- A row of `email_deliveries`. -/
structure Delivery where
  id : Int
  campaignId : Int
  dedupeKey : String
  status : DeliveryStatus
  attemptCount : Int
  updatedAt : Int
  sentAt : Int
deriving DecidableEq, Repr

abbrev CampaignTable := Table fun row : Campaign => row.id

abbrev DeliveryTable := Table fun row : Delivery => row.id

structure DeliveryStats where
  recipientCount : Int
  successCount : Int
  failedCount : Int
  skippedCount : Int
deriving DecidableEq, Repr

/-! ### Statements -/

/-- `RecoverStaleEmailCampaigns`, for one of the campaigns it has found. -/
def recoverCampaign (campaigns : CampaignTable) (id staleBefore now : Int) : CampaignTable :=
  campaigns.mapRows (fun row =>
    if row.id = id ∧ row.status = .running ∧ row.updatedAt < staleBefore then
      { row with
        status := if row.conditional then .active else .scheduled
        nextRunAt := now
        updatedAt := now }
    else row) fun row => by split <;> rfl

def due (now : Int) (row : Campaign) : Bool :=
  (row.status = .scheduled || row.status = .active) && row.nextRunAt > 0 && row.nextRunAt ≤ now

/-- The select of `ClaimDueEmailCampaigns`. -/
def dueCampaigns (campaigns : CampaignTable) (now : Int) : List Campaign :=
  ((campaigns.rows.filter (due now)).insertionSort fun a b =>
    a.nextRunAt < b.nextRunAt ∨ a.nextRunAt = b.nextRunAt ∧ a.id ≤ b.id).take 10

/-- Whether the row of a campaign is as it was selected. -/
def claimable (campaign row : Campaign) : Bool :=
  row.id = campaign.id && row.status = campaign.status && row.nextRunAt = campaign.nextRunAt

def claimCampaign (campaigns : CampaignTable) (campaign : Campaign) (now : Int) : CampaignTable :=
  campaigns.mapRows (fun row =>
    if claimable campaign row then { row with status := .running, updatedAt := now } else row)
    fun row => by split <;> rfl

def recoverDeliveries (deliveries : DeliveryTable) (campaignId staleBefore now : Int) :
    DeliveryTable :=
  deliveries.mapRows (fun row =>
    if row.campaignId = campaignId ∧ row.status = .sending ∧ row.updatedAt < staleBefore then
      { row with status := .pending, updatedAt := now }
    else row) fun row => by split <;> rfl

/-- `ResetRetryableEmailDeliveries`. -/
def resetRetryable (deliveries : DeliveryTable) (campaignId now : Int) : DeliveryTable :=
  deliveries.mapRows (fun row =>
    if row.campaignId = campaignId ∧ row.status = .failed ∧ row.attemptCount < 3 then
      { row with status := .pending, updatedAt := now }
    else row) fun row => by split <;> rfl

/-- A recipient, with the id that the database gives to its delivery. -/
structure Candidate where
  id : Int
  dedupeKey : String
  /-- whether its address can be parsed -/
  valid : Bool
deriving DecidableEq, Repr

/-- `CreateEmailDeliveries`: a recipient that has its delivery already is left out. -/
def createDelivery (campaignId now : Int) (deliveries : DeliveryTable) (candidate : Candidate) :
    Option DeliveryTable :=
  if deliveries.rows.any fun row => row.dedupeKey = candidate.dedupeKey then some deliveries
  else
    deliveries.insert {
      id := candidate.id
      campaignId := campaignId
      dedupeKey := candidate.dedupeKey
      status := if candidate.valid then .pending else .skipped
      attemptCount := 0
      updatedAt := now
      sentAt := 0 }

/-- `ListPendingEmailDeliveries`. -/
def pendingDeliveries (deliveries : DeliveryTable) (campaignId : Int) : List Delivery :=
  ((deliveries.rows.filter fun row => row.campaignId = campaignId && row.status = .pending)
    |>.insertionSort fun a b => a.id ≤ b.id).take 100

def claimDelivery (deliveries : DeliveryTable) (id now : Int) : DeliveryTable :=
  deliveries.mapRows (fun row =>
    if row.id = id ∧ row.status = .pending then
      { row with status := .sending, attemptCount := row.attemptCount + 1, updatedAt := now }
    else row) fun row => by split <;> rfl

def finishDelivery (deliveries : DeliveryTable) (id : Int) (status : DeliveryStatus) (now : Int) :
    DeliveryTable :=
  deliveries.mapRows (fun row =>
    if row.id = id ∧ row.status = .sending then
      { row with
        status := status
        updatedAt := now
        sentAt := if status = .sent then now else row.sentAt }
    else row) fun row => by split <;> rfl

/-- How many deliveries of a campaign have a status. -/
def countDeliveries (deliveries : DeliveryTable) (campaignId : Int) (status : DeliveryStatus) :
    Int :=
  deliveries.rows.countP fun row => row.campaignId = campaignId && row.status = status

/-- `GetEmailCampaignDeliveryStats`. -/
def deliveryStats (deliveries : DeliveryTable) (campaignId : Int) : DeliveryStats where
  recipientCount := deliveries.rows.countP fun row => row.campaignId = campaignId
  successCount := countDeliveries deliveries campaignId .sent
  failedCount := countDeliveries deliveries campaignId .failed
  skippedCount := countDeliveries deliveries campaignId .skipped

/-- `FinishEmailCampaignRun`. -/
def finishCampaign (campaigns : CampaignTable) (campaign : Campaign) (stats : DeliveryStats)
    (now : Int) : CampaignTable :=
  campaigns.mapRows (fun row =>
    if row.id = campaign.id ∧ row.status = .running then
      { row with
        status :=
          if campaign.conditional then .active
          else if stats.failedCount > 0 then .partialFailed
          else .completed
        nextRunAt := if campaign.conditional then now + 24 * 60 * 60 else 0
        lastRunAt := now
        recipientCount := stats.recipientCount
        successCount := stats.successCount
        failedCount := stats.failedCount
        skippedCount := stats.skippedCount
        updatedAt := now }
    else row) fun row => by split <;> rfl

/-- `FailEmailCampaignRun`. -/
def failCampaign (campaigns : CampaignTable) (campaign : Campaign) (now : Int) : CampaignTable :=
  campaigns.mapRows (fun row =>
    if row.id = campaign.id ∧ row.status = .running then
      { row with
        status := if campaign.conditional then .active else .scheduled
        nextRunAt := now + 5 * 60
        updatedAt := now }
    else row) fun row => by split <;> rfl

/-! ### Workers -/

/-- The next statement of `dispatchEmailCampaign`, or what its caller does after it. -/
inductive Pc where
  | recover
  /-- in conditional mode only -/
  | reset
  | create
  | list
  | claim (batch : List Delivery)
  | send (delivery : Delivery) (batch : List Delivery)
  | mark (delivery : Delivery) (status : DeliveryStatus) (batch : List Delivery)
  | count
  | finish (stats : DeliveryStats)
  | fail
deriving DecidableEq, Repr

/-- A call of `DispatchDueEmailCampaigns`, which began at `now`. -/
inductive Worker where
  | idle
  | recovering (now : Int) (found : List Int)
  | claiming (now : Int) (due claimed : List Campaign)
  | dispatching (now : Int) (campaign : Campaign) (pc : Pc) (rest : List Campaign)
deriving DecidableEq, Repr

structure State where
  clock : Int
  campaigns : CampaignTable
  deliveries : DeliveryTable
  workers : Nat → Worker

def Worker.next (now : Int) : List Campaign → Worker
  | [] => .idle
  | campaign :: rest => .dispatching now campaign .recover rest

/-- What the environment decides of a statement. -/
inductive Input where
  /-- the statement is executed, or the mail is sent -/
  | ok
  /-- the statement fails, the context is cancelled, or the mail is not sent -/
  | error
  /-- the recipients that are listed, and whether there may be more -/
  | candidates (recipients : List Candidate) (more : Bool)
deriving DecidableEq, Repr

inductive Act where
  | tick (now : Int)
  | begin (worker : Nat)
  | work (worker : Nat) (input : Input)
  | crash (worker : Nat)
  /-- `RetryFailedEmailCampaign`, one transaction -/
  | retry (campaignId : Int)
deriving DecidableEq, Repr

def State.setWorker (s : State) (w : Nat) (worker : Worker) : State :=
  { s with workers := Function.update s.workers w worker }

/-- A statement of `dispatchEmailCampaign` that is executed. -/
def State.dispatch (s : State) (w : Nat) (now : Int) (campaign : Campaign)
    (rest : List Campaign) : Pc → Input → Option State
  | .recover, .ok =>
    some { s.setWorker w (.dispatching now campaign
        (if campaign.conditional then .reset else .create) rest) with
      deliveries := recoverDeliveries s.deliveries campaign.id (now - 10 * 60) s.clock }
  | .reset, .ok =>
    some { s.setWorker w (.dispatching now campaign .create rest) with
      deliveries := resetRetryable s.deliveries campaign.id s.clock }
  | .create, .candidates recipients more => do
      let deliveries ← recipients.foldlM (createDelivery campaign.id s.clock) s.deliveries
      some { s.setWorker w (.dispatching now campaign (if more then .create else .list) rest) with
        deliveries := deliveries }
  | .list, .ok =>
    let batch := pendingDeliveries s.deliveries campaign.id
    some (s.setWorker w (.dispatching now campaign
      (if batch = [] then .count else .claim batch) rest))
  | .claim [], .ok => some (s.setWorker w (.dispatching now campaign .list rest))
  | .claim (delivery :: batch), .ok =>
    let claimed := s.deliveries.rows.any fun row =>
      row.id = delivery.id && row.status = .pending
    some { s.setWorker w (.dispatching now campaign
        (if claimed then .send delivery batch else .claim batch) rest) with
      deliveries := claimDelivery s.deliveries delivery.id s.clock }
  | .send delivery batch, .ok =>
    some (s.setWorker w (.dispatching now campaign (.mark delivery .sent batch) rest))
  | .send delivery batch, .error =>
    some (s.setWorker w (.dispatching now campaign (.mark delivery .failed batch) rest))
  | .mark delivery status batch, .ok =>
    some { s.setWorker w (.dispatching now campaign (.claim batch) rest) with
      deliveries := finishDelivery s.deliveries delivery.id status s.clock }
  | .count, .ok =>
    some (s.setWorker w (.dispatching now campaign
      (.finish (deliveryStats s.deliveries campaign.id)) rest))
  | .finish stats, .ok =>
    some { s.setWorker w (.next now rest) with
      campaigns := finishCampaign s.campaigns campaign stats s.clock }
  | .finish _, .error => some (s.setWorker w .idle)
  | .fail, .ok =>
    some { s.setWorker w .idle with campaigns := failCampaign s.campaigns campaign s.clock }
  | .fail, .error => some (s.setWorker w .idle)
  | _, .error => some (s.setWorker w (.dispatching now campaign .fail rest))
  | _, _ => none

/-- The next statement of a worker. -/
def State.work (s : State) (w : Nat) (input : Input) : Option State :=
  match s.workers w, input with
  | .idle, _ => none
  | .recovering now (id :: found), .ok =>
    some { s.setWorker w (.recovering now found) with
      campaigns := recoverCampaign s.campaigns id (now - 10 * 60) s.clock }
  | .recovering now [], .ok =>
    some (s.setWorker w (.claiming now (dueCampaigns s.campaigns now) []))
  | .claiming now (campaign :: due) claimed, .ok =>
    some { s.setWorker w (.claiming now due
        (if s.campaigns.rows.any (claimable campaign) then
          claimed ++ [{ campaign with status := .running, updatedAt := now }]
        else claimed)) with
      campaigns := claimCampaign s.campaigns campaign now }
  | .claiming now [] claimed, .ok => some (s.setWorker w (.next now claimed))
  | .dispatching now campaign pc rest, input => s.dispatch w now campaign rest pc input
  | _, .error => some (s.setWorker w .idle)
  | _, _ => none

/-- The statements of `RetryFailedEmailCampaign`. -/
def State.retry (s : State) (campaignId : Int) : Option State :=
  match s.campaigns.find campaignId with
  | some campaign =>
    if campaign.conditional = false ∧
        (campaign.status = .partialFailed ∨ campaign.status = .completed) then
      some { s with
        deliveries := s.deliveries.mapRows (fun row =>
          if row.campaignId = campaignId ∧ row.status = .failed then
            { row with status := .pending, updatedAt := s.clock }
          else row) fun row => by split <;> rfl
        campaigns := s.campaigns.mapRows (fun row =>
          if row.id = campaignId then
            { row with status := .scheduled, nextRunAt := s.clock, updatedAt := s.clock }
          else row) fun row => by split <;> rfl }
    else none
  | none => none

def step (s : State) : Act → Option State
  | .tick now => if now < s.clock then none else some { s with clock := now }
  | .begin w =>
    if s.workers w = .idle then
      some (s.setWorker w (.recovering s.clock
        ((s.campaigns.rows.filter fun row =>
          row.status = .running && row.updatedAt < s.clock - 10 * 60).map (·.id))))
    else none
  | .work w input => s.work w input
  | .crash w => some (s.setWorker w .idle)
  | .retry campaignId => s.retry campaignId

/-! ### What is claimed of a campaign -/

def DeliveryStatus.final : DeliveryStatus → Bool
  | .sent | .failed | .skipped => true
  | .pending | .sending => false

def CampaignStatus.closed : CampaignStatus → Bool
  | .completed | .partialFailed => true
  | _ => false

/-- A campaign that is completed or partially failed has no delivery left to do, and counts its
deliveries. -/
def State.Closed (s : State) : Prop :=
  ∀ campaign ∈ s.campaigns.rows, campaign.status.closed = true →
    (∀ delivery ∈ s.deliveries.rows, delivery.campaignId = campaign.id →
      delivery.status.final = true) ∧
    campaign.recipientCount = (deliveryStats s.deliveries campaign.id).recipientCount ∧
    campaign.successCount = (deliveryStats s.deliveries campaign.id).successCount ∧
    campaign.failedCount = (deliveryStats s.deliveries campaign.id).failedCount ∧
    campaign.skippedCount = (deliveryStats s.deliveries campaign.id).skippedCount

/-- The campaigns that a worker has claimed and not yet left. -/
def Worker.held : Worker → List Int
  | .idle | .recovering _ _ => []
  | .claiming _ _ claimed => claimed.map (·.id)
  | .dispatching _ campaign _ rest => campaign.id :: rest.map (·.id)

/-- No worker takes over a campaign that another still works on, and when a worker begins with a
campaign, no delivery that a crash has left behind is still in its grace period. -/
def Undisturbed (s : State) : Act → Prop
  | .work w .ok =>
    match s.workers w with
    | .claiming _ (campaign :: _) _ =>
      s.campaigns.rows.any (claimable campaign) = true →
        ∀ other, campaign.id ∉ (s.workers other).held
    | .dispatching now campaign .recover _ =>
      ∀ delivery ∈ s.deliveries.rows, delivery.campaignId = campaign.id →
        delivery.status = .sending → delivery.updatedAt < now - 10 * 60
    | _ => True
  | _ => True

end JulongApi.EmailCampaign

/-
Invoices for credited quota: `model/invoice.go`.

A user applies for an invoice over credits of the quota log.  The application claims their
request ids through items, and a unique index over the request id and the time of release
keeps two unreleased items from having one request id.  An application that is rejected or
cancelled releases its items.  It is completed by sending the invoice by email:
`BeginInvoiceEmailDelivery` writes the time into `email_sending_at`, and this time is what
`CancelInvoiceEmailDelivery` and `CompleteInvoiceEmailDelivery` name the delivery by.

The operations on an application lock its row first, or are one statement, so each of them is
one step.  `CreateInvoiceApplication` locks nothing: it reads the log, then the items twice, and
what it inserts becomes visible at once when it commits; so it is cut before each of these.
-/
import JulongApi.Lib.Machine
import JulongApi.Lib.Table
import JulongApi.Quota
import JulongApi.Subscription

namespace JulongApi

/-- A reading of the clock. -/
structure Moment where
  unixNano : Int
  pos : 0 < unixNano
deriving DecidableEq, Repr

/-- `common.GetTimestamp`. -/
def Moment.unix (t : Moment) : Int := t.unixNano / 10 ^ 9

inductive InvoiceStatus where
  | pending
  | processing
  | completed
  | rejected
  | nonReusable
  | cancelled
deriving DecidableEq, Repr

/-- The statuses that `NOT IN ?` excludes. -/
def InvoiceStatus.isTerminal (status : InvoiceStatus) : Bool :=
  decide (status = .rejected ∨ status = .nonReusable ∨ status = .completed ∨ status = .cancelled)

structure InvoiceApplication where
  id : Int
  userID : Int
  email : String
  invoiceType : String
  companyName : String
  taxNumber : String
  notes : String
  amountQuota : Int
  unit : String
  status : InvoiceStatus
  adminNote : String
  completedAt : Int
  emailSendingAt : Int
deriving DecidableEq, Repr

structure InvoiceItem where
  applicationID : Int
  userID : Int
  sourceRequestID : String
  source : String
  quota : Int
  sourceCreatedAt : Int
  releasedAt : Int
  frozenUntil : Int
deriving DecidableEq, Repr

/-- The columns of `idx_invoice_item_source_active`. -/
def InvoiceItem.sourceActive (item : InvoiceItem) : String × Int :=
  (item.sourceRequestID, item.releasedAt)

structure InvoiceAttachment where
  applicationID : Int
  filename : String
  contentType : String
  data : List UInt8
  size : Int
deriving DecidableEq, Repr

structure InvoicePaymentProof where
  applicationID : Int
  filename : String
  contentType : String
  data : List UInt8
  size : Int
deriving DecidableEq, Repr

structure InvoiceApplicationDetails where
  invoiceType : String
  companyName : String
  taxNumber : String
  notes : String
  paymentProofs : List InvoicePaymentProof
deriving DecidableEq, Repr

structure InvoiceCredit where
  requestID : String
  createdAt : Int
  quota : Int
  source : String
deriving DecidableEq, Repr

inductive InvoiceError where
  | sourcesInvalid
  | sourcesClaimed
  | statusTerminal
  | emailSending
  | notCancellable
  | notWithdrawable
  | invalidStatus
  | recordNotFound
  | dbError
deriving DecidableEq, Repr

def maxInvoiceSourceRecords : Nat := 10000

def maxInvoiceItems : Nat := 100

def invoiceEmailLockSeconds : Int := 15 * 60

/-! ### The credits of a user -/

def logTypeQuotaIncrease : Int := 8

/--
A row of the log.  `source` is what the JSON in `other` says; `none` when it does not parse.  What
is logged has been credited to a wallet before, by one mutation that leaves it between
`-MaxWalletQuota` and `MaxWalletQuota`.
-/
structure QuotaLog where
  userID : Int
  type : Int
  quota : Int
  requestID : String
  createdAt : Int
  source : Option String
  quota_le : quota ≤ 2 * maxWalletQuota
deriving DecidableEq, Repr

def isInvoiceSource (source : String) : Bool :=
  decide (source = "online_recharge" ∨ source = "redemption" ∨ source = "admin_adjustment")

/-- The credit in a row of the log, if invoices are issued for its source. -/
def invoiceCreditOf (allowedSources : List String) (log : QuotaLog) : Option InvoiceCredit :=
  match log.source with
  | none => none
  | some source =>
    if log.requestID = "" ∨ ¬(isInvoiceSource source ∧ source ∈ allowedSources) then none
    else
      some
        { requestID := log.requestID
          createdAt := log.createdAt
          quota := log.quota
          source := source }

/-- `loadInvoiceCredits`; `logs` is the log with the newest row first. -/
def loadInvoiceCredits (allowedSources : List String) (logs : List QuotaLog) (userID : Int) :
    List InvoiceCredit :=
  if allowedSources = [] then []
  else
    ((logs.filter fun log =>
        decide (log.userID = userID ∧ log.type = logTypeQuotaIncrease ∧ 0 < log.quota)).take
      maxInvoiceSourceRecords).filterMap (invoiceCreditOf allowedSources)

/-! ### The store -/

structure InvoiceDB where
  applications : Table InvoiceApplication.id
  items : Table InvoiceItem.sourceActive
  attachments : Table InvoiceAttachment.applicationID
  paymentProofs : List InvoicePaymentProof

namespace InvoiceDB

def empty : InvoiceDB :=
  ⟨⟨[], List.nodup_nil⟩, ⟨[], List.nodup_nil⟩, ⟨[], List.nodup_nil⟩, []⟩

/-- The items of an application that are not released, after the update that releases them. -/
def released (applicationID releasedAt frozenUntil : Int) (item : InvoiceItem) : InvoiceItem :=
  if item.applicationID = applicationID ∧ item.releasedAt = 0 then
    { item with
      releasedAt := releasedAt
      frozenUntil := frozenUntil }
  else item

def releaseItems (db : InvoiceDB) (applicationID releasedAt frozenUntil : Int) :
    Except InvoiceError InvoiceDB :=
  match db.items.tryMap (released applicationID releasedAt frozenUntil) with
  | some items => .ok { db with items := items }
  | none => .error .dbError

def saveApplication (db : InvoiceDB) (application : InvoiceApplication) : InvoiceDB :=
  { db with applications := db.applications.save application }

/-- `CancelInvoiceApplication`. -/
def cancelApplication (db : InvoiceDB) (id userID : Int) (now : Moment) :
    Except InvoiceError InvoiceDB :=
  match db.applications.find id with
  | none => .error .recordNotFound
  | some application =>
    if application.userID ≠ userID then .error .recordNotFound
    else if application.status ≠ .pending ∨
        now.unix - invoiceEmailLockSeconds < application.emailSendingAt then
      .error .notCancellable
    else
      let cancelled :=
        { application with
          status := .cancelled
          completedAt := 0 }
      (db.saveApplication cancelled).releaseItems id now.unixNano 0

/-- `UpdateInvoiceApplication`; `now` is the time it checks, `released` the one it releases at. -/
def updateApplication (db : InvoiceDB) (id : Int) (status : InvoiceStatus) (adminNote : String)
    (rejectionFreezeHours : Int) (now released : Moment) : Except InvoiceError InvoiceDB :=
  if status = .completed ∨ status = .cancelled then .error .invalidStatus
  else
    match db.applications.find id with
    | none => .error .recordNotFound
    | some application =>
      if application.status.isTerminal then .error .statusTerminal
      else if now.unix - invoiceEmailLockSeconds < application.emailSendingAt then
        .error .emailSending
      else
        let updated :=
          { application with
            status := status
            adminNote := adminNote
            completedAt := 0 }
        let db := db.saveApplication updated
        if application.status ≠ .rejected ∧ status = .rejected then
          db.releaseItems id released.unixNano
            (wrapInt64 (released.unix + rejectionFreezeHours * 60 * 60))
        else .ok db

/-- `BeginInvoiceEmailDelivery`. -/
def beginEmailDelivery (db : InvoiceDB) (id : Int) (now : Moment) :
    Except InvoiceError InvoiceDB :=
  let (matched, applications) := db.applications.update id
    (fun application => !application.status.isTerminal &&
      decide (application.emailSendingAt = 0 ∨
        application.emailSendingAt ≤ now.unix - invoiceEmailLockSeconds))
    fun application => { application with emailSendingAt := now.unix }
  if matched then .ok { db with applications := applications }
  else
    match db.applications.find id with
    | none => .error .recordNotFound
    | some application =>
      if application.status.isTerminal then .error .statusTerminal else .error .emailSending

/-- `CancelInvoiceEmailDelivery`. -/
def cancelEmailDelivery (db : InvoiceDB) (id emailSendingAt : Int) : InvoiceDB :=
  let (_, applications) := db.applications.update id
    (fun application => decide (application.emailSendingAt = emailSendingAt) &&
      !application.status.isTerminal)
    fun application => { application with emailSendingAt := 0 }
  { db with applications := applications }

/-- `CompleteInvoiceEmailDelivery`. -/
def completeEmailDelivery (db : InvoiceDB) (id emailSendingAt : Int) (adminNote : String)
    (attachment : InvoiceAttachment) (now : Moment) : Except InvoiceError InvoiceDB :=
  match db.applications.find id with
  | none => .error .recordNotFound
  | some application =>
    if application.status.isTerminal then .error .statusTerminal
    else if emailSendingAt = 0 ∨ application.emailSendingAt ≠ emailSendingAt then
      .error .emailSending
    else
      let stored :=
        { attachment with
          applicationID := application.id
          size := attachment.data.length }
      match db.attachments.insert stored with
      | none => .error .dbError
      | some attachments =>
        let completed :=
          { application with
            status := .completed
            adminNote := adminNote
            completedAt := now.unix
            emailSendingAt := 0 }
        .ok { db.saveApplication completed with attachments := attachments }

/-- `WithdrawCompletedInvoiceApplication`. -/
def withdrawCompleted (db : InvoiceDB) (id : Int) : Except InvoiceError InvoiceDB :=
  match db.applications.find id with
  | none => .error .recordNotFound
  | some application =>
    if application.status ≠ .completed then .error .notWithdrawable
    else
      let withdrawn :=
        { application with
          status := .pending
          completedAt := 0
          emailSendingAt := 0 }
      .ok
        { db.saveApplication withdrawn with
          attachments := db.attachments.delete fun attachment =>
            decide (attachment.applicationID = application.id) }

end InvoiceDB

/-! ### Creating an application -/

/-- What `CreateInvoiceApplication` was called with. -/
structure InvoiceRequest where
  userID : Int
  email : String
  unit : String
  minimumQuota : Int
  requestIDs : List String
  details : List InvoiceApplicationDetails
deriving DecidableEq, Repr

/-- What it is about to insert; the ids are still to be given. -/
structure InvoiceDraft where
  application : InvoiceApplication
  selected : List InvoiceCredit
  requestIDs : List String
  paymentProofs : List InvoicePaymentProof
deriving DecidableEq, Repr

/-- The trimmed request ids, if there are at most `maxInvoiceItems`, all different and none empty. -/
def invoiceRequestSet (userID : Int) (requestIDs : List String) :
    Except InvoiceError (List String) :=
  if userID ≤ 0 ∨ requestIDs.length = 0 ∨ maxInvoiceItems < requestIDs.length then
    .error .sourcesInvalid
  else
    let requestSet := requestIDs.map trimSpace
    if "" ∈ requestSet ∨ requestSet.dedup.length ≠ requestIDs.length then .error .sourcesInvalid
    else .ok requestSet

/-- `amountQuota` after the loop over the selected credits. -/
def invoiceAmountQuota (selected : List InvoiceCredit) : Int :=
  selected.foldl (fun amountQuota credit => wrapInt64 (amountQuota + credit.quota)) 0

/-- `CreateInvoiceApplication` up to its transaction. -/
def InvoiceRequest.draft (request : InvoiceRequest) (allowedSources : List String)
    (logs : List QuotaLog) : Except InvoiceError InvoiceDraft :=
  match invoiceRequestSet request.userID request.requestIDs with
  | .error err => .error err
  | .ok requestSet =>
    let credits := loadInvoiceCredits allowedSources logs request.userID
    let selected := credits.filter fun credit => decide (credit.requestID ∈ requestSet)
    let amountQuota := invoiceAmountQuota selected
    if selected.length ≠ request.requestIDs.length ∨ amountQuota < request.minimumQuota then
      .error .sourcesInvalid
    else
      let application : InvoiceApplication :=
        { id := 0
          userID := request.userID
          email := request.email
          invoiceType := ""
          companyName := ""
          taxNumber := ""
          notes := ""
          amountQuota := amountQuota
          unit := request.unit
          status := .pending
          adminNote := ""
          completedAt := 0
          emailSendingAt := 0 }
      match request.details with
      | [] => .ok ⟨application, selected, requestSet, []⟩
      | [details] =>
        let detailed :=
          { application with
            invoiceType := details.invoiceType
            companyName := details.companyName
            taxNumber := details.taxNumber
            notes := details.notes }
        .ok ⟨detailed, selected, requestSet, details.paymentProofs⟩
      | _ => .error .sourcesInvalid

namespace InvoiceDraft

def item (draft : InvoiceDraft) (applicationID : Int) (credit : InvoiceCredit) : InvoiceItem where
  applicationID := applicationID
  userID := draft.application.userID
  sourceRequestID := credit.requestID
  source := credit.source
  quota := credit.quota
  sourceCreatedAt := credit.createdAt
  releasedAt := 0
  frozenUntil := 0

/-- Some of the request ids belong to an item that is not released. -/
def isClaimed (draft : InvoiceDraft) (db : InvoiceDB) : Bool :=
  db.items.rows.any fun item =>
    decide (item.sourceRequestID ∈ draft.requestIDs ∧ item.releasedAt = 0)

/-- Some of them belong to an item that is frozen. -/
def isFrozen (draft : InvoiceDraft) (db : InvoiceDB) (now : Moment) : Bool :=
  db.items.rows.any fun item =>
    decide (item.sourceRequestID ∈ draft.requestIDs ∧ now.unix < item.frozenUntil)

/-- The inserts of `CreateInvoiceApplication`; `id` is the id the application gets. -/
def insert (draft : InvoiceDraft) (db : InvoiceDB) (id : Int) : Except InvoiceError InvoiceDB :=
  match db.applications.insert { draft.application with id := id } with
  | none => .error .dbError
  | some applications =>
    match db.items.insertAll (draft.selected.map (draft.item id)) with
    | none => .error .sourcesClaimed
    | some items =>
      let proofs := draft.paymentProofs.map fun proof =>
        { proof with
          applicationID := id
          size := proof.data.length }
      .ok
        { db with
          applications := applications
          items := items
          paymentProofs := proofs ++ db.paymentProofs }

end InvoiceDraft

/-! ### The system -/

inductive InvoiceCall where
  /-- before the count of the claimed items -/
  | countClaimed (draft : InvoiceDraft)
  /-- before the count of the frozen items -/
  | countFrozen (draft : InvoiceDraft)
  /-- before the inserts and the commit -/
  | insert (draft : InvoiceDraft)
  | done
deriving DecidableEq, Repr

/-- What has happened to deliveries; a delivery is named by its application and its time. -/
inductive InvoiceEvent where
  | began (id emailSendingAt : Int)
  | cancelled (id emailSendingAt : Int)
  | completed (id emailSendingAt : Int)
  | withdrawn (id : Int)
deriving DecidableEq, Repr

structure InvoiceSystem where
  db : InvoiceDB
  calls : List InvoiceCall
  /-- the newest first -/
  events : List InvoiceEvent

inductive InvoiceAct where
  /-- `CreateInvoiceApplication` reads the settings and the log -/
  | create (request : InvoiceRequest) (allowedSources : List String) (logs : List QuotaLog)
  /-- the next statement of call `i`; `id` is the id an insert gives, `dbOk` whether it succeeds -/
  | advance (i : Nat) (now : Moment) (id : Int) (dbOk : Bool)
  | cancel (id userID : Int) (now : Moment)
  | update (id : Int) (status : InvoiceStatus) (adminNote : String) (rejectionFreezeHours : Int)
      (now released : Moment)
  | beginEmail (id : Int) (now : Moment)
  | cancelEmail (id emailSendingAt : Int)
  | completeEmail (id emailSendingAt : Int) (adminNote : String) (attachment : InvoiceAttachment)
      (now : Moment)
  | withdraw (id : Int)
deriving DecidableEq, Repr

namespace InvoiceSystem

def empty : InvoiceSystem := ⟨InvoiceDB.empty, [], []⟩

/-- An operation that commits is recorded, and one that fails leaves no trace. -/
def commit (s : InvoiceSystem) (result : Except InvoiceError InvoiceDB)
    (events : List InvoiceEvent) : InvoiceSystem :=
  match result with
  | .ok db =>
    { s with
      db := db
      events := events ++ s.events }
  | .error _ => s

def goOn (s : InvoiceSystem) (i : Nat) (call : InvoiceCall) : InvoiceSystem :=
  { s with calls := s.calls.set i call }

def advance (s : InvoiceSystem) (i : Nat) (now : Moment) (id : Int) (dbOk : Bool) :
    InvoiceCall → Option InvoiceSystem
  | .countClaimed draft =>
    some (s.goOn i (if dbOk && !draft.isClaimed s.db then .countFrozen draft else .done))
  | .countFrozen draft =>
    some (s.goOn i (if dbOk && !draft.isFrozen s.db now then .insert draft else .done))
  | .insert draft =>
    if dbOk then some ((s.commit (draft.insert s.db id) []).goOn i .done)
    else some (s.goOn i .done)
  | .done => none

def step (s : InvoiceSystem) : InvoiceAct → Option InvoiceSystem
  | .create request allowedSources logs =>
    match request.draft allowedSources logs with
    | .ok draft => some { s with calls := s.calls ++ [.countClaimed draft] }
    | .error _ => some s
  | .advance i now id dbOk =>
    match s.calls[i]? with
    | some call => s.advance i now id dbOk call
    | none => none
  | .cancel id userID now => some (s.commit (s.db.cancelApplication id userID now) [])
  | .update id status adminNote rejectionFreezeHours now released =>
    some (s.commit
      (s.db.updateApplication id status adminNote rejectionFreezeHours now released) [])
  | .beginEmail id now =>
    some (s.commit (s.db.beginEmailDelivery id now) [.began id now.unix])
  | .cancelEmail id emailSendingAt =>
    some (s.commit (.ok (s.db.cancelEmailDelivery id emailSendingAt))
      [.cancelled id emailSendingAt])
  | .completeEmail id emailSendingAt adminNote attachment now =>
    some (s.commit (s.db.completeEmailDelivery id emailSendingAt adminNote attachment now)
      [.completed id emailSendingAt])
  | .withdraw id => some (s.commit (s.db.withdrawCompleted id) [.withdrawn id])

end InvoiceSystem

end JulongApi

/-
The recipients of an email campaign: the batches of `dispatchEmailCampaign` in
`service/email_campaign.go`, and the query they read in `model/email_campaign.go`.

Between two batches the tables may change in any way.  The names that a delivery copies, the titles
of plans, and a campaign whose query fails are left out; whether an address is its own
`mail.ParseAddress` is taken from outside.
-/
import JulongApi.Lib.Machine
import JulongApi.Strings

namespace JulongApi.EmailDispatch

structure User where
  id : Int
  email : String
  /-- `status = UserStatusEnabled` -/
  enabled : Bool
  deleted : Bool
deriving DecidableEq, Repr

structure UserSubscription where
  id : Int
  userId : Int
  /-- `status = active` -/
  active : Bool
  endTime : Int
deriving DecidableEq, Repr

structure Tables where
  users : List User
  subscriptions : List UserSubscription
deriving DecidableEq, Repr

/-- The target of a campaign, or its trigger in conditional mode. -/
inductive Audience where
  | allUsers
  | activeSubscribers
  | selectedUsers (ids : List Int)
  | subscriptionExpiring (triggerDays : Int)
deriving DecidableEq, Repr

structure Campaign where
  id : Int
  audience : Audience
deriving DecidableEq, Repr

/-- `mode = conditional` -/
def Campaign.conditional (campaign : Campaign) : Bool :=
  match campaign.audience with
  | .subscriptionExpiring _ => true
  | _ => false

structure EmailRecipientCandidate where
  userId : Int
  email : String
  subscriptionId : Int := 0
  subscriptionEndTime : Int := 0
deriving DecidableEq, Repr

/-- The conditions on `users` that every query has. -/
def User.reachable (user : User) : Bool := user.enabled && user.email ≠ "" && !user.deleted

def activeSubscriber (tables : Tables) (now : Int) (user : User) : Bool :=
  tables.subscriptions.any fun subscription =>
    subscription.userId = user.id && subscription.active && subscription.endTime > now

def expiring (now deadline : Int) (user : User) (subscription : UserSubscription) : Bool :=
  subscription.userId = user.id && subscription.active && subscription.endTime > now &&
    subscription.endTime ≤ deadline

def recipients (users : List User) : List EmailRecipientCandidate :=
  users.map fun user => { userId := user.id, email := user.email }

def emailRecipientCandidateQuery (campaign : Campaign) (tables : Tables) (now : Int) :
    List EmailRecipientCandidate :=
  let users := tables.users.filter User.reachable
  match campaign.audience with
  | .allUsers => recipients users
  | .activeSubscribers => recipients (users.filter (activeSubscriber tables now))
  | .selectedUsers ids => recipients (users.filter fun user => user.id ∈ ids)
  | .subscriptionExpiring triggerDays =>
    users.flatMap fun user =>
      (tables.subscriptions.filter (expiring now (now + triggerDays * 24 * 60 * 60) user)).map
        fun subscription =>
          { userId := user.id
            email := user.email
            subscriptionId := subscription.id
            subscriptionEndTime := subscription.endTime }

/-- `users.id ASC, user_subscriptions.id ASC` -/
def listedBefore (first second : EmailRecipientCandidate) : Prop :=
  first.userId < second.userId ∨
    first.userId = second.userId ∧ first.subscriptionId ≤ second.subscriptionId

instance : DecidableRel listedBefore := fun _ _ => inferInstanceAs (Decidable (_ ∨ _))

/-- The rows of the query, in the order of the list. -/
def candidates (campaign : Campaign) (tables : Tables) (now : Int) :
    List EmailRecipientCandidate :=
  (emailRecipientCandidateQuery campaign tables now).insertionSort listedBefore

def listEmailRecipientCandidates (campaign : Campaign) (tables : Tables) (now : Int)
    (offset limit : Nat) : List EmailRecipientCandidate :=
  ((candidates campaign tables now).drop offset).take limit

inductive DeliveryStatus where
  | pending | sending | sent | failed | skipped
deriving DecidableEq, Repr

structure EmailDelivery where
  campaignId : Int
  userId : Int
  email : String
  subscriptionId : Int
  subscriptionEndTime : Int
  /-- the numbers of the key, which are printed with colons between them -/
  dedupeKey : List Int
  status : DeliveryStatus
deriving DecidableEq, Repr

def dedupeKeyOf (conditional : Bool) (campaignId userId subscriptionId endTime : Int) : List Int :=
  if conditional then [campaignId, userId, subscriptionId, endTime] else [campaignId, userId]

def Campaign.delivery (campaign : Campaign) (validAddress : String → Bool)
    (candidate : EmailRecipientCandidate) : EmailDelivery where
  campaignId := campaign.id
  userId := candidate.userId
  email := trimSpace candidate.email
  subscriptionId := candidate.subscriptionId
  subscriptionEndTime := candidate.subscriptionEndTime
  dedupeKey := dedupeKeyOf campaign.conditional campaign.id candidate.userId
    candidate.subscriptionId candidate.subscriptionEndTime
  status := if validAddress (trimSpace candidate.email) then .pending else .skipped

/-- An insert that does nothing on a conflict of the key. -/
def createEmailDelivery (deliveries : List EmailDelivery) (delivery : EmailDelivery) :
    List EmailDelivery :=
  if deliveries.any fun row => row.dedupeKey = delivery.dedupeKey then deliveries
  else deliveries ++ [delivery]

def createEmailDeliveries (deliveries new : List EmailDelivery) : List EmailDelivery :=
  new.foldl createEmailDelivery deliveries

/-! ### A dispatch -/

def emailCampaignCandidateBatchSize : Nat := 500

structure State where
  tables : Tables
  offset : Nat
  deliveries : List EmailDelivery
  /-- the loop over the batches has ended -/
  finished : Bool
deriving DecidableEq, Repr

def State.start (tables : Tables) (deliveries : List EmailDelivery) : State where
  tables := tables
  offset := 0
  deliveries := deliveries
  finished := false

inductive Act where
  | batch
  | change (tables : Tables)
deriving DecidableEq, Repr

def step (validAddress : String → Bool) (campaign : Campaign) (now : Int) (s : State) :
    Act → Option State
  | .batch =>
    if s.finished then none
    else
      let batch := listEmailRecipientCandidates campaign s.tables now s.offset
        emailCampaignCandidateBatchSize
      some { s with
        offset := s.offset + emailCampaignCandidateBatchSize
        deliveries := createEmailDeliveries s.deliveries
          (batch.map (campaign.delivery validAddress))
        finished := decide (batch.length < emailCampaignCandidateBatchSize) }
  | .change tables => if s.finished then none else some { s with tables := tables }

/-! ### What is claimed of it -/

def satisfies (campaign : Campaign) (now : Int) (tables : Tables) (userId : Int) : Prop :=
  ∃ candidate ∈ candidates campaign tables now, candidate.userId = userId

/-- The user satisfies the filter from the beginning to the end. -/
def SatisfiesAll (validAddress : String → Bool) (campaign : Campaign) (now : Int) (s : State)
    (acts : List Act) (userId : Int) : Prop :=
  satisfies campaign now s.tables userId ∧
    Machine.Meets (step validAddress campaign now) (fun _ act =>
      match act with
      | .batch => True
      | .change tables => satisfies campaign now tables userId) s acts

def hasDelivery (campaign : Campaign) (deliveries : List EmailDelivery) (userId : Int) : Prop :=
  ∃ row ∈ deliveries, row.campaignId = campaign.id ∧ row.userId = userId

/--
A change leaves at least as many recipients before the user as have been read, unless the user has a
delivery already.
-/
def KeepsPlace (campaign : Campaign) (now : Int) (userId : Int) (s : State) : Act → Prop
  | .batch => True
  | .change tables => hasDelivery campaign s.deliveries userId ∨
      s.offset ≤ ((candidates campaign tables now).filter fun candidate =>
        candidate.userId < userId).length

/-- Rows of one campaign that the key keeps apart. -/
def sameRecipient (campaign : Campaign) (userId subscriptionId endTime : Int)
    (row : EmailDelivery) : Bool :=
  row.campaignId = campaign.id && row.userId = userId &&
    (!campaign.conditional ||
      row.subscriptionId = subscriptionId && row.subscriptionEndTime = endTime)

/-- All that the user has of the campaign is for one recipient. -/
def OneRecipient (campaign : Campaign) (userId subscriptionId endTime : Int)
    (deliveries : List EmailDelivery) : Prop :=
  ∀ row ∈ deliveries, row.campaignId = campaign.id → row.userId = userId →
    sameRecipient campaign userId subscriptionId endTime row = true

/-- Of the user a batch lists this recipient only. -/
def ListsOnly (campaign : Campaign) (now : Int) (userId subscriptionId endTime : Int) (s : State) :
    Act → Prop
  | .batch => campaign.conditional = true →
      ∀ candidate ∈ listEmailRecipientCandidates campaign s.tables now s.offset
        emailCampaignCandidateBatchSize, candidate.userId = userId →
          candidate.subscriptionId = subscriptionId ∧ candidate.subscriptionEndTime = endTime
  | .change _ => True

/-- The rows have keys of their own, made from their numbers. -/
structure Campaign.Sound (campaign : Campaign) (deliveries : List EmailDelivery) : Prop where
  unique : (deliveries.map (·.dedupeKey)).Nodup
  keyed : ∀ row ∈ deliveries, ∃ conditional, row.dedupeKey =
    dedupeKeyOf conditional row.campaignId row.userId row.subscriptionId row.subscriptionEndTime
  own : ∀ row ∈ deliveries, row.campaignId = campaign.id → row.dedupeKey =
    dedupeKeyOf campaign.conditional row.campaignId row.userId row.subscriptionId
      row.subscriptionEndTime

end JulongApi.EmailDispatch

import Maru.Framework.Table
import Maru.Framework.Text
import Maru.Framework.Uuid

/-!
# Charity records

`charities/models.py`, with the columns of organizations, editions and departments that the
commands read. Timeline entries, publication snapshots and receipts are only inserted; they are
found by the columns that no two of them share.
-/

namespace Maru.Charities

inductive CharityError
  | invalid (field message code : String)
  | authorizationDenied
  | resourceUnavailable
  | versionConflict
  | retryConflict
  | stateConflict
  | independentApprovalRequired
  /-- `full_clean` refuses the row. -/
  | refused (code : String)
  /-- A new row under a primary key that a row has. -/
  | identityTaken

/-! ## Organizations, editions and departments -/

inductive OrganizationLifecycle
  | draft | active | suspended | closed
deriving DecidableEq

inductive EditionLifecycle
  | draft | preparing | ready | live | closing | archived | cancelled
deriving DecidableEq

inductive AdoptionProfile
  | fullConvention | workforceOnly | announcementsOnly | guidanceOnly | announcementsGuidance
deriving DecidableEq

inductive Capability
  | managePartners | proposeSelection | reviewSelection | commentSelection | publishSelection
deriving DecidableEq

/-- `"charities" in profile.modules` -/
def AdoptionProfile.hasCharities : AdoptionProfile → Bool
  | .fullConvention => true
  | .workforceOnly | .announcementsOnly | .guidanceOnly | .announcementsGuidance => false

/-- The charity capabilities among `profile.capability_codes`. -/
def AdoptionProfile.capabilities : AdoptionProfile → List Capability
  | .fullConvention => [.managePartners, .proposeSelection, .reviewSelection, .commentSelection, .publishSelection]
  | .workforceOnly | .announcementsOnly | .guidanceOnly | .announcementsGuidance => []

/-- A profile with a charity capability has the charity module. -/
theorem AdoptionProfile.hasCharities_of_mem {profile : AdoptionProfile} {capability : Capability}
    (h : capability ∈ profile.capabilities) : profile.hasCharities := by
  cases profile with
  | fullConvention => rfl
  | workforceOnly | announcementsOnly | guidanceOnly | announcementsGuidance => cases h

structure Organization where
  id : Uuid
  lifecycle : OrganizationLifecycle

structure EventEdition where
  id : Uuid
  organizationId : Uuid
  lifecycle : EditionLifecycle
  adoptionProfile : AdoptionProfile

structure Department where
  id : Uuid
  organizationId : Uuid
  editionId : Uuid
  retired : Bool

/-! ## Partners and their media -/

inductive Lifecycle
  | draft | active | retired
deriving DecidableEq

def Lifecycle.value : Lifecycle → String
  | .draft => "draft"
  | .active => "active"
  | .retired => "retired"

def Lifecycle.ofValue? : String → Option Lifecycle
  | "draft" => some .draft
  | "active" => some .active
  | "retired" => some .retired
  | _ => none

structure CharityPartnerProfile where
  legalName : String
  publicName : String
  imprintName : String := ""
  shortDescription : String := ""
  description : String := ""
  locationName : String := ""
  postalAddress : String := ""
  countryCode : String := ""
  websiteUrl : String := ""
  contactEmail : String := ""
  contactPhone : String := ""

structure CharityPartner where
  id : Uuid
  organizationId : Uuid
  slug : String
  profile : CharityPartnerProfile
  lifecycle : Lifecycle
  aggregateVersion : Nat
  createdById : Uuid
  lastModifiedById : Uuid

inductive MediaKind
  | logo | photo
deriving DecidableEq

inductive ReviewStatus
  | pending | approved | withdrawn
deriving DecidableEq

structure CharityPartnerMedia where
  id : Uuid
  partnerId : Uuid
  organizationId : Uuid
  kind : MediaKind
  sourceReference : String
  publicReference : String
  ownerName : String
  licenseBasis : String
  usageScope : String
  attribution : String
  expiresAt : Option Int
  reviewStatus : ReviewStatus
  aggregateVersion : Nat
  submittedById : Uuid
  reviewedById : Option Uuid
  reviewedAt : Option Int

/-- `expires_at is None or expires_at > instant` -/
def CharityPartnerMedia.unexpired (media : CharityPartnerMedia) (instant : Int) : Bool :=
  media.expiresAt.all fun expiry => instant < expiry

/-! ## Selections -/

inductive Status
  | proposed | submitted | confirmed | rejected
deriving DecidableEq

inductive PublicationState
  | unpublished | published
deriving DecidableEq

structure CharitySelection where
  id : Uuid
  organizationId : Uuid
  editionId : Uuid
  responsibleDepartmentId : Uuid
  partnerId : Uuid
  status : Status
  publicationState : PublicationState
  aggregateVersion : Nat
  publicationNumber : Nat
  proposedById : Uuid
  submittedAt : Option Int
  decidedAt : Option Int
  publishedAt : Option Int

inductive TimelineKind
  | proposed | status | privateComment | publication
deriving DecidableEq

structure CharitySelectionTimelineEntry where
  selectionId : Uuid
  organizationId : Uuid
  editionId : Uuid
  sequence : Nat
  kind : TimelineKind
  actorId : Uuid
  occurredAt : Int
  fromStatus : Option Status := none
  toStatus : Option Status := none
  fromPublicationState : Option PublicationState := none
  toPublicationState : Option PublicationState := none
  reason : String := ""
  privateComment : String := ""

/-- `charity_timeline_sequence_uq` -/
def CharitySelectionTimelineEntry.key (entry : CharitySelectionTimelineEntry) : Uuid × Nat :=
  (entry.selectionId, entry.sequence)

structure CharityPublicationSnapshot where
  selectionId : Uuid
  organizationId : Uuid
  editionId : Uuid
  publicationNumber : Nat
  approvedById : Uuid
  approvedAt : Int
  publicName : String
  imprintName : String
  shortDescription : String
  locationName : String
  countryCode : String
  websiteUrl : String
  mediaIds : List Uuid

/-- `charity_publication_number_uq` -/
def CharityPublicationSnapshot.key (snapshot : CharityPublicationSnapshot) : Uuid × Nat :=
  (snapshot.selectionId, snapshot.publicationNumber)

inductive CharityOperation
  | partnerCreate | partnerUpdate | mediaAdd | mediaApprove | mediaWithdraw | selectionPropose | selectionSubmit
  | selectionConfirm | selectionReject | selectionComment | selectionPublish | selectionWithdraw
deriving DecidableEq

structure CharityCommandReceipt where
  id : Uuid
  organizationId : Uuid
  editionId : Option Uuid
  partnerId : Option Uuid
  selectionId : Option Uuid
  operation : CharityOperation
  actorId : Uuid
  idempotencyKey : Uuid
  requestDigest : String
  resultingVersion : Nat
  resultObjectId : Uuid

/-- `charity_command_retry_uq` -/
def CharityCommandReceipt.key (receipt : CharityCommandReceipt) : Uuid × CharityOperation × Uuid :=
  (receipt.actorId, receipt.operation, receipt.idempotencyKey)

/-! ## The store -/

structure Store where
  organizations : Table Organization.id
  editions : Table EventEdition.id
  departments : Table Department.id
  partners : Table CharityPartner.id
  media : Table CharityPartnerMedia.id
  selections : Table CharitySelection.id
  timeline : Table CharitySelectionTimelineEntry.key
  snapshots : Table CharityPublicationSnapshot.key
  receipts : Table CharityCommandReceipt.key

namespace Store

variable (store : Store)

/-- `selection.timeline_entries`, as they were inserted. -/
def timelineOf (selectionId : Uuid) : List CharitySelectionTimelineEntry :=
  store.timeline.rows.filter fun entry => entry.selectionId = selectionId

/-- `selection.publication_snapshots`, as they were inserted. -/
def snapshotsOf (selectionId : Uuid) : List CharityPublicationSnapshot :=
  store.snapshots.rows.filter fun snapshot => snapshot.selectionId = selectionId

end Store

end Maru.Charities

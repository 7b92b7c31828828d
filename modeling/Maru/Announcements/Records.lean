import Maru.Framework.Table
import Maru.Framework.Uuid

/-!
# Announcement records

`announcements/models.py` and `announcements/catalog.py`. Evidence and receipts are only inserted.
A table is keyed by the columns that a constraint keeps different: a control by its edition, a
review by its revision, a receipt by its edition, actor and idempotency key.
-/

namespace Maru.Announcements

def maxChannels : Nat := 16

def maxVariants : Nat := 32

def maxRevisions : Nat := 256

def maxReports : Nat := 2048

def maxHistory : Nat := 4096

def maxHeadline : Nat := 200

def maxBody : Nat := 8000

def maxNote : Nat := 1000

def maxStoredTextBytes : Nat := 8 * 1024 * 1024

inductive AnnouncementError
  | invalid (message code : String)
  | unavailable
  | denied
  | idempotencyConflict
  | limit
  | settingsRequired
  | stateConflict
  | versionConflict
  /-- A row that a constraint refuses. -/
  | duplicate (constraint : String)
  /-- An identifier that is in use. -/
  | identityTaken

inductive Status
  | draft | inReview | changesRequested | approved | cancelled
deriving DecidableEq

inductive Operation
  | settingsUpdate | stop | resume | create | revise | requestReview | approve | changesRequested | recordPublication
  | correctPublication | withdrawReport | cancel
deriving DecidableEq

inductive Capability
  | manageSettings | compose | review | recordPublication
deriving DecidableEq

/-- `OPERATION_CAPABILITIES` -/
def Operation.capability : Operation → Capability
  | .settingsUpdate | .stop | .resume => .manageSettings
  | .create | .revise | .requestReview | .cancel => .compose
  | .approve | .changesRequested => .review
  | .recordPublication | .correctPublication | .withdrawReport => .recordPublication

structure ManualChannel where
  code : String
  label : String
  url : String

/-- Who wrote a row, when and under which receipt. -/
structure Evidence where
  organizationId : Uuid
  editionId : Uuid
  actorId : Uuid
  occurredAt : Int
  commandReceiptId : Uuid

structure AnnouncementControl where
  id : Uuid
  organizationId : Uuid
  editionId : Uuid
  sequence : Nat
  settingsVersion : Nat
  currentSettingsId : Option Uuid
  stopped : Bool

structure AnnouncementSettingsRevision extends Evidence where
  id : Uuid
  number : Nat
  policyName : String
  policyDescription : String
  policyUrl : String
  recordOwner : String
  reviewOn : Int
  channels : List ManualChannel

structure Announcement where
  id : Uuid
  organizationId : Uuid
  editionId : Uuid
  version : Nat
  status : Status
  currentRevisionId : Option Uuid
  approvedRevisionId : Option Uuid

structure AnnouncementRevision extends Evidence where
  id : Uuid
  announcementId : Uuid
  number : Nat
  previousRevisionId : Option Uuid
  baseApprovedRevisionId : Option Uuid
  roundId : Uuid
  settingsRevisionId : Uuid
  headline : String
  body : String
  languageCode : String
  textBytes : Nat

structure AnnouncementVariant extends Evidence where
  id : Uuid
  revisionId : Uuid
  channelCode : String
  channelLabel : String
  channelUrl : String
  languageCode : String
  headline : String
  body : String
  copyDigest : String

inductive Decision
  | approve | changesRequested
deriving DecidableEq

structure AnnouncementReview extends Evidence where
  id : Uuid
  revisionId : Uuid
  decision : Decision
  note : String

structure AnnouncementPublicationReport extends Evidence where
  id : Uuid
  variantId : Uuid
  supersedesReportId : Option Uuid
  withdrawn : Bool
  publicationUrl : String
  publishedAt : Option Int
  reason : String

structure AnnouncementCommandReceipt where
  id : Uuid
  organizationId : Uuid
  editionId : Uuid
  actorId : Uuid
  operation : Operation
  idempotencyKey : Uuid
  requestDigest : String
  controlSequence : Nat
  announcementId : Option Uuid
  objectId : Uuid
  resultingVersion : Nat
  occurredAt : Int
  reason : String

/-- `ann_receipt_retry_uq` -/
def AnnouncementCommandReceipt.key (receipt : AnnouncementCommandReceipt) : Uuid × Uuid × Uuid :=
  (receipt.editionId, receipt.actorId, receipt.idempotencyKey)

/-! ## The store -/

structure Store where
  controls : Table AnnouncementControl.editionId
  settings : Table AnnouncementSettingsRevision.id
  announcements : Table Announcement.id
  revisions : Table AnnouncementRevision.id
  variants : Table AnnouncementVariant.id
  reviews : Table AnnouncementReview.revisionId
  reports : Table AnnouncementPublicationReport.id
  receipts : Table AnnouncementCommandReceipt.key

namespace Store

/-- No announcements yet. -/
def empty : Store where
  controls := ∅
  settings := ∅
  announcements := ∅
  revisions := ∅
  variants := ∅
  reviews := ∅
  reports := ∅
  receipts := ∅

variable (store : Store)

/-- `announcement.revisions`, as they were inserted. -/
def revisionsOf (announcementId : Uuid) : List AnnouncementRevision :=
  store.revisions.rows.filter fun revision => revision.announcementId = announcementId

/-- `variant.publication_reports`, as they were inserted. -/
def reportsOf (variantId : Uuid) : List AnnouncementPublicationReport :=
  store.reports.rows.filter fun report => report.variantId = variantId

/-- The receipts of an edition. -/
def receiptsIn (editionId : Uuid) : List AnnouncementCommandReceipt :=
  store.receipts.rows.filter fun receipt => receipt.editionId = editionId

/-- `announcement.receipts` -/
def receiptsOf (announcementId : Uuid) : List AnnouncementCommandReceipt :=
  store.receipts.rows.filter fun receipt => receipt.announcementId = some announcementId

end Store

end Maru.Announcements

import Maru.Announcements.Inputs

/-!
# Announcement commands

`announcements/command_support.py` and `announcements/commands.py`. Every command is `execute`
with its own `write`: after the decision on authority a receipt of the idempotency key answers for
it, else its rows are written together with the next sequence number of the edition's control and
a receipt, or nothing is.
-/

namespace Maru.Announcements

/-- `AnnouncementsEditionScope`, as far as the commands read it. -/
structure EditionScope where
  languageCodes : List String
  timeZone : String
  acceptsWrites : Bool

structure AnnouncementCommandRequest where
  actorId : Uuid
  organizationId : Uuid
  editionId : Uuid
  correlationId : Uuid
  idempotencyKey : Uuid
  sourceChannel : String

structure AnnouncementCommandResult where
  receiptId : Uuid
  objectId : Uuid
  version : Nat
  announcementId : Option Uuid
  replayed : Bool

/-- What surrounds a transaction: its time, the identifiers it draws, the scope of an
edition that announcements are adopted in, and whether an actor's verified authority
covers a capability there. -/
structure Surroundings where
  now : Int
  receiptId : Uuid
  controlId : Uuid
  objectId : Uuid
  revisionId : Uuid
  roundId : Uuid
  variantId : Nat → Uuid
  scope : Uuid → Uuid → Option EditionScope
  allows : AnnouncementCommandRequest → Capability → Bool

/-- `authorize_announcements_scope` -/
def authorize (sur : Surroundings) (request : AnnouncementCommandRequest)
    (capability : Capability) : Except AnnouncementError EditionScope := do
  let _ ← identifier request.actorId
  let _ ← identifier request.organizationId
  let _ ← identifier request.editionId
  let _ ← identifier request.correlationId
  require (sur.allows request capability) .denied
  getOr .denied (sur.scope request.organizationId request.editionId)

/-- `CommandContext`, and the store that the command writes. -/
structure Context where
  store : Store
  control : AnnouncementControl
  scope : EditionScope

/-- What `write` returns. -/
structure Written where
  context : Context
  objectId : Uuid
  announcementId : Option Uuid
  version : Nat

/-- `context.evidence()` -/
def evidence (sur : Surroundings) (request : AnnouncementCommandRequest) : Evidence where
  organizationId := request.organizationId
  editionId := request.editionId
  actorId := request.actorId
  occurredAt := sur.now
  commandReceiptId := sur.receiptId

namespace Store

variable (store : Store)

/-- The rows that `require_complete_evidence_bound` selects. -/
def records (announcementId : Uuid) : List Record :=
  let revisions := store.revisionsOf announcementId
  let copies := store.variants.rows.filter fun row => (revisions.map (·.id)).contains row.revisionId
  let rules := store.settings.rows.filter fun row => (revisions.map (·.settingsRevisionId)).contains row.id
  revisions.map .revision ++ copies.map .variant ++
    (store.reviews.rows.filter fun row => (revisions.map (·.id)).contains row.revisionId).map .review ++
    (store.reports.rows.filter fun row => (copies.map (·.id)).contains row.variantId).map .report ++
    rules.map .settings ++
    (store.receipts.rows.filter fun row => row.announcementId = some announcementId ∨
      (rules.map (·.commandReceiptId)).contains row.id).map .receipt

def requireCompleteEvidenceBound (lib : Primitives) (announcementId : Option Uuid) : Except AnnouncementError Unit :=
  require (announcementId.all fun id => ((store.records id).map lib.recordBytes).sum ≤ maxStoredTextBytes) .limit

/-- The control of the edition, created where there is none. -/
def lockedControl (sur : Surroundings) (request : AnnouncementCommandRequest) :
    Except AnnouncementError (Store × AnnouncementControl) :=
  match (store.controls.get? request.editionId).filter fun control =>
    control.organizationId = request.organizationId with
  | some control => .ok (store, control)
  | none => do
    let control : AnnouncementControl := {
      id := sur.controlId, organizationId := request.organizationId, editionId := request.editionId, sequence := 0,
      settingsVersion := 0, currentSettingsId := none, stopped := false }
    let controls ← getOr (.duplicate "ann_control_edition_uq") (store.controls.insert? control)
    return ({ store with controls }, control)

def insertReceipt (receipt : AnnouncementCommandReceipt) : Except AnnouncementError Store := do
  require (∀ other ∈ store.receipts.rows, other.editionId = receipt.editionId →
    other.controlSequence ≠ receipt.controlSequence) (.duplicate "ann_receipt_sequence_uq")
  require (∀ other ∈ store.receipts.rows, receipt.announcementId ≠ none → other.announcementId = receipt.announcementId →
    other.resultingVersion ≠ receipt.resultingVersion) (.duplicate "ann_receipt_object_version_uq")
  let receipts ← getOr (.duplicate "ann_receipt_retry_uq") (store.receipts.insert? receipt)
  return { store with receipts }

/-- The receipt that a request with this key left. -/
def receipt? (request : AnnouncementCommandRequest) : Option AnnouncementCommandReceipt :=
  (store.receipts.get? (request.editionId, request.actorId, request.idempotencyKey)).filter fun receipt =>
    receipt.organizationId = request.organizationId

end Store

/-- `_result` -/
def AnnouncementCommandReceipt.result (receipt : AnnouncementCommandReceipt) (replayed : Bool) :
    AnnouncementCommandResult :=
  ⟨receipt.id, receipt.objectId, receipt.resultingVersion, receipt.announcementId, replayed⟩

/-- The receipt of a command. -/
def receiptOf (sur : Surroundings) (request : AnnouncementCommandRequest) (operation : Operation)
    (digest reason : String) (sequence : Nat) (written : Written) : AnnouncementCommandReceipt where
  id := sur.receiptId
  organizationId := request.organizationId
  editionId := request.editionId
  actorId := request.actorId
  operation := operation
  idempotencyKey := request.idempotencyKey
  requestDigest := digest
  controlSequence := sequence
  announcementId := written.announcementId
  objectId := written.objectId
  resultingVersion := written.version
  occurredAt := sur.now
  reason := reason

/-- The part of `execute` after the receipt is found missing. -/
def Store.perform (store : Store) (lib : Primitives) (sur : Surroundings) (request : AnnouncementCommandRequest)
    (scope : EditionScope) (operation : Operation) (digest reason : String)
    (write : Context → Except AnnouncementError Written) :
    Except AnnouncementError (Store × AnnouncementCommandResult) := do
  let (store, control) ← store.lockedControl sur request
  require (control.sequence < 2 ^ 63 - 2) .limit
  let written ← write { store, control, scope }
  let control := { written.context.control with sequence := control.sequence + 1 }
  let store := { written.context.store with controls := written.context.store.controls.save control }
  let receipt := receiptOf sur request operation digest reason control.sequence written
  let store ← store.insertReceipt receipt
  store.requireCompleteEvidenceBound lib written.announcementId
  return (store, receipt.result false)

def Store.execute (store : Store) (lib : Primitives) (sur : Surroundings) (request : AnnouncementCommandRequest)
    (operation : Operation) (intent : Intent) (reason : String) (write : Context → Except AnnouncementError Written) :
    Except AnnouncementError (Store × AnnouncementCommandResult) := do
  let _ ← identifier request.idempotencyKey
  let source ← text lib request.sourceChannel 80
  require (source = request.sourceChannel) .idempotencyConflict
  let digest := lib.requestDigest operation intent reason source
  let scope ← authorize sur request operation.capability
  match store.receipt? request with
  | some receipt => do
    require (receipt.requestDigest = digest ∧ receipt.operation = operation) .idempotencyConflict
    return (store, receipt.result true)
  | none => store.perform lib sur request scope operation digest reason write

/-! ## Checks of a write -/

namespace Context

variable (context : Context) (lib : Primitives) (sur : Surroundings) (request : AnnouncementCommandRequest)

/-- `_writes_open` -/
def writesOpen (stoppedOk : Bool := false) : Except AnnouncementError Unit :=
  require (context.scope.acceptsWrites ∧ (context.control.stopped = false ∨ stoppedOk)) .stateConflict

/-- The settings that the control names, unless their review is overdue. -/
def currentSettings? : Option AnnouncementSettingsRevision :=
  ((context.control.currentSettingsId.bind fun id => context.store.settings.get? id)).filter fun row =>
    lib.dateIn context.scope.timeZone sur.now ≤ row.reviewOn

/-- `_settings` -/
def settings : Except AnnouncementError AnnouncementSettingsRevision := do
  context.writesOpen
  getOr .settingsRequired (context.currentSettings? lib sur)

/-- `_item` -/
def item (announcementId : Uuid) (expectedVersion : Int) : Except AnnouncementError Announcement := do
  let row ← getOr .unavailable ((context.store.announcements.get? announcementId).filter fun row =>
    row.organizationId = request.organizationId ∧ row.editionId = request.editionId)
  require (row.version = expectedVersion) .versionConflict
  return row

/-- `_advance`: the item with its next version, saved. -/
def advance (item : Announcement) : Except AnnouncementError (Context × Announcement) := do
  require (item.version < maxHistory) .limit
  let item := { item with version := item.version + 1 }
  return ({ context with store :=
    { context.store with announcements := context.store.announcements.save item } }, item)

/-! ## Revisions -/

def variantOf (revisionId : Uuid) (channel : ManualChannel) (copy : AnnouncementVariantInput)
    (id : Uuid) : AnnouncementVariant :=
  { evidence sur request with
    id, revisionId, channelCode := copy.channelCode, channelLabel := channel.label, channelUrl := channel.url,
    languageCode := copy.languageCode, headline := copy.headline, body := copy.body,
    copyDigest := lib.copyDigest copy.headline copy.body }

/-- The channel of the settings that a copy is for. -/
def channelOf (settings : AnnouncementSettingsRevision) (copy : AnnouncementVariantInput) : Option ManualChannel :=
  settings.channels.find? fun channel => channel.code = copy.channelCode

/-- Insert a copy for its channel. -/
def insertVariant (revisionId : Uuid) (settings : AnnouncementSettingsRevision)
    (variants : Table AnnouncementVariant.id) (copy : AnnouncementVariantInput × Nat) :
    Except AnnouncementError (Table AnnouncementVariant.id) := do
  let channel ← getOr (.invalid "Choose the current event languages and publishing channels." "unavailable_selection")
    (channelOf settings copy.1)
  getOr .identityTaken
    (variants.insert? (variantOf lib sur request revisionId channel copy.1 (sur.variantId copy.2)))

/-- The revision that the next one follows. -/
def previous? (item : Announcement) : Option AnnouncementRevision :=
  item.currentRevisionId.bind fun id => context.store.revisions.get? id

/-- `uuid4()`: a round that is drawn is drawn for the first time. -/
def drawRound : Except AnnouncementError Uuid := do
  require (∀ row ∈ context.store.revisions.rows, row.roundId ≠ sur.roundId) .identityTaken
  return sur.roundId

/-- The approved revision that the next one corrects, and its round of review: a new one
behind an approved revision. -/
def round (item : Announcement) : Except AnnouncementError (Option Uuid × Uuid) :=
  match context.previous? item with
  | some previous =>
    if item.currentRevisionId = item.approvedRevisionId then do
      return (item.approvedRevisionId, ← context.drawRound sur)
    else return (previous.baseApprovedRevisionId, previous.roundId)
  | none => do return (item.approvedRevisionId, ← context.drawRound sur)

/-- The row of an item's next revision. -/
def revisionOf (item : Announcement) (draft : AnnouncementDraftInput) (settingsRevisionId : Uuid)
    (textBytes number : Nat)
    (previousRevisionId baseApprovedRevisionId : Option Uuid) (roundId : Uuid) : AnnouncementRevision :=
  { evidence sur request with
    id := sur.revisionId, announcementId := item.id, number, previousRevisionId, baseApprovedRevisionId, roundId,
    settingsRevisionId, headline := draft.headline, body := draft.body, languageCode := draft.languageCode, textBytes }

/-- `_write_revision` -/
def writeRevision (item : Announcement) (draft : AnnouncementDraftInput) (settings : AnnouncementSettingsRevision) :
    Except AnnouncementError (Context × Announcement) := do
  let previous := context.previous? item
  let number := (previous.map (·.number)).getD 0 + 1
  let textBytes := lib.textBytes draft
  let retained := ((context.store.revisionsOf item.id).map (·.textBytes)).sum
  require (number ≤ maxRevisions ∧ retained + textBytes ≤ maxStoredTextBytes) .limit
  require (context.scope.languageCodes.contains draft.languageCode ∧ draft.variants.all fun copy =>
    context.scope.languageCodes.contains copy.languageCode ∧ (channelOf settings copy).isSome)
    (.invalid "Choose the current event languages and publishing channels." "unavailable_selection")
  let (baseApprovedRevisionId, roundId) ← context.round sur item
  let revisions ← getOr .identityTaken (context.store.revisions.insert? (revisionOf sur request item draft settings.id
    textBytes number (previous.map (·.id)) baseApprovedRevisionId roundId))
  let variants ← draft.variants.zipIdx.foldlM
    (insertVariant lib sur request sur.revisionId settings) context.store.variants
  return ({ context with store := { context.store with revisions, variants } },
    { item with currentRevisionId := some sur.revisionId, status := .draft })

end Context

/-! ## Commands -/

section

variable (store : Store) (lib : Primitives) (sur : Surroundings) (request : AnnouncementCommandRequest)

/-- A channel without a link keeps its label for good. -/
def keepsIdentity (settings : List AnnouncementSettingsRevision) (channels : List ManualChannel) : Bool :=
  settings.all fun row => channels.all fun channel =>
    (row.channels.find? fun old => old.code = channel.code).all fun old => old.url ≠ "" ∨ old.label = channel.label

def writeSettings (value : AnnouncementSettingsInput) (expected : Int) (context : Context) :
    Except AnnouncementError Written := do
  context.writesOpen true
  require (context.control.settingsVersion = expected) .versionConflict
  require (keepsIdentity (context.store.settings.rows.filter fun row =>
    row.organizationId = request.organizationId ∧ row.editionId = request.editionId) value.channels)
    (.invalid "Add a new channel for a different destination without a link." "channel_identity_changed")
  require (lib.dateIn context.scope.timeZone sur.now ≤ value.reviewOn)
    (.invalid "Choose a current or future rules review date." "rules_review_overdue")
  let settings ← getOr .identityTaken (context.store.settings.insert?
    { evidence sur request with
      id := sur.objectId, number := context.control.settingsVersion + 1, policyName := value.policyName,
      policyDescription := value.policyDescription, policyUrl := value.policyUrl, recordOwner := value.recordOwner,
      reviewOn := value.reviewOn, channels := value.channels })
  let settingsVersion := context.control.settingsVersion + 1
  return {
    context := { context with
      store := { context.store with settings }
      control := { context.control with settingsVersion, currentSettingsId := some sur.objectId } }
    objectId := sur.objectId
    announcementId := none
    version := settingsVersion }

def updateAnnouncementSettings (settings : AnnouncementSettingsInput) (expectedVersion : Int) :
    Except AnnouncementError (Store × AnnouncementCommandResult) := do
  let _ ← authorize sur request .manageSettings
  let value ← normalizeSettings lib settings
  let expected ← version expectedVersion true
  store.execute lib sur request .settingsUpdate (.settingsUpdate value expected) ""
    (writeSettings lib sur request value expected)

/-- Work that is not stopped goes on under current settings. -/
def Context.resumable (context : Context) : Except AnnouncementError Unit :=
  if context.control.stopped then .ok () else do
    let _ ← context.settings lib sur
    return ()

def writeStopped (stopped : Bool) (expected : Int) (context : Context) : Except AnnouncementError Written := do
  context.writesOpen true
  require (context.control.settingsVersion = expected) .versionConflict
  require (context.control.stopped ≠ stopped) .stateConflict
  let context := { context with control := { context.control with stopped } }
  context.resumable lib sur
  let settingsVersion := context.control.settingsVersion + 1
  return {
    context := { context with control := { context.control with settingsVersion } }
    objectId := context.control.id
    announcementId := none
    version := settingsVersion }

def setAnnouncementsStopped (stopped : Bool) (expectedVersion : Int) (reason : String) :
    Except AnnouncementError (Store × AnnouncementCommandResult) := do
  let _ ← authorize sur request .manageSettings
  let expected ← version expectedVersion
  let note ← text lib reason maxNote
  store.execute lib sur request (if stopped then .stop else .resume)
    (.stopped stopped expected) note (writeStopped lib sur stopped expected)

def writeCreated (draft : AnnouncementDraftInput) (expected : Int) (context : Context) :
    Except AnnouncementError Written := do
  let settings ← context.settings lib sur
  require (context.control.settingsVersion = expected) .versionConflict
  let item : Announcement := {
    id := sur.objectId, organizationId := request.organizationId, editionId := request.editionId, version := 1,
    status := .draft, currentRevisionId := none, approvedRevisionId := none }
  let announcements ← getOr .identityTaken (context.store.announcements.insert? item)
  let created := { context with store := { context.store with announcements } }
  let (context, item) ← created.writeRevision lib sur request item draft settings
  return {
    context := { context with store :=
      { context.store with announcements := context.store.announcements.save item } }
    objectId := item.id
    announcementId := some item.id
    version := item.version }

def createAnnouncement (draft : AnnouncementDraftInput) (expectedSettingsVersion : Int) :
    Except AnnouncementError (Store × AnnouncementCommandResult) := do
  let _ ← authorize sur request .compose
  let value ← normalizeDraft lib draft
  let expected ← version expectedSettingsVersion
  store.execute lib sur request .create (.create value expected) "" (writeCreated lib sur request value expected)

def writeRevised (announcementId : Uuid) (draft : AnnouncementDraftInput)
    (expected expectedSettings : Int) (context : Context) : Except AnnouncementError Written := do
  let settings ← context.settings lib sur
  require (context.control.settingsVersion = expectedSettings) .versionConflict
  let item ← context.item request announcementId expected
  require (item.status ≠ .cancelled) .stateConflict
  let (context, item) ← context.writeRevision lib sur request item draft settings
  let (context, item) ← context.advance item
  return { context, objectId := sur.revisionId, announcementId := some item.id, version := item.version }

def reviseAnnouncement (announcementId : Uuid) (draft : AnnouncementDraftInput)
    (expectedVersion expectedSettingsVersion : Int) (reason : String) :
    Except AnnouncementError (Store × AnnouncementCommandResult) := do
  let _ ← authorize sur request .compose
  let selected ← identifier announcementId
  let expected ← version expectedVersion
  let expectedSettings ← version expectedSettingsVersion
  let value ← normalizeDraft lib draft
  let note ← text lib reason maxNote
  store.execute lib sur request .revise (.revise selected value expected expectedSettings) note
    (writeRevised lib sur request selected value expected expectedSettings)

def writeRequested (announcementId : Uuid) (expected : Int) (context : Context) : Except AnnouncementError Written := do
  let _ ← context.settings lib sur
  let item ← context.item request announcementId expected
  require (item.status = .draft) .stateConflict
  let revisionId ← getOr .stateConflict item.currentRevisionId
  require (context.store.reviews.get? revisionId = none) .stateConflict
  let (context, item) ← context.advance { item with status := .inReview }
  return { context, objectId := revisionId, announcementId := some item.id, version := item.version }

def requestAnnouncementReview (announcementId : Uuid) (expectedVersion : Int) :
    Except AnnouncementError (Store × AnnouncementCommandResult) := do
  let _ ← authorize sur request .compose
  let selected ← identifier announcementId
  let expected ← version expectedVersion
  store.execute lib sur request .requestReview (.requestReview selected expected) ""
    (writeRequested lib sur request selected expected)

/-- The item after its review. -/
def reviewed (item : Announcement) (revisionId : Uuid) : Decision → Announcement
  | .approve => { item with status := .approved, approvedRevisionId := some revisionId }
  | .changesRequested => { item with status := .changesRequested }

def writeReviewed (announcementId revisionId : Uuid) (expected : Int) (decision : Decision)
    (note : String) (context : Context) : Except AnnouncementError Written := do
  let _ ← context.settings lib sur
  let item ← context.item request announcementId expected
  let current ← getOr .stateConflict (context.previous? item)
  require (item.status = .inReview ∧ current.id = revisionId) .stateConflict
  require (∀ row ∈ context.store.revisions.rows, row.announcementId = item.id →
    row.roundId = current.roundId → row.actorId ≠ request.actorId) .denied
  let reviews ← getOr (.duplicate "revision") (context.store.reviews.insert?
    { evidence sur request with id := sur.objectId, revisionId, decision, note })
  let written := { context with store := { context.store with reviews } }
  let (context, item) ← written.advance (reviewed item revisionId decision)
  return { context, objectId := sur.objectId, announcementId := some item.id, version := item.version }

def Decision.operation : Decision → Operation
  | .approve => .approve
  | .changesRequested => .changesRequested

def reviewAnnouncement (announcementId revisionId : Uuid) (expectedVersion : Int) (decision : Decision)
    (note : String) : Except AnnouncementError (Store × AnnouncementCommandResult) := do
  let _ ← authorize sur request .review
  let selected ← identifier announcementId
  let revision ← identifier revisionId
  let expected ← version expectedVersion
  let reason ← text lib note maxNote (decision = .changesRequested)
  store.execute lib sur request decision.operation (.review selected revision expected decision reason) reason
    (writeReviewed lib sur request selected revision expected decision reason)

/-! ## Publication reports -/

/-- `_publication_time` -/
def publicationTime (value : Option Int) : Except AnnouncementError (Option Int) := do
  require (value.all fun time => time ≤ sur.now)
    (.invalid "Enter an actual past publication time with a time zone." "invalid_publication_time")
  return value

/-- The variant is of a revision of the item. -/
def Store.variantIn (item : Announcement) (variant : AnnouncementVariant) : Bool :=
  (store.revisions.get? variant.revisionId).any fun revision => revision.announcementId = item.id

/-- `_variant`: a copy of a revision of the item whose review approved it. -/
def Store.approvedVariant? (item : Announcement) (variantId : Uuid) : Option AnnouncementVariant :=
  (store.variants.get? variantId).filter fun variant =>
    variant.organizationId = request.organizationId ∧ variant.editionId = request.editionId ∧
      store.variantIn item variant ∧
      (store.reviews.get? variant.revisionId).any fun review => review.decision = .approve

/-- `_report_limit` -/
def Store.reportLimit (item : Announcement) : Except AnnouncementError Unit :=
  require ((store.reports.rows.filter fun report =>
    (store.variants.get? report.variantId).any (store.variantIn item)).length < maxReports) .limit

def writeReported (announcementId variantId : Uuid) (expected : Int) (url : String)
    (publishedAt : Option Int) (context : Context) : Except AnnouncementError Written := do
  -- What was published is recorded although the rules are out of date or the work is stopped.
  context.writesOpen true
  let item ← context.item request announcementId expected
  let copy ← getOr .unavailable (context.store.approvedVariant? request item variantId)
  require (context.store.reportsOf copy.id = []) .stateConflict
  context.store.reportLimit item
  let reports ← getOr .identityTaken (context.store.reports.insert?
    { evidence sur request with
      id := sur.objectId, variantId := copy.id, supersedesReportId := none, withdrawn := false, publicationUrl := url,
      publishedAt, reason := "" })
  let written := { context with store := { context.store with reports } }
  let (context, item) ← written.advance item
  return { context, objectId := sur.objectId, announcementId := some item.id, version := item.version }

def recordAnnouncementPublication (announcementId variantId : Uuid) (expectedVersion : Int) (publicationUrl : String)
    (publishedAt : Option Int) : Except AnnouncementError (Store × AnnouncementCommandResult) := do
  let _ ← authorize sur request .recordPublication
  let selected ← identifier announcementId
  let variant ← identifier variantId
  let expected ← version expectedVersion
  let url ← safeUrl lib publicationUrl
  let occurred ← publicationTime sur publishedAt
  store.execute lib sur request .recordPublication (.recordPublication selected variant expected url occurred) ""
    (writeReported sur request selected variant expected url occurred)

/-- The report of the item that no other report replaces. -/
def Store.lastReport? (item : Announcement) (reportId : Uuid) : Option AnnouncementPublicationReport :=
  (store.reports.get? reportId).filter fun report =>
    report.organizationId = request.organizationId ∧ report.editionId = request.editionId ∧
      (store.variants.get? report.variantId).any (store.variantIn item) ∧
      store.reports.rows.all fun other => other.supersedesReportId ≠ some report.id

def writeCorrected (announcementId reportId : Uuid) (expected : Int) (withdrawn : Bool) (url : String)
    (publishedAt : Option Int) (note : String) (context : Context) : Except AnnouncementError Written := do
  context.writesOpen true
  let item ← context.item request announcementId expected
  let previous ← getOr .stateConflict (context.store.lastReport? request item reportId)
  context.store.reportLimit item
  let reports ← getOr .identityTaken (context.store.reports.insert?
    { evidence sur request with
      id := sur.objectId, variantId := previous.variantId, supersedesReportId := some previous.id, withdrawn,
      publicationUrl := url, publishedAt, reason := note })
  let written := { context with store := { context.store with reports } }
  let (context, item) ← written.advance item
  return { context, objectId := sur.objectId, announcementId := some item.id, version := item.version }

def correctAnnouncementPublication (announcementId reportId : Uuid) (expectedVersion : Int)
    (withdrawn : Bool) (reason publicationUrl : String) (publishedAt : Option Int) :
    Except AnnouncementError (Store × AnnouncementCommandResult) := do
  let _ ← authorize sur request .recordPublication
  let selected ← identifier announcementId
  let report ← identifier reportId
  let expected ← version expectedVersion
  let url ← safeUrl lib publicationUrl
  let occurred ← publicationTime sur publishedAt
  let note ← text lib reason maxNote
  require (withdrawn → url = "" ∧ occurred = none)
    (.invalid "A withdrawn report cannot claim a publication." "invalid_report")
  store.execute lib sur request (if withdrawn then .withdrawReport else .correctPublication)
    (.correctPublication selected report expected withdrawn url occurred) note
    (writeCorrected sur request selected report expected withdrawn url occurred note)

def writeCancelled (announcementId : Uuid) (expected : Int) (context : Context) : Except AnnouncementError Written := do
  context.writesOpen true
  let item ← context.item request announcementId expected
  require (item.status ≠ .cancelled) .stateConflict
  let (context, item) ← context.advance { item with status := .cancelled }
  return { context, objectId := item.id, announcementId := some item.id, version := item.version }

def cancelAnnouncement (announcementId : Uuid) (expectedVersion : Int) (reason : String) :
    Except AnnouncementError (Store × AnnouncementCommandResult) := do
  let _ ← authorize sur request .compose
  let selected ← identifier announcementId
  let expected ← version expectedVersion
  let note ← text lib reason maxNote
  store.execute lib sur request .cancel (.cancel selected expected) note (writeCancelled request selected expected)

end

end Maru.Announcements

import Maru.Charities.Inputs
import Maru.Framework.Lists

/-!
# Charity commands

`charities/services.py`. A command decides on authority first, then looks for the receipt of its
idempotency key, and then commits its rows together with a receipt, or nothing. Every change of a
selection raises its version and adds the timeline entry that has the version for its number.
-/

namespace Maru.Charities

/-- What an authorization decision is about. -/
inductive Target
  | organization (organizationId : Uuid)
  | edition (organizationId editionId : Uuid)
  | selection (organizationId editionId selectionId : Uuid)

/-- What surrounds a transaction: its time, the identifiers it draws, which accounts are active, and
what `decide` grants beyond the edition's adoption profile. -/
structure Surroundings where
  now : Int
  newId : Uuid
  receiptId : Uuid
  isActive : Uuid → Bool
  grants : Uuid → Capability → Target → Bool

structure Request where
  actorId : Uuid
  organizationId : Uuid
  idempotencyKey : Uuid

structure CharityCommandResult where
  objectId : Uuid
  receiptId : Uuid
  resultingVersion : Nat
  replayed : Bool

namespace Store

variable (store : Store) (lib : Primitives) (sur : Surroundings) (request : Request)

/-! ## Authority -/

/-- `_organization_decision` -/
def organizationDecision (capability : Capability) : Except CharityError Unit :=
  require (sur.isActive request.actorId ∧ (store.organizations.get? request.organizationId).isSome ∧
    sur.grants request.actorId capability (.organization request.organizationId)) .authorizationDenied

/-- The edition, in the organization that the request names. -/
def edition? (editionId : Uuid) : Option EventEdition :=
  (store.editions.get? editionId).filter fun edition => edition.organizationId = request.organizationId

/-- `_edition_decision` -/
def editionDecision (editionId : Uuid) (capability : Capability) : Except CharityError Unit :=
  require (sur.isActive request.actorId ∧
    ((store.edition? request editionId).any fun edition => edition.adoptionProfile.capabilities.contains capability) ∧
    sur.grants request.actorId capability (.edition request.organizationId editionId)) .authorizationDenied

/-- The selection, in the organization and the edition that the request names. -/
def selection? (editionId selectionId : Uuid) : Option CharitySelection :=
  (store.selections.get? selectionId).filter fun selection =>
    selection.organizationId = request.organizationId ∧ selection.editionId = editionId

/-- `_selection_decision`: the department that the selection is authorized in. -/
def selectionDecision (editionId selectionId : Uuid) (capability : Capability) : Except CharityError Uuid := do
  let selection ← getOr .authorizationDenied (store.selection? request editionId selectionId)
  require (sur.isActive request.actorId ∧
    ((store.departments.get? selection.responsibleDepartmentId).any fun department => !department.retired) ∧
    ((store.editions.get? editionId).any fun edition => edition.adoptionProfile.capabilities.contains capability) ∧
    sur.grants request.actorId capability (.selection request.organizationId editionId selectionId)) .authorizationDenied
  return selection.responsibleDepartmentId

/-! ## Receipts -/

/-- `_existing_receipt`: the result of the receipt that the key has already,
else that of the command. -/
def unlessReplayed (operation : CharityOperation) (digest : String)
    (command : Except CharityError (Store × CharityCommandResult)) :
    Except CharityError (Store × CharityCommandResult) :=
  match store.receipts.get? (request.actorId, operation, request.idempotencyKey) with
  | none => command
  | some receipt =>
    if receipt.organizationId ≠ request.organizationId ∨ receipt.requestDigest ≠ digest then .error .retryConflict
    else .ok (store, ⟨receipt.resultObjectId, receipt.id, receipt.resultingVersion, true⟩)

/-- `_append_evidence` -/
def appendEvidence (editionId partnerId selectionId : Option Uuid) (operation : CharityOperation) (digest : String)
    (resultObjectId : Uuid) (resultingVersion : Nat) : Except CharityError (Store × CharityCommandResult) := do
  let receipts ← getOr (.refused "charity_command_retry_uq") (store.receipts.insert? {
    id := sur.receiptId, organizationId := request.organizationId, editionId, partnerId, selectionId, operation,
    actorId := request.actorId, idempotencyKey := request.idempotencyKey, requestDigest := digest, resultingVersion,
    resultObjectId })
  return ({ store with receipts }, ⟨resultObjectId, sur.receiptId, resultingVersion, false⟩)

/-! ## Partners -/

/-- What `CharityPartner.save` stores. -/
def cleanPartner (partner : CharityPartner) : Except CharityError CharityPartner := do
  let profile := { partner.profile with countryCode := lib.upper partner.profile.countryCode }
  let partner := { partner with slug := lib.lower partner.slug, profile }
  require (lib.validPartner partner) (.refused "full_clean")
  require (∀ other ∈ store.partners.rows, other.organizationId = partner.organizationId →
    lib.lower other.slug = lib.lower partner.slug → other.id = partner.id) (.refused "charity_partner_org_slug_uq")
  return partner

def createCharityPartner (slug : String) (profile : CharityPartnerProfile) (reason : String) :
    Except CharityError (Store × CharityCommandResult) := do
  let reason ← normalizedReason lib reason
  let profile ← normalizeProfile lib profile
  let slug ← normalizedSlug lib slug profile.publicName
  let digest := lib.canonicalDigest (.createPartner request.organizationId slug profile reason)
  store.organizationDecision sur request .managePartners
  require ((store.organizations.get? request.organizationId).any fun organization =>
    organization.lifecycle = .draft ∨ organization.lifecycle = .active) .authorizationDenied
  store.unlessReplayed request .partnerCreate digest do
    let partner ← store.cleanPartner lib {
      id := sur.newId, organizationId := request.organizationId, slug, profile,
      lifecycle := .draft, aggregateVersion := 1,
      createdById := request.actorId, lastModifiedById := request.actorId }
    let partners ← getOr .identityTaken (store.partners.insert? partner)
    { store with partners }.appendEvidence sur request none (some partner.id) none .partnerCreate digest partner.id 1

/-- `_PARTNER_LIFECYCLE_TRANSITIONS` -/
def transitions : Lifecycle → List Lifecycle
  | .draft => [.active, .retired]
  | .active => [.retired]
  | .retired => []

/-- One new value of a partner, normalized. -/
def normalizedValue (field : PartnerField) (value : String) : Except CharityError String :=
  match field with
  | .slug => normalizedSlug lib value
  | .lifecycle => do
    require (Lifecycle.ofValue? value).isSome (.invalid "lifecycle" "Choose a supported lifecycle." "invalid")
    return value
  | field => field.normalized lib value

/-- The partner of the organization that the request names. -/
def partner? (partnerId : Uuid) : Option CharityPartner :=
  (store.partners.get? partnerId).filter fun partner => partner.organizationId = request.organizationId

/-- The new lifecycle is the old one or follows it. -/
def mayBecome (partner : CharityPartner) (changes : List (PartnerField × String)) : Bool :=
  changes.all fun change => change.1 ≠ .lifecycle ∨ change.2 = partner.lifecycle.value ∨
    (Lifecycle.ofValue? change.2).any fun lifecycle => (transitions partner.lifecycle).contains lifecycle

def changed (partner : CharityPartner) (changes : List (PartnerField × String)) (actorId : Uuid) : CharityPartner :=
  { changes.foldl (fun partner change => change.1.set partner change.2) partner with
    aggregateVersion := partner.aggregateVersion + 1, lastModifiedById := actorId }

def updateCharityPartner (partnerId : Uuid) (expectedVersion : Int) (changes : List (PartnerField × String))
    (reason : String) : Except CharityError (Store × CharityCommandResult) := do
  requireExpectedVersion expectedVersion
  let reason ← normalizedReason lib reason
  require (changes ≠ []) (.invalid "changes" "Choose supported profile fields." "charity_changes_invalid")
  let changes ← changes.mapM fun change => return (change.1, ← normalizedValue lib change.1 change.2)
  let digest := lib.canonicalDigest (.updatePartner request.organizationId partnerId expectedVersion changes reason)
  store.organizationDecision sur request .managePartners
  store.unlessReplayed request .partnerUpdate digest do
    let partner ← getOr .resourceUnavailable (store.partner? request partnerId)
    require (partner.aggregateVersion = expectedVersion) .versionConflict
    require (partner.lifecycle ≠ .retired) .stateConflict
    require (mayBecome partner changes) .stateConflict
    let actualChanges := changes.filter fun change => change.1.value partner ≠ change.2
    require (actualChanges ≠ []) (.invalid "changes" "Change at least one value." "charity_no_changes")
    let saved ← store.cleanPartner lib (changed partner actualChanges request.actorId)
    { store with partners := store.partners.save saved }.appendEvidence sur request none
      (some partner.id) none .partnerUpdate digest partner.id saved.aggregateVersion

/-! ## Media -/

/-- `CharityPartnerMedia.clean` -/
def cleanMedia (media : CharityPartnerMedia) : Except CharityError Unit := do
  require ((store.partners.get? media.partnerId).all fun partner =>
    partner.organizationId = media.organizationId) (.refused "charity_media_scope_mismatch")
  require (media.reviewStatus = .approved → media.publicReference ≠ "")
    (.invalid "public_reference" "An approved rendition reference is required." "invalid")

structure MediaValues where
  kind : MediaKind
  sourceReference : String
  ownerName : String
  licenseBasis : String
  usageScope : String
  attribution : String
  expiresAt : Option Int

def addCharityPartnerMedia (partnerId : Uuid) (values : MediaValues) (reason : String) :
    Except CharityError (Store × CharityCommandResult) := do
  let reason ← normalizedReason lib reason
  let sourceReference ← normalizedText lib values.sourceReference "source_reference" 1000 true
  let ownerName ← normalizedText lib values.ownerName "owner_name" 240 true true
  let licenseBasis ← normalizedText lib values.licenseBasis "license_basis" 500 true
  let usageScope ← normalizedText lib values.usageScope "usage_scope" 500 true
  let attribution ← normalizedText lib values.attribution "attribution" 500
  let digest := lib.canonicalDigest (.addMedia request.organizationId partnerId values.kind sourceReference ownerName
    licenseBasis usageScope attribution values.expiresAt reason)
  store.organizationDecision sur request .managePartners
  store.unlessReplayed request .mediaAdd digest do
    let partner ← getOr .resourceUnavailable (store.partner? request partnerId)
    require (partner.lifecycle ≠ .retired) .stateConflict
    let added : CharityPartnerMedia := {
      id := sur.newId, partnerId := partner.id, organizationId := partner.organizationId, kind := values.kind,
      sourceReference, publicReference := "", ownerName, licenseBasis, usageScope, attribution,
      expiresAt := values.expiresAt, reviewStatus := .pending, aggregateVersion := 1, submittedById := request.actorId,
      reviewedById := none, reviewedAt := none }
    store.cleanMedia added
    let media ← getOr .identityTaken (store.media.insert? added)
    { store with media }.appendEvidence sur request none (some partner.id) none .mediaAdd digest added.id 1

def media? (partnerId mediaId : Uuid) : Option CharityPartnerMedia :=
  (store.media.get? mediaId).filter fun media =>
    media.partnerId = partnerId ∧ media.organizationId = request.organizationId

/-- The row of a media reference after its review. -/
def reviewed (media : CharityPartnerMedia) (status : ReviewStatus) (publicReference : String)
    (actorId : Uuid) (now : Int) : CharityPartnerMedia :=
  { media with
    reviewStatus := status, publicReference, reviewedById := some actorId, reviewedAt := some now,
    aggregateVersion := media.aggregateVersion + 1 }

/-- The end of `_media_review_command`. -/
def saveReview (media : CharityPartnerMedia) (operation : CharityOperation) (digest : String) :
    Except CharityError (Store × CharityCommandResult) := do
  store.cleanMedia media
  { store with media := store.media.save media }.appendEvidence sur request none
    (some media.partnerId) none operation digest media.id media.aggregateVersion

def approveCharityPartnerMedia (partnerId mediaId : Uuid) (expectedVersion : Int)
    (publicReference reason : String) : Except CharityError (Store × CharityCommandResult) := do
  requireExpectedVersion expectedVersion
  let reason ← normalizedReason lib reason
  let publicReference ← normalizedText lib publicReference "public_reference" 1000 true
  let digest := lib.canonicalDigest (.reviewMedia request.organizationId partnerId mediaId expectedVersion true
    publicReference reason)
  store.organizationDecision sur request .managePartners
  store.unlessReplayed request .mediaApprove digest do
    let media ← getOr .resourceUnavailable (store.media? request partnerId mediaId)
    require (media.aggregateVersion = expectedVersion) .versionConflict
    require (media.reviewStatus = .pending) .stateConflict
    require (media.submittedById ≠ request.actorId) .independentApprovalRequired
    require (media.unexpired sur.now) .stateConflict
    store.saveReview sur request (reviewed media .approved publicReference request.actorId sur.now) .mediaApprove digest

def withdrawCharityPartnerMedia (partnerId mediaId : Uuid) (expectedVersion : Int)
    (reason : String) : Except CharityError (Store × CharityCommandResult) := do
  requireExpectedVersion expectedVersion
  let reason ← normalizedReason lib reason
  let digest := lib.canonicalDigest
    (.reviewMedia request.organizationId partnerId mediaId expectedVersion false "" reason)
  store.organizationDecision sur request .managePartners
  store.unlessReplayed request .mediaWithdraw digest do
    let media ← getOr .resourceUnavailable (store.media? request partnerId mediaId)
    require (media.aggregateVersion = expectedVersion) .versionConflict
    require (media.reviewStatus = .approved) .stateConflict
    store.saveReview sur request (reviewed media .withdrawn "" request.actorId sur.now) .mediaWithdraw digest

/-! ## Selections -/

/-- `CharitySelection.clean` and its constraints. -/
def cleanSelection (selection : CharitySelection) : Except CharityError Unit := do
  require ((store.editions.get? selection.editionId).all fun edition =>
    edition.organizationId = selection.organizationId) (.refused "charity_selection_edition_scope")
  require ((store.partners.get? selection.partnerId).all fun partner =>
    partner.organizationId = selection.organizationId) (.refused "charity_selection_partner_scope")
  require ((store.departments.get? selection.responsibleDepartmentId).all fun department =>
    department.organizationId = selection.organizationId ∧ department.editionId =
      selection.editionId ∧ !department.retired) (.refused "charity_selection_department_scope")
  require (∀ other ∈ store.selections.rows, other.editionId = selection.editionId →
    other.partnerId = selection.partnerId → other.id = selection.id) (.refused "charity_selection_edition_uq")
  require (selection.publicationState = .unpublished ∨ selection.status = .confirmed)
    (.refused "charity_publish_confirmed_only")

/-- The scope, number, actor and time that `_append_selection_timeline` gives an entry. -/
def entryOf (selection : CharitySelection) (actorId : Uuid) (now : Int) (kind : TimelineKind)
    (reason : String) : CharitySelectionTimelineEntry := {
  selectionId := selection.id, organizationId := selection.organizationId, editionId := selection.editionId,
  sequence := selection.aggregateVersion, kind, actorId, occurredAt := now, reason }

/-- `selection.save`, `_append_selection_timeline` and `_append_evidence`. -/
def saveSelection (selection : CharitySelection) (entry : CharitySelectionTimelineEntry) (operation : CharityOperation)
    (digest : String) : Except CharityError (Store × CharityCommandResult) := do
  store.cleanSelection selection
  let timeline ← getOr (.refused "charity_timeline_sequence_uq") (store.timeline.insert? entry)
  { store with selections := store.selections.save selection, timeline }.appendEvidence sur request
    (some selection.editionId) (some selection.partnerId) (some selection.id) operation digest selection.id
    selection.aggregateVersion

/-- The version of the selection that the request names, read for an update. -/
def lockedSelection (editionId selectionId : Uuid) (expectedVersion : Int)
    (department : Option Uuid) : Except CharityError CharitySelection := do
  let selection ← getOr .resourceUnavailable ((store.selection? request editionId selectionId).filter fun selection =>
    department.all fun department => selection.responsibleDepartmentId = department)
  require (selection.aggregateVersion = expectedVersion) .versionConflict
  return selection

/-- The partner of the selection is active. -/
def partnerActive (selection : CharitySelection) : Bool :=
  (store.partners.get? selection.partnerId).any fun partner => partner.lifecycle = .active

def proposeCharitySelection (editionId partnerId responsibleDepartmentId : Uuid) (reason : String) :
    Except CharityError (Store × CharityCommandResult) := do
  let reason ← normalizedReason lib reason
  let digest := lib.canonicalDigest
    (.proposeSelection request.organizationId editionId partnerId responsibleDepartmentId reason)
  store.editionDecision sur request editionId .proposeSelection
  require (store.organizations.get? request.organizationId).isSome .authorizationDenied
  let edition ← getOr .authorizationDenied (store.edition? request editionId)
  require (edition.lifecycle ≠ .archived ∧ edition.lifecycle ≠ .cancelled) .stateConflict
  store.unlessReplayed request .selectionPropose digest do
    require ((store.departments.get? responsibleDepartmentId).any fun department =>
      department.organizationId = request.organizationId ∧ department.editionId = editionId ∧ !department.retired)
      .resourceUnavailable
    let partner ← getOr .resourceUnavailable (store.partner? request partnerId)
    require (partner.lifecycle ≠ .retired) .resourceUnavailable
    let selection : CharitySelection := {
      id := sur.newId, organizationId := request.organizationId, editionId, responsibleDepartmentId,
      partnerId := partner.id, status := .proposed, publicationState := .unpublished, aggregateVersion := 1,
      publicationNumber := 0, proposedById := request.actorId, submittedAt := none, decidedAt := none,
      publishedAt := none }
    store.cleanSelection selection
    let selections ← getOr .identityTaken (store.selections.insert? selection)
    let timeline ← getOr (.refused "charity_timeline_sequence_uq") (store.timeline.insert?
      { entryOf selection request.actorId sur.now .proposed reason with toStatus := some selection.status })
    { store with selections, timeline }.appendEvidence sur request (some editionId)
      (some partner.id) (some selection.id) .selectionPropose digest selection.id 1

def submitCharitySelection (editionId selectionId : Uuid) (expectedVersion : Int)
    (reason : String) : Except CharityError (Store × CharityCommandResult) := do
  requireExpectedVersion expectedVersion
  let reason ← normalizedReason lib reason
  let digest :=
    lib.canonicalDigest (.submitSelection request.organizationId editionId selectionId expectedVersion reason)
  store.editionDecision sur request editionId .proposeSelection
  store.unlessReplayed request .selectionSubmit digest do
    let selection ← store.lockedSelection request editionId selectionId expectedVersion none
    require (selection.status = .proposed ∧ store.partnerActive selection) .stateConflict
    let saved := { selection with
      status := .submitted, submittedAt := some sur.now, aggregateVersion := selection.aggregateVersion + 1 }
    store.saveSelection sur request saved
      { entryOf saved request.actorId sur.now .status reason with
        fromStatus := some selection.status, toStatus := some saved.status }
      .selectionSubmit digest

/-- `_review_charity_selection` -/
def reviewCharitySelection (confirm : Bool) (editionId selectionId : Uuid) (expectedVersion : Int)
    (reason : String) : Except CharityError (Store × CharityCommandResult) := do
  requireExpectedVersion expectedVersion
  let reason ← normalizedReason lib reason
  let operation := if confirm then .selectionConfirm else .selectionReject
  let digest := lib.canonicalDigest
    (.reviewSelection request.organizationId editionId selectionId expectedVersion confirm reason)
  let department ← store.selectionDecision sur request editionId selectionId .reviewSelection
  store.unlessReplayed request operation digest do
    let selection ← store.lockedSelection request editionId selectionId expectedVersion (some department)
    require (selection.status = .submitted) .stateConflict
    let saved := { selection with
      status := if confirm then .confirmed else .rejected, decidedAt := some sur.now,
      aggregateVersion := selection.aggregateVersion + 1 }
    store.saveSelection sur request saved
      { entryOf saved request.actorId sur.now .status reason with
        fromStatus := some selection.status, toStatus := some saved.status }
      operation digest

def confirmCharitySelection := store.reviewCharitySelection lib sur request true

def rejectCharitySelection := store.reviewCharitySelection lib sur request false

def addCharitySelectionPrivateComment (editionId selectionId : Uuid) (expectedVersion : Int)
    (privateComment : String) : Except CharityError (Store × CharityCommandResult) := do
  requireExpectedVersion expectedVersion
  let privateComment ← normalizedPrivateComment lib privateComment
  let digest := lib.canonicalDigest
    (.commentSelection request.organizationId editionId selectionId expectedVersion privateComment)
  let department ← store.selectionDecision sur request editionId selectionId .commentSelection
  store.unlessReplayed request .selectionComment digest do
    let selection ← store.lockedSelection request editionId selectionId expectedVersion (some department)
    let saved := { selection with aggregateVersion := selection.aggregateVersion + 1 }
    store.saveSelection sur request saved
      { entryOf saved request.actorId sur.now .privateComment "" with privateComment } .selectionComment digest

/-! ## Publication -/

/-- The entry that confirmed the selection, the last one if there were several. -/
def confirmation? (selectionId : Uuid) : Option CharitySelectionTimelineEntry :=
  ((store.timelineOf selectionId).filter fun entry =>
    entry.kind = .status ∧ entry.toStatus = some .confirmed).reverse.head?

/-- The media among `mediaIds` that may be published with the selection. -/
def validMedia (selection : CharitySelection) (mediaIds : List Uuid) (now : Int) : List CharityPartnerMedia :=
  store.media.rows.filter fun media =>
    mediaIds.contains media.id ∧ media.partnerId = selection.partnerId ∧
      media.organizationId = selection.organizationId ∧ media.reviewStatus = .approved ∧ media.publicReference ≠ "" ∧
      media.unexpired now

/-- What is published of a partner. -/
def snapshotOf (selection : CharitySelection) (profile : CharityPartnerProfile)
    (mediaIds : List Uuid) (actorId : Uuid) (now : Int) : CharityPublicationSnapshot := {
  selectionId := selection.id, organizationId := selection.organizationId, editionId := selection.editionId,
  publicationNumber := selection.publicationNumber, approvedById := actorId, approvedAt := now,
  publicName := profile.publicName, imprintName := profile.imprintName, shortDescription := profile.shortDescription,
  locationName := profile.locationName, countryCode := profile.countryCode, websiteUrl := profile.websiteUrl, mediaIds }

/-- The unique identifiers, in the order of their text. -/
def normalizedMediaIds (mediaIds : List Uuid) : List Uuid := sortBy Uuid.text mediaIds.dedup

def publishCharitySelection (editionId selectionId : Uuid) (expectedVersion : Int) (mediaIds : List Uuid)
    (reason : String) : Except CharityError (Store × CharityCommandResult) := do
  requireExpectedVersion expectedVersion
  let reason ← normalizedReason lib reason
  let normalized := normalizedMediaIds mediaIds
  require (normalized.length = mediaIds.length ∧ normalized.length ≤ maxPublicMediaReferences)
    (.invalid "media_ids" "Choose a bounded set of unique approved media references." "charity_public_media_invalid")
  let digest := lib.canonicalDigest (.publishSelection request.organizationId editionId selectionId expectedVersion
    normalized reason)
  let department ← store.selectionDecision sur request editionId selectionId .publishSelection
  store.unlessReplayed request .selectionPublish digest do
    let selection ← store.lockedSelection request editionId selectionId expectedVersion (some department)
    require (selection.status = .confirmed ∧ selection.publicationState = .unpublished ∧
      store.partnerActive selection) .stateConflict
    let partner ← getOr .stateConflict (store.partners.get? selection.partnerId)
    let confirmation ← getOr .independentApprovalRequired (store.confirmation? selection.id)
    require (confirmation.actorId ≠ request.actorId) .independentApprovalRequired
    require (∀ mediaId ∈ normalized, mediaId ∈ (store.validMedia selection normalized sur.now).map (·.id)) .stateConflict
    let saved := { selection with
      publicationState := .published, publicationNumber := selection.publicationNumber + 1,
      publishedAt := some sur.now, aggregateVersion := selection.aggregateVersion + 1 }
    let snapshots ← getOr (.refused "charity_publication_number_uq")
      (store.snapshots.insert? (snapshotOf saved partner.profile normalized request.actorId sur.now))
    { store with snapshots }.saveSelection sur request saved
      { entryOf saved request.actorId sur.now .publication reason with
        fromPublicationState := some selection.publicationState, toPublicationState := some saved.publicationState }
      .selectionPublish digest

def withdrawCharitySelectionPublication (editionId selectionId : Uuid) (expectedVersion : Int)
    (reason : String) : Except CharityError (Store × CharityCommandResult) := do
  requireExpectedVersion expectedVersion
  let reason ← normalizedReason lib reason
  let digest := lib.canonicalDigest
    (.withdrawSelection request.organizationId editionId selectionId expectedVersion reason)
  let department ← store.selectionDecision sur request editionId selectionId .publishSelection
  store.unlessReplayed request .selectionWithdraw digest do
    let selection ← store.lockedSelection request editionId selectionId expectedVersion (some department)
    require (selection.publicationState = .published) .stateConflict
    let saved := { selection with
      publicationState := .unpublished, publishedAt := none, aggregateVersion := selection.aggregateVersion + 1 }
    store.saveSelection sur request saved
      { entryOf saved request.actorId sur.now .publication reason with
        fromPublicationState := some selection.publicationState, toPublicationState := some saved.publicationState }
      .selectionWithdraw digest

end Store

end Maru.Charities

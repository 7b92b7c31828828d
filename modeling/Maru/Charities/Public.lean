import Mathlib.Data.Prod.Lex
import Mathlib.Data.String.Basic
import Maru.Charities.Writes

/-!
# The public charities of an edition

`charities/queries.py`: `public_charities_for_edition`.
-/

namespace Maru.Charities

structure PublicCharityMedia where
  kind : MediaKind
  reference : String
  attribution : String

structure PublicCharity where
  selectionId : Uuid
  publicName : String
  imprintName : String
  shortDescription : String
  locationName : String
  countryCode : String
  websiteUrl : String
  media : List PublicCharityMedia

def CharityPartnerMedia.shown (media : CharityPartnerMedia) : PublicCharityMedia :=
  ⟨media.kind, media.publicReference, media.attribution⟩

/-- What a snapshot and some of its media show. -/
def CharityPublicationSnapshot.shown (snapshot : CharityPublicationSnapshot)
    (media : List PublicCharityMedia) : PublicCharity :=
  ⟨snapshot.selectionId, snapshot.publicName, snapshot.imprintName, snapshot.shortDescription,
    snapshot.locationName, snapshot.countryCode, snapshot.websiteUrl, media⟩

namespace Store

variable (store : Store) (lib : Primitives) (organizationId editionId : Uuid) (evaluatedAt : Int)

/-- The selections that the query selects. -/
def publishedSelections : List CharitySelection :=
  store.selections.rows.filter fun selection =>
    ((store.editions.get? selection.editionId).any fun edition => edition.adoptionProfile.hasCharities) ∧
      selection.organizationId = organizationId ∧ selection.editionId = editionId ∧ selection.status = .confirmed ∧
      selection.publicationState = .published ∧ 0 < selection.publicationNumber ∧ store.partnerActive selection

/-- `current_snapshots`: no two snapshots of a selection have one number. -/
def currentSnapshot? (selection : CharitySelection) : Option CharityPublicationSnapshot :=
  (store.snapshots.get? (selection.id, selection.publicationNumber)).filter fun snapshot =>
    snapshot.organizationId = organizationId ∧ snapshot.editionId = editionId

/-- `media_by_id` -/
def publicMedia? (mediaId : Uuid) : Option CharityPartnerMedia :=
  (store.media.get? mediaId).filter fun media =>
    media.organizationId = organizationId ∧ media.reviewStatus = .approved ∧
      media.unexpired evaluatedAt ∧ media.publicReference ≠ ""

/-- The name of the selection's partner, by which the selections are ordered. -/
def partnerName (selection : CharitySelection) : String :=
  lib.collation (((store.partners.get? selection.partnerId).map fun partner => partner.profile.publicName).getD "")

def projected (selection : CharitySelection) : Option PublicCharity :=
  (store.currentSnapshot? organizationId editionId selection).map fun snapshot =>
    snapshot.shown (snapshot.mediaIds.filterMap fun mediaId =>
      ((store.publicMedia? organizationId evaluatedAt mediaId).filter fun media =>
        media.partnerId = selection.partnerId).map CharityPartnerMedia.shown)

def publicCharitiesForEdition : List PublicCharity :=
  (sortBy (fun selection => toLex (store.partnerName lib selection, selection.id))
    (store.publishedSelections organizationId editionId)).filterMap
      (store.projected organizationId editionId evaluatedAt)

end Store

end Maru.Charities

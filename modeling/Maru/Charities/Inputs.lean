import Maru.Charities.Records
import Maru.Framework.Except

/-!
# Normalized inputs

`charities/inputs.py`. What the functions take from the standard library and the framework is
`Primitives`. A text that is required is not empty once it is normalized
(`normalizedText_ne_empty`).
-/

namespace Maru.Charities

def maxReasonLength : Nat := 1000

def maxCommentLength : Nat := 5000

def maxPublicMediaReferences : Nat := 24

def maxPartnerSlugLength : Nat := 80

/-- The columns of a partner that its update names. -/
inductive PartnerField
  | slug | lifecycle | legalName | imprintName | publicName | shortDescription | description | locationName
  | postalAddress | countryCode | websiteUrl | contactEmail | contactPhone
deriving DecidableEq

/-- What a request's digest is taken of. -/
inductive Payload
  | createPartner (organizationId : Uuid) (slug : String) (profile : CharityPartnerProfile) (reason : String)
  | updatePartner (organizationId partnerId : Uuid) (expectedVersion : Int)
      (changes : List (PartnerField × String)) (reason : String)
  | addMedia (organizationId partnerId : Uuid) (kind : MediaKind)
      (sourceReference ownerName licenseBasis usageScope attribution : String) (expiresAt : Option Int) (reason : String)
  | reviewMedia (organizationId partnerId mediaId : Uuid) (expectedVersion : Int) (approve : Bool)
      (publicReference reason : String)
  | proposeSelection (organizationId editionId partnerId responsibleDepartmentId : Uuid) (reason : String)
  | submitSelection (organizationId editionId selectionId : Uuid) (expectedVersion : Int) (reason : String)
  | reviewSelection (organizationId editionId selectionId : Uuid) (expectedVersion : Int)
      (confirm : Bool) (reason : String)
  | commentSelection (organizationId editionId selectionId : Uuid) (expectedVersion : Int) (privateComment : String)
  | publishSelection (organizationId editionId selectionId : Uuid) (expectedVersion : Int)
      (mediaIds : List Uuid) (reason : String)
  | withdrawSelection (organizationId editionId selectionId : Uuid) (expectedVersion : Int) (reason : String)

/-- NFC, whether a character is a control character, upper and lower case, `slugify`, the
SHA-256 of a payload's canonical JSON, what the field validators of a partner admit, and
the collation of names. -/
structure Primitives where
  nfc : String → String
  isControl : Char → Bool
  upper : String → String
  lower : String → String
  slugify : String → String
  canonicalDigest : Payload → String
  validPartner : CharityPartner → Bool
  collation : String → String

def normalizedText (lib : Primitives) (value field : String) (maximum : Nat)
    (required : Bool := false) (collapse : Bool := false) : Except CharityError String := do
  require (value.toList.all fun c => !lib.isControl c)
    (.invalid field "Control characters are not allowed." "charity_control_character")
  let stripped := strip (lib.nfc value)
  let normalized := if collapse then collapseSpace stripped else stripped
  require (required → normalized ≠ "") (.invalid field "This field is required." "charity_value_required")
  require (normalized.length ≤ maximum)
    (.invalid field s!"Ensure this value has at most {maximum} characters." "charity_value_too_long")
  return normalized

theorem normalizedText_ne_empty {lib : Primitives} {value field normalized : String} {maximum : Nat} {collapse : Bool}
    (h : normalizedText lib value field maximum true collapse = .ok normalized) : normalized ≠ "" := by
  unfold normalizedText at h
  simp only [seq_eq_ok, require_eq_ok, pure_eq_ok] at h
  obtain ⟨-, present, -, rfl⟩ := h
  exact present trivial

def normalizedReason (lib : Primitives) (value : String) : Except CharityError String :=
  normalizedText lib value "reason" maxReasonLength true true

def normalizedPrivateComment (lib : Primitives) (value : String) : Except CharityError String :=
  normalizedText lib value "private_comment" maxCommentLength true

/-- `value.strip("-")` -/
def stripDashes (value : String) : String :=
  String.ofList ((value.toList.dropWhile (· = '-')).reverse.dropWhile (· = '-')).reverse

def normalizedSlug (lib : Primitives) (value : String) (fallback : String := "") : Except CharityError String := do
  let raw ← normalizedText lib (if value = "" then fallback else value) "slug" 240 true true
  let result := stripDashes (String.ofList ((lib.slugify raw).toList.take maxPartnerSlugLength))
  require (result ≠ "") (.invalid "slug" "Enter a stable slug." "charity_slug_invalid")
  return result

def requireExpectedVersion (value : Int) : Except CharityError Unit :=
  require (1 ≤ value) (.invalid "expected_version" "Enter a positive current version."
    "charity_expected_version_invalid")

/-! ## Profiles -/

namespace PartnerField

def name : PartnerField → String
  | slug => "slug"
  | lifecycle => "lifecycle"
  | legalName => "legal_name"
  | imprintName => "imprint_name"
  | publicName => "public_name"
  | shortDescription => "short_description"
  | description => "description"
  | locationName => "location_name"
  | postalAddress => "postal_address"
  | countryCode => "country_code"
  | websiteUrl => "website_url"
  | contactEmail => "contact_email"
  | contactPhone => "contact_phone"

/-- `_PARTNER_PROFILE_LIMITS`; the slug and the lifecycle are not in the profile. -/
def limit : PartnerField → Nat
  | legalName | imprintName | locationName => 240
  | publicName => 200
  | shortDescription => 500
  | description => 5000
  | postalAddress => 1000
  | countryCode => 2
  | websiteUrl => 2000
  | contactEmail => 254
  | contactPhone => 16
  | slug | lifecycle => 0

def required (field : PartnerField) : Bool := field = legalName ∨ field = publicName

def collapse (field : PartnerField) : Bool := field ≠ description ∧ field ≠ postalAddress

/-- One value of a profile, normalized. -/
def normalized (lib : Primitives) (field : PartnerField) (value : String) : Except CharityError String := do
  let value ← normalizedText lib value field.name field.limit field.required field.collapse
  return if field = countryCode then lib.upper value else value

/-- `getattr(partner, field_name)` -/
def value (partner : CharityPartner) : PartnerField → String
  | slug => partner.slug
  | lifecycle => partner.lifecycle.value
  | legalName => partner.profile.legalName
  | imprintName => partner.profile.imprintName
  | publicName => partner.profile.publicName
  | shortDescription => partner.profile.shortDescription
  | description => partner.profile.description
  | locationName => partner.profile.locationName
  | postalAddress => partner.profile.postalAddress
  | countryCode => partner.profile.countryCode
  | websiteUrl => partner.profile.websiteUrl
  | contactEmail => partner.profile.contactEmail
  | contactPhone => partner.profile.contactPhone

/-- `setattr(partner, field_name, value)` -/
def set (partner : CharityPartner) (field : PartnerField) (value : String) : CharityPartner :=
  let profile := partner.profile
  match field with
  | slug => { partner with slug := value }
  | lifecycle => { partner with lifecycle := (Lifecycle.ofValue? value).getD partner.lifecycle }
  | legalName => { partner with profile := { profile with legalName := value } }
  | imprintName => { partner with profile := { profile with imprintName := value } }
  | publicName => { partner with profile := { profile with publicName := value } }
  | shortDescription => { partner with profile := { profile with shortDescription := value } }
  | description => { partner with profile := { profile with description := value } }
  | locationName => { partner with profile := { profile with locationName := value } }
  | postalAddress => { partner with profile := { profile with postalAddress := value } }
  | countryCode => { partner with profile := { profile with countryCode := value } }
  | websiteUrl => { partner with profile := { profile with websiteUrl := value } }
  | contactEmail => { partner with profile := { profile with contactEmail := value } }
  | contactPhone => { partner with profile := { profile with contactPhone := value } }

/-- A change of any field keeps who the partner is. -/
theorem set_keeps (partner : CharityPartner) (field : PartnerField) (value : String) :
    (field.set partner value).id = partner.id ∧ (field.set partner value).organizationId = partner.organizationId := by
  cases field <;> exact ⟨rfl, rfl⟩

end PartnerField

/-- `_normalize_profile` -/
def normalizeProfile (lib : Primitives) (profile : CharityPartnerProfile) :
    Except CharityError CharityPartnerProfile := do
  let legalName ← PartnerField.legalName.normalized lib profile.legalName
  let imprintName ← PartnerField.imprintName.normalized lib profile.imprintName
  let publicName ← PartnerField.publicName.normalized lib profile.publicName
  let shortDescription ← PartnerField.shortDescription.normalized lib profile.shortDescription
  let description ← PartnerField.description.normalized lib profile.description
  let locationName ← PartnerField.locationName.normalized lib profile.locationName
  let postalAddress ← PartnerField.postalAddress.normalized lib profile.postalAddress
  let countryCode ← PartnerField.countryCode.normalized lib profile.countryCode
  let websiteUrl ← PartnerField.websiteUrl.normalized lib profile.websiteUrl
  let contactEmail ← PartnerField.contactEmail.normalized lib profile.contactEmail
  let contactPhone ← PartnerField.contactPhone.normalized lib profile.contactPhone
  return {
    legalName, imprintName, publicName, shortDescription, description, locationName, postalAddress, countryCode,
    websiteUrl, contactEmail, contactPhone }

end Maru.Charities

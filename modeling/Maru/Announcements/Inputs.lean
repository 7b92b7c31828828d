import Mathlib.Data.Prod.Lex
import Mathlib.Data.String.Basic
import Maru.Announcements.Records
import Maru.Framework.Except
import Maru.Framework.Lists
import Maru.Framework.Text

/-!
# Announcement inputs

`announcements/inputs.py` and `announcements/contracts.py`. What the functions take from the
standard library, the framework and the database is `Primitives`.
-/

namespace Maru.Announcements

structure AnnouncementSettingsInput where
  policyName : String
  recordOwner : String
  reviewOn : Int
  confirmed : Bool
  channels : List ManualChannel
  policyUrl : String := ""
  policyDescription : String := ""

structure AnnouncementVariantInput where
  channelCode : String
  languageCode : String
  headline : String
  body : String

structure AnnouncementDraftInput where
  headline : String
  body : String
  languageCode : String
  variants : List AnnouncementVariantInput

/-- The intent that a receipt's digest is taken of. -/
inductive Intent
  | settingsUpdate (settings : AnnouncementSettingsInput) (expectedVersion : Int)
  | stopped (stopped : Bool) (expectedVersion : Int)
  | create (draft : AnnouncementDraftInput) (expectedSettingsVersion : Int)
  | revise (announcementId : Uuid) (draft : AnnouncementDraftInput) (expectedVersion expectedSettingsVersion : Int)
  | requestReview (announcementId : Uuid) (expectedVersion : Int)
  | review (announcementId revisionId : Uuid) (expectedVersion : Int) (decision : Decision) (note : String)
  | recordPublication (announcementId variantId : Uuid) (expectedVersion : Int)
      (publicationUrl : String) (publishedAt : Option Int)
  | correctPublication (announcementId reportId : Uuid) (expectedVersion : Int) (withdrawn : Bool)
      (publicationUrl : String) (publishedAt : Option Int)
  | cancel (announcementId : Uuid) (expectedVersion : Int)

/-- A row that the evidence of an announcement is made of. -/
inductive Record
  | revision (row : AnnouncementRevision)
  | variant (row : AnnouncementVariant)
  | review (row : AnnouncementReview)
  | report (row : AnnouncementPublicationReport)
  | settings (row : AnnouncementSettingsRevision)
  | receipt (row : AnnouncementCommandReceipt)

/-- NFC, whether a character is a control character or a surrogate, the links that are admitted, the
digests of a request and of a copy, the length of a draft's canonical JSON and of a row's, and the
date at an instant in a time zone. -/
structure Primitives where
  nfc : String → String
  isControl : Char → Bool
  validUrl : String → Bool
  requestDigest : Operation → Intent → String → String → String
  copyDigest : String → String → String
  textBytes : AnnouncementDraftInput → Nat
  recordBytes : Record → Nat
  dateIn : String → Int → Int

def identifier (value : Uuid) : Except AnnouncementError Uuid := do
  require (value ≠ 0) (.invalid "Select a valid record." "invalid_identifier")
  return value

def version (value : Int) (initial : Bool := false) : Except AnnouncementError Int := do
  require ((if initial then 0 else 1) ≤ value ∧ value < 2 ^ 63 - 1)
    (.invalid "Reload the page before saving." "invalid_version")
  return value

/-- `value.replace("\r\n", "\n")` -/
def unixLines : List Char → List Char
  | '\r' :: '\n' :: rest => '\n' :: unixLines rest
  | c :: rest => c :: unixLines rest
  | [] => []

variable (lib : Primitives)

def text (value : String) (maximum : Nat) (required : Bool := true) : Except AnnouncementError String := do
  let normalized := strip (lib.nfc (String.ofList (unixLines value.toList)))
  require ((required → normalized ≠ "") ∧ normalized.length ≤ maximum)
    (.invalid "Check the required text and its length." "invalid_text")
  require (normalized.toList.all fun c => !lib.isControl c || c = '\n' || c = '\t')
    (.invalid "Remove control characters." "invalid_text")
  return normalized

def safeUrl (value : String) : Except AnnouncementError String := do
  let result ← text lib value 2000 false
  require (result ≠ "" → lib.validUrl result) (.invalid "Use a link without login details." "invalid_url")
  return result

/-- `[a-z][a-z0-9_-]{0,39}` -/
def isChannelCode (value : String) : Bool :=
  match value.toList with
  | [] => false
  | c :: cs => ('a' ≤ c && c ≤ 'z') && cs.length ≤ 39 &&
      cs.all fun c => ('a' ≤ c && c ≤ 'z') || ('0' ≤ c && c ≤ '9') || c = '_' || c = '-'

def channelCode (value : String) : Except AnnouncementError String := do
  require (isChannelCode value) (.invalid "Choose a configured channel." "invalid_channel")
  return value

def normalizeChannel (channel : ManualChannel) : Except AnnouncementError ManualChannel := do
  let code ← channelCode channel.code
  let label ← text lib channel.label 100
  let url ← safeUrl lib channel.url
  return { code, label, url }

def normalizeSettings (value : AnnouncementSettingsInput) : Except AnnouncementError AnnouncementSettingsInput := do
  require value.confirmed (.invalid "Confirm the record-keeping rules." "rules_unconfirmed")
  require (1 ≤ value.channels.length ∧ value.channels.length ≤ maxChannels)
    (.invalid "Set up between one and sixteen channels." "invalid_channels")
  let channels ← value.channels.mapM (normalizeChannel lib)
  require (channels.map (·.code)).Nodup (.invalid "Each channel needs its own name." "duplicate_channel")
  let policyUrl ← safeUrl lib value.policyUrl
  let policyDescription ← text lib value.policyDescription 2000 false
  require (policyUrl ≠ "" ∨ policyDescription ≠ "")
    (.invalid "Link to or describe the record-keeping rules." "rules_missing")
  let policyName ← text lib value.policyName 200
  let recordOwner ← text lib value.recordOwner 200
  return {
    policyName, recordOwner, reviewOn := value.reviewOn, confirmed := true, channels := sortBy (·.code) channels,
    policyUrl, policyDescription }

def normalizeVariant (variant : AnnouncementVariantInput) : Except AnnouncementError AnnouncementVariantInput := do
  let code ← channelCode variant.channelCode
  let languageCode ← text lib variant.languageCode 35
  let headline ← text lib variant.headline maxHeadline
  let body ← text lib variant.body maxBody
  return { channelCode := code, languageCode, headline, body }

def normalizeDraft (value : AnnouncementDraftInput) : Except AnnouncementError AnnouncementDraftInput := do
  require (1 ≤ value.variants.length ∧ value.variants.length ≤ maxVariants)
    (.invalid "Select at least one channel and at most 32 copies." "invalid_variants")
  let variants ← value.variants.mapM (normalizeVariant lib)
  require (variants.map fun variant => (variant.channelCode, variant.languageCode)).Nodup
    (.invalid "Each channel and language needs one copy." "duplicate_variant")
  let headline ← text lib value.headline maxHeadline
  let body ← text lib value.body maxBody
  let languageCode ← text lib value.languageCode 35
  return {
    headline, body, languageCode,
    variants := sortBy (fun variant => toLex (variant.channelCode, variant.languageCode)) variants }

end Maru.Announcements

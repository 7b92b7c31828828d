import Maru.Framework.Numbered
import Maru.Registration.RegistrationMachine

/-!
# Accreditation records

Credentials with their events, the manifests that relay devices work from while they are
offline, the operations the devices report, and the records of arrivals. What a command reads
of other owners comes with it.
-/

namespace Maru.Accreditation

open Registration (RegistrationError)

/-! ## Credentials -/

/-- `Credential.Status`. -/
inductive CredentialStatus
  | issued | replaced | revoked
  deriving DecidableEq

structure Credential where
  id : Uuid
  registrationId : Uuid
  organizationId : Uuid
  editionId : Uuid
  accountId : Uuid
  publicId : String
  tokenDigest : String
  status : CredentialStatus
  issueSequence : Nat
  labelSnapshot : String
  issuedAt : Int
  issuedById : Uuid
  revokedAt : Option Int
  revokedById : Option Uuid
  revocationReason : String

/-- `CredentialEvent.Kind`, of the events that are written. -/
inductive EventKind
  | issued | reprinted | revoked | verified
  deriving DecidableEq

structure CredentialEvent where
  credentialId : Uuid
  kind : EventKind
  occurredAt : Int
  actorKind : String
  actorId : Option Uuid
  reasonCode : String

/-! ## The relay -/

structure RelayDevice where
  id : Uuid
  organizationId : Uuid
  editionId : Uuid
  code : String
  signingSecretEnvVar : String
  enabled : Bool
  lastSequence : Nat
  revokedAt : Option Int

/-- A row of `payload["credentials"]` of a manifest. -/
structure ListedCredential where
  publicId : String
  tokenDigest : String
  deriving DecidableEq

/-- `OfflineCredentialManifest`; `credentials` is what its payload lists. -/
structure OfflineCredentialManifest where
  organizationId : Uuid
  editionId : Uuid
  sequence : Nat
  validFrom : Int
  validUntil : Int
  generatedAt : Int
  generatedById : Uuid
  credentialCount : Nat
  credentials : List ListedCredential
  payloadDigest : String
  signature : String

/-- `OfflineCheckInOperation.Outcome`. -/
inductive Outcome
  | applied | duplicate | conflict | rejected
  deriving DecidableEq

structure OfflineCheckInOperation where
  deviceId : Uuid
  organizationId : Uuid
  editionId : Uuid
  operationId : Uuid
  deviceSequence : Nat
  manifestSequence : Nat
  credentialPublicId : String
  occurredAt : Int
  receivedAt : Int
  outcome : Outcome
  safeResultCode : String
  credentialId : Option Uuid

/-- `CheckInRecord`, one at most for each registration. -/
structure CheckInRecord where
  registrationId : Uuid
  organizationId : Uuid
  editionId : Uuid
  actorId : Uuid
  checkedInAt : Int
  method : String
  reason : String

/-! ## Tables -/

def OfflineCredentialManifest.key (m : OfflineCredentialManifest) : Uuid × Nat := (m.editionId, m.sequence)

def OfflineCheckInOperation.key (o : OfflineCheckInOperation) : Uuid × Uuid := (o.deviceId, o.operationId)

structure Tables where
  credentials : Table Credential.id
  events : List CredentialEvent
  devices : Table RelayDevice.id
  manifests : Table OfflineCredentialManifest.key
  operations : Table OfflineCheckInOperation.key
  checkIns : Table CheckInRecord.registrationId

/-! ## What a command reads of other owners -/

inductive Capability
  | issue | revoke | manageOffline
  deriving DecidableEq

structure Surroundings extends Registration.Surroundings where
  /-- `decide` allows the capability to an account in the organization and edition. -/
  decideAccreditation : Uuid → Capability → Uuid → Uuid → Bool
  /-- The organization's edition is there, and its profile pins the relay adapter. -/
  allowsOfflineCheckInRelay : Uuid → Uuid → Bool
  /-- The edition's profile pins the adapter for the credential consequences of restrictions. -/
  restrictsCredentials : Uuid → Bool
  offlineManifestSecret : String
  /-- `os.environ.get(name, "")`. -/
  environ : String → String

def Surroundings.requireAccreditation (w : Surroundings) (actorId : Uuid) (capability : Capability)
    (organizationId editionId : Uuid) : Except RegistrationError Unit :=
  require (w.decideAccreditation actorId capability organizationId editionId : Prop)
    (.denied "Accreditation operation is unavailable.")

/-- Besides what registration takes from the standard library: the keyed digests of a credential
token and of a text, and the text of an instant. -/
structure Primitives extends Registration.Primitives where
  credentialDigest : String → String
  hmac : String → String → String
  isoformat : Int → String

end Maru.Accreditation

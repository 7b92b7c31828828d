import Maru.Accreditation.Records

/-!
# Credential commands

Issuing a credential in the place of the one a registration has, revoking one, revoking those
that an account restriction names, and the manifest of the credentials of an edition.
-/

namespace Maru.Accreditation

open Registration (Admissions RegistrationError Registration)

/-! ## Writing credentials -/

/-- The credential once it is no longer issued. -/
def Credential.ended (c : Credential) (status : CredentialStatus) (endedAt : Int) (actorId : Uuid)
    (reason : String) : Credential :=
  { c with status, revokedAt := some endedAt, revokedById := some actorId, revocationReason := reason }

/-- `Credential.save` with `maru_guard_credential_state`. No other column is ever written. -/
def Tables.saveCredential (t : Tables) (c : Credential) : Except RegistrationError Tables := do
  require (c.revocationReason.length ≤ 500) (.invalid "revocation_reason" "max_length"
    s!"Ensure this value has at most 500 characters (it has {c.revocationReason.length}).")
  let old ← getOr (.missing "Credential") (t.credentials.get? c.id)
  require (old.status = .issued ∧ c.status ≠ .issued ∧ c.revokedAt.isSome ∧ c.revokedById.isSome ∧
    c.revocationReason ≠ "") (.guard "invalid credential transition")
  return { t with credentials := t.credentials.save c }

def Tables.createCredential (t : Tables) (r : Registration) (c : Credential) :
    Except RegistrationError Tables := do
  require (r.organizationId = c.organizationId ∧ r.editionId = c.editionId ∧ r.accountId = c.accountId)
    (.invalid "__all__" "credential_scope_mismatch" "Credential scope must match the registration.")
  require (¬ t.credentials.rows.any fun d => d.tokenDigest = c.tokenDigest)
    (.invalid "token_digest" "unique" "Credential with this Token digest already exists.")
  require (¬ t.credentials.rows.any fun d => d.editionId = c.editionId ∧ d.publicId = c.publicId)
    (.invalid "__all__" "unique_together" "credential_public_id_unique")
  require (¬ t.credentials.rows.any fun d =>
      d.registrationId = c.registrationId ∧ d.issueSequence = c.issueSequence)
    (.invalid "__all__" "unique_together" "credential_issue_sequence_unique")
  require (¬ t.credentials.rows.any fun d => d.registrationId = c.registrationId ∧ d.status = .issued)
    (.invalid "__all__" "unique" "one_active_credential_per_registration")
  let credentials ← getOr (.integrity "accreditation_credential_pkey") (t.credentials.insert? c)
  return { t with credentials := credentials }

def Tables.appendEvent (t : Tables) (e : CredentialEvent) : Tables :=
  { t with events := t.events ++ [e] }

/-! ## Issuing -/

structure IssueRequest where
  organizationId : Uuid
  editionId : Uuid
  registrationId : Uuid
  actorId : Uuid
  reason : String

/-- What is drawn for a credential. -/
structure CredentialDraw where
  id : Uuid
  rawToken : String
  publicId : String

/-- The credential that is current for a registration. -/
def Tables.current (t : Tables) (registrationId : Uuid) : Option Credential :=
  t.credentials.rows.find? fun c => c.registrationId = registrationId ∧ c.status = .issued

def newCredential (P : Primitives) (draw : CredentialDraw) (r : Registration) (issueSequence : Nat)
    (issuedAt : Int) (actorId : Uuid) : Credential :=
  { id := draw.id, registrationId := r.id, organizationId := r.organizationId, editionId := r.editionId,
    accountId := r.accountId, publicId := draw.publicId, tokenDigest := P.credentialDigest draw.rawToken,
    status := .issued, issueSequence, labelSnapshot := r.productNameSnapshot, issuedAt, issuedById := actorId,
    revokedAt := none, revokedById := none, revocationReason := "" }

/-- The current credential of the registration is replaced. -/
def Tables.replaceCurrent (t : Tables) (registrationId : Uuid) (issuedAt : Int) (actorId : Uuid)
    (reason : String) : Except RegistrationError (Tables × EventKind) :=
  match t.current registrationId with
  | none => return (t, .issued)
  | some current => do
    let t ← t.saveCredential (current.ended .replaced issuedAt actorId reason)
    return (t, .reprinted)

def issueCredential (P : Primitives) (a : Admissions) (t : Tables) (w : Surroundings) (issuedAt : Int)
    (x : IssueRequest) (draw : CredentialDraw) : Except RegistrationError (Tables × Credential) := do
  w.requireAccreditation x.actorId .issue x.organizationId x.editionId
  let reason := strip x.reason
  require (reason ≠ "") (.invalid "__all__" "credential_issue_reason_required"
    "Credential issuance requires a reason.")
  let r ← a.lockRegistration x.organizationId x.editionId x.registrationId
  require ((r.state = .confirmed ∨ r.state = .checkedIn) ∧
      a.entitlements.rows.any fun e => e.registrationId = r.id ∧ e.active)
    (.invalid "__all__" "credential_entitlement_required" "An active admission entitlement is required.")
  let nextSequence := latestNumber Credential.registrationId Credential.issueSequence t.credentials.rows r.id + 1
  let (t, kind) ← t.replaceCurrent r.id issuedAt x.actorId reason
  let credential := newCredential P draw r nextSequence issuedAt x.actorId
  let t ← t.createCredential r credential
  return (t.appendEvent ⟨credential.id, kind, issuedAt, "account", some x.actorId, "credential_issued"⟩, credential)

/-! ## Revoking -/

def revokeCredential (t : Tables) (w : Surroundings) (revokedAt : Int)
    (organizationId editionId credentialId actorId : Uuid) (reason : String) :
    Except RegistrationError (Tables × Credential) := do
  w.requireAccreditation actorId .revoke organizationId editionId
  let normalized := strip reason
  require (normalized ≠ "") (.invalid "__all__" "credential_revoke_reason_required"
    "Credential revocation requires a reason.")
  let c ← getOr (.missing "Credential") (t.credentials.rows.find? fun c =>
    c.id = credentialId ∧ c.organizationId = organizationId ∧ c.editionId = editionId)
  if c.status ≠ .issued then return (t, c) else do
    let c := c.ended .revoked revokedAt actorId normalized
    let t ← t.saveCredential c
    return (t.appendEvent ⟨c.id, .revoked, revokedAt, "account", some actorId, "credential_revoked"⟩, c)

/-- The credentials that a restriction of an account names. -/
def Tables.restricted (t : Tables) (a : Admissions) (w : Surroundings)
    (organizationId accountId : Uuid) (editionId : Option Uuid) : List Credential :=
  t.credentials.rows.filter fun c => c.organizationId = organizationId ∧ c.status = .issued ∧
    editionId.all (c.editionId = ·) ∧
    (a.registrations.get? c.registrationId).any fun r => r.accountId = accountId ∧ w.restrictsCredentials r.editionId

def revokeEach (changedAt : Int) (actorId : Uuid) (attendeeMessage : String) :
    List Credential → Tables → Except RegistrationError Tables
  | [], t => return t
  | c :: cs, t => do
    let t ← t.saveCredential (c.ended .revoked changedAt actorId attendeeMessage)
    revokeEach changedAt actorId attendeeMessage cs
      (t.appendEvent ⟨c.id, .revoked, changedAt, "account", some actorId, "account_restriction"⟩)

/-- What a restriction of attendance or of credentials does to the credentials. -/
def restrictCredentials (a : Admissions) (t : Tables) (w : Surroundings) (changedAt : Int)
    (organizationId accountId : Uuid) (editionId : Option Uuid) (actorId : Uuid) (attendeeMessage : String) :
    Except RegistrationError Tables :=
  revokeEach changedAt actorId attendeeMessage (t.restricted a w organizationId accountId editionId) t

/-! ## Manifests -/

def manifestLifetime : Int := Calendar.minutes (12 * 60)

/-- The issued credentials of an edition whose registrations are admitted, by
their public identifier. -/
def Tables.listed (t : Tables) (a : Admissions) (organizationId editionId : Uuid) :
    List ListedCredential :=
  ((t.credentials.rows.filter fun c => c.organizationId = organizationId ∧ c.editionId = editionId ∧
    c.status = .issued ∧ (a.registrations.get? c.registrationId).any fun r =>
      r.state = .confirmed ∨ r.state = .checkedIn).map fun c =>
        ⟨c.publicId, c.tokenDigest⟩).insertionSort (·.publicId ≤ ·.publicId)

def manifestPayload (P : Primitives) (editionId : Uuid) (sequence : Nat)
    (validFrom validUntil : Int) (credentials : List ListedCredential) : Json :=
  .obj [("credentials", .arr (credentials.map fun c =>
      .obj [("public_id", .str c.publicId), ("token_digest", .str c.tokenDigest)])),
    ("edition_id", .str editionId.text), ("sequence", .int sequence), ("valid_from", .str (P.isoformat validFrom)),
    ("valid_until", .str (P.isoformat validUntil))]

def generateOfflineManifest (P : Primitives) (a : Admissions) (t : Tables) (w : Surroundings)
    (generatedAt : Int) (organizationId editionId actorId : Uuid) :
    Except RegistrationError (Tables × OfflineCredentialManifest) := do
  w.requireAccreditation actorId .manageOffline organizationId editionId
  require (w.offlineManifestSecret ≠ "") (.invalid "__all__" "offline_manifest_signing_unavailable"
    "Offline manifest signing is not configured.")
  let sequence :=
    latestNumber OfflineCredentialManifest.editionId OfflineCredentialManifest.sequence t.manifests.rows editionId + 1
  let credentials := t.listed a organizationId editionId
  let validUntil := generatedAt + manifestLifetime
  let payload := manifestPayload P editionId sequence generatedAt validUntil credentials
  let manifest : OfflineCredentialManifest :=
    { organizationId, editionId, sequence, validFrom := generatedAt, validUntil, generatedAt, generatedById := actorId,
      credentialCount := credentials.length, credentials, payloadDigest := P.canonicalDigest payload,
      signature := P.hmac w.offlineManifestSecret payload.dumps }
  let manifests ← getOr (.invalid "__all__" "unique_together" "offline_manifest_sequence_unique")
    (t.manifests.insert? manifest)
  return ({ t with manifests := manifests }, manifest)

end Maru.Accreditation

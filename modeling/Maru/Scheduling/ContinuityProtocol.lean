import Maru.Framework.Except
import Maru.Framework.IsoFormat
import Maru.Framework.JsonBytes

/-!
# The signed continuity package

`scheduling/continuity_protocol.py`: a manifest that binds a payload, its wire form, the
signature over it and its verification. Every refusal here is `invalid`; the known state
adds `superseded`.

A package is read as UTF-8. `json.loads` would take other encodings too, and a byte order
mark, but its result is written again as UTF-8 and compared with what was read, so nothing
else is accepted. The types of the fields, which the source checks when it writes the
decoded manifest again, are checked here when a field is read.
-/

namespace Maru.Scheduling

open Calendar

def continuityContract : String := "scheduling.programme-continuity@1"

def maxContinuityPayloadBytes : Nat := 8 * 1024 * 1024

def maxContinuityPackageBytes : Nat := 12 * 1024 * 1024

/-- `timedelta(hours=4)`. -/
def maxContinuityAge : Nat := 4 * 3600 * microsPerSecond

def maxContinuityTrustKeys : Nat := 8

def maxContinuityCheckpointBytes : Nat := 4096

def maxDateText : Nat := 40

def maxZoneText : Nat := 100

def ed25519PublicBytes : Nat := 32

def ed25519SignatureBytes : Nat := 64

def signatureDomain : ByteArray := "Maru Programme read-only continuity v1\x00".toByteArray

/-- `[A-Za-z0-9_-]{1,64}` -/
def IsKeyId (s : String) : Prop :=
  1 ≤ s.length ∧ s.length ≤ 64 ∧
    s.toList.all fun c => ('A' ≤ c ∧ c ≤ 'Z') ∨ ('a' ≤ c ∧ c ≤ 'z') ∨ ('0' ≤ c ∧ c ≤ '9') ∨ c = '_' ∨ c = '-'

instance : DecidablePred IsKeyId := fun _ => inferInstanceAs (Decidable (_ ∧ _))

/-- `[0-9a-f]{64}` -/
def IsDigest (s : String) : Prop :=
  s.length = 64 ∧ s.toList.all fun c => ('0' ≤ c ∧ c ≤ '9') ∨ ('a' ≤ c ∧ c ≤ 'f')

instance : DecidablePred IsDigest := fun _ => inferInstanceAs (Decidable (_ ∧ _))

def layerNames : List String := ["technical", "accessibility", "media", "staffing"]

def releaseStates : List String := ["available", "absent", "withdrawn", "invalidated", "unobserved", "unadopted"]

inductive ContinuityError where
  | invalid
  | superseded
  deriving DecidableEq

/-- Expected disclosure context. -/
structure ContinuityScope where
  organizationId : Uuid
  editionId : Uuid
  audience : String
  actorId : Option Uuid
  kind : String
  targetId : Option Uuid
  layers : List String
  deriving DecidableEq

/-- Signed source observation and payload binding. -/
structure ContinuityManifest where
  scope : ContinuityScope
  keyId : String
  observedAt : DateTime
  issuedAt : DateTime
  expiresAt : DateTime
  zoneName : String
  releaseState : String
  pointerVersion : Option Int
  releaseId : Option Uuid
  payloadSha256 : String
  deriving DecidableEq

/-- A key that an operator trusts for one edition. -/
structure ContinuityTrustKey where
  organizationId : Uuid
  editionId : Uuid
  keyId : String
  publicKey : ByteArray
  notBefore : DateTime
  notAfter : DateTime

structure VerifiedContinuityPackage where
  manifest : ContinuityManifest
  payload : ByteArray
  checkpoint : ByteArray

/-- What the protocol uses of code outside the repository: Ed25519 keys, SHA-256 in
hexadecimal, the time zones that exist, and the text of a float. -/
structure Library where
  PrivateKey : Type
  publicKey : PrivateKey → ByteArray
  sign : PrivateKey → ByteArray → ByteArray
  verify : ByteArray → ByteArray → ByteArray → Bool
  sha256 : ByteArray → String
  zoneInfo : String → Bool
  floatRepr : String → String

/-- A signature is 64 bytes and a public key 32, and a key's signature verifies under it. -/
structure Library.Lawful (lib : Library) : Prop where
  size_publicKey : ∀ key, (lib.publicKey key).size = ed25519PublicBytes
  size_sign : ∀ key data, (lib.sign key data).size = ed25519SignatureBytes
  verify_sign : ∀ key data, lib.verify (lib.publicKey key) (lib.sign key data) data = true

/-! ## Reading fields -/

/-- `_utc` -/
def utc (value : DateTime) : Except ContinuityError DateTime := getOr .invalid value.toUtc

/-- The members of an object that has just these keys. `keys` are in increasing order, as
the members of an object are. -/
def objectWith (keys : List String) : Json → Except ContinuityError (List (String × Json))
  | .obj members => do
    require (members.map Prod.fst = keys) .invalid
    return members
  | _ => throw .invalid

def field (key : String) (members : List (String × Json)) : Except ContinuityError Json :=
  getOr .invalid (Json.get? key members)

def string : Json → Except ContinuityError String
  | .str s => return s
  | _ => throw .invalid

def strings : List Json → Except ContinuityError (List String)
  | [] => return []
  | value :: values => do
    let s ← string value
    let rest ← strings values
    return s :: rest

def array : Json → Except ContinuityError (List Json)
  | .arr values => return values
  | _ => throw .invalid

def optionalInt : Json → Except ContinuityError (Option Int)
  | .null => return none
  | .int n => return some n
  | _ => throw .invalid

/-- `_uuid` -/
def uuid : Json → Except ContinuityError Uuid
  | .str value => do
    let result ← getOr .invalid (Uuid.ofText? value)
    require (result.text = value ∧ result.val ≠ 0) .invalid
    return result
  | _ => throw .invalid

/-- `_uuid` with `optional=True` -/
def optionalUuid : Json → Except ContinuityError (Option Uuid)
  | .null => return none
  | value => do
    let result ← uuid value
    return some result

/-- `_date` -/
def date : Json → Except ContinuityError DateTime
  | .str value => do
    require (value.length ≤ maxDateText) .invalid
    let parsed ← getOr .invalid (fromIsoformat value)
    let result ← utc parsed
    require (result.isoformat = value) .invalid
    return result
  | _ => throw .invalid

/-- `_canonical` -/
def canonical (value : Json) : Except ContinuityError ByteArray := do
  require value.finite .invalid
  return value.encode

/-- `_json` -/
def json (floatRepr : String → String) (data : ByteArray) (fields : List String) (maximum : Nat) :
    Except ContinuityError (List (String × Json)) := do
  require (0 < data.size ∧ data.size ≤ maximum) .invalid
  let text ← getOr .invalid (String.fromUTF8? data)
  let result ← getOr .invalid (Json.loads floatRepr text)
  let members ← objectWith fields result
  let again ← canonical result
  require (again = data) .invalid
  return members

/-! ## The manifest -/

def ContinuityScope.Valid (scope : ContinuityScope) : Prop :=
  scope.organizationId.val ≠ 0 ∧ scope.editionId.val ≠ 0 ∧
    (scope.layers.length ≤ layerNames.length ∧ scope.layers.Pairwise (· < ·) ∧
      ∀ layer ∈ scope.layers, layer ∈ layerNames) ∧
    (if scope.audience = "public" then
      scope.kind = "public" ∧ scope.actorId = none ∧ scope.targetId = none
    else if scope.audience = "exact_person" then
      scope.kind = "personal" ∧ scope.actorId.isSome ∧ scope.targetId = none
    else if scope.audience = "private_operator" then
      (scope.kind = "room" ∨ scope.kind = "department" ∨ scope.kind = "edition") ∧ scope.actorId.isSome ∧
        scope.targetId.isSome ∧ (scope.kind ≠ "edition" ∨ scope.targetId = some scope.editionId)
    else False) ∧
    (scope.audience = "private_operator" ∨ scope.layers = []) ∧
    scope.actorId.all (·.val ≠ 0) ∧ scope.targetId.all (·.val ≠ 0)

instance : DecidablePred ContinuityScope.Valid := fun _ => by
  unfold ContinuityScope.Valid
  infer_instance

/-- `str(value) if value else None` -/
def optionalText (value : Option Uuid) : Json := (value.map fun u => Json.str u.text).getD .null

def ContinuityScope.json (scope : ContinuityScope) : Json :=
  .obj [("actor_id", optionalText scope.actorId), ("audience", .str scope.audience),
    ("edition_id", .str scope.editionId.text), ("kind", .str scope.kind), ("layers", .arr (scope.layers.map .str)),
    ("organization_id", .str scope.organizationId.text), ("target_id", optionalText scope.targetId)]

/-- `_scope_document` -/
def scopeDocument (scope : ContinuityScope) : Except ContinuityError Json := do
  require scope.Valid .invalid
  return scope.json

/-- `_validate_release_state` -/
def ValidReleaseState (audience state : String) (pointer : Option Int) (release : Option Uuid) : Prop :=
  state ∈ releaseStates ∧
    if state = "unobserved" ∨ state = "unadopted" then audience = "exact_person" ∧ pointer = none ∧ release = none
    else
      pointer.isSome ∧ (∀ p ∈ pointer, 0 ≤ p ∧ p ≤ 2 ^ 63 - 1) ∧
        if state = "absent" then pointer = some 0 ∧ release = none
        else if state = "withdrawn" then (∀ p ∈ pointer, 0 < p) ∧ release = none
        else (∀ p ∈ pointer, 0 < p) ∧ release.isSome ∧ release.all (·.val ≠ 0)

instance (audience state : String) (pointer : Option Int) (release : Option Uuid) :
    Decidable (ValidReleaseState audience state pointer release) := by
  unfold ValidReleaseState
  infer_instance

/-- The times of a manifest in UTC. -/
def validTimes (observed issued expires : DateTime) : Prop :=
  -- `observed + MAX_CONTINUITY_AGE` past the last date-time is an `OverflowError`.
  observed.wall ≤ issued.wall ∧ issued.wall < expires.wall ∧ observed.wall + maxContinuityAge < maxMicros ∧
    expires.wall ≤ observed.wall + maxContinuityAge ∧ (issued.wall - observed.wall : Int) ≤ minutes 5

instance (observed issued expires : DateTime) : Decidable (validTimes observed issued expires) :=
  inferInstanceAs (Decidable (_ ∧ _))

def ContinuityManifest.json (manifest : ContinuityManifest) (scope : Json) (observed issued expires : DateTime) : Json :=
  .obj [("contract", .str continuityContract), ("expires_at", .str expires.isoformat),
    ("issued_at", .str issued.isoformat), ("key_id", .str manifest.keyId), ("observed_at", .str observed.isoformat),
    ("payload_sha256", .str manifest.payloadSha256),
    ("pointer_version", (manifest.pointerVersion.map Json.int).getD .null),
    ("release_id", optionalText manifest.releaseId), ("release_state", .str manifest.releaseState),
    ("scope", scope), ("zone_name", .str manifest.zoneName)]

/-- `_manifest_document` -/
def manifestDocument (lib : Library) (manifest : ContinuityManifest) : Except ContinuityError Json := do
  let scope ← scopeDocument manifest.scope
  let observed ← utc manifest.observedAt
  let issued ← utc manifest.issuedAt
  let expires ← utc manifest.expiresAt
  require (validTimes observed issued expires) .invalid
  require (IsKeyId manifest.keyId) .invalid
  require (IsDigest manifest.payloadSha256) .invalid
  require (1 ≤ manifest.zoneName.length ∧ manifest.zoneName.length ≤ maxZoneText) .invalid
  require (lib.zoneInfo manifest.zoneName) .invalid
  require (ValidReleaseState manifest.scope.audience manifest.releaseState manifest.pointerVersion
    manifest.releaseId) .invalid
  return manifest.json scope observed issued expires

def scopeKeys : List String :=
  ["actor_id", "audience", "edition_id", "kind", "layers", "organization_id", "target_id"]

def manifestKeys : List String :=
  ["contract", "expires_at", "issued_at", "key_id", "observed_at", "payload_sha256",
    "pointer_version", "release_id", "release_state", "scope", "zone_name"]

/-- The scope that `_decode_manifest` reads. -/
def decodeScope (value : Json) : Except ContinuityError ContinuityScope := do
  let scope ← objectWith scopeKeys value
  let layers ← field "layers" scope >>= array >>= strings
  let organizationId ← field "organization_id" scope >>= uuid
  let editionId ← field "edition_id" scope >>= uuid
  let audience ← field "audience" scope >>= string
  let actorId ← field "actor_id" scope >>= optionalUuid
  let kind ← field "kind" scope >>= string
  let targetId ← field "target_id" scope >>= optionalUuid
  return { organizationId, editionId, audience, actorId, kind, targetId, layers }

/-- `_decode_manifest` -/
def decodeManifest (lib : Library) (value : Json) : Except ContinuityError ContinuityManifest := do
  let members ← objectWith manifestKeys value
  let contract ← field "contract" members
  require (contract = .str continuityContract) .invalid
  let scope ← field "scope" members >>= decodeScope
  let keyId ← field "key_id" members >>= string
  let observedAt ← field "observed_at" members >>= date
  let issuedAt ← field "issued_at" members >>= date
  let expiresAt ← field "expires_at" members >>= date
  let zoneName ← field "zone_name" members >>= string
  let releaseState ← field "release_state" members >>= string
  let pointerVersion ← field "pointer_version" members >>= optionalInt
  let releaseId ← field "release_id" members >>= optionalUuid
  let payloadSha256 ← field "payload_sha256" members >>= string
  let result : ContinuityManifest :=
    { scope, keyId, observedAt, issuedAt, expiresAt, zoneName, releaseState, pointerVersion, releaseId, payloadSha256 }
  let document ← manifestDocument lib result
  require (document = value) .invalid
  return result

/-! ## Signatures -/

/-- `_base64` -/
def base64 (value : Json) (maximum : Nat) : Except ContinuityError ByteArray := do
  let text ← string value
  require (text.length ≤ 4 * ((maximum + 2) / 3)) .invalid
  let decoded ← getOr .invalid (Base64.b64decode text)
  require (decoded.size ≤ maximum ∧ Base64.b64encode decoded = text) .invalid
  return decoded

def ContinuityTrustKey.identity (key : ContinuityTrustKey) : Uuid × Uuid × String :=
  (key.organizationId, key.editionId, key.keyId)

def ContinuityManifest.identity (manifest : ContinuityManifest) : Uuid × Uuid × String :=
  (manifest.scope.organizationId, manifest.scope.editionId, manifest.keyId)

/-- The checks of one trusted key. -/
def ContinuityTrustKey.check (key : ContinuityTrustKey) : Except ContinuityError Unit := do
  require (key.organizationId.val ≠ 0 ∧ key.editionId.val ≠ 0 ∧ IsKeyId key.keyId ∧
    key.publicKey.size = ed25519PublicBytes) .invalid
  let notBefore ← utc key.notBefore
  let notAfter ← utc key.notAfter
  require (notBefore.wall < notAfter.wall) .invalid

/-- What a signature covers. -/
def signedBytes (document : Json) : Except ContinuityError ByteArray := do
  let body ← canonical document
  return signatureDomain ++ body

/-- `_trusted_signature` -/
def trustedSignature (lib : Library) (manifest : ContinuityManifest) (signature : ByteArray)
    (trust : List ContinuityTrustKey) : Except ContinuityError Unit := do
  require (1 ≤ trust.length ∧ trust.length ≤ maxContinuityTrustKeys) .invalid
  trust.forM ContinuityTrustKey.check
  require (trust.map ContinuityTrustKey.identity).Nodup .invalid
  match trust.filter (·.identity = manifest.identity) with
  | [key] => do
    require (signature.size = ed25519SignatureBytes) .invalid
    let notBefore ← utc key.notBefore
    let notAfter ← utc key.notAfter
    let issued ← utc manifest.issuedAt
    let expires ← utc manifest.expiresAt
    require (notBefore.wall ≤ issued.wall ∧ issued.wall < notAfter.wall ∧ expires.wall ≤ notAfter.wall) .invalid
    let document ← manifestDocument lib manifest
    let data ← signedBytes document
    require (lib.verify key.publicKey signature data) .invalid
  | _ => throw .invalid

/-! ## Packages -/

/-- The canonical package of a manifest document, a payload and a signature. -/
def envelope (document : Json) (payload signature : ByteArray) : Json :=
  .obj [("manifest", document), ("payload", .str (Base64.b64encode payload)),
    ("signature", .str (Base64.b64encode signature))]

def signContinuityPackage (lib : Library) (payload : ByteArray) (manifest : ContinuityManifest)
    (key : lib.PrivateKey) : Except ContinuityError ByteArray := do
  let document ← manifestDocument lib manifest
  require (0 < payload.size ∧ payload.size ≤ maxContinuityPayloadBytes ∧
    lib.sha256 payload = manifest.payloadSha256) .invalid
  let data ← signedBytes document
  canonical (envelope document payload (lib.sign key data))

def packageKeys : List String := ["manifest", "payload", "signature"]

def checkpointKeys : List String := ["manifest", "signature"]

/-- The signed manifest and its signature, as they are kept of a package. -/
def checkpointJson (document signature : Json) : Json := .obj [("manifest", document), ("signature", signature)]

def verifyContinuityPackage (lib : Library) (package : ByteArray) (expectedScope : ContinuityScope)
    (trust : List ContinuityTrustKey) (now : DateTime) : Except ContinuityError VerifiedContinuityPackage := do
  let _ ← scopeDocument expectedScope
  let document ← json lib.floatRepr package packageKeys maxContinuityPackageBytes
  let manifestValue ← field "manifest" document
  let manifest ← decodeManifest lib manifestValue
  require (manifest.scope = expectedScope) .invalid
  let signatureValue ← field "signature" document
  let signature ← base64 signatureValue ed25519SignatureBytes
  trustedSignature lib manifest signature trust
  let issued ← utc manifest.issuedAt
  let now ← utc now
  let expires ← utc manifest.expiresAt
  require (issued.wall ≤ now.wall ∧ now.wall < expires.wall) .invalid
  let payload ← field "payload" document >>= (base64 · maxContinuityPayloadBytes)
  require (payload.size ≠ 0 ∧ lib.sha256 payload = manifest.payloadSha256) .invalid
  let checkpoint ← canonical (checkpointJson manifestValue signatureValue)
  return { manifest, payload, checkpoint }

end Maru.Scheduling

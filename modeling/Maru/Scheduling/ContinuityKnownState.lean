import Maru.Framework.Machine
import Maru.Scheduling.ContinuityRoundTrip

/-!
# Continuity against the known state

`scheduling/continuity_known_state.py`: a verifier keeps the checkpoint of the last package
it accepted, the checkpoint of the last one that had a release pointer, and the time of the
last verification. A package is accepted only if it is not older than they are.
-/

namespace Maru.Scheduling

open Calendar

def continuityKnownStateContract : String := "scheduling.programme-continuity-known-state@1"

def maxKnownStateBytes : Nat := 2 * maxContinuityCheckpointBytes + 1024

def signatureBytes : Nat := 64

/-- `replace(scope, layers=())` -/
def ContinuityScope.purpose (scope : ContinuityScope) : ContinuityScope := { scope with layers := [] }

/-- `_checkpoint` -/
def checkpoint (lib : Library) (value : Json) (expectedScope : ContinuityScope)
    (trust : List ContinuityTrustKey) : Except ContinuityError ContinuityManifest := do
  let bytes ← canonical value
  let data ← json lib.floatRepr bytes checkpointKeys maxContinuityCheckpointBytes
  let manifest ← field "manifest" data >>= decodeManifest lib
  require (manifest.scope.purpose = expectedScope.purpose) .invalid
  let signature ← field "signature" data >>= (base64 · signatureBytes)
  trustedSignature lib manifest signature trust
  return manifest

/-- What `_known` returns. -/
structure KnownState where
  document : List (String × Json)
  latest : ContinuityManifest
  highWater : Option ContinuityManifest

def knownStateKeys : List String := ["contract", "last_verified_at", "latest", "release_high_water"]

/-- The checkpoint that `release_high_water` is, if there is one. -/
def highWaterCheckpoint (lib : Library) (value : Json) (expectedScope : ContinuityScope)
    (trust : List ContinuityTrustKey) : Except ContinuityError (Option ContinuityManifest) :=
  if value = .null then return none
  else do
    let manifest ← checkpoint lib value expectedScope trust
    return some manifest

/-- The checks of the high water mark beside the latest manifest. -/
def checkHighWater (latest : ContinuityManifest) : Option ContinuityManifest → Except ContinuityError Unit
  | none => require (latest.pointerVersion = none) .invalid
  | some highWater => do
    let highObserved ← utc highWater.observedAt
    let highIssued ← utc highWater.issuedAt
    let observed ← utc latest.observedAt
    let issued ← utc latest.issuedAt
    require (highWater.pointerVersion ≠ none ∧ highObserved.wall ≤ observed.wall ∧ highIssued.wall ≤ issued.wall ∧
      (latest.pointerVersion = none ∨ latest.pointerVersion = highWater.pointerVersion)) .invalid

/-- `_known` -/
def known (lib : Library) (data : ByteArray) (expectedScope : ContinuityScope)
    (trust : List ContinuityTrustKey) : Except ContinuityError KnownState := do
  let document ← json lib.floatRepr data knownStateKeys maxKnownStateBytes
  let contract ← field "contract" document
  require (contract = .str continuityKnownStateContract) .invalid
  let latest ← field "latest" document >>= (checkpoint lib · expectedScope trust)
  let issued ← utc latest.issuedAt
  let lastVerifiedAt ← field "last_verified_at" document >>= date
  let expires ← utc latest.expiresAt
  require (issued.wall ≤ lastVerifiedAt.wall ∧ lastVerifiedAt.wall < expires.wall) .invalid
  let highWater ← field "release_high_water" document >>= (highWaterCheckpoint lib · expectedScope trust)
  checkHighWater latest highWater
  return { document, latest, highWater }

/-- The pointer is below the high water mark's. -/
def pointerBelow (current : ContinuityManifest) (highWater : Option ContinuityManifest) : Bool :=
  match highWater.bind (·.pointerVersion), current.pointerVersion with
  | some high, some pointer => pointer < high
  | _, _ => false

/-- `_not_older` -/
def notOlder (current latest : ContinuityManifest) (highWater : Option ContinuityManifest) :
    Except ContinuityError Unit := do
  let observed ← utc current.observedAt
  let issued ← utc current.issuedAt
  let oldObserved ← utc latest.observedAt
  let oldIssued ← utc latest.issuedAt
  require (¬ (observed.wall < oldObserved.wall ∨ issued.wall < oldIssued.wall)) .superseded
  require (¬ (observed.wall = oldObserved.wall ∧ current ≠ latest)) .invalid
  require (¬ pointerBelow current highWater) .superseded

/-- The `high_checkpoint` that a package leaves behind. -/
def highCheckpoint (lib : Library) (manifest : ContinuityManifest) (checkpoint : Json)
    (expectedScope : ContinuityScope) (trust : List ContinuityTrustKey) (now : DateTime)
    (initializing : Bool) : Option ByteArray → Except ContinuityError Json
  | none => do
    require initializing .invalid
    return if manifest.pointerVersion ≠ none then checkpoint else .null
  | some knownState => do
    let state ← known lib knownState expectedScope trust
    let clock ← utc now
    let lastVerifiedAt ← field "last_verified_at" state.document >>= date
    require (lastVerifiedAt.wall ≤ clock.wall) .invalid
    notOlder manifest state.latest state.highWater
    let highWater ← field "release_high_water" state.document
    return if manifest.pointerVersion ≠ none then checkpoint else highWater

def knownStateJson (checkpoint highCheckpoint : Json) (now : DateTime) : Json :=
  .obj [("contract", .str continuityKnownStateContract), ("last_verified_at", .str now.isoformat),
    ("latest", checkpoint), ("release_high_water", highCheckpoint)]

def verifyContinuityWithKnownState (lib : Library) (package : ByteArray) (expectedScope : ContinuityScope)
    (trust : List ContinuityTrustKey) (now : DateTime) (knownState : Option ByteArray) (initializing : Bool) :
    Except ContinuityError (VerifiedContinuityPackage × ByteArray) := do
  let _ ← scopeDocument expectedScope
  require (¬ (initializing ∧ knownState.isSome)) .invalid
  let verified ← verifyContinuityPackage lib package expectedScope trust now
  let text ← getOr .invalid (String.fromUTF8? verified.checkpoint)
  let checkpoint ← getOr .invalid (Json.loads lib.floatRepr text)
  let high ← highCheckpoint lib verified.manifest checkpoint expectedScope trust now initializing knownState
  let clock ← utc now
  let result ← canonical (knownStateJson checkpoint high clock)
  require (result.size ≤ maxKnownStateBytes) .invalid
  return (verified, result)

/-- One verification of a run; the known state is the one the last accepted one returned. -/
structure Verification where
  package : ByteArray
  expectedScope : ContinuityScope
  trust : List ContinuityTrustKey
  now : DateTime
  initializing : Bool

def verifier (lib : Library) :
    Machine (Option ByteArray) Verification VerifiedContinuityPackage ContinuityError where
  exec knownState v := do
    let (verified, result) ← verifyContinuityWithKnownState lib v.package v.expectedScope v.trust
      v.now knownState v.initializing
    return (some result, verified)

end Maru.Scheduling

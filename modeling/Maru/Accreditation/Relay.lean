import Maru.Accreditation.Credentials

/-!
# The offline relay and the accreditation machine

A relay device checks arrivals in while it is offline and reports each of them, signed and in
its own order, for reconciliation. The machine runs these reports together with the credential
commands and with every registration command, check-in at the desk among them; an operation is
one transaction.
-/

namespace Maru.Accreditation

open Registration (Admissions RegistrationError Registration State)

/-! ## Reconciliation -/

structure OfflineCheckIn where
  organizationId : Uuid
  editionId : Uuid
  deviceCode : String
  operationId : Uuid
  deviceSequence : Nat
  manifestSequence : Nat
  rawCredentialToken : String
  occurredAt : Int
  signature : String

/-- The text a device signs. -/
def OfflineCheckIn.canonical (P : Primitives) (x : OfflineCheckIn) : String :=
  s!"{x.operationId.text}|{x.deviceSequence}|{x.manifestSequence}|" ++
    s!"{x.rawCredentialToken}|{P.isoformat x.occurredAt}"

/-- The largest value of a `PositiveBigIntegerField`. -/
def maxBigInteger : Nat := 9223372036854775807

def Tables.relayDevice (t : Tables) (x : OfflineCheckIn) : Option RelayDevice :=
  t.devices.rows.find? fun d => d.organizationId = x.organizationId ∧ d.editionId = x.editionId ∧
    d.code = x.deviceCode ∧ d.enabled ∧ d.revokedAt = none

def Tables.manifestOf (t : Tables) (x : OfflineCheckIn) : Option OfflineCredentialManifest :=
  t.manifests.rows.find? fun m => m.organizationId = x.organizationId ∧ m.editionId = x.editionId ∧
    m.sequence = x.manifestSequence

def Tables.credentialOf (P : Primitives) (t : Tables) (x : OfflineCheckIn) : Option Credential :=
  t.credentials.rows.find? fun c => c.organizationId = x.organizationId ∧
    c.editionId = x.editionId ∧ c.tokenDigest = P.credentialDigest x.rawCredentialToken

/-- `manifest.valid_from <= occurred_at < manifest.valid_until`. -/
def OfflineCredentialManifest.validAt (m : OfflineCredentialManifest) (at_ : Int) : Bool :=
  m.validFrom ≤ at_ ∧ at_ < m.validUntil

def OfflineCredentialManifest.lists (m : OfflineCredentialManifest) (c : Credential) : Bool :=
  m.credentials.any fun row => row.tokenDigest = c.tokenDigest

/-- What a report comes to: an outcome that is only noted, or an arrival to be applied. -/
inductive Verdict
  | noted (outcome : Outcome) (code : String)
  | applies (credential : Credential) (registration : Registration)

def judge (a : Admissions) (manifest : Option OfflineCredentialManifest)
    (credential : Option Credential) (occurredAt : Int) : Except RegistrationError Verdict :=
  match manifest.filter (·.validAt occurredAt) with
  | none => return .noted .rejected "offline_manifest_invalid"
  | some m =>
    match credential with
    | none => return .noted .rejected "credential_unknown"
    | some c =>
      if ¬ m.lists c then return .noted .conflict "credential_not_in_manifest"
      else if c.status ≠ .issued then return .noted .conflict "credential_revoked_or_replaced"
      else do
        let r ← getOr (.missing "Registration") (a.registrations.get? c.registrationId)
        if r.state = .checkedIn then return .noted .duplicate "already_checked_in"
        else if r.state ≠ .confirmed then return .noted .conflict "registration_not_confirmed"
        else return .applies c r

def Tables.createCheckIn (t : Tables) (k : CheckInRecord) : Except RegistrationError Tables := do
  let checkIns ← getOr (.invalid "registration" "unique" "Check-in record with this Registration already exists.")
    (t.checkIns.insert? k)
  return { t with checkIns := checkIns }

/-- The registration once it has arrived. -/
def arrived (r : Registration) (occurredAt : Int) : Registration :=
  { r with state := .checkedIn, checkedInAt := some occurredAt, aggregateVersion := r.aggregateVersion + 1 }

def OfflineCheckIn.arrival (x : OfflineCheckIn) (device : RelayDevice) (r : Registration) : CheckInRecord :=
  { registrationId := r.id, organizationId := x.organizationId, editionId := x.editionId,
    actorId := device.id, checkedInAt := x.occurredAt, method := "offline_relay",
    reason := s!"Signed offline operation {x.operationId.text}" }

/-- The arrival that a device reports for a credential. -/
def applyCheckIn (a : Admissions) (t : Tables) (w : Surroundings) (now : Int) (x : OfflineCheckIn)
    (device : RelayDevice) (c : Credential) (r : Registration) : Except RegistrationError (Admissions × Tables) := do
  let a ← a.saveRegistration w.toSurroundings now (arrived r x.occurredAt)
  let t ← t.createCheckIn (x.arrival device r)
  let a := a.appendTimeline r.id "checked_in" x.occurredAt "relay_device" (some device.id) x.operationId
  return (a, t.appendEvent ⟨c.id, .verified, x.occurredAt, "relay_device", some device.id, "offline_check_in_applied"⟩)

def settle (a : Admissions) (t : Tables) (w : Surroundings) (now : Int) (x : OfflineCheckIn) (device : RelayDevice) :
    Verdict → Except RegistrationError (Admissions × Tables × Outcome × String)
  | .noted outcome code => return (a, t, outcome, code)
  | .applies c r => do
    let (a, t) ← applyCheckIn a t w now x device c r
    return (a, t, .applied, "offline_check_in_applied")

def Tables.createOperation (t : Tables) (o : OfflineCheckInOperation) : Except RegistrationError Tables := do
  require (o.deviceSequence ≤ maxBigInteger ∧ o.manifestSequence ≤ maxBigInteger) (.invalid "manifest_sequence"
    "max_value" "Ensure this value is less than or equal to 9223372036854775807.")
  require (¬ t.operations.rows.any fun y => y.deviceId = o.deviceId ∧ y.deviceSequence = o.deviceSequence)
    (.invalid "__all__" "unique_together" "offline_device_sequence_unique")
  let operations ← getOr (.invalid "__all__" "unique_together" "offline_operation_idempotency_unique")
    (t.operations.insert? o)
  return { t with operations := operations }

/-- The operation as it is recorded. -/
def OfflineCheckIn.operation (x : OfflineCheckIn) (device : RelayDevice) (credential : Option Credential)
    (receivedAt : Int) (outcome : Outcome) (code : String) : OfflineCheckInOperation :=
  { deviceId := device.id, organizationId := x.organizationId, editionId := x.editionId,
    operationId := x.operationId, deviceSequence := x.deviceSequence, manifestSequence := x.manifestSequence,
    credentialPublicId := (credential.map Credential.publicId).getD "unknown", occurredAt := x.occurredAt,
    receivedAt, outcome, safeResultCode := code, credentialId := credential.map Credential.id }

def reconcileOfflineCheckIn (P : Primitives) (a : Admissions) (t : Tables) (w : Surroundings) (receivedAt : Int)
    (x : OfflineCheckIn) : Except RegistrationError (Admissions × Tables × OfflineCheckInOperation) := do
  require (w.allowsOfflineCheckInRelay x.organizationId x.editionId : Prop) (.invalid "__all__"
    "offline_relay_profile_not_allowed" "Offline check-in is unavailable for this edition profile.")
  let device ← getOr (.missing "RelayDevice") (t.relayDevice x)
  match t.operations.get? (device.id, x.operationId) with
  | some existing => return (a, t, existing)
  | none => do
    let secret := w.environ device.signingSecretEnvVar
    require (secret ≠ "" ∧ P.hmac secret (x.canonical P) = x.signature) (.invalid "__all__"
      "offline_operation_signature_invalid" "The offline operation signature is invalid.")
    require (x.deviceSequence = device.lastSequence + 1) (.invalid "__all__" "offline_device_sequence_conflict"
      "The offline device sequence requires reconciliation.")
    let credential := t.credentialOf P x
    let verdict ← judge a (t.manifestOf x) credential x.occurredAt
    let (a, t, outcome, code) ← settle a t w receivedAt x device verdict
    let operation := x.operation device credential receivedAt outcome code
    let t ← t.createOperation operation
    return (a, { t with devices := t.devices.save { device with lastSequence := x.deviceSequence } }, operation)

/-! ## The machine -/

inductive Command
  | registration (c : Registration.Command)
  /-- A restriction of the credentials alone. -/
  | restrictCredentials (organizationId accountId : Uuid) (editionId : Option Uuid) (actorId : Uuid)
  | issueCredential (x : IssueRequest)
  | revokeCredential (organizationId editionId credentialId actorId : Uuid) (reason : String)
  | generateOfflineManifest (organizationId editionId actorId : Uuid)
  /-- The administration's form of a device, which switches it on or off. -/
  | switchDevice (deviceId : Uuid) (enabled : Bool) (revokedAt : Option Int)
  | reconcileOfflineCheckIn (x : OfflineCheckIn)

inductive Answer
  | done
  | registration (answer : Registration.Answer)
  | credential (c : Credential)
  | manifest (m : OfflineCredentialManifest)
  | operation (o : OfflineCheckInOperation)

/-- One issued command: how long after the one before, in what surroundings, and what is drawn
for it. `attendeeMessage` is the message of the restriction that it applies, if any. -/
structure Call where
  elapsed : Nat
  surroundings : Surroundings
  newId : Uuid
  childId : Uuid → Uuid
  correlationId : Uuid
  draw : CredentialDraw
  attendeeMessage : String
  command : Command

structure System where
  registration : Registration.System
  tables : Tables

/-- The record of an arrival at the desk, where the registration had not arrived yet. -/
def recordArrival (a : Admissions) (t : Tables) (now : Int) (organizationId editionId registrationId actorId : Uuid)
    (reason : String) : Except RegistrationError Tables :=
  if (a.registrations.get? registrationId).any (·.state = .checkedIn) then return t
  else t.createCheckIn
    { registrationId, organizationId, editionId, actorId, checkedInAt := now,
      method := "staff_console", reason := strip reason }

/-- What a registration command does to the tables; `a` is what it found. -/
def followRegistration (a a' : Admissions) (t : Tables) (now : Int) (call : Call) :
    Registration.Command → Except RegistrationError Tables
  | .checkIn organizationId editionId registrationId actorId reason =>
    recordArrival a t now organizationId editionId registrationId actorId reason
  | .restrict organizationId accountId editionId actorId =>
    restrictCredentials a' t call.surroundings now organizationId accountId editionId actorId call.attendeeMessage
  | _ => return t

def switchDevice (t : Tables) (deviceId : Uuid) (enabled : Bool) (revokedAt : Option Int) :
    Except RegistrationError Tables := do
  let d ← getOr (.missing "RelayDevice") (t.devices.get? deviceId)
  return { t with devices := t.devices.save { d with enabled, revokedAt } }

/-- Registrations and tables after a command that advances the clock to `now`. -/
def System.after (s : System) (now : Int) (a : Admissions) (t : Tables) : System :=
  ⟨⟨now, { s.registration.store with admissions := a }⟩, t⟩

def exec (P : Primitives) (s : System) (call : Call) : Except RegistrationError (System × Answer) :=
  let w := call.surroundings
  let now := s.registration.clock + call.elapsed
  let a := s.registration.store.admissions
  match call.command with
  | .registration c => do
    let (registration, answer) ← Registration.exec P.toPrimitives s.registration
      ⟨call.elapsed, w.toSurroundings, call.newId, call.childId, call.correlationId, c⟩
    let t ← followRegistration a registration.store.admissions s.tables now call c
    return (⟨registration, t⟩, .registration answer)
  | .restrictCredentials organizationId accountId editionId actorId => do
    let t ← restrictCredentials a s.tables w now organizationId accountId editionId actorId call.attendeeMessage
    return (s.after now a t, .done)
  | .issueCredential x => do
    let (t, c) ← issueCredential P a s.tables w now x call.draw
    return (s.after now a t, .credential c)
  | .revokeCredential organizationId editionId credentialId actorId reason => do
    let (t, c) ← revokeCredential s.tables w now organizationId editionId credentialId actorId reason
    return (s.after now a t, .credential c)
  | .generateOfflineManifest organizationId editionId actorId => do
    let (t, m) ← generateOfflineManifest P a s.tables w now organizationId editionId actorId
    return (s.after now a t, .manifest m)
  | .switchDevice deviceId enabled revokedAt => do
    let t ← switchDevice s.tables deviceId enabled revokedAt
    return (s.after now a t, .done)
  | .reconcileOfflineCheckIn x => do
    let (a, t, o) ← reconcileOfflineCheckIn P a s.tables w now x
    return (s.after now a t, .operation o)

def accreditationMachine (P : Primitives) : Machine System Call Answer RegistrationError := ⟨exec P⟩

end Maru.Accreditation

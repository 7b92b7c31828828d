import Maru.Framework.JsonBytes
import Maru.Framework.Machine
import Maru.Framework.Table
import Maru.Framework.Text
import Maru.Scheduling.TimeRules

/-!
# Scheduling commands

`scheduling/command_support.py`: every Scheduling command runs through `_execute`, which
answers a repeated request from the receipt of the first and otherwise advances the
edition's control version, makes the command's write and keeps its receipt. What a command
itself reads and writes is the rows `σ`, which are a parameter here; what the policy and
the other owners answer while it runs is a `World`.
-/

namespace Maru.Scheduling

inductive SchedulingOperation
  | dayCreate
  | dayRevise
  | dayRetire
  | occurrenceCreate
  | occurrenceRevise
  | occurrenceRetire
  | candidateCreate
  | candidateCopy
  | placementSet
  | placementRemove
  | candidateRestore
  | candidateArchive
  | evaluationRecord
  | warningAcknowledge
  | reservationReplace
  | reservationCancel
  | releaseWarningAcknowledge
  | releaseApprove
  | releasePublish
  | releaseWithdraw
  | changePrepare
  | changeApprove
  | changeReject
  | changeHandoff
  | changeAcknowledge
deriving DecidableEq

def SchedulingOperation.value : SchedulingOperation → String
  | .dayCreate => "day_create"
  | .dayRevise => "day_revise"
  | .dayRetire => "day_retire"
  | .occurrenceCreate => "occurrence_create"
  | .occurrenceRevise => "occurrence_revise"
  | .occurrenceRetire => "occurrence_retire"
  | .candidateCreate => "candidate_create"
  | .candidateCopy => "candidate_copy"
  | .placementSet => "placement_set"
  | .placementRemove => "placement_remove"
  | .candidateRestore => "candidate_restore"
  | .candidateArchive => "candidate_archive"
  | .evaluationRecord => "evaluation_record"
  | .warningAcknowledge => "warning_acknowledge"
  | .reservationReplace => "reservation_replace"
  | .reservationCancel => "reservation_cancel"
  | .releaseWarningAcknowledge => "release_warning_acknowledge"
  | .releaseApprove => "release_approve"
  | .releasePublish => "release_publish"
  | .releaseWithdraw => "release_withdraw"
  | .changePrepare => "change_prepare"
  | .changeApprove => "change_approve"
  | .changeReject => "change_reject"
  | .changeHandoff => "change_handoff"
  | .changeAcknowledge => "change_acknowledge"

/-- `CHANGE_OPERATION_VALUES` -/
def changeOperationValues : List SchedulingOperation :=
  [.changePrepare, .changeApprove, .changeReject, .changeHandoff, .changeAcknowledge]

inductive SchedulingCommandError
  | authorizationDenied
  | unavailable
  | versionConflict
  | lifecycleConflict
  | idempotencyConflict
  | limit
  | invalid (error : ValidationError)
  /-- An error of another owner. -/
  | dependency
  /-- `IntegrityError` of the named constraint. -/
  | integrity (constraint : String)
deriving DecidableEq

/-- What the program takes from its standard library: NFC, whether a character's category is one
of the control categories, and the SHA-256 of some bytes in hexadecimal. -/
structure Primitives where
  nfc : String → String
  isControl : Char → Bool
  sha256 : ByteArray → String

def maxReasonLength : Nat := 1000

def maxTitleLength : Nat := 240

def maxSourceChannelLength : Nat := 32

def schedulingDigest (lib : Primitives) (payload : Json) : String := lib.sha256 payload.encode

def normalizedText (lib : Primitives) (value : String) (maximum : Nat) : Except SchedulingCommandError String := do
  let normalized := strip (lib.nfc value)
  require (normalized ≠ "" ∧ normalized.length ≤ maximum ∧ normalized.toList.all fun c => !lib.isControl c)
    (.invalid { message := "Use bounded nonempty text without control characters." })
  return normalized

def requireVersion (value : Int) (initial : Bool := false) : Except SchedulingCommandError Nat := do
  require ((if initial then 0 else 1) ≤ value ∧ value < 2 ^ 63 - 1)
    (.invalid { message := "Supply an exact advanceable Scheduling version." })
  return value.toNat

structure SchedulingCommandRequest where
  actorId : Uuid
  organizationId : Uuid
  editionId : Uuid
  idempotencyKey : Uuid
  reason : String
  sourceChannel : String := "scheduling"

/-- `[a-z][a-z0-9_.-]{0,31}` -/
def IsSourceChannel (s : String) : Prop :=
  match s.toList with
  | [] => False
  | c :: cs => 'a' ≤ c ∧ c ≤ 'z' ∧ cs.length ≤ 31 ∧
      cs.all fun c => ('a' ≤ c ∧ c ≤ 'z') ∨ ('0' ≤ c ∧ c ≤ '9') ∨ c = '_' ∨ c = '.' ∨ c = '-'

instance : DecidablePred IsSourceChannel := fun s => by
  unfold IsSourceChannel
  split <;> infer_instance

def SchedulingCommandRequest.normalized (lib : Primitives) (request : SchedulingCommandRequest) :
    Except SchedulingCommandError SchedulingCommandRequest := do
  require (IsSourceChannel request.sourceChannel ∧ request.sourceChannel.length ≤ maxSourceChannelLength)
    (.invalid { message := "Use a registered lower-case source channel." })
  let reason ← normalizedText lib request.reason maxReasonLength
  return { request with reason }

/-! ## What is kept -/

structure SchedulingEditionControl where
  organizationId : Uuid
  editionId : Uuid
  aggregateVersion : Nat
deriving DecidableEq

structure SchedulingCommandReceipt where
  id : Uuid
  organizationId : Uuid
  editionId : Uuid
  actorId : Uuid
  operation : SchedulingOperation
  idempotencyKey : Uuid
  requestDigest : String
  controlVersion : Nat
  resultObjectId : Uuid
  resultingVersion : Nat

/-- What a retry is recognized by. -/
structure RetryKey where
  organizationId : Uuid
  editionId : Uuid
  actorId : Uuid
  idempotencyKey : Uuid
deriving DecidableEq

def SchedulingCommandReceipt.retryKey (receipt : SchedulingCommandReceipt) : RetryKey :=
  ⟨receipt.organizationId, receipt.editionId, receipt.actorId, receipt.idempotencyKey⟩

def SchedulingCommandRequest.retryKey (request : SchedulingCommandRequest) : RetryKey :=
  ⟨request.organizationId, request.editionId, request.actorId, request.idempotencyKey⟩

structure SchedulingCommandResult where
  receiptId : Uuid
  objectId : Uuid
  version : Nat
  controlVersion : Nat
  replayed : Bool := false

/-- `sch_command_retry_uq` -/
def SchedulingCommandReceipt.retry (receipt : SchedulingCommandReceipt) : Uuid × Uuid × Uuid :=
  (receipt.editionId, receipt.actorId, receipt.idempotencyKey)

/-- `sch_command_version_uq` -/
def SchedulingCommandReceipt.editionVersion (receipt : SchedulingCommandReceipt) : Uuid × Nat :=
  (receipt.editionId, receipt.controlVersion)

/-- The receipts that have been kept, under their unique constraints. -/
structure Receipts where
  rows : List SchedulingCommandReceipt
  ids : (rows.map (·.id)).Nodup
  retries : (rows.map (·.retry)).Nodup
  versions : (rows.map (·.editionVersion)).Nodup

instance : EmptyCollection Receipts := ⟨⟨[], List.nodup_nil, List.nodup_nil, List.nodup_nil⟩⟩

theorem nodup_map_concat {α β : Type} {f : α → β} {l : List α} {a : α} (hl : (l.map f).Nodup)
    (ha : f a ∉ l.map f) : ((l ++ [a]).map f).Nodup := by
  rw [List.map_append, List.map_singleton]
  exact List.Nodup.append hl (List.nodup_singleton _) (List.disjoint_singleton.mpr ha)

instance SchedulingCommandReceipt.lawfulRetry : LawfulBEq (Uuid × Uuid × Uuid) := inferInstance

instance SchedulingCommandReceipt.lawfulVersion : LawfulBEq (Uuid × Nat) := inferInstance

/-- `SchedulingCommandReceipt.objects.create` -/
def Receipts.create (receipts : Receipts) (receipt : SchedulingCommandReceipt) :
    Except SchedulingCommandError Receipts :=
  if hi : receipt.id ∈ receipts.rows.map (·.id) then
    .error (.integrity "scheduling_schedulingcommandreceipt_pkey")
  else if hr : receipt.retry ∈ receipts.rows.map (·.retry) then .error (.integrity "sch_command_retry_uq")
  else if hv : receipt.editionVersion ∈ receipts.rows.map (·.editionVersion) then
    .error (.integrity "sch_command_version_uq")
  else .ok ⟨receipts.rows ++ [receipt], nodup_map_concat receipts.ids hi,
    nodup_map_concat receipts.retries hr, nodup_map_concat receipts.versions hv⟩

/-- The controls and receipts of all editions, and the rows that commands write. -/
structure Store (σ : Type) where
  controls : Table SchedulingEditionControl.editionId
  receipts : Receipts
  rows : σ

variable {σ : Type}

def Store.empty (rows : σ) : Store σ := ⟨∅, ∅, rows⟩

/-- `SchedulingEditionControl.objects.filter(organization_id, edition_id).first()` -/
def Store.control? (store : Store σ) (organizationId editionId : Uuid) : Option SchedulingEditionControl :=
  (store.controls.get? editionId).filter (·.organizationId = organizationId)

/-- `control.aggregate_version if control else 0` -/
def Store.controlVersion (store : Store σ) (organizationId editionId : Uuid) : Nat :=
  ((store.control? organizationId editionId).map (·.aggregateVersion)).getD 0

/-- `SchedulingCommandReceipt.objects.filter(...).first()` -/
def Store.receipt? (store : Store σ) (key : RetryKey) : Option SchedulingCommandReceipt :=
  store.receipts.rows.find? (·.retryKey = key)

/-- The row of the next control version. -/
def Store.advanceControl (store : Store σ) (organizationId editionId : Uuid) :
    Except SchedulingCommandError (Table SchedulingEditionControl.editionId) :=
  match store.control? organizationId editionId with
  | none => getOr (.integrity "scheduling_schedulingeditioncontrol_edition_id_key")
      (store.controls.insert? ⟨organizationId, editionId, 1⟩)
  | some control => .ok (store.controls.save { control with aggregateVersion := control.aggregateVersion + 1 })

/-! ## Commands -/

/-- The places where a command asks for its authority. -/
inductive AuthorizationCheck
  | entry
  | scope
  | replay
  | prepared
  | written
deriving DecidableEq

structure AuthorizedSchedulingScope where
  acceptsWrites : Bool

/-- What the edition's owner and the policy answer while a command runs. -/
structure World where
  editionKnown : Bool
  authorize : AuthorizationCheck → (capability : String) → Option AuthorizedSchedulingScope

/-- What a write is given of its transaction. -/
structure CommandTransaction where
  request : SchedulingCommandRequest
  priorControlVersion : Nat
  receiptId : Uuid

/-- The arguments of `_execute`: what a command normalizes, reads, writes and checks again. -/
structure Command (σ : Type) where
  Intent : Type
  Prepared : Type
  operation : SchedulingOperation
  capability : String
  normalize : Except SchedulingCommandError Intent
  payload : Intent → Json
  prepare : Intent → Store σ → Except SchedulingCommandError (σ × Prepared)
  write : CommandTransaction → Intent → Prepared → Store σ → Except SchedulingCommandError (σ × Uuid × Nat)
  revalidateReplay : Option (Intent → SchedulingCommandReceipt → Store σ → Except SchedulingCommandError Unit) := none

def requestDigest (lib : Primitives) (command : Command σ) (request : SchedulingCommandRequest)
    (intent : command.Intent) : String :=
  schedulingDigest lib (.obj [("intent", command.payload intent), ("operation", .str command.operation.value),
    ("reason", .str request.reason), ("source_channel", .str request.sourceChannel)])

def authorize (world : World) (check : AuthorizationCheck) (capability : String) :
    Except SchedulingCommandError AuthorizedSchedulingScope :=
  getOr .authorizationDenied (world.authorize check capability)

/-- A request that got as far as looking for its receipt. -/
structure Admitted (Intent : Type) where
  request : SchedulingCommandRequest
  intent : Intent
  digest : String
  scope : AuthorizedSchedulingScope

/-- `_execute` up to the receipt. -/
def admitCommand (lib : Primitives) (world : World) (command : Command σ) (request : SchedulingCommandRequest) :
    Except SchedulingCommandError (Admitted command.Intent) := do
  let request ← request.normalized lib
  let _ ← authorize world .entry command.capability
  require (¬ (command.operation ∈ changeOperationValues ∧ command.revalidateReplay.isNone)) .unavailable
  let intent ← command.normalize
  require (world.editionKnown = true) .authorizationDenied
  let scope ← authorize world .scope command.capability
  return { request, intent, digest := requestDigest lib command request intent, scope }

/-- The checks of a repeat. -/
def replay (world : World) (command : Command σ) (admitted : Admitted command.Intent)
    (receipt : SchedulingCommandReceipt) (store : Store σ) : Except SchedulingCommandError Unit := do
  require (receipt.requestDigest = admitted.digest) .idempotencyConflict
  match command.revalidateReplay with
  | none => pure ()
  | some revalidate => revalidate admitted.intent receipt store
  let _ ← authorize world .replay command.capability
  return ()

/-- `_execute` of a request that has no receipt. -/
def perform (world : World) (command : Command σ) (admitted : Admitted command.Intent) (receiptId : Uuid)
    (store : Store σ) : Except SchedulingCommandError (Store σ × SchedulingCommandReceipt) := do
  let request := admitted.request
  require (admitted.scope.acceptsWrites = true) .lifecycleConflict
  let (rows, prepared) ← command.prepare admitted.intent store
  let scope ← authorize world .prepared command.capability
  require (scope.acceptsWrites = true) .lifecycleConflict
  let prior := store.controlVersion request.organizationId request.editionId
  require (prior < 2 ^ 63 - 2) .limit
  let controls ← store.advanceControl request.organizationId request.editionId
  let (rows, objectId, version) ←
    command.write ⟨request, prior, receiptId⟩ admitted.intent prepared { store with controls, rows }
  let _ ← authorize world .written command.capability
  let receipt : SchedulingCommandReceipt :=
    { id := receiptId, organizationId := request.organizationId, editionId := request.editionId,
      actorId := request.actorId, operation := command.operation, idempotencyKey := request.idempotencyKey,
      requestDigest := admitted.digest, controlVersion := prior + 1, resultObjectId := objectId,
      resultingVersion := version }
  let receipts ← store.receipts.create receipt
  return ({ controls, receipts, rows }, receipt)

/-- The receipt that answers a request, and whether it was there already. -/
structure Answer where
  receipt : SchedulingCommandReceipt
  replayed : Bool

/-- `_result` -/
def Answer.result (answer : Answer) : SchedulingCommandResult :=
  ⟨answer.receipt.id, answer.receipt.resultObjectId, answer.receipt.resultingVersion,
    answer.receipt.controlVersion, answer.replayed⟩

/-- `_execute` -/
def execute (lib : Primitives) (world : World) (command : Command σ) (request : SchedulingCommandRequest)
    (receiptId : Uuid) (store : Store σ) : Except SchedulingCommandError (Store σ × Answer) := do
  let admitted ← admitCommand lib world command request
  match store.receipt? admitted.request.retryKey with
  | some receipt => do
    replay world command admitted receipt store
    return (store, ⟨receipt, true⟩)
  | none => do
    let (store, receipt) ← perform world command admitted receiptId store
    return (store, ⟨receipt, false⟩)

/-- One execution: a command with its request, in some world, and the identifier
drawn for the receipt. -/
structure Execution (σ : Type) where
  world : World
  command : Command σ
  request : SchedulingCommandRequest
  receiptId : Uuid

/-- The commands of all actors and editions, one at a time. -/
def commandMachine (lib : Primitives) : Machine (Store σ) (Execution σ) Answer SchedulingCommandError where
  exec store e := execute lib e.world e.command e.request e.receiptId store

end Maru.Scheduling

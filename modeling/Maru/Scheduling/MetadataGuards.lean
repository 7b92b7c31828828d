import Maru.Scheduling.Metadata

/-!
# The guards of the database

`scheduling/migrations/0005_integrity_guards.py`: the row guard, which the database runs
before each row that a command writes, and the graph guard, which it runs on these rows at the
end of the transaction. A command commits (`commit`) what the program answers (`answer`) if
the guards accept its rows.
-/

namespace Maru.Scheduling.Metadata

open Calendar (microsPerDay)

/-- What the database computes itself: NFC, of which it knows what the program
normalized, and digests. -/
structure Postgres (lib : Primitives) where
  normalize : String → String
  normalized : ∀ text, normalize (strip (lib.nfc text)) = strip (lib.nfc text)
  cntrl : ∀ c, c.toNat ≤ 0x1f ∨ 0x7f ≤ c.toNat ∧ c.toNat ≤ 0x9f → lib.isControl c = true
  hex : ∀ bytes, (lib.sha256 bytes).length = 64 ∧
    (lib.sha256 bytes).toList.all (fun c => ('0' ≤ c && c ≤ '9') || ('a' ≤ c && c ≤ 'f')) = true

/-- A row of a receipt with what the receipt's evidence says. -/
structure AttributedReceipt extends SchedulingCommandReceipt where
  occurredAt : Int
  reason : String
  sourceChannel : String

/-- The rows of a database: those of the program's store, and the receipts with their evidence. -/
structure Database where
  store : Store Rows
  receipts : List AttributedReceipt

/-! ## `maru_guard_scheduling_row` -/

/-- `RAISE EXCEPTION` unless `p` holds. -/
def check (p : Prop) [Decidable p] (message : String) : Except SchedulingCommandError Unit :=
  require p (.integrity message)

/-- `[[:cntrl:]]` -/
def isCntrl (c : Char) : Bool := c.toNat ≤ 0x1f || (0x7f ≤ c.toNat && c.toNat ≤ 0x9f)

/-- `^[0-9a-f]{64}$` -/
def isHexDigest (s : String) : Bool :=
  s.length = 64 && s.toList.all fun c => ('0' ≤ c && c ≤ '9') || ('a' ≤ c && c ≤ 'f')

/-- `^[a-z][a-z0-9_-]{0,31}$` -/
def isReceiptChannel (s : String) : Bool :=
  match s.toList with
  | [] => false
  | c :: cs => ('a' ≤ c && c ≤ 'z') && cs.length ≤ 31 &&
      cs.all fun c => ('a' ≤ c && c ≤ 'z') || ('0' ≤ c && c ≤ '9') || c = '_' || c = '-'

def guardEdition (rows : Rows) (organizationId editionId : Uuid) : Except SchedulingCommandError Unit :=
  check ((((rows.editions.get? editionId).filter fun edition =>
      edition.seriesOrganizationId = edition.organizationId).any fun edition =>
      edition.organizationId = organizationId ∧ edition.lifecycle.acceptsSchedulingWrites) = true)
    "Scheduling requires a coherent writable edition"

/-- An update advances the version and changes nothing that is `kept`; an insert
is of the first version. -/
def guardVersion (prior : Option Nat) (kept : Bool) (version : Nat) : Except SchedulingCommandError Unit :=
  match prior with
  | some prior =>
    check (kept = true ∧ version = prior + 1) "Scheduling identity, terminal state or version changed illegally"
  | none => check (version = 1) "Scheduling aggregates begin at version one"

def guardControl (rows : Rows) (prior : Option SchedulingEditionControl)
    (row : SchedulingEditionControl) : Except SchedulingCommandError Unit := do
  guardEdition rows row.organizationId row.editionId
  guardVersion (prior.map (·.aggregateVersion))
    (prior.all fun prior => { row with aggregateVersion := prior.aggregateVersion } = prior) row.aggregateVersion

section

variable {δ ρ : Type} [DecidableEq δ]

/-- An aggregate that is written beside the register; `limit` is how many an edition retains. -/
def guardAggregate (limit : Nat) (rows : Rows) (register : Register δ ρ)
    (prior : Option (Aggregate δ)) (row : Aggregate δ) : Except SchedulingCommandError Unit := do
  guardEdition rows row.organizationId row.editionId
  guardVersion (prior.map (·.aggregateVersion)) (prior.all fun prior =>
    { row with aggregateVersion := prior.aggregateVersion, lifecycle := prior.lifecycle } = prior ∧
      prior.lifecycle ≠ .retired) row.aggregateVersion
  check (row.aggregateVersion ≤ if row.lifecycle = .retired then 1001 else 1000)
    "Scheduling metadata history limit exceeded"
  check (prior = none → row.lifecycle = .active) "Scheduling aggregates begin in their planning lifecycle"
  check (prior = none → (register.aggregates.rows.countP fun other => other.editionId = row.editionId) < limit)
    "Scheduling retained record limit exceeded"

/-- The reference is to a row of the scope. -/
def guardReference (organizationId editionId : Uuid) (target : Option (Uuid × Uuid)) :
    Except SchedulingCommandError Unit :=
  check (target = some (organizationId, editionId)) "Scheduling dependency owner scope mismatch"

variable {lib : Primitives} (postgres : Postgres lib)

def guardEvidence (rows : Rows) (actorId : Uuid) (reason : String) : Except SchedulingCommandError Unit := do
  check (rows.people actorId) "Scheduling evidence requires a current verified person"
  check (¬ (reason.toList.all (· = ' ') ∨ reason ≠ postgres.normalize reason ∨ reason.toList.any isCntrl))
    "Scheduling evidence requires normalized human rationale"

def guardRevision (rows : Rows) (register : Register δ ρ) (row : Revision ρ) : Except SchedulingCommandError Unit := do
  guardEdition rows row.organizationId row.editionId
  guardEvidence postgres rows row.actorId row.reason
  let parent := register.aggregates.get? row.parentId
  guardReference row.organizationId row.editionId (parent.map fun parent => (parent.organizationId, parent.editionId))
  check ((parent.map fun parent => (parent.aggregateVersion, parent.lifecycle)) = some (row.sequence, row.lifecycle))
    "Scheduling revision does not match the current aggregate"

def guardReceipt (store : Store Rows) (row : AttributedReceipt) : Except SchedulingCommandError Unit := do
  guardEdition store.rows row.organizationId row.editionId
  guardEvidence postgres store.rows row.actorId row.reason
  check ((store.controls.get? row.editionId).map (·.aggregateVersion) = some row.controlVersion ∧
      isHexDigest row.requestDigest ∧ isReceiptChannel row.sourceChannel)
    "Scheduling receipt does not match the active control version"

end

/-- The guard of an occurrence's row, whose detail is its programme item. -/
def guardOccurrence (rows : Rows) (prior : Option SchedulingOccurrence)
    (row : SchedulingOccurrence) : Except SchedulingCommandError Unit := do
  guardAggregate 2000 rows rows.occurrences prior row
  let item := rows.items.get? row.detail
  guardReference row.organizationId row.editionId (item.map fun item => (item.organizationId, item.editionId))
  check (row.lifecycle = .active → item.any (·.active)) "Scheduling occurrence requires an active Programme item"

/-- The guard of a day's row. -/
def guardDay (rows : Rows) (prior : Option SchedulingServiceDay) (row : SchedulingServiceDay) :
    Except SchedulingCommandError Unit :=
  guardAggregate 128 rows rows.days prior row

/-! ## `maru_validate_scheduling_graph` -/

def graphControl (receipts : List AttributedReceipt) (row : SchedulingEditionControl) :
    Except SchedulingCommandError Unit :=
  check (∃ receipt ∈ receipts, receipt.editionId = row.editionId ∧ receipt.controlVersion = row.aggregateVersion)
    "Scheduling control lacks its exact command receipt"

def graphAggregate {δ ρ : Type} (register : Register δ ρ) (row : Aggregate δ) : Except SchedulingCommandError Unit :=
  check ((register.revisions.get? (row.id, row.aggregateVersion)).map (·.lifecycle) = some row.lifecycle)
    "Scheduling aggregate lacks matching immutable history"

/-- The operation that a revision is the result of, where `create`, `revise` and `retire`
are those of its kind. -/
def Revision.expectedOperation {ρ : Type} (row : Revision ρ)
    (create revise retire : SchedulingOperation) : SchedulingOperation :=
  if row.sequence = 1 then create else if row.lifecycle = .retired then retire else revise

/-- The revision before is there, and was active. -/
def graphContiguous {δ ρ : Type} (register : Register δ ρ) (row : Revision ρ) (message : String) :
    Except SchedulingCommandError Unit :=
  check (1 < row.sequence → ∃ other ∈ register.revisions, other.parentId = row.parentId ∧
    other.sequence = row.sequence - 1 ∧ other.lifecycle = .active) message

/-- The revision has a receipt of the operation with its evidence. -/
def graphResult {ρ : Type} (receipts : List AttributedReceipt) (row : Revision ρ)
    (operation : SchedulingOperation) : Except SchedulingCommandError Unit :=
  check (∃ receipt ∈ receipts, receipt.organizationId = row.organizationId ∧ receipt.editionId = row.editionId ∧
    receipt.operation = operation ∧ receipt.resultObjectId = row.parentId ∧ receipt.resultingVersion = row.sequence ∧
    receipt.actorId = row.actorId ∧ receipt.reason = row.reason ∧ receipt.occurredAt = row.occurredAt)
    "Scheduling result lacks exact attributed command evidence"

/-- The bounds that the database computes of an edition. -/
def editionBounds (zones : Zones) (edition : EventEdition) : Option (Int × Int) := do
  let startsAt ← zones.atTimeZone edition.timeZone (edition.startsOn * microsPerDay)
  let endsAt ← zones.atTimeZone edition.timeZone ((edition.endsOn + 1) * microsPerDay)
  return (startsAt, endsAt)

/-- An active revision of a day is on whole minutes within the current edition. -/
def graphDayBounds (zones : Zones) (rows : Rows) (row : SchedulingServiceDayRevision) :
    Except SchedulingCommandError Unit :=
  check ((rows.editions.get? row.editionId).any fun edition =>
      row.content.editionVersion = edition.aggregateVersion ∧ (editionBounds zones edition).any fun bounds =>
        bounds.1 ≤ row.content.window.startsAt ∧ row.content.window.endsAt ≤ bounds.2 ∧
          row.content.window.startsAt % microsPerMinute = 0 ∧ row.content.window.endsAt % microsPerMinute = 0)
    "Scheduling day requires current minute-aligned edition bounds"

/-- The active days of an edition. -/
def Rows.activeDays (rows : Rows) (editionId : Uuid) : List SchedulingServiceDay :=
  rows.days.aggregates.rows.filter fun day => day.editionId = editionId ∧ day.lifecycle = .active

/-- A current revision of an active day overlaps no other, and there are not too many. -/
def graphDayWindows (rows : Rows) (row : SchedulingServiceDayRevision) : Except SchedulingCommandError Unit :=
  check ((∀ day ∈ rows.activeDays row.editionId, day.id ≠ row.parentId →
      ∀ other ∈ rows.days.revisions, other.parentId = day.id → other.sequence =
        day.aggregateVersion → ¬ (other.content.window.startsAt < row.content.window.endsAt ∧
          row.content.window.startsAt < other.content.window.endsAt)) ∧
      (rows.activeDays row.editionId).length ≤ 32)
    "Scheduling active service-day windows overlap or exceed the bound"

def graphDayRevision (zones : Zones) (rows : Rows) (receipts : List AttributedReceipt)
    (row : SchedulingServiceDayRevision) : Except SchedulingCommandError Unit := do
  let parent := rows.days.aggregates.get? row.parentId
  check (parent.all fun parent => row.sequence ≤ parent.aggregateVersion)
    "Scheduling day revision is ahead of its aggregate"
  graphContiguous rows.days row "Scheduling day history is not contiguous"
  if row.lifecycle = .active then
    graphDayBounds zones rows row
    if parent.any fun parent => parent.aggregateVersion = row.sequence ∧ parent.lifecycle = .active then
      graphDayWindows rows row
  graphResult receipts row (row.expectedOperation .dayCreate .dayRevise .dayRetire)

/-- No other active occurrence of the edition has the group key and sequence. -/
def graphGroup (rows : Rows) (row : SchedulingOccurrenceRevision) : Except SchedulingCommandError Unit :=
  check (∀ other ∈ rows.occurrences.aggregates, other.editionId = row.editionId → other.lifecycle = .active →
      other.id ≠ row.parentId → ∀ revision ∈ rows.occurrences.revisions, revision.parentId = other.id →
        revision.sequence = other.aggregateVersion → ¬ (revision.content.groupKey = row.content.groupKey ∧
          revision.content.groupSequence = row.content.groupSequence))
    "Scheduling active occurrence group sequence is already used"

def graphOccurrenceRevision (rows : Rows) (receipts : List AttributedReceipt)
    (row : SchedulingOccurrenceRevision) : Except SchedulingCommandError Unit := do
  graphContiguous rows.occurrences row "Scheduling occurrence history is not contiguous"
  if row.lifecycle = .active ∧ row.content.groupKey ≠ none ∧
      (rows.occurrences.aggregates.get? row.parentId).any fun parent => parent.aggregateVersion = row.sequence then
    graphGroup rows row
  check (row.lifecycle = .retired → ∀ binding ∈ rows.bindings, ¬ (binding.occurrenceId = row.parentId ∧
    binding.bookingActive = true)) "Scheduling occurrence still owns a physical reservation"
  graphResult receipts row (row.expectedOperation .occurrenceCreate .occurrenceRevise .occurrenceRetire)

/-- The receipt's result is a revision with its evidence. -/
def graphReceipt {δ ρ : Type} (register : Register δ ρ) (row : AttributedReceipt) : Except SchedulingCommandError Unit :=
  check ((register.revisions.get? (row.resultObjectId, row.resultingVersion)).any fun revision =>
      revision.organizationId = row.organizationId ∧ revision.editionId = row.editionId ∧
        revision.actorId = row.actorId ∧ revision.reason = row.reason ∧ revision.occurredAt = row.occurredAt)
    "Scheduling receipt is not bound to its attributed result"

/-! ## Commands under the guards -/

inductive MetadataCommand
  | createDay (day : SchedulingServiceDayInput) (expectedControlVersion : Int)
  | reviseDay (dayId : Uuid) (day : SchedulingServiceDayInput) (expectedVersion : Int)
  | retireDay (dayId : Uuid) (expectedVersion : Int)
  | createOccurrence (occurrence : SchedulingOccurrenceInput) (expectedControlVersion : Int)
  | reviseOccurrence (occurrenceId : Uuid) (occurrence : SchedulingOccurrenceInput) (expectedVersion : Int)
  | retireOccurrence (occurrenceId : Uuid) (expectedVersion : Int)

def MetadataCommand.command (lib : Primitives) (zones : Zones) (sur : Surroundings)
    (request : SchedulingCommandRequest) : MetadataCommand → Command Rows
  | .createDay day version => createSchedulingServiceDay lib zones sur request day version
  | .reviseDay dayId day version => reviseSchedulingServiceDay lib zones sur request dayId day version
  | .retireDay dayId version => retireSchedulingServiceDay sur dayId version
  | .createOccurrence occurrence version => createSchedulingOccurrence sur request occurrence version
  | .reviseOccurrence occurrenceId occurrence version =>
    reviseSchedulingOccurrence sur request occurrenceId occurrence version
  | .retireOccurrence occurrenceId version => retireSchedulingOccurrence sur request occurrenceId version

/-- The command writes a service day. -/
def MetadataCommand.isDay : MetadataCommand → Bool
  | .createDay .. | .reviseDay .. | .retireDay .. => true
  | .createOccurrence .. | .reviseOccurrence .. | .retireOccurrence .. => false

structure Call where
  surroundings : Surroundings
  request : SchedulingCommandRequest
  command : MetadataCommand

/-- What the program answers, and the rows that it leaves. -/
def Call.answer (call : Call) (lib : Primitives) (zones : Zones) (store : Store Rows) :
    Except SchedulingCommandError (Store Rows × Answer) :=
  execute lib (store.rows.world call.surroundings call.request)
    (call.command.command lib zones call.surroundings call.request) call.request call.surroundings.receiptId store

section

variable {δ ρ : Type} [DecidableEq δ] {lib : Primitives} (postgres : Postgres lib)

/-- The row guard of an aggregate and of its revision, as they are written. -/
def guardWrites (guardRow : Option (Aggregate δ) → Aggregate δ → Except SchedulingCommandError Unit)
    (rows : Rows) (before after : Register δ ρ) (receipt : SchedulingCommandReceipt) :
    Except SchedulingCommandError (Aggregate δ × Revision ρ) := do
  let row ← getOr .unavailable (after.aggregates.get? receipt.resultObjectId)
  guardRow (before.aggregates.get? receipt.resultObjectId) row
  let revision ← getOr .unavailable (after.revisions.get? (receipt.resultObjectId, receipt.resultingVersion))
  guardRevision postgres rows after revision
  return (row, revision)

variable (zones : Zones)

/-- The guards of what a command wrote; the rows before and after it, its
receipt and all receipts. -/
def Call.guards (call : Call) (before after : Store Rows) (receipt : AttributedReceipt)
    (receipts : List AttributedReceipt) : Except SchedulingCommandError Unit := do
  let control ← getOr .unavailable (after.controls.get? receipt.editionId)
  guardControl before.rows (before.controls.get? receipt.editionId) control
  if call.command.isDay then
    let (row, revision) ← guardWrites postgres (guardDay before.rows) before.rows before.rows.days
      after.rows.days receipt.toSchedulingCommandReceipt
    guardReceipt postgres after receipt
    graphControl receipts control
    graphAggregate after.rows.days row
    graphDayRevision zones after.rows receipts revision
    graphReceipt after.rows.days receipt
  else
    let (row, revision) ← guardWrites postgres (guardOccurrence before.rows) before.rows
      before.rows.occurrences after.rows.occurrences receipt.toSchedulingCommandReceipt
    guardReceipt postgres after receipt
    graphControl receipts control
    graphAggregate after.rows.occurrences row
    graphOccurrenceRevision after.rows receipts revision
    graphReceipt after.rows.occurrences receipt

end

/-- The row of a receipt. -/
def Call.attribute (call : Call) (request : SchedulingCommandRequest)
    (receipt : SchedulingCommandReceipt) : AttributedReceipt :=
  { receipt with
    occurredAt := call.surroundings.occurredAt, reason := request.reason, sourceChannel := request.sourceChannel }

/-- The transaction of a command: what the program writes, if the guards accept it. -/
def Call.commit (call : Call) {lib : Primitives} (postgres : Postgres lib) (zones : Zones)
    (db : Database) : Except SchedulingCommandError (Database × Answer) := do
  let (after, answer) ← call.answer lib zones db.store
  if answer.replayed then return (db, answer)
  else
    let request ← call.request.normalized lib
    let receipt := call.attribute request answer.receipt
    let receipts := db.receipts ++ [receipt]
    call.guards postgres zones db.store after receipt receipts
    return (⟨after, receipts⟩, answer)

end Maru.Scheduling.Metadata

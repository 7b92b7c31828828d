import Maru.Logistics.MovementCommit

/-!
# Offline keys over runs

Each operation of an upload leaves its row, and the first one with a key leaves the receipt
by which the key is known ever after (`ingestOperation_wrote`). No later operation with the
key is applied, whatever it says; the same operation again is a duplicate that changes
nothing (`offline_keys`). What is compared is the whole operation, its place in the upload
included: sent again in another place it is held for a conflict (`resent_scan_conflicts`).
-/

namespace Maru.Logistics

variable {world : World} {lib : Primitives} {sur : Surroundings} {request : Request} {store after : Store}

/-! ## Who writes uploads -/

/-- The operations and receipts are as they were, or one operation was taken in. -/
inductive Uploading (world : World) (lib : Primitives) (store after : Store) : Prop
  | same : after.uploads.operations = store.uploads.operations →
      after.uploads.receipts = store.uploads.receipts → Uploading world lib store after
  | ingested (sur : Surroundings) (row : OfflineScanBatch) (context : OperationContext) (operation : OfflineOperation) :
      store.ingestOperation world lib sur row context operation = .ok after → Uploading world lib store after

/-- The program leaves the uploads as they were, or takes operations in. -/
abbrev Uploads.Through {α : Type} (world : World) (lib : Primitives) (store : Store)
    (x : Except LogisticsError (Store × α)) : Prop :=
  Ends (fun p => Relation.ReflTransGen (Uploading world lib) store p.1) (fun _ => True) x

theorem appendEvidence_through {acted : Store} (h : Relation.ReflTransGen (Uploading world lib) store acted)
    {operation digest : String} {objectId : Uuid} {version : Nat} :
    Uploads.Through world lib store (acted.appendEvidence sur request operation digest objectId version) := by
  rw [Store.appendEvidence]
  exact .skip fun _ => h.tail (.same rfl rfl)

theorem command_through {operation digest : String}
    {act : Except LogisticsError (Store × Uuid × Nat)} (h : Uploads.Through world lib store act) :
    Uploads.Through world lib store (store.command sur request operation digest act) := by
  rw [Store.command]
  refine .skip fun found => ?_
  cases found with
  | some receipt => exact .refl
  | none => exact .bind h fun _ through => appendEvidence_through through

theorem Store.Still.through (h : store.Still after) : Relation.ReflTransGen (Uploading world lib) store after :=
  .single (.same (by rw [h.uploads]) (by rw [h.uploads]))

theorem appendAlone_through {context : MovementContext} {movement : Movement} {expected : Nat} :
    Uploads.Through world lib store (store.appendAlone world sur context movement expected) := by
  rw [Store.appendAlone, Store.appendMovementEvent]
  simp only [bind_assoc, pure_bind]
  refine .skip fun _ => .skip fun _ => ?_
  exact Relation.ReflTransGen.single (Uploading.same rfl rfl)

theorem recordLogisticsEvent_through {input : RecordEventInput} :
    Uploads.Through world lib store (store.recordLogisticsEvent world lib sur request input) := by
  rw [Store.recordLogisticsEvent]
  iterate 6 refine .skip fun _ => ?_
  exact command_through appendAlone_through

theorem recordManifestReceipt_through {input : ManifestReceiptInput} :
    Uploads.Through world lib store (store.recordManifestReceipt world lib sur request input) := by
  rw [Store.recordManifestReceipt]
  iterate 5 refine .skip fun _ => ?_
  split
  · exact trivial
  · iterate 2 refine .skip fun _ => ?_
    exact command_through appendAlone_through

theorem openBatch_through {input : OfflineBatchInput} {batch : OfflineBatch} :
    Uploads.Through world lib store (store.openBatch world sur request input batch) := by
  rw [Store.openBatch]
  refine .skip fun p => ?_
  iterate 3 refine .skip fun _ => ?_
  exact Relation.ReflTransGen.single (Uploading.same rfl rfl)

theorem ingestOfflineScanBatch_through {input : OfflineBatchInput} :
    Uploads.Through world lib store (store.ingestOfflineScanBatch world lib sur request input) := by
  rw [Store.ingestOfflineScanBatch]
  refine .skip fun _ => .skip fun batch => command_through ?_
  rw [Store.reconcileBatch]
  refine .bind (P := fun p => Relation.ReflTransGen (Uploading world lib) store p.1) openBatch_through fun p opened => ?_
  refine .bind (P := Relation.ReflTransGen (Uploading world lib) store) ?_ fun ingested through => ?_
  · refine Ends.foldlM (I := fun current _ => Relation.ReflTransGen (Uploading world lib) store current) ?_ opened
    intro current operation rest through
    cases h : current.ingestOperation world lib sur p.2 (operationContext sur request batch operation) operation with
    | error e => exact trivial
    | ok after => exact through.tail (.ingested sur p.2 _ operation h)
  · refine .bind (P := Relation.ReflTransGen (Uploading world lib) store) ?_ fun _ through => .skip fun _ => through
    rw [Store.closeBatch]
    exact .skip fun _ => through.tail (.same rfl rfl)

theorem submit_through (command : Command) :
    Uploads.Through world lib store (store.submit world lib sur request command) := by
  cases moves : command.moves with
  | false => exact (submit_still moves).mono fun _ => Store.Still.through
  | true =>
    cases command <;> cases moves
    · exact ingestOfflineScanBatch_through
    · exact recordLogisticsEvent_through
    · exact recordManifestReceipt_through

theorem Transition.through (h : Transition world lib store after) :
    Relation.ReflTransGen (Uploading world lib) store after := by
  cases h with
  | performed operation result ok =>
    cases operation with
    | submit sur request command =>
      simp only [Store.perform, bind_eq_ok, pure_eq_ok] at ok
      obtain ⟨p, submitted, e⟩ := ok
      cases e
      exact (submit_through command).ok submitted
    | dispose sur organizationId editionId addressIds =>
      simp only [Store.perform, bind_eq_ok, pure_eq_ok] at ok
      obtain ⟨p, disposed, e⟩ := ok
      cases e
      exact (dispose_still.ok disposed).through
  | opened sur request input batch row ok => exact openBatch_through.ok ok
  | ingested sur row context operation ok => exact .single (.ingested sur row context operation ok)

/-! ## One operation -/

section

variable {row : OfflineScanBatch} {context : OperationContext} {operation : OfflineOperation} {verdict : Verdict}

theorem createOperation_ok {kept : OfflineScanOperation} (h : store.createOperation kept = .ok after) :
    after = { store with uploads := { store.uploads with operations := store.uploads.operations ++ [kept] } } := by
  simp only [Store.createOperation, bind_eq_ok, pure_eq_ok] at h
  obtain ⟨_, -, _, -, _, -, _, -, _, -, rfl⟩ := h
  rfl

theorem createConflict_ok {label : Option LogisticsLabel} {id : Uuid} {description : String}
    (h : store.createConflict world row label id description = .ok after) :
    after.uploads = store.uploads ∧ after.custody.events = store.custody.events := by
  simp only [Store.createConflict, bind_eq_ok, pure_eq_ok] at h
  obtain ⟨custody, noted, rfl⟩ := h
  exact ⟨rfl, (writeDiscrepancy_ok noted).1⟩

/-- The operation is kept for review as a conflict over its key. -/
def Verdict.Conflicts (verdict : Verdict) : Prop :=
  verdict.result = .review ∧ verdict.reasonCode = "logistics_offline_idempotency_conflict"

/-- The same operation again changes nothing, and another one with its key moves
nothing and is a conflict. -/
theorem repeatOperation_ok {prior : OfflineOperationReceipt}
    (h : store.repeatOperation world lib row context operation prior = .ok (after, verdict)) :
    after.uploads = store.uploads ∧ verdict.result ≠ .applied ∧ after.custody.events = store.custody.events ∧
      (prior.organizationId = row.organizationId → prior.editionId = row.editionId →
        prior.operationDigest = operation.digest lib → verdict.result = .duplicate ∧ after = store) ∧
      (prior.operationDigest ≠ operation.digest lib → verdict.Conflicts) := by
  rw [Store.repeatOperation] at h
  split at h
  · rename_i same
    cases h
    exact ⟨rfl, by simp, rfl, fun _ _ _ => ⟨rfl, rfl⟩, fun differs => absurd same.2.2 differs⟩
  · rename_i differs
    simp only [bind_eq_ok, pure_eq_ok, Prod.mk.injEq] at h
    obtain ⟨noted, conflict, rfl, rfl⟩ := h
    obtain ⟨uploads, events⟩ := createConflict_ok conflict
    exact ⟨uploads, by simp, events, fun organization edition digest => absurd ⟨organization, edition, digest⟩ differs,
      fun _ => ⟨rfl, rfl⟩⟩

/-- An operation is applied as a movement of the subject of its label, at the sequence it expects.
-/
structure AppliedAt (store after : Store) (row : OfflineScanBatch) (operation : OfflineOperation)
    (verdict : Verdict) : Prop where
  intro ::
  applied : ∃ label,
    store.catalog.activeLabel? row.organizationId operation.labelCode = some label ∧ operation.expectedSubjectSequence =
      ((store.custody.currentStates.get? label.subject).map (·.eventSequence)).getD 0 ∧
    ∃ event, after.custody.events.rows = store.custody.events.rows ++ [event] ∧
      verdict.appliedEventId = some event.id ∧ event.subject = label.subject ∧
      event.eventSequence = operation.expectedSubjectSequence + 1

theorem settleOperation_ok (h : store.settleOperation world sur row context operation = .ok (after, verdict)) :
    after.uploads = store.uploads ∧ (verdict.result = .applied → AppliedAt store after row operation verdict) ∧
      (verdict.result ≠ .applied → after.custody.events = store.custody.events) := by
  rw [Store.settleOperation] at h
  split at h
  · rename_i subject source destination found
    split at h
    · rename_i moved record appended
      cases h
      simp only [Store.appendMovementEvent, appendMovementEvent, bind_eq_ok, pure_eq_ok, Prod.mk.injEq] at appended
      obtain ⟨⟨custody, _⟩, ⟨_, planned, _, recorded, rfl, rfl⟩, rfl, rfl⟩ := appended
      obtain ⟨tracked, arrival, quantity, plannable, rfl⟩ := planMovement_eq_ok.mp planned
      refine ⟨rfl, fun _ => ⟨?_⟩, fun other => absurd rfl other⟩
      simp only [OfflineOperation.references, Option.bind_eq_bind, Option.bind_eq_some_iff,
        Option.pure_def, Option.some.injEq, Prod.mk.injEq] at found
      obtain ⟨label, hlabel, _, -, _, -, rfl, rfl, rfl⟩ := found
      refine ⟨label, hlabel, plannable.sequence, _, recorded_events recorded, rfl, rfl, ?_⟩
      rw [plannable.continues.sequence, plannable.sequence]
    · split at h
      · simp only [bind_eq_ok, pure_eq_ok, Prod.mk.injEq] at h
        obtain ⟨noted, conflict, rfl, rfl⟩ := h
        obtain ⟨uploads, events⟩ := createConflict_ok conflict
        exact ⟨uploads, by simp, fun _ => events⟩
      · cases h
  · simp only [bind_eq_ok, pure_eq_ok, Prod.mk.injEq] at h
    obtain ⟨noted, conflict, rfl, rfl⟩ := h
    obtain ⟨uploads, events⟩ := createConflict_ok conflict
    exact ⟨uploads, by simp, fun _ => events⟩

/-- The receipt of an operation. -/
def OfflineOperation.receipt (lib : Primitives) (operation : OfflineOperation)
    (row : OfflineScanBatch) (verdict : Verdict) : OfflineOperationReceipt where
  organizationId := row.organizationId
  editionId := row.editionId
  idempotencyKey := operation.idempotencyKey
  operationDigest := operation.digest lib
  result := verdict.result
  reasonCode := verdict.reasonCode
  appliedEventId := verdict.appliedEventId
  discrepancyId := verdict.discrepancyId

/-- What taking an operation in writes: its row, and for a new key its receipt. -/
theorem ingestOperation_wrote (h : store.ingestOperation world lib sur row context operation = .ok after) :
    ∃ verdict, after.uploads.operations = store.uploads.operations ++ [operation.row lib row.id verdict] ∧
      ((∃ prior, store.uploads.receipts.get? operation.idempotencyKey = some prior ∧
          after.uploads.receipts = store.uploads.receipts ∧ verdict.result ≠ .applied ∧
          after.custody.events = store.custody.events ∧
          (prior.organizationId = row.organizationId → prior.editionId = row.editionId →
            prior.operationDigest = operation.digest lib →
            verdict.result = .duplicate ∧ after.custody = store.custody) ∧
          (prior.operationDigest ≠ operation.digest lib → verdict.Conflicts)) ∨
        (store.uploads.receipts.get? operation.idempotencyKey = none ∧
          store.uploads.receipts.insert? (operation.receipt lib row verdict) = some after.uploads.receipts ∧
          (verdict.result = .applied → AppliedAt store after row operation verdict) ∧
          (verdict.result ≠ .applied → after.custody.events = store.custody.events))) := by
  rw [Store.ingestOperation] at h
  split at h
  · rename_i prior known
    simp only [bind_eq_ok] at h
    obtain ⟨⟨repeated, verdict⟩, again, created⟩ := h
    obtain ⟨uploads, unapplied, events, same, conflict⟩ := repeatOperation_ok again
    obtain rfl := createOperation_ok created
    refine ⟨verdict, by rw [uploads], .inl ⟨prior, known, by rw [uploads], unapplied, events, ?_, conflict⟩⟩
    intro organization edition digest
    obtain ⟨duplicate, rfl⟩ := same organization edition digest
    exact ⟨duplicate, rfl⟩
  · rename_i fresh
    simp only [bind_eq_ok, Store.createOperationReceipt, getOr_eq_ok, pure_eq_ok] at h
    obtain ⟨⟨settled, verdict⟩, settles, _, ⟨receipts, inserted, rfl⟩, created⟩ := h
    obtain ⟨uploads, applied, unapplied⟩ := settleOperation_ok settles
    obtain rfl := createOperation_ok created
    refine ⟨verdict, by simp only [uploads], .inr ⟨fresh, ?_, fun h => ⟨(applied h).applied⟩, unapplied⟩⟩
    rw [uploads] at inserted
    exact inserted

end

/-! ## Keys over runs -/

/-- Every operation's key has its receipt, and no key is applied twice. -/
structure Uploads.Keyed (uploads : Uploads) : Prop where
  known : ∀ operation ∈ uploads.operations, ∃ receipt, uploads.receipts.get? operation.idempotencyKey = some receipt
  once : ∀ key, (uploads.operations.countP fun operation =>
    operation.idempotencyKey = key && operation.result = .applied) ≤ 1

theorem keyed_empty : Uploads.empty.Keyed := ⟨fun _ h => (nomatch h), fun _ => Nat.zero_le _⟩

theorem Uploading.keeps (h : Uploading world lib store after) :
    store.uploads.receipts.Keeps Eq after.uploads.receipts := by
  cases h with
  | same operations receipts =>
    rw [receipts]
    exact .refl (fun _ => rfl) _
  | ingested sur row context operation ok =>
    obtain ⟨verdict, -, ⟨_, -, same, -⟩ | ⟨-, inserted, -⟩⟩ := ingestOperation_wrote ok
    · rw [same]
      exact .refl (fun _ => rfl) _
    · exact Table.keeps_insert? (fun _ => rfl) inserted

theorem Uploads.Keyed.uploading (keyed : store.uploads.Keyed)
    (h : Uploading world lib store after) : after.uploads.Keyed := by
  have kept := h.keeps
  have known : ∀ operation ∈ store.uploads.operations,
      ∃ receipt, after.uploads.receipts.get? operation.idempotencyKey = some receipt := fun operation member => by
    obtain ⟨receipt, found⟩ := keyed.known operation member
    obtain ⟨_, found, -⟩ := kept _ _ found
    exact ⟨_, found⟩
  cases h with
  | same operations receipts => exact ⟨operations ▸ known, operations ▸ keyed.once⟩
  | ingested sur row context operation ok =>
    obtain ⟨verdict, operations, written⟩ := ingestOperation_wrote ok
    refine ⟨fun other member => ?_, fun key => ?_⟩
    · rw [operations, List.mem_append, List.mem_singleton] at member
      rcases member with member | rfl
      · exact known other member
      · rcases written with ⟨prior, found, same, -⟩ | ⟨-, inserted, -⟩
        · exact ⟨prior, by rw [same]; exact found⟩
        · exact ⟨_, by rw [Table.get?_insert? inserted]; exact if_pos rfl⟩
    · rw [operations, List.countP_append, List.countP_singleton]
      have once := keyed.once key
      split
      · rename_i counted
        rw [Bool.and_eq_true, decide_eq_true_eq, decide_eq_true_eq] at counted
        obtain ⟨own, applied⟩ := counted
        -- An operation that is applied is the first one with its key.
        rcases written with ⟨_, -, -, unapplied, -⟩ | ⟨fresh, -⟩
        · exact absurd applied unapplied
        · have none : (store.uploads.operations.countP fun operation =>
              operation.idempotencyKey = key && operation.result = .applied) = 0 := by
            refine List.countP_eq_zero.mpr fun other member => ?_
            rw [Bool.and_eq_true, decide_eq_true_eq, not_and]
            intro same
            obtain ⟨receipt, found⟩ := keyed.known other member
            rw [same, ← own] at found
            rw [show (operation.row lib row.id verdict).idempotencyKey = operation.idempotencyKey from rfl,
              fresh] at found
            cases found
          omega
      · omega

theorem keyed_reached (reached : Reached world lib store) : store.uploads.Keyed := by
  induction reached with
  | refl => exact keyed_empty
  | tail _ step ih =>
    have through := step.through
    clear step
    induction through with
    | refl => exact ih
    | tail _ uploading keyed => exact keyed.uploading uploading

/-- Receipts stay. -/
theorem receipts_later (later : Later world lib store after) :
    store.uploads.receipts.Keeps Eq after.uploads.receipts := by
  induction later with
  | refl => exact .refl (fun _ => rfl) _
  | tail _ step ih =>
    refine ih.trans (fun _ _ _ e e' => e.trans e') ?_
    have through := step.through
    clear step
    induction through with
    | refl => exact .refl (fun _ => rfl) _
    | tail _ uploading kept => exact kept.trans (fun _ _ _ e e' => e.trans e') uploading.keeps

/-- In every state: no key is applied twice; an operation that is taken in is applied only as the
first one with its key and at the sequence that its subject has; and whenever an operation with the
key of an earlier one comes later, it moves nothing: if it is the operation that the key was new
with once more it is a duplicate that changes nothing, and if its digest is another one it is kept
for review as a conflict over the key. -/
theorem offline_keys (reached : Reached world lib store) :
    (∀ key, (store.uploads.operations.countP fun operation =>
      operation.idempotencyKey = key && operation.result = .applied) ≤ 1) ∧
    ∀ sur row context operation taken, store.ingestOperation world lib sur row context operation = .ok taken →
      (∃ verdict, taken.uploads.operations = store.uploads.operations ++ [operation.row lib row.id verdict] ∧
        (verdict.result = .applied → (∀ other ∈ store.uploads.operations,
          other.idempotencyKey ≠ operation.idempotencyKey) ∧ AppliedAt store taken row operation verdict) ∧
        (verdict.result ≠ .applied → taken.custody.events = store.custody.events)) ∧
      ∀ later, Later world lib taken later → ∀ sur' row' context' operation' after,
        operation'.idempotencyKey = operation.idempotencyKey →
        later.ingestOperation world lib sur' row' context' operation' = .ok after →
        ∃ verdict, after.uploads.operations = later.uploads.operations ++ [operation'.row lib row'.id verdict] ∧
          verdict.result ≠ .applied ∧ after.custody.events = later.custody.events ∧
          (store.uploads.receipts.get? operation.idempotencyKey = none →
            (operation' = operation → row'.organizationId = row.organizationId → row'.editionId = row.editionId →
              verdict.result = .duplicate ∧ after.custody = later.custody) ∧
            (operation'.digest lib ≠ operation.digest lib → verdict.Conflicts)) := by
  have keyed := keyed_reached reached
  refine ⟨keyed.once, fun sur row context operation taken took => ?_⟩
  obtain ⟨verdict, operations, written⟩ := ingestOperation_wrote took
  constructor
  · refine ⟨verdict, operations, ?_⟩
    rcases written with ⟨_, -, -, unapplied, events, -⟩ | ⟨fresh, -, applied, unapplied⟩
    · exact ⟨fun applied => absurd applied unapplied, fun _ => events⟩
    · refine ⟨fun is => ⟨fun other member same => ?_, applied is⟩, unapplied⟩
      obtain ⟨receipt, found⟩ := keyed.known other member
      rw [same, fresh] at found
      cases found
  · intro later between sur' row' context' operation' after key again
    -- The receipt that the key has by now is still there.
    obtain ⟨receipt, found, first⟩ : ∃ receipt, taken.uploads.receipts.get? operation.idempotencyKey = some receipt ∧
        (store.uploads.receipts.get? operation.idempotencyKey = none → receipt = operation.receipt lib row verdict) := by
      rcases written with ⟨prior, found, same, -⟩ | ⟨fresh, inserted, -⟩
      · exact ⟨prior, by rw [same]; exact found, fun fresh => by rw [found] at fresh; cases fresh⟩
      · exact ⟨_, by rw [Table.get?_insert? inserted]; exact if_pos rfl, fun _ => rfl⟩
    obtain ⟨_, kept, rfl⟩ := receipts_later between _ _ found
    obtain ⟨verdict', operations', ⟨prior, known, -, unapplied, events, same, conflict⟩ | ⟨fresh, -⟩⟩ :=
      ingestOperation_wrote again
    · rw [key, kept] at known
      cases known
      refine ⟨verdict', operations', unapplied, events, fun fresh => ?_⟩
      obtain rfl := first fresh
      constructor
      · rintro rfl organization edition
        exact same organization.symm edition.symm rfl
      · exact fun differs => conflict differs.symm
    · rw [key, kept] at fresh
      cases fresh

/-! ## A lot that is scanned on its way into a van -/

/-- A library whose digests are short. -/
def scanLibrary : Primitives := { depotLibrary with
  sha256 := fun bytes => String.ofList [Char.ofNat (bytes.data.toList.foldl (fun n b => (31 * n + b.toNat) % 50000) 7)] }

def labelledLot : List Operation := [
  depotOperation 1 (.createLogisticsNode (depotNode .storageSite "site")),
  depotOperation 2 (.createLogisticsNode (depotNode .vehicle "van")),
  depotOperation 3 (.registerStockLot ⟨none, "cable", "Cable", "cable", "item", 5, "", .organization, none, none⟩),
  depotOperation 4 (.recordLogisticsEvent ⟨2, lotMovement .receive (some 1001) 5, 0⟩),
  depotOperation 5 (.createLogisticsLabel ⟨⟨.stockLot, 3001⟩, "LOT-1", "lot-qr-identifier-00000001"⟩),
  depotOperation 6 (.createLogisticsLabel ⟨⟨.node, 2001⟩, "VAN-1", "van-qr-identifier-00000001"⟩)]

def lotScan (sequence : Int) (key : Uuid) (expected : Int) : OfflineOperationInput where
  sequence
  idempotencyKey := key
  expectedSubjectSequence := expected
  action := .move
  labelCode := "LOT-1"
  occurredAt := depotMoment
  destinationLabelCode := "VAN-1"
  quantity := some 5

def scanBatch (operations : List OfflineOperationInput) : OfflineBatchInput where
  editionId := 2
  deviceCode := "scanner"
  snapshotVersion := 0
  policyVersion := "1"
  expiresAt := ⟨.utc 1 (by decide), rfl⟩
  operations

def normalizedScan : OfflineOperation where
  sequence := 1
  idempotencyKey := 77
  expectedSubjectSequence := 1
  action := .move
  labelCode := "LOT-1"
  occurredAt := depotMoment
  sourceLabelCode := ""
  destinationLabelCode := "VAN-1"
  quantity := some 5
  observedCondition := ""
  quantity_nonneg := by rintro _ ⟨⟩; decide
  condition_text := .inl rfl

/-- The scan in a batch of its own. -/
def scanAlone (n : Nat) (store : Store) : Except LogisticsError (Store × OfflineScanBatch × Store) := do
  let (opened, row) ← store.openBatch depotWorld (depotSurroundings n) (depotRequest (Fin.ofNat _ n))
    (scanBatch [lotScan 1 77 1]) ⟨"scanner", "1", "Season setup", [normalizedScan]⟩
  let taken ← opened.ingestOperation depotWorld scanLibrary (depotSurroundings n) row
    ⟨9, "Season setup", Fin.ofNat _ (1000 * n + 2), Fin.ofNat _ (1000 * n + 3)⟩ normalizedScan
  return (opened, row, taken)

/-- Sent again in its place it is a duplicate. -/
theorem normalizedScan_repeats : ∃ opened row taken reopened row' after,
    scanAlone 7 ((logistics depotWorld scanLibrary).run .empty labelledLot) = .ok (opened, row, taken) ∧
      scanAlone 8 taken = .ok (reopened, row', after) ∧ ∃ verdict : Verdict, verdict.result = .duplicate ∧
        after.uploads.operations = reopened.uploads.operations ++ [normalizedScan.row scanLibrary row'.id verdict] ∧
        after.custody = reopened.custody := by
  obtain ⟨⟨⟨opened, row, taken⟩, reopened, row', after⟩, ran⟩ := Except.exists_ok (x := do
    let first ← scanAlone 7 ((logistics depotWorld scanLibrary).run .empty labelledLot)
    let second ← scanAlone 8 first.2.2
    require (first.1.uploads.receipts.get? 77 = none ∧ second.2.1.organizationId = first.2.1.organizationId ∧
      second.2.1.editionId = first.2.1.editionId) (.integrity "")
    return (first, second)) (by decide +kernel)
  simp only [bind_eq_ok, require_eq_ok, pure_eq_ok, Prod.mk.injEq] at ran
  obtain ⟨first, scanned, second, again, _, ⟨fresh, organization, edition⟩, rfl, rfl⟩ := ran
  refine ⟨_, _, _, _, _, _, scanned, again, ?_⟩
  simp only [scanAlone, bind_eq_ok, pure_eq_ok, Prod.mk.injEq] at scanned again
  obtain ⟨⟨_, _⟩, opens, _, took, rfl, rfl, rfl⟩ := scanned
  obtain ⟨⟨_, _⟩, reopens, _, retook, rfl, rfl, rfl⟩ := again
  obtain ⟨-, keys⟩ := offline_keys ((reached_run labelledLot).tail (.opened _ _ _ _ _ opens))
  obtain ⟨-, repeats⟩ := keys _ _ _ _ _ took
  obtain ⟨verdict, operations, -, -, same⟩ :=
    repeats _ (.single (.opened _ _ _ _ _ reopens)) _ _ _ _ _ rfl retook
  obtain ⟨duplicate, custody⟩ := (same fresh).1 rfl organization edition
  exact ⟨verdict, duplicate, operations, custody⟩

/-- Sent again in another place than it had, an applied scan is held for a conflict. -/
theorem resent_scan_conflicts :
    (((logistics depotWorld scanLibrary).run .empty (labelledLot ++ [
        depotOperation 7 (.ingestOfflineScanBatch (scanBatch [lotScan 1 76 1, lotScan 2 77 2])),
        depotOperation 8 (.ingestOfflineScanBatch (scanBatch [lotScan 1 77 2]))])).uploads.operations.map
          fun operation =>
      (operation.batchId, operation.sequence, operation.idempotencyKey, operation.expectedSubjectSequence,
        Verdict.mk operation.result operation.reasonCode operation.appliedEventId operation.discrepancyId)) = [
      (7001, 1, 76, 1, ⟨.applied, "logistics_offline_applied", some 7002, none⟩),
      (7001, 2, 77, 2, ⟨.applied, "logistics_offline_applied", some 7004, none⟩),
      (8001, 1, 77, 2, ⟨.review, "logistics_offline_idempotency_conflict", none, some 8003⟩)] := by
  decide +kernel

end Maru.Logistics

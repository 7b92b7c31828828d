import Maru.Logistics.LogisticsMachine

/-!
# What commands leave as it was

No command takes anything away: rows of the catalog keep what identifies them
(`Catalog.Grows`) and receipts stay. A command that moves nothing changes neither the
events and projections nor the uploads (`submit_still`).
-/

namespace Maru.Logistics

/-- Rows stay; keys, manifests and offers change only in their progress. -/
structure Catalog.Grows (before after : Catalog) : Prop where
  parties : before.parties.Keeps Eq after.parties
  nodes : before.nodes.Keeps Eq after.nodes
  assets : before.assets.Keeps Eq after.assets
  stockLots : before.stockLots.Keeps Eq after.stockLots
  keys : before.keys.Keeps
    (fun k k' => k.aggregateVersion ≤ k'.aggregateVersion ∧ ∃ v, k' = { k with aggregateVersion := v }) after.keys
  agreements : before.agreements ⊆ after.agreements
  labels : before.labels.Keeps Eq after.labels
  manifests : before.manifests.Keeps
    (fun m m' => ∃ n s v, m' = { m with lineCount := n, status := s, aggregateVersion := v }) after.manifests
  manifestLines : before.manifestLines.Keeps Eq after.manifestLines

theorem Catalog.Grows.refl (catalog : Catalog) : catalog.Grows catalog where
  parties := .refl (fun _ => rfl) _
  nodes := .refl (fun _ => rfl) _
  assets := .refl (fun _ => rfl) _
  stockLots := .refl (fun _ => rfl) _
  keys := .refl (fun _ => ⟨Nat.le_refl _, _, rfl⟩) _
  agreements := List.Subset.refl _
  labels := .refl (fun _ => rfl) _
  manifests := .refl (fun _ => ⟨_, _, _, rfl⟩) _
  manifestLines := .refl (fun _ => rfl) _

theorem Catalog.Grows.trans {a b c : Catalog} (h : a.Grows b) (h' : b.Grows c) : a.Grows c where
  parties := h.parties.trans (fun _ _ _ e e' => e.trans e') h'.parties
  nodes := h.nodes.trans (fun _ _ _ e e' => e.trans e') h'.nodes
  assets := h.assets.trans (fun _ _ _ e e' => e.trans e') h'.assets
  stockLots := h.stockLots.trans (fun _ _ _ e e' => e.trans e') h'.stockLots
  keys := h.keys.trans
    (fun _ _ _ ⟨le, _, e⟩ ⟨le', _, e'⟩ => ⟨Nat.le_trans le le', _, by rw [e', e]⟩) h'.keys
  agreements := List.Subset.trans h.agreements h'.agreements
  labels := h.labels.trans (fun _ _ _ e e' => e.trans e') h'.labels
  manifests := h.manifests.trans (fun _ _ _ ⟨_, _, _, e⟩ ⟨_, _, _, e'⟩ => ⟨_, _, _, by rw [e', e]⟩) h'.manifests
  manifestLines := h.manifestLines.trans (fun _ _ _ e e' => e.trans e') h'.manifestLines

/-- Nothing is moved, uploaded or forgotten. -/
structure Store.Still (before after : Store) : Prop where
  catalog : before.catalog.Grows after.catalog
  custody : after.custody = before.custody
  uploads : after.uploads = before.uploads
  receipts : before.receipts.Keeps Eq after.receipts

/-- The program leads only to stores that are still. -/
abbrev StaysStill {α : Type} (store : Store) (x : Except LogisticsError (Store × α)) : Prop :=
  Ends (fun p => store.Still p.1) (fun _ => True) x

section

variable {world : World} {lib : Primitives} {sur : Surroundings} {request : Request} {store : Store}

theorem Store.Still.refl (store : Store) : store.Still store :=
  ⟨.refl _, rfl, rfl, .refl (fun _ => rfl) _⟩

/-- Only the catalog changes. -/
theorem Store.still_catalog {catalog : Catalog} (h : store.catalog.Grows catalog) : store.Still { store with catalog } :=
  ⟨h, rfl, rfl, .refl (fun _ => rfl) _⟩

theorem appendEvidence_still {acted : Store} (h : store.Still acted) {operation digest : String} {objectId : Uuid}
    {version : Nat} : StaysStill store (acted.appendEvidence sur request operation digest objectId version) := by
  rw [Store.appendEvidence]
  refine .bind (.getOr fun _ => trivial) fun receipts inserted => ?_
  exact ⟨h.catalog, h.custody, h.uploads,
    h.receipts.trans (fun _ _ _ e e' => e.trans e') (Table.keeps_insert? (fun _ => rfl) inserted)⟩

theorem command_still {operation digest : String} {act : Except LogisticsError (Store × Uuid × Nat)}
    (h : StaysStill store act) : StaysStill store (store.command sur request operation digest act) := by
  rw [Store.command]
  refine .skip fun found => ?_
  cases found with
  | some receipt => exact Store.Still.refl store
  | none => exact .bind h fun _ acted => appendEvidence_still acted

/-! ## The catalog's commands -/

theorem createLogisticsParty_still {input : PartyInput} :
    StaysStill store (store.createLogisticsParty world lib sur request input) := by
  rw [Store.createLogisticsParty]
  iterate 8 refine .skip fun _ => ?_
  refine command_still (.skip fun _ => .skip fun _ => .bind (.getOr fun _ => trivial) fun parties inserted => ?_)
  exact Store.still_catalog { Catalog.Grows.refl store.catalog with
    parties := Table.keeps_insert? (fun _ => rfl) inserted }

theorem createRestrictedLogisticsAddress_still {input : AddressInput} :
    StaysStill store (store.createRestrictedLogisticsAddress world lib sur request input) := by
  rw [Store.createRestrictedLogisticsAddress]
  iterate 13 refine .skip fun _ => ?_
  refine command_still (.skip fun _ => .skip fun _ => .skip fun addresses => ?_)
  exact Store.still_catalog { Catalog.Grows.refl store.catalog with }

theorem createLogisticsNode_still {input : NodeInput} :
    StaysStill store (store.createLogisticsNode world lib sur request input) := by
  rw [Store.createLogisticsNode]
  iterate 11 refine .skip fun _ => ?_
  refine command_still ?_
  iterate 3 refine .skip fun _ => ?_
  refine .bind (.getOr fun _ => trivial) fun nodes inserted => ?_
  exact Store.still_catalog { Catalog.Grows.refl store.catalog with
    nodes := Table.keeps_insert? (fun _ => rfl) inserted }

theorem createAsset_grows {catalog : Catalog} {asset : Asset} :
    Ends catalog.Grows (fun _ => True) (catalog.createAsset asset) := by
  rw [Catalog.createAsset]
  refine .skip fun _ => .skip fun _ => .bind (.getOr fun _ => trivial) fun assets inserted => ?_
  exact { Catalog.Grows.refl catalog with assets := Table.keeps_insert? (fun _ => rfl) inserted }

theorem createStockLot_grows {catalog : Catalog} {lot : StockLot} :
    Ends catalog.Grows (fun _ => True) (catalog.createStockLot lot) := by
  rw [Catalog.createStockLot]
  refine .skip fun _ => .bind (.getOr fun _ => trivial) fun stockLots inserted => ?_
  exact { Catalog.Grows.refl catalog with stockLots := Table.keeps_insert? (fun _ => rfl) inserted }

theorem registerSerializedAsset_still {input : AssetInput} :
    StaysStill store (store.registerSerializedAsset world lib sur request input) := by
  rw [Store.registerSerializedAsset]
  iterate 11 refine .skip fun _ => ?_
  exact command_still (.bind createAsset_grows fun _ => Store.still_catalog)

theorem registerStockLot_still {input : StockLotInput} :
    StaysStill store (store.registerStockLot world lib sur request input) := by
  rw [Store.registerStockLot]
  iterate 10 refine .skip fun _ => ?_
  exact command_still (.bind createStockLot_grows fun _ => Store.still_catalog)

theorem registerPhysicalKey_still {input : KeyInput} :
    StaysStill store (store.registerPhysicalKey world lib sur request input) := by
  rw [Store.registerPhysicalKey]
  iterate 7 refine .skip fun _ => ?_
  refine command_still (.skip fun _ => .bind (.getOr fun _ => trivial) fun keys inserted => ?_)
  exact Store.still_catalog { Catalog.Grows.refl store.catalog with
    keys := Table.keeps_insert? (fun _ => ⟨Nat.le_refl _, _, rfl⟩) inserted }

theorem createLogisticsLabel_still {input : LabelInput} :
    StaysStill store (store.createLogisticsLabel world lib sur request input) := by
  rw [Store.createLogisticsLabel]
  iterate 7 refine .skip fun _ => ?_
  refine command_still (.skip fun _ => .skip fun _ => .bind (.getOr fun _ => trivial) fun labels inserted => ?_)
  exact Store.still_catalog { Catalog.Grows.refl store.catalog with
    labels := Table.keeps_insert? (fun _ => rfl) inserted }

theorem assignKeyholderResponsibility_still {input : KeyholderInput} :
    StaysStill store (store.assignKeyholderResponsibility world lib sur request input) := by
  rw [Store.assignKeyholderResponsibility]
  iterate 2 refine .skip fun _ => ?_
  refine .bind (.getOr fun _ => trivial) fun key found => ?_
  rw [Option.filter_eq_some_iff] at found
  iterate 6 refine .skip fun _ => ?_
  refine command_still ?_
  refine Store.still_catalog { Catalog.Grows.refl store.catalog with keys := Table.keeps_save ?_ fun other h => ?_ }
  · exact fun _ => ⟨Nat.le_refl _, _, rfl⟩
  · -- The row that is saved over is the one that was found.
    have id := (Table.get?_eq_some.mp found.1).2
    rw [show key.id = input.keyId from id, found.1] at h
    cases h
    exact ⟨Nat.le_succ _, _, rfl⟩

theorem recordAssetAgreement_still {input : AgreementInput} :
    StaysStill store (store.recordAssetAgreement world lib sur request input) := by
  rw [Store.recordAssetAgreement]
  iterate 11 refine .skip fun _ => ?_
  refine command_still ?_
  exact Store.still_catalog { Catalog.Grows.refl store.catalog with agreements := List.subset_append_left _ _ }

theorem createReusableKit_still {input : KitInput} :
    StaysStill store (store.createReusableKit world lib sur request input) := by
  rw [Store.createReusableKit]
  iterate 8 refine .skip fun _ => ?_
  refine command_still (.skip fun _ => .skip fun kits => ?_)
  exact Store.still_catalog { Catalog.Grows.refl store.catalog with }

/-! ## Manifests and offers -/

theorem insertLines_grows {catalog : Catalog} {manifestId : Uuid} {lines : List ManifestLine} :
    Ends catalog.Grows (fun _ => True) (catalog.insertLines sur manifestId lines) := by
  rw [Catalog.insertLines]
  refine Ends.foldlM (I := fun current _ => catalog.Grows current) (fun current line rest grown => ?_) (.refl _)
  refine .bind (.getOr fun _ => trivial) fun manifestLines inserted => grown.trans ?_
  exact { Catalog.Grows.refl current with manifestLines := Table.keeps_insert? (fun _ => rfl) inserted }

theorem createLogisticsManifest_still {input : ManifestInput} :
    StaysStill store (store.createLogisticsManifest world lib sur request input) := by
  rw [Store.createLogisticsManifest]
  iterate 13 refine .skip fun _ => ?_
  refine command_still (.skip fun _ => .bind (.getOr fun _ => trivial) fun manifests inserted => ?_)
  refine .bind insertLines_grows fun catalog grown => Store.still_catalog (Catalog.Grows.trans ?_ grown)
  exact { Catalog.Grows.refl store.catalog with
    manifests := Table.keeps_insert? (fun _ => ⟨_, _, _, rfl⟩) inserted }

theorem lockManifest_found {catalog : Catalog} {editionId manifestId : Uuid} {version : Int} {status : ManifestStatus} :
    Ends (fun manifest => catalog.manifests.get? manifest.id = some manifest) (fun _ => True)
      (catalog.lockManifest request editionId manifestId version status) := by
  rw [Catalog.lockManifest]
  refine .bind (.getOr fun _ => trivial) fun manifest found => ?_
  iterate 2 refine .skip fun _ => ?_
  have row := (Option.filter_eq_some_iff.mp found).1
  exact Table.get?_eq_some.mpr ⟨(Table.get?_eq_some.mp row).1, rfl⟩

/-- Saving a manifest's progress. -/
theorem keeps_progress {catalog : Catalog} {manifest : LogisticsManifest}
    (h : catalog.manifests.get? manifest.id = some manifest) {n : Nat} {s : ManifestStatus} {v : Nat} :
    catalog.manifests.Keeps (fun m m' => ∃ n s v, m' = { m with lineCount := n, status := s, aggregateVersion := v })
      (catalog.manifests.save { manifest with lineCount := n, status := s, aggregateVersion := v }) := by
  refine Table.keeps_save (fun _ => ⟨_, _, _, rfl⟩) fun other found => ?_
  obtain rfl := Option.some.inj (h.symm.trans found)
  exact ⟨_, _, _, rfl⟩

theorem addManifestLine_still {input : AddLineInput} :
    StaysStill store (store.addManifestLine world lib sur request input) := by
  rw [Store.addManifestLine]
  iterate 4 refine .skip fun _ => ?_
  split
  · refine .skip fun notes => command_still ?_
    refine .bind lockManifest_found fun manifest found => ?_
    iterate 6 refine .skip fun _ => ?_
    refine .bind (.getOr fun _ => trivial) fun manifestLines inserted => ?_
    exact Store.still_catalog { Catalog.Grows.refl store.catalog with
      manifestLines := Table.keeps_insert? (fun _ => rfl) inserted, manifests := keeps_progress found }
  · exact trivial

theorem changeManifestState_still {input : ManifestStateInput} :
    StaysStill store (store.changeManifestState world lib sur request input) := by
  rw [Store.changeManifestState]
  iterate 4 refine .skip fun _ => ?_
  refine command_still (.bind lockManifest_found fun manifest found => .skip fun _ => ?_)
  exact Store.still_catalog { Catalog.Grows.refl store.catalog with manifests := keeps_progress found }

theorem submitEquipmentOffer_still {input : OfferInput} :
    StaysStill store (store.submitEquipmentOffer world lib sur request input) := by
  rw [Store.submitEquipmentOffer]
  iterate 15 refine .skip fun _ => ?_
  refine command_still ?_
  iterate 2 refine .skip fun _ => ?_
  exact Store.still_catalog { Catalog.Grows.refl store.catalog with }

theorem withdrawEquipmentOffer_still {input : WithdrawOfferInput} :
    StaysStill store (store.withdrawEquipmentOffer world lib sur request input) := by
  rw [Store.withdrawEquipmentOffer]
  iterate 4 refine .skip fun _ => ?_
  refine command_still ?_
  iterate 3 refine .skip fun _ => ?_
  exact Store.still_catalog { Catalog.Grows.refl store.catalog with }

theorem acceptItem_grows {catalog : Catalog} {offer : EquipmentOffer} {item : EquipmentOfferItem × Nat} :
    Ends catalog.Grows (fun _ => True) (catalog.acceptItem sur offer item) := by
  rw [Catalog.acceptItem]
  obtain ⟨⟨id, kind, quantity, serialNumber⟩, index⟩ := item
  have agreed (taken : Catalog) (agreement : AssetAgreement) :
      taken.Grows { taken with agreements := taken.agreements ++ [agreement] } :=
    { Catalog.Grows.refl taken with agreements := List.subset_append_left _ _ }
  cases kind with
  | serialized => exact .bind createAsset_grows fun taken grown => grown.trans (agreed taken _)
  | bulk => exact .bind createStockLot_grows fun taken grown => grown.trans (agreed taken _)

theorem takeOver_grows {catalog : Catalog} {offer : EquipmentOffer} {outcome : ReviewOutcome} :
    Ends catalog.Grows (fun _ => True) (catalog.takeOver sur offer outcome) := by
  cases outcome with
  | rejected => exact Catalog.Grows.refl _
  | accepted =>
    refine Ends.foldlM (I := fun current _ => catalog.Grows current) (fun current item rest grown => ?_) (.refl _)
    exact acceptItem_grows.mono fun _ => grown.trans

theorem reviewEquipmentOffer_still {input : ReviewOfferInput} :
    StaysStill store (store.reviewEquipmentOffer world lib sur request input) := by
  rw [Store.reviewEquipmentOffer]
  iterate 4 refine .skip fun _ => ?_
  refine command_still ?_
  rw [Store.reviewOffer]
  refine .skip fun offer => ?_
  iterate 3 refine .skip fun _ => ?_
  refine .bind takeOver_grows fun catalog grown => ?_
  exact Store.still_catalog (grown.trans { Catalog.Grows.refl catalog with })

end

/-! ## Commands that move -/

/-- One write to the events and projections. -/
inductive Custody.Step (world : World) (catalog : Catalog) : Custody → Custody → Prop
  | appended {before after : Custody} (sur : Surroundings) (context : MovementContext)
      (movement : Movement) (expected : Nat) (record : RecordedMovement) :
      appendMovementEvent world sur catalog before context movement expected = .ok (after, record) →
      Custody.Step world catalog before after
  | noted {before after : Custody} (discrepancy : LogisticsDiscrepancy) :
      before.writeDiscrepancy world discrepancy = .ok after → Custody.Step world catalog before after
  | opened {before after : Custody} (organizationId editionId : Uuid) (control : LogisticsEditionControl) :
      before.ensureControl world organizationId editionId = .ok (after, control) →
        Custody.Step world catalog before after

/-- Only movements, uploads and receipts are added. -/
structure Store.Moves (world : World) (before after : Store) : Prop where
  catalog : after.catalog = before.catalog
  custody : Relation.ReflTransGen (Custody.Step world before.catalog) before.custody after.custody
  receipts : before.receipts.Keeps Eq after.receipts

theorem Store.Moves.refl (world : World) (store : Store) : store.Moves world store :=
  ⟨rfl, .refl, .refl (fun _ => rfl) _⟩

theorem Store.Moves.trans {world : World} {a b c : Store} (h : a.Moves world b)
    (h' : b.Moves world c) : a.Moves world c where
  catalog := h'.catalog.trans h.catalog
  custody := h.custody.trans (h.catalog ▸ h'.custody)
  receipts := h.receipts.trans (fun _ _ _ e e' => e.trans e') h'.receipts

section

variable {world : World} {lib : Primitives} {sur : Surroundings} {request : Request} {store before : Store}

/-- One write, and any uploads. -/
theorem Store.moves_of_step {custody : Custody} {uploads : Uploads}
    (h : Custody.Step world store.catalog store.custody custody) :
    store.Moves world { store with custody, uploads } :=
  ⟨rfl, .single h, .refl (fun _ => rfl) _⟩

theorem Store.moves_uploads (store : Store) (uploads : Uploads) : store.Moves world { store with uploads } :=
  ⟨rfl, .refl, .refl (fun _ => rfl) _⟩

theorem appendEvidence_moves (h : before.Moves world store) {operation digest : String}
    {objectId : Uuid} {version : Nat} : Ends (fun p => before.Moves world p.1) (fun _ => True)
      (store.appendEvidence sur request operation digest objectId version) := by
  rw [Store.appendEvidence]
  refine .bind (.getOr fun _ => trivial) fun receipts inserted => ?_
  exact ⟨h.catalog, h.custody,
    h.receipts.trans (fun _ _ _ e e' => e.trans e') (Table.keeps_insert? (fun _ => rfl) inserted)⟩

theorem command_moves {operation digest : String} {act : Except LogisticsError (Store × Uuid × Nat)}
    (h : Ends (fun p => store.Moves world p.1) (fun _ => True) act) :
    Ends (fun p => store.Moves world p.1) (fun _ => True) (store.command sur request operation digest act) := by
  rw [Store.command]
  refine .skip fun found => ?_
  cases found with
  | some receipt => exact Store.Moves.refl world store
  | none => exact .bind h fun _ acted => appendEvidence_moves acted

theorem appendMovementEvent_moves {context : MovementContext} {movement : Movement}
    {expected : Nat} : Ends (fun p => store.Moves world p.1) (fun _ => True)
      (store.appendMovementEvent world sur context movement expected) := by
  cases h : Logistics.appendMovementEvent world sur store.catalog store.custody context movement expected with
  | error e =>
    rw [Store.appendMovementEvent, h]
    exact trivial
  | ok p =>
    rw [Store.appendMovementEvent, h]
    exact Store.moves_of_step (.appended sur context movement expected p.2 h)

theorem appendAlone_moves {context : MovementContext} {movement : Movement} {expected : Nat} :
    Ends (fun p => store.Moves world p.1) (fun _ => True) (store.appendAlone world sur context movement expected) := by
  rw [Store.appendAlone]
  exact .bind appendMovementEvent_moves fun p moved => .skip fun _ => moved

theorem recordLogisticsEvent_moves {input : RecordEventInput} :
    Ends (fun p => store.Moves world p.1) (fun _ => True) (store.recordLogisticsEvent world lib sur request input) := by
  rw [Store.recordLogisticsEvent]
  iterate 6 refine .skip fun _ => ?_
  exact command_moves appendAlone_moves

theorem recordManifestReceipt_moves {input : ManifestReceiptInput} :
    Ends (fun p => store.Moves world p.1) (fun _ => True) (store.recordManifestReceipt world lib sur request input) := by
  rw [Store.recordManifestReceipt]
  iterate 5 refine .skip fun _ => ?_
  split
  · exact trivial
  · iterate 2 refine .skip fun _ => ?_
    exact command_moves appendAlone_moves

/-! ## Uploads -/

theorem createConflict_moves {batch : OfflineScanBatch} {label : Option LogisticsLabel}
    {id : Uuid} {description : String} :
    Ends (store.Moves world) (fun _ => True) (store.createConflict world batch label id description) := by
  generalize hd : store.createConflict world batch label id description = x
  cases x with
  | error e => exact trivial
  | ok after =>
    simp only [Store.createConflict, bind_eq_ok, pure_eq_ok] at hd
    obtain ⟨custody, noted, rfl⟩ := hd
    exact Store.moves_of_step (.noted _ noted)

theorem settleOperation_moves {batch : OfflineScanBatch} {context : OperationContext}
    {operation : OfflineOperation} : Ends (fun p => store.Moves world p.1) (fun _ => True)
      (store.settleOperation world sur batch context operation) := by
  rw [Store.settleOperation]
  split
  · split
    · rename_i h
      exact appendMovementEvent_moves.ok h
    · split
      · exact .bind createConflict_moves fun _ moved => moved
      · exact trivial
  · exact .bind createConflict_moves fun _ moved => moved

theorem repeatOperation_moves {batch : OfflineScanBatch} {context : OperationContext}
    {operation : OfflineOperation} {prior : OfflineOperationReceipt} :
    Ends (fun p => store.Moves world p.1) (fun _ => True)
      (store.repeatOperation world lib batch context operation prior) := by
  rw [Store.repeatOperation]
  split
  · exact Store.Moves.refl world store
  · exact .bind createConflict_moves fun _ moved => moved

theorem createOperation_moves {operation : OfflineScanOperation} :
    Ends (store.Moves world) (fun _ => True) (store.createOperation operation) := by
  rw [Store.createOperation]
  iterate 5 refine .skip fun _ => ?_
  exact store.moves_uploads _

theorem createOperationReceipt_moves {batch : OfflineScanBatch} {operation : OfflineOperation} {verdict : Verdict} :
    Ends (store.Moves world) (fun _ => True) (store.createOperationReceipt lib batch operation verdict) := by
  rw [Store.createOperationReceipt]
  exact .skip fun _ => store.moves_uploads _

theorem ingestOperation_moves {batch : OfflineScanBatch} {context : OperationContext} {operation : OfflineOperation} :
    Ends (store.Moves world) (fun _ => True) (store.ingestOperation world lib sur batch context operation) := by
  rw [Store.ingestOperation]
  split
  · refine .bind repeatOperation_moves fun p moved => ?_
    exact createOperation_moves.mono fun _ => moved.trans
  · refine .bind settleOperation_moves fun p moved => ?_
    refine .bind (P := p.1.Moves world) createOperationReceipt_moves fun _ kept => ?_
    exact createOperation_moves.mono fun _ => (moved.trans kept).trans

theorem openBatch_moves {input : OfflineBatchInput} {batch : OfflineBatch} :
    Ends (fun p => store.Moves world p.1) (fun _ => True) (store.openBatch world sur request input batch) := by
  generalize hd : store.openBatch world sur request input batch = x
  cases x with
  | error e => exact trivial
  | ok after =>
    simp only [Store.openBatch, bind_eq_ok, pure_eq_ok] at hd
    obtain ⟨⟨custody, control⟩, opened, -, -, -, -, batches, -, rfl⟩ := hd
    exact Store.moves_of_step (.opened _ _ control opened)

theorem closeBatch_moves {row : OfflineScanBatch} :
    Ends (store.Moves world) (fun _ => True) (store.closeBatch sur row) := by
  rw [Store.closeBatch]
  exact .skip fun _ => store.moves_uploads _

theorem reconcileBatch_moves {input : OfflineBatchInput} {batch : OfflineBatch} :
    Ends (fun p => store.Moves world p.1) (fun _ => True)
      (store.reconcileBatch world lib sur request input batch) := by
  rw [Store.reconcileBatch]
  refine .bind openBatch_moves fun p opened => ?_
  refine .bind (P := store.Moves world) ?_ fun ingested moved => ?_
  · exact Ends.foldlM (I := fun current _ => store.Moves world current)
      (fun current operation rest moved => ingestOperation_moves.mono fun _ => moved.trans) opened
  · exact .bind closeBatch_moves fun _ closed => .skip fun _ => moved.trans closed

theorem ingestOfflineScanBatch_moves {input : OfflineBatchInput} :
    Ends (fun p => store.Moves world p.1) (fun _ => True)
      (store.ingestOfflineScanBatch world lib sur request input) := by
  rw [Store.ingestOfflineScanBatch]
  iterate 2 refine .skip fun _ => ?_
  exact command_moves reconcileBatch_moves

/-! ## All commands -/

/-- What one transaction can do to the store. -/
structure Store.Advances (world : World) (before after : Store) : Prop where
  catalog : before.catalog.Grows after.catalog
  custody : Relation.ReflTransGen (Custody.Step world before.catalog) before.custody after.custody
  receipts : before.receipts.Keeps Eq after.receipts

theorem Store.Still.advances {after : Store} (h : before.Still after) : before.Advances world after :=
  ⟨h.catalog, h.custody ▸ .refl, h.receipts⟩

theorem Store.Moves.advances {after : Store} (h : before.Moves world after) : before.Advances world after :=
  ⟨h.catalog ▸ .refl _, h.custody, h.receipts⟩

/-- The commands that record movements. -/
def Command.moves : Command → Bool
  | .ingestOfflineScanBatch _ | .recordLogisticsEvent _ | .recordManifestReceipt _ => true
  | _ => false

theorem submit_still {command : Command} (h : command.moves = false) :
    StaysStill store (store.submit world lib sur request command) := by
  cases command with
  | createLogisticsParty input => exact createLogisticsParty_still
  | createRestrictedLogisticsAddress input => exact createRestrictedLogisticsAddress_still
  | createLogisticsNode input => exact createLogisticsNode_still
  | registerSerializedAsset input => exact registerSerializedAsset_still
  | registerStockLot input => exact registerStockLot_still
  | registerPhysicalKey input => exact registerPhysicalKey_still
  | createLogisticsLabel input => exact createLogisticsLabel_still
  | assignKeyholderResponsibility input => exact assignKeyholderResponsibility_still
  | recordAssetAgreement input => exact recordAssetAgreement_still
  | createReusableKit input => exact createReusableKit_still
  | createLogisticsManifest input => exact createLogisticsManifest_still
  | addManifestLine input => exact addManifestLine_still
  | changeManifestState input => exact changeManifestState_still
  | submitEquipmentOffer input => exact submitEquipmentOffer_still
  | withdrawEquipmentOffer input => exact withdrawEquipmentOffer_still
  | reviewEquipmentOffer input => exact reviewEquipmentOffer_still
  | ingestOfflineScanBatch | recordLogisticsEvent | recordManifestReceipt => cases h

theorem submit_advances (command : Command) :
    Ends (fun p => store.Advances world p.1) (fun _ => True) (store.submit world lib sur request command) := by
  cases moves : command.moves with
  | false => exact (submit_still moves).mono fun _ => Store.Still.advances
  | true =>
    cases command <;> cases moves
    · exact ingestOfflineScanBatch_moves.mono fun _ => Store.Moves.advances
    · exact recordLogisticsEvent_moves.mono fun _ => Store.Moves.advances
    · exact recordManifestReceipt_moves.mono fun _ => Store.Moves.advances

theorem dispose_still {organizationId : Uuid} {editionId : Option Uuid} {addressIds : List Uuid} :
    Ends store.Still (fun _ => True)
      (store.disposeExpiredRestrictedAddresses sur organizationId editionId addressIds) := by
  rw [Store.disposeExpiredRestrictedAddresses]
  exact .skip fun _ => Store.still_catalog { Catalog.Grows.refl store.catalog with }

theorem perform_advances {operation : Operation} {result : Option LogisticsCommandResult}
    (h : before.perform world lib operation = .ok (store, result)) : before.Advances world store := by
  cases operation with
  | submit sur request command =>
    simp only [Store.perform, bind_eq_ok, pure_eq_ok] at h
    obtain ⟨p, submitted, e⟩ := h
    cases e
    exact (submit_advances command).ok submitted
  | dispose sur organizationId editionId addressIds =>
    simp only [Store.perform, bind_eq_ok, pure_eq_ok] at h
    obtain ⟨p, disposed, e⟩ := h
    cases e
    exact (dispose_still.ok disposed).advances

end

end Maru.Logistics

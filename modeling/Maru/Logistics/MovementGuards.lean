import Maru.Logistics.ProjectionHistory

/-!
# Movements under the guards of the database

A movement is planned by the service and guarded by the database. What the guards let pass
is kept of every row (`Upheld`), in any state a run leads to and in the middle of an upload
(`reached_upheld`). There a movement that is planned passes each guard but for two: a lot on
a manifest must have the quantity of its line, and a place that does not move must not be
too deep (`Plannable.backsEvent_iff`, `Plannable.guardCurrentState_iff`).
-/

namespace Maru.Logistics

variable {world : World} {lib : Primitives} {sur : Surroundings} {catalog : Catalog} {custody before after : Custody}

/-! ## What the guards keep -/

/-- A row of the projection that passed its guard. -/
structure Housed (world : World) (catalog : Catalog) (state : LogisticsCurrentState) : Prop where
  subject : ∃ subject, catalog.subject? state.subject = some subject ∧ subject.organizationId = state.organizationId
  place : ∀ id ∈ state.currentNodeId, catalog.isNodeOf state.organizationId id
  kinds : state.subject.kind = .node → ∀ id ∈ state.currentNodeId, ∃ node ∈
    catalog.nodes.get? state.subject.objectId, ∃ place ∈ catalog.nodes.get? id, containable node.kind place.kind
  party : ∀ id ∈ state.custodianPartyId, catalog.isPartyOf state.organizationId id
  account : ∀ id ∈ state.custodianAccountId, world.accountKind id = .person
  custodian : state.custodianAccountId = none ∨ state.custodianPartyId = none
  condition : btrim state.condition ≠ ""
  quantity : state.subject.kind = .stockLot ↔ state.quantityOnHand ≠ none

/-- What guards and writes keep of the events and projections. -/
structure Upheld (world : World) (catalog : Catalog) (custody : Custody) : Prop where
  projected : Projected custody
  housed : ∀ state ∈ custody.currentStates, Housed world catalog state
  editions : ∀ event ∈ custody.events, world.editionOrganization event.editionId = some event.organizationId
  controlled : ∀ control ∈ custody.controls, world.editionOrganization control.editionId = some control.organizationId

theorem upheld_empty : Upheld world catalog .empty where
  projected := projected_empty
  housed := fun _ h => absurd h Table.not_mem_empty
  editions := fun _ h => absurd h Table.not_mem_empty
  controlled := fun _ h => absurd h Table.not_mem_empty

/-- The guard on a row, as one statement. -/
theorem guardCurrentState_eq_ok {prior : Option LogisticsCurrentState}
    {state : LogisticsCurrentState} : guardCurrentState world catalog custody prior state = .ok () ↔
      (∀ old ∈ prior, state.subject = old.subject ∧ state.eventSequence = old.eventSequence + 1) ∧
      (state.custodianAccountId = none ∨ state.custodianPartyId = none) ∧
      (state.subject.kind = .stockLot ↔ state.quantityOnHand ≠ none) ∧
      (∃ subject, catalog.subject? state.subject = some subject ∧ subject.organizationId = state.organizationId) ∧
      (∀ id ∈ state.currentNodeId, catalog.isNodeOf state.organizationId id) ∧
      (∀ id ∈ state.custodianPartyId, catalog.isPartyOf state.organizationId id) ∧
      (∀ id ∈ state.custodianAccountId, world.accountKind id = .person) ∧
      (∃ event, custody.events.get? state.lastEventId = some event ∧ state.matchesEvent prior event) ∧
      (state.subject.kind = .node → ∀ id ∈ state.currentNodeId,
        ((∃ node ∈ catalog.nodes.get? state.subject.objectId, node.organizationId = state.organizationId ∧
          ∃ place ∈ catalog.nodes.get? id, place.organizationId = state.organizationId ∧
            containable node.kind place.kind) ∧
        state.subject.objectId ∉ custody.ancestors id ∧ (custody.ancestors id).length < maxContainmentDepth)) := by
  simp only [guardCurrentState, bind_eq_ok, require_eq_ok, exists_const, Option.all_eq_true,
    Option.any_eq_true, decide_eq_true_eq, and_assoc]
  refine and_congr_right fun _ => and_congr_right fun _ => and_congr_right fun _ => and_congr_right fun _ =>
    and_congr_right fun _ => and_congr_right fun _ => and_congr_right fun _ => and_congr_right fun _ => ?_
  split
  · rename_i kind place
    simp only [bind_eq_ok, require_eq_ok, exists_const, Option.any_eq_true, Bool.and_eq_true, decide_eq_true_eq]
    simp [kind, place, Option.mem_def]
  · rename_i other
    simp only [pure_eq_ok, true_iff]
    exact fun kind id place => absurd place (other id kind)

/-- The guard on an event, as one statement. -/
theorem guardEvent_eq_ok {event : LogisticsEvent} :
    guardEvent world sur catalog custody event = .ok () ↔
      world.editionOrganization event.editionId = some event.organizationId ∧
      (∃ subject, catalog.subject? event.subject = some subject ∧ subject.organizationId = event.organizationId ∧
        inEdition event.editionId subject.allocationId) ∧
      ((∀ id ∈ event.sourceNodeId, catalog.isNodeInEdition event.organizationId event.editionId id) ∧
        ∀ id ∈ event.destinationNodeId, catalog.isNodeInEdition event.organizationId event.editionId id) ∧
      (∀ id ∈ event.manifestId, catalog.backsEvent event id) ∧
      ((event.fromCustodianAccountId = none ∨ event.fromCustodianPartyId = none) ∧
        (event.toCustodianAccountId = none ∨ event.toCustodianPartyId = none) ∧
        (∀ id ∈ event.fromCustodianPartyId, catalog.isPartyOf event.organizationId id) ∧
        (∀ id ∈ event.toCustodianPartyId, receivesAsParty catalog custody event id) ∧
        (∀ id ∈ event.fromCustodianAccountId, world.accountKind id = .person) ∧
        ∀ id ∈ event.toCustodianAccountId, receivesAsAccount world sur catalog custody event id) ∧
      (if event.subject.kind = .stockLot then event.quantity ≠ none else ∀ q ∈ event.quantity, q = 1) ∧
      (event.eventType = .receive → ∀ lot ∈ (catalog.subject? event.subject).bind (·.lot?),
        ∀ q ∈ event.quantity, q ≤ lot.initialQuantity) ∧
      (event.eventType.moves → event.destinationNodeId ≠ none) ∧
      (event.eventType.stays → event.destinationNodeId = none) ∧
      (event.eventType = .handover → event.toCustodianAccountId ≠ none ∨ event.toCustodianPartyId ≠ none) ∧
      (event.eventType = .return →
        event.destinationNodeId ≠ none ∨ event.toCustodianAccountId ≠ none ∨ event.toCustodianPartyId ≠ none) ∧
      btrim event.conditionAfter ≠ "" ∧
      (event.eventType = .receive → event.eventSequence = 1) ∧
      if event.eventSequence = 1 then
        event.eventType = .receive ∧ event.sourceNodeId = none ∧ event.fromCustodianAccountId =
          none ∧ event.fromCustodianPartyId = none ∧ event.conditionBefore = "" ∧
          custody.currentStates.get? event.subject = none
      else
        custody.precedes event fun state =>
          state.currentNodeId = event.sourceNodeId && state.custodianAccountId = event.fromCustodianAccountId &&
          state.custodianPartyId = event.fromCustodianPartyId && state.condition = event.conditionBefore &&
          (event.subject.kind != .stockLot || event.eventType = .count || state.quantityOnHand = event.quantity) := by
  simp only [guardEvent, bind_eq_ok, require_eq_ok, exists_const, Option.all_eq_true,
    Option.any_eq_true, Bool.and_eq_true, decide_eq_true_eq]
  have final : ∀ {p q : Prop} [Decidable p] [Decidable q] {c : Prop} [Decidable c] {e e' : LogisticsError},
      (if c then require p e else require q e' : Except LogisticsError Unit) = .ok () ↔ if c then p else q := by
    intros
    split <;> exact require_eq_ok
  rw [final]
  exact Iff.rfl

/-! ## What a movement keeps -/

/-- The guards that a movement passed. -/
theorem recordMovement_guards {record : RecordedMovement}
    (h : before.recordMovement world sur catalog record = .ok after) :
    guardEvent world sur catalog before record.event = .ok () ∧
      ∃ events, before.events.insert? record.event = some events ∧
        guardCurrentState world catalog { before with events }
          (before.currentStates.get? record.state.subject) record.state = .ok () := by
  simp only [Custody.recordMovement, Custody.writeState, bind_eq_ok, getOr_eq_ok] at h
  obtain ⟨_, event, events, inserted, projected, ⟨_, state, -⟩, -⟩ := h
  exact ⟨event, events, inserted, state⟩

theorem housed_of_guard {prior : Option LogisticsCurrentState} {state : LogisticsCurrentState}
    (h : guardCurrentState world catalog custody prior state = .ok ()) (condition : btrim state.condition ≠ "") :
    Housed world catalog state := by
  obtain ⟨-, custodian, quantity, subject, place, party, account, -, kinds⟩ := guardCurrentState_eq_ok.mp h
  refine ⟨subject, place, fun kind id hid => ?_, party, account, custodian, condition, quantity⟩
  obtain ⟨⟨node, hnode, -, place, hplace, -, fits⟩, -⟩ := kinds kind id hid
  exact ⟨node, hnode, place, hplace, fits⟩

theorem ensureControl_controlled {organizationId editionId : Uuid} {control : LogisticsEditionControl}
    (controlled : ∀ control ∈ before.controls, world.editionOrganization control.editionId = some control.organizationId)
    (h : before.ensureControl world organizationId editionId = .ok (after, control)) :
    ∀ control ∈ after.controls, world.editionOrganization control.editionId = some control.organizationId := by
  simp only [Custody.ensureControl] at h
  split at h
  · cases h
    exact controlled
  · simp only [bind_eq_ok, getOr_eq_ok, pure_eq_ok, Prod.mk.injEq] at h
    obtain ⟨_, guarded, controls, inserted, rfl, rfl⟩ := h
    intro control member
    rcases (Table.mem_insert? inserted).mp member with old | rfl
    · exact controlled control old
    · exact require_eq_ok.mp guarded

theorem advanceControl_controlled {organizationId editionId : Uuid}
    (controlled : ∀ control ∈ before.controls, world.editionOrganization control.editionId = some control.organizationId)
    (h : before.advanceControl world organizationId editionId = .ok after) :
    ∀ control ∈ after.controls, world.editionOrganization control.editionId = some control.organizationId := by
  simp only [Custody.advanceControl, bind_eq_ok, pure_eq_ok] at h
  obtain ⟨⟨ensured, control⟩, hensure, _, guarded, rfl⟩ := h
  intro row member
  rcases Table.mem_save.mp member with ⟨old, -⟩ | ⟨rfl, -⟩
  · exact ensureControl_controlled controlled hensure row old
  · exact require_eq_ok.mp guarded

theorem writeExplanation_ok {discrepancy : Option LogisticsDiscrepancy}
    (h : before.writeExplanation world discrepancy = .ok after) :
    after.events = before.events ∧ after.controls = before.controls ∧ after.currentStates = before.currentStates := by
  cases discrepancy with
  | none =>
    cases h
    exact ⟨rfl, rfl, rfl⟩
  | some row =>
    have := writeDiscrepancy_ok h
    exact ⟨this.1, this.2.1, this.2.2.1⟩

theorem recordMovement_controlled {record : RecordedMovement}
    (controlled : ∀ control ∈ before.controls, world.editionOrganization control.editionId = some control.organizationId)
    (h : before.recordMovement world sur catalog record = .ok after) :
    ∀ control ∈ after.controls, world.editionOrganization control.editionId = some control.organizationId := by
  simp only [Custody.recordMovement, bind_eq_ok, getOr_eq_ok] at h
  obtain ⟨_, -, events, -, projected, written, explained, explanation, advanced⟩ := h
  refine advanceControl_controlled ?_ advanced
  rw [(writeExplanation_ok explanation).2.1, (writeState_ok written).2.1]
  exact controlled

theorem Upheld.append {context : MovementContext} {movement : Movement} {expected : Nat}
    {record : RecordedMovement} (h : Upheld world catalog custody)
    (ok : appendMovementEvent world sur catalog custody context movement expected = .ok (after, record)) :
    Upheld world catalog after := by
  have projected := h.projected.append ok
  simp only [appendMovementEvent, bind_eq_ok, pure_eq_ok, Prod.mk.injEq] at ok
  obtain ⟨_, planned, after, recorded, rfl, rfl⟩ := ok
  obtain ⟨subject, destination, quantity, -, rfl⟩ := planMovement_eq_ok.mp planned
  have writes := recordMovement_ok recorded
  obtain ⟨eventGuard, events, -, stateGuard⟩ := recordMovement_guards recorded
  obtain ⟨edition, -, -, -, -, -, -, -, -, -, -, condition, -⟩ := guardEvent_eq_ok.mp eventGuard
  refine ⟨projected, fun state member => ?_, fun event member => ?_, recordMovement_controlled h.controlled recorded⟩
  · have row := Table.get?_eq_some.mpr ⟨member, rfl⟩
    rw [writes.states] at row
    split at row
    · cases row
      exact housed_of_guard stateGuard condition
    · exact h.housed state (Table.get?_eq_some.mp row).1
  · rcases (Table.mem_insert? writes.events).mp member with old | rfl
    · exact h.editions event old
    · exact edition

theorem Upheld.step (h : Upheld world catalog before)
    (step : Custody.Step world catalog before after) : Upheld world catalog after := by
  have projected := h.projected.step step
  cases step with
  | appended sur context movement expected record ok => exact h.append ok
  | noted discrepancy ok =>
    obtain ⟨events, controls, states, -⟩ := writeDiscrepancy_ok ok
    exact ⟨projected, states ▸ h.housed, events ▸ h.editions, controls ▸ h.controlled⟩
  | opened organizationId editionId control ok =>
    obtain ⟨events, states, -, -, -, -⟩ := ensureControl_ok ok
    exact ⟨projected, states ▸ h.housed, events ▸ h.editions, ensureControl_controlled h.controlled ok⟩

theorem Upheld.steps (h : Upheld world catalog before)
    (steps : Relation.ReflTransGen (Custody.Step world catalog) before after) : Upheld world catalog after := by
  induction steps with
  | refl => exact h
  | tail _ step ih => exact ih.step step

/-! ## While the catalog grows -/

section

variable {catalog' : Catalog} (growth : catalog.Grows catalog')

include growth

/-- A subject is still found, and is still of its organization. -/
theorem Catalog.Grows.subject? {locator : SubjectLocator} {subject : TrackedSubject}
    (h : catalog.subject? locator = some subject) :
    ∃ subject', catalog'.subject? locator = some subject' ∧ subject'.organizationId = subject.organizationId := by
  obtain ⟨kind, id⟩ := locator
  cases kind <;> simp only [Catalog.subject?, Option.map_eq_some_iff] at h ⊢ <;> obtain ⟨row, found, rfl⟩ := h
  case node =>
    obtain ⟨_, kept, rfl⟩ := growth.nodes _ _ found
    exact ⟨_, ⟨_, kept, rfl⟩, rfl⟩
  case asset =>
    obtain ⟨_, kept, rfl⟩ := growth.assets _ _ found
    exact ⟨_, ⟨_, kept, rfl⟩, rfl⟩
  case stockLot =>
    obtain ⟨_, kept, rfl⟩ := growth.stockLots _ _ found
    exact ⟨_, ⟨_, kept, rfl⟩, rfl⟩
  case key =>
    obtain ⟨_, kept, -, _, rfl⟩ := growth.keys _ _ found
    exact ⟨_, ⟨_, kept, rfl⟩, rfl⟩

theorem Catalog.Grows.isNodeOf {organizationId id : Uuid} (h : catalog.isNodeOf organizationId id) :
    catalog'.isNodeOf organizationId id := by
  obtain ⟨node, found, same⟩ := Option.any_eq_true _ _ |>.mp h
  obtain ⟨_, kept, rfl⟩ := growth.nodes _ _ found
  exact Option.any_eq_true _ _ |>.mpr ⟨_, kept, same⟩

theorem Catalog.Grows.isPartyOf {organizationId id : Uuid}
    (h : catalog.isPartyOf organizationId id) : catalog'.isPartyOf organizationId id := by
  obtain ⟨party, found, same⟩ := Option.any_eq_true _ _ |>.mp h
  obtain ⟨_, kept, rfl⟩ := growth.parties _ _ found
  exact Option.any_eq_true _ _ |>.mpr ⟨_, kept, same⟩

theorem Housed.grows {state : LogisticsCurrentState} (h : Housed world catalog state) : Housed world catalog' state where
  subject := by
    obtain ⟨subject, found, same⟩ := h.subject
    obtain ⟨subject', kept, organization⟩ := growth.subject? found
    exact ⟨subject', kept, organization.trans same⟩
  place id hid := growth.isNodeOf (h.place id hid)
  kinds kind id hid := by
    obtain ⟨node, hnode, place, hplace, fits⟩ := h.kinds kind id hid
    obtain ⟨_, keptNode, rfl⟩ := growth.nodes _ _ hnode
    obtain ⟨_, keptPlace, rfl⟩ := growth.nodes _ _ hplace
    exact ⟨_, keptNode, _, keptPlace, fits⟩
  party id hid := growth.isPartyOf (h.party id hid)
  account := h.account
  custodian := h.custodian
  condition := h.condition
  quantity := h.quantity

theorem Upheld.grows (h : Upheld world catalog custody) : Upheld world catalog' custody :=
  ⟨h.projected, fun state member => (h.housed state member).grows growth, h.editions, h.controlled⟩

end

/-- What happens to the store: a whole command, or in the middle of an upload one of its parts. -/
inductive Transition (world : World) (lib : Primitives) (store after : Store) : Prop
  | performed (operation : Operation) (result : Option LogisticsCommandResult) :
      store.perform world lib operation = .ok (after, result) → Transition world lib store after
  | opened (sur : Surroundings) (request : Request) (input : OfflineBatchInput)
      (batch : OfflineBatch) (row : OfflineScanBatch) :
      store.openBatch world sur request input batch = .ok (after, row) → Transition world lib store after
  | ingested (sur : Surroundings) (row : OfflineScanBatch) (context : OperationContext) (operation : OfflineOperation) :
      store.ingestOperation world lib sur row context operation = .ok after → Transition world lib store after

/-- What may come later. -/
abbrev Later (world : World) (lib : Primitives) : Store → Store → Prop :=
  Relation.ReflTransGen (Transition world lib)

/-- A state that a run leads to, also in the middle of an upload. -/
abbrev Reached (world : World) (lib : Primitives) (store : Store) : Prop := Later world lib .empty store

theorem upheld_advances {store after : Store} (h : Upheld world store.catalog store.custody)
    (advances : store.Advances world after) : Upheld world after.catalog after.custody :=
  (h.steps advances.custody).grows advances.catalog

theorem Transition.advances {store after : Store}
    (h : Transition world lib store after) : store.Advances world after := by
  cases h with
  | performed operation result ok => exact perform_advances ok
  | opened sur request input batch row ok => exact (openBatch_moves.ok ok).advances
  | ingested sur row context operation ok => exact (ingestOperation_moves.ok ok).advances

theorem reached_upheld {store : Store} (reached : Reached world lib store) :
    Upheld world store.catalog store.custody := by
  induction reached with
  | refl => exact upheld_empty
  | tail _ step ih => exact upheld_advances ih step.advances

theorem reached_run (operations : List Operation) : Reached world lib ((logistics world lib).run .empty operations) := by
  refine Machine.run_invariant (M := logistics world lib) (I := Reached world lib) ?_ .refl _
  exact fun store operation after result reached ok => reached.tail (.performed operation result ok)

/-! ## A planned movement under the guards -/

theorem routeNode_inEdition {organizationId editionId : Uuid} {nodeId : Option Uuid} {node : Option LogisticsNode}
    (h : catalog.routeNode organizationId editionId nodeId = .ok node) :
    ∀ id ∈ nodeId, catalog.isNodeInEdition organizationId editionId id := by
  rintro id hid
  rw [hid] at h
  simp only [Catalog.routeNode, bind_eq_ok, getOr_eq_ok, Option.filter_eq_some_iff] at h
  obtain ⟨row, ⟨found, scope⟩, -⟩ := h
  rw [Catalog.isNodeInEdition, found]
  exact scope

theorem isNodeOf_of_inEdition {organizationId editionId id : Uuid}
    (h : catalog.isNodeInEdition organizationId editionId id) : catalog.isNodeOf organizationId id := by
  obtain ⟨node, found, scope⟩ := Option.any_eq_true _ _ |>.mp h
  refine Option.any_eq_true _ _ |>.mpr ⟨node, found, ?_⟩
  exact (Bool.and_eq_true _ _ ▸ scope).1

theorem isPartyOf_of_active {organizationId id : Uuid}
    (h : catalog.isActivePartyOf organizationId id) : catalog.isPartyOf organizationId id := by
  obtain ⟨party, found, scope⟩ := Option.any_eq_true _ _ |>.mp h
  exact Option.any_eq_true _ _ |>.mpr ⟨party, found, (Bool.and_eq_true _ _ ▸ scope).1⟩

theorem containable_eq (kind place : NodeKind) : containable kind place = decide (place ∈ nodeParentKinds kind) := by
  cases kind <;> rfl

section

variable {context : MovementContext} {movement : Movement} {expected : Nat}
  {subject : TrackedSubject} {destination : Option LogisticsNode} {quantity : Option Int}
  (h : Plannable world sur catalog custody context movement expected subject destination quantity)
  (upheld : Upheld world catalog custody)

include h upheld

/-- The projection that is moved passed its guard, in the organization of the movement. -/
theorem Plannable.current {state : LogisticsCurrentState} (found : custody.currentOf movement = some state) :
    Housed world catalog state ∧ state.subject = movement.subject ∧ state.organizationId = context.organizationId := by
  obtain ⟨member, same⟩ := Table.get?_eq_some.mp found
  have housed := upheld.housed state member
  obtain ⟨row, hrow, organization⟩ := housed.subject
  rw [same, h.found] at hrow
  cases hrow
  exact ⟨housed, same, organization.symm.trans h.organization⟩

/-- The event follows on the projection that is moved. -/
theorem Plannable.precedes {state : LogisticsCurrentState} (found : custody.currentOf movement = some state)
    {p : LogisticsCurrentState → Bool} (hp : p state) :
    custody.precedes (plannedRecord custody context movement subject quantity).event p := by
  refine Option.any_eq_true _ _ |>.mpr ⟨state, found, ?_⟩
  have organization := (h.current upheld found).2.2
  have next : (plannedRecord custody context movement subject quantity).event.eventSequence =
    state.eventSequence + 1 := by
    rw [plannedRecord, found]
    rfl
  rw [next]
  simp [organization, hp, plannedRecord, movementRecord]

omit upheld in
/-- Custody that a movement does not name stays where it was; then the movement hands nothing over.
-/
theorem Plannable.keeps_custody {state : LogisticsCurrentState} (found : custody.currentOf movement = some state)
    (same : ¬ (movement.eventType = .handover ∨ movement.eventType = .return ∨ movement.hasRecipient)) :
    movement.eventType.transfersCustody = false := by
  have first : movement.eventType ≠ .receive := fun e => by
    rw [← h.first, found] at e
    cases e
  have handover : movement.eventType ≠ .handover := fun e => same (.inl e)
  have returns : movement.eventType ≠ .return := fun e => same (.inr (.inl e))
  revert first handover returns
  cases movement.eventType <;> simp [EventType.transfersCustody]

theorem Plannable.receivesAsParty {id : Uuid}
    (hid : (plannedRecord custody context movement subject quantity).event.toCustodianPartyId = some id) :
    receivesAsParty catalog custody (plannedRecord custody context movement subject quantity).event id := by
  rw [Logistics.receivesAsParty, Bool.and_eq_true, Bool.or_eq_true]
  simp only [plannedRecord, movementRecord] at hid
  split at hid
  · have active := h.party id hid
    exact ⟨isPartyOf_of_active active, .inl active⟩
  · rename_i same
    obtain ⟨state, found, held⟩ := Option.bind_eq_some_iff.mp hid
    obtain ⟨housed, _, organization⟩ := h.current upheld found
    have party := housed.party id held
    rw [organization] at party
    refine ⟨party, .inr ?_⟩
    rw [Bool.and_eq_true]
    refine ⟨?_, h.precedes upheld found (by simp [held])⟩
    have stays := h.keeps_custody found same
    simp [plannedRecord, movementRecord, stays]

theorem Plannable.receivesAsAccount {id : Uuid}
    (hid : (plannedRecord custody context movement subject quantity).event.toCustodianAccountId = some id) :
    receivesAsAccount world sur catalog custody (plannedRecord custody context movement subject quantity).event id := by
  rw [Logistics.receivesAsAccount, Bool.and_eq_true, Bool.or_eq_true, Bool.and_eq_true]
  simp only [plannedRecord, movementRecord] at hid
  split at hid
  · have eligible := h.account
    rw [hid] at eligible
    simp only [lockCustodian, lockEligibleLogisticsPerson, bind_eq_ok, require_eq_ok, exists_const] at eligible
    obtain ⟨⟨active, person⟩, known⟩ := eligible
    refine ⟨decide_eq_true person, .inl ⟨active, ?_⟩⟩
    rw [Bool.or_eq_true]
    by_cases owner : subject.ownerAccountId = some id
    · exact .inr (Option.any_eq_true _ _ |>.mpr ⟨subject, h.found, decide_eq_true owner⟩)
    · refine .inl ?_
      simp only [personIsEligible, Bool.and_eq_true, Bool.or_eq_true, decide_eq_true_eq]
      refine ⟨⟨person, active⟩, ?_⟩
      rcases known with e | e | e | e
      · exact .inl (.inl e)
      · exact absurd e owner
      · exact .inl (.inr e)
      · exact .inr e
  · rename_i same
    obtain ⟨state, found, held⟩ := Option.bind_eq_some_iff.mp hid
    obtain ⟨housed, _, _⟩ := h.current upheld found
    refine ⟨decide_eq_true (housed.account id held), .inr ?_⟩
    rw [Bool.and_eq_true]
    refine ⟨?_, h.precedes upheld found (by simp [held])⟩
    have stays := h.keeps_custody found same
    simp [plannedRecord, movementRecord, stays]

omit h in
/-- Before the first event there is no projection, and after it there always is one. -/
theorem Upheld.first_iff :
    (plannedRecord custody context movement subject quantity).event.eventSequence = 1 ↔
      custody.currentOf movement = none := by
  have numbers := (upheld.projected.numbers movement.subject).2
  have replay := upheld.projected.replay movement.subject
  cases found : custody.currentOf movement with
  | none =>
    rw [plannedRecord, found]
    exact ⟨fun _ => rfl, fun _ => rfl⟩
  | some state =>
    rw [plannedRecord, found]
    rw [Custody.currentOf] at found
    rw [found] at numbers replay
    have positive : state.eventSequence ≠ 0 := by
      intro zero
      rw [Option.map_some, Option.getD_some, zero] at numbers
      rw [List.eq_nil_of_length_eq_zero numbers.symm] at replay
      cases replay
    simp [movementRecord, positive]

theorem Plannable.condition_ne :
    btrim (plannedRecord custody context movement subject quantity).event.conditionAfter ≠ "" := by
  simp only [plannedRecord, movementRecord]
  split
  · rename_i empty
    cases found : custody.currentOf movement with
    | none => exact absurd empty (h.conditionFirst found)
    | some state => exact (h.current upheld found).1.condition
  · rename_i given
    exact movement.condition_text.resolve_left given

omit upheld in
theorem Plannable.quantity_shape :
    if movement.subject.kind = .stockLot then movement.quantity ≠ none else ∀ q ∈ movement.quantity, q = 1 := by
  have counted := h.quantity
  rw [newQuantity_eq_ok] at counted
  rw [← h.locator]
  split at counted
  · rename_i lot found
    rw [if_pos ((TrackedSubject.lot?_isSome subject).mp (by rw [found]; rfl))]
    obtain ⟨-, q, hq, -⟩ := counted
    rw [hq]
    exact Option.some_ne_none q
  · rename_i found
    rw [if_neg fun kind => by simpa [found] using (TrackedSubject.lot?_isSome subject).mpr kind]
    exact counted.2

omit upheld in
theorem Plannable.received_bound (receive : movement.eventType = .receive) {lot : StockLot}
    (found : subject.lot? = some lot) : ∀ q ∈ movement.quantity, q ≤ lot.initialQuantity := by
  have counted := h.quantity
  rw [newQuantity_eq_ok, found] at counted
  obtain ⟨-, q, hq, bound, -⟩ := counted
  rintro q' hq'
  rw [hq] at hq'
  cases hq'
  exact bound receive

omit upheld in
/-- A lot that is not counted has the quantity it had. -/
theorem Plannable.held (kind : movement.subject.kind = .stockLot) {state : LogisticsCurrentState}
    (found : custody.currentOf movement = some state) :
    movement.eventType = .count ∨ state.quantityOnHand = movement.quantity := by
  have counted := h.quantity
  rw [← h.locator] at kind
  obtain ⟨lot, hlot⟩ := Option.isSome_iff_exists.mp ((TrackedSubject.lot?_isSome subject).mpr kind)
  rw [newQuantity_eq_ok, hlot, found] at counted
  obtain ⟨-, q, hq, -, receive | count | same⟩ := counted
  · rw [← h.first, found] at receive
    cases receive
  · exact .inl count
  · exact .inr (by rw [hq]; exact same)

/-- A planned movement passes the guard on events if its manifest backs it. -/
theorem Plannable.guardEvent_iff (edition : world.editionOrganization context.editionId = some context.organizationId) :
    guardEvent world sur catalog custody (plannedRecord custody context movement subject quantity).event = .ok () ↔
      ∀ id ∈ movement.manifestId,
        catalog.backsEvent (plannedRecord custody context movement subject quantity).event id := by
  rw [guardEvent_eq_ok]
  refine ⟨fun ok => ok.2.2.2.1, fun backed => ?_⟩
  have recipient : movement.hasRecipient →
      movement.toCustodianAccountId ≠ none ∨ movement.toCustodianPartyId ≠ none := by
    simp [MovementInput.hasRecipient, Option.isSome_iff_ne_none]
  have arrival : destination ≠ none → movement.destinationNodeId ≠ none := by
    rw [← h.destination_eq]
    cases destination <;> simp
  refine ⟨edition, ⟨subject, h.found, h.organization, h.available⟩, ⟨?_, ?_⟩, backed,
    ⟨?_, ?_, ?_, fun id => h.receivesAsParty upheld,
    ?_, fun id => h.receivesAsAccount upheld⟩, h.quantity_shape, ?_,
      fun moves => arrival (h.moves moves), fun stays => (h.stays stays).2,
    ?_, ?_, h.condition_ne upheld, ?_, ?_⟩
  · -- The source is where the subject is.
    obtain ⟨node, place⟩ := h.place
    have source : (plannedRecord custody context movement subject quantity).event.sourceNodeId =
      (custody.currentOf movement).bind (·.currentNodeId) := h.origin_eq
    rw [source]
    exact routeNode_inEdition place
  · exact routeNode_inEdition h.arrival
  · cases found : custody.currentOf movement with
    | none =>
      rw [plannedRecord, found]
      exact .inl rfl
    | some state =>
      rw [plannedRecord, found]
      exact (h.current upheld found).1.custodian
  · simp only [plannedRecord, movementRecord]
    split
    · exact movement.one_custodian
    · cases found : custody.currentOf movement with
      | none => exact .inl rfl
      | some state => exact (h.current upheld found).1.custodian
  · intro id held
    obtain ⟨state, found, held⟩ := Option.bind_eq_some_iff.mp held
    obtain ⟨housed, _, organization⟩ := h.current upheld found
    have party := housed.party id held
    rw [organization] at party
    exact party
  · intro id held
    obtain ⟨state, found, held⟩ := Option.bind_eq_some_iff.mp held
    exact (h.current upheld found).1.account id held
  · intro receive lot hlot
    rw [show (plannedRecord custody context movement subject quantity).event.subject =
      movement.subject from rfl, h.found] at hlot
    exact h.received_bound receive hlot
  · intro handover
    have given := recipient (h.handover handover)
    simp only [plannedRecord, movementRecord]
    rw [if_pos (.inl handover), if_pos (.inl handover)]
    exact given
  · intro returns
    refine (h.returns returns).imp arrival fun given => ?_
    simp only [plannedRecord, movementRecord]
    rw [if_pos (.inr (.inl returns)), if_pos (.inr (.inl returns))]
    exact recipient given
  · exact fun receive => upheld.first_iff.mpr (h.first.mpr receive)
  · split
    · rename_i first
      have none := upheld.first_iff.mp first
      have source : (plannedRecord custody context movement subject quantity).event.sourceNodeId =
        (custody.currentOf movement).bind (·.currentNodeId) := h.origin_eq
      rw [none] at source
      refine ⟨h.first.mp none, source, ?_, ?_, ?_, none⟩ <;> rw [plannedRecord, none] <;> rfl
    · rename_i later
      cases found : custody.currentOf movement with
      | none => exact absurd (upheld.first_iff.mpr found) later
      | some state =>
        refine h.precedes upheld found ?_
        have source : (plannedRecord custody context movement subject quantity).event.sourceNodeId =
          state.currentNodeId := by
          refine h.origin_eq.trans ?_
          rw [found]
          rfl
        rw [source]
        by_cases kind : movement.subject.kind = .stockLot
        · rcases h.held kind found with e | e <;> simp [plannedRecord, movementRecord, found, e]
        · simp [plannedRecord, movementRecord, found, kind]

/-! ## The manifest of a movement -/

/-- The line of a lot has the quantity that is moved. -/
def Catalog.lineQuantity (catalog : Catalog) (movement : MovementInput) : Prop :=
  ∀ id ∈ movement.manifestId, ∀ line ∈ catalog.manifestLine? id movement.subject,
    movement.subject.kind = .stockLot → movement.quantity = some line.quantity

omit upheld in
/-- The database asks of a manifest what the service asked, and of a lot the quantity of its line.
-/
theorem Plannable.backsEvent_iff :
    (∀ id ∈ movement.manifestId,
      catalog.backsEvent (plannedRecord custody context movement subject quantity).event id) ↔
      catalog.lineQuantity movement.toMovementInput := by
  refine forall_congr' fun id => forall_congr' fun hid => ?_
  have asked := h.manifest
  rw [Option.mem_def] at hid
  simp only [Catalog.requireManifest, hid, bind_eq_ok, getOr_eq_ok, require_eq_ok,
    Option.filter_eq_some_iff, exists_const, Bool.and_eq_true, decide_eq_true_eq] at asked
  obtain ⟨manifest, ⟨found, ⟨organization, edition⟩, status⟩, line, hline, evidence, route⟩ := asked
  have same := (Table.get?_eq_some.mp found).2
  rw [same] at hline
  obtain ⟨listed, place⟩ := Table.get?_eq_some.mp hline
  -- The line is the only one of its manifest for the subject.
  have only : ∀ other ∈ catalog.manifestLines.rows, other.manifestId = id →
    other.subject = movement.subject → other = line := by
    intro other member m s
    refine Table.eq_of_key member listed ?_
    rw [place, LogisticsManifestLine.place, m, s]
  have declared : manifest.declaresRoute line movement.eventType
      (movement.sourceNodeId <|> (custody.currentOf movement).bind (·.currentNodeId)) movement.destinationNodeId := by
    revert route
    rw [LogisticsManifest.routeMatches, LogisticsManifest.declaresRoute]
    by_cases receive : movement.eventType = .receive
    · have none := h.first.mpr receive
      simp [receive, none]
    · simp [receive]
  have event : (plannedRecord custody context movement subject quantity).event.sourceNodeId =
    (movement.sourceNodeId <|> (custody.currentOf movement).bind (·.currentNodeId)) := rfl
  rw [Catalog.backsEvent, found, Option.any_some, event, hline]
  have place' := place
  simp only [LogisticsManifestLine.place, Prod.mk.injEq] at place'
  simp only [Bool.and_eq_true, decide_eq_true_eq, List.any_eq_true, Option.mem_def, Option.some.injEq, forall_eq']
  constructor
  · rintro ⟨-, other, member, ⟨⟨⟨⟨m, s⟩, counted⟩, -⟩, -⟩⟩ kind
    obtain rfl := only other member m s
    rcases Bool.or_eq_true _ _ ▸ counted with other | exact
    · rw [place'.2, kind] at other
      cases other
    · exact of_decide_eq_true exact
  · intro counted
    refine ⟨⟨⟨organization, edition⟩, status⟩, line, listed, ⟨⟨⟨⟨place'.1, place'.2⟩, ?_⟩, evidence⟩, declared⟩⟩
    rw [Bool.or_eq_true, bne_iff_ne, place'.2]
    by_cases kind : movement.subject.kind = .stockLot
    · exact .inr (decide_eq_true (counted kind))
    · exact .inl kind

/-! ## The projection of a movement -/

end

/-- A projection that a log leads to is what its last event recorded. -/
theorem Continues.matchesEvent {prior : Option LogisticsCurrentState} {event : LogisticsEvent}
    (h : Continues prior event) : (advance prior event).matchesEvent prior event := by
  have place : (if event.eventType.moves ∨ event.eventType = .return then event.destinationNodeId
      else prior.bind (·.currentNodeId)) =
      (if (event.eventType.moves || decide (event.eventType = .return)) = true then event.destinationNodeId
      else event.sourceNodeId) := by
    rw [h.source]
    by_cases e : event.eventType.moves = true ∨ event.eventType = .return
    · rw [if_pos e, if_pos (by simpa using e)]
    · rw [if_neg e, if_neg (by simpa using e)]
  have quantity : (event.subject.kind != .stockLot ||
      decide (event.quantity = if event.subject.kind = .stockLot then event.quantity else none)) = true := by
    by_cases kind : event.subject.kind = .stockLot <;> simp [kind]
  simp only [LogisticsCurrentState.matchesEvent, advance, Bool.and_eq_true, decide_eq_true_eq, true_and, and_true]
  exact ⟨decide_eq_true place, quantity⟩

theorem EventType.moves_or_stays (eventType : EventType) :
    (eventType.moves ∨ eventType = .return) ↔ eventType.stays = false := by
  cases eventType <;> simp [EventType.moves, EventType.stays]

/-- A place that is not moved is not too deep. -/
def Custody.bounded (custody : Custody) (movement : MovementInput) : Prop :=
  movement.eventType.stays → movement.subject.kind = .node → ∀ place ∈
    custody.container? movement.subject.objectId, (custody.ancestors place).length < maxContainmentDepth

/-- Nothing is above itself, as far as the database looks. -/
theorem Projected.not_mem_ancestors (h : Projected custody) {id place : Uuid}
    (inside : custody.container? id = some place) : id ∉ custody.ancestors place := by
  obtain ⟨l, hl⟩ := h.grounded place
  rw [Custody.ancestors, hl.lineage_eq]
  intro member
  rw [← inside] at hl
  exact (Forest.Lineage.step hl).not_mem (List.mem_of_mem_take member)

section

variable {context : MovementContext} {movement : Movement} {expected : Nat}
  {subject : TrackedSubject} {destination : Option LogisticsNode} {quantity : Option Int}
  (h : Plannable world sur catalog custody context movement expected subject destination quantity)
  (upheld : Upheld world catalog custody)

include h upheld

/-- One custodian at most has what was moved. -/
theorem Plannable.one_custodian :
    (plannedRecord custody context movement subject quantity).state.custodianAccountId = none ∨
      (plannedRecord custody context movement subject quantity).state.custodianPartyId = none := by
  simp only [plannedRecord, movementRecord]
  split
  · exact movement.one_custodian
  · cases found : custody.currentOf movement with
    | none => exact .inl rfl
    | some state => exact (h.current upheld found).1.custodian

/-- The place of what was moved fits its kind, and is not inside it. -/
theorem Plannable.containment (kind : movement.subject.kind = .node) {id : Uuid}
    (hid : (plannedRecord custody context movement subject quantity).state.currentNodeId = some id) :
    (∃ node ∈ catalog.nodes.get? movement.subject.objectId, node.organizationId = context.organizationId ∧
      ∃ place ∈ catalog.nodes.get? id, place.organizationId = context.organizationId ∧
        containable node.kind place.kind) ∧
      movement.subject.objectId ∉ custody.ancestors id ∧
      (movement.eventType.stays = false → (custody.ancestors id).length < maxContainmentDepth) := by
  obtain ⟨node, hn⟩ := TrackedSubject.exists_node? (h.locator ▸ kind : subject.locator.kind = .node)
  have locator := TrackedSubject.node?_eq_some hn
  rw [h.locator] at locator
  have row : catalog.nodes.get? node.id = some node ∧ node.organizationId = context.organizationId := by
    have found := h.found
    have organization := h.organization
    cases subject <;> cases hn
    rw [locator] at found
    simp only [Catalog.subject?, Option.map_eq_some_iff, TrackedSubject.node.injEq] at found
    obtain ⟨_, found, rfl⟩ := found
    exact ⟨found, organization⟩
  rw [locator]
  simp only [plannedRecord, movementRecord] at hid
  split at hid
  · rename_i moves
    -- The movement looked the destination up, and walked up from it.
    have named := h.destination_eq
    rw [hid] at named
    obtain ⟨place, hplace, rfl⟩ := Option.map_eq_some_iff.mp named
    have fits := h.kinds node hn place hplace
    obtain ⟨-, walk⟩ := h.acyclic node hn place hplace
    rw [Forest.ascend_iff] at walk
    have scope := routeNode_inEdition h.arrival place.id hid
    have arrival := h.arrival
    rw [hid, hplace] at arrival
    simp only [Catalog.routeNode, bind_eq_ok, getOr_eq_ok, pure_eq_ok, Option.filter_eq_some_iff,
      Option.some.injEq] at arrival
    obtain ⟨_, ⟨found, isIn⟩, rfl⟩ := arrival
    rw [LogisticsNode.isIn, Bool.and_eq_true, decide_eq_true_eq] at isIn
    refine ⟨⟨node, row.1, row.2, _, found, isIn.1, ?_⟩, walk.2 node.id List.mem_cons_self, fun _ => walk.1⟩
    rw [containable_eq, decide_eq_true_eq]
    exact fits
  · rename_i still
    obtain ⟨state, found, held⟩ := Option.bind_eq_some_iff.mp hid
    obtain ⟨housed, same, organization⟩ := h.current upheld found
    have kind' : state.subject.kind = .node := by rw [same, locator]
    obtain ⟨node', hnode', place, hplace, fits⟩ := housed.kinds kind' id held
    rw [same, locator] at hnode'
    obtain rfl := Option.some.inj (row.1.symm.trans hnode')
    have scope := housed.place id held
    rw [organization] at scope
    obtain ⟨place', found', scope⟩ := Option.any_eq_true _ _ |>.mp scope
    obtain rfl := Option.some.inj (found'.symm.trans hplace)
    have inside : custody.container? node.id = some id := by
      rw [Custody.container?, ← locator]
      exact hid
    refine ⟨⟨node, row.1, row.2, _, hplace, of_decide_eq_true scope, fits⟩, upheld.projected.not_mem_ancestors inside,
      fun stays => absurd ((EventType.moves_or_stays _).mpr stays) still⟩

/-- The projection of a planned movement passes its guard unless it stays too deep. -/
theorem Plannable.guardCurrentState_iff {events : Table LogisticsEvent.id}
    (inserted : custody.events.insert? (plannedRecord custody context movement subject quantity).event = some events) :
    guardCurrentState world catalog { custody with events } (custody.currentOf movement)
      (plannedRecord custody context movement subject quantity).state = .ok () ↔
        custody.bounded movement.toMovementInput := by
  rw [guardCurrentState_eq_ok]
  have place (kind : movement.subject.kind = .node) {id : Uuid}
      (hid : (plannedRecord custody context movement subject quantity).state.currentNodeId = some id) :=
    h.containment upheld kind hid
  constructor
  · rintro ⟨-, -, -, -, -, -, -, -, deep⟩ stays kind id inside
    refine (deep kind id ?_).2.2
    have still : ¬ (movement.eventType.moves ∨ movement.eventType = .return) := fun moves => by
      rw [EventType.moves_or_stays, stays] at moves
      cases moves
    simp only [plannedRecord, movementRecord]
    rw [Option.mem_def, if_neg still]
    rw [Option.mem_def, Custody.container?, ← kind] at inside
    exact inside
  · intro bounded
    refine ⟨fun old found => ?_, h.one_custodian upheld, ?_, ⟨subject, h.found, h.organization⟩, fun id hid => ?_,
      fun id hid => (Bool.and_eq_true _ _ ▸ h.receivesAsParty upheld hid).1, fun id hid => ?_, ?_, fun kind id hid => ?_⟩
    · rw [Option.mem_def] at found
      refine ⟨(h.current upheld found).2.1.symm, ?_⟩
      rw [plannedRecord, found]
      rfl
    · rw [h.advances]
      have shape := h.quantity_shape
      by_cases kind : movement.subject.kind = .stockLot
      · rw [if_pos kind] at shape
        simp [advance, plannedRecord, movementRecord, kind, shape]
      · simp [advance, plannedRecord, movementRecord, kind]
    · simp only [plannedRecord, movementRecord] at hid
      split at hid
      · exact isNodeOf_of_inEdition (routeNode_inEdition h.arrival id hid)
      · obtain ⟨node, place⟩ := h.place
        exact isNodeOf_of_inEdition (routeNode_inEdition place id hid)
    · exact of_decide_eq_true (Bool.and_eq_true _ _ ▸ h.receivesAsAccount upheld hid).1
    · refine ⟨(plannedRecord custody context movement subject quantity).event, ?_, ?_⟩
      · rw [Table.get?_insert? inserted]
        exact if_pos rfl
      · rw [h.advances]
        exact h.continues.matchesEvent
    · obtain ⟨kinds, outside, shallow⟩ := place kind hid
      refine ⟨kinds, outside, ?_⟩
      cases stays : movement.eventType.stays with
      | false => exact shallow stays
      | true =>
        refine bounded stays kind id ?_
        have still : ¬ (movement.eventType.moves ∨ movement.eventType = .return) := fun moves => by
          rw [EventType.moves_or_stays, stays] at moves
          cases moves
        simp only [plannedRecord, movementRecord] at hid
        rw [Option.mem_def, if_neg still] at hid
        rw [Option.mem_def, Custody.container?, ← kind]
        exact hid

end

end Maru.Logistics

import Maru.Framework.EventLog
import Maru.Logistics.Offline

/-!
# What a movement checks and writes

`planMovement_eq_ok` says exactly when a movement is planned (`Plannable`); the record that
is planned is `plannedRecord`.
-/

namespace Maru.Logistics

variable {world : World} {sur : Surroundings} {catalog : Catalog} {custody : Custody}

/-! ## Planning -/

section

variable (world sur catalog custody) (context : MovementContext) (movement : Movement) (expectedSequence : Nat)

/-- The projection that a movement starts from. -/
abbrev Custody.currentOf (custody : Custody) (movement : Movement) : Option LogisticsCurrentState :=
  custody.currentStates.get? movement.subject

/-- What `planMovement` checks, for the rows it finds. -/
structure Plannable (subject : TrackedSubject) (destination : Option LogisticsNode) (quantity : Option Int) : Prop where
  found : catalog.subject? movement.subject = some subject
  organization : subject.organizationId = context.organizationId
  available : inEdition context.editionId subject.allocationId
  place : ∃ node, catalog.routeNode context.organizationId context.editionId
    ((custody.currentOf movement).bind (·.currentNodeId)) = .ok node
  source : ∃ node, catalog.routeNode context.organizationId context.editionId movement.sourceNodeId = .ok node
  arrival : catalog.routeNode context.organizationId context.editionId movement.destinationNodeId = .ok destination
  sequence : expectedSequence = ((custody.currentOf movement).map (·.eventSequence)).getD 0
  first : custody.currentOf movement = none ↔ movement.eventType = .receive
  origin : movement.sourceNodeId = none ∨
    movement.sourceNodeId = (custody.currentOf movement).bind (·.currentNodeId)
  moves : movement.eventType.moves → destination ≠ none
  stays : movement.eventType.stays → movement.sourceNodeId = none ∧ movement.destinationNodeId = none
  handover : movement.eventType = .handover → movement.hasRecipient
  returns : movement.eventType = .return → destination ≠ none ∨ movement.hasRecipient
  kinds : ∀ node ∈ subject.node?, ∀ d ∈ destination, d.kind ∈ nodeParentKinds node.kind
  acyclic : ∀ node ∈ subject.node?, ∀ d ∈ destination,
    d.id ≠ node.id ∧ Forest.ascend custody.container? maxContainmentDepth [node.id] (some d.id)
  account : lockCustodian world sur catalog context subject movement.toCustodianAccountId = .ok ()
  party : ∀ id ∈ movement.toCustodianPartyId, catalog.isActivePartyOf context.organizationId id
  manifest : catalog.requireManifest context.organizationId context.editionId movement.toMovementInput
    (movement.sourceNodeId <|> (custody.currentOf movement).bind (·.currentNodeId)) = .ok ()
  conditionBefore : movement.conditionBefore = "" ∨
    movement.conditionBefore = ((custody.currentOf movement).map (·.condition)).getD ""
  conditionFirst : custody.currentOf movement = none → movement.conditionAfter ≠ ""
  conditionDamage : movement.eventType = .damage → movement.conditionAfter ≠ ""
  quantity : newQuantity subject (custody.currentOf movement) movement.toMovementInput = .ok quantity
  unnumbered : ∀ event ∈ custody.events.rows, ¬ (event.subject = movement.subject ∧
    event.eventSequence = ((custody.currentOf movement).map (·.eventSequence)).getD 0 + 1)
  unevidenced : movement.manifestId = none ∨ ∀ event ∈ custody.events.rows, ¬ (event.manifestId = movement.manifestId ∧
    event.evidenceReference = movement.evidenceReference ∧ event.eventType = movement.eventType)

/-- The record of a movement that is planned. -/
def plannedRecord (subject : TrackedSubject) (quantity : Option Int) : RecordedMovement :=
  movementRecord context movement.toMovementInput (custody.currentOf movement)
    (if subject.lot?.isSome then (custody.currentOf movement).bind (·.quantityOnHand) else none) quantity

end

variable {context : MovementContext} {movement : Movement} {expectedSequence : Nat}

theorem planMovement_eq_ok {record : RecordedMovement} :
    planMovement world sur catalog custody context movement expectedSequence = .ok record ↔
      ∃ subject destination quantity,
        Plannable world sur catalog custody context movement expectedSequence subject destination
          quantity ∧ record = plannedRecord custody context movement subject quantity := by
  constructor
  · intro h
    simp only [planMovement, bind_eq_ok, require_eq_ok] at h
    obtain ⟨subject, hs, _, available, _, place, _, source, destination, arrival, _, expected, _, first, _, origin, _,
      moves, _, stays, _, handover, _, returns, _, kinds, _, acyclic, _, account, _, party, _, manifest, _, before, _,
      conditionFirst, _, damage, quantity, hq, _, unnumbered, _, unevidenced, e⟩ := h
    rw [Catalog.lockSubject, getOr_eq_ok, Option.filter_eq_some_iff] at hs
    rw [requireSubjectAvailableInEdition, require_eq_ok] at available
    rw [validateParentKind, require_eq_ok] at kinds
    rw [Custody.assertAcyclicDestination, require_eq_ok] at acyclic
    refine ⟨subject, destination, quantity, ?_, (pure_eq_ok.mp e).symm⟩
    exact {
      found := hs.1, organization := by simpa using hs.2, available, place := ⟨_, place⟩, source := ⟨_, source⟩, arrival,
      sequence := expected, first, origin, moves, stays, handover, returns, kinds, acyclic, account,
      party := by simpa [Option.all_eq_true] using party
      manifest, conditionBefore := before, conditionFirst, conditionDamage := damage, quantity := hq,
      unnumbered := fun e he => of_decide_eq_true (List.all_eq_true.mp unnumbered e he)
      unevidenced := unevidenced.imp_right fun all e he => of_decide_eq_true (List.all_eq_true.mp all e he) }
  · rintro ⟨subject, destination, quantity, h, rfl⟩
    simp only [planMovement, bind_eq_ok, require_eq_ok]
    obtain ⟨_, place⟩ := h.place
    obtain ⟨_, source⟩ := h.source
    refine ⟨subject, ?_, ⟨⟩, ?_, _, place, _, source, destination, h.arrival, ⟨⟩, h.sequence, ⟨⟩, h.first, ⟨⟩, h.origin,
      ⟨⟩, h.moves, ⟨⟩, h.stays, ⟨⟩, h.handover, ⟨⟩, h.returns, ⟨⟩, ?_, ⟨⟩, ?_, ⟨⟩, h.account, ⟨⟩, ?_, ⟨⟩, h.manifest, ⟨⟩,
      h.conditionBefore, ⟨⟩, h.conditionFirst, ⟨⟩, h.conditionDamage, quantity, h.quantity, ⟨⟩, ?_, ⟨⟩, ?_, rfl⟩
    · rw [Catalog.lockSubject, getOr_eq_ok, Option.filter_eq_some_iff]
      exact ⟨h.found, by simpa using h.organization⟩
    · rw [requireSubjectAvailableInEdition, require_eq_ok]
      exact h.available
    · rw [validateParentKind, require_eq_ok]
      exact h.kinds
    · rw [Custody.assertAcyclicDestination, require_eq_ok]
      exact h.acyclic
    · simpa [Option.all_eq_true] using h.party
    · exact List.all_eq_true.mpr fun e he => decide_eq_true (h.unnumbered e he)
    · exact h.unevidenced.imp_right fun all => List.all_eq_true.mpr fun e he => decide_eq_true (all e he)

/-! ## Kinds of subjects and quantities -/

theorem TrackedSubject.lot?_isSome (subject : TrackedSubject) : subject.lot?.isSome ↔
    subject.locator.kind = .stockLot := by
  cases subject <;> simp [TrackedSubject.lot?, TrackedSubject.locator]

theorem TrackedSubject.node?_eq_some {subject : TrackedSubject} {node : LogisticsNode}
    (h : subject.node? = some node) : subject.locator = ⟨.node, node.id⟩ := by
  cases subject <;> cases h
  rfl

theorem TrackedSubject.exists_node? {subject : TrackedSubject} (h : subject.locator.kind = .node) :
    ∃ node, subject.node? = some node := by
  cases subject <;> cases h
  exact ⟨_, rfl⟩

theorem newQuantity_eq_ok {subject : TrackedSubject} {current : Option LogisticsCurrentState}
    {movement : MovementInput} {quantity : Option Int} :
    newQuantity subject current movement = .ok quantity ↔
      match subject.lot? with
      | some lot => quantity = movement.quantity ∧ ∃ q, movement.quantity = some q ∧
          (movement.eventType = .receive → q ≤ lot.initialQuantity) ∧
          (movement.eventType = .receive ∨ movement.eventType = .count ∨ current.bind (·.quantityOnHand) = some q)
      | none => quantity = none ∧ ∀ q ∈ movement.quantity, q = 1 := by
  rw [newQuantity]
  cases subject.lot? with
  | none =>
    simp only [bind_eq_ok, require_eq_ok, pure_eq_ok, exists_const]
    constructor
    · rintro ⟨h, rfl⟩
      exact ⟨rfl, h⟩
    · rintro ⟨rfl, h⟩
      exact ⟨h, rfl⟩
  | some lot =>
    simp only [bind_eq_ok, getOr_eq_ok]
    by_cases hr : movement.eventType = .receive
    · simp only [hr, if_true, bind_eq_ok, require_eq_ok, pure_eq_ok, exists_const, true_implies,
        true_or, and_true]
      constructor
      · rintro ⟨q, hq, bound, rfl⟩
        exact ⟨hq.symm, q, hq, bound⟩
      · rintro ⟨rfl, q, hq, bound⟩
        exact ⟨q, hq, bound, hq.symm⟩
    · by_cases hc : movement.eventType = .count
      · simp only [hc, reduceCtorEq, if_false, ne_eq, not_true_eq_false, pure_eq_ok, false_implies,
          true_or, or_true, and_true]
        constructor
        · rintro ⟨q, hq, rfl⟩
          exact ⟨hq.symm, q, hq⟩
        · rintro ⟨rfl, q, hq⟩
          exact ⟨q, hq, hq.symm⟩
      · simp only [hr, hc, if_false, ne_eq, not_false_iff, if_true, bind_eq_ok, require_eq_ok,
          pure_eq_ok, exists_const, false_implies, true_and, false_or]
        constructor
        · rintro ⟨q, hq, held, rfl⟩
          exact ⟨hq.symm, q, hq, held.symm⟩
        · rintro ⟨rfl, q, hq, held⟩
          exact ⟨q, hq, held.symm, hq.symm⟩

end Maru.Logistics

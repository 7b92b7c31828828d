import Maru.Logistics.MovementWrites

/-!
# The projection and its log

The events of a subject are a log whose projection the current state is: `advance` is what
an event makes of the state, `Continues` that it records the state as it was. A movement
that is planned continues the projection and leads to the state that is written with it
(`Plannable.continues`, `Plannable.advances`), so what a log and its projection say of each
other, and that no place is inside itself, is kept (`Projected`, `Projected.append`).
-/

namespace Maru.Logistics

/-! ## The log of a subject -/

/-- The state after an event. -/
def advance (prior : Option LogisticsCurrentState) (event : LogisticsEvent) : LogisticsCurrentState where
  organizationId := event.organizationId
  subject := event.subject
  currentNodeId :=
    if event.eventType.moves ∨ event.eventType = .return then event.destinationNodeId
    else prior.bind (·.currentNodeId)
  custodianAccountId := event.toCustodianAccountId
  custodianPartyId := event.toCustodianPartyId
  quantityOnHand := if event.subject.kind = .stockLot then event.quantity else none
  condition := event.conditionAfter
  state := eventCustody event.eventType (prior.map (·.state))
  eventSequence := event.eventSequence
  lastEventId := event.id

/-- The event records the state that it finds, and a lot's quantity changes only by a count. -/
structure Continues (prior : Option LogisticsCurrentState) (event : LogisticsEvent) : Prop where
  sequence : event.eventSequence = (prior.map (·.eventSequence)).getD 0 + 1
  receive : event.eventType = .receive ↔ prior = none
  source : event.sourceNodeId = prior.bind (·.currentNodeId)
  account : event.fromCustodianAccountId = prior.bind (·.custodianAccountId)
  party : event.fromCustodianPartyId = prior.bind (·.custodianPartyId)
  condition : event.conditionBefore = (prior.map (·.condition)).getD ""
  counted : event.subject.kind = .stockLot → ∃ q, event.quantity = some q ∧ 0 ≤ q ∧
    (event.eventType = .receive ∨ event.eventType = .count ∨ prior.bind (·.quantityOnHand) = some q)

namespace Custody

def eventsOf (custody : Custody) (subject : SubjectLocator) : List LogisticsEvent :=
  custody.events.rows.filter fun event => event.subject = subject

/-- The version of an edition's control, 0 before there is one. -/
def controlVersion (custody : Custody) (editionId : Uuid) : Nat :=
  ((custody.controls.get? editionId).map (·.aggregateVersion)).getD 0

end Custody

/-- What the projection says of the log, and of where things are. -/
structure Projected (custody : Custody) : Prop where
  replay : ∀ subject, custody.currentStates.get? subject = EventLog.replay advance (custody.eventsOf subject)
  sound : ∀ subject, EventLog.Sound advance Continues (custody.eventsOf subject)
  control : ∀ editionId, custody.controlVersion editionId =
    custody.events.rows.countP fun event => event.editionId = editionId
  grounded : Forest.Grounded custody.container?

theorem projected_empty : Projected .empty where
  replay _ := rfl
  sound _ := .nil
  control _ := rfl
  grounded := Forest.grounded_none

/-- It depends on the events, the current states and the versions of the controls alone. -/
theorem Projected.congr {before after : Custody} (h : Projected before)
    (events : after.events = before.events) (states : after.currentStates = before.currentStates)
    (versions : ∀ editionId, after.controlVersion editionId = before.controlVersion editionId) : Projected after where
  replay subject := by
    rw [states, Custody.eventsOf, events]
    exact h.replay subject
  sound subject := by
    rw [Custody.eventsOf, events]
    exact h.sound subject
  control editionId := by
    rw [versions, events]
    exact h.control editionId
  grounded := by
    have same : after.container? = before.container? := by
      funext id
      rw [Custody.container?, states]
      rfl
    rw [same]
    exact h.grounded

/-! ## The writes -/

section

variable {world : World} {sur : Surroundings} {catalog : Catalog} {before after : Custody}

/-- What recording a movement changes. -/
structure Recorded (before after : Custody) (record : RecordedMovement) : Prop where
  events : before.events.insert? record.event = some after.events
  states : ∀ subject, after.currentStates.get? subject =
    if subject = record.state.subject then some record.state else before.currentStates.get? subject
  controls : ∀ editionId, after.controlVersion editionId =
    before.controlVersion editionId + if editionId = record.event.editionId then 1 else 0

theorem writeState_ok {state : LogisticsCurrentState} (h : before.writeState world catalog state = .ok after) :
    after.events = before.events ∧ after.controls = before.controls ∧
      after.discrepancies = before.discrepancies ∧ ∀ subject, after.currentStates.get? subject =
        if subject = state.subject then some state else before.currentStates.get? subject := by
  simp only [Custody.writeState, bind_eq_ok] at h
  obtain ⟨_, -, _, -, h⟩ := h
  split at h
  · simp only [bind_eq_ok, getOr_eq_ok, pure_eq_ok] at h
    obtain ⟨states, inserted, rfl⟩ := h
    exact ⟨rfl, rfl, rfl, fun subject => Table.get?_insert? inserted subject⟩
  · rename_i old found
    obtain rfl := pure_eq_ok.mp h
    refine ⟨rfl, rfl, rfl, fun subject => ?_⟩
    rw [Table.get?_save]
    split
    · rename_i e
      rw [e, found, Option.map_some, if_pos (Table.get?_eq_some.mp found).2]
    · rename_i e
      cases other : before.currentStates.get? subject with
      | none => rfl
      | some row => rw [Option.map_some, if_neg (by rw [(Table.get?_eq_some.mp other).2]; exact e)]

theorem writeDiscrepancy_ok {discrepancy : LogisticsDiscrepancy}
    (h : before.writeDiscrepancy world discrepancy = .ok after) :
    after.events = before.events ∧ after.controls = before.controls ∧ after.currentStates = before.currentStates ∧
      before.discrepancies.insert? discrepancy = some after.discrepancies := by
  simp only [Custody.writeDiscrepancy, bind_eq_ok, getOr_eq_ok, pure_eq_ok] at h
  obtain ⟨_, -, _, inserted, rfl⟩ := h
  exact ⟨rfl, rfl, rfl, inserted⟩

theorem ensureControl_ok {organizationId editionId : Uuid} {control : LogisticsEditionControl}
    (h : before.ensureControl world organizationId editionId = .ok (after, control)) :
    after.events = before.events ∧ after.currentStates = before.currentStates ∧
      after.discrepancies = before.discrepancies ∧ after.controls.get? editionId = some control ∧
      control.aggregateVersion = before.controlVersion editionId ∧
      ∀ other, after.controlVersion other = before.controlVersion other := by
  simp only [Custody.ensureControl] at h
  split at h
  · rename_i row found
    cases h
    refine ⟨rfl, rfl, rfl, found, ?_, fun _ => rfl⟩
    rw [Custody.controlVersion, found]
    rfl
  · rename_i absent
    simp only [bind_eq_ok, getOr_eq_ok, pure_eq_ok, Prod.mk.injEq] at h
    obtain ⟨_, -, controls, inserted, rfl, rfl⟩ := h
    have get := Table.get?_insert? inserted
    refine ⟨rfl, rfl, rfl, by rw [get, if_pos rfl], by rw [Custody.controlVersion, absent]; rfl, fun other => ?_⟩
    rw [Custody.controlVersion, get, Custody.controlVersion]
    split
    · rename_i e
      rw [e, absent]
      rfl
    · rfl

theorem advanceControl_ok {organizationId editionId : Uuid}
    (h : before.advanceControl world organizationId editionId = .ok after) :
    after.events = before.events ∧ after.currentStates = before.currentStates ∧
      after.discrepancies = before.discrepancies ∧ ∀ other, after.controlVersion other =
        before.controlVersion other + if other = editionId then 1 else 0 := by
  simp only [Custody.advanceControl, bind_eq_ok, pure_eq_ok] at h
  obtain ⟨⟨ensured, control⟩, hensure, _, -, rfl⟩ := h
  obtain ⟨events, states, discrepancies, found, version, same⟩ := ensureControl_ok hensure
  refine ⟨events, states, discrepancies, fun other => ?_⟩
  rw [← same, Custody.controlVersion, Custody.controlVersion, Table.get?_save]
  have key := (Table.get?_eq_some.mp found).2
  split
  · rename_i e
    rw [e, found, Option.map_some, if_pos rfl]
    rfl
  · rename_i e
    cases row : ensured.controls.get? other with
    | none => rfl
    | some row' => rw [Option.map_some, if_neg (by rw [(Table.get?_eq_some.mp row).2, key]; exact e), Nat.add_zero]

theorem recordMovement_ok {record : RecordedMovement}
    (h : before.recordMovement world sur catalog record = .ok after) : Recorded before after record := by
  simp only [Custody.recordMovement, bind_eq_ok, getOr_eq_ok] at h
  obtain ⟨_, -, events, inserted, projected, written, explained, discrepancy, advanced⟩ := h
  obtain ⟨hevents, hcontrols, -, states⟩ := writeState_ok written
  obtain ⟨same, controls⟩ : (explained.events = projected.events ∧ explained.currentStates = projected.currentStates) ∧
      explained.controls = projected.controls := by
    cases found : record.discrepancy with
    | none =>
      rw [found] at discrepancy
      cases discrepancy
      exact ⟨⟨rfl, rfl⟩, rfl⟩
    | some row =>
      rw [found] at discrepancy
      have := writeDiscrepancy_ok discrepancy
      exact ⟨⟨this.1, this.2.2.1⟩, this.2.1⟩
  obtain ⟨hevents', hstates', -, versions⟩ := advanceControl_ok advanced
  refine ⟨by rw [hevents', same.1, hevents]; exact inserted, fun subject => ?_, fun editionId => ?_⟩
  · rw [hstates', same.2]
    exact states subject
  · rw [versions, Custody.controlVersion, controls, hcontrols]
    rfl

end

/-! ## Appending a movement -/

theorem eventState_eq (eventType : EventType) (prior : Option CustodyState) :
    eventState eventType prior = eventCustody eventType prior := by
  cases eventType <;> rfl

section

variable {world : World} {sur : Surroundings} {catalog : Catalog} {custody after : Custody} {context : MovementContext}
  {movement : Movement} {expected : Nat} {subject : TrackedSubject} {destination : Option LogisticsNode}
  {quantity : Option Int}
  (h : Plannable world sur catalog custody context movement expected subject destination quantity)

include h

theorem Plannable.locator : subject.locator = movement.subject := Catalog.locator_of_subject? h.found

theorem Plannable.origin_eq :
    (movement.sourceNodeId <|> (custody.currentOf movement).bind (·.currentNodeId)) =
      (custody.currentOf movement).bind (·.currentNodeId) := by
  rcases h.origin with e | e
  · rw [e]
    rfl
  · rw [e]
    cases (custody.currentOf movement).bind (·.currentNodeId) <;> rfl

theorem Plannable.continues : Continues (custody.currentOf movement)
    (plannedRecord custody context movement subject quantity).event where
  sequence := rfl
  receive := h.first.symm
  source := h.origin_eq
  account := rfl
  party := rfl
  condition := rfl
  counted := by
    intro lot
    have found := (TrackedSubject.lot?_isSome subject).mpr (h.locator ▸ lot)
    obtain ⟨row, hrow⟩ := Option.isSome_iff_exists.mp found
    have held := h.quantity
    rw [newQuantity_eq_ok, hrow] at held
    obtain ⟨-, q, hq, -, counted⟩ := held
    exact ⟨q, hq, movement.quantity_nonneg q hq, counted⟩

theorem Plannable.advances : (plannedRecord custody context movement subject quantity).state =
    advance (custody.currentOf movement) (plannedRecord custody context movement subject quantity).event := by
  have hq : quantity = if movement.subject.kind = .stockLot then movement.quantity else none := by
    have held := h.quantity
    rw [newQuantity_eq_ok] at held
    rw [← h.locator]
    cases lot : subject.lot? with
    | none =>
      rw [lot] at held
      rw [if_neg fun e => by simpa [lot] using (TrackedSubject.lot?_isSome subject).mpr e]
      exact held.1
    | some row =>
      rw [lot] at held
      rw [if_pos ((TrackedSubject.lot?_isSome subject).mp (by rw [lot]; rfl))]
      exact held.1
  simp only [plannedRecord, movementRecord, advance, eventState_eq]
  rw [hq]

theorem Plannable.destination_eq : destination.map (·.id) = movement.destinationNodeId := by
  have arrival := h.arrival
  cases named : movement.destinationNodeId with
  | none =>
    rw [named] at arrival
    cases arrival
    rfl
  | some id =>
    rw [named] at arrival
    simp only [Catalog.routeNode, bind_eq_ok, getOr_eq_ok, pure_eq_ok, Option.filter_eq_some_iff] at arrival
    obtain ⟨node, ⟨found, -⟩, rfl⟩ := arrival
    rw [Option.map_some, (Table.get?_eq_some.mp found).2]

/-- Where the subject is afterwards is not inside the subject. -/
theorem Plannable.lineage {node : LogisticsNode} (hn : subject.node? = some node) :
    movement.eventType.moves ∨ movement.eventType = .return →
      ∃ l, Forest.Lineage custody.container? movement.destinationNodeId l ∧ node.id ∉ l := by
  intro _
  rw [← h.destination_eq]
  cases d : destination with
  | none => exact ⟨[], .root, List.not_mem_nil⟩
  | some place =>
    obtain ⟨-, walk⟩ := h.acyclic node hn place d
    rw [Forest.ascend_iff] at walk
    exact ⟨_, Forest.lineage_of_lt walk.1, walk.2 node.id List.mem_cons_self⟩

end

section

variable {world : World} {sur : Surroundings} {catalog : Catalog} {custody after : Custody}
  {context : MovementContext} {movement : Movement} {expected : Nat} {record : RecordedMovement}

theorem eventsOf_recorded (h : Recorded custody after record) (subject : SubjectLocator) :
    after.eventsOf subject = custody.eventsOf subject ++
      if record.event.subject = subject then [record.event] else [] := by
  rw [Custody.eventsOf, (Table.insert?_eq_some.mp h.events).2, List.filter_append]
  congr 1
  by_cases e : record.event.subject = subject <;> simp [e]

/-- Recording a movement of a node changes the container of that node, and no other. -/
theorem container?_recorded (h : Recorded custody after record) {id : Uuid} (hs : record.state.subject = ⟨.node, id⟩) :
    after.container? = Function.update custody.container? id record.state.currentNodeId := by
  funext other
  rw [Custody.container?, h.states, hs]
  by_cases e : other = id
  · subst e
    rw [if_pos rfl, Function.update_self]
    rfl
  · rw [if_neg fun s => e (congrArg SubjectLocator.objectId s), Function.update_of_ne e]
    rfl

theorem container?_recorded_of_ne (h : Recorded custody after record)
    (hs : record.state.subject.kind ≠ .node) : after.container? = custody.container? := by
  funext other
  rw [Custody.container?, h.states, if_neg fun s => hs (congrArg SubjectLocator.kind s).symm]
  rfl

/-- Appending a movement keeps what the projection says. -/
theorem Projected.append (h : Projected custody)
    (ok : appendMovementEvent world sur catalog custody context movement expected = .ok (after, record)) :
    Projected after := by
  simp only [appendMovementEvent, bind_eq_ok, pure_eq_ok, Prod.mk.injEq] at ok
  obtain ⟨_, planned, after, recorded, rfl, rfl⟩ := ok
  obtain ⟨subject, destination, quantity, plannable, rfl⟩ := planMovement_eq_ok.mp planned
  have writes := recordMovement_ok recorded
  -- The names of the new event and of the new state.
  obtain ⟨record, hrecord⟩ : ∃ r, r = plannedRecord custody context movement subject quantity := ⟨_, rfl⟩
  have continues := plannable.continues
  have advances := plannable.advances
  have eventSubject : record.event.subject = movement.subject := by rw [hrecord]; rfl
  have stateSubject : record.state.subject = movement.subject := by rw [hrecord]; rfl
  rw [← hrecord] at writes continues advances
  refine ⟨fun s => ?_, fun s => ?_, fun e => ?_, ?_⟩
  · rw [writes.states, eventsOf_recorded writes, stateSubject, eventSubject]
    by_cases e : s = movement.subject
    · subst e
      rw [if_pos rfl, if_pos rfl, EventLog.replay_concat, ← h.replay, advances]
    · rw [if_neg e, if_neg (Ne.symm e), List.append_nil]
      exact h.replay s
  · rw [eventsOf_recorded writes, eventSubject]
    by_cases e : movement.subject = s
    · subst e
      rw [if_pos rfl]
      refine (h.sound _).concat ?_
      rw [← h.replay]
      exact continues
    · rw [if_neg e, List.append_nil]
      exact h.sound s
  · rw [writes.controls, h.control, (Table.insert?_eq_some.mp writes.events).2, List.countP_append,
      List.countP_singleton]
    by_cases same : e = record.event.editionId
    · simp [same]
    · simp [same, Ne.symm same]
  · by_cases kind : movement.subject.kind = .node
    · have asNode : movement.subject = ⟨.node, movement.subject.objectId⟩ := by rw [← kind]
      rw [container?_recorded writes (stateSubject.trans asNode)]
      obtain ⟨node, hn⟩ := TrackedSubject.exists_node? (plannable.locator ▸ kind)
      have id : node.id = movement.subject.objectId := by rw [← plannable.locator, TrackedSubject.node?_eq_some hn]
      by_cases moves : movement.eventType.moves ∨ movement.eventType = .return
      · obtain ⟨l, lineage, outside⟩ := plannable.lineage hn moves
        have place : record.state.currentNodeId = movement.destinationNodeId := by
          rw [hrecord]
          exact if_pos moves
        rw [place]
        exact h.grounded.update lineage (id ▸ outside)
      · have place : record.state.currentNodeId = custody.container? movement.subject.objectId := by
          rw [hrecord, Custody.container?, ← asNode]
          exact if_neg moves
        rw [place, Function.update_eq_self]
        exact h.grounded
    · rw [container?_recorded_of_ne writes (stateSubject ▸ kind)]
      exact h.grounded

end

end Maru.Logistics

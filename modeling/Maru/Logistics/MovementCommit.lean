import Maru.Logistics.MovementGuards

/-!
# Movements that are committed

The writes of a movement beside its event and projection pass their guards whenever it was
planned: the discrepancy, the control of the edition, and what the database asks when the
transaction commits. `movement_accepted_iff` puts all guards together.
-/

namespace Maru.Logistics

variable {world : World} {lib : Primitives} {sur : Surroundings} {catalog : Catalog} {custody after : Custody}

/-! ## The event before -/

/-- The projection of a lot has the quantity of its last event, which the database
finds before the next one. -/
theorem Projected.priorLotEvent (h : Projected custody) {subject : SubjectLocator} (lot : subject.kind = .stockLot)
    {state : LogisticsCurrentState} (found : custody.currentStates.get? subject = some state) {event : LogisticsEvent}
    (about : event.subject = subject) (next : event.eventSequence = state.eventSequence + 1)
    (events : after.events.rows = custody.events.rows ++ [event]) :
    ∃ prior, after.priorLotEvent? event = some prior ∧ prior.quantity = state.quantityOnHand := by
  have replay := h.replay subject
  have numbers := (h.numbers subject).1
  rw [found] at replay
  obtain ⟨log, last, split⟩ : ∃ log last, custody.eventsOf subject = log ++ [last] := by
    rcases List.eq_nil_or_concat (custody.eventsOf subject) with empty | ⟨log, last, split⟩
    · rw [empty] at replay
      cases replay
    · exact ⟨log, last, by rw [split, List.concat_eq_append]⟩
  rw [split, EventLog.replay_concat, Option.some.injEq] at replay
  have isLast : last ∈ custody.eventsOf subject := by simp [split]
  have ⟨listed, lastAbout⟩ := List.mem_filter.mp isLast
  have lastAbout : last.subject = subject := of_decide_eq_true lastAbout
  have number : last.eventSequence = state.eventSequence := by rw [replay]; rfl
  have held : last.quantity = state.quantityOnHand := by
    rw [replay]
    exact (if_pos (lastAbout ▸ lot)).symm
  have distinct : ((custody.eventsOf subject).map (·.eventSequence)).Nodup := by
    rw [numbers]
    exact List.nodup_range'
  -- The first event found before the new one is the last one of the log.
  cases search : after.priorLotEvent? event with
  | none =>
    have absent := List.find?_eq_none.mp search last (by rw [events]; exact List.mem_append_left _ listed)
    simp [about, lot, lastAbout, number, next] at absent
  | some prior =>
    refine ⟨prior, rfl, ?_⟩
    have matching := List.find?_some search
    simp only [Bool.and_eq_true, decide_eq_true_eq, about] at matching
    obtain ⟨⟨-, priorAbout⟩, before⟩ := matching
    have member := List.mem_of_find?_eq_some search
    rw [events, List.mem_append, List.mem_singleton] at member
    rcases member with member | rfl
    · have inLog : prior ∈ custody.eventsOf subject := List.mem_filter.mpr ⟨member, decide_eq_true priorAbout⟩
      have same : prior = last := List.inj_on_of_nodup_map distinct inLog isLast (by omega)
      rw [same, held]
    · omega

section

variable {context : MovementContext} {movement : Movement} {expected : Nat}
  {subject : TrackedSubject} {destination : Option LogisticsNode} {quantity : Option Int}
  (h : Plannable world sur catalog custody context movement expected subject destination quantity)

/-- What was on hand of a lot. -/
abbrev priorQuantity (custody : Custody) (movement : Movement) (subject : TrackedSubject) : Option Int :=
  if subject.lot?.isSome then (custody.currentOf movement).bind (·.quantityOnHand) else none

include h

omit h in
/-- What a discrepancy says. -/
theorem movementDiscrepancy_eq_some {movement : MovementInput} {before now : Option Int}
    {discrepancy : LogisticsDiscrepancy} (hd : movementDiscrepancy context movement before now = some discrepancy) :
    (discrepancy.editionId = context.editionId ∧ discrepancy.organizationId = context.organizationId ∧
      discrepancy.subject = movement.subject ∧ discrepancy.detectedEventId = some context.eventId ∧
      discrepancy.id = context.discrepancyId) ∧
    (discrepancy.expectedQuantity = before ∧ discrepancy.observedQuantity = now) ∧
    ((discrepancy.kind = .count ∧ movement.eventType = .count ∧ before ≠ none ∧ now ≠ before) ∨
      (discrepancy.kind = .damage ∧ movement.eventType = .damage)) := by
  rw [movementDiscrepancy] at hd
  split at hd
  · rename_i count
    cases hd
    exact ⟨⟨rfl, rfl, rfl, rfl, rfl⟩, ⟨rfl, rfl⟩, .inl ⟨rfl, count⟩⟩
  · split at hd
    · rename_i damage
      cases hd
      exact ⟨⟨rfl, rfl, rfl, rfl, rfl⟩, ⟨rfl, rfl⟩, .inr ⟨rfl, damage⟩⟩
    · cases hd

/-- The quantities of a lot, and of anything else. -/
theorem Plannable.quantities :
    (movement.subject.kind = .stockLot ∧ quantity = movement.quantity ∧
      priorQuantity custody movement subject = (custody.currentOf movement).bind (·.quantityOnHand)) ∨
    (movement.subject.kind ≠ .stockLot ∧ quantity = none ∧ priorQuantity custody movement subject = none) := by
  have counted := h.quantity
  rw [newQuantity_eq_ok] at counted
  rw [← h.locator]
  cases lot : subject.lot? with
  | some row =>
    rw [lot] at counted
    refine .inl ⟨(TrackedSubject.lot?_isSome subject).mp (by rw [lot]; rfl), counted.1, ?_⟩
    rw [priorQuantity, lot]
    rfl
  | none =>
    rw [lot] at counted
    refine .inr ⟨fun kind => by simpa [lot] using (TrackedSubject.lot?_isSome subject).mpr kind, counted.1, ?_⟩
    rw [priorQuantity, lot]
    rfl

/-- What was on hand is what the event before recorded. -/
theorem Plannable.prior (projected : Projected custody) (kind : movement.subject.kind = .stockLot)
    {state : LogisticsCurrentState} (found : custody.currentOf movement = some state)
    (events : after.events.rows =
      custody.events.rows ++ [(plannedRecord custody context movement subject quantity).event]) :
    ∃ prior, after.priorLotEvent? (plannedRecord custody context movement subject quantity).event =
      some prior ∧ prior.quantity = state.quantityOnHand := by
  refine projected.priorLotEvent kind found rfl ?_ events
  have next := h.continues.sequence
  rw [found] at next
  exact next

/-- The discrepancy of a planned movement says what its event found. -/
theorem Plannable.explains (projected : Projected custody)
    (events : after.events.rows =
      custody.events.rows ++ [(plannedRecord custody context movement subject quantity).event])
    {discrepancy : LogisticsDiscrepancy}
    (hd : (plannedRecord custody context movement subject quantity).discrepancy = some discrepancy) :
    after.explains (plannedRecord custody context movement subject quantity).event discrepancy := by
  have compared : movementDiscrepancy context movement.toMovementInput
    (priorQuantity custody movement subject) quantity = some discrepancy := hd
  obtain ⟨-, ⟨expects, observes⟩, reason⟩ := movementDiscrepancy_eq_some compared
  have event : (plannedRecord custody context movement subject quantity).event.subject = movement.subject := rfl
  have moved : (plannedRecord custody context movement subject quantity).event.quantity = movement.quantity := rfl
  have type : (plannedRecord custody context movement subject quantity).event.eventType = movement.eventType := rfl
  rw [Custody.explains, event, moved, type, expects, observes]
  have tracked : movement.eventType ≠ .receive → ∃ state, custody.currentOf movement = some state := fun later => by
    rw [← Option.ne_none_iff_exists']
    exact fun none => later (h.first.mp none)
  rcases reason with ⟨kind, count, known, changed⟩ | ⟨kind, damage⟩
  · obtain ⟨state, current⟩ := tracked (by rw [count]; nofun)
    rcases h.quantities with ⟨lot, hq, hp⟩ | ⟨-, -, hp⟩
    · obtain ⟨prior, search, same⟩ := h.prior projected lot current events
      rw [hp, current, Option.bind_some] at changed
      have differs : state.quantityOnHand ≠ movement.quantity := fun e => changed (hq.trans e.symm)
      rw [hp, current, Option.bind_some, search, Option.bind_some, same]
      simp [kind, count, lot, hq, differs]
    · exact absurd hp known
  · obtain ⟨state, current⟩ := tracked (by rw [damage]; nofun)
    rcases h.quantities with ⟨lot, hq, hp⟩ | ⟨lot, hq, hp⟩
    · obtain ⟨prior, search, same⟩ := h.prior projected lot current events
      rw [hp, current, Option.bind_some, search, Option.bind_some, same]
      simp [kind, damage, lot, hq]
    · rw [hp]
      simp [kind, damage, lot, hq]

theorem Plannable.guardDiscrepancy (projected : Projected custody)
    (edition : world.editionOrganization context.editionId = some context.organizationId)
    (events : after.events.rows =
      custody.events.rows ++ [(plannedRecord custody context movement subject quantity).event])
    (found : after.events.get? context.eventId = some (plannedRecord custody context movement subject quantity).event)
    {discrepancy : LogisticsDiscrepancy}
    (hd : (plannedRecord custody context movement subject quantity).discrepancy = some discrepancy) :
    guardDiscrepancy world after discrepancy = .ok () := by
  obtain ⟨⟨inEdition, inOrganization, about, detected, -⟩, -, -⟩ := movementDiscrepancy_eq_some hd
  simp only [Logistics.guardDiscrepancy, bind_eq_ok, require_eq_ok, exists_const, inEdition, inOrganization, about,
    detected, found, Option.all_some, Option.any_some, Bool.and_eq_true, decide_eq_true_eq]
  exact ⟨⟨edition, ⟨rfl, rfl⟩, rfl⟩, fun _ => Option.some_ne_none _, h.explains projected events hd⟩

end

/-! ## The writes go through -/

theorem ensureControl_succeeds (custody : Custody) {organizationId editionId : Uuid}
    (edition : world.editionOrganization editionId = some organizationId) :
    ∃ after control, custody.ensureControl world organizationId editionId = .ok (after, control) := by
  cases found : custody.controls.get? editionId with
  | some control => exact ⟨custody, control, by rw [Custody.ensureControl, found]⟩
  | none =>
    obtain ⟨controls, inserted⟩ :=
      (Table.exists_insert?_eq_some (t := custody.controls) (r := { organizationId, editionId })).mpr found
    have guarded : guardControl world { organizationId, editionId } = .ok () := require_eq_ok.mpr edition
    refine ⟨{ custody with controls }, { organizationId, editionId }, ?_⟩
    simp only [Custody.ensureControl, found, bind_eq_ok, getOr_eq_ok]
    exact ⟨(), guarded, controls, inserted, rfl⟩

theorem advanceControl_succeeds
    (controlled : ∀ control ∈ custody.controls,
      world.editionOrganization control.editionId = some control.organizationId)
    {organizationId editionId : Uuid} (edition : world.editionOrganization editionId = some organizationId) :
    ∃ after, custody.advanceControl world organizationId editionId = .ok after := by
  obtain ⟨ensured, control, hensure⟩ := ensureControl_succeeds custody edition
  have found := (ensureControl_ok hensure).2.2.2.1
  have guarded := ensureControl_controlled controlled hensure control (Table.get?_eq_some.mp found).1
  refine ⟨{ ensured with
    controls := ensured.controls.save { control with aggregateVersion := control.aggregateVersion + 1 } }, ?_⟩
  simp only [Custody.advanceControl, bind_eq_ok]
  exact ⟨(ensured, control), hensure, (), require_eq_ok.mpr guarded, rfl⟩

theorem recordMovement_discrepancy {record : RecordedMovement}
    (h : custody.recordMovement world sur catalog record = .ok after) {discrepancy : LogisticsDiscrepancy}
    (hd : record.discrepancy = some discrepancy) : discrepancy ∈ after.discrepancies := by
  simp only [Custody.recordMovement, bind_eq_ok, getOr_eq_ok] at h
  obtain ⟨_, -, events, -, projected, -, explained, explanation, advanced⟩ := h
  rw [hd] at explanation
  have inserted := (writeDiscrepancy_ok explanation).2.2.2
  rw [(advanceControl_ok advanced).2.2.1]
  exact (Table.mem_insert? inserted).mpr (.inr rfl)

section

variable {context : MovementContext} {movement : Movement} {expected : Nat}
  {subject : TrackedSubject} {destination : Option LogisticsNode} {quantity : Option Int}
  (h : Plannable world sur catalog custody context movement expected subject destination quantity)
  (upheld : Upheld world catalog custody)
  (edition : world.editionOrganization context.editionId = some context.organizationId)

include h upheld edition

/-- A planned movement that two guards let pass is recorded. -/
theorem Plannable.recordMovement_succeeds (freshEvent : custody.events.get? context.eventId = none)
    (freshDiscrepancy : custody.discrepancies.get? context.discrepancyId = none)
    (counted : catalog.lineQuantity movement.toMovementInput) (bounded : custody.bounded movement.toMovementInput) :
    ∃ after, custody.recordMovement world sur catalog
      (plannedRecord custody context movement subject quantity) = .ok after := by
  obtain ⟨events, inserted⟩ := (Table.exists_insert?_eq_some (t := custody.events)
    (r := (plannedRecord custody context movement subject quantity).event)).mpr freshEvent
  have rows := (Table.insert?_eq_some.mp inserted).2
  have event := (h.guardEvent_iff upheld edition).mpr (h.backsEvent_iff.mpr counted)
  have state := (h.guardCurrentState_iff upheld inserted).mpr bounded
  -- The row is new, or is saved over the one that was moved.
  obtain ⟨projected, written⟩ : ∃ projected, ({ custody with events } : Custody).writeState world
      catalog (plannedRecord custody context movement subject quantity).state = .ok projected := by
    have prior : ({ custody with events } : Custody).currentStates.get?
      (plannedRecord custody context movement subject quantity).state.subject = custody.currentOf movement := rfl
    rw [Custody.writeState, prior, state]
    cases found : custody.currentOf movement with
    | none =>
      have number : (plannedRecord custody context movement subject quantity).event.eventSequence = 1 :=
        upheld.first_iff.mpr found
      have first : guardStateIdentity none (plannedRecord custody context movement subject quantity).state = .ok () :=
        require_eq_ok.mpr number
      obtain ⟨currentStates, inserted⟩ := (Table.exists_insert?_eq_some (t := custody.currentStates)
        (r := (plannedRecord custody context movement subject quantity).state)).mpr found
      refine ⟨{ custody with events, currentStates }, ?_⟩
      simp only [bind_eq_ok, getOr_eq_ok]
      exact ⟨(), trivial, (), first, currentStates, inserted, rfl⟩
    | some old =>
      have identity : guardStateIdentity (some old)
        (plannedRecord custody context movement subject quantity).state = .ok () :=
        require_eq_ok.mpr (h.current upheld found).2.2.symm
      refine ⟨{ custody with
        events, currentStates :=
          custody.currentStates.save (plannedRecord custody context movement subject quantity).state }, ?_⟩
      simp only [bind_eq_ok]
      exact ⟨(), trivial, (), identity, rfl⟩
  obtain ⟨sameEvents, sameControls, sameDiscrepancies, -⟩ := writeState_ok written
  obtain ⟨explained, explanation⟩ : ∃ explained,
      projected.writeExplanation world
        (plannedRecord custody context movement subject quantity).discrepancy = .ok explained := by
    cases hd : (plannedRecord custody context movement subject quantity).discrepancy with
    | none => exact ⟨projected, rfl⟩
    | some discrepancy =>
      have id := (movementDiscrepancy_eq_some hd).1.2.2.2.2
      have found : projected.events.get? context.eventId =
          some (plannedRecord custody context movement subject quantity).event := by
        rw [sameEvents, Table.get?_insert? inserted]
        exact if_pos rfl
      have guarded := h.guardDiscrepancy upheld.projected edition (by rw [sameEvents]; exact rows) found hd
      obtain ⟨discrepancies, inserted⟩ := (Table.exists_insert?_eq_some (t := projected.discrepancies)
        (r := discrepancy)).mpr (by rw [sameDiscrepancies, id]; exact freshDiscrepancy)
      refine ⟨{ projected with discrepancies }, ?_⟩
      simp only [Custody.writeExplanation, Custody.writeDiscrepancy, bind_eq_ok, getOr_eq_ok]
      exact ⟨(), guarded, discrepancies, inserted, rfl⟩
  obtain ⟨after, advanced⟩ : ∃ after,
    explained.advanceControl world context.organizationId context.editionId = .ok after := by
    refine advanceControl_succeeds ?_ edition
    rw [(writeExplanation_ok explanation).2.1, sameControls]
    exact upheld.controlled
  refine ⟨after, ?_⟩
  simp only [Custody.recordMovement, bind_eq_ok, getOr_eq_ok]
  exact ⟨(), event, events, inserted, projected, written, explained, explanation, advanced⟩

/-! ## At commit -/

section

variable (recorded : custody.recordMovement world sur catalog
  (plannedRecord custody context movement subject quantity) = .ok after)

include recorded

omit edition in
theorem Plannable.upheld_after : Upheld world catalog after := by
  have appended : appendMovementEvent world sur catalog custody context movement expected =
      .ok (after, plannedRecord custody context movement subject quantity) := by
    simp only [appendMovementEvent, bind_eq_ok]
    exact ⟨_, planMovement_eq_ok.mpr ⟨subject, destination, quantity, h, rfl⟩, after, recorded, rfl⟩
  exact upheld.append appended

omit h upheld edition in
theorem recorded_events : after.events.rows =
    custody.events.rows ++ [(plannedRecord custody context movement subject quantity).event] :=
  (Table.insert?_eq_some.mp (recordMovement_ok recorded).events).2

/-- The control of the edition counts the event. -/
theorem Plannable.requireEventControl :
    requireEventControl after (plannedRecord custody context movement subject quantity).event = .ok () := by
  have kept := h.upheld_after upheld recorded
  have listed : (plannedRecord custody context movement subject quantity).event ∈ after.events.rows := by
    rw [recorded_events recorded]
    exact List.mem_append_right _ (List.mem_singleton.mpr rfl)
  have version := kept.projected.control context.editionId
  have counts : after.editionEvents context.organizationId context.editionId =
      after.events.rows.countP fun event => event.editionId = context.editionId := by
    refine List.countP_congr fun event member => ?_
    have own := kept.editions event member
    simp only [Bool.and_eq_true, decide_eq_true_eq, and_iff_right_iff_imp]
    intro e
    rw [e, edition] at own
    exact (Option.some.inj own).symm
  refine require_eq_ok.mpr ?_
  rw [show (plannedRecord custody context movement subject quantity).event.editionId = context.editionId from rfl,
    show (plannedRecord custody context movement subject quantity).event.organizationId =
      context.organizationId from rfl]
  cases found : after.controls.get? context.editionId with
  | none =>
    rw [Custody.controlVersion, found] at version
    have positive : 0 < after.events.rows.countP fun event => event.editionId = context.editionId :=
      List.countP_pos_iff.mpr ⟨_, listed, by simp [plannedRecord, movementRecord]⟩
    exact absurd version.symm (Nat.ne_of_gt positive)
  | some control =>
    obtain ⟨member, key⟩ := Table.get?_eq_some.mp found
    have own := kept.controlled control member
    rw [key, edition] at own
    rw [Custody.controlVersion, found] at version
    simp only [Option.any_some, Bool.and_eq_true, decide_eq_true_eq]
    exact ⟨(Option.some.inj own).symm, version.trans counts.symm⟩

omit edition in
/-- A count that differs, and any damage, has its discrepancy. -/
theorem Plannable.discrepancy_exists :
    (movement.eventType = .count →
      (∃ prior, after.priorLotEvent? (plannedRecord custody context movement subject quantity).event = some prior ∧
        prior.quantity ≠ movement.quantity) →
      ∃ discrepancy ∈ after.discrepancies, discrepancy.detectedEventId = some context.eventId ∧
        discrepancy.organizationId = context.organizationId ∧ discrepancy.editionId = context.editionId ∧
        discrepancy.kind = .count ∧ discrepancy.subject = movement.subject ∧
        discrepancy.expectedQuantity =
          (after.priorLotEvent? (plannedRecord custody context movement subject quantity).event).bind (·.quantity) ∧
        discrepancy.observedQuantity = movement.quantity) ∧
    (movement.eventType = .damage →
      ∃ discrepancy ∈ after.discrepancies, discrepancy.detectedEventId = some context.eventId ∧
        discrepancy.organizationId = context.organizationId ∧ discrepancy.editionId = context.editionId ∧
        discrepancy.kind = .damage ∧ discrepancy.subject = movement.subject) := by
  have written : ∀ d, movementDiscrepancy context movement.toMovementInput
    (priorQuantity custody movement subject) quantity =
    some d → d ∈ after.discrepancies := fun d hd => recordMovement_discrepancy recorded hd
  constructor
  · rintro count ⟨prior, search, differs⟩
    -- Only lots have an event before.
    have lot : movement.subject.kind = .stockLot := by
      have matching := List.find?_some search
      simp only [Bool.and_eq_true, decide_eq_true_eq] at matching
      exact matching.1.1
    obtain ⟨state, current⟩ := Option.ne_none_iff_exists'.mp fun none => by
      rw [h.first, count] at none
      cases none
    obtain ⟨prior', search', same⟩ := h.prior upheld.projected lot current (recorded_events recorded)
    obtain rfl := Option.some.inj (search.symm.trans search')
    have ⟨housed, about, _⟩ := h.current upheld current
    have held := housed.quantity.mp (about ▸ lot)
    obtain ⟨-, hq, hp⟩ := h.quantities.resolve_right fun other => other.1 lot
    rw [current, Option.bind_some] at hp
    have found : movementDiscrepancy context movement.toMovementInput (priorQuantity custody movement subject) quantity =
        some { id := context.discrepancyId, organizationId := context.organizationId, editionId := context.editionId,
               kind := .count, subject := movement.subject, expectedQuantity := priorQuantity custody movement subject,
               observedQuantity := quantity, description := "Observed stock count differs from prior projection.",
               detectedEventId := some context.eventId } := by
      rw [movementDiscrepancy, if_pos]
      rw [hp, hq, ← same]
      exact ⟨count, same ▸ held, differs.symm⟩
    refine ⟨_, written _ found, rfl, rfl, rfl, rfl, rfl, ?_, hq⟩
    rw [search, Option.bind_some, same]
    exact hp
  · intro damage
    have found : movementDiscrepancy context movement.toMovementInput (priorQuantity custody movement subject) quantity =
        some { id := context.discrepancyId, organizationId := context.organizationId, editionId := context.editionId,
               kind := .damage, subject := movement.subject, expectedQuantity := priorQuantity custody movement subject,
               observedQuantity := quantity, description := "Damage was recorded during logistics handling.",
               detectedEventId := some context.eventId } := by
      rw [movementDiscrepancy, if_neg (by rw [damage]; exact fun count => nomatch count.1), if_pos damage]
    exact ⟨_, written _ found, rfl, rfl, rfl, rfl, rfl⟩

omit edition in
/-- Of an event that is recorded the database asks at the end only that an offline
one has its operation. -/
theorem Plannable.requireEventProjection_iff {uploads : Uploads} :
    requireEventProjection after uploads (plannedRecord custody context movement subject quantity).event = .ok () ↔
      (context.sourceChannel = "offline" → (uploads.operations.countP fun operation =>
        operation.appliedEventId = some context.eventId && operation.result != .duplicate) = 1) := by
  simp only [requireEventProjection, bind_eq_ok, require_eq_ok, exists_const]
  refine and_iff_left ⟨?_, ?_, ?_⟩
  · have states := (recordMovement_ok recorded).states movement.subject
    rw [if_pos (show movement.subject =
      (plannedRecord custody context movement subject quantity).state.subject from rfl)] at states
    refine .inr ?_
    rw [show (plannedRecord custody context movement subject quantity).event.subject = movement.subject from rfl, states]
    simp [plannedRecord, movementRecord]
  · intro count changed
    obtain ⟨prior, search, differs⟩ := Option.any_eq_true _ _ |>.mp changed
    obtain ⟨discrepancy, member, fields⟩ := (h.discrepancy_exists upheld recorded).1 count
      ⟨prior, search, of_decide_eq_true differs⟩
    refine List.any_eq_true.mpr ⟨discrepancy, member, ?_⟩
    simp only [Bool.and_eq_true, decide_eq_true_eq, and_assoc]
    exact fields
  · intro damage
    obtain ⟨discrepancy, member, fields⟩ := (h.discrepancy_exists upheld recorded).2 damage
    refine List.any_eq_true.mpr ⟨discrepancy, member, ?_⟩
    simp only [Bool.and_eq_true, decide_eq_true_eq, and_assoc]
    exact fields

omit h upheld edition in
/-- The same of its discrepancy. -/
theorem requireDiscrepancyOperation_iff {uploads : Uploads} {discrepancy : LogisticsDiscrepancy}
    (hd : (plannedRecord custody context movement subject quantity).discrepancy = some discrepancy) :
    requireDiscrepancyOperation after uploads discrepancy = .ok () ↔
      (context.sourceChannel = "offline" → (uploads.operations.countP fun operation =>
        operation.discrepancyId = some discrepancy.id && operation.result != .duplicate) = 1) := by
  obtain ⟨⟨-, -, -, detected, -⟩, -, reason⟩ := movementDiscrepancy_eq_some hd
  have found : after.events.get? context.eventId =
    some (plannedRecord custody context movement subject quantity).event := by
    rw [Table.get?_insert? (recordMovement_ok recorded).events]
    exact if_pos rfl
  have kind : discrepancy.kind ≠ .offlineConflict := by
    rcases reason with ⟨e, -⟩ | ⟨e, -⟩ <;> rw [e] <;> nofun
  rw [requireDiscrepancyOperation, require_eq_ok, detected, Option.bind_some, found]
  simp only [kind, false_or, Option.any_some, decide_eq_true_eq]
  exact Iff.rfl

end

end

theorem Store.commit_eq_ok {store : Store} {events : List LogisticsEvent}
    {discrepancies : List LogisticsDiscrepancy} : store.commit events discrepancies = .ok () ↔
      (∀ event ∈ events, requireEventControl store.custody event = .ok () ∧
        requireEventProjection store.custody store.uploads event = .ok ()) ∧
      ∀ discrepancy ∈ discrepancies, requireDiscrepancyOperation store.custody store.uploads discrepancy = .ok () := by
  have both (event : LogisticsEvent) : (do
        requireEventControl store.custody event
        requireEventProjection store.custody store.uploads event : Except LogisticsError Unit) = .ok () ↔
      requireEventControl store.custody event = .ok () ∧
        requireEventProjection store.custody store.uploads event = .ok () := by
    rw [bind_eq_ok]
    exact ⟨fun ⟨_, control, projection⟩ => ⟨control, projection⟩, fun ⟨control, projection⟩ => ⟨(), control, projection⟩⟩
  rw [Store.commit, bind_eq_ok, forM_eq_ok]
  constructor
  · rintro ⟨_, each, rest⟩
    exact ⟨fun event member => (both event).mp (forM_eq_ok.mp each event member), rest⟩
  · rintro ⟨each, rest⟩
    exact ⟨(), forM_eq_ok.mpr fun event member => (both event).mpr (each event member), rest⟩

/-- The operation of an offline event, and of its discrepancy, is there. -/
def Uploads.settles (uploads : Uploads) (record : RecordedMovement) : Prop :=
  (uploads.operations.countP fun operation =>
      operation.appliedEventId = some record.event.id && operation.result != .duplicate) = 1 ∧
    ∀ discrepancy ∈ record.discrepancy, (uploads.operations.countP fun operation =>
      operation.discrepancyId = some discrepancy.id && operation.result != .duplicate) = 1

/-- What the database refuses of a movement that the service planned: a lot on a manifest in another
quantity than its line has, a place that stays where it is and is too deep, and an event in the
offline channel that no upload brought. -/
theorem movement_accepted_iff {store : Store} (reached : Reached world lib store) {context : MovementContext}
    {movement : Movement} {expected : Nat} {record : RecordedMovement} {uploads : Uploads}
    (edition : world.editionOrganization context.editionId = some context.organizationId)
    (planned : planMovement world sur store.catalog store.custody context movement expected = .ok record)
    (freshEvent : store.custody.events.get? context.eventId = none)
    (freshDiscrepancy : store.custody.discrepancies.get? context.discrepancyId = none) :
    (∃ after, store.custody.recordMovement world sur store.catalog record = .ok after ∧
      ({ store with custody := after, uploads } : Store).commit [record.event] record.discrepancy.toList = .ok ()) ↔
      store.catalog.lineQuantity movement.toMovementInput ∧ store.custody.bounded movement.toMovementInput ∧
        (context.sourceChannel = "offline" → uploads.settles record) := by
  have upheld := reached_upheld reached
  obtain ⟨subject, destination, quantity, h, rfl⟩ := planMovement_eq_ok.mp planned
  have committed {after : Custody} (recorded : store.custody.recordMovement world sur store.catalog
      (plannedRecord store.custody context movement subject quantity) = .ok after) :
      ({ store with custody := after, uploads } : Store).commit
        [(plannedRecord store.custody context movement subject quantity).event]
        (plannedRecord store.custody context movement subject quantity).discrepancy.toList = .ok () ↔
        (context.sourceChannel = "offline" →
          uploads.settles (plannedRecord store.custody context movement subject quantity)) := by
    simp only [Store.commit_eq_ok, List.mem_singleton, forall_eq, Option.mem_toList,
      h.requireEventControl upheld edition recorded, h.requireEventProjection_iff upheld recorded, true_and]
    rw [Uploads.settles, forall_and]
    refine and_congr_right fun _ => ?_
    constructor
    · intro each offline discrepancy hd
      exact (requireDiscrepancyOperation_iff recorded hd).mp (each discrepancy hd) offline
    · intro each discrepancy hd
      exact (requireDiscrepancyOperation_iff recorded hd).mpr fun offline => each offline discrepancy hd
  constructor
  · rintro ⟨after, recorded, commit⟩
    obtain ⟨event, events, inserted, state⟩ := recordMovement_guards recorded
    exact ⟨h.backsEvent_iff.mp ((h.guardEvent_iff upheld edition).mp event),
      (h.guardCurrentState_iff upheld inserted).mp state, (committed recorded).mp commit⟩
  · rintro ⟨counted, bounded, settled⟩
    obtain ⟨after, recorded⟩ := h.recordMovement_succeeds upheld edition freshEvent freshDiscrepancy counted bounded
    exact ⟨after, recorded, (committed recorded).mpr settled⟩

/-! ## A lot on a manifest -/

def depotWorld : World where
  accountKind _ := .person
  editionOrganization id := if id = 2 then some 1 else none

def depotLibrary : Primitives where
  nfc := id
  isControl _ := false
  isDecimal c := c.isDigit
  upper := id
  slugify := id
  isUrl _ := true
  isEmail _ := true
  sha256 bytes := String.ofList (bytes.toList.map fun byte => Char.ofNat byte.toNat)

def depotSurroundings (draw : Nat) : Surroundings where
  now := 0
  isActive _ := true
  allows _ _ _ := true
  isAssigned _ _ _ := true
  isOpenDepartment _ _ _ := true
  takesOffers _ := true
  isSelectedSpace _ _ _ := true
  newId n := Fin.ofNat _ (1000 * draw + n)

def depotRequest (key : Uuid) : Request := ⟨9, 1, "Season setup", key, "web"⟩

def depotMoment : Moment := ⟨.utc 0 (by decide), rfl⟩

def depotOperation (n : Nat) (command : Command) : Operation :=
  .submit (depotSurroundings n) (depotRequest (Fin.ofNat _ n)) command

def depotNode (kind : NodeKind) (code : String) : NodeInput :=
  ⟨kind, code, "Place", "", none, none, none, none, "", none, ""⟩

def lotMovement (eventType : EventType) (destination : Option Uuid) (quantity : Int) : MovementInput where
  eventType
  subject := ⟨.stockLot, 3001⟩
  occurredAt := depotMoment
  destinationNodeId := destination
  quantity := some quantity
  conditionAfter := "good"

def vanMovement (eventType : EventType) (destination : Option Uuid) : MovementInput where
  eventType
  subject := ⟨.node, 2001⟩
  occurredAt := depotMoment
  destinationNodeId := destination
  conditionAfter := "good"

/-- Five of a lot lie at the site, where the van stands, and are on a manifest. -/
def sealedLot : List Operation := [
  depotOperation 1 (.createLogisticsNode (depotNode .storageSite "site")),
  depotOperation 2 (.createLogisticsNode (depotNode .vehicle "van")),
  depotOperation 3 (.registerStockLot ⟨none, "cable", "Cable", "cable", "item", 5, "", .organization, none, none⟩),
  depotOperation 4 (.recordLogisticsEvent ⟨2, lotMovement .receive (some 1001) 5, 0⟩),
  depotOperation 5 (.createLogisticsManifest
    ⟨2, 7, "M-1", .outbound, "Outbound", some 1001, none, some 2001, none, none, none,
      [⟨⟨.stockLot, 3001⟩, 5, none, ""⟩]⟩),
  depotOperation 6 (.changeManifestState ⟨2, 5001, 1, .seal⟩),
  depotOperation 7 (.recordLogisticsEvent ⟨2, vanMovement .receive (some 1001), 0⟩)]

def sealedStore : Store := (logistics depotWorld depotLibrary).run .empty sealedLot

def depotContext (sourceChannel : String) : MovementContext := ⟨9, 1, 2, "Season setup", sourceChannel, 9001, 9002⟩

/-- The lot is loaded on its manifest. -/
def loadedLot (quantity : Nat) : Movement where
  toMovementInput := { lotMovement .load (some 2001) quantity with
    manifestId := some 5001, evidenceReference := "manifest-line:" ++ (5002 : Uuid).text }
  quantity_nonneg := by rintro _ ⟨⟩; exact Int.natCast_nonneg quantity
  one_custodian := Movement.no_custodian
  condition_text := .inr (show btrim "good" ≠ "" by decide +kernel)

def checkedVan : Movement where
  toMovementInput := vanMovement .condition none
  quantity_nonneg := nofun
  one_custodian := Movement.no_custodian
  condition_text := .inr (show btrim "good" ≠ "" by decide +kernel)

/-- The upload of the scan by which the van was checked. -/
def vanUpload : Uploads := { Uploads.empty with operations := [{
  batchId := 8001, sequence := 1, idempotencyKey := 77, expectedSubjectSequence := 1, action := .condition
  labelCode := "VAN-1", sourceLabelCode := "", destinationLabelCode := "", quantity := none, observedCondition := "good"
  occurredAt := 0, operationDigest := "", result := .applied, reasonCode := "logistics_offline_applied"
  appliedEventId := some 9001, discrepancyId := none }] }

/-- The movement of a subject that was received passes the service and the database. -/
def Passes (store : Store) (uploads : Uploads) (context : MovementContext) (movement : Movement) : Prop :=
  ∃ record after,
    planMovement depotWorld (depotSurroundings 9) store.catalog store.custody context movement 1 = .ok record ∧
      store.custody.recordMovement depotWorld (depotSurroundings 9) store.catalog record = .ok after ∧
      ({ store with custody := after, uploads } : Store).commit [record.event] record.discrepancy.toList = .ok ()

/-- The lot can be loaded in the quantity of its line, and the van be checked by a scan
that its upload brings. -/
theorem loadedLot_accepted : Passes sealedStore sealedStore.uploads (depotContext "web")
    (loadedLot 5) ∧ Passes sealedStore vanUpload (depotContext "offline") checkedVan := by
  constructor
  · obtain ⟨record, planned⟩ := Except.exists_ok (x := planMovement depotWorld (depotSurroundings 9) sealedStore.catalog
      sealedStore.custody (depotContext "web") (loadedLot 5) 1) (by decide +kernel)
    have line : (sealedStore.catalog.manifestLine? 5001 ⟨.stockLot, 3001⟩).map (·.quantity) = some 5 := by decide +kernel
    have counted : sealedStore.catalog.lineQuantity (loadedLot 5).toMovementInput := by
      rintro id ⟨⟩ row (found : sealedStore.catalog.manifestLine? 5001 ⟨.stockLot, 3001⟩ = some row) -
      rw [found] at line
      exact congrArg some (Option.some.inj line).symm
    have settles : (depotContext "web").sourceChannel = "offline" → sealedStore.uploads.settles record :=
      fun offline => absurd offline (by decide)
    obtain ⟨after, recorded⟩ := (movement_accepted_iff (reached_run sealedLot) (by decide) planned (by decide +kernel)
      (by decide +kernel)).mpr ⟨counted, fun stays => (nomatch stays), settles⟩
    exact ⟨record, after, planned, recorded⟩
  · obtain ⟨record, planned⟩ := Except.exists_ok (x := planMovement depotWorld (depotSurroundings 9) sealedStore.catalog
      sealedStore.custody (depotContext "offline") checkedVan 1) (by decide +kernel)
    have stands : sealedStore.custody.container? 2001 = some 1001 ∧ sealedStore.custody.container? 1001 = none := by
      decide +kernel
    have bounded : sealedStore.custody.bounded checkedVan.toMovementInput := by
      rintro - - place (found : sealedStore.custody.container? 2001 = some place)
      obtain rfl := Option.some.inj (stands.1.symm.trans found)
      have site : Forest.Lineage sealedStore.custody.container? (some 1001) [1001] := .step (stands.2 ▸ .root)
      rw [Custody.ancestors, site.lineage_eq]
      decide
    have made : (planMovement depotWorld (depotSurroundings 9) sealedStore.catalog
      sealedStore.custody (depotContext "offline")
        checkedVan 1).map (fun record => (record.event.id, record.discrepancy.isNone)) = .ok (9001, true) :=
          by decide +kernel
    obtain ⟨made, undisputed⟩ : record.event.id = 9001 ∧ record.discrepancy.isNone :=
      by simpa [planned, Except.map] using made
    have settled : vanUpload.settles record := by
      rw [Option.isNone_iff_eq_none] at undisputed
      rw [Uploads.settles, made, undisputed]
      exact ⟨by decide, fun _ none => (nomatch none)⟩
    obtain ⟨after, recorded⟩ := (movement_accepted_iff (reached_run sealedLot) (by decide) planned (by decide +kernel)
      (by decide +kernel)).mpr ⟨fun _ none => (nomatch none), bounded, fun _ => settled⟩
    exact ⟨record, after, planned, recorded⟩

/-- The lot is counted to three after its manifest was sealed. -/
def countedLot : List Operation :=
    sealedLot ++ [depotOperation 8 (.recordLogisticsEvent ⟨2, lotMovement .count none 3, 1⟩)]

def countedStore : Store := (logistics depotWorld depotLibrary).run .empty countedLot

/-- Loading what is left of it on its manifest passes the service, and not the database. -/
theorem loadedLot_refused : Reached depotWorld depotLibrary countedStore ∧ ∃ record,
    planMovement depotWorld (depotSurroundings 9) countedStore.catalog countedStore.custody
        (depotContext "web") (loadedLot 3) 2 = .ok record ∧
      guardEvent depotWorld (depotSurroundings 9) countedStore.catalog countedStore.custody record.event =
        .error (.integrity "Logistics event manifest subject or declared route mismatch") := by
  obtain ⟨record, planned⟩ := Except.exists_ok (x := planMovement depotWorld (depotSurroundings 9) countedStore.catalog
    countedStore.custody (depotContext "web") (loadedLot 3) 2) (by decide +kernel)
  refine ⟨reached_run countedLot, record, planned, ?_⟩
  have refused : (planMovement depotWorld (depotSurroundings 9) countedStore.catalog
    countedStore.custody (depotContext "web")
      (loadedLot 3) 2).bind (fun record => guardEvent depotWorld
        (depotSurroundings 9) countedStore.catalog countedStore.custody record.event) =
      .error (.integrity "Logistics event manifest subject or declared route mismatch") := by decide +kernel
  rw [planned] at refused
  exact refused

end Maru.Logistics

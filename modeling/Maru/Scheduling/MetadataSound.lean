import Maru.Scheduling.MetadataHistory

/-!
# What every run keeps of days and occurrences

Every step keeps `Sound` (`step_sound`), and so does every run (`run_sound`); a retired day or
occurrence is never written again (`run_retains`).
-/

namespace Maru.Scheduling.Metadata

/-! ## Changes of a register -/

namespace Register

section

variable {δ ρ : Type} {limit : Nat} {Fits : Option Uuid → δ → ρ → Prop} {Free : Uuid → Prop} {context : Evidence}
  {before after : Register δ ρ} {kind : Kind} {aggregate : Aggregate δ} {content : ρ}

/-- What a change wrote; what it wrote of an active aggregate was compared with all others. -/
theorem Change.writes (change : before.Change limit Fits Free context after kind aggregate) :
    ∃ content, Writes context before after aggregate content ∧ (aggregate.lifecycle = .active →
      ∃ excluding, Fits excluding aggregate.detail content ∧ ∀ id, id ≠ aggregate.id → excluding ≠ some id) := by
  cases change with
  | create writes _ _ _ fits => exact ⟨_, writes, fun _ => ⟨none, fits, fun _ _ absent => by cases absent⟩⟩
  | @revise prior _ _ writes _ is _ fits =>
    refine ⟨_, writes, fun _ => ⟨some prior.id, ?_, fun id other same => ?_⟩⟩
    · rw [is]
      exact fits
    · rw [is] at other
      exact other (Option.some.inj same).symm
  | retire writes _ is => exact ⟨_, writes, fun active => by rw [is] at active; cases active⟩

/-- A written aggregate keeps its scope and its detail, and none disappears. -/
theorem Writes.exists_kept (writes : Writes context before after aggregate content) {φ : Uuid → Uuid → Uuid → δ → Prop}
    (found : ∃ a ∈ before.aggregates, φ a.id a.organizationId a.editionId a.detail) :
    ∃ a ∈ after.aggregates, φ a.id a.organizationId a.editionId a.detail := by
  rcases writes.written with ⟨inserted, -⟩ | ⟨prior, mem, is, -, saved⟩
  · exact Table.exists_insert? inserted found
  · rw [saved]
    refine Table.exists_save (b := prior) mem (by rw [is]) (fun held => ?_) found
    rw [is]
    exact held

/-- One more aggregate of an edition is counted only if a new one was created. -/
theorem Change.countP (change : before.Change limit Fits Free context after kind aggregate)
    (φ : Uuid → SchedulingLifecycle → Bool) (active : ∀ edition lifecycle,
      φ edition lifecycle = true → φ edition .active = true) :
    let p := fun a : Aggregate δ => φ a.editionId a.lifecycle
    after.aggregates.rows.countP p ≤ before.aggregates.rows.countP p ∨
      before.retained context < limit ∧ (∃ content, Fits none aggregate.detail content) ∧ p aggregate = true ∧
        after.aggregates.rows.countP p = before.aggregates.rows.countP p + 1 := by
  intro p
  have replaced : ∀ (prior : Aggregate δ) (content : ρ), Writes context before after aggregate content →
      prior ∈ before.aggregates → aggregate.id = prior.id → aggregate.editionId = prior.editionId →
      prior.lifecycle = .active → after.aggregates.rows.countP p ≤ before.aggregates.rows.countP p := by
    intro prior content writes mem same edition planned
    rcases writes.written with ⟨inserted, -⟩ | ⟨_, _, _, _, saved⟩
    · exact absurd same.symm ((Table.insert?_eq_some.mp inserted).1 prior mem)
    · have counted := Table.countP_save mem same.symm p
      rw [saved]
      by_cases chosen : p aggregate = true
      · have before : p prior = true := by
          show φ prior.editionId prior.lifecycle = true
          rw [planned, ← edition]
          exact active _ _ chosen
        rw [if_pos chosen, if_pos before] at counted
        omega
      · rw [if_neg chosen] at counted
        omega
  cases change with
  | create writes inserted first retained fits =>
    have counted := Table.countP_insert? inserted p
    by_cases chosen : p aggregate = true
    · rw [if_pos chosen] at counted
      exact .inr ⟨retained, ⟨_, fits⟩, chosen, counted⟩
    · rw [if_neg chosen] at counted
      exact .inl (Nat.le_of_eq counted)
  | @revise prior _ _ writes mem is planned _ =>
    exact .inl (replaced prior _ writes mem (by rw [is]) (by rw [is]) planned)
  | @retire prior _ _ writes mem is planned _ =>
    exact .inl (replaced prior _ writes mem (by rw [is]) (by rw [is]) planned)

/-- What is retired stays, with all its revisions. -/
def Retains (before after : Register δ ρ) : Prop :=
  ∀ a ∈ before.aggregates, a.lifecycle = .retired → a ∈ after.aggregates ∧
    after.revisionsOf a.id = before.revisionsOf a.id

theorem Retains.refl (register : Register δ ρ) : register.Retains register := fun _ ha _ => ⟨ha, rfl⟩

theorem Retains.trans {later : Register δ ρ} (h : before.Retains after)
    (h' : after.Retains later) : before.Retains later :=
  fun a ha retired => by
    obtain ⟨ha', same⟩ := h a ha retired
    obtain ⟨ha'', same'⟩ := h' a ha' retired
    exact ⟨ha'', same'.trans same⟩

end

end Register

/-! ## Days and occurrences -/

section

variable {zones : Zones} {context : Evidence} {rows after : Rows} {kind : Kind}

theorem disjoint_symm (c c' : DayContent) (h : Disjoint c c') : Disjoint c' c := by
  simp only [Disjoint, schedulingWindowsOverlap, decide_eq_false_iff_not] at *
  exact fun overlap => h overlap.symm

theorem otherNumber_symm (c c' : OccurrenceContent) (h : OtherNumber c c') : OtherNumber c' c :=
  fun grouped key number => h (key ▸ grouped) key.symm number.symm

/-- Days of an edition are all of its organization. -/
theorem Rows.Sound.dayScope (sound : rows.Sound) {e : EventEdition} (mem : e ∈ rows.editions) {d : SchedulingServiceDay}
    (hd : d ∈ rows.days.aggregates) (of : d.editionId = e.id) : d.organizationId = e.organizationId := by
  obtain ⟨e', mem', is, organization⟩ := sound.daysIn d hd
  obtain rfl := Table.eq_of_key mem' mem (is.trans of)
  exact organization.symm

theorem Rows.Sound.day (sound : rows.Sound) {day : SchedulingServiceDay}
    (change : DayChange zones context rows after kind day)
    (edition : ∃ e ∈ rows.editions, e.id = context.request.editionId ∧
      e.organizationId = context.request.organizationId) :
    after.Sound := by
  obtain ⟨changed, rest⟩ := change
  obtain ⟨content, writes, compared⟩ := changed.writes
  obtain ⟨e, he, is, organization⟩ := edition
  have scope := writes.scope
  have within : ∀ d ∈ rows.days.aggregates, d.editionId = context.request.editionId →
      d.organizationId = context.request.organizationId :=
    fun d hd of => (sound.dayScope he hd (of.trans is.symm)).trans organization
  rw [rest]
  exact {
    days := writes.sound sound.days
    occurrences := sound.occurrences
    daysIn := fun d hd => by
      rcases writes.mem_iff.mp hd with ⟨hd, -⟩ | rfl
      · exact sound.daysIn d hd
      · exact ⟨e, he, is.trans scope.2.symm, organization.trans scope.1.symm⟩
    occurrencesIn := sound.occurrencesIn
    items := sound.items
    bindings := sound.bindings
    windows := by
      refine writes.apart disjoint_symm sound.windows fun active a ha activeA edition other r found => ?_
      obtain ⟨excluding, fits, others⟩ := compared active
      have of : a.editionId = context.request.editionId := edition.trans scope.2
      exact fits.apart r (sound.days.mem_current ha activeA ⟨within a ha of, of⟩ (others a.id other) found)
    active := fun editionId => by
      show (after.days.aggregates.rows.filter _).length ≤ 32
      rw [← List.countP_eq_length_filter]
      have prior : (rows.days.aggregates.rows.filter _).length ≤ 32 := sound.active editionId
      rw [← List.countP_eq_length_filter] at prior
      have active : ∀ (edition : Uuid) (lifecycle : SchedulingLifecycle),
          decide (edition = editionId ∧ lifecycle = .active) = true →
            decide (edition = editionId ∧ SchedulingLifecycle.active = .active) = true := fun _ _ h =>
        decide_eq_true ⟨(of_decide_eq_true h).1, rfl⟩
      rcases changed.countP (fun edition lifecycle => edition = editionId ∧ lifecycle = .active) active with
        fewer | ⟨-, ⟨_, fits⟩, chosen, counted⟩
      · exact fewer.trans prior
      · -- A new active day was compared with fewer than 32.
        have small : (rows.days.aggregates.rows.filter fun d => d.organizationId = context.request.organizationId ∧
            d.editionId = context.request.editionId ∧ d.lifecycle = .active ∧ none ≠ some d.id).length < 32 :=
          Nat.lt_of_le_of_lt sound.days.length_current fits.count
        rw [← List.countP_eq_length_filter] at small
        have same : rows.days.aggregates.rows.countP (fun d => d.editionId = editionId ∧ d.lifecycle = .active) =
            rows.days.aggregates.rows.countP (fun d => d.organizationId = context.request.organizationId ∧
              d.editionId = context.request.editionId ∧ d.lifecycle = .active ∧ none ≠ some d.id) := by
          refine List.countP_congr fun d hd => ?_
          have here : editionId = context.request.editionId := (of_decide_eq_true chosen).1.symm.trans scope.2
          simp only [decide_eq_true_eq, here, ne_eq, reduceCtorEq, not_false_eq_true, and_true]
          exact ⟨fun h => ⟨within d hd h.1, h⟩, And.right⟩
        rw [counted, same]
        omega
    retained := fun editionId => by
      have prior := sound.retained editionId
      rcases changed.countP (fun edition _ => edition = editionId)
        (fun _ _ h => h) with fewer | ⟨few, -, chosen, counted⟩
      · exact fewer.trans prior
      · have same :
          rows.days.aggregates.rows.countP (fun d => d.editionId = editionId) = rows.days.retained context := by
          refine List.countP_congr fun d hd => ?_
          have here : editionId = context.request.editionId := (of_decide_eq_true chosen).symm.trans scope.2
          simp only [decide_eq_true_eq, here]
          exact ⟨fun h => ⟨within d hd h, h⟩, And.right⟩
        show after.days.aggregates.rows.countP _ ≤ 128
        rw [counted, same]
        omega
    groups := sound.groups }

theorem Rows.Sound.occurrence (sound : rows.Sound) {occurrence : SchedulingOccurrence}
    (change : OccurrenceChange context rows after kind occurrence)
    (edition : ∃ e ∈ rows.editions, e.id = context.request.editionId ∧
      e.organizationId = context.request.organizationId) :
    after.Sound := by
  obtain ⟨changed, rest⟩ := change
  obtain ⟨content, writes, compared⟩ := changed.writes
  obtain ⟨e, he, is, organization⟩ := edition
  have scope := writes.scope
  have within : ∀ o ∈ rows.occurrences.aggregates, o.editionId = context.request.editionId →
      o.organizationId = context.request.organizationId := fun o ho of => by
    obtain ⟨e', mem', is', organization'⟩ := sound.occurrencesIn o ho
    obtain rfl := Table.eq_of_key mem' he (is'.trans (of.trans is.symm))
    exact organization'.symm.trans organization
  rw [rest]
  exact {
    days := sound.days
    occurrences := writes.sound sound.occurrences
    daysIn := sound.daysIn
    occurrencesIn := fun o ho => by
      rcases writes.mem_iff.mp ho with ⟨ho, -⟩ | rfl
      · exact sound.occurrencesIn o ho
      · exact ⟨e, he, is.trans scope.2.symm, organization.trans scope.1.symm⟩
    items := fun o ho => by
      rcases writes.mem_iff.mp ho with ⟨ho, -⟩ | rfl
      · exact sound.items o ho
      · rcases writes.written with ⟨-, -, active⟩ | ⟨prior, mem, becomes, -⟩
        · obtain ⟨excluding, fits, -⟩ := compared active
          obtain ⟨item, mem, its, organization, edition, -⟩ := fits.item
          exact ⟨item, mem, its, organization.trans scope.1.symm, edition.trans scope.2.symm⟩
        · rw [becomes]
          exact sound.items prior mem
    bindings := fun b hb => writes.exists_kept
      (φ := fun id organization edition _ => id = b.occurrenceId ∧ organization = b.organizationId ∧
        edition = b.editionId)
      (sound.bindings b hb)
    windows := sound.windows
    active := sound.active
    retained := sound.retained
    groups := by
      refine writes.apart otherNumber_symm sound.groups fun active a ha activeA edition other r found => ?_
      obtain ⟨excluding, fits, others⟩ := compared active
      have of : a.editionId = context.request.editionId := edition.trans scope.2
      exact fits.apart r (sound.occurrences.mem_current ha activeA ⟨within a ha of, of⟩ (others a.id other) found) }

end

/-! ## Steps and runs -/

section

variable {lib : Primitives} {postgres : Postgres lib} {zones : Zones} {store after : Store Rows} {db db' : Database}

/-- The next control of an edition is in its scope, and counts the receipt. -/
theorem Sound.advance {organization edition : Uuid} {receipt : SchedulingCommandReceipt} (sound : Sound store)
    (there : ∃ e ∈ store.rows.editions, e.id = edition ∧ e.organizationId = organization)
    (controls : store.advanceControl organization edition = .ok after.controls)
    (created : store.receipts.create receipt = .ok after.receipts)
    (of : receipt.editionId = edition ∧ receipt.controlVersion = store.controlVersion organization edition + 1) :
    (∀ c ∈ after.controls, ∃ e ∈ store.rows.editions, e.id = c.editionId ∧ e.organizationId = c.organizationId) ∧
      ∀ r ∈ after.receipts.rows, ∃ c ∈ after.controls, c.editionId = r.editionId ∧
        r.controlVersion ≤ c.aggregateVersion := by
  have rows := Receipts.create_eq_ok created
  unfold Store.advanceControl at controls
  split at controls
  · rename_i absent
    have inserted := getOr_eq_ok.mp controls
    have version : store.controlVersion organization edition = 0 := by rw [Store.controlVersion, absent]; rfl
    refine ⟨fun c hc => ?_, fun r hr => ?_⟩
    · rcases (Table.mem_insert? inserted).mp hc with hc | rfl
      · exact sound.controls c hc
      · exact there
    · rw [rows, List.mem_append, List.mem_singleton] at hr
      rcases hr with hr | rfl
      · exact Table.exists_insert? inserted (sound.receipts r hr)
      · refine ⟨_, (Table.mem_insert? inserted).mpr (.inr rfl), of.1.symm, ?_⟩
        rw [of.2, version]
  · rename_i control found
    obtain ⟨mem, is, -⟩ := Store.control?_eq_some.mp found
    have version : store.controlVersion organization edition = control.aggregateVersion :=
      by rw [Store.controlVersion, found]; rfl
    have saved := fun c => Table.mem_save_of_mem (a := c)
      (r := { control with aggregateVersion := control.aggregateVersion + 1 }) mem rfl
    rw [← Except.ok.inj controls]
    refine ⟨fun c hc => ?_, fun r hr => ?_⟩
    · rcases (saved c).mp hc with ⟨hc, -⟩ | rfl
      · exact sound.controls c hc
      · exact sound.controls control mem
    · rw [rows, List.mem_append, List.mem_singleton] at hr
      rcases hr with hr | rfl
      · refine Table.exists_save (r := { control with aggregateVersion := control.aggregateVersion + 1 }) mem rfl
          (fun held => ⟨held.1, Nat.le_succ_of_le held.2⟩) (sound.receipts r hr)
      · refine ⟨_, (saved _).mpr (.inr rfl), is.trans of.1.symm, ?_⟩
        rw [of.2, version]

theorem Sound.written {call : Call} {receipt : SchedulingCommandReceipt} {kept : SchedulingCommandRequest}
    (sound : Sound store) (w : Written lib zones call store after receipt kept) : Sound after := by
  obtain ⟨e, mem, is, organization, -⟩ := w.edition
  have scope : ∃ e ∈ store.rows.editions, e.id = kept.editionId ∧ e.organizationId = kept.organizationId :=
    ⟨e, mem, is, organization⟩
  obtain ⟨controls, receipts⟩ := sound.advance scope w.controls w.receipts ⟨w.scope.2.1, w.controlVersion⟩
  have rows : after.rows.Sound ∧ after.rows.editions = store.rows.editions := by
    cases hday : call.command.isDay with
    | true =>
      have change := w.change
      rw [hday] at change
      cases change with
      | day change => exact ⟨sound.rows.day change scope, by rw [change.2]⟩
    | false =>
      have change := w.change
      rw [hday] at change
      cases change with
      | occurrence change => exact ⟨sound.rows.occurrence change scope, by rw [change.2]⟩
  exact ⟨rows.1, rows.2 ▸ controls, receipts⟩

theorem commit_ok {call : Call} {answer : Answer} (h : call.commit postgres zones db = .ok (db', answer)) :
    (answer.replayed = true ∧ db' = db) ∨ (answer.replayed = false ∧ ∃ kept,
      Written lib zones call db.store db'.store answer.receipt kept) := by
  obtain ⟨⟨after, answered⟩, answers, h⟩ := bind_eq_ok.mp h
  rcases Call.answer_ok answers with ⟨replayed, -⟩ | ⟨fresh, written⟩
  · simp only [replayed, if_true, pure_eq_ok, Prod.mk.injEq] at h
    obtain ⟨rfl, rfl⟩ := h
    exact .inl ⟨replayed, rfl⟩
  · simp only [fresh, Bool.false_eq_true, if_false, bind_eq_ok, pure_eq_ok, Prod.mk.injEq] at h
    obtain ⟨_, -, _, -, rfl, rfl⟩ := h
    exact .inr ⟨fresh, written⟩

theorem step_sound {event : Event} {answer : Option Answer} (sound : Sound db.store)
    (h : (metadataMachine postgres zones).exec db event = .ok (db', answer)) : Sound db'.store := by
  cases event with
  | command call =>
    obtain ⟨⟨next, answered⟩, committed, h⟩ := bind_eq_ok.mp h
    obtain ⟨rfl, -⟩ := Prod.mk.inj (Except.ok.inj h)
    rcases commit_ok committed with ⟨-, rfl⟩ | ⟨-, kept, w⟩
    · exact sound
    · exact sound.written w
  | other sur request command receipt =>
    obtain ⟨⟨next, answered⟩, executed, h⟩ := bind_eq_ok.mp h
    obtain ⟨rfl, -⟩ := Prod.mk.inj (Except.ok.inj h)
    rcases execute_wrote executed with ⟨-, rfl⟩ | ⟨-, kept, value, rows, sources, w⟩
    · exact sound
    · obtain ⟨-, reason, -, rfl⟩ := request_normalized w.normalized
      obtain ⟨_, authorized, -⟩ := w.admitted
      simp only [Rows.world, Rows.edition?, Option.bind_eq_bind, Option.bind_eq_some_iff,
        Option.filter_eq_some_iff, Table.get?_eq_some, decide_eq_true_eq] at authorized
      obtain ⟨e, ⟨⟨mem, is⟩, organization, -⟩, -⟩ := authorized
      obtain ⟨-, -, editionId, -, -, -, version⟩ := w.receipt
      obtain ⟨controls, receipts⟩ := sound.advance ⟨e, mem, is, organization⟩ w.controls w.receipts ⟨editionId, version⟩
      exact ⟨sound.rows, controls, receipts⟩
  | edition row =>
    obtain ⟨rfl, -⟩ := Prod.mk.inj (Except.ok.inj h)
    refine ⟨sound.rows.saveEdition row, fun c hc => ?_, sound.receipts⟩
    exact Rows.saveEdition_scope row (sound.controls c hc)
  | people people =>
    obtain ⟨rfl, -⟩ := Prod.mk.inj (Except.ok.inj h)
    exact ⟨sound.rows.beside rfl rfl (fun _ _ found => found) (fun _ _ _ found => found) sound.rows.bindings,
      sound.controls, sound.receipts⟩
  | item row =>
    obtain ⟨rfl, -⟩ := Prod.mk.inj (Except.ok.inj h)
    refine ⟨sound.rows.saveItem row, fun c hc => ?_, sound.receipts⟩
    show ∃ e ∈ (db.store.rows.saveItem row).editions, _
    rw [Rows.saveItem_editions]
    exact sound.controls c hc
  | booking bookingId occurrenceId active =>
    obtain ⟨rfl, -⟩ := Prod.mk.inj (Except.ok.inj h)
    refine ⟨sound.rows.saveBooking bookingId occurrenceId active, fun c hc => ?_, sound.receipts⟩
    show ∃ e ∈ (db.store.rows.saveBooking bookingId occurrenceId active).editions, _
    rw [Rows.saveBooking_editions]
    exact sound.controls c hc

theorem run_sound (editions : Table EventEdition.id) (people : Uuid → Bool) (items : Table ProgrammeItem.id)
    (events : List Event) :
    Sound ((metadataMachine postgres zones).run (Database.start editions people items) events).store :=
  Machine.run_invariant (I := fun db : Database => Sound db.store)
    (fun _ _ _ _ sound h => step_sound sound h) (sound_start editions people items) events

end

end Maru.Scheduling.Metadata

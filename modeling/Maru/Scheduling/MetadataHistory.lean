import Maru.Scheduling.CommandHistory
import Maru.Scheduling.MetadataGuards
import Maru.Scheduling.MetadataRegister

/-!
# The history of days and occurrences

What a command writes (`Call.answer_ok`) and what every run keeps (`Sound`, `run_sound`), whatever
happens to the editions, people, programme items and reservations in between.
-/

namespace Maru.Scheduling.Metadata

/-! ## Steps -/

/-- What happens to a database. -/
inductive Event
  | command (call : Call)
  /-- Another Scheduling command, which writes no day or occurrence. -/
  | other (surroundings : Surroundings) (request : SchedulingCommandRequest)
      (command : Command Rows) (receipt : SchedulingCommandReceipt → AttributedReceipt)
  | edition (row : EventEdition)
  | people (people : Uuid → Bool)
  | item (row : ProgrammeItem)
  | booking (bookingId occurrenceId : Uuid) (active : Bool)

/-- An edition keeps its owner; its dates, zone, version and lifecycle change. -/
def Rows.saveEdition (rows : Rows) (row : EventEdition) : Rows :=
  match rows.editions.get? row.id with
  | some old =>
    let row := { row with organizationId := old.organizationId, seriesOrganizationId := old.seriesOrganizationId }
    { rows with editions := rows.editions.save row }
  | none => { rows with editions := (rows.editions.insert? row).getD rows.editions }

def Rows.saveItem (rows : Rows) (row : ProgrammeItem) : Rows :=
  match rows.items.get? row.id with
  | some old =>
    let row := { row with organizationId := old.organizationId, editionId := old.editionId }
    { rows with items := rows.items.save row }
  | none => { rows with items := (rows.items.insert? row).getD rows.items }

/-- A booking is bound to an occurrence in its scope; it is active or not. -/
def Rows.saveBooking (rows : Rows) (bookingId occurrenceId : Uuid) (active : Bool) : Rows :=
  match rows.occurrences.aggregates.get? occurrenceId, rows.bindings.get? bookingId with
  | some _, some old => { rows with bindings := rows.bindings.save { old with bookingActive := active } }
  | some occurrence, none => { rows with bindings := (rows.bindings.insert?
      ⟨occurrence.organizationId, occurrence.editionId, occurrence.id, bookingId, active⟩).getD rows.bindings }
  | none, _ => rows

def Database.withRows (db : Database) (rows : Rows) : Database := { db with store := { db.store with rows } }

def metadataMachine {lib : Primitives} (postgres : Postgres lib) (zones : Zones) :
    Machine Database Event (Option Answer) SchedulingCommandError where
  exec db
    | .command call => do
      let (db, answer) ← call.commit postgres zones db
      return (db, some answer)
    | .other sur request command receipt => do
      let (store, answer) ← execute lib (db.store.rows.world sur request) command request sur.receiptId db.store
      let receipts := if answer.replayed then db.receipts else db.receipts ++ [receipt answer.receipt]
      return (⟨{ store with rows := db.store.rows }, receipts⟩, some answer)
    | .edition row => return (db.withRows (db.store.rows.saveEdition row), none)
    | .people people => return (db.withRows { db.store.rows with people }, none)
    | .item row => return (db.withRows (db.store.rows.saveItem row), none)
    | .booking bookingId occurrenceId active =>
      return (db.withRows (db.store.rows.saveBooking bookingId occurrenceId active), none)

/-- Editions, people and items, and no command yet. -/
def Database.start (editions : Table EventEdition.id) (people : Uuid → Bool)
    (items : Table ProgrammeItem.id) : Database where
  store := Store.empty
    { editions, people, items, bindings := ∅, days := Register.empty, occurrences := Register.empty }
  receipts := []

/-! ## What holds of every state -/

def Disjoint (c c' : DayContent) : Prop := schedulingWindowsOverlap c.window c'.window = false

/-- Two of a group have different numbers in it. -/
def OtherNumber (c c' : OccurrenceContent) : Prop :=
  c.groupKey ≠ none → c.groupKey = c'.groupKey → c.groupSequence ≠ c'.groupSequence

structure Rows.Sound (rows : Rows) : Prop where
  days : rows.days.Sound
  occurrences : rows.occurrences.Sound
  daysIn : ∀ d ∈ rows.days.aggregates, ∃ e ∈ rows.editions, e.id = d.editionId ∧ e.organizationId = d.organizationId
  occurrencesIn : ∀ o ∈ rows.occurrences.aggregates,
    ∃ e ∈ rows.editions, e.id = o.editionId ∧ e.organizationId = o.organizationId
  items : ∀ o ∈ rows.occurrences.aggregates,
    ∃ i ∈ rows.items, i.id = o.detail ∧ i.organizationId = o.organizationId ∧ i.editionId = o.editionId
  bindings : ∀ b ∈ rows.bindings, ∃ o ∈ rows.occurrences.aggregates,
    o.id = b.occurrenceId ∧ o.organizationId = b.organizationId ∧ o.editionId = b.editionId
  windows : rows.days.Apart Disjoint
  active : ∀ edition, (rows.activeDays edition).length ≤ 32
  retained : ∀ edition, (rows.days.aggregates.rows.countP fun d => d.editionId = edition) ≤ 128
  groups : rows.occurrences.Apart OtherNumber

/-- The control of an edition is in its scope, and its receipts have versions up to the control's.
-/
structure Sound (store : Store Rows) : Prop where
  rows : store.rows.Sound
  controls : ∀ c ∈ store.controls, ∃ e ∈ store.rows.editions, e.id = c.editionId ∧ e.organizationId = c.organizationId
  receipts : ∀ r ∈ store.receipts.rows, ∃ c ∈ store.controls, c.editionId = r.editionId ∧
    r.controlVersion ≤ c.aggregateVersion

theorem Register.sound_empty {δ ρ : Type} : (Register.empty : Register δ ρ).Sound where
  numbered := fun _ => EventLog.Sound.nil
  last := fun _ ha => absurd ha Table.not_mem_empty
  owned := fun _ hr => absurd hr Table.not_mem_empty
  bounded := fun _ ha => absurd ha Table.not_mem_empty

theorem sound_start (editions : Table EventEdition.id) (people : Uuid → Bool)
    (items : Table ProgrammeItem.id) : Sound (Database.start editions people items).store where
  rows := {
    days := Register.sound_empty
    occurrences := Register.sound_empty
    daysIn := fun _ hd => absurd hd Table.not_mem_empty
    occurrencesIn := fun _ ho => absurd ho Table.not_mem_empty
    items := fun _ ho => absurd ho Table.not_mem_empty
    bindings := fun _ hb => absurd hb Table.not_mem_empty
    windows := fun _ ha => absurd ha Table.not_mem_empty
    active := fun _ => Nat.zero_le _
    retained := fun _ => Nat.zero_le _
    groups := fun _ ha => absurd ha Table.not_mem_empty }
  controls := fun _ hc => absurd hc Table.not_mem_empty
  receipts := fun _ hr => by cases hr

/-! ## What the others change -/

section

variable {rows : Rows}

/-- Days and occurrences are sound beside editions, items and bookings that keep their scope. -/
theorem Rows.Sound.beside {rows' : Rows} (sound : rows.Sound) (days : rows'.days = rows.days)
    (occurrences : rows'.occurrences = rows.occurrences)
    (editions : ∀ edition organization, (∃ e ∈ rows.editions, e.id = edition ∧ e.organizationId = organization) →
      ∃ e ∈ rows'.editions, e.id = edition ∧ e.organizationId = organization)
    (items : ∀ item organization edition,
      (∃ i ∈ rows.items, i.id = item ∧ i.organizationId = organization ∧ i.editionId = edition) →
        ∃ i ∈ rows'.items, i.id = item ∧ i.organizationId = organization ∧ i.editionId = edition)
    (bindings : ∀ b ∈ rows'.bindings, ∃ o ∈ rows.occurrences.aggregates,
      o.id = b.occurrenceId ∧ o.organizationId = b.organizationId ∧ o.editionId = b.editionId) : rows'.Sound where
  days := days ▸ sound.days
  occurrences := occurrences ▸ sound.occurrences
  daysIn := days ▸ fun d hd => editions _ _ (sound.daysIn d hd)
  occurrencesIn := occurrences ▸ fun o ho => editions _ _ (sound.occurrencesIn o ho)
  items := occurrences ▸ fun o ho => items _ _ _ (sound.items o ho)
  bindings := occurrences ▸ bindings
  windows := days ▸ sound.windows
  active := fun edition => by
    rw [Rows.activeDays, days]
    exact sound.active edition
  retained := days ▸ sound.retained
  groups := occurrences ▸ sound.groups

/-- Every edition keeps its organization. -/
theorem Rows.saveEdition_scope (row : EventEdition) {edition organization : Uuid}
    (found : ∃ e ∈ rows.editions, e.id = edition ∧ e.organizationId = organization) :
    ∃ e ∈ (rows.saveEdition row).editions, e.id = edition ∧ e.organizationId = organization := by
  unfold Rows.saveEdition
  split
  · rename_i old is
    obtain ⟨mem, same⟩ := Table.get?_eq_some.mp is
    refine Table.exists_save (r := { row with
      organizationId := old.organizationId, seriesOrganizationId := old.seriesOrganizationId })
        mem same (fun h => ?_) found
    exact ⟨same.symm.trans h.1, h.2⟩
  · cases inserted : rows.editions.insert? row with
    | none => exact found
    | some editions => exact Table.exists_insert? inserted found

theorem Rows.saveEdition_registers (row : EventEdition) :
    (rows.saveEdition row).days = rows.days ∧ (rows.saveEdition row).occurrences = rows.occurrences := by
  unfold Rows.saveEdition
  split <;> exact ⟨rfl, rfl⟩

theorem Rows.Sound.saveEdition (sound : rows.Sound) (row : EventEdition) : (rows.saveEdition row).Sound := by
  obtain ⟨days, occurrences⟩ : (rows.saveEdition row).days = rows.days ∧
      (rows.saveEdition row).occurrences = rows.occurrences := Rows.saveEdition_registers row
  refine sound.beside days occurrences (fun _ _ found => Rows.saveEdition_scope row found) ?_ ?_
  all_goals unfold Rows.saveEdition; split
  all_goals first | exact fun _ _ _ found => found | exact sound.bindings

theorem Rows.saveItem_editions (row : ProgrammeItem) : (rows.saveItem row).editions = rows.editions := by
  unfold Rows.saveItem
  split <;> rfl

theorem Rows.saveBooking_editions (bookingId occurrenceId : Uuid) (active : Bool) :
    (rows.saveBooking bookingId occurrenceId active).editions = rows.editions := by
  unfold Rows.saveBooking
  split <;> rfl

theorem Rows.Sound.saveItem (sound : rows.Sound) (row : ProgrammeItem) : (rows.saveItem row).Sound := by
  unfold Rows.saveItem
  split
  · rename_i old is
    obtain ⟨mem, same⟩ := Table.get?_eq_some.mp is
    refine sound.beside rfl rfl (fun _ _ found => found) (fun _ _ _ found => ?_) sound.bindings
    refine Table.exists_save (r :=
      { row with organizationId := old.organizationId, editionId := old.editionId }) mem same
      (fun h => ?_) found
    exact ⟨same.symm.trans h.1, h.2⟩
  · refine sound.beside rfl rfl (fun _ _ found => found) (fun _ _ _ found => ?_) sound.bindings
    cases inserted : rows.items.insert? row with
    | none => exact found
    | some items => exact Table.exists_insert? inserted found

theorem Rows.Sound.saveBooking (sound : rows.Sound) (bookingId occurrenceId : Uuid)
    (active : Bool) : (rows.saveBooking bookingId occurrenceId active).Sound := by
  unfold Rows.saveBooking
  split
  · rename_i old found is
    obtain ⟨mem, same⟩ := Table.get?_eq_some.mp is
    refine sound.beside rfl rfl (fun _ _ found => found) (fun _ _ _ found => found) fun b hb => ?_
    rcases Table.mem_save.mp hb with ⟨hb, -⟩ | ⟨rfl, -⟩
    · exact sound.bindings b hb
    · exact sound.bindings old mem
  · rename_i occurrence found absent
    obtain ⟨mem, same⟩ := Table.get?_eq_some.mp found
    refine sound.beside rfl rfl (fun _ _ found => found) (fun _ _ _ found => found) fun b hb => ?_
    cases inserted : rows.bindings.insert?
        ⟨occurrence.organizationId, occurrence.editionId, occurrence.id, bookingId, active⟩ with
    | none =>
      rw [inserted] at hb
      exact sound.bindings b hb
    | some bindings =>
      rw [inserted] at hb
      rcases (Table.mem_insert? inserted).mp hb with hb | rfl
      · exact sound.bindings b hb
      · exact ⟨occurrence, mem, rfl, rfl, rfl⟩
  · exact sound

end

/-! ## What a command writes -/

/-- What a command checks of a day's revision before it writes it. -/
structure DayFits (zones : Zones) (rows : Rows) (context : Evidence) (excluding : Option Uuid)
    (content : DayContent) : Prop where
  envelope : ∃ envelope, resolveEditionTimeEnvelopeReference zones rows context.request.organizationId
      context.request.editionId = some envelope ∧ content.editionVersion = envelope.version ∧
    envelope.startsAt ≤ content.window.startsAt ∧ content.window.endsAt ≤ envelope.endsAt
  aligned : content.window.startsAt % microsPerMinute = 0 ∧ content.window.endsAt % microsPerMinute = 0
  count : (rows.days.current context excluding).length < 32
  apart : ∀ row ∈ rows.days.current context excluding, Disjoint content row.content

/-- What a command checks of an occurrence's revision before it writes it. -/
structure OccurrenceFits (rows : Rows) (context : Evidence) (excluding : Option Uuid)
    (itemId : Uuid) (content : OccurrenceContent) : Prop where
  item : ∃ i ∈ rows.items, i.id = itemId ∧ i.organizationId = context.request.organizationId ∧
    i.editionId = context.request.editionId ∧ i.active = true
  apart : ∀ row ∈ rows.occurrences.current context excluding, OtherNumber content row.content

inductive Kind
  | create | revise | retire

def Kind.day : Kind → SchedulingOperation
  | .create => .dayCreate
  | .revise => .dayRevise
  | .retire => .dayRetire

def Kind.occurrence : Kind → SchedulingOperation
  | .create => .occurrenceCreate
  | .revise => .occurrenceRevise
  | .retire => .occurrenceRetire

namespace Register

variable {δ ρ : Type}

/-- One command's write of a register, with what it checked. -/
inductive Change (limit : Nat) (Fits : Option Uuid → δ → ρ → Prop) (Free : Uuid → Prop)
    (context : Evidence) (before after : Register δ ρ) : Kind → Aggregate δ → Prop
  | create {aggregate : Aggregate δ} {content : ρ} (writes : Writes context before after aggregate content)
      (inserted : before.aggregates.insert? aggregate = some after.aggregates)
      (first : aggregate.aggregateVersion = 1 ∧ aggregate.lifecycle = .active)
      (retained : before.retained context < limit) (fits : Fits none aggregate.detail content) :
      Change limit Fits Free context before after .create aggregate
  | revise {prior aggregate : Aggregate δ} {content : ρ}
      (writes : Writes context before after aggregate content) (mem : prior ∈ before.aggregates)
      (is : aggregate = { prior with aggregateVersion := prior.aggregateVersion + 1 })
        (active : prior.lifecycle = .active)
      (fits : Fits (some prior.id) prior.detail content) : Change limit Fits Free context before after .revise aggregate
  | retire {prior aggregate : Aggregate δ} {content : ρ}
      (writes : Writes context before after aggregate content) (mem : prior ∈ before.aggregates)
      (is : aggregate = { prior with aggregateVersion := prior.aggregateVersion + 1, lifecycle := .retired })
      (active : prior.lifecycle = .active) (free : Free prior.id) :
      Change limit Fits Free context before after .retire aggregate

end Register

/-- No active booking is bound to the occurrence in the scope. -/
def Rows.Unreserved (rows : Rows) (context : Evidence) (occurrenceId : Uuid) : Prop :=
  ∀ binding ∈ rows.bindings, ¬ (binding.organizationId = context.request.organizationId ∧
    binding.editionId = context.request.editionId ∧ binding.occurrenceId = occurrenceId ∧ binding.bookingActive = true)

def DayChange (zones : Zones) (context : Evidence) (rows after : Rows) (kind : Kind)
    (day : SchedulingServiceDay) : Prop :=
  rows.days.Change 128 (fun excluding _ => DayFits zones rows context excluding)
    (fun _ => True) context after.days kind day ∧ after = { rows with days := after.days }

def OccurrenceChange (context : Evidence) (rows after : Rows) (kind : Kind) (occurrence : SchedulingOccurrence) : Prop :=
  rows.occurrences.Change 2000 (OccurrenceFits rows context) (rows.Unreserved context) context
    after.occurrences kind occurrence ∧ after = { rows with occurrences := after.occurrences }

/-- The rows that the receipt of a command stands for. -/
inductive RowsChange (zones : Zones) (context : Evidence) (rows after : Rows)
    (receipt : SchedulingCommandReceipt) : (isDay : Bool) → Prop
  | day {kind : Kind} {day : SchedulingServiceDay} (change : DayChange zones context rows after kind day)
      (result : receipt.operation = kind.day ∧ receipt.resultObjectId = day.id ∧
        receipt.resultingVersion = day.aggregateVersion) : RowsChange zones context rows after receipt true
  | occurrence {kind : Kind} {occurrence : SchedulingOccurrence}
      (change : OccurrenceChange context rows after kind occurrence)
      (result : receipt.operation = kind.occurrence ∧ receipt.resultObjectId = occurrence.id ∧
        receipt.resultingVersion = occurrence.aggregateVersion) : RowsChange zones context rows after receipt false

section

variable {lib : Primitives} {zones : Zones} {sur : Surroundings}
  {request kept : SchedulingCommandRequest} {world : World}
  {store after : Store Rows} {receipt : SchedulingCommandReceipt} {context : Evidence} {rows : Rows}

theorem window_normalized {window window' : SchedulingWindow}
    (h : checked (normalizeSchedulingWindow window) = .ok window') :
    window'.startsAt % microsPerMinute = 0 ∧ window'.endsAt % microsPerMinute = 0 := by
  have h : normalizeSchedulingWindow window = .ok window' := by
    cases normalized : normalizeSchedulingWindow window with
    | error e => rw [normalized] at h; cases h
    | ok w => rw [normalized] at h; exact congrArg _ (Except.ok.inj h)
  simp only [normalizeSchedulingWindow, normalizeSchedulingInstant, bind_eq_ok, require_eq_ok, pure_eq_ok] at h
  obtain ⟨_, ⟨_, start, rfl⟩, _, ⟨_, stop, rfl⟩, _, -, rfl⟩ := h
  exact ⟨start, stop⟩

theorem day_normalized {day intent : SchedulingServiceDayInput} (h : day.normalized lib = .ok intent) :
    intent.window.startsAt % microsPerMinute = 0 ∧ intent.window.endsAt % microsPerMinute = 0 := by
  simp only [SchedulingServiceDayInput.normalized, bind_eq_ok, pure_eq_ok] at h
  obtain ⟨_, -, _, window, _, -, rfl⟩ := h
  exact window_normalized window

theorem validateCurrentDay_ok {intent : SchedulingServiceDayInput} {envelope : EditionTimeEnvelopeReference}
    {excluding : Option Uuid} {found : Unit} (h : validateCurrentDay rows context intent envelope excluding = .ok found)
    (resolved : resolveEditionTimeEnvelopeReference zones rows context.request.organizationId context.request.editionId =
      some envelope)
    (aligned : intent.window.startsAt % microsPerMinute = 0 ∧ intent.window.endsAt % microsPerMinute = 0) :
    DayFits zones rows context excluding (intent.content envelope.version) := by
  simp only [validateCurrentDay, bind_eq_ok, require_eq_ok, List.length_take] at h
  obtain ⟨_, bounds, _, count, apart⟩ := h
  have few : (rows.days.current context excluding).length < 32 := by
    simp only [maxServiceDays] at count
    omega
  rw [List.take_of_length_le (by simp only [maxServiceDays]; omega)] at apart
  exact ⟨⟨envelope, resolved, rfl, bounds⟩, aligned, few, apart⟩

/-- The transaction of a command. -/
def contextOf (sur : Surroundings) (kept : SchedulingCommandRequest) (store : Store Rows) : Evidence where
  request := kept
  priorControlVersion := store.controlVersion kept.organizationId kept.editionId
  receiptId := sur.receiptId
  occurredAt := sur.occurredAt

theorem createDay_wrote {day value : SchedulingServiceDayInput} {version : Int}
    {sources : EditionTimeEnvelopeReference}
    (h : Wrote lib world (createSchedulingServiceDay lib zones sur request day version) request sur.receiptId store after
      receipt kept value rows sources)
    (same : kept.organizationId = request.organizationId ∧ kept.editionId = request.editionId) :
    RowsChange zones (contextOf sur kept store) store.rows after.rows receipt true := by
  have intent : (requireVersion version true >>= fun _ => day.normalized lib) = .ok value := h.intent
  have prepared : prepareDay zones request store = .ok (rows, sources) := h.prepared
  have written := h.written
  have operation := h.receipt.2.2.2.2.1
  simp only [createSchedulingServiceDay, prepareDay, bind_eq_ok, getOr_eq_ok, require_eq_ok,
    pure_eq_ok, Prod.mk.injEq] at intent prepared written
  obtain ⟨_, -, normalized⟩ := intent
  obtain ⟨envelope, resolved, rfl, rfl⟩ := prepared
  obtain ⟨_, -, _, valid, _, retained, days, created, rows, objectId, resulting⟩ := written
  obtain ⟨inserted, writes⟩ := Register.create_ok created
  rw [← same.1, ← same.2] at resolved
  have fits : DayFits zones store.rows (contextOf sur kept store) none (value.content envelope.version) :=
    validateCurrentDay_ok valid resolved (day_normalized normalized)
  have change : DayChange zones (contextOf sur kept store) store.rows after.rows .create
      ⟨sur.objectId, kept.organizationId, kept.editionId, 1, .active, ()⟩ := by
    refine ⟨?_, by rw [← rows]⟩
    rw [← rows]
    exact .create writes inserted ⟨rfl, rfl⟩ retained fits
  exact .day change ⟨operation, objectId.symm, resulting.symm⟩

theorem reviseDay_wrote {dayId : Uuid} {day value : SchedulingServiceDayInput} {version : Int}
    {sources : EditionTimeEnvelopeReference}
    (h : Wrote lib world (reviseSchedulingServiceDay lib zones sur request dayId day version) request sur.receiptId store
      after receipt kept value rows sources)
    (same : kept.organizationId = request.organizationId ∧ kept.editionId = request.editionId) :
    RowsChange zones (contextOf sur kept store) store.rows after.rows receipt true := by
  have intent : (requireVersion version >>= fun _ => day.normalized lib) = .ok value := h.intent
  have prepared : prepareDay zones request store = .ok (rows, sources) := h.prepared
  have written := h.written
  have operation := h.receipt.2.2.2.2.1
  simp only [reviseSchedulingServiceDay, prepareDay, bind_eq_ok, getOr_eq_ok, require_eq_ok,
    pure_eq_ok, Prod.mk.injEq] at intent prepared written
  obtain ⟨_, -, normalized⟩ := intent
  obtain ⟨envelope, resolved, rfl, rfl⟩ := prepared
  obtain ⟨prior, locked, _, bound, _, valid, ⟨days, day'⟩, advanced, rows, objectId, resulting⟩ := written
  obtain ⟨mem, is, scope, -, active⟩ := Register.locked_ok locked
  obtain ⟨next, writes⟩ := Register.advance_ok advanced mem scope active fun _ => bound
  rw [← same.1, ← same.2] at resolved
  rw [← is] at valid
  have fits : DayFits zones store.rows (contextOf sur kept store) (some prior.id) (value.content envelope.version) :=
    validateCurrentDay_ok valid resolved (day_normalized normalized)
  have change : DayChange zones (contextOf sur kept store) store.rows after.rows .revise day' := by
    refine ⟨?_, by rw [← rows]⟩
    rw [← rows]
    exact .revise writes mem next active fits
  exact .day change ⟨operation, objectId.symm, resulting.symm⟩

theorem retireDay_wrote {dayId value : Uuid} {version : Int} {sources : Unit}
    (h : Wrote lib world (retireSchedulingServiceDay sur dayId version) request sur.receiptId store after receipt kept
      value rows sources) :
    RowsChange zones (contextOf sur kept store) store.rows after.rows receipt true := by
  have prepared : (.ok (store.rows, ()) : Except SchedulingCommandError (Rows × Unit)) =
    .ok (rows, sources) := h.prepared
  have written := h.written
  have operation := h.receipt.2.2.2.2.1
  obtain ⟨rfl, rfl⟩ := Prod.mk.inj (Except.ok.inj prepared)
  simp only [retireSchedulingServiceDay, bind_eq_ok, pure_eq_ok, Prod.mk.injEq] at written
  obtain ⟨prior, locked, ⟨days, day'⟩, retired, rows, objectId, resulting⟩ := written
  obtain ⟨mem, is, scope, -, active⟩ := Register.locked_ok locked
  obtain ⟨next, content, writes⟩ := Register.retire_ok retired mem scope active
  have change : DayChange zones (contextOf sur kept store) store.rows after.rows .retire day' := by
    refine ⟨?_, by rw [← rows]⟩
    rw [← rows]
    exact .retire writes mem next active trivial
  exact .day change ⟨operation, objectId.symm, resulting.symm⟩

theorem source_ok {intent : SchedulingOccurrenceInput} {sources : Unit}
    (h : source sur request intent store = .ok (rows, sources)) :
    rows = store.rows ∧ ∃ item ∈ rows.items, item.id = intent.itemId ∧ item.organizationId =
      request.organizationId ∧ item.editionId = request.editionId ∧ item.active = true := by
  simp only [source, bind_eq_ok, getOr_eq_ok, require_eq_ok, pure_eq_ok, Prod.mk.injEq,
    Option.filter_eq_some_iff, Table.get?_eq_some, decide_eq_true_eq] at h
  obtain ⟨_, -, item, ⟨⟨mem, is⟩, organization, edition⟩, _, active, rfl, -⟩ := h
  exact ⟨rfl, item, mem, is, organization, edition, active⟩

theorem groupAvailable_ok {context : Evidence} {intent : SchedulingOccurrenceInput}
    {excluding : Option Uuid} {found : Unit}
    (h : groupAvailable rows context intent excluding = .ok found) :
    ∀ row ∈ rows.occurrences.current context excluding, OtherNumber intent.content row.content := by
  intro row mem grouped key number
  rcases require_eq_ok.mp h with none | free
  · exact grouped none
  · exact free row mem ⟨key.symm, number.symm⟩

theorem createOccurrence_wrote {occurrence value : SchedulingOccurrenceInput} {version : Int} {sources : Unit}
    (h : Wrote lib world (createSchedulingOccurrence sur request occurrence version) request sur.receiptId store after
      receipt kept value rows sources)
    (same : kept.organizationId = request.organizationId ∧ kept.editionId = request.editionId) :
    RowsChange zones (contextOf sur kept store) store.rows after.rows receipt false := by
  have prepared : source sur request value store = .ok (rows, sources) := h.prepared
  have written := h.written
  have operation := h.receipt.2.2.2.2.1
  obtain ⟨rfl, item, mem, is, organization, edition, active⟩ := source_ok prepared
  simp only [createSchedulingOccurrence, bind_eq_ok, require_eq_ok, pure_eq_ok, Prod.mk.injEq] at written
  obtain ⟨_, -, _, retained, _, available, occurrences, created, rows, objectId, resulting⟩ := written
  obtain ⟨inserted, writes⟩ := Register.create_ok created
  have fits : OccurrenceFits store.rows (contextOf sur kept store) none value.itemId value.content :=
    ⟨⟨item, mem, is, organization.trans same.1.symm, edition.trans same.2.symm, active⟩, groupAvailable_ok available⟩
  have change : OccurrenceChange (contextOf sur kept store) store.rows after.rows .create
      ⟨sur.objectId, kept.organizationId, kept.editionId, 1, .active, value.itemId⟩ := by
    refine ⟨?_, by rw [← rows]⟩
    rw [← rows]
    exact .create writes inserted ⟨rfl, rfl⟩ retained fits
  exact .occurrence change ⟨operation, objectId.symm, resulting.symm⟩

theorem reviseOccurrence_wrote {occurrenceId : Uuid} {occurrence value : SchedulingOccurrenceInput}
    {version : Int} {sources : Unit}
    (h : Wrote lib world (reviseSchedulingOccurrence sur request occurrenceId occurrence version) request sur.receiptId
      store after receipt kept value rows sources)
    (same : kept.organizationId = request.organizationId ∧ kept.editionId = request.editionId) :
    RowsChange zones (contextOf sur kept store) store.rows after.rows receipt false := by
  have prepared : source sur request value store = .ok (rows, sources) := h.prepared
  have written := h.written
  have operation := h.receipt.2.2.2.2.1
  obtain ⟨rfl, item, mem, is, organization, edition, active⟩ := source_ok prepared
  simp only [reviseSchedulingOccurrence, bind_eq_ok, require_eq_ok, pure_eq_ok, Prod.mk.injEq] at written
  obtain ⟨prior, locked, _, detail, _, bound, _, available, ⟨occurrences, next⟩, advanced, rows, objectId, resulting⟩ :=
    written
  obtain ⟨held, its, scope, -, planned⟩ := Register.locked_ok locked
  obtain ⟨becomes, writes⟩ := Register.advance_ok advanced held scope planned fun _ => bound
  have fits : OccurrenceFits store.rows (contextOf sur kept store) (some prior.id) prior.detail value.content := by
    refine ⟨⟨item, mem, is.trans detail.symm, organization.trans same.1.symm, edition.trans same.2.symm, active⟩, ?_⟩
    rw [its]
    exact groupAvailable_ok available
  have change : OccurrenceChange (contextOf sur kept store) store.rows after.rows .revise next := by
    refine ⟨?_, by rw [← rows]⟩
    rw [← rows]
    exact .revise writes held becomes planned fits
  exact .occurrence change ⟨operation, objectId.symm, resulting.symm⟩

theorem retireOccurrence_wrote {occurrenceId value : Uuid} {version : Int} {sources : Unit}
    (h : Wrote lib world (retireSchedulingOccurrence sur request occurrenceId version) request sur.receiptId store after
      receipt kept value rows sources)
    (same : kept.organizationId = request.organizationId ∧ kept.editionId = request.editionId) :
    RowsChange zones (contextOf sur kept store) store.rows after.rows receipt false := by
  have prepared : (.ok (store.rows, ()) : Except SchedulingCommandError (Rows × Unit)) =
    .ok (rows, sources) := h.prepared
  have written := h.written
  have operation := h.receipt.2.2.2.2.1
  obtain ⟨rfl, rfl⟩ := Prod.mk.inj (Except.ok.inj prepared)
  simp only [retireSchedulingOccurrence, requireNoActiveSchedulingReservation, bind_eq_ok,
    require_eq_ok, pure_eq_ok, Prod.mk.injEq] at written
  obtain ⟨prior, locked, _, ⟨_, -, free⟩, ⟨occurrences, next⟩, retired, rows, objectId, resulting⟩ := written
  obtain ⟨held, its, scope, -, planned⟩ := Register.locked_ok locked
  obtain ⟨becomes, content, writes⟩ := Register.retire_ok retired held scope planned
  rw [← same.1, ← same.2] at free
  have change : OccurrenceChange (contextOf sur kept store) store.rows after.rows .retire next := by
    refine ⟨?_, by rw [← rows]⟩
    rw [← rows]
    exact .retire writes held becomes planned fun b hb bound => free b hb (its ▸ bound)
  exact .occurrence change ⟨operation, objectId.symm, resulting.symm⟩

theorem request_normalized (h : request.normalized lib = .ok kept) :
    (IsSourceChannel request.sourceChannel ∧ request.sourceChannel.length ≤ maxSourceChannelLength) ∧
      ∃ reason, normalizedText lib request.reason maxReasonLength = .ok reason ∧ kept = { request with reason } := by
  simp only [SchedulingCommandRequest.normalized, bind_eq_ok, require_eq_ok, pure_eq_ok] at h
  obtain ⟨_, channel, reason, normalized, rfl⟩ := h
  exact ⟨channel, reason, normalized, rfl⟩

/-- Everything that a call knew and wrote when the program answered it with its write. -/
structure Written (lib : Primitives) (zones : Zones) (call : Call) (store after : Store Rows)
    (receipt : SchedulingCommandReceipt) (kept : SchedulingCommandRequest) : Prop where
  normalized : call.request.normalized lib = .ok kept
  edition : ∃ e ∈ store.rows.editions, e.id = kept.editionId ∧ e.organizationId = kept.organizationId ∧
    e.seriesOrganizationId = kept.organizationId ∧ e.lifecycle.acceptsSchedulingWrites = true
  person : store.rows.people kept.actorId = true
  controls : store.advanceControl kept.organizationId kept.editionId = .ok after.controls
  change : RowsChange zones (contextOf call.surroundings kept store) store.rows after.rows receipt call.command.isDay
  receipts : store.receipts.create receipt = .ok after.receipts
  scope : receipt.organizationId = kept.organizationId ∧ receipt.editionId = kept.editionId ∧
    receipt.actorId = kept.actorId
  digest : ∃ bytes, receipt.requestDigest = lib.sha256 bytes
  controlVersion : receipt.controlVersion = store.controlVersion kept.organizationId kept.editionId + 1

theorem written_of {command : Command Rows} {call : Call} {value : command.Intent} {sources : command.Prepared}
    (h : Wrote lib (store.rows.world call.surroundings call.request) command call.request
      call.surroundings.receiptId store
      after receipt kept value rows sources)
    (change : (kept.organizationId = call.request.organizationId ∧ kept.editionId = call.request.editionId) →
      RowsChange zones (contextOf call.surroundings kept store) store.rows after.rows receipt call.command.isDay) :
    Written lib zones call store after receipt kept := by
  obtain ⟨-, reason, -, rfl⟩ := request_normalized h.normalized
  obtain ⟨scope, authorized, accepts⟩ := h.admitted
  simp only [Rows.world, Rows.edition?, Option.bind_eq_bind, Option.bind_eq_some_iff, Option.filter_eq_some_iff,
    Table.get?_eq_some, decide_eq_true_eq, Option.guard_eq_some', Option.pure_def, Option.some.injEq] at authorized
  obtain ⟨edition, ⟨⟨mem, is⟩, organization, series⟩, _, ⟨person, -⟩, rfl⟩ := authorized
  obtain ⟨-, organizationId, editionId, actorId, -, digest, version⟩ := h.receipt
  exact ⟨h.normalized, ⟨edition, mem, is, organization, series, accepts⟩, person, h.controls,
    change ⟨rfl, rfl⟩, h.receipts, ⟨organizationId, editionId, actorId⟩, ⟨_, digest⟩, version⟩

theorem Call.answer_ok {call : Call} {answer : Answer} (h : call.answer lib zones store = .ok (after, answer)) :
    (answer.replayed = true ∧ after = store) ∨
      (answer.replayed = false ∧ ∃ kept, Written lib zones call store after answer.receipt kept) := by
  rcases execute_wrote h with replayed | ⟨fresh, kept, value, rows, sources, wrote⟩
  · exact .inl replayed
  · refine .inr ⟨fresh, kept, written_of wrote ?_⟩
    obtain ⟨sur, request, command⟩ := call
    cases command with
    | createDay day version => exact createDay_wrote wrote
    | reviseDay dayId day version => exact reviseDay_wrote wrote
    | retireDay dayId version => exact fun _ => retireDay_wrote wrote
    | createOccurrence occurrence version => exact createOccurrence_wrote wrote
    | reviseOccurrence occurrenceId occurrence version => exact reviseOccurrence_wrote wrote
    | retireOccurrence occurrenceId version => exact retireOccurrence_wrote wrote

end

end Maru.Scheduling.Metadata

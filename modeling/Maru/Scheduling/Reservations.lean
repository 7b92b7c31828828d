import Maru.Scheduling.ConflictsPairwise

/-!
# Reserved rooms

A reservation keeps a room as two typed busy periods, its preparation with its delivery and
its delivery with its teardown. `_busy_findings` only sees these periods;
`busyFindings_reserved`: what it reports about a placement and a reservation is what
`room_envelopes_conflict` and `permitted_turnover_window` say of their two envelopes. A
placement is not held against its own booking (`own_booking_unreported`).
-/

namespace Maru.Scheduling

open Budget

/-! ## Turnover -/

/-- The time that both windows share, if they share some. -/
def SchedulingWindow.intersection (left right : SchedulingWindow) : Option SchedulingWindow :=
  if max left.startsAt right.startsAt < min left.endsAt right.endsAt then
    some ⟨max left.startsAt right.startsAt, min left.endsAt right.endsAt⟩
  else none

theorem intersection_ne_none {left right : SchedulingWindow} (hl : left.startsAt < left.endsAt)
    (hr : right.startsAt < right.endsAt) :
    left.intersection right ≠ none ↔ schedulingWindowsOverlap left right = true := by
  rw [schedulingWindowsOverlap_iff, SchedulingWindow.intersection]
  split
  · rename_i shared
    have overlap : left.startsAt < right.endsAt ∧ right.startsAt < left.endsAt := by omega
    simp only [overlap, ne_eq, reduceCtorEq, not_false_eq_true, and_self]
  · rename_i apart
    have free : ¬ (left.startsAt < right.endsAt ∧ right.startsAt < left.endsAt) := by omega
    simp only [free, ne_eq, not_true_eq_false]

section

variable {left right : SchedulingEnvelope} (hl : left.Normalized) (hr : right.Normalized)

include hl hr

/-- Where two envelopes do not conflict, one is torn down before the other is delivered and
prepared after the one is delivered. -/
theorem byEffectiveStart_apart (free : ¬ roomEnvelopesConflict left right = true) :
    (byEffectiveStart left right).1.effectiveEndsAt ≤ (byEffectiveStart left right).2.setupStartsAt ∧
      (byEffectiveStart left right).1.teardownEndsAt ≤ (byEffectiveStart left right).2.effectiveStartsAt := by
  have ⟨_, l₁, l₂, l₃⟩ := hl
  have ⟨_, r₁, r₂, r₃⟩ := hr
  simp only [roomEnvelopesConflict_iff, schedulingWindowsOverlap_iff,
    SchedulingEnvelope.setupEffective, SchedulingEnvelope.effectiveTeardown] at free
  unfold byEffectiveStart
  split <;> dsimp only <;> omega

theorem permittedTurnoverWindow_eq (free : ¬ roomEnvelopesConflict left right = true) :
    permittedTurnoverWindow left right = left.whole.intersection right.whole := by
  have ⟨before, after⟩ := byEffectiveStart_apart hl hr free
  have ⟨_, l₁, l₂, l₃⟩ := hl
  have ⟨_, r₁, r₂, r₃⟩ := hr
  have start : max (byEffectiveStart left right).1.effectiveEndsAt (byEffectiveStart left right).2.setupStartsAt =
      max left.setupStartsAt right.setupStartsAt := by
    unfold byEffectiveStart at before ⊢
    split at before <;> rename_i order <;> simp only [order, if_true, if_false] <;> dsimp only at before <;> omega
  have stop : min (byEffectiveStart left right).1.teardownEndsAt (byEffectiveStart left right).2.effectiveStartsAt =
      min left.teardownEndsAt right.teardownEndsAt := by
    unfold byEffectiveStart at after ⊢
    split at after <;> rename_i order <;> simp only [order, if_true, if_false] <;> dsimp only at after <;> omega
  rw [permittedTurnoverWindow, if_neg free]
  exact congrArg₂ (fun start stop => if start < stop then some (SchedulingWindow.mk start stop) else none) start stop

theorem permittedTurnoverWindow_ne_none :
    permittedTurnoverWindow left right ≠ none ↔
      ¬ roomEnvelopesConflict left right = true ∧ schedulingWindowsOverlap left.whole right.whole = true := by
  have ⟨_, l₁, l₂, l₃⟩ := hl
  have ⟨_, r₁, r₂, r₃⟩ := hr
  by_cases conflict : roomEnvelopesConflict left right = true
  · simp only [permittedTurnoverWindow, conflict, if_true, ne_eq, not_true_eq_false, false_and]
  · have wl : left.whole.startsAt < left.whole.endsAt := by
      dsimp only [SchedulingEnvelope.whole]
      omega
    have wr : right.whole.startsAt < right.whole.endsAt := by
      dsimp only [SchedulingEnvelope.whole]
      omega
    rw [permittedTurnoverWindow_eq hl hr conflict, intersection_ne_none wl wr]
    exact (and_iff_right conflict).symm

/-- The two parts of a reservation touch an envelope where the whole of it does. -/
theorem touches_part_iff :
    schedulingWindowsOverlap left.whole right.whole = true ↔
      schedulingWindowsOverlap left.whole right.setupEffective = true ∨
        schedulingWindowsOverlap left.whole right.effectiveTeardown = true := by
  have ⟨_, l₁, l₂, l₃⟩ := hl
  have ⟨_, r₁, r₂, r₃⟩ := hr
  simp only [schedulingWindowsOverlap_iff, SchedulingEnvelope.whole,
    SchedulingEnvelope.setupEffective, SchedulingEnvelope.effectiveTeardown]
  omega

end

/-! ## Sources -/

/-- What `_busy_findings` reports about an occurrence and one source of busy periods. -/
def sourceFindings (members : List (Uuid × List SchedulingPlacementFacts))
    (venues : VenueSchedulingSnapshot) (occurrence source : Uuid) : List FindingCall :=
  ((interactions members venues).filter (·.1 = (occurrence, source))).flatMap interactionFindings

/-- The finding about a placement that a busy source blocks. -/
def reservedFinding (occurrence : Uuid) : SchedulingFinding where
  sourceCode := venuesSchedulingConflictSource
  code := .reservedRoomOverlap
  severity := .blocker
  occurrenceId := occurrence

/-- The busy period is one of the source's that the placement meets, held against the clique. -/
def HeldAgainst (venues : VenueSchedulingSnapshot) (placement : SchedulingPlacementFacts)
    (source : Uuid) (busy : VenueSchedulingBusyPeriod) (clique : SchedulingWindow) : Prop :=
  Meets venues placement busy ∧ busy.sourceKey = source ∧ placement.envelope.clique busy.conflictGroup = some clique

/-- On the members of the placement's space, the source's busy periods are exactly the two parts
of the envelope. -/
def Reserves (venues : VenueSchedulingSnapshot) (placement : SchedulingPlacementFacts)
    (source : Uuid) (reserved : SchedulingEnvelope) : Prop :=
  ∀ group window,
    (∃ busy ∈ venues.busyPeriods, Occupies venues placement busy.memberId ∧
      busy.sourceKey = source ∧ busy.conflictGroup = group ∧ busy.window = window) ↔
    (group = .setupEffective ∧ window = reserved.setupEffective) ∨
      (group = .effectiveTeardown ∧ window = reserved.effectiveTeardown)

/-- No busy period of the source is of the placement's own booking. -/
def Foreign (venues : VenueSchedulingSnapshot) (placement : SchedulingPlacementFacts) (source : Uuid) : Prop :=
  ∀ busy ∈ venues.busyPeriods, busy.sourceKey = source →
    ¬ (busy.bookingId ≠ none ∧ busy.bookingId = placement.ownBookingId)

/-- The interaction with a source says whether some period of it blocks, and whether some touches.
-/
theorem mem_interactions {placements : List SchedulingPlacementFacts} {venues : VenueSchedulingSnapshot}
    (unique : (placements.map (·.occurrence.id)).Nodup) {placement : SchedulingPlacementFacts}
    (hp : placement ∈ placements) {source : Uuid} {blocked touching : Bool} :
    ((placement.occurrence.id, source), blocked, touching) ∈ interactions (members placements venues) venues ↔
      (∃ busy clique, HeldAgainst venues placement source busy clique) ∧
      (blocked = true ↔ ∃ busy clique, HeldAgainst venues placement source busy clique ∧
        schedulingWindowsOverlap clique busy.window = true) ∧
      (touching = true ↔ ∃ busy clique, HeldAgainst venues placement source busy clique ∧
        schedulingWindowsOverlap placement.envelope.whole busy.window = true) := by
  have entered : ∀ met, ((placement.occurrence.id, source), met) ∈ busyEntries placements venues ↔
      ∃ busy clique, HeldAgainst venues placement source busy clique ∧
        (schedulingWindowsOverlap clique busy.window,
          schedulingWindowsOverlap placement.envelope.whole busy.window) = met := by
    intro met
    rw [mem_busyEntries]
    constructor
    · rintro ⟨other, ho, busy, clique, meets, hc, ⟨same, hs⟩, hmet⟩
      obtain rfl := List.inj_on_of_nodup_map unique ho hp same
      exact ⟨busy, clique, ⟨meets, hs, hc⟩, hmet⟩
    · rintro ⟨busy, clique, ⟨meets, hs, hc⟩, hmet⟩
      exact ⟨placement, hp, busy, clique, meets, hc, ⟨rfl, hs⟩, hmet⟩
  have blocks : (Dict.entriesOf (placement.occurrence.id, source) (busyEntries placements venues)).any (·.1) = true ↔
      ∃ busy clique, HeldAgainst venues placement source busy clique ∧
        schedulingWindowsOverlap clique busy.window = true := by
    rw [List.any_eq_true]
    simp only [Dict.mem_entriesOf, entered]
    constructor
    · rintro ⟨_, ⟨busy, clique, held, rfl⟩, h⟩
      exact ⟨busy, clique, held, h⟩
    · rintro ⟨busy, clique, held, h⟩
      exact ⟨_, ⟨busy, clique, held, rfl⟩, h⟩
  have touches : (Dict.entriesOf (placement.occurrence.id, source) (busyEntries placements venues)).any (·.2) = true ↔
      ∃ busy clique, HeldAgainst venues placement source busy clique ∧
        schedulingWindowsOverlap placement.envelope.whole busy.window = true := by
    rw [List.any_eq_true]
    simp only [Dict.mem_entriesOf, entered]
    constructor
    · rintro ⟨_, ⟨busy, clique, held, rfl⟩, h⟩
      exact ⟨busy, clique, held, h⟩
    · rintro ⟨busy, clique, held, h⟩
      exact ⟨_, ⟨busy, clique, held, rfl⟩, h⟩
  have some_entry : (∃ met, ((placement.occurrence.id, source), met) ∈ busyEntries placements venues) ↔
      ∃ busy clique, HeldAgainst venues placement source busy clique := by
    simp only [entered]
    constructor
    · rintro ⟨_, busy, clique, held, _⟩
      exact ⟨busy, clique, held⟩
    · rintro ⟨busy, clique, held⟩
      exact ⟨_, busy, clique, held, rfl⟩
  rw [interactions, Dict.mem_collect, foldl_or]
  simp only [Bool.false_or, Prod.mk.injEq]
  change (∃ met, ((placement.occurrence.id, source), met) ∈ busyEntries placements venues) ∧
    (Dict.entriesOf (placement.occurrence.id, source) (busyEntries placements venues)).any (·.1) = blocked ∧
    (Dict.entriesOf (placement.occurrence.id, source) (busyEntries placements venues)).any (·.2) = touching ↔ _
  rw [some_entry, ← blocks, ← touches, Bool.eq_iff_iff, Bool.eq_iff_iff (b := touching),
    Iff.comm (a := blocked = true), Iff.comm (a := touching = true)]

theorem mem_sourceFindings {placements : List SchedulingPlacementFacts}
    {venues : VenueSchedulingSnapshot} {occurrence source : Uuid} {call : FindingCall} :
    call ∈ sourceFindings (members placements venues) venues occurrence source ↔
      ∃ blocked touching, ((occurrence, source), blocked, touching) ∈ interactions (members placements venues) venues ∧
        call ∈ interactionFindings ((occurrence, source), blocked, touching) := by
  simp only [sourceFindings, List.mem_flatMap, List.mem_filter, decide_eq_true_eq, Prod.exists, Prod.mk.injEq]
  constructor
  · rintro ⟨_, _, blocked, touching, ⟨hi, rfl, rfl⟩, hc⟩
    exact ⟨blocked, touching, hi, hc⟩
  · rintro ⟨blocked, touching, hi, hc⟩
    exact ⟨_, _, blocked, touching, ⟨hi, rfl, rfl⟩, hc⟩

/-- An interaction is reported under its occurrence. -/
theorem occurrence_of_mem_sourceFindings {placements : List SchedulingPlacementFacts}
    {venues : VenueSchedulingSnapshot} {occurrence source : Uuid} {finding : SchedulingFinding}
    (h : .add finding ∈ sourceFindings (members placements venues) venues occurrence source) :
    finding.occurrenceId = some occurrence := by
  obtain ⟨blocked, touching, _, hf⟩ := mem_sourceFindings.mp h
  cases blocked with
  | true =>
    have hf : Budget.Call.add finding = _ := List.mem_singleton.mp hf
    rw [Budget.Call.add.inj hf]
  | false =>
    cases touching with
    | true =>
      have hf : Budget.Call.add finding = _ := List.mem_singleton.mp hf
      rw [Budget.Call.add.inj hf]
    | false => exact absurd hf List.not_mem_nil

/-- Beside the periods of an unknown kind, `_busy_findings` reports what each source makes. -/
theorem mem_busyFindings {placements : List SchedulingPlacementFacts} {venues : VenueSchedulingSnapshot}
    {finding : SchedulingFinding} (known : finding.code ≠ .venueUnavailable) {occurrence : Uuid}
    (about : finding.occurrenceId = some occurrence) :
    .add finding ∈ busyFindings (members placements venues) venues ↔
      ∃ source, .add finding ∈ sourceFindings (members placements venues) venues occurrence source := by
  have first : .add finding ∉ venues.busyPeriods.flatMap (busyCalls (members placements venues)) := by
    intro h
    obtain ⟨busy, _, h⟩ := List.mem_flatMap.mp h
    unfold busyCalls at h
    split at h
    · have h : Budget.Call.add finding = _ := List.mem_singleton.mp h
      exact known (congrArg SchedulingFinding.code (Budget.Call.add.inj h))
    · obtain ⟨_, _, h⟩ := List.mem_map.mp h
      cases h
  rw [busyFindings, List.mem_append, or_iff_right first]
  simp only [mem_sourceFindings, List.mem_flatMap, Prod.exists]
  constructor
  · rintro ⟨occurrence', source, blocked, touching, hi, hf⟩
    have same := occurrence_of_mem_sourceFindings (mem_sourceFindings.mpr ⟨blocked, touching, hi, hf⟩)
    obtain rfl := Option.some.inj (about.symm.trans same)
    exact ⟨source, blocked, touching, hi, hf⟩
  · rintro ⟨source, blocked, touching, hi, hf⟩
    exact ⟨occurrence, source, blocked, touching, hi, hf⟩

section

variable {placements : List SchedulingPlacementFacts} {venues : VenueSchedulingSnapshot}
  (unique : (placements.map (·.occurrence.id)).Nodup) {placement : SchedulingPlacementFacts}
  (hp : placement ∈ placements) {source : Uuid}

include unique hp

/-- A source is reported as blocking where some period of it overlaps its clique. -/
theorem reserved_mem_sourceFindings :
    .add (reservedFinding placement.occurrence.id) ∈
        sourceFindings (members placements venues) venues placement.occurrence.id source ↔
      ∃ busy clique, HeldAgainst venues placement source busy clique ∧
        schedulingWindowsOverlap clique busy.window = true := by
  have reported : ∀ blocked touching, Budget.Call.add (reservedFinding placement.occurrence.id) ∈
      interactionFindings ((placement.occurrence.id, source), blocked, touching) ↔ blocked = true := by
    intro blocked touching
    cases blocked <;> cases touching <;> simp [interactionFindings, onlyIf, add, reservedFinding]
  simp only [mem_sourceFindings, reported, mem_interactions unique hp]
  constructor
  · rintro ⟨_, _, ⟨_, blocks, _⟩, hb⟩
    exact blocks.mp hb
  · rintro ⟨busy, clique, held, overlap⟩
    obtain ⟨touching, ht⟩ : ∃ touching : Bool, touching = true ↔ ∃ busy clique,
        HeldAgainst venues placement source busy clique ∧
          schedulingWindowsOverlap placement.envelope.whole busy.window = true := by
      classical exact ⟨decide _, decide_eq_true_iff⟩
    exact ⟨true, touching, ⟨⟨busy, clique, held⟩, iff_of_true rfl ⟨busy, clique, held, overlap⟩, ht⟩, rfl⟩

/-- A source is reported as turning over where some period of it touches and none blocks. -/
theorem turnover_mem_sourceFindings :
    .add (busyTurnoverFinding placement.occurrence.id) ∈
        sourceFindings (members placements venues) venues placement.occurrence.id source ↔
      (¬ ∃ busy clique, HeldAgainst venues placement source busy clique ∧
        schedulingWindowsOverlap clique busy.window = true) ∧
      ∃ busy clique, HeldAgainst venues placement source busy clique ∧
        schedulingWindowsOverlap placement.envelope.whole busy.window = true := by
  have reported : ∀ blocked touching, Budget.Call.add (busyTurnoverFinding placement.occurrence.id) ∈
      interactionFindings ((placement.occurrence.id, source), blocked, touching) ↔
        blocked = false ∧ touching = true := by
    intro blocked touching
    cases blocked <;> cases touching <;> simp [interactionFindings, onlyIf, add, busyTurnoverFinding]
  simp only [mem_sourceFindings, reported, mem_interactions unique hp]
  constructor
  · rintro ⟨_, _, ⟨_, blocks, touches⟩, hb, ht⟩
    refine ⟨fun h => ?_, touches.mp ht⟩
    rw [blocks.mpr h] at hb
    cases hb
  · rintro ⟨free, busy, clique, held, overlap⟩
    refine ⟨false, true, ⟨⟨busy, clique, held⟩, iff_of_false Bool.false_ne_true free, ?_⟩, rfl, rfl⟩
    exact iff_of_true rfl ⟨busy, clique, held, overlap⟩

end

/-- The periods of a reservation are held against the same parts of the placement's envelope. -/
theorem Reserves.held {venues : VenueSchedulingSnapshot} {placement : SchedulingPlacementFacts}
    {source : Uuid} {reserved : SchedulingEnvelope} (h : Reserves venues placement source reserved)
    (foreign : Foreign venues placement source) (P : SchedulingWindow → SchedulingWindow → Prop) :
    (∃ busy clique, HeldAgainst venues placement source busy clique ∧ P clique busy.window) ↔
      P placement.envelope.setupEffective reserved.setupEffective ∨
        P placement.envelope.effectiveTeardown reserved.effectiveTeardown := by
  constructor
  · rintro ⟨busy, clique, ⟨⟨hb, occupied, _⟩, hs, hc⟩, hP⟩
    rcases (h _ _).mp ⟨busy, hb, occupied, hs, rfl, rfl⟩ with ⟨group, window⟩ | ⟨group, window⟩
    · rw [group] at hc
      rw [window, ← Option.some.inj hc] at hP
      exact .inl hP
    · rw [group] at hc
      rw [window, ← Option.some.inj hc] at hP
      exact .inr hP
  · rintro (hP | hP)
    · obtain ⟨busy, hb, occupied, hs, group, window⟩ := (h _ _).mpr (.inl ⟨rfl, rfl⟩)
      refine ⟨busy, _, ⟨⟨hb, occupied, foreign busy hb hs⟩, hs, congrArg _ group⟩, ?_⟩
      rw [window]
      exact hP
    · obtain ⟨busy, hb, occupied, hs, group, window⟩ := (h _ _).mpr (.inr ⟨rfl, rfl⟩)
      refine ⟨busy, _, ⟨⟨hb, occupied, foreign busy hb hs⟩, hs, congrArg _ group⟩, ?_⟩
      rw [window]
      exact hP

section

variable {placements : List SchedulingPlacementFacts} {venues : VenueSchedulingSnapshot}
  (unique : (placements.map (·.occurrence.id)).Nodup) {placement : SchedulingPlacementFacts}
  (hp : placement ∈ placements) {source : Uuid} {reserved : SchedulingEnvelope}
  (reserves : Reserves venues placement source reserved) (foreign : Foreign venues placement source)

include unique hp reserves foreign

theorem reserved_iff_conflict :
    .add (reservedFinding placement.occurrence.id) ∈
        sourceFindings (members placements venues) venues placement.occurrence.id source ↔
      roomEnvelopesConflict placement.envelope reserved = true := by
  rw [reserved_mem_sourceFindings unique hp,
    reserves.held foreign fun clique window => schedulingWindowsOverlap clique window = true, roomEnvelopesConflict_iff]

theorem turnover_iff_permitted (normalized : placement.envelope.Normalized)
    (held : reserved.Normalized) : .add (busyTurnoverFinding placement.occurrence.id) ∈
        sourceFindings (members placements venues) venues placement.occurrence.id source ↔
      permittedTurnoverWindow placement.envelope reserved ≠ none := by
  rw [turnover_mem_sourceFindings unique hp,
    reserves.held foreign fun clique window => schedulingWindowsOverlap clique window = true,
    reserves.held foreign fun _ window => schedulingWindowsOverlap placement.envelope.whole window = true,
    permittedTurnoverWindow_ne_none normalized held, roomEnvelopesConflict_iff, touches_part_iff normalized held]

end

/-- A reservation is reported as the pairwise rules say of its envelope and the placement's, the
placement with what its reservations make of it, and two envelopes that do not conflict turn over
in exactly the time that both take. -/
theorem busyFindings_reserved {placements : List SchedulingPlacementFacts} {venues : VenueSchedulingSnapshot}
    (unique : (placements.map (·.occurrence.id)).Nodup) {placement : SchedulingPlacementFacts}
    (hp : placement ∈ placements) (normalized : placement.envelope.Normalized) :
    (∀ source reserved, reserved.Normalized → Reserves venues placement source reserved →
      Foreign venues placement source →
      (.add (reservedFinding placement.occurrence.id) ∈
          sourceFindings (members placements venues) venues placement.occurrence.id source ↔
        roomEnvelopesConflict placement.envelope reserved = true) ∧
      (.add (busyTurnoverFinding placement.occurrence.id) ∈
          sourceFindings (members placements venues) venues placement.occurrence.id source ↔
        permittedTurnoverWindow placement.envelope reserved ≠ none)) ∧
    (.add (reservedFinding placement.occurrence.id) ∈ busyFindings (members placements venues) venues ↔
      ∃ source, .add (reservedFinding placement.occurrence.id) ∈
        sourceFindings (members placements venues) venues placement.occurrence.id source) ∧
    (.add (busyTurnoverFinding placement.occurrence.id) ∈ busyFindings (members placements venues) venues ↔
      ∃ source, .add (busyTurnoverFinding placement.occurrence.id) ∈
        sourceFindings (members placements venues) venues placement.occurrence.id source) ∧
    ∀ left right : SchedulingEnvelope, left.Normalized → right.Normalized →
      ¬ roomEnvelopesConflict left right = true →
        permittedTurnoverWindow left right = left.whole.intersection right.whole ∧
        permittedTurnoverWindow left right = permittedTurnoverWindow right left := by
  refine ⟨?_, mem_busyFindings (by simp [reservedFinding]) rfl, mem_busyFindings (by simp [busyTurnoverFinding]) rfl, ?_⟩
  · intro source reserved held reserves foreign
    exact ⟨reserved_iff_conflict unique hp reserves foreign,
      turnover_iff_permitted unique hp reserves foreign normalized held⟩
  · intro left right hl hr free
    exact ⟨permittedTurnoverWindow_eq hl hr free, permittedTurnoverWindow_comm hl hr⟩

/-! ## A booking of the second half -/

/-- The second half of the main hall, reserved by one booking for the panel. -/
def panelBooked : VenueSchedulingSnapshot :=
  { fairVenues with
    busyPeriods := [⟨51, some 61, 42, .setupEffective, panel.envelope.setupEffective⟩,
      ⟨51, some 61, 42, .effectiveTeardown, panel.envelope.effectiveTeardown⟩] }

theorem panelBooked_reserves (ownBookingId : Option Uuid) :
    Reserves panelBooked { opening with ownBookingId } 51 panel.envelope := by
  have occupied : Occupies panelBooked { opening with ownBookingId } 42 := ⟨_, rfl, by decide⟩
  intro group window
  constructor
  · rintro ⟨busy, hb, _, _, rfl, rfl⟩
    rcases List.mem_cons.mp hb with rfl | hb
    · exact .inl ⟨rfl, rfl⟩
    · obtain rfl := List.mem_singleton.mp hb
      exact .inr ⟨rfl, rfl⟩
  · rintro (⟨rfl, rfl⟩ | ⟨rfl, rfl⟩)
    · exact ⟨_, List.mem_cons_self, occupied, rfl, rfl, rfl⟩
    · exact ⟨_, List.mem_cons_of_mem _ List.mem_cons_self, occupied, rfl, rfl, rfl⟩

/-- The opening conflicts with the panel's reservation, and is reported. -/
theorem opening_reserved :
    .add (reservedFinding 1) ∈ sourceFindings (members [opening] panelBooked) panelBooked 1 51 ∧
    .add (reservedFinding 1) ∈ busyFindings (members [opening] panelBooked) panelBooked := by
  have reported := @busyFindings_reserved [opening] panelBooked (by decide) opening
    (List.mem_singleton_self opening) opening_normalized.envelope
  have foreign : Foreign panelBooked opening 51 := by
    rintro busy hb _ ⟨booked, own⟩
    exact booked own
  have conflict := (reported.1 51 panel.envelope panel_normalized.envelope (panelBooked_reserves none) foreign).1.mpr
    (by decide)
  exact ⟨conflict, reported.2.1.mpr ⟨51, conflict⟩⟩

/-- The booking is the opening's own: their envelopes conflict, and nothing is reported. -/
theorem own_booking_unreported :
    opening.envelope.Normalized ∧ panel.envelope.Normalized ∧
      Reserves panelBooked { opening with ownBookingId := some 61 } 51 panel.envelope ∧
      roomEnvelopesConflict opening.envelope panel.envelope = true ∧
      .add (reservedFinding 1) ∉
        busyFindings (members [{ opening with ownBookingId := some 61 }] panelBooked) panelBooked := by
  refine ⟨opening_normalized.envelope, panel_normalized.envelope, panelBooked_reserves _, by decide, fun h => ?_⟩
  obtain ⟨source, h⟩ := (mem_busyFindings (by decide) rfl).mp h
  obtain ⟨busy, clique, ⟨⟨hb, _, foreign⟩, _⟩, _⟩ := (reserved_mem_sourceFindings (by decide)
    (List.mem_singleton_self { opening with ownBookingId := some 61 })).mp h
  rcases List.mem_cons.mp hb with rfl | hb
  · exact foreign ⟨by decide, rfl⟩
  · obtain rfl := List.mem_singleton.mp hb
    exact foreign ⟨by decide, rfl⟩

end Maru.Scheduling

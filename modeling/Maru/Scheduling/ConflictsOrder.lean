import Maru.Framework.Lists
import Maru.Scheduling.Conflicts

/-!
# The order of the facts

An evaluation does not depend on the order in which its placements, items, hosts, spaces
and busy periods come (`evaluateSchedulingFacts_perm`): each check makes the same calls, in
another order, and the findings are sorted by a key that no two of them share.

The facts are those that the boundary lets through and the owners supply: envelopes and
presences that the normalizers accept, and identifiers that are primary keys.
-/

namespace Maru.Scheduling

open Budget Sweep

/-! ## Normalized facts -/

structure SchedulingWindow.Normalized (window : SchedulingWindow) : Prop where
  minutes : window.startsAt % microsPerMinute = 0 ∧ window.endsAt % microsPerMinute = 0
  positive : window.startsAt < window.endsAt

structure SchedulingEnvelope.Normalized (envelope : SchedulingEnvelope) : Prop where
  minutes : ∀ instant ∈ envelope.boundaries, instant % microsPerMinute = 0
  setup : envelope.setupStartsAt ≤ envelope.effectiveStartsAt
  delivery : envelope.effectiveStartsAt < envelope.effectiveEndsAt
  teardown : envelope.effectiveEndsAt ≤ envelope.teardownEndsAt

def IsPrecision (value : Int) : Prop := 1 ≤ value ∧ value ≤ minutesPerHour ∧ minutesPerHour % value = 0

theorem normalizeSchedulingInstant_eq_ok {value instant : Int} {field : String} :
    normalizeSchedulingInstant value field = .ok instant ↔ value % microsPerMinute = 0 ∧ instant = value := by
  simp only [normalizeSchedulingInstant, bind_eq_ok, require_eq_ok, pure_eq_ok]
  exact ⟨fun ⟨_, h, e⟩ => ⟨h, e.symm⟩, fun ⟨h, e⟩ => ⟨(), h, e.symm⟩⟩

theorem normalizeSchedulingWindow_eq_ok {value window : SchedulingWindow} :
    normalizeSchedulingWindow value = .ok window ↔ value.Normalized ∧ window = value := by
  simp only [normalizeSchedulingWindow, bind_eq_ok, normalizeSchedulingInstant_eq_ok, require_eq_ok, pure_eq_ok]
  constructor
  · rintro ⟨_, ⟨hs, rfl⟩, _, ⟨he, rfl⟩, _, hlt, rfl⟩
    exact ⟨⟨⟨hs, he⟩, hlt⟩, rfl⟩
  · rintro ⟨⟨⟨hs, he⟩, hlt⟩, rfl⟩
    exact ⟨_, ⟨hs, rfl⟩, _, ⟨he, rfl⟩, (), hlt, rfl⟩

theorem normalizeSchedulingEnvelope_eq_ok {value envelope : SchedulingEnvelope} :
    normalizeSchedulingEnvelope value = .ok envelope ↔ value.Normalized ∧ envelope = value := by
  simp only [normalizeSchedulingEnvelope, bind_eq_ok, normalizeSchedulingInstant_eq_ok, require_eq_ok, pure_eq_ok]
  constructor
  · rintro ⟨_, ⟨h₁, rfl⟩, _, ⟨h₂, rfl⟩, _, ⟨h₃, rfl⟩, _, ⟨h₄, rfl⟩, _, ⟨setup, delivery, teardown⟩, rfl⟩
    refine ⟨⟨?_, setup, delivery, teardown⟩, rfl⟩
    simp only [SchedulingEnvelope.boundaries, List.forall_mem_cons]
    exact ⟨h₁, h₂, h₃, h₄, fun _ => nofun⟩
  · rintro ⟨⟨minutes, setup, delivery, teardown⟩, rfl⟩
    simp only [SchedulingEnvelope.boundaries, List.forall_mem_cons] at minutes
    obtain ⟨h₁, h₂, h₃, h₄, -⟩ := minutes
    exact ⟨_, ⟨h₁, rfl⟩, _, ⟨h₂, rfl⟩, _, ⟨h₃, rfl⟩, _, ⟨h₄, rfl⟩, (), ⟨setup, delivery, teardown⟩, rfl⟩

theorem requireSchedulingPrecision_eq_ok {value precision : Int} :
    requireSchedulingPrecision value = .ok precision ↔ IsPrecision value ∧ precision = value := by
  simp only [requireSchedulingPrecision, bind_eq_ok, require_eq_ok, pure_eq_ok]
  exact ⟨fun ⟨_, h, e⟩ => ⟨h, e.symm⟩, fun ⟨h, e⟩ => ⟨(), h, e.symm⟩⟩

/-- A placement as the commands store it. -/
structure SchedulingPlacementFacts.Normalized (placement : SchedulingPlacementFacts) : Prop where
  envelope : placement.envelope.Normalized
  day : placement.day.window.Normalized
  precision : IsPrecision placement.day.precisionMinutes
  presences : ∀ presence ∈ placement.hosts, presence.startsAt < presence.endsAt

/-- Every identifier stands for one item or host. -/
structure ProgrammeSchedulingSnapshot.Identified (programme : ProgrammeSchedulingSnapshot) : Prop where
  items : (programme.items.map (·.itemId)).Nodup
  hosts : (programme.hosts.map (·.hostId)).Nodup

/-- Every identifier stands for one space. -/
def VenueSchedulingSnapshot.Identified (venues : VenueSchedulingSnapshot) : Prop :=
  (venues.spaces.map (·.selectionId)).Nodup

/-- The facts of an evaluation as its callers resolve them. -/
structure ResolvedFacts (placements : List SchedulingPlacementFacts) (programme : Option ProgrammeSchedulingSnapshot)
    (venues : Option VenueSchedulingSnapshot) : Prop where
  placements : ∀ placement ∈ placements, placement.Normalized
  programme : ∀ snapshot, programme = some snapshot → snapshot.Identified
  venues : ∀ snapshot, venues = some snapshot → snapshot.Identified

/-- Two snapshots with the same items and hosts. -/
structure ProgrammeSchedulingSnapshot.Permuted (programme programme' : ProgrammeSchedulingSnapshot) : Prop where
  contract : programme.contract = programme'.contract
  items : programme.items.Perm programme'.items
  hosts : programme.hosts.Perm programme'.hosts

/-- Two snapshots with the same spaces and busy periods. -/
structure VenueSchedulingSnapshot.Permuted (venues venues' : VenueSchedulingSnapshot) : Prop where
  contract : venues.contract = venues'.contract
  spaces : venues.spaces.Perm venues'.spaces
  busyPeriods : venues.busyPeriods.Perm venues'.busyPeriods

/-! ## Comparing is symmetric -/

theorem sortedIds_comm (left right : Uuid) : sortedIds left right = sortedIds right left := by
  unfold sortedIds
  rcases lt_trichotomy left.text right.text with h | h | h
  · rw [if_neg h.not_gt, if_pos h]
  · rw [Uuid.text_injective h]
  · rw [if_pos h, if_neg h.not_gt]

theorem addPair_comm (source : String) (code : SchedulingConflictCode) (severity : SchedulingConflictSeverity)
    (left right : Uuid) : addPair source code severity left right = addPair source code severity right left := by
  simp only [addPair, pairFinding, sortedIds_comm left right]

/-- The sorted identifiers are the two, one way or the other. -/
theorem sortedIds_eq_iff {a b c d : Uuid} : sortedIds a b = sortedIds c d ↔ (a = c ∧ b = d) ∨ (a = d ∧ b = c) := by
  constructor
  · unfold sortedIds
    intro h
    split at h <;> split at h <;> simp only [Prod.mk.injEq] at h
    · exact .inl h.symm
    · exact .inr h.symm
    · exact .inr h
    · exact .inl h
  · rintro (⟨rfl, rfl⟩ | ⟨rfl, rfl⟩)
    · rfl
    · exact sortedIds_comm _ _

theorem comparePresences_comm (left right : Commitment) : comparePresences left right = comparePresences right left := by
  simp only [comparePresences, addPair_comm _ _ _ left.1 right.1, ne_comm (a := left.1)]

theorem schedulingWindowsOverlap_comm (left right : SchedulingWindow) :
    schedulingWindowsOverlap left right = schedulingWindowsOverlap right left := by
  simp only [schedulingWindowsOverlap, and_comm]

theorem roomEnvelopesConflict_comm (left right : SchedulingEnvelope) :
    roomEnvelopesConflict left right = roomEnvelopesConflict right left := by
  simp only [roomEnvelopesConflict, schedulingWindowsOverlap_comm left.setupEffective,
    schedulingWindowsOverlap_comm left.effectiveTeardown]

section

variable {left right : SchedulingEnvelope} (hl : left.Normalized) (hr : right.Normalized)

include hl hr

/-- Deliveries that start together conflict. -/
theorem roomEnvelopesConflict_of_start (h : left.effectiveStartsAt = right.effectiveStartsAt) :
    roomEnvelopesConflict left right = true := by
  have := hl.delivery
  have := hr.delivery
  have := hl.teardown
  have := hr.teardown
  simp only [roomEnvelopesConflict_iff, schedulingWindowsOverlap_iff,
    SchedulingEnvelope.setupEffective, SchedulingEnvelope.effectiveTeardown]
  omega

theorem permittedTurnoverWindow_comm : permittedTurnoverWindow left right = permittedTurnoverWindow right left := by
  unfold permittedTurnoverWindow
  rw [roomEnvelopesConflict_comm right left]
  split
  · rfl
  · rename_i free
    have order : byEffectiveStart left right = byEffectiveStart right left := by
      unfold byEffectiveStart
      rcases lt_trichotomy left.effectiveStartsAt right.effectiveStartsAt with h | h | h
      · rw [if_neg h.not_gt, if_pos h]
      · exact absurd (roomEnvelopesConflict_of_start hl hr h) free
      · rw [if_pos h, if_neg h.not_gt]
    rw [order]

end

theorem comparePlacements_comm {left right : SchedulingPlacementFacts} (hl : left.Normalized)
    (hr : right.Normalized) : comparePlacements left right = comparePlacements right left := by
  simp only [comparePlacements, roomEnvelopesConflict_comm left.envelope,
    permittedTurnoverWindow_comm hl.envelope hr.envelope,
    addPair_comm _ _ _ left.occurrence.id right.occurrence.id]

/-! ## Hosts -/

section

variable {programme programme' : ProgrammeSchedulingSnapshot} (identified : programme.Identified)
  (h : programme.Permuted programme')

include identified h

theorem item?_perm : programme.item? = programme'.item? := by
  funext k
  exact find?_key_perm (by simpa using identified.items)
    ((List.reverse_perm _).trans (h.items.trans (List.reverse_perm _).symm)) k

theorem host?_perm : programme.host? = programme'.host? := by
  funext k
  exact find?_key_perm (by simpa using identified.hosts)
    ((List.reverse_perm _).trans (h.hosts.trans (List.reverse_perm _).symm)) k

theorem itemFindings_perm : itemFindings programme = itemFindings programme' := by
  funext placement
  simp only [itemFindings, item?_perm identified h, host?_perm identified h]

theorem commitmentsOf_perm : commitmentsOf programme = commitmentsOf programme' := by
  funext placement
  simp only [commitmentsOf, personOf, item?_perm identified h, host?_perm identified h]

end

/-- The commitments of a placement come from its presences. -/
theorem mem_commitmentsOf {programme : ProgrammeSchedulingSnapshot}
    {placement : SchedulingPlacementFacts} {person : Uuid} {commitment : Commitment} :
    (person, commitment) ∈ commitmentsOf programme placement ↔
      programme.item? placement.occurrence.itemId ≠ none ∧ ∃ presence ∈ placement.hosts,
        personOf programme placement presence = some person ∧
          commitment = (placement.occurrence.id, ⟨presence.startsAt, presence.endsAt⟩) := by
  unfold commitmentsOf
  cases programme.item? placement.occurrence.itemId with
  | none => simp
  | some item =>
    simp only [List.mem_filterMap, Option.map_eq_some_iff, Prod.mk.injEq, ne_eq, reduceCtorEq,
      not_false_eq_true, true_and]
    constructor
    · rintro ⟨presence, hp, _, he, rfl, rfl⟩
      exact ⟨presence, hp, he, rfl⟩
    · rintro ⟨presence, hp, he, rfl⟩
      exact ⟨presence, hp, _, he, rfl, rfl⟩

theorem commitments_positive {placements : List SchedulingPlacementFacts} {programme : ProgrammeSchedulingSnapshot}
    (normalized : ∀ placement ∈ placements, placement.Normalized) (person : Uuid) :
    ∀ c ∈ Dict.entriesOf person (placements.flatMap (commitmentsOf programme)), c.2.startsAt < c.2.endsAt := by
  intro c hc
  obtain ⟨placement, hp, hc⟩ := List.mem_flatMap.mp (Dict.mem_entriesOf.mp hc)
  obtain ⟨_, presence, hpresence, _, rfl⟩ := mem_commitmentsOf.mp hc
  exact (normalized placement hp).presences presence hpresence

theorem personFindings_perm {commitments commitments' : List Commitment}
    (positive : ∀ c ∈ commitments, c.2.startsAt < c.2.endsAt) (h : commitments.Perm commitments') :
    (personFindings commitments).Perm (personFindings commitments') :=
  sweep_perm positive (fun a _ b _ _ => .of_eq (comparePresences_comm a b)) h

theorem programmeFindings_perm {placements placements' : List SchedulingPlacementFacts}
    {programme programme' : ProgrammeSchedulingSnapshot} (normalized : ∀ placement ∈ placements, placement.Normalized)
    (identified : programme.Identified) (hp : placements.Perm placements') (h : programme.Permuted programme') :
    (programmeFindings placements (some programme)).Perm (programmeFindings placements' (some programme')) := by
  simp only [programmeFindings, ← h.contract]
  split
  · exact .refl _
  · rw [← itemFindings_perm identified h, people, people, ← commitmentsOf_perm identified h]
    exact (hp.flatMap_right _).append (Dict.groups_flatMap_perm (hp.flatMap_right _) fun person =>
      personFindings_perm (commitments_positive normalized person) (Dict.entriesOf_perm (hp.flatMap_right _)))

/-! ## Rooms -/

theorem space?_perm {venues venues' : VenueSchedulingSnapshot} (identified : venues.Identified)
    (h : venues.Permuted venues') : venues.space? = venues'.space? := by
  funext k
  refine congrArg (Option.filter _) (find?_key_perm ?_
    ((List.reverse_perm _).trans (h.spaces.trans (List.reverse_perm _).symm)) k)
  rw [List.map_reverse]
  exact List.nodup_reverse.mpr identified

/-- The identifiers of the two placements that a visit compares. -/
def visitKey (visit : SchedulingPlacementFacts × SchedulingPlacementFacts) : Uuid × Uuid :=
  sortedIds visit.1.occurrence.id visit.2.occurrence.id

theorem candidatePairs_eq (compared : List (Uuid × Uuid))
    (visits : List (SchedulingPlacementFacts × SchedulingPlacementFacts)) :
    candidatePairs compared visits =
      (Dict.firsts visitKey compared visits).flatMap fun visit => comparePlacements visit.1 visit.2 := by
  induction visits generalizing compared with
  | nil => rfl
  | cons visit visits ih =>
    rw [candidatePairs, Dict.firsts]
    by_cases seen : visitKey visit ∈ compared
    · rw [if_pos seen]
      exact (if_pos seen).trans (ih compared)
    · rw [if_neg seen, List.flatMap_cons]
      exact (if_neg seen).trans (congrArg _ (ih _))

/-- The pairs of placements that share a member and the time of some work on it. -/
def sharingVisits (entries : List (Uuid × SchedulingPlacementFacts)) :
    List (SchedulingPlacementFacts × SchedulingPlacementFacts) :=
  (Dict.groups entries).flatMap fun member => sharingPairs member.2

section

variable {entries entries' : List (Uuid × SchedulingPlacementFacts)}
  (normalized : ∀ e ∈ entries, e.2.Normalized)

include normalized

theorem sharing_positive (member : Uuid) :
    ∀ p ∈ Dict.entriesOf member entries, p.envelope.setupStartsAt < p.envelope.teardownEndsAt := by
  intro p hp
  have := (normalized _ (Dict.mem_entriesOf.mp hp)).envelope
  exact this.setup.trans_lt (this.delivery.trans_le this.teardown)

/-- A visit compares two placements that share a member and overlap. -/
theorem mem_sharingVisits {visit : SchedulingPlacementFacts × SchedulingPlacementFacts} :
    visit ∈ sharingVisits entries ↔
      ∃ member, visit ∈ pairs (sortBy (·.envelope.setupStartsAt) (Dict.entriesOf member entries)) ∧
        schedulingWindowsOverlap visit.1.envelope.whole visit.2.envelope.whole = true := by
  have swept : ∀ member, sharingPairs (Dict.entriesOf member entries) =
      (pairs (sortBy (·.envelope.setupStartsAt) (Dict.entriesOf member entries))).filter fun p =>
        Overlap (·.envelope.setupStartsAt) (·.envelope.teardownEndsAt) p.1 p.2 := fun member =>
    sweep_eq_filter (sortBy_sorted _ _) fun p hp =>
      sharing_positive normalized member p ((sortBy_perm _ _).mem_iff.mp hp)
  rw [sharingVisits, List.mem_flatMap]
  constructor
  · rintro ⟨⟨member, sharing⟩, hm, hv⟩
    obtain ⟨_, rfl⟩ := Dict.mem_groups.mp hm
    rw [swept] at hv
    obtain ⟨hv, hover⟩ := List.mem_filter.mp hv
    exact ⟨member, hv, hover⟩
  · rintro ⟨member, hv, hover⟩
    have hmem := (sortBy_perm _ _).mem_iff.mp (mem_of_mem_pairs hv).1
    refine ⟨(member, _), Dict.mem_groups.mpr ⟨⟨_, Dict.mem_entriesOf.mp hmem⟩, rfl⟩, ?_⟩
    rw [swept]
    exact List.mem_filter.mpr ⟨hv, hover⟩

theorem mem_of_mem_sharingVisits {visit : SchedulingPlacementFacts × SchedulingPlacementFacts}
    (h : visit ∈ sharingVisits entries) : ∃ member, (member, visit.1) ∈ entries ∧ (member, visit.2) ∈ entries := by
  obtain ⟨member, hv, _⟩ := (mem_sharingVisits normalized).mp h
  have ⟨h₁, h₂⟩ := mem_of_mem_pairs hv
  exact ⟨member, Dict.mem_entriesOf.mp ((sortBy_perm _ _).mem_iff.mp h₁),
    Dict.mem_entriesOf.mp ((sortBy_perm _ _).mem_iff.mp h₂)⟩

theorem visitKeys_perm (h : entries.Perm entries') :
    ((sharingVisits entries).map visitKey).Perm ((sharingVisits entries').map visitKey) := by
  simp only [sharingVisits, List.map_flatMap]
  refine Dict.groups_flatMap_perm (g := fun sharing => (sharingPairs sharing).map visitKey) h fun member => ?_
  rw [List.map_eq_flatMap, List.map_eq_flatMap]
  exact sweep_perm (sharing_positive normalized member)
    (fun a _ b _ _ => .of_eq (congrArg (fun key => [key]) (sortedIds_comm _ _))) (Dict.entriesOf_perm h)

omit normalized in
/-- Visits with the same key compare the same two placements. -/
theorem comparePlacements_of_key {a b : SchedulingPlacementFacts × SchedulingPlacementFacts}
    (normalized : b.1.Normalized ∧ b.2.Normalized)
    (unique : ∀ p ∈ [a.1, a.2], ∀ q ∈ [b.1, b.2], p.occurrence.id = q.occurrence.id → p = q)
    (hk : visitKey a = visitKey b) : comparePlacements a.1 a.2 = comparePlacements b.1 b.2 := by
  rcases sortedIds_eq_iff.mp hk with ⟨h₁, h₂⟩ | ⟨h₁, h₂⟩
  · rw [unique a.1 (by simp) b.1 (by simp) h₁, unique a.2 (by simp) b.2 (by simp) h₂]
  · rw [unique a.1 (by simp) b.2 (by simp) h₁, unique a.2 (by simp) b.1 (by simp) h₂,
      comparePlacements_comm normalized.2 normalized.1]

/-- The pairs are compared once each, in whatever order the placements come. -/
theorem candidatePairs_perm (unique : ∀ e ∈ entries, ∀ e' ∈ entries,
    e.2.occurrence.id = e'.2.occurrence.id → e.2 = e'.2) (h : entries.Perm entries') :
    (candidatePairs [] (sharingVisits entries)).Perm (candidatePairs [] (sharingVisits entries')) := by
  rw [candidatePairs_eq, candidatePairs_eq]
  refine Dict.firsts_flatMap_perm ?_ fun k => (visitKeys_perm normalized h).mem_iff
  intro a ha b hb hk
  obtain ⟨_, ha₁, ha₂⟩ := mem_of_mem_sharingVisits normalized ha
  obtain ⟨_, hb₁, hb₂⟩ := mem_of_mem_sharingVisits (fun e he => normalized e (h.mem_iff.mpr he)) hb
  have hb₁ := h.mem_iff.mpr hb₁
  have hb₂ := h.mem_iff.mpr hb₂
  refine .of_eq (comparePlacements_of_key ⟨normalized _ hb₁, normalized _ hb₂⟩ ?_ hk)
  simp only [List.forall_mem_cons, List.not_mem_nil, false_implies, implies_true, and_true]
  exact ⟨⟨unique _ ha₁ _ hb₁, unique _ ha₁ _ hb₂⟩, unique _ ha₂ _ hb₁, unique _ ha₂ _ hb₂⟩

end

/-! ## Busy periods -/

section

variable {entries entries' : List (Uuid × SchedulingPlacementFacts)} (h : entries.Perm entries')

theorem busyPlacements_groups (busy : VenueSchedulingBusyPeriod) :
    busyPlacements (Dict.groups entries) busy = Dict.entriesOf busy.memberId entries :=
  Dict.getD_groups busy.memberId

include h

theorem busyCalls_perm (busy : VenueSchedulingBusyPeriod) :
    (busyCalls (Dict.groups entries) busy).Perm (busyCalls (Dict.groups entries') busy) := by
  unfold busyCalls
  split
  · exact .refl _
  · rw [busyPlacements_groups, busyPlacements_groups]
    exact (Dict.entriesOf_perm h).map _

theorem interactions_flatMap_perm {venues venues' : VenueSchedulingSnapshot}
    (hb : venues.busyPeriods.Perm venues'.busyPeriods) :
    ((interactions (Dict.groups entries) venues).flatMap interactionFindings).Perm
      ((interactions (Dict.groups entries') venues').flatMap interactionFindings) := by
  have entriesPerm : (venues.busyPeriods.flatMap fun busy =>
        (busyPlacements (Dict.groups entries) busy).filterMap (interaction busy)).Perm
      (venues'.busyPeriods.flatMap fun busy =>
        (busyPlacements (Dict.groups entries') busy).filterMap (interaction busy)) := by
    refine hb.flatMap fun busy _ => ?_
    rw [busyPlacements_groups, busyPlacements_groups]
    exact (Dict.entriesOf_perm h).filterMap _
  refine Dict.collect_flatMap_perm entriesPerm fun pair =>
    .of_eq (congrArg (fun met => interactionFindings (pair, met)) ?_)
  refine (Dict.entriesOf_perm entriesPerm).foldl_eq' (fun a _ b _ previous => ?_) _
  rw [Bool.or_right_comm, Bool.or_right_comm (y := a.2)]

theorem busyFindings_perm {venues venues' : VenueSchedulingSnapshot}
    (hb : venues.busyPeriods.Perm venues'.busyPeriods) :
    (busyFindings (Dict.groups entries) venues).Perm (busyFindings (Dict.groups entries') venues') :=
  (hb.flatMap fun busy _ => busyCalls_perm h busy).append (interactions_flatMap_perm h hb)

end

/-- The members of a placement's space lead to the placement. -/
theorem mem_membersOf {venues : VenueSchedulingSnapshot}
    {placement placement' : SchedulingPlacementFacts} {member : Uuid} :
    (member, placement') ∈ membersOf venues placement ↔
      placement' = placement ∧ ∃ space, venues.space? placement.spaceId = some space ∧ member ∈ space.memberIds := by
  unfold membersOf
  cases venues.space? placement.spaceId with
  | none => simp
  | some space => simp [and_comm, eq_comm]

theorem mem_flatMap_membersOf {placements : List SchedulingPlacementFacts} {venues : VenueSchedulingSnapshot}
    {e : Uuid × SchedulingPlacementFacts} (h : e ∈ placements.flatMap (membersOf venues)) : e.2 ∈ placements := by
  obtain ⟨placement, hp, he⟩ := List.mem_flatMap.mp h
  rwa [(mem_membersOf.mp he).1]

theorem venueFindings_perm {placements placements' : List SchedulingPlacementFacts}
    {venues venues' : VenueSchedulingSnapshot} (normalized : ∀ placement ∈ placements, placement.Normalized)
    (unique : (placements.map (·.occurrence.id)).Nodup) (identified : venues.Identified)
    (hp : placements.Perm placements') (h : venues.Permuted venues') :
    (venueFindings placements (some venues)).Perm (venueFindings placements' (some venues')) := by
  have spaces := space?_perm identified h
  have rooms : roomFindings venues = roomFindings venues' := by
    funext placement
    simp only [roomFindings, spaces]
  have shared : membersOf venues = membersOf venues' := by
    funext placement
    simp only [membersOf, spaces]
  have entries := hp.flatMap_right (membersOf venues)
  simp only [venueFindings, ← h.contract]
  split
  · exact .refl _
  · rw [← rooms, members, members, ← shared]
    refine ((hp.flatMap_right _).append (candidatePairs_perm (fun e he => normalized _ (mem_flatMap_membersOf he))
      (fun e he e' he' => List.inj_on_of_nodup_map unique (mem_flatMap_membersOf he) (mem_flatMap_membersOf he'))
      entries)).append (busyFindings_perm entries h.busyPeriods)

/-! ## The evaluation -/

/-- The severity that each code is reported with. -/
@[simp] def SchedulingConflictCode.severity : SchedulingConflictCode → SchedulingConflictSeverity
  | .editionUnavailable | .programmeUnavailable | .hostSourceUnavailable | .venueUnavailable
  | .venueAvailabilityMissing | .evaluationLimit => .unavailable
  | .hostOutsidePreference | .turnoverOverlap => .warning
  | _ => .blocker

/-- A call that refuses nothing, and adds a finding with its code's severity. -/
def IsSettled : FindingCall → Prop
  | .compare => True
  | .add finding => finding.severity = finding.code.severity
  | .refuse _ => False

/-- A settled call that reports no overlap of placements, and none with a busy period. -/
def IsSingle : FindingCall → Prop
  | .compare => True
  | .add finding => finding.severity = finding.code.severity ∧ finding.code ≠ .hostOverlap ∧
      finding.code ≠ .candidateRoomOverlap ∧ finding.code ≠ .turnoverOverlap
  | .refuse _ => False

theorem IsSingle.settled {call : FindingCall} (h : IsSingle call) : IsSettled call := by
  cases call with
  | compare => trivial
  | add finding => exact h.1
  | refuse e => exact h

def Every (P : FindingCall → Prop) (calls : List FindingCall) : Prop := ∀ call ∈ calls, P call

section

variable {P : FindingCall → Prop}

@[simp] theorem every_nil : Every P [] := List.forall_mem_nil _

@[simp] theorem every_cons {call : FindingCall} {calls : List FindingCall} :
    Every P (call :: calls) ↔ P call ∧ Every P calls := List.forall_mem_cons

@[simp] theorem every_append {calls calls' : List FindingCall} :
    Every P (calls ++ calls') ↔ Every P calls ∧ Every P calls' := List.forall_mem_append

@[simp] theorem every_flatMap {α : Type} {l : List α} {f : α → List FindingCall} :
    Every P (l.flatMap f) ↔ ∀ a ∈ l, Every P (f a) := by
  simp only [Every, List.mem_flatMap]
  exact ⟨fun h a ha call hc => h call ⟨a, ha, hc⟩, fun h call ⟨a, ha, hc⟩ => h a ha call hc⟩

@[simp] theorem every_onlyIf {p : Prop} [Decidable p] {calls : List FindingCall} :
    Every P (onlyIf p calls) ↔ (p → Every P calls) := by
  unfold onlyIf
  split <;> simp_all

end

@[simp] theorem isSettled_compare : IsSettled .compare := trivial

@[simp] theorem isSingle_add {source : String} {code : SchedulingConflictCode} {severity : SchedulingConflictSeverity}
    {occurrence : Option Uuid} : IsSingle (add source code severity occurrence) ↔
      severity = code.severity ∧ code ≠ .hostOverlap ∧ code ≠ .candidateRoomOverlap ∧ code ≠ .turnoverOverlap :=
  Iff.rfl

@[simp] theorem isSettled_add {source : String} {code : SchedulingConflictCode} {severity : SchedulingConflictSeverity}
    {occurrence : Option Uuid} : IsSettled (add source code severity occurrence) ↔ severity = code.severity := Iff.rfl

@[simp] theorem isSettled_addPair {source : String} {code : SchedulingConflictCode}
    {severity : SchedulingConflictSeverity} {left right : Uuid} :
    IsSettled (addPair source code severity left right) ↔ severity = code.severity := Iff.rfl

/-- Nothing is refused of a normalized placement. -/
theorem placementFitsServiceDay_ok {placement : SchedulingPlacementFacts} (h : placement.Normalized) :
    ∃ fits, placementFitsServiceDay placement.envelope placement.day.window
      placement.day.precisionMinutes = .ok fits := by
  have envelope := normalizeSchedulingEnvelope_eq_ok.mpr ⟨h.envelope, rfl⟩
  have window := normalizeSchedulingWindow_eq_ok.mpr ⟨h.day, rfl⟩
  have precision := requireSchedulingPrecision_eq_ok.mpr ⟨h.precision, rfl⟩
  rw [placementFitsServiceDay, envelope, window, precision]
  exact ⟨_, rfl⟩

theorem timeFindings_single {placement : SchedulingPlacementFacts} (h : placement.Normalized)
    (edition : Option SchedulingWindow) : Every IsSingle (timeFindings placement edition) := by
  obtain ⟨fits, hfits⟩ := placementFitsServiceDay_ok h
  simp only [timeFindings, hfits, every_append]
  refine ⟨⟨⟨⟨⟨?_, ?_⟩, ?_⟩, ?_⟩, ?_⟩, ?_⟩
  case refine_5 => cases edition <;> simp
  case refine_6 => split <;> simp
  all_goals simp

theorem hostFindings_single (placement : SchedulingPlacementFacts) (presence : SchedulingHostPresence)
    (host : Option ProgrammeSchedulingHost) : Every IsSingle (hostFindings placement presence host) := by
  unfold hostFindings sharedFindings
  split
  · simp
  · dsimp only
    split
    · simp
    · split <;> (try split) <;> (try split) <;> simp

theorem itemFindings_single (programme : ProgrammeSchedulingSnapshot)
    (placement : SchedulingPlacementFacts) : Every IsSingle (itemFindings programme placement) := by
  unfold itemFindings
  split <;> simp [hostFindings_single]

theorem roomFindings_single (venues : VenueSchedulingSnapshot)
    (placement : SchedulingPlacementFacts) : Every IsSingle (roomFindings venues placement) := by
  unfold roomFindings spaceFindings
  split
  · simp
  · dsimp only
    rw [every_append]
    constructor
    · simp
    · split <;> simp

theorem busyCalls_single (groups : List (Uuid × List SchedulingPlacementFacts))
    (busy : VenueSchedulingBusyPeriod) : Every IsSingle (busyCalls groups busy) := by
  unfold busyCalls
  split
  · simp
  · intro call hc
    obtain ⟨_, _, rfl⟩ := List.mem_map.mp hc
    trivial

theorem interactionFindings_settled (item : (Uuid × Uuid) × Bool × Bool) :
    Every IsSettled (interactionFindings item) := by
  obtain ⟨⟨_, _⟩, blocked, touching⟩ := item
  cases blocked <;> simp [interactionFindings]

theorem personFindings_settled (commitments : List Commitment) : Every IsSettled (personFindings commitments) := by
  simp [personFindings, comparePresences]

theorem comparePlacements_settled (left right : SchedulingPlacementFacts) :
    Every IsSettled (comparePlacements left right) := by
  unfold comparePlacements
  rw [every_cons]
  refine ⟨trivial, ?_⟩
  split <;> simp

theorem evaluationCalls_settled {placements : List SchedulingPlacementFacts}
    (normalized : ∀ placement ∈ placements, placement.Normalized) (edition : Option SchedulingWindow)
    (programme : Option ProgrammeSchedulingSnapshot) (venues : Option VenueSchedulingSnapshot) :
    Every IsSettled (evaluationCalls placements edition programme venues) := by
  have settled : ∀ {calls}, Every IsSingle calls → Every IsSettled calls := fun h call hc => (h call hc).settled
  unfold evaluationCalls
  rw [every_append, every_append, every_append]
  refine ⟨⟨⟨settled (by simp), ?_⟩, ?_⟩, ?_⟩
  · exact every_flatMap.mpr fun placement hp => settled (timeFindings_single (normalized placement hp) edition)
  · unfold programmeFindings
    split
    · exact settled (by simp)
    · split
      · exact settled (by simp)
      · rw [every_append, every_flatMap, every_flatMap]
        exact ⟨fun placement _ => settled (itemFindings_single _ placement), fun _ _ => personFindings_settled _⟩
  · unfold venueFindings
    split
    · exact settled (by simp)
    · split
      · exact settled (by simp)
      · simp only [busyFindings, every_append, every_flatMap, candidatePairs_eq]
        exact ⟨⟨fun placement _ => settled (roomFindings_single _ placement),
          fun _ _ => comparePlacements_settled _ _⟩, fun busy _ => settled (busyCalls_single _ busy),
          fun item _ => interactionFindings_settled item⟩

theorem Every.accepted {calls : List FindingCall} (h : Every IsSettled calls) : Budget.Accepted calls :=
  fun _ he => h _ he

/-! ## Sorting -/

theorem idText_injective {id id' : Option Uuid} (h : idText id = idText id') : id = id' := by
  have long : ∀ u : Uuid, u.text ≠ "None" := fun u hu => by
    have := u.length_text
    rw [hu] at this
    exact absurd this (by decide)
  cases id with
  | none =>
    cases id' with
    | none => rfl
    | some u => exact absurd h.symm (long u)
  | some u =>
    cases id' with
    | none => exact absurd h (long u)
    | some v => rw [Uuid.text_injective h]

def schedulingConflictCodes : List SchedulingConflictCode :=
  [.editionUnavailable, .dayChanged, .dayRetired, .editionBounds, .dayBounds, .minuteGrid, .occurrenceChanged,
    .occurrenceRetired, .programmeUnavailable, .itemRetired, .hostRequired, .hostNotCurrent, .hostSourceUnavailable,
    .hostUnavailable, .hostOutsideAvailability, .hostOutsidePreference, .hostOverlap, .venueUnavailable,
    .venueInactive, .venueCapacity, .venueAvailabilityMissing, .venueHardAvailability, .candidateRoomOverlap,
    .reservedRoomOverlap, .turnoverOverlap, .evaluationLimit]

theorem mem_schedulingConflictCodes (code : SchedulingConflictCode) : code ∈ schedulingConflictCodes := by
  cases code <;> decide

theorem nodup_values : (schedulingConflictCodes.map SchedulingConflictCode.value).Nodup := by decide +kernel

theorem code_value_injective {code code' : SchedulingConflictCode} (h : code.value = code'.value) : code = code' :=
  List.inj_on_of_nodup_map nodup_values (mem_schedulingConflictCodes code) (mem_schedulingConflictCodes code') h

/-- Findings with the same key and the severities of their codes are the same. -/
theorem key_injective {finding finding' : SchedulingFinding} (h : finding.severity = finding.code.severity)
    (h' : finding'.severity = finding'.code.severity) (hk : finding.key = finding'.key) : finding = finding' := by
  obtain ⟨source, code, severity, id, other⟩ := finding
  obtain ⟨source', code', severity', id', other'⟩ := finding'
  simp only [SchedulingFinding.key, EmbeddingLike.apply_eq_iff_eq, Prod.mk.injEq] at hk
  obtain ⟨rfl, hcode, hid, hother⟩ := hk
  obtain rfl := code_value_injective hcode
  obtain rfl := idText_injective hid
  obtain rfl := idText_injective hother
  rw [show severity = severity' from h.trans h'.symm]

/-- However the set is walked, its findings are sorted the same. -/
theorem sorted_eq (order order' : SetOrder SchedulingFinding) {values : Finset SchedulingFinding}
    (settled : ∀ finding ∈ values, finding.severity = finding.code.severity) :
    sortBy SchedulingFinding.key (order.list values) = sortBy SchedulingFinding.key (order'.list values) := by
  refine sortBy_eq_of_perm (fun a ha b hb hk => ?_) ?_
  · exact key_injective (settled a ((order.mem_list values a).mp ha)) (settled b ((order.mem_list values b).mp hb)) hk
  · rw [List.perm_ext_iff_of_nodup (order.nodup values) (order'.nodup values)]
    intro finding
    rw [order.mem_list, order'.mem_list]

/-- The facts in another order make the same calls in another order. -/
theorem evaluationCalls_perm {placements placements' : List SchedulingPlacementFacts}
    {programme programme' : Option ProgrammeSchedulingSnapshot} {venues venues' : Option VenueSchedulingSnapshot}
    (edition : Option SchedulingWindow) (facts : ResolvedFacts placements programme venues)
    (unique : (placements.map (·.occurrence.id)).Nodup) (hp : placements.Perm placements')
    (hprogramme : Option.Rel ProgrammeSchedulingSnapshot.Permuted programme programme')
    (hvenues : Option.Rel VenueSchedulingSnapshot.Permuted venues venues') :
    (evaluationCalls placements edition programme venues).Perm
      (evaluationCalls placements' edition programme' venues') := by
  refine (((List.Perm.refl _).append (hp.flatMap_right _)).append ?_).append ?_
  · cases hprogramme with
    | none => exact .refl _
    | some h => exact programmeFindings_perm facts.placements (facts.programme _ rfl) hp h
  · cases hvenues with
    | none => exact .refl _
    | some h => exact venueFindings_perm facts.placements unique (facts.venues _ rfl) hp h

/-- Permuting the placements, the items and hosts of the programme and the spaces and busy periods
of the venues changes nothing: the same findings in the same order, and the same limit. -/
theorem evaluateSchedulingFacts_perm (order order' : SetOrder SchedulingFinding)
    {placements placements' : List SchedulingPlacementFacts} {programme programme' : Option ProgrammeSchedulingSnapshot}
    {venues venues' : Option VenueSchedulingSnapshot} (edition : Option SchedulingWindow)
    (facts : ResolvedFacts placements programme venues) (hp : placements.Perm placements')
    (hprogramme : Option.Rel ProgrammeSchedulingSnapshot.Permuted programme programme')
    (hvenues : Option.Rel VenueSchedulingSnapshot.Permuted venues venues') :
    evaluateSchedulingFacts order placements edition programme venues =
      evaluateSchedulingFacts order' placements' edition programme' venues' := by
  have manifest : CompleteManifest placements ↔ CompleteManifest placements' := by
    rw [CompleteManifest, CompleteManifest, hp.length_eq, (hp.map _).nodup_iff]
  unfold evaluateSchedulingFacts
  by_cases complete : CompleteManifest placements
  · have settled := evaluationCalls_settled facts.placements edition programme venues
    have calls := evaluationCalls_perm edition facts complete.2 hp hprogramme hvenues
    rw [if_neg (not_not.mpr complete), if_neg (not_not.mpr (manifest.mp complete)),
      ← run_perm settled.accepted calls]
    split
    · rename_i findings hrun
      rw [sorted_eq order order']
      intro finding hf
      rw [run_eq_ok settled.accepted hrun, mem_added] at hf
      exact settled _ hf
    · rfl
    · rfl
  · rw [if_pos complete, if_pos fun h => complete (manifest.mpr h)]

/-- Walking a set in the order of its list. -/
noncomputable def listOrder : SetOrder SchedulingFinding where
  list := Finset.toList
  nodup := Finset.nodup_toList
  mem_list _ _ := Finset.mem_toList

/-- Minutes of the day as microseconds. -/
def clock (hour minute : Int) : Int := (60 * hour + minute) * microsPerMinute

/-- The opening, from eight with preparation, in the main hall. -/
def opening : SchedulingPlacementFacts where
  occurrence := { id := 1, itemId := 11, selectedVersion := 1, currentVersion := 1, active := true }
  day := ⟨1, 1, true, ⟨clock 8 0, clock 20 0⟩, 15⟩
  spaceId := 31
  envelope := ⟨clock 8 0, clock 9 0, clock 10 0, clock 10 30⟩
  capacityMode := .seated
  expectedAttendance := 80
  hosts := [⟨21, clock 9 0, clock 10 0⟩]

/-- A panel with the same person, before the opening has ended, in one half of the main hall. -/
def panel : SchedulingPlacementFacts where
  occurrence := { id := 2, itemId := 12, selectedVersion := 1, currentVersion := 1, active := true }
  day := opening.day
  spaceId := 32
  envelope := ⟨clock 9 30, clock 9 45, clock 11 0, clock 11 15⟩
  capacityMode := .standing
  expectedAttendance := 40
  hosts := [⟨22, clock 9 45, clock 11 0⟩]

def fairProgramme : ProgrammeSchedulingSnapshot where
  contract := programmeSchedulingConflictSource
  items := [⟨11, .active, true⟩, ⟨12, .active, true⟩]
  hosts := [⟨21, 11, some 9, .shared, [⟨⟨clock 8 0, clock 20 0⟩, .available⟩]⟩,
    ⟨22, 12, some 9, .shared, [⟨⟨clock 8 0, clock 20 0⟩, .available⟩]⟩]

/-- The main hall of two halves, and its second half. -/
def fairVenues : VenueSchedulingSnapshot where
  contract := venuesSchedulingConflictSource
  spaces := [⟨31, 1, true, [41, 42], 100, 200, 50, 150, [⟨clock 8 0, clock 20 0⟩]⟩,
    ⟨32, 1, true, [42], 50, 100, 20, 70, [⟨clock 8 0, clock 20 0⟩]⟩]
  busyPeriods := [⟨51, none, 41, .setupEffective, ⟨clock 10 15, clock 12 0⟩⟩,
    ⟨52, none, 42, .setupEffective, ⟨clock 18 0, clock 19 0⟩⟩]

theorem opening_normalized : opening.Normalized where
  envelope := ⟨by decide, by decide, by decide, by decide⟩
  day := ⟨by decide, by decide⟩
  precision := by unfold IsPrecision; decide
  presences := by decide

theorem panel_normalized : panel.Normalized where
  envelope := ⟨by decide, by decide, by decide, by decide⟩
  day := ⟨by decide, by decide⟩
  precision := by unfold IsPrecision; decide
  presences := by decide

/-- The placements, items, hosts, spaces and busy periods of a day the other way round. -/
theorem fair_perm :
    evaluateSchedulingFacts listOrder [opening, panel] (some opening.day.window) (some fairProgramme) (some fairVenues) =
      evaluateSchedulingFacts listOrder [panel, opening] (some opening.day.window)
        (some { fairProgramme with items := fairProgramme.items.reverse, hosts := fairProgramme.hosts.reverse })
        (some { fairVenues with spaces := fairVenues.spaces.reverse, busyPeriods := fairVenues.busyPeriods.reverse }) :=
  evaluateSchedulingFacts_perm listOrder listOrder (some opening.day.window)
    { placements := by simpa using ⟨opening_normalized, panel_normalized⟩
      programme := by
        rintro _ ⟨⟩
        exact ⟨by decide, by decide⟩
      venues := by
        rintro _ ⟨⟩
        show List.Nodup _
        decide }
    (List.Perm.swap _ _ _) (.some ⟨rfl, (List.reverse_perm _).symm, (List.reverse_perm _).symm⟩)
    (.some ⟨rfl, (List.reverse_perm _).symm, (List.reverse_perm _).symm⟩)

end Maru.Scheduling

import Maru.Scheduling.ConflictsOrder

/-!
# The overlaps, pair by pair

The definitions in this file compare every two placements of a candidate and report those
that need one person at one time, those whose work in a shared room conflicts, and those
that only meet in the turnover between them. `evaluateSchedulingFacts_pairwise`: an
evaluation that stays within its limits reports exactly these, each once, although it only
compares what its sorted sweeps reach. Its other turnover findings name one placement and a
busy period that it meets (`BusyTurnover`).
-/

namespace Maru.Scheduling

open Budget Sweep

/-! ## What is to be found -/

/-- The presence is one of the person's, for an item that is known. -/
def NeedsPerson (programme : ProgrammeSchedulingSnapshot) (placement : SchedulingPlacementFacts)
    (person : Uuid) (presence : SchedulingHostPresence) : Prop :=
  programme.item? placement.occurrence.itemId ≠ none ∧ personOf programme placement presence = some person

/-- Some person has to be at both placements at one time. -/
def HostsMeet (programme : ProgrammeSchedulingSnapshot) (left right : SchedulingPlacementFacts) : Prop :=
  ∃ presence ∈ left.hosts, ∃ presence' ∈ right.hosts, ∃ person,
    NeedsPerson programme left person presence ∧ NeedsPerson programme right person presence' ∧
      presence.startsAt < presence'.endsAt ∧ presence'.startsAt < presence.endsAt

/-- The placement's space is made of the member and perhaps others. -/
def Occupies (venues : VenueSchedulingSnapshot) (placement : SchedulingPlacementFacts) (member : Uuid) : Prop :=
  ∃ space, venues.space? placement.spaceId = some space ∧ member ∈ space.memberIds

def ShareMember (venues : VenueSchedulingSnapshot) (left right : SchedulingPlacementFacts) : Prop :=
  ∃ member, Occupies venues left member ∧ Occupies venues right member

def RoomsConflict (venues : VenueSchedulingSnapshot) (left right : SchedulingPlacementFacts) : Prop :=
  ShareMember venues left right ∧ roomEnvelopesConflict left.envelope right.envelope = true

def RoomsTurnOver (venues : VenueSchedulingSnapshot) (left right : SchedulingPlacementFacts) : Prop :=
  ShareMember venues left right ∧ permittedTurnoverWindow left.envelope right.envelope ≠ none

/-- The busy period is on a member of the placement's space, and is not its own booking. -/
def Meets (venues : VenueSchedulingSnapshot) (placement : SchedulingPlacementFacts)
    (busy : VenueSchedulingBusyPeriod) : Prop :=
  busy ∈ venues.busyPeriods ∧ Occupies venues placement busy.memberId ∧
    ¬ (busy.bookingId ≠ none ∧ busy.bookingId = placement.ownBookingId)

/-- Some source of busy periods touches the placement's work and blocks none of it. -/
def BusyTurnover (venues : VenueSchedulingSnapshot) (placement : SchedulingPlacementFacts) : Prop :=
  ∃ source, (∃ busy clique, Meets venues placement busy ∧ busy.sourceKey = source ∧
      placement.envelope.clique busy.conflictGroup = some clique ∧
      schedulingWindowsOverlap placement.envelope.whole busy.window = true) ∧
    ∀ busy clique, Meets venues placement busy → busy.sourceKey = source →
      placement.envelope.clique busy.conflictGroup = some clique →
      schedulingWindowsOverlap clique busy.window = false

/-- The snapshot that the evaluation uses: one with its contract. -/
def ProgrammeSchedulingSnapshot.pinned (programme : Option ProgrammeSchedulingSnapshot) :
    Option ProgrammeSchedulingSnapshot :=
  programme.filter fun snapshot => snapshot.contract = programmeSchedulingConflictSource

def VenueSchedulingSnapshot.pinned (venues : Option VenueSchedulingSnapshot) : Option VenueSchedulingSnapshot :=
  venues.filter fun snapshot => snapshot.contract = venuesSchedulingConflictSource

open Classical in
/-- The findings of a comparison of every two placements. -/
noncomputable def pairwiseFindings (source : String) (code : SchedulingConflictCode)
  (severity : SchedulingConflictSeverity)
    (meet : SchedulingPlacementFacts → SchedulingPlacementFacts → Prop) (placements : List SchedulingPlacementFacts) :
    List SchedulingFinding :=
  ((pairs placements).filter fun p => meet p.1 p.2).map fun p =>
    pairFinding source code severity p.1.occurrence.id p.2.occurrence.id

noncomputable def hostOverlaps (placements : List SchedulingPlacementFacts)
    (programme : Option ProgrammeSchedulingSnapshot) : List SchedulingFinding :=
  pairwiseFindings programmeSchedulingConflictSource .hostOverlap .blocker
    (fun left right => ∃ snapshot, ProgrammeSchedulingSnapshot.pinned programme = some snapshot ∧
      HostsMeet snapshot left right) placements

noncomputable def roomOverlaps (placements : List SchedulingPlacementFacts)
    (venues : Option VenueSchedulingSnapshot) : List SchedulingFinding :=
  pairwiseFindings venuesSchedulingConflictSource .candidateRoomOverlap .blocker
    (fun left right => ∃ snapshot, VenueSchedulingSnapshot.pinned venues = some snapshot ∧
      RoomsConflict snapshot left right) placements

noncomputable def turnoverOverlaps (placements : List SchedulingPlacementFacts)
    (venues : Option VenueSchedulingSnapshot) : List SchedulingFinding :=
  pairwiseFindings venuesSchedulingConflictSource .turnoverOverlap .warning
    (fun left right => ∃ snapshot, VenueSchedulingSnapshot.pinned venues = some snapshot ∧
      RoomsTurnOver snapshot left right) placements

/-! ## Pairs of placements -/

theorem pairFinding_comm (source : String) (code : SchedulingConflictCode) (severity : SchedulingConflictSeverity)
    (left right : Uuid) : pairFinding source code severity left right = pairFinding source code severity right left := by
  simp only [pairFinding, sortedIds_comm left right]

theorem pairFinding_eq_iff {source : String} {code : SchedulingConflictCode}
    {severity : SchedulingConflictSeverity} {a b c d : Uuid} :
    pairFinding source code severity a b = pairFinding source code severity c d ↔ (a = c ∧ b = d) ∨ (a = d ∧ b = c) := by
  rw [← sortedIds_eq_iff]
  simp [pairFinding, Prod.ext_iff]

section

variable {source : String} {code : SchedulingConflictCode} {severity : SchedulingConflictSeverity}
  {meet : SchedulingPlacementFacts → SchedulingPlacementFacts → Prop} {placements : List SchedulingPlacementFacts}
  (unique : (placements.map (·.occurrence.id)).Nodup)

include unique

theorem mem_pairwiseFindings (symm : ∀ a ∈ placements, ∀ b ∈ placements, meet a b → meet b a)
    {finding : SchedulingFinding} :
    finding ∈ pairwiseFindings source code severity meet placements ↔
      ∃ a ∈ placements, ∃ b ∈ placements, a.occurrence.id ≠ b.occurrence.id ∧ meet a b ∧
        finding = pairFinding source code severity a.occurrence.id b.occurrence.id := by
  rw [← exists_pair_iff (Q := fun a b => a.occurrence.id ≠ b.occurrence.id ∧ meet a b ∧
    finding = pairFinding source code severity a.occurrence.id b.occurrence.id)]
  · simp only [pairwiseFindings, List.mem_map, List.mem_filter, decide_eq_true_eq]
    constructor
    · rintro ⟨p, ⟨hp, hmeet⟩, rfl⟩
      have ⟨h₁, h₂⟩ := mem_of_mem_pairs hp
      refine ⟨p, hp, fun same => ?_, hmeet, rfl⟩
      exact ne_of_mem_pairs unique.of_map hp (List.inj_on_of_nodup_map unique h₁ h₂ same)
    · rintro ⟨p, hp, _, hmeet, rfl⟩
      exact ⟨p, ⟨hp, hmeet⟩, rfl⟩
  · rintro a ha b hb ⟨hne, hmeet, rfl⟩
    exact ⟨hne.symm, symm a ha b hb hmeet, pairFinding_comm ..⟩
  · exact fun a h => h.1 rfl

theorem nodup_pairwiseFindings : (pairwiseFindings source code severity meet placements).Nodup := by
  refine List.Nodup.sublist (List.filter_sublist.map _) (nodup_map_pairs unique.of_map ?_)
  intro a ha b hb c hc d hd h
  have inj := fun {x y} hx hy => List.inj_on_of_nodup_map (x := x) (y := y) unique hx hy
  exact (pairFinding_eq_iff.mp h).imp (fun ⟨h₁, h₂⟩ => ⟨inj ha hc h₁, inj hb hd h₂⟩)
    fun ⟨h₁, h₂⟩ => ⟨inj ha hd h₁, inj hb hc h₂⟩

end

/-- Each of these findings has its code and names two occurrences. -/
theorem code_of_mem_pairwise {source : String} {code : SchedulingConflictCode} {severity : SchedulingConflictSeverity}
    {meet : SchedulingPlacementFacts → SchedulingPlacementFacts → Prop} {placements : List SchedulingPlacementFacts}
    {finding : SchedulingFinding} (h : finding ∈ pairwiseFindings source code severity meet placements) :
    finding.code = code ∧ finding.otherOccurrenceId ≠ none := by
  obtain ⟨_, _, rfl⟩ := List.mem_map.mp h
  exact ⟨rfl, nofun⟩

/-! ## Hosts -/

theorem HostsMeet.symm {programme : ProgrammeSchedulingSnapshot} {left right : SchedulingPlacementFacts}
    (h : HostsMeet programme left right) : HostsMeet programme right left := by
  obtain ⟨presence, hp, presence', hp', person, needs, needs', before, after⟩ := h
  exact ⟨presence', hp', presence, hp, person, needs', needs, after, before⟩

/-- The sweep reports the commitments of two occurrences that overlap. -/
theorem mem_personFindings {commitments : List Commitment}
    (positive : ∀ c ∈ commitments, c.2.startsAt < c.2.endsAt) {finding : SchedulingFinding} :
    .add finding ∈ personFindings commitments ↔
      ∃ c ∈ commitments, ∃ c' ∈ commitments, c.1 ≠ c'.1 ∧ schedulingWindowsOverlap c.2 c'.2 = true ∧
        finding = pairFinding programmeSchedulingConflictSource .hostOverlap .blocker c.1 c'.1 := by
  have sorted := sortBy_perm (fun c : Commitment => c.2.startsAt) commitments
  have reported : ∀ c c' : Commitment, .add finding ∈ comparePresences c c' ↔
      c.1 ≠ c'.1 ∧ finding = pairFinding programmeSchedulingConflictSource .hostOverlap .blocker c.1 c'.1 :=
    fun c c' => by
      unfold comparePresences onlyIf
      split <;> simp_all [addPair]
  rw [personFindings, List.mem_flatMap,
    sweep_eq_filter (sortBy_sorted _ _) fun c hc => positive c (sorted.mem_iff.mp hc)]
  simp only [List.mem_filter, decide_eq_true_eq, reported, and_assoc]
  refine (exists_pair_iff (Q := fun c c' : Commitment =>
    Overlap (fun c : Commitment => c.2.startsAt) (fun c => c.2.endsAt) c c' ∧ c.1 ≠ c'.1 ∧
    finding = pairFinding programmeSchedulingConflictSource .hostOverlap .blocker c.1 c'.1) ?_ ?_).trans ?_
  · rintro c _ c' _ ⟨overlap, hne, rfl⟩
    exact ⟨overlap.symm, hne.symm, pairFinding_comm ..⟩
  · exact fun c h => h.2.1 rfl
  · simp only [sorted.mem_iff, schedulingWindowsOverlap_iff, Overlap]
    constructor
    · rintro ⟨c, hc, c', hc', overlap, hne, h⟩
      exact ⟨c, hc, c', hc', hne, overlap, h⟩
    · rintro ⟨c, hc, c', hc', hne, overlap, h⟩
      exact ⟨c, hc, c', hc', overlap, hne, h⟩

theorem mem_peopleFindings {placements : List SchedulingPlacementFacts} {programme : ProgrammeSchedulingSnapshot}
    (normalized : ∀ placement ∈ placements, placement.Normalized) {finding : SchedulingFinding} :
    .add finding ∈ (people placements programme).flatMap (fun person => personFindings person.2) ↔
      ∃ a ∈ placements, ∃ b ∈ placements, a.occurrence.id ≠ b.occurrence.id ∧ HostsMeet programme a b ∧
        finding = pairFinding programmeSchedulingConflictSource .hostOverlap .blocker
          a.occurrence.id b.occurrence.id := by
  rw [List.mem_flatMap, Prod.exists]
  simp only [people, Dict.mem_groups]
  constructor
  · rintro ⟨person, _, ⟨_, rfl⟩, hf⟩
    obtain ⟨c, hc, c', hc', hne, overlap, rfl⟩ := (mem_personFindings (commitments_positive normalized person)).mp hf
    obtain ⟨a, ha, hca⟩ := List.mem_flatMap.mp (Dict.mem_entriesOf.mp hc)
    obtain ⟨b, hb, hcb⟩ := List.mem_flatMap.mp (Dict.mem_entriesOf.mp hc')
    obtain ⟨known, presence, hp, needs, rfl⟩ := mem_commitmentsOf.mp hca
    obtain ⟨known', presence', hp', needs', rfl⟩ := mem_commitmentsOf.mp hcb
    obtain ⟨before, after⟩ := schedulingWindowsOverlap_iff.mp overlap
    exact ⟨a, ha, b, hb, hne,
      ⟨presence, hp, presence', hp', person, ⟨known, needs⟩, ⟨known', needs'⟩, before, after⟩, rfl⟩
  · rintro ⟨a, ha, b, hb, hne, ⟨presence, hp, presence', hp', person, needs, needs', before, after⟩, rfl⟩
    have hc := List.mem_flatMap.mpr ⟨a, ha, mem_commitmentsOf.mpr ⟨needs.1, presence, hp, needs.2, rfl⟩⟩
    have hc' := List.mem_flatMap.mpr ⟨b, hb, mem_commitmentsOf.mpr ⟨needs'.1, presence', hp', needs'.2, rfl⟩⟩
    refine ⟨person, _, ⟨⟨_, hc⟩, rfl⟩, (mem_personFindings (commitments_positive normalized person)).mpr
      ⟨_, Dict.mem_entriesOf.mpr hc, _, Dict.mem_entriesOf.mpr hc', hne, ?_, rfl⟩⟩
    exact schedulingWindowsOverlap_iff.mpr ⟨before, after⟩

/-! ## Rooms -/

theorem ShareMember.symm {venues : VenueSchedulingSnapshot} {left right : SchedulingPlacementFacts}
    (h : ShareMember venues left right) : ShareMember venues right left :=
  h.imp fun _ h => h.symm

theorem RoomsConflict.symm {venues : VenueSchedulingSnapshot} {left right : SchedulingPlacementFacts}
    (h : RoomsConflict venues left right) : RoomsConflict venues right left :=
  ⟨h.1.symm, roomEnvelopesConflict_comm left.envelope right.envelope ▸ h.2⟩

theorem RoomsTurnOver.symm {venues : VenueSchedulingSnapshot} {left right : SchedulingPlacementFacts}
    (hl : left.Normalized) (hr : right.Normalized) (h : RoomsTurnOver venues left right) :
    RoomsTurnOver venues right left :=
  ⟨h.1.symm, permittedTurnoverWindow_comm hl.envelope hr.envelope ▸ h.2⟩

theorem mem_entriesOf_members {placements : List SchedulingPlacementFacts}
    {venues : VenueSchedulingSnapshot} {member : Uuid} {placement : SchedulingPlacementFacts} :
    placement ∈ Dict.entriesOf member (placements.flatMap (membersOf venues)) ↔
      placement ∈ placements ∧ Occupies venues placement member := by
  rw [Dict.mem_entriesOf, List.mem_flatMap]
  constructor
  · rintro ⟨p, hp, h⟩
    obtain ⟨rfl, occupied⟩ := mem_membersOf.mp h
    exact ⟨hp, occupied⟩
  · rintro ⟨hp, occupied⟩
    exact ⟨placement, hp, mem_membersOf.mpr ⟨rfl, occupied⟩⟩

/-- A placement is entered once under each member. -/
theorem nodup_entriesOf_members {placements : List SchedulingPlacementFacts} {venues : VenueSchedulingSnapshot}
    (members : ∀ space ∈ venues.spaces, space.memberIds.Nodup) (unique : placements.Nodup) (member : Uuid) :
    (Dict.entriesOf member (placements.flatMap (membersOf venues))).Nodup := by
  rw [Dict.entriesOf_flatMap, List.nodup_flatMap]
  constructor
  · intro placement _
    unfold membersOf
    split
    · exact List.nodup_nil
    · rename_i space hs
      obtain ⟨hspace, _⟩ := Option.filter_eq_some_iff.mp hs
      have once := members space (List.mem_reverse.mp (List.mem_of_find?_eq_some hspace))
      simp only [Dict.entriesOf, List.filter_map, Function.comp_def, List.filter_eq, List.map_replicate]
      exact List.nodup_replicate.mpr (List.nodup_iff_count_le_one.mp once member)
  · refine List.Pairwise.imp (fun {p q} hne x hx hx' => hne ?_) unique
    obtain ⟨hp, _⟩ := mem_membersOf.mp (Dict.mem_entriesOf.mp hx)
    obtain ⟨hq, _⟩ := mem_membersOf.mp (Dict.mem_entriesOf.mp hx')
    rw [← hp, ← hq]

/-- What a comparison of two placements adds. -/
theorem add_mem_comparePlacements {left right : SchedulingPlacementFacts}
    {finding : SchedulingFinding} : .add finding ∈ comparePlacements left right ↔
      (roomEnvelopesConflict left.envelope right.envelope = true ∧
        finding = pairFinding venuesSchedulingConflictSource .candidateRoomOverlap .blocker
          left.occurrence.id right.occurrence.id) ∨
      (permittedTurnoverWindow left.envelope right.envelope ≠ none ∧
        finding = pairFinding venuesSchedulingConflictSource .turnoverOverlap .warning
          left.occurrence.id right.occurrence.id) := by
  unfold comparePlacements
  by_cases conflict : roomEnvelopesConflict left.envelope right.envelope = true
  · have noTurnover : permittedTurnoverWindow left.envelope right.envelope = none := if_pos conflict
    simp [conflict, noTurnover, addPair]
  · by_cases turnover : permittedTurnoverWindow left.envelope right.envelope = none
    · simp [conflict, turnover, onlyIf]
    · simp [conflict, turnover, onlyIf, addPair]

/-- Envelopes that conflict or turn over share some time: the sweep's early break skips neither. -/
theorem whole_overlap {left right : SchedulingEnvelope} (hl : left.Normalized) (hr : right.Normalized)
    (h : roomEnvelopesConflict left right = true ∨ permittedTurnoverWindow left right ≠ none) :
    schedulingWindowsOverlap left.whole right.whole = true := by
  have ⟨_, l₁, l₂, l₃⟩ := hl
  have ⟨_, r₁, r₂, r₃⟩ := hr
  simp only [schedulingWindowsOverlap_iff, SchedulingEnvelope.whole]
  rcases h with h | h
  · simp only [roomEnvelopesConflict_iff, schedulingWindowsOverlap_iff,
      SchedulingEnvelope.setupEffective, SchedulingEnvelope.effectiveTeardown] at h
    omega
  · unfold permittedTurnoverWindow at h
    split at h
    · exact absurd rfl h
    · dsimp only at h
      split at h
      · rename_i apart
        unfold byEffectiveStart at apart
        split at apart <;> dsimp only at apart <;> omega
      · exact absurd rfl h

section

variable {placements : List SchedulingPlacementFacts} {venues : VenueSchedulingSnapshot}
  (normalized : ∀ placement ∈ placements, placement.Normalized)
  (unique : (placements.map (·.occurrence.id)).Nodup) (members : ∀ space ∈ venues.spaces, space.memberIds.Nodup)

include normalized unique members

/-- The visits are the pairs that share a member and some time. -/
theorem exists_visit_iff {R : SchedulingPlacementFacts → SchedulingPlacementFacts → Prop}
    (symm : ∀ a ∈ placements, ∀ b ∈ placements, R a b → R b a)
    (overlap : ∀ a ∈ placements, ∀ b ∈ placements, R a b →
      schedulingWindowsOverlap a.envelope.whole b.envelope.whole = true) :
    (∃ visit ∈ sharingVisits (placements.flatMap (membersOf venues)), R visit.1 visit.2) ↔
      ∃ a ∈ placements, ∃ b ∈ placements, a.occurrence.id ≠ b.occurrence.id ∧ ShareMember venues a b ∧ R a b := by
  have entered : ∀ e ∈ placements.flatMap (membersOf venues), e.2.Normalized :=
    fun e he => normalized _ (mem_flatMap_membersOf he)
  have sorted := fun member => sortBy_perm (fun p : SchedulingPlacementFacts => p.envelope.setupStartsAt)
    (Dict.entriesOf member (placements.flatMap (membersOf venues)))
  constructor
  · rintro ⟨visit, hv, hR⟩
    obtain ⟨member, hpair, _⟩ := (mem_sharingVisits entered).mp hv
    have ⟨h₁, h₂⟩ := mem_of_mem_pairs hpair
    obtain ⟨ha, hma⟩ := mem_entriesOf_members.mp ((sorted member).mem_iff.mp h₁)
    obtain ⟨hb, hmb⟩ := mem_entriesOf_members.mp ((sorted member).mem_iff.mp h₂)
    have different := ne_of_mem_pairs
      ((sorted member).nodup_iff.mpr (nodup_entriesOf_members members unique.of_map member)) hpair
    exact ⟨_, ha, _, hb, fun same => different (List.inj_on_of_nodup_map unique ha hb same), ⟨member, hma, hmb⟩, hR⟩
  · rintro ⟨a, ha, b, hb, hne, ⟨member, hma, hmb⟩, hR⟩
    have hea := (sorted member).mem_iff.mpr (mem_entriesOf_members.mpr ⟨ha, hma⟩)
    have heb := (sorted member).mem_iff.mpr (mem_entriesOf_members.mpr ⟨hb, hmb⟩)
    have both := overlap a ha b hb hR
    rcases mem_pairs_or hea heb (fun h => hne (congrArg (·.occurrence.id) h)) with h | h
    · exact ⟨(a, b), (mem_sharingVisits entered).mpr ⟨member, h, both⟩, hR⟩
    · rw [schedulingWindowsOverlap_comm] at both
      exact ⟨(b, a), (mem_sharingVisits entered).mpr ⟨member, h, both⟩, symm a ha b hb hR⟩

/-- Comparing each pair only at its first visit loses nothing. -/
theorem mem_candidatePairs (finding : SchedulingFinding) :
    .add finding ∈ candidatePairs [] (sharingVisits (placements.flatMap (membersOf venues))) ↔
      ∃ a ∈ placements, ∃ b ∈ placements, a.occurrence.id ≠ b.occurrence.id ∧
        ShareMember venues a b ∧ .add finding ∈ comparePlacements a b := by
  have entered : ∀ e ∈ placements.flatMap (membersOf venues), e.2.Normalized :=
    fun e he => normalized _ (mem_flatMap_membersOf he)
  have placed : ∀ visit ∈ sharingVisits (placements.flatMap (membersOf venues)),
      visit.1 ∈ placements ∧ visit.2 ∈ placements := fun visit hv => by
    obtain ⟨_, h₁, h₂⟩ := mem_of_mem_sharingVisits entered hv
    exact ⟨mem_flatMap_membersOf h₁, mem_flatMap_membersOf h₂⟩
  rw [← exists_visit_iff normalized unique members (R := fun a b => .add finding ∈ comparePlacements a b),
    candidatePairs_eq, List.mem_flatMap]
  · constructor
    · rintro ⟨visit, hv, hf⟩
      exact ⟨visit, (Dict.mem_of_mem_firsts hv).1, hf⟩
    · rintro ⟨visit, hv, hf⟩
      obtain ⟨first, hfirst, hk⟩ := Dict.exists_mem_firsts hv (List.not_mem_nil (a := visitKey visit))
      have ⟨h₁, h₂⟩ := placed visit hv
      have ⟨h₃, h₄⟩ := placed first (Dict.mem_of_mem_firsts hfirst).1
      have inj := fun {x y} hx hy => List.inj_on_of_nodup_map (x := x) (y := y) unique hx hy
      refine ⟨first, hfirst, ?_⟩
      rwa [comparePlacements_of_key ⟨normalized _ h₁, normalized _ h₂⟩ _ hk]
      simp only [List.forall_mem_cons, List.not_mem_nil, false_implies, implies_true, and_true]
      exact ⟨⟨inj h₃ h₁, inj h₃ h₂⟩, inj h₄ h₁, inj h₄ h₂⟩
  · intro a ha b hb h
    rwa [comparePlacements_comm (normalized b hb) (normalized a ha)]
  · intro a ha b hb h
    refine whole_overlap (normalized a ha).envelope (normalized b hb).envelope ?_
    exact (add_mem_comparePlacements.mp h).imp (·.1) (·.1)

end

/-! ## Busy periods -/

/-- The finding about a placement that only touches a busy source. -/
def busyTurnoverFinding (occurrence : Uuid) : SchedulingFinding where
  sourceCode := venuesSchedulingConflictSource
  code := .turnoverOverlap
  severity := .warning
  occurrenceId := occurrence

theorem foldl_or (l : List (Bool × Bool)) (start : Bool × Bool) :
    l.foldl (fun previous met => (previous.1 || met.1, previous.2 || met.2)) start =
      (start.1 || l.any (·.1), start.2 || l.any (·.2)) := by
  induction l generalizing start with
  | nil => simp
  | cons met l ih => rw [List.foldl_cons, ih, List.any_cons, List.any_cons, Bool.or_assoc, Bool.or_assoc]

/-- What each busy period does to each placement that it meets. -/
def busyEntries (placements : List SchedulingPlacementFacts) (venues : VenueSchedulingSnapshot) :
    List ((Uuid × Uuid) × Bool × Bool) :=
  venues.busyPeriods.flatMap fun busy => (busyPlacements (members placements venues) busy).filterMap (interaction busy)

theorem mem_busyEntries {placements : List SchedulingPlacementFacts}
    {venues : VenueSchedulingSnapshot} {occurrence source : Uuid} {met : Bool × Bool} :
    ((occurrence, source), met) ∈ busyEntries placements venues ↔
      ∃ placement ∈ placements, ∃ busy clique, Meets venues placement busy ∧
        placement.envelope.clique busy.conflictGroup = some clique ∧
        (placement.occurrence.id = occurrence ∧ busy.sourceKey = source) ∧
        (schedulingWindowsOverlap clique busy.window,
          schedulingWindowsOverlap placement.envelope.whole busy.window) = met := by
  simp only [busyEntries, members, List.mem_flatMap, List.mem_filterMap, busyPlacements_groups,
    mem_entriesOf_members, interaction]
  constructor
  · rintro ⟨busy, hb, placement, ⟨hp, occupied⟩, h⟩
    split at h
    · cases h
    · rename_i foreign
      obtain ⟨clique, hc, h⟩ := Option.map_eq_some_iff.mp h
      simp only [Prod.mk.injEq] at h
      exact ⟨placement, hp, busy, clique, ⟨hb, occupied, foreign⟩, hc, h.1, h.2⟩
  · rintro ⟨placement, hp, busy, clique, ⟨hb, occupied, foreign⟩, hc, ⟨rfl, rfl⟩, rfl⟩
    refine ⟨busy, hb, placement, ⟨hp, occupied⟩, ?_⟩
    rw [if_neg foreign, hc]
    rfl

/-- The interactions report the placements that some source touches and does not block. -/
theorem mem_interactionFindings {placements : List SchedulingPlacementFacts} (venues : VenueSchedulingSnapshot)
    (unique : (placements.map (·.occurrence.id)).Nodup) {finding : SchedulingFinding}
    (h : finding.code ≠ .reservedRoomOverlap) :
    .add finding ∈ (interactions (members placements venues) venues).flatMap interactionFindings ↔
      ∃ placement ∈ placements, BusyTurnover venues placement ∧
        finding = busyTurnoverFinding placement.occurrence.id := by
  have reported : ∀ occurrence source blocked touching,
      .add finding ∈ interactionFindings ((occurrence, source), blocked, touching) ↔
        blocked = false ∧ touching = true ∧ finding = busyTurnoverFinding occurrence := by
    intro occurrence source blocked touching
    cases blocked with
    | false => cases touching <;> simp [interactionFindings, onlyIf, add, busyTurnoverFinding]
    | true =>
      have other : finding ≠ ⟨venuesSchedulingConflictSource, .reservedRoomOverlap, .blocker, occurrence, none⟩ := by
        rintro rfl
        exact h rfl
      simp [interactionFindings, add, other]
  have item : ∀ key met, (key, met) ∈ interactions (members placements venues) venues ↔
      (∃ a, (key, a) ∈ busyEntries placements venues) ∧
        ((Dict.entriesOf key (busyEntries placements venues)).any (·.1),
          (Dict.entriesOf key (busyEntries placements venues)).any (·.2)) = met := by
    intro key met
    rw [interactions, Dict.mem_collect, foldl_or]
    simp only [Bool.false_or]
    rfl
  rw [List.mem_flatMap]
  simp only [Prod.exists, reported, item, Prod.mk.injEq]
  constructor
  · rintro ⟨occurrence, source, blocked, touching, ⟨_, hblocked, htouching⟩, rfl, rfl, rfl⟩
    simp only [List.any_eq_true, Dict.mem_entriesOf, Prod.exists] at htouching
    obtain ⟨_, _, hmet, htouch⟩ := htouching
    obtain ⟨placement, hp, busy, clique, hmeets, hc, ⟨rfl, rfl⟩, hwin⟩ := mem_busyEntries.mp hmet
    refine ⟨placement, hp, ⟨busy.sourceKey, ⟨busy, clique, hmeets, rfl, hc, ?_⟩, ?_⟩, rfl⟩
    · exact (congrArg Prod.snd hwin).trans htouch
    · intro busy' clique' hmeets' hsource hc'
      have hmet' := mem_busyEntries.mpr ⟨placement, hp, busy', clique', hmeets', hc', ⟨rfl, hsource⟩, rfl⟩
      simpa using List.any_eq_false.mp hblocked _ (Dict.mem_entriesOf.mpr hmet')
  · rintro ⟨placement, hp, ⟨source, ⟨busy, clique, hmeets, hsource, hc, htouch⟩, free⟩, rfl⟩
    have hmet := mem_busyEntries.mpr ⟨placement, hp, busy, clique, hmeets, hc, ⟨rfl, hsource⟩, rfl⟩
    refine ⟨placement.occurrence.id, source, false, true, ⟨⟨_, _, hmet⟩, ?_, ?_⟩, rfl, rfl, rfl⟩
    · refine List.any_eq_false.mpr fun met hm => ?_
      obtain ⟨placement', hp', busy', clique', hmeets', hc', ⟨hid, hsource'⟩, rfl⟩ :=
        mem_busyEntries.mp (Dict.mem_entriesOf.mp hm)
      obtain rfl := List.inj_on_of_nodup_map unique hp' hp hid
      simp [free busy' clique' hmeets' hsource' hc']
    · exact List.any_eq_true.mpr ⟨_, Dict.mem_entriesOf.mpr hmet, htouch⟩

/-! ## The evaluation -/

/-- The findings about placements that only touch a busy source. -/
def IsBusyTurnover (placements : List SchedulingPlacementFacts)
    (venues : Option VenueSchedulingSnapshot) (finding : SchedulingFinding) : Prop :=
  ∃ snapshot, VenueSchedulingSnapshot.pinned venues = some snapshot ∧ ∃ placement ∈ placements,
    BusyTurnover snapshot placement ∧ finding = busyTurnoverFinding placement.occurrence.id

/-- The codes that the overlaps are reported with. -/
def IsOverlapCode (code : SchedulingConflictCode) : Prop :=
  code = .hostOverlap ∨ code = .candidateRoomOverlap ∨ code = .turnoverOverlap

theorem not_mem_of_single {calls : List FindingCall} (single : Every IsSingle calls)
    {finding : SchedulingFinding} (h : IsOverlapCode finding.code) : .add finding ∉ calls := by
  intro hf
  obtain ⟨_, h₁, h₂, h₃⟩ := single _ hf
  rcases h with h | h | h
  · exact h₁ h
  · exact h₂ h
  · exact h₃ h

section

variable {placements : List SchedulingPlacementFacts} (normalized : ∀ placement ∈ placements, placement.Normalized)
  (unique : (placements.map (·.occurrence.id)).Nodup) {finding : SchedulingFinding} (h : IsOverlapCode finding.code)

include normalized unique h

theorem mem_programmeFindings {programme : Option ProgrammeSchedulingSnapshot} :
    .add finding ∈ programmeFindings placements programme ↔ finding ∈ hostOverlaps placements programme := by
  have unavailable : .add finding ∉ [add programmeSchedulingConflictSource .programmeUnavailable .unavailable] :=
    not_mem_of_single (by simp [SchedulingConflictCode.severity]) h
  rw [hostOverlaps, mem_pairwiseFindings unique (fun a _ b _ h => h.imp fun _ h => ⟨h.1, h.2.symm⟩)]
  unfold programmeFindings ProgrammeSchedulingSnapshot.pinned
  cases programme with
  | none => simpa using unavailable
  | some snapshot =>
    by_cases contract : snapshot.contract = programmeSchedulingConflictSource
    · have items : .add finding ∉ placements.flatMap (itemFindings snapshot) :=
        not_mem_of_single (every_flatMap.mpr fun p _ => itemFindings_single snapshot p) h
      simp only [ne_eq, contract, not_true_eq_false, if_false, List.mem_append, items, false_or,
        mem_peopleFindings normalized]
      simp [contract]
    · simpa [contract] using unavailable

theorem mem_venueFindings {venues : Option VenueSchedulingSnapshot}
    (members : ∀ snapshot, venues = some snapshot → ∀ space ∈ snapshot.spaces, space.memberIds.Nodup) :
    .add finding ∈ venueFindings placements venues ↔ finding ∈ roomOverlaps placements venues ∨
      finding ∈ turnoverOverlaps placements venues ∨ IsBusyTurnover placements venues finding := by
  have unavailable : .add finding ∉ [add venuesSchedulingConflictSource .venueUnavailable .unavailable] :=
    not_mem_of_single (by simp [SchedulingConflictCode.severity]) h
  have reserved : finding.code ≠ .reservedRoomOverlap := by
    rintro hcode
    rw [hcode] at h
    rcases h with h | h | h <;> cases h
  rw [roomOverlaps, turnoverOverlaps,
    mem_pairwiseFindings unique (fun a _ b _ h => h.imp fun _ h => ⟨h.1, h.2.symm⟩),
    mem_pairwiseFindings unique
      (fun a ha b hb h => h.imp fun _ h => ⟨h.1, h.2.symm (normalized a ha) (normalized b hb)⟩)]
  unfold venueFindings IsBusyTurnover VenueSchedulingSnapshot.pinned
  cases venues with
  | none => simpa using unavailable
  | some snapshot =>
    by_cases contract : snapshot.contract = venuesSchedulingConflictSource
    · have rooms : .add finding ∉ placements.flatMap (roomFindings snapshot) :=
        not_mem_of_single (every_flatMap.mpr fun p _ => roomFindings_single snapshot p) h
      have busy : .add finding ∉
        snapshot.busyPeriods.flatMap (busyCalls (Dict.groups (placements.flatMap (membersOf snapshot)))) :=
        not_mem_of_single (every_flatMap.mpr fun p _ => busyCalls_single _ p) h
      have visits := mem_candidatePairs normalized unique (members snapshot rfl) finding
      have met := mem_interactionFindings snapshot unique reserved
      simp only [sharingVisits, add_mem_comparePlacements] at visits
      rw [Scheduling.members] at met
      simp only [ne_eq, contract, not_true_eq_false, if_false, busyFindings, Scheduling.members,
        List.mem_append, rooms, busy,
        false_or, visits, met, Option.filter_some, decide_true, if_true, Option.some.injEq, exists_eq_left',
        RoomsConflict, RoomsTurnOver]
      rw [← or_assoc]
      refine or_congr_left ⟨?_, ?_⟩
      · rintro ⟨a, ha, b, hb, hne, share, ⟨conflict, hf⟩ | ⟨turnover, hf⟩⟩
        · exact .inl ⟨a, ha, b, hb, hne, ⟨share, conflict⟩, hf⟩
        · exact .inr ⟨a, ha, b, hb, hne, ⟨share, turnover⟩, hf⟩
      · rintro (⟨a, ha, b, hb, hne, ⟨share, conflict⟩, hf⟩ | ⟨a, ha, b, hb, hne, ⟨share, turnover⟩, hf⟩)
        · exact ⟨a, ha, b, hb, hne, share, .inl ⟨conflict, hf⟩⟩
        · exact ⟨a, ha, b, hb, hne, share, .inr ⟨turnover, hf⟩⟩
    · simpa [contract] using unavailable

end

/-- What an evaluation within the limits ends with. -/
theorem evaluateSchedulingFacts_eq_ok (order : SetOrder SchedulingFinding) {placements : List SchedulingPlacementFacts}
    {edition : Option SchedulingWindow} {programme : Option ProgrammeSchedulingSnapshot}
    {venues : Option VenueSchedulingSnapshot} (complete : CompleteManifest placements)
    (normalized : ∀ placement ∈ placements, placement.Normalized)
    (within : compared (evaluationCalls placements edition programme venues) ≤ maxConflictComparisons ∧
      (added (evaluationCalls placements edition programme venues)).card ≤ maxConflicts) :
    evaluateSchedulingFacts order placements edition programme venues =
      .ok (sortBy SchedulingFinding.key (order.list (added (evaluationCalls placements edition programme venues)))) := by
  have accepted := (evaluationCalls_settled normalized edition programme venues).accepted
  rw [evaluateSchedulingFacts, if_neg (not_not.mpr complete), run_eq accepted, if_pos within]

section

variable (order : SetOrder SchedulingFinding) {placements : List SchedulingPlacementFacts}
  {edition : Option SchedulingWindow} {programme : Option ProgrammeSchedulingSnapshot}
  {venues : Option VenueSchedulingSnapshot} {findings : List SchedulingFinding}
  (h : evaluateSchedulingFacts order placements edition programme venues = .ok findings)

include h

theorem completeManifest_of_ok : CompleteManifest placements := by
  by_contra hc
  rw [evaluateSchedulingFacts, if_pos hc] at h
  cases h

variable (normalized : ∀ placement ∈ placements, placement.Normalized) (unlimited : evaluationLimit ∉ findings)

include normalized unlimited

/-- An evaluation within the limits reports what its calls add, each once. -/
theorem evaluated_iff : findings.Nodup ∧
    ∀ finding, finding ∈ findings ↔ .add finding ∈ evaluationCalls placements edition programme venues := by
  have accepted := (evaluationCalls_settled normalized edition programme venues).accepted
  rw [evaluateSchedulingFacts, if_neg (not_not.mpr (completeManifest_of_ok order h))] at h
  split at h
  · rename_i collected hrun
    obtain rfl := Except.ok.inj h
    refine ⟨(sortBy_perm _ _).nodup_iff.mpr (order.nodup _), fun finding => ?_⟩
    rw [(sortBy_perm _ _).mem_iff, order.mem_list, run_eq_ok accepted hrun, mem_added]
  · obtain rfl := Except.ok.inj h
    exact absurd (List.mem_singleton_self _) unlimited
  · cases h

/-- The overlaps that an evaluation within the limits reports. -/
theorem mem_findings_iff (members : ∀ snapshot, venues = some snapshot → ∀ space ∈ snapshot.spaces,
    space.memberIds.Nodup) (finding : SchedulingFinding) (code : IsOverlapCode finding.code) :
    finding ∈ findings ↔ finding ∈ hostOverlaps placements programme ∨ finding ∈ roomOverlaps placements venues ∨
      finding ∈ turnoverOverlaps placements venues ∨ IsBusyTurnover placements venues finding := by
  have unique := (completeManifest_of_ok order h).2
  have unknown : .add finding ∉
      onlyIf (edition = none) [add schedulingTimeConflictSource .editionUnavailable .unavailable] :=
    not_mem_of_single (by simp [SchedulingConflictCode.severity]) code
  have time : .add finding ∉ placements.flatMap (timeFindings · edition) :=
    not_mem_of_single (every_flatMap.mpr fun p hp => timeFindings_single (normalized p hp) edition) code
  rw [(evaluated_iff order h normalized unlimited).2, evaluationCalls]
  simp only [List.mem_append, unknown, time, false_or, mem_programmeFindings normalized unique code,
    mem_venueFindings normalized unique code members]

/-- An evaluation within the limits reports exactly the overlaps of every two placements, each
once; a turnover with no second placement is one with a busy period. -/
theorem evaluateSchedulingFacts_pairwise
    (members : ∀ snapshot, venues = some snapshot → ∀ space ∈ snapshot.spaces, space.memberIds.Nodup) :
    findings.Nodup ∧
    (findings.filter fun finding => finding.code = .hostOverlap).Perm (hostOverlaps placements programme) ∧
    (findings.filter fun finding => finding.code = .candidateRoomOverlap).Perm (roomOverlaps placements venues) ∧
    (findings.filter fun finding => finding.code = .turnoverOverlap ∧
      finding.otherOccurrenceId ≠ none).Perm (turnoverOverlaps placements venues) ∧
    ∀ finding, finding.code = .turnoverOverlap → finding.otherOccurrenceId = none →
      (finding ∈ findings ↔ IsBusyTurnover placements venues finding) := by
  have unique := (completeManifest_of_ok order h).2
  have once := (evaluated_iff order h normalized unlimited).1
  have overlap := mem_findings_iff order h normalized unlimited members
  have host : ∀ f ∈ hostOverlaps placements programme, f.code = .hostOverlap ∧ f.otherOccurrenceId ≠ none :=
    fun _ => code_of_mem_pairwise
  have room : ∀ f ∈ roomOverlaps placements venues, f.code = .candidateRoomOverlap ∧ f.otherOccurrenceId ≠ none :=
    fun _ => code_of_mem_pairwise
  have turn : ∀ f ∈ turnoverOverlaps placements venues, f.code = .turnoverOverlap ∧ f.otherOccurrenceId ≠ none :=
    fun _ => code_of_mem_pairwise
  have busy : ∀ f, IsBusyTurnover placements venues f → f.code = .turnoverOverlap ∧ f.otherOccurrenceId = none := by
    rintro _ ⟨_, _, _, _, _, rfl⟩
    exact ⟨rfl, rfl⟩
  refine ⟨once, ?_, ?_, ?_, ?_⟩
  · refine (List.perm_ext_iff_of_nodup (once.filter _) (nodup_pairwiseFindings unique)).mpr fun f => ?_
    rw [List.mem_filter, decide_eq_true_iff]
    constructor
    · rintro ⟨hf, code⟩
      rcases (overlap _ (.inl code)).mp hf with hf | hf | hf | hf
      · exact hf
      · exact absurd (code.symm.trans (room f hf).1) nofun
      · exact absurd (code.symm.trans (turn f hf).1) nofun
      · exact absurd (code.symm.trans (busy f hf).1) nofun
    · exact fun hf => ⟨(overlap _ (.inl (host f hf).1)).mpr (.inl hf), (host f hf).1⟩
  · refine (List.perm_ext_iff_of_nodup (once.filter _) (nodup_pairwiseFindings unique)).mpr fun f => ?_
    rw [List.mem_filter, decide_eq_true_iff]
    constructor
    · rintro ⟨hf, code⟩
      rcases (overlap _ (.inr (.inl code))).mp hf with hf | hf | hf | hf
      · exact absurd (code.symm.trans (host f hf).1) nofun
      · exact hf
      · exact absurd (code.symm.trans (turn f hf).1) nofun
      · exact absurd (code.symm.trans (busy f hf).1) nofun
    · exact fun hf => ⟨(overlap _ (.inr (.inl (room f hf).1))).mpr (.inr (.inl hf)), (room f hf).1⟩
  · refine (List.perm_ext_iff_of_nodup (once.filter _) (nodup_pairwiseFindings unique)).mpr fun f => ?_
    rw [List.mem_filter, decide_eq_true_iff]
    constructor
    · rintro ⟨hf, code, pair⟩
      rcases (overlap _ (.inr (.inr code))).mp hf with hf | hf | hf | hf
      · exact absurd (code.symm.trans (host f hf).1) nofun
      · exact absurd (code.symm.trans (room f hf).1) nofun
      · exact hf
      · exact absurd (busy f hf).2 pair
    · exact fun hf => ⟨(overlap _ (.inr (.inr (turn f hf).1))).mpr (.inr (.inr (.inl hf))), turn f hf⟩
  · intro f code alone
    rw [overlap _ (.inr (.inr code))]
    constructor
    · rintro (hf | hf | hf | hf)
      · exact absurd (code.symm.trans (host f hf).1) nofun
      · exact absurd (code.symm.trans (room f hf).1) nofun
      · exact absurd alone (turn f hf).2
      · exact hf
    · exact fun hf => .inr (.inr (.inr hf))

end

/-- The opening and the panel need one person at once, and their rooms conflict. -/
theorem fair_pairwise : ∃ findings,
    evaluateSchedulingFacts listOrder [opening, panel] (some opening.day.window) (some fairProgramme) (some fairVenues) =
      .ok findings ∧ evaluationLimit ∉ findings ∧ findings.Nodup ∧
    (findings.filter fun finding => finding.code = .hostOverlap).Perm
      (hostOverlaps [opening, panel] (some fairProgramme)) ∧
    (findings.filter fun finding => finding.code = .candidateRoomOverlap).Perm
      (roomOverlaps [opening, panel] (some fairVenues)) ∧
    (findings.filter fun finding => finding.code = .turnoverOverlap ∧
      finding.otherOccurrenceId ≠ none).Perm (turnoverOverlaps [opening, panel] (some fairVenues)) ∧
    ∀ finding, finding.code = .turnoverOverlap → finding.otherOccurrenceId = none →
      (finding ∈ findings ↔ IsBusyTurnover [opening, panel] (some fairVenues) finding) := by
  have normalized : ∀ placement ∈ [opening, panel], placement.Normalized := by
    simpa using ⟨opening_normalized, panel_normalized⟩
  have evaluated := @evaluateSchedulingFacts_eq_ok listOrder [opening, panel] (some opening.day.window)
    (some fairProgramme) (some fairVenues) (by decide) normalized (by decide +kernel)
  have unlimited : evaluationLimit ∉ sortBy SchedulingFinding.key (listOrder.list (added (evaluationCalls
      [opening, panel] (some opening.day.window) (some fairProgramme) (some fairVenues)))) := by
    rw [(sortBy_perm _ _).mem_iff, listOrder.mem_list]
    decide +kernel
  have members : ∀ snapshot, some fairVenues = some snapshot → ∀ space ∈ snapshot.spaces, space.memberIds.Nodup := by
    rintro _ ⟨⟩
    decide
  exact ⟨_, evaluated, unlimited, evaluateSchedulingFacts_pairwise listOrder evaluated normalized unlimited members⟩

/-- A single placement that touches a busy period is reported with a turnover that is none of any
two placements. -/
theorem opening_turnover : ∃ findings,
    evaluateSchedulingFacts listOrder [opening] (some opening.day.window) (some fairProgramme)
      (some fairVenues) = .ok findings ∧ evaluationLimit ∉ findings ∧
    ¬ (findings.filter fun finding => finding.code = .turnoverOverlap).Perm
      (turnoverOverlaps [opening] (some fairVenues)) := by
  have normalized : ∀ placement ∈ [opening], placement.Normalized := by
    simpa using opening_normalized
  have evaluated := @evaluateSchedulingFacts_eq_ok listOrder [opening] (some opening.day.window)
    (some fairProgramme) (some fairVenues) (by decide) normalized (by decide +kernel)
  refine ⟨_, evaluated, ?_, fun perm => ?_⟩
  · rw [(sortBy_perm _ _).mem_iff, listOrder.mem_list]
    decide +kernel
  · have reported : busyTurnoverFinding 1 ∈ (sortBy SchedulingFinding.key (listOrder.list (added (evaluationCalls
        [opening] (some opening.day.window) (some fairProgramme) (some fairVenues))))).filter
          fun finding => finding.code = .turnoverOverlap := by
      rw [List.mem_filter, (sortBy_perm _ _).mem_iff, listOrder.mem_list]
      decide +kernel
    exact List.not_mem_nil (perm.mem_iff.mp reported)

end Maru.Scheduling

import Maru.Scheduling.CandidateLineage
import Maru.Scheduling.CommandHistory

/-!
# The history of candidates

What every run of the six commands on candidates keeps, between whatever the other
Scheduling commands do (`candidateMachine_history`): the revisions of a candidate are
numbered from one to its version, each with a manifest that is the one it was digested
with; a write appends one revision, whose manifest is what the command says of an earlier
one; and nothing that was appended changes, nor an archived candidate.
-/

namespace Maru.Scheduling

/-! ## Runs -/

/-- The commands on candidates, with their arguments and what other owners answer them. -/
inductive CandidateCommand
  | create (label : String) (expectedControlVersion : Int)
  | copy (history : Bool) (sourceRevisionId : Uuid) (label : String) (expectedControlVersion : Int)
  | restore (history : Bool) (candidateId sourceRevisionId : Uuid) (expectedVersion : Int)
  | archive (candidateId : Uuid) (expectedVersion : Int)
  | remove (candidateId occurrenceId : Uuid) (expectedVersion : Int)
  | set (dependencies : Except SchedulingCommandError Unit) (candidateId : Uuid)
      (placement : SchedulingPlacementInput) (expectedVersion : Int)

variable (lib : Primitives) (isoformat : Int → String)

def CandidateCommand.command (draws : Draws) (request : SchedulingCommandRequest) : CandidateCommand → Command Planning
  | .create label version => createSchedulingCandidate lib draws label version
  | .copy history source label version => copySchedulingCandidate lib draws history request source label version
  | .restore history candidateId source version =>
    restoreSchedulingCandidate lib draws history request candidateId source version
  | .archive candidateId version => archiveSchedulingCandidate lib draws candidateId version
  | .remove candidateId occurrenceId version => removeSchedulingPlacement lib draws candidateId occurrenceId version
  | .set dependencies candidateId placement version =>
    setSchedulingPlacement lib draws isoformat dependencies request candidateId placement version

/-- An execution of a command on candidates, or what the other Scheduling commands leave,
who write no candidate. -/
inductive CandidateStep
  | command (world : World) (request : SchedulingCommandRequest) (draws : Draws) (receiptId : Uuid)
      (command : CandidateCommand)
  | others (controls : Table SchedulingEditionControl.editionId) (receipts : Receipts) (structure_ : Structure)

def candidateMachine : Machine (Store Planning) CandidateStep (Option Answer) SchedulingCommandError where
  exec store
    | .command world request draws receiptId command => do
      let (store, answer) ← execute lib world (command.command lib isoformat draws request) request receiptId store
      return (store, some answer)
    | .others controls receipts structure_ => return (⟨controls, receipts, { store.rows with structure_ }⟩, none)

def Planning.empty (structure_ : Structure) : Planning := ⟨structure_, ∅, ∅, ∅, ∅, []⟩

/-! ## What holds of every state -/

/-- The revisions of a candidate, in the order they were appended. -/
def Planning.revisionsOf (planning : Planning) (candidateId : Uuid) : List SchedulingCandidateRevision :=
  planning.revisions.rows.filter (·.candidateId = candidateId)

structure Planning.Consistent (planning : Planning) : Prop where
  numbered : ∀ candidate ∈ planning.candidates,
    (planning.revisionsOf candidate.id).map (·.sequence) = List.range' 1 candidate.aggregateVersion
  owned : ∀ revision ∈ planning.revisions, ∃ candidate ∈ planning.candidates, candidate.id = revision.candidateId ∧
    candidate.organizationId = revision.organizationId ∧ candidate.editionId = revision.editionId
  occurrences : ∀ revision ∈ planning.revisions, ((planning.manifest revision).map Prod.fst).Nodup
  counts : ∀ revision ∈ planning.revisions, (planning.manifest revision).length = revision.placementCount
  digests : ∀ revision ∈ planning.revisions,
    manifestDigest lib (planning.manifest revision) = revision.manifestDigest
  members : ∀ member ∈ planning.members, (∃ revision ∈ planning.revisions, revision.id = member.revisionId) ∧
    ∃ placement ∈ planning.placements, placement.id = member.placementId

/-! ## What a command does -/

/-- The placement that a manifest has for an occurrence. -/
def Manifest.placed? (manifest : Manifest) (occurrenceId : Uuid) : Option Uuid :=
  (manifest.find? (·.1 = occurrenceId)).map (·.2)

/-- One revision is appended to one candidate that is not archived; nothing else changes. -/
structure Extended (planning planning' : Planning) (revision : SchedulingCandidateRevision) : Prop where
  revisions : planning'.revisions.rows = planning.revisions.rows ++ [revision]
  manifests : ∀ r ∈ planning.revisions, planning'.manifest r = planning.manifest r
  placements : ∀ placement ∈ planning.placements, placement ∈ planning'.placements
  others : ∀ c ∈ planning.candidates, c.id ≠ revision.candidateId → c ∈ planning'.candidates
  draft : ∀ c ∈ planning.candidates, c.id = revision.candidateId → c.lifecycle = .draft

/-- The revision before the appended one. -/
def Planning.IsCurrent (planning : Planning) (candidateId : Uuid) (revision : SchedulingCandidateRevision) : Prop :=
  revision ∈ planning.revisions ∧ revision.candidateId = candidateId ∧
    ∃ candidate ∈ planning.candidates, candidate.id = candidateId ∧ revision.sequence = candidate.aggregateVersion

/-- The manifest of the revision that a command appended, from the manifests before. -/
def CandidateCommand.Manifests (planning planning' : Planning)
    (revision : SchedulingCandidateRevision) : CandidateCommand → Prop
  | .create _ _ => (∀ c ∈ planning.candidates, c.id ≠ revision.candidateId) ∧ planning'.manifest revision = []
  | .copy _ sourceRevisionId _ _ => (∀ c ∈ planning.candidates, c.id ≠ revision.candidateId) ∧
    ∃ source ∈ planning.revisions, source.id = sourceRevisionId ∧
      planning'.manifest revision = planning.manifest source
  | .restore _ candidateId sourceRevisionId _ => revision.candidateId = candidateId ∧
    ∃ source ∈ planning.revisions, source.id = sourceRevisionId ∧ source.candidateId = candidateId ∧
      planning'.manifest revision = planning.manifest source
  | .archive candidateId _ => revision.candidateId = candidateId ∧
    (∃ candidate ∈ planning'.candidates, candidate.id = candidateId ∧ candidate.lifecycle = .archived) ∧
    ∃ previous, planning.IsCurrent candidateId previous ∧ planning'.manifest revision = planning.manifest previous
  | .remove candidateId occurrenceId _ => revision.candidateId = candidateId ∧
    ∃ previous, planning.IsCurrent candidateId previous ∧
      ((planning.manifest previous).placed? occurrenceId).isSome ∧
      (planning'.manifest revision).placed? occurrenceId = none ∧
      ∀ o, o ≠ occurrenceId → (planning'.manifest revision).placed? o = (planning.manifest previous).placed? o
  | .set _ candidateId placement _ => revision.candidateId = candidateId ∧
    ∃ previous, planning.IsCurrent candidateId previous ∧
      (∃ p ∈ planning'.placements, p.introducedIn = revision.id ∧
        (planning'.manifest revision).placed? placement.occurrenceId = some p.id ∧
        (planning.manifest previous).placed? placement.occurrenceId ≠ some p.id) ∧
      ∀ o, o ≠ placement.occurrenceId →
        (planning'.manifest revision).placed? o = (planning.manifest previous).placed? o

/-! ## One write -/

section

variable {lib} {planning planning' : Planning} {candidate : SchedulingCandidate}
  {revision : SchedulingCandidateRevision} {members : Manifest}

theorem mem_revisions (w : RevisionWritten lib planning planning' candidate revision members)
    {r : SchedulingCandidateRevision} :
    r ∈ planning'.revisions ↔ r ∈ planning.revisions ∨ r = revision := by
  rw [Table.mem_def, w.appended.revisions, List.mem_append, List.mem_singleton, Table.mem_def]

theorem RevisionWritten.extended (w : RevisionWritten lib planning planning' candidate revision members) :
    Extended planning planning' revision where
  revisions := w.appended.revisions
  manifests _ hr := w.manifest_kept hr
  placements := w.appended.placements
  others c hc other := (w.advanced.mem c).mpr (.inl ⟨hc, w.candidateId ▸ other⟩)
  draft c hc same := by
    rcases w.advanced.version with ⟨fresh, _⟩ | ⟨c', hc', hid, _, _, hdraft, _⟩
    · exact absurd (same.trans w.candidateId) (fresh c hc)
    · rwa [Table.eq_of_key hc hc' (same.trans (w.candidateId.trans hid.symm))]

theorem Planning.Consistent.placed (h : planning.Consistent lib) {r : SchedulingCandidateRevision} {entry : Uuid × Uuid}
    (he : entry ∈ planning.manifest r) : ∃ placement ∈ planning.placements, placement.id = entry.2 :=
  (h.members _ (mem_manifest.mp he)).2

theorem RevisionWritten.manifest (w : RevisionWritten lib planning planning' candidate revision members)
    (h : planning.Consistent lib) :
    planning'.manifest revision = sortBy (·.1) members := by
  refine w.manifest_new fun member hm same => ?_
  obtain ⟨⟨r, hr, hid⟩, _⟩ := h.members member hm
  exact w.appended.fresh r hr (hid.trans same)

/-- A write of a manifest whose placements are there keeps the state consistent. -/
theorem RevisionWritten.consistent (w : RevisionWritten lib planning planning' candidate revision members)
    (h : planning.Consistent lib)
    (placed : ∀ entry ∈ members, ∃ placement ∈ planning'.placements, placement.id = entry.2) :
    planning'.Consistent lib where
  numbered c hc := by
    have split : planning'.revisionsOf c.id =
        planning.revisionsOf c.id ++ if revision.candidateId = c.id then [revision] else [] := by
      rw [Planning.revisionsOf, w.appended.revisions, List.filter_append, List.filter_singleton]
      simp [Planning.revisionsOf, Bool.cond_eq_ite]
    rw [split]
    rcases (w.advanced.mem c).mp hc with ⟨hc, other⟩ | rfl
    · rw [if_neg (fun same => other (same.symm.trans w.candidateId)), List.append_nil]
      exact h.numbered c hc
    · rw [if_pos w.candidateId, List.map_append, List.map_singleton, w.sequence]
      rcases w.advanced.version with ⟨fresh, first⟩ | ⟨c', hc', hid, _, _, _, next⟩
      · have none : planning.revisionsOf c.id = [] := by
          rw [Planning.revisionsOf, List.filter_eq_nil_iff]
          intro r hr
          obtain ⟨owner, ho, same, _⟩ := h.owned r hr
          simpa [← same] using fresh owner ho
        rw [none, first]
        rfl
      · rw [← hid, h.numbered c' hc', next, List.range'_concat]
        simp [Nat.add_comm]
  owned r hr := by
    rcases (mem_revisions w).mp hr with hr | rfl
    · obtain ⟨c, hc, hid, horg, hed⟩ := h.owned r hr
      by_cases same : c.id = candidate.id
      · refine ⟨candidate, (w.advanced.mem _).mpr (.inr rfl), same.symm.trans hid, ?_⟩
        rcases w.advanced.version with ⟨fresh, _⟩ | ⟨c', hc', hid', horg', hed', _⟩
        · exact absurd same (fresh c hc)
        · obtain rfl := Table.eq_of_key hc hc' (same.trans hid'.symm)
          exact ⟨horg'.symm.trans horg, hed'.symm.trans hed⟩
      · exact ⟨c, (w.advanced.mem c).mpr (.inl ⟨hc, same⟩), hid, horg, hed⟩
    · exact ⟨candidate, (w.advanced.mem _).mpr (.inr rfl), w.candidateId.symm, w.organizationId.symm, w.editionId.symm⟩
  occurrences r hr := by
    rcases (mem_revisions w).mp hr with hr | rfl
    · rw [w.manifest_kept hr]
      exact h.occurrences r hr
    · rw [w.manifest h]
      exact ((sortBy_perm _ members).map Prod.fst).nodup_iff.mpr w.appended.occurrences
  counts r hr := by
    rcases (mem_revisions w).mp hr with hr | rfl
    · rw [w.manifest_kept hr]
      exact h.counts r hr
    · rw [w.manifest h, w.appended.placementCount]
      exact (sortBy_perm _ members).length_eq
  digests r hr := by
    rcases (mem_revisions w).mp hr with hr | rfl
    · rw [w.manifest_kept hr]
      exact h.digests r hr
    · rw [w.manifest h, w.appended.manifestDigest]
      exact (manifestDigest_perm w.appended.occurrences (sortBy_perm _ members).symm).symm
  members member hm := by
    rw [Table.mem_def, w.appended.members, List.mem_append, ← Table.mem_def] at hm
    rcases hm with hm | hm
    · obtain ⟨⟨r, hr, hid⟩, placement, hp, hpid⟩ := h.members member hm
      exact ⟨⟨r, (mem_revisions w).mpr (.inl hr), hid⟩, placement, w.appended.placements placement hp, hpid⟩
    · obtain ⟨entry, he, rfl⟩ := List.mem_map.mp hm
      obtain ⟨placement, hp, hid⟩ := placed entry he
      exact ⟨⟨revision, (mem_revisions w).mpr (.inr rfl), rfl⟩, placement, hp, hid⟩

/-- The entries of an earlier manifest, written again. -/
theorem RevisionWritten.manifest_eq (w : RevisionWritten lib planning planning' candidate revision members)
    (h : planning.Consistent lib) {r : SchedulingCandidateRevision} (same : members = planning.manifest r) :
    planning'.manifest revision = planning.manifest r := by
  rw [w.manifest h, same]
  exact List.Pairwise.insertionSort_eq (manifest_sorted planning r)

end

/-! ## Entries -/

section

variable {members : Manifest} (occurrenceId : Uuid)

theorem placed?_sortBy (nodup : (members.map Prod.fst).Nodup) :
    Manifest.placed? (sortBy (·.1) members) occurrenceId = members.placed? occurrenceId := by
  have sorted := ((sortBy_perm (·.1) members).map Prod.fst).nodup_iff.mpr nodup
  rw [Manifest.placed?, find?_key_perm sorted (sortBy_perm _ _), Manifest.placed?]

variable {occurrenceId}

theorem placed?_remove_self : Manifest.placed? (members.filter (·.1 ≠ occurrenceId)) occurrenceId = none := by
  rw [Manifest.placed?, List.find?_eq_none.mpr]
  · rfl
  · intro entry he
    simpa using (List.mem_filter.mp he).2

theorem placed?_remove_other {o : Uuid} (other : o ≠ occurrenceId) :
    Manifest.placed? (members.filter (·.1 ≠ occurrenceId)) o = members.placed? o := by
  rw [Manifest.placed?, List.find?_filter, Manifest.placed?]
  congr 2
  funext entry
  by_cases same : entry.1 = o
  · simp [same, other]
  · simp [same]

theorem placed?_append_self {placementId : Uuid} (absent : members.placed? occurrenceId = none) :
    Manifest.placed? (members ++ [(occurrenceId, placementId)]) occurrenceId = some placementId := by
  rw [Manifest.placed?, Option.map_eq_none_iff] at absent
  rw [Manifest.placed?, List.find?_append, absent]
  simp

theorem placed?_append_other {placementId o : Uuid} (other : o ≠ occurrenceId) :
    Manifest.placed? (members ++ [(occurrenceId, placementId)]) o = members.placed? o := by
  rw [Manifest.placed?, List.find?_append, Manifest.placed?]
  simp [Ne.symm other]

theorem placed?_mem {placementId : Uuid} (h : members.placed? occurrenceId = some placementId) :
    (occurrenceId, placementId) ∈ members := by
  obtain ⟨entry, found, rfl⟩ := Option.map_eq_some_iff.mp h
  have same := holds_of_find? found
  rw [← same]
  exact List.mem_of_find?_eq_some found

end

/-! ## The commands -/

section

variable {lib isoformat} {draws : Draws} {context : CommandTransaction} {store : Store Planning}
  {planning : Planning} {objectId : Uuid} {version : Nat}

/-- What a command's write leaves. -/
def CandidateCommand.Wrote (command : CandidateCommand) (planning planning' : Planning) : Prop :=
  planning'.Consistent lib ∧ ∃ candidate revision members,
    RevisionWritten lib planning planning' candidate revision members ∧
      command.Manifests planning planning' revision ∧ Derived planning planning' candidate revision

/-- A revision that is written to a candidate steps back to the candidate's earlier ones. -/
theorem RevisionWritten.stepsTo {planning' : Planning} {candidate next : SchedulingCandidate}
    {revision r : SchedulingCandidateRevision} {members : Manifest}
    (w : RevisionWritten lib planning planning' next revision members) (h : planning.Consistent lib)
    (hmem : candidate ∈ planning.candidates) (same : next.id = candidate.id) (hr : r ∈ planning.revisions)
    (own : r.candidateId = candidate.id) : revision.StepsTo r ∧ revision.Beside r ∧ 1 < revision.sequence := by
  obtain ⟨owner, ho, is, organization, edition⟩ := h.owned r hr
  obtain rfl := Table.eq_of_key ho hmem (is.trans own)
  have numbered : r.sequence ∈ List.range' 1 owner.aggregateVersion :=
    h.numbered owner hmem ▸ List.mem_map_of_mem (List.mem_filter.mpr ⟨hr, decide_eq_true own⟩)
  rw [List.mem_range'_1] at numbered
  rcases w.advanced.version with ⟨fresh, -⟩ | ⟨c, hc, hid, horg, hed, -, version⟩
  · exact absurd same.symm (fresh owner hmem)
  · obtain rfl := Table.eq_of_key hc hmem (hid.trans same)
    have sequence := w.sequence.trans version
    refine ⟨.inl ⟨own.trans (same.symm.trans w.candidateId.symm), by omega⟩, ⟨?_, ?_⟩, by omega⟩
    · rw [w.organizationId, ← horg, organization]
    · rw [w.editionId, ← hed, edition]

theorem createSchedulingCandidate_write {label title : String} {expected : Int} (h : store.rows.Consistent lib)
    (hw : (createSchedulingCandidate lib draws label expected).write context title () store =
      .ok (planning, objectId, version)) :
    @CandidateCommand.Wrote lib (.create label expected) store.rows planning := by
  simp only [createSchedulingCandidate, bind_eq_ok, pure_eq_ok, Prod.mk.injEq] at hw
  obtain ⟨_, _, ⟨p, candidate⟩, hcreate, q, happend, rfl, _⟩ := hw
  obtain ⟨advanced, organization, edition, creator, fresh, rest⟩ := createCandidate_eq_ok hcreate
  obtain ⟨revision, is, w, _⟩ := written_of_append_pure advanced rest organization edition happend
  have first : revision.sequence = 1 := by
    rcases advanced.version with ⟨-, first⟩ | ⟨c, hc, same, -⟩
    · exact w.sequence.trans first
    · exact absurd same (fresh c hc)
  refine ⟨w.consistent h (by simp), candidate, revision, [], w, ⟨?_, w.manifest h⟩, ?_, fun _ => ?_, ?_⟩
  · rwa [w.candidateId]
  · refine .created (fun s hs same => ?_) first (by rw [is]; rfl) (by rw [is]; rfl)
    obtain ⟨c, hc, owns, -⟩ := h.owned s hs
    exact fresh c hc (owns.trans (same.trans w.candidateId))
  · rw [is]
    exact creator
  · rw [w.manifest h]
    intro entry he
    cases he

theorem copySchedulingCandidate_write {history : Bool} {request : SchedulingCommandRequest} {sourceRevisionId : Uuid}
    {label title : String} {expected : Int} {prepared : SchedulingCandidateRevision × Manifest}
    (h : store.rows.Consistent lib)
    (same : context.request.organizationId = request.organizationId ∧ context.request.editionId = request.editionId)
    (hp : historicalSource lib history request sourceRevisionId store.rows = .ok prepared)
    (hw : (copySchedulingCandidate lib draws history request sourceRevisionId label expected).write context title
      prepared store = .ok (planning, objectId, version)) :
    @CandidateCommand.Wrote lib (.copy history sourceRevisionId label expected) store.rows planning := by
  obtain ⟨source, members⟩ := prepared
  obtain ⟨hsource, hid, hmembers, itsOrganization, itsEdition⟩ := historicalSource_eq_ok hp
  simp only [copySchedulingCandidate, bind_eq_ok, pure_eq_ok, Prod.mk.injEq] at hw
  obtain ⟨_, _, ⟨p, candidate⟩, hcreate, q, happend, rfl, _⟩ := hw
  obtain ⟨advanced, organization, edition, creator, fresh, rest⟩ := createCandidate_eq_ok hcreate
  obtain ⟨revision, is, w, kept⟩ := written_of_append_pure advanced rest organization edition happend
  have first : revision.sequence = 1 := by
    rcases advanced.version with ⟨-, first⟩ | ⟨c, hc, same, -⟩
    · exact w.sequence.trans first
    · exact absurd same (fresh c hc)
  have operation : revision.operation = .candidateCopy := by rw [is]; rfl
  have from_ : revision.sourceRevisionId = some source.id := by rw [is]; rfl
  have beside : revision.Beside source := by
    rw [is]
    exact ⟨itsOrganization.trans same.1.symm, itsEdition.trans same.2.symm⟩
  refine ⟨w.consistent h (fun entry he => ?_), candidate, revision, members, w,
    ⟨?_, source, hsource, hid, w.manifest_eq h hmembers⟩, ?_, fun _ => ?_, fun entry he => ?_⟩
  · rw [kept]
    exact h.placed (hmembers ▸ he)
  · rwa [w.candidateId]
  · refine .copied (fun s hs same => ?_) first operation hsource from_ beside
    obtain ⟨c, hc, owns, -⟩ := h.owned s hs
    exact fresh c hc (owns.trans (same.trans w.candidateId))
  · rw [is]
    exact creator
  · rw [w.manifest_eq h hmembers] at he
    exact .inl ⟨source, hsource, .inr ⟨operation, from_⟩, beside, he⟩

theorem restoreSchedulingCandidate_write {history : Bool} {request : SchedulingCommandRequest}
    {candidateId sourceRevisionId : Uuid} {expected : Int} {prepared : SchedulingCandidateRevision × Manifest}
    (h : store.rows.Consistent lib)
    (hp : historicalSource lib history request sourceRevisionId store.rows = .ok prepared)
    (hw : (restoreSchedulingCandidate lib draws history request candidateId sourceRevisionId expected).write context
      sourceRevisionId prepared store = .ok (planning, objectId, version)) :
    @CandidateCommand.Wrote lib (.restore history candidateId sourceRevisionId expected) store.rows planning := by
  obtain ⟨source, members⟩ := prepared
  obtain ⟨hsource, hid, hmembers, -⟩ := historicalSource_eq_ok hp
  simp only [restoreSchedulingCandidate, bind_eq_ok, require_eq_ok, pure_eq_ok, Prod.mk.injEq] at hw
  obtain ⟨candidate, hlocked, _, hsame, q, happend, rfl, _⟩ := hw
  obtain ⟨hmem, hcid, draft, horg, hed⟩ := lockedCandidate_eq_ok hlocked
  obtain ⟨advanced, organization, edition, hcid', _, rest⟩ := advance_eq rfl hmem draft
  obtain ⟨revision, is, w, kept⟩ :=
    written_of_append_pure advanced rest (organization.trans horg) (edition.trans hed) happend
  obtain ⟨steps, beside, later⟩ := w.stepsTo h hmem hcid' hsource hsame
  have own : source.candidateId = revision.candidateId := hsame.trans (hcid'.symm.trans w.candidateId.symm)
  refine ⟨w.consistent h (fun entry he => ?_), _, revision, members, w, ⟨w.candidateId.trans (hcid'.trans hcid),
    source, hsource, hid, hsame.trans hcid, w.manifest_eq h hmembers⟩,
    .restored later (by rw [is]; rfl) hsource (by rw [is]; rfl) own, fun first => ?_, fun entry he => ?_⟩
  · rw [kept]
    exact h.placed (hmembers ▸ he)
  · omega
  · rw [w.manifest_eq h hmembers] at he
    exact .inl ⟨source, hsource, steps, beside, he⟩

theorem archiveSchedulingCandidate_write {candidateId : Uuid} {expected : Int} (h : store.rows.Consistent lib)
    (hw : (archiveSchedulingCandidate lib draws candidateId expected).write context candidateId () store =
      .ok (planning, objectId, version)) :
    @CandidateCommand.Wrote lib (.archive candidateId expected) store.rows planning := by
  simp only [archiveSchedulingCandidate, bind_eq_ok, pure_eq_ok, Prod.mk.injEq] at hw
  obtain ⟨candidate, hlocked, current, hcurrent, members, hload, q, happend, rfl, _⟩ := hw
  obtain ⟨hmem, hcid, draft, horg, hed⟩ := lockedCandidate_eq_ok hlocked
  obtain ⟨hrevision, howner, hsequence⟩ := currentRevision_eq_ok hcurrent
  have hmembers := loadManifest_eq_ok hload
  obtain ⟨advanced, organization, edition, hcid', archived, rest⟩ := advance_eq rfl hmem draft
  obtain ⟨revision, is, w, kept⟩ :=
    written_of_append_pure advanced rest (organization.trans horg) (edition.trans hed) happend
  obtain ⟨steps, beside, later⟩ := w.stepsTo h hmem hcid' hrevision howner
  refine ⟨w.consistent h (fun entry he => ?_), _, revision, members, w, ⟨w.candidateId.trans (hcid'.trans hcid),
    ⟨_, (w.advanced.mem _).mpr (.inr rfl), hcid'.trans hcid, archived rfl⟩,
    current, ⟨hrevision, howner.trans hcid, candidate, hmem, hcid, hsequence⟩, w.manifest_eq h hmembers⟩,
    .edited later (by rw [is]; simp [newRevision]) (by rw [is]; rfl), fun first => ?_, fun entry he => ?_⟩
  · rw [kept]
    exact h.placed (hmembers ▸ he)
  · omega
  · rw [w.manifest_eq h hmembers] at he
    exact .inl ⟨current, hrevision, steps, beside, he⟩

theorem removeSchedulingPlacement_write {candidateId occurrenceId : Uuid} {expected : Int}
    (h : store.rows.Consistent lib)
    (hw : (removeSchedulingPlacement lib draws candidateId occurrenceId expected).write context occurrenceId () store =
      .ok (planning, objectId, version)) :
    @CandidateCommand.Wrote lib (.remove candidateId occurrenceId expected) store.rows planning := by
  simp only [removeSchedulingPlacement, bind_eq_ok, require_eq_ok, pure_eq_ok, Prod.mk.injEq] at hw
  obtain ⟨candidate, hlocked, current, hcurrent, members, hload, _, hfound, q, happend, rfl, _⟩ := hw
  obtain ⟨hmem, hcid, draft, horg, hed⟩ := lockedCandidate_eq_ok hlocked
  obtain ⟨hrevision, howner, hsequence⟩ := currentRevision_eq_ok hcurrent
  obtain rfl := loadManifest_eq_ok hload
  obtain ⟨advanced, organization, edition, hcid', _, rest⟩ := advance_eq rfl hmem draft
  obtain ⟨revision, is, w, kept⟩ :=
    written_of_append_pure advanced rest (organization.trans horg) (edition.trans hed) happend
  obtain ⟨steps, beside, later⟩ := w.stepsTo h hmem hcid' hrevision howner
  refine ⟨w.consistent h (fun entry he => ?_), _, revision, _, w, ⟨w.candidateId.trans (hcid'.trans hcid),
    current, ⟨hrevision, howner.trans hcid, candidate, hmem, hcid, hsequence⟩, ?_, ?_, fun o other => ?_⟩,
    .edited later (by rw [is]; simp [newRevision]) (by rw [is]; rfl), fun first => ?_, fun entry he => ?_⟩
  · rw [kept]
    exact h.placed (List.mem_of_mem_filter he)
  · -- Something was filtered out, and only the occurrence's entry is.
    rw [Option.isSome_iff_ne_none, ne_eq]
    intro absent
    refine hfound (congrArg List.length (List.filter_eq_self.mpr fun entry he => ?_))
    rw [Manifest.placed?, Option.map_eq_none_iff, List.find?_eq_none] at absent
    simpa using absent entry he
  · rw [w.manifest h, placed?_sortBy _ w.appended.occurrences, placed?_remove_self]
  · rw [w.manifest h, placed?_sortBy _ w.appended.occurrences, placed?_remove_other other]
  · omega
  · rw [w.manifest h, (sortBy_perm _ _).mem_iff] at he
    exact .inl ⟨current, hrevision, steps, beside, List.mem_of_mem_filter he⟩

theorem setSchedulingPlacement_write (isoformat : Int → String) (request : SchedulingCommandRequest)
    {dependencies : Except SchedulingCommandError Unit} {candidateId : Uuid}
      {placement intent : SchedulingPlacementInput}
    {expected : Int} {sources : PlacementSources} (h : store.rows.Consistent lib)
    (hi : intent.occurrenceId = placement.occurrenceId)
    (hw : (setSchedulingPlacement lib draws isoformat dependencies request candidateId placement expected).write context
      intent sources store = .ok (planning, objectId, version)) :
    @CandidateCommand.Wrote lib (.set dependencies candidateId placement expected) store.rows planning := by
  simp only [setSchedulingPlacement, bind_eq_ok, require_eq_ok, pure_eq_ok, Prod.mk.injEq] at hw
  obtain ⟨candidate, hlocked, current, hcurrent, members, hload, _, _, q, happend, rfl, _⟩ := hw
  obtain ⟨hmem, hcid, draft, horg, hed⟩ := lockedCandidate_eq_ok hlocked
  obtain ⟨hrevision, howner, hsequence⟩ := currentRevision_eq_ok hcurrent
  obtain rfl := loadManifest_eq_ok hload
  obtain ⟨advanced, organization, edition, hcid', _, rest⟩ := advance_eq rfl hmem draft
  obtain ⟨revision, is, w, before, after, hintro, hbefore, hafter⟩ :=
    written_of_append advanced rest (organization.trans horg) (edition.trans hed) happend
      fun _ _ _ hq => (introducePlacement_eq_ok hq).1
  obtain ⟨introduced, fresh, row, hrow, hrid, hintroduced, itsOrganization, itsEdition⟩ :=
    introducePlacement_eq_ok hintro
  obtain ⟨steps, beside, later⟩ := w.stepsTo h hmem hcid' hrevision howner
  rw [hbefore] at fresh
  rw [← hafter] at hrow
  have absent : Manifest.placed? ((store.rows.manifest current).filter (·.1 ≠ intent.occurrenceId))
      intent.occurrenceId = none := placed?_remove_self
  refine ⟨w.consistent h (fun entry he => ?_), _, revision, _, w, ⟨w.candidateId.trans (hcid'.trans hcid),
    current, ⟨hrevision, howner.trans hcid, candidate, hmem, hcid, hsequence⟩,
    ⟨row, hrow, hintroduced, ?_, fun same => ?_⟩, fun o other => ?_⟩,
    .edited later (by rw [is]; simp [newRevision]) (by rw [is]; rfl), fun first => ?_, fun entry he => ?_⟩
  · rcases List.mem_append.mp he with he | he
    · obtain ⟨p, hp, hid⟩ := h.placed (List.mem_of_mem_filter he)
      exact ⟨p, w.appended.placements p hp, hid⟩
    · rw [List.mem_singleton.mp he]
      exact ⟨row, hrow, hrid⟩
  · rw [← hi, w.manifest h, placed?_sortBy _ w.appended.occurrences, placed?_append_self absent, hrid]
  · -- The placement is new, so no earlier manifest has it.
    obtain ⟨p, hp, hid⟩ := h.placed (placed?_mem same)
    exact fresh p hp (hid.trans hrid)
  · rw [← hi] at other
    rw [w.manifest h, placed?_sortBy _ w.appended.occurrences, placed?_append_other other, placed?_remove_other other]
  · omega
  · rw [w.manifest h, (sortBy_perm _ _).mem_iff, List.mem_append, List.mem_singleton] at he
    rcases he with he | rfl
    · exact .inl ⟨current, hrevision, steps, beside, List.mem_of_mem_filter he⟩
    · refine .inr ⟨row, hrow, hrid, ?_, ?_, hintroduced⟩
      · rw [itsOrganization, is]
        rfl
      · rw [itsEdition, is]
        rfl

theorem SchedulingPlacementInput.normalized_occurrenceId {input intent : SchedulingPlacementInput}
    (h : input.normalized = .ok intent) : intent.occurrenceId = input.occurrenceId := by
  simp only [SchedulingPlacementInput.normalized, bind_eq_ok, pure_eq_ok] at h
  obtain ⟨_, _, _, _, _, _, _, _, _, _, _, _, rfl⟩ := h
  rfl

/-- A command that was executed repeated its answer and changed nothing, or wrote its revision. -/
theorem CandidateCommand.execute_wrote {world : World} {request : SchedulingCommandRequest} {receiptId : Uuid}
    {command : CandidateCommand} {store store' : Store Planning} {answer : Answer}
      (consistent : store.rows.Consistent lib)
    (h : execute lib world (command.command lib isoformat draws request) request receiptId store =
      .ok (store', answer)) :
    (answer.replayed = true ∧ store'.rows = store.rows) ∨
      (answer.replayed = false ∧ @CandidateCommand.Wrote lib command store.rows store'.rows) := by
  rcases Scheduling.execute_wrote h with ⟨replayed, rfl⟩ | ⟨written, kept, intent, rows, prepared, wrote⟩
  · exact .inl ⟨replayed, rfl⟩
  · refine .inr ⟨written, ?_⟩
    have hn := wrote.intent
    have hp := wrote.prepared
    have hw := wrote.written
    cases command with
    | create label version =>
      cases hp
      exact createSchedulingCandidate_write consistent hw
    | copy history source label version =>
      obtain ⟨_, hsource, hp⟩ := bind_eq_ok.mp hp
      cases hp
      exact copySchedulingCandidate_write consistent (request_normalized_scope wrote.normalized) hsource hw
    | restore history candidateId source version =>
      obtain ⟨_, hsource, hp⟩ := bind_eq_ok.mp hp
      cases hp
      obtain ⟨_, _, hn⟩ := bind_eq_ok.mp hn
      cases hn
      exact restoreSchedulingCandidate_write consistent hsource hw
    | archive candidateId version =>
      cases hp
      obtain ⟨_, _, hn⟩ := bind_eq_ok.mp hn
      cases hn
      exact archiveSchedulingCandidate_write consistent hw
    | remove candidateId occurrenceId version =>
      cases hp
      obtain ⟨_, _, hn⟩ := bind_eq_ok.mp hn
      cases hn
      exact removeSchedulingPlacement_write consistent hw
    | set dependencies candidateId placement version =>
      obtain ⟨_, _, hp⟩ := bind_eq_ok.mp hp
      obtain ⟨_, _, hp⟩ := bind_eq_ok.mp hp
      cases hp
      obtain ⟨_, _, hn⟩ := bind_eq_ok.mp hn
      exact setSchedulingPlacement_write isoformat request consistent
        (SchedulingPlacementInput.normalized_occurrenceId hn) hw

end

/-! ## Runs of the commands -/

/-- What a step did to the candidates. -/
def CandidateStep.Outcome (planning planning' : Planning) (answer : Option Answer) : CandidateStep → Prop
  | .command _ _ _ _ c => ∃ receipt replayed, answer = some ⟨receipt, replayed⟩ ∧
    if replayed then planning' = planning
    else ∃ revision, Extended planning planning' revision ∧ c.Manifests planning planning' revision
  | .others _ _ structure_ => answer = none ∧ planning' = { planning with structure_ }

/-- What later steps leave of the candidates. -/
structure Kept (planning planning' : Planning) : Prop where
  revisions : ∀ revision ∈ planning.revisions, revision ∈ planning'.revisions
  manifests : ∀ revision ∈ planning.revisions, planning'.manifest revision = planning.manifest revision
  placements : ∀ placement ∈ planning.placements, placement ∈ planning'.placements
  archived : ∀ candidate ∈ planning.candidates, candidate.lifecycle = .archived →
    candidate ∈ planning'.candidates ∧ planning'.revisionsOf candidate.id = planning.revisionsOf candidate.id

section

variable {lib isoformat} {planning planning' : Planning}

theorem Extended.kept {revision : SchedulingCandidateRevision}
    (h : Extended planning planning' revision) : Kept planning planning' where
  revisions r hr := by
    rw [Table.mem_def, h.revisions]
    exact List.mem_append_left _ hr
  manifests := h.manifests
  placements := h.placements
  archived c hc archived := by
    have other : c.id ≠ revision.candidateId := fun same => by
      rw [h.draft c hc same] at archived
      cases archived
    refine ⟨h.others c hc other, ?_⟩
    rw [Planning.revisionsOf, h.revisions, List.filter_append, List.filter_singleton]
    simp [Ne.symm other, Planning.revisionsOf]

theorem Kept.trans {later : Planning} (h : Kept planning planning')
    (h' : Kept planning' later) : Kept planning later where
  revisions r hr := h'.revisions r (h.revisions r hr)
  manifests r hr := (h'.manifests r (h.revisions r hr)).trans (h.manifests r hr)
  placements p hp := h'.placements p (h.placements p hp)
  archived c hc archived := by
    obtain ⟨hc', same⟩ := h.archived c hc archived
    obtain ⟨hc'', same'⟩ := h'.archived c hc' archived
    exact ⟨hc'', same'.trans same⟩

theorem Kept.refl (planning : Planning) : Kept planning planning :=
  ⟨fun _ h => h, fun _ _ => rfl, fun _ h => h, fun _ hc _ => ⟨hc, rfl⟩⟩

theorem candidateMachine_step {store store' : Store Planning} {step : CandidateStep}
    {answer : Option Answer} (consistent : store.rows.Consistent lib)
    (h : (candidateMachine lib isoformat).exec store step = .ok (store', answer)) :
    store'.rows.Consistent lib ∧ step.Outcome store.rows store'.rows answer ∧ Kept store.rows store'.rows := by
  cases step with
  | others controls receipts structure_ =>
    cases h
    exact ⟨⟨consistent.numbered, consistent.owned, consistent.occurrences, consistent.counts, consistent.digests,
      consistent.members⟩, ⟨rfl, rfl⟩, fun _ h => h, fun _ _ => rfl, fun _ h => h, fun _ hc _ => ⟨hc, rfl⟩⟩
  | command world request draws receiptId command =>
    obtain ⟨⟨next, ⟨receipt, replayed⟩⟩, he, h⟩ := bind_eq_ok.mp h
    cases h
    rcases CandidateCommand.execute_wrote consistent he with ⟨again, same⟩ | ⟨first, wrote,
      _, revision, _, w, manifests, -⟩
    · dsimp only at again
      subst again
      rw [same]
      exact ⟨consistent, ⟨receipt, true, rfl, rfl⟩, Kept.refl _⟩
    · dsimp only at first
      subst first
      exact ⟨wrote, ⟨receipt, false, rfl, revision, w.extended, manifests⟩, w.extended.kept⟩

theorem consistent_empty (structure_ : Structure) : (Planning.empty structure_).Consistent lib :=
  ⟨fun _ h => absurd h Table.not_mem_empty, fun _ h => absurd h Table.not_mem_empty,
    fun _ h => absurd h Table.not_mem_empty, fun _ h => absurd h Table.not_mem_empty,
    fun _ h => absurd h Table.not_mem_empty, fun _ h => absurd h Table.not_mem_empty⟩

end

/-- After every run of the commands, and whatever runs next. -/
theorem candidateMachine_history (structure_ : Structure) (steps : List CandidateStep) :
    let machine := candidateMachine lib isoformat
    let store := machine.run (Store.empty (Planning.empty structure_)) steps
    store.rows.Consistent lib ∧
      (∀ step store' answer, machine.exec store step = .ok (store', answer) →
        step.Outcome store.rows store'.rows answer) ∧
      ∀ later, Kept store.rows (machine.run store later).rows := by
  intro machine store
  have consistent : store.rows.Consistent lib :=
    Machine.run_invariant (I := fun s : Store Planning => s.rows.Consistent lib)
      (fun _ _ _ _ hs he => (candidateMachine_step hs he).1) (consistent_empty structure_) steps
  refine ⟨consistent, fun step store' answer he => (candidateMachine_step consistent he).2.1, fun later => ?_⟩
  have kept := Machine.run_invariant
    (I := fun s : Store Planning => s.rows.Consistent lib ∧ Kept store.rows s.rows) (M := machine)
    (fun _ _ _ _ hs he => ⟨(candidateMachine_step hs.1 he).1, hs.2.trans (candidateMachine_step hs.1 he).2.2⟩)
    ⟨consistent, Kept.refl _⟩ later
  exact kept.2

end Maru.Scheduling

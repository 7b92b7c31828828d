import Maru.Scheduling.Candidates
import Maru.Scheduling.CommandHistory

/-!
# What the commands on candidates write

Each of the six commands appends one revision to one candidate, with the members of its
manifest (`RevisionWritten`). The lemmas before it read the helpers of the commands backwards.
-/

namespace Maru.Scheduling

variable {lib : Primitives} {planning planning' : Planning} {context : CommandTransaction}

/-! ## Manifests -/

/-- The row of one entry of a revision's manifest. -/
def memberOf (revision : SchedulingCandidateRevision) (entry : Uuid × Uuid) : SchedulingCandidateMember :=
  ⟨revision.organizationId, revision.editionId, revision.id, entry.1, entry.2⟩

theorem manifest_sorted (planning : Planning) (revision : SchedulingCandidateRevision) :
    (planning.manifest revision).Pairwise fun a b => a.1 ≤ b.1 :=
  sortBy_sorted _ _

theorem mem_manifest {revision : SchedulingCandidateRevision} {entry : Uuid × Uuid} :
    entry ∈ planning.manifest revision ↔ memberOf revision entry ∈ planning.members := by
  rw [Planning.manifest, (sortBy_perm _ _).mem_iff]
  simp only [List.mem_map, List.mem_filter, decide_eq_true_eq]
  constructor
  · rintro ⟨⟨_, _, _, _, _⟩, ⟨hm, rfl, rfl, rfl⟩, rfl⟩
    exact hm
  · exact fun h => ⟨_, ⟨h, rfl, rfl, rfl⟩, rfl⟩

/-- Occurrences with their placements, whatever their order, have one digest. -/
theorem manifestDigest_perm {members members' : Manifest} (nodup : (members.map Prod.fst).Nodup)
    (h : members.Perm members') : manifestDigest lib members = manifestDigest lib members' := by
  have inj : ∀ a ∈ members, ∀ b ∈ members, a.1.text = b.1.text → a = b := fun a ha b hb same =>
    List.inj_on_of_nodup_map nodup ha hb (Uuid.text_injective same)
  rw [manifestDigest, manifestDigest, sortBy_eq_of_perm inj h]

theorem loadManifest_eq_ok {revision : SchedulingCandidateRevision} {members : Manifest}
    (h : loadManifest lib planning revision = .ok members) : members = planning.manifest revision := by
  simp only [loadManifest, bind_eq_ok, require_eq_ok, pure_eq_ok] at h
  obtain ⟨_, ⟨hlen, _⟩, rfl⟩ := h
  rw [List.length_take] at hlen
  exact List.take_of_length_le (by omega)

theorem historicalSource_eq_ok {history : Bool} {request : SchedulingCommandRequest}
    {revisionId : Uuid} {revision : SchedulingCandidateRevision} {members : Manifest}
    (h : historicalSource lib history request revisionId planning = .ok (revision, members)) :
    revision ∈ planning.revisions ∧ revision.id = revisionId ∧ members = planning.manifest revision ∧
      revision.organizationId = request.organizationId ∧ revision.editionId = request.editionId := by
  simp only [historicalSource, bind_eq_ok, require_eq_ok, getOr_eq_ok, pure_eq_ok, Prod.mk.injEq,
    Option.filter_eq_some_iff, Table.get?_eq_some] at h
  obtain ⟨_, _, _, ⟨⟨hmem, hid⟩, scope⟩, _, hload, rfl, rfl⟩ := h
  exact ⟨hmem, hid, loadManifest_eq_ok hload, of_decide_eq_true scope⟩

/-! ## Candidates -/

theorem lockedCandidate_eq_ok {candidateId : Uuid} {expectedVersion : Int} {terminal : Bool}
    {candidate : SchedulingCandidate}
    (h : lockedCandidate planning context candidateId expectedVersion terminal = .ok candidate) :
    candidate ∈ planning.candidates ∧ candidate.id = candidateId ∧ candidate.lifecycle = .draft ∧
      candidate.organizationId = context.request.organizationId ∧ candidate.editionId = context.request.editionId := by
  simp only [lockedCandidate, bind_eq_ok, require_eq_ok, getOr_eq_ok, pure_eq_ok,
    Option.filter_eq_some_iff, Table.get?_eq_some, decide_eq_true_eq] at h
  obtain ⟨_, ⟨⟨hmem, hid⟩, horg, hed⟩, _, _, _, hdraft, _, _, rfl⟩ := h
  exact ⟨hmem, hid, hdraft, horg, hed⟩

theorem currentRevision_eq_ok {candidate : SchedulingCandidate} {revision : SchedulingCandidateRevision}
    (h : currentRevision planning candidate = .ok revision) :
    revision ∈ planning.revisions ∧ revision.candidateId = candidate.id ∧
      revision.sequence = candidate.aggregateVersion := by
  have found := getOr_eq_ok.mp h
  have hp := holds_of_find? found
  exact ⟨List.mem_of_find?_eq_some found, hp.2.2.1, hp.2.2.2⟩

theorem createMembers_eq_ok {revision : SchedulingCandidateRevision}
    (organization : context.request.organizationId = revision.organizationId)
    (edition : context.request.editionId = revision.editionId)
    {rows rows' : Table SchedulingCandidateMember.key} {members : Manifest}
    (h : createMembers context revision.id rows members = .ok rows') :
    rows'.rows = rows.rows ++ members.map (memberOf revision) := by
  induction members generalizing rows with
  | nil =>
    obtain rfl := pure_eq_ok.mp h
    simp
  | cons entry members ih =>
    simp only [createMembers, bind_eq_ok, require_eq_ok, getOr_eq_ok, organization, edition] at h
    obtain ⟨_, _, next, hnext, h⟩ := h
    rw [ih h, (Table.insert?_eq_some.mp hnext).2, List.map_cons, List.append_assoc]
    rfl

/-- No edition has more candidates than it may. -/
def Planning.CandidatesFew (planning : Planning) : Prop :=
  ∀ organizationId editionId, (planning.candidates.rows.countP fun candidate =>
    candidate.organizationId = organizationId ∧ candidate.editionId = editionId) ≤ maxCandidates

/-- The new row of the candidate in the place of the one that it advances, if there is one. -/
structure Advanced (planning planning' : Planning) (candidate : SchedulingCandidate) : Prop where
  mem : ∀ c, c ∈ planning'.candidates ↔ (c ∈ planning.candidates ∧ c.id ≠ candidate.id) ∨ c = candidate
  version : ((∀ c ∈ planning.candidates, c.id ≠ candidate.id) ∧ candidate.aggregateVersion = 1) ∨
    ∃ c ∈ planning.candidates, c.id = candidate.id ∧ c.organizationId = candidate.organizationId ∧
      c.editionId = candidate.editionId ∧ c.lifecycle = .draft ∧ candidate.aggregateVersion = c.aggregateVersion + 1
  creator : ∀ c ∈ planning.candidates, c.id = candidate.id → c.createdById = candidate.createdById
  few : planning.CandidatesFew → planning'.CandidatesFew

theorem createCandidate_eq_ok {candidateId : Uuid} {candidate : SchedulingCandidate}
    (h : createCandidate planning context candidateId = .ok (planning', candidate)) :
    Advanced planning planning' candidate ∧ candidate.organizationId = context.request.organizationId ∧
      candidate.editionId = context.request.editionId ∧ candidate.createdById = context.request.actorId ∧
      (∀ c ∈ planning.candidates, c.id ≠ candidate.id) ∧
      planning' = { planning with candidates := planning'.candidates } := by
  simp only [createCandidate, bind_eq_ok, require_eq_ok, getOr_eq_ok, pure_eq_ok, Prod.mk.injEq] at h
  obtain ⟨_, count, candidates, hins, rfl, rfl⟩ := h
  have fresh := (Table.insert?_eq_some.mp hins).1
  refine ⟨⟨fun c => ?_, .inl ⟨fresh, rfl⟩, fun c hc same => absurd same (fresh c hc),
    fun few organization edition => ?_⟩,
    rfl, rfl, rfl, fresh, rfl⟩
  · rw [Table.mem_insert? hins]
    exact or_congr_left ⟨fun hc => ⟨hc, fresh c hc⟩, And.left⟩
  · rw [Table.countP_insert? hins]
    split
    · rename_i here
      obtain ⟨rfl, rfl⟩ := of_decide_eq_true here
      exact count
    · exact few organization edition

theorem advance_eq {candidate candidate' : SchedulingCandidate} {archive : Bool}
    (h : advance planning candidate archive = (planning', candidate')) (hmem : candidate ∈ planning.candidates)
    (draft : candidate.lifecycle = .draft) :
    Advanced planning planning' candidate' ∧ candidate'.organizationId = candidate.organizationId ∧
      candidate'.editionId = candidate.editionId ∧ candidate'.id = candidate.id ∧
      (archive = true → candidate'.lifecycle = .archived) ∧
      planning' = { planning with candidates := planning'.candidates } := by
  cases h
  refine ⟨⟨fun c => ?_, .inr ⟨candidate, hmem, rfl, rfl, rfl, draft, rfl⟩, fun c hc same => ?_,
    fun few organization edition => ?_⟩, rfl, rfl, rfl, fun h => if_pos h, rfl⟩
  · exact Table.mem_save_of_mem (r := (advance planning candidate archive).2) hmem rfl
  · obtain rfl := Table.eq_of_key hc hmem same
    rfl
  · have counted := Table.countP_save (r := (advance planning candidate archive).2) hmem rfl fun c =>
      decide (c.organizationId = organization ∧ c.editionId = edition)
    rw [show (advance planning candidate archive).2.organizationId = candidate.organizationId from rfl,
      show (advance planning candidate archive).2.editionId = candidate.editionId from rfl] at counted
    exact Nat.le_trans (Nat.le_of_eq (Nat.add_right_cancel counted)) (few organization edition)

/-! ## Revisions -/

/-- The appended revision with the rows of its manifest. -/
structure Appended (lib : Primitives) (planning planning' : Planning)
    (revision : SchedulingCandidateRevision) (members : Manifest) : Prop where
  short : members.length ≤ maxOccurrences
  occurrences : (members.map Prod.fst).Nodup
  placementCount : revision.placementCount = members.length
  manifestDigest : revision.manifestDigest = manifestDigest lib members
  fresh : ∀ r ∈ planning.revisions, r.id ≠ revision.id
  revisions : planning'.revisions.rows = planning.revisions.rows ++ [revision]
  members : planning'.members.rows = planning.members.rows ++ members.map (memberOf revision)
  placements : ∀ placement ∈ planning.placements, placement ∈ planning'.placements

section

variable {candidate : SchedulingCandidate} {revisionId : Uuid} {operation : SchedulingOperation}
  {label : String} {members : Manifest} {source : Option Uuid}
  {introduce : SchedulingCandidateRevision → Planning → Except SchedulingCommandError Planning}

/-- What `introduce` leaves alone. -/
structure Introduces (p p' : Planning) : Prop where
  candidates : p'.candidates = p.candidates
  revisions : p'.revisions = p.revisions
  members : p'.members = p.members
  placements : ∀ placement ∈ p.placements, placement ∈ p'.placements

theorem appendRevision_eq_ok
    (h : appendRevision lib planning context candidate revisionId operation label members source introduce =
      .ok planning') :
    ∃ revisions p, introduce (newRevision lib context candidate revisionId operation label members source)
        { planning with revisions } = .ok p ∧ planning'.candidates = p.candidates ∧
      planning'.placements = p.placements ∧
      (Introduces { planning with revisions } p → Appended lib planning planning'
        (newRevision lib context candidate revisionId operation label members source) members) := by
  simp only [appendRevision, bind_eq_ok, require_eq_ok, getOr_eq_ok, pure_eq_ok] at h
  obtain ⟨_, ⟨short, nodup⟩, _, _, revisions, hins, p, hintro, rows, hrows, rfl⟩ := h
  obtain ⟨fresh, inserted⟩ := Table.insert?_eq_some.mp hins
  refine ⟨revisions, p, hintro, rfl, rfl, fun kept => ⟨short, nodup, rfl, rfl, fresh, ?_, ?_, kept.placements⟩⟩
  · show p.revisions.rows = _
    rw [kept.revisions]
    exact inserted
  · have created := @createMembers_eq_ok _ (newRevision lib context candidate revisionId operation label members source)
      rfl rfl _ _ _ hrows
    rw [kept.members] at created
    exact created

theorem introducePlacement_eq_ok {placementId : Uuid} {intent : SchedulingPlacementInput}
    {sources : PlacementSources} {revision : SchedulingCandidateRevision} {p p' : Planning}
    (h : introducePlacement context placementId intent sources revision p = .ok p') :
    Introduces p p' ∧ (∀ placement ∈ p.placements, placement.id ≠ placementId) ∧
      ∃ placement ∈ p'.placements, placement.id = placementId ∧ placement.introducedIn = revision.id ∧
        placement.organizationId = context.request.organizationId ∧ placement.editionId = context.request.editionId := by
  simp only [introducePlacement, bind_eq_ok, getOr_eq_ok, pure_eq_ok] at h
  obtain ⟨placements, hins, rfl⟩ := h
  have mem := fun placement => Table.mem_insert? hins (a := placement)
  exact ⟨⟨rfl, rfl, rfl, fun placement hp => (mem placement).mpr (.inl hp)⟩,
    (Table.insert?_eq_some.mp hins).1, _, (mem _).mpr (.inr rfl), rfl, rfl, rfl, rfl⟩

/-- The write of a command: a candidate, new or advanced, and its revision. -/
structure RevisionWritten (lib : Primitives) (planning planning' : Planning) (candidate : SchedulingCandidate)
    (revision : SchedulingCandidateRevision) (members : Manifest) : Prop where
  advanced : Advanced planning planning' candidate
  appended : Appended lib planning planning' revision members
  candidateId : revision.candidateId = candidate.id
  sequence : revision.sequence = candidate.aggregateVersion
  organizationId : revision.organizationId = candidate.organizationId
  editionId : revision.editionId = candidate.editionId

section

variable {p : Planning} (advanced : Advanced planning p candidate)
  (rest : p = { planning with candidates := p.candidates })
  (organization : candidate.organizationId = context.request.organizationId)
  (edition : candidate.editionId = context.request.editionId)

include advanced rest organization edition

theorem written_of_append
    (h : appendRevision lib p context candidate revisionId operation label members source introduce = .ok planning')
    (introduces : ∀ revision q q', introduce revision q = .ok q' → Introduces q q') :
    ∃ revision, revision = newRevision lib context candidate revisionId operation label members
      source ∧ RevisionWritten lib planning planning' candidate revision members ∧
      ∃ q q', introduce revision q = .ok q' ∧ q.placements = planning.placements ∧
        planning'.placements = q'.placements := by
  obtain ⟨revisions, q, hintro, hcandidates, hplacements, append⟩ := appendRevision_eq_ok h
  have kept := introduces _ _ _ hintro
  refine ⟨_, rfl, ⟨?_, ?_, rfl, rfl, organization.symm, edition.symm⟩, _, q, hintro,
    by rw [rest], hplacements⟩
  · have candidates : planning'.candidates = p.candidates := hcandidates.trans kept.candidates
    exact ⟨fun c => by rw [candidates, advanced.mem],
      advanced.version, advanced.creator, fun few organization edition => by
      rw [candidates]
      exact advanced.few few organization edition⟩
  · have appended := append kept
    rw [rest] at appended
    exact ⟨appended.short, appended.occurrences, appended.placementCount, appended.manifestDigest,
      appended.fresh, appended.revisions, appended.members, appended.placements⟩

theorem written_of_append_pure
    (h : appendRevision lib p context candidate revisionId operation label members source = .ok planning') :
    ∃ revision, revision = newRevision lib context candidate revisionId operation label members source ∧
      RevisionWritten lib planning planning' candidate revision members ∧
        planning'.placements = planning.placements := by
  have introduces : ∀ (_ : SchedulingCandidateRevision) (q q' : Planning),
      (pure q : Except SchedulingCommandError Planning) = .ok q' → q' = q :=
    fun _ _ _ hq => (pure_eq_ok.mp hq).symm
  obtain ⟨revision, is, written, q, q', hintro, hq, placements⟩ := written_of_append advanced
    rest organization edition h fun revision q q' hq => by
      obtain rfl := introduces revision q q' hq
      exact ⟨rfl, rfl, rfl, fun _ hp => hp⟩
  obtain rfl := introduces revision q q' hintro
  exact ⟨revision, is, written, placements.trans hq⟩

end

end

namespace RevisionWritten

variable {candidate : SchedulingCandidate} {revision : SchedulingCandidateRevision}
  {members : Manifest} (w : RevisionWritten lib planning planning' candidate revision members)

include w

/-- The manifests of the revisions that were there stay. -/
theorem manifest_kept {r : SchedulingCandidateRevision} (hr : r ∈ planning.revisions) :
    planning'.manifest r = planning.manifest r := by
  have none : (members.map (memberOf revision)).filter (fun member =>
      member.organizationId = r.organizationId ∧ member.editionId = r.editionId ∧ member.revisionId = r.id) = [] := by
    rw [List.filter_eq_nil_iff]
    rintro member hm
    obtain ⟨entry, _, rfl⟩ := List.mem_map.mp hm
    have other : ¬ (memberOf revision entry).revisionId = r.id := Ne.symm (w.appended.fresh r hr)
    simp [other]
  rw [Planning.manifest, Planning.manifest, w.appended.members, List.filter_append, none, List.append_nil]

/-- The manifest of the new revision is the members it was written with. -/
theorem manifest_new (unused : ∀ member ∈ planning.members, member.revisionId ≠ revision.id) :
    planning'.manifest revision = sortBy (·.1) members := by
  have none : planning.members.rows.filter (fun member =>
      member.organizationId = revision.organizationId ∧ member.editionId = revision.editionId ∧
        member.revisionId = revision.id) = [] := by
    rw [List.filter_eq_nil_iff]
    intro member hm
    simp [unused member hm]
  have all : (members.map (memberOf revision)).filter (fun member =>
      member.organizationId = revision.organizationId ∧ member.editionId = revision.editionId ∧
        member.revisionId = revision.id) = members.map (memberOf revision) := by
    rw [List.filter_eq_self]
    intro member hm
    obtain ⟨entry, _, rfl⟩ := List.mem_map.mp hm
    simp [memberOf]
  rw [Planning.manifest, w.appended.members, List.filter_append, none, List.nil_append, all, List.map_map]
  simp [Function.comp_def, memberOf]

end RevisionWritten

end Maru.Scheduling

import Mathlib.Logic.Relation
import Maru.Scheduling.CandidateWrites

/-!
# The lineage of a revision

A revision goes back through its own candidate, and one that was copied goes on from its source
(`StepsTo`). What the commands append fits the revisions before it (`Fits`), and takes the
entries of its manifest over from a revision that it steps back to or introduces their
placement itself (`Derived`).
-/

namespace Maru.Scheduling

/-- One step back: to an earlier revision of the candidate, or to the source of a copy. -/
def SchedulingCandidateRevision.StepsTo (r s : SchedulingCandidateRevision) : Prop :=
  (s.candidateId = r.candidateId ∧ s.sequence < r.sequence) ∨
    (r.operation = .candidateCopy ∧ r.sourceRevisionId = some s.id)

/-- The revisions that one is derived from, itself included. -/
def Planning.Reaches (planning : Planning) : SchedulingCandidateRevision → SchedulingCandidateRevision → Prop :=
  Relation.ReflTransGen fun r s => s ∈ planning.revisions ∧ r.StepsTo s

/-- The revision is of the same edition. -/
def SchedulingCandidateRevision.Beside (r s : SchedulingCandidateRevision) : Prop :=
  s.organizationId = r.organizationId ∧ s.editionId = r.editionId

/-- How a revision was made from the ones before it. -/
inductive Fits (before : List SchedulingCandidateRevision) (r : SchedulingCandidateRevision) : Prop
  | created (fresh : ∀ s ∈ before, s.candidateId ≠ r.candidateId) (first : r.sequence = 1)
      (operation : r.operation = .candidateCreate) (source : r.sourceRevisionId = none)
  | copied {s : SchedulingCandidateRevision} (fresh : ∀ s ∈ before, s.candidateId ≠ r.candidateId)
      (first : r.sequence = 1)
      (operation : r.operation = .candidateCopy) (mem : s ∈ before) (source : r.sourceRevisionId = some s.id)
      (beside : r.Beside s)
  | restored {s : SchedulingCandidateRevision} (later : 1 < r.sequence) (operation : r.operation = .candidateRestore)
      (mem : s ∈ before) (source : r.sourceRevisionId = some s.id) (own : s.candidateId = r.candidateId)
  | edited (later : 1 < r.sequence)
      (operation : r.operation ∈ [SchedulingOperation.placementSet, .placementRemove, .candidateArchive])
      (source : r.sourceRevisionId = none)

/-- The revision that was appended, and where the entries of its manifest are from. -/
structure Derived (planning planning' : Planning) (candidate : SchedulingCandidate)
    (revision : SchedulingCandidateRevision) : Prop where
  fits : Fits planning.revisions.rows revision
  creator : revision.sequence = 1 → candidate.createdById = revision.actorId
  entries : ∀ entry ∈ planning'.manifest revision,
    (∃ r ∈ planning.revisions, revision.StepsTo r ∧ revision.Beside r ∧ entry ∈ planning.manifest r) ∨
      ∃ p ∈ planning'.placements, p.id = entry.2 ∧ p.organizationId = revision.organizationId ∧
        p.editionId = revision.editionId ∧ p.introducedIn = revision.id

end Maru.Scheduling

import Maru.Scheduling.Candidates

/-!
# The authors of a candidate's revision

`scheduling/release_authorship.py`, and `maru_scheduling_release_independent` of migration 0016,
which the database asks again: both go from a revision back through its candidate, and from the
first revision of a copied candidate on from the source that it was copied from. The `while True` of
the one and the `LOOP` of the other are told how often they may turn (`none`: still turning).
-/

namespace Maru.Scheduling

/-- `_ReleaseAuthorship` -/
structure ReleaseAuthorship where
  candidateRevisionId : Uuid
  authorIds : List Uuid
  provenanceDigest : String

/-- The candidate of a revision is in the scope. -/
def Planning.candidateOf (planning : Planning) (organizationId editionId : Uuid)
    (revision : SchedulingCandidateRevision) : Option SchedulingCandidate :=
  (planning.candidates.get? revision.candidateId).filter fun candidate =>
    candidate.organizationId = organizationId ∧ candidate.editionId = editionId

/-- `_scoped_revision` -/
def scopedRevision (planning : Planning) (organizationId editionId revisionId : Uuid) :
    Except SchedulingCommandError SchedulingCandidateRevision :=
  getOr .unavailable ((planning.revisions.get? revisionId).filter fun revision =>
    revision.organizationId = organizationId ∧ revision.editionId = editionId ∧
      (planning.candidateOf organizationId editionId revision).isSome)

/-- The rows that `_history` selects: those of the head's candidate up to the
head, one after the other. -/
def Planning.historyRows (planning : Planning) (head : SchedulingCandidateRevision) : List SchedulingCandidateRevision :=
  sortBy (·.sequence) (planning.revisions.rows.filter fun row =>
    row.organizationId = head.organizationId ∧ row.editionId = head.editionId ∧ row.candidateId = head.candidateId ∧
      ((planning.candidateOf head.organizationId head.editionId row).any fun candidate =>
        head.sequence ≤ candidate.aggregateVersion) ∧ row.sequence ≤ head.sequence)

/-- `valid`, for the row at a place of the history, the identifiers of the rows
before it being `earlier`. -/
def validHistoryRow (earlier : List Uuid) (sequence : Nat) (row : SchedulingCandidateRevision) : Bool :=
  if sequence = 1 then
    (row.operation = .candidateCreate && row.sourceRevisionId.isNone) ||
      (row.operation = .candidateCopy && row.sourceRevisionId.isSome)
  else if row.operation = .candidateRestore then row.sourceRevisionId.any fun source => source ∈ earlier
  else row.operation ∈ [SchedulingOperation.placementSet, .placementRemove, .candidateArchive] &&
    row.sourceRevisionId.isNone

/-- The loop of `_history` over its rows. -/
def checkHistory : List Uuid → Nat → List SchedulingCandidateRevision → Except SchedulingCommandError Unit
  | _, _, [] => return ()
  | earlier, sequence, row :: rows => do
    require (row.sequence = sequence ∧ validHistoryRow earlier sequence row) .unavailable
    checkHistory (row.id :: earlier) (sequence + 1) rows

/-- `_history` -/
def history (planning : Planning) (head : SchedulingCandidateRevision) (remaining : Nat) :
    Except SchedulingCommandError (List SchedulingCandidateRevision) := do
  require (1 ≤ head.sequence ∧ head.sequence ≤ remaining) .unavailable
  let rows := (planning.historyRows head).take (remaining + 1)
  require (rows.length = head.sequence ∧ rows.getLast?.map (·.id) = some head.id ∧
    rows.head?.map (·.actorId) = (planning.candidates.get? head.candidateId).map (·.createdById)) .unavailable
  checkHistory [] 1 rows
  return rows

/-- `history.update((row.id, row) for row in rows)`; nothing depends on the order of the rows. -/
def remember (history rows : List SchedulingCandidateRevision) : List SchedulingCandidateRevision :=
  history.filter (fun row => row.id ∉ rows.map (·.id)) ++ rows

section

variable (planning : Planning) (organizationId editionId : Uuid)

/-- The loop of `_load_release_authorship`. -/
def ancestry : (fuel : Nat) → (seenCandidates : List Uuid) → (history_ : List SchedulingCandidateRevision) →
    (head : SchedulingCandidateRevision) → Option (Except SchedulingCommandError (List SchedulingCandidateRevision))
  | 0, _, _, _ => none
  | fuel + 1, seenCandidates, history_, head =>
    if head.candidateId ∈ seenCandidates ∨ maxCandidates ≤ seenCandidates.length then some (.error .unavailable)
    else
      match history planning head (maxCandidateRevisions - history_.length) with
      | .error error => some (.error error)
      | .ok rows =>
        match rows.head?.bind (·.sourceRevisionId) with
        | none => some (.ok (remember history_ rows))
        | some source =>
          match scopedRevision planning organizationId editionId source with
          | .error error => some (.error error)
          | .ok source => ancestry fuel (head.candidateId :: seenCandidates) (remember history_ rows) source

/-- `scheduling_digest` of the exact ancestry. -/
def provenanceDigest (lib : Primitives) (rootId : Uuid)
    (history_ : List SchedulingCandidateRevision) (introduced : List (Uuid × Uuid)) : String :=
  schedulingDigest lib (.obj [("candidate_revision_id", .str rootId.text),
    ("contract", .str "programme.release.authorship@1"), ("edition_id", .str editionId.text),
    ("history", .arr ((sortBy (·.id.text) history_).map fun row =>
      .obj [("actor_id", .str row.actorId.text), ("candidate_id", .str row.candidateId.text),
        ("operation", .str row.operation.value), ("revision_id", .str row.id.text), ("sequence", .int row.sequence),
        ("source_revision_id", (row.sourceRevisionId.map fun id => Json.str id.text).getD .null)])),
    ("organization_id", .str organizationId.text),
    ("placements", .arr ((sortBy (·.1.text) introduced).map fun placement =>
      .obj [("introduced_in", .str placement.2.text), ("placement_id", .str placement.1.text)]))])

/-- `SchedulingPlacementRevision.objects.filter(...,
id__in=placement_ids).values_list("id", "introduced_in_id")` -/
def Planning.introduced (placementIds : List Uuid) : List (Uuid × Uuid) :=
  (planning.placements.rows.filter fun placement => placement.organizationId = organizationId ∧
    placement.editionId = editionId ∧ placement.id ∈ placementIds).map fun placement =>
      (placement.id, placement.introducedIn)

/-- `_load_release_authorship` after its loop. -/
def releaseAuthorship (lib : Primitives) (root : SchedulingCandidateRevision)
    (history_ : List SchedulingCandidateRevision) :
    Except SchedulingCommandError ReleaseAuthorship := do
  let manifest ← loadManifest lib planning root
  let placementIds := manifest.map Prod.snd
  let introduced := planning.introduced organizationId editionId placementIds
  require ((∀ id ∈ placementIds, id ∈ introduced.map Prod.fst) ∧
    ∀ placement ∈ introduced, placement.2 ∈ history_.map (·.id)) .unavailable
  return ⟨root.id, (history_.map (·.actorId)).dedup,
    provenanceDigest organizationId editionId lib root.id history_ introduced⟩

/-- `_load_release_authorship`; its loop may turn `fuel` times. -/
def loadReleaseAuthorship (lib : Primitives) (candidateRevisionId : Uuid) (fuel : Nat) :
    Option (Except SchedulingCommandError ReleaseAuthorship) :=
  match scopedRevision planning organizationId editionId candidateRevisionId with
  | .error error => some (.error error)
  | .ok root => (ancestry planning organizationId editionId fuel [] [] root).map fun result => do
    releaseAuthorship planning organizationId editionId lib root (← result)

/-! ## In the database -/

/-- The row that the `LOOP` selects: a revision and its candidate in the scope. -/
def selectedRevision (selected : Uuid) : Option SchedulingCandidateRevision :=
  (planning.revisions.get? selected).filter fun revision =>
    revision.organizationId = organizationId ∧ revision.editionId = editionId ∧
      (planning.candidateOf organizationId editionId revision).any fun candidate =>
        revision.sequence ≤ candidate.aggregateVersion

/-- `array_agg(... ORDER BY sequence)` of the head's candidate. -/
def Planning.segment (head : SchedulingCandidateRevision) : List SchedulingCandidateRevision :=
  sortBy (·.sequence) (planning.revisions.rows.filter fun row =>
    row.candidateId = head.candidateId ∧ row.sequence ≤ head.sequence ∧
      row.organizationId = organizationId ∧ row.editionId = editionId)

/-- The `LOOP` of `maru_scheduling_release_independent`. -/
def independentLoop (reviewer : Uuid) : (fuel : Nat) → (seen history_ : List Uuid) → (selected : Uuid) → Option Bool
  | 0, _, _, _ => none
  | fuel + 1, seen, history_, selected =>
    match selectedRevision planning organizationId editionId selected with
    | none => some false
    | some head =>
      if head.candidateId ∈ seen ∨ 100 ≤ seen.length ∨ 10000 < history_.length + head.sequence then some false
      else
        let segment := planning.segment organizationId editionId head
        if segment = [] ∨ segment.length ≠ head.sequence ∨ reviewer ∈ segment.map (·.actorId) then some false
        else
          match segment.head?.bind fun first => planning.revisions.get? first.id with
          | none => some false
          | some first =>
            if first.operation = .candidateCreate ∧ first.sourceRevisionId = none then some true
            else
              match first.operation, first.sourceRevisionId with
              | .candidateCopy, some source =>
                independentLoop reviewer fuel (head.candidateId :: seen) (history_ ++ segment.map (·.id)) source
              | _, _ => some false

/-- `maru_scheduling_release_independent` -/
def releaseIndependent (selectedRevision reviewer : Uuid) (fuel : Nat) : Option Bool :=
  independentLoop planning organizationId editionId reviewer fuel [] [] selectedRevision

end

end Maru.Scheduling

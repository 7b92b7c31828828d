import Maru.Framework.JsonBytes
import Maru.Framework.Lists
import Maru.Framework.Except
import Maru.Scheduling.Conflicts

/-!
# The mandatory artifact of a release

`scheduling/release_artifacts.py`. The payload is the JSON text of the release's references and its
selections in the order of their occurrences' texts, so it says which selections there are and not
how they were collected (`canonicalReleasePayload_eq_iff`), and a complete manifest stays far below
the bound on its bytes (`size_canonicalReleasePayload_le`). The hash is a parameter.
-/

namespace Maru.Scheduling

/-- `MAX_CANONICAL_RELEASE_BYTES` -/
def maxCanonicalReleaseBytes : Nat := 2 * 1024 * 1024

/-- `CANONICAL_RELEASE_ARTIFACT` -/
def canonicalReleaseArtifact : String := "programme.release.canonical@1"

/-- `ReleaseArtifactInvalidError` -/
inductive ReleaseArtifactError
  | invalid
deriving DecidableEq

def ReleaseArtifactError.message : ReleaseArtifactError → String
  | .invalid => "Exact canonical release artifact evidence is required."

def ReleaseArtifactError.code : ReleaseArtifactError → String
  | .invalid => "scheduling_release_artifact_invalid"

structure ReleaseArtifactSelection where
  occurrenceId : Uuid
  placementId : Uuid
  publicRenditionId : Uuid
deriving DecidableEq

structure CanonicalReleaseArtifact where
  contract : String
  payload : ByteArray
  sha256 : String
  byteLength : Int
deriving DecidableEq

/-- The document of one row in `_selections`, its keys sorted. -/
def ReleaseArtifactSelection.document (row : ReleaseArtifactSelection) : Json :=
  .obj [("occurrence_id", .str row.occurrenceId.text), ("placement_id", .str row.placementId.text),
    ("public_rendition_id", .str row.publicRenditionId.text)]

/-- The identifiers of a row are not zero. -/
def ReleaseArtifactSelection.Identified (row : ReleaseArtifactSelection) : Prop :=
  row.occurrenceId ≠ 0 ∧ row.placementId ≠ 0 ∧ row.publicRenditionId ≠ 0

instance : DecidablePred ReleaseArtifactSelection.Identified := fun _ => inferInstanceAs (Decidable (_ ∧ _))

/-- `_selections` -/
def releaseSelections (selections : List ReleaseArtifactSelection) : Except ReleaseArtifactError (List Json) := do
  require (1 ≤ selections.length ∧ selections.length ≤ maxOccurrences) .invalid
  require (∀ row ∈ selections, row.Identified) .invalid
  require ((selections.map (·.occurrenceId)).Nodup ∧ (selections.map (·.placementId)).Nodup) .invalid
  return (sortBy (·.occurrenceId.text) selections).map ReleaseArtifactSelection.document

/-- Sixty-four lowercase hexadecimal digits. -/
def IsSha256Hex (digest : String) : Prop :=
  digest.length = 64 ∧ ∀ c ∈ digest.toList, c ∈ "0123456789abcdef".toList

instance : DecidablePred IsSha256Hex := fun digest =>
  @instDecidableAnd _ _ (instDecidableEqNat _ _) (List.decidableBAll (· ∈ "0123456789abcdef".toList) digest.toList)

section

variable (sha256 : ByteArray → String) (releaseId approvalId candidateRevisionId : Uuid) (sourceSnapshotDigest : String)

/-- The document whose text is the payload, its keys sorted. Its strings are ASCII. -/
def canonicalReleaseDocument (rows : List Json) : Json :=
  .obj [("approval_id", .str approvalId.text), ("candidate_revision_id", .str candidateRevisionId.text),
    ("contract", .str canonicalReleaseArtifact), ("release_id", .str releaseId.text), ("selections", .arr rows),
    ("source_snapshot_digest", .str sourceSnapshotDigest)]

/-- `prepare_canonical_release_artifact` -/
def prepareCanonicalReleaseArtifact (selections : List ReleaseArtifactSelection) :
    Except ReleaseArtifactError CanonicalReleaseArtifact := do
  require (releaseId ≠ 0 ∧ approvalId ≠ 0 ∧ candidateRevisionId ≠ 0 ∧ IsSha256Hex sourceSnapshotDigest) .invalid
  let rows ← releaseSelections selections
  let payload := (canonicalReleaseDocument releaseId approvalId candidateRevisionId sourceSnapshotDigest rows).encode
  require (payload.size ≤ maxCanonicalReleaseBytes) .invalid
  return ⟨canonicalReleaseArtifact, payload, sha256 payload, payload.size⟩

/-- `verify_canonical_release_artifact` -/
def verifyCanonicalReleaseArtifact (artifact : CanonicalReleaseArtifact)
    (selections : List ReleaseArtifactSelection) : Except ReleaseArtifactError Unit := do
  require (0 < artifact.byteLength ∧ artifact.byteLength ≤ maxCanonicalReleaseBytes ∧
    artifact.payload.size = artifact.byteLength) .invalid
  let expected ← prepareCanonicalReleaseArtifact sha256 releaseId approvalId candidateRevisionId
    sourceSnapshotDigest selections
  require (artifact = expected) .invalid

end

/-! ## Accepted selections -/

/-- What `_selections` asks. -/
structure ReleaseManifest (selections : List ReleaseArtifactSelection) : Prop where
  nonempty : 1 ≤ selections.length
  bounded : selections.length ≤ maxOccurrences
  identified : ∀ row ∈ selections, row.Identified
  occurrences : (selections.map (·.occurrenceId)).Nodup
  placements : (selections.map (·.placementId)).Nodup

theorem ReleaseManifest.perm {a b : List ReleaseArtifactSelection} (h : ReleaseManifest a)
    (perm : a.Perm b) : ReleaseManifest b where
  nonempty := perm.length_eq ▸ h.nonempty
  bounded := perm.length_eq ▸ h.bounded
  identified := fun row hrow => h.identified row (perm.mem_iff.mpr hrow)
  occurrences := (perm.map _).nodup_iff.mp h.occurrences
  placements := (perm.map _).nodup_iff.mp h.placements

theorem releaseSelections_eq_ok {selections : List ReleaseArtifactSelection} {rows : List Json} :
    releaseSelections selections = .ok rows ↔ ReleaseManifest selections ∧
      rows = (sortBy (·.occurrenceId.text) selections).map ReleaseArtifactSelection.document := by
  simp only [releaseSelections, bind_eq_ok, require_eq_ok, pure_eq_ok, exists_and_left, exists_const]
  constructor
  · rintro ⟨⟨nonempty, bounded⟩, identified, ⟨occurrences, placements⟩, rfl⟩
    exact ⟨⟨nonempty, bounded, identified, occurrences, placements⟩, rfl⟩
  · rintro ⟨h, rfl⟩
    exact ⟨⟨h.nonempty, h.bounded⟩, h.identified, ⟨h.occurrences, h.placements⟩, rfl⟩

/-- There is one way to fail. -/
theorem ReleaseArtifactError.eq_of_ok_iff {α : Type} {x y : Except ReleaseArtifactError α}
    (h : ∀ a, x = .ok a ↔ y = .ok a) : x = y := by
  cases x with
  | ok a => exact ((h a).mp rfl).symm
  | error e =>
    cases y with
    | ok b => exact (h b).mpr rfl
    | error e' => cases e; cases e'; rfl

/-! ## The payload -/

theorem ReleaseArtifactSelection.document_injective {row row' : ReleaseArtifactSelection}
    (h : row.document = row'.document) : row = row' := by
  obtain ⟨occurrence, placement, rendition⟩ := row
  obtain ⟨occurrence', placement', rendition'⟩ := row'
  simp only [ReleaseArtifactSelection.document, Json.obj.injEq, List.cons.injEq, Prod.mk.injEq,
    Json.str.injEq, true_and, and_true] at h
  rw [Uuid.text_injective h.1, Uuid.text_injective h.2.1, Uuid.text_injective h.2.2]

theorem ReleaseArtifactSelection.canonical_document (row : ReleaseArtifactSelection) : Json.Canonical row.document :=
  ⟨⟨trivial, trivial, trivial, trivial⟩,
    by show List.Pairwise _ ["occurrence_id", "placement_id", "public_rendition_id"]; decide⟩

theorem canonicalElems_documents (rows : List ReleaseArtifactSelection) :
    Json.CanonicalElems (rows.map ReleaseArtifactSelection.document) := by
  induction rows with
  | nil => trivial
  | cons row rows ih => exact ⟨row.canonical_document, ih⟩

section

variable (releaseId approvalId candidateRevisionId : Uuid) (sourceSnapshotDigest : String)

theorem canonical_canonicalReleaseDocument (rows : List ReleaseArtifactSelection) :
    Json.Canonical (canonicalReleaseDocument releaseId approvalId candidateRevisionId sourceSnapshotDigest
      (rows.map ReleaseArtifactSelection.document)) := by
  refine ⟨⟨trivial, trivial, trivial, trivial, canonicalElems_documents rows, trivial, trivial⟩, ?_⟩
  show List.Pairwise _
    ["approval_id", "candidate_revision_id", "contract", "release_id", "selections", "source_snapshot_digest"]
  decide

/-- The payload says exactly which rows follow each other. -/
theorem canonicalReleasePayload_eq_iff {rows rows' : List ReleaseArtifactSelection} :
    (canonicalReleaseDocument releaseId approvalId candidateRevisionId sourceSnapshotDigest
        (rows.map ReleaseArtifactSelection.document)).encode =
      (canonicalReleaseDocument releaseId approvalId candidateRevisionId sourceSnapshotDigest
        (rows'.map ReleaseArtifactSelection.document)).encode ↔ rows = rows' := by
  refine ⟨fun h => ?_, fun h => by rw [h]⟩
  have same := Json.encode_injective (canonical_canonicalReleaseDocument _ _ _ _ rows)
    (canonical_canonicalReleaseDocument _ _ _ _ rows') h
  simp only [canonicalReleaseDocument, Json.obj.injEq, List.cons.injEq, Prod.mk.injEq,
    Json.arr.injEq, true_and, and_true] at same
  exact List.map_injective_iff.mpr (fun _ _ => ReleaseArtifactSelection.document_injective) same

theorem ReleaseArtifactSelection.size_document (row : ReleaseArtifactSelection) :
    Json.size row.document.chars = 171 := by
  have keys : Json.size (Json.quote "occurrence_id") = 15 ∧ Json.size (Json.quote "placement_id") =
      14 ∧ Json.size (Json.quote "public_rendition_id") = 21 := by decide
  simp only [ReleaseArtifactSelection.document, Json.size_obj_cons, Json.size_membersChars_cons,
    Json.size_membersChars_nil, Json.size_str, Json.size_quote_uuid, keys]

theorem size_quote_sha256Hex {digest : String} (h : IsSha256Hex digest) : Json.size (Json.quote digest) = 66 := by
  have plain : ∀ c ∈ "0123456789abcdef".toList, Json.Plain c := by simp [Json.Plain]
  rw [Json.size_quote fun c hc => plain c (h.2 c hc), h.1]

/-- A row takes 171 bytes and its comma, the rest of the document less than 400. -/
theorem size_canonicalReleasePayload_le {sourceSnapshotDigest : String}
    (h : IsSha256Hex sourceSnapshotDigest) (rows : List ReleaseArtifactSelection) :
    (canonicalReleaseDocument releaseId approvalId candidateRevisionId sourceSnapshotDigest
      (rows.map ReleaseArtifactSelection.document)).encode.size ≤ 172 * rows.length + 400 := by
  have keys : Json.size (Json.quote "approval_id") = 13 ∧ Json.size (Json.quote "candidate_revision_id") = 23 ∧
      Json.size (Json.quote "contract") = 10 ∧ Json.size (Json.quote "release_id") = 12 ∧
      Json.size (Json.quote "selections") = 12 ∧ Json.size (Json.quote "source_snapshot_digest") = 24 ∧
      Json.size (Json.quote canonicalReleaseArtifact) = 31 := by decide
  have rowsLe := Json.size_arr_le (rows.map ReleaseArtifactSelection.document) fun v hv => by
    obtain ⟨row, _, rfl⟩ := List.mem_map.mp hv
    exact row.size_document.le
  rw [List.length_map] at rowsLe
  rw [Json.size_encode]
  simp only [canonicalReleaseDocument, Json.size_obj_cons, Json.size_membersChars_cons,
    Json.size_membersChars_nil, Json.size_str, Json.size_quote_uuid, size_quote_sha256Hex h, keys]
  omega

/-- The bytes of a complete manifest. -/
theorem canonicalReleasePayload_fits {sourceSnapshotDigest : String}
    (h : IsSha256Hex sourceSnapshotDigest) {rows : List ReleaseArtifactSelection}
    (bounded : rows.length ≤ maxOccurrences) :
    (canonicalReleaseDocument releaseId approvalId candidateRevisionId sourceSnapshotDigest
      (rows.map ReleaseArtifactSelection.document)).encode.size ≤ maxCanonicalReleaseBytes := by
  refine (size_canonicalReleasePayload_le _ _ _ h rows).trans ?_
  unfold maxOccurrences at bounded
  unfold maxCanonicalReleaseBytes
  omega

theorem size_canonicalReleasePayload_pos (rows : List Json) :
    0 < (canonicalReleaseDocument releaseId approvalId candidateRevisionId sourceSnapshotDigest rows).encode.size := by
  rw [Json.size_encode, canonicalReleaseDocument, Json.size_obj_cons]
  omega

/-- The rows in the order of the payload are those of any other order of the selections. -/
theorem sorted_selections_eq_iff {a b : List ReleaseArtifactSelection} (ha : (a.map (·.occurrenceId)).Nodup) :
    sortBy (·.occurrenceId.text) a = sortBy (·.occurrenceId.text) b ↔ a.Perm b := by
  constructor
  · intro h
    exact (sortBy_perm _ a).symm.trans (h ▸ sortBy_perm _ b)
  · exact sortBy_eq_of_perm fun row hrow row' hrow' same =>
      List.inj_on_of_nodup_map ha hrow hrow' (Uuid.text_injective same)

end

/-! ## Preparation and verification -/

section

variable {releaseId approvalId candidateRevisionId : Uuid} {sourceSnapshotDigest : String}
  {sha256 : ByteArray → String} {selections : List ReleaseArtifactSelection}
  {artifact : CanonicalReleaseArtifact}

/-- The bound on the bytes refuses no manifest. -/
theorem prepareCanonicalReleaseArtifact_eq_ok :
    prepareCanonicalReleaseArtifact sha256 releaseId approvalId candidateRevisionId
      sourceSnapshotDigest selections = .ok artifact ↔
      (releaseId ≠ 0 ∧ approvalId ≠ 0 ∧ candidateRevisionId ≠ 0 ∧
        IsSha256Hex sourceSnapshotDigest) ∧ ReleaseManifest selections ∧ ∃ payload, payload =
          (canonicalReleaseDocument releaseId approvalId candidateRevisionId sourceSnapshotDigest
            ((sortBy (·.occurrenceId.text) selections).map ReleaseArtifactSelection.document)).encode ∧
        artifact = ⟨canonicalReleaseArtifact, payload, sha256 payload, payload.size⟩ := by
  simp only [prepareCanonicalReleaseArtifact, bind_eq_ok, require_eq_ok, pure_eq_ok,
    releaseSelections_eq_ok, exists_and_left, exists_const]
  constructor
  · rintro ⟨identified, rows, ⟨manifest, rfl⟩, small, rfl⟩
    exact ⟨identified, manifest, _, rfl, rfl⟩
  · rintro ⟨identified, manifest, _, rfl, rfl⟩
    refine ⟨identified, _, ⟨manifest, rfl⟩, canonicalReleasePayload_fits _ _ _ identified.2.2.2 ?_, rfl⟩
    rw [(sortBy_perm (·.occurrenceId.text) selections).length_eq]
    exact manifest.bounded

/-- What is prepared says its own length. -/
theorem byteLength_prepared
    (h : prepareCanonicalReleaseArtifact sha256 releaseId approvalId candidateRevisionId
      sourceSnapshotDigest selections =
      .ok artifact) :
    0 < artifact.byteLength ∧ artifact.byteLength ≤ maxCanonicalReleaseBytes ∧
      artifact.payload.size = artifact.byteLength := by
  obtain ⟨identified, manifest, payload, rfl, rfl⟩ := prepareCanonicalReleaseArtifact_eq_ok.mp h
  have length := (sortBy_perm (·.occurrenceId.text) selections).length_eq
  have positive := size_canonicalReleasePayload_pos releaseId approvalId candidateRevisionId sourceSnapshotDigest
    ((sortBy (·.occurrenceId.text) selections).map ReleaseArtifactSelection.document)
  have fits := canonicalReleasePayload_fits releaseId approvalId candidateRevisionId
    identified.2.2.2 (length.le.trans manifest.bounded)
  exact ⟨Int.natCast_pos.mpr positive, Int.ofNat_le.mpr fits, rfl⟩

theorem verifyCanonicalReleaseArtifact_eq_ok :
    verifyCanonicalReleaseArtifact sha256 releaseId approvalId candidateRevisionId
      sourceSnapshotDigest artifact selections = .ok () ↔
      prepareCanonicalReleaseArtifact sha256 releaseId approvalId candidateRevisionId
        sourceSnapshotDigest selections = .ok artifact := by
  simp only [verifyCanonicalReleaseArtifact, bind_eq_ok, require_eq_ok, exists_and_left, exists_const]
  constructor
  · rintro ⟨_, _, prepared, rfl⟩
    exact prepared
  · intro prepared
    exact ⟨byteLength_prepared prepared, _, prepared, rfl⟩

/-- Selections in another order are accepted or refused alike, and make the same artifact. -/
theorem prepareCanonicalReleaseArtifact_perm {a b : List ReleaseArtifactSelection} (perm : a.Perm b) :
    prepareCanonicalReleaseArtifact sha256 releaseId approvalId candidateRevisionId sourceSnapshotDigest a =
      prepareCanonicalReleaseArtifact sha256 releaseId approvalId candidateRevisionId sourceSnapshotDigest b := by
  refine ReleaseArtifactError.eq_of_ok_iff fun artifact => ?_
  rw [prepareCanonicalReleaseArtifact_eq_ok, prepareCanonicalReleaseArtifact_eq_ok]
  have sorted (manifest : ReleaseManifest a) := (sorted_selections_eq_iff manifest.occurrences).mpr perm
  constructor
  · rintro ⟨identified, manifest, rest⟩
    exact ⟨identified, manifest.perm perm, sorted manifest ▸ rest⟩
  · rintro ⟨identified, manifest, rest⟩
    have manifest := manifest.perm perm.symm
    exact ⟨identified, manifest, sorted manifest ▸ rest⟩

/-- The artifacts of two lists of selections are one artifact where the lists are one up to order,
an artifact is verified where preparing the selections makes it, and the payload of a list within
the limit is within the bound. -/
theorem canonical_release_artifacts (sha256 : ByteArray → String)
    (releaseId approvalId candidateRevisionId : Uuid) (sourceSnapshotDigest : String) :
    (∀ a b artifact artifact',
      prepareCanonicalReleaseArtifact sha256 releaseId approvalId candidateRevisionId
        sourceSnapshotDigest a = .ok artifact →
      prepareCanonicalReleaseArtifact sha256 releaseId approvalId candidateRevisionId
        sourceSnapshotDigest b = .ok artifact' →
      (artifact = artifact' ↔ a.Perm b)) ∧
    (∀ a b, a.Perm b →
      prepareCanonicalReleaseArtifact sha256 releaseId approvalId candidateRevisionId sourceSnapshotDigest a =
        prepareCanonicalReleaseArtifact sha256 releaseId approvalId candidateRevisionId sourceSnapshotDigest b) ∧
    (∀ artifact selections,
      verifyCanonicalReleaseArtifact sha256 releaseId approvalId candidateRevisionId
          sourceSnapshotDigest artifact selections = .ok () ↔
        prepareCanonicalReleaseArtifact sha256 releaseId approvalId candidateRevisionId
          sourceSnapshotDigest selections = .ok artifact) ∧
    (IsSha256Hex sourceSnapshotDigest → ∀ selections : List ReleaseArtifactSelection,
      selections.length ≤ maxOccurrences →
      (canonicalReleaseDocument releaseId approvalId candidateRevisionId sourceSnapshotDigest
        ((sortBy (·.occurrenceId.text) selections).map ReleaseArtifactSelection.document)).encode.size ≤
          maxCanonicalReleaseBytes) := by
  refine ⟨fun a b artifact artifact' ha hb => ?_, fun a b => prepareCanonicalReleaseArtifact_perm,
    fun artifact selections => verifyCanonicalReleaseArtifact_eq_ok, fun digest selections bounded => ?_⟩
  · obtain ⟨_, manifest, payload, rfl, rfl⟩ := prepareCanonicalReleaseArtifact_eq_ok.mp ha
    obtain ⟨_, manifest', payload', rfl, rfl⟩ := prepareCanonicalReleaseArtifact_eq_ok.mp hb
    rw [← sorted_selections_eq_iff manifest.occurrences, ← canonicalReleasePayload_eq_iff
      releaseId approvalId candidateRevisionId sourceSnapshotDigest]
    constructor
    · exact fun same => congrArg CanonicalReleaseArtifact.payload same
    · exact fun same => by rw [same]
  · refine canonicalReleasePayload_fits releaseId approvalId candidateRevisionId digest ?_
    rwa [(sortBy_perm (·.occurrenceId.text) selections).length_eq]

/-- Two rows, in either order. The hash is that of their payload. -/
theorem canonical_release_artifacts_two :
    let digest := "0000000000000000000000000000000000000000000000000000000000000000"
    let sha256 : ByteArray → String := fun _ => "ae5876b4570fbdc1ec8ce31962c6bcaa4b18ada06511508c7d132be207d0b89d"
    ∃ artifact, prepareCanonicalReleaseArtifact sha256 1 2 3 digest [⟨4, 5, 6⟩, ⟨7, 8, 9⟩] = .ok artifact ∧
      prepareCanonicalReleaseArtifact sha256 1 2 3 digest [⟨7, 8, 9⟩, ⟨4, 5, 6⟩] = .ok artifact ∧
      verifyCanonicalReleaseArtifact sha256 1 2 3 digest artifact [⟨7, 8, 9⟩, ⟨4, 5, 6⟩] = .ok () := by
  intro digest sha256
  have head : (1 : Uuid) ≠ 0 ∧ (2 : Uuid) ≠ 0 ∧ (3 : Uuid) ≠ 0 ∧ IsSha256Hex digest := by decide
  have manifest : ReleaseManifest [⟨4, 5, 6⟩, ⟨7, 8, 9⟩] := ⟨by decide, by decide, by decide, by decide, by decide⟩
  have perm : List.Perm [⟨4, 5, 6⟩, ⟨7, 8, 9⟩] [(⟨7, 8, 9⟩ : ReleaseArtifactSelection), ⟨4, 5, 6⟩] :=
    List.Perm.swap _ _ _
  have prepared := (@prepareCanonicalReleaseArtifact_eq_ok 1 2 3 digest sha256 _ _).mpr ⟨head, manifest, _, rfl, rfl⟩
  have prepared' := (@prepareCanonicalReleaseArtifact_eq_ok 1 2 3 digest sha256 _ _).mpr ⟨head,
    manifest.perm perm, _, rfl, rfl⟩
  obtain ⟨same, _, verified, fits⟩ := canonical_release_artifacts sha256 1 2 3 digest
  have := fits head.2.2.2 [⟨4, 5, 6⟩, ⟨7, 8, 9⟩] (by decide)
  rw [(same _ _ _ _ prepared prepared').mpr perm] at prepared
  exact ⟨_, prepared, prepared', (verified _ _).mpr prepared'⟩

end

end Maru.Scheduling

import Maru.Framework.Dict
import Maru.Scheduling.CommandSupport
import Maru.Scheduling.Conflicts

/-!
# Release eligibility

`scheduling/release_source_rules.py` and `scheduling/release_eligibility.py`: the states of a
category's sources are reduced to one (`combine_release_source_states`), and a complete set of
categories, findings and acknowledged warnings is evaluated. `evaluate_eq_ok` says which
evidence is evaluated and to what, `eligible_iff` when it leaves nothing unresolved.
-/

namespace Maru.Scheduling

/-! ## Categories and their states -/

inductive ReleaseCheck
  | candidate | programmeReadiness | publicCopy | hosts | physicalApproval | physicalConstraints | accessibilityFit
  | staffing | personConflicts | rest
deriving DecidableEq

def ReleaseCheck.value : ReleaseCheck → String
  | .candidate => "candidate"
  | .programmeReadiness => "programme_readiness"
  | .publicCopy => "public_copy"
  | .hosts => "hosts"
  | .physicalApproval => "physical_approval"
  | .physicalConstraints => "physical_constraints"
  | .accessibilityFit => "accessibility_fit"
  | .staffing => "staffing"
  | .personConflicts => "person_conflicts"
  | .rest => "rest"

/-- `ReleaseCheck`, in its order. -/
def releaseChecks : List ReleaseCheck :=
  [.candidate, .programmeReadiness, .publicCopy, .hosts, .physicalApproval, .physicalConstraints,
    .accessibilityFit, .staffing, .personConflicts, .rest]

theorem mem_releaseChecks (check : ReleaseCheck) : check ∈ releaseChecks := by cases check <;> decide

theorem nodup_releaseChecks : releaseChecks.Nodup := by decide

theorem releaseCheck_value_injective {c c' : ReleaseCheck} (h : c.value = c'.value) : c = c' := by
  cases c <;> cases c' <;> first | rfl | exact absurd h (by decide)

inductive ReleaseCheckState
  | satisfied | notApplicable | blocked | stale | unavailable
deriving DecidableEq

def ReleaseCheckState.value : ReleaseCheckState → String
  | .satisfied => "satisfied"
  | .notApplicable => "not_applicable"
  | .blocked => "blocked"
  | .stale => "stale"
  | .unavailable => "unavailable"

theorem releaseCheckState_value_injective {s s' : ReleaseCheckState} (h : s.value = s'.value) : s = s' := by
  cases s <;> cases s' <;> first | rfl | exact absurd h (by decide)

/-- `_OPTIONALLY_APPLICABLE`. -/
def optionallyApplicable : List ReleaseCheck := [.hosts, .staffing, .personConflicts, .rest]

/-- Reduce the states of a category's sources. -/
def combineReleaseSourceStates (states : List ReleaseCheckState) : ReleaseCheckState :=
  if states = [] then .unavailable
  else
    match [ReleaseCheckState.unavailable, .stale, .blocked].find? (· ∈ states) with
    | some state => state
    | none => if .satisfied ∈ states then .satisfied else .notApplicable

/-- `release_state_from_readiness` of an owner's text. -/
def releaseStateFromReadiness (state : String) : ReleaseCheckState :=
  match [ReleaseCheckState.satisfied, .notApplicable, .blocked, .stale, .unavailable].find? (·.value = state) with
  | some known => known
  | none => if state = "required" ∨ state = "withdrawn" then .blocked else .unavailable

/-- A category's state leaves nothing to be done. -/
def ReleaseCheck.Resolved (check : ReleaseCheck) (state : ReleaseCheckState) : Prop :=
  state = .satisfied ∨ (state = .notApplicable ∧ check ∈ optionallyApplicable)

instance (check : ReleaseCheck) (state : ReleaseCheckState) : Decidable (check.Resolved state) :=
  inferInstanceAs (Decidable (_ ∨ _))

/-- The states that no other state of the category makes up for. -/
def ReleaseCheckState.Failed (state : ReleaseCheckState) : Prop := state ≠ .satisfied ∧ state ≠ .notApplicable

/-- The reduction is a success exactly if there are sources and none of them failed. -/
theorem combine_failed_iff {states : List ReleaseCheckState} :
    (combineReleaseSourceStates states).Failed ↔ states = [] ∨ ∃ state ∈ states, state.Failed := by
  unfold combineReleaseSourceStates
  by_cases empty : states = []
  · simp [empty, ReleaseCheckState.Failed]
  · rw [if_neg empty]
    cases found : [ReleaseCheckState.unavailable, .stale, .blocked].find? (· ∈ states) with
    | some state =>
      have mem : state ∈ states := by simpa using List.find?_some found
      have failed : state.Failed := by
        have listed := List.mem_of_find?_eq_some found
        simp only [List.mem_cons, List.not_mem_nil, or_false] at listed
        rcases listed with rfl | rfl | rfl <;> exact ⟨by decide, by decide⟩
      exact iff_of_true failed (.inr ⟨state, mem, failed⟩)
    | none =>
      have absent := List.find?_eq_none.mp found
      refine iff_of_false ?_ ?_
      · dsimp only
        split <;> simp [ReleaseCheckState.Failed]
      · rintro (h | ⟨state, mem, failed⟩)
        · exact empty h
        · cases state with
          | satisfied => exact failed.1 rfl
          | notApplicable => exact failed.2 rfl
          | unavailable => exact absent .unavailable (by simp) (by simpa using mem)
          | stale => exact absent .stale (by simp) (by simpa using mem)
          | blocked => exact absent .blocked (by simp) (by simpa using mem)

/-! ## Evidence -/

structure ReleaseCheckEvidence where
  snapshotDigest : String
  check : ReleaseCheck
  state : ReleaseCheckState
deriving DecidableEq

structure ReleaseFinding where
  snapshotDigest : String
  check : ReleaseCheck
  fingerprint : String
  severity : SchedulingConflictSeverity
deriving DecidableEq

structure ReleaseWarningAcknowledgement where
  snapshotDigest : String
  findingFingerprint : String
deriving DecidableEq

structure ReleaseEligibility where
  snapshotDigest : String
  blockedChecks : List ReleaseCheck
  staleChecks : List ReleaseCheck
  unavailableChecks : List ReleaseCheck
  blockingFindings : List String
  unavailableFindings : List String
  unacknowledgedWarnings : List String
deriving DecidableEq

def ReleaseEligibility.eligibleForReview (e : ReleaseEligibility) : Bool :=
  e.blockedChecks = [] ∧ e.staleChecks = [] ∧ e.unavailableChecks = [] ∧ e.blockingFindings = [] ∧
    e.unavailableFindings = [] ∧ e.unacknowledgedWarnings = []

/-- `ReleaseEvidenceInvalidError`. -/
def releaseEvidenceInvalid : ValidationError :=
  { message := "Complete exact-snapshot release evidence is required.", code := "scheduling_release_evidence_invalid" }

/-- `[0-9a-f]{64}\\Z` -/
def isReleaseDigest (s : String) : Bool :=
  s.length = 64 && s.toList.all fun c => ('0' ≤ c && c ≤ '9') || ('a' ≤ c && c ≤ 'f')

def requireDigest (value : String) : Except ValidationError Unit :=
    require (isReleaseDigest value) releaseEvidenceInvalid

def sameSnapshot (actual expected : String) : Except ValidationError Unit := do
  requireDigest actual
  require (actual = expected) releaseEvidenceInvalid

/-! ## Evaluation -/

/-- The turn that fills `by_check`. -/
def readCheck (snapshot : String) (byCheck : List (ReleaseCheck × ReleaseCheckState)) (row : ReleaseCheckEvidence) :
    Except ValidationError (List (ReleaseCheck × ReleaseCheckState)) := do
  require (row.check ∉ byCheck.map Prod.fst) releaseEvidenceInvalid
  sameSnapshot row.snapshotDigest snapshot
  return byCheck ++ [(row.check, row.state)]

/-- The category is one of the evidence, and applies. -/
def Applies (byCheck : List (ReleaseCheck × ReleaseCheckState)) (check : ReleaseCheck) : Prop :=
  check ∈ byCheck.map Prod.fst ∧ Dict.get? byCheck check ≠ some .notApplicable

instance (byCheck : List (ReleaseCheck × ReleaseCheckState)) (check : ReleaseCheck) :
    Decidable (Applies byCheck check) :=
  inferInstanceAs (Decidable (_ ∧ _))

/-- The turn that fills `by_fingerprint`. -/
def readFinding (snapshot : String) (byCheck : List (ReleaseCheck × ReleaseCheckState))
    (byFingerprint : List (String × SchedulingConflictSeverity)) (finding : ReleaseFinding) :
    Except ValidationError (List (String × SchedulingConflictSeverity)) := do
  require (Applies byCheck finding.check) releaseEvidenceInvalid
  sameSnapshot finding.snapshotDigest snapshot
  requireDigest finding.fingerprint
  require (finding.fingerprint ∉ byFingerprint.map Prod.fst) releaseEvidenceInvalid
  return byFingerprint ++ [(finding.fingerprint, finding.severity)]

/-- The turn that fills `acknowledged`. -/
def readAcknowledgement (snapshot : String) (byFingerprint : List (String × SchedulingConflictSeverity))
    (acknowledged : List String) (acknowledgement : ReleaseWarningAcknowledgement) :
    Except ValidationError (List String) := do
  sameSnapshot acknowledgement.snapshotDigest snapshot
  requireDigest acknowledgement.findingFingerprint
  require (acknowledgement.findingFingerprint ∉ acknowledged ∧
      Dict.get? byFingerprint acknowledgement.findingFingerprint = some .warning) releaseEvidenceInvalid
  return acknowledged ++ [acknowledgement.findingFingerprint]

/-- `by_check.get(check, UNAVAILABLE)` -/
def stateOf (byCheck : List (ReleaseCheck × ReleaseCheckState)) (check : ReleaseCheck) : ReleaseCheckState :=
  (Dict.get? byCheck check).getD .unavailable

/-- The fingerprints of a severity, in their order. -/
def fingerprintsOf (byFingerprint : List (String × SchedulingConflictSeverity))
    (severity : SchedulingConflictSeverity) : List String :=
  sortBy id ((byFingerprint.filter (·.2 = severity)).map Prod.fst)

/-- What the evidence leaves unresolved. -/
def unresolved (snapshotDigest : String) (byCheck : List (ReleaseCheck × ReleaseCheckState))
    (byFingerprint : List (String × SchedulingConflictSeverity)) (acknowledged : List String) : ReleaseEligibility where
  snapshotDigest
  blockedChecks := releaseChecks.filter fun check =>
    stateOf byCheck check = .blocked ∨ (stateOf byCheck check = .notApplicable ∧ check ∉ optionallyApplicable)
  staleChecks := releaseChecks.filter fun check => stateOf byCheck check = .stale
  unavailableChecks := releaseChecks.filter fun check => stateOf byCheck check = .unavailable
  blockingFindings := fingerprintsOf byFingerprint .blocker
  unavailableFindings := fingerprintsOf byFingerprint .unavailable
  unacknowledgedWarnings := (fingerprintsOf byFingerprint .warning).filter (· ∉ acknowledged)

def evaluateReleaseEligibility (snapshotDigest : String) (checks : List ReleaseCheckEvidence)
    (findings : List ReleaseFinding) (acknowledgements : List ReleaseWarningAcknowledgement) :
    Except ValidationError ReleaseEligibility := do
  requireDigest snapshotDigest
  require (checks.length ≤ releaseChecks.length) releaseEvidenceInvalid
  require (findings.length ≤ maxConflicts) releaseEvidenceInvalid
  require (acknowledgements.length ≤ maxConflicts) releaseEvidenceInvalid
  let byCheck ← checks.foldlM (readCheck snapshotDigest) []
  let byFingerprint ← findings.foldlM (readFinding snapshotDigest byCheck) []
  let acknowledged ← acknowledgements.foldlM (readAcknowledgement snapshotDigest byFingerprint) []
  return unresolved snapshotDigest byCheck byFingerprint acknowledged

/-! ## Evidence that is evaluated -/

theorem sameSnapshot_eq_ok {actual expected : String} :
    sameSnapshot actual expected = .ok () ↔ isReleaseDigest actual ∧ actual = expected := by
  unfold sameSnapshot requireDigest
  rw [seq_eq_ok, require_eq_ok, require_eq_ok]

def ReleaseCheckEvidence.entry (row : ReleaseCheckEvidence) : ReleaseCheck × ReleaseCheckState := (row.check, row.state)

def ReleaseFinding.entry (finding : ReleaseFinding) : String × SchedulingConflictSeverity :=
  (finding.fingerprint, finding.severity)

theorem readCheck_eq_ok {snapshot : String} {byCheck d : List (ReleaseCheck × ReleaseCheckState)}
    {row : ReleaseCheckEvidence} :
    readCheck snapshot byCheck row = .ok d ↔
      (isReleaseDigest row.snapshotDigest ∧ row.snapshotDigest = snapshot) ∧
        row.entry.1 ∉ byCheck.map Prod.fst ∧ d = byCheck ++ [row.entry] := by
  unfold readCheck
  rw [seq_eq_ok, seq_eq_ok, require_eq_ok, sameSnapshot_eq_ok, pure_eq_ok]
  exact ⟨fun h => ⟨h.2.1, h.1, h.2.2.symm⟩, fun h => ⟨h.2.1, h.1, h.2.2.symm⟩⟩

theorem readFinding_eq_ok {snapshot : String} {byCheck : List (ReleaseCheck × ReleaseCheckState)}
    {byFingerprint d : List (String × SchedulingConflictSeverity)} {finding : ReleaseFinding} :
    readFinding snapshot byCheck byFingerprint finding = .ok d ↔
      (Applies byCheck finding.check ∧ (isReleaseDigest finding.snapshotDigest ∧ finding.snapshotDigest = snapshot) ∧
          isReleaseDigest finding.fingerprint) ∧
        finding.entry.1 ∉ byFingerprint.map Prod.fst ∧ d = byFingerprint ++ [finding.entry] := by
  unfold readFinding requireDigest
  rw [seq_eq_ok, seq_eq_ok, seq_eq_ok, seq_eq_ok, require_eq_ok, sameSnapshot_eq_ok,
    require_eq_ok, require_eq_ok, pure_eq_ok]
  exact ⟨fun h => ⟨⟨h.1, h.2.1, h.2.2.1⟩, h.2.2.2.1, h.2.2.2.2.symm⟩,
    fun h => ⟨h.1.1, h.1.2.1, h.1.2.2, h.2.1, h.2.2.symm⟩⟩

theorem readAcknowledgement_eq_ok {snapshot : String} {byFingerprint : List (String × SchedulingConflictSeverity)}
    {acknowledged d : List String} {acknowledgement : ReleaseWarningAcknowledgement} :
    readAcknowledgement snapshot byFingerprint acknowledged acknowledgement = .ok d ↔
      ((isReleaseDigest acknowledgement.snapshotDigest ∧ acknowledgement.snapshotDigest = snapshot) ∧
          isReleaseDigest acknowledgement.findingFingerprint ∧
          Dict.get? byFingerprint acknowledgement.findingFingerprint = some .warning) ∧
        acknowledgement.findingFingerprint ∉ acknowledged.map id ∧
          d = acknowledged ++ [acknowledgement.findingFingerprint] := by
  unfold readAcknowledgement requireDigest
  rw [seq_eq_ok, seq_eq_ok, seq_eq_ok, sameSnapshot_eq_ok, require_eq_ok, require_eq_ok,
    pure_eq_ok, List.map_id]
  exact ⟨fun h => ⟨⟨h.1, h.2.1, h.2.2.1.2⟩, h.2.2.1.1, h.2.2.2.symm⟩,
    fun h => ⟨h.1.1, h.1.2.1, ⟨h.2.1, h.1.2.2⟩, h.2.2.symm⟩⟩

/-- Each category once and each finding once, all of the snapshot, each finding in a category that
applies, and each acknowledgement of the snapshot, once, and of a warning among the findings; as
many as the limits allow. -/
structure Evaluated (snapshot : String) (checks : List ReleaseCheckEvidence) (findings : List ReleaseFinding)
    (acknowledgements : List ReleaseWarningAcknowledgement) : Prop where
  digest : isReleaseDigest snapshot
  checksBounded : checks.length ≤ releaseChecks.length
  findingsBounded : findings.length ≤ maxConflicts
  acknowledgementsBounded : acknowledgements.length ≤ maxConflicts
  checksExact : ∀ row ∈ checks, row.snapshotDigest = snapshot
  checksDistinct : (checks.map (·.check)).Nodup
  findingsExact : ∀ finding ∈ findings, finding.snapshotDigest = snapshot ∧ isReleaseDigest finding.fingerprint
  findingsApply : ∀ finding ∈ findings, ∃ row ∈ checks, row.check = finding.check ∧ row.state ≠ .notApplicable
  findingsDistinct : (findings.map (·.fingerprint)).Nodup
  acknowledgementsExact : ∀ acknowledgement ∈ acknowledgements, acknowledgement.snapshotDigest = snapshot
  acknowledgementsDistinct : (acknowledgements.map (·.findingFingerprint)).Nodup
  acknowledgementsWarn : ∀ acknowledgement ∈ acknowledgements, ∃ finding ∈ findings,
    finding.fingerprint = acknowledgement.findingFingerprint ∧ finding.severity = .warning

theorem get?_checks {checks : List ReleaseCheckEvidence} (distinct : (checks.map (·.check)).Nodup)
    {check : ReleaseCheck} {state : ReleaseCheckState} :
    Dict.get? (checks.map (·.entry)) check = some state ↔ ∃ row ∈ checks, row.check = check ∧ row.state = state := by
  have keys : ((checks.map (·.entry)).map Prod.fst).Nodup := by
    rw [List.map_map]
    exact distinct
  rw [← Dict.mem_iff_get? keys]
  simp [ReleaseCheckEvidence.entry]

theorem get?_findings {findings : List ReleaseFinding} (distinct : (findings.map (·.fingerprint)).Nodup)
    {fingerprint : String} {severity : SchedulingConflictSeverity} :
    Dict.get? (findings.map (·.entry)) fingerprint = some severity ↔
      ∃ finding ∈ findings, finding.fingerprint = fingerprint ∧ finding.severity = severity := by
  have keys : ((findings.map (·.entry)).map Prod.fst).Nodup := by
    rw [List.map_map]
    exact distinct
  rw [← Dict.mem_iff_get? keys]
  simp [ReleaseFinding.entry]

theorem applies_iff {checks : List ReleaseCheckEvidence} (distinct : (checks.map (·.check)).Nodup)
    {check : ReleaseCheck} :
    Applies (checks.map (·.entry)) check ↔ ∃ row ∈ checks, row.check = check ∧ row.state ≠ .notApplicable := by
  unfold Applies
  constructor
  · rintro ⟨known, applies⟩
    obtain ⟨e, he, rfl⟩ := List.mem_map.mp known
    obtain ⟨row, hrow, rfl⟩ := List.mem_map.mp he
    refine ⟨row, hrow, rfl, fun absent => applies ?_⟩
    exact (get?_checks distinct).mpr ⟨row, hrow, rfl, absent⟩
  · rintro ⟨row, hrow, rfl, applies⟩
    refine ⟨List.mem_map.mpr ⟨row.entry, List.mem_map_of_mem hrow, rfl⟩, fun absent => applies ?_⟩
    have own := (get?_checks distinct).mpr ⟨row, hrow, rfl, rfl⟩
    exact Option.some.inj (own.symm.trans absent)

theorem readChecks_eq_ok {snapshot : String} {checks : List ReleaseCheckEvidence}
    {d : List (ReleaseCheck × ReleaseCheckState)} :
    checks.foldlM (readCheck snapshot) [] = .ok d ↔
      (∀ row ∈ checks, isReleaseDigest row.snapshotDigest ∧ row.snapshotDigest = snapshot) ∧
        (checks.map (·.check)).Nodup ∧ d = checks.map (·.entry) := by
  exact Budget.foldlM_distinct_nil (fun acc row d => @readCheck_eq_ok snapshot acc d row) checks

theorem readFindings_eq_ok {snapshot : String} {byCheck : List (ReleaseCheck × ReleaseCheckState)}
    {findings : List ReleaseFinding} {d : List (String × SchedulingConflictSeverity)} :
    findings.foldlM (readFinding snapshot byCheck) [] = .ok d ↔
      (∀ finding ∈ findings, Applies byCheck finding.check ∧
          (isReleaseDigest finding.snapshotDigest ∧ finding.snapshotDigest = snapshot) ∧
            isReleaseDigest finding.fingerprint) ∧
        (findings.map (·.fingerprint)).Nodup ∧ d = findings.map (·.entry) := by
  exact Budget.foldlM_distinct_nil (fun acc finding d => @readFinding_eq_ok snapshot byCheck acc d finding) findings

theorem readAcknowledgements_eq_ok {snapshot : String} {byFingerprint : List (String × SchedulingConflictSeverity)}
    {acknowledgements : List ReleaseWarningAcknowledgement} {d : List String} :
    acknowledgements.foldlM (readAcknowledgement snapshot byFingerprint) [] = .ok d ↔
      (∀ acknowledgement ∈ acknowledgements,
          (isReleaseDigest acknowledgement.snapshotDigest ∧ acknowledgement.snapshotDigest = snapshot) ∧
            isReleaseDigest acknowledgement.findingFingerprint ∧
              Dict.get? byFingerprint acknowledgement.findingFingerprint = some .warning) ∧
        (acknowledgements.map (·.findingFingerprint)).Nodup ∧ d = acknowledgements.map (·.findingFingerprint) := by
  exact Budget.foldlM_distinct_nil
    (fun acc a d => @readAcknowledgement_eq_ok snapshot byFingerprint acc d a) acknowledgements

/-- The evidence that is evaluated, and what is then left unresolved. -/
theorem evaluate_eq_ok {snapshot : String} {checks : List ReleaseCheckEvidence} {findings : List ReleaseFinding}
    {acknowledgements : List ReleaseWarningAcknowledgement} {eligibility : ReleaseEligibility} :
    evaluateReleaseEligibility snapshot checks findings acknowledgements = .ok eligibility ↔
      Evaluated snapshot checks findings acknowledgements ∧
        eligibility = unresolved snapshot (checks.map (·.entry)) (findings.map (·.entry))
          (acknowledgements.map (·.findingFingerprint)) := by
  unfold evaluateReleaseEligibility requireDigest
  rw [seq_eq_ok, seq_eq_ok, seq_eq_ok, seq_eq_ok, require_eq_ok, require_eq_ok, require_eq_ok,
    require_eq_ok]
  simp only [bind_eq_ok, readChecks_eq_ok, readFindings_eq_ok, readAcknowledgements_eq_ok, pure_eq_ok]
  constructor
  · rintro ⟨digest, few, fewer, fewest, _, ⟨exactChecks, distinctChecks, rfl⟩, _,
      ⟨exactFindings, distinctFindings, rfl⟩, _, ⟨exactAcks, distinctAcks, rfl⟩, rfl⟩
    refine ⟨⟨digest, few, fewer, fewest, fun row h => (exactChecks row h).2, distinctChecks, ?_, ?_, distinctFindings,
      fun a h => (exactAcks a h).1.2, distinctAcks, ?_⟩, rfl⟩
    · exact fun finding h => ⟨(exactFindings finding h).2.1.2, (exactFindings finding h).2.2⟩
    · exact fun finding h => (applies_iff distinctChecks).mp (exactFindings finding h).1
    · exact fun a h => (get?_findings distinctFindings).mp (exactAcks a h).2.2
  · rintro ⟨evaluated, rfl⟩
    have digest := evaluated.digest
    refine ⟨digest, evaluated.checksBounded, evaluated.findingsBounded, evaluated.acknowledgementsBounded, _,
      ⟨fun row h => ?_, evaluated.checksDistinct, rfl⟩, _,
        ⟨fun finding h => ⟨?_, ?_, ?_⟩, evaluated.findingsDistinct, rfl⟩,
      _, ⟨fun a h => ⟨?_, ?_, ?_⟩, evaluated.acknowledgementsDistinct, rfl⟩, rfl⟩
    · rw [evaluated.checksExact row h]
      exact ⟨digest, rfl⟩
    · exact (applies_iff evaluated.checksDistinct).mpr (evaluated.findingsApply finding h)
    · rw [(evaluated.findingsExact finding h).1]
      exact ⟨digest, rfl⟩
    · exact (evaluated.findingsExact finding h).2
    · rw [evaluated.acknowledgementsExact a h]
      exact ⟨digest, rfl⟩
    · obtain ⟨finding, hf, same, _⟩ := evaluated.acknowledgementsWarn a h
      rw [← same]
      exact (evaluated.findingsExact finding hf).2
    · exact (get?_findings evaluated.findingsDistinct).mpr (evaluated.acknowledgementsWarn a h)

/-- Whatever is refused is refused with the one error. -/
theorem evaluate_error {snapshot : String} {checks : List ReleaseCheckEvidence} {findings : List ReleaseFinding}
    {acknowledgements : List ReleaseWarningAcknowledgement} {error : ValidationError}
    (h : evaluateReleaseEligibility snapshot checks findings acknowledgements = .error error) :
    error = releaseEvidenceInvalid := by
  have bound {p : Prop} [Decidable p] : Ends (fun _ => True) (· = releaseEvidenceInvalid)
    (require p releaseEvidenceInvalid) :=
    Ends.mono (Ends.require fun _ => rfl) fun _ _ => trivial
  have digest (value) : Ends (fun _ => True) (· = releaseEvidenceInvalid) (requireDigest value) := bound
  have same (actual) : Ends (fun _ => True) (· = releaseEvidenceInvalid) (sameSnapshot actual snapshot) :=
    (digest _).bind fun _ _ => bound
  have readChecks : Ends (fun _ => True) (· = releaseEvidenceInvalid) (checks.foldlM (readCheck snapshot) []) :=
    Ends.foldlM (I := fun _ _ => True) (fun _ _ _ _ => bound.bind fun _ _ =>
      (same _).bind fun _ _ => Ends.pure trivial) trivial
  have readFindings (byCheck) : Ends (fun _ => True) (· = releaseEvidenceInvalid)
      (findings.foldlM (readFinding snapshot byCheck) []) :=
    Ends.foldlM (I := fun _ _ => True) (fun _ _ _ _ => bound.bind fun _ _ =>
      (same _).bind fun _ _ => (digest _).bind fun _ _ =>
      bound.bind fun _ _ => Ends.pure trivial) trivial
  have readAcknowledgements (byFingerprint) : Ends (fun _ => True) (· = releaseEvidenceInvalid)
      (acknowledgements.foldlM (readAcknowledgement snapshot byFingerprint) []) :=
    Ends.foldlM (I := fun _ _ => True) (fun _ _ _ _ => (same _).bind fun _ _ =>
      (digest _).bind fun _ _ => bound.bind fun _ _ => Ends.pure trivial) trivial
  have all : Ends (fun _ => True) (· = releaseEvidenceInvalid)
      (evaluateReleaseEligibility snapshot checks findings acknowledgements) :=
    (digest _).bind fun _ _ => bound.bind fun _ _ => bound.bind fun _ _ => bound.bind fun _ _ =>
      readChecks.bind fun _ _ => (readFindings _).bind fun _ _ =>
        (readAcknowledgements _).bind fun _ _ => Ends.pure trivial
  exact all.error h

/-! ## Nothing unresolved -/

theorem mem_fingerprintsOf {byFingerprint : List (String × SchedulingConflictSeverity)}
    {severity : SchedulingConflictSeverity} {fingerprint : String} :
    fingerprint ∈ fingerprintsOf byFingerprint severity ↔ (fingerprint, severity) ∈ byFingerprint := by
  unfold fingerprintsOf
  rw [(sortBy_perm _ _).mem_iff]
  simp

/-- Nothing is left unresolved exactly if every category is resolved and every finding is
an acknowledged warning. -/
theorem eligible_iff {snapshot : String} {byCheck : List (ReleaseCheck × ReleaseCheckState)}
    {byFingerprint : List (String × SchedulingConflictSeverity)} {acknowledged : List String} :
    (unresolved snapshot byCheck byFingerprint acknowledged).eligibleForReview = true ↔
      (∀ check, ReleaseCheck.Resolved check (stateOf byCheck check)) ∧
        ∀ finding ∈ byFingerprint, finding.2 = .warning ∧ finding.1 ∈ acknowledged := by
  have resolved (check) : ReleaseCheck.Resolved check (stateOf byCheck check) ↔
      ¬ (stateOf byCheck check = .blocked ∨ (stateOf byCheck check = .notApplicable ∧ check ∉ optionallyApplicable)) ∧
        stateOf byCheck check ≠ .stale ∧ stateOf byCheck check ≠ .unavailable := by
    unfold ReleaseCheck.Resolved
    cases stateOf byCheck check <;> simp
  have none (severity) : fingerprintsOf byFingerprint severity = [] ↔ ∀ finding ∈ byFingerprint,
    finding.2 ≠ severity := by
    rw [List.eq_nil_iff_forall_not_mem]
    simp only [mem_fingerprintsOf]
    exact ⟨fun h finding hf same => h finding.1 (same ▸ hf), fun h fingerprint hf => h _ hf rfl⟩
  have warnings : (unresolved snapshot byCheck byFingerprint acknowledged).unacknowledgedWarnings =
      [] ↔ ∀ finding ∈ byFingerprint, finding.2 = .warning → finding.1 ∈ acknowledged := by
    simp only [unresolved, List.filter_eq_nil_iff, mem_fingerprintsOf, decide_eq_true_eq, not_not]
    exact ⟨fun h finding hf warning => h finding.1 (warning ▸ hf), fun h fingerprint hf => h _ hf rfl⟩
  unfold ReleaseEligibility.eligibleForReview
  rw [decide_eq_true_eq, warnings]
  simp only [unresolved, none, List.filter_eq_nil_iff, mem_releaseChecks, true_implies, decide_eq_true_eq, resolved]
  constructor
  · rintro ⟨blocked, stale, unavailable, noBlocker, noUnavailable, acked⟩
    refine ⟨fun check => ⟨blocked check, stale check, unavailable check⟩, fun finding hf => ?_⟩
    have warning : finding.2 = .warning := by
      cases kind : finding.2 with
      | warning => rfl
      | blocker => exact absurd kind (noBlocker finding hf)
      | unavailable => exact absurd kind (noUnavailable finding hf)
    exact ⟨warning, acked finding hf warning⟩
  · rintro ⟨all, warned⟩
    refine ⟨fun check => (all check).1, fun check => (all check).2.1, fun check => (all check).2.2, ?_, ?_, ?_⟩
    · exact fun finding hf kind => absurd ((warned finding hf).1.symm.trans kind) (by decide)
    · exact fun finding hf kind => absurd ((warned finding hf).1.symm.trans kind) (by decide)
    · exact fun finding hf _ => (warned finding hf).2

end Maru.Scheduling

import Maru.Scheduling.ReleaseEligibility

/-!
# Release preflight

`scheduling/release_preflight.py`, `_finish`: the collected sources, the states of each category
and the findings of the evaluators become one digest, and the categories and the findings are
evaluated for that digest. The digest stands for the sources, the reduced state of each category
and the set of the findings (`digest_eq_iff`), in whatever order they were collected, and the
preflight leaves nothing unresolved only if every category is resolved and every finding is a
warning that is acknowledged for that digest (`finish_evaluates`).
-/

namespace Maru.Scheduling

open Json (Canonical CanonicalElems CanonicalMembers)

def SchedulingConflictSeverity.value : SchedulingConflictSeverity → String
  | .blocker => "blocker"
  | .warning => "warning"
  | .unavailable => "unavailable"

theorem severity_value_injective {s s' : SchedulingConflictSeverity} (h : s.value = s'.value) : s = s' := by
  cases s <;> cases s' <;> first | rfl | exact absurd h (by decide)

structure ReleasePreflightFinding where
  check : ReleaseCheck
  code : String
  severity : SchedulingConflictSeverity
  occurrenceId : Option Uuid
  otherOccurrenceId : Option Uuid
  fingerprint : String := ""
deriving DecidableEq

structure SchedulingReleasePreflight where
  candidateRevisionId : Uuid
  snapshotDigest : String
  checks : List ReleaseCheckEvidence
  findings : List ReleasePreflightFinding
  eligibility : ReleaseEligibility
deriving DecidableEq

/-- The collected sources: a document with members of its own, none of which `_finish` adds. -/
structure ReleaseSources where
  members : List (String × Json)
  distinct : (members.map Prod.fst).Nodup
  own : ∀ m ∈ members, m.1 ≠ "checks" ∧ m.1 ≠ "findings"
  canonical : ∀ m ∈ members, m.2.Canonical

/-! ## Documents -/

def idJson : Option Uuid → Json
  | some id => .str id.text
  | none => .null

/-- `_finding_payload` -/
def findingPayload (row : ReleasePreflightFinding) : Json := .obj [
  ("check", .str row.check.value),
  ("code", .str row.code),
  ("occurrence_id", idJson row.occurrenceId),
  ("other_occurrence_id", idJson row.otherOccurrenceId),
  ("severity", .str row.severity.value)]

/-- `{check.value: state.value for check, state in reduced.items()}` -/
def checksDocument (reduced : ReleaseCheck → ReleaseCheckState) : Json :=
  .obj (sortBy Prod.fst (releaseChecks.map fun check => (check.value, Json.str (reduced check).value)))

/-- The document of the evidence: `sources | {"checks": …, "findings": …}`. -/
def evidenceDocument (sources : ReleaseSources) (reduced : ReleaseCheck → ReleaseCheckState)
    (ordered : List ReleasePreflightFinding) : Json :=
  .obj (sortBy Prod.fst (sources.members ++
    [("checks", checksDocument reduced), ("findings", .arr (ordered.map findingPayload))]))

def fingerprintDocument (digest : String) (row : ReleasePreflightFinding) : Json :=
  .obj [("finding", findingPayload row), ("snapshot", .str digest)]

/-! ## The preflight -/

/-- The state a finding adds to its category. -/
def ReleasePreflightFinding.consequence (row : ReleasePreflightFinding) : ReleaseCheckState :=
  match row.severity with
  | .blocker => .blocked
  | .unavailable => .unavailable
  | .warning => .satisfied

/-- The states of a category, those its findings add included. -/
def statesWith (states : ReleaseCheck → List ReleaseCheckState)
    (findings : List ReleasePreflightFinding) (check : ReleaseCheck) : List ReleaseCheckState :=
  states check ++ (findings.filter (·.check = check)).map (·.consequence)

/-- `reduced` -/
def reducedState (states : ReleaseCheck → List ReleaseCheckState)
    (findings : List ReleasePreflightFinding) (check : ReleaseCheck) : ReleaseCheckState :=
  combineReleaseSourceStates (statesWith states findings check)

variable (lib : Primitives)

def payloadDigest (row : ReleasePreflightFinding) : String := schedulingDigest lib (findingPayload row)

/-- One finding for each payload, in the order of their digests. -/
def orderedFindings (findings : List ReleasePreflightFinding) : List ReleasePreflightFinding :=
  (sortBy Prod.fst (Dict.keyed (payloadDigest lib) findings)).map Prod.snd

def ReleasePreflightFinding.exact (digest : String) (row : ReleasePreflightFinding) : ReleasePreflightFinding :=
  { row with fingerprint := schedulingDigest lib (fingerprintDocument digest row) }

def ReleasePreflightFinding.evidence (digest : String) (row : ReleasePreflightFinding) : ReleaseFinding :=
  { snapshotDigest := digest, check := row.check, fingerprint := row.fingerprint, severity := row.severity }

/-- `_finish` -/
def finish (revisionId : Uuid) (sources : ReleaseSources) (states : ReleaseCheck → List ReleaseCheckState)
    (findings : List ReleasePreflightFinding) : Except SchedulingCommandError SchedulingReleasePreflight := do
  require (findings.length ≤ maxConflicts) .unavailable
  let reduced := reducedState states findings
  let ordered := orderedFindings lib findings
  let digest := schedulingDigest lib (evidenceDocument sources reduced ordered)
  let exact := ordered.map (·.exact lib digest)
  let checks := releaseChecks.map fun check => { snapshotDigest := digest, check, state := reduced check }
  let eligibility ← (evaluateReleaseEligibility digest checks (exact.map (·.evidence digest)) []).mapError .invalid
  return { candidateRevisionId := revisionId, snapshotDigest := digest, checks, findings := exact, eligibility }

/-- The preflight's own categories and findings, evaluated with acknowledgements. -/
def SchedulingReleasePreflight.evaluated (preflight : SchedulingReleasePreflight)
    (acknowledgements : List ReleaseWarningAcknowledgement) : Except ValidationError ReleaseEligibility :=
  evaluateReleaseEligibility preflight.snapshotDigest preflight.checks
    (preflight.findings.map (·.evidence preflight.snapshotDigest)) acknowledgements

/-! ## What the documents say -/

/-- A finding without the digest that is added to it last. -/
def ReleasePreflightFinding.projected (row : ReleasePreflightFinding) : ReleasePreflightFinding :=
  { row with fingerprint := "" }

theorem idJson_injective {id id' : Option Uuid} (h : idJson id = idJson id') : id = id' := by
  cases id with
  | none =>
    cases id' with
    | none => rfl
    | some id' => exact absurd h (by simp [idJson])
  | some id =>
    cases id' with
    | none => exact absurd h (by simp [idJson])
    | some id' => rw [Uuid.text_injective (Json.str.inj h)]

theorem idJson_canonical (id : Option Uuid) : (idJson id).Canonical := by cases id <;> trivial

theorem payload_projected (row : ReleasePreflightFinding) : findingPayload row.projected = findingPayload row := rfl

theorem findingPayload_eq_iff {row row' : ReleasePreflightFinding} :
    findingPayload row = findingPayload row' ↔ row.projected = row'.projected := by
  constructor
  · intro h
    simp only [findingPayload, Json.obj.injEq, List.cons.injEq, Prod.mk.injEq, Json.str.injEq, true_and, and_true] at h
    obtain ⟨check, code, occurrence, other, severity⟩ := h
    simp only [ReleasePreflightFinding.projected, releaseCheck_value_injective check, code,
      idJson_injective occurrence, idJson_injective other, severity_value_injective severity]
  · intro h
    rw [← payload_projected row, h, payload_projected]

theorem findingPayload_canonical (row : ReleasePreflightFinding) : (findingPayload row).Canonical := by
  refine ⟨?_, by simp only [List.map_cons, List.map_nil]; decide⟩
  simp only [CanonicalMembers, Canonical, idJson_canonical, and_self]

theorem fingerprintDocument_canonical (digest : String) (row : ReleasePreflightFinding) :
    (fingerprintDocument digest row).Canonical := by
  refine ⟨?_, by simp only [List.map_cons, List.map_nil]; decide⟩
  simp only [CanonicalMembers, Canonical, findingPayload_canonical, and_self]

theorem fingerprintDocument_injective {digest : String} {row row' : ReleasePreflightFinding}
    (h : fingerprintDocument digest row = fingerprintDocument digest row') : row.projected = row'.projected := by
  simp only [fingerprintDocument, Json.obj.injEq, List.cons.injEq, Prod.mk.injEq, true_and, and_true] at h
  exact findingPayload_eq_iff.mp h

theorem canonicalMembers_iff {ms : List (String × Json)} : CanonicalMembers ms ↔ ∀ m ∈ ms, m.2.Canonical := by
  induction ms with
  | nil => simp [CanonicalMembers]
  | cons m ms ih => simp [CanonicalMembers, ih]

theorem canonicalElems_iff {vs : List Json} : CanonicalElems vs ↔ ∀ v ∈ vs, v.Canonical := by
  induction vs with
  | nil => simp [CanonicalElems]
  | cons v vs ih => simp [CanonicalElems, ih]

/-- An object of distinct members, sorted, is canonical. -/
theorem sorted_canonical {ms : List (String × Json)} (distinct : (ms.map Prod.fst).Nodup)
    (values : ∀ m ∈ ms, m.2.Canonical) : (Json.obj (sortBy Prod.fst ms)).Canonical := by
  have perm := sortBy_perm Prod.fst ms
  refine ⟨canonicalMembers_iff.mpr fun m hm => values m (perm.mem_iff.mp hm), ?_⟩
  have sorted : ((sortBy Prod.fst ms).map Prod.fst).Pairwise (· ≤ ·) := List.pairwise_map.mpr (sortBy_sorted Prod.fst ms)
  have nodup : ((sortBy Prod.fst ms).map Prod.fst).Nodup := (perm.map Prod.fst).nodup_iff.mpr distinct
  exact sorted.imp₂ (fun a b le ne => lt_of_le_of_ne le ne) nodup

theorem check_values_nodup : (releaseChecks.map (·.value)).Nodup := by decide

theorem checksDocument_canonical (reduced : ReleaseCheck → ReleaseCheckState) : (checksDocument reduced).Canonical := by
  refine sorted_canonical ?_ ?_
  · rw [List.map_map]
    exact check_values_nodup
  · intro m hm
    obtain ⟨check, _, rfl⟩ := List.mem_map.mp hm
    trivial

theorem checksDocument_injective {reduced reduced' : ReleaseCheck → ReleaseCheckState}
    (h : checksDocument reduced = checksDocument reduced') (check : ReleaseCheck) : reduced check = reduced' check := by
  have same := perm_of_sortBy_eq (Json.obj.inj h)
  have mem : (check.value, Json.str (reduced check).value) ∈
      releaseChecks.map fun check => (check.value, Json.str (reduced check).value) :=
    List.mem_map.mpr ⟨check, mem_releaseChecks check, rfl⟩
  obtain ⟨check', _, same'⟩ := List.mem_map.mp (same.mem_iff.mp mem)
  obtain ⟨value, state⟩ := Prod.mk.inj same'
  obtain rfl := releaseCheck_value_injective value
  exact (releaseCheckState_value_injective (Json.str.inj state)).symm

theorem evidenceMembers_nodup (sources : ReleaseSources) (checks findings : Json) :
    ((sources.members ++ [("checks", checks), ("findings", findings)]).map Prod.fst).Nodup := by
  rw [List.map_append]
  refine List.Nodup.append sources.distinct (by simp) ?_
  intro key hkey hown
  obtain ⟨m, hm, rfl⟩ := List.mem_map.mp hkey
  have ne := sources.own m hm
  simp only [List.map_cons, List.map_nil, List.mem_cons, List.not_mem_nil, or_false] at hown
  exact hown.elim ne.1 ne.2

theorem evidenceDocument_canonical (sources : ReleaseSources) (reduced : ReleaseCheck → ReleaseCheckState)
    (ordered : List ReleasePreflightFinding) : (evidenceDocument sources reduced ordered).Canonical := by
  refine sorted_canonical (evidenceMembers_nodup sources _ _) ?_
  intro m hm
  rcases List.mem_append.mp hm with hm | hm
  · exact sources.canonical m hm
  · simp only [List.mem_cons, List.not_mem_nil, or_false] at hm
    rcases hm with rfl | rfl
    · exact checksDocument_canonical reduced
    · refine canonicalElems_iff.mpr fun v hv => ?_
      obtain ⟨row, _, rfl⟩ := List.mem_map.mp hv
      exact findingPayload_canonical row

/-- The document says the sources, the states and the findings in their order. -/
theorem evidenceDocument_eq_iff {sources sources' : ReleaseSources} {reduced reduced' : ReleaseCheck → ReleaseCheckState}
    {ordered ordered' : List ReleasePreflightFinding} :
    evidenceDocument sources reduced ordered = evidenceDocument sources' reduced' ordered' ↔
      sources.members.Perm sources'.members ∧ (∀ check, reduced check = reduced' check) ∧
        ordered.map (·.projected) = ordered'.map (·.projected) := by
  constructor
  · intro h
    have same := perm_of_sortBy_eq (Json.obj.inj h)
    have kept (sources : ReleaseSources) (checks findings : Json) :
        (sources.members ++ [("checks", checks), ("findings", findings)]).filter
          (fun m => m.1 ≠ "checks" ∧ m.1 ≠ "findings") = sources.members := by
      rw [List.filter_append, List.filter_eq_self.mpr]
      · simp
      · intro m hm
        exact decide_eq_true (sources.own m hm)
    have unique {m : String × Json} (key : m.1 = "checks" ∨ m.1 = "findings")
        (hm : m ∈ sources'.members ++
          [("checks", checksDocument reduced'), ("findings", .arr (ordered'.map findingPayload))]) :
        m = ("checks", checksDocument reduced') ∨ m = ("findings", .arr (ordered'.map findingPayload)) := by
      rcases List.mem_append.mp hm with hm | hm
      · exact (key.elim (sources'.own m hm).1 (sources'.own m hm).2).elim
      · simpa using hm
    refine ⟨?_, ?_, ?_⟩
    · have filtered := same.filter fun m => decide (m.1 ≠ "checks" ∧ m.1 ≠ "findings")
      rwa [kept, kept] at filtered
    · have checks := unique (.inl rfl) (same.mem_iff.mp (show ("checks", checksDocument reduced) ∈ _ by simp))
      rcases checks with e | e
      · exact checksDocument_injective (Prod.mk.inj e).2
      · exact absurd (Prod.mk.inj e).1 (by decide)
    · have findings := unique (.inr rfl)
        (same.mem_iff.mp (show ("findings", Json.arr (ordered.map findingPayload)) ∈ _ by simp))
      rcases findings with e | e
      · exact absurd (Prod.mk.inj e).1 (by decide)
      · have payloads := Json.arr.inj (Prod.mk.inj e).2
        refine List.ext_getElem (by simpa using congrArg List.length payloads) fun n hn hn' => ?_
        rw [List.length_map] at hn hn'
        have nth : (ordered.map findingPayload)[n]? = (ordered'.map findingPayload)[n]? := by rw [payloads]
        simp only [List.getElem?_map, List.getElem?_eq_getElem hn, List.getElem?_eq_getElem hn',
          Option.map_some, Option.some.injEq] at nth
        simpa using findingPayload_eq_iff.mp nth
  · rintro ⟨members, states, findings⟩
    have payloads : ordered.map findingPayload = ordered'.map findingPayload := by
      have := congrArg (List.map findingPayload) findings
      rwa [List.map_map, List.map_map] at this
    have checks : checksDocument reduced = checksDocument reduced' := by
      rw [funext states]
    unfold evidenceDocument
    rw [payloads, checks]
    refine congrArg Json.obj (sortBy_eq_of_perm ?_ (members.append_right _))
    intro m hm m' hm' key
    exact List.inj_on_of_nodup_map (evidenceMembers_nodup sources _ _) hm hm' key

/-! ## The findings in their order -/

/-- No two of the documents have the same digest. -/
def NoCollision (documents : List Json) : Prop :=
  ∀ a ∈ documents, ∀ b ∈ documents, lib.sha256 a.encode = lib.sha256 b.encode → a.encode = b.encode

variable {lib}

theorem NoCollision.mono {documents documents' : List Json} (h : NoCollision lib documents')
    (sub : documents ⊆ documents') : NoCollision lib documents :=
  fun a ha b hb => h a (sub ha) b (sub hb)

theorem NoCollision.eq {documents : List Json} (h : NoCollision lib documents) {a b : Json}
    (ha : a ∈ documents) (hb : b ∈ documents) (canonicalA : a.Canonical) (canonicalB : b.Canonical)
    (same : schedulingDigest lib a = schedulingDigest lib b) : a = b :=
  Json.encode_injective canonicalA canonicalB (h a ha b hb same)

theorem orderedFindings_increasing (findings : List ReleasePreflightFinding) :
    (orderedFindings lib findings).Pairwise fun a b => payloadDigest lib a < payloadDigest lib b := by
  obtain ⟨unique, hunique⟩ : ∃ unique, unique = Dict.keyed (payloadDigest lib) findings := ⟨_, rfl⟩
  have perm := sortBy_perm Prod.fst unique
  have nodup : ((sortBy Prod.fst unique).map Prod.fst).Nodup := by
    rw [(perm.map Prod.fst).nodup_iff, hunique]
    exact Dict.nodup_keyed _ _
  have sorted := (sortBy_sorted Prod.fst unique).and (List.pairwise_map.mp nodup)
  unfold orderedFindings
  rw [← hunique, List.pairwise_map]
  refine sorted.imp_of_mem fun {a b} ha hb h => ?_
  have keys {e} (he : e ∈ sortBy Prod.fst unique) : payloadDigest lib e.2 = e.1 :=
    (Dict.mem_keyed (hunique ▸ perm.mem_iff.mp he)).2
  rw [keys ha, keys hb]
  exact lt_of_le_of_ne h.1 h.2

theorem mem_orderedFindings {findings : List ReleasePreflightFinding}
    {row : ReleasePreflightFinding} (h : row ∈ orderedFindings lib findings) : row ∈ findings := by
  obtain ⟨e, he, rfl⟩ := List.mem_map.mp h
  exact (Dict.mem_keyed ((sortBy_perm Prod.fst _).mem_iff.mp he)).1

/-- Each finding is among the ordered ones, up to another with the same digest. -/
theorem exists_orderedFindings {findings : List ReleasePreflightFinding} {row : ReleasePreflightFinding}
    (h : row ∈ findings) : ∃ row' ∈ orderedFindings lib findings, payloadDigest lib row' = payloadDigest lib row := by
  have key : payloadDigest lib row ∈ (Dict.keyed (payloadDigest lib) findings).map Prod.fst :=
    Dict.mem_keyed_keys.mpr (List.mem_map_of_mem h)
  obtain ⟨e, he, same⟩ := List.mem_map.mp key
  refine ⟨e.2, List.mem_map_of_mem ((sortBy_perm Prod.fst _).mem_iff.mpr he), ?_⟩
  rw [(Dict.mem_keyed he).2, same]

theorem length_orderedFindings (findings : List ReleasePreflightFinding) :
    (orderedFindings lib findings).length ≤ findings.length := by
  have increasing := @orderedFindings_increasing lib findings
  have nodup : (orderedFindings lib findings).Nodup :=
    increasing.imp fun {a b} lt eq => absurd (congrArg (payloadDigest lib) eq) lt.ne
  exact nodup.length_le_of_subset fun row h => mem_orderedFindings h

variable {findings findings' : List ReleasePreflightFinding}

/-- Where no two payloads have the same digest, the ordered findings are all the findings. -/
theorem mem_ordered_projected (distinct : NoCollision lib (findings.map findingPayload))
    {row : ReleasePreflightFinding} :
    row ∈ (orderedFindings lib findings).map (·.projected) ↔ row ∈ findings.map (·.projected) := by
  constructor
  · intro h
    obtain ⟨found, hf, rfl⟩ := List.mem_map.mp h
    exact List.mem_map_of_mem (mem_orderedFindings hf)
  · intro h
    obtain ⟨given, hg, rfl⟩ := List.mem_map.mp h
    obtain ⟨found, hf, same⟩ := @exists_orderedFindings lib _ _ hg
    have payload := distinct.eq (List.mem_map_of_mem (mem_orderedFindings hf))
      (List.mem_map_of_mem hg) (findingPayload_canonical _) (findingPayload_canonical _) same
    rw [← findingPayload_eq_iff.mp payload]
    exact List.mem_map_of_mem hf

/-- The ordered findings depend on the set of the findings alone. -/
theorem ordered_projected_eq_iff (distinct : NoCollision lib (findings.map findingPayload))
    (distinct' : NoCollision lib (findings'.map findingPayload)) :
    (orderedFindings lib findings).map (·.projected) = (orderedFindings lib findings').map (·.projected) ↔
      ∀ row, row ∈ findings.map (·.projected) ↔ row ∈ findings'.map (·.projected) := by
  constructor
  · intro h row
    rw [← mem_ordered_projected distinct, h, mem_ordered_projected distinct']
  · intro h
    have increasing (findings) : ((orderedFindings lib findings).map (·.projected)).Pairwise
        fun a b => payloadDigest lib a < payloadDigest lib b :=
      List.pairwise_map.mpr (orderedFindings_increasing findings)
    refine eq_of_increasing (increasing findings) (increasing findings') fun row => ?_
    rw [mem_ordered_projected distinct, mem_ordered_projected distinct', h]

/-! ## Finishing -/

variable (lib) in
/-- The digest `_finish` gives the evidence. -/
def snapshotDigest (sources : ReleaseSources) (states : ReleaseCheck → List ReleaseCheckState)
    (findings : List ReleasePreflightFinding) : String :=
  schedulingDigest lib (evidenceDocument sources (reducedState states findings) (orderedFindings lib findings))

variable (lib) in
/-- The documents that `_finish` takes the digests of. -/
def finishDocuments (sources : ReleaseSources) (states : ReleaseCheck → List ReleaseCheckState)
    (findings : List ReleasePreflightFinding) : List Json :=
  findings.map findingPayload ++ findings.map (fingerprintDocument (snapshotDigest lib sources states findings)) ++
    [evidenceDocument sources (reducedState states findings) (orderedFindings lib findings)]

variable (lib) in
/-- What `_finish` returns. -/
def finished (revisionId : Uuid) (sources : ReleaseSources) (states : ReleaseCheck → List ReleaseCheckState)
    (findings : List ReleasePreflightFinding) : SchedulingReleasePreflight :=
  let digest := snapshotDigest lib sources states findings
  let checks := releaseChecks.map fun check => {
    snapshotDigest := digest, check, state := reducedState states findings check }
  let exact := (orderedFindings lib findings).map (·.exact lib digest)
  { candidateRevisionId := revisionId, snapshotDigest := digest, checks, findings := exact,
    eligibility := unresolved digest (checks.map (·.entry)) ((exact.map (·.evidence digest)).map (·.entry)) [] }

/-- Acknowledgements of warnings among the findings of the preflight, for its digest and each once.
-/
structure Acknowledges (preflight : SchedulingReleasePreflight)
    (acknowledgements : List ReleaseWarningAcknowledgement) : Prop where
  bounded : acknowledgements.length ≤ maxConflicts
  snapshot : ∀ acknowledgement ∈ acknowledgements, acknowledgement.snapshotDigest = preflight.snapshotDigest
  distinct : (acknowledgements.map (·.findingFingerprint)).Nodup
  warns : ∀ acknowledgement ∈ acknowledgements, ∃ finding ∈ preflight.findings,
    finding.fingerprint = acknowledgement.findingFingerprint ∧ finding.severity = .warning

variable {sources sources' : ReleaseSources} {states states' : ReleaseCheck → List ReleaseCheckState} {revisionId : Uuid}

/-- A finding makes its category apply. -/
theorem reducedState_of_finding {row : ReleasePreflightFinding} (h : row ∈ findings) :
    reducedState states findings row.check ≠ .notApplicable := by
  have own : row.consequence ∈ statesWith states findings row.check := by
    refine List.mem_append_right _ (List.mem_map_of_mem (List.mem_filter.mpr ⟨h, by simp⟩))
  intro absent
  have succeeded : ¬ (combineReleaseSourceStates (statesWith states findings row.check)).Failed :=
    fun failed => failed.2 absent
  have satisfied : ReleaseCheckState.satisfied ∉ statesWith states findings row.check := by
    intro mem
    unfold reducedState combineReleaseSourceStates at absent
    rw [if_neg (List.ne_nil_of_mem mem)] at absent
    split at absent
    · rename_i found
      have listed := List.mem_of_find?_eq_some found
      rw [absent] at listed
      exact absurd listed (by decide)
    · rw [if_pos mem] at absent
      cases absent
  have failed : row.consequence.Failed := by
    refine ⟨fun same => satisfied (same ▸ own), ?_⟩
    unfold ReleasePreflightFinding.consequence
    cases row.severity <;> decide
  exact succeeded (combine_failed_iff.mpr (.inr ⟨_, own, failed⟩))

/-- The fingerprints of different findings differ. -/
theorem fingerprints_nodup (distinct : NoCollision lib (finishDocuments lib sources states findings)) :
    ((finished lib revisionId sources states findings).findings.map (·.fingerprint)).Nodup := by
  have increasing := @orderedFindings_increasing lib findings
  unfold finished
  dsimp only
  rw [List.map_map, List.Nodup, List.pairwise_map]
  refine increasing.imp_of_mem fun {a b} ha hb lt same => ?_
  have listed {row} (h : row ∈ orderedFindings lib findings) :
      fingerprintDocument (snapshotDigest lib sources states findings) row ∈ finishDocuments
        lib sources states findings :=
    List.mem_append_left _ (List.mem_append_right _ (List.mem_map_of_mem (mem_orderedFindings h)))
  have document := distinct.eq (listed ha) (listed hb) (fingerprintDocument_canonical _ _)
    (fingerprintDocument_canonical _ _) same
  have payload := findingPayload_eq_iff.mpr (fingerprintDocument_injective document)
  exact absurd (congrArg (schedulingDigest lib) payload) lt.ne

section

variable (digests : ∀ bytes, isReleaseDigest (lib.sha256 bytes))
  (limit : findings.length ≤ maxConflicts)
  (distinct : NoCollision lib (finishDocuments lib sources states findings))

include digests limit distinct

/-- The preflight's evidence is evaluated exactly with acknowledgements of its warnings. -/
theorem finished_evaluated_iff {acknowledgements : List ReleaseWarningAcknowledgement}
    {eligibility : ReleaseEligibility} :
    (finished lib revisionId sources states findings).evaluated acknowledgements = .ok eligibility ↔
      Acknowledges (finished lib revisionId sources states findings) acknowledgements ∧
        eligibility = unresolved (snapshotDigest lib sources states findings)
          ((finished lib revisionId sources states findings).checks.map (·.entry))
          (((finished lib revisionId sources states findings).findings.map
            (·.evidence (snapshotDigest lib sources states findings))).map (·.entry))
          (acknowledgements.map (·.findingFingerprint)) := by
  have fingerprints := @fingerprints_nodup lib findings sources states revisionId distinct
  unfold SchedulingReleasePreflight.evaluated
  rw [evaluate_eq_ok]
  refine and_congr_left fun _ => ⟨fun e => ⟨e.acknowledgementsBounded, e.acknowledgementsExact,
    e.acknowledgementsDistinct, fun a ha => ?_⟩, fun acked => ?_⟩
  · obtain ⟨finding, hf, same, warning⟩ := e.acknowledgementsWarn a ha
    obtain ⟨row, hrow, rfl⟩ := List.mem_map.mp hf
    exact ⟨row, hrow, same, warning⟩
  · refine ⟨digests _, ?_, ?_, acked.bounded, ?_, ?_, ?_, ?_, ?_, acked.snapshot, acked.distinct, fun a ha => ?_⟩
    · simp [finished]
    · have bound := @length_orderedFindings lib findings
      simp only [finished, List.length_map]
      omega
    · intro row hrow
      obtain ⟨check, _, rfl⟩ := List.mem_map.mp hrow
      rfl
    · simp only [finished, List.map_map]
      exact nodup_releaseChecks
    · intro finding hf
      obtain ⟨row, hrow, rfl⟩ := List.mem_map.mp hf
      obtain ⟨given, _, rfl⟩ := List.mem_map.mp hrow
      exact ⟨rfl, digests _⟩
    · intro finding hf
      obtain ⟨row, hrow, rfl⟩ := List.mem_map.mp hf
      obtain ⟨given, hg, rfl⟩ := List.mem_map.mp hrow
      refine ⟨_, List.mem_map_of_mem (mem_releaseChecks given.check), rfl, ?_⟩
      exact reducedState_of_finding (mem_orderedFindings hg)
    · rw [List.map_map]
      exact fingerprints
    · obtain ⟨row, hrow, same, warning⟩ := acked.warns a ha
      exact ⟨_, List.mem_map_of_mem hrow, same, warning⟩

/-- `_finish` does not fail. -/
theorem finish_eq_ok : finish lib revisionId sources states findings =
    .ok (finished lib revisionId sources states findings) := by
  have acked : Acknowledges (finished lib revisionId sources states findings) [] :=
    ⟨Nat.zero_le _, by simp, List.nodup_nil, by simp⟩
  have evaluated := (finished_evaluated_iff digests limit distinct).mpr ⟨acked, rfl⟩
  unfold finish
  rw [seq_eq_ok, require_eq_ok, bind_eq_ok]
  exact ⟨limit, _, mapError_eq_ok.mpr evaluated, rfl⟩

end

/-! ## Readiness and the digest -/

theorem stateOf_finished (check : ReleaseCheck) :
    stateOf ((finished lib revisionId sources states findings).checks.map (·.entry)) check =
      reducedState states findings check := by
  have found : Dict.get? ((finished lib revisionId sources states findings).checks.map (·.entry))
      check = some (reducedState states findings check) := by
    refine (get?_checks ?_).mpr ⟨_, List.mem_map_of_mem (mem_releaseChecks check), rfl, rfl⟩
    simp only [finished, List.map_map]
    exact nodup_releaseChecks
  rw [stateOf, found, Option.getD_some]

theorem mem_finished_findings (distinct : NoCollision lib (findings.map findingPayload))
    {row : ReleasePreflightFinding} :
    row ∈ (finished lib revisionId sources states findings).findings ↔
      ∃ given ∈ findings, given.exact lib (snapshotDigest lib sources states findings) = row := by
  have listed (given : ReleasePreflightFinding) := @mem_ordered_projected lib findings distinct given.projected
  have exact_projected (given : ReleasePreflightFinding) (digest) :
      given.projected.exact lib digest = given.exact lib digest := rfl
  constructor
  · intro h
    obtain ⟨given, hg, rfl⟩ := List.mem_map.mp h
    exact ⟨given, mem_orderedFindings hg, rfl⟩
  · rintro ⟨given, hg, rfl⟩
    obtain ⟨found, hf, same⟩ := List.mem_map.mp ((listed given).mpr (List.mem_map_of_mem hg))
    rw [← exact_projected given, ← same, exact_projected]
    exact List.mem_map_of_mem hf

/-- Nothing unresolved: every category resolved, and every finding a warning that is acknowledged.
-/
def ReadyForReview (lib : Primitives) (digest : String) (states : ReleaseCheck → List ReleaseCheckState)
    (findings : List ReleasePreflightFinding) (acknowledgements : List ReleaseWarningAcknowledgement) : Prop :=
  (∀ check, ReleaseCheck.Resolved check (reducedState states findings check)) ∧
    ∀ row ∈ findings, row.severity = .warning ∧
      (row.exact lib digest).fingerprint ∈ acknowledgements.map (·.findingFingerprint)

theorem finished_eligible_iff (distinct : NoCollision lib (findings.map findingPayload))
    {acknowledgements : List ReleaseWarningAcknowledgement} :
    (unresolved (snapshotDigest lib sources states findings)
        ((finished lib revisionId sources states findings).checks.map (·.entry))
        (((finished lib revisionId sources states findings).findings.map
          (·.evidence (snapshotDigest lib sources states findings))).map (·.entry))
        (acknowledgements.map (·.findingFingerprint))).eligibleForReview = true ↔
      ReadyForReview lib (snapshotDigest lib sources states findings) states findings acknowledgements := by
  rw [eligible_iff]
  simp only [stateOf_finished]
  refine and_congr_right fun _ => ⟨fun h row hrow => ?_, fun h finding hf => ?_⟩
  · have listed := (@mem_finished_findings lib findings sources states revisionId distinct _).mpr ⟨row, hrow, rfl⟩
    exact h _ (List.mem_map_of_mem (List.mem_map_of_mem listed))
  · obtain ⟨_, hevidence, rfl⟩ := List.mem_map.mp hf
    obtain ⟨row, hrow, rfl⟩ := List.mem_map.mp hevidence
    obtain ⟨given, hg, rfl⟩ := (@mem_finished_findings lib findings sources states revisionId distinct _).mp hrow
    exact h given hg

/-- A category without a state, or one of whose states is neither satisfied nor inapplicable,
keeps the release back. -/
theorem not_ready_of_missing {digest : String} {acknowledgements : List ReleaseWarningAcknowledgement}
    {check : ReleaseCheck} (missing : statesWith states findings check = [] ∨ ∃ state ∈ states check, state.Failed) :
    ¬ ReadyForReview lib digest states findings acknowledgements := by
  rintro ⟨resolved, _⟩
  have failed : (reducedState states findings check).Failed := by
    refine combine_failed_iff.mpr (missing.imp id ?_)
    rintro ⟨state, hstate, failed⟩
    exact ⟨state, List.mem_append_left _ hstate, failed⟩
  rcases resolved check with satisfied | ⟨absent, _⟩
  · exact failed.1 satisfied
  · exact failed.2 absent

/-- A text of an owner that is not known says that the state is missing. -/
theorem readiness_failed_iff {text : String} :
    (releaseStateFromReadiness text).Failed ↔ text ≠ "satisfied" ∧ text ≠ "not_applicable" := by
  unfold releaseStateFromReadiness
  cases found : [ReleaseCheckState.satisfied, .notApplicable, .blocked, .stale, .unavailable].find? (·.value = text) with
  | some state =>
    have value : state.value = text := by simpa using List.find?_some found
    subst value
    cases state <;> simp [ReleaseCheckState.Failed, ReleaseCheckState.value]
  | none =>
    have absent := List.find?_eq_none.mp found
    refine iff_of_true ?_ ⟨?_, ?_⟩
    · dsimp only
      split <;> exact ⟨by decide, by decide⟩
    · exact fun same => absent .satisfied (by simp) (by simp [same, ReleaseCheckState.value])
    · exact fun same => absent .notApplicable (by simp) (by simp [same, ReleaseCheckState.value])

/-- The same evidence: the same sources, reduced states and set of findings. -/
structure SameEvidence (sources : ReleaseSources) (states : ReleaseCheck → List ReleaseCheckState)
    (findings : List ReleasePreflightFinding) (sources' : ReleaseSources) (states' : ReleaseCheck →
      List ReleaseCheckState)
    (findings' : List ReleasePreflightFinding) : Prop where
  sources : sources.members.Perm sources'.members
  states : ∀ check, reducedState states findings check = reducedState states' findings' check
  findings : ∀ row, row ∈ findings.map (·.projected) ↔ row ∈ findings'.map (·.projected)

theorem digest_eq_iff (distinct : NoCollision lib
      (finishDocuments lib sources states findings ++ finishDocuments lib sources' states' findings')) :
    snapshotDigest lib sources states findings = snapshotDigest lib sources' states' findings' ↔
      SameEvidence sources states findings sources' states' findings' := by
  have payloads : NoCollision lib (findings.map findingPayload) := distinct.mono fun d hd =>
    List.mem_append_left _ (List.mem_append_left _ (List.mem_append_left _ hd))
  have payloads' : NoCollision lib (findings'.map findingPayload) := distinct.mono fun d hd =>
    List.mem_append_right _ (List.mem_append_left _ (List.mem_append_left _ hd))
  have document : evidenceDocument sources (reducedState states findings) (orderedFindings lib findings) =
      evidenceDocument sources' (reducedState states' findings') (orderedFindings lib findings') ↔
      SameEvidence sources states findings sources' states' findings' := by
    rw [evidenceDocument_eq_iff, ordered_projected_eq_iff payloads payloads']
    exact ⟨fun h => ⟨h.1, h.2.1, h.2.2⟩, fun h => ⟨h.sources, h.states, h.findings⟩⟩
  rw [← document]
  refine ⟨fun same => ?_, congrArg (schedulingDigest lib)⟩
  exact distinct.eq (by simp [finishDocuments]) (by simp [finishDocuments])
    (evidenceDocument_canonical _ _ _) (evidenceDocument_canonical _ _ _) same

/-- The same evidence has the same preflight. -/
theorem finished_eq_of_same (same : SameEvidence sources states findings sources' states' findings')
    (distinct : NoCollision lib
      (finishDocuments lib sources states findings ++ finishDocuments lib sources' states' findings')) :
    finished lib revisionId sources states findings = finished lib revisionId sources' states' findings' := by
  have digest := (digest_eq_iff distinct).mpr same
  have payloads : NoCollision lib (findings.map findingPayload) := distinct.mono fun d hd =>
    List.mem_append_left _ (List.mem_append_left _ (List.mem_append_left _ hd))
  have payloads' : NoCollision lib (findings'.map findingPayload) := distinct.mono fun d hd =>
    List.mem_append_right _ (List.mem_append_left _ (List.mem_append_left _ hd))
  have ordered := (ordered_projected_eq_iff payloads payloads').mpr same.findings
  have exact_eq (digest) : (orderedFindings lib findings).map (·.exact lib digest) =
      (orderedFindings lib findings').map (·.exact lib digest) := by
    have := congrArg (List.map (·.exact lib digest)) ordered
    rwa [List.map_map, List.map_map] at this
  unfold finished
  dsimp only
  rw [digest, exact_eq, funext same.states]

/-- The preflight of any states and findings within the limit is finished; its evidence is
evaluated exactly with acknowledgements of its own warnings, and leaves nothing unresolved
exactly if every category is resolved and every finding is a warning and acknowledged; its digest
stands for the evidence. -/
theorem finish_evaluates (lib : Primitives) (digests : ∀ bytes, isReleaseDigest (lib.sha256 bytes)) (revisionId : Uuid)
    (sources : ReleaseSources) (states : ReleaseCheck → List ReleaseCheckState) (findings : List ReleasePreflightFinding)
    (limit : findings.length ≤ maxConflicts)
    (distinct : NoCollision lib (finishDocuments lib sources states findings)) :
    ∃ preflight, finish lib revisionId sources states findings = .ok preflight ∧
      preflight.evaluated [] = .ok preflight.eligibility ∧
      (∀ acknowledgements, (∃ eligibility, preflight.evaluated acknowledgements = .ok eligibility) ↔
        Acknowledges preflight acknowledgements) ∧
      (∀ acknowledgements eligibility, preflight.evaluated acknowledgements = .ok eligibility →
        (eligibility.eligibleForReview = true ↔
          ReadyForReview lib preflight.snapshotDigest states findings acknowledgements) ∧
        ∀ check, (statesWith states findings check = [] ∨ (∃ state ∈ states check, state.Failed) ∨
            ∃ text, text ≠ "satisfied" ∧ text ≠ "not_applicable" ∧ releaseStateFromReadiness text ∈ states check) →
          eligibility.eligibleForReview = false) ∧
      ∀ sources' states' findings' preflight',
        finish lib revisionId sources' states' findings' = .ok preflight' → NoCollision lib
          (finishDocuments lib sources states findings ++ finishDocuments lib sources' states' findings') →
        (preflight.snapshotDigest = preflight'.snapshotDigest ↔
          SameEvidence sources states findings sources' states' findings') ∧
        (SameEvidence sources states findings sources' states' findings' → preflight = preflight') := by
  have payloads : NoCollision lib (findings.map findingPayload) := distinct.mono fun d hd =>
    List.mem_append_left _ (List.mem_append_left _ hd)
  have evaluated (acks e) := @finished_evaluated_iff lib findings sources states revisionId digests limit distinct acks e
  refine ⟨finished lib revisionId sources states findings, finish_eq_ok digests limit distinct, ?_, ?_, ?_, ?_⟩
  · exact (evaluated _ _).mpr ⟨⟨Nat.zero_le _, by simp, List.nodup_nil, by simp⟩, rfl⟩
  · exact fun acks => ⟨fun ⟨e, he⟩ => ((evaluated acks e).mp he).1,
      fun acked => ⟨_, (evaluated acks _).mpr ⟨acked, rfl⟩⟩⟩
  · intro acks e he
    obtain ⟨_, rfl⟩ := (evaluated acks e).mp he
    have ready := @finished_eligible_iff lib findings sources states revisionId payloads acks
    refine ⟨ready, fun check missing => ?_⟩
    rw [← Bool.not_eq_true, ready]
    refine @not_ready_of_missing lib findings states _ _ check (missing.imp id ?_)
    rintro (failed | ⟨text, unsatisfied, applicable, mem⟩)
    · exact failed
    · exact ⟨_, mem, readiness_failed_iff.mpr ⟨unsatisfied, applicable⟩⟩
  · intro sources' states' findings' preflight' finish' both
    have limit' : findings'.length ≤ maxConflicts := by
      unfold finish at finish'
      rw [seq_eq_ok, require_eq_ok] at finish'
      exact finish'.1
    rw [finish_eq_ok digests limit' (both.mono (List.subset_append_right _ _))] at finish'
    obtain rfl := Except.ok.inj finish'
    exact ⟨digest_eq_iff both, fun same => finished_eq_of_same same both⟩

/-! ## A warning that is acknowledged -/

def candidateSources : ReleaseSources where
  members := [("candidate_version", .int 3)]
  distinct := by decide
  own := by decide
  canonical := by
    intro m hm
    obtain rfl := List.mem_singleton.mp hm
    exact Nat.le_of_ble_eq_true rfl

def preferenceWarning : ReleasePreflightFinding where
  check := .hosts
  code := "host_outside_preference"
  severity := .warning
  occurrenceId := none
  otherOccurrenceId := none

def candidateStates (_ : ReleaseCheck) : List ReleaseCheckState := [.satisfied]

/-- No owner has answered for the hosts. -/
def statesWithoutHosts (check : ReleaseCheck) : List ReleaseCheckState := if check = .hosts then [] else [.satisfied]

def candidateDigest : String := "8413cabf58e8cb1b8e91726221664caee4657f5c7c78b8c499990ae00d829d05"

def preferenceFingerprint : String := "06ad00c525d75b6ff8dff403d787dde809e0b0f7f3d724a5fa4a77cb28ab7e56"

/-- The SHA-256 of the three documents of that warning, told apart by their lengths. -/
def releaseLibrary : Primitives where
  nfc := id
  isControl _ := false
  sha256 bytes :=
    if bytes.size = 119 then "6244c7c69be838f0261e3a8837750ce83ba3a7136977e5b11751b52a42ca2d10"
    else if bytes.size = 443 then candidateDigest
    else if bytes.size = 209 then preferenceFingerprint
    else "0000000000000000000000000000000000000000000000000000000000000000"

theorem releaseLibrary_digests (bytes : ByteArray) : isReleaseDigest (releaseLibrary.sha256 bytes) := by
  unfold releaseLibrary
  dsimp only
  split_ifs
  · decide
  · decide
  · decide
  · decide

/-- The library tells documents of the three lengths apart. -/
theorem releaseLibrary_lengths : ∀ n ∈ [119, 209, 443], ∀ m ∈ [119, 209, 443], ∀ a b : ByteArray,
    a.size = n → b.size = m → releaseLibrary.sha256 a = releaseLibrary.sha256 b → n = m := by
  intro n hn m hm a b ha hb same
  simp only [List.mem_cons, List.not_mem_nil, or_false] at hn hm
  unfold releaseLibrary at same
  dsimp only at same
  rw [ha, hb] at same
  rcases hn with rfl | rfl | rfl <;> rcases hm with rfl | rfl | rfl <;>
    first | rfl | exact absurd same (by decide)

theorem size_preferenceDocuments : (findingPayload preferenceWarning).encode.size = 119 ∧
    (fingerprintDocument candidateDigest preferenceWarning).encode.size = 209 ∧
    (evidenceDocument candidateSources (fun _ => .satisfied) [preferenceWarning]).encode.size = 443 := by
  rw [Json.size_encode, Json.size_encode, Json.size_encode]
  decide +kernel

section

variable {states : ReleaseCheck → List ReleaseCheckState}
  (satisfied : ∀ check, reducedState states [preferenceWarning] check = .satisfied)

include satisfied

theorem preference_digest : snapshotDigest releaseLibrary candidateSources states
    [preferenceWarning] = candidateDigest := by
  unfold snapshotDigest
  rw [show orderedFindings releaseLibrary [preferenceWarning] = [preferenceWarning] from rfl, funext satisfied]
  unfold schedulingDigest releaseLibrary
  dsimp only
  rw [size_preferenceDocuments.2.2]
  rfl

theorem preference_noCollision :
    NoCollision releaseLibrary (finishDocuments releaseLibrary candidateSources states [preferenceWarning]) := by
  have documents : finishDocuments releaseLibrary candidateSources states [preferenceWarning] =
      [findingPayload preferenceWarning, fingerprintDocument candidateDigest preferenceWarning,
        evidenceDocument candidateSources (fun _ => .satisfied) [preferenceWarning]] := by
    unfold finishDocuments
    rw [preference_digest satisfied, funext satisfied]
    rfl
  have lengths : (finishDocuments releaseLibrary candidateSources states [preferenceWarning]).map
      (·.encode.size) = [119, 209, 443] := by
    rw [documents, List.map_cons, List.map_cons, List.map_cons, size_preferenceDocuments.1,
      size_preferenceDocuments.2.1, size_preferenceDocuments.2.2]
    rfl
  have nodup : ((finishDocuments releaseLibrary candidateSources states [preferenceWarning]).map
    (·.encode.size)).Nodup := by
    rw [lengths]
    decide
  intro a ha b hb same
  refine congrArg Json.encode (List.inj_on_of_nodup_map nodup ha hb ?_)
  exact releaseLibrary_lengths _ (lengths ▸ List.mem_map_of_mem ha) _ (lengths ▸ List.mem_map_of_mem hb) _ _ rfl rfl same

end

theorem candidateStates_satisfied (check : ReleaseCheck) :
    reducedState candidateStates [preferenceWarning] check = .satisfied := by
  cases check <;> rfl

theorem statesWithoutHosts_satisfied (check : ReleaseCheck) :
    reducedState statesWithoutHosts [preferenceWarning] check = .satisfied := by
  cases check <;> rfl

def preferenceAcknowledgement : ReleaseWarningAcknowledgement where
  snapshotDigest := candidateDigest
  findingFingerprint := preferenceFingerprint

def foreignAcknowledgement : ReleaseWarningAcknowledgement where
  snapshotDigest := preferenceFingerprint
  findingFingerprint := preferenceFingerprint

theorem candidate_finish_evaluates : ∃ preflight,
    finish releaseLibrary 1 candidateSources candidateStates [preferenceWarning] = .ok preflight ∧
      preflight.evaluated [] = .ok preflight.eligibility := by
  obtain ⟨preflight, finished, evaluated, _⟩ := finish_evaluates releaseLibrary releaseLibrary_digests 1 candidateSources
    candidateStates [preferenceWarning] (by decide) (preference_noCollision candidateStates_satisfied)
  exact ⟨preflight, finished, evaluated⟩

/-- A category without any state is resolved by a warning that is acknowledged, and an
acknowledgement that was given to another digest is refused. -/
theorem statesWithoutHosts_acknowledged : statesWithoutHosts .hosts = [] ∧ ∃ preflight,
    finish releaseLibrary 1 candidateSources statesWithoutHosts [preferenceWarning] = .ok preflight ∧
      (∃ eligibility, preflight.evaluated [preferenceAcknowledgement] = .ok eligibility ∧
        eligibility.eligibleForReview = true) ∧
      preflight.evaluated [foreignAcknowledgement] = .error releaseEvidenceInvalid := by
  have distinct := preference_noCollision statesWithoutHosts_satisfied
  have digest := preference_digest statesWithoutHosts_satisfied
  have limit : [preferenceWarning].length ≤ maxConflicts := by decide
  have fingerprint : schedulingDigest releaseLibrary
      (fingerprintDocument candidateDigest preferenceWarning) = preferenceFingerprint := by
    unfold schedulingDigest releaseLibrary
    dsimp only
    rw [size_preferenceDocuments.2.1]
    rfl
  have payloads : NoCollision releaseLibrary ([preferenceWarning].map findingPayload) := distinct.mono fun d hd =>
    List.mem_append_left _ (List.mem_append_left _ hd)
  have evaluated (acks e) := @finished_evaluated_iff releaseLibrary _ _ _ 1 releaseLibrary_digests limit distinct acks e
  refine ⟨rfl, _, finish_eq_ok releaseLibrary_digests limit distinct, ⟨_, (evaluated _ _).mpr ⟨?_, rfl⟩, ?_⟩, ?_⟩
  · refine ⟨by decide, ?_, List.nodup_singleton _, ?_⟩
    · intro a ha
      obtain rfl := List.mem_singleton.mp ha
      exact digest.symm
    · intro a ha
      obtain rfl := List.mem_singleton.mp ha
      refine ⟨_, (mem_finished_findings payloads).mpr ⟨preferenceWarning, by simp, rfl⟩, ?_, rfl⟩
      rw [digest]
      exact fingerprint
  · refine (finished_eligible_iff payloads).mpr
      ⟨fun check => .inl (statesWithoutHosts_satisfied check), fun row hrow => ?_⟩
    obtain rfl := List.mem_singleton.mp hrow
    refine ⟨rfl, List.mem_singleton.mpr ?_⟩
    rw [digest]
    exact fingerprint
  · cases outcome : (finished releaseLibrary 1 candidateSources statesWithoutHosts [preferenceWarning]).evaluated
        [foreignAcknowledgement] with
    | ok e =>
      have own := ((evaluated _ e).mp outcome).1.snapshot _ (List.mem_singleton_self _)
      exact absurd (own.trans digest) (by decide)
    | error e => rw [evaluate_error outcome]

end Maru.Scheduling

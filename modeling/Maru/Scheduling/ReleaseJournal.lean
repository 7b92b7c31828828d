import Maru.Scheduling.CommandSupport
import Maru.Scheduling.ReleaseDependencyRules

/-!
# The journal of release dependencies

The rows of `scheduling/models.py`, the writer of migration 0009 with the guards of migration 0008,
and `_dependency_state` of `scheduling/release_queries.py`. The writer advances a source's
generation together with the change that says so, and nothing else writes either, so every journal
is whole (`run_whole`) and a release that was invalidated stays so (`invalidatedBy_continues`).
-/

namespace Maru.Scheduling

inductive ReleaseDependencyKind
  | editionOperational
  | programmeItem
  | programmeHostOperational
  | programmeHostDisclosure
  | programmePublicCopy
  | workforceDemand
  | workforceAssignment
  | workforceAvailability
  | workforcePersonObligations
  | venueProperty
  | venueMember
  | venueSelection
  | venueBooking
  | identityAccount
deriving DecidableEq

/-- `GLOBAL_RELEASE_DEPENDENCIES` -/
def globalReleaseDependencies : List ReleaseDependencyKind := [.identityAccount, .workforcePersonObligations]

/-- `ORGANIZATION_RELEASE_DEPENDENCIES` -/
def organizationReleaseDependencies : List ReleaseDependencyKind := [.venueProperty, .venueMember]

/-- `MAX_RELEASE_DEPENDENCY_USES` -/
def maxReleaseDependencyUses : Nat := 65536

/-- A native source with its generation, and the changes that refer to it:
`sch_release_change_generation_uq`. -/
structure SchedulingReleaseDependencyKey where
  id : Uuid
  organizationId : Option Uuid
  editionId : Option Uuid
  kind : ReleaseDependencyKind
  sourceId : Uuid
  generation : Int
  changes : Table (SchedulingReleaseDependencyChange.generation)

abbrev ReleaseDependencyKeys := Table (SchedulingReleaseDependencyKey.id)

/-- The key of a source. -/
def ReleaseDependencyKeys.ofSource (keys : ReleaseDependencyKeys) (kind : ReleaseDependencyKind)
    (sourceId : Uuid) : Option SchedulingReleaseDependencyKey :=
  keys.rows.find? fun key => key.kind = kind ∧ key.sourceId = sourceId

/-! ## The writer -/

/-- `sch_release_dependency_scope` -/
def ScopeOfKind (kind : ReleaseDependencyKind) (organizationId editionId : Option Uuid) : Prop :=
  if kind ∈ globalReleaseDependencies then organizationId = none ∧ editionId = none
  else if kind ∈ organizationReleaseDependencies then organizationId ≠ none ∧ editionId = none
  else organizationId ≠ none ∧ editionId ≠ none

instance (kind : ReleaseDependencyKind) (organizationId editionId : Option Uuid) :
    Decidable (ScopeOfKind kind organizationId editionId) := by
  unfold ScopeOfKind
  infer_instance

inductive ReleaseJournalWrite
  /-- A capture's `get_or_create`: a source that is not tracked yet gets a key. -/
  | track (id : Uuid) (organizationId editionId : Option Uuid) (kind : ReleaseDependencyKind) (sourceId : Uuid)
  /-- `maru_scheduling_record_native_release_change`, at the time `now`. -/
  | record (kind : ReleaseDependencyKind) (sourceId auditId : Uuid) (now : Int)

/-- `get_or_create` of `_capture_release_generations` -/
def trackReleaseSource (keys : ReleaseDependencyKeys) (id : Uuid) (organizationId editionId : Option Uuid)
    (kind : ReleaseDependencyKind) (sourceId : Uuid) : Except SchedulingCommandError ReleaseDependencyKeys :=
  match keys.ofSource kind sourceId with
  | some _ => return keys
  | none => do
    require (ScopeOfKind kind organizationId editionId) (.integrity "sch_release_dependency_scope")
    getOr (.integrity "scheduling_schedulingreleasedependencykey_pkey")
      (keys.insert? { id, organizationId, editionId, kind, sourceId, generation := 1, changes := ∅ })

/-- `maru_scheduling_record_native_release_change`, once the change is found to be native. -/
def recordNativeReleaseChange (keys : ReleaseDependencyKeys) (kind : ReleaseDependencyKind)
    (sourceId auditId : Uuid) (now : Int) : Except SchedulingCommandError ReleaseDependencyKeys :=
  match keys.ofSource kind sourceId with
  | none => return keys
  | some key =>
    if key.changes.rows.any (·.sourceAuditId = auditId) then return keys
    else do
      require (IsGeneration (key.generation + 1)) (.integrity "sch_release_dependency_gen")
      let changes ← getOr (.integrity "sch_release_change_generation_uq")
        (key.changes.insert? ⟨key.generation + 1, auditId, now⟩)
      return keys.save { key with generation := key.generation + 1, changes }

def ReleaseJournalWrite.exec (keys : ReleaseDependencyKeys) :
    ReleaseJournalWrite → Except SchedulingCommandError ReleaseDependencyKeys
  | .track id organizationId editionId kind sourceId => trackReleaseSource keys id organizationId editionId kind sourceId
  | .record kind sourceId auditId now => recordNativeReleaseChange keys kind sourceId auditId now

/-- The writes to the keys and their changes. -/
def releaseJournal : Machine ReleaseDependencyKeys ReleaseJournalWrite Unit SchedulingCommandError where
  exec keys write := do
    let keys ← write.exec keys
    return (keys, ())

/-! ## The state of a release -/

structure SchedulingReleaseDependency where
  dependencyId : Uuid
  capturedGeneration : Int
  horizon : ReleaseDependencyHorizon
  operationalEndsAt : Option Int

structure SchedulingReleaseApproval where
  dependencyCount : Int
  dependencies : List SchedulingReleaseDependency

structure SchedulingRelease where
  organizationId : Uuid
  editionId : Uuid
  approval : SchedulingReleaseApproval

inductive ProgrammeReleaseState
  | absent
  | withdrawn
  | invalidated
  | available
deriving DecidableEq

/-- `expected_scope` -/
def SchedulingRelease.expectedScope (release : SchedulingRelease)
    (kind : ReleaseDependencyKind) : Option Uuid × Option Uuid :=
  if kind ∈ globalReleaseDependencies then (none, none)
  else if kind ∈ organizationReleaseDependencies then (some release.organizationId, none)
  else (some release.organizationId, some release.editionId)

/-- What a dependency means for serving, its key being `key`. -/
def servingConsequence (key : SchedulingReleaseDependencyKey) (dependency : SchedulingReleaseDependency) :
    Except ReleaseDependencyError ReleaseDependencyConsequence :=
  evaluateReleaseDependency dependency.capturedGeneration key.generation dependency.horizon .serving
    dependency.operationalEndsAt (changeWindow dependency.capturedGeneration key.generation key.changes.rows)

/-- The loop's body: whether a dependency invalidates the release. -/
def dependencyInvalidates (keys : ReleaseDependencyKeys) (release : SchedulingRelease)
    (dependency : SchedulingReleaseDependency) : Except SchedulingCommandError Bool := do
  let key ← getOr .unavailable (keys.get? dependency.dependencyId)
  require ((key.organizationId, key.editionId) = release.expectedScope key.kind) .unavailable
  match servingConsequence key dependency with
  | .error _ => throw .unavailable
  | .ok .unavailable => throw .unavailable
  | .ok consequence => return consequence = .invalidated

/-- The loop of `_dependency_state`. -/
def invalidatedBy (keys : ReleaseDependencyKeys) (release : SchedulingRelease) :
    Bool → List SchedulingReleaseDependency → Except SchedulingCommandError Bool
  | invalidated, [] => return invalidated
  | invalidated, dependency :: dependencies => do
    let invalidates ← dependencyInvalidates keys release dependency
    invalidatedBy keys release (invalidated || invalidates) dependencies

/-- `_dependency_state` -/
def dependencyState (keys : ReleaseDependencyKeys) (release : SchedulingRelease) :
    Except SchedulingCommandError ProgrammeReleaseState := do
  let rows := release.approval.dependencies.take (maxReleaseDependencyUses + 1)
  require (1 ≤ rows.length ∧ rows.length = release.approval.dependencyCount ∧
    rows.length ≤ maxReleaseDependencyUses) .unavailable
  let invalidated ← invalidatedBy keys release false rows
  return if invalidated then .invalidated else .available

/-! ## Whole journals -/

/-- A key's changes are exactly those of the generations after the first. -/
structure SchedulingReleaseDependencyKey.Whole (key : SchedulingReleaseDependencyKey) : Prop where
  generation : IsGeneration key.generation
  upto : ∀ change ∈ key.changes, change.generation ≤ key.generation
  each : CompleteSince 1 key.generation key.changes.rows

/-- A key that goes on: its source is the same, its changes stay. -/
structure SchedulingReleaseDependencyKey.Continues (key key' : SchedulingReleaseDependencyKey) : Prop where
  organizationId : key'.organizationId = key.organizationId
  editionId : key'.editionId = key.editionId
  kind : key'.kind = key.kind
  extended : JournalExtends key.generation key.changes.rows key'.generation key'.changes.rows

theorem SchedulingReleaseDependencyKey.Continues.refl (key : SchedulingReleaseDependencyKey) : key.Continues key :=
  ⟨rfl, rfl, rfl, le_refl _, fun _ hc _ => hc⟩

theorem SchedulingReleaseDependencyKey.Continues.trans (a b c : SchedulingReleaseDependencyKey)
    (h : a.Continues b) (h' : b.Continues c) : a.Continues c where
  organizationId := h'.organizationId.trans h.organizationId
  editionId := h'.editionId.trans h.editionId
  kind := h'.kind.trans h.kind
  extended := ⟨h.extended.later.trans h'.extended.later, fun change hc upto =>
    h'.extended.kept change (h.extended.kept change hc upto) (upto.trans h.extended.later)⟩

/-- What one write can do. -/
theorem exec_cases {keys keys' : ReleaseDependencyKeys} {write : ReleaseJournalWrite}
    (h : write.exec keys = .ok keys') : keys' = keys ∨
    (∃ key, keys.insert? key = some keys' ∧ key.generation = 1 ∧ key.changes = ∅) ∨
    ∃ key changes auditId now, key ∈ keys ∧ IsGeneration (key.generation + 1) ∧
      key.changes.insert? ⟨key.generation + 1, auditId, now⟩ = some changes ∧
      keys' = keys.save { key with generation := key.generation + 1, changes := changes } := by
  cases write with
  | track id organizationId editionId kind sourceId =>
    simp only [ReleaseJournalWrite.exec, trackReleaseSource] at h
    split at h
    · exact .inl (pure_eq_ok.mp h).symm
    · simp only [bind_eq_ok, getOr_eq_ok] at h
      obtain ⟨_, _, inserted⟩ := h
      exact .inr (.inl ⟨_, inserted, rfl, rfl⟩)
  | record kind sourceId auditId now =>
    simp only [ReleaseJournalWrite.exec, recordNativeReleaseChange] at h
    split at h
    · exact .inl (pure_eq_ok.mp h).symm
    · rename_i key found
      split at h
      · exact .inl (pure_eq_ok.mp h).symm
      · simp only [bind_eq_ok, require_eq_ok, getOr_eq_ok, pure_eq_ok] at h
        obtain ⟨_, generation, changes, inserted, rfl⟩ := h
        exact .inr (.inr ⟨key, changes, auditId, now, List.mem_of_find?_eq_some found, generation, inserted, rfl⟩)

theorem Whole.of_new {key : SchedulingReleaseDependencyKey} (generation : key.generation = 1)
    (changes : key.changes = ∅) : key.Whole where
  generation := by rw [generation]; decide
  upto := fun change hc => by rw [changes] at hc; exact absurd hc Table.not_mem_empty
  each := ⟨generation.ge, fun _ after upto => by omega⟩

/-- A change recorded with the next generation keeps the journal whole, and goes on with it. -/
theorem Whole.record {key : SchedulingReleaseDependencyKey} (whole : key.Whole)
    {changes : Table SchedulingReleaseDependencyChange.generation} {auditId : Uuid} {now : Int}
    (generation : IsGeneration (key.generation + 1))
    (inserted : key.changes.insert? ⟨key.generation + 1, auditId, now⟩ = some changes) :
    SchedulingReleaseDependencyKey.Whole { key with generation := key.generation + 1, changes := changes } ∧
      key.Continues { key with generation := key.generation + 1, changes := changes } := by
  have mem {change : SchedulingReleaseDependencyChange} := Table.mem_insert? inserted (a := change)
  refine ⟨⟨generation, fun change hc => ?_, ?_, fun passed after upto => ?_⟩, ⟨rfl, rfl, rfl, ?_, fun change hc _ => ?_⟩⟩
  · rcases mem.mp hc with hc | rfl
    · exact (whole.upto change hc).trans (by dsimp only; omega)
    · exact le_refl _
  · have := whole.each.1
    dsimp only
    omega
  · dsimp only at upto
    obtain earlier | same := Int.lt_or_eq_of_le upto
    · obtain ⟨change, hc, rfl⟩ := List.mem_map.mp (whole.each.2 passed after (by omega))
      exact List.mem_map_of_mem (mem.mpr (.inl hc))
    · exact List.mem_map.mpr ⟨_, mem.mpr (.inr rfl), same.symm⟩
  · dsimp only
    omega
  · exact mem.mpr (.inl hc)

/-- One write keeps every journal whole and goes on with it. -/
theorem exec_whole {keys keys' : ReleaseDependencyKeys} {write : ReleaseJournalWrite}
    (h : write.exec keys = .ok keys') (whole : ∀ key ∈ keys, key.Whole) :
    (∀ key ∈ keys', key.Whole) ∧ keys.Keeps SchedulingReleaseDependencyKey.Continues keys' := by
  rcases exec_cases h with rfl | ⟨key, inserted, generation, changes⟩ | ⟨key, changes, auditId,
    now, hk, generation, inserted, rfl⟩
  · exact ⟨whole, Table.Keeps.refl SchedulingReleaseDependencyKey.Continues.refl _⟩
  · refine ⟨fun key' hk' => ?_, Table.keeps_insert? SchedulingReleaseDependencyKey.Continues.refl inserted⟩
    rcases (Table.mem_insert? inserted).mp hk' with hk' | rfl
    · exact whole key' hk'
    · exact Whole.of_new generation changes
  · obtain ⟨recorded, continued⟩ := Whole.record (whole key hk) generation inserted
    refine ⟨fun key' hk' => ?_, Table.keeps_save SchedulingReleaseDependencyKey.Continues.refl fun b hb => ?_⟩
    · rcases Table.mem_save.mp hk' with ⟨hk', _⟩ | ⟨rfl, _⟩
      · exact whole key' hk'
      · exact recorded
    · rw [Table.get?_eq_some.mpr ⟨hk, rfl⟩] at hb
      obtain rfl := Option.some.inj hb
      exact continued

theorem run_whole {keys : ReleaseDependencyKeys} (whole : ∀ key ∈ keys, key.Whole)
    (writes : List ReleaseJournalWrite) : (∀ key ∈ releaseJournal.run keys writes, key.Whole) ∧
      keys.Keeps SchedulingReleaseDependencyKey.Continues (releaseJournal.run keys writes) := by
  refine Machine.run_invariant (I := fun keys' => (∀ key ∈ keys', key.Whole) ∧
    keys.Keeps SchedulingReleaseDependencyKey.Continues keys') ?_
    ⟨whole, Table.Keeps.refl SchedulingReleaseDependencyKey.Continues.refl _⟩ writes
  rintro s write s' r ⟨hs, kept⟩ h
  simp only [releaseJournal, bind_eq_ok, pure_eq_ok, Prod.mk.injEq] at h
  obtain ⟨_, written, rfl, _⟩ := h
  obtain ⟨whole', step⟩ := exec_whole written hs
  exact ⟨whole', kept.trans SchedulingReleaseDependencyKey.Continues.trans step⟩

/-! ## A release over its journals -/

theorem SchedulingReleaseDependencyKey.Whole.completeSince {key : SchedulingReleaseDependencyKey} (whole : key.Whole)
    {capturedGeneration : Int} (captured : IsGeneration capturedGeneration)
      (upto : capturedGeneration ≤ key.generation) :
    CompleteSince capturedGeneration key.generation key.changes.rows :=
  ⟨upto, fun passed after until' => whole.each.2 passed (lt_of_le_of_lt captured.1 after) until'⟩

theorem dependencyInvalidates_eq_ok {keys : ReleaseDependencyKeys} {release : SchedulingRelease}
    {dependency : SchedulingReleaseDependency} {invalidates : Bool} :
    dependencyInvalidates keys release dependency = .ok invalidates ↔
      ∃ key, keys.get? dependency.dependencyId = some key ∧
        (key.organizationId, key.editionId) = release.expectedScope key.kind ∧
        ∃ consequence, servingConsequence key dependency = .ok consequence ∧
          consequence ≠ .unavailable ∧ invalidates = decide (consequence = .invalidated) := by
  simp only [dependencyInvalidates, bind_eq_ok, getOr_eq_ok, require_eq_ok, exists_and_left, exists_const]
  refine exists_congr fun key => and_congr_right fun _ => and_congr_right fun _ => ?_
  split
  · rename_i error evaluated
    simp [evaluated, throw_ne_ok]
  · rename_i evaluated
    simp [evaluated, throw_ne_ok]
  · rename_i consequence available evaluated
    simp only [evaluated, pure_eq_ok, Except.ok.injEq, exists_eq_left', ne_eq]
    exact ⟨fun h => ⟨fun unavailable => available (by rw [unavailable]), h.symm⟩, fun h => h.2.symm⟩

/-- A dependency that is known stays known, and invalidates what it invalidated. -/
theorem dependencyInvalidates_continues {keys keys' : ReleaseDependencyKeys}
    {release : SchedulingRelease} {dependency : SchedulingReleaseDependency} {invalidates : Bool}
    (continued : keys.Keeps SchedulingReleaseDependencyKey.Continues keys') (whole : ∀ key ∈ keys', key.Whole)
    (h : dependencyInvalidates keys release dependency = .ok invalidates) :
    ∃ invalidates', dependencyInvalidates keys' release dependency = .ok invalidates' ∧
      (invalidates = true → invalidates' = true) := by
  obtain ⟨key, found, scope, consequence, evaluated, available, rfl⟩ := dependencyInvalidates_eq_ok.mp h
  obtain ⟨key', found', goes⟩ := continued _ key found
  have whole' := whole key' (Table.get?_eq_some.mp found').1
  have accepted := ((evaluateReleaseDependency_eq_ok key.changes.nodup).mp evaluated).1
  have complete := (evaluateReleaseDependency_journal key.changes.nodup evaluated).1.mp available
  have complete' := whole'.completeSince accepted.captured (complete.1.trans goes.extended.later)
  have evaluated' : servingConsequence key' dependency = .ok _ :=
    (evaluateReleaseDependency_eq_ok key'.changes.nodup).mpr
      ⟨⟨accepted.captured, whole'.generation, accepted.purpose⟩, rfl⟩
  refine ⟨_, dependencyInvalidates_eq_ok.mpr ⟨key', found', ?_, _, evaluated', ?_, rfl⟩, fun invalidated => ?_⟩
  · rw [goes.organizationId, goes.editionId, goes.kind, scope]
  · exact (evaluateReleaseDependency_journal key'.changes.nodup evaluated').1.mpr complete'
  · rw [of_decide_eq_true invalidated] at evaluated
    have stays : servingConsequence key' dependency = .ok .invalidated :=
      evaluateReleaseDependency_extends key.changes.nodup key'.changes.nodup whole'.generation
        goes.extended complete' evaluated
    rw [evaluated'] at stays
    exact decide_eq_true (Except.ok.inj stays)

theorem invalidatedBy_continues {keys keys' : ReleaseDependencyKeys} {release : SchedulingRelease}
    (continued : keys.Keeps SchedulingReleaseDependencyKey.Continues keys') (whole : ∀ key ∈ keys', key.Whole)
    (dependencies : List SchedulingReleaseDependency) {seen seen' invalidated : Bool} (kept : seen = true → seen' = true)
    (h : invalidatedBy keys release seen dependencies = .ok invalidated) :
    ∃ invalidated', invalidatedBy keys' release seen' dependencies = .ok invalidated' ∧
      (invalidated = true → invalidated' = true) := by
  induction dependencies generalizing seen seen' with
  | nil => exact ⟨seen', rfl, pure_eq_ok.mp h ▸ kept⟩
  | cons dependency dependencies ih =>
    simp only [invalidatedBy, bind_eq_ok] at h ⊢
    obtain ⟨invalidates, first, rest⟩ := h
    obtain ⟨invalidates', first', stays⟩ := dependencyInvalidates_continues continued whole first
    have either : (seen || invalidates) = true → (seen' || invalidates') = true := by
      simp only [Bool.or_eq_true]
      exact Or.imp kept stays
    obtain ⟨invalidated', rest', later⟩ := ih either rest
    exact ⟨invalidated', ⟨invalidates', first', rest'⟩, later⟩

/-- A release whose state is known keeps a state, and once invalidated it stays so. -/
theorem dependencyState_continues {keys keys' : ReleaseDependencyKeys} {release : SchedulingRelease}
    (continued : keys.Keeps SchedulingReleaseDependencyKey.Continues keys') (whole : ∀ key ∈ keys', key.Whole)
    (h : dependencyState keys release = .ok .invalidated) : dependencyState keys' release = .ok .invalidated := by
  simp only [dependencyState, bind_eq_ok, require_eq_ok, pure_eq_ok, exists_and_left, exists_const] at h ⊢
  obtain ⟨counted, invalidated, found, state⟩ := h
  obtain ⟨invalidated', found', stays⟩ := invalidatedBy_continues continued whole _ id found
  refine ⟨counted, invalidated', found', ?_⟩
  cases invalidated with
  | false => cases state
  | true => rw [stays rfl, if_pos rfl]

/-- The rule on every journal without repetitions, and a release over every run of the journal's
writes: only a whole journal is interpreted; what is invalidated stays so under every whole
journal that goes on, and along every run; changes at or after the end of an operational
dependency do not invalidate it. -/
theorem release_dependency_journal (capturedGeneration currentGeneration : Int) (horizon : ReleaseDependencyHorizon)
    (use : ReleaseDependencyUse) (operationalEndsAt : Option Int)
    (journal : Table SchedulingReleaseDependencyChange.generation) (release : SchedulingRelease) :
    (∀ consequence, evaluateReleaseDependency capturedGeneration currentGeneration horizon use operationalEndsAt
        (changeWindow capturedGeneration currentGeneration journal.rows) = .ok consequence →
      (consequence ≠ .unavailable ↔ CompleteSince capturedGeneration currentGeneration journal.rows) ∧
      (consequence = .invalidated → ∀ currentGeneration',
        ∀ journal' : Table SchedulingReleaseDependencyChange.generation,
        IsGeneration currentGeneration' →
          JournalExtends currentGeneration journal.rows currentGeneration' journal'.rows →
        CompleteSince capturedGeneration currentGeneration' journal'.rows →
        evaluateReleaseDependency capturedGeneration currentGeneration' horizon use operationalEndsAt
          (changeWindow capturedGeneration currentGeneration' journal'.rows) = .ok .invalidated) ∧
      (horizon = .operational → (∀ endsAt ∈ operationalEndsAt,
          ∀ row ∈ changesSince capturedGeneration currentGeneration journal.rows, endsAt ≤ row.recordedAt) →
        consequence ≠ .invalidated)) ∧
    (∀ writes writes', dependencyState (releaseJournal.run ∅ writes) release = .ok .invalidated →
      dependencyState (releaseJournal.run ∅ (writes ++ writes')) release = .ok .invalidated) := by
  refine ⟨fun consequence evaluated => ⟨?_, ?_, ?_⟩, fun writes writes' invalidated => ?_⟩
  · exact (evaluateReleaseDependency_journal journal.nodup evaluated).1
  · rintro rfl currentGeneration' journal' generation extended whole
    exact evaluateReleaseDependency_extends journal.nodup journal'.nodup generation extended whole evaluated
  · intro operational ended invalidated
    exact not_governs_of_ended operational ended
      ((evaluateReleaseDependency_journal journal.nodup evaluated).2.mp invalidated).2.2.2
  · have reached := (@run_whole ∅ (fun _ hk => absurd hk Table.not_mem_empty) writes).1
    obtain ⟨whole, continued⟩ := run_whole reached writes'
    rw [Machine.run_append]
    exact dependencyState_continues continued whole invalidated

/-- An account is tracked, captured and changed before the end of the work, and once more after it.
-/
theorem release_dependency_journal_account :
    let tracked : List ReleaseJournalWrite := [.track 1 none none .identityAccount 7, .record .identityAccount 7 21 50]
    let release : SchedulingRelease := ⟨2, 3, 1, [⟨1, 1, .operational, some 100⟩]⟩
    let journal : Table SchedulingReleaseDependencyChange.generation := ⟨[⟨2, 21, 50⟩], by decide⟩
    let journal' : Table SchedulingReleaseDependencyChange.generation := ⟨[⟨2, 21, 50⟩, ⟨3, 22, 200⟩], by decide⟩
    evaluateReleaseDependency 1 3 .operational .serving (some 100) (changeWindow 1 3 journal'.rows) = .ok .invalidated ∧
      evaluateReleaseDependency 2 3 .operational .serving (some 100)
        (changeWindow 2 3 journal'.rows) ≠ .ok .invalidated ∧
      ¬ CompleteSince 1 3 journal.rows ∧
      dependencyState (releaseJournal.run ∅ (tracked ++ [.record .identityAccount 7 22 200]))
        release = .ok .invalidated := by
  intro tracked release journal journal'
  obtain ⟨rule, run⟩ := release_dependency_journal 1 2 .operational .serving (some 100) journal release
  have extended : JournalExtends 2 journal.rows 3 journal'.rows := ⟨by decide, by decide⟩
  have whole : CompleteSince 1 3 journal'.rows := by
    refine ⟨by decide, fun generation after upto => ?_⟩
    obtain rfl | rfl : generation = 2 ∨ generation = 3 := by omega
    · decide
    · decide
  refine ⟨(rule .invalidated (by decide +kernel)).2.1 rfl 3 journal' (by decide) extended whole, ?_, ?_, ?_⟩
  · have later := (release_dependency_journal 2 3 .operational .serving (some 100) journal' release).1
    exact fun invalidated => (later _ invalidated).2.2 rfl (by decide) rfl
  · have lacking := (release_dependency_journal 1 3 .operational .serving (some 100) journal release).1
    exact fun complete => (lacking .unavailable (by decide +kernel)).1.mpr complete rfl
  · exact run tracked _ (by decide +kernel)

end Maru.Scheduling

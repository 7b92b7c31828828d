import Maru.Framework.Forest
import Maru.Workforce.StructureCommands

/-!
# What a structure command does

An accepted command changes nothing, or it advances the control of its edition by one
version, writes the receipt of that version (`Recorded`) and changes the Departments of the
edition in one of five ways (`Redraws`). `exec_step` says so once for all commands.
-/

namespace Maru.Workforce.Structure

open Table Forest
open Staffing (maxStructureDepartments maxStructureDepth)

/-- The parent of a Department. -/
def parentOf (t : Table Department.id) (id : Uuid) : Option Uuid := (t.get? id).bind Department.parentId

def Department.In (d : Department) (c : EditionStructureControl) : Prop :=
  d.organizationId = c.organizationId ∧ d.editionId = c.editionId

instance (d : Department) (c : EditionStructureControl) : Decidable (d.In c) := inferInstanceAs (Decidable (_ ∧ _))

/-- The Departments from `id` upwards are few and all of the edition. -/
def Lined (t : Table Department.id) (c : EditionStructureControl) (id : Uuid) : Prop :=
  ∃ l, Lineage (parentOf t) (some id) l ∧ l.length ≤ maxStructureDepth ∧ ∀ a ∈ l, ∃ e ∈ t, e.id = a ∧ e.In c

/-- A Department of an edition that is not retired. -/
def IsCurrent (t : Table Department.id) (c : EditionStructureControl) (id : Uuid) : Prop :=
  ∃ e ∈ t, e.id = id ∧ e.In c ∧ e.retiredAt = none

/-- Version by version: the control of an edition, new or advanced, and the
receipt of its version. -/
structure Recorded (s s' : Structures) (c : EditionStructureControl) (x : CommandReceipt) : Prop where
  control : (s.controls.insert? c = some s'.controls ∧ c.aggregateVersion = 1 ∧
      (∀ b ∈ s.controls, b.editionId ≠ c.editionId) ∧ (∀ d ∈ s.departments, ¬ d.In c)) ∨
    ∃ b ∈ s.controls, c = { b with aggregateVersion := b.aggregateVersion + 1 } ∧ s'.controls = s.controls.save c
  inserted : s.receipts.insert? x = some s'.receipts
  structureId : x.structureId = c.id
  organization : x.organizationId = c.organizationId
  edition : x.editionId = c.editionId
  version : x.resultingVersion = c.aggregateVersion
  fresh : ∀ y ∈ s.receipts, y.editionId = x.editionId → y.actorId = x.actorId →
    y.retryKey = x.retryKey → y.retryKey = none

/-- The Departments `t` that a command leaves in an edition, with the receipt it writes. -/
inductive Redraws (s : Structures) (c : EditionStructureControl) (x : CommandReceipt) : Table Department.id → Prop
  | inserted (rows : List Department) (t : Table Department.id) (inserted : s.departments.insertAll? rows = some t)
      (action : x.action = .templateApplied ∨ x.action = .departmentCreated)
      (affected : x.affectedDepartmentIds = rows.map (·.id))
      (each : ∀ d ∈ rows, d.In c ∧ d.createdInStructureVersion = some x.resultingVersion ∧
        d.lastChangedInStructureVersion = some x.resultingVersion ∧ d.retiredAt = none ∧ d.retiredBy = none ∧
        d.retiredInStructureVersion = none)
      (codes : (t.rows.map fun d => (d.editionId, d.code)).Nodup)
      (few : rows.length ≤ maxStructureDepartments)
      (room : c.aggregateVersion = 1 ∨
        s.departments.rows.countP (fun d => d.In c) + rows.length ≤ maxStructureDepartments)
      (lines : ∀ d ∈ rows, Lined t c d.id)
      (parents : ∀ d ∈ rows, ∀ id, d.parentId = some id → IsCurrent t c id) :
      Redraws s c x t
  | updated (d : Department) (hd : d ∈ s.departments) (located : d.In c) (current : d.retiredAt = none)
      (values : DepartmentValues) (action : x.action = .departmentUpdated)
      (affected : x.affectedDepartmentIds = [d.id])
      (lines : ∀ e ∈ s.departments, e.In c →
        Lined (s.departments.save (d.updated values x.resultingVersion)) c e.id)
      (parent : ∀ id, values.parentId = some id → IsCurrent s.departments c id) :
      Redraws s c x (s.departments.save (d.updated values x.resultingVersion))
  | retired (d : Department) (hd : d ∈ s.departments) (located : d.In c) (current : d.retiredAt = none)
      (leaf : ∀ e ∈ s.departments, e.In c → e.retiredAt = none → e.parentId ≠ some d.id)
      (action : x.action = .departmentRetired) (affected : x.affectedDepartmentIds = [d.id]) (at_ : Int)
      (actorId : Uuid) :
      Redraws s c x (s.departments.save (d.retired x.resultingVersion at_ actorId))
  | deleted (d : Department) (hd : d ∈ s.departments) (located : d.In c) (current : d.retiredAt = none)
      (leaf : ∀ e ∈ s.departments, e.In c → e.parentId ≠ some d.id) (creation : CommandReceipt)
      (created : creation.Creates d.createdInStructureVersion)
      (history : (s.receipts.rows.filter fun y => y.organizationId = c.organizationId ∧ y.editionId = c.editionId ∧
        d.id ∈ y.affectedDepartmentIds) = [creation])
      (action : x.action = .departmentDeleted) (affected : x.affectedDepartmentIds = [d.id]) :
      Redraws s c x (s.departments.erase d.id)
  | mentioned (d : Department) (hd : d ∈ s.departments) (located : d.In c) (change : PositionAction)
      (current : change = .created → d.retiredAt = none) (action : x.action = change.action)
      (affected : x.affectedDepartmentIds = [d.id]) :
      Redraws s c x s.departments

/-- What an accepted command does. -/
inductive StructureStep (s s' : Structures) : Prop
  | unchanged (same : s' = s)
  | changed (c : EditionStructureControl) (x : CommandReceipt) (recorded : Recorded s s' c x)
      (departments : Redraws s c x s'.departments)

section

variable {lib : Library} {s s' : Structures} {w : Surroundings} {r : Request} {scope : LockedScope}

/-! ## The scope -/

theorem parentOf_of_mem {t : Table Department.id} {d : Department} (hd : d ∈ t) : parentOf t d.id = d.parentId := by
  unfold parentOf
  rw [get?_eq_some.mpr ⟨hd, rfl⟩, Option.bind_some]

theorem lockScope_department (h : lockScope s w r = .ok scope) {d : Department} :
    d ∈ scope.departments ↔ d ∈ s.departments ∧ d.organizationId = scope.edition.organizationId ∧
      d.editionId = scope.edition.id := by
  simp only [lockScope, bind_eq_ok, pure_eq_ok] at h
  obtain ⟨_, -, _, -, _, -, _, -, _, -, rfl⟩ := h
  rw [List.mem_insertionSort, List.mem_filter, decide_eq_true_eq, mem_def]

theorem lockScope_control (h : lockScope s w r = .ok scope) :
    scope.control = s.controls.rows.find? fun c => c.organizationId = scope.edition.organizationId ∧
      c.editionId = scope.edition.id := by
  simp only [lockScope, bind_eq_ok, pure_eq_ok] at h
  obtain ⟨_, -, _, -, _, -, _, -, _, -, rfl⟩ := h
  rfl

theorem lockScope_edition (h : lockScope s w r = .ok scope) :
    scope.edition.organizationId = r.organizationId ∧ scope.edition.id = r.editionId := by
  simp only [lockScope, bind_eq_ok, pure_eq_ok, getOr_eq_ok] at h
  obtain ⟨edition, found, _, -, _, -, _, -, _, -, rfl⟩ := h
  have which := holds_of_find? found
  exact ⟨which.2.1, which.1⟩

theorem length_departments (h : lockScope s w r = .ok scope) : scope.departments.length =
    s.departments.rows.countP fun d => d.organizationId = scope.edition.organizationId ∧
      d.editionId = scope.edition.id := by
  simp only [lockScope, bind_eq_ok, pure_eq_ok] at h
  obtain ⟨_, -, _, -, _, -, _, -, _, -, rfl⟩ := h
  rw [List.length_insertionSort, List.countP_eq_length_filter]

theorem departmentById_eq_ok {id : Uuid} {current : Bool} {d : Department}
    (locked : lockScope s w r = .ok scope) (h : departmentById scope id current = .ok d) :
    d ∈ s.departments ∧ d.id = id ∧ d.organizationId = scope.edition.organizationId ∧
      d.editionId = scope.edition.id ∧ (current = true → d.retiredAt = none) := by
  simp only [departmentById, bind_eq_ok, pure_eq_ok, getOr_eq_ok, require_eq_ok] at h
  obtain ⟨e, found, _, current, rfl⟩ := h
  obtain ⟨mem, located⟩ := (lockScope_department locked).mp (List.mem_of_find?_eq_some found)
  have which := holds_of_find? found
  exact ⟨mem, which, located.1, located.2, fun asked => by_contra fun retired => current ⟨asked, retired⟩⟩

/-! ## The control and the receipt -/

theorem newOrAdvancedControl_eq_ok {origin : Origin} {version : Nat} {c : EditionStructureControl}
    (h : newOrAdvancedControl s scope r origin version = .ok (s', c)) :
    s'.departments = s.departments ∧ s'.receipts = s.receipts ∧ c.aggregateVersion = version ∧
      ((scope.control = none ∧ c.organizationId = scope.edition.organizationId ∧ c.editionId = scope.edition.id ∧
          (∀ b ∈ s.controls, b.editionId ≠ c.editionId) ∧ s.controls.insert? c = some s'.controls) ∨
        ∃ b, scope.control = some b ∧ c = { b with aggregateVersion := version } ∧
          s'.controls = s.controls.save c) := by
  unfold newOrAdvancedControl at h
  split at h
  · rename_i none_
    simp only [bind_eq_ok, pure_eq_ok, getOr_eq_ok, require_eq_ok, Prod.mk.injEq] at h
    obtain ⟨_, alone, controls, inserted, rfl, rfl⟩ := h
    refine ⟨rfl, rfl, rfl, .inl ⟨none_, rfl, rfl, fun b hb same => alone ?_, inserted⟩⟩
    exact List.any_eq_true.mpr ⟨b, hb, decide_eq_true same⟩
  · rename_i b some_
    simp only [Except.ok.injEq, Prod.mk.injEq] at h
    obtain ⟨rfl, rfl⟩ := h
    exact ⟨rfl, rfl, rfl, .inr ⟨b, some_, rfl, rfl⟩⟩

theorem appendChangeEvidence_eq_ok {c : EditionStructureControl} {version : Nat} {reason : String}
    {evidence : ChangeEvidence} {x : CommandReceipt}
    (h : appendChangeEvidence s scope r c version reason evidence = .ok (s', x)) :
    s'.departments = s.departments ∧ s'.controls = s.controls ∧ s.receipts.insert? x = some s'.receipts ∧
      x.toChangeEvidence = evidence ∧ x.structureId = c.id ∧ x.organizationId = scope.edition.organizationId ∧
      x.editionId = scope.edition.id ∧ x.resultingVersion = version ∧ x.actorId = r.actorId ∧
      ∀ y ∈ s.receipts, y.editionId = x.editionId → y.actorId = x.actorId →
        y.retryKey = x.retryKey → y.retryKey = none := by
  simp only [appendChangeEvidence, bind_eq_ok, pure_eq_ok, getOr_eq_ok, require_eq_ok,
    Prod.mk.injEq] at h
  obtain ⟨_, -, _, fresh, receipts, inserted, rfl, rfl⟩ := h
  refine ⟨rfl, rfl, inserted, rfl, rfl, rfl, rfl, rfl, rfl, fun y hy edition actor key => by_contra fun used => fresh ?_⟩
  exact List.any_eq_true.mpr ⟨y, hy, decide_eq_true ⟨edition, actor, key, used⟩⟩

/-- The version that a command expects, of a control that is there or of an
edition without content. -/
theorem requireExpectedVersion_eq_ok {expected current : Nat} (locked : lockScope s w r = .ok scope)
    (h : requireExpectedVersion s w scope expected = .ok current) :
    (∀ b, scope.control = some b → b.aggregateVersion = current) ∧
      (scope.control = none → current = 0 ∧ ∀ d ∈ s.departments,
        ¬(d.organizationId = scope.edition.organizationId ∧ d.editionId = scope.edition.id)) := by
  simp only [requireExpectedVersion, bind_eq_ok, pure_eq_ok] at h
  obtain ⟨n, version, _, -, rfl⟩ := h
  unfold currentVersion at version
  split at version
  · rename_i b control
    cases version
    refine ⟨fun b' same => ?_, fun none_ => absurd (none_.symm.trans control) (by simp)⟩
    rw [control] at same
    rw [← Option.some.inj same]
  · rename_i control
    split at version
    · cases version
    · rename_i empty
      cases version
      refine ⟨fun b same => absurd (control.symm.trans same) (by simp), fun _ => ⟨rfl, fun d hd located => empty ?_⟩⟩
      have mem := (lockScope_department locked).mpr ⟨hd, located⟩
      unfold editionHasStructureContent
      cases rows : scope.departments with
      | nil =>
        rw [rows] at mem
        cases mem
      | cons a l => simp

/-- What a command records, from what its parts do. -/
theorem recorded {s₁ s₂ : Structures} {expected current : Nat} {origin : Origin} {c : EditionStructureControl}
    {reason : String} {evidence : ChangeEvidence} {x : CommandReceipt} (locked : lockScope s w r = .ok scope)
    (versioned : requireExpectedVersion s w scope expected = .ok current)
    (advanced : newOrAdvancedControl s scope r origin (current + 1) = .ok (s₁, c))
    (controls : s₂.controls = s₁.controls) (receipts : s₂.receipts = s₁.receipts)
    (appended : appendChangeEvidence s₂ scope r c (current + 1) reason evidence = .ok (s', x)) :
    Recorded s s' c x ∧ c.organizationId = scope.edition.organizationId ∧ c.editionId = scope.edition.id ∧
      x.toChangeEvidence = evidence ∧ x.resultingVersion = current + 1 ∧ s₁.departments = s.departments ∧
      s'.departments = s₂.departments := by
  obtain ⟨departments₁, receipts₁, version, change⟩ := newOrAdvancedControl_eq_ok advanced
  obtain ⟨departments', controls', inserted, stated, structureId, organization, edition, version', -, fresh⟩ :=
    appendChangeEvidence_eq_ok appended
  obtain ⟨current', empty⟩ := requireExpectedVersion_eq_ok locked versioned
  rw [receipts, receipts₁] at inserted fresh
  have place : c.organizationId = scope.edition.organizationId ∧ c.editionId = scope.edition.id := by
    rcases change with ⟨-, organization, edition, -⟩ | ⟨b, found, rfl, -⟩
    · exact ⟨organization, edition⟩
    · rw [lockScope_control locked] at found
      have which := holds_of_find? found
      exact which
  refine ⟨⟨?_, inserted, structureId, organization.trans place.1.symm, edition.trans place.2.symm,
    version'.trans version.symm, fresh⟩, place.1, place.2, stated, version', departments₁, departments'⟩
  rw [controls', controls]
  rcases change with ⟨none_, organization, edition, alone, inserted⟩ | ⟨b, found, advanced, saved⟩
  · obtain ⟨rfl, unused⟩ := empty none_
    refine .inl ⟨inserted, version, alone, fun d hd located => unused d hd ?_⟩
    exact ⟨located.1.trans organization, located.2.trans edition⟩
  · refine .inr ⟨b, ?_, ?_, saved⟩
    · rw [lockScope_control locked] at found
      exact List.mem_of_find?_eq_some found
    · rw [advanced, current' b found]

/-! ## The hierarchy -/

theorem walkHierarchy_eq_climb (parent : Uuid → Option (Option Uuid)) (n : Nat) (seen : List Uuid)
    (c : Option Uuid) : walkHierarchy parent n seen c =
      climb parent (invalidField "parent_department_id" "The Department hierarchy cannot contain a cycle."
        "structure_department_cycle") (.command .stateConflict "The Department hierarchy is incomplete.")
        (.command .limitConflict) n seen c := by
  induction n generalizing seen c with
  | zero =>
    cases c with
    | none => rfl
    | some a =>
      unfold walkHierarchy climb
      cases parent a <;> rfl
  | succ n ih =>
    cases c with
    | none => rfl
    | some a =>
      unfold walkHierarchy climb
      split
      · rfl
      · cases parent a with
        | none => rfl
        | some up => exact ih (a :: seen) up

/-- The parent that a walk sees. -/
def Department.parentUnder (d : Department) : Option (Uuid × Option Uuid) → Option Uuid
  | some (changedId, parentId) => if d.id = changedId then parentId else d.parentId
  | none => d.parentId

theorem changedParent_eq {rows : List Department} {changed : Option (Uuid × Option Uuid)}
    {id : Uuid} (known : (changedParent rows changed id).isSome) :
    ∃ d ∈ rows, d.id = id ∧ (changedParent rows changed id).join = d.parentUnder changed := by
  unfold changedParent at known ⊢
  rw [Option.isSome_map] at known
  obtain ⟨d, found⟩ := Option.isSome_iff_exists.mp known
  have same : d.id = id := by simpa using List.find?_some found
  refine ⟨d, List.mem_of_find?_eq_some found, same, ?_⟩
  rw [found, Option.map_some, Option.join_some, ← same]
  cases changed <;> rfl

/-- The lines of Departments whose walks end, where the walks see the parents that the table has. -/
theorem walk_lines {rows : List Department} {changed : Option (Uuid × Option Uuid)}
    {t : Table Department.id} (h : validateResultingHierarchy rows changed = .ok ())
    (parents : ∀ e ∈ rows, parentOf t e.id = e.parentUnder changed) :
    ∀ d ∈ rows, ∃ l, Lineage (parentOf t) (some d.id) l ∧ l.length ≤ maxStructureDepth ∧
      ∀ a ∈ l, ∃ e ∈ rows, e.id = a := by
  intro d hd
  simp only [validateResultingHierarchy, bind_eq_ok] at h
  obtain ⟨_, -, h⟩ := h
  have walked := forM_eq_ok.mp h d hd
  rw [walkHierarchy_eq_climb] at walked
  obtain ⟨l, lineage, short, known⟩ := climb_eq_ok walked
  have found : ∀ a ∈ l, ∃ e ∈ rows, e.id = a ∧ parentOf t a = (changedParent rows changed a).join := by
    intro a ha
    obtain ⟨e, he, same, up⟩ := changedParent_eq (known a ha)
    refine ⟨e, he, same, ?_⟩
    rw [up, ← parents e he, same]
  refine ⟨l, lineage.congr fun a ha => ?_, short, fun a ha => ?_⟩
  · obtain ⟨-, -, -, same⟩ := found a ha
    exact same
  · obtain ⟨e, he, same, -⟩ := found a ha
    exact ⟨e, he, same⟩

theorem parentById_eq_ok {c : EditionStructureControl} {parentId : Option Uuid} {id : Uuid}
    (locked : lockScope s w r = .ok scope) (organization : c.organizationId = scope.edition.organizationId)
    (edition : c.editionId = scope.edition.id) (h : parentById scope parentId = .ok ()) (under : parentId = some id) :
    IsCurrent s.departments c id := by
  subst under
  simp only [parentById, bind_eq_ok, pure_eq_ok] at h
  obtain ⟨e, found, -⟩ := h
  obtain ⟨mem, same, organization', edition', current⟩ := departmentById_eq_ok locked found
  exact ⟨e, mem, same, ⟨organization'.trans organization.symm, edition'.trans edition.symm⟩, current rfl⟩

/-! ## Commands -/

theorem insertDepartments_eq_ok {rows : List Department} (h : insertDepartments s rows = .ok s') :
    ((s'.departments.rows.map fun d => (d.editionId, d.code)).Nodup) ∧
      s.departments.insertAll? rows = some s'.departments ∧ s'.controls = s.controls ∧ s'.receipts = s.receipts := by
  simp only [insertDepartments, bind_eq_ok, pure_eq_ok, getOr_eq_ok, require_eq_ok] at h
  obtain ⟨_, codes, departments, inserted, rfl⟩ := h
  refine ⟨?_, inserted, rfl, rfl⟩
  dsimp only
  rwa [(insertAll?_eq_some inserted).1]

theorem countP_in {c : EditionStructureControl} (locked : lockScope s w r = .ok scope)
    (organization : c.organizationId = scope.edition.organizationId) (edition : c.editionId = scope.edition.id) :
    s.departments.rows.countP (fun d => d.In c) = scope.departments.length := by
  rw [length_departments locked]
  exact List.countP_congr fun d _ => by simp [Department.In, organization, edition]

theorem create_step {name description : String} {parentDepartmentId : Option Uuid}
    {displayOrder : Option Int} {expectedVersion : Nat} {reason : String} {result : StructureResult}
    (h : createDepartment lib s w r name description parentDepartmentId displayOrder expectedVersion reason =
      .ok (s', result)) : StructureStep s s' := by
  simp only [createDepartment, bind_eq_ok] at h
  obtain ⟨name, -, description, -, requested, -, _, -, reason, -, _, -, scope, locked, h⟩ := h
  split at h
  · obtain rfl := store_of_answer h
    exact .unchanged rfl
  · simp only [bind_eq_ok, pure_eq_ok, require_eq_ok, Prod.mk.injEq] at h
    obtain ⟨_, -, current, versioned, _, room, _, parent, rank, -, code, -, _, walked, ⟨s₁, c⟩,
      advanced, _, -, s₂, inserted, ⟨s₃, x⟩, appended, rfl, -⟩ := h
    obtain ⟨codes, inserted, controls, receipts⟩ := insertDepartments_eq_ok inserted
    obtain ⟨recorded, organization, edition, stated, version, departments, departments'⟩ :=
      recorded locked versioned advanced controls receipts appended
    rw [departments] at inserted
    rw [← departments'] at inserted codes
    refine .changed c x recorded ?_
    have mem {e : Department} := @mem_insertAll? _ _ _ _ _ _ _ inserted e
    have lines := walk_lines (t := s₃.departments) walked fun e he => by
      rcases List.mem_append.mp he with he | he
      · exact parentOf_of_mem (mem.mpr (.inl ((lockScope_department locked).mp he).1))
      · exact parentOf_of_mem (mem.mpr (.inr he))
    refine .inserted _ _ inserted (.inr (by rw [stated])) (by rw [stated, List.map_singleton]) (fun d hd => ?_) codes
      (show 1 ≤ maxStructureDepartments by decide) (.inr ?_) (fun d hd => ?_) fun d hd id under => ?_
    · rw [List.mem_singleton.mp hd, version]
      exact ⟨⟨organization.symm, edition.symm⟩, rfl, rfl, rfl, rfl, rfl⟩
    · rw [countP_in locked organization edition]
      exact room
    · obtain ⟨l, lineage, short, known⟩ := lines d (List.mem_append_right _ hd)
      refine ⟨l, lineage, short, fun a ha => ?_⟩
      obtain ⟨e, he, same⟩ := known a ha
      rcases List.mem_append.mp he with he | he
      · obtain ⟨he, organization', edition'⟩ := (lockScope_department locked).mp he
        exact ⟨e, mem.mpr (.inl he), same, organization'.trans organization.symm, edition'.trans edition.symm⟩
      · refine ⟨e, mem.mpr (.inr he), same, ?_⟩
        rw [List.mem_singleton.mp he]
        exact ⟨organization.symm, edition.symm⟩
    · rw [List.mem_singleton.mp hd] at under
      obtain ⟨e, he, current⟩ := parentById_eq_ok locked organization edition parent under
      exact ⟨e, mem.mpr (.inl he), current⟩

theorem template_step {templateIdentifier : String} {expectedVersion : Nat}
    {confirmationName reason : String} {result : StructureResult}
    (h : applyBuiltinStructureTemplate lib s w r templateIdentifier expectedVersion confirmationName reason =
      .ok (s', result)) : StructureStep s s' := by
  simp only [applyBuiltinStructureTemplate, bind_eq_ok] at h
  obtain ⟨_, -, reason, -, _, -, template, -, scope, locked, _, -, h⟩ := h
  split at h
  · obtain rfl := store_of_answer h
    exact .unchanged rfl
  · simp only [bind_eq_ok, pure_eq_ok, require_eq_ok, Prod.mk.injEq] at h
    obtain ⟨_, -, current, versioned, _, rfl, _, -, _, few, _, walked, ⟨s₁, c⟩, advanced, s₂,
      inserted, ⟨s₃, x⟩, appended, rfl, -⟩ := h
    obtain ⟨codes, inserted, controls, receipts⟩ := insertDepartments_eq_ok inserted
    obtain ⟨recorded, organization, edition, stated, version, departments, departments'⟩ :=
      recorded locked versioned advanced controls receipts appended
    rw [departments] at inserted
    rw [← departments'] at inserted codes
    refine .changed c x recorded ?_
    have mem {e : Department} := @mem_insertAll? _ _ _ _ _ _ _ inserted e
    have each : ∀ d ∈ templateDepartments scope r template.departments, d.In c ∧
        d.createdInStructureVersion = some x.resultingVersion ∧
        d.lastChangedInStructureVersion = some x.resultingVersion ∧ d.retiredAt = none ∧ d.retiredBy = none ∧
        d.retiredInStructureVersion = none := by
      intro d hd
      obtain ⟨definition, -, rfl⟩ := List.mem_map.mp hd
      rw [version]
      exact ⟨⟨organization.symm, edition.symm⟩, rfl, rfl, rfl, rfl, rfl⟩
    have lines := walk_lines (t := s₃.departments) walked fun e he => parentOf_of_mem (mem.mpr (.inr he))
    refine .inserted _ _ inserted (.inl (by rw [stated])) (by rw [stated]) each codes ?_
      (.inl (recorded.version.symm.trans version)) (fun d hd => ?_) fun d hd id under => ?_
    · unfold templateDepartments
      rw [List.length_map]
      exact few
    · obtain ⟨l, lineage, short, known⟩ := lines d hd
      refine ⟨l, lineage, short, fun a ha => ?_⟩
      obtain ⟨e, he, same⟩ := known a ha
      exact ⟨e, mem.mpr (.inr he), same, (each e he).1⟩
    · obtain ⟨l, lineage, -, known⟩ := lines d hd
      cases lineage with
      | step up =>
        rw [parentOf_of_mem (mem.mpr (.inr hd)), under] at up
        cases up
        obtain ⟨e, he, same⟩ := known id (by simp)
        exact ⟨e, mem.mpr (.inr he), same, (each e he).1, (each e he).2.2.2.1⟩

theorem update_step {departmentId : Uuid} {name description : String} {parentDepartmentId : Option Uuid}
    {displayOrder : Option Int} {expectedVersion : Nat} {reason : String} {result : StructureResult}
    (h : updateDepartment lib s w r departmentId name description parentDepartmentId displayOrder expectedVersion
      reason = .ok (s', result)) : StructureStep s s' := by
  simp only [updateDepartment, bind_eq_ok] at h
  obtain ⟨name, -, description, -, requested, -, _, -, reason, -, _, -, scope, locked, _, -,
    current, versioned, d, found, _, parent, rank, -, h⟩ := h
  split at h
  · obtain rfl := store_of_answer h
    exact .unchanged rfl
  · simp only [bind_eq_ok, pure_eq_ok, Prod.mk.injEq] at h
    obtain ⟨_, walked, ⟨s₁, c⟩, advanced, ⟨s₃, x⟩, appended, rfl, -⟩ := h
    obtain ⟨hd, own, organization', edition', retired⟩ := departmentById_eq_ok locked found
    obtain ⟨recorded, organization, edition, stated, version, departments, departments'⟩ :=
      recorded locked versioned advanced (by rfl) (by rfl) appended
    have located : d.In c := ⟨organization'.trans organization.symm, edition'.trans edition.symm⟩
    refine .changed c x recorded ?_
    dsimp only at departments'
    rw [departments', departments, ← version]
    refine .updated d hd located (retired rfl) _ (by rw [stated]) (by rw [stated]) (fun e he inside => ?_)
      fun id under => parentById_eq_ok locked organization edition parent under
    set values : DepartmentValues := ⟨name, description, parentDepartmentId, rank⟩
    have mem {y : Department} : y ∈ s.departments.save (d.updated values x.resultingVersion) ↔
        (y ∈ s.departments ∧ y.id ≠ d.id) ∨ y = d.updated values x.resultingVersion :=
      mem_save_of_mem (b := d) hd (by rfl)
    have lines := walk_lines (t := s.departments.save (d.updated values x.resultingVersion)) walked fun y hy => by
      obtain ⟨hy, -⟩ := (lockScope_department locked).mp hy
      unfold Department.parentUnder
      dsimp only
      split
      · rename_i same
        rw [same, show d.id = (d.updated values x.resultingVersion).id from rfl,
          parentOf_of_mem (mem.mpr (.inr rfl))]
        rfl
      · rename_i other
        rw [parentOf_of_mem (mem.mpr (.inl ⟨hy, other⟩))]
    obtain ⟨l, lineage, short, known⟩ := lines e ((lockScope_department locked).mpr
      ⟨he, inside.1.trans organization, inside.2.trans edition⟩)
    refine ⟨l, lineage, short, fun a ha => ?_⟩
    obtain ⟨y, hy, same⟩ := known a ha
    obtain ⟨hy, organization'', edition''⟩ := (lockScope_department locked).mp hy
    by_cases own : y.id = d.id
    · exact ⟨d.updated values x.resultingVersion, mem.mpr (.inr rfl), own.symm.trans same, located⟩
    · exact ⟨y, mem.mpr (.inl ⟨hy, own⟩), same, organization''.trans organization.symm, edition''.trans edition.symm⟩

theorem retire_step {departmentId : Uuid} {expectedVersion : Nat} {reason : String} {result : StructureResult}
    (h : retireDepartment lib s w r departmentId expectedVersion reason = .ok (s', result)) : StructureStep s s' := by
  simp only [retireDepartment, bind_eq_ok, pure_eq_ok, require_eq_ok, Prod.mk.injEq] at h
  obtain ⟨_, -, reason, -, _, -, scope, locked, _, -, current, versioned, d, found, _, free, _,
    -, ⟨s₁, c⟩, advanced, ⟨s₃, x⟩, appended, rfl, -⟩ := h
  obtain ⟨hd, own, organization', edition', retired⟩ := departmentById_eq_ok locked found
  obtain ⟨recorded, organization, edition, stated, version, departments, departments'⟩ :=
    recorded locked versioned advanced (by rfl) (by rfl) appended
  refine .changed c x recorded ?_
  dsimp only at departments'
  rw [departments', departments, ← version]
  refine .retired d hd ⟨organization'.trans organization.symm, edition'.trans edition.symm⟩ (retired rfl)
    (fun e he inside current under => free (.inl ?_)) (by rw [stated]) (by rw [stated]) _ _
  have mem := (lockScope_department locked).mpr ⟨he, inside.1.trans organization, inside.2.trans edition⟩
  unfold retirementDependencies
  rw [if_pos]
  exact List.any_eq_true.mpr ⟨e, mem, decide_eq_true ⟨under, current⟩⟩

theorem delete_step {departmentId : Uuid} {expectedVersion : Nat} {confirmationName reason : String}
    {result : StructureResult}
    (h : deleteUnusedDepartment lib s w r departmentId expectedVersion confirmationName reason = .ok (s', result)) :
    StructureStep s s' := by
  simp only [deleteUnusedDepartment, bind_eq_ok, pure_eq_ok, require_eq_ok, Prod.mk.injEq] at h
  obtain ⟨_, -, reason, -, _, -, scope, locked, _, -, current, versioned, d, found, _, -, _,
    free, _, -, ⟨s₁, c⟩, advanced, _, -, ⟨s₃, x⟩, appended, rfl, -⟩ := h
  obtain ⟨hd, own, organization', edition', retired⟩ := departmentById_eq_ok locked found
  obtain ⟨recorded, organization, edition, stated, version, departments, departments'⟩ :=
    recorded locked versioned advanced (by rfl) (by rfl) appended
  refine .changed c x recorded ?_
  dsimp only at departments'
  rw [departments', departments]
  rw [hasDeletionDependencies, Bool.not_eq_true, Bool.or_eq_false_iff, Bool.or_eq_false_iff,
    Bool.or_eq_false_iff, Bool.or_eq_false_iff] at free
  obtain ⟨⟨⟨-, leaf⟩, -⟩, created⟩ := free
  have history : ∃ creation, departmentHistory s scope d = [creation] ∧
      creation.Creates d.createdInStructureVersion := by
    split at created
    · rename_i creation single
      exact ⟨creation, single, by simpa using created⟩
    · cases created
  obtain ⟨creation, single, creates⟩ := history
  refine .deleted d hd ⟨organization'.trans organization.symm, edition'.trans edition.symm⟩ (retired rfl)
    (fun e he inside under => ?_) creation creates ?_ (by rw [stated]) (by rw [stated])
  · have mem := (lockScope_department locked).mpr ⟨he, inside.1.trans organization, inside.2.trans edition⟩
    have not := List.any_eq_false.mp leaf e mem
    rw [decide_eq_true_eq] at not
    exact not under
  · rw [organization, edition]
    exact single

theorem position_step {change : PositionAction} {positionId departmentId : Uuid} {fields : List String}
    {digest : String} {expectedVersion : Nat} {reason : String} {result : StructureResult}
    (h : changePosition lib s w r change positionId departmentId fields digest expectedVersion reason =
      .ok (s', result)) : StructureStep s s' := by
  simp only [changePosition, bind_eq_ok] at h
  obtain ⟨_, -, reason, -, _, -, scope, locked, _, -, h⟩ := h
  split at h
  · obtain rfl := store_of_answer h
    exact .unchanged rfl
  · simp only [bind_eq_ok, pure_eq_ok, require_eq_ok, Prod.mk.injEq] at h
    obtain ⟨current, versioned, _, -, d, found, _, -, ⟨s₁, c⟩, advanced, ⟨s₃, x⟩, appended, rfl, -⟩ := h
    obtain ⟨hd, own, organization', edition', retired⟩ := departmentById_eq_ok locked found
    obtain ⟨recorded, organization, edition, stated, version, departments, departments'⟩ :=
      recorded locked versioned advanced (by rfl) (by rfl) appended
    refine .changed c x recorded ?_
    rw [departments', departments]
    exact .mentioned d hd ⟨organization'.trans organization.symm, edition'.trans edition.symm⟩
      change (fun created => retired (decide_eq_true created)) (by rw [stated]) (by rw [stated])

/-- What one accepted command does. -/
theorem exec_step {call : StructureCall} {result : StructureResult}
    (h : execStructure lib s call = .ok (s', result)) : StructureStep s s' := by
  obtain ⟨w, r, command⟩ := call
  cases command with
  | applyTemplate templateIdentifier expectedVersion confirmationName reason => exact template_step h
  | create name description parentDepartmentId displayOrder expectedVersion reason => exact create_step h
  | update departmentId name description parentDepartmentId displayOrder expectedVersion reason =>
    exact update_step h
  | retire departmentId expectedVersion reason => exact retire_step h
  | delete departmentId expectedVersion confirmationName reason => exact delete_step h
  | position change positionId departmentId fields digest expectedVersion reason => exact position_step h

end

end Maru.Workforce.Structure

import Maru.Framework.EventLog
import Maru.Scheduling.Metadata

/-!
# Registers

What a write leaves of a register (`Register.Writes`): its revisions follow one another up to the
version of their aggregate, none after one that retires it (`Register.Sound`), and what is asked of
the current revisions of the active aggregates of an edition, two by two (`Register.Apart`).
-/

namespace Maru.Scheduling.Metadata

variable {δ ρ : Type}

/-- A revision is numbered after the one before it, which did not retire the aggregate. -/
def NextRevision (previous : Option (Revision ρ)) (revision : Revision ρ) : Prop :=
  revision.sequence = (previous.map (·.sequence)).getD 0 + 1 ∧ ∀ row, previous = some row → row.lifecycle = .active

/-- How many versions an aggregate may have; the last is the retired one. -/
def versionLimit : SchedulingLifecycle → Nat
  | .active => 1000
  | .retired => 1001

namespace Register

variable (register : Register δ ρ)

/-- The revisions of an aggregate, in the order they were appended. -/
def revisionsOf (id : Uuid) : List (Revision ρ) := register.revisions.rows.filter fun revision => revision.parentId = id

/-- The revision of an aggregate's version. -/
def currentOf (aggregate : Aggregate δ) : Option (Revision ρ) :=
  register.revisions.get? (aggregate.id, aggregate.aggregateVersion)

structure Sound : Prop where
  numbered : ∀ id, EventLog.Sound (fun _ revision => revision) NextRevision (register.revisionsOf id)
  last : ∀ a ∈ register.aggregates, ∃ revision,
    (register.revisionsOf a.id).getLast? = some revision ∧
      revision.sequence = a.aggregateVersion ∧ revision.lifecycle = a.lifecycle
  owned : ∀ r ∈ register.revisions, ∃ a ∈ register.aggregates, a.id = r.parentId ∧
    a.organizationId = r.organizationId ∧ a.editionId = r.editionId
  bounded : ∀ a ∈ register.aggregates, a.aggregateVersion ≤ versionLimit a.lifecycle

/-- The current revisions of two active aggregates of an edition are so. -/
def Apart (P : ρ → ρ → Prop) : Prop :=
  ∀ a ∈ register.aggregates, ∀ b ∈ register.aggregates, a.lifecycle = .active →
    b.lifecycle = .active → a.editionId = b.editionId → a.id ≠ b.id → ∀ r r',
      register.currentOf a = some r → register.currentOf b = some r' → P r.content r'.content

/-- The write of one aggregate's next version, with its revision. -/
structure Writes (context : Evidence) (before after : Register δ ρ) (aggregate : Aggregate δ) (content : ρ) : Prop where
  scope : aggregate.organizationId = context.request.organizationId ∧ aggregate.editionId = context.request.editionId
  revision : before.revisions.insert? (revisionOf context aggregate content) = some after.revisions
  written : (before.aggregates.insert? aggregate = some after.aggregates ∧
      aggregate.aggregateVersion = 1 ∧ aggregate.lifecycle = .active) ∨
    ∃ prior ∈ before.aggregates, aggregate = { prior with
        aggregateVersion := prior.aggregateVersion + 1, lifecycle := aggregate.lifecycle } ∧ prior.lifecycle = .active ∧
      after.aggregates = before.aggregates.save aggregate
  bounded : aggregate.lifecycle = .active → aggregate.aggregateVersion ≤ 1000

/-! ## Rules -/

variable {register} {before after : Register δ ρ} {context : Evidence} {aggregate : Aggregate δ} {content : ρ}

theorem append_ok (h : register.append context aggregate content = .ok after) :
    register.revisions.insert? (revisionOf context aggregate content) = some after.revisions ∧
      after.aggregates = register.aggregates := by
  simp only [append, bind_eq_ok, getOr_eq_ok, pure_eq_ok] at h
  obtain ⟨revisions, inserted, rfl⟩ := h
  exact ⟨inserted, rfl⟩

theorem create_ok {id : Uuid} {detail : δ} (h : register.create context id detail content = .ok after) :
    let aggregate : Aggregate δ := ⟨id, context.request.organizationId, context.request.editionId, 1, .active, detail⟩
    register.aggregates.insert? aggregate = some after.aggregates ∧ Writes context register after aggregate content := by
  simp only [create, bind_eq_ok, getOr_eq_ok] at h
  obtain ⟨aggregates, inserted, appended⟩ := h
  obtain ⟨revisions, same⟩ := append_ok appended
  exact ⟨same ▸ inserted, ⟨rfl, rfl⟩, revisions, .inl ⟨same ▸ inserted, rfl, rfl⟩, fun _ => (by decide : 1 ≤ 1000)⟩

theorem locked_ok {id : Uuid} {expected : Int} (h : register.locked context id expected = .ok aggregate) :
    aggregate ∈ register.aggregates ∧ aggregate.id = id ∧ (aggregate.organizationId = context.request.organizationId ∧
      aggregate.editionId = context.request.editionId) ∧ (aggregate.aggregateVersion : Int) = expected ∧
      aggregate.lifecycle = .active := by
  simp only [locked, bind_eq_ok, getOr_eq_ok, Option.filter_eq_some_iff, Table.get?_eq_some,
    decide_eq_true_eq, require_eq_ok, pure_eq_ok] at h
  obtain ⟨row, ⟨⟨mem, is⟩, scope⟩, _, version, _, active, rfl⟩ := h
  exact ⟨mem, is, scope, version, active⟩

theorem advance_ok {prior : Aggregate δ} {lifecycle : SchedulingLifecycle}
    (h : register.advance context prior lifecycle content = .ok (after, aggregate)) (mem : prior ∈ register.aggregates)
    (scope : prior.organizationId = context.request.organizationId ∧ prior.editionId = context.request.editionId)
    (active : prior.lifecycle = .active) (bounded : lifecycle = .active → prior.aggregateVersion < maxRevisions) :
    aggregate = { prior with aggregateVersion := prior.aggregateVersion + 1, lifecycle } ∧
      Writes context register after aggregate content := by
  simp only [advance, bind_eq_ok, pure_eq_ok, Prod.mk.injEq] at h
  obtain ⟨next, appended, rfl, rfl⟩ := h
  obtain ⟨revisions, same⟩ := append_ok appended
  exact ⟨rfl, scope, revisions, .inr ⟨prior, mem, rfl, active, same⟩, fun is => Nat.succ_le_of_lt (bounded is)⟩

theorem retire_ok {prior : Aggregate δ} (h : register.retire context prior = .ok (after, aggregate))
    (mem : prior ∈ register.aggregates)
    (scope : prior.organizationId = context.request.organizationId ∧ prior.editionId = context.request.editionId)
    (active : prior.lifecycle = .active) :
    aggregate = { prior with aggregateVersion := prior.aggregateVersion + 1, lifecycle := .retired } ∧
      ∃ content, Writes context register after aggregate content := by
  simp only [retire, bind_eq_ok, getOr_eq_ok] at h
  obtain ⟨latest, -, advanced⟩ := h
  obtain ⟨is, writes⟩ := advance_ok advanced mem scope active fun is => by cases is
  exact ⟨is, latest.content, writes⟩

/-! ## Lookups -/

theorem mem_revisionsOf {revision : Revision ρ} {id : Uuid} :
    revision ∈ register.revisionsOf id ↔ revision ∈ register.revisions ∧ revision.parentId = id := by
  simp [revisionsOf, Table.mem_def]

theorem currentOf_eq_some {revision : Revision ρ} : register.currentOf aggregate = some revision ↔
    revision ∈ register.revisions ∧ revision.parentId = aggregate.id ∧
      revision.sequence = aggregate.aggregateVersion := by
  rw [currentOf, Table.get?_eq_some, Revision.key, Prod.mk.injEq]

/-- The current revision is the last one. -/
theorem Sound.currentOf_last (sound : register.Sound) (mem : aggregate ∈ register.aggregates) :
    ∃ revision, register.currentOf aggregate = some revision ∧
      (register.revisionsOf aggregate.id).getLast? = some revision ∧ revision.lifecycle = aggregate.lifecycle ∧
      revision.organizationId = aggregate.organizationId ∧ revision.editionId = aggregate.editionId := by
  obtain ⟨revision, last, sequence, lifecycle⟩ := sound.last aggregate mem
  obtain ⟨written, of⟩ := mem_revisionsOf.mp (List.mem_of_getLast? last)
  obtain ⟨owner, there, is, scope⟩ := sound.owned revision written
  obtain rfl := Table.eq_of_key there mem (is.trans of)
  exact ⟨revision, currentOf_eq_some.mpr ⟨written, of, sequence⟩, last, lifecycle, scope.1.symm, scope.2.symm⟩

/-! ## Writes -/

section

variable (writes : Writes context before after aggregate content)

include writes

theorem Writes.mem_iff {a : Aggregate δ} :
    a ∈ after.aggregates ↔ (a ∈ before.aggregates ∧ a.id ≠ aggregate.id) ∨ a = aggregate := by
  rcases writes.written with ⟨inserted, -⟩ | ⟨prior, mem, is, -, saved⟩
  · rw [Table.mem_insert? inserted]
    have fresh := (Table.insert?_eq_some.mp inserted).1
    exact or_congr_left ⟨fun ha => ⟨ha, fresh a ha⟩, And.left⟩
  · rw [saved, Table.mem_save_of_mem mem (by rw [is])]

theorem Writes.revisionsOf_eq (id : Uuid) : after.revisionsOf id =
    before.revisionsOf id ++ if aggregate.id = id then [revisionOf context aggregate content] else [] := by
  rw [revisionsOf, (Table.insert?_eq_some.mp writes.revision).2, List.filter_append, revisionsOf]
  by_cases of : aggregate.id = id <;> simp [of, revisionOf]

/-- The current revision of another aggregate stays, and that of the written
one is the written one. -/
theorem Writes.currentOf_eq (a : Aggregate δ) : after.currentOf a =
    if (a.id, a.aggregateVersion) = (aggregate.id, aggregate.aggregateVersion) then
      some (revisionOf context aggregate content) else before.currentOf a := by
  rw [currentOf, Table.get?_insert? writes.revision]
  rfl

theorem Writes.sound (sound : before.Sound) : after.Sound where
  numbered := by
    intro id
    rw [writes.revisionsOf_eq]
    by_cases of : aggregate.id = id
    · subst of
      rw [if_pos rfl]
      refine (sound.numbered aggregate.id).concat ?_
      rw [EventLog.replay_last]
      rcases writes.written with ⟨inserted, first, -⟩ | ⟨prior, mem, is, active, -⟩
      · -- No revision is of an aggregate that was not there.
        have none : before.revisionsOf aggregate.id = [] := List.filter_eq_nil_iff.mpr fun row written same => by
          obtain ⟨a, mem, is, -⟩ := sound.owned row written
          exact (Table.insert?_eq_some.mp inserted).1 a mem (is.trans (of_decide_eq_true same))
        rw [none]
        exact ⟨first, fun row absent => by cases absent⟩
      · obtain ⟨revision, last, sequence, lifecycle⟩ := sound.last prior mem
        have same : aggregate.id = prior.id := by rw [is]
        rw [same, last]
        refine ⟨?_, fun row found => Option.some.inj found ▸ lifecycle.trans active⟩
        show aggregate.aggregateVersion = revision.sequence + 1
        rw [is, sequence]
    · rw [if_neg of, List.append_nil]
      exact sound.numbered id
  last := by
    intro a ha
    rw [writes.revisionsOf_eq]
    rcases writes.mem_iff.mp ha with ⟨ha, other⟩ | rfl
    · rw [if_neg (Ne.symm other), List.append_nil]
      exact sound.last a ha
    · rw [if_pos rfl, List.getLast?_concat]
      exact ⟨_, rfl, rfl, rfl⟩
  owned := by
    intro r hr
    rcases (Table.mem_insert? writes.revision).mp hr with hr | rfl
    · obtain ⟨a, ha, of, scope⟩ := sound.owned r hr
      by_cases same : a.id = aggregate.id
      · refine ⟨aggregate, writes.mem_iff.mpr (.inr rfl), same.symm.trans of, ?_⟩
        rcases writes.written with ⟨inserted, -⟩ | ⟨prior, mem, is, -⟩
        · exact absurd same ((Table.insert?_eq_some.mp inserted).1 a ha)
        · obtain rfl := Table.eq_of_key ha mem (same.trans (by rw [is]))
          rw [is]
          exact scope
      · exact ⟨a, writes.mem_iff.mpr (.inl ⟨ha, same⟩), of, scope⟩
    · exact ⟨aggregate, writes.mem_iff.mpr (.inr rfl), rfl, writes.scope⟩
  bounded := by
    intro a ha
    rcases writes.mem_iff.mp ha with ⟨ha, -⟩ | rfl
    · exact sound.bounded a ha
    · cases lifecycle : a.lifecycle with
      | active => exact writes.bounded lifecycle
      | retired =>
        rcases writes.written with ⟨-, -, active⟩ | ⟨prior, mem, is, active, -⟩
        · rw [active] at lifecycle
          cases lifecycle
        · have := sound.bounded prior mem
          rw [active] at this
          rw [is]
          exact Nat.succ_le_succ this

/-- The current revisions stay apart, if the written one is apart from the others. -/
theorem Writes.apart {P : ρ → ρ → Prop} (symm : ∀ c c', P c c' → P c' c) (apart : before.Apart P)
    (fits : aggregate.lifecycle = .active → ∀ a ∈ before.aggregates, a.lifecycle = .active →
      a.editionId = aggregate.editionId → a.id ≠ aggregate.id → ∀ r, before.currentOf a = some r → P content r.content) :
    after.Apart P := by
  have current : ∀ a : Aggregate δ, a.id ≠ aggregate.id → after.currentOf a = before.currentOf a := fun a other => by
    rw [writes.currentOf_eq, if_neg fun same => other (Prod.mk.inj same).1]
  have own : ∀ r, after.currentOf aggregate = some r → r.content = content := fun r found => by
    rw [writes.currentOf_eq, if_pos rfl] at found
    exact Option.some.inj found ▸ rfl
  intro a ha b hb activeA activeB edition different r r' isA isB
  rcases writes.mem_iff.mp ha with ⟨ha, otherA⟩ | rfl
  · rw [current a otherA] at isA
    rcases writes.mem_iff.mp hb with ⟨hb, otherB⟩ | rfl
    · exact apart a ha b hb activeA activeB edition different r r' isA (current b otherB ▸ isB)
    · exact own r' isB ▸ symm _ _ (fits activeB a ha activeA edition otherA r isA)
  · rcases writes.mem_iff.mp hb with ⟨hb, otherB⟩ | rfl
    · rw [current b otherB] at isB
      exact own r isA ▸ fits activeA b hb activeB edition.symm otherB r' isB
    · exact absurd rfl different

end

/-! ## What the checks of a command see -/

/-- The current revision of another active aggregate of the scope is among those
that a command checks. -/
theorem Sound.mem_current (sound : register.Sound) {excluding : Option Uuid} {a : Aggregate δ}
    {r : Revision ρ} (mem : a ∈ register.aggregates) (active : a.lifecycle = .active)
    (scope : a.organizationId = context.request.organizationId ∧ a.editionId = context.request.editionId)
    (other : excluding ≠ some a.id) (found : register.currentOf a = some r) : r ∈ register.current
      context excluding := by
  obtain ⟨revision, is, -, lifecycle, organization, edition⟩ := sound.currentOf_last mem
  obtain rfl := Option.some.inj (found.symm.trans is)
  obtain ⟨written, of, sequence⟩ := currentOf_eq_some.mp found
  have current : register.isCurrent r = true := by
    rw [isCurrent, Table.get?_eq_some.mpr ⟨mem, of.symm⟩, Option.any_some, sequence]
    exact decide_eq_true rfl
  refine (sortBy_perm (fun row : Revision ρ => row.parentId) _).mem_iff.mpr (List.mem_filter.mpr ⟨written, ?_⟩)
  exact decide_eq_true ⟨organization.trans scope.1, edition.trans scope.2, current, lifecycle.trans active, of ▸ other⟩

/-- There are at least as many revisions to check as other active aggregates. -/
theorem Sound.length_current (sound : register.Sound) {excluding : Option Uuid} :
    (register.aggregates.rows.filter fun a => a.organizationId = context.request.organizationId ∧
      a.editionId = context.request.editionId ∧ a.lifecycle = .active ∧ excluding ≠ some a.id).length ≤
      (register.current context excluding).length := by
  have nodup : ((register.aggregates.rows.filter fun a => a.organizationId = context.request.organizationId ∧
      a.editionId = context.request.editionId ∧ a.lifecycle = .active ∧ excluding ≠ some a.id).map (·.id)).Nodup :=
    register.aggregates.nodup.sublist (List.filter_sublist.map _)
  have sub : ∀ id ∈ (register.aggregates.rows.filter fun a => a.organizationId = context.request.organizationId ∧
      a.editionId = context.request.editionId ∧ a.lifecycle = .active ∧ excluding ≠ some a.id).map (·.id),
      id ∈ (register.current context excluding).map (·.parentId) := by
    intro id hid
    obtain ⟨a, ha, rfl⟩ := List.mem_map.mp hid
    obtain ⟨mem, chosen⟩ := List.mem_filter.mp ha
    obtain ⟨organization, edition, active, other⟩ := of_decide_eq_true chosen
    obtain ⟨r, found, -⟩ := sound.currentOf_last mem
    refine List.mem_map.mpr ⟨r, sound.mem_current mem active ⟨organization, edition⟩ other found, ?_⟩
    exact (currentOf_eq_some.mp found).2.1
  have counted := (List.subperm_of_subset nodup sub).length_le
  rwa [List.length_map, List.length_map] at counted

end Register

end Maru.Scheduling.Metadata

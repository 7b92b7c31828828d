import Maru.Workforce.StructureSteps

/-!
# The history of a structure

The receipts of an edition's structure are numbered by its versions (`Journal`), and what
they say of a Department, read in their order, is whether it is there and the versions it
was created, last changed and retired in (`Logged`); a reading that meets a receipt out of
place fails. The Departments of an edition stay a forest of bounded height and number in
which nothing current stands under a retired Department (`Hierarchy`). `run_structure` says
so of every run, and that a repeated creation changes nothing.
-/

namespace Maru.Workforce.Structure

open Table Forest
open Staffing (maxStructureDepartments maxStructureDepth)

/-! ## Reading the receipts -/

/-- What the receipts of a structure say of a Department; `untouched` while only
its creation names it. -/
structure DepartmentSummary where
  created : Nat
  lastChanged : Nat
  retired : Bool
  untouched : Bool

namespace DepartmentSummary

/-- What a receipt makes of what the earlier ones say; nothing where it cannot follow them. -/
def advance : Option DepartmentSummary → CommandReceipt → Option (Option DepartmentSummary)
  | none, x =>
    if x.action = .templateApplied ∨ x.action = .departmentCreated then
      some (some ⟨x.resultingVersion, x.resultingVersion, false, true⟩)
    else none
  | some d, x =>
    match x.action with
    | .templateApplied | .departmentCreated => none
    | .departmentUpdated =>
      if d.retired then none else some (some { d with lastChanged := x.resultingVersion, untouched := false })
    | .departmentRetired =>
      if d.retired then none
      else some (some { d with lastChanged := x.resultingVersion, retired := true, untouched := false })
    | .departmentDeleted => if d.untouched then some none else none
    | .positionCreated => if d.retired then none else some (some { d with untouched := false })
    | .positionUpdated | .positionClosed | .opportunityUpdated => some (some { d with untouched := false })

def replay (log : List CommandReceipt) : Option (Option DepartmentSummary) := log.foldlM advance none

theorem replay_concat (log : List CommandReceipt) (x : CommandReceipt) :
    replay (log ++ [x]) = (replay log).bind fun d => advance d x := by
  unfold replay
  rw [List.foldlM_append]
  cases List.foldlM advance none log <;> simp [List.foldlM]

end DepartmentSummary

/-- The receipts of a structure, in the order in which they were written. -/
def Structures.receiptsOf (s : Structures) (structureId : Uuid) : List CommandReceipt :=
  s.receipts.rows.filter fun x => x.structureId = structureId

/-- Those that name a Department. -/
def Structures.logOf (s : Structures) (structureId departmentId : Uuid) : List CommandReceipt :=
  (s.receiptsOf structureId).filter fun x => departmentId ∈ x.affectedDepartmentIds

/-- A Department says of itself what is said of it. -/
structure Department.Says (d : Department) (x : DepartmentSummary) : Prop where
  created : d.createdInStructureVersion = some x.created
  lastChanged : d.lastChangedInStructureVersion = some x.lastChanged
  retiredAt : d.retiredAt.isSome = x.retired
  retiredBy : d.retiredBy.isSome = x.retired
  retiredIn : d.retiredInStructureVersion = if x.retired then some x.lastChanged else none

/-- A Department is there, as is said of it, or nothing is said. -/
def Agrees (t : Table Department.id) (c : EditionStructureControl) (id : Uuid) : Option DepartmentSummary → Prop
  | none => ∀ d ∈ t, d.id = id → ¬ d.In c
  | some x => ∃ d ∈ t, d.id = id ∧ d.In c ∧ d.Says x

/-! ## Invariants -/

/-- The controls and the receipts. -/
structure Journal (s : Structures) : Prop where
  single : ∀ b ∈ s.controls, ∀ c ∈ s.controls, b.editionId = c.editionId → b = c
  receipt : ∀ x ∈ s.receipts, ∃ c ∈ s.controls, x.structureId = c.id ∧
    x.organizationId = c.organizationId ∧ x.editionId = c.editionId
  numbered : ∀ c ∈ s.controls, (s.receiptsOf c.id).map CommandReceipt.resultingVersion = List.range' 1 c.aggregateVersion
  positive : ∀ c ∈ s.controls, 0 < c.aggregateVersion
  keys : ∀ x ∈ s.receipts, ∀ y ∈ s.receipts, x.editionId = y.editionId → x.actorId = y.actorId →
    x.retryKey = y.retryKey → x.retryKey ≠ none → x = y

/-- The Departments of an edition. -/
structure Tree (t : Table Department.id) (c : EditionStructureControl) : Prop where
  line : ∀ d ∈ t, d.In c → Lined t c d.id
  current : ∀ d ∈ t, d.In c → d.retiredAt = none → ∀ id, d.parentId = some id → IsCurrent t c id
  bounded : t.rows.countP (fun d => d.In c) ≤ maxStructureDepartments

structure Hierarchy (s : Structures) : Prop where
  home : ∀ d ∈ s.departments, ∃ c ∈ s.controls, d.In c
  tree : ∀ c ∈ s.controls, Tree s.departments c
  codes : (s.departments.rows.map fun d => (d.editionId, d.code)).Nodup

/-- Every Department is what the receipts of its structure say of it, and they say it of no other.
-/
def Logged (s : Structures) : Prop :=
  ∀ c ∈ s.controls, ∀ id, ∃ x, DepartmentSummary.replay (s.logOf c.id id) = some x ∧ Agrees s.departments c id x

section

variable {s s' : Structures} {c : EditionStructureControl} {x : CommandReceipt}

/-! ## The controls and the receipts -/

/-- The controls after a step: the one that is new or advanced, and the others. -/
theorem Recorded.mem_controls (h : Recorded s s' c x) {b : EditionStructureControl} :
    b ∈ s'.controls ↔ (b ∈ s.controls ∧ b.id ≠ c.id) ∨ b = c := by
  rcases h.control with ⟨inserted, -⟩ | ⟨a, ha, rfl, saved⟩
  · rw [mem_insert? inserted]
    refine or_congr_left ⟨fun hb => ⟨hb, (insert?_eq_some.mp inserted).1 b hb⟩, fun hb => hb.1⟩
  · rw [saved, mem_save_of_mem (b := a) ha (by rfl)]

/-- No other control is of the edition. -/
theorem Recorded.alone (h : Recorded s s' c x) (journal : Journal s) {b : EditionStructureControl}
    (hb : b ∈ s.controls) (other : b.id ≠ c.id) : b.editionId ≠ c.editionId := by
  rcases h.control with ⟨-, -, alone, -⟩ | ⟨a, ha, rfl, -⟩
  · exact alone b hb
  · exact fun same => other (by rw [journal.single b hb a ha same])

theorem Recorded.receiptsOf (h : Recorded s s' c x) (id : Uuid) :
    s'.receiptsOf id = s.receiptsOf id ++ if c.id = id then [x] else [] := by
  unfold Structures.receiptsOf
  rw [(insert?_eq_some.mp h.inserted).2, List.filter_append]
  congr 1
  by_cases own : c.id = id
  · simp [own, h.structureId]
  · simp [own, h.structureId]

/-- The receipts of a control before the step. -/
theorem Recorded.before (h : Recorded s s' c x) (journal : Journal s) :
    (s.receiptsOf c.id).map CommandReceipt.resultingVersion = List.range' 1 (c.aggregateVersion - 1) := by
  rcases h.control with ⟨inserted, first, -⟩ | ⟨a, ha, rfl, -⟩
  · have none_ : s.receiptsOf c.id = [] := by
      refine List.filter_eq_nil_iff.mpr fun y hy own => ?_
      obtain ⟨b, hb, same, -⟩ := journal.receipt y hy
      exact (insert?_eq_some.mp inserted).1 b hb (same.symm.trans (of_decide_eq_true own))
    rw [none_, first]
    rfl
  · exact journal.numbered a ha

theorem Recorded.journal (h : Recorded s s' c x) (journal : Journal s) : Journal s' := by
  have positive : 0 < c.aggregateVersion := by
    rcases h.control with ⟨-, first, -⟩ | ⟨a, -, rfl, -⟩
    · omega
    · exact Nat.succ_pos _
  refine ⟨fun a ha b hb same => ?_, fun y hy => ?_, fun b hb => ?_, fun b hb => ?_,
    fun y hy z hz edition actor key used => ?_⟩
  · rcases h.mem_controls.mp ha with ⟨ha, otherA⟩ | rfl
    · rcases h.mem_controls.mp hb with ⟨hb, -⟩ | rfl
      · exact journal.single a ha b hb same
      · exact absurd same (h.alone journal ha otherA)
    · rcases h.mem_controls.mp hb with ⟨hb, otherB⟩ | rfl
      · exact absurd same.symm (h.alone journal hb otherB)
      · rfl
  · rcases (mem_insert? h.inserted).mp hy with hy | rfl
    · obtain ⟨b, hb, structureId, organization, edition⟩ := journal.receipt y hy
      by_cases own : b.id = c.id
      · rcases h.control with ⟨inserted, -⟩ | ⟨a, ha, rfl, -⟩
        · exact absurd own ((insert?_eq_some.mp inserted).1 b hb)
        · obtain rfl := eq_of_key hb ha own
          exact ⟨_, h.mem_controls.mpr (.inr rfl), structureId, organization, edition⟩
      · exact ⟨b, h.mem_controls.mpr (.inl ⟨hb, own⟩), structureId, organization, edition⟩
    · exact ⟨c, h.mem_controls.mpr (.inr rfl), h.structureId, h.organization, h.edition⟩
  · rw [h.receiptsOf]
    rcases h.mem_controls.mp hb with ⟨hb, other⟩ | rfl
    · rw [if_neg other.symm, List.append_nil]
      exact journal.numbered b hb
    · obtain ⟨n, hn⟩ := Nat.exists_eq_add_one.mpr positive
      rw [if_pos (by rfl), List.map_append, h.before journal, hn, Nat.add_sub_cancel,
        List.range'_1_concat, List.map_singleton, h.version, hn, Nat.add_comm]
  · rcases h.mem_controls.mp hb with ⟨hb, -⟩ | rfl
    · exact journal.positive b hb
    · exact positive
  · rcases (mem_insert? h.inserted).mp hy with hy | rfl
    · rcases (mem_insert? h.inserted).mp hz with hz | rfl
      · exact journal.keys y hy z hz edition actor key used
      · exact absurd (h.fresh y hy edition actor key) used
    · rcases (mem_insert? h.inserted).mp hz with hz | rfl
      · exact absurd (key.trans (h.fresh z hz edition.symm actor.symm key.symm)) used
      · rfl

/-- The receipts of an edition are those of its structure. -/
theorem Recorded.of_structure (h : Recorded s s' c x) (journal : Journal s) {y : CommandReceipt} (hy : y ∈ s.receipts) :
    y.structureId = c.id ↔ y.organizationId = c.organizationId ∧ y.editionId = c.editionId := by
  obtain ⟨b, hb, structureId, organization, edition⟩ := journal.receipt y hy
  rw [structureId, organization, edition]
  rcases h.control with ⟨inserted, -, alone, -⟩ | ⟨a, ha, rfl, -⟩
  · exact ⟨fun same => absurd same ((insert?_eq_some.mp inserted).1 b hb), fun same => absurd same.2 (alone b hb)⟩
  · constructor
    · intro same
      obtain rfl := eq_of_key hb ha same
      exact ⟨rfl, rfl⟩
    · intro same
      rw [journal.single b hb a ha same.2]

/-- Without an earlier version there are no Departments yet. -/
theorem Recorded.first (h : Recorded s s' c x) (journal : Journal s)
    (first : c.aggregateVersion = 1) : ∀ d ∈ s.departments, ¬ d.In c := by
  rcases h.control with ⟨-, -, -, none_⟩ | ⟨a, ha, rfl, -⟩
  · exact none_
  · exact absurd (journal.positive a ha) (by simp at first; omega)

theorem Recorded.tree (h : Recorded s s' c x) (hierarchy : Hierarchy s) : Tree s.departments c := by
  rcases h.control with ⟨-, -, -, none_⟩ | ⟨a, ha, rfl, -⟩
  · refine ⟨fun d hd inside => absurd inside (none_ d hd), fun d hd inside => absurd inside (none_ d hd), ?_⟩
    rw [List.countP_eq_zero.mpr fun d hd => by simpa using none_ d hd]
    exact Nat.zero_le _
  · -- The version is no part of where a Department is.
    have tree := hierarchy.tree a ha
    exact ⟨tree.line, tree.current, tree.bounded⟩

theorem Recorded.logged (h : Recorded s s' c x) (journal : Journal s) (logged : Logged s) (id : Uuid) :
    ∃ y, DepartmentSummary.replay (s.logOf c.id id) = some y ∧ Agrees s.departments c id y := by
  rcases h.control with ⟨-, first, -, none_⟩ | ⟨a, ha, rfl, -⟩
  · have empty := h.before journal
    rw [first, List.range'_zero, List.map_eq_nil_iff] at empty
    refine ⟨none, ?_, fun d hd _ => none_ d hd⟩
    unfold Structures.logOf
    rw [empty]
    rfl
  · exact logged a ha id

/-! ## The Departments -/

/-- A line sees the parents of its own Departments only. -/
theorem Lined.congr {t t' : Table Department.id} {id : Uuid} (h : Lined t c id)
    (same : ∀ l, Lineage (parentOf t) (some id) l → ∀ e ∈ t, e.id ∈ l → e.In c →
      ∃ e' ∈ t', e'.id = e.id ∧ e'.In c ∧ e'.parentId = e.parentId) : Lined t' c id := by
  obtain ⟨l, lineage, short, known⟩ := h
  refine ⟨l, lineage.congr fun a ha => ?_, short, fun a ha => ?_⟩
  · obtain ⟨e, he, rfl, inside⟩ := known a ha
    obtain ⟨e', he', own, -, parent⟩ := same l lineage e he ha inside
    rw [parentOf_of_mem he, ← own, parentOf_of_mem he', parent]
  · obtain ⟨e, he, rfl, inside⟩ := known a ha
    obtain ⟨e', he', own, inside', -⟩ := same l lineage e he ha inside
    exact ⟨e', he', own, inside'⟩

/-- The Departments of another edition are as they were. -/
theorem Redraws.elsewhere {t : Table Department.id} (h : Redraws s c x t) {b : EditionStructureControl}
    (other : b.editionId ≠ c.editionId) {d : Department} (inside : d.In b) : d ∈ t ↔ d ∈ s.departments := by
  have outside {e : Department} (located : e.In c) : d ≠ e := by
    rintro rfl
    exact other (inside.2.symm.trans located.2)
  cases h with
  | inserted rows t inserted action affected each =>
    rw [mem_insertAll? inserted]
    exact ⟨fun h => h.resolve_right fun hd => outside (each d hd).1 rfl, .inl⟩
  | updated e he located current values =>
    rw [mem_save_of_mem (b := e) he (by rfl)]
    refine ⟨fun h => (h.resolve_right (outside (e := e.updated values x.resultingVersion) located)).1,
      fun hd => .inl ⟨hd, fun same => ?_⟩⟩
    exact outside located (eq_of_key hd he same)
  | retired e he located current leaf action affected at_ actorId =>
    rw [mem_save_of_mem (b := e) he (by rfl)]
    refine ⟨fun h => (h.resolve_right (outside (e := e.retired x.resultingVersion at_ actorId) located)).1,
      fun hd => .inl ⟨hd, fun same => ?_⟩⟩
    exact outside located (eq_of_key hd he same)
  | deleted e he located =>
    rw [mem_erase]
    exact ⟨fun h => h.1, fun hd => ⟨hd, fun same => outside located (eq_of_key hd he same)⟩⟩
  | mentioned => rfl

/-- A Department that the receipt does not name is as it was. -/
theorem Redraws.unnamed {t : Table Department.id} (h : Redraws s c x t) {d : Department}
    (unnamed : d.id ∉ x.affectedDepartmentIds) : d ∈ t ↔ d ∈ s.departments := by
  cases h with
  | inserted rows t inserted action affected =>
    rw [affected] at unnamed
    rw [mem_insertAll? inserted]
    exact ⟨fun h => h.resolve_right fun hd => unnamed (List.mem_map_of_mem hd), .inl⟩
  | updated e he located current values action affected =>
    rw [affected, List.mem_singleton] at unnamed
    rw [mem_save_of_mem (b := e) he (by rfl)]
    refine ⟨fun h => (h.resolve_right ?_).1, fun hd => .inl ⟨hd, unnamed⟩⟩
    rintro rfl
    exact unnamed rfl
  | retired e he located current leaf action affected =>
    rw [affected, List.mem_singleton] at unnamed
    rw [mem_save_of_mem (b := e) he (by rfl)]
    refine ⟨fun h => (h.resolve_right ?_).1, fun hd => .inl ⟨hd, unnamed⟩⟩
    rintro rfl
    exact unnamed rfl
  | deleted e he located current leaf creation created history action affected =>
    rw [affected, List.mem_singleton] at unnamed
    rw [mem_erase]
    exact ⟨fun h => h.1, fun hd => ⟨hd, unnamed⟩⟩
  | mentioned => rfl

theorem IsCurrent.save {t : Table Department.id} {id : Uuid} (h : IsCurrent t c id) {d e : Department} (hd : d ∈ t)
    (same : e.id = d.id) (keeps : d.id = id → e.In c ∧ e.retiredAt = none) : IsCurrent (t.save e) c id := by
  obtain ⟨y, hy, own, inside, current⟩ := h
  by_cases here : y.id = d.id
  · obtain ⟨inside', current'⟩ := keeps (here.symm.trans own)
    exact ⟨e, (mem_save_of_mem hd same.symm).mpr (.inr rfl), same.trans (here.symm.trans own), inside', current'⟩
  · exact ⟨y, (mem_save_of_mem hd same.symm).mpr (.inl ⟨hy, fun h => here (h.trans same)⟩), own, inside, current⟩

/-- The tree of the edition that is changed. -/
theorem Redraws.tree {t : Table Department.id} (h : Redraws s c x t) (tree : Tree s.departments c)
    (first : c.aggregateVersion = 1 → ∀ d ∈ s.departments, ¬ d.In c) : Tree t c := by
  cases h with
  | inserted rows t inserted action affected each codes few room lines parents =>
    have mem {e : Department} := @mem_insertAll? _ _ _ _ _ _ _ inserted e
    refine ⟨fun d hd inside => ?_, fun d hd inside current id under => ?_, ?_⟩
    · rcases mem.mp hd with hd | hd
      · exact (tree.line d hd inside).congr fun l _ e he _ located => ⟨e, mem.mpr (.inl he), rfl, located, rfl⟩
      · exact lines d hd
    · rcases mem.mp hd with hd | hd
      · obtain ⟨e, he, which⟩ := tree.current d hd inside current id under
        exact ⟨e, mem.mpr (.inl he), which⟩
      · exact parents d hd id under
    · have all : rows.countP (fun d => d.In c) ≤ rows.length := List.countP_le_length
      rw [countP_insertAll? inserted]
      rcases room with one | room
      · rw [List.countP_eq_zero.mpr fun d hd => by simpa using first one d hd]
        omega
      · omega
  | updated d hd located current values action affected lines parent =>
    have mem {e : Department} : e ∈ s.departments.save (d.updated values x.resultingVersion) ↔
        (e ∈ s.departments ∧ e.id ≠ d.id) ∨ e = d.updated values x.resultingVersion :=
      mem_save_of_mem (b := d) hd (by rfl)
    have keeps {id : Uuid} (h : IsCurrent s.departments c id) :
        IsCurrent (s.departments.save (d.updated values x.resultingVersion)) c id :=
      h.save hd (by rfl) fun _ => ⟨located, current⟩
    refine ⟨fun e he inside => ?_, fun e he inside current id under => ?_, ?_⟩
    · rcases mem.mp he with ⟨he, -⟩ | rfl
      · exact lines e he inside
      · exact lines d hd located
    · rcases mem.mp he with ⟨he, -⟩ | rfl
      · exact keeps (tree.current e he inside current id under)
      · exact keeps (parent id under)
    · have count := countP_save (r := d.updated values x.resultingVersion) hd (by rfl) fun d => decide (d.In c)
      have both : (decide ((d.updated values x.resultingVersion).In c)) = decide (d.In c) := rfl
      rw [both] at count
      have bounded := tree.bounded
      omega
  | retired d hd located current leaf action affected at_ actorId =>
    have mem {e : Department} : e ∈ s.departments.save (d.retired x.resultingVersion at_ actorId) ↔
        (e ∈ s.departments ∧ e.id ≠ d.id) ∨ e = d.retired x.resultingVersion at_ actorId :=
      mem_save_of_mem (b := d) hd (by rfl)
    refine ⟨fun e he inside => ?_, fun e he inside current id under => ?_, ?_⟩
    · have line : Lined s.departments c e.id := by
        rcases mem.mp he with ⟨he, -⟩ | rfl
        · exact tree.line e he inside
        · exact tree.line d hd located
      refine line.congr fun l _ y hy _ inside => ?_
      by_cases own : y.id = d.id
      · obtain rfl := eq_of_key hy hd own
        exact ⟨_, mem.mpr (.inr rfl), rfl, inside, rfl⟩
      · exact ⟨y, mem.mpr (.inl ⟨hy, own⟩), rfl, inside, rfl⟩
    · rcases mem.mp he with ⟨he, -⟩ | rfl
      · refine (tree.current e he inside current id under).save hd (by rfl) fun own => ?_
        exact absurd (under.trans (congrArg some own.symm)) (leaf e he inside current)
      · simp [Department.retired] at current
    · have count := countP_save (r := d.retired x.resultingVersion at_ actorId) hd (by rfl) fun d => decide (d.In c)
      have both : (decide ((d.retired x.resultingVersion at_ actorId).In c)) = decide (d.In c) := rfl
      rw [both] at count
      have bounded := tree.bounded
      omega
  | deleted d hd located current leaf =>
    refine ⟨fun e he inside => ?_, fun e he inside current id under => ?_, ?_⟩
    · obtain ⟨he, other⟩ := mem_erase.mp he
      have line := tree.line e he inside
      refine line.congr fun l lineage y hy mem located => ⟨y, mem_erase.mpr ⟨hy, fun own => ?_⟩, rfl, located, rfl⟩
      -- A line that went through the leaf would come from a child of it.
      obtain ⟨a, ha, child⟩ := lineage.child_mem mem (fun same => other (same.symm.trans own))
      obtain ⟨l', lineage', -, known⟩ := line
      rw [lineage.unique lineage'] at ha
      obtain ⟨b, hb, rfl, below⟩ := known a ha
      rw [parentOf_of_mem hb, own] at child
      exact leaf b hb below child
    · obtain ⟨he, -⟩ := mem_erase.mp he
      obtain ⟨y, hy, own, which⟩ := tree.current e he inside current id under
      refine ⟨y, mem_erase.mpr ⟨hy, fun same => leaf e he inside ?_⟩, own, which⟩
      rw [under, ← own, same]
    · exact (countP_erase_le _ _ _).trans tree.bounded
  | mentioned => exact tree

/-- The tree of another edition. -/
theorem Redraws.tree_elsewhere {t : Table Department.id} (h : Redraws s c x t) {b : EditionStructureControl}
    (other : b.editionId ≠ c.editionId) (tree : Tree s.departments b) : Tree t b := by
  have mem {d : Department} (inside : d.In b) := h.elsewhere other inside
  refine ⟨fun d hd inside => ?_, fun d hd inside current id under => ?_, ?_⟩
  · exact (tree.line d ((mem inside).mp hd) inside).congr fun l _ e he _ located =>
      ⟨e, (mem located).mpr he, rfl, located, rfl⟩
  · obtain ⟨e, he, own, located, which⟩ := tree.current d ((mem inside).mp hd) inside current id under
    exact ⟨e, (mem located).mpr he, own, located, which⟩
  · refine le_trans ?_ tree.bounded
    have outside {d e : Department} (located : d.In c) (same : e.editionId = d.editionId) : ¬ e.In b := fun inside =>
      other (inside.2.symm.trans (same.trans located.2))
    cases h with
    | inserted rows t inserted action affected each =>
      have none_ : rows.countP (fun d => d.In b) = 0 :=
        List.countP_eq_zero.mpr fun d hd => by simpa using outside (each d hd).1 (by rfl)
      rw [countP_insertAll? inserted, none_]
      exact Nat.le_refl _
    | updated d hd located current values =>
      have count := countP_save (r := d.updated values x.resultingVersion) hd (by rfl) fun d => decide (d.In b)
      have neither : ¬ (d.updated values x.resultingVersion).In b := outside located (by rfl)
      simp only [outside located rfl, neither, decide_false, Bool.false_eq_true, if_false] at count
      omega
    | retired d hd located current leaf action affected at_ actorId =>
      have count := countP_save (r := d.retired x.resultingVersion at_ actorId) hd (by rfl) fun d => decide (d.In b)
      have neither : ¬ (d.retired x.resultingVersion at_ actorId).In b := outside located (by rfl)
      simp only [outside located rfl, neither, decide_false, Bool.false_eq_true, if_false] at count
      omega
    | deleted => exact countP_erase_le _ _ _
    | mentioned => exact Nat.le_refl _

/-- What is left by a step was there, or is in the edition. -/
theorem Redraws.mem_or {t : Table Department.id} (h : Redraws s c x t) {d : Department}
    (hd : d ∈ t) : d ∈ s.departments ∨ d.In c := by
  cases h with
  | inserted rows t inserted action affected each =>
    exact ((mem_insertAll? inserted).mp hd).imp_right fun hd => (each d hd).1
  | updated e he located =>
    rcases mem_save.mp hd with ⟨hd, -⟩ | ⟨rfl, -⟩
    · exact .inl hd
    · exact .inr located
  | retired e he located =>
    rcases mem_save.mp hd with ⟨hd, -⟩ | ⟨rfl, -⟩
    · exact .inl hd
    · exact .inr located
  | deleted e he located => exact .inl (mem_erase.mp hd).1
  | mentioned => exact .inl hd

/-- A Department is saved under its code. -/
theorem codes_save {t : Table Department.id} {d e : Department} (hd : d ∈ t) (same : e.id = d.id)
    (edition : e.editionId = d.editionId) (code : e.code = d.code) :
    ((t.save e).rows.map fun d => (d.editionId, d.code)) = t.rows.map fun d => (d.editionId, d.code) := by
  rw [rows_save, List.map_map]
  refine List.map_congr_left fun a ha => ?_
  by_cases own : a.id = e.id
  · obtain rfl := eq_of_key ha hd (own.trans same)
    rw [Function.comp_apply, if_pos own, edition, code]
  · rw [Function.comp_apply, if_neg own]

theorem Redraws.codes {t : Table Department.id} (h : Redraws s c x t)
    (codes : (s.departments.rows.map fun d => (d.editionId, d.code)).Nodup) :
    (t.rows.map fun d => (d.editionId, d.code)).Nodup := by
  cases h with
  | inserted rows t inserted action affected each codes' => exact codes'
  | updated d hd => rwa [codes_save (d := d) hd (by rfl) (by rfl) (by rfl)]
  | retired d hd => rwa [codes_save (d := d) hd (by rfl) (by rfl) (by rfl)]
  | deleted d hd => exact codes.sublist (List.filter_sublist.map _)
  | mentioned => exact codes

theorem StructureStep.hierarchy (step : StructureStep s s') (journal : Journal s) (h : Hierarchy s) : Hierarchy s' := by
  cases step with
  | unchanged same =>
    rw [same]
    exact h
  | changed c x recorded departments =>
    have here : c ∈ s'.controls := recorded.mem_controls.mpr (.inr rfl)
    refine ⟨fun d hd => ?_, fun b hb => ?_, departments.codes h.codes⟩
    · rcases departments.mem_or hd with hd | inside
      · obtain ⟨b, hb, inside⟩ := h.home d hd
        by_cases own : b.id = c.id
        · rcases recorded.control with ⟨inserted, -⟩ | ⟨a, ha, rfl, -⟩
          · exact absurd own ((insert?_eq_some.mp inserted).1 b hb)
          · obtain rfl := eq_of_key hb ha own
            exact ⟨_, here, inside⟩
        · exact ⟨b, recorded.mem_controls.mpr (.inl ⟨hb, own⟩), inside⟩
      · exact ⟨c, here, inside⟩
    · rcases recorded.mem_controls.mp hb with ⟨hb, other⟩ | rfl
      · exact departments.tree_elsewhere (recorded.alone journal hb other) (h.tree b hb)
      · exact departments.tree (recorded.tree h) (recorded.first journal)

/-! ## The log -/

theorem Department.Says.not_retired {d : Department} {y : DepartmentSummary} (told : d.Says y)
    (current : d.retiredAt = none) : y.retired = false := by
  rw [← told.retiredAt, current]
  rfl

/-- The Department of the receipt, and what is said of it. -/
theorem Agrees.of_mem {t : Table Department.id} {d : Department} {y : Option DepartmentSummary}
    (h : Agrees t c d.id y) (hd : d ∈ t) (located : d.In c) : ∃ z, y = some z ∧ d.Says z := by
  cases y with
  | none => exact absurd located (h d hd rfl)
  | some z =>
    obtain ⟨e, he, own, -, told⟩ := h
    obtain rfl := eq_of_key he hd own
    exact ⟨z, rfl, told⟩

/-- What the receipts say of a Department that the new one names. -/
theorem Redraws.advances {t : Table Department.id} (h : Redraws s c x t) {id : Uuid}
    (named : id ∈ x.affectedDepartmentIds) {y : Option DepartmentSummary} (agrees : Agrees s.departments c id y)
    (replayed : DepartmentSummary.replay (s.logOf c.id id) = some y)
    (history : (s.receipts.rows.filter fun z => z.organizationId = c.organizationId ∧ z.editionId = c.editionId ∧
      id ∈ z.affectedDepartmentIds) = s.logOf c.id id) :
    ∃ z, DepartmentSummary.advance y x = some z ∧ Agrees t c id z := by
  cases h with
  | inserted rows t inserted action affected each =>
    rw [affected] at named
    obtain ⟨d, hd, rfl⟩ := List.mem_map.mp named
    obtain ⟨located, created, changed, retired, retiredBy, retiredIn⟩ := each d hd
    cases y with
    | some y =>
      obtain ⟨e, he, own, -⟩ := agrees
      exact absurd own ((insertAll?_eq_some inserted).2 e he d hd)
    | none =>
      refine ⟨some ⟨x.resultingVersion, x.resultingVersion, false, true⟩, if_pos action, d,
        (mem_insertAll? inserted).mpr (.inr hd), rfl, located, ?_⟩
      exact ⟨created, changed, by rw [retired]; rfl, by rw [retiredBy]; rfl, retiredIn⟩
  | updated d hd located current values action affected =>
    rw [affected, List.mem_singleton] at named
    subst named
    obtain ⟨y, rfl, told⟩ := agrees.of_mem hd located
    have open_ := told.not_retired current
    refine ⟨some { y with lastChanged := x.resultingVersion, untouched := false }, ?_,
      d.updated values x.resultingVersion,
      (mem_save_of_mem (b := d) hd (by rfl)).mpr (.inr rfl), rfl, located, ?_⟩
    · simp [DepartmentSummary.advance, action, open_]
    · refine ⟨told.created, rfl, told.retiredAt, told.retiredBy, ?_⟩
      have retiredIn := told.retiredIn
      rw [open_] at retiredIn
      dsimp only
      rw [open_]
      exact retiredIn
  | retired d hd located current leaf action affected at_ actorId =>
    rw [affected, List.mem_singleton] at named
    subst named
    obtain ⟨y, rfl, told⟩ := agrees.of_mem hd located
    have open_ := told.not_retired current
    refine ⟨some { y with lastChanged := x.resultingVersion, retired := true, untouched := false }, ?_,
      d.retired x.resultingVersion at_ actorId, (mem_save_of_mem (b := d) hd (by rfl)).mpr (.inr rfl), rfl, located, ?_⟩
    · simp [DepartmentSummary.advance, action, open_]
    · exact ⟨told.created, rfl, rfl, rfl, rfl⟩
  | deleted d hd located current leaf creation created single action affected =>
    rw [affected, List.mem_singleton] at named
    subst named
    obtain ⟨y, rfl, told⟩ := agrees.of_mem hd located
    -- Nothing but its creation names it.
    rw [← history, single] at replayed
    have fresh : y.untouched = true := by
      simp only [DepartmentSummary.replay, List.foldlM_cons, List.foldlM_nil, DepartmentSummary.advance] at replayed
      rw [if_pos created.2] at replayed
      cases replayed
      rfl
    refine ⟨none, by simp [DepartmentSummary.advance, action, fresh], fun e he own => ?_⟩
    exact absurd own (mem_erase.mp he).2
  | mentioned d hd located change current action affected =>
    rw [affected, List.mem_singleton] at named
    subst named
    obtain ⟨y, rfl, told⟩ := agrees.of_mem hd located
    refine ⟨some { y with untouched := false }, ?_, d, hd, rfl, located,
      ⟨told.created, told.lastChanged, told.retiredAt, told.retiredBy, told.retiredIn⟩⟩
    cases change with
    | created => simp [DepartmentSummary.advance, action, PositionAction.action, told.not_retired (current rfl)]
    | updated => simp [DepartmentSummary.advance, action, PositionAction.action]
    | closed => simp [DepartmentSummary.advance, action, PositionAction.action]
    | opportunityUpdated => simp [DepartmentSummary.advance, action, PositionAction.action]

theorem Recorded.logOf (h : Recorded s s' c x) (structureId id : Uuid) : s'.logOf structureId id =
    s.logOf structureId id ++ if c.id = structureId ∧ id ∈ x.affectedDepartmentIds then [x] else [] := by
  unfold Structures.logOf
  rw [h.receiptsOf, List.filter_append]
  congr 1
  by_cases own : c.id = structureId
  · by_cases named : id ∈ x.affectedDepartmentIds
    · simp [own, named]
    · simp [own, named]
  · simp [own]

theorem Recorded.history (h : Recorded s s' c x) (journal : Journal s) (id : Uuid) :
    (s.receipts.rows.filter fun z => z.organizationId = c.organizationId ∧
      z.editionId = c.editionId ∧ id ∈ z.affectedDepartmentIds) = s.logOf c.id id := by
  unfold Structures.logOf Structures.receiptsOf
  rw [List.filter_filter]
  refine List.filter_congr fun z hz => ?_
  have place := h.of_structure journal hz
  by_cases own : z.structureId = c.id
  · obtain ⟨organization, edition⟩ := place.mp own
    simp [own, organization, edition]
  · have elsewhere : ¬(z.organizationId = c.organizationId ∧ z.editionId = c.editionId ∧ id ∈ z.affectedDepartmentIds) :=
      fun h => own (place.mpr ⟨h.1, h.2.1⟩)
    simp only [own, elsewhere, decide_false, Bool.and_false]

theorem Agrees.congr {t t' : Table Department.id} {id : Uuid} {y : Option DepartmentSummary} (h : Agrees t c id y)
    (same : ∀ d, d.id = id → d.In c → (d ∈ t' ↔ d ∈ t)) : Agrees t' c id y := by
  cases y with
  | none => exact fun d hd own located => h d ((same d own located).mp hd) own located
  | some y =>
    obtain ⟨d, hd, own, located, told⟩ := h
    exact ⟨d, (same d own located).mpr hd, own, located, told⟩

theorem StructureStep.logged (step : StructureStep s s') (journal : Journal s) (h : Logged s) : Logged s' := by
  cases step with
  | unchanged same =>
    rw [same]
    exact h
  | changed c x recorded departments =>
    intro b hb id
    rw [recorded.logOf]
    rcases recorded.mem_controls.mp hb with ⟨hb, other⟩ | rfl
    · obtain ⟨y, replayed, agrees⟩ := h b hb id
      rw [if_neg fun own => other own.1.symm, List.append_nil]
      exact ⟨y, replayed, agrees.congr fun d _ located =>
        departments.elsewhere (recorded.alone journal hb other) located⟩
    · obtain ⟨y, replayed, agrees⟩ := recorded.logged journal h id
      by_cases named : id ∈ x.affectedDepartmentIds
      · obtain ⟨z, advanced, agrees'⟩ := departments.advances named agrees replayed (recorded.history journal id)
        rw [if_pos ⟨rfl, named⟩, DepartmentSummary.replay_concat, replayed]
        exact ⟨z, advanced, agrees'⟩
      · rw [if_neg fun own => named own.2, List.append_nil]
        exact ⟨y, replayed, agrees.congr fun d own _ => departments.unnamed (own ▸ named)⟩

end

/-! ## Retries -/

/-- The action of a command that can be repeated under its retry key. -/
def StructureCommand.retryAction : StructureCommand → Option Action
  | .applyTemplate .. => some .templateApplied
  | .create .. => some .departmentCreated
  | .position .created .. => some .positionCreated
  | .position .. | .update .. | .retire .. | .delete .. => none

/-- The call is a creation under the retry key of the receipt. -/
def StructureCall.Repeats (call : StructureCall) (x : CommandReceipt) : Prop :=
  call.command.retryAction.isSome ∧ call.request.actorId = x.actorId ∧
    call.request.organizationId = x.organizationId ∧ call.request.editionId = x.editionId ∧
    some call.request.retryKey = x.retryKey

section

variable {lib : Library} {s s' : Structures} {w : Surroundings} {r : Request} {scope : LockedScope} {x : CommandReceipt}

theorem receiptForRetry_eq (journal : Journal s) (hx : x ∈ s.receipts) (locked : lockScope s w r = .ok scope)
    (actor : r.actorId = x.actorId) (organization : r.organizationId = x.organizationId)
    (edition : r.editionId = x.editionId) (key : some r.retryKey = x.retryKey) :
    receiptForRetry s scope r = some x := by
  obtain ⟨organization', edition'⟩ := lockScope_edition locked
  cases found : receiptForRetry s scope r with
  | none =>
    have not := List.find?_eq_none.mp found x hx
    rw [decide_eq_true_eq] at not
    exact absurd ⟨(organization'.trans organization).symm, (edition'.trans edition).symm, actor.symm, key.symm⟩ not
  | some y =>
    have which := holds_of_find? found
    have same := journal.keys y (List.mem_of_find?_eq_some found) x hx
      (which.2.1.trans (edition'.trans edition)) (which.2.2.1.trans actor) (which.2.2.2.trans key)
      (by rw [which.2.2.2]; simp)
    rw [same]

/-- A repeated creation is answered by the receipt, and writes nothing. -/
theorem exec_repeats {call : StructureCall} {result : StructureResult} (journal : Journal s) (hx : x ∈ s.receipts)
    (repeats : call.Repeats x) (h : execStructure lib s call = .ok (s', result)) :
    s' = s ∧ result = x.result true := by
  obtain ⟨w, r, command⟩ := call
  obtain ⟨action, actor, organization, edition, key⟩ := repeats
  have replayed {scope : LockedScope} (locked : lockScope s w r = .ok scope) : receiptForRetry s scope r = some x :=
    receiptForRetry_eq journal hx locked actor organization edition key
  cases command with
  | applyTemplate templateIdentifier expectedVersion confirmationName reason =>
    simp only [execStructure, applyBuiltinStructureTemplate, bind_eq_ok] at h
    obtain ⟨_, -, _, -, _, -, _, -, scope, locked, _, -, h⟩ := h
    simp only [replayed locked, bind_eq_ok, pure_eq_ok, Prod.mk.injEq] at h
    obtain ⟨_, -, rfl, rfl⟩ := h
    exact ⟨rfl, rfl⟩
  | create name description parentDepartmentId displayOrder expectedVersion reason =>
    simp only [execStructure, createDepartment, bind_eq_ok] at h
    obtain ⟨_, -, _, -, _, -, _, -, _, -, _, -, scope, locked, h⟩ := h
    simp only [replayed locked, bind_eq_ok, pure_eq_ok, Prod.mk.injEq] at h
    obtain ⟨_, -, rfl, rfl⟩ := h
    exact ⟨rfl, rfl⟩
  | position change positionId departmentId fields digest expectedVersion reason =>
    cases change with
    | created =>
      simp only [execStructure, changePosition, bind_eq_ok, if_true] at h
      obtain ⟨_, -, _, -, _, -, scope, locked, _, -, h⟩ := h
      simp only [replayed locked, bind_eq_ok, pure_eq_ok, Prod.mk.injEq] at h
      obtain ⟨_, -, rfl, rfl⟩ := h
      exact ⟨rfl, rfl⟩
    | updated | closed | opportunityUpdated => cases action
  | update | retire | delete => cases action

/-- Receipts stay. -/
theorem StructureStep.receipts (step : StructureStep s s') (hx : x ∈ s.receipts) : x ∈ s'.receipts := by
  cases step with
  | unchanged same => rwa [same]
  | changed c y recorded => exact (mem_insert? recorded.inserted).mpr (.inl hx)

end

/-! ## Runs -/

def Structures.start : Structures := ⟨∅, ∅, ∅⟩

/-- What holds of the structures of all editions. -/
structure Sound (s : Structures) : Prop where
  journal : Journal s
  hierarchy : Hierarchy s
  logged : Logged s

theorem sound_start : Sound .start := by
  refine ⟨⟨?_, ?_, ?_, ?_, ?_⟩, ⟨?_, ?_, List.nodup_nil⟩, ?_⟩
  all_goals
    intro a ha
    cases ha

theorem StructureStep.sound {s s' : Structures} (step : StructureStep s s') (h : Sound s) : Sound s' := by
  refine ⟨?_, step.hierarchy h.journal h.hierarchy, step.logged h.journal h.logged⟩
  cases step with
  | unchanged same =>
    rw [same]
    exact h.journal
  | changed c x recorded departments => exact recorded.journal h.journal

/-- Every run of template, Department and Position commands keeps the structures of all editions
sound, and a repeated creation changes nothing and is refused or answered by its receipt. -/
theorem run_structure (lib : Library) (calls : List StructureCall) :
    Sound ((structureMachine lib).run .start calls) ∧
      ∀ x ∈ ((structureMachine lib).run .start calls).receipts, ∀ later call, call.Repeats x →
        (structureMachine lib).run .start (calls ++ later ++ [call]) =
            (structureMachine lib).run .start (calls ++ later) ∧
          ∀ s' result, (structureMachine lib).exec ((structureMachine lib).run .start (calls ++ later)) call =
            .ok (s', result) → result = x.result true := by
  have sound (calls : List StructureCall) : Sound ((structureMachine lib).run .start calls) :=
    Machine.run_invariant (M :=
      structureMachine lib) (fun _ _ _ _ sound h => (exec_step h).sound sound) sound_start calls
  refine ⟨sound calls, fun x hx later call repeats => ?_⟩
  have kept : x ∈ ((structureMachine lib).run .start (calls ++ later)).receipts := by
    rw [Machine.run_append]
    exact Machine.run_invariant (M := structureMachine lib) (I := fun s => x ∈ s.receipts)
      (fun _ _ _ _ hx h => (exec_step h).receipts hx) hx later
  have journal := (sound (calls ++ later)).journal
  refine ⟨?_, fun s' result h => (exec_repeats journal kept repeats h).2⟩
  rw [Machine.run_append, Machine.run_cons, Machine.run_nil]
  rcases Machine.step_cases (M := structureMachine lib) ((structureMachine lib).run .start (calls ++ later)) call with
    same | ⟨result, h⟩
  · exact same
  · exact (exec_repeats journal kept repeats h).1

end Maru.Workforce.Structure

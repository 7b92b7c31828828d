import Maru.Logistics.MovementCommit

/-!
# How deep things stand

`_state_within_node` looks at the containers of a subject up to a bound. It answers as the
recursive query of the database does where no subject has more containers than that
(`Walkable`), and every movement keeps this exactly if it fits: the containers from what is
moved along up to what is moved, and the destination with its own, are no more than the
bound (`append_shallow_iff`). The movement itself is checked for the latter alone.
-/

namespace Maru.Logistics

variable {world : World} {sur : Surroundings} {catalog : Catalog} {custody after : Custody} {context : MovementContext}
  {movement : Movement} {expected : Nat} {record : RecordedMovement} {state : LogisticsCurrentState} {l : List Uuid}

/-! ## The walk -/

/-- `containing`: the recursive query of the guard on the sealing of a manifest. -/
inductive Custody.Containing (custody : Custody) (state : LogisticsCurrentState) : Uuid → Prop
  | place {id : Uuid} : state.currentNodeId = some id → custody.Containing state id
  | parent {id above : Uuid} : custody.Containing state id → custody.container? id = some above →
      custody.Containing state above

theorem container?_eq {node above : Uuid} :
    custody.container? node = some above ↔ custody.isIn ⟨.node, node⟩ ⟨.node, above⟩ := by
  rw [Custody.isIn, Custody.container?]
  constructor
  · intro inside
    exact ⟨above, inside, rfl⟩
  · rintro ⟨_, inside, same⟩
    cases same
    exact inside

/-- The query answers what the subject is in. -/
theorem containing_iff {subject : SubjectLocator} (hs : custody.currentStates.get? subject = some state) {id : Uuid} :
    custody.Containing state id ↔ Relation.TransGen custody.isIn subject ⟨.node, id⟩ := by
  constructor
  · intro h
    induction h with
    | place inside => exact .single ⟨_, by rw [hs]; exact inside, rfl⟩
    | parent _ up ih => exact ih.tail (container?_eq.mp up)
  · intro h
    have every : ∀ place, Relation.TransGen custody.isIn subject place →
        ∀ id, place = ⟨.node, id⟩ → custody.Containing state id := by
      intro place h
      induction h with
      | single step =>
        rintro id rfl
        obtain ⟨node, inside, same⟩ := step
        cases same
        rw [hs] at inside
        exact .place inside
      | @tail between _ steps step ih =>
        rintro id rfl
        have node : between = ⟨.node, between.objectId⟩ := by rw [← (isIn_transGen steps).1]
        rw [node] at step
        exact .parent (ih _ node) (container?_eq.mpr step)
    exact every _ h id rfl

theorem containing_iff_mem (h : Forest.Lineage custody.container? state.currentNodeId l)
    {id : Uuid} : custody.Containing state id ↔ id ∈ l := by
  constructor
  · intro containing
    induction containing with
    | place inside =>
      rw [inside] at h
      cases h
      exact List.mem_cons_self
    | parent _ up ih => exact h.parent_mem ih up
  · obtain ⟨start, hstart⟩ : ∃ start, start = state.currentNodeId := ⟨_, rfl⟩
    rw [← hstart] at h
    have every : ∀ start l, Forest.Lineage custody.container? start l →
        (∀ a ∈ start, custody.Containing state a) → ∀ id ∈ l, custody.Containing state id := by
      intro start l h
      induction h with
      | root => exact fun _ _ mem => absurd mem List.not_mem_nil
      | @step a l up ih =>
        intro reached id mem
        have first : custody.Containing state a := reached a rfl
        rcases List.mem_cons.mp mem with rfl | mem
        · exact first
        · exact ih (fun b hb => .parent first hb) id mem
    exact every start l h (fun a ha => .place (hstart ▸ ha)) id

/-- The walk finds what is among the first containers. -/
theorem reaches_iff {expectedNodeId : Uuid} {start : Option Uuid} (h : Forest.Lineage custody.container? start l)
    {n : Nat} {visited : List Uuid} (fresh : ∀ a ∈ visited, a ∉ l) :
    custody.reaches expectedNodeId n visited start = true ↔ expectedNodeId ∈ l.take n := by
  induction h generalizing n visited with
  | root => cases n <;> simp [Custody.reaches]
  | @step a l up ih =>
    cases n with
    | zero => simp [Custody.reaches]
    | succ n =>
      have unvisited : a ∉ visited := fun mem => fresh a mem List.mem_cons_self
      have above : ∀ b ∈ a :: visited, b ∉ l := by
        refine List.forall_mem_cons.mpr ⟨(Forest.Lineage.step up).not_mem, fun b hb hl => ?_⟩
        exact fresh b hb (List.mem_cons_of_mem a hl)
      simp only [Custody.reaches, Bool.or_eq_true, Bool.and_eq_true, decide_eq_true_eq, unvisited,
        not_false_eq_true, true_and, ih above, List.take_succ_cons, List.mem_cons]
      exact or_congr_left eq_comm

/-- No subject has more containers than the walk looks at. -/
def Custody.Shallow (custody : Custody) : Prop :=
  ∀ subject state, custody.currentStates.get? subject = some state →
    ∀ l, Forest.Lineage custody.container? state.currentNodeId l → l.length ≤ maxContainmentDepth

/-- Every subject has at most as many containers as the walk looks at, and the walk finds exactly
those: what the query of the database finds, which is what the subject is in. -/
def Custody.Walkable (custody : Custody) : Prop :=
  ∀ subject state, custody.currentStates.get? subject = some state →
    (∃ l, Forest.Lineage custody.container? state.currentNodeId l ∧ l.length ≤ maxContainmentDepth) ∧
    ∀ id, (custody.stateWithinNode state id = true ↔ custody.Containing state id) ∧
      (custody.Containing state id ↔ Relation.TransGen custody.isIn subject ⟨.node, id⟩)

theorem Projected.lineage (h : Projected custody) (start : Option Uuid) :
    ∃ l, Forest.Lineage custody.container? start l := by
  cases start with
  | none => exact ⟨[], .root⟩
  | some a => exact h.grounded a

theorem walkable_iff (h : Projected custody) : custody.Walkable ↔ custody.Shallow := by
  constructor
  · intro walkable subject state hs l hl
    obtain ⟨⟨m, hm, short⟩, -⟩ := walkable subject state hs
    rwa [hl.unique hm]
  · intro shallow subject state hs
    obtain ⟨l, hl⟩ := h.lineage state.currentNodeId
    have short := shallow subject state hs l hl
    refine ⟨⟨l, hl, short⟩, fun id => ⟨?_, containing_iff hs⟩⟩
    rw [Custody.stateWithinNode, reaches_iff hl (fun _ mem => absurd mem List.not_mem_nil),
      List.take_of_length_le short, containing_iff_mem hl]

/-! ## One movement -/

/-- The movement leaves the subject in its destination. -/
def Movement.relocates (movement : Movement) : Prop := movement.eventType.moves ∨ movement.eventType = .return

/-- What is moved, and whatever is moved along with it, comes to stand in no more containers than
the bound: those up to what is moved, the destination, and those of the destination. -/
def Custody.Fits (custody : Custody) (movement : Movement) : Prop :=
  movement.relocates → ∀ above, Forest.Lineage custody.container? movement.destinationNodeId above →
    above.length ≤ maxContainmentDepth ∧ (movement.subject.kind = .node →
      ∀ subject state below rest, custody.currentStates.get? subject = some state →
        Forest.Lineage custody.container? state.currentNodeId (below ++ movement.subject.objectId :: rest) →
        below.length + 1 + above.length ≤ maxContainmentDepth)

/-- What a movement changes of where things are. -/
structure Relocated (custody after : Custody) (movement : Movement) : Prop where
  moved : ∃ state, after.currentStates.get? movement.subject = some state ∧
    state.currentNodeId = movement.destinationNodeId
  others : ∀ subject, subject ≠ movement.subject → after.currentStates.get? subject = custody.currentStates.get? subject
  containers : after.container? = if movement.subject.kind = .node then
    Function.update custody.container? movement.subject.objectId movement.destinationNodeId else custody.container?
  outside : movement.subject.kind = .node → ∀ above,
    Forest.Lineage custody.container? movement.destinationNodeId above → movement.subject.objectId ∉ above

/-- A movement that relocates nothing leaves everything where it is. -/
structure StillIn (custody after : Custody) : Prop where
  containers : after.container? = custody.container?
  places : ∀ subject state, after.currentStates.get? subject = some state → state.currentNodeId ≠ none →
    ∃ prior, custody.currentStates.get? subject = some prior ∧ prior.currentNodeId = state.currentNodeId
  kept : ∀ subject prior, custody.currentStates.get? subject = some prior →
    ∃ state, after.currentStates.get? subject = some state ∧ state.currentNodeId = prior.currentNodeId

theorem append_relocates
    (ok : appendMovementEvent world sur catalog custody context movement expected = .ok (after, record)) :
    (movement.relocates → Relocated custody after movement) ∧ (¬ movement.relocates → StillIn custody after) := by
  simp only [appendMovementEvent, bind_eq_ok, pure_eq_ok, Prod.mk.injEq] at ok
  obtain ⟨_, planned, after, recorded, rfl, rfl⟩ := ok
  obtain ⟨subject, destination, quantity, plannable, rfl⟩ := planMovement_eq_ok.mp planned
  have writes := recordMovement_ok recorded
  obtain ⟨record, hrecord⟩ : ∃ r, r = plannedRecord custody context movement subject quantity := ⟨_, rfl⟩
  rw [← hrecord] at writes
  have same : record.state.subject = movement.subject := by rw [hrecord]; rfl
  have states := writes.states
  rw [same] at states
  constructor
  · intro relocates
    have place : record.state.currentNodeId = movement.destinationNodeId := by
      rw [hrecord]
      exact if_pos relocates
    refine ⟨⟨record.state, by rw [states, if_pos rfl], place⟩, fun s other => by rw [states, if_neg other], ?_, ?_⟩
    · split
      · rename_i kind
        have asNode : record.state.subject = ⟨.node, movement.subject.objectId⟩ := by rw [same, ← kind]
        rw [container?_recorded writes asNode, place]
      · rename_i kind
        exact container?_recorded_of_ne writes (same ▸ kind)
    · intro kind above habove
      obtain ⟨node, hn⟩ := TrackedSubject.exists_node? (plannable.locator ▸ kind)
      have id : node.id = movement.subject.objectId := by rw [← plannable.locator, TrackedSubject.node?_eq_some hn]
      obtain ⟨l, lineage, outside⟩ := plannable.lineage hn relocates
      rw [habove.unique lineage, ← id]
      exact outside
  · intro still
    have place : record.state.currentNodeId = (custody.currentStates.get? movement.subject).bind (·.currentNodeId) := by
      rw [hrecord]
      exact if_neg still
    have containers : after.container? = custody.container? := by
      by_cases kind : movement.subject.kind = .node
      · have asNode : movement.subject = ⟨.node, movement.subject.objectId⟩ := by rw [← kind]
        rw [container?_recorded writes (same.trans asNode), place, asNode]
        exact Function.update_eq_self _ _
      · exact container?_recorded_of_ne writes (same ▸ kind)
    refine ⟨containers, fun s state hs held => ?_, fun s prior hs => ?_⟩
    · rw [states] at hs
      split at hs
      · rename_i e
        cases hs
        rw [place] at held ⊢
        obtain ⟨id, hid⟩ := Option.ne_none_iff_exists'.mp held
        obtain ⟨prior, found, inside⟩ := Option.bind_eq_some_iff.mp hid
        exact ⟨prior, by rw [e]; exact found, by rw [found]; rfl⟩
      · exact ⟨state, hs, rfl⟩
    · rw [states]
      split
      · rename_i e
        refine ⟨record.state, rfl, ?_⟩
        rw [place, ← e, hs]
        rfl
      · exact ⟨prior, hs, rfl⟩

/-- A movement keeps everything within the bound exactly if it fits. -/
theorem append_shallow_iff (h : Projected custody) (shallow : custody.Shallow)
    (ok : appendMovementEvent world sur catalog custody context movement expected = .ok (after, record)) :
    after.Shallow ↔ custody.Fits movement := by
  obtain ⟨relocated, still⟩ := append_relocates ok
  by_cases relocates : movement.relocates
  · obtain ⟨⟨moved, hmoved, place⟩, others, containers, outside⟩ := relocated relocates
    obtain ⟨above, habove⟩ := h.lineage movement.destinationNodeId
    -- Above the destination everything is as it was.
    have lineage : Forest.Lineage after.container? movement.destinationNodeId above := by
      rw [containers]
      split
      · rename_i kind
        exact habove.update (outside kind above habove)
      · exact habove
    constructor
    · intro shallow' _ above' habove'
      rw [habove'.unique habove]
      refine ⟨shallow' _ _ hmoved above (by rw [place]; exact lineage), fun kind subject state below rest hs hl => ?_⟩
      have other : subject ≠ movement.subject := by
        rintro rfl
        have asNode : movement.subject = ⟨.node, movement.subject.objectId⟩ := by rw [← kind]
        have inside : custody.container? movement.subject.objectId = state.currentNodeId := by
          rw [Custody.container?, ← asNode, hs]
          rfl
        rw [← inside] at hl
        exact (Forest.Lineage.step hl).not_mem (by simp)
      have grafted := hl.graft habove (outside kind above habove)
      have short := shallow' subject state (by rw [others subject other]; exact hs) _ (by
        rw [containers, if_pos kind]
        exact grafted)
      rw [List.length_append, List.length_cons] at short
      omega
    · intro fits subject state hs l hl
      obtain ⟨short, along⟩ := fits relocates above habove
      by_cases e : subject = movement.subject
      · subst e
        obtain rfl := Option.some.inj (hmoved.symm.trans hs)
        rw [place] at hl
        rwa [hl.unique lineage]
      · rw [others subject e] at hs
        obtain ⟨m, hm⟩ := h.lineage state.currentNodeId
        by_cases kind : movement.subject.kind = .node
        · rw [containers, if_pos kind] at hl
          by_cases inside : movement.subject.objectId ∈ m
          · obtain ⟨below, rest, rfl⟩ := List.append_of_mem inside
            have bound := along kind subject state below rest hs hm
            rw [hl.unique (hm.graft habove (outside kind above habove)), List.length_append, List.length_cons]
            omega
          · rw [hl.unique (hm.update inside)]
            exact shallow subject state hs m hm
        · rw [containers, if_neg kind] at hl
          exact shallow subject state hs l hl
  · obtain ⟨containers, places, -⟩ := still relocates
    refine iff_of_true (fun subject state hs l hl => ?_) (fun moves => absurd moves relocates)
    rw [containers] at hl
    by_cases held : state.currentNodeId = none
    · rw [held] at hl
      cases hl
      exact Nat.zero_le _
    · obtain ⟨prior, found, inside⟩ := places subject state hs held
      rw [← inside] at hl
      exact shallow subject prior found l hl

/-! ## Every run -/

/-- A write to the events and projections: a movement, a discrepancy, or the
control of an edition. -/
inductive CustodyWrite
  | append (sur : Surroundings) (catalog : Catalog) (context : MovementContext) (movement : Movement) (expected : Nat)
  | note (discrepancy : LogisticsDiscrepancy)
  | ensure (organizationId editionId : Uuid)

def Custody.write (world : World) (custody : Custody) : CustodyWrite → Except LogisticsError (Custody × Unit)
  | .append sur catalog context movement expected => do
    let (custody, _) ← appendMovementEvent world sur catalog custody context movement expected
    return (custody, ())
  | .note discrepancy => do
    let custody ← custody.writeDiscrepancy world discrepancy
    return (custody, ())
  | .ensure organizationId editionId => do
    let (custody, _) ← custody.ensureControl world organizationId editionId
    return (custody, ())

def custodyWrites (world : World) : Machine Custody CustodyWrite Unit LogisticsError where
  exec custody write := custody.write world write

theorem step_write (h : Custody.Step world catalog custody after) : ∃ write,
    custody.write world write = .ok (after, ()) := by
  cases h with
  | appended sur context movement expected record ok =>
    exact ⟨.append sur catalog context movement expected, by rw [Custody.write, ok]; rfl⟩
  | noted discrepancy ok => exact ⟨.note discrepancy, by rw [Custody.write, ok]; rfl⟩
  | opened organizationId editionId control ok =>
      exact ⟨.ensure organizationId editionId, by rw [Custody.write, ok]; rfl⟩

theorem write_step {write : CustodyWrite} {answer : Unit} (h : custody.write world write = .ok (after, answer)) :
    ∃ catalog, Custody.Step world catalog custody after := by
  cases write with
  | append sur catalog context movement expected =>
    simp only [Custody.write, bind_eq_ok, pure_eq_ok, Prod.mk.injEq] at h
    obtain ⟨⟨_, record⟩, ok, rfl, -⟩ := h
    exact ⟨catalog, .appended sur context movement expected record ok⟩
  | note discrepancy =>
    simp only [Custody.write, bind_eq_ok, pure_eq_ok, Prod.mk.injEq] at h
    obtain ⟨_, ok, rfl, -⟩ := h
    exact ⟨.empty, .noted discrepancy ok⟩
  | ensure organizationId editionId =>
    simp only [Custody.write, bind_eq_ok, pure_eq_ok, Prod.mk.injEq] at h
    obtain ⟨⟨_, control⟩, ok, rfl, -⟩ := h
    exact ⟨.empty, .opened organizationId editionId control ok⟩

/-- What the commands do to the events and projections is a run of writes. -/
theorem reached_writes {lib : Primitives} {store : Store} (reached : Reached world lib store) :
    ∃ writes, (custodyWrites world).run .empty writes = store.custody := by
  have steps {before after : Custody} {catalog : Catalog}
      (h : Relation.ReflTransGen (Custody.Step world catalog) before after) :
      ∃ writes, (custodyWrites world).run before writes = after := by
    induction h with
    | refl => exact ⟨[], rfl⟩
    | tail _ step ih =>
      obtain ⟨writes, rfl⟩ := ih
      obtain ⟨write, ok⟩ := step_write step
      refine ⟨writes ++ [write], ?_⟩
      rw [Machine.run_append, Machine.run_cons, Machine.run_nil]
      exact Machine.step_of_ok ok
  induction reached with
  | refl => exact ⟨[], rfl⟩
  | tail _ step ih =>
    obtain ⟨writes, before⟩ := ih
    obtain ⟨more, after⟩ := steps step.advances.custody
    exact ⟨writes ++ more, by rw [Machine.run_append, before, after]⟩

/-- A movement that is accepted fits. -/
def CustodyWrite.Fits (world : World) (custody : Custody) (write : CustodyWrite) : Prop :=
  ∀ sur catalog context movement expected, write = .append sur catalog context movement expected →
    (∃ result, appendMovementEvent world sur catalog custody context movement expected = .ok result) →
    custody.Fits movement

theorem Custody.Shallow.congr (h : custody.Shallow)
    (states : after.currentStates = custody.currentStates) : after.Shallow := by
  have same : after.container? = custody.container? := by
    funext id
    rw [Custody.container?, states]
    rfl
  intro subject state hs l hl
  rw [states] at hs
  rw [same] at hl
  exact h subject state hs l hl

theorem write_shallow_iff {write : CustodyWrite} {answer : Unit} (h : Projected custody) (shallow : custody.Shallow)
    (ok : custody.write world write = .ok (after, answer)) : after.Shallow ↔ write.Fits world custody := by
  cases write with
  | append sur catalog context movement expected =>
    simp only [Custody.write, bind_eq_ok, pure_eq_ok, Prod.mk.injEq] at ok
    obtain ⟨⟨_, record⟩, ok, rfl, -⟩ := ok
    rw [append_shallow_iff h shallow ok]
    constructor
    · rintro fits _ _ _ _ _ same -
      cases same
      exact fits
    · exact fun fits => fits _ _ _ _ _ rfl ⟨_, ok⟩
  | note discrepancy =>
    simp only [Custody.write, bind_eq_ok, pure_eq_ok, Prod.mk.injEq] at ok
    obtain ⟨_, ok, rfl, -⟩ := ok
    obtain ⟨-, -, states, -⟩ := writeDiscrepancy_ok ok
    exact iff_of_true (shallow.congr states) fun _ _ _ _ _ same => by cases same
  | ensure organizationId editionId =>
    simp only [Custody.write, bind_eq_ok, pure_eq_ok, Prod.mk.injEq] at ok
    obtain ⟨⟨_, control⟩, ok, rfl, -⟩ := ok
    obtain ⟨-, states, -⟩ := ensureControl_ok ok
    exact iff_of_true (shallow.congr states) fun _ _ _ _ _ same => by cases same

/-- The walk answers rightly all along a run exactly if every movement that is accepted fits. -/
theorem walkable_run_iff (h : Projected custody) (shallow : custody.Shallow) (writes : List CustodyWrite) :
    (∀ earlier, earlier <+: writes → ((custodyWrites world).run custody earlier).Walkable) ↔
      (custodyWrites world).Along (fun custody write => write.Fits world custody) custody writes := by
  induction writes generalizing custody with
  | nil =>
    refine iff_of_true (fun earlier before => ?_) trivial
    rw [List.prefix_nil.mp before]
    exact (walkable_iff h).mpr shallow
  | cons write writes ih =>
    -- Where the write is refused nothing changes, and no movement was accepted.
    have first : Projected ((custodyWrites world).step custody write) ∧
        (((custodyWrites world).step custody write).Shallow ↔ write.Fits world custody) := by
      cases made : custody.write world write with
      | ok result =>
        obtain ⟨after, answer⟩ := result
        rw [Machine.step_of_ok (M := custodyWrites world) made]
        obtain ⟨catalog, step⟩ := write_step made
        exact ⟨h.step step, write_shallow_iff h shallow made⟩
      | error e =>
        rw [Machine.step_of_error (M := custodyWrites world) made]
        refine ⟨h, iff_of_true shallow ?_⟩
        rintro sur catalog context movement expected rfl ⟨result, accepted⟩
        rw [Custody.write, accepted] at made
        cases made
    obtain ⟨projected, shallow_iff⟩ := first
    constructor
    · intro all
      have now := (walkable_iff projected).mp (all [write] (by simp))
      refine ⟨shallow_iff.mp now, (ih projected now).mp fun earlier before => ?_⟩
      exact all (write :: earlier) (List.cons_prefix_cons.mpr ⟨rfl, before⟩)
    · rintro ⟨fits, along⟩ earlier before
      cases earlier with
      | nil => exact (walkable_iff h).mpr shallow
      | cons other earlier =>
        obtain ⟨rfl, rest⟩ := List.cons_prefix_cons.mp before
        exact (ih projected (shallow_iff.mpr fits)).mpr along earlier rest

theorem shallow_empty : Custody.Shallow .empty := by
  intro subject state hs
  cases hs

/-- Every state of logistics is one that writes lead to, and along a run of writes the walk finds
exactly what a subject is in, no chain of containers being longer than it looks, if and only if
every movement that is accepted fits. -/
theorem containment_walkable (world : World) :
    (∀ lib store, Reached world lib store → ∃ writes, (custodyWrites world).run .empty writes = store.custody) ∧
    ∀ writes, (∀ earlier, earlier <+: writes → ((custodyWrites world).run .empty earlier).Walkable) ↔
      (custodyWrites world).Along (fun custody write => write.Fits world custody) .empty writes :=
  ⟨fun _ _ reached => reached_writes reached, walkable_run_iff projected_empty shallow_empty⟩

/-! ## Two piles of boxes -/

/-- The identifier of the box that is created `n`th. -/
def boxId (n : Nat) : Uuid := Fin.ofNat _ (1000 * n + 1)

def boxCode (n : Nat) : String := (boxId n).hex

def box (n : Nat) : LogisticsNode where
  id := boxId n
  organizationId := 1
  editionId := none
  kind := .box
  code := boxCode n

def createBox (n : Nat) : Operation := depotOperation n (.createLogisticsNode (depotNode .box (boxCode n)))

/-- Box `i + 1` is received in box `i`. -/
def boxReceipt (i : Nat) : MovementInput where
  eventType := .receive
  subject := ⟨.node, boxId (i + 1)⟩
  occurredAt := depotMoment
  destinationNodeId := some (boxId i)
  conditionAfter := "good"

def receiveBox (n i : Nat) : Operation := depotOperation n (.recordLogisticsEvent ⟨2, boxReceipt i, 0⟩)

theorem boxCode_plain {n : Nat} {c : Char} (h : c ∈ (boxCode n).toList) : isSpace c = false ∧
    c ≠ '-' ∧ ((('a' ≤ c && c ≤ 'z') || ('0' ≤ c && c ≤ '9')) = true) := by
  have digits : ∀ d < 16, isSpace (Digits.hexDigit d) = false ∧ Digits.hexDigit d ≠ '-' ∧
      ((('a' ≤ Digits.hexDigit d && Digits.hexDigit d ≤ 'z') ||
        ('0' ≤ Digits.hexDigit d && Digits.hexDigit d ≤ '9')) = true) := by
    decide
  obtain ⟨d, hd, rfl⟩ := Uuid.mem_hex h
  exact digits d hd

/-- The code of a box is normalized already, and a slug. -/
theorem box_code (n : Nat) : normalizedCode depotLibrary (boxCode n) = .ok (boxCode n) ∧
    isLowercaseSlug (boxCode n) = true := by
  have length : (boxCode n).length = 32 := Uuid.length_hex _
  have filled : boxCode n ≠ "" := fun empty => by rw [empty] at length; cases length
  have solid : ∀ c ∈ (boxCode n).toList, isSpace c = false := fun c hc => (boxCode_plain hc).1
  have text : normalizedText depotLibrary (boxCode n) "code" 240 true true = .ok (boxCode n) := by
    simp only [normalizedText, depotLibrary, id, strip_eq_self solid, if_true, collapseSpace_eq_self solid]
    simp [require, filled, length]
    rfl
  have ends : ∀ l : List Char, (∀ c ∈ l, c ∈ (boxCode n).toList) → l.dropWhile (· = '-') = l := by
    intro l hl
    cases l with
    | nil => rfl
    | cons c cs => rw [List.dropWhile_cons_of_neg (by simpa using (boxCode_plain (hl c List.mem_cons_self)).2.1)]
  have stripped : stripDashes (boxCode n) = boxCode n := by
    rw [stripDashes, ends _ fun c hc => hc, ends _ fun c hc => List.mem_reverse.mp hc,
      List.reverse_reverse, String.ofList_toList]
  have whole : (boxCode n).toList.take maxLogisticsCodeLength = (boxCode n).toList :=
    List.take_of_length_le (by rw [String.length_toList, length]; decide)
  constructor
  · rw [normalizedCode, text, ok_bind, show depotLibrary.slugify (boxCode n) = boxCode n from rfl,
      whole, String.ofList_toList, stripped]
    simp [require, filled]
  · rw [isLowercaseSlug, List.splitOn_eq_singleton fun dash => (boxCode_plain dash).2.1 rfl]
    rw [List.all_cons, List.all_nil, Bool.and_true, Bool.and_eq_true]
    exact ⟨by simpa using filled, List.all_eq_true.mpr fun c hc => (boxCode_plain hc).2.2⟩

/-- The other texts of a new box. -/
theorem box_texts : normalizedText depotLibrary "Place" "name" 200 true true = .ok "Place" ∧
    normalizedText depotLibrary "" "description" 2000 = .ok "" ∧
    normalizedText depotLibrary "" "vehicle_registration" 40 false true = .ok "" ∧
    normalizedText depotLibrary "" "capacity_note" 500 false true = .ok "" := by decide +kernel

theorem depot_request : normalizedReason depotLibrary "Season setup" = .ok "Season setup" ∧
    normalizedSourceChannel "web" = .ok "web" := by decide +kernel

/-- A command without a receipt does what it does, and keeps one. -/
theorem Store.command_of_fresh {store acted : Store} {sur : Surroundings} {request : Request} {operation digest : String}
    {act : Except LogisticsError (Store × Uuid × Nat)} {objectId : Uuid} {version : Nat}
    (fresh : store.receipts.get? (request.actorId, operation, request.idempotencyKey) = none)
    (acts : act = .ok (acted, objectId, version)) (kept : acted.receipts = store.receipts) :
    ∃ receipts receipt result, store.command sur request operation digest act = .ok ({ acted with receipts }, result) ∧
      store.receipts.insert? receipt = some receipts ∧ receipt.idempotencyKey = request.idempotencyKey := by
  obtain ⟨receipts, inserted⟩ := (Table.exists_insert?_eq_some (t := store.receipts) (r := {
    id := sur.newId 0, organizationId := request.organizationId, operation, actorId := request.actorId,
    idempotencyKey := request.idempotencyKey, requestDigest := digest, resultingVersion := version,
    resultObjectId := objectId : LogisticsCommandReceipt })).mpr fresh
  refine ⟨receipts, _, ⟨objectId, sur.newId 0, version, false⟩, ?_, inserted, rfl⟩
  rw [← kept] at inserted
  simp only [Store.command, Store.existingReceipt, fresh, acts, ok_bind, Store.appendEvidence, inserted, getOr]
  rfl

/-- The digest of a new box. -/
def boxDigest (n : Nat) : String := canonicalDigest depotLibrary [
  ("capacity_note", .str ""), ("code", .str (boxCode n)), ("description", .str ""), ("edition_id", .null),
  ("external_owner_id", .null), ("kind", .str NodeKind.box.value), ("name", .str "Place"), ("provider_id", .null),
  ("reason", .str "Season setup"), ("storage_address_id", .null), ("vehicle_registration", .str ""),
  ("venue_space_selection_id", .null)]

theorem createBox_eq_ok {store : Store} {n : Nat} (fresh : store.catalog.nodes.get? (boxId n) = none)
    (unnamed : ∀ node ∈ store.catalog.nodes, node.code ≠ boxCode n)
    (unasked : store.receipts.get? (9, "node.create", Fin.ofNat _ n) = none) :
    ∃ nodes receipts receipt result, store.perform depotWorld depotLibrary (createBox n) =
        .ok ({ store with catalog := { store.catalog with nodes }, receipts }, result) ∧
      store.catalog.nodes.insert? (box n) = some nodes ∧ store.receipts.insert? receipt = some receipts ∧
      receipt.idempotencyKey = Fin.ofNat _ n := by
  obtain ⟨nodes, inserted⟩ := (Table.exists_insert?_eq_some (t := store.catalog.nodes) (r := box n)).mpr fresh
  have created : store.createLogisticsNode depotWorld depotLibrary (depotSurroundings n)
      (depotRequest (Fin.ofNat _ n)) (depotNode .box (boxCode n)) =
      store.command (depotSurroundings n) (depotRequest (Fin.ofNat _ n)) "node.create" (boxDigest n) (do
        requireOwnCode (store.catalog.nodes.rows.map fun node => (node.organizationId, node.code)) 1
          (boxCode n) "log_node_org_code_uq"
        let nodes ← getOr (.integrity "logistics_logisticsnode_pkey") (store.catalog.nodes.insert? (box n))
        return ({ store with catalog := { store.catalog with nodes } }, boxId n, 1)) := by
    obtain ⟨name, description, vehicle, capacity⟩ := box_texts
    simp only [Store.createLogisticsNode, depotNode, (box_code n).1, name, description, vehicle,
      capacity, depotRequest, depot_request, ok_bind]
    rfl
  have own : requireOwnCode (store.catalog.nodes.rows.map fun node =>
      (node.organizationId, node.code)) 1 (boxCode n) "log_node_org_code_uq" = .ok () := by
    rw [requireOwnCode, seq_eq_ok, require_eq_ok, require_eq_ok]
    refine ⟨(box_code n).2, fun taken => ?_⟩
    obtain ⟨node, hnode, same⟩ := List.mem_map.mp taken
    exact unnamed node hnode (Prod.ext_iff.mp same).2
  rw [own, inserted] at created
  have unasked' : store.receipts.get? ((depotRequest (Fin.ofNat _ n)).actorId, "node.create",
      (depotRequest (Fin.ofNat _ n)).idempotencyKey) = none := unasked
  obtain ⟨receipts, receipt, result, done, kept, key⟩ := @Store.command_of_fresh store
    { store with catalog := { store.catalog with nodes } } (depotSurroundings n)
      (depotRequest (Fin.ofNat _ n)) "node.create"
    (boxDigest n) _ (boxId n) 1 unasked' rfl rfl
  refine ⟨nodes, receipts, receipt, some result, ?_, inserted, kept, key⟩
  rw [createBox, depotOperation, Store.perform, Store.submit, created]
  exact congrArg (· >>= _) done

def boxMovement (i : Nat) : Movement where
  toMovementInput := boxReceipt i
  quantity_nonneg := nofun
  one_custodian := Movement.no_custodian
  condition_text := .inr (show btrim "good" ≠ "" by decide +kernel)

theorem normalizedMovement_boxReceipt (i : Nat) :
    normalizedMovement depotLibrary (boxReceipt i) = .ok (boxMovement i) := by
  have before : normalizedText depotLibrary "" "condition_before" 120 false true = .ok "" := by decide +kernel
  have after : normalizedText depotLibrary "good" "condition_after" 120 false true = .ok "good" := by decide +kernel
  have reference : normalizedText depotLibrary "" "evidence_reference" 1000 = .ok "" := by decide +kernel
  rw [normalizedMovement, dif_pos (show (boxReceipt i).toCustodianAccountId = none ∨ _ from .inl rfl),
    dif_pos (show ∀ q ∈ (boxReceipt i).quantity, _ from fun _ none => nomatch none)]
  simp only [boxReceipt, before, ok_bind]
  split
  · rename_i failed
    rw [after] at failed
    cases failed
  · rename_i condition made
    rw [after] at made
    cases made
    simp only [reference, ok_bind]
    rfl

def boxContext (n : Nat) : MovementContext := ⟨9, 1, 2, "Season setup", "web", boxId n, Fin.ofNat _ (1000 * n + 2)⟩

theorem recordMovement_discrepancies {world : World} {sur : Surroundings} {catalog : Catalog} {custody after : Custody}
    {record : RecordedMovement} (h : custody.recordMovement world sur catalog record = .ok after)
    (noted : record.discrepancy = none) : after.discrepancies = custody.discrepancies := by
  simp only [Custody.recordMovement, bind_eq_ok, getOr_eq_ok] at h
  obtain ⟨_, -, events, -, projected, written, explained, explanation, advanced⟩ := h
  rw [noted] at explanation
  cases explanation
  rw [(advanceControl_ok advanced).2.2.1, (writeState_ok written).2.2.1]

section

variable {store : Store} {n i : Nat} {l : List Uuid} (reached : Reached depotWorld depotLibrary store)
  (place : store.catalog.nodes.get? (boxId i) = some (box i))
  (found : store.catalog.nodes.get? (boxId (i + 1)) = some (box (i + 1)))
  (unplaced : store.custody.currentStates.get? ⟨.node, boxId (i + 1)⟩ = none)
  (lineage : Forest.Lineage store.custody.container? (some (boxId i)) l) (short : l.length < maxContainmentDepth)
  (outside : boxId (i + 1) ∉ l)

include reached place found unplaced lineage short outside

/-- A box that is nowhere can be received in another, whose containers are few. -/
theorem plannable_box : Plannable depotWorld (depotSurroundings n) store.catalog store.custody
    (boxContext n) (boxMovement i) 0 (.node (box (i + 1))) (some (box i)) none := by
  have current : store.custody.currentOf (boxMovement i) = none := unplaced
  have upheld := (reached_upheld reached).projected
  constructor
  case found => exact congrArg (Option.map TrackedSubject.node) found
  case arrival =>
    show store.catalog.routeNode 1 2 (some (boxId i)) = .ok (some (box i))
    rw [Catalog.routeNode, place]
    rfl
  case place => exact ⟨none, by rw [current]; rfl⟩
  case sequence => rw [current]; rfl
  case first => exact iff_of_true current rfl
  case acyclic =>
    intro node hn place' hp
    obtain rfl : box (i + 1) = node := Option.some.inj hn
    obtain rfl : box i = place' := Option.some.inj hp
    have exact_ : Forest.lineage store.custody.container? maxContainmentDepth (some (boxId i)) = l := by
      rw [lineage.lineage_eq, List.take_of_length_le (Nat.le_of_lt short)]
    refine ⟨fun same => outside ?_, Forest.ascend_iff.mpr ?_⟩
    · have first : boxId i ∈ l := by
        cases lineage
        exact List.mem_cons_self
      have same : boxId i = boxId (i + 1) := same
      rwa [← same]
    · rw [show (box i).id = boxId i from rfl, exact_]
      exact ⟨short, fun a ha => by rwa [List.mem_singleton.mp ha]⟩
  case unnumbered =>
    -- A subject without a projection has no events.
    have none_ := upheld.replay ⟨.node, boxId (i + 1)⟩
    rw [unplaced, eq_comm, replay_eq_none] at none_
    rintro event he ⟨subject, -⟩
    have listed : event ∈ store.custody.eventsOf ⟨.node, boxId (i + 1)⟩ :=
      List.mem_filter.mpr ⟨he, decide_eq_true subject⟩
    rw [none_] at listed
    cases listed
  case quantity => rfl
  case conditionFirst => exact fun _ => show "good" ≠ "" by decide
  case kinds =>
    intro node hn place' hp
    obtain rfl : box (i + 1) = node := Option.some.inj hn
    obtain rfl : box i = place' := Option.some.inj hp
    show NodeKind.box ∈ nodeParentKinds .box
    decide
  case source => exact ⟨none, rfl⟩
  case organization => rfl
  case available => rfl
  case origin => exact .inl rfl
  case moves => exact fun _ => by simp
  case stays => exact fun stays => by cases stays
  case handover => exact fun other => by cases other
  case returns => exact fun other => by cases other
  case account => rfl
  case party => exact fun _ none => by cases none
  case manifest => rfl
  case conditionBefore => exact .inl rfl
  case conditionDamage => exact fun other => by cases other
  case unevidenced => exact .inl rfl

/-- So it is received there. -/
theorem receiveBox_eq_ok (freshEvent : store.custody.events.get? (boxId n) = none)
    (freshDiscrepancy : store.custody.discrepancies.get? (Fin.ofNat _ (1000 * n + 2)) = none)
    (unasked : store.receipts.get? (9, "event.record", Fin.ofNat _ n) = none) :
    ∃ custody receipts receipt result record, store.perform depotWorld depotLibrary
        (receiveBox n i) = .ok ({ store with custody, receipts }, result) ∧
      Recorded store.custody custody record ∧ record.event.id = boxId n ∧ record.state.subject = ⟨.node, boxId (i + 1)⟩ ∧
      record.state.currentNodeId = some (boxId i) ∧ custody.discrepancies = store.custody.discrepancies ∧
      store.receipts.insert? receipt = some receipts ∧ receipt.idempotencyKey = Fin.ofNat _ n := by
  have plannable := plannable_box (n := n) reached place found unplaced lineage short outside
  have upheld := reached_upheld reached
  have edition : depotWorld.editionOrganization (boxContext n).editionId = some (boxContext n).organizationId := rfl
  obtain ⟨record, hrecord⟩ : ∃ record, record = plannedRecord store.custody (boxContext n)
    (boxMovement i) (.node (box (i + 1))) none := ⟨_, rfl⟩
  have planned := planMovement_eq_ok.mpr ⟨_, _, _, plannable, hrecord⟩
  obtain ⟨custody, recorded⟩ := plannable.recordMovement_succeeds upheld edition freshEvent
    freshDiscrepancy (fun _ none => nomatch none) (fun stays => nomatch stays)
  rw [← hrecord] at recorded
  have writes := recordMovement_ok recorded
  have noted : record.discrepancy = none := by
    rw [hrecord]
    rfl
  have committed : ({ store with custody } : Store).commit
      [record.event] record.discrepancy.toList = .ok () := by
    rw [noted]
    refine Store.commit_eq_ok.mpr ⟨fun event he => ?_, nofun⟩
    obtain rfl := List.mem_singleton.mp he
    rw [hrecord] at recorded ⊢
    exact ⟨plannable.requireEventControl upheld edition recorded,
      (plannable.requireEventProjection_iff upheld recorded).mpr fun offline =>
        absurd offline (show ¬ "web" = "offline" by decide)⟩
  have alone : store.appendAlone depotWorld (depotSurroundings n) (boxContext n) (boxMovement i) 0 =
      .ok ({ store with custody }, record.event.id, record.event.eventSequence) := by
    rw [Store.appendAlone, Store.appendMovementEvent, appendMovementEvent, planned]
    simp only [ok_bind, recorded]
    show (({ store with custody } : Store).commit [record.event] record.discrepancy.toList >>= fun _ =>
      pure ({ store with custody }, record.event.id, record.event.eventSequence)) = _
    rw [committed]
    rfl
  obtain ⟨digest, hdigest⟩ : ∃ digest, digest = canonicalDigest depotLibrary [
    ("edition_id", Json.uuid 2), ("expected_sequence", .int 0), ("movement", (boxMovement i).json),
    ("reason", .str "Season setup")] := ⟨_, rfl⟩
  have received : store.recordLogisticsEvent depotWorld depotLibrary (depotSurroundings n) (depotRequest (Fin.ofNat _ n))
      ⟨2, boxReceipt i, 0⟩ = store.command (depotSurroundings n) (depotRequest (Fin.ofNat _ n)) "event.record" digest
        (store.appendAlone depotWorld (depotSurroundings n) (boxContext n) (boxMovement i) 0) := by
    simp only [Store.recordLogisticsEvent, normalizedMovement_boxReceipt, depotRequest, depot_request, ok_bind, hdigest]
    rfl
  have unasked' : store.receipts.get? ((depotRequest (Fin.ofNat _ n)).actorId, "event.record",
      (depotRequest (Fin.ofNat _ n)).idempotencyKey) = none := unasked
  obtain ⟨receipts, receipt, result, done, kept, key⟩ := @Store.command_of_fresh store { store with custody }
    (depotSurroundings n) (depotRequest (Fin.ofNat _ n)) "event.record" digest _ _ _ unasked' alone rfl
  refine ⟨custody, receipts, receipt, some result, record, ?_, writes, ?_, ?_, ?_, ?_, kept, key⟩
  · rw [receiveBox, depotOperation, Store.perform, Store.submit, received]
    exact congrArg (· >>= _) done
  · rw [hrecord]
    rfl
  · rw [hrecord]
    rfl
  · rw [hrecord]
    rfl
  · exact recordMovement_discrepancies recorded noted

end

/-- The box that the `m`th receipt puts a box into: first the boxes up to 65 are piled, then those
from 66 on, and last the one pile is put on the other. -/
def yardLink (m : Nat) : Nat := if m < 64 then m + 1 else if m < 128 then m + 2 else 65

/-- Box `j + 1` is in box `j` after `m` receipts. -/
def Linked (m j : Nat) : Prop :=
  (1 ≤ j ∧ j ≤ 64 ∧ j ≤ m) ∨ (66 ≤ j ∧ j ≤ 129 ∧ j ≤ m + 1) ∨ (j = 65 ∧ 129 ≤ m)

theorem linked_succ {m j : Nat} (hm : m < 129) : Linked (m + 1) j ↔ Linked m j ∨ j = yardLink m := by
  unfold Linked yardLink
  split
  · omega
  · split <;> omega

theorem not_linked_yardLink {m : Nat} (hm : m < 129) : ¬ Linked m (yardLink m) := by
  unfold Linked yardLink
  split
  · omega
  · split <;> omega

theorem ofNat_inj {a b : Nat} (ha : a < 2 ^ 128) (hb : b < 2 ^ 128)
    (h : (Fin.ofNat _ a : Uuid) = Fin.ofNat _ b) : a = b := by
  have same : a % 2 ^ 128 = b % 2 ^ 128 := congrArg Fin.val h
  rwa [Nat.mod_eq_of_lt ha, Nat.mod_eq_of_lt hb] at same

theorem boxId_inj {a b : Nat} (ha : a ≤ 1000) (hb : b ≤ 1000) (h : boxId a = boxId b) : a = b := by
  have same := ofNat_inj (by omega) (by omega) h
  omega

/-- The boxes from `a + k` down to `a`. -/
def pile (a : Nat) : Nat → List Uuid
  | 0 => [boxId a]
  | k + 1 => boxId (a + k + 1) :: pile a k

theorem length_pile (a k : Nat) : (pile a k).length = k + 1 := by
  induction k with
  | zero => rfl
  | succ k ih => rw [pile, List.length_cons, ih]

theorem mem_pile {a k : Nat} {id : Uuid} (h : id ∈ pile a k) : ∃ j ≤ a + k, id = boxId j := by
  induction k with
  | zero => exact ⟨a, Nat.le_refl _, List.mem_singleton.mp h⟩
  | succ k ih =>
    rcases List.mem_cons.mp h with rfl | h
    · exact ⟨a + k + 1, Nat.le_refl _, rfl⟩
    · obtain ⟨j, hj, rfl⟩ := ih h
      exact ⟨j, by omega, rfl⟩

/-- The keys of the receipts are below `n`. -/
def Store.Used (n : Nat) (store : Store) : Prop :=
  ∀ receipt ∈ store.receipts, ∃ j < n, receipt.idempotencyKey = Fin.ofNat _ j

theorem Store.Used.unasked {store : Store} {n : Nat} (h : store.Used n) (small : n ≤ 1000)
    (operation : String) : store.receipts.get? (9, operation, Fin.ofNat _ n) = none := by
  rw [Table.get?_eq_none]
  intro receipt hr key
  obtain ⟨j, below, same⟩ := h receipt hr
  have keys : receipt.idempotencyKey = Fin.ofNat _ n := congrArg (·.2.2) key
  have := ofNat_inj (by omega) (by omega) (same.symm.trans keys)
  omega

theorem Store.Used.insert {store after : Store} {n : Nat} {receipt : LogisticsCommandReceipt} (h : store.Used n)
    (inserted : store.receipts.insert? receipt = some after.receipts) (key : receipt.idempotencyKey = Fin.ofNat _ n) :
    after.Used (n + 1) := by
  intro other ho
  rcases (Table.mem_insert? inserted).mp ho with ho | rfl
  · obtain ⟨j, below, same⟩ := h other ho
    exact ⟨j, by omega, same⟩
  · exact ⟨n, by omega, key⟩

/-- The yard after `k` boxes were created. -/
structure Created (k : Nat) (store : Store) : Prop where
  reached : Reached depotWorld depotLibrary store
  custody : store.custody = .empty
  nodes : store.catalog.nodes.rows = (List.range k).map fun n => box (n + 1)
  used : store.Used (k + 1)

theorem run_created (k : Nat) (hk : k ≤ 130) :
    Created k ((logistics depotWorld depotLibrary).run .empty ((List.range k).map fun n => createBox (n + 1))) := by
  induction k with
  | zero => exact ⟨.refl, rfl, rfl, fun _ h => absurd h Table.not_mem_empty⟩
  | succ k ih =>
    obtain ⟨reached, custody, nodes, used⟩ := ih (by omega)
    rw [List.range_succ, List.map_append, Machine.run_append, List.map_singleton, Machine.run_cons, Machine.run_nil]
    generalize (logistics depotWorld depotLibrary).run .empty ((List.range k).map fun n =>
      createBox (n + 1)) = store at *
    have fresh : store.catalog.nodes.get? (boxId (k + 1)) = none := by
      rw [Table.get?_eq_none]
      intro node hn same
      rw [Table.mem_def, nodes] at hn
      obtain ⟨j, hj, rfl⟩ := List.mem_map.mp hn
      have := boxId_inj (by have := List.mem_range.mp hj; omega) (by omega) same
      have := List.mem_range.mp hj
      omega
    have unnamed : ∀ node ∈ store.catalog.nodes, node.code ≠ boxCode (k + 1) := by
      intro node hn same
      have id : node.id = boxId (k + 1) := by
        rw [Table.mem_def, nodes] at hn
        obtain ⟨j, -, rfl⟩ := List.mem_map.mp hn
        exact Uuid.hex_injective same
      exact Table.get?_eq_none.mp fresh node hn id
    obtain ⟨catalogNodes, receipts, receipt, result, ok, inserted, kept, key⟩ :=
      createBox_eq_ok fresh unnamed (used.unasked (by omega) "node.create")
    rw [@Machine.step_of_ok _ _ _ _ (logistics depotWorld depotLibrary) store _ (createBox (k + 1)) _ ok]
    refine ⟨reached.tail (.performed _ _ ok), custody, ?_, used.insert kept key⟩
    rw [show ({ store.catalog with nodes := catalogNodes } : Catalog).nodes = catalogNodes from rfl,
      (Table.insert?_eq_some.mp inserted).2, nodes, List.range_succ, List.map_append, List.map_singleton]

/-- The yard after `m` receipts. -/
structure Stacked (m : Nat) (store : Store) : Prop where
  reached : Reached depotWorld depotLibrary store
  nodes : ∀ n, 1 ≤ n → n ≤ 130 → store.catalog.nodes.get? (boxId n) = some (box n)
  linked : ∀ j ≤ 129, Linked m j → ∃ state, store.custody.currentStates.get?
    ⟨.node, boxId (j + 1)⟩ = some state ∧ state.currentNodeId = some (boxId j)
  free : ∀ j ≤ 129, ¬ Linked m j → store.custody.currentStates.get? ⟨.node, boxId (j + 1)⟩ = none
  events : ∀ event ∈ store.custody.events, ∃ j < 131 + m, event.id = boxId j
  discrepancies : store.custody.discrepancies.rows = []
  used : store.Used (131 + m)

theorem Created.stacked {store : Store} (h : Created 130 store) : Stacked 0 store := by
  obtain ⟨reached, custody, nodes, used⟩ := h
  refine ⟨reached, fun n positive small => Table.get?_eq_some.mpr ⟨?_, rfl⟩, fun j hj linked => ?_,
    fun j _ _ => ?_, fun event he => ?_, ?_, used⟩
  · rw [Table.mem_def, nodes]
    exact List.mem_map.mpr ⟨n - 1, List.mem_range.mpr (by omega), by rw [Nat.sub_add_cancel positive]⟩
  · unfold Linked at linked
    omega
  · rw [custody]
    rfl
  · rw [custody] at he
    exact absurd he Table.not_mem_empty
  · rw [custody]
    rfl

/-- Boxes that are linked are a pile. -/
theorem Stacked.lineage {store : Store} {m : Nat} (h : Stacked m store) {a : Nat} (positive : 1 ≤ a)
    (ground : ¬ Linked m (a - 1)) (k : Nat) (small : a + k ≤ 130) (links : ∀ j, a ≤ j → j < a + k → Linked m j) :
    Forest.Lineage store.custody.container? (some (boxId (a + k))) (pile a k) := by
  induction k with
  | zero =>
    refine .step ?_
    have nowhere := h.free (a - 1) (by omega) ground
    rw [Nat.sub_add_cancel positive] at nowhere
    have root : store.custody.container? (boxId a) = none := by
      rw [Custody.container?, nowhere]
      rfl
    rw [Nat.add_zero, root]
    exact .root
  | succ k ih =>
    refine .step ?_
    obtain ⟨state, found, place⟩ := h.linked (a + k) (by omega) (links (a + k) (by omega) (by omega))
    have inside : store.custody.container? (boxId (a + k + 1)) = some (boxId (a + k)) := by
      rw [Custody.container?, found]
      exact place
    rw [← Nat.add_assoc, inside]
    exact ih (by omega) fun j low high => links j low (by omega)

theorem Stacked.receive {store : Store} {m : Nat} (h : Stacked m store) (hm : m < 129) :
    Stacked (m + 1) ((logistics depotWorld depotLibrary).step store (receiveBox (131 + m) (yardLink m))) := by
  obtain ⟨i, hi⟩ : ∃ i, i = yardLink m := ⟨_, rfl⟩
  have range : 1 ≤ i ∧ i ≤ 129 := by
    rw [hi]
    unfold yardLink
    split
    · omega
    · split <;> omega
  have free : ¬ Linked m i := hi ▸ not_linked_yardLink hm
  -- The pile that the box is put on.
  obtain ⟨a, k, same, positive, low, ground, links⟩ : ∃ a k, i = a + k ∧ 1 ≤ a ∧ k ≤ 64 ∧
      ¬ Linked m (a - 1) ∧ ∀ j, a ≤ j → j < a + k → Linked m j := by
    rw [hi]
    unfold yardLink
    split
    · exact ⟨1, m, by omega, by omega, by omega, by unfold Linked; omega, fun j _ _ => by unfold Linked; omega⟩
    · split
      · exact ⟨66, m - 64, by omega, by omega, by omega, by unfold Linked; omega, fun j _ _ => by unfold Linked; omega⟩
      · exact ⟨1, 64, by omega, by omega, by omega, by unfold Linked; omega, fun j _ _ => by unfold Linked; omega⟩
  have lineage : Forest.Lineage store.custody.container? (some (boxId i)) (pile a k) := by
    rw [same]
    exact h.lineage positive ground k (by omega) links
  have outside : boxId (i + 1) ∉ pile a k := by
    intro mem
    obtain ⟨j, hj, e⟩ := mem_pile mem
    have := boxId_inj (by omega) (by omega) e
    omega
  have freshEvent : store.custody.events.get? (boxId (131 + m)) = none := by
    rw [Table.get?_eq_none]
    intro event he e
    obtain ⟨j, hj, id⟩ := h.events event he
    have := boxId_inj (by omega) (by omega) (id.symm.trans e)
    omega
  have freshDiscrepancy : store.custody.discrepancies.get? (Fin.ofNat _ (1000 * (131 + m) + 2)) = none := by
    rw [Table.get?_eq_none]
    intro discrepancy hd
    rw [Table.mem_def, h.discrepancies] at hd
    cases hd
  obtain ⟨custody, receipts, receipt, result, record, ok, writes, event, subject, place, discrepancies, kept, key⟩ :=
    receiveBox_eq_ok h.reached (h.nodes i range.1 (by omega))
      (h.nodes (i + 1) (by omega) (by omega)) (h.free i range.2 free)
      lineage (by rw [length_pile]; show k + 1 < 128; omega) outside freshEvent freshDiscrepancy
      (h.used.unasked (by omega) "event.record")
  rw [← hi, @Machine.step_of_ok _ _ _ _ (logistics depotWorld depotLibrary) store _ (receiveBox (131 + m) i) _ ok]
  have states (j : Nat) (hj : j ≤ 129) (other : j ≠ i) :
      custody.currentStates.get? ⟨.node, boxId (j + 1)⟩ = store.custody.currentStates.get? ⟨.node, boxId (j + 1)⟩ := by
    rw [writes.states, subject, if_neg]
    intro e
    have := boxId_inj (by omega) (by omega) (congrArg SubjectLocator.objectId e)
    omega
  refine ⟨h.reached.tail (.performed _ _ ok), h.nodes, fun j hj linked => ?_,
    fun j hj unlinked => ?_, fun e he => ?_, ?_, ?_⟩
  · by_cases last : j = i
    · subst last
      exact ⟨record.state, by rw [writes.states, subject, if_pos rfl], place⟩
    · rw [states j hj last]
      rw [linked_succ hm, ← hi] at linked
      exact h.linked j hj (linked.resolve_right last)
  · rw [linked_succ hm, ← hi, not_or] at unlinked
    rw [states j hj unlinked.2]
    exact h.free j hj unlinked.1
  · rcases (Table.mem_insert? writes.events).mp he with he | rfl
    · obtain ⟨j, below, id⟩ := h.events e he
      exact ⟨j, by omega, id⟩
    · exact ⟨131 + m, by omega, event⟩
  · show custody.discrepancies.rows = []
    rw [discrepancies]
    exact h.discrepancies
  · exact h.used.insert kept key

def yardBoxes : List Operation := (List.range 130).map fun n => createBox (n + 1)

def yardReceipts (m : Nat) : List Operation := (List.range m).map fun m => receiveBox (131 + m) (yardLink m)

theorem run_stacked (m : Nat) (hm : m ≤ 129) :
    Stacked m ((logistics depotWorld depotLibrary).run .empty (yardBoxes ++ yardReceipts m)) := by
  induction m with
  | zero =>
    rw [yardReceipts, List.range_zero, List.map_nil, List.append_nil]
    exact (run_created 130 (Nat.le_refl _)).stacked
  | succ m ih =>
    rw [yardReceipts, List.range_succ, List.map_append, ← List.append_assoc, Machine.run_append,
      List.map_singleton, Machine.run_cons, Machine.run_nil]
    exact (ih (by omega)).receive (by omega)

/-- One pile of boxes can be put on another, and the lowest box is then not found from the
highest, which is in it. -/
theorem stacked_unwalkable : Reached depotWorld depotLibrary
      ((logistics depotWorld depotLibrary).run .empty (yardBoxes ++ yardReceipts 129)) ∧
    ∃ state, ((logistics depotWorld depotLibrary).run .empty (yardBoxes ++ yardReceipts 129)).custody.currentStates.get?
        ⟨.node, boxId 130⟩ = some state ∧
      ((logistics depotWorld depotLibrary).run .empty (yardBoxes ++ yardReceipts 129)).custody.stateWithinNode state
        (boxId 1) = false ∧
      Relation.TransGen ((logistics depotWorld depotLibrary).run .empty (yardBoxes ++ yardReceipts 129)).custody.isIn
        ⟨.node, boxId 130⟩ ⟨.node, boxId 1⟩ ∧
      Forest.Lineage ((logistics depotWorld depotLibrary).run .empty (yardBoxes ++ yardReceipts 129)).custody.container?
        state.currentNodeId (pile 1 128) := by
  have stacked := run_stacked 129 (Nat.le_refl _)
  generalize (logistics depotWorld depotLibrary).run .empty (yardBoxes ++ yardReceipts 129) = store at stacked ⊢
  have ground : ¬ Linked 129 (1 - 1) := by
    unfold Linked
    omega
  have lineage := stacked.lineage (Nat.le_refl 1) ground 128 (by omega) fun j low high => by
    unfold Linked
    omega
  obtain ⟨state, found, place⟩ := stacked.linked 129 (Nat.le_refl _) (by unfold Linked; omega)
  rw [← place] at lineage
  refine ⟨stacked.reached, state, found, ?_, (containing_iff found).mp ?_, lineage⟩
  · rw [← Bool.not_eq_true, Custody.stateWithinNode, reaches_iff lineage fun _ mem => absurd mem List.not_mem_nil]
    decide +kernel
  · rw [containing_iff_mem lineage]
    decide +kernel

end Maru.Logistics

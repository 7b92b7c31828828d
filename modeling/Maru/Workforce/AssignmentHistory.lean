import Maru.Framework.EventLog
import Maru.Workforce.ReportingLine

/-!
# The history of an assignment

Every accepted assignment command writes one receipt. What such a command does is said
once (`exec_step`): it changes nothing, it saves one position, it creates a proposal, or
it decides or ends one assignment. The receipts of an assignment are then an
event log: each fits what the ones before it led to, and the assignment is what they all
lead to (`Documented`). A retry key that has a receipt is answered from it.
-/

namespace Maru.Workforce.Staffing

open Table

/-! ## What a command does -/

/-- The proposal of an account for a position. -/
def Position.proposal (p : Position) (r : Request) (accountId : Uuid) (effectiveFrom : Int)
    (expiresAt : Option Int) (reason : String) : PositionAssignment :=
  { id := r.newId, positionId := p.id, organizationId := p.organizationId, editionId := p.editionId, accountId,
    status := .proposed, effectiveFrom, expiresAt, proposedBy := r.actorId, approvedBy := none, reason,
    commandVersion := some 1, decisionBy := none, decisionAt := none, decisionReason := "", roleAssignmentId := none,
    endedAt := none, endedBy := none, endReason := "" }

def PositionAssignment.approved (a : PositionAssignment) (version : Nat) (actorId : Uuid)
    (now : Int) (reason : String) (roleAssignmentId : Uuid) : PositionAssignment :=
  { a with
    status := .active, approvedBy := some actorId, decisionBy := some actorId, decisionAt := some now,
    decisionReason := reason, commandVersion := some version, roleAssignmentId := some roleAssignmentId }

/-- The receipt of a change of the assignment. -/
def PositionAssignment.receipt (a : PositionAssignment) (r : Request) (action : AssignmentAction)
    (version : Nat) (reason digest : String) : AssignmentReceipt :=
  { id := r.receiptId, assignmentId := a.id, organizationId := a.organizationId, editionId := a.editionId,
    positionId := a.positionId, actorId := r.actorId, action, resultingVersion := version, reason,
    retryKey := r.retryKey, requestDigest := digest, sourceChannel := r.sourceChannel }

/-- An assignment before and after it is decided or ended, at a version, by
whoever issues the request. -/
inductive Decides (s : StaffingTables) (r : Request) (p : Position) (a : PositionAssignment)
    (version : Nat) (reason : String) : AssignmentAction → PositionAssignment → Prop
  | approved (now : Int) (roleAssignmentId : Uuid) (was : a.status = .proposed) (independent : a.proposedBy ≠ r.actorId)
      (room : s.activeCount p.id < p.headcount) (opened : p.status ≠ .closed) :
      Decides s r p a version reason .approved (a.approved version r.actorId now reason roleAssignmentId)
  | rejected (now : Int) (was : a.status = .proposed) (independent : a.proposedBy ≠ r.actorId) :
      Decides s r p a version reason .rejected (a.rejected version r.actorId now reason)
  | ended (now : Int) (was : a.status = .active) :
      Decides s r p a version reason .ended (a.ended version r.actorId now reason)

/-- The positions, but for the status of one, which is not closed by it. -/
def Restates (s s' : StaffingTables) (p : Position) : Prop :=
  s'.positions = s.positions ∨ ∃ status, status ≠ .closed ∧ s'.positions = s.positions.save { p with status }

/-- A receipt that is inserted under a retry key of its own. -/
structure Received (s s' : StaffingTables) (receipt : AssignmentReceipt) : Prop where
  inserted : s.receipts.insert? receipt = some s'.receipts
  fresh : ∀ x ∈ s.receipts, x.editionId = receipt.editionId → x.actorId = receipt.actorId → x.retryKey ≠ receipt.retryKey

/-- The open assignments that a command on a position sees: those of its own edition. -/
def StaffingTables.ownOpenAssignments (s : StaffingTables) (p : Position) : List PositionAssignment :=
  (s.openAssignments p.id).filter fun a => a.organizationId = p.organizationId ∧ a.editionId = p.editionId

/-- A position `p` that is not closed is saved as `q`, which is still its number and still where it
was, with room for its open assignments, or closed without any. -/
structure PositionStep (s s' : StaffingTables) (p q : Position) : Prop where
  assignments : s'.assignments = s.assignments
  receipts : s'.receipts = s.receipts
  mem : p ∈ s.positions
  opened : p.status ≠ .closed
  saved : s'.positions = s.positions.save q
  id : q.id = p.id
  organization : q.organizationId = p.organizationId
  edition : q.editionId = p.editionId
  change : q.status = p.status ∧ (s.ownOpenAssignments p).length ≤ q.headcount ∨
    q.status = .closed ∧ s.ownOpenAssignments p = []

/-- What an accepted command does. -/
inductive AssignmentStep (s s' : StaffingTables) (r : Request) : Prop
  | unchanged (same : s' = s)
  | saved (p q : Position) (step : PositionStep s s' p q) (lines : Relined s p q)
  | proposed (p : Position) (hp : p ∈ s.positions) (opened : p.status ≠ .closed) (accountId : Uuid)
      (effectiveFrom : Int) (expiresAt : Option Int) (reason digest : String)
      (room : (s.openAssignments p.id).length < p.headcount)
      (alone : ∀ a ∈ s.openAssignments p.id, a.accountId ≠ accountId)
      (inserted : s.assignments.insert? (p.proposal r accountId effectiveFrom expiresAt reason) = some s'.assignments)
      (positions : s'.positions = s.positions)
      (received : Received s s' ((p.proposal r accountId effectiveFrom expiresAt reason).receipt
        r .proposed 1 reason digest))
  | decided (p : Position) (hp : p ∈ s.positions) (a a' : PositionAssignment) (ha : a ∈ s.assignments)
      (at_ : p.id = a.positionId) (action : AssignmentAction) (version : Nat) (reason digest : String)
      (current : a.commandVersion = some version) (decides : Decides s r p a (version + 1) reason action a')
      (saved : s'.assignments = s.assignments.save a') (positions : Restates s s' p)
      (received : Received s s' (a'.receipt r action (version + 1) reason digest))

section

variable {lib : Library} {s s' : StaffingTables} {w : Surroundings} {r : Request} {scope : AssignmentScope}

theorem createReceipt_received {a : PositionAssignment} {action : AssignmentAction} {version : Nat}
    {reason digest : String} {result : AssignmentResult}
    (h : createReceipt s r a action version reason digest = .ok (s', result)) :
    Received s s' (a.receipt r action version reason digest) := by
  simp only [createReceipt, bind_eq_ok, pure_eq_ok, Prod.mk.injEq, require_eq_ok, getOr_eq_ok] at h
  obtain ⟨_, -, _, unused, receipts, inserted, rfl, -⟩ := h
  refine ⟨inserted, fun x hx edition actor key => unused ?_⟩
  exact List.any_eq_true.mpr ⟨x, hx, decide_eq_true ⟨edition, actor, key⟩⟩

theorem lockPosition_scope {positionId : Uuid} {p : Position}
    (h : lockPosition s w scope positionId = .ok p) : p ∈ s.positions ∧ p.id = positionId ∧
      p.organizationId = scope.edition.organizationId ∧ p.editionId = scope.edition.id := by
  simp only [lockPosition, bind_eq_ok, pure_eq_ok, getOr_eq_ok, require_eq_ok] at h
  obtain ⟨_, found, _, ⟨organization, edition⟩, _, -, rfl⟩ := h
  exact ⟨(get?_eq_some.mp found).1, (get?_eq_some.mp found).2, organization, edition⟩

theorem propose_step {positionId accountId : Uuid} {effectiveFrom : Int} {expiresAt : Option Int}
    {reason : String} {result : AssignmentResult}
    (h : proposePositionAssignment lib s w r positionId accountId effectiveFrom expiresAt reason = .ok (s', result)) :
    AssignmentStep s s' r := by
  simp only [proposePositionAssignment, bind_eq_ok] at h
  obtain ⟨reason, -, _, -, _, -, _, -, scope, -, _, -, h⟩ := h
  split at h
  · obtain rfl := store_of_answer h
    exact .unchanged rfl
  · simp only [bind_eq_ok, getOr_eq_ok, require_eq_ok] at h
    obtain ⟨p, locked, _, opened, _, -, _, listed, _, room, _, alone, _, -, _, -, _, -,
      assignments, inserted, recorded⟩ := h
    obtain ⟨hp, -, organization, edition⟩ := lockPosition_scope locked
    simp only [lockedOpenAssignments, bind_eq_ok, pure_eq_ok] at listed
    obtain ⟨_, -, rfl⟩ := listed
    obtain ⟨positions, same⟩ := createReceipt_eq_ok recorded
    have received := createReceipt_received recorded
    rw [← organization, ← edition] at inserted received
    refine .proposed p hp opened accountId effectiveFrom expiresAt reason _ room
      (fun a ha other => alone ?_) ?_ positions ⟨received.inserted, received.fresh⟩
    · exact List.any_eq_true.mpr ⟨a, ha, decide_eq_true other⟩
    · rw [same]
      exact inserted

theorem lockAssignmentForDecision_found {assignmentId : Uuid} {a : PositionAssignment}
    {p : Position} (h : lockAssignmentForDecision s w scope assignmentId = .ok (a, p)) :
    s.assignments.get? a.id = some a ∧ p ∈ s.positions ∧ p.id = a.positionId := by
  obtain ⟨ha, hp, at_⟩ := lockAssignmentForDecision_eq_ok h
  exact ⟨get?_eq_some.mpr ⟨ha, rfl⟩, hp, at_⟩

/-- An activation of the proposal that is stored. -/
theorem activatePositionAssignment_decides {edition : Edition} {p : Position} {a activated : PositionAssignment}
    {version : Nat} {reason : String} (ha : s.assignments.get? a.id = some a) (hp : p ∈ s.positions)
    (independent : a.proposedBy ≠ r.actorId) (h : activatePositionAssignment s w edition p.id a a.proposedBy r.actorId
      a.effectiveFrom a.expiresAt reason version = .ok (s', activated)) :
    Decides s r p a version reason .approved activated ∧ s'.assignments =
      s.assignments.save activated ∧ Restates s s' p ∧ s'.receipts = s.receipts := by
  have position : s.positions.get? p.id = some p := get?_eq_some.mpr ⟨hp, rfl⟩
  simp only [activatePositionAssignment, bind_eq_ok, pure_eq_ok, getOr_eq_ok, require_eq_ok,
    Prod.mk.injEq, ha, position, Option.some.injEq, mapError_eq_ok] at h
  obtain ⟨_, -, _, rfl, _, -, _, -, _, -, _, opened, _, room, _, rfl, _, ⟨-, -, -, -, was⟩, _, -, _, -, role, -, rfl,
    rfl⟩ := h
  refine ⟨.approved w.now role was independent room opened, rfl, .inr ⟨_, ?_, rfl⟩, rfl⟩
  unfold staffedStatus
  split <;> simp

theorem approve_step {assignmentId : Uuid} {expectedVersion : Nat} {reason : String} {result : AssignmentResult}
    (h : approvePositionAssignment lib s w r assignmentId expectedVersion reason = .ok (s', result)) :
    AssignmentStep s s' r := by
  simp only [approvePositionAssignment, bind_eq_ok] at h
  obtain ⟨_, -, reason, -, _, -, _, -, scope, -, _, -, h⟩ := h
  split at h
  · obtain rfl := store_of_answer h
    exact .unchanged rfl
  · simp only [bind_eq_ok, mapError_eq_ok, require_eq_ok] at h
    obtain ⟨⟨a, p⟩, locked, _, current, _, -, _, independent, _, -, _, -, ⟨s₁, activated⟩, activation, recorded⟩ := h
    dsimp only at current independent activation recorded
    obtain ⟨ha, hp, at_⟩ := lockAssignmentForDecision_found locked
    obtain ⟨decides, saved, restates, receipts⟩ := activatePositionAssignment_decides ha hp independent activation
    obtain ⟨positions, assignments⟩ := createReceipt_eq_ok recorded
    obtain ⟨inserted, fresh⟩ := createReceipt_received recorded
    rw [receipts] at inserted fresh
    refine .decided p hp a activated (get?_eq_some.mp ha).1 at_ .approved expectedVersion reason
      _ current decides (assignments.trans saved) ?_ ⟨inserted, fresh⟩
    unfold Restates
    rwa [positions]

theorem reject_step {assignmentId : Uuid} {expectedVersion : Nat} {reason : String} {result : AssignmentResult}
    (h : rejectPositionAssignment lib s w r assignmentId expectedVersion reason = .ok (s', result)) :
    AssignmentStep s s' r := by
  simp only [rejectPositionAssignment, bind_eq_ok] at h
  obtain ⟨_, -, reason, -, _, -, _, -, scope, -, _, -, h⟩ := h
  split at h
  · obtain rfl := store_of_answer h
    exact .unchanged rfl
  · simp only [bind_eq_ok, require_eq_ok] at h
    obtain ⟨⟨a, p⟩, locked, _, current, _, was, _, independent, recorded⟩ := h
    dsimp only at current was independent recorded
    obtain ⟨ha, hp, at_⟩ := lockAssignmentForDecision_eq_ok locked
    obtain ⟨positions, assignments⟩ := createReceipt_eq_ok recorded
    obtain ⟨inserted, fresh⟩ := createReceipt_received recorded
    exact .decided p hp a _ ha at_ .rejected expectedVersion reason _ current
      (.rejected w.now was independent) assignments (.inl positions) ⟨inserted, fresh⟩

theorem refreshStatus_restates (s : StaffingTables) (p : Position) :
    Restates s (refreshStatus s p) p ∧ (refreshStatus s p).receipts = s.receipts := by
  unfold refreshStatus
  dsimp only
  split
  · refine ⟨.inr ⟨_, ?_, rfl⟩, rfl⟩
    unfold staffedStatus
    split <;> simp
  · exact ⟨.inl rfl, rfl⟩

theorem end_step {assignmentId : Uuid} {expectedVersion : Nat} {reason : String} {result : AssignmentResult}
    (h : endPositionAssignment lib s w r assignmentId expectedVersion reason = .ok (s', result)) :
    AssignmentStep s s' r := by
  simp only [endPositionAssignment, bind_eq_ok] at h
  obtain ⟨_, -, reason, -, _, -, _, -, scope, -, _, -, h⟩ := h
  split at h
  · obtain rfl := store_of_answer h
    exact .unchanged rfl
  · simp only [bind_eq_ok, require_eq_ok, getOr_eq_ok] at h
    obtain ⟨⟨a, p⟩, locked, _, current, _, was, role, -, _, -, recorded⟩ := h
    dsimp only at current was recorded
    obtain ⟨ha, hp, at_⟩ := lockAssignmentForDecision_eq_ok locked
    obtain ⟨positions, assignments⟩ := createReceipt_eq_ok recorded
    obtain ⟨inserted, fresh⟩ := createReceipt_received recorded
    obtain ⟨restates, receipts⟩ := refreshStatus_restates
      { s with assignments := s.assignments.save (a.ended (expectedVersion + 1) r.actorId w.now reason) } p
    rw [refreshStatus_assignments] at assignments
    rw [receipts] at inserted fresh
    refine .decided p hp a _ ha at_ .ended expectedVersion reason _ current
      (.ended w.now was) assignments ?_ ⟨inserted, fresh⟩
    unfold Restates at restates ⊢
    rwa [positions]

theorem newOrAdvancedControl_receipts {scope : StructureScope} {version : Nat}
    (h : newOrAdvancedControl s scope r version = .ok s') : s'.receipts = s.receipts := by
  unfold newOrAdvancedControl at h
  split at h
  · simp only [bind_eq_ok, pure_eq_ok] at h
    obtain ⟨_, -, rfl⟩ := h
    rfl
  · cases h
    rfl

theorem update_step {positionId : Uuid} {reportsToId : Option Uuid} {title description : String}
    {headcount : Int} {expectedVersion : Nat} {reason : String} {result : PositionResult}
    (h : updatePosition lib s w r positionId reportsToId title description headcount expectedVersion reason =
      .ok (s', result)) :
    AssignmentStep s s' r := by
  simp only [updatePosition, bind_eq_ok, require_eq_ok] at h
  obtain ⟨title, -, description, -, n, -, _, -, _, -, _, -, scope, locked, _, -, version, -, p,
    found, _, opened, _, superior, _, enough, h⟩ := h
  have mem := (positionById_eq_ok found).1
  obtain ⟨hp, organization, edition⟩ := (lockScope_mem locked).mp mem
  split at h
  · obtain rfl := store_of_answer h
    exact .unchanged rfl
  · simp only [bind_eq_ok, pure_eq_ok, Prod.mk.injEq] at h
    obtain ⟨_, walked, s₁, control, rfl, -⟩ := h
    obtain ⟨positions, assignments⟩ := newOrAdvancedControl_eq_ok control
    have receipts := newOrAdvancedControl_receipts control
    rw [← organization, ← edition] at enough
    refine .saved p { p with
      title, description, headcount := n, reportsToId, lastChangedInStructureVersion := some (version + 1) }
      ⟨assignments, receipts, hp, opened, ?_, rfl, rfl, rfl, .inl ⟨rfl, enough⟩⟩
      (.moved rfl (fun id => reportingPosition_eq_ok locked superior) (validate_lines locked mem walked))
    dsimp only
    rw [positions]

theorem close_step {positionId : Uuid} {expectedVersion : Nat} {confirmationName reason : String}
    {result : PositionResult}
    (h : closePosition lib s w r positionId expectedVersion confirmationName reason = .ok (s', result)) :
    AssignmentStep s s' r := by
  simp only [closePosition, bind_eq_ok, pure_eq_ok, Prod.mk.injEq, require_eq_ok] at h
  obtain ⟨_, -, _, -, _, -, scope, locked, _, -, version, -, p, found, _, opened, _, -, _, -,
    _, free, s₁, control, rfl, -⟩ := h
  have mem := (positionById_eq_ok found).1
  obtain ⟨hp, organization, edition⟩ := (lockScope_mem locked).mp mem
  obtain ⟨positions, assignments⟩ := newOrAdvancedControl_eq_ok control
  have receipts := newOrAdvancedControl_receipts control
  rw [← organization, ← edition] at free
  refine .saved p { p with
    status := .closed, closedAt := some scope.evaluatedAt, closedBy := some r.actorId,
    lastChangedInStructureVersion := some (version + 1) }
    ⟨assignments, receipts, hp, opened, ?_, rfl, rfl, rfl, .inr ⟨rfl, ?_⟩⟩
    (.closed rfl rfl (free_of_closing locked mem ?_))
  · dsimp only
    rw [positions]
  · by_contra taken
    exact free (.inl taken)
  · by_contra taken
    exact free (.inr (.inl (Bool.not_eq_false _ ▸ taken)))

/-- What one accepted command does. -/
theorem exec_step {call : StaffingCall} {result : StaffingResult}
    (h : execStaffing lib s call = .ok (s', result)) : AssignmentStep s s' call.request := by
  obtain ⟨w, r, command⟩ := call
  cases command with
  | propose positionId accountId effectiveFrom expiresAt reason =>
    obtain ⟨⟨_, _⟩, ok, e⟩ := map_eq_ok.mp h
    cases e
    exact propose_step ok
  | approve assignmentId expectedVersion reason =>
    obtain ⟨⟨_, _⟩, ok, e⟩ := map_eq_ok.mp h
    cases e
    exact approve_step ok
  | reject assignmentId expectedVersion reason =>
    obtain ⟨⟨_, _⟩, ok, e⟩ := map_eq_ok.mp h
    cases e
    exact reject_step ok
  | finish assignmentId expectedVersion reason =>
    obtain ⟨⟨_, _⟩, ok, e⟩ := map_eq_ok.mp h
    cases e
    exact end_step ok
  | update positionId reportsToId title description headcount expectedVersion reason =>
    obtain ⟨⟨_, _⟩, ok, e⟩ := map_eq_ok.mp h
    cases e
    exact update_step ok
  | close positionId expectedVersion confirmationName reason =>
    obtain ⟨⟨_, _⟩, ok, e⟩ := map_eq_ok.mp h
    cases e
    exact close_step ok

end

/-! ## Receipts as a log -/

/-- What the receipts of an assignment say of it. -/
structure AssignmentSummary where
  version : Nat
  status : AssignmentStatus
  proposedBy : Uuid
  reason : String
  decisionBy : Option Uuid
  decisionReason : String
  endedBy : Option Uuid
  endReason : String

namespace AssignmentSummary

def advance : Option AssignmentSummary → AssignmentReceipt → AssignmentSummary
  | none, r => ⟨r.resultingVersion, .proposed, r.actorId, r.reason, none, "", none, ""⟩
  | some x, r =>
    match r.action with
    | .proposed => { x with version := r.resultingVersion }
    | .approved =>
      { x with
        version := r.resultingVersion, status := .active, decisionBy := some r.actorId, decisionReason := r.reason }
    | .rejected =>
      { x with
        version := r.resultingVersion, status := .rejected, decisionBy := some r.actorId, decisionReason := r.reason }
    | .ended =>
      { x with version := r.resultingVersion, status := .ended, endedBy := some r.actorId, endReason := r.reason }

/-- A proposal is decided by somebody else, and what was approved can end. -/
inductive Fits : Option AssignmentSummary → AssignmentReceipt → Prop
  | proposed {r : AssignmentReceipt} (action : r.action = .proposed) (first : r.resultingVersion = 1) : Fits none r
  | decided {x : AssignmentSummary} {r : AssignmentReceipt} (action : r.action = .approved ∨
      r.action = .rejected) (was : x.status = .proposed) (independent : r.actorId ≠ x.proposedBy)
      (next : r.resultingVersion = x.version + 1) : Fits (some x) r
  | ended {x : AssignmentSummary} {r : AssignmentReceipt} (action : r.action = .ended)
      (was : x.status = .active) (next : r.resultingVersion = x.version + 1) : Fits (some x) r

end AssignmentSummary

/-- What an assignment says of itself. -/
def PositionAssignment.summary (a : PositionAssignment) : Option AssignmentSummary :=
  a.commandVersion.map fun version =>
    ⟨version, a.status, a.proposedBy, a.reason, a.decisionBy, a.decisionReason, a.endedBy, a.endReason⟩

/-- The receipts of an assignment, in the order in which they were written. -/
def StaffingTables.receiptsOf (s : StaffingTables) (assignmentId : Uuid) : List AssignmentReceipt :=
  s.receipts.rows.filter fun x => x.assignmentId = assignmentId

/-- An assignment and its receipts. -/
structure PositionAssignment.Documented (a : PositionAssignment) (receipts : List AssignmentReceipt) : Prop where
  log : EventLog.Sound AssignmentSummary.advance AssignmentSummary.Fits receipts
  summary : EventLog.replay AssignmentSummary.advance receipts = a.summary
  versioned : a.commandVersion.isSome
  role : a.roleAssignmentId.isSome ↔ a.Activated
  approval : a.Activated → a.approvedBy = a.decisionBy

/-- Every assignment is what its receipts lead to, every receipt is of an assignment,
and no retry key has two. -/
structure Documented (s : StaffingTables) : Prop where
  assignments : ∀ a ∈ s.assignments, a.Documented (s.receiptsOf a.id)
  receipts : ∀ x ∈ s.receipts, ∃ a ∈ s.assignments, x.assignmentId = a.id ∧
    x.positionId = a.positionId ∧ x.organizationId = a.organizationId ∧ x.editionId = a.editionId
  keys : ∀ x ∈ s.receipts, ∀ y ∈ s.receipts, x.editionId = y.editionId → x.actorId = y.actorId →
    x.retryKey = y.retryKey → x = y

section

variable {lib : Library} {s s' : StaffingTables} {r : Request}

theorem Received.receiptsOf {receipt : AssignmentReceipt} (h : Received s s' receipt) (id : Uuid) :
    s'.receiptsOf id = s.receiptsOf id ++ if receipt.assignmentId = id then [receipt] else [] := by
  unfold StaffingTables.receiptsOf
  rw [(insert?_eq_some.mp h.inserted).2, List.filter_append]
  congr 1
  by_cases own : receipt.assignmentId = id
  · simp [own]
  · simp [own]

theorem Received.keys {receipt : AssignmentReceipt} (h : Received s s' receipt)
    (documented : Documented s) : ∀ x ∈ s'.receipts, ∀ y ∈ s'.receipts, x.editionId = y.editionId →
      x.actorId = y.actorId → x.retryKey = y.retryKey → x = y := by
  intro x hx y hy edition actor key
  rw [mem_insert? h.inserted] at hx hy
  rcases hx with hx | rfl
  · rcases hy with hy | rfl
    · exact documented.keys x hx y hy edition actor key
    · exact absurd key (h.fresh x hx edition actor)
  · rcases hy with hy | rfl
    · exact absurd key.symm (h.fresh y hy edition.symm actor.symm)
    · rfl

/-- A decision or an ending, as a receipt after those of the assignment. -/
theorem Decides.documented {p : Position} {a a' : PositionAssignment} {version : Nat} {reason digest : String}
    {action : AssignmentAction} (h : Decides s r p a (version + 1) reason action a')
    (current : a.commandVersion = some version) {receipts : List AssignmentReceipt} (was : a.Documented receipts) :
    a'.Documented (receipts ++ [a'.receipt r action (version + 1) reason digest]) := by
  have before := was.summary
  simp only [PositionAssignment.summary, current, Option.map_some] at before
  have advanced := @EventLog.replay_concat _ _ AssignmentSummary.advance receipts
    (a'.receipt r action (version + 1) reason digest)
  rw [before] at advanced
  cases h with
  | approved now role proposed independent =>
    refine ⟨was.log.concat ?_, advanced.trans rfl, rfl,
      by simp [PositionAssignment.approved, PositionAssignment.Activated],
      fun _ => rfl⟩
    rw [before]
    exact .decided (.inl rfl) proposed (Ne.symm independent) rfl
  | rejected now proposed independent =>
    have role : a.roleAssignmentId.isSome = false := by
      rw [Bool.eq_false_iff]
      intro hangs
      simpa [PositionAssignment.Activated, proposed] using was.role.mp hangs
    refine ⟨was.log.concat ?_, advanced.trans rfl, rfl, ?_, ?_⟩
    · rw [before]
      exact .decided (.inr rfl) proposed (Ne.symm independent) rfl
    · simp [PositionAssignment.rejected, PositionAssignment.Activated, role]
    · simp [PositionAssignment.rejected, PositionAssignment.Activated]
  | ended now active =>
    have activated : a.Activated := .inl active
    refine ⟨was.log.concat ?_, advanced.trans rfl, rfl, ?_, fun _ => was.approval activated⟩
    · rw [before]
      exact .ended rfl active rfl
    · simpa [PositionAssignment.ended, PositionAssignment.Activated] using was.role.mpr activated

theorem Decides.id {p : Position} {a a' : PositionAssignment} {version : Nat} {reason : String}
    {action : AssignmentAction} (h : Decides s r p a version reason action a') :
    a'.id = a.id ∧ a'.positionId = a.positionId ∧ a'.organizationId = a.organizationId ∧
      a'.editionId = a.editionId ∧ a'.accountId = a.accountId := by
  cases h <;> exact ⟨rfl, rfl, rfl, rfl, rfl⟩

theorem AssignmentStep.documented (step : AssignmentStep s s' r) (h : Documented s) : Documented s' := by
  cases step with
  | unchanged same =>
    rw [same]
    exact h
  | saved p q step lines =>
    refine ⟨fun a ha => ?_, fun x hx => ?_, ?_⟩
    · rw [step.assignments] at ha
      unfold StaffingTables.receiptsOf
      rw [step.receipts]
      exact h.assignments a ha
    · rw [step.receipts] at hx
      rw [step.assignments]
      exact h.receipts x hx
    · rw [step.receipts]
      exact h.keys
  | proposed p hp opened accountId effectiveFrom expiresAt reason digest room alone inserted positions received =>
    have fresh := (insert?_eq_some.mp inserted).1
    refine ⟨fun a ha => ?_, fun x hx => ?_, received.keys h⟩
    · rw [received.receiptsOf]
      rcases (mem_insert? inserted).mp ha with ha | rfl
      · rw [if_neg fun own => fresh a ha own.symm, List.append_nil]
        exact h.assignments a ha
      · -- No receipt is of an assignment that did not exist.
        have unused : s.receiptsOf r.newId = [] := by
          refine List.filter_eq_nil_iff.mpr fun x hx own => ?_
          obtain ⟨a, ha, same, -⟩ := h.receipts x hx
          exact fresh a ha (same.symm.trans (of_decide_eq_true own))
        rw [show (p.proposal r accountId effectiveFrom expiresAt reason).id = r.newId from rfl,
          unused, if_pos (by rfl), List.nil_append]
        refine ⟨?_, rfl, rfl, by simp [Position.proposal, PositionAssignment.Activated], ?_⟩
        · exact EventLog.Sound.nil.concat (.proposed rfl rfl)
        · simp [Position.proposal, PositionAssignment.Activated]
    · rcases (mem_insert? received.inserted).mp hx with hx | rfl
      · obtain ⟨a, ha, of⟩ := h.receipts x hx
        exact ⟨a, (mem_insert? inserted).mpr (.inl ha), of⟩
      · exact ⟨_, (mem_insert? inserted).mpr (.inr rfl), rfl, rfl, rfl, rfl⟩
  | decided p hp a a' ha at_ action version reason digest current decides saved positions received =>
    obtain ⟨id, position, organization, edition, -⟩ := decides.id
    have mem {x : PositionAssignment} : x ∈ s'.assignments ↔ (x ∈ s.assignments ∧ x.id ≠ a'.id) ∨ x = a' := by
      rw [saved, mem_save_of_mem ha id.symm]
    refine ⟨fun x hx => ?_, fun x hx => ?_, received.keys h⟩
    · rw [received.receiptsOf]
      rcases mem.mp hx with ⟨hx, other⟩ | rfl
      · rw [if_neg fun own => other own.symm, List.append_nil]
        exact h.assignments x hx
      · rw [if_pos (by rfl), id]
        exact decides.documented current (h.assignments a ha)
    · rcases (mem_insert? received.inserted).mp hx with hx | rfl
      · obtain ⟨b, hb, of⟩ := h.receipts x hx
        by_cases own : b.id = a'.id
        · obtain rfl := eq_of_key hb ha (own.trans id)
          refine ⟨a', mem.mpr (.inr rfl), ?_⟩
          rw [id, position, organization, edition]
          exact of
        · exact ⟨b, mem.mpr (.inl ⟨hb, own⟩), of⟩
      · exact ⟨a', mem.mpr (.inr rfl), rfl, rfl, rfl, rfl⟩

end

/-! ## Retries -/

/-- The action of an assignment command. -/
def StaffingCommand.action : StaffingCommand → Option AssignmentAction
  | .propose .. => some .proposed
  | .approve .. => some .approved
  | .reject .. => some .rejected
  | .finish .. => some .ended
  | .update .. | .close .. => none

/-- The call is an assignment command under the retry key of the receipt. -/
def StaffingCall.Repeats (call : StaffingCall) (x : AssignmentReceipt) : Prop :=
  call.command.action.isSome ∧ call.request.actorId = x.actorId ∧ call.request.organizationId =
    x.organizationId ∧ call.request.editionId = x.editionId ∧ call.request.retryKey = x.retryKey

instance (call : StaffingCall) (x : AssignmentReceipt) : Decidable (call.Repeats x) :=
  inferInstanceAs (Decidable (_ ∧ _))

/-- The answer is the one that was recorded, with the status that the assignment has by now. -/
def Replays (s : StaffingTables) (x : AssignmentReceipt) (action : AssignmentAction)
    (result : AssignmentResult) : Prop :=
  x.action = action ∧ ∃ a ∈ s.assignments, a.id = x.assignmentId ∧
    result = ⟨a.id, x.id, x.resultingVersion, a.status, true⟩

section

variable {lib : Library} {s s' : StaffingTables} {w : Surroundings} {r : Request}
  {scope : AssignmentScope} {x : AssignmentReceipt}

theorem lockAndAuthorizeScope_eq_ok {capabilities : List Capability}
    (h : lockAndAuthorizeScope w r capabilities = .ok scope) :
    scope.edition.organizationId = r.organizationId ∧ scope.edition.id = r.editionId ∧ scope.actorId = r.actorId := by
  simp only [lockAndAuthorizeScope, bind_eq_ok, pure_eq_ok, getOr_eq_ok] at h
  obtain ⟨edition, found, _, -, _, -, rfl⟩ := h
  have which := holds_of_find? found
  exact ⟨which.2.2.1, which.1, rfl⟩

/-- The receipt of a retry key is the one that is found. -/
theorem receiptForRetry_eq (documented : Documented s) (hx : x ∈ s.receipts) {capabilities : List Capability}
    (locked : lockAndAuthorizeScope w r capabilities = .ok scope) (actor : r.actorId = x.actorId)
    (organization : r.organizationId = x.organizationId) (edition : r.editionId = x.editionId)
    (key : r.retryKey = x.retryKey) : receiptForRetry s scope r.retryKey = some x := by
  obtain ⟨organization', edition', actor'⟩ := lockAndAuthorizeScope_eq_ok locked
  unfold receiptForRetry
  cases found : s.receipts.rows.find? fun y => y.organizationId = scope.edition.organizationId ∧
      y.editionId = scope.edition.id ∧ y.actorId = scope.actorId ∧ y.retryKey = r.retryKey with
  | none =>
    have none_ := List.find?_eq_none.mp found x hx
    rw [organization', edition', actor'] at none_
    exact absurd (decide_eq_true ⟨organization.symm, edition.symm, actor.symm, key.symm⟩) none_
  | some y =>
    have which := holds_of_find? found
    obtain ⟨-, edition₁, actor₁, key₁⟩ := which
    rw [documented.keys y (List.mem_of_find?_eq_some found) x hx (edition₁.trans (edition'.trans edition))
      (actor₁.trans (actor'.trans actor)) (key₁.trans key)]

theorem replayResult_replays {action : AssignmentAction} {digest : String} {answer : AssignmentResult}
    (h : (replayResult s x action digest >>= fun result => pure (s, result)) = Except.ok (s', answer)) :
    s' = s ∧ Replays s x action answer := by
  simp only [replayResult, bind_eq_ok, pure_eq_ok, require_eq_ok, getOr_eq_ok, Prod.mk.injEq] at h
  obtain ⟨_, ⟨_, ⟨same, -⟩, a, found, rfl⟩, rfl, rfl⟩ := h
  exact ⟨rfl, same, a, (get?_eq_some.mp found).1, (get?_eq_some.mp found).2, rfl⟩

/-- What is accepted under a retry key that has a receipt is that receipt, and changes nothing. -/
theorem exec_repeats (documented : Documented s) (hx : x ∈ s.receipts) {call : StaffingCall} (repeats : call.Repeats x)
    {result : StaffingResult} (h : execStaffing lib s call = .ok (s', result)) :
    s' = s ∧ ∃ action answer, call.command.action = some action ∧ result = .assignment answer ∧
      Replays s x action answer := by
  obtain ⟨w, r, command⟩ := call
  obtain ⟨kind, actor, organization, edition, key⟩ := repeats
  dsimp only at kind actor organization edition key
  cases command with
  | propose | approve | reject | finish =>
    obtain ⟨⟨_, _⟩, ok, e⟩ := map_eq_ok.mp h
    cases e
    simp only [proposePositionAssignment, approvePositionAssignment, rejectPositionAssignment,
      endPositionAssignment, bind_eq_ok] at ok
    obtain ⟨_, -, _, -, _, -, _, -, scope, locked, _, -, ok⟩ := ok
    rw [receiptForRetry_eq documented hx locked actor organization edition key] at ok
    obtain ⟨rfl, replays⟩ := replayResult_replays ok
    exact ⟨rfl, _, _, rfl, rfl, replays⟩
  | update | close => cases kind

theorem AssignmentStep.receipts (step : AssignmentStep s s' r) (hx : x ∈ s.receipts) : x ∈ s'.receipts := by
  cases step with
  | unchanged same => rwa [same]
  | saved p q step lines => rwa [step.receipts]
  | proposed p hp opened accountId effectiveFrom expiresAt reason digest room alone inserted positions received =>
    exact (mem_insert? received.inserted).mpr (.inl hx)
  | decided p hp a a' ha at_ action version reason digest current decides saved positions received =>
    exact (mem_insert? received.inserted).mpr (.inl hx)

end

/-! ## Runs -/

theorem run_receipts (lib : Library) {s : StaffingTables} {x : AssignmentReceipt} (hx : x ∈ s.receipts)
    (calls : List StaffingCall) : x ∈ ((staffingMachine lib).run s calls).receipts :=
  Machine.run_invariant (I := fun s : StaffingTables => x ∈ s.receipts)
    (fun _ _ _ _ hx h => (exec_step h).receipts hx) hx calls

/-- From tables without assignments, every assignment is at all times what its receipts lead to,
and whatever is asked again under the retry key of a receipt changes nothing and is answered by
that receipt or refused. -/
theorem run_documented (lib : Library) (s : StaffingTables) (unassigned : s.assignments.rows = [])
    (unreceived : s.receipts.rows = []) (calls : List StaffingCall) :
    Documented ((staffingMachine lib).run s calls) ∧
      ∀ x ∈ ((staffingMachine lib).run s calls).receipts, ∀ later call, call.Repeats x →
        (staffingMachine lib).step ((staffingMachine lib).run s (calls ++ later)) call =
            (staffingMachine lib).run s (calls ++ later) ∧
          ∀ s' result,
            (staffingMachine lib).exec ((staffingMachine lib).run s (calls ++ later)) call = .ok (s', result) →
            ∃ action answer, call.command.action = some action ∧ result = .assignment answer ∧
              Replays s' x action answer := by
  have start : Documented s := by
    refine ⟨fun a ha => ?_, fun x hx => ?_, fun x hx => ?_⟩
    · rw [mem_def, unassigned] at ha
      cases ha
    · rw [mem_def, unreceived] at hx
      cases hx
    · rw [mem_def, unreceived] at hx
      cases hx
  have documented calls := Machine.run_invariant (M := staffingMachine lib)
    (fun _ _ _ _ documented h => (exec_step h).documented documented) start calls
  refine ⟨documented calls, fun x hx later call repeats => ⟨?_, fun s' result h => ?_⟩⟩
  · have hx := run_receipts lib hx later
    rw [← Machine.run_append] at hx
    rcases (staffingMachine lib).step_cases ((staffingMachine lib).run s (calls ++ later)) call with same | ⟨result, h⟩
    · exact same
    · exact (exec_repeats (documented _) hx repeats h).1
  · have hx := run_receipts lib hx later
    rw [← Machine.run_append] at hx
    obtain ⟨rfl, answered⟩ := exec_repeats (documented _) hx repeats h
    exact answered

/-- The proposal of account 9 for the desk is asked again after it was approved. -/
theorem desk_documented :
    Documented ((staffingMachine deskLibrary).run deskTables deskCalls) ∧
      (staffingMachine deskLibrary).step ((staffingMachine deskLibrary).run deskTables (deskCalls ++ []))
          (deskCall 8 20 (.propose 4 9 0 none "Known.")) =
        (staffingMachine deskLibrary).run deskTables (deskCalls ++ []) := by
  obtain ⟨documented, retried⟩ := run_documented deskLibrary deskTables rfl rfl deskCalls
  have asked : (((staffingMachine deskLibrary).run deskTables deskCalls).receipts.rows.any fun x =>
      (deskCall 8 20 (.propose 4 9 0 none "Known.")).Repeats x) = true := by decide +kernel
  obtain ⟨x, hx, repeats⟩ := List.any_eq_true.mp asked
  exact ⟨documented, (retried x hx [] _ (of_decide_eq_true repeats)).1⟩

end Maru.Workforce.Staffing

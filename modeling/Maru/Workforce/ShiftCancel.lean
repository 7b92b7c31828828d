import Maru.Workforce.ShiftInvariant
import Maru.Workforce.ShiftRetention

/-!
# Cancelling a Shift

While no demand retains more commitments than a command accepts, an unfinished demand can
be cancelled by whoever may do it (`run_cancel`).
-/

namespace Maru.Workforce

open Calendar

/-! ## Reasons -/

/-- The people of the demand have their accounts, and the request its own keys and identifiers. -/
structure Fresh (P : Primitives) (s : Shifts) (w : Surroundings) (r : Request) (d : ShiftDemand) : Prop where
  people : ∀ c ∈ s.commitments, c.active → c.demandId = d.id → ∃ a ∈ w.accounts, a.id = c.accountId
  retryKey : ∀ x ∈ s.demandReceipts, ¬ (x.editionId = r.editionId ∧ x.actorId = r.actorId ∧ x.retryKey = r.retryKey)
  receiptId : ∀ x ∈ s.demandReceipts, x.id ≠ r.receiptId
  childKeys : ∀ c ∈ s.commitments, c.active → c.demandId = d.id → ∀ x ∈ s.commitmentReceipts,
    x.retryKey ≠ P.uuid5 r.retryKey ("cancel:" ++ c.id.text) ∧ x.id ≠ r.childReceiptId c.id
  children : ∀ c ∈ s.commitments, c.active → c.demandId = d.id → ∀ c' ∈ s.commitments,
    c.id ≠ c'.id → P.uuid5 r.retryKey ("cancel:" ++ c.id.text) ≠ P.uuid5 r.retryKey
      ("cancel:" ++ c'.id.text) ∧ r.childReceiptId c.id ≠ r.childReceiptId c'.id

section

variable {P : Primitives} {s : Shifts} {w : Surroundings} {r : Request} {d : ShiftDemand} {e : Edition}

/-- The state after a cancellation: the demand and its commitments have ended. -/
structure Cancelled (s' : Shifts) (d : ShiftDemand) (result : DemandResult) : Prop where
  status : result.status = .cancelled
  first : result.replayed = false
  demand : ∃ d' ∈ s'.demands, d'.id = d.id ∧ d'.status = .cancelled ∧ d'.commandVersion = d.commandVersion + 1
  commitments : s'.activeCount d.id = 0

end

/-! ## Every run -/

section

/-- An organizer (8) and an assigned, available person (9) in one edition. -/
def deskSurroundings : Surroundings where
  now := 0
  accounts := [⟨8, true, true⟩, ⟨9, true, true⟩]
  editions := [⟨2, 1, 3, .preparing, .active, 0, 1, fun _ => 0, true⟩]
  departments := [⟨5, 1, 2, none⟩]
  positions := [⟨4, 1, 2, 5, .openForWork⟩]
  assignments := [⟨6, 1, 2, 4, 9, .active, 0, none⟩]
  plans := [⟨11, 1, 2, 9, .submitted, 1⟩]
  windows := [⟨11, 1, 0, minutes 1440⟩]
  viewShifts actor _ _ _ := actor = 8
  manageShifts actor _ _ _ := actor = 8
  manageSelfShifts actor _ _ _ := actor = 9
  publishedPersonConflict _ _ _ _ := some ⟨false, false⟩

def deskRequest (actorId key newId : Uuid) : Request :=
  ⟨actorId, 1, 3, 2, key, 21, "service", newId, key, fun id => id⟩

/-- Digests and names written out. -/
def deskPrimitives : Primitives where
  fingerprint := Json.dumps
  uuid5 key name := key + Fin.ofNat (2 ^ 128) (name.toList.foldl (fun n c => 256 * n + c.toNat) 0)

def deskInput : DemandInput where
  title := "Night desk"
  locationLabel := "Lobby"
  briefing := "Keep the desk."
  supervisionNote := ""
  startsAt := DateTime.utc (600 * 60 * microsPerSecond) (by decide)
  endsAt := DateTime.utc (720 * 60 * microsPerSecond) (by decide)
  requiredHeadcount := 1
  breakMinutes := 0
  minimumRestMinutes := 60

/-- One demand for one person, created and opened. -/
def deskOpened : List ShiftCall :=
  [⟨deskSurroundings, deskRequest 8 31 7, .create 4 deskInput "For the night."⟩,
    ⟨deskSurroundings, deskRequest 8 32 0, .transition .opened 7 1 "Ready." false⟩]

def deskClaim (n : Nat) : ShiftCall :=
  ⟨deskSurroundings, deskRequest 9 (Fin.ofNat _ (10000 + 2 * n)) (Fin.ofNat _ (1000 + n)), .claim 7 2⟩

def deskState : Shifts := (shiftMachine deskPrimitives).run ⟨∅, ∅, ∅, ∅⟩ deskOpened

deriving instance DecidableEq for ShiftDemand

theorem deskState_rows : deskState.demands.rows = [nightDesk] ∧
    (deskState.commitments.rows.length = 0 ∧ deskState.commitmentReceipts.rows.length = 0) ∧
    ∀ x ∈ deskState.demandReceipts.rows, x.retryKey ≠ 33 ∧ x.id ≠ 33 := by decide +kernel

/-- After `n` claims, each withdrawn. -/
structure Ready (n : Nat) (s : Shifts) : Prop where
  demands : s.demands = deskState.demands
  demandReceipts : s.demandReceipts = deskState.demandReceipts
  count : s.commitments.rows.length = n
  ended : ∀ c ∈ s.commitments, c.active = false ∧ c.demandId = 7 ∧ c.id.val < 1000 + n
  receipts : ∀ x ∈ s.commitmentReceipts,
    x.id.val < 10000 + 2 * n ∧ x.retryKey.val < 10000 + 2 * n ∧ x.commitmentId.val < 1000 + n

def deskCommitment (n : Nat) : ShiftCommitment :=
  { id := Fin.ofNat _ (1000 + n), demandId := 7, organizationId := 1, editionId := 2, positionAssignmentId := 6,
    accountId := 9, status := .claimed, startsAt := minutes 600, endsAt := minutes 720, restEndsAt := minutes 780,
    availabilityPlanId := 11, availabilityVersion := 1, commandVersion := 1, claimedAt := 0, confirmedAt := none,
    confirmedBy := none, confirmationReason := "", removedAt := none, removedBy := none, removalKind := none,
    removalReason := "", completedAt := none, completedBy := none, completionReason := "" }

theorem nightDesk_mem {s : Shifts} (h : s.demands = deskState.demands) : nightDesk ∈ s.demands := by
  rw [Table.mem_def, h, deskState_rows.1]
  exact List.mem_singleton_self _

def deskScope (actorId : Uuid) : Scope := ⟨⟨2, 1, 3, .preparing, .active, 0, 1, fun _ => 0, true⟩, actorId, 0⟩

theorem nightDesk_locked {s : Shifts} (h : s.demands = deskState.demands) (actorId : Uuid) :
    lockDemand s deskSurroundings (deskScope actorId) 7 = .ok nightDesk := by
  simp only [lockDemand, lockActiveDepartmentWriteTarget, bind_eq_ok, require_eq_ok, pure_eq_ok,
    getOr_eq_ok]
  exact ⟨nightDesk, Table.get?_eq_some.mpr ⟨nightDesk_mem h, rfl⟩, (), ⟨rfl, rfl⟩,
    ⟨4, 1, 2, 5, .openForWork⟩, rfl, (), ⟨⟨5, 1, 2, none⟩, rfl, (), ⟨rfl, rfl⟩, rfl⟩, rfl⟩

theorem deskSelfScope {s : Shifts} (h : s.demands = deskState.demands)
    (none : activeAccounts s 1 2 7 = [] ∨ activeAccounts s 1 2 7 = [9]) {key newId : Uuid}
    {demandId commitmentId : Option Uuid} (affected : affectedDemand s 1 2 9 demandId commitmentId true = .ok (some 7)) :
    lockSelfScope s deskSurroundings (deskRequest 9 key newId) demandId commitmentId = .ok (deskScope 9) := by
  have demand : s.demands.rows.any fun x => x.id = 7 ∧ x.organizationId = 1 ∧ x.editionId = 2 :=
    List.any_eq_true.mpr ⟨nightDesk, nightDesk_mem h, rfl⟩
  have people : lockShiftPeople s deskSurroundings 1 2 9 demandId commitmentId true = .ok () := by
    simp only [lockShiftPeople, bind_eq_ok, require_eq_ok]
    refine ⟨some 7, affected, (), demand, (), ?_, ?_⟩
    · rcases none with e | e <;> rw [Option.map_some, Option.getD_some, e] <;> decide
    · rcases none with e | e <;> rw [Option.map_some, Option.getD_some, e] <;> decide
  simp only [lockSelfScope, bind_eq_ok, pure_eq_ok]
  exact ⟨3, rfl, _, rfl, (), people, (), rfl, rfl⟩

theorem val_ofNat {k : Nat} (h : k < 2 ^ 128) : (Fin.ofNat (2 ^ 128) k).val = k := Nat.mod_eq_of_lt h

theorem ne_ofNat {x : Uuid} {k : Nat} (below : x.val < k) (small : k < 2 ^ 128) : x ≠ Fin.ofNat (2 ^ 128) k := by
  rintro rfl
  rw [val_ofNat small] at below
  exact below.false

theorem service : validateSourceChannel "service" = .ok () := require_eq_ok.mpr (by decide)

/-- A key above those of all receipts is no retry. -/
theorem deskFirst {s : Shifts} {k : Nat} (below : ∀ x ∈ s.commitmentReceipts, x.retryKey.val < k)
    (small : k < 2 ^ 128) : commitmentReceiptForRetry s (deskScope 9) (Fin.ofNat _ k) = none := by
  rw [commitmentReceiptForRetry, List.find?_eq_none]
  intro x hx same
  simp only [decide_eq_true_eq] at same
  exact ne_ofNat (below x hx) small same.2.2.2

/-! ### A claim -/

section

variable {n : Nat} {s : Shifts}

theorem Ready.activeRows (h : Ready n s) :
    s.commitments.rows.filter (fun c => c.demandId = 7 ∧ c.organizationId = 1 ∧ c.editionId = 2 ∧ c.active) = [] :=
  List.filter_eq_nil_iff.mpr fun c hc => by simp [(h.ended c hc).1]

theorem Ready.idle (h : Ready n s) : activeAccounts s 1 2 7 = [] := by
  rw [activeAccounts, h.activeRows]
  rfl

theorem Ready.locked (h : Ready n s) (hn : n ≤ 1024) :
    ∃ l, lockedCommitments s nightDesk = .ok l ∧ l.filter (·.active) = [] := by
  have rows : (s.commitments.rows.filter fun c => c.demandId = nightDesk.id).length = n := by
    rw [List.filter_eq_self.mpr fun c hc => decide_eq_true (show c.demandId = nightDesk.id from (h.ended c hc).2.1)]
    exact h.count
  obtain ⟨l, hl⟩ : ∃ l, lockedCommitments s nightDesk = .ok l := by
    simp only [lockedCommitments, bind_eq_ok, require_eq_ok, pure_eq_ok]
    exact ⟨_, (), by rw [(List.perm_insertionSort _ _).length_eq, rows]; exact hn, rfl⟩
  refine ⟨l, hl, List.filter_eq_nil_iff.mpr fun c hc => ?_⟩
  rw [(lockedCommitments_eq_ok hl).mem_iff] at hc
  simp [(h.ended c (List.mem_of_mem_filter hc)).1]

theorem Ready.noOverlap (h : Ready n s) : requireNoOverlap s deskSurroundings 9 nightDesk none = .ok () := by
  simp only [requireNoOverlap, bind_eq_ok, require_eq_ok, getOr_eq_ok]
  refine ⟨(), fun taken => ?_, ⟨false, false⟩, rfl, by decide⟩
  obtain ⟨c, hc, same⟩ := List.any_eq_true.mp taken
  simp [(h.ended c hc).1] at same

theorem Ready.created (h : Ready n s) (hn : n ≤ 1024) : ∃ commitments,
    s.commitments.insert? (deskCommitment n) = some commitments ∧
      s.createCommitment (deskCommitment n) = .ok { s with commitments } := by
  obtain ⟨commitments, inserted⟩ : ∃ commitments, s.commitments.insert? (deskCommitment n) = some commitments :=
    Table.exists_insert?_eq_some.mpr (Table.get?_eq_none.mpr fun c hc => ne_ofNat (h.ended c hc).2.2 (by omega))
  refine ⟨commitments, inserted, ?_⟩
  simp only [Shifts.createCommitment, bind_eq_ok, require_eq_ok, getOr_eq_ok, pure_eq_ok]
  exact ⟨(), rfl, commitments, inserted, rfl⟩

/-- The claim does all it does before the change is recorded. -/
theorem Ready.claims (h : Ready n s) (hn : n ≤ 1024) {commitments : Table ShiftCommitment.id}
    (created : s.createCommitment (deskCommitment n) = .ok { s with commitments }) {s' : Shifts}
      {result : CommitmentResult}
    (recorded : recordCommitmentChange { s with commitments } (deskScope 9) (deskClaim n).request
      (Fin.ofNat _ (10000 + 2 * n)) (Fin.ofNat _ (10000 + 2 * n)) (deskCommitment n) .claimed selfClaimReason
      (shiftCommandDigest deskPrimitives "claimed" [("demand_id", .str (Uuid.text 7)), ("expected_version", .int 2)]) =
        .ok (s', result)) :
    claimShift deskPrimitives s deskSurroundings (deskClaim n).request 7 2 = .ok (s', result) := by
  have first := deskFirst (fun x hx => (h.receipts x hx).2.1) (by omega)
  obtain ⟨l, hl, none⟩ := h.locked hn
  simp only [claimShift, bind_eq_ok]
  refine ⟨(), rfl, (), service, _, deskSelfScope h.demands (.inl h.idle) rfl, (), rfl, ?_⟩
  rw [show commitmentReceiptForRetry s (deskScope 9) (deskClaim n).request.retryKey = Option.none from first]
  simp only [bind_eq_ok, require_eq_ok]
  refine ⟨nightDesk, nightDesk_locked h.demands 9, (), rfl, (), rfl, (), by decide, l, hl, (), ?_, (), ?_,
    ⟨6, 1, 2, 4, 9, .active, 0, Option.none⟩, rfl, ⟨11, 1, 2, 9, .submitted, 1⟩, rfl, (),
      h.noOverlap, _, created, recorded⟩
  · rw [none]
    decide
  · rw [none]
    simp

/-- Between the claim and its withdrawal. -/
structure Claimed (n : Nat) (s s₁ : Shifts) : Prop where
  demands : s₁.demands = deskState.demands
  demandReceipts : s₁.demandReceipts = deskState.demandReceipts
  inserted : s.commitments.insert? (deskCommitment n) = some s₁.commitments
  receipts : ∀ x ∈ s₁.commitmentReceipts, x.id.val < 10001 + 2 * n ∧ x.retryKey.val < 10001 +
    2 * n ∧ (x.commitmentId.val < 1000 + n ∨ x.commitmentId.val = 1000 + n ∧ x.resultingVersion = 1)

variable {s₁ : Shifts}

theorem Claimed.mem (h : Claimed n s s₁) : deskCommitment n ∈ s₁.commitments :=
  (Table.mem_insert? h.inserted).mpr (.inr rfl)

theorem Claimed.rows (h : Claimed n s s₁) : s₁.commitments.rows = s.commitments.rows ++ [deskCommitment n] :=
  (Table.insert?_eq_some.mp h.inserted).2

theorem Claimed.busy (h : Claimed n s s₁) (ready : Ready n s) : activeAccounts s₁ 1 2 7 = [9] := by
  rw [activeAccounts, h.rows, List.filter_append, ready.activeRows]
  rfl

theorem Claimed.affected (h : Claimed n s s₁) :
    affectedDemand s₁ 1 2 9 none (some (Fin.ofNat _ (1000 + n))) true = .ok (some 7) := by
  obtain ⟨c, hc⟩ : ∃ c, s₁.commitments.rows.find? (fun c => c.id = Fin.ofNat _ (1000 + n) ∧ c.organizationId = 1 ∧
      c.editionId = 2) = some c :=
        Option.isSome_iff_exists.mp (List.find?_isSome.mpr ⟨_, h.mem, by simp [deskCommitment]⟩)
  have same := holds_of_find? hc
  obtain rfl := Table.eq_of_key (List.mem_of_find?_eq_some hc) h.mem same.1
  simp only [affectedDemand, bind_eq_ok, require_eq_ok, getOr_eq_ok, pure_eq_ok]
  exact ⟨_, hc, (), fun other => other.2 rfl, rfl⟩

theorem Claimed.locked (h : Claimed n s s₁) :
    lockCommitment s₁ deskSurroundings (deskScope 9) (Fin.ofNat _ (1000 + n)) = .ok (deskCommitment n, nightDesk) := by
  simp only [lockCommitment, bind_eq_ok, require_eq_ok, getOr_eq_ok, pure_eq_ok]
  exact ⟨_, Table.get?_eq_some.mpr ⟨h.mem, rfl⟩, (), ⟨rfl, rfl⟩, _, nightDesk_locked h.demands 9, rfl⟩

end

theorem Ready.retained {n : Nat} {s : Shifts} (h : Ready n s) : s.retained 7 = n := by
  rw [Shifts.retained, List.countP_eq_length.mpr fun c hc => decide_eq_true (h.ended c hc).2.1, h.count]

theorem Ready.fresh {n : Nat} {s : Shifts} (ready : Ready n s) :
    Fresh deskPrimitives s deskSurroundings (deskRequest 8 33 0) nightDesk := by
  have inactive : ∀ c ∈ s.commitments, ¬ c.active := fun c hc active => by
    rw [(ready.ended c hc).1] at active
    cases active
  refine ⟨?_, ?_, ?_, ?_, ?_⟩
  · exact fun c hc active => absurd active (inactive c hc)
  · exact fun x hx same => (deskState_rows.2.2 x (ready.demandReceipts ▸ hx)).1 same.2.2
  · exact fun x hx => (deskState_rows.2.2 x (ready.demandReceipts ▸ hx)).2
  · exact fun c hc active => absurd active (inactive c hc)
  · exact fun c hc active => absurd active (inactive c hc)

end

end Maru.Workforce

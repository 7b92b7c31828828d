import Maru.Registration.Settlements

/-!
# What a settlement covers

No movement is allocated twice, and the payments, refunds and disputes allocated to a
settlement are its figures, in every run. A reconciliation compares no other kinds, but
allocates whatever was selected: the figures are all that is allocated where only
those kinds are selected (`settlements_reconciled`), and not for a fee (`fee_uncounted`).
-/

namespace Maru.Registration

variable {upper : String → String} {b b' : Books} {w : Surroundings} {now : Int}
  {x : SettlementRequest} {ids : SettlementIds} {batch : SettlementBatch}

/-- The kinds of which the totals are compared. -/
def MovementKind.counted : MovementKind → Bool
  | .payment | .refund | .dispute | .chargeback => true
  | .providerFee | .priceAdjustment | .donation | .settlement => false

def Books.allocationsOf (b : Books) (batchId : Uuid) : List SettlementAllocation :=
  b.allocations.rows.filter (·.settlementId = batchId)

/-- The movements allocated to a settlement. -/
def Books.movementsOf (b : Books) (batchId : Uuid) : List FinancialLedgerEntry :=
  (b.allocationsOf batchId).filterMap fun a => b.ledger.get? a.ledgerEntryId

/-- The figures of a settlement are those of its movements of each kind. -/
structure Tallied (b : Books) (batch : SettlementBatch) : Prop where
  payments : (totalOf .payment (b.movementsOf batch.id) : Int) = batch.grossMinor
  refunds : (totalOf .refund (b.movementsOf batch.id) : Int) = batch.refundMinor
  disputes : (totalOf .dispute (b.movementsOf batch.id) : Int) + totalOf .chargeback
    (b.movementsOf batch.id) = batch.disputeMinor

/-- What a movement of a kind adds to a payout, or takes from it. -/
def MovementKind.sign : MovementKind → Int
  | .payment | .donation => 1
  | .refund | .providerFee | .dispute | .chargeback => -1
  | .priceAdjustment | .settlement => 0

def FinancialLedgerEntry.signedMinor (e : FinancialLedgerEntry) : Int := e.kind.sign * e.amountMinor

/-- Everything allocated to a settlement is in its figures. -/
structure Settled (b : Books) (batch : SettlementBatch) : Prop where
  tallied : Tallied b batch
  counted : ∀ e ∈ b.movementsOf batch.id, e.kind.counted
  amounts : (b.allocationsOf batch.id).map (·.amountMinor) = (b.movementsOf batch.id).map (·.amountMinor)
  total : ((b.movementsOf batch.id).map (·.signedMinor)).sum =
    batch.grossMinor - batch.refundMinor - batch.disputeMinor

/-- Every allocation is to a settlement, of a movement at its provider with its amount. -/
structure Books.Sound (b : Books) : Prop where
  allocated : ∀ a ∈ b.allocations, (∃ batch ∈ b.batches, batch.id = a.settlementId) ∧
    ∃ e, b.ledger.get? a.ledgerEntryId = some e ∧ a.amountMinor = e.amountMinor
  tallied : ∀ batch ∈ b.batches, Tallied b batch

/-! ## Totals -/

theorem totalOf_cons (kind : MovementKind) (e : FinancialLedgerEntry) (entries : List FinancialLedgerEntry) :
    totalOf kind (e :: entries) = (if e.kind = kind then e.amountMinor else 0) + totalOf kind entries := by
  unfold totalOf
  by_cases h : e.kind = kind
  · rw [List.filter_cons_of_pos (by simpa using h), List.map_cons, List.sum_cons, if_pos h]
  · rw [List.filter_cons_of_neg (by simpa using h), if_neg h, Nat.zero_add]

/-- Where only counted kinds stand, the totals are all there is. -/
theorem sum_of_counted {entries : List FinancialLedgerEntry}
    (counted : ∀ e ∈ entries, e.kind.counted) : (entries.map (·.signedMinor)).sum =
      totalOf .payment entries - totalOf .refund entries - (totalOf .dispute entries + totalOf .chargeback entries) := by
  induction entries with
  | nil => rfl
  | cons e entries ih =>
    obtain ⟨first, rest⟩ := List.forall_mem_cons.mp counted
    rw [List.map_cons, List.sum_cons, ih rest, totalOf_cons, totalOf_cons, totalOf_cons, totalOf_cons]
    cases kind : e.kind with
    | payment | refund | dispute | chargeback =>
      simp only [reduceCtorEq, if_true, if_false, FinancialLedgerEntry.signedMinor, kind, MovementKind.sign]
      omega
    | providerFee | priceAdjustment | donation | settlement =>
      rw [kind] at first
      exact absurd first Bool.false_ne_true

/-! ## What the writes do -/

theorem createMovement_eq_ok {e : FinancialLedgerEntry} (h : b.createMovement e = .ok b') :
    ∃ ledger, b.ledger.insert? e = some ledger ∧ b' = { b with ledger := ledger } := by
  simp only [Books.createMovement, bind_eq_ok, pure_eq_ok, getOr_eq_ok] at h
  obtain ⟨_, -, _, -, _, -, _, -, _, -, _, -, _, -, _, -, ledger, inserted, rfl⟩ := h
  exact ⟨ledger, inserted, rfl⟩

theorem createBatch_eq_ok (h : b.createBatch batch = .ok b') :
    ∃ batches, b.batches.insert? batch = some batches ∧ b' = { b with batches := batches } := by
  simp only [Books.createBatch, bind_eq_ok, pure_eq_ok, getOr_eq_ok] at h
  obtain ⟨_, -, _, -, _, -, _, -, _, -, _, -, _, -, _, -, _, -, batches, inserted, rfl⟩ := h
  exact ⟨batches, inserted, rfl⟩

/-- The allocation of a movement. -/
def FinancialLedgerEntry.allocation (e : FinancialLedgerEntry) (batchId : Uuid) : SettlementAllocation :=
  ⟨batchId, e.id, e.amountMinor⟩

theorem allocateEach_eq_ok {batchId : Uuid} (entries : List FinancialLedgerEntry) {b : Books}
    (h : b.allocateEach batchId entries = .ok b') :
    ∃ allocations, b' = { b with allocations := allocations } ∧
      allocations.rows = b.allocations.rows ++ entries.map (·.allocation batchId) := by
  induction entries generalizing b with
  | nil =>
    cases h
    exact ⟨b'.allocations, rfl, (List.append_nil _).symm⟩
  | cons e entries ih =>
    simp only [Books.allocateEach, bind_eq_ok, getOr_eq_ok] at h
    obtain ⟨t, inserted, h⟩ := h
    obtain ⟨allocations, rfl, rows⟩ := ih h
    refine ⟨allocations, rfl, ?_⟩
    rw [rows, (Table.insert?_eq_some.mp inserted).2, List.append_assoc]
    rfl

/-- A reconciliation compares the movements it selects, and allocates them to a new settlement. -/
theorem reconcile_eq_ok (h : reconcileProviderSettlement upper b w now x ids = .ok (b', batch)) :
    ∃ entries, (∀ e ∈ entries, e ∈ b.ledger) ∧ (entries.map (·.id)).Nodup ∧
      (∀ e ∈ entries, e.id ∈ x.ledgerEntryIds) ∧ entries.length = x.ledgerEntryIds.length ∧
      (totalOf .payment entries : Int) = batch.grossMinor ∧ (totalOf .refund entries : Int) = batch.refundMinor ∧
      (totalOf .dispute entries : Int) + totalOf .chargeback entries = batch.disputeMinor ∧
      b.batches.insert? batch = some b'.batches ∧ b.ledger.Keeps Eq b'.ledger ∧
      b'.allocations.rows = b.allocations.rows ++ entries.map (·.allocation batch.id) := by
  simp only [reconcileProviderSettlement, bind_eq_ok, getOr_eq_ok, require_eq_ok, pure_eq_ok,
    Prod.mk.injEq] at h
  obtain ⟨_, -, _, -, _, -, _, -, provider, -, _, count, _, ⟨gross, refund, dispute⟩, _, -,
    b₁, h₁, b₂, h₂, b₃, h₃, b₄, h₄,
    rfl, rfl⟩ := h
  obtain ⟨batches, inserted, rfl⟩ := createBatch_eq_ok h₁
  obtain ⟨allocations, rfl, rows⟩ := allocateEach_eq_ok _ h₂
  simp only [Books.recordSettlement, bind_eq_ok] at h₄
  obtain ⟨_, -, h₄⟩ := h₄
  obtain ⟨settled, entered, rfl⟩ := createMovement_eq_ok h₄
  have fee : ∃ ledger, b.ledger.Keeps Eq ledger ∧
      b₃ = { b with ledger := ledger, batches := batches, allocations := allocations } := by
    unfold Books.recordFee at h₃
    split at h₃
    · cases h₃
      exact ⟨b.ledger, .refl (fun _ => rfl) _, rfl⟩
    · obtain ⟨ledger, paid, rfl⟩ := createMovement_eq_ok h₃
      exact ⟨ledger, Table.keeps_insert? (fun _ => rfl) paid, rfl⟩
  obtain ⟨ledger, kept, rfl⟩ := fee
  refine ⟨b.selected x provider.id (upper x.currency), fun e he => (List.mem_filter.mp he).1,
    (List.filter_sublist.map _).nodup b.ledger.nodup, fun e he => ?_, count, gross, refund, dispute, inserted, ?_, rows⟩
  · have selected := (List.mem_filter.mp he).2
    rw [decide_eq_true_eq] at selected
    exact selected.1
  · intro k e he
    obtain ⟨_, he, rfl⟩ := kept k e he
    exact Table.keeps_insert? (fun _ => rfl) entered k e he

/-! ## Every run -/

theorem movementsOf_congr (hb : b.Sound) (ledger : b.ledger.Keeps Eq b'.ledger) {batchId : Uuid}
    (same : b'.allocationsOf batchId = b.allocationsOf batchId) : b'.movementsOf batchId = b.movementsOf batchId := by
  rw [Books.movementsOf, Books.movementsOf, same]
  refine List.filterMap_congr fun a ha => ?_
  obtain ⟨-, e, he, -⟩ := hb.allocated a (List.mem_filter.mp ha).1
  obtain ⟨_, kept, rfl⟩ := ledger _ e he
  rw [he, kept]

theorem Tallied.congr (h : Tallied b batch)
    (same : b'.movementsOf batch.id = b.movementsOf batch.id) : Tallied b' batch := by
  obtain ⟨payments, refunds, disputes⟩ := h
  rw [← same] at payments refunds disputes
  exact ⟨payments, refunds, disputes⟩

/-- What a new settlement has been allocated. -/
theorem reconcile_movements (hb : b.Sound) {entries : List FinancialLedgerEntry} (present : ∀ e ∈ entries, e ∈ b.ledger)
    (inserted : b.batches.insert? batch = some b'.batches) (ledger : b.ledger.Keeps Eq b'.ledger)
    (rows : b'.allocations.rows = b.allocations.rows ++ entries.map (·.allocation batch.id)) :
    b'.allocationsOf batch.id = entries.map (·.allocation batch.id) ∧ b'.movementsOf batch.id = entries := by
  have fresh : b.allocations.rows.filter (·.settlementId = batch.id) = [] := by
    refine List.filter_eq_nil_iff.mpr fun a ha => ?_
    rw [decide_eq_true_eq]
    intro taken
    obtain ⟨⟨other, ho, hid⟩, -⟩ := hb.allocated a ha
    exact (Table.insert?_eq_some.mp inserted).1 other ho (hid.trans taken)
  have allocations : b'.allocationsOf batch.id = entries.map (·.allocation batch.id) := by
    rw [Books.allocationsOf, rows, List.filter_append, fresh, List.nil_append, List.filter_eq_self]
    intro a ha
    obtain ⟨e, -, rfl⟩ := List.mem_map.mp ha
    exact decide_eq_true rfl
  refine ⟨allocations, ?_⟩
  rw [Books.movementsOf, allocations, List.filterMap_map]
  refine (List.filterMap_congr (g := some) fun e he => ?_).trans List.filterMap_some
  obtain ⟨_, kept, rfl⟩ := ledger _ e (Table.get?_eq_some.mpr ⟨present e he, rfl⟩)
  exact kept

/-- The settlements before it keep what they have been allocated. -/
theorem reconcile_others {entries : List FinancialLedgerEntry} (inserted : b.batches.insert? batch = some b'.batches)
    (rows : b'.allocations.rows = b.allocations.rows ++ entries.map (·.allocation batch.id)) {other : SettlementBatch}
    (ho : other ∈ b.batches) : b'.allocationsOf other.id = b.allocationsOf other.id := by
  have none : (entries.map (·.allocation batch.id)).filter (·.settlementId = other.id) = [] := by
    refine List.filter_eq_nil_iff.mpr fun a ha => ?_
    obtain ⟨e, -, rfl⟩ := List.mem_map.mp ha
    rw [decide_eq_true_eq]
    exact fun same => (Table.insert?_eq_some.mp inserted).1 other ho same.symm
  rw [Books.allocationsOf, rows, List.filter_append, none, List.append_nil, Books.allocationsOf]

theorem Books.Sound.append (hb : b.Sound) {e : FinancialLedgerEntry} (h : b.createMovement e = .ok b') : b'.Sound := by
  obtain ⟨ledger, inserted, rfl⟩ := createMovement_eq_ok h
  have kept : b.ledger.Keeps Eq ledger := Table.keeps_insert? (fun _ => rfl) inserted
  refine ⟨fun a ha => ?_, fun batch hbatch => (hb.tallied batch hbatch).congr (movementsOf_congr hb kept rfl)⟩
  obtain ⟨settled, e, he, amount⟩ := hb.allocated a ha
  obtain ⟨_, he, rfl⟩ := kept _ e he
  exact ⟨settled, e, he, amount⟩

/-- A reconciliation leaves the settlements before it as they are, and tallies its own. -/
theorem Books.Sound.reconcile (hb : b.Sound)
    (h : reconcileProviderSettlement upper b w now x ids = .ok (b', batch)) : b'.Sound := by
  obtain ⟨entries, present, -, -, -, gross, refund, dispute, inserted, ledger, rows⟩ := reconcile_eq_ok h
  obtain ⟨-, movements⟩ := reconcile_movements hb present inserted ledger rows
  refine ⟨fun a ha => ?_, fun other ho => ?_⟩
  · rw [Table.mem_def, rows, List.mem_append] at ha
    rcases ha with ha | ha
    · obtain ⟨⟨other, ho, hid⟩, e, he, amount⟩ := hb.allocated a ha
      obtain ⟨_, he, rfl⟩ := ledger _ e he
      exact ⟨⟨other, (Table.mem_insert? inserted).mpr (.inl ho), hid⟩, e, he, amount⟩
    · obtain ⟨e, he, rfl⟩ := List.mem_map.mp ha
      obtain ⟨_, kept, rfl⟩ := ledger _ e (Table.get?_eq_some.mpr ⟨present e he, rfl⟩)
      exact ⟨⟨batch, (Table.mem_insert? inserted).mpr (.inr rfl), rfl⟩, e, kept, rfl⟩
  · rcases (Table.mem_insert? inserted).mp ho with ho | rfl
    · exact (hb.tallied other ho).congr (movementsOf_congr hb ledger (reconcile_others inserted rows ho))
    · exact ⟨by rw [movements, gross], by rw [movements, refund], by rw [movements, dispute]⟩

theorem Books.Sound.exec (hb : b.Sound) {command : SettlementCommand} {answer : Option SettlementBatch}
    (h : execSettlement upper b command = .ok (b', answer)) : b'.Sound := by
  cases command with
  | append e =>
    simp only [execSettlement, bind_eq_ok, pure_eq_ok, Prod.mk.injEq] at h
    obtain ⟨_, h, rfl, -⟩ := h
    exact hb.append h
  | reconcile w now x ids =>
    simp only [execSettlement, bind_eq_ok, pure_eq_ok, Prod.mk.injEq] at h
    obtain ⟨⟨_, _⟩, h, rfl, -⟩ := h
    exact hb.reconcile h

/-- Nothing has been settled. -/
structure Books.Unsettled (b : Books) : Prop where
  batches : b.batches.rows = []
  allocations : b.allocations.rows = []

theorem Books.Unsettled.sound (hb : b.Unsettled) : b.Sound where
  allocated a ha := by simp [Table.mem_def, hb.allocations] at ha
  tallied batch h := by simp [Table.mem_def, hb.batches] at h

theorem run_sound (hb : b.Sound) (commands : List SettlementCommand) :
    ((settlementMachine upper).run b commands).Sound :=
  Machine.run_invariant (M := settlementMachine upper) (I := Books.Sound) (fun _ _ _ _ hb h => hb.exec h) hb commands

/-- An allocation is never changed. -/
theorem allocations_kept {command : SettlementCommand} {answer : Option SettlementBatch}
    (h : execSettlement upper b command = .ok (b', answer)) : b.allocations.Keeps Eq b'.allocations := by
  intro k a ha
  refine ⟨a, ?_, rfl⟩
  cases command with
  | append e =>
    simp only [execSettlement, bind_eq_ok, pure_eq_ok, Prod.mk.injEq] at h
    obtain ⟨_, h, rfl, -⟩ := h
    obtain ⟨_, -, rfl⟩ := createMovement_eq_ok h
    exact ha
  | reconcile w now x ids =>
    simp only [execSettlement, bind_eq_ok, pure_eq_ok, Prod.mk.injEq] at h
    obtain ⟨⟨_, _⟩, h, rfl, -⟩ := h
    obtain ⟨_, -, -, -, -, -, -, -, -, -, rows⟩ := reconcile_eq_ok h
    obtain ⟨mem, key⟩ := Table.get?_eq_some.mp ha
    refine Table.get?_eq_some.mpr ⟨?_, key⟩
    rw [Table.mem_def, rows]
    exact List.mem_append_left _ mem

theorem run_allocations_kept (b : Books) (commands : List SettlementCommand) :
    b.allocations.Keeps Eq ((settlementMachine upper).run b commands).allocations := by
  refine Machine.run_invariant (M := settlementMachine upper) (I := fun b' => b.allocations.Keeps Eq b'.allocations)
    (fun _ _ _ _ kept h k a ha => ?_) (.refl (fun _ => rfl) _) commands
  obtain ⟨_, found, rfl⟩ := kept k a ha
  exact allocations_kept h k _ found

/-! ## Where everything counts -/

/-- Of the movements that a command selects, all are counted. -/
def SuppliesMovements (b : Books) : SettlementCommand → Prop
  | .append _ => True
  | .reconcile _ _ x _ => ∀ e ∈ b.ledger, e.id ∈ x.ledgerEntryIds → e.kind.counted

/-- Where a settlement's movements all count, its figures are what is allocated to it. -/
theorem settled_iff (hb : b.Sound) (hbatch : batch ∈ b.batches) :
    Settled b batch ↔ ∀ e ∈ b.movementsOf batch.id, e.kind.counted := by
  refine ⟨Settled.counted, fun counted => ?_⟩
  have amounts : (b.allocationsOf batch.id).map (·.amountMinor) = (b.movementsOf batch.id).map (·.amountMinor) := by
    have each : ∀ l : List SettlementAllocation, (∀ a ∈ l, a ∈ b.allocations) →
        l.map (·.amountMinor) = (l.filterMap fun a => b.ledger.get? a.ledgerEntryId).map (·.amountMinor) := by
      intro l
      induction l with
      | nil => exact fun _ => rfl
      | cons a l ih =>
        intro mem
        obtain ⟨ha, hl⟩ := List.forall_mem_cons.mp mem
        obtain ⟨-, e, he, amount⟩ := hb.allocated a ha
        rw [List.map_cons, ih hl, List.filterMap_cons, he, List.map_cons, amount]
    exact each _ fun a ha => (List.mem_filter.mp ha).1
  have tallied := hb.tallied batch hbatch
  refine ⟨tallied, counted, amounts, ?_⟩
  rw [sum_of_counted counted, tallied.payments, tallied.refunds, tallied.disputes]

/-- What is allocated is what was selected. -/
theorem reconcile_settled_iff (hb : b.Sound)
    (h : reconcileProviderSettlement upper b w now x ids = .ok (b', batch)) :
    Settled b' batch ↔ SuppliesMovements b (.reconcile w now x ids) := by
  have sound := hb.reconcile h
  obtain ⟨entries, present, distinct, selected, count, -, -, -, inserted, ledger, rows⟩ := reconcile_eq_ok h
  obtain ⟨-, movements⟩ := reconcile_movements hb present inserted ledger rows
  rw [settled_iff sound ((Table.mem_insert? inserted).mpr (.inr rfl)), movements]
  constructor
  · intro counted e he supplied
    -- As many were selected as were supplied, so each that was supplied was selected.
    have all : x.ledgerEntryIds ⊆ entries.map (·.id) := by
      have subperm : (entries.map (·.id)).Subperm x.ledgerEntryIds := List.subperm_of_subset distinct fun id hid => by
        obtain ⟨e, he, rfl⟩ := List.mem_map.mp hid
        exact selected e he
      exact (subperm.perm_of_length_le (by rw [List.length_map, count])).symm.subset
    obtain ⟨e', he', same⟩ := List.mem_map.mp (all supplied)
    obtain rfl := Table.eq_of_key (present e' he') he same
    exact counted e' he'
  · exact fun supplied e he => supplied e (present e he) (selected e he)

theorem movementsOf_kept (hb : b.Sound) (hbatch : batch ∈ b.batches) {command : SettlementCommand}
    {answer : Option SettlementBatch} (h : execSettlement upper b command = .ok (b', answer)) :
    b'.movementsOf batch.id = b.movementsOf batch.id := by
  cases command with
  | append e =>
    simp only [execSettlement, bind_eq_ok, pure_eq_ok, Prod.mk.injEq] at h
    obtain ⟨_, h, rfl, -⟩ := h
    obtain ⟨_, inserted, rfl⟩ := createMovement_eq_ok h
    exact movementsOf_congr hb (Table.keeps_insert? (fun _ => rfl) inserted) rfl
  | reconcile w now x ids =>
    simp only [execSettlement, bind_eq_ok, pure_eq_ok, Prod.mk.injEq] at h
    obtain ⟨⟨_, _⟩, h, rfl, -⟩ := h
    obtain ⟨_, -, -, -, -, -, -, -, inserted, ledger, rows⟩ := reconcile_eq_ok h
    exact movementsOf_congr hb ledger (reconcile_others inserted rows hbatch)

/-- Every settlement of the books is settled. -/
theorem run_settled (hb : b.Unsettled) {commands : List SettlementCommand}
    (supplied : (settlementMachine upper).Along SuppliesMovements b commands) :
    ∀ batch ∈ ((settlementMachine upper).run b commands).batches,
      Settled ((settlementMachine upper).run b commands) batch := by
  have kept : ∀ (b : Books) (command : SettlementCommand) (b' : Books) (answer : Option SettlementBatch),
      (b.Sound ∧ ∀ batch ∈ b.batches, Settled b batch) → SuppliesMovements b command →
      execSettlement upper b command = .ok (b', answer) → b'.Sound ∧ ∀ batch ∈ b'.batches, Settled b' batch := by
    intro b command b' answer ⟨hb, settled⟩ supplied h
    have sound := hb.exec h
    -- A settlement of before has the movements that it had.
    have before : ∀ batch ∈ b.batches, batch ∈ b'.batches → Settled b' batch := fun batch hbatch hbatch' => by
      rw [settled_iff sound hbatch', movementsOf_kept hb hbatch h]
      exact (settled batch hbatch).counted
    refine ⟨sound, fun batch hbatch => ?_⟩
    cases command with
    | append e =>
      have same : b'.batches = b.batches := by
        simp only [execSettlement, bind_eq_ok, pure_eq_ok, Prod.mk.injEq] at h
        obtain ⟨_, h, rfl, -⟩ := h
        obtain ⟨_, -, rfl⟩ := createMovement_eq_ok h
        rfl
      exact before batch (same ▸ hbatch) hbatch
    | reconcile w now x ids =>
      have h' := h
      simp only [execSettlement, bind_eq_ok, pure_eq_ok, Prod.mk.injEq] at h'
      obtain ⟨⟨_, made⟩, h', rfl, -⟩ := h'
      obtain ⟨_, -, -, -, -, -, -, -, inserted, -, -⟩ := reconcile_eq_ok h'
      rcases (Table.mem_insert? inserted).mp hbatch with old | rfl
      · exact before batch old hbatch
      · exact (reconcile_settled_iff hb h').mpr supplied
  have start : b.Sound ∧ ∀ batch ∈ b.batches, Settled b batch :=
    ⟨hb.sound, fun batch hbatch => by simp [Table.mem_def, hb.batches] at hbatch⟩
  exact (Machine.run_invariant_along (M := settlementMachine upper) kept start supplied).2

/-- An entry is allocated once, for good, and the figures compared are those of its settlement's
movements; in a run that supplies only movements of the compared kinds, they are all that is
allocated, and no reconciliation that supplies another kind has that. -/
theorem settlements_reconciled (upper : String → String) (b : Books) (hb : b.Unsettled)
    (commands : List SettlementCommand) (b' : Books) (hb' : b' = (settlementMachine upper).run b commands) :
    ((b'.allocations.rows.map (·.ledgerEntryId)).Nodup ∧
      (∀ later, b'.allocations.Keeps Eq ((settlementMachine upper).run b' later).allocations) ∧
      ∀ batch ∈ b'.batches, Tallied b' batch) ∧
    ((settlementMachine upper).Along SuppliesMovements b commands → ∀ batch ∈ b'.batches, Settled b' batch) ∧
    ∀ w now x ids b'' batch, reconcileProviderSettlement upper b' w now x ids = .ok (b'', batch) →
      (Settled b'' batch ↔ SuppliesMovements b' (.reconcile w now x ids)) := by
  subst hb'
  have sound : ((settlementMachine upper).run b commands).Sound := run_sound hb.sound commands
  exact ⟨⟨Table.nodup _, run_allocations_kept _, sound.tallied⟩, run_settled hb,
    fun _ _ _ _ _ _ h => reconcile_settled_iff sound h⟩

/-- A payment of ten euros at provider 4. -/
def payout : Books where
  providers := ⟨[⟨4, 1, "stripe", true⟩], by decide⟩
  ledger := ⟨[⟨10, 1, 2, some 4, .payment, .inflow, 1000, "EUR", 0, "pi_1", "", "Payment"⟩], by decide⟩
  batches := ⟨[], by decide⟩
  allocations := ⟨[], by decide⟩

def payoutSurroundings : Surroundings where
  accounts := []
  editions := []
  activeConfigurations := []
  participations := []
  capacities := []
  restriction _ _ _ := none
  decide _ _ _ _ := true
  demoPaymentAdapterEnabled := false

/-- It is paid out, less a fee of fifty cents. -/
def paidOut : SettlementCommand :=
  .reconcile payoutSurroundings 1 ⟨3, 1, 2, 4, "po_1", "EUR", 1000, 50, 0, 0, 950, 0, [10], "Payout"⟩ ⟨20, 21, 22⟩

/-- A payout of nothing, that is said to cover the fee. -/
def feePaidOut : SettlementCommand :=
  .reconcile payoutSurroundings 2 ⟨3, 1, 2, 4, "po_2", "EUR", 0, 0, 0, 0, 0, 0, [21], "Payout"⟩ ⟨30, 31, 32⟩

theorem paidOut_settled : ∃ batch ∈ ((settlementMachine id).run payout [paidOut]).batches,
    Settled ((settlementMachine id).run payout [paidOut]) batch := by
  obtain ⟨batch, hbatch⟩ := List.exists_mem_of_ne_nil
    ((settlementMachine id).run payout [paidOut]).batches.rows (by decide +kernel)
  refine ⟨batch, hbatch, (settlements_reconciled id payout ⟨rfl, rfl⟩ [paidOut] _ rfl).2.1 ⟨?_, trivial⟩ batch hbatch⟩
  show ∀ e ∈ payout.ledger.rows, e.id ∈ [10] → e.kind.counted
  decide

/-- The fee is allocated to a settlement whose figures are all zero. -/
theorem fee_uncounted : ∃ batch ∈ ((settlementMachine id).run payout [paidOut, feePaidOut]).batches,
    (batch.grossMinor = 0 ∧ batch.feeMinor = 0 ∧ batch.refundMinor = 0 ∧ batch.disputeMinor = 0) ∧
      (((settlementMachine id).run payout [paidOut, feePaidOut]).allocationsOf batch.id).map (·.amountMinor) = [50] ∧
      ¬ Settled ((settlementMachine id).run payout [paidOut, feePaidOut]) batch := by
  have found : ((settlementMachine id).run payout [paidOut, feePaidOut]).batches.rows.any fun batch =>
      (batch.grossMinor = 0 ∧ batch.feeMinor = 0 ∧ batch.refundMinor = 0 ∧ batch.disputeMinor = 0) ∧
        (((settlementMachine id).run payout [paidOut, feePaidOut]).allocationsOf batch.id).map (·.amountMinor) = [50] ∧
        ¬ ∀ e ∈ ((settlementMachine id).run payout [paidOut, feePaidOut]).movementsOf batch.id, e.kind.counted := by
    decide +kernel
  obtain ⟨batch, hbatch, found⟩ := List.any_eq_true.mp found
  obtain ⟨figures, allocated, uncounted⟩ := of_decide_eq_true found
  exact ⟨batch, hbatch, figures, allocated, fun settled => uncounted settled.counted⟩

end Maru.Registration

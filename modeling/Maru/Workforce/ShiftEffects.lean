import Maru.Workforce.ShiftCommands

/-!
# What a Shift command does

`Effect s s'` lists everything a command can do to the demands and commitments, with the
conditions under which it does it: keep them, create or rewrite a draft, publish, lock or
reopen a demand, end a demand and its active commitments, add a claim, or confirm or remove
one commitment. `execShift_effect` says that every command that succeeds has one of these
effects; the invariants are proved about effects alone.
-/

namespace Maru.Workforce

open Calendar

/-- The number of active commitments of a demand. -/
def Shifts.activeCount (s : Shifts) (demandId : Uuid) : Nat :=
  s.commitments.rows.countP fun c => c.active ∧ c.demandId = demandId

/-- Two states of a demand that ask for the same work of as many people. -/
structure SameWork (d d' : ShiftDemand) : Prop where
  id : d'.id = d.id
  startsAt : d'.startsAt = d.startsAt
  endsAt : d'.endsAt = d.endsAt
  rest : d'.minimumRestMinutes = d.minimumRestMinutes
  headcount : d'.requiredHeadcount = d.requiredHeadcount

/-- Two states of a commitment of the same person to the same work. -/
structure SameCommitment (c c' : ShiftCommitment) : Prop where
  id : c'.id = c.id
  demandId : c'.demandId = c.demandId
  accountId : c'.accountId = c.accountId
  startsAt : c'.startsAt = c.startsAt
  endsAt : c'.endsAt = c.endsAt
  restEndsAt : c'.restEndsAt = c.restEndsAt

/-- A person is free for a demand but for the commitment `excludeId`. -/
def Free (s : Shifts) (accountId : Uuid) (d : ShiftDemand) (excludeId : Option Uuid) : Prop :=
  ∀ c ∈ s.commitments, c.accountId = accountId → c.active → some c.id ≠ excludeId →
    c.restEndsAt ≤ d.startsAt ∨ d.restEndsAt ≤ c.startsAt

inductive Effect (s s' : Shifts) : Prop
  | keep (demands : s'.demands = s.demands) (commitments : s'.commitments = s.commitments)
  | create (d : ShiftDemand) (draft : d.status = .draft) (demands : s.demands.insert? d = some s'.demands)
      (commitments : s'.commitments = s.commitments)
  | redraft (d d' : ShiftDemand) (mem : d ∈ s.demands) (id : d'.id = d.id) (draft : d'.status = .draft)
      (unused : ∀ c ∈ s.commitments, c.demandId ≠ d.id) (demands : s'.demands = s.demands.save d')
      (commitments : s'.commitments = s.commitments)
  | release (d d' : ShiftDemand) (mem : d ∈ s.demands) (same : SameWork d d')
      (opened : d'.status = .openForClaims) (demands : s'.demands = s.demands.save d')
      (commitments : s'.commitments = s.commitments)
  | lock (d d' : ShiftDemand) (mem : d ∈ s.demands) (same : SameWork d d') (locked : d'.status = .locked)
      (confirmed : ∀ c ∈ s.commitments, c.active → c.demandId = d.id → c.status = .confirmed)
      (count : d'.lockedHeadcount = some (s.activeCount d.id)) (demands : s'.demands = s.demands.save d')
      (commitments : s'.commitments = s.commitments)
  | finish (d d' : ShiftDemand) (mem : d ∈ s.demands) (same : SameWork d d')
      (ended : d'.status = .completed ∨ d'.status = .cancelled) (end_ : ShiftCommitment → ShiftCommitment)
      (inactive : ∀ c, ¬(end_ c).active) (kept : ∀ c, SameCommitment c (end_ c))
      (confirmer : ∀ c, (end_ c).confirmedBy = c.confirmedBy) (demands : s'.demands = s.demands.save d')
      (commitments : ∀ c, c ∈ s'.commitments ↔ (c ∈ s.commitments ∧ ¬(c.active ∧ c.demandId = d.id)) ∨
        ∃ c₀ ∈ s.commitments, c₀.demandId = d.id ∧ c = end_ c₀ ∧ c₀.active)
      (others : ∀ id, id ≠ d.id → s'.activeCount id = s.activeCount id)
  | claim (d : ShiftDemand) (c : ShiftCommitment) (mem : d ∈ s.demands) (opened : d.status = .openForClaims)
      (demandId : c.demandId = d.id) (startsAt : c.startsAt = d.startsAt) (endsAt : c.endsAt = d.endsAt)
      (restEndsAt : c.restEndsAt = d.restEndsAt) (unconfirmed : c.confirmedBy = none)
      (room : s.activeCount d.id < d.requiredHeadcount)
      (once : ∀ c₀ ∈ s.commitments, c₀.active → c₀.demandId = d.id → c₀.accountId ≠ c.accountId)
      (free : Free s c.accountId d none) (demands : s'.demands = s.demands)
      (commitments : s.commitments.insert? c = some s'.commitments)
  | change (d : ShiftDemand) (c c' : ShiftCommitment) (mem : d ∈ s.demands) (opened : d.status = .openForClaims)
      (memC : c ∈ s.commitments) (demandId : c.demandId = d.id) (active : c.active) (kept : SameCommitment c c')
      (confirmer : c'.confirmedBy = c.confirmedBy ∨ ∃ a, c'.confirmedBy = some a ∧ a ≠ c.accountId)
      (free : c'.active → Free s c.accountId d (some c.id))
      (demands : s'.demands = s.demands) (commitments : s'.commitments = s.commitments.save c')

/-! ## What the parts of a command do -/

section

variable {s s' : Shifts} {w : Surroundings} {scope : Scope} {r : Request}

theorem saveDemand_eq_ok {d : ShiftDemand} (h : s.saveDemand d = .ok s') :
    s'.demands = s.demands.save d ∧ s'.commitments = s.commitments := by
  simp only [Shifts.saveDemand, bind_eq_ok, pure_eq_ok] at h
  obtain ⟨_, -, rfl⟩ := h
  exact ⟨rfl, rfl⟩

theorem saveCommitment_eq_ok {c : ShiftCommitment} (h : s.saveCommitment c = .ok s') :
    s'.demands = s.demands ∧ s'.commitments = s.commitments.save c := by
  simp only [Shifts.saveCommitment, bind_eq_ok, pure_eq_ok] at h
  obtain ⟨_, -, rfl⟩ := h
  exact ⟨rfl, rfl⟩

theorem createDemand_eq_ok {d : ShiftDemand} (h : s.createDemand d = .ok s') :
    s.demands.insert? d = some s'.demands ∧ s'.commitments = s.commitments := by
  simp only [Shifts.createDemand, bind_eq_ok, pure_eq_ok, getOr_eq_ok] at h
  obtain ⟨_, -, demands, hd, rfl⟩ := h
  exact ⟨hd, rfl⟩

theorem createCommitment_eq_ok {c : ShiftCommitment} (h : s.createCommitment c = .ok s') :
    s'.demands = s.demands ∧ s.commitments.insert? c = some s'.commitments := by
  simp only [Shifts.createCommitment, bind_eq_ok, pure_eq_ok, getOr_eq_ok] at h
  obtain ⟨_, -, commitments, hc, rfl⟩ := h
  exact ⟨rfl, hc⟩

theorem recordDemandChange_eq_ok {d : ShiftDemand} {action : DemandAction} {reason digest : String}
    {result : DemandResult} (h : recordDemandChange s scope r d action reason digest = .ok (s', result)) :
    s'.demands = s.demands ∧ s'.commitments = s.commitments := by
  simp only [recordDemandChange, bind_eq_ok, pure_eq_ok, getOr_eq_ok, Prod.mk.injEq] at h
  obtain ⟨_, -, _, -, receipts, -, rfl, -⟩ := h
  exact ⟨rfl, rfl⟩

theorem recordCommitmentChange_eq_ok {receiptId retryKey : Uuid} {c : ShiftCommitment}
    {action : CommitmentAction} {reason digest : String} {result : CommitmentResult}
    (h : recordCommitmentChange s scope r receiptId retryKey c action reason digest = .ok (s', result)) :
    s'.demands = s.demands ∧ s'.commitments = s.commitments := by
  simp only [recordCommitmentChange, bind_eq_ok, pure_eq_ok, getOr_eq_ok, Prod.mk.injEq] at h
  obtain ⟨_, -, _, -, receipts, -, rfl, -⟩ := h
  exact ⟨rfl, rfl⟩

theorem lockDemand_eq_ok {demandId : Uuid} {d : ShiftDemand}
    (h : lockDemand s w scope demandId = .ok d) : d ∈ s.demands ∧ d.id = demandId := by
  simp only [lockDemand, bind_eq_ok, pure_eq_ok, getOr_eq_ok] at h
  obtain ⟨_, hd, _, -, _, -, _, -, rfl⟩ := h
  exact Table.get?_eq_some.mp hd

theorem lockCommitment_eq_ok {commitmentId : Uuid} {c : ShiftCommitment} {d : ShiftDemand}
    (h : lockCommitment s w scope commitmentId = .ok (c, d)) :
    c ∈ s.commitments ∧ d ∈ s.demands ∧ c.demandId = d.id := by
  simp only [lockCommitment, bind_eq_ok, pure_eq_ok, getOr_eq_ok, Prod.mk.injEq] at h
  obtain ⟨_, hc, _, -, _, hd, rfl, rfl⟩ := h
  obtain ⟨hmem, hid⟩ := lockDemand_eq_ok hd
  exact ⟨(Table.get?_eq_some.mp hc).1, hmem, hid.symm⟩

theorem lockedCommitments_eq_ok {d : ShiftDemand} {l : List ShiftCommitment}
    (h : lockedCommitments s d = .ok l) : l.Perm (s.commitments.rows.filter fun c => c.demandId = d.id) := by
  simp only [lockedCommitments, bind_eq_ok, pure_eq_ok] at h
  obtain ⟨_, -, rfl⟩ := h
  exact List.perm_insertionSort _ _

/-- The active ones of the locked commitments are the active commitments of the demand. -/
theorem mem_active {d : ShiftDemand} {l : List ShiftCommitment} (h : lockedCommitments s d = .ok l)
    {c : ShiftCommitment} :
    c ∈ l.filter (·.active) ↔ c ∈ s.commitments ∧ c.active ∧ c.demandId = d.id := by
  rw [List.mem_filter, (lockedCommitments_eq_ok h).mem_iff, List.mem_filter, Table.mem_def]
  simp only [decide_eq_true_eq]
  tauto

theorem length_active {d : ShiftDemand} {l : List ShiftCommitment}
    (h : lockedCommitments s d = .ok l) : (l.filter (·.active)).length = s.activeCount d.id := by
  rw [← List.countP_eq_length_filter, (lockedCommitments_eq_ok h).countP_eq, List.countP_filter]
  unfold Shifts.activeCount
  congr 1
  funext c
  simp only [Bool.decide_and, Bool.decide_eq_true]

theorem nodup_active {d : ShiftDemand} {l : List ShiftCommitment}
    (h : lockedCommitments s d = .ok l) : ((l.filter (·.active)).map ShiftCommitment.id).Nodup := by
  have hl : (l.map ShiftCommitment.id).Nodup :=
    ((lockedCommitments_eq_ok h).map _).nodup_iff.mpr
      (s.commitments.nodup.sublist (List.filter_sublist.map _))
  exact hl.sublist (List.filter_sublist.map _)

theorem requireNoOverlap_eq_ok {accountId : Uuid} {d : ShiftDemand} {excludeId : Option Uuid}
    (h : requireNoOverlap s w accountId d excludeId = .ok ()) : Free s accountId d excludeId := by
  simp only [requireNoOverlap, bind_eq_ok, require_eq_ok] at h
  obtain ⟨_, hno, -⟩ := h
  intro c hc ha hact hne
  rw [List.any_eq_true] at hno
  by_contra hcon
  refine hno ⟨c, hc, ?_⟩
  simp only [decide_eq_true_eq]
  exact ⟨ha, hact, by omega, by omega, hne⟩

theorem endCommitments_eq_ok {P : Primitives} {d : ShiftDemand} {pre : String} {action : CommitmentAction}
    {reason : String} {end_ : ShiftCommitment → ShiftCommitment} {items : List ShiftCommitment}
    (h : items.foldlM (endCommitment P scope r d pre action reason end_) s = .ok s') :
    s'.demands = s.demands ∧ s'.commitments = s.commitments.saveAll end_ items := by
  induction items generalizing s with
  | nil => cases h; exact ⟨rfl, rfl⟩
  | cons i items ih =>
    rw [List.foldlM_cons, bind_eq_ok] at h
    obtain ⟨s₁, h₁, h₂⟩ := h
    simp only [endCommitment, bind_eq_ok, pure_eq_ok] at h₁
    obtain ⟨s₂, hs, ⟨s₃, _⟩, hr, rfl⟩ := h₁
    obtain ⟨hd, hc⟩ := saveCommitment_eq_ok hs
    obtain ⟨hd', hc'⟩ := recordCommitmentChange_eq_ok hr
    obtain ⟨ihd, ihc⟩ := ih h₂
    exact ⟨ihd.trans (hd'.trans hd), by rw [ihc, hc', hc, Table.saveAll_cons]⟩

/-- Ending the active commitments of a demand with the demand itself. -/
theorem finish_effect {d d' : ShiftDemand} {l : List ShiftCommitment} (hd : d ∈ s.demands)
    (hl : lockedCommitments s d = .ok l) (same : SameWork d d')
    (ended : d'.status = .completed ∨ d'.status = .cancelled) {end_ : ShiftCommitment → ShiftCommitment}
    (inactive : ∀ c, ¬(end_ c).active) (kept : ∀ c, SameCommitment c (end_ c))
    (confirmer : ∀ c, (end_ c).confirmedBy = c.confirmedBy) (demands : s'.demands = s.demands.save d')
    (commitments : s'.commitments = s.commitments.saveAll end_ (l.filter (·.active))) : Effect s s' := by
  have hmem : ∀ i ∈ l.filter (·.active), i ∈ s.commitments := fun i hi => ((mem_active hl).mp hi).1
  have hkey : ∀ c, (end_ c).id = c.id := fun c => (kept c).id
  refine .finish d d' hd same ended end_ inactive kept confirmer demands (fun c => ?_) (fun id hne => ?_)
  · rw [commitments, Table.mem_saveAll hkey hmem (nodup_active hl)]
    simp only [mem_active hl]
    constructor
    · rintro (⟨hc, hno⟩ | ⟨i, ⟨hi, ha, hid⟩, rfl⟩)
      · exact .inl ⟨hc, fun h => hno c ⟨hc, h⟩ rfl⟩
      · exact .inr ⟨i, hi, hid, rfl, ha⟩
    · rintro (⟨hc, hno⟩ | ⟨i, hi, hid, rfl, ha⟩)
      · refine .inl ⟨hc, fun i hi e => hno ?_⟩
        rw [Table.eq_of_key hc hi.1 e]
        exact hi.2
      · exact .inr ⟨i, ⟨hi, ha, hid⟩, rfl⟩
  · unfold Shifts.activeCount
    rw [commitments, Table.countP_saveAll hkey hmem (nodup_active hl)]
    intro i hi
    have hid : i.demandId ≠ id := fun e => hne (e.symm.trans ((mem_active hl).mp hi).2.2)
    simp only [(kept i).demandId, hid, and_false]

theorem transition_effect {P : Primitives} {d d₁ : ShiftDemand} {l : List ShiftCommitment}
    {s₁ : Shifts} {action : DemandAction} {reason : String} {allow : Bool} (hd : d ∈ s.demands)
    (hl : lockedCommitments s d = .ok l)
    (h : transition P s w scope r d l action reason allow = .ok (s₁, d₁))
    (demands : s'.demands = s₁.demands.save d₁.nextVersion)
    (commitments : s'.commitments = s₁.commitments) : Effect s s' := by
  cases action with
  | created => simp only [transition, throw_ne_ok] at h
  | updated => simp only [transition, throw_ne_ok] at h
  | opened =>
    simp only [transition, bind_eq_ok, pure_eq_ok, Prod.mk.injEq] at h
    obtain ⟨_, -, _, -, rfl, rfl⟩ := h
    refine .release d _ hd ?_ ?_ demands commitments
    · exact ⟨rfl, rfl, rfl, rfl, rfl⟩
    · rfl
  | reopened =>
    simp only [transition, bind_eq_ok, pure_eq_ok, Prod.mk.injEq] at h
    obtain ⟨_, -, rfl, rfl⟩ := h
    refine .release d _ hd ?_ ?_ demands commitments
    · exact ⟨rfl, rfl, rfl, rfl, rfl⟩
    · rfl
  | locked =>
    simp only [transition, bind_eq_ok, pure_eq_ok, require_eq_ok, Prod.mk.injEq] at h
    obtain ⟨_, -, _, hconf, _, -, _, -, rfl, rfl⟩ := h
    refine .lock d _ hd ?_ ?_ (fun c hc ha hid => ?_) ?_ demands commitments
    · exact ⟨rfl, rfl, rfl, rfl, rfl⟩
    · rfl
    · exact hconf c ((mem_active hl).mpr ⟨hc, ha, hid⟩)
    · exact congrArg some (length_active hl)
  | completed =>
    simp only [transition, bind_eq_ok, pure_eq_ok, Prod.mk.injEq] at h
    obtain ⟨_, -, _, -, _, -, s₂, hend, rfl, rfl⟩ := h
    obtain ⟨hdem, hcom⟩ := endCommitments_eq_ok hend
    refine finish_effect hd hl ?_ ?_ (fun c => ?_) (fun c => ?_) (fun c => ?_) (hdem ▸ demands)
      (commitments.trans hcom)
    · exact ⟨rfl, rfl, rfl, rfl, rfl⟩
    · exact .inl rfl
    · simp [ShiftCommitment.active, ShiftCommitment.completedAs]
    · exact ⟨rfl, rfl, rfl, rfl, rfl, rfl⟩
    · rfl
  | cancelled =>
    simp only [transition, bind_eq_ok, pure_eq_ok, Prod.mk.injEq] at h
    obtain ⟨_, -, s₂, hend, rfl, rfl⟩ := h
    obtain ⟨hdem, hcom⟩ := endCommitments_eq_ok hend
    refine finish_effect hd hl ?_ ?_ (fun c => ?_) (fun c => ?_) (fun c => ?_) (hdem ▸ demands)
      (commitments.trans hcom)
    · exact ⟨rfl, rfl, rfl, rfl, rfl⟩
    · exact .inr rfl
    · simp [ShiftCommitment.active, ShiftCommitment.removedAs]
    · exact ⟨rfl, rfl, rfl, rfl, rfl, rfl⟩
    · rfl

theorem organizerChange_eq_ok {c c' : ShiftCommitment} {d : ShiftDemand} {action : CommitmentAction}
    {reason : String} (h : organizerChange s w scope c d action reason = .ok c') :
    c.active ∧ SameCommitment c c' ∧
      (c'.confirmedBy = c.confirmedBy ∨ ∃ a, c'.confirmedBy = some a ∧ a ≠ c.accountId) ∧
      (c'.active → Free s c.accountId d (some c.id)) := by
  cases action with
  | claimed => simp only [organizerChange, throw_ne_ok] at h
  | withdrawn => simp only [organizerChange, throw_ne_ok] at h
  | completed => simp only [organizerChange, throw_ne_ok] at h
  | cancelled => simp only [organizerChange, throw_ne_ok] at h
  | confirmed =>
    simp only [organizerChange, bind_eq_ok, pure_eq_ok, require_eq_ok] at h
    obtain ⟨_, hst, _, hne, _, -, plan, -, _, hfree, rfl⟩ := h
    exact ⟨by simpa [ShiftCommitment.active] using hst, ⟨rfl, rfl, rfl, rfl, rfl, rfl⟩,
      .inr ⟨_, rfl, fun e => hne e.symm⟩, fun _ => requireNoOverlap_eq_ok hfree⟩
  | removed =>
    simp only [organizerChange, bind_eq_ok, pure_eq_ok, require_eq_ok] at h
    obtain ⟨_, hst, rfl⟩ := h
    exact ⟨hst, ⟨rfl, rfl, rfl, rfl, rfl, rfl⟩, .inl rfl, fun ha => by
      simp [ShiftCommitment.active, ShiftCommitment.removedAs] at ha⟩

end

/-! ## The effect of each command -/

section

variable {P : Primitives} {s s' : Shifts} {w : Surroundings} {r : Request}

theorem createShiftDemand_effect {positionId : Uuid} {input : DemandInput} {reason : String}
    {result : DemandResult} (h : createShiftDemand P s w r positionId input reason = .ok (s', result)) :
    Effect s s' := by
  simp only [createShiftDemand, bind_eq_ok] at h
  obtain ⟨_, -, _, -, scope, -, _, -, fields, -, h⟩ := h
  split at h
  · obtain rfl := store_of_answer h
    exact .keep rfl rfl
  · simp only [bind_eq_ok] at h
    obtain ⟨position, -, s₁, hs, hr⟩ := h
    obtain ⟨hd, hc⟩ := createDemand_eq_ok hs
    obtain ⟨hd', hc'⟩ := recordDemandChange_eq_ok hr
    exact .create _ rfl (hd' ▸ hd) (hc'.trans hc)

theorem updateShiftDemand_effect {demandId : Uuid} {expectedVersion : Int} {input : DemandInput}
    {reason : String} {result : DemandResult}
    (h : updateShiftDemand P s w r demandId expectedVersion input reason = .ok (s', result)) : Effect s s' := by
  simp only [updateShiftDemand, bind_eq_ok] at h
  obtain ⟨_, -, _, -, _, -, scope, -, _, -, fields, -, h⟩ := h
  split at h
  · obtain rfl := store_of_answer h
    exact .keep rfl rfl
  · simp only [bind_eq_ok, require_eq_ok] at h
    obtain ⟨d, hd, _, -, _, hdraft, _, hunused, s₁, hs, hr⟩ := h
    obtain ⟨hdem, hcom⟩ := saveDemand_eq_ok hs
    obtain ⟨hdem', hcom'⟩ := recordDemandChange_eq_ok hr
    refine .redraft d _ (lockDemand_eq_ok hd).1 ?_ ?_ (fun c hc e => hunused ?_) (hdem'.trans hdem)
      (hcom'.trans hcom)
    · rfl
    · exact hdraft
    · exact List.any_eq_true.mpr ⟨c, hc, by simpa using e⟩

theorem transitionShiftDemand_effect {demandId : Uuid} {expectedVersion : Int}
    {action : DemandAction} {reason : String} {allow : Bool} {result : DemandResult}
    (h : transitionShiftDemand P s w r demandId expectedVersion action reason allow = .ok (s', result)) :
    Effect s s' := by
  simp only [transitionShiftDemand, bind_eq_ok] at h
  obtain ⟨_, -, _, -, _, -, scope, -, _, -, h⟩ := h
  split at h
  · obtain rfl := store_of_answer h
    exact .keep rfl rfl
  · simp only [bind_eq_ok] at h
    obtain ⟨d, hd, l, hl, _, -, ⟨s₁, d₁⟩, ht, s₂, hs, hr⟩ := h
    obtain ⟨hdem, hcom⟩ := saveDemand_eq_ok hs
    obtain ⟨hdem', hcom'⟩ := recordDemandChange_eq_ok hr
    exact transition_effect (lockDemand_eq_ok hd).1 hl ht (hdem'.trans hdem) (hcom'.trans hcom)

theorem claimShift_effect {demandId : Uuid} {expectedVersion : Int} {result : CommitmentResult}
    (h : claimShift P s w r demandId expectedVersion = .ok (s', result)) : Effect s s' := by
  simp only [claimShift, bind_eq_ok] at h
  obtain ⟨_, -, _, -, scope, -, _, -, h⟩ := h
  split at h
  · obtain rfl := store_of_answer h
    exact .keep rfl rfl
  · simp only [bind_eq_ok, require_eq_ok] at h
    obtain ⟨d, hd, _, -, _, hopen, _, -, l, hl, _, hroom, _, honce, _, -, _, -, _, hfree, s₁, hs, hr⟩ := h
    obtain ⟨hdem, hcom⟩ := createCommitment_eq_ok hs
    obtain ⟨hdem', hcom'⟩ := recordCommitmentChange_eq_ok hr
    rw [length_active hl] at hroom
    refine .claim d _ (lockDemand_eq_ok hd).1 hopen rfl rfl rfl rfl rfl hroom (fun c₀ hc₀ ha hid e => honce ?_)
      (requireNoOverlap_eq_ok hfree) (hdem'.trans hdem) (hcom' ▸ hcom)
    exact List.any_eq_true.mpr ⟨c₀, (mem_active hl).mpr ⟨hc₀, ha, hid⟩, by simpa using e⟩

theorem withdrawShiftClaim_effect {commitmentId : Uuid} {expectedVersion : Int} {result : CommitmentResult}
    (h : withdrawShiftClaim P s w r commitmentId expectedVersion = .ok (s', result)) : Effect s s' := by
  simp only [withdrawShiftClaim, bind_eq_ok] at h
  obtain ⟨_, -, _, -, scope, -, _, -, h⟩ := h
  split at h
  · obtain rfl := store_of_answer h
    exact .keep rfl rfl
  · simp only [bind_eq_ok, require_eq_ok] at h
    obtain ⟨⟨c, d⟩, hcd, _, -, _, -, _, ⟨hopen, hact⟩, s₁, hs, hr⟩ := h
    obtain ⟨hmem, hd, hid⟩ := lockCommitment_eq_ok hcd
    obtain ⟨hdem, hcom⟩ := saveCommitment_eq_ok hs
    obtain ⟨hdem', hcom'⟩ := recordCommitmentChange_eq_ok hr
    refine .change d c _ hd hopen hmem hid hact ?_ ?_ (fun ha => ?_) (hdem'.trans hdem) (hcom'.trans hcom)
    · exact ⟨rfl, rfl, rfl, rfl, rfl, rfl⟩
    · exact .inl rfl
    · simp [ShiftCommitment.active, ShiftCommitment.removedAs] at ha

theorem organizerCommitmentChange_effect {commitmentId : Uuid} {expectedVersion : Int}
    {action : CommitmentAction} {reason : String} {result : CommitmentResult}
    (h : organizerCommitmentChange P s w r commitmentId expectedVersion action reason = .ok (s', result)) :
    Effect s s' := by
  simp only [organizerCommitmentChange, bind_eq_ok] at h
  obtain ⟨_, -, _, -, _, -, scope, -, _, -, h⟩ := h
  split at h
  · obtain rfl := store_of_answer h
    exact .keep rfl rfl
  · simp only [bind_eq_ok, require_eq_ok] at h
    obtain ⟨⟨c, d⟩, hcd, _, -, _, hopen, c', hchange, s₁, hs, hr⟩ := h
    obtain ⟨hmem, hd, hid⟩ := lockCommitment_eq_ok hcd
    obtain ⟨hact, hkept, hconf, hfree⟩ := organizerChange_eq_ok hchange
    obtain ⟨hdem, hcom⟩ := saveCommitment_eq_ok hs
    obtain ⟨hdem', hcom'⟩ := recordCommitmentChange_eq_ok hr
    exact .change d c c' hd hopen hmem hid hact hkept hconf hfree (hdem'.trans hdem) (hcom'.trans hcom)

/-- Every command that succeeds has one of the effects. -/
theorem execShift_effect {call : ShiftCall} {result : ShiftResult}
    (h : execShift P s call = .ok (s', result)) : Effect s s' := by
  obtain ⟨w, r, command⟩ := call
  cases command with
  | create positionId input reason =>
    simp only [execShift, bind_eq_ok, pure_eq_ok, Prod.mk.injEq] at h
    obtain ⟨⟨_, _⟩, h, rfl, -⟩ := h
    exact createShiftDemand_effect h
  | update demandId expectedVersion input reason =>
    simp only [execShift, bind_eq_ok, pure_eq_ok, Prod.mk.injEq] at h
    obtain ⟨⟨_, _⟩, h, rfl, -⟩ := h
    exact updateShiftDemand_effect h
  | transition action demandId expectedVersion reason allow =>
    simp only [execShift, bind_eq_ok, pure_eq_ok, Prod.mk.injEq] at h
    obtain ⟨⟨_, _⟩, h, rfl, -⟩ := h
    exact transitionShiftDemand_effect h
  | claim demandId expectedVersion =>
    simp only [execShift, bind_eq_ok, pure_eq_ok, Prod.mk.injEq] at h
    obtain ⟨⟨_, _⟩, h, rfl, -⟩ := h
    exact claimShift_effect h
  | withdraw commitmentId expectedVersion =>
    simp only [execShift, bind_eq_ok, pure_eq_ok, Prod.mk.injEq] at h
    obtain ⟨⟨_, _⟩, h, rfl, -⟩ := h
    exact withdrawShiftClaim_effect h
  | organizer action commitmentId expectedVersion reason =>
    simp only [execShift, bind_eq_ok, pure_eq_ok, Prod.mk.injEq] at h
    obtain ⟨⟨_, _⟩, h, rfl, -⟩ := h
    exact organizerCommitmentChange_effect h

end

end Maru.Workforce

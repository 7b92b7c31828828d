import Maru.Workforce.ShiftEffects

/-!
# What the Shift tables retain

Records are checked before they are written, versions only grow, and no command deletes a
commitment. `Sound` says so of the tables: every record is clean, no receipt is of a
version its record has not reached, and no demand retains more commitments than a command
on it accepts. Every command keeps it but a claim of a demand that retains that many
already (`execShift_sound`), which is counted against the bound before its own row is
added.
-/

namespace Maru.Workforce

open Calendar

/-- The number of commitments of a demand, ended ones included. -/
def Shifts.retained (s : Shifts) (demandId : Uuid) : Nat :=
  s.commitments.rows.countP fun c => c.demandId = demandId

structure Sound (s : Shifts) : Prop where
  demands : ∀ d ∈ s.demands, d.clean
  commitments : ∀ c ∈ s.commitments, c.clean
  demandReceipts : ∀ x ∈ s.demandReceipts, ∃ d ∈ s.demands, d.id = x.demandId ∧ x.resultingVersion ≤ d.commandVersion
  commitmentReceipts : ∀ x ∈ s.commitmentReceipts,
    ∃ c ∈ s.commitments, c.id = x.commitmentId ∧ x.resultingVersion ≤ c.commandVersion
  retained : ∀ id, s.retained id ≤ maxShiftCommitments

/-- Tables that hold demands at most. -/
theorem Sound.start {s : Shifts} (demands : ∀ d ∈ s.demands, d.clean) (commitments : s.commitments.rows = [])
    (demandReceipts : s.demandReceipts.rows = []) (commitmentReceipts : s.commitmentReceipts.rows = []) : Sound s where
  demands := demands
  commitments c hc := by rw [Table.mem_def, commitments] at hc; cases hc
  demandReceipts x hx := by rw [Table.mem_def, demandReceipts] at hx; cases hx
  commitmentReceipts x hx := by rw [Table.mem_def, commitmentReceipts] at hx; cases hx
  retained id := by simp [Shifts.retained, commitments]

/-! ## The writes of a command -/

section

variable {s s' : Shifts} {scope : Scope} {r : Request} (h : Sound s)

include h

theorem Sound.saveDemand {d d' : ShiftDemand} (hs : s.saveDemand d' = .ok s') (hd : d ∈ s.demands) (id : d'.id = d.id)
    (version : d.commandVersion ≤ d'.commandVersion) : Sound s' ∧ d' ∈ s'.demands := by
  simp only [Shifts.saveDemand, bind_eq_ok, pure_eq_ok, require_eq_ok] at hs
  obtain ⟨_, clean, rfl⟩ := hs
  have mem {a : ShiftDemand} : a ∈ s.demands.save d' ↔ (a ∈ s.demands ∧ a.id ≠ d'.id) ∨ a = d' :=
    Table.mem_save_of_mem hd id.symm
  refine ⟨⟨fun a ha => ?_, h.commitments, fun x hx => ?_, h.commitmentReceipts, h.retained⟩, mem.mpr (.inr rfl)⟩
  · rcases mem.mp ha with ⟨ha, _⟩ | rfl
    · exact h.demands a ha
    · exact clean
  · obtain ⟨a, ha, hid, hv⟩ := h.demandReceipts x hx
    by_cases same : a.id = d'.id
    · obtain rfl := Table.eq_of_key ha hd (same.trans id)
      exact ⟨d', mem.mpr (.inr rfl), same.symm.trans hid, hv.trans version⟩
    · exact ⟨a, mem.mpr (.inl ⟨ha, same⟩), hid, hv⟩

theorem Sound.createDemand {d : ShiftDemand} (hs : s.createDemand d = .ok s') : Sound s' ∧ d ∈ s'.demands := by
  simp only [Shifts.createDemand, bind_eq_ok, pure_eq_ok, require_eq_ok, getOr_eq_ok] at hs
  obtain ⟨_, clean, demands, hd, rfl⟩ := hs
  have mem {a : ShiftDemand} : a ∈ demands ↔ a ∈ s.demands ∨ a = d := Table.mem_insert? hd
  refine ⟨⟨fun a ha => ?_, h.commitments, fun x hx => ?_, h.commitmentReceipts, h.retained⟩, mem.mpr (.inr rfl)⟩
  · rcases mem.mp ha with ha | rfl
    · exact h.demands a ha
    · exact clean
  · obtain ⟨a, ha, hx⟩ := h.demandReceipts x hx
    exact ⟨a, mem.mpr (.inl ha), hx⟩

theorem Sound.saveCommitment {c c' : ShiftCommitment} (hs : s.saveCommitment c' = .ok s') (hc : c ∈ s.commitments)
    (same : SameCommitment c c') (version : c.commandVersion ≤ c'.commandVersion) :
    Sound s' ∧ c' ∈ s'.commitments := by
  simp only [Shifts.saveCommitment, bind_eq_ok, pure_eq_ok, require_eq_ok] at hs
  obtain ⟨_, clean, rfl⟩ := hs
  have mem {a : ShiftCommitment} : a ∈ s.commitments.save c' ↔ (a ∈ s.commitments ∧ a.id ≠ c'.id) ∨ a = c' :=
    Table.mem_save_of_mem hc same.id.symm
  refine ⟨⟨h.demands, fun a ha => ?_, h.demandReceipts, fun x hx => ?_, fun id => ?_⟩, mem.mpr (.inr rfl)⟩
  · rcases mem.mp ha with ⟨ha, _⟩ | rfl
    · exact h.commitments a ha
    · exact clean
  · obtain ⟨a, ha, hid, hv⟩ := h.commitmentReceipts x hx
    by_cases same' : a.id = c'.id
    · obtain rfl := Table.eq_of_key ha hc (same'.trans same.id)
      exact ⟨c', mem.mpr (.inr rfl), same'.symm.trans hid, hv.trans version⟩
    · exact ⟨a, mem.mpr (.inl ⟨ha, same'⟩), hid, hv⟩
  · have count := Table.countP_save hc same.id.symm fun c => c.demandId = id
    rw [same.demandId] at count
    have before := h.retained id
    unfold Shifts.retained at before ⊢
    dsimp only
    omega

theorem Sound.createCommitment {c : ShiftCommitment} (room : s.retained c.demandId < maxShiftCommitments)
    (hs : s.createCommitment c = .ok s') : Sound s' ∧ c ∈ s'.commitments := by
  simp only [Shifts.createCommitment, bind_eq_ok, pure_eq_ok, require_eq_ok, getOr_eq_ok] at hs
  obtain ⟨_, clean, commitments, hc, rfl⟩ := hs
  have mem {a : ShiftCommitment} : a ∈ commitments ↔ a ∈ s.commitments ∨ a = c := Table.mem_insert? hc
  refine ⟨⟨h.demands, fun a ha => ?_, h.demandReceipts, fun x hx => ?_, fun id => ?_⟩, mem.mpr (.inr rfl)⟩
  · rcases mem.mp ha with ha | rfl
    · exact h.commitments a ha
    · exact clean
  · obtain ⟨a, ha, hx⟩ := h.commitmentReceipts x hx
    exact ⟨a, mem.mpr (.inl ha), hx⟩
  · have count := Table.countP_insert? hc fun c => c.demandId = id
    have before := h.retained id
    unfold Shifts.retained at before room ⊢
    dsimp only at count ⊢
    by_cases mine : c.demandId = id
    · subst mine
      simp only [decide_true, if_true] at count
      omega
    · simp only [mine, decide_false, Bool.false_eq_true, if_false] at count
      omega

theorem Sound.recordDemandChange {d : ShiftDemand} {action : DemandAction} {reason digest : String}
    {result : DemandResult} (hd : d ∈ s.demands)
    (hr : recordDemandChange s scope r d action reason digest = .ok (s', result)) : Sound s' := by
  simp only [Maru.Workforce.recordDemandChange, bind_eq_ok, pure_eq_ok, getOr_eq_ok, Prod.mk.injEq] at hr
  obtain ⟨_, _, _, _, receipts, hins, rfl, _⟩ := hr
  refine ⟨h.demands, h.commitments, fun x hx => ?_, h.commitmentReceipts, h.retained⟩
  rcases (Table.mem_insert? hins).mp hx with hx | rfl
  · exact h.demandReceipts x hx
  · exact ⟨d, hd, rfl, le_refl _⟩

theorem Sound.recordCommitmentChange {receiptId retryKey : Uuid} {c : ShiftCommitment} {action : CommitmentAction}
    {reason digest : String} {result : CommitmentResult} (hc : c ∈ s.commitments)
    (hr : recordCommitmentChange s scope r receiptId retryKey c action reason digest = .ok (s', result)) : Sound s' := by
  simp only [Maru.Workforce.recordCommitmentChange, bind_eq_ok, pure_eq_ok, getOr_eq_ok,
    Prod.mk.injEq] at hr
  obtain ⟨_, _, _, _, receipts, hins, rfl, _⟩ := hr
  refine ⟨h.demands, h.commitments, h.demandReceipts, fun x hx => ?_, h.retained⟩
  rcases (Table.mem_insert? hins).mp hx with hx | rfl
  · exact h.commitmentReceipts x hx
  · exact ⟨c, hc, rfl, le_refl _⟩

end

/-! ## The commands -/

/-- A claim of the demand that is not a repeat, while the demand is open and not full, finds
fewer commitments retained than are accepted. -/
def Shifts.RetainsRoom (s : Shifts) (r : Request) (demandId : Uuid) : Prop :=
  ∀ d ∈ s.demands, d.id = demandId → d.status = .openForClaims → s.activeCount demandId < d.requiredHeadcount →
    (∀ x ∈ s.commitmentReceipts, ¬ (x.organizationId = r.organizationId ∧ x.editionId = r.editionId ∧
      x.actorId = r.actorId ∧ x.retryKey = r.retryKey)) → s.retained demandId < maxShiftCommitments

theorem organizerChange_version {s : Shifts} {w : Surroundings} {scope : Scope}
    {c c' : ShiftCommitment} {d : ShiftDemand}
    {action : CommitmentAction} {reason : String} (h : organizerChange s w scope c d action reason = .ok c') :
    c.commandVersion ≤ c'.commandVersion := by
  cases action with
  | claimed => simp only [organizerChange, throw_ne_ok] at h
  | withdrawn => simp only [organizerChange, throw_ne_ok] at h
  | completed => simp only [organizerChange, throw_ne_ok] at h
  | cancelled => simp only [organizerChange, throw_ne_ok] at h
  | confirmed =>
    simp only [organizerChange, bind_eq_ok, pure_eq_ok] at h
    obtain ⟨_, _, _, _, _, _, _, _, _, _, rfl⟩ := h
    simp
  | removed =>
    simp only [organizerChange, bind_eq_ok, pure_eq_ok] at h
    obtain ⟨_, _, rfl⟩ := h
    simp [ShiftCommitment.removedAs]

section

variable {P : Primitives} {s s' : Shifts} {w : Surroundings} {scope : Scope} {r : Request} (h : Sound s)

include h

theorem Sound.endCommitments {d : ShiftDemand} {pre : String} {action : CommitmentAction}
    {reason : String} {end_ : ShiftCommitment → ShiftCommitment} {items : List ShiftCommitment}
    (hs : items.foldlM (endCommitment P scope r d pre action reason end_) s = .ok s')
    (mem : ∀ i ∈ items, i ∈ s.commitments) (nodup : (items.map ShiftCommitment.id).Nodup)
    (same : ∀ c, SameCommitment c (end_ c)) (version : ∀ c, c.commandVersion ≤ (end_ c).commandVersion) : Sound s' := by
  induction items generalizing s with
  | nil => cases hs; exact h
  | cons i items ih =>
    rw [List.foldlM_cons, bind_eq_ok] at hs
    obtain ⟨s₁, hend, hs⟩ := hs
    simp only [endCommitment, bind_eq_ok, pure_eq_ok] at hend
    obtain ⟨s₂, hsave, ⟨s₃, _⟩, hrecord, rfl⟩ := hend
    obtain ⟨sound, hi⟩ := h.saveCommitment hsave (mem i List.mem_cons_self) (same i) (version i)
    have kept : s₃.commitments = s.commitments.save (end_ i) :=
      (recordCommitmentChange_eq_ok hrecord).2.trans (saveCommitment_eq_ok hsave).2
    refine ih (sound.recordCommitmentChange hi hrecord) hs (fun j hj => ?_) (List.nodup_cons.mp nodup).2
    rw [kept]
    exact Table.mem_save_tail (fun c => (same c).id) mem nodup hj

theorem Sound.transition {d d₁ : ShiftDemand} {l : List ShiftCommitment} {s₁ : Shifts}
    {action : DemandAction} {reason : String} {allow : Bool} (hl : lockedCommitments s d = .ok l)
    (ht : transition P s w scope r d l action reason allow = .ok (s₁, d₁)) :
    Sound s₁ ∧ s₁.demands = s.demands ∧ d₁.id = d.id ∧ d₁.commandVersion = d.commandVersion := by
  have mem : ∀ i ∈ l.filter (·.active), i ∈ s.commitments := fun i hi => ((mem_active hl).mp hi).1
  cases action with
  | created => simp only [Maru.Workforce.transition, throw_ne_ok] at ht
  | updated => simp only [Maru.Workforce.transition, throw_ne_ok] at ht
  | opened =>
    simp only [Maru.Workforce.transition, bind_eq_ok, pure_eq_ok, Prod.mk.injEq] at ht
    obtain ⟨_, _, _, _, rfl, rfl⟩ := ht
    exact ⟨h, rfl, rfl, rfl⟩
  | reopened =>
    simp only [Maru.Workforce.transition, bind_eq_ok, pure_eq_ok, Prod.mk.injEq] at ht
    obtain ⟨_, _, rfl, rfl⟩ := ht
    exact ⟨h, rfl, rfl, rfl⟩
  | locked =>
    simp only [Maru.Workforce.transition, bind_eq_ok, pure_eq_ok, Prod.mk.injEq] at ht
    obtain ⟨_, _, _, _, _, _, _, _, rfl, rfl⟩ := ht
    exact ⟨h, rfl, rfl, rfl⟩
  | completed =>
    simp only [Maru.Workforce.transition, bind_eq_ok, pure_eq_ok, Prod.mk.injEq] at ht
    obtain ⟨_, _, _, _, _, _, s₂, hend, rfl, rfl⟩ := ht
    exact ⟨h.endCommitments hend mem (nodup_active hl) (fun c => ⟨rfl, rfl, rfl, rfl, rfl, rfl⟩)
      (fun c => by simp [ShiftCommitment.completedAs]), (endCommitments_eq_ok hend).1, rfl, rfl⟩
  | cancelled =>
    simp only [Maru.Workforce.transition, bind_eq_ok, pure_eq_ok, Prod.mk.injEq] at ht
    obtain ⟨_, _, s₂, hend, rfl, rfl⟩ := ht
    exact ⟨h.endCommitments hend mem (nodup_active hl) (fun c => ⟨rfl, rfl, rfl, rfl, rfl, rfl⟩)
      (fun c => by simp [ShiftCommitment.removedAs]), (endCommitments_eq_ok hend).1, rfl, rfl⟩

theorem createShiftDemand_sound {positionId : Uuid} {input : DemandInput} {reason : String} {result : DemandResult}
    (hx : createShiftDemand P s w r positionId input reason = .ok (s', result)) : Sound s' := by
  simp only [createShiftDemand, bind_eq_ok] at hx
  obtain ⟨_, _, _, _, scope, _, _, _, fields, _, hx⟩ := hx
  split at hx
  · simp only [bind_eq_ok, pure_eq_ok, Prod.mk.injEq] at hx
    obtain ⟨_, _, rfl, _⟩ := hx
    exact h
  · simp only [bind_eq_ok] at hx
    obtain ⟨position, _, s₁, hs, hr⟩ := hx
    obtain ⟨sound, hd⟩ := h.createDemand hs
    exact sound.recordDemandChange hd hr

theorem updateShiftDemand_sound {demandId : Uuid} {expectedVersion : Int} {input : DemandInput}
    {reason : String} {result : DemandResult}
    (hx : updateShiftDemand P s w r demandId expectedVersion input reason = .ok (s', result)) : Sound s' := by
  simp only [updateShiftDemand, bind_eq_ok] at hx
  obtain ⟨_, _, _, _, _, _, scope, _, _, _, fields, _, hx⟩ := hx
  split at hx
  · simp only [bind_eq_ok, pure_eq_ok, Prod.mk.injEq] at hx
    obtain ⟨_, _, rfl, _⟩ := hx
    exact h
  · simp only [bind_eq_ok] at hx
    obtain ⟨d, hd, _, _, _, _, _, _, s₁, hs, hr⟩ := hx
    obtain ⟨sound, hd'⟩ := h.saveDemand hs (lockDemand_eq_ok hd).1 rfl (by simp)
    exact sound.recordDemandChange hd' hr

theorem transitionShiftDemand_sound {demandId : Uuid} {expectedVersion : Int}
    {action : DemandAction} {reason : String} {allow : Bool} {result : DemandResult}
    (hx : transitionShiftDemand P s w r demandId expectedVersion action reason allow = .ok (s', result)) : Sound s' := by
  simp only [transitionShiftDemand, bind_eq_ok] at hx
  obtain ⟨_, _, _, _, _, _, scope, _, _, _, hx⟩ := hx
  split at hx
  · simp only [bind_eq_ok, pure_eq_ok, Prod.mk.injEq] at hx
    obtain ⟨_, _, rfl, _⟩ := hx
    exact h
  · simp only [bind_eq_ok] at hx
    obtain ⟨d, hd, l, hl, _, _, ⟨s₁, d₁⟩, ht, s₂, hs, hr⟩ := hx
    obtain ⟨sound, demands, hid, hversion⟩ := h.transition hl ht
    have hmem : d ∈ s₁.demands := demands ▸ (lockDemand_eq_ok hd).1
    obtain ⟨sound', hd'⟩ := sound.saveDemand hs hmem hid (by simp [ShiftDemand.nextVersion, hversion])
    exact sound'.recordDemandChange hd' hr

/-- A claim that is not answered from its receipt, of a demand with room for one more row. -/
theorem claimShift_sound {demandId : Uuid} {expectedVersion : Int} {result : CommitmentResult}
    (room : s.RetainsRoom r demandId)
      (hx : claimShift P s w r demandId expectedVersion = .ok (s', result)) : Sound s' := by
  simp only [claimShift, bind_eq_ok] at hx
  obtain ⟨_, _, _, _, scope, hscope, _, _, hx⟩ := hx
  split at hx
  · simp only [bind_eq_ok, pure_eq_ok, Prod.mk.injEq] at hx
    obtain ⟨_, _, rfl, _⟩ := hx
    exact h
  · rename_i none
    simp only [bind_eq_ok, require_eq_ok] at hx
    obtain ⟨d, hd, _, _, _, hopen, _, _, l, hl, _, hroom, _, _, _, _, _, _, _, _, s₁, hs, hr⟩ := hx
    obtain ⟨hmem, rfl⟩ := lockDemand_eq_ok hd
    rw [length_active hl] at hroom
    simp only [lockSelfScope, lockWorkforceEditionWriteScope, bind_eq_ok, pure_eq_ok, getOr_eq_ok] at hscope
    obtain ⟨seriesId, _, edition, hedition, _, _, _, _, rfl⟩ := hscope
    obtain ⟨hid, _, horg, _⟩ : edition.id = r.editionId ∧ edition.adoptsWorkforce ∧
        edition.organizationId = r.organizationId ∧ edition.seriesId = seriesId := by
      simpa using List.find?_some hedition
    have unused : ∀ x ∈ s.commitmentReceipts, ¬ (x.organizationId = r.organizationId ∧
        x.editionId = r.editionId ∧ x.actorId = r.actorId ∧ x.retryKey = r.retryKey) := by
      intro x hx same
      have := List.find?_eq_none.mp none x hx
      rw [horg, hid] at this
      simp [same] at this
    obtain ⟨sound, hc⟩ := h.createCommitment (room d hmem rfl hopen hroom unused) hs
    exact sound.recordCommitmentChange hc hr

theorem withdrawShiftClaim_sound {commitmentId : Uuid} {expectedVersion : Int} {result : CommitmentResult}
    (hx : withdrawShiftClaim P s w r commitmentId expectedVersion = .ok (s', result)) : Sound s' := by
  simp only [withdrawShiftClaim, bind_eq_ok] at hx
  obtain ⟨_, _, _, _, scope, _, _, _, hx⟩ := hx
  split at hx
  · simp only [bind_eq_ok, pure_eq_ok, Prod.mk.injEq] at hx
    obtain ⟨_, _, rfl, _⟩ := hx
    exact h
  · simp only [bind_eq_ok] at hx
    obtain ⟨⟨c, d⟩, hcd, _, _, _, _, _, _, s₁, hs, hr⟩ := hx
    obtain ⟨sound, hc⟩ := h.saveCommitment hs (lockCommitment_eq_ok hcd).1
      ⟨rfl, rfl, rfl, rfl, rfl, rfl⟩ (by simp [ShiftCommitment.removedAs])
    exact sound.recordCommitmentChange hc hr

theorem organizerCommitmentChange_sound {commitmentId : Uuid} {expectedVersion : Int}
    {action : CommitmentAction} {reason : String} {result : CommitmentResult}
    (hx : organizerCommitmentChange P s w r commitmentId expectedVersion action reason =
      .ok (s', result)) : Sound s' := by
  simp only [organizerCommitmentChange, bind_eq_ok] at hx
  obtain ⟨_, _, _, _, _, _, scope, _, _, _, hx⟩ := hx
  split at hx
  · simp only [bind_eq_ok, pure_eq_ok, Prod.mk.injEq] at hx
    obtain ⟨_, _, rfl, _⟩ := hx
    exact h
  · simp only [bind_eq_ok] at hx
    obtain ⟨⟨c, d⟩, hcd, _, _, _, _, c', hchange, s₁, hs, hr⟩ := hx
    have version := organizerChange_version hchange
    obtain ⟨sound, hc⟩ := h.saveCommitment hs (lockCommitment_eq_ok hcd).1 (organizerChange_eq_ok hchange).2.1 version
    exact sound.recordCommitmentChange hc hr

theorem execShift_sound {call : ShiftCall} {result : ShiftResult}
    (room : ∀ demandId version, call.command = .claim demandId version → s.RetainsRoom call.request demandId)
    (hx : execShift P s call = .ok (s', result)) : Sound s' := by
  obtain ⟨w, r, command⟩ := call
  cases command with
  | create positionId input reason =>
    simp only [execShift, bind_eq_ok, pure_eq_ok, Prod.mk.injEq] at hx
    obtain ⟨⟨_, _⟩, hx, rfl, _⟩ := hx
    exact createShiftDemand_sound h hx
  | update demandId expectedVersion input reason =>
    simp only [execShift, bind_eq_ok, pure_eq_ok, Prod.mk.injEq] at hx
    obtain ⟨⟨_, _⟩, hx, rfl, _⟩ := hx
    exact updateShiftDemand_sound h hx
  | transition action demandId expectedVersion reason allow =>
    simp only [execShift, bind_eq_ok, pure_eq_ok, Prod.mk.injEq] at hx
    obtain ⟨⟨_, _⟩, hx, rfl, _⟩ := hx
    exact transitionShiftDemand_sound h hx
  | claim demandId expectedVersion =>
    simp only [execShift, bind_eq_ok, pure_eq_ok, Prod.mk.injEq] at hx
    obtain ⟨⟨_, _⟩, hx, rfl, _⟩ := hx
    exact claimShift_sound h (room demandId expectedVersion rfl) hx
  | withdraw commitmentId expectedVersion =>
    simp only [execShift, bind_eq_ok, pure_eq_ok, Prod.mk.injEq] at hx
    obtain ⟨⟨_, _⟩, hx, rfl, _⟩ := hx
    exact withdrawShiftClaim_sound h hx
  | organizer action commitmentId expectedVersion reason =>
    simp only [execShift, bind_eq_ok, pure_eq_ok, Prod.mk.injEq] at hx
    obtain ⟨⟨_, _⟩, hx, rfl, _⟩ := hx
    exact organizerCommitmentChange_sound h hx

end

/-- The condition on the calls of a run. -/
def ClaimsRetainRoom (s : Shifts) (call : ShiftCall) : Prop :=
  ∀ demandId version, call.command = .claim demandId version → s.RetainsRoom call.request demandId

theorem run_sound {P : Primitives} {s : Shifts} (h : Sound s) {calls : List ShiftCall}
    (room : (shiftMachine P).Along ClaimsRetainRoom s calls) : Sound ((shiftMachine P).run s calls) := by
  have keep : ∀ s call s' result, Sound s → ClaimsRetainRoom s call → (shiftMachine P).exec s call =
      .ok (s', result) → Sound s' := fun _ _ _ _ sound room hx => execShift_sound sound room hx
  exact Machine.run_invariant_along keep h room

end Maru.Workforce

import Maru.Framework.EventLog
import Maru.Scheduling.CandidateHistory

/-!
# Candidates and their authors over every run

Every run keeps `Planning.Lineage`: each revision fits those before it, a candidate's creator
wrote its first revision, and the placements of a manifest were introduced by revisions that its
revision is derived from.
-/

namespace Maru.Scheduling

variable {lib : Primitives} {isoformat : Int → String} {planning planning' : Planning}

/-- The revision before which others were there fits them. -/
def FitsLog (earlier : Option (List SchedulingCandidateRevision)) (r : SchedulingCandidateRevision) : Prop :=
  Fits (earlier.getD []) r

structure Planning.Lineage (lib : Primitives) (planning : Planning) : Prop where
  consistent : planning.Consistent lib
  fits : EventLog.Sound (fun earlier r => earlier.getD [] ++ [r]) FitsLog planning.revisions.rows
  creators : ∀ r ∈ planning.revisions, r.sequence = 1 →
    ∃ c ∈ planning.candidates, c.id = r.candidateId ∧ c.createdById = r.actorId
  few : planning.CandidatesFew
  short : ∀ r ∈ planning.revisions, (planning.manifest r).length ≤ maxOccurrences
  introduced : ∀ r ∈ planning.revisions, ∀ entry ∈ planning.manifest r, ∃ p ∈ planning.placements,
    p.id = entry.2 ∧ p.organizationId = r.organizationId ∧ p.editionId = r.editionId ∧
      ∃ s ∈ planning.revisions, s.id = p.introducedIn ∧ planning.Reaches r s

theorem Planning.Lineage.fits_of (h : planning.Lineage lib) {before after : List SchedulingCandidateRevision}
    {r : SchedulingCandidateRevision} (split : planning.revisions.rows = before ++ r :: after) : Fits before r := by
  have fits := h.fits before r after split
  rwa [FitsLog, EventLog.replay_log] at fits

theorem Planning.Reaches.mono {r s : SchedulingCandidateRevision} (h : planning.Reaches r s)
    (kept : ∀ t ∈ planning.revisions, t ∈ planning'.revisions) : planning'.Reaches r s :=
  Relation.ReflTransGen.mono (fun _ t step => ⟨kept t step.1, step.2⟩) _ _ h

/-- What a command wrote keeps the lineage of all revisions. -/
theorem Planning.Lineage.wrote {command : CandidateCommand} (h : planning.Lineage lib)
    (w : @CandidateCommand.Wrote lib command planning planning') : planning'.Lineage lib := by
  obtain ⟨consistent, candidate, revision, members, written, -, derived⟩ := w
  have kept : ∀ t ∈ planning.revisions, t ∈ planning'.revisions := fun t ht => (mem_revisions written).mpr (.inl ht)
  have written_mem : revision ∈ planning'.revisions := (mem_revisions written).mpr (.inr rfl)
  refine ⟨consistent, ?_, fun r hr first => ?_, written.advanced.few h.few, fun r hr => ?_,
    fun r hr entry he => ?_⟩
  · rw [written.appended.revisions]
    refine h.fits.concat ?_
    rw [FitsLog, EventLog.replay_log]
    exact derived.fits
  · rcases (mem_revisions written).mp hr with hr | rfl
    · obtain ⟨c, hc, owns, creator⟩ := h.creators r hr first
      by_cases same : c.id = candidate.id
      · exact ⟨candidate, (written.advanced.mem _).mpr (.inr rfl), same.symm.trans owns,
          (written.advanced.creator c hc same).symm.trans creator⟩
      · exact ⟨c, (written.advanced.mem c).mpr (.inl ⟨hc, same⟩), owns, creator⟩
    · exact ⟨candidate, (written.advanced.mem _).mpr (.inr rfl), written.candidateId.symm, derived.creator first⟩
  · rcases (mem_revisions written).mp hr with hr | rfl
    · rw [written.manifest_kept hr]
      exact h.short r hr
    · rw [written.manifest h.consistent, (sortBy_perm (·.1) members).length_eq]
      exact written.appended.short
  · have before : ∀ r ∈ planning.revisions, ∀ entry ∈ planning.manifest r, ∃ p ∈ planning'.placements, p.id = entry.2 ∧
        p.organizationId = r.organizationId ∧ p.editionId = r.editionId ∧
          ∃ s ∈ planning'.revisions, s.id = p.introducedIn ∧ planning'.Reaches r s := by
      intro r hr entry he
      obtain ⟨p, hp, is, organization, edition, s, hs, by_, reaches⟩ := h.introduced r hr entry he
      exact ⟨p, written.appended.placements p hp, is, organization, edition, s, kept s hs, by_, reaches.mono kept⟩
    rcases (mem_revisions written).mp hr with hr | rfl
    · rw [written.manifest_kept hr] at he
      exact before r hr entry he
    · rcases derived.entries entry he with ⟨source, hs, steps, beside, taken⟩ | ⟨p, hp, is, organization, edition, by_⟩
      · obtain ⟨p, hp, is, organization, edition, s, hs', introducer, reaches⟩ := before source hs entry taken
        exact ⟨p, hp, is, organization.trans beside.1, edition.trans beside.2, s, hs', introducer,
          Relation.ReflTransGen.head ⟨kept source hs, steps⟩ reaches⟩
      · exact ⟨p, hp, is, organization, edition, r, written_mem, by_.symm, Relation.ReflTransGen.refl⟩

theorem lineage_empty (structure_ : Structure) : (Planning.empty structure_).Lineage lib where
  consistent := consistent_empty structure_
  fits := EventLog.Sound.nil
  creators := fun _ hr => absurd hr Table.not_mem_empty
  few := fun _ _ => Nat.zero_le _
  short := fun _ hr => absurd hr Table.not_mem_empty
  introduced := fun _ hr => absurd hr Table.not_mem_empty

theorem candidateMachine_lineage_step {store store' : Store Planning} {step : CandidateStep} {answer : Option Answer}
    (lineage : store.rows.Lineage lib) (h : (candidateMachine lib isoformat).exec store step = .ok (store', answer)) :
    store'.rows.Lineage lib := by
  cases step with
  | others controls receipts structure_ =>
    have consistent := (candidateMachine_step lineage.consistent h).1
    cases h
    exact ⟨consistent, lineage.fits, lineage.creators, lineage.few, lineage.short, lineage.introduced⟩
  | command world request draws receiptId command =>
    obtain ⟨⟨next, answered⟩, executed, h⟩ := bind_eq_ok.mp h
    cases h
    rcases CandidateCommand.execute_wrote lineage.consistent executed with ⟨-, same⟩ | ⟨-, wrote⟩
    · rw [same]
      exact lineage
    · exact lineage.wrote wrote

theorem candidateMachine_lineage (structure_ : Structure) (steps : List CandidateStep) :
    ((candidateMachine lib isoformat).run (Store.empty (Planning.empty structure_)) steps).rows.Lineage lib :=
  Machine.run_invariant (I := fun store : Store Planning => store.rows.Lineage lib)
    (fun _ _ _ _ lineage h => candidateMachine_lineage_step lineage h) (lineage_empty structure_) steps

end Maru.Scheduling

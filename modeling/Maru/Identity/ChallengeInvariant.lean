import Maru.Identity.Challenges

/-!
# What the identity commands keep

What each command leaves of the accounts, the invitations and the challenges, and the invariant that
follows: the subject of an invitation that is not accepted stays reserved, and a challenge is for
the email of its account (`StoreInv`).
-/

namespace Maru.Identity

variable {lib : Library}

/-! ## The invariant -/

/-- What the guard asks of the subject of an invitation that is not accepted. -/
structure Account.Subject (account : Account) : Prop where
  kind : account.accountKind = .person
  staff : account.isStaff = false
  superuser : account.isSuperuser = false
  reserved : account.reserved = true

variable (lib) in
structure StoreInv (store : Store) : Prop where
  subject : ∀ accountId invitation, store.invitations.get? accountId = some invitation →
    ∃ account, store.accounts.get? accountId = some account ∧ (invitation.status ≠ .accepted → account.Subject)
  retained : ∀ accountId invitation, store.invitations.get? accountId = some invitation →
    invitation.retained = true → invitation.status ≠ .accepted ∧ invitation.status ≠ .pending
  contact : ∀ challenge ∈ store.challenges, ∃ account, store.accounts.get? challenge.accountId =
    some account ∧ lib.casefold challenge.emailSnapshot = lib.casefold account.email
  early : ∀ challenge ∈ store.challenges, ∀ t, challenge.consumedAt = some t → t < challenge.expiresAt

theorem storeInv_start (accounts : Table Account.id) : StoreInv lib (.start accounts) where
  subject := fun _ _ h => nomatch h
  retained := fun _ _ h => nomatch h
  contact := fun _ h => nomatch h
  early := fun _ h => nomatch h

/-- When an account has been verified. -/
def Store.verifiedAt (store : Store) (accountId : Uuid) : Option Nat :=
  (store.accounts.get? accountId).bind (·.emailVerifiedAt)

/-- What every command but a consumption and an acceptance keeps. -/
structure Keeps (store store' : Store) : Prop where
  emails : ∀ challenge ∈ store.challenges, ∀ account, store.accounts.get? challenge.accountId = some account →
    ∃ account', store'.accounts.get? challenge.accountId = some account' ∧ account'.email = account.email
  challenges : store'.challenges = store.challenges

/-! ## Updates of accounts -/

theorem saveAccount_eq_ok {store store' : Store} {old new : Account} (h : store.saveAccount old new = .ok store') :
    store' = { store with accounts := store.accounts.save new } := by
  unfold Store.saveAccount at h
  simp only [seq_eq_ok, pure_eq_ok] at h
  exact h.2.symm

/-- The account of a disposed invitation can be neither verified nor given a password. -/
theorem saveAccount_retained {store : Store} {old new : Account} {invitation : PlatformAccountInvitation}
    (h : store.invitations.get? old.id = some invitation) (retained : invitation.retained = true)
    (changed : new ≠ old) (taken : new.emailVerifiedAt ≠ none ∨ new.password ≠ none) :
    ∃ message, store.saveAccount old new = .error (.database message) := by
  unfold Store.saveAccount Store.retainedAccountGuard
  rw [h, Option.any_some, retained, if_neg (by simp)]
  split_ifs
  · rw [require, if_neg changed]
    exact ⟨_, rfl⟩
  · rw [require, if_neg]
    · exact ⟨_, rfl⟩
    · rintro ⟨_, _, _, _, _, _, _, verified, password, _⟩
      rcases taken with h | h
      · exact h verified
      · exact h password

theorem saveAccount_free {store : Store} {old new : Account}
    (h : ∀ invitation, store.invitations.get? old.id = some invitation → invitation.retained = false) :
    store.saveAccount old new = .ok { store with accounts := store.accounts.save new } := by
  unfold Store.saveAccount Store.retainedAccountGuard
  rw [if_pos]
  · rfl
  · cases hi : store.invitations.get? old.id with
    | none => rfl
    | some invitation => rw [Option.any_some, h invitation hi]

/-! ## Commands on invitations -/

/-- What a command other than a consumption does: an account is verified only by an acceptance. -/
structure Changes (lib : Library) (store store' : Store) (accepted : Option Uuid) : Prop where
  inv : StoreInv lib store'
  keeps : Keeps store store'
  verified : ∀ accountId, accepted ≠ some accountId → store'.verifiedAt accountId = store.verifiedAt accountId

/-- A new account that is not verified. -/
theorem insertAccount {store : Store} (inv : StoreInv lib store) {account : Account} {accounts : Table Account.id}
    (h : store.accounts.insert? account = some accounts) (verified : account.emailVerifiedAt = none) :
    Changes lib store { store with accounts } none := by
  have get := Table.get?_insert? h
  have fresh := Table.exists_insert?_eq_some.mp ⟨accounts, h⟩
  have kept {accountId : Uuid} {old : Account} (ho : store.accounts.get? accountId = some old) :
      accounts.get? accountId = some old := by
    rw [get accountId, if_neg]
    · exact ho
    · rintro rfl
      rw [fresh] at ho
      cases ho
  refine ⟨⟨fun accountId invitation hi => ?_, inv.retained, fun challenge hc => ?_, inv.early⟩,
    ⟨fun challenge hc old ho => ⟨old, kept ho, rfl⟩, rfl⟩, fun accountId _ => ?_⟩
  · obtain ⟨old, ho, subject⟩ := inv.subject accountId invitation hi
    exact ⟨old, kept ho, subject⟩
  · obtain ⟨old, ho, contact⟩ := inv.contact challenge hc
    exact ⟨old, kept ho, contact⟩
  · unfold Store.verifiedAt
    rw [show ({ store with accounts } : Store).accounts = accounts from rfl, get accountId]
    split_ifs with same
    · rw [same, fresh, Option.bind_some, verified]
      rfl
    · rfl

/-- The invitation of a reserved account, new or changed, that is not accepted. -/
theorem storeInv_invitation {store : Store} (inv : StoreInv lib store)
    {invitations : Table PlatformAccountInvitation.accountId}
    {invitation : PlatformAccountInvitation} {account : Account}
    (get : ∀ accountId, invitations.get? accountId =
      if accountId = invitation.accountId then some invitation else store.invitations.get? accountId)
    (ha : store.accounts.get? invitation.accountId = some account)
      (subject : invitation.status ≠ .accepted → account.Subject)
    (retained : invitation.retained = true → invitation.status ≠ .accepted ∧ invitation.status ≠ .pending) :
    StoreInv lib { store with invitations } := by
  refine ⟨fun accountId other ho => ?_, fun accountId other ho => ?_, inv.contact, inv.early⟩
  · replace ho : invitations.get? accountId = some other := ho
    rw [get accountId] at ho
    split_ifs at ho with same
    · cases ho
      subst same
      exact ⟨account, ha, subject⟩
    · exact inv.subject accountId other ho
  · replace ho : invitations.get? accountId = some other := ho
    rw [get accountId] at ho
    split_ifs at ho with same
    · cases ho
      exact retained
    · exact inv.retained accountId other ho

/-- An update of an account. Its email changes only where there is no challenge for it. -/
theorem updateAccount {store : Store} (inv : StoreInv lib store) {old : Account} (new : Account)
    (accepted : Option Uuid) (ho : store.accounts.get? old.id = some old) (id : new.id = old.id)
    (email : (∃ challenge ∈ store.challenges, challenge.accountId = old.id) → new.email = old.email)
    (subject : ∀ invitation, store.invitations.get? old.id = some invitation →
      invitation.status ≠ .accepted → new.Subject)
    (verified : accepted = some old.id ∨ new.emailVerifiedAt = old.emailVerifiedAt) :
    Changes lib store { store with accounts := store.accounts.save new } accepted := by
  have self : (store.accounts.save new).get? old.id = some new := by
    rw [← id] at ho ⊢
    exact Table.get?_save_self ho
  have other {accountId : Uuid} (ne : accountId ≠ old.id) :
      (store.accounts.save new).get? accountId = store.accounts.get? accountId :=
    Table.get?_save_of_ne (by rwa [id])
  refine ⟨⟨fun accountId invitation hi => ?_, inv.retained, fun challenge hc => ?_, inv.early⟩,
    ⟨fun challenge hc account ha => ?_, rfl⟩, fun accountId ne => ?_⟩
  · by_cases same : accountId = old.id
    · subst same
      exact ⟨new, self, subject invitation hi⟩
    · obtain ⟨account, ha, kept⟩ := inv.subject accountId invitation hi
      exact ⟨account, (other same).trans ha, kept⟩
  · obtain ⟨account, ha, contact⟩ := inv.contact challenge hc
    by_cases same : challenge.accountId = old.id
    · rw [same, ho] at ha
      cases ha
      refine ⟨new, by rw [same, self], ?_⟩
      rw [contact, email ⟨challenge, hc, same⟩]
    · exact ⟨account, (other same).trans ha, contact⟩
  · by_cases same : challenge.accountId = old.id
    · rw [same, ho] at ha
      cases ha
      exact ⟨new, by rw [same, self], email ⟨challenge, hc, same⟩⟩
    · exact ⟨account, (other same).trans ha, rfl⟩
  · unfold Store.verifiedAt
    by_cases same : accountId = old.id
    · subst same
      rw [ho, self, Option.bind_some, Option.bind_some]
      exact verified.resolve_left ne
    · rw [other same]

theorem createInvitation_changes {store store' : Store} (inv : StoreInv lib store)
    {email loginHandle displayName : String}
    {sur : Surroundings} (h : store.createInvitation lib email loginHandle displayName sur = .ok store') :
    Changes lib store store' none := by
  unfold Store.createInvitation at h
  simp only [bind_eq_ok, require_eq_ok, getOr_eq_ok, pure_eq_ok] at h
  obtain ⟨_, _, _, _, accounts, ha, invitations, hi, _, _, rfl⟩ := h
  have inserted := insertAccount inv ha rfl
  have get := Table.get?_insert? ha
  refine ⟨storeInv_invitation inserted.inv (Table.get?_insert? hi) ((get _).trans (if_pos rfl))
    (fun _ => ⟨rfl, rfl, rfl, rfl⟩) (fun retained => nomatch retained), ⟨inserted.keeps.emails, rfl⟩, inserted.verified⟩

/-- An invitation that is pending is not disposed of. -/
theorem StoreInv.unretained {store : Store} (inv : StoreInv lib store) {accountId : Uuid}
    {invitation : PlatformAccountInvitation} (hi : store.invitations.get? accountId = some invitation)
    (pending : invitation.status = .pending) : invitation.retained = false := by
  cases retained : invitation.retained with
  | false => rfl
  | true => exact absurd pending (inv.retained accountId invitation hi retained).2

/-- The invitations after the one of an account has been saved. -/
theorem get?_save_invitation {store : Store} {accountId : Uuid} {invitation : PlatformAccountInvitation}
    (hi : store.invitations.get? accountId = some invitation) (changed : PlatformAccountInvitation)
    (same : changed.accountId = invitation.accountId)
    (other : Uuid) : (store.invitations.save changed).get? other =
      if other = changed.accountId then some changed else store.invitations.get? other := by
  have own := (Table.get?_eq_some.mp hi).2
  by_cases eq : other = changed.accountId
  · rw [if_pos eq, eq]
    refine Table.get?_save_self (b := invitation) ?_
    rw [same, own, hi]
  · rw [if_neg eq]
    exact Table.get?_save_of_ne eq

theorem changeInvitation_changes {store store' : Store} (inv : StoreInv lib store) {accountId : Uuid}
    {allowed : PlatformAccountInvitation → Bool} {change : PlatformAccountInvitation → PlatformAccountInvitation}
    (h : store.changeInvitation accountId allowed change = .ok store')
    (checked : ∀ invitation, allowed invitation = true →
      invitation.status ≠ .accepted ∧ (invitation.status = .pending ∨ invitation.retained = false))
    (changed : ∀ invitation, (change invitation).accountId = invitation.accountId ∧
      (change invitation).retained = invitation.retained ∧ (change invitation).status ≠ .accepted) :
    Changes lib store store' none := by
  unfold Store.changeInvitation at h
  simp only [bind_eq_ok, require_eq_ok, getOr_eq_ok, pure_eq_ok] at h
  obtain ⟨invitation, hi, _, ok, _, _, rfl⟩ := h
  obtain ⟨unaccepted, open'⟩ := checked invitation ok
  obtain ⟨account, kept, status⟩ := changed invitation
  have own := (Table.get?_eq_some.mp hi).2
  have unretained : invitation.retained = false := open'.elim (inv.unretained hi) id
  obtain ⟨subject, hs, reserved⟩ := inv.subject accountId invitation hi
  refine ⟨storeInv_invitation inv (fun other => ?_) (by rw [account, own]; exact hs) (fun _ => reserved unaccepted)
    (fun retained => ?_), ⟨fun _ _ old ho => ⟨old, ho, rfl⟩, rfl⟩, fun _ _ => rfl⟩
  · exact get?_save_invitation hi _ account other
  · rw [kept, unretained] at retained
    cases retained

theorem reissueInvitation_changes {store store' : Store} (inv : StoreInv lib store) {accountId : Uuid} {now : Nat}
    (h : store.reissueInvitation accountId now = .ok store') : Changes lib store store' none := by
  refine changeInvitation_changes inv h (fun invitation ok => ?_) fun _ => ⟨rfl, rfl, by simp⟩
  obtain ⟨unaccepted, _, unretained⟩ := of_decide_eq_true ok
  exact ⟨unaccepted, .inr unretained⟩

theorem revokeInvitation_changes {store store' : Store} (inv : StoreInv lib store) {accountId : Uuid}
    (h : store.revokeInvitation accountId = .ok store') : Changes lib store store' none := by
  refine changeInvitation_changes inv h (fun invitation ok => ?_) fun _ => ⟨rfl, rfl, by simp⟩
  have pending := of_decide_eq_true ok
  exact ⟨by simp [pending], .inl pending⟩

theorem expireInvitation_changes {store store' : Store} (inv : StoreInv lib store) {accountId : Uuid} {now : Nat}
    (h : store.expireInvitation accountId now = .ok store') : Changes lib store store' none := by
  refine changeInvitation_changes inv h (fun invitation ok => ?_) fun _ => ⟨rfl, rfl, by simp⟩
  have pending := (of_decide_eq_true ok).1
  exact ⟨by simp [pending], .inl pending⟩

theorem acceptInvitation_changes {store store' : Store} (inv : StoreInv lib store)
    {accountId : Uuid} {newPassword : String}
    {now : Nat} (h : store.acceptInvitation lib accountId newPassword now = .ok store') :
    Changes lib store store' (some accountId) := by
  unfold Store.acceptInvitation at h
  simp only [bind_eq_ok, require_eq_ok, getOr_eq_ok, pure_eq_ok] at h
  obtain ⟨invitation, hi, account, ha, _, ok, _, _, saved, hs, _, _, _, _, rfl⟩ := h
  obtain rfl := saveAccount_eq_ok hs
  have own := (Table.get?_eq_some.mp hi).2
  obtain rfl := (Table.get?_eq_some.mp ha).2
  have unretained := inv.unretained hi ok.1
  -- The invitation is accepted first, and then its account may be anything.
  have get := get?_save_invitation hi { invitation with status := .accepted } rfl
  have accepted := storeInv_invitation inv get (by rw [own]; exact ha) (fun e => absurd rfl e) (fun retained => by
    rw [unretained] at retained
    cases retained)
  have updated := updateAccount accepted
    { account with password := some (lib.makePassword newPassword), isActive := true, emailVerifiedAt := some now }
    (some account.id) ha rfl (fun _ => rfl) (fun other ho status => ?_) (.inl rfl)
  · exact ⟨updated.inv, ⟨updated.keeps.emails, rfl⟩, updated.verified⟩
  · rw [get, if_pos own.symm] at ho
    cases ho
    exact absurd rfl status

theorem disposeInvitation_changes {store store' : Store} (inv : StoreInv lib store) {accountId : Uuid}
    {tombstoneEmail : String} (h : store.disposeInvitation lib accountId tombstoneEmail = .ok store') :
    Changes lib store store' none := by
  unfold Store.disposeInvitation at h
  simp only [bind_eq_ok, require_eq_ok, getOr_eq_ok, pure_eq_ok] at h
  obtain ⟨invitation, hi, account, ha, _, ⟨status, _⟩, _, ⟨kind, staff, superuser, reserved⟩,
    _, free, _, _, _, _, saved, hs, _, _,
    rfl⟩ := h
  obtain rfl := saveAccount_eq_ok hs
  have own := (Table.get?_eq_some.mp hi).2
  obtain rfl := (Table.get?_eq_some.mp ha).2
  have get := get?_save_invitation hi { invitation with retained := true } rfl
  have subject : account.Subject := ⟨kind, staff, superuser, reserved⟩
  have retained := storeInv_invitation inv get (by rw [own]; exact ha) (fun _ => subject) fun _ => by
    rcases status with status | status
    · simp [status]
    · simp [status]
  have updated := updateAccount retained { account with
      email := tombstoneEmail, loginHandle := "", displayName := "" } none ha rfl
    (fun verifiable => verifiable.elim fun challenge of => absurd of.2 (free challenge of.1))
    (fun _ _ _ => ⟨kind, staff, superuser, reserved⟩) (.inr rfl)
  exact ⟨updated.inv, ⟨updated.keeps.emails, rfl⟩, updated.verified⟩

theorem deactivateAccount_changes {store store' : Store} (inv : StoreInv lib store) {accountId : Uuid}
    (h : store.deactivateAccount accountId = .ok store') : Changes lib store store' none := by
  unfold Store.deactivateAccount at h
  simp only [bind_eq_ok, require_eq_ok, getOr_eq_ok, pure_eq_ok] at h
  obtain ⟨account, ha, _, _, _, active, saved, hs, _, _, rfl⟩ := h
  obtain rfl := saveAccount_eq_ok hs
  obtain rfl := (Table.get?_eq_some.mp ha).2
  refine updateAccount inv { account with isActive :=
    false } none ha rfl (fun _ => rfl) (fun invitation hi status => ?_) (.inr rfl)
  obtain ⟨subject, hs, reserved⟩ := inv.subject account.id invitation hi
  rw [ha] at hs
  cases hs
  have inactive := of_decide_eq_true (reserved status).reserved
  rw [active] at inactive
  cases inactive.1

theorem Changes.buckets {store : Store} (inv : StoreInv lib store) (buckets : BucketStore) :
    Changes lib store { store with buckets } none :=
  ⟨⟨inv.subject, inv.retained, inv.contact, inv.early⟩, ⟨fun _ _ account ha => ⟨account, ha, rfl⟩, rfl⟩, fun _ _ => rfl⟩

theorem Changes.trans {s₁ s₂ s₃ : Store} (h : Changes lib s₁ s₂ none)
    (h' : Changes lib s₂ s₃ none) : Changes lib s₁ s₃ none := by
  refine ⟨h'.inv, ⟨fun challenge hc account ha => ?_, h'.keeps.challenges.trans h.keeps.challenges⟩, fun accountId ne =>
    (h'.verified accountId ne).trans (h.verified accountId ne)⟩
  obtain ⟨account₂, ha₂, email₂⟩ := h.keeps.emails challenge hc account ha
  obtain ⟨account₃, ha₃, email₃⟩ := h'.keeps.emails challenge (by rwa [h.keeps.challenges]) account₂ ha₂
  exact ⟨account₃, ha₃, email₃.trans email₂⟩

/-! ## Issuing -/

variable (lib) in
/-- What an issue writes: a challenge with the digest of the token, for the
email that the account has. -/
structure Issues (store store' : Store) (issued : IssuedToken) : Prop where
  account : ∃ account, store.accounts.get? issued.accountId = some account ∧ account.email = issued.email
  challenge : ∃ challenge, store.challenges.insert? challenge = some store'.challenges ∧
    challenge.tokenDigest = lib.tokenDigest issued.token ∧ challenge.purpose = issued.purpose ∧
    challenge.accountId = issued.accountId ∧ challenge.expiresAt = issued.expiresAt ∧ challenge.consumedAt = none ∧
    lib.casefold challenge.emailSnapshot = lib.casefold issued.email
  accounts : store'.accounts = store.accounts
  invitations : store'.invitations = store.invitations

variable (lib) in
/-- An operation that may issue a token, and changes nothing else but for a new account. -/
def Issuing (store : Store) (outcome : Outcome (Option IssuedToken)) : Prop :=
  ∃ middle, Changes lib store middle none ∧
    ((outcome.1 = middle ∧ ∀ issued, outcome.2 ≠ .ok (some issued)) ∨
      ∃ issued, outcome.2 = .ok (some issued) ∧ Issues lib middle outcome.1 issued)

theorem createChallenge_issues {store store' : Store} {account : Account} {purpose : Purpose}
    {fingerprint sourceChannel : String} {sur : Surroundings} {issued : IssuedToken}
    (ha : store.accounts.get? account.id = some account)
    (h : store.createChallenge lib account purpose fingerprint sourceChannel sur = .ok (store', issued)) :
    Issues lib store store' issued := by
  unfold Store.createChallenge at h
  simp only [bind_eq_ok, require_eq_ok, getOr_eq_ok, pure_eq_ok] at h
  obtain ⟨_, _, _, _, _, contact, _, _, challenges, inserted, _, _, eq⟩ := h
  cases eq
  exact ⟨⟨account, ha, rfl⟩, ⟨_, inserted, rfl, rfl, rfl, rfl, rfl, contact⟩, rfl, rfl⟩

theorem Issuing.of_failure {store : Store} (inv : StoreInv lib store) (error : IdentityError) :
    Issuing lib store (store, .error error) :=
  ⟨store, .buckets inv store.buckets, .inl ⟨rfl, nofun⟩⟩

/-- What an operation issues after a change. -/
theorem Issuing.of_changes {store middle : Store} (h : Changes lib store middle none)
    {outcome : Outcome (Option IssuedToken)} (issuing : Issuing lib middle outcome) : Issuing lib store outcome := by
  obtain ⟨last, changes, what⟩ := issuing
  exact ⟨last, h.trans changes, what⟩

/-- What follows an attempt that is counted. -/
theorem issuing_enforceAbuseLimit {store : Store} (inv : StoreInv lib store)
    {flow subjectDigest : String} {now : Nat} {rest : Store → Unit → Outcome (Option IssuedToken)}
    (h : ∀ buckets, Issuing lib { store with buckets } (rest { store with buckets } ())) :
    Issuing lib store ((store.enforceAbuseLimit flow subjectDigest now).next rest) := by
  unfold Store.enforceAbuseLimit
  dsimp only
  obtain ⟨buckets, hb⟩ : ∃ b, b = (enforceAbuseLimit store.buckets ⟨flow, subjectDigest, now⟩).1 := ⟨_, rfl⟩
  rw [← hb]
  have changes := Changes.buckets inv buckets
  split_ifs
  · exact .of_changes changes (h buckets)
  · exact .of_changes changes (.of_failure changes.inv _)

theorem next_next {α β γ : Type} (first : Outcome α) (f : Store → α → Outcome β) (g : Store →
    β → Outcome γ) : (first.next f).next g = first.next fun store a => (f store a).next g := by
  obtain ⟨store, result⟩ := first
  cases result <;> rfl

theorem issuing_issueIdentityChallenge {store : Store} (inv : StoreInv lib store) {account : Account}
    (ha : store.accounts.get? account.id = some account)
      (purpose fingerprint sourceChannel : String) (sur : Surroundings) :
    Issuing lib store ((store.issueIdentityChallenge lib account purpose fingerprint sourceChannel sur).next
      fun store issued => (store, .ok (some issued))) := by
  unfold Store.issueIdentityChallenge
  cases Purpose.ofValue? purpose with
  | none => exact .of_failure inv _
  | some purpose =>
    dsimp only
    rw [next_next]
    refine issuing_enforceAbuseLimit inv fun buckets => ?_
    have counted := Changes.buckets inv buckets
    unfold Store.commit
    cases h : ({ store with buckets } : Store).createChallenge lib account purpose fingerprint sourceChannel sur with
    | error e => exact .of_failure counted.inv e
    | ok p =>
      obtain ⟨store', issued⟩ := p
      have issues := @createChallenge_issues lib { store with buckets } _ _ _ _ _ _ _ ha h
      exact ⟨{ store with buckets }, .buckets counted.inv buckets, .inr ⟨issued, rfl, issues⟩⟩

theorem createUser_changes {store store' : Store} (inv : StoreInv lib store) {email displayName password : String}
    {sur : Surroundings} {account : Account}
      (h : store.createUser lib email displayName password sur = .ok (store', account)) :
    Changes lib store store' none ∧ store'.accounts.get? account.id = some account := by
  unfold Store.createUser at h
  simp only [bind_eq_ok, require_eq_ok, getOr_eq_ok, pure_eq_ok] at h
  obtain ⟨_, _, _, _, _, _, accounts, inserted, eq⟩ := h
  cases eq
  exact ⟨insertAccount inv inserted rfl, (Table.get?_insert? inserted _).trans (if_pos rfl)⟩

theorem issuing_bootstrapExisting {store : Store} (inv : StoreInv lib store) (email : String)
    (error : IdentityError) (request : Store.BootstrapRequest) (sur : Surroundings) :
    Issuing lib store (store.bootstrapExisting lib email error request sur) := by
  unfold Store.bootstrapExisting
  cases h : store.accounts.rows.find? fun other => lib.upper other.email = lib.upper email with
  | none => exact .of_failure inv error
  | some existing =>
    dsimp only
    split_ifs
    · exact ⟨store, .buckets inv store.buckets, .inl ⟨rfl, nofun⟩⟩
    · exact issuing_issueIdentityChallenge inv (Table.get?_eq_some.mpr ⟨(Table.find?_eq_some_and h).1, rfl⟩) _ _ _ sur

theorem issuing_bootstrapAccount {store : Store} (inv : StoreInv lib store) (request : Store.BootstrapRequest)
    (sur : Surroundings) : Issuing lib store (store.bootstrapAccount lib request sur) := by
  refine issuing_enforceAbuseLimit inv fun buckets => ?_
  have counted := (Changes.buckets inv buckets).inv
  split_ifs
  · exact .of_failure counted _
  obtain ⟨user, hu⟩ : ∃ user,
    user = ({ store with buckets } : Store).createUser lib (lib.normalizeLoginEmail request.email)
    (strip request.displayName) request.password sur := ⟨_, rfl⟩
  rw [← hu]
  cases user with
  | ok p =>
    obtain ⟨store', account⟩ := p
    obtain ⟨changes, ha⟩ := createUser_changes counted hu.symm
    exact .of_changes changes (issuing_issueIdentityChallenge changes.inv ha _ _ _ sur)
  | error e =>
    cases e with
    | valueError => exact .of_failure counted _
    | validation code => exact issuing_bootstrapExisting counted _ _ request sur
    | database message => exact issuing_bootstrapExisting counted _ _ request sur
    | refused => exact issuing_bootstrapExisting counted _ _ request sur

/-! ## Consuming -/

variable (lib) in
/-- A token of a reserved account is presented that would be consumed: the challenge is usable, a
new password is valid, and the channel is, if the update of the account is let through at all. -/
structure PresentsReserved (store : Store) (request : Store.ConsumeRequest) (now : Nat) (purpose : Purpose)
    (challenge : IdentityChallenge) (account : Account) (invitation : PlatformAccountInvitation) : Prop where
  known : Purpose.ofValue? request.purpose = some purpose
  found : store.challengeOf? lib request.rawToken purpose = some challenge
  usable : Store.usable challenge now = true
  owner : store.accounts.get? challenge.accountId = some account
  password : purpose = .recoverAccount → lib.validPassword request.newPassword (some account) = true
  invited : store.invitations.get? account.id = some invitation
  reserved : invitation.status ≠ .accepted
  channel : invitation.retained = true ∨ validChannel request.sourceChannel = true

variable (lib) in
/-- What a consumption writes. -/
structure Consumes (store store' : Store) (request : Store.ConsumeRequest) (now : Nat)
    (purpose : Purpose) (challenge : IdentityChallenge) (old account : Account) : Prop where
  known : Purpose.ofValue? request.purpose = some purpose
  found : store.challengeOf? lib request.rawToken purpose = some challenge
  usable : Store.usable challenge now = true
  owner : store.accounts.get? challenge.accountId = some old
  changed : Store.consumedAccount lib old purpose request.newPassword now = .ok account
  free : ∀ invitation, store.invitations.get? old.id = some invitation → invitation.status = .accepted
  written : store' = { store with
    accounts := store.accounts.save account
    challenges := store.challenges.save
      { challenge with attemptCount := challenge.attemptCount + 1, consumedAt := some now } }

/-- How the account of a consumed challenge differs: not at all in its identity, and by a
password or the verification. -/
theorem consumedAccount_eq_ok {old account : Account} {purpose : Purpose} {newPassword : String}
    {now : Nat} (h : Store.consumedAccount lib old purpose newPassword now = .ok account) :
    (purpose = .recoverAccount → lib.validPassword newPassword (some old) = true) ∧
      (purpose = .verifyEmail ∧ account = { old with emailVerifiedAt := some now } ∨
        purpose = .recoverAccount ∧ account = { old with password := some (lib.makePassword newPassword) }) := by
  unfold Store.consumedAccount at h
  cases purpose with
  | verifyEmail => exact ⟨nofun, .inl ⟨rfl, (Except.ok.inj h).symm⟩⟩
  | recoverAccount =>
    simp only [bind_eq_ok, require_eq_ok, pure_eq_ok] at h
    obtain ⟨_, valid, eq⟩ := h
    exact ⟨fun _ => valid, .inr ⟨rfl, eq.symm⟩⟩

/-- Neither change leaves an account reserved. -/
theorem not_reserved_of_consumedAccount {old account : Account} {purpose : Purpose} {newPassword : String} {now : Nat}
    (h : Store.consumedAccount lib old purpose newPassword now = .ok account) :
    account.id = old.id ∧ account.email = old.email ∧ account.reserved = false ∧
      (account.emailVerifiedAt ≠ none ∨ account.password ≠ none) := by
  rcases (consumedAccount_eq_ok h).2 with ⟨_, rfl⟩ | ⟨_, rfl⟩
  · exact ⟨rfl, rfl, by simp [Account.reserved], .inl nofun⟩
  · exact ⟨rfl, rfl, by simp [Account.reserved], .inr nofun⟩

/-- The guard at the commit refuses what is no longer reserved. -/
theorem accountComplete_reserved {store : Store} {account : Account} {invitation : PlatformAccountInvitation}
    (ha : store.accounts.get? account.id = some account) (hi : store.invitations.get? account.id = some invitation)
    (status : invitation.status ≠ .accepted) (changed : account.reserved = false) :
    ∃ message, store.accountComplete account.id = .error (.database message) := by
  unfold Store.accountComplete Store.assertInvitation PlatformAccountInvitation.subjectGuard
  rw [hi, ha, Option.any_some, if_pos (by simpa using status)]
  dsimp only
  rw [if_neg status]
  by_cases privilege : account.accountKind = .person ∧ account.isStaff = false ∧ account.isSuperuser = false
  · rw [require, if_pos privilege, ok_bind, require, if_neg (by simp [changed])]
    exact ⟨_, rfl⟩
  · rw [require, if_neg privilege]
    exact ⟨_, rfl⟩

theorem accountComplete_free {store : Store} {accountId : Uuid}
    (h : ∀ invitation, store.invitations.get? accountId = some invitation → invitation.status = .accepted) :
    store.accountComplete accountId = .ok () := by
  unfold Store.accountComplete
  rw [if_neg]
  cases hi : store.invitations.get? accountId with
  | none => simp
  | some invitation => simp [h invitation hi]

variable (lib) in
/-- How a consumption ends. -/
inductive Consumption.Ends (store : Store) (request : Store.ConsumeRequest) (now : Nat) :
    Except IdentityError (Store × Account) → Prop
  | consumed (store' purpose challenge old account) : Consumes lib store store' request now
      purpose challenge old account → Ends store request now (.ok (store', account))
  | refused (code) : (∀ purpose challenge account invitation,
      ¬ PresentsReserved lib store request now purpose challenge account invitation) →
      Ends store request now (.error (.validation code))
  | guarded (message purpose challenge account invitation) :
      PresentsReserved lib store request now purpose challenge account invitation →
      Ends store request now (.error (.database message))

theorem PresentsReserved.unique {store : Store} {request : Store.ConsumeRequest} {now : Nat} {purpose purpose' : Purpose}
    {challenge challenge' : IdentityChallenge} {account account' : Account} {invitation : PlatformAccountInvitation}
    (h : PresentsReserved lib store request now purpose' challenge' account' invitation)
    (known : Purpose.ofValue? request.purpose = some purpose)
    (found : store.challengeOf? lib request.rawToken purpose = some challenge)
    (owner : store.accounts.get? challenge.accountId = some account) :
    purpose' = purpose ∧ challenge' = challenge ∧ account' = account := by
  obtain rfl := Option.some.inj (h.known.symm.trans known)
  obtain rfl := Option.some.inj (h.found.symm.trans found)
  exact ⟨rfl, rfl, Option.some.inj (h.owner.symm.trans owner)⟩

theorem consumedAccount_eq_error {old : Account} {purpose : Purpose} {newPassword : String}
    {now : Nat} {e : IdentityError}
    (h : Store.consumedAccount lib old purpose newPassword now = .error e) : e = .validation "password" ∧
      purpose = .recoverAccount ∧ ¬ lib.validPassword newPassword (some old) = true := by
  unfold Store.consumedAccount at h
  cases purpose with
  | verifyEmail => cases h
  | recoverAccount =>
    dsimp only at h
    unfold require at h
    split_ifs at h with valid
    · cases h
    · exact ⟨(Except.error.inj h).symm, rfl, valid⟩

/-- The rest of a consumption once the account is known. -/
theorem consumeChallenge_eq {store : Store} {request : Store.ConsumeRequest} {now : Nat}
    {purpose : Purpose} {challenge : IdentityChallenge} {old account : Account}
    (found : store.challengeOf? lib request.rawToken purpose = some challenge)
    (usable : Store.usable challenge now = true) (owner : store.accounts.get? challenge.accountId = some old)
    (changed : Store.consumedAccount lib old purpose request.newPassword now = .ok account)
    (contact : lib.casefold challenge.emailSnapshot = lib.casefold old.email)
    (saved : store.saveAccount old account = .ok { store with accounts := store.accounts.save account }) :
    store.consumeChallenge lib purpose request now =
      if validChannel request.sourceChannel = true then
        (do
          let after : Store := { store with
            accounts := store.accounts.save account
            challenges := store.challenges.save
              { challenge with attemptCount := challenge.attemptCount + 1, consumedAt := some now } }
          after.accountComplete old.id
          return (after, account))
      else .error (.validation "source_channel") := by
  unfold Store.consumeChallenge
  rw [found, getOr, ok_bind, require, if_pos usable, ok_bind, owner, getOr, ok_bind, changed,
    ok_bind, saved, ok_bind, require, if_pos contact, ok_bind, require]
  split_ifs
  · rfl
  · rfl

/-- How the consumption of a usable challenge ends, where the invariant holds. -/
theorem consumption_ends_usable {store : Store} (inv : StoreInv lib store) {request : Store.ConsumeRequest} {now : Nat}
    {purpose : Purpose} {challenge : IdentityChallenge} (known : Purpose.ofValue? request.purpose = some purpose)
    (found : store.challengeOf? lib request.rawToken purpose = some challenge)
    (usable : Store.usable challenge now = true) :
    Consumption.Ends lib store request now (store.consumeChallenge lib purpose request now) := by
  have mem := (Table.find?_eq_some_and found).1
  obtain ⟨old, owner, contact⟩ := inv.contact challenge mem
  have key : old.id = challenge.accountId := (Table.get?_eq_some.mp owner).2
  cases changed : Store.consumedAccount lib old purpose request.newPassword now with
  | error e =>
    obtain ⟨rfl, rfl, invalid⟩ := consumedAccount_eq_error changed
    rw [Store.consumeChallenge, found, getOr, ok_bind, require, if_pos usable, ok_bind, owner,
      getOr, ok_bind, changed]
    refine .refused _ fun _ _ _ _ presents => invalid ?_
    obtain ⟨rfl, rfl, rfl⟩ := presents.unique known found owner
    exact presents.password rfl
  | ok account =>
    obtain ⟨id, _, unreserved, taken⟩ := not_reserved_of_consumedAccount changed
    have password := (consumedAccount_eq_ok changed).1
    have self : (store.accounts.save account).get? account.id = some account :=
      Table.get?_save_self (b := old) (by rw [id, key]; exact owner)
    by_cases free : ∀ invitation, store.invitations.get? old.id = some invitation → invitation.status = .accepted
    · have saved : store.saveAccount old account = .ok _ := saveAccount_free fun invitation hi => by
        cases retained : invitation.retained with
        | false => rfl
        | true => exact absurd (free invitation hi) (inv.retained _ invitation hi retained).1
      rw [consumeChallenge_eq found usable owner changed contact saved]
      split_ifs with channel
      · dsimp only
        rw [accountComplete_free (by exact free), ok_bind]
        exact .consumed _ purpose challenge old account ⟨known, found, usable, owner, changed, free, rfl⟩
      · refine .refused _ fun _ _ _ invitation presents => ?_
        obtain ⟨rfl, rfl, rfl⟩ := presents.unique known found owner
        exact presents.reserved (free invitation presents.invited)
    · obtain ⟨invitation, hi, status⟩ : ∃ invitation,
          store.invitations.get? old.id = some invitation ∧ invitation.status ≠ .accepted := by
        by_contra absent
        exact free fun invitation hi => by_contra fun status => absent ⟨invitation, hi, status⟩
      cases retained : invitation.retained with
      | true =>
        obtain ⟨subject, hs, reserved⟩ := inv.subject old.id invitation hi
        rw [key, owner] at hs
        cases hs
        have differs : account ≠ old := by
          rintro rfl
          rw [(reserved status).reserved] at unreserved
          cases unreserved
        obtain ⟨message, failed⟩ := saveAccount_retained hi retained differs taken
        rw [Store.consumeChallenge, found, getOr, ok_bind, require, if_pos usable, ok_bind,
          owner, getOr, ok_bind, changed, ok_bind, failed]
        exact .guarded message purpose challenge old invitation
          ⟨known, found, usable, owner, password, hi, status, .inl retained⟩
      | false =>
        have saved : store.saveAccount old account = .ok _ := saveAccount_free fun other ho => by
          rw [hi] at ho
          cases ho
          exact retained
        rw [consumeChallenge_eq found usable owner changed contact saved]
        split_ifs with channel
        · rw [← id] at hi ⊢
          obtain ⟨message, failed⟩ := @accountComplete_reserved { store with
            accounts := store.accounts.save account
            challenges := store.challenges.save
              { challenge with attemptCount := challenge.attemptCount + 1, consumedAt := some now } } account invitation
              self hi status unreserved
          dsimp only
          rw [failed]
          rw [id] at hi
          exact .guarded message purpose challenge old invitation
            ⟨known, found, usable, owner, password, hi, status, .inr channel⟩
        · refine .refused _ fun _ _ _ other presents => ?_
          obtain ⟨rfl, rfl, rfl⟩ := presents.unique known found owner
          obtain rfl := Option.some.inj (presents.invited.symm.trans hi)
          rcases presents.channel with h | h
          · rw [retained] at h
            cases h
          · exact channel h

/-- How a consumption ends, where the invariant holds. -/
theorem consumption_ends {store : Store} (inv : StoreInv lib store) (request : Store.ConsumeRequest) (now : Nat) :
    Consumption.Ends lib store request now (store.consumeIdentityChallenge lib request now) := by
  unfold Store.consumeIdentityChallenge
  cases known : Purpose.ofValue? request.purpose with
  | none => exact .refused _ fun _ _ _ _ presents => nomatch known.symm.trans presents.known
  | some purpose =>
    dsimp only
    cases found : store.challengeOf? lib request.rawToken purpose with
    | none =>
      rw [Store.consumeChallenge, found]
      refine .refused _ fun purpose' _ _ _ presents => ?_
      have absent := presents.found
      rw [Option.some.inj (presents.known.symm.trans known), found] at absent
      cases absent
    | some challenge =>
      by_cases usable : Store.usable challenge now = true
      · exact consumption_ends_usable inv known found usable
      · rw [Store.consumeChallenge, found, getOr, ok_bind, require, if_neg usable]
        refine .refused _ fun purpose' _ _ _ presents => usable ?_
        have live := presents.usable
        have same := presents.found
        rw [Option.some.inj (presents.known.symm.trans known), found] at same
        rwa [← Option.some.inj same] at live

end Maru.Identity

import Maru.Framework.Machine
import Maru.Framework.Table
import Maru.Framework.Text
import Maru.Framework.Uuid
import Maru.Identity.AbuseLimit

/-!
# Identity challenges

`bootstrap_account`, `issue_identity_challenge` and `consume_identity_challenge` of
`identity/services.py`, with the two guards of the database that an update of an account meets:
`identity_page10_retained_account_guard` (`migrations/0018_invitation_retention_v8.py`), at
once, and `identity_page10_account_complete`
(`migrations/0011_platform_account_invitations.py`), when the transaction commits.

The states in which the three are called come from the account invitations, their disposal and
the deactivation of accounts. Of these the model has what becomes of the accounts and the
invitations; what else decides on them (the actor, the retry key, the version, the invitation's
own token) is a given answer.
-/

namespace Maru.Identity

/-- 30 minutes, in microseconds. -/
def challengeLifetime : Nat := 30 * 60 * microsPerSecond

def recoveryLifetime : Nat := 20 * 60 * microsPerSecond

def challengeAttemptLimit : Nat := 10

/-- 7 days. -/
def invitationLifetime : Nat := 7 * 24 * 3600 * microsPerSecond

/-! ## Rows -/

inductive AccountKind
  | person
  | platformAdministrator
deriving DecidableEq

structure Account where
  id : Uuid
  email : String
  loginHandle : String := ""
  displayName : String := ""
  accountKind : AccountKind := .person
  isActive : Bool := true
  isStaff : Bool := false
  isSuperuser : Bool := false
  emailVerifiedAt : Option Nat := none
  /-- The hash of the password; none if it is unusable. -/
  password : Option String := none
deriving DecidableEq

inductive Purpose
  | verifyEmail
  | recoverAccount
deriving DecidableEq

def Purpose.value : Purpose → String
  | .verifyEmail => "verify_email"
  | .recoverAccount => "recover_account"

/-- The purposes that are not left to the invitation workflow. -/
def Purpose.ofValue? (value : String) : Option Purpose :=
  if value = "verify_email" then some .verifyEmail
  else if value = "recover_account" then some .recoverAccount
  else none

structure IdentityChallenge where
  id : Uuid
  accountId : Uuid
  purpose : Purpose
  tokenDigest : String
  emailSnapshot : String
  expiresAt : Nat
  consumedAt : Option Nat := none
  attemptCount : Nat := 0
  requestFingerprint : String
deriving DecidableEq

inductive InvitationStatus
  | pending
  | accepted
  | revoked
  | expired
deriving DecidableEq

structure PlatformAccountInvitation where
  id : Uuid
  accountId : Uuid
  status : InvitationStatus := .pending
  expiresAt : Nat
  /-- There is a receipt of its disposal. -/
  retained : Bool := false
deriving DecidableEq

/-- The tables. An account has one invitation at most. -/
structure Store where
  accounts : Table Account.id
  invitations : Table PlatformAccountInvitation.accountId
  challenges : Table IdentityChallenge.tokenDigest
  buckets : BucketStore

/-- Accounts, and nothing else yet. -/
def Store.start (accounts : Table Account.id) : Store := ⟨accounts, ∅, ∅, []⟩

/-- What the commands take from libraries: Django's `normalize_email`, the case mappings, the field
checks of a new account, the rules for a password and its hash, and HMAC-SHA-256 under the secret
key, in hexadecimal digits. -/
structure Library where
  normalizeEmail : String → String
  upper : String → String
  lower : String → String
  casefold : String → String
  validAccount : Account → Bool
  validPassword : String → Option Account → Bool
  makePassword : String → String
  hmacSha256 : String → String

namespace Library

variable (lib : Library)

/-- `AccountManager.normalize_login_email` -/
def normalizeLoginEmail (email : String) : String := lib.casefold (strip (lib.normalizeEmail email))

/-- `_digest` -/
def digest (value purpose : String) : String := lib.hmacSha256 (purpose ++ ":" ++ value)

/-- `_raw_challenge_token` -/
def rawToken (challengeId : Uuid) (purpose : Purpose) : String :=
  challengeId.hex ++ "." ++ lib.digest challengeId.text ("identity-token:" ++ purpose.value)

/-- The `token_digest` of a challenge. -/
def tokenDigest (rawToken : String) : String := lib.digest rawToken "identity-challenge"

end Library

inductive IdentityError
  /-- A `ValidationError` with its code. -/
  | validation (code : String)
  | valueError
  /-- An `IntegrityError`: a constraint or a trigger of the database. -/
  | database (message : String)
  /-- What a command of the invitation workflow refuses. -/
  | refused
deriving DecidableEq

/-! ## Guards -/

/-- `'^disposed-[0-9a-f]{32}@account[.]invalid$'` -/
def isTombstone (email : String) : Bool :=
  let chars := email.toList
  let digits := (chars.drop 9).take 32
  chars.take 9 = "disposed-".toList ∧ digits.length = 32 ∧
    digits.all (fun c => c.isDigit || ('a' ≤ c && c ≤ 'f')) ∧ chars.drop 41 = "@account.invalid".toList

namespace Store

variable (store : Store)

/-- `identity_page10_retained_account_guard`, for an update. -/
def retainedAccountGuard (old new : Account) : Except IdentityError Unit :=
  if ((store.invitations.get? old.id).any (·.retained)) = false then .ok ()
  else if isTombstone old.email ∧ old.loginHandle = "" ∧ old.displayName = "" then
    require (new = old) (.database "disposed invitation account tombstone is immutable")
  else
    require (isTombstone new.email ∧ new.loginHandle = "" ∧ new.displayName = "" ∧ new.accountKind = .person ∧
        new.isActive = false ∧ new.isStaff = false ∧ new.isSuperuser = false ∧ new.emailVerifiedAt = none ∧
        new.password = none ∧
        { new with email := old.email, loginHandle := old.loginHandle, displayName := old.displayName } = old)
      (.database "invitation account disposition is not receipt-bound")

/-- An update of the row of an account. -/
def saveAccount (old new : Account) : Except IdentityError Store := do
  store.retainedAccountGuard old new
  return { store with accounts := store.accounts.save new }

end Store

/-- What an account is until its invitation is accepted. -/
def Account.reserved (account : Account) : Bool :=
  account.isActive = false ∧ account.emailVerifiedAt = none ∧ account.password = none

/-- The end of `identity_page10_assert_invitation`, about the subject. What it asks before is about
rows that no command here changes. -/
def PlatformAccountInvitation.subjectGuard (invitation : PlatformAccountInvitation)
    (subject : Account) : Except IdentityError Unit := do
  require (subject.accountKind = .person ∧ subject.isStaff = false ∧ subject.isSuperuser = false)
    (.database "invitation subject privilege boundary is invalid")
  if invitation.status = .accepted then
    require (subject.isActive = true ∧ subject.emailVerifiedAt ≠ none ∧ subject.password ≠ none)
      (.database "accepted invitation subject is not activated")
  else require (subject.reserved = true) (.database "reserved invitation subject state changed")

namespace Store

variable (store : Store)

/-- `identity_page10_assert_invitation` -/
def assertInvitation (accountId : Uuid) : Except IdentityError Unit :=
  match store.invitations.get? accountId, store.accounts.get? accountId with
  | some invitation, some subject => invitation.subjectGuard subject
  | _, _ => .ok ()

/-- `identity_page10_account_complete`: the invitation is looked at unless it is accepted. -/
def accountComplete (accountId : Uuid) : Except IdentityError Unit :=
  if (store.invitations.get? accountId).any (·.status ≠ .accepted) then store.assertInvitation accountId else .ok ()

end Store

/-! ## Transactions -/

/-- The instant of a command, and the identifiers it draws for an account and a challenge. -/
structure Surroundings where
  now : Nat
  accountId : Uuid
  challengeId : Uuid

/-- What a command leaves and returns. It may fail after transactions that have been committed. -/
abbrev Outcome (α : Type) : Type := Store × Except IdentityError α

def Outcome.next {α β : Type} (first : Outcome α) (rest : Store → α → Outcome β) : Outcome β :=
  match first with
  | (store, .error e) => (store, .error e)
  | (store, .ok a) => rest store a

/-- A transaction commits its store, or leaves the store as it was. -/
def Store.commit {α : Type} (store : Store) (transaction : Except IdentityError (Store × α)) : Outcome α :=
  match transaction with
  | .ok (store', a) => (store', .ok a)
  | .error e => (store, .error e)

/-- `enforce_abuse_limit` -/
def Store.enforceAbuseLimit (store : Store) (flow subjectDigest : String) (now : Nat) : Outcome Unit :=
  let (buckets, outcome) := Identity.enforceAbuseLimit store.buckets ⟨flow, subjectDigest, now⟩
  ({ store with buckets }, if outcome = .allowed then .ok () else .error (.validation "identity_rate_limited"))

/-! ## Issuing -/

/-- A token that has been issued: what is mailed, and where to. -/
structure IssuedToken where
  token : String
  purpose : Purpose
  accountId : Uuid
  email : String
  expiresAt : Nat
deriving DecidableEq

def Purpose.lifetime : Purpose → Nat
  | .verifyEmail => challengeLifetime
  | .recoverAccount => recoveryLifetime

/-- `SHA256_HEX_VALIDATOR` -/
def isSha256 (value : String) : Bool :=
  value.length = 64 ∧ value.toList.all fun c => c.isDigit || ('a' ≤ c && c ≤ 'f')

/-- `AccountSecurityEvent.source_channel` -/
def validChannel (sourceChannel : String) : Bool := sourceChannel ≠ "" ∧ sourceChannel.length ≤ 40

namespace Store

variable (lib : Library) (store : Store)

/-- The transaction of `issue_identity_challenge`, with the `full_clean` of the challenge. -/
def createChallenge (account : Account) (purpose : Purpose) (fingerprint sourceChannel : String)
    (sur : Surroundings) : Except IdentityError (Store × IssuedToken) := do
  let rawToken := lib.rawToken sur.challengeId purpose
  let challenge : IdentityChallenge := {
    id := sur.challengeId, accountId := account.id, purpose, tokenDigest := lib.tokenDigest rawToken
    emailSnapshot := lib.lower (strip account.email), expiresAt := sur.now + purpose.lifetime
    requestFingerprint := fingerprint }
  require (isSha256 fingerprint = true) (.validation "request_fingerprint")
  require ((store.accounts.get? account.id).isSome = true) (.validation "account")
  require (lib.casefold challenge.emailSnapshot = lib.casefold account.email)
    (.validation "identity_challenge_contact_mismatch")
  require (∀ other ∈ store.challenges.rows, other.id ≠ challenge.id) (.validation "id")
  let challenges ← getOr (.validation "token_digest") (store.challenges.insert? challenge)
  require (purpose = .recoverAccount → validChannel sourceChannel = true) (.validation "source_channel")
  return ({ store with challenges }, ⟨rawToken, purpose, account.id, account.email, challenge.expiresAt⟩)

/-- `issue_identity_challenge` -/
def issueIdentityChallenge (account : Account) (purpose fingerprint sourceChannel : String)
    (sur : Surroundings) : Outcome IssuedToken :=
  match Purpose.ofValue? purpose with
  | none => (store, .error (.validation "identity_challenge_purpose_invalid"))
  | some purpose =>
    (store.enforceAbuseLimit purpose.value fingerprint sur.now).next fun store _ =>
      store.commit (store.createChallenge lib account purpose fingerprint sourceChannel sur)

/-! ## Bootstrap -/

structure BootstrapRequest where
  email : String
  displayName : String
  password : String
  fingerprint : String
  sourceChannel : String := "public_api"

/-- `account_email_case_insensitive_unique` -/
def freeEmail (email : String) : Bool := store.accounts.rows.all fun other => lib.lower other.email ≠ lib.lower email

/-- `AccountManager.create_user`, with the `save` of the account. -/
def createUser (email displayName password : String) (sur : Surroundings) : Except IdentityError (Store × Account) := do
  require (email ≠ "") .valueError
  let account : Account := {
    id := sur.accountId, email := lib.normalizeLoginEmail email, displayName
    password := some (lib.makePassword password) }
  require (lib.validAccount account = true ∧ store.freeEmail lib account.email = true) (.validation "account")
  let saved := { account with email := lib.normalizeLoginEmail account.email, loginHandle := strip account.loginHandle }
  require (store.freeEmail lib saved.email = true) (.database "account_email_case_insensitive_unique")
  let accounts ← getOr (.database "identity_account_pkey") (store.accounts.insert? saved)
  return ({ store with accounts }, saved)

/-- What `bootstrap_account` does when no account could be created: an account with this email that
is not verified gets a challenge too. -/
def bootstrapExisting (email : String) (error : IdentityError) (request : BootstrapRequest)
    (sur : Surroundings) : Outcome (Option IssuedToken) :=
  match store.accounts.rows.find? fun other => lib.upper other.email = lib.upper email with
  | none => (store, .error error)
  | some existing =>
    if existing.emailVerifiedAt ≠ none then (store, .ok none)
    else (store.issueIdentityChallenge lib existing "verify_email" request.fingerprint request.sourceChannel sur).next
      fun store issued => (store, .ok (some issued))

/-- `bootstrap_account` -/
def bootstrapAccount (request : BootstrapRequest) (sur : Surroundings) : Outcome (Option IssuedToken) :=
  let email := lib.normalizeLoginEmail request.email
  (store.enforceAbuseLimit "account_bootstrap" request.fingerprint sur.now).next fun store _ =>
    if lib.validPassword request.password none = false then (store, .error (.validation "password"))
    else
      match store.createUser lib email (strip request.displayName) request.password sur with
      | .ok (store, account) =>
        (store.issueIdentityChallenge lib account "verify_email" request.fingerprint request.sourceChannel sur).next
          fun store issued => (store, .ok (some issued))
      | .error .valueError => (store, .error .valueError)
      | .error error => store.bootstrapExisting lib email error request sur

/-! ## Consuming -/

structure ConsumeRequest where
  rawToken : String
  purpose : String
  newPassword : String := ""
  sourceChannel : String := "public_api"
deriving DecidableEq

/-- What the checks of `consume_identity_challenge` ask of a challenge. -/
def usable (challenge : IdentityChallenge) (now : Nat) : Bool :=
  challenge.consumedAt = none ∧ now < challenge.expiresAt ∧ challenge.attemptCount < challengeAttemptLimit

/-- The challenge of a token. -/
def challengeOf? (rawToken : String) (purpose : Purpose) : Option IdentityChallenge :=
  store.challenges.rows.find? fun challenge => challenge.tokenDigest = lib.tokenDigest rawToken ∧
    challenge.purpose = purpose

/-- The account after a challenge is consumed. -/
def consumedAccount (account : Account) (purpose : Purpose) (newPassword : String)
    (now : Nat) : Except IdentityError Account :=
  match purpose with
  | .verifyEmail => .ok { account with emailVerifiedAt := some now }
  | .recoverAccount => do
    require (lib.validPassword newPassword (some account) = true) (.validation "password")
    return { account with password := some (lib.makePassword newPassword) }

/-- `consume_identity_challenge` for one of its purposes: the transaction, and the guard
that waits for its commit. -/
def consumeChallenge (purpose : Purpose) (request : ConsumeRequest) (now : Nat) :
    Except IdentityError (Store × Account) := do
  let challenge ← getOr (.validation "identity_challenge_invalid") (store.challengeOf? lib request.rawToken purpose)
  require (usable challenge now = true) (.validation "identity_challenge_invalid")
  let account ← getOr (.database "identity_identitychallenge_account_id") (store.accounts.get? challenge.accountId)
  let consumed ← consumedAccount lib account purpose request.newPassword now
  let store ← store.saveAccount account consumed
  require (lib.casefold challenge.emailSnapshot = lib.casefold account.email)
    (.validation "identity_challenge_contact_mismatch")
  let challenges := store.challenges.save
    { challenge with attemptCount := challenge.attemptCount + 1, consumedAt := some now }
  require (validChannel request.sourceChannel = true) (.validation "source_channel")
  let store := { store with challenges }
  store.accountComplete account.id
  return (store, consumed)

/-- `consume_identity_challenge` -/
def consumeIdentityChallenge (request : ConsumeRequest) (now : Nat) : Except IdentityError (Store × Account) :=
  match Purpose.ofValue? request.purpose with
  | none => .error (.validation "identity_challenge_purpose_invalid")
  | some purpose => store.consumeChallenge lib purpose request now

/-! ## Invitations -/

/-- `create_platform_account_invitation`: an account is reserved. -/
def createInvitation (email loginHandle displayName : String) (sur : Surroundings) : Except IdentityError Store := do
  require (∀ other ∈ store.accounts.rows, lib.upper other.email ≠ lib.upper email) .refused
  let account : Account := {
    id := sur.accountId, email := lib.normalizeLoginEmail email, loginHandle := strip loginHandle, displayName
    isActive := false }
  require (lib.validAccount account = true ∧ store.freeEmail lib account.email = true) .refused
  let accounts ← getOr .refused (store.accounts.insert? account)
  let invitations ← getOr (.database "identity_one_invitation_per_account")
    (store.invitations.insert? ⟨sur.challengeId, account.id, .pending, sur.now + invitationLifetime, false⟩)
  let store := { store with accounts, invitations }
  store.assertInvitation account.id
  return store

/-- The frame of the commands that change the status of an invitation. -/
def changeInvitation (accountId : Uuid) (allowed : PlatformAccountInvitation → Bool)
    (change : PlatformAccountInvitation → PlatformAccountInvitation) : Except IdentityError Store := do
  let invitation ← getOr .refused (store.invitations.get? accountId)
  require (allowed invitation = true) .refused
  let store := { store with invitations := store.invitations.save (change invitation) }
  store.assertInvitation accountId
  return store

/-- `reissue_platform_account_invitation`. The set of challenges of a disposed
invitation takes no new one. -/
def reissueInvitation (accountId : Uuid) (now : Nat) : Except IdentityError Store :=
  store.changeInvitation accountId
    (fun invitation => invitation.status ≠ .accepted ∧ invitation.status ≠ .revoked ∧ invitation.retained = false)
    fun invitation => { invitation with status := .pending, expiresAt := now + invitationLifetime }

/-- `revoke_platform_account_invitation` -/
def revokeInvitation (accountId : Uuid) : Except IdentityError Store :=
  store.changeInvitation accountId (fun invitation => invitation.status = .pending)
    fun invitation => { invitation with status := .revoked }

/-- `expire_platform_account_invitations`, for one invitation. -/
def expireInvitation (accountId : Uuid) (now : Nat) : Except IdentityError Store :=
  store.changeInvitation accountId (fun invitation => invitation.status = .pending ∧ invitation.expiresAt ≤ now)
    fun invitation => { invitation with status := .expired }

/-- `accept_platform_account_invitation` -/
def acceptInvitation (accountId : Uuid) (newPassword : String) (now : Nat) : Except IdentityError Store := do
  let invitation ← getOr .refused (store.invitations.get? accountId)
  let account ← getOr .refused (store.accounts.get? accountId)
  require (invitation.status = .pending ∧ now < invitation.expiresAt ∧ account.accountKind = .person ∧
    account.isStaff = false ∧ account.isSuperuser = false ∧ account.reserved = true) .refused
  require (lib.validPassword newPassword (some account) = true) (.validation "password")
  let active := { account with
    password := some (lib.makePassword newPassword), isActive := true, emailVerifiedAt := some now }
  let store ← store.saveAccount account active
  let store := { store with invitations := store.invitations.save { invitation with status := .accepted } }
  store.assertInvitation accountId
  store.accountComplete accountId
  return store

/-- The disposal of `invitation_retention.py`: the contact of an account that never came to be is
replaced. An account with a challenge of its own is left as it is. -/
def disposeInvitation (accountId : Uuid) (tombstoneEmail : String) : Except IdentityError Store := do
  let invitation ← getOr .refused (store.invitations.get? accountId)
  let account ← getOr .refused (store.accounts.get? accountId)
  require ((invitation.status = .revoked ∨ invitation.status = .expired) ∧ invitation.retained = false) .refused
  require (account.accountKind = .person ∧ account.isStaff = false ∧ account.isSuperuser = false ∧
    account.reserved = true) .refused
  require (∀ challenge ∈ store.challenges.rows, challenge.accountId ≠ accountId) .refused
  require (isTombstone tombstoneEmail = true) .refused
  require (store.freeEmail lib tombstoneEmail = true) (.database "account_email_case_insensitive_unique")
  let invitations := store.invitations.save { invitation with retained := true }
  let store ← ({ store with invitations } : Store).saveAccount account
    { account with email := tombstoneEmail, loginHandle := "", displayName := "" }
  store.accountComplete accountId
  return store

/-- `deactivate_person_account_for_platform_emergency` -/
def deactivateAccount (accountId : Uuid) : Except IdentityError Store := do
  let account ← getOr .refused (store.accounts.get? accountId)
  require (account.accountKind ≠ .platformAdministrator) (.validation "emergency_deactivation_subject_ineligible")
  require (account.isActive = true) (.validation "emergency_deactivation_already_inactive")
  let store ← store.saveAccount account { account with isActive := false }
  store.accountComplete accountId
  return store

end Store

/-! ## Runs -/

inductive Operation
  | bootstrap (request : Store.BootstrapRequest)
  | issue (accountId : Uuid) (purpose fingerprint sourceChannel : String)
  | consume (request : Store.ConsumeRequest)
  | createInvitation (email loginHandle displayName : String)
  | reissueInvitation (accountId : Uuid)
  | revokeInvitation (accountId : Uuid)
  | expireInvitation (accountId : Uuid)
  | acceptInvitation (accountId : Uuid) (newPassword : String)
  | disposeInvitation (accountId : Uuid) (tombstoneEmail : String)
  | deactivateAccount (accountId : Uuid)

structure Event where
  sur : Surroundings
  operation : Operation

/-- A challenge that has been consumed: the token that was presented, and the
account with its email. -/
structure Consumption where
  token : String
  purpose : String
  accountId : Uuid
  email : String
  now : Nat
deriving DecidableEq

inductive Answer
  | issued (token : IssuedToken)
  /-- The account is verified already, and nothing is said about it. -/
  | accepted
  | consumed (consumption : Consumption)
  | notConsumed (error : IdentityError)
  | done
  | failed (error : IdentityError)
deriving DecidableEq

/-- What an operation that issues leaves and answers. -/
def issuing (outcome : Outcome (Option IssuedToken)) : Store × Answer :=
  match outcome with
  | (store, .ok (some issued)) => (store, .issued issued)
  | (store, .ok none) => (store, .accepted)
  | (store, .error e) => (store, .failed e)

def consuming (store : Store) (request : Store.ConsumeRequest) (now : Nat)
    (transaction : Except IdentityError (Store × Account)) : Store × Answer :=
  match transaction with
  | .ok (store', account) => (store', .consumed ⟨request.rawToken, request.purpose, account.id, account.email, now⟩)
  | .error e => (store, .notConsumed e)

def changing (store : Store) (transaction : Except IdentityError Store) : Store × Answer :=
  match transaction with
  | .ok store' => (store', .done)
  | .error e => (store, .failed e)

def Store.exec (lib : Library) (store : Store) (event : Event) : Store × Answer :=
  let sur := event.sur
  match event.operation with
  | .bootstrap request => issuing (store.bootstrapAccount lib request sur)
  | .issue accountId purpose fingerprint sourceChannel =>
    match store.accounts.get? accountId with
    | none => (store, .failed .refused)
    | some account => issuing ((store.issueIdentityChallenge lib account purpose fingerprint sourceChannel sur).next
        fun store issued => (store, .ok (some issued)))
  | .consume request => consuming store request sur.now (store.consumeIdentityChallenge lib request sur.now)
  | .createInvitation email loginHandle displayName =>
    changing store (store.createInvitation lib email loginHandle displayName sur)
  | .reissueInvitation accountId => changing store (store.reissueInvitation accountId sur.now)
  | .revokeInvitation accountId => changing store (store.revokeInvitation accountId)
  | .expireInvitation accountId => changing store (store.expireInvitation accountId sur.now)
  | .acceptInvitation accountId newPassword => changing store (store.acceptInvitation lib accountId newPassword sur.now)
  | .disposeInvitation accountId tombstoneEmail => changing store (store.disposeInvitation lib accountId tombstoneEmail)
  | .deactivateAccount accountId => changing store (store.deactivateAccount accountId)

/-- Every operation is answered; a refusal is an answer too. -/
def identity (lib : Library) : Machine Store Event Answer Empty := ⟨fun store event => .ok (store.exec lib event)⟩

end Maru.Identity

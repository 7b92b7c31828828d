import Maru.Accreditation.Relay
import Maru.Registration.Journeys

/-!
# Changes of credentials

A command changes credentials and their events in a few ways (`Change`), and registrations as
`Registration.Move` says. A credential that replaces another ends it in the same change: between
the two writes its registration has no current one, whatever its events say. Where a command
does more than that, `Step` says what (`exec_step`).
-/

namespace Maru.Accreditation

open Registration (Admissions RegistrationError Registration Moves Unopened)

variable {P : Primitives} {w : Surroundings} {now : Int} {a a' : Admissions} {t t' : Tables}

/-! ## Changes -/

/-- The columns that are never written again. -/
def Credential.identity (c : Credential) : Uuid × Uuid × Uuid × Uuid × Uuid × String × String × Nat × Int × Uuid :=
  (c.id, c.registrationId, c.organizationId, c.editionId, c.accountId, c.publicId, c.tokenDigest,
    c.issueSequence, c.issuedAt, c.issuedById)

/-- The credential is of the registration. -/
structure Credential.Of (c : Credential) (r : Registration) : Prop where
  registration : c.registrationId = r.id
  organization : c.organizationId = r.organizationId
  edition : c.editionId = r.editionId
  account : c.accountId = r.accountId

/-- No credential of the registration is current any more, and the event that says so. -/
inductive Clears (t : Table Credential.id) (registrationId : Uuid) : Table Credential.id → EventKind → Prop
  | vacant (alone : ∀ d ∈ t, d.registrationId = registrationId → d.status ≠ .issued) : Clears t registrationId t .issued
  | replaced {c d : Credential} (mem : c ∈ t) (own : c.registrationId = registrationId) (issued : c.status = .issued)
      (identity : d.identity = c.identity) (replaced : d.status = .replaced) :
      Clears t registrationId (t.save d) .reprinted

inductive Change (a : Admissions) (t : Tables) : Tables → Prop
  | issue {r : Registration} {c : Credential} {v u : Table Credential.id} {e : CredentialEvent}
      (mem : r ∈ a.registrations) (of : c.Of r) (issued : c.status = .issued)
      (next : c.issueSequence =
        latestNumber Credential.registrationId Credential.issueSequence t.credentials.rows c.registrationId + 1)
      (clears : Clears t.credentials c.registrationId v e.kind) (fresh : ∀ d ∈ v, d.tokenDigest ≠ c.tokenDigest)
      (inserted : v.insert? c = some u) (about : e.credentialId = c.id) :
      Change a t { t with credentials := u, events := t.events ++ [e] }
  | revoke {c d : Credential} {e : CredentialEvent} (mem : c ∈ t.credentials) (issued : c.status = .issued)
      (identity : d.identity = c.identity) (revoked : d.status = .revoked) (about : e.credentialId = c.id)
      (kind : e.kind = .revoked) :
      Change a t { t with credentials := t.credentials.save d, events := t.events ++ [e] }
  | verify {c : Credential} {e : CredentialEvent} (mem : c ∈ t.credentials)
      (issued : c.status = .issued) (about : e.credentialId = c.id) (kind : e.kind = .verified) :
      Change a t { t with events := t.events ++ [e] }

abbrev Changes (a : Admissions) : Tables → Tables → Prop := Relation.ReflTransGen (Change a)

theorem Changes.keeps {I : Tables → Prop} (keep : ∀ t t', I t → Change a t t' → I t') (ht : I t)
    (h : Changes a t t') : I t' := by
  induction h with
  | refl => exact ht
  | tail _ change ih => exact keep _ _ ih change

theorem Change.changes (h : Change a t t') : Changes a t t' := .single h

/-! ## Commands -/

theorem saveCredential_eq_ok {c : Credential} (h : t.saveCredential c = .ok t') :
    (∃ old ∈ t.credentials, old.id = c.id ∧ old.status = .issued) ∧
      c.revocationReason.length ≤ 500 ∧ t' = { t with credentials := t.credentials.save c } := by
  simp only [Tables.saveCredential, bind_eq_ok, pure_eq_ok, require_eq_ok, getOr_eq_ok] at h
  obtain ⟨_, short, old, hold, _, ⟨issued, -⟩, rfl⟩ := h
  obtain ⟨mem, id⟩ := Table.get?_eq_some.mp hold
  exact ⟨⟨old, mem, id, issued⟩, short, rfl⟩

theorem createCredential_eq_ok {r : Registration} {c : Credential}
    (h : t.createCredential r c = .ok t') : (∀ d ∈ t.credentials, d.tokenDigest ≠ c.tokenDigest) ∧
      ∃ u, t.credentials.insert? c = some u ∧ t' = { t with credentials := u } := by
  simp only [Tables.createCredential, bind_eq_ok, pure_eq_ok, require_eq_ok, getOr_eq_ok] at h
  obtain ⟨_, -, _, digest, _, -, _, -, _, -, u, hu, rfl⟩ := h
  refine ⟨fun d hd e => digest ?_, u, hu, rfl⟩
  exact List.any_eq_true.mpr ⟨d, hd, by simpa using e⟩

theorem replaceCurrent_eq_ok {registrationId actorId : Uuid} {issuedAt : Int} {reason : String} {kind : EventKind}
    (h : t.replaceCurrent registrationId issuedAt actorId reason = .ok (t', kind)) :
    ∃ v, Clears t.credentials registrationId v kind ∧ t' = { t with credentials := v } := by
  unfold Tables.replaceCurrent at h
  split at h
  · rename_i vacant
    cases h
    refine ⟨t.credentials, .vacant fun d hd own issued => ?_, rfl⟩
    have other := List.find?_eq_none.mp vacant d hd
    simp [own, issued] at other
  · rename_i current found
    simp only [bind_eq_ok, pure_eq_ok, Prod.mk.injEq] at h
    obtain ⟨t₁, h₁, rfl, rfl⟩ := h
    obtain ⟨mem, own⟩ := Table.find?_eq_some_and found
    obtain ⟨-, -, rfl⟩ := saveCredential_eq_ok h₁
    have replaced : Clears t.credentials registrationId
        (t.credentials.save (current.ended .replaced issuedAt actorId reason)) .reprinted :=
      .replaced mem own.1 own.2 rfl rfl
    exact ⟨_, replaced, rfl⟩

theorem issue_changes {x : IssueRequest} {draw : CredentialDraw} {c : Credential}
    (h : issueCredential P a t w now x draw = .ok (t', c)) : Change a t t' := by
  simp only [issueCredential, bind_eq_ok, pure_eq_ok, Prod.mk.injEq] at h
  obtain ⟨_, -, _, -, r, hr, _, -, ⟨t₁, kind⟩, h₁, t₂, h₂, rfl, -⟩ := h
  obtain ⟨v, clears, rfl⟩ := replaceCurrent_eq_ok h₁
  obtain ⟨fresh, u, hu, rfl⟩ := createCredential_eq_ok h₂
  exact .issue (e := ⟨_, kind, now, "account", some x.actorId, "credential_issued"⟩)
    (Registration.lockRegistration_eq_ok hr).1 ⟨rfl, rfl, rfl, rfl⟩ rfl rfl clears fresh hu rfl

theorem revoke_changes {organizationId editionId credentialId actorId : Uuid} {reason : String} {c : Credential}
    (h : revokeCredential t w now organizationId editionId credentialId actorId reason = .ok (t', c)) :
    Changes a t t' := by
  simp only [revokeCredential, bind_eq_ok, getOr_eq_ok] at h
  obtain ⟨_, -, _, -, c₀, found, h⟩ := h
  split at h
  · cases h
    exact .refl
  · rename_i issued
    simp only [bind_eq_ok, pure_eq_ok, Prod.mk.injEq] at h
    obtain ⟨t₁, h₁, rfl, -⟩ := h
    obtain ⟨-, -, rfl⟩ := saveCredential_eq_ok h₁
    refine (Change.revoke (e := ⟨c₀.id, .revoked, now, "account", some actorId, "credential_revoked"⟩)
      (Table.find?_eq_some_and found).1 (not_not.mp issued) ?_ ?_ rfl rfl).changes <;> rfl

theorem revokeEach_changes {changedAt : Int} {actorId : Uuid} {attendeeMessage : String} (cs : List Credential)
    (issued : ∀ c ∈ cs, c ∈ t.credentials ∧ c.status = .issued) (distinct : (cs.map Credential.id).Nodup)
    (h : revokeEach changedAt actorId attendeeMessage cs t = .ok t') : Changes a t t' := by
  induction cs generalizing t with
  | nil =>
    cases h
    exact .refl
  | cons c cs ih =>
    simp only [revokeEach, bind_eq_ok] at h
    obtain ⟨t₁, h₁, h⟩ := h
    obtain ⟨mem, current⟩ := issued c List.mem_cons_self
    obtain ⟨-, -, rfl⟩ := saveCredential_eq_ok h₁
    rw [List.map_cons, List.nodup_cons] at distinct
    have change : Change a t (Tables.appendEvent
        { t with credentials := t.credentials.save (c.ended .revoked changedAt actorId attendeeMessage) }
        ⟨c.id, .revoked, changedAt, "account", some actorId, "account_restriction"⟩) :=
      .revoke mem current rfl rfl rfl rfl
    refine Relation.ReflTransGen.head change (ih (fun d hd => ?_) distinct.2 h)
    obtain ⟨hd', current'⟩ := issued d (List.mem_cons_of_mem c hd)
    refine ⟨Table.mem_save.mpr (.inl ⟨hd', fun e => distinct.1 ?_⟩), current'⟩
    exact List.mem_map.mpr ⟨d, hd, e⟩

theorem restrict_changes {organizationId accountId : Uuid} {editionId : Option Uuid}
    {actorId : Uuid} {attendeeMessage : String} {b : Admissions}
    (h : restrictCredentials b t w now organizationId accountId editionId actorId attendeeMessage = .ok t') :
    Changes a t t' := by
  refine revokeEach_changes _ (fun c hc => ?_) ((List.filter_sublist.map _).nodup t.credentials.nodup) h
  obtain ⟨mem, selected⟩ := List.mem_filter.mp hc
  simp only [decide_eq_true_eq] at selected
  exact ⟨mem, selected.2.1⟩

/-! ## The relay -/

theorem createCheckIn_eq_ok {k : CheckInRecord} :
    t.createCheckIn k = .ok t' ↔ ∃ u, t.checkIns.insert? k = some u ∧ { t with checkIns := u } = t' := by
  simp only [Tables.createCheckIn, bind_eq_ok, pure_eq_ok, getOr_eq_ok]

theorem judge_applies {manifest : Option OfflineCredentialManifest} {credential : Option Credential}
    {occurredAt : Int} {c : Credential} {r : Registration}
    (h : judge a manifest credential occurredAt = .ok (.applies c r)) :
    (∃ m, manifest = some m ∧ m.validAt occurredAt ∧ m.lists c) ∧ credential = some c ∧ c.status =
      .issued ∧ a.registrations.get? c.registrationId = some r ∧ r.state = .confirmed := by
  unfold judge at h
  split at h
  · cases h
  rename_i m hm
  obtain ⟨manifest, valid⟩ := Option.filter_eq_some_iff.mp hm
  split at h
  · cases h
  rename_i c'
  split at h
  · cases h
  rename_i lists
  split at h
  · cases h
  rename_i issued
  simp only [bind_eq_ok, getOr_eq_ok] at h
  obtain ⟨r', hr, h⟩ := h
  split at h
  · cases h
  split at h
  · cases h
  rename_i confirmed
  cases h
  exact ⟨⟨m, manifest, valid, not_not.mp lists⟩, rfl, not_not.mp issued, hr, not_not.mp confirmed⟩

/-- A device's next operation is recorded, and counted. -/
def Tables.recorded (t : Tables) (operations : Table OfflineCheckInOperation.key) (device : RelayDevice) : Tables :=
  { t with
    operations := operations
    devices := t.devices.save { device with lastSequence := device.lastSequence + 1 } }

/-- The report is of the device that sends it, signed, and the next one of the device. -/
structure Reports (P : Primitives) (t : Tables) (w : Surroundings) (x : OfflineCheckIn)
    (device : RelayDevice) : Prop where
  found : t.relayDevice x = some device
  signed : w.environ device.signingSecretEnvVar ≠ "" ∧
    P.hmac (w.environ device.signingSecretEnvVar) (x.canonical P) = x.signature
  next : x.deviceSequence = device.lastSequence + 1

inductive Reconciled (P : Primitives) (a : Admissions) (t : Tables) (w : Surroundings)
    (receivedAt : Int) (x : OfflineCheckIn) : Admissions → Tables → OfflineCheckInOperation → Prop
  | repeated {device : RelayDevice} {o : OfflineCheckInOperation} (found : t.relayDevice x = some device)
      (existing : t.operations.get? (device.id, x.operationId) = some o) : Reconciled P a t w receivedAt x a t o
  | noted {device : RelayDevice} {outcome : Outcome} {code : String}
      {u : Table OfflineCheckInOperation.key} (reports : Reports P t w x device)
      (judged : judge a (t.manifestOf x) (t.credentialOf P x) x.occurredAt = .ok (.noted outcome code))
      (inserted : t.operations.insert? (x.operation device (t.credentialOf P x) receivedAt outcome code) = some u) :
      Reconciled P a t w receivedAt x a (t.recorded u device)
        (x.operation device (t.credentialOf P x) receivedAt outcome code)
  | applied {device : RelayDevice} {c : Credential} {r : Registration} {a' : Admissions}
      {k : Table CheckInRecord.registrationId}
      {u : Table OfflineCheckInOperation.key} (reports : Reports P t w x device)
      (judged : judge a (t.manifestOf x) (t.credentialOf P x) x.occurredAt = .ok (.applies c r))
      (saved : a.saveRegistration w.toSurroundings receivedAt (arrived r x.occurredAt) = .ok a')
      (arrival : t.checkIns.insert? (x.arrival device r) = some k)
      (inserted : t.operations.insert?
        (x.operation device (t.credentialOf P x) receivedAt .applied "offline_check_in_applied") = some u) :
      Reconciled P a t w receivedAt x
        (a'.appendTimeline r.id "checked_in" x.occurredAt "relay_device" (some device.id) x.operationId)
        (Tables.recorded (Tables.appendEvent { t with checkIns := k }
          ⟨c.id, .verified, x.occurredAt, "relay_device", some device.id, "offline_check_in_applied"⟩) u device)
        (x.operation device (t.credentialOf P x) receivedAt .applied "offline_check_in_applied")

theorem createOperation_eq_ok {o : OfflineCheckInOperation} (h : t.createOperation o = .ok t') :
    ∃ u, t.operations.insert? o = some u ∧ t' = { t with operations := u } := by
  simp only [Tables.createOperation, bind_eq_ok, pure_eq_ok, getOr_eq_ok] at h
  obtain ⟨_, -, _, -, u, hu, rfl⟩ := h
  exact ⟨u, hu, rfl⟩

theorem reconciled {x : OfflineCheckIn} {o : OfflineCheckInOperation}
    (h : reconcileOfflineCheckIn P a t w now x = .ok (a', t', o)) : Reconciled P a t w now x a' t' o := by
  simp only [reconcileOfflineCheckIn, bind_eq_ok, require_eq_ok, getOr_eq_ok] at h
  obtain ⟨_, -, device, found, h⟩ := h
  split at h
  · rename_i existing
    cases h
    exact .repeated found existing
  simp only [bind_eq_ok, pure_eq_ok, require_eq_ok, Prod.mk.injEq] at h
  obtain ⟨_, signed, _, next, verdict, judged, ⟨a₁, t₁, outcome, code⟩, settled, t₂, h₂, rfl, rfl, rfl⟩ := h
  obtain ⟨u, hu, rfl⟩ := createOperation_eq_ok h₂
  have reports : Reports P t w x device := ⟨found, signed, next⟩
  rw [next]
  cases verdict with
  | noted outcome' code' =>
    cases settled
    exact .noted reports judged hu
  | applies c r =>
    simp only [settle, applyCheckIn, bind_eq_ok, pure_eq_ok, Prod.mk.injEq, createCheckIn_eq_ok] at settled
    obtain ⟨⟨_, _⟩, ⟨a₂, saved, _, ⟨k, arrival, rfl⟩, rfl, rfl⟩, rfl, rfl, rfl, rfl⟩ := settled
    exact .applied reports judged saved arrival hu

/-! ## Steps -/

inductive Step (P : Primitives) (a : Admissions) (t : Tables) (w : Surroundings) (now : Int) : Admissions → Tables → Prop
  | office {a' : Admissions} {t' : Tables} (moves : Moves False a a') (changes : Changes a' t t') :
      Step P a t w now a' t'
  | desk {r : Registration} {a' : Admissions} {k : CheckInRecord} {u : Table CheckInRecord.registrationId}
      {actorId correlationId : Uuid} (mem : r ∈ a.registrations) (confirmed : r.state = .confirmed)
      (saved : a.saveRegistration w.toSurroundings now (arrived r now) = .ok a') (own : k.registrationId = r.id)
      (method : k.method = "staff_console") (arrival : t.checkIns.insert? k = some u) :
      Step P a t w now (a'.appendTimeline r.id "checked_in" now "account" (some actorId) correlationId)
        { t with checkIns := u }
  | manifest {organizationId editionId actorId : Uuid} {t' : Tables} {m : OfflineCredentialManifest}
      (generated : generateOfflineManifest P a t w now organizationId editionId actorId = .ok (t', m)) :
      Step P a t w now a t'
  | switch {deviceId : Uuid} {enabled : Bool} {revokedAt : Option Int} {t' : Tables}
      (switched : switchDevice t deviceId enabled revokedAt = .ok t') : Step P a t w now a t'
  | relay {x : OfflineCheckIn} {a' : Admissions} {t' : Tables} {o : OfflineCheckInOperation}
      (h : Reconciled P a t w now x a' t' o) : Step P a t w now a' t'

/-- An arrival, however it is taken. -/
theorem arrival_move {r : Registration} (mem : r ∈ a.registrations) (confirmed : r.state = .confirmed) {occurredAt : Int}
    (saved : a.saveRegistration w.toSurroundings now (arrived r occurredAt) = .ok a') {actorKind : String}
    {actorId : Option Uuid} {correlationId : Uuid} :
    Registration.Move True a (a'.appendTimeline r.id "checked_in" occurredAt actorKind actorId correlationId) := by
  refine Registration.move_kept mem saved rfl rfl rfl ?_ ?_ (.inr trivial)
  · rw [confirmed]
    exact .arrived
  · rw [confirmed]
    rfl

/-- Checking a registration in at the desk, with the record of its arrival. -/
theorem desk_step {organizationId editionId registrationId actorId : Uuid} {reason : String}
    {correlationId : Uuid} {r : Registration}
    (h : Registration.checkInRegistration a w.toSurroundings now organizationId editionId registrationId actorId reason
      correlationId = .ok (a', r))
    (follows : recordArrival a t now organizationId editionId registrationId actorId reason = .ok t') :
    Step P a t w now a' t' := by
  simp only [Registration.checkInRegistration, bind_eq_ok] at h
  obtain ⟨_, -, _, -, r₀, hr₀, h⟩ := h
  obtain ⟨mem, own⟩ := Registration.lockRegistration_eq_ok hr₀
  have found : a.registrations.get? registrationId = some r₀ := Table.get?_eq_some.mpr ⟨mem, own⟩
  simp only [recordArrival, found, Option.any_some, decide_eq_true_eq] at follows
  split at h
  · rename_i before
    rw [if_pos before] at follows
    cases h
    cases follows
    exact .office .refl .refl
  · rename_i before
    rw [if_neg before, createCheckIn_eq_ok] at follows
    obtain ⟨u, arrival, rfl⟩ := follows
    simp only [bind_eq_ok, pure_eq_ok, require_eq_ok, Prod.mk.injEq] at h
    obtain ⟨_, confirmed, a₁, saved, rfl, -⟩ := h
    exact .desk mem confirmed saved own.symm rfl arrival

theorem exec_step {s s' : System} {call : Call} {answer : Answer} (h : exec P s call = .ok (s', answer)) :
    Step P s.registration.store.admissions s.tables call.surroundings
      (s.registration.clock + call.elapsed) s'.registration.store.admissions s'.tables := by
  unfold exec at h
  split at h
  · rename_i c _
    simp only [bind_eq_ok, pure_eq_ok, Prod.mk.injEq] at h
    obtain ⟨⟨registration, _⟩, executed, t, follows, rfl, -⟩ := h
    have moves := Registration.exec_moves executed
    cases c with
    | checkIn =>
      simp only [Registration.exec, bind_eq_ok, pure_eq_ok, Prod.mk.injEq] at executed
      obtain ⟨⟨store, _⟩, executed, rfl, -⟩ := executed
      exact desk_step (Registration.withAdmissions_eq_ok executed).choose_spec.1 follows
    | restrict => exact .office moves (restrict_changes follows)
    | _ =>
      cases follows
      exact .office moves .refl
  all_goals
    simp only [bind_eq_ok, pure_eq_ok, Prod.mk.injEq] at h
  · obtain ⟨t, h, rfl, -⟩ := h
    exact .office .refl (restrict_changes h)
  · obtain ⟨⟨t, c⟩, h, rfl, -⟩ := h
    exact .office .refl (issue_changes h).changes
  · obtain ⟨⟨t, c⟩, h, rfl, -⟩ := h
    exact .office .refl (revoke_changes h)
  · obtain ⟨⟨t, m⟩, h, rfl, -⟩ := h
    exact .manifest h
  · obtain ⟨t, h, rfl, -⟩ := h
    exact .switch h
  · obtain ⟨⟨a, t, o⟩, h, rfl, -⟩ := h
    exact .relay (reconciled h)

theorem credentialOf_eq_some {x : OfflineCheckIn} {c : Credential} (h : t.credentialOf P x = some c) :
    c ∈ t.credentials ∧ c.organizationId = x.organizationId ∧ c.editionId = x.editionId ∧
      c.tokenDigest = P.credentialDigest x.rawCredentialToken := by
  exact Table.find?_eq_some_and h

/-- What a step does to registrations, and to credentials and their events. -/
theorem Step.changes (h : Step P a t w now a' t') :
    Moves True a a' ∧ ∃ t₁, Changes a' t t₁ ∧ t'.credentials = t₁.credentials ∧ t'.events = t₁.events := by
  cases h with
  | office moves changes => exact ⟨moves.any, _, changes, rfl, rfl⟩
  | desk mem confirmed saved => exact ⟨(arrival_move mem confirmed saved).moves, t, .refl, rfl, rfl⟩
  | manifest generated =>
    simp only [generateOfflineManifest, bind_eq_ok, pure_eq_ok, Prod.mk.injEq] at generated
    obtain ⟨_, -, _, -, _, -, rfl, -⟩ := generated
    exact ⟨.refl, t, .refl, rfl, rfl⟩
  | switch switched =>
    simp only [switchDevice, bind_eq_ok, pure_eq_ok] at switched
    obtain ⟨_, -, rfl⟩ := switched
    exact ⟨.refl, t, .refl, rfl, rfl⟩
  | relay h =>
    cases h with
    | repeated => exact ⟨.refl, t, .refl, rfl, rfl⟩
    | noted => exact ⟨.refl, t, .refl, rfl, rfl⟩
    | applied reports judged saved =>
      obtain ⟨-, found, issued, hr, confirmed⟩ := judge_applies judged
      refine ⟨(arrival_move (Table.get?_eq_some.mp hr).1 confirmed saved).moves, _,
        (Change.verify (credentialOf_eq_some found).1 issued ?_ ?_).changes, rfl, rfl⟩ <;> rfl

end Maru.Accreditation

import Maru.Accreditation.CredentialChanges

/-!
# Credentials over runs

The credentials of a registration succeed one another, and their events tell how: from the
events alone, read in order, the status of each of them follows (`statusesAfter`). Every step
keeps the tables in accord with that reading (`Credentialed`), and so only the last credential
of a registration can be a current one.
-/

namespace Maru.Accreditation

open Registration (Admissions Follows Moves)

variable {P : Primitives} {w : Surroundings} {now : Int} {a a' : Admissions} {t t' : Tables}
  {v u : Table Credential.id} {c d : Credential} {id : Uuid} {kind : EventKind}

/-! ## Successions -/

/-- The statuses of the credentials of a registration, in their order, after one more event. The
event names its credential by number, and is refused where it is not about the last one. -/
def advance (statuses : List CredentialStatus) (event : Nat × EventKind) : Option (List CredentialStatus) :=
  match event.2 with
  | .issued =>
    if event.1 = statuses.length + 1 ∧ statuses.getLast? ≠ some .issued then some (statuses ++ [.issued]) else none
  | .reprinted =>
    if event.1 = statuses.length + 1 ∧ statuses.getLast? = some .issued then
      some (statuses.dropLast ++ [.replaced, .issued])
    else none
  | .verified => if event.1 = statuses.length ∧ statuses.getLast? = some .issued then some statuses else none
  | .revoked =>
    if event.1 = statuses.length ∧ statuses.getLast? = some .issued then some (statuses.dropLast ++ [.revoked])
    else none

def statusesAfter (events : List (Nat × EventKind)) : Option (List CredentialStatus) := events.foldlM advance []

theorem statusesAfter_concat (events : List (Nat × EventKind)) (event : Nat × EventKind) :
    statusesAfter (events ++ [event]) = (statusesAfter events).bind fun statuses => advance statuses event := by
  simp [statusesAfter]

theorem advance_issued {statuses : List CredentialStatus} (vacant : statuses.getLast? ≠ some .issued) :
    advance statuses (statuses.length + 1, .issued) = some (statuses ++ [.issued]) :=
  if_pos ⟨rfl, vacant⟩

theorem advance_reprinted (statuses : List CredentialStatus) :
    advance (statuses ++ [.issued]) (statuses.length + 1 + 1, .reprinted) = some (statuses ++ [.replaced, .issued]) := by
  simp [advance]

theorem advance_verified (statuses : List CredentialStatus) :
    advance (statuses ++ [.issued]) (statuses.length + 1, .verified) = some (statuses ++ [.issued]) := by
  simp [advance]

theorem advance_revoked (statuses : List CredentialStatus) :
    advance (statuses ++ [.issued]) (statuses.length + 1, .revoked) = some (statuses ++ [.revoked]) := by
  simp [advance]

/-- In a succession only the last credential can be issued. -/
theorem statusesAfter_ended {events : List (Nat × EventKind)} {statuses : List CredentialStatus}
    (h : statusesAfter events = some statuses) : ∀ s ∈ statuses.dropLast, s ≠ .issued := by
  induction events using List.reverseRecOn generalizing statuses with
  | nil =>
    cases h
    simp
  | append_singleton events event ih =>
    rw [statusesAfter_concat, Option.bind_eq_some_iff] at h
    obtain ⟨before, hb, h⟩ := h
    have ended := ih hb
    unfold advance at h
    split at h <;> split at h <;> cases h
    · rename_i vacant
      rw [List.dropLast_concat]
      intro s hs issued
      rcases List.eq_nil_or_concat before with rfl | ⟨l, last, rfl⟩
      · cases hs
      · rw [List.concat_eq_append] at hs vacant ended
        rw [List.dropLast_concat] at ended
        rw [List.getLast?_concat, issued.symm] at vacant
        rcases List.mem_append.mp hs with hs | hs
        · exact ended s hs issued
        · exact vacant.2 (congrArg some (List.mem_singleton.mp hs).symm)
    · intro s hs
      rw [List.append_cons, List.dropLast_concat] at hs
      rcases List.mem_append.mp hs with hs | hs
      · exact ended s hs
      · rw [List.mem_singleton.mp hs]
        decide
    · exact ended
    · simpa using ended

/-! ## What the tables say -/

/-- The registration and the number of the credential that the event is about. -/
def subject (t : Table Credential.id) (e : CredentialEvent) : Option (Uuid × Nat) :=
  (t.get? e.credentialId).map fun c => (c.registrationId, c.issueSequence)

/-- What the events say of the credentials of a registration. -/
def told (t : Table Credential.id) (events : List CredentialEvent) (id : Uuid) : List (Nat × EventKind) :=
  events.filterMap fun e => (subject t e).bind fun s => if s.1 = id then some (s.2, e.kind) else none

def statuses (t : Table Credential.id) (id : Uuid) : List CredentialStatus :=
  (t.rows.filter fun c => c.registrationId = id).map Credential.status

theorem length_statuses (t : Table Credential.id) (id : Uuid) :
    (statuses t id).length = (t.rows.filter fun c => c.registrationId = id).length :=
  List.length_map ..

/-- Credentials are numbered for each registration, of which they copy the scope, and told apart
by their digests. -/
structure Registered (a : Admissions) (t : Table Credential.id) : Prop where
  numbered : Numbered Credential.registrationId Credential.issueSequence t.rows
  of : ∀ c ∈ t, ∃ r ∈ a.registrations, c.Of r
  digest : ∀ c ∈ t, ∀ d ∈ t, c.tokenDigest = d.tokenDigest → c = d

structure Credentialed (a : Admissions) (t : Tables) : Prop where
  registered : Registered a t.credentials
  about : ∀ e ∈ t.events, ∃ c ∈ t.credentials, c.id = e.credentialId
  told : ∀ id, statusesAfter (told t.credentials t.events id) = some (statuses t.credentials id)

section

variable (identity : d.identity = c.identity)

include identity

theorem identity_id : d.id = c.id := (Prod.ext_iff.mp identity).1

theorem identity_columns :
    d.registrationId = c.registrationId ∧ d.issueSequence = c.issueSequence ∧ d.tokenDigest = c.tokenDigest := by
  simp only [Credential.identity, Prod.mk.injEq] at identity
  obtain ⟨-, registration, -, -, -, -, digest, number, -⟩ := identity
  exact ⟨registration, number, digest⟩

theorem identity_of {r : Registration.Registration} (of : c.Of r) : d.Of r := by
  simp only [Credential.identity, Prod.mk.injEq] at identity
  obtain ⟨-, registration, organization, edition, account, -⟩ := identity
  exact ⟨registration.trans of.registration, organization.trans of.organization,
    edition.trans of.edition, account.trans of.account⟩

theorem subject_save (hc : c ∈ v) (e : CredentialEvent) : subject (v.save d) e = subject v e := by
  unfold subject
  rw [Table.get?_save]
  cases found : v.get? e.credentialId with
  | none => rfl
  | some b =>
    rw [Option.map_some, Option.map_some, Option.map_some]
    by_cases same : b.id = d.id
    · obtain rfl := Table.eq_of_key (Table.get?_eq_some.mp found).1 hc (same.trans (identity_id identity))
      obtain ⟨registration, number, -⟩ := identity_columns identity
      rw [if_pos same, registration, number]
    · rw [if_neg same]

theorem Registered.save (h : Registered a v) (hc : c ∈ v) : Registered a (v.save d) := by
  obtain ⟨registration, number, digest⟩ := identity_columns identity
  refine ⟨h.numbered.save hc (identity_id identity).symm registration number, fun b hb => ?_, fun b hb b' hb' same => ?_⟩
  · rcases Table.mem_save.mp hb with ⟨hb, -⟩ | ⟨rfl, -⟩
    · exact h.of b hb
    · obtain ⟨r, hr, of⟩ := h.of c hc
      exact ⟨r, hr, identity_of identity of⟩
  · rcases Table.mem_save.mp hb with ⟨old, other⟩ | ⟨new, -⟩ <;>
      rcases Table.mem_save.mp hb' with ⟨old', other'⟩ | ⟨new', -⟩
    · exact h.digest b old b' old' same
    · rw [new', digest] at same
      rw [h.digest b old c hc same] at other
      exact absurd (identity_id identity).symm other
    · rw [new, digest] at same
      rw [h.digest b' old' c hc same.symm] at other'
      exact absurd (identity_id identity).symm other'
    · rw [new, new']

end

theorem subject_insert? (inserted : v.insert? c = some u) {e : CredentialEvent}
    (about : ∃ d ∈ v, d.id = e.credentialId) : subject u e = subject v e := by
  obtain ⟨d, hd, own⟩ := about
  unfold subject
  rw [Table.get?_insert? inserted, if_neg]
  exact fun same => (Table.insert?_eq_some.mp inserted).1 d hd (own.trans same)

theorem Registered.insert? (h : Registered a v) (inserted : v.insert? c = some u)
    {r : Registration.Registration} (hr : r ∈ a.registrations) (of : c.Of r)
    (next : c.issueSequence = latestNumber Credential.registrationId Credential.issueSequence
      v.rows c.registrationId + 1)
    (fresh : ∀ d ∈ v, d.tokenDigest ≠ c.tokenDigest) : Registered a u := by
  refine ⟨h.numbered.insert? inserted next, fun b hb => ?_, fun b hb b' hb' same => ?_⟩
  · rcases (Table.mem_insert? inserted).mp hb with hb | rfl
    · exact h.of b hb
    · exact ⟨r, hr, of⟩
  · rcases (Table.mem_insert? inserted).mp hb with old | new <;>
      rcases (Table.mem_insert? inserted).mp hb' with old' | new'
    · exact h.digest b old b' old' same
    · rw [new'] at same
      exact absurd same (fresh b old)
    · rw [new] at same
      exact absurd same.symm (fresh b' old')
    · rw [new, new']

theorem told_congr {events : List CredentialEvent} (same : ∀ e ∈ events, subject u e = subject v e)
    (id : Uuid) : told u events id = told v events id := by
  refine List.filterMap_congr fun e he => ?_
  rw [same e he]

/-- One more event is told of the registration of its credential. -/
theorem told_concat {events : List CredentialEvent} {e : CredentialEvent} (hc : c ∈ v)
    (about : e.credentialId = c.id) (id : Uuid) : told v (events ++ [e]) id =
      told v events id ++ if c.registrationId = id then [(c.issueSequence, e.kind)] else [] := by
  have found : v.get? e.credentialId = some c := Table.get?_eq_some.mpr ⟨hc, about.symm⟩
  rw [told, List.filterMap_append]
  refine congrArg _ ?_
  rw [List.filterMap_cons, subject, found, Option.map_some, Option.bind_some]
  by_cases own : c.registrationId = id
  · rw [if_pos own, if_pos own]
    rfl
  · rw [if_neg own, if_neg own]
    rfl

theorem exists_subject {e : CredentialEvent} : (subject v e).isSome ↔ ∃ c ∈ v, c.id = e.credentialId := by
  unfold subject
  rw [Option.isSome_map]
  constructor
  · intro found
    obtain ⟨c, hc⟩ := Option.isSome_iff_exists.mp found
    exact ⟨c, Table.get?_eq_some.mp hc⟩
  · rintro ⟨c, hc⟩
    rw [Table.get?_eq_some.mpr hc]
    rfl

theorem statuses_save_other (identity : d.identity = c.identity) (hc : c ∈ v)
    (other : c.registrationId ≠ id) : statuses (v.save d) id = statuses v id := by
  refine Table.filter_map_save hc (identity_id identity).symm ?_ fun own => absurd (of_decide_eq_true own) other
  rw [(identity_columns identity).1]

theorem statuses_insert? (inserted : v.insert? c = some u) (id : Uuid) :
    statuses u id = statuses v id ++ if c.registrationId = id then [c.status] else [] := by
  rw [statuses, (Table.insert?_eq_some.mp inserted).2, List.filter_append, List.map_append, List.filter_singleton]
  by_cases own : c.registrationId = id
  · rw [decide_eq_true own, if_pos own]
    rfl
  · rw [decide_eq_false own, if_neg own]
    rfl

/-! ## Changes -/

namespace Credentialed

variable {e : CredentialEvent}

/-- A current credential is the last one of its registration. -/
theorem last (h : Credentialed a t) (hc : c ∈ t.credentials) (issued : c.status = .issued) :
    ∃ l, (t.credentials.rows.filter fun d => d.registrationId = c.registrationId) = l ++ [c] ∧
      c.issueSequence = l.length + 1 := by
  have mem : c ∈ t.credentials.rows.filter fun d => d.registrationId = c.registrationId :=
    List.mem_filter.mpr ⟨hc, decide_eq_true rfl⟩
  have ended := statusesAfter_ended (h.told c.registrationId)
  rcases List.eq_nil_or_concat (t.credentials.rows.filter fun d => d.registrationId = c.registrationId) with
    empty | ⟨l, last, split⟩
  · rw [empty] at mem
    cases mem
  · rw [List.concat_eq_append] at split
    rw [statuses, split, List.map_append, List.map_singleton, List.dropLast_concat] at ended
    rw [split] at mem
    rcases List.mem_append.mp mem with earlier | new
    · exact absurd issued (ended _ (List.mem_map_of_mem earlier))
    · obtain rfl := List.mem_singleton.mp new
      exact ⟨l, split, h.registered.numbered.number_last split⟩

/-- Saving a current credential changes the last status of its registration. -/
theorem save_last (h : Credentialed a t) (hc : c ∈ t.credentials) (issued : c.status = .issued)
    (identity : d.identity = c.identity) :
    ∃ l, statuses t.credentials c.registrationId = l ++ [.issued] ∧ c.issueSequence = l.length + 1 ∧
      statuses (t.credentials.save d) c.registrationId = l ++ [d.status] := by
  obtain ⟨l, split, number⟩ := h.last hc issued
  have saved := Table.filter_save_last split (identity_id identity).symm
    (decide_eq_true (identity_columns identity).1)
  refine ⟨l.map Credential.status, ?_, ?_, ?_⟩
  · rw [statuses, split, List.map_append, List.map_singleton, issued]
  · rw [List.length_map, number]
  · rw [statuses, saved, List.map_append, List.map_singleton]

/-- An event is told of a credential, and agrees with what became of the statuses. -/
theorem tell (h : Credentialed a t) (registered : Registered a v)
    (subjects : ∀ e ∈ t.events, subject v e = subject t.credentials e) (hc : c ∈ v) (about : e.credentialId = c.id)
    (own : advance (statuses t.credentials c.registrationId) (c.issueSequence, e.kind) =
      some (statuses v c.registrationId))
    (other : ∀ id, c.registrationId ≠ id → statuses v id = statuses t.credentials id) :
    Credentialed a { t with credentials := v, events := t.events ++ [e] } where
  registered := registered
  about := by
    intro b hb
    rcases List.mem_append.mp hb with hb | hb
    · rw [← exists_subject, subjects b hb, exists_subject]
      exact h.about b hb
    · rw [List.mem_singleton.mp hb]
      exact ⟨c, hc, about.symm⟩
  told := by
    intro id
    show statusesAfter (Accreditation.told v (t.events ++ [e]) id) = some (statuses v id)
    rw [told_concat hc about, told_congr subjects]
    by_cases same : c.registrationId = id
    · subst same
      rw [if_pos rfl, statusesAfter_concat, h.told, Option.bind_some, own]
    · rw [if_neg same, List.append_nil, h.told, other id same]

/-- What is left of a registration's credentials when none is current any more. -/
theorem clears (h : Credentialed a t) (clears : Clears t.credentials id v kind) :
    Registered a v ∧ (∀ e, subject v e = subject t.credentials e) ∧
      (∀ k, latestNumber Credential.registrationId Credential.issueSequence v.rows k =
        latestNumber Credential.registrationId Credential.issueSequence t.credentials.rows k) ∧
      (∀ k, id ≠ k → statuses v k = statuses t.credentials k) ∧
      advance (statuses t.credentials id)
        (latestNumber Credential.registrationId Credential.issueSequence t.credentials.rows id + 1,
          kind) = some (statuses v id ++ [.issued]) := by
  rw [h.registered.numbered.latestNumber_eq id, ← length_statuses]
  cases clears with
  | vacant alone =>
    refine ⟨h.registered, fun _ => rfl, fun _ => rfl, fun _ _ => rfl, ?_⟩
    refine advance_issued fun last => ?_
    obtain ⟨c, hc, issued⟩ := List.mem_map.mp (List.mem_of_getLast? last)
    obtain ⟨hc, own⟩ := List.mem_filter.mp hc
    exact alone c hc (of_decide_eq_true own) issued
  | @replaced c d mem own issued identity replaced =>
    refine ⟨h.registered.save identity mem, subject_save identity mem, ?_, fun k other => ?_, ?_⟩
    · exact Numbered.latestNumber_save mem (identity_id identity).symm (identity_columns identity).1
        (identity_columns identity).2.1
    · exact statuses_save_other identity mem (own ▸ other)
    · obtain ⟨l, before, number, after⟩ := h.save_last mem issued identity
      rw [own] at before after
      rw [before, after, replaced, List.length_append, List.length_singleton, List.append_assoc]
      exact advance_reprinted l

theorem change (h : Credentialed a t) (change : Change a t t') : Credentialed a t' := by
  cases change with
  | @issue r c v u e mem of issued next clears fresh inserted about =>
    obtain ⟨registered, subjects, latest, others, told⟩ := h.clears clears
    have next' : c.issueSequence =
        latestNumber Credential.registrationId Credential.issueSequence v.rows c.registrationId + 1 := by
      rw [latest, next]
    refine h.tell (registered.insert? inserted mem of next' fresh) (fun b hb => ?_)
      ((Table.mem_insert? inserted).mpr (.inr rfl)) about ?_ fun k other => ?_
    · rw [← subjects b]
      refine subject_insert? inserted ?_
      rw [← exists_subject, subjects b, exists_subject]
      exact h.about b hb
    · rw [next, told, statuses_insert? inserted, if_pos rfl, issued]
    · rw [statuses_insert? inserted, if_neg other, List.append_nil, others k other]
  | @revoke c d e mem issued identity revoked about kind =>
    obtain ⟨l, before, number, after⟩ := h.save_last mem issued identity
    obtain ⟨registration, sequence, -⟩ := identity_columns identity
    refine h.tell (h.registered.save identity mem) (fun b _ => subject_save identity mem b)
      (Table.mem_save.mpr (.inr ⟨rfl, c, mem, (identity_id identity).symm⟩)) (about.trans (identity_id identity).symm) ?_
      fun k other => statuses_save_other identity mem (registration ▸ other)
    rw [registration, sequence, kind, before, number, after, revoked]
    exact advance_revoked l
  | @verify c e mem issued about kind =>
    obtain ⟨l, before, number, -⟩ := h.save_last mem issued rfl
    refine h.tell h.registered (fun _ _ => rfl) mem about ?_ fun _ _ => rfl
    rw [kind, before, number]
    exact advance_verified l

theorem changes (h : Credentialed a t) (changes : Changes a t t') : Credentialed a t' :=
  changes.keeps (fun _ _ h step => h.change step) h

/-- The registrations are still there. -/
theorem follows (h : Credentialed a t) (follows : Follows a a') : Credentialed a' t where
  registered := {
    numbered := h.registered.numbered
    of := by
      intro c hc
      obtain ⟨r, hr, of⟩ := h.registered.of c hc
      obtain ⟨r', hr', identity⟩ := follows.1 r hr
      simp only [Registration.Registration.identity, Prod.mk.injEq] at identity
      obtain ⟨id, organization, edition, account, -⟩ := identity
      exact ⟨r', hr', of.registration.trans id.symm, of.organization.trans organization.symm,
        of.edition.trans edition.symm, of.account.trans account.symm⟩
    digest := h.registered.digest }
  about := h.about
  told := h.told

theorem of_eq (h : Credentialed a t) (credentials : t'.credentials = t.credentials)
    (events : t'.events = t.events) : Credentialed a t' where
  registered := credentials ▸ h.registered
  about := by
    rw [credentials, events]
    exact h.about
  told := by
    rw [credentials, events]
    exact h.told

theorem step (h : Credentialed a t) (step : Step P a t w now a' t') : Credentialed a' t' := by
  obtain ⟨moves, t₁, changes, credentials, events⟩ := step.changes
  exact ((h.follows (Moves.follows moves)).changes changes).of_eq credentials events

end Credentialed

/-! ## Runs -/

/-- Ended credentials stay as they are, the others keep their identity, and
what was told stays told. -/
structure Lasts (t t' : Tables) : Prop where
  ended : ∀ c ∈ t.credentials, c.status ≠ .issued → c ∈ t'.credentials
  identity : ∀ c ∈ t.credentials, ∃ d ∈ t'.credentials, d.identity = c.identity
  events : t.events <+: t'.events

theorem Lasts.refl (t : Tables) : Lasts t t := ⟨fun _ hc _ => hc, fun c hc => ⟨c, hc, rfl⟩, List.prefix_rfl⟩

theorem Lasts.trans {t'' : Tables} (h : Lasts t t') (h' : Lasts t' t'') : Lasts t t'' where
  ended := fun c hc ended => h'.ended c (h.ended c hc ended) ended
  identity := by
    intro c hc
    obtain ⟨d, hd, identity⟩ := h.identity c hc
    obtain ⟨e, he, identity'⟩ := h'.identity d hd
    exact ⟨e, he, identity'.trans identity⟩
  events := h.events.trans h'.events

theorem lasts_save (hc : c ∈ v) (issued : c.status = .issued) (identity : d.identity = c.identity) :
    (∀ b ∈ v, b.status ≠ .issued → b ∈ v.save d) ∧ ∀ b ∈ v, ∃ b' ∈ v.save d, b'.identity = b.identity := by
  constructor
  · intro b hb ended
    refine Table.mem_save.mpr (.inl ⟨hb, fun same => ended ?_⟩)
    rwa [Table.eq_of_key hb hc (same.trans (identity_id identity))]
  · exact fun b hb => Table.exists_save (φ := fun x => x.identity = b.identity) hc
      (identity_id identity).symm identity.trans ⟨b, hb, rfl⟩

theorem Clears.lasts (h : Clears v id u kind) :
    (∀ b ∈ v, b.status ≠ .issued → b ∈ u) ∧ ∀ b ∈ v, ∃ b' ∈ u, b'.identity = b.identity := by
  cases h with
  | vacant => exact ⟨fun _ hb _ => hb, fun b hb => ⟨b, hb, rfl⟩⟩
  | replaced mem _ issued identity => exact lasts_save mem issued identity

theorem Change.lasts (h : Change a t t') : Lasts t t' := by
  cases h with
  | issue _ _ _ _ clears _ inserted =>
    obtain ⟨ended, same⟩ := clears.lasts
    exact ⟨fun b hb h => (Table.mem_insert? inserted).mpr (.inl (ended b hb h)),
      fun b hb => Table.exists_insert? inserted (same b hb), List.prefix_append ..⟩
  | revoke mem issued identity =>
    obtain ⟨ended, same⟩ := lasts_save mem issued identity
    exact ⟨ended, same, List.prefix_append ..⟩
  | verify => exact ⟨fun _ hb _ => hb, fun b hb => ⟨b, hb, rfl⟩, List.prefix_append ..⟩

theorem Step.lasts (h : Step P a t w now a' t') : Lasts t t' := by
  obtain ⟨-, t₁, changes, credentials, events⟩ := h.changes
  have lasts : Lasts t t₁ := changes.keeps (fun _ _ h step => h.trans step.lasts) (.refl t)
  refine ⟨?_, ?_, ?_⟩
  · rw [credentials]
    exact lasts.ended
  · rw [credentials]
    exact lasts.identity
  · rw [events]
    exact lasts.events

/-- No credential has been issued. -/
structure Unissued (t : Tables) : Prop where
  credentials : t.credentials.rows = []
  events : t.events = []

theorem Unissued.credentialed (h : Unissued t) : Credentialed a t where
  registered := by
    constructor
    · rw [h.credentials]
      exact .nil
    all_goals simp [Table.mem_def, h.credentials]
  about := by simp [h.events]
  told := by simp [h.events, h.credentials, told, statuses, statusesAfter]

/-- In every reachable state the credentials of a registration are of its scope and numbered from
one, no two have a token, only the last is a current one, and their events, read in order, lead
to their statuses. After any further run an ended one is unchanged, any other has its identity,
and the events are what the later ones start with. -/
theorem run_credentialed (P : Primitives) {s : System} (hs : Unissued s.tables) (calls more : List Call) :
    Credentialed ((accreditationMachine P).run s calls).registration.store.admissions
        ((accreditationMachine P).run s calls).tables ∧
      (∀ c ∈ ((accreditationMachine P).run s calls).tables.credentials, c.status = .issued →
        ∀ d ∈ ((accreditationMachine P).run s calls).tables.credentials, d.registrationId =
          c.registrationId → d.issueSequence ≤ c.issueSequence ∧ (d.status = .issued → d = c)) ∧
      Lasts ((accreditationMachine P).run s calls).tables ((accreditationMachine P).run s (calls ++ more)).tables := by
  have credentialed := Machine.run_invariant (M := accreditationMachine P)
    (I := fun s : System => Credentialed s.registration.store.admissions s.tables)
    (fun _ _ _ _ h executed => h.step (exec_step executed)) hs.credentialed calls
  refine ⟨credentialed, fun c hc issued d hd own => ?_, ?_⟩
  · obtain ⟨l, split, number⟩ := credentialed.last hc issued
    have numbered := credentialed.registered.numbered
    have latest := numbered.latestNumber_eq c.registrationId
    rw [split, List.length_append, List.length_singleton] at latest
    refine ⟨?_, fun issued' => ?_⟩
    · have bound := (numbered.le_latestNumber hd).2
      rw [own] at bound
      omega
    · obtain ⟨l', split', number'⟩ := credentialed.last hd issued'
      rw [own, split] at split'
      exact (List.cons.inj (List.append_inj' split' rfl).2).1.symm
  · rw [Machine.run_append]
    exact Machine.run_invariant (M := accreditationMachine P) (I := fun s' : System => Lasts _ s'.tables)
      (fun _ _ _ _ h executed => h.trans (exec_step executed).lasts) (.refl _) more

/-! ## A run -/

/-- The digests of two tokens, a manifest and a report, and the texts of the instants they hold. -/
def gatePrimitives : Primitives where
  toPrimitives := { Registration.fairPrimitives with
    canonicalDigest _ := "855395870e2366acb7cece79fda05c8366a680d0e46b1449ab85a55ae5c4ee9f" }
  credentialDigest token := if token = "first" then "1298fae56cf5d85c1a5f53f23ce5ccd85974d3b8677e2395be3504433fcca483"
    else "a0a0c7aaba4ce0046b643832a9cb2005bd5dd37db661015b6b2c133b8bd37be5"
  hmac key _ := if key = "manifest" then "2fcfa33a009c0deb1187cad3e8ef36d6d38cea27977f923664f33f661ddd52db"
    else "2c9af0d63b833f5396ed1a1d5d88db171366e2439a1cd3f85e2878cfad88dae3"
  isoformat instant := if instant = 6 then "1970-01-01T00:00:00.000006+00:00" else "1970-01-01T12:00:00.000006+00:00"

def gateSurroundings : Surroundings where
  toSurroundings := Registration.fairSurroundings
  decideAccreditation _ _ _ _ := true
  allowsOfflineCheckInRelay _ _ := true
  restrictsCredentials _ := true
  offlineManifestSecret := "manifest"
  environ _ := "relay"

/-- One relay device at the fair, and nothing issued yet. -/
def gate : System where
  registration := Registration.fair
  tables := ⟨∅, [], ⟨[⟨70, 1, 2, "GATE", "RELAY", true, 0, none⟩], by decide⟩, ∅, ∅, ∅⟩

def gateRegistration (c : Registration.Call) : Call :=
  ⟨c.elapsed, gateSurroundings, c.newId, c.childId, c.correlationId, ⟨c.newId, "", ""⟩, "", .registration c.command⟩

def gateCall (draw : CredentialDraw) (command : Command) : Call :=
  ⟨1, gateSurroundings, draw.id, fun child => child, draw.id, draw, "", command⟩

/-- The arrival of account 11, as the device reports it. -/
def gateReport : OfflineCheckIn :=
  ⟨1, 2, "GATE", 75, 1, 1, "first", 6, "2c9af0d63b833f5396ed1a1d5d88db171366e2439a1cd3f85e2878cfad88dae3"⟩

/-- Account 11 pays and arrives while the device is offline; its credential is
reprinted and revoked. -/
def gateDay : List Call :=
  Registration.fairPayment.map gateRegistration ++
    [gateCall ⟨71, "first", "PUB1"⟩ (.issueCredential ⟨1, 2, 0x34000000000000000000000000000000, 20, "Badge"⟩),
      gateCall ⟨72, "", ""⟩ (.generateOfflineManifest 1 2 20),
        gateCall ⟨73, "", ""⟩ (.reconcileOfflineCheckIn gateReport),
      gateCall ⟨74, "second", "PUB2"⟩ (.issueCredential ⟨1, 2, 0x34000000000000000000000000000000, 20, "Lost"⟩),
      gateCall ⟨76, "", ""⟩ (.revokeCredential 1 2 74 20 "Left")]

theorem gateDay_credentialed :
    ((accreditationMachine gatePrimitives).run gate gateDay).tables.credentials.rows.map
        (fun c => (c.issueSequence, c.status)) = [(1, .replaced), (2, .revoked)] ∧
      Credentialed ((accreditationMachine gatePrimitives).run gate gateDay).registration.store.admissions
        ((accreditationMachine gatePrimitives).run gate gateDay).tables := by
  refine ⟨by decide +kernel, ?_⟩
  exact (run_credentialed gatePrimitives (s := gate) ⟨rfl, rfl⟩ gateDay []).1

end Maru.Accreditation

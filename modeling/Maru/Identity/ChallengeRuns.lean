import Maru.Identity.ChallengeInvariant

/-!
# Runs of the identity commands

In every run a token that has been issued is consumed once at most, before it expires, and for the
account and the address that it was issued for; an account is verified by such a consumption, or by
the acceptance of its invitation. A consumption succeeds or is refused as invalid, except that the
guard of the database refuses it where the token is that of a reserved account (`run_identity`).
-/

namespace Maru.Identity

variable {lib : Library}

/-! ## The law -/

variable (lib) in
/-- What is answered about tokens. Two tokens are told apart by their digests. -/
structure TokenLaw (answers : List Answer) : Prop where
  once : answers.Pairwise fun earlier later => ∀ c c', earlier = .consumed c →
    later = .consumed c' → lib.tokenDigest c.token ≠ lib.tokenDigest c'.token
  issued : ∀ before c after, answers = before ++ .consumed c :: after → ∃ i, .issued i ∈ before ∧
    lib.tokenDigest i.token = lib.tokenDigest c.token ∧ i.purpose.value = c.purpose ∧ i.accountId = c.accountId ∧
    i.email = c.email
  early : ∀ c i, .consumed c ∈ answers → .issued i ∈ answers →
    lib.tokenDigest i.token = lib.tokenDigest c.token → c.now < i.expiresAt

variable (lib) in
/-- What a step does: a consumption succeeds, or is refused as invalid and changes nothing; and an
account is verified by the consumption of a token for its email, or by an acceptance. -/
structure StepLaw (store : Store) (event : Event) : Prop where
  consumption : ∀ request, event.operation = .consume request → (∃ c, (store.exec lib event).2 = .consumed c) ∨
    ∃ code, store.exec lib event = (store, .notConsumed (.validation code))
  verified : ∀ accountId, (store.exec lib event).1.verifiedAt accountId ≠ store.verifiedAt accountId →
    (∃ c account, (store.exec lib event).2 = .consumed c ∧ c.purpose = "verify_email" ∧ c.accountId = accountId ∧
      (store.exec lib event).1.accounts.get? accountId = some account ∧ account.email = c.email) ∨
    ∃ newPassword, event.operation = .acceptInvitation accountId newPassword

variable (lib) in
/-- No token of a reserved account is presented that would be consumed otherwise. -/
def SparesReserved (store : Store) (event : Event) : Prop :=
  ∀ request, event.operation = .consume request → ∀ purpose challenge account invitation,
    ¬ PresentsReserved lib store request event.sur.now purpose challenge account invitation

/-! ## The history -/

variable (lib) in
/-- The challenge is that of the token. -/
structure IdentityChallenge.IsOf (challenge : IdentityChallenge) (i : IssuedToken) : Prop where
  digest : challenge.tokenDigest = lib.tokenDigest i.token
  purpose : challenge.purpose = i.purpose
  account : challenge.accountId = i.accountId
  expires : challenge.expiresAt = i.expiresAt

variable (lib) in
/-- The challenges of the store are those that have been issued, each for the email of its account.
-/
structure History (store : Store) (given : List Answer) : Prop where
  inv : StoreInv lib store
  law : TokenLaw lib given
  issued : ∀ i, .issued i ∈ given → (∃ challenge ∈ store.challenges, challenge.IsOf lib i) ∧
    ∃ account, store.accounts.get? i.accountId = some account ∧ account.email = i.email
  challenges : ∀ challenge ∈ store.challenges, ∃ i, .issued i ∈ given ∧ challenge.IsOf lib i
  consumed : ∀ c, .consumed c ∈ given → ∃ challenge ∈ store.challenges,
    challenge.tokenDigest = lib.tokenDigest c.token ∧ challenge.consumedAt = some c.now

theorem history_start (accounts : Table Account.id) : History lib (.start accounts) [] where
  inv := storeInv_start accounts
  law := ⟨.nil, fun before c after h => by simp at h, fun _ _ h => nomatch h⟩
  issued := fun _ h => nomatch h
  challenges := fun _ h => nomatch h
  consumed := fun _ h => nomatch h

/-- An answer that is about no token. -/
def Answer.silent : Answer → Bool
  | .issued _ => false
  | .consumed _ => false
  | _ => true

theorem mem_of_silent (given : List Answer) {answer : Answer} (silent : answer.silent = true) :
    (∀ i, .issued i ∈ given ++ [answer] → .issued i ∈ given) ∧ ∀ c,
      .consumed c ∈ given ++ [answer] → .consumed c ∈ given := by
  refine ⟨fun i h => ?_, fun c h => ?_⟩
  · rcases List.mem_append.mp h with h | h
    · exact h
    · rw [← List.mem_singleton.mp h] at silent
      cases silent
  · rcases List.mem_append.mp h with h | h
    · exact h
    · rw [← List.mem_singleton.mp h] at silent
      cases silent

/-- A list with an element that is not its last has it before the last. -/
theorem eq_append_of_append_singleton {α : Type} {l before after : List α} {a b : α}
    (h : l ++ [b] = before ++ a :: after) :
    (after = [] ∧ before = l ∧ a = b) ∨ ∃ rest, after = rest ++ [b] ∧ l = before ++ a :: rest := by
  rcases List.eq_nil_or_concat after with rfl | ⟨rest, last, rfl⟩
  · obtain ⟨same, eq⟩ := List.append_inj' h rfl
    exact .inl ⟨rfl, same.symm, (List.singleton_inj.mp eq).symm⟩
  · refine .inr ⟨rest, ?_⟩
    rw [List.concat_eq_append, ← List.cons_append, ← List.append_assoc] at h
    obtain ⟨same, eq⟩ := List.append_inj' h rfl
    rw [List.concat_eq_append, List.singleton_inj.mp eq]
    exact ⟨rfl, same⟩

theorem TokenLaw.append_silent {given : List Answer} (h : TokenLaw lib given) {answer : Answer}
    (silent : answer.silent = true) : TokenLaw lib (given ++ [answer]) := by
  obtain ⟨issued, consumed⟩ := mem_of_silent given silent
  refine ⟨List.pairwise_append.mpr ⟨h.once, List.pairwise_singleton _ _, fun a _ b hb c c' _ same => ?_⟩,
    fun before c after eq => ?_, fun c i hc hi => h.early c i (consumed c hc) (issued i hi)⟩
  · rw [List.mem_singleton.mp hb] at same
    rw [same] at silent
    cases silent
  · rcases eq_append_of_append_singleton eq with ⟨_, _, same⟩ | ⟨rest, _, same⟩
    · rw [← same] at silent
      cases silent
    · exact h.issued before c rest same

/-- A command that is about no token. -/
theorem History.changes {store store' : Store} {given : List Answer} (h : History lib store given)
    {accepted : Option Uuid}
    (changes : Changes lib store store' accepted) {answer : Answer} (silent : answer.silent = true) :
    History lib store' (given ++ [answer]) := by
  obtain ⟨issued, consumed⟩ := mem_of_silent given silent
  have same := changes.keeps.challenges
  refine ⟨changes.inv, h.law.append_silent silent, fun i hi => ?_, fun challenge hc => ?_, fun c hc => ?_⟩
  · obtain ⟨⟨challenge, hc, of⟩, account, ha, email⟩ := h.issued i (issued i hi)
    obtain ⟨account', ha', kept⟩ := changes.keeps.emails challenge hc account (by rwa [of.account])
    rw [of.account] at ha'
    exact ⟨⟨challenge, by rwa [same], of⟩, account', ha', kept.trans email⟩
  · obtain ⟨i, hi, of⟩ := h.challenges challenge (by rwa [← same])
    exact ⟨i, List.mem_append_left _ hi, of⟩
  · obtain ⟨challenge, hm, what⟩ := h.consumed c (consumed c hc)
    exact ⟨challenge, by rwa [same], what⟩

/-- The same before an answer is given. -/
theorem History.changes_quietly {store store' : Store} {given : List Answer} (h : History lib store given)
    {accepted : Option Uuid} (changes : Changes lib store store' accepted) : History lib store' given := by
  have same := changes.keeps.challenges
  refine ⟨changes.inv, h.law, fun i hi => ?_, fun challenge hc => ?_, fun c hc => ?_⟩
  · obtain ⟨⟨challenge, hc, of⟩, account, ha, email⟩ := h.issued i hi
    obtain ⟨account', ha', kept⟩ := changes.keeps.emails challenge hc account (by rwa [of.account])
    rw [of.account] at ha'
    exact ⟨⟨challenge, by rwa [same], of⟩, account', ha', kept.trans email⟩
  · exact h.challenges challenge (by rwa [← same])
  · obtain ⟨challenge, hm, what⟩ := h.consumed c hc
    exact ⟨challenge, by rwa [same], what⟩

theorem History.silent {store : Store} {given : List Answer} (h : History lib store given)
    {answer : Answer} (silent : answer.silent = true) : History lib store (given ++ [answer]) := by
  obtain ⟨issued, consumed⟩ := mem_of_silent given silent
  refine ⟨h.inv, h.law.append_silent silent, fun i hi => h.issued i (issued i hi),
    fun challenge hc => ?_, fun c hc => h.consumed c (consumed c hc)⟩
  obtain ⟨i, hi, of⟩ := h.challenges challenge hc
  exact ⟨i, List.mem_append_left _ hi, of⟩

/-! ## A token is issued -/

theorem History.issues {store store' : Store} {given : List Answer} (h : History lib store given) {i : IssuedToken}
    (issues : Issues lib store store' i) : History lib store' (given ++ [.issued i]) := by
  obtain ⟨challenge, inserted, digest, purpose, account, expires, unconsumed, contact⟩ := issues.challenge
  obtain ⟨owner, ho, email⟩ := issues.account
  have mem {other : IdentityChallenge} : other ∈ store'.challenges ↔ other ∈ store.challenges ∨ other = challenge :=
    Table.mem_insert? inserted
  have fresh := (Table.insert?_eq_some.mp inserted).1
  -- No earlier token has the digest.
  have other {c : Consumption} (hc : .consumed c ∈ given) : lib.tokenDigest i.token ≠ lib.tokenDigest c.token := by
    intro same
    obtain ⟨old, hold, eq, _⟩ := h.consumed c hc
    exact fresh old hold (eq.trans (same.symm.trans digest.symm))
  have before {c : Consumption} (hc : .consumed c ∈ given ++ [Answer.issued i]) : .consumed c ∈ given := by
    rcases List.mem_append.mp hc with hc | hc
    · exact hc
    · cases List.mem_singleton.mp hc
  refine ⟨⟨?_, ?_, ?_, ?_⟩, ⟨?_, ?_, ?_⟩, ?_, ?_, ?_⟩
  · rw [issues.accounts, issues.invitations]
    exact h.inv.subject
  · rw [issues.invitations]
    exact h.inv.retained
  · intro c hc
    rw [issues.accounts]
    rcases mem.mp hc with hc | rfl
    · exact h.inv.contact c hc
    · exact ⟨owner, by rw [account, ho], by rw [contact, email]⟩
  · intro c hc t ht
    rcases mem.mp hc with hc | rfl
    · exact h.inv.early c hc t ht
    · rw [unconsumed] at ht
      cases ht
  · refine List.pairwise_append.mpr ⟨h.law.once, List.pairwise_singleton _ _, fun a _ b hb c c' _ same => ?_⟩
    rw [List.mem_singleton.mp hb] at same
    cases same
  · intro before c after eq
    rcases eq_append_of_append_singleton eq with ⟨_, _, same⟩ | ⟨rest, _, same⟩
    · cases same
    · exact h.law.issued before c rest same
  · intro c j hc hj same
    rcases List.mem_append.mp hj with hj | hj
    · exact h.law.early c j (before hc) hj same
    · cases List.mem_singleton.mp hj
      exact absurd same (other (before hc))
  · intro j hj
    rw [issues.accounts]
    rcases List.mem_append.mp hj with hj | hj
    · obtain ⟨⟨c, hc, of⟩, owner⟩ := h.issued j hj
      exact ⟨⟨c, mem.mpr (.inl hc), of⟩, owner⟩
    · cases List.mem_singleton.mp hj
      exact ⟨⟨challenge, mem.mpr (.inr rfl), ⟨digest, purpose, account, expires⟩⟩, owner, ho, email⟩
  · intro c hc
    rcases mem.mp hc with hc | rfl
    · obtain ⟨j, hj, of⟩ := h.challenges c hc
      exact ⟨j, List.mem_append_left _ hj, of⟩
    · exact ⟨i, by simp, ⟨digest, purpose, account, expires⟩⟩
  · intro c hc
    obtain ⟨old, hold, what⟩ := h.consumed c (before hc)
    exact ⟨old, mem.mpr (.inl hold), what⟩

/-! ## A token is consumed -/

theorem Purpose.value_of_ofValue? {value : String} {purpose : Purpose}
    (h : Purpose.ofValue? value = some purpose) : purpose.value = value := by
  unfold Purpose.ofValue? at h
  split_ifs at h with verify recover
  · cases h
    exact verify.symm
  · cases h
    exact recover.symm

/-- The account that a consumption updates is none that the guard looks at. -/
theorem Consumes.changes {store store' : Store} (inv : StoreInv lib store) {request : Store.ConsumeRequest} {now : Nat}
    {purpose : Purpose} {challenge : IdentityChallenge} {old account : Account}
    (h : Consumes lib store store' request now purpose challenge old account) :
    Changes lib store { store with accounts := store.accounts.save account } (some old.id) := by
  obtain ⟨id, email, _, _⟩ := not_reserved_of_consumedAccount h.changed
  have key := (Table.get?_eq_some.mp h.owner).2
  exact updateAccount inv account (some old.id) (by rw [key, h.owner]) id (fun _ => email)
    (fun invitation hi status => absurd (h.free invitation hi) status) (.inl rfl)

theorem History.consumes {store store' : Store} {given : List Answer} (h : History lib store given)
    {request : Store.ConsumeRequest} {now : Nat} {purpose : Purpose} {challenge : IdentityChallenge}
      {old account : Account}
    (consumes : Consumes lib store store' request now purpose challenge old account) :
    History lib store' (given ++ [.consumed ⟨request.rawToken, request.purpose, account.id, account.email, now⟩]) := by
  have changes := consumes.changes h.inv
  have between := h.changes_quietly changes
  obtain ⟨found, is⟩ := Table.find?_eq_some_and consumes.found
  have usable := of_decide_eq_true consumes.usable
  obtain ⟨id, email, _, _⟩ := not_reserved_of_consumedAccount consumes.changed
  have key : old.id = challenge.accountId := (Table.get?_eq_some.mp consumes.owner).2
  obtain ⟨after, saved⟩ : ∃ c : IdentityChallenge, c =
      { challenge with attemptCount := challenge.attemptCount + 1, consumedAt := some now } := ⟨_, rfl⟩
  have written := consumes.written
  rw [← saved] at written
  have digest : after.tokenDigest = challenge.tokenDigest := by rw [saved]
  have mem {other : IdentityChallenge} :
      other ∈ store.challenges.save after ↔
        (other ∈ store.challenges ∧ other.tokenDigest ≠ after.tokenDigest) ∨ other = after :=
    Table.mem_save_of_mem found digest.symm
  -- A challenge that was there is still there, but for the consumed one.
  have stays {other : IdentityChallenge} (ho : other ∈ store.challenges) :
      other = challenge ∨ other ∈ store.challenges.save after := by
    by_cases same : other.tokenDigest = after.tokenDigest
    · exact .inl (Table.eq_of_key ho found (same.trans digest))
    · exact .inr (mem.mpr (.inl ⟨ho, same⟩))
  have of_after {i : IssuedToken} (of : challenge.IsOf lib i) : after.IsOf lib i := by
    rw [saved]
    exact ⟨of.digest, of.purpose, of.account, of.expires⟩
  have unconsumed {c : Consumption} (hc : .consumed c ∈ given) :
      lib.tokenDigest c.token ≠ lib.tokenDigest request.rawToken := by
    intro same
    obtain ⟨other, ho, eq, at_⟩ := h.consumed c hc
    obtain rfl := Table.eq_of_key ho found (eq.trans (same.trans is.1.symm))
    rw [usable.1] at at_
    cases at_
  obtain ⟨i, hi, of⟩ := h.challenges challenge found
  obtain ⟨_, owner, ho, contact⟩ := h.issued i hi
  obtain rfl : owner = old := by
    rw [← of.account, consumes.owner] at ho
    exact (Option.some.inj ho).symm
  have token : lib.tokenDigest i.token = lib.tokenDigest request.rawToken := of.digest.symm.trans is.1
  have issued_before {j : IssuedToken} {c : Consumption}
      (hj : .issued j ∈ given ++ [Answer.consumed c]) : .issued j ∈ given := by
    rcases List.mem_append.mp hj with hj | hj
    · exact hj
    · cases List.mem_singleton.mp hj
  rw [written]
  refine ⟨⟨between.inv.subject, between.inv.retained, fun other ho => ?_, fun other ho t ht => ?_⟩,
    ⟨?_, fun before c after eq => ?_, fun c j hc hj same => ?_⟩, fun j hj => ?_, fun other ho => ?_, fun c hc => ?_⟩
  · rcases mem.mp ho with ho | rfl
    · exact between.inv.contact other ho.1
    · rw [saved]
      exact between.inv.contact challenge found
  · rcases mem.mp ho with ho | rfl
    · exact h.inv.early other ho.1 t ht
    · rw [saved] at ht ⊢
      cases ht
      exact usable.2.1
  · refine List.pairwise_append.mpr ⟨h.law.once, List.pairwise_singleton _ _, fun a ha b hb c c' earlier later => ?_⟩
    rw [List.mem_singleton.mp hb] at later
    cases later
    rw [earlier] at ha
    exact unconsumed ha
  · rcases eq_append_of_append_singleton eq with ⟨_, same, last⟩ | ⟨rest, _, same⟩
    · cases last
      rw [same]
      refine ⟨i, hi, token, ?_, ?_, contact.symm.trans email.symm⟩
      · rw [← of.purpose, is.2]
        exact Purpose.value_of_ofValue? consumes.known
      · rw [← of.account, ← key]
        exact id.symm
    · exact h.law.issued before c rest same
  · rcases List.mem_append.mp hc with hc | hc
    · exact h.law.early c j hc (issued_before hj) same
    · cases List.mem_singleton.mp hc
      obtain ⟨⟨other, hother, its⟩, _⟩ := h.issued j (issued_before hj)
      obtain rfl := Table.eq_of_key hother found (its.digest.trans (same.trans is.1.symm))
      rw [← its.expires]
      exact usable.2.1
  · obtain ⟨⟨other, hother, its⟩, account'⟩ := between.issued j (issued_before hj)
    refine ⟨?_, account'⟩
    rcases stays hother with rfl | kept
    · exact ⟨after, mem.mpr (.inr rfl), of_after its⟩
    · exact ⟨other, kept, its⟩
  · rcases mem.mp ho with ho | rfl
    · obtain ⟨j, hj, its⟩ := h.challenges other ho.1
      exact ⟨j, List.mem_append_left _ hj, its⟩
    · exact ⟨i, List.mem_append_left _ hi, of_after of⟩
  · rcases List.mem_append.mp hc with hc | hc
    · obtain ⟨other, hother, eq, when⟩ := h.consumed c hc
      rcases stays hother with rfl | kept
      · rw [usable.1] at when
        cases when
      · exact ⟨other, kept, eq, when⟩
    · cases List.mem_singleton.mp hc
      exact ⟨after, mem.mpr (.inr rfl), digest.trans is.1, by rw [saved]⟩

/-! ## Steps -/

/-- What a step that consumes nothing does. -/
structure Quiet (lib : Library) (store : Store) (given : List Answer) (after : Store × Answer)
    (accepted : Option Uuid) : Prop where
  history : History lib after.1 (given ++ [after.2])
  verified : ∀ accountId, accepted ≠ some accountId → after.1.verifiedAt accountId = store.verifiedAt accountId

theorem quiet_issuing {store : Store} {given : List Answer} (h : History lib store given)
    {outcome : Outcome (Option IssuedToken)} (what : Issuing lib store outcome) :
    Quiet lib store given (issuing outcome) none := by
  obtain ⟨middle, changes, ⟨rfl, none⟩ | ⟨i, ok, issues⟩⟩ := what
  · have history := h.changes_quietly changes
    obtain ⟨middle, result⟩ := outcome
    cases result with
    | error e => exact ⟨history.silent rfl, changes.verified⟩
    | ok issued =>
      cases issued with
      | none => exact ⟨history.silent rfl, changes.verified⟩
      | some i => exact absurd rfl (none i)
  · have history := (h.changes_quietly changes).issues issues
    obtain ⟨store', result⟩ := outcome
    replace ok : result = .ok (some i) := ok
    subst ok
    refine ⟨history, fun accountId ne => ?_⟩
    rw [← changes.verified accountId ne]
    unfold Store.verifiedAt
    rw [show (issuing (store', .ok (some i))).1 = store' from rfl, issues.accounts]

theorem quiet_changing {store : Store} {given : List Answer} (h : History lib store given) {accepted : Option Uuid}
    {transaction : Except IdentityError Store} (what : ∀ store', transaction = .ok store' →
      Changes lib store store' accepted) :
    Quiet lib store given (changing store transaction) accepted := by
  cases transaction with
  | error e => exact ⟨h.silent rfl, fun _ _ => rfl⟩
  | ok store' => exact ⟨h.changes (what store' rfl) rfl, (what store' rfl).verified⟩

/-- A step keeps the history, and keeps to the law exactly if it spares the reserved accounts. -/
def Sound (lib : Library) (store : Store) (given : List Answer) (event : Event) : Prop :=
  History lib (store.exec lib event).1 (given ++ [(store.exec lib event).2]) ∧
    (StepLaw lib store event ↔ SparesReserved lib store event)

theorem Quiet.sound {store : Store} {given : List Answer} {event : Event} {accepted : Option Uuid}
    (quiet : Quiet lib store given (store.exec lib event) accepted)
    (acceptance : ∀ accountId, accepted = some accountId → ∃ newPassword,
      event.operation = .acceptInvitation accountId newPassword)
    (other : ∀ request, event.operation ≠ .consume request) : Sound lib store given event := by
  refine ⟨quiet.history, ⟨fun _ request same => absurd same (other request), fun _ => ?_⟩⟩
  refine ⟨fun request same => absurd same (other request), fun accountId differs => ?_⟩
  by_cases same : accepted = some accountId
  · exact .inr (acceptance accountId same)
  · exact absurd (quiet.verified accountId same) differs

theorem Quiet.sound_none {store : Store} {given : List Answer} {event : Event}
    (quiet : Quiet lib store given (store.exec lib event) none) (other : ∀ request, event.operation ≠ .consume request) :
    Sound lib store given event :=
  quiet.sound (fun _ same => by cases same) other

/-- The account of a consumption, when it is marked as verified. -/
theorem Consumes.verified {store store' : Store} (inv : StoreInv lib store) {request : Store.ConsumeRequest} {now : Nat}
    {purpose : Purpose} {challenge : IdentityChallenge} {old account : Account}
    (h : Consumes lib store store' request now purpose challenge old account) {accountId : Uuid}
    (differs : store'.verifiedAt accountId ≠ store.verifiedAt accountId) :
    request.purpose = "verify_email" ∧ account.id = accountId ∧ store'.accounts.get? accountId = some account := by
  obtain ⟨id, _, _, _⟩ := not_reserved_of_consumedAccount h.changed
  have key : old.id = challenge.accountId := (Table.get?_eq_some.mp h.owner).2
  have self : (store.accounts.save account).get? account.id = some account :=
    Table.get?_save_self (b := old) (by rw [id, key]; exact h.owner)
  have accounts : store'.accounts = store.accounts.save account := by rw [h.written]
  by_cases own : accountId = account.id
  · subst own
    refine ⟨?_, rfl, by rw [accounts, self]⟩
    rcases (consumedAccount_eq_ok h.changed).2 with ⟨rfl, _⟩ | ⟨_, same⟩
    · exact (Purpose.value_of_ofValue? h.known).symm
    · -- a new password leaves the verification
      refine absurd ?_ differs
      unfold Store.verifiedAt
      rw [accounts, self, id, key, h.owner, Option.bind_some, Option.bind_some, same]
  · refine absurd ?_ differs
    have changes := (h.changes inv).verified accountId fun same => own (by rw [id]; exact (Option.some.inj same).symm)
    unfold Store.verifiedAt at changes ⊢
    rw [accounts]
    exact changes

theorem sound_consume {store : Store} {given : List Answer} (h : History lib store given) {sur : Surroundings}
    (request : Store.ConsumeRequest) : Sound lib store given ⟨sur, .consume request⟩ := by
  have ends := consumption_ends h.inv request sur.now
  unfold Sound
  have exec : store.exec lib ⟨sur, .consume request⟩ =
      consuming store request sur.now (store.consumeIdentityChallenge lib request sur.now) := rfl
  obtain ⟨result, same⟩ : ∃ r, r = store.consumeIdentityChallenge lib request sur.now := ⟨_, rfl⟩
  rw [← same] at ends exec
  cases ends with
  | consumed store' purpose challenge old account consumes =>
    rw [exec]
    refine ⟨h.consumes consumes,
      fun _ request' same' purpose' challenge' account' invitation presents => ?_, fun _ => ?_⟩
    · cases same'
      obtain ⟨rfl, rfl, rfl⟩ := presents.unique consumes.known consumes.found consumes.owner
      exact presents.reserved (consumes.free invitation presents.invited)
    · constructor
      · rw [exec]
        exact fun _ _ => .inl ⟨_, rfl⟩
      · rw [exec]
        intro accountId differs
        obtain ⟨verify, own, ha⟩ := consumes.verified h.inv differs
        exact .inl ⟨_, account, rfl, verify, own, ha, rfl⟩
  | refused code spares =>
    rw [exec]
    refine ⟨h.silent rfl, fun _ request' same' => ?_, fun _ => ?_⟩
    · cases same'
      exact spares
    · constructor
      · rw [exec]
        exact fun _ _ => .inr ⟨code, rfl⟩
      · rw [exec]
        exact fun accountId differs => absurd rfl differs
  | guarded message purpose challenge account invitation presents =>
    rw [exec]
    refine ⟨h.silent rfl, fun law => ?_, fun spares => ?_⟩
    · have ended := law.consumption request rfl
      rw [exec] at ended
      rcases ended with ⟨c, eq⟩ | ⟨code, eq⟩
      · cases eq
      · cases eq
    · exact absurd presents (spares request rfl purpose challenge account invitation)

theorem sound {store : Store} {given : List Answer} (h : History lib store given) (event : Event) :
    Sound lib store given event := by
  obtain ⟨sur, operation⟩ := event
  cases operation with
  | bootstrap request => exact (quiet_issuing h (issuing_bootstrapAccount h.inv request sur)).sound_none (by simp)
  | issue accountId purpose fingerprint sourceChannel =>
    refine @Quiet.sound_none lib store given _ ?_ (by simp)
    unfold Store.exec
    dsimp only
    cases ha : store.accounts.get? accountId with
    | none => exact ⟨h.silent rfl, fun _ _ => rfl⟩
    | some account =>
      obtain rfl := (Table.get?_eq_some.mp ha).2
      exact quiet_issuing h (issuing_issueIdentityChallenge h.inv ha purpose fingerprint sourceChannel sur)
  | consume request => exact sound_consume h request
  | createInvitation email loginHandle displayName =>
    exact (quiet_changing h fun _ ok => createInvitation_changes h.inv ok).sound_none (by simp)
  | reissueInvitation accountId =>
    exact (quiet_changing h fun _ ok => reissueInvitation_changes h.inv ok).sound_none (by simp)
  | revokeInvitation accountId =>
    exact (quiet_changing h fun _ ok => revokeInvitation_changes h.inv ok).sound_none (by simp)
  | expireInvitation accountId =>
    exact (quiet_changing h fun _ ok => expireInvitation_changes h.inv ok).sound_none (by simp)
  | acceptInvitation accountId newPassword =>
    refine (quiet_changing h fun _ ok => acceptInvitation_changes h.inv ok).sound (fun accountId' same => ?_) (by simp)
    cases same
    exact ⟨newPassword, rfl⟩
  | disposeInvitation accountId tombstoneEmail =>
    exact (quiet_changing h fun _ ok => disposeInvitation_changes h.inv ok).sound_none (by simp)
  | deactivateAccount accountId =>
    exact (quiet_changing h fun _ ok => deactivateAccount_changes h.inv ok).sound_none (by simp)

/-! ## Runs -/

theorem history_run {store : Store} {given : List Answer} (h : History lib store given) (events : List Event) :
    History lib ((identity lib).run store events) (given ++ (identity lib).answers store events) := by
  refine Machine.history_invariant (fun store given event store' answer history step => ?_) h events
  have kept := (sound history event).1
  rwa [Except.ok.inj step] at kept

theorem along_stepLaw_iff {store : Store} {given : List Answer} (h : History lib store given) (events : List Event) :
    (identity lib).Along (StepLaw lib) store events ↔ (identity lib).Along (SparesReserved lib) store events := by
  induction events generalizing store given with
  | nil => exact Iff.rfl
  | cons event events ih =>
    obtain ⟨kept, iff⟩ := sound h event
    exact and_congr iff (ih kept)

/-- A run keeps to the law exactly if it spares the reserved accounts. -/
theorem run_identity (lib : Library) (accounts : Table Account.id) (events : List Event) :
    ((identity lib).Along (StepLaw lib) (.start accounts) events ∧
      TokenLaw lib ((identity lib).answers (.start accounts) events)) ↔
    (identity lib).Along (SparesReserved lib) (.start accounts) events := by
  rw [along_stepLaw_iff (history_start accounts) events]
  exact and_iff_left (history_run (history_start accounts) events).law

/-! ## An invited account that signs up -/

def plainLibrary : Library where
  normalizeEmail := id
  upper := id
  lower := id
  casefold := id
  validAccount := fun _ => true
  validPassword := fun _ _ => true
  makePassword := id
  hmacSha256 := id

def drawn (now : Nat) (accountId challengeId : Uuid) (operation : Operation) : Event :=
    ⟨⟨now, accountId, challengeId⟩, operation⟩

/-- An account is invited; its owner signs up instead. -/
def invitedSignUp : List Event := [
  drawn 0 1 2 (.createInvitation "a@b.org" "" "A"),
  drawn 1 3 4 (.bootstrap ⟨"a@b.org", "A", "secret", String.ofList (List.replicate 64 'a'), "public_api"⟩)]

/-- And follows the link in the mail. -/
def followedLink : Event :=
  drawn 2 5 6 (.consume ⟨plainLibrary.rawToken 4 .verifyEmail, "verify_email", "", "public_api"⟩)

/-- The link ends in an error of the database. -/
theorem invitedSignUp_fails :
    (identity plainLibrary).answers (.start ∅) (invitedSignUp ++ [followedLink]) = [.done,
      .issued ⟨plainLibrary.rawToken 4 .verifyEmail, .verifyEmail, 1, "a@b.org", 1 + challengeLifetime⟩,
      .notConsumed (.database "reserved invitation subject state changed")] ∧
    ¬ (identity plainLibrary).Along (StepLaw plainLibrary) (.start ∅) (invitedSignUp ++ [followedLink]) := by
  have last : (((identity plainLibrary).run (.start ∅) invitedSignUp).exec plainLibrary followedLink).2 =
      .notConsumed (.database "reserved invitation subject state changed") := by decide +kernel
  refine ⟨by decide +kernel, fun law => ?_⟩
  obtain ⟨_, _, step, _⟩ := law
  rcases step.consumption _ rfl with ⟨c, consumed⟩ | ⟨code, refused⟩
  · cases consumed.symm.trans last
  · cases (congrArg Prod.snd refused).symm.trans last

end Maru.Identity

import Maru.Effects.OutboxWrites

/-!
# The history of the outbox

What the tables say of each other after any run of the calls, by any workers and with any
clock (`Consistent`, `Accounted`): the journal of a message numbers its attempts, its budget
is what was published and replayed, a claim that is not held any more is lost for good.
`effectMachine_history` collects what follows.
-/

namespace Maru.Effects

namespace Outbox

def attemptsOf (outbox : Outbox) (messageId : Uuid) : List EffectAttempt :=
  outbox.attempts.rows.filter (·.outboxMessageId = messageId)

def receiptsOf (outbox : Outbox) (messageId : Uuid) : List EffectReplayReceipt :=
  outbox.receipts.rows.filter (·.outboxMessageId = messageId)

/-- The attempts that replays have added. -/
def replayedAttempts (outbox : Outbox) (messageId : Uuid) : Nat :=
  ((outbox.receiptsOf messageId).map (·.additionalAttempts)).sum

/-- The row is still as the claim left it. -/
def Held (outbox : Outbox) (claim : ClaimedEffect) : Prop := ∃ m ∈ outbox.messages, ClaimedBy m claim

end Outbox

/-- The attempts that are over: all but the one held. -/
def OutboxMessage.concluded (m : OutboxMessage) : Nat :=
  if m.status = .processing then m.attemptCount - 1 else m.attemptCount

/-- What a message's row says of its attempts. -/
structure Sound (outbox : Outbox) (m : OutboxMessage) : Prop where
  clean : m.checks.all (·.2)
  journal : (outbox.attemptsOf m.id).map (·.attemptNumber) = List.range' 1 m.concluded
  held : m.status = .processing → 1 ≤ m.attemptCount
  leased : m.status = .processing → ∃ started ∈ m.claimedAt, ∃ expires ∈ m.leaseExpiresAt, started < expires
  left : m.status = .pending → m.attemptCount < m.maxAttempts
  delivered : (outbox.attemptsOf m.id).countP (·.outcome = .succeeded) = if m.status = .succeeded then 1 else 0

structure Consistent (outbox : Outbox) : Prop where
  sound : ∀ m ∈ outbox.messages, Sound outbox m
  attempts : ∀ a ∈ outbox.attempts.rows, ∃ m ∈ outbox.messages, m.id = a.outboxMessageId
  receipts : ∀ r ∈ outbox.receipts.rows, ∃ m ∈ outbox.messages, m.id = r.outboxMessageId

/-- What the answers given so far say of the rows. -/
structure Accounted (outbox : Outbox) (given : List Answer) : Prop where
  published : ∀ m ∈ outbox.messages, ∃ p, Answer.published p ∈ given ∧ p.id = m.id
  budget : ∀ p, Answer.published p ∈ given →
    ∃ m ∈ outbox.messages, m.id = p.id ∧ m.maxAttempts = p.maxAttempts + outbox.replayedAttempts p.id
  claims : ∀ claim, Answer.claimed (some claim) ∈ given →
    ∃ m ∈ outbox.messages, m.id = claim.messageId ∧ claim.attemptNumber ≤ m.attemptCount

theorem consistent_empty : Consistent .empty :=
  ⟨fun _ h => absurd h Table.not_mem_empty, fun _ h => absurd h List.not_mem_nil, fun _ h => absurd h List.not_mem_nil⟩

theorem accounted_empty : Accounted .empty [] :=
  ⟨fun _ h => absurd h Table.not_mem_empty, fun _ h => absurd h List.not_mem_nil, fun _ h => absurd h List.not_mem_nil⟩

/-! ## Publishing -/

section

variable {before after : Outbox} {m : OutboxMessage}

theorem Outbox.Publishes.attemptsOf (h : before.Publishes after m) (id : Uuid) :
    after.attemptsOf id = before.attemptsOf id := by
  simp only [Outbox.attemptsOf, h.attempts]

theorem Outbox.Publishes.receiptsOf (h : before.Publishes after m) (id : Uuid) :
    after.receiptsOf id = before.receiptsOf id := by
  simp only [Outbox.receiptsOf, h.receipts]

/-- Nothing is recorded of a message before it is published. -/
theorem Outbox.Publishes.unrecorded (h : before.Publishes after m) (consistent : Consistent before) :
    before.attemptsOf m.id = [] ∧ before.receiptsOf m.id = [] := by
  have absent := (Table.insert?_eq_some.mp h.messages).1
  simp only [Outbox.attemptsOf, Outbox.receiptsOf, List.filter_eq_nil_iff, decide_eq_true_eq]
  constructor
  · intro a ha same
    obtain ⟨o, mem, owner⟩ := consistent.attempts a ha
    exact absent o mem (owner.trans same)
  · intro r hr same
    obtain ⟨o, mem, owner⟩ := consistent.receipts r hr
    exact absent o mem (owner.trans same)

theorem Outbox.Publishes.consistent (h : before.Publishes after m)
    (consistent : Consistent before) : Consistent after where
  sound o ho := by
    rcases (Table.mem_insert? h.messages).mp ho with mem | rfl
    · have sound := consistent.sound o mem
      exact { sound with
        journal := by rw [h.attemptsOf, sound.journal]
        delivered := by rw [h.attemptsOf, sound.delivered] }
    · have none := (h.unrecorded consistent).1
      have budget := h.clean
      simp only [OutboxMessage.checks, List.all_cons, Bool.and_eq_true, decide_eq_true_eq] at budget
      have free : o.status ≠ .processing := by simp [h.due]
      refine ⟨h.clean, ?_, fun held => absurd held free, fun held => absurd held free, fun _ => ?_, ?_⟩
      · simp [h.attemptsOf, none, OutboxMessage.concluded, h.due, h.unattempted]
      · rw [h.unattempted]
        exact budget.2.2.2.1
      · simp [h.attemptsOf, none, h.due]
  attempts a ha := by
    rw [h.attempts] at ha
    exact Table.exists_insert? h.messages (consistent.attempts a ha)
  receipts r hr := by
    rw [h.receipts] at hr
    exact Table.exists_insert? h.messages (consistent.receipts r hr)

theorem Outbox.Publishes.accounted {given : List Answer} (h : before.Publishes after m) (consistent : Consistent before)
    (accounted : Accounted before given) : Accounted after (given ++ [.published m]) where
  published o ho := by
    rcases (Table.mem_insert? h.messages).mp ho with mem | rfl
    · obtain ⟨p, hp, same⟩ := accounted.published o mem
      exact ⟨p, List.mem_append_left _ hp, same⟩
    · exact ⟨o, List.mem_append_right _ (List.mem_singleton_self _), rfl⟩
  budget p hp := by
    rw [Outbox.replayedAttempts, h.receiptsOf]
    rcases List.mem_append.mp hp with hp | hp
    · obtain ⟨o, mem, same⟩ := accounted.budget p hp
      exact ⟨o, (Table.mem_insert? h.messages).mpr (.inl mem), same⟩
    · cases List.mem_singleton.mp hp
      exact ⟨m, (Table.mem_insert? h.messages).mpr (.inr rfl), rfl, by simp [(h.unrecorded consistent).2]⟩
  claims claim hc := by
    rcases List.mem_append.mp hc with hc | hc
    · exact Table.exists_insert? h.messages (accounted.claims claim hc)
    · cases List.mem_singleton.mp hc

end

/-! ## Moving -/

section

variable {before after : Outbox} {m m' : OutboxMessage} {a : Option EffectAttempt} {r : Option EffectReplayReceipt}

namespace Outbox.Moves

theorem mem_iff (h : before.Moves after m m' a r) {o : OutboxMessage} :
    o ∈ after.messages ↔ (o ∈ before.messages ∧ o.id ≠ m.id) ∨ o = m' := by
  rw [h.messages, Table.mem_save_of_mem h.mem h.move.id_eq.symm, h.move.id_eq]

theorem attemptsOf (h : before.Moves after m m' a r) (id : Uuid) :
    after.attemptsOf id = before.attemptsOf id ++ a.toList.filter (·.outboxMessageId = id) := by
  rw [Outbox.attemptsOf, h.attempts, List.filter_append]
  rfl

theorem receiptsOf (h : before.Moves after m m' a r) (id : Uuid) :
    after.receiptsOf id = before.receiptsOf id ++ r.toList.filter (·.outboxMessageId = id) := by
  rw [Outbox.receiptsOf, h.receipts, List.filter_append]
  rfl

/-- A row still in the table: another message's, or the one that moved. -/
theorem exists_iff (h : before.Moves after m m' a r) (id : Uuid) :
    (∃ o ∈ before.messages, o.id = id) → ∃ o ∈ after.messages, o.id = id := by
  rintro ⟨o, mem, rfl⟩
  by_cases same : o.id = m.id
  · exact ⟨m', h.mem_iff.mpr (.inr rfl), h.move.id_eq.trans same.symm⟩
  · exact ⟨o, h.mem_iff.mpr (.inl ⟨mem, same⟩), rfl⟩

end Outbox.Moves

/-- The attempt and the receipt that a move records are the message's own. -/
theorem Move.recorded (h : Move m m' a r) :
    (∀ x ∈ a, x.outboxMessageId = m.id) ∧ ∀ x ∈ r, x.outboxMessageId = m.id := by
  cases h with
  | claim => exact ⟨nofun, nofun⟩
  | reclaim _ _ _ number =>
    refine ⟨?_, nofun⟩
    rintro _ ⟨⟩
    exact (Prod.mk.inj number).1
  | finish _ _ number =>
    refine ⟨?_, nofun⟩
    rintro _ ⟨⟩
    exact (Prod.mk.inj number).1
  | cancel => exact ⟨nofun, nofun⟩
  | replay _ _ of =>
    refine ⟨nofun, ?_⟩
    rintro _ ⟨⟩
    exact of

/-- The budget grows by what a replay adds, and by nothing else. -/
theorem Move.maxAttempts (h : Move m m' a r) :
    m'.maxAttempts = m.maxAttempts + (r.toList.map (·.additionalAttempts)).sum := by
  cases h <;> simp

/-- A move extends the journal by the attempt it ends, and keeps the row sound. -/
theorem Move.journal {attempts : List EffectAttempt} (h : Move m m' a r)
    (journal : attempts.map (·.attemptNumber) = List.range' 1 m.concluded)
    (held : m.status = .processing → 1 ≤ m.attemptCount) :
    (attempts ++ a.toList).map (·.attemptNumber) = List.range' 1 m'.concluded := by
  have snoc {count : Nat} {x : EffectAttempt} (hc : 1 ≤ count) (number : x.attemptNumber = count)
      (h : attempts.map (·.attemptNumber) = List.range' 1 (count - 1)) :
      (attempts ++ [x]).map (·.attemptNumber) = List.range' 1 count := by
    obtain ⟨k, rfl⟩ : ∃ k, count = k + 1 := ⟨count - 1, by omega⟩
    rw [List.map_append, h, List.map_singleton, number, Nat.add_sub_cancel, List.range'_concat]
    simp [Nat.add_comm]
  cases h with
  | claim due => simpa [OutboxMessage.concluded, due] using journal
  | reclaim h _ _ number =>
    have := snoc (held h) (Prod.mk.inj number).2 (by simpa [OutboxMessage.concluded, h] using journal)
    simpa [OutboxMessage.concluded] using this
  | finish h target number =>
    have := snoc (held h) (Prod.mk.inj number).2 (by simpa [OutboxMessage.concluded, h] using journal)
    rcases target with rfl | rfl | ⟨rfl, _⟩ <;> simpa [OutboxMessage.concluded] using this
  | cancel due => simpa [OutboxMessage.concluded, due] using journal
  | replay quarantined => simpa [OutboxMessage.concluded, quarantined] using journal

theorem Move.delivered {attempts : List EffectAttempt} (h : Move m m' a r)
    (delivered : attempts.countP (·.outcome = .succeeded) = if m.status = .succeeded then 1 else 0) :
    (attempts ++ a.toList).countP (·.outcome = .succeeded) = if m'.status = .succeeded then 1 else 0 := by
  rw [List.countP_append, delivered]
  cases h with
  | claim due => simp [due]
  | reclaim held _ _ _ lost => simp [held, lost]
  | finish held target _ outcome =>
    rcases target with rfl | rfl | ⟨rfl, _⟩
    · simp [held, outcome.mpr rfl]
    · have : ¬ _ = AttemptOutcome.succeeded := fun e => by simpa using outcome.mp e
      simp [held, this]
    · have : ¬ _ = AttemptOutcome.succeeded := fun e => by simpa using outcome.mp e
      simp [held, this]
  | cancel due => simp [due]
  | replay quarantined => simp [quarantined]

theorem Move.held (h : Move m m' a r) : m'.status = .processing → 1 ≤ m'.attemptCount := by
  intro held
  rcases h.lease with count | ⟨_, free⟩
  · omega
  · exact absurd held free

theorem Move.leased (h : Move m m' a r) :
    m'.status = .processing → ∃ started ∈ m'.claimedAt, ∃ expires ∈ m'.leaseExpiresAt, started < expires := by
  intro held
  cases h with
  | claim _ _ lease => exact ⟨_, rfl, _, rfl, lease⟩
  | reclaim _ _ lease => exact ⟨_, rfl, _, rfl, lease⟩
  | finish _ target =>
    obtain rfl : _ = Status.processing := held
    rcases target with h | h | ⟨h, _⟩ <;> cases h
  | cancel => cases held
  | replay => cases held

theorem Move.left (h : Move m m' a r) (within : m.attemptCount ≤ m.maxAttempts) :
    m'.status = .pending → m'.attemptCount < m'.maxAttempts := by
  intro due
  cases h with
  | claim => cases due
  | reclaim => cases due
  | finish _ target =>
    obtain rfl : _ = Status.pending := due
    rcases target with h | h | ⟨_, left⟩
    · cases h
    · cases h
    · exact left
  | cancel => cases due
  | replay _ more =>
    simp only
    omega

theorem attempts_le_of_clean (clean : m.checks.all (·.2)) :
    m.attemptCount ≤ m.maxAttempts ∧ m.maxAttempts ≤ maxEffectTotalAttempts := by
  simp only [OutboxMessage.checks, List.all_cons, Bool.and_eq_true, decide_eq_true_eq] at clean
  exact ⟨clean.2.2.2.2.2.1, clean.2.2.2.2.1⟩

theorem filter_own {α : Type} {f : α → Uuid} {id : Uuid} {x : Option α} (h : ∀ y ∈ x, f y = id) :
    x.toList.filter (f · = id) = x.toList := by
  rw [List.filter_eq_self]
  intro y hy
  simpa using h y (by simpa using hy)

theorem filter_other {α : Type} {f : α → Uuid} {id other : Uuid} {x : Option α}
    (h : ∀ y ∈ x, f y = id) (ne : other ≠ id) : x.toList.filter (f · = other) = [] := by
  rw [List.filter_eq_nil_iff]
  intro y hy
  rw [h y (by simpa using hy)]
  simpa using ne.symm

theorem Outbox.Moves.consistent (h : before.Moves after m m' a r)
    (consistent : Consistent before) : Consistent after where
  sound o ho := by
    rcases h.mem_iff.mp ho with ⟨mem, other⟩ | rfl
    · -- The journal of another message is untouched.
      have same : after.attemptsOf o.id = before.attemptsOf o.id := by
        rw [h.attemptsOf, filter_other h.move.recorded.1 other, List.append_nil]
      have sound := consistent.sound o mem
      exact { sound with
        journal := by rw [same, sound.journal]
        delivered := by rw [same, sound.delivered] }
    · have own : after.attemptsOf o.id = before.attemptsOf m.id ++ a.toList := by
        rw [h.move.id_eq, h.attemptsOf, filter_own h.move.recorded.1]
      have sound := consistent.sound m h.mem
      exact ⟨h.clean, own ▸ h.move.journal sound.journal sound.held, h.move.held, h.move.leased,
        h.move.left (attempts_le_of_clean sound.clean).1, own ▸ h.move.delivered sound.delivered⟩
  attempts x hx := by
    rw [h.attempts, List.mem_append] at hx
    rcases hx with hx | hx
    · exact h.exists_iff _ (consistent.attempts x hx)
    · exact h.exists_iff _ ⟨m, h.mem, (h.move.recorded.1 x (by simpa using hx)).symm⟩
  receipts x hx := by
    rw [h.receipts, List.mem_append] at hx
    rcases hx with hx | hx
    · exact h.exists_iff _ (consistent.receipts x hx)
    · exact h.exists_iff _ ⟨m, h.mem, (h.move.recorded.2 x (by simpa using hx)).symm⟩

theorem Outbox.Moves.accounted {given : List Answer} (h : before.Moves after m m' a r)
    (accounted : Accounted before given) : Accounted after given where
  published o ho := by
    rcases h.mem_iff.mp ho with ⟨mem, _⟩ | rfl
    · exact accounted.published o mem
    · rw [h.move.id_eq]
      exact accounted.published m h.mem
  budget p hp := by
    obtain ⟨o, mem, same, budget⟩ := accounted.budget p hp
    rw [Outbox.replayedAttempts, h.receiptsOf, List.map_append, List.sum_append]
    by_cases own : o.id = m.id
    · obtain rfl := Table.eq_of_key mem h.mem own
      refine ⟨m', h.mem_iff.mpr (.inr rfl), h.move.id_eq.trans same, ?_⟩
      rw [← same] at budget ⊢
      rw [filter_own h.move.recorded.2, h.move.maxAttempts, budget, Outbox.replayedAttempts, Nat.add_assoc]
    · refine ⟨o, h.mem_iff.mpr (.inl ⟨mem, own⟩), same, ?_⟩
      rw [filter_other h.move.recorded.2 (same ▸ own), budget, Outbox.replayedAttempts]
      simp
  claims claim hc := by
    obtain ⟨o, mem, same, earlier⟩ := accounted.claims claim hc
    by_cases own : o.id = m.id
    · obtain rfl := Table.eq_of_key mem h.mem own
      refine ⟨m', h.mem_iff.mpr (.inr rfl), h.move.id_eq.trans same, ?_⟩
      rcases h.move.lease with count | ⟨count, _⟩ <;> omega
    · exact ⟨o, h.mem_iff.mpr (.inl ⟨mem, own⟩), same, earlier⟩

end

/-! ## Lost leases and terminal messages -/

/-- The claim was given, and its lease is over. -/
def Lost (outbox : Outbox) (claim : ClaimedEffect) : Prop :=
  (∃ m ∈ outbox.messages, m.id = claim.messageId ∧ claim.attemptNumber ≤ m.attemptCount) ∧ ¬ outbox.Held claim

def OutboxMessage.Terminal (m : OutboxMessage) : Prop := m.status = .succeeded ∨ m.status = .cancelled

/-- What is not undone. -/
structure Later (before after : Outbox) : Prop where
  lost : ∀ claim, Lost before claim → Lost after claim
  terminal : ∀ m ∈ before.messages, m.Terminal → m ∈ after.messages ∧ after.attemptsOf m.id = before.attemptsOf m.id

theorem Later.refl (outbox : Outbox) : Later outbox outbox := ⟨fun _ h => h, fun _ h _ => ⟨h, rfl⟩⟩

theorem Later.trans {before between after : Outbox} (h : Later before between)
    (h' : Later between after) : Later before after where
  lost claim l := h'.lost claim (h.lost claim l)
  terminal m mem t := by
    obtain ⟨mem', same⟩ := h.terminal m mem t
    obtain ⟨mem'', same'⟩ := h'.terminal m mem' t
    exact ⟨mem'', same'.trans same⟩

section

variable {before after : Outbox} {m m' : OutboxMessage} {a : Option EffectAttempt} {r : Option EffectReplayReceipt}

/-- Whatever moves a message ends the leases given on it. -/
theorem Outbox.Moves.ends_lease (h : before.Moves after m m' a r) {claim : ClaimedEffect} (own : m.id = claim.messageId)
    (earlier : claim.attemptNumber ≤ m.attemptCount) : ¬ after.Held claim := by
  rintro ⟨o, mem, claimed⟩
  rcases h.mem_iff.mp mem with ⟨_, other⟩ | rfl
  · exact other (claimed.1.trans own.symm)
  · obtain ⟨-, -, held, -, number⟩ := claimed
    rcases h.move.lease with count | ⟨_, free⟩
    · omega
    · exact free held

theorem Outbox.Moves.later (h : before.Moves after m m' a r) : Later before after where
  lost claim := by
    rintro ⟨⟨o, mem, own, earlier⟩, free⟩
    by_cases same : o.id = m.id
    · obtain rfl := Table.eq_of_key mem h.mem same
      refine ⟨⟨m', h.mem_iff.mpr (.inr rfl), h.move.id_eq.trans own, ?_⟩, h.ends_lease own earlier⟩
      rcases h.move.lease with count | ⟨count, _⟩ <;> omega
    · refine ⟨⟨o, h.mem_iff.mpr (.inl ⟨mem, same⟩), own, earlier⟩, ?_⟩
      rintro ⟨x, memx, claimed⟩
      rcases h.mem_iff.mp memx with ⟨memx, _⟩ | rfl
      · exact free ⟨x, memx, claimed⟩
      · exact same (own.trans (claimed.1.symm.trans h.move.id_eq))
  terminal o mem t := by
    have other : o.id ≠ m.id := by
      intro same
      obtain rfl := Table.eq_of_key mem h.mem same
      rcases t with t | t
      · exact h.move.not_terminal.1 t
      · exact h.move.not_terminal.2 t
    refine ⟨h.mem_iff.mpr (.inl ⟨mem, other⟩), ?_⟩
    rw [h.attemptsOf, filter_other h.move.recorded.1 other, List.append_nil]

theorem Outbox.Publishes.later (h : before.Publishes after m) : Later before after where
  lost claim := by
    rintro ⟨known, free⟩
    refine ⟨Table.exists_insert? h.messages known, ?_⟩
    rintro ⟨o, mem, claimed⟩
    rcases (Table.mem_insert? h.messages).mp mem with mem | rfl
    · exact free ⟨o, mem, claimed⟩
    · have held := claimed.2.2.1
      rw [h.due] at held
      cases held
  terminal o mem _ := ⟨(Table.mem_insert? h.messages).mpr (.inl mem), h.attemptsOf _⟩

theorem Outbox.Moved.keeps (h : before.Moved after) {given : List Answer} (consistent : Consistent before)
    (accounted : Accounted before given) : Consistent after ∧ Accounted after given ∧ Later before after := by
  induction h with
  | refl => exact ⟨consistent, accounted, Later.refl before⟩
  | tail _ step ih =>
    obtain ⟨m, m', a, r, moves⟩ := step
    obtain ⟨consistent, accounted, later⟩ := ih
    exact ⟨moves.consistent consistent, moves.accounted accounted, later.trans moves.later⟩

end

/-! ## One call -/

/-- The claim that a call reports on. -/
def Command.reports : Command → Option ClaimedEffect
  | .finishSuccess claim _ => some claim
  | .finishTransientFailure claim _ _ _ => some claim
  | .finishPermanentFailure claim _ _ => some claim
  | _ => none

/-- What a call that returned has written. -/
def Command.Wrote (before after : Outbox) (command : Command) : Answer → Prop
  | .published m => command.reports = none ∧ before.Publishes after m
  | .claimed claim => command.reports = none ∧ before.Moved after ∧ ∀ c ∈ claim, Claims before after c
  | .finished _ => ∃ claim, command.reports = some claim ∧ Reports before after claim
  | .cancelled => command.reports = none ∧ before.Moved after
  | .replayed _ => command.reports = none ∧ before.Moved after

theorem execEffect_ends {nfc : String → String} {outbox : Outbox}
    (clean : ∀ m ∈ outbox.messages, m.checks.all (·.2)) (command : Command) :
    Ends (fun p => command.Wrote outbox p.1 p.2) EffectError.NotGuard (execEffect nfc outbox command) := by
  cases command with
  | publish => exact Ends.bind publishDomainEvent_ends fun _ h => Ends.pure ⟨rfl, h⟩
  | enqueue => exact Ends.bind enqueueEventDelivery_ends fun _ h => Ends.pure ⟨rfl, h⟩
  | claimNext => exact Ends.bind (claimNextEffect_ends clean) fun _ h => Ends.pure ⟨rfl, h⟩
  | finishSuccess claim => exact Ends.bind finishEffectSuccess_ends fun _ h => Ends.pure ⟨claim, rfl, h⟩
  | finishTransientFailure claim =>
    exact Ends.bind finishEffectTransientFailure_ends fun _ h => Ends.pure ⟨claim, rfl, h⟩
  | finishPermanentFailure claim =>
    exact Ends.bind finishEffectPermanentFailure_ends fun _ h => Ends.pure ⟨claim, rfl, h⟩
  | cancelPending =>
    refine Ends.bind cancelPendingEffect_ends fun after h => Ends.pure ?_
    rcases h with rfl | moves
    · exact ⟨rfl, .refl⟩
    · exact ⟨rfl, .single moves⟩
  | replayQuarantined =>
    exact Ends.bind replayQuarantinedEffect_ends fun _ h => Ends.pure ⟨rfl, .single h⟩

section

variable {before after : Outbox} {given : List Answer} {answer : Answer}

/-- An answer that neither publishes nor claims adds nothing to account for. -/
theorem Accounted.append (h : Accounted after given) (unpublished : ∀ m, answer ≠ .published m)
    (claims : ∀ claim, answer = .claimed (some claim) →
      ∃ m ∈ after.messages, m.id = claim.messageId ∧ claim.attemptNumber ≤ m.attemptCount) :
    Accounted after (given ++ [answer]) where
  published m mem := by
    obtain ⟨p, hp, same⟩ := h.published m mem
    exact ⟨p, List.mem_append_left _ hp, same⟩
  budget p hp := by
    rcases List.mem_append.mp hp with hp | hp
    · exact h.budget p hp
    · exact absurd (List.mem_singleton.mp hp).symm (unpublished p)
  claims claim hc := by
    rcases List.mem_append.mp hc with hc | hc
    · exact h.claims claim hc
    · exact claims claim (List.mem_singleton.mp hc).symm

theorem Command.Wrote.keeps {command : Command} (h : command.Wrote before after answer)
    (consistent : Consistent before) (accounted : Accounted before given) :
    Consistent after ∧ Accounted after (given ++ [answer]) ∧ Later before after := by
  cases answer with
  | published m =>
    obtain ⟨-, publishes⟩ := h
    exact ⟨publishes.consistent consistent, publishes.accounted consistent accounted, publishes.later⟩
  | claimed claim =>
    obtain ⟨-, moved, claims⟩ := h
    obtain ⟨consistent, accounted, later⟩ := moved.keeps consistent accounted
    refine ⟨consistent, accounted.append (fun _ e => by cases e) ?_, later⟩
    rintro c ⟨⟩
    obtain ⟨m, mem, claimed⟩ := (claims c rfl).2
    exact ⟨m, mem, claimed.1, claimed.2.2.2.2.ge⟩
  | finished outcome =>
    obtain ⟨claim, -, m, -, -, m', a, r, moves⟩ := h
    exact ⟨moves.consistent consistent,
      (moves.accounted accounted).append (fun _ e => by cases e) (fun _ e => by cases e), moves.later⟩
  | cancelled =>
    obtain ⟨consistent, accounted, later⟩ := Outbox.Moved.keeps h.2 consistent accounted
    exact ⟨consistent, accounted.append (fun _ e => by cases e) (fun _ e => by cases e), later⟩
  | replayed m =>
    obtain ⟨consistent, accounted, later⟩ := Outbox.Moved.keeps h.2 consistent accounted
    exact ⟨consistent, accounted.append (fun _ e => by cases e) (fun _ e => by cases e), later⟩

end

theorem effectMachine_keeps {nfc : String → String} {before after : Outbox} {given : List Answer} {command : Command}
    {answer : Answer} (consistent : Consistent before) (accounted : Accounted before given)
    (h : (effectMachine nfc).exec before command = .ok (after, answer)) :
    Consistent after ∧ Accounted after (given ++ [answer]) ∧ Later before after :=
  Command.Wrote.keeps ((execEffect_ends (fun m mem => (consistent.sound m mem).clean) command).ok h) consistent accounted

/-! ## A due message is claimed -/

section

variable {outbox : Outbox} {m : OutboxMessage}

theorem fullClean_of_all {checks : List (String × Bool)} (h : checks.all (·.2)) : fullClean checks = .ok () := by
  rw [fullClean, require, if_pos h]

theorem saveMessage_ok {row : OutboxMessage} (mem : m ∈ outbox.messages) (same : m.id = row.id)
    (clean : row.checks.all (·.2)) (allowed : guardOutboxMessage outbox.receipts m row = .ok ()) :
    outbox.saveMessage row = .ok { outbox with messages := outbox.messages.save row } := by
  unfold Outbox.saveMessage
  rw [Table.get?_eq_some.mpr ⟨mem, same⟩]
  simp only [getOr, bind, Except.bind]
  rw [fullClean_of_all clean, allowed]
  rfl

/-- The attempt under an expired lease can be recorded: its number is not in the journal yet. -/
theorem recordExpiredLease_ok (consistent : Consistent outbox) (mem : m ∈ outbox.messages)
    {now : Int} (expired : m.status = .processing → ∃ expires ∈ m.leaseExpiresAt, expires ≤ now) :
    ∃ recorded, outbox.recordExpiredLease m now = .ok recorded ∧ recorded.messages = outbox.messages := by
  have sound := consistent.sound m mem
  unfold Outbox.recordExpiredLease
  split
  · rename_i token startedAt held _ hstarted
    obtain ⟨expires, hexpires, le⟩ := expired held
    obtain ⟨started, hs, expires', he, lt⟩ := sound.leased held
    obtain rfl : startedAt = started := Option.some.inj (hstarted.symm.trans hs)
    obtain rfl : expires = expires' := Option.some.inj (hexpires.symm.trans he)
    have clean := sound.clean
    simp only [OutboxMessage.checks, List.all_cons, Bool.and_eq_true, decide_eq_true_eq] at clean
    obtain ⟨attempts, h⟩ := Table.exists_insert?_eq_some (t := outbox.attempts) (r := {
      outboxMessageId := m.id, attemptNumber := m.attemptCount, leaseToken := token, startedAt, finishedAt := now,
      outcome := .transientFailure, errorCode := "lease_expired", handlerCode := m.destination }) |>.mpr (by
        rw [Table.get?_eq_none]
        intro a ha same
        have own := Prod.mk.inj same
        have number : a.attemptNumber ∈ (outbox.attemptsOf m.id).map (·.attemptNumber) :=
          List.mem_map_of_mem (List.mem_filter.mpr ⟨ha, by simpa using own.1⟩)
        rw [sound.journal, List.mem_range'_1, OutboxMessage.concluded, if_pos held] at number
        have last : a.attemptNumber = m.attemptCount := own.2
        have := sound.held held
        omega)
    refine ⟨{ outbox with attempts }, ?_, rfl⟩
    unfold Outbox.createAttempt
    rw [fullClean_of_all, h]
    · rfl
    · simp only [EffectAttempt.checks, List.all_cons, List.all_nil, Bool.and_eq_true, decide_eq_true_eq, Bool.and_true]
      exact ⟨by decide, ⟨clean.1.1, by omega⟩, by omega⟩
  · exact ⟨outbox, rfl, rfl⟩

theorem claimMessage_ok (consistent : Consistent outbox) {organizationId : Uuid} {workloadPool : String} {now : Int}
    (leaseDuration : Int) (leaseToken : Uuid) (candidate : m ∈ outbox.candidates organizationId workloadPool now) :
    ∃ p, outbox.claimMessage m leaseDuration now leaseToken = .ok p := by
  obtain ⟨mem, due, -, -, left⟩ := mem_candidates.mp candidate
  have expired : m.status = .processing → ∃ expires ∈ m.leaseExpiresAt, expires ≤ now := by
    intro held
    rcases due with ⟨due, -⟩ | ⟨-, expired⟩
    · rw [held] at due
      cases due
    · exact expired
  obtain ⟨recorded, hrecorded, same⟩ := recordExpiredLease_ok consistent mem expired
  have clean := (consistent.sound m mem).clean
  simp only [OutboxMessage.checks, List.all_cons, Bool.and_eq_true, decide_eq_true_eq] at clean
  have still : m ∈ recorded.messages := same ▸ mem
  unfold Outbox.claimMessage
  rw [hrecorded]
  simp only [bind, Except.bind]
  rw [saveMessage_ok still]
  · exact ⟨_, rfl⟩
  · rfl
  · simp only [OutboxMessage.checks, List.all_cons, List.all_nil, Bool.and_eq_true, decide_eq_true_eq, Bool.and_true]
    obtain ⟨destination, pool, code, positive, bounded, -⟩ := clean
    exact ⟨destination, pool, code, positive, bounded, by omega, by simp, by simp⟩
  · exact guardOutboxMessage_claim ⟨rfl, rfl, rfl, rfl⟩ ⟨rfl, rfl⟩ rfl rfl
      (due.imp (·.1) (And.imp_right fun h => h.imp fun expires h => ⟨h.1, now, rfl, h.2⟩))

/-- While a message is due in its pool, a worker that asks for work gets some. -/
theorem claimNextEffect_ok (consistent : Consistent outbox) {organizationId : Uuid} {workloadPool : String}
    {leaseDuration now : Int} (leaseToken : Uuid) (candidate : m ∈ outbox.candidates organizationId workloadPool now)
    (lease : 0 < leaseDuration ∧ leaseDuration ≤ maxLeaseDuration) :
    ∃ after claim, outbox.claimNextEffect organizationId workloadPool leaseDuration now leaseToken =
      .ok (after, some claim) := by
  have some_ : m ∈ Outbox.inOrder (outbox.candidates organizationId workloadPool now) :=
    (sortBy_perm _ _).mem_iff.mpr candidate
  obtain ⟨first, rest, order⟩ := List.exists_cons_of_ne_nil (List.ne_nil_of_mem some_)
  have head : first ∈ outbox.candidates organizationId workloadPool now :=
    (sortBy_perm _ _).mem_iff.mp (order ▸ List.mem_cons_self)
  obtain ⟨p, hp⟩ := claimMessage_ok consistent leaseDuration leaseToken head
  unfold Outbox.claimNextEffect
  rw [require, if_pos lease, order]
  simp only [bind, Except.bind, List.head?_cons, hp]
  exact ⟨p.1, p.2, rfl⟩

end

/-! ## Runs of the calls -/

/-- The arguments of a report that are checked before its lease. -/
def Command.Accepted : Command → Prop
  | .finishTransientFailure _ errorCode retryAfter _ =>
    (errorCode.length ≤ maxEffectErrorCodeLength ∧ isSafeEffectCode errorCode) ∧ 0 ≤ retryAfter ∧
      retryAfter ≤ maxRetryDelay
  | .finishPermanentFailure _ errorCode _ => errorCode.length ≤ maxEffectErrorCodeLength ∧ isSafeEffectCode errorCode
  | _ => True

/-- A call after which the claim's lease is over: it reports on the claim, claims the message
again, or leaves it to no worker. -/
def Command.EndsLease (command : Command) (answer : Answer) (after : Outbox) (claim : ClaimedEffect) : Prop :=
  command.reports = some claim ∨
    (∃ next, answer = .claimed (some next) ∧ next.messageId = claim.messageId) ∨
    ∃ m ∈ after.messages, m.id = claim.messageId ∧ m.status ≠ .processing

section

variable {nfc : String → String} {outbox after : Outbox} {command : Command} {answer : Answer} {claim : ClaimedEffect}

theorem lockedClaim_lost (free : ¬ outbox.Held claim) : outbox.lockedClaim claim = .error .leaseLost := by
  unfold Outbox.lockedClaim
  cases h : outbox.messages.rows.find? (Outbox.ClaimedBy · claim) with
  | none => rfl
  | some m =>
    have ⟨mem, claimed⟩ := Table.find?_eq_some_and h
    exact absurd ⟨m, mem, claimed⟩ free

/-- A report under a lease that is over fails, for that reason unless its arguments are refused. -/
theorem execEffect_lost (free : ¬ outbox.Held claim) (reports : command.reports = some claim) :
    ∃ e, execEffect nfc outbox command = .error e ∧ (command.Accepted → e = .leaseLost) := by
  have lost := lockedClaim_lost free
  cases command with
  | finishSuccess c =>
    cases reports
    simp only [execEffect, Outbox.finishEffectSuccess, lost]
    exact ⟨.leaseLost, rfl, fun _ => rfl⟩
  | finishTransientFailure c errorCode retryAfter =>
    cases reports
    simp only [execEffect, Outbox.finishEffectTransientFailure, validateEffectErrorCode, require, lost]
    by_cases code : errorCode.length ≤ maxEffectErrorCodeLength ∧ isSafeEffectCode errorCode
    · by_cases delay : 0 ≤ retryAfter ∧ retryAfter ≤ maxRetryDelay
      · rw [if_pos code, if_pos delay]
        exact ⟨.leaseLost, rfl, fun _ => rfl⟩
      · rw [if_pos code, if_neg delay]
        exact ⟨_, rfl, fun ok => absurd ok.2 delay⟩
    · rw [if_neg code]
      exact ⟨_, rfl, fun ok => absurd ok.1 code⟩
  | finishPermanentFailure c errorCode =>
    cases reports
    simp only [execEffect, Outbox.finishEffectPermanentFailure, validateEffectErrorCode, require, lost]
    by_cases code : errorCode.length ≤ maxEffectErrorCodeLength ∧ isSafeEffectCode errorCode
    · rw [if_pos code]
      exact ⟨.leaseLost, rfl, fun _ => rfl⟩
    · rw [if_neg code]
      exact ⟨_, rfl, fun ok => absurd ok code⟩
  | _ => cases reports

theorem Command.EndsLease.free {given : List Answer} (consistent : Consistent outbox)
    (accounted : Accounted outbox given)
    (known : .claimed (some claim) ∈ given) (h : (effectMachine nfc).exec outbox command = .ok (after, answer))
    (ends : command.EndsLease answer after claim) : ¬ after.Held claim := by
  have wrote := (execEffect_ends (fun m mem => (consistent.sound m mem).clean) command).ok h
  rcases ends with reports | ⟨next, rfl, same⟩ | ⟨m, mem, own, free⟩
  · cases answer with
    | finished outcome =>
      obtain ⟨c, hc, m, mem, claimed, m', a, r, moves⟩ := wrote
      obtain rfl : claim = c := Option.some.inj (reports.symm.trans hc)
      exact moves.ends_lease claimed.1 claimed.2.2.2.2.ge
    | _ => cases reports.symm.trans wrote.1
  · obtain ⟨-, moved, claims⟩ := wrote
    obtain ⟨⟨m, mem, own, number⟩, m', mem', claimed'⟩ := claims next rfl
    obtain ⟨o, memo, owno, earlier⟩ := accounted.claims claim known
    obtain rfl := Table.eq_of_key memo mem (owno.trans (same.symm.trans own.symm))
    rintro ⟨x, memx, claimed⟩
    obtain rfl := Table.eq_of_key memx mem' (claimed.1.trans (same.symm.trans claimed'.1.symm))
    have := claimed.2.2.2.2
    have := claimed'.2.2.2.2
    omega
  · rintro ⟨x, memx, claimed⟩
    obtain rfl := Table.eq_of_key memx mem (claimed.1.trans own.symm)
    exact free claimed.2.2.1

end

/-- After any run of the calls: the journal, the budget and the life cycle of every message, what is
left of the claims given, and that the outbox trigger refuses no write. -/
theorem effectMachine_history (nfc : String → String) (commands : List Command) :
    let machine := effectMachine nfc
    let outbox := machine.run .empty commands
    let given := machine.answers .empty commands
    (∀ m ∈ outbox.messages,
      (outbox.attemptsOf m.id).map (·.attemptNumber) = List.range' 1 m.concluded ∧
      m.attemptCount ≤ m.maxAttempts ∧ m.maxAttempts ≤ maxEffectTotalAttempts ∧
      (∃ p, Answer.published p ∈ given ∧ p.id = m.id) ∧
      (∀ p, Answer.published p ∈ given → p.id = m.id →
        m.maxAttempts = p.maxAttempts + outbox.replayedAttempts m.id) ∧
      (m.status = .pending → m.attemptCount < m.maxAttempts ∧
        ∀ now leaseDuration leaseToken, m.availableAt ≤ now → 0 < leaseDuration → leaseDuration ≤ maxLeaseDuration →
          ∃ after claim, machine.exec outbox (.claimNext m.organizationId m.workloadPool leaseDuration now leaseToken) =
            .ok (after, .claimed (some claim))) ∧
      (outbox.attemptsOf m.id).countP (·.outcome = .succeeded) ≤ 1 ∧
      (m.Terminal → ∀ later, m ∈ (machine.run outbox later).messages ∧
        (machine.run outbox later).attemptsOf m.id = outbox.attemptsOf m.id)) ∧
    (∀ claim, .claimed (some claim) ∈ given →
      (∀ command after answer, machine.exec outbox command = .ok (after, answer) →
        command.EndsLease answer after claim → ¬ after.Held claim) ∧
      (¬ outbox.Held claim → ∀ later command, command.reports = some claim →
        machine.step (machine.run outbox later) command = machine.run outbox later ∧
        ∃ e, machine.exec (machine.run outbox later) command = .error e ∧ (command.Accepted → e = .leaseLost))) ∧
    ∀ command message, machine.exec outbox command ≠ .error (.outboxGuard message) := by
  intro machine outbox given
  obtain ⟨consistent, accounted⟩ : Consistent outbox ∧ Accounted outbox given :=
    Machine.history_invariant (I := fun s g => Consistent s ∧ Accounted s g)
      (fun _ _ _ _ _ h he => have kept := effectMachine_keeps h.1 h.2 he; ⟨kept.1, kept.2.1⟩)
      ⟨consistent_empty, accounted_empty⟩ commands
  -- What any continuation leaves as it is.
  have later (calls : List Command) : Later outbox (machine.run outbox calls) := by
    have keep := Machine.history_invariant (M := machine)
      (I := fun s g => Consistent s ∧ Accounted s g ∧ Later outbox s)
      (fun _ _ _ _ _ h he => have kept := effectMachine_keeps h.1 h.2.1 he; ⟨kept.1, kept.2.1, h.2.2.trans kept.2.2⟩)
      ⟨consistent, accounted, Later.refl outbox⟩ calls
    exact keep.2.2
  refine ⟨fun m mem => ?_, fun claim known => ⟨?_, ?_⟩, ?_⟩
  · have sound := consistent.sound m mem
    obtain ⟨within, bounded⟩ := attempts_le_of_clean sound.clean
    refine ⟨sound.journal, within, bounded, accounted.published m mem, fun p hp same => ?_,
      fun due => ⟨sound.left due, ?_⟩,
      ?_, fun terminal calls => (later calls).terminal m mem terminal⟩
    · obtain ⟨o, memo, own, budget⟩ := accounted.budget p hp
      obtain rfl := Table.eq_of_key memo mem (own.trans same)
      rw [budget, same]
    · intro now leaseDuration leaseToken available positive short
      have candidate : m ∈ outbox.candidates m.organizationId m.workloadPool now :=
        mem_candidates.mpr ⟨mem, .inl ⟨due, available⟩, rfl, rfl, sound.left due⟩
      obtain ⟨after, claim, h⟩ := claimNextEffect_ok consistent leaseToken candidate ⟨positive, short⟩
      have claims : execEffect nfc outbox (.claimNext m.organizationId m.workloadPool leaseDuration now leaseToken) =
          .ok (after, .claimed (some claim)) := by
        simp only [execEffect, h]
        rfl
      exact ⟨after, claim, claims⟩
    · rw [sound.delivered]
      split <;> omega
  · exact fun command after answer h ends => ends.free consistent accounted known h
  · intro free calls command reports
    have lost := (later calls).lost claim ⟨accounted.claims claim known, free⟩
    obtain ⟨e, h, code⟩ := execEffect_lost lost.2 reports
    exact ⟨Machine.step_of_error h, e, h, code⟩
  · intro command message h
    exact (execEffect_ends (fun m mem => (consistent.sound m mem).clean) command).error h message rfl

end Maru.Effects

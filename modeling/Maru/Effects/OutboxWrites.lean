import Maru.Effects.Delivery
import Mathlib.Logic.Relation

/-!
# What a call writes

Whatever the call, a message's row moves along its life cycle (`Move`), with the attempt
or the replay receipt that records the move. Every call that returns has made a sequence of
such moves, or has published a message (`execEffect_ends`); none fails because the
outbox trigger refuses a row.
-/

namespace Maru.Effects

/-! ## Moves -/

/-- The life cycle of a message: the row before and after, the attempt and the receipt recorded. -/
inductive Move : OutboxMessage → OutboxMessage → Option EffectAttempt → Option EffectReplayReceipt → Prop
  | claim {m : OutboxMessage} {now expires : Int} {token : Uuid} (due : m.status = .pending)
      (left : m.attemptCount < m.maxAttempts) (lease : now < expires) :
      Move m { m with
        status := .processing, claimedAt := some now, leaseExpiresAt := some expires, leaseToken := some token,
        attemptCount := m.attemptCount + 1, completedAt := none } none none
  | reclaim {m : OutboxMessage} {now expires : Int} {token : Uuid} {a : EffectAttempt} (held : m.status = .processing)
      (left : m.attemptCount < m.maxAttempts) (lease : now < expires) (number : a.key = (m.id, m.attemptCount))
      (lost : a.outcome = .transientFailure) :
      Move m { m with
        status := .processing, claimedAt := some now, leaseExpiresAt := some expires, leaseToken := some token,
        attemptCount := m.attemptCount + 1, completedAt := none } (some a) none
  | finish {m : OutboxMessage} {status : Status} {availableAt : Int} {completedAt : Option Int}
      {errorCode : String} {a : EffectAttempt} (held : m.status = .processing)
      (target : status = .succeeded ∨ status = .quarantined ∨ (status = .pending ∧ m.attemptCount < m.maxAttempts))
      (number : a.key = (m.id, m.attemptCount)) (outcome : a.outcome = .succeeded ↔ status = .succeeded) :
      Move m { m with
        status, availableAt, completedAt, leaseExpiresAt := none, leaseToken := none,
        lastErrorCode := errorCode } (some a) none
  | cancel {m : OutboxMessage} {now : Int} {reasonCode : String} (due : m.status = .pending) :
      Move m { m with status := .cancelled, completedAt := some now, lastErrorCode := reasonCode } none none
  | replay {m : OutboxMessage} {now : Int} {r : EffectReplayReceipt} (quarantined : m.status = .quarantined)
      (more : 1 ≤ r.additionalAttempts) (of : r.outboxMessageId = m.id) :
      Move m { m with
        maxAttempts := m.maxAttempts + r.additionalAttempts, status := .pending, availableAt := now,
        completedAt := none, lastErrorCode := "", replayCount := m.replayCount + 1 } none (some r)

/-- A message is published: a new row, due for its first attempt. -/
structure Outbox.Publishes (before after : Outbox) (m : OutboxMessage) : Prop where
  messages : before.messages.insert? m = some after.messages
  attempts : after.attempts = before.attempts
  receipts : after.receipts = before.receipts
  clean : m.checks.all (·.2)
  due : m.status = .pending
  unattempted : m.attemptCount = 0

/-- The row of one message moves. -/
structure Outbox.Moves (before after : Outbox) (m m' : OutboxMessage) (a : Option EffectAttempt)
    (r : Option EffectReplayReceipt) : Prop where
  mem : m ∈ before.messages
  move : Move m m' a r
  clean : m'.checks.all (·.2)
  messages : after.messages = before.messages.save m'
  attempts : after.attempts.rows = before.attempts.rows ++ a.toList
  receipts : after.receipts.rows = before.receipts.rows ++ r.toList

/-- The row of `m` moves, and no other. -/
def Outbox.MovesOne (before after : Outbox) (m : OutboxMessage) : Prop := ∃ m' a r, before.Moves after m m' a r

/-- The tables after the rows of some messages moved. -/
abbrev Outbox.Moved : Outbox → Outbox → Prop := Relation.ReflTransGen fun before after => ∃ m, before.MovesOne after m

namespace Move

variable {m m' : OutboxMessage} {a : Option EffectAttempt} {r : Option EffectReplayReceipt}

theorem id_eq (h : Move m m' a r) : m'.id = m.id := by
  cases h <;> rfl

/-- A finished or cancelled message does not move. -/
theorem not_terminal (h : Move m m' a r) : m.status ≠ .succeeded ∧ m.status ≠ .cancelled := by
  cases h <;> simp_all

/-- A move ends the lease under which the message is held. -/
theorem lease (h : Move m m' a r) : m'.attemptCount = m.attemptCount + 1 ∨
    (m'.attemptCount = m.attemptCount ∧ m'.status ≠ .processing) := by
  cases h with
  | claim => exact .inl rfl
  | reclaim => exact .inl rfl
  | finish _ target =>
    refine .inr ⟨rfl, ?_⟩
    rcases target with rfl | rfl | ⟨rfl, _⟩ <;> simp
  | cancel => exact .inr ⟨rfl, by simp⟩
  | replay => exact .inr ⟨rfl, by simp⟩

end Move

/-! ## Rules for the writes -/

/-- Every failure but one that the outbox trigger raises. -/
def EffectError.NotGuard (e : EffectError) : Prop := ∀ message, e ≠ .outboxGuard message

theorem EffectError.notGuard_receiptGuard {message : String} : (EffectError.receiptGuard message).NotGuard :=
  fun _ same => nomatch same

section

variable {outbox : Outbox}

theorem fullClean_ends {checks : List (String × Bool)} :
    Ends (fun _ => checks.all (·.2)) EffectError.NotGuard (fullClean checks) :=
  Ends.require fun _ _ => nofun

theorem validateEffectErrorCode_ends {value : String} :
    Ends (fun _ => True) EffectError.NotGuard (validateEffectErrorCode value) :=
  (Ends.require fun _ _ => nofun).mono fun _ _ => trivial

theorem requireEffectDeliveryAllowed_ends {surroundings : Surroundings} {event : DomainEvent} {destination : String} :
    Ends (fun _ => True) EffectError.NotGuard (surroundings.requireEffectDeliveryAllowed event destination) :=
  (Ends.require fun _ _ => nofun).mono fun _ _ => trivial

theorem saveMessage_ends {old m : OutboxMessage} (mem : old ∈ outbox.messages)
    (same : old.id = m.id) (allowed : guardOutboxMessage outbox.receipts old m = .ok ()) :
    Ends (fun saved => saved.messages = outbox.messages.save m ∧ saved.attempts = outbox.attempts ∧
        saved.receipts = outbox.receipts ∧ m.checks.all (·.2))
      EffectError.NotGuard (outbox.saveMessage m) := by
  unfold Outbox.saveMessage
  refine Ends.bind (Ends.getOr fun _ _ => nofun) fun found hfound => ?_
  obtain rfl : found = old := Option.some.inj (hfound.symm.trans (Table.get?_eq_some.mpr ⟨mem, same⟩))
  refine Ends.bind fullClean_ends fun _ clean => ?_
  rw [allowed]
  exact Ends.pure ⟨rfl, rfl, rfl, clean⟩

theorem createAttempt_ends {a : EffectAttempt} :
    Ends (fun saved => saved.messages = outbox.messages ∧ saved.receipts = outbox.receipts ∧
        saved.attempts.rows = outbox.attempts.rows ++ [a])
      EffectError.NotGuard (outbox.createAttempt a) := by
  unfold Outbox.createAttempt
  refine Ends.bind fullClean_ends fun _ _ => ?_
  refine Ends.bind (Ends.getOr fun _ _ => nofun) fun attempts h => ?_
  exact Ends.pure ⟨rfl, rfl, (Table.insert?_eq_some.mp h).2⟩

theorem guardEffectReplayReceipt_ends {accountIsActive : Uuid → Bool} {r : EffectReplayReceipt} :
    Ends (fun _ => True) EffectError.NotGuard (guardEffectReplayReceipt outbox.messages accountIsActive r) := by
  unfold guardEffectReplayReceipt
  refine Ends.bind (Ends.require fun _ => EffectError.notGuard_receiptGuard) fun _ _ => ?_
  refine Ends.bind (Ends.require fun _ => EffectError.notGuard_receiptGuard) fun _ _ => ?_
  exact (Ends.require fun _ => EffectError.notGuard_receiptGuard).mono fun _ _ => trivial

theorem createReceipt_ends {accountIsActive : Uuid → Bool} {message : OutboxMessage}
    {r : EffectReplayReceipt} : Ends (fun saved => saved.messages = outbox.messages ∧
        saved.attempts = outbox.attempts ∧ saved.receipts.rows = outbox.receipts.rows ++ [r])
      EffectError.NotGuard (outbox.createReceipt accountIsActive message r) := by
  unfold Outbox.createReceipt
  refine Ends.bind fullClean_ends fun _ _ => ?_
  refine Ends.bind guardEffectReplayReceipt_ends fun _ _ => ?_
  refine Ends.bind (Ends.getOr fun _ _ => nofun) fun receipts h => ?_
  exact Ends.pure ⟨rfl, rfl, (Table.insert?_eq_some.mp h).2⟩

/-! ## What the trigger allows -/

theorem guardOutboxMessage_claim {receipts : Table EffectReplayReceipt.key} {old new : OutboxMessage}
    (routed : new.eventId = old.eventId ∧ new.organizationId = old.organizationId ∧
      new.destination = old.destination ∧ new.workloadPool = old.workloadPool)
    (policy : new.maxAttempts = old.maxAttempts ∧ new.replayCount = old.replayCount) (status : new.status = .processing)
    (count : new.attemptCount = old.attemptCount + 1)
    (due : old.status = .pending ∨
      (old.status = .processing ∧ ∃ expires ∈ old.leaseExpiresAt, ∃ claimed ∈ new.claimedAt, expires ≤ claimed)) :
    guardOutboxMessage receipts old new = .ok () := by
  unfold guardOutboxMessage require
  rw [if_pos routed, if_pos (.inr policy)]
  rcases due with due | ⟨due, expired⟩
  · simp [due, status, count, bind, Except.bind]
  · simp only [due, status, count, expired]
    simp [bind, Except.bind]

theorem guardOutboxMessage_leave {receipts : Table EffectReplayReceipt.key} {old new : OutboxMessage}
    (routed : new.eventId = old.eventId ∧ new.organizationId = old.organizationId ∧
      new.destination = old.destination ∧ new.workloadPool = old.workloadPool)
    (policy : new.maxAttempts = old.maxAttempts ∧ new.replayCount = old.replayCount)
    (count : new.attemptCount = old.attemptCount)
    (leave : (old.status = .pending ∧ new.status = .cancelled) ∨ (old.status = .processing ∧
      (new.status = .pending ∨ new.status = .succeeded ∨ new.status = .quarantined))) :
    guardOutboxMessage receipts old new = .ok () := by
  unfold guardOutboxMessage require
  rw [if_pos routed, if_pos (.inr policy)]
  rcases leave with ⟨due, status⟩ | ⟨held, status⟩
  · simp [due, status, count, bind, Except.bind]
  · simp [held, status, count, bind, Except.bind]

theorem guardOutboxMessage_replay {receipts : Table EffectReplayReceipt.key} {old new : OutboxMessage}
    (routed : new.eventId = old.eventId ∧ new.organizationId = old.organizationId ∧
      new.destination = old.destination ∧ new.workloadPool = old.workloadPool)
    (quarantined : old.status = .quarantined) (status : new.status = .pending)
    (count : new.attemptCount = old.attemptCount) (more : old.maxAttempts < new.maxAttempts)
    (replay : new.replayCount = old.replayCount + 1)
    (evidence : ∃ receipt ∈ receipts.rows, receipt.outboxMessageId = old.id ∧
      receipt.organizationId = old.organizationId ∧ receipt.previousMaxAttempts = old.maxAttempts ∧
      receipt.newMaxAttempts = new.maxAttempts ∧ receipt.replayCount = new.replayCount) :
    guardOutboxMessage receipts old new = .ok () := by
  unfold guardOutboxMessage require
  rw [if_pos routed, if_pos (.inl quarantined), if_neg (by simp [quarantined]),
    if_pos (.inr (.inr ⟨quarantined, status, count, more, replay, evidence⟩))]
  rfl

end

/-! ## What the calls write -/

section

variable {outbox : Outbox}

/-- A message that is held has a lease token and the time of its claim. -/
theorem lease_of_clean {m : OutboxMessage} (clean : m.checks.all (·.2)) (held : m.status = .processing) :
    ∃ token startedAt, m.leaseToken = some token ∧ m.claimedAt = some startedAt := by
  simp only [OutboxMessage.checks, List.all_cons, Bool.and_eq_true, held, if_true] at clean
  obtain ⟨-, -, -, -, -, -, ⟨⟨⟨started, -⟩, token⟩, -⟩, -⟩ := clean
  obtain ⟨token, htoken⟩ := Option.isSome_iff_exists.mp token
  obtain ⟨startedAt, hstarted⟩ := Option.isSome_iff_exists.mp started
  exact ⟨token, startedAt, htoken, hstarted⟩

theorem recordExpiredLease_held {message : OutboxMessage} {now : Int}
    (held : message.status = .processing) (clean : message.checks.all (·.2)) :
    Ends (fun saved => ∃ a : EffectAttempt, a.key = (message.id, message.attemptCount) ∧
        a.outcome = .transientFailure ∧ saved.messages = outbox.messages ∧ saved.receipts = outbox.receipts ∧
        saved.attempts.rows = outbox.attempts.rows ++ [a])
      EffectError.NotGuard (outbox.recordExpiredLease message now) := by
  obtain ⟨token, startedAt, htoken, hstarted⟩ := lease_of_clean clean held
  unfold Outbox.recordExpiredLease
  rw [held, htoken, hstarted]
  exact createAttempt_ends.mono fun saved h => ⟨_, rfl, rfl, h⟩

theorem recordExpiredLease_pending {message : OutboxMessage} {now : Int} (due : message.status = .pending) :
    Ends (· = outbox) EffectError.NotGuard (outbox.recordExpiredLease message now) := by
  unfold Outbox.recordExpiredLease
  rw [due]
  exact rfl

/-- What a claim answers: the message was claimable, and is now held under the claim. -/
def Claims (before after : Outbox) (claim : ClaimedEffect) : Prop :=
  (∃ m ∈ before.messages, m.id = claim.messageId ∧ claim.attemptNumber = m.attemptCount + 1) ∧
    ∃ m ∈ after.messages, Outbox.ClaimedBy m claim

theorem mem_candidates {organizationId : Uuid} {workloadPool : String} {now : Int}
    {m : OutboxMessage} : m ∈ outbox.candidates organizationId workloadPool now ↔
      m ∈ outbox.messages ∧ ((m.status = .pending ∧ m.availableAt ≤ now) ∨
        (m.status = .processing ∧ ∃ expires ∈ m.leaseExpiresAt, expires ≤ now)) ∧
      m.organizationId = organizationId ∧ m.workloadPool = workloadPool ∧ m.attemptCount < m.maxAttempts := by
  simp [Outbox.candidates, Table.mem_def]

theorem claimMessage_ends {organizationId : Uuid} {workloadPool : String}
    {leaseDuration claimedAt : Int} {leaseToken : Uuid} {message : OutboxMessage}
    (candidate : message ∈ outbox.candidates organizationId workloadPool claimedAt) (lease : 0 < leaseDuration)
    (clean : ∀ m ∈ outbox.messages, m.checks.all (·.2)) :
    Ends (fun p => outbox.MovesOne p.1 message ∧ Claims outbox p.1 p.2) EffectError.NotGuard
      (outbox.claimMessage message leaseDuration claimedAt leaseToken) := by
  obtain ⟨mem, due, -, -, left⟩ := mem_candidates.mp candidate
  have later : claimedAt < claimedAt + leaseDuration := by omega
  unfold Outbox.claimMessage
  -- Whatever was recorded, the row is still there, and the trigger lets the claim pass.
  have save {recorded : Outbox} (same : recorded.messages = outbox.messages) :=
    saveMessage_ends (same ▸ mem : message ∈ recorded.messages) (m := { message with
      status := .processing, claimedAt := some claimedAt, leaseExpiresAt := some (claimedAt + leaseDuration),
      leaseToken := some leaseToken, attemptCount := message.attemptCount + 1, completedAt := none }) rfl
      (guardOutboxMessage_claim ⟨rfl, rfl, rfl, rfl⟩ ⟨rfl, rfl⟩ rfl rfl (due.imp (·.1) fun ⟨held, expires, he, h⟩ =>
        ⟨held, expires, he, claimedAt, rfl, h⟩))
  have claims {saved : Outbox} {claimed : OutboxMessage} {claim : ClaimedEffect}
      (h : saved.messages = outbox.messages.save claimed) (same : claimed.id = message.id)
      (number : claim.attemptNumber = message.attemptCount + 1) (by_ : Outbox.ClaimedBy claimed claim) :
      Claims outbox saved claim :=
    ⟨⟨message, mem, same.symm.trans by_.1, number⟩, claimed,
      h ▸ (Table.mem_save_of_mem mem same.symm).mpr (.inr rfl), by_⟩
  rcases due with ⟨due, -⟩ | ⟨held, -⟩
  · refine Ends.bind (recordExpiredLease_pending due) ?_
    rintro _ rfl
    refine Ends.bind (save rfl) fun saved ⟨messages, attempts, receipts, cleaned⟩ => Ends.pure ⟨?_, ?_⟩
    · exact ⟨_, none, none, mem, .claim due left later, cleaned, messages, by simp [attempts], by simp [receipts]⟩
    · exact claims messages rfl rfl ⟨rfl, rfl, rfl, rfl, rfl⟩
  · refine Ends.bind (recordExpiredLease_held held (clean message mem))
      fun recorded ⟨a, number, lost, same, receipts, attempts⟩ => ?_
    refine Ends.bind (save same) fun saved ⟨messages, attempts', receipts', cleaned⟩ => Ends.pure ⟨?_, ?_⟩
    · rw [same] at messages
      exact ⟨_, some a, none, mem, .reclaim held left later number lost, cleaned, messages,
        attempts' ▸ attempts, by simp [receipts', receipts]⟩
    · rw [same] at messages
      exact claims messages rfl rfl ⟨rfl, rfl, rfl, rfl, rfl⟩

theorem quarantine_ends {message : OutboxMessage} {now : Int} (mem : message ∈ outbox.messages)
    (held : message.status = .processing) :
    Ends (fun after => outbox.Moved after ∧ ∀ m ∈ outbox.messages, m.id ≠ message.id →
      m ∈ after.messages) EffectError.NotGuard (outbox.quarantine now message) := by
  unfold Outbox.quarantine
  split
  · rename_i token startedAt htoken hstarted
    refine Ends.bind (saveMessage_ends mem rfl (guardOutboxMessage_leave ⟨rfl, rfl, rfl, rfl⟩ ⟨rfl, rfl⟩ rfl
      (.inr ⟨held, .inr (.inr rfl)⟩))) fun saved ⟨messages, attempts, receipts, clean⟩ => ?_
    refine createAttempt_ends.mono fun after ⟨messages', receipts', attempts'⟩ => ?_
    rw [messages] at messages'
    refine ⟨.single ⟨message, _, some _, none, mem, .finish held (.inr (.inl rfl)) rfl (by simp), clean, messages',
      attempts ▸ attempts', by simp [receipts', receipts]⟩, fun m hm other => ?_⟩
    rw [messages']
    exact (Table.mem_save_or hm).resolve_right other
  · exact ⟨.refl, fun m hm _ => hm⟩

theorem exhausted_spec {organizationId : Uuid} {workloadPool : String} {now : Int} :
    (∀ m ∈ outbox.exhausted organizationId workloadPool now, m ∈ outbox.messages ∧ m.status = .processing) ∧
      ((outbox.exhausted organizationId workloadPool now).map (·.id)).Nodup := by
  constructor
  · intro m hm
    have := (sortBy_perm _ _).mem_iff.mp hm
    simp only [List.mem_filter, decide_eq_true_eq] at this
    exact ⟨this.1, this.2.2.2.1⟩
  · exact ((sortBy_perm _ _).map _).nodup_iff.mpr ((List.filter_sublist.map _).nodup outbox.messages.nodup)

theorem quarantineExhausted_ends {organizationId : Uuid} {workloadPool : String} {now : Int} :
    Ends (outbox.Moved ·) EffectError.NotGuard (outbox.quarantineExhausted organizationId workloadPool now) := by
  -- The messages still to come are as the query found them: each turn writes another row.
  let Ahead (after : Outbox) (rest : List OutboxMessage) : Prop :=
    outbox.Moved after ∧ (∀ m ∈ rest, m ∈ after.messages ∧ m.status = .processing) ∧ (rest.map (·.id)).Nodup
  unfold Outbox.quarantineExhausted
  refine (Ends.foldlM (I := Ahead) (fun after m rest ⟨moved, ahead, nodup⟩ => ?_) ⟨.refl, exhausted_spec⟩).mono
    fun after h => h.1
  obtain ⟨mem, held⟩ := ahead m List.mem_cons_self
  rw [List.map_cons, List.nodup_cons] at nodup
  refine (quarantine_ends mem held).mono fun next ⟨moves, others⟩ => ⟨moved.trans moves, fun o ho => ?_, nodup.2⟩
  obtain ⟨memo, heldo⟩ := ahead o (List.mem_cons_of_mem _ ho)
  exact ⟨others o memo fun same => nodup.1 (same ▸ List.mem_map_of_mem ho), heldo⟩

theorem lockedClaim_ends {claim : ClaimedEffect} :
    Ends (fun m => m ∈ outbox.messages ∧ Outbox.ClaimedBy m claim) EffectError.NotGuard (outbox.lockedClaim claim) := by
  unfold Outbox.lockedClaim
  refine (Ends.getOr fun _ _ => nofun).mono fun m h => ?_
  have ⟨mem, claimed⟩ := Table.find?_eq_some_and h
  exact ⟨mem, claimed⟩

theorem guardOutboxMessage_finish {receipts : Table EffectReplayReceipt.key} {message : OutboxMessage}
    {status : Status} {availableAt : Int} {completedAt : Option Int} {errorCode : String}
    (held : message.status = .processing)
    (target : status = .succeeded ∨ status = .quarantined ∨
      (status = .pending ∧ message.attemptCount < message.maxAttempts)) :
    guardOutboxMessage receipts message { message with
      status, availableAt, completedAt, leaseExpiresAt := none, leaseToken := none, lastErrorCode := errorCode } =
      .ok () := by
  refine guardOutboxMessage_leave ⟨rfl, rfl, rfl, rfl⟩ ⟨rfl, rfl⟩ rfl (.inr ⟨held, ?_⟩)
  rcases target with rfl | rfl | ⟨rfl, -⟩ <;> simp

theorem claimedAttempt_key {claim : ClaimedEffect} {message : OutboxMessage} {finishedAt : Int}
    {outcome : AttemptOutcome} {errorCode : String} (claimed : Outbox.ClaimedBy message claim) :
    (Outbox.claimedAttempt claim message finishedAt outcome errorCode).key = (message.id, message.attemptCount) := by
  rw [claimed.2.2.2.2]
  rfl

/-- The end of every report: once the row has left the lease, its attempt is recorded. -/
theorem createAttempt_finish {saved : Outbox} {message row : OutboxMessage} {a : EffectAttempt}
    (h : saved.messages = outbox.messages.save row ∧ saved.attempts = outbox.attempts ∧
      saved.receipts = outbox.receipts ∧ row.checks.all (·.2))
    (mem : message ∈ outbox.messages) (move : Move message row (some a) none) :
    Ends (outbox.MovesOne · message) EffectError.NotGuard (saved.createAttempt a) := by
  obtain ⟨messages, attempts, receipts, clean⟩ := h
  refine createAttempt_ends.mono fun after ⟨messages', receipts', attempts'⟩ => ?_
  exact ⟨row, some a, none, mem, move, clean, messages' ▸ messages, attempts ▸ attempts', by simp [receipts', receipts]⟩

/-- What a report leaves: the message was held under the claim, and its row moved. -/
def Reports (before after : Outbox) (claim : ClaimedEffect) : Prop :=
  ∃ m ∈ before.messages, Outbox.ClaimedBy m claim ∧ before.MovesOne after m

theorem finishEffectSuccess_ends {claim : ClaimedEffect} {finishedAt : Int} :
    Ends (Reports outbox · claim) EffectError.NotGuard (outbox.finishEffectSuccess claim finishedAt) := by
  unfold Outbox.finishEffectSuccess
  refine Ends.bind lockedClaim_ends fun m ⟨mem, claimed⟩ => ?_
  have held := claimed.2.2.1
  refine Ends.bind (saveMessage_ends mem rfl (guardOutboxMessage_finish held (.inl rfl))) fun saved h => ?_
  exact (createAttempt_finish h mem
    (.finish held (.inl rfl) (claimedAttempt_key claimed) (by simp [Outbox.claimedAttempt]))).mono
    fun after moves => ⟨m, mem, claimed, moves⟩

theorem finishEffectPermanentFailure_ends {claim : ClaimedEffect} {errorCode : String}
    {finishedAt : Int} : Ends (Reports outbox · claim) EffectError.NotGuard
      (outbox.finishEffectPermanentFailure claim errorCode finishedAt) := by
  unfold Outbox.finishEffectPermanentFailure
  refine Ends.bind validateEffectErrorCode_ends fun _ _ => ?_
  refine Ends.bind lockedClaim_ends fun m ⟨mem, claimed⟩ => ?_
  have held := claimed.2.2.1
  refine Ends.bind (saveMessage_ends mem rfl (guardOutboxMessage_finish held (.inr (.inl rfl)))) fun saved h => ?_
  exact (createAttempt_finish h mem (.finish held (.inr (.inl rfl)) (claimedAttempt_key claimed)
    (by simp [Outbox.claimedAttempt]))).mono fun after moves => ⟨m, mem, claimed, moves⟩

theorem finishEffectTransientFailure_ends {claim : ClaimedEffect} {errorCode : String}
    {retryAfter finishedAt : Int} : Ends (fun p => Reports outbox p.1 claim) EffectError.NotGuard
      (outbox.finishEffectTransientFailure claim errorCode retryAfter finishedAt) := by
  unfold Outbox.finishEffectTransientFailure
  refine Ends.bind validateEffectErrorCode_ends fun _ _ => ?_
  refine Ends.bind (Ends.require fun _ _ => nofun) fun _ _ => ?_
  refine Ends.bind lockedClaim_ends fun m ⟨mem, claimed⟩ => ?_
  have held := claimed.2.2.1
  -- A message without attempts left is quarantined instead of made pending.
  have target : (if decide (m.maxAttempts ≤ m.attemptCount) then Status.quarantined else .pending) = .succeeded ∨
      (if decide (m.maxAttempts ≤ m.attemptCount) then Status.quarantined else .pending) = .quarantined ∨
      ((if decide (m.maxAttempts ≤ m.attemptCount) then Status.quarantined else .pending) = .pending ∧
        m.attemptCount < m.maxAttempts) := by
    by_cases h : m.maxAttempts ≤ m.attemptCount
    · exact .inr (.inl (if_pos (by simpa using h)))
    · exact .inr (.inr ⟨if_neg (by simpa using h), by omega⟩)
  refine Ends.bind (saveMessage_ends mem rfl (guardOutboxMessage_finish held target)) fun saved h => ?_
  have outcome :
    (if decide (m.maxAttempts ≤ m.attemptCount) then AttemptOutcome.exhausted else .transientFailure) = .succeeded ↔
      (if decide (m.maxAttempts ≤ m.attemptCount) then Status.quarantined else .pending) = .succeeded := by
    by_cases h : m.maxAttempts ≤ m.attemptCount <;> simp [h]
  refine Ends.bind (createAttempt_finish h mem (.finish held target (claimedAttempt_key claimed) outcome))
    fun after moves => ?_
  exact Ends.pure ⟨m, mem, claimed, moves⟩

theorem cancelPendingEffect_ends {messageId : Uuid} {reasonCode : String} {now : Int} :
    Ends (fun after => after = outbox ∨ ∃ m, outbox.MovesOne after m) EffectError.NotGuard
      (outbox.cancelPendingEffect messageId reasonCode now) := by
  unfold Outbox.cancelPendingEffect
  refine Ends.bind validateEffectErrorCode_ends fun _ _ => ?_
  refine Ends.bind (Ends.getOr fun _ _ => nofun) fun m hm => ?_
  refine Ends.bind (Ends.require fun _ _ => nofun) fun _ _ => ?_
  split
  · exact Ends.pure (.inl rfl)
  · rename_i due
    rw [not_not] at due
    have mem := (Table.get?_eq_some.mp hm).1
    refine Ends.mono (saveMessage_ends mem rfl (guardOutboxMessage_leave ⟨rfl, rfl, rfl, rfl⟩ ⟨rfl, rfl⟩ rfl
      (.inl ⟨due, rfl⟩))) fun after ⟨messages, attempts, receipts, clean⟩ => Or.inr ?_
    exact ⟨m, _, none, none, mem, .cancel due, clean, messages, by simp [attempts], by simp [receipts]⟩

theorem normalizeEffectReplayReason_ends {nfc : String → String} {reason : String} :
    Ends (fun _ => True) EffectError.NotGuard (normalizeEffectReplayReason nfc reason) := by
  unfold normalizeEffectReplayReason
  dsimp only
  generalize collapseSpace (nfc reason) = normalized
  refine Ends.bind (Ends.require fun _ _ => nofun) fun _ _ => ?_
  refine Ends.bind (Ends.require fun _ _ => nofun) fun _ _ => ?_
  exact Ends.pure trivial

theorem replayQuarantinedEffect_ends {nfc : String → String} {surroundings : Surroundings} {messageId actorId : Uuid}
    {additionalAttempts now : Int} {reason : String} {correlationId : Uuid} :
    Ends (fun p => ∃ m, outbox.MovesOne p.1 m) EffectError.NotGuard
      (outbox.replayQuarantinedEffect nfc surroundings messageId additionalAttempts actorId
        reason correlationId now) := by
  unfold Outbox.replayQuarantinedEffect
  refine Ends.bind (Ends.require fun _ _ => nofun) fun _ ⟨more, _⟩ => ?_
  refine Ends.bind normalizeEffectReplayReason_ends fun reason _ => ?_
  refine Ends.bind (Ends.getOr fun _ _ => nofun) fun m hm => ?_
  refine Ends.bind (Ends.getOr fun _ _ => nofun) fun event _ => ?_
  refine Ends.bind (Ends.require fun _ _ => nofun) fun _ quarantined => ?_
  refine Ends.bind (Ends.require fun _ _ => nofun) fun _ _ => ?_
  refine Ends.bind requireEffectDeliveryAllowed_ends fun _ _ => ?_
  refine Ends.bind (Ends.require fun _ _ => nofun) fun _ _ => ?_
  have mem := (Table.get?_eq_some.mp hm).1
  refine Ends.bind createReceipt_ends fun receipted ⟨messages, attempts, receipts⟩ => ?_
  have still : m ∈ receipted.messages := by rwa [messages]
  have grows : m.maxAttempts < m.maxAttempts + additionalAttempts.toNat := by omega
  -- The receipt just written is what the trigger asks for.
  have evidence : ∃ receipt ∈ receipted.receipts.rows, receipt.outboxMessageId = m.id ∧
      receipt.organizationId = m.organizationId ∧ receipt.previousMaxAttempts = m.maxAttempts ∧
      receipt.newMaxAttempts = m.maxAttempts + additionalAttempts.toNat ∧ receipt.replayCount = m.replayCount + 1 :=
    ⟨_, receipts ▸ List.mem_append_right _ (List.mem_singleton_self _), rfl, rfl, rfl, rfl, rfl⟩
  refine Ends.bind (saveMessage_ends still rfl
    (guardOutboxMessage_replay ⟨rfl, rfl, rfl, rfl⟩ quarantined rfl rfl grows rfl evidence))
    fun saved ⟨messages', attempts', receipts', clean⟩ => Ends.pure ?_
  refine ⟨m, _, none, some _, mem, .replay quarantined ?_ rfl, clean, messages ▸ messages', ?_, receipts' ▸ receipts⟩
  · show 1 ≤ additionalAttempts.toNat
    omega
  · simp [attempts', attempts]

theorem createMessage_ends {m : OutboxMessage} (due : m.status = .pending) (unattempted : m.attemptCount = 0) :
    Ends (outbox.Publishes · m) EffectError.NotGuard (outbox.createMessage m) := by
  unfold Outbox.createMessage
  refine Ends.bind (Ends.getOr fun _ _ => nofun) fun event _ => ?_
  refine Ends.bind fullClean_ends fun _ clean => ?_
  rw [List.all_append, Bool.and_eq_true] at clean
  obtain ⟨clean, rest⟩ := clean
  simp only [List.all_cons, Bool.and_eq_true, decide_eq_true_eq] at rest
  refine Ends.bind (Ends.require fun other => absurd rest.1 other) fun _ _ => ?_
  refine Ends.bind (Ends.getOr fun _ _ => nofun) fun messages h => ?_
  exact Ends.pure ⟨h, rfl, rfl, clean, due, unattempted⟩

theorem createEvent_ends {event : DomainEvent} :
    Ends (fun recorded => recorded.messages = outbox.messages ∧ recorded.attempts = outbox.attempts ∧
      recorded.receipts = outbox.receipts) EffectError.NotGuard (outbox.createEvent event) := by
  unfold Outbox.createEvent
  refine Ends.bind fullClean_ends fun _ _ => ?_
  refine Ends.bind (Ends.getOr fun _ _ => nofun) fun _ _ => ?_
  exact Ends.pure ⟨rfl, rfl, rfl⟩

theorem validateEventPayload_ends {surroundings : Surroundings} {event : DomainEvent} :
    Ends (fun _ => True) EffectError.NotGuard (surroundings.validateEventPayload event) := by
  unfold Surroundings.validateEventPayload
  split
  · exact fun _ => nofun
  · trivial

theorem validateEffectAttemptBudget_ends {value : Int} :
    Ends (fun _ => True) EffectError.NotGuard (validateEffectAttemptBudget value) := by
  unfold validateEffectAttemptBudget
  refine Ends.bind (Ends.require fun _ _ => nofun) fun _ _ => ?_
  exact Ends.pure trivial

theorem publishDomainEvent_ends {surroundings : Surroundings} {record : DomainEvent}
    {messageId : Uuid} {destination workloadPool : String} {maxAttempts now : Int} :
    Ends (fun p => outbox.Publishes p.1 p.2) EffectError.NotGuard
      (outbox.publishDomainEvent surroundings record messageId destination workloadPool maxAttempts now) := by
  unfold Outbox.publishDomainEvent
  refine Ends.bind validateEffectAttemptBudget_ends fun _ _ => ?_
  refine Ends.bind validateEventPayload_ends fun _ _ => ?_
  refine Ends.bind requireEffectDeliveryAllowed_ends fun _ _ => ?_
  refine Ends.bind createEvent_ends fun recorded ⟨messages, attempts, receipts⟩ => ?_
  refine Ends.bind (createMessage_ends rfl rfl) fun published h => Ends.pure ?_
  exact ⟨messages ▸ h.messages, h.attempts.trans attempts, h.receipts.trans receipts, h.clean, rfl, rfl⟩

theorem enqueueEventDelivery_ends {surroundings : Surroundings} {eventId messageId : Uuid}
    {destination workloadPool : String} {maxAttempts now : Int} :
    Ends (fun p => outbox.Publishes p.1 p.2) EffectError.NotGuard
      (outbox.enqueueEventDelivery surroundings eventId messageId destination workloadPool maxAttempts now) := by
  unfold Outbox.enqueueEventDelivery
  refine Ends.bind validateEffectAttemptBudget_ends fun _ _ => ?_
  refine Ends.bind (Ends.getOr fun _ _ => nofun) fun event _ => ?_
  refine Ends.bind requireEffectDeliveryAllowed_ends fun _ _ => ?_
  exact Ends.bind (createMessage_ends rfl rfl) fun published h => Ends.pure h

theorem claimNextEffect_ends {organizationId : Uuid} {workloadPool : String} {leaseDuration claimedAt : Int}
    {leaseToken : Uuid} (clean : ∀ m ∈ outbox.messages, m.checks.all (·.2)) :
    Ends (fun p => outbox.Moved p.1 ∧ ∀ claim ∈ p.2, Claims outbox p.1 claim) EffectError.NotGuard
      (outbox.claimNextEffect organizationId workloadPool leaseDuration claimedAt leaseToken) := by
  unfold Outbox.claimNextEffect
  refine Ends.bind (Ends.require fun _ _ => nofun) fun _ ⟨lease, _⟩ => ?_
  split
  · refine Ends.bind quarantineExhausted_ends fun quarantined moved => Ends.pure ⟨moved, ?_⟩
    exact nofun
  · rename_i message first
    have candidate := (sortBy_perm _ _).mem_iff.mp (List.mem_of_head? first)
    refine Ends.bind (claimMessage_ends candidate lease clean) fun p ⟨moves, claims⟩ => Ends.pure ?_
    refine ⟨.single ⟨message, moves⟩, ?_⟩
    rintro _ ⟨⟩
    exact claims

end

end Maru.Effects

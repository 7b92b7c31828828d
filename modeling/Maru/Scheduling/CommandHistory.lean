import Maru.Scheduling.Candidates

/-!
# Retries and control versions

What any sequence of Scheduling commands keeps, whatever the commands read and write and
whatever the other owners answer (`commandMachine_history`): a retry key writes once, a
repeat that is still authorized is answered by the receipt or refused as another request,
a failure changes nothing, and the control versions of an edition count its writes.
-/

namespace Maru.Scheduling

variable {σ : Type} {lib : Primitives}

/-! ## One step -/

theorem Receipts.create_eq_ok {receipts receipts' : Receipts} {receipt : SchedulingCommandReceipt}
    (h : receipts.create receipt = .ok receipts') : receipts'.rows = receipts.rows ++ [receipt] := by
  unfold Receipts.create at h
  split at h
  · cases h
  · split at h
    · cases h
    · split at h
      · cases h
      · obtain rfl := Except.ok.inj h
        rfl

theorem Store.control?_eq_some {store : Store σ} {organization edition : Uuid}
    {control : SchedulingEditionControl} : store.control? organization edition = some control ↔
      control ∈ store.controls ∧ control.editionId = edition ∧ control.organizationId = organization := by
  rw [Store.control?, Option.filter_eq_some_iff, Table.get?_eq_some, decide_eq_true_iff, and_assoc]

/-- The version of one edition advances by one, that of the others stays. -/
theorem controlVersion_advance {store : Store σ} {organization edition : Uuid}
    {controls : Table SchedulingEditionControl.editionId} (h : store.advanceControl organization edition = .ok controls)
    (receipts : Receipts) (rows : σ) (organization' edition' : Uuid) :
    ({ controls, receipts, rows } : Store σ).controlVersion organization' edition' =
      if organization' = organization ∧ edition' = edition then store.controlVersion organization edition + 1
      else store.controlVersion organization' edition' := by
  unfold Store.advanceControl at h
  split at h
  · rename_i none
    have inserted := getOr_eq_ok.mp h
    simp only [Store.controlVersion, none, Option.map_none, Option.getD_none]
    unfold Store.control?
    dsimp only
    rw [Table.get?_insert? inserted]
    by_cases he : edition' = edition
    · subst he
      by_cases ho : organization' = organization
      · simp [ho, Option.filter_some]
      · have absent : store.controls.get? edition' = .none := by
          rw [Table.get?_eq_none]
          exact (Table.insert?_eq_some.mp inserted).1
        simp [ho, Ne.symm ho, absent, Option.filter_some]
    · simp [he]
  · rename_i control found
    obtain ⟨hmem, rfl, rfl⟩ := Store.control?_eq_some.mp found
    obtain rfl := Except.ok.inj h
    have hget : store.controls.get? control.editionId = some control := Table.get?_eq_some.mpr ⟨hmem, rfl⟩
    unfold Store.controlVersion Store.control?
    dsimp only
    rw [Table.get?_save]
    by_cases he : edition' = control.editionId
    · subst he
      by_cases ho : organization' = control.organizationId
      · simp [hget, ho, Option.filter_some]
      · simp [hget, ho, Ne.symm ho, Option.filter_some]
    · cases hget' : store.controls.get? edition' with
      | none => simp [he]
      | some other =>
        have key := (Table.get?_eq_some.mp hget').2
        simp [he, key]

theorem request_normalized_retryKey {request request' : SchedulingCommandRequest}
    (h : request.normalized lib = .ok request') : request'.retryKey = request.retryKey := by
  simp only [SchedulingCommandRequest.normalized, bind_eq_ok, pure_eq_ok] at h
  obtain ⟨_, _, _, _, rfl⟩ := h
  rfl

theorem request_normalized_scope {request request' : SchedulingCommandRequest}
    (h : request.normalized lib = .ok request') :
    request'.organizationId = request.organizationId ∧ request'.editionId = request.editionId := by
  simp only [SchedulingCommandRequest.normalized, bind_eq_ok, pure_eq_ok] at h
  obtain ⟨_, _, _, _, rfl⟩ := h
  exact ⟨rfl, rfl⟩

theorem admitCommand_retryKey {world : World} {command : Command σ} {request : SchedulingCommandRequest}
    {admitted : Admitted command.Intent} (h : admitCommand lib world command request = .ok admitted) :
    admitted.request.retryKey = request.retryKey := by
  simp only [admitCommand, bind_eq_ok, pure_eq_ok] at h
  obtain ⟨_, hr, _, _, _, _, _, _, _, _, _, _, rfl⟩ := h
  exact request_normalized_retryKey hr

/-- What a performed write leaves: a receipt of the request with the next control version. -/
structure Performed (store : Store σ) (request : SchedulingCommandRequest) (digest : String)
    (store' : Store σ) (receipt : SchedulingCommandReceipt) : Prop where
  retryKey : receipt.retryKey = request.retryKey
  requestDigest : receipt.requestDigest = digest
  controlVersion : receipt.controlVersion = store.controlVersion request.organizationId request.editionId + 1
  receipts : store'.receipts.rows = store.receipts.rows ++ [receipt]
  controls : ∀ organization edition, store'.controlVersion organization edition =
    if organization = request.organizationId ∧ edition = request.editionId then
      store.controlVersion request.organizationId request.editionId + 1
    else store.controlVersion organization edition

theorem perform_eq_ok {world : World} {command : Command σ} {admitted : Admitted command.Intent}
    {receiptId : Uuid} {store store' : Store σ} {receipt : SchedulingCommandReceipt}
    (h : perform world command admitted receiptId store = .ok (store', receipt)) :
    Performed store admitted.request admitted.digest store' receipt := by
  simp only [perform, bind_eq_ok, pure_eq_ok, Prod.mk.injEq] at h
  obtain ⟨_, _, ⟨_, _⟩, _, _, _, _, _, _, _, controls, hc, ⟨_, _, _⟩, _, _, _, receipts, hr, rfl, rfl⟩ := h
  exact ⟨rfl, rfl, rfl, Receipts.create_eq_ok hr, controlVersion_advance hc _ _⟩

/-- A step answers from the receipt of its key and changes nothing, or performs its write. -/
theorem execute_eq_ok {world : World} {command : Command σ} {request : SchedulingCommandRequest}
    {receiptId : Uuid} {store store' : Store σ} {answer : Answer}
    (h : execute lib world command request receiptId store = .ok (store', answer)) :
    ∃ admitted, admitCommand lib world command request = .ok admitted ∧
      ((store.receipt? request.retryKey = some answer.receipt ∧ answer.replayed = true ∧ store' = store ∧
          answer.receipt.requestDigest = admitted.digest) ∨
        (store.receipt? request.retryKey = none ∧ answer.replayed = false ∧
          Performed store admitted.request admitted.digest store' answer.receipt)) := by
  simp only [execute, bind_eq_ok] at h
  obtain ⟨admitted, ha, h⟩ := h
  refine ⟨admitted, ha, ?_⟩
  rw [admitCommand_retryKey ha] at h
  cases found : store.receipt? request.retryKey with
  | some receipt =>
    simp only [found, bind_eq_ok, pure_eq_ok, Prod.mk.injEq] at h
    obtain ⟨_, hreplay, rfl, rfl⟩ := h
    simp only [replay, bind_eq_ok, require_eq_ok] at hreplay
    obtain ⟨_, digest, _⟩ := hreplay
    exact .inl ⟨rfl, rfl, rfl, digest⟩
  | none =>
    simp only [found, bind_eq_ok, pure_eq_ok, Prod.mk.injEq] at h
    obtain ⟨⟨_, _⟩, hp, rfl, rfl⟩ := h
    exact .inr ⟨rfl, rfl, perform_eq_ok hp⟩

/-- Everything that a command read and wrote when its step wrote: `kept` is its
request, `value` its intent. -/
structure Wrote (lib : Primitives) (world : World) (command : Command σ)
    (request : SchedulingCommandRequest) (receiptId : Uuid)
    (store store' : Store σ) (receipt : SchedulingCommandReceipt) (kept : SchedulingCommandRequest)
    (value : command.Intent) (rows : σ) (sources : command.Prepared) : Prop where
  normalized : request.normalized lib = .ok kept
  intent : command.normalize = .ok value
  admitted : ∃ scope, world.authorize .scope command.capability = some scope ∧ scope.acceptsWrites = true
  prepared : command.prepare value store = .ok (rows, sources)
  controls : store.advanceControl kept.organizationId kept.editionId = .ok store'.controls
  written : command.write ⟨kept, store.controlVersion kept.organizationId kept.editionId, receiptId⟩ value
    sources ⟨store'.controls, store.receipts, rows⟩ = .ok (store'.rows, receipt.resultObjectId, receipt.resultingVersion)
  receipts : store.receipts.create receipt = .ok store'.receipts
  receipt : receipt.id = receiptId ∧ receipt.organizationId = kept.organizationId ∧
    receipt.editionId = kept.editionId ∧ receipt.actorId = kept.actorId ∧ receipt.operation = command.operation ∧
    receipt.requestDigest = requestDigest lib command kept value ∧
    receipt.controlVersion = store.controlVersion kept.organizationId kept.editionId + 1

theorem execute_wrote {world : World} {command : Command σ} {request : SchedulingCommandRequest}
    {receiptId : Uuid} {store store' : Store σ} {answer : Answer}
    (h : execute lib world command request receiptId store = .ok (store', answer)) :
    (answer.replayed = true ∧ store' = store) ∨ (answer.replayed = false ∧ ∃ kept value rows sources,
      Wrote lib world command request receiptId store store' answer.receipt kept value rows sources) := by
  simp only [execute, bind_eq_ok] at h
  obtain ⟨admitted, ha, h⟩ := h
  cases found : store.receipt? admitted.request.retryKey with
  | some receipt =>
    simp only [found, bind_eq_ok, pure_eq_ok, Prod.mk.injEq] at h
    obtain ⟨_, -, rfl, rfl⟩ := h
    exact .inl ⟨rfl, rfl⟩
  | none =>
    simp only [found, bind_eq_ok, pure_eq_ok, Prod.mk.injEq] at h
    obtain ⟨⟨_, _⟩, performed, rfl, rfl⟩ := h
    simp only [perform, bind_eq_ok, require_eq_ok, pure_eq_ok, Prod.mk.injEq] at performed
    obtain ⟨_, accepts, ⟨rows, prepared⟩, hprepare, _, -, _, -, _, -, controls, advance, ⟨_, _, _⟩,
      hwrite, _, -, receipts, create, rfl, rfl⟩ := performed
    simp only [admitCommand, authorize, bind_eq_ok, getOr_eq_ok, pure_eq_ok] at ha
    obtain ⟨normalized, hn, _, -, _, -, intent, hi, _, -, scope, authorized, rfl⟩ := ha
    exact .inr ⟨rfl, normalized, intent, rows, prepared, hn, hi, ⟨scope, authorized, accepts⟩,
      hprepare, advance, hwrite, create, rfl, rfl, rfl, rfl, rfl, rfl, rfl⟩

/-! ## Retries -/

theorem retryKey_of_receipt? {store : Store σ} {key : RetryKey} {receipt : SchedulingCommandReceipt}
    (h : store.receipt? key = some receipt) : receipt.retryKey = key := by
  simpa using List.find?_some h

theorem Performed.receipt? {store store' : Store σ} {request : SchedulingCommandRequest} {digest : String}
    {receipt : SchedulingCommandReceipt} (h : Performed store request digest store' receipt) (key : RetryKey) :
    store'.receipt? key = (store.receipt? key).or (if receipt.retryKey = key then some receipt else none) := by
  rw [Store.receipt?, h.receipts, List.find?_append, List.find?_singleton]
  simp only [decide_eq_true_eq]
  rfl

/-- The receipt that answers now answers its key from now on. -/
theorem receipt?_of_execute {world : World} {command : Command σ} {request : SchedulingCommandRequest} {receiptId : Uuid}
    {store store' : Store σ} {answer : Answer}
    (h : execute lib world command request receiptId store = .ok (store', answer)) :
    answer.receipt.retryKey = request.retryKey ∧ store'.receipt? request.retryKey = some answer.receipt := by
  obtain ⟨admitted, ha, ⟨found, _, rfl, _⟩ | ⟨absent, _, performed⟩⟩ := execute_eq_ok h
  · exact ⟨retryKey_of_receipt? found, found⟩
  · have key : answer.receipt.retryKey = request.retryKey := performed.retryKey.trans (admitCommand_retryKey ha)
    refine ⟨key, ?_⟩
    rw [performed.receipt?, absent, if_pos key]
    rfl

theorem receipt?_kept {world : World} {command : Command σ} {request : SchedulingCommandRequest}
    {receiptId : Uuid} {store store' : Store σ} {answer : Answer}
    (h : execute lib world command request receiptId store = .ok (store', answer)) {key : RetryKey}
    {receipt : SchedulingCommandReceipt} (found : store.receipt? key = some receipt) :
    store'.receipt? key = some receipt := by
  obtain ⟨_, _, ⟨_, _, rfl, _⟩ | ⟨_, _, performed⟩⟩ := execute_eq_ok h
  · exact found
  · rw [performed.receipt?, found]
    rfl

/-- Of the answers to one key, only the first is of a write; the others repeat it. -/
theorem answers_once (store : Store σ) (executions : List (Execution σ)) :
    ((commandMachine lib).answers store executions).Pairwise fun first later =>
      first.receipt.retryKey = later.receipt.retryKey → later.replayed = true ∧ later.receipt = first.receipt := by
  refine Machine.answers_pairwise (K := fun store answer =>
    store.receipt? answer.receipt.retryKey = some answer.receipt) ?_ ?_ store executions
  · intro store e store' first later found h
    refine ⟨receipt?_kept h found, fun same => ?_⟩
    rw [same, (receipt?_of_execute h).1] at found
    obtain ⟨_, _, ⟨again, replayed, _⟩ | ⟨absent, _⟩⟩ := execute_eq_ok h
    · exact ⟨replayed, Option.some.inj (again.symm.trans found)⟩
    · rw [absent] at found
      cases found
  · intro store e store' answer h
    have ⟨key, found⟩ := receipt?_of_execute h
    rwa [← key] at found

/-- The checks of a repeat that has the receipt's digest. -/
def Execution.Revalidated (e : Execution σ) (admitted : Admitted e.command.Intent)
    (receipt : SchedulingCommandReceipt) (store : Store σ) : Prop :=
  (∀ revalidate, e.command.revalidateReplay = some revalidate →
    revalidate admitted.intent receipt store = .ok ()) ∧ (e.world.authorize .replay e.command.capability).isSome

section

variable {store : Store σ} {e : Execution σ} {receipt : SchedulingCommandReceipt}
  (found : store.receipt? e.request.retryKey = some receipt)

include found

/-- A repeat changes nothing. -/
theorem step_repeat : (commandMachine lib).step store e = store := by
  rcases (commandMachine lib).step_cases store e with h | ⟨answer, h⟩
  · exact h
  · obtain ⟨_, _, ⟨_, _, same, _⟩ | ⟨absent, _⟩⟩ := execute_eq_ok h
    · exact same
    · rw [absent] at found
      cases found

variable {admitted : Admitted e.command.Intent} (admits : admitCommand lib e.world e.command e.request = .ok admitted)

include admits

/-- Another request under a key that has a receipt is refused. -/
theorem execute_conflict (other : admitted.digest ≠ receipt.requestDigest) :
    (commandMachine lib).exec store e = .error .idempotencyConflict := by
  have conflict : replay e.world e.command admitted receipt store = .error .idempotencyConflict := by
    rw [replay, require, if_neg (Ne.symm other)]
    rfl
  show execute lib e.world e.command e.request e.receiptId store = _
  rw [execute, admits]
  simp only [bind, Except.bind, admitCommand_retryKey admits, found, conflict]

/-- The same request is answered by its receipt. -/
theorem execute_repeat (same : admitted.digest = receipt.requestDigest) (valid : e.Revalidated admitted receipt store) :
    (commandMachine lib).exec store e = .ok (store, ⟨receipt, true⟩) := by
  obtain ⟨scope, hscope⟩ := Option.isSome_iff_exists.mp valid.2
  have answered : replay e.world e.command admitted receipt store = .ok () := by
    rw [replay, require, if_pos same.symm, authorize, hscope]
    cases hr : e.command.revalidateReplay with
    | none => rfl
    | some revalidate =>
      have := valid.1 revalidate hr
      simp only [bind, Except.bind, this, getOr]
      rfl
  show execute lib e.world e.command e.request e.receiptId store = _
  rw [execute, admits]
  simp only [bind, Except.bind, admitCommand_retryKey admits, found, answered]
  rfl

end

/-! ## Control versions -/

/-- The answers that wrote in one edition. -/
def writtenIn (organization edition : Uuid) (answers : List Answer) : List Answer :=
  answers.filter fun answer =>
    answer.replayed = false ∧ answer.receipt.organizationId = organization ∧ answer.receipt.editionId = edition

/-- The writes of a run have the control versions from the one the run found, in their order. -/
theorem run_controlVersions (organization edition : Uuid) (store : Store σ) (executions : List (Execution σ)) :
    ∃ n, ((commandMachine lib).run store executions).controlVersion organization edition =
        store.controlVersion organization edition + n ∧
      (writtenIn organization edition ((commandMachine lib).answers store executions)).map (·.receipt.controlVersion) =
        List.range' (store.controlVersion organization edition + 1) n := by
  induction executions generalizing store with
  | nil => exact ⟨0, rfl, rfl⟩
  | cons e executions ih =>
    cases h : (commandMachine lib).exec store e with
    | error error =>
      rw [Machine.answers_of_error h, Machine.run_cons, Machine.step_of_error h]
      exact ih store
    | ok p =>
      obtain ⟨store', answer⟩ := p
      rw [Machine.answers_of_ok h, Machine.run_cons, Machine.step_of_ok h]
      obtain ⟨n, hn, hversions⟩ := ih store'
      obtain ⟨admitted, ha, ⟨_, replayed, rfl, _⟩ | ⟨_, written, performed⟩⟩ := execute_eq_ok h
      · refine ⟨n, hn, ?_⟩
        rw [writtenIn, List.filter_cons_of_neg (by simp [replayed])]
        exact hversions
      · have key := performed.retryKey
        simp only [SchedulingCommandReceipt.retryKey, SchedulingCommandRequest.retryKey, RetryKey.mk.injEq] at key
        obtain ⟨horg, hed, _⟩ := key
        rw [performed.controls] at hn hversions
        by_cases mine : organization = admitted.request.organizationId ∧ edition = admitted.request.editionId
        · obtain ⟨rfl, rfl⟩ := mine
          simp only [and_self, if_true] at hn hversions
          refine ⟨n + 1, by omega, ?_⟩
          rw [writtenIn, List.filter_cons_of_pos (by simp [written, horg, hed]), List.map_cons,
            performed.controlVersion, List.range'_succ]
          exact congrArg _ hversions
        · simp only [mine, if_false] at hn hversions
          refine ⟨n, hn, ?_⟩
          have other : ¬ (answer.receipt.organizationId = organization ∧ answer.receipt.editionId = edition) := by
            rw [horg, hed]
            exact fun h => mine ⟨h.1.symm, h.2.symm⟩
          rw [writtenIn, List.filter_cons_of_neg (by simpa [written] using other)]
          exact hversions

/-- The answers of a run are the answers of its receipts. -/
theorem receipt?_of_answer (store : Store σ) (executions : List (Execution σ)) :
    ∀ answer ∈ (commandMachine lib).answers store executions,
      ((commandMachine lib).run store executions).receipt? answer.receipt.retryKey = some answer.receipt := by
  induction executions generalizing store with
  | nil => exact fun answer h => nomatch h
  | cons e executions ih =>
    cases h : (commandMachine lib).exec store e with
    | error error =>
      rw [Machine.answers_of_error h, Machine.run_cons, Machine.step_of_error h]
      exact ih store
    | ok p =>
      obtain ⟨store', answer⟩ := p
      rw [Machine.answers_of_ok h, Machine.run_cons, Machine.step_of_ok h]
      rintro q (_ | ⟨_, hq⟩)
      · have ⟨key, found⟩ := receipt?_of_execute h
        rw [← key] at found
        exact Machine.run_invariant (I := fun s : Store σ => s.receipt? answer.receipt.retryKey = some answer.receipt)
          (fun _ _ _ _ kept hx => receipt?_kept hx kept) found executions
      · exact ih store' q hq

/-- After every run: a retry key wrote once, a repeat changes nothing and, as far as its actor
may still do it, is answered by the first receipt or refused as another request, a failure
changes nothing, and the writes of an edition are numbered from one. -/
theorem commandMachine_history (lib : Primitives) (rows : σ) (executions : List (Execution σ)) :
    let machine := commandMachine lib
    let store := machine.run (Store.empty rows) executions
    let answers := machine.answers (Store.empty rows) executions
    (answers.Pairwise fun first later =>
      first.receipt.retryKey = later.receipt.retryKey → later.replayed = true ∧ later.receipt = first.receipt) ∧
    (∀ e : Execution σ, ∀ answer ∈ answers, answer.receipt.retryKey = e.request.retryKey →
      machine.step store e = store ∧ ∀ admitted, admitCommand lib e.world e.command e.request = .ok admitted →
        (admitted.digest ≠ answer.receipt.requestDigest → machine.exec store e = .error .idempotencyConflict) ∧
        (admitted.digest = answer.receipt.requestDigest → e.Revalidated admitted answer.receipt store →
          machine.exec store e = .ok (store, ⟨answer.receipt, true⟩))) ∧
    (∀ e error, machine.exec store e = .error error → machine.step store e = store) ∧
    ∀ organization edition, (writtenIn organization edition answers).map
      (·.receipt.controlVersion) = List.range' 1 (store.controlVersion organization edition) := by
  intro machine store answers
  refine ⟨answers_once _ _, fun e answer hmem key => ?_, fun e error he => Machine.step_of_error he,
    fun organization edition => ?_⟩
  · have found : store.receipt? e.request.retryKey = some answer.receipt :=
      key ▸ receipt?_of_answer (Store.empty rows) executions answer hmem
    exact ⟨step_repeat found, fun admitted admits =>
      ⟨execute_conflict found admits, execute_repeat found admits⟩⟩
  · have start : (Store.empty rows).controlVersion organization edition = 0 := rfl
    obtain ⟨n, final, written⟩ := run_controlVersions organization edition (Store.empty rows) executions
    rw [start, Nat.zero_add] at final
    rw [start] at written
    rw [written, final]

/-! A repeat of a recorded request by an actor whose authority was revoked in between: it is
denied, not answered from the receipt. -/

/-- Authorized everywhere, or nowhere. -/
def fairWorld (granted : Bool) : World where
  editionKnown := true
  authorize _ _ := if granted then some ⟨true⟩ else none

/-- The SHA-256 of `{"members":[]}`, and of the request below. -/
def fairPrimitives : Primitives where
  nfc := id
  isControl c := c < ' '
  sha256 bytes :=
    if bytes.size = 14 then "6375508cf89fca1184992a7df1925296aa53eca766c56d31f66bb87e3b778620"
    else "ae2580d075b7e127456dee7be82d208e3dac9af860889e74a60be313e42343fc"

def fairCreate (granted : Bool) : Execution Planning where
  world := fairWorld granted
  command := createSchedulingCandidate fairPrimitives ⟨101, 102, 103⟩ "Saturday" 0
  request := ⟨1, 2, 3, 4, "First draft", "scheduling"⟩
  receiptId := 104

def fairPlanning : Planning := ⟨⟨[], [], [], []⟩, ∅, ∅, ∅, ∅, []⟩

/-- The repeat has the digest of the receipt that is kept for its key, and is denied. -/
theorem fairCreate_revoked :
    let machine := commandMachine fairPrimitives
    let store := machine.run (Store.empty fairPlanning) [fairCreate true]
    (store.receipt? (fairCreate false).request.retryKey).map (·.requestDigest) =
        some (requestDigest fairPrimitives (fairCreate false).command (fairCreate false).request "Saturday") ∧
      Except.failure? (machine.exec store (fairCreate false)) = some .authorizationDenied := by
  decide +kernel

end Maru.Scheduling

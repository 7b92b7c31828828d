import Maru.Announcements.History

/-!
# The law of announcements

What holds in every state that a run of commands leads to (`Lawful`); what no later command changes
of a cancelled announcement (`Cancelled`), or of the drafts of an edition that is not open
(`Store.drafts`); and what a command that is sent again is answered (`replays`).
-/

namespace Maru.Announcements

/-! ## In every state -/

/-- Each report replaces the one before it, and the first none. -/
def Linear (reports : List AnnouncementPublicationReport) : Prop :=
  ∀ before report after, reports = before ++ report :: after → report.supersedesReportId = before.getLast?.map (·.id)

structure Lawful (store : Store) : Prop where
  sequence : ∀ r ∈ store.receipts, ∃ c ∈ store.controls, c.editionId = r.editionId
  counted : ∀ c ∈ store.controls, c.sequence = (store.receiptsIn c.editionId).length
  version : ∀ a ∈ store.announcements, a.version = (store.receiptsOf a.id).length ∧ a.version ≤ maxHistory
  numbered : ∀ a ∈ store.announcements,
    (store.revisionsOf a.id).map (·.number) = List.range' 1 (store.revisionsOf a.id).length
  current : ∀ a ∈ store.announcements, a.currentRevisionId = (store.revisionsOf a.id).getLast?.map (·.id)
  approved : ∀ a ∈ store.announcements, ∀ id, a.approvedRevisionId = some id →
    ∃ revision ∈ store.revisionsOf a.id, revision.id = id ∧
      ∃ review ∈ store.reviews, review.revisionId = id ∧ review.decision = .approve ∧
        ∀ row ∈ store.revisionsOf a.id, row.roundId = revision.roundId → row.actorId ≠ review.actorId
  reviewed : ∀ r ∈ store.reviews, ∀ r' ∈ store.reviews, r.revisionId = r'.revisionId → r = r'
  reported : ∀ r ∈ store.reports, store.ApprovedVariant r.variantId
  chained : ∀ id, Linear (store.reportsOf id)

theorem Sound.lawful {store : Store} (sound : Sound store) : Lawful store where
  sequence := sound.controlled
  counted := fun c hc => (sound.sequence c hc).symm
  version := fun a ha => ⟨(sound.version a ha).1.symm, (sound.version a ha).2⟩
  numbered := fun a _ => (EventLog.Sound.numbers (n := AnnouncementRevision.number) (c := AnnouncementRevision.number)
    (fun _ _ => rfl) (fun _ _ follows => follows) (sound.revisions a.id)).1
  current := fun a ha => (sound.current a ha).symm
  approved := by
    intro a ha id named
    obtain ⟨revision, review, approval⟩ := sound.approved a ha (by simp [named])
    obtain ⟨written, of, is⟩ := approval.written
    obtain rfl := Option.some.inj (is.symm.trans named)
    refine ⟨revision, mem_revisionsOf.mpr ⟨written, of⟩, rfl, review, approval.approves.1,
      approval.approves.2.1, approval.approves.2.2, fun row mem round => ?_⟩
    obtain ⟨written', of'⟩ := mem_revisionsOf.mp mem
    exact approval.independent row written' of' round
  reviewed := fun _ mem _ mem' same => Table.eq_of_key mem mem' same
  reported := sound.reported
  chained := by
    intro id before report after split
    rw [← EventLog.replay_last]
    exact sound.reports id before report after split

/-! ## A cancelled announcement -/

/-- The reviews of an announcement's revisions. -/
def Store.reviewsOf (store : Store) (announcementId : Uuid) : List AnnouncementReview :=
  store.reviews.rows.filter fun review => (store.revisionsOf announcementId).any fun revision =>
    revision.id = review.revisionId

/-- The announcement is cancelled, with these revisions and reviews. -/
def Cancelled (item : Announcement) (revisions : List AnnouncementRevision)
    (reviews : List AnnouncementReview) (store : Store) : Prop :=
  (∃ saved ∈ store.announcements, saved.id = item.id ∧ saved.status = .cancelled ∧
      saved.currentRevisionId = item.currentRevisionId ∧ saved.approvedRevisionId = item.approvedRevisionId) ∧
    store.revisionsOf item.id = revisions ∧ store.reviewsOf item.id = reviews

section

variable {store after : Store} {receipt : AnnouncementCommandReceipt} {opened : Prop} {item saved : Announcement}

/-- Nobody writes on another announcement than the change is about. -/
theorem Revises.elsewhere {revision : AnnouncementRevision} (revises : Revises store after receipt item revision)
    (reviews : after.reviews = store.reviews) {id : Uuid} (other : id ≠ item.id) :
    after.revisionsOf id = store.revisionsOf id ∧ after.reviewsOf id = store.reviewsOf id := by
  have same : after.revisionsOf id = store.revisionsOf id := by
    rw [revisionsOf_insert revises.inserted, revises.of.1, if_neg (Ne.symm other), List.append_nil]
  exact ⟨same, by rw [Store.reviewsOf, same, reviews, Store.reviewsOf]⟩

theorem Reviews.elsewhere {review : AnnouncementReview} (sound : Sound store) (mem : item ∈ store.announcements)
    (reviews : Reviews store after receipt item review) (revisions : after.revisions = store.revisions) {id : Uuid}
    (other : id ≠ item.id) :
    after.revisionsOf id = store.revisionsOf id ∧ after.reviewsOf id = store.reviewsOf id := by
  have same : after.revisionsOf id = store.revisionsOf id := by rw [Store.revisionsOf, revisions, Store.revisionsOf]
  obtain ⟨revision, written, is, reviewed, -⟩ := reviews.current
  have absent : ((store.revisionsOf id).any fun row => row.id = review.revisionId) = false := by
    refine List.any_eq_false.mpr fun row mem' same => other ?_
    obtain ⟨written', of⟩ := mem_revisionsOf.mp mem'
    obtain rfl := Table.eq_of_key written' written ((of_decide_eq_true same).trans reviewed.symm)
    exact of.symm.trans (sound.current_of mem written' is)
  refine ⟨same, ?_⟩
  rw [Store.reviewsOf, same, (Table.insert?_eq_some.mp reviews.inserted).2, List.filter_append,
    List.filter_singleton, absent, Store.reviewsOf]
  exact List.append_nil _

theorem Change.cancelled (sound : Sound store) (change : Change opened store after receipt)
    {revisions : List AnnouncementRevision} {reviews : List AnnouncementReview}
    (cancelled : Cancelled item revisions reviews store) : Cancelled item revisions reviews after := by
  obtain ⟨⟨row, mem, id, status, named⟩, rfl, rfl⟩ := cancelled
  have unwritten : after.revisions = store.revisions → after.reviews = store.reviews →
      after.revisionsOf item.id = store.revisionsOf item.id ∧ after.reviewsOf item.id = store.reviewsOf item.id := by
    intro revisions reviews
    simp only [Store.reviewsOf, Store.revisionsOf, revisions, reviews, and_self]
  cases change with
  | control of same => exact ⟨⟨row, same.1 ▸ mem, id, status, named⟩, unwritten same.2.1 same.2.2.2.1⟩
  | created _ _ inserted _ _ revises same =>
    have other := (Table.insert?_eq_some.mp inserted).1 row mem
    exact ⟨⟨row, (Table.mem_insert? inserted).mpr (.inl mem), id, status, named⟩, revises.elsewhere same.1 (id ▸ other)⟩
  | revised _ advances active _ revises same =>
    rcases advances.stays mem with ⟨stays, other⟩ | ⟨rfl, -⟩
    · exact ⟨⟨row, stays, id, status, named⟩, revises.elsewhere same.1 (id ▸ other)⟩
    · exact absurd status active
  | moved advances active _ same =>
    rcases advances.stays mem with ⟨stays, -⟩ | ⟨rfl, -⟩
    · exact ⟨⟨row, stays, id, status, named⟩, unwritten same.1 same.2.2.1⟩
    · exact absurd status active
  | reviewed _ advances _ reviews same =>
    rcases advances.stays mem with ⟨stays, other⟩ | ⟨rfl, -⟩
    · exact ⟨⟨row, stays, id, status, named⟩, reviews.elsewhere sound advances.mem same.1 (id ▸ other)⟩
    · rw [reviews.status] at status
      cases status
  | reported advances current _ same =>
    rcases advances.stays mem with ⟨stays, -⟩ | ⟨rfl, stays⟩
    · exact ⟨⟨row, stays, id, status, named⟩, unwritten same.1 same.2.2⟩
    · exact ⟨⟨_, stays, advances.same.1.trans id, current.2.2.trans status, current.1.trans named.1,
        current.2.1.trans named.2⟩, unwritten same.1 same.2.2⟩

end

/-! ## An edition that is not open -/

/-- The announcements of an edition with the revisions that they name, its
revisions and its reviews. -/
def Store.drafts (store : Store) (editionId : Uuid) :
    List (Uuid × Option Uuid × Option Uuid) × List AnnouncementRevision × List AnnouncementReview :=
  ((store.announcements.rows.filter fun item => item.editionId = editionId).map fun item =>
      (item.id, item.currentRevisionId, item.approvedRevisionId),
    store.revisions.rows.filter fun revision => revision.editionId = editionId,
    store.reviews.rows.filter fun review => review.editionId = editionId)

section

variable {store after : Store} {receipt : AnnouncementCommandReceipt} {opened : Prop}
  {item saved : Announcement} {edition : Uuid}

theorem filter_insert {ρ κ : Type} [DecidableEq κ] {key : ρ → κ} {t t' : Table key} {r : ρ} {p : ρ → Bool}
    (inserted : t.insert? r = some t') (other : p r = false) : t'.rows.filter p = t.rows.filter p := by
  rw [(Table.insert?_eq_some.mp inserted).2, List.filter_append, List.filter_singleton, other]
  exact List.append_nil _

/-- The announcements of an edition, where the one that is saved is of another, or
names the same revisions. -/
theorem Advances.drafts (advances : Advances store after receipt item saved)
    (same : item.editionId = edition → saved.currentRevisionId = item.currentRevisionId ∧
      saved.approvedRevisionId = item.approvedRevisionId) : (after.drafts edition).1 = (store.drafts edition).1 := by
  unfold Store.drafts
  rw [advances.saved]
  refine Table.filter_map_save advances.mem advances.same.1.symm (by rw [advances.same.2]) fun of => ?_
  obtain ⟨current, approved⟩ := same (of_decide_eq_true of)
  rw [advances.same.1, current, approved]

theorem Change.drafts (change : Change opened store after receipt) (closed : receipt.editionId = edition → ¬ opened) :
    after.drafts edition = store.drafts edition := by
  have kept : ∀ {announcements revisions reviews}, (after.drafts edition).1 = announcements →
      (after.revisions.rows.filter fun revision => revision.editionId = edition) = revisions →
      (after.reviews.rows.filter fun review => review.editionId = edition) = reviews →
      after.drafts edition = (announcements, revisions, reviews) :=
    fun announcements revisions reviews => Prod.ext announcements (Prod.ext revisions reviews)
  cases change with
  | control of same =>
    obtain ⟨announcements, revisions, -, reviews, -⟩ := same
    simp only [Store.drafts, announcements, revisions, reviews]
  | created opened of inserted _ _ revises same =>
    have other : receipt.editionId ≠ edition := fun e => closed e opened
    refine kept (congrArg _ (filter_insert inserted ?_)) (filter_insert revises.inserted ?_) (by rw [same.1])
    · exact decide_eq_false (of.2 ▸ other)
    · exact decide_eq_false (revises.of.2 ▸ other)
  | revised opened advances _ _ revises same =>
    have other : receipt.editionId ≠ edition := fun e => closed e opened
    refine kept (advances.drafts fun e => absurd (advances.of.2.trans e) other)
      (filter_insert revises.inserted ?_) (by rw [same.1])
    exact decide_eq_false (revises.of.2 ▸ other)
  | moved advances _ current same =>
    exact kept (advances.drafts fun _ => current) (by rw [same.1]) (by rw [same.2.2.1])
  | reviewed opened advances _ reviews same =>
    have other : receipt.editionId ≠ edition := fun e => closed e opened
    refine kept (advances.drafts fun e => absurd (advances.of.2.trans e) other) (by rw [same.1])
      (filter_insert reviews.inserted ?_)
    exact decide_eq_false (reviews.of ▸ other)
  | reported advances current _ same =>
    exact kept (advances.drafts fun _ => ⟨current.1, current.2.1⟩) (by rw [same.1]) (by rw [same.2.2])

theorem Step.drafts {editionId : Uuid} (step : Step opened editionId store after receipt)
    (closed : editionId = edition → ¬ opened) : after.drafts edition = store.drafts edition := by
  obtain ⟨base, locked, -, change, of⟩ := step
  rw [change.drafts (of ▸ closed)]
  rcases locked with rfl | ⟨control, controls, -, -, rfl⟩ <;> rfl

theorem Step.cancelled {editionId : Uuid} (sound : Sound store) (step : Step opened editionId store after receipt)
    {revisions : List AnnouncementRevision} {reviews : List AnnouncementReview}
    (cancelled : Cancelled item revisions reviews store) : Cancelled item revisions reviews after := by
  obtain ⟨base, locked, -, change, -⟩ := step
  refine change.cancelled (sound.locked locked) ?_
  rcases locked with rfl | ⟨control, controls, -, -, rfl⟩
  · exact cancelled
  · exact cancelled

end

/-! ## Commands that are sent again -/

section

variable {store after : Store} {lib : Primitives} {call : Call} {result : AnnouncementCommandResult}

/-- Receipts stay. -/
theorem Step.receipts {opened : Prop} {editionId : Uuid} {receipt : AnnouncementCommandReceipt}
    (step : Step opened editionId store after receipt) :
    receipt ∈ after.receipts ∧ ∀ r ∈ store.receipts, r ∈ after.receipts := by
  obtain ⟨base, locked, recorded, -⟩ := step
  have same : base.receipts = store.receipts := by
    rcases locked with rfl | ⟨control, controls, -, -, rfl⟩ <;> rfl
  have inserted := recorded.received
  rw [same] at inserted
  exact ⟨(Table.mem_insert? inserted).mpr (.inr rfl), fun r hr => (Table.mem_insert? inserted).mpr (.inl hr)⟩

theorem run_receipts {receipt : AnnouncementCommandReceipt} (mem : receipt ∈ store.receipts)
    (later : List Call) : receipt ∈ ((announcementMachine lib).run store later).receipts := by
  refine Machine.run_invariant (I := fun s : Store => receipt ∈ s.receipts) (fun s next s' answer mem h => ?_) mem later
  obtain ⟨-, _, ⟨rfl, -⟩ | step, -⟩ := exec_ok h
  · exact mem
  · exact step.receipts.2 receipt mem

/-- A receipt that answers for a request answers it without a write. -/
theorem execute_replays {sur : Surroundings} {request : AnnouncementCommandRequest}
    {operation : Operation} {intent : Intent}
    {reason : String} {write : Context → Except AnnouncementError Written} {receipt : AnnouncementCommandReceipt}
    {scope : EditionScope} (mem : receipt ∈ store.receipts)
    (answers : receipt.Answers request operation (lib.requestDigest operation intent reason request.sourceChannel))
    (valid : request.Valid lib)
    (authorized : authorize sur request operation.capability = .ok scope) :
    store.execute lib sur request operation intent reason write = .ok (store, receipt.result true) := by
  have found : store.receipt? request = some receipt := by
    rw [Store.receipt?, Table.get?_eq_some.mpr ⟨mem, answers.key⟩, Option.filter_some, if_pos]
    exact decide_eq_true answers.organization
  simp only [Store.execute, identifier, bind_eq_ok, require_eq_ok, valid.2, authorized, found, pure_eq_ok]
  exact ⟨_, ⟨(), valid.1, rfl⟩, _, rfl, (), rfl, scope, rfl, (), ⟨answers.digest, answers.operation⟩, trivial⟩

/-- A command that committed is answered the same whenever it is sent again, if its actor is still
allowed to; its second answer writes nothing. -/
theorem exec_replays (h : store.exec lib call = .ok (after, result)) (later : List Call)
    {sur : Surroundings} (time : call.surroundings.now ≤ sur.now) :
    let final := (announcementMachine lib).run after later
    final.exec lib ⟨sur, call.request, call.command⟩ =
      (authorize sur call.request call.command.capability).map fun _ => (final, { result with replayed := true }) := by
  intro final
  obtain ⟨valid, receipt, step, operation, intent, reason, write, prepares, answers, replayed, rfl⟩ := exec_ok h
  have mem : receipt ∈ after.receipts := by
    rcases step with ⟨rfl, mem⟩ | step
    · exact mem
    · exact step.receipts.1
  have prepares := prepares sur time
  rw [prepares.exec, ← prepares.capability]
  cases authorized : authorize sur call.request operation.capability with
  | error e => rfl
  | ok scope =>
    rw [ok_bind, execute_replays (run_receipts mem later) answers valid authorized]
    rfl

end

/-! ## Runs -/

theorem run_cancelled {store : Store} {lib : Primitives} {item : Announcement} (sound : Sound store)
    (mem : item ∈ store.announcements) (cancelled : item.status = .cancelled) (later : List Call) :
    Cancelled item (store.revisionsOf item.id) (store.reviewsOf item.id)
      ((announcementMachine lib).run store later) := by
  have start : Sound store ∧ Cancelled item (store.revisionsOf item.id) (store.reviewsOf item.id) store :=
    ⟨sound, ⟨item, mem, rfl, cancelled, rfl, rfl⟩, rfl, rfl⟩
  refine (Machine.run_invariant (I := fun s => Sound s ∧
    Cancelled item (store.revisionsOf item.id) (store.reviewsOf item.id) s)
      (fun s call after result kept h => ?_) start later).2
  obtain ⟨sound, cancelled⟩ := kept
  obtain ⟨-, receipt, ⟨rfl, -⟩ | step, -⟩ := exec_ok h
  · exact ⟨sound, cancelled⟩
  · exact ⟨step.sound sound, step.cancelled sound cancelled⟩

/-- Every run leads to a lawful state. From it on, a cancelled announcement gets no revision,
request for review or review; a command leaves the drafts of an edition that is not open; and a
command that commits is answered by its receipt in every later state. -/
theorem announcements_run_lawful (lib : Primitives) (calls : List Call) :
    let store := (announcementMachine lib).run Store.empty calls
    Lawful store ∧
      (∀ item ∈ store.announcements, item.status = .cancelled → ∀ later : List Call,
        Cancelled item (store.revisionsOf item.id) (store.reviewsOf item.id)
          ((announcementMachine lib).run store later)) ∧
      ∀ call after result, store.exec lib call = .ok (after, result) →
        (∀ edition, (call.request.editionId = edition → ¬ store.OpenFor lib call.surroundings call.request) →
          after.drafts edition = store.drafts edition) ∧
        ∀ (later : List Call) (sur : Surroundings), call.surroundings.now ≤ sur.now →
          let final := (announcementMachine lib).run after later
          final.exec lib ⟨sur, call.request, call.command⟩ =
            (authorize sur call.request call.command.capability).map fun _ =>
              (final, { result with replayed := true }) := by
  intro store
  have sound : Sound store := run_sound lib calls
  refine ⟨sound.lawful, fun item mem cancelled later => run_cancelled sound mem cancelled later,
    fun call after result h => ⟨fun edition closed => ?_, fun later sur time => exec_replays h later time⟩⟩
  obtain ⟨-, receipt, ⟨rfl, -⟩ | step, -⟩ := exec_ok h
  · rfl
  · exact step.drafts closed

end Maru.Announcements

import Maru.Announcements.Commands
import Maru.Framework.EventLog
import Maru.Framework.Machine

/-!
# What an announcement command writes

A command that commits writes nothing, because its key has a receipt, or it leaves a
receipt with the next number of its edition's control (`Recorded`) and makes one of the
writes of `Change` (`exec_step`).
-/

namespace Maru.Announcements

/-! ## The machine -/

inductive Command
  | updateSettings (settings : AnnouncementSettingsInput) (expectedVersion : Int)
  | setStopped (stopped : Bool) (expectedVersion : Int) (reason : String)
  | create (draft : AnnouncementDraftInput) (expectedSettingsVersion : Int)
  | revise (announcementId : Uuid) (draft : AnnouncementDraftInput)
      (expectedVersion expectedSettingsVersion : Int) (reason : String)
  | requestReview (announcementId : Uuid) (expectedVersion : Int)
  | review (announcementId revisionId : Uuid) (expectedVersion : Int) (decision : Decision) (note : String)
  | recordPublication (announcementId variantId : Uuid) (expectedVersion : Int)
      (publicationUrl : String) (publishedAt : Option Int)
  | correctPublication (announcementId reportId : Uuid) (expectedVersion : Int) (withdrawn : Bool)
      (reason publicationUrl : String) (publishedAt : Option Int)
  | cancel (announcementId : Uuid) (expectedVersion : Int) (reason : String)

/-- What the actor of a command must be allowed to do. -/
def Command.capability : Command → Capability
  | .updateSettings .. | .setStopped .. => .manageSettings
  | .create .. | .revise .. | .requestReview .. | .cancel .. => .compose
  | .review .. => .review
  | .recordPublication .. | .correctPublication .. => .recordPublication

structure Call where
  surroundings : Surroundings
  request : AnnouncementCommandRequest
  command : Command

def Store.exec (store : Store) (lib : Primitives) (call : Call) :
    Except AnnouncementError (Store × AnnouncementCommandResult) :=
  let sur := call.surroundings
  let request := call.request
  match call.command with
  | .updateSettings settings version => updateAnnouncementSettings store lib sur request settings version
  | .setStopped stopped version reason => setAnnouncementsStopped store lib sur request stopped version reason
  | .create draft version => createAnnouncement store lib sur request draft version
  | .revise announcementId draft version settingsVersion reason =>
    reviseAnnouncement store lib sur request announcementId draft version settingsVersion reason
  | .requestReview announcementId version => requestAnnouncementReview store lib sur request announcementId version
  | .review announcementId revisionId version decision note =>
    reviewAnnouncement store lib sur request announcementId revisionId version decision note
  | .recordPublication announcementId variantId version url publishedAt =>
    recordAnnouncementPublication store lib sur request announcementId variantId version url publishedAt
  | .correctPublication announcementId reportId version withdrawn reason url publishedAt =>
    correctAnnouncementPublication store lib sur request announcementId reportId version withdrawn reason url publishedAt
  | .cancel announcementId version reason => cancelAnnouncement store lib sur request announcementId version reason

def announcementMachine (lib : Primitives) : Machine Store Call AnnouncementCommandResult AnnouncementError where
  exec store call := store.exec lib call

/-! ## Steps -/

/-- The control of an edition is there, or is created with no receipt counted. -/
def Locked (store base : Store) : Prop :=
  base = store ∨ ∃ control controls, (control.sequence = 0 ∧ control.currentSettingsId = none) ∧
    store.controls.insert? control = some controls ∧ base = { store with controls }

/-- The command's receipt, and the control with one more. -/
structure Recorded (store after : Store) (receipt : AnnouncementCommandReceipt) : Prop where
  control : ∃ control ∈ store.controls, ∃ next, next.editionId = control.editionId ∧
    receipt.editionId = control.editionId ∧ next.sequence = control.sequence + 1 ∧
    after.controls = store.controls.save next
  received : store.receipts.insert? receipt = some after.receipts

/-- An announcement is saved with its next version. -/
structure Advances (store after : Store) (receipt : AnnouncementCommandReceipt) (item saved : Announcement) : Prop where
  mem : item ∈ store.announcements
  of : receipt.announcementId = some item.id ∧ receipt.editionId = item.editionId
  same : saved.id = item.id ∧ saved.editionId = item.editionId
  version : saved.version = item.version + 1 ∧ saved.version ≤ maxHistory
  saved : after.announcements = store.announcements.save saved

/-- The revision that an item's control names. -/
def Store.current? (store : Store) (item : Announcement) : Option AnnouncementRevision :=
  item.currentRevisionId.bind fun id => store.revisions.get? id

/-- A revision follows the current one, in its round unless that one is approved;
then the round is new. -/
structure Revises (store after : Store) (receipt : AnnouncementCommandReceipt) (item : Announcement)
    (revision : AnnouncementRevision) : Prop where
  inserted : store.revisions.insert? revision = some after.revisions
  of : revision.announcementId = item.id ∧ revision.editionId = receipt.editionId
  number : revision.number = ((store.current? item).map (·.number)).getD 0 + 1
  round : (∀ row ∈ store.revisions, row.roundId ≠ revision.roundId) ∨
    item.currentRevisionId ≠ item.approvedRevisionId ∧
      ∃ previous, store.current? item = some previous ∧ previous.roundId = revision.roundId
  variants : ∀ variant ∈ store.variants, variant ∈ after.variants

/-- A review of the current revision, by someone who wrote none of its round. -/
structure Reviews (store after : Store) (receipt : AnnouncementCommandReceipt) (item : Announcement)
    (review : AnnouncementReview) : Prop where
  inserted : store.reviews.insert? review = some after.reviews
  of : review.editionId = receipt.editionId
  status : item.status = .inReview
  current : ∃ revision ∈ store.revisions, item.currentRevisionId = some revision.id ∧
    revision.id = review.revisionId ∧ ∀ row ∈ store.revisions, row.announcementId = item.id →
      row.roundId = revision.roundId → row.actorId ≠ review.actorId

/-- A report on an approved copy: the first one, or one that replaces the last. -/
structure Reports (store after : Store) (report : AnnouncementPublicationReport) : Prop where
  inserted : store.reports.insert? report = some after.reports
  replaces : (store.reportsOf report.variantId = [] ∧ report.supersedesReportId = none ∧
      ∃ variant ∈ store.variants, variant.id = report.variantId ∧
        ∃ review ∈ store.reviews, review.revisionId = variant.revisionId ∧ review.decision = .approve) ∨
    ∃ previous ∈ store.reports, previous.variantId = report.variantId ∧ report.supersedesReportId =
      some previous.id ∧ ∀ other ∈ store.reports, other.supersedesReportId ≠ some previous.id

/-- What a command that is not a repeat writes beside its receipt; where the work
has to be open, it is. -/
inductive Change (opened : Prop) (store after : Store) (receipt : AnnouncementCommandReceipt) : Prop
  | control (of : receipt.announcementId = none)
      (same : after.announcements = store.announcements ∧ after.revisions = store.revisions ∧
        after.variants = store.variants ∧ after.reviews = store.reviews ∧ after.reports = store.reports)
  | created {item : Announcement} {revision : AnnouncementRevision} (opened : opened)
      (of : receipt.announcementId = some item.id ∧ receipt.editionId = item.editionId)
      (inserted : store.announcements.insert? item = some after.announcements)
      (first : item.version = 1 ∧ item.approvedRevisionId = none ∧ item.currentRevisionId = some revision.id)
      (status : item.status = .draft)
        (revises : Revises store after receipt { item with currentRevisionId := none } revision)
      (same : after.reviews = store.reviews ∧ after.reports = store.reports)
  | revised {item saved : Announcement} {revision : AnnouncementRevision} (opened : opened)
      (advances : Advances store after receipt item saved) (active : item.status ≠ .cancelled)
      (current : saved.currentRevisionId = some revision.id ∧ saved.approvedRevisionId = item.approvedRevisionId)
      (revises : Revises store after receipt item revision)
      (same : after.reviews = store.reviews ∧ after.reports = store.reports)
  | moved {item saved : Announcement} (advances : Advances store after receipt item saved)
      (active : item.status ≠ .cancelled)
      (current : saved.currentRevisionId = item.currentRevisionId ∧ saved.approvedRevisionId = item.approvedRevisionId)
      (same : after.revisions = store.revisions ∧ after.variants = store.variants ∧
        after.reviews = store.reviews ∧ after.reports = store.reports)
  | reviewed {item saved : Announcement} {review : AnnouncementReview} (opened : opened)
      (advances : Advances store after receipt item saved)
      (current : saved.currentRevisionId = item.currentRevisionId ∧ (saved.approvedRevisionId = item.approvedRevisionId ∨
        saved.approvedRevisionId = some review.revisionId ∧ review.decision = .approve))
      (reviews : Reviews store after receipt item review)
      (same : after.revisions = store.revisions ∧ after.variants = store.variants ∧ after.reports = store.reports)
  | reported {item saved : Announcement} {report : AnnouncementPublicationReport}
      (advances : Advances store after receipt item saved)
      (current : saved.currentRevisionId = item.currentRevisionId ∧
        saved.approvedRevisionId = item.approvedRevisionId ∧ saved.status = item.status)
      (reports : Reports store after report)
      (same : after.revisions = store.revisions ∧ after.variants = store.variants ∧ after.reviews = store.reviews)

theorem Change.mono {opened opened' : Prop} {store after : Store} {receipt : AnnouncementCommandReceipt}
    (h : Change opened store after receipt) (weaker : opened → opened') : Change opened' store after receipt := by
  cases h with
  | control of same => exact .control of same
  | created opened of inserted first status revises same =>
      exact .created (weaker opened) of inserted first status revises same
  | revised opened advances active current revises same =>
    exact .revised (weaker opened) advances active current revises same
  | moved advances active current same => exact .moved advances active current same
  | reviewed opened advances current reviews same => exact .reviewed (weaker opened) advances current reviews same
  | reported advances current reports same => exact .reported advances current reports same

/-! ## Rules for the parts of a command -/

/-- The work is not stopped, and its rules are confirmed. -/
def Context.Open (context : Context) (lib : Primitives) (sur : Surroundings) : Prop :=
  context.control.stopped = false ∧ (context.currentSettings? lib sur).isSome

section

variable {store after base : Store} {lib : Primitives} {sur : Surroundings} {request : AnnouncementCommandRequest}
  {result : AnnouncementCommandResult} {context written : Context} {item saved : Announcement} {selected : Uuid}
  {expected : Int}

theorem lockedControl_ok {control : AnnouncementControl} (h : store.lockedControl sur request = .ok (base, control)) :
    Locked store base ∧ control ∈ base.controls ∧ control.editionId = request.editionId := by
  unfold Store.lockedControl at h
  split at h
  · rename_i found
    rw [Option.filter_eq_some_iff, Table.get?_eq_some] at found
    cases h
    exact ⟨.inl rfl, found.1⟩
  · simp only [bind_eq_ok, getOr_eq_ok, pure_eq_ok, Prod.mk.injEq] at h
    obtain ⟨controls, inserted, rfl, rfl⟩ := h
    exact ⟨.inr ⟨_, controls, ⟨rfl, rfl⟩, inserted, rfl⟩, (Table.mem_insert? inserted).mpr (.inr rfl), rfl⟩

theorem insertReceipt_ok {receipt : AnnouncementCommandReceipt} (h : store.insertReceipt receipt = .ok after) :
    ∃ receipts, store.receipts.insert? receipt = some receipts ∧ after = { store with receipts } := by
  simp only [Store.insertReceipt, bind_eq_ok, getOr_eq_ok, pure_eq_ok] at h
  obtain ⟨_, -, _, -, receipts, inserted, rfl⟩ := h
  exact ⟨receipts, inserted, rfl⟩

theorem settings_ok {settings : AnnouncementSettingsRevision}
    (h : context.settings lib sur = .ok settings) : context.Open lib sur := by
  simp only [Context.settings, Context.writesOpen, bind_eq_ok, require_eq_ok, getOr_eq_ok] at h
  obtain ⟨_, ⟨-, running⟩, found⟩ := h
  exact ⟨by simpa using running, by rw [found]; rfl⟩

theorem item_ok (h : context.item request selected expected = .ok item) :
    item ∈ context.store.announcements ∧ item.editionId = request.editionId := by
  simp only [Context.item, bind_eq_ok, getOr_eq_ok, Option.filter_eq_some_iff, Table.get?_eq_some,
    decide_eq_true_eq, pure_eq_ok] at h
  obtain ⟨row, ⟨⟨mem, -⟩, -, edition⟩, _, -, rfl⟩ := h
  exact ⟨mem, edition⟩

theorem advance_ok (h : context.advance item = .ok (written, saved)) :
    item.version < maxHistory ∧ saved = { item with version := item.version + 1 } ∧
      written = { context with store :=
        { context.store with announcements := context.store.announcements.save saved } } := by
  simp only [Context.advance, bind_eq_ok, require_eq_ok, pure_eq_ok, Prod.mk.injEq] at h
  obtain ⟨_, bounded, rfl, rfl⟩ := h
  exact ⟨bounded, rfl, rfl⟩

theorem item_advances (changed : Announcement) {receipt : AnnouncementCommandReceipt}
    (found : context.item request selected expected = .ok item)
    (same : changed.id = item.id ∧ changed.editionId = item.editionId ∧ changed.version = item.version)
    (bounded : changed.version < maxHistory)
    (of : receipt.announcementId = some item.id ∧ receipt.editionId = request.editionId)
    (kept : after.announcements = context.store.announcements.save { changed with version := changed.version + 1 }) :
    Advances context.store after receipt item { changed with version := changed.version + 1 } := by
  obtain ⟨mem, edition⟩ := item_ok found
  obtain ⟨sameId, sameEdition, sameVersion⟩ := same
  exact ⟨mem, ⟨of.1, of.2.trans edition.symm⟩, ⟨sameId, sameEdition⟩,
    ⟨congrArg (· + 1) sameVersion, Nat.succ_le_of_lt bounded⟩, kept⟩

theorem round_ok {base : Option Uuid} {roundId : Uuid} (h : context.round sur item = .ok (base, roundId)) :
    (∀ row ∈ context.store.revisions, row.roundId ≠ roundId) ∨ item.currentRevisionId ≠ item.approvedRevisionId ∧
      ∃ previous, context.store.current? item = some previous ∧ previous.roundId = roundId := by
  unfold Context.round at h
  split at h
  · rename_i previous found
    split at h
    · simp only [Context.drawRound, bind_eq_ok, require_eq_ok, pure_eq_ok, Prod.mk.injEq] at h
      obtain ⟨_, ⟨_, fresh, rfl⟩, -, rfl⟩ := h
      exact .inl fresh
    · rename_i differs
      simp only [pure_eq_ok, Prod.mk.injEq] at h
      obtain ⟨-, rfl⟩ := h
      exact .inr ⟨differs, previous, found, rfl⟩
  · simp only [Context.drawRound, bind_eq_ok, require_eq_ok, pure_eq_ok, Prod.mk.injEq] at h
    obtain ⟨_, ⟨_, fresh, rfl⟩, -, rfl⟩ := h
    exact .inl fresh

theorem insertVariants_ok {revisionId : Uuid} {settings : AnnouncementSettingsRevision}
    {copies : List (AnnouncementVariantInput × Nat)} {variants variants' : Table AnnouncementVariant.id}
    (h : copies.foldlM (Context.insertVariant lib sur request revisionId settings) variants = .ok variants') :
    ∀ variant ∈ variants, variant ∈ variants' := by
  induction copies generalizing variants with
  | nil =>
    cases h
    exact fun _ mem => mem
  | cons copy copies ih =>
    simp only [List.foldlM_cons, Context.insertVariant, bind_eq_ok, getOr_eq_ok] at h
    obtain ⟨next, ⟨channel, -, inserted⟩, rest⟩ := h
    exact fun variant mem => ih rest variant ((Table.mem_insert? inserted).mpr (.inl mem))

/-- What `_write_revision` inserts, and how it leaves the item. -/
theorem writeRevision_ok {draft : AnnouncementDraftInput} {settings : AnnouncementSettingsRevision}
    (h : context.writeRevision lib sur request item draft settings = .ok (written, saved)) :
    ∃ revision revisions variants, written = { context with store := { context.store with revisions, variants } } ∧
      saved = { item with currentRevisionId := some revision.id, status := .draft } ∧
      ∀ (after : Store) (receipt : AnnouncementCommandReceipt), after.revisions = revisions → after.variants = variants →
        receipt.editionId = request.editionId → Revises context.store after receipt item revision := by
  simp only [Context.writeRevision, bind_eq_ok, require_eq_ok, getOr_eq_ok, pure_eq_ok, Prod.mk.injEq] at h
  obtain ⟨_, -, _, -, ⟨baseId, roundId⟩, round, revisions, inserted, variants, copies, rfl, rfl⟩ := h
  refine ⟨Context.revisionOf sur request item draft settings.id (lib.textBytes draft)
      (((context.previous? item).map (·.number)).getD 0 + 1) ((context.previous? item).map (·.id)) baseId roundId,
    revisions, variants, rfl, rfl, fun after receipt sameRevisions sameVariants edition => ?_⟩
  exact ⟨sameRevisions ▸ inserted, ⟨rfl, edition.symm⟩, rfl, round_ok round,
    sameVariants ▸ insertVariants_ok copies⟩

end

/-! ## What each command writes -/

/-- An announcement at its first revision. -/
def createdItem (sur : Surroundings) (request : AnnouncementCommandRequest)
    (currentRevisionId : Option Uuid) : Announcement where
  id := sur.objectId
  organizationId := request.organizationId
  editionId := request.editionId
  version := 1
  status := .draft
  currentRevisionId := currentRevisionId
  approvedRevisionId := none

/-- What a write leaves to the executor, and what it changes, whatever controls and receipts
the executor writes then. -/
structure Writes (lib : Primitives) (sur : Surroundings) (request : AnnouncementCommandRequest)
    (context : Context) (written : Written) : Prop where
  controls : written.context.store.controls = context.store.controls
  receipts : written.context.store.receipts = context.store.receipts
  edition : written.context.control.editionId = context.control.editionId
  change : ∀ (controls : Table AnnouncementControl.editionId)
    (receipts : Table AnnouncementCommandReceipt.key) (receipt : AnnouncementCommandReceipt),
      receipt.announcementId = written.announcementId → receipt.editionId = request.editionId →
      Change (context.Open lib sur) context.store { written.context.store with controls, receipts } receipt

section

variable {lib : Primitives} {sur : Surroundings} {request : AnnouncementCommandRequest}
  {context : Context} {written : Written} {selected : Uuid} {expected : Int}

theorem writeSettings_writes {value : AnnouncementSettingsInput}
    (h : writeSettings lib sur request value expected context = .ok written) : Writes lib sur
      request context written := by
  simp only [writeSettings, bind_eq_ok, pure_eq_ok] at h
  obtain ⟨_, -, _, -, _, -, _, -, settings, -, rfl⟩ := h
  exact ⟨rfl, rfl, rfl, fun _ _ receipt of _ => .control of ⟨rfl, rfl, rfl, rfl, rfl⟩⟩

theorem writeStopped_writes {stopped : Bool} (h : writeStopped lib sur stopped expected context = .ok written) :
    Writes lib sur request context written := by
  simp only [writeStopped, bind_eq_ok, pure_eq_ok] at h
  obtain ⟨_, -, _, -, _, -, _, -, rfl⟩ := h
  exact ⟨rfl, rfl, rfl, fun _ _ receipt of _ => .control of ⟨rfl, rfl, rfl, rfl, rfl⟩⟩

theorem writeCreated_writes {draft : AnnouncementDraftInput}
    (h : writeCreated lib sur request draft expected context = .ok written) : Writes lib sur
      request context written := by
  simp only [writeCreated, bind_eq_ok, getOr_eq_ok, pure_eq_ok] at h
  obtain ⟨settings, opened, _, -, announcements, inserted, ⟨next, item⟩, revised, rfl⟩ := h
  obtain ⟨revision, revisions, variants, rfl, rfl, revises⟩ := writeRevision_ok revised
  refine ⟨rfl, rfl, rfl, fun controls receipts receipt of edition => ?_⟩
  have opened := settings_ok opened
  have saved := Table.insert?_save (b := createdItem sur request (some revision.id)) inserted rfl
  have row := revises { context.store with
    controls, receipts, announcements, revisions, variants } receipt rfl rfl edition
  exact .created opened ⟨of, edition⟩ saved ⟨rfl, rfl, rfl⟩ rfl
    ⟨row.inserted, row.of, row.number, row.round, row.variants⟩ ⟨rfl, rfl⟩

theorem writeRevised_writes {draft : AnnouncementDraftInput} {expectedSettings : Int}
    (h : writeRevised lib sur request selected draft expected expectedSettings context = .ok written) :
    Writes lib sur request context written := by
  simp only [writeRevised, bind_eq_ok, require_eq_ok, pure_eq_ok] at h
  obtain ⟨settings, opened, _, -, item, found, _, active, ⟨next, saved⟩, revised, ⟨last, advanced⟩, advance, rfl⟩ := h
  obtain ⟨revision, revisions, variants, rfl, rfl, revises⟩ := writeRevision_ok revised
  obtain ⟨bounded, rfl, rfl⟩ := advance_ok advance
  refine ⟨rfl, rfl, rfl, fun controls receipts receipt of edition => ?_⟩
  exact .revised (settings_ok opened)
    (item_advances { item with currentRevisionId := some revision.id, status := .draft } found ⟨rfl, rfl, rfl⟩ bounded
      ⟨of, edition⟩ rfl) active ⟨rfl, rfl⟩ (revises _ receipt rfl rfl edition) ⟨rfl, rfl⟩

theorem writeRequested_writes (h : writeRequested lib sur request selected expected context = .ok written) :
    Writes lib sur request context written := by
  simp only [writeRequested, bind_eq_ok, require_eq_ok, pure_eq_ok] at h
  obtain ⟨_, -, item, found, _, draft, revisionId, -, _, -, ⟨next, saved⟩, advance, rfl⟩ := h
  obtain ⟨bounded, rfl, rfl⟩ := advance_ok advance
  have active : item.status ≠ .cancelled := by simp [draft]
  refine ⟨rfl, rfl, rfl, fun controls receipts receipt of edition => ?_⟩
  exact .moved (item_advances { item with status := .inReview } found ⟨rfl, rfl, rfl⟩ bounded ⟨of,
    edition⟩ rfl) active ⟨rfl, rfl⟩ ⟨rfl, rfl, rfl, rfl⟩

theorem writeCancelled_writes (h : writeCancelled request selected expected context = .ok written) :
    Writes lib sur request context written := by
  simp only [writeCancelled, bind_eq_ok, require_eq_ok, pure_eq_ok] at h
  obtain ⟨_, -, item, found, _, active, ⟨next, saved⟩, advance, rfl⟩ := h
  obtain ⟨bounded, rfl, rfl⟩ := advance_ok advance
  refine ⟨rfl, rfl, rfl, fun controls receipts receipt of edition => ?_⟩
  exact .moved (item_advances { item with status := .cancelled } found ⟨rfl, rfl, rfl⟩ bounded ⟨of,
    edition⟩ rfl) active ⟨rfl, rfl⟩ ⟨rfl, rfl, rfl, rfl⟩

theorem writeReviewed_writes {revisionId : Uuid} {decision : Decision} {note : String}
    (h : writeReviewed lib sur request selected revisionId expected decision note context = .ok written) :
    Writes lib sur request context written := by
  simp only [writeReviewed, bind_eq_ok, require_eq_ok, getOr_eq_ok, pure_eq_ok] at h
  obtain ⟨_, opened, item, found, current, previous, _, ⟨inReview, same⟩, _, independent, reviews,
    inserted, ⟨next, saved⟩, advance, rfl⟩ := h
  obtain ⟨bounded, rfl, rfl⟩ := advance_ok advance
  have keeps : (reviewed item revisionId decision).id = item.id ∧
    (reviewed item revisionId decision).editionId = item.editionId ∧
      (reviewed item revisionId decision).version = item.version ∧
      (reviewed item revisionId decision).currentRevisionId = item.currentRevisionId ∧
      ((reviewed item revisionId decision).approvedRevisionId = item.approvedRevisionId ∨
        (reviewed item revisionId decision).approvedRevisionId = some revisionId ∧ decision = .approve) := by
    cases decision with
    | approve => exact ⟨rfl, rfl, rfl, rfl, .inr ⟨rfl, rfl⟩⟩
    | changesRequested => exact ⟨rfl, rfl, rfl, rfl, .inl rfl⟩
  obtain ⟨id, edition'', version, sameCurrent, approval⟩ := keeps
  refine ⟨rfl, rfl, rfl, fun controls receipts receipt of edition => ?_⟩
  have ⟨revision, isCurrent⟩ : ∃ id, item.currentRevisionId = some id ∧ context.store.revisions.get? id = some current :=
    Option.bind_eq_some_iff.mp previous
  have ⟨written, is⟩ := Table.get?_eq_some.mp isCurrent.2
  refine .reviewed (settings_ok opened)
    (item_advances (reviewed item revisionId decision) found ⟨id, edition'', version⟩ bounded
      ⟨of.trans (congrArg some id), edition⟩ rfl) ⟨sameCurrent, approval⟩
    ⟨inserted, edition.symm, inReview, current, written, ?_, same, independent⟩ ⟨rfl, rfl, rfl⟩
  rw [isCurrent.1, is]

theorem approvedVariant?_eq_some {store : Store} {item : Announcement} {variantId : Uuid} {variant : AnnouncementVariant}
    (h : store.approvedVariant? request item variantId = some variant) :
    variant ∈ store.variants ∧ ∃ review ∈ store.reviews, review.revisionId = variant.revisionId ∧
      review.decision = .approve := by
  simp only [Store.approvedVariant?, Option.filter_eq_some_iff, Table.get?_eq_some,
    decide_eq_true_eq, Option.any_eq_true] at h
  obtain ⟨⟨mem, -⟩, -, -, -, review, ⟨written, of⟩, approve⟩ := h
  exact ⟨mem, review, written, of, approve⟩

theorem writeReported_writes {variantId : Uuid} {url : String} {publishedAt : Option Int}
    (h : writeReported sur request selected variantId expected url publishedAt context = .ok written) :
    Writes lib sur request context written := by
  simp only [writeReported, bind_eq_ok, require_eq_ok, getOr_eq_ok, pure_eq_ok] at h
  obtain ⟨_, -, item, found, copy, approved, _, first, _, -, reports, inserted, ⟨next, saved⟩, advance, rfl⟩ := h
  obtain ⟨bounded, rfl, rfl⟩ := advance_ok advance
  have ⟨written, review⟩ := approvedVariant?_eq_some approved
  refine ⟨rfl, rfl, rfl, fun controls receipts receipt of edition => ?_⟩
  exact .reported (item_advances item found ⟨rfl, rfl, rfl⟩ bounded ⟨of, edition⟩ rfl)
    ⟨rfl, rfl, rfl⟩ ⟨inserted, .inl ⟨first, rfl, copy, written, rfl, review⟩⟩ ⟨rfl, rfl, rfl⟩

theorem writeCorrected_writes {reportId : Uuid} {withdrawn : Bool} {url note : String} {publishedAt : Option Int}
    (h : writeCorrected sur request selected reportId expected withdrawn url publishedAt note context = .ok written) :
    Writes lib sur request context written := by
  simp only [writeCorrected, bind_eq_ok, getOr_eq_ok, Store.lastReport?, Option.filter_eq_some_iff,
    Table.get?_eq_some, decide_eq_true_eq, pure_eq_ok, List.all_eq_true] at h
  obtain ⟨_, -, item, found, previous, ⟨⟨there, -⟩, -, -, -, last⟩, _, -, reports, inserted,
    ⟨next, saved⟩, advance, rfl⟩ := h
  obtain ⟨bounded, rfl, rfl⟩ := advance_ok advance
  refine ⟨rfl, rfl, rfl, fun controls receipts receipt of edition => ?_⟩
  exact .reported (item_advances item found ⟨rfl, rfl, rfl⟩ bounded ⟨of, edition⟩ rfl)
    ⟨rfl, rfl, rfl⟩ ⟨inserted, .inr ⟨previous, there, rfl, rfl, last⟩⟩ ⟨rfl, rfl, rfl⟩

end

/-! ## What a command that commits does -/

/-- The work of the request's edition is open: it is not stopped, and its rules are
confirmed and not overdue. -/
def Store.OpenFor (store : Store) (lib : Primitives) (sur : Surroundings)
    (request : AnnouncementCommandRequest) : Prop :=
  ∃ control ∈ store.controls, control.editionId = request.editionId ∧ control.stopped = false ∧
    ∃ settings ∈ store.settings, control.currentSettingsId = some settings.id ∧
      ∃ scope, sur.scope request.organizationId request.editionId = some scope ∧
        lib.dateIn scope.timeZone sur.now ≤ settings.reviewOn

/-- The receipt has the key of the request, and stands for this operation. -/
structure AnnouncementCommandReceipt.Answers (receipt : AnnouncementCommandReceipt)
    (request : AnnouncementCommandRequest) (operation : Operation) (digest : String) : Prop where
  key : receipt.key = (request.editionId, request.actorId, request.idempotencyKey)
  organization : receipt.organizationId = request.organizationId
  operation : receipt.operation = operation
  digest : receipt.requestDigest = digest

/-- The request has a key, and a channel that is kept as it is. -/
def AnnouncementCommandRequest.Valid (request : AnnouncementCommandRequest) (lib : Primitives) : Prop :=
  request.idempotencyKey ≠ 0 ∧ text lib request.sourceChannel 80 = .ok request.sourceChannel

/-- The writes of a command: the control is there, its receipt is inserted, and one change is made.
-/
def Step (opened : Prop) (editionId : Uuid) (store after : Store) (receipt : AnnouncementCommandReceipt) : Prop :=
  ∃ base, Locked store base ∧ Recorded base after receipt ∧ Change opened base after receipt ∧
    receipt.editionId = editionId

section

variable {store after : Store} {lib : Primitives} {sur : Surroundings} {request : AnnouncementCommandRequest}
  {result : AnnouncementCommandResult} {scope : EditionScope} {operation : Operation} {intent : Intent}
  {digest reason : String} {write : Context → Except AnnouncementError Written}

/-- A control that was not there is not confirmed, so what is open was open before. -/
theorem Locked.openFor {base : Store} (locked : Locked store base) {control : AnnouncementControl}
    (mem : control ∈ base.controls) (edition : control.editionId = request.editionId)
    (admitted : sur.scope request.organizationId request.editionId = some scope)
    (opened : Context.Open { store := base, control, scope } lib sur) : store.OpenFor lib sur request := by
  obtain ⟨running, confirmed⟩ := opened
  obtain ⟨settings, found⟩ := Option.isSome_iff_exists.mp confirmed
  simp only [Context.currentSettings?, Option.filter_eq_some_iff, Option.bind_eq_some_iff,
    Table.get?_eq_some, decide_eq_true_eq] at found
  obtain ⟨⟨id, named, written, rfl⟩, due⟩ := found
  rcases locked with rfl | ⟨created, controls, start, inserted, rfl⟩
  · exact ⟨control, mem, edition, running, settings, written, named, scope, admitted, due⟩
  · rcases (Table.mem_insert? inserted).mp mem with mem | rfl
    · exact ⟨control, mem, edition, running, settings, written, named, scope, admitted, due⟩
    · rw [start.2] at named
      cases named

theorem authorize_ok {capability : Capability} (h : authorize sur request capability = .ok scope) :
    sur.scope request.organizationId request.editionId = some scope := by
  simp only [authorize, bind_eq_ok, getOr_eq_ok] at h
  obtain ⟨_, -, _, -, _, -, _, -, _, -, found⟩ := h
  exact found

theorem perform_ok (writes : ∀ context written, write context = .ok written → Writes lib sur request context written)
    (admitted : sur.scope request.organizationId request.editionId = some scope)
    (h : store.perform lib sur request scope operation digest reason write = .ok (after, result)) :
    ∃ receipt, Step (store.OpenFor lib sur request) request.editionId store after receipt ∧
      receipt.Answers request operation digest ∧ result = receipt.result false := by
  simp only [Store.perform, bind_eq_ok, require_eq_ok, pure_eq_ok, Prod.mk.injEq] at h
  obtain ⟨⟨base, control⟩, lock, _, -, written, write, next, insert, _, -, rfl, rfl⟩ := h
  obtain ⟨locked, mem, edition⟩ := lockedControl_ok lock
  obtain ⟨controls, receipts, same, change⟩ := writes _ _ write
  obtain ⟨table, inserted, rfl⟩ := insertReceipt_ok insert
  refine ⟨_, ⟨base, locked, ⟨⟨control, mem,
    { written.context.control with sequence := control.sequence + 1 }, same, edition.symm, rfl, ?_⟩, ?_⟩,
      ?_, rfl⟩, ⟨rfl, rfl, rfl, rfl⟩, rfl⟩
  · exact congrArg (Table.save · _) controls
  · exact receipts ▸ inserted
  · exact (change _ table _ rfl rfl).mono fun opened => locked.openFor mem edition admitted opened

theorem execute_ok (writes : ∀ context written, write context = .ok written → Writes lib sur request context written)
    (h : store.execute lib sur request operation intent reason write = .ok (after, result)) :
    request.Valid lib ∧ ∃ receipt, (after = store ∧ receipt ∈ store.receipts ∨
        Step (store.OpenFor lib sur request) request.editionId store after receipt) ∧
      receipt.Answers request operation (lib.requestDigest operation intent reason request.sourceChannel) ∧
      ∃ replayed, result = receipt.result replayed := by
  simp only [Store.execute, identifier, bind_eq_ok, require_eq_ok, pure_eq_ok] at h
  obtain ⟨_, ⟨_, valid, -⟩, source, kept, _, rfl, scope, authorized, h⟩ := h
  refine ⟨⟨valid, kept⟩, ?_⟩
  cases found : store.receipt? request with
  | none =>
    rw [found] at h
    obtain ⟨receipt, step, answers, rfl⟩ := perform_ok writes (authorize_ok authorized) h
    exact ⟨receipt, .inr step, answers, false, rfl⟩
  | some receipt =>
    simp only [found, bind_eq_ok, require_eq_ok, pure_eq_ok, Prod.mk.injEq] at h
    simp only [Store.receipt?, Option.filter_eq_some_iff, Table.get?_eq_some, decide_eq_true_eq] at found
    obtain ⟨_, same, rfl, rfl⟩ := h
    exact ⟨receipt, .inl ⟨rfl, found.1.1⟩, ⟨found.1.2, found.2, same.2, same.1⟩, true, rfl⟩

end

/-! ## Commands as executions -/

/-- After a decision on authority a call is this execution, at whatever store. -/
structure Prepares (lib : Primitives) (sur : Surroundings) (request : AnnouncementCommandRequest) (command : Command)
    (operation : Operation) (intent : Intent) (reason : String) (write : Context → Except AnnouncementError Written) :
    Prop where
  exec : ∀ store : Store, store.exec lib ⟨sur, request, command⟩ = do
    let _ ← authorize sur request operation.capability
    store.execute lib sur request operation intent reason write
  writes : ∀ context written, write context = .ok written → Writes lib sur request context written
  capability : operation.capability = command.capability

theorem publicationTime_ok {sur sur' : Surroundings} {value occurred : Option Int}
    (h : publicationTime sur value = .ok occurred) (later : sur.now ≤ sur'.now) :
    publicationTime sur' value = .ok occurred := by
  simp only [publicationTime, bind_eq_ok, require_eq_ok, pure_eq_ok] at h ⊢
  obtain ⟨_, past, rfl⟩ := h
  refine ⟨(), ?_, rfl⟩
  cases value with
  | none => rfl
  | some time => exact decide_eq_true ((of_decide_eq_true past).trans later)

/-- A call that commits has an operation, an intent and a reason that it also has whenever
it is made again later. -/
theorem exec_prepares {store after : Store} {lib : Primitives} {call : Call}
    {result : AnnouncementCommandResult} (h : store.exec lib call = .ok (after, result)) :
    ∃ operation intent reason, ∃ write : Surroundings → Context → Except AnnouncementError Written,
      ∀ sur', call.surroundings.now ≤ sur'.now →
      Prepares lib sur' call.request call.command operation intent reason (write sur') := by
  obtain ⟨sur, request, command⟩ := call
  cases command with
  | updateSettings settings expectedVersion =>
    simp only [Store.exec, updateAnnouncementSettings, bind_eq_ok] at h
    obtain ⟨_, -, value, normalized, expected, checked, -⟩ := h
    refine ⟨.settingsUpdate, .settingsUpdate value expected, "",
      fun sur' => writeSettings lib sur' request value expected, fun sur' later => ⟨fun store => ?_,
      fun _ _ => writeSettings_writes, rfl⟩⟩
    simp only [Store.exec, updateAnnouncementSettings, normalized, checked, ok_bind]
    rfl
  | setStopped stopped expectedVersion reason =>
    simp only [Store.exec, setAnnouncementsStopped, bind_eq_ok] at h
    obtain ⟨_, -, expected, checked, note, normalized, -⟩ := h
    refine ⟨if stopped then .stop else .resume, .stopped stopped expected, note,
      fun sur' => writeStopped lib sur' stopped expected, fun sur' later =>
        ⟨fun store => ?_, fun _ _ => writeStopped_writes, by cases stopped <;> rfl⟩⟩
    simp only [Store.exec, setAnnouncementsStopped, normalized, checked, ok_bind]
    cases stopped <;> rfl
  | create draft expectedSettings =>
    simp only [Store.exec, createAnnouncement, bind_eq_ok] at h
    obtain ⟨_, -, value, normalized, expected, checked, -⟩ := h
    refine ⟨.create, .create value expected, "",
      fun sur' => writeCreated lib sur' request value expected, fun sur' later => ⟨fun store => ?_,
      fun _ _ => writeCreated_writes, rfl⟩⟩
    simp only [Store.exec, createAnnouncement, normalized, checked, ok_bind]
    rfl
  | revise announcementId draft expectedVersion expectedSettings reason =>
    simp only [Store.exec, reviseAnnouncement, bind_eq_ok] at h
    obtain ⟨_, -, selected, valid, expected, checked, settings, checked', value, normalized, note, noted, -⟩ := h
    refine ⟨.revise, .revise selected value expected settings, note,
      fun sur' => writeRevised lib sur' request selected value expected settings,
      fun sur' later => ⟨fun store => ?_, fun _ _ => writeRevised_writes, rfl⟩⟩
    simp only [Store.exec, reviseAnnouncement, valid, normalized, checked, checked', noted, ok_bind]
    rfl
  | requestReview announcementId expectedVersion =>
    simp only [Store.exec, requestAnnouncementReview, bind_eq_ok] at h
    obtain ⟨_, -, selected, valid, expected, checked, -⟩ := h
    refine ⟨.requestReview, .requestReview selected expected, "",
      fun sur' => writeRequested lib sur' request selected expected, fun sur' later => ⟨fun store => ?_,
      fun _ _ => writeRequested_writes, rfl⟩⟩
    simp only [Store.exec, requestAnnouncementReview, valid, checked, ok_bind]
    rfl
  | review announcementId revisionId expectedVersion decision note =>
    simp only [Store.exec, reviewAnnouncement, bind_eq_ok] at h
    obtain ⟨_, -, selected, valid, revision, valid', expected, checked, reason, noted, -⟩ := h
    refine ⟨decision.operation, .review selected revision expected decision reason, reason,
      fun sur' => writeReviewed lib sur' request selected revision expected decision reason,
      fun sur' later => ⟨fun store => ?_, fun _ _ => writeReviewed_writes, by cases decision <;> rfl⟩⟩
    simp only [Store.exec, reviewAnnouncement, valid, valid', checked, noted, ok_bind]
    cases decision <;> rfl
  | recordPublication announcementId variantId expectedVersion publicationUrl publishedAt =>
    simp only [Store.exec, recordAnnouncementPublication, bind_eq_ok] at h
    obtain ⟨_, -, selected, valid, variant, valid', expected, checked, url, safe, occurred, past, -⟩ := h
    refine ⟨.recordPublication, .recordPublication selected variant expected url occurred, "",
      fun sur' => writeReported sur' request selected variant expected url occurred,
      fun sur' later => ⟨fun store => ?_, fun _ _ => writeReported_writes, rfl⟩⟩
    simp only [Store.exec, recordAnnouncementPublication, valid, valid', checked, safe,
      publicationTime_ok past later, ok_bind]
    rfl
  | correctPublication announcementId reportId expectedVersion withdrawn reason publicationUrl publishedAt =>
    simp only [Store.exec, correctAnnouncementPublication, bind_eq_ok] at h
    obtain ⟨_, -, selected, valid, report, valid', expected, checked, url, safe, occurred,
      past, note, noted, _, fits, -⟩ := h
    refine ⟨if withdrawn then .withdrawReport else .correctPublication,
      .correctPublication selected report expected withdrawn url occurred, note,
      fun sur' => writeCorrected sur' request selected report expected withdrawn url occurred note,
      fun sur' later => ⟨fun store => ?_, fun _ _ => writeCorrected_writes, by cases withdrawn <;> rfl⟩⟩
    simp only [Store.exec, correctAnnouncementPublication, valid, valid', checked, safe,
      publicationTime_ok past later, noted, fits, ok_bind]
    cases withdrawn <;> rfl
  | cancel announcementId expectedVersion reason =>
    simp only [Store.exec, cancelAnnouncement, bind_eq_ok] at h
    obtain ⟨_, -, selected, valid, expected, checked, note, noted, -⟩ := h
    refine ⟨.cancel, .cancel selected expected, note,
      fun sur' => writeCancelled request selected expected, fun sur' later => ⟨fun store => ?_,
      fun _ _ => writeCancelled_writes, rfl⟩⟩
    simp only [Store.exec, cancelAnnouncement, valid, checked, noted, ok_bind]
    rfl

/-- What a call that commits leaves: a receipt that answers for it, which was there,
or comes with a change. -/
theorem exec_ok {store after : Store} {lib : Primitives} {call : Call}
    {result : AnnouncementCommandResult} (h : store.exec lib call = .ok (after, result)) :
    call.request.Valid lib ∧ ∃ receipt, (after = store ∧ receipt ∈ store.receipts ∨
        Step (store.OpenFor lib call.surroundings call.request) call.request.editionId store after receipt) ∧
      ∃ operation intent reason, ∃ write : Surroundings → Context →
        Except AnnouncementError Written, (∀ sur', call.surroundings.now ≤ sur'.now →
          Prepares lib sur' call.request call.command operation intent reason (write sur')) ∧
        receipt.Answers call.request operation (lib.requestDigest operation intent reason call.request.sourceChannel) ∧
        ∃ replayed, result = receipt.result replayed := by
  obtain ⟨operation, intent, reason, write, prepares⟩ := exec_prepares h
  have now := prepares call.surroundings (Int.le_refl _)
  rw [show call = ⟨call.surroundings, call.request, call.command⟩ from rfl, now.exec, bind_eq_ok] at h
  obtain ⟨_, -, executed⟩ := h
  obtain ⟨valid, receipt, step, answers, replayed⟩ := execute_ok now.writes executed
  exact ⟨valid, receipt, step, operation, intent, reason, write, prepares, answers, replayed⟩

end Maru.Announcements

import Maru.Announcements.Writes

/-!
# The history of announcements

What every run keeps (`Sound`, `run_sound`): the sequence of an edition counts its receipts,
and an announcement's version its own; revisions follow one another, and so do the reports on
a copy; and an approved revision has an approval by someone who wrote nothing of its round,
which nobody can write on.
-/

namespace Maru.Announcements

/-- A revision is numbered after the one before it. -/
def NextRevision (previous : Option AnnouncementRevision) (revision : AnnouncementRevision) : Prop :=
  revision.number = (previous.map (·.number)).getD 0 + 1

/-- A report replaces the one before it. -/
def NextReport (previous : Option AnnouncementPublicationReport) (report : AnnouncementPublicationReport) : Prop :=
  report.supersedesReportId = previous.map (·.id)

/-- The approval of an announcement's approved revision; its round has none of the reviewer's
revisions, and it is the current one, or the work goes on in another round. -/
structure Approval (store : Store) (item : Announcement) (revision : AnnouncementRevision)
    (review : AnnouncementReview) : Prop where
  written : revision ∈ store.revisions ∧ revision.announcementId = item.id ∧ item.approvedRevisionId = some revision.id
  approves : review ∈ store.reviews ∧ review.revisionId = revision.id ∧ review.decision = .approve
  independent : ∀ row ∈ store.revisions, row.announcementId = item.id →
    row.roundId = revision.roundId → row.actorId ≠ review.actorId
  closed : item.currentRevisionId = item.approvedRevisionId ∨
    ∀ row ∈ store.revisions, item.currentRevisionId = some row.id → row.roundId ≠ revision.roundId

/-- The variant is there, and the review of its revision approved it. -/
def Store.ApprovedVariant (store : Store) (variantId : Uuid) : Prop :=
  ∃ variant ∈ store.variants, variant.id = variantId ∧
    ∃ review ∈ store.reviews, review.revisionId = variant.revisionId ∧ review.decision = .approve

/-- What holds of the revisions, reviews and reports. -/
structure Evidenced (store : Store) : Prop where
  revisions : ∀ id, EventLog.Sound (fun _ revision => revision) NextRevision (store.revisionsOf id)
  current : ∀ a ∈ store.announcements, (store.revisionsOf a.id).getLast?.map (·.id) = a.currentRevisionId
  revised : ∀ r ∈ store.revisions, ∃ a ∈ store.announcements, a.id = r.announcementId
  approved : ∀ a ∈ store.announcements, a.approvedRevisionId ≠ none → ∃ revision review, Approval store a revision review
  reports : ∀ id, EventLog.Sound (fun _ report => report) NextReport (store.reportsOf id)
  reported : ∀ r ∈ store.reports, store.ApprovedVariant r.variantId

structure Sound (store : Store) : Prop extends Evidenced store where
  sequence : ∀ c ∈ store.controls, (store.receiptsIn c.editionId).length = c.sequence
  controlled : ∀ r ∈ store.receipts, ∃ c ∈ store.controls, c.editionId = r.editionId
  version : ∀ a ∈ store.announcements, (store.receiptsOf a.id).length = a.version ∧ a.version ≤ maxHistory
  received : ∀ r ∈ store.receipts, ∀ id, r.announcementId = some id → ∃ a ∈ store.announcements, a.id = id

theorem sound_empty : Sound Store.empty where
  sequence := fun _ hc => absurd hc Table.not_mem_empty
  controlled := fun _ hr => absurd hr Table.not_mem_empty
  version := fun _ ha => absurd ha Table.not_mem_empty
  received := fun _ hr => absurd hr Table.not_mem_empty
  revisions := fun _ => EventLog.Sound.nil
  current := fun _ ha => absurd ha Table.not_mem_empty
  revised := fun _ hr => absurd hr Table.not_mem_empty
  approved := fun _ ha => absurd ha Table.not_mem_empty
  reports := fun _ => EventLog.Sound.nil
  reported := fun _ hr => absurd hr Table.not_mem_empty

/-! ## Rows of one edition, announcement or copy -/

section

variable {store after : Store}

theorem receiptsIn_insert {receipt : AnnouncementCommandReceipt}
    (inserted : store.receipts.insert? receipt = some after.receipts)
    (id : Uuid) : after.receiptsIn id = store.receiptsIn id ++ if receipt.editionId = id then [receipt] else [] := by
  rw [Store.receiptsIn, (Table.insert?_eq_some.mp inserted).2, List.filter_append, Store.receiptsIn]
  by_cases of : receipt.editionId = id <;> simp [of]

theorem receiptsOf_insert {receipt : AnnouncementCommandReceipt}
    (inserted : store.receipts.insert? receipt = some after.receipts)
    (id : Uuid) : after.receiptsOf id =
      store.receiptsOf id ++ if receipt.announcementId = some id then [receipt] else [] := by
  rw [Store.receiptsOf, (Table.insert?_eq_some.mp inserted).2, List.filter_append, Store.receiptsOf]
  by_cases of : receipt.announcementId = some id <;> simp [of]

theorem revisionsOf_insert {revision : AnnouncementRevision}
    (inserted : store.revisions.insert? revision = some after.revisions)
    (id : Uuid) : after.revisionsOf id =
      store.revisionsOf id ++ if revision.announcementId = id then [revision] else [] := by
  rw [Store.revisionsOf, (Table.insert?_eq_some.mp inserted).2, List.filter_append, Store.revisionsOf]
  by_cases of : revision.announcementId = id <;> simp [of]

theorem reportsOf_insert {report : AnnouncementPublicationReport}
    (inserted : store.reports.insert? report = some after.reports)
    (id : Uuid) : after.reportsOf id = store.reportsOf id ++ if report.variantId = id then [report] else [] := by
  rw [Store.reportsOf, (Table.insert?_eq_some.mp inserted).2, List.filter_append, Store.reportsOf]
  by_cases of : report.variantId = id <;> simp [of]

theorem mem_revisionsOf {revision : AnnouncementRevision} {id : Uuid} :
    revision ∈ store.revisionsOf id ↔ revision ∈ store.revisions ∧ revision.announcementId = id := by
  simp [Store.revisionsOf, Table.mem_def]

theorem mem_reportsOf {report : AnnouncementPublicationReport} {id : Uuid} :
    report ∈ store.reportsOf id ↔ report ∈ store.reports ∧ report.variantId = id := by
  simp [Store.reportsOf, Table.mem_def]

end

/-! ## An announcement advances -/

section

variable {store after : Store} {receipt : AnnouncementCommandReceipt} {item saved : Announcement}
  (h : Advances store after receipt item saved)

include h

theorem Advances.mem_iff {a : Announcement} :
    a ∈ after.announcements ↔ (a ∈ store.announcements ∧ a.id ≠ item.id) ∨ a = saved := by
  rw [h.saved, Table.mem_save_of_mem h.mem h.same.1.symm, h.same.1]

/-- Every announcement is still there, itself or as it was saved. -/
theorem Advances.stays {a : Announcement} (ha : a ∈ store.announcements) :
    a ∈ after.announcements ∧ a.id ≠ item.id ∨ a = item ∧ saved ∈ after.announcements := by
  by_cases same : a.id = item.id
  · exact .inr ⟨Table.eq_of_key ha h.mem same, h.mem_iff.mpr (.inr rfl)⟩
  · exact .inl ⟨h.mem_iff.mpr (.inl ⟨ha, same⟩), same⟩

theorem Advances.exists_mem {id : Uuid}
    (found : ∃ a ∈ store.announcements, a.id = id) : ∃ a ∈ after.announcements, a.id = id := by
  obtain ⟨a, ha, rfl⟩ := found
  rcases h.stays ha with ⟨stays, -⟩ | ⟨rfl, stays⟩
  · exact ⟨a, stays, rfl⟩
  · exact ⟨saved, stays, h.same.1⟩

end

/-! ## What each command keeps -/

section

variable {store after : Store} {receipt : AnnouncementCommandReceipt} {opened : Prop}

theorem Approval.kept {item saved : Announcement} {revision : AnnouncementRevision} {review : AnnouncementReview}
    (h : Approval store item revision review) (revisions : after.revisions = store.revisions)
    (reviews : ∀ row ∈ store.reviews, row ∈ after.reviews)
    (same : saved.id = item.id ∧ saved.currentRevisionId = item.currentRevisionId ∧
      saved.approvedRevisionId = item.approvedRevisionId) : Approval after saved revision review where
  written := by
    rw [revisions, same.1, same.2.2]
    exact h.written
  approves := ⟨reviews review h.approves.1, h.approves.2⟩
  independent := by
    rw [revisions, same.1]
    exact h.independent
  closed := by
    rw [revisions, same.2.1, same.2.2]
    exact h.closed

/-- No receipt is of an edition that has no control. -/
theorem Sound.locked {base : Store} (sound : Sound store) (locked : Locked store base) : Sound base := by
  rcases locked with rfl | ⟨control, controls, start, inserted, rfl⟩
  · exact sound
  · refine { sound with
      approved := fun a ha named => ?_, sequence := fun c hc => ?_, controlled := fun r hr => ?_ }
    · obtain ⟨revision, review, approval⟩ := sound.approved a ha named
      exact ⟨revision, review, approval.kept rfl (fun _ mem => mem) ⟨rfl, rfl, rfl⟩⟩
    · rcases (Table.mem_insert? inserted).mp hc with hc | rfl
      · exact sound.sequence c hc
      · have none : store.receiptsIn c.editionId = [] := List.filter_eq_nil_iff.mpr fun r hr same => by
          obtain ⟨other, mem, of⟩ := sound.controlled r hr
          exact (Table.insert?_eq_some.mp inserted).1 other mem (of.trans (of_decide_eq_true same))
        rw [start.1]
        exact congrArg List.length none
    · exact Table.exists_insert? inserted (sound.controlled r hr)

theorem Recorded.sequence (sound : Sound store) (recorded : Recorded store after receipt) :
    ∀ c ∈ after.controls, (after.receiptsIn c.editionId).length = c.sequence := by
  obtain ⟨control, mem, next, same, of, counted, saved⟩ := recorded.control
  intro c hc
  rw [receiptsIn_insert recorded.received, List.length_append]
  rw [saved, Table.mem_save_of_mem mem same.symm, same] at hc
  rcases hc with ⟨hc, other⟩ | rfl
  · rw [sound.sequence c hc, if_neg fun e => other (e.symm.trans of)]
    rfl
  · rw [same, sound.sequence control mem, if_pos of, counted]
    rfl

theorem Recorded.controlled (sound : Sound store) (recorded : Recorded store after receipt) :
    ∀ r ∈ after.receipts, ∃ c ∈ after.controls, c.editionId = r.editionId := by
  obtain ⟨control, mem, next, same, of, -, saved⟩ := recorded.control
  rw [saved]
  intro r hr
  rcases (Table.mem_insert? recorded.received).mp hr with hr | rfl
  · exact Table.exists_save mem same.symm (same.trans ·) (sound.controlled r hr)
  · exact ⟨next, (Table.mem_save_of_mem mem same.symm).mpr (.inr rfl), same.trans of.symm⟩

/-- What a change does to the announcements: nothing, or it adds or advances the one
that its receipt is of. -/
theorem Change.announcements (change : Change opened store after receipt) :
    (receipt.announcementId = none ∧ after.announcements = store.announcements) ∨
      (∃ item, receipt.announcementId = some item.id ∧ item.version = 1 ∧
        store.announcements.insert? item = some after.announcements) ∨
      ∃ item saved, Advances store after receipt item saved := by
  cases change with
  | control of same => exact .inl ⟨of, same.1⟩
  | created _ of inserted first _ _ _ => exact .inr (.inl ⟨_, of.1, first.1, inserted⟩)
  | revised _ advances _ _ _ _ => exact .inr (.inr ⟨_, _, advances⟩)
  | moved advances _ _ _ => exact .inr (.inr ⟨_, _, advances⟩)
  | reviewed _ advances _ _ _ => exact .inr (.inr ⟨_, _, advances⟩)
  | reported advances _ _ _ => exact .inr (.inr ⟨_, _, advances⟩)

theorem Change.stays (change : Change opened store after receipt) {id : Uuid}
    (found : ∃ a ∈ store.announcements, a.id = id) : ∃ a ∈ after.announcements, a.id = id := by
  rcases change.announcements with ⟨-, same⟩ | ⟨item, -, -, inserted⟩ | ⟨item, saved, advances⟩
  · rwa [same]
  · exact Table.exists_insert? inserted found
  · exact advances.exists_mem found

theorem Change.version (sound : Sound store) (recorded : Recorded store after receipt)
    (change : Change opened store after receipt) :
    ∀ a ∈ after.announcements, (after.receiptsOf a.id).length = a.version ∧ a.version ≤ maxHistory := by
  intro a ha
  rw [receiptsOf_insert recorded.received, List.length_append]
  rcases change.announcements with ⟨of, same⟩ | ⟨item, of, first, inserted⟩ | ⟨item, saved, advances⟩
  · rw [of, if_neg (by simp)]
    exact sound.version a (same ▸ ha)
  · simp only [of, Option.some.injEq]
    have fresh := (Table.insert?_eq_some.mp inserted).1
    rcases (Table.mem_insert? inserted).mp ha with ha | rfl
    · rw [if_neg (fresh a ha).symm]
      exact sound.version a ha
    · have none : store.receiptsOf a.id = [] := List.filter_eq_nil_iff.mpr fun r hr same => by
        obtain ⟨other, mem, id⟩ := sound.received r hr a.id (of_decide_eq_true same)
        exact fresh other mem id
      rw [none, if_pos rfl, first]
      exact ⟨rfl, by decide⟩
  · simp only [advances.of.1, Option.some.injEq]
    rcases advances.mem_iff.mp ha with ⟨ha, other⟩ | rfl
    · rw [if_neg (Ne.symm other)]
      exact sound.version a ha
    · rw [advances.same.1, if_pos rfl, (sound.version item advances.mem).1, advances.version.1]
      exact ⟨rfl, advances.version.1 ▸ advances.version.2⟩

theorem Change.received (sound : Sound store) (recorded : Recorded store after receipt)
    (change : Change opened store after receipt) :
    ∀ r ∈ after.receipts, ∀ id, r.announcementId = some id → ∃ a ∈ after.announcements, a.id = id := by
  intro r hr id of
  rcases (Table.mem_insert? recorded.received).mp hr with hr | rfl
  · exact change.stays (sound.received r hr id of)
  · rcases change.announcements with ⟨none, -⟩ | ⟨item, is, -, inserted⟩ | ⟨item, saved, advances⟩
    · rw [none] at of
      cases of
    · exact ⟨item, (Table.mem_insert? inserted).mpr (.inr rfl), Option.some.inj (is.symm.trans of)⟩
    · exact ⟨saved, advances.mem_iff.mpr (.inr rfl),
        advances.same.1.trans (Option.some.inj (advances.of.1.symm.trans of))⟩

end

/-! ## Revisions -/

section

variable {store after : Store} {receipt : AnnouncementCommandReceipt} {opened : Prop}
  {item saved : Announcement} {revision : AnnouncementRevision}

theorem Sound.current?_eq (sound : Sound store) (mem : item ∈ store.announcements) :
    store.current? item = (store.revisionsOf item.id).getLast? := by
  rw [Store.current?, ← sound.current item mem]
  cases last : (store.revisionsOf item.id).getLast? with
  | none => rfl
  | some row => exact Table.get?_eq_some.mpr ⟨(mem_revisionsOf.mp (List.mem_of_getLast? last)).1, rfl⟩

/-- The current revision of an announcement is one of its own. -/
theorem Sound.current_of (sound : Sound store) (mem : item ∈ store.announcements) (written : revision ∈ store.revisions)
    (named : item.currentRevisionId = some revision.id) : revision.announcementId = item.id := by
  rw [← sound.current item mem, Option.map_eq_some_iff] at named
  obtain ⟨row, last, same⟩ := named
  obtain ⟨mem', of⟩ := mem_revisionsOf.mp (List.mem_of_getLast? last)
  exact Table.eq_of_key mem' written same ▸ of

/-- Nothing is written on an announcement that is not there. -/
theorem Sound.revisionsOf_fresh (sound : Sound store) {id : Uuid}
    (fresh : ∀ a ∈ store.announcements, a.id ≠ id) : store.revisionsOf id = [] := by
  refine List.filter_eq_nil_iff.mpr fun row written same => ?_
  obtain ⟨a, mem, of⟩ := sound.revised row written
  exact fresh a mem (of.trans (of_decide_eq_true same))

/-- The new revision is in none of the rounds that were approved. -/
theorem Revises.other_round (revises : Revises store after receipt item revision)
    {approved : AnnouncementRevision} {review : AnnouncementReview}
    (approval : Approval store item approved review) : revision.roundId ≠ approved.roundId := by
  rcases revises.round with fresh | ⟨differs, previous, is, same⟩
  · exact (fresh approved approval.written.1).symm
  · obtain ⟨id, named, found⟩ := Option.bind_eq_some_iff.mp is
    obtain ⟨written, rfl⟩ := Table.get?_eq_some.mp found
    rw [← same]
    exact (approval.closed.resolve_left differs) previous written named

section

variable (sound : Sound store) (revises : Revises store after receipt item revision)

include sound revises

theorem Revises.revisions (followed : store.current? item = (store.revisionsOf item.id).getLast?) (id : Uuid) :
    EventLog.Sound (fun _ revision => revision) NextRevision (after.revisionsOf id) := by
  rw [revisionsOf_insert revises.inserted]
  by_cases of : revision.announcementId = id
  · rw [if_pos of]
    refine (sound.revisions id).concat ?_
    rw [EventLog.replay_last, ← of, revises.of.1, ← followed]
    exact revises.number
  · rw [if_neg of, List.append_nil]
    exact sound.revisions id

theorem Revises.current (items : ∀ a ∈ after.announcements, a ∈ store.announcements ∧
    a.id ≠ item.id ∨ a.id = item.id ∧ a.currentRevisionId = some revision.id) :
    ∀ a ∈ after.announcements, (after.revisionsOf a.id).getLast?.map (·.id) = a.currentRevisionId := by
  intro a ha
  rw [revisionsOf_insert revises.inserted, revises.of.1]
  rcases items a ha with ⟨ha, other⟩ | ⟨same, current⟩
  · rw [if_neg (Ne.symm other), List.append_nil]
    exact sound.current a ha
  · rw [if_pos same.symm, List.getLast?_concat, current]
    rfl

theorem Revises.revised (stays : ∀ id, (∃ a ∈ store.announcements, a.id = id) →
    ∃ a ∈ after.announcements, a.id = id) (there : ∃ a ∈ after.announcements, a.id = item.id) :
    ∀ row ∈ after.revisions, ∃ a ∈ after.announcements, a.id = row.announcementId := by
  intro row written
  rcases (Table.mem_insert? revises.inserted).mp written with written | rfl
  · exact stays _ (sound.revised row written)
  · rwa [revises.of.1]

theorem Revises.approved (items : ∀ a ∈ after.announcements, a ∈ store.announcements ∧ a.id ≠ item.id ∨
      a.id = item.id ∧ a.currentRevisionId = some revision.id ∧ a.approvedRevisionId = item.approvedRevisionId)
    (there : item.approvedRevisionId = none ∨ item ∈ store.announcements) (reviews : after.reviews = store.reviews) :
    ∀ a ∈ after.announcements, a.approvedRevisionId ≠ none → ∃ revision review, Approval after a revision review := by
  have old : ∀ row ∈ store.revisions, row ∈ after.revisions := fun row written =>
    (Table.mem_insert? revises.inserted).mpr (.inl written)
  have absent := (Table.insert?_eq_some.mp revises.inserted).1
  intro a ha named
  rcases items a ha with ⟨ha, other⟩ | ⟨same, current, same'⟩
  · obtain ⟨approved, review, approval⟩ := sound.approved a ha named
    refine ⟨approved, review, ⟨old _ approval.written.1, approval.written.2⟩, reviews ▸ approval.approves,
      fun row written of round => ?_, approval.closed.imp_right fun closed row written is => ?_⟩
    · rcases (Table.mem_insert? revises.inserted).mp written with written | rfl
      · exact approval.independent row written of round
      · exact absurd (of.symm.trans revises.of.1) other
    · rcases (Table.mem_insert? revises.inserted).mp written with written | rfl
      · exact closed row written is
      · -- The current revision of another announcement was there before.
        rw [← sound.current a ha, Option.map_eq_some_iff] at is
        obtain ⟨last, found, id⟩ := is
        exact absurd id (absent last (mem_revisionsOf.mp (List.mem_of_getLast? found)).1)
  · have mem := there.resolve_left (same' ▸ named)
    obtain ⟨approved, review, approval⟩ := sound.approved item mem (same' ▸ named)
    have round := revises.other_round approval
    refine ⟨approved, review, ⟨old _ approval.written.1, approval.written.2.1.trans same.symm,
      same'.trans approval.written.2.2⟩,
      reviews ▸ approval.approves, fun row written of same'' => ?_, .inr fun row written is => ?_⟩
    · rcases (Table.mem_insert? revises.inserted).mp written with written | rfl
      · exact approval.independent row written (of.trans same) same''
      · exact absurd same'' round
    · rcases (Table.mem_insert? revises.inserted).mp written with written | rfl
      · exact absurd (Option.some.inj (current.symm.trans is)).symm (absent row written)
      · exact round

end

end

/-! ## Reviews and reports -/

section

variable {store after : Store} {receipt : AnnouncementCommandReceipt} {opened : Prop} {item saved : Announcement}

theorem Reviews.approved {review : AnnouncementReview} (sound : Sound store)
    (advances : Advances store after receipt item saved) (reviews : Reviews store after receipt item review)
    (current : saved.currentRevisionId = item.currentRevisionId ∧
      (saved.approvedRevisionId = item.approvedRevisionId ∨
        saved.approvedRevisionId = some review.revisionId ∧ review.decision = .approve))
    (revisions : after.revisions = store.revisions) :
    ∀ a ∈ after.announcements, a.approvedRevisionId ≠ none → ∃ revision review, Approval after a revision review := by
  have old : ∀ row ∈ store.reviews, row ∈ after.reviews := fun row written =>
    (Table.mem_insert? reviews.inserted).mpr (.inl written)
  intro a ha named
  rcases advances.mem_iff.mp ha with ⟨ha, -⟩ | rfl
  · obtain ⟨revision, row, approval⟩ := sound.approved a ha named
    exact ⟨revision, row, approval.kept revisions old ⟨rfl, rfl, rfl⟩⟩
  · rcases current with ⟨current, same | ⟨approved, decision⟩⟩
    · obtain ⟨revision, row, approval⟩ := sound.approved item advances.mem (same ▸ named)
      exact ⟨revision, row, approval.kept revisions old ⟨advances.same.1, current, same⟩⟩
    · -- The current revision is approved, by someone who wrote none of its round.
      obtain ⟨revision, written, is, reviewed, independent⟩ := reviews.current
      have of := sound.current_of advances.mem written is
      refine ⟨revision, review, ⟨revisions ▸ written, of.trans advances.same.1.symm, approved.trans (by rw [reviewed])⟩,
        ⟨(Table.mem_insert? reviews.inserted).mpr (.inr rfl), reviewed.symm, decision⟩, ?_,
        .inl (current.trans (is.trans (by rw [approved, reviewed])))⟩
      rw [revisions, advances.same.1]
      exact independent

theorem Store.ApprovedVariant.kept {variantId : Uuid} (h : store.ApprovedVariant variantId)
    (variants : ∀ row ∈ store.variants, row ∈ after.variants) (reviews : ∀ row ∈ store.reviews, row ∈ after.reviews) :
    after.ApprovedVariant variantId := by
  obtain ⟨variant, mem, is, review, written, of, approve⟩ := h
  exact ⟨variant, variants variant mem, is, review, reviews review written, of, approve⟩

section

variable {report : AnnouncementPublicationReport} (sound : Sound store) (adds : Reports store after report)

include sound adds

/-- A report starts the chain of its copy, or replaces the last one. -/
theorem Reports.reports (id : Uuid) : EventLog.Sound (fun _ report => report) NextReport (after.reportsOf id) := by
  rw [reportsOf_insert adds.inserted]
  by_cases of : report.variantId = id
  · rw [if_pos of]
    refine (sound.reports id).concat ?_
    rw [EventLog.replay_last]
    rcases adds.replaces with ⟨first, replaces, -⟩ | ⟨previous, mem, same, replaces, last⟩
    · rw [← of, first]
      exact replaces
    · have unfollowed : ∀ next ∈ store.reportsOf id, ¬ NextReport (some previous) next := fun next mem' follows =>
        last next (mem_reportsOf.mp mem').1 follows
      rw [(sound.reports id).getLast?_of_none (mem_reportsOf.mpr ⟨mem, same.trans of⟩) unfollowed]
      exact replaces
  · rw [if_neg of, List.append_nil]
    exact sound.reports id

theorem Reports.reported (variants : ∀ row ∈ store.variants, row ∈ after.variants)
    (reviews : ∀ row ∈ store.reviews, row ∈ after.reviews) : ∀ r ∈ after.reports, after.ApprovedVariant r.variantId := by
  intro r hr
  rcases (Table.mem_insert? adds.inserted).mp hr with hr | rfl
  · exact (sound.reported r hr).kept variants reviews
  · rcases adds.replaces with ⟨-, -, approved⟩ | ⟨previous, mem, same, -⟩
    · exact Store.ApprovedVariant.kept approved variants reviews
    · exact same ▸ (sound.reported previous mem).kept variants reviews

end

/-! ## A step -/

/-- What a change keeps that leaves the revisions, and the revisions that an announcement names. -/
theorem Evidenced.kept (sound : Sound store) (revisions : after.revisions = store.revisions)
    (stays : ∀ id, (∃ a ∈ store.announcements, a.id = id) → ∃ a ∈ after.announcements, a.id = id)
    (current : ∀ a ∈ after.announcements, ∃ b ∈ store.announcements, a.id = b.id ∧
      a.currentRevisionId = b.currentRevisionId)
    (approved : ∀ a ∈ after.announcements, a.approvedRevisionId ≠ none → ∃ revision review,
      Approval after a revision review)
    (reports : (∀ id, EventLog.Sound (fun _ report => report) NextReport (after.reportsOf id)) ∧
      ∀ r ∈ after.reports, after.ApprovedVariant r.variantId) : Evidenced after where
  revisions := fun id => by
    rw [Store.revisionsOf, revisions]
    exact sound.revisions id
  current := fun a ha => by
    obtain ⟨b, hb, id, same⟩ := current a ha
    rw [Store.revisionsOf, revisions, id, same]
    exact sound.current b hb
  revised := fun row written => stays _ (sound.revised row (revisions ▸ written))
  approved := approved
  reports := reports.1
  reported := reports.2

theorem Sound.reports_same (sound : Sound store) (reports : after.reports = store.reports)
    (variants : ∀ row ∈ store.variants, row ∈ after.variants) (reviews : ∀ row ∈ store.reviews, row ∈ after.reviews) :
    (∀ id, EventLog.Sound (fun _ report => report) NextReport (after.reportsOf id)) ∧
      ∀ r ∈ after.reports, after.ApprovedVariant r.variantId := by
  constructor
  · intro id
    rw [Store.reportsOf, reports]
    exact sound.reports id
  · intro r hr
    exact (sound.reported r (reports ▸ hr)).kept variants reviews

theorem Sound.approved_kept (sound : Sound store) (revisions : after.revisions = store.revisions)
    (reviews : ∀ row ∈ store.reviews, row ∈ after.reviews)
    (same : ∀ a ∈ after.announcements, ∃ b ∈ store.announcements, a.id = b.id ∧
      a.currentRevisionId = b.currentRevisionId ∧ a.approvedRevisionId = b.approvedRevisionId) :
    ∀ a ∈ after.announcements, a.approvedRevisionId ≠ none → ∃ revision review, Approval after a revision review := by
  intro a ha named
  obtain ⟨b, hb, id, current, approved⟩ := same a ha
  obtain ⟨revision, review, approval⟩ := sound.approved b hb (approved ▸ named)
  exact ⟨revision, review, approval.kept revisions reviews ⟨id, current, approved⟩⟩

theorem Advances.from (advances : Advances store after receipt item saved) {P : Announcement → Announcement → Prop}
    (refl : ∀ a, P a a) (of : P saved item) : ∀ a ∈ after.announcements, ∃ b ∈ store.announcements, P a b := by
  intro a ha
  rcases advances.mem_iff.mp ha with ⟨ha, -⟩ | rfl
  · exact ⟨a, ha, refl a⟩
  · exact ⟨item, advances.mem, of⟩

theorem Change.evidenced (sound : Sound store) (change : Change opened store after receipt) : Evidenced after := by
  have stays : ∀ id, (∃ a ∈ store.announcements, a.id = id) → ∃ a ∈ after.announcements, a.id = id :=
    fun _ => change.stays
  cases change with
  | control of same =>
    obtain ⟨announcements, revisions, variants, reviews, reports⟩ := same
    have grow : (∀ row ∈ store.variants, row ∈ after.variants) ∧ ∀ row ∈ store.reviews, row ∈ after.reviews :=
      ⟨fun _ mem => variants ▸ mem, fun _ mem => reviews ▸ mem⟩
    have same : ∀ a ∈ after.announcements, a ∈ store.announcements := fun _ mem => announcements ▸ mem
    exact .kept sound revisions stays (fun a ha => ⟨a, same a ha, rfl, rfl⟩)
      (sound.approved_kept revisions grow.2 fun a ha => ⟨a, same a ha, rfl, rfl, rfl⟩)
      (sound.reports_same reports grow.1 grow.2)
  | @created item revision _ _ inserted first _ revises same =>
    have fresh := (Table.insert?_eq_some.mp inserted).1
    have followed : store.current? { item with currentRevisionId := none } = (store.revisionsOf item.id).getLast? := by
      rw [sound.revisionsOf_fresh fresh]
      rfl
    have items : ∀ a ∈ after.announcements, a ∈ store.announcements ∧ a.id ≠ item.id ∨
        a.id = item.id ∧ a.currentRevisionId = some revision.id ∧ a.approvedRevisionId = item.approvedRevisionId := by
      intro a ha
      rcases (Table.mem_insert? inserted).mp ha with ha | rfl
      · exact .inl ⟨ha, fresh a ha⟩
      · exact .inr ⟨rfl, first.2.2, rfl⟩
    have reports := sound.reports_same same.2 revises.variants fun _ mem => same.1 ▸ mem
    exact {
      revisions := revises.revisions sound followed
      current := revises.current sound fun a ha => (items a ha).imp_right fun is => ⟨is.1, is.2.1⟩
      revised := revises.revised sound stays ⟨item, (Table.mem_insert? inserted).mpr (.inr rfl), rfl⟩
      approved := revises.approved sound items (.inl first.2.1) same.1
      reports := reports.1
      reported := reports.2 }
  | @revised item saved revision _ advances _ current revises same =>
    have items : ∀ a ∈ after.announcements, a ∈ store.announcements ∧ a.id ≠ item.id ∨
        a.id = item.id ∧ a.currentRevisionId = some revision.id ∧ a.approvedRevisionId = item.approvedRevisionId := by
      intro a ha
      rcases advances.mem_iff.mp ha with old | rfl
      · exact .inl old
      · exact .inr ⟨advances.same.1, current⟩
    have reports := sound.reports_same same.2 revises.variants fun _ mem => same.1 ▸ mem
    exact {
      revisions := revises.revisions sound (sound.current?_eq advances.mem)
      current := revises.current sound fun a ha => (items a ha).imp_right fun is => ⟨is.1, is.2.1⟩
      revised := revises.revised sound stays ⟨saved, advances.mem_iff.mpr (.inr rfl), advances.same.1⟩
      approved := revises.approved sound items (.inr advances.mem) same.1
      reports := reports.1
      reported := reports.2 }
  | moved advances _ current same =>
    obtain ⟨revisions, variants, reviews, reports⟩ := same
    have grow : (∀ row ∈ store.variants, row ∈ after.variants) ∧ ∀ row ∈ store.reviews, row ∈ after.reviews :=
      ⟨fun _ mem => variants ▸ mem, fun _ mem => reviews ▸ mem⟩
    exact .kept sound revisions stays
      (advances.from (fun _ => ⟨rfl, rfl⟩) ⟨advances.same.1, current.1⟩)
      (sound.approved_kept revisions grow.2 (advances.from (fun _ => ⟨rfl, rfl, rfl⟩) ⟨advances.same.1, current⟩))
      (sound.reports_same reports grow.1 grow.2)
  | reviewed _ advances current reviews same =>
    obtain ⟨revisions, variants, reports⟩ := same
    have grow : ∀ row ∈ store.variants, row ∈ after.variants := fun _ mem => variants ▸ mem
    have added : ∀ row ∈ store.reviews, row ∈ after.reviews := fun _ mem =>
      (Table.mem_insert? reviews.inserted).mpr (.inl mem)
    exact .kept sound revisions stays (advances.from (fun _ => ⟨rfl, rfl⟩) ⟨advances.same.1, current.1⟩)
      (reviews.approved sound advances current revisions) (sound.reports_same reports grow added)
  | reported advances current adds same =>
    obtain ⟨revisions, variants, reviews⟩ := same
    have grow : (∀ row ∈ store.variants, row ∈ after.variants) ∧ ∀ row ∈ store.reviews, row ∈ after.reviews :=
      ⟨fun _ mem => variants ▸ mem, fun _ mem => reviews ▸ mem⟩
    exact .kept sound revisions stays
      (advances.from (fun _ => ⟨rfl, rfl⟩) ⟨advances.same.1, current.1⟩)
      (sound.approved_kept revisions grow.2
        (advances.from (fun _ => ⟨rfl, rfl, rfl⟩) ⟨advances.same.1, current.1, current.2.1⟩))
      ⟨adds.reports sound, adds.reported sound grow.1 grow.2⟩

theorem Step.sound {editionId : Uuid} (sound : Sound store)
    (step : Step opened editionId store after receipt) : Sound after := by
  obtain ⟨base, locked, recorded, change, -⟩ := step
  have sound := sound.locked locked
  exact { change.evidenced sound with
    sequence := recorded.sequence sound
    controlled := recorded.controlled sound
    version := change.version sound recorded
    received := change.received sound recorded }

end

theorem run_sound (lib : Primitives) (calls : List Call) : Sound ((announcementMachine lib).run Store.empty calls) := by
  refine Machine.run_invariant (I := Sound) (fun store call after result sound h => ?_) sound_empty calls
  obtain ⟨-, receipt, ⟨rfl, -⟩ | step, -⟩ := exec_ok h
  · exact sound
  · exact step.sound sound

end Maru.Announcements

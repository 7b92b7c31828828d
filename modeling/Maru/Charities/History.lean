import Maru.Charities.Public

/-!
# The history of a selection

Over any run, the timeline of a selection is numbered by its versions and its snapshots by its
publications; it is confirmed once, and published only while it is confirmed, by someone else
(`Sound`, `run_sound`). So the public query shows one entry for each published selection of an
active partner, with its last snapshot and those media of it that are approved and unexpired at the
time (`publicCharitiesForEdition_shows`).
-/

namespace Maru.Charities

/-- The media of a snapshot are the partner's, and someone else confirmed the selection. -/
structure Publication (store : Store) (snapshot : CharityPublicationSnapshot) (selection : CharitySelection) : Prop where
  of : selection.id = snapshot.selectionId ∧ selection.organizationId = snapshot.organizationId ∧
    selection.editionId = snapshot.editionId
  confirmed : selection.status = .confirmed
  confirmation : ∃ entry ∈ store.timeline, entry.selectionId = selection.id ∧ entry.confirms ∧
    entry.actorId ≠ snapshot.approvedById
  media : ∀ id ∈ snapshot.mediaIds, ∃ media ∈ store.media, media.id = id ∧
    media.partnerId = selection.partnerId ∧ media.organizationId = selection.organizationId

structure Sound (store : Store) : Prop where
  timeline : ∀ s ∈ store.selections, (store.timelineOf s.id).map (·.sequence) = List.range' 1 s.aggregateVersion
  entries : ∀ e ∈ store.timeline, ∃ s ∈ store.selections, s.id = e.selectionId
  snapshots : ∀ s ∈ store.selections,
    (store.snapshotsOf s.id).map (·.publicationNumber) = List.range' 1 s.publicationNumber
  publications : ∀ p ∈ store.snapshots, ∃ s ∈ store.selections, Publication store p s
  published : ∀ s ∈ store.selections, s.publicationState = .published →
    s.status = .confirmed ∧ 0 < s.publicationNumber ∧
      ∃ edition ∈ store.editions, edition.id = s.editionId ∧ edition.adoptionProfile.hasCharities
  confirmed : ∀ e ∈ store.timeline, e.confirms → ∃ s ∈ store.selections, s.id = e.selectionId ∧ s.status = .confirmed
  once : ∀ e ∈ store.timeline, ∀ e' ∈ store.timeline, e.confirms → e'.confirms → e.selectionId = e'.selectionId → e = e'
  approved : ∀ m ∈ store.media, m.reviewStatus = .approved →
    m.publicReference ≠ "" ∧ ∃ reviewer, m.reviewedById = some reviewer ∧ reviewer ≠ m.submittedById

theorem sound_start (organizations : Table Organization.id) (editions : Table EventEdition.id)
    (departments : Table Department.id) : Sound (Store.start organizations editions departments) where
  timeline := fun _ hs => absurd hs Table.not_mem_empty
  entries := fun _ he => absurd he Table.not_mem_empty
  snapshots := fun _ hs => absurd hs Table.not_mem_empty
  publications := fun _ hp => absurd hp Table.not_mem_empty
  published := fun _ hs => absurd hs Table.not_mem_empty
  confirmed := fun _ he => absurd he Table.not_mem_empty
  once := fun _ he => absurd he Table.not_mem_empty
  approved := fun _ hm => absurd hm Table.not_mem_empty

/-! ## A selection advances -/

section

variable {store after : Store} {selection saved : CharitySelection}
  {entry : CharitySelectionTimelineEntry} {timeline : Table CharitySelectionTimelineEntry.key}

/-- The entries of one selection after another one is inserted. -/
theorem timelineOf_insert (inserted : store.timeline.insert? entry = some timeline) (id : Uuid) :
    (timeline.rows.filter fun e => e.selectionId = id) =
      store.timelineOf id ++ if entry.selectionId = id then [entry] else [] := by
  rw [(Table.insert?_eq_some.mp inserted).2, List.filter_append, Store.timelineOf]
  by_cases of : entry.selectionId = id <;> simp [of]

theorem snapshotsOf_insert {snapshot : CharityPublicationSnapshot} {snapshots : Table CharityPublicationSnapshot.key}
    (inserted : store.snapshots.insert? snapshot = some snapshots) (id : Uuid) :
    (snapshots.rows.filter fun p => p.selectionId = id) =
      store.snapshotsOf id ++ if snapshot.selectionId = id then [snapshot] else [] := by
  rw [(Table.insert?_eq_some.mp inserted).2, List.filter_append, Store.snapshotsOf]
  by_cases of : snapshot.selectionId = id <;> simp [of]

variable (h : Advanced store selection saved entry timeline)

include h

theorem Advanced.mem_iff {s : CharitySelection} :
    s ∈ store.selections.save saved ↔ (s ∈ store.selections ∧ s.id ≠ selection.id) ∨ s = saved := by
  rw [Table.mem_save_of_mem h.mem h.same.1.symm, h.same.1]

/-- Every selection is still there, itself or as it was saved. -/
theorem Advanced.stays {s : CharitySelection} (hs : s ∈ store.selections) :
    s ∈ store.selections.save saved ∧ s.id ≠ selection.id ∨ s = selection ∧ saved ∈ store.selections.save saved := by
  by_cases same : s.id = selection.id
  · exact .inr ⟨Table.eq_of_key hs h.mem same, h.mem_iff.mpr (.inr rfl)⟩
  · exact .inl ⟨h.mem_iff.mpr (.inl ⟨hs, same⟩), same⟩

theorem Advanced.timeline_numbered (sound : Sound store) : ∀ s ∈ store.selections.save saved,
    (timeline.rows.filter fun e => e.selectionId = s.id).map (·.sequence) = List.range' 1 s.aggregateVersion := by
  intro s hs
  rw [timelineOf_insert h.inserted]
  rcases h.mem_iff.mp hs with ⟨hs, other⟩ | rfl
  · rw [if_neg fun of => other (of.symm.trans h.numbered.1), List.append_nil, sound.timeline s hs]
  · rw [h.same.1, if_pos h.numbered.1, List.map_append, sound.timeline selection h.mem,
      List.map_singleton, h.numbered.2, h.version, List.range'_concat, Nat.one_mul, Nat.add_comm 1]

theorem Advanced.entries_of (sound : Sound store) :
    ∀ e ∈ timeline, ∃ s ∈ store.selections.save saved, s.id = e.selectionId := by
  intro e he
  rcases (Table.mem_insert? h.inserted).mp he with he | rfl
  · obtain ⟨s, hs, of⟩ := sound.entries e he
    rcases h.stays hs with ⟨stays, -⟩ | ⟨rfl, stays⟩
    · exact ⟨s, stays, of⟩
    · exact ⟨saved, stays, h.same.1.trans of⟩
  · exact ⟨saved, h.mem_iff.mpr (.inr rfl), h.same.1.trans h.numbered.1.symm⟩

theorem Advanced.snapshots_numbered (sound : Sound store)
    (number : saved.publicationNumber = selection.publicationNumber) :
    ∀ s ∈ store.selections.save saved,
      (store.snapshotsOf s.id).map (·.publicationNumber) = List.range' 1 s.publicationNumber := by
  intro s hs
  rcases h.mem_iff.mp hs with ⟨hs, -⟩ | rfl
  · exact sound.snapshots s hs
  · rw [h.same.1, number]
    exact sound.snapshots selection h.mem

/-- An entry of the old timeline that is asked for is on the new one. -/
theorem Advanced.entered {e : CharitySelectionTimelineEntry} (he : e ∈ store.timeline) : e ∈ timeline :=
  (Table.mem_insert? h.inserted).mpr (.inl he)

/-- What an entry that confirms nothing leaves of the confirmations. -/
theorem Advanced.confirmed_of (sound : Sound store) (status : saved.status = selection.status)
    (other : entry.confirms = false) :
    ∀ e ∈ timeline, e.confirms → ∃ s ∈ store.selections.save saved, s.id = e.selectionId ∧ s.status = .confirmed := by
  intro e he confirms
  rcases (Table.mem_insert? h.inserted).mp he with he | rfl
  · obtain ⟨s, hs, of, is⟩ := sound.confirmed e he confirms
    rcases h.stays hs with ⟨stays, -⟩ | ⟨rfl, stays⟩
    · exact ⟨s, stays, of, is⟩
    · exact ⟨saved, stays, h.same.1.trans of, status.trans is⟩
  · rw [other] at confirms
    cases confirms

/-- A confirmation is entered only where there is none. -/
theorem Advanced.once (sound : Sound store) (first : entry.confirms → selection.status ≠ .confirmed) :
    ∀ e ∈ timeline, ∀ e' ∈ timeline, e.confirms → e'.confirms → e.selectionId = e'.selectionId → e = e' := by
  have clash : ∀ e ∈ store.timeline, e.confirms → entry.confirms → e.selectionId ≠ entry.selectionId := by
    intro e he confirms new of
    obtain ⟨s, hs, id, is⟩ := sound.confirmed e he confirms
    obtain rfl := Table.eq_of_key hs h.mem (id.trans (of.trans h.numbered.1))
    exact first new is
  intro e he e' he' confirms confirms' of
  rcases (Table.mem_insert? h.inserted).mp he with old | rfl
  · rcases (Table.mem_insert? h.inserted).mp he' with old' | rfl
    · exact sound.once e old e' old' confirms confirms' of
    · exact absurd of (clash e old confirms confirms')
  · rcases (Table.mem_insert? h.inserted).mp he' with old' | rfl
    · exact absurd of.symm (clash e' old' confirms' confirms)
    · rfl

end

/-! ## What each step keeps -/

section

variable {store : Store}

/-- A publication of a selection that is saved with what the publication is about. -/
theorem Publication.saved {store after : Store} {p : CharityPublicationSnapshot} {s saved : CharitySelection}
    (h : Publication store p s) (timeline : ∀ e ∈ store.timeline, e ∈ after.timeline) (media : after.media = store.media)
    (same : saved.id = s.id ∧ saved.organizationId = s.organizationId ∧ saved.editionId = s.editionId ∧
      saved.partnerId = s.partnerId) (status : saved.status = s.status) : Publication after p saved where
  of := ⟨same.1.trans h.of.1, same.2.1.trans h.of.2.1, same.2.2.1.trans h.of.2.2⟩
  confirmed := status.trans h.confirmed
  confirmation := by
    obtain ⟨e, he, of, confirms, other⟩ := h.confirmation
    exact ⟨e, timeline e he, of.trans same.1.symm, confirms, other⟩
  media := by
    intro id hid
    obtain ⟨m, hm, is, partner, organization⟩ := h.media id hid
    exact ⟨m, media ▸ hm, is, partner.trans same.2.2.2.symm, organization.trans same.2.1.symm⟩

/-- Media keep who they belong to. -/
theorem Publication.media_saved {store after : Store} {p : CharityPublicationSnapshot}
    {s : CharitySelection} (h : Publication store p s) (timeline : after.timeline = store.timeline)
    (media : ∀ m ∈ store.media, ∃ m' ∈ after.media,
      m'.id = m.id ∧ m'.partnerId = m.partnerId ∧ m'.organizationId = m.organizationId) : Publication after p s where
  of := h.of
  confirmed := h.confirmed
  confirmation := timeline ▸ h.confirmation
  media := by
    intro id hid
    obtain ⟨m, hm, is, partner, organization⟩ := h.media id hid
    obtain ⟨m', hm', is', partner', organization'⟩ := media m hm
    exact ⟨m', hm', is'.trans is, partner'.trans partner, organization'.trans organization⟩

/-- Publications are about selections, the timeline and media only. -/
theorem Sound.publications_same {after : Store} (sound : Sound store) (selections : after.selections = store.selections)
    (snapshots : after.snapshots = store.snapshots) (timeline : after.timeline = store.timeline)
    (media : after.media = store.media) : ∀ p ∈ after.snapshots, ∃ s ∈ after.selections, Publication after p s := by
  rw [snapshots, selections]
  intro p hp
  obtain ⟨s, hs, publication⟩ := sound.publications p hp
  exact ⟨s, hs, publication.saved (fun e he => timeline ▸ he) media ⟨rfl, rfl, rfl, rfl⟩ rfl⟩

theorem sound_mediaAdded {row : CharityPartnerMedia} {media : Table CharityPartnerMedia.id}
    {receipts : Table CharityCommandReceipt.key} (sound : Sound store) (pending : row.reviewStatus = .pending)
    (inserted : store.media.insert? row = some media) : Sound { store with media, receipts } :=
  { sound with
    publications := fun p hp => by
      obtain ⟨s, hs, publication⟩ := sound.publications p hp
      exact ⟨s, hs, publication.media_saved rfl fun m hm =>
        ⟨m, (Table.mem_insert? inserted).mpr (.inl hm), rfl, rfl, rfl⟩⟩
    approved := fun m hm approved => by
      rcases (Table.mem_insert? inserted).mp hm with hm | rfl
      · exact sound.approved m hm approved
      · rw [pending] at approved
        cases approved }

theorem sound_mediaReviewed {row saved : CharityPartnerMedia}
    {receipts : Table CharityCommandReceipt.key} (sound : Sound store) (mem : row ∈ store.media)
    (same : saved.id = row.id ∧ saved.partnerId = row.partnerId ∧ saved.organizationId = row.organizationId)
    (approved : saved.reviewStatus = .approved → saved.publicReference ≠ "" ∧
      ∃ reviewer, saved.reviewedById = some reviewer ∧ reviewer ≠ saved.submittedById) :
    Sound { store with media := store.media.save saved, receipts } :=
  { sound with
    publications := fun p hp => by
      obtain ⟨s, hs, publication⟩ := sound.publications p hp
      refine ⟨s, hs, publication.media_saved rfl fun m hm => ?_⟩
      rcases Table.mem_save_or (r := saved) hm with kept | id
      · exact ⟨m, kept, rfl, rfl, rfl⟩
      · obtain rfl := Table.eq_of_key hm mem (id.trans same.1)
        exact ⟨saved, Table.mem_save.mpr (.inr ⟨rfl, m, hm, id⟩), same⟩
    approved := fun m hm is => by
      rcases (Table.mem_save_of_mem mem same.1.symm).mp hm with ⟨hm, -⟩ | rfl
      · exact sound.approved m hm is
      · exact approved is }

theorem sound_proposed {selection : CharitySelection} {entry : CharitySelectionTimelineEntry}
    {selections : Table CharitySelection.id} {timeline : Table CharitySelectionTimelineEntry.key}
    {receipts : Table CharityCommandReceipt.key} (sound : Sound store)
    (unpublished : selection.publicationState = .unpublished ∧ selection.publicationNumber = 0)
    (version : selection.aggregateVersion = 1) (inserted : store.selections.insert? selection = some selections)
    (entered : store.timeline.insert? entry = some timeline)
    (of : entry.selectionId = selection.id ∧ entry.sequence = 1) (other : entry.confirms = false) :
    Sound { store with selections, timeline, receipts } := by
  have fresh := (Table.insert?_eq_some.mp inserted).1
  have old : ∀ s ∈ store.selections, s ∈ selections := fun s hs => (Table.mem_insert? inserted).mpr (.inl hs)
  have kept : ∀ e ∈ store.timeline, e ∈ timeline := fun e he => (Table.mem_insert? entered).mpr (.inl he)
  have confirms : ∀ e ∈ timeline, e.confirms → e ∈ store.timeline := by
    intro e he confirms
    rcases (Table.mem_insert? entered).mp he with he | rfl
    · exact he
    · rw [other] at confirms
      cases confirms
  refine {
    timeline := fun s hs => ?_
    entries := fun e he => ?_
    snapshots := fun s hs => ?_
    publications := fun p hp => ?_
    published := fun s hs is => ?_
    confirmed := fun e he is => ?_
    once := fun e he e' he' is is' => sound.once e (confirms e he is) e' (confirms e' he' is') is is'
    approved := sound.approved }
  · show (timeline.rows.filter fun e => e.selectionId = s.id).map _ = _
    rw [timelineOf_insert entered]
    rcases (Table.mem_insert? inserted).mp hs with hs | rfl
    · rw [if_neg fun same => fresh s hs (same.symm.trans of.1), List.append_nil, sound.timeline s hs]
    · -- No entry is of a selection that was not there.
      have none : store.timelineOf s.id = [] := List.filter_eq_nil_iff.mpr fun e he same => by
        obtain ⟨s', hs', id⟩ := sound.entries e he
        exact fresh s' hs' (id.trans (of_decide_eq_true same))
      rw [none, if_pos of.1, version]
      simp [of.2]
  · rcases (Table.mem_insert? entered).mp he with he | rfl
    · obtain ⟨s, hs, id⟩ := sound.entries e he
      exact ⟨s, old s hs, id⟩
    · exact ⟨selection, (Table.mem_insert? inserted).mpr (.inr rfl), of.1.symm⟩
  · rcases (Table.mem_insert? inserted).mp hs with hs | rfl
    · exact sound.snapshots s hs
    · have none : store.snapshotsOf s.id = [] := List.filter_eq_nil_iff.mpr fun p hp same => by
        obtain ⟨s', hs', publication⟩ := sound.publications p hp
        exact fresh s' hs' (publication.of.1.trans (of_decide_eq_true same))
      show (store.snapshotsOf s.id).map _ = _
      rw [none, unpublished.2]
      rfl
  · obtain ⟨s, hs, publication⟩ := sound.publications p hp
    exact ⟨s, old s hs, publication.saved kept rfl ⟨rfl, rfl, rfl, rfl⟩ rfl⟩
  · rcases (Table.mem_insert? inserted).mp hs with hs | rfl
    · exact sound.published s hs is
    · rw [unpublished.1] at is
      cases is
  · obtain ⟨s, hs, id, status⟩ := sound.confirmed e (confirms e he is) is
    exact ⟨s, old s hs, id, status⟩

theorem Status.Moves.not_confirmed {status status' : Status} (h : status.Moves status') : status ≠ .confirmed := by
  cases h <;> decide

section

variable {selection saved : CharitySelection} {entry : CharitySelectionTimelineEntry}
  {timeline : Table CharitySelectionTimelineEntry.key} {receipts : Table CharityCommandReceipt.key}

theorem sound_moved (sound : Sound store) (advanced : Advanced store selection saved entry timeline)
    (moves : selection.status.Moves saved.status)
    (state : saved.publicationState = selection.publicationState ∧
      saved.publicationNumber = selection.publicationNumber)
    (decides : entry.confirms ↔ saved.status = .confirmed) :
    Sound { store with selections := store.selections.save saved, timeline, receipts } where
  timeline := advanced.timeline_numbered sound
  entries := advanced.entries_of sound
  snapshots := advanced.snapshots_numbered sound state.2
  publications := by
    intro p hp
    obtain ⟨s, hs, publication⟩ := sound.publications p hp
    rcases advanced.stays hs with ⟨stays, -⟩ | ⟨rfl, -⟩
    · exact ⟨s, stays, publication.saved (fun e he => advanced.entered he) rfl ⟨rfl, rfl, rfl, rfl⟩ rfl⟩
    · exact absurd publication.confirmed moves.not_confirmed
  published := by
    intro s hs is
    rcases advanced.mem_iff.mp hs with ⟨hs, -⟩ | rfl
    · exact sound.published s hs is
    · exact absurd (sound.published selection advanced.mem (state.1.symm.trans is)).1 moves.not_confirmed
  confirmed := by
    intro e he confirms
    rcases (Table.mem_insert? advanced.inserted).mp he with he | rfl
    · obtain ⟨s, hs, of, is⟩ := sound.confirmed e he confirms
      rcases advanced.stays hs with ⟨stays, -⟩ | ⟨rfl, -⟩
      · exact ⟨s, stays, of, is⟩
      · exact absurd is moves.not_confirmed
    · exact ⟨saved, advanced.mem_iff.mpr (.inr rfl), advanced.same.1.trans advanced.numbered.1.symm, decides.mp confirms⟩
  once := advanced.once sound fun _ => moves.not_confirmed
  approved := sound.approved

theorem sound_kept (sound : Sound store) (advanced : Advanced store selection saved entry timeline)
    (status : saved.status = selection.status) (number : saved.publicationNumber = selection.publicationNumber)
    (state : saved.publicationState = .published → selection.publicationState = .published)
    (other : entry.confirms = false) :
    Sound { store with selections := store.selections.save saved, timeline, receipts } where
  timeline := advanced.timeline_numbered sound
  entries := advanced.entries_of sound
  snapshots := advanced.snapshots_numbered sound number
  publications := by
    intro p hp
    obtain ⟨s, hs, publication⟩ := sound.publications p hp
    rcases advanced.stays hs with ⟨stays, -⟩ | ⟨rfl, stays⟩
    · exact ⟨s, stays, publication.saved (fun e he => advanced.entered he) rfl ⟨rfl, rfl, rfl, rfl⟩ rfl⟩
    · exact ⟨saved, stays, publication.saved (fun e he => advanced.entered he) rfl advanced.same status⟩
  published := by
    intro s hs is
    rcases advanced.mem_iff.mp hs with ⟨hs, -⟩ | rfl
    · exact sound.published s hs is
    · obtain ⟨confirmed, positive, adopted⟩ := sound.published selection advanced.mem (state is)
      rw [status, number, advanced.same.2.2.1]
      exact ⟨confirmed, positive, adopted⟩
  confirmed := advanced.confirmed_of sound status other
  once := advanced.once sound fun confirms => by
    rw [other] at confirms
    cases confirms
  approved := sound.approved

theorem sound_published {snapshot : CharityPublicationSnapshot} {snapshots : Table CharityPublicationSnapshot.key}
    (sound : Sound store) (advanced : Advanced store selection saved entry timeline)
    (publishes : Publishes store selection saved snapshot) (inserted : store.snapshots.insert? snapshot = some snapshots)
    (other : entry.confirms = false) :
    Sound { store with selections := store.selections.save saved, timeline, snapshots, receipts } where
  timeline := advanced.timeline_numbered sound
  entries := advanced.entries_of sound
  snapshots := by
    intro s hs
    show (snapshots.rows.filter fun p => p.selectionId = s.id).map _ = _
    rw [snapshotsOf_insert inserted]
    rcases advanced.mem_iff.mp hs with ⟨hs, different⟩ | rfl
    · rw [if_neg fun of => different (of.symm.trans publishes.of.1), List.append_nil, sound.snapshots s hs]
    · rw [advanced.same.1, if_pos publishes.of.1, List.map_append, sound.snapshots selection advanced.mem,
        List.map_singleton, publishes.of.2.2.2, publishes.number, List.range'_concat, Nat.one_mul, Nat.add_comm 1]
  publications := by
    have status := publishes.status.2.trans publishes.status.1.symm
    have entered := fun e (he : e ∈ store.timeline) => advanced.entered he
    intro p hp
    rcases (Table.mem_insert? inserted).mp hp with hp | rfl
    · obtain ⟨s, hs, publication⟩ := sound.publications p hp
      rcases advanced.stays hs with ⟨stays, -⟩ | ⟨rfl, stays⟩
      · exact ⟨s, stays, publication.saved entered rfl ⟨rfl, rfl, rfl, rfl⟩ rfl⟩
      · exact ⟨saved, stays, publication.saved entered rfl advanced.same status⟩
    · have publication : Publication store p selection :=
        ⟨⟨publishes.of.1.symm, publishes.of.2.1.symm, publishes.of.2.2.1.symm⟩, publishes.status.1,
          publishes.confirmed, publishes.media⟩
      exact ⟨saved, advanced.mem_iff.mpr (.inr rfl), publication.saved entered rfl advanced.same status⟩
  published := by
    intro s hs is
    rcases advanced.mem_iff.mp hs with ⟨hs, -⟩ | rfl
    · exact sound.published s hs is
    · rw [publishes.number, advanced.same.2.2.1]
      exact ⟨publishes.status.2, Nat.succ_pos _, publishes.adopted⟩
  confirmed := advanced.confirmed_of sound (publishes.status.2.trans publishes.status.1.symm) other
  once := advanced.once sound fun confirms => by
    rw [other] at confirms
    cases confirms
  approved := sound.approved

end

theorem Step.sound {after : Store} (step : Step store after) (sound : Sound store) : Sound after := by
  cases step with
  | partnerAdded _ => exact { sound with publications := sound.publications_same rfl rfl rfl rfl }
  | partnerSaved _ _ => exact { sound with publications := sound.publications_same rfl rfl rfl rfl }
  | mediaAdded pending inserted => exact sound_mediaAdded sound pending inserted
  | mediaReviewed mem same approved => exact sound_mediaReviewed sound mem same approved
  | proposed _ unpublished version inserted entered of other =>
    exact sound_proposed sound unpublished version inserted entered of other
  | moved advanced moves publication decides => exact sound_moved sound advanced moves publication decides
  | kept advanced status number state other => exact sound_kept sound advanced status number state other
  | published advanced publishes inserted other => exact sound_published sound advanced publishes inserted other
  | elsewhere adopted =>
    refine { sound with publications := sound.publications_same rfl rfl rfl rfl, published := fun s hs is => ?_ }
    obtain ⟨confirmed, positive, edition, mem, of, has⟩ := sound.published s hs is
    obtain ⟨row, written, id, has'⟩ := adopted edition mem has
    exact ⟨confirmed, positive, row, written, id.trans of, has'⟩

end

variable {lib : Primitives}

theorem run_sound (organizations : Table Organization.id) (editions : Table EventEdition.id)
    (departments : Table Department.id) (events : List Event) :
    Sound ((charityMachine lib).run (Store.start organizations editions departments) events) := by
  refine Machine.run_invariant (I := Sound) (fun store event after answer sound h => ?_)
    (sound_start organizations editions departments) events
  rcases exec_step h with rfl | step
  · exact sound
  · exact step.sound sound

end Maru.Charities

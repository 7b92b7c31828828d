import Maru.Charities.History

/-!
# What the public sees

The public query over a sound store: one entry for each published selection of an active partner,
with its last snapshot and those of its media that are approved and unexpired at the time, so what
is withdrawn, retired or expired is gone at once (`publicCharitiesForEdition_shows`).
-/

namespace Maru.Charities

/-! ## One step -/

/-- Selections stay and move along their statuses only; timelines and snapshots are only added to.
-/
structure Evolves (store after : Store) : Prop where
  stays : ∀ s ∈ store.selections, ∃ s' ∈ after.selections,
    s'.id = s.id ∧ (s'.status = s.status ∨ s.status.Moves s'.status)
  fresh : ∀ s' ∈ after.selections, (∀ s ∈ store.selections, s.id ≠ s'.id) → s'.status = .proposed
  timeline : store.timeline.rows <+: after.timeline.rows
  snapshots : store.snapshots.rows <+: after.snapshots.rows

section

variable {store after : Store}

theorem Evolves.refl (store : Store) : Evolves store store where
  stays := fun s hs => ⟨s, hs, rfl, .inl rfl⟩
  fresh := fun s hs new => absurd rfl (new s hs)
  timeline := List.prefix_rfl
  snapshots := List.prefix_rfl

end

/-! ## The public query -/

namespace Store

variable (store : Store)

/-- The published confirmed selections of active partners in an edition. -/
def shownSelections (organizationId editionId : Uuid) : List CharitySelection :=
  store.selections.rows.filter fun selection =>
    selection.organizationId = organizationId ∧ selection.editionId = editionId ∧ selection.status =
      .confirmed ∧ selection.publicationState = .published ∧ store.partnerActive selection

/-- Those of the media that are approved and unexpired at an instant. -/
def shownMedia (instant : Int) (mediaIds : List Uuid) : List PublicCharityMedia :=
  mediaIds.filterMap fun id =>
    ((store.media.get? id).filter fun media =>
      media.reviewStatus = .approved ∧ media.unexpired instant).map CharityPartnerMedia.shown

/-- The entry has the content of the selection's last snapshot. -/
def Shows (instant : Int) (selection : CharitySelection) (entry : PublicCharity) : Prop :=
  ∃ snapshot, (store.snapshotsOf selection.id).getLast? = some snapshot ∧
    entry = ⟨selection.id, snapshot.publicName, snapshot.imprintName, snapshot.shortDescription, snapshot.locationName,
      snapshot.countryCode, snapshot.websiteUrl, store.shownMedia instant snapshot.mediaIds⟩

end Store

section

variable {store : Store} {organizationId editionId : Uuid}

theorem publishedSelections_eq (sound : Sound store) :
    store.publishedSelections organizationId editionId = store.shownSelections organizationId editionId := by
  refine List.filter_congr fun selection mem => decide_eq_decide.mpr ⟨fun h => ?_, fun h => ?_⟩
  · obtain ⟨-, organization, edition, confirmed, published, -, active⟩ := h
    exact ⟨organization, edition, confirmed, published, active⟩
  · obtain ⟨organization, edition, confirmed, published, active⟩ := h
    obtain ⟨-, positive, row, written, id, has⟩ := sound.published selection mem published
    refine ⟨?_, organization, edition, confirmed, published, positive, active⟩
    rw [Table.get?_eq_some.mpr ⟨written, id⟩]
    exact has

/-- A published selection has a last snapshot, which has its publication number. -/
theorem last_snapshot (sound : Sound store) {selection : CharitySelection}
    (mem : selection ∈ store.selections) (published : selection.publicationState = .published) :
    ∃ snapshot ∈ store.snapshots, (store.snapshotsOf selection.id).getLast? = some snapshot ∧
      snapshot.selectionId = selection.id ∧ snapshot.publicationNumber = selection.publicationNumber := by
  obtain ⟨-, positive, -⟩ := sound.published selection mem published
  have numbers := sound.snapshots selection mem
  cases last : (store.snapshotsOf selection.id).getLast? with
  | none =>
    have := congrArg List.length numbers
    rw [List.getLast?_eq_none_iff.mp last, List.length_range'] at this
    simp at this
    omega
  | some snapshot =>
    have listed := List.mem_of_getLast? last
    have ⟨written, of⟩ := List.mem_filter.mp listed
    refine ⟨snapshot, written, rfl, of_decide_eq_true of, ?_⟩
    have number := congrArg List.getLast? numbers
    rw [List.getLast?_map, last, List.getLast?_range', if_neg (by omega)] at number
    simp at number
    omega

/-- What the query projects of a shown selection. -/
theorem projected_shows (sound : Sound store) {selection : CharitySelection} (mem : selection ∈ store.selections)
    (of : selection.organizationId = organizationId ∧ selection.editionId = editionId)
    (published : selection.publicationState = .published) (instant : Int) :
    ∃ entry, store.projected organizationId editionId instant selection = some entry ∧
      store.Shows instant selection entry := by
  obtain ⟨snapshot, written, last, selectionId, number⟩ := last_snapshot sound mem published
  obtain ⟨s, hs, publication⟩ := sound.publications snapshot written
  obtain rfl := Table.eq_of_key hs mem (publication.of.1.trans selectionId)
  have current : store.currentSnapshot? organizationId editionId s = some snapshot := by
    rw [Store.currentSnapshot?, Option.filter_eq_some_iff, Table.get?_eq_some]
    refine ⟨⟨written, ?_⟩, ?_⟩
    · rw [CharityPublicationSnapshot.key, selectionId, number]
    · simp only [decide_eq_true_eq]
      exact ⟨publication.of.2.1.symm.trans of.1, publication.of.2.2.symm.trans of.2⟩
  refine ⟨snapshot.shown (store.shownMedia instant snapshot.mediaIds), ?_, snapshot, last,
    by simp only [CharityPublicationSnapshot.shown, selectionId]⟩
  rw [Store.projected, current, Option.map_some]
  refine congrArg (fun media => some (snapshot.shown media)) (List.filterMap_congr fun id listed =>
    congrArg (Option.map CharityPartnerMedia.shown) ?_)
  -- The other conditions hold of every approved medium of the snapshot.
  obtain ⟨media, row, is, partner, organization⟩ := publication.media id listed
  rw [Store.publicMedia?, Table.get?_eq_some.mpr ⟨row, is⟩]
  by_cases approved : media.reviewStatus = .approved
  · have reference := (sound.approved media row approved).1
    by_cases unexpired : media.unexpired instant <;>
      simp [Option.filter, approved, reference, unexpired, partner, organization, of.1]
  · simp [Option.filter, approved]

/-- One entry for each shown selection, in some order. -/
theorem publicCharitiesForEdition_shows (sound : Sound store) (lib : Primitives)
    (organizationId editionId : Uuid) (instant : Int) : ∃ selections, selections.Perm
      (store.shownSelections organizationId editionId) ∧ List.Forall₂ (store.Shows instant)
        selections (store.publicCharitiesForEdition lib organizationId editionId instant) := by
  rw [Store.publicCharitiesForEdition, publishedSelections_eq sound]
  have perm := sortBy_perm (fun s : CharitySelection => toLex (store.partnerName lib s, s.id))
    (store.shownSelections organizationId editionId)
  refine ⟨_, perm, ?_⟩
  revert perm
  generalize sortBy (fun s : CharitySelection => toLex (store.partnerName lib s, s.id))
    (store.shownSelections organizationId editionId) = selections
  intro perm
  have shown : ∀ s ∈ selections, ∃ entry,
      store.projected organizationId editionId instant s = some entry ∧ store.Shows instant s entry := by
    intro s hs
    have ⟨mem, is⟩ := List.mem_filter.mp (perm.mem_iff.mp hs)
    simp only [decide_eq_true_eq] at is
    exact projected_shows sound mem ⟨is.1, is.2.1⟩ is.2.2.2.1 instant
  clear perm
  induction selections with
  | nil => exact .nil
  | cons s rest ih =>
    obtain ⟨entry, projected, shows⟩ := shown s List.mem_cons_self
    rw [List.filterMap_cons_some projected]
    exact .cons shows (ih fun s hs => shown s (List.mem_cons_of_mem _ hs))

end

/-! ## Lawful stores -/

/-- What the rows of the charities tell in every state. -/
structure Lawful (lib : Primitives) (store : Store) : Prop where
  /-- Timelines are numbered by versions. -/
  numbered : ∀ s ∈ store.selections, (store.timelineOf s.id).map (·.sequence) = List.range' 1 s.aggregateVersion
  /-- The publication number counts the snapshots. -/
  counted : ∀ s ∈ store.selections, (store.snapshotsOf s.id).length = s.publicationNumber
  /-- What was published was confirmed, by someone else. -/
  independent : ∀ s ∈ store.selections, ∀ p ∈ store.snapshotsOf s.id, s.status = .confirmed ∧
    (∃ e ∈ store.timelineOf s.id, e.confirms) ∧ ∀ e ∈ store.timelineOf s.id, e.confirms → e.actorId ≠ p.approvedById
  published : ∀ s ∈ store.selections, s.publicationState = .published →
    s.status = .confirmed ∧ store.snapshotsOf s.id ≠ []
  approved : ∀ m ∈ store.media, m.reviewStatus = .approved →
    ∃ reviewer, m.reviewedById = some reviewer ∧ reviewer ≠ m.submittedById
  /-- The public query at any time. -/
  shown : ∀ organizationId editionId instant,
    ((store.publicCharitiesForEdition lib organizationId editionId instant).map (·.selectionId)).Nodup ∧
      ∃ selections, selections.Perm (store.shownSelections organizationId editionId) ∧
        List.Forall₂ (store.Shows instant) selections
          (store.publicCharitiesForEdition lib organizationId editionId instant)

theorem Sound.lawful {store : Store} (sound : Sound store) (lib : Primitives) : Lawful lib store where
  numbered := sound.timeline
  counted := fun s hs => by
    have := congrArg List.length (sound.snapshots s hs)
    simpa using this
  independent := fun s hs p hp => by
    have ⟨written, of⟩ := List.mem_filter.mp hp
    obtain ⟨s', hs', publication⟩ := sound.publications p written
    obtain rfl := Table.eq_of_key hs' hs (publication.of.1.trans (of_decide_eq_true of))
    obtain ⟨e, he, on, confirms, other⟩ := publication.confirmation
    refine ⟨publication.confirmed, ⟨e, List.mem_filter.mpr ⟨he, decide_eq_true on⟩, confirms⟩,
      fun e' he' confirms' => ?_⟩
    have ⟨he', on'⟩ := List.mem_filter.mp he'
    rw [sound.once e' he' e he confirms' confirms ((of_decide_eq_true on').trans on.symm)]
    exact other
  published := fun s hs is => by
    obtain ⟨snapshot, -, last, -⟩ := last_snapshot sound hs is
    exact ⟨(sound.published s hs is).1, fun none => by simp [none] at last⟩
  approved := fun m hm is => (sound.approved m hm is).2
  shown := fun organizationId editionId instant => by
    obtain ⟨selections, perm, shows⟩ := publicCharitiesForEdition_shows sound lib organizationId editionId instant
    refine ⟨?_, selections, perm, shows⟩
    have ids : selections.map CharitySelection.id =
        (store.publicCharitiesForEdition lib organizationId editionId instant).map (·.selectionId) :=
      map_eq_of_forall₂ (fun s entry ⟨_, _, is⟩ => by rw [is]) shows
    rw [← ids, (perm.map _).nodup_iff]
    exact store.selections.nodup.sublist (List.filter_sublist.map _)

end Maru.Charities

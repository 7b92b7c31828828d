import Maru.Charities.Commands
import Maru.Framework.Machine

/-!
# What a charity command writes

A command that commits writes nothing, because its key has a receipt, or makes one of the writes of
`Step`. Around the commands, organizations, editions and departments change too (`Elsewhere`); the
adoption profile of an edition changes only from announcements to announcements with guidance.
-/

namespace Maru.Charities

/-! ## The machine -/

inductive Command
  | createPartner (slug : String) (profile : CharityPartnerProfile) (reason : String)
  | updatePartner (partnerId : Uuid) (expectedVersion : Int) (changes : List (PartnerField × String)) (reason : String)
  | addMedia (partnerId : Uuid) (values : Store.MediaValues) (reason : String)
  | approveMedia (partnerId mediaId : Uuid) (expectedVersion : Int) (publicReference reason : String)
  | withdrawMedia (partnerId mediaId : Uuid) (expectedVersion : Int) (reason : String)
  | proposeSelection (editionId partnerId responsibleDepartmentId : Uuid) (reason : String)
  | submitSelection (editionId selectionId : Uuid) (expectedVersion : Int) (reason : String)
  | confirmSelection (editionId selectionId : Uuid) (expectedVersion : Int) (reason : String)
  | rejectSelection (editionId selectionId : Uuid) (expectedVersion : Int) (reason : String)
  | commentSelection (editionId selectionId : Uuid) (expectedVersion : Int) (privateComment : String)
  | publishSelection (editionId selectionId : Uuid) (expectedVersion : Int) (mediaIds : List Uuid) (reason : String)
  | withdrawPublication (editionId selectionId : Uuid) (expectedVersion : Int) (reason : String)

/-- What other modules write: a new row, or one over the row that has its key. -/
inductive Elsewhere
  | organization (row : Organization)
  | edition (row : EventEdition)
  | department (row : Department)

inductive Event
  | command (surroundings : Surroundings) (request : Request) (command : Command)
  | elsewhere (change : Elsewhere)

/-- `maru_validate_edition_aggregate_version`: an edition keeps its organization, and its adoption
profile but for the one accepted expansion. -/
def EventEdition.mayBecome (edition row : EventEdition) : Prop :=
  row.organizationId = edition.organizationId ∧
    (row.adoptionProfile = edition.adoptionProfile ∨
      edition.adoptionProfile = .announcementsOnly ∧ row.adoptionProfile = .announcementsGuidance)

instance EventEdition.instDecidableMayBecome (edition row : EventEdition) : Decidable (edition.mayBecome row) := by
  unfold EventEdition.mayBecome
  infer_instance

namespace Store

variable (store : Store)

/-- Insert the row, or save it over the one that has its key. -/
def put {ρ : Type} {key : ρ → Uuid} (table : Table key) (row : ρ) : Table key :=
  (table.insert? row).getD (table.save row)

def elsewhere : Elsewhere → Except CharityError Store
  | .organization row => .ok { store with organizations := put store.organizations row }
  | .edition row => do
    require (∀ edition ∈ store.editions.rows, edition.id = row.id → edition.mayBecome row)
      (.refused "adoption profile is immutable")
    return { store with editions := put store.editions row }
  | .department row => .ok { store with departments := put store.departments row }

def execute (lib : Primitives) (sur : Surroundings) (request : Request) :
    Command → Except CharityError (Store × CharityCommandResult)
  | .createPartner slug profile reason => store.createCharityPartner lib sur request slug profile reason
  | .updatePartner partnerId version changes reason =>
    store.updateCharityPartner lib sur request partnerId version changes reason
  | .addMedia partnerId values reason => store.addCharityPartnerMedia lib sur request partnerId values reason
  | .approveMedia partnerId mediaId version publicReference reason =>
    store.approveCharityPartnerMedia lib sur request partnerId mediaId version publicReference reason
  | .withdrawMedia partnerId mediaId version reason =>
    store.withdrawCharityPartnerMedia lib sur request partnerId mediaId version reason
  | .proposeSelection editionId partnerId departmentId reason =>
    store.proposeCharitySelection lib sur request editionId partnerId departmentId reason
  | .submitSelection editionId selectionId version reason =>
    store.submitCharitySelection lib sur request editionId selectionId version reason
  | .confirmSelection editionId selectionId version reason =>
    store.confirmCharitySelection lib sur request editionId selectionId version reason
  | .rejectSelection editionId selectionId version reason =>
    store.rejectCharitySelection lib sur request editionId selectionId version reason
  | .commentSelection editionId selectionId version privateComment =>
    store.addCharitySelectionPrivateComment lib sur request editionId selectionId version privateComment
  | .publishSelection editionId selectionId version mediaIds reason =>
    store.publishCharitySelection lib sur request editionId selectionId version mediaIds reason
  | .withdrawPublication editionId selectionId version reason =>
    store.withdrawCharitySelectionPublication lib sur request editionId selectionId version reason

/-- The answer of a command; a change elsewhere has none. -/
def exec (lib : Primitives) : Event → Except CharityError (Store × Option CharityCommandResult)
  | .command sur request command => do
    let (store, result) ← store.execute lib sur request command
    return (store, some result)
  | .elsewhere change => do
    return (← store.elsewhere change, none)

/-- No charity records yet. -/
def start (organizations : Table Organization.id) (editions : Table EventEdition.id)
    (departments : Table Department.id) : Store where
  organizations := organizations
  editions := editions
  departments := departments
  partners := ∅
  media := ∅
  selections := ∅
  timeline := ∅
  snapshots := ∅
  receipts := ∅

end Store

def charityMachine (lib : Primitives) : Machine Store Event (Option CharityCommandResult) CharityError where
  exec store event := store.exec lib event

/-! ## Steps -/

/-- Where a selection's status moves. -/
inductive Status.Moves : Status → Status → Prop
  | submit : Moves .proposed .submitted
  | confirm : Moves .submitted .confirmed
  | reject : Moves .submitted .rejected

/-- A selection has its next version, and the entry of that number is on its timeline. -/
structure Advanced (store : Store) (selection saved : CharitySelection) (entry : CharitySelectionTimelineEntry)
    (timeline : Table CharitySelectionTimelineEntry.key) : Prop where
  mem : selection ∈ store.selections
  same : saved.id = selection.id ∧ saved.organizationId = selection.organizationId ∧
    saved.editionId = selection.editionId ∧ saved.partnerId = selection.partnerId
  version : saved.aggregateVersion = selection.aggregateVersion + 1
  numbered : entry.selectionId = selection.id ∧ entry.sequence = saved.aggregateVersion
  inserted : store.timeline.insert? entry = some timeline

/-- An entry that records a confirmation. -/
def CharitySelectionTimelineEntry.confirms (entry : CharitySelectionTimelineEntry) : Bool :=
  entry.kind = .status ∧ entry.toStatus = some .confirmed

/-- A snapshot of media that the partner of the selection has, by someone who confirmed none of it.
-/
structure Publishes (store : Store) (selection saved : CharitySelection)
    (snapshot : CharityPublicationSnapshot) : Prop where
  status : selection.status = .confirmed ∧ saved.status = .confirmed
  state : saved.publicationState = .published
  number : saved.publicationNumber = selection.publicationNumber + 1
  of : snapshot.selectionId = selection.id ∧ snapshot.organizationId = selection.organizationId ∧
    snapshot.editionId = selection.editionId ∧ snapshot.publicationNumber = saved.publicationNumber
  adopted : ∃ edition ∈ store.editions, edition.id = selection.editionId ∧ edition.adoptionProfile.hasCharities
  confirmed : ∃ entry ∈ store.timeline, entry.selectionId = selection.id ∧ entry.confirms ∧
    entry.actorId ≠ snapshot.approvedById
  media : ∀ id ∈ snapshot.mediaIds, ∃ media ∈ store.media, media.id = id ∧
    media.partnerId = selection.partnerId ∧ media.organizationId = selection.organizationId

/-- What a command that is not a repeat writes, and what is written elsewhere. -/
inductive Step (store : Store) : Store → Prop
  | partnerAdded {partner : CharityPartner} {partners : Table CharityPartner.id}
      {receipts : Table CharityCommandReceipt.key} (inserted : store.partners.insert? partner = some partners) :
      Step store { store with partners, receipts }
  | partnerSaved {partner saved : CharityPartner} {receipts : Table CharityCommandReceipt.key}
      (mem : partner ∈ store.partners)
      (same : saved.id = partner.id ∧ saved.organizationId = partner.organizationId) :
      Step store { store with partners := store.partners.save saved, receipts }
  | mediaAdded {row : CharityPartnerMedia} {media : Table CharityPartnerMedia.id}
      {receipts : Table CharityCommandReceipt.key} (pending : row.reviewStatus = .pending)
      (inserted : store.media.insert? row = some media) :
      Step store { store with media, receipts }
  | mediaReviewed {row saved : CharityPartnerMedia} {receipts : Table CharityCommandReceipt.key}
      (mem : row ∈ store.media)
      (same : saved.id = row.id ∧ saved.partnerId = row.partnerId ∧ saved.organizationId = row.organizationId)
      (approved : saved.reviewStatus = .approved → saved.publicReference ≠ "" ∧
        ∃ reviewer, saved.reviewedById = some reviewer ∧ reviewer ≠ saved.submittedById) :
      Step store { store with media := store.media.save saved, receipts }
  | proposed {selection : CharitySelection} {entry : CharitySelectionTimelineEntry}
      {selections : Table CharitySelection.id} {timeline : Table CharitySelectionTimelineEntry.key}
      {receipts : Table CharityCommandReceipt.key} (status : selection.status = .proposed)
      (unpublished : selection.publicationState = .unpublished ∧ selection.publicationNumber = 0)
      (version : selection.aggregateVersion = 1) (inserted : store.selections.insert? selection = some selections)
      (entered : store.timeline.insert? entry = some timeline)
        (of : entry.selectionId = selection.id ∧ entry.sequence = 1)
      (other : entry.confirms = false) :
      Step store { store with selections, timeline, receipts }
  | moved {selection saved : CharitySelection} {entry : CharitySelectionTimelineEntry}
      {timeline : Table CharitySelectionTimelineEntry.key} {receipts : Table CharityCommandReceipt.key}
      (advanced : Advanced store selection saved entry timeline) (moves : selection.status.Moves saved.status)
      (publication : saved.publicationState = selection.publicationState ∧
        saved.publicationNumber = selection.publicationNumber)
      (decides : entry.confirms ↔ saved.status = .confirmed) :
      Step store { store with selections := store.selections.save saved, timeline, receipts }
  | kept {selection saved : CharitySelection} {entry : CharitySelectionTimelineEntry}
      {timeline : Table CharitySelectionTimelineEntry.key} {receipts : Table CharityCommandReceipt.key}
      (advanced : Advanced store selection saved entry timeline) (status : saved.status = selection.status)
      (number : saved.publicationNumber = selection.publicationNumber)
      (state : saved.publicationState = .published → selection.publicationState = .published)
      (other : entry.confirms = false) :
      Step store { store with selections := store.selections.save saved, timeline, receipts }
  | published {selection saved : CharitySelection} {entry : CharitySelectionTimelineEntry}
      {timeline : Table CharitySelectionTimelineEntry.key} {snapshot : CharityPublicationSnapshot}
      {snapshots : Table CharityPublicationSnapshot.key} {receipts : Table CharityCommandReceipt.key}
      (advanced : Advanced store selection saved entry timeline) (publishes : Publishes store selection saved snapshot)
      (inserted : store.snapshots.insert? snapshot = some snapshots) (other : entry.confirms = false) :
      Step store { store with selections := store.selections.save saved, timeline, snapshots, receipts }
  | elsewhere {organizations : Table Organization.id} {editions : Table EventEdition.id}
      {departments : Table Department.id}
      (adopted : ∀ edition ∈ store.editions, edition.adoptionProfile.hasCharities →
        ∃ row ∈ editions, row.id = edition.id ∧ row.adoptionProfile.hasCharities) :
      Step store { store with organizations, editions, departments }

/-! ## Rules for the parts of a command -/

section

variable {store after : Store} {sur : Surroundings} {request : Request} {result : CharityCommandResult}

theorem unlessReplayed_ok {operation : CharityOperation} {digest : String}
    {command : Except CharityError (Store × CharityCommandResult)}
    (h : store.unlessReplayed request operation digest command = .ok (after, result)) :
    after = store ∨ command = .ok (after, result) := by
  unfold Store.unlessReplayed at h
  split at h
  · exact .inr h
  · split at h
    · cases h
    · cases h
      exact .inl rfl

theorem appendEvidence_ok {editionId partnerId selectionId : Option Uuid}
    {operation : CharityOperation} {digest : String} {objectId : Uuid} {version : Nat}
    (h : store.appendEvidence sur request editionId partnerId selectionId operation digest objectId version =
      .ok (after, result)) : ∃ receipts, after = { store with receipts } := by
  simp only [Store.appendEvidence, bind_eq_ok, pure_eq_ok, Prod.mk.injEq] at h
  obtain ⟨receipts, -, rfl, -⟩ := h
  exact ⟨receipts, rfl⟩

theorem selection?_eq_some {editionId selectionId : Uuid} {selection : CharitySelection} :
    store.selection? request editionId selectionId = some selection ↔
      (selection ∈ store.selections ∧ selection.id = selectionId) ∧
        selection.organizationId = request.organizationId ∧ selection.editionId = editionId := by
  rw [Store.selection?, Option.filter_eq_some_iff, Table.get?_eq_some, decide_eq_true_eq]

theorem partner?_eq_some {partnerId : Uuid} {partner : CharityPartner} :
    store.partner? request partnerId = some partner ↔
      (partner ∈ store.partners ∧ partner.id = partnerId) ∧ partner.organizationId = request.organizationId := by
  rw [Store.partner?, Option.filter_eq_some_iff, Table.get?_eq_some, decide_eq_true_eq]

theorem lockedSelection_ok {editionId selectionId : Uuid} {version : Int} {department : Option Uuid}
    {selection : CharitySelection}
    (h : store.lockedSelection request editionId selectionId version department = .ok selection) :
    selection ∈ store.selections ∧ selection.organizationId = request.organizationId ∧
      selection.editionId = editionId := by
  simp only [Store.lockedSelection, bind_eq_ok, getOr_eq_ok, Option.filter_eq_some_iff,
    selection?_eq_some, pure_eq_ok] at h
  obtain ⟨_, ⟨⟨⟨mem, -⟩, of⟩, -⟩, _, -, rfl⟩ := h
  exact ⟨mem, of⟩

theorem selectionDecision_ok {editionId selectionId department : Uuid} {capability : Capability}
    (h : store.selectionDecision sur request editionId selectionId capability = .ok department) :
    ∃ edition ∈ store.editions, edition.id = editionId ∧ edition.adoptionProfile.hasCharities := by
  simp only [Store.selectionDecision, bind_eq_ok, require_eq_ok, Option.any_eq_true, List.contains_iff_mem] at h
  obtain ⟨_, -, _, ⟨-, -, ⟨edition, found, allowed⟩, -⟩, -⟩ := h
  obtain ⟨mem, id⟩ := Table.get?_eq_some.mp found
  exact ⟨edition, mem, id, AdoptionProfile.hasCharities_of_mem allowed⟩

theorem saveSelection_ok {selection : CharitySelection} {entry : CharitySelectionTimelineEntry}
    {operation : CharityOperation} {digest : String}
    (h : store.saveSelection sur request selection entry operation digest = .ok (after, result)) :
    ∃ timeline receipts, store.timeline.insert? entry = some timeline ∧
      after = { store with selections := store.selections.save selection, timeline, receipts } := by
  simp only [Store.saveSelection, bind_eq_ok, getOr_eq_ok] at h
  obtain ⟨_, -, timeline, inserted, evidence⟩ := h
  obtain ⟨receipts, rfl⟩ := appendEvidence_ok evidence
  exact ⟨timeline, receipts, inserted, rfl⟩

/-- A saved selection whose version is the next one and whose entry has that number. -/
theorem advanced_of_next {selection saved : CharitySelection} {entry : CharitySelectionTimelineEntry}
    {timeline : Table CharitySelectionTimelineEntry.key} (mem : selection ∈ store.selections)
    (inserted : store.timeline.insert? entry = some timeline)
    (same : saved.id = selection.id ∧ saved.organizationId = selection.organizationId ∧
      saved.editionId = selection.editionId ∧ saved.partnerId = selection.partnerId)
    (version : saved.aggregateVersion = selection.aggregateVersion + 1)
    (of : entry.selectionId = saved.id ∧ entry.sequence = saved.aggregateVersion) :
    Advanced store selection saved entry timeline :=
  ⟨mem, same, version, ⟨of.1.trans same.1, of.2⟩, inserted⟩

end

/-! ## What each command writes -/

section

variable {store after : Store} {lib : Primitives} {sur : Surroundings} {request : Request}
  {result : CharityCommandResult}
  {reason : String} {editionId selectionId partnerId mediaId : Uuid} {version : Int}

theorem createCharityPartner_step {slug : String} {profile : CharityPartnerProfile}
    (h : store.createCharityPartner lib sur request slug profile reason = .ok (after, result)) :
    after = store ∨ Step store after := by
  simp only [Store.createCharityPartner, bind_eq_ok] at h
  obtain ⟨_, -, _, -, _, -, _, -, _, -, h⟩ := h
  rcases unlessReplayed_ok h with rfl | h
  · exact .inl rfl
  simp only [bind_eq_ok, getOr_eq_ok] at h
  obtain ⟨partner, -, partners, inserted, evidence⟩ := h
  obtain ⟨receipts, rfl⟩ := appendEvidence_ok evidence
  exact .inr (.partnerAdded inserted)

/-- Whatever changes are set, the partner stays who it is. -/
theorem changed_keeps (partner : CharityPartner) (changes : List (PartnerField × String))
    (actorId : Uuid) : (Store.changed partner changes actorId).id = partner.id ∧
      (Store.changed partner changes actorId).organizationId = partner.organizationId := by
  unfold Store.changed
  simp only
  induction changes generalizing partner with
  | nil => exact ⟨rfl, rfl⟩
  | cons change changes ih =>
    obtain ⟨id, organization⟩ := change.1.set_keeps partner change.2
    obtain ⟨id', organization'⟩ := ih (change.1.set partner change.2)
    exact ⟨id'.trans id, organization'.trans organization⟩

theorem cleanPartner_keeps {partner saved : CharityPartner} (h : store.cleanPartner lib partner = .ok saved) :
    saved.id = partner.id ∧ saved.organizationId = partner.organizationId := by
  simp only [Store.cleanPartner, seq_eq_ok, pure_eq_ok] at h
  obtain ⟨-, -, rfl⟩ := h
  exact ⟨rfl, rfl⟩

theorem updateCharityPartner_step {changes : List (PartnerField × String)}
    (h : store.updateCharityPartner lib sur request partnerId version changes reason = .ok (after, result)) :
    after = store ∨ Step store after := by
  simp only [Store.updateCharityPartner, bind_eq_ok] at h
  obtain ⟨_, -, _, -, _, -, _, -, _, -, h⟩ := h
  rcases unlessReplayed_ok h with rfl | h
  · exact .inl rfl
  simp only [bind_eq_ok, getOr_eq_ok, partner?_eq_some] at h
  obtain ⟨partner, ⟨⟨mem, -⟩, -⟩, _, -, _, -, _, -, _, -, saved, cleaned, evidence⟩ := h
  obtain ⟨receipts, rfl⟩ := appendEvidence_ok evidence
  obtain ⟨id, organization⟩ := cleanPartner_keeps cleaned
  exact .inr (.partnerSaved mem ⟨id.trans (changed_keeps partner _ _).1,
    organization.trans (changed_keeps partner _ _).2⟩)

theorem addCharityPartnerMedia_step {values : Store.MediaValues}
    (h : store.addCharityPartnerMedia lib sur request partnerId values reason = .ok (after, result)) :
    after = store ∨ Step store after := by
  simp only [Store.addCharityPartnerMedia, bind_eq_ok] at h
  obtain ⟨_, -, _, -, _, -, _, -, _, -, _, -, _, -, h⟩ := h
  rcases unlessReplayed_ok h with rfl | h
  · exact .inl rfl
  simp only [bind_eq_ok, getOr_eq_ok] at h
  obtain ⟨partner, -, _, -, _, -, media, inserted, evidence⟩ := h
  obtain ⟨receipts, rfl⟩ := appendEvidence_ok evidence
  exact .inr (.mediaAdded rfl inserted)

theorem media?_eq_some {media : CharityPartnerMedia}
    (h : store.media? request partnerId mediaId = some media) : media ∈ store.media := by
  rw [Store.media?, Option.filter_eq_some_iff, Table.get?_eq_some] at h
  exact h.1.1

theorem saveReview_ok {media : CharityPartnerMedia} {operation : CharityOperation} {digest : String}
    (h : store.saveReview sur request media operation digest = .ok (after, result)) :
    ∃ receipts, after = { store with media := store.media.save media, receipts } := by
  simp only [Store.saveReview, bind_eq_ok] at h
  obtain ⟨_, -, evidence⟩ := h
  obtain ⟨receipts, rfl⟩ := appendEvidence_ok evidence
  exact ⟨receipts, rfl⟩

/-- The reviewer of an approved reference is not the one who submitted it. -/
theorem approveCharityPartnerMedia_step {publicReference : String}
    (h : store.approveCharityPartnerMedia lib sur request partnerId mediaId version publicReference reason =
      .ok (after, result)) : after = store ∨ Step store after := by
  simp only [Store.approveCharityPartnerMedia, bind_eq_ok] at h
  obtain ⟨_, -, _, -, publicReference, normalized, _, -, h⟩ := h
  rcases unlessReplayed_ok h with rfl | h
  · exact .inl rfl
  simp only [bind_eq_ok, getOr_eq_ok, require_eq_ok] at h
  obtain ⟨media, found, _, -, _, -, _, independent, _, -, saved⟩ := h
  obtain ⟨receipts, rfl⟩ := saveReview_ok saved
  refine .inr (.mediaReviewed (media?_eq_some found) ⟨rfl, rfl, rfl⟩ fun _ => ?_)
  exact ⟨normalizedText_ne_empty normalized, request.actorId, rfl, independent.symm⟩

theorem withdrawCharityPartnerMedia_step
    (h : store.withdrawCharityPartnerMedia lib sur request partnerId mediaId version reason = .ok (after, result)) :
    after = store ∨ Step store after := by
  simp only [Store.withdrawCharityPartnerMedia, bind_eq_ok] at h
  obtain ⟨_, -, _, -, _, -, h⟩ := h
  rcases unlessReplayed_ok h with rfl | h
  · exact .inl rfl
  simp only [bind_eq_ok, getOr_eq_ok] at h
  obtain ⟨media, found, _, -, _, -, saved⟩ := h
  obtain ⟨receipts, rfl⟩ := saveReview_ok saved
  exact .inr (.mediaReviewed (media?_eq_some found) ⟨rfl, rfl, rfl⟩ fun approved => by cases approved)

theorem proposeCharitySelection_step {departmentId : Uuid}
    (h : store.proposeCharitySelection lib sur request editionId partnerId departmentId reason = .ok (after, result)) :
    after = store ∨ Step store after := by
  simp only [Store.proposeCharitySelection, bind_eq_ok] at h
  obtain ⟨_, -, _, -, _, -, _, -, _, -, h⟩ := h
  rcases unlessReplayed_ok h with rfl | h
  · exact .inl rfl
  simp only [bind_eq_ok, getOr_eq_ok] at h
  obtain ⟨_, -, partner, -, _, -, _, -, selections, inserted, timeline, entered, evidence⟩ := h
  obtain ⟨receipts, rfl⟩ := appendEvidence_ok evidence
  exact .inr (.proposed rfl ⟨rfl, rfl⟩ rfl inserted entered ⟨rfl, rfl⟩ rfl)

theorem submitCharitySelection_step
    (h : store.submitCharitySelection lib sur request editionId selectionId version reason = .ok (after, result)) :
    after = store ∨ Step store after := by
  simp only [Store.submitCharitySelection, bind_eq_ok] at h
  obtain ⟨_, -, _, -, _, -, h⟩ := h
  rcases unlessReplayed_ok h with rfl | h
  · exact .inl rfl
  simp only [bind_eq_ok, require_eq_ok] at h
  obtain ⟨selection, locked, _, ⟨proposed, -⟩, saved⟩ := h
  obtain ⟨timeline, receipts, inserted, rfl⟩ := saveSelection_ok saved
  refine .inr (.moved (advanced_of_next (lockedSelection_ok locked).1 inserted ⟨rfl, rfl, rfl, rfl⟩ rfl ⟨rfl, rfl⟩) ?_
    ⟨rfl, rfl⟩ (by simp [CharitySelectionTimelineEntry.confirms]))
  rw [proposed]
  exact .submit

theorem reviewCharitySelection_step {confirm : Bool}
    (h : store.reviewCharitySelection lib sur request confirm editionId selectionId version reason =
      .ok (after, result)) :
    after = store ∨ Step store after := by
  simp only [Store.reviewCharitySelection, bind_eq_ok] at h
  obtain ⟨_, -, _, -, _, -, h⟩ := h
  rcases unlessReplayed_ok h with rfl | h
  · exact .inl rfl
  simp only [bind_eq_ok, require_eq_ok] at h
  obtain ⟨selection, locked, _, submitted, saved⟩ := h
  obtain ⟨timeline, receipts, inserted, rfl⟩ := saveSelection_ok saved
  refine .inr (.moved (advanced_of_next (lockedSelection_ok locked).1 inserted ⟨rfl, rfl, rfl, rfl⟩ rfl ⟨rfl, rfl⟩) ?_
    ⟨rfl, rfl⟩ (by simp [CharitySelectionTimelineEntry.confirms, Store.entryOf]))
  rw [submitted]
  cases confirm with
  | true => exact .confirm
  | false => exact .reject

theorem addCharitySelectionPrivateComment_step {privateComment : String}
    (h : store.addCharitySelectionPrivateComment lib sur request editionId selectionId version privateComment =
      .ok (after, result)) : after = store ∨ Step store after := by
  simp only [Store.addCharitySelectionPrivateComment, bind_eq_ok] at h
  obtain ⟨_, -, _, -, _, -, h⟩ := h
  rcases unlessReplayed_ok h with rfl | h
  · exact .inl rfl
  simp only [bind_eq_ok] at h
  obtain ⟨selection, locked, saved⟩ := h
  obtain ⟨timeline, receipts, inserted, rfl⟩ := saveSelection_ok saved
  exact .inr (.kept (advanced_of_next (lockedSelection_ok locked).1 inserted ⟨rfl, rfl, rfl, rfl⟩ rfl ⟨rfl, rfl⟩) rfl rfl
    (fun published => published) rfl)

theorem confirmation?_eq_some {entry : CharitySelectionTimelineEntry}
    (h : store.confirmation? selectionId = some entry) :
    entry ∈ store.timeline ∧ entry.selectionId = selectionId ∧ entry.confirms := by
  have mem := List.mem_reverse.mp (List.mem_of_mem_head? h)
  simp only [Store.timelineOf, List.mem_filter, decide_eq_true_eq] at mem
  obtain ⟨⟨mem, of⟩, confirms⟩ := mem
  exact ⟨mem, of, by simpa [CharitySelectionTimelineEntry.confirms] using confirms⟩

theorem publishCharitySelection_step {mediaIds : List Uuid}
    (h : store.publishCharitySelection lib sur request editionId selectionId version mediaIds
      reason = .ok (after, result)) :
    after = store ∨ Step store after := by
  simp only [Store.publishCharitySelection, bind_eq_ok] at h
  obtain ⟨_, -, _, -, _, -, department, decision, h⟩ := h
  rcases unlessReplayed_ok h with rfl | h
  · exact .inl rfl
  simp only [bind_eq_ok, getOr_eq_ok, require_eq_ok] at h
  obtain ⟨selection, locked, _, ⟨confirmed, -, -⟩, partner, -, entry, confirmation, _, independent,
    _, valid, snapshots, snapshot, saved⟩ := h
  obtain ⟨timeline, receipts, inserted, rfl⟩ := saveSelection_ok saved
  obtain ⟨mem, organization, edition⟩ := lockedSelection_ok locked
  obtain ⟨entered, of, confirms⟩ := confirmation?_eq_some confirmation
  refine .inr (.published (advanced_of_next mem inserted ⟨rfl, rfl, rfl, rfl⟩ rfl ⟨rfl, rfl⟩)
    ⟨⟨confirmed, confirmed⟩, rfl, rfl, ⟨rfl, rfl, rfl, rfl⟩, ?_,
      ⟨entry, entered, of, confirms, independent⟩, fun id hid => ?_⟩ snapshot rfl)
  · rw [edition]
    exact selectionDecision_ok decision
  · obtain ⟨media, listed, rfl⟩ := List.mem_map.mp (valid id hid)
    simp only [Store.validMedia, List.mem_filter, decide_eq_true_eq] at listed
    exact ⟨media, listed.1, rfl, listed.2.2.1, listed.2.2.2.1⟩

theorem withdrawCharitySelectionPublication_step
    (h : store.withdrawCharitySelectionPublication lib sur request editionId selectionId version reason =
      .ok (after, result)) : after = store ∨ Step store after := by
  simp only [Store.withdrawCharitySelectionPublication, bind_eq_ok] at h
  obtain ⟨_, -, _, -, _, -, h⟩ := h
  rcases unlessReplayed_ok h with rfl | h
  · exact .inl rfl
  simp only [bind_eq_ok] at h
  obtain ⟨selection, locked, _, -, saved⟩ := h
  obtain ⟨timeline, receipts, inserted, rfl⟩ := saveSelection_ok saved
  exact .inr (.kept (advanced_of_next (lockedSelection_ok locked).1 inserted ⟨rfl, rfl, rfl, rfl⟩ rfl ⟨rfl, rfl⟩) rfl rfl
    (fun published => by cases published) rfl)

theorem execute_step {command : Command} (h : store.execute lib sur request command = .ok (after, result)) :
    after = store ∨ Step store after := by
  cases command with
  | createPartner => exact createCharityPartner_step h
  | updatePartner => exact updateCharityPartner_step h
  | addMedia => exact addCharityPartnerMedia_step h
  | approveMedia => exact approveCharityPartnerMedia_step h
  | withdrawMedia => exact withdrawCharityPartnerMedia_step h
  | proposeSelection => exact proposeCharitySelection_step h
  | submitSelection => exact submitCharitySelection_step h
  | confirmSelection => exact reviewCharitySelection_step h
  | rejectSelection => exact reviewCharitySelection_step h
  | commentSelection => exact addCharitySelectionPrivateComment_step h
  | publishSelection => exact publishCharitySelection_step h
  | withdrawPublication => exact withdrawCharitySelectionPublication_step h

end

/-! ## What is written elsewhere -/

theorem mem_put {ρ : Type} {key : ρ → Uuid} {table : Table key} {row a : ρ} (ha : a ∈ table) :
    a ∈ Store.put table row ∨ key a = key row ∧ row ∈ Store.put table row := by
  unfold Store.put
  cases inserted : table.insert? row with
  | some t => exact .inl ((Table.mem_insert? inserted).mpr (.inl ha))
  | none =>
    rcases Table.mem_save_or (r := row) ha with kept | same
    · exact .inl kept
    · exact .inr ⟨same, Table.mem_save.mpr (.inr ⟨rfl, a, ha, same⟩)⟩

theorem elsewhere_step {store after : Store} {change : Elsewhere}
    (h : store.elsewhere change = .ok after) : Step store after := by
  have same : ∀ edition ∈ store.editions, edition.adoptionProfile.hasCharities →
      ∃ row ∈ store.editions, row.id = edition.id ∧ row.adoptionProfile.hasCharities :=
    fun edition mem adopted => ⟨edition, mem, rfl, adopted⟩
  cases change with
  | organization row =>
    cases h
    exact .elsewhere same
  | department row =>
    cases h
    exact .elsewhere same
  | edition row =>
    simp only [Store.elsewhere, bind_eq_ok, require_eq_ok, pure_eq_ok] at h
    obtain ⟨_, kept, rfl⟩ := h
    refine .elsewhere fun edition mem adopted => ?_
    have there : edition ∈ Store.put store.editions row ∨ edition.id = row.id ∧ row ∈ Store.put store.editions row :=
      mem_put mem
    rcases there with stays | ⟨id, written⟩
    · exact ⟨edition, stays, rfl, adopted⟩
    · refine ⟨row, written, id.symm, ?_⟩
      rcases (kept edition mem id).2 with profile | ⟨announcements, -⟩
      · rw [profile]
        exact adopted
      · rw [announcements] at adopted
        cases adopted

theorem exec_step {store after : Store} {lib : Primitives} {event : Event} {answer : Option CharityCommandResult}
    (h : store.exec lib event = .ok (after, answer)) : after = store ∨ Step store after := by
  cases event with
  | command sur request command =>
    simp only [Store.exec, bind_eq_ok, pure_eq_ok, Prod.mk.injEq] at h
    obtain ⟨⟨written, result⟩, executed, rfl, -⟩ := h
    exact execute_step executed
  | elsewhere change =>
    simp only [Store.exec, bind_eq_ok, pure_eq_ok, Prod.mk.injEq] at h
    obtain ⟨written, changed, rfl, -⟩ := h
    exact .inr (elsewhere_step changed)

end Maru.Charities

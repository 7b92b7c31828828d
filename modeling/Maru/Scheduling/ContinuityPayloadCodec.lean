import Maru.Framework.Lists
import Maru.Scheduling.ContinuityPayload
import Maru.Scheduling.ContinuityRoundTrip

/-!
# The payload's reader takes just what its writer gives

The writer sorts the documents of the entries by the texts of their starts, the order of
their starts (`entryLe_iff`). Written again, what was read is sorted already
(`sortEntries_sorted`); so the reader gives back what was written, in UTC and in order,
and accepts nothing else (`continuityPayload_roundTrip`).
-/

namespace Maru.Scheduling

open Calendar Json

variable {lib : Library} {scope : ContinuityScope} {entry u : ContinuityEntry}

/-! ## UTC -/

def ContinuityContext.toUtc (context : ContinuityContext) : Option ContinuityContext := do
  let setup ← context.setup.toUtc
  let deliveryStart ← context.deliveryStart.toUtc
  let deliveryEnd ← context.deliveryEnd.toUtc
  let teardown ← context.teardown.toUtc
  return { setup, deliveryStart, deliveryEnd, teardown }

/-- A value that may be missing, converted where it is there. -/
def convert {α : Type} (f : α → Option α) (value : Option α) : Option (Option α) :=
  value.elim (some none) fun a => (f a).map some

/-- An entry with its times in UTC. -/
def ContinuityEntry.toUtc (entry : ContinuityEntry) : Option ContinuityEntry := do
  let startsAt ← entry.startsAt.toUtc
  let endsAt ← entry.endsAt.toUtc
  let context ← convert ContinuityContext.toUtc entry.context
  return { entry with startsAt, endsAt, context }

/-- A projection with its times in UTC. -/
def ContinuityProjection.toUtc (projection : ContinuityProjection) : Option ContinuityProjection := do
  let observedAt ← projection.observedAt.toUtc
  let publishedAt ← convert DateTime.toUtc projection.publishedAt
  let entries ← projection.entries.mapM ContinuityEntry.toUtc
  return { projection with observedAt, publishedAt, entries }

theorem ContinuityEntry.toUtc_eq_some :
    entry.toUtc = some u ↔ entry.startsAt.toUtc = some u.startsAt ∧
      entry.endsAt.toUtc = some u.endsAt ∧
      convert ContinuityContext.toUtc entry.context = some u.context ∧
      u = { entry with startsAt := u.startsAt, endsAt := u.endsAt, context := u.context } := by
  simp only [ContinuityEntry.toUtc, Option.bind_eq_bind, Option.bind_eq_some_iff, Option.pure_def, Option.some.injEq]
  constructor
  · rintro ⟨startsAt, hs, endsAt, he, context, hc, rfl⟩
    exact ⟨hs, he, hc, rfl⟩
  · rintro ⟨hs, he, hc, h⟩
    exact ⟨_, hs, _, he, _, hc, h.symm⟩

/-! ## Contexts -/

theorem contextTimes_eq_ok {kind : String} {start finish : DateTime}
    {context c : Option ContinuityContext} (h : contextTimes kind start finish context = .ok c) :
    convert ContinuityContext.toUtc context = some c ∧ contextTimes kind start finish c = .ok c ∧
      decodedContext (contextJson c) = .ok c := by
  cases context with
  | none =>
    simp only [contextTimes, bind_eq_ok, require_eq_ok, pure_eq_ok] at h
    obtain ⟨-, kind, rfl⟩ := h
    refine ⟨rfl, ?_, rfl⟩
    simp only [contextTimes, bind_eq_ok, require_eq_ok, pure_eq_ok]
    exact ⟨(), kind, trivial⟩
  | some context =>
    simp only [contextTimes, bind_eq_ok, require_eq_ok, utc_eq_ok, pure_eq_ok] at h
    obtain ⟨-, kind, setup, hs, deliveryStart, hds, deliveryEnd, hde, teardown, ht, -, order, -, whole, rfl⟩ := h
    have su := DateTime.toUtc_toUtc hs
    have dsu := DateTime.toUtc_toUtc hds
    have deu := DateTime.toUtc_toUtc hde
    have tu := DateTime.toUtc_toUtc ht
    refine ⟨?_, ?_, ?_⟩
    · simp [convert, ContinuityContext.toUtc, hs, hds, hde, ht]
    · simp only [contextTimes, bind_eq_ok, require_eq_ok, utc_eq_ok, pure_eq_ok]
      exact ⟨(), kind, setup, su, deliveryStart, dsu, deliveryEnd, deu, teardown, tu, (), order, (), whole, rfl⟩
    · unfold decodedContext
      rw [if_neg (by intro missing; cases missing)]
      simp only [contextJson, bind_eq_ok, objectWith_eq_ok, pure_eq_ok]
      exact ⟨_, ⟨rfl, rfl⟩, setup, ⟨_, rfl, date_isoformat su⟩, deliveryStart, ⟨_, rfl, date_isoformat dsu⟩,
        deliveryEnd, ⟨_, rfl, date_isoformat deu⟩, teardown, ⟨_, rfl, date_isoformat tu⟩, rfl⟩

/-! ## Facts -/

theorem factDocuments_eq_ok {allowed seen : List String} {facts : List ContinuityFact}
    {documents : List Json} (h : factDocuments allowed seen facts = .ok documents) :
    documents = facts.map factJson ∧ ∀ fact ∈ facts, fact.code ∈ allowed := by
  induction facts generalizing seen documents with
  | nil =>
    cases h
    exact ⟨rfl, by simp⟩
  | cons fact facts ih =>
    simp only [factDocuments, bind_eq_ok, require_eq_ok, pure_eq_ok] at h
    obtain ⟨-, code, -, -, -, -, rest, hrest, rfl⟩ := h
    obtain ⟨rfl, codes⟩ := ih hrest
    exact ⟨rfl, List.forall_mem_cons.mpr ⟨code, codes⟩⟩

theorem decodedFacts_map (facts : List ContinuityFact) : decodedFacts (facts.map factJson) = .ok facts := by
  induction facts with
  | nil => rfl
  | cons fact facts ih =>
    simp only [List.map_cons, decodedFacts, factJson, bind_eq_ok, objectWith_eq_ok, pure_eq_ok]
    exact ⟨_, ⟨rfl, rfl⟩, fact.code, ⟨_, rfl, rfl⟩, fact.value, ⟨_, rfl, rfl⟩, facts, ih, rfl⟩

/-! ## Entries -/

/-- The document of an entry in UTC. -/
def ContinuityEntry.document (entry : ContinuityEntry) : Json := entry.json (entry.facts.map factJson)

/-- What an audience may be shown of an entry: its kind, and its facts. -/
def WithinCeiling (scope : ContinuityScope) (entry : ContinuityEntry) : Prop :=
  entry.kind ∈ kinds scope.audience ∧
    ∃ allowed, factCodes entry.kind scope = .ok allowed ∧ ∀ fact ∈ entry.facts, fact.code ∈ allowed

/-- An entry is written as it is in UTC, is read so, and then written the same. -/
theorem entryDocument_eq_ok {document : Json} (h : entryDocument entry scope = .ok document) :
    ∃ u, entry.toUtc = some u ∧ document = u.document ∧ entryDocument u scope = .ok document ∧
      decodedEntry document = .ok u ∧ WithinCeiling scope entry := by
  simp only [entryDocument, bind_eq_ok, require_eq_ok, utc_eq_ok, pure_eq_ok] at h
  obtain ⟨-, kind, -, key, ⟨⟩, identifiers, start, hs, finish, hf, -, order, context, hc, space,
    hspace, day, hday, -, place, -, few, allowed, codes, documents, hfacts, title, htitle, rfl⟩ := h
  obtain ⟨rfl, within⟩ := factDocuments_eq_ok hfacts
  obtain ⟨hcu, hcc, hcd⟩ := contextTimes_eq_ok hc
  have su := DateTime.toUtc_toUtc hs
  have fu := DateTime.toUtc_toUtc hf
  obtain rfl := optionalUuid_optionalText_eq_ok hspace
  obtain rfl := optionalUuid_optionalText_eq_ok hday
  refine ⟨{ entry with startsAt := start, endsAt := finish, context },
    ContinuityEntry.toUtc_eq_some.mpr ⟨hs, hf, hcu, rfl⟩, rfl, ?_, ?_, kind, allowed, codes, within⟩
  · simp only [entryDocument, bind_eq_ok, require_eq_ok, utc_eq_ok, pure_eq_ok]
    exact ⟨(), kind, (), key, (), identifiers, start, su, finish, fu, (), order, context, hcc,
      _, hspace, _, hday, (), place, (), few, allowed, codes, _, hfacts, title, htitle, rfl⟩
  · simp only [decodedEntry, ContinuityEntry.json, bind_eq_ok, objectWith_eq_ok, require_eq_ok,
      pure_eq_ok]
    exact ⟨_, ⟨rfl, rfl⟩, _, ⟨_, rfl, rfl⟩, (),
      by rwa [List.length_map], entry.facts, decodedFacts_map _, _, ⟨_, rfl, rfl⟩,
      _, ⟨_, rfl, rfl⟩, _, ⟨_, rfl, rfl⟩, start, ⟨_, rfl, date_isoformat su⟩, finish, ⟨_, rfl, date_isoformat fu⟩, _,
      ⟨_, rfl, hspace⟩, _, ⟨_, rfl, hday⟩, _, ⟨_, rfl, hcd⟩, rfl⟩

/-! ## The order of the entries -/

/-- The order of two entries by the texts of their starts, and their keys. -/
def entryLe (a b : ContinuityEntry) : Bool :=
  a.startsAt.isoformat < b.startsAt.isoformat ∨ a.startsAt.isoformat = b.startsAt.isoformat ∧ a.key ≤ b.key

theorem rowLe_document (a b : ContinuityEntry) : rowLe a.document b.document = entryLe a b := by
  have start (e : ContinuityEntry) : rowText "starts_at" e.document = e.startsAt.isoformat := rfl
  have key (e : ContinuityEntry) : rowText "key" e.document = e.key := rfl
  rw [rowLe, entryLe, start, start, key, key]

theorem entryLe_total (a b : ContinuityEntry) : entryLe a b || entryLe b a := by
  simp only [entryLe, Bool.or_eq_true, decide_eq_true_eq]
  rcases lt_trichotomy a.startsAt.isoformat b.startsAt.isoformat with h | h | h
  · exact .inl (.inl h)
  · rcases le_total a.key b.key with hk | hk
    · exact .inl (.inr ⟨h, hk⟩)
    · exact .inr (.inr ⟨h.symm, hk⟩)
  · exact .inr (.inl h)

theorem entryLe_trans (a b c : ContinuityEntry) (hab : entryLe a b) (hbc : entryLe b c) : entryLe a c := by
  simp only [entryLe, decide_eq_true_eq] at hab hbc ⊢
  rcases hab with hab | ⟨hab, kab⟩ <;> rcases hbc with hbc | ⟨hbc, kbc⟩
  · exact .inl (hab.trans hbc)
  · exact .inl (hbc ▸ hab)
  · exact .inl (hab ▸ hbc)
  · exact .inr ⟨hab.trans hbc, kab.trans kbc⟩

/-- The order is by time, and by key at one time. -/
def Earlier (a b : ContinuityEntry) : Prop :=
  a.startsAt.wall < b.startsAt.wall ∨ a.startsAt.wall = b.startsAt.wall ∧ a.key < b.key

theorem isoformat_lt_wall {a b : DateTime} (ha : a.toUtc = some a) (hb : b.toUtc = some b) :
    a.isoformat < b.isoformat ↔ a.wall < b.wall := by
  rw [DateTime.toUtc_eq_utc ha, DateTime.toUtc_eq_utc hb]
  exact isoformat_lt_iff a.wall_lt b.wall_lt

/-- The order that is tested on texts is the order of time. -/
theorem entryLe_iff {a b : ContinuityEntry} (ha : a.startsAt.toUtc = some a.startsAt)
    (hb : b.startsAt.toUtc = some b.startsAt) (hk : a.key ≠ b.key) : entryLe a b ↔ Earlier a b := by
  have same : a.startsAt.isoformat = b.startsAt.isoformat ↔ a.startsAt.wall = b.startsAt.wall := by
    have hab := isoformat_lt_wall ha hb
    have hba := isoformat_lt_wall hb ha
    constructor
    · intro h
      rw [h] at hab hba
      have := mt hab.mpr (lt_irrefl _)
      have := mt hba.mpr (lt_irrefl _)
      omega
    · intro h
      rw [DateTime.toUtc_eq_utc ha, DateTime.toUtc_eq_utc hb]
      congr 2
  rw [entryLe, decide_eq_true_eq, isoformat_lt_wall ha hb, same, Earlier]
  exact or_congr_right (and_congr_right fun _ => ⟨fun h => lt_of_le_of_ne h hk, le_of_lt⟩)

/-! ## The loop over the entries -/

/-- What the loop checks of one entry, apart from its document. -/
def RowAllowed (projection : ContinuityProjection) (row : ContinuityEntry) : Prop :=
  ¬ (row.kind ∈ releasedKinds ∧ projection.releaseState ≠ "available") ∧
    ¬ (("work_".toList.isPrefixOf row.kind.toList ∨ row.kind = "staffing_demand") ∧
      projection.workStatus ≠ "available")

theorem entryDocuments_eq_ok {projection : ContinuityProjection} {rows : List ContinuityEntry}
    {seen : List String} {n : Nat} {documents : List Json} (hn : n ≤ maxContinuityFacts) :
    entryDocuments projection seen n rows = .ok documents ↔
      List.Forall₂ (fun row document => entryDocument row projection.scope = .ok document) rows documents ∧
        (∀ row ∈ rows, RowAllowed projection row ∧ row.key ∉ seen) ∧ (rows.map (·.key)).Nodup ∧
        n + (rows.map (·.facts.length)).sum ≤ maxContinuityFacts := by
  induction rows generalizing seen n documents with
  | nil =>
    simp only [entryDocuments, pure_eq_ok, List.forall₂_nil_left_iff, List.not_mem_nil, false_imp_iff,
      implies_true, List.map_nil, List.nodup_nil, List.sum_nil, Nat.add_zero, hn, and_true]
    exact eq_comm
  | cons row rows ih =>
    simp only [entryDocuments, bind_eq_ok, require_eq_ok, pure_eq_ok]
    constructor
    · rintro ⟨document, hdoc, -, fresh, -, few, -, released, -, work, rest, hrest, rfl⟩
      obtain ⟨docs, each, nodup, sum⟩ := (ih few).mp hrest
      refine ⟨.cons hdoc docs, List.forall_mem_cons.mpr ⟨⟨⟨released, work⟩, fresh⟩, fun r hr => ?_⟩, ?_, ?_⟩
      · exact ⟨(each r hr).1, fun h => (each r hr).2 (List.mem_cons_of_mem _ h)⟩
      · rw [List.map_cons, List.nodup_cons]
        refine ⟨fun h => ?_, nodup⟩
        obtain ⟨r, hr, hk⟩ := List.mem_map.mp h
        exact (each r hr).2 (hk ▸ List.mem_cons_self)
      · rw [List.map_cons, List.sum_cons]
        omega
    · rintro ⟨docs, each, nodup, sum⟩
      obtain ⟨document, rest, hdoc, later, rfl⟩ := List.forall₂_cons_left_iff.mp docs
      obtain ⟨⟨⟨released, work⟩, fresh⟩, each⟩ := List.forall_mem_cons.mp each
      rw [List.map_cons, List.nodup_cons] at nodup
      rw [List.map_cons, List.sum_cons] at sum
      refine ⟨document, hdoc, (), fresh, (), by omega, (), released, (), work, rest, (ih (by omega)).mpr
        ⟨later, fun r hr => ⟨(each r hr).1, fun h => ?_⟩, nodup.2, by omega⟩, rfl⟩
      rcases List.mem_cons.mp h with h | h
      · exact nodup.1 (h ▸ List.mem_map_of_mem hr)
      · exact (each r hr).2 h

/-- The entries in UTC, and their documents. -/
theorem entries_toUtc {rows : List ContinuityEntry} {documents : List Json}
    (h : List.Forall₂ (fun row document => entryDocument row scope = .ok document) rows documents) :
    ∃ us : List ContinuityEntry, rows.mapM ContinuityEntry.toUtc = some us ∧
      documents = us.map ContinuityEntry.document ∧
      List.Forall₂ (fun row u => row.toUtc = some u ∧ WithinCeiling scope row) rows us ∧
      ∀ u ∈ us, entryDocument u scope = .ok u.document ∧ decodedEntry u.document = .ok u := by
  induction h with
  | nil => exact ⟨[], rfl, rfl, .nil, by simp⟩
  | cons hdoc _ ih =>
    obtain ⟨us, hus, rfl, each, again⟩ := ih
    obtain ⟨u, hu, rfl, hagain, hread, ceiling⟩ := entryDocument_eq_ok hdoc
    refine ⟨u :: us, ?_, rfl, .cons ⟨hu, ceiling⟩ each, List.forall_mem_cons.mpr ⟨⟨hagain, hread⟩, again⟩⟩
    rw [List.mapM_cons, hu, hus]
    rfl

theorem decodedEntries_map {us : List ContinuityEntry} (h : ∀ u ∈ us, decodedEntry u.document = .ok u) :
    decodedEntries (us.map ContinuityEntry.document) = .ok us := by
  induction us with
  | nil => rfl
  | cons u us ih =>
    obtain ⟨hu, hus⟩ := List.forall_mem_cons.mp h
    simp only [List.map_cons, decodedEntries, hu, ih hus, bind_eq_ok, pure_eq_ok]
    exact ⟨u, rfl, us, rfl, rfl⟩

/-! ## The time of publication -/

theorem publishedTime_eq_ok {projection : ContinuityProjection} {published : Option DateTime}
    (h : publishedTime projection = .ok published) : convert DateTime.toUtc projection.publishedAt = some published ∧
      optionalDate ((published.map fun t => Json.str t.isoformat).getD .null) = .ok published := by
  unfold publishedTime at h
  split at h
  · simp only [bind_eq_ok, getOr_eq_ok, require_eq_ok, utc_eq_ok, pure_eq_ok] at h
    obtain ⟨t, ht, u, hu, -, -, -, -, rfl⟩ := h
    refine ⟨by simp [convert, ht, hu], ?_⟩
    unfold optionalDate
    rw [if_neg (by intro missing; cases missing)]
    simp only [Option.map_some, Option.getD_some, bind_eq_ok, pure_eq_ok]
    exact ⟨u, date_isoformat (DateTime.toUtc_toUtc hu), rfl⟩
  · simp only [bind_eq_ok, require_eq_ok, pure_eq_ok] at h
    obtain ⟨-, hnone, rfl⟩ := h
    exact ⟨by rw [hnone]; rfl, rfl⟩

/-- It is found again where the times are in UTC. -/
theorem publishedTime_again {projection q : ContinuityProjection} {published : Option DateTime}
    (h : publishedTime projection = .ok published) (hstate : q.releaseState = projection.releaseState)
    (hpublished : q.publishedAt = published) (hobserved : q.observedAt.toUtc = projection.observedAt.toUtc) :
    publishedTime q = .ok published := by
  unfold publishedTime at h ⊢
  rw [hstate]
  split at h
  · rename_i released
    rw [if_pos released]
    simp only [bind_eq_ok, getOr_eq_ok, require_eq_ok, utc_eq_ok, pure_eq_ok] at h ⊢
    obtain ⟨t, ht, u, hu, o, ho, -, order, rfl⟩ := h
    exact ⟨u, hpublished, u, DateTime.toUtc_toUtc hu, o, hobserved.trans ho, (), order, rfl⟩
  · rename_i released
    rw [if_neg released]
    simp only [bind_eq_ok, require_eq_ok, pure_eq_ok] at h ⊢
    obtain ⟨-, hnone, rfl⟩ := h
    exact ⟨(), hpublished, rfl⟩

/-! ## The projection -/

/-- The entries in the order they are written in. -/
def sortEntries (us : List ContinuityEntry) : List ContinuityEntry := us.mergeSort entryLe

theorem sort_documents (us : List ContinuityEntry) :
    (us.map ContinuityEntry.document).mergeSort rowLe = (sortEntries us).map ContinuityEntry.document :=
  (List.map_mergeSort fun a _ b _ => (rowLe_document a b).symm).symm

theorem sortEntries_sorted (us : List ContinuityEntry) : sortEntries (sortEntries us) = sortEntries us :=
  List.mergeSort_of_pairwise (List.pairwise_mergeSort entryLe_trans entryLe_total us)

/-- A projection in UTC as it is written and read. -/
def ContinuityProjection.document (projection : ContinuityProjection) : Json :=
  projection.json (projection.entries.map ContinuityEntry.document)

theorem mem_sortEntries {us : List ContinuityEntry} {e : ContinuityEntry} : e ∈ sortEntries us ↔ e ∈ us :=
  List.mem_mergeSort

/-- `w` is what is written of `p`: `p` in UTC, with its entries sorted. -/
structure Written (p w : ContinuityProjection) : Prop where
  utc : ∃ us, p.toUtc = some { w with entries := us } ∧ w.entries = sortEntries us
  scope : p.scope.Valid
  release : ValidReleaseState p.scope.audience p.releaseState p.pointerVersion p.releaseId
  few : w.entries.length ≤ maxContinuityEntries
  entries : ∀ e ∈ w.entries, decodedEntry e.document = .ok e ∧ WithinCeiling p.scope e ∧
    e.startsAt.toUtc = some e.startsAt
  nodup : (w.entries.map (·.key)).Nodup
  published : optionalDate ((w.publishedAt.map fun t => Json.str t.isoformat).getD .null) = .ok w.publishedAt

/-- A projection is written as it is in UTC and sorted; that projection is written the same,
whatever zone its time of observation is given in. -/
theorem payloadDocument_eq_ok {p : ContinuityProjection} {document : Json}
    (h : payloadDocument lib p = .ok document) : ∃ w, Written p w ∧ document = w.document ∧
      ∀ observedAt : DateTime, observedAt.toUtc = p.observedAt.toUtc →
        payloadDocument lib { w with observedAt } = .ok document := by
  simp only [payloadDocument, sourceMetadata, bind_eq_ok, require_eq_ok, utc_eq_ok, pure_eq_ok] at h
  obtain ⟨scopeJson, hscope, published, ⟨-, state, -, zone, -, zoneInfo, hpublished⟩, -, contract,
    -, digest, -, few, -, layers, documents, hrows, observed, hobserved, hdoc⟩ := h
  obtain ⟨docs, each, nodup, sum⟩ := (entryDocuments_eq_ok (Nat.zero_le _)).mp hrows
  obtain ⟨us, hus, rfl, utcs, again⟩ := entries_toUtc docs
  obtain ⟨hpub, hread⟩ := publishedTime_eq_ok hpublished
  obtain ⟨hvalid, -⟩ := scopeDocument_eq_ok.mp hscope
  have perm : (sortEntries us).Perm us := List.mergeSort_perm us entryLe
  have same : ∀ row u, row.toUtc = some u ∧ WithinCeiling p.scope row →
      row.key = u.key ∧ row.kind = u.kind ∧ row.facts = u.facts := by
    rintro row u ⟨h, -⟩
    rw [(ContinuityEntry.toUtc_eq_some.mp h).2.2.2]
    exact ⟨rfl, rfl, rfl⟩
  have keys : p.entries.map (·.key) = us.map (·.key) := map_eq_of_forall₂ (fun r u h => (same r u h).1) utcs
  have facts : p.entries.map (·.facts.length) = us.map (·.facts.length) :=
    map_eq_of_forall₂ (fun r u h => by rw [(same r u h).2.2]) utcs
  have allowed : ∀ u ∈ us, RowAllowed p u ∧ WithinCeiling p.scope u ∧ u.startsAt.toUtc = some u.startsAt := by
    intro u hu
    obtain ⟨row, hrow, h⟩ := exists_of_forall₂ utcs hu
    obtain ⟨-, hkind, hfacts⟩ := same row u h
    have ok := (each row hrow).1
    have ceiling := h.2
    unfold RowAllowed at ok ⊢
    unfold WithinCeiling at ceiling ⊢
    rw [hkind] at ok ceiling
    rw [hfacts] at ceiling
    exact ⟨ok, ceiling, DateTime.toUtc_toUtc (ContinuityEntry.toUtc_eq_some.mp h.1).1⟩
  rw [keys] at nodup
  rw [facts] at sum
  have document_eq : document = ContinuityProjection.document
      { p with observedAt := observed, publishedAt := published, entries := sortEntries us } := by
    rw [← hdoc, ContinuityProjection.document, ContinuityProjection.json, ContinuityProjection.json,
      sort_documents, sort_documents, sortEntries_sorted]
  refine ⟨{ p with observedAt := observed, publishedAt := published, entries := sortEntries us },
    ⟨⟨us, ?_, rfl⟩, hvalid, state, ?_, ?_, ?_, hread⟩, document_eq, ?_⟩
  · simp only [ContinuityProjection.toUtc, hobserved, hpub, hus]
    rfl
  · rw [perm.length_eq, ← utcs.length_eq]
    exact few
  · intro e he
    have he := mem_sortEntries.mp he
    exact ⟨(again e he).2, (allowed e he).2⟩
  · exact (perm.map _).nodup_iff.mpr nodup
  · intro observedAt hsame
    simp only [payloadDocument, sourceMetadata, bind_eq_ok, require_eq_ok, utc_eq_ok, pure_eq_ok]
    refine ⟨scopeJson, hscope, published, ⟨(), state, (), zone, (), zoneInfo,
      publishedTime_again hpublished rfl rfl hsame⟩, (), contract, (), digest, (), ?_, (), layers,
      (sortEntries us).map ContinuityEntry.document, ?_, observed, hsame.trans hobserved, ?_⟩
    · rw [perm.length_eq, ← utcs.length_eq]
      exact few
    · refine (entryDocuments_eq_ok (Nat.zero_le _)).mpr ⟨?_, ?_, (perm.map _).nodup_iff.mpr nodup, ?_⟩
      · exact forall₂_map_self fun e he => (again e (mem_sortEntries.mp he)).1
      · exact fun e he => ⟨(allowed e (mem_sortEntries.mp he)).1, by simp⟩
      · rwa [(perm.map _).sum_eq]
    · rw [document_eq]
      rfl

/-! ## Canonical form -/

theorem facts_canonical (facts : List ContinuityFact) : CanonicalElems (facts.map factJson) := by
  induction facts with
  | nil => trivial
  | cons fact facts ih =>
    refine ⟨⟨⟨trivial, trivial, trivial⟩, ?_⟩, ih⟩
    show factKeys.Pairwise (· < ·)
    decide

theorem context_canonical (context : Option ContinuityContext) : (contextJson context).Canonical := by
  cases context with
  | none => trivial
  | some context =>
    refine ⟨⟨trivial, trivial, trivial, trivial, trivial⟩, ?_⟩
    show contextKeys.Pairwise (· < ·)
    decide

theorem entries_canonical (entries : List ContinuityEntry) : CanonicalElems (entries.map ContinuityEntry.document) := by
  induction entries with
  | nil => trivial
  | cons entry entries ih =>
    refine ⟨⟨?_, ?_⟩, ih⟩
    · simp only [CanonicalMembers, Canonical, context_canonical, optionalText_canonical, facts_canonical, and_self]
    · show entryKeys.Pairwise (· < ·)
      decide

/-- The members of what is written, of a projection in UTC with its entries sorted. -/
def payloadMembers (w : ContinuityProjection) : List (String × Json) :=
  [("contract", .str continuityPayloadContract), ("entries", .arr (w.entries.map ContinuityEntry.document)),
    ("hosting_status", .str w.hostingStatus), ("observed_at", .str w.observedAt.isoformat),
    ("pointer_version", (w.pointerVersion.map Json.int).getD .null),
    ("published_at", (w.publishedAt.map fun t => Json.str t.isoformat).getD .null),
    ("release_id", optionalText w.releaseId), ("release_state", .str w.releaseState), ("scope", w.scope.json),
    ("source_contract", .str w.sourceContract), ("source_sha256", .str w.sourceSha256),
    ("work_status", .str w.workStatus), ("zone_name", .str w.zoneName)]

theorem ContinuityProjection.toUtc_eq_some {p u : ContinuityProjection} (h : p.toUtc = some u) :
    p.observedAt.toUtc = some u.observedAt ∧
      u = { p with observedAt := u.observedAt, publishedAt := u.publishedAt, entries := u.entries } := by
  simp only [ContinuityProjection.toUtc, Option.bind_eq_bind, Option.bind_eq_some_iff,
    Option.pure_def, Option.some.injEq] at h
  obtain ⟨observedAt, ho, publishedAt, -, entries, -, rfl⟩ := h
  exact ⟨ho, rfl⟩

section

variable {p w : ContinuityProjection}

theorem Written.fields (h : Written p w) : p.observedAt.toUtc = some w.observedAt ∧
    w = { p with observedAt := w.observedAt, publishedAt := w.publishedAt, entries := w.entries } := by
  obtain ⟨us, hus, -⟩ := h.utc
  obtain ⟨observed, fields⟩ := ContinuityProjection.toUtc_eq_some hus
  refine ⟨observed, ?_⟩
  have := congrArg (fun u : ContinuityProjection => { u with entries := w.entries }) fields
  exact this

theorem Written.document_eq (h : Written p w) : w.document = .obj (payloadMembers w) := by
  obtain ⟨us, -, hsort⟩ := h.utc
  rw [ContinuityProjection.document, ContinuityProjection.json, payloadMembers, sort_documents,
    hsort, sortEntries_sorted]

theorem Written.canonical (h : Written p w) : (Json.obj (payloadMembers w)).Canonical := by
  have pointer : ((w.pointerVersion.map Json.int).getD .null).Canonical := by
    have hp : w.pointerVersion = p.pointerVersion := by rw [h.fields.2]
    rw [hp]
    exact pointer_canonical h.release
  have published : ((w.publishedAt.map fun t => Json.str t.isoformat).getD .null).Canonical := by
    cases w.publishedAt <;> exact trivial
  refine ⟨?_, ?_⟩
  · simp only [payloadMembers, CanonicalMembers, Canonical, pointer, published, scope_canonical,
      optionalText_canonical, and_self, entries_canonical]
  · show payloadKeys.Pairwise (· < ·)
    decide

/-- Entries with different keys that are sorted are in the order of time. -/
theorem Written.sorted (h : Written p w) : w.entries.Pairwise Earlier := by
  obtain ⟨us, -, hsort⟩ := h.utc
  have sorted : w.entries.Pairwise fun a b => entryLe a b = true :=
    hsort ▸ List.pairwise_mergeSort entryLe_trans entryLe_total us
  have distinct := List.pairwise_map.mp h.nodup
  refine (sorted.and distinct).imp_of_mem ?_
  rintro a b ha hb ⟨hle, hne⟩
  exact (entryLe_iff (h.entries a ha).2.2 (h.entries b hb).2.2 hne).mp hle

/-! ## Reading what was written -/

/-- The manifest describes what the projection says of its source. -/
structure Describes (manifest : ContinuityManifest) (p : ContinuityProjection) : Prop where
  scope : manifest.scope = p.scope
  observed : manifest.observedAt.toUtc = p.observedAt.toUtc
  zoneName : manifest.zoneName = p.zoneName
  releaseState : manifest.releaseState = p.releaseState
  pointerVersion : manifest.pointerVersion = p.pointerVersion
  releaseId : manifest.releaseId = p.releaseId

theorem encodeContinuityPayload_eq_ok {data : ByteArray} :
    encodeContinuityPayload lib p = .ok data ↔ ∃ document, payloadDocument lib p = .ok document ∧
      document.finite ∧ data = document.encode ∧ data.size ≤ maxContinuityPayloadBytes := by
  simp only [encodeContinuityPayload, bind_eq_ok, canonical_eq_ok, require_eq_ok, pure_eq_ok]
  constructor
  · rintro ⟨document, hdoc, bytes, ⟨finite, rfl⟩, -, size, rfl⟩
    exact ⟨document, hdoc, finite, rfl, size⟩
  · rintro ⟨document, hdoc, finite, rfl, size⟩
    exact ⟨document, hdoc, _, ⟨finite, rfl⟩, (), size, rfl⟩

/-- What is written under a manifest is read under it. -/
theorem decode_encode {data : ByteArray} {manifest : ContinuityManifest}
    (h : encodeContinuityPayload lib p = .ok data) (d : Describes manifest p) :
    ∃ w, Written p w ∧ decodeContinuityPayload lib data manifest = .ok { w with observedAt := manifest.observedAt } := by
  obtain ⟨document, hdoc, -, rfl, size⟩ := encodeContinuityPayload_eq_ok.mp h
  obtain ⟨w, hw, rfl, again⟩ := payloadDocument_eq_ok hdoc
  refine ⟨w, hw, ?_⟩
  obtain ⟨observed, fields⟩ := hw.fields
  have small : Json.size (Json.obj (payloadMembers w)).chars ≤ maxContinuityPayloadBytes := by
    rw [← Json.size_encode, ← hw.document_eq]
    exact size
  have read : json lib.floatRepr w.document.encode payloadKeys maxContinuityPayloadBytes = .ok (payloadMembers w) := by
    rw [hw.document_eq]
    exact json_dumps lib.floatRepr hw.canonical rfl small
  have expected : ∀ f ∈ expectedFields manifest p.scope.json w.observedAt,
      Json.get? f.1 (payloadMembers w) = some f.2 := by
    rw [fields]
    simp only [expectedFields, List.forall_mem_cons, d.zoneName, d.releaseState, d.pointerVersion, d.releaseId]
    exact ⟨rfl, rfl, rfl, rfl, rfl, rfl, rfl, by simp⟩
  have result : { w with observedAt := manifest.observedAt } =
      ({ scope := manifest.scope, sourceContract := w.sourceContract, sourceSha256 := w.sourceSha256,
         observedAt := manifest.observedAt, zoneName := manifest.zoneName, releaseState := manifest.releaseState,
         pointerVersion := manifest.pointerVersion, releaseId := manifest.releaseId, publishedAt := w.publishedAt,
         hostingStatus := w.hostingStatus, workStatus := w.workStatus, entries := w.entries } :
        ContinuityProjection) := by
    rw [d.scope, d.zoneName, d.releaseState, d.pointerVersion, d.releaseId, fields]
  simp only [decodeContinuityPayload, bind_eq_ok, require_eq_ok, utc_eq_ok, scopeDocument_eq_ok,
    encodeContinuityPayload_eq_ok, pure_eq_ok]
  refine ⟨_, read, p.scope.json, ⟨d.scope ▸ hw.scope, by rw [d.scope]⟩, w.observedAt, d.observed.trans observed, (),
    expected, _, ⟨_, rfl, rfl⟩, (),
      by rw [List.length_map]; exact hw.few, w.sourceContract, ⟨_, rfl, rfl⟩, w.sourceSha256,
    ⟨_, rfl, rfl⟩, w.hostingStatus, ⟨_, rfl, rfl⟩, w.workStatus, ⟨_, rfl, rfl⟩, w.publishedAt,
    ⟨_, rfl, hw.published⟩, w.entries, decodedEntries_map fun e he => (hw.entries e he).1, _, ?_, (), rfl, result.symm⟩
  rw [← result]
  exact ⟨w.document, again _ d.observed, hw.document_eq ▸ hw.canonical.finite, rfl, size⟩

/-- What is read is what would be written of it. -/
theorem decodeContinuityPayload_eq_ok {data : ByteArray} {manifest : ContinuityManifest}
    {q : ContinuityProjection} (h : decodeContinuityPayload lib data manifest = .ok q) :
    encodeContinuityPayload lib q = .ok data ∧ ∃ w, Written q w ∧ q.entries = w.entries := by
  simp only [decodeContinuityPayload, bind_eq_ok, require_eq_ok, pure_eq_ok] at h
  obtain ⟨members, hjson, _, _, _, _, _, _, rows, ⟨rowsValue, hrows, harr⟩, _, _, _, _, _, _,
    _, _, _, _, _, _, entries, hentries, bytes, again, _, hbytes, hq⟩ := h
  rw [hq, hbytes] at again
  have entries_eq : q.entries = entries := by rw [← hq]
  obtain ⟨document, hdoc, -, hdata, -⟩ := encodeContinuityPayload_eq_ok.mp again
  obtain ⟨w, hw, hdocument, -⟩ := payloadDocument_eq_ok hdoc
  rw [hdocument, hw.document_eq] at hdata
  have hmembers := members_of_json hjson hw.canonical hdata
  rw [hmembers] at hrows
  obtain rfl : .arr (w.entries.map ContinuityEntry.document) = rowsValue := Except.ok.inj hrows
  obtain rfl : w.entries.map ContinuityEntry.document = rows := Except.ok.inj harr
  have same := Except.ok.inj ((decodedEntries_map fun e he => (hw.entries e he).1).symm.trans hentries)
  exact ⟨again, w, hw, by rw [entries_eq, same]⟩

end

/-- A payload is read under its manifest as what was written, in UTC and with the entries in the
order of time; what is read is written again as the same bytes, in that order and within its
audience's ceiling; so the reader accepts just what the writer gives. The order of texts that
sorts the entries is the order of time. -/
theorem continuityPayload_roundTrip (lib : Library) :
    (∀ p data manifest, encodeContinuityPayload lib p = .ok data → Describes manifest p →
      ∃ u entries, p.toUtc = some u ∧ entries.Perm u.entries ∧ entries.Pairwise Earlier ∧
        decodeContinuityPayload lib data manifest = .ok { u with observedAt := manifest.observedAt, entries } ∧
        (manifest.observedAt.toUtc = some manifest.observedAt → manifest.observedAt = u.observedAt)) ∧
    (∀ data manifest q, decodeContinuityPayload lib data manifest = .ok q →
      encodeContinuityPayload lib q = .ok data ∧ q.entries.Pairwise Earlier ∧
        ∀ entry ∈ q.entries, entry.startsAt.toUtc = some entry.startsAt ∧ WithinCeiling q.scope entry) ∧
    (∀ data, (∃ manifest q, decodeContinuityPayload lib data manifest = .ok q) ↔
      ∃ p, encodeContinuityPayload lib p = .ok data) ∧
    ∀ a b : DateTime, a.toUtc = some a → b.toUtc = some b → (a.isoformat < b.isoformat ↔ a.wall < b.wall) := by
  refine ⟨?_, ?_, ?_, fun a b => isoformat_lt_wall⟩
  · intro p data manifest h d
    obtain ⟨w, hw, hdecode⟩ := decode_encode h d
    obtain ⟨us, hus, hsort⟩ := hw.utc
    obtain ⟨observed, -⟩ := hw.fields
    refine ⟨_, w.entries, hus, hsort ▸ List.mergeSort_perm us entryLe, hw.sorted, hdecode, fun utc => ?_⟩
    exact Option.some.inj (utc.symm.trans (d.observed.trans observed))
  · intro data manifest q h
    obtain ⟨hencode, w, hw, hentries⟩ := decodeContinuityPayload_eq_ok h
    refine ⟨hencode, hentries ▸ hw.sorted, ?_⟩
    intro entry he
    obtain ⟨-, ceiling, utc⟩ := hw.entries entry (hentries ▸ he)
    exact ⟨utc, ceiling⟩
  · intro data
    constructor
    · rintro ⟨manifest, q, h⟩
      exact ⟨q, (decodeContinuityPayload_eq_ok h).1⟩
    · rintro ⟨p, h⟩
      let manifest : ContinuityManifest :=
        { scope := p.scope, keyId := "", observedAt := p.observedAt, issuedAt := p.observedAt, expiresAt := p.observedAt,
          zoneName := p.zoneName, releaseState := p.releaseState, pointerVersion := p.pointerVersion,
          releaseId := p.releaseId, payloadSha256 := "" }
      have describes : Describes manifest p := ⟨rfl, rfl, rfl, rfl, rfl, rfl⟩
      obtain ⟨w, -, hdecode⟩ := decode_encode h describes
      exact ⟨manifest, _, hdecode⟩

end Maru.Scheduling

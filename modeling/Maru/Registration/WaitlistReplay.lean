import Maru.Registration.CapacityBound
import Maru.Registration.QuietCommands

/-!
# A repeated batch

A batch stamps its offers with its idempotency key, and no other command offers in the name
of an account. So the offers under a key are those of the one batch that has its receipt
(`Attested`), and a retry reads them back from the timeline, however much has happened since
(`run_repeats`).
-/

namespace Maru.Registration

variable {P : Primitives} {now : Int} {w : Surroundings} {a a' : Admissions}

/-! ## Offers have receipts -/

/-- Every offer of an account is of a registration, under a key that has a receipt. -/
structure Attested (a : Admissions) : Prop where
  sited : ∀ r ∈ a.registrations, Sited a r
  offers : ∀ t ∈ a.timeline, t.StaffOffer → ∃ r, a.registrations.get? t.registrationId = some r ∧
    ∃ actorId, t.actorId = some actorId ∧
      ∃ receipt, a.commerceReceipts.get? (r.configurationId, actorId, t.correlationId) = some receipt

theorem SamePlace.configuration {r r' : Registration} (h : SamePlace r r') : r.configurationId = r'.configurationId :=
  (Prod.mk.inj (Prod.mk.inj (Prod.mk.inj h).2).2).2

/-- Offers that had their receipts have them. -/
theorem Attested.appends (ha : Attested a) {entries : List TimelineEntry} (h : Appends entries a a')
    (attested : ∀ t ∈ entries, t.StaffOffer → ∃ r, a'.registrations.get? t.registrationId = some r ∧
      ∃ actorId, t.actorId = some actorId ∧
        ∃ receipt, a'.commerceReceipts.get? (r.configurationId, actorId, t.correlationId) = some receipt) :
    Attested a' where
  sited := h.sited ha.sited
  offers t ht offer := by
    rw [h.timeline] at ht
    rcases List.mem_append.mp ht with ht | ht
    · obtain ⟨r, hr, actorId, actor, receipt, received⟩ := ha.offers t ht offer
      obtain ⟨r', hr', same⟩ := h.registrations _ r hr
      obtain ⟨_, kept, rfl⟩ := h.receipts _ receipt received
      exact ⟨r', hr', actorId, actor, receipt, same.configuration ▸ kept⟩
    · exact attested t ht offer

theorem Attested.quiet (ha : Attested a) (h : Quiet a a') : Attested a' := by
  obtain ⟨entries, appends, silent⟩ := h
  exact ha.appends appends fun t ht offer => absurd offer (silent t ht)

/-- The offers under a key of a configuration. -/
def Admissions.offersUnder (a : Admissions) (x : BatchRequest) (c : Configuration) (t : TimelineEntry) : Bool :=
  t.correlationId = x.idempotencyKey ∧ t.kind = "waitlist_place_offered" ∧
    t.actorKind = "account" ∧ t.actorId = some x.actorId ∧
    (a.registrations.get? t.registrationId).any fun r => r.configurationId = c.id ∧
      r.organizationId = x.organizationId ∧ r.editionId = x.editionId

/-- A batch is read back in the order of the timeline's rows, whatever that is. -/
theorem batchRegistrations_perm (a : Admissions) (x : BatchRequest) (c : Configuration) :
    (a.batchRegistrations P x c).Perm ((a.timeline.filter (a.offersUnder x c)).map TimelineEntry.registrationId) :=
  (List.perm_insertionSort _ _).map _

theorem offersUnder_offer {x : BatchRequest} {c : Configuration} {t : TimelineEntry}
    (h : a.offersUnder x c t = true) : t.StaffOffer := by
  simp only [Admissions.offersUnder, decide_eq_true_eq] at h
  exact ⟨h.2.1, h.2.2.1⟩

/-- What an offer is under does not change. -/
theorem offersUnder_appends (ha : Attested a) {entries : List TimelineEntry} (h : Appends entries a a')
    (x : BatchRequest) (c : Configuration) {t : TimelineEntry} (ht : t ∈ a.timeline) :
    a'.offersUnder x c t = a.offersUnder x c t := by
  by_cases offer : t.StaffOffer
  · obtain ⟨r, hr, -⟩ := ha.offers t ht offer
    obtain ⟨r', hr', same⟩ := h.registrations _ r hr
    simp only [SamePlace, Registration.place, Prod.mk.injEq] at same
    obtain ⟨-, organization, edition, configuration⟩ := same
    simp only [Admissions.offersUnder, hr, hr', Option.any_some, organization, edition, configuration]
  · have other : ∀ b : Admissions, b.offersUnder x c t = false := fun b =>
      Bool.eq_false_iff.mpr fun h => offer (offersUnder_offer h)
    rw [other, other]

/-- Under a key only the entries appended under it are new. -/
theorem batchRegistrations_appends (ha : Attested a) {entries : List TimelineEntry} (h : Appends entries a a')
    (x : BatchRequest) (c : Configuration) : (a'.batchRegistrations P x c).Perm
      (a.batchRegistrations P x c ++ (entries.filter (a'.offersUnder x c)).map TimelineEntry.registrationId) := by
  refine (batchRegistrations_perm a' x c).trans ?_
  rw [h.timeline, List.filter_append, List.map_append, List.filter_congr fun t ht => offersUnder_appends ha h x c ht]
  exact (batchRegistrations_perm a x c).symm.append_right _

/-- There are no offers under a key that has no receipt. -/
theorem batchRegistrations_of_fresh (ha : Attested a) {x : BatchRequest} {c : Configuration}
    (fresh : a.commerceReceipts.get? (c.id, x.actorId, x.idempotencyKey) = none) : a.batchRegistrations P x c = [] := by
  refine List.Perm.eq_nil ((batchRegistrations_perm a x c).trans (.of_eq ?_))
  rw [List.map_eq_nil_iff, List.filter_eq_nil_iff]
  intro t ht under
  obtain ⟨r, hr, actorId, actor, receipt, received⟩ := ha.offers t ht (offersUnder_offer under)
  simp only [Admissions.offersUnder, hr, Option.any_some, decide_eq_true_eq, actor, Option.some.injEq] at under
  obtain ⟨key, -, -, rfl, configuration, -⟩ := under
  rw [key, configuration, fresh] at received
  cases received

/-! ## One batch -/

/-- The entries of offers by an account under a correlation identifier. -/
def OffersBy (actorId correlationId : Uuid) (entries : List TimelineEntry) : Prop :=
  ∀ t ∈ entries, t.StaffOffer ∧ t.actorId = some actorId ∧ t.correlationId = correlationId

theorem appends_offerPlace {r : Registration} {c : Configuration} {p : AdmissionProduct}
    {actorId correlationId : Uuid} (hr : r ∈ a.registrations)
    (h : a.offerPlace w now (r.offered c p now) "account" (some actorId) correlationId = .ok a') :
    ∃ t, Appends [t] a a' ∧ t.registrationId = r.id ∧ OffersBy actorId correlationId [t] := by
  simp only [Admissions.offerPlace, bind_eq_ok, pure_eq_ok] at h
  obtain ⟨a₁, h₁, a₂, h₂, rfl⟩ := h
  have stays := (stays_save hr (place_offered r c p now) h₁).trans (stays_grantIfConfirmed h₂)
  refine ⟨_, stays.trans (appends_of_registrations rfl rfl rfl (keeps_self _) (keeps_self _) rfl), ?_, ?_⟩
  · exact (updates_offered r c p now).id
  · intro t ht
    obtain rfl := List.mem_singleton.mp ht
    exact ⟨⟨rfl, rfl⟩, rfl, rfl⟩

theorem appends_offerEach {actorId correlationId : Uuid} (rs : List Registration) {a : Admissions}
    (mem : ∀ r ∈ rs, r ∈ a.registrations) (distinct : (rs.map Registration.id).Nodup)
    (h : offerEach a w actorId now correlationId rs = .ok a') :
    ∃ entries, Appends entries a a' ∧ entries.map TimelineEntry.registrationId =
      rs.map Registration.id ∧ OffersBy actorId correlationId entries := by
  induction rs generalizing a with
  | nil =>
    cases h
    exact ⟨[], .refl _, rfl, List.forall_mem_nil _⟩
  | cons r rs ih =>
    simp only [offerEach, bind_eq_ok, offerWaitlistedRegistration] at h
    obtain ⟨a₁, ⟨c, -, p, -, h₁⟩, h⟩ := h
    rw [List.map_cons, List.nodup_cons] at distinct
    obtain ⟨hr, hrs⟩ := List.forall_mem_cons.mp mem
    obtain ⟨t, first, about, offer⟩ := appends_offerPlace hr h₁
    have still : ∀ r' ∈ rs, r' ∈ a₁.registrations := by
      intro r' hr'
      rw [(offerPlace_eq_ok h₁).2.registrations]
      refine Table.mem_save.mpr (.inl ⟨hrs r' hr', fun same => distinct.1 ?_⟩)
      rw [← (updates_offered r c p now).id, ← same]
      exact List.mem_map_of_mem hr'
    obtain ⟨entries, rest, abouts, offers⟩ := ih still distinct.2 h
    refine ⟨t :: entries, first.trans rest, by rw [List.map_cons, List.map_cons, about, abouts], ?_⟩
    exact List.forall_mem_cons.mpr ⟨offer t (List.mem_singleton_self t), offers⟩

/-- The digest that the receipt of a batch keeps. -/
def BatchRequest.digest (P : Primitives) (x : BatchRequest) (reason : String) : String :=
  P.canonicalDigest (.obj
    [("operation", .str CommerceOperation.waitlistBatchOffered.text), ("organization_id", .str x.organizationId.text),
      ("edition_id", .str x.editionId.text), ("product_id", .str x.productId.text), ("batch_size", .int x.batchSize),
      ("reason", .str reason), ("actor_id", .str x.actorId.text),
      ("expected_control_version", .int x.expectedControlVersion)])

/-- The receipt of a batch, with its result. -/
structure CommerceReceipt.Answers (receipt : CommerceReceipt) (digest : String)
    (result : WaitlistBatchResult) : Prop where
  operation : receipt.operation = .waitlistBatchOffered
  digest : receipt.requestDigest = digest
  batch : receipt.resultId = result.batch.id
  version : receipt.resultingVersion = result.controlVersion

/-- A batch of the request: one it recorded before, or one that it offers and records. -/
inductive BatchOutcome (P : Primitives) (a : Admissions) (w : Surroundings) (x : BatchRequest)
    (c : Configuration) (digest : String) : Admissions → WaitlistBatchResult → Prop
  | replayed {a' : Admissions} {result : WaitlistBatchResult} {receipt : CommerceReceipt}
      (replayed : result.replayed = true)
      (stays : Appends [] a a') (registrations : a'.registrations = a.registrations)
      (received : a.commerceReceipts.get? (c.id, x.actorId, x.idempotencyKey) = some receipt)
      (answers : receipt.Answers digest result) (batch : a.batches.get? result.batch.id = some result.batch)
      (offered : result.offeredRegistrationIds = a.batchRegistrations P x c) : BatchOutcome P a w x c digest a' result
  | offered {a' : Admissions} {result : WaitlistBatchResult} {receipt : CommerceReceipt}
      {rs : List Registration} {entries : List TimelineEntry}
      (fresh : a.commerceReceipts.get? (c.id, x.actorId, x.idempotencyKey) = none)
      (waiting : ∀ r ∈ rs, r ∈ a.waitlist w x.productId) (appends : Appends entries a a')
      (about : entries.map TimelineEntry.registrationId = rs.map Registration.id)
      (offers : OffersBy x.actorId x.idempotencyKey entries)
      (received : a'.commerceReceipts.get? (c.id, x.actorId, x.idempotencyKey) = some receipt)
      (answers : receipt.Answers digest result) (batch : a'.batches.get? result.batch.id = some result.batch)
      (offered : result.offeredRegistrationIds = rs.map Registration.id) : BatchOutcome P a w x c digest a' result

theorem existingReceipt_eq_ok {control : CommerceControl} {actorId idempotencyKey : Uuid}
    {operation : CommerceOperation} {requestDigest : String} {receipt : Option CommerceReceipt}
    (h : a.existingReceipt control actorId idempotencyKey operation requestDigest = .ok receipt) :
    a.commerceReceipts.get? (control.configurationId, actorId, idempotencyKey) = receipt ∧
      ∀ x, receipt = some x → x.operation = operation ∧ x.requestDigest = requestDigest := by
  unfold Admissions.existingReceipt at h
  split at h
  · rename_i fresh
    cases h
    exact ⟨fresh, fun _ none => by cases none⟩
  · rename_i found
    simp only [bind_eq_ok, require_eq_ok, pure_eq_ok] at h
    obtain ⟨_, same, rfl⟩ := h
    exact ⟨found, fun x some => Option.some.inj some ▸ same⟩

/-- What an accepted batch is about, and what comes of it. -/
theorem offerBatch_outcome {x : BatchRequest} {batchId : Uuid} {result : WaitlistBatchResult}
    (h : offerNextWaitlistBatch P a w now x batchId = .ok (a', result)) :
    ∃ reason, commerceReason x.reason = .ok reason ∧
      ∃ c ∈ a.configurations, c.organizationId = x.organizationId ∧ c.editionId = x.editionId ∧
        ∃ p ∈ a.products, p.id = x.productId ∧ p.configurationId = c.id ∧ result.batch.configurationId = c.id ∧
          result.batch.productId = p.id ∧ BatchOutcome P a w x c (x.digest P reason) a' result := by
  simp only [offerNextWaitlistBatch, bind_eq_ok, getOr_eq_ok] at h
  obtain ⟨_, -, reason, normal, _, -, c, hc, p, hp, ⟨a₁, k⟩, hk, receipt, hreceipt, h⟩ := h
  obtain ⟨hc, at_⟩ := Table.find?_eq_some_and (getOr_eq_ok.mp hc)
  obtain ⟨hp, of⟩ := Table.find?_eq_some_and hp
  have stays := stays_lockControl hk
  obtain ⟨_, -, control⟩ := lockControl_eq_ok hk
  obtain ⟨controls, rfl⟩ := lockControl_controls hk
  obtain ⟨found, same⟩ := existingReceipt_eq_ok hreceipt
  rw [control] at found
  refine ⟨reason, normal, c, hc, at_.1, at_.2.1, p, hp, of.1, of.2, ?_⟩
  split at h
  · rename_i receipt
    simp only [bind_eq_ok, getOr_eq_ok, pure_eq_ok, Prod.mk.injEq] at h
    obtain ⟨batch, hbatch, rfl, rfl⟩ := h
    obtain ⟨hb, is⟩ := Table.find?_eq_some_and hbatch
    obtain ⟨operation, digest⟩ := same receipt rfl
    exact ⟨is.2.1, is.2.2, .replayed rfl stays rfl found ⟨operation, digest, is.1.symm, rfl⟩
      (Table.get?_eq_some.mpr ⟨hb, rfl⟩) rfl⟩
  simp only [bind_eq_ok, getOr_eq_ok, pure_eq_ok, Prod.mk.injEq] at h
  obtain ⟨_, -, _, -, a₂, h₂, t, inserted, a₃, h₃, rfl, rfl⟩ := h
  have waiting : ∀ n, ∀ r ∈ (a.waitlist w p.id).take n, r ∈ a.waitlist w p.id := fun _ _ => List.mem_of_mem_take
  obtain ⟨entries, offered, about, offers⟩ := appends_offerEach (a := { a with controls := controls }) _
    (fun r hr => (mem_waitlist (waiting _ r hr)).1) (((List.take_sublist _ _).map _).nodup (nodup_waitlist a w p.id)) h₂
  have batches : Appends [] (a₂.advanceControl k).1 { (a₂.advanceControl k).1 with batches := t } :=
    appends_of_registrations rfl rfl rfl (keeps_self _)
      (Table.keeps_insert? (fun _ => rfl) inserted) (List.append_nil _).symm
  have all := ((stays.trans offered).trans (stays_advanceControl a₂ k)).trans (batches.trans (stays_receipt h₃))
  simp only [List.nil_append, List.append_nil] at all
  simp only [Admissions.createCommerceReceipt, bind_eq_ok, pure_eq_ok, getOr_eq_ok] at h₃
  obtain ⟨receipts, received, rfl⟩ := h₃
  have key : receipts.get? (k.configurationId, x.actorId, x.idempotencyKey) = _ :=
    (Table.get?_insert? received _).trans (if_pos rfl)
  rw [control] at key
  refine ⟨rfl, rfl, .offered found ?_ all about offers key ⟨rfl, rfl, rfl, rfl⟩ ?_ rfl⟩
  · rw [← of.1]
    exact waiting _
  · show t.get? _ = _
    rw [Table.get?_insert? inserted]
    exact if_pos rfl

/-- The store has the receipt of the request, with the result it answered. -/
structure BatchRecorded (P : Primitives) (x : BatchRequest) (result : WaitlistBatchResult) (a : Admissions) : Prop where
  attested : Attested a
  product : ∃ p ∈ a.products, p.id = x.productId ∧ p.configurationId = result.batch.configurationId
  batch : a.batches.get? result.batch.id = some result.batch
  ofProduct : result.batch.productId = x.productId
  receipt : ∃ reason receipt, commerceReason x.reason = .ok reason ∧
    a.commerceReceipts.get? (result.batch.configurationId, x.actorId, x.idempotencyKey) = some receipt ∧
    receipt.Answers (x.digest P reason) result
  offered : ∀ c : Configuration, c.id = result.batch.configurationId →
    (a.batchRegistrations P x c).Perm result.offeredRegistrationIds

/-- What goes through keeps a recorded request, if it offers nothing under its key. -/
theorem BatchRecorded.appends {x : BatchRequest} {result : WaitlistBatchResult} (hx : BatchRecorded P x result a)
    {entries : List TimelineEntry} (h : Appends entries a a') (attested : Attested a')
    (apart : ∀ c : Configuration, c.id = result.batch.configurationId → ∀ t ∈ entries, a'.offersUnder x c t = false) :
    BatchRecorded P x result a' where
  attested := attested
  product := h.products ▸ hx.product
  batch := by
    obtain ⟨_, kept, rfl⟩ := h.batches _ _ hx.batch
    exact kept
  ofProduct := hx.ofProduct
  receipt := by
    obtain ⟨reason, receipt, normal, received, answers⟩ := hx.receipt
    obtain ⟨_, kept, rfl⟩ := h.receipts _ _ received
    exact ⟨reason, receipt, normal, kept, answers⟩
  offered c hc := by
    have none : entries.filter (a'.offersUnder x c) = [] :=
      List.filter_eq_nil_iff.mpr fun t ht => Bool.not_eq_true _ ▸ apart c hc t ht
    have appended := batchRegistrations_appends (P := P) hx.attested h x c
    rw [none, List.map_nil, List.append_nil] at appended
    exact appended.trans (hx.offered c hc)

/-- A waiting registration of a product is where the product's configuration is. -/
theorem sited_waitlist (ha : Attested a) {c : Configuration} (hc : c ∈ a.configurations) {p : AdmissionProduct}
    (hp : p ∈ a.products) (of : p.configurationId = c.id) {r : Registration} (hr : r ∈ a.waitlist w p.id) :
    r.configurationId = c.id ∧ r.organizationId = c.organizationId ∧ r.editionId = c.editionId := by
  obtain ⟨hr, product, -⟩ := mem_waitlist hr
  obtain ⟨⟨q, hq, hid, hconf⟩, site⟩ := ha.sited r hr
  obtain rfl := Table.eq_of_key hp hq (product.symm.trans hid.symm)
  have configuration : r.configurationId = c.id := hconf.symm.trans of
  obtain ⟨organization, edition⟩ := site c hc configuration.symm
  exact ⟨configuration, organization.symm, edition.symm⟩

/-- An accepted batch, new or not, is recorded with what it answers. -/
theorem recorded_offerBatch (ha : Attested a) {x : BatchRequest} {batchId : Uuid} {result : WaitlistBatchResult}
    (h : offerNextWaitlistBatch P a w now x batchId = .ok (a', result)) : BatchRecorded P x result a' := by
  obtain ⟨reason, normal, c, hc, organization, edition, p, hp, product, of, configuration, ofProduct, outcome⟩ :=
    offerBatch_outcome h
  have same : ∀ {d : Configuration}, d.id = result.batch.configurationId → ∀ b : Admissions,
      b.batchRegistrations P x d = b.batchRegistrations P x c := by
    intro d hd b
    simp only [Admissions.batchRegistrations, hd.trans configuration]
  cases outcome with
  | @replayed receipt _ stays _ received answers batch offered =>
    have recorded : BatchRecorded P x result a :=
      ⟨ha, ⟨p, hp, product, of.trans configuration.symm⟩, batch, ofProduct.trans product,
        ⟨reason, receipt, normal, configuration ▸ received, answers⟩,
          fun d hd => .of_eq ((same hd a).trans offered.symm)⟩
    exact recorded.appends stays (ha.quiet stays.quiet) fun _ _ => List.forall_mem_nil _
  | @offered receipt rs entries fresh waiting appends about offers received answers batch offered =>
    have placed : ∀ t ∈ entries, ∃ r, a'.registrations.get? t.registrationId = some r ∧ r.configurationId = c.id ∧
        r.organizationId = x.organizationId ∧ r.editionId = x.editionId := by
      intro t ht
      obtain ⟨r, hr, hid⟩ := List.mem_map.mp (about ▸ List.mem_map_of_mem ht)
      have hr := product.symm ▸ waiting r hr
      obtain ⟨r', hr', at_⟩ := appends.registrations _ r (Table.get?_eq_some.mpr ⟨(mem_waitlist hr).1, hid⟩)
      obtain ⟨conf, org, ed⟩ := sited_waitlist ha hc hp of hr
      simp only [SamePlace, Registration.place, Prod.mk.injEq] at at_
      exact ⟨r', hr', at_.2.2.2.symm.trans conf, at_.2.1.symm.trans (org.trans organization),
        at_.2.2.1.symm.trans (ed.trans edition)⟩
    have attested : Attested a' := by
      refine ha.appends appends fun t ht _ => ?_
      obtain ⟨r, hr, conf, -⟩ := placed t ht
      obtain ⟨-, actor, key⟩ := offers t ht
      exact ⟨r, hr, _, actor, receipt, by rw [conf, key]; exact received⟩
    have under : ∀ t ∈ entries, a'.offersUnder x c t = true := by
      intro t ht
      obtain ⟨r, hr, place⟩ := placed t ht
      obtain ⟨⟨kind, actorKind⟩, actor, key⟩ := offers t ht
      simp only [Admissions.offersUnder, decide_eq_true_eq, hr, Option.any_some]
      exact ⟨key, kind, actorKind, actor, place⟩
    refine ⟨attested, ⟨p, appends.products ▸ hp, product, of.trans configuration.symm⟩, batch, ofProduct.trans product,
      ⟨reason, receipt, normal, configuration ▸ received, answers⟩, fun d hd => ?_⟩
    have appended := batchRegistrations_appends (P := P) ha appends x c
    rw [batchRegistrations_of_fresh ha fresh, List.nil_append, List.filter_eq_self.mpr under, about] at appended
    rw [same hd, offered]
    exact appended

/-- A batch leaves the record of every request as it is. -/
theorem BatchRecorded.offerBatch {y : BatchRequest} {recorded : WaitlistBatchResult} (hy : BatchRecorded P y recorded a)
    {x : BatchRequest} {batchId : Uuid} {result : WaitlistBatchResult}
    (h : offerNextWaitlistBatch P a w now x batchId = .ok (a', result)) : BatchRecorded P y recorded a' := by
  have attested := (recorded_offerBatch hy.attested h).attested
  obtain ⟨_, _, c, hc, organization, edition, p, hp, product, of, _, _, outcome⟩ := offerBatch_outcome h
  cases outcome with
  | replayed _ stays => exact hy.appends stays attested fun _ _ => List.forall_mem_nil _
  | @offered receipt rs entries fresh waiting appends about offers =>
    refine hy.appends appends attested fun d hd t ht => ?_
    rw [Bool.eq_false_iff]
    intro under
    -- An offer under the recorded key would have met its receipt.
    obtain ⟨-, actor, key⟩ := offers t ht
    obtain ⟨r, hr, hid⟩ := List.mem_map.mp (about ▸ List.mem_map_of_mem ht)
    have hr := product.symm ▸ waiting r hr
    obtain ⟨r', hr', at_⟩ := appends.registrations _ r (Table.get?_eq_some.mpr ⟨(mem_waitlist hr).1, hid⟩)
    have conf := at_.configuration.symm.trans (sited_waitlist hy.attested hc hp of hr).1
    simp only [Admissions.offersUnder, decide_eq_true_eq, hr', Option.any_some, actor, key,
      Option.some.injEq, conf] at under
    obtain ⟨sameKey, -, -, sameActor, sameConfiguration, -⟩ := under
    obtain ⟨_, _, -, received, -⟩ := hy.receipt
    rw [← hd, ← sameConfiguration, ← sameActor, ← sameKey, fresh] at received
    cases received

/-! ## Runs -/

theorem BatchRecorded.exec {x : BatchRequest} {result : WaitlistBatchResult} {s s' : System}
    {call : Call} {answer : Answer}
    (hx : BatchRecorded P x result s.store.admissions) (h : exec P s call = .ok (s', answer)) :
    BatchRecorded P x result s'.store.admissions := by
  replace h := exec_eq_ok h
  obtain ⟨store, rfl, h⟩ := h
  by_cases batch : ∃ y, call.command = .offerWaitlistBatch y
  · obtain ⟨y, batch⟩ := batch
    simp only [execCommand, batch] at h
    obtain ⟨_, hb, -⟩ := withAdmissions_eq_ok h
    exact hx.offerBatch hb
  · obtain ⟨entries, appends, silent⟩ := quiet_execCommand (fun y hy => batch ⟨y, hy⟩) h
    refine hx.appends appends (hx.attested.quiet ⟨entries, appends, silent⟩) fun c _ t ht => ?_
    exact Bool.eq_false_iff.mpr fun under => silent t ht (offersUnder_offer under)

theorem Attested.exec {s s' : System} {call : Call} {answer : Answer} (hs : Attested s.store.admissions)
    (h : exec P s call = .ok (s', answer)) : Attested s'.store.admissions := by
  replace h := exec_eq_ok h
  obtain ⟨store, rfl, h⟩ := h
  by_cases batch : ∃ y, call.command = .offerWaitlistBatch y
  · obtain ⟨y, batch⟩ := batch
    simp only [execCommand, batch] at h
    obtain ⟨_, hb, -⟩ := withAdmissions_eq_ok h
    exact (recorded_offerBatch hs hb).attested
  · exact hs.quiet (quiet_execCommand (fun y hy => batch ⟨y, hy⟩) h)

/-- The recorded request answers what it answered, and offers nobody a place. -/
theorem BatchRecorded.repeats {x : BatchRequest} {result : WaitlistBatchResult} (hx : BatchRecorded P x result a)
    {batchId : Uuid} {again : WaitlistBatchResult} (h : offerNextWaitlistBatch P a w now x batchId = .ok (a', again)) :
    again.replayed = true ∧ again.batch = result.batch ∧ again.controlVersion = result.controlVersion ∧
      again.offeredRegistrationIds.Perm result.offeredRegistrationIds ∧ a'.registrations = a.registrations := by
  obtain ⟨_, _, c, hc, _, _, p, hp, product, of, _, _, outcome⟩ := offerBatch_outcome h
  obtain ⟨q, hq, sameProduct, sameConfiguration⟩ := hx.product
  obtain rfl := Table.eq_of_key hp hq (product.trans sameProduct.symm)
  have id : c.id = result.batch.configurationId := of.symm.trans sameConfiguration
  obtain ⟨_, receipt, -, received, answers⟩ := hx.receipt
  cases outcome with
  | @replayed receipt' replayed _ registrations found answers' batch offered =>
    rw [id, received, Option.some.injEq] at found
    subst found
    have batches := answers'.batch.symm.trans answers.batch
    rw [batches, hx.batch, Option.some.injEq] at batch
    exact ⟨replayed, batch.symm, answers'.version.symm.trans answers.version, offered ▸ hx.offered c id, registrations⟩
  | offered fresh =>
    rw [id, received] at fresh
    cases fresh

theorem exists_lockControl (a : Admissions) (c : Configuration) : ∃ a' k, a.lockControl c = .ok (a', k) := by
  unfold Admissions.lockControl
  split
  · exact ⟨_, _, rfl⟩
  · rename_i none
    obtain ⟨t, inserted⟩ := Table.exists_insert?_eq_some (r := (⟨c.id, 1⟩ : CommerceControl)).mpr none
    exact ⟨{ a with controls := t }, ⟨c.id, 1⟩, by simp only [inserted, getOr, ok_bind]; rfl⟩

theorem requested_of_offerBatch {x : BatchRequest} {batchId : Uuid} {result : WaitlistBatchResult}
    (h : offerNextWaitlistBatch P a w now x batchId = .ok (a', result)) :
    1 ≤ x.batchSize ∧ x.batchSize ≤ maxWaitlistBatchSize := by
  simp only [offerNextWaitlistBatch, bind_eq_ok, require_eq_ok] at h
  obtain ⟨_, -, _, -, _, size, -⟩ := h
  exact size

/-- While its configuration is active, the recorded request is answered. -/
theorem BatchRecorded.accepted {x : BatchRequest} {result : WaitlistBatchResult}
    (hx : BatchRecorded P x result a) (size : 1 ≤ x.batchSize ∧ x.batchSize ≤ maxWaitlistBatchSize)
    (permitted : w.requireDecision x.actorId .manageExceptions x.organizationId x.editionId = .ok ())
    {c : Configuration} (active : a.activeConfiguration w x.organizationId x.editionId = .ok c)
    (id : c.id = result.batch.configurationId) (batchId : Uuid) :
    ∃ answered, offerNextWaitlistBatch P a w now x batchId = .ok answered := by
  obtain ⟨p, hp, product, configuration⟩ := hx.product
  obtain ⟨reason, receipt, normal, received, answers⟩ := hx.receipt
  obtain ⟨q, hq⟩ : ∃ q, a.products.rows.find? (fun p => p.id = x.productId ∧ p.configurationId = c.id) = some q :=
    Option.isSome_iff_exists.mp (List.find?_isSome.mpr ⟨p, hp, by simp [product, configuration, id]⟩)
  have same := Table.find?_eq_some_and hq
  obtain ⟨a₁, k, locked⟩ := exists_lockControl a c
  obtain ⟨-, -, control⟩ := lockControl_eq_ok locked
  obtain ⟨controls, rfl⟩ := lockControl_controls locked
  have stored : (a.batches.rows.find? fun b =>
      b.id = receipt.resultId ∧ b.configurationId = c.id ∧ b.productId = q.id).isSome := by
    refine List.find?_isSome.mpr ⟨result.batch, (Table.get?_eq_some.mp hx.batch).1, ?_⟩
    simp [answers.batch, id, hx.ofProduct, same.2.1]
  obtain ⟨batch, hbatch⟩ := Option.isSome_iff_exists.mp stored
  have digest : receipt.requestDigest = _ := answers.digest
  rw [← id, ← control] at received
  refine ⟨({ a with controls := controls },
    ⟨batch, Admissions.batchRegistrations P { a with controls := controls } x c, receipt.resultingVersion, true⟩), ?_⟩
  simp only [offerNextWaitlistBatch, permitted, normal, ok_bind, require, size, and_self, if_true, active, hq, getOr,
    locked, Admissions.existingReceipt, received, answers.operation, digest, BatchRequest.digest, pure_bind, hbatch]
  rfl

/-- Nobody has registered, and nothing is on a timeline. -/
structure Unbegun (a : Admissions) : Prop where
  registrations : a.registrations.rows = []
  timeline : a.timeline = []

theorem Unbegun.attested (h : Unbegun a) : Attested a where
  sited r hr := by simp [Table.mem_def, h.registrations] at hr
  offers t ht := by simp [h.timeline] at ht

theorem exec_batch {s s' : System} {call : Call} {x : BatchRequest} {answer : Answer}
    (command : call.command = .offerWaitlistBatch x) (h : exec P s call = .ok (s', answer)) :
    ∃ result, answer = .batch result ∧ offerNextWaitlistBatch P s.store.admissions call.surroundings
      (s.clock + call.elapsed) x call.newId = .ok (s'.store.admissions, result) := by
  replace h := exec_eq_ok h
  obtain ⟨store, rfl, h⟩ := h
  simp only [execCommand, command, Store.withAdmissions, bind_eq_ok, pure_eq_ok, Prod.mk.injEq] at h
  obtain ⟨⟨_, result⟩, h, rfl, rfl⟩ := h
  exact ⟨result, rfl, h⟩

/-- After any run from a store in which nothing has begun, offers of accounts have their receipts.
-/
theorem run_attested (P : Primitives) {s : System} (hs : Unbegun s.store.admissions)
    (calls : List Call) : Attested ((registrationMachine P).run s calls).store.admissions := by
  have keep : ∀ (s : System) call s' answer, Attested s.store.admissions →
      (registrationMachine P).exec s call = .ok (s', answer) → Attested s'.store.admissions :=
    fun _ _ _ _ hs h => hs.exec h
  exact Machine.run_invariant (M := registrationMachine P) (I :=
    fun s => Attested s.store.admissions) keep hs.attested calls

theorem run_recorded {x : BatchRequest} {result : WaitlistBatchResult} {s : System}
    (hs : BatchRecorded P x result s.store.admissions) (calls : List Call) :
    BatchRecorded P x result ((registrationMachine P).run s calls).store.admissions := by
  have keep : ∀ (s : System) call s' answer, BatchRecorded P x result s.store.admissions →
      (registrationMachine P).exec s call = .ok (s', answer) → BatchRecorded P x result s'.store.admissions :=
    fun _ _ _ _ hs h => hs.exec h
  exact Machine.run_invariant (M := registrationMachine P) (I :=
    fun s => BatchRecorded P x result s.store.admissions) keep hs calls

/-- The batch that an account asks for again, with the call of the first time and of this one. -/
theorem run_repeats {s s₁ : System} (hs : Attested s.store.admissions) {call again : Call} {x : BatchRequest}
    {result : WaitlistBatchResult} (command : call.command = .offerWaitlistBatch x)
    (first : exec P s call = .ok (s₁, .batch result)) (between : List Call)
    (repeated : again.command = .offerWaitlistBatch x) :
    (∀ s₃ answer, exec P ((registrationMachine P).run s₁ between) again = .ok (s₃, answer) →
      ∃ second, answer = .batch second ∧ second.replayed = true ∧ second.batch = result.batch ∧
        second.offeredRegistrationIds.Perm result.offeredRegistrationIds ∧
        s₃.store.admissions.registrations = ((registrationMachine P).run s₁ between).store.admissions.registrations) ∧
    ((∃ c, ((registrationMachine P).run s₁ between).store.admissions.activeConfiguration again.surroundings
        x.organizationId x.editionId = .ok c ∧ c.id = result.batch.configurationId) →
      again.surroundings.requireDecision x.actorId .manageExceptions x.organizationId x.editionId = .ok () →
      ∃ s₃ second, exec P ((registrationMachine P).run s₁ between) again = .ok (s₃, .batch second)) := by
  obtain ⟨_, same, offered⟩ := exec_batch command first
  obtain rfl := Answer.batch.inj same
  have recorded := run_recorded (recorded_offerBatch hs offered) between
  generalize (registrationMachine P).run s₁ between = s₂ at recorded ⊢
  constructor
  · intro s₃ answer h
    obtain ⟨second, rfl, answered⟩ := exec_batch repeated h
    obtain ⟨replayed, batch, -, same, registrations⟩ := recorded.repeats answered
    exact ⟨second, rfl, replayed, batch, same, registrations⟩
  · rintro ⟨c, active, id⟩ permitted
    obtain ⟨⟨a, second⟩, answered⟩ := @BatchRecorded.accepted P (s₂.clock + again.elapsed)
      _ _ _ _ recorded (requested_of_offerBatch offered) permitted _ active id again.newId
    refine ⟨⟨s₂.clock + again.elapsed, { s₂.store with admissions := a }⟩, second, ?_⟩
    simp only [Registration.exec, execCommand, repeated, Store.withAdmissions, answered, ok_bind]
    rfl

/-- Offers go to the first who wait, and to as many as there are places; a promotion passes over
those that another transaction holds locked. A batch that is asked for again, at any later time,
answers with the same registrations, in the order of their timeline entries, and offers nobody. -/
theorem waitlist_is_queue (P : Primitives) {start : System} (hs : Unbegun start.store.admissions) :
    (∀ a w now x batchId a' result, offerNextWaitlistBatch P a w now x batchId = .ok (a', result) →
      result.replayed = false →
      ∃ c ∈ a.configurations, ∃ p ∈ a.products, p.id = x.productId ∧ p.configurationId = c.id ∧
        ∃ offered : List Registration, result.offeredRegistrationIds = offered.map Registration.id ∧
          (∀ r ∈ offered, r ∈ a.waitlist w x.productId) ∧
          (∀ r ∈ offered, ∀ left ∈ a'.waitlist w x.productId, r.queueKey < left.queueKey) ∧
          offered.length ≤ x.batchSize.toNat ∧ offered.length ≤ a.freePlaces c p now) ∧
    (∀ a w now locked p correlationId a' promoted,
      Admissions.promoteWaitlistSkippingLocked a w locked p now correlationId = .ok (a', some promoted) →
      ∃ c, a.configurationOf p = .ok c ∧ 1 ≤ a.freePlaces c p now ∧ ∃ r ∈ a.waitlist w p.id, promoted.id = r.id ∧
        ∀ left ∈ a'.waitlist w p.id, locked left.id = false → r.queueKey < left.queueKey) ∧
    ∀ before (call : Call) x s₁ result, call.command = .offerWaitlistBatch x →
      exec P ((registrationMachine P).run start before) call = .ok (s₁, .batch result) →
      ∀ between (again : Call), again.command = .offerWaitlistBatch x →
        (∀ s₃ answer, exec P ((registrationMachine P).run s₁ between) again = .ok (s₃, answer) →
          ∃ second, answer = .batch second ∧ second.replayed = true ∧ second.batch = result.batch ∧
            second.offeredRegistrationIds.Perm result.offeredRegistrationIds ∧
            s₃.store.admissions.registrations =
              ((registrationMachine P).run s₁ between).store.admissions.registrations) ∧
        ((∃ c, ((registrationMachine P).run s₁ between).store.admissions.activeConfiguration again.surroundings
            x.organizationId x.editionId = .ok c ∧ c.id = result.batch.configurationId) →
          again.surroundings.requireDecision x.actorId .manageExceptions x.organizationId x.editionId = .ok () →
          ∃ s₃ second, exec P ((registrationMachine P).run s₁ between) again = .ok (s₃, .batch second)) := by
  refine ⟨fun _ _ _ _ _ _ _ h fresh => offerBatch_fifo h fresh, fun _ _ _ _ _ _ _ _ h => promote_fifo h, ?_⟩
  intro before call x s₁ result command first between again repeated
  exact run_repeats (run_attested P hs before) command first between repeated

/-! ## A queue of two -/

def hallPass : AdmissionProduct := { dayPass with capacity := 3 }

/-- The fair in a hall with three places. -/
def hall : System := { fair with
  store.admissions.configurations := ⟨[{ fairConfiguration with capacity := 3 }], by decide⟩
  store.admissions.products := ⟨[hallPass], by decide⟩ }

/-- Accounts 10, 11 and 20 attend. -/
def queueSurroundings : Surroundings := { fairSurroundings with participations := [(1, 2, 10), (1, 2, 11), (1, 2, 20)] }

def queueCall (newId : Uuid) (command : Command) : Call := ⟨1, queueSurroundings, newId, id, newId, command⟩

/-- There is one place for three, and then there are two more. -/
def queueUp : List Call := [
  queueCall 32 (.adjustCapacity ⟨1, 2, 21, 1, "Smaller hall", 1, 33, some 4⟩),
  queueCall 0x31000000000000000000000000000000 (.submit (fairSubmission 10 none)),
  queueCall 0x32000000000000000000000000000000 (.submit (fairSubmission 11 none)),
  queueCall 0x33000000000000000000000000000000 (.submit (fairSubmission 20 none)),
  queueCall 34 (.adjustCapacity ⟨1, 2, 21, 3, "Larger hall", 2, 35, some 4⟩)]

def queueBatch (newId : Uuid) : Call := queueCall newId (.offerWaitlistBatch ⟨1, 2, 4, 21, 5, "Places came back", 3, 36⟩)

def Answer.offered : Answer → List Uuid
  | .batch result => result.offeredRegistrationIds
  | _ => []

/-- The free places are offered to accounts 11 and 20, and when the batch is sent again it names
these two, and not in the order of the queue. -/
theorem queueBatch_repeats : ∃ s₁ first s₃ second,
    exec fairPrimitives ((registrationMachine fairPrimitives).run hall queueUp) (queueBatch 37) =
      .ok (s₁, .batch first) ∧
      first.offeredRegistrationIds = [0x32000000000000000000000000000000, 0x33000000000000000000000000000000] ∧
      exec fairPrimitives s₁ (queueBatch 38) = .ok (s₃, .batch second) ∧ second.replayed = true ∧
      second.offeredRegistrationIds = [0x33000000000000000000000000000000, 0x32000000000000000000000000000000] ∧
      second.offeredRegistrationIds.Perm first.offeredRegistrationIds ∧
      s₃.store.admissions.registrations = s₁.store.admissions.registrations := by
  obtain ⟨⟨⟨s₁, answer⟩, ⟨s₃, answered⟩⟩, ran⟩ := Except.exists_ok (x := do
    let first ← exec fairPrimitives ((registrationMachine fairPrimitives).run hall queueUp) (queueBatch 37)
    let second ← exec fairPrimitives first.1 (queueBatch 38)
    require (first.2.offered = [0x32000000000000000000000000000000, 0x33000000000000000000000000000000] ∧
      second.2.offered = [0x33000000000000000000000000000000, 0x32000000000000000000000000000000]) (.missing "")
    return (first, second)) (by decide +kernel)
  simp only [bind_eq_ok, require_eq_ok, pure_eq_ok, Prod.mk.injEq] at ran
  obtain ⟨⟨_, _⟩, opened, ⟨_, _⟩, again, _, ⟨offered, reread⟩, ⟨rfl, rfl⟩, rfl, rfl⟩ := ran
  obtain ⟨first, rfl, _⟩ := exec_batch rfl opened
  obtain ⟨second, rfl, replayed, -, same, registrations⟩ :=
    (((@waitlist_is_queue fairPrimitives hall ⟨rfl, rfl⟩).2.2 queueUp _ _ _ _ rfl opened) [] (queueBatch 38) rfl).1
      _ _ again
  exact ⟨s₁, first, s₃, second, opened, offered, again, replayed, reread, same, registrations⟩

/-- The registration of account 11 is held locked, and the place goes to account 20 behind it. -/
theorem locked_passed_over :
    (((registrationMachine fairPrimitives).run hall queueUp).store.admissions.promoteWaitlistSkippingLocked
        queueSurroundings (· = 0x32000000000000000000000000000000) hallPass 5 39).toOption.any (fun (a', promoted) =>
      promoted.any fun r => (a'.waitlist queueSurroundings hallPass.id).any fun left => left.queueKey < r.queueKey) := by
  decide +kernel

end Maru.Registration
